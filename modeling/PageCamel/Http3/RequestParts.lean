import PageCamel.Http3.ChunkBuffer
import PageCamel.Lib.Blocks

/-!
The header fields and the body of a request that are collected for a stream (`h3_connection.c`),
in arrays that grow and may find no memory.
-/

namespace PageCamel.Http3
open PageCamel.Lib PageCamel.Lib.Blocks

/-- `H3_MAX_HEADERS`. -/
def maxHeaders : Nat := 256

/-- `sizeof(h3_header_t)`. -/
def headerSize : Nat := 32

def mulSize (a b : Nat) : Nat := a * b % sizeLimit

/-- `nghttp3_rcbuf`: no object takes more than `PTRDIFF_MAX` octets. -/
structure RcBuf where
  base : Octets
  small : base.length < 2 ^ 63

/-- `h3_header_t`. -/
structure H3Header where
  name : Block UInt8
  nameLen : Nat
  value : Block UInt8
  valueLen : Nat

/-- The part of `h3_stream_t` that is about the request. -/
structure RequestStream where
  headers : Block H3Header := []
  headerCount : Nat := 0
  headerCapacity : Nat := 0
  requestBody : Block UInt8 := []
  requestBodyLen : Nat := 0
  requestBodyCapacity : Nat := 0

/-- Which of the allocations find memory. -/
structure Granted where
  headers : Bool
  name : Bool
  value : Bool

/-- A write outside of an array, or a loop that does not end. -/
inductive Fault where
  | outside
  | endless

/-- The copy of a name or a value, with a NUL behind it. -/
def copyOf (text : RcBuf) : Except Fault (Block UInt8) :=
  match copyInto (fresh (addSize text.base.length 1)) 0 (text.base ++ [0]) with
  | some copy => .ok copy
  | none => .error .outside

namespace RequestStream

/-- `Grow header array if needed`; there is no result where the call fails. -/
def growHeaders (s : RequestStream) (granted : Bool) : Option RequestStream :=
  if s.headerCapacity ≤ s.headerCount then
    let doubled := if s.headerCapacity = 0 then 16 else mulSize s.headerCapacity 2
    let newCapacity := if maxHeaders < doubled then maxHeaders else doubled
    if newCapacity ≤ s.headerCount then none
    else if granted then
      some { s with
        headers := resized s.headers (mulSize newCapacity headerSize / headerSize)
        headerCapacity := newCapacity }
    else none
  else some s

def storeHeader (s : RequestStream) (name value : RcBuf) : Except Fault RequestStream :=
  match copyOf name, copyOf value with
  | .error fault, _ => .error fault
  | _, .error fault => .error fault
  | .ok nameCopy, .ok valueCopy =>
      let header : H3Header := ⟨nameCopy, name.base.length, valueCopy, value.base.length⟩
      match copyInto s.headers s.headerCount [header] with
      | none => .error .outside
      | some headers => .ok { s with headers, headerCount := addSize s.headerCount 1 }

/-- `h3_stream_add_header`. -/
def addHeader (s : RequestStream) (name value : RcBuf) (granted : Granted) :
    Except Fault (RequestStream × Int) :=
  match s.growHeaders granted.headers with
  | none => .ok (s, -1)
  | some s =>
      if granted.name && granted.value then (s.storeHeader name value).map (·, 0) else .ok (s, -1)

/-- `while (new_capacity < new_len)`. A capacity that was doubled 64 times is zero and stays so. -/
def doubleUntil : Nat → Nat → Nat → Except Fault Nat
  | 0, _, _ => .error .endless
  | turns + 1, newCapacity, newLen =>
      if newCapacity < newLen then doubleUntil turns (mulSize newCapacity 2) newLen else .ok newCapacity

/-- The body's array with room for `newLen` octets, or nothing where there is no memory. -/
def growBody (s : RequestStream) (newLen : Nat) (granted : Bool) : Except Fault (Option RequestStream) :=
  if s.requestBodyCapacity < newLen then
    let start := if s.requestBodyCapacity = 0 then 4096 else mulSize s.requestBodyCapacity 2
    (doubleUntil 65 start newLen).map fun newCapacity =>
      if granted then
        some { s with
          requestBody := resized s.requestBody newCapacity
          requestBodyCapacity := newCapacity }
      else none
  else .ok (some s)

/-- `h3_stream_append_request_body`. -/
def appendRequestBody (s : RequestStream) (data : Octets) (granted : Bool) :
    Except Fault (RequestStream × Int) :=
  if data = [] then .ok (s, 0)
  else
    let newLen := addSize s.requestBodyLen data.length
    match s.growBody newLen granted with
    | .error fault => .error fault
    | .ok none => .ok (s, -1)
    | .ok (some s) =>
        match copyInto s.requestBody s.requestBodyLen data with
        | none => .error .outside
        | some requestBody => .ok ({ s with requestBody, requestBodyLen := newLen }, 0)

end RequestStream

/-- The calls of the callbacks of `nghttp3` for a stream. -/
inductive StreamCall where
  | header (name value : RcBuf) (granted : Granted)
  | data (octets : Octets) (granted : Bool)

namespace StreamCall

def fields : StreamCall → List (Octets × Octets)
  | .header name value _ => [(name.base, value.base)]
  | .data _ _ => []

def octets : StreamCall → Octets
  | .header _ _ _ => []
  | .data octets _ => octets

def run (s : RequestStream) : StreamCall → Except Fault (RequestStream × Int)
  | .header name value granted => s.addHeader name value granted
  | .data octets granted => s.appendRequestBody octets granted

/-- An allocation that the call needs finds no memory, or there are as many fields as there may be. -/
def Starved (s : RequestStream) : StreamCall → Prop
  | .header _ _ granted => s.headerCount = maxHeaders ∨
      s.headerCount = s.headerCapacity ∧ granted.headers = false ∨
      granted.name = false ∨ granted.value = false
  | .data octets granted =>
      s.requestBodyCapacity < s.requestBodyLen + octets.length ∧ granted = false

end StreamCall

/-- What comes on one stream; no offset of a QUIC stream is beyond 2 ^ 62 - 1. -/
structure QuicStream where
  calls : List StreamCall
  offset_lt : (calls.flatMap StreamCall.octets).length < 2 ^ 62

/-! ### What is stored -/

/-- A field as it stands in the array, with the NULs of the copies. -/
def stored (field : Octets × Octets) : H3Header :=
  ⟨(field.1 ++ [0]).map some, field.1.length, (field.2 ++ [0]).map some, field.2.length⟩

/-- The arrays hold the fields and the body, in order, and are as large as the capacities say. -/
structure Stored (s : RequestStream) (fields : List (Octets × Octets)) (body : Octets) : Prop where
  count_eq : s.headerCount = fields.length
  count_le : s.headerCount ≤ s.headerCapacity
  capacity_le : s.headerCapacity ≤ maxHeaders
  headers_length : s.headers.length = s.headerCapacity
  headers_hold : Holds s.headers (fields.map stored)
  len_eq : s.requestBodyLen = body.length
  len_le : s.requestBodyLen ≤ s.requestBodyCapacity
  body_length : s.requestBody.length = s.requestBodyCapacity
  body_holds : Holds s.requestBody body
  body_power : s.requestBodyCapacity = 0 ∨ ∃ k ≤ 62, s.requestBodyCapacity = 2 ^ k

/-- Every call ends without a fault and stores what came with it; where it is starved it changes
nothing of what is stored. -/
def Keeps (s : RequestStream) (fields : List (Octets × Octets)) (body : Octets) :
    List StreamCall → Prop
  | [] => Stored s fields body
  | call :: calls => Stored s fields body ∧ ∃ s' code, call.run s = .ok (s', code) ∧
      (¬ call.Starved s ∧ code = 0 ∧ Keeps s' (fields ++ call.fields) (body ++ call.octets) calls ∨
        call.Starved s ∧ code = -1 ∧ Keeps s' fields body calls)

variable {s : RequestStream} {fields : List (Octets × Octets)} {body data : Octets}

theorem stored_start : Stored {} [] [] where
  count_eq := rfl
  count_le := Nat.le_refl _
  capacity_le := Nat.zero_le _
  headers_length := rfl
  headers_hold := holds_nil _
  len_eq := rfl
  len_le := Nat.le_refl _
  body_length := rfl
  body_holds := holds_nil _
  body_power := .inl rfl

theorem mulSize_of_lt {a b : Nat} (h : a * b < sizeLimit) : mulSize a b = a * b := Nat.mod_eq_of_lt h

theorem copyOf_eq (text : RcBuf) : copyOf text = .ok ((text.base ++ [0]).map some) := by
  have hSize : addSize text.base.length 1 = (text.base ++ [0]).length := by
    rw [List.length_append, List.length_singleton]
    exact addSize_of_lt (Nat.lt_of_lt_of_le (Nat.succ_lt_succ text.small) (by decide))
  have hFresh : (fresh (text.base ++ [0]).length : Block UInt8).length = (text.base ++ [0]).length :=
    List.length_replicate
  have hCopy : copyInto (fresh (text.base ++ [0]).length) 0 (text.base ++ [0]) =
      some ((text.base ++ [0]).map some) := by
    rw [copyInto, if_pos (by rw [hFresh, Nat.zero_add]), Nat.zero_add,
      List.drop_of_length_le (Nat.le_of_eq hFresh), List.append_nil]
    rfl
  rw [copyOf, hSize, hCopy]

/-! ### Header fields -/

/-- The array is doubled, up to the largest size. -/
theorem newCapacity_le_iff (h : Stored s fields body) (hFull : s.headerCapacity ≤ s.headerCount)
    {doubled newCapacity : Nat}
    (hDoubled : (if s.headerCapacity = 0 then 16 else mulSize s.headerCapacity 2) = doubled)
    (hNew : (if maxHeaders < doubled then maxHeaders else doubled) = newCapacity) :
    newCapacity ≤ s.headerCount ↔ s.headerCount = maxHeaders := by
  have hCapacity := h.capacity_le
  have hCount := h.count_le
  have hTwice : mulSize s.headerCapacity 2 = s.headerCapacity * 2 :=
    mulSize_of_lt (Nat.lt_of_le_of_lt (Nat.mul_le_mul_right 2 hCapacity) (by decide))
  rw [hTwice] at hDoubled
  have hMost : maxHeaders = 256 := rfl
  split_ifs at hDoubled hNew <;> omega

theorem growHeaders_spec (h : Stored s fields body) (granted : Bool) :
    s.growHeaders granted = none ∧ (s.headerCount = maxHeaders ∨
        s.headerCount = s.headerCapacity ∧ granted = false) ∨
      ¬ (s.headerCount = maxHeaders ∨ s.headerCount = s.headerCapacity ∧ granted = false) ∧
      ∃ s', s.growHeaders granted = some s' ∧ Stored s' fields body ∧
        s'.headerCount < s'.headerCapacity := by
  have hCount := h.count_le
  rw [RequestStream.growHeaders]
  split
  · next hFull =>
    obtain ⟨doubled, hDoubled⟩ : ∃ doubled,
        (if s.headerCapacity = 0 then 16 else mulSize s.headerCapacity 2) = doubled := ⟨_, rfl⟩
    obtain ⟨newCapacity, hNew⟩ : ∃ newCapacity,
        (if maxHeaders < doubled then maxHeaders else doubled) = newCapacity := ⟨_, rfl⟩
    have hLast := newCapacity_le_iff h hFull hDoubled hNew
    have hMost : newCapacity ≤ maxHeaders := by
      rw [← hNew]
      split
      · exact Nat.le_refl _
      · next hLess => exact Nat.not_lt.mp hLess
    dsimp only
    rw [hDoubled, hNew]
    split
    · next hNone => exact .inl ⟨rfl, .inl (hLast.mp hNone)⟩
    · next hRoom =>
      cases granted with
      | false => exact .inl ⟨rfl, .inr ⟨Nat.le_antisymm hCount hFull, rfl⟩⟩
      | true =>
        have hSlots : mulSize newCapacity headerSize / headerSize = newCapacity := by
          have hSmall : newCapacity * headerSize < sizeLimit :=
            Nat.lt_of_le_of_lt (Nat.mul_le_mul_right headerSize hMost) (by decide)
          rw [mulSize_of_lt hSmall]
          exact Nat.mul_div_cancel _ (by decide)
        have hFits : (fields.map stored).length ≤ newCapacity := by
          rw [List.length_map, ← h.count_eq]
          exact Nat.le_of_lt (Nat.not_le.mp hRoom)
        refine .inr ⟨by simpa using fun hMost => hRoom (hLast.mpr hMost), _, rfl, { h with
          count_le := Nat.le_of_lt (Nat.not_le.mp hRoom)
          capacity_le := hMost
          headers_length := ?_
          headers_hold := ?_ }, Nat.not_le.mp hRoom⟩
        · rw [hSlots]
          exact length_resized _ _
        · rw [hSlots]
          exact h.headers_hold.resized hFits
  · next hRoom =>
    have hCapacity := h.capacity_le
    exact .inr ⟨by omega, s, rfl, h, Nat.not_le.mp hRoom⟩

theorem storeHeader_spec (h : Stored s fields body) (hRoom : s.headerCount < s.headerCapacity)
    (name value : RcBuf) :
    ∃ s', s.storeHeader name value = .ok s' ∧ Stored s' (fields ++ [(name.base, value.base)]) body := by
  have hLength : (fields.map stored).length = s.headerCount := by rw [List.length_map, h.count_eq]
  have hFree : (fields.map stored).length + [stored (name.base, value.base)].length ≤ s.headers.length := by
    rw [hLength, List.length_singleton, h.headers_length]
    exact hRoom
  obtain ⟨headers, hCopied, hHolds, hSame⟩ := h.headers_hold.copyInto hFree
  rw [hLength, stored] at hCopied
  have hCount : addSize s.headerCount 1 = s.headerCount + 1 :=
    addSize_of_lt (Nat.lt_of_le_of_lt (Nat.succ_le_of_lt (Nat.lt_of_lt_of_le hRoom h.capacity_le)) (by decide))
  refine ⟨{ s with headers, headerCount := addSize s.headerCount 1 }, ?_, { h with
    count_eq := ?_, count_le := ?_, headers_length := ?_, headers_hold := ?_ }⟩
  · rw [RequestStream.storeHeader, copyOf_eq, copyOf_eq]
    dsimp only
    rw [hCopied]
  · rw [hCount, h.count_eq, List.length_append, List.length_singleton]
  · rw [hCount]
    exact hRoom
  · rw [hSame, h.headers_length]
  · rw [List.map_append]
    exact hHolds

theorem addHeader_spec (h : Stored s fields body) (name value : RcBuf) (granted : Granted) :
    ∃ s' code, s.addHeader name value granted = .ok (s', code) ∧
      (¬ (StreamCall.header name value granted).Starved s ∧ code = 0 ∧
          Stored s' (fields ++ [(name.base, value.base)]) body ∨
        (StreamCall.header name value granted).Starved s ∧ code = -1 ∧ Stored s' fields body) := by
  rw [RequestStream.addHeader, StreamCall.Starved, ← or_assoc]
  rcases growHeaders_spec h granted.headers with ⟨hNone, hFull⟩ | ⟨hSlot, grown, hSome, hStored, hRoom⟩
  · rw [hNone]
    exact ⟨s, -1, rfl, .inr ⟨.inl hFull, rfl, h⟩⟩
  · rw [hSome]
    dsimp only
    split
    · next hBoth =>
      rw [Bool.and_eq_true] at hBoth
      obtain ⟨s', hStore, hAll⟩ := storeHeader_spec hStored hRoom name value
      rw [hStore]
      exact ⟨s', 0, rfl, .inl ⟨by simp [hSlot, hBoth], rfl, hAll⟩⟩
    · next hNeither =>
      rw [Bool.and_eq_true, not_and_or, Bool.not_eq_true, Bool.not_eq_true] at hNeither
      exact ⟨grown, -1, rfl, .inr ⟨.inr hNeither, rfl, hStored⟩⟩

/-! ### The body -/

/-- By induction on the turns: a power of two is doubled until it is large enough. -/
theorem doubleUntil_spec {newLen : Nat} (hLen : newLen ≤ 2 ^ 62) (turns k : Nat) (hPower : k ≤ 62)
    (hTurns : 63 ≤ turns + k) :
    ∃ k', k ≤ k' ∧ k' ≤ 62 ∧ RequestStream.doubleUntil turns (2 ^ k) newLen = .ok (2 ^ k') ∧
      newLen ≤ 2 ^ k' := by
  induction turns generalizing k with
  | zero => omega
  | succ turns ih =>
    rw [RequestStream.doubleUntil]
    split
    · next hLess =>
      have hMore : k + 1 ≤ 62 := by
        by_contra hLast
        obtain rfl : k = 62 := by omega
        omega
      have hDouble : mulSize (2 ^ k) 2 = 2 ^ (k + 1) := by
        refine (mulSize_of_lt ?_).trans (Nat.pow_succ 2 k).symm
        rw [← Nat.pow_succ]
        exact Nat.pow_lt_pow_right (by decide) (by omega)
      rw [hDouble]
      obtain ⟨k', hFrom, hTo, hLoop, hEnough⟩ := ih (k + 1) hMore (by omega)
      exact ⟨k', by omega, hTo, hLoop, hEnough⟩
    · next hEnough => exact ⟨k, Nat.le_refl k, hPower, rfl, Nat.not_lt.mp hEnough⟩

/-- The loop ends with room for the needed length. -/
theorem growBody_spec (h : Stored s fields body) {newLen : Nat} (hMore : s.requestBodyLen ≤ newLen)
    (hLen : newLen < 2 ^ 62) (granted : Bool) :
    s.growBody newLen granted = .ok none ∧ s.requestBodyCapacity < newLen ∧ granted = false ∨
      ¬ (s.requestBodyCapacity < newLen ∧ granted = false) ∧
      ∃ s', s.growBody newLen granted = .ok (some s') ∧ Stored s' fields body ∧
        s'.requestBodyLen = s.requestBodyLen ∧ newLen ≤ s'.requestBodyCapacity := by
  rw [RequestStream.growBody]
  split
  · next hShort =>
    obtain ⟨start, hStart, k, hPower, rfl⟩ : ∃ start,
        (if s.requestBodyCapacity = 0 then 4096 else mulSize s.requestBodyCapacity 2) = start ∧
          ∃ k ≤ 62, start = 2 ^ k := by
      rcases h.body_power with hZero | ⟨k, hPower, hCapacity⟩
      · exact ⟨_, rfl, 12, by decide, if_pos hZero⟩
      · have hLess : k < 62 := by
          rw [hCapacity] at hShort
          exact (Nat.pow_lt_pow_iff_right (by decide)).mp (Nat.lt_trans hShort hLen)
        have hSome : s.requestBodyCapacity ≠ 0 := by
          rw [hCapacity]
          exact (Nat.two_pow_pos k).ne'
        refine ⟨_, rfl, k + 1, hLess, ?_⟩
        rw [if_neg hSome, hCapacity, Nat.pow_succ]
        refine mulSize_of_lt ?_
        rw [← Nat.pow_succ]
        exact Nat.pow_lt_pow_right (by decide) (by omega)
    obtain ⟨k', -, hTo, hLoop, hEnough⟩ := doubleUntil_spec (Nat.le_of_lt hLen) 65 k hPower (by omega)
    dsimp only
    rw [hStart, hLoop]
    cases granted with
    | false => exact .inl ⟨rfl, hShort, rfl⟩
    | true =>
      have hBody : body.length ≤ 2 ^ k' := by
        rw [← h.len_eq]
        exact Nat.le_trans hMore hEnough
      refine .inr ⟨(nomatch ·.2), _, rfl, { h with
        len_le := Nat.le_trans hMore hEnough
        body_length := length_resized _ _
        body_holds := h.body_holds.resized hBody
        body_power := .inr ⟨k', hTo, rfl⟩ }, rfl, hEnough⟩
  · next hEnough =>
    exact .inr ⟨fun hStarved => hEnough hStarved.1, s, rfl, h, rfl, Nat.not_lt.mp hEnough⟩

theorem appendRequestBody_spec (h : Stored s fields body) (hLen : (body ++ data).length < 2 ^ 62)
    (granted : Bool) :
    ∃ s' code, s.appendRequestBody data granted = .ok (s', code) ∧
      (¬ (StreamCall.data data granted).Starved s ∧ code = 0 ∧ Stored s' fields (body ++ data) ∨
        (StreamCall.data data granted).Starved s ∧ code = -1 ∧ Stored s' fields body) := by
  rw [RequestStream.appendRequestBody, StreamCall.Starved]
  split
  · next hNone =>
    rw [hNone, List.append_nil]
    exact ⟨s, 0, rfl, .inl ⟨fun hStarved => Nat.not_lt.mpr h.len_le hStarved.1, rfl, h⟩⟩
  · have hNew : addSize s.requestBodyLen data.length = (body ++ data).length := by
      rw [List.length_append, ← h.len_eq]
      rw [List.length_append, ← h.len_eq] at hLen
      exact addSize_of_lt (Nat.lt_trans hLen (by decide))
    have hSum : s.requestBodyLen + data.length = (body ++ data).length := by
      rw [h.len_eq, List.length_append]
    have hMore : s.requestBodyLen ≤ (body ++ data).length := by
      rw [h.len_eq, List.length_append]
      exact Nat.le_add_right _ _
    dsimp only
    rw [hNew, hSum]
    rcases growBody_spec h hMore hLen granted with
      ⟨hNone, hStarved⟩ | ⟨hFed, grown, hSome, hStored, hSame, hEnough⟩
    · rw [hNone]
      exact ⟨s, -1, rfl, .inr ⟨hStarved, rfl, h⟩⟩
    · have hFree : body.length + data.length ≤ grown.requestBody.length := by
        rw [← List.length_append, hStored.body_length]
        exact hEnough
      obtain ⟨requestBody, hCopied, hHolds, hLength⟩ := hStored.body_holds.copyInto hFree
      rw [← hStored.len_eq] at hCopied
      rw [hSome]
      dsimp only
      rw [hCopied]
      exact ⟨_, 0, rfl, .inl ⟨hFed, rfl, { hStored with
        len_eq := rfl
        len_le := hEnough
        body_length := hLength.trans hStored.body_length
        body_holds := hHolds }⟩⟩

/-! ### Runs -/

theorem run_spec (h : Stored s fields body) (call : StreamCall)
    (hLen : (body ++ call.octets).length < 2 ^ 62) :
    ∃ s' code, call.run s = .ok (s', code) ∧
      (¬ call.Starved s ∧ code = 0 ∧ Stored s' (fields ++ call.fields) (body ++ call.octets) ∨
        call.Starved s ∧ code = -1 ∧ Stored s' fields body) := by
  cases call with
  | header name value granted =>
    rw [StreamCall.octets, List.append_nil]
    exact addHeader_spec h name value granted
  | data octets granted =>
    rw [StreamCall.fields, List.append_nil]
    exact appendRequestBody_spec h hLen granted

theorem keeps_calls (calls : List StreamCall) (h : Stored s fields body)
    (hLen : (body ++ calls.flatMap StreamCall.octets).length < 2 ^ 62) : Keeps s fields body calls := by
  induction calls generalizing s fields body with
  | nil => exact h
  | cons call calls ih =>
    rw [List.flatMap_cons, ← List.append_assoc, List.length_append] at hLen
    obtain ⟨s', code, hRun, hCode⟩ := run_spec h call (Nat.lt_of_le_of_lt (Nat.le_add_right _ _) hLen)
    refine ⟨h, s', code, hRun, ?_⟩
    rcases hCode with ⟨hFed, hDone, hStored⟩ | ⟨hStarved, hFailed, hStored⟩
    · refine .inl ⟨hFed, hDone, ih hStored ?_⟩
      rwa [List.length_append]
    · refine .inr ⟨hStarved, hFailed, ih hStored ?_⟩
      rw [List.length_append] at hLen ⊢
      omega

/-- Whatever comes on a stream and whichever allocations fail. -/
theorem request_parts_kept (stream : QuicStream) : Keeps {} [] [] stream.calls :=
  keeps_calls stream.calls stored_start stream.offset_lt

/-- Two fields, one for whose value there is no memory, and a body in two pieces. -/
def posted : QuicStream where
  calls :=
    [.header ⟨[97], by decide⟩ ⟨[98, 99], by decide⟩ ⟨true, true, true⟩,
      .header ⟨[100], by decide⟩ ⟨[101], by decide⟩ ⟨true, true, false⟩,
      .header ⟨[102], by decide⟩ ⟨[], by decide⟩ ⟨true, true, true⟩,
      .data [1, 2] true, .data [3] true]
  offset_lt := by decide

theorem request_parts_kept_posted : Keeps {} [] [] posted.calls ∧
    let after := (posted.calls.foldlM (fun s call => (StreamCall.run s call).map (·.1)) {}).toOption
    after.map (fun s => (s.headers.take 3).map (·.map H3Header.name)) =
        some [some [some 97, some 0], some [some 102, some 0], none] ∧
      after.map (fun s => s.requestBody.take 4) = some [some 1, some 2, some 3, none] :=
  ⟨request_parts_kept posted, by decide +kernel⟩

end PageCamel.Http3

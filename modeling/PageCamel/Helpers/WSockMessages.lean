import PageCamel.Helpers.WSockFrame
import PageCamel.Lib.Framing
import PageCamel.Lib.Runs

/-!
WebSocket messages over a stream that arrives in pieces. A message is written as one
frame or as several fragments with control frames in between; the reader takes frames
off the octets that have arrived and puts the fragments together again.
-/

namespace PageCamel.Helpers
open PageCamel.Lib

/-! ### Numbers -/

theorem unpack63_pack {n : Nat} (h : n < 2 ^ 63) :
    WSockFrame.unpack63 (pack32 (n >>> 32) ++ pack32 (n &&& 0xFFFFFFFF)) = n := by
  have hMask : n &&& 0xFFFFFFFF = n % 2 ^ 32 := Nat.and_two_pow_sub_one_eq_mod n 32
  have hShift : n >>> 32 = n / 2 ^ 32 := Nat.shiftRight_eq_div_pow n 32
  have hDrop : (pack32 (n >>> 32) ++ pack32 (n &&& 0xFFFFFFFF)).drop 4 =
      pack32 (n &&& 0xFFFFFFFF) ++ [] := by
    rw [List.append_nil]
    rfl
  have hLength : (pack32 (n >>> 32) ++ pack32 (n &&& 0xFFFFFFFF)).length = 8 := rfl
  rw [WSockFrame.unpack63, if_neg (by omega), hDrop, unpack32_pack32 (by omega),
    unpack32_pack32 (by omega), Nat.and_two_pow_sub_one_eq_mod, Nat.shiftLeft_eq]
  omega

/-- The bit and the number in the second octet of a frame. -/
theorem second_octet (masked : Bool) {short : Nat} (h : short < 128) :
    decide (((UInt8.ofNat (short + if masked then 128 else 0)).toNat &&& 0x80) >>> 7 ≠ 0) = masked ∧
      (UInt8.ofNat (short + if masked then 128 else 0)).toNat &&& 0x7F = short := by
  have hAll : ∀ masked : Bool, ∀ short < 128,
      decide (((UInt8.ofNat (short + if masked then 128 else 0)).toNat &&& 0x80) >>> 7 ≠ 0) = masked ∧
        (UInt8.ofNat (short + if masked then 128 else 0)).toNat &&& 0x7F = short := by
    decide +kernel
  exact hAll masked short h

namespace WSockFrame

/-! ### Masking -/

theorem length_key (payload : Octets) {mask : Octets} (h : mask.length = 4) :
    ((List.replicate (payload.length / 4 + 1) mask).flatten.take payload.length).length =
      payload.length := by
  rw [List.length_take, List.length_flatten, List.map_replicate, List.sum_replicate_nat, h]
  omega

theorem length_maskWith (payload : Octets) {mask : Octets} (h : mask.length = 4) :
    (maskWith payload mask).length = payload.length := by
  rw [maskWith, List.length_zipWith, length_key payload h, Nat.min_self]

/-- Masking twice gives the payload back. -/
theorem maskWith_maskWith (payload : Octets) {mask : Octets} (h : mask.length = 4) :
    maskWith (maskWith payload mask) mask = payload := by
  have hTwice (payload key : Octets) (hLength : payload.length ≤ key.length) :
      (payload.zipWith (· ^^^ ·) key).zipWith (· ^^^ ·) key = payload := by
    induction payload generalizing key with
    | nil => rfl
    | cons b payload ih =>
        cases key with
        | nil => simp at hLength
        | cons k key =>
            rw [List.zipWith_cons_cons, List.zipWith_cons_cons, ih key (by simpa using hLength),
              UInt8.xor_assoc, UInt8.xor_self, UInt8.xor_zero]
  conv_lhs => rw [maskWith]
  rw [length_maskWith payload h]
  exact hTwice payload _ (length_key payload h).ge

/-! ### The length of a frame -/

theorem lengthOctets_short (masked : Bool) {n : Nat} (h : n ≤ 125) :
    lengthOctets masked n = [UInt8.ofNat (n + if masked then 128 else 0)] := by
  have hOr : ∀ masked : Bool, ∀ n ≤ 125,
      (n ||| if masked then 128 else 0) = n + if masked then 128 else 0 := by
    decide +kernel
  rw [lengthOctets]
  rw [if_pos h, hOr masked n h]

theorem lengthOctets_middle (masked : Bool) {n : Nat} (h : ¬ n ≤ 125) (hMiddle : n ≤ 0xFFFF) :
    lengthOctets masked n = UInt8.ofNat (126 + if masked then 128 else 0) :: pack16 n := by
  rw [lengthOctets]
  rw [if_neg h, if_pos hMiddle]

theorem lengthOctets_long (masked : Bool) {n : Nat} (h : ¬ n ≤ 0xFFFF) :
    lengthOctets masked n = UInt8.ofNat (127 + if masked then 128 else 0) ::
      (pack32 (n >>> 32) ++ pack32 (n &&& 0xFFFFFFFF)) := by
  rw [lengthOctets]
  rw [if_neg (by omega), if_neg h]
  rfl

/-- The number in the second octet. -/
def shortLength (n : Nat) : Nat := if n ≤ 125 then n else if n ≤ 0xFFFF then 126 else 127

theorem shortLength_lt (n : Nat) : shortLength n < 128 := by
  unfold shortLength
  split
  · omega
  · split <;> omega

theorem lengthOctets_eq (masked : Bool) (n : Nat) :
    ∃ more, lengthOctets masked n =
      UInt8.ofNat (shortLength n + if masked then 128 else 0) :: more := by
  unfold shortLength
  by_cases hShort : n ≤ 125
  · exact ⟨[], by rw [lengthOctets_short masked hShort, if_pos hShort]⟩
  · by_cases hMiddle : n ≤ 0xFFFF
    · exact ⟨_, by rw [lengthOctets_middle masked hShort hMiddle, if_neg hShort, if_pos hMiddle]⟩
    · exact ⟨_, by rw [lengthOctets_long masked hMiddle, if_neg hShort, if_neg hMiddle]⟩

/-- The length that was written is read back. -/
theorem payloadLength_lengthOctets (first : UInt8) (masked : Bool) {n : Nat} (h : n < 2 ^ 63)
    (rest : Octets) :
    payloadLength (first :: lengthOctets masked n ++ rest) (shortLength n) =
      some (n, (first :: lengthOctets masked n).length) := by
  unfold payloadLength shortLength
  by_cases hShort : n ≤ 125
  · rw [if_pos hShort, if_neg (by omega), if_neg (by omega), lengthOctets_short masked hShort]
    rfl
  · rw [if_neg hShort]
    by_cases hMiddle : n ≤ 0xFFFF
    · rw [if_pos hMiddle, if_pos rfl, lengthOctets_middle masked hShort hMiddle,
        if_pos (by simp [pack16])]
      have hDrop : (first :: UInt8.ofNat (126 + if masked then 128 else 0) :: pack16 n ++ rest).drop 2 =
          pack16 n ++ rest := rfl
      rw [hDrop, unpack16_pack16 (by omega)]
      rfl
    · rw [if_neg hMiddle, if_neg (by omega), if_pos (by omega), lengthOctets_long masked hMiddle,
        if_pos (by simp [pack32])]
      have hTake : ((first :: UInt8.ofNat (127 + if masked then 128 else 0) :: (pack32 (n >>> 32) ++
          pack32 (n &&& 0xFFFFFFFF)) ++ rest).drop 2).take 8 =
            pack32 (n >>> 32) ++ pack32 (n &&& 0xFFFFFFFF) := rfl
      rw [hTake, unpack63_pack h]
      rfl

/-- Reading behind a complete header. -/
theorem readHead_header (first : UInt8) (masked : Bool) {n : Nat} (h : n < 2 ^ 63) {max : Nat}
    (hMax : max = 0 ∨ n ≤ max) (t : Octets) :
    readHead max (first :: lengthOctets masked n ++ t) =
      if masked then
        if t.length < 4 + n then .more
        else .whole (maskWith ((t.drop 4).take n) (t.take 4)) (t.drop (4 + n))
      else if t.length < n then .more
      else .whole (t.take n) (t.drop n) := by
  have hLength := payloadLength_lengthOctets first masked h t
  obtain ⟨more, hSecond⟩ := lengthOctets_eq masked n
  obtain ⟨hBit, hShort⟩ := second_octet masked (shortLength_lt n)
  have hOctet : unpack8 ((first :: lengthOctets masked n ++ t).drop 1) =
      (UInt8.ofNat (shortLength n + if masked then 128 else 0)).toNat := by
    rw [hSecond]
    rfl
  have hFits : ¬ (max ≠ 0 ∧ n > max) := by omega
  rw [readHead]
  dsimp only
  rw [hOctet, hShort, hBit, hLength]
  generalize first :: lengthOctets masked n = header
  have hDrop (k : Nat) : (header ++ t).drop (header.length + k) = t.drop k :=
    List.drop_length_add_append k
  have hBody : (header ++ t).drop header.length = t := List.drop_left
  cases masked with
  | true =>
      simp only [hFits, if_false, true_and, if_true, List.length_append, hDrop, hBody,
        Nat.add_assoc, Nat.add_lt_add_iff_left]
      by_cases hKey : t.length < 4
      · rw [if_pos hKey, if_pos (by omega)]
      · rw [if_neg hKey]
  | false =>
      simp only [hFits, if_false, Bool.false_eq_true, false_and, List.length_append, hDrop,
        hBody, Nat.add_lt_add_iff_left]

/-- A header that claims no payload and is not there in full. -/
theorem readHead_more {buffer : Octets} (max : Nat)
    (h : ∀ n offset, payloadLength buffer (unpack8 (buffer.drop 1) &&& 0x7F) = some (n, offset) →
      n = 0 ∧ buffer.length < offset) : readHead max buffer = .more := by
  rw [readHead]
  dsimp only
  cases hLength : payloadLength buffer (unpack8 (buffer.drop 1) &&& 0x7F) with
  | none => rfl
  | some found =>
      obtain ⟨n, offset⟩ := found
      obtain ⟨rfl, hShort⟩ := h n offset hLength
      dsimp only
      rw [if_neg (by omega)]
      split
      · rfl
      · rw [if_pos]
        split <;> omega

/-- A header that is not complete. -/
theorem readHead_part (first : UInt8) (masked : Bool) (n max : Nat) {part : Octets}
    (hPart : part <+: first :: lengthOctets masked n)
    (hShorter : part.length < (first :: lengthOctets masked n).length) :
    readHead max part = .more := by
  refine readHead_more max fun found offset hLength => ?_
  by_cases hTwo : part.length < 2
  · -- the second octet is undefined and counts as zero
    have hNone : part.drop 1 = [] := List.drop_eq_nil_of_le (by omega)
    rw [hNone, payloadLength, unpack8, if_neg (by decide), if_neg (by decide)] at hLength
    cases hLength
    exact ⟨rfl, hTwo⟩
  · obtain ⟨more, hSecond⟩ := lengthOctets_eq masked n
    obtain ⟨-, hShort⟩ := second_octet masked (shortLength_lt n)
    rw [hSecond] at hPart
    obtain ⟨rest, hRest⟩ := hPart
    have hOctet : unpack8 (part.drop 1) =
        (UInt8.ofNat (shortLength n + if masked then 128 else 0)).toNat := by
      match part, hTwo with
      | [], hTwo => exact absurd (by simp) hTwo
      | [_], hTwo => exact absurd (by simp) hTwo
      | a :: b :: part, _ =>
          rw [List.cons_append, List.cons_append, List.cons.injEq, List.cons.injEq] at hRest
          rw [← hRest.2.1]
          rfl
    rw [List.length_cons] at hShorter
    rw [hOctet, hShort, payloadLength] at hLength
    unfold shortLength at hLength
    by_cases hSmall : n ≤ 125
    · rw [lengthOctets_short masked hSmall] at hShorter
      exact absurd hShorter (by simpa using hTwo)
    · rw [if_neg hSmall] at hLength
      by_cases hMiddle : n ≤ 0xFFFF
      · rw [lengthOctets_middle masked hSmall hMiddle] at hShorter
        rw [if_pos hMiddle, if_pos rfl, if_neg] at hLength
        · cases hLength
        · simp only [List.length_cons, pack16, List.length_nil] at hShorter
          omega
      · rw [lengthOctets_long masked hMiddle] at hShorter
        simp only [List.length_cons, List.length_append, pack32, List.length_nil] at hShorter
        rw [if_neg hMiddle, if_neg (by omega), if_pos (by omega)] at hLength
        split at hLength
        · have hZero : unpack63 ((part.drop 2).take 8) = 0 := by
            rw [unpack63, if_pos]
            rw [List.length_take, List.length_drop]
            omega
          rw [hZero] at hLength
          cases hLength
          exact ⟨rfl, by omega⟩
        · cases hLength

end WSockFrame

/-! ### Frames on the wire -/

/-- The arguments of `new` for a frame but its opcode and `fin`, and the number drawn for
its mask when none is given. A string has fewer than 2^63 octets. -/
structure Fragment where
  payload : Octets
  size : payload.length < 2 ^ 63
  rsv : Option (Bool × Bool × Bool) := none
  masked : Bool := false
  mask : Option Nat := none
  random : Nat := 0
  maxPayloadSize : Nat := maxPayloadSizeDefault

structure Sent where
  fragment : Fragment
  opcode : Nat
  fin : Bool

namespace Sent

def frame (s : Sent) : WSockFrame :=
  .new
    { buffer := s.fragment.payload
      opcode? := some s.opcode
      fin? := some s.fin
      rsv := s.fragment.rsv
      masked := s.fragment.masked
      mask := s.fragment.mask
      maxPayloadSize := s.fragment.maxPayloadSize }

/-- The mask in the frame. -/
def key (s : Sent) : Octets :=
  let given := s.fragment.mask.getD 0
  pack32 (if given ≠ 0 then given else s.fragment.random)

def first (s : Sent) : UInt8 :=
  UInt8.ofNat (s.opcode ||| s.frame.rsvSet ||| (if s.fin then 128 else 0))

def header (s : Sent) : Octets :=
  s.first :: WSockFrame.lengthOctets s.fragment.masked s.fragment.payload.length

def body (s : Sent) : Octets :=
  if s.fragment.masked then s.key ++ WSockFrame.maskWith s.fragment.payload s.key
  else s.fragment.payload

/-- The octets of the frame. -/
def octets (s : Sent) : Octets := s.header ++ s.body

theorem toBytes_frame {s : Sent} {bytes : Octets}
    (h : s.frame.toBytes s.fragment.random = .ok bytes) : bytes = s.octets := by
  rw [WSockFrame.toBytes, if_neg (show ¬ (s.frame.version = .hixie75 ∨ s.frame.version = .hybi00) by
    rintro (hEq | hEq) <;> cases hEq)] at h
  split at h
  · cases h
  · dsimp only at h
    rw [octets, body]
    split at h
    · next hMasked =>
        rw [if_pos (show s.fragment.masked = true from hMasked)]
        cases h
        exact List.append_assoc ..
    · next hPlain =>
        rw [if_neg (show ¬ s.fragment.masked = true from hPlain)]
        cases h
        rfl

theorem octets_ne_nil (s : Sent) : s.octets ≠ [] := List.cons_ne_nil _ _

theorem two_le_length_octets (s : Sent) : 2 ≤ s.octets.length := by
  obtain ⟨more, hMore⟩ :=
    WSockFrame.lengthOctets_eq s.fragment.masked s.fragment.payload.length
  rw [octets, header, hMore, List.length_append, List.length_cons, List.length_cons]
  omega

/-- The first octet holds the opcode and `fin`. -/
theorem first_spec {s : Sent} (h : s.opcode < 16) :
    s.first.toNat &&& 0x0F = s.opcode ∧ s.first.toNat.testBit 7 = s.fin := by
  have hAll : ∀ opcode < 16, ∀ rsv < 8, ∀ fin : Bool,
      (UInt8.ofNat (opcode ||| rsv <<< 4 ||| if fin then 128 else 0)).toNat &&& 0x0F = opcode ∧
        (UInt8.ofNat (opcode ||| rsv <<< 4 ||| if fin then 128 else 0)).toNat.testBit 7 = fin := by
    decide +kernel
  have hRsv : ∃ rsv < 8, s.frame.rsvSet = rsv <<< 4 := by
    rw [WSockFrame.rsvSet]
    rcases s.frame.rsv with _ | ⟨a, b, c⟩
    · exact ⟨0, by decide, rfl⟩
    · refine ⟨a.toNat <<< 2 + b.toNat <<< 1 + c.toNat, ?_, ?_⟩
      · cases a <;> cases b <;> cases c <;> decide
      · cases a <;> cases b <;> cases c <;> rfl
  obtain ⟨rsv, hLt, hRsv⟩ := hRsv
  rw [first, hRsv]
  exact hAll s.opcode h rsv hLt s.fin

/-- The payload fits the limit of the reader. -/
def Fits (max : Nat) (s : Sent) : Prop := max = 0 ∨ s.fragment.payload.length ≤ max

theorem length_body (s : Sent) : s.body.length =
    if s.fragment.masked then 4 + s.fragment.payload.length else s.fragment.payload.length := by
  unfold body
  split
  · rw [List.length_append, WSockFrame.length_maskWith _ rfl]
    rfl
  · rfl

/-- A frame that is there in full is read back. -/
theorem readHead_octets {s : Sent} {max : Nat} (h : s.Fits max) (rest : Octets) :
    WSockFrame.readHead max (s.octets ++ rest) = .whole s.fragment.payload rest := by
  rw [octets, List.append_assoc, header, WSockFrame.readHead_header _ _ s.fragment.size h,
    List.length_append, length_body, body]
  cases s.fragment.masked with
  | true =>
      have hKey : s.key.length = 4 := rfl
      have hMasked := WSockFrame.length_maskWith s.fragment.payload hKey
      simp only [if_true]
      rw [if_neg (by omega), List.append_assoc, List.take_left' hKey, List.drop_left' hKey,
        List.take_left' hMasked, WSockFrame.maskWith_maskWith _ hKey, ← List.drop_drop,
        List.drop_left' hKey, List.drop_left' hMasked]
  | false =>
      simp only [Bool.false_eq_true, if_false]
      rw [if_neg (by omega), List.take_left, List.drop_left]

/-- Of a frame that is not, octets are missing. -/
theorem readHead_part {s : Sent} {max : Nat} (h : s.Fits max) {part : Octets}
    (hPart : part <+: s.octets) (hNe : part ≠ s.octets) :
    WSockFrame.readHead max part = .more := by
  have hShorter : part.length < s.octets.length :=
    lt_of_le_of_ne hPart.length_le fun hEq => hNe (hPart.eq_of_length hEq)
  have hHeader : s.header <+: s.octets := List.prefix_append s.header s.body
  by_cases hHead : part.length < s.header.length
  · exact WSockFrame.readHead_part s.first s.fragment.masked _ max
      (List.prefix_of_prefix_length_le hPart hHeader hHead.le) hHead
  · obtain ⟨t, rfl⟩ := List.prefix_of_prefix_length_le hHeader hPart (not_lt.mp hHead)
    rw [octets, List.length_append, List.length_append, length_body] at hShorter
    rw [header, WSockFrame.readHead_header _ _ s.fragment.size h]
    cases hMasked : s.fragment.masked with
    | true =>
        rw [hMasked, if_pos rfl] at hShorter
        rw [if_pos rfl, if_pos (by omega)]
    | false =>
        rw [hMasked, if_neg Bool.false_ne_true] at hShorter
        rw [if_neg Bool.false_ne_true, if_pos (by omega)]

end Sent

/-! ### Putting fragments together -/

/-- What a frame adds to the fragments that are waiting, and the message it completes. -/
def assemble (waiting : Option (Nat × List Octets)) (s : Sent) :
    Option (Nat × List Octets) × List (Nat × Octets) :=
  let payload := s.fragment.payload
  if waiting.isSome ∧ s.opcode &&& 0x08 ≠ 0 then (waiting, [(s.opcode, payload)])
  else if s.fin then
    match waiting with
    | some (first, parts) => (none, [(first, parts.flatten ++ payload)])
    | none => (none, [(s.opcode, payload)])
  else
    let (first, parts) := waiting.getD (s.opcode, [])
    (some (first, parts ++ [payload]), [])

/-- What is waiting after a list of frames, and the messages completed by them. -/
def assembleAll : Option (Nat × List Octets) → List Sent →
    Option (Nat × List Octets) × List (Nat × Octets)
  | waiting, [] => (waiting, [])
  | waiting, s :: frames =>
      let (waiting, messages) := assemble waiting s
      let (waiting, more) := assembleAll waiting frames
      (waiting, messages ++ more)

theorem assembleAll_append (waiting : Option (Nat × List Octets)) (frames frames' : List Sent) :
    assembleAll waiting (frames ++ frames') =
      ((assembleAll (assembleAll waiting frames).1 frames').1,
        (assembleAll waiting frames).2 ++ (assembleAll (assembleAll waiting frames).1 frames').2) := by
  induction frames generalizing waiting with
  | nil => rfl
  | cons s frames ih => simp only [List.cons_append, assembleAll, ih, List.append_assoc]

/-- The length of the list of fragments. -/
def waitingLength : Option (Nat × List Octets) → Nat
  | none => 0
  | some (_, parts) => parts.length + 1

/-- The frames stay within the limits of a reader. -/
def Readable (max maxFragments : Nat) : Option (Nat × List Octets) → List Sent → Prop
  | _, [] => True
  | waiting, s :: frames =>
      s.Fits max ∧ s.opcode < 16 ∧
        ((assemble waiting s).2 = [] → waitingLength (assemble waiting s).1 ≤ maxFragments) ∧
        Readable max maxFragments (assemble waiting s).1 frames

theorem Readable.fits {max maxFragments : Nat} {waiting : Option (Nat × List Octets)}
    {frames : List Sent} (h : Readable max maxFragments waiting frames) :
    ∀ s ∈ frames, s.Fits max := by
  induction frames generalizing waiting with
  | nil => exact fun s hs => absurd hs List.not_mem_nil
  | cons t frames ih => exact List.forall_mem_cons.mpr ⟨h.1, ih h.2.2.2⟩

theorem Readable.append {max maxFragments : Nat} {waiting : Option (Nat × List Octets)}
    {frames frames' : List Sent} (h : Readable max maxFragments waiting (frames ++ frames')) :
    Readable max maxFragments (assembleAll waiting frames).1 frames' := by
  induction frames generalizing waiting with
  | nil => exact h
  | cons s frames ih => exact ih h.2.2.2

namespace WSockFrame

/-- A payload is put together with the fragments that are waiting. -/
theorem takePayload_spec {f : WSockFrame} {s : Sent} (hFin : f.fin = s.fin) :
    (takePayload f s.opcode s.fragment.payload).1.fragments = (assemble f.fragments s).1 ∧
      (takePayload f s.opcode s.fragment.payload).1.buffer = f.buffer ∧
      (takePayload f s.opcode s.fragment.payload).1.version = f.version ∧
      (takePayload f s.opcode s.fragment.payload).1.maxPayloadSize = f.maxPayloadSize ∧
      (takePayload f s.opcode s.fragment.payload).1.maxFragmentsAmount = f.maxFragmentsAmount ∧
      (((takePayload f s.opcode s.fragment.payload).2 = none ∧ (assemble f.fragments s).2 = []) ∨
        (∃ payload, (takePayload f s.opcode s.fragment.payload).2 = some (.bytes payload) ∧
          (assemble f.fragments s).2 =
            [((takePayload f s.opcode s.fragment.payload).1.opcode, payload)]) ∨
        (assemble f.fragments s).2 = [] ∧
          f.maxFragmentsAmount < waitingLength (assemble f.fragments s).1) := by
  unfold takePayload assemble
  dsimp only
  split
  · exact ⟨rfl, rfl, rfl, rfl, rfl, .inr (.inl ⟨_, rfl, rfl⟩)⟩
  · rw [hFin]
    split
    · cases f.fragments with
      | some waiting => exact ⟨rfl, rfl, rfl, rfl, rfl, .inr (.inl ⟨_, rfl, rfl⟩)⟩
      | none => exact ⟨rfl, rfl, rfl, rfl, rfl, .inr (.inl ⟨_, rfl, rfl⟩)⟩
    · refine ⟨rfl, rfl, rfl, rfl, rfl, ?_⟩
      split
      · next hMany => exact .inr (.inr ⟨rfl, hMany⟩)
      · exact .inl ⟨rfl, rfl⟩

/-- From `f` to `f'` the frames `taken` were taken off the buffer, with `result`. -/
structure Takes (f f' : WSockFrame) (taken : List Sent) (result : Result) : Prop where
  buffer : f.buffer = taken.flatMap Sent.octets ++ f'.buffer
  fragments : f'.fragments = (assembleAll f.fragments taken).1
  version : f'.version = f.version
  maxPayloadSize : f'.maxPayloadSize = f.maxPayloadSize
  maxFragmentsAmount : f'.maxFragmentsAmount = f.maxFragmentsAmount
  result : match result with
    | .undef => (assembleAll f.fragments taken).2 = []
    | .bytes payload => (assembleAll f.fragments taken).2 = [(f'.opcode, payload)]
    | .died _ => False

/-- The loop takes frames until one completes a message, or the next one is not complete. -/
theorem nextLoop_spec (fuel : Nat) : ∀ {f : WSockFrame} {frames : List Sent},
    f.buffer.length ≤ fuel → f.buffer <+: frames.flatMap Sent.octets →
    Readable f.maxPayloadSize f.maxFragmentsAmount f.fragments frames →
    ∃ taken left, frames = taken ++ left ∧
      Takes f (nextLoop fuel f).1 taken (nextLoop fuel f).2 ∧
      ((nextLoop fuel f).2 = .undef → complete Sent.octets left (nextLoop fuel f).1.buffer = []) := by
  induction fuel with
  | zero =>
      intro f frames hFuel hArrived _
      have hEmpty : f.buffer = [] := List.eq_nil_of_length_eq_zero (Nat.le_zero.mp hFuel)
      refine ⟨[], frames, rfl, ⟨rfl, rfl, rfl, rfl, rfl, rfl⟩, fun _ => ?_⟩
      show complete Sent.octets frames f.buffer = []
      rw [hEmpty]
      exact complete_nil Sent.octets_ne_nil frames
  | succ fuel ih =>
      intro f frames hFuel hArrived hReadable
      have hStays {f' : WSockFrame} (hBuffer : f'.buffer = f.buffer)
          (hFragments : f'.fragments = f.fragments) (hVersion : f'.version = f.version)
          (hMax : f'.maxPayloadSize = f.maxPayloadSize)
          (hAmount : f'.maxFragmentsAmount = f.maxFragmentsAmount)
          (hNone : complete Sent.octets frames f.buffer = []) :
          ∃ taken left, frames = taken ++ left ∧ Takes f f' taken .undef ∧
            (Result.undef = .undef → complete Sent.octets left f'.buffer = []) :=
        ⟨[], frames, rfl, ⟨hBuffer.symm, hFragments, hVersion, hMax, hAmount, rfl⟩, fun _ => by
          rw [hBuffer]
          exact hNone⟩
      rw [nextLoop]
      rcases prefix_cases hArrived with ⟨s, rest, left, rfl, hWhole, hRest⟩ | ⟨hNone, hPart⟩
      · obtain ⟨hFits, hOpcode, hRoom, hLater⟩ := hReadable
        obtain ⟨hCode, hFin⟩ := Sent.first_spec hOpcode
        have hFirst : unpack8 f.buffer = s.first.toNat := by
          rw [hWhole]
          rfl
        rw [if_neg (by rw [hWhole]; exact List.append_ne_nil_of_left_ne_nil s.octets_ne_nil rest)]
        dsimp only
        have hRead : readHead (f.setHead f.buffer).maxPayloadSize (f.setHead f.buffer).buffer =
            .whole s.fragment.payload rest := by
          show readHead f.maxPayloadSize f.buffer = _
          rw [hWhole]
          exact Sent.readHead_octets hFits rest
        have hLow : unpack8 f.buffer &&& 0x0F = s.opcode := by
          rw [hFirst, hCode]
        rw [hRead, hLow]
        dsimp only
        have hHead : fin { f.setHead f.buffer with buffer := rest } = s.fin := by
          show (unpack8 f.buffer).testBit 7 = s.fin
          rw [hFirst, hFin]
        have hTake := takePayload_spec hHead
        generalize takePayload { f.setHead f.buffer with buffer := rest } s.opcode
          s.fragment.payload = result at hTake ⊢
        obtain ⟨f', result⟩ := result
        have hFragments : f'.fragments = (assemble f.fragments s).1 := hTake.1
        have hBuffer : f'.buffer = rest := hTake.2.1
        have hVersion : f'.version = f.version := hTake.2.2.1
        have hMax : f'.maxPayloadSize = f.maxPayloadSize := hTake.2.2.2.1
        have hAmount : f'.maxFragmentsAmount = f.maxFragmentsAmount := hTake.2.2.2.2.1
        rcases hTake.2.2.2.2.2 with ⟨hGoes, hNothing⟩ | ⟨payload, hDone, hMessage⟩ | ⟨hNothing, hMany⟩
        · -- a fragment: the loop goes on with the rest
          have hGoes : result = none := hGoes
          have hNothing : (assemble f.fragments s).2 = [] := hNothing
          subst hGoes
          dsimp only
          have hShorter : f'.buffer.length ≤ fuel := by
            have hTwo := s.two_le_length_octets
            rw [hWhole, List.length_append] at hFuel
            rw [hBuffer]
            omega
          obtain ⟨taken, left', hSplit, hTakes, hEnd⟩ := ih hShorter (by rw [hBuffer]; exact hRest)
            (by rw [hMax, hAmount, hFragments]; exact hLater)
          refine ⟨s :: taken, left', by rw [hSplit]; rfl, ?_, hEnd⟩
          exact
            { buffer := by
                rw [hWhole, List.flatMap_cons, List.append_assoc, ← hTakes.buffer, hBuffer]
              fragments := by
                rw [hTakes.fragments, hFragments]
                rfl
              version := hTakes.version.trans hVersion
              maxPayloadSize := hTakes.maxPayloadSize.trans hMax
              maxFragmentsAmount := hTakes.maxFragmentsAmount.trans hAmount
              result := by
                have hResult := hTakes.result
                rw [hFragments] at hResult
                simp only [assembleAll, hNothing, List.nil_append]
                exact hResult }
        · have hDone : result = some (.bytes payload) := hDone
          have hMessage : (assemble f.fragments s).2 = [(f'.opcode, payload)] := hMessage
          subst hDone
          refine ⟨[s], left, rfl, ?_, fun hUndef => Result.noConfusion hUndef⟩
          exact
            { buffer := by
                rw [hWhole, hBuffer, List.flatMap_cons, List.flatMap_nil, List.append_nil]
              fragments := hFragments
              version := hVersion
              maxPayloadSize := hMax
              maxFragmentsAmount := hAmount
              result := by
                show (assemble f.fragments s).2 ++ [] = _
                rw [List.append_nil]
                exact hMessage }
        · exact absurd (hRoom hNothing) (not_le.mpr hMany)
      · split
        · exact hStays rfl rfl rfl rfl rfl hNone
        · next hNonempty =>
            obtain ⟨s, hMem, hPart, hNe⟩ := hPart.resolve_left hNonempty
            have hMore : readHead f.maxPayloadSize f.buffer = .more :=
              Sent.readHead_part (hReadable.fits s hMem) hPart hNe
            dsimp only
            rw [show readHead (f.setHead f.buffer).maxPayloadSize (f.setHead f.buffer).buffer = .more
              from hMore]
            exact hStays rfl rfl rfl rfl rfl hNone

/-- `next_bytes` takes frames until one completes a message, or the next one is not complete. -/
theorem nextBytes_spec {f : WSockFrame} {frames : List Sent} (hVersion : f.version = .hybi17)
    (hArrived : f.buffer <+: frames.flatMap Sent.octets)
    (hReadable : Readable f.maxPayloadSize f.maxFragmentsAmount f.fragments frames) :
    ∃ taken left, frames = taken ++ left ∧ Takes f f.nextBytes.1 taken f.nextBytes.2 ∧
      (f.nextBytes.2 = .undef → complete Sent.octets left f.nextBytes.1.buffer = []) := by
  rw [nextBytes, if_neg (by rw [hVersion]; rintro (hEq | hEq) <;> cases hEq)]
  split
  · next hShort =>
      refine ⟨[], frames, rfl, ⟨rfl, rfl, rfl, rfl, rfl, rfl⟩, fun _ => ?_⟩
      rcases prefix_cases hArrived with ⟨s, rest, left, -, hWhole, -⟩ | ⟨hNone, -⟩
      · have hTwo := s.two_le_length_octets
        rw [hWhole, List.length_append] at hShort
        omega
      · exact hNone
  · exact nextLoop_spec f.buffer.length (le_refl _) hArrived hReadable

end WSockFrame

/-! ### Runs of a reader -/

/-- A reader, the messages it has returned with their opcodes, and whether it has died. -/
structure Reader where
  frame : WSockFrame
  messages : List (Nat × Octets) := []
  died : Bool := false

inductive ReaderEvent where
  | append (data : Octets)
  | nextBytes

def Reader.step (r : Reader) : ReaderEvent → Reader
  | .append data => { r with frame := r.frame.append data }
  | .nextBytes =>
      match r.frame.nextBytes with
      | (frame, .undef) => { r with frame }
      | (frame, .bytes payload) =>
          { r with frame, messages := r.messages ++ [(frame.opcode, payload)] }
      | (frame, .died _) => { r with frame, died := true }

/-- The octets that are appended. -/
def appended (events : List ReaderEvent) : Octets :=
  events.flatMap fun
    | .append data => data
    | .nextBytes => []

/-- A reader that has nothing yet. -/
def Reader.start (maxPayloadSize maxFragmentsAmount : Nat) : Reader :=
  { frame := .new { maxPayloadSize, maxFragmentsAmount } }

/-- The reader has taken the frames `done`, and `left` are to come. -/
structure Reader.Reads (r : Reader) (max maxFragments : Nat) (done left : List Sent)
    (arrived : Octets) : Prop where
  alive : r.died = false
  version : r.frame.version = .hybi17
  maxPayloadSize : r.frame.maxPayloadSize = max
  maxFragmentsAmount : r.frame.maxFragmentsAmount = maxFragments
  fragments : r.frame.fragments = (assembleAll none done).1
  messages : r.messages = (assembleAll none done).2
  readable : Readable max maxFragments r.frame.fragments left
  arrived : arrived = done.flatMap Sent.octets ++ r.frame.buffer

namespace Reader

variable {r : Reader} {max maxFragments : Nat} {done left : List Sent} {arrived : Octets}

theorem Reads.append (h : r.Reads max maxFragments done left arrived) (data : Octets) :
    (r.step (.append data)).Reads max maxFragments done left (arrived ++ data) where
  alive := h.alive
  version := h.version
  maxPayloadSize := h.maxPayloadSize
  maxFragmentsAmount := h.maxFragmentsAmount
  fragments := h.fragments
  messages := h.messages
  readable := h.readable
  arrived := by
    rw [h.arrived, List.append_assoc]
    rfl

/-- A call takes some of the frames to come; if it returns nothing, none of the others
is complete. -/
theorem Reads.nextBytes (h : r.Reads max maxFragments done left arrived)
    (hStream : arrived <+: (done ++ left).flatMap Sent.octets) :
    ∃ taken left', left = taken ++ left' ∧
      (r.step .nextBytes).Reads max maxFragments (done ++ taken) left' arrived ∧
      (complete Sent.octets left' (r.step .nextBytes).frame.buffer = [] ∨ taken ≠ []) := by
  have hBuffer : r.frame.buffer <+: left.flatMap Sent.octets := by
    rw [h.arrived, List.flatMap_append] at hStream
    exact (List.prefix_append_right_inj _).mp hStream
  have hReadable := h.readable
  rw [← h.maxPayloadSize, ← h.maxFragmentsAmount] at hReadable
  obtain ⟨taken, left', rfl, hTakes, hEnd⟩ :=
    WSockFrame.nextBytes_spec h.version hBuffer hReadable
  have hAll := assembleAll_append none done taken
  rw [← h.fragments] at hAll
  have hLater : Readable max maxFragments (assembleAll r.frame.fragments taken).1 left' :=
    h.readable.append
  have hArrived : arrived = (done ++ taken).flatMap Sent.octets ++ r.frame.nextBytes.1.buffer := by
    rw [h.arrived, hTakes.buffer, List.flatMap_append, List.append_assoc]
  have hReads (messages : List (Nat × Octets))
      (hMessages : messages = r.messages ++ (assembleAll r.frame.fragments taken).2) :
      Reads { frame := r.frame.nextBytes.1, messages, died := r.died } max maxFragments
        (done ++ taken) left' arrived :=
    { alive := h.alive
      version := hTakes.version.trans h.version
      maxPayloadSize := hTakes.maxPayloadSize.trans h.maxPayloadSize
      maxFragmentsAmount := hTakes.maxFragmentsAmount.trans h.maxFragmentsAmount
      fragments := by rw [hAll, hTakes.fragments]
      messages := by rw [hAll, hMessages, h.messages]
      readable := by
        rw [hTakes.fragments]
        exact hLater
      arrived := hArrived }
  have hResult := hTakes.result
  refine ⟨taken, left', rfl, ?_⟩
  rw [step]
  cases hNext : r.frame.nextBytes with
  | mk frame result =>
      rw [hNext] at hReads hResult hEnd
      cases result with
      | undef =>
          refine ⟨hReads r.messages ?_, .inl (hEnd rfl)⟩
          rw [show (assembleAll r.frame.fragments taken).2 = [] from hResult, List.append_nil]
      | bytes payload =>
          have hResult : (assembleAll r.frame.fragments taken).2 = [(frame.opcode, payload)] := hResult
          refine ⟨hReads _ (by rw [hResult]), .inr ?_⟩
          rintro rfl
          cases hResult
      | died message => exact absurd hResult id

/-- Appending and calling in any order. -/
theorem Reads.run (events : List ReaderEvent) : ∀ {r : Reader} {done left : List Sent}
    {arrived : Octets}, r.Reads max maxFragments done left arrived →
    arrived ++ appended events <+: (done ++ left).flatMap Sent.octets →
    ∃ taken left', left = taken ++ left' ∧
      (runEvents step r events).Reads max maxFragments (done ++ taken) left'
        (arrived ++ appended events) := by
  induction events with
  | nil =>
      intro r done left arrived h _
      exact ⟨[], left, rfl, by
        rw [List.append_nil, show appended [] = [] from rfl, List.append_nil]
        exact h⟩
  | cons event events ih =>
      intro r done left arrived h hStream
      cases event with
      | append data =>
          have hSplit : arrived ++ appended (.append data :: events) =
              (arrived ++ data) ++ appended events := (List.append_assoc ..).symm
          rw [hSplit] at hStream ⊢
          exact ih (h.append data) hStream
      | nextBytes =>
          have hNow := (List.prefix_append arrived (appended events)).trans hStream
          obtain ⟨taken, left', rfl, hReads, -⟩ := h.nextBytes hNow
          obtain ⟨taken', left'', rfl, hRest⟩ := ih hReads (by
            rw [List.append_assoc]
            exact hStream)
          refine ⟨taken ++ taken', left'', (List.append_assoc ..).symm, ?_⟩
          rw [← List.append_assoc]
          exact hRest

/-- As many calls as there are octets leave no complete frame behind. -/
theorem Reads.drain (n : Nat) : ∀ {r : Reader} {done left : List Sent},
    r.Reads max maxFragments done left arrived → arrived <+: (done ++ left).flatMap Sent.octets →
    (complete Sent.octets left r.frame.buffer = [] ∨ r.frame.buffer.length ≤ n) →
    ∃ taken left', left = taken ++ left' ∧
      (runEvents step r (List.replicate n .nextBytes)).Reads max maxFragments (done ++ taken) left'
        arrived ∧
      complete Sent.octets left'
        (runEvents step r (List.replicate n .nextBytes)).frame.buffer = [] := by
  induction n with
  | zero =>
      intro r done left h _ hEnd
      refine ⟨[], left, rfl, by rw [List.append_nil]; exact h, ?_⟩
      rcases hEnd with hNone | hEmpty
      · exact hNone
      · have hBuffer : r.frame.buffer = [] := List.eq_nil_of_length_eq_zero (Nat.le_zero.mp hEmpty)
        show complete Sent.octets left r.frame.buffer = []
        rw [hBuffer]
        exact complete_nil Sent.octets_ne_nil left
  | succ n ih =>
      intro r done left h hStream hEnd
      obtain ⟨taken, left', rfl, hReads, hTaken⟩ := h.nextBytes hStream
      have hBuffer : r.frame.buffer =
          taken.flatMap Sent.octets ++ (r.step .nextBytes).frame.buffer := by
        have hArrived := hReads.arrived
        rw [h.arrived, List.flatMap_append, List.append_assoc] at hArrived
        exact List.append_cancel_left hArrived
      have hNext : complete Sent.octets left' (r.step .nextBytes).frame.buffer = [] ∨
          (r.step .nextBytes).frame.buffer.length ≤ n := by
        rcases hTaken with hNone | hSome
        · exact .inl hNone
        · obtain ⟨s, more, rfl⟩ := List.exists_cons_of_ne_nil hSome
          rw [hBuffer] at hEnd
          rcases hEnd with hNone | hShort
          · rw [complete_append] at hNone
            cases hNone
          · have hTwo := s.two_le_length_octets
            rw [List.flatMap_cons, List.length_append, List.length_append] at hShort
            exact .inr (by omega)
      obtain ⟨taken', left'', rfl, hRest, hDone⟩ := ih hReads (by
        rw [List.append_assoc]
        exact hStream) hNext
      refine ⟨taken ++ taken', left'', (List.append_assoc ..).symm, ?_, hDone⟩
      rw [← List.append_assoc]
      exact hRest

end Reader

/-! ### Messages -/

/-- A control frame. -/
structure Control where
  fragment : Fragment
  opcode : Nat
  isControl : 8 ≤ opcode ∧ opcode < 16

def Control.sent (c : Control) : Sent := ⟨c.fragment, c.opcode, true⟩

def Control.message (c : Control) : Nat × Octets := (c.opcode, c.fragment.payload)

/-- A control frame, or data in fragments, each but the last with the control frames
that follow it. -/
inductive Message
  | control (c : Control)
  | data (opcode : Nat) (isData : opcode < 8) (pieces : List (Fragment × List Control))
      (last : Fragment)

/-- The frames of data, the first of them with the opcode. -/
def dataFrames (opcode : Nat) : List (Fragment × List Control) → Fragment → List Sent
  | [], last => [⟨last, opcode, true⟩]
  | (piece, controls) :: pieces, last =>
      ⟨piece, opcode, false⟩ :: controls.map Control.sent ++
        dataFrames WSType.continuation.opcode pieces last

namespace Message

def frames : Message → List Sent
  | .control c => [c.sent]
  | .data opcode _ pieces last => dataFrames opcode pieces last

/-- The payloads with their opcodes, each when it is complete. -/
def payloads : Message → List (Nat × Octets)
  | .control c => [c.message]
  | .data opcode _ pieces last =>
      (pieces.flatMap fun piece => piece.2.map Control.message) ++
        [(opcode, (pieces.flatMap fun piece => piece.1.payload) ++ last.payload)]

/-- The message stays within the limits of a reader: each payload, and the number of
fragments when there are several. -/
def Within (max maxFragments : Nat) (m : Message) : Prop :=
  (∀ s ∈ m.frames, s.Fits max) ∧
    match m with
    | .control _ => True
    | .data _ _ pieces _ => pieces = [] ∨ pieces.length + 1 ≤ maxFragments

end Message

theorem assembleAll_controls (first : Nat) (parts : List Octets) (controls : List Control) :
    assembleAll (some (first, parts)) (controls.map Control.sent) =
      (some (first, parts), controls.map Control.message) := by
  induction controls with
  | nil => rfl
  | cons c controls ih =>
      have hCode : c.opcode &&& 0x08 ≠ 0 := by
        have hAll : ∀ opcode < 16, 8 ≤ opcode → opcode &&& 0x08 ≠ 0 := by decide
        exact hAll c.opcode c.isControl.2 c.isControl.1
      have hFirst : assemble (some (first, parts)) c.sent = (some (first, parts), [c.message]) := by
        rw [assemble]
        exact if_pos ⟨rfl, hCode⟩
      rw [List.map_cons, assembleAll, hFirst]
      dsimp only
      rw [ih]
      rfl

/-- The fragments behind the first one. -/
theorem assembleAll_dataFrames (first : Nat) (pieces : List (Fragment × List Control))
    (last : Fragment) : ∀ parts : List Octets,
    assembleAll (some (first, parts)) (dataFrames WSType.continuation.opcode pieces last) =
      (none, (pieces.flatMap fun piece => piece.2.map Control.message) ++
        [(first, parts.flatten ++ (pieces.flatMap fun piece => piece.1.payload) ++ last.payload)]) := by
  induction pieces with
  | nil =>
      intro parts
      simp [dataFrames, assembleAll, assemble, WSType.opcode]
  | cons piece pieces ih =>
      intro parts
      obtain ⟨piece, controls⟩ := piece
      rw [dataFrames, List.cons_append, assembleAll]
      have hPiece : assemble (some (first, parts)) ⟨piece, WSType.continuation.opcode, false⟩ =
          (some (first, parts ++ [piece.payload]), []) := by
        simp [assemble, WSType.opcode]
      rw [hPiece]
      dsimp only
      rw [assembleAll_append, assembleAll_controls, ih]
      simp

/-- A message is put together again, and nothing waits after it. -/
theorem assembleAll_message (m : Message) : assembleAll none m.frames = (none, m.payloads) := by
  cases m with
  | control c => rfl
  | data opcode isData pieces last =>
      cases pieces with
      | nil => rfl
      | cons piece pieces =>
          obtain ⟨piece, controls⟩ := piece
          have hFirst : assemble none ⟨piece, opcode, false⟩ = (some (opcode, [piece.payload]), []) := rfl
          rw [Message.frames, dataFrames, List.cons_append, assembleAll, hFirst]
          dsimp only
          rw [assembleAll_append, assembleAll_controls, assembleAll_dataFrames]
          simp [Message.payloads]

theorem assembleAll_messages (messages : List Message) :
    assembleAll none (messages.flatMap Message.frames) = (none, messages.flatMap Message.payloads) := by
  induction messages with
  | nil => rfl
  | cons m messages ih =>
      rw [List.flatMap_cons, assembleAll_append, assembleAll_message, ih, List.flatMap_cons]

/-- The control frames between fragments leave their number alone. -/
theorem readable_controls {max maxFragments first : Nat} {parts : List Octets}
    {controls : List Control} {frames : List Sent} (hFits : ∀ c ∈ controls, c.sent.Fits max)
    (h : Readable max maxFragments (some (first, parts)) frames) :
    Readable max maxFragments (some (first, parts)) (controls.map Control.sent ++ frames) := by
  induction controls with
  | nil => exact h
  | cons c controls ih =>
      obtain ⟨hFirst, hLater⟩ := List.forall_mem_cons.mp hFits
      have hOne := assembleAll_controls first parts [c]
      simp only [List.map_cons, List.map_nil, assembleAll, List.append_nil] at hOne
      have hOne : assemble (some (first, parts)) c.sent = (some (first, parts), [c.message]) := hOne
      refine ⟨hFirst, c.isControl.2, ?_, ?_⟩
      · rw [hOne]
        exact fun hNone => absurd hNone (List.cons_ne_nil _ _)
      · rw [hOne]
        exact ih hLater

theorem readable_dataFrames {max maxFragments : Nat} (first : Nat)
    (pieces : List (Fragment × List Control)) (last : Fragment) :
    ∀ parts : List Octets,
      (∀ s ∈ dataFrames WSType.continuation.opcode pieces last, s.Fits max) →
      parts.length + 1 + pieces.length ≤ maxFragments →
      Readable max maxFragments (some (first, parts))
        (dataFrames WSType.continuation.opcode pieces last) := by
  induction pieces with
  | nil =>
      intro parts hFits _
      refine ⟨hFits _ (List.mem_singleton_self _), (by decide : (0 : Nat) < 16), ?_, trivial⟩
      simp [assemble, WSType.opcode]
  | cons piece pieces ih =>
      intro parts hFits hRoom
      obtain ⟨piece, controls⟩ := piece
      rw [dataFrames, List.cons_append] at hFits ⊢
      obtain ⟨hPiece, hLater⟩ := List.forall_mem_cons.mp hFits
      obtain ⟨hControls, hRest⟩ := List.forall_mem_append.mp hLater
      rw [List.length_cons] at hRoom
      have hOne : assemble (some (first, parts)) ⟨piece, WSType.continuation.opcode, false⟩ =
          (some (first, parts ++ [piece.payload]), []) := by
        simp [assemble, WSType.opcode]
      refine ⟨hPiece, (by decide : (0 : Nat) < 16), ?_, ?_⟩
      · rw [hOne]
        intro _
        show (parts ++ [piece.payload]).length + 1 ≤ maxFragments
        rw [List.length_append, List.length_singleton]
        omega
      · rw [hOne]
        refine readable_controls (List.forall_mem_map.mp hControls) (ih _ hRest ?_)
        rw [List.length_append, List.length_singleton]
        omega

theorem readable_message {max maxFragments : Nat} {m : Message} (h : m.Within max maxFragments) :
    Readable max maxFragments none m.frames := by
  obtain ⟨hFits, hRoom⟩ := h
  cases m with
  | control c =>
      refine ⟨hFits _ (List.mem_singleton_self _), c.isControl.2, ?_, trivial⟩
      exact fun hNone => absurd hNone (List.cons_ne_nil _ _)
  | data opcode isData pieces last =>
      cases pieces with
      | nil =>
          refine ⟨hFits _ (List.mem_singleton_self _), isData.trans (by decide), ?_, trivial⟩
          exact fun hNone => absurd hNone (List.cons_ne_nil _ _)
      | cons piece pieces =>
          obtain ⟨piece, controls⟩ := piece
          have hRoom := hRoom.resolve_left (List.cons_ne_nil _ _)
          rw [List.length_cons] at hRoom
          rw [Message.frames, dataFrames, List.cons_append] at hFits ⊢
          obtain ⟨hPiece, hLater⟩ := List.forall_mem_cons.mp hFits
          obtain ⟨hControls, hRest⟩ := List.forall_mem_append.mp hLater
          refine ⟨hPiece, isData.trans (by decide), fun _ => ?_, ?_⟩
          · show 1 + 1 ≤ maxFragments
            omega
          · refine readable_controls (List.forall_mem_map.mp hControls) ?_
            exact readable_dataFrames opcode pieces last [piece.payload] hRest (by
              rw [List.length_singleton]
              omega)

theorem readable_append {max maxFragments : Nat} {frames frames' : List Sent} :
    ∀ {waiting : Option (Nat × List Octets)}, Readable max maxFragments waiting frames →
      Readable max maxFragments (assembleAll waiting frames).1 frames' →
      Readable max maxFragments waiting (frames ++ frames') := by
  induction frames with
  | nil => exact fun _ h' => h'
  | cons s frames ih => exact fun h h' => ⟨h.1, h.2.1, h.2.2.1, ih h.2.2.2 h'⟩

theorem readable_messages {max maxFragments : Nat} {messages : List Message}
    (h : ∀ m ∈ messages, m.Within max maxFragments) :
    Readable max maxFragments none (messages.flatMap Message.frames) := by
  induction messages with
  | nil => trivial
  | cons m messages ih =>
      obtain ⟨hFirst, hLater⟩ := List.forall_mem_cons.mp h
      refine readable_append (readable_message hFirst) ?_
      rw [assembleAll_message]
      exact ih hLater

/-- What the frames write is their octets. -/
theorem flatten_written {frames : List Sent} : ∀ {chunks : List Octets},
    frames.mapM (fun s => s.frame.toBytes s.fragment.random) = .ok chunks →
      chunks.flatten = frames.flatMap Sent.octets := by
  induction frames with
  | nil =>
      intro chunks h
      cases h
      rfl
  | cons s frames ih =>
      intro chunks h
      rw [List.mapM_cons] at h
      cases hFirst : s.frame.toBytes s.fragment.random with
      | error message =>
          rw [hFirst] at h
          cases h
      | ok bytes =>
          rw [hFirst] at h
          cases hRest : frames.mapM (fun s => s.frame.toBytes s.fragment.random) with
          | error message =>
              rw [hRest] at h
              cases h
          | ok chunks' =>
              rw [hRest] at h
              cases h
              rw [List.flatten_cons, ih hRest, Sent.toBytes_frame hFirst, List.flatMap_cons]

/-- However the octets of the messages are cut and whenever `next_bytes` is called: it
never dies, and as many calls as octets have arrived bring out every message whose last
frame is complete, in order and with its opcode; in the end these are all messages and
no octet is left. -/
theorem nextBytes_messages {max maxFragments : Nat} {messages : List Message}
    (hWithin : ∀ m ∈ messages, m.Within max maxFragments) {chunks : List Octets}
    (hWritten : (messages.flatMap Message.frames).mapM
      (fun s => s.frame.toBytes s.fragment.random) = .ok chunks)
    (events : List ReaderEvent) (hArrived : appended events <+: chunks.flatten)
    {n : Nat} (hCalls : (appended events).length ≤ n) :
    let r := runEvents Reader.step (.start max maxFragments)
      (events ++ List.replicate n .nextBytes)
    r.died = false ∧
      r.messages = (assembleAll none (complete Sent.octets (messages.flatMap Message.frames)
        (appended events))).2 ∧
      (appended events = chunks.flatten →
        r.messages = messages.flatMap Message.payloads ∧ r.frame.buffer = []) := by
  intro r
  rw [flatten_written hWritten] at hArrived ⊢
  have hStart : (Reader.start max maxFragments).Reads max maxFragments []
      (messages.flatMap Message.frames) [] :=
    { alive := rfl
      version := rfl
      maxPayloadSize := rfl
      maxFragmentsAmount := rfl
      fragments := rfl
      messages := rfl
      readable := readable_messages hWithin
      arrived := rfl }
  obtain ⟨taken, left, hSplit, hRun⟩ := hStart.run events hArrived
  rw [List.nil_append, List.nil_append] at hRun
  rw [hSplit] at hArrived ⊢
  have hBuffer : (runEvents Reader.step (.start max maxFragments) events).frame.buffer.length ≤ n := by
    have hLength := congrArg List.length hRun.arrived
    rw [List.length_append] at hLength
    omega
  obtain ⟨taken', left', rfl, hEnd, hNone⟩ := hRun.drain n hArrived (.inr hBuffer)
  rw [← runEvents_append] at hEnd hNone
  have hComplete : complete Sent.octets (taken ++ (taken' ++ left')) (appended events) =
      taken ++ taken' := by
    rw [← List.append_assoc, hEnd.arrived, complete_append, hNone, List.append_nil]
  refine ⟨hEnd.alive, ?_, fun hAll => ?_⟩
  · rw [hComplete]
    exact hEnd.messages
  · rw [hAll, complete_all Sent.octets_ne_nil, ← List.append_assoc,
      List.append_right_eq_self] at hComplete
    subst hComplete
    rw [List.append_nil] at hSplit
    refine ⟨?_, ?_⟩
    · rw [hEnd.messages, ← hSplit, assembleAll_messages]
    · have hLast := hEnd.arrived
      rw [hAll, List.append_nil] at hLast
      exact List.append_right_eq_self.mp hLast.symm

/-- A text in two masked fragments with a ping between them. -/
def sampleMessage : Message :=
  .data WSType.text.opcode (by decide)
    [({ payload := octets "Hel", size := by decide, masked := true, mask := some 0x01020304 },
      [⟨{ payload := octets "!", size := by decide, masked := true, random := 7 },
        WSType.ping.opcode, by decide⟩])]
    { payload := octets "lo", size := by decide, masked := true, random := 9 }

def sampleOctets : List Octets :=
  [[1, 131, 1, 2, 3, 4, 73, 103, 111], [137, 129, 0, 0, 0, 7, 33],
    [128, 130, 0, 0, 0, 9, 108, 111]]

/-- The text cut inside its ping. -/
def sampleEvents : List ReaderEvent :=
  [.append (sampleOctets.flatten.take 10), .nextBytes, .append (sampleOctets.flatten.drop 10)]

theorem nextBytes_messages_sample :
    let r := runEvents Reader.step (.start maxPayloadSizeDefault maxFragmentsAmountDefault)
      (sampleEvents ++ List.replicate 24 .nextBytes)
    r.died = false ∧
      r.messages = (assembleAll none (complete Sent.octets
        ([sampleMessage].flatMap Message.frames) (appended sampleEvents))).2 ∧
      (appended sampleEvents = sampleOctets.flatten →
        r.messages = [sampleMessage].flatMap Message.payloads ∧ r.frame.buffer = []) := by
  refine nextBytes_messages (fun m hm => ?_) rfl sampleEvents ?_ ?_
  · cases List.mem_singleton.mp hm
    refine ⟨fun s hs => .inr ?_, .inr (by decide)⟩
    have hAll : ∀ s ∈ sampleMessage.frames, s.fragment.payload.length ≤ 3 := by decide
    exact (hAll s hs).trans (by decide)
  · exact List.prefix_refl _
  · decide

end PageCamel.Helpers

import PageCamel.Http3.FallibleWrites
import PageCamel.Http3.StreamTable

/-!
The calls that send a response (`h3_api.c`), as what they do to the streams of the
connection. What the calls ask for, and may not get: memory for the header list, for a
stream and for chunks, and `nghttp3_conn_submit_response`.
-/

namespace PageCamel.Http3
open PageCamel.Lib

/-- The return codes of these calls. -/
inductive H3Code where
  | ok
  | wouldBlock
  | errorNomem
  | errorInvalid
  | errorHttp3
  | errorStream
  deriving DecidableEq, Repr

/-- `h3_connection_t`; whether there is an nghttp3 connection. -/
structure H3Connection where
  http3 : Bool := false
  streams : StreamTable := {}

/-- `snprintf` with `%d`. -/
def statusStr (statusCode : Int) : Octets :=
  if statusCode < 0 then 0x2D :: decimal statusCode.natAbs else decimal statusCode.natAbs

abbrev HeaderList := List (Octets × Octets)

/-- What there is for one call. -/
structure Surroundings where
  /-- The `malloc` of the header list, by its length. -/
  nvaMalloc : Nat → Bool
  calloc : Calloc
  malloc : FallibleAllocator
  /-- `nghttp3_conn_submit_response`: stream, header list, and whether a body is to follow. -/
  submitResponse : Nat → HeaderList → Bool → Int

/-- `response_headers_sent = 1`. -/
def StreamState.markSent (state : StreamState) : StreamState :=
  { state with responseHeadersSent := true }

def StreamState.setBuffer (buffer : ChunkBuffer) (state : StreamState) : StreamState :=
  { state with bodyBuffer := buffer }

/-- The end of the body, in the buffer and in the stream. -/
def StreamState.endBody (state : StreamState) : StreamState :=
  { state with bodyBuffer := state.bodyBuffer.setEof, responseEof := true }

namespace H3Connection

/-- `h3_send_response_headers`. -/
def sendResponseHeaders (env : Surroundings) (conn : H3Connection) (streamId : Nat)
    (statusCode : Int) (headers : HeaderList) (hasBody : Bool) : Option (H3Connection × H3Code) :=
  if conn.http3 = false then some (conn, .errorInvalid)
  else
    let nvaCount := headers.length + 1
    if env.nvaMalloc nvaCount = false then some (conn, .errorNomem)
    else
      let nva := (octets ":status", statusStr statusCode) :: headers
      (conn.streams.find streamId).bind fun found =>
        let created :=
          match found with
          | some address => some (conn.streams, some address)
          | none => conn.streams.create env.calloc streamId
        created.map fun created =>
          let streams :=
            match created.2 with
            | some address => created.1.modify address StreamState.markSent
            | none => created.1
          let rv := env.submitResponse streamId nva hasBody
          ({ conn with streams }, if rv ≠ 0 then .errorHttp3 else .ok)

/-- `h3_send_response_body`; resuming the stream is nghttp3's. -/
def sendResponseBody (env : Surroundings) (conn : H3Connection) (streamId : Nat) (data : Octets)
    (eof : Bool) : Option (H3Connection × H3Code) :=
  (conn.streams.find streamId).bind fun found =>
    match found with
    | none => some (conn, .errorStream)
    | some address =>
        (conn.streams.heap address).map fun stream =>
          let buffer := stream.state.bodyBuffer
          if data ≠ [] ∧ buffer.canWrite data.length = false then (conn, .wouldBlock)
          else
            let wrote := if data ≠ [] then buffer.tryWrite env.malloc data else (buffer, true)
            let streams := conn.streams.modify address (StreamState.setBuffer wrote.1)
            if wrote.2 = false then ({ conn with streams }, .errorNomem)
            else if eof then
              ({ conn with streams := streams.modify address StreamState.endBody }, .ok)
            else ({ conn with streams }, .ok)

/-- `h3_send_response`. -/
def sendResponse (env : Surroundings) (conn : H3Connection) (streamId : Nat) (statusCode : Int)
    (headers : HeaderList) (body : Octets) : Option (H3Connection × H3Code) :=
  (conn.sendResponseHeaders env streamId statusCode headers (decide (0 < body.length))).bind
    fun sent =>
      if sent.2 ≠ .ok then some sent
      else if 0 < body.length then sent.1.sendResponseBody env streamId body true
      else some sent

/-- The stream with this id, if there is one. -/
def stream (conn : H3Connection) (streamId : Nat) : Option StreamState :=
  (conn.streams.find streamId).join.bind fun address =>
    (conn.streams.heap address).map (·.state)

def submitted (statusCode : Int) (headers : HeaderList) : HeaderList :=
  (octets ":status", statusStr statusCode) :: headers

end H3Connection

/-! ### Tables of streams with buffers in order -/

namespace StreamTable

def InOrder (m : StreamMap) : Prop :=
  ∀ id a state, m id = some (a, state) →
    ChunkBuffer.Shape state.bodyBuffer.chunks state.bodyBuffer.writeChunk

/-- What every call keeps. -/
def WellFormed (t : StreamTable) : Prop := ∃ m, t.Holds m ∧ InOrder m

variable {t : StreamTable} {m : StreamMap}

theorem Holds.find (h : t.Holds m) (streamId : Nat) : t.find streamId = some ((m streamId).map (·.1)) :=
  h.choose_spec.find streamId

theorem Holds.cell (h : t.Holds m) {streamId a : Nat} {state : StreamState}
    (hMap : m streamId = some (a, state)) :
    ∃ cell, t.heap a = some cell ∧ cell.state = state := by
  obtain ⟨cell, hCell, -, hState⟩ := (h.choose_spec.maps _ _ _).mp hMap
  exact ⟨cell, hCell, hState⟩

theorem Holds.modify (h : t.Holds m) {a streamId : Nat} {state : StreamState}
    (hMap : m streamId = some (a, state)) (change : StreamState → StreamState) :
    (t.modify a change).Holds (Function.update m streamId (some (a, change state))) :=
  ⟨_, h.choose_spec.modify hMap change⟩

theorem Holds.insert (h : t.Holds m) {a streamId : Nat} (hFresh : t.heap a = none)
    (hAbsent : m streamId = none) :
    (t.insert a streamId).Holds (Function.update m streamId (some (a, {}))) :=
  ⟨_, h.choose_spec.insert hFresh hAbsent⟩

theorem Holds.insert_modify (h : t.Holds m) {a streamId : Nat} (hFresh : t.heap a = none)
    (hAbsent : m streamId = none) (change : StreamState → StreamState) :
    ((t.insert a streamId).modify a change).Holds
      (Function.update m streamId (some (a, change {}))) := by
  have hNew : Function.update m streamId (some (a, ({} : StreamState))) streamId = some (a, {}) :=
    Function.update_self ..
  have hModified := (h.insert hFresh hAbsent).modify hNew change
  rwa [Function.update_idem] at hModified

/-- A change that changes nothing in the stream. -/
theorem modify_eq_iff {a : Nat} {cell : H3Stream} (hCell : t.heap a = some cell)
    (change : StreamState → StreamState) :
    t.modify a change = t ↔ change cell.state = cell.state := by
  constructor
  · intro hSame
    have hHeap := congrFun (congrArg StreamTable.heap hSame) a
    simp only [modify, Function.update_self, hCell, Option.map_some, Option.some.injEq] at hHeap
    exact congrArg H3Stream.state hHeap
  · intro hSame
    rw [modify, hCell, Option.map_some, hSame, ← hCell, Function.update_eq_self]

theorem modify_modify {a : Nat} (change change' : StreamState → StreamState) :
    (t.modify a change).modify a change' = t.modify a (change' ∘ change) := by
  simp only [modify, Function.update_self, Function.update_idem, Option.map_map]
  rfl

theorem InOrder.update (h : InOrder m) {a streamId : Nat} {state : StreamState}
    (hShape : ChunkBuffer.Shape state.bodyBuffer.chunks state.bodyBuffer.writeChunk) :
    InOrder (Function.update m streamId (some (a, state))) := by
  intro id b other hOther
  by_cases hSame : id = streamId
  · subst hSame
    rw [Function.update_self] at hOther
    cases hOther
    exact hShape
  · rw [Function.update_of_ne hSame] at hOther
    exact h id b other hOther

theorem WellFormed.modify (h : t.WellFormed) {a streamId : Nat}
    (hFind : t.find streamId = some (some a)) {change : StreamState → StreamState}
    (hChange : ∀ state : StreamState,
      ChunkBuffer.Shape state.bodyBuffer.chunks state.bodyBuffer.writeChunk →
        ChunkBuffer.Shape (change state).bodyBuffer.chunks (change state).bodyBuffer.writeChunk) :
    (t.modify a change).WellFormed := by
  obtain ⟨m, hHolds, hOrder⟩ := h
  rw [hHolds.find, Option.some.injEq, Option.map_eq_some_iff] at hFind
  obtain ⟨⟨b, state⟩, hMap, rfl⟩ := hFind
  exact ⟨_, hHolds.modify hMap change, hOrder.update (hChange _ (hOrder _ _ _ hMap))⟩

theorem WellFormed.create (h : t.WellFormed) {calloc : Calloc} {streamId : Nat}
    {created : StreamTable × Option Nat} (hCreate : t.create calloc streamId = some created) :
    created.1.WellFormed := by
  obtain ⟨m, hHolds, hOrder⟩ := h
  rw [StreamTable.create, hHolds.find, Option.map_some, Option.some.injEq] at hCreate
  cases hMap : m streamId with
  | some entry =>
      simp only [hMap, Option.map_some] at hCreate
      subst hCreate
      exact ⟨m, hHolds, hOrder⟩
  | none =>
      simp only [hMap, Option.map_none] at hCreate
      cases hCalloc : calloc.calloc t.heap with
      | none =>
          rw [hCalloc] at hCreate
          subst hCreate
          exact ⟨m, hHolds, hOrder⟩
      | some address =>
          rw [hCalloc] at hCreate
          subst hCreate
          exact ⟨_, hHolds.insert (calloc.fresh _ _ hCalloc) hMap, hOrder.update .empty⟩

theorem WellFormed.remove (h : t.WellFormed) {streamId : Nat} {t' : StreamTable}
    (hRemove : t.remove streamId = some t') : t'.WellFormed := by
  obtain ⟨m, ⟨chains, hHolds⟩, hOrder⟩ := h
  obtain ⟨t'', hSome, hHolds'⟩ := hHolds.remove streamId
  cases hSome.symm.trans hRemove
  refine ⟨_, hHolds', fun id a state hMap => ?_⟩
  by_cases hSame : id = streamId
  · subst hSame
    rw [Function.update_self] at hMap
    cases hMap
  · rw [Function.update_of_ne hSame] at hMap
    exact hOrder id a state hMap

theorem WellFormed.start : WellFormed {} := ⟨_, .start, fun _ _ _ hNone => by cases hNone⟩

end StreamTable

theorem StreamState.markSent_eq_iff (state : StreamState) :
    state.markSent = state ↔ state.responseHeadersSent = true :=
  ⟨fun hSame => hSame ▸ rfl, fun hSent => by rw [markSent, ← hSent]⟩

@[simp] theorem StreamState.bodyBuffer_markSent (state : StreamState) :
    state.markSent.bodyBuffer = state.bodyBuffer := rfl

theorem StreamState.setBuffer_eq_iff (buffer : ChunkBuffer) (state : StreamState) :
    state.setBuffer buffer = state ↔ buffer = state.bodyBuffer :=
  ⟨fun hSame => congrArg StreamState.bodyBuffer hSame, fun hSame => by rw [setBuffer, hSame]⟩

theorem StreamState.setBuffer_markSent_eq_iff (buffer : ChunkBuffer) (state : StreamState) :
    state.markSent.setBuffer buffer = state ↔
      state.responseHeadersSent = true ∧ buffer = state.bodyBuffer := by
  constructor
  · intro hSame
    exact ⟨congrArg StreamState.responseHeadersSent hSame ▸ rfl,
      congrArg StreamState.bodyBuffer hSame⟩
  · rintro ⟨hSent, rfl⟩
    rw [state.markSent_eq_iff.mpr hSent, setBuffer_eq_iff]

/-- A stream more is not what was there before. -/
theorem StreamTable.modify_insert_ne {t : StreamTable} (a streamId : Nat)
    (change : StreamState → StreamState) : (t.insert a streamId).modify a change ≠ t :=
  fun hSame => Nat.succ_ne_self _ (congrArg StreamTable.count hSame)

/-! ### What a call leaves -/

/-- A call that does not succeed leaves the connection as it was. -/
def KeptOnFailure (conn : H3Connection) (result : Option (H3Connection × H3Code)) : Prop :=
  ∃ conn' code, result = some (conn', code) ∧ (code ≠ .ok → conn' = conn)

theorem keptOnFailure_some {conn conn' : H3Connection} {code : H3Code} :
    KeptOnFailure conn (some (conn', code)) ↔ (code ≠ .ok → conn' = conn) := by
  constructor
  · rintro ⟨_, _, ⟨⟩, hKept⟩
    exact hKept
  · exact fun hKept => ⟨_, _, rfl, hKept⟩

namespace H3Connection

/-- The chunk buffer takes the data: there is room below the limit, and memory for each chunk. -/
def Takes (env : Surroundings) (buffer : ChunkBuffer) (data : Octets) : Prop :=
  buffer.canWrite data.length = true ∧
    ChunkBuffer.Grants env.malloc buffer.addresses (buffer.chunksNeeded data.length)

/-- The chunk buffer takes nothing: no room below the limit, or no memory for the first
octet. -/
def Leaves (env : Surroundings) (buffer : ChunkBuffer) (data : Octets) : Prop :=
  buffer.canWrite data.length = false ∨
    buffer.room = 0 ∧ env.malloc.malloc buffer.addresses = none

/-- Where a refused header list finds the mark already set, or no stream to set it in. -/
def HeadersKept (env : Surroundings) (conn : H3Connection) (streamId : Nat) (statusCode : Int)
    (headers : HeaderList) (hasBody : Bool) : Prop :=
  conn.http3 = true → env.nvaMalloc (headers.length + 1) = true →
    env.submitResponse streamId (submitted statusCode headers) hasBody ≠ 0 →
    match conn.stream streamId with
    | some state => state.responseHeadersSent = true
    | none => env.calloc.calloc conn.streams.heap = none

/-- Where a body is taken whole or not at all. -/
def BodyKept (env : Surroundings) (conn : H3Connection) (streamId : Nat) (data : Octets) : Prop :=
  ∀ state, conn.stream streamId = some state →
    data = [] ∨ Takes env state.bodyBuffer data ∨ Leaves env state.bodyBuffer data

/-- Where headers that are submitted are followed by a body that is taken, or were marked as
sent before a body that is not taken at all. -/
def ResponseKept (env : Surroundings) (conn : H3Connection) (streamId : Nat) (statusCode : Int)
    (headers : HeaderList) (body : Octets) : Prop :=
  HeadersKept env conn streamId statusCode headers (decide (0 < body.length)) ∧
    (conn.http3 = true → env.nvaMalloc (headers.length + 1) = true →
      env.submitResponse streamId (submitted statusCode headers) (decide (0 < body.length)) = 0 →
      0 < body.length →
      match conn.stream streamId with
      | some state => Takes env state.bodyBuffer body ∨
          state.responseHeadersSent = true ∧ Leaves env state.bodyBuffer body
      | none => env.calloc.calloc conn.streams.heap = none ∨ Takes env {} body)

theorem stream_of_holds {conn : H3Connection} {m : StreamMap} (h : conn.streams.Holds m)
    (streamId : Nat) : conn.stream streamId = (m streamId).map (·.2) := by
  rw [stream, h.find]
  cases hMap : m streamId with
  | none => rfl
  | some entry =>
      obtain ⟨a, state⟩ := entry
      obtain ⟨cell, hCell, hState⟩ := h.cell hMap
      simp only [Option.map_some, Option.join_some, Option.bind_some, hCell, hState]

/-- The streams after the headers, when they are submitted or refused by nghttp3. -/
inductive Marked (env : Surroundings) (t : StreamTable) (m : StreamMap) (streamId : Nat) :
    StreamTable → Prop
  | there {a : Nat} {state : StreamState} (hMap : m streamId = some (a, state)) :
      Marked env t m streamId (t.modify a StreamState.markSent)
  | created {a : Nat} (hMap : m streamId = none) (hCalloc : env.calloc.calloc t.heap = some a) :
      Marked env t m streamId ((t.insert a streamId).modify a StreamState.markSent)
  | refused (hMap : m streamId = none) (hCalloc : env.calloc.calloc t.heap = none) :
      Marked env t m streamId t

/-- `h3_send_response_headers` refuses at once, or marks the stream and submits. -/
theorem sendResponseHeaders_cases (env : Surroundings) {conn : H3Connection} {m : StreamMap}
    (h : conn.streams.Holds m) (streamId : Nat) (statusCode : Int) (headers : HeaderList)
    (hasBody : Bool) :
    (¬ (conn.http3 = true ∧ env.nvaMalloc (headers.length + 1) = true) ∧ ∃ code, code ≠ .ok ∧
      conn.sendResponseHeaders env streamId statusCode headers hasBody = some (conn, code)) ∨
    (conn.http3 = true ∧ env.nvaMalloc (headers.length + 1) = true) ∧
      ∃ streams, Marked env conn.streams m streamId streams ∧
        conn.sendResponseHeaders env streamId statusCode headers hasBody =
          some ({ conn with streams },
            if env.submitResponse streamId (submitted statusCode headers) hasBody ≠ 0
            then .errorHttp3 else .ok) := by
  rw [sendResponseHeaders]
  by_cases hHttp3 : conn.http3 = false
  · refine .inl ⟨fun hBoth => ?_, .errorInvalid, by decide, by rw [if_pos hHttp3]⟩
    rw [hBoth.1] at hHttp3
    cases hHttp3
  by_cases hNva : env.nvaMalloc (headers.length + 1) = false
  · refine .inl ⟨fun hBoth => ?_, .errorNomem, by decide, by rw [if_neg hHttp3, if_pos hNva]⟩
    rw [hBoth.2] at hNva
    cases hNva
  refine .inr ⟨⟨Bool.not_eq_false _ ▸ hHttp3, Bool.not_eq_false _ ▸ hNva⟩, ?_⟩
  rw [if_neg hHttp3, if_neg hNva, h.find]
  cases hMap : m streamId with
  | some entry => exact ⟨_, .there hMap, rfl⟩
  | none =>
      cases hCalloc : env.calloc.calloc conn.streams.heap with
      | none =>
          refine ⟨_, .refused hMap hCalloc, ?_⟩
          simp only [Option.map_none, Option.bind_some, StreamTable.create, h.find, hMap,
            Option.map_some, hCalloc]
          rfl
      | some a =>
          refine ⟨_, .created hMap hCalloc, ?_⟩
          simp only [Option.map_none, Option.bind_some, StreamTable.create, h.find, hMap,
            Option.map_some, hCalloc]
          rfl

/-- The mark makes a difference unless it was there, or there is nowhere to put it. -/
theorem Marked.same_iff {env : Surroundings} {conn : H3Connection} {m : StreamMap}
    (h : conn.streams.Holds m) {streamId : Nat} {streams : StreamTable}
    (hMarked : Marked env conn.streams m streamId streams) :
    streams = conn.streams ↔
      match conn.stream streamId with
      | some state => state.responseHeadersSent = true
      | none => env.calloc.calloc conn.streams.heap = none := by
  rw [stream_of_holds h]
  cases hMarked with
  | there hMap =>
      obtain ⟨cell, hCell, rfl⟩ := h.cell hMap
      rw [StreamTable.modify_eq_iff hCell, hMap]
      exact cell.state.markSent_eq_iff
  | created hMap hCalloc =>
      rw [hMap, hCalloc]
      exact iff_of_false (StreamTable.modify_insert_ne _ streamId _) (Option.some_ne_none _)
  | refused hMap hCalloc =>
      rw [hMap]
      exact iff_of_true rfl hCalloc

theorem keptOnFailure_headers_iff (env : Surroundings) {conn : H3Connection} {m : StreamMap}
    (h : conn.streams.Holds m) (streamId : Nat) (statusCode : Int) (headers : HeaderList)
    (hasBody : Bool) :
    KeptOnFailure conn (conn.sendResponseHeaders env streamId statusCode headers hasBody) ↔
      HeadersKept env conn streamId statusCode headers hasBody := by
  rcases sendResponseHeaders_cases env h streamId statusCode headers hasBody with
    ⟨hRefused, code, -, hResult⟩ | ⟨⟨hHttp3, hNva⟩, streams, hMarked, hResult⟩
  · rw [hResult, keptOnFailure_some]
    exact iff_of_true (fun _ => rfl) fun hHttp3 hNva => absurd ⟨hHttp3, hNva⟩ hRefused
  · rw [hResult, keptOnFailure_some, HeadersKept, ← hMarked.same_iff h]
    have hSame : ({ conn with streams } : H3Connection) = conn ↔ streams = conn.streams :=
      ⟨fun hSame => congrArg H3Connection.streams hSame, fun hSame => hSame ▸ rfl⟩
    rw [hSame]
    split
    · next hRv => exact ⟨fun hKept _ _ _ => hKept (by decide), fun hKept _ => hKept hHttp3 hNva hRv⟩
    · next hRv => exact iff_of_true (fun hOk => absurd rfl hOk) fun _ _ hOther => absurd hOther hRv

/-- `h3_send_response_body` finds no stream, no room, not the memory, or succeeds. -/
theorem sendResponseBody_cases (env : Surroundings) {conn : H3Connection} {m : StreamMap}
    (h : conn.streams.Holds m) (streamId : Nat) (data : Octets) (eof : Bool) :
    (m streamId = none ∧ conn.sendResponseBody env streamId data eof = some (conn, .errorStream)) ∨
    ∃ a cell, m streamId = some (a, cell.state) ∧ conn.streams.heap a = some cell ∧
      ((data ≠ [] ∧ cell.state.bodyBuffer.canWrite data.length = false ∧
          conn.sendResponseBody env streamId data eof = some (conn, .wouldBlock)) ∨
        (data ≠ [] ∧ cell.state.bodyBuffer.canWrite data.length = true ∧
          (cell.state.bodyBuffer.tryWrite env.malloc data).2 = false ∧
          conn.sendResponseBody env streamId data eof =
            some ({ conn with
              streams := conn.streams.modify a
                (.setBuffer (cell.state.bodyBuffer.tryWrite env.malloc data).1) }, .errorNomem)) ∨
        ((data = [] ∨ cell.state.bodyBuffer.canWrite data.length = true ∧
            (cell.state.bodyBuffer.tryWrite env.malloc data).2 = true) ∧
          ∃ conn', conn.sendResponseBody env streamId data eof = some (conn', .ok))) := by
  rw [sendResponseBody, h.find]
  cases hMap : m streamId with
  | none => exact .inl ⟨rfl, rfl⟩
  | some entry =>
      obtain ⟨a, state⟩ := entry
      obtain ⟨cell, hCell, rfl⟩ := h.cell hMap
      refine .inr ⟨a, cell, rfl, hCell, ?_⟩
      simp only [Option.map_some, Option.bind_some, hCell, Option.some.injEq]
      by_cases hData : data = []
      · subst hData
        refine .inr (.inr ⟨.inl rfl, ?_⟩)
        cases eof <;> exact ⟨_, rfl⟩
      · cases hRoom : cell.state.bodyBuffer.canWrite data.length with
        | false => exact .inl ⟨hData, rfl, if_pos ⟨hData, rfl⟩⟩
        | true =>
            refine .inr ?_
            cases hWrote : (cell.state.bodyBuffer.tryWrite env.malloc data).2 with
            | false =>
                refine .inl ⟨hData, rfl, rfl, ?_⟩
                simp only [Bool.true_eq_false, and_false, if_false, ne_eq, hData, not_false_eq_true,
                  if_true, hWrote]
            | true =>
                refine .inr ⟨.inr ⟨rfl, rfl⟩, ?_⟩
                simp only [Bool.true_eq_false, and_false, if_false, ne_eq, hData, not_false_eq_true,
                  if_true, hWrote]
                cases eof <;> exact ⟨_, rfl⟩

/-- A write that fails leaves the buffer just when there was no memory for its first octet. -/
theorem leaves_of_failed {env : Surroundings} {buffer : ChunkBuffer}
    (hShape : ChunkBuffer.Shape buffer.chunks buffer.writeChunk) {data : Octets} (hData : data ≠ [])
    (hRoom : buffer.canWrite data.length = true) :
    (buffer.tryWrite env.malloc data).1 = buffer ↔ Leaves env buffer data := by
  rw [ChunkBuffer.tryWrite_same_iff env.malloc hShape, Leaves, hRoom, or_iff_right hData,
    or_iff_right (by decide : ¬ true = false)]

theorem not_takes_of_failed {env : Surroundings} {buffer : ChunkBuffer}
    (hShape : ChunkBuffer.Shape buffer.chunks buffer.writeChunk) {data : Octets}
    (hFailed : (buffer.tryWrite env.malloc data).2 = false) : ¬ Takes env buffer data := by
  rintro ⟨-, hGrants⟩
  rw [← ChunkBuffer.tryWrite_iff env.malloc hShape, hFailed] at hGrants
  cases hGrants

/-- A body sent on `conn₁` leaves `conn` behind when it is taken, or when what it leaves
happens to be `conn`. -/
theorem keptOnFailure_body_from (env : Surroundings) (conn : H3Connection) {conn₁ : H3Connection}
    {m : StreamMap} (h : conn₁.streams.Holds m) (hOrder : StreamTable.InOrder m) {streamId a : Nat}
    {state : StreamState} (hMap : m streamId = some (a, state)) (data : Octets) (eof : Bool) :
    KeptOnFailure conn (conn₁.sendResponseBody env streamId data eof) ↔
      data = [] ∨ Takes env state.bodyBuffer data ∨
        (state.bodyBuffer.canWrite data.length = false ∧ conn₁ = conn) ∨
        (state.bodyBuffer.canWrite data.length = true ∧
          { conn₁ with
            streams := conn₁.streams.modify a
              (.setBuffer (state.bodyBuffer.tryWrite env.malloc data).1) } = conn) := by
  have hShape := hOrder _ _ _ hMap
  rcases sendResponseBody_cases env h streamId data eof with
    ⟨hNone, -⟩ | ⟨b, cell, hSame, hCell, hCases⟩
  · rw [hMap] at hNone
    cases hNone
  · rw [hMap] at hSame
    cases hSame
    rcases hCases with ⟨hData, hRoom, hResult⟩ | ⟨hData, hRoom, hFailed, hResult⟩ |
        ⟨hTaken, conn', hResult⟩
    · rw [hResult, keptOnFailure_some, or_iff_right hData, Takes, hRoom]
      simp
    · rw [hResult, keptOnFailure_some, or_iff_right hData,
        or_iff_right (not_takes_of_failed hShape hFailed), hRoom]
      simp
    · rw [hResult, keptOnFailure_some]
      refine iff_of_true (fun hOk => absurd rfl hOk) ?_
      rcases hTaken with hData | ⟨hRoom, hWrote⟩
      · exact .inl hData
      · exact .inr (.inl ⟨hRoom, (ChunkBuffer.tryWrite_iff env.malloc hShape data).mp hWrote⟩)

theorem streams_eq_iff {conn : H3Connection} {streams : StreamTable} :
    { conn with streams } = conn ↔ streams = conn.streams :=
  ⟨fun hSame => congrArg H3Connection.streams hSame, fun hSame => hSame ▸ rfl⟩

theorem keptOnFailure_body_iff (env : Surroundings) {conn : H3Connection} {m : StreamMap}
    (h : conn.streams.Holds m) (hOrder : StreamTable.InOrder m) (streamId : Nat) (data : Octets)
    (eof : Bool) :
    KeptOnFailure conn (conn.sendResponseBody env streamId data eof) ↔
      BodyKept env conn streamId data := by
  rw [BodyKept, stream_of_holds h]
  cases hMap : m streamId with
  | none =>
      rw [sendResponseBody, h.find, hMap]
      refine iff_of_true (keptOnFailure_some.mpr fun _ => rfl) fun state hNone => by cases hNone
  | some entry =>
      obtain ⟨a, state⟩ := entry
      obtain ⟨cell, hCell, rfl⟩ := h.cell hMap
      have hShape := hOrder _ _ _ hMap
      simp only [keptOnFailure_body_from env conn h hOrder hMap, Option.map_some,
        Option.some.injEq, forall_eq', streams_eq_iff, StreamTable.modify_eq_iff hCell,
        StreamState.setBuffer_eq_iff]
      by_cases hData : data = []
      · exact iff_of_true (.inl hData) (.inl hData)
      · refine or_congr_right (or_congr_right ?_)
        cases hRoom : cell.state.bodyBuffer.canWrite data.length with
        | false => simp [Leaves, hRoom]
        | true =>
            rw [← leaves_of_failed hShape hData hRoom]
            simp

/-- After the headers, a body that is not taken leaves the streams as they were before the
call when the mark was set before and nothing of the body is written. -/
theorem keptOnFailure_body_after_iff (env : Surroundings) {conn : H3Connection} {m : StreamMap}
    (h : conn.streams.Holds m) (hOrder : StreamTable.InOrder m) {streamId : Nat}
    {streams : StreamTable} (hMarked : Marked env conn.streams m streamId streams) {body : Octets}
    (hBody : body ≠ []) (eof : Bool) :
    KeptOnFailure conn (({ conn with streams } : H3Connection).sendResponseBody env streamId body eof) ↔
      match conn.stream streamId with
      | some state => Takes env state.bodyBuffer body ∨
          state.responseHeadersSent = true ∧ Leaves env state.bodyBuffer body
      | none => env.calloc.calloc conn.streams.heap = none ∨ Takes env {} body := by
  rw [stream_of_holds h]
  cases hMarked with
  | @there a state hMap =>
      obtain ⟨cell, hCell, rfl⟩ := h.cell hMap
      have hShape := hOrder _ _ _ hMap
      have hMap' : Function.update m streamId (some (a, cell.state.markSent)) streamId =
        some (a, cell.state.markSent) := Function.update_self ..
      have hOrder' : StreamTable.InOrder
          (Function.update m streamId (some (a, cell.state.markSent))) := hOrder.update hShape
      rw [hMap, keptOnFailure_body_from env conn (h.modify hMap _) hOrder' hMap',
        or_iff_right hBody]
      simp only [streams_eq_iff, StreamTable.modify_modify, StreamTable.modify_eq_iff hCell,
        StreamState.markSent_eq_iff, Function.comp_apply, StreamState.bodyBuffer_markSent,
        StreamState.setBuffer_markSent_eq_iff]
      refine or_congr_right ?_
      cases hRoom : cell.state.bodyBuffer.canWrite body.length with
      | false => simp [Leaves, hRoom]
      | true =>
          rw [← leaves_of_failed hShape hBody hRoom]
          simp
  | @created a hMap hCalloc =>
      have hMarked := h.insert_modify (env.calloc.fresh _ _ hCalloc) hMap StreamState.markSent
      have hOrder' : StreamTable.InOrder
          (Function.update m streamId (some (a, StreamState.markSent {}))) := hOrder.update .empty
      have hMap' : Function.update m streamId (some (a, StreamState.markSent {})) streamId =
        some (a, StreamState.markSent {}) := Function.update_self ..
      rw [keptOnFailure_body_from env conn hMarked hOrder' hMap', or_iff_right hBody, hMap]
      simp only [streams_eq_iff, StreamTable.modify_modify, StreamTable.modify_insert_ne, and_false,
        or_false, hCalloc, Option.map_none, reduceCtorEq, false_or]
      rfl
  | refused hMap hCalloc =>
      rw [hMap, sendResponseBody, h.find, hMap]
      exact iff_of_true (keptOnFailure_some.mpr fun _ => rfl) (.inl hCalloc)

theorem keptOnFailure_response_iff (env : Surroundings) {conn : H3Connection} {m : StreamMap}
    (h : conn.streams.Holds m) (hOrder : StreamTable.InOrder m) (streamId : Nat) (statusCode : Int)
    (headers : HeaderList) (body : Octets) :
    KeptOnFailure conn (conn.sendResponse env streamId statusCode headers body) ↔
      ResponseKept env conn streamId statusCode headers body := by
  have hHeaders := keptOnFailure_headers_iff env h streamId statusCode headers
    (decide (0 < body.length))
  rw [sendResponse, ResponseKept, ← hHeaders]
  rcases sendResponseHeaders_cases env h streamId statusCode headers (decide (0 < body.length)) with
    ⟨hRefused, code, hCode, hResult⟩ | ⟨⟨hHttp3, hNva⟩, streams, hMarked, hResult⟩
  · rw [hResult, Option.bind_some, if_pos hCode, keptOnFailure_some]
    exact iff_of_true (fun _ => rfl) ⟨fun _ => rfl, fun hHttp3 hNva => absurd ⟨hHttp3, hNva⟩ hRefused⟩
  · by_cases hRv : env.submitResponse streamId (submitted statusCode headers)
        (decide (0 < body.length)) = 0
    · rw [if_neg (not_not.mpr hRv)] at hResult
      rw [hResult, Option.bind_some, if_neg (not_not.mpr rfl), keptOnFailure_some,
        and_iff_right (fun hOk => absurd rfl hOk)]
      by_cases hBody : 0 < body.length
      · rw [if_pos hBody, keptOnFailure_body_after_iff env h hOrder hMarked
          (List.ne_nil_of_length_pos hBody)]
        exact ⟨fun hKept _ _ _ _ => hKept, fun hKept => hKept hHttp3 hNva hRv hBody⟩
      · rw [if_neg hBody, keptOnFailure_some]
        exact iff_of_true (fun hOk => absurd rfl hOk) fun _ _ _ hSome => absurd hSome hBody
    · rw [if_pos hRv] at hResult
      have hFailed : H3Code.errorHttp3 ≠ .ok := by decide
      rw [hResult, Option.bind_some, if_pos hFailed]
      exact (and_iff_left fun _ _ hOk => absurd hOk hRv).symm

end H3Connection

/-! ### The states of a connection -/

theorem ChunkBuffer.flushLoop_split (w : Option Nat) (acked : Nat) (cs : List DataChunk) :
    ∀ freed, ∃ gone, cs = gone ++ (flushLoop w acked cs freed).1 ∧
      ∀ c ∈ gone, some c.address ≠ w := by
  induction cs with
  | nil => exact fun _ => ⟨[], rfl, fun c hMem => by cases hMem⟩
  | cons c cs ih =>
      intro freed
      rw [flushLoop]
      split
      · next hFree =>
          obtain ⟨gone, hSplit, hKept⟩ := ih (addSize freed c.data.length)
          refine ⟨c :: gone, by rw [List.cons_append, ← hSplit], fun c' hMem => ?_⟩
          rcases List.mem_cons.mp hMem with rfl | hMem
          · exact hFree.1
          · exact hKept c' hMem
      · exact ⟨[], rfl, fun c hMem => by cases hMem⟩

theorem HistoryOp.shape_apply {b : ChunkBuffer} (h : ChunkBuffer.Shape b.chunks b.writeChunk)
    (op : HistoryOp) : ChunkBuffer.Shape (op.apply b).chunks (op.apply b).writeChunk := by
  cases op with
  | write malloc data => exact (ChunkBuffer.tryWriteLoop_grown malloc data.length h).1
  | flushAcked =>
      obtain ⟨gone, hSplit, hKept⟩ :=
        ChunkBuffer.flushLoop_split b.writeChunk b.ackedBytes b.chunks b.freedBytes
      rw [hSplit] at h
      exact h.drop hKept
  | read => exact h
  | consume bytes => exact h
  | ack bytes => exact h
  | setEof => exact h

/-- What is done with a connection: by the callbacks of ngtcp2 and nghttp3, and by the caller. -/
inductive ConnOp where
  /-- The nghttp3 connection is made, or given up. -/
  | http3 (there : Bool)
  | create (calloc : Calloc) (streamId : Nat)
  | remove (streamId : Nat)
  | cleanup
  | buffer (streamId : Nat) (op : HistoryOp)
  | sendHeaders (env : Surroundings) (streamId : Nat) (statusCode : Int) (headers : HeaderList)
      (hasBody : Bool)
  | sendBody (env : Surroundings) (streamId : Nat) (data : Octets) (eof : Bool)
  | sendResponse (env : Surroundings) (streamId : Nat) (statusCode : Int) (headers : HeaderList)
      (body : Octets)

def ConnOp.apply (conn : H3Connection) : ConnOp → Option H3Connection
  | .http3 there => some { conn with http3 := there }
  | .create calloc streamId =>
      (conn.streams.create calloc streamId).map fun created => { conn with streams := created.1 }
  | .remove streamId => (conn.streams.remove streamId).map fun streams => { conn with streams }
  | .cleanup => conn.streams.cleanup.map fun streams => { conn with streams }
  | .buffer streamId op =>
      (conn.streams.find streamId).map fun found =>
        match found with
        | none => conn
        | some address =>
            { conn with
              streams := conn.streams.modify address fun state =>
                state.setBuffer (op.apply state.bodyBuffer) }
  | .sendHeaders env streamId statusCode headers hasBody =>
      (conn.sendResponseHeaders env streamId statusCode headers hasBody).map (·.1)
  | .sendBody env streamId data eof => (conn.sendResponseBody env streamId data eof).map (·.1)
  | .sendResponse env streamId statusCode headers body =>
      (conn.sendResponse env streamId statusCode headers body).map (·.1)

inductive H3Connection.Reachable : H3Connection → Prop
  | start : Reachable {}
  | next {conn conn' : H3Connection} (op : ConnOp) (h : Reachable conn)
      (hApply : op.apply conn = some conn') : Reachable conn'

namespace H3Connection

theorem wellFormed_headers {env : Surroundings} {conn conn' : H3Connection} {streamId : Nat}
    {statusCode : Int} {headers : HeaderList} {hasBody : Bool} {code : H3Code}
    (h : conn.streams.WellFormed)
    (hResult : conn.sendResponseHeaders env streamId statusCode headers hasBody =
      some (conn', code)) : conn'.streams.WellFormed := by
  obtain ⟨m, hHolds, hOrder⟩ := h
  rcases sendResponseHeaders_cases env hHolds streamId statusCode headers hasBody with
    ⟨-, _, -, hSame⟩ | ⟨-, streams, hMarked, hSame⟩
  · cases hSame.symm.trans hResult
    exact ⟨m, hHolds, hOrder⟩
  · cases hSame.symm.trans hResult
    cases hMarked with
    | there hMap =>
        have hShape := hOrder _ _ _ hMap
        exact ⟨_, hHolds.modify hMap _, hOrder.update hShape⟩
    | created hMap hCalloc =>
        exact ⟨_, hHolds.insert_modify (env.calloc.fresh _ _ hCalloc) hMap _, hOrder.update .empty⟩
    | refused => exact ⟨m, hHolds, hOrder⟩

theorem wellFormed_body {env : Surroundings} {conn conn' : H3Connection} {streamId : Nat}
    {data : Octets} {eof : Bool} {code : H3Code} (h : conn.streams.WellFormed)
    (hResult : conn.sendResponseBody env streamId data eof = some (conn', code)) :
    conn'.streams.WellFormed := by
  obtain ⟨m, hHolds, hOrder⟩ := h
  rw [sendResponseBody, hHolds.find] at hResult
  cases hMap : m streamId with
  | none =>
      rw [hMap] at hResult
      cases hResult
      exact ⟨m, hHolds, hOrder⟩
  | some entry =>
      obtain ⟨a, state⟩ := entry
      obtain ⟨cell, hCell, rfl⟩ := hHolds.cell hMap
      have hShape := hOrder _ _ _ hMap
      have hFind : conn.streams.find streamId = some (some a) := by
        rw [hHolds.find, hMap]
        rfl
      have hWrote (buffer : ChunkBuffer) (hBuffer : ChunkBuffer.Shape buffer.chunks buffer.writeChunk) :
          (conn.streams.modify a (.setBuffer buffer)).WellFormed ∧
            ((conn.streams.modify a (.setBuffer buffer)).modify a .endBody).WellFormed := by
        rw [StreamTable.modify_modify]
        exact ⟨.modify ⟨m, hHolds, hOrder⟩ hFind fun _ _ => hBuffer,
          .modify ⟨m, hHolds, hOrder⟩ hFind fun _ _ => hBuffer⟩
      have hShape' : ChunkBuffer.Shape
          (if data ≠ [] then cell.state.bodyBuffer.tryWrite env.malloc data
            else (cell.state.bodyBuffer, true)).1.chunks
          (if data ≠ [] then cell.state.bodyBuffer.tryWrite env.malloc data
            else (cell.state.bodyBuffer, true)).1.writeChunk := by
        split
        · exact (ChunkBuffer.tryWriteLoop_grown env.malloc data.length hShape).1
        · exact hShape
      rw [hMap, Option.map_some, Option.bind_some] at hResult
      dsimp only at hResult
      rw [hCell, Option.map_some, Option.some.injEq] at hResult
      generalize (if data ≠ [] then cell.state.bodyBuffer.tryWrite env.malloc data
        else (cell.state.bodyBuffer, true)) = wrote at hResult hShape'
      split at hResult
      · cases hResult
        exact ⟨m, hHolds, hOrder⟩
      · split at hResult
        · cases hResult
          exact (hWrote _ hShape').1
        · split at hResult
          · cases hResult
            exact (hWrote _ hShape').2
          · cases hResult
            exact (hWrote _ hShape').1

theorem wellFormed_apply {conn conn' : H3Connection} (h : conn.streams.WellFormed) (op : ConnOp)
    (hApply : op.apply conn = some conn') : conn'.streams.WellFormed := by
  cases op with
  | http3 there =>
      cases hApply
      exact h
  | create calloc streamId =>
      obtain ⟨created, hCreate, rfl⟩ := Option.map_eq_some_iff.mp hApply
      exact h.create hCreate
  | remove streamId =>
      obtain ⟨streams, hRemove, rfl⟩ := Option.map_eq_some_iff.mp hApply
      exact h.remove hRemove
  | cleanup =>
      obtain ⟨streams, hCleanup, rfl⟩ := Option.map_eq_some_iff.mp hApply
      obtain ⟨m, ⟨chains, hHolds⟩, -⟩ := h
      cases hHolds.cleanup.symm.trans hCleanup
      exact .start
  | buffer streamId op =>
      obtain ⟨found, hFind, rfl⟩ := Option.map_eq_some_iff.mp hApply
      cases found with
      | none => exact h
      | some a =>
          dsimp only
          refine h.modify hFind fun state hShape => ?_
          exact op.shape_apply hShape
  | sendHeaders env streamId statusCode headers hasBody =>
      obtain ⟨⟨_, code⟩, hResult, rfl⟩ := Option.map_eq_some_iff.mp hApply
      exact wellFormed_headers h hResult
  | sendBody env streamId data eof =>
      obtain ⟨⟨_, code⟩, hResult, rfl⟩ := Option.map_eq_some_iff.mp hApply
      exact wellFormed_body h hResult
  | sendResponse env streamId statusCode headers body =>
      obtain ⟨⟨_, code⟩, hResult, rfl⟩ := Option.map_eq_some_iff.mp hApply
      obtain ⟨⟨sent, code'⟩, hSent, hRest⟩ := Option.bind_eq_some_iff.mp hResult
      have hMiddle := wellFormed_headers h hSent
      dsimp only at hRest
      split at hRest
      · cases hRest
        exact hMiddle
      · split at hRest
        · exact wellFormed_body hMiddle hRest
        · cases hRest
          exact hMiddle

theorem Reachable.wellFormed {conn : H3Connection} (h : Reachable conn) :
    conn.streams.WellFormed := by
  induction h with
  | start => exact .start
  | next op _ hApply ih => exact wellFormed_apply ih op hApply

/-- When a call that does not succeed leaves everything as it was. -/
theorem sends_keptOnFailure_iff {conn : H3Connection} (h : Reachable conn) (env : Surroundings)
    (streamId : Nat) (statusCode : Int) (headers : HeaderList) (hasBody eof : Bool)
    (data : Octets) :
    (KeptOnFailure conn (conn.sendResponseHeaders env streamId statusCode headers hasBody) ↔
      HeadersKept env conn streamId statusCode headers hasBody) ∧
    (KeptOnFailure conn (conn.sendResponseBody env streamId data eof) ↔
      BodyKept env conn streamId data) ∧
    (KeptOnFailure conn (conn.sendResponse env streamId statusCode headers data) ↔
      ResponseKept env conn streamId statusCode headers data) := by
  obtain ⟨m, hHolds, hOrder⟩ := h.wellFormed
  exact ⟨keptOnFailure_headers_iff env hHolds streamId statusCode headers hasBody,
    keptOnFailure_body_iff env hHolds hOrder streamId data eof,
    keptOnFailure_response_iff env hHolds hOrder streamId statusCode headers data⟩

/-- Memory for a stream, the header list and chunks, and an nghttp3 that refuses. -/
def refusing : Surroundings where
  nvaMalloc _ := true
  calloc :=
    { calloc := fun heap => if heap 1 = none then some 1 else none
      fresh := by
        intro heap address hSome
        split at hSome
        · next hFree =>
            cases hSome
            exact hFree
        · cases hSome }
  malloc := HistoryOp.plenty
  submitResponse _ _ _ := -1

theorem Reachable.apply {conn : H3Connection} (h : Reachable conn) {op : ConnOp}
    (hDone : (op.apply conn).isSome = true) : Reachable ((op.apply conn).getD {}) := by
  obtain ⟨conn', hApply⟩ := Option.isSome_iff_exists.mp hDone
  rw [hApply]
  exact .next op h hApply

def accepting : Surroundings := { refusing with submitResponse := fun _ _ _ => 0 }

/-- The headers of a response on stream 0 are with nghttp3. -/
def opened : H3Connection :=
  ((ConnOp.sendHeaders accepting 0 200 [] true).apply { http3 := true }).getD {}

/-- Two octets of its body are in the buffer. -/
def begun : H3Connection := ((ConnOp.sendBody accepting 0 [1, 2] false).apply opened).getD {}

theorem begun_reachable : Reachable begun := by
  have hOpened : Reachable opened :=
    (Reachable.next (.http3 true) .start rfl).apply (by decide +kernel)
  exact hOpened.apply (by decide +kernel)

/-- With the stream under way nghttp3 refuses, and there are more octets to send. -/
theorem sends_keptOnFailure_begun :
    (begun.stream 0).map (fun state =>
      (state.responseHeadersSent, state.bodyBuffer.chunks.map (·.data))) = some (true, [[1, 2]]) ∧
    (KeptOnFailure begun (begun.sendResponseHeaders refusing 0 200 [] true) ↔
      HeadersKept refusing begun 0 200 [] true) ∧
    (KeptOnFailure begun (begun.sendResponseBody refusing 0 [3] true) ↔
      BodyKept refusing begun 0 [3]) ∧
    (KeptOnFailure begun (begun.sendResponse refusing 0 200 [] [3]) ↔
      ResponseKept refusing begun 0 200 [] [3]) :=
  ⟨by decide +kernel, sends_keptOnFailure_iff begun_reachable refusing 0 200 [] true true [3]⟩

/-- The headers of a response on a new stream are rejected, and the stream is there, with the
mark that they were sent. -/
theorem sendResponseHeaders_rejected :
    ¬ KeptOnFailure { http3 := true }
      (({ http3 := true } : H3Connection).sendResponseHeaders refusing 0 200 [] true) := by
  have hHolds : ({ http3 := true } : H3Connection).streams.Holds fun _ => none := .start
  rw [keptOnFailure_headers_iff refusing hHolds]
  intro hKept
  have hNone := hKept rfl rfl (by decide)
  rw [stream_of_holds hHolds] at hNone
  cases hNone

end H3Connection

end PageCamel.Http3

import PageCamel.Http2.StreamErrors

/-!
Streams refused because too many are active. The refusal looks up the state of the stream, which
leaves an empty record behind; the next frame for the stream is then not answered as one for a
closed stream but as an internal error of the connection.
-/

namespace PageCamel.Http2
open PageCamel.Lib

namespace Connection

variable {con con' : Connection} {sid : Nat} {own : Set Nat}

/-! ### Streams without a state -/

/-- The stream is there, but nothing the state machine goes by. -/
structure Stateless (con : Connection) (sid : Nat) : Prop where
  isSome : (con.stream? sid).isSome
  state : con.get sid Stream.state = none
  promised : con.get sid Stream.promisedSid = none
  pending : con.get sid Stream.pendingState = none

theorem Stateless.even (h : con.Stateless sid) (hEven : Even own con con') : con'.Stateless sid where
  isSome := (hEven.isSome sid).trans h.isSome
  state := (hEven.get (fun _ => rfl) sid).trans h.state
  promised := (hEven.get (fun _ => rfl) sid).trans h.promised
  pending := (hEven.get (fun _ => rfl) sid).trans h.pending

/-- Another stream is dealt with. -/
theorem Stateless.confined (h : con.Stateless sid) (hConfined : Confined own con con')
    (hOther : sid ∉ own) : con'.Stateless sid where
  isSome := hConfined.streams sid h.isSome
  state := (hConfined.get rfl (fun _ => rfl) hOther).trans h.state
  promised := (hConfined.get rfl (fun _ => rfl) hOther).trans h.promised
  pending := (hConfined.get rfl (fun _ => rfl) hOther).trans h.pending

theorem Stateless.setError (h : con.Stateless sid) (code : ErrorCode) :
    (con.setError code).Stateless sid := by
  have hSame {α : Type} (field : Stream → Option α) :
      (con.setError code).get sid field = con.get sid field := by
    rw [get, stream?_setError, get]
  refine ⟨?_, (hSame _).trans h.state, (hSame _).trans h.promised, (hSame _).trans h.pending⟩
  rw [stream?_setError]
  exact h.isSome

theorem Stateless.standing (h : con.Stateless sid) : con.standing sid = none := by
  rw [Connection.standing, h.promised]
  exact h.state

/-- The state machine does nothing but raise errors. -/
theorem Stateless.stateMachine_eq (h : con.Stateless sid) (act : Act) (type : FrameType)
    (flags : UInt8) : con.stateMachine act type flags sid = con ∨
      ∃ code, con.stateMachine act type flags sid = con.setError code := by
  obtain ⟨s, hs⟩ := Option.isSome_iff_exists.mp h.isSome
  unfold stateMachine
  split
  · exact .inl rfl
  · dsimp only
    rw [h.promised, Option.getD_none, vivify_of_some hs, h.state, h.pending]
    dsimp only
    split
    · exact .inl rfl
    · split
      · exact .inr ⟨_, rfl⟩
      · exact .inr ⟨_, rfl⟩

theorem Stateless.stateMachine_reset (h : con.Stateless sid) (flags : UInt8) :
    con.stateMachine .send .rstStream flags sid = con := by
  obtain ⟨s, hs⟩ := Option.isSome_iff_exists.mp h.isSome
  unfold stateMachine
  split
  · rfl
  · dsimp only
    rw [h.promised, Option.getD_none, vivify_of_some hs, h.state, if_pos ⟨rfl, rfl, rfl⟩]

theorem Stateless.stateMachine (h : con.Stateless sid) (act : Act) (type : FrameType)
    (flags : UInt8) : (con.stateMachine act type flags sid).Stateless sid := by
  rcases h.stateMachine_eq act type flags with hSame | ⟨code, hError⟩
  · rw [hSame]
    exact h
  · rw [hError]
    exact h.setError code

/-- So a reset only queues its frame. -/
theorem Stateless.streamError_even (h : con.Stateless sid) (own : Set Nat) (code : ErrorCode) :
    Even own con (con.streamError sid code) := by
  have hFrame := even_resetFrame own con sid code
  rw [streamError_eq, (h.even hFrame).stateMachine_reset]
  exact hFrame

theorem Stateless.streamError (h : con.Stateless sid) (code : ErrorCode) :
    (con.streamError sid code).Stateless sid := h.even (h.streamError_even Set.univ code)

/-! ### Frames for a stream without a state -/

theorem chains_stateless (sid : Nat) : Chains fun con con' => con.Stateless sid → con'.Stateless sid :=
  ⟨fun _ => id, fun h h' hCon => h' (h hCon)⟩

theorem collects_stateless (sid : Nat) :
    Collects sid fun con con' => con.Stateless sid → con'.Stateless sid where
  toChains := chains_stateless sid
  setError _ code h := h.setError code
  streamError _ code h := h.streamError code
  fcwUpdate con h := h.even (even_fcwUpdate Set.univ con)
  streamFcwUpdate _ con h := ((h.even (even_addStreamFcwRecv (Set.mem_univ sid) con _)).even
    (even_push Set.univ _ (show FrameType.windowUpdate ≠ .goaway by decide))).stateMachine ..
  streamData con data h := h.even (even_streamData Set.univ con sid data)

theorem Stateless.dataDecode {fh : FrameHeader} (h : con.Stateless fh.stream) (buf : Octets) :
    (con.dataDecode fh buf).1.Stateless fh.stream := by
  rcases (collects_stateless fh.stream).dataDecode_taken con buf with hRefused | hTaken
  · exact hRefused h
  · exact hTaken (h.even (even_received con (Set.mem_univ fh.stream)))

theorem uploads_stateless (sid : Nat) :
    Uploads sid fun con con' => con.Stateless sid → con'.Stateless sid where
  toChains := chains_stateless sid
  addFcwSend _ _ h := h.even (@even_of_streams _ _ Set.univ rfl rfl rfl rfl rfl)
  addStreamFcwSend con delta h := h.even (even_addStreamFcwSend (Set.mem_univ sid) con delta)
  data con _ _ h := (h.even (even_push Set.univ con (show FrameType.data ≠ .goaway by decide))).stateMachine ..
  ended con ended h := h.even (@even_modifyStream Set.univ (fun s => { s with ended }) (fun _ => rfl) con sid)
  blocked con rest h := h.even
    (@even_modifyStream Set.univ (fun s => { s with blockedData := some rest }) (fun _ => rfl) con sid)

theorem Stateless.windowUpdateDecode (ord : HashOrder) {fh : FrameHeader}
    (h : con.Stateless fh.stream) (hNonzero : fh.stream ≠ 0) (buf : Octets) :
    (con.windowUpdateDecode ord fh buf).1.Stateless fh.stream := by
  rw [Connection.windowUpdateDecode]
  split
  · exact h.setError _
  · dsimp only
    split
    · exact h.setError _
    · split
      · exact h
      · have hMoved := h.even (even_addStreamFcwSend (Set.mem_univ fh.stream) con
          (unpack32 buf &&& 0x7FFFFFFF : Nat))
        split
        · exact hMoved.streamError _
        · exact (uploads_stateless fh.stream).streamSendBlocked _ hMoved

theorem Stateless.headersDecoded (h : con.Stateless sid) : (con.headersDecoded sid).1.Stateless sid := by
  refine headersDecoded_rule (R := fun con con' => con.Stateless sid → con'.Stateless sid)
    (chains_stateless sid).trans (fun con c h => h.even (even_announce Set.univ con sid c))
    (fun _ h => h.streamError _) (fun con h => h.even (even_setDecodeCtx Set.univ con _)) con
    (fun con' isTrailer eh hCon => ?_) h
  rw [h.promised]
  exact hCon.even (@even_modifyStream Set.univ (Stream.store _ _)
    (fun s => by rw [Stream.store]; split <;> rfl) _ sid)

theorem decodes_stateless (sid : Nat) :
    Decodes sid fun con con' => con.Stateless sid → con'.Stateless sid where
  toChains := chains_stateless sid
  setWeight con other weight h := h.even ((reorders_even Set.univ).setWeight con other weight)
  setStreamDep con other dep h := h.even ((reorders_even Set.univ).setStreamDep con other dep)
  setError _ code h := h.setError code
  streamError _ code h := h.streamError code
  setHeaderBlock con block h := h.even (even_setHeaderBlock Set.univ con sid block)
  headersDecode con _ h := h.even (even_setDecodeCtx Set.univ con _)
  headersDecoded _ h := h.headersDecoded

end Connection

/-- The frames a client may send on a stream of its own. -/
def FrameType.Ordinary (type : FrameType) : Prop :=
  type = .data ∨ type = .headers ∨ type = .priority ∨ type = .rstStream ∨ type = .windowUpdate ∨
    type = .continuation

namespace Connection

variable {con con' : Connection} {sid : Nat} {own : Set Nat}

theorem Stateless.payloadDecode (ord : HashOrder) {fh : FrameHeader} (h : con.Stateless fh.stream)
    (hType : fh.type.Ordinary) (hNonzero : fh.stream ≠ 0) (buf : Octets) :
    (con.payloadDecode ord fh buf).1.Stateless fh.stream := by
  have hDecodes := decodes_stateless fh.stream
  rw [Connection.payloadDecode]
  rcases hType with hType | hType | hType | hType | hType | hType
  all_goals
    rw [hType]
    dsimp only
  · exact h.dataDecode buf
  · exact hDecodes.headersFrameDecode con buf h
  · exact hDecodes.priorityDecode hDecodes.setError con fh buf h
  · exact hDecodes.rstStreamDecode (fun con code h => h.even (even_setReset Set.univ con _ code)) con buf h
  · exact h.windowUpdateDecode ord hNonzero buf
  · exact hDecodes.continuationDecode con buf h

/-- The connection outlives the frame exactly if a header list is refused in it. -/
theorem Stateless.frameReceive_up (ord : HashOrder) {fh : FrameHeader} (h : con.Stateless fh.stream)
    (hPreface : con.preface = true) (hType : fh.type.Ordinary) (hNonzero : fh.stream ≠ 0)
    (buf : Octets) :
    (con.frameReceive ord fh buf).1.shutdown = false ↔ con.PayloadWedges fh buf := by
  rw [← frameReceive_stuck_iff ord (fun _ => h.isSome) buf]
  refine ⟨fun hUp => ⟨?_, hUp⟩, And.right⟩
  have hDecoded := h.payloadDecode ord hType hNonzero buf
  have hPreface' := (fate_payloadDecode ord con fh buf).preface.trans hPreface
  rw [frameReceive] at hUp ⊢
  generalize con.payloadDecode ord fh buf = result at hDecoded hPreface' hUp ⊢
  obtain ⟨con', _ | n⟩ := result
  · rfl
  · have hFields : ¬ (fh.type = .settings ∨ fh.type = .goaway) := by
      rcases hType with hType | hType | hType | hType | hType | hType <;> simp [hType]
    have hDown := shutdown_recv_stateless hNonzero hPreface' hFields
      hDecoded.standing (fun _ => hDecoded.pending) fh.flags
    rw [hDown] at hUp
    cases hUp

/-- Then it only queues a reset for the stream. -/
theorem Stateless.frameReceive_even (ord : HashOrder) {fh : FrameHeader}
    (h : con.Stateless fh.stream) (hType : fh.type.Ordinary) {buf : Octets}
    (hWedges : con.PayloadWedges fh buf) :
    Even {fh.stream} con (con.frameReceive ord fh buf).1 := by
  obtain ⟨hNonzero, hKind⟩ := hWedges
  have hReset {con' : Connection} {code : ErrorCode} (hEven : Even {fh.stream} con con') :
      Even {fh.stream} con (con'.streamError fh.stream code) :=
    hEven.trans ((h.even hEven).streamError_even _ code)
  rw [frameReceive, Connection.payloadDecode]
  rcases hType with hType | hType | hType | hType | hType | hType
  all_goals
    rw [hType] at hKind ⊢
    dsimp only at hKind ⊢
  · obtain ⟨hPriority, hFits, hEnd, -, hRefuses, -⟩ := hKind
    obtain ⟨con', code, hEven, hEq⟩ :=
      headersFrameDecode_violation hNonzero h.isSome hPriority hFits ⟨hEnd, hRefuses⟩
    rw [hEq]
    exact hReset hEven
  · obtain ⟨hEnd, -, hRefuses, -⟩ := hKind
    obtain ⟨con', code, hEven, hEq⟩ := blockDecode_violation h.isSome ⟨hEnd, hRefuses⟩
    rw [Connection.continuationDecode, if_neg hNonzero, hEq]
    exact hReset hEven

/-! ### The refusal -/

/-- A new stream is beyond the limit. -/
def Refuses (con : Connection) (sid : Nat) : Prop :=
  con.stream? sid = none ∧ con.badPeerStream sid = false ∧ con.peerStreamsFull = true

/-- It leaves an empty record. -/
theorem frameAdmit_refuses (ord : HashOrder) {fh : FrameHeader} (hPreface : con.preface = true)
    (hNonzero : fh.stream ≠ 0) (hRefuses : con.Refuses fh.stream) (buf : Octets) :
    (con.frameAdmit ord fh buf).1.Stateless fh.stream ∧
      Confined {fh.stream} con (con.frameAdmit ord fh buf).1 ∧
      (con.frameAdmit ord fh buf).1.shutdown = con.shutdown := by
  obtain ⟨hNone, hGood, hFull⟩ := hRefuses
  have hAdmit : (con.frameAdmit ord fh buf).1 = ((con.setLastPeerStream fh.stream).push
      ⟨.rstStream, 0, fh.stream, pack32 ErrorCode.refusedStream.code⟩).setStream fh.stream {} := by
    rw [frameAdmit, if_pos ⟨hNonzero, by rw [hNone]; rfl⟩, newPeerStream, hGood, hFull]
    have hLast : (con.setLastPeerStream fh.stream).preface = true := hPreface
    exact streamError_absent hLast hNonzero hNone _
  rw [hAdmit]
  have hMade := stream?_setStream_self ((con.setLastPeerStream fh.stream).push
    ⟨.rstStream, 0, fh.stream, pack32 ErrorCode.refusedStream.code⟩) fh.stream {}
  refine ⟨⟨by rw [hMade]; rfl, get_of_some hMade _, get_of_some hMade _, get_of_some hMade _⟩,
    ⟨id, fun _ => ?_, fun sid hSome => ?_, fun sid hOther => outline_congr ?_⟩, rfl⟩
  · rw [goaways, setStream, push, List.filter_append]
    exact List.append_nil _
  · rw [stream?_setStream]
    split
    · rfl
    · exact hSome
  · exact stream?_setStream_of_ne _ _ (by simpa using hOther)

end Connection

/-! ### Runs -/

/-- A connection, and the streams refused so far. -/
structure Refusing where
  con : Connection
  refused : List Nat := []

namespace Refusing

variable {r : Refusing}

/-- A frame for a refused stream arrives. -/
def step (r : Refusing) (event : HashOrder × Octets) : Refusing where
  con := (r.con.frameDecode event.1 event.2).1
  refused :=
    match r.con.inTurn event.2 with
    | some (fh, _) => fh.stream :: r.refused
    | none => r.refused

/-- The frame opens a stream that is refused, or is for one that was. -/
def Concerns (r : Refusing) (event : HashOrder × Octets) : Prop :=
  ∃ fh payload, r.con.inTurn event.2 = some (fh, payload) ∧ fh.stream ≠ 0 ∧ fh.type.Ordinary ∧
    (fh.stream ∈ r.refused ∨ r.con.Refuses fh.stream)

/-- After the refusal only header lists come that are refused as well. -/
def Harmless (r : Refusing) (event : HashOrder × Octets) : Prop :=
  ∀ fh payload, r.con.inTurn event.2 = some (fh, payload) → fh.stream ∈ r.refused →
    r.con.PayloadWedges fh payload

/-- No error of the connection has been raised, and the states and windows of the other streams are
what they were. -/
structure Ignores (con : Connection) (r : Refusing) : Prop where
  error : r.con.error = none
  state : ∀ sid ∉ r.refused, r.con.get sid Stream.state = con.get sid Stream.state
  fcwSend : ∀ sid ∉ r.refused, r.con.get sid Stream.fcwSend = con.get sid Stream.fcwSend
  fcwRecv : ∀ sid ∉ r.refused, r.con.get sid Stream.fcwRecv = con.get sid Stream.fcwRecv

/-- The connection is up, and the refused streams have no state. -/
structure Inv (r : Refusing) : Prop where
  preface : r.con.preface = true
  up : r.con.shutdown = false
  error : r.con.error = none
  stateless : ∀ sid ∈ r.refused, r.con.Stateless sid

/-- What a step does that ends no connection. -/
theorem Inv.confined {r' : Refusing} {fh : FrameHeader} (h : r.Inv)
    (hFate : Connection.Fate r.con r'.con) (hUp : r'.con.shutdown = false)
    (hRefused : r'.refused = fh.stream :: r.refused)
    (hConfined : Connection.Confined {fh.stream} r.con r'.con)
    (hStateless : r'.con.Stateless fh.stream) : r'.Inv := by
  have hError : r'.con.error = none := by
    rcases hFate.outcome with ⟨-, hSame⟩ | ⟨-, hDown, -⟩
    · rw [hSame, h.error]
    · rw [hUp] at hDown
      cases hDown
  refine ⟨hFate.preface.trans h.preface, hUp, hError, fun sid hMem => ?_⟩
  by_cases hOwn : sid = fh.stream
  · rw [hOwn]
    exact hStateless
  · rw [hRefused, List.mem_cons] at hMem
    exact (h.stateless sid (hMem.resolve_left hOwn)).confined hConfined (by simpa using hOwn)

/-- One frame. -/
theorem Inv.step (h : r.Inv) {event : HashOrder × Octets} (hConcerns : r.Concerns event) :
    (r.Harmless event → (r.step event).Inv ∧
      ∀ sid ∉ (r.step event).refused, (r.step event).con.outline sid = r.con.outline sid) ∧
    (¬ r.Harmless event → (r.step event).con.error ≠ none) := by
  obtain ⟨ord, buf⟩ := event
  obtain ⟨fh, payload, hTurn, hNonzero, hType, hStream⟩ := hConcerns
  have hDecode : r.con.frameDecode ord buf = r.con.frameAdmit ord fh payload := by
    rcases Connection.frameDecode_inTurn hTurn ord with ⟨⟨code, hUnknown⟩, -⟩ | hAdmit
    · rw [hUnknown] at hType
      simp [FrameType.Ordinary] at hType
    · exact hAdmit
  have hFate : Connection.Fate r.con (r.step (ord, buf)).con :=
    Connection.fate_frameDecode ord r.con buf
  have hRefused : (r.step (ord, buf)).refused = fh.stream :: r.refused := by
    rw [Refusing.step, hTurn]
  have hCon : (r.step (ord, buf)).con = (r.con.frameAdmit ord fh payload).1 := by
    rw [Refusing.step, hDecode]
  -- a step that is confined to the stream and leaves it without a state
  have hDone (hUp : (r.step (ord, buf)).con.shutdown = false)
      (hConfined : Connection.Confined {fh.stream} r.con (r.step (ord, buf)).con)
      (hStateless : (r.step (ord, buf)).con.Stateless fh.stream) : (r.step (ord, buf)).Inv ∧
        ∀ sid ∉ (r.step (ord, buf)).refused,
          (r.step (ord, buf)).con.outline sid = r.con.outline sid := by
    refine ⟨h.confined hFate hUp hRefused hConfined hStateless, fun sid hNot => ?_⟩
    rw [hRefused, List.mem_cons, not_or] at hNot
    exact hConfined.others sid (by simpa using hNot.1)
  by_cases hOld : fh.stream ∈ r.refused
  · have hStateless := h.stateless fh.stream hOld
    have hReceive : (r.step (ord, buf)).con = (r.con.frameReceive ord fh payload).1 := by
      rw [hCon, Connection.frameAdmit, if_neg]
      rintro ⟨-, hNone⟩
      rw [Option.isNone_iff_eq_none] at hNone
      have hSome := hStateless.isSome
      rw [hNone] at hSome
      cases hSome
    have hUp := hStateless.frameReceive_up ord h.preface hType hNonzero payload
    rw [← hReceive] at hUp
    constructor
    · intro hHarmless
      have hWedges := hHarmless fh payload hTurn hOld
      have hEven := hStateless.frameReceive_even ord hType hWedges
      rw [← hReceive] at hEven
      exact hDone (hUp.mpr hWedges) hEven.confined (hStateless.even hEven)
    · intro hHarms hError
      refine hHarms fun fh' payload' hTurn' _ => ?_
      rw [hTurn] at hTurn'
      cases hTurn'
      refine hUp.mp ?_
      rcases hFate.outcome with ⟨hSame, -⟩ | ⟨-, -, hSome⟩
      · rw [hSame, h.up]
      · rw [hError] at hSome
        cases hSome
  · have hRefuses := hStream.resolve_left hOld
    obtain ⟨hStateless, hConfined, hDown⟩ :=
      Connection.frameAdmit_refuses ord h.preface hNonzero hRefuses payload
    rw [← hCon] at hStateless hConfined hDown
    refine ⟨fun _ => hDone (hDown.trans h.up) hConfined hStateless, fun hHarms => absurd ?_ hHarms⟩
    intro fh' payload' hTurn' hMem
    rw [hTurn] at hTurn'
    cases hTurn'
    exact absurd hMem hOld

end Refusing

/-- However many frames arrive for refused streams, they are ignored exactly as long as they are
header lists that are refused themselves. -/
theorem refused_streams_ignored {con : Connection} (hPreface : con.preface = true)
    (hUp : con.shutdown = false) (hError : con.error = none) (events : List (HashOrder × Octets))
    (hEvents : Meets Refusing.step Refusing.Concerns { con } events) :
    (∀ seen, seen <+: events → Refusing.Ignores con (runEvents Refusing.step { con } seen)) ↔
      Meets Refusing.step Refusing.Harmless { con } events := by
  refine Meets.iff_always_of_valid Refusing.Inv
    (fun r event h hConcerns hHarmless => ((h.step hConcerns).1 hHarmless).1)
    (fun r event h hConcerns hIgnores => ⟨fun hNext => ?_, fun hHarmless => ?_⟩) events
    ⟨hPreface, hUp, hError, fun sid hMem => absurd hMem List.not_mem_nil⟩
    ⟨hError, fun _ _ => rfl, fun _ _ => rfl, fun _ _ => rfl⟩ hEvents
  · by_contra hHarms
    exact (h.step hConcerns).2 hHarms hNext.error
  · obtain ⟨hInv, hOutline⟩ := (h.step hConcerns).1 hHarmless
    have hBefore {sid : Nat} (hNot : sid ∉ (r.step event).refused) : sid ∉ r.refused := by
      intro hMem
      obtain ⟨fh, payload, hTurn, -⟩ := hConcerns
      rw [Refusing.step, hTurn] at hNot
      exact hNot (List.mem_cons_of_mem _ hMem)
    have hSame {α : Type} {field : Stream → Option α} (hEmpty : field {} = none)
        (hField : ∀ s : Stream, field s.outline = field s) (sid : Nat)
        (hNot : sid ∉ (r.step event).refused) :
        (r.step event).con.get sid field = r.con.get sid field := by
      rw [Connection.get_eq_outline hEmpty hField, hOutline sid hNot,
        Connection.get_eq_outline hEmpty hField]
    exact ⟨hInv.error,
      fun sid hNot => (hSame rfl (fun _ => rfl) sid hNot).trans (hIgnores.state sid (hBefore hNot)),
      fun sid hNot => (hSame rfl (fun _ => rfl) sid hNot).trans (hIgnores.fcwSend sid (hBefore hNot)),
      fun sid hNot => (hSame rfl (fun _ => rfl) sid hNot).trans (hIgnores.fcwRecv sid (hBefore hNot))⟩

/-- A server that allows one stream, which is open. -/
def fullServer : Connection :=
  (runEvents Flow.proceed (Flow.begin .server (List.toAList [⟨Setting.maxConcurrentStreams, 1⟩]))
    [.recv .kept requestFrame]).con

/-- A request on stream 3. -/
def nextRequestFrame : Octets := [0, 0, 6, 1, 4, 0, 0, 0, 3, 0x82, 0x86, 0x84, 0x41, 0x01, 0x61]

/-- Trailers that are no request. -/
def trailersFrame : Octets := [0, 0, 1, 1, 5, 0, 0, 0, 3, 0x88]

theorem concerns_nextRequest :
    Refusing.Concerns { con := fullServer } (.kept, nextRequestFrame) :=
  ⟨⟨6, .headers, 4, 3⟩, [0x82, 0x86, 0x84, 0x41, 0x01, 0x61], by decide +kernel, by decide,
    .inr (.inl rfl), .inr (by unfold Connection.Refuses; decide +kernel)⟩

/-- Trailers for a stream that was refused are taken for another request, and refused. -/
theorem refused_streams_ignored_trailers :
    Refusing.Ignores fullServer (runEvents Refusing.step { con := fullServer }
      [(.kept, nextRequestFrame), (.kept, trailersFrame)]) := by
  refine (refused_streams_ignored (by decide +kernel) (by decide +kernel) (by decide +kernel)
    [(.kept, nextRequestFrame), (.kept, trailersFrame)] ⟨concerns_nextRequest,
      ⟨⟨1, .headers, 5, 3⟩, [0x88], by decide +kernel, by decide, .inr (.inl rfl),
        .inl (by decide +kernel)⟩, trivial⟩).mpr ⟨?_, ?_, trivial⟩ _ (List.prefix_refl _)
  · exact fun _ _ _ hMem => absurd hMem List.not_mem_nil
  · intro fh payload hTurn _
    rw [show Connection.inTurn _ _ = some (⟨1, .headers, 5, 3⟩, [0x88]) by decide +kernel] at hTurn
    cases hTurn
    refine (Connection.frameReceive_stuck_iff .kept (fun _ => by decide +kernel) _).mp ?_
    unfold Connection.Stuck
    decide +kernel

/-- Three octets of the body of the refused request. -/
def lateDataFrame : Octets := [0, 0, 3, 0, 1, 0, 0, 0, 3, 0x61, 0x62, 0x63]

/-- The body of a request that was refused ends the connection. -/
theorem refused_streams_raise :
    Meets Refusing.step Refusing.Concerns { con := fullServer }
        [(.kept, nextRequestFrame), (.kept, lateDataFrame)] ∧
      ¬ Refusing.Ignores fullServer (runEvents Refusing.step { con := fullServer }
        [(.kept, nextRequestFrame), (.kept, lateDataFrame)]) := by
  refine ⟨⟨concerns_nextRequest, ⟨⟨3, .data, 1, 3⟩, [0x61, 0x62, 0x63], by decide +kernel, by decide,
    .inl rfl, .inl (by decide +kernel)⟩, trivial⟩, fun hIgnores => ?_⟩
  have hError := hIgnores.error
  revert hError
  decide +kernel

end PageCamel.Http2

import PageCamel.Http2.ConnectionErrors
import PageCamel.Http2.FeedProgress
import PageCamel.Http2.SendSteps

/-!
Stream errors. They are meant to reset one stream and to leave the connection alone, but the frame
that caused the error may still go through the state machine, which then meets a stream that is
closed or that has no state, and raises an error of the connection.
-/

namespace PageCamel.Http2
open PageCamel.Lib Connection

/-- What the state machine goes by. -/
def Stream.mark (s : Stream) : Stream :=
  { state := s.state, promisedSid := s.promisedSid, pendingState := s.pendingState }

/-- What the state machine goes by, and the windows. -/
def Stream.outline (s : Stream) : Stream :=
  { state := s.state, promisedSid := s.promisedSid, pendingState := s.pendingState
    fcwSend := s.fcwSend, fcwRecv := s.fcwRecv }

namespace Connection

variable {con con' con'' : Connection} {own : Set Nat} {sid : Nat}

/-- The GOAWAY frames in the queue. -/
def goaways (con : Connection) : List Frame := con.queue.filter fun f => f.type = .goaway

/-- The state by which the state machine treats a frame for the stream. -/
def standing (con : Connection) (sid : Nat) : Option StreamState :=
  con.get ((con.get sid Stream.promisedSid).getD sid) Stream.state

/-- The outline of a stream; a stream that does not exist looks like an empty one. -/
def outline (con : Connection) (sid : Nat) : Stream := ((con.stream? sid).getD {}).outline

theorem get_eq_outline {α : Type} {field : Stream → Option α} (hEmpty : field {} = none)
    (hField : ∀ s : Stream, field s.outline = field s) (con : Connection) (sid : Nat) :
    con.get sid field = field (con.outline sid) := by
  rw [outline, hField, get]
  cases con.stream? sid with
  | none => exact hEmpty.symm
  | some s => rfl

theorem outline_congr (h : con'.stream? sid = con.stream? sid) : con'.outline sid = con.outline sid := by
  rw [outline, h, outline]

/-! ### Changes within some streams -/

/-- Unless an error ends the connection no GOAWAY is queued, and the states and windows of the
other streams are what they were. -/
structure Confined (own : Set Nat) (con con' : Connection) : Prop where
  down : con.shutdown = true → con'.shutdown = true
  goaways : con'.shutdown = con.shutdown → con'.goaways = con.goaways
  streams : ∀ sid, (con.stream? sid).isSome → (con'.stream? sid).isSome
  others : ∀ sid ∉ own, con'.outline sid = con.outline sid

theorem Confined.refl (own : Set Nat) (con : Connection) : Confined own con con :=
  ⟨id, fun _ => rfl, fun _ => id, fun _ _ => rfl⟩

theorem Confined.trans (h : Confined own con con') (h' : Confined own con' con'') :
    Confined own con con'' where
  down hDown := h'.down (h.down hDown)
  goaways hSame := by
    have hMid : con'.shutdown = con.shutdown := by
      cases hDown : con.shutdown with
      | true => exact h.down hDown
      | false =>
        rw [hDown] at hSame
        rw [← Bool.not_eq_true]
        intro hMid
        rw [h'.down hMid] at hSame
        cases hSame
    rw [h'.goaways (hSame.trans hMid.symm), h.goaways hMid]
  streams sid hSome := h'.streams sid (h.streams sid hSome)
  others sid hOther := (h'.others sid hOther).trans (h.others sid hOther)

/-- A field of another stream. -/
theorem Confined.get {α : Type} {field : Stream → Option α} (h : Confined own con con')
    (hEmpty : field {} = none) (hField : ∀ s : Stream, field s.outline = field s)
    (hOther : sid ∉ own) : con'.get sid field = con.get sid field := by
  rw [get_eq_outline hEmpty hField, h.others sid hOther, get_eq_outline hEmpty hField]

/-- Nothing changes that the state machine goes by, and of the windows those of some streams. -/
structure Even (own : Set Nat) (con con' : Connection) : Prop where
  type : con'.type = con.type
  preface : con'.preface = con.preface
  shutdown : con'.shutdown = con.shutdown
  goaways : con'.goaways = con.goaways
  mark : ∀ sid, (con'.stream? sid).map Stream.mark = (con.stream? sid).map Stream.mark
  others : ∀ sid ∉ own, con'.outline sid = con.outline sid

theorem Even.refl (own : Set Nat) (con : Connection) : Even own con con :=
  ⟨rfl, rfl, rfl, rfl, fun _ => rfl, fun _ _ => rfl⟩

theorem Even.trans (h : Even own con con') (h' : Even own con' con'') : Even own con con'' where
  type := h'.type.trans h.type
  preface := h'.preface.trans h.preface
  shutdown := h'.shutdown.trans h.shutdown
  goaways := h'.goaways.trans h.goaways
  mark sid := (h'.mark sid).trans (h.mark sid)
  others sid hOther := (h'.others sid hOther).trans (h.others sid hOther)

theorem Even.isSome (h : Even own con con') (sid : Nat) :
    (con'.stream? sid).isSome = (con.stream? sid).isSome := by
  simpa using congrArg Option.isSome (h.mark sid)

theorem Even.get {α : Type} {field : Stream → Option α} (h : Even own con con')
    (hField : ∀ s : Stream, field s.mark = field s) (sid : Nat) :
    con'.get sid field = con.get sid field := by
  have hMark (con : Connection) :
      con.get sid field = ((con.stream? sid).map Stream.mark).bind field := by
    cases hs : con.stream? sid <;> simp [Connection.get, hs, hField]
  rw [hMark, hMark, h.mark]

theorem Even.standing (h : Even own con con') (sid : Nat) : con'.standing sid = con.standing sid := by
  rw [Connection.standing, h.get (fun _ => rfl), h.get (fun _ => rfl), Connection.standing]

theorem Even.resetRaises (h : Even own con con') (sid : Nat) :
    con'.ResetRaises sid ↔ con.ResetRaises sid :=
  resetRaises_congr h.preface h.type (fun _ => h.get (fun _ => rfl) _) (h.get (fun _ => rfl) sid)
    (h.get (fun _ => rfl) sid)

theorem Even.confined (h : Even own con con') : Confined own con con' where
  down hDown := h.shutdown.trans hDown
  goaways _ := h.goaways
  streams sid hSome := (h.isSome sid).trans hSome
  others := h.others

/-- A change beside the streams. -/
theorem even_of_streams (hStreams : con'.streams = con.streams) (hType : con'.type = con.type)
    (hPreface : con'.preface = con.preface) (hShutdown : con'.shutdown = con.shutdown)
    (hGoaways : con'.goaways = con.goaways) : Even own con con' := by
  have hSame (sid : Nat) : con'.stream? sid = con.stream? sid := by
    rw [stream?, hStreams, stream?]
  exact ⟨hType, hPreface, hShutdown, hGoaways, fun sid => by rw [hSame],
    fun sid _ => outline_congr (hSame sid)⟩

theorem mark_modifyStream {f : Stream → Stream} (hMark : ∀ s, (f s).mark = s.mark)
    (con : Connection) (sid other : Nat) :
    ((con.modifyStream sid f).stream? other).map Stream.mark =
      (con.stream? other).map Stream.mark := by
  rw [stream?_modifyStream]
  split
  · subst other
    cases con.stream? sid <;> simp [hMark]
  · rfl

/-- A change of a stream that leaves its windows. -/
theorem even_modifyStream {f : Stream → Stream} (hOutline : ∀ s, (f s).outline = s.outline)
    (con : Connection) (sid : Nat) : Even own con (con.modifyStream sid f) := by
  have hMark (s : Stream) : (f s).mark = s.mark := by
    show (f s).outline.mark = s.outline.mark
    rw [hOutline]
  refine ⟨by simp, by simp, by simp, by simp [goaways], mark_modifyStream hMark con sid,
    fun other _ => ?_⟩
  rw [outline, stream?_modifyStream, outline]
  split
  · subst other
    cases con.stream? sid <;> simp [hOutline]
  · rfl

/-- A change of one of the streams that may move their windows. -/
theorem even_modifyStream_own {f : Stream → Stream} (hMark : ∀ s, (f s).mark = s.mark)
    (con : Connection) (hOwn : sid ∈ own) : Even own con (con.modifyStream sid f) := by
  refine ⟨by simp, by simp, by simp, by simp [goaways], mark_modifyStream hMark con sid,
    fun other hNot => outline_congr ?_⟩
  rw [stream?_modifyStream, if_neg]
  rintro rfl
  exact hNot hOwn

theorem even_push (own : Set Nat) (con : Connection) {frame : Frame} (hType : frame.type ≠ .goaway) :
    Even own con (con.push frame) := by
  refine even_of_streams rfl rfl rfl rfl ?_
  rw [goaways, push, List.filter_append]
  simp [hType, goaways]

theorem even_addFcwRecv (own : Set Nat) (con : Connection) (delta : Int) :
    Even own con (con.addFcwRecv delta) := even_of_streams rfl rfl rfl rfl rfl

theorem even_addStreamFcwRecv (hOwn : sid ∈ own) (con : Connection) (delta : Int) :
    Even own con (con.addStreamFcwRecv sid delta) :=
  even_modifyStream_own (f := fun s => { s with fcwRecv := some (s.fcwRecv.getD 0 + delta) })
    (fun _ => rfl) con hOwn

theorem even_addStreamFcwSend (hOwn : sid ∈ own) (con : Connection) (delta : Int) :
    Even own con (con.addStreamFcwSend sid delta) :=
  even_modifyStream_own (f := shift delta) (fun _ => rfl) con hOwn

theorem even_setDecodeCtx (own : Set Nat) (con : Connection) (decodeCtx : DecodeContext) :
    Even own con (con.setDecodeCtx decodeCtx) := even_of_streams rfl rfl rfl rfl rfl

theorem even_setHeaderBlock (own : Set Nat) (con : Connection) (sid : Nat) (block : Octets) :
    Even own con (con.setHeaderBlock sid block) :=
  even_modifyStream (f := Stream.setHeaderBlock block) (fun _ => rfl) con sid

theorem even_announce (own : Set Nat) (con : Connection) (sid : Nat) (c : Validation) :
    Even own con (con.announce sid c) :=
  even_modifyStream (f := Stream.announce c) (fun _ => rfl) con sid

theorem even_setReset (own : Set Nat) (con : Connection) (sid code : Nat) :
    Even own con (con.modifyStream sid (Stream.setReset code)) :=
  even_modifyStream (f := Stream.setReset code) (fun _ => rfl) con sid

theorem reorders_even (own : Set Nat) : Reorders (Even own) where
  refl := .refl own
  trans := .trans
  setWeight con sid weight :=
    even_modifyStream (f := fun s => { s with weight := some weight }) (fun _ => rfl) con sid
  setStreamDep con sid dep :=
    even_modifyStream (f := fun s => { s with streamDep := some dep }) (fun _ => rfl) con sid

theorem even_headersPriority (own : Set Nat) (con : Connection) (fh : FrameHeader) (buf : Octets) :
    Even own con (con.headersPriority fh buf).1 := (reorders_even own).headersPriority con fh buf

theorem even_fcwUpdate (own : Set Nat) (con : Connection) : Even own con con.fcwUpdate := by
  have hPushed : Even own (con.addFcwRecv (con.decSetting Setting.initialWindowSize)) con.fcwUpdate :=
    even_push own _ (show FrameType.windowUpdate ≠ .goaway by decide)
  exact (even_addFcwRecv own con _).trans hPushed

/-- With the last DATA frame the window of the stream is not refilled. -/
theorem even_refillWindows (own : Set Nat) (con : Connection) (sid : Nat) :
    Even own con (con.refillWindows sid true) := by
  rw [refillWindows]
  simp only [Bool.not_true, Bool.false_eq_true, and_false, if_false]
  split
  · exact even_fcwUpdate own con
  · exact .refl own con

theorem even_streamData (own : Set Nat) (con : Connection) (sid : Nat) (data : Octets) :
    Even own con (con.streamData sid data) := by
  rw [streamData]
  cases hs : con.stream? sid with
  | none => exact .refl own con
  | some s =>
    dsimp only
    split
    · exact even_of_streams rfl rfl rfl rfl rfl
    · rw [← modifyStream_of_some hs fun s => { s with data := some (s.data.getD [] ++ data) }]
      exact even_modifyStream (f := fun s => { s with data := some (s.data.getD [] ++ data) })
        (fun _ => rfl) con sid

/-! ### The state machine -/

theorem confined_stateMachine {type : FrameType} (hType : type.Plain) (hOwn : sid ∈ own)
    (con : Connection) (act : Act) (flags : UInt8) :
    Confined own con (con.stateMachine act type flags sid) := by
  have hQuiet := quiet_stateMachine con act type flags sid
  refine ⟨hQuiet.shutdown, fun hSame => ?_, hQuiet.streams, fun other hNot => ?_⟩
  · rw [goaways, queue_stateMachine hSame, goaways]
  · have hNe : other ≠ sid := by
      rintro rfl
      exact hNot hOwn
    obtain ⟨made, hSame | hMade⟩ := stream?_stateMachine_of_ne con hType hNe act flags
    · exact outline_congr hSame
    · rw [outline, hMade, outline]
      by_cases hOn : other = made
      · subst hOn
        cases hs : con.stream? other <;> simp [vivify, hs]
      · rw [vivify]
        split
        · rfl
        · rw [stream?_setStream_of_ne _ _ hOn]

/-- What precedes the state machine when a stream is reset. -/
theorem even_resetFrame (own : Set Nat) (con : Connection) (sid : Nat) (code : ErrorCode) :
    Even own con ((con.modifyStream sid (Stream.setReset code.code)).push
      ⟨.rstStream, 0, sid, pack32 code.code⟩) :=
  (even_setReset own con sid code.code).trans
    (even_push own _ (show FrameType.rstStream ≠ .goaway by decide))

theorem streamError_eq (con : Connection) (sid : Nat) (code : ErrorCode) : con.streamError sid code =
    ((con.modifyStream sid (Stream.setReset code.code)).push
      ⟨.rstStream, 0, sid, pack32 code.code⟩).stateMachine .send .rstStream 0 sid := rfl

theorem confined_streamError (hOwn : sid ∈ own) (con : Connection) (code : ErrorCode) :
    Confined own con (con.streamError sid code) := by
  rw [streamError_eq]
  exact (even_resetFrame own con sid code).confined.trans
    (confined_stateMachine plain_rstStream hOwn ..)

/-- The stream is closed and nothing on it is pending. -/
def Shut (con : Connection) (sid : Nat) : Prop :=
  con.standing sid = some .closed ∧ con.get sid Stream.pendingState = none

theorem shut_setState (hSome : (con.stream? sid).isSome) : (con.setState sid .closed).Shut sid := by
  obtain ⟨s, hs⟩ := Option.isSome_iff_exists.mp hSome
  have hCleaned : (con.setState sid .closed).stream? sid =
      some (Stream.cleaned { s with state := some .closed }) := by
    simp [setState, hs]
  rw [Shut, standing, get_of_some hCleaned, get_of_some hCleaned, Stream.cleaned]
  exact ⟨get_of_some hCleaned _, rfl⟩

/-- Sending RST_STREAM closes a stream that has a state, unless it raises an error. -/
theorem shut_stateMachine_reset (hSome : (con.stream? sid).isSome) (hNonzero : sid ≠ 0)
    (hPreface : con.preface = true) (hState : (con.standing sid).isSome)
    (hRaises : ¬ con.ResetRaises sid) :
    (con.stateMachine .send .rstStream 0 sid).Shut sid := by
  obtain ⟨s, hs⟩ := Option.isSome_iff_exists.mp hSome
  obtain ⟨state, hState⟩ := Option.isSome_iff_exists.mp hState
  rw [ResetRaises] at hRaises
  rw [standing] at hState
  have hNoFlag : hasFlag 0 Flag.endStream = false := by decide
  have hPending : con.get sid Stream.pendingState = none := by
    by_contra hWaits
    refine hRaises ⟨hNonzero, hPreface, by rw [hState]; rfl, .inl ?_⟩
    exact Option.isSome_iff_ne_none.mpr hWaits
  have hMade := stream?_vivify hs ((con.get sid Stream.promisedSid).getD sid)
  have hType : (con.vivify ((con.get sid Stream.promisedSid).getD sid)).type = con.type :=
    type_vivify con _
  have hStays : (con.vivify ((con.get sid Stream.promisedSid).getD sid)).standing sid = some state := by
    rw [standing, get_vivify rfl, get_vivify rfl, hState]
  have hIdle : (con.vivify ((con.get sid Stream.promisedSid).getD sid)).get sid
      Stream.pendingState = none := (get_vivify rfl con _ sid).trans hPending
  have hShut := shut_setState (Option.isSome_iff_exists.mpr ⟨s, hMade⟩)
  unfold stateMachine
  rw [if_neg (by simp [hNonzero, hPreface])]
  dsimp only
  rw [get_vivify rfl, hState]
  generalize con.vivify _ = made at hStays hIdle hShut hType ⊢
  simp only [hIdle, reduceCtorEq, false_and, if_false]
  cases state with
  | closed =>
    have hServer : con.type = .server := by
      cases hType : con.type with
      | server => rfl
      | client =>
        refine absurd ⟨hNonzero, hPreface, by rw [hState]; rfl, .inr ⟨hState, hType⟩⟩ hRaises
    simp only [stateStep, hType, hServer]
    exact ⟨hStays, hIdle⟩
  | _ =>
    simp only [stateStep, hNoFlag]
    exact hShut

/-- A stream without a state stays as it is when it is reset. -/
theorem standing_stateMachine_reset (hState : con.standing sid = none) (flags : UInt8) :
    (con.stateMachine .send .rstStream flags sid).standing sid = none := by
  have hStays : (con.vivify ((con.get sid Stream.promisedSid).getD sid)).standing sid = none := by
    rw [standing, get_vivify rfl, get_vivify rfl]
    exact hState
  unfold stateMachine
  split
  · exact hState
  · dsimp only
    rw [get_vivify rfl, if_pos ⟨hState, rfl, rfl⟩]
    exact hStays

/-- A frame that arrives for a stream without a state is an error of the connection. -/
theorem shutdown_recv_stateless {type : FrameType} (hNonzero : sid ≠ 0)
    (hPreface : con.preface = true) (hType : ¬ (type = .settings ∨ type = .goaway))
    (hState : con.standing sid = none)
    (hPending : type = .continuation → con.get sid Stream.pendingState = none) (flags : UInt8) :
    (con.stateMachine .recv type flags sid).shutdown = true := by
  rw [standing] at hState
  unfold stateMachine
  rw [if_neg (by simpa [hNonzero, hPreface] using hType)]
  dsimp only
  rw [get_vivify rfl, hState, get_vivify rfl, if_neg (by simp)]
  cases hWaits : con.get sid Stream.pendingState with
  | none =>
    dsimp only
    split
    · exact shutdown_setError ..
    · exact shutdown_setError ..
  | some ps =>
    have hOther : type ≠ .continuation := by
      intro hContinuation
      rw [hPending hContinuation] at hWaits
      cases hWaits
    dsimp only
    rw [if_pos hOther]
    exact shutdown_setError ..

/-- On a closed stream a server takes WINDOW_UPDATE but no DATA, and a client both. -/
theorem shutdown_recv_shut {type : FrameType} (hType : type = .data ∨ type = .windowUpdate)
    (hNonzero : sid ≠ 0) (hPreface : con.preface = true) (hShut : con.Shut sid) (flags : UInt8) :
    (con.stateMachine .recv type flags sid).shutdown = true ↔
      con.shutdown = true ∨ type = .data ∧ con.type = .server := by
  have hDown := shutdown_vivify con ((con.get sid Stream.promisedSid).getD sid)
  have hSide := type_vivify con ((con.get sid Stream.promisedSid).getD sid)
  obtain ⟨hState, hPending⟩ := hShut
  rw [standing] at hState
  unfold stateMachine
  rw [if_neg (by rcases hType with rfl | rfl <;> simp [hNonzero, hPreface])]
  dsimp only
  rw [get_vivify rfl, hState, get_vivify rfl, hPending]
  generalize con.vivify _ = made at hDown hSide ⊢
  rw [← hDown, ← hSide]
  rcases hType with rfl | rfl
  · cases hServer : made.type <;> simp [stateStep, hServer]
  · simp [stateStep]

/-! ### Violations -/

/-- The windows once a DATA frame is counted. -/
def received (con : Connection) (fh : FrameHeader) : Connection :=
  (con.addFcwRecv (-fh.length)).addStreamFcwRecv fh.stream (-fh.length)

/-- A DATA frame is larger than a window. -/
def Overflows (con : Connection) (fh : FrameHeader) : Prop :=
  (con.received fh).fcwRecv < 0 ∨
    ((con.received fh).get fh.stream Stream.fcwRecv).getD 0 < 0

/-- The connection once the last data of a stream is collected. -/
def collected (con : Connection) (fh : FrameHeader) (buf : Octets) : Connection :=
  ((con.received fh).refillWindows fh.stream true).streamData fh.stream
    ((buf.drop (padOffset fh)).take (fh.length - padOffset fh - padSize fh buf))

/-- The last DATA frame of a stream brings its data to another length than announced. -/
def Mismatches (con : Connection) (fh : FrameHeader) (buf : Octets) : Prop :=
  ¬ con.Overflows fh ∧ hasFlag fh.flags Flag.endStream = true ∧
    fh.length - padOffset fh - padSize fh buf ≠ 0 ∧
    ∃ slen data, (con.collected fh buf).get fh.stream Stream.length = some slen ∧
      (con.collected fh buf).get fh.stream Stream.data = some data ∧
      numericValue slen ≠ data.length

/-- A frame opens the send window of its stream too far. -/
def Overgrants (con : Connection) (fh : FrameHeader) (buf : Octets) : Prop :=
  fh.length = 4 ∧ unpack32 buf &&& 0x7FFFFFFF ≠ 0 ∧ (con.stream? fh.stream).isSome ∧
    ((con.addStreamFcwSend fh.stream (unpack32 buf &&& 0x7FFFFFFF : Nat)).get fh.stream
      Stream.fcwSend).getD 0 > maxFcwSize

/-- The frame ends a header block with a list that is refused. -/
def RefusedBlock (con : Connection) (fh : FrameHeader) (block : Octets) : Prop :=
  hasFlag fh.flags Flag.endHeaders = true ∧ con.refusesBlock fh.stream block = true

/-- What the decoders treat as an error of the stream of a frame. -/
def StreamViolation (con : Connection) (fh : FrameHeader) (buf : Octets) : Prop :=
  fh.stream ≠ 0 ∧
    match fh.type with
    | .data => padOffset fh + padSize fh buf ≤ fh.length ∧ (con.Overflows fh ∨ con.Mismatches fh buf)
    | .windowUpdate => con.Overgrants fh buf
    | .headers =>
        (con.headersPriority fh buf).2 = true ∧ headersOffset fh + padSize fh buf ≤ fh.length ∧
          con.RefusedBlock fh (headersBlock fh buf)
    | .continuation => con.RefusedBlock fh (buf.take fh.length)
    | .pushPromise =>
        con.decSetting Setting.enablePush ≠ 0 ∧ promiseOffset fh + padSize fh buf ≤ fh.length ∧
          con.badPeerStream (promisedId fh buf) = false ∧ con.peerStreamsFull = false ∧
          (con.promise fh buf).RefusedBlock fh (promiseBlock fh buf)
    | _ => False

/-- The reset raises no error, and the frame is taken on the stream that was reset: by a client, or
because it is no DATA frame. -/
def Spared (con : Connection) (fh : FrameHeader) (buf : Octets) : Prop :=
  match fh.type with
  | .data =>
      con.type = .client ∧ (con.standing fh.stream).isSome ∧ ¬ con.ResetRaises fh.stream
  | .windowUpdate => (con.standing fh.stream).isSome ∧ ¬ con.ResetRaises fh.stream
  | .pushPromise => ¬ (con.promise fh buf).ResetRaises fh.stream
  | _ => ¬ con.ResetRaises fh.stream

/-- The streams a frame is about. -/
def about (fh : FrameHeader) (buf : Octets) : Set Nat :=
  fun sid => sid = fh.stream ∨ fh.type = .pushPromise ∧ sid = promisedId fh buf

theorem even_received (con : Connection) {fh : FrameHeader} (hOwn : fh.stream ∈ own) :
    Even own con (con.received fh) :=
  (even_addFcwRecv own con _).trans (even_addStreamFcwRecv hOwn _ _)

theorem even_collected (con : Connection) {fh : FrameHeader} (hOwn : fh.stream ∈ own)
    (buf : Octets) : Even own con (con.collected fh buf) :=
  ((even_received con hOwn).trans (even_refillWindows own _ _)).trans (even_streamData own _ _ _)

/-- DATA that violates a limit resets its stream. -/
theorem dataDecode_violation {fh : FrameHeader} {buf : Octets} (hNonzero : fh.stream ≠ 0)
    (hFits : padOffset fh + padSize fh buf ≤ fh.length)
    (hViolates : con.Overflows fh ∨ con.Mismatches fh buf) (hOwn : fh.stream ∈ own) :
    ∃ con' code, Even own con con' ∧
      con.dataDecode fh buf = (con'.streamError fh.stream code, some fh.length) := by
  rw [dataDecode, if_neg hNonzero]
  dsimp only
  rw [if_neg (Nat.not_lt.mpr hFits)]
  rcases hViolates with hOver | ⟨hWithin, hEnd, hSome, slen, data, hLength, hData, hWrong⟩
  · exact ⟨_, .flowControlError, even_received con hOwn, if_pos hOver⟩
  · refine ⟨_, .protocolError, even_collected con hOwn buf, ?_⟩
    have hCheck : (con.collected fh buf).checkContentLength fh.stream =
        (con.collected fh buf).streamError fh.stream .protocolError := by
      rw [checkContentLength, hLength, hData]
      exact if_pos hWrong
    rw [Overflows, received] at hWithin
    rw [← hCheck, if_neg hWithin, hEnd, if_neg hSome]
    rfl

theorem windowUpdateDecode_violation (ord : HashOrder) {fh : FrameHeader} {buf : Octets}
    (hNonzero : fh.stream ≠ 0) (hViolates : con.Overgrants fh buf) (hOwn : fh.stream ∈ own) :
    ∃ con' code, Even own con con' ∧
      con.windowUpdateDecode ord fh buf = (con'.streamError fh.stream code, some fh.length) := by
  obtain ⟨hLength, hSome, hStream, hLarge⟩ := hViolates
  obtain ⟨s, hs⟩ := Option.isSome_iff_exists.mp hStream
  refine ⟨con.addStreamFcwSend fh.stream (unpack32 buf &&& 0x7FFFFFFF : Nat), .flowControlError,
    even_addStreamFcwSend hOwn con _, ?_⟩
  rw [windowUpdateDecode]
  simp only [hLength, hSome, hNonzero, hs, ne_eq, not_true_eq_false, if_false]
  rw [if_pos hLarge]

/-- The reset, and the frame after it. -/
theorem shutdown_reset_recv {type : FrameType} (hType : type = .data ∨ type = .windowUpdate)
    (hEven : Even own con con') (hSome : (con.stream? sid).isSome) (hNonzero : sid ≠ 0)
    (hPreface : con.preface = true) (code : ErrorCode) (flags : UInt8) :
    ((con'.streamError sid code).stateMachine .recv type flags sid).shutdown = true ↔
      con.shutdown = true ∨ ¬ ((con.standing sid).isSome ∧ ¬ con.ResetRaises sid ∧
        (type = .data → con.type = .client)) := by
  have hFrame := hEven.trans (even_resetFrame own con' sid code)
  have hError := shutdown_streamError con' sid code
  rw [hEven.shutdown, hEven.resetRaises] at hError
  have hQuiet := quiet_stateMachine ((con'.modifyStream sid (Stream.setReset code.code)).push
    ⟨.rstStream, 0, sid, pack32 code.code⟩) .send .rstStream 0 sid
  have hPreface' : (con'.streamError sid code).preface = true :=
    (hQuiet.preface.trans hFrame.preface).trans hPreface
  have hSide : (con'.streamError sid code).type = con.type := hQuiet.type.trans hFrame.type
  have hDown := (quiet_stateMachine (con'.streamError sid code) .recv type flags sid).shutdown
  by_cases hRaises : con.ResetRaises sid
  · simp [hDown (hError.mpr (.inr hRaises)), hRaises]
  · cases hState : con.standing sid with
    | none =>
      have hStateless : (con'.streamError sid code).standing sid = none := by
        rw [streamError_eq]
        exact standing_stateMachine_reset ((hFrame.standing sid).trans hState) 0
      have hFields : ¬ (type = .settings ∨ type = .goaway) := by
        rcases hType with rfl | rfl <;> simp
      have hRecv := shutdown_recv_stateless hNonzero hPreface' hFields hStateless
        (by rcases hType with rfl | rfl <;> simp) flags
      simp [hRecv]
    | some state =>
      have hShut : (con'.streamError sid code).Shut sid := by
        rw [streamError_eq]
        refine shut_stateMachine_reset ((hFrame.isSome sid).trans hSome) hNonzero
          (hFrame.preface.trans hPreface) ?_ ?_
        · rw [hFrame.standing, hState]
          rfl
        · rw [hFrame.resetRaises]
          exact hRaises
      rw [shutdown_recv_shut hType hNonzero hPreface' hShut, hError, hSide]
      cases hClient : con.type <;> simp [hRaises]

/-- A refused list resets its stream. -/
theorem headersDecoded_refused (hRefuses : con.refusesList sid = true) :
    ∃ con' code, Even own con con' ∧ con.headersDecoded sid = (con'.streamError sid code, false) := by
  rw [refusesList, Bool.not_eq_true'] at hRefuses
  refine ⟨con.announce sid (con.validation con.decodeCtx.emittedHeaders sid (con.isResponse sid)),
    .protocolError, even_announce own con sid _, ?_⟩
  simp [headersDecoded, validateHeaders, hRefuses]

theorem blockDecode_violation {fh : FrameHeader} {block : Octets}
    (hSome : (con.stream? fh.stream).isSome) (hRefused : con.RefusedBlock fh block) :
    ∃ con' code, Even own con con' ∧
      con.blockDecode fh block = (con'.streamError fh.stream code, none) := by
  obtain ⟨hEnd, hRefuses⟩ := hRefused
  obtain ⟨s, hs⟩ := Option.isSome_iff_exists.mp hSome
  obtain ⟨hSet, hCtx⟩ := setHeaderBlock_self hs block
  have hStored := even_setHeaderBlock own con fh.stream block
  have hList : ∀ decodeCtx, ((con.setHeaderBlock fh.stream block).setDecodeCtx decodeCtx).refusesList
      fh.stream = (con.setDecodeCtx decodeCtx).refusesList fh.stream := fun decodeCtx =>
    refusesList_congr (by simp [setHeaderBlock, setDecodeCtx]) rfl
      (get_setHeaderBlock (fun _ _ => rfl) con ..) (get_setHeaderBlock (fun _ _ => rfl) con ..)
  have hBlock : (s.setHeaderBlock block).headerBlock.getD [] = block := rfl
  rw [refusesBlock] at hRefuses
  rw [blockDecode]
  simp only [hEnd, if_true, streamHeadersDone, hSet, hBlock, decodeBlock, hCtx]
  generalize con.setHeaderBlock fh.stream block = stored at hStored hList ⊢
  rcases hResult : headersDecode con.decodeCtx block with ⟨decodeCtx, result⟩
  rw [hResult] at hRefuses
  have hDecoded := hStored.trans (even_setDecodeCtx own stored decodeCtx)
  cases result with
  | conError code => cases hRefuses
  | streamError code => exact ⟨_, code, hDecoded, rfl⟩
  | done =>
    have hList' := (hList decodeCtx).trans hRefuses
    rw [← refusesList_setHeaderBlock _ _ []] at hList'
    obtain ⟨con', code, hEven, hEq⟩ := headersDecoded_refused hList'
    refine ⟨con', code, (hDecoded.trans (even_setHeaderBlock own _ fh.stream [])).trans hEven, ?_⟩
    dsimp only
    rw [hEq]

theorem headersFrameDecode_violation {fh : FrameHeader} {buf : Octets} (hNonzero : fh.stream ≠ 0)
    (hSome : (con.stream? fh.stream).isSome) (hPriority : (con.headersPriority fh buf).2 = true)
    (hFits : headersOffset fh + padSize fh buf ≤ fh.length)
    (hRefused : con.RefusedBlock fh (headersBlock fh buf)) :
    ∃ con' code, Even own con con' ∧
      con.headersFrameDecode fh buf = (con'.streamError fh.stream code, none) := by
  have hAlike := alike_headersPriority con fh buf
  have hEven := even_headersPriority own con fh buf
  rw [headersFrameDecode, if_neg hNonzero]
  generalize con.headersPriority fh buf = result at hAlike hEven hPriority ⊢
  obtain ⟨con', ok⟩ := result
  cases hPriority
  dsimp only
  rw [if_neg (Nat.not_lt.mpr hFits)]
  have hRefused' : con'.RefusedBlock fh (headersBlock fh buf) :=
    ⟨hRefused.1, (refusesBlock_congr hAlike _).trans hRefused.2⟩
  obtain ⟨con'', code, hBlock, hEq⟩ :=
    blockDecode_violation ((hEven.isSome _).trans hSome) hRefused'
  exact ⟨con'', code, hEven.trans hBlock, hEq⟩

theorem confined_admitted (con : Connection) (hOwn : sid ∈ own) : Confined own con (con.admitted sid) := by
  refine ⟨id, fun _ => rfl, fun other hSome => (stream?_admitted con sid other).mpr (.inr hSome),
    fun other hNot => outline_congr ?_⟩
  have hNe : other ≠ sid := by
    rintro rfl
    exact hNot hOwn
  show (con.setStream _ _).stream? other = _
  rw [stream?_setStream, if_neg hNe]

/-- A promise adds one stream and marks the one it came on. -/
theorem confined_promise (con : Connection) (fh : FrameHeader) (buf : Octets)
    (hPromised : promisedId fh buf ∈ own) (hOwn : fh.stream ∈ own) :
    Confined own con (con.promise fh buf) := by
  refine (confined_admitted con hPromised).trans ⟨fun hDown => ?_, fun _ => ?_, fun sid hSome => ?_,
    fun sid hNot => outline_congr ?_⟩
  · rw [promise, setPromised, shutdown_modifyStream]
    exact hDown
  · rw [goaways, promise, setPromised, queue_modifyStream]
    rfl
  · rw [promise, setPromised, isSome_stream?_modifyStream]
    exact hSome
  · rw [promise, setPromised, stream?_modifyStream, if_neg]
    rintro rfl
    exact hNot hOwn

theorem shutdown_promise (con : Connection) (fh : FrameHeader) (buf : Octets) :
    (con.promise fh buf).shutdown = con.shutdown := by
  rw [promise, setPromised, shutdown_modifyStream]
  rfl

theorem pushPromiseDecode_violation {fh : FrameHeader} {buf : Octets} (hNonzero : fh.stream ≠ 0)
    (hSome : (con.stream? fh.stream).isSome) (hPush : con.decSetting Setting.enablePush ≠ 0)
    (hFits : promiseOffset fh + padSize fh buf ≤ fh.length)
    (hGood : con.badPeerStream (promisedId fh buf) = false) (hFree : con.peerStreamsFull = false)
    (hRefused : (con.promise fh buf).RefusedBlock fh (promiseBlock fh buf)) :
    ∃ con' code, Even own (con.promise fh buf) con' ∧
      con.pushPromiseDecode fh buf = (con'.streamError fh.stream code, none) := by
  have hStream : ((con.promise fh buf).stream? fh.stream).isSome := by
    rw [promise, setPromised, isSome_stream?_modifyStream, stream?_admitted]
    exact .inr hSome
  obtain ⟨con', code, hEven, hEq⟩ := blockDecode_violation hStream hRefused
  refine ⟨con', code, hEven, ?_⟩
  rw [pushPromiseDecode, if_neg (not_or.mpr ⟨hNonzero, hPush⟩), if_neg (Nat.not_lt.mpr hFits),
    newPeerStream, hGood, hFree]
  exact hEq

/-- A frame that violates a limit of its stream touches that stream, and ends the connection
unless it is spared. -/
theorem frameReceive_violation (ord : HashOrder) {fh : FrameHeader} {buf : Octets}
    (hPreface : con.preface = true) (hSome : (con.stream? fh.stream).isSome)
    (hViolates : con.StreamViolation fh buf) :
    Confined (about fh buf) con (con.frameReceive ord fh buf).1 ∧
      ((con.frameReceive ord fh buf).1.shutdown = true ↔
        con.shutdown = true ∨ ¬ con.Spared fh buf) := by
  have hOwn : fh.stream ∈ about fh buf := .inl rfl
  -- a reset is the end of it
  have hReset {con₀ con' : Connection} (hEven : Even (about fh buf) con₀ con') (code : ErrorCode) :
      Confined (about fh buf) con₀ (con'.streamError fh.stream code) ∧
        ((con'.streamError fh.stream code).shutdown = true ↔
          con₀.shutdown = true ∨ ¬ ¬ con₀.ResetRaises fh.stream) := by
    refine ⟨hEven.confined.trans (confined_streamError hOwn con' code), ?_⟩
    rw [shutdown_streamError, hEven.shutdown, hEven.resetRaises, not_not]
  -- a reset is followed by the state machine
  have hRecv {type : FrameType} (hType : type = .data ∨ type = .windowUpdate) {con' : Connection}
      (hEven : Even (about fh buf) con con') (code : ErrorCode) :
      Confined (about fh buf) con
        ((con'.streamError fh.stream code).stateMachine .recv type fh.flags fh.stream) := by
    refine (hReset hEven code).1.trans (confined_stateMachine ?_ hOwn ..)
    rcases hType with rfl | rfl
    · exact plain_data
    · exact plain_windowUpdate
  obtain ⟨hNonzero, hKind⟩ := hViolates
  rw [frameReceive, payloadDecode, Spared]
  cases hType : fh.type with
  | data =>
    rw [hType] at hKind
    obtain ⟨con', code, hEven, hEq⟩ := dataDecode_violation hNonzero hKind.1 hKind.2 hOwn
    dsimp only
    rw [hEq]
    refine ⟨hRecv (.inl rfl) hEven code, ?_⟩
    refine (shutdown_reset_recv (.inl rfl) hEven hSome hNonzero hPreface code fh.flags).trans ?_
    simp only [true_implies]
    tauto
  | windowUpdate =>
    rw [hType] at hKind
    obtain ⟨con', code, hEven, hEq⟩ := windowUpdateDecode_violation ord hNonzero hKind hOwn
    dsimp only
    rw [hEq]
    refine ⟨hRecv (.inr rfl) hEven code, ?_⟩
    refine (shutdown_reset_recv (.inr rfl) hEven hSome hNonzero hPreface code fh.flags).trans ?_
    simp
  | headers =>
    rw [hType] at hKind
    obtain ⟨con', code, hEven, hEq⟩ :=
      headersFrameDecode_violation hNonzero hSome hKind.1 hKind.2.1 hKind.2.2
    dsimp only
    rw [hEq]
    exact hReset hEven code
  | continuation =>
    rw [hType] at hKind
    obtain ⟨con', code, hEven, hEq⟩ := blockDecode_violation hSome hKind
    dsimp only
    rw [continuationDecode, if_neg hNonzero, hEq]
    exact hReset hEven code
  | pushPromise =>
    rw [hType] at hKind
    obtain ⟨hPush, hFits, hGood, hFree, hRefused⟩ := hKind
    obtain ⟨con', code, hEven, hEq⟩ :=
      pushPromiseDecode_violation hNonzero hSome hPush hFits hGood hFree hRefused
    obtain ⟨hConfined, hDown⟩ := hReset hEven code
    dsimp only
    rw [hEq]
    rw [shutdown_promise] at hDown
    exact ⟨(confined_promise con fh buf (.inr ⟨hType, rfl⟩) hOwn).trans hConfined, hDown⟩
  | priority | rstStream | settings | ping | goaway | unknown =>
    rw [hType] at hKind
    exact hKind.elim

/-! ### Received frames -/

/-- The connection a frame meets: its stream is there, which its first frame opens. -/
def met (con : Connection) (fh : FrameHeader) : Connection :=
  if fh.stream ≠ 0 ∧ (con.stream? fh.stream).isNone then con.admitted fh.stream else con

/-- The frame is let in, and its decoder takes it for an error of its stream. -/
def Violates (con : Connection) (fh : FrameHeader) (buf : Octets) : Prop :=
  ((con.stream? fh.stream).isNone →
      con.badPeerStream fh.stream = false ∧ con.peerStreamsFull = false) ∧
    (con.met fh).StreamViolation fh buf

/-- No error of the connection is raised, no GOAWAY queued, and the states of the other streams
are unchanged. -/
structure Contained (own : Set Nat) (con con' : Connection) : Prop where
  error : con'.error = con.error
  goaways : con'.goaways = con.goaways
  state : ∀ sid ∉ own, con'.get sid Stream.state = con.get sid Stream.state

/-- A connection with an error is shut down. -/
structure Running (con : Connection) : Prop where
  preface : con.preface = true
  error : con.shutdown = false → con.error = none

theorem Running.fate (h : con.Running) (hFate : Fate con con') : con'.Running := by
  refine ⟨hFate.preface.trans h.preface, fun hUp => ?_⟩
  rcases hFate.outcome with ⟨hDown, hError⟩ | ⟨-, hDown, -⟩
  · rw [hError, h.error (hDown ▸ hUp)]
  · rw [hDown] at hUp
    cases hUp

/-- An error is contained exactly when it does not shut the connection down. -/
theorem Running.contained_iff (h : con.Running) (hFate : Fate con con')
    (hConfined : Confined own con con') :
    Contained own con con' ↔ con.shutdown = true ∨ con'.shutdown = false := by
  constructor
  · intro hContained
    rcases hFate.outcome with ⟨hDown, -⟩ | ⟨hUp, -, hError⟩
    · rw [hDown]
      exact (Bool.eq_false_or_eq_true con.shutdown)
    · rw [hContained.error, h.error hUp] at hError
      cases hError
  · intro hDown
    have hSame : con'.shutdown = con.shutdown := by
      rcases hDown with hDown | hUp
      · rw [hDown, hConfined.down hDown]
      · rw [hUp, eq_comm, ← Bool.not_eq_true]
        intro hDown
        rw [hConfined.down hDown] at hUp
        cases hUp
    refine ⟨?_, hConfined.goaways hSame, fun sid hOther =>
      hConfined.get rfl (fun _ => rfl) hOther⟩
    rcases hFate.outcome with ⟨-, hError⟩ | ⟨hUp, hDown, -⟩
    · exact hError
    · rw [hSame, hUp] at hDown
      cases hDown

theorem Violates.nonzero {fh : FrameHeader} {buf : Octets} (h : con.Violates fh buf) :
    fh.stream ≠ 0 := h.2.1

/-- A frame that is let in. -/
theorem frameAdmit_violates (ord : HashOrder) {fh : FrameHeader} {buf : Octets}
    (h : con.Violates fh buf) :
    con.frameAdmit ord fh buf = (con.met fh).frameReceive ord fh buf ∧
      ((con.met fh).stream? fh.stream).isSome := by
  rw [frameAdmit, met]
  by_cases hNew : fh.stream ≠ 0 ∧ (con.stream? fh.stream).isNone
  · obtain ⟨hGood, hFree⟩ := h.1 hNew.2
    rw [if_pos hNew, if_pos hNew, newPeerStream, hGood, hFree]
    exact ⟨rfl, (stream?_admitted con _ _).mpr (.inl rfl)⟩
  · rw [if_neg hNew, if_neg hNew]
    refine ⟨rfl, ?_⟩
    rw [Option.isSome_iff_ne_none]
    intro hNone
    exact hNew ⟨h.nonzero, by rw [hNone]; rfl⟩

theorem confined_met (con : Connection) (fh : FrameHeader) (buf : Octets) :
    Confined (about fh buf) con (con.met fh) := by
  rw [met]
  split
  · exact confined_admitted con (.inl rfl)
  · exact .refl _ con

theorem met_same (con : Connection) (fh : FrameHeader) :
    (con.met fh).preface = con.preface ∧ (con.met fh).shutdown = con.shutdown := by
  rw [met]
  split
  · exact ⟨rfl, rfl⟩
  · exact ⟨rfl, rfl⟩

/-- A violation is contained exactly when the frame is spared. -/
theorem frameDecode_violates (hRunning : con.Running) {fh : FrameHeader} {buf payload : Octets}
    (hTurn : con.inTurn buf = some (fh, payload)) (h : con.Violates fh payload) (ord : HashOrder) :
    Contained (about fh payload) con (con.frameDecode ord buf).1 ↔
      con.shutdown = true ∨ (con.met fh).Spared fh payload := by
  have hDecode : con.frameDecode ord buf = (con.met fh).frameReceive ord fh payload := by
    rcases frameDecode_inTurn hTurn ord with ⟨⟨code, hUnknown⟩, -⟩ | hAdmit
    · have hKind := h.2.2
      rw [hUnknown] at hKind
      exact hKind.elim
    · rw [hAdmit, (frameAdmit_violates ord h).1]
  obtain ⟨hPreface, hDown⟩ := met_same con fh
  obtain ⟨hConfined, hOutcome⟩ := frameReceive_violation ord (hPreface.trans hRunning.preface)
    (frameAdmit_violates ord h).2 h.2
  rw [hRunning.contained_iff (fate_frameDecode ord con buf), hDecode]
  · rw [hDown] at hOutcome
    rw [← Bool.not_eq_true, hOutcome]
    tauto
  · rw [hDecode]
    exact (confined_met con fh payload).trans hConfined

theorem fate_newStream (con : Connection) : Fate con con.newStream.1 := by
  rw [newStream]
  split
  · exact .refl con
  · exact fate_same rfl rfl rfl id

end Connection

/-! ### Runs -/

/-- The violations among the received frames are contained. -/
def SendEvent.Contains (f : Flow) : SendEvent → Prop
  | .recv ord buf => ∀ fh payload, f.con.inTurn buf = some (fh, payload) →
      f.con.Violates fh payload →
        Connection.Contained (Connection.about fh payload) f.con (f.proceed (.recv ord buf)).con
  | _ => True

/-- The connection is shut down, or a violation is spared. -/
def SendEvent.Spares (f : Flow) : SendEvent → Prop
  | .recv _ buf => ∀ fh payload, f.con.inTurn buf = some (fh, payload) →
      f.con.Violates fh payload → f.con.shutdown = true ∨ (f.con.met fh).Spared fh payload
  | _ => True

theorem running_proceed {f : Flow} (h : f.con.Running) (event : SendEvent) :
    (f.proceed event).con.Running := by
  refine h.fate ?_
  cases event with
  | recv ord buf => exact fate_frameDecode ord f.con buf
  | newStream => exact fate_newStream f.con
  | sendHeaders sid headers ended =>
      exact passes_fate.sendHeaders (fun _ _ => fate_same rfl rfl rfl id) ..
  | sendPpHeaders sid promisedId headers =>
      exact passes_fate.sendPpHeaders (fun _ _ => fate_same rfl rfl rfl id) ..
  | sendData sid chunk ended => exact passes_fate.sendData ..
  | sendPing payload => exact passes_fate.sendPing ..
  | dequeue => exact fate_same rfl rfl rfl id

theorem contains_iff {f : Flow} (h : f.con.Running) (event : SendEvent) :
    event.Contains f ↔ event.Spares f := by
  cases event with
  | recv ord buf =>
    refine forall_congr' fun fh => forall_congr' fun payload => forall_congr' fun hTurn =>
      forall_congr' fun hViolates => ?_
    exact frameDecode_violates h hTurn hViolates ord
  | newStream | sendHeaders | sendPpHeaders | sendData | sendPing | dequeue => exact Iff.rfl

/-- In a run the errors of streams stay with their streams exactly when every violation is spared:
the reset raises no error, and the frame that goes through the state machine after it is no DATA
frame received by a server. -/
theorem stream_errors_contained (type : Endpoint) (given : Settings) (events : List SendEvent) :
    Meets Flow.proceed (fun f event => event.Contains f) (Flow.begin type given) events ↔
      Meets Flow.proceed (fun f event => event.Spares f) (Flow.begin type given) events := by
  have hStart : (Flow.begin type given).con.Running := ⟨rfl, fun _ => rfl⟩
  have hValid : Meets Flow.proceed (fun _ _ => True) (Flow.begin type given) events :=
    .of_forall (fun _ _ => trivial) events _
  have hInv (f : Flow) (event : SendEvent) (h : f.con.Running) (_ : True) :
      (f.proceed event).con.Running := running_proceed h event
  exact hValid.congr_of_invariant hInv (fun _ event h _ => contains_iff h event) hStart

/-- A request on stream 1 that announces five octets. -/
def lengthFrame : Octets :=
  [0, 0, 9, 1, 4, 0, 0, 0, 1, 0x83, 0x86, 0x84, 0x41, 0x01, 0x61, 0x5C, 0x01, 0x35]

/-- The last three octets of stream 1. -/
def shortDataFrame : Octets := [0, 0, 3, 0, 1, 0, 0, 0, 1, 0x61, 0x62, 0x63]

/-- A request with three octets instead of five ends the connection. -/
theorem stream_errors_escalate :
    ¬ Meets Flow.proceed (fun f event => event.Contains f) (Flow.begin .server ∅)
      [.recv .kept lengthFrame, .recv .kept shortDataFrame] := by
  rintro ⟨-, hContains, -⟩
  have hContained := hContains ⟨3, .data, 1, 1⟩ [0x61, 0x62, 0x63] (by decide +kernel)
    ⟨by decide +kernel, by decide, by decide, .inr ⟨?_, by decide, by decide, [0x35],
      [0x61, 0x62, 0x63], by decide +kernel, by decide +kernel, by decide +kernel⟩⟩
  · have hError := hContained.error
    revert hError
    decide +kernel
  · unfold Connection.Overflows
    decide +kernel

end PageCamel.Http2

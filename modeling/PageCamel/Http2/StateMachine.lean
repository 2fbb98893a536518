import Mathlib.Data.Set.Basic
import PageCamel.Http2.Connection

/-!
What the state machine leaves alone. Whatever a frame does to the state of its
stream, the windows, the two compression contexts and the frames already queued
stay as they are; the only frame that can join the queue is the GOAWAY of an error.
-/

namespace PageCamel.Http2
open PageCamel.Lib

/-- A frame that carries no header block. -/
def FrameType.Plain (type : FrameType) : Prop :=
  type ≠ .headers ∧ type ≠ .pushPromise ∧ type ≠ .continuation

namespace Connection

variable {con con' con'' : Connection}

/-! ### Looking streams up -/

@[simp] theorem stream?_setStream_self (con : Connection) (sid : Nat) (s : Stream) :
    (con.setStream sid s).stream? sid = some s := by
  simp [setStream, stream?]

@[simp] theorem stream?_setStream_of_ne {sid other : Nat} (con : Connection) (s : Stream)
    (h : other ≠ sid) : (con.setStream sid s).stream? other = con.stream? other := by
  simp [setStream, stream?, h]

theorem stream?_setStream (con : Connection) (sid other : Nat) (s : Stream) :
    (con.setStream sid s).stream? other = if other = sid then some s else con.stream? other := by
  split
  · subst other
    simp
  · simp [*]

theorem stream?_modifyStream (con : Connection) (sid other : Nat) (f : Stream → Stream) :
    (con.modifyStream sid f).stream? other =
      if other = sid then (con.stream? sid).map f else con.stream? other := by
  simp only [modifyStream]
  split
  · rename_i hNone
    split
    · subst other
      simp [hNone]
    · rfl
  · rename_i hSome
    simp [stream?_setStream, hSome]

@[simp] theorem stream?_modifyStream_self (con : Connection) (sid : Nat) (f : Stream → Stream) :
    (con.modifyStream sid f).stream? sid = (con.stream? sid).map f := by
  simp [stream?_modifyStream]

theorem modifyStream_of_none {sid : Nat} (h : con.stream? sid = none) (f : Stream → Stream) :
    con.modifyStream sid f = con := by
  simp [modifyStream, h]

theorem modifyStream_of_some {sid : Nat} {s : Stream} (h : con.stream? sid = some s)
    (f : Stream → Stream) : con.modifyStream sid f = con.setStream sid (f s) := by
  simp [modifyStream, h]

theorem get_of_some {α : Type} {sid : Nat} {s : Stream} (h : con.stream? sid = some s)
    (field : Stream → Option α) : con.get sid field = field s := by
  simp [get, h]

theorem get_of_none {α : Type} {sid : Nat} (h : con.stream? sid = none)
    (field : Stream → Option α) : con.get sid field = none := by
  simp [get, h]

/-- A change that spares a field of the stream spares it everywhere. -/
theorem get_modifyStream {α : Type} {field : Stream → Option α} {f : Stream → Stream}
    (hField : ∀ s, field (f s) = field s) (con : Connection) (sid other : Nat) :
    (con.modifyStream sid f).get other field = con.get other field := by
  simp only [get, stream?_modifyStream]
  split
  · subst other
    cases con.stream? sid <;> simp [hField]
  · rfl

theorem isSome_stream?_modifyStream (con : Connection) (sid other : Nat) (f : Stream → Stream) :
    ((con.modifyStream sid f).stream? other).isSome = (con.stream? other).isSome := by
  rw [stream?_modifyStream]
  split
  · subst other
    simp
  · rfl

@[simp] theorem type_modifyStream (con : Connection) (sid : Nat) (f : Stream → Stream) :
    (con.modifyStream sid f).type = con.type := by
  unfold modifyStream
  split <;> rfl

@[simp] theorem preface_modifyStream (con : Connection) (sid : Nat) (f : Stream → Stream) :
    (con.modifyStream sid f).preface = con.preface := by
  unfold modifyStream
  split <;> rfl

@[simp] theorem encodeCtx_modifyStream (con : Connection) (sid : Nat) (f : Stream → Stream) :
    (con.modifyStream sid f).encodeCtx = con.encodeCtx := by
  unfold modifyStream
  split <;> rfl

@[simp] theorem decodeCtx_modifyStream (con : Connection) (sid : Nat) (f : Stream → Stream) :
    (con.modifyStream sid f).decodeCtx = con.decodeCtx := by
  unfold modifyStream
  split <;> rfl

@[simp] theorem queue_modifyStream (con : Connection) (sid : Nat) (f : Stream → Stream) :
    (con.modifyStream sid f).queue = con.queue := by
  unfold modifyStream
  split <;> rfl

@[simp] theorem fcwSend_modifyStream (con : Connection) (sid : Nat) (f : Stream → Stream) :
    (con.modifyStream sid f).fcwSend = con.fcwSend := by
  unfold modifyStream
  split <;> rfl

@[simp] theorem error_modifyStream (con : Connection) (sid : Nat) (f : Stream → Stream) :
    (con.modifyStream sid f).error = con.error := by
  unfold modifyStream
  split <;> rfl

@[simp] theorem lastPeerStream_modifyStream (con : Connection) (sid : Nat) (f : Stream → Stream) :
    (con.modifyStream sid f).lastPeerStream = con.lastPeerStream := by
  unfold modifyStream
  split <;> rfl

@[simp] theorem goaway_modifyStream (con : Connection) (sid : Nat) (f : Stream → Stream) :
    (con.modifyStream sid f).goaway = con.goaway := by
  unfold modifyStream
  split <;> rfl

@[simp] theorem pendingStream_modifyStream (con : Connection) (sid : Nat) (f : Stream → Stream) :
    (con.modifyStream sid f).pendingStream = con.pendingStream := by
  unfold modifyStream
  split <;> rfl

/-! ### Streams after a change of state -/

@[simp] theorem stream?_runCallback (con : Connection) (sid other : Nat) (cb : Callback) :
    (con.runCallback sid cb).stream? other = con.stream? other := by
  unfold runCallback
  dsimp only
  repeat' split
  all_goals rfl

@[simp] theorem stream?_runCallbacks (con : Connection) (sid other : Nat) (new : StreamState)
    (cbs : List (StreamState × Callback)) :
    (con.runCallbacks sid new cbs).stream? other = con.stream? other := by
  unfold runCallbacks
  induction cbs.filter fun cb => cb.1 = new generalizing con with
  | nil => rfl
  | cons cb cbs ih => rw [List.foldl_cons, ih, stream?_runCallback]

@[simp] theorem stream?_countClosed (con : Connection) (sid other : Nat) :
    (con.countClosed sid).stream? other = con.stream? other := by
  unfold countClosed
  dsimp only
  split <;> rfl

/-- What `stream_state` leaves of an open stream. -/
theorem stream?_setState {sid : Nat} {s : Stream} (hs : con.stream? sid = some s) {new : StreamState}
    (hNew : new ≠ .closed) :
    (con.setState sid new).stream? sid = some { s with state := some new } := by
  simp [setState, hs, hNew]

theorem stream?_setState_of_ne {sid other : Nat} (hOther : sid ≠ other) (new : StreamState) :
    (con.setState other new).stream? sid = con.stream? sid := by
  rw [setState]
  split
  · rfl
  · dsimp only
    split
    · rw [stream?_modifyStream, if_neg hOther, stream?_countClosed, stream?_runCallbacks,
        stream?_setStream_of_ne _ _ hOther]
    · rw [stream?_runCallbacks, stream?_setStream_of_ne _ _ hOther]

theorem get_state_setState {sid : Nat} {s : Stream} (hs : con.stream? sid = some s) (new : StreamState) :
    (con.setState sid new).get sid Stream.state = some new := by
  simp only [setState, hs, get]
  split <;> simp [Stream.cleaned]

theorem stream?_setPendingState {sid : Nat} {s : Stream} (hs : con.stream? sid = some s)
    (pending : Option StreamState) :
    (con.setPendingState sid pending).stream? sid = some (s.setPending pending) := by
  simp only [setPendingState, hs]
  exact stream?_setStream_self con sid _

theorem vivify_of_some {sid : Nat} {s : Stream} (hs : con.stream? sid = some s) : con.vivify sid = con := by
  simp [vivify, hs]

theorem get_vivify {α : Type} {field : Stream → Option α} (hField : field {} = none)
    (con : Connection) (sid other : Nat) : (con.vivify sid).get other field = con.get other field := by
  unfold vivify
  split
  · rfl
  · rename_i hNone
    by_cases h : other = sid
    · subst other
      simp_all [get]
    · simp [get, h]

theorem stream?_vivify {sid : Nat} {s : Stream} (hs : con.stream? sid = some s) (made : Nat) :
    (con.vivify made).stream? sid = some s := by
  unfold vivify
  split
  · exact hs
  · next hNone =>
      rw [stream?_setStream, if_neg, hs]
      rintro rfl
      rw [hs] at hNone
      exact hNone rfl

@[simp] theorem stream?_finish (con : Connection) (sid : Nat) :
    con.finish.stream? sid = con.stream? sid := by
  unfold finish
  split <;> rfl

@[simp] theorem stream?_setError (con : Connection) (code : ErrorCode) (sid : Nat) :
    (con.setError code).stream? sid = con.stream? sid := by
  unfold setError
  split
  · rfl
  · exact stream?_finish _ sid

/-! ### Steps that raise no error -/

@[simp] theorem shutdown_setStream (con : Connection) (sid : Nat) (s : Stream) :
    (con.setStream sid s).shutdown = con.shutdown := rfl

@[simp] theorem shutdown_modifyStream (con : Connection) (sid : Nat) (f : Stream → Stream) :
    (con.modifyStream sid f).shutdown = con.shutdown := by
  unfold modifyStream
  split <;> rfl

@[simp] theorem shutdown_vivify (con : Connection) (sid : Nat) :
    (con.vivify sid).shutdown = con.shutdown := by
  unfold vivify
  split <;> rfl

@[simp] theorem shutdown_push (con : Connection) (frame : Frame) :
    (con.push frame).shutdown = con.shutdown := rfl

@[simp] theorem shutdown_runCallback (con : Connection) (sid : Nat) (cb : Callback) :
    (con.runCallback sid cb).shutdown = con.shutdown := by
  unfold runCallback
  dsimp only
  repeat' split
  all_goals rfl

@[simp] theorem shutdown_runCallbacks (con : Connection) (sid : Nat) (new : StreamState)
    (cbs : List (StreamState × Callback)) :
    (con.runCallbacks sid new cbs).shutdown = con.shutdown := by
  unfold runCallbacks
  induction cbs.filter fun cb => cb.1 = new generalizing con with
  | nil => rfl
  | cons cb cbs ih => rw [List.foldl_cons, ih, shutdown_runCallback]

@[simp] theorem shutdown_countClosed (con : Connection) (sid : Nat) :
    (con.countClosed sid).shutdown = con.shutdown := by
  unfold countClosed
  dsimp only
  split <;> rfl

@[simp] theorem shutdown_setPendingState (con : Connection) (sid : Nat)
    (pending : Option StreamState) : (con.setPendingState sid pending).shutdown = con.shutdown := by
  unfold setPendingState
  split <;> rfl

@[simp] theorem shutdown_setState (con : Connection) (sid : Nat) (new : StreamState) :
    (con.setState sid new).shutdown = con.shutdown := by
  unfold setState
  split
  · rfl
  · dsimp only
    split <;> simp

@[simp] theorem shutdown_streamState (con : Connection) (sid : Nat) (new : StreamState)
    (pending : Bool) : (con.streamState sid new pending).shutdown = con.shutdown := by
  unfold streamState
  split <;> simp

@[simp] theorem shutdown_finish (con : Connection) : con.finish.shutdown = true := by
  unfold finish
  split <;> simp_all

@[simp] theorem shutdown_setError (con : Connection) (code : ErrorCode) :
    (con.setError code).shutdown = true := by
  unfold setError
  split <;> simp_all

/-! ### Steps that queue nothing -/

theorem queue_runCallbacks (con : Connection) (sid : Nat) (new : StreamState)
    (cbs : List (StreamState × Callback)) : (con.runCallbacks sid new cbs).queue = con.queue := by
  rw [runCallbacks]
  induction cbs.filter fun cb => cb.1 = new generalizing con with
  | nil => rfl
  | cons cb cbs ih =>
    rw [List.foldl_cons, ih]
    unfold runCallback
    dsimp only
    repeat' split
    all_goals rfl

theorem queue_setState (con : Connection) (sid : Nat) (new : StreamState) :
    (con.setState sid new).queue = con.queue := by
  have hCount (con : Connection) : (con.countClosed sid).queue = con.queue := by
    rw [countClosed]
    split <;> rfl
  rw [setState]
  split
  · rfl
  · dsimp only
    split
    · rw [queue_modifyStream, hCount, queue_runCallbacks]
      rfl
    · rw [queue_runCallbacks]
      rfl

theorem queue_setPendingState (con : Connection) (sid : Nat) (pending : Option StreamState) :
    (con.setPendingState sid pending).queue = con.queue := by
  rw [setPendingState]
  split <;> rfl

theorem queue_vivify (con : Connection) (sid : Nat) : (con.vivify sid).queue = con.queue := by
  rw [vivify]
  split <;> rfl

/-! ### What the state machine does -/

/-- A relation between what a connection was and what it has become that has in it what the
state machine does to the streams touched. -/
structure RespectsOn (touched : Set Nat) (R : Connection → Connection → Prop) : Prop where
  refl : ∀ con, R con con
  trans : ∀ {con con' con'' : Connection}, R con con' → R con' con'' → R con con''
  vivify : ∀ con, ∀ sid ∈ touched, R con (vivify con sid)
  setState : ∀ con, ∀ sid ∈ touched, ∀ new, R con (setState con sid new)
  setPendingState : ∀ con, ∀ sid ∈ touched, ∀ pending, R con (setPendingState con sid pending)
  clearPromised : ∀ con, ∀ sid ∈ touched, R con (clearPromised con sid)
  setError : ∀ con code, R con (setError con code)

/-- A relation that has in it what the state machine does to any stream. -/
structure Respects (R : Connection → Connection → Prop) : Prop where
  refl : ∀ con, R con con
  trans : ∀ {con con' con'' : Connection}, R con con' → R con' con'' → R con con''
  vivify : ∀ con sid, R con (vivify con sid)
  setState : ∀ con sid new, R con (setState con sid new)
  setPendingState : ∀ con sid pending, R con (setPendingState con sid pending)
  clearPromised : ∀ con sid, R con (clearPromised con sid)
  setError : ∀ con code, R con (setError con code)

section
variable {R : Connection → Connection → Prop} {touched : Set Nat} {sid : Nat} {promisedSid : Option Nat}

theorem RespectsOn.streamState (h : RespectsOn touched R) (hSid : sid ∈ touched) (con : Connection)
    (new : StreamState) (pending : Bool) : R con (con.streamState sid new pending) := by
  unfold Connection.streamState
  split
  · exact h.setPendingState con sid hSid (some new)
  · exact h.setState con sid hSid new

theorem RespectsOn.reserve (h : RespectsOn touched R)
    (hPromised : ∀ target ∈ promisedSid, target ∈ touched) (con : Connection) (pending : Bool) :
    R con (con.reserve promisedSid pending) := by
  cases promisedSid with
  | none => exact h.refl con
  | some target => exact h.streamState (hPromised target rfl) con .reserved pending

/-- The branches of the state machine by the state of the stream. -/
theorem RespectsOn.stateStep (h : RespectsOn touched R) (hSid : sid ∈ touched)
    (hPromised : ∀ target ∈ promisedSid, target ∈ touched) (con : Connection) (act : Act)
    (type : FrameType) (flags : UInt8) (prev : Option StreamState) :
    R con (con.stateStep act type flags sid promisedSid prev) := by
  unfold Connection.stateStep
  cases prev with
  | none => exact h.setError con _
  | some state =>
      cases state with
      | idle =>
          dsimp only
          split
          · exact h.streamState hSid con _ _
          · split
            · split
              · exact h.trans (h.reserve hPromised con _) (h.clearPromised _ sid hSid)
              · exact h.reserve hPromised con _
            · split
              · exact h.setState con sid hSid _
              · split
                · exact h.setError con _
                · exact h.refl con
      | reserved | opened | halfClosed | closed =>
          dsimp only
          repeat' split
          all_goals
            first
            | exact h.streamState hSid con _ _
            | exact h.setState con sid hSid _
            | exact h.setError con _
            | exact h.refl con

/-- A frame touches its stream and the one that is promised on it. -/
theorem RespectsOn.stateMachine (h : RespectsOn touched R) (hSid : sid ∈ touched) {con : Connection}
    (hPromised : ∀ target ∈ con.get sid Stream.promisedSid, target ∈ touched) (act : Act)
    (type : FrameType) (flags : UInt8) : R con (con.stateMachine act type flags sid) := by
  have hTarget : (con.get sid Stream.promisedSid).getD sid ∈ touched := by
    cases hSome : con.get sid Stream.promisedSid with
    | none => exact hSid
    | some target => exact hPromised target hSome
  unfold Connection.stateMachine
  split
  · exact h.refl con
  · refine h.trans (h.vivify con _ hTarget) ?_
    dsimp only
    split
    · exact h.refl _
    · split
      · split
        · exact h.setError _ _
        · split
          · refine h.trans ?_ (h.setState _ _ hTarget _)
            refine h.trans ?_ (h.setPendingState _ _ hTarget _)
            split
            · exact h.clearPromised _ sid hSid
            · exact h.refl _
          · exact h.refl _
      · split
        · exact h.setError _ _
        · exact h.stateStep hSid hPromised _ act type flags _

theorem Respects.stateMachine (h : Respects R) (con : Connection) (act : Act) (type : FrameType)
    (flags : UInt8) (sid : Nat) : R con (con.stateMachine act type flags sid) := by
  have hAll : RespectsOn Set.univ R :=
    { h with
      vivify := fun con sid _ => h.vivify con sid
      setState := fun con sid _ => h.setState con sid
      setPendingState := fun con sid _ => h.setPendingState con sid
      clearPromised := fun con sid _ => h.clearPromised con sid }
  exact hAll.stateMachine (Set.mem_univ sid) (fun target _ => Set.mem_univ target) act type flags

end

/-! ### Errors -/

/-- The queue stays as it is, or the connection shuts down with a GOAWAY frame. -/
def Rings (con con' : Connection) : Prop :=
  (con'.shutdown = con.shutdown ∧ con'.queue = con.queue) ∨
    (con.shutdown = false ∧ con'.shutdown = true ∧
      ∃ f : Frame, f.type = .goaway ∧ con'.queue = con.queue ++ [f])

theorem Rings.trans (h : Rings con con') (h' : Rings con' con'') : Rings con con'' := by
  rcases h with ⟨hSame, hQueue⟩ | ⟨hUp, hDown, f, hType, hQueue⟩
  · rw [Rings, ← hSame, ← hQueue]
    exact h'
  · rcases h' with ⟨hSame, hQueue'⟩ | ⟨hStill, _⟩
    · exact .inr ⟨hUp, hSame.trans hDown, f, hType, hQueue'.trans hQueue⟩
    · rw [hDown] at hStill
      cases hStill

theorem rings_setError (con : Connection) (code : ErrorCode) : Rings con (con.setError code) := by
  unfold setError
  split
  · exact .inl ⟨rfl, rfl⟩
  · next hUp =>
      unfold finish
      rw [if_neg hUp]
      exact .inr ⟨Bool.eq_false_iff.mpr hUp, rfl, _, rfl, rfl⟩

theorem respects_rings : Respects Rings where
  refl _ := .inl ⟨rfl, rfl⟩
  trans := .trans
  vivify con sid := .inl ⟨shutdown_vivify con sid, queue_vivify con sid⟩
  setState con sid new := .inl ⟨shutdown_setState con sid new, queue_setState con sid new⟩
  setPendingState con sid pending :=
    .inl ⟨shutdown_setPendingState con sid pending, queue_setPendingState con sid pending⟩
  clearPromised con sid := .inl ⟨shutdown_modifyStream con sid _, queue_modifyStream con sid _⟩
  setError := rings_setError

theorem rings_stateMachine (con : Connection) (act : Act) (type : FrameType) (flags : UInt8)
    (sid : Nat) : Rings con (con.stateMachine act type flags sid) :=
  respects_rings.stateMachine con act type flags sid

/-- `enqueue_first` puts the frame somewhere in the queue. -/
theorem exists_enqueueFirst (con : Connection) (d : FrameData) (flags : UInt8) (sid : Nat) :
    ∃ held rest, held ++ rest = (con.encodeEffect d sid).queue ∧
      con.enqueueFirst d flags sid = stateMachine { con.encodeEffect d sid with
        queue := held ++ ⟨d.type, (d.encode flags).1, sid, (d.encode flags).2⟩ :: rest }
          .send d.type flags sid :=
  ⟨_, _, List.prefix_iff_eq_append.mp (List.takeWhile_prefix _), rfl⟩

/-- An error is all that can queue a frame. -/
theorem queue_stateMachine {act : Act} {type : FrameType} {flags : UInt8} {sid : Nat}
    (hSame : (con.stateMachine act type flags sid).shutdown = con.shutdown) :
    (con.stateMachine act type flags sid).queue = con.queue := by
  rcases rings_stateMachine con act type flags sid with ⟨_, hQueue⟩ | ⟨hUp, hDown, _⟩
  · exact hQueue
  · rw [hSame, hUp] at hDown
    cases hDown

/-! ### Quiet steps -/

/-- `con'` differs from `con` by stream states, callbacks and an error at most. -/
structure Quiet (con con' : Connection) : Prop where
  queue : ∃ goaways, con'.queue = con.queue ++ goaways ∧ ∀ f ∈ goaways, f.type = .goaway
  type : con'.type = con.type
  preface : con'.preface = con.preface
  encodeCtx : con'.encodeCtx = con.encodeCtx
  decodeCtx : con'.decodeCtx = con.decodeCtx
  fcwSend : con'.fcwSend = con.fcwSend
  streamFcwSend : ∀ sid, con'.get sid Stream.fcwSend = con.get sid Stream.fcwSend
  streams : ∀ sid, (con.stream? sid).isSome → (con'.stream? sid).isSome
  shutdown : con.shutdown = true → con'.shutdown = true
  error : con'.shutdown = false → con'.error = con.error

theorem Quiet.refl (con : Connection) : Quiet con con :=
  ⟨⟨[], by simp⟩, rfl, rfl, rfl, rfl, rfl, fun _ => rfl, fun _ h => h, id,
    fun _ => rfl⟩

theorem Quiet.trans (h : Quiet con con') (h' : Quiet con' con'') : Quiet con con'' := by
  obtain ⟨goaways, hQueue, hGoaways⟩ := h.queue
  obtain ⟨goaways', hQueue', hGoaways'⟩ := h'.queue
  refine ⟨⟨goaways ++ goaways', ?_, ?_⟩, h'.type.trans h.type, h'.preface.trans h.preface,
    h'.encodeCtx.trans h.encodeCtx, h'.decodeCtx.trans h.decodeCtx, h'.fcwSend.trans h.fcwSend,
    fun sid => (h'.streamFcwSend sid).trans (h.streamFcwSend sid),
    fun sid hs => h'.streams sid (h.streams sid hs), fun hs => h'.shutdown (h.shutdown hs), ?_⟩
  · rw [hQueue', hQueue, List.append_assoc]
  · intro f hf
    exact (List.mem_append.mp hf).elim (hGoaways f) (hGoaways' f)
  · intro hs
    have hs' : con'.shutdown = false := by
      by_contra h
      rw [h'.shutdown (by simpa using h)] at hs
      cases hs
    rw [h'.error hs, h.error hs']

theorem quiet_pushEvent (con : Connection) (e : Event) : Quiet con (con.pushEvent e) :=
  ⟨⟨[], by simp [pushEvent]⟩, rfl, rfl, rfl, rfl, rfl, fun _ => rfl, fun _ h => h, id,
    fun _ => rfl⟩

theorem quiet_modifyStream {f : Stream → Stream} (hField : ∀ s, (f s).fcwSend = s.fcwSend)
    (con : Connection) (sid : Nat) : Quiet con (con.modifyStream sid f) := by
  cases hs : con.stream? sid with
  | none => simpa only [modifyStream_of_none hs] using Quiet.refl con
  | some s =>
      have hWindow := get_modifyStream hField con sid
      have hStreams := isSome_stream?_modifyStream con sid
      simp only [modifyStream_of_some hs] at hWindow hStreams ⊢
      exact ⟨⟨[], by simp [setStream]⟩, rfl, rfl, rfl, rfl, rfl, hWindow,
        fun other h => (hStreams other f).trans h, id, fun _ => rfl⟩

theorem quiet_vivify (con : Connection) (sid : Nat) : Quiet con (con.vivify sid) := by
  unfold vivify
  split
  · exact Quiet.refl con
  · rename_i hNone
    have hNone : con.stream? sid = none := by simpa using hNone
    refine ⟨⟨[], by simp [setStream]⟩, rfl, rfl, rfl, rfl, rfl, ?_, ?_, id, fun _ => rfl⟩
    · intro other
      by_cases h : other = sid
      · subst other
        simp [get, hNone]
      · simp [get, h]
    · intro other hOther
      by_cases h : other = sid
      · subst other
        simp
      · simpa [h] using hOther

theorem quiet_finish (con : Connection) : Quiet con con.finish := by
  unfold finish
  split
  · exact Quiet.refl con
  · exact ⟨⟨[_], rfl, by simp⟩, rfl, rfl, rfl, rfl, rfl, fun _ => rfl, fun _ h => h, fun _ => rfl,
    by simp⟩

theorem quiet_setError (con : Connection) (code : ErrorCode) : Quiet con (con.setError code) := by
  have hDown := shutdown_setError con code
  unfold setError at hDown ⊢
  split
  · exact Quiet.refl con
  · rename_i hUp
    have hFinish := quiet_finish { con with error := some code }
    refine ⟨hFinish.queue, hFinish.type, hFinish.preface, hFinish.encodeCtx, hFinish.decodeCtx,
      hFinish.fcwSend, hFinish.streamFcwSend, hFinish.streams, hFinish.shutdown, ?_⟩
    intro hs
    rw [if_neg hUp, hs] at hDown
    cases hDown

theorem quiet_runCallback (con : Connection) (sid : Nat) (cb : Callback) :
    Quiet con (con.runCallback sid cb) := by
  unfold runCallback
  dsimp only
  split
  · split <;> first | exact quiet_pushEvent _ _ | exact Quiet.refl _
  · split <;> first | exact quiet_pushEvent _ _ | exact Quiet.refl _
  · exact quiet_pushEvent _ _
  · exact Quiet.refl _

theorem quiet_foldl {α : Type} {f : Connection → α → Connection}
    (hf : ∀ con a, Quiet con (f con a)) (l : List α) (con : Connection) :
    Quiet con (l.foldl f con) := by
  induction l generalizing con with
  | nil => exact Quiet.refl con
  | cons a l ih => exact (hf con a).trans (ih (f con a))

theorem quiet_runCallbacks (con : Connection) (sid : Nat) (new : StreamState)
    (cbs : List (StreamState × Callback)) : Quiet con (con.runCallbacks sid new cbs) :=
  quiet_foldl (fun con (cb : StreamState × Callback) => quiet_runCallback con sid cb.2) _ con

theorem quiet_countClosed (con : Connection) (sid : Nat) : Quiet con (con.countClosed sid) := by
  unfold countClosed
  dsimp only
  split
  · exact ⟨⟨[], by simp⟩, rfl, rfl, rfl, rfl, rfl, fun _ => rfl, fun _ h => h, id,
    fun _ => rfl⟩
  · exact Quiet.refl con

theorem quiet_setPendingState (con : Connection) (sid : Nat) (pending : Option StreamState) :
    Quiet con (con.setPendingState sid pending) := by
  unfold setPendingState
  split
  · exact Quiet.refl con
  · rename_i s hs
    have h := quiet_modifyStream (f := Stream.setPending pending)
      (fun _ => rfl) con sid
    rw [modifyStream_of_some hs] at h
    exact h.trans ⟨⟨[], by simp⟩, rfl, rfl, rfl, rfl, rfl, fun _ => rfl, fun _ h => h, id,
    fun _ => rfl⟩

theorem quiet_setState (con : Connection) (sid : Nat) (new : StreamState) :
    Quiet con (con.setState sid new) := by
  unfold setState
  split
  · exact Quiet.refl con
  · rename_i s hs
    have hState := quiet_modifyStream (f := fun s => { s with state := some new })
      (fun _ => rfl) con sid
    rw [modifyStream_of_some hs] at hState
    have hCallbacks := quiet_runCallbacks (con.setStream sid { s with state := some new }) sid new s.cb
    refine (hState.trans hCallbacks).trans ?_
    dsimp only
    split
    · exact (quiet_countClosed _ sid).trans (quiet_modifyStream (f := Stream.cleaned)
        (fun _ => rfl) _ sid)
    · exact Quiet.refl _

theorem quiet_clearPromised (con : Connection) (sid : Nat) :
    Quiet con (con.clearPromised sid) :=
  quiet_modifyStream (f := fun s => { s with promisedSid := none }) (fun _ => rfl) con sid

theorem respects_quiet : Respects Quiet where
  refl := .refl
  trans := .trans
  vivify := quiet_vivify
  setState := quiet_setState
  setPendingState := quiet_setPendingState
  clearPromised := quiet_clearPromised
  setError := quiet_setError

theorem quiet_stateMachine (con : Connection) (act : Act) (type : FrameType) (flags : UInt8)
    (sid : Nat) : Quiet con (con.stateMachine act type flags sid) :=
  respects_quiet.stateMachine con act type flags sid

/-! ### Frames without header blocks -/

variable {sid on : Nat} {type : FrameType}

theorem plain_data : FrameType.Plain .data := by simp [FrameType.Plain]

theorem plain_rstStream : FrameType.Plain .rstStream := by simp [FrameType.Plain]

theorem plain_windowUpdate : FrameType.Plain .windowUpdate := by simp [FrameType.Plain]

/-- The state into which a frame without a header block brings its stream, by the state
that is looked up for it. -/
inductive Enters (con : Connection) (act : Act) (type : FrameType) (flags : UInt8) :
    Option StreamState → StreamState → Prop
  | reset {prev : Option StreamState} (hReset : type = .rstStream) :
      con.Enters act type flags prev .closed
  | half (hData : type = .data) (hEnd : hasFlag flags Flag.endStream = true) :
      con.Enters act type flags (some .opened) .halfClosed
  | close (hEnd : hasFlag flags Flag.endStream = true) (hSide : con.type = .server ↔ act = .send) :
      con.Enters act type flags (some .halfClosed) .closed

theorem Enters.congr {con' : Connection} {act : Act} {flags : UInt8} {prev : Option StreamState}
    {new : StreamState} (h : con'.Enters act type flags prev new) (hSide : con'.type = con.type) :
    con.Enters act type flags prev new := by
  cases h with
  | reset hReset => exact .reset hReset
  | half hData hEnd => exact .half hData hEnd
  | close hEnd hMade => exact .close hEnd (hSide ▸ hMade)

theorem Enters.endStream {act : Act} {flags : UInt8} {prev : Option StreamState} {new : StreamState}
    (h : con.Enters act type flags prev new) (hReset : type ≠ .rstStream) :
    hasFlag flags Flag.endStream = true := by
  cases h with
  | reset hIs => exact absurd hIs hReset
  | half _ hEnd => exact hEnd
  | close hEnd => exact hEnd

theorem Enters.new {act : Act} {flags : UInt8} {prev : Option StreamState} {new : StreamState}
    (h : con.Enters act type flags prev new) : new = .halfClosed ∨ new = .closed := by
  cases h with
  | reset _ => exact .inr rfl
  | half _ _ => exact .inl rfl
  | close _ _ => exact .inr rfl

theorem stateStep_plain (con : Connection) (hType : type.Plain) (act : Act) (flags : UInt8)
    (on : Nat) (promisedSid : Option Nat) (prev : Option StreamState) :
    con.stateStep act type flags on promisedSid prev = con ∨
      (∃ code, con.stateStep act type flags on promisedSid prev = con.setError code) ∨
      ∃ new, con.Enters act type flags prev new ∧
        con.stateStep act type flags on promisedSid prev = con.setState on new := by
  unfold stateStep streamState
  simp only [hType.1, hType.2.1, or_false, false_and, decide_false, Bool.false_eq_true, if_false]
  cases prev with
  | none => exact .inr (.inl ⟨_, rfl⟩)
  | some state =>
    cases state
    all_goals
      dsimp only
      repeat' split
      all_goals
        first
        | exact .inl rfl
        | exact .inr (.inl ⟨_, rfl⟩)
        | refine .inr (.inr ⟨_, ?_, rfl⟩)
    · next h => exact .reset h.1
    · next h => exact .reset h
    · next h => exact .half h.2 h.1
    · next h => exact .reset h
    · next h =>
        obtain hReset | ⟨hEnd, hSide⟩ := h
        · exact .reset hReset
        · exact .close hEnd (of_decide_eq_true hSide)

/-- The state machine ignores such a frame, or makes the stream it stands for, raises an
error, or brings its own stream into a state. -/
theorem stateMachine_plain (con : Connection) (hType : type.Plain) (act : Act) (flags : UInt8)
    (on : Nat) :
    ∃ made, (made = con ∨ made = con.vivify ((con.get on Stream.promisedSid).getD on)) ∧
      (con.stateMachine act type flags on = made ∨
        (∃ code, con.stateMachine act type flags on = made.setError code) ∨
        ∃ new, con.Enters act type flags
            (con.get ((con.get on Stream.promisedSid).getD on) Stream.state) new ∧
          con.stateMachine act type flags on = made.setState on new) := by
  unfold stateMachine
  split
  · exact ⟨con, .inl rfl, .inl rfl⟩
  · refine ⟨con.vivify ((con.get on Stream.promisedSid).getD on), .inr rfl, ?_⟩
    have hSide : (con.vivify ((con.get on Stream.promisedSid).getD on)).type = con.type :=
      (quiet_vivify con _).type
    have hPrev := @get_vivify _ Stream.state rfl con ((con.get on Stream.promisedSid).getD on)
      ((con.get on Stream.promisedSid).getD on)
    dsimp only
    rw [hPrev]
    generalize con.vivify _ = made at hSide ⊢
    split
    · exact .inl rfl
    · split
      · rw [if_pos hType.2.2]
        exact .inr (.inl ⟨_, rfl⟩)
      · rw [if_neg hType.2.2]
        refine (stateStep_plain made hType act flags on _ _).imp_right (Or.imp_right ?_)
        rintro ⟨new, hEnters, hNew⟩
        exact ⟨new, hEnters.congr hSide, hNew⟩

/-- Unless it ends the stream or resets it, such a frame changes no stream. -/
theorem stream?_stateMachine_unflagged (con : Connection) (hType : type.Plain)
    (hReset : type ≠ .rstStream) {flags : UInt8} (hEnd : hasFlag flags Flag.endStream = false)
    (act : Act) (on : Nat) :
    ∃ made, (made = con ∨ made = con.vivify ((con.get on Stream.promisedSid).getD on)) ∧
      ∀ sid, (con.stateMachine act type flags on).stream? sid = made.stream? sid := by
  obtain ⟨made, hMade, hTurn⟩ := stateMachine_plain con hType act flags on
  refine ⟨made, hMade, fun sid => ?_⟩
  rcases hTurn with hIgnored | ⟨code, hError⟩ | ⟨new, hEnters, -⟩
  · rw [hIgnored]
  · rw [hError, stream?_setError]
  · rw [hEnters.endStream hReset] at hEnd
    cases hEnd

/-- Of the other streams such a frame makes one at most. -/
theorem stream?_stateMachine_of_ne (con : Connection) (hType : type.Plain) (hOther : sid ≠ on)
    (act : Act) (flags : UInt8) : ∃ made, (con.stateMachine act type flags on).stream? sid =
      con.stream? sid ∨ (con.stateMachine act type flags on).stream? sid =
        (con.vivify made).stream? sid := by
  obtain ⟨made, hMade, hTurn⟩ := stateMachine_plain con hType act flags on
  have hSame : (con.stateMachine act type flags on).stream? sid = made.stream? sid := by
    rcases hTurn with hIgnored | ⟨code, hError⟩ | ⟨new, -, hNew⟩
    · rw [hIgnored]
    · rw [hError, stream?_setError]
    · rw [hNew, stream?_setState_of_ne hOther]
  refine ⟨(con.get on Stream.promisedSid).getD on, ?_⟩
  rw [hSame]
  exact hMade.imp (congrArg (stream? · sid)) (congrArg (stream? · sid))

theorem stream?_stateMachine_other {s : Stream} (hs : con.stream? sid = some s) (hType : type.Plain)
    (hOther : sid ≠ on) (act : Act) (flags : UInt8) :
    (con.stateMachine act type flags on).stream? sid = some s := by
  obtain ⟨made, hSame | hMade⟩ := stream?_stateMachine_of_ne con hType hOther act flags
  · rw [hSame, hs]
  · rw [hMade, stream?_vivify hs]

theorem get_stateMachine_of_ne {α : Type} {field : Stream → Option α} (hField : field {} = none)
    (hType : type.Plain) (hOther : sid ≠ on) (act : Act) (flags : UInt8) :
    (con.stateMachine act type flags on).get sid field = con.get sid field := by
  obtain ⟨made, hSame | hMade⟩ := stream?_stateMachine_of_ne con hType hOther act flags
  · rw [get, hSame, get]
  · rw [get, hMade]
    exact get_vivify hField con made sid

/-- Its own stream keeps its data, or is closed and cleaned. -/
theorem stream?_stateMachine_own {s : Stream} (hs : con.stream? sid = some s) (hType : type.Plain)
    (act : Act) (flags : UInt8) :
    ∃ s', (con.stateMachine act type flags sid).stream? sid = some s' ∧
      (s'.blockedData = s.blockedData ∧ s'.ended = s.ended ∨
        s'.blockedData = none ∧ s'.ended = none) := by
  obtain ⟨made, hMade, hTurn⟩ := stateMachine_plain con hType act flags sid
  have hOwn : made.stream? sid = some s := by
    rcases hMade with rfl | rfl
    · exact hs
    · exact stream?_vivify hs _
  rcases hTurn with hIgnored | ⟨code, hError⟩ | ⟨new, -, hNew⟩
  · exact ⟨s, hIgnored ▸ hOwn, .inl ⟨rfl, rfl⟩⟩
  · refine ⟨s, ?_, .inl ⟨rfl, rfl⟩⟩
    rw [hError, stream?_setError, hOwn]
  · rw [hNew]
    simp only [setState, hOwn]
    split
    · refine ⟨Stream.cleaned { s with state := some new }, ?_, .inr ⟨rfl, rfl⟩⟩
      simp
    · refine ⟨{ s with state := some new }, ?_, .inl ⟨rfl, rfl⟩⟩
      simp
end Connection
end PageCamel.Http2

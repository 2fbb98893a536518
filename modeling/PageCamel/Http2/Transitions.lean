import PageCamel.Http2.HeaderBlock
import PageCamel.Http2.StreamViews

/-!
What a frame does to the state of its stream on a server: nothing, or the stream
enters a new state at once or when its header block is complete. Entering a state
calls what is registered for it.
-/

namespace PageCamel.Http2
open PageCamel.Lib

/-- The fields of an extended CONNECT. -/
def isExtendedConnect (headers : List Header) : Bool := isConnect headers && hasProtocol headers

/-! ### Transitions of a stream -/

inductive Transition
  | stay
  | pend (new : StreamState)
  | enter (new : StreamState)
  deriving DecidableEq

/-- A state that is entered now or with the end of the header block. -/
def Transition.by (pending : Bool) (new : StreamState) : Transition :=
  if pending then .pend new else .enter new

/-- The transition of a stream that promises nothing. -/
def Stream.transition (s : Stream) (act : Connection.Act) (type : FrameType) (flags : UInt8) : Transition :=
  let endStream := hasFlag flags Flag.endStream
  let endHeaders := hasFlag flags Flag.endHeaders
  let pending : Bool := type = .headers ∧ !endHeaders
  if type = .settings ∨ type = .goaway then .stay
  else
    match s.pendingState with
    | some ps => if type = .continuation ∧ endHeaders then .enter ps else .stay
    | none =>
        match s.state with
        | some .idle =>
            if type = .headers ∧ act = .recv then
              .by pending (if endStream then .halfClosed else .opened)
            else if type = .rstStream ∧ act = .send then .enter .closed
            else .stay
        | some .opened =>
            if endStream ∧ (type = .data ∨ type = .headers) then .by pending .halfClosed
            else if type = .rstStream then .enter .closed
            else .stay
        | some .reserved =>
            if type = .rstStream then .enter .closed
            else if type = .headers ∧ act = .send then
              .by pending (if endStream then .closed else .halfClosed)
            else .stay
        | some .halfClosed =>
            if type = .continuation then .stay
            else if type = .rstStream ∨ (endStream ∧ act = .send) then .by pending .closed
            else .stay
        | some .closed | none => .stay

/-- The stream in a new state. -/
def Stream.enter (s : Stream) (new : StreamState) : Stream :=
  let s := { s with state := some new, pendingState := none }
  if new = .closed then s.cleaned else s

def Stream.after (s : Stream) : Transition → Stream
  | .stay => s
  | .pend new => s.setPending (some new)
  | .enter new => s.enter new

/-- What a callback of a request dispatches. -/
def Stream.called (s : Stream) (sid : Nat) (cb : Callback) : List Event :=
  match cb, s.headers with
  | .opened, some h => if isExtendedConnect h then [.connectRequest sid h s.data] else []
  | .halfClosed, some h => if isExtendedConnect h then [] else [.request sid h s.data]
  | .opened, none | .halfClosed, none | .pushed _ _, _ => []

/-- What a transition dispatches. -/
def Stream.dispatched (s : Stream) (sid : Nat) : Transition → List Event
  | .stay | .pend _ => []
  | .enter new => (s.cb.filter fun cb => cb.1 = new).flatMap fun cb => s.called sid cb.2

namespace Connection

variable {con : Connection} {sid : Nat} {s : Stream}

def pushEvents (con : Connection) (events : List Event) : Connection :=
  { con with events := con.events ++ events }

@[simp] theorem stream?_pushEvents (con : Connection) (events : List Event) (sid : Nat) :
    (con.pushEvents events).stream? sid = con.stream? sid := rfl

theorem runCallback_called (hs : (con.stream? sid) = some s) {cb : StreamState × Callback}
    (hCb : cb = (.opened, .opened) ∨ cb = (.halfClosed, .halfClosed)) :
    con.runCallback sid cb.2 = con.pushEvents (s.called sid cb.2) := by
  have hHeaders : con.get sid Stream.headers = s.headers := get_of_some hs _
  have hData : con.get sid Stream.data = s.data := get_of_some hs _
  unfold runCallback Stream.called
  simp only [hHeaders, hData]
  rcases hCb with rfl | rfl
  all_goals cases s.headers with
  | none => simp [pushEvents]
  | some h =>
      simp only [isExtendedConnect, isConnect, hasProtocol, Bool.and_eq_true, decide_eq_true_eq]
      split <;> simp [pushEvent, pushEvents]

theorem runCallbacks_called (hs : con.stream? sid = some s) (new : StreamState)
    {cbs : List (StreamState × Callback)}
    (hCbs : ∀ cb ∈ cbs, cb = (.opened, .opened) ∨ cb = (.halfClosed, .halfClosed)) :
    con.runCallbacks sid new cbs =
      con.pushEvents ((cbs.filter fun cb => cb.1 = new).flatMap fun cb => s.called sid cb.2) := by
  have hEach : ∀ cb ∈ cbs.filter fun cb => cb.1 = new,
      cb = (.opened, .opened) ∨ cb = (.halfClosed, .halfClosed) :=
    fun cb hMem => hCbs cb (List.mem_of_mem_filter hMem)
  unfold runCallbacks
  generalize cbs.filter (fun cb => cb.1 = new) = cbs at hEach
  clear hCbs
  induction cbs generalizing con with
  | nil => simp [pushEvents]
  | cons cb cbs ih =>
      rw [List.foldl_cons, runCallback_called hs (hEach cb (List.mem_cons_self ..)),
        @ih (con.pushEvents (s.called sid cb.2)) hs fun cb hMem => hEach cb (List.mem_cons_of_mem _ hMem)]
      simp [pushEvents]

theorem called_dispatched (s : Stream) (sid : Nat) (cb : Callback) :
    ∀ e ∈ s.called sid cb, e.dispatched? = some sid := by
  intro e hMem
  unfold Stream.called at hMem
  split at hMem
  · split at hMem
    · rw [List.mem_singleton.mp hMem]
      rfl
    · cases hMem
  · split at hMem
    · cases hMem
    · rw [List.mem_singleton.mp hMem]
      rfl
  · cases hMem
  · cases hMem
  · cases hMem

theorem dispatches_append {con' : Connection} {events : List Event}
    (hEvents : con'.events = con.events ++ events)
    (hOwn : ∀ e ∈ events, e.dispatched? = some sid) :
    con'.dispatches sid = con.dispatches sid ++ events := by
  rw [dispatches, hEvents, List.filter_append, dispatches]
  congr 1
  rw [List.filter_eq_self]
  exact fun e hMem => by simpa using hOwn e hMem

theorem setState_spec (hs : con.stream? sid = some s) (hPlain : s.Plain)
    (hPending : s.pendingState = none) (new : StreamState) :
    (con.setState sid new).stream? sid = some (s.after (.enter new)) ∧
      (con.setState sid new).dispatches sid = con.dispatches sid ++ s.dispatched sid (.enter new) := by
  have hStream : (con.setStream sid { s with state := some new }).stream? sid =
      some { s with state := some new } := stream?_setStream_self ..
  have hCalls := runCallbacks_called hStream new hPlain.cb
  simp only [setState, hs, hCalls]
  have hOwn : ∀ e ∈ s.dispatched sid (.enter new), e.dispatched? = some sid := by
    intro e hMem
    obtain ⟨cb, -, hCb⟩ := List.mem_flatMap.mp hMem
    exact called_dispatched s sid cb.2 e hCb
  by_cases hNew : new = .closed
  · rw [if_pos hNew]
    refine ⟨?_, dispatches_append ?_ hOwn⟩
    · rw [stream?_modifyStream_self, stream?_countClosed, stream?_pushEvents, hStream]
      simp [Stream.after, Stream.enter, hNew, Stream.cleaned]
    · unfold modifyStream countClosed
      dsimp only
      repeat' split
      all_goals rfl
  · rw [if_neg hNew]
    refine ⟨?_, dispatches_append rfl hOwn⟩
    rw [stream?_pushEvents, hStream, Stream.after, Stream.enter, if_neg hNew, ← hPending]

/-- A stream after a transition, and what that dispatches. -/
structure Goes (con con' : Connection) (sid : Nat) (s : Stream) (t : Transition) : Prop where
  stream : con'.stream? sid = some (s.after t)
  dispatches : con'.dispatches sid = con.dispatches sid ++ s.dispatched sid t

theorem goes_stay (hs : con.stream? sid = some s) : Goes con con sid s .stay :=
  ⟨hs, (List.append_nil _).symm⟩

theorem goes_setError (hs : con.stream? sid = some s) (code : ErrorCode) :
    Goes con (con.setError code) sid s .stay := by
  refine ⟨by rw [stream?_setError, hs]; rfl, ?_⟩
  have hEvents : (con.setError code).events = con.events := by
    unfold setError finish
    repeat' split
    all_goals rfl
  rw [dispatches, hEvents]
  exact (List.append_nil _).symm

theorem goes_setState (hs : con.stream? sid = some s) (hPlain : s.Plain)
    (hPending : s.pendingState = none) (new : StreamState) :
    Goes con (con.setState sid new) sid s (.enter new) := by
  obtain ⟨hStream, hDispatches⟩ := setState_spec hs hPlain hPending new
  exact ⟨hStream, hDispatches⟩

theorem goes_streamState (hs : con.stream? sid = some s) (hPlain : s.Plain)
    (hPending : s.pendingState = none) (new : StreamState) (pending : Bool) :
    Goes con (con.streamState sid new pending) sid s (.by pending new) := by
  cases pending with
  | false => exact goes_setState hs hPlain hPending new
  | true =>
      refine ⟨?_, ?_⟩
      · show (con.setPendingState sid (some new)).stream? sid = _
        rw [stream?_setPendingState hs]
        rfl
      · show (con.setPendingState sid (some new)).dispatches sid = _
        simp only [setPendingState, hs]
        exact (List.append_nil _).symm

/-- The end of the header block for which the new state was pending. -/
theorem goes_pending (hs : con.stream? sid = some s) (hPlain : s.Plain) (ps : StreamState) :
    Goes con ((con.setPendingState sid none).setState sid ps) sid s (.enter ps) := by
  have hStream := stream?_setPendingState hs none
  obtain ⟨hAfter, hDispatches⟩ := setState_spec hStream ⟨hPlain.promised, hPlain.cb⟩ rfl ps
  refine ⟨hAfter, hDispatches.trans ?_⟩
  simp only [setPendingState, hs]
  rfl

theorem goes_stateStep (hServer : con.type = .server) (hs : con.stream? sid = some s)
    (hPlain : s.Plain) (hPending : s.pendingState = none) {state : StreamState}
    (hState : s.state = some state) (act : Act) {type : FrameType} (hPush : type ≠ .pushPromise)
    (hContinuation : type ≠ .continuation) (hSettings : ¬ (type = .settings ∨ type = .goaway))
    (flags : UInt8) : Goes con (con.stateStep act type flags sid none (some state)) sid s
      (s.transition act type flags) := by
  have hSend : (con.type = .server ↔ act = .send) ↔ act = .send := by simp [hServer]
  have hRecv : act = .recv ↔ ¬ act = .send := by cases act <;> simp
  simp only [stateStep, Stream.transition, hSettings, hPending, hState, hPush, hContinuation, hSend,
    hRecv, if_false, or_false, false_and]
  cases state with
  | idle =>
      dsimp only
      repeat' split
      all_goals
        first
        | exact goes_streamState hs hPlain hPending ..
        | exact goes_setState hs hPlain hPending _
        | exact goes_stay hs
        | exact goes_setError hs _
        | simp_all
  | opened | reserved | halfClosed | closed =>
      dsimp only
      repeat' split
      all_goals
        first
        | exact goes_streamState hs hPlain hPending ..
        | exact goes_setState hs hPlain hPending _
        | exact goes_stay hs
        | exact goes_setError hs _
        | simp_all

/-- A frame other than PUSH_PROMISE on a stream that has a state. -/
theorem goes_stateMachine (hServer : con.type = .server) (hPreface : con.preface = true)
    (hSid : sid ≠ 0) (hs : con.stream? sid = some s) (hPlain : s.Plain) (hState : s.state.isSome)
    (act : Act) {type : FrameType} (hPush : type ≠ .pushPromise) (flags : UInt8) :
    Goes con (con.stateMachine act type flags sid) sid s (s.transition act type flags) := by
  obtain ⟨state, hState⟩ := Option.isSome_iff_exists.mp hState
  by_cases hSettings : type = .settings ∨ type = .goaway
  · have hNothing : con.stateMachine act type flags sid = con :=
      if_pos (.inr (hSettings.imp_right .inl))
    rw [hNothing, Stream.transition, if_pos hSettings]
    exact goes_stay hs
  · have hGoes : ¬ (sid = 0 ∨ type = .settings ∨ type = .goaway ∨ !con.preface) := by
      rw [hPreface]
      simpa [hSid] using hSettings
    have hPromised : con.get sid Stream.promisedSid = none :=
      (get_of_some hs _).trans hPlain.promised
    have hPrev : con.get sid Stream.state = some state := (get_of_some hs _).trans hState
    have hPending : con.get sid Stream.pendingState = s.pendingState := get_of_some hs _
    unfold stateMachine
    rw [if_neg hGoes]
    simp only [hPromised, Option.getD_none, vivify_of_some hs, hPrev, hPending,
      Option.isSome_none, Bool.false_eq_true, if_false, reduceCtorEq, false_and]
    cases hWaits : s.pendingState with
    | none =>
        by_cases hContinuation : type = .continuation
        · subst hContinuation
          have hStay : s.transition act .continuation flags = .stay := by
            unfold Stream.transition
            simp only [hWaits, hState]
            cases state <;> simp
          rw [hStay]
          exact goes_setError hs _
        · simp only [hContinuation, if_false]
          exact goes_stateStep hServer hs hPlain hWaits hState act hPush hContinuation hSettings flags
    | some ps =>
        unfold Stream.transition
        simp only [hSettings, hWaits, if_false]
        by_cases hContinuation : type = .continuation
        · cases hEnd : hasFlag flags Flag.endHeaders with
          | true =>
              simp only [hContinuation]
              exact goes_pending hs hPlain ps
          | false =>
              simp only [hContinuation]
              exact goes_stay hs
        · simp only [hContinuation, ne_eq, not_false_eq_true, if_true, false_and, if_false]
          exact goes_setError hs _

end Connection
end PageCamel.Http2

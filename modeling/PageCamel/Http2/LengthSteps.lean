import PageCamel.Http2.StreamErrors
import PageCamel.Http2.Transitions

/-!
The lengths of requests. A request is dispatched with the header list and the body its stream has
when it becomes half closed. Whatever else a frame does, the other streams keep both, or lose
them when they close.
-/

namespace PageCamel.Http2
open PageCamel.Lib

/-- The values of the content-length fields. -/
def contentLengths (headers : List Header) : List Octets :=
  (headers.filter fun h => h.1 = octets "content-length").map Prod.snd

/-- The body is as long as each content-length field says. -/
def FullBody (headers : List Header) (data : Option Octets) : Prop :=
  ∀ v ∈ contentLengths headers, numericValue v = (data.getD []).length

instance (headers : List Header) (data : Option Octets) : Decidable (FullBody headers data) :=
  inferInstanceAs (Decidable (∀ v ∈ contentLengths headers, _))

/-- A request comes with its whole body. -/
def Event.Complete : Event → Prop
  | .request _ headers data => FullBody headers data
  | .connectRequest _ _ _ | .streamData _ _ => True

/-- The stream is reserved neither now nor soon, and has the callbacks of a request. -/
structure Stream.Registered (s : Stream) : Prop where
  cb : ∀ cb ∈ s.cb, cb = (.opened, .opened) ∨ cb = (.halfClosed, .halfClosed)
  state : s.state ≠ some .reserved
  pending : s.pendingState ≠ some .reserved

/-- The request of the stream, dispatched now, would come with its whole body. -/
def Stream.Complete (s : Stream) : Prop :=
  ∀ h ∈ s.headers, isExtendedConnect h = false → FullBody h s.data

theorem Stream.complete_of_none {s : Stream} (h : s.headers = none) : s.Complete := by
  intro list hList
  rw [h] at hList
  cases hList

theorem Stream.Complete.congr {s s' : Stream} (h : s.Complete) (hHeaders : s'.headers = s.headers)
    (hData : s'.data = s.data) : s'.Complete := by
  intro list hList
  rw [hData]
  exact h list (hHeaders ▸ hList)

namespace Connection

variable {con con' con'' : Connection} {own : Set Nat} {sid : Nat}

/-- A server whose streams have the callbacks of requests. -/
structure Registered (con : Connection) : Prop where
  server : con.type = .server
  streams : ∀ sid s, con.stream? sid = some s → s.Registered

def Complete (con : Connection) (sid : Nat) : Prop := ∀ s, con.stream? sid = some s → s.Complete

/-- The streams keep their header lists and bodies, some of them apart, or have none; the requests
that are dispatched are complete. -/
structure Fair (own : Set Nat) (con con' : Connection) : Prop where
  registered : con.Registered → con'.Registered
  kept : con.Registered → ∀ sid ∉ own, ∀ s', con'.stream? sid = some s' → s'.headers = none ∨
    ∃ s, con.stream? sid = some s ∧ s'.headers = s.headers ∧ s'.data = s.data
  events : con.Registered → ∃ new, con'.events = con.events ++ new ∧ ∀ e ∈ new, e.Complete

theorem Fair.refl (own : Set Nat) (con : Connection) : Fair own con con :=
  ⟨id, fun _ _ _ s hs => .inr ⟨s, hs, rfl, rfl⟩, fun _ => ⟨[], by simp⟩⟩

theorem Fair.trans (h : Fair own con con') (h' : Fair own con' con'') : Fair own con con'' where
  registered hCon := h'.registered (h.registered hCon)
  kept hCon sid hOther s'' hs'' := by
    rcases h'.kept (h.registered hCon) sid hOther s'' hs'' with hNone | ⟨s', hs', hHeaders, hData⟩
    · exact .inl hNone
    · rw [hHeaders, hData]
      exact h.kept hCon sid hOther s' hs'
  events hCon := by
    obtain ⟨new, hEvents, hNew⟩ := h.events hCon
    obtain ⟨new', hEvents', hNew'⟩ := h'.events (h.registered hCon)
    refine ⟨new ++ new', ?_, fun e hMem => ?_⟩
    · rw [hEvents', hEvents, List.append_assoc]
    · exact (List.mem_append.mp hMem).elim (hNew e) (hNew' e)

theorem Fair.mono {more : Set Nat} (h : Fair own con con') (hMore : own ⊆ more) :
    Fair more con con' :=
  ⟨h.registered, fun hCon sid hOther => h.kept hCon sid fun hOwn => hOther (hMore hOwn), h.events⟩

/-- What is said of a registered connection. -/
theorem Fair.of_registered (h : con.Registered → Fair own con con') : Fair own con con' :=
  ⟨fun hCon => (h hCon).registered hCon, fun hCon => (h hCon).kept hCon,
    fun hCon => (h hCon).events hCon⟩

theorem Fair.complete (h : Fair own con con') (hCon : con.Registered) (hOther : sid ∉ own)
    (hComplete : con.Complete sid) : con'.Complete sid := by
  intro s' hs'
  rcases h.kept hCon sid hOther s' hs' with hNone | ⟨s, hs, hHeaders, hData⟩
  · exact Stream.complete_of_none hNone
  · exact (hComplete s hs).congr hHeaders hData

/-! ### Elementary changes -/

/-- A change beside the streams. -/
theorem fair_of_streams (hStreams : con'.streams = con.streams) (hType : con'.type = con.type)
    (hEvents : con'.events = con.events) : Fair own con con' := by
  have hSame (sid : Nat) : con'.stream? sid = con.stream? sid := by
    rw [stream?, hStreams, stream?]
  refine ⟨fun hCon => ⟨hType.trans hCon.server, fun sid s hs => ?_⟩, fun _ sid _ s hs => ?_,
    fun _ => ⟨[], by simp [hEvents]⟩⟩
  · exact hCon.streams sid s ((hSame sid).symm.trans hs)
  · exact .inr ⟨s, (hSame sid).symm.trans hs, rfl, rfl⟩

/-- A stream is set to a value that is registered. -/
theorem fair_setStream (con : Connection) (sid : Nat) {s' : Stream}
    (hRegistered : con.Registered → s'.Registered)
    (hKept : sid ∉ own → s'.headers = none ∨
      ∃ s, con.stream? sid = some s ∧ s'.headers = s.headers ∧ s'.data = s.data) :
    Fair own con (con.setStream sid s') := by
  refine ⟨fun hCon => ⟨hCon.server, fun other s hs => ?_⟩, fun _ other hOther s hs => ?_,
    fun _ => ⟨[], by simp [setStream]⟩⟩
  · rw [stream?_setStream] at hs
    split at hs
    · cases hs
      exact hRegistered hCon
    · exact hCon.streams other s hs
  · rw [stream?_setStream] at hs
    split at hs
    · next hEq =>
      cases hs
      subst hEq
      exact hKept hOther
    · exact .inr ⟨s, hs, rfl, rfl⟩

/-- A change of one stream. -/
theorem fair_modifyStream {f : Stream → Stream} (con : Connection) (sid : Nat)
    (hRegistered : ∀ s : Stream, s.Registered → (f s).Registered)
    (hKept : sid ∉ own → ∀ s : Stream, (f s).headers = none ∨
      (f s).headers = s.headers ∧ (f s).data = s.data) :
    Fair own con (con.modifyStream sid f) := by
  cases hs : con.stream? sid with
  | none =>
    rw [modifyStream_of_none hs]
    exact .refl own con
  | some s =>
    rw [modifyStream_of_some hs]
    refine fair_setStream con sid (fun hCon => hRegistered s (hCon.streams sid s hs)) fun hOther => ?_
    exact (hKept hOther s).imp_right fun hSame => ⟨s, hs, hSame⟩

/-- A change of the other fields of a stream. -/
theorem fair_modifyStream_same {f : Stream → Stream} (con : Connection) (sid : Nat)
    (hCb : ∀ s, (f s).cb = s.cb) (hState : ∀ s, (f s).state = s.state)
    (hPending : ∀ s, (f s).pendingState = s.pendingState) (hHeaders : ∀ s, (f s).headers = s.headers)
    (hData : ∀ s, (f s).data = s.data) : Fair own con (con.modifyStream sid f) := by
  refine fair_modifyStream con sid (fun s hs => ⟨?_, ?_, ?_⟩) fun _ s => .inr ⟨hHeaders s, hData s⟩
  · rw [hCb]
    exact hs.cb
  · rw [hState]
    exact hs.state
  · rw [hPending]
    exact hs.pending

theorem fair_vivify (con : Connection) (sid : Nat) : Fair own con (con.vivify sid) := by
  rw [vivify]
  split
  · exact .refl own con
  · refine fair_setStream con sid (fun _ => ⟨?_, ?_, ?_⟩) fun _ => .inl rfl
    all_goals simp

theorem fair_setError (con : Connection) (code : ErrorCode) : Fair own con (con.setError code) := by
  rw [setError]
  split
  · exact .refl own con
  · rw [finish]
    split
    · exact fair_of_streams rfl rfl rfl
    · exact fair_of_streams rfl rfl rfl

theorem fair_push (con : Connection) (frame : Frame) : Fair own con (con.push frame) :=
  fair_of_streams rfl rfl rfl

theorem fair_setPendingState (con : Connection) (sid : Nat) {pending : Option StreamState}
    (hPending : pending ≠ some .reserved) : Fair own con (con.setPendingState sid pending) := by
  rw [setPendingState]
  split
  · exact .refl own con
  · next s hs =>
    have hSet : Fair own con (con.setStream sid (s.setPending pending)) := by
      refine fair_setStream con sid (fun hCon => ?_) fun _ => .inr ⟨s, hs, rfl, rfl⟩
      exact ⟨(hCon.streams sid s hs).cb, (hCon.streams sid s hs).state, hPending⟩
    exact hSet.trans (fair_of_streams rfl rfl rfl)

theorem fair_clearPromised (con : Connection) (sid : Nat) : Fair own con (con.clearPromised sid) :=
  fair_modifyStream_same con sid (fun _ => rfl) (fun _ => rfl) (fun _ => rfl) (fun _ => rfl)
    fun _ => rfl

theorem fair_countClosed (con : Connection) (sid : Nat) : Fair own con (con.countClosed sid) := by
  rw [countClosed]
  split
  · exact fair_of_streams rfl rfl rfl
  · exact .refl own con

/-! ### Entering a state -/

/-- What a stream dispatches in a state is complete if the stream is, unless it is half closed. -/
theorem complete_dispatched {s : Stream} (hCb : s.Registered) {new : StreamState}
    (hComplete : new = .halfClosed → s.Complete) :
    ∀ e ∈ s.dispatched sid (.enter new), e.Complete := by
  intro e hMem
  obtain ⟨cb, hCbMem, hCalled⟩ := List.mem_flatMap.mp hMem
  obtain ⟨hCbMem, hNew⟩ := List.mem_filter.mp hCbMem
  rw [decide_eq_true_eq] at hNew
  rcases hCb.cb cb hCbMem with rfl | rfl
  · unfold Stream.called at hCalled
    cases hHeaders : s.headers with
    | none =>
      simp only [hHeaders] at hCalled
      cases hCalled
    | some h =>
      simp only [hHeaders] at hCalled
      split at hCalled
      · rw [List.mem_singleton.mp hCalled]
        trivial
      · cases hCalled
  · unfold Stream.called at hCalled
    cases hHeaders : s.headers with
    | none =>
      simp only [hHeaders] at hCalled
      cases hCalled
    | some h =>
      simp only [hHeaders] at hCalled
      split at hCalled
      · cases hCalled
      · next hConnect =>
        rw [List.mem_singleton.mp hCalled]
        exact hComplete hNew.symm h hHeaders (Bool.not_eq_true _ ▸ hConnect)

theorem fair_setState (con : Connection) (sid : Nat) {new : StreamState} (hNew : new ≠ .reserved)
    (hComplete : new = .halfClosed → con.Complete sid) : Fair own con (con.setState sid new) := by
  rw [setState]
  cases hs : con.stream? sid with
  | none => exact .refl own con
  | some s =>
    refine Fair.of_registered fun hCon => ?_
    have hRegistered := hCon.streams sid s hs
    have hSet : Fair own con (con.setStream sid { s with state := some new }) :=
      fair_setStream con sid (fun _ => ⟨hRegistered.cb, fun hEq => hNew (Option.some.inj hEq),
        hRegistered.pending⟩) fun _ => .inr ⟨s, hs, rfl, rfl⟩
    have hCalls := runCallbacks_called (stream?_setStream_self con sid { s with state := some new })
      new hRegistered.cb
    have hRun : Fair own (con.setStream sid { s with state := some new })
        ((con.setStream sid { s with state := some new }).runCallbacks sid new s.cb) := by
      rw [hCalls]
      refine ⟨fun hSet => ⟨hSet.server, hSet.streams⟩, fun _ other _ t ht => .inr ⟨t, ht, rfl, rfl⟩,
        fun _ => ⟨_, rfl, ?_⟩⟩
      exact complete_dispatched (s := { s with state := some new })
        ⟨hRegistered.cb, fun hEq => hNew (Option.some.inj hEq), hRegistered.pending⟩
        fun hHalf => (hComplete hHalf s hs).congr rfl rfl
    refine (hSet.trans hRun).trans ?_
    dsimp only
    split
    · refine (fair_countClosed _ sid).trans (fair_modifyStream _ sid (fun t ht => ⟨?_, ht.state, ?_⟩)
        fun _ _ => .inl rfl)
      · exact fun cb hMem => absurd hMem List.not_mem_nil
      · exact fun hEq => Option.some_ne_none _ hEq.symm
    · exact .refl own _

theorem fair_streamState (con : Connection) (sid : Nat) {new : StreamState} {pending : Bool}
    (hNew : new ≠ .reserved)
    (hComplete : pending = false → new = .halfClosed → con.Complete sid) :
    Fair own con (con.streamState sid new pending) := by
  cases pending with
  | true => exact fair_setPendingState con sid fun hEq => hNew (Option.some.inj hEq)
  | false => exact fair_setState con sid hNew (hComplete rfl)

/-! ### The state machine -/

/-- The state machine goes by the state of the stream. -/
def Heeded (con : Connection) (sid : Nat) : Prop :=
  con.preface = true ∧ con.get sid Stream.pendingState = none

/-- With such a frame for the stream `sid` the state machine takes the request of a stream for
ended. -/
inductive Ends (con : Connection) (act : Act) (flags : UInt8) (sid : Nat) : FrameType → Nat → Prop
  | data : con.Heeded sid → hasFlag flags Flag.endStream = true → con.standing sid = some .opened →
      Ends con act flags sid .data sid
  | headers : con.Heeded sid → hasFlag flags Flag.endStream = true →
      hasFlag flags Flag.endHeaders = true →
        con.standing sid = some .opened ∨ con.standing sid = some .idle ∧ act = .recv →
          Ends con act flags sid .headers sid
  | block : hasFlag flags Flag.endHeaders = true →
      con.get sid Stream.pendingState = some .halfClosed →
        Ends con act flags sid .continuation ((con.get sid Stream.promisedSid).getD sid)

theorem fair_stateStep (hServer : con.type = .server) {act : Act} {type : FrameType}
    (hPush : type = .pushPromise → act = .recv) (flags : UInt8) (promisedSid : Option Nat)
    {prev : Option StreamState} (hPrev : prev ≠ some .reserved)
    (hEnds : hasFlag flags Flag.endStream = true → type = .data ∧ prev = some .opened ∨
      type = .headers ∧ hasFlag flags Flag.endHeaders = true ∧
        (prev = some .opened ∨ prev = some .idle ∧ act = .recv) → con.Complete sid) :
    Fair own con (con.stateStep act type flags sid promisedSid prev) := by
  have hSend : (con.type = .server ↔ act = .send) ↔ act = .send := by simp [hServer]
  have hRecv : act = .recv ↔ ¬ act = .send := by cases act <;> simp
  have hClosed : Fair own con (con.setState sid .closed) :=
    fair_setState con sid (by decide) fun hEq => nomatch hEq
  unfold stateStep
  simp only [hSend]
  cases prev with
  | none => exact fair_setError con _
  | some state =>
    cases state with
    | idle =>
      dsimp only
      split
      · next hHeaders =>
        obtain ⟨rfl, hAct⟩ := hHeaders
        refine fair_streamState con sid (by split <;> decide) fun hNow hHalf => ?_
        have hEnd : hasFlag flags Flag.endStream = true := by
          by_contra hNot
          rw [if_neg hNot] at hHalf
          cases hHalf
        refine hEnds hEnd (.inr ⟨rfl, by simpa using hNow, .inr ⟨rfl, ?_⟩⟩)
        rw [hRecv]
        simpa using hAct
      · split
        · next hPromise =>
          have hAct := hPush hPromise.1
          rw [hRecv] at hAct
          exact absurd (by simpa using hPromise.2) hAct
        · split
          · exact hClosed
          · split
            · exact fair_setError con _
            · exact .refl own con
    | opened =>
      dsimp only
      split
      · next hEnd =>
        refine fair_streamState con sid (by decide) fun hNow _ => hEnds hEnd.1 ?_
        refine hEnd.2.imp (fun hData => ⟨hData, rfl⟩) fun hHeaders => ⟨hHeaders, ?_, .inl rfl⟩
        simpa [hHeaders] using hNow
      · split
        · exact hClosed
        · split
          · exact fair_setError con _
          · exact .refl own con
    | reserved => exact absurd rfl hPrev
    | halfClosed =>
      dsimp only
      split
      · exact fair_streamState con sid (by decide) fun _ hEq => nomatch hEq
      · split
        · exact fair_setError con _
        · exact .refl own con
    | closed =>
      dsimp only
      split
      · exact fair_setError con _
      · exact .refl own con

theorem Registered.standing (h : con.Registered) (sid : Nat) : con.standing sid ≠ some .reserved := by
  rw [Connection.standing]
  generalize (con.get sid Stream.promisedSid).getD sid = target
  cases hs : con.stream? target with
  | none =>
    rw [get_of_none hs]
    exact fun hEq => Option.some_ne_none _ hEq.symm
  | some s =>
    rw [get_of_some hs]
    exact (h.streams target s hs).state

/-- A frame for a stream, other than a PUSH_PROMISE that is sent, dispatches no request but those
it ends. -/
theorem fair_stateMachine (con : Connection) {act : Act} {type : FrameType}
    (hPush : type = .pushPromise → act = .recv) (flags : UInt8) (sid : Nat)
    (hEnds : ∀ on, con.Ends act flags sid type on → con.Complete on) :
    Fair own con (con.stateMachine act type flags sid) := by
  refine Fair.of_registered fun hCon => ?_
  rw [stateMachine]
  split
  · exact .refl own con
  · next hGoes =>
    have hPreface : con.preface = true := by simpa using fun hNot => hGoes (.inr (.inr (.inr hNot)))
    have hMade : Fair ∅ con (con.vivify ((con.get sid Stream.promisedSid).getD sid)) :=
      fair_vivify con _
    have hGet {α : Type} {field : Stream → Option α} (hField : field {} = none) (on : Nat) :
        (con.vivify ((con.get sid Stream.promisedSid).getD sid)).get on field = con.get on field :=
      get_vivify hField con _ on
    have hMade' := hMade.mono (Set.empty_subset own)
    have hComplete (on : Nat) (h : con.Complete on) :
        (con.vivify ((con.get sid Stream.promisedSid).getD sid)).Complete on :=
      hMade.complete hCon (Set.notMem_empty on) h
    dsimp only
    simp only [@hGet _ Stream.pendingState rfl, @hGet _ Stream.state rfl]
    refine hMade'.trans ?_
    generalize con.vivify _ = made at hMade hComplete ⊢
    have hRegistered := hMade.registered hCon
    split
    · exact .refl own made
    · split
      · next ps hPending =>
        split
        · exact fair_setError made _
        · next hContinuation =>
          rw [ne_eq, not_not] at hContinuation
          subst hContinuation
          split
          · next hEnd =>
            have hReserved : ps ≠ .reserved := by
              rintro rfl
              cases hs : con.stream? sid with
              | none =>
                rw [get_of_none hs] at hPending
                cases hPending
              | some s =>
                rw [get_of_some hs] at hPending
                exact (hCon.streams sid s hs).pending hPending
            have hCleared : Fair ∅ made (if (con.get sid Stream.promisedSid).isSome then
                made.clearPromised sid else made) := by
              split
              · exact fair_clearPromised made sid
              · exact .refl ∅ made
            have hNone : (none : Option StreamState) ≠ some .reserved := (Option.some_ne_none _).symm
            have hUnset := hCleared.trans (fair_setPendingState _
              ((con.get sid Stream.promisedSid).getD sid) hNone)
            refine (hUnset.mono (Set.empty_subset own)).trans (fair_setState _ _ hReserved ?_)
            rintro rfl
            exact hUnset.complete hRegistered (Set.notMem_empty _)
              (hComplete _ (hEnds _ (.block hEnd hPending)))
          · exact .refl own made
      · next hIdle =>
        split
        · exact fair_setError made _
        · refine fair_stateStep hRegistered.server hPush flags _ (hCon.standing sid)
            fun hEnd hType => hComplete sid ?_
          rcases hType with ⟨rfl, hOpened⟩ | ⟨rfl, hEndHeaders, hWaits⟩
          · exact hEnds sid (.data ⟨hPreface, hIdle⟩ hEnd hOpened)
          · exact hEnds sid (.headers ⟨hPreface, hIdle⟩ hEnd hEndHeaders hWaits)

/-- A frame of another type ends no request. -/
theorem not_ends {act : Act} {type : FrameType} {flags : UInt8} {on : Nat} (hData : type ≠ .data)
    (hHeaders : type ≠ .headers) (hContinuation : type ≠ .continuation) :
    ¬ con.Ends act flags sid type on := by
  rintro (_ | _ | _)
  · exact hData rfl
  · exact hHeaders rfl
  · exact hContinuation rfl

/-! ### Sending header blocks -/

theorem Ends.congr {act : Act} {type : FrameType} {flags : UInt8} {on : Nat}
    (h : con'.Ends act flags sid type on) (hPreface : con'.preface = con.preface)
    (hStanding : con'.standing sid = con.standing sid)
    (hPending : con'.get sid Stream.pendingState = con.get sid Stream.pendingState)
    (hPromised : con'.get sid Stream.promisedSid = con.get sid Stream.promisedSid) :
    con.Ends act flags sid type on := by
  have hHeeded (h : con'.Heeded sid) : con.Heeded sid := ⟨hPreface ▸ h.1, hPending ▸ h.2⟩
  cases h with
  | data hGoes hEnd hOpened => exact .data (hHeeded hGoes) hEnd (hStanding ▸ hOpened)
  | headers hGoes hEnd hBlock hWaits => exact .headers (hHeeded hGoes) hEnd hBlock (hStanding ▸ hWaits)
  | block hBlock hHalf =>
    rw [hPromised]
    exact .block hBlock (hPending ▸ hHalf)

theorem fair_encodeEffect (con : Connection) (d : FrameData) (sid : Nat) :
    Fair own con (con.encodeEffect d sid) := by
  cases d with
  | rstStream code =>
    exact fair_modifyStream_same con sid (fun _ => rfl) (fun _ => rfl) (fun _ => rfl) (fun _ => rfl)
      fun _ => rfl
  | goaway lastStream code => exact fair_of_streams rfl rfl rfl
  | _ => exact .refl own con

/-- A frame in the queue, before the state machine has been told of it. -/
theorem fair_encoded (con : Connection) (d : FrameData) (flags : UInt8) (sid : Nat) :
    Fair ∅ con ((con.encodeEffect d sid).push (con.frameEncode d flags sid).2) :=
  (fair_encodeEffect con d sid).trans (fair_push _ _)

theorem get_encoded {α : Type} {field : Stream → Option α}
    (hField : ∀ s code, field (Stream.setReset code s) = field s) (con : Connection) (d : FrameData)
    (flags : UInt8) (sid other : Nat) :
    ((con.encodeEffect d sid).push (con.frameEncode d flags sid).2).get other field =
      con.get other field := by
  cases d with
  | rstStream code => exact get_modifyStream (fun s => hField s code) con sid other
  | _ => rfl

theorem fair_enqueue (con : Connection) {d : FrameData} (hPush : d.type ≠ .pushPromise)
    (flags : UInt8) (sid : Nat)
    (hEnds : ∀ on, con.Ends .send flags sid d.type on → con.Complete on) :
    Fair own con (con.enqueue d flags sid) := by
  refine Fair.of_registered fun hCon => ?_
  have hQueued := fair_encoded con d flags sid
  refine (hQueued.mono (Set.empty_subset own)).trans (fair_stateMachine _
    (fun hType => absurd hType hPush) flags sid fun on hOn => ?_)
  refine hQueued.complete hCon (Set.notMem_empty _) (hEnds on (hOn.congr ?_ ?_ ?_ ?_))
  · show (con.encodeEffect d sid).preface = con.preface
    cases d with
    | rstStream code => exact preface_modifyStream ..
    | _ => rfl
  · rw [standing, get_encoded fun _ _ => rfl, get_encoded fun _ _ => rfl, standing]
  · exact get_encoded (fun _ _ => rfl) ..
  · exact get_encoded (fun _ _ => rfl) ..

/-- A frame that has nothing to do with the request of a stream. -/
theorem fair_enqueue_other (con : Connection) {d : FrameData} (hPush : d.type ≠ .pushPromise)
    (hData : d.type ≠ .data) (hHeaders : d.type ≠ .headers) (hContinuation : d.type ≠ .continuation)
    (flags : UInt8) (sid : Nat) : Fair own con (con.enqueue d flags sid) :=
  fair_enqueue con hPush flags sid fun _ hOn => absurd hOn (not_ends hData hHeaders hContinuation)

theorem fair_streamError (con : Connection) (sid : Nat) (code : ErrorCode) :
    Fair own con (con.streamError sid code) :=
  fair_enqueue_other con (d := .rstStream code.code) (by simp [FrameData.type])
    (by simp [FrameData.type]) (by simp [FrameData.type]) (by simp [FrameData.type]) 0 sid

theorem get_setState {α : Type} {field : Stream → Option α}
    (hState : ∀ s state, field { s with state } = field s)
    (hCleaned : ∀ s : Stream, field s.cleaned = none) (con : Connection) (on sid : Nat) (new : StreamState) :
    (con.setState on new).get sid field = con.get sid field ∨
      (con.setState on new).get sid field = none := by
  by_cases hOther : sid = on
  · subst hOther
    rw [setState]
    cases hs : con.stream? sid with
    | none => exact .inl rfl
    | some s =>
      dsimp only
      split
      · refine .inr ?_
        rw [get, stream?_modifyStream_self, stream?_countClosed, stream?_runCallbacks,
          stream?_setStream_self]
        exact hCleaned _
      · refine .inl ?_
        rw [get, stream?_runCallbacks, stream?_setStream_self, get_of_some hs]
        exact hState s _
  · refine .inl ?_
    rw [get, stream?_setState_of_ne hOther, get]

theorem get_setPendingState {α : Type} {field : Stream → Option α}
    (hField : ∀ s pending, field (Stream.setPending pending s) = field s) (con : Connection)
    (on sid : Nat) (pending : Option StreamState) :
    (con.setPendingState on pending).get sid field = con.get sid field := by
  rw [setPendingState]
  split
  · rfl
  · next s hs =>
    show (con.setStream on (s.setPending pending)).get sid field = _
    rw [get, stream?_setStream]
    split
    · next hEq =>
      rw [hEq, get_of_some hs]
      exact hField s pending
    · rfl

theorem get_pending_setPendingState (con : Connection) (on sid : Nat) (pending : Option StreamState) :
    (con.setPendingState on pending).get sid Stream.pendingState = con.get sid Stream.pendingState ∨
      (con.setPendingState on pending).get sid Stream.pendingState = pending := by
  rw [setPendingState]
  split
  · exact .inl rfl
  · next s hs =>
    show (con.setStream on (s.setPending pending)).get sid _ = _ ∨
      (con.setStream on (s.setPending pending)).get sid _ = _
    rw [get, stream?_setStream]
    split
    · exact .inr rfl
    · exact .inl rfl

/-- A frame without a header block brings no state to wait for. -/
theorem pending_stateMachine_plain (con : Connection) {type : FrameType} (hType : type.Plain) (act : Act)
    (flags : UInt8) (on sid : Nat) :
    (con.stateMachine act type flags on).get sid Stream.pendingState =
        con.get sid Stream.pendingState ∨
      (con.stateMachine act type flags on).get sid Stream.pendingState = none := by
  obtain ⟨made, hMade, hTurn⟩ := stateMachine_plain con hType act flags on
  have hSame : made.get sid Stream.pendingState = con.get sid Stream.pendingState := by
    rcases hMade with rfl | rfl
    · rfl
    · exact get_vivify rfl con _ sid
  rw [← hSame]
  rcases hTurn with hIgnored | ⟨code, hError⟩ | ⟨new, -, hNew⟩
  · exact .inl (by rw [hIgnored])
  · exact .inl (by rw [hError, get, stream?_setError, get])
  · rw [hNew]
    exact get_setState (fun _ _ => rfl) (fun _ => rfl) made on sid new

theorem pending_setState {on : Nat} {new : StreamState}
    (h : (con.setState on new).get sid Stream.pendingState = some .halfClosed) :
    con.get sid Stream.pendingState = some .halfClosed := by
  rcases @get_setState _ Stream.pendingState (fun _ _ => rfl) (fun _ => rfl) con on sid new
    with hSame | hNone
  · exact hSame ▸ h
  · rw [hNone] at h
    cases h

theorem pending_setError {code : ErrorCode}
    (h : (con.setError code).get sid Stream.pendingState = some .halfClosed) :
    con.get sid Stream.pendingState = some .halfClosed := by
  rw [get, stream?_setError] at h
  exact h

theorem pending_closed {pending : Bool}
    (h : (con.streamState sid .closed pending).get sid Stream.pendingState = some .halfClosed) :
    con.get sid Stream.pendingState = some .halfClosed := by
  cases pending with
  | false => exact pending_setState h
  | true =>
    rcases get_pending_setPendingState con sid sid (some .closed) with hSame | hNew
    · exact hSame ▸ h
    · rw [show (con.streamState sid .closed true).get sid Stream.pendingState = _ from hNew] at h
      cases h

/-- A HEADERS frame of a server half-closes an open stream only, with the end of the block. -/
theorem pending_stateStep_headers (hServer : con.type = .server) {flags : UInt8}
    {promisedSid : Option Nat} {prev : Option StreamState} (hPrev : prev ≠ some .reserved)
    (h : (con.stateStep .send .headers flags sid promisedSid prev).get sid Stream.pendingState =
      some .halfClosed) :
    con.get sid Stream.pendingState = some .halfClosed ∨
      hasFlag flags Flag.endStream = true ∧ prev = some .opened := by
  unfold stateStep at h
  simp only [hServer] at h
  cases prev with
  | none => exact .inl (pending_setError h)
  | some state =>
    cases state with
    | idle => exact .inl (pending_setError h)
    | reserved => exact absurd rfl hPrev
    | opened =>
      dsimp only at h
      split at h
      · next hEnd => exact .inr ⟨hEnd.1, rfl⟩
      · rw [if_neg (by decide)] at h
        split at h
        · exact .inl (pending_setError h)
        · exact .inl h
    | halfClosed =>
      dsimp only at h
      split at h
      · exact .inl (pending_closed h)
      · rw [if_neg (by simp)] at h
        exact .inl h
    | closed =>
      dsimp only at h
      rw [if_neg (by simp)] at h
      exact .inl h

/-- The state that waits for the end of a header block after a frame was sent. -/
theorem pending_stateMachine (hCon : con.Registered) {type : FrameType} (hPush : type ≠ .pushPromise)
    {flags : UInt8}
    (hHalf : (con.stateMachine .send type flags sid).get sid Stream.pendingState = some .halfClosed) :
    con.get sid Stream.pendingState = some .halfClosed ∨
      type = .headers ∧ hasFlag flags Flag.endStream = true ∧ con.standing sid = some .opened := by
  by_cases hType : type.Plain
  · left
    rcases pending_stateMachine_plain con hType .send flags sid sid with hSame | hNone
    · exact hSame ▸ hHalf
    · rw [hNone] at hHalf
      cases hHalf
  have hMade := @get_vivify _ Stream.pendingState rfl con
    ((con.get sid Stream.promisedSid).getD sid) sid
  have hPrev : (con.vivify ((con.get sid Stream.promisedSid).getD sid)).get
      ((con.get sid Stream.promisedSid).getD sid) Stream.state = con.standing sid :=
    get_vivify rfl con _ _
  have hServer : (con.vivify ((con.get sid Stream.promisedSid).getD sid)).type = .server :=
    ((quiet_vivify con _).type).trans hCon.server
  rw [stateMachine] at hHalf
  split at hHalf
  · exact .inl hHalf
  · dsimp only at hHalf
    rw [hPrev] at hHalf
    generalize con.vivify _ = made at hMade hServer hHalf
    rw [← hMade]
    split at hHalf
    · exact .inl hHalf
    · split at hHalf
      · split at hHalf
        · exact .inl (pending_setError hHalf)
        · split at hHalf
          · left
            have hUnset := pending_setState hHalf
            rcases get_pending_setPendingState (if (con.get sid Stream.promisedSid).isSome then
              made.clearPromised sid else made) ((con.get sid Stream.promisedSid).getD sid) sid none
              with hSame | hNone
            · rw [hSame] at hUnset
              split at hUnset
              · have hCleared : (made.clearPromised sid).get sid Stream.pendingState =
                    made.get sid Stream.pendingState :=
                  get_modifyStream (f := fun s => { s with promisedSid := none }) (fun _ => rfl) made sid
                    sid
                exact hCleared ▸ hUnset
              · exact hUnset
            · rw [hNone] at hUnset
              cases hUnset
          · exact .inl hHalf
      · split at hHalf
        · exact .inl (pending_setError hHalf)
        · next hBlock =>
          have hHeaders : type = .headers := by
            by_contra hOther
            exact hType ⟨hOther, hPush, hBlock⟩
          subst hHeaders
          exact (pending_stateStep_headers hServer (hCon.standing sid) hHalf).imp_right
            fun hEnds => ⟨rfl, hEnds⟩

/-- A step that forgets a promise at most. -/
def Forgets (sid : Nat) (con con' : Connection) : Prop :=
  con'.get sid Stream.promisedSid = con.get sid Stream.promisedSid ∨
    con'.get sid Stream.promisedSid = none

theorem Forgets.trans (h : Forgets sid con con') (h' : Forgets sid con' con'') :
    Forgets sid con con'' := by
  rcases h' with hSame | hNone
  · rw [Forgets, hSame]
    exact h
  · exact .inr hNone

theorem forgets_clearPromised (con : Connection) (on : Nat) : Forgets sid con (con.clearPromised on) := by
  rw [Forgets, clearPromised, get, stream?_modifyStream]
  split
  · right
    cases con.stream? on <;> rfl
  · exact .inl rfl

theorem respects_forgets (sid : Nat) : Respects (Forgets sid) where
  refl _ := .inl rfl
  trans := .trans
  vivify con on := .inl (get_vivify rfl con on sid)
  setState con on := get_setState (fun _ _ => rfl) (fun _ => rfl) con on sid
  setPendingState con on pending := .inl (get_setPendingState (fun _ _ => rfl) con on sid pending)
  clearPromised := forgets_clearPromised
  setError con code := .inl (by rw [get, stream?_setError, get])

/-- The streams that a block on the stream may end the requests of are complete. -/
def BothComplete (con : Connection) (sid : Nat) : Prop :=
  con.Complete sid ∧ con.Complete ((con.get sid Stream.promisedSid).getD sid)

/-- A header block that the stream waits for ends no request that is not complete. -/
def Poised (con : Connection) (sid : Nat) : Prop :=
  con.get sid Stream.pendingState = some .halfClosed → con.BothComplete sid

/-- One frame of a header block that the server sends. -/
theorem fair_sendFragment (hCon : con.Registered) (hPoised : con.Poised sid) {d : FrameData}
    (hType : d.type = .headers ∨ d.type = .continuation) {flags : UInt8}
    (hEnds : hasFlag flags Flag.endStream = true → con.standing sid = some .opened →
      con.BothComplete sid) :
    Fair own con (con.enqueue d flags sid) ∧ (con.enqueue d flags sid).Poised sid := by
  have hPush : d.type ≠ .pushPromise := by
    rcases hType with hType | hType <;> simp [hType]
  have hFair (own : Set Nat) : Fair own con (con.enqueue d flags sid) := by
    refine fair_enqueue con hPush flags sid fun on hOn => ?_
    generalize d.type = type at hOn
    cases hOn with
    | data _ hEnd hOpened => exact (hEnds hEnd hOpened).1
    | headers _ hEnd _ hWaits => exact (hEnds hEnd (hWaits.resolve_right fun h => nomatch h.2)).1
    | block _ hHalf => exact (hPoised hHalf).2
  refine ⟨hFair own, fun hHalf => ?_⟩
  have hQueued := fair_encoded con d flags sid
  have hBoth : con.BothComplete sid := by
    rcases pending_stateMachine (hQueued.registered hCon) hPush hHalf with hBefore | ⟨-, hEnd, hOpened⟩
    · exact hPoised ((get_encoded (fun _ _ => rfl) ..).symm.trans hBefore)
    · refine hEnds hEnd ?_
      rw [standing, get_encoded fun _ _ => rfl, get_encoded fun _ _ => rfl] at hOpened
      exact hOpened
  have hKept {on : Nat} (h : con.Complete on) : (con.enqueue d flags sid).Complete on :=
    (hFair ∅).complete hCon (Set.notMem_empty _) h
  refine ⟨hKept hBoth.1, ?_⟩
  rcases (respects_forgets sid).stateMachine ((con.encodeEffect d sid).push
    (con.frameEncode d flags sid).2) .send d.type flags sid with hSame | hNone
  · rw [show (con.enqueue d flags sid).get sid Stream.promisedSid = _ from hSame,
      get_encoded fun _ _ => rfl]
    exact hKept hBoth.2
  · rw [show (con.enqueue d flags sid).get sid Stream.promisedSid = _ from hNone]
    exact hKept hBoth.1

theorem fair_sendContinuations (maxSize sid fuel : Nat) :
    ∀ {con : Connection} (block : Octets), con.Registered → con.Poised sid →
      Fair own con (sendContinuations maxSize sid fuel con block) := by
  induction fuel with
  | zero => exact fun {con} _ _ _ => .refl own con
  | succ fuel ih =>
    intro con block hCon hPoised
    rw [sendContinuations]
    split
    · have hEnd : hasFlag (if block.length ≤ maxSize then 0 else Flag.endHeaders) Flag.endStream ≠ true := by
        split <;> decide
      obtain ⟨hFair, hNext⟩ := @fair_sendFragment _ own _ hCon hPoised
        (.continuation (block.take maxSize)) (.inr rfl) _ fun h _ => absurd h hEnd
      exact hFair.trans (ih _ (hFair.registered hCon) hNext)
    · exact .refl own con

theorem fair_sendHeaders (con : Connection) (sid : Nat) (headers : List Header) {ended : Bool}
    (hPoised : con.Poised sid)
    (hEnds : ended = true → con.standing sid = some .opened → con.BothComplete sid) :
    Fair own con (con.sendHeaders sid headers ended) := by
  refine Fair.of_registered fun hCon => ?_
  rw [sendHeaders]
  dsimp only
  generalize headersEncode con.encodeCtx headers = encoded
  generalize con.encSetting Setting.maxFrameSize = maxSize
  have hCtx : Fair own con { con with encodeCtx := encoded.1 } := fair_of_streams rfl rfl rfl
  have hEnd : hasFlag (if encoded.2.length ≤ maxSize then
      (if ended then Flag.endStream else 0) ||| Flag.endHeaders else if ended then Flag.endStream else 0)
      Flag.endStream = true → ended = true := by
    cases ended with
    | true => exact fun _ => rfl
    | false =>
      intro hFlag
      exfalso
      revert hFlag
      split <;> decide
  obtain ⟨hFirst, hNext⟩ := @fair_sendFragment _ own _ (hCtx.registered hCon) hPoised
    (.headers { hblock := encoded.2.take maxSize }) (.inl rfl) _ fun h => hEnds (hEnd h)
  exact (hCtx.trans hFirst).trans (fair_sendContinuations maxSize sid _ _
    (hFirst.registered (hCtx.registered hCon)) hNext)

/-! ### Sending data -/

theorem fair_addFcwSend (con : Connection) (delta : Int) : Fair own con (con.addFcwSend delta) :=
  fair_of_streams rfl rfl rfl

theorem fair_addStreamFcwSend (con : Connection) (sid : Nat) (delta : Int) :
    Fair own con (con.addStreamFcwSend sid delta) :=
  fair_modifyStream_same con sid (fun _ => rfl) (fun _ => rfl) (fun _ => rfl) (fun _ => rfl)
    fun _ => rfl

/-- Data that does not end the stream changes none. -/
theorem get_stateMachine_data {α : Type} {field : Stream → Option α} (hField : field {} = none)
    {flags : UInt8} (hEnd : hasFlag flags Flag.endStream = false) (sid other : Nat) :
    (con.stateMachine .send .data flags sid).get other field = con.get other field := by
  obtain ⟨made, hMade, hSame⟩ :=
    stream?_stateMachine_unflagged con plain_data (by decide) hEnd .send sid
  rw [get, hSame, ← get]
  rcases hMade with rfl | rfl
  · rfl
  · exact get_vivify hField con _ other

theorem standing_charged (con : Connection) (sid : Nat) (size : Int) (flags : UInt8)
    (payload : Octets) (other : Nat) :
    (con.charged sid size flags payload).standing other = con.standing other := by
  rw [standing, get_charged fun _ _ => rfl, get_charged fun _ _ => rfl, standing]

/-- A DATA frame that is sent. -/
theorem fair_sendTurn (con : Connection) (sid : Nat) (size : Int) {flags : UInt8} (payload : Octets)
    (hEnds : hasFlag flags Flag.endStream = true → con.standing sid = some .opened → con.Complete sid) :
    Fair own con (con.sendTurn sid size flags payload) := by
  refine Fair.of_registered fun hCon => ?_
  have hCharged : Fair ∅ con (con.charged sid size flags payload) :=
    ((fair_addFcwSend con _).trans (fair_addStreamFcwSend _ _ _)).trans (fair_push _ _)
  refine (hCharged.mono (Set.empty_subset own)).trans ?_
  rw [sendTurn]
  have hPush : FrameType.data = .pushPromise → Act.send = .recv := by decide
  refine fair_stateMachine _ hPush flags sid fun on hOn => ?_
  cases hOn with
  | data _ hEnd hOpened =>
    rw [standing_charged] at hOpened
    exact hCharged.complete hCon (Set.notMem_empty _) (hEnds hEnd hOpened)

/-- The loop of `send_data`: only its last frame may end the stream. -/
theorem fair_sendDataLoop (sid : Nat) (ended : Bool) (fuel : Nat) :
    ∀ {con : Connection} (data : Octets), con.Registered →
      (ended = true → con.standing sid = some .opened → con.Complete sid) →
        Fair own con (sendDataLoop sid ended fuel con data).1 := by
  induction fuel with
  | zero => exact fun {con} _ _ _ => .refl own con
  | succ fuel ih =>
    intro con data hCon hEnds
    rw [sendDataLoop_succ]
    dsimp only
    generalize con.sendSize sid data.length = size
    split
    · exact .refl own con
    · by_cases hAll : (data.length : Int) = size
      · rw [if_pos hAll]
        refine fair_sendTurn con sid size _ fun hEnd => hEnds ?_
        by_contra hNot
        rw [if_neg fun hBoth => hNot hBoth.1] at hEnd
        exact absurd hEnd (by decide)
      · rw [if_neg hAll, if_neg fun hBoth => hAll hBoth.2]
        have hTurn (own : Set Nat) : Fair own con
            (con.sendTurn sid size 0 (data.take size.toNat)) :=
          fair_sendTurn con sid size _ fun hEnd => absurd hEnd (by decide)
        have hServer : (con.charged sid size 0 (data.take size.toNat)).type = .server := by
          rw [charged, push, addStreamFcwSend]
          exact (type_modifyStream ..).trans hCon.server
        have hGet {α : Type} {field : Stream → Option α} (hField : field {} = none)
            (hShift : ∀ delta s, field (shift delta s) = field s) (other : Nat) :
            (con.sendTurn sid size 0 (data.take size.toNat)).get other field = con.get other field :=
          (get_stateMachine_data hField (by decide) sid other).trans (get_charged hShift ..)
        refine (hTurn own).trans (ih _ ((hTurn own).registered hCon) fun hEnded hOpened => ?_)
        rw [standing, hGet rfl fun _ _ => rfl, hGet rfl fun _ _ => rfl] at hOpened
        exact (hTurn ∅).complete hCon (Set.notMem_empty _) (hEnds hEnded hOpened)

theorem fair_setEnded (con : Connection) (sid : Nat) (ended : Option Bool) :
    Fair own con (con.setEnded sid ended) := by
  rw [setEnded]
  split
  · exact fair_modifyStream_same con sid (fun _ => rfl) (fun _ => rfl) (fun _ => rfl) (fun _ => rfl)
      fun _ => rfl
  · exact .refl own con

theorem fair_sendData (con : Connection) (sid : Nat) (chunk : Octets) {ended : Option Bool}
    (hEnds : ended.or (con.get sid Stream.ended) = some true → con.standing sid = some .opened →
      con.Complete sid) : Fair own con (con.sendData sid chunk ended) := by
  refine Fair.of_registered fun hCon => ?_
  have hSet : Fair ∅ con (con.setEnded sid ended) := fair_setEnded con sid ended
  have hStanding : (con.setEnded sid ended).standing sid = con.standing sid := by
    rw [standing, get_setEnded fun _ _ => rfl, get_setEnded fun _ _ => rfl, standing]
  have hFlag (h : ((con.setEnded sid ended).get sid Stream.ended).getD false = true) :
      ended.or (con.get sid Stream.ended) = some true := by
    cases hs : con.stream? sid with
    | none =>
      have hNone : (con.setEnded sid ended).stream? sid = none := by
        rw [setEnded]
        split
        · rw [stream?_modifyStream_self, hs]
          rfl
        · exact hs
      rw [get_of_none hNone] at h
      cases h
    | some s =>
      rw [get_of_some (stream?_setEnded hs ended)] at h
      rw [get_of_some hs]
      exact Option.getD_eq_iff.mp h |>.resolve_right fun hFalse => Bool.false_ne_true hFalse.2
  rw [sendData_setEnded]
  dsimp only
  have hLoop := @fair_sendDataLoop own sid (((con.setEnded sid ended).get sid Stream.ended).getD
    false) (((con.get sid Stream.blockedData).getD [] ++ chunk).length + 3) _
    ((con.get sid Stream.blockedData).getD [] ++ chunk) (hSet.registered hCon) fun hEnded hOpened =>
      hSet.complete hCon (Set.notMem_empty _) (hEnds (hFlag hEnded) (hStanding ▸ hOpened))
  exact ((hSet.mono (Set.empty_subset own)).trans hLoop).trans (fair_modifyStream_same _ sid
    (fun _ => rfl) (fun _ => rfl) (fun _ => rfl) (fun _ => rfl) fun _ => rfl)

/-! ### Data that waited -/

/-- The server has announced the end of its data on a stream that the client has not ended. -/
def Ending (con : Connection) (sid : Nat) : Prop :=
  con.get sid Stream.ended = some true ∧ con.standing sid = some .opened

/-- What a DATA frame that is sent does to its stream. -/
theorem get_stateMachine_sent (con : Connection) (flags : UInt8) (sid : Nat) :
    ((con.stateMachine .send .data flags sid).get sid Stream.state = con.get sid Stream.state ∨
      (con.stateMachine .send .data flags sid).get sid Stream.state = some .halfClosed) ∧
      (con.stateMachine .send .data flags sid).get sid Stream.ended = con.get sid Stream.ended ∧
      (con.stateMachine .send .data flags sid).get sid Stream.promisedSid =
        con.get sid Stream.promisedSid ∨
    (con.stateMachine .send .data flags sid).get sid Stream.state = some .closed ∧
      (con.stateMachine .send .data flags sid).get sid Stream.ended = none := by
  obtain ⟨made, hMade, hTurn⟩ := stateMachine_plain con plain_data .send flags sid
  have hSame {α : Type} (field : Stream → Option α) (hField : field {} = none) :
      made.get sid field = con.get sid field := by
    rcases hMade with rfl | rfl
    · rfl
    · exact get_vivify hField con _ sid
  rw [← hSame Stream.state rfl, ← hSame Stream.ended rfl, ← hSame Stream.promisedSid rfl]
  rcases hTurn with hIgnored | ⟨code, hError⟩ | ⟨new, hEnters, hNew⟩
  · rw [hIgnored]
    exact .inl ⟨.inl rfl, rfl, rfl⟩
  · have hRaised {α : Type} (field : Stream → Option α) :
        (made.setError code).get sid field = made.get sid field := by
      rw [get, stream?_setError, get]
    rw [hError]
    exact .inl ⟨.inl (hRaised _), hRaised _, hRaised _⟩
  · rw [hNew]
    cases hs : made.stream? sid with
    | none =>
        rw [setState, hs]
        exact .inl ⟨.inl rfl, rfl, rfl⟩
    | some s =>
        have hAfter := get_state_setState hs new
        rcases hEnters.new with rfl | rfl
        · have hStream := stream?_setState hs (by decide : StreamState.halfClosed ≠ .closed)
          refine .inl ⟨.inr hAfter, ?_, ?_⟩
          · rw [get_of_some hStream, get_of_some hs]
          · rw [get_of_some hStream, get_of_some hs]
        · refine .inr ⟨hAfter, ?_⟩
          simp only [setState, hs, if_true]
          rw [get, stream?_modifyStream_self, stream?_countClosed, stream?_runCallbacks,
            stream?_setStream_self]
          rfl

/-- Sending data brings no stream to its end. -/
theorem ending_sendTurn (con : Connection) (on : Nat) (size : Int) (flags : UInt8)
    (payload : Octets) (hEnding : (con.sendTurn on size flags payload).Ending sid) : con.Ending sid := by
  have hCharged : (con.charged on size flags payload).Ending sid → con.Ending sid := by
    rw [Ending, standing_charged, get_charged fun _ _ => rfl]
    exact id
  refine hCharged ?_
  rw [sendTurn] at hEnding
  generalize con.charged on size flags payload = con at hEnding ⊢
  obtain ⟨hEnded, hOpened⟩ := hEnding
  have hOther {α : Type} {field : Stream → Option α} (hField : field {} = none) {other : Nat}
      (hNe : other ≠ on) :
      (con.stateMachine .send .data flags on).get other field = con.get other field :=
    get_stateMachine_of_ne hField plain_data hNe .send flags
  have hOwn := get_stateMachine_sent con flags on
  have hState (other : Nat)
      (h : (con.stateMachine .send .data flags on).get other Stream.state = some .opened) :
      con.get other Stream.state = some .opened := by
    by_cases hNe : other = on
    · subst hNe
      rcases hOwn with ⟨hSame | hHalf, -⟩ | ⟨hClosed, -⟩
      · rw [← hSame, h]
      · rw [hHalf] at h
        cases h
      · rw [hClosed] at h
        cases h
    · rw [← hOther rfl hNe, h]
  by_cases hNe : sid = on
  · subst hNe
    rcases hOwn with ⟨-, hSameEnded, hSamePromised⟩ | ⟨-, hNone⟩
    · rw [standing, hSamePromised] at hOpened
      exact ⟨hSameEnded ▸ hEnded, hState _ hOpened⟩
    · rw [hNone] at hEnded
      cases hEnded
  · rw [standing, hOther rfl hNe] at hOpened
    rw [hOther rfl hNe] at hEnded
    exact ⟨hEnded, hState _ hOpened⟩

theorem ending_streamSendBlocked (con : Connection) (on : Nat)
    (hEnding : (con.streamSendBlocked on).Ending sid) : con.Ending sid := by
  have hLeft (con : Connection) (left : Octets)
      (h : (con.modifyStream on fun s => { s with blockedData := some left }).Ending sid) :
      con.Ending sid := by
    have hGet {α : Type} {field : Stream → Option α}
        (hField : ∀ s : Stream, field { s with blockedData := some left } = field s) (other : Nat) :
        (con.modifyStream on fun s => { s with blockedData := some left }).get other field =
          con.get other field := get_modifyStream hField con on other
    rw [Ending, standing, hGet fun _ => rfl, hGet fun _ => rfl, hGet fun _ => rfl] at h
    exact h
  rw [streamSendBlocked] at hEnding
  split at hEnding
  · exact hEnding
  · split at hEnding
    · rw [sendData_setEnded] at hEnding
      dsimp only at hEnding
      have hLoop := @sendDataLoop_rule on ((con.get on Stream.ended).getD false)
        (fun con' _ => con'.Ending sid → con.Ending sid)
        (fun con' _ flags h _ hAfter => h (ending_sendTurn con' on _ flags _ hAfter))
        (((con.get on Stream.blockedData).getD [] ++ []).length + 3) con
        ((con.get on Stream.blockedData).getD [] ++ []) id
      exact hLoop (hLeft _ _ hEnding)
    · exact hEnding

/-- The data that waits on a stream. -/
theorem fair_streamSendBlocked (con : Connection) (sid : Nat)
    (hEnds : con.Ending sid → con.Complete sid) : Fair own con (con.streamSendBlocked sid) := by
  rw [streamSendBlocked]
  split
  · exact .refl own con
  · split
    · exact fair_sendData con sid [] fun hEnded hOpened => hEnds ⟨hEnded, hOpened⟩
    · exact .refl own con

theorem fair_sendBlocked (ord : HashOrder) (con : Connection)
    (hEnds : ∀ sid, con.Ending sid → con.Complete sid) : Fair own con (con.sendBlocked ord) := by
  rw [sendBlocked]
  generalize ord.order con.streams.keys = keys
  induction keys generalizing con with
  | nil => exact .refl own con
  | cons key keys ih =>
    refine Fair.of_registered fun hCon => ?_
    have hFirst (own : Set Nat) : Fair own con (con.streamSendBlocked key) :=
      fair_streamSendBlocked con key (hEnds key)
    refine (hFirst own).trans (ih _ fun sid hEnding => ?_)
    exact (hFirst ∅).complete hCon (Set.notMem_empty _)
      (hEnds sid (ending_streamSendBlocked con key hEnding))

end Connection
end PageCamel.Http2

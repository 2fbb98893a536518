import PageCamel.Http2.StreamEnds

/-!
What a connection owes its peer stays as it is, unless data is sent or the peer opens a window:
the send windows, the data that is blocked and the DATA frames in the queue. On an endpoint that
receives no PUSH_PROMISE no stream without a state gets one.
-/

namespace PageCamel.Http2
open PageCamel.Lib

/-- The stream promises nothing, and only one that is not closed waits for CONTINUATION frames. -/
structure Stream.Proper (s : Stream) : Prop where
  promised : s.promisedSid = none
  pending : s.pendingState ≠ none → s.state ≠ none ∧ s.state ≠ some .closed

/-- The stream has a state other than closed. -/
def Stream.Live (s : Stream) : Prop := s.state ≠ none ∧ s.state ≠ some .closed

/-- The window of the stream is where it was and no other data is blocked; among proper streams
it does not come to life. -/
structure Stream.Steady (firm : Prop) (s s' : Stream) : Prop where
  window : s'.fcwSend = s.fcwSend
  blocked : s'.blockedData.getD [] ≠ [] → s'.blockedData = s.blockedData
  proper : firm → s'.Proper
  live : firm → s'.Live → s.Live

namespace Connection

variable {con con' con'' : Connection} {promises firm : Prop}

def Proper (con : Connection) : Prop := ∀ sid s, con.stream? sid = some s → s.Proper

def Live (con : Connection) (sid : Nat) : Prop := ∃ s, con.stream? sid = some s ∧ s.Live

/-- The stream has just been opened, with the window streams start with. Only a PUSH_PROMISE
opens one that is there already. -/
structure Opened (promises : Prop) (con con' : Connection) (sid : Nat) : Prop where
  fresh : promises ∨ con.stream? sid = none
  goaway : con.goaway = false
  window : con'.get sid Stream.fcwSend = some (con.initialWindow : Int)
  blocked : (con'.get sid Stream.blockedData).getD [] = []

/-- The connection shuts down because of an error, and opens no stream after that. -/
def Announced (con : Connection) : Prop :=
  con.shutdown = true → con.goaway = true ∧ con.error.isSome

/-- From `con` to `con'` the send windows and the data stay as they are; a stream that is
opened has the initial window. In a `firm` step no stream comes to life otherwise. -/
structure Steady (promises firm : Prop) (con con' : Connection) : Prop where
  data : dataFrames con'.queue = dataFrames con.queue
  queue : con.queue ⊆ con'.queue
  settings : con'.encodeCtx.settings = con.encodeCtx.settings
  fcwSend : con'.fcwSend = con.fcwSend
  preface : con'.preface = con.preface
  error : con.error.isSome → con'.error.isSome
  goaway : con.goaway = true → con'.goaway = true
  announced : con.Announced → con'.Announced
  streams : ∀ sid, (con.stream? sid).isSome → (con'.stream? sid).isSome
  window : ∀ sid, con'.get sid Stream.fcwSend = con.get sid Stream.fcwSend ∨
    Opened promises con con' sid
  blocked : ∀ sid, (con'.get sid Stream.blockedData).getD [] ≠ [] →
    con'.get sid Stream.blockedData = con.get sid Stream.blockedData
  proper : firm → con.Proper → con'.Proper
  live : firm → con.Proper → ∀ sid, con'.Live sid → con.Live sid ∨ Opened promises con con' sid

theorem Steady.refl (con : Connection) : Steady promises firm con con :=
  ⟨rfl, fun _ h => h, rfl, rfl, rfl, id, id, id, fun _ h => h, fun _ => .inl rfl, fun _ _ => rfl,
    fun _ h => h, fun _ _ _ h => .inl h⟩

theorem Steady.initialWindow (h : Steady promises firm con con') :
    con'.initialWindow = con.initialWindow := by
  rw [Connection.initialWindow, encSetting, h.settings]
  rfl

/-- What is open after the first of two steps keeps its window in the second. -/
theorem Steady.opened (h : Steady promises firm con con') (h' : Steady promises firm con' con'') {sid : Nat}
    (hOpened : Opened promises con con' sid) : Opened promises con con'' sid := by
  refine ⟨hOpened.fresh, hOpened.goaway, ?_, ?_⟩
  · rcases h'.window sid with hSame | hAgain
    · rw [hSame]
      exact hOpened.window
    · rw [hAgain.window, h.initialWindow]
  · by_contra hData
    have hSame := h'.blocked sid hData
    rw [hSame] at hData
    exact hData hOpened.blocked

/-- What was not there before the second step was not there before the first. -/
theorem Steady.opened_before (h : Steady promises firm con con') {sid : Nat}
    (hOpened : Opened promises con' con'' sid) : Opened promises con con'' sid := by
  refine ⟨hOpened.fresh.imp_right fun hNone => ?_, ?_, h.initialWindow ▸ hOpened.window,
    hOpened.blocked⟩
  · rw [← Option.not_isSome_iff_eq_none] at hNone ⊢
    exact fun hSome => hNone (h.streams sid hSome)
  · have hStill := hOpened.goaway
    rw [← Bool.not_eq_true] at hStill ⊢
    exact fun hGoing => hStill (h.goaway hGoing)

theorem Steady.trans (h : Steady promises firm con con') (h' : Steady promises firm con' con'') :
    Steady promises firm con con'' where
  data := h'.data.trans h.data
  queue := fun _ hMem => h'.queue (h.queue hMem)
  settings := h'.settings.trans h.settings
  fcwSend := h'.fcwSend.trans h.fcwSend
  preface := h'.preface.trans h.preface
  error hError := h'.error (h.error hError)
  goaway hGoing := h'.goaway (h.goaway hGoing)
  announced hAnnounced := h'.announced (h.announced hAnnounced)
  streams sid hSome := h'.streams sid (h.streams sid hSome)
  window sid := by
    rcases h'.window sid with hSame | hOpened
    · rcases h.window sid with hBefore | hOpened
      · exact .inl (hSame.trans hBefore)
      · exact .inr (h.opened h' hOpened)
    · exact .inr (h.opened_before hOpened)
  blocked sid hData := by
    have hSame := h'.blocked sid hData
    rw [hSame] at hData ⊢
    exact h.blocked sid hData
  proper hFirm hProper := h'.proper hFirm (h.proper hFirm hProper)
  live hFirm hProper sid hLive := by
    rcases h'.live hFirm (h.proper hFirm hProper) sid hLive with hMid | hOpened
    · exact (h.live hFirm hProper sid hMid).imp_right (h.opened h')
    · exact .inr (h.opened_before hOpened)

theorem chains_steady : Chains (Steady promises firm) := ⟨.refl, .trans⟩

theorem steady_foldl {α : Type} {f : Connection → α → Connection}
    (hStep : ∀ con a, Steady promises firm con (f con a)) (l : List α) (con : Connection) :
    Steady promises firm con (l.foldl f con) := by
  induction l generalizing con with
  | nil => exact .refl con
  | cons a l ih => exact (hStep con a).trans (ih (f con a))

/-! ### Elementary changes -/

/-- A change beside the streams. -/
theorem steady_of_streams (hData : dataFrames con'.queue = dataFrames con.queue)
    (hQueue : con.queue ⊆ con'.queue) (hSettings : con'.encodeCtx.settings = con.encodeCtx.settings)
    (hSend : con'.fcwSend = con.fcwSend) (hPreface : con'.preface = con.preface) (hError : con.error.isSome → con'.error.isSome)
    (hGoaway : con.goaway = true → con'.goaway = true) (hAnnounced : con.Announced → con'.Announced)
    (hStreams : con'.streams = con.streams) : Steady promises firm con con' := by
  have hStream (sid : Nat) : con'.stream? sid = con.stream? sid := by rw [stream?, hStreams, stream?]
  have hGet {α : Type} (sid : Nat) (field : Stream → Option α) : con'.get sid field = con.get sid field := by
    rw [get, hStream, get]
  refine ⟨hData, hQueue, hSettings, hSend, hPreface, hError, hGoaway, hAnnounced, fun sid hSome => ?_,
    fun sid => .inl (hGet sid _), fun sid _ => hGet sid _, fun _ hProper sid s hs => ?_,
    fun _ _ sid hLive => .inl ?_⟩
  · rw [hStream]
    exact hSome
  · rw [hStream] at hs
    exact hProper sid s hs
  · rw [Live, hStream] at hLive
    exact hLive

/-- A change of the queue by frames that are no DATA frames. -/
theorem steady_push (con : Connection) {frame : Frame} (hType : frame.type ≠ .data) :
    Steady promises firm con (con.push frame) := by
  refine steady_of_streams ?_ (List.subset_append_left ..) rfl rfl rfl id id id rfl
  rw [push, dataFrames_append, dataFrames_of_ne hType]
  exact List.append_nil _

/-- A stream changes, which leaves its window and its data alone. -/
theorem steady_setStream {sid : Nat} {s s' : Stream} (hs : con.stream? sid = some s)
    (hSteady : s.Steady (firm ∧ con.Proper) s') :
    Steady promises firm con (con.setStream sid s') := by
  refine ⟨rfl, fun _ h => h, rfl, rfl, rfl, id, id, id, fun other hSome => ?_, fun other => .inl ?_,
    fun other hData => ?_, fun hFirm hProper other t ht => ?_, fun hFirm hProper other hLive => .inl ?_⟩
  · rw [stream?_setStream]
    split
    · rfl
    · exact hSome
  · rw [get, get, stream?_setStream]
    split
    · next hEq =>
      rw [hEq, hs]
      exact hSteady.window
    · rfl
  · rw [get, stream?_setStream] at hData ⊢
    rw [get]
    split at hData
    · next hEq =>
      rw [if_pos hEq, hEq, hs]
      exact hSteady.blocked hData
    · next hNe => rw [if_neg hNe]
  · rw [stream?_setStream] at ht
    split at ht
    · cases ht
      exact hSteady.proper ⟨hFirm, hProper⟩
    · exact hProper other t ht
  · obtain ⟨t, ht, hAlive⟩ := hLive
    rw [stream?_setStream] at ht
    split at ht
    · next hEq =>
      cases ht
      exact ⟨s, hEq ▸ hs, hSteady.live ⟨hFirm, hProper⟩ hAlive⟩
    · exact ⟨t, ht, hAlive⟩

/-- A stream is opened with the window streams start with. -/
theorem steady_setStream_new {sid : Nat} {s : Stream} (hFresh : promises ∨ con.stream? sid = none)
    (hGoaway : con.goaway = false) (hWindow : s.fcwSend = some (con.initialWindow : Int))
    (hBlocked : s.blockedData = none) (hProper : s.Proper) :
    Steady promises firm con (con.setStream sid s) := by
  have hOpened : Opened promises con (con.setStream sid s) sid := by
    refine ⟨hFresh, hGoaway, ?_, ?_⟩
    · rw [get_of_some (stream?_setStream_self ..)]
      exact hWindow
    · rw [get_of_some (stream?_setStream_self ..), hBlocked]
      rfl
  refine ⟨rfl, fun _ h => h, rfl, rfl, rfl, id, id, id, fun other hSome => ?_, fun other => ?_,
    fun other hData => ?_, fun hFirm hBefore other t ht => ?_, fun hFirm hBefore other hLive => ?_⟩
  · rw [stream?_setStream]
    split
    · rfl
    · exact hSome
  · by_cases hEq : other = sid
    · exact .inr (hEq ▸ hOpened)
    · rw [get, stream?_setStream, if_neg hEq]
      exact .inl rfl
  · rw [get, stream?_setStream] at hData ⊢
    split at hData
    · rw [Option.bind_some, hBlocked] at hData
      exact absurd rfl hData
    · next hNe =>
      rw [if_neg hNe]
      rfl
  · rw [stream?_setStream] at ht
    split at ht
    · cases ht
      exact hProper
    · exact hBefore other t ht
  · by_cases hEq : other = sid
    · exact .inr (hEq ▸ hOpened)
    · obtain ⟨t, ht, hAlive⟩ := hLive
      rw [stream?_setStream, if_neg hEq] at ht
      exact .inl ⟨t, ht, hAlive⟩

theorem steady_modifyStream (con : Connection) (sid : Nat) {f : Stream → Stream}
    (hSteady : ∀ s : Stream, con.stream? sid = some s → s.Steady (firm ∧ con.Proper) (f s)) :
    Steady promises firm con (con.modifyStream sid f) := by
  cases hs : con.stream? sid with
  | none => exact (modifyStream_of_none hs f).symm ▸ .refl con
  | some s =>
    rw [modifyStream_of_some hs]
    exact steady_setStream hs (hSteady s hs)

/-- A change of fields that neither the window nor the state depends on. -/
theorem steady_modifyStream_same (con : Connection) (sid : Nat) {f : Stream → Stream}
    (hState : ∀ s, (f s).state = s.state) (hPending : ∀ s, (f s).pendingState = s.pendingState)
    (hPromised : ∀ s, (f s).promisedSid = s.promisedSid)
    (hBlocked : ∀ s, (f s).blockedData = s.blockedData) (hWindow : ∀ s, (f s).fcwSend = s.fcwSend) :
    Steady promises firm con (con.modifyStream sid f) := by
  refine steady_modifyStream con sid fun s hs => ⟨hWindow s, fun _ => hBlocked s,
    fun hFirm => ⟨?_, ?_⟩, fun _ => ?_⟩
  · rw [hPromised]
    exact (hFirm.2 sid s hs).promised
  · rw [hPending, hState]
    exact (hFirm.2 sid s hs).pending
  · rw [Stream.Live, hState]
    exact id

/-- A stream that is looked up comes into being, with nothing in it. -/
theorem steady_vivify (con : Connection) (sid : Nat) : Steady promises firm con (con.vivify sid) := by
  rw [vivify]
  split
  · exact .refl con
  · next hSome =>
    have hNone : con.stream? sid = none := by simpa using hSome
    have hGet {α : Type} {field : Stream → Option α} (hField : field {} = none) (other : Nat) :
        (con.setStream sid {}).get other field = con.get other field := by
      rw [get, stream?_setStream]
      split
      · next hEq => rw [hEq, get_of_none hNone, Option.bind_some, hField]
      · rfl
    refine ⟨rfl, fun _ h => h, rfl, rfl, rfl, id, id, id, fun other hOther => ?_,
      fun other => .inl (hGet rfl other), fun other _ => hGet rfl other,
      fun _ hProper other t ht => ?_, fun _ _ other hLive => .inl ?_⟩
    · rw [stream?_setStream]
      split
      · rfl
      · exact hOther
    · rw [stream?_setStream] at ht
      split at ht
      · cases ht
        exact ⟨rfl, fun hPending => absurd rfl hPending⟩
      · exact hProper other t ht
    · obtain ⟨t, ht, hAlive⟩ := hLive
      rw [stream?_setStream] at ht
      split at ht
      · cases ht
        exact absurd rfl hAlive.1
      · exact ⟨t, ht, hAlive⟩

theorem steady_setError (con : Connection) (code : ErrorCode) :
    Steady promises firm con (con.setError code) := by
  rw [setError]
  split
  · exact .refl con
  · rw [finish]
    split
    · next hDown hDown' => exact absurd hDown' hDown
    · refine steady_of_streams ?_ (List.subset_append_left ..) rfl rfl rfl (fun _ => rfl) (fun _ => rfl)
        (fun _ _ => ⟨rfl, rfl⟩) rfl
      rw [dataFrames_append]
      exact List.append_nil _

/-! ### The state machine -/

theorem steady_runCallbacks (con : Connection) (sid : Nat) (new : StreamState)
    (cbs : List (StreamState × Callback)) : Steady promises firm con (con.runCallbacks sid new cbs) := by
  refine steady_foldl (fun con cb => ?_) _ con
  unfold runCallback
  dsimp only
  split
  · split
    · exact steady_of_streams rfl (fun _ h => h) rfl rfl rfl id id id rfl
    · exact .refl con
  · split
    · exact .refl con
    · exact steady_of_streams rfl (fun _ h => h) rfl rfl rfl id id id rfl
  · exact steady_of_streams rfl (fun _ h => h) rfl rfl rfl id id id rfl
  · exact .refl con

theorem steady_countClosed (con : Connection) (sid : Nat) : Steady promises firm con (con.countClosed sid) := by
  rw [countClosed]
  split
  · exact steady_of_streams rfl (fun _ h => h) rfl rfl rfl id id id rfl
  · exact .refl con

theorem Proper.live_of_pending (h : con.Proper) {sid : Nat} {ps : StreamState}
    (hPending : con.get sid Stream.pendingState = some ps) : con.Live sid := by
  cases hs : con.stream? sid with
  | none =>
    rw [get_of_none hs] at hPending
    cases hPending
  | some s =>
    rw [get_of_some hs] at hPending
    exact ⟨s, hs, (h sid s hs).pending fun hNone => by rw [hNone] at hPending; cases hPending⟩

theorem Proper.promised (h : con.Proper) (sid : Nat) : con.get sid Stream.promisedSid = none := by
  cases hs : con.stream? sid with
  | none => exact get_of_none hs _
  | some s => rw [get_of_some hs, (h sid s hs).promised]

theorem live_of_get {sid : Nat} {state : StreamState} (hState : con.get sid Stream.state = some state)
    (hOpen : state ≠ .closed) : con.Live sid := by
  cases hs : con.stream? sid with
  | none =>
    rw [get_of_none hs] at hState
    cases hState
  | some s =>
    rw [get_of_some hs] at hState
    refine ⟨s, hs, ?_, ?_⟩
    · rw [hState]
      exact Option.some_ne_none _
    · rw [hState]
      exact fun hClosed => hOpen (Option.some.inj hClosed)

/-- What a step does to states is read off the streams it leaves. -/
theorem Steady.of_streams (h : Steady promises False con con'') (h' : Steady promises firm con con')
    (hStreams : ∀ sid, con''.stream? sid = con'.stream? sid) : Steady promises firm con con'' := by
  refine { h with proper := fun hFirm hProper sid s hs => ?_, live := fun hFirm hProper sid hLive => ?_ }
  · rw [hStreams] at hs
    exact h'.proper hFirm hProper sid s hs
  · rw [Live, hStreams] at hLive
    refine (h'.live hFirm hProper sid hLive).imp_right fun hOpened =>
      ⟨hOpened.fresh, hOpened.goaway, ?_, ?_⟩
    · rw [get, hStreams]
      exact hOpened.window
    · rw [get, hStreams]
      exact hOpened.blocked

theorem Live.stream {sid : Nat} {s : Stream} (hs : con.stream? sid = some s) (h : con.Live sid) :
    s.Live := by
  obtain ⟨t, ht, hLive⟩ := h
  rw [hs] at ht
  cases ht
  exact hLive

/-- Nothing is said about the states of a connection that is not proper. -/
theorem Steady.of_not_proper (h : Steady promises False con con') (hNot : ¬ con.Proper) :
    Steady promises firm con con' :=
  { h with
    proper := fun _ hProper => absurd hProper hNot
    live := fun _ hProper => absurd hProper hNot }

theorem Live.setPendingState {sid : Nat} (h : con.Live sid) (pending : Option StreamState) :
    (con.setPendingState sid pending).Live sid := by
  obtain ⟨s, hs, hLive⟩ := h
  exact ⟨_, stream?_setPendingState hs pending, hLive⟩

/-- A live stream, or any stream that closes, enters a new state. -/
theorem steady_setState (con : Connection) (sid : Nat) {new : StreamState}
    (hLive : firm → con.Proper → new ≠ .closed → con.Live sid) :
    Steady promises firm con (con.setState sid new) := by
  rw [setState]
  cases hs : con.stream? sid with
  | none => exact .refl con
  | some s =>
    dsimp only
    by_cases hNew : new = .closed
    · rw [if_pos hNew]
      have hState : Steady promises False con (con.setStream sid { s with state := some new }) :=
        steady_setStream hs ⟨rfl, fun _ => rfl, fun hFirm => hFirm.1.elim,
          fun hFirm => hFirm.1.elim⟩
      have hCleaned : s.Steady (firm ∧ con.Proper) (Stream.cleaned { s with state := some new }) :=
        ⟨rfl, fun hData => absurd rfl hData, fun _ => ⟨rfl, fun hPending => absurd rfl hPending⟩,
          fun _ hAlive => absurd (congrArg some hNew) hAlive.2⟩
      refine Steady.of_streams (((hState.trans (steady_runCallbacks _ sid new s.cb)).trans
        (steady_countClosed _ sid)).trans ?_) (steady_setStream hs hCleaned) fun other => ?_
      · exact steady_modifyStream _ sid fun t _ => ⟨rfl, fun hData => absurd rfl hData,
          fun hFirm => hFirm.1.elim, fun hFirm => hFirm.1.elim⟩
      · simp only [stream?_modifyStream, stream?_countClosed, stream?_runCallbacks, stream?_setStream]
        split <;> rfl
    · rw [if_neg hNew]
      have hState : s.Steady (firm ∧ con.Proper) { s with state := some new } :=
        ⟨rfl, fun _ => rfl, fun hFirm => ⟨(hFirm.2 sid s hs).promised, fun _ =>
            ⟨Option.some_ne_none _, fun hClosed => hNew (Option.some.inj hClosed)⟩⟩,
          fun hFirm _ => (hLive hFirm.1 hFirm.2 hNew).stream hs⟩
      exact (steady_setStream hs hState).trans (steady_runCallbacks ..)

/-- A live stream begins to wait for CONTINUATION frames, or any stream ends to. -/
theorem steady_setPendingState (con : Connection) (sid : Nat) (pending : Option StreamState)
    (hLive : firm → con.Proper → pending ≠ none → con.Live sid) :
    Steady promises firm con (con.setPendingState sid pending) := by
  rw [setPendingState]
  cases hs : con.stream? sid with
  | none => exact .refl con
  | some s =>
    have hPending : s.Steady (firm ∧ con.Proper) (s.setPending pending) := by
      refine ⟨rfl, fun _ => rfl, fun hFirm => ⟨(hFirm.2 sid s hs).promised, fun hPending => ?_⟩,
        fun _ => id⟩
      have hAlive : s.Live := (hLive hFirm.1 hFirm.2 hPending).stream hs
      exact hAlive
    exact (steady_setStream hs hPending).trans (steady_of_streams rfl (fun _ h => h) rfl rfl rfl id id id rfl)

theorem steady_clearPromised (con : Connection) (sid : Nat) :
    Steady promises firm con (con.clearPromised sid) :=
  steady_modifyStream con sid fun s hs =>
    ⟨rfl, fun _ => rfl, fun hFirm => ⟨rfl, (hFirm.2 sid s hs).pending⟩, fun _ => id⟩

theorem Proper.vivify (h : con.Proper) (sid : Nat) : (con.vivify sid).Proper :=
  (@steady_vivify True True con sid).proper trivial h

theorem Proper.setPendingState_none (h : con.Proper) (sid : Nat) : (con.setPendingState sid none).Proper :=
  (@steady_setPendingState True True con sid none fun _ _ hNe => absurd rfl hNe).proper trivial h

/-- A relation that has in it what the state machine does on a connection of proper streams. There a
frame is about its own stream, and only the state of a live one changes. -/
structure Lively (R : Connection → Connection → Prop) : Prop where
  refl : ∀ con, R con con
  trans : ∀ {con con' con'' : Connection}, R con con' → R con' con'' → R con con''
  vivify : ∀ con sid, R con (vivify con sid)
  setError : ∀ con code, R con (setError con code)
  clearPromised : ∀ con sid, R con (clearPromised con sid)
  setState : ∀ {con : Connection} {sid}, con.Proper → con.Live sid → ∀ new, R con (setState con sid new)
  setPendingState : ∀ {con : Connection} {sid}, con.Proper → con.Live sid →
    ∀ pending, R con (setPendingState con sid pending)

section
variable {R : Connection → Connection → Prop}

theorem Lively.streamState (h : Lively R) (hProper : con.Proper) {sid : Nat} (hLive : con.Live sid)
    (new : StreamState) (pending : Bool) : R con (con.streamState sid new pending) := by
  rw [Connection.streamState]
  split
  · exact h.setPendingState hProper hLive _
  · exact h.setState hProper hLive new

/-- The branches of the state machine by the state of the stream. -/
theorem Lively.stateStep (h : Lively R) (hProper : con.Proper) (act : Act) (type : FrameType)
    (flags : UInt8) {sid : Nat} {prev : Option StreamState} (hPrev : con.get sid Stream.state = prev) :
    R con (con.stateStep act type flags sid none prev) := by
  unfold Connection.stateStep
  cases prev with
  | none => exact h.setError con _
  | some state =>
    cases state with
    | idle =>
      have hLive := live_of_get hPrev (by decide)
      dsimp only [reserve]
      repeat' split
      all_goals
        first
        | exact h.streamState hProper hLive _ _
        | exact h.setState hProper hLive _
        | exact h.setError con _
        | exact h.clearPromised con _
        | exact h.refl con
    | reserved | opened | halfClosed =>
      have hLive := live_of_get hPrev (by decide)
      dsimp only
      repeat' split
      all_goals
        first
        | exact h.streamState hProper hLive _ _
        | exact h.setState hProper hLive _
        | exact h.setError con _
        | exact h.refl con
    | closed =>
      dsimp only
      split
      · exact h.setError con _
      · exact h.refl con

theorem Lively.stateMachine (h : Lively R) (hProper : con.Proper) (act : Act) (type : FrameType)
    (flags : UInt8) (sid : Nat) : R con (con.stateMachine act type flags sid) := by
  have hMade := hProper.vivify sid
  rw [Connection.stateMachine, hProper.promised sid]
  split
  · exact h.refl con
  · refine h.trans (h.vivify con sid) ?_
    dsimp only [Option.getD_none]
    split
    · exact h.refl _
    · split
      · next ps hPending =>
        have hLive := hMade.live_of_pending hPending
        split
        · exact h.setError _ _
        · split
          · exact h.trans (h.setPendingState hMade hLive none)
              (h.setState (hMade.setPendingState_none sid) (hLive.setPendingState none) ps)
          · exact h.refl _
      · split
        · exact h.setError _ _
        · exact h.stateStep hMade act type flags rfl

end

theorem respects_steady : Respects (Steady promises False) where
  refl := .refl
  trans := .trans
  vivify := steady_vivify
  setState con sid _ := steady_setState con sid False.elim
  setPendingState con sid pending := steady_setPendingState con sid pending False.elim
  clearPromised := steady_clearPromised
  setError := steady_setError

theorem lively_steady : Lively (Steady promises firm) where
  refl := .refl
  trans := .trans
  vivify := steady_vivify
  setError := steady_setError
  clearPromised := steady_clearPromised
  setState _ hLive _ := steady_setState _ _ fun _ _ _ => hLive
  setPendingState _ hLive pending := steady_setPendingState _ _ pending fun _ _ _ => hLive

theorem steady_stateMachine (con : Connection) (act : Act) (type : FrameType) (flags : UInt8)
    (sid : Nat) : Steady promises firm con (con.stateMachine act type flags sid) := by
  by_cases hProper : con.Proper
  · exact lively_steady.stateMachine hProper act type flags sid
  · exact (respects_steady.stateMachine con act type flags sid).of_not_proper hProper

/-! ### Frames that are sent -/

theorem steady_setReset (con : Connection) (sid code : Nat) :
    Steady promises firm con (con.modifyStream sid (Stream.setReset code)) :=
  steady_modifyStream_same con sid (fun _ => rfl) (fun _ => rfl) (fun _ => rfl) (fun _ => rfl)
    fun _ => rfl

theorem steady_encodeEffect (con : Connection) (d : FrameData) (sid : Nat) :
    Steady promises firm con (con.encodeEffect d sid) := by
  cases d with
  | rstStream code => exact steady_setReset con sid code
  | goaway lastStream code =>
    exact steady_of_streams rfl (fun _ h => h) rfl rfl rfl id (fun _ => rfl) (fun h hDown => ⟨rfl, (h hDown).2⟩) rfl
  | _ => exact .refl con

theorem steady_enqueue (con : Connection) {d : FrameData} (hType : d.type ≠ .data) (flags : UInt8)
    (sid : Nat) : Steady promises firm con (con.enqueue d flags sid) :=
  ((steady_encodeEffect con d sid).trans
    (steady_push _ (show (⟨d.type, (d.encode flags).1, sid, (d.encode flags).2⟩ : Frame).type ≠ .data
      from hType))).trans (steady_stateMachine ..)

theorem steady_enqueueFirst (con : Connection) {d : FrameData} (hType : d.type ≠ .data)
    (flags : UInt8) (sid : Nat) : Steady promises firm con (con.enqueueFirst d flags sid) := by
  have hEffect : Steady promises firm con (con.encodeEffect d sid) := steady_encodeEffect con d sid
  obtain ⟨held, rest, hSplit, hFirst⟩ := con.exists_enqueueFirst d flags sid
  rw [hFirst]
  generalize con.encodeEffect d sid = con₁ at hEffect hSplit
  have hInsert : Steady promises firm con₁ { con₁ with
      queue := held ++ ⟨d.type, (d.encode flags).1, sid, (d.encode flags).2⟩ :: rest } := by
    refine steady_of_streams ?_ ?_ rfl rfl rfl id id id rfl
    · rw [dataFrames_append, dataFrames_of_ne hType, ← dataFrames_append, hSplit]
    · intro frame hMem
      rw [← hSplit] at hMem
      rcases List.mem_append.mp hMem with hHead | hRest
      · exact List.mem_append_left _ hHead
      · exact List.mem_append_right _ (List.mem_cons_of_mem _ hRest)
  exact (hEffect.trans hInsert).trans (steady_stateMachine ..)

theorem steady_streamError (con : Connection) (sid : Nat) (code : ErrorCode) :
    Steady promises firm con (con.streamError sid code) :=
  steady_enqueue con (d := .rstStream code.code) (show FrameType.rstStream ≠ .data by decide) 0 sid

theorem steady_acceptSettings (con : Connection) : Steady promises firm con con.acceptSettings :=
  steady_enqueue con (d := .settings ∅) (show FrameType.settings ≠ .data by decide) Flag.ack 0

theorem fragments_steady (sid : Nat) : Fragments sid (Steady promises firm) where
  toChains := chains_steady
  encode _ _ := steady_of_streams rfl (fun _ h => h) (settings_headersEncode ..) rfl rfl id id id rfl
  continuation con fragment flags := steady_enqueue con (d := .continuation fragment)
    (show FrameType.continuation ≠ .data by decide) flags sid

theorem steady_sendHeaders (con : Connection) (sid : Nat) (headers : List Header) (ended : Bool) :
    Steady promises firm con (con.sendHeaders sid headers ended) :=
  (fragments_steady sid).sendHeaders (fun con fields flags => steady_enqueue con (d := .headers fields)
    (show FrameType.headers ≠ .data by decide) flags sid) con headers ended

theorem steady_sendPpHeaders (con : Connection) (sid promisedId : Nat) (headers : List Header) :
    Steady promises firm con (con.sendPpHeaders sid promisedId headers) :=
  (fragments_steady sid).sendPpHeaders (fun con fragment flags => steady_enqueue con
    (d := .pushPromise promisedId fragment) (show FrameType.pushPromise ≠ .data by decide) flags sid)
    con headers

theorem steady_sendPing (con : Connection) (payload : Octets) :
    Steady promises firm con (con.sendPing payload) :=
  steady_enqueue con (d := .ping _) (show FrameType.ping ≠ .data by decide) 0 0

/-! ### Frames that are received -/

theorem steady_addFcwRecv (con : Connection) (delta : Int) : Steady promises firm con (con.addFcwRecv delta) :=
  steady_of_streams rfl (fun _ h => h) rfl rfl rfl id id id rfl

theorem steady_addStreamFcwRecv (con : Connection) (sid : Nat) (delta : Int) :
    Steady promises firm con (con.addStreamFcwRecv sid delta) :=
  steady_modifyStream_same con sid (fun _ => rfl) (fun _ => rfl) (fun _ => rfl) (fun _ => rfl)
    fun _ => rfl

theorem steady_fcwUpdate (con : Connection) : Steady promises firm con con.fcwUpdate :=
  (steady_addFcwRecv con _).trans (steady_enqueue _ (d := .windowUpdate _)
    (show FrameType.windowUpdate ≠ .data by decide) 0 0)

theorem steady_streamFcwUpdate (con : Connection) (sid : Nat) :
    Steady promises firm con (con.streamFcwUpdate sid) :=
  (steady_addStreamFcwRecv con sid _).trans (steady_enqueue _ (d := .windowUpdate _)
    (show FrameType.windowUpdate ≠ .data by decide) 0 sid)

theorem steady_streamData (con : Connection) (sid : Nat) (data : Octets) :
    Steady promises firm con (con.streamData sid data) := by
  rw [streamData]
  cases hs : con.stream? sid with
  | none => exact .refl con
  | some s =>
    dsimp only
    split
    · exact steady_of_streams rfl (fun _ h => h) rfl rfl rfl id id id rfl
    · exact steady_setStream hs ⟨rfl, fun _ => rfl,
        fun hFirm => ⟨(hFirm.2 sid s hs).promised, (hFirm.2 sid s hs).pending⟩, fun _ => id⟩

theorem collects_steady (sid : Nat) : Collects sid (Steady promises firm) where
  toChains := chains_steady
  setError := steady_setError
  streamError con code := steady_streamError con sid code
  fcwUpdate := steady_fcwUpdate
  streamFcwUpdate _ con := steady_streamFcwUpdate con sid
  streamData con data := steady_streamData con sid data

theorem steady_setDecodeCtx (con : Connection) (decodeCtx : DecodeContext) :
    Steady promises firm con (con.setDecodeCtx decodeCtx) :=
  steady_of_streams rfl (fun _ h => h) rfl rfl rfl id id id rfl

theorem steady_setHeaderBlock (con : Connection) (sid : Nat) (block : Octets) :
    Steady promises firm con (con.setHeaderBlock sid block) :=
  steady_modifyStream_same con sid (fun _ => rfl) (fun _ => rfl) (fun _ => rfl) (fun _ => rfl)
    fun _ => rfl

theorem steady_announce (con : Connection) (sid : Nat) (c : Validation) :
    Steady promises firm con (con.announce sid c) :=
  steady_modifyStream_same con sid (fun _ => rfl) (fun _ => rfl) (fun _ => rfl) (fun _ => rfl)
    fun _ => rfl

theorem steady_storeHeaders (con : Connection) (sid : Nat) (promisedSid : Option Nat)
    (isTrailer : Bool) (eh : List Header) :
    Steady promises firm con (con.storeHeaders sid promisedSid isTrailer eh) := by
  cases promisedSid with
  | some promised =>
    exact (steady_vivify con promised).trans (steady_modifyStream_same _ promised (fun _ => rfl)
      (fun _ => rfl) (fun _ => rfl) (fun _ => rfl) fun _ => rfl)
  | none =>
    refine steady_modifyStream_same con sid ?_ ?_ ?_ ?_ ?_
    all_goals
      intro s
      rw [Stream.store]
      split <;> rfl

theorem steady_headersDecoded (con : Connection) (sid : Nat) :
    Steady promises firm con (con.headersDecoded sid).1 :=
  headersDecoded_rule (R := Steady promises firm) .trans (fun con c => steady_announce con sid c)
    (fun con => steady_streamError con sid _) (fun con => steady_setDecodeCtx con _) con
    fun con' _ _ => steady_storeHeaders con' sid _ _ _

theorem decodes_steady (sid : Nat) : Decodes sid (Steady promises firm) where
  toChains := chains_steady
  setWeight con other _ := steady_modifyStream_same con other (fun _ => rfl) (fun _ => rfl)
    (fun _ => rfl) (fun _ => rfl) fun _ => rfl
  setStreamDep con other _ := steady_modifyStream_same con other (fun _ => rfl) (fun _ => rfl)
    (fun _ => rfl) (fun _ => rfl) fun _ => rfl
  setError := steady_setError
  streamError con code := steady_streamError con sid code
  setHeaderBlock con block := steady_setHeaderBlock con sid block
  headersDecode con _ := steady_setDecodeCtx con _
  headersDecoded con := steady_headersDecoded con sid

theorem answers_steady : Answers (Steady promises firm) where
  toChains := chains_steady
  setError := steady_setError
  ackPing con payload := steady_enqueueFirst con (d := .ping payload)
    (show FrameType.ping ≠ .data by decide) Flag.ack 0
  goaway _ := steady_of_streams rfl (fun _ h => h) rfl rfl rfl id (fun _ => rfl)
    (fun h hDown => ⟨rfl, (h hDown).2⟩) rfl

theorem steady_newStreamEntry (con : Connection) {sid : Nat}
    (hFresh : promises ∨ con.stream? sid = none) (hGoaway : con.goaway = false)
    (cb : List (StreamState × Callback)) :
    Steady promises firm con (con.setStream sid { con.newStreamEntry with cb }) :=
  steady_setStream_new hFresh hGoaway rfl rfl ⟨rfl, fun hPending => absurd rfl hPending⟩

theorem steady_newPeerStream (con : Connection) {sid : Nat}
    (hFresh : promises ∨ con.stream? sid = none) :
    Steady promises firm con (con.newPeerStream sid).1 := by
  rw [newPeerStream]
  split
  · exact steady_setError con _
  · next hGood =>
    split
    · have hLast : Steady promises firm con (con.setLastPeerStream sid) :=
        steady_of_streams rfl (fun _ h => h) rfl rfl rfl id id id rfl
      exact hLast.trans (steady_streamError ..)
    · have hGoaway : con.goaway = false := by
        rw [← Bool.not_eq_true]
        intro hGoing
        exact hGood (decide_eq_true (.inr (.inr hGoing)))
      exact (steady_newStreamEntry con hFresh hGoaway _).trans
        (steady_of_streams rfl (fun _ h => h) rfl rfl rfl id id id rfl)

theorem steady_pushPromiseDecode (con : Connection) (hPromises : promises) (hLoose : ¬ firm)
    (fh : FrameHeader) (buf : Octets) : Steady promises firm con (con.pushPromiseDecode fh buf).1 := by
  have hPromised : Steady promises firm con (con.newPeerStream (promisedId fh buf)).1 :=
    steady_newPeerStream con (.inl hPromises)
  rw [pushPromiseDecode]
  split
  · exact steady_setError con _
  · split
    · exact steady_setError con _
    · split
      · next hRefused =>
        rw [hRefused] at hPromised
        exact hPromised
      · next hMade =>
        rw [hMade] at hPromised
        refine (hPromised.trans ?_).trans ((decodes_steady fh.stream).blockDecode ..)
        exact steady_modifyStream _ fh.stream fun _ _ => ⟨rfl, fun _ => rfl,
          fun hFirm => absurd hFirm.1 hLoose, fun hFirm => absurd hFirm.1 hLoose⟩

/-- The frames that neither open a window nor move data. -/
theorem steady_payloadDecode (ord : HashOrder) (con : Connection) {fh : FrameHeader}
    (hSettings : fh.type ≠ .settings) (hUpdate : fh.type ≠ .windowUpdate)
    (hPromise : promises ∧ ¬ firm ∨ fh.type ≠ .pushPromise) (buf : Octets) :
    Steady promises firm con (con.payloadDecode ord fh buf).1 := by
  unfold payloadDecode
  split
  · exact (collects_steady fh.stream).dataDecode steady_addFcwRecv steady_addStreamFcwRecv con buf
  · exact (decodes_steady fh.stream).headersFrameDecode con buf
  · exact (decodes_steady 0).priorityDecode steady_setError con fh buf
  · exact (decodes_steady fh.stream).rstStreamDecode (fun con => steady_setReset con fh.stream) con buf
  · next hType => exact absurd hType hSettings
  · next hType =>
    obtain ⟨hPromises, hLoose⟩ := hPromise.resolve_right fun hNe => hNe hType
    exact steady_pushPromiseDecode con hPromises hLoose fh buf
  · exact answers_steady.pingDecode con fh buf
  · exact answers_steady.goawayDecode con fh
  · next hType => exact absurd hType hUpdate
  · exact (decodes_steady fh.stream).continuationDecode con buf
  · exact .refl con

end Connection
end PageCamel.Http2

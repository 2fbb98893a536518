import PageCamel.Http2.Windows

/-!
The steps of a connection that say nothing on a stream: they queue no HEADERS
frame for it, a stream that was reset stays so, and data comes to wait only on
streams that have a state and were not reset, as long as no error was raised.
-/

namespace PageCamel.Http2
open PageCamel.Lib

/-- The HEADERS frames for a stream. -/
def headerFrames (sid : Nat) (frames : List Frame) : List Frame :=
  frames.filter fun f => f.type = .headers ∧ f.streamId = sid

theorem headerFrames_append (sid : Nat) (frames frames' : List Frame) :
    headerFrames sid (frames ++ frames') = headerFrames sid frames ++ headerFrames sid frames' :=
  List.filter_append ..

theorem headerFrames_cons_of {sid : Nat} {f : Frame} (h : f.type = .headers → f.streamId ≠ sid)
    (frames : List Frame) : headerFrames sid (f :: frames) = headerFrames sid frames := by
  rw [headerFrames, List.filter_cons_of_neg]
  · rfl
  · simpa using h

/-- The streams that RST_STREAM frames are for. -/
def resetStreams (frames : List Frame) : List Nat :=
  (frames.filter fun f => f.type = .rstStream).map Frame.streamId

theorem resetStreams_append (frames frames' : List Frame) :
    resetStreams (frames ++ frames') = resetStreams frames ++ resetStreams frames' := by
  rw [resetStreams, List.filter_append, List.map_append]
  rfl

theorem resetStreams_cons_of {f : Frame} (h : f.type ≠ .rstStream) (frames : List Frame) :
    resetStreams (f :: frames) = resetStreams frames := by
  simp [resetStreams, h]

/-- The frames that come in addition are no RST_STREAM frames, and no HEADERS frames
for the stream. -/
structure Mute (sid : Nat) (frames frames' : List Frame) : Prop where
  headers : headerFrames sid frames' = headerFrames sid frames
  resets : resetStreams frames' = resetStreams frames

theorem Mute.refl (sid : Nat) (frames : List Frame) : Mute sid frames frames := ⟨rfl, rfl⟩

theorem mute_insert {sid : Nat} {f : Frame} (hHeaders : f.type = .headers → f.streamId ≠ sid)
    (hReset : f.type ≠ .rstStream) (frames frames' : List Frame) :
    Mute sid (frames ++ frames') (frames ++ f :: frames') := by
  refine ⟨?_, ?_⟩
  · rw [headerFrames_append, headerFrames_cons_of hHeaders, ← headerFrames_append]
  · rw [resetStreams_append, resetStreams_cons_of hReset, ← resetStreams_append]

/-- What a silent step does to a stream it touches. -/
structure Stream.Hush (s s' : Stream) : Prop where
  reset : s'.reset = s.reset
  state : s.state.isSome → s'.state.isSome
  blocked : s'.blockedData.getD [] ≠ [] → s.blockedData.getD [] ≠ []

namespace Connection

variable {con con' con'' : Connection} {sid : Nat}

/-- From `con` to `con'` no HEADERS frame is queued for the stream, none is reset, and
data waits only where it did. -/
structure Hush (sid : Nat) (con con' : Connection) : Prop where
  queue : Mute sid con.queue con'.queue
  preface : con'.preface = con.preface
  shutdown : con.shutdown = true → con'.shutdown = true
  reset : ∀ other, (con.get other Stream.reset).isSome → (con'.get other Stream.reset).isSome
  stream : ∀ other s', con'.stream? other = some s' → s'.blockedData.getD [] ≠ [] →
    ∃ s, con.stream? other = some s ∧ s.Hush s'

theorem Hush.refl (sid : Nat) (con : Connection) : Hush sid con con :=
  ⟨.refl sid _, rfl, id, fun _ => id, fun _ s hs _ => ⟨s, hs, rfl, id, id⟩⟩

theorem Hush.trans (h : Hush sid con con') (h' : Hush sid con' con'') : Hush sid con con'' where
  queue := ⟨h'.queue.headers.trans h.queue.headers, h'.queue.resets.trans h.queue.resets⟩
  preface := h'.preface.trans h.preface
  shutdown hDown := h'.shutdown (h.shutdown hDown)
  reset other hReset := h'.reset other (h.reset other hReset)
  stream other s'' hs'' hData := by
    obtain ⟨s', hs', hSecond⟩ := h'.stream other s'' hs'' hData
    obtain ⟨s, hs, hFirst⟩ := h.stream other s' hs' (hSecond.blocked hData)
    exact ⟨s, hs, hSecond.reset.trans hFirst.reset, fun hState => hSecond.state (hFirst.state hState),
      fun hBlocked => hFirst.blocked (hSecond.blocked hBlocked)⟩

/-! ### Elementary changes -/

/-- A change that leaves the streams alone. -/
theorem hush_of_streams (hQueue : Mute sid con.queue con'.queue)
    (hPreface : con'.preface = con.preface) (hShutdown : con.shutdown = true → con'.shutdown = true)
    (hSame : ∀ other, con'.stream? other = con.stream? other) : Hush sid con con' := by
  refine ⟨hQueue, hPreface, hShutdown, fun other hReset => ?_, fun other s hs _ => ?_⟩
  · rw [get, hSame]
    exact hReset
  · rw [hSame] at hs
    exact ⟨s, hs, rfl, id, id⟩

/-- A change of one stream. -/
theorem hush_of_stream {changed : Nat} {s s' : Stream} (hs : con.stream? changed = some s)
    (hQueue : Mute sid con.queue con'.queue)
    (hPreface : con'.preface = con.preface) (hShutdown : con.shutdown = true → con'.shutdown = true)
    (hStreams : ∀ other, con'.stream? other =
      if other = changed then some s' else con.stream? other)
    (hHush : s.Hush s') : Hush sid con con' := by
  refine ⟨hQueue, hPreface, hShutdown, fun other hReset => ?_, fun other t ht hData => ?_⟩
  · by_cases hOther : other = changed
    · subst other
      rw [get_of_some hs] at hReset
      rw [get, hStreams, if_pos rfl, Option.bind_some, hHush.reset]
      exact hReset
    · rw [get, hStreams, if_neg hOther]
      exact hReset
  · rw [hStreams] at ht
    split at ht
    · subst other
      cases ht
      exact ⟨s, hs, hHush⟩
    · exact ⟨t, ht, rfl, id, id⟩

theorem hush_modifyStream (sid changed : Nat) (con : Connection) {f : Stream → Stream}
    (hHush : ∀ s : Stream, s.Hush (f s)) : Hush sid con (con.modifyStream changed f) := by
  cases hs : con.stream? changed with
  | none =>
      rw [modifyStream_of_none hs]
      exact Hush.refl sid con
  | some s =>
      rw [modifyStream_of_some hs]
      exact hush_of_stream hs (.refl sid _) rfl id
        (fun other => stream?_setStream con changed other (f s))
        (hHush s)

/-- A new stream with nothing on it. -/
theorem hush_setStream_new (sid : Nat) {made : Nat} {s : Stream} (hNone : con.stream? made = none)
    (hEmpty : s.blockedData.getD [] = []) : Hush sid con (con.setStream made s) := by
  refine ⟨.refl sid _, rfl, id, fun other hReset => ?_, fun other t ht hData => ?_⟩
  · have hNe : other ≠ made := by
      rintro rfl
      rw [get_of_none hNone] at hReset
      cases hReset
    rw [get, stream?_setStream, if_neg hNe]
    exact hReset
  · rw [stream?_setStream] at ht
    split at ht
    · cases ht
      exact absurd hEmpty hData
    · exact ⟨t, ht, rfl, id, id⟩

theorem hush_vivify (sid changed : Nat) (con : Connection) : Hush sid con (con.vivify changed) := by
  unfold vivify
  split
  · exact Hush.refl sid con
  · next hNone => exact hush_setStream_new sid (by simpa using hNone) rfl

/-! ### The state machine -/

theorem mute_of_quiet (h : Quiet con con') : Mute sid con.queue con'.queue := by
  obtain ⟨goaways, hQueue, hGoaways⟩ := h.queue
  have hNone : headerFrames sid goaways = [] := by
    rw [headerFrames, List.filter_eq_nil_iff]
    intro f hf
    simp [hGoaways f hf]
  have hResets : resetStreams goaways = [] := by
    rw [resetStreams, List.map_eq_nil_iff, List.filter_eq_nil_iff]
    intro f hf
    simp [hGoaways f hf]
  rw [hQueue]
  refine ⟨?_, ?_⟩
  · rw [headerFrames_append, hNone, List.append_nil]
  · rw [resetStreams_append, hResets, List.append_nil]

theorem hush_setError (sid : Nat) (con : Connection) (code : ErrorCode) :
    Hush sid con (con.setError code) :=
  hush_of_streams (mute_of_quiet (quiet_setError con code)) (quiet_setError con code).preface
    (fun _ => shutdown_setError con code) (stream?_setError con code)

theorem hush_setState (sid changed : Nat) (con : Connection) (new : StreamState) :
    Hush sid con (con.setState changed new) := by
  have hQueue := @mute_of_quiet _ _ sid (quiet_setState con changed new)
  have hPreface := (quiet_setState con changed new).preface
  have hShutdown : con.shutdown = true → (con.setState changed new).shutdown = true := by
    rw [shutdown_setState]
    exact id
  cases hs : con.stream? changed with
  | none =>
      rw [setState, hs]
      exact Hush.refl sid con
  | some s =>
      by_cases hNew : new = .closed
      · refine @hush_of_stream _ _ _ _ s (Stream.cleaned { s with state := some new }) hs hQueue
          hPreface hShutdown (fun other => ?_) ⟨rfl, fun _ => rfl, fun h => absurd rfl h⟩
        simp only [setState, hs, hNew, if_true, stream?_modifyStream, stream?_countClosed,
          stream?_runCallbacks, stream?_setStream, Option.map_some]
        split <;> rfl
      · refine @hush_of_stream _ _ _ _ s { s with state := some new } hs hQueue
          hPreface hShutdown (fun other => ?_) ⟨rfl, fun _ => rfl, id⟩
        simp only [setState, hs, hNew, if_false, stream?_runCallbacks, stream?_setStream]

theorem hush_setPendingState (sid changed : Nat) (con : Connection) (pending : Option StreamState) :
    Hush sid con (con.setPendingState changed pending) := by
  have hQuiet := quiet_setPendingState con changed pending
  cases hs : con.stream? changed with
  | none =>
      rw [setPendingState, hs]
      exact Hush.refl sid con
  | some s =>
      refine @hush_of_stream _ _ _ _ s (s.setPending pending) hs (mute_of_quiet hQuiet)
        hQuiet.preface (by rw [shutdown_setPendingState]; exact id) (fun other => ?_) ⟨rfl, id, id⟩
      simp only [setPendingState, hs]
      exact stream?_setStream con changed other _

theorem hush_clearPromised (sid changed : Nat) (con : Connection) :
    Hush sid con (con.clearPromised changed) :=
  hush_modifyStream sid changed con fun _ => ⟨rfl, id, id⟩

theorem respects_hush (sid : Nat) : Respects (Hush sid) where
  refl := .refl sid
  trans := .trans
  vivify con changed := hush_vivify sid changed con
  setState con changed := hush_setState sid changed con
  setPendingState con changed := hush_setPendingState sid changed con
  clearPromised con changed := hush_clearPromised sid changed con
  setError := hush_setError sid

theorem hush_stateMachine (sid : Nat) (con : Connection) (act : Act) (type : FrameType)
    (flags : UInt8) (changed : Nat) : Hush sid con (con.stateMachine act type flags changed) :=
  (respects_hush sid).stateMachine con act type flags changed

/-! ### Queueing frames -/

theorem hush_encodeEffect (sid : Nat) (con : Connection) {d : FrameData} (changed : Nat)
    (hReset : d.type ≠ .rstStream) : Hush sid con (con.encodeEffect d changed) := by
  cases d with
  | rstStream code => exact absurd rfl hReset
  | goaway lastStream code => exact hush_of_streams (.refl sid _) rfl id fun _ => rfl
  | _ => exact Hush.refl sid con

theorem hush_enqueue (con : Connection) {d : FrameData} (flags : UInt8) {on : Nat}
    (hReset : d.type ≠ .rstStream) (hOther : d.type = .headers → on ≠ sid) :
    Hush sid con (con.enqueue d flags on) := by
  refine ((hush_encodeEffect sid con on hReset).trans ?_).trans (hush_stateMachine sid _ _ _ _ _)
  refine hush_of_streams ?_ rfl id fun _ => rfl
  have hPush := mute_insert (f := ⟨d.type, (d.encode flags).1, on, (d.encode flags).2⟩) hOther hReset
    (con.encodeEffect d on).queue []
  rw [List.append_nil] at hPush
  exact hPush

theorem hush_enqueueFirst (con : Connection) {d : FrameData} (flags : UInt8) {on : Nat}
    (hReset : d.type ≠ .rstStream) (hOther : d.type = .headers → on ≠ sid) :
    Hush sid con (con.enqueueFirst d flags on) := by
  have hEffect := hush_encodeEffect sid con on hReset
  obtain ⟨held, rest, hSplit, hFirst⟩ := con.exists_enqueueFirst d flags on
  rw [hFirst]
  generalize con.encodeEffect d on = con₁ at hEffect hSplit
  refine (hEffect.trans ?_).trans (hush_stateMachine sid _ _ _ _ _)
  refine hush_of_streams ?_ rfl id fun _ => rfl
  have hInsert := mute_insert (f := ⟨d.type, (d.encode flags).1, on, (d.encode flags).2⟩) hOther hReset
    held rest
  rw [hSplit] at hInsert
  exact hInsert

/-! ### Resets -/

/-- A stream that is reset has no data left, or the connection fails, or the stream
has never had a state. -/
theorem reset_stateMachine {con : Connection} (h : con.Settled) (hPreface : con.preface = true)
    {on : Nat} (hOn : on ≠ 0) {s : Stream} (hs : con.stream? on = some s) (act : Act)
    (flags : UInt8) :
    (con.stateMachine act .rstStream flags on).shutdown = true ∨
      (∀ s', (con.stateMachine act .rstStream flags on).stream? on = some s' →
        s'.blockedData.getD [] = []) ∨ s.state = none := by
  have hSettled := h on s hs
  have hClosed (s' : Stream) (hs' : (con.setState on .closed).stream? on = some s') :
      s'.blockedData.getD [] = [] := by
    simp only [setState, hs, if_true, stream?_modifyStream_self, stream?_countClosed,
      stream?_runCallbacks, stream?_setStream_self, Option.map_some] at hs'
    cases hs'
    rfl
  cases hState : s.state with
  | none => exact .inr (.inr rfl)
  | some state =>
      have hMachine : con.stateMachine act .rstStream flags on =
          if s.pendingState.isSome then con.setError .protocolError
          else con.stateStep act .rstStream flags on none (some state) := by
        simp only [stateMachine, hOn, hPreface, get_of_some hs, hSettled.promised, vivify_of_some hs,
          Option.getD_none, hState]
        cases s.pendingState <;> simp
      rw [hMachine]
      cases hPending : s.pendingState with
      | some ps => exact .inl (shutdown_setError con _)
      | none =>
          cases state with
          | idle =>
              cases act with
              | send => exact .inr (.inl (by simpa [stateStep] using hClosed))
              | recv => exact .inl (by simp [stateStep])
          | opened | reserved | halfClosed =>
              exact .inr (.inl (by simpa [stateStep, streamState] using hClosed))
          | closed =>
              refine .inr (.inl fun s' hs' => ?_)
              have hSame : (con.stateStep act .rstStream flags on none (some .closed)).stream? on =
                  some s := by
                simp only [stateStep]
                split <;> simp [hs]
              rw [if_neg (by simp), hSame] at hs'
              cases hs'
              exact hSettled.blocked hState

/-! ### Silent steps -/

/-- RST_STREAM was sent or received on the stream, when `taken` are the frames that
have left the queue. -/
def Reset (con : Connection) (taken : List Frame) (sid : Nat) : Prop :=
  (con.get sid Stream.reset).isSome ∨ sid ∈ resetStreams (taken ++ con.queue)

/-- Where data waits after a hushed step it waited before, and the stream was not reset
in between. -/
theorem Hush.waiting (h : Hush sid con con') {other : Nat} {s' : Stream}
    (hs' : con'.stream? other = some s') (hData : s'.blockedData.getD [] ≠ []) :
    ∃ s, con.stream? other = some s ∧ s.blockedData.getD [] ≠ [] ∧
      (s.state.isSome → s'.state.isSome) ∧
      ∀ taken, con'.Reset taken other → con.Reset taken other := by
  obtain ⟨s, hs, hHush⟩ := h.stream other s' hs' hData
  refine ⟨s, hs, hHush.blocked hData, hHush.state, fun taken => ?_⟩
  unfold Reset
  rw [get_of_some hs, get_of_some hs', hHush.reset, resetStreams_append, h.queue.resets,
    resetStreams_append]
  exact id

/-- Data waits for its window only on streams with a state, and not on one that was
reset unless the connection has failed. -/
structure Unwaiting (taken : List Frame) (con : Connection) : Prop where
  preface : con.preface = true
  data : ∀ sid s, sid ≠ 0 → con.stream? sid = some s → s.blockedData.getD [] ≠ [] →
    s.state.isSome ∧ (¬ con.Reset taken sid ∨ con.shutdown = true)

theorem Hush.unwaiting (h : Hush sid con con') {taken : List Frame} (hWaiting : con.Unwaiting taken) :
    con'.Unwaiting taken where
  preface := h.preface.trans hWaiting.preface
  data other s' hNonzero hs' hData := by
    obtain ⟨s, hs, hBlocked, hStays, hBefore⟩ := h.waiting hs' hData
    obtain ⟨hState, hReset⟩ := hWaiting.data other s hNonzero hs hBlocked
    exact ⟨hStays hState, hReset.imp (mt (hBefore taken)) h.shutdown⟩

/-- A calm step that queues no HEADERS frame for the stream. -/
structure Silent (sid : Nat) (con con' : Connection) : Prop where
  calm : con.Settled → Calm con con'
  headers : headerFrames sid con'.queue = headerFrames sid con.queue
  resets : resetStreams con.queue ⊆ resetStreams con'.queue
  shutdown : con.shutdown = true → con'.shutdown = true
  reset : ∀ other, (con.get other Stream.reset).isSome → (con'.get other Stream.reset).isSome
  unwaiting : ∀ taken, con.Settled → con.Unwaiting taken → con'.Unwaiting taken

theorem Hush.silent (h : Hush sid con con') (hCalm : con.Settled → Calm con con') :
    Silent sid con con' :=
  ⟨hCalm, h.queue.headers, fun _ hMem => h.queue.resets ▸ hMem, h.shutdown, h.reset, fun _ _ => h.unwaiting⟩

theorem Silent.refl (sid : Nat) (con : Connection) : Silent sid con con :=
  (Hush.refl sid con).silent fun h => h.calm

theorem silent_of_streams (hCalm : con.Settled → Calm con con')
    (hQueue : con'.queue = con.queue)
    (hPreface : con'.preface = con.preface) (hShutdown : con'.shutdown = con.shutdown)
    (hSame : ∀ other, con'.stream? other = con.stream? other) : Silent sid con con' :=
  (hush_of_streams (hQueue ▸ .refl sid _) hPreface hShutdown.trans hSame).silent hCalm

theorem Silent.trans (h : Silent sid con con') (h' : Silent sid con' con'') :
    Silent sid con con'' where
  calm hSettled := (h.calm hSettled).trans (h'.calm (h.calm hSettled).settled)
  headers := h'.headers.trans h.headers
  resets := List.Subset.trans h.resets h'.resets
  shutdown hDown := h'.shutdown (h.shutdown hDown)
  reset other hReset := h'.reset other (h.reset other hReset)
  unwaiting taken hSettled hWaiting :=
    h'.unwaiting taken (h.calm hSettled).settled (h.unwaiting taken hSettled hWaiting)

theorem chains_silent (sid : Nat) : Chains (Silent sid) := ⟨.refl sid, .trans⟩

/-- A stream is marked as reset and closed. -/
theorem silent_reset (sid on code : Nat) (act : Act) (flags : UInt8) {con con₁ : Connection}
    (hCalm : con.Settled → Calm con con₁)
    (hQueue : headerFrames sid con₁.queue = headerFrames sid con.queue)
    (hResets : ∃ ids, resetStreams con₁.queue = resetStreams con.queue ++ ids ∧ ∀ id ∈ ids, id = on)
    (hPreface : con₁.preface = con.preface) (hShutdown : con.shutdown = true → con₁.shutdown = true)
    (hStreams : ∀ other, con₁.stream? other =
      (con.modifyStream on (Stream.setReset code)).stream? other) :
    Silent sid con (con₁.stateMachine act .rstStream flags on) := by
  have hHush := hush_stateMachine sid con₁ act .rstStream flags on
  obtain ⟨ids, hIds, hOnly⟩ := hResets
  refine ⟨fun h => (hCalm h).trans (calm_stateMachine (hCalm h).settled ..),
    hHush.queue.headers.trans hQueue, ?_, fun hDown => hHush.shutdown (hShutdown hDown),
    fun other hReset => hHush.reset other ?_, fun taken hSettled hWaiting => ⟨?_, ?_⟩⟩
  · rw [hHush.queue.resets, hIds]
    exact List.subset_append_left _ _
  · rw [get, hStreams, stream?_modifyStream]
    split
    · subst other
      cases hs : con.stream? on with
      | none => simp [get, hs] at hReset
      | some s => simp [Stream.setReset]
    · exact hReset
  · rw [hHush.preface, hPreface, hWaiting.preface]
  · intro other s' hNonzero hs' hData
    obtain ⟨s₁, hs₁, hSame⟩ := hHush.stream other s' hs' hData
    rw [hStreams, stream?_modifyStream] at hs₁
    split at hs₁
    · next hOn =>
        subst hOn
        obtain ⟨s, hs, rfl⟩ := Option.map_eq_some_iff.mp hs₁
        obtain ⟨hState, -⟩ := hWaiting.data other s hNonzero hs (hSame.blocked hData)
        have hOne : con₁.stream? other = some (s.setReset code) := by
          rw [hStreams, stream?_modifyStream_self, hs]
          rfl
        refine ⟨hSame.state hState, ?_⟩
        rcases reset_stateMachine (hCalm hSettled).settled (hPreface.trans hWaiting.preface) hNonzero
          hOne act flags with hDown | hEmpty | hNone
        · exact .inr hDown
        · exact absurd (hEmpty s' hs') hData
        · rw [show s.state = none from hNone] at hState
          cases hState
    · next hOther =>
        obtain ⟨hState, hReset⟩ := hWaiting.data other s₁ hNonzero hs₁ (hSame.blocked hData)
        have hBefore : (con₁.stateMachine act .rstStream flags on).Reset taken other →
            con.Reset taken other := by
          unfold Reset
          rw [get_of_some hs₁, get_of_some hs', hSame.reset, resetStreams_append, hHush.queue.resets,
            hIds, resetStreams_append, ← List.append_assoc, List.mem_append (t := ids)]
          exact Or.imp_right fun hMem => hMem.resolve_right fun hId => hOther (hOnly other hId)
        exact ⟨hSame.state hState, hReset.imp (mt hBefore) fun hDown => hHush.shutdown (hShutdown hDown)⟩

theorem silent_streamError (sid : Nat) (con : Connection) (on : Nat) (code : ErrorCode) :
    Silent sid con (con.streamError on code) := by
  have hType (type : FrameType) (hNe : type ≠ .rstStream) :
      (FrameData.rstStream code.code).type ≠ type := fun hEq => hNe hEq.symm
  refine silent_reset sid on code.code .send 0 (fun h => ?_) ?_ ⟨[on], ?_, by simp⟩
    (preface_modifyStream con on _)
    (fun hDown => (shutdown_modifyStream con on _).trans hDown) fun other => rfl
  · have hReset := calm_setReset h on code.code
    refine hReset.trans (calm_of_streams hReset.settled ?_ rfl rfl rfl rfl)
    show dataFrames (_ ++ [_]) = _
    rw [dataFrames_append, dataFrames_of_ne (hType .data (by decide))]
    exact List.append_nil _
  · show headerFrames sid ((con.modifyStream on (Stream.setReset code.code)).queue ++ [_]) = _
    rw [headerFrames_append, queue_modifyStream,
      headerFrames_cons_of fun hEq => absurd hEq (hType .headers (by decide))]
    exact List.append_nil _
  · show resetStreams ((con.modifyStream on (Stream.setReset code.code)).queue ++ [_]) = _
    rw [resetStreams_append, queue_modifyStream]
    rfl

theorem silent_setError (sid : Nat) (con : Connection) (code : ErrorCode) :
    Silent sid con (con.setError code) :=
  (hush_setError sid con code).silent fun h => calm_setError h code

theorem silent_stateMachine (sid : Nat) (con : Connection) (act : Act) (type : FrameType)
    (flags : UInt8) (on : Nat) : Silent sid con (con.stateMachine act type flags on) :=
  (hush_stateMachine sid con act type flags on).silent fun h => calm_stateMachine h ..

/-- The accessors that touch neither data nor state. -/
theorem silent_modifyStream (sid on : Nat) (con : Connection) {f : Stream → Stream}
    (hCalm : con.Settled → Calm con (con.modifyStream on f)) (hReset : ∀ s, (f s).reset = s.reset)
    (hState : ∀ s, (f s).state = s.state) (hBlocked : ∀ s, (f s).blockedData = s.blockedData) :
    Silent sid con (con.modifyStream on f) := by
  refine (hush_modifyStream sid on con fun s => ⟨hReset s, ?_, ?_⟩).silent hCalm
  · rw [hState]
    exact id
  · rw [hBlocked]
    exact id

/-! ### Sending -/

theorem silent_enqueue (con : Connection) {d : FrameData} (flags : UInt8) {on : Nat}
    (hReset : d.type ≠ .rstStream) (hData : d.type ≠ .data) (hOther : d.type = .headers → on ≠ sid) :
    Silent sid con (con.enqueue d flags on) :=
  (hush_enqueue con flags hReset hOther).silent fun h => calm_enqueue h hData flags on

/-- The headers of another stream. -/
theorem silent_sendHeaders (con : Connection) {on : Nat} (hOther : on ≠ sid)
    (headers : List Header) (ended : Bool) : Silent sid con (con.sendHeaders on headers ended) := by
  have hFragments : Fragments on (Silent sid) :=
    { toChains := chains_silent sid
      encode := fun _ _ => silent_of_streams
        (fun h => calm_of_streams h rfl rfl (settings_headersEncode ..) rfl rfl) rfl rfl rfl fun _ => rfl
      continuation := fun con _ flags => silent_enqueue con flags (fun h => FrameType.noConfusion h)
        (fun h => FrameType.noConfusion h) fun h => FrameType.noConfusion h }
  exact hFragments.sendHeaders (fun con _ flags => silent_enqueue con flags
    (fun h => FrameType.noConfusion h) (fun h => FrameType.noConfusion h) fun _ => hOther) con headers ended

/-! ### Receiving -/

theorem silent_addFcwRecv (sid : Nat) (con : Connection) (delta : Int) :
    Silent sid con (con.addFcwRecv delta) :=
  silent_of_streams (fun h => calm_of_streams h rfl rfl rfl rfl rfl) rfl rfl rfl fun _ => rfl

theorem silent_addStreamFcwRecv (sid : Nat) (con : Connection) (on : Nat) (delta : Int) :
    Silent sid con (con.addStreamFcwRecv on delta) :=
  silent_modifyStream sid on con (fun h => calm_addStreamFcwRecv h on delta) (fun _ => rfl)
    (fun _ => rfl) fun _ => rfl

theorem silent_streamData (sid : Nat) (con : Connection) (on : Nat) (data : Octets) :
    Silent sid con (con.streamData on data) := by
  have hCalm := fun h : con.Settled => calm_streamData h on data
  unfold streamData at hCalm ⊢
  cases hs : con.stream? on with
  | none => exact Silent.refl sid con
  | some s =>
      simp only [hs] at hCalm ⊢
      split at hCalm
      · next hCallback =>
          rw [if_pos hCallback]
          exact silent_of_streams hCalm rfl rfl rfl fun _ => rfl
      · next hCollect =>
          rw [if_neg hCollect]
          have hSame : s.Hush { s with data := some (s.data.getD [] ++ data) } := ⟨rfl, id, id⟩
          exact Hush.silent (hush_of_stream hs (.refl sid _) rfl id
            (fun other => stream?_setStream con on other _) hSame) hCalm

theorem collects_silent (sid on : Nat) : Collects on (Silent sid) := by
  have hUpdate (con : Connection) (size on : Nat) :
      Silent sid con (con.enqueue (.windowUpdate size) 0 on) :=
    silent_enqueue con 0 (fun h => FrameType.noConfusion h) (fun h => FrameType.noConfusion h)
      fun h => FrameType.noConfusion h
  exact
    { toChains := chains_silent sid, setError := silent_setError sid
      streamError := fun con code => silent_streamError sid con on code
      fcwUpdate := fun con => (silent_addFcwRecv sid con _).trans (hUpdate _ _ 0)
      streamFcwUpdate := fun _ con => (silent_addStreamFcwRecv sid con on _).trans (hUpdate _ _ on)
      streamData := fun con data => silent_streamData sid con on data }

theorem silent_dataDecode (sid : Nat) (con : Connection) (fh : FrameHeader) (buf : Octets) :
    Silent sid con (con.dataDecode fh buf).1 :=
  (collects_silent sid fh.stream).dataDecode (silent_addFcwRecv sid) (silent_addStreamFcwRecv sid) con buf

theorem silent_setDecodeCtx (sid : Nat) (con : Connection) (decodeCtx : DecodeContext) :
    Silent sid con (con.setDecodeCtx decodeCtx) :=
  silent_of_streams (fun h => calm_setDecodeCtx h decodeCtx) rfl rfl rfl fun _ => rfl

theorem silent_setHeaderBlock (sid : Nat) (con : Connection) (on : Nat) (block : Octets) :
    Silent sid con (con.setHeaderBlock on block) :=
  silent_modifyStream sid on con (fun h => calm_setHeaderBlock h on block) (fun _ => rfl)
    (fun _ => rfl) fun _ => rfl

theorem hush_announce (sid : Nat) (con : Connection) (on : Nat) (c : Validation) :
    Hush sid con (con.announce on c) := hush_modifyStream sid on con fun _ => ⟨rfl, id, id⟩

theorem hush_storeHeaders (sid : Nat) (con : Connection) (on : Nat) (promisedSid : Option Nat)
    (isTrailer : Bool) (eh : List Header) :
    Hush sid con (con.storeHeaders on promisedSid isTrailer eh) := by
  cases promisedSid with
  | none =>
      refine hush_modifyStream sid on con fun s => ?_
      unfold Stream.store
      split <;> exact ⟨rfl, id, id⟩
  | some promised =>
      exact (hush_vivify sid promised con).trans
        (hush_modifyStream sid promised _ fun _ => ⟨rfl, id, id⟩)

theorem silent_headersDecoded (sid : Nat) (con : Connection) (on : Nat) :
    Silent sid con (con.headersDecoded on).1 := by
  have hCalm := fun h : con.Settled => calm_headersDecoded h on
  have hAnnounce := hush_announce sid con on
    (con.validation con.decodeCtx.emittedHeaders on (con.isResponse on))
  unfold headersDecoded validateHeaders at hCalm ⊢
  dsimp only at hCalm ⊢
  cases hAccepted : (con.validation con.decodeCtx.emittedHeaders on (con.isResponse on)).accepted with
  | false =>
      simp only [Bool.false_eq_true, if_false]
      exact (hAnnounce.silent fun h => calm_announce h on _).trans (silent_streamError sid _ on _)
  | true =>
      simp only [hAccepted, if_true] at hCalm ⊢
      refine (hAnnounce.trans ?_).silent hCalm
      exact (hush_storeHeaders sid _ on _ _ _).trans (hush_of_streams (.refl sid _) rfl id fun _ => rfl)

theorem decodes_silent (sid on : Nat) : Decodes on (Silent sid) where
  toChains := chains_silent sid
  setWeight con on weight := silent_modifyStream sid on con (fun h => calm_setWeight h on weight)
    (fun _ => rfl) (fun _ => rfl) fun _ => rfl
  setStreamDep con on dep :=
    Hush.silent (by exact hush_modifyStream sid on con fun _ => ⟨rfl, id, id⟩)
      ((decodes_calm on).setStreamDep con on dep)
  setError := silent_setError sid
  streamError con code := silent_streamError sid con on code
  setHeaderBlock con block := silent_setHeaderBlock sid con on block
  headersDecode con _ := silent_setDecodeCtx sid con _
  headersDecoded con := silent_headersDecoded sid con on

theorem answers_silent (sid : Nat) : Answers (Silent sid) where
  toChains := chains_silent sid
  setError := silent_setError sid
  ackPing con payload := by
    refine Hush.silent (hush_enqueueFirst con Flag.ack ?_ ?_) fun h => calm_enqueueFirst h ?_ _ _
    · exact fun h => FrameType.noConfusion h
    · exact fun h => FrameType.noConfusion h
    · exact fun h => FrameType.noConfusion h
  goaway _ := silent_of_streams (fun h => calm_of_streams h rfl rfl rfl rfl rfl) rfl rfl rfl fun _ => rfl

theorem hush_admitted (sid : Nat) {on : Nat} (hNone : con.stream? on = none) :
    Hush sid con (con.admitted on) :=
  (hush_setStream_new sid hNone rfl).trans (hush_of_streams (.refl sid _) rfl id fun _ => rfl)

theorem silent_newPeerStream (sid : Nat) (con : Connection) {on : Nat}
    (hNone : con.stream? on = none) : Silent sid con (con.newPeerStream on).1 := by
  have hCalm := fun h : con.Settled => calm_newPeerStream h hNone
  unfold newPeerStream at hCalm ⊢
  split
  · exact silent_setError sid con _
  · next hGood =>
      split
      · refine Silent.trans ?_ (silent_streamError sid (con.setLastPeerStream on) on .refusedStream)
        exact silent_of_streams (fun h => calm_of_streams h rfl rfl rfl rfl rfl) rfl rfl rfl fun _ => rfl
      · next hRoom =>
          rw [if_neg hGood, if_neg hRoom] at hCalm
          exact Hush.silent (hush_admitted sid hNone) hCalm

end Connection
end PageCamel.Http2

import PageCamel.Http2.DecoderRule
import PageCamel.Http2.Server

/-!
The steps of a connection that move no data: they queue no DATA frame and leave the
send windows alone. These are all frames received and sent but DATA frames that are
sent, WINDOW_UPDATE, SETTINGS, and PUSH_PROMISE, which no client sends. On the way
a closed stream stays closed and has no data left that waits for its window.
-/

namespace PageCamel.Http2
open PageCamel.Lib

/-- What is true of the streams of a server that receives no PUSH_PROMISE frame. -/
structure Stream.Settled (s : Stream) : Prop where
  promised : s.promisedSid = none
  pending : s.state = some .closed → s.pendingState = none
  blocked : s.state = some .closed → s.blockedData.getD [] = []

/-- The window of the stream is where it was, and nothing more waits for it. -/
structure Stream.Calm (s s' : Stream) : Prop where
  settled : s'.Settled
  fcwSend : s'.fcwSend = s.fcwSend
  closed : s.state = some .closed → s'.state = some .closed
  blocked : s'.blockedData.getD [] ≠ [] → s.blockedData.getD [] ≠ []

/-- A stream that has just been made, with a window no larger than `w`. -/
structure Stream.Fresh (w : Nat) (s : Stream) : Prop where
  settled : s.Settled
  fcwSend : s.fcwSend.getD 0 ≤ w
  blocked : s.blockedData.getD [] = []

theorem Stream.Settled.calm {s : Stream} (h : s.Settled) : s.Calm s := ⟨h, rfl, id, id⟩

theorem Stream.Calm.trans {s s' s'' : Stream} (h : s.Calm s') (h' : s'.Calm s'') : s.Calm s'' :=
  ⟨h'.settled, h'.fcwSend.trans h.fcwSend, fun hs => h'.closed (h.closed hs),
    fun hs => h.blocked (h'.blocked hs)⟩

theorem Stream.Fresh.calm {w : Nat} {s s' : Stream} (h : s.Fresh w) (h' : s.Calm s') :
    s'.Fresh w := by
  refine ⟨h'.settled, ?_, ?_⟩
  · rw [h'.fcwSend]
    exact h.fcwSend
  · by_contra hs
    exact h'.blocked hs h.blocked

theorem Stream.fresh_empty (w : Nat) : Stream.Fresh w {} :=
  ⟨⟨rfl, fun _ => rfl, fun _ => rfl⟩, by simp, rfl⟩

/-- The DATA frames of a queue. -/
def dataFrames (frames : List Frame) : List Frame := frames.filter fun f => f.type = .data

theorem dataFrames_append (frames frames' : List Frame) :
    dataFrames (frames ++ frames') = dataFrames frames ++ dataFrames frames' :=
  List.filter_append ..

theorem dataFrames_of_ne {f : Frame} (h : f.type ≠ .data) (frames : List Frame) :
    dataFrames (f :: frames) = dataFrames frames := by
  simp [dataFrames, h]

namespace Connection

variable {con con' con'' : Connection}

def initialWindow (con : Connection) : Nat := con.encSetting Setting.initialWindowSize

def Settled (con : Connection) : Prop := ∀ sid s, con.stream? sid = some s → s.Settled

/-- From `con` to `con'` no data moves. -/
structure Calm (con con' : Connection) : Prop where
  data : dataFrames con'.queue = dataFrames con.queue
  type : con'.type = con.type
  settings : con'.encodeCtx.settings = con.encodeCtx.settings
  fcwSend : con'.fcwSend = con.fcwSend
  kept : ∀ sid s, con.stream? sid = some s → ∃ s', con'.stream? sid = some s' ∧ s.Calm s'
  made : ∀ sid s', con.stream? sid = none → con'.stream? sid = some s' → s'.Fresh con.initialWindow

theorem Settled.calm (h : con.Settled) : Calm con con :=
  ⟨rfl, rfl, rfl, rfl, fun sid s hs => ⟨s, hs, (h sid s hs).calm⟩, fun sid s hNone hs => by
    rw [hNone] at hs
    cases hs⟩

theorem Calm.settled (h : Calm con con') : con'.Settled := by
  intro sid s' hs'
  cases hs : con.stream? sid with
  | none => exact (h.made sid s' hs hs').settled
  | some s =>
      obtain ⟨s'', hs'', hCalm⟩ := h.kept sid s hs
      rw [hs'] at hs''
      cases hs''
      exact hCalm.settled

theorem Calm.initialWindow (h : Calm con con') : con'.initialWindow = con.initialWindow := by
  rw [Connection.initialWindow, encSetting, h.settings]
  rfl

theorem Calm.trans (h : Calm con con') (h' : Calm con' con'') : Calm con con'' := by
  refine ⟨h'.data.trans h.data, h'.type.trans h.type, h'.settings.trans h.settings,
    h'.fcwSend.trans h.fcwSend, ?_, ?_⟩
  · intro sid s hs
    obtain ⟨s', hs', hCalm⟩ := h.kept sid s hs
    obtain ⟨s'', hs'', hCalm'⟩ := h'.kept sid s' hs'
    exact ⟨s'', hs'', hCalm.trans hCalm'⟩
  · intro sid s'' hs hs''
    cases hs' : con'.stream? sid with
    | none =>
        rw [← h.initialWindow]
        exact h'.made sid s'' hs' hs''
    | some s' =>
        obtain ⟨t, ht, hCalm⟩ := h'.kept sid s' hs'
        rw [hs''] at ht
        cases ht
        exact (h.made sid s' hs hs').calm hCalm

/-- Nothing but the queue has changed, and the queue by no DATA frame. -/
theorem calm_of_streams (h : con.Settled) (hData : dataFrames con'.queue = dataFrames con.queue)
    (hType : con'.type = con.type) (hSettings : con'.encodeCtx.settings = con.encodeCtx.settings)
    (hSend : con'.fcwSend = con.fcwSend) (hStreams : con'.streams = con.streams) :
    Calm con con' := by
  have hSame (sid : Nat) : con'.stream? sid = con.stream? sid := by
    rw [stream?, hStreams]
    rfl
  exact ⟨hData, hType, hSettings, hSend,
    fun sid s hs => ⟨s, (hSame sid).trans hs, (h sid s hs).calm⟩,
    fun sid s hNone hs => by rw [hSame, hNone] at hs; cases hs⟩

theorem calm_setStream (h : con.Settled) {sid : Nat} {s s' : Stream} (hs : con.stream? sid = some s)
    (hCalm : s.Calm s') : Calm con (con.setStream sid s') := by
  refine ⟨rfl, rfl, rfl, rfl, ?_, ?_⟩
  · intro other t ht
    rw [stream?_setStream]
    split
    · subst other
      rw [hs] at ht
      cases ht
      exact ⟨s', rfl, hCalm⟩
    · exact ⟨t, ht, (h other t ht).calm⟩
  · intro other t hNone ht
    rw [stream?_setStream] at ht
    split at ht
    · subst other
      rw [hs] at hNone
      cases hNone
    · rw [hNone] at ht
      cases ht

theorem calm_setStream_new (h : con.Settled) {sid : Nat} {s : Stream} (hNone : con.stream? sid = none)
    (hFresh : s.Fresh con.initialWindow) : Calm con (con.setStream sid s) := by
  refine ⟨rfl, rfl, rfl, rfl, ?_, ?_⟩
  · intro other t ht
    rw [stream?_setStream]
    split
    · subst other
      rw [hNone] at ht
      cases ht
    · exact ⟨t, ht, (h other t ht).calm⟩
  · intro other t hOther ht
    rw [stream?_setStream] at ht
    split at ht
    · cases ht
      exact hFresh
    · rw [hOther] at ht
      cases ht

theorem calm_modifyStream (h : con.Settled) (sid : Nat) {f : Stream → Stream}
    (hCalm : ∀ s : Stream, s.Settled → s.Calm (f s)) : Calm con (con.modifyStream sid f) := by
  cases hs : con.stream? sid with
  | none => exact (modifyStream_of_none hs f).symm ▸ h.calm
  | some s =>
      rw [modifyStream_of_some hs]
      exact calm_setStream h hs (hCalm s (h sid s hs))

/-- A change of fields that no window depends on. -/
theorem calm_modifyStream_same (h : con.Settled) (sid : Nat) {f : Stream → Stream}
    (hPromised : ∀ s, (f s).promisedSid = s.promisedSid)
    (hPending : ∀ s, (f s).pendingState = s.pendingState)
    (hBlocked : ∀ s, (f s).blockedData = s.blockedData)
    (hWindow : ∀ s, (f s).fcwSend = s.fcwSend) (hState : ∀ s, (f s).state = s.state) :
    Calm con (con.modifyStream sid f) := by
  refine calm_modifyStream h sid fun s hs => ⟨⟨?_, ?_, ?_⟩, hWindow s, ?_, ?_⟩
  · rw [hPromised]
    exact hs.promised
  · rw [hState, hPending]
    exact hs.pending
  · rw [hState, hBlocked]
    exact hs.blocked
  · exact (hState s).trans
  · rw [hBlocked]
    exact id

theorem calm_vivify (h : con.Settled) (sid : Nat) : Calm con (con.vivify sid) := by
  unfold vivify
  split
  · exact h.calm
  · next hNone => exact calm_setStream_new h (by simpa using hNone) (Stream.fresh_empty _)

/-! ### The state machine -/

theorem Settled.promised (h : con.Settled) (sid : Nat) : con.get sid Stream.promisedSid = none := by
  cases hs : con.stream? sid with
  | none => exact get_of_none hs _
  | some s => rw [get_of_some hs, (h sid s hs).promised]

theorem calm_finish (h : con.Settled) : Calm con con.finish := by
  unfold finish
  split
  · exact h.calm
  · refine calm_of_streams h ?_ rfl rfl rfl rfl
    rw [dataFrames_append]
    simp [dataFrames]

theorem calm_setError (h : con.Settled) (code : ErrorCode) : Calm con (con.setError code) := by
  unfold setError
  split
  · exact h.calm
  · have hError : Calm con { con with error := some code } := calm_of_streams h rfl rfl rfl rfl rfl
    exact hError.trans (calm_finish h)

/-- The streams of a quiet step are those of a step that moves no data. -/
theorem Quiet.calm (hQuiet : Quiet con con'') (hCalm : Calm con con')
    (hStreams : ∀ sid, con''.stream? sid = con'.stream? sid) : Calm con con'' := by
  obtain ⟨goaways, hQueue, hGoaways⟩ := hQuiet.queue
  have hNone : dataFrames goaways = [] := by
    rw [dataFrames, List.filter_eq_nil_iff]
    intro f hf
    simp [hGoaways f hf]
  refine ⟨?_, hQuiet.type, congrArg Context.settings hQuiet.encodeCtx, hQuiet.fcwSend, ?_, ?_⟩
  · rw [hQueue, dataFrames_append, hNone, List.append_nil]
  · intro sid s hs
    rw [hStreams]
    exact hCalm.kept sid s hs
  · intro sid s hs hs'
    rw [hStreams] at hs'
    exact hCalm.made sid s hs hs'

/-- A change of state that leaves a closed stream closed. -/
theorem calm_setState (h : con.Settled) (sid : Nat) {new : StreamState}
    (hClosed : con.get sid Stream.state = some .closed → new = .closed) :
    Calm con (con.setState sid new) := by
  cases hs : con.stream? sid with
  | none =>
      rw [setState, hs]
      exact h.calm
  | some s =>
      rw [get_of_some hs] at hClosed
      have hSettled := h sid s hs
      by_cases hNew : new = .closed
      · subst hNew
        have hCalm : s.Calm (Stream.cleaned { s with state := some .closed }) :=
          ⟨⟨rfl, fun _ => rfl, fun _ => rfl⟩, rfl, fun _ => rfl, fun hEq => absurd rfl hEq⟩
        refine (quiet_setState con sid .closed).calm (calm_setStream h hs hCalm) fun other => ?_
        simp only [setState, hs, if_true, stream?_modifyStream, stream?_countClosed,
          stream?_runCallbacks, stream?_setStream]
        split <;> rfl
      · have hCalm : s.Calm { s with state := some new } := by
          refine ⟨⟨hSettled.promised, ?_, ?_⟩, rfl, ?_, id⟩
          · exact fun hEq => absurd (Option.some.inj hEq) hNew
          · exact fun hEq => absurd (Option.some.inj hEq) hNew
          · exact fun hEq => absurd (hClosed hEq) hNew
        refine (quiet_setState con sid new).calm (calm_setStream h hs hCalm) fun other => ?_
        simp only [setState, hs, if_neg hNew, stream?_runCallbacks]

theorem calm_setPendingState (h : con.Settled) (sid : Nat) (pending : Option StreamState)
    (hOpen : con.get sid Stream.state = some .closed → pending = none) :
    Calm con (con.setPendingState sid pending) := by
  cases hs : con.stream? sid with
  | none =>
      rw [setPendingState, hs]
      exact h.calm
  | some s =>
      rw [get_of_some hs] at hOpen
      have hSettled := h sid s hs
      have hCalm : s.Calm (s.setPending pending) :=
        ⟨⟨hSettled.promised, hOpen, hSettled.blocked⟩, rfl, id, id⟩
      refine (quiet_setPendingState con sid pending).calm (calm_setStream h hs hCalm) fun other => ?_
      rw [setPendingState, hs]
      rfl

theorem calm_streamState (h : con.Settled) (sid : Nat) (new : StreamState) (pending : Bool)
    (hOpen : con.get sid Stream.state ≠ some .closed) :
    Calm con (con.streamState sid new pending) := by
  unfold streamState
  split
  · exact calm_setPendingState h sid _ fun hEq => absurd hEq hOpen
  · exact calm_setState h sid fun hEq => absurd hEq hOpen

theorem calm_clearPromised (h : con.Settled) (sid : Nat) : Calm con (con.clearPromised sid) :=
  calm_modifyStream h sid fun _ hs => ⟨⟨rfl, hs.pending, hs.blocked⟩, rfl, id, id⟩

theorem calm_stateStep (h : con.Settled) (act : Act) (type : FrameType) (flags : UInt8) (sid : Nat) :
    Calm con (con.stateStep act type flags sid none (con.get sid Stream.state)) := by
  unfold stateStep
  cases hState : con.get sid Stream.state with
  | none => exact calm_setError h _
  | some state =>
      have hOpen (hNe : state ≠ .closed) : con.get sid Stream.state ≠ some .closed := by
        rw [hState]
        exact fun hEq => hNe (Option.some.inj hEq)
      cases state with
      | idle =>
          have hOpen := hOpen (by decide)
          dsimp only
          split
          · exact calm_streamState h _ _ _ hOpen
          · split
            · split
              · exact calm_clearPromised h _
              · exact h.calm
            · split
              · exact calm_setState h _ fun _ => rfl
              · split
                · exact calm_setError h _
                · exact h.calm
      | reserved | opened | halfClosed =>
          have hOpen := hOpen (by decide)
          dsimp only
          repeat' split
          all_goals
            first
            | exact calm_streamState h _ _ _ hOpen
            | exact calm_setState h _ fun _ => rfl
            | exact calm_setError h _
            | exact h.calm
      | closed =>
          dsimp only
          split
          · exact calm_setError h _
          · exact h.calm

theorem get_state_setPendingState (con : Connection) (sid : Nat) (pending : Option StreamState) :
    (con.setPendingState sid pending).get sid Stream.state = con.get sid Stream.state := by
  cases hs : con.stream? sid with
  | none => simp only [setPendingState, hs]
  | some s => simp only [get, stream?_setPendingState hs, hs, Stream.setPending, Option.bind_some]

/-- A stream whose change of state is pending is not closed. -/
theorem Settled.open_of_pending (h : con.Settled) {sid : Nat} {state : StreamState}
    (hPending : con.get sid Stream.pendingState = some state) :
    con.get sid Stream.state ≠ some .closed := by
  cases hs : con.stream? sid with
  | none =>
      rw [get_of_none hs] at hPending
      cases hPending
  | some s =>
      rw [get_of_some hs] at hPending ⊢
      intro hClosed
      rw [(h sid s hs).pending hClosed] at hPending
      cases hPending

/-- The state machine moves no data. -/
theorem calm_stateMachine (h : con.Settled) (act : Act) (type : FrameType) (flags : UInt8)
    (sid : Nat) : Calm con (con.stateMachine act type flags sid) := by
  unfold stateMachine
  split
  · exact h.calm
  · rw [h.promised sid]
    dsimp only [Option.getD_none]
    have hVivify := calm_vivify h sid
    refine hVivify.trans ?_
    have h := hVivify.settled
    split
    · exact h.calm
    · split
      · next ps hPending =>
          split
          · exact calm_setError h _
          · split
            · have hClear := calm_setPendingState h sid none fun _ => rfl
              refine hClear.trans (calm_setState hClear.settled sid fun hClosed => ?_)
              rw [get_state_setPendingState] at hClosed
              exact absurd hClosed (h.open_of_pending hPending)
            · exact h.calm
      · split
        · exact calm_setError h _
        · exact calm_stateStep h act type flags sid

/-! ### Sending -/

theorem calm_setReset (h : con.Settled) (sid code : Nat) :
    Calm con (con.modifyStream sid (Stream.setReset code)) :=
  calm_modifyStream_same h sid (fun _ => rfl) (fun _ => rfl) (fun _ => rfl) (fun _ => rfl) fun _ => rfl

theorem calm_encodeEffect (h : con.Settled) (d : FrameData) (sid : Nat) :
    Calm con (con.encodeEffect d sid) := by
  cases d with
  | rstStream code => exact calm_setReset h sid code
  | goaway lastStream code => exact calm_of_streams h rfl rfl rfl rfl rfl
  | _ => exact h.calm

theorem calm_enqueue (h : con.Settled) {d : FrameData} (hType : d.type ≠ .data) (flags : UInt8)
    (sid : Nat) : Calm con (con.enqueue d flags sid) := by
  have hEffect := calm_encodeEffect h d sid
  have hPush : Calm (con.encodeEffect d sid)
      ((con.encodeEffect d sid).push ⟨d.type, (d.encode flags).1, sid, (d.encode flags).2⟩) := by
    refine calm_of_streams hEffect.settled ?_ rfl rfl rfl rfl
    rw [push, dataFrames_append, dataFrames_of_ne hType]
    exact List.append_nil _
  exact (hEffect.trans hPush).trans (calm_stateMachine hPush.settled ..)

theorem calm_enqueueFirst (h : con.Settled) {d : FrameData} (hType : d.type ≠ .data) (flags : UInt8)
    (sid : Nat) : Calm con (con.enqueueFirst d flags sid) := by
  have hEffect := calm_encodeEffect h d sid
  obtain ⟨held, rest, hSplit, hFirst⟩ := con.exists_enqueueFirst d flags sid
  rw [hFirst]
  generalize con.encodeEffect d sid = con₁ at hEffect hSplit
  have hInsert : Calm con₁ { con₁ with
      queue := held ++ ⟨d.type, (d.encode flags).1, sid, (d.encode flags).2⟩ :: rest } := by
    refine calm_of_streams hEffect.settled ?_ rfl rfl rfl rfl
    rw [dataFrames_append, dataFrames_of_ne hType, ← dataFrames_append, hSplit]
  exact (hEffect.trans hInsert).trans (calm_stateMachine hInsert.settled ..)

theorem calm_streamError (h : con.Settled) (sid : Nat) (code : ErrorCode) :
    Calm con (con.streamError sid code) :=
  calm_enqueue h (d := .rstStream code.code) (show FrameType.rstStream ≠ .data by decide) 0 sid

theorem calm_acceptSettings (h : con.Settled) : Calm con con.acceptSettings :=
  calm_enqueue h (d := .settings ∅) (show FrameType.settings ≠ .data by decide) Flag.ack 0

theorem settings_addToHt (context : Context) (key value : Octets) :
    (addToHt context key value).1.settings = context.settings := by
  unfold addToHt
  dsimp only
  split <;> rfl

theorem settings_encodeFields (headers : List Header) :
    ∀ context : Context, (encodeFields context headers).1.settings = context.settings := by
  induction headers with
  | nil => exact fun _ => rfl
  | cons header headers ih =>
      intro context
      rw [encodeFields]
      dsimp only
      rw [ih, encodeField]
      split
      · rfl
      · split
        · rfl
        · dsimp only
          split
          · exact settings_addToHt ..
          · exact settings_addToHt ..

theorem settings_headersEncode (context : Context) (headers : List Header) :
    (headersEncode context headers).1.settings = context.settings := by
  unfold headersEncode
  dsimp only
  split
  · exact settings_encodeFields _ _
  · exact settings_encodeFields _ _

theorem chains_calm : Chains fun con con' : Connection => con.Settled → Calm con con' where
  refl _ h := h.calm
  trans h h' hSettled := (h hSettled).trans (h' (h hSettled).settled)

theorem fragments_calm (sid : Nat) : Fragments sid fun con con' => con.Settled → Calm con con' where
  toChains := chains_calm
  encode _ _ h := calm_of_streams h rfl rfl (settings_headersEncode ..) rfl rfl
  continuation _ fragment flags h := calm_enqueue h (d := .continuation fragment)
    (show FrameType.continuation ≠ .data by decide) flags sid

theorem calm_sendHeaders (h : con.Settled) (sid : Nat) (headers : List Header) (ended : Bool) :
    Calm con (con.sendHeaders sid headers ended) :=
  (fragments_calm sid).sendHeaders (fun _ fields flags h => calm_enqueue h (d := .headers fields)
    (show FrameType.headers ≠ .data by decide) flags sid) con headers ended h

/-! ### Receiving -/

theorem calm_fcwUpdate (h : con.Settled) : Calm con con.fcwUpdate := by
  have hAdd : Calm con (con.addFcwRecv (con.decSetting Setting.initialWindowSize)) :=
    calm_of_streams h rfl rfl rfl rfl rfl
  exact hAdd.trans (calm_enqueue hAdd.settled
    (d := .windowUpdate (con.decSetting Setting.initialWindowSize))
    (show FrameType.windowUpdate ≠ .data by decide) 0 0)

theorem calm_addStreamFcwRecv (h : con.Settled) (sid : Nat) (delta : Int) :
    Calm con (con.addStreamFcwRecv sid delta) :=
  calm_modifyStream_same h sid (fun _ => rfl) (fun _ => rfl) (fun _ => rfl) (fun _ => rfl) fun _ => rfl

theorem calm_streamFcwUpdate (h : con.Settled) (sid : Nat) : Calm con (con.streamFcwUpdate sid) := by
  have hAdd := calm_addStreamFcwRecv h sid (con.decSetting Setting.initialWindowSize)
  exact hAdd.trans (calm_enqueue hAdd.settled
    (d := .windowUpdate (con.decSetting Setting.initialWindowSize))
    (show FrameType.windowUpdate ≠ .data by decide) 0 sid)

theorem calm_streamData (h : con.Settled) (sid : Nat) (data : Octets) :
    Calm con (con.streamData sid data) := by
  unfold streamData
  cases hs : con.stream? sid with
  | none => exact h.calm
  | some s =>
      have hSettled := h sid s hs
      dsimp only
      split
      · exact calm_of_streams h rfl rfl rfl rfl rfl
      · exact calm_setStream h hs
          ⟨⟨hSettled.promised, hSettled.pending, hSettled.blocked⟩, rfl, id, id⟩

theorem collects_calm (sid : Nat) : Collects sid fun con con' => con.Settled → Calm con con' where
  toChains := chains_calm
  setError _ code h := calm_setError h code
  streamError _ code h := calm_streamError h sid code
  fcwUpdate _ h := calm_fcwUpdate h
  streamFcwUpdate _ _ h := calm_streamFcwUpdate h sid
  streamData _ data h := calm_streamData h sid data

theorem calm_dataDecode (h : con.Settled) (fh : FrameHeader) (buf : Octets) :
    Calm con (con.dataDecode fh buf).1 :=
  (collects_calm fh.stream).dataDecode (fun _ _ h => calm_of_streams h rfl rfl rfl rfl rfl)
    (fun _ sid delta h => calm_addStreamFcwRecv h sid delta) con buf h

theorem calm_setDecodeCtx (h : con.Settled) (decodeCtx : DecodeContext) :
    Calm con (con.setDecodeCtx decodeCtx) := calm_of_streams h rfl rfl rfl rfl rfl

theorem calm_setHeaderBlock (h : con.Settled) (sid : Nat) (block : Octets) :
    Calm con (con.setHeaderBlock sid block) :=
  calm_modifyStream_same h sid (fun _ => rfl) (fun _ => rfl) (fun _ => rfl) (fun _ => rfl) fun _ => rfl

theorem calm_announce (h : con.Settled) (sid : Nat) (c : Validation) :
    Calm con (con.announce sid c) :=
  calm_modifyStream_same h sid (fun _ => rfl) (fun _ => rfl) (fun _ => rfl) (fun _ => rfl) fun _ => rfl

theorem calm_headersDecoded (h : con.Settled) (sid : Nat) : Calm con (con.headersDecoded sid).1 := by
  refine headersDecoded_rule (R := fun con con' => con.Settled → Calm con con')
    chains_calm.trans
    (fun _ c h => calm_announce h sid c) (fun _ h => calm_streamError h sid _)
    (fun _ h => calm_of_streams h rfl rfl rfl rfl rfl) con (fun con' isTrailer eh hSettled => ?_) h
  rw [h.promised sid]
  refine calm_modifyStream_same hSettled sid ?_ ?_ ?_ ?_ ?_
  all_goals
    intro s
    unfold Stream.store
    split <;> rfl

theorem calm_setWeight (h : con.Settled) (sid weight : Nat) : Calm con (con.setWeight sid weight) :=
  calm_modifyStream_same h sid (fun _ => rfl) (fun _ => rfl) (fun _ => rfl) (fun _ => rfl) fun _ => rfl

theorem decodes_calm (sid : Nat) : Decodes sid fun con con' => con.Settled → Calm con con' where
  toChains := chains_calm
  setWeight _ other weight h := calm_setWeight h other weight
  setStreamDep _ other _ h := calm_modifyStream_same h other (fun _ => rfl) (fun _ => rfl)
    (fun _ => rfl) (fun _ => rfl) fun _ => rfl
  setError _ code h := calm_setError h code
  streamError _ code h := calm_streamError h sid code
  setHeaderBlock _ block h := calm_setHeaderBlock h sid block
  headersDecode _ _ h := calm_setDecodeCtx h _
  headersDecoded _ h := calm_headersDecoded h sid

theorem answers_calm : Answers fun con con' => con.Settled → Calm con con' where
  toChains := chains_calm
  setError _ code h := calm_setError h code
  ackPing _ payload h := calm_enqueueFirst h (d := .ping payload)
    (show FrameType.ping ≠ .data by decide) Flag.ack 0
  goaway _ h := calm_of_streams h rfl rfl rfl rfl rfl

/-- The frame may move data, or is one no client sends. -/
def MovesData (type : FrameType) : Prop :=
  type = .settings ∨ type = .windowUpdate ∨ type = .pushPromise

theorem calm_payloadDecode (h : con.Settled) (ord : HashOrder) {fh : FrameHeader} (buf : Octets)
    (hType : ¬ MovesData fh.type) : Calm con (con.payloadDecode ord fh buf).1 := by
  unfold payloadDecode
  split
  · exact calm_dataDecode h fh buf
  · exact (decodes_calm fh.stream).headersFrameDecode con buf h
  · exact (decodes_calm fh.stream).priorityDecode (fun _ code h => calm_setError h code) con fh buf h
  · exact (decodes_calm fh.stream).rstStreamDecode (fun _ code h => calm_setReset h _ code) con buf h
  · next hEq => exact absurd (.inl hEq) hType
  · next hEq => exact absurd (.inr (.inr hEq)) hType
  · exact answers_calm.pingDecode con fh buf h
  · exact answers_calm.goawayDecode con fh h
  · next hEq => exact absurd (.inr (.inl hEq)) hType
  · exact (decodes_calm fh.stream).continuationDecode con buf h
  · exact h.calm

theorem calm_newPeerStream (h : con.Settled) {sid : Nat} (hNone : con.stream? sid = none) :
    Calm con (con.newPeerStream sid).1 := by
  unfold newPeerStream
  split
  · exact calm_setError h _
  · split
    · have hLast : Calm con (con.setLastPeerStream sid) := calm_of_streams h rfl rfl rfl rfl rfl
      exact hLast.trans (calm_streamError hLast.settled _ _)
    · have hEntry := calm_setStream_new (s := { con.newStreamEntry with
          cb := [(.opened, .opened), (.halfClosed, .halfClosed)] }) h hNone
        ⟨⟨rfl, (fun hEq => by cases hEq), (fun hEq => by cases hEq)⟩, le_refl _, rfl⟩
      exact hEntry.trans (calm_of_streams hEntry.settled rfl rfl rfl rfl rfl)

end Connection
end PageCamel.Http2

import PageCamel.Http2.SteadySteps

/-!
The three things that move a send window: a setting of the peer, an increment, and data that is
sent. Everything else a connection does is steady, so that what holds of its windows has to be
shown of these three only.
-/

namespace PageCamel.Http2
open PageCamel.Lib

/-! ### Settings -/

/-- The window has moved by `delta` unless the stream is closed; the rest is as it was. -/
structure Stream.Moved (delta : Int) (s s' : Stream) : Prop where
  state : s'.state = s.state
  promised : s'.promisedSid = s.promisedSid
  pending : s'.pendingState = s.pendingState
  blocked : s'.blockedData = s.blockedData
  window : s'.fcwSend.getD 0 = s.fcwSend.getD 0 + if s.state = some .closed then 0 else delta

theorem Stream.Moved.refl (s : Stream) : s.Moved 0 s :=
  ⟨rfl, rfl, rfl, rfl, by split <;> exact (add_zero _).symm⟩

theorem Stream.Moved.trans {s s' s'' : Stream} {delta delta' : Int} (h : s.Moved delta s')
    (h' : s'.Moved delta' s'') : s.Moved (delta + delta') s'' := by
  refine ⟨h'.state.trans h.state, h'.promised.trans h.promised, h'.pending.trans h.pending,
    h'.blocked.trans h.blocked, ?_⟩
  rw [h'.window, h.window, h.state]
  split
  · exact add_zero _
  · exact add_assoc ..

theorem Stream.moved_shiftOpen (delta : Int) (s : Stream) : s.Moved delta (shiftOpen delta s) := by
  rw [shiftOpen]
  split
  · next hClosed => exact ⟨rfl, rfl, rfl, rfl, by rw [if_pos hClosed, add_zero]⟩
  · next hOpen => exact ⟨rfl, rfl, rfl, rfl, by rw [if_neg hOpen]; rfl⟩

namespace Connection

variable {con con' con'' : Connection}

/-- The settings that are checked have values. -/
def Known (con : Connection) : Prop :=
  ∀ key value code, settingError key value = some code →
    (con.encodeCtx.settings.lookup key).isSome

theorem Steady.known {promises firm : Prop} (h : Steady promises firm con con') (hKnown : con.Known) :
    con'.Known := by
  intro key value code hError
  rw [h.settings]
  exact hKnown key value code hError

/-- The initial window has changed, and with it the windows of all streams that are not closed. -/
structure Adjusted (con con' : Connection) : Prop where
  none : ∀ sid, con.stream? sid = none → con'.stream? sid = none
  moved : ∀ sid s, con.stream? sid = some s →
    ∃ s', con'.stream? sid = some s' ∧ s.Moved (con'.initialWindow - con.initialWindow) s'
  queue : con'.queue = con.queue
  fcwSend : con'.fcwSend = con.fcwSend
  preface : con'.preface = con.preface
  error : con'.error = con.error
  goaway : con'.goaway = con.goaway
  shutdown : con'.shutdown = con.shutdown
  known : con.Known → con'.Known
  frameSize : 0 < con.encSetting Setting.maxFrameSize → 0 < con'.encSetting Setting.maxFrameSize

theorem Adjusted.refl (con : Connection) : Adjusted con con :=
  ⟨fun _ h => h, fun _ s hs => ⟨s, hs, by rw [sub_self]; exact .refl s⟩, rfl, rfl, rfl, rfl, rfl, rfl,
    id, id⟩

theorem Adjusted.trans (h : Adjusted con con') (h' : Adjusted con' con'') : Adjusted con con'' where
  none sid hNone := h'.none sid (h.none sid hNone)
  moved sid s hs := by
    obtain ⟨s', hs', hMoved⟩ := h.moved sid s hs
    obtain ⟨s'', hs'', hAgain⟩ := h'.moved sid s' hs'
    refine ⟨s'', hs'', ?_⟩
    have hBoth := hMoved.trans hAgain
    rw [add_comm, sub_add_sub_cancel] at hBoth
    exact hBoth
  queue := h'.queue.trans h.queue
  fcwSend := h'.fcwSend.trans h.fcwSend
  preface := h'.preface.trans h.preface
  error := h'.error.trans h.error
  goaway := h'.goaway.trans h.goaway
  shutdown := h'.shutdown.trans h.shutdown
  known hKnown := h'.known (h.known hKnown)
  frameSize hPositive := h'.frameSize (h.frameSize hPositive)

/-- A stream that is there afterwards was there before. -/
theorem Adjusted.before (h : Adjusted con con') {sid : Nat} {s' : Stream}
    (hs' : con'.stream? sid = some s') :
    ∃ s, con.stream? sid = some s ∧ s.Moved (con'.initialWindow - con.initialWindow) s' := by
  cases hs : con.stream? sid with
  | none =>
    rw [h.none sid hs] at hs'
    cases hs'
  | some s =>
    obtain ⟨t, ht, hMoved⟩ := h.moved sid s hs
    rw [hs'] at ht
    cases ht
    exact ⟨s, rfl, hMoved⟩

theorem Adjusted.announced (h : Adjusted con con') (hAnnounced : con.Announced) :
    con'.Announced := by
  rw [Announced, h.shutdown, h.goaway, h.error]
  exact hAnnounced

theorem Adjusted.proper (h : Adjusted con con') (hProper : con.Proper) : con'.Proper := by
  intro sid s' hs'
  obtain ⟨s, hs, hMoved⟩ := h.before hs'
  refine ⟨hMoved.promised.trans (hProper sid s hs).promised, ?_⟩
  rw [hMoved.pending, hMoved.state]
  exact (hProper sid s hs).pending

/-- The connection with a setting stored. -/
def storeSetting (con : Connection) (key value : Nat) : Connection :=
  { con with encodeCtx := { con.encodeCtx with settings := con.encodeCtx.settings.insert key value } }

theorem known_storeSetting (h : con.Known) (key value : Nat) : (con.storeSetting key value).Known :=
  fun other value' code hError => isSome_lookup_insert (h other value' code hError)

theorem encSetting_storeSetting (con : Connection) (key value other : Nat) :
    (con.storeSetting key value).encSetting other = if other = key then value else con.encSetting other := by
  show ((con.encodeCtx.settings.insert key value).lookup other).getD 0 = _
  split
  · next hEq => rw [hEq, AList.lookup_insert, Option.getD_some]
  · next hNe =>
    rw [AList.lookup_insert_ne hNe]
    rfl

/-- A setting that is accepted, and is not the initial window, is stored. -/
theorem adjusted_storeSetting (con : Connection) {key value : Nat}
    (hValid : settingError key value = none) (hKey : key ≠ Setting.initialWindowSize) :
    Adjusted con (con.storeSetting key value) := by
  have hWindow : (con.storeSetting key value).initialWindow = con.initialWindow := by
    rw [initialWindow, encSetting_storeSetting, if_neg (Ne.symm hKey)]
    rfl
  refine ⟨fun _ h => h, fun _ s hs => ⟨s, hs, ?_⟩, rfl, rfl, rfl, rfl, rfl, rfl,
    fun hKnown => known_storeSetting hKnown key value, fun hPositive => ?_⟩
  · rw [hWindow, sub_self]
    exact .refl s
  · rw [encSetting_storeSetting]
    split
    · next hFrame =>
      rw [settingError, if_pos hFrame.symm] at hValid
      split at hValid
      · next hRange => exact lt_of_lt_of_le (by decide) hRange.2
      · cases hValid
    · exact hPositive

theorem fcwInitialChange_flags (con : Connection) (size : Nat) :
    (con.fcwInitialChange size).preface = con.preface ∧
      (con.fcwInitialChange size).error = con.error ∧
      (con.fcwInitialChange size).goaway = con.goaway ∧
      (con.fcwInitialChange size).shutdown = con.shutdown := by
  obtain ⟨streams, hChange⟩ := fcwInitialChange_streams con size
  rw [hChange]
  exact ⟨rfl, rfl, rfl, rfl⟩

/-- `fcw_initial_change` and the new setting. -/
theorem adjusted_initialWindow (con : Connection) (value : Nat) :
    Adjusted con ((con.fcwInitialChange value).storeSetting Setting.initialWindowSize value) ∧
      ((con.fcwInitialChange value).storeSetting Setting.initialWindowSize value).initialWindow =
        value := by
  have hStream (sid : Nat) :
      ((con.fcwInitialChange value).storeSetting Setting.initialWindowSize value).stream? sid =
        (con.stream? sid).map (shiftOpen ((value : Int) - con.initialWindow)) :=
    stream?_fcwInitialChange con value sid
  have hWindow :
      ((con.fcwInitialChange value).storeSetting Setting.initialWindowSize value).initialWindow =
        value := by
    rw [initialWindow, encSetting_storeSetting, if_pos rfl]
  obtain ⟨hQueue, hContext, hSend⟩ := fcwInitialChange_same con value
  obtain ⟨hPreface, hError, hGoaway, hShutdown⟩ := fcwInitialChange_flags con value
  refine ⟨⟨fun sid hNone => ?_, fun sid s hs => ?_, hQueue, hSend, hPreface, hError, hGoaway,
    hShutdown, fun hKnown => ?_, fun hPositive => ?_⟩, hWindow⟩
  · rw [hStream, hNone]
    rfl
  · refine ⟨_, by rw [hStream, hs]; rfl, ?_⟩
    rw [hWindow]
    exact Stream.moved_shiftOpen _ s
  · refine known_storeSetting (fun key value' code hError => ?_) _ _
    rw [hContext]
    exact hKnown key value' code hError
  · rw [encSetting_storeSetting, if_neg (by decide), encSetting, hContext]
    exact hPositive

/-- One turn of the loop over the settings. What the peer advertises is what it changes. -/
theorem adjusted_applySetting (hKnown : con.Known) (key value : Nat) :
    match con.applySetting key value with
    | .ok con' => settingError key value = none ∧ Adjusted con con' ∧
        con'.initialWindow = if key = Setting.initialWindowSize then value else con.initialWindow
    | .error _ => (settingError key value).isSome := by
  have hWindowKnown : (con.encodeCtx.settings.lookup Setting.initialWindowSize).isSome :=
    hKnown Setting.initialWindowSize (2 ^ 31) .flowControlError (by decide)
  rw [applySetting]
  by_cases hUnknown : (con.encodeCtx.settings.lookup key).isNone
  · rw [if_pos hUnknown]
    have hNot : ¬ (con.encodeCtx.settings.lookup key).isSome := by simpa using hUnknown
    refine ⟨?_, .refl con, ?_⟩
    · by_contra hError
      obtain ⟨code, hCode⟩ := Option.ne_none_iff_exists'.mp hError
      exact hNot (hKnown key value code hCode)
    · rw [if_neg]
      rintro rfl
      exact hNot hWindowKnown
  · rw [if_neg hUnknown]
    cases hValid : settingError key value with
    | some code => rfl
    | none =>
      dsimp only
      by_cases hKey : key = Setting.initialWindowSize
      · subst hKey
        rw [if_pos rfl, if_neg (by decide)]
        obtain ⟨hAdjusted, hWindow⟩ := adjusted_initialWindow con value
        exact ⟨rfl, hAdjusted, hWindow.trans (if_pos rfl).symm⟩
      · rw [if_neg hKey, if_neg hKey]
        by_cases hEnable : key = Setting.enableConnectProtocol
        · rw [if_pos hEnable]
          exact ⟨rfl, .refl con, rfl⟩
        · rw [if_neg hEnable]
          refine ⟨rfl, adjusted_storeSetting con hValid hKey, ?_⟩
          show (con.storeSetting key value).encSetting _ = _
          rw [encSetting_storeSetting, if_neg (Ne.symm hKey)]
          rfl

/-- The loop over the settings, up to the first that is not valid. -/
theorem adjusted_applySettings (settings : List (Nat × Nat)) :
    ∀ {con : Connection}, con.Known → ∃ con', Adjusted con con' ∧
      ((con.applySettings settings = (con', true) ∧
          ∀ setting ∈ settings, settingError setting.1 setting.2 = none) ∨
        ∃ code, con.applySettings settings = (con'.setError code, false)) ∧
      ∀ advertised : Option Nat, ∀ built, con.initialWindow = advertised.getD built →
        con'.initialWindow = (advertise advertised settings).getD built := by
  induction settings with
  | nil => exact fun {con} _ => ⟨con, .refl con, .inl ⟨rfl, fun _ hMem => absurd hMem List.not_mem_nil⟩,
      fun _ _ hInitial => hInitial⟩
  | cons setting settings ih =>
    obtain ⟨key, value⟩ := setting
    intro con hKnown
    have hFirst := adjusted_applySetting hKnown key value
    rw [applySettings]
    cases hApply : con.applySetting key value with
    | error code =>
      rw [hApply] at hFirst
      obtain ⟨code', hError⟩ := Option.isSome_iff_exists.mp hFirst
      refine ⟨con, .refl con, .inr ⟨code, rfl⟩, fun advertised built hInitial => ?_⟩
      rw [advertise, hError]
      exact hInitial
    | ok mid =>
      rw [hApply] at hFirst
      obtain ⟨hValid, hAdjusted, hWindow⟩ := hFirst
      obtain ⟨con', hRest, hResult, hAdvertised⟩ := ih (hAdjusted.known hKnown)
      refine ⟨con', hAdjusted.trans hRest, hResult.imp_left fun hAll => ⟨hAll.1, ?_⟩,
        fun advertised built hInitial => ?_⟩
      · rintro setting hMem
        rcases List.mem_cons.mp hMem with rfl | hLater
        · exact hValid
        · exact hAll.2 setting hLater
      · rw [advertise, hValid]
        refine hAdvertised _ built ?_
        rw [hWindow]
        split
        · rfl
        · exact hInitial

theorem isSome_error_setError (h : con.Announced) (code : ErrorCode) :
    (con.setError code).error.isSome := by
  rw [setError]
  split
  · next hDown => exact (h hDown).2
  · rw [finish]
    split <;> rfl

theorem goaway_setError (h : con.Announced) (code : ErrorCode) :
    (con.setError code).goaway = true := by
  rw [setError]
  split
  · next hDown => exact (h hDown).1
  · next hUp =>
    rw [finish]
    split
    · next hDown => exact absurd hDown hUp
    · rfl

/-- A SETTINGS frame adjusts the windows; what follows is steady. Settings that are not valid
are an error. -/
theorem adjusted_settingsDecode {promises firm : Prop} (hKnown : con.Known) {fh : FrameHeader}
    (hType : fh.type = .settings) (hStream : fh.stream = 0) (buf : Octets) :
    ∃ con', Adjusted con con' ∧ Steady promises firm con' (con.settingsDecode fh buf).1 ∧
      ((∀ setting ∈ settingsIn fh buf, settingError setting.1 setting.2 = none) ∨
        (con.Announced → (con.settingsDecode fh buf).1.error.isSome)) ∧
      ∀ advertised : Option Nat, ∀ built, con.initialWindow = advertised.getD built →
        con'.initialWindow = (advertise advertised (settingsIn fh buf)).getD built := by
  have hSame (hNo : settingsIn fh buf = []) {con' : Connection}
      (hSteady : Steady promises firm con con') :
      ∃ mid, Adjusted con mid ∧ Steady promises firm mid con' ∧
        ((∀ setting ∈ settingsIn fh buf, settingError setting.1 setting.2 = none) ∨
          (con.Announced → con'.error.isSome)) ∧
        ∀ advertised : Option Nat, ∀ built, con.initialWindow = advertised.getD built →
          mid.initialWindow = (advertise advertised (settingsIn fh buf)).getD built := by
    rw [hNo]
    exact ⟨con, .refl con, hSteady, .inl fun _ hMem => absurd hMem List.not_mem_nil,
      fun _ _ hInitial => hInitial⟩
  rw [settingsDecode, if_neg fun hNe => hNe hStream]
  by_cases hAck : hasFlag fh.flags Flag.ack = true
  · rw [if_pos hAck]
    have hNo : settingsIn fh buf = [] := by
      rw [settingsIn, if_neg fun hAll => by rw [hAck] at hAll; cases hAll.2.2.1]
    split
    · exact hSame hNo (steady_setError con _)
    · exact hSame hNo (.refl con)
  · rw [if_neg hAck]
    by_cases hEmpty : fh.length = 0
    · rw [if_pos hEmpty]
      refine hSame ?_ (steady_acceptSettings con)
      rw [settingsIn, hEmpty, List.take_zero]
      split <;> rfl
    · rw [if_neg hEmpty]
      by_cases hSix : fh.length % 6 ≠ 0
      · rw [if_pos hSix]
        refine hSame ?_ (steady_setError con _)
        rw [settingsIn, if_neg fun hAll => hSix hAll.2.2.2]
      · rw [if_neg hSix]
        have hSettings : settingsIn fh buf = settingsPairs (buf.take fh.length) := by
          rw [settingsIn, if_pos]
          exact ⟨hType, hStream, by simpa using hAck, not_not.mp hSix⟩
        rw [← hSettings]
        obtain ⟨con', hAdjusted, hResult, hAdvertised⟩ :=
          adjusted_applySettings (settingsIn fh buf) hKnown
        rcases hResult with ⟨hApplied, hValid⟩ | ⟨code, hFailed⟩
        · rw [hApplied]
          exact ⟨con', hAdjusted, steady_acceptSettings con', .inl hValid, hAdvertised⟩
        · rw [hFailed]
          exact ⟨con', hAdjusted, steady_setError con' code,
            .inr fun h => isSome_error_setError (hAdjusted.announced h) code, hAdvertised⟩

/-! ### Increments -/

/-- The connection after a WINDOW_UPDATE frame with an increment for a stream that exists,
or with 0 for the connection. -/
def incremented (ord : HashOrder) (con : Connection) (sid n : Nat) : Connection :=
  let con := con.granted sid n
  if sid = 0 then
    if con.fcwSend > maxFcwSize then con.setError .flowControlError else con.sendBlocked ord
  else if (con.get sid Stream.fcwSend).getD 0 > maxFcwSize then
    con.streamError sid .flowControlError
  else con.streamSendBlocked sid

theorem windowUpdateDecode_incremented (ord : HashOrder) {fh : FrameHeader} (hLength : fh.length = 4)
    {buf : Octets} (hIncrement : unpack32 buf &&& 0x7FFFFFFF ≠ 0)
    (hStream : fh.stream ≠ 0 → (con.stream? fh.stream).isSome) :
    con.windowUpdateDecode ord fh buf =
      (con.incremented ord fh.stream (unpack32 buf &&& 0x7FFFFFFF), some fh.length) := by
  rw [windowUpdateDecode, if_neg (not_not.mpr hLength), if_neg hIncrement, incremented]
  generalize unpack32 buf &&& 0x7FFFFFFF = n
  by_cases hZero : fh.stream = 0
  · rw [if_pos hZero, granted, if_pos hZero]
    dsimp only
    rw [if_pos hZero]
  · rw [if_neg hZero, granted, if_neg hZero]
    obtain ⟨s, hs⟩ := Option.isSome_iff_exists.mp (hStream hZero)
    rw [hs]
    dsimp only
    rw [if_neg hZero]
    split <;> rfl

/-- Resetting a stream that does not exist leaves an empty record. -/
theorem streamError_absent {sid : Nat} (hPreface : con.preface = true) (hSid : sid ≠ 0)
    (hNone : con.stream? sid = none) (code : ErrorCode) : con.streamError sid code =
      (con.push ⟨.rstStream, 0, sid, pack32 code.code⟩).setStream sid {} := by
  have hMade (frame : Frame) : (con.push frame).vivify sid = (con.push frame).setStream sid {} := by
    rw [vivify, show (con.push frame).stream? sid = none from hNone]
    rfl
  have hPromised (frame : Frame) : (con.push frame).get sid Stream.promisedSid = none :=
    get_of_none hNone _
  have hState (con : Connection) : (con.setStream sid {}).get sid Stream.state = none := by
    rw [get_of_some (stream?_setStream_self ..)]
  rw [streamError, enqueue]
  dsimp only [frameEncode, encodeEffect]
  rw [modifyStream_of_none hNone]
  unfold stateMachine
  rw [if_neg (by simp [hSid, push, hPreface, FrameData.type]), hPromised]
  dsimp only
  rw [Option.getD_none, hMade, hState, if_pos ⟨rfl, rfl, rfl⟩]
  rfl

theorem isSome_stream?_newPeerStream {sid : Nat} (hMade : (con.newPeerStream sid).2 = true) :
    ((con.newPeerStream sid).1.stream? sid).isSome := by
  rw [newPeerStream] at hMade ⊢
  split at hMade
  · cases hMade
  · split at hMade
    · cases hMade
    · next hGood hFull =>
      rw [if_neg hGood, if_neg hFull]
      exact Option.isSome_iff_exists.mpr ⟨_, stream?_setStream_self ..⟩

end Connection

/-! ### Received frames -/

/-- A property of a connection and what it has heard that frames keep: steady steps keep it,
and so do increments, for the streams that exist and for those that are not made. -/
structure Flow.Kept (promises firm : Prop) (P : Flow → Prop) : Prop where
  steady : ∀ {f : Flow} {con}, P f → Connection.Steady promises firm f.con con → P (f.update con)
  zero : ∀ {f : Flow} (sid : Nat), P f → P { f with increments := f.increments ++ [(sid, 0)] }
  refused : ∀ {f : Flow} {sid : Nat} (n : Nat), P f → sid ≠ 0 → f.con.stream? sid = none →
    (f.con.newPeerStream sid).2 = false → P { f with
      con := (f.con.newPeerStream sid).1, increments := f.increments ++ [(sid, n)] }
  increment : ∀ {f : Flow} (ord : HashOrder) {sid n : Nat}, P f →
    (sid ≠ 0 → (f.con.stream? sid).isSome) → 0 < n → n ≤ maxFcwSize → P { f with
      con := f.con.incremented ord sid n, increments := f.increments ++ [(sid, n)] }

namespace Flow

variable {promises firm : Prop} {P : Flow → Prop} {f : Flow}

theorem Kept.windowUpdateDecode (h : Kept promises firm P) (hP : P f) (ord : HashOrder)
    {fh : FrameHeader} (hType : fh.type = .windowUpdate)
    (hStream : fh.stream ≠ 0 → (f.con.stream? fh.stream).isSome) (payload : Octets) :
    P ((f.hear fh payload).update (f.con.windowUpdateDecode ord fh payload).1) := by
  have hSettings : settingsIn fh payload = [] := by
    rw [settingsIn, if_neg fun hAll => by rw [hType] at hAll; cases hAll.1]
  by_cases hLength : fh.length = 4
  · have hHeard : f.hear fh payload = { f with
        increments := f.increments ++ [(fh.stream, unpack32 payload &&& 0x7FFFFFFF)] } := by
      rw [hear, hSettings, incrementIn, if_pos ⟨hType, hLength⟩]
      rfl
    rw [hHeard]
    by_cases hZero : unpack32 payload &&& 0x7FFFFFFF = 0
    · rw [Connection.windowUpdateDecode, if_neg (not_not.mpr hLength), if_pos hZero, hZero]
      exact h.steady (h.zero fh.stream hP) (Connection.steady_setError f.con _)
    · rw [Connection.windowUpdateDecode_incremented ord hLength hZero hStream]
      exact h.increment ord hP hStream (Nat.pos_of_ne_zero hZero) Nat.and_le_right
  · rw [f.hear_other hSettings (by rw [incrementIn, if_neg fun hAll => hLength hAll.2]),
      Connection.windowUpdateDecode, if_pos hLength]
    exact h.steady hP (Connection.steady_setError f.con _)

/-- The decoders of all frames; what a SETTINGS frame does is shown beforehand. -/
theorem Kept.payloadDecode (h : Kept promises firm P) (hP : P f) (ord : HashOrder) {fh : FrameHeader}
    {payload : Octets} (hPromise : promises ∧ ¬ firm ∨ fh.type ≠ .pushPromise)
    (hStream : fh.stream ≠ 0 → (f.con.stream? fh.stream).isSome)
    (hSettings : fh.type = .settings → fh.stream = 0 →
      P ((f.hear fh payload).update (f.con.settingsDecode fh payload).1)) :
    P ((f.hear fh payload).update (f.con.payloadDecode ord fh payload).1) := by
  by_cases hType : fh.type = .settings
  · rw [Connection.payloadDecode, hType]
    by_cases hZero : fh.stream = 0
    · exact hSettings hType hZero
    · rw [f.hear_other (by rw [settingsIn, if_neg fun hAll => hZero hAll.2.1])
        (by rw [incrementIn, if_neg fun hAll => by rw [hType] at hAll; cases hAll.1]),
        Connection.settingsDecode, if_pos hZero]
      exact h.steady hP (Connection.steady_setError f.con _)
  · by_cases hUpdate : fh.type = .windowUpdate
    · rw [Connection.payloadDecode, hUpdate]
      exact h.windowUpdateDecode hP ord hUpdate hStream payload
    · rw [f.hear_other (by rw [settingsIn, if_neg fun hAll => hType hAll.1])
        (by rw [incrementIn, if_neg fun hAll => hUpdate hAll.1])]
      exact h.steady hP (Connection.steady_payloadDecode ord f.con hType hUpdate hPromise payload)

theorem Kept.frameReceive (h : Kept promises firm P) (hP : P f) (ord : HashOrder) {fh : FrameHeader}
    {payload : Octets} (hPromise : promises ∧ ¬ firm ∨ fh.type ≠ .pushPromise)
    (hStream : fh.stream ≠ 0 → (f.con.stream? fh.stream).isSome)
    (hSettings : fh.type = .settings → fh.stream = 0 →
      P ((f.hear fh payload).update (f.con.settingsDecode fh payload).1)) :
    P ((f.hear fh payload).update (f.con.frameReceive ord fh payload).1) := by
  have hDecode := h.payloadDecode hP ord hPromise hStream hSettings
  rw [Connection.frameReceive]
  cases hResult : f.con.payloadDecode ord fh payload with
  | mk con taken =>
    rw [hResult] at hDecode
    cases taken with
    | none => exact hDecode
    | some n =>
      exact h.steady (f := (f.hear fh payload).update con) hDecode (Connection.steady_stateMachine ..)

theorem Kept.frameAdmit (h : Kept promises firm P) (hP : P f) (ord : HashOrder) {fh : FrameHeader}
    {payload : Octets} (hPromise : promises ∧ ¬ firm ∨ fh.type ≠ .pushPromise)
    (hSettings : fh.type = .settings → fh.stream = 0 →
      P ((f.hear fh payload).update (f.con.settingsDecode fh payload).1)) :
    P ((f.hear fh payload).update (f.con.frameAdmit ord fh payload).1) := by
  rw [Connection.frameAdmit]
  split
  · next hNew =>
    obtain ⟨hNonzero, hAbsent⟩ := hNew
    have hNone : f.con.stream? fh.stream = none := by simpa using hAbsent
    have hMade := h.steady hP (Connection.steady_newPeerStream f.con (.inr hNone))
    have hFound : (f.con.newPeerStream fh.stream).2 = true →
        ((f.con.newPeerStream fh.stream).1.stream? fh.stream).isSome :=
      Connection.isSome_stream?_newPeerStream
    have hRefused (n : Nat) := h.refused n hP hNonzero hNone
    cases hResult : f.con.newPeerStream fh.stream with
    | mk con made =>
      rw [hResult] at hMade hFound hRefused
      cases made with
      | true =>
        have hZero : fh.stream = 0 → False := fun hZero => hNonzero hZero
        exact h.frameReceive hMade ord hPromise (fun _ => hFound rfl)
          fun _ hZero' => (hZero hZero').elim
      | false =>
        show P ((f.hear fh payload).update con)
        have hNoSettings : settingsIn fh payload = [] := by
          rw [settingsIn, if_neg fun hAll => hNonzero hAll.2.1]
        by_cases hIncrement : fh.type = .windowUpdate ∧ fh.length = 4
        · rw [hear, hNoSettings, incrementIn, if_pos hIncrement]
          exact hRefused _ rfl
        · rw [f.hear_other hNoSettings (if_neg hIncrement)]
          exact hMade
  · next hOld =>
    refine h.frameReceive hP ord hPromise (fun hNonzero => ?_) hSettings
    by_contra hNone
    exact hOld ⟨hNonzero, by simpa using hNone⟩

/-- A frame that arrives. -/
theorem Kept.recv (h : Kept promises firm P) (hP : P f) (ord : HashOrder) {buf : Octets}
    (hPromise : ∀ fh payload, f.con.inTurn buf = some (fh, payload) →
      promises ∧ ¬ firm ∨ fh.type ≠ .pushPromise)
    (hSettings : ∀ fh payload, f.con.inTurn buf = some (fh, payload) → fh.type = .settings →
      fh.stream = 0 → P ((f.hear fh payload).update (f.con.settingsDecode fh payload).1)) :
    P (f.step (.recv ord buf)) := by
  rcases f.recv_cases ord buf with hStays | ⟨code, hError⟩ | ⟨fh, payload, hTurn, hAdmit⟩
  · rw [hStays]
    exact h.steady hP (.refl f.con)
  · rw [hError]
    exact h.steady hP (Connection.steady_setError f.con code)
  · rw [hAdmit]
    exact h.frameAdmit hP ord (hPromise fh payload hTurn) (hSettings fh payload hTurn)

end Flow

/-! ### Sent data -/

namespace Connection

variable {con : Connection} {sid : Nat}

/-- Both windows are charged for a DATA frame, which is queued. -/
def charged (con : Connection) (sid : Nat) (size : Int) (flags : UInt8) (payload : Octets) :
    Connection :=
  ((con.addFcwSend (-size)).addStreamFcwSend sid (-size)).push ⟨.data, flags, sid, payload⟩

/-- One turn of the loop of `send_data`. -/
def sendTurn (con : Connection) (sid : Nat) (size : Int) (flags : UInt8) (payload : Octets) :
    Connection :=
  (con.charged sid size flags payload).stateMachine .send .data flags sid

/-- The loop turn by turn. -/
theorem sendDataLoop_succ (sid : Nat) (ended : Bool) (fuel : Nat) (con : Connection) (data : Octets) :
    sendDataLoop sid ended (fuel + 1) con data =
      let size := con.sendSize sid data.length
      if data.length ≠ 0 ∧ size ≤ 0 then (con, data)
      else
        let flags := if ended = true ∧ (data.length : Int) = size then Flag.endStream else 0
        let con := con.sendTurn sid size flags (data.take size.toNat)
        if (data.length : Int) = size then (con, data.drop size.toNat)
        else sendDataLoop sid ended fuel con (data.drop size.toNat) := rfl

theorem stream?_charged (con : Connection) (sid : Nat) (size : Int) (flags : UInt8)
    (payload : Octets) (other : Nat) : (con.charged sid size flags payload).stream? other =
      if other = sid then (con.stream? sid).map (shift (-size)) else con.stream? other :=
  stream?_addStreamFcwSend ..

theorem get_charged {α : Type} {field : Stream → Option α}
    (hField : ∀ delta s, field (shift delta s) = field s) (con : Connection) (sid : Nat) (size : Int)
    (flags : UInt8) (payload : Octets) (other : Nat) :
    (con.charged sid size flags payload).get other field = con.get other field := by
  rw [get, stream?_charged]
  split
  · next hEq =>
    rw [hEq, get]
    cases con.stream? sid with
    | none => rfl
    | some s => exact hField (-size) s
  · rfl

theorem queue_charged (con : Connection) (sid : Nat) (size : Int) (flags : UInt8)
    (payload : Octets) : (con.charged sid size flags payload).queue =
      con.queue ++ [⟨.data, flags, sid, payload⟩] := by
  rw [charged, push, addStreamFcwSend, queue_modifyStream]
  rfl

theorem fcwSend_charged (con : Connection) (sid : Nat) (size : Int) (flags : UInt8)
    (payload : Octets) : (con.charged sid size flags payload).fcwSend = con.fcwSend - size := by
  rw [charged, push, addStreamFcwSend, fcwSend_modifyStream]
  rfl

theorem encodeCtx_charged (con : Connection) (sid : Nat) (size : Int) (flags : UInt8)
    (payload : Octets) : (con.charged sid size flags payload).encodeCtx = con.encodeCtx := by
  rw [charged, push, addStreamFcwSend, encodeCtx_modifyStream]
  rfl

theorem error_charged (con : Connection) (sid : Nat) (size : Int) (flags : UInt8)
    (payload : Octets) : (con.charged sid size flags payload).error = con.error := by
  rw [charged, push, addStreamFcwSend, error_modifyStream]
  rfl

theorem preface_charged (con : Connection) (sid : Nat) (size : Int) (flags : UInt8)
    (payload : Octets) : (con.charged sid size flags payload).preface = con.preface := by
  rw [charged, push, addStreamFcwSend, preface_modifyStream]
  rfl

theorem goaway_charged (con : Connection) (sid : Nat) (size : Int) (flags : UInt8)
    (payload : Octets) : (con.charged sid size flags payload).goaway = con.goaway := by
  rw [charged, push, addStreamFcwSend, goaway_modifyStream]
  rfl

theorem announced_charged (h : con.Announced) (sid : Nat) (size : Int) (flags : UInt8)
    (payload : Octets) : (con.charged sid size flags payload).Announced := by
  rw [Announced, goaway_charged, error_charged, charged, push, addStreamFcwSend]
  show (modifyStream _ sid _).shutdown = true → _
  rw [shutdown_modifyStream]
  exact h

theorem sendSize_le (con : Connection) (sid l : Nat) : con.sendSize sid l ≤ l := by
  unfold sendSize
  split
  · exact (Int.min_le_left _ _).trans (Int.min_le_right _ _)
  · exact (Int.min_le_left _ _).trans ((Int.min_le_left _ _).trans (Int.min_le_right _ _))

theorem sendSize_le_fcwSend (con : Connection) (sid l : Nat) : con.sendSize sid l ≤ con.fcwSend := by
  unfold sendSize
  split
  · exact Int.min_le_right _ _
  · exact (Int.min_le_left _ _).trans (Int.min_le_right _ _)

theorem sendSize_le_window {s : Stream} (hs : con.stream? sid = some s) (l : Nat) :
    con.sendSize sid l ≤ s.fcwSend.getD 0 := by
  rw [sendSize_of_some hs]
  exact Int.min_le_right _ _

/-- Without data the size of a frame is zero, or the window of the stream if that is negative. -/
theorem sendSize_nil (hRoom : 0 ≤ con.fcwSend) (sid : Nat) :
    con.sendSize sid 0 = min 0 ((con.get sid Stream.fcwSend).getD 0) := by
  cases hs : con.stream? sid with
  | none =>
    rw [get_of_none hs, sendSize, hs, Option.getD_none]
    dsimp only
    omega
  | some s =>
    rw [get_of_some hs, sendSize_of_some hs]
    omega

/-- The windows a turn of the loop keeps to. -/
theorem sendSize_bounds (hRoom : 0 ≤ con.fcwSend) (sid : Nat) (data : Octets) :
    con.sendSize sid data.length ≤ con.fcwSend ∧
      (data = [] → con.sendSize sid data.length = min 0 ((con.get sid Stream.fcwSend).getD 0)) ∧
      ((con.stream? sid).isSome →
        con.sendSize sid data.length ≤ (con.get sid Stream.fcwSend).getD 0) := by
  refine ⟨con.sendSize_le_fcwSend sid data.length, ?_, fun hSome => ?_⟩
  · rintro rfl
    exact sendSize_nil hRoom sid
  · obtain ⟨s, hs⟩ := Option.isSome_iff_exists.mp hSome
    rw [get_of_some hs]
    exact sendSize_le_window hs data.length

/-- What every turn of the loop of `send_data` preserves, the loop preserves. A turn with data
sends some of it. -/
theorem sendDataLoop_rule (ended : Bool) {P : Connection → Octets → Prop}
    (hTurn : ∀ con data flags, P con data → (data ≠ [] → 0 < con.sendSize sid data.length) →
      P (con.sendTurn sid (con.sendSize sid data.length) flags
        (data.take (con.sendSize sid data.length).toNat))
        (data.drop (con.sendSize sid data.length).toNat)) (fuel : Nat) :
    ∀ {con : Connection} {data : Octets}, P con data →
      P (sendDataLoop sid ended fuel con data).1 (sendDataLoop sid ended fuel con data).2 := by
  induction fuel with
  | zero => exact fun h => h
  | succ fuel ih =>
    intro con data h
    rw [sendDataLoop]
    dsimp only
    split
    · exact h
    · next hGoes =>
      have hNext := hTurn con data
        (if ended = true ∧ (data.length : Int) = con.sendSize sid data.length then Flag.endStream
          else 0) h fun hData => by
            have hLength : data.length ≠ 0 := fun hZero => hData (List.eq_nil_of_length_eq_zero hZero)
            by_contra hNot
            exact hGoes ⟨hLength, not_lt.mp hNot⟩
      split
      · exact hNext
      · exact ih hNext

/-- The end of the data is recorded, if it is given. -/
def setEnded (con : Connection) (sid : Nat) (ended : Option Bool) : Connection :=
  if ended.isSome then con.modifyStream sid fun s => { s with ended } else con

theorem stream?_setEnded {s : Stream} (hs : con.stream? sid = some s) (ended : Option Bool) :
    (con.setEnded sid ended).stream? sid = some { s with ended := ended.or s.ended } := by
  cases ended with
  | none => exact hs
  | some value =>
    show (con.modifyStream sid _).stream? sid = _
    rw [stream?_modifyStream_self, hs]
    rfl

theorem get_setEnded {α : Type} {field : Stream → Option α}
    (hField : ∀ s ended, field { s with ended } = field s) (con : Connection) (sid : Nat)
    (ended : Option Bool) (other : Nat) :
    (con.setEnded sid ended).get other field = con.get other field := by
  rw [setEnded]
  split
  · exact get_modifyStream (f := fun s => { s with ended }) (fun s => hField s ended) ..
  · rfl

theorem queue_setEnded (con : Connection) (sid : Nat) (ended : Option Bool) :
    (con.setEnded sid ended).queue = con.queue := by
  rw [setEnded]
  split
  · exact queue_modifyStream ..
  · rfl

theorem sendData_setEnded (con : Connection) (sid : Nat) (chunk : Octets) (ended : Option Bool) :
    con.sendData sid chunk ended =
      let data := (con.get sid Stream.blockedData).getD [] ++ chunk
      let con := con.setEnded sid ended
      let left := sendDataLoop sid ((con.get sid Stream.ended).getD false) (data.length + 3) con data
      left.1.modifyStream sid fun s => { s with blockedData := some left.2 } := rfl

theorem steady_setEnded {promises firm : Prop} (con : Connection) (sid : Nat) (ended : Option Bool) :
    Steady promises firm con (con.setEnded sid ended) := by
  rw [setEnded]
  split
  · exact steady_modifyStream_same con sid (fun _ => rfl) (fun _ => rfl) (fun _ => rfl)
      (fun _ => rfl) fun _ => rfl
  · exact .refl con

/-- The state machine does not move windows. -/
theorem get_fcwSend_sendTurn (con : Connection) (sid : Nat) (size : Int) (flags : UInt8)
    (payload : Octets) (other : Nat) : (con.sendTurn sid size flags payload).get other Stream.fcwSend =
      (con.charged sid size flags payload).get other Stream.fcwSend :=
  (quiet_stateMachine ..).streamFcwSend other

theorem get_fcwSend_charged_self (con : Connection) (sid : Nat) (size : Int) (flags : UInt8)
    (payload : Octets) : ((con.charged sid size flags payload).get sid Stream.fcwSend).getD 0 =
      if (con.stream? sid).isSome then (con.get sid Stream.fcwSend).getD 0 - size else 0 := by
  cases hs : con.stream? sid with
  | none =>
    have hNone : (con.charged sid size flags payload).stream? sid = none := by
      rw [stream?_charged, if_pos rfl, hs]
      rfl
    rw [get_of_none hNone]
    rfl
  | some s =>
    have hSome : (con.charged sid size flags payload).stream? sid = some (shift (-size) s) := by
      rw [stream?_charged, if_pos rfl, hs]
      rfl
    rw [get_of_some hSome, get_of_some hs]
    rfl

theorem get_fcwSend_charged_of_ne (con : Connection) {sid other : Nat} (hNe : other ≠ sid)
    (size : Int) (flags : UInt8) (payload : Octets) :
    (con.charged sid size flags payload).get other Stream.fcwSend = con.get other Stream.fcwSend := by
  rw [get, stream?_charged, if_neg hNe]
  rfl

end Connection

/-! ### Runs -/

/-- What happens to a connection of either side: a frame arrives, the application opens a stream,
sends something, or takes a frame from the queue. -/
inductive SendEvent where
  | recv (ord : HashOrder) (buf : Octets)
  | newStream
  | sendHeaders (sid : Nat) (headers : List Header) (ended : Bool)
  | sendPpHeaders (sid promisedId : Nat) (headers : List Header)
  | sendData (sid : Nat) (chunk : Octets) (ended : Option Bool)
  | sendPing (payload : Octets)
  | dequeue

namespace Flow

/-- A connection of either side with the given settings, once the preface is there. -/
def begin (type : Endpoint) (given : Settings) : Flow :=
  let con := { Connection.new type given with preface := true }
  { con, built := con.initialWindow }

def proceed (f : Flow) : SendEvent → Flow
  | .recv ord buf => f.step (.recv ord buf)
  | .newStream => f.update f.con.newStream.1
  | .sendHeaders sid headers ended => f.step (.sendHeaders sid headers ended)
  | .sendPpHeaders sid promisedId headers => f.update (f.con.sendPpHeaders sid promisedId headers)
  | .sendData sid chunk ended => f.step (.sendData sid chunk ended)
  | .sendPing payload => f.update (f.con.sendPing payload)
  | .dequeue => f.step .dequeue

theorem known_begin (type : Endpoint) (given : Settings) : (begin type given).con.Known := by
  intro key value code hError
  have hDefault := isSome_default_of_settingError hError
  rw [AList.lookup_isSome] at hDefault
  show ((given ∪ defaultSettings).lookup key).isSome
  rw [AList.lookup_isSome]
  exact AList.mem_union.mpr (.inr hDefault)

end Flow

/-- The id `new_stream` gives out. -/
def Connection.nextStream (con : Connection) : Nat :=
  if (con.stream? (if con.type = .client then 1 else 2)).isSome then con.lastStream + 2
  else con.lastStream

theorem Connection.steady_newStream {promises firm : Prop} (con : Connection)
    (hFresh : promises ∨ con.stream? con.nextStream = none) :
    Steady promises firm con con.newStream.1 := by
  rw [newStream]
  split
  · exact .refl con
  · next hStays =>
    have hLast : Steady promises firm con { con with lastStream := con.nextStream } :=
      steady_of_streams rfl (fun _ h => h) rfl rfl rfl id id id rfl
    exact hLast.trans (steady_newStreamEntry { con with lastStream := con.nextStream } hFresh
      (Bool.eq_false_iff.mpr hStays) [])

end PageCamel.Http2

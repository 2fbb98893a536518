import PageCamel.Http2.SendSteps

/-!
The largest send window. An increment that takes a window past 2^31-1 is answered with an error; a
setting that does so by way of the windows of open streams is not, nor is an empty call.
-/

namespace PageCamel.Http2
open PageCamel.Lib

namespace Connection

variable {con con' : Connection} {taken : List Frame} {sid : Nat}

/-- The stream was reset for a flow-control error. -/
def Overflowed (taken : List Frame) (con : Connection) (sid : Nat) : Prop :=
  ∃ frame ∈ taken ++ con.queue, frame.type = .rstStream ∧ frame.streamId = sid ∧
    frame.payload = pack32 ErrorCode.flowControlError.code

instance (taken : List Frame) (con : Connection) (sid : Nat) :
    Decidable (con.Overflowed taken sid) :=
  inferInstanceAs (Decidable (∃ frame ∈ taken ++ con.queue, _))

/-- No send window is larger than 2^31-1, save on streams that were reset for it. -/
structure Bounded (taken : List Frame) (con : Connection) : Prop where
  connection : con.fcwSend ≤ maxFcwSize
  stream : ∀ sid, (con.get sid Stream.fcwSend).getD 0 ≤ maxFcwSize ∨ con.Overflowed taken sid

end Connection

/-- The initial window after the settings of a frame. -/
def Connection.nextWindow (con : Connection) (fh : FrameHeader) (payload : Octets) : Nat :=
  (advertise (some con.initialWindow) (settingsIn fh payload)).getD 0

/-- Valid settings take no open stream past the largest window, and a call of `send_data` that has
nothing to send does not do so to the connection. -/
def SendEvent.Fits (f : Flow) : SendEvent → Prop
  | .recv _ buf => f.con.error = none → ∀ fh payload, f.con.inTurn buf = some (fh, payload) →
      settingsIn fh payload ≠ [] →
      (∀ setting ∈ settingsIn fh payload, Connection.settingError setting.1 setting.2 = none) →
      ∀ sid s, f.con.stream? sid = some s → s.state ≠ some .closed →
        s.fcwSend.getD 0 + (f.con.nextWindow fh payload - f.con.initialWindow : Int) ≤ maxFcwSize ∨
          f.con.Overflowed f.taken sid
  | .sendData sid chunk _ => f.con.error = none → f.con.toSend sid chunk = [] →
      f.con.fcwSend - min 0 ((f.con.get sid Stream.fcwSend).getD 0) ≤ maxFcwSize
  | _ => True

namespace Connection

variable {con con' : Connection} {taken : List Frame} {sid : Nat}

/-- As long as there is no error, the windows are bounded. -/
structure Capped (taken : List Frame) (con : Connection) : Prop where
  known : con.Known
  announced : con.Announced
  room : 0 ≤ con.fcwSend
  initial : con.initialWindow ≤ maxFcwSize
  bounded : con.error = none → con.Bounded taken

theorem Overflowed.mono (h : con.Overflowed taken sid) (hQueue : con.queue ⊆ con'.queue) :
    con'.Overflowed taken sid := by
  obtain ⟨frame, hMem, hReset⟩ := h
  refine ⟨frame, ?_, hReset⟩
  rcases List.mem_append.mp hMem with hTaken | hQueued
  · exact List.mem_append_left _ hTaken
  · exact List.mem_append_right _ (hQueue hQueued)

/-- The windows are bounded after a steady step from windows that are, or of streams that are
reset now. -/
theorem Steady.bounded {promises firm : Prop} (h : Steady promises firm con con')
    (hInitial : con.initialWindow ≤ maxFcwSize) (hConnection : con.fcwSend ≤ maxFcwSize)
    (hStream : ∀ sid, (con.get sid Stream.fcwSend).getD 0 ≤ maxFcwSize ∨ con'.Overflowed taken sid) :
    con'.Bounded taken := by
  refine ⟨h.fcwSend ▸ hConnection, fun sid => ?_⟩
  rcases h.window sid with hSame | hOpened
  · rw [hSame]
    exact hStream sid
  · rw [hOpened.window]
    exact .inl (Int.ofNat_le.mpr hInitial)

theorem Steady.no_error {promises firm : Prop} (h : Steady promises firm con con')
    (hUp : con'.error = none) : con.error = none := by
  rw [← Option.not_isSome_iff_eq_none] at hUp ⊢
  exact fun hSome => hUp (h.error hSome)

theorem Capped.steady (h : con.Capped taken) (hSteady : Steady True False con con') :
    con'.Capped taken where
  known := hSteady.known h.known
  announced := hSteady.announced h.announced
  room := hSteady.fcwSend ▸ h.room
  initial := hSteady.initialWindow ▸ h.initial
  bounded hUp := by
    have hBounded := h.bounded (hSteady.no_error hUp)
    exact hSteady.bounded h.initial hBounded.connection
      fun sid => (hBounded.stream sid).imp_right fun hOver => hOver.mono hSteady.queue

/-! ### Sending data -/

theorem initialWindow_charged (con : Connection) (sid : Nat) (size : Int) (flags : UInt8)
    (payload : Octets) : (con.charged sid size flags payload).initialWindow = con.initialWindow := by
  rw [initialWindow, encSetting, encodeCtx_charged]
  rfl

/-- What a turn of the loop of `send_data` starts with: an empty call does not open the window of
the connection too far. -/
def Fitting (taken : List Frame) (sid : Nat) (con : Connection) (data : Octets) : Prop :=
  con.Capped taken ∧ (data = [] → con.error = none →
    con.fcwSend - min 0 ((con.get sid Stream.fcwSend).getD 0) ≤ maxFcwSize)

theorem Fitting.turn {data : Octets} (h : con.Fitting taken sid data) (flags : UInt8)
    (hGoes : data ≠ [] → 0 < con.sendSize sid data.length) :
    (con.sendTurn sid (con.sendSize sid data.length) flags
      (data.take (con.sendSize sid data.length).toNat)).Fitting taken sid
      (data.drop (con.sendSize sid data.length).toNat) := by
  obtain ⟨hCapped, hEmpty⟩ := h
  obtain ⟨hRoom, hNil, hLeft⟩ := sendSize_bounds hCapped.room sid data
  generalize con.sendSize sid data.length = size at hGoes hRoom hNil hLeft ⊢
  generalize data.take size.toNat = payload
  have hSteady : Steady True False (con.charged sid size flags payload)
      (con.sendTurn sid size flags payload) := steady_stateMachine ..
  have hSend : (con.sendTurn sid size flags payload).fcwSend = con.fcwSend - size :=
    hSteady.fcwSend.trans (fcwSend_charged ..)
  have hUp (hUp : (con.sendTurn sid size flags payload).error = none) : con.error = none :=
    (error_charged ..).symm.trans (hSteady.no_error hUp)
  -- an octet that is sent narrows the window, an empty call opens it as far as the stream's is negative
  have hConnection (hCon : con.error = none) : con.fcwSend - size ≤ maxFcwSize := by
    by_cases hData : data = []
    · rw [hNil hData]
      exact hEmpty hData hCon
    · have hBefore := (hCapped.bounded hCon).connection
      have hPositive := hGoes hData
      omega
  have hWindow (other : Nat) :
      ((con.sendTurn sid size flags payload).get other Stream.fcwSend).getD 0 ≤
        max 0 ((con.get other Stream.fcwSend).getD 0) := by
    rw [get_fcwSend_sendTurn]
    by_cases hOther : other = sid
    · subst hOther
      rw [get_fcwSend_charged_self]
      split
      · by_cases hData : data = []
        · rw [hNil hData]
          omega
        · have hPositive := hGoes hData
          omega
      · exact Int.le_max_left ..
    · rw [get_fcwSend_charged_of_ne con hOther]
      exact Int.le_max_right ..
  refine ⟨?_, fun _ hTurn => ?_⟩
  · exact
      { known := hSteady.known fun key value code hError => by
          rw [encodeCtx_charged]
          exact hCapped.known key value code hError
        announced := hSteady.announced (announced_charged hCapped.announced sid size flags payload)
        room := by
          rw [hSend]
          omega
        initial := by
          rw [hSteady.initialWindow, initialWindow_charged]
          exact hCapped.initial
        bounded := by
          intro hTurn
          have hBounded := hCapped.bounded (hUp hTurn)
          refine ⟨hSend ▸ hConnection (hUp hTurn), fun other => ?_⟩
          have hMax := hWindow other
          refine (hBounded.stream other).imp (fun hLe => ?_) fun hOver => hOver.mono ?_
          · have hPositive : (0 : Int) ≤ maxFcwSize := Int.natCast_nonneg _
            omega
          · refine fun frame hMem => hSteady.queue ?_
            rw [queue_charged]
            exact List.mem_append_left _ hMem }
  · rw [hSend, get_fcwSend_sendTurn, get_fcwSend_charged_self]
    have hFits := hConnection (hUp hTurn)
    split
    · next hSome =>
      have hOpen := hLeft hSome
      omega
    · omega

/-- The data that is left over is of no account for the windows. -/
theorem Capped.setBlocked (h : con.Capped taken) (sid : Nat) (data : Octets) :
    (con.modifyStream sid fun s => { s with blockedData := some data }).Capped taken := by
  have hGet (other : Nat) : (con.modifyStream sid fun s => { s with blockedData := some data }).get
      other Stream.fcwSend = con.get other Stream.fcwSend :=
    get_modifyStream (f := fun s => { s with blockedData := some data }) (fun _ => rfl) ..
  have hWindow : (con.modifyStream sid fun s => { s with blockedData := some data }).initialWindow =
      con.initialWindow := by
    rw [initialWindow, encSetting, encodeCtx_modifyStream]
    rfl
  refine ⟨fun key value code hError => ?_, ?_, ?_, hWindow ▸ h.initial, fun hUp => ?_⟩
  · rw [encodeCtx_modifyStream]
    exact h.known key value code hError
  · rw [Announced, shutdown_modifyStream, goaway_modifyStream, error_modifyStream]
    exact h.announced
  · rw [fcwSend_modifyStream]
    exact h.room
  · rw [error_modifyStream] at hUp
    have hBounded := h.bounded hUp
    refine ⟨by rw [fcwSend_modifyStream]; exact hBounded.connection, fun other => ?_⟩
    rw [hGet, Overflowed, queue_modifyStream]
    exact hBounded.stream other

theorem Capped.sendData (h : con.Capped taken) (sid : Nat) (chunk : Octets) (ended : Option Bool)
    (hFits : con.error = none → con.toSend sid chunk = [] →
      con.fcwSend - min 0 ((con.get sid Stream.fcwSend).getD 0) ≤ maxFcwSize) :
    (con.sendData sid chunk ended).Capped taken := by
  rw [sendData_setEnded]
  dsimp only
  rw [toSend] at hFits
  generalize (con.get sid Stream.blockedData).getD [] ++ chunk = data at hFits ⊢
  have hEnded : Steady True False con (con.setEnded sid ended) := steady_setEnded ..
  have hSame : (con.setEnded sid ended).get sid Stream.fcwSend = con.get sid Stream.fcwSend :=
    get_setEnded (fun _ _ => rfl) ..
  generalize con.setEnded sid ended = con' at hEnded hSame ⊢
  have hStart : con'.Fitting taken sid data := by
    refine ⟨h.steady hEnded, fun hNil hUp => ?_⟩
    rw [hEnded.fcwSend, hSame]
    exact hFits (hEnded.no_error hUp) hNil
  have hLoop := sendDataLoop_rule ((con'.get sid Stream.ended).getD false)
    (P := Fitting taken sid) (fun _ _ flags hFitting hGoes => hFitting.turn flags hGoes)
    (data.length + 3) hStart
  exact hLoop.1.setBlocked sid _

theorem Capped.streamSendBlocked (h : con.Capped taken) (sid : Nat) :
    (con.streamSendBlocked sid).Capped taken := by
  rw [Connection.streamSendBlocked]
  cases hs : con.stream? sid with
  | none => exact h
  | some s =>
    dsimp only
    split
    · next hBlocked =>
      refine h.sendData sid [] none fun _ hNothing => ?_
      rw [toSend, get_of_some hs, List.append_nil] at hNothing
      exact absurd hNothing hBlocked.1
    · exact h

theorem Capped.sendBlocked (h : con.Capped taken) (ord : HashOrder) :
    (con.sendBlocked ord).Capped taken := by
  rw [Connection.sendBlocked]
  generalize ord.order con.streams.keys = keys
  induction keys generalizing con with
  | nil => exact h
  | cons sid keys ih => exact ih (h.streamSendBlocked sid)

/-! ### Increments and settings -/

/-- A stream error for an overflow is a frame that tells of it. -/
theorem overflowed_streamError (con : Connection) (sid : Nat) :
    (con.streamError sid .flowControlError).Overflowed taken sid := by
  have hSteady : Steady True False ((con.encodeEffect (.rstStream ErrorCode.flowControlError.code)
      sid).push ⟨.rstStream, 0, sid, pack32 ErrorCode.flowControlError.code⟩)
      (con.streamError sid .flowControlError) := steady_stateMachine ..
  refine ⟨⟨.rstStream, 0, sid, pack32 ErrorCode.flowControlError.code⟩, ?_, rfl, rfl, rfl⟩
  exact List.mem_append_right _ (hSteady.queue (List.mem_append_right _ (List.mem_singleton_self _)))

theorem Capped.increment (h : con.Capped taken) (ord : HashOrder) (sid n : Nat) :
    (con.incremented ord sid n).Capped taken := by
  have hGrant : (con.granted sid n).encodeCtx = con.encodeCtx ∧
      (con.granted sid n).fcwSend = con.fcwSend + (if sid = 0 then (n : Int) else 0) ∧
      (con.granted sid n).error = con.error ∧ (con.granted sid n).goaway = con.goaway ∧
      (con.granted sid n).shutdown = con.shutdown ∧ (con.granted sid n).queue = con.queue := by
    rw [granted]
    split
    · exact ⟨rfl, rfl, rfl, rfl, rfl, rfl⟩
    · exact ⟨encodeCtx_modifyStream .., (fcwSend_modifyStream ..).trans (add_zero _).symm,
        error_modifyStream .., goaway_modifyStream .., shutdown_modifyStream .., queue_modifyStream ..⟩
  have hOther (other : Nat) (hNe : other ≠ sid ∨ sid = 0) :
      (con.granted sid n).get other Stream.fcwSend = con.get other Stream.fcwSend := by
    rw [granted]
    split
    · rfl
    · next hNonzero =>
      rw [get, stream?_addStreamFcwSend, if_neg (hNe.resolve_right hNonzero)]
      rfl
  obtain ⟨hContext, hSend, hError, hGoaway, hShutdown, hQueue⟩ := hGrant
  have hKnown : (con.granted sid n).Known := fun key value code hCheck => by
    rw [hContext]
    exact h.known key value code hCheck
  have hAnnounced : (con.granted sid n).Announced := by
    rw [Announced, hShutdown, hGoaway, hError]
    exact h.announced
  have hRoom : 0 ≤ (con.granted sid n).fcwSend := by
    have hBefore := h.room
    rw [hSend]
    split <;> omega
  have hInitial : (con.granted sid n).initialWindow ≤ maxFcwSize := by
    rw [initialWindow, encSetting, hContext]
    exact h.initial
  -- within the bound the increment counts, beyond it there is an error
  have hWithin (hConnection : con.error = none → (con.granted sid n).fcwSend ≤ maxFcwSize)
      (hStream : sid = 0 ∨ ((con.granted sid n).get sid Stream.fcwSend).getD 0 ≤ maxFcwSize) :
      (con.granted sid n).Capped taken := by
    refine ⟨hKnown, hAnnounced, hRoom, hInitial, fun hUp => ?_⟩
    rw [hError] at hUp
    refine ⟨hConnection hUp, fun other => ?_⟩
    rw [Overflowed, hQueue]
    by_cases hEq : other = sid ∧ sid ≠ 0
    · obtain ⟨rfl, hNonzero⟩ := hEq
      exact .inl (hStream.resolve_left hNonzero)
    · rw [hOther other (by tauto)]
      exact (h.bounded hUp).stream other
  have hBefore (hNonzero : sid ≠ 0) (hUp : con.error = none) :
      (con.granted sid n).fcwSend ≤ maxFcwSize := by
    rw [hSend, if_neg hNonzero, add_zero]
    exact (h.bounded hUp).connection
  rw [incremented]
  split
  · next hZero =>
    split
    · have hDown := isSome_error_setError hAnnounced .flowControlError
      have hSteady : Steady True False (con.granted sid n)
          ((con.granted sid n).setError .flowControlError) := steady_setError ..
      refine ⟨hSteady.known hKnown, hSteady.announced hAnnounced, hSteady.fcwSend ▸ hRoom,
        hSteady.initialWindow ▸ hInitial, fun hUp => ?_⟩
      rw [hUp] at hDown
      cases hDown
    · next hLe => exact (hWithin (fun _ => not_lt.mp hLe) (.inl hZero)).sendBlocked ord
  · next hNonzero =>
    split
    · have hSteady : Steady True False (con.granted sid n)
          ((con.granted sid n).streamError sid .flowControlError) := steady_streamError ..
      refine ⟨hSteady.known hKnown, hSteady.announced hAnnounced, hSteady.fcwSend ▸ hRoom,
        hSteady.initialWindow ▸ hInitial, fun hUp => ?_⟩
      have hUp' : con.error = none := hError ▸ hSteady.no_error hUp
      refine hSteady.bounded hInitial (hBefore hNonzero hUp') fun other => ?_
      by_cases hEq : other = sid
      · subst hEq
        exact .inr (overflowed_streamError (con.granted other n) other)
      · rw [hOther other (.inl hEq)]
        refine ((h.bounded hUp').stream other).imp_right fun hOver => hOver.mono ?_
        exact fun frame hMem => hSteady.queue (hQueue ▸ hMem)
    · next hLe =>
      exact (hWithin (hBefore hNonzero) (.inr (not_lt.mp hLe))).streamSendBlocked sid

/-- Valid settings leave the initial window below the bound. -/
theorem advertise_le (settings : List (Nat × Nat)) :
    ∀ {advertised : Option Nat} {built : Nat}, advertised.getD built ≤ maxFcwSize →
      (advertise advertised settings).getD built ≤ maxFcwSize := by
  induction settings with
  | nil => exact fun h => h
  | cons setting settings ih =>
    obtain ⟨key, value⟩ := setting
    intro advertised built h
    rw [advertise]
    cases hValid : settingError key value with
    | some code => exact h
    | none =>
      dsimp only
      refine ih ?_
      split
      · next hKey =>
        subst hKey
        rw [settingError, if_neg (by decide), if_neg (by decide), if_pos rfl] at hValid
        split at hValid
        · next hSmall => exact hSmall
        · cases hValid
      · exact h

theorem Capped.settingsDecode (h : con.Capped taken) {fh : FrameHeader} (hType : fh.type = .settings)
    (hStream : fh.stream = 0) (payload : Octets)
    (hFits : con.error = none → settingsIn fh payload ≠ [] →
      (∀ setting ∈ settingsIn fh payload, settingError setting.1 setting.2 = none) →
      ∀ sid s, con.stream? sid = some s → s.state ≠ some .closed →
        s.fcwSend.getD 0 + (con.nextWindow fh payload - con.initialWindow : Int) ≤ maxFcwSize ∨
          con.Overflowed taken sid) :
    (con.settingsDecode fh payload).1.Capped taken := by
  obtain ⟨con', hAdjusted, hSteady, hValid, hAdvertised⟩ :=
    @adjusted_settingsDecode con True False h.known fh hType hStream payload
  have hNext : con'.initialWindow = con.nextWindow fh payload := hAdvertised _ 0 rfl
  have hInitial : con'.initialWindow ≤ maxFcwSize := by
    rw [hNext]
    exact advertise_le _ h.initial
  have hKnown := hAdjusted.known h.known
  have hAnnounced := hAdjusted.announced h.announced
  have hRoom : 0 ≤ con'.fcwSend := hAdjusted.fcwSend ▸ h.room
  rcases hValid with hValid | hFailed
  · refine Capped.steady ?_ hSteady
    refine ⟨hKnown, hAnnounced, hRoom, hInitial, fun hUp => ?_⟩
    rw [hAdjusted.error] at hUp
    have hBounded := h.bounded hUp
    refine ⟨hAdjusted.fcwSend ▸ hBounded.connection, fun sid => ?_⟩
    rw [Overflowed, hAdjusted.queue]
    cases hs : con.stream? sid with
    | none =>
      rw [get_of_none (hAdjusted.none sid hs)]
      exact .inl (Int.natCast_nonneg _)
    | some s =>
      obtain ⟨s', hs', hMoved⟩ := hAdjusted.moved sid s hs
      rw [get_of_some hs', hMoved.window]
      split
      · rw [add_zero, ← get_of_some hs Stream.fcwSend]
        exact hBounded.stream sid
      · next hOpen =>
        rw [hNext]
        by_cases hEmpty : settingsIn fh payload = []
        · have hSame : con.nextWindow fh payload = con.initialWindow := by
            rw [nextWindow, hEmpty]
            rfl
          rw [hSame, sub_self, add_zero, ← get_of_some hs Stream.fcwSend]
          exact hBounded.stream sid
        · exact hFits hUp hEmpty hValid sid s hs hOpen
  · have hDown := hFailed h.announced
    refine ⟨hSteady.known hKnown, hSteady.announced hAnnounced, hSteady.fcwSend ▸ hRoom,
      hSteady.initialWindow ▸ hInitial, fun hUp => ?_⟩
    rw [hUp] at hDown
    cases hDown

/-! ### Runs -/

theorem kept_capped : Flow.Kept True False fun f => f.con.Capped f.taken where
  steady h hSteady := h.steady hSteady
  zero _ h := h
  refused _ h _ hNone _ := h.steady (steady_newPeerStream _ (.inr hNone))
  increment := @fun _ ord sid n h _ _ _ => h.increment ord sid n

end Connection

/-- One event. -/
theorem capped_proceed {f : Flow} (h : f.con.Capped f.taken) (event : SendEvent)
    (hFits : event.Fits f) : (f.proceed event).con.Capped (f.proceed event).taken := by
  cases event with
  | recv ord buf =>
    refine Connection.kept_capped.recv h ord (fun _ _ _ => .inl ⟨trivial, id⟩) ?_
    intro fh payload hTurn hType hStream
    exact h.settingsDecode hType hStream payload fun hUp => hFits hUp fh payload hTurn
  | newStream =>
    exact h.steady (Connection.steady_newStream f.con (.inl trivial))
  | sendHeaders sid headers ended =>
    exact h.steady (Connection.steady_sendHeaders ..)
  | sendPpHeaders sid promisedId headers =>
    exact h.steady (Connection.steady_sendPpHeaders ..)
  | sendData sid chunk ended => exact h.sendData sid chunk ended hFits
  | sendPing payload => exact h.steady (Connection.steady_sendPing ..)
  | dequeue =>
    refine ⟨h.known, h.announced, h.room, h.initial, fun hUp => ?_⟩
    have hBounded := h.bounded hUp
    refine ⟨hBounded.connection, fun sid => (hBounded.stream sid).imp_right ?_⟩
    rintro ⟨frame, hMem, hReset⟩
    refine ⟨frame, ?_, hReset⟩
    show frame ∈ (f.taken ++ f.con.queue.take 1) ++ f.con.queue.tail
    rw [List.append_assoc, ← List.drop_one, List.take_append_drop]
    exact hMem

/-- As long as valid settings and empty calls leave the windows within the bound, they are within
it while there is no error. -/
theorem send_windows_bounded {type : Endpoint} {given : Settings} {f : Flow}
    (hGiven : (Connection.new type given).initialWindow ≤ maxFcwSize)
    (hRun : Reached Flow.proceed (fun f event => event.Fits f) (Flow.begin type given) f)
    (hUp : f.con.error = none) : f.con.Bounded f.taken := by
  have hStart : (Flow.begin type given).con.Capped (Flow.begin type given).taken := by
    refine ⟨Flow.known_begin type given, fun hDown => ?_,
      Int.natCast_nonneg defaultInitialWindowSize, hGiven, fun _ => ⟨?_, fun sid => .inl ?_⟩⟩
    · cases hDown
    · show (defaultInitialWindowSize : Int) ≤ maxFcwSize
      decide
    · exact Int.natCast_nonneg _
  have hCapped : f.con.Capped f.taken :=
    @Reached.invariant _ _ _ _ _ _ (fun f => f.con.Capped f.taken) hStart
      (fun _ event h hFits => capped_proceed h event hFits) hRun
  exact hCapped.bounded hUp

/-- With this increment the window of stream 1 is 2^31-1. -/
def largeIncrementFrame : Octets := [0, 0, 4, 8, 0, 0, 0, 0, 1, 0x7F, 0xFF, 0, 0]

/-- SETTINGS with an initial window of 65536, one more than the default. -/
def largerWindowFrame : Octets := [0, 0, 6, 4, 0, 0, 0, 0, 0, 0, 4, 0, 1, 0, 0]

theorem fits_recv {f : Flow} {ord : HashOrder} {buf : Octets}
    (h : (f.con.inTurn buf).all (fun turn => settingsIn turn.1 turn.2 = []) = true) :
    (SendEvent.recv ord buf).Fits f := by
  intro _ fh payload hTurn hSettings
  rw [hTurn] at h
  exact absurd (by simpa using h) hSettings

theorem send_windows_bounded_largest :
    (runEvents Flow.proceed (Flow.begin .server ∅) [.recv .kept (settingsFrame 10),
      .recv .kept requestFrame, .recv .kept largeIncrementFrame]).con.Bounded [] := by
  refine @send_windows_bounded .server ∅ (runEvents Flow.proceed (Flow.begin .server ∅)
    [.recv .kept (settingsFrame 10), .recv .kept requestFrame, .recv .kept largeIncrementFrame])
    (by decide +kernel) (.next (SendEvent.recv .kept largeIncrementFrame)
      (.next (SendEvent.recv .kept requestFrame)
        (.next (SendEvent.recv .kept (settingsFrame 10)) .start ?_) ?_) ?_) (by decide +kernel)
  · intro _ _ _ _ _ _ sid s hs
    rw [show (Flow.begin .server ∅).con.stream? sid = none from rfl] at hs
    cases hs
  · exact fits_recv (by decide +kernel)
  · exact fits_recv (by decide +kernel)

/-- One more octet in the initial window, and the window of stream 1 is 2^31. -/
theorem send_windows_exceeded :
    let f := runEvents Flow.proceed (Flow.begin .server ∅) [.recv .kept requestFrame,
      .recv .kept largeIncrementFrame, .recv .kept largerWindowFrame]
    f.con.error = none ∧ ¬ f.con.Bounded f.taken := by
  intro f
  refine ⟨by decide +kernel, fun hBounded => ?_⟩
  have hStream := hBounded.stream 1
  revert hStream
  decide +kernel

end PageCamel.Http2

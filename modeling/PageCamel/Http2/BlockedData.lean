import PageCamel.Http2.SendSteps

/-!
Data that waits for a window. An increment resumes the streams it opens; a setting that opens the
windows of streams does not, and no more does an empty call that opens the one of the connection.
-/

namespace PageCamel.Http2
open PageCamel.Lib

/-- Data waits on the stream only while one of the two windows is closed. -/
def Connection.Resumed (con : Connection) (sid : Nat) : Prop :=
  (con.get sid Stream.blockedData).getD [] ≠ [] →
    (con.get sid Stream.fcwSend).getD 0 ≤ 0 ∨ con.fcwSend ≤ 0

/-- Settings open no window of a stream on which data waits, unless that of the connection is
closed. A call of `send_data` with nothing to send meets no negative window, or no data waits on a
stream with an open one. -/
def SendEvent.Resumes (f : Flow) : SendEvent → Prop
  | .recv _ buf => ∀ fh payload, f.con.inTurn buf = some (fh, payload) →
      settingsIn fh payload ≠ [] →
      ∀ sid s, f.con.stream? sid = some s → s.state ≠ some .closed → s.blockedData.getD [] ≠ [] →
        s.fcwSend.getD 0 + ((advertise (some f.con.initialWindow) (settingsIn fh payload)).getD 0 -
          f.con.initialWindow : Int) ≤ 0 ∨ f.con.fcwSend ≤ 0
  | .sendData sid chunk _ => f.con.toSend sid chunk = [] →
      0 ≤ (f.con.get sid Stream.fcwSend).getD 0 ∨
        ∀ other, (f.con.get other Stream.blockedData).getD [] ≠ [] →
          (f.con.get other Stream.fcwSend).getD 0 ≤ 0
  | _ => True

namespace Connection

variable {con con' : Connection} {sid : Nat} {promises firm : Prop}

theorem Steady.resumed (h : Steady promises firm con con') (hResumed : con.Resumed sid) :
    con'.Resumed sid := by
  intro hData
  rcases h.window sid with hSame | hOpened
  · rw [hSame, h.fcwSend]
    refine hResumed ?_
    rw [← h.blocked sid hData]
    exact hData
  · exact absurd hOpened.blocked hData

/-- What sending data needs: settings that are known, frames of some size and a window of the
connection that is never negative. -/
structure Ready (con : Connection) : Prop where
  known : con.Known
  frameSize : 0 < con.encSetting Setting.maxFrameSize
  room : 0 ≤ con.fcwSend

theorem Steady.ready (h : Steady promises firm con con') (hReady : con.Ready) : con'.Ready := by
  refine ⟨h.known hReady.known, ?_, h.fcwSend ▸ hReady.room⟩
  rw [encSetting, h.settings]
  exact hReady.frameSize

/-! ### Sending data -/

/-- What a turn of the loop of `send_data` starts with: the streams to keep are resumed, and an
empty call does not open the window of the connection for them. -/
structure Sending (keep : Nat → Prop) (sid : Nat) (con : Connection) (data : Octets) : Prop where
  ready : con.Ready
  resumed : ∀ other, other ≠ sid → keep other → con.Resumed other
  empty : data = [] → 0 ≤ (con.get sid Stream.fcwSend).getD 0 ∨
    ∀ other, (con.get other Stream.blockedData).getD [] ≠ [] →
      (con.get other Stream.fcwSend).getD 0 ≤ 0

theorem Sending.turn {keep : Nat → Prop} {data : Octets} (h : con.Sending keep sid data)
    (flags : UInt8) (hGoes : data ≠ [] → 0 < con.sendSize sid data.length) :
    (con.sendTurn sid (con.sendSize sid data.length) flags
      (data.take (con.sendSize sid data.length).toNat)).Sending keep sid
      (data.drop (con.sendSize sid data.length).toNat) := by
  obtain ⟨hRoom, hNil, hLeft⟩ := sendSize_bounds h.ready.room sid data
  generalize con.sendSize sid data.length = size at hGoes hRoom hNil hLeft ⊢
  generalize data.take size.toNat = payload
  have hSteady : Steady True False (con.charged sid size flags payload)
      (con.sendTurn sid size flags payload) := steady_stateMachine ..
  have hCharged : (con.charged sid size flags payload).Ready := by
    refine ⟨fun key value code hError => ?_, ?_, ?_⟩
    · rw [encodeCtx_charged]
      exact h.ready.known key value code hError
    · rw [encSetting, encodeCtx_charged]
      exact h.ready.frameSize
    · rw [fcwSend_charged]
      omega
  refine ⟨hSteady.ready hCharged, fun other hOther hKeep => hSteady.resumed ?_, fun _ => .inl ?_⟩
  · intro hData
    rw [get_charged fun _ _ => rfl] at hData
    rw [get_fcwSend_charged_of_ne con hOther, fcwSend_charged]
    by_cases hSize : 0 ≤ size
    · exact (h.resumed other hOther hKeep hData).imp_right fun hClosed => by omega
    · -- only an empty call has a negative size
      have hEmpty : data = [] := by
        by_contra hNe
        exact hSize (hGoes hNe).le
      have hNegative := hNil hEmpty
      refine .inl ((h.empty hEmpty).elim (fun hOpen => ?_) fun hClosed => hClosed other hData)
      omega
  · rw [get_fcwSend_sendTurn, get_fcwSend_charged_self]
    split
    · next hSome =>
      have hOpen := hLeft hSome
      omega
    · exact le_refl _

/-- The loop leaves data over only when it has found no room for it. -/
theorem sendDataLoop_exhausts (sid : Nat) (ended : Bool) (fuel : Nat) :
    ∀ (con : Connection) (data : Octets), (data ≠ [] → data.length < fuel) →
      let r := sendDataLoop sid ended fuel con data
      r.2 ≠ [] → r.1.sendSize sid r.2.length ≤ 0 := by
  induction fuel with
  | zero => exact fun con data hFuel hRest => absurd (hFuel hRest) (Nat.not_lt_zero _)
  | succ fuel ih =>
    intro con data hFuel
    have hLength := con.sendSize_le sid data.length
    rw [sendDataLoop]
    dsimp only
    split
    · next hStops => exact fun _ => hStops.2
    · next hGoes =>
      generalize con.sendSize sid data.length = size at hGoes hLength ⊢
      split
      · next hAll =>
        refine fun hRest => absurd (List.drop_eq_nil_iff.mpr ?_) hRest
        omega
      · refine ih _ _ fun hRest => ?_
        have hData : data ≠ [] := by
          rintro rfl
          exact hRest List.drop_nil
        have hFirst := hFuel hData
        have hNonempty : data.length ≠ 0 := fun hZero => hData (List.eq_nil_of_length_eq_zero hZero)
        rw [List.length_drop]
        omega

/-- Without room for data one of the windows is closed. -/
theorem closed_of_sendSize {s : Stream} (hs : con.stream? sid = some s) (hReady : con.Ready) {l : Nat}
    (hData : l ≠ 0) (hSize : con.sendSize sid l ≤ 0) : s.fcwSend.getD 0 ≤ 0 ∨ con.fcwSend ≤ 0 := by
  have hFrame := hReady.frameSize
  rw [sendSize_of_some hs] at hSize
  omega

theorem Ready.setBlocked (h : con.Ready) (sid : Nat) (data : Octets) :
    (con.modifyStream sid fun s => { s with blockedData := some data }).Ready := by
  refine ⟨fun key value code hError => ?_, ?_, ?_⟩
  · rw [encodeCtx_modifyStream]
    exact h.known key value code hError
  · rw [encSetting, encodeCtx_modifyStream]
    exact h.frameSize
  · rw [fcwSend_modifyStream]
    exact h.room

/-- `send_data`: the other streams stay resumed, and its own is. -/
theorem sendData_resumed (hReady : con.Ready) (sid : Nat) (chunk : Octets) (ended : Option Bool)
    (hEmpty : con.toSend sid chunk = [] → 0 ≤ (con.get sid Stream.fcwSend).getD 0 ∨
      ∀ other, (con.get other Stream.blockedData).getD [] ≠ [] →
        (con.get other Stream.fcwSend).getD 0 ≤ 0) :
    (con.sendData sid chunk ended).Ready ∧
      ∀ other, (other = sid ∨ con.Resumed other) → (con.sendData sid chunk ended).Resumed other := by
  rw [sendData_setEnded]
  dsimp only
  rw [toSend] at hEmpty
  generalize (con.get sid Stream.blockedData).getD [] ++ chunk = data at hEmpty ⊢
  have hEnded : Steady True False con (con.setEnded sid ended) := steady_setEnded ..
  have hSame : (∀ other, (con.setEnded sid ended).get other Stream.fcwSend =
      con.get other Stream.fcwSend) ∧ ∀ other,
        (con.setEnded sid ended).get other Stream.blockedData = con.get other Stream.blockedData :=
    ⟨get_setEnded (fun _ _ => rfl) con sid ended, get_setEnded (fun _ _ => rfl) con sid ended⟩
  generalize con.setEnded sid ended = start at hEnded hSame ⊢
  have hStart : start.Sending con.Resumed sid data := by
    refine ⟨hEnded.ready hReady, fun other _ hKeep => hEnded.resumed hKeep, fun hNil => ?_⟩
    simp only [hSame.1, hSame.2]
    exact hEmpty hNil
  generalize (start.get sid Stream.ended).getD false = ended
  have hLoop := sendDataLoop_rule ended (P := Sending con.Resumed sid)
    (fun _ _ flags hSending hGoes => hSending.turn flags hGoes) (data.length + 3) hStart
  have hRest := sendDataLoop_exhausts sid ended (data.length + 3) start data fun _ => by omega
  generalize sendDataLoop sid ended (data.length + 3) start data = r at hLoop hRest ⊢
  obtain ⟨left, rest⟩ := r
  refine ⟨hLoop.ready.setBlocked sid rest, fun other hOther => ?_⟩
  by_cases hEq : other = sid
  · subst hEq
    intro hData
    rw [get, stream?_modifyStream_self] at hData ⊢
    rw [fcwSend_modifyStream]
    cases hs : left.stream? other with
    | none =>
      rw [hs] at hData
      exact absurd rfl hData
    | some s =>
      rw [hs] at hData
      have hNonempty : rest ≠ [] := hData
      have hClosed : s.fcwSend.getD 0 ≤ 0 ∨ left.fcwSend ≤ 0 := closed_of_sendSize hs hLoop.ready
        (fun hZero => hNonempty (List.eq_nil_of_length_eq_zero hZero)) (hRest hNonempty)
      exact hClosed
  · rw [Resumed, fcwSend_modifyStream, get, get, stream?_modifyStream, if_neg hEq]
    exact hLoop.resumed other hEq (hOther.resolve_left hEq)

/-- `stream_send_blocked` resumes its stream. -/
theorem streamSendBlocked_resumed (hReady : con.Ready) (sid : Nat) :
    (con.streamSendBlocked sid).Ready ∧
      ∀ other, (other = sid ∨ con.Resumed other) → (con.streamSendBlocked sid).Resumed other := by
  rw [streamSendBlocked]
  cases hs : con.stream? sid with
  | none =>
    refine ⟨hReady, fun other hOther => ?_⟩
    rcases hOther with rfl | hResumed
    · rw [Resumed, get_of_none hs]
      exact fun hData => absurd rfl hData
    · exact hResumed
  | some s =>
    dsimp only
    split
    · next hBlocked =>
      refine sendData_resumed hReady sid [] none fun hNothing => ?_
      rw [toSend, get_of_some hs, List.append_nil] at hNothing
      exact absurd hNothing hBlocked.1
    · next hIdle =>
      refine ⟨hReady, fun other hOther => ?_⟩
      rcases hOther with rfl | hResumed
      · rw [Resumed, get_of_some hs, get_of_some hs]
        exact fun hData => .inl (not_lt.mp fun hOpen => hIdle ⟨hData, hOpen⟩)
      · exact hResumed

/-- `send_blocked` resumes every stream. -/
theorem sendBlocked_resumed (hReady : con.Ready) (ord : HashOrder) :
    (con.sendBlocked ord).Ready ∧ ∀ sid, (con.sendBlocked ord).Resumed sid := by
  have hFold (keys : List Nat) : ∀ {con : Connection}, con.Ready →
      (∀ sid, sid ∉ keys → con.Resumed sid) →
      (keys.foldl streamSendBlocked con).Ready ∧
        ∀ sid, (keys.foldl streamSendBlocked con).Resumed sid := by
    induction keys with
    | nil => exact fun hReady hResumed => ⟨hReady, fun sid => hResumed sid List.not_mem_nil⟩
    | cons key keys ih =>
      intro con hReady hResumed
      obtain ⟨hNext, hKeep⟩ := streamSendBlocked_resumed hReady key
      refine ih hNext fun sid hLater => hKeep sid ?_
      by_cases hEq : sid = key
      · exact .inl hEq
      · exact .inr (hResumed sid fun hMem => (List.mem_cons.mp hMem).elim hEq hLater)
  refine hFold (ord.order con.streams.keys) hReady fun sid hKey => ?_
  have hNone : con.stream? sid = none := by
    refine AList.lookup_eq_none.mpr fun hMem => hKey ?_
    exact (ord.perm con.streams.keys).mem_iff.mpr hMem
  rw [Resumed, get_of_none hNone]
  exact fun hData => absurd rfl hData

/-! ### What the peer sends -/

/-- Data waits nowhere while both windows are open. -/
structure Flowing (con : Connection) : Prop where
  ready : con.Ready
  resumed : ∀ sid, con.Resumed sid

theorem Flowing.steady (h : con.Flowing) (hSteady : Steady True False con con') : con'.Flowing :=
  ⟨hSteady.ready h.ready, fun sid => hSteady.resumed (h.resumed sid)⟩

theorem Ready.granted (h : con.Ready) (sid n : Nat) : (con.granted sid n).Ready := by
  rw [Connection.granted]
  split
  · exact ⟨h.known, h.frameSize, add_nonneg h.room (Int.natCast_nonneg n)⟩
  · refine ⟨fun key value code hError => ?_, ?_, ?_⟩
    · rw [addStreamFcwSend, encodeCtx_modifyStream]
      exact h.known key value code hError
    · rw [encSetting, addStreamFcwSend, encodeCtx_modifyStream]
      exact h.frameSize
    · rw [addStreamFcwSend, fcwSend_modifyStream]
      exact h.room

/-- An increment beyond the largest window meets one that is open, so that no data waits for it. -/
theorem Flowing.increment (h : con.Flowing) (ord : HashOrder) (sid : Nat) {n : Nat}
    (hLarge : n ≤ maxFcwSize) : (con.incremented ord sid n).Flowing := by
  have hReady := h.ready.granted sid n
  rw [incremented]
  split
  · next hZero =>
    split
    · next hOver =>
      have hGranted : (con.granted sid n) = con.addFcwSend n := by rw [Connection.granted, if_pos hZero]
      have hOpen : 0 < con.fcwSend := by
        have hSum : con.fcwSend + n > maxFcwSize := by
          rw [hGranted] at hOver
          exact hOver
        omega
      have hResumed (other : Nat) : (con.granted sid n).Resumed other := by
        rw [hGranted]
        intro hData
        exact .inl ((h.resumed other hData).resolve_right (not_le.mpr hOpen))
      exact Flowing.steady ⟨hReady, hResumed⟩ (steady_setError ..)
    · exact ⟨(sendBlocked_resumed hReady ord).1, (sendBlocked_resumed hReady ord).2⟩
  · next hNonzero =>
    have hGranted : (con.granted sid n) = con.addStreamFcwSend sid n := by
      rw [Connection.granted, if_neg hNonzero]
    have hSend : (con.granted sid n).fcwSend = con.fcwSend := by
      rw [hGranted, addStreamFcwSend, fcwSend_modifyStream]
    have hOther (other : Nat) (hNe : other ≠ sid) : (con.granted sid n).Resumed other := by
      rw [Resumed, hSend, hGranted, get, get, stream?_addStreamFcwSend, if_neg hNe]
      exact h.resumed other
    split
    · next hOver =>
      refine Flowing.steady ⟨hReady, fun other => ?_⟩ (steady_streamError ..)
      by_cases hEq : other = sid
      · subst hEq
        rw [Resumed, hSend, hGranted, get, get, stream?_addStreamFcwSend, if_pos rfl]
        rw [hGranted, get, stream?_addStreamFcwSend, if_pos rfl] at hOver
        intro hData
        cases hs : con.stream? other with
        | none =>
          rw [hs] at hData
          exact absurd rfl hData
        | some s =>
          rw [hs] at hData hOver
          have hWindow : s.fcwSend.getD 0 + n > maxFcwSize := hOver
          have hBefore := h.resumed other
          rw [Resumed, get_of_some hs, get_of_some hs] at hBefore
          refine .inr ((hBefore hData).resolve_left ?_)
          omega
      · exact hOther other hEq
    · obtain ⟨hNext, hKeep⟩ := streamSendBlocked_resumed hReady sid
      refine ⟨hNext, fun other => hKeep other ?_⟩
      by_cases hEq : other = sid
      · exact .inl hEq
      · exact .inr (hOther other hEq)

theorem Flowing.settingsDecode (h : con.Flowing) {fh : FrameHeader} (hType : fh.type = .settings)
    (hStream : fh.stream = 0) (payload : Octets)
    (hCloses : settingsIn fh payload ≠ [] → ∀ sid s, con.stream? sid = some s →
      s.state ≠ some .closed → s.blockedData.getD [] ≠ [] →
        s.fcwSend.getD 0 + ((advertise (some con.initialWindow) (settingsIn fh payload)).getD 0 -
          con.initialWindow : Int) ≤ 0 ∨ con.fcwSend ≤ 0) :
    (con.settingsDecode fh payload).1.Flowing := by
  obtain ⟨con', hAdjusted, hSteady, -, hAdvertised⟩ :=
    @adjusted_settingsDecode con True False h.ready.known fh hType hStream payload
  refine Flowing.steady ⟨⟨hAdjusted.known h.ready.known, hAdjusted.frameSize h.ready.frameSize,
    hAdjusted.fcwSend ▸ h.ready.room⟩, fun sid => ?_⟩ hSteady
  cases hs : con.stream? sid with
  | none =>
    rw [Resumed, get_of_none (hAdjusted.none sid hs)]
    exact fun hData => absurd rfl hData
  | some s =>
    obtain ⟨s', hs', hMoved⟩ := hAdjusted.moved sid s hs
    have hBefore := h.resumed sid
    rw [Resumed, get_of_some hs, get_of_some hs] at hBefore
    rw [Resumed, get_of_some hs', get_of_some hs', hMoved.blocked, hMoved.window, hAdjusted.fcwSend]
    intro hData
    split
    · rw [add_zero]
      exact hBefore hData
    · next hOpen =>
      have hNext : con'.initialWindow =
          (advertise (some con.initialWindow) (settingsIn fh payload)).getD 0 := hAdvertised _ 0 rfl
      by_cases hEmpty : settingsIn fh payload = []
      · have hSame : con'.initialWindow = con.initialWindow := by
          rw [hNext, hEmpty]
          rfl
        rw [hSame, sub_self, add_zero]
        exact hBefore hData
      · rw [hNext]
        exact hCloses hEmpty sid s hs hOpen hData

theorem kept_flowing : Flow.Kept True False fun f => f.con.Flowing where
  steady h hSteady := h.steady hSteady
  zero _ h := h
  refused _ h _ hNone _ := h.steady (steady_newPeerStream _ (.inr hNone))
  increment := @fun _ ord sid _ h _ _ hLarge => h.increment ord sid hLarge

end Connection

/-- One event. -/
theorem flowing_proceed {f : Flow} (h : f.con.Flowing) (event : SendEvent)
    (hResumes : event.Resumes f) : (f.proceed event).con.Flowing := by
  cases event with
  | recv ord buf =>
    refine Connection.kept_flowing.recv h ord (fun _ _ _ => .inl ⟨trivial, id⟩) ?_
    intro fh payload hTurn hType hStream
    exact h.settingsDecode hType hStream payload (hResumes fh payload hTurn)
  | newStream => exact h.steady (Connection.steady_newStream f.con (.inl trivial))
  | sendHeaders sid headers ended => exact h.steady (Connection.steady_sendHeaders ..)
  | sendPpHeaders sid promisedId headers => exact h.steady (Connection.steady_sendPpHeaders ..)
  | sendData sid chunk ended =>
    obtain ⟨hReady, hResumed⟩ := Connection.sendData_resumed h.ready sid chunk ended hResumes
    exact ⟨hReady, fun other => hResumed other (.inr (h.resumed other))⟩
  | sendPing payload => exact h.steady (Connection.steady_sendPing ..)
  | dequeue => exact ⟨⟨h.ready.known, h.ready.frameSize, h.ready.room⟩, h.resumed⟩

/-- As long as neither settings nor empty calls open a window that data waits for, data waits only
while a window is closed. -/
theorem blocked_data_resumed {type : Endpoint} {given : Settings} {f : Flow}
    (hFrame : 0 < (Connection.new type given).encSetting Setting.maxFrameSize)
    (hRun : Reached Flow.proceed (fun f event => event.Resumes f) (Flow.begin type given) f)
    (sid : Nat) : f.con.Resumed sid := by
  have hStart : (Flow.begin type given).con.Flowing := by
    refine ⟨⟨Flow.known_begin type given, hFrame, Int.natCast_nonneg defaultInitialWindowSize⟩,
      fun sid hData => ?_⟩
    exact absurd rfl hData
  have hFlowing : f.con.Flowing :=
    @Reached.invariant _ _ _ _ _ _ (fun f => f.con.Flowing) hStart
      (fun _ event h hResumes => flowing_proceed h event hResumes) hRun
  exact hFlowing.resumed sid

theorem resumes_recv {f : Flow} {ord : HashOrder} {buf : Octets}
    (h : (f.con.inTurn buf).all (fun turn => settingsIn turn.1 turn.2 = []) = true) :
    (SendEvent.recv ord buf).Resumes f := by
  intro fh payload hTurn hSettings
  rw [hTurn] at h
  exact absurd (by simpa using h) hSettings

/-- Ten octets wait for a window of five, which an increment opens. -/
theorem blocked_data_resumed_increment :
    (runEvents Flow.proceed (Flow.begin .server ∅) [.recv .kept (settingsFrame 5),
      .recv .kept requestFrame, .sendData 1 (octets "0123456789") none,
      .recv .kept incrementFrame]).con.Resumed 1 := by
  refine @blocked_data_resumed .server ∅ _ (by decide +kernel)
    (.next (SendEvent.recv .kept incrementFrame)
      (.next (SendEvent.sendData 1 (octets "0123456789") none)
        (.next (SendEvent.recv .kept requestFrame)
          (.next (SendEvent.recv .kept (settingsFrame 5)) .start ?_) ?_) ?_) ?_) 1
  · intro _ _ _ _ sid s hs
    rw [show (Flow.begin .server ∅).con.stream? sid = none from rfl] at hs
    cases hs
  · exact resumes_recv (by decide +kernel)
  · intro hNothing
    exact absurd hNothing (by decide +kernel)
  · exact resumes_recv (by decide +kernel)

/-- Settings that open the window instead leave the data where it is. -/
theorem blocked_data_stalls :
    ¬ (runEvents Flow.proceed (Flow.begin .server ∅) [.recv .kept (settingsFrame 5),
      .recv .kept requestFrame, .sendData 1 (octets "0123456789") none,
      .recv .kept (settingsFrame 20)]).con.Resumed 1 := by
  intro hResumed
  have hClosed := hResumed (by decide +kernel)
  revert hClosed
  decide +kernel

end PageCamel.Http2

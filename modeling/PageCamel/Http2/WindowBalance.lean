import PageCamel.Http2.SendSteps

/-!
The books of the send windows. As long as no empty call meets a negative window, the window of the
connection and that of every open stream are what the peer has granted less the data that was sent.
-/

namespace PageCamel.Http2
open PageCamel.Lib Connection

/-- The send windows are what the peer has granted less what was sent. Stream 0 is the connection. -/
structure Flow.Balanced (f : Flow) : Prop where
  connection : f.con.fcwSend + f.sent (fun _ => true) = defaultInitialWindowSize + f.granted 0
  stream : ∀ sid s, sid ≠ 0 → f.con.stream? sid = some s → s.Live →
    s.fcwSend.getD 0 + f.sentOn sid = (f.advertised.getD f.built : Nat) + f.granted sid

/-- A call of `send_data` that has nothing to send meets no negative window, no PUSH_PROMISE frame
is received, and a stream that is opened was not written to before. -/
def SendEvent.Balances (f : Flow) : SendEvent → Prop
  | .recv _ buf => ∀ fh payload, f.con.inTurn buf = some (fh, payload) → fh.type ≠ .pushPromise
  | .newStream => f.con.stream? f.con.nextStream = none
  | .sendData sid chunk _ =>
      f.con.toSend sid chunk = [] → 0 ≤ (f.con.get sid Stream.fcwSend).getD 0
  | _ => True

namespace Flow

/-- What keeps the books balanced: for a stream that is not there yet they are empty, or it will
never be opened. -/
structure Booked (f : Flow) : Prop where
  proper : f.con.Proper
  known : f.con.Known
  announced : f.con.Announced
  preface : f.con.preface = true
  initial : f.con.initialWindow = f.advertised.getD f.built
  room : 0 ≤ f.con.fcwSend
  connection : f.con.fcwSend + f.sent (fun _ => true) = defaultInitialWindowSize + f.granted 0
  window : ∀ sid s, sid ≠ 0 → f.con.stream? sid = some s → s.Live →
    s.fcwSend.getD 0 + f.sentOn sid = f.limit sid
  absent : ∀ sid, sid ≠ 0 → f.con.stream? sid = none →
    f.sentOn sid = 0 ∧ (f.granted sid = 0 ∨ f.con.goaway = true)

variable {f : Flow}

theorem Booked.balanced (h : f.Booked) : f.Balanced := by
  refine ⟨h.connection, fun sid s hSid hs hLive => ?_⟩
  rw [h.window sid s hSid hs hLive, limit, h.initial]
  exact Nat.cast_add ..

theorem sent_steady {con : Connection} {promises firm : Prop}
    (hSteady : Connection.Steady promises firm f.con con) (p : Nat → Bool) :
    (f.update con).sent p = f.sent p := by
  rw [sent, sent, dataOctets_append, dataOctets_append]
  exact congrArg _ (dataOctets_congr p hSteady.data)

/-- Steps that neither send data nor open a window. -/
theorem Booked.steady (h : f.Booked) {con : Connection}
    (hSteady : Connection.Steady False True f.con con) : (f.update con).Booked := by
  have hSent := sent_steady hSteady
  have hLimit (sid : Nat) : (f.update con).limit sid = f.limit sid :=
    congrArg (· + f.granted sid) hSteady.initialWindow
  exact
    { proper := hSteady.proper trivial h.proper
      known := hSteady.known h.known
      announced := hSteady.announced h.announced
      preface := hSteady.preface.trans h.preface
      initial := hSteady.initialWindow.trans h.initial
      room := hSteady.fcwSend ▸ h.room
      connection := by
        rw [hSent]
        exact hSteady.fcwSend ▸ h.connection
      window := by
        intro sid s' hSid hs' hLive
        have hs' : con.stream? sid = some s' := hs'
        rw [sentOn, hSent, hLimit]
        rcases hSteady.live trivial h.proper sid ⟨s', hs', hLive⟩ with ⟨s, hs, hBefore⟩ | hOpened
        · rcases hSteady.window sid with hSame | hOpened
          · rw [get_of_some hs', get_of_some hs] at hSame
            rw [hSame]
            exact h.window sid s hSid hs hBefore
          · have hNone := hOpened.fresh.resolve_left id
            rw [hs] at hNone
            cases hNone
        · -- the stream is new, and nothing was sent or granted before
          obtain ⟨hNothing, hUngranted⟩ := h.absent sid hSid (hOpened.fresh.resolve_left id)
          have hZero : f.granted sid = 0 := by
            refine hUngranted.resolve_right fun hGoing => ?_
            rw [hOpened.goaway] at hGoing
            cases hGoing
          have hWindow := hOpened.window
          rw [get_of_some hs'] at hWindow
          rw [sentOn] at hNothing
          rw [hWindow, hNothing, limit, hZero]
          rfl
      absent := by
        intro sid hSid hNone
        have hBefore : f.con.stream? sid = none := by
          have hNone : con.stream? sid = none := hNone
          rw [← Option.not_isSome_iff_eq_none] at hNone ⊢
          exact fun hSome => hNone (hSteady.streams sid hSome)
        rw [sentOn, hSent]
        exact (h.absent sid hSid hBefore).imp_right (Or.imp_right hSteady.goaway) }

end Flow

/-! ### Sending data -/

namespace Connection

variable {con : Connection} {sid : Nat}

/-- A frame that is sent on a stream brings it into being. -/
theorem isSome_stream?_send_data (hPreface : con.preface = true) (hSid : sid ≠ 0) (flags : UInt8) :
    ((con.stateMachine .send .data flags sid).stream? sid).isSome := by
  cases hs : con.stream? sid with
  | some s =>
    refine (quiet_stateMachine ..).streams sid ?_
    rw [hs]
    rfl
  | none =>
    have hMade : con.vivify sid = con.setStream sid {} := by
      rw [vivify, hs]
      rfl
    have hEmpty : (con.setStream sid {}).get sid Stream.state = none := by
      rw [get_of_some (stream?_setStream_self ..)]
    have hPending : (con.setStream sid {}).get sid Stream.pendingState = none := by
      rw [get_of_some (stream?_setStream_self ..)]
    unfold stateMachine
    rw [if_neg (by simp [hSid, hPreface]), get_of_none hs]
    dsimp only [Option.getD_none]
    simp only [hMade, hEmpty, hPending]
    simp [stateStep]

theorem proper_charged (h : con.Proper) (sid : Nat) (size : Int) (flags : UInt8) (payload : Octets) :
    (con.charged sid size flags payload).Proper := by
  intro other s hs
  rw [stream?_charged] at hs
  split at hs
  · obtain ⟨t, ht, rfl⟩ := Option.map_eq_some_iff.mp hs
    exact ⟨(h sid t ht).promised, (h sid t ht).pending⟩
  · exact h other s hs

end Connection

namespace Flow

variable {f : Flow}

/-- A turn of the loop of `send_data`: what is charged is what is sent. -/
theorem Booked.sendTurn (h : f.Booked) (sid : Nat) (flags : UInt8) (payload : Octets)
    (hRoom : (payload.length : Int) ≤ f.con.fcwSend) :
    (f.update (f.con.sendTurn sid payload.length flags payload)).Booked := by
  have hSteady : Connection.Steady False True (f.con.charged sid payload.length flags payload)
      (f.con.sendTurn sid payload.length flags payload) := steady_stateMachine ..
  have hQuiet := get_fcwSend_sendTurn f.con sid payload.length flags payload
  have hSent (p : Nat → Bool) :
      (f.update (f.con.sendTurn sid payload.length flags payload)).sent p =
        f.sent p + if p sid then payload.length else 0 := by
    have hAll := sent_steady (f := f.update (f.con.charged sid payload.length flags payload)) hSteady p
    refine hAll.trans ?_
    show dataOctets p (f.taken ++ (f.con.charged sid payload.length flags payload).queue) = _
    rw [queue_charged, ← List.append_assoc, dataOctets_append, dataOctets_data]
    rfl
  have hOn (other : Nat) : (f.update (f.con.sendTurn sid payload.length flags payload)).sentOn other =
      f.sentOn other + if sid = other then payload.length else 0 := by
    rw [sentOn, hSent]
    simp [sentOn]
  have hSend : (f.con.sendTurn sid payload.length flags payload).fcwSend =
      f.con.fcwSend - payload.length :=
    hSteady.fcwSend.trans (fcwSend_charged ..)
  have hStart : (f.con.charged sid payload.length flags payload).initialWindow =
      f.con.initialWindow := by
    rw [Connection.initialWindow, Connection.encSetting, encodeCtx_charged]
    rfl
  have hWindow : (f.con.sendTurn sid payload.length flags payload).initialWindow =
      f.con.initialWindow := hSteady.initialWindow.trans hStart
  have hProper := proper_charged h.proper sid payload.length flags payload
  exact
    { proper := hSteady.proper trivial hProper
      known := hSteady.known fun key value code hError => by
        rw [encodeCtx_charged]
        exact h.known key value code hError
      announced := hSteady.announced (announced_charged h.announced
        sid payload.length flags payload)
      preface := hSteady.preface.trans ((preface_charged ..).trans h.preface)
      initial := hWindow.trans h.initial
      room := by
        show 0 ≤ (f.con.sendTurn ..).fcwSend
        rw [hSend]
        omega
      connection := by
        have hBefore := h.connection
        rw [hSent]
        show (f.con.sendTurn ..).fcwSend + _ = _ + (f.granted 0 : Int)
        rw [hSend, if_pos rfl]
        push_cast
        omega
      window := by
        intro other s' hOther hs' hLive
        have hs' : (f.con.sendTurn sid payload.length flags payload).stream? other = some s' := hs'
        have hLimit : (f.update (f.con.sendTurn sid payload.length flags payload)).limit other =
            f.limit other := congrArg (· + f.granted other) hWindow
        have hSame := hQuiet other
        rw [get_of_some hs'] at hSame
        rw [hOn, hLimit, hSame]
        rcases hSteady.live trivial hProper other ⟨s', hs', hLive⟩ with ⟨s, hs, hBefore⟩ | hOpened
        · rw [get_of_some hs]
          rw [stream?_charged] at hs
          split at hs
          · next hEq =>
            subst hEq
            obtain ⟨t, ht, rfl⟩ := Option.map_eq_some_iff.mp hs
            have hBooked := h.window other t hOther ht hBefore
            rw [if_pos rfl, shift, Option.getD_some]
            push_cast
            omega
          · next hNe =>
            rw [if_neg (Ne.symm hNe)]
            exact h.window other s hOther hs hBefore
        · -- the state machine opens no stream
          have hNew := hOpened.window
          rw [hQuiet, get_of_none (hOpened.fresh.resolve_left id)] at hNew
          cases hNew
      absent := by
        intro other hOther hNone
        have hNone : (f.con.sendTurn sid payload.length flags payload).stream? other = none := hNone
        have hNe : other ≠ sid := by
          rintro rfl
          have hMade := isSome_stream?_send_data
            ((preface_charged f.con other payload.length flags payload).trans h.preface)
            hOther flags
          rw [show Connection.stateMachine _ _ _ _ _ = f.con.sendTurn other payload.length flags
            payload from rfl, hNone] at hMade
          cases hMade
        have hBefore : f.con.stream? other = none := by
          rw [← Option.not_isSome_iff_eq_none] at hNone ⊢
          refine fun hSome => hNone (hSteady.streams other ?_)
          rw [stream?_charged, if_neg hNe]
          exact hSome
        obtain ⟨hNothing, hUngranted⟩ := h.absent other hOther hBefore
        rw [hOn, if_neg (Ne.symm hNe)]
        refine ⟨hNothing, hUngranted.imp_right fun hGoing => hSteady.goaway ?_⟩
        rw [goaway_charged]
        exact hGoing }

/-- Data on its way: an empty call meets no negative window. -/
def Paying (f : Flow) (sid : Nat) (con : Connection) (data : Octets) : Prop :=
  (f.update con).Booked ∧ (data = [] → 0 ≤ (con.get sid Stream.fcwSend).getD 0)

theorem Paying.turn {con : Connection} {sid : Nat} {data : Octets} (h : f.Paying sid con data)
    (flags : UInt8) (hGoes : data ≠ [] → 0 < con.sendSize sid data.length) :
    f.Paying sid (con.sendTurn sid (con.sendSize sid data.length) flags
      (data.take (con.sendSize sid data.length).toNat))
      (data.drop (con.sendSize sid data.length).toNat) := by
  obtain ⟨hBooked, hWindow⟩ := h
  have hRoom : 0 ≤ con.fcwSend := hBooked.room
  have hSize : 0 ≤ con.sendSize sid data.length := by
    by_cases hEmpty : data = []
    · have hOpen := hWindow hEmpty
      rw [hEmpty, List.length_nil, sendSize_nil hRoom]
      omega
    · exact (hGoes hEmpty).le
  have hLength := con.sendSize_le sid data.length
  have hFits := con.sendSize_le_fcwSend sid data.length
  have hStream {s : Stream} (hs : con.stream? sid = some s) :=
    sendSize_le_window hs data.length
  obtain ⟨n, hEq⟩ := Int.eq_ofNat_of_zero_le hSize
  rw [hEq] at hLength hFits hStream ⊢
  rw [Int.toNat_natCast]
  have hTake : (data.take n).length = n := List.length_take_of_le (by omega)
  have hTurn := hBooked.sendTurn sid flags (data.take n) (by rw [hTake]; exact hFits)
  rw [hTake] at hTurn
  refine ⟨hTurn, fun _ => ?_⟩
  rw [get_fcwSend_sendTurn, get_fcwSend_charged_self]
  split
  · next hSome =>
    obtain ⟨s, hs⟩ := Option.isSome_iff_exists.mp hSome
    rw [get_of_some hs]
    have hPaid := hStream hs
    omega
  · exact le_refl _

/-- What is left over is kept with its stream, which is of no account. -/
theorem Booked.setBlocked (h : f.Booked) (sid : Nat) (data : Octets) :
    (f.update (f.con.modifyStream sid fun s => { s with blockedData := some data })).Booked := by
  cases hs : f.con.stream? sid with
  | none =>
    rw [modifyStream_of_none hs]
    exact h
  | some s =>
    rw [modifyStream_of_some hs]
    have hStream (other : Nat) (t : Stream)
        (ht : (f.con.setStream sid { s with blockedData := some data }).stream? other = some t) :
        ∃ t', f.con.stream? other = some t' ∧ t.state = t'.state ∧ t.fcwSend = t'.fcwSend ∧
          t.promisedSid = t'.promisedSid ∧ t.pendingState = t'.pendingState := by
      rw [stream?_setStream] at ht
      split at ht
      · next hEq =>
        cases ht
        exact ⟨s, hEq ▸ hs, rfl, rfl, rfl, rfl⟩
      · exact ⟨t, ht, rfl, rfl, rfl, rfl⟩
    refine { h with proper := fun other t ht => ?_, window := fun other t hOther ht hLive => ?_,
                    absent := fun other hOther hNone => h.absent other hOther ?_ }
    · obtain ⟨t', ht', hState, -, hPromised, hPending⟩ := hStream other t ht
      have hProper := h.proper other t' ht'
      refine ⟨hPromised.trans hProper.promised, ?_⟩
      rw [hPending, hState]
      exact hProper.pending
    · obtain ⟨t', ht', hState, hWindow, -, -⟩ := hStream other t ht
      rw [Stream.Live, hState] at hLive
      rw [hWindow]
      exact h.window other t' hOther ht' hLive
    · have hNone : (f.con.setStream sid { s with blockedData := some data }).stream? other = none :=
        hNone
      rw [stream?_setStream] at hNone
      split at hNone
      · cases hNone
      · exact hNone

/-- `send_data`. -/
theorem Booked.sendData (h : f.Booked) (sid : Nat) (chunk : Octets) (ended : Option Bool)
    (hWindow : f.con.toSend sid chunk = [] → 0 ≤ (f.con.get sid Stream.fcwSend).getD 0) :
    (f.update (f.con.sendData sid chunk ended)).Booked := by
  rw [sendData_setEnded]
  dsimp only
  rw [Connection.toSend] at hWindow
  generalize (f.con.get sid Stream.blockedData).getD [] ++ chunk = data at hWindow ⊢
  have hEnded : Connection.Steady False True f.con (f.con.setEnded sid ended) :=
    steady_setEnded ..
  have hSame : (f.con.setEnded sid ended).get sid Stream.fcwSend = f.con.get sid Stream.fcwSend :=
    get_setEnded (fun _ _ => rfl) ..
  generalize f.con.setEnded sid ended = con at hEnded hSame ⊢
  have hStart : f.Paying sid con data := ⟨h.steady hEnded, hSame ▸ hWindow⟩
  have hLoop := sendDataLoop_rule ((con.get sid Stream.ended).getD false)
    (P := f.Paying sid) (fun _ _ flags hPaying hGoes => hPaying.turn flags hGoes) (data.length + 3)
    hStart
  exact hLoop.1.setBlocked sid _

theorem Booked.streamSendBlocked (h : f.Booked) (sid : Nat) :
    (f.update (f.con.streamSendBlocked sid)).Booked := by
  rw [Connection.streamSendBlocked]
  cases hs : f.con.stream? sid with
  | none => exact h
  | some s =>
    dsimp only
    split
    · next hBlocked =>
      refine h.sendData sid [] none fun hNothing => ?_
      rw [Connection.toSend, get_of_some hs, List.append_nil] at hNothing
      exact absurd hNothing hBlocked.1
    · exact h

theorem Booked.sendBlocked (h : f.Booked) (ord : HashOrder) :
    (f.update (f.con.sendBlocked ord)).Booked := by
  rw [Connection.sendBlocked]
  generalize ord.order f.con.streams.keys = keys
  induction keys generalizing f with
  | nil => exact h
  | cons sid keys ih => exact ih (h.streamSendBlocked sid)

end Flow

/-! ### What the peer grants -/

/-- A stream that is refused is there without a state, and after an error none is made. -/
theorem Connection.newPeerStream_refused {con : Connection} {sid : Nat} (h : con.Announced)
    (hPreface : con.preface = true) (hSid : sid ≠ 0) (hNone : con.stream? sid = none)
    (hRefused : (con.newPeerStream sid).2 = false) :
    (con.newPeerStream sid).1.stream? sid = some {} ∨
      (con.newPeerStream sid).1.stream? sid = none ∧ (con.newPeerStream sid).1.goaway = true := by
  rw [newPeerStream] at hRefused ⊢
  split
  · exact .inr ⟨(stream?_setError ..).trans hNone, goaway_setError h _⟩
  · next hGood =>
    rw [if_neg hGood] at hRefused
    split
    · have hLast : (con.setLastPeerStream sid).stream? sid = none := hNone
      left
      rw [streamError_absent (show (con.setLastPeerStream sid).preface = true from hPreface) hSid hLast]
      exact stream?_setStream_self ..
    · next hFull =>
      rw [if_neg hFull] at hRefused
      cases hRefused

namespace Flow

variable {f : Flow}

/-- Increments move the windows they are for. -/
theorem Booked.grant (h : f.Booked) {sid : Nat} (hStream : sid ≠ 0 → (f.con.stream? sid).isSome)
    (n : Nat) : (f.grant sid n).Booked := by
  have hGranted (other : Nat) : (f.grant sid n).granted other =
      f.granted other + if sid = other then n else 0 := f.granted_append sid n other
  by_cases hZero : sid = 0
  · subst hZero
    have hCon : (f.grant 0 n).con = f.con.addFcwSend n := by
      show f.con.granted 0 n = _
      rw [Connection.granted, if_pos rfl]
    have hOther (other : Nat) (hNe : other ≠ 0) : (f.grant 0 n).granted other = f.granted other := by
      rw [hGranted, if_neg (Ne.symm hNe), add_zero]
    exact
      { proper := hCon ▸ h.proper
        known := hCon ▸ h.known
        announced := hCon ▸ h.announced
        preface := hCon ▸ h.preface
        initial := hCon ▸ h.initial
        room := by
          rw [hCon]
          exact add_nonneg h.room (Int.natCast_nonneg n)
        connection := by
          have hBefore := h.connection
          rw [hGranted, if_pos rfl, sent, hCon]
          show f.con.fcwSend + n + (f.sent _ : Int) = _
          push_cast
          omega
        window := fun other s hNe hs hLive => by
          rw [limit, hOther other hNe, sentOn, sent, hCon]
          rw [hCon] at hs
          exact h.window other s hNe hs hLive
        absent := fun other hNe hNone => by
          rw [hOther other hNe, sentOn, sent, hCon]
          rw [hCon] at hNone
          exact h.absent other hNe hNone }
  · have hCon : (f.grant sid n).con = f.con.addStreamFcwSend sid n := by
      show f.con.granted sid n = _
      rw [Connection.granted, if_neg hZero]
    have hStreams (other : Nat) : (f.grant sid n).con.stream? other =
        if other = sid then (f.con.stream? sid).map (shift n) else f.con.stream? other := by
      rw [hCon]
      exact stream?_addStreamFcwSend ..
    have hContext : (f.grant sid n).con.encodeCtx = f.con.encodeCtx := by
      rw [hCon]
      exact encodeCtx_modifyStream ..
    have hSend : (f.grant sid n).con.fcwSend = f.con.fcwSend := by
      rw [hCon]
      exact fcwSend_modifyStream ..
    have hGoaway : (f.grant sid n).con.goaway = f.con.goaway := by
      rw [hCon]
      exact goaway_modifyStream ..
    have hWindow : (f.grant sid n).con.initialWindow = f.con.initialWindow := by
      rw [Connection.initialWindow, Connection.encSetting, hContext]
      rfl
    have hSent (p : Nat → Bool) : (f.grant sid n).sent p = f.sent p := by
      show dataOctets p (f.taken ++ (f.grant sid n).con.queue) = _
      rw [hCon, Connection.addStreamFcwSend, queue_modifyStream]
      rfl
    exact
      { proper := by
          intro other s hs
          rw [hStreams] at hs
          split at hs
          · obtain ⟨t, ht, rfl⟩ := Option.map_eq_some_iff.mp hs
            exact ⟨(h.proper sid t ht).promised, (h.proper sid t ht).pending⟩
          · exact h.proper other s hs
        known := fun key value code hError => by
          rw [hContext]
          exact h.known key value code hError
        announced := by
          rw [Connection.Announced, hGoaway, hCon, Connection.addStreamFcwSend,
            shutdown_modifyStream, error_modifyStream]
          exact h.announced
        preface := by
          rw [hCon]
          exact (preface_modifyStream ..).trans h.preface
        initial := hWindow.trans h.initial
        room := hSend ▸ h.room
        connection := by
          rw [hSend, hSent, hGranted, if_neg hZero, add_zero]
          exact h.connection
        window := by
          intro other s hNe hs hLive
          rw [hStreams] at hs
          rw [limit, hGranted, hWindow, sentOn, hSent]
          split at hs
          · next hEq =>
            subst hEq
            obtain ⟨t, ht, rfl⟩ := Option.map_eq_some_iff.mp hs
            have hBefore := h.window other t hNe ht hLive
            rw [limit, sentOn] at hBefore
            rw [shift, Option.getD_some, if_pos rfl]
            push_cast at hBefore ⊢
            omega
          · next hOther =>
            rw [if_neg (Ne.symm hOther), add_zero]
            exact h.window other s hNe hs hLive
        absent := by
          intro other hNe hNone
          rw [hStreams] at hNone
          have hOther : other ≠ sid := by
            rintro rfl
            obtain ⟨s, hs⟩ := Option.isSome_iff_exists.mp (hStream hNe)
            rw [if_pos rfl, hs] at hNone
            cases hNone
          rw [if_neg hOther] at hNone
          rw [sentOn, hSent, hGranted, if_neg (Ne.symm hOther), add_zero, hGoaway]
          exact h.absent other hNe hNone }

/-- A WINDOW_UPDATE frame; what it lets go is paid for. -/
theorem Booked.increment (h : f.Booked) (ord : HashOrder) {sid n : Nat}
    (hStream : sid ≠ 0 → (f.con.stream? sid).isSome) :
    Booked { f with
      con := f.con.incremented ord sid n, increments := f.increments ++ [(sid, n)] } := by
  have hGrant := h.grant hStream n
  show ((f.grant sid n).update (f.con.incremented ord sid n)).Booked
  rw [Connection.incremented]
  split
  · split
    · exact hGrant.steady (steady_setError ..)
    · exact hGrant.sendBlocked ord
  · split
    · exact hGrant.steady (steady_streamError ..)
    · exact hGrant.streamSendBlocked sid

/-- What is granted to a stream that is not made counts nowhere. -/
theorem Booked.refused (h : f.Booked) {sid : Nat} (n : Nat) (hSid : sid ≠ 0)
    (hNone : f.con.stream? sid = none) (hRefused : (f.con.newPeerStream sid).2 = false) :
    Booked { f with
      con := (f.con.newPeerStream sid).1, increments := f.increments ++ [(sid, n)] } := by
  have hSteady := h.steady (steady_newPeerStream f.con (.inr hNone))
  have hLeft := newPeerStream_refused h.announced h.preface hSid hNone hRefused
  generalize (f.con.newPeerStream sid).1 = con at hSteady hLeft ⊢
  have hGranted (other : Nat) (hNe : other ≠ sid) :
      Flow.granted { f with con, increments := f.increments ++ [(sid, n)] } other =
        (f.update con).granted other := by
    refine (Flow.granted_append { f with con } sid n other).trans ?_
    rw [if_neg (Ne.symm hNe), add_zero]
    rfl
  exact
    { proper := hSteady.proper
      known := hSteady.known
      announced := hSteady.announced
      preface := hSteady.preface
      initial := hSteady.initial
      room := hSteady.room
      connection := by
        rw [hGranted 0 (Ne.symm hSid)]
        exact hSteady.connection
      window := by
        intro other s hNe hs hLive
        have hOther : other ≠ sid := by
          rintro rfl
          rcases hLeft with hEmpty | ⟨hNothing, -⟩
          · rw [hEmpty] at hs
            cases hs
            exact hLive.1 rfl
          · rw [hNothing] at hs
            cases hs
        rw [limit, hGranted other hOther]
        exact hSteady.window other s hNe hs hLive
      absent := by
        intro other hNe hAbsent
        by_cases hOther : other = sid
        · subst hOther
          rcases hLeft with hEmpty | ⟨-, hGoing⟩
          · rw [hEmpty] at hAbsent
            cases hAbsent
          · exact ⟨(hSteady.absent other hNe hAbsent).1, .inr hGoing⟩
        · rw [hGranted other hOther]
          exact hSteady.absent other hNe hAbsent }

theorem Booked.zero (h : f.Booked) (sid : Nat) :
    Booked { f with increments := f.increments ++ [(sid, 0)] } := by
  have hGranted (other : Nat) :
      Flow.granted { f with increments := f.increments ++ [(sid, 0)] } other = f.granted other := by
    rw [Flow.granted_append]
    split <;> rfl
  exact
    { h with
      connection := by
        rw [hGranted]
        exact h.connection
      window := fun other s hNe hs hLive => by
        rw [limit, hGranted]
        exact h.window other s hNe hs hLive
      absent := fun other hNe hNone => by
        rw [hGranted]
        exact h.absent other hNe hNone }

theorem kept_booked : Kept False True Booked where
  steady h hSteady := h.steady hSteady
  zero sid h := h.zero sid
  refused n h hSid hNone hRefused := h.refused n hSid hNone hRefused
  increment := @fun _ ord _ _ h hStream _ _ => h.increment ord hStream

/-! ### What the peer advertises -/

theorem Booked.adjust (h : f.Booked) {con : Connection} {advertised : Option Nat}
    (hAdjusted : Connection.Adjusted f.con con)
    (hInitial : con.initialWindow = advertised.getD f.built) :
    Booked { f with con, advertised } := by
  have hSent (p : Nat → Bool) : Flow.sent { f with con, advertised } p = f.sent p := by
    show dataOctets p (f.taken ++ con.queue) = _
    rw [hAdjusted.queue]
    rfl
  exact
    { proper := hAdjusted.proper h.proper
      known := hAdjusted.known h.known
      announced := hAdjusted.announced h.announced
      preface := hAdjusted.preface.trans h.preface
      initial := hInitial
      room := hAdjusted.fcwSend ▸ h.room
      connection := by
        rw [hSent]
        exact hAdjusted.fcwSend ▸ h.connection
      window := by
        intro sid s' hSid hs' hLive
        obtain ⟨s, hs, hMoved⟩ := hAdjusted.before hs'
        rw [Stream.Live, hMoved.state] at hLive
        have hBefore := h.window sid s hSid hs hLive
        rw [sentOn, limit] at hBefore
        rw [sentOn, hSent, hMoved.window, if_neg hLive.2]
        show _ = ((con.initialWindow + f.granted sid : Nat) : Int)
        push_cast at hBefore ⊢
        omega
      absent := by
        intro sid hSid hNone
        have hBefore : f.con.stream? sid = none := by
          cases hs : f.con.stream? sid with
          | none => rfl
          | some s =>
            obtain ⟨s', hs', -⟩ := hAdjusted.moved sid s hs
            rw [show con.stream? sid = none from hNone] at hs'
            cases hs'
        rw [sentOn, hSent]
        refine (h.absent sid hSid hBefore).imp_right (Or.imp_right fun hGoing => ?_)
        exact hAdjusted.goaway.trans hGoing }

theorem Booked.settingsDecode (h : f.Booked) {fh : FrameHeader} (hType : fh.type = .settings)
    (hStream : fh.stream = 0) (payload : Octets) :
    ((f.hear fh payload).update (f.con.settingsDecode fh payload).1).Booked := by
  have hIncrement : incrementIn fh payload = [] := by
    rw [incrementIn, if_neg fun hBoth => by rw [hType] at hBoth; cases hBoth.1]
  obtain ⟨con, hAdjusted, hSteady, -, hAdvertised⟩ :=
    adjusted_settingsDecode h.known hType hStream payload
  rw [hear, hIncrement, List.append_nil]
  exact (h.adjust hAdjusted (hAdvertised f.advertised f.built h.initial)).steady hSteady

/-- One event. -/
theorem Booked.proceed (h : f.Booked) (event : SendEvent) (hBalances : event.Balances f) :
    (f.proceed event).Booked := by
  cases event with
  | recv ord buf =>
    exact kept_booked.recv h ord (fun fh payload hTurn => .inr (hBalances fh payload hTurn))
      fun fh payload _ hType hStream => h.settingsDecode hType hStream payload
  | newStream => exact h.steady (steady_newStream f.con (.inr hBalances))
  | sendHeaders sid headers ended => exact h.steady (steady_sendHeaders ..)
  | sendPpHeaders sid promisedId headers => exact h.steady (steady_sendPpHeaders ..)
  | sendData sid chunk ended => exact h.sendData sid chunk ended hBalances
  | sendPing payload => exact h.steady (steady_sendPing ..)
  | dequeue =>
    have hSent := f.sent_dequeue
    exact
      { h with
        connection := by
          show f.con.fcwSend + ((f.step .dequeue).sent _ : Int) = _
          rw [hSent]
          exact h.connection
        window := fun sid s hSid hs hLive => by
          show _ + ((f.step .dequeue).sent _ : Int) = _
          rw [hSent]
          exact h.window sid s hSid hs hLive
        absent := fun sid hSid hNone => by
          show (f.step .dequeue).sent _ = 0 ∧ _
          rw [hSent]
          exact h.absent sid hSid hNone }

theorem booked_begin (type : Endpoint) (given : Settings) : (begin type given).Booked := by
  have hNone (sid : Nat) : (begin type given).con.stream? sid = none := rfl
  have hSent (p : Nat → Bool) : (begin type given).sent p = 0 := rfl
  exact
    { proper := fun sid s hs => by rw [hNone] at hs; cases hs
      known := known_begin type given
      announced := fun hDown => by cases hDown
      preface := rfl
      initial := rfl
      room := Int.natCast_nonneg defaultInitialWindowSize
      connection := by
        rw [hSent]
        rfl
      window := fun sid s _ hs => by rw [hNone] at hs; cases hs
      absent := fun sid _ _ => ⟨hSent _, .inl rfl⟩ }

end Flow

/-- As long as no call without data meets a negative window, the windows are what the peer has
granted less what was sent. -/
theorem send_windows_balance {type : Endpoint} {given : Settings} {f : Flow}
    (hRun : Reached Flow.proceed (fun f event => event.Balances f) (Flow.begin type given) f) :
    f.Balanced :=
  Flow.Booked.balanced (hRun.invariant (Flow.booked_begin type given)
    fun _ event h hBalances => h.proceed event hBalances)

instance (f : Flow) : (event : SendEvent) → Decidable (event.Balances f)
  | .recv _ buf => decidable_of_iff
      ((f.con.inTurn buf).all fun turn => turn.1.type ≠ .pushPromise) (by
        simp [SendEvent.Balances, Option.all_eq_true])
  | .newStream => decidable_of_iff _ Option.isNone_iff_eq_none
  | .sendData sid chunk _ => inferInstanceAs
      (Decidable (f.con.toSend sid chunk = [] → 0 ≤ (f.con.get sid Stream.fcwSend).getD 0))
  | .sendHeaders .. | .sendPpHeaders .. | .sendPing _ | .dequeue => .isTrue trivial

/-- Ten octets are sent, and the peer then takes the window back, which leaves it at -10. -/
theorem send_windows_balance_negative :
    (runEvents Flow.proceed (Flow.begin .server ∅) [.recv .kept (settingsFrame 10),
      .recv .kept requestFrame, .sendData 1 (octets "0123456789") none,
      .recv .kept (settingsFrame 0)]).Balanced :=
  send_windows_balance (.run _ _ .start (by decide +kernel))

/-- The final call, which has no data, then brings the window back to zero, and adds what was
missing there to the window of the connection. -/
theorem send_windows_emptySend :
    ¬ (runEvents Flow.proceed (Flow.begin .server ∅) [.recv .kept (settingsFrame 10),
      .recv .kept requestFrame, .sendData 1 (octets "0123456789") none,
      .recv .kept (settingsFrame 0), .sendData 1 [] (some true)]).Balanced := by
  intro hBalanced
  have hConnection := hBalanced.connection
  revert hConnection
  decide +kernel

end PageCamel.Http2

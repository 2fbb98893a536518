import Mathlib.Data.Fintype.EquivFin
import PageCamel.Http2.FlowControl
import PageCamel.Http2.SilentSteps

/-!
Streams that have ended. Once a stream is closed or was reset, a server whose
application does not write to it queues no HEADERS or DATA frame on it any more and
pays nothing from the window of the connection for it. The connection itself does not
look whether a stream has ended: that is left to those who call it.
-/

namespace PageCamel.Http2
open PageCamel.Lib Connection

/-- The DATA frames for a stream. -/
def dataOn (sid : Nat) (frames : List Frame) : List Frame :=
  (dataFrames frames).filter fun f => f.streamId = sid

theorem dataOn_append (sid : Nat) (frames frames' : List Frame) :
    dataOn sid (frames ++ frames') = dataOn sid frames ++ dataOn sid frames' := by
  rw [dataOn, dataFrames_append, List.filter_append]
  rfl

theorem dataOn_congr (sid : Nat) {frames frames' : List Frame}
    (h : dataFrames frames = dataFrames frames') : dataOn sid frames = dataOn sid frames' := by
  rw [dataOn, h, dataOn]

theorem dataOn_data {sid on : Nat} (hOther : on ≠ sid) (flags : UInt8) (payload : Octets) :
    dataOn sid [⟨.data, flags, on, payload⟩] = [] := by
  simp [dataOn, dataFrames, hOther]

/-- The octets of data for the other streams. -/
def otherOctets (sid : Nat) (frames : List Frame) : Nat :=
  dataOctets (fun other => other ≠ sid) frames

namespace Connection

variable {con con' con'' : Connection} {sid on : Nat} {taken : List Frame}

/-- No data is queued on the stream, the connection pays for no data but that of other
streams, and data waits only where it did. -/
structure Spends (sid : Nat) (con con' : Connection) : Prop where
  hush : Hush sid con con'
  settled : con'.Settled
  data : dataOn sid con'.queue = dataOn sid con.queue
  window : con.fcwSend + otherOctets sid con.queue ≤ con'.fcwSend + otherOctets sid con'.queue
  closed : con.get sid Stream.state = some .closed → con'.get sid Stream.state = some .closed

theorem Spends.refl (h : con.Settled) (sid : Nat) : Spends sid con con :=
  ⟨Hush.refl sid con, h, rfl, le_refl _, id⟩

theorem Spends.trans (h : Spends sid con con') (h' : Spends sid con' con'') :
    Spends sid con con'' where
  hush := h.hush.trans h'.hush
  settled := h'.settled
  data := h'.data.trans h.data
  window := h.window.trans h'.window
  closed hClosed := h'.closed (h.closed hClosed)

theorem Calm.closed (h : Calm con con') (hClosed : con.get sid Stream.state = some .closed) :
    con'.get sid Stream.state = some .closed := by
  cases hs : con.stream? sid with
  | none =>
      rw [get_of_none hs] at hClosed
      cases hClosed
  | some s =>
      obtain ⟨s', hs', hCalm⟩ := h.kept sid s hs
      rw [get_of_some hs] at hClosed
      rw [get_of_some hs', hCalm.closed hClosed]

theorem Calm.window (h : Calm con con') (sid : Nat) :
    con.fcwSend + otherOctets sid con.queue = con'.fcwSend + otherOctets sid con'.queue := by
  rw [h.fcwSend, otherOctets, dataOctets_congr _ h.data.symm, otherOctets]

theorem Hush.spends (h : Hush sid con con') (hCalm : Calm con con') : Spends sid con con' :=
  ⟨h, hCalm.settled, dataOn_congr sid hCalm.data, (hCalm.window sid).le, hCalm.closed⟩

/-! ### Sending data on another stream -/

/-- The connection pays for a frame. -/
theorem spends_pay (h : con.Settled) (hOther : on ≠ sid) (flags : UInt8) (payload : Octets)
    {size : Int} (hSize : size ≤ payload.length) :
    Spends sid con (((con.addFcwSend (-size)).addStreamFcwSend on (-size)).push
      ⟨.data, flags, on, payload⟩) := by
  have hQueue : (((con.addFcwSend (-size)).addStreamFcwSend on (-size)).push
      ⟨.data, flags, on, payload⟩).queue = con.queue ++ [⟨.data, flags, on, payload⟩] := by
    rw [push, addStreamFcwSend, queue_modifyStream]
    rfl
  have hSend : (((con.addFcwSend (-size)).addStreamFcwSend on (-size)).push
      ⟨.data, flags, on, payload⟩).fcwSend = con.fcwSend - size := by
    rw [push, addStreamFcwSend, fcwSend_modifyStream]
    rfl
  have hWindows : Hush sid con ((con.addFcwSend (-size)).addStreamFcwSend on (-size)) := by
    refine Hush.trans ?_ (hush_modifyStream sid on _ fun _ => ⟨rfl, id, id⟩)
    exact hush_of_streams (.refl sid _) rfl id fun _ => rfl
  refine ⟨hWindows.trans ?_, ?_, ?_, ?_, ?_⟩
  · refine hush_of_streams ?_ rfl id fun _ => rfl
    have hPush := @mute_insert sid ⟨.data, flags, on, payload⟩
      (fun hEq => FrameType.noConfusion hEq) (fun hEq => FrameType.noConfusion hEq)
      ((con.addFcwSend (-size)).addStreamFcwSend on (-size)).queue []
    rw [List.append_nil] at hPush
    exact hPush
  · exact settled_addStreamFcwSend (show (con.addFcwSend (-size)).Settled from h) on (-size)
  · rw [hQueue, dataOn_append, dataOn_data hOther, List.append_nil]
  · rw [hQueue, hSend, otherOctets, otherOctets, dataOctets_append, dataOctets_data]
    simp only [ne_eq, hOther, not_false_eq_true, decide_true, if_true]
    push_cast
    omega
  · intro hClosed
    show ((con.addFcwSend (-size)).addStreamFcwSend on (-size)).get sid Stream.state = _
    rw [get, stream?_addStreamFcwSend, if_neg fun hEq => hOther hEq.symm]
    exact hClosed

/-- The loop of `send_data`. As long as data is left over, the stream is as it was. -/
theorem spends_sendDataLoop (hOther : on ≠ sid) (ended : Bool) (fuel : Nat) :
    ∀ {con : Connection} (data : Octets), con.Settled → (con.stream? on).isSome →
      let r := sendDataLoop on ended fuel con data
      Spends sid con r.1 ∧ (r.2 ≠ [] →
        (r.1.stream? on).isSome ∧ r.1.get on Stream.state = con.get on Stream.state ∧
          r.1.get on Stream.reset = con.get on Stream.reset) := by
  induction fuel with
  | zero => exact fun data h hSome => ⟨Spends.refl h sid, fun _ => ⟨hSome, rfl, rfl⟩⟩
  | succ fuel ih =>
      intro con data h hSome
      rw [sendDataLoop]
      dsimp only
      split
      · exact ⟨Spends.refl h sid, fun _ => ⟨hSome, rfl, rfl⟩⟩
      · next hGoes =>
          have hSize : con.sendSize on data.length ≤ data.length := by
            unfold sendSize
            split
            · exact (Int.min_le_left _ _).trans (Int.min_le_right _ _)
            · exact (Int.min_le_left _ _).trans ((Int.min_le_left _ _).trans (Int.min_le_right _ _))
          generalize con.sendSize on data.length = size at hSize hGoes ⊢
          have hPayload : size ≤ (data.take size.toNat).length := by
            rw [List.length_take]
            omega
          generalize hFlags : (if ended = true ∧ (data.length : Int) = size then Flag.endStream
            else 0) = flags
          have hPay := spends_pay h hOther flags (data.take size.toNat) hPayload
          have hEnqueue : ((con.addFcwSend (-size)).addStreamFcwSend on (-size)).enqueue
              (.data (data.take size.toNat)) flags on =
                (((con.addFcwSend (-size)).addStreamFcwSend on (-size)).push
                  ⟨.data, flags, on, data.take size.toNat⟩).stateMachine .send .data flags on := rfl
          rw [hEnqueue]
          have hStreams (other : Nat) : (((con.addFcwSend (-size)).addStreamFcwSend on (-size)).push
              ⟨.data, flags, on, data.take size.toNat⟩).stream? other =
                if other = on then (con.stream? on).map (shift (-size)) else con.stream? other :=
            stream?_addStreamFcwSend ..
          generalize ((con.addFcwSend (-size)).addStreamFcwSend on (-size)).push
            ⟨.data, flags, on, data.take size.toNat⟩ = paid at hPay hStreams ⊢
          have hFrame := hPay.trans ((hush_stateMachine sid paid .send .data flags on).spends
            (calm_stateMachine hPay.settled ..))
          split
          · next hAll =>
              refine ⟨hFrame, fun hNonempty => absurd ?_ hNonempty⟩
              rw [List.drop_eq_nil_iff]
              omega
          · next hMore =>
              have hZero : flags = 0 := by
                rw [← hFlags, if_neg fun hBoth => hMore hBoth.2]
              subst hZero
              have hSame : (paid.stateMachine .send .data 0 on).stream? on =
                  (con.stream? on).map (shift (-size)) := by
                rw [stream?_stateMachine_data hPay.settled, hStreams, if_pos rfl]
                rw [hStreams, if_pos rfl, Option.isSome_map]
                exact hSome
              obtain ⟨hRest, hLeft⟩ := ih (data.drop size.toNat) hFrame.settled
                (by rw [hSame, Option.isSome_map]; exact hSome)
              refine ⟨hFrame.trans hRest, fun hNonempty => ?_⟩
              obtain ⟨hStays, hState, hReset⟩ := hLeft hNonempty
              refine ⟨hStays, hState.trans ?_, hReset.trans ?_⟩
              · rw [get, hSame, get]
                cases con.stream? on <;> rfl
              · rw [get, hSame, get]
                cases con.stream? on <;> rfl

/-- Data waits on no stream that was reset. -/
structure Clear (taken : List Frame) (con : Connection) : Prop where
  preface : con.preface = true
  data : ∀ sid s, sid ≠ 0 → con.stream? sid = some s → s.blockedData.getD [] ≠ [] →
    s.state.isSome ∧ ¬ con.Reset taken sid

theorem Clear.unwaiting (h : con.Clear taken) : con.Unwaiting taken where
  preface := h.preface
  data sid s hNonzero hs hData :=
    ⟨(h.data sid s hNonzero hs hData).1, .inl (h.data sid s hNonzero hs hData).2⟩

theorem Unwaiting.clear (h : con.Unwaiting taken) (hUp : con.shutdown = false) : con.Clear taken where
  preface := h.preface
  data sid s hNonzero hs hData := by
    obtain ⟨hState, hReset⟩ := h.data sid s hNonzero hs hData
    refine ⟨hState, hReset.resolve_right ?_⟩
    rw [hUp]
    exact Bool.false_ne_true

theorem Hush.clear (h : Hush sid con con') (hClear : con.Clear taken) : con'.Clear taken where
  preface := h.preface.trans hClear.preface
  data other s' hNonzero hs' hData := by
    obtain ⟨s, hs, hBlocked, hStays, hBefore⟩ := h.waiting hs' hData
    obtain ⟨hState, hReset⟩ := hClear.data other s hNonzero hs hBlocked
    exact ⟨hStays hState, mt (hBefore taken) hReset⟩

/-- No data waits on the stream. -/
def Idle (con : Connection) (sid : Nat) : Prop := (con.get sid Stream.blockedData).getD [] = []

theorem idle_of_waiting (h : con.Idle sid)
    (hWaits : ∀ s', con'.stream? sid = some s' → s'.blockedData.getD [] ≠ [] →
      ∃ s, con.stream? sid = some s ∧ s.blockedData.getD [] ≠ []) : con'.Idle sid := by
  by_contra hData
  unfold Idle at h hData
  cases hs' : con'.stream? sid with
  | none =>
      rw [get_of_none hs'] at hData
      exact hData rfl
  | some s' =>
      rw [get_of_some hs'] at hData
      obtain ⟨s, hs, hBlocked⟩ := hWaits s' hs' hData
      rw [get_of_some hs] at h
      exact hBlocked h

/-- Data waits on no stream that has ended. -/
theorem Clear.idle (h : con.Clear taken) (hSettled : con.Settled) (hSid : sid ≠ 0)
    (hEnded : con.get sid Stream.state = some .closed ∨ con.Reset taken sid) : con.Idle sid := by
  unfold Idle
  by_contra hData
  cases hs : con.stream? sid with
  | none =>
      rw [get_of_none hs] at hData
      exact hData rfl
  | some s =>
      rw [get_of_some hs] at hData
      rcases hEnded with hClosed | hReset
      · rw [get_of_some hs] at hClosed
        exact hData ((hSettled sid s hs).blocked hClosed)
      · exact (h.data sid s hSid hs hData).2 hReset

/-- From `con` to `con'` the stream is spared: no HEADERS or DATA frame is queued on it,
and with `n` octets granted the connection pays only for the data of other streams. -/
structure Spares (sid n : Nat) (taken : List Frame) (con con' : Connection) : Prop where
  settled : con'.Settled
  unwaiting : con'.Unwaiting taken
  headers : headerFrames sid con'.queue = headerFrames sid con.queue
  data : dataOn sid con'.queue = dataOn sid con.queue
  window : con.fcwSend + otherOctets sid con.queue + n ≤ con'.fcwSend + otherOctets sid con'.queue
  closed : con.get sid Stream.state = some .closed → con'.get sid Stream.state = some .closed
  reset : con.Reset taken sid → con'.Reset taken sid
  idle : con.Idle sid → con'.Idle sid

theorem Spares.refl (h : con.Settled) (hWaiting : con.Unwaiting taken) (sid : Nat) :
    Spares sid 0 taken con con :=
  ⟨h, hWaiting, rfl, rfl, by simp, id, id, id⟩

theorem Spares.trans {n m : Nat} (h : Spares sid n taken con con')
    (h' : Spares sid m taken con' con'') : Spares sid (n + m) taken con con'' where
  settled := h'.settled
  unwaiting := h'.unwaiting
  headers := h'.headers.trans h.headers
  data := h'.data.trans h.data
  window := by
    have hFirst := h.window
    have hSecond := h'.window
    push_cast
    omega
  closed hClosed := h'.closed (h.closed hClosed)
  reset hReset := h'.reset (h.reset hReset)
  idle hIdle := h'.idle (h.idle hIdle)

theorem Reset.mono (hField : (con.get sid Stream.reset).isSome → (con'.get sid Stream.reset).isSome)
    (hQueue : resetStreams con.queue ⊆ resetStreams con'.queue) (h : con.Reset taken sid) :
    con'.Reset taken sid := by
  unfold Reset at h ⊢
  rw [resetStreams_append, List.mem_append] at h ⊢
  exact h.imp hField (Or.imp_right fun hMem => hQueue hMem)

theorem Silent.spares (h : Silent sid con con') (hSettled : con.Settled)
    (hWaiting : con.Unwaiting taken) : Spares sid 0 taken con con' where
  settled := (h.calm hSettled).settled
  unwaiting := h.unwaiting taken hSettled hWaiting
  headers := h.headers
  data := dataOn_congr sid (h.calm hSettled).data
  window := by
    rw [(h.calm hSettled).window sid]
    simp
  closed := (h.calm hSettled).closed
  reset := Reset.mono (h.reset sid) h.resets
  idle hIdle := idle_of_waiting hIdle fun s' hs' hData => by
    cases hs : con.stream? sid with
    | none => exact absurd ((h.calm hSettled).made sid s' hs hs').blocked hData
    | some s =>
        obtain ⟨t, ht, hKept⟩ := (h.calm hSettled).kept sid s hs
        rw [hs'] at ht
        cases ht
        exact ⟨s, rfl, hKept.blocked hData⟩

theorem Spends.spares (h : Spends sid con con') (hWaiting : con.Unwaiting taken) :
    Spares sid 0 taken con con' where
  settled := h.settled
  unwaiting := h.hush.unwaiting hWaiting
  headers := h.hush.queue.headers
  data := h.data
  window := by
    have hWindow := h.window
    push_cast
    omega
  closed := h.closed
  reset := Reset.mono (h.hush.reset sid) fun _ hMem => h.hush.queue.resets ▸ hMem
  idle hIdle := idle_of_waiting hIdle fun s' hs' hData => by
    obtain ⟨s, hs, hBlocked, -⟩ := h.hush.waiting hs' hData
    exact ⟨s, hs, hBlocked⟩

/-- `send_data` is its loop, after which what is left over waits. -/
theorem sendData_loop (h : con.Settled) (hOther : on ≠ sid) (hSome : (con.stream? on).isSome)
    (chunk : Octets) (ended : Option Bool) :
    ∃ mid left, Spends sid con mid ∧
      con.sendData on chunk ended = mid.modifyStream on (fun s => { s with blockedData := some left }) ∧
      (left ≠ [] → mid.get on Stream.state = con.get on Stream.state ∧
        mid.get on Stream.reset = con.get on Stream.reset) := by
  rw [sendData]
  dsimp only
  generalize (con.get on Stream.blockedData).getD [] ++ chunk = data
  have hEnded : Spends sid con (if ended.isSome then con.modifyStream on fun s => { s with ended }
      else con) := by
    split
    · refine Hush.spends ?_ ?_
      · exact hush_modifyStream sid on con fun _ => ⟨rfl, id, id⟩
      · exact calm_modifyStream_same h on (fun _ => rfl) (fun _ => rfl) (fun _ => rfl) (fun _ => rfl)
          fun _ => rfl
    · exact Spends.refl h sid
  have hKept : ((if ended.isSome then con.modifyStream on fun s => { s with ended }
      else con).stream? on).isSome ∧
        (if ended.isSome then con.modifyStream on fun s => { s with ended } else con).get on
          Stream.state = con.get on Stream.state ∧
        (if ended.isSome then con.modifyStream on fun s => { s with ended } else con).get on
          Stream.reset = con.get on Stream.reset := by
    split
    · refine ⟨?_, ?_, ?_⟩
      · rw [isSome_stream?_modifyStream]
        exact hSome
      · exact get_modifyStream (f := fun s => { s with ended }) (fun _ => rfl) ..
      · exact get_modifyStream (f := fun s => { s with ended }) (fun _ => rfl) ..
    · exact ⟨hSome, rfl, rfl⟩
  generalize (if ended.isSome then con.modifyStream on fun s => { s with ended } else con) = con₁
    at hEnded hKept ⊢
  obtain ⟨hStays, hState, hReset⟩ := hKept
  obtain ⟨hLoop, hLeft⟩ := spends_sendDataLoop hOther ((con₁.get on Stream.ended).getD false)
    (data.length + 3) data hEnded.settled hStays
  refine ⟨_, _, hEnded.trans hLoop, rfl, fun hNonempty => ?_⟩
  obtain ⟨-, hState', hReset'⟩ := hLeft hNonempty
  exact ⟨hState'.trans hState, hReset'.trans hReset⟩

/-- The streams on which data waits after `send_data`. -/
theorem waiting_sendData (h : con.Settled) (hOther : on ≠ sid) (hSome : (con.stream? on).isSome)
    (chunk : Octets) (ended : Option Bool) {other : Nat} {s' : Stream}
    (hs' : (con.sendData on chunk ended).stream? other = some s')
    (hData : s'.blockedData.getD [] ≠ []) :
    ∃ s, con.stream? other = some s ∧ (other ≠ on → s.blockedData.getD [] ≠ []) ∧
      (s.state.isSome → s'.state.isSome) ∧
      ∀ taken, (con.sendData on chunk ended).Reset taken other → con.Reset taken other := by
  obtain ⟨mid, left, hMid, hSend, hLeft⟩ := sendData_loop h hOther hSome chunk ended
  have hQueue : (con.sendData on chunk ended).queue = mid.queue := by
    rw [hSend, queue_modifyStream]
  have hReset (taken : List Frame) (hField : s'.reset = mid.get other Stream.reset)
      (hAfter : (con.sendData on chunk ended).Reset taken other) : mid.Reset taken other := by
    unfold Reset at hAfter ⊢
    rw [get_of_some hs', hQueue, hField] at hAfter
    exact hAfter
  have hStream := hs'
  rw [hSend, stream?_modifyStream] at hStream
  split at hStream
  · next hOn =>
      subst hOn
      obtain ⟨t, ht, rfl⟩ := Option.map_eq_some_iff.mp hStream
      obtain ⟨s, hs⟩ := Option.isSome_iff_exists.mp hSome
      obtain ⟨hState, hSame⟩ := hLeft hData
      rw [get_of_some ht, get_of_some hs] at hState hSame
      refine ⟨s, hs, fun hNe => absurd rfl hNe, fun hSome => ?_, fun taken hAfter => ?_⟩
      · show t.state.isSome
        rw [hState]
        exact hSome
      · have hBefore := hReset taken (show t.reset = _ from (get_of_some ht Stream.reset).symm) hAfter
        unfold Reset at hBefore ⊢
        rw [get_of_some ht, hSame, resetStreams_append, hMid.hush.queue.resets] at hBefore
        rw [get_of_some hs, resetStreams_append]
        exact hBefore
  · obtain ⟨s, hs, hBlocked, hState, hBefore⟩ := hMid.hush.waiting hStream hData
    exact ⟨s, hs, fun _ => hBlocked, hState, fun taken hAfter =>
      hBefore taken (hReset taken (get_of_some hStream _).symm hAfter)⟩

/-- `send_data` on another stream that is open. -/
theorem spares_sendData (h : con.Settled) (hOther : on ≠ sid) (hSome : (con.stream? on).isSome)
    (hOpen : con.get on Stream.state ≠ some .closed) (chunk : Octets) (ended : Option Bool)
    (hWaiting : (con.sendData on chunk ended).Unwaiting taken) :
    Spares sid 0 taken con (con.sendData on chunk ended) := by
  obtain ⟨mid, left, hMid, hSend, hLeft⟩ := sendData_loop h hOther hSome chunk ended
  have hQueue : (con.sendData on chunk ended).queue = mid.queue := by
    rw [hSend, queue_modifyStream]
  have hSelf : (con.sendData on chunk ended).stream? sid = mid.stream? sid := by
    rw [hSend, stream?_modifyStream, if_neg fun hEq => hOther hEq.symm]
  exact
    { settled := by
        intro other s' hs'
        rw [hSend, stream?_modifyStream] at hs'
        split at hs'
        · next hOn =>
            subst hOn
            obtain ⟨t, ht, rfl⟩ := Option.map_eq_some_iff.mp hs'
            have hSettled := hMid.settled other t ht
            refine ⟨hSettled.promised, hSettled.pending, fun hClosed => ?_⟩
            by_contra hNonempty
            obtain ⟨hState, -⟩ := hLeft hNonempty
            rw [get_of_some ht, show t.state = some .closed from hClosed] at hState
            exact hOpen hState.symm
        · exact hMid.settled other s' hs'
      unwaiting := hWaiting
      headers := by
        rw [hQueue]
        exact hMid.hush.queue.headers
      data := by
        rw [hQueue]
        exact hMid.data
      window := by
        have hWindow := hMid.window
        rw [hQueue, hSend, fcwSend_modifyStream]
        push_cast
        omega
      closed := by
        rw [get, get, hSelf]
        exact hMid.closed
      reset := by
        refine Reset.mono ?_ ?_
        · rw [get, get, hSelf]
          exact hMid.hush.reset sid
        · rw [hQueue]
          exact fun _ hMem => hMid.hush.queue.resets ▸ hMem
      idle := fun hIdle => idle_of_waiting hIdle fun s' hs' hData => by
        rw [hSelf] at hs'
        obtain ⟨s, hs, hBlocked, -⟩ := hMid.hush.waiting hs' hData
        exact ⟨s, hs, hBlocked⟩ }

theorem preface_sendData (h : con.Settled) (hSome : (con.stream? on).isSome) (chunk : Octets)
    (ended : Option Bool) : (con.sendData on chunk ended).preface = con.preface := by
  obtain ⟨mid, left, hMid, hSend, -⟩ :=
    sendData_loop h (show on ≠ on + 1 from (Nat.succ_ne_self on).symm) hSome chunk ended
  rw [hSend, preface_modifyStream, hMid.hush.preface]

theorem clear_sendData (h : con.Settled) (hSome : (con.stream? on).isSome)
    (hGood : on ≠ 0 → (con.get on Stream.state).isSome ∧ ¬ con.Reset taken on) (chunk : Octets)
    (ended : Option Bool) (hClear : con.Clear taken) : (con.sendData on chunk ended).Clear taken where
  preface := (preface_sendData h hSome chunk ended).trans hClear.preface
  data other s' hNonzero hs' hData := by
    obtain ⟨s, hs, hBlocked, hState, hBefore⟩ :=
      waiting_sendData h (show on ≠ on + 1 from (Nat.succ_ne_self on).symm) hSome chunk ended hs' hData
    by_cases hOn : other = on
    · subst hOn
      obtain ⟨hSome', hReset⟩ := hGood hNonzero
      rw [get_of_some hs] at hSome'
      exact ⟨hState hSome', mt (hBefore taken) hReset⟩
    · obtain ⟨hSome', hReset⟩ := hClear.data other s hNonzero hs (hBlocked hOn)
      exact ⟨hState hSome', mt (hBefore taken) hReset⟩

theorem isSome_of_get {α : Type} {field : Stream → Option α} (h : (con.get on field).isSome) :
    (con.stream? on).isSome := by
  cases hs : con.stream? on with
  | none =>
      rw [get_of_none hs] at h
      cases h
  | some s => rfl

theorem unwaiting_sendData (h : con.Settled) (hSome : (con.get on Stream.state).isSome)
    (hReset : ¬ con.Reset taken on) (chunk : Octets) (ended : Option Bool)
    (hWaiting : con.Unwaiting taken) : (con.sendData on chunk ended).Unwaiting taken := by
  have hStream := isSome_of_get hSome
  cases hDown : con.shutdown with
  | false => exact (clear_sendData h hStream (fun _ => ⟨hSome, hReset⟩) chunk ended
      (hWaiting.clear hDown)).unwaiting
  | true =>
      have hOther : on ≠ on + 1 := (Nat.succ_ne_self on).symm
      refine ⟨(preface_sendData h hStream chunk ended).trans hWaiting.preface,
        fun other s' hNonzero hs' hData => ⟨?_, .inr ?_⟩⟩
      · obtain ⟨s, hs, hBlocked, hState, -⟩ :=
          waiting_sendData h hOther hStream chunk ended hs' hData
        refine hState ?_
        by_cases hOn : other = on
        · subst hOn
          rw [get_of_some hs] at hSome
          exact hSome
        · exact (hWaiting.data other s hNonzero hs (hBlocked hOn)).1
      · obtain ⟨mid, left, hMid, hSend, -⟩ := sendData_loop h hOther hStream chunk ended
        rw [hSend, shutdown_modifyStream]
        exact hMid.hush.shutdown hDown

/-! ### What waits is sent -/

theorem spares_streamSendBlocked (h : con.Settled) (hClear : con.Clear taken) (hIdle : con.Idle sid)
    (on : Nat) : Spares sid 0 taken con (con.streamSendBlocked on) ∧
      (con.streamSendBlocked on).Clear taken := by
  have hSame : Spares sid 0 taken con con ∧ con.Clear taken :=
    ⟨Spares.refl h hClear.unwaiting sid, hClear⟩
  rw [streamSendBlocked]
  cases hs : con.stream? on with
  | none => exact hSame
  | some s =>
      dsimp only
      split
      · next hBlocked =>
          have hSome : (con.stream? on).isSome := by
            rw [hs]
            rfl
          have hOpen : con.get on Stream.state ≠ some .closed := by
            rw [get_of_some hs]
            exact fun hClosed => hBlocked.1 ((h on s hs).blocked hClosed)
          have hGood : on ≠ 0 → (con.get on Stream.state).isSome ∧ ¬ con.Reset taken on := by
            intro hNonzero
            rw [get_of_some hs]
            exact hClear.data on s hNonzero hs hBlocked.1
          have hOther : on ≠ sid := by
            rintro rfl
            rw [Idle, get_of_some hs] at hIdle
            exact hBlocked.1 hIdle
          have hAfter := clear_sendData h hSome hGood [] none hClear
          exact ⟨spares_sendData h hOther hSome hOpen [] none hAfter.unwaiting, hAfter⟩
      · exact hSame

theorem spares_sendBlocked (h : con.Settled) (hClear : con.Clear taken) (hIdle : con.Idle sid)
    (ord : HashOrder) : Spares sid 0 taken con (con.sendBlocked ord) := by
  rw [sendBlocked]
  generalize ord.order con.streams.keys = keys
  induction keys generalizing con with
  | nil => exact Spares.refl h hClear.unwaiting sid
  | cons on keys ih =>
      obtain ⟨hFirst, hAfter⟩ := spares_streamSendBlocked h hClear hIdle on
      exact hFirst.trans (ih hFirst.settled hAfter (hFirst.idle hIdle))

/-! ### Windows and settings -/

theorem spends_of_streams (h : con.Settled) (hQueue : con'.queue = con.queue)
    (hPreface : con'.preface = con.preface) (hShutdown : con'.shutdown = con.shutdown)
    (hSend : con'.fcwSend = con.fcwSend) (hSame : ∀ other, con'.stream? other = con.stream? other) :
    Spends sid con con' where
  hush := hush_of_streams (hQueue ▸ .refl sid _) hPreface hShutdown.trans hSame
  settled other s hs := h other s ((hSame other).symm.trans hs)
  data := by rw [hQueue]
  window := by rw [hQueue, hSend]
  closed := by
    rw [get, get, hSame]
    exact id

theorem spends_addStreamFcwSend (h : con.Settled) (sid on : Nat) (delta : Int) :
    Spends sid con (con.addStreamFcwSend on delta) where
  hush := hush_modifyStream sid on con fun _ => ⟨rfl, id, id⟩
  settled := settled_addStreamFcwSend h on delta
  data := by rw [addStreamFcwSend, queue_modifyStream]
  window := by rw [addStreamFcwSend, queue_modifyStream, fcwSend_modifyStream]
  closed := by
    have hState : (con.addStreamFcwSend on delta).get sid Stream.state = con.get sid Stream.state :=
      get_modifyStream (f := shift delta) (fun _ => rfl) ..
    rw [hState]
    exact id

theorem manages_spends (sid : Nat) : Manages fun con con' => con.Settled → Spends sid con con' where
  refl _ h := Spends.refl h sid
  trans h h' hSettled := (h hSettled).trans (h' (h hSettled).settled)
  setError con code h := (hush_setError sid con code).spends (calm_setError h code)
  ackPing con payload h := by
    refine Hush.spends (hush_enqueueFirst con Flag.ack ?_ ?_) (answers_calm.ackPing con payload h)
    · exact fun hEq => FrameType.noConfusion hEq
    · exact fun hEq => FrameType.noConfusion hEq
  goaway _ h := spends_of_streams h rfl rfl rfl rfl fun _ => rfl
  addStreamFcwSend _ on delta h := spends_addStreamFcwSend h sid on delta
  setSettings _ _ h := spends_of_streams h rfl rfl rfl rfl fun _ => rfl
  acceptSettings con h := by
    refine Hush.spends (hush_enqueue con Flag.ack ?_ ?_) (calm_acceptSettings h)
    · exact fun hEq => FrameType.noConfusion hEq
    · exact fun hEq => FrameType.noConfusion hEq

/-- The octets a frame grants to the connection. -/
def grantIn (fh : FrameHeader) (buf : Octets) : Nat :=
  if fh.type = .windowUpdate ∧ fh.length = 4 ∧ fh.stream = 0 then unpack32 buf &&& 0x7FFFFFFF else 0

theorem hush_addFcwSend (sid : Nat) (con : Connection) (delta : Int) :
    Hush sid con (con.addFcwSend delta) :=
  hush_of_streams (.refl sid _) rfl id fun _ => rfl

theorem spares_addFcwSend (h : con.Settled) (hWaiting : con.Unwaiting taken) (n : Nat) :
    Spares sid n taken con (con.addFcwSend n) where
  settled := h
  unwaiting := (hush_addFcwSend sid con n).unwaiting hWaiting
  headers := rfl
  data := rfl
  window := by
    show _ ≤ con.fcwSend + n + _
    show _ ≤ con.fcwSend + n + otherOctets sid con.queue
    omega
  closed := id
  reset := id
  idle := id

theorem spares_windowUpdateDecode (h : con.Settled) (hClear : con.Clear taken) (hIdle : con.Idle sid)
    (ord : HashOrder) {fh : FrameHeader} (hType : fh.type = .windowUpdate) (buf : Octets) :
    Spares sid (grantIn fh buf) taken con (con.windowUpdateDecode ord fh buf).1 := by
  have hError (code : ErrorCode) : Spares sid 0 taken con (con.setError code) :=
    (silent_setError sid con code).spares h hClear.unwaiting
  rw [windowUpdateDecode, grantIn]
  by_cases hLength : fh.length ≠ 4
  · rw [if_pos hLength, if_neg fun hAll => hLength hAll.2.1]
    exact hError _
  · rw [if_neg hLength]
    dsimp only
    generalize unpack32 buf &&& 0x7FFFFFFF = n
    by_cases hZero : n = 0
    · rw [if_pos hZero, hZero, ite_self]
      exact hError _
    · rw [if_neg hZero]
      by_cases hStream : fh.stream = 0
      · rw [if_pos hStream, if_pos ⟨hType, not_not.mp hLength, hStream⟩]
        have hGrant := @spares_addFcwSend con sid taken h hClear.unwaiting n
        have hAfter := (hush_addFcwSend sid con n).clear hClear
        refine hGrant.trans (m := 0) ?_
        split
        · exact (silent_setError sid _ _).spares hGrant.settled hGrant.unwaiting
        · exact spares_sendBlocked hGrant.settled hAfter (hGrant.idle hIdle) ord
      · rw [if_neg hStream, if_neg fun hAll => hStream hAll.2.2]
        cases hs : con.stream? fh.stream with
        | none => exact Spares.refl h hClear.unwaiting sid
        | some s =>
            dsimp only
            have hGrant := spends_addStreamFcwSend h sid fh.stream n
            have hFirst := hGrant.spares hClear.unwaiting
            refine hFirst.trans (m := 0) ?_
            split
            · exact (silent_streamError sid _ _ _).spares hGrant.settled hFirst.unwaiting
            · exact (spares_streamSendBlocked hGrant.settled (hGrant.hush.clear hClear)
                (hFirst.idle hIdle) fh.stream).1

/-! ### Frames -/

/-- A RST_STREAM frame and the change of state after it. -/
theorem silent_rstStream (sid : Nat) (con : Connection) (ord : HashOrder) {fh : FrameHeader}
    (hType : fh.type = .rstStream) (buf : Octets) :
    Silent sid con (con.frameReceive ord fh buf).1 := by
  rw [frameReceive, payloadDecode, hType]
  dsimp only
  rw [rstStreamDecode]
  split
  · next hError =>
      split at hError
      · cases hError
        exact silent_setError sid con _
      · split at hError
        · cases hError
          exact silent_setError sid con _
        · cases hError
  · next hReset =>
      split at hReset
      · cases hReset
      · split at hReset
        · cases hReset
        · cases hReset
          refine silent_reset sid fh.stream (unpack32 buf) .recv fh.flags
            (fun h => calm_setReset h fh.stream _) ?_ ⟨[], ?_, by simp⟩
            (preface_modifyStream con fh.stream _)
            (fun hDown => (shutdown_modifyStream con fh.stream _).trans hDown) fun _ => rfl
          · rw [queue_modifyStream]
          · rw [queue_modifyStream, List.append_nil]

/-- The payload of a frame and the change of state after it. -/
theorem spares_frameReceive (h : con.Settled) (hClear : con.Clear taken) (hIdle : con.Idle sid)
    (ord : HashOrder) {fh : FrameHeader} (hType : fh.type ≠ .pushPromise) (buf : Octets) :
    Spares sid (grantIn fh buf) taken con (con.frameReceive ord fh buf).1 := by
  have hFrame {n : Nat} (hPayload : Spares sid n taken con (con.payloadDecode ord fh buf).1) :
      Spares sid n taken con (con.frameReceive ord fh buf).1 := by
    rw [frameReceive]
    split
    · next con' hNone =>
        rw [hNone] at hPayload
        exact hPayload
    · next con' len hSome =>
        rw [hSome] at hPayload
        refine hPayload.trans (m := 0) ?_
        exact (silent_stateMachine sid con' .recv fh.type fh.flags fh.stream).spares hPayload.settled
          hPayload.unwaiting
  by_cases hUpdate : fh.type = .windowUpdate
  · refine hFrame ?_
    rw [payloadDecode, hUpdate]
    exact spares_windowUpdateDecode h hClear hIdle ord hUpdate buf
  · rw [grantIn, if_neg fun hAll => hUpdate hAll.1]
    have hSilent (hPayload : Silent sid con (con.payloadDecode ord fh buf).1) :
        Spares sid 0 taken con (con.frameReceive ord fh buf).1 :=
      hFrame (hPayload.spares h hClear.unwaiting)
    rw [payloadDecode] at hFrame hSilent
    cases hKind : fh.type with
    | data => exact hSilent (hKind ▸ silent_dataDecode sid con fh buf)
    | headers => exact hSilent (hKind ▸ (decodes_silent sid fh.stream).headersFrameDecode con buf)
    | priority => exact hSilent (hKind ▸ (decodes_silent sid 0).priorityDecode (silent_setError sid) con fh buf)
    | rstStream => exact (silent_rstStream sid con ord hKind buf).spares h hClear.unwaiting
    | settings => exact hFrame (hKind ▸ ((manages_spends sid).settingsDecode con fh buf h).spares hClear.unwaiting)
    | pushPromise => exact absurd hKind hType
    | ping => exact hSilent (hKind ▸ (answers_silent sid).pingDecode con fh buf)
    | goaway => exact hSilent (hKind ▸ (answers_silent sid).goawayDecode con fh)
    | windowUpdate => exact absurd hKind hUpdate
    | continuation => exact hSilent (hKind ▸ (decodes_silent sid fh.stream).continuationDecode con buf)
    | unknown code => exact hSilent (hKind ▸ Silent.refl sid con)

theorem spares_frameAdmit (h : con.Settled) (hClear : con.Clear taken) (hIdle : con.Idle sid)
    (ord : HashOrder) {fh : FrameHeader} (hType : fh.type ≠ .pushPromise) (buf : Octets) :
    Spares sid (grantIn fh buf) taken con (con.frameAdmit ord fh buf).1 := by
  rw [frameAdmit]
  split
  · next hNew =>
      have hNone : con.stream? fh.stream = none := by simpa using hNew.2
      have hMade := (silent_newPeerStream sid con hNone).spares h hClear.unwaiting
      have hNothing : grantIn fh buf = 0 := by
        rw [grantIn, if_neg fun hAll => hNew.1 hAll.2.2]
      split
      · next con' hTrue =>
          have hAdmitted : con' = con.admitted fh.stream := by
            unfold newPeerStream at hTrue
            split at hTrue
            · cases hTrue
            · split at hTrue
              · cases hTrue
              · cases hTrue
                rfl
          rw [hTrue] at hMade
          rw [← Nat.zero_add (grantIn fh buf)]
          refine hMade.trans ?_
          refine spares_frameReceive hMade.settled ?_ (hMade.idle hIdle) ord hType buf
          rw [hAdmitted]
          exact (hush_admitted sid hNone).clear hClear
      · next con' hFalse =>
          rw [hFalse] at hMade
          rw [hNothing]
          exact hMade
  · exact spares_frameReceive h hClear hIdle ord hType buf

end Connection

/-! ### Runs -/

/-- What happens on a connection the front end drives: a frame comes in or is taken
from the queue, headers or data are sent, a tunnel asks for the data of its stream, the
connection is kept alive. -/
inductive HandlerEvent where
  | flow (event : FlowEvent)
  | onData (sid : Nat)
  | ping (payload : Octets)

/-- The stream that headers or data are sent on. -/
def HandlerEvent.writesTo : HandlerEvent → Option Nat
  | .flow (.sendHeaders sid _ _) => some sid
  | .flow (.sendData sid _ _) => some sid
  | _ => none

namespace Flow

def handle (f : Flow) : HandlerEvent → Flow
  | .flow event => f.step event
  | .onData sid => f.update (f.con.modifyStream sid fun s => { s with dataCb := true })
  | .ping payload => f.update (f.con.sendPing payload)

/-- The stream is closed, or RST_STREAM was sent or received on it. -/
def Ended (f : Flow) (sid : Nat) : Prop :=
  f.con.get sid Stream.state = some .closed ∨ f.con.Reset f.taken sid

instance (f : Flow) (sid : Nat) : Decidable (f.Ended sid) :=
  inferInstanceAs (Decidable (_ ∨ (_ ∨ _)))

/-- All frames queued so far. -/
def frames (f : Flow) : List Frame := f.taken ++ f.con.queue

/-- From `f` to `g` no HEADERS or DATA frame is queued on the stream, and all that the
connection has paid from its window and the grants is the data of other streams. -/
structure Leaves (f g : Flow) (sid : Nat) : Prop where
  headers : headerFrames sid g.frames = headerFrames sid f.frames
  data : dataOn sid g.frames = dataOn sid f.frames
  window : f.con.fcwSend + otherOctets sid f.frames + g.granted 0 ≤
    g.con.fcwSend + otherOctets sid g.frames + f.granted 0

end Flow

/-- The application writes to no stream that has ended; the client sends no PUSH_PROMISE
frame, and after a connection error no frame is taken up while data waits on a stream
that was reset. -/
def HandlerEvent.Minds (f : Flow) : HandlerEvent → Prop
  | .flow (.recv _ buf) =>
      (∀ fh payload, f.con.inTurn buf = some (fh, payload) → fh.type ≠ .pushPromise) ∧
        (f.con.shutdown = false ∨ f.con.Clear f.taken)
  | .flow (.sendHeaders sid _ _) => ¬ f.Ended sid
  | .flow (.sendData sid _ _) => ¬ f.Ended sid ∧ (f.con.get sid Stream.state).isSome
  | .flow .dequeue | .onData _ | .ping _ => True

namespace Flow

variable {f g k : Flow} {sid : Nat}

theorem Leaves.refl (f : Flow) (sid : Nat) : f.Leaves f sid := ⟨rfl, rfl, le_refl _⟩

theorem Leaves.trans (h : f.Leaves g sid) (h' : g.Leaves k sid) : f.Leaves k sid where
  headers := h'.headers.trans h.headers
  data := h'.data.trans h.data
  window := by
    have hFirst := h.window
    have hSecond := h'.window
    omega

/-- A stream that has ended is left alone. -/
structure Rests (f g : Flow) (sid : Nat) : Prop where
  settled : g.con.Settled
  unwaiting : g.con.Unwaiting g.taken
  leaves : f.Leaves g sid
  ended : f.Ended sid → g.Ended sid

theorem otherOctets_append (sid : Nat) (frames frames' : List Frame) :
    otherOctets sid (frames ++ frames') = otherOctets sid frames + otherOctets sid frames' :=
  dataOctets_append ..

/-- A step of the connection that spares the stream. -/
theorem rests_of_spares {n : Nat} (hTaken : g.taken = f.taken)
    (hGranted : g.granted 0 = f.granted 0 + n)
    (h : Connection.Spares sid n f.taken f.con g.con) : f.Rests g sid where
  settled := h.settled
  unwaiting := hTaken ▸ h.unwaiting
  leaves :=
    { headers := by
        rw [frames, frames, hTaken, headerFrames_append, h.headers, headerFrames_append]
      data := by
        rw [frames, frames, hTaken, dataOn_append, h.data, dataOn_append]
      window := by
        have hWindow := h.window
        rw [frames, frames, hTaken, otherOctets_append, otherOctets_append, hGranted]
        push_cast
        omega }
  ended := by
    unfold Ended
    rw [hTaken]
    exact Or.imp h.closed h.reset

/-- What a frame grants. -/
theorem granted_hear (f : Flow) (fh : FrameHeader) (payload : Octets) :
    (f.hear fh payload).granted 0 = f.granted 0 + Connection.grantIn fh payload := by
  by_cases hGrants : fh.type = .windowUpdate ∧ fh.length = 4
  · have hIncrements : (f.hear fh payload).granted 0 =
        Flow.granted { f with increments := f.increments ++
          [(fh.stream, unpack32 payload &&& 0x7FFFFFFF)] } 0 := by
      rw [hear, incrementIn, if_pos hGrants]
      rfl
    rw [hIncrements, granted_append, Connection.grantIn]
    simp [hGrants]
  · rw [hear, incrementIn, if_neg hGrants, List.append_nil, Connection.grantIn,
      if_neg fun hAll => hGrants ⟨hAll.1, hAll.2.1⟩]
    rfl

theorem rests_recv (h : f.con.Settled) (hWaiting : f.con.Unwaiting f.taken)
    (hIdle : f.con.Clear f.taken → f.con.Idle sid) (ord : HashOrder) (buf : Octets)
    (hMinds : (HandlerEvent.flow (.recv ord buf)).Minds f) :
    f.Rests (f.step (.recv ord buf)) sid := by
  obtain ⟨hType, hRoom⟩ := hMinds
  have hClear : f.con.Clear f.taken := hRoom.elim hWaiting.clear id
  have hSame : Connection.Spares sid 0 f.taken f.con f.con :=
    Connection.Spares.refl h hWaiting sid
  cases hTurn : f.con.inTurn buf with
  | none =>
      refine rests_of_spares (n := 0) ?_ ?_ ?_
      · rw [step, hTurn]
        rfl
      · rw [step, hTurn]
        rfl
      · show Connection.Spares sid 0 f.taken f.con (f.con.frameDecode ord buf).1
        rcases frameDecode_idle hTurn ord with hStays | ⟨code, hError⟩
        · rw [hStays]
          exact hSame
        · rw [hError]
          exact (silent_setError sid f.con code).spares h hWaiting
  | some turn =>
      obtain ⟨fh, payload⟩ := turn
      refine rests_of_spares (n := Connection.grantIn fh payload) ?_ ?_ ?_
      · rw [step, hTurn]
        rfl
      · rw [step, hTurn]
        exact granted_hear f fh payload
      · show Connection.Spares sid _ f.taken f.con (f.con.frameDecode ord buf).1
        rcases frameDecode_inTurn hTurn ord with ⟨⟨code, hUnknown⟩, hStays⟩ | hAdmit
        · rw [hStays, Connection.grantIn, if_neg fun hAll => by rw [hUnknown] at hAll; cases hAll.1]
          exact hSame
        · rw [hAdmit]
          exact spares_frameAdmit h hClear (hIdle hClear) ord
            (hType fh payload hTurn) payload

theorem rests_of_silent (h : f.con.Settled) (hWaiting : f.con.Unwaiting f.taken) {con : Connection}
    (hSilent : Connection.Silent sid f.con con) : f.Rests (f.update con) sid :=
  rests_of_spares (n := 0) rfl rfl (hSilent.spares h hWaiting)

theorem rests_dequeue (h : f.con.Settled) (hWaiting : f.con.Unwaiting f.taken) :
    f.Rests (f.step .dequeue) sid := by
  have hFrames : (f.taken ++ f.con.queue.take 1) ++ f.con.queue.tail = f.taken ++ f.con.queue := by
    rw [List.append_assoc, ← List.drop_one, List.take_append_drop]
  have hReset (other : Nat) : (f.step .dequeue).con.Reset (f.step .dequeue).taken other ↔
      f.con.Reset f.taken other := by
    show _ ∨ other ∈ resetStreams ((f.taken ++ f.con.queue.take 1) ++ f.con.queue.tail) ↔ _
    rw [hFrames]
    rfl
  refine ⟨h, ⟨hWaiting.preface, fun other s hNonzero hs hData => ?_⟩, ⟨?_, ?_, ?_⟩, ?_⟩
  · rw [hReset]
    exact hWaiting.data other s hNonzero hs hData
  · exact congrArg (headerFrames sid) hFrames
  · exact congrArg (dataOn sid) hFrames
  · have hSame : otherOctets sid (f.step .dequeue).frames = otherOctets sid f.frames :=
      congrArg (otherOctets sid) hFrames
    rw [hSame]
    exact le_refl _
  · rw [Ended, Ended, hReset]
    exact id

/-- One event that writes nothing to the stream. -/
theorem rests_handle (h : f.con.Settled) (hWaiting : f.con.Unwaiting f.taken)
    (hIdle : f.con.Clear f.taken → f.con.Idle sid) (event : HandlerEvent)
    (hOther : event.writesTo ≠ some sid) (hMinds : event.Minds f) :
    f.Rests (f.handle event) sid := by
  cases event with
  | flow event =>
      cases event with
      | recv ord buf => exact rests_recv h hWaiting hIdle ord buf hMinds
      | sendHeaders on headers ended =>
          have hOther : on ≠ sid := fun hEq => hOther (congrArg some hEq)
          exact rests_of_silent h hWaiting (silent_sendHeaders f.con hOther headers ended)
      | sendData on chunk ended =>
          have hOther : on ≠ sid := fun hEq => hOther (congrArg some hEq)
          obtain ⟨hOpen, hSome⟩ := hMinds
          rw [Ended, not_or] at hOpen
          refine rests_of_spares (n := 0) rfl rfl ?_
          exact spares_sendData h hOther (isSome_of_get hSome) hOpen.1 chunk ended
            (unwaiting_sendData h hSome hOpen.2 chunk ended hWaiting)
      | dequeue => exact rests_dequeue h hWaiting
  | onData on =>
      refine rests_of_silent h hWaiting (silent_modifyStream sid on f.con ?_ ?_ ?_ ?_)
      · exact fun h => calm_modifyStream_same h on (fun _ => rfl) (fun _ => rfl)
          (fun _ => rfl) (fun _ => rfl) fun _ => rfl
      · exact fun _ => rfl
      · exact fun _ => rfl
      · exact fun _ => rfl
  | ping payload =>
      refine rests_of_silent h hWaiting (silent_enqueue f.con 0 ?_ ?_ ?_)
      · exact fun hEq => FrameType.noConfusion hEq
      · exact fun hEq => FrameType.noConfusion hEq
      · exact fun hEq => FrameType.noConfusion hEq

/-- What every event of an application that minds keeps. -/
structure Minded (f : Flow) : Prop where
  settled : f.con.Settled
  unwaiting : f.con.Unwaiting f.taken

theorem minded_start (given : Settings) : (start given).Minded :=
  ⟨fun _ _ hs => (nomatch hs), ⟨rfl, fun _ _ _ hs => (nomatch hs)⟩⟩

/-- A stream beyond all those there are is spared by every event. -/
theorem Minded.handle (h : f.Minded) (event : HandlerEvent) (hMinds : event.Minds f) :
    (f.handle event).Minded := by
  obtain ⟨sid, hNew⟩ := Infinite.exists_notMem_finset
    (f.con.streams.keys.toFinset ∪ event.writesTo.toList.toFinset)
  rw [Finset.mem_union, not_or, List.mem_toFinset, List.mem_toFinset, Option.mem_toList] at hNew
  have hNone : f.con.stream? sid = none := AList.lookup_eq_none.mpr hNew.1
  have hRests := @rests_handle f sid h.settled h.unwaiting (fun _ => ?_) event hNew.2 hMinds
  · exact ⟨hRests.settled, hRests.unwaiting⟩
  · rw [Connection.Idle, get_of_none hNone]
    rfl

theorem Minded.rests (h : f.Minded) (hSid : sid ≠ 0) (hEnded : f.Ended sid) (event : HandlerEvent)
    (hMinds : event.Minds f) : f.Rests (f.handle event) sid := by
  refine rests_handle h.settled h.unwaiting (fun hClear => hClear.idle h.settled hSid hEnded) event ?_
    hMinds
  intro hWrites
  cases event with
  | flow event =>
      cases event with
      | recv ord buf => cases hWrites
      | sendHeaders on headers ended =>
          cases hWrites
          exact hMinds hEnded
      | sendData on chunk ended =>
          cases hWrites
          exact hMinds.1 hEnded
      | dequeue => cases hWrites
  | onData on => cases hWrites
  | ping payload => cases hWrites

end Flow

/-- Once a stream has ended, nothing is queued on it any more and no window is used
for it, as long as the application minds which streams have ended. -/
theorem ended_left {given : Settings} {f g : Flow} {sid : Nat} (hSid : sid ≠ 0)
    (hRun : Reached Flow.handle (fun f event => event.Minds f) (Flow.start given) f)
    (hEnded : f.Ended sid) (hLater : Reached Flow.handle (fun f event => event.Minds f) f g) :
    g.Ended sid ∧ f.Leaves g sid := by
  have hMinded : f.Minded := hRun.invariant (Flow.minded_start given)
    fun f event h hMinds => h.handle event hMinds
  have hStep (g : Flow) (event : HandlerEvent) (h : g.Minded ∧ g.Ended sid ∧ f.Leaves g sid)
      (hMinds : event.Minds g) : (g.handle event).Minded ∧ (g.handle event).Ended sid ∧
        f.Leaves (g.handle event) sid := by
    obtain ⟨hMinded, hEnded, hLeaves⟩ := h
    have hRests := hMinded.rests hSid hEnded event hMinds
    exact ⟨⟨hRests.settled, hRests.unwaiting⟩, hRests.ended hEnded, hLeaves.trans hRests.leaves⟩
  exact (Reached.invariant ⟨hMinded, hEnded, Flow.Leaves.refl f sid⟩ hStep hLater).2

/-- The client gives up its request on stream 1. -/
def cancelFrame : Octets := [0, 0, 4, 3, 0, 0, 0, 0, 1, 0, 0, 0, 8]

/-- A response that has begun when the client gives up its request. -/
def cancelledResponse : Flow :=
  runEvents Flow.handle (Flow.start ∅) [.flow (.recv .kept requestFrame),
    .flow (.sendHeaders 1 [(octets ":status", octets "200")] false), .flow (.recv .kept cancelFrame)]

/-- The client raises the window of the stream it has given up. -/
def cancelledRaise : HandlerEvent := .flow (.recv .kept [0, 0, 4, 8, 0, 0, 0, 0, 1, 0, 0, 0, 5])

/-- Nothing is sent on the stream when its window is raised. -/
theorem ended_left_raise : (cancelledResponse.handle cancelledRaise).Ended 1 ∧
    cancelledResponse.Leaves (cancelledResponse.handle cancelledRaise) 1 := by
  refine @ended_left ∅ _ _ _ (by decide) ?_ (by decide +kernel) (.next cancelledRaise .start
    ⟨@orderly_recv _ .kept _ (by decide +kernel), .inl (by decide +kernel)⟩)
  refine Reached.next (HandlerEvent.flow (.recv .kept cancelFrame)) (.next
    (HandlerEvent.flow (.sendHeaders 1 [(octets ":status", octets "200")] false)) (.next
      (HandlerEvent.flow (.recv .kept requestFrame)) .start ?_) ?_) ?_
  · exact ⟨@orderly_recv _ .kept _ (by decide +kernel), .inl (by decide +kernel)⟩
  · show ¬ Flow.Ended _ _
    decide +kernel
  · exact ⟨@orderly_recv _ .kept _ (by decide +kernel), .inl (by decide +kernel)⟩

/-- The backend goes on answering after the client has given up its request: the data is
queued on the closed stream and paid from the window of the connection. -/
theorem ended_written : cancelledResponse.Ended 1 ∧
    dataOn 1 (cancelledResponse.handle (.flow (.sendData 1 (octets "late") none))).frames ≠
      dataOn 1 cancelledResponse.frames ∧
    ¬ cancelledResponse.Leaves
      (cancelledResponse.handle (.flow (.sendData 1 (octets "late") none))) 1 := by
  let late := cancelledResponse.handle (.flow (.sendData 1 (octets "late") none))
  have hLate : cancelledResponse.Ended 1 ∧
      dataOn 1 late.frames ≠ dataOn 1 cancelledResponse.frames ∧
      ¬ cancelledResponse.con.fcwSend + otherOctets 1 cancelledResponse.frames + late.granted 0 ≤
        late.con.fcwSend + otherOctets 1 late.frames + cancelledResponse.granted 0 := by
    decide +kernel
  refine ⟨hLate.1, hLate.2.1, fun hLeaves => ?_⟩
  exact hLate.2.2 hLeaves.window

end PageCamel.Http2

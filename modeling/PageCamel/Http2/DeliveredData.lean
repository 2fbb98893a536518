import PageCamel.Http2.EndedStreams
import PageCamel.Http2.SendSteps

/-!
What becomes of the data written to a stream: it is sent or it waits, in the order it was given,
and END_STREAM goes out with the last of it. A client that is told to close the stream by a flag of
a WINDOW_UPDATE frame forgets what still waits.
-/

namespace PageCamel.Http2
open PageCamel.Lib

namespace Connection

variable {con : Connection} {sid : Nat}

/-- A flag that WINDOW_UPDATE does not have closes a half-closed stream of a client. -/
def FlaggedClose (con : Connection) (sid : Nat) (flags : UInt8) : Prop :=
  con.type = .client ∧ hasFlag flags Flag.endStream = true ∧
    con.get ((con.get sid Stream.promisedSid).getD sid) Stream.state = some .halfClosed

theorem stream?_recv_windowUpdate {s : Stream} (hs : con.stream? sid = some s) {flags : UInt8}
    (hStays : ¬ con.FlaggedClose sid flags) :
    (con.stateMachine .recv .windowUpdate flags sid).stream? sid = some s := by
  obtain ⟨made, hMade, hTurn⟩ := stateMachine_plain con plain_windowUpdate .recv flags sid
  have hOwn : made.stream? sid = some s := by
    rcases hMade with rfl | rfl
    · exact hs
    · exact stream?_vivify hs _
  rcases hTurn with hIgnored | ⟨code, hError⟩ | ⟨new, hEnters, -⟩
  · rw [hIgnored, hOwn]
  · rw [hError, stream?_setError, hOwn]
  · generalize hPrev : con.get ((con.get sid Stream.promisedSid).getD sid) Stream.state = prev
      at hEnters
    cases hEnters with
    | reset hReset => cases hReset
    | half hData => cases hData
    | close hEnd hSide =>
        have hClient : con.type = .client := by
          cases hType : con.type with
          | client => rfl
          | server => exact absurd (hSide.mp hType) (by decide)
        exact absurd ⟨hClient, hEnd, hPrev⟩ hStays

end Connection

/-! ### Sending data -/

/-- None of the frames ends the stream. -/
def Unended (frames : List Frame) : Prop :=
  ∀ frame ∈ frames, hasFlag frame.flags Flag.endStream = false

/-- The last of the frames ends the stream, and no other. -/
def Ends (frames : List Frame) : Prop :=
  ∃ init last, frames = init ++ [last] ∧ Unended init ∧ hasFlag last.flags Flag.endStream = true

theorem Unended.append {frames frames' : List Frame} (h : Unended frames) (h' : Unended frames') :
    Unended (frames ++ frames') :=
  fun frame hMem => (List.mem_append.mp hMem).elim (h frame) (h' frame)

theorem Ends.append {frames frames' : List Frame} (h : Unended frames) (h' : Ends frames') :
    Ends (frames ++ frames') := by
  obtain ⟨init, last, rfl, hInit, hLast⟩ := h'
  exact ⟨frames ++ init, last, (List.append_assoc ..).symm, h.append hInit, hLast⟩

namespace Connection

variable {con con' con'' : Connection} {sid on : Nat} {ended : Bool}

/-- The states of all streams are what they were, and the stream keeps what it has. -/
structure Level (sid : Nat) (con con' : Connection) : Prop where
  type : con'.type = con.type
  state : ∀ other, con'.get other Stream.state = con.get other Stream.state
  stream : ∀ s, con.stream? sid = some s → ∃ s', con'.stream? sid = some s' ∧
    s'.promisedSid = s.promisedSid ∧ s'.blockedData = s.blockedData ∧ s'.ended = s.ended

theorem Level.refl (sid : Nat) (con : Connection) : Level sid con con :=
  ⟨rfl, fun _ => rfl, fun s hs => ⟨s, hs, rfl, rfl, rfl⟩⟩

theorem Level.trans (h : Level sid con con') (h' : Level sid con' con'') : Level sid con con'' where
  type := h'.type.trans h.type
  state other := (h'.state other).trans (h.state other)
  stream s hs := by
    obtain ⟨s', hs', hPromised, hBlocked, hEnded⟩ := h.stream s hs
    obtain ⟨s'', hs'', hPromised', hBlocked', hEnded'⟩ := h'.stream s' hs'
    exact ⟨s'', hs'', hPromised'.trans hPromised, hBlocked'.trans hBlocked, hEnded'.trans hEnded⟩

/-- From `con` to `con'` the data is sent on the stream but for the rest. END_STREAM ends the last
frame when no rest is left. -/
structure Sends (sid : Nat) (ended : Bool) (con con' : Connection) (data rest : Octets) : Prop where
  frames : ∃ frames, dataOn sid con'.queue = dataOn sid con.queue ++ frames ∧
    frames.flatMap Frame.payload ++ rest = data ∧
    (Unended frames ∧ (ended = true → rest ≠ []) ∧ Level sid con con' ∨
      Ends frames ∧ ended = true ∧ rest = [] ∧ (con'.stream? sid).isSome)

theorem dataOn_self (flags : UInt8) (sid : Nat) (payload : Octets) :
    dataOn sid [⟨.data, flags, sid, payload⟩] = [⟨.data, flags, sid, payload⟩] := by
  simp [dataOn, dataFrames]

theorem dataOn_sendTurn (con : Connection) (on sid : Nat) (size : Int) (flags : UInt8)
    (payload : Octets) : dataOn sid (con.sendTurn on size flags payload).queue =
      dataOn sid con.queue ++ dataOn sid [⟨.data, flags, on, payload⟩] := by
  have hSteady : Steady True False (con.charged on size flags payload)
      (con.sendTurn on size flags payload) := steady_stateMachine ..
  rw [dataOn_congr sid hSteady.data, queue_charged, dataOn_append]

/-- A turn without END_STREAM changes windows only. -/
theorem level_sendTurn {s : Stream} (hs : con.stream? sid = some s) (size : Int) (payload : Octets) :
    Level sid con (con.sendTurn sid size 0 payload) := by
  have hCharged : (con.charged sid size 0 payload).stream? sid = some (shift (-size) s) := by
    rw [stream?_charged, if_pos rfl, hs]
    rfl
  have hOwn : (con.sendTurn sid size 0 payload).stream? sid = some (shift (-size) s) :=
    stream?_send_data hCharged sid
  refine ⟨?_, fun other => ?_, fun t ht => ?_⟩
  · refine (quiet_stateMachine ..).type.trans ?_
    rw [charged, push, addStreamFcwSend]
    exact type_modifyStream ..
  · by_cases hOther : other = sid
    · subst hOther
      rw [get_of_some hOwn, get_of_some hs]
      rfl
    · refine (get_stateMachine_of_ne rfl plain_data hOther ..).trans ?_
      rw [get, stream?_charged, if_neg hOther]
      rfl
  · rw [hs] at ht
    cases ht
    exact ⟨_, hOwn, rfl, rfl, rfl⟩

/-- The last turn. -/
theorem sends_all {s : Stream} (hs : con.stream? sid = some s) (ended : Bool) (size : Int)
    (data : Octets) :
    Sends sid ended con (con.sendTurn sid size (if ended then Flag.endStream else 0) data) data [] := by
  refine ⟨[⟨.data, if ended then Flag.endStream else 0, sid, data⟩], ?_, by simp, ?_⟩
  · rw [dataOn_sendTurn, dataOn_self]
  · cases ended with
    | false =>
      refine .inl ⟨fun frame hMem => ?_, fun hEnded => absurd hEnded Bool.false_ne_true,
        level_sendTurn hs size data⟩
      rw [List.mem_singleton.mp hMem]
      show hasFlag 0 Flag.endStream = false
      decide
    | true =>
      have hCharged : (con.charged sid size Flag.endStream data).stream? sid =
          some (shift (-size) s) := by
        rw [stream?_charged, if_pos rfl, hs]
        rfl
      obtain ⟨s', hs', -⟩ := stream?_stateMachine_own hCharged plain_data .send Flag.endStream
      refine .inr ⟨⟨[], _, rfl, fun _ hMem => absurd hMem List.not_mem_nil, ?_⟩, rfl, rfl, ?_⟩
      · show hasFlag Flag.endStream Flag.endStream = true
        decide
      · exact Option.isSome_iff_exists.mpr ⟨s', hs'⟩

/-- A turn that leaves data over, and the turns after it. -/
theorem Sends.turn {s : Stream} (hs : con.stream? sid = some s) (size : Int) (payload : Octets)
    {data rest : Octets} (h : Sends sid ended (con.sendTurn sid size 0 payload) con' data rest) :
    Sends sid ended con con' (payload ++ data) rest := by
  obtain ⟨frames, hFrames, hPayload, hEnd⟩ := h.frames
  have hLevel := level_sendTurn hs size payload
  have hFirst : Unended [⟨.data, 0, sid, payload⟩] := by
    intro frame hMem
    rw [List.mem_singleton.mp hMem]
    show hasFlag 0 Flag.endStream = false
    decide
  refine ⟨[⟨.data, 0, sid, payload⟩] ++ frames, ?_, ?_, ?_⟩
  · rw [hFrames, dataOn_sendTurn, dataOn_self, List.append_assoc]
  · rw [← hPayload]
    simp
  · refine hEnd.imp (fun hRest => ?_) fun hRest => ?_
    · exact ⟨hFirst.append hRest.1, hRest.2.1, hLevel.trans hRest.2.2⟩
    · exact ⟨Ends.append hFirst hRest.1, hRest.2⟩

/-- The loop of `send_data` with data. -/
theorem sends_sendDataLoop (ended : Bool) (fuel : Nat) :
    ∀ {con : Connection} {s : Stream} {data : Octets}, con.stream? sid = some s → data ≠ [] →
      Sends sid ended con (sendDataLoop sid ended fuel con data).1 data
        (sendDataLoop sid ended fuel con data).2 := by
  have hNothing {con : Connection} {data : Octets} (hData : data ≠ []) :
      Sends sid ended con con data data :=
    ⟨[], (List.append_nil _).symm, rfl, .inl ⟨fun _ hMem => absurd hMem List.not_mem_nil,
      fun _ => hData, .refl sid con⟩⟩
  induction fuel with
  | zero => exact fun _ hData => hNothing hData
  | succ fuel ih =>
    intro con s data hs hData
    rw [sendDataLoop_succ]
    dsimp only
    have hSize : con.sendSize sid data.length ≤ data.length := sendSize_le ..
    split
    · exact hNothing hData
    · next hGoes =>
      generalize con.sendSize sid data.length = size at hSize hGoes ⊢
      have hLength : data.length ≠ 0 := fun hZero => hData (List.eq_nil_of_length_eq_zero hZero)
      split
      · next hAll =>
        have hWhole : data.take size.toNat = data ∧ data.drop size.toNat = [] := by
          rw [List.take_eq_self_iff, List.drop_eq_nil_iff]
          omega
        rw [hWhole.1, hWhole.2]
        have hSends := sends_all hs ended size data
        simpa only [hAll, and_true] using hSends
      · next hMore =>
        rw [if_neg fun hBoth => hMore hBoth.2]
        obtain ⟨s', hs', -⟩ := (level_sendTurn hs size (data.take size.toNat)).stream s hs
        have hRest : data.drop size.toNat ≠ [] := by
          rw [Ne, List.drop_eq_nil_iff]
          omega
        have hSends := Sends.turn hs size (data.take size.toNat) (ih hs' hRest)
        rw [List.take_append_drop] at hSends
        exact hSends

/-- The loop without data: a frame brings negative windows up to zero, and the next one is the last. -/
theorem sends_sendDataLoop_nil (ended : Bool) (fuel : Nat) {s : Stream}
    (hs : con.stream? sid = some s) :
    Sends sid ended con (sendDataLoop sid ended (fuel + 2) con []).1 []
      (sendDataLoop sid ended (fuel + 2) con []).2 := by
  have hLast {con : Connection} {s : Stream} (fuel : Nat) (hs : con.stream? sid = some s)
      (hSize : con.sendSize sid 0 = 0) : Sends sid ended con
        (sendDataLoop sid ended (fuel + 1) con []).1 [] (sendDataLoop sid ended (fuel + 1) con []).2 := by
    rw [sendDataLoop_succ]
    have hSends := sends_all hs ended 0 []
    simpa [hSize] using hSends
  by_cases hSize : con.sendSize sid 0 = 0
  · exact hLast (fuel + 1) hs hSize
  · have hNext : (con.sendTurn sid (con.sendSize sid 0) 0 []).stream? sid =
        some (shift (-con.sendSize sid 0) s) ∧
        (con.sendTurn sid (con.sendSize sid 0) 0 []).fcwSend = con.fcwSend - con.sendSize sid 0 :=
      stream?_send_some hs (con.sendSize sid 0) []
    obtain ⟨hStream, hWindow⟩ := hNext
    have hTurn : sendDataLoop sid ended (fuel + 2) con [] = sendDataLoop sid ended (fuel + 1)
        (con.sendTurn sid (con.sendSize sid 0) 0 []) [] := by
      have hNot : ¬ (0 : Int) = con.sendSize sid 0 := fun hEq => hSize hEq.symm
      rw [sendDataLoop_succ]
      simp [hNot]
    rw [hTurn]
    refine Sends.turn hs (con.sendSize sid 0) [] (hLast fuel hStream ?_)
    rw [sendSize_of_some hStream, hWindow, sendSize_of_some hs]
    simp only [shift, Option.getD_some]
    omega

/-- `send_data`: what is left over waits. -/
theorem sends_sendData {s : Stream} (hs : con.stream? sid = some s) (chunk : Octets)
    (ended : Option Bool) :
    ∃ mid rest, Sends sid ((ended.or s.ended).getD false) (con.setEnded sid ended) mid
        (s.blockedData.getD [] ++ chunk) rest ∧
      con.sendData sid chunk ended =
        mid.modifyStream sid fun s => { s with blockedData := some rest } := by
  have hStart := stream?_setEnded hs ended
  rw [sendData_setEnded]
  dsimp only
  rw [get_of_some hs, get_of_some hStart]
  generalize s.blockedData.getD [] ++ chunk = data
  refine ⟨_, _, ?_, rfl⟩
  by_cases hData : data = []
  · subst hData
    exact sends_sendDataLoop_nil _ 1 hStart
  · exact sends_sendDataLoop _ _ hStart hData

/-! ### What leaves the stream alone -/

/-- No data is sent on the stream, and what waits there waits on. -/
structure Rests (sid : Nat) (con con' : Connection) : Prop where
  data : dataOn sid con'.queue = dataOn sid con.queue
  stream : ∀ s, con.stream? sid = some s → ∃ s', con'.stream? sid = some s' ∧
    s'.blockedData = s.blockedData ∧ s'.ended = s.ended

theorem Rests.refl (sid : Nat) (con : Connection) : Rests sid con con :=
  ⟨rfl, fun s hs => ⟨s, hs, rfl, rfl⟩⟩

theorem Rests.trans (h : Rests sid con con') (h' : Rests sid con' con'') : Rests sid con con'' where
  data := h'.data.trans h.data
  stream s hs := by
    obtain ⟨s', hs', hBlocked, hEnded⟩ := h.stream s hs
    obtain ⟨s'', hs'', hBlocked', hEnded'⟩ := h'.stream s' hs'
    exact ⟨s'', hs'', hBlocked'.trans hBlocked, hEnded'.trans hEnded⟩

theorem rests_of_stream? (hData : dataOn sid con'.queue = dataOn sid con.queue)
    (hStream : ∀ s, con.stream? sid = some s → con'.stream? sid = some s) : Rests sid con con' :=
  ⟨hData, fun s hs => ⟨s, hStream s hs, rfl, rfl⟩⟩

theorem rests_setError (sid : Nat) (con : Connection) (code : ErrorCode) :
    Rests sid con (con.setError code) := by
  have hSteady : Steady True False con (con.setError code) := steady_setError con code
  exact rests_of_stream? (dataOn_congr sid hSteady.data) fun s hs => (stream?_setError ..).trans hs

theorem rests_modifyStream (hOther : sid ≠ on) (con : Connection) (f : Stream → Stream) :
    Rests sid con (con.modifyStream on f) := by
  refine rests_of_stream? (congrArg _ (queue_modifyStream ..)) fun s hs => ?_
  rw [stream?_modifyStream, if_neg hOther]
  exact hs

theorem rests_stateMachine {type : FrameType} (hType : type.Plain) (hOther : sid ≠ on)
    (con : Connection) (act : Act) (flags : UInt8) :
    Rests sid con (con.stateMachine act type flags on) := by
  have hSteady : Steady True False con (con.stateMachine act type flags on) :=
    steady_stateMachine ..
  exact rests_of_stream? (dataOn_congr sid hSteady.data)
    fun s hs => stream?_stateMachine_other hs hType hOther act flags

theorem rests_streamError (hOther : sid ≠ on) (con : Connection) (code : ErrorCode) :
    Rests sid con (con.streamError on code) := by
  have hSteady : Steady True False con (con.streamError on code) := steady_streamError ..
  refine ⟨dataOn_congr sid hSteady.data, fun s hs => ?_⟩
  have hReset : (con.encodeEffect (.rstStream code.code) on).stream? sid = some s := by
    show (con.modifyStream on _).stream? sid = _
    rw [stream?_modifyStream, if_neg hOther]
    exact hs
  have hPushed : ((con.encodeEffect (.rstStream code.code) on).push
      ⟨.rstStream, 0, on, pack32 code.code⟩).stream? sid = some s := hReset
  exact ⟨s, stream?_stateMachine_other hPushed plain_rstStream hOther .., rfl, rfl⟩

theorem uploads_rests (hOther : sid ≠ on) : Uploads on (Rests sid) where
  refl := .refl sid
  trans := .trans
  addFcwSend _ _ := rests_of_stream? rfl fun _ hs => hs
  addStreamFcwSend con _ := rests_modifyStream hOther con _
  data con payload flags := by
    have hPushed : Rests sid con (con.push ⟨.data, flags, on, payload⟩) := by
      refine rests_of_stream? ?_ fun _ hs => hs
      show dataOn sid (con.queue ++ _) = _
      rw [dataOn_append, dataOn_data (Ne.symm hOther), List.append_nil]
    exact hPushed.trans (rests_stateMachine plain_data hOther ..)
  ended con _ := rests_modifyStream hOther con _
  blocked con _ := rests_modifyStream hOther con _

theorem rests_push (con : Connection) {frame : Frame} (hType : frame.type ≠ .data) :
    Rests sid con (con.push frame) := by
  have hSteady : Steady True False con (con.push frame) := steady_push con hType
  exact rests_of_stream? (dataOn_congr sid hSteady.data) fun s hs => hs

theorem manages_rests (sid : Nat) : Manages (Rests sid) where
  refl := .refl sid
  trans := .trans
  setError := rests_setError sid
  ackPing con payload := by
    have hSteady : Steady True False con (con.ackPing payload) := answers_steady.ackPing con payload
    refine rests_of_stream? (dataOn_congr sid hSteady.data) fun s hs => ?_
    show (stateMachine _ .send .ping Flag.ack 0).stream? sid = some s
    rw [stateMachine, if_pos (.inl rfl)]
    exact hs
  goaway _ := rests_of_stream? rfl fun _ hs => hs
  addStreamFcwSend con on delta := by
    refine ⟨congrArg _ (queue_modifyStream ..), fun s hs => ?_⟩
    rw [addStreamFcwSend, stream?_modifyStream]
    split
    · next hOn =>
        rw [← hOn, hs]
        exact ⟨_, rfl, rfl, rfl⟩
    · exact ⟨s, hs, rfl, rfl⟩
  setSettings _ _ := rests_of_stream? rfl fun _ hs => hs
  acceptSettings con := rests_push con (show FrameType.settings ≠ .data by decide)

theorem rests_newPeerStream (hOther : sid ≠ on) (con : Connection) :
    Rests sid con (con.newPeerStream on).1 := by
  rw [newPeerStream]
  split
  · exact rests_setError sid con _
  · split
    · have hLast : Rests sid con (con.setLastPeerStream on) := rests_of_stream? rfl fun s hs => hs
      exact hLast.trans (rests_streamError hOther ..)
    · refine rests_of_stream? rfl fun s hs => ?_
      show (con.setStream on _).stream? sid = _
      rw [stream?_setStream, if_neg hOther]
      exact hs

/-! ### The data of one stream -/

/-- What was given is sent but for what waits, no frame has ended the stream, and if the end was
given, something waits. -/
def Unfinished (taken : List Frame) (sid : Nat) (chunks : Octets) (ended : Bool)
    (con : Connection) : Prop :=
  ∃ s, con.stream? sid = some s ∧ s.ended.getD false = ended ∧
    (ended = true → s.blockedData.getD [] ≠ []) ∧
    (dataOn sid (taken ++ con.queue)).flatMap Frame.payload ++ s.blockedData.getD [] = chunks ∧
    Unended (dataOn sid (taken ++ con.queue))

/-- All that was given is sent, and the last frame has ended the stream. -/
def Finished (taken : List Frame) (sid : Nat) (chunks : Octets) (con : Connection) : Prop :=
  ∃ s, con.stream? sid = some s ∧ s.blockedData.getD [] = [] ∧
    (dataOn sid (taken ++ con.queue)).flatMap Frame.payload = chunks ∧
    Ends (dataOn sid (taken ++ con.queue))

variable {taken : List Frame} {chunks : Octets}

theorem Unfinished.rests (h : con.Unfinished taken sid chunks ended) (hRests : Rests sid con con') :
    con'.Unfinished taken sid chunks ended := by
  obtain ⟨s, hs, hEnded, hWaits, hPayload, hUnended⟩ := h
  obtain ⟨s', hs', hBlocked', hEnded'⟩ := hRests.stream s hs
  refine ⟨s', hs', by rw [hEnded']; exact hEnded, by rw [hBlocked']; exact hWaits, ?_, ?_⟩
  · rw [hBlocked', dataOn_append, hRests.data, ← dataOn_append]
    exact hPayload
  · rw [dataOn_append, hRests.data, ← dataOn_append]
    exact hUnended

theorem Finished.rests (h : con.Finished taken sid chunks) (hRests : Rests sid con con') :
    con'.Finished taken sid chunks := by
  obtain ⟨s, hs, hNothing, hPayload, hEnds⟩ := h
  obtain ⟨s', hs', hBlocked', -⟩ := hRests.stream s hs
  refine ⟨s', hs', by rw [hBlocked']; exact hNothing, ?_, ?_⟩
  · rw [dataOn_append, hRests.data, ← dataOn_append]
    exact hPayload
  · rw [dataOn_append, hRests.data, ← dataOn_append]
    exact hEnds

/-- From `con` to `con'` the stream is not made one that a flag would close. -/
def StillOpen (sid : Nat) (con con' : Connection) : Prop :=
  ∀ flags, con'.FlaggedClose sid flags → con.FlaggedClose sid flags

theorem Level.stillOpen (h : Level sid con con') (hSome : (con.stream? sid).isSome) :
    StillOpen sid con con' := by
  obtain ⟨s, hs⟩ := Option.isSome_iff_exists.mp hSome
  obtain ⟨s', hs', hPromised, -⟩ := h.stream s hs
  intro flags hClose
  rw [FlaggedClose, h.type, h.state, get_of_some hs', hPromised, ← get_of_some hs Stream.promisedSid]
    at hClose
  exact hClose

/-- What is left over is stored; it does not end the stream. -/
theorem level_setBlocked (con : Connection) (sid : Nat) (rest : Octets) (other : Nat) :
    (con.modifyStream sid fun s => { s with blockedData := some rest }).get other Stream.state =
        con.get other Stream.state ∧
      (con.modifyStream sid fun s => { s with blockedData := some rest }).get other
        Stream.promisedSid = con.get other Stream.promisedSid :=
  ⟨get_modifyStream (f := fun s => { s with blockedData := some rest }) (fun _ => rfl) ..,
    get_modifyStream (f := fun s => { s with blockedData := some rest }) (fun _ => rfl) ..⟩

/-- `send_data` on the stream, to which the end may be given with the last of the data. -/
theorem Unfinished.sendData (h : con.Unfinished taken sid chunks ended) (chunk : Octets)
    (last : Option Bool) (ended' : Bool)
    (hEnd : ∀ s, con.stream? sid = some s → (last.or s.ended).getD false = ended') :
    (con.sendData sid chunk last).Unfinished taken sid (chunks ++ chunk) ended' ∧
        StillOpen sid con (con.sendData sid chunk last) ∨
      ended' = true ∧ (con.sendData sid chunk last).Finished taken sid (chunks ++ chunk) := by
  obtain ⟨s, hs, -, -, hPayload, hUnended⟩ := h
  obtain ⟨mid, rest, hSends, hCon⟩ := sends_sendData hs chunk last
  rw [hEnd s hs] at hSends
  obtain ⟨frames, hFrames, hSent, hResult⟩ := hSends.frames
  rw [queue_setEnded] at hFrames
  rw [hCon]
  have hQueue : dataOn sid (taken ++ (mid.modifyStream sid fun s =>
      { s with blockedData := some rest }).queue) = dataOn sid (taken ++ con.queue) ++ frames := by
    rw [queue_modifyStream, dataOn_append, hFrames, dataOn_append, List.append_assoc]
  have hAll : (dataOn sid (taken ++ con.queue) ++ frames).flatMap Frame.payload ++ rest =
      chunks ++ chunk := by
    rw [List.flatMap_append, List.append_assoc, hSent, ← List.append_assoc, hPayload]
  rcases hResult with ⟨hNone, hWaits, hLevel⟩ | ⟨hEnds, hLast, hRest, hSome⟩
  · left
    obtain ⟨s', hs', hPromised, -, hEnded⟩ := hLevel.stream _ (stream?_setEnded hs last)
    have hStream : (mid.modifyStream sid fun s => { s with blockedData := some rest }).stream? sid =
        some { s' with blockedData := some rest } := by
      rw [stream?_modifyStream_self, hs']
      rfl
    refine ⟨⟨_, hStream, ?_, hWaits, ?_, ?_⟩, fun flags hClose => ?_⟩
    · show s'.ended.getD false = _
      rw [hEnded]
      exact hEnd s hs
    · rw [hQueue]
      exact hAll
    · rw [hQueue]
      exact hUnended.append hNone
    · rw [FlaggedClose, type_modifyStream, (level_setBlocked mid sid rest _).1,
        (level_setBlocked mid sid rest _).2] at hClose
      have hClosed := hLevel.stillOpen (by rw [stream?_setEnded hs]; rfl) flags hClose
      rw [FlaggedClose, get_setEnded (fun _ _ => rfl), get_setEnded (fun _ _ => rfl)] at hClosed
      refine ⟨?_, hClosed.2⟩
      rw [← hClosed.1, setEnded]
      split
      · exact (type_modifyStream ..).symm
      · rfl
  · right
    obtain ⟨s', hs'⟩ := Option.isSome_iff_exists.mp hSome
    have hStream : (mid.modifyStream sid fun s => { s with blockedData := some rest }).stream? sid =
        some { s' with blockedData := some rest } := by
      rw [stream?_modifyStream_self, hs']
      rfl
    refine ⟨hLast, _, hStream, hRest, ?_, ?_⟩
    · rw [hQueue, ← hAll, hRest, List.append_nil]
    · rw [hQueue]
      exact Ends.append hUnended hEnds

theorem Unfinished.streamSendBlocked (h : con.Unfinished taken sid chunks ended) :
    (con.streamSendBlocked sid).Unfinished taken sid chunks ended ∧
        StillOpen sid con (con.streamSendBlocked sid) ∨
      ended = true ∧ (con.streamSendBlocked sid).Finished taken sid chunks := by
  have hStays : con.Unfinished taken sid chunks ended ∧ StillOpen sid con con := ⟨h, fun _ => id⟩
  have hSent := h.sendData [] none ended fun s hs => by
    obtain ⟨t, ht, hEnded, -⟩ := h
    rw [hs] at ht
    cases ht
    exact hEnded
  rw [List.append_nil] at hSent
  rw [Connection.streamSendBlocked]
  split
  · exact .inl hStays
  · split
    · exact hSent
    · exact .inl hStays

/-- A stream that has sent everything stays so, and one on which nothing waits. -/
theorem Finished.stateMachine {type : FrameType} (h : con.Finished taken sid chunks)
    (hType : type.Plain) (act : Act) (flags : UInt8) :
    (con.stateMachine act type flags sid).Finished taken sid chunks := by
  have hSteady : Steady True False con (con.stateMachine act type flags sid) :=
    steady_stateMachine ..
  obtain ⟨s, hs, hNothing, hPayload, hEnds⟩ := h
  obtain ⟨s', hs', hKept⟩ := stream?_stateMachine_own hs hType act flags
  refine ⟨s', hs', ?_, ?_, ?_⟩
  · rcases hKept with ⟨hBlocked, -⟩ | ⟨hBlocked, -⟩
    · rw [hBlocked]
      exact hNothing
    · rw [hBlocked]
      rfl
  · rw [dataOn_append, dataOn_congr sid hSteady.data, ← dataOn_append]
    exact hPayload
  · rw [dataOn_append, dataOn_congr sid hSteady.data, ← dataOn_append]
    exact hEnds

theorem Unfinished.stateMachine {type : FrameType} (h : con.Unfinished taken sid chunks ended)
    (hNothing : (con.get sid Stream.blockedData).getD [] = []) (hType : type.Plain) (act : Act)
    (flags : UInt8) : (con.stateMachine act type flags sid).Unfinished taken sid chunks ended := by
  have hSteady : Steady True False con (con.stateMachine act type flags sid) :=
    steady_stateMachine ..
  obtain ⟨s, hs, hEnded, hWaits, hPayload, hUnended⟩ := h
  rw [get_of_some hs] at hNothing
  have hOpen : ended = false := by
    rw [← Bool.not_eq_true]
    exact fun hTrue => hWaits hTrue hNothing
  obtain ⟨s', hs', hKept⟩ := stream?_stateMachine_own hs hType act flags
  have hBlocked : s'.blockedData.getD [] = [] := by
    rcases hKept with ⟨hSame, -⟩ | ⟨hNone, -⟩
    · rw [hSame]
      exact hNothing
    · rw [hNone]
      rfl
  refine ⟨s', hs', ?_, fun hTrue => ?_, ?_, ?_⟩
  · rcases hKept with ⟨-, hSame⟩ | ⟨-, hNone⟩
    · rw [hSame]
      exact hEnded
    · rw [hNone, hOpen]
      rfl
  · rw [hOpen] at hTrue
    cases hTrue
  · rw [hBlocked, dataOn_append, dataOn_congr sid hSteady.data, ← dataOn_append, ← hPayload, hNothing]
  · rw [dataOn_append, dataOn_congr sid hSteady.data, ← dataOn_append]
    exact hUnended

/-! ### Received frames -/

/-- The data of the stream is where it belongs. -/
def Carries (taken : List Frame) (sid : Nat) (chunks : Octets) (ended : Bool)
    (con : Connection) : Prop :=
  con.Unfinished taken sid chunks ended ∨ ended = true ∧ con.Finished taken sid chunks

theorem Carries.rests (h : con.Carries taken sid chunks ended) (hRests : Rests sid con con') :
    con'.Carries taken sid chunks ended :=
  h.imp (·.rests hRests) fun hDone => ⟨hDone.1, hDone.2.rests hRests⟩

theorem Carries.exists_stream (h : con.Carries taken sid chunks ended) : ∃ s, con.stream? sid = some s := by
  rcases h with ⟨s, hs, -⟩ | ⟨-, s, hs, -⟩
  · exact ⟨s, hs⟩
  · exact ⟨s, hs⟩

theorem streamSendBlocked_nothing (hNothing : (con.get sid Stream.blockedData).getD [] = []) :
    con.streamSendBlocked sid = con := by
  rw [streamSendBlocked]
  cases hs : con.stream? sid with
  | none => rfl
  | some s =>
    rw [get_of_some hs] at hNothing
    exact if_neg fun hBoth => hBoth.1 hNothing

theorem Finished.nothing (h : con.Finished taken sid chunks) :
    (con.get sid Stream.blockedData).getD [] = [] := by
  obtain ⟨s, hs, hNothing, -⟩ := h
  rw [get_of_some hs]
  exact hNothing

theorem Carries.streamSendBlocked (h : con.Carries taken sid chunks ended) (on : Nat) :
    (con.streamSendBlocked on).Carries taken sid chunks ended := by
  by_cases hOther : sid = on
  · subst hOther
    rcases h with hOpen | ⟨hEnded, hDone⟩
    · exact hOpen.streamSendBlocked.imp And.left id
    · rw [streamSendBlocked_nothing hDone.nothing]
      exact .inr ⟨hEnded, hDone⟩
  · exact h.rests ((uploads_rests hOther).streamSendBlocked con)

theorem Carries.sendBlocked (h : con.Carries taken sid chunks ended) (ord : HashOrder) :
    (con.sendBlocked ord).Carries taken sid chunks ended := by
  rw [Connection.sendBlocked]
  generalize ord.order con.streams.keys = keys
  induction keys generalizing con with
  | nil => exact h
  | cons on keys ih => exact ih (h.streamSendBlocked on)

/-- Sending RST_STREAM marks the stream. -/
theorem isSome_reset_streamError (hSome : (con.stream? sid).isSome) (code : ErrorCode) :
    ((con.streamError sid code).get sid Stream.reset).isSome := by
  obtain ⟨s, hs⟩ := Option.isSome_iff_exists.mp hSome
  have hMarked : ((con.encodeEffect (.rstStream code.code) sid).push
      ⟨.rstStream, 0, sid, pack32 code.code⟩).get sid Stream.reset = some code.code := by
    show (con.modifyStream sid (Stream.setReset code.code)).get sid Stream.reset = _
    rw [get, stream?_modifyStream_self, hs]
    rfl
  exact (touches_stateMachine (Set.mem_univ sid) _ .send .rstStream 0).reset sid
    (Option.isSome_iff_exists.mpr ⟨_, hMarked⟩)

/-- A WINDOW_UPDATE frame for the stream. Its flags are of account to data that waits only. -/
theorem Carries.windowUpdate (h : con.Carries taken sid chunks ended) (ord : HashOrder)
    {fh : FrameHeader} (hType : fh.type = .windowUpdate) (hSid : fh.stream = sid) (hNonzero : sid ≠ 0)
    (hFlags : con.FlaggedClose sid fh.flags → (con.get sid Stream.blockedData).getD [] = [])
    (buf : Octets) :
    ((con.frameReceive ord fh buf).1.get sid Stream.reset).isSome ∨
      (con.frameReceive ord fh buf).1.Carries taken sid chunks ended := by
  obtain ⟨s, hs⟩ := h.exists_stream
  -- the window of the stream is of no account
  have hMoved (n : Int) : Rests sid con (con.addStreamFcwSend sid n) ∧
      StillOpen sid con (con.addStreamFcwSend sid n) ∧
      (con.addStreamFcwSend sid n).get sid Stream.blockedData = con.get sid Stream.blockedData := by
    have hStream : (con.addStreamFcwSend sid n).stream? sid = some (shift n s) := by
      rw [stream?_addStreamFcwSend, if_pos rfl, hs]
      rfl
    refine ⟨⟨congrArg _ (queue_modifyStream ..), fun t ht => ?_⟩, fun flags hClose => ?_, ?_⟩
    · rw [hs] at ht
      cases ht
      exact ⟨_, hStream, rfl, rfl⟩
    · have hState (other : Nat) : (con.addStreamFcwSend sid n).get other Stream.state =
          con.get other Stream.state := get_modifyStream (f := shift n) (fun _ => rfl) ..
      have hPromised : (con.addStreamFcwSend sid n).get sid Stream.promisedSid =
          con.get sid Stream.promisedSid := get_modifyStream (f := shift n) (fun _ => rfl) ..
      have hSide : (con.addStreamFcwSend sid n).type = con.type := type_modifyStream ..
      rw [FlaggedClose, hSide, hPromised, hState] at hClose
      exact hClose
    · rw [get_of_some hStream, get_of_some hs]
      rfl
  have hMachine {con' : Connection} (hCarries : con'.Carries taken sid chunks ended)
      (hClose : con'.FlaggedClose sid fh.flags →
        con'.Finished taken sid chunks ∨ (con'.get sid Stream.blockedData).getD [] = []) :
      (con'.stateMachine .recv .windowUpdate fh.flags sid).Carries taken sid chunks ended := by
    rcases hCarries with hOpen | ⟨hEnded, hDone⟩
    · by_cases hNothing : (con'.get sid Stream.blockedData).getD [] = []
      · exact .inl (hOpen.stateMachine hNothing plain_windowUpdate ..)
      · refine .inl (hOpen.rests ?_)
        have hSteady : Steady True False con'
            (con'.stateMachine .recv .windowUpdate fh.flags sid) := steady_stateMachine ..
        refine rests_of_stream? (dataOn_congr sid hSteady.data) fun t ht => ?_
        refine stream?_recv_windowUpdate ht fun hFlag => ?_
        exact (hClose hFlag).elim (fun hDone => hNothing hDone.nothing) hNothing
    · exact .inr ⟨hEnded, hDone.stateMachine plain_windowUpdate ..⟩
  have hDecode : ((con.windowUpdateDecode ord fh buf).1.get sid Stream.reset).isSome ∨
      (con.windowUpdateDecode ord fh buf).2 = none ∧
        (con.windowUpdateDecode ord fh buf).1.Carries taken sid chunks ended ∨
      (con.windowUpdateDecode ord fh buf).1.Carries taken sid chunks ended ∧
        ((con.windowUpdateDecode ord fh buf).1.FlaggedClose sid fh.flags →
          (con.windowUpdateDecode ord fh buf).1.Finished taken sid chunks ∨
            ((con.windowUpdateDecode ord fh buf).1.get sid Stream.blockedData).getD [] = []) := by
    rw [windowUpdateDecode]
    split
    · exact .inr (.inl ⟨rfl, h.rests (rests_setError ..)⟩)
    · dsimp only
      generalize unpack32 buf &&& 0x7FFFFFFF = n
      split
      · exact .inr (.inl ⟨rfl, h.rests (rests_setError ..)⟩)
      · rw [hSid, if_neg hNonzero, hs]
        dsimp only
        obtain ⟨hRests, hStill, hSame⟩ := hMoved n
        have hCarries := h.rests hRests
        split
        · exact .inl (isSome_reset_streamError (Option.isSome_iff_exists.mpr
            ((hRests.stream s hs).imp fun _ hKept => hKept.1)) .flowControlError)
        · right
          right
          by_cases hNothing : (con.get sid Stream.blockedData).getD [] = []
          · rw [streamSendBlocked_nothing (by rw [hSame]; exact hNothing)]
            exact ⟨hCarries, fun _ => .inr (by rw [hSame]; exact hNothing)⟩
          · rcases hCarries with hOpen | ⟨hEnded, hDone⟩
            · rcases hOpen.streamSendBlocked with ⟨hNext, hOpenStill⟩ | ⟨hEnded, hNext⟩
              · refine ⟨.inl hNext, fun hClose => ?_⟩
                exact absurd (hFlags (hStill _ (hOpenStill _ hClose))) hNothing
              · exact ⟨.inr ⟨hEnded, hNext⟩, fun _ => .inl hNext⟩
            · exact absurd (hSame ▸ hDone.nothing) hNothing
  rw [frameReceive, payloadDecode, hType, hSid]
  dsimp only
  generalize con.windowUpdateDecode ord fh buf = result at hDecode ⊢
  obtain ⟨con', taken'⟩ := result
  rcases hDecode with hReset | ⟨hStops, hCarries⟩ | ⟨hCarries, hClose⟩
  · cases taken' with
    | none => exact .inl hReset
    | some n => exact .inl ((touches_stateMachine (Set.mem_univ sid) con' ..).reset sid hReset)
  · cases hStops
    exact .inr hCarries
  · cases taken' with
    | none => exact .inr hCarries
    | some n => exact .inr (hMachine hCarries hClose)

/-- A SETTINGS frame, or a WINDOW_UPDATE frame for the connection or for another stream. -/
theorem Carries.other (h : con.Carries taken sid chunks ended) (ord : HashOrder) {fh : FrameHeader}
    (hType : fh.type = .settings ∨ fh.type = .windowUpdate ∧ (fh.stream = 0 ∨ sid ≠ fh.stream))
    (buf : Octets) : (con.frameReceive ord fh buf).1.Carries taken sid chunks ended := by
  rw [frameReceive, payloadDecode]
  rcases hType with hSettings | ⟨hUpdate, hStream⟩
  · rw [hSettings]
    dsimp only
    have hDecode := h.rests ((manages_rests sid).settingsDecode con fh buf)
    generalize con.settingsDecode fh buf = result at hDecode ⊢
    obtain ⟨con', _ | n⟩ := result
    · exact hDecode
    · show (con'.stateMachine .recv .settings fh.flags fh.stream).Carries taken sid chunks ended
      rw [stateMachine, if_pos (by simp)]
      exact hDecode
  · rw [hUpdate]
    dsimp only
    have hDecode : (con.windowUpdateDecode ord fh buf).1.Carries taken sid chunks ended := by
      rw [windowUpdateDecode]
      split
      · exact h.rests (rests_setError ..)
      · dsimp only
        generalize unpack32 buf &&& 0x7FFFFFFF = n
        split
        · exact h.rests (rests_setError ..)
        · split
          · have hMoved : (con.addFcwSend n).Carries taken sid chunks ended :=
              h.rests (rests_of_stream? rfl fun _ hs => hs)
            split
            · exact hMoved.rests (rests_setError ..)
            · exact hMoved.sendBlocked ord
          · next hNonzero =>
            have hOther := hStream.resolve_left hNonzero
            split
            · exact h
            · have hMoved := h.rests (rests_modifyStream hOther con (shift n))
              split
              · exact hMoved.rests (rests_streamError hOther ..)
              · exact hMoved.streamSendBlocked fh.stream
    generalize con.windowUpdateDecode ord fh buf = result at hDecode ⊢
    obtain ⟨con', _ | n⟩ := result
    · exact hDecode
    · show (con'.stateMachine .recv .windowUpdate fh.flags fh.stream).Carries taken sid chunks ended
      rcases hStream with hZero | hOther
      · rw [stateMachine, if_pos (.inl hZero)]
        exact hDecode
      · exact hDecode.rests (rests_stateMachine plain_windowUpdate hOther ..)

/-- A frame that arrives. -/
theorem Carries.frameDecode (h : con.Carries taken sid chunks ended) (ord : HashOrder) (buf : Octets)
    (hFrame : ∀ fh payload, con.inTurn buf = some (fh, payload) →
      (fh.type = .settings ∨ fh.type = .windowUpdate) ∧
        (fh.type = .windowUpdate → fh.stream = sid → con.FlaggedClose sid fh.flags →
          (con.get sid Stream.blockedData).getD [] = [])) :
    ((con.frameDecode ord buf).1.get sid Stream.reset).isSome ∨
      (con.frameDecode ord buf).1.Carries taken sid chunks ended := by
  cases hTurn : con.inTurn buf with
  | none =>
    right
    rcases frameDecode_idle hTurn ord with hStays | ⟨code, hError⟩
    · rw [hStays]
      exact h
    · rw [hError]
      exact h.rests (rests_setError ..)
  | some turn =>
    obtain ⟨fh, payload⟩ := turn
    obtain ⟨hType, hFlags⟩ := hFrame fh payload hTurn
    rcases frameDecode_inTurn hTurn ord with ⟨-, hStays⟩ | hAdmit
    · right
      rw [hStays]
      exact h
    · rw [hAdmit, frameAdmit]
      split
      · next hNew =>
        have hOther : sid ≠ fh.stream := by
          rintro rfl
          obtain ⟨s, hs⟩ := h.exists_stream
          rw [hs] at hNew
          exact absurd hNew.2 (by simp)
        have hMade := h.rests (rests_newPeerStream hOther con)
        right
        generalize con.newPeerStream fh.stream = result at hMade ⊢
        obtain ⟨con', _ | _⟩ := result
        · exact hMade
        · exact hMade.other ord (hType.imp_right fun hUpdate => ⟨hUpdate, .inr hOther⟩) payload
      · by_cases hOwn : fh.type = .windowUpdate ∧ fh.stream = sid ∧ sid ≠ 0
        · obtain ⟨hUpdate, hSid, hNonzero⟩ := hOwn
          exact h.windowUpdate ord hUpdate hSid hNonzero (hFlags hUpdate hSid) payload
        · right
          refine h.other ord (hType.imp_right fun hUpdate => ⟨hUpdate, ?_⟩) payload
          by_cases hSid : sid = fh.stream
          · refine .inl ?_
            by_contra hNonzero
            exact hOwn ⟨hUpdate, hSid.symm, hSid ▸ hNonzero⟩
          · exact .inr hSid

/-- No reset is taken back by such a frame. -/
theorem isSome_reset_frameDecode (ord : HashOrder) (buf : Octets)
    (hFrame : ∀ fh payload, con.inTurn buf = some (fh, payload) → fh.type ≠ .pushPromise)
    (hReset : (con.get sid Stream.reset).isSome) :
    ((con.frameDecode ord buf).1.get sid Stream.reset).isSome := by
  cases hTurn : con.inTurn buf with
  | none =>
    rcases frameDecode_idle hTurn ord with hStays | ⟨code, hError⟩
    · rw [hStays]
      exact hReset
    · rw [hError]
      have hTouches : Touches Set.univ con (con.setError code) := touches_setError con code
      exact hTouches.reset sid hReset
  | some turn =>
    obtain ⟨fh, payload⟩ := turn
    have hPush := hFrame fh payload hTurn
    have hReceive (con : Connection) (hReset : (con.get sid Stream.reset).isSome) :
        ((con.frameReceive ord fh payload).1.get sid Stream.reset).isSome := by
      have hDecode := (touches_payloadDecode ord hPush (Set.mem_univ _) (fun _ _ => rfl) con
        payload).reset sid hReset
      rw [frameReceive]
      generalize con.payloadDecode ord fh payload = result at hDecode ⊢
      obtain ⟨con', _ | n⟩ := result
      · exact hDecode
      · exact (touches_stateMachine (Set.mem_univ _) con' ..).reset sid hDecode
    rcases frameDecode_inTurn hTurn ord with ⟨-, hStays⟩ | hAdmit
    · rw [hStays]
      exact hReset
    · rw [hAdmit, frameAdmit]
      split
      · next hNew =>
        have hMade := (touches_newPeerStream (Set.mem_univ fh.stream)
          (by simpa using hNew.2)).reset sid hReset
        generalize con.newPeerStream fh.stream = result at hMade ⊢
        obtain ⟨con', _ | _⟩ := result
        · exact hMade
        · exact hReceive con' hMade
      · exact hReceive con hReset

end Connection

/-! ### Runs -/

/-- A connection, the frames already taken from its queue, and what the application has written to
one stream. -/
structure Writing where
  con : Connection
  taken : List Frame := []
  chunks : Octets := []
  ended : Bool := false

/-- What happens while the application writes: a frame arrives, a chunk is sent on some stream, or a
frame leaves the queue. -/
inductive WriteEvent where
  | recv (ord : HashOrder) (buf : Octets)
  | sendData (on : Nat) (chunk : Octets) (ended : Option Bool)
  | dequeue

namespace Writing

def step (sid : Nat) (w : Writing) : WriteEvent → Writing
  | .recv ord buf => { w with con := (w.con.frameDecode ord buf).1 }
  | .sendData on chunk ended =>
    let w' := { w with con := w.con.sendData on chunk ended }
    if on = sid then
      { w' with chunks := w.chunks ++ chunk, ended := w.ended || ended = some true }
    else w'
  | .dequeue =>
    match w.con.queue with
    | [] => w
    | frame :: queue => { w with con := { w.con with queue }, taken := w.taken ++ [frame] }

/-- The frames of the stream, in the order in which they were put into the queue. -/
def frames (w : Writing) (sid : Nat) : List Frame := dataOn sid (w.taken ++ w.con.queue)

/-- What waits in the stream. -/
def blocked (w : Writing) (sid : Nat) : Octets := (w.con.get sid Stream.blockedData).getD []

/-- Everything written is in the frames or waits. END_STREAM is in no frame but the last, and
it is there exactly when the end was requested and nothing waits. -/
structure Delivers (w : Writing) (sid : Nat) : Prop where
  payloads : (w.frames sid).flatMap Frame.payload ++ w.blocked sid = w.chunks
  before : Unended (w.frames sid).dropLast
  last : (∃ frame ∈ (w.frames sid).getLast?, hasFlag frame.flags Flag.endStream = true) ↔
    w.ended = true ∧ w.blocked sid = []

/-- Before anything is written. -/
structure Start (con : Connection) (sid : Nat) : Prop where
  stream : (con.stream? sid).isSome
  blocked : (con.get sid Stream.blockedData).getD [] = []
  ended : (con.get sid Stream.ended).getD false = false
  frames : dataOn sid con.queue = []

end Writing

/-- Only SETTINGS and WINDOW_UPDATE frames arrive, and nothing is written after the end. -/
def WriteEvent.Allowed (sid : Nat) (w : Writing) : WriteEvent → Prop
  | .recv _ buf => ∀ fh payload, w.con.inTurn buf = some (fh, payload) →
      fh.type = .settings ∨ fh.type = .windowUpdate
  | .sendData on _ _ => on = sid → w.ended = false
  | .dequeue => True

/-- No flag of a WINDOW_UPDATE frame closes the stream while data waits. -/
def WriteEvent.Harmless (sid : Nat) (w : Writing) : WriteEvent → Prop
  | .recv _ buf => ∀ fh payload, w.con.inTurn buf = some (fh, payload) →
      fh.type = .windowUpdate → fh.stream = sid → w.con.FlaggedClose sid fh.flags →
        w.blocked sid = []
  | .sendData .. | .dequeue => True

namespace Connection

variable {con : Connection} {sid : Nat} {taken : List Frame} {chunks : Octets} {ended : Bool}

/-- END_STREAM is where it belongs. -/
theorem Carries.delivers (h : con.Carries taken sid chunks ended) :
    Writing.Delivers ⟨con, taken, chunks, ended⟩ sid := by
  rcases h with ⟨s, hs, -, hWaits, hPayload, hUnended⟩ | ⟨hEnded, s, hs, hNothing, hPayload, hEnds⟩
  · have hBlocked : Writing.blocked ⟨con, taken, chunks, ended⟩ sid = s.blockedData.getD [] := by
      rw [Writing.blocked, get_of_some hs]
    refine ⟨?_, fun frame hMem => hUnended frame (List.dropLast_subset _ hMem), ?_, ?_⟩
    · rw [hBlocked]
      exact hPayload
    · rintro ⟨frame, hLast, hFlag⟩
      rw [hUnended frame (List.mem_of_getLast? hLast)] at hFlag
      cases hFlag
    · rintro ⟨hEnded, hNothing⟩
      exact absurd (hBlocked ▸ hNothing) (hWaits hEnded)
  · have hBlocked : Writing.blocked ⟨con, taken, chunks, ended⟩ sid = [] := by
      rw [Writing.blocked, get_of_some hs]
      exact hNothing
    obtain ⟨init, last, hFrames, hInit, hLast⟩ := hEnds
    have hSplit : Writing.frames ⟨con, taken, chunks, ended⟩ sid = init ++ [last] := hFrames
    refine ⟨?_, ?_, fun _ => ⟨hEnded, hBlocked⟩, fun _ => ⟨last, ?_, hLast⟩⟩
    · rw [hBlocked, List.append_nil]
      exact hPayload
    · rw [hSplit, List.dropLast_concat]
      exact hInit
    · rw [hSplit, List.getLast?_concat]
      rfl

/-- A chunk is written. Once the end was given nothing is. -/
theorem Carries.sendData (h : con.Carries taken sid chunks false) (chunk : Octets)
    (last : Option Bool) : (con.sendData sid chunk last).Carries taken sid (chunks ++ chunk)
      (last = some true) := by
  rcases h with hOpen | ⟨hEnded, -⟩
  · refine (hOpen.sendData chunk last (last = some true) fun s hs => ?_).imp And.left id
    obtain ⟨t, ht, hEnded, -⟩ := hOpen
    rw [hs] at ht
    cases ht
    cases last with
    | none => simpa using hEnded
    | some value => cases value <;> rfl
  · cases hEnded

theorem isSome_reset_sendData (hReset : (con.get sid Stream.reset).isSome) (on : Nat)
    (chunk : Octets) (last : Option Bool) :
    ((con.sendData on chunk last).get sid Stream.reset).isSome :=
  (touches_sendData (Set.mem_univ on) con chunk last).reset sid hReset

end Connection

/-- One event. -/
theorem carries_step {w : Writing} {sid : Nat}
    (h : (w.con.get sid Stream.reset).isSome ∨ w.con.Carries w.taken sid w.chunks w.ended)
    (event : WriteEvent) (hAllowed : event.Allowed sid w) (hHarmless : event.Harmless sid w) :
    ((w.step sid event).con.get sid Stream.reset).isSome ∨
      (w.step sid event).con.Carries (w.step sid event).taken sid (w.step sid event).chunks
        (w.step sid event).ended := by
  cases event with
  | recv ord buf =>
    rcases h with hReset | hCarries
    · refine .inl (Connection.isSome_reset_frameDecode ord buf (fun fh payload hTurn => ?_) hReset)
      rcases hAllowed fh payload hTurn with hType | hType
      all_goals
        rw [hType]
        decide
    · exact hCarries.frameDecode ord buf fun fh payload hTurn =>
        ⟨hAllowed fh payload hTurn, hHarmless fh payload hTurn⟩
  | sendData on chunk ended =>
    by_cases hOn : on = sid
    · subst hOn
      simp only [Writing.step, if_true]
      refine h.imp (fun hReset => Connection.isSome_reset_sendData hReset ..) fun hCarries => ?_
      rw [hAllowed rfl] at hCarries ⊢
      rw [Bool.false_or]
      exact hCarries.sendData chunk ended
    · simp only [Writing.step, if_neg hOn]
      exact h.imp (fun hReset => Connection.isSome_reset_sendData hReset ..) fun hCarries =>
        hCarries.rests ((Connection.uploads_rests (Ne.symm hOn)).sendData ..)
  | dequeue =>
    rw [Writing.step]
    split
    · exact h
    · next frame queue hQueue =>
      refine h.imp id fun hCarries => ?_
      have hSame : w.taken ++ w.con.queue = w.taken ++ [frame] ++ queue := by
        rw [hQueue, List.append_assoc]
        rfl
      rw [Connection.Carries, Connection.Unfinished, Connection.Finished, hSame] at hCarries
      exact hCarries

/-- As long as no flag of a WINDOW_UPDATE frame closes the stream while data waits, the data of a
stream that is not reset is sent or waits, and the last of it carries END_STREAM. -/
theorem written_data_delivered {con : Connection} {sid : Nat} (hStart : Writing.Start con sid)
    {w : Writing} (hRun : Reached (Writing.step sid)
      (fun w event => event.Allowed sid w ∧ event.Harmless sid w) { con } w)
    (hReset : w.con.get sid Stream.reset = none) : w.Delivers sid := by
  have hInvariant : (w.con.get sid Stream.reset).isSome ∨
      w.con.Carries w.taken sid w.chunks w.ended := by
    refine @Reached.invariant _ _ _ _ _ _ (fun w : Writing => (w.con.get sid Stream.reset).isSome ∨
      w.con.Carries w.taken sid w.chunks w.ended) (.inr (.inl ?_))
      (fun w event h hOk => carries_step h event hOk.1 hOk.2) hRun
    obtain ⟨s, hs⟩ := Option.isSome_iff_exists.mp hStart.stream
    have hNothing := hStart.blocked
    have hEnded := hStart.ended
    rw [Connection.get_of_some hs] at hNothing hEnded
    refine ⟨s, hs, hEnded, fun hTrue => absurd hTrue Bool.false_ne_true, ?_, ?_⟩
    · rw [hNothing, List.nil_append, hStart.frames]
      rfl
    · rw [List.nil_append, hStart.frames]
      exact fun frame hMem => absurd hMem List.not_mem_nil
  rcases hInvariant with hSome | hCarries
  · rw [hReset] at hSome
    cases hSome
  · exact hCarries.delivers

theorem allowed_recv {w : Writing} {sid : Nat} {ord : HashOrder} {buf : Octets}
    (h : (w.con.inTurn buf).all (fun turn => turn.1.type = .settings ∨ turn.1.type = .windowUpdate) =
      true) : (WriteEvent.recv ord buf).Allowed sid w := by
  intro fh payload hTurn
  rw [hTurn] at h
  simpa using h

theorem harmless_of_server {w : Writing} (hServer : w.con.type = .server) (sid : Nat)
    (event : WriteEvent) : event.Harmless sid w := by
  cases event with
  | recv ord buf =>
    intro fh payload _ _ _ hClose
    rw [hClose.1] at hServer
    cases hServer
  | sendData | dequeue => trivial

/-- A server that may send five octets on stream 1. -/
def narrowServer : Connection :=
  (runEvents Flow.proceed (Flow.begin .server ∅)
    [.recv .kept (settingsFrame 5), .recv .kept requestFrame]).con

/-- The last of ten octets go out when the window is opened. -/
theorem written_data_delivered_increment :
    (runEvents (Writing.step 1) { con := narrowServer }
      [.sendData 1 (octets "0123456789") (some true), .recv .kept incrementFrame]).Delivers 1 := by
  have hServer : narrowServer.type = .server ∧ (narrowServer.stream? 1).isSome ∧
      (narrowServer.get 1 Stream.blockedData).getD [] = [] ∧
      (narrowServer.get 1 Stream.ended).getD false = false ∧ dataOn 1 narrowServer.queue = [] := by
    decide +kernel
  refine written_data_delivered ⟨hServer.2.1, hServer.2.2.1, hServer.2.2.2.1, hServer.2.2.2.2⟩
    (.next (WriteEvent.recv .kept incrementFrame)
      (.next (WriteEvent.sendData 1 (octets "0123456789") (some true)) .start ?_) ?_)
    (by decide +kernel)
  · exact ⟨fun _ => rfl, harmless_of_server hServer.1 ..⟩
  · exact ⟨allowed_recv (by decide +kernel), harmless_of_server (by decide +kernel) ..⟩

/-- A response that ends the stream. -/
def endedResponseFrame : Octets := [0, 0, 1, 1, 5, 0, 0, 0, 1, 0x88]

/-- An increment of one octet for stream 1, with a flag that is not defined for it. -/
def flaggedIncrementFrame : Octets := [0, 0, 4, 8, 1, 0, 0, 0, 1, 0, 0, 0, 1]

/-- A client that got the response while its window for stream 1 was below zero. -/
def closedClient : Connection :=
  (runEvents Flow.proceed (Flow.begin .client ∅) [.newStream,
    .sendHeaders 1 [(octets ":method", octets "POST")] false, .recv .kept (settingsFrame 5),
    .sendData 1 (octets "01234") none, .dequeue, .dequeue, .dequeue, .recv .kept (settingsFrame 0),
    .recv .kept endedResponseFrame]).con

/-- The rest of the upload waits, and the flag takes it away. No error is raised. -/
theorem written_data_dropped :
    Writing.Start closedClient 1 ∧
      ∃ w, Reached (Writing.step 1) (fun w event => event.Allowed 1 w) { con := closedClient } w ∧
        w.con.get 1 Stream.reset = none ∧ w.con.error = none ∧ ¬ w.Delivers 1 := by
  have hClient : (closedClient.stream? 1).isSome ∧
      (closedClient.get 1 Stream.blockedData).getD [] = [] ∧
      (closedClient.get 1 Stream.ended).getD false = false ∧ dataOn 1 closedClient.queue = [] := by
    decide +kernel
  let w := runEvents (Writing.step 1) { con := closedClient }
    [.sendData 1 (octets "56789") (some true), .recv .kept flaggedIncrementFrame]
  have hRun : w.con.get 1 Stream.reset = none ∧ w.con.error = none ∧
      (w.frames 1).flatMap Frame.payload ++ w.blocked 1 ≠ w.chunks := by
    decide +kernel
  refine ⟨⟨hClient.1, hClient.2.1, hClient.2.2.1, hClient.2.2.2⟩, w,
    .next (WriteEvent.recv .kept flaggedIncrementFrame)
      (.next (WriteEvent.sendData 1 (octets "56789") (some true)) .start fun _ => rfl)
      (allowed_recv (by decide +kernel)), hRun.1, hRun.2.1, fun hDelivers => ?_⟩
  exact hRun.2.2 hDelivers.payloads

end PageCamel.Http2

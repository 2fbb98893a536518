import PageCamel.Http2.FrameRule
import PageCamel.Http2.SendHeaders
import PageCamel.Http2.SendSteps
import PageCamel.Lib.Tally

/-!
The number of streams a client has open on a server. `active_peer_streams` is raised where a stream
is made and lowered where one is closed. It counts the streams that are open, as long as no stream
carries a promise: with one, a frame may close a stream for a second time.
-/

namespace PageCamel.Http2
open PageCamel.Lib

instance (s : Stream) : Decidable s.Live := inferInstanceAs (Decidable (_ ∧ _))

/-- The stream is one of the client's and open. -/
def Stream.isPeerOpen (sid : Nat) (s : Stream) : Bool := sid % 2 = 1 ∧ s.Live

theorem Stream.isPeerOpen_congr {sid : Nat} {s s' : Stream} (hState : s'.state = s.state) :
    s'.isPeerOpen sid = s.isPeerOpen sid :=
  decide_eq_decide.mpr (by rw [Live, Live, hState])

/-- `push` with the fields of the promised request; it dies on a stream of its own. What is undefined
where the connection is going away counts as zero. -/
def Server.push (con : Connection) (sid : Nat) (headers : List Header) : Connection :=
  if sid % 2 = 0 then con
  else
    let (con, promised) := con.newStream
    let con := con.modifyStream sid fun s => { s with promisedSid := promised }
    let con := con.sendPpHeaders sid (promised.getD 0) headers
    con.modifyStream sid fun s => { s with cb := s.cb ++ [(.closed, .pushed (promised.getD 0) headers)] }

namespace Connection

variable {con con' : Connection}

/-- The number of streams of the client whose state is defined and not CLOSED. -/
def openPeerStreams (con : Connection) : Nat := tally Stream.isPeerOpen con.streams

/-- The server counts the open streams of its client, and there are not too many of them. -/
structure Tallied (con : Connection) : Prop where
  server : con.type = .server
  even : con.lastStream % 2 = 0
  count : con.activePeerStreams = con.openPeerStreams
  room : con.activePeerStreams ≤ con.decSetting Setting.maxConcurrentStreams

/-- It goes on counting them: no stream carries a promise. -/
structure Counted (con : Connection) : Prop extends Tallied con where
  proper : con.Proper

theorem Tallied.of_streams (h : con.Tallied) (hType : con'.type = con.type)
    (hStreams : con'.streams = con.streams) (hLast : con'.lastStream = con.lastStream)
    (hActive : con'.activePeerStreams = con.activePeerStreams)
    (hSettings : con'.decodeCtx.settings = con.decodeCtx.settings) : con'.Tallied where
  server := hType.trans h.server
  even := hLast ▸ h.even
  count := by rw [hActive, h.count, openPeerStreams, openPeerStreams, hStreams]
  room := by
    rw [hActive, decSetting, hSettings]
    exact h.room

/-- An entry that is no more open than the one it replaces. -/
theorem Tallied.setStream (h : con.Tallied) {sid : Nat} {s : Stream}
    (hSame : s.isPeerOpen sid = holdsAt Stream.isPeerOpen con.streams sid) : (con.setStream sid s).Tallied where
  server := h.server
  even := h.even
  count := by
    have hPut := tally_insert Stream.isPeerOpen con.streams sid s
    rw [hSame] at hPut
    have hSum : openPeerStreams (con.setStream sid s) = con.openPeerStreams := Nat.add_right_cancel hPut
    exact h.count.trans hSum.symm
  room := h.room

theorem Tallied.modifyStream (h : con.Tallied) (sid : Nat) {f : Stream → Stream}
    (hState : ∀ s, (f s).state = s.state) : (con.modifyStream sid f).Tallied := by
  unfold Connection.modifyStream
  split
  · exact h
  · next s hs =>
      refine h.setStream ?_
      rw [holdsAt_of_lookup hs]
      exact Stream.isPeerOpen_congr (hState s)

theorem Proper.of_streams (h : con.Proper) (hStreams : con'.streams = con.streams) : con'.Proper :=
  fun sid s hs => h sid s (by rw [stream?, ← hStreams]; exact hs)

theorem Proper.setStream (h : con.Proper) {sid : Nat} {s : Stream} (hProper : s.Proper) :
    (con.setStream sid s).Proper := by
  intro other t ht
  rw [stream?_setStream] at ht
  split at ht
  · cases ht
    exact hProper
  · exact h other t ht

theorem Proper.modifyStream (h : con.Proper) (sid : Nat) {f : Stream → Stream}
    (hProper : ∀ s : Stream, s.Proper → (f s).Proper) : (con.modifyStream sid f).Proper := by
  unfold Connection.modifyStream
  split
  · exact h
  · next s hs => exact h.setStream (hProper s (h sid s hs))

theorem Counted.of_streams (h : con.Counted) (hType : con'.type = con.type)
    (hStreams : con'.streams = con.streams) (hLast : con'.lastStream = con.lastStream)
    (hActive : con'.activePeerStreams = con.activePeerStreams)
    (hSettings : con'.decodeCtx.settings = con.decodeCtx.settings) : con'.Counted :=
  ⟨h.toTallied.of_streams hType hStreams hLast hActive hSettings, h.proper.of_streams hStreams⟩

theorem Counted.beside (h : con.Counted) (hBeside : Beside con con') : con'.Counted :=
  h.of_streams hBeside.type hBeside.streams hBeside.lastStream hBeside.activePeerStreams hBeside.settings

theorem Counted.push (h : con.Counted) (frame : Frame) : (con.push frame).Counted :=
  h.of_streams rfl rfl rfl rfl rfl

theorem Counted.setError (h : con.Counted) (code : ErrorCode) : (con.setError code).Counted := by
  unfold Connection.setError finish
  repeat' split
  all_goals exact h.of_streams rfl rfl rfl rfl rfl

theorem Counted.setStream (h : con.Counted) {sid : Nat} {s : Stream} (hProper : s.Proper)
    (hSame : s.isPeerOpen sid = holdsAt Stream.isPeerOpen con.streams sid) : (con.setStream sid s).Counted :=
  ⟨h.toTallied.setStream hSame, h.proper.setStream hProper⟩

theorem Counted.vivify (h : con.Counted) (sid : Nat) : (con.vivify sid).Counted := by
  refine ⟨?_, h.proper.vivify sid⟩
  unfold Connection.vivify
  split
  · exact h.toTallied
  · next hNone =>
      refine h.toTallied.setStream ?_
      rw [holdsAt_of_none (by simpa [stream?] using hNone)]
      simp [Stream.isPeerOpen, Stream.Live]

theorem Counted.modifyStream (h : con.Counted) (sid : Nat) {f : Stream → Stream}
    (hSame : ∀ s : Stream, s.SameState (f s)) : (con.modifyStream sid f).Counted := by
  refine ⟨h.toTallied.modifyStream sid fun s => (hSame s).state, h.proper.modifyStream sid fun s hs => ⟨?_, ?_⟩⟩
  · rw [(hSame s).promised]
    exact hs.promised
  · rw [(hSame s).pending, (hSame s).state]
    exact hs.pending

theorem Counted.clearPromised (h : con.Counted) (sid : Nat) : (con.clearPromised sid).Counted :=
  ⟨h.toTallied.modifyStream sid fun _ => rfl, (@steady_clearPromised True True con sid).proper trivial h.proper⟩

/-! ### States -/

theorem Counted.setPendingState (h : con.Counted) {sid : Nat} (hLive : con.Live sid)
    (pending : Option StreamState) : (con.setPendingState sid pending).Counted := by
  refine ⟨?_, (@steady_setPendingState True True con sid pending fun _ _ _ => hLive).proper trivial h.proper⟩
  unfold Connection.setPendingState
  split
  · exact h.toTallied
  · next s hs =>
      have hSet : (con.setStream sid (s.setPending pending)).Tallied := by
        refine h.toTallied.setStream ?_
        rw [holdsAt_of_lookup hs]
        exact Stream.isPeerOpen_congr rfl
      exact hSet.of_streams rfl rfl rfl rfl rfl

theorem beside_runCallbacks (sid : Nat) (new : StreamState) (cbs : List (StreamState × Callback)) :
    Beside con (con.runCallbacks sid new cbs) := by
  unfold runCallbacks
  induction cbs.filter fun cb => cb.1 = new generalizing con with
  | nil => exact ⟨rfl, rfl, rfl, rfl, rfl, rfl, rfl, rfl, rfl, id⟩
  | cons cb cbs ih =>
      have hCall : Beside con (con.runCallback sid cb.2) := by
        unfold runCallback
        dsimp only
        repeat' split
        all_goals exact ⟨rfl, rfl, rfl, rfl, rfl, rfl, rfl, rfl, rfl, id⟩
      exact hCall.trans ih

theorem countClosed_of_server (hServer : con.type = .server) (sid : Nat) : con.countClosed sid =
    { con with activePeerStreams := con.activePeerStreams - (if sid % 2 = 1 then 1 else 0) } := by
  have hKeep (h : con.activePeerStreams - (if sid % 2 = 1 then 1 else 0) = con.activePeerStreams) :
      con = { con with activePeerStreams := con.activePeerStreams - (if sid % 2 = 1 then 1 else 0) } := by
    rw [h]
  unfold countClosed
  dsimp only
  split
  · next hBoth => rw [if_pos (hBoth.2.mpr hServer)]
  · next hNot =>
      refine hKeep ?_
      by_cases hOdd : sid % 2 = 1
      · have hNone : ¬ 0 < con.activePeerStreams := fun hPos => hNot ⟨hPos, iff_of_true hOdd hServer⟩
        omega
      · rw [if_neg hOdd]
        rfl

/-- A stream that closes is no longer counted. -/
theorem Tallied.close (h : con.Tallied) {sid : Nat} {s : Stream} (hs : con.stream? sid = some s)
    (hLive : s.Live) : Tallied { con.setStream sid (Stream.cleaned { s with state := some .closed }) with
      activePeerStreams := con.activePeerStreams - (if sid % 2 = 1 then 1 else 0) } where
  server := h.server
  even := h.even
  count := by
    have hPut := tally_insert Stream.isPeerOpen con.streams sid (Stream.cleaned { s with state := some .closed })
    have hBefore : s.isPeerOpen sid = decide (sid % 2 = 1) :=
      decide_eq_decide.mpr (and_iff_left hLive)
    have hAfter : Stream.isPeerOpen sid (Stream.cleaned { s with state := some .closed }) = false :=
      decide_eq_false fun hOpen => hOpen.2.2 rfl
    rw [holdsAt_of_lookup hs, hBefore, hAfter] at hPut
    have hSum : openPeerStreams (con.setStream sid (Stream.cleaned { s with state := some .closed })) +
        (if sid % 2 = 1 then 1 else 0) = con.openPeerStreams := by
      simp only [decide_eq_true_eq, Bool.false_eq_true, if_false, Nat.add_zero] at hPut
      exact hPut
    show con.activePeerStreams - _ = openPeerStreams (con.setStream sid _)
    rw [h.count, ← hSum, Nat.add_sub_cancel]
  room := (Nat.sub_le ..).trans h.room

theorem Tallied.setState (h : con.Tallied) {sid : Nat} (hLive : con.Live sid) (new : StreamState) :
    (con.setState sid new).Tallied := by
  unfold Connection.setState
  split
  · exact h
  · next s hs =>
      have hAlive := hLive.stream hs
      have hCalls : Beside (con.setStream sid { s with state := some new })
          ((con.setStream sid { s with state := some new }).runCallbacks sid new s.cb) := beside_runCallbacks ..
      dsimp only
      split
      · next hClosed =>
          subst hClosed
          generalize runCallbacks _ sid .closed s.cb = called at hCalls
          have hStream : (called.countClosed sid).stream? sid = some { s with state := some .closed } := by
            rw [stream?_countClosed, stream?, hCalls.streams]
            exact stream?_setStream_self ..
          rw [modifyStream_of_some hStream, countClosed_of_server (hCalls.type.trans h.server),
            hCalls.activePeerStreams]
          refine (h.close hs hAlive).of_streams hCalls.type ?_ hCalls.lastStream rfl hCalls.settings
          show called.streams.insert sid _ = con.streams.insert sid _
          rw [hCalls.streams]
          exact AList.insert_insert ..
      · next hOpen =>
          have hSet : (con.setStream sid { s with state := some new }).Tallied := by
            refine h.setStream ?_
            rw [holdsAt_of_lookup hs]
            refine decide_eq_decide.mpr (and_congr_right fun _ => iff_of_true ⟨?_, ?_⟩ hAlive)
            · exact Option.some_ne_none new
            · exact fun hEq => hOpen (Option.some.inj hEq)
          exact hSet.of_streams hCalls.type hCalls.streams hCalls.lastStream hCalls.activePeerStreams
            hCalls.settings

theorem Counted.setState (h : con.Counted) {sid : Nat} (hLive : con.Live sid) (new : StreamState) :
    (con.setState sid new).Counted :=
  ⟨h.toTallied.setState hLive new,
    (@steady_setState True True con sid new fun _ _ _ => hLive).proper trivial h.proper⟩

/-! ### New streams -/

theorem holdsAt_of_even {sid : Nat} (hEven : sid % 2 = 0) (streams : AList fun _ : Nat => Stream) :
    holdsAt Stream.isPeerOpen streams sid = false := by
  rw [holdsAt]
  cases streams.lookup sid with
  | none => rfl
  | some s => simp [Stream.isPeerOpen, hEven]

theorem newStreamEntry_proper (con : Connection) : con.newStreamEntry.Proper :=
  ⟨rfl, fun hPending => absurd rfl hPending⟩

theorem Counted.admitted (h : con.Counted) {sid : Nat} (hNew : con.stream? sid = none)
    (hGood : con.badPeerStream sid = false) (hRoom : con.peerStreamsFull = false) : (con.admitted sid).Counted := by
  have hProper : (con.admitted sid).Proper := by
    refine Proper.of_streams (h.proper.setStream (s := { con.newStreamEntry with
      cb := [(.opened, .opened), (.halfClosed, .halfClosed)] }) ?_) rfl
    exact ⟨rfl, fun hPending => absurd rfl hPending⟩
  rw [badPeerStream_eq_false_iff, h.server] at hGood
  have hOdd : sid % 2 = 1 := by
    have hNe := hGood.2.1
    simp only [reduceCtorEq, if_false] at hNe
    omega
  rw [peerStreamsFull_eq_false_iff] at hRoom
  refine ⟨⟨h.server, h.even, ?_, hRoom⟩, hProper⟩
  have hPut := tally_insert Stream.isPeerOpen con.streams sid { con.newStreamEntry with
    cb := [(.opened, .opened), (.halfClosed, .halfClosed)] }
  have hIdle : Stream.isPeerOpen sid { con.newStreamEntry with
      cb := [(.opened, .opened), (.halfClosed, .halfClosed)] } = true := by
    simp [Stream.isPeerOpen, Stream.Live, newStreamEntry, hOdd]
  rw [holdsAt_of_none hNew, hIdle] at hPut
  exact (congrArg (· + 1) h.count).trans hPut.symm

theorem Tallied.even_nextStream (h : con.Tallied) : con.nextStream % 2 = 0 := by
  have hLast := h.even
  unfold nextStream
  generalize (con.stream? _).isSome = found
  cases found <;> simp only [Bool.false_eq_true, if_false, if_true] <;> omega

theorem newStream_of_goaway (hDown : con.goaway = true) : con.newStream = (con, none) := by
  rw [newStream, if_pos hDown]

theorem newStream_of_not_goaway (hUp : con.goaway = false) : con.newStream =
    (setStream { con with lastStream := con.nextStream } con.nextStream con.newStreamEntry,
      some con.nextStream) := by
  rw [newStream, if_neg (by simp [hUp])]
  rfl

/-- The streams the server opens itself are not counted. -/
theorem Counted.newStream (h : con.Counted) : con.newStream.1.Counted := by
  cases hUp : con.goaway with
  | true =>
      rw [newStream_of_goaway hUp]
      exact h
  | false =>
      have hEven := h.even_nextStream
      have hLast : Counted { con with lastStream := con.nextStream } :=
        ⟨⟨h.server, hEven, h.count, h.room⟩, h.proper.of_streams rfl⟩
      rw [newStream_of_not_goaway hUp]
      refine hLast.setStream (newStreamEntry_proper con) ?_
      rw [holdsAt_of_even hEven]
      simp [Stream.isPeerOpen, hEven]

/-! ### All frames -/

theorem lively_counted : Lively fun con con' => con.Counted → con'.Counted where
  refl _ := id
  trans h h' hCounted := h' (h hCounted)
  vivify _ sid h := h.vivify sid
  setError _ code h := h.setError code
  clearPromised _ sid h := h.clearPromised sid
  setState _ hLive new h := h.setState hLive new
  setPendingState _ hLive pending h := h.setPendingState hLive pending

theorem passes_counted : Passes False fun con con' => con.Counted → con'.Counted where
  refl _ := id
  trans h h' hCounted := h' (h hCounted)
  stateMachine _ act type flags sid h := lively_counted.stateMachine h.proper act type flags sid h
  setError _ code h := h.setError code
  vivify _ sid h := h.vivify sid
  modify _ sid _ hSame h := h.modifyStream sid hSame
  beside hBeside h := h.beside hBeside
  push _ frame _ h := h.push frame
  ack _ _ h := h.of_streams rfl rfl rfl rfl rfl
  newPeer _ _ hNew hGood hRoom h := h.admitted (hNew.resolve_left id) hGood hRoom
  promise hFalse := hFalse.elim

/-! ### Pushed streams -/

/-- The promise of a push is kept at once: its PUSH_PROMISE frame ends the block and passes the state
machine; or there is no promise. -/
def PushFits (con : Connection) (sid : Nat) (headers : List Header) : Prop :=
  sid % 2 = 0 ∨ con.goaway = true ∨ con.stream? sid = none ∨
    con.preface = true ∧ con.get sid Stream.pendingState = none ∧
      (headerBlock con headers).length ≤ con.encSetting Setting.maxFrameSize

theorem Counted.sendPpHeaders (h : con.Counted) (sid promisedId : Nat) (headers : List Header) :
    (con.sendPpHeaders sid promisedId headers).Counted :=
  passes_counted.sendPpHeaders (fun _ frame h => h.push frame) con sid promisedId headers h

/-- The promised stream is reserved, and the stream carries no promise any more. -/
theorem stateMachine_pushPromise {sid promised : Nat} {s entry : Stream} (hServer : con.type = .server)
    (hPreface : con.preface = true) (hSid : sid ≠ 0) (hs : con.stream? sid = some s)
    (hPromised : s.promisedSid = some promised) (hPending : s.pendingState = none)
    (hEntry : con.stream? promised = some entry) (hIdle : entry.state = some .idle) :
    con.stateMachine .send .pushPromise Flag.endHeaders sid =
      (con.setState promised .reserved).clearPromised sid := by
  have hEnds : hasFlag Flag.endHeaders Flag.endHeaders = true := by decide
  rw [stateMachine, if_neg (by simp [hSid, hPreface])]
  simp [get_of_some hs, hPromised, vivify_of_some hEntry, get_of_some hEntry, hIdle, hPending, stateStep,
    hServer, hEnds, reserve, streamState]

/-- The frame that keeps a promise, once the promise is made. -/
theorem Counted.reserved (h : con.Counted) {sid promised : Nat} {s entry : Stream} (hSid : sid ≠ 0)
    (hNe : sid ≠ promised) (hs : con.stream? sid = some s) (hEntry : con.stream? promised = some entry)
    (hIdle : entry.state = some .idle) (hPending : s.pendingState = none) {sent : Connection}
    (hPreface : sent.preface = true) (hType : sent.type = (con.setPromised sid promised).type)
    (hStreams : sent.streams = (con.setPromised sid promised).streams)
    (hLast : sent.lastStream = (con.setPromised sid promised).lastStream)
    (hActive : sent.activePeerStreams = (con.setPromised sid promised).activePeerStreams)
    (hSettings : sent.decodeCtx.settings = (con.setPromised sid promised).decodeCtx.settings) :
    (sent.stateMachine .send .pushPromise Flag.endHeaders sid).Counted := by
  have hPromise : (con.setPromised sid promised).Tallied := h.toTallied.modifyStream sid fun _ => rfl
  have hSent : sent.Tallied := hPromise.of_streams hType hStreams hLast hActive hSettings
  have hFound (other : Nat) : sent.stream? other =
      if other = sid then some { s with promisedSid := some promised } else con.stream? other := by
    have hSet := stream?_modifyStream con sid other fun s => { s with promisedSid := some promised }
    rw [hs] at hSet
    rw [stream?, hStreams]
    exact hSet
  have hOwn : sent.stream? sid = some { s with promisedSid := some promised } := by rw [hFound, if_pos rfl]
  have hTarget : sent.stream? promised = some entry := by rw [hFound, if_neg hNe.symm, hEntry]
  have hLive : sent.Live promised := ⟨entry, hTarget, by rw [hIdle]; simp, by rw [hIdle]; simp⟩
  rw [stateMachine_pushPromise hSent.server hPreface hSid hOwn rfl hPending hTarget hIdle]
  refine ⟨(hSent.setState hLive .reserved).modifyStream sid fun _ => rfl, fun other t ht => ?_⟩
  rw [Connection.clearPromised, stream?_modifyStream, stream?_setState_of_ne hNe, hOwn] at ht
  split at ht
  · cases ht
    exact ⟨rfl, (h.proper sid s hs).pending⟩
  · next hOther =>
      by_cases hPromised : other = promised
      · subst hPromised
        rw [stream?_setState hTarget (by decide)] at ht
        cases ht
        exact ⟨(h.proper other entry hEntry).promised, fun _ => ⟨by simp, by simp⟩⟩
      · rw [stream?_setState_of_ne hPromised, hFound, if_neg hOther] at ht
        exact h.proper other t ht

/-- A push that keeps its promise. -/
theorem Counted.sendPromise (h : con.Counted) {sid promised : Nat} {s entry : Stream} (hSid : sid ≠ 0)
    (hNe : sid ≠ promised) (hs : con.stream? sid = some s) (hEntry : con.stream? promised = some entry)
    (hIdle : entry.state = some .idle) (hPreface : con.preface = true) (hPending : s.pendingState = none)
    {headers : List Header} (hFits : (headerBlock con headers).length ≤ con.encSetting Setting.maxFrameSize) :
    ((con.setPromised sid promised).sendPpHeaders sid promised headers).Counted := by
  have hContext : (con.setPromised sid promised).encodeCtx = con.encodeCtx := encodeCtx_modifyStream ..
  have hPreface' : (con.setPromised sid promised).preface = true :=
    (preface_modifyStream ..).trans hPreface
  rw [Connection.sendPpHeaders, encSetting, hContext]
  dsimp only [headerBlock, encSetting] at hFits ⊢
  rw [if_pos hFits]
  refine (passes_counted.free.fragments sid fun _ frame _ h => h.push frame).sendContinuations _ _ _ _ ?_
  exact h.reserved hSid hNe hs hEntry hIdle hPending hPreface' rfl rfl rfl rfl rfl

theorem Counted.serverPush (h : con.Counted) {sid : Nat} {headers : List Header}
    (hFits : con.PushFits sid headers) : (Server.push con sid headers).Counted := by
  have hNew := h.newStream
  unfold Server.push
  by_cases hOdd : sid % 2 = 0
  · rw [if_pos hOdd]
    exact h
  · rw [if_neg hOdd]
    by_cases hDown : con.goaway = true
    · rw [newStream_of_goaway hDown]
      exact ((h.clearPromised sid).sendPpHeaders sid 0 headers).modifyStream sid fun _ => ⟨rfl, rfl, rfl⟩
    · have hNe : sid ≠ con.nextStream := fun hEq => hOdd (hEq ▸ h.even_nextStream)
      rw [newStream_of_not_goaway (by simpa using hDown)] at hNew ⊢
      have hStream : (Connection.setStream { con with lastStream := con.nextStream } con.nextStream
          con.newStreamEntry).stream? sid = con.stream? sid := stream?_setStream_of_ne _ _ hNe
      refine Counted.modifyStream ?_ sid fun _ => ⟨rfl, rfl, rfl⟩
      cases hs : con.stream? sid with
      | none =>
          rw [modifyStream_of_none (hStream.trans hs)]
          exact hNew.sendPpHeaders ..
      | some s =>
          obtain hEven | hGoing | hAbsent | ⟨hPreface, hPending, hSize⟩ := hFits
          · exact absurd hEven hOdd
          · exact absurd hGoing hDown
          · rw [hs] at hAbsent
            cases hAbsent
          · rw [get_of_some hs] at hPending
            exact hNew.sendPromise (fun hZero => hOdd (by rw [hZero])) hNe (hStream.trans hs)
              (stream?_setStream_self ..) rfl hPreface hPending hSize

/-! ### Runs -/

/-- What happens to a server connection: the preface is there, a frame arrives, the application calls
a function of it or pushes a stream, a frame is taken from the queue. -/
inductive ServerEvent where
  | preface
  | recv (ord : HashOrder) (buf : Octets)
  | newStream
  | sendHeaders (sid : Nat) (headers : List Header) (ended : Bool)
  | sendPpHeaders (sid promisedId : Nat) (headers : List Header)
  | sendData (sid : Nat) (chunk : Octets) (ended : Option Bool)
  | sendPing (payload : Octets)
  | ackPing (payload : Octets)
  | push (sid : Nat) (headers : List Header)
  | dequeue

def serve (con : Connection) : ServerEvent → Connection
  | .preface => { con with preface := true }
  | .recv ord buf => (con.frameDecode ord buf).1
  | .newStream => con.newStream.1
  | .sendHeaders sid headers ended => con.sendHeaders sid headers ended
  | .sendPpHeaders sid promisedId headers => con.sendPpHeaders sid promisedId headers
  | .sendData sid chunk ended => con.sendData sid chunk ended
  | .sendPing payload => con.sendPing payload
  | .ackPing payload => con.ackPing payload
  | .push sid headers => Server.push con sid headers
  | .dequeue => con.dequeue

/-- No stream is left with a promise: the client makes none that is accepted, and the server keeps its
own at once. -/
def Unpromised (con : Connection) : ServerEvent → Prop
  | .recv _ buf => ∀ fh payload, con.inTurn buf = some (fh, payload) → ¬ con.Promises fh payload
  | .push sid headers => con.PushFits sid headers
  | _ => True

theorem Counted.serve (h : con.Counted) (event : ServerEvent) (hUnpromised : con.Unpromised event) :
    (con.serve event).Counted := by
  cases event with
  | preface => exact h.of_streams rfl rfl rfl rfl rfl
  | recv ord buf => exact passes_counted.frameDecode ord con buf (.inr hUnpromised) h
  | newStream => exact h.newStream
  | sendHeaders sid headers ended =>
      exact passes_counted.sendHeaders (fun _ frame h => h.push frame) con sid headers ended h
  | sendPpHeaders sid promisedId headers => exact h.sendPpHeaders sid promisedId headers
  | sendData sid chunk ended => exact passes_counted.sendData con sid chunk ended h
  | sendPing payload => exact passes_counted.sendPing con payload h
  | ackPing payload => exact passes_counted.ackPing con payload h
  | push sid headers => exact h.serverPush hUnpromised
  | dequeue => exact h.of_streams rfl rfl rfl rfl rfl

theorem counted_new (given : Settings) : (Server.new given).con.Counted where
  server := rfl
  even := by
    have hLast : (Server.new given).con.lastStream = 2 := rfl
    rw [hLast]
  count := rfl
  room := Nat.zero_le _
  proper := fun sid s hs => by cases hs

/-- A stream the client may open is refused just where it has as many as it may. -/
theorem newPeerStream_refused_iff {sid : Nat} (hGood : con.badPeerStream sid = false) :
    (con.newPeerStream sid).2 = false ↔ con.peerStreamsFull = true := by
  rw [newPeerStream, if_neg (by simp [hGood])]
  cases con.peerStreamsFull <;> simp

end Connection

/-- As long as no stream is left with a promise, the counter is the number of open streams of the
client; they are never too many, and none is refused while there is room. -/
theorem peer_streams_counted {given : Settings} {con : Connection}
    (hRun : Reached Connection.serve Connection.Unpromised (Server.new given).con con) :
    con.activePeerStreams = con.openPeerStreams ∧
      con.openPeerStreams ≤ con.decSetting Setting.maxConcurrentStreams ∧
      ∀ sid, con.badPeerStream sid = false →
        ((con.newPeerStream sid).2 = false ↔
          con.openPeerStreams = con.decSetting Setting.maxConcurrentStreams) := by
  have hCounted : con.Counted :=
    hRun.invariant (Connection.counted_new given) fun _ event h hUnpromised => h.serve event hUnpromised
  have hRoom := hCounted.room
  rw [hCounted.count] at hRoom
  refine ⟨hCounted.count, hRoom, fun sid hGood => ?_⟩
  rw [Connection.newPeerStream_refused_iff hGood, Connection.peerStreamsFull, hCounted.count]
  rw [decide_eq_true_iff]
  exact ⟨fun hFull => hRoom.antisymm hFull, fun hEq => hEq.ge⟩

theorem unpromised_recv {con : Connection} {ord : HashOrder} {buf : Octets}
    (h : (con.inTurn buf).all (fun turn => turn.1.type ≠ .pushPromise) = true) :
    con.Unpromised (.recv ord buf) := by
  intro fh payload hTurn hPromises
  rw [hTurn] at h
  simp [hPromises.1] at h

/-- Settings that allow a client one stream. -/
def oneStream : Settings := List.toAList [⟨Setting.maxConcurrentStreams, 1⟩]

/-- With the one stream open the next is refused. -/
theorem peer_streams_counted_full :
    let con := runEvents Connection.serve (Server.new oneStream).con [.preface, .recv .kept requestFrame]
    con.badPeerStream 3 = false ∧ ((con.newPeerStream 3).2 = false ↔
      con.openPeerStreams = con.decSetting Setting.maxConcurrentStreams) := by
  have hGood : (runEvents Connection.serve (Server.new oneStream).con
      [.preface, .recv .kept requestFrame]).badPeerStream 3 = false := by decide +kernel
  have hMeets : Meets Connection.serve Connection.Unpromised (Server.new oneStream).con
      [.preface, .recv .kept requestFrame] :=
    ⟨trivial, unpromised_recv (by decide +kernel), trivial⟩
  exact ⟨hGood, (peer_streams_counted (Reached.run _ _ .start hMeets)).2.2 3 hGood⟩

/-- On stream 1 stream 3 is promised, with a field that no request has. -/
def promiseFrame : Octets := [0, 0, 5, 5, 4, 0, 0, 0, 1, 0, 0, 0, 3, 0x88]

/-- Stream 1 is answered and closed. The error in the promise closes it again, and the counter goes
down for stream 3, which is open. -/
theorem not_counted_promise :
    let con := runEvents Connection.serve (Server.new oneStream).con [.preface, .recv .kept requestFrame,
      .sendHeaders 1 [(octets ":status", octets "200")] true, .recv .kept promiseFrame]
    con.error = none ∧ con.activePeerStreams = 0 ∧ con.openPeerStreams = 1 := by
  decide +kernel

end PageCamel.Http2

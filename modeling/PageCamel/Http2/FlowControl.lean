import PageCamel.Http2.Windows
import PageCamel.Lib.Runs

/-!
The send windows over whole runs of a server. What the peer has advertised and granted
is read off the frames it sends; what the server has sent is the payload of the DATA
frames it has queued.
-/

namespace PageCamel.Http2
open PageCamel.Lib Connection

/-- The payload of the DATA frames on the streams picked by `p`. -/
def dataOctets (p : Nat → Bool) (frames : List Frame) : Nat :=
  (((dataFrames frames).filter fun f => p f.streamId).map fun f => f.payload.length).sum

theorem dataOctets_append (p : Nat → Bool) (frames frames' : List Frame) :
    dataOctets p (frames ++ frames') = dataOctets p frames + dataOctets p frames' := by
  simp [dataOctets, dataFrames_append]

theorem dataOctets_congr (p : Nat → Bool) {frames frames' : List Frame}
    (h : dataFrames frames = dataFrames frames') : dataOctets p frames = dataOctets p frames' := by
  rw [dataOctets, h, dataOctets]

theorem dataOctets_data (p : Nat → Bool) (flags : UInt8) (sid : Nat) (payload : Octets) :
    dataOctets p [⟨.data, flags, sid, payload⟩] = if p sid then payload.length else 0 := by
  cases h : p sid <;> simp [dataOctets, dataFrames, h]

/-! ### What the peer has said -/

/-- The initial window after a list of settings, as far as the list is valid. -/
def advertise : Option Nat → List (Nat × Nat) → Option Nat
  | advertised, [] => advertised
  | advertised, (key, value) :: settings =>
      match Connection.settingError key value with
      | some _ => advertised
      | none =>
          advertise (if key = Setting.initialWindowSize then some value else advertised) settings

/-- The settings a frame carries. -/
def settingsIn (fh : FrameHeader) (payload : Octets) : List (Nat × Nat) :=
  if fh.type = .settings ∧ fh.stream = 0 ∧ hasFlag fh.flags Flag.ack = false ∧ fh.length % 6 = 0 then
    Connection.settingsPairs (payload.take fh.length)
  else []

/-- The increment a frame carries, with the stream it is for. -/
def incrementIn (fh : FrameHeader) (payload : Octets) : List (Nat × Nat) :=
  if fh.type = .windowUpdate ∧ fh.length = 4 then [(fh.stream, unpack32 payload &&& 0x7FFFFFFF)]
  else []

/-- The frame at the start of the buffer, when it is complete and it is its turn. -/
def Connection.inTurn (con : Connection) (buf : Octets) : Option (FrameHeader × Octets) :=
  let fh := frameHeaderDecode buf
  if buf.length < frameHeaderSize ∨ fh.length > con.decSetting Setting.maxFrameSize ∨
      buf.length < frameHeaderSize + fh.length ∨ con.awaitsOther fh then none
  else some (fh, buf.drop frameHeaderSize)

/-- With no frame in turn nothing is decoded. -/
theorem Connection.frameDecode_idle {con : Connection} {buf : Octets} (hTurn : con.inTurn buf = none)
    (ord : HashOrder) : (con.frameDecode ord buf).1 = con ∨
      ∃ code, (con.frameDecode ord buf).1 = con.setError code := by
  rw [Connection.inTurn] at hTurn
  rw [Connection.frameDecode]
  split
  · exact .inl rfl
  · next hHeader =>
      dsimp only
      split
      · exact .inr ⟨_, rfl⟩
      · next hSize =>
          split
          · exact .inl rfl
          · next hComplete =>
              rw [Connection.frameApply]
              split
              · exact .inr ⟨_, rfl⟩
              · next hOther =>
                  rw [if_neg] at hTurn
                  · cases hTurn
                  · rintro (hEq | hEq | hEq | hEq)
                    · exact hHeader hEq
                    · exact hSize hEq
                    · exact hComplete hEq
                    · exact hOther hEq

/-- The frame in turn is decoded, unless its type is unknown. -/
theorem Connection.frameDecode_inTurn {con : Connection} {buf payload : Octets} {fh : FrameHeader}
    (hTurn : con.inTurn buf = some (fh, payload)) (ord : HashOrder) :
    (∃ code, fh.type = .unknown code) ∧ (con.frameDecode ord buf).1 = con ∨
      con.frameDecode ord buf = con.frameAdmit ord fh payload := by
  rw [Connection.inTurn] at hTurn
  split at hTurn
  · cases hTurn
  · next hFits =>
      simp only [not_or] at hFits
      obtain ⟨hHeader, hSize, hComplete, hOther⟩ := hFits
      simp only [Option.some.injEq, Prod.mk.injEq] at hTurn
      obtain ⟨rfl, rfl⟩ := hTurn
      rw [Connection.frameDecode, if_neg hHeader]
      dsimp only
      rw [if_neg hSize, if_neg hComplete, Connection.frameApply, if_neg hOther]
      split
      · next code hUnknown => exact .inl ⟨⟨code, hUnknown⟩, rfl⟩
      · exact .inr rfl

/-- What `frame_decode` does with the connection. -/
theorem Connection.frameDecode_cases (con : Connection) (ord : HashOrder) (buf : Octets) :
    (con.frameDecode ord buf).1 = con ∨
      (∃ code, (con.frameDecode ord buf).1 = con.setError code) ∨
      ∃ fh payload, con.inTurn buf = some (fh, payload) ∧
        con.frameDecode ord buf = con.frameAdmit ord fh payload := by
  cases hTurn : con.inTurn buf with
  | none => exact (frameDecode_idle hTurn ord).imp_right .inl
  | some turn =>
      exact (frameDecode_inTurn hTurn ord).imp And.right fun hAdmit => .inr ⟨_, _, rfl, hAdmit⟩

/-! ### Runs -/

/-- A server connection, the window it was built with, the frames taken from its queue,
the last initial window its peer has advertised, and the increments by stream. -/
structure Flow where
  con : Connection
  built : Nat
  taken : List Frame := []
  advertised : Option Nat := none
  increments : List (Nat × Nat) := []

namespace Flow

/-- A server with the given settings, once the preface of the client is there. -/
def start (given : Settings) : Flow :=
  let con := { (Server.new given).con with preface := true }
  { con, built := con.initialWindow }

/-- The octets of data sent on the streams picked by `p`. -/
def sent (f : Flow) (p : Nat → Bool) : Nat := dataOctets p (f.taken ++ f.con.queue)

def sentOn (f : Flow) (sid : Nat) : Nat := f.sent fun other => other = sid

/-- The increments granted to a stream, or with 0 to the connection. -/
def granted (f : Flow) (sid : Nat) : Nat :=
  ((f.increments.filter fun i => i.1 = sid).map Prod.snd).sum

end Flow

inductive FlowEvent where
  | recv (ord : HashOrder) (buf : Octets)
  | sendHeaders (sid : Nat) (headers : List Header) (ended : Bool)
  | sendData (sid : Nat) (chunk : Octets) (ended : Option Bool)
  | dequeue

/-- What the peer says with the frame. -/
def Flow.hear (f : Flow) (fh : FrameHeader) (payload : Octets) : Flow :=
  { f with
    advertised := advertise f.advertised (settingsIn fh payload)
    increments := f.increments ++ incrementIn fh payload }

def Flow.update (f : Flow) (con : Connection) : Flow := { f with con }

def Flow.step (f : Flow) : FlowEvent → Flow
  | .recv ord buf =>
      let f' := match f.con.inTurn buf with
        | some (fh, payload) => f.hear fh payload
        | none => f
      f'.update (f.con.frameDecode ord buf).1
  | .sendHeaders sid headers ended => f.update (f.con.sendHeaders sid headers ended)
  | .sendData sid chunk ended => f.update (f.con.sendData sid chunk ended)
  | .dequeue => { f with con := f.con.dequeue, taken := f.taken ++ f.con.queue.take 1 }

/-- The window that streams start with is no larger than what the peer has advertised. -/
def Flow.Ready (f : Flow) : Prop :=
  f.advertised.isSome ∨ f.built ≤ defaultInitialWindowSize

instance (f : Flow) : Decidable f.Ready :=
  inferInstanceAs (Decidable (f.advertised.isSome = true ∨ f.built ≤ defaultInitialWindowSize))

/-- What there is to send when data is handed to `send_data`. -/
def Connection.toSend (con : Connection) (sid : Nat) (chunk : Octets) : Octets :=
  (con.get sid Stream.blockedData).getD [] ++ chunk

/-- Data is sent on streams that exist and are not closed and when the initial window
is the peer's; a call that has nothing to send meets no negative window; and no
PUSH_PROMISE frame is received. -/
def FlowEvent.Orderly (f : Flow) : FlowEvent → Prop
  | .recv _ buf => ∀ fh payload, f.con.inTurn buf = some (fh, payload) → fh.type ≠ .pushPromise
  | .sendData sid chunk _ =>
      if f.con.toSend sid chunk = [] then 0 ≤ (f.con.get sid Stream.fcwSend).getD 0
      else (f.con.stream? sid).isSome ∧ f.con.get sid Stream.state ≠ some .closed ∧ f.Ready
  | _ => True

theorem orderly_recv {f : Flow} {ord : HashOrder} {buf : Octets}
    (h : (f.con.inTurn buf).all (fun turn => turn.1.type ≠ .pushPromise) = true) :
    (FlowEvent.recv ord buf).Orderly f := by
  intro fh payload hTurn
  rw [hTurn] at h
  simpa using h

/-- Where a step adds data to a stream, all the data of the stream is within what the
peer has advertised and granted; all data together always is. -/
structure Flow.WithinWindows (f g : Flow) : Prop where
  stream : ∀ sid, f.sentOn sid < g.sentOn sid →
    g.sentOn sid ≤ g.advertised.getD defaultInitialWindowSize + g.granted sid
  connection : g.sent (fun _ => true) ≤ defaultInitialWindowSize + g.granted 0

/-! ### The invariant -/

namespace Flow

/-- How far data on a stream may go. -/
def limit (f : Flow) (sid : Nat) : Nat := f.con.initialWindow + f.granted sid

structure Inv (f : Flow) : Prop where
  settled : f.con.Settled
  known : ∀ key value code, Connection.settingError key value = some code →
    (f.con.encodeCtx.settings.lookup key).isSome
  initial : f.con.initialWindow = f.advertised.getD f.built
  room : 0 ≤ f.con.fcwSend
  connection : f.con.fcwSend + f.sent (fun _ => true) ≤ defaultInitialWindowSize + f.granted 0
  window : ∀ sid s, f.con.stream? sid = some s → s.state ≠ some .closed →
    s.fcwSend.getD 0 + f.sentOn sid ≤ f.limit sid
  absent : ∀ sid, f.con.stream? sid = none → f.sentOn sid = 0
  waiting : ∀ sid s, f.con.stream? sid = some s → s.blockedData.getD [] ≠ [] → f.Ready

/-- From `f` to `g` data is sent, and only within the limits. -/
structure Pays (f g : Flow) : Prop where
  inv : g.Inv
  ready : f.Ready → g.Ready
  mono : ∀ p, f.sent p ≤ g.sent p
  limit : ∀ sid, f.limit sid ≤ g.limit sid
  grown : ∀ sid, f.sentOn sid < g.sentOn sid → g.Ready ∧ g.sentOn sid ≤ g.limit sid

variable {f g k : Flow}

theorem Inv.pays (h : f.Inv) : Pays f f :=
  ⟨h, id, fun _ => le_refl _, fun _ => le_refl _, fun _ hLt => absurd hLt (lt_irrefl _)⟩

theorem Pays.trans (h : Pays f g) (h' : Pays g k) : Pays f k := by
  refine ⟨h'.inv, fun hs => h'.ready (h.ready hs), fun p => (h.mono p).trans (h'.mono p),
    fun sid => (h.limit sid).trans (h'.limit sid), fun sid hLt => ?_⟩
  by_cases hLater : g.sentOn sid < k.sentOn sid
  · exact h'.grown sid hLater
  · have hSame : k.sentOn sid = g.sentOn sid := le_antisymm (not_lt.mp hLater) (h'.mono _)
    rw [hSame] at hLt ⊢
    obtain ⟨hReady, hLimit⟩ := h.grown sid hLt
    exact ⟨h'.ready hReady, hLimit.trans (h'.limit sid)⟩

theorem sent_calm {con : Connection} (hCalm : f.con.Calm con) (p : Nat → Bool) :
    (f.update con).sent p = f.sent p := by
  rw [sent, sent, dataOctets_append, dataOctets_append]
  exact congrArg _ (dataOctets_congr p hCalm.data)

/-- Steps that move no data. -/
theorem Inv.calm (h : f.Inv) {con : Connection} (hCalm : f.con.Calm con) : Pays f (f.update con) := by
  have hSent := sent_calm hCalm
  have hLimit (sid : Nat) : (f.update con).limit sid = f.limit sid :=
    congrArg (· + f.granted sid) hCalm.initialWindow
  refine ⟨?_, id, fun p => (hSent p).ge, fun sid => (hLimit sid).ge, fun sid hLt => ?_⟩
  · exact
      { settled := hCalm.settled
        known := fun key value code hError => by
          show (con.encodeCtx.settings.lookup key).isSome
          rw [hCalm.settings]
          exact h.known key value code hError
        initial := hCalm.initialWindow.trans h.initial
        room := hCalm.fcwSend ▸ h.room
        connection := by
          rw [hSent]
          exact hCalm.fcwSend ▸ h.connection
        window := by
          intro sid s' hs' hOpen
          rw [sentOn, hSent, hLimit]
          cases hs : f.con.stream? sid with
          | none =>
              have hFresh := (hCalm.made sid s' hs hs').fcwSend
              have hZero : f.sent (fun other => decide (other = sid)) = 0 := h.absent sid hs
              rw [hZero]
              exact (le_of_eq (add_zero _)).trans (hFresh.trans (by simp [limit]))
          | some s =>
              obtain ⟨t, ht, hKept⟩ := hCalm.kept sid s hs
              rw [show con.stream? sid = some s' from hs'] at ht
              cases ht
              rw [hKept.fcwSend]
              exact h.window sid s hs fun hClosed => hOpen (hKept.closed hClosed)
        absent := by
          intro sid hNone
          rw [sentOn, hSent]
          apply h.absent
          cases hs : f.con.stream? sid with
          | none => rfl
          | some s =>
              obtain ⟨t, ht, _⟩ := hCalm.kept sid s hs
              rw [show con.stream? sid = none from hNone] at ht
              cases ht
        waiting := by
          intro sid s' hs' hBlocked
          cases hs : f.con.stream? sid with
          | none => exact absurd (hCalm.made sid s' hs hs').blocked hBlocked
          | some s =>
              obtain ⟨t, ht, hKept⟩ := hCalm.kept sid s hs
              rw [show con.stream? sid = some s' from hs'] at ht
              cases ht
              exact h.waiting sid s hs (hKept.blocked hBlocked) }
  · exact absurd hLt (not_lt_of_ge (hSent _).le)

end Flow

/-! ### Sending data -/

/-- The send window of a stream moves by `delta`. -/
def shift (delta : Int) (s : Stream) : Stream :=
  { s with fcwSend := some (s.fcwSend.getD 0 + delta) }

theorem stream?_addStreamFcwSend (con : Connection) (sid other : Nat) (delta : Int) :
    (con.addStreamFcwSend sid delta).stream? other =
      if other = sid then (con.stream? sid).map (shift delta) else con.stream? other :=
  stream?_modifyStream ..

theorem settled_addStreamFcwSend {con : Connection} (h : con.Settled) (sid : Nat) (delta : Int) :
    (con.addStreamFcwSend sid delta).Settled := by
  intro other s hs
  rw [stream?_addStreamFcwSend] at hs
  split at hs
  · obtain ⟨t, ht, rfl⟩ := Option.map_eq_some_iff.mp hs
    exact ⟨(h sid t ht).promised, (h sid t ht).pending, (h sid t ht).blocked⟩
  · exact h other s hs

/-- The connection after it has queued `payload` on the stream and paid for it. -/
def Connection.paid (con : Connection) (flags : UInt8) (sid : Nat) (payload : Octets) : Connection :=
  ((con.addFcwSend (-payload.length)).addStreamFcwSend sid (-payload.length)).push
    ⟨.data, flags, sid, payload⟩

namespace Flow

variable {f g k : Flow}

theorem sent_paid (f : Flow) (flags : UInt8) (sid : Nat) (payload : Octets) (p : Nat → Bool) :
    (f.update (f.con.paid flags sid payload)).sent p =
      f.sent p + if p sid then payload.length else 0 := by
  have hQueue : (f.con.paid flags sid payload).queue =
      f.con.queue ++ [⟨.data, flags, sid, payload⟩] := by
    rw [Connection.paid, Connection.push, Connection.addStreamFcwSend, queue_modifyStream]
    rfl
  show dataOctets p (f.taken ++ (f.con.paid flags sid payload).queue) = _
  rw [hQueue, ← List.append_assoc, dataOctets_append, dataOctets_data]
  rfl

theorem Inv.paid (h : f.Inv) (flags : UInt8) (sid : Nat) {payload : Octets}
    (hRoom : (payload.length : Int) ≤ f.con.fcwSend)
    (hStream : payload ≠ [] → ∃ s, f.con.stream? sid = some s ∧ s.state ≠ some .closed ∧
      (payload.length : Int) ≤ s.fcwSend.getD 0 ∧ f.Ready) :
    Pays f (f.update (f.con.paid flags sid payload)) := by
  have hOn (other : Nat) : (f.update (f.con.paid flags sid payload)).sentOn other =
      f.sentOn other + if sid = other then payload.length else 0 := by
    rw [sentOn, sent_paid]
    simp [sentOn]
  have hStreams (other : Nat) : (f.con.paid flags sid payload).stream? other =
      if other = sid then (f.con.stream? sid).map (shift (-payload.length))
      else f.con.stream? other :=
    stream?_addStreamFcwSend ..
  have hContext : (f.con.paid flags sid payload).encodeCtx = f.con.encodeCtx := by
    rw [Connection.paid, Connection.push, Connection.addStreamFcwSend, encodeCtx_modifyStream]
    rfl
  have hWindow : (f.con.paid flags sid payload).initialWindow = f.con.initialWindow := by
    rw [Connection.initialWindow, Connection.encSetting, hContext]
    rfl
  have hSend : (f.con.paid flags sid payload).fcwSend = f.con.fcwSend - payload.length := by
    rw [Connection.paid, Connection.push, Connection.addStreamFcwSend, fcwSend_modifyStream]
    rfl
  have hLimit (other : Nat) : (f.update (f.con.paid flags sid payload)).limit other =
      f.limit other :=
    congrArg (· + f.granted other) hWindow
  refine ⟨?_, id, fun p => ?_, fun other => (hLimit other).ge, fun other hLt => ?_⟩
  · exact
      { settled := settled_addStreamFcwSend
          (show (f.con.addFcwSend (-payload.length)).Settled from h.settled) sid (-payload.length)
        known := fun key value code hError => by
          show ((f.con.paid flags sid payload).encodeCtx.settings.lookup key).isSome
          rw [hContext]
          exact h.known key value code hError
        initial := hWindow.trans h.initial
        room := by
          show 0 ≤ (f.con.paid flags sid payload).fcwSend
          rw [hSend]
          omega
        connection := by
          have hBefore := h.connection
          rw [sent_paid]
          show (f.con.paid flags sid payload).fcwSend + _ ≤ _ + (f.granted 0 : Int)
          rw [hSend]
          simp only [if_true]
          push_cast
          omega
        window := by
          intro other s hs hOpen
          rw [hOn, hLimit]
          have hs : (f.con.paid flags sid payload).stream? other = some s := hs
          rw [hStreams] at hs
          split at hs
          · next hEq =>
              subst hEq
              obtain ⟨t, ht, rfl⟩ := Option.map_eq_some_iff.mp hs
              have hBefore := h.window other t ht hOpen
              simp only [shift, Option.getD_some, if_true]
              push_cast
              omega
          · next hNe =>
              rw [if_neg fun hEq => hNe hEq.symm]
              exact h.window other s hs hOpen
        absent := by
          intro other hNone
          have hNone : (f.con.paid flags sid payload).stream? other = none := hNone
          rw [hStreams] at hNone
          rw [hOn]
          split at hNone
          · next hEq =>
              subst hEq
              have hNone := Option.map_eq_none_iff.mp hNone
              have hEmpty : payload = [] := by
                by_contra hNonempty
                obtain ⟨s, hs, _⟩ := hStream hNonempty
                rw [hNone] at hs
                cases hs
              rw [h.absent other hNone, hEmpty]
              simp
          · next hNe =>
              rw [if_neg fun hEq => hNe hEq.symm, h.absent other hNone]
        waiting := by
          intro other s hs hBlocked
          have hs : (f.con.paid flags sid payload).stream? other = some s := hs
          rw [hStreams] at hs
          split at hs
          · obtain ⟨t, ht, rfl⟩ := Option.map_eq_some_iff.mp hs
            exact h.waiting sid t ht hBlocked
          · exact h.waiting other s hs hBlocked }
  · rw [sent_paid]
    exact Nat.le_add_right ..
  · rw [hOn] at hLt ⊢
    rw [hLimit]
    split at hLt
    · next hEq =>
        subst hEq
        have hNonempty : payload ≠ [] := by
          rintro rfl
          exact absurd hLt (by simp)
        obtain ⟨s, hs, hOpen, hFits, hReady⟩ := hStream hNonempty
        have hBefore := h.window sid s hs hOpen
        rw [if_pos rfl]
        exact ⟨hReady, by omega⟩
    · exact absurd hLt (lt_irrefl _)

end Flow

/-- A DATA frame without END_STREAM leaves the state of its stream alone. -/
theorem Connection.stream?_stateMachine_data {con : Connection} (h : con.Settled) {sid : Nat}
    (hStream : (con.stream? sid).isSome) :
    (con.stateMachine .send .data 0 sid).stream? sid = con.stream? sid := by
  have hNoFlag : hasFlag 0 Flag.endStream = false := by decide
  obtain ⟨s, hs⟩ := Option.isSome_iff_exists.mp hStream
  unfold Connection.stateMachine
  split
  · rfl
  · rw [h.promised sid]
    dsimp only [Option.getD_none]
    simp only [vivify_of_some hs]
    split
    · rfl
    · split
      · exact stream?_setError ..
      · cases con.get sid Stream.state with
        | none => exact stream?_setError ..
        | some state =>
            cases state with
            | idle | opened => simp [Connection.stateStep, hNoFlag]
            | reserved | halfClosed | closed =>
                simp only [Connection.stateStep, hNoFlag]
                simp
                split <;> simp

/-- What data on its way to a stream asks for: a stream that is open and a peer that has
been heard, or without data a window that is not negative. -/
def Flow.Sendable (f : Flow) (sid : Nat) (data : Octets) : Prop :=
  if data = [] then 0 ≤ (f.con.get sid Stream.fcwSend).getD 0
  else (f.con.stream? sid).isSome ∧ f.con.get sid Stream.state ≠ some .closed ∧ f.Ready

/-- The size of a frame fits the data and both windows. -/
theorem Flow.Inv.sendSize {f : Flow} (h : f.Inv) {sid : Nat} {data : Octets}
    (hSendable : f.Sendable sid data)
    (hGoes : ¬ (data.length ≠ 0 ∧ f.con.sendSize sid data.length ≤ 0)) :
    ∃ n : Nat, f.con.sendSize sid data.length = n ∧ n ≤ data.length ∧ (n : Int) ≤ f.con.fcwSend ∧
      ∀ s, f.con.stream? sid = some s → (n : Int) ≤ s.fcwSend.getD 0 := by
  have hRoom := h.room
  have hPositive : 0 ≤ f.con.sendSize sid data.length := by
    by_cases hEmpty : data = []
    · rw [Flow.Sendable, if_pos hEmpty] at hSendable
      rw [Connection.sendSize]
      cases hs : f.con.stream? sid with
      | none => dsimp only; omega
      | some s =>
          rw [get_of_some hs] at hSendable
          dsimp only
          omega
    · have hLength : data.length ≠ 0 := fun hZero => hEmpty (List.eq_nil_of_length_eq_zero hZero)
      by_contra hNegative
      exact hGoes ⟨hLength, by omega⟩
  obtain ⟨n, hSize⟩ := Int.eq_ofNat_of_zero_le hPositive
  refine ⟨n, hSize, ?_⟩
  rw [Connection.sendSize] at hSize
  cases hs : f.con.stream? sid with
  | none =>
      rw [hs] at hSize
      dsimp only at hSize
      exact ⟨by omega, by omega, fun s hEq => by cases hEq⟩
  | some s =>
      rw [hs] at hSize
      dsimp only at hSize
      refine ⟨by omega, by omega, fun t hEq => ?_⟩
      cases hEq
      omega

/-- The loop of `send_data`. -/
theorem Flow.Inv.sendDataLoop (sid : Nat) (ended : Bool) (fuel : Nat) :
    ∀ {f : Flow} (data : Octets), f.Inv → f.Sendable sid data →
      let r := Connection.sendDataLoop sid ended fuel f.con data
      Flow.Pays f (f.update r.1) ∧ (r.2 ≠ [] → (f.update r.1).Sendable sid r.2) := by
  induction fuel with
  | zero => exact fun data h hSendable => ⟨h.pays, fun _ => hSendable⟩
  | succ fuel ih =>
      intro f data h hSendable
      rw [Connection.sendDataLoop]
      dsimp only
      split
      · exact ⟨h.pays, fun _ => hSendable⟩
      · next hGoes =>
          obtain ⟨n, hSize, hLength, hRoom, hWindow⟩ := h.sendSize hSendable hGoes
          rw [hSize, Int.toNat_natCast]
          have hTake : (data.take n).length = n := List.length_take_of_le hLength
          -- the stream carries data, or the frame is empty
          have hStream : data.take n ≠ [] → ∃ s, f.con.stream? sid = some s ∧
              s.state ≠ some .closed ∧ ((data.take n).length : Int) ≤ s.fcwSend.getD 0 ∧ f.Ready := by
            intro hNonempty
            have hData : data ≠ [] := by
              rintro rfl
              exact hNonempty List.take_nil
            rw [Flow.Sendable, if_neg hData] at hSendable
            obtain ⟨hSome, hOpen, hReady⟩ := hSendable
            obtain ⟨s, hs⟩ := Option.isSome_iff_exists.mp hSome
            rw [get_of_some hs] at hOpen
            exact ⟨s, hs, hOpen, by rw [hTake]; exact hWindow s hs, hReady⟩
          generalize hFlags : (if ended = true ∧ (data.length : Int) = (n : Int) then Flag.endStream
            else 0) = flags
          have hPaid := h.paid flags sid (by rw [hTake]; exact hRoom) hStream
          have hPays : Flow.Pays f (f.update
              ((f.con.paid flags sid (data.take n)).stateMachine .send .data flags sid)) :=
            hPaid.trans (hPaid.inv.calm
              (calm_stateMachine hPaid.inv.settled .send .data flags sid))
          have hEnqueue : ((f.con.addFcwSend (-(n : Int))).addStreamFcwSend sid (-(n : Int))).enqueue
              (.data (data.take n)) flags sid =
                (f.con.paid flags sid (data.take n)).stateMachine .send .data flags sid := by
            rw [Connection.paid, hTake]
            rfl
          rw [hEnqueue]
          split
          · next hAll =>
              refine ⟨hPays, fun hNonempty => absurd ?_ hNonempty⟩
              rw [List.drop_eq_nil_iff]
              omega
          · next hMore =>
              have hRest : data.drop n ≠ [] := by
                rw [Ne, List.drop_eq_nil_iff]
                omega
              have hData : data ≠ [] := by
                rintro rfl
                exact hRest List.drop_nil
              have hFirst : data.take n ≠ [] := by
                rw [Ne, List.take_eq_nil_iff, not_or]
                refine ⟨fun hZero => hGoes ⟨?_, ?_⟩, hData⟩
                · exact fun hLength => hData (List.eq_nil_of_length_eq_zero hLength)
                · rw [hSize, hZero]
                  rfl
              obtain ⟨s, hs, hOpen, _, hReady⟩ := hStream hFirst
              have hZero : flags = 0 := by
                rw [← hFlags, if_neg fun hBoth => hMore hBoth.2]
              have hPaidStream : (f.con.paid flags sid (data.take n)).stream? sid =
                  some (shift (-(data.take n).length) s) := by
                show ((f.con.addFcwSend _).addStreamFcwSend sid _).stream? sid = _
                rw [stream?_addStreamFcwSend, if_pos rfl, show (f.con.addFcwSend _).stream? sid = _
                  from hs]
                rfl
              have hSame : ((f.con.paid flags sid (data.take n)).stateMachine .send .data flags
                  sid).stream? sid = some (shift (-(data.take n).length) s) := by
                rw [hZero] at hPaidStream ⊢
                rw [stream?_stateMachine_data (hZero ▸ hPaid.inv.settled)
                  (by rw [hPaidStream]; rfl), hPaidStream]
              have hNext := ih (data.drop n) hPays.inv (by
                rw [Flow.Sendable, if_neg hRest]
                exact ⟨Option.isSome_iff_exists.mpr ⟨_, hSame⟩,
                  (get_of_some hSame Stream.state).trans_ne hOpen, hReady⟩)
              exact ⟨hPays.trans hNext.1, hNext.2⟩

/-- What is left over is kept with its stream. -/
theorem Flow.Inv.setBlocked {f : Flow} (h : f.Inv) (sid : Nat) {data : Octets}
    (hSendable : data ≠ [] → f.Sendable sid data) :
    Flow.Pays f (f.update (f.con.modifyStream sid fun s => { s with blockedData := some data })) := by
  by_cases hEmpty : data = []
  · subst hEmpty
    exact h.calm (calm_modifyStream h.settled sid fun s hs =>
      ⟨⟨hs.promised, hs.pending, fun _ => rfl⟩, rfl, id, fun hNe => absurd rfl hNe⟩)
  · have hSendable := hSendable hEmpty
    rw [Flow.Sendable, if_neg hEmpty] at hSendable
    obtain ⟨hSome, hOpen, hReady⟩ := hSendable
    obtain ⟨s, hs⟩ := Option.isSome_iff_exists.mp hSome
    rw [get_of_some hs] at hOpen
    rw [modifyStream_of_some hs]
    have hStream (other : Nat) : (f.con.setStream sid { s with blockedData := some data }).stream? other
        = if other = sid then some { s with blockedData := some data } else f.con.stream? other :=
      stream?_setStream ..
    have hSettled := h.settled sid s hs
    refine ⟨?_, id, fun _ => le_refl _, fun _ => le_refl _, fun _ hLt => absurd hLt (lt_irrefl _)⟩
    exact
      { settled := by
          intro other t ht
          have hNew : (f.con.setStream sid _).stream? other = some t := ht
          rw [hStream] at hNew
          split at hNew
          · cases hNew
            exact ⟨hSettled.promised, hSettled.pending, fun hClosed => absurd hClosed hOpen⟩
          · exact h.settled other t hNew
        known := h.known
        initial := h.initial
        room := h.room
        connection := h.connection
        window := by
          intro other t ht hOpen'
          have hNew : (f.con.setStream sid _).stream? other = some t := ht
          rw [hStream] at hNew
          split at hNew
          · next hEq =>
              subst hEq
              cases hNew
              exact h.window other s hs hOpen
          · exact h.window other t hNew hOpen'
        absent := by
          intro other hNone
          have hNone : (f.con.setStream sid _).stream? other = none := hNone
          rw [hStream] at hNone
          split at hNone
          · cases hNone
          · exact h.absent other hNone
        waiting := by
          intro other t ht hBlocked
          have hNew : (f.con.setStream sid _).stream? other = some t := ht
          rw [hStream] at hNew
          split at hNew
          · exact hReady
          · exact h.waiting other t hNew hBlocked }

/-- `send_data`. -/
theorem Flow.Inv.sendData {f : Flow} (h : f.Inv) (sid : Nat) (chunk : Octets) (ended : Option Bool)
    (hSendable : f.Sendable sid (f.con.toSend sid chunk)) :
    Flow.Pays f (f.update (f.con.sendData sid chunk ended)) := by
  rw [Connection.sendData]
  dsimp only
  rw [Connection.toSend] at hSendable
  generalize (f.con.get sid Stream.blockedData).getD [] ++ chunk = data at hSendable ⊢
  have hEnd : f.con.Calm (if ended.isSome then f.con.modifyStream sid fun s => { s with ended }
      else f.con) := by
    split
    · exact calm_modifyStream_same h.settled sid (fun _ => rfl) (fun _ => rfl)
        (fun _ => rfl) (fun _ => rfl) fun _ => rfl
    · exact h.settled.calm
  have hKept : (f.update (if ended.isSome then f.con.modifyStream sid fun s => { s with ended }
      else f.con)).Sendable sid data := by
    split
    · have hWindow : (f.con.modifyStream sid fun s => { s with ended }).get sid Stream.fcwSend =
          f.con.get sid Stream.fcwSend :=
        get_modifyStream (f := fun s => { s with ended }) (fun _ => rfl) ..
      have hState : (f.con.modifyStream sid fun s => { s with ended }).get sid Stream.state =
          f.con.get sid Stream.state :=
        get_modifyStream (f := fun s => { s with ended }) (fun _ => rfl) ..
      rw [Flow.Sendable, Flow.update]
      dsimp only
      rw [hWindow, isSome_stream?_modifyStream, hState]
      exact hSendable
    · exact hSendable
  generalize (if ended.isSome then f.con.modifyStream sid fun s => { s with ended } else f.con) =
    con at hEnd hKept ⊢
  have hStart := h.calm hEnd
  obtain ⟨hLoop, hLeft⟩ := hStart.inv.sendDataLoop sid ((con.get sid Stream.ended).getD false)
    (data.length + 3) data hKept
  exact (hStart.trans hLoop).trans (hLoop.inv.setBlocked sid hLeft)

theorem Flow.Inv.streamSendBlocked {f : Flow} (h : f.Inv) (sid : Nat) :
    Flow.Pays f (f.update (f.con.streamSendBlocked sid)) := by
  rw [Connection.streamSendBlocked]
  cases hs : f.con.stream? sid with
  | none => exact h.pays
  | some s =>
      dsimp only
      split
      · next hBlocked =>
          refine h.sendData sid [] none ?_
          have hData : f.con.toSend sid [] = s.blockedData.getD [] := by
            rw [Connection.toSend, get_of_some hs, List.append_nil]
          rw [hData, Flow.Sendable, if_neg hBlocked.1, get_of_some hs]
          exact ⟨by rw [hs]; rfl, fun hClosed => hBlocked.1 ((h.settled sid s hs).blocked hClosed),
            h.waiting sid s hs hBlocked.1⟩
      · exact h.pays

theorem Flow.Inv.sendBlocked {f : Flow} (h : f.Inv) (ord : HashOrder) :
    Flow.Pays f (f.update (f.con.sendBlocked ord)) := by
  rw [Connection.sendBlocked]
  generalize ord.order f.con.streams.keys = keys
  induction keys generalizing f with
  | nil => exact h.pays
  | cons sid keys ih =>
      have hFirst := h.streamSendBlocked sid
      exact hFirst.trans (ih hFirst.inv)

/-! ### What the peer grants -/

/-- The connection after an increment. -/
def Connection.granted (con : Connection) (sid n : Nat) : Connection :=
  if sid = 0 then con.addFcwSend n else con.addStreamFcwSend sid n

def Flow.grant (f : Flow) (sid n : Nat) : Flow :=
  { f with con := f.con.granted sid n, increments := f.increments ++ [(sid, n)] }

theorem Flow.granted_append (f : Flow) (sid n other : Nat) :
    Flow.granted { f with increments := f.increments ++ [(sid, n)] } other =
      f.granted other + if sid = other then n else 0 := by
  by_cases hEq : sid = other
  · simp [Flow.granted, hEq]
  · simp [Flow.granted, hEq]

/-- An increment that moves no window. -/
theorem Flow.Inv.credit {f : Flow} (h : f.Inv) (sid n : Nat) :
    f.Pays { f with increments := f.increments ++ [(sid, n)] } := by
  have hGranted (other : Nat) : f.granted other ≤
      Flow.granted { f with increments := f.increments ++ [(sid, n)] } other := by
    rw [Flow.granted_append]
    exact Nat.le_add_right ..
  have hLimit (other : Nat) : f.limit other ≤
      Flow.limit { f with increments := f.increments ++ [(sid, n)] } other :=
    Nat.add_le_add_left (hGranted other) _
  refine ⟨?_, id, fun _ => le_refl _, hLimit, fun _ hLt => absurd hLt (lt_irrefl _)⟩
  exact
    { settled := h.settled
      known := h.known
      initial := h.initial
      room := h.room
      connection := h.connection.trans (by exact_mod_cast Nat.add_le_add_left (hGranted 0) _)
      window := fun other s hs hOpen =>
        (h.window other s hs hOpen).trans (by exact_mod_cast hLimit other)
      absent := h.absent
      waiting := h.waiting }

/-- An increment moves the window of the connection or of a stream. -/
theorem Flow.Inv.grant {f : Flow} (h : f.Inv) (sid n : Nat) : Flow.Pays f (f.grant sid n) := by
  have hGranted (other : Nat) : (f.grant sid n).granted other =
      f.granted other + if sid = other then n else 0 := f.granted_append sid n other
  have hContext : (f.con.granted sid n).encodeCtx = f.con.encodeCtx := by
    rw [Connection.granted]
    split
    · rfl
    · exact encodeCtx_modifyStream ..
  have hQueue : (f.con.granted sid n).queue = f.con.queue := by
    rw [Connection.granted]
    split
    · rfl
    · exact queue_modifyStream ..
  have hWindow : (f.con.granted sid n).initialWindow = f.con.initialWindow := by
    rw [Connection.initialWindow, Connection.encSetting, hContext]
    rfl
  have hSend : (f.con.granted sid n).fcwSend = f.con.fcwSend + if sid = 0 then (n : Int) else 0 := by
    rw [Connection.granted]
    split
    · rfl
    · rw [Connection.addStreamFcwSend, fcwSend_modifyStream, add_zero]
  have hStream (other : Nat) : (f.con.granted sid n).stream? other =
      if sid ≠ 0 ∧ other = sid then (f.con.stream? sid).map (shift n) else f.con.stream? other := by
    rw [Connection.granted]
    split
    · next hZero => rw [if_neg fun hBoth => hBoth.1 hZero]; rfl
    · next hNonzero =>
        rw [stream?_addStreamFcwSend]
        simp [hNonzero]
  have hSent (p : Nat → Bool) : (f.grant sid n).sent p = f.sent p := by
    show dataOctets p (f.taken ++ (f.con.granted sid n).queue) = _
    rw [hQueue]
    rfl
  have hLimit (other : Nat) : (f.grant sid n).limit other =
      f.limit other + if sid = other then n else 0 := by
    show (f.con.granted sid n).initialWindow + (f.grant sid n).granted other = _
    rw [hWindow, hGranted, Flow.limit, Nat.add_assoc]
  refine ⟨?_, id, fun p => (hSent p).ge, fun other => ?_, fun other hLt => ?_⟩
  · exact
      { settled := by
          show (f.con.granted sid n).Settled
          rw [Connection.granted]
          split
          · exact h.settled
          · exact settled_addStreamFcwSend h.settled sid n
        known := fun key value code hError => by
          show ((f.con.granted sid n).encodeCtx.settings.lookup key).isSome
          rw [hContext]
          exact h.known key value code hError
        initial := hWindow.trans h.initial
        room := by
          have hBefore := h.room
          show 0 ≤ (f.con.granted sid n).fcwSend
          rw [hSend]
          split <;> omega
        connection := by
          have hBefore := h.connection
          rw [hSent, hGranted]
          show (f.con.granted sid n).fcwSend + _ ≤ _
          rw [hSend]
          split <;> push_cast <;> omega
        window := by
          intro other s hs hOpen
          have hNew : (f.con.granted sid n).stream? other = some s := hs
          rw [Flow.sentOn, hSent, hLimit]
          rw [hStream] at hNew
          split at hNew
          · next hEq =>
              obtain ⟨-, rfl⟩ := hEq
              obtain ⟨t, ht, rfl⟩ := Option.map_eq_some_iff.mp hNew
              have hBefore := h.window other t ht hOpen
              rw [Flow.sentOn] at hBefore
              simp only [shift, Option.getD_some, if_true]
              push_cast
              omega
          · have hBefore := h.window other s hNew hOpen
            rw [Flow.sentOn] at hBefore
            push_cast
            split <;> omega
        absent := by
          intro other hNone
          have hNew : (f.con.granted sid n).stream? other = none := hNone
          rw [Flow.sentOn, hSent]
          rw [hStream] at hNew
          split at hNew
          · next hEq =>
              obtain ⟨-, rfl⟩ := hEq
              exact h.absent other (Option.map_eq_none_iff.mp hNew)
          · exact h.absent other hNew
        waiting := by
          intro other s hs hBlocked
          have hNew : (f.con.granted sid n).stream? other = some s := hs
          rw [hStream] at hNew
          split at hNew
          · obtain ⟨t, ht, rfl⟩ := Option.map_eq_some_iff.mp hNew
            exact h.waiting sid t ht hBlocked
          · exact h.waiting other s hNew hBlocked }
  · rw [hLimit]
    exact Nat.le_add_right ..
  · exact absurd hLt (not_lt_of_ge (hSent _).le)

/-! ### What the peer advertises -/

/-- The streams that are not closed move by `delta`. -/
def shiftOpen (delta : Int) (s : Stream) : Stream :=
  if s.state = some .closed then s else shift delta s

/-- The fold of `fcw_initial_change` over some of the keys. -/
theorem stream?_shiftAll (delta : Int) (keys : List Nat) :
    ∀ (con : Connection), keys.Nodup → ∀ sid,
      (keys.foldl (fun con sid =>
        if con.get sid Stream.state = some .closed then con else con.addStreamFcwSend sid delta)
          con).stream? sid =
        if sid ∈ keys then (con.stream? sid).map (shiftOpen delta) else con.stream? sid := by
  induction keys with
  | nil => exact fun con _ sid => rfl
  | cons key keys ih =>
      intro con hNodup sid
      obtain ⟨hKey, hKeys⟩ := List.nodup_cons.mp hNodup
      have hFirst (other : Nat) : (if con.get key Stream.state = some .closed then con
          else con.addStreamFcwSend key delta).stream? other =
            if other = key then (con.stream? key).map (shiftOpen delta) else con.stream? other := by
        cases hs : con.stream? key with
        | none =>
            rw [get_of_none hs, if_neg (by simp), stream?_addStreamFcwSend, hs]
            rfl
        | some s =>
            rw [get_of_some hs]
            by_cases hClosed : s.state = some .closed
            · rw [if_pos hClosed]
              split
              · next hEq => rw [hEq, hs, Option.map_some, shiftOpen, if_pos hClosed]
              · rfl
            · rw [if_neg hClosed, stream?_addStreamFcwSend, hs, Option.map_some, Option.map_some,
                shiftOpen, if_neg hClosed]
      rw [List.foldl_cons, ih _ hKeys sid, hFirst]
      by_cases hEq : sid = key
      · subst hEq
        rw [if_neg hKey, if_pos rfl, if_pos (List.mem_cons_self ..)]
      · rw [if_neg hEq]
        simp only [List.mem_cons, hEq, false_or]

theorem stream?_fcwInitialChange (con : Connection) (size sid : Nat) :
    (con.fcwInitialChange size).stream? sid =
      (con.stream? sid).map (shiftOpen ((size : Int) - con.initialWindow)) := by
  rw [Connection.fcwInitialChange]
  rw [stream?_shiftAll _ _ con con.streams.keys_nodup]
  split
  · rfl
  · next hKey =>
      have hNone : con.stream? sid = none := AList.lookup_eq_none.mpr fun hMem => hKey hMem
      rw [hNone]
      rfl

/-- `fcw_initial_change` touches nothing but windows. -/
theorem fcwInitialChange_streams (con : Connection) (size : Nat) :
    ∃ streams, con.fcwInitialChange size = { con with streams } := by
  rw [Connection.fcwInitialChange]
  generalize (size : Int) - (con.encSetting Setting.initialWindowSize : Int) = delta
  generalize con.streams.keys = keys
  induction keys generalizing con with
  | nil => exact ⟨con.streams, rfl⟩
  | cons key keys ih =>
      rw [List.foldl_cons]
      split
      · exact ih con
      · obtain ⟨streams, hRest⟩ := ih (con.addStreamFcwSend key delta)
        refine ⟨streams, hRest.trans ?_⟩
        rw [Connection.addStreamFcwSend, Connection.modifyStream]
        split <;> rfl

theorem fcwInitialChange_same (con : Connection) (size : Nat) :
    (con.fcwInitialChange size).queue = con.queue ∧
      (con.fcwInitialChange size).encodeCtx = con.encodeCtx ∧
      (con.fcwInitialChange size).fcwSend = con.fcwSend := by
  obtain ⟨streams, hChange⟩ := fcwInitialChange_streams con size
  rw [hChange]
  exact ⟨rfl, rfl, rfl⟩

/-- The invariant holds again, and no data has been sent. -/
structure Flow.Still (f g : Flow) : Prop where
  inv : g.Inv
  ready : f.Ready → g.Ready
  sent : ∀ p, g.sent p = f.sent p

/-- `φ` moves the window of a stream that is not closed by `delta`. -/
structure Shifts (φ : Stream → Stream) (delta : Int) : Prop where
  settled : ∀ s : Stream, s.Settled → (φ s).Settled
  state : ∀ s, (φ s).state = s.state
  blocked : ∀ s, (φ s).blockedData = s.blockedData
  fcwSend : ∀ s, s.state ≠ some .closed → (φ s).fcwSend.getD 0 = s.fcwSend.getD 0 + delta

theorem shifts_id : Shifts id 0 :=
  ⟨fun _ hs => hs, fun _ => rfl, fun _ => rfl, fun _ _ => (add_zero _).symm⟩

theorem shifts_shiftOpen (delta : Int) : Shifts (shiftOpen delta) delta := by
  refine ⟨fun s hs => ?_, fun s => ?_, fun s => ?_, fun s hOpen => ?_⟩
  · unfold shiftOpen
    split
    · exact hs
    · exact ⟨hs.promised, hs.pending, hs.blocked⟩
  · unfold shiftOpen
    split <;> rfl
  · unfold shiftOpen
    split <;> rfl
  · rw [shiftOpen, if_neg hOpen]
    rfl

/-- The initial window and all windows of open streams move together. -/
theorem Flow.Inv.shift {f : Flow} (h : f.Inv) {con : Connection} {advertised : Option Nat}
    {φ : Stream → Stream} {delta : Int} (hShifts : Shifts φ delta)
    (hStream : ∀ sid, con.stream? sid = (f.con.stream? sid).map φ)
    (hQueue : con.queue = f.con.queue) (hSend : con.fcwSend = f.con.fcwSend)
    (hKnown : ∀ key, (f.con.encodeCtx.settings.lookup key).isSome →
      (con.encodeCtx.settings.lookup key).isSome)
    (hWindow : (con.initialWindow : Int) = f.con.initialWindow + delta)
    (hInitial : con.initialWindow = advertised.getD f.built)
    (hReady : f.advertised.isSome → advertised.isSome) :
    f.Still { f with con, advertised } := by
  have hSent (p : Nat → Bool) : Flow.sent { f with con, advertised } p = f.sent p := by
    show dataOctets p (f.taken ++ con.queue) = _
    rw [hQueue]
    rfl
  have hStreams (sid : Nat) (s' : Stream) (hs' : con.stream? sid = some s') :
      ∃ s, f.con.stream? sid = some s ∧ s' = φ s := by
    rw [hStream] at hs'
    obtain ⟨s, hs, hEq⟩ := Option.map_eq_some_iff.mp hs'
    exact ⟨s, hs, hEq.symm⟩
  have hStillReady : f.Ready → Flow.Ready { f with con, advertised } := by
    rintro (hSome | hBuilt)
    · exact .inl (hReady hSome)
    · exact .inr hBuilt
  refine ⟨?_, hStillReady, hSent⟩
  exact
    { settled := by
        intro sid s' hs'
        obtain ⟨s, hs, rfl⟩ := hStreams sid s' hs'
        exact hShifts.settled s (h.settled sid s hs)
      known := fun key value code hError => hKnown key (h.known key value code hError)
      initial := hInitial
      room := hSend ▸ h.room
      connection := by
        rw [hSent]
        exact hSend ▸ h.connection
      window := by
        intro sid s' hs' hOpen
        obtain ⟨s, hs, rfl⟩ := hStreams sid s' hs'
        rw [hShifts.state] at hOpen
        have hBefore := h.window sid s hs hOpen
        rw [Flow.sentOn, hSent, hShifts.fcwSend s hOpen]
        rw [Flow.sentOn, Flow.limit] at hBefore
        show _ ≤ ((con.initialWindow + f.granted sid : Nat) : Int)
        push_cast at hBefore ⊢
        omega
      absent := by
        intro sid hNone
        rw [Flow.sentOn, hSent]
        have hNone : con.stream? sid = none := hNone
        rw [hStream] at hNone
        exact h.absent sid (Option.map_eq_none_iff.mp hNone)
      waiting := by
        intro sid s' hs' hBlocked
        obtain ⟨s, hs, rfl⟩ := hStreams sid s' hs'
        rw [hShifts.blocked] at hBlocked
        exact hStillReady (h.waiting sid s hs hBlocked) }

/-- The connection after a valid setting. -/
def Flow.adjust (f : Flow) (con : Connection) (key value : Nat) : Flow :=
  { f with con, advertised := if key = Setting.initialWindowSize then some value else f.advertised }

theorem isSome_lookup_insert {settings : Settings} {key value other : Nat}
    (h : (settings.lookup other).isSome) : ((settings.insert key value).lookup other).isSome := by
  by_cases hEq : other = key
  · subst hEq
    rw [AList.lookup_insert]
    rfl
  · rwa [AList.lookup_insert_ne hEq]

theorem Flow.Inv.applySetting {f : Flow} (h : f.Inv) (key value : Nat) :
    match f.con.applySetting key value with
    | .ok con => Connection.settingError key value = none ∧ f.Still (f.adjust con key value)
    | .error _ => (Connection.settingError key value).isSome := by
  -- the initial window is among the settings that are checked
  have hWindowKnown : (f.con.encodeCtx.settings.lookup Setting.initialWindowSize).isSome :=
    h.known Setting.initialWindowSize (2 ^ 31) .flowControlError (by decide)
  have hSame (hKey : key ≠ Setting.initialWindowSize) (con : Connection)
      (hCon : con = f.con ∨ con = { f.con with
        encodeCtx := { f.con.encodeCtx with
          settings := f.con.encodeCtx.settings.insert key value } }) :
      f.Still (f.adjust con key value) := by
    have hWindow : con.initialWindow = f.con.initialWindow := by
      rcases hCon with rfl | rfl
      · rfl
      · show ((f.con.encodeCtx.settings.insert key value).lookup _).getD 0 = _
        rw [AList.lookup_insert_ne (Ne.symm hKey)]
        rfl
    have hStill : f.Still { f with con, advertised := f.advertised } := by
      refine h.shift shifts_id ?_ ?_ ?_ ?_ ?_ (hWindow.trans h.initial) id
      · rcases hCon with rfl | rfl <;> simp [Connection.stream?]
      · rcases hCon with rfl | rfl <;> rfl
      · rcases hCon with rfl | rfl <;> rfl
      · rcases hCon with rfl | rfl
        · exact fun _ => id
        · exact fun _ => isSome_lookup_insert
      · rw [hWindow, add_zero]
    rw [Flow.adjust, if_neg hKey]
    exact hStill
  rw [Connection.applySetting]
  by_cases hUnknown : (f.con.encodeCtx.settings.lookup key).isNone
  · rw [if_pos hUnknown]
    rw [Option.isNone_iff_eq_none] at hUnknown
    have hKey : key ≠ Setting.initialWindowSize := by
      rintro rfl
      rw [hUnknown] at hWindowKnown
      cases hWindowKnown
    refine ⟨?_, hSame hKey f.con (.inl rfl)⟩
    cases hError : Connection.settingError key value with
    | none => rfl
    | some code =>
        have := h.known key value code hError
        rw [hUnknown] at this
        cases this
  · rw [if_neg hUnknown]
    cases hError : Connection.settingError key value with
    | some code => rfl
    | none =>
        dsimp only
        by_cases hKey : key = Setting.initialWindowSize
        · subst hKey
          rw [if_pos rfl, if_neg (by decide)]
          refine ⟨rfl, ?_⟩
          obtain ⟨hQueue, hContext, hSend⟩ := fcwInitialChange_same f.con value
          have hValue (settings : Settings) :
              Settings.value (settings.insert Setting.initialWindowSize value)
                Setting.initialWindowSize = value := by
            rw [Settings.value, AList.lookup_insert]
            rfl
          rw [Flow.adjust, if_pos rfl]
          refine h.shift (shifts_shiftOpen ((value : Int) - f.con.initialWindow))
            (fun sid => stream?_fcwInitialChange f.con value sid) hQueue hSend (fun other hOther => ?_)
            ?_ (hValue (f.con.fcwInitialChange value).encodeCtx.settings) fun _ => rfl
          · rw [← hContext] at hOther
            exact isSome_lookup_insert hOther
          · show ((Settings.value ((f.con.fcwInitialChange value).encodeCtx.settings.insert
              Setting.initialWindowSize value) Setting.initialWindowSize : Nat) : Int) = _
            rw [hValue]
            omega
        · rw [if_neg hKey]
          by_cases hEnable : key = Setting.enableConnectProtocol
          · rw [if_pos hEnable]
            exact ⟨rfl, hSame hKey f.con (.inl rfl)⟩
          · rw [if_neg hEnable]
            exact ⟨rfl, hSame hKey _ (.inr rfl)⟩

/-- The loop over the settings of a frame. -/
theorem Flow.Inv.applySettings (settings : List (Nat × Nat)) :
    ∀ {f : Flow}, f.Inv → f.Still { f with
      con := (f.con.applySettings settings).1
      advertised := advertise f.advertised settings } := by
  induction settings with
  | nil => exact fun h => ⟨h, id, fun _ => rfl⟩
  | cons setting settings ih =>
      obtain ⟨key, value⟩ := setting
      intro f h
      have hFirst := h.applySetting key value
      rw [Connection.applySettings, advertise]
      cases hApply : f.con.applySetting key value with
      | error code =>
          rw [hApply] at hFirst
          obtain ⟨code', hError⟩ := Option.isSome_iff_exists.mp hFirst
          rw [hError]
          have hCalm := calm_setError h.settled code
          exact ⟨(h.calm hCalm).inv, id, Flow.sent_calm hCalm⟩
      | ok con =>
          rw [hApply] at hFirst
          obtain ⟨hError, hStill⟩ := hFirst
          rw [hError]
          have hRest := ih hStill.inv
          exact ⟨hRest.inv, fun hReady => hRest.ready (hStill.ready hReady),
            fun p => (hRest.sent p).trans (hStill.sent p)⟩

/-! ### Receiving -/

/-- What a frame or a call does that sends data, after what happened without sending any. -/
def Flow.Steps (f g : Flow) : Prop := ∃ mid, f.Still mid ∧ mid.Pays g

theorem Flow.Pays.steps {f g : Flow} (h : f.Inv) (hPays : f.Pays g) : f.Steps g :=
  ⟨f, ⟨h, id, fun _ => rfl⟩, hPays⟩

theorem Flow.Steps.trans {f g k : Flow} (h : f.Steps g) (hPays : g.Pays k) : f.Steps k := by
  obtain ⟨mid, hStill, hFirst⟩ := h
  exact ⟨mid, hStill, hFirst.trans hPays⟩

theorem Flow.Still.steps {f g k : Flow} (h : f.Still g) (hSteps : g.Steps k) : f.Steps k := by
  obtain ⟨mid, hStill, hPays⟩ := hSteps
  exact ⟨mid, ⟨hStill.inv, fun hReady => hStill.ready (h.ready hReady),
    fun p => (hStill.sent p).trans (h.sent p)⟩, hPays⟩

theorem Flow.hear_other (f : Flow) {fh : FrameHeader} {payload : Octets}
    (hSettings : settingsIn fh payload = []) (hIncrement : incrementIn fh payload = []) :
    f.hear fh payload = f := by
  rw [Flow.hear, hSettings, hIncrement, List.append_nil]
  rfl

theorem Flow.Inv.settingsDecode {f : Flow} (h : f.Inv) {fh : FrameHeader}
    (hType : fh.type = .settings) (payload : Octets) :
    f.Steps ((f.hear fh payload).update (f.con.settingsDecode fh payload).1) := by
  have hIncrement : incrementIn fh payload = [] := by
    rw [incrementIn, if_neg fun hBoth => by rw [hType] at hBoth; cases hBoth.1]
  have hNone (hNo : settingsIn fh payload = []) {con : Connection} (hCalm : f.con.Calm con) :
      f.Steps ((f.hear fh payload).update con) := by
    rw [f.hear_other hNo hIncrement]
    exact (h.calm hCalm).steps h
  rw [Connection.settingsDecode]
  by_cases hStream : fh.stream ≠ 0
  · rw [if_pos hStream]
    refine hNone ?_ (calm_setError h.settled _)
    rw [settingsIn, if_neg fun hAll => hStream hAll.2.1]
  · rw [if_neg hStream]
    by_cases hAck : hasFlag fh.flags Flag.ack = true
    · rw [if_pos hAck]
      have hNo : settingsIn fh payload = [] := by
        rw [settingsIn, if_neg fun hAll => by rw [hAck] at hAll; cases hAll.2.2.1]
      split
      · exact hNone hNo (calm_setError h.settled _)
      · exact hNone hNo h.settled.calm
    · rw [if_neg hAck]
      by_cases hEmpty : fh.length = 0
      · rw [if_pos hEmpty]
        refine hNone ?_ (calm_acceptSettings h.settled)
        rw [settingsIn, hEmpty, List.take_zero]
        split <;> rfl
      · rw [if_neg hEmpty]
        by_cases hSix : fh.length % 6 ≠ 0
        · rw [if_pos hSix]
          refine hNone ?_ (calm_setError h.settled _)
          rw [settingsIn, if_neg fun hAll => hSix hAll.2.2.2]
        · rw [if_neg hSix]
          have hSettings : settingsIn fh payload =
              Connection.settingsPairs (payload.take fh.length) := by
            rw [settingsIn, if_pos]
            exact ⟨hType, not_not.mp hStream, by simpa using hAck, not_not.mp hSix⟩
          have hApply := h.applySettings (settingsIn fh payload)
          have hHeard : f.hear fh payload = { f with
              advertised := advertise f.advertised (settingsIn fh payload) } := by
            rw [Flow.hear, hIncrement, List.append_nil]
          rw [hHeard, ← hSettings]
          cases hResult : f.con.applySettings (settingsIn fh payload) with
          | mk con ok =>
              rw [hResult] at hApply
              cases ok with
              | false => exact ⟨_, hApply, hApply.inv.pays⟩
              | true =>
                  exact ⟨_, hApply, hApply.inv.calm (calm_acceptSettings hApply.inv.settled)⟩

theorem Flow.Inv.windowUpdateDecode {f : Flow} (h : f.Inv) (ord : HashOrder) {fh : FrameHeader}
    (hType : fh.type = .windowUpdate) (payload : Octets) :
    f.Pays ((f.hear fh payload).update (f.con.windowUpdateDecode ord fh payload).1) := by
  have hSettings : settingsIn fh payload = [] := by
    rw [settingsIn, if_neg fun hAll => by rw [hType] at hAll; cases hAll.1]
  rw [Connection.windowUpdateDecode]
  by_cases hLength : fh.length ≠ 4
  · rw [if_pos hLength, f.hear_other hSettings (by rw [incrementIn, if_neg fun hAll => hLength hAll.2])]
    exact h.calm (calm_setError h.settled _)
  · rw [if_neg hLength]
    dsimp only
    have hHeard : f.hear fh payload = { f with
        increments := f.increments ++ [(fh.stream, unpack32 payload &&& 0x7FFFFFFF)] } := by
      rw [Flow.hear, hSettings, incrementIn, if_pos ⟨hType, not_not.mp hLength⟩]
      rfl
    rw [hHeard]
    generalize unpack32 payload &&& 0x7FFFFFFF = n
    have hCredit := h.credit fh.stream n
    have hGrant := h.grant fh.stream n
    by_cases hZero : n = 0
    · rw [if_pos hZero]
      exact hCredit.trans (hCredit.inv.calm (calm_setError h.settled _))
    · rw [if_neg hZero]
      by_cases hStream : fh.stream = 0
      · rw [if_pos hStream]
        have hCon : f.con.granted fh.stream n = f.con.addFcwSend n := if_pos hStream
        rw [← hCon]
        refine hGrant.trans ?_
        dsimp only
        split
        · exact hGrant.inv.calm (calm_setError hGrant.inv.settled _)
        · exact hGrant.inv.sendBlocked ord
      · rw [if_neg hStream]
        have hCon : f.con.granted fh.stream n = f.con.addStreamFcwSend fh.stream n := if_neg hStream
        cases hs : f.con.stream? fh.stream with
        | none => exact hCredit
        | some s =>
            dsimp only
            rw [← hCon]
            refine hGrant.trans ?_
            split
            · exact hGrant.inv.calm (calm_streamError hGrant.inv.settled ..)
            · exact hGrant.inv.streamSendBlocked fh.stream

/-- The payload of any frame but PUSH_PROMISE. -/
theorem Flow.Inv.payloadDecode {f : Flow} (h : f.Inv) (ord : HashOrder) {fh : FrameHeader}
    (hType : fh.type ≠ .pushPromise) (payload : Octets) :
    f.Steps ((f.hear fh payload).update (f.con.payloadDecode ord fh payload).1) := by
  by_cases hSettings : fh.type = .settings
  · rw [Connection.payloadDecode, hSettings]
    exact h.settingsDecode hSettings payload
  · by_cases hUpdate : fh.type = .windowUpdate
    · rw [Connection.payloadDecode, hUpdate]
      exact (h.windowUpdateDecode ord hUpdate payload).steps h
    · have hNo : settingsIn fh payload = [] := by
        rw [settingsIn, if_neg fun hAll => hSettings hAll.1]
      have hNoIncrement : incrementIn fh payload = [] := by
        rw [incrementIn, if_neg fun hAll => hUpdate hAll.1]
      rw [f.hear_other hNo hNoIncrement]
      have hStays : ¬ Connection.MovesData fh.type := by
        rintro (hEq | hEq | hEq)
        · exact hSettings hEq
        · exact hUpdate hEq
        · exact hType hEq
      exact (h.calm (calm_payloadDecode h.settled ord payload hStays)).steps h

theorem Flow.Inv.frameReceive {f : Flow} (h : f.Inv) (ord : HashOrder) {fh : FrameHeader}
    (hType : fh.type ≠ .pushPromise) (payload : Octets) :
    f.Steps ((f.hear fh payload).update (f.con.frameReceive ord fh payload).1) := by
  have hDecode := h.payloadDecode ord hType payload
  rw [Connection.frameReceive]
  cases hResult : f.con.payloadDecode ord fh payload with
  | mk con taken =>
      rw [hResult] at hDecode
      cases taken with
      | none => exact hDecode
      | some n =>
          refine hDecode.trans ?_
          obtain ⟨mid, _, hPays⟩ := hDecode
          exact hPays.inv.calm (calm_stateMachine hPays.inv.settled ..)

/-- Hearing a frame for a stream without decoding it. -/
theorem Flow.Inv.hear {f : Flow} (h : f.Inv) {fh : FrameHeader} (hStream : fh.stream ≠ 0)
    (payload : Octets) : f.Pays (f.hear fh payload) := by
  have hSettings : settingsIn fh payload = [] := by
    rw [settingsIn, if_neg fun hAll => hStream hAll.2.1]
  by_cases hIncrement : fh.type = .windowUpdate ∧ fh.length = 4
  · rw [Flow.hear, hSettings, incrementIn, if_pos hIncrement]
    exact h.credit ..
  · rw [f.hear_other hSettings (if_neg hIncrement)]
    exact h.pays

theorem Flow.Inv.frameAdmit {f : Flow} (h : f.Inv) (ord : HashOrder) {fh : FrameHeader}
    (hType : fh.type ≠ .pushPromise) (payload : Octets) :
    f.Steps ((f.hear fh payload).update (f.con.frameAdmit ord fh payload).1) := by
  rw [Connection.frameAdmit]
  split
  · next hNew =>
      have hNone : f.con.stream? fh.stream = none := by simpa using hNew.2
      have hCalm := calm_newPeerStream h.settled hNone
      have hPays := h.calm hCalm
      have hStill : f.Still (f.update (f.con.newPeerStream fh.stream).1) :=
        ⟨hPays.inv, id, Flow.sent_calm hCalm⟩
      split
      · next con hResult =>
          rw [hResult] at hStill
          exact hStill.steps (hStill.inv.frameReceive ord hType payload)
      · next con hResult =>
          rw [hResult] at hStill
          exact hStill.steps ((hStill.inv.hear hNew.1 payload).steps hStill.inv)
  · exact h.frameReceive ord hType payload

/-- What a frame that arrives does. -/
theorem Flow.recv_cases (f : Flow) (ord : HashOrder) (buf : Octets) :
    f.step (.recv ord buf) = f.update f.con ∨
      (∃ code, f.step (.recv ord buf) = f.update (f.con.setError code)) ∨
      ∃ fh payload, f.con.inTurn buf = some (fh, payload) ∧
        f.step (.recv ord buf) = (f.hear fh payload).update (f.con.frameAdmit ord fh payload).1 := by
  rw [Flow.step]
  cases hTurn : f.con.inTurn buf with
  | none =>
      dsimp only
      rcases frameDecode_idle hTurn ord with hStays | ⟨code, hError⟩
      · exact .inl (by rw [hStays])
      · exact .inr (.inl ⟨code, by rw [hError]⟩)
  | some turn =>
      obtain ⟨fh, payload⟩ := turn
      dsimp only
      rcases frameDecode_inTurn hTurn ord with ⟨⟨code, hUnknown⟩, hStays⟩ | hAdmit
      · left
        rw [hStays, f.hear_other]
        · rw [settingsIn, if_neg fun hAll => by rw [hUnknown] at hAll; cases hAll.1]
        · rw [incrementIn, if_neg fun hAll => by rw [hUnknown] at hAll; cases hAll.1]
      · exact .inr (.inr ⟨fh, payload, rfl, by rw [hAdmit]⟩)

theorem Flow.Inv.recv {f : Flow} (h : f.Inv) (ord : HashOrder) (buf : Octets)
    (hOrderly : (FlowEvent.recv ord buf).Orderly f) : f.Steps (f.step (.recv ord buf)) := by
  rcases f.recv_cases ord buf with hStays | ⟨code, hError⟩ | ⟨fh, payload, hTurn, hAdmit⟩
  · rw [hStays]
    exact h.pays.steps h
  · rw [hError]
    exact (h.calm (calm_setError h.settled code)).steps h
  · rw [hAdmit]
    exact h.frameAdmit ord (hOrderly fh payload hTurn) payload

/-- The frame taken from the queue still counts. -/
theorem Flow.sent_dequeue (f : Flow) (p : Nat → Bool) : (f.step .dequeue).sent p = f.sent p := by
  show dataOctets p ((f.taken ++ f.con.queue.take 1) ++ f.con.queue.tail) = _
  rw [List.append_assoc, ← List.drop_one, List.take_append_drop]
  rfl

theorem Flow.Inv.dequeue {f : Flow} (h : f.Inv) : f.Pays (f.step .dequeue) := by
  have hSent := f.sent_dequeue
  refine ⟨?_, id, fun p => (hSent p).ge, fun _ => le_refl _,
    fun sid hLt => absurd hLt (not_lt_of_ge (hSent _).le)⟩
  exact
    { settled := h.settled
      known := h.known
      initial := h.initial
      room := h.room
      connection := by
        rw [hSent]
        exact h.connection
      window := fun sid s hs hOpen => by
        rw [Flow.sentOn, hSent]
        exact h.window sid s hs hOpen
      absent := fun sid hNone => by
        rw [Flow.sentOn, hSent]
        exact h.absent sid hNone
      waiting := h.waiting }

/-- One event of an orderly run. -/
theorem Flow.Inv.step {f : Flow} (h : f.Inv) (event : FlowEvent) (hOrderly : event.Orderly f) :
    f.Steps (f.step event) := by
  cases event with
  | recv ord buf => exact h.recv ord buf hOrderly
  | sendHeaders sid headers ended =>
      exact (h.calm (calm_sendHeaders h.settled sid headers ended)).steps h
  | sendData sid chunk ended => exact (h.sendData sid chunk ended hOrderly).steps h
  | dequeue => exact h.dequeue.steps h

theorem Flow.Steps.inv {f g : Flow} (h : f.Steps g) : g.Inv := by
  obtain ⟨mid, _, hPays⟩ := h
  exact hPays.inv

theorem Flow.Steps.within {f g : Flow} (h : f.Steps g) : f.WithinWindows g := by
  obtain ⟨mid, hStill, hPays⟩ := h
  refine ⟨fun sid hLt => ?_, ?_⟩
  · rw [Flow.sentOn, ← hStill.sent] at hLt
    obtain ⟨hReady, hLimit⟩ := hPays.grown sid hLt
    refine hLimit.trans (Nat.add_le_add_right ?_ _)
    rw [hPays.inv.initial]
    cases hAdvertised : g.advertised with
    | some value => exact le_refl _
    | none =>
        rcases hReady with hSome | hSmall
        · rw [hAdvertised] at hSome
          cases hSome
        · exact hSmall
  · have hRoom := hPays.inv.room
    have hConnection := hPays.inv.connection
    omega

/-- The settings that are checked have default values. -/
theorem isSome_default_of_settingError {key value : Nat} {code : ErrorCode}
    (h : Connection.settingError key value = some code) : (defaultSettings.lookup key).isSome := by
  unfold Connection.settingError at h
  split at h
  · next hKey => subst hKey; decide
  · split at h
    · next hKey =>
        rcases hKey with rfl | rfl
        · decide
        · decide
    · split at h
      · next hKey => subst hKey; decide
      · cases h

theorem Flow.inv_start (given : Settings) : (Flow.start given).Inv := by
  have hNone (sid : Nat) : (Flow.start given).con.stream? sid = none := rfl
  have hSent (p : Nat → Bool) : (Flow.start given).sent p = 0 := rfl
  exact
    { settled := fun sid s hs => by rw [hNone] at hs; cases hs
      known := by
        intro key value code hError
        have hDefault := isSome_default_of_settingError hError
        rw [AList.lookup_isSome] at hDefault
        show ((Server.settings given ∪ defaultSettings).lookup key).isSome
        rw [AList.lookup_isSome]
        exact AList.mem_union.mpr (.inr hDefault)
      initial := rfl
      room := Int.natCast_nonneg defaultInitialWindowSize
      connection := by
        rw [hSent]
        exact le_refl _
      window := fun sid s hs => by rw [hNone] at hs; cases hs
      absent := fun sid _ => hSent _
      waiting := fun sid s hs => by rw [hNone] at hs; cases hs }

/-- In every orderly run each step keeps the data sent within what the peer has
advertised and granted. -/
theorem flow_within_windows {given : Settings} {f : Flow}
    (hRun : Reached Flow.step (fun f event => event.Orderly f) (Flow.start given) f)
    (event : FlowEvent) (hOrderly : event.Orderly f) : f.WithinWindows (f.step event) := by
  have hInv : f.Inv := hRun.invariant (Flow.inv_start given)
    fun f event h hOrderly => (h.step event hOrderly).inv
  exact (hInv.step event hOrderly).within

/-- A client that advertises `window` as its initial window. -/
def settingsFrame (window : UInt8) : Octets := [0, 0, 6, 4, 0, 0, 0, 0, 0, 0, 4, 0, 0, 0, window]

/-- A request on stream 1. -/
def requestFrame : Octets := [0, 0, 6, 1, 5, 0, 0, 0, 1, 0x82, 0x86, 0x84, 0x41, 0x01, 0x61]

/-- An increment of five octets for stream 1. -/
def incrementFrame : Octets := [0, 0, 4, 8, 0, 0, 0, 0, 1, 0, 0, 0, 5]

/-- Ten octets are ready for a window of five, which is then opened. -/
theorem flow_within_windows_blocked :
    (runEvents Flow.step (Flow.start ∅) [.recv .kept (settingsFrame 5), .recv .kept requestFrame,
        .sendData 1 (octets "0123456789") none]).WithinWindows
      (runEvents Flow.step (Flow.start ∅) [.recv .kept (settingsFrame 5), .recv .kept requestFrame,
        .sendData 1 (octets "0123456789") none, .recv .kept incrementFrame]) := by
  refine flow_within_windows (.next (FlowEvent.sendData 1 (octets "0123456789") none)
    (.next (FlowEvent.recv .kept requestFrame) (.next (FlowEvent.recv .kept (settingsFrame 5)) .start
      ?_) ?_) ?_) (FlowEvent.recv .kept incrementFrame) ?_
  · exact orderly_recv (by decide +kernel)
  · exact orderly_recv (by decide +kernel)
  · unfold FlowEvent.Orderly
    decide +kernel
  · exact orderly_recv (by decide +kernel)

/-- A call without data meets a window of -10: it is brought back to zero, and five
octets more than the peer allows go out. -/
theorem flow_emptySend :
    let f := runEvents Flow.step (Flow.start ∅) [.recv .kept (settingsFrame 10),
      .recv .kept requestFrame, .sendData 1 (octets "0123456789") none,
      .recv .kept (settingsFrame 0), .sendData 1 [] none, .recv .kept incrementFrame]
    ¬ f.WithinWindows (f.step (.sendData 1 (octets "01234") none)) := by
  intro f hWithin
  have hMore := hWithin.stream 1 (by decide +kernel)
  revert hMore
  decide +kernel

end PageCamel.Http2

import PageCamel.Frontend.Relay
import PageCamel.Frontend.ResponseBody

/-!
What a backend sends after the head of the response that opens a tunnel, on its way
to the client. The HTTP/2 handler forwards the octets of later reads and drops those
that come in one read with the head; the HTTP/3 handler passes them on with the
head, keeps later ones that the connection refuses, and never looks at the response
of a backend the tunnel had to wait for.
-/

namespace PageCamel.Frontend.Http2
open PageCamel.Lib PageCamel.Lib.Http1

/-! ### HTTP/2 -/

/-- A tunnel, and the octets read from its backend so far. -/
structure Tunnel where
  relay : Relay
  received : Octets := []
  deriving DecidableEq, Repr

def Tunnel.start (request : Octets) : Tunnel := { relay := .start true request }

inductive TunnelEvent where
  | read (n : Nat)
  | writeError
  | backendClose
  deriving DecidableEq, Repr

/-- The most octets one `sysread` asks for. -/
def readSize : Nat := 65536

/-- The next octets of the message, of which `n` have arrived. -/
def Tunnel.next (message : Octets) (t : Tunnel) (n : Nat) : Octets :=
  (message.drop t.received.length).take (min n readSize)

/-- The backend sends the message and may close the connection after it. -/
def Tunnel.step (http3Port : Option Octets) (message : Octets) (t : Tunnel) : TunnelEvent → Tunnel
  | .read n =>
      let buf := t.next message n
      if t.relay.released = true ∨ buf = [] then t
      else { relay := t.relay.read http3Port (some buf), received := t.received ++ buf }
  | .writeError =>
      if t.relay.released = true then t
      else { t with relay := { t.relay with entry := t.relay.entry.setDisconnected } }
  | .backendClose =>
      if t.relay.released = true ∨ t.received ≠ message then t
      else { t with relay := t.relay.read http3Port none }

/-- The client has been sent all that was received after the head, and the backend is
not given up before it has sent everything. -/
structure Tunnel.Delivered (h : ResponseHead) (body : Octets) (t : Tunnel) : Prop where
  payload : t.relay.payload = t.received.drop (headLength h)
  whole : t.relay.released = true → t.received = h.message body

/-- A read while the response is awaited does not go past the end of its head. -/
def TunnelEvent.StopsAtHead (h : ResponseHead) (body : Octets) (t : Tunnel) : TunnelEvent → Prop
  | .read n => t.relay.entry.state = some .tunnelPending →
      (t.received ++ t.next (h.message body) n).length ≤ headLength h
  | _ => True

inductive Tunnel.Phase (h : ResponseHead) (body : Octets) (t : Tunnel) : Prop
  | head (hOpen : t.relay.Open true h t.received) (hShort : t.received.length < headLength h)
  | forwarding (hState : t.relay.entry.state = some .tunnel)
      (hTunnel : t.relay.entry.tunnel = true) (hLive : t.relay.released = false)
      (hLong : headLength h ≤ t.received.length)
  | released (hState : t.relay.entry.state = none) (hReleased : t.relay.released = true)
      (hAll : t.received = h.message body)

structure Tunnel.Inv (h : ResponseHead) (body : Octets) (t : Tunnel) : Prop where
  received : t.received <+: h.message body
  phase : t.Phase h body

theorem inv_startTunnel (h : ResponseHead) (request body : Octets) :
    (Tunnel.start request).Inv h body :=
  ⟨List.nil_prefix, .head (open_start true request h) (headLength_pos h)⟩

theorem delivered_startTunnel (h : ResponseHead) (request body : Octets) :
    (Tunnel.start request).Delivered h body where
  payload := List.drop_nil.symm
  whole hReleased := by cases hReleased

theorem next_prefix {h : ResponseHead} {body : Octets} {t : Tunnel}
    (hReceived : t.received <+: h.message body) (n : Nat) :
    t.received ++ t.next (h.message body) n <+: h.message body := by
  obtain ⟨more, hEq⟩ := hReceived
  rw [Tunnel.next, ← hEq, List.drop_left]
  exact (List.prefix_append_right_inj _).mpr (List.take_prefix ..)

/-- The read that completes the head opens the tunnel and drops what follows. -/
theorem read_opensTunnel {h : ResponseHead} (hWell : h.WellFormed)
    (hStatus : h.status = octets "101") (http3Port : Option Octets)
    {received buf more body : Octets} {r : Relay}
    (hPrefix : received ++ buf ++ more = h.message body) (hOpen : r.Open true h received)
    (hBefore : received.length < headLength h) (hLong : headLength h ≤ (received ++ buf).length) :
    let r' := r.read http3Port (some buf)
    r'.entry.state = some .tunnel ∧ r'.entry.tunnel = true ∧ r'.released = false ∧
      r'.payload = [] := by
  obtain ⟨hPayload, hResponse, hState⟩ := hOpen.head hBefore
  have hSame : (r.entry.appendResponse buf).response = received ++ buf := by
    rw [StreamEntry.appendResponse, hResponse]
  have hPending : (r.entry.appendResponse buf).state = some .tunnelPending := hState
  have hRead := handleBackendData_head hWell http3Port hPrefix hSame hState
  rw [if_neg (Nat.not_lt_of_le hLong), processBackendResponse_eq hWell http3Port
    (by rw [hSame]; exact hPrefix) (by rw [hSame]; exact hLong)] at hRead
  dsimp only at hRead
  rw [if_pos hPending, if_pos hStatus] at hRead
  rw [read_eq hOpen.released http3Port (some buf) hRead]
  refine ⟨rfl, rfl, rfl, ?_⟩
  rw [Relay.payload] at hPayload
  simp [Relay.payload, hPayload, StreamEntry.openTunnel, Call.payload]

/-- A read of an open tunnel is forwarded. -/
theorem read_forwards (http3Port : Option Octets) {r : Relay} (hLive : r.released = false)
    (hState : r.entry.state = some .tunnel) (hTunnel : r.entry.tunnel = true) (buf : Octets) :
    r.read http3Port (some buf) = { r with calls := r.calls ++ [.send buf] } := by
  have hRead : r.entry.handleBackendData http3Port (some buf) =
      { entry := r.entry, calls := [.send buf] } := by
    rw [StreamEntry.handleBackendData]
    dsimp only
    rw [hState, Option.getD_some]
    dsimp only
    rw [if_pos hTunnel]
  rw [read_eq hLive http3Port (some buf) hRead]
  simp [hLive]

section
variable {h : ResponseHead} {body : Octets} (hWell : h.WellFormed)
variable (hStatus : h.status = octets "101") (http3Port : Option Octets)
include hWell hStatus

theorem inv_readTunnel {t : Tunnel} (hInv : t.Inv h body) (hLive : t.relay.released = false)
    (n : Nat) :
    ({ relay := t.relay.read http3Port (some (t.next (h.message body) n)),
       received := t.received ++ t.next (h.message body) n } : Tunnel).Inv h body := by
  have hReceived := next_prefix hInv.received n
  obtain ⟨more, hMore⟩ := hReceived
  refine ⟨⟨more, hMore⟩, ?_⟩
  cases hInv.phase with
  | head hOpen hBefore =>
      by_cases hShort : (t.received ++ t.next (h.message body) n).length < headLength h
      · exact .head (hOpen.read_head hWell http3Port hMore hShort) hShort
      · obtain ⟨hState, hTunnel, hStill, _⟩ := read_opensTunnel hWell hStatus http3Port hMore hOpen
          hBefore (Nat.le_of_not_lt hShort)
        exact .forwarding hState hTunnel hStill (Nat.le_of_not_lt hShort)
  | forwarding hState hTunnel _ hLong =>
      rw [read_forwards http3Port hLive hState hTunnel]
      exact .forwarding hState hTunnel hLive (hLong.trans (by simp))
  | released _ hReleased =>
      rw [hReleased] at hLive
      cases hLive

theorem delivered_readTunnel {t : Tunnel} (hInv : t.Inv h body) (hLive : t.relay.released = false)
    (hDelivered : t.Delivered h body) (n : Nat) :
    ({ relay := t.relay.read http3Port (some (t.next (h.message body) n)),
       received := t.received ++ t.next (h.message body) n } : Tunnel).Delivered h body ↔
      TunnelEvent.StopsAtHead h body t (.read n) := by
  obtain ⟨more, hMore⟩ := next_prefix hInv.received n
  cases hInv.phase with
  | head hOpen hBefore =>
      have hPending := (hOpen.head hBefore).2.2
      by_cases hShort : (t.received ++ t.next (h.message body) n).length < headLength h
      · have hOpen' := hOpen.read_head hWell http3Port hMore hShort
        refine iff_of_true ⟨?_, ?_⟩ fun _ => Nat.le_of_lt hShort
        · exact (hOpen'.head hShort).1.trans (List.drop_of_length_le (Nat.le_of_lt hShort)).symm
        · intro hReleased
          exact absurd (hOpen'.released.symm.trans hReleased) (by simp)
      · obtain ⟨_, _, hStill, hPayload⟩ := read_opensTunnel hWell hStatus http3Port hMore hOpen
          hBefore (Nat.le_of_not_lt hShort)
        constructor
        · intro hAfter _
          exact List.drop_eq_nil_iff.mp (hAfter.payload.symm.trans hPayload)
        · intro hStops
          refine ⟨hPayload.trans (List.drop_of_length_le (hStops hPending)).symm, ?_⟩
          intro hReleased
          exact absurd (hStill.symm.trans hReleased) (by simp)
  | forwarding hState hTunnel _ hLong =>
      rw [read_forwards http3Port hLive hState hTunnel]
      refine iff_of_true ⟨?_, ?_⟩ ?_
      · have hPayload := hDelivered.payload
        rw [Relay.payload] at hPayload
        simp [Relay.payload, hPayload, Call.payload, List.drop_append_of_le_length hLong]
      · intro hReleased
        exact absurd (hLive.symm.trans hReleased) (by simp)
      · intro hPending
        rw [hState] at hPending
        cases hPending
  | released _ hReleased =>
      rw [hReleased] at hLive
      cases hLive

omit hWell hStatus in
/-- The backend closes after its last octet. -/
theorem close_tunnel {t : Tunnel} (hInv : t.Inv h body) (hLive : t.relay.released = false)
    (hAll : t.received = h.message body) :
    let r := t.relay.read http3Port none
    r.entry.state = none ∧ r.released = true ∧ r.payload = t.relay.payload := by
  cases hInv.phase with
  | head _ hShort =>
      rw [hAll] at hShort
      exact absurd (headLength_le_message h body) (Nat.not_le_of_lt hShort)
  | forwarding _ hTunnel =>
      have hTunnel' : t.relay.entry.setDisconnected.tunnel = true := hTunnel
      rw [read_eq hLive http3Port none rfl]
      refine ⟨rfl, rfl, ?_⟩
      simp [Relay.payload, StreamEntry.handleBackendData, StreamEntry.cleanupStream, hTunnel',
        Call.payload]
  | released _ hReleased =>
      rw [hReleased] at hLive
      cases hLive

theorem Tunnel.Inv.step {t : Tunnel} (hInv : t.Inv h body) (event : TunnelEvent) :
    (t.step http3Port (h.message body) event).Inv h body := by
  cases event with
  | read n =>
      rw [Tunnel.step]
      split
      · exact hInv
      · next hReads =>
          simp only [not_or, Bool.not_eq_true] at hReads
          exact inv_readTunnel hWell hStatus http3Port hInv hReads.1 n
  | writeError =>
      rw [Tunnel.step]
      split
      · exact hInv
      · refine ⟨hInv.received, ?_⟩
        cases hInv.phase with
        | head hOpen hShort =>
            exact .head ⟨hOpen.released, hOpen.ended, hOpen.head, hOpen.body⟩ hShort
        | forwarding hState hTunnel hLive hLong => exact .forwarding hState hTunnel hLive hLong
        | released hState hReleased hAll => exact .released hState hReleased hAll
  | backendClose =>
      rw [Tunnel.step]
      split
      · exact hInv
      · next hCloses =>
          simp only [not_or, Bool.not_eq_true, not_not] at hCloses
          obtain ⟨hState, hReleased, _⟩ := close_tunnel http3Port hInv hCloses.1 hCloses.2
          exact ⟨hInv.received, .released hState hReleased hCloses.2⟩

theorem delivered_step {t : Tunnel} (event : TunnelEvent) (hInv : t.Inv h body)
    (hDelivered : t.Delivered h body) :
    (t.step http3Port (h.message body) event).Delivered h body ↔ event.StopsAtHead h body t := by
  cases event with
  | read n =>
      rw [Tunnel.step]
      split
      · next hIdle =>
          refine iff_of_true hDelivered fun hPending => ?_
          -- the response is awaited, so the backend is there and nothing was read
          cases hInv.phase with
          | head hOpen hShort =>
              rcases hIdle with hReleased | hEmpty
              · exact absurd (hOpen.released.symm.trans hReleased) (by simp)
              · rw [hEmpty, List.append_nil]
                exact Nat.le_of_lt hShort
          | forwarding hState => rw [hState] at hPending; cases hPending
          | released hState => rw [hState] at hPending; cases hPending
      · next hReads =>
          simp only [not_or, Bool.not_eq_true] at hReads
          exact delivered_readTunnel hWell hStatus http3Port hInv hReads.1 hDelivered n
  | writeError =>
      rw [Tunnel.step]
      split
      · exact iff_of_true hDelivered trivial
      · exact iff_of_true ⟨hDelivered.payload, hDelivered.whole⟩ trivial
  | backendClose =>
      rw [Tunnel.step]
      split
      · exact iff_of_true hDelivered trivial
      · next hCloses =>
          simp only [not_or, Bool.not_eq_true, not_not] at hCloses
          have hPayload := (close_tunnel http3Port hInv hCloses.1 hCloses.2).2.2
          exact iff_of_true ⟨hPayload.trans hDelivered.payload, fun _ => hCloses.2⟩ trivial

end

end PageCamel.Frontend.Http2

namespace PageCamel.Frontend.Http3
open PageCamel.Lib PageCamel.Lib.Http1 PageCamel.Http2

/-! ### HTTP/3 -/

/-- All that was received after the head has been accepted by the connection, or will be
when the connection accepts what is flushed next, as long as the client keeps the stream;
and the backend is not given up before it has sent everything. -/
structure Delivery.Tunnelled (h : ResponseHead) (body : Octets) (d : Delivery) : Prop where
  inOrder : accepted d.calls <+: body
  delivered : d.closed = false →
    accepted (d.calls ++ (d.entry.flushPending true).calls) = d.received.drop (headLength h)
  whole : d.closed = false → d.backend = true ∨ d.received = h.message body

/-- What comes in one read with the end of the head is not refused, nothing follows the
head of a response nobody looks at, and no accepted send finds the backend marked as
disconnected before it has sent everything. -/
def DeliveryEvent.KeepsTunnel (h : ResponseHead) (body : Octets) (d : Delivery) :
    DeliveryEvent → Prop
  | .read n accept =>
      let received := d.received ++ d.next (h.message body) n
      match d.entry.state with
      | some .waitingResponse => headLength h < received.length → accept = true
      | some .tunnelPending => received.length ≤ headLength h
      | some .tunnelActive =>
          d.next (h.message body) n ≠ [] → accept = true → d.entry.disconnected = true →
            received = h.message body
      | _ => True
  | .flush accept =>
      d.entry.state = some .tunnelActive → d.entry.response ≠ [] → accept = true →
        d.entry.disconnected = true → d.received = h.message body
  | _ => True

inductive Delivery.TunnelPhase (waiting : Waiting) (h : ResponseHead) (d : Delivery) : Prop
  | head (hState : d.entry.state = some .waitingResponse) (hWaiting : waiting = .upgrade)
      (hResponse : d.entry.response = d.received) (hAccepted : accepted d.calls = [])
      (hPending : d.entry.tunnelPending = true) (hShort : d.received.length < headLength h)
      (hBackend : d.backend = true)
  | ignored (hState : d.entry.state = some .tunnelPending) (hAccepted : accepted d.calls = [])
      (hBackend : d.backend = true)
  | forwarding (hState : d.entry.state = some .tunnelActive)
      (hLong : headLength h ≤ d.received.length) (hBackend : d.backend = true)
  | done (hState : d.entry.state = none) (hResponse : d.entry.response = [])
      (hBackend : d.backend = false)

structure Delivery.TunnelInv (waiting : Waiting) (h : ResponseHead) (body : Octets)
    (d : Delivery) : Prop where
  received : d.received <+: h.message body
  unblocked : d.entry.congestionBlocked = false
  closed : d.closed = true → d.entry.state = none
  phase : d.TunnelPhase waiting h

theorem tunnelInv_start {waiting : Waiting} (hWaiting : waiting ≠ .request) (h : ResponseHead)
    (request body : Octets) : (Delivery.start waiting request).TunnelInv waiting h body := by
  refine ⟨List.nil_prefix, rfl, (fun hClosed => by cases hClosed), ?_⟩
  cases waiting with
  | request => exact absurd rfl hWaiting
  | upgrade => exact .head rfl rfl rfl rfl rfl (headLength_pos h) rfl
  | queuedUpgrade => exact .ignored rfl rfl rfl

theorem tunnelled_start {waiting : Waiting} (h : ResponseHead) (request body : Octets) :
    (Delivery.start waiting request).Tunnelled h body where
  inOrder := List.nil_prefix
  delivered _ := List.drop_nil.symm
  whole _ := .inl rfl

/-! What is flushed next -/

theorem flushPending_other {e : StreamEntry} (hStreaming : e.state ≠ some .streaming)
    (hTunnel : e.state ≠ some .tunnelActive) (accept : Bool) :
    e.flushPending accept = { entry := e } := by
  rw [StreamEntry.flushPending]
  split
  · rfl
  · split
    · next hState => exact absurd hState hStreaming
    · next hState => exact absurd hState hTunnel
    · rfl

theorem accepted_finishTunnel (e : StreamEntry) : accepted e.finishTunnel.calls = [] := by
  rw [StreamEntry.finishTunnel]
  split <;> rfl

theorem accepted_flush {d : Delivery} (hState : d.entry.state = some .tunnelActive) :
    accepted (d.calls ++ (d.entry.flushPending true).calls) = accepted d.calls ++ d.entry.response := by
  rw [accepted_append, StreamEntry.flushPending]
  split
  · next hEmpty => rw [hEmpty]; rfl
  · rw [hState]
    dsimp only
    rw [Outcome.after]
    dsimp only
    rw [accepted_append, accepted_finishTunnel, List.append_nil]
    simp [accepted, Call.body]

section
variable {waiting : Waiting} {h : ResponseHead} {body : Octets}

/-! What the invariant says of a stream, by its state -/

theorem Delivery.TunnelInv.waits {d : Delivery} (hInv : d.TunnelInv waiting h body)
    (hState : d.entry.state = some .waitingResponse) :
    d.entry.response = d.received ∧ d.entry.tunnelPending = true ∧
      d.received.length < headLength h := by
  cases hInv.phase with
  | head _ _ hResponse _ hPending hShort _ => exact ⟨hResponse, hPending, hShort⟩
  | _ hOther => rw [hState] at hOther; cases hOther

theorem Delivery.TunnelInv.forwards {d : Delivery} (hInv : d.TunnelInv waiting h body)
    (hState : d.entry.state = some .tunnelActive) :
    headLength h ≤ d.received.length ∧ d.backend = true := by
  cases hInv.phase with
  | forwarding _ hLong hBackend => exact ⟨hLong, hBackend⟩
  | _ hOther => rw [hState] at hOther; cases hOther

/-- A stream that is gone has no backend to be read for it. -/
theorem Delivery.TunnelInv.gone {d : Delivery} (hInv : d.TunnelInv waiting h body)
    (hState : d.entry.state = none) : d.backend = false := by
  cases hInv.phase with
  | done _ _ hBackend => exact hBackend
  | _ hOther => rw [hState] at hOther; cases hOther

theorem tunnelled_forwarding_iff {d : Delivery} (hInv : d.TunnelInv waiting h body)
    (hState : d.entry.state = some .tunnelActive) :
    d.Tunnelled h body ↔
      accepted d.calls ++ d.entry.response = d.received.drop (headLength h) := by
  have hOpen : d.closed = false := by
    by_contra hClosed
    rw [hInv.closed (by simpa using hClosed)] at hState
    cases hState
  rw [← accepted_flush hState]
  constructor
  · exact fun hTunnelled => hTunnelled.delivered hOpen
  · intro hKept
    refine ⟨?_, fun _ => hKept, fun _ => ?_⟩
    · rw [accepted_flush hState] at hKept
      exact List.IsPrefix.trans ⟨_, hKept⟩ (drop_received hInv.received)
    · exact .inl (hInv.forwards hState).2

theorem tunnelled_unsent_iff {d : Delivery} (hClosed : d.closed = true → d.entry.state = none)
    (hState : d.entry.state = some .waitingResponse ∨ d.entry.state = some .tunnelPending)
    (hAccepted : accepted d.calls = []) (hBackend : d.backend = true) :
    d.Tunnelled h body ↔ d.received.length ≤ headLength h := by
  have hOpen : d.closed = false := by
    by_contra hYes
    rw [hClosed (by simpa using hYes)] at hState
    rcases hState with hEq | hEq <;> cases hEq
  have hFlush : d.entry.flushPending true = { entry := d.entry } := by
    apply flushPending_other
    · rcases hState with hEq | hEq <;> rw [hEq] <;> simp
    · rcases hState with hEq | hEq <;> rw [hEq] <;> simp
  have hDelivered : accepted (d.calls ++ (d.entry.flushPending true).calls) = [] := by
    rw [hFlush, List.append_nil, hAccepted]
  constructor
  · intro hTunnelled
    exact List.drop_eq_nil_iff.mp ((hTunnelled.delivered hOpen).symm.trans hDelivered)
  · intro hShort
    refine ⟨?_, fun _ => ?_, fun _ => .inl hBackend⟩
    · rw [hAccepted]
      exact List.nil_prefix
    · rw [hDelivered, List.drop_of_length_le hShort]

/-! The end of a tunnel -/

theorem tunnelInv_finish {d : Delivery} (hInv : d.TunnelInv waiting h body) :
    (d.apply d.entry.finishTunnel).TunnelInv waiting h body := by
  rw [StreamEntry.finishTunnel]
  split
  · refine ⟨hInv.received, rfl, fun _ => rfl, .done rfl rfl ?_⟩
    simp [Delivery.apply, StreamEntry.finish, Outcome.after, StreamEntry.cleanupStream]
  · rw [apply_same]
    exact hInv

theorem tunnelled_finish {d : Delivery} (hInv : d.TunnelInv waiting h body)
    (hState : d.entry.state = some .tunnelActive)
    (hKept : accepted d.calls ++ d.entry.response = d.received.drop (headLength h)) :
    (d.apply d.entry.finishTunnel).Tunnelled h body ↔
      (d.entry.response = [] → d.entry.disconnected = true → d.received = h.message body) := by
  have hTunnelled := (tunnelled_forwarding_iff hInv hState).mpr hKept
  rw [StreamEntry.finishTunnel]
  split
  · next hEnd =>
      obtain ⟨hEmpty, hDisconnected⟩ := hEnd
      have hOpen : d.closed = false := by
        by_contra hClosed
        rw [hInv.closed (by simpa using hClosed)] at hState
        cases hState
      have hSame : accepted (d.apply d.entry.finish).calls = accepted d.calls := by
        simp [Delivery.apply, StreamEntry.finish, Outcome.after, StreamEntry.cleanupStream,
          accepted, Call.body]
      have hNone : (d.apply d.entry.finish).backend = false := by
        simp [Delivery.apply, StreamEntry.finish, Outcome.after, StreamEntry.cleanupStream]
      constructor
      · intro hAfter _ _
        rcases hAfter.whole hOpen with hBackend | hAll
        · rw [hNone] at hBackend
          cases hBackend
        · exact hAll
      · intro hAll
        refine ⟨hSame ▸ hTunnelled.inOrder, fun _ => ?_, fun _ => .inr (hAll hEmpty hDisconnected)⟩
        rw [accepted_append, hSame]
        rw [hEmpty, List.append_nil] at hKept
        rw [hKept]
        exact List.append_nil _
  · next hNot =>
      rw [apply_same]
      exact iff_of_true hTunnelled fun hEmpty hDisconnected => absurd ⟨hEmpty, hDisconnected⟩ hNot

/-- What is kept is given to the connection. -/
def Delivery.sendKept (d : Delivery) (accept : Bool) : Delivery :=
  { d with
    entry := if accept then d.entry.sent else d.entry
    calls := d.calls ++ [(.sendResponseBody d.entry.response false, accept)] }

theorem sendKept_kept (d : Delivery) (accept : Bool) :
    accepted (d.sendKept accept).calls ++ (d.sendKept accept).entry.response =
      accepted d.calls ++ d.entry.response := by
  rw [Delivery.sendKept, accepted_append]
  cases accept <;> simp [accepted, StreamEntry.sent, Call.body]

theorem tunnelInv_sendKept {d : Delivery} (hInv : d.TunnelInv waiting h body)
    (hState : d.entry.state = some .tunnelActive) (accept : Bool) :
    (d.sendKept accept).TunnelInv waiting h body ∧
      (d.sendKept accept).entry.state = some .tunnelActive := by
  have hSame : (d.sendKept accept).entry.state = some .tunnelActive := by
    cases accept <;> exact hState
  refine ⟨⟨hInv.received, ?_, fun hClosed => ?_, ?_⟩, hSame⟩
  · cases accept <;> exact hInv.unblocked
  · exact absurd (hInv.closed hClosed) (by rw [hState]; simp)
  · obtain ⟨hLong, hBackend⟩ := hInv.forwards hState
    exact .forwarding hSame hLong hBackend

theorem tunnelInv_send {d : Delivery} (hInv : d.TunnelInv waiting h body)
    (hState : d.entry.state = some .tunnelActive) (accept : Bool) :
    (d.apply ((if accept then d.entry.sent else d.entry).finishTunnel.after
      [(.sendResponseBody d.entry.response false, accept)])).TunnelInv waiting h body := by
  rw [apply_after]
  exact tunnelInv_finish (tunnelInv_sendKept hInv hState accept).1

/-- A send that is accepted ends the tunnel if the backend is marked as disconnected. -/
theorem tunnelled_send {d : Delivery} (hInv : d.TunnelInv waiting h body)
    (hState : d.entry.state = some .tunnelActive)
    (hKept : accepted d.calls ++ d.entry.response = d.received.drop (headLength h))
    (hSome : d.entry.response ≠ []) (accept : Bool) :
    (d.apply ((if accept then d.entry.sent else d.entry).finishTunnel.after
      [(.sendResponseBody d.entry.response false, accept)])).Tunnelled h body ↔
      (accept = true → d.entry.disconnected = true → d.received = h.message body) := by
  rw [apply_after]
  obtain ⟨hInv', hState'⟩ := tunnelInv_sendKept hInv hState accept
  refine (tunnelled_finish hInv' hState' ((sendKept_kept d accept).trans hKept)).trans ?_
  cases accept with
  | false => exact iff_of_true (fun hEmpty => absurd hEmpty hSome) (fun hYes => by cases hYes)
  | true => exact ⟨fun hEnd _ => hEnd rfl, fun hEnd _ => hEnd rfl⟩

/-! Reads -/

/-- The head is completed: what came with its end is sent at once. -/
theorem openTunnel_tunnelled {d : Delivery} (hReceived : d.received <+: h.message body)
    (hUnblocked : d.entry.congestionBlocked = false)
    (hLong : headLength h ≤ d.received.length) (hAccepted : accepted d.calls = [])
    (hBackend : d.backend = true) (hClosed : d.closed = false) (headers : List Header)
    (accept : Bool) :
    let d' := d.apply (d.entry.openTunnel headers (d.received.drop (headLength h)) accept)
    d'.TunnelInv waiting h body ∧
      (d'.Tunnelled h body ↔ (headLength h < d.received.length → accept = true)) := by
  intro d'
  have hBackend' : d'.backend = true := by
    show (d.backend && true) = true
    rw [hBackend]
    rfl
  have hInv' : d'.TunnelInv waiting h body :=
    ⟨hReceived, hUnblocked, fun hYes => absurd (hClosed.symm.trans hYes) (by simp),
      .forwarding rfl hLong hBackend'⟩
  refine ⟨hInv', (tunnelled_forwarding_iff hInv' rfl).trans ?_⟩
  have hResponse : d'.entry.response = [] := rfl
  have hBefore : d'.received = d.received := rfl
  rw [hResponse, hBefore, List.append_nil]
  show accepted (d.calls ++ _) = _ ↔ _
  rw [accepted_append, hAccepted, List.nil_append]
  have hMore : headLength h < d.received.length ↔ d.received.drop (headLength h) ≠ [] := by
    rw [ne_eq, List.drop_eq_nil_iff]
    omega
  rw [hMore, StreamEntry.openTunnel]
  dsimp only
  generalize d.received.drop (headLength h) = rest
  by_cases hEmpty : rest = []
  · rw [if_neg (not_not.mpr hEmpty), hEmpty]
    exact iff_of_true rfl fun hNe => absurd rfl hNe
  · rw [if_pos hEmpty]
    cases accept with
    | true => exact iff_of_true (by simp [accepted, Call.body]) fun _ => rfl
    | false =>
        refine iff_of_false (fun hEq => hEmpty ?_) fun hAll => absurd (hAll hEmpty) (by simp)
        exact hEq.symm

end

section
variable {waiting : Waiting} {h : ResponseHead} {body : Octets} (hWell : h.WellFormed)
include hWell

theorem readTunnel {d : Delivery} (hInv : d.TunnelInv waiting h body) {n : Nat} (accept : Bool)
    (hBackend : d.backend = true) (hNext : d.next (h.message body) n ≠ []) :
    let d' := (d.receive (d.next (h.message body) n)).apply
      (d.entry.handleBackendData (some (d.next (h.message body) n)) accept)
    d'.TunnelInv waiting h body ∧
      (d.Tunnelled h body →
        (d'.Tunnelled h body ↔ DeliveryEvent.KeepsTunnel h body d (.read n accept))) := by
  have hReceived : d.received ++ d.next (h.message body) n <+: h.message body :=
    received_next_prefix hInv.received n
  rw [StreamEntry.handleBackendData, if_neg (by rw [hInv.unblocked]; simp)]
  simp only [DeliveryEvent.KeepsTunnel]
  generalize d.next (h.message body) n = buf at hReceived hNext
  let d₁ : Delivery := { d.receive buf with entry := d.entry.appendResponse buf }
  have hLonger : d.received.length ≤ d₁.received.length := by simp [d₁, Delivery.receive]
  show (d₁.apply (d₁.entry.processBackendResponse accept)).TunnelInv waiting h body ∧
    (d.Tunnelled h body →
      ((d₁.apply (d₁.entry.processBackendResponse accept)).Tunnelled h body ↔ _))
  cases hInv.phase with
  | head hState hWaiting hResponse hAccepted hPending hShort _ =>
      have hState₁ : d₁.entry.state = some .waitingResponse := hState
      have hResponse₁ : d₁.entry.response = d₁.received := congrArg (· ++ buf) hResponse
      have hClosed : d.closed = false := by
        by_contra hYes
        rw [hInv.closed (by simpa using hYes)] at hState
        cases hState
      obtain ⟨more, hMore⟩ := hReceived
      have hPrefix : d₁.entry.response ++ more = h.message body := hResponse₁ ▸ hMore
      rw [StreamEntry.processBackendResponse, hState, hState₁]
      dsimp only
      by_cases hStill : d₁.received.length < headLength h
      · rw [processHead_short hWell hPrefix (hResponse₁ ▸ hStill), apply_same]
        have hInv₁ : d₁.TunnelInv waiting h body :=
          ⟨⟨more, hMore⟩, hInv.unblocked, hInv.closed,
            .head hState hWaiting hResponse₁ hAccepted hPending hStill hBackend⟩
        have hWhole : d₁.Tunnelled h body := (tunnelled_unsent_iff hInv₁.closed (.inl hState₁) hAccepted
          hBackend).mpr (Nat.le_of_lt hStill)
        exact ⟨hInv₁, fun _ => iff_of_true hWhole fun hLong =>
          absurd hStill (Nat.not_lt_of_lt hLong)⟩
      · have hLong := Nat.le_of_not_lt hStill
        have hOpens : d₁.entry.tunnelPending = true := hPending
        -- the buffer is the octets received, whose rest after the head is sent with it
        rw [processHead_eq hWell hPrefix (hResponse₁ ▸ hLong)]
        dsimp only
        rw [if_pos (.inl hOpens), hResponse₁]
        obtain ⟨hInv₁, hIff⟩ := @openTunnel_tunnelled waiting h body d₁ ⟨more, hMore⟩
          hInv.unblocked hLong hAccepted hBackend hClosed (passedFields h) accept
        exact ⟨hInv₁, fun _ => hIff⟩
  | ignored hState hAccepted _ =>
      have hState₁ : d₁.entry.state = some .tunnelPending := hState
      rw [StreamEntry.processBackendResponse, hState, hState₁]
      dsimp only
      rw [apply_same]
      have hInv₁ : d₁.TunnelInv waiting h body :=
        ⟨hReceived, hInv.unblocked, hInv.closed, .ignored hState hAccepted hBackend⟩
      exact ⟨hInv₁, fun _ => tunnelled_unsent_iff hInv₁.closed (.inr hState₁) hAccepted hBackend⟩
  | forwarding hState hLong _ =>
      have hState₁ : d₁.entry.state = some .tunnelActive := hState
      have hInv₁ : d₁.TunnelInv waiting h body :=
        ⟨hReceived, hInv.unblocked, hInv.closed, .forwarding hState (hLong.trans hLonger) hBackend⟩
      have hSome : d₁.entry.response ≠ [] := by
        intro hEmpty
        exact hNext (List.append_eq_nil_iff.mp hEmpty).2
      rw [StreamEntry.processBackendResponse, hState, hState₁]
      dsimp only
      rw [if_pos hSome]
      refine ⟨tunnelInv_send hInv₁ hState₁ accept, fun hTunnelled => ?_⟩
      have hKept := (tunnelled_forwarding_iff hInv hState).mp hTunnelled
      have hKept₁ : accepted d₁.calls ++ d₁.entry.response = d₁.received.drop (headLength h) := by
        show accepted d.calls ++ (d.entry.response ++ buf) = (d.received ++ buf).drop (headLength h)
        rw [List.drop_append_of_le_length hLong, ← hKept, List.append_assoc]
      refine (tunnelled_send hInv₁ hState₁ hKept₁ hSome accept).trans ?_
      exact ⟨fun hEnd _ => hEnd, fun hEnd => hEnd hNext⟩
  | done _ _ hNone =>
      rw [hNone] at hBackend
      cases hBackend

omit hWell in
theorem tunnelInv_setDisconnected {d : Delivery} (hInv : d.TunnelInv waiting h body) :
    ({ d with entry := d.entry.setDisconnected } : Delivery).TunnelInv waiting h body := by
  refine ⟨hInv.received, hInv.unblocked, hInv.closed, ?_⟩
  cases hInv.phase with
  | head hState hWaiting hResponse hAccepted hPending hShort hBackend =>
      exact .head hState hWaiting hResponse hAccepted hPending hShort hBackend
  | ignored hState hAccepted hBackend => exact .ignored hState hAccepted hBackend
  | forwarding hState hLong hBackend => exact .forwarding hState hLong hBackend
  | done hState hResponse hBackend => exact .done hState hResponse hBackend

omit hWell in
theorem tunnelled_setDisconnected {d : Delivery} (hInv : d.TunnelInv waiting h body)
    (hBackend : d.backend = true) (hTunnelled : d.Tunnelled h body) :
    ({ d with entry := d.entry.setDisconnected } : Delivery).Tunnelled h body := by
  have hInv' := tunnelInv_setDisconnected hInv
  cases hInv.phase with
  | head hState _ _ hAccepted _ _ _ =>
      exact (tunnelled_unsent_iff hInv'.closed (.inl hState) hAccepted hBackend).mpr
        ((tunnelled_unsent_iff hInv.closed (.inl hState) hAccepted hBackend).mp hTunnelled)
  | ignored hState hAccepted _ =>
      exact (tunnelled_unsent_iff hInv'.closed (.inr hState) hAccepted hBackend).mpr
        ((tunnelled_unsent_iff hInv.closed (.inr hState) hAccepted hBackend).mp hTunnelled)
  | forwarding hState _ _ =>
      exact (tunnelled_forwarding_iff hInv' hState).mpr
        ((tunnelled_forwarding_iff hInv hState).mp hTunnelled)
  | done _ _ hNone =>
      rw [hNone] at hBackend
      cases hBackend

omit hWell in
/-- The backend closes after its last octet. -/
theorem closeTunnel {d : Delivery} (hInv : d.TunnelInv waiting h body) (accept : Bool)
    (hBackend : d.backend = true) (hAll : d.received = h.message body) :
    let d' := d.apply (d.entry.handleBackendData none accept)
    d'.TunnelInv waiting h body ∧ (d.Tunnelled h body → d'.Tunnelled h body) := by
  intro d'
  let d₁ : Delivery := { d with entry := d.entry.setDisconnected }
  have hInv₁ : d₁.TunnelInv waiting h body := tunnelInv_setDisconnected hInv
  have hSame : d' = d₁.apply (d₁.entry.processBackendResponse accept) := by
    show d.apply (d.entry.handleBackendData none accept) = _
    rw [StreamEntry.handleBackendData, if_neg (by rw [hInv.unblocked]; simp)]
    rfl
  have hTunnelled₁ : d.Tunnelled h body → d₁.Tunnelled h body :=
    tunnelled_setDisconnected hInv hBackend
  rw [hSame]
  cases hInv₁.phase with
  | head _ _ _ _ _ hShort _ =>
      rw [show d₁.received = h.message body from hAll] at hShort
      exact absurd (headLength_le_message h body) (Nat.not_le_of_lt hShort)
  | ignored hState _ _ =>
      rw [StreamEntry.processBackendResponse, hState]
      dsimp only
      rw [apply_same]
      exact ⟨hInv₁, hTunnelled₁⟩
  | forwarding hState _ _ =>
      have hKept (hTunnelled : d.Tunnelled h body) :=
        (tunnelled_forwarding_iff hInv₁ hState).mp (hTunnelled₁ hTunnelled)
      rw [StreamEntry.processBackendResponse, hState]
      dsimp only
      split
      · next hSome =>
          refine ⟨tunnelInv_send hInv₁ hState accept, fun hTunnelled => ?_⟩
          exact (tunnelled_send hInv₁ hState (hKept hTunnelled) hSome accept).mpr
            fun _ _ => hAll
      · refine ⟨tunnelInv_finish hInv₁, fun hTunnelled => ?_⟩
        exact (tunnelled_finish hInv₁ hState (hKept hTunnelled)).mpr fun _ _ => hAll
  | done _ _ hNone =>
      rw [show d₁.backend = true from hBackend] at hNone
      cases hNone

omit hWell in
theorem flushTunnel {d : Delivery} (hInv : d.TunnelInv waiting h body) (accept : Bool) :
    let d' := d.apply (d.entry.flushPending accept)
    d'.TunnelInv waiting h body ∧
      (d.Tunnelled h body →
        (d'.Tunnelled h body ↔ DeliveryEvent.KeepsTunnel h body d (.flush accept))) := by
  intro d'
  by_cases hState : d.entry.state = some .tunnelActive
  · by_cases hEmpty : d.entry.response = []
    · have hSame : d' = d := by
        show d.apply (d.entry.flushPending accept) = d
        rw [StreamEntry.flushPending, if_pos hEmpty, apply_same]
      rw [hSame]
      exact ⟨hInv, fun hTunnelled => iff_of_true hTunnelled fun _ hSome => absurd hEmpty hSome⟩
    · have hSame : d' = d.apply ((if accept then d.entry.sent else d.entry).finishTunnel.after
          [(.sendResponseBody d.entry.response false, accept)]) := by
        show d.apply (d.entry.flushPending accept) = _
        rw [StreamEntry.flushPending, if_neg hEmpty, hState]
      rw [hSame]
      refine ⟨tunnelInv_send hInv hState accept, fun hTunnelled => ?_⟩
      have hKept := (tunnelled_forwarding_iff hInv hState).mp hTunnelled
      refine (tunnelled_send hInv hState hKept hEmpty accept).trans ?_
      exact ⟨fun hEnd _ _ => hEnd, fun hEnd => hEnd hState hEmpty⟩
  · have hSame : d' = d := by
      show d.apply (d.entry.flushPending accept) = d
      rw [flushPending_other ?_ hState, apply_same]
      cases hInv.phase with
      | head hOther => rw [hOther]; simp
      | ignored hOther => rw [hOther]; simp
      | forwarding hOther => exact absurd hOther hState
      | done hOther => rw [hOther]; simp
    rw [hSame]
    exact ⟨hInv, fun hTunnelled => iff_of_true hTunnelled fun hOther => absurd hOther hState⟩

/-- One event. -/
theorem tunnel_step {d : Delivery} (event : DeliveryEvent) (hInv : d.TunnelInv waiting h body) :
    (d.step (h.message body) event).TunnelInv waiting h body ∧
      (d.Tunnelled h body →
        ((d.step (h.message body) event).Tunnelled h body ↔ event.KeepsTunnel h body d)) := by
  cases event with
  | read n accept =>
      rw [Delivery.step]
      split
      · next hIdle =>
          refine ⟨hInv, fun hTunnelled => iff_of_true hTunnelled ?_⟩
          have hNothing (hBackend : d.backend = true) : d.next (h.message body) n = [] := by
            rcases hIdle with hNone | hBlocked | hEmpty
            · exact absurd (hBackend.symm.trans hNone) (by simp)
            · exact absurd (hInv.unblocked.symm.trans hBlocked) (by simp)
            · exact hEmpty
          cases hInv.phase with
          | head hState _ _ _ _ hShort hBackend =>
              simp only [DeliveryEvent.KeepsTunnel, hState, hNothing hBackend, List.append_nil]
              exact fun hLong => absurd hShort (Nat.not_lt_of_lt hLong)
          | ignored hState hAccepted hBackend =>
              simp only [DeliveryEvent.KeepsTunnel, hState, hNothing hBackend, List.append_nil]
              exact (tunnelled_unsent_iff hInv.closed (.inr hState) hAccepted hBackend).mp hTunnelled
          | forwarding hState _ hBackend =>
              simp only [DeliveryEvent.KeepsTunnel, hState]
              exact fun hSome => absurd (hNothing hBackend) hSome
          | done hState => simp only [DeliveryEvent.KeepsTunnel, hState]
      · next hReads =>
          simp only [not_or, Bool.not_eq_false, Bool.not_eq_true] at hReads
          exact readTunnel hWell hInv accept hReads.1 hReads.2.2
  | backendClose accept =>
      rw [Delivery.step]
      split
      · exact ⟨hInv, fun hTunnelled => iff_of_true hTunnelled trivial⟩
      · next hCloses =>
          simp only [not_or, Bool.not_eq_false, not_not] at hCloses
          obtain ⟨hInv', hAfter⟩ := closeTunnel hInv accept hCloses.1 hCloses.2
          exact ⟨hInv', fun hTunnelled => iff_of_true (hAfter hTunnelled) trivial⟩
  | flush accept => exact flushTunnel hInv accept
  | writeError =>
      rw [Delivery.step]
      split
      · next hBackend =>
          refine ⟨tunnelInv_setDisconnected hInv, fun hTunnelled => ?_⟩
          exact iff_of_true (tunnelled_setDisconnected hInv hBackend hTunnelled) trivial
      · exact ⟨hInv, fun hTunnelled => iff_of_true hTunnelled trivial⟩
  | streamClose =>
      have hSame : (d.apply d.entry.cleanupStream).calls = d.calls := List.append_nil _
      refine ⟨⟨hInv.received, rfl, fun _ => rfl, .done rfl rfl ?_⟩, fun hTunnelled => ?_⟩
      · simp [Delivery.step, Delivery.apply, StreamEntry.cleanupStream]
      · refine iff_of_true ⟨?_, (fun hOpen => by cases hOpen), (fun hOpen => by cases hOpen)⟩ trivial
        exact hSame ▸ hTunnelled.inOrder

end

end PageCamel.Frontend.Http3

namespace PageCamel.Frontend
open PageCamel.Lib PageCamel.Lib.Http1

/-! ### Both handlers -/

/-- In every run of a tunnel, all that the backend sends after the head of its response
reaches the client in order and once, as far as it has been read, exactly if every step
meets the condition of its handler. -/
theorem tunnels_deliver_iff (http3Port : Option Octets) (waiting : Http3.Waiting)
    (request body : Octets) (h : ResponseHead) (events : List Http2.TunnelEvent)
    (events' : List Http3.DeliveryEvent) (hWell : h.WellFormed)
    (hStatus : h.status = octets "101") (hWaiting : waiting ≠ .request) :
    ((∀ seen, seen <+: events →
        (runEvents (Http2.Tunnel.step http3Port (h.message body)) (.start request)
          seen).Delivered h body) ↔
      Meets (Http2.Tunnel.step http3Port (h.message body))
        (fun t event => event.StopsAtHead h body t) (.start request) events) ∧
    ((∀ seen, seen <+: events' →
        (runEvents (Http3.Delivery.step (h.message body)) (.start waiting request)
          seen).Tunnelled h body) ↔
      Meets (Http3.Delivery.step (h.message body))
        (fun d event => event.KeepsTunnel h body d) (.start waiting request) events') := by
  constructor
  · refine Meets.iff_always (fun t => t.Inv h body) ?_ ?_ events
      (Http2.inv_startTunnel h request body) (Http2.delivered_startTunnel h request body)
    · exact fun t event hInv => hInv.step hWell hStatus http3Port event
    · exact fun t event => Http2.delivered_step hWell hStatus http3Port event
  · refine Meets.iff_always (fun d => d.TunnelInv waiting h body) ?_ ?_ events'
      (Http3.tunnelInv_start hWaiting h request body) (Http3.tunnelled_start h request body)
    · exact fun d event hInv => (Http3.tunnel_step hWell event hInv).1
    · exact fun d event hInv => (Http3.tunnel_step hWell event hInv).2

theorem tunnels_deliver_iff_split :
    let head := Http3.switchingHead
    let body := octets "hello"
    ((∀ seen, seen <+: [Http2.TunnelEvent.read 56, .read 5, .backendClose] →
        (runEvents (Http2.Tunnel.step none (head.message body)) (.start []) seen).Delivered
          head body) ↔
      Meets (Http2.Tunnel.step none (head.message body))
        (fun t event => event.StopsAtHead head body t) (.start [])
        [.read 56, .read 5, .backendClose]) ∧
    ((∀ seen, seen <+: [Http3.DeliveryEvent.read 60 true, .read 3 false, .flush true] →
        (runEvents (Http3.Delivery.step (head.message body)) (.start .upgrade []) seen).Tunnelled
          head body) ↔
      Meets (Http3.Delivery.step (head.message body))
        (fun d event => event.KeepsTunnel head body d) (.start .upgrade [])
        [.read 60 true, .read 3 false, .flush true]) :=
  tunnels_deliver_iff none .upgrade [] (octets "hello") Http3.switchingHead
    [.read 56, .read 5, .backendClose] [.read 60 true, .read 3 false, .flush true]
    ⟨by decide, by decide, by decide, by decide⟩ rfl (by decide)

/-- The backend is fast: its first data comes with the head, and the HTTP/2 handler
drops it. The HTTP/3 handler never opens a tunnel that had to wait for a backend. -/
theorem tunnels_drop :
    let head := Http3.switchingHead
    let body := octets "hello"
    let t := runEvents (Http2.Tunnel.step none (head.message body)) (.start []) [.read 65536]
    let d := runEvents (Http3.Delivery.step (head.message body)) (.start .queuedUpgrade [])
      [.read 65536 true, .flush true, .backendClose true]
    head.WellFormed ∧ head.status = octets "101" ∧
      (t.received = head.message body ∧ t.relay.payload = [] ∧ ¬ t.Delivered head body) ∧
      (d.received = head.message body ∧ d.calls = [] ∧ ¬ d.Tunnelled head body) := by
  have hRead : (runEvents (Http2.Tunnel.step none (Http3.switchingHead.message (octets "hello")))
      (.start []) [.read 65536]).received = Http3.switchingHead.message (octets "hello") ∧
      (runEvents (Http2.Tunnel.step none (Http3.switchingHead.message (octets "hello")))
        (.start []) [.read 65536]).relay.payload = [] := by decide +kernel
  have hQueued : (runEvents (Http3.Delivery.step (Http3.switchingHead.message (octets "hello")))
      (.start .queuedUpgrade []) [.read 65536 true, .flush true, .backendClose true]).received =
        Http3.switchingHead.message (octets "hello") ∧
      (runEvents (Http3.Delivery.step (Http3.switchingHead.message (octets "hello")))
        (.start .queuedUpgrade []) [.read 65536 true, .flush true, .backendClose true]).calls = [] ∧
      (runEvents (Http3.Delivery.step (Http3.switchingHead.message (octets "hello")))
        (.start .queuedUpgrade []) [.read 65536 true, .flush true, .backendClose true]).closed =
          false := by decide +kernel
  refine ⟨⟨by decide, by decide, by decide, by decide⟩, rfl, ⟨hRead.1, hRead.2, fun hDelivered => ?_⟩,
    ⟨hQueued.1, hQueued.2.1, fun hTunnelled => ?_⟩⟩
  · have hLost := hDelivered.payload
    rw [hRead.1, hRead.2, Http3.drop_message] at hLost
    cases hLost
  · have hLost := hTunnelled.delivered hQueued.2.2
    rw [hQueued.1, hQueued.2.1, Http3.drop_message] at hLost
    revert hLost
    decide +kernel

end PageCamel.Frontend

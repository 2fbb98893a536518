import PageCamel.Frontend.Tunnels

/-!
What the client is answered to an extended CONNECT. The HTTP/2 handler looks at the status
of the backend. The HTTP/3 handler takes any response for the tunnel once it has marked the
stream, and never looks at the response of a backend the request had to wait for.
-/

namespace PageCamel.Frontend
open PageCamel.Lib PageCamel.Lib.Http1

/-- The status the client is to be sent: 200 for a tunnel, the status of the backend for a
refusal. -/
def answerOf (status : Octets) : Octets :=
  if status = octets "101" then octets "200" else status

namespace Http2

/-- The status of a call that sends a head. -/
def Call.status : Call → Option Octets
  | .response status _ _ => some status
  | .responseStream status _ => some status
  | .tunnelResponse _ => some (octets "200")
  | .send _ | .close => none

def Relay.statuses (r : Relay) : List Octets := r.calls.filterMap Call.status

/-- The stream is in tunnel mode. -/
def Relay.tunnels (r : Relay) : Bool := r.entry.state = some .tunnel

/-- The response, read in these pieces, is answered to the client as it should be. -/
def AnswersUpgrade (http3Port : Option Octets) (request : Octets) (h : ResponseHead)
    (bufs : List Octets) : Prop :=
  let run := (Relay.start true request).reads http3Port
  ((∃ front, front <+: bufs ∧ (run front).tunnels = true) ↔ h.status = octets "101") ∧
    ((run bufs).read http3Port none).statuses = [answerOf h.status]

/-- Before and after the end of the head. -/
inductive Relay.Upgrade (h : ResponseHead) (received : Octets) (r : Relay) : Prop
  | pending (hShort : received.length < headLength h)
      (hState : r.entry.state = some .tunnelPending) (hResponse : r.entry.response = received)
      (hLive : r.released = false) (hCalls : r.calls = [])
  | opened (hLong : headLength h ≤ received.length) (hStatus : h.status = octets "101")
      (hState : r.entry.state = some .tunnel) (hTunnel : r.entry.tunnel = true)
      (hLive : r.released = false) (hStatuses : r.statuses = [octets "200"])
  | refused (hLong : headLength h ≤ received.length) (hStatus : h.status ≠ octets "101")
      (hState : r.entry.state = none) (hReleased : r.released = true)
      (hStatuses : r.statuses = [h.status])

section
variable {h : ResponseHead} (hWell : h.WellFormed) (http3Port : Option Octets)
include hWell

/-- The read that brings the response to these octets, the request being pending. -/
theorem upgrade_head {received more body : Octets} {r : Relay}
    (hPrefix : received ++ more = h.message body) {buf : Octets}
    (hResponse : r.entry.response ++ buf = received)
    (hState : r.entry.state = some .tunnelPending) (hLive : r.released = false)
    (hCalls : r.calls = []) : (r.read http3Port (some buf)).Upgrade h received := by
  have hSame : (r.entry.appendResponse buf).response = received := hResponse
  have hPending : (r.entry.appendResponse buf).state = some .tunnelPending := hState
  have hRead := @handleBackendData_head true _ hWell http3Port _ _ _ _ _ hPrefix hSame hState
  by_cases hShort : received.length < headLength h
  · rw [if_pos hShort] at hRead
    rw [read_eq hLive http3Port (some buf) hRead]
    exact .pending hShort hPending hSame rfl (by rw [hCalls]; rfl)
  · have hLong := Nat.le_of_not_lt hShort
    rw [if_neg hShort, processBackendResponse_eq hWell http3Port (by rw [hSame]; exact hPrefix)
      (by rw [hSame]; exact hLong)] at hRead
    dsimp only at hRead
    rw [if_pos hPending] at hRead
    rw [read_eq hLive http3Port (some buf) hRead, hCalls]
    by_cases hStatus : h.status = octets "101"
    · rw [if_pos hStatus]
      exact .opened hLong hStatus rfl rfl rfl rfl
    · rw [if_neg hStatus]
      exact .refused hLong hStatus rfl rfl rfl

theorem upgrade_read {received buf more body : Octets} {r : Relay}
    (hPrefix : received ++ buf ++ more = h.message body) (hUpgrade : r.Upgrade h received) :
    (r.read http3Port (some buf)).Upgrade h (received ++ buf) := by
  have hLonger : received.length ≤ (received ++ buf).length := by simp
  cases hUpgrade with
  | pending _ hState hResponse hLive hCalls =>
      exact upgrade_head hWell http3Port hPrefix (by rw [hResponse]) hState hLive hCalls
  | opened hLong hStatus hState hTunnel hLive hStatuses =>
      rw [read_forwards http3Port hLive hState hTunnel]
      refine .opened (hLong.trans hLonger) hStatus hState hTunnel hLive ?_
      rw [Relay.statuses] at hStatuses
      simp [Relay.statuses, hStatuses, Call.status]
  | refused hLong hStatus hState hReleased hStatuses =>
      rw [Relay.read, if_pos hReleased]
      exact .refused (hLong.trans hLonger) hStatus hState hReleased hStatuses

theorem upgrade_reads (request : Octets) {body : Octets} (bufs : List Octets) (more : Octets)
    (hPrefix : bufs.flatten ++ more = h.message body) :
    ((Relay.start true request).reads http3Port bufs).Upgrade h bufs.flatten := by
  induction bufs using List.reverseRecOn generalizing more with
  | nil => exact .pending (headLength_pos h) rfl rfl rfl rfl
  | append_singleton front buf ih =>
      rw [List.flatten_concat] at hPrefix ⊢
      rw [reads_append]
      apply upgrade_read hWell http3Port hPrefix
      apply ih (buf ++ more)
      rw [← List.append_assoc]
      exact hPrefix

omit hWell in
theorem Relay.Upgrade.statuses_close {received : Octets} {r : Relay}
    (hUpgrade : r.Upgrade h received) (hLong : headLength h ≤ received.length) :
    (r.read http3Port none).statuses = [answerOf h.status] := by
  cases hUpgrade with
  | pending hShort => exact absurd hLong (Nat.not_le_of_lt hShort)
  | opened _ hStatus _ hTunnel hLive hStatuses =>
      have hTunnel' : r.entry.setDisconnected.tunnel = true := hTunnel
      rw [read_eq hLive http3Port none rfl, answerOf, if_pos hStatus]
      rw [Relay.statuses] at hStatuses
      simp [Relay.statuses, hStatuses, StreamEntry.handleBackendData, StreamEntry.cleanupStream,
        hTunnel', Call.status]
  | refused _ hStatus _ hReleased hStatuses =>
      rw [Relay.read, if_pos hReleased, answerOf, if_neg hStatus]
      exact hStatuses

omit hWell in
theorem Relay.Upgrade.of_tunnels {received : Octets} {r : Relay} (hUpgrade : r.Upgrade h received)
    (hTunnels : r.tunnels = true) : h.status = octets "101" := by
  rw [Relay.tunnels, decide_eq_true_eq] at hTunnels
  cases hUpgrade with
  | pending _ hState => rw [hState] at hTunnels; cases hTunnels
  | opened _ hStatus => exact hStatus
  | refused _ _ hState => rw [hState] at hTunnels; cases hTunnels

/-- The HTTP/2 handler answers every upgrade as it should. -/
theorem answersUpgrade (request : Octets) {body : Octets} {bufs : List Octets}
    (hCut : bufs.flatten = h.message body) : AnswersUpgrade http3Port request h bufs := by
  have hAll : ((Relay.start true request).reads http3Port bufs).Upgrade h bufs.flatten :=
    upgrade_reads hWell http3Port request bufs [] (by rw [hCut, List.append_nil])
  have hLong : headLength h ≤ bufs.flatten.length := by
    rw [hCut]
    exact headLength_le_message h body
  refine ⟨⟨?_, ?_⟩, hAll.statuses_close http3Port hLong⟩
  · rintro ⟨front, ⟨rest, rfl⟩, hTunnels⟩
    rw [List.flatten_append] at hCut
    exact (upgrade_reads hWell http3Port request front rest.flatten hCut).of_tunnels hTunnels
  · intro hStatus
    refine ⟨bufs, List.prefix_refl bufs, ?_⟩
    rw [Relay.tunnels, decide_eq_true_eq]
    cases hAll with
    | pending hShort => exact absurd hLong (Nat.not_le_of_lt hShort)
    | opened _ _ hState => exact hState
    | refused _ hOther => exact absurd hStatus hOther

end

end Http2

namespace Http3

def Call.status : Call → Option Nat
  | .sendResponse status _ _ => some status
  | .sendResponseHeaders status _ => some status
  | .sendResponseBody _ _ => none

/-- The statuses of the heads the connection was given. -/
def statuses (calls : List (Call × Bool)) : List Nat := calls.filterMap fun c => c.1.status

/-- The stream is in tunnel mode. -/
def Delivery.tunnels (d : Delivery) : Bool := d.entry.state = some .tunnelActive

/-- The response, read in the course of these events, is answered to the client as it
should be, at the latest when the backend closes. -/
def AnswersUpgrade (waiting : Waiting) (request : Octets) (h : ResponseHead) (body : Octets)
    (events : List DeliveryEvent) (accept : Bool) : Prop :=
  let run := runEvents (Delivery.step (h.message body)) (Delivery.start waiting request)
  ((∃ front, front <+: events ∧ (run front).tunnels = true) ↔ h.status = octets "101") ∧
    statuses ((run events).step (h.message body) (.backendClose accept)).calls =
      [digitsValue (answerOf h.status)]

/-- What a stream for an upgrade does with a response: nothing if it was queued, or else
it opens a tunnel, whatever the status. Once the stream is gone, `switched` says that it was
in tunnel mode before. -/
inductive Delivery.Upgrade (waiting : Waiting) (h : ResponseHead) (switched : Prop)
    (d : Delivery) : Prop
  | queued (hWaiting : waiting = .queuedUpgrade)
      (hState : d.entry.state = some .tunnelPending ∨ d.entry.state = none)
      (hStatuses : statuses d.calls = [])
  | pending (hWaiting : waiting = .upgrade) (hState : d.entry.state = some .waitingResponse)
      (hStatuses : statuses d.calls = [])
  | opened (hWaiting : waiting = .upgrade) (hState : d.entry.state = some .tunnelActive)
      (hStatuses : statuses d.calls = [200])
  | finished (hWaiting : waiting = .upgrade) (hState : d.entry.state = none)
      (hStatuses : statuses d.calls = [200] ∧ switched ∨
        statuses d.calls = [] ∧ d.received.length < headLength h)

theorem statuses_append (calls calls' : List (Call × Bool)) :
    statuses (calls ++ calls') = statuses calls ++ statuses calls' := by
  simp [statuses]

/-! What one turn does, by the state of the stream -/

/-- Nothing is done for a stream that is queued or gone. -/
def StreamEntry.Ignores (e : StreamEntry) : Prop :=
  e.state = some .tunnelPending ∨ e.state = none

theorem processBackendResponse_ignored {e : StreamEntry} (h : e.Ignores) (accept : Bool) :
    e.processBackendResponse accept = { entry := e } := by
  rw [StreamEntry.processBackendResponse]
  rcases h with hState | hState <;> rw [hState]

theorem flushPending_ignored {e : StreamEntry} (h : e.Ignores) (accept : Bool) :
    e.flushPending accept = { entry := e } := by
  apply flushPending_other <;> rcases h with hState | hState <;> rw [hState] <;> simp

/-- The outcome sends no head and leaves the tunnel open or the stream gone. -/
def Outcome.Forwards (o : Outcome) : Prop :=
  statuses o.calls = [] ∧ (o.entry.state = some .tunnelActive ∨ o.entry.state = none)

theorem finishTunnel_forwards {e : StreamEntry} (hState : e.state = some .tunnelActive) :
    e.finishTunnel.Forwards := by
  rw [StreamEntry.finishTunnel]
  split
  · exact ⟨rfl, .inr rfl⟩
  · exact ⟨rfl, .inl hState⟩

theorem sendKept_forwards {e : StreamEntry} (hState : e.state = some .tunnelActive) (data : Octets)
    (accept : Bool) :
    ((if accept then e.sent else e).finishTunnel.after
      [(.sendResponseBody data false, accept)]).Forwards := by
  have hSame : (if accept then e.sent else e).state = some .tunnelActive := by
    cases accept <;> exact hState
  obtain ⟨hCalls, hAfter⟩ := finishTunnel_forwards hSame
  refine ⟨?_, hAfter⟩
  rw [Outcome.after, statuses_append, hCalls]
  rfl

theorem processBackendResponse_forwards {e : StreamEntry} (hState : e.state = some .tunnelActive)
    (accept : Bool) : (e.processBackendResponse accept).Forwards := by
  rw [StreamEntry.processBackendResponse, hState]
  dsimp only
  split
  · exact sendKept_forwards hState e.response accept
  · exact finishTunnel_forwards hState

theorem flushPending_forwards {e : StreamEntry} (hState : e.state = some .tunnelActive)
    (accept : Bool) : (e.flushPending accept).Forwards := by
  rw [StreamEntry.flushPending, hState]
  split
  · exact ⟨rfl, .inl hState⟩
  · exact sendKept_forwards hState e.response accept

section
variable {waiting : Waiting} {h : ResponseHead} {body : Octets} {switched : Prop}

theorem upgrade_forwards {d : Delivery} {o : Outcome} (hWaiting : waiting = .upgrade)
    (hStatuses : statuses d.calls = [200]) (hSwitched : switched) (ho : o.Forwards) :
    (d.apply o).Upgrade waiting h switched := by
  have hAfter : statuses (d.apply o).calls = [200] := by
    rw [Delivery.apply, statuses_append, hStatuses, ho.1]
    rfl
  rcases ho.2 with hState | hState
  · exact .opened hWaiting hState hAfter
  · exact .finished hWaiting hState (.inl ⟨hAfter, hSwitched⟩)

/-- The read that brings the response to these octets, the stream being marked. -/
theorem upgrade_processHead (hWell : h.WellFormed) {d : Delivery}
    (hReceived : d.received <+: h.message body) (hWaiting : waiting = .upgrade)
    (hState : d.entry.state = some .waitingResponse) (hStatuses : statuses d.calls = [])
    (hResponse : d.entry.response = d.received) (hPending : d.entry.tunnelPending = true)
    (accept : Bool) : (d.apply (d.entry.processHead accept)).Upgrade waiting h switched := by
  obtain ⟨more, hMore⟩ := hReceived
  have hPrefix : d.entry.response ++ more = h.message body := by
    rw [hResponse]
    exact hMore
  by_cases hShort : d.entry.response.length < headLength h
  · rw [processHead_short hWell hPrefix hShort, apply_same]
    exact .pending hWaiting hState hStatuses
  · rw [processHead_eq hWell hPrefix (Nat.le_of_not_lt hShort)]
    dsimp only
    rw [if_pos (.inl hPending)]
    apply Delivery.Upgrade.opened hWaiting
    · rfl
    · rw [Delivery.apply, statuses_append, hStatuses, StreamEntry.openTunnel]
      dsimp only
      split <;> rfl

theorem upgrade_read (hWell : h.WellFormed) {d : Delivery} (hInv : d.TunnelInv waiting h body)
    (hUpgrade : d.Upgrade waiting h switched) (hOpen : d.tunnels = true → switched) (n : Nat)
    (accept : Bool) :
    (d.step (h.message body) (.read n accept)).Upgrade waiting h switched := by
  rw [Delivery.step]
  split
  · exact hUpgrade
  · next hReads =>
      simp only [not_or, Bool.not_eq_false, Bool.not_eq_true] at hReads
      obtain ⟨hBackend, hUnblocked, _⟩ := hReads
      have hReceived := received_next_prefix hInv.received n
      rw [StreamEntry.handleBackendData, if_neg (by rw [hUnblocked]; simp)]
      generalize d.next (h.message body) n = buf at hReceived
      let d₁ : Delivery := { d.receive buf with entry := d.entry.appendResponse buf }
      show (d₁.apply (d₁.entry.processBackendResponse accept)).Upgrade waiting h switched
      cases hUpgrade with
      | queued hWaiting hState hStatuses =>
          have hIgnores : d₁.entry.Ignores := hState
          rw [processBackendResponse_ignored hIgnores, apply_same]
          exact .queued hWaiting hState hStatuses
      | pending hWaiting hState hStatuses =>
          have hState₁ : d₁.entry.state = some .waitingResponse := hState
          rw [StreamEntry.processBackendResponse, hState₁]
          obtain ⟨hResponse, hPending, _⟩ := hInv.waits hState
          exact upgrade_processHead (d := d₁) hWell hReceived hWaiting hState hStatuses
            (congrArg (· ++ buf) hResponse) hPending accept
      | opened hWaiting hState hStatuses =>
          have hState₁ : d₁.entry.state = some .tunnelActive := hState
          exact upgrade_forwards hWaiting hStatuses (hOpen (decide_eq_true hState))
            (processBackendResponse_forwards hState₁ accept)
      | finished hWaiting hState hStatuses =>
          rw [hInv.gone hState] at hBackend
          cases hBackend

theorem upgrade_flush {d : Delivery} (hUpgrade : d.Upgrade waiting h switched)
    (hOpen : d.tunnels = true → switched) (accept : Bool) :
    (d.apply (d.entry.flushPending accept)).Upgrade waiting h switched := by
  cases hUpgrade with
  | queued hWaiting hState hStatuses =>
      rw [flushPending_ignored hState, apply_same]
      exact .queued hWaiting hState hStatuses
  | pending hWaiting hState hStatuses =>
      rw [flushPending_other (by rw [hState]; simp) (by rw [hState]; simp), apply_same]
      exact .pending hWaiting hState hStatuses
  | opened hWaiting hState hStatuses =>
      exact upgrade_forwards hWaiting hStatuses (hOpen (decide_eq_true hState))
        (flushPending_forwards hState accept)
  | finished hWaiting hState hStatuses =>
      rw [flushPending_ignored (.inr hState), apply_same]
      exact .finished hWaiting hState hStatuses

theorem upgrade_setDisconnected {d : Delivery} (hUpgrade : d.Upgrade waiting h switched) :
    ({ d with entry := d.entry.setDisconnected } : Delivery).Upgrade waiting h switched := by
  cases hUpgrade with
  | queued hWaiting hState hStatuses => exact .queued hWaiting hState hStatuses
  | pending hWaiting hState hStatuses => exact .pending hWaiting hState hStatuses
  | opened hWaiting hState hStatuses => exact .opened hWaiting hState hStatuses
  | finished hWaiting hState hStatuses => exact .finished hWaiting hState hStatuses

theorem upgrade_close {d : Delivery} (hInv : d.TunnelInv waiting h body)
    (hUpgrade : d.Upgrade waiting h switched) (hOpen : d.tunnels = true → switched)
    (accept : Bool) :
    (d.step (h.message body) (.backendClose accept)).Upgrade waiting h switched := by
  rw [Delivery.step]
  split
  · exact hUpgrade
  · next hCloses =>
      simp only [not_or, Bool.not_eq_false, not_not] at hCloses
      obtain ⟨hBackend, hAll⟩ := hCloses
      rw [StreamEntry.handleBackendData, if_neg (by rw [hInv.unblocked]; simp)]
      let d₁ : Delivery := { d with entry := d.entry.setDisconnected }
      show (d₁.apply (d₁.entry.processBackendResponse accept)).Upgrade waiting h switched
      have hUpgrade₁ : d₁.Upgrade waiting h switched := upgrade_setDisconnected hUpgrade
      cases hUpgrade₁ with
      | queued hWaiting hState hStatuses =>
          rw [processBackendResponse_ignored hState, apply_same]
          exact .queued hWaiting hState hStatuses
      | pending hWaiting hState =>
          -- the whole response has been read, so the stream does not wait any more
          have hShort := (hInv.waits hState).2.2
          rw [hAll] at hShort
          exact absurd (headLength_le_message h body) (Nat.not_le_of_lt hShort)
      | opened hWaiting hState hStatuses =>
          exact upgrade_forwards hWaiting hStatuses (hOpen (decide_eq_true hState))
            (processBackendResponse_forwards hState accept)
      | finished hWaiting hState hStatuses =>
          rw [hInv.gone hState] at hBackend
          cases hBackend

theorem upgrade_streamClose {d : Delivery} (hInv : d.TunnelInv waiting h body)
    (hUpgrade : d.Upgrade waiting h switched) (hOpen : d.tunnels = true → switched) :
    (d.step (h.message body) .streamClose).Upgrade waiting h switched := by
  have hCalls : statuses (d.step (h.message body) .streamClose).calls = statuses d.calls := by
    simp [Delivery.step, Delivery.apply, StreamEntry.cleanupStream]
  cases hUpgrade with
  | queued hWaiting _ hStatuses => exact .queued hWaiting (.inr rfl) (hCalls.trans hStatuses)
  | pending hWaiting hState hStatuses =>
      exact .finished hWaiting rfl (.inr ⟨hCalls.trans hStatuses, (hInv.waits hState).2.2⟩)
  | opened hWaiting hState hStatuses =>
      exact .finished hWaiting rfl (.inl ⟨hCalls.trans hStatuses, hOpen (decide_eq_true hState)⟩)
  | finished hWaiting _ hStatuses =>
      apply Delivery.Upgrade.finished hWaiting rfl
      rw [hCalls]
      exact hStatuses

theorem upgrade_step (hWell : h.WellFormed) {d : Delivery} (hInv : d.TunnelInv waiting h body)
    (hUpgrade : d.Upgrade waiting h switched) (hOpen : d.tunnels = true → switched)
    (event : DeliveryEvent) :
    (d.step (h.message body) event).Upgrade waiting h switched := by
  cases event with
  | read n accept => exact upgrade_read hWell hInv hUpgrade hOpen n accept
  | backendClose accept => exact upgrade_close hInv hUpgrade hOpen accept
  | flush accept => exact upgrade_flush hUpgrade hOpen accept
  | writeError =>
      rw [Delivery.step]
      split
      · exact upgrade_setDisconnected hUpgrade
      · exact hUpgrade
  | streamClose => exact upgrade_streamClose hInv hUpgrade hOpen

/-- The stream was in tunnel mode at some time of the run. -/
def Switched (waiting : Waiting) (request message : Octets) (events : List DeliveryEvent) : Prop :=
  ∃ front, front <+: events ∧
    (runEvents (Delivery.step message) (Delivery.start waiting request) front).tunnels = true

theorem Switched.append {request message : Octets} {events : List DeliveryEvent}
    (hSwitched : Switched waiting request message events) (more : List DeliveryEvent) :
    Switched waiting request message (events ++ more) := by
  obtain ⟨front, hFront, hTunnels⟩ := hSwitched
  exact ⟨front, hFront.trans (List.prefix_append events more), hTunnels⟩

theorem Delivery.Upgrade.mono {d : Delivery} {switched' : Prop} (hMono : switched → switched')
    (hUpgrade : d.Upgrade waiting h switched) : d.Upgrade waiting h switched' := by
  cases hUpgrade with
  | queued hWaiting hState hStatuses => exact .queued hWaiting hState hStatuses
  | pending hWaiting hState hStatuses => exact .pending hWaiting hState hStatuses
  | opened hWaiting hState hStatuses => exact .opened hWaiting hState hStatuses
  | finished hWaiting hState hStatuses =>
      exact .finished hWaiting hState (hStatuses.imp_left fun hOver => ⟨hOver.1, hMono hOver.2⟩)

theorem upgrade_start (hWaiting : waiting ≠ .request) (request : Octets) :
    (Delivery.start waiting request).Upgrade waiting h switched := by
  cases waiting with
  | request => exact absurd rfl hWaiting
  | upgrade => exact .pending rfl rfl rfl
  | queuedUpgrade => exact .queued rfl (.inl rfl) rfl

theorem upgrade_run (hWell : h.WellFormed) (hWaiting : waiting ≠ .request) (request : Octets)
    (events : List DeliveryEvent) :
    let d := runEvents (Delivery.step (h.message body)) (Delivery.start waiting request) events
    d.TunnelInv waiting h body ∧
      d.Upgrade waiting h (Switched waiting request (h.message body) events) := by
  induction events using List.reverseRecOn with
  | nil => exact ⟨tunnelInv_start hWaiting h request body, upgrade_start hWaiting request⟩
  | append_singleton events event ih =>
      obtain ⟨hInv, hUpgrade⟩ := ih
      rw [runEvents_append, runEvents_singleton]
      refine ⟨(tunnel_step hWell event hInv).1, ?_⟩
      have hOpen := fun hTunnels : (runEvents (Delivery.step (h.message body))
          (Delivery.start waiting request) events).tunnels = true =>
        (⟨events, List.prefix_refl events, hTunnels⟩ :
          Switched waiting request (h.message body) events)
      apply (upgrade_step hWell hInv hUpgrade hOpen event).mono
      intro hSwitched
      exact hSwitched.append [event]

/-- A response that has been read to its end is answered with a tunnel, or not at all. -/
theorem upgrade_answered (hWell : h.WellFormed) (hWaiting : waiting ≠ .request)
    (request : Octets) (events : List DeliveryEvent) {d : Delivery}
    (hRun : runEvents (Delivery.step (h.message body)) (Delivery.start waiting request) events = d)
    (hRead : d.received = h.message body) :
    waiting = .upgrade ∧ Switched waiting request (h.message body) events ∧
        statuses d.calls = [200] ∨
      waiting = .queuedUpgrade ∧ statuses d.calls = [] := by
  obtain ⟨hInv, hUpgrade⟩ := @upgrade_run waiting h body hWell hWaiting request events
  rw [hRun] at hInv hUpgrade
  have hLong : ¬ d.received.length < headLength h := by
    rw [hRead]
    exact Nat.not_lt_of_le (headLength_le_message h body)
  cases hUpgrade with
  | queued hQueued _ hStatuses => exact .inr ⟨hQueued, hStatuses⟩
  | pending _ hState => exact absurd (hInv.waits hState).2.2 hLong
  | opened hUpgraded hState hStatuses =>
      have hTunnels : d.tunnels = true := decide_eq_true hState
      exact .inl ⟨hUpgraded, ⟨events, List.prefix_refl events, hRun ▸ hTunnels⟩, hStatuses⟩
  | finished hUpgraded _ hStatuses =>
      rcases hStatuses with ⟨hStatuses, hSwitched⟩ | ⟨_, hShort⟩
      · exact .inl ⟨hUpgraded, hSwitched, hStatuses⟩
      · exact absurd hShort hLong

theorem received_backendClose (message : Octets) (d : Delivery) (accept : Bool) :
    (d.step message (.backendClose accept)).received = d.received := by
  rw [Delivery.step]
  split <;> rfl

theorem answersUpgrade_iff (hWell : h.WellFormed) (hWaiting : waiting ≠ .request)
    (request : Octets) (events : List DeliveryEvent) (accept : Bool)
    (hRead : (runEvents (Delivery.step (h.message body)) (Delivery.start waiting request)
      events).received = h.message body) :
    AnswersUpgrade waiting request h body events accept ↔
      waiting = .upgrade ∧ h.status = octets "101" := by
  have hClose : runEvents (Delivery.step (h.message body)) (Delivery.start waiting request)
      (events ++ [.backendClose accept]) =
        (runEvents (Delivery.step (h.message body)) (Delivery.start waiting request)
          events).step (h.message body) (.backendClose accept) := by
    rw [runEvents_append, runEvents_singleton]
  have hAfter := upgrade_answered hWell hWaiting request _ hClose
    ((received_backendClose _ _ accept).trans hRead)
  constructor
  · rintro ⟨hSwitch, hStatuses⟩
    rcases hAfter with ⟨hUpgraded, -, -⟩ | ⟨-, hNone⟩
    · refine ⟨hUpgraded, hSwitch.mp ?_⟩
      rcases upgrade_answered hWell hWaiting request events rfl hRead with
        ⟨-, hSwitched, -⟩ | ⟨hQueued, -⟩
      · exact hSwitched
      · rw [hUpgraded] at hQueued
        cases hQueued
    · rw [hNone] at hStatuses
      cases hStatuses
  · rintro ⟨hUpgraded, hStatus⟩
    subst hUpgraded
    rcases hAfter with ⟨-, -, hStatuses⟩ | ⟨hQueued, -⟩
    · refine ⟨iff_of_true ?_ hStatus, ?_⟩
      · rcases upgrade_answered hWell hWaiting request events rfl hRead with
          ⟨-, hSwitched, -⟩ | ⟨hQueued, -⟩
        · exact hSwitched
        · cases hQueued
      · rw [hStatuses, answerOf, if_pos hStatus]
        rfl
    · cases hQueued

end

end Http3

/-- In every run that reads the whole response to an extended CONNECT, the HTTP/2 handler
answers as it should, and the HTTP/3 handler exactly when the request did not have to wait
for a backend and the backend switches protocols. -/
theorem upgrades_answered_iff (http3Port : Option Octets) (waiting : Http3.Waiting)
    (request body : Octets) (h : ResponseHead) (bufs : List Octets)
    (events : List Http3.DeliveryEvent) (accept : Bool) (hWell : h.WellFormed)
    (hWaiting : waiting ≠ .request) (hCut : bufs.flatten = h.message body)
    (hRead : (runEvents (Http3.Delivery.step (h.message body)) (.start waiting request)
      events).received = h.message body) :
    Http2.AnswersUpgrade http3Port request h bufs ∧
      (Http3.AnswersUpgrade waiting request h body events accept ↔
        waiting = .upgrade ∧ h.status = octets "101") :=
  ⟨Http2.answersUpgrade hWell http3Port request hCut,
    Http3.answersUpgrade_iff hWell hWaiting request events accept hRead⟩

/-- A backend that does not let the client in. -/
def forbiddenHead : ResponseHead :=
  ⟨octets "403", octets "Forbidden", [(octets "Content-Length", octets " 2")]⟩

theorem upgrades_answered_iff_forbidden :
    Http2.AnswersUpgrade none [] forbiddenHead
        [(forbiddenHead.message (octets "no")).take 20,
          (forbiddenHead.message (octets "no")).drop 20] ∧
      (Http3.AnswersUpgrade .upgrade [] forbiddenHead (octets "no")
          [.read 20 true, .read 100 true] true ↔
        Http3.Waiting.upgrade = .upgrade ∧ forbiddenHead.status = octets "101") := by
  refine upgrades_answered_iff none .upgrade [] (octets "no") forbiddenHead _ _ true
    ⟨by decide, by decide, by decide, by decide⟩ (by decide) ?_ ?_
  · simp
  · decide +kernel

/-- The HTTP/3 handler lets it in: the refusal becomes a tunnel with status 200. -/
theorem forbidden_becomes_tunnel :
    ¬ ∀ (request body : Octets) (h : ResponseHead) (events : List Http3.DeliveryEvent)
        (accept : Bool), h.WellFormed →
      (runEvents (Http3.Delivery.step (h.message body)) (.start .upgrade request)
        events).received = h.message body →
      Http3.AnswersUpgrade .upgrade request h body events accept := by
  intro hAll
  have hAnswers := hAll [] (octets "no") forbiddenHead [.read 100 true] true
    ⟨by decide, by decide, by decide, by decide⟩ (by decide +kernel)
  have hSwitched := hAnswers.1.mp ⟨[.read 100 true], List.prefix_refl _, by decide +kernel⟩
  revert hSwitched
  decide

end PageCamel.Frontend

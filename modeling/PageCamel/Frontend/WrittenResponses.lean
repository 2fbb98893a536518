import PageCamel.Frontend.RelayedOctets

/-!
What the client is sent of a response. Where HTTP/3 is offered on the port, the Alt-Svc
field goes into the first head, and nothing is written until that is done; elsewhere the
response goes out as it is.
-/

namespace PageCamel.Frontend.SocketRelay
open PageCamel.Lib PageCamel.Lib.Http1

/-- Only what was read from the backend was appended for the client. -/
def Relay.FairToClient (r : Relay) : Prop := r.client.appended = r.backend.read

/-- The client's socket is read first and gets octets, and reading from the backend fails. -/
def Relay.Echoes (r : Relay) (connections : List (Peer × ReadOutcome)) : Prop :=
  ∃ data, connections = [(.client, .octets data), (.backend, .failed)] ∧
    data ≠ [] ∧ r.held .client = false ∧ r.held .backend = false

/-- The turn does not append for the client what it has read from the client. -/
def KeepsApart (r : Relay) (t : Turn) : Prop := r.done = false → ¬ r.Echoes t.connections

theorem run_fairToClient {http3Port : Option Octets} {turns : List Turn} {r : Relay}
    (hFair : r.FairToClient) (hApart : Meets (Relay.step http3Port) KeepsApart r turns) :
    (runEvents (Relay.step http3Port) r turns).FairToClient := by
  apply Meets.invariant hFair _ hApart
  intro r t (hFair : r.FairFrom .backend) hApart
  exact step_fairFrom hFair hApart

/-! ### Prefixes of the response -/

/-- Once the head is there, what follows does not move the field. -/
theorem announced_prefix {http3Port : Option Octets} {read response : Octets}
    (hRead : read <+: response)
    (hFound : http3Port.isSome = true → (indexOf headEnd read).isSome = true) :
    announced http3Port read <+: announced http3Port response := by
  obtain ⟨more, rfl⟩ := hRead
  cases http3Port with
  | none => exact List.prefix_append read more
  | some lport =>
      rw [announced_append (hFound rfl)]
      exact List.prefix_append _ more

theorem Relay.Kept.nothing_sent {http3Port : Option Octets} {overhead : Octets} {r : Relay}
    (h : r.Kept http3Port overhead) (hPort : http3Port.isSome = true)
    (hNone : indexOf headEnd r.client.appended = none) : r.client.sent = [] := by
  cases hInjected : r.altSvcInjected with
  | false => exact (h.pending hPort hInjected).1
  | true =>
      have hSome := h.injected hInjected
      rw [hNone] at hSome
      exact absurd hSome Bool.false_ne_true

theorem Relay.Kept.sent_prefix {http3Port : Option Octets} {overhead : Octets} {r : Relay}
    (h : r.Kept http3Port overhead) {response : Octets} (hRead : r.client.appended <+: response) :
    r.client.sent <+: announced http3Port response := by
  have hSent : r.client.sent <+: announced http3Port r.client.appended :=
    ⟨r.toclientbuffer, h.toClient⟩
  by_cases hHead : http3Port.isSome = true ∧ indexOf headEnd r.client.appended = none
  · rw [h.nothing_sent hHead.1 hHead.2]
    exact List.nil_prefix
  · apply hSent.trans
    apply announced_prefix hRead
    intro hPort
    cases hIndex : indexOf headEnd r.client.appended with
    | none => exact absurd ⟨hPort, hIndex⟩ hHead
    | some i => rfl

/-- What the client has been sent when the backend has sent this much of a response. -/
structure Relay.Writes (http3Port : Option Octets) (response : Octets) (r : Relay) : Prop where
  sent : r.client.sent <+: announced http3Port response
  /-- The head is held back until its end is known. -/
  pending : http3Port.isSome = true → indexOf headEnd r.backend.read = none → r.client.sent = []

/-- At the end of every run, and so at all times, the client has been sent a prefix of the
response, with the field in its head if HTTP/3 is offered. -/
theorem run_writes (http3Port : Option Octets) (overhead : Octets) (turns : List Turn)
    (hApart : Meets (Relay.step http3Port) KeepsApart (start overhead) turns)
    (response : Octets)
    (hRead : (runEvents (Relay.step http3Port) (start overhead) turns).backend.read <+: response) :
    (runEvents (Relay.step http3Port) (start overhead) turns).Writes http3Port response := by
  have hKept := kept_run turns (kept_start http3Port overhead)
  have hFair : (runEvents (Relay.step http3Port) (start overhead) turns).FairToClient :=
    run_fairToClient rfl hApart
  rw [Relay.FairToClient] at hFair
  constructor
  · apply hKept.sent_prefix
    rw [hFair]
    exact hRead
  · intro hPort hNone
    rw [← hFair] at hNone
    exact hKept.nothing_sent hPort hNone

/-- A turn in which only the backend has something to say. -/
def answerTurn (data : Octets) (clientWrites : List WriteOutcome) : Turn where
  sigpipes := 0
  interrupted := false
  connections := [(.backend, .octets data)]
  distinct := by simp
  clientWrites
  backendWrites := []
  time := 0

theorem keepsApart_answerTurn (r : Relay) (data : Octets) (clientWrites : List WriteOutcome) :
    KeepsApart r (answerTurn data clientWrites) := by
  rintro - ⟨_, hConnections, -⟩
  cases hConnections

/-- The end of the head is cut by a read, and the client takes ten octets. -/
def cutHead : List Turn :=
  [answerTurn (octets "HTTP/1.1 200 OK\r\n\r") [.written 100],
    answerTurn (octets "\nhello") [.written 10, .undefined]]

theorem run_writes_cutHead :
    (runEvents (Relay.step (some (octets "443"))) (start []) cutHead).Writes
      (some (octets "443")) (octets "HTTP/1.1 200 OK\r\n\r\nhello world") := by
  apply run_writes
  · exact ⟨keepsApart_answerTurn _ _ _, keepsApart_answerTurn _ _ _, trivial⟩
  · decide +kernel

/-- Without HTTP/3 on the port the response goes out without the field. -/
theorem no_field_without_http3 :
    ¬ ∀ (http3 : Bool) (lport overhead : Octets) (turns : List Turn),
      let r := runEvents (Relay.step (if http3 then some lport else none)) (start overhead) turns
      r.client.sent <+: announced (some lport) r.backend.read := by
  intro hAll
  have hSent := hAll false (octets "80") []
    [answerTurn (octets "HTTP/1.1 200 OK\r\n\r\nhello") [.written 100]]
  revert hSent
  decide +kernel

end PageCamel.Frontend.SocketRelay

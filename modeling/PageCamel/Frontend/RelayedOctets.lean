import PageCamel.Frontend.SocketRelay
import PageCamel.Lib.Http1Response
import PageCamel.Lib.Runs

/-!
What the relay reads from one peer and appends to the buffer for the other one. A turn in
which one read gets octets and the next one fails appends them to both buffers.
-/

namespace PageCamel.Frontend.SocketRelay
open PageCamel.Lib PageCamel.Lib.Http1

/-! ### What is read and what is appended -/

/-- The octets of a read that did not fail. -/
def ReadOutcome.data : ReadOutcome → Octets
  | .octets data => data
  | .failed => []

def Relay.traffic (r : Relay) : Peer → Traffic
  | .client => r.client
  | .backend => r.backend

/-- All that was read so far is in the buffers of the other side, once and in order. -/
def Relay.Fair (r : Relay) : Prop := ∀ p, (r.traffic p.other).appended = (r.traffic p).read

/-- This holds of what was read from one of the peers. -/
def Relay.FairFrom (p : Peer) (r : Relay) : Prop :=
  (r.traffic p.other).appended = (r.traffic p).read

/-- More was appended than was read. -/
def Relay.Excess (r : Relay) : Prop :=
  r.client.read.length + r.backend.read.length <
    r.client.appended.length + r.backend.appended.length

/-- `r'` has read and appended what `r` has. -/
def Relay.SameReads (r r' : Relay) : Prop :=
  ∀ p, (r'.traffic p).read = (r.traffic p).read ∧ (r'.traffic p).appended = (r.traffic p).appended

/-- `r'` has read `got` from the peer, and appended `put` to the buffer for the other one. -/
structure Relay.Moves (r : Relay) (p : Peer) (got put : Octets) (r' : Relay) : Prop where
  read : (r'.traffic p).read = (r.traffic p).read ++ got
  appended : (r'.traffic p.other).appended = (r.traffic p.other).appended ++ put
  readOther : (r'.traffic p.other).read = (r.traffic p.other).read
  appendedOther : (r'.traffic p).appended = (r.traffic p).appended

theorem Peer.other_other (p : Peer) : p.other.other = p := by cases p <;> rfl

theorem Peer.eq_other {p q : Peer} (h : q ≠ p) : q = p.other := by
  cases p <;> cases q <;> first | rfl | exact absurd rfl h

theorem Relay.SameReads.fairFrom {r r' : Relay} (h : r.SameReads r') (p : Peer) :
    r'.FairFrom p ↔ r.FairFrom p := by
  rw [Relay.FairFrom, (h p.other).2, (h p).1, Relay.FairFrom]

theorem Relay.SameReads.fair {r r' : Relay} (h : r.SameReads r') : r'.Fair ↔ r.Fair :=
  forall_congr' h.fairFrom

theorem Relay.SameReads.excess {r r' : Relay} (h : r.SameReads r') : r'.Excess ↔ r.Excess := by
  have hClient := h .client
  have hBackend := h .backend
  simp only [Relay.traffic] at hClient hBackend
  rw [Relay.Excess, Relay.Excess, hClient.1, hClient.2, hBackend.1, hBackend.2]

theorem Relay.SameReads.trans {r r' r'' : Relay} (h : r.SameReads r') (h' : r'.SameReads r'') :
    r.SameReads r'' :=
  fun p => ⟨(h' p).1.trans (h p).1, (h' p).2.trans (h p).2⟩

/-- A read from the other peer leaves what was read from this one alone. -/
theorem Relay.Moves.fairFrom {r r' : Relay} {p q : Peer} {got put : Octets}
    (h : r.Moves q got put r') (hClean : q = p → put = got) (hFair : r.FairFrom p) :
    r'.FairFrom p := by
  rw [Relay.FairFrom] at hFair ⊢
  by_cases hPeer : p = q
  · subst hPeer
    rw [h.appended, h.read, hFair, hClean rfl]
  · rw [Peer.eq_other hPeer, Peer.other_other] at hFair ⊢
    rw [h.appendedOther, h.readOther, hFair]

theorem Relay.Moves.lengths {r r' : Relay} {p : Peer} {got put : Octets}
    (h : r.Moves p got put r') :
    r'.client.read.length + r'.backend.read.length =
        r.client.read.length + r.backend.read.length + got.length ∧
      r'.client.appended.length + r'.backend.appended.length =
        r.client.appended.length + r.backend.appended.length + put.length := by
  obtain ⟨hRead, hAppended, hReadOther, hAppendedOther⟩ := h
  cases p <;> simp only [Relay.traffic, Peer.other] at * <;>
    rw [hRead, hAppended, hReadOther, hAppendedOther] <;>
    simp only [List.length_append] <;> omega

theorem Relay.Moves.excess {r r' : Relay} {p : Peer} {got put : Octets} (h : r.Moves p got put r')
    (hLength : got.length ≤ put.length) (hExcess : r.Excess) : r'.Excess := by
  have hLengths := h.lengths
  rw [Relay.Excess] at *
  omega

theorem Relay.Fair.lengths {r : Relay} (h : r.Fair) :
    r.client.read.length + r.backend.read.length =
      r.client.appended.length + r.backend.appended.length := by
  have hClient := h .client
  have hBackend := h .backend
  simp only [Relay.traffic, Peer.other] at hClient hBackend
  rw [hClient, hBackend, Nat.add_comm]

theorem injectAltSvc_sameReads (http3Port : Option Octets) (r : Relay) :
    r.SameReads (r.injectAltSvc http3Port) := by
  intro p
  cases http3Port with
  | none => exact ⟨rfl, rfl⟩
  | some lport =>
      simp only [Relay.injectAltSvc]
      by_cases hInjected : r.altSvcInjected = true
      · rw [if_pos hInjected]
        exact ⟨rfl, rfl⟩
      · rw [if_neg hInjected]
        cases indexOf headEnd r.toclientbuffer <;> cases p <;> exact ⟨rfl, rfl⟩

theorem received_moves (r : Relay) (p : Peer) (outcome : ReadOutcome) :
    r.Moves p outcome.data [] (r.received p outcome) := by
  cases p <;> cases outcome <;> constructor <;>
    simp [Relay.received, Traffic.received, ReadOutcome.data, Relay.traffic, Peer.other]

theorem append_moves (http3Port : Option Octets) (r : Relay) (rawbuffer : Octets) (p : Peer) :
    r.Moves p [] rawbuffer (r.append http3Port rawbuffer p) := by
  cases p with
  | client => constructor <;> simp [Relay.append, Relay.traffic, Peer.other]
  | backend =>
      have hSame := injectAltSvc_sameReads http3Port
        { r with
          toclientbuffer := r.toclientbuffer ++ rawbuffer
          client := { r.client with appended := r.client.appended ++ rawbuffer } }
      refine ⟨(hSame _).1.trans ?_, (hSame _).2.trans ?_, (hSame _).1.trans ?_,
        (hSame _).2.trans ?_⟩ <;> simp [Relay.traffic, Peer.other]

theorem Relay.Moves.trans {r r' r'' : Relay} {p : Peer} {got put : Octets}
    (h : r.Moves p got [] r') (h' : r'.Moves p [] put r'') : r.Moves p got put r'' := by
  refine ⟨?_, ?_, h'.readOther.trans h.readOther, h'.appendedOther.trans h.appendedOther⟩
  · rw [h'.read, h.read, List.append_nil]
  · rw [h'.appended, h.appended, List.append_nil]

theorem disconnect_moves (r : Relay) (p : Peer) : r.Moves p [] [] (r.disconnect p) := by
  cases p <;> constructor <;> simp [Relay.disconnect, Relay.traffic, Peer.other]

theorem readOne_of_held {http3Port : Option Octets} {r : Relay} {rawbuffer : Octets} {p : Peer}
    {outcome : ReadOutcome} (h : r.held p = true) :
    r.readOne http3Port rawbuffer p outcome = (r, rawbuffer) := by
  rw [Relay.readOne, if_pos h]

theorem readOne_rawbuffer {http3Port : Option Octets} {r : Relay} {rawbuffer : Octets} {p : Peer}
    {outcome : ReadOutcome} (h : r.held p = false) :
    (r.readOne http3Port rawbuffer p outcome).2 = sysread rawbuffer outcome := by
  rw [Relay.readOne, if_neg (by rw [h]; exact Bool.false_ne_true)]
  by_cases hEmpty : (sysread rawbuffer outcome).isEmpty = true
  · simp only [if_pos hEmpty]
  · simp only [if_neg hEmpty]

theorem readOne_moves {http3Port : Option Octets} {r : Relay} {rawbuffer : Octets} {p : Peer}
    {outcome : ReadOutcome} (h : r.held p = false) :
    r.Moves p outcome.data (sysread rawbuffer outcome)
      (r.readOne http3Port rawbuffer p outcome).1 := by
  rw [Relay.readOne, if_neg (by rw [h]; exact Bool.false_ne_true)]
  have hReceived := received_moves r p outcome
  by_cases hEmpty : (sysread rawbuffer outcome).isEmpty = true
  · simp only [if_pos hEmpty]
    rw [List.isEmpty_iff] at hEmpty
    rw [hEmpty]
    exact hReceived.trans (disconnect_moves _ p)
  · simp only [if_neg hEmpty]
    exact hReceived.trans (append_moves http3Port _ _ p)

theorem injectAltSvc_tobackendbuffer (http3Port : Option Octets) (r : Relay) :
    (r.injectAltSvc http3Port).tobackendbuffer = r.tobackendbuffer := by
  cases http3Port with
  | none => rfl
  | some lport =>
      simp only [Relay.injectAltSvc]
      by_cases hInjected : r.altSvcInjected = true
      · rw [if_pos hInjected]
      · rw [if_neg hInjected]
        cases indexOf headEnd r.toclientbuffer <;> rfl

theorem readOne_destination {http3Port : Option Octets} {r : Relay} {rawbuffer : Octets}
    {p : Peer} {outcome : ReadOutcome} :
    (r.readOne http3Port rawbuffer p outcome).1.destination p.other = r.destination p.other := by
  rw [Relay.readOne]
  by_cases hHeld : r.held p = true
  · rw [if_pos hHeld]
  · rw [if_neg hHeld]
    by_cases hEmpty : (sysread rawbuffer outcome).isEmpty = true
    · simp only [if_pos hEmpty]
      cases p <;> cases outcome <;> rfl
    · simp only [if_neg hEmpty]
      cases p with
      | client => cases outcome <;> rfl
      | backend =>
          refine (injectAltSvc_tobackendbuffer http3Port _).trans ?_
          cases outcome <;> rfl

/-- Reading from one socket does not fill the buffer for what the other one sends. -/
theorem readOne_held {http3Port : Option Octets} {r : Relay} {rawbuffer : Octets} {p : Peer}
    {outcome : ReadOutcome} :
    (r.readOne http3Port rawbuffer p outcome).1.held p.other = r.held p.other := by
  simp only [Relay.held, readOne_destination]

/-! ### A turn that mixes the two directions -/

/-- Both sockets are readable and neither direction is held back; the first read gets
octets, and the second one fails. -/
def Relay.Crosses (r : Relay) (connections : List (Peer × ReadOutcome)) : Prop :=
  ∃ p data, connections = [(p, .octets data), (p.other, .failed)] ∧
    data ≠ [] ∧ r.held p = false ∧ r.held p.other = false

/-- This peer is the one that is read first. -/
def Relay.CrossesFrom (p : Peer) (r : Relay) (connections : List (Peer × ReadOutcome)) : Prop :=
  ∃ data, connections = [(p, .octets data), (p.other, .failed)] ∧
    data ≠ [] ∧ r.held p = false ∧ r.held p.other = false

theorem sysread_nil (outcome : ReadOutcome) : sysread [] outcome = outcome.data := by
  cases outcome <;> rfl

theorem data_length_le (rawbuffer : Octets) (outcome : ReadOutcome) :
    outcome.data.length ≤ (sysread rawbuffer outcome).length := by
  cases outcome with
  | octets data => exact le_rfl
  | failed => exact Nat.zero_le _

theorem readOne_fairFrom {http3Port : Option Octets} {r : Relay} {rawbuffer : Octets}
    {p q : Peer} {outcome : ReadOutcome} (hFair : r.FairFrom p)
    (hClean : q = p → r.held q = false → sysread rawbuffer outcome = outcome.data) :
    (r.readOne http3Port rawbuffer q outcome).1.FairFrom p := by
  by_cases hHeld : r.held q = true
  · rw [readOne_of_held hHeld]
    exact hFair
  · rw [Bool.not_eq_true] at hHeld
    exact (readOne_moves hHeld).fairFrom (fun hPeer => hClean hPeer hHeld) hFair

theorem readOne_excess {http3Port : Option Octets} {r : Relay} {rawbuffer : Octets} {p : Peer}
    {outcome : ReadOutcome} (hExcess : r.Excess) :
    (r.readOne http3Port rawbuffer p outcome).1.Excess := by
  by_cases hHeld : r.held p = true
  · rw [readOne_of_held hHeld]
    exact hExcess
  · rw [Bool.not_eq_true] at hHeld
    exact (readOne_moves hHeld).excess (data_length_le rawbuffer outcome) hExcess

/-- What was appended too much stays appended. -/
theorem readAll_excess {http3Port : Option Octets} {connections : List (Peer × ReadOutcome)}
    {r : Relay} {rawbuffer : Octets} (hExcess : r.Excess) :
    (r.readAll http3Port rawbuffer connections).Excess := by
  induction connections generalizing r rawbuffer with
  | nil => exact hExcess
  | cons c connections ih => exact ih (readOne_excess hExcess)

theorem readAll_two (http3Port : Option Octets) (r : Relay) (rawbuffer : Octets) (p q : Peer)
    (outcome outcome' : ReadOutcome) :
    r.readAll http3Port rawbuffer [(p, outcome), (q, outcome')] =
      ((r.readOne http3Port rawbuffer p outcome).1.readOne http3Port
        (r.readOne http3Port rawbuffer p outcome).2 q outcome').1 :=
  rfl

theorem readAll_fairFrom {http3Port : Option Octets} {r : Relay} {t : Turn} {peer : Peer}
    (hFair : r.FairFrom peer) (hNot : ¬ r.CrossesFrom peer.other t.connections) :
    (r.readAll http3Port [] t.connections).FairFrom peer := by
  have hFirst (p : Peer) (outcome : ReadOutcome) :
      (r.readOne http3Port [] p outcome).1.FairFrom peer :=
    readOne_fairFrom hFair fun _ _ => sysread_nil outcome
  match hConnections : t.connections, t.distinct with
  | [], _ => exact hFair
  | [(p, outcome)], _ => exact hFirst p outcome
  | [(p, outcome), (q, outcome')], hDistinct =>
      have hOther : p = q.other := by
        apply Peer.eq_other
        intro hSame
        simp [hSame] at hDistinct
      rw [readAll_two]
      apply readOne_fairFrom (hFirst p outcome)
      intro hPeer hHeld'
      subst hPeer hOther
      have hUnheld := @readOne_held http3Port r [] q.other outcome
      rw [Peer.other_other] at hUnheld
      rw [hUnheld] at hHeld'
      by_cases hHeld : r.held q.other = true
      · rw [readOne_of_held hHeld, sysread_nil]
      · rw [Bool.not_eq_true] at hHeld
        rw [readOne_rawbuffer hHeld, sysread_nil]
        -- only a failed read after one that has left octets in the buffer goes wrong
        cases outcome' with
        | octets data => rfl
        | failed =>
            cases outcome with
            | failed => rfl
            | octets data =>
                cases data with
                | nil => rfl
                | cons b data =>
                    apply absurd _ hNot
                    refine ⟨b :: data, ?_, List.cons_ne_nil b data, hHeld, ?_⟩
                    · rw [hConnections, Peer.other_other]
                    · rw [Peer.other_other]
                      exact hHeld'
  | (p, _) :: (q, _) :: (q', _) :: _, hDistinct =>
      cases p <;> cases q <;> cases q' <;> simp at hDistinct

theorem readAll_excess_of_crosses {http3Port : Option Octets} {r : Relay}
    {connections : List (Peer × ReadOutcome)} (hFair : r.Fair) (hCrosses : r.Crosses connections) :
    (r.readAll http3Port [] connections).Excess := by
  obtain ⟨p, data, hConnections, hData, hHeld, hHeld'⟩ := hCrosses
  rw [hConnections]
  have hFirst : (r.readOne http3Port [] p (.octets data)).1.Fair := by
    intro q
    exact readOne_fairFrom (hFair q) fun _ _ => rfl
  have hSecond := @readOne_moves http3Port (r.readOne http3Port [] p (.octets data)).1 data p.other
    .failed (readOne_held.trans hHeld')
  have hLengths := hSecond.lengths
  have hPositive := List.length_pos_iff.mpr hData
  have hEqual := hFirst.lengths
  rw [ReadOutcome.data, sysread, List.length_nil] at hLengths
  rw [readAll_two, readOne_rawbuffer hHeld, sysread, Relay.Excess]
  omega

theorem handleSigpipes_sameReads (r : Relay) (sigpipes : Nat) :
    r.SameReads (r.handleSigpipes sigpipes) :=
  fun p => by cases p <;> exact ⟨rfl, rfl⟩

theorem writeClient_sameReads (r : Relay) (time : Nat) (outcomes : List WriteOutcome) :
    r.SameReads (r.writeClient time outcomes) := by
  intro p
  rw [Relay.writeClient]
  by_cases hGone : r.clientdisconnect = true
  · rw [if_pos hGone]
    exact ⟨rfl, rfl⟩
  · rw [if_neg hGone]
    cases p <;> exact ⟨rfl, rfl⟩

theorem writeBackend_sameReads (r : Relay) (time : Nat) (outcomes : List WriteOutcome) :
    r.SameReads (r.writeBackend time outcomes) := by
  intro p
  rw [Relay.writeBackend]
  by_cases hGone : r.backenddisconnect = true
  · rw [if_pos hGone]
    exact ⟨rfl, rfl⟩
  · rw [if_neg hGone]
    cases p <;> exact ⟨rfl, rfl⟩

theorem finish_client (r : Relay) (time : Nat) : (r.finish time).client = r.client := by
  simp only [Relay.finish]
  repeat' split
  all_goals rfl

theorem finish_backend (r : Relay) (time : Nat) : (r.finish time).backend = r.backend := by
  simp only [Relay.finish]
  repeat' split
  all_goals rfl

theorem finish_sameReads (r : Relay) (time : Nat) : r.SameReads (r.finish time) := by
  intro p
  cases p with
  | client => simp only [Relay.traffic, finish_client, and_self]
  | backend => simp only [Relay.traffic, finish_backend, and_self]

/-- What a turn reads and appends is what its reads do. -/
theorem step_sameReads {http3Port : Option Octets} {r : Relay} {t : Turn}
    (hOpen : r.done = false) (hSelected : (t.connections.isEmpty && t.interrupted) = false) :
    ((r.handleSigpipes t.sigpipes).readAll http3Port [] t.connections).SameReads
      (r.step http3Port t) := by
  rw [Relay.step, hOpen, if_neg Bool.false_ne_true, hSelected]
  simp only [if_neg Bool.false_ne_true]
  refine Relay.SameReads.trans ?_
    ((writeBackend_sameReads _ t.time t.backendWrites).trans (finish_sameReads _ t.time))
  by_cases hPending : ((r.handleSigpipes t.sigpipes).readAll http3Port []
      t.connections).headPending http3Port = true
  · rw [if_pos hPending]
    exact fun _ => ⟨rfl, rfl⟩
  · rw [if_neg hPending]
    exact writeClient_sameReads _ _ _

/-- Nothing is read in a turn that was interrupted, or after the end. -/
theorem step_idle {http3Port : Option Octets} {r : Relay} {t : Turn}
    (h : r.done = true ∨ (t.connections.isEmpty && t.interrupted) = true) :
    r.SameReads (r.step http3Port t) := by
  rw [Relay.step]
  by_cases hDone : r.done = true
  · rw [if_pos hDone]
    exact fun _ => ⟨rfl, rfl⟩
  · rw [if_neg hDone]
    simp only [if_pos (h.resolve_left hDone)]
    exact handleSigpipes_sameReads r t.sigpipes

/-- The turn is not one that appends to one direction what it has read in the other. -/
def Careful (r : Relay) (t : Turn) : Prop := r.done = false → ¬ r.Crosses t.connections

theorem step_fairFrom {http3Port : Option Octets} {r : Relay} {t : Turn} {p : Peer}
    (hFair : r.FairFrom p) (hNot : r.done = false → ¬ r.CrossesFrom p.other t.connections) :
    (r.step http3Port t).FairFrom p := by
  by_cases hIdle : r.done = true ∨ (t.connections.isEmpty && t.interrupted) = true
  · exact ((step_idle hIdle).fairFrom p).mpr hFair
  · rw [not_or, Bool.not_eq_true, Bool.not_eq_true] at hIdle
    apply ((step_sameReads hIdle.1 hIdle.2).fairFrom p).mpr
    apply readAll_fairFrom
    · exact ((handleSigpipes_sameReads r t.sigpipes).fairFrom p).mpr hFair
    · exact hNot hIdle.1

theorem step_fair {http3Port : Option Octets} {r : Relay} {t : Turn} (hFair : r.Fair)
    (hCareful : Careful r t) : (r.step http3Port t).Fair := by
  intro p
  apply step_fairFrom (hFair p)
  intro hOpen hCrosses
  exact hCareful hOpen ⟨p.other, hCrosses⟩

theorem step_excess {http3Port : Option Octets} {r : Relay} (t : Turn) (hExcess : r.Excess) :
    (r.step http3Port t).Excess := by
  by_cases hIdle : r.done = true ∨ (t.connections.isEmpty && t.interrupted) = true
  · exact (step_idle hIdle).excess.mpr hExcess
  · rw [not_or, Bool.not_eq_true, Bool.not_eq_true] at hIdle
    refine (step_sameReads hIdle.1 hIdle.2).excess.mpr (readAll_excess ?_)
    exact (handleSigpipes_sameReads r t.sigpipes).excess.mpr hExcess

theorem step_excess_of_crosses {http3Port : Option Octets} {r : Relay} {t : Turn}
    (hFair : r.Fair) (hCareful : ¬ Careful r t) : (r.step http3Port t).Excess := by
  rw [Careful, Classical.not_imp, not_not] at hCareful
  obtain ⟨hOpen, hCrosses⟩ := hCareful
  have hSelected : (t.connections.isEmpty && t.interrupted) = false := by
    obtain ⟨p, data, hConnections, -⟩ := hCrosses
    rw [hConnections]
    rfl
  refine (step_sameReads hOpen hSelected).excess.mpr (readAll_excess_of_crosses ?_ hCrosses)
  exact (handleSigpipes_sameReads r t.sigpipes).fair.mpr hFair

theorem run_excess {http3Port : Option Octets} (turns : List Turn) {r : Relay}
    (hExcess : r.Excess) : (runEvents (Relay.step http3Port) r turns).Excess := by
  induction turns generalizing r with
  | nil => exact hExcess
  | cons t turns ih => exact ih (step_excess t hExcess)

/-- A run keeps the directions apart when no turn of it mixes them, and never mends what
one turn has mixed. -/
theorem run_fair_iff {http3Port : Option Octets} (turns : List Turn) {r : Relay}
    (hFair : r.Fair) :
    (runEvents (Relay.step http3Port) r turns).Fair ↔
      Meets (Relay.step http3Port) Careful r turns := by
  induction turns generalizing r with
  | nil => exact ⟨fun _ => trivial, fun _ => hFair⟩
  | cons t turns ih =>
      by_cases hCareful : Careful r t
      · refine (ih (step_fair hFair hCareful)).trans ?_
        rw [Meets, and_iff_right hCareful]
      · refine ⟨fun hRun => ?_, fun hMeets => absurd hMeets.1 hCareful⟩
        have hExcess : (runEvents (Relay.step http3Port) r (t :: turns)).Excess :=
          run_excess turns (step_excess_of_crosses hFair hCareful)
        have hEqual := Relay.Fair.lengths hRun
        rw [Relay.Excess] at hExcess
        exact absurd hEqual (Nat.ne_of_lt hExcess)

/-! ### What becomes of the octets that were appended -/

/-- The first response with the field for HTTP/3 in its head. -/
def announced (http3Port : Option Octets) (response : Octets) : Octets :=
  match http3Port with
  | none => response
  | some lport =>
      match indexOf headEnd response with
      | none => response
      | some headerEndPos =>
          response.take (headerEndPos + 2) ++ altSvcHeader lport ++ response.drop (headerEndPos + 2)

/-- What was sent and what waits is what was appended, behind the line that tells the
backend about its client, and with the field in the response. -/
structure Relay.Kept (http3Port : Option Octets) (overhead : Octets) (r : Relay) : Prop where
  toClient : r.client.sent ++ r.toclientbuffer = announced http3Port r.client.appended
  toBackend : r.backend.sent ++ r.tobackendbuffer = overhead ++ r.backend.appended
  /-- Nothing of the response is sent before the field is in it. -/
  pending : http3Port.isSome = true → r.altSvcInjected = false →
    r.client.sent = [] ∧ r.toclientbuffer = r.client.appended ∧
      indexOf headEnd r.toclientbuffer = none
  injected : r.altSvcInjected = true → (indexOf headEnd r.client.appended).isSome = true

theorem kept_start (http3Port : Option Octets) (overhead : Octets) :
    (start overhead).Kept http3Port overhead where
  toClient := by cases http3Port <;> rfl
  toBackend := (List.append_nil overhead).symm
  pending _ _ := ⟨rfl, rfl, rfl⟩
  injected h := nomatch h

section
variable {http3Port : Option Octets} {overhead : Octets}

theorem Relay.Kept.congr {r r' : Relay} (h : r.Kept http3Port overhead)
    (hSame : r.SameReads r') (hSent : ∀ p, (r'.traffic p).sent = (r.traffic p).sent)
    (hBuffers : ∀ p, r'.destination p = r.destination p)
    (hInjected : r'.altSvcInjected = r.altSvcInjected) : r'.Kept http3Port overhead := by
  have hClient := hBuffers .backend
  have hBackend := hBuffers .client
  have hSentClient := hSent .client
  have hSentBackend := hSent .backend
  have hSameClient := (hSame .client).2
  have hSameBackend := (hSame .backend).2
  simp only [Relay.traffic, Relay.destination] at *
  refine ⟨?_, ?_, ?_, ?_⟩
  · rw [hClient, hSentClient, hSameClient, h.toClient]
  · rw [hBackend, hSentBackend, hSameBackend, h.toBackend]
  · rw [hInjected, hSentClient, hClient, hSameClient]
    exact h.pending
  · rw [hInjected, hSameClient]
    exact h.injected

theorem kept_received {r : Relay} (h : r.Kept http3Port overhead) (p : Peer)
    (outcome : ReadOutcome) : (r.received p outcome).Kept http3Port overhead := by
  obtain ⟨hClient, hBackend, hPending, hInjected⟩ := h
  cases p <;> cases outcome <;> exact ⟨hClient, hBackend, hPending, hInjected⟩

theorem kept_disconnect {r : Relay} (h : r.Kept http3Port overhead) (p : Peer) :
    (r.disconnect p).Kept http3Port overhead := by
  obtain ⟨hClient, hBackend, hPending, hInjected⟩ := h
  cases p <;> exact ⟨hClient, hBackend, hPending, hInjected⟩

/-- The head that was found is found at the same place when more of the response comes. -/
theorem announced_append {response : Octets} (hFound : (indexOf headEnd response).isSome = true)
    (more : Octets) :
    announced http3Port (response ++ more) = announced http3Port response ++ more := by
  cases http3Port with
  | none => rfl
  | some lport =>
      obtain ⟨i, hIndex⟩ := Option.isSome_iff_exists.mp hFound
      have hLength := indexOf_length_le headEnd response i hIndex
      have hBound : i + 2 ≤ response.length := by
        rw [show headEnd.length = 4 from rfl] at hLength
        omega
      simp only [announced, indexOf_append_right more hIndex, hIndex]
      rw [List.take_append_of_le_length hBound, List.drop_append_of_le_length hBound,
        ← List.append_assoc]

theorem announced_of_pending {response : Octets} (h : indexOf headEnd response = none) :
    announced http3Port response = response := by
  cases http3Port with
  | none => rfl
  | some lport => simp only [announced, h]

theorem kept_append {r : Relay} (h : r.Kept http3Port overhead) (rawbuffer : Octets) (p : Peer) :
    (r.append http3Port rawbuffer p).Kept http3Port overhead := by
  obtain ⟨hClient, hBackend, hPending, hInjected⟩ := h
  cases p with
  | client =>
      refine ⟨hClient, ?_, hPending, hInjected⟩
      simp only [Relay.append]
      rw [← List.append_assoc, hBackend, List.append_assoc]
  | backend =>
      simp only [Relay.append]
      cases hPort : http3Port with
      | none =>
          rw [hPort] at hClient
          refine ⟨?_, hBackend, fun h => (Bool.false_ne_true h).elim, fun hDone => ?_⟩
          · simp only [Relay.injectAltSvc]
            rw [← List.append_assoc, hClient]
            rfl
          · obtain ⟨i, hIndex⟩ := Option.isSome_iff_exists.mp (hInjected hDone)
            exact Option.isSome_iff_exists.mpr ⟨i, indexOf_append_right rawbuffer hIndex⟩
      | some lport =>
          rw [hPort] at hClient
          simp only [Relay.injectAltSvc]
          by_cases hDone : r.altSvcInjected = true
          · obtain ⟨i, hIndex⟩ := Option.isSome_iff_exists.mp (hInjected hDone)
            rw [if_pos hDone]
            refine ⟨?_, hBackend, fun _ hNot => ?_, fun _ => ?_⟩
            · rw [announced_append (hInjected hDone), ← hClient, List.append_assoc]
            · exact absurd (hDone.symm.trans hNot) Bool.noConfusion
            · exact Option.isSome_iff_exists.mpr ⟨i, indexOf_append_right rawbuffer hIndex⟩
          · rw [if_neg hDone]
            -- nothing was sent yet, so the buffer holds the response from its start
            obtain ⟨hSent, hAll, -⟩ :=
              hPending (by rw [hPort]; rfl) (Bool.eq_false_iff.mpr hDone)
            cases hIndex : indexOf headEnd (r.toclientbuffer ++ rawbuffer) with
            | none =>
                refine ⟨?_, hBackend, fun _ _ => ⟨hSent, ?_, hIndex⟩, fun h => absurd h hDone⟩
                · simp only [hSent, List.nil_append, ← hAll]
                  rw [announced_of_pending hIndex]
                · simp only [← hAll]
            | some headerEndPos =>
                refine ⟨?_, hBackend, fun _ hNot => (Bool.noConfusion hNot), fun _ => ?_⟩
                · simp only [hSent, List.nil_append, ← hAll, announced, hIndex]
                · simp only [← hAll, hIndex, Option.isSome_some]

theorem kept_readOne {r : Relay} (h : r.Kept http3Port overhead) (rawbuffer : Octets) (p : Peer)
    (outcome : ReadOutcome) :
    (r.readOne http3Port rawbuffer p outcome).1.Kept http3Port overhead := by
  rw [Relay.readOne]
  by_cases hHeld : r.held p = true
  · rw [if_pos hHeld]
    exact h
  · rw [if_neg hHeld]
    have hReceived := kept_received h p outcome
    by_cases hEmpty : (sysread rawbuffer outcome).isEmpty = true
    · simp only [if_pos hEmpty]
      exact kept_disconnect hReceived p
    · simp only [if_neg hEmpty]
      exact kept_append hReceived _ p

theorem kept_readAll {connections : List (Peer × ReadOutcome)} {r : Relay} {rawbuffer : Octets}
    (h : r.Kept http3Port overhead) :
    (r.readAll http3Port rawbuffer connections).Kept http3Port overhead := by
  induction connections generalizing r rawbuffer with
  | nil => exact h
  | cons c connections ih => exact ih (kept_readOne h rawbuffer c.1 c.2)

/-- A write moves octets from the buffer to what was sent. -/
theorem kept_writeClient {r : Relay} (h : r.Kept http3Port overhead)
    (hReady : r.headPending http3Port = false) (time : Nat) (outcomes : List WriteOutcome) :
    (r.writeClient time outcomes).Kept http3Port overhead := by
  rw [Relay.writeClient]
  by_cases hGone : r.clientdisconnect = true
  · rw [if_pos hGone]
    exact h
  · rw [if_neg hGone]
    refine ⟨?_, h.toBackend, fun hPort (hNot : r.altSvcInjected = false) => ?_, h.injected⟩
    · simp only [List.append_assoc, List.take_append_drop]
      exact h.toClient
    · rw [Relay.headPending, hPort, hNot, (h.pending hPort hNot).2.2] at hReady
      exact Bool.noConfusion hReady

theorem kept_writeBackend {r : Relay} (h : r.Kept http3Port overhead) (time : Nat)
    (outcomes : List WriteOutcome) : (r.writeBackend time outcomes).Kept http3Port overhead := by
  rw [Relay.writeBackend]
  by_cases hGone : r.backenddisconnect = true
  · rw [if_pos hGone]
    exact h
  · rw [if_neg hGone]
    refine ⟨h.toClient, ?_, h.pending, h.injected⟩
    simp only [List.append_assoc, List.take_append_drop]
    exact h.toBackend

theorem kept_handleSigpipes {r : Relay} (h : r.Kept http3Port overhead) (sigpipes : Nat) :
    (r.handleSigpipes sigpipes).Kept http3Port overhead :=
  ⟨h.toClient, h.toBackend, h.pending, h.injected⟩

theorem kept_finish {r : Relay} (h : r.Kept http3Port overhead) (time : Nat) :
    (r.finish time).Kept http3Port overhead := by
  have hBuffers : (r.finish time).toclientbuffer = r.toclientbuffer ∧
      (r.finish time).tobackendbuffer = r.tobackendbuffer ∧
        (r.finish time).altSvcInjected = r.altSvcInjected := by
    simp only [Relay.finish]
    repeat' split
    all_goals exact ⟨rfl, rfl, rfl⟩
  refine h.congr (finish_sameReads r time) (fun p => ?_) (fun p => ?_) hBuffers.2.2
  · cases p with
    | client => simp only [Relay.traffic, finish_client]
    | backend => simp only [Relay.traffic, finish_backend]
  · cases p with
    | client => exact hBuffers.2.1
    | backend => exact hBuffers.1

theorem kept_step {r : Relay} (h : r.Kept http3Port overhead) (t : Turn) :
    (r.step http3Port t).Kept http3Port overhead := by
  rw [Relay.step]
  by_cases hDone : r.done = true
  · rw [if_pos hDone]
    exact h
  · rw [if_neg hDone]
    have hSignals := kept_handleSigpipes h t.sigpipes
    by_cases hInterrupted : (t.connections.isEmpty && t.interrupted) = true
    · simp only [if_pos hInterrupted]
      exact hSignals
    · simp only [if_neg hInterrupted]
      refine kept_finish (kept_writeBackend ?_ t.time t.backendWrites) t.time
      have hRead : ((r.handleSigpipes t.sigpipes).readAll http3Port [] t.connections).Kept
          http3Port overhead := kept_readAll hSignals
      split
      · exact hRead
      · next hReady =>
          rw [Bool.not_eq_true] at hReady
          exact kept_writeClient hRead hReady t.time t.clientWrites

theorem kept_run (turns : List Turn) {r : Relay} (h : r.Kept http3Port overhead) :
    (runEvents (Relay.step http3Port) r turns).Kept http3Port overhead := by
  induction turns generalizing r with
  | nil => exact h
  | cons t turns ih => exact ih (kept_step h t)

end

/-! ### The relay -/

/-- Each side is sent what was read from the other one, once and in order, and nothing
else but the line for the backend and the field in the response. -/
structure Relay.Relays (http3Port : Option Octets) (overhead : Octets) (r : Relay) : Prop where
  appendedToClient : r.client.appended = r.backend.read
  appendedToBackend : r.backend.appended = r.client.read
  toClient : r.client.sent ++ r.toclientbuffer = announced http3Port r.backend.read
  toBackend : r.backend.sent ++ r.tobackendbuffer = overhead ++ r.client.read

/-- The relay is right exactly in the runs in which no read fails after one that has got
octets from the other peer in the same turn. -/
theorem relays_iff (http3Port : Option Octets) (overhead : Octets) (turns : List Turn) :
    (runEvents (Relay.step http3Port) (start overhead) turns).Relays http3Port overhead ↔
      Meets (Relay.step http3Port) Careful (start overhead) turns := by
  have hStart : (start overhead).Fair := fun p => by cases p <;> rfl
  rw [← run_fair_iff turns hStart]
  have hKept := kept_run turns (kept_start http3Port overhead)
  generalize runEvents (Relay.step http3Port) (start overhead) turns = r at hKept
  constructor
  · intro hRelays p
    cases p with
    | client => exact hRelays.appendedToBackend
    | backend => exact hRelays.appendedToClient
  · intro hFair
    have hClient : r.client.appended = r.backend.read := hFair .backend
    have hBackend : r.backend.appended = r.client.read := hFair .client
    exact ⟨hClient, hBackend, hClient ▸ hKept.toClient, hBackend ▸ hKept.toBackend⟩

/-- The backend's answer is there and the TLS record of the client is not complete. -/
def mixedTurn : Turn where
  sigpipes := 0
  interrupted := false
  connections := [(.backend, .octets (octets "HTTP/1.1 200 OK")), (.client, .failed)]
  distinct := by decide
  clientWrites := []
  backendWrites := []
  time := 0

/-- The backend is about to be sent its own answer. -/
theorem mixed_directions :
    ¬ ∀ (overhead : Octets) (turns : List Turn),
      (runEvents (Relay.step none) (start overhead) turns).Relays none overhead := by
  intro hAll
  have hRelays := (hAll (octets "GET / HTTP/1.1\r\n\r\n") [mixedTurn]).appendedToBackend
  revert hRelays
  decide +kernel

end PageCamel.Frontend.SocketRelay

import PageCamel.Lib.Octets

/-!
The relay of an HTTP/1.1 connection. One process copies octets between the client's
socket and the socket of its backend until one of the two is gone. One scratch buffer
serves both directions of a turn of the loop, so a read that fails leaves in it what the
other peer has sent.
-/

namespace PageCamel.Frontend.SocketRelay
open PageCamel.Lib

inductive Peer
  | client
  | backend
deriving DecidableEq, Repr

def Peer.other : Peer → Peer
  | .client => .backend
  | .backend => .client

/-- What `sysread` does with its buffer: it puts the octets it has read there (none at the
end of the stream), or it fails and leaves the buffer alone. -/
inductive ReadOutcome
  | octets (data : Octets)
  | failed

def sysread (rawbuffer : Octets) : ReadOutcome → Octets
  | .octets data => data
  | .failed => rawbuffer

/-- `syswrite` inside its `eval`: a number of octets, nothing, or an exception. -/
inductive WriteOutcome
  | written (n : Nat)
  | undefined
  | raised

/-- What passes between the relay and a peer: the octets that were read from it, those
appended to the buffer that is bound for it, and those written to it. -/
structure Traffic where
  read : Octets := []
  appended : Octets := []
  sent : Octets := []

structure Relay where
  toclientbuffer : Octets := []
  tobackendbuffer : Octets
  clientdisconnect : Bool := false
  backenddisconnect : Bool := false
  altSvcInjected : Bool := false
  finishcountdown : Nat := 0
  sigpipeseen : Nat := 0
  sigpipehandled : Nat := 0
  done : Bool := false
  client : Traffic := {}
  backend : Traffic := {}

/-- The `$overhead` line and the octets read so far are what the backend gets first. -/
def start (overhead : Octets) : Relay := { tobackendbuffer := overhead }

/-- One turn of the loop. -/
structure Turn where
  /-- The signals since the turn before. -/
  sigpipes : Nat
  /-- `select` was interrupted. -/
  interrupted : Bool
  /-- The readable sockets in their order, with what reading from them does. -/
  connections : List (Peer × ReadOutcome)
  distinct : (connections.map Prod.fst).Nodup
  clientWrites : List WriteOutcome
  backendWrites : List WriteOutcome
  time : Nat

def max_buffer_size : Nat := 50000000
def blocksize : Nat := 16384
def loopcount : Nat := 10000000 / 16384

def headEnd : Octets := crlf ++ crlf

def altSvcHeader (lport : Octets) : Octets :=
  octets "Alt-Svc: h3=\":" ++ lport ++ octets "\"; ma=86400" ++ crlf

/-- The buffer for what is read from a peer. -/
def Relay.destination (r : Relay) : Peer → Octets
  | .backend => r.toclientbuffer
  | .client => r.tobackendbuffer

/-- Back-pressure: nothing is read while too much waits for the other peer. -/
def Relay.held (r : Relay) (connection : Peer) : Bool :=
  max_buffer_size ≤ (r.destination connection).length

def Traffic.received (t : Traffic) : ReadOutcome → Traffic
  | .octets data => { t with read := t.read ++ data }
  | .failed => t

def Relay.received (r : Relay) (connection : Peer) (outcome : ReadOutcome) : Relay :=
  match connection with
  | .client => { r with client := r.client.received outcome }
  | .backend => { r with backend := r.backend.received outcome }

def Relay.disconnect (r : Relay) : Peer → Relay
  | .client => { r with clientdisconnect := true }
  | .backend => { r with backenddisconnect := true }

/-- The Alt-Svc field goes behind the last header of the first response. -/
def Relay.injectAltSvc (http3Port : Option Octets) (r : Relay) : Relay :=
  match http3Port with
  | none => r
  | some lport =>
      if r.altSvcInjected then r
      else
        match indexOf headEnd r.toclientbuffer with
        | none => r
        | some headerEndPos =>
            { r with
              toclientbuffer := r.toclientbuffer.take (headerEndPos + 2) ++ altSvcHeader lport ++
                r.toclientbuffer.drop (headerEndPos + 2)
              altSvcInjected := true }

def Relay.append (http3Port : Option Octets) (r : Relay) (rawbuffer : Octets) : Peer → Relay
  | .backend =>
      { r with
        toclientbuffer := r.toclientbuffer ++ rawbuffer
        client := { r.client with appended := r.client.appended ++ rawbuffer } }.injectAltSvc
          http3Port
  | .client =>
      { r with
        tobackendbuffer := r.tobackendbuffer ++ rawbuffer
        backend := { r.backend with appended := r.backend.appended ++ rawbuffer } }

/-- One pass through the `foreach`, with the scratch buffer of the turn. -/
def Relay.readOne (http3Port : Option Octets) (r : Relay) (rawbuffer : Octets)
    (connection : Peer) (outcome : ReadOutcome) : Relay × Octets :=
  if r.held connection then (r, rawbuffer)
  else
    let rawbuffer := sysread rawbuffer outcome
    let r := r.received connection outcome
    if rawbuffer.isEmpty then (r.disconnect connection, rawbuffer)
    else (r.append http3Port rawbuffer connection, rawbuffer)

def Relay.readAll (http3Port : Option Octets) :
    Relay → Octets → List (Peer × ReadOutcome) → Relay
  | r, _, [] => r
  | r, rawbuffer, (connection, outcome) :: connections =>
      let (r, rawbuffer) := r.readOne http3Port rawbuffer connection outcome
      r.readAll http3Port rawbuffer connections

/-- A write loop: how far it gets in the buffer, and the countdown, which starts anew with
every write that does not raise. -/
def writeLoop (buffer : Octets) (time : Nat) :
    Nat → List WriteOutcome → Nat × Nat → Nat × Nat
  | 0, _, s => s
  | sendcount + 1, outcomes, (offset, countdown) =>
      if offset < buffer.length then
        let renewed := if countdown = 0 then 0 else time + 20
        match outcomes.headD .undefined with
        | .raised => (offset, countdown)
        | .undefined => (offset, renewed)
        | .written n =>
            let n := min n (min (buffer.length - offset) blocksize)
            if n = 0 then (offset, renewed)
            else writeLoop buffer time sendcount outcomes.tail (offset + n, renewed)
      else (offset, countdown)

def Relay.writeClient (r : Relay) (time : Nat) (outcomes : List WriteOutcome) : Relay :=
  if r.clientdisconnect then r
  else
    let (client_offset, finishcountdown) :=
      writeLoop r.toclientbuffer time loopcount outcomes (0, r.finishcountdown)
    { r with
      toclientbuffer := r.toclientbuffer.drop client_offset
      finishcountdown
      client := { r.client with sent := r.client.sent ++ r.toclientbuffer.take client_offset } }

/-- A successful write to the backend forgets the broken pipes. -/
def Relay.writeBackend (r : Relay) (time : Nat) (outcomes : List WriteOutcome) : Relay :=
  if r.backenddisconnect then r
  else
    let (backend_offset, finishcountdown) :=
      writeLoop r.tobackendbuffer time loopcount outcomes (0, r.finishcountdown)
    { r with
      tobackendbuffer := r.tobackendbuffer.drop backend_offset
      finishcountdown
      sigpipeseen := if backend_offset > 0 then 0 else r.sigpipeseen
      sigpipehandled := if backend_offset > 0 then 0 else r.sigpipehandled
      backend :=
        { r.backend with sent := r.backend.sent ++ r.tobackendbuffer.take backend_offset } }

/-- Writes to the client wait for the whole head when a field will be put into it. -/
def Relay.headPending (http3Port : Option Octets) (r : Relay) : Bool :=
  http3Port.isSome && !r.altSvcInjected && (indexOf headEnd r.toclientbuffer).isNone

def Relay.handleSigpipes (r : Relay) (sigpipes : Nat) : Relay :=
  let sigpipeseen := r.sigpipeseen + sigpipes
  let sigpipehandled :=
    if sigpipeseen > r.sigpipehandled then r.sigpipehandled + 1 else r.sigpipehandled
  { r with sigpipeseen, sigpipehandled, done := r.done || decide (sigpipehandled > 200) }

/-- The end of a turn: is the communication over, or does the countdown run? -/
def Relay.finish (r : Relay) (time : Nat) : Relay :=
  let r := { r with done := r.done || r.clientdisconnect }
  let r :=
    if r.finishcountdown = 0 ∧ r.backenddisconnect then
      if r.toclientbuffer.isEmpty then { r with done := true }
      else { r with finishcountdown := time + 20 }
    else r
  if r.finishcountdown > 0 ∧ (r.toclientbuffer.isEmpty ∨ r.finishcountdown ≤ time) then
    { r with done := true }
  else r

def Relay.step (http3Port : Option Octets) (r : Relay) (t : Turn) : Relay :=
  if r.done then r
  else
    let r := r.handleSigpipes t.sigpipes
    if t.connections.isEmpty && t.interrupted then r
    else
      let r := r.readAll http3Port [] t.connections
      let r := if r.headPending http3Port then r else r.writeClient t.time t.clientWrites
      (r.writeBackend t.time t.backendWrites).finish t.time

end PageCamel.Frontend.SocketRelay

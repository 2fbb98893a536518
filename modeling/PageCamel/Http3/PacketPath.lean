import PageCamel.Lib.Octets

/-!
Received packets (`h3_packet_process` in `h3_packet.c`) and the path they are read with.
The addresses of the pair are written into the connection in place, and the path points to
them. `inet_pton` is a parameter, and what the libraries return is an input of each call.
-/

namespace PageCamel.Http3
open PageCamel.Lib

inductive AddressFamily
  | unspec
  | inet
  | inet6
  deriving DecidableEq, Repr

/-- `INADDR_ANY` and the like: what `memset` leaves in the field of the address. -/
def AddressFamily.anyAddr : AddressFamily → Octets
  | .unspec => []
  | .inet => List.replicate 4 0
  | .inet6 => List.replicate 16 0

/-- `sizeof(struct sockaddr_in6)` or `sizeof(struct sockaddr_in)`. -/
def AddressFamily.addrlen : AddressFamily → Nat
  | .inet6 => 28
  | _ => 16

/-- `struct sockaddr_storage`; the fields not set here stay zero. -/
structure SockaddrStorage where
  family : AddressFamily := .unspec
  port : Nat := 0
  addr : Octets := []
  deriving DecidableEq

/-- `h3_addr_info_t`. -/
structure AddrInfo where
  localAddr : Octets
  localPort : Int
  remoteAddr : Octets
  remotePort : Int
  deriving DecidableEq

/-- The family is told by a `:` in the text. -/
def familyOf (text : Octets) : AddressFamily := if 0x3A ∈ text then .inet6 else .inet

/-- The value of `htons` for a port, as a number. -/
def portOf (port : Int) : Nat := (port % 65536).toNat

/-- `ngtcp2_path`, with the addresses it points to. -/
structure QuicPath where
  localAddr : SockaddrStorage
  localLen : Nat
  remoteAddr : SockaddrStorage
  remoteLen : Nat
  deriving DecidableEq

inductive H3State
  | initial
  | handshaking
  | established
  | draining
  | closed
  deriving DecidableEq, Repr

inductive PacketCode
  | ok
  | errorInvalid
  | errorQuic
  | errorHttp3
  | errorClosed
  deriving DecidableEq, Repr

/-- What these functions use of `h3_connection_t`; whether there is an ngtcp2 connection. -/
structure PacketConnection where
  quic : Bool
  state : H3State
  path : QuicPath
  ctrlStreamId : Int
  qpackEncStreamId : Int
  qpackDecStreamId : Int
  controlStreamsBound : Bool
  lastError : Int
  deriving DecidableEq

/-- The results of `bind_control_streams`' calls; `none` for an error of
`ngtcp2_conn_open_uni_stream`. -/
structure BindResults where
  openCtrl : Option Int
  bindControl : Bool
  openEnc : Option Int
  openDec : Option Int
  bindQpack : Bool
  deriving DecidableEq

/-- `bind_control_streams`. -/
def bindControlStreams (results : BindResults) (conn : PacketConnection) :
    PacketConnection × PacketCode :=
  if conn.controlStreamsBound then (conn, .ok)
  else
    match results.openCtrl with
    | none => (conn, .errorQuic)
    | some ctrl =>
        let conn := { conn with ctrlStreamId := ctrl }
        if !results.bindControl then (conn, .errorHttp3)
        else
          match results.openEnc with
          | none => (conn, .errorQuic)
          | some enc =>
              let conn := { conn with qpackEncStreamId := enc }
              match results.openDec with
              | none => (conn, .errorQuic)
              | some dec =>
                  let conn := { conn with qpackDecStreamId := dec }
                  if !results.bindQpack then (conn, .errorHttp3)
                  else ({ conn with controlStreamsBound := true }, .ok)

/-- The return value of `ngtcp2_conn_read_pkt`. -/
inductive ReadResult
  | ok
  | draining
  | discardPkt
  | error (rv : Int)
  deriving DecidableEq, Repr

structure ProcessResults where
  readPkt : ReadResult
  handshakeCompleted : Bool
  bind : BindResults
  deriving DecidableEq

/-- What a call leaves and returns, and what it gave to `ngtcp2_conn_read_pkt`. -/
structure Processed where
  conn : PacketConnection
  given : Option (QuicPath × Octets)
  code : PacketCode
  deriving DecidableEq

section
variable (inetPton : AddressFamily → Octets → Option Octets)

/-- One half of the conversion: the address it leaves, and whether `inet_pton` took the text. -/
def initAddress (text : Octets) (port : Int) : SockaddrStorage × Bool :=
  match inetPton (familyOf text) text with
  | some addr => (⟨familyOf text, portOf port, addr⟩, true)
  | none => (⟨familyOf text, portOf port, (familyOf text).anyAddr⟩, false)

/-- `h3_addr_to_sockaddr`: the local and the remote address as it leaves them, and what it
returns, the length of the remote address or 0. -/
def h3AddrToSockaddr (addr : AddrInfo) : SockaddrStorage × SockaddrStorage × Nat :=
  let (loc, localTaken) := initAddress inetPton addr.localAddr addr.localPort
  if !localTaken then (loc, {}, 0)
  else
    let (remote, remoteTaken) := initAddress inetPton addr.remoteAddr addr.remotePort
    if !remoteTaken then (loc, remote, 0)
    else (loc, remote, (familyOf addr.remoteAddr).addrlen)

/-- The path that points to the addresses as the conversion leaves them. -/
def convertedPath (addr : AddrInfo) : QuicPath :=
  let (loc, remote, _) := h3AddrToSockaddr inetPton addr
  ⟨loc, loc.family.addrlen, remote, remote.family.addrlen⟩

/-- `h3_packet_process`. -/
def h3PacketProcess (conn : PacketConnection) (data : Octets) (addr : Option AddrInfo)
    (results : ProcessResults) : Processed :=
  if !conn.quic then ⟨conn, none, .errorInvalid⟩
  else
    -- the value the conversion returns is not used
    let conn :=
      match addr with
      | some pair => { conn with path := convertedPath inetPton pair }
      | none => conn
    let given := some (conn.path, data)
    match results.readPkt with
    | .draining => ⟨{ conn with state := .draining }, given, .errorClosed⟩
    | .discardPkt => ⟨conn, given, .ok⟩
    | .error rv => ⟨{ conn with lastError := rv }, given, .errorQuic⟩
    | .ok =>
        if results.handshakeCompleted && !conn.controlStreamsBound then
          let (conn, code) := bindControlStreams results.bind conn
          ⟨conn, given, code⟩
        else ⟨conn, given, .ok⟩

/-- An address of the pair does not parse. -/
def AddrInfo.Unparsable (addr : AddrInfo) : Prop :=
  inetPton (familyOf addr.localAddr) addr.localAddr = none ∨
    inetPton (familyOf addr.remoteAddr) addr.remoteAddr = none

/-- `h3_addr_to_sockaddr` reports every such pair, and no other. -/
theorem h3AddrToSockaddr_eq_zero_iff (addr : AddrInfo) :
    (h3AddrToSockaddr inetPton addr).2.2 = 0 ↔ addr.Unparsable inetPton := by
  have hLen : (familyOf addr.remoteAddr).addrlen ≠ 0 := by
    cases familyOf addr.remoteAddr <;> decide
  unfold h3AddrToSockaddr initAddress AddrInfo.Unparsable
  cases inetPton (familyOf addr.localAddr) addr.localAddr with
  | none => simp
  | some loc =>
      cases inetPton (familyOf addr.remoteAddr) addr.remoteAddr with
      | none => simp
      | some remote => simpa using hLen

/-- A pair that does not parse leaves the stored path alone, and ngtcp2 is not given the
path that the conversion left. -/
def Processed.KeepsPath (after : Processed) (conn : PacketConnection)
    (addr : Option AddrInfo) : Prop :=
  ∀ pair, addr = some pair → pair.Unparsable inetPton →
    after.conn.path = conn.path ∧
      ∀ path data, after.given = some (path, data) → path ≠ convertedPath inetPton pair

@[simp] theorem path_bindControlStreams (results : BindResults) (conn : PacketConnection) :
    (bindControlStreams results conn).1.path = conn.path := by
  unfold bindControlStreams
  repeat' split
  all_goals rfl

/-- Whatever ngtcp2 makes of the packet, it is read with the converted path, which is the
stored one afterwards. -/
theorem h3PacketProcess_given {conn : PacketConnection} (hQuic : conn.quic = true)
    (data : Octets) (pair : AddrInfo) (results : ProcessResults) :
    let after := h3PacketProcess inetPton conn data (some pair) results
    after.given = some (convertedPath inetPton pair, data) ∧
      after.conn.path = convertedPath inetPton pair := by
  simp only [h3PacketProcess, hQuic, Bool.not_true, Bool.false_eq_true, if_false]
  cases results.readPkt with
  | draining | discardPkt | error rv => exact ⟨rfl, rfl⟩
  | ok =>
      by_cases hBind : (results.handshakeCompleted && !conn.controlStreamsBound) = true
      · simp only [hBind, if_true, path_bindControlStreams, and_self]
      · simp only [hBind, Bool.false_eq_true, if_false, and_self]

/-- `h3_packet_process` keeps the path in the face of a pair that does not parse exactly
when there is none, or no ngtcp2 connection. -/
theorem h3PacketProcess_keepsPath_iff (conn : PacketConnection) (data : Octets)
    (addr : Option AddrInfo) (results : ProcessResults) :
    (h3PacketProcess inetPton conn data addr results).KeepsPath inetPton conn addr ↔
      conn.quic = false ∨ ∀ pair, addr = some pair → ¬ pair.Unparsable inetPton := by
  constructor
  · intro h
    by_contra hNot
    push Not at hNot
    obtain ⟨hQuic, pair, rfl, hUnparsable⟩ := hNot
    have hGiven := (h3PacketProcess_given inetPton (by simpa using hQuic) data pair results).1
    exact (h pair rfl hUnparsable).2 _ _ hGiven rfl
  · rintro (hQuic | hParses) pair hAddr hUnparsable
    · simp [h3PacketProcess, hQuic]
    · exact absurd hUnparsable (hParses pair hAddr)

end

/-- `inet_pton` as far as the texts below: a zone is not part of an address. -/
def inetPtonLoopback (family : AddressFamily) (text : Octets) : Option Octets :=
  if family = .inet6 ∧ text = octets "::1" then some (List.replicate 15 0 ++ [1]) else none

/-- A connection over the loopback address. -/
def loopbackConnection : PacketConnection where
  quic := true
  state := .established
  path := convertedPath inetPtonLoopback ⟨octets "::1", 443, octets "::1", 40000⟩
  ctrlStreamId := 3
  qpackEncStreamId := 7
  qpackDecStreamId := 11
  controlStreamsBound := true
  lastError := 0

/-- A packet from `fe80::1%eth0`: the remote address becomes the zero address. -/
theorem h3PacketProcess_zone :
    ¬ (h3PacketProcess inetPtonLoopback loopbackConnection [0x40]
        (some ⟨octets "::1", 443, octets "fe80::1%eth0", 40000⟩)
        ⟨.ok, true, ⟨none, false, none, none, false⟩⟩).KeepsPath inetPtonLoopback
      loopbackConnection (some ⟨octets "::1", 443, octets "fe80::1%eth0", 40000⟩) := by
  intro h
  have hPath := (h _ rfl (Or.inr (by decide))).1
  revert hPath
  decide

end PageCamel.Http3

import PageCamel.Http2.HeaderCompression

/-!
The connection object (`Connection.pm`, `Stream.pm` and the encoders of
`Frame/*.pm`): its streams, its output queue, the stream state machine and the
functions that queue frames.

A Perl hash is an `AList`; an undefined field is `none` and counts as zero in a
number. Application callbacks do not run inside the model: calling one appends
an event, and what the application does next is a later step. The upgrade from
HTTP/1.1, which the front end never offers, is left out.
-/

namespace PageCamel.Http2
open PageCamel.Lib

/-- The order in which Perl enumerates the keys of a hash: unspecified, but
every key comes up once. -/
structure HashOrder where
  order : List Nat → List Nat
  perm : ∀ keys, (order keys).Perm keys

/-- The order in which the model keeps the keys. -/
def HashOrder.kept : HashOrder := ⟨id, fun _ => .refl _⟩

/-! ### Frames -/

structure Frame where
  type : FrameType
  flags : UInt8
  streamId : Nat
  payload : Octets
  deriving DecidableEq, Repr

/-- The arguments of `Headers::encode`. -/
structure HeadersData where
  hblock : Octets
  padding : Option Nat := none
  streamDep : Option Nat := none
  weight : Option Nat := none
  exclusive : Bool := false
  deriving DecidableEq

/-- What `enqueue` is given for a frame of each type. -/
inductive FrameData
  | data (chunk : Octets)
  | headers (h : HeadersData)
  | priority (streamDep weight : Nat)
  | rstStream (code : Nat)
  | settings (settings : Settings)
  | pushPromise (promisedId : Nat) (hblock : Octets)
  | ping (payload : Octets)
  | goaway (lastStream code : Nat)
  | windowUpdate (size : Nat)
  | continuation (hblock : Octets)

def FrameData.type : FrameData → FrameType
  | .data _ => .data
  | .headers _ => .headers
  | .priority _ _ => .priority
  | .rstStream _ => .rstStream
  | .settings _ => .settings
  | .pushPromise _ _ => .pushPromise
  | .ping _ => .ping
  | .goaway _ _ => .goaway
  | .windowUpdate _ => .windowUpdate
  | .continuation _ => .continuation

def HeadersData.encode (h : HeadersData) (flags : UInt8) : UInt8 × Octets :=
  let (flags, pad) :=
    match h.padding with
    | some padding => (flags ||| Flag.padded, [UInt8.ofNat padding])
    | none => (flags, [])
  if h.streamDep.isSome ∨ h.weight.isSome then
    let given := h.weight.getD 0
    let weight := (if given = 0 then defaultWeight else given) - 1
    let dep := h.streamDep.getD 0
    let dep := if h.exclusive then dep ||| 2 ^ 31 else dep
    (flags ||| Flag.priority, pad ++ pack32 dep ++ [UInt8.ofNat weight] ++ h.hblock)
  else (flags, pad ++ h.hblock)

/-- The entries of a settings hash by sorted keys, as `Settings::encode` writes them. -/
def settingsPayload (settings : Settings) : Octets :=
  (settings.entries.mergeSort fun a b => decide (decimal a.1 ≤ decimal b.1)).flatMap fun kv =>
    pack16 kv.1 ++ pack32 kv.2

/-- The encoders, which may add flags. -/
def FrameData.encode (d : FrameData) (flags : UInt8) : UInt8 × Octets :=
  match d with
  | .data chunk => (flags, chunk)
  | .headers h => h.encode flags
  | .priority streamDep weight => (flags, pack32 streamDep ++ [UInt8.ofNat (weight - 1)])
  | .rstStream code => (flags, pack32 code)
  | .settings s => (flags, settingsPayload s)
  | .pushPromise promisedId hblock => (flags, pack32 promisedId ++ hblock)
  | .ping payload => (flags, payload)
  | .goaway lastStream code => (flags, pack32 lastStream ++ pack32 code)
  | .windowUpdate size => (flags, pack32 size)
  | .continuation hblock => (flags, hblock)

/-- The octets of a queued frame: `pack('CnC2N', ...)` and the payload. -/
def Frame.bytes (f : Frame) : Octets :=
  let l := f.payload.length
  [UInt8.ofNat (l >>> 16)] ++ pack16 (l &&& 0xFFFF) ++
    [UInt8.ofNat f.type.code, f.flags] ++ pack32 f.streamId ++ f.payload

/-! ### Streams -/

/-- The functions `Server::new` and `Server::push` register for a stream state. -/
inductive Callback
  | opened
  | halfClosed
  | pushed (promisedSid : Nat) (headers : List Header)
  deriving DecidableEq

structure Stream where
  state : Option StreamState := none
  weight : Option Nat := none
  streamDep : Option Nat := none
  fcwRecv : Option Int := none
  fcwSend : Option Int := none
  reset : Option Nat := none
  promisedSid : Option Nat := none
  headers : Option (List Header) := none
  ppHeaders : Option (List Header) := none
  headerBlock : Option Octets := none
  trailer : Option (List Octets) := none
  trailerHeaders : Option (List Header) := none
  length : Option Octets := none
  blockedData : Option Octets := none
  ended : Option Bool := none
  data : Option Octets := none
  pendingState : Option StreamState := none
  cb : List (StreamState × Callback) := []
  /-- A callback for DATA frames is registered. -/
  dataCb : Bool := false
  deriving DecidableEq

/-- The keys that survive the clean-up of a closed stream. -/
def Stream.cleaned (s : Stream) : Stream :=
  { state := s.state, weight := s.weight, streamDep := s.streamDep
    fcwRecv := s.fcwRecv, fcwSend := s.fcwSend, reset := s.reset }

def Stream.setPending (pending : Option StreamState) (s : Stream) : Stream :=
  { s with pendingState := pending }

def Stream.setReset (code : Nat) (s : Stream) : Stream := { s with reset := some code }

/-- A call of an application callback. -/
inductive Event
  | request (sid : Nat) (headers : List Header) (data : Option Octets)
  | connectRequest (sid : Nat) (headers : List Header) (data : Option Octets)
  | streamData (sid : Nat) (data : Octets)
  deriving DecidableEq

structure Connection where
  type : Endpoint
  streams : AList (fun _ : Nat => Stream) := ∅
  lastStream : Nat
  lastPeerStream : Nat := 0
  activePeerStreams : Nat := 0
  encodeCtx : Context := {}
  decodeCtx : DecodeContext := {}
  error : Option ErrorCode := none
  queue : List Frame := []
  shutdown : Bool := false
  goaway : Bool := false
  preface : Bool := false
  fcwSend : Int := defaultInitialWindowSize
  fcwRecv : Int := defaultInitialWindowSize
  pendingStream : Option Nat := none
  events : List Event := []
  deriving DecidableEq

namespace Connection

/-- `new`: the settings given are copied into both contexts. -/
def new (type : Endpoint) (settings : Settings) : Connection :=
  { type
    lastStream := if type = .client then 1 else 2
    encodeCtx := { settings := settings ∪ defaultSettings }
    decodeCtx :=
      { settings := settings ∪ defaultSettings
        maxHtSize := Settings.value (settings ∪ defaultSettings) Setting.headerTableSize } }

def encSetting (con : Connection) (key : Nat) : Nat := con.encodeCtx.settings.value key

def decSetting (con : Connection) (key : Nat) : Nat := con.decodeCtx.settings.value key

def stream? (con : Connection) (sid : Nat) : Option Stream := con.streams.lookup sid

def setStream (con : Connection) (sid : Nat) (s : Stream) : Connection :=
  { con with streams := con.streams.insert sid s }

/-- An accessor with a new value: nothing happens on a stream that does not exist. -/
def modifyStream (con : Connection) (sid : Nat) (f : Stream → Stream) : Connection :=
  match con.stream? sid with
  | none => con
  | some s => con.setStream sid (f s)

/-- `$self->{streams}->{$sid}->{state}` brings an absent stream into being. -/
def vivify (con : Connection) (sid : Nat) : Connection :=
  if (con.stream? sid).isSome then con else con.setStream sid {}

/-- A field of a stream; undefined on a stream that does not exist. -/
def get {α : Type} (con : Connection) (sid : Nat) (field : Stream → Option α) : Option α :=
  (con.stream? sid).bind field

def pushEvent (con : Connection) (e : Event) : Connection :=
  { con with events := con.events ++ [e] }

/-! ### Errors -/

/-- `finish`. The encoder of GOAWAY sets `goaway`; the state machine ignores the frame. -/
def finish (con : Connection) : Connection :=
  if con.shutdown then con
  else
    let d := FrameData.goaway con.lastPeerStream ((con.error.map ErrorCode.code).getD 0)
    let (flags, payload) := d.encode 0
    { con with
      queue := con.queue ++ [⟨.goaway, flags, 0, payload⟩]
      goaway := true
      shutdown := true }

/-- `error` with a value. -/
def setError (con : Connection) (code : ErrorCode) : Connection :=
  if con.shutdown then con else finish { con with error := some code }

/-! ### Stream states -/

/-- A callback of `Server::new`: a request goes to the application, an extended
CONNECT as soon as the stream is open and any other one when the client is done. -/
def runCallback (con : Connection) (sid : Nat) (cb : Callback) : Connection :=
  let headers := con.get sid Stream.headers
  let data := con.get sid Stream.data
  let field (h : List Header) (name : String) := h.reverse.lookup (octets name)
  let isConnect (h : List Header) : Bool :=
    field h ":method" = some (octets "CONNECT") ∧ (field h ":protocol").isSome
  match cb, headers with
  | .opened, some h => if isConnect h then con.pushEvent (.connectRequest sid h data) else con
  | .halfClosed, some h => if isConnect h then con else con.pushEvent (.request sid h data)
  | .pushed promisedSid h, _ => con.pushEvent (.request promisedSid h none)
  | _, none => con

/-- The callbacks a stream has for its new state. -/
def runCallbacks (con : Connection) (sid : Nat) (new : StreamState)
    (cbs : List (StreamState × Callback)) : Connection :=
  (cbs.filter fun cb => cb.1 = new).foldl (fun con cb => con.runCallback sid cb.2) con

/-- A stream of the peer that closes no longer counts as active. -/
def countClosed (con : Connection) (sid : Nat) : Connection :=
  let peer := sid % 2 = 1 ↔ con.type = .server
  if 0 < con.activePeerStreams ∧ peer then
    { con with activePeerStreams := con.activePeerStreams - 1 }
  else con

/-- `stream_pending_state` with a value. -/
def setPendingState (con : Connection) (sid : Nat) (pending : Option StreamState) : Connection :=
  match con.stream? sid with
  | none => con
  | some s =>
      { con.setStream sid (s.setPending pending) with
        pendingStream := if pending.isSome then some sid else none }

/-- `stream_state` with a new state that is not pending. -/
def setState (con : Connection) (sid : Nat) (new : StreamState) : Connection :=
  match con.stream? sid with
  | none => con
  | some s =>
      let con := (con.setStream sid { s with state := some new }).runCallbacks sid new s.cb
      if new = .closed then (con.countClosed sid).modifyStream sid Stream.cleaned else con

/-- `stream_state`. -/
def streamState (con : Connection) (sid : Nat) (new : StreamState) (pending : Bool) : Connection :=
  if pending then con.setPendingState sid (some new) else con.setState sid new

inductive Act
  | send | recv
  deriving DecidableEq, Repr

/-- `stream_promised_sid($sid, undef, 1)`. -/
def clearPromised (con : Connection) (sid : Nat) : Connection :=
  con.modifyStream sid fun s => { s with promisedSid := none }

/-- The promised stream, if there is one, becomes reserved. -/
def reserve (con : Connection) (promisedSid : Option Nat) (pending : Bool) : Connection :=
  match promisedSid with
  | some target => con.streamState target .reserved pending
  | none => con

/-- The branches of `state_machine` by the state the stream is in. -/
def stateStep (con : Connection) (act : Act) (type : FrameType) (flags : UInt8)
    (sid : Nat) (promisedSid : Option Nat) (prev : Option StreamState) : Connection :=
  let endStream := hasFlag flags Flag.endStream
  let endHeaders := hasFlag flags Flag.endHeaders
  let srv2cln : Bool := con.type = .server ↔ act = .send
  let cln2srv : Bool := !srv2cln
  let pending : Bool := (type = .headers ∨ type = .pushPromise) ∧ !endHeaders
  match prev with
  | some .idle =>
      if type = .headers ∧ cln2srv then
        con.streamState sid (if endStream then .halfClosed else .opened) pending
      else if type = .pushPromise ∧ srv2cln then
        let con := con.reserve promisedSid pending
        if endHeaders then con.clearPromised sid else con
      else if type = .rstStream ∧ act = .send then con.setState sid .closed
      else if type ≠ .priority then con.setError .protocolError
      else con
  | some .opened =>
      if endStream ∧ (type = .data ∨ type = .headers) then con.streamState sid .halfClosed pending
      else if type = .rstStream then con.setState sid .closed
      else if type = .headers ∧ !pending ∧ (con.get sid Stream.trailer).isSome then
        con.setError .protocolError
      else con
  | some .reserved =>
      if type = .rstStream then con.setState sid .closed
      else if type = .headers ∧ srv2cln then
        con.streamState sid (if endStream then .closed else .halfClosed) pending
      else if type ≠ .priority ∧ cln2srv then con.setError .protocolError
      else con
  | some .halfClosed =>
      if type = .rstStream ∨ (endStream ∧ srv2cln) then con.streamState sid .closed pending
      else if type ≠ .windowUpdate ∧ type ≠ .priority ∧ cln2srv then con.setError .protocolError
      else con
  | some .closed =>
      if type ≠ .priority ∧ type ≠ .windowUpdate ∧ cln2srv then con.setError .streamClosed
      else con
  | none => con.setError .internalError

/-- `state_machine`. -/
def stateMachine (con : Connection) (act : Act) (type : FrameType) (flags : UInt8) (sid : Nat) :
    Connection :=
  if sid = 0 ∨ type = .settings ∨ type = .goaway ∨ !con.preface then con
  else
    let promisedSid := con.get sid Stream.promisedSid
    let target := promisedSid.getD sid
    let con := con.vivify target
    let prev := con.get target Stream.state
    if prev = none ∧ type = .rstStream ∧ act = .send then con
    else
      match con.get sid Stream.pendingState with
      | some ps =>
          -- wait until all CONTINUATION frames arrive
          if type ≠ .continuation then con.setError .protocolError
          else if hasFlag flags Flag.endHeaders then
            let con := if promisedSid.isSome then con.clearPromised sid else con
            (con.setPendingState target none).setState target ps
          else con
      | none =>
          if type = .continuation then con.setError .protocolError
          else con.stateStep act type flags sid promisedSid prev

/-! ### The output queue -/

/-- What an encoder changes on the connection. -/
def encodeEffect (con : Connection) (d : FrameData) (sid : Nat) : Connection :=
  match d with
  | .rstStream code => con.modifyStream sid (Stream.setReset code)
  | .goaway _ _ => { con with goaway := true }
  | _ => con

/-- `frame_encode`. -/
def frameEncode (con : Connection) (d : FrameData) (flags : UInt8) (sid : Nat) : Connection × Frame :=
  let (flags, payload) := d.encode flags
  (con.encodeEffect d sid, ⟨d.type, flags, sid, payload⟩)

def push (con : Connection) (frame : Frame) : Connection :=
  { con with queue := con.queue ++ [frame] }

/-- `enqueue` of one frame. -/
def enqueue (con : Connection) (d : FrameData) (flags : UInt8) (sid : Nat) : Connection :=
  let (con, frame) := con.frameEncode d flags sid
  (con.push frame).stateMachine .send d.type flags sid

/-- `enqueue_first` of one frame: behind the CONTINUATION and PING frames that head the queue. -/
def enqueueFirst (con : Connection) (d : FrameData) (flags : UInt8) (sid : Nat) : Connection :=
  let (con, frame) := con.frameEncode d flags sid
  let held := con.queue.takeWhile fun f => f.type = .continuation ∨ f.type = .ping
  let rest := con.queue.drop held.length
  ({ con with queue := held ++ frame :: rest }).stateMachine .send d.type flags sid

def dequeue (con : Connection) : Connection := { con with queue := con.queue.tail }

/-- `stream_error`: resets the stream. -/
def streamError (con : Connection) (sid : Nat) (code : ErrorCode) : Connection :=
  con.enqueue (.rstStream code.code) 0 sid

def acceptSettings (con : Connection) : Connection := con.enqueue (.settings ∅) Flag.ack 0

/-! ### Sending header blocks -/

/-- The CONTINUATION frames both senders end with. A frame size of zero would
make the loop of the source run forever. -/
def sendContinuations (maxSize sid : Nat) : Nat → Connection → Octets → Connection
  | 0, con, _ => con
  | fuel + 1, con, headerBlock =>
      if headerBlock.length > 0 then
        let contFlags := if headerBlock.length ≤ maxSize then 0 else Flag.endHeaders
        sendContinuations maxSize sid fuel
          (con.enqueue (.continuation (headerBlock.take maxSize)) contFlags sid)
          (headerBlock.drop maxSize)
      else con

def sendHeaders (con : Connection) (sid : Nat) (headers : List Header) (ended : Bool) : Connection :=
  let maxSize := con.encSetting Setting.maxFrameSize
  let (encodeCtx, headerBlock) := headersEncode con.encodeCtx headers
  let con := { con with encodeCtx }
  let flags := if ended then Flag.endStream else 0
  let flags := if headerBlock.length ≤ maxSize then flags ||| Flag.endHeaders else flags
  let con := con.enqueue (.headers { hblock := headerBlock.take maxSize }) flags sid
  sendContinuations maxSize sid headerBlock.length con (headerBlock.drop maxSize)

def sendPpHeaders (con : Connection) (sid promisedId : Nat) (headers : List Header) : Connection :=
  let maxSize := con.encSetting Setting.maxFrameSize
  let (encodeCtx, headerBlock) := headersEncode con.encodeCtx headers
  let con := { con with encodeCtx }
  let flags := if headerBlock.length ≤ maxSize then Flag.endHeaders else 0
  let con := con.enqueue (.pushPromise promisedId (headerBlock.take (maxSize - 4))) flags sid
  sendContinuations maxSize sid headerBlock.length con (headerBlock.drop (maxSize - 4))

/-! ### Sending data -/

/-- `$size`: the least of the frame size, what is left and the two windows. A
stream that does not exist adds no bound. -/
def sendSize (con : Connection) (sid l : Nat) : Int :=
  let size : Int := min (con.encSetting Setting.maxFrameSize) l
  let size := min size con.fcwSend
  match con.stream? sid with
  | none => size
  | some s => min size (s.fcwSend.getD 0)

/-- `fcw_send` and `stream_fcw_send` with a delta. -/
def addFcwSend (con : Connection) (delta : Int) : Connection :=
  { con with fcwSend := con.fcwSend + delta }

def addStreamFcwSend (con : Connection) (sid : Nat) (delta : Int) : Connection :=
  con.modifyStream sid fun s => { s with fcwSend := some (s.fcwSend.getD 0 + delta) }

/-- The loop of `send_data`: the connection and the data left over. A negative
size cuts nothing off the empty string it can only meet. -/
def sendDataLoop (sid : Nat) (ended : Bool) : Nat → Connection → Octets → Connection × Octets
  | 0, con, data => (con, data)
  | fuel + 1, con, data =>
      let l := data.length
      let size := con.sendSize sid l
      if l ≠ 0 ∧ size ≤ 0 then (con, data)
      else
        let con := (con.addFcwSend (-size)).addStreamFcwSend sid (-size)
        let flags := if ended ∧ (l : Int) = size then Flag.endStream else 0
        let con := con.enqueue (.data (data.take size.toNat)) flags sid
        let data := data.drop size.toNat
        if (l : Int) = size then (con, data) else sendDataLoop sid ended fuel con data

/-- `send_data`. Every turn but the last sends at least one octet or brings two
negative windows up to zero. -/
def sendData (con : Connection) (sid : Nat) (chunk : Octets) (ended : Option Bool) : Connection :=
  let data := (con.get sid Stream.blockedData).getD [] ++ chunk
  let con := if ended.isSome then con.modifyStream sid fun s => { s with ended } else con
  let ended := (con.get sid Stream.ended).getD false
  let (con, data) := sendDataLoop sid ended (data.length + 3) con data
  con.modifyStream sid fun s => { s with blockedData := some data }

/-- `stream_send_blocked`. -/
def streamSendBlocked (con : Connection) (sid : Nat) : Connection :=
  match con.stream? sid with
  | none => con
  | some s =>
      if s.blockedData.getD [] ≠ [] ∧ s.fcwSend.getD 0 > 0 then con.sendData sid [] none else con

/-- `send_blocked`. -/
def sendBlocked (ord : HashOrder) (con : Connection) : Connection :=
  (ord.order con.streams.keys).foldl streamSendBlocked con

/-! ### Windows -/

def addFcwRecv (con : Connection) (delta : Int) : Connection :=
  { con with fcwRecv := con.fcwRecv + delta }

def addStreamFcwRecv (con : Connection) (sid : Nat) (delta : Int) : Connection :=
  con.modifyStream sid fun s => { s with fcwRecv := some (s.fcwRecv.getD 0 + delta) }

/-- `fcw_update`. -/
def fcwUpdate (con : Connection) : Connection :=
  let size := con.decSetting Setting.initialWindowSize
  (con.addFcwRecv size).enqueue (.windowUpdate size) 0 0

/-- `stream_fcw_update`. -/
def streamFcwUpdate (con : Connection) (sid : Nat) : Connection :=
  let size := con.decSetting Setting.initialWindowSize
  (con.addStreamFcwRecv sid size).enqueue (.windowUpdate size) 0 sid

/-- `fcw_initial_change`: the send window of every stream that is not closed
moves with the setting. -/
def fcwInitialChange (con : Connection) (size : Nat) : Connection :=
  let diff : Int := size - con.encSetting Setting.initialWindowSize
  con.streams.keys.foldl
    (fun con sid =>
      if con.get sid Stream.state = some .closed then con else con.addStreamFcwSend sid diff) con

/-! ### New streams -/

def newStreamEntry (con : Connection) : Stream :=
  { state := some .idle
    weight := some defaultWeight
    streamDep := some 0
    fcwRecv := some (con.decSetting Setting.initialWindowSize : Nat)
    fcwSend := some (con.encSetting Setting.initialWindowSize : Nat) }

/-- `new_stream`: the id of the stream, if the connection is not going away. -/
def newStream (con : Connection) : Connection × Option Nat :=
  if con.goaway then (con, none)
  else
    let first := if con.type = .client then 1 else 2
    let lastStream := if (con.stream? first).isSome then con.lastStream + 2 else con.lastStream
    (({ con with lastStream }).setStream lastStream con.newStreamEntry, some lastStream)

/-- A stream id the peer may not open. -/
def badPeerStream (con : Connection) (sid : Nat) : Bool :=
  sid < con.lastPeerStream ∨ sid % 2 = (if con.type = .client then 1 else 0) ∨ con.goaway

/-- As many streams of the peer are active as the settings allow. -/
def peerStreamsFull (con : Connection) : Bool :=
  con.decSetting Setting.maxConcurrentStreams ≤ con.activePeerStreams

def setLastPeerStream (con : Connection) (sid : Nat) : Connection :=
  { con with lastPeerStream := sid }

/-- The entry `new_peer_stream` makes. The callbacks are those
`on_new_peer_stream` registers. -/
def admitted (con : Connection) (sid : Nat) : Connection :=
  let entry := { con.newStreamEntry with cb := [(.opened, .opened), (.halfClosed, .halfClosed)] }
  { con.setStream sid entry with
    lastPeerStream := sid
    activePeerStreams := con.activePeerStreams + 1 }

/-- `new_peer_stream`; the second component says whether the stream was made. -/
def newPeerStream (con : Connection) (sid : Nat) : Connection × Bool :=
  if con.badPeerStream sid then (con.setError .protocolError, false)
  else if con.peerStreamsFull then
    ((con.setLastPeerStream sid).streamError sid .refusedStream, false)
  else (con.admitted sid, true)

/-! ### Priorities -/

/-- The walk of `stream_reprio` from `sid` up the dependencies: does it meet
`streamId`? Only a cycle is longer than the number of streams. -/
def dependsOn (con : Connection) (streamId : Nat) : Nat → Nat → Bool
  | 0, _ => false
  | fuel + 1, sid =>
      match (con.get sid Stream.streamDep).getD 0 with
      | 0 => false
      | up => up = streamId || dependsOn con streamId fuel up

def setStreamDep (con : Connection) (sid dep : Nat) : Connection :=
  con.modifyStream sid fun s => { s with streamDep := some dep }

/-- The stream depends on `streamDep` from now on; if it was above that stream,
that one moves to its old place first. -/
def changeDep (con : Connection) (sid streamDep : Nat) : Connection :=
  let old := (con.get sid Stream.streamDep).getD 0
  if old = streamDep then con
  else if streamDep ≠ 0 ∧ con.dependsOn sid con.streams.keys.length streamDep then
    (con.setStreamDep streamDep old).setStreamDep sid streamDep
  else con.setStreamDep sid streamDep

/-- The other streams that depend on `streamDep` now depend on the stream. -/
def takeSiblings (con : Connection) (sid streamDep : Nat) : Connection :=
  con.streams.keys.foldl
    (fun con other =>
      if (con.get other Stream.streamDep).getD 0 ≠ streamDep ∨ other = sid then con
      else con.setStreamDep other sid) con

/-- `stream_reprio`; the second component is its truth value. -/
def streamReprio (con : Connection) (sid : Nat) (exclusive : Bool) (streamDep : Nat) :
    Connection × Bool :=
  if (con.stream? sid).isNone ∨ (streamDep ≠ 0 ∧ (con.stream? streamDep).isNone) ∨ sid = streamDep then
    (con, false)
  else
    let con := con.changeDep sid streamDep
    (if exclusive then con.takeSiblings sid streamDep else con, true)

/-- `ack_ping`. -/
def ackPing (con : Connection) (payload : Octets) : Connection :=
  con.enqueueFirst (.ping payload) Flag.ack 0

/-- `send_ping` with a payload, cut or filled with blanks to eight octets. -/
def sendPing (con : Connection) (payload : Octets) : Connection :=
  let payload := payload.take pingPayloadSize ++
    List.replicate (pingPayloadSize - payload.length) 0x20
  con.enqueue (.ping payload) 0 0

end Connection
end PageCamel.Http2

import PageCamel.Http2.HeaderBlock

/-!
Receiving frames (`Frame.pm` and the decoders of `Frame/*.pm`). A decoder is
given the buffer from the payload on; like the source it may look past the
payload when the frame is too short. `none` stands for `undef`.
-/

namespace PageCamel.Http2
open PageCamel.Lib

structure FrameHeader where
  length : Nat
  type : FrameType
  flags : UInt8
  stream : Nat
  deriving DecidableEq, Repr

/-- `frame_header_decode` on a buffer of at least nine octets. -/
def frameHeaderDecode (buf : Octets) : FrameHeader :=
  { length := unpack8 buf <<< 16 + unpack16 (buf.drop 1)
    type := FrameType.ofCode (unpack8 (buf.drop 3))
    flags := (buf.drop 4).headD 0
    stream := unpack32 (buf.drop 5) &&& 0x7FFFFFFF }

/-- The numeric value of a string: leading blanks and a sign, then digits with an
optional fraction and exponent; anything after that is ignored. -/
def numericValue (s : Octets) : Rat :=
  let s := s.dropWhile fun b => b = 0x20 ∨ (0x09 ≤ b ∧ b ≤ 0x0D)
  let (sign, s) : Rat × Octets := match s with
    | 0x2D :: s => (-1, s)
    | 0x2B :: s => (1, s)
    | s => (1, s)
  let whole := s.takeWhile isDigit
  let rest := s.drop whole.length
  let fraction := match rest with
    | 0x2E :: s => s.takeWhile isDigit
    | _ => []
  let rest := if rest.head? = some 0x2E then rest.drop (1 + fraction.length) else rest
  let mantissa : Rat := digitsValue (whole ++ fraction) / 10 ^ fraction.length
  let exponent : Int := match rest with
    | e :: s =>
        if (e = 0x65 ∨ e = 0x45) ∧ (whole ≠ [] ∨ fraction ≠ []) then
          match s with
          | 0x2D :: s => -(digitsValue (s.takeWhile isDigit) : Int)
          | 0x2B :: s => digitsValue (s.takeWhile isDigit)
          | s => digitsValue (s.takeWhile isDigit)
        else 0
    | [] => 0
  sign * mantissa * 10 ^ exponent

/-- `$offset` after the octet that gives the size of the padding, if there is one. -/
def padOffset (fh : FrameHeader) : Nat := if hasFlag fh.flags Flag.padded then 1 else 0

/-- `$pad`. -/
def padSize (fh : FrameHeader) (buf : Octets) : Nat :=
  if hasFlag fh.flags Flag.padded then unpack8 buf else 0

/-- Where the block of a HEADERS frame starts. -/
def headersOffset (fh : FrameHeader) : Nat :=
  padOffset fh + if hasFlag fh.flags Flag.priority then 5 else 0

/-- The header block in a HEADERS frame. -/
def headersBlock (fh : FrameHeader) (buf : Octets) : Octets :=
  (buf.drop (headersOffset fh)).take (fh.length - headersOffset fh - padSize fh buf)

/-- The stream a PUSH_PROMISE frame announces. -/
def promisedId (fh : FrameHeader) (buf : Octets) : Nat :=
  unpack32 (buf.drop (padOffset fh)) &&& 0x7FFFFFFF

/-- Where the block of a PUSH_PROMISE frame starts. -/
def promiseOffset (fh : FrameHeader) : Nat := padOffset fh + 4

def promiseBlock (fh : FrameHeader) (buf : Octets) : Octets :=
  (buf.drop (promiseOffset fh)).take (fh.length - promiseOffset fh - padSize fh buf)

namespace Connection

/-! ### DATA -/

/-- `stream_data` with a value: the callbacks for DATA get it, or it is collected. -/
def streamData (con : Connection) (sid : Nat) (data : Octets) : Connection :=
  match con.stream? sid with
  | none => con
  | some s =>
      if s.dataCb then con.pushEvent (.streamData sid data)
      else con.setStream sid { s with data := some (s.data.getD [] ++ data) }

/-- The last check of `Data::decode`. -/
def checkContentLength (con : Connection) (sid : Nat) : Connection :=
  match con.get sid Stream.length, con.get sid Stream.data with
  | some slen, some data =>
      if numericValue slen ≠ data.length then con.streamError sid .protocolError else con
  | _, _ => con

/-- The windows are refilled when they run low. -/
def refillWindows (con : Connection) (sid : Nat) (endStream : Bool) : Connection :=
  let fcw := con.fcwRecv
  let streamFcw := (con.get sid Stream.fcwRecv).getD 0
  let least : Int := con.decSetting Setting.maxFrameSize
  let con := if fcw < least then con.fcwUpdate else con
  if streamFcw < least ∧ !endStream then con.streamFcwUpdate sid else con

def dataDecode (con : Connection) (fh : FrameHeader) (buf : Octets) : Connection × Option Nat :=
  if fh.stream = 0 then (con.setError .protocolError, none)
  else
    let offset := padOffset fh
    if fh.length < offset + padSize fh buf then (con.setError .protocolError, none)
    else
      let dblockSize := fh.length - offset - padSize fh buf
      let con := (con.addFcwRecv (-fh.length)).addStreamFcwRecv fh.stream (-fh.length)
      if con.fcwRecv < 0 ∨ (con.get fh.stream Stream.fcwRecv).getD 0 < 0 then
        (con.streamError fh.stream .flowControlError, some fh.length)
      else
        let endStream := hasFlag fh.flags Flag.endStream
        let con := con.refillWindows fh.stream endStream
        if dblockSize = 0 then (con, some fh.length)
        else
          let con := con.streamData fh.stream ((buf.drop offset).take dblockSize)
          let con := if endStream then con.checkContentLength fh.stream else con
          (con, some fh.length)

/-! ### HEADERS, CONTINUATION and PUSH_PROMISE -/

/-- The end of the three decoders of header blocks: the block of the stream is
set, and decoded once the frame ends it. -/
def blockDecode (con : Connection) (fh : FrameHeader) (block : Octets) : Connection × Option Nat :=
  let con := con.setHeaderBlock fh.stream block
  if hasFlag fh.flags Flag.endHeaders then
    match con.streamHeadersDone fh.stream with
    | (con, true) => (con, some fh.length)
    | (con, false) => (con, none)
  else (con, some fh.length)

def setWeight (con : Connection) (sid weight : Nat) : Connection :=
  con.modifyStream sid fun s => { s with weight := some weight }

/-- The priority of a HEADERS frame; the second component is false on a malformed one. -/
def headersPriority (con : Connection) (fh : FrameHeader) (buf : Octets) : Connection × Bool :=
  if hasFlag fh.flags Flag.priority then
    let buf := buf.drop (padOffset fh)
    let dep := unpack32 buf
    (con.setWeight fh.stream (unpack8 (buf.drop 4) + 1)).streamReprio fh.stream
      (dep >>> 31 ≠ 0) (dep &&& 0x7FFFFFFF)
  else (con, true)

def headersFrameDecode (con : Connection) (fh : FrameHeader) (buf : Octets) :
    Connection × Option Nat :=
  if fh.stream = 0 then (con.setError .protocolError, none)
  else
    match con.headersPriority fh buf with
    | (con, false) => (con.setError .protocolError, none)
    | (con, true) =>
        if fh.length < headersOffset fh + padSize fh buf then (con.setError .protocolError, none)
        else con.blockDecode fh (headersBlock fh buf)

/-- The block of the stream is set to this fragment, as in the other two decoders. -/
def continuationDecode (con : Connection) (fh : FrameHeader) (buf : Octets) :
    Connection × Option Nat :=
  if fh.stream = 0 then (con.setError .protocolError, none)
  else con.blockDecode fh (buf.take fh.length)

/-- `stream_promised_sid` with a value. -/
def setPromised (con : Connection) (sid promisedSid : Nat) : Connection :=
  con.modifyStream sid fun s => { s with promisedSid := some promisedSid }

def pushPromiseDecode (con : Connection) (fh : FrameHeader) (buf : Octets) :
    Connection × Option Nat :=
  if fh.stream = 0 ∨ con.decSetting Setting.enablePush = 0 then (con.setError .protocolError, none)
  else
    if fh.length < promiseOffset fh + padSize fh buf then (con.setError .frameSizeError, none)
    else
      match con.newPeerStream (promisedId fh buf) with
      | (con, false) => (con, none)
      | (con, true) =>
          (con.setPromised fh.stream (promisedId fh buf)).blockDecode fh (promiseBlock fh buf)

/-! ### PRIORITY and RST_STREAM -/

def priorityDecode (con : Connection) (fh : FrameHeader) (buf : Octets) : Connection × Option Nat :=
  if fh.stream = 0 then (con.setError .protocolError, none)
  else if fh.length ≠ 5 then (con.setError .frameSizeError, none)
  else
    let dep := unpack32 buf
    let con := con.setWeight fh.stream (unpack8 (buf.drop 4) + 1)
    match con.streamReprio fh.stream (dep >>> 31 ≠ 0) (dep &&& 0x7FFFFFFF) with
    | (con, true) => (con, some fh.length)
    | (con, false) => (con.setError .protocolError, none)

def rstStreamDecode (con : Connection) (fh : FrameHeader) (buf : Octets) : Connection × Option Nat :=
  if fh.stream = 0 then (con.setError .protocolError, none)
  else if fh.length ≠ 4 then (con.setError .frameSizeError, none)
  else (con.modifyStream fh.stream (Stream.setReset (unpack32 buf)), some fh.length)

/-! ### SETTINGS -/

/-- `%s_check`: the error for a value outside the range of its setting. -/
def settingError (key value : Nat) : Option ErrorCode :=
  if key = Setting.maxFrameSize then
    if value ≤ maxPayloadSize ∧ value ≥ defaultMaxFrameSize then none else some .protocolError
  else if key = Setting.enablePush ∨ key = Setting.enableConnectProtocol then
    if value = 0 ∨ value = 1 then none else some .protocolError
  else if key = Setting.initialWindowSize then
    if value ≤ maxFcwSize then none else some .flowControlError
  else none

/-- One turn of the loop over the settings: nothing on an invalid value. The
peer's value of ENABLE_CONNECT_PROTOCOL is not stored. -/
def applySetting (con : Connection) (key value : Nat) : Except ErrorCode Connection :=
  if (con.encodeCtx.settings.lookup key).isNone then .ok con
  else
    match settingError key value with
    | some code => .error code
    | none =>
        let con := if key = Setting.initialWindowSize then con.fcwInitialChange value else con
        if key = Setting.enableConnectProtocol then .ok con
        else
          .ok { con with
            encodeCtx := { con.encodeCtx with settings := con.encodeCtx.settings.insert key value } }

/-- `unpack('(nN)*', ...)`. -/
def settingsPairs : Octets → List (Nat × Nat)
  | a :: b :: c :: d :: e :: f :: rest =>
      (unpack16 [a, b], unpack32 [c, d, e, f]) :: settingsPairs rest
  | _ => []

/-- The loop over the settings; the second component says whether it ran through. -/
def applySettings (con : Connection) : List (Nat × Nat) → Connection × Bool
  | [] => (con, true)
  | (key, value) :: rest =>
      match con.applySetting key value with
      | .ok con => con.applySettings rest
      | .error code => (con.setError code, false)

def settingsDecode (con : Connection) (fh : FrameHeader) (buf : Octets) : Connection × Option Nat :=
  if fh.stream ≠ 0 then (con.setError .protocolError, none)
  else if hasFlag fh.flags Flag.ack then
    if fh.length ≠ 0 then (con.setError .frameSizeError, none) else (con, some 0)
  else if fh.length = 0 then (con.acceptSettings, some 0)
  else if fh.length % 6 ≠ 0 then (con.setError .frameSizeError, none)
  else
    match con.applySettings (settingsPairs (buf.take fh.length)) with
    | (con, true) => (con.acceptSettings, some fh.length)
    | (con, false) => (con, none)

/-! ### PING, GOAWAY and WINDOW_UPDATE -/

def pingDecode (con : Connection) (fh : FrameHeader) (buf : Octets) : Connection × Option Nat :=
  if fh.stream ≠ 0 then (con.setError .protocolError, none)
  else if fh.length ≠ pingPayloadSize then (con.setError .frameSizeError, none)
  else if hasFlag fh.flags Flag.ack then (con, some fh.length)
  else (con.ackPing (buf.take fh.length), some fh.length)

def goawayDecode (con : Connection) (fh : FrameHeader) : Connection × Option Nat :=
  if fh.stream ≠ 0 then (con.setError .protocolError, none)
  else ({ con with goaway := true }, some fh.length)

def windowUpdateDecode (ord : HashOrder) (con : Connection) (fh : FrameHeader) (buf : Octets) :
    Connection × Option Nat :=
  if fh.length ≠ 4 then (con.setError .frameSizeError, none)
  else
    let fcwAdd := unpack32 buf &&& 0x7FFFFFFF
    if fcwAdd = 0 then (con.setError .protocolError, none)
    else if fh.stream = 0 then
      let con := con.addFcwSend fcwAdd
      (if con.fcwSend > maxFcwSize then con.setError .flowControlError else con.sendBlocked ord,
        some fh.length)
    else
      match con.stream? fh.stream with
      | none => (con, some fh.length)
      | some _ =>
          let con := con.addStreamFcwSend fh.stream fcwAdd
          if (con.get fh.stream Stream.fcwSend).getD 0 > maxFcwSize then
            (con.streamError fh.stream .flowControlError, some fh.length)
          else (con.streamSendBlocked fh.stream, some fh.length)

/-! ### All frames -/

/-- The table of decoders. -/
def payloadDecode (ord : HashOrder) (con : Connection) (fh : FrameHeader) (buf : Octets) :
    Connection × Option Nat :=
  match fh.type with
  | .data => con.dataDecode fh buf
  | .headers => con.headersFrameDecode fh buf
  | .priority => con.priorityDecode fh buf
  | .rstStream => con.rstStreamDecode fh buf
  | .settings => con.settingsDecode fh buf
  | .pushPromise => con.pushPromiseDecode fh buf
  | .ping => con.pingDecode fh buf
  | .goaway => con.goawayDecode fh
  | .windowUpdate => con.windowUpdateDecode ord fh buf
  | .continuation => con.continuationDecode fh buf
  | .unknown _ => (con, some fh.length)

/-- The end of `frame_decode`, for a frame whose stream exists: the payload is
decoded, and then the frame may change the state of its stream. -/
def frameReceive (ord : HashOrder) (con : Connection) (fh : FrameHeader) (buf : Octets) :
    Connection × Option Nat :=
  match con.payloadDecode ord fh buf with
  | (con, none) => (con, none)
  | (con, some _) =>
      (con.stateMachine .recv fh.type fh.flags fh.stream, some (frameHeaderSize + fh.length))

/-- The streams of the peer are made by the first frame for them. -/
def frameAdmit (ord : HashOrder) (con : Connection) (fh : FrameHeader) (buf : Octets) :
    Connection × Option Nat :=
  if fh.stream ≠ 0 ∧ (con.stream? fh.stream).isNone then
    match con.newPeerStream fh.stream with
    | (con, true) => con.frameReceive ord fh buf
    | (con, false) => (con, if con.error.isSome then none else some (frameHeaderSize + fh.length))
  else con.frameReceive ord fh buf

/-- Another frame is due first: the next CONTINUATION of a header block. -/
def awaitsOther (con : Connection) (fh : FrameHeader) : Bool :=
  con.pendingStream.any fun pending => fh.type ≠ .continuation ∨ pending ≠ fh.stream

/-- `frame_decode` from the point where the whole frame is known to be there. -/
def frameApply (ord : HashOrder) (con : Connection) (fh : FrameHeader) (buf : Octets) :
    Connection × Option Nat :=
  if con.awaitsOther fh then (con.setError .protocolError, none)
  else
    match fh.type with
    | .unknown _ => (con, some (frameHeaderSize + fh.length))
    | _ => con.frameAdmit ord fh buf

/-- `frame_decode`: `some 0` when the frame is not complete. -/
def frameDecode (ord : HashOrder) (con : Connection) (buf : Octets) : Connection × Option Nat :=
  if buf.length < frameHeaderSize then (con, some 0)
  else
    let fh := frameHeaderDecode buf
    if fh.length > con.decSetting Setting.maxFrameSize then (con.setError .frameSizeError, none)
    else if buf.length < frameHeaderSize + fh.length then (con, some 0)
    else con.frameApply ord fh (buf.drop frameHeaderSize)

end Connection
end PageCamel.Http2

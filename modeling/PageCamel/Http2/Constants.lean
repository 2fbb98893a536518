import Mathlib.Data.List.AList
import PageCamel.Lib.Octets

/-!
Constants of the HTTP/2 implementation (`Constants.pm`): frame types, flags,
stream states, error codes, settings and limits.
-/

namespace PageCamel.Http2
open PageCamel.Lib

/-- Frame types; a code outside the table of decoders is kept as it is. -/
inductive FrameType
  | data | headers | priority | rstStream | settings | pushPromise | ping | goaway
  | windowUpdate | continuation
  | unknown (code : Nat)
  deriving DecidableEq, Repr

def FrameType.ofCode : Nat → FrameType
  | 0 => .data
  | 1 => .headers
  | 2 => .priority
  | 3 => .rstStream
  | 4 => .settings
  | 5 => .pushPromise
  | 6 => .ping
  | 7 => .goaway
  | 8 => .windowUpdate
  | 9 => .continuation
  | code => .unknown code

def FrameType.code : FrameType → Nat
  | .data => 0
  | .headers => 1
  | .priority => 2
  | .rstStream => 3
  | .settings => 4
  | .pushPromise => 5
  | .ping => 6
  | .goaway => 7
  | .windowUpdate => 8
  | .continuation => 9
  | .unknown code => code

inductive StreamState
  | idle | reserved | opened | halfClosed | closed
  deriving DecidableEq, Repr

inductive Endpoint
  | client | server
  deriving DecidableEq, Repr

inductive ErrorCode
  | protocolError | internalError | flowControlError | streamClosed | frameSizeError
  | refusedStream | compressionError
  deriving DecidableEq, Repr

def ErrorCode.code : ErrorCode → Nat
  | .protocolError => 1
  | .internalError => 2
  | .flowControlError => 3
  | .streamClosed => 5
  | .frameSizeError => 6
  | .refusedStream => 7
  | .compressionError => 9

namespace Flag
def ack : UInt8 := 0x1
def endStream : UInt8 := 0x1
def endHeaders : UInt8 := 0x4
def padded : UInt8 := 0x8
def priority : UInt8 := 0x20
end Flag

/-- `$flags & $flag` as a condition. -/
def hasFlag (flags flag : UInt8) : Bool := flags &&& flag != 0

namespace Setting
def headerTableSize : Nat := 1
def enablePush : Nat := 2
def maxConcurrentStreams : Nat := 3
def initialWindowSize : Nat := 4
def maxFrameSize : Nat := 5
def maxHeaderListSize : Nat := 6
def enableConnectProtocol : Nat := 8
end Setting

def maxIntSize : Nat := 4
def maxPayloadSize : Nat := 2 ^ 24 - 1
def frameHeaderSize : Nat := 9
def maxFcwSize : Nat := 2 ^ 31 - 1
def pingPayloadSize : Nat := 8
def defaultHeaderTableSize : Nat := 4096
def defaultMaxConcurrentStreams : Nat := 100
def defaultInitialWindowSize : Nat := 65535
def defaultMaxFrameSize : Nat := 16384
def defaultMaxHeaderListSize : Nat := 65536
def defaultWeight : Nat := 16

def preface : Octets := octets "PRI * HTTP/2.0\r\n\r\nSM\r\n\r\n"

/-- The settings of one direction (`$self->{encode_ctx}{settings}`). -/
abbrev Settings := AList (fun _ : Nat => Nat)

/-- `%default_settings`. -/
def defaultSettings : Settings :=
  List.toAList [
    ⟨Setting.headerTableSize, defaultHeaderTableSize⟩,
    ⟨Setting.enablePush, 1⟩,
    ⟨Setting.maxConcurrentStreams, defaultMaxConcurrentStreams⟩,
    ⟨Setting.initialWindowSize, defaultInitialWindowSize⟩,
    ⟨Setting.maxFrameSize, defaultMaxFrameSize⟩,
    ⟨Setting.maxHeaderListSize, defaultMaxHeaderListSize⟩,
    ⟨Setting.enableConnectProtocol, 0⟩]

/-- A setting in a numeric context; an absent one counts as zero. -/
def Settings.value (settings : Settings) (key : Nat) : Nat := (settings.lookup key).getD 0

end PageCamel.Http2

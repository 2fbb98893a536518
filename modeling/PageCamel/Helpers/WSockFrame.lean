import PageCamel.Lib.Octets

/-!
WebSocket frames (`Helpers/WSockFrame.pm`). The object both builds a frame and
collects the octets that have arrived; its buffer holds octets. `die` leaves the
object as it was changed up to then.
-/

namespace PageCamel.Helpers
open PageCamel.Lib

def maxPayloadSizeDefault : Nat := 500 * 1024 * 1024
def maxFragmentsAmountDefault : Nat := 128

/-- The keys of `%TYPES`. -/
inductive WSType
  | continuation | text | binary | ping | pong | close
  deriving DecidableEq, Repr

def WSType.opcode : WSType → Nat
  | .continuation => 0x00
  | .text => 0x01
  | .binary => 0x02
  | .ping => 0x09
  | .pong => 0x0A
  | .close => 0x08

/-- The two old versions, and all others. -/
inductive WSVersion
  | hixie75 | hybi00 | hybi17
  deriving DecidableEq, Repr

structure WSockFrame where
  buffer : Octets := []
  type : Option WSType := none
  opcode? : Option Nat := none
  fin? : Option Bool := none
  rsv : Option (Bool × Bool × Bool) := none
  masked : Bool := false
  mask : Option Nat := none
  version : WSVersion := .hybi17
  maxPayloadSize : Nat := maxPayloadSizeDefault
  maxFragmentsAmount : Nat := maxFragmentsAmountDefault
  /-- The list of fragments: the opcode of the first one, then their payloads. -/
  fragments : Option (Nat × List Octets) := none
  deriving DecidableEq, Repr

namespace WSockFrame

/-- `new` with these arguments. -/
def new (args : WSockFrame) : WSockFrame :=
  { args with
    opcode? := match args.type with
      | some type => some type.opcode
      | none => args.opcode?
    fragments := none }

def append (f : WSockFrame) (data : Octets) : WSockFrame := { f with buffer := f.buffer ++ data }

def fin (f : WSockFrame) : Bool := f.fin?.getD true

def opcode (f : WSockFrame) : Nat := f.opcode?.getD 1

/-- `_mask`: the mask over and over, and no longer than the payload. -/
def maskWith (payload mask : Octets) : Octets :=
  let key := (List.replicate (payload.length / 4 + 1) mask).flatten.take payload.length
  payload.zipWith (· ^^^ ·) key

/-! ### Reading -/

/-- `unpack('Q>', ...)` of a bit string whose first bit was cleared; undefined, and so
numerically zero, on a short string. -/
def unpack63 (s : Octets) : Nat :=
  if s.length < 8 then 0
  else (unpack32 s <<< 32 + unpack32 (s.drop 4)) &&& (2 ^ 63 - 1)

/-- What one turn of the loop of `next_bytes` finds at the start of the buffer. -/
inductive Head
  /-- Octets are missing. -/
  | more
  | tooBig (payloadLen : Nat)
  | whole (payload rest : Octets)
  deriving DecidableEq, Repr

/-- The length of the payload and the offset behind it, unless octets are missing. -/
def payloadLength (buffer : Octets) (short : Nat) : Option (Nat × Nat) :=
  if short = 126 then
    if buffer.length ≥ 2 + 2 then some (unpack16 (buffer.drop 2), 4) else none
  else if short > 126 then
    if buffer.length ≥ 2 + 4 then some (unpack63 ((buffer.drop 2).take 8), 10) else none
  else some (short, 2)

/-- The loop body up to where the frame is cut off the buffer. -/
def readHead (maxPayloadSize : Nat) (buffer : Octets) : Head :=
  let second := unpack8 (buffer.drop 1)
  let masked : Bool := (second &&& 0x80) >>> 7 ≠ 0
  match payloadLength buffer (second &&& 0x7F) with
  | none => .more
  | some (payloadLen, offset) =>
      if maxPayloadSize ≠ 0 ∧ payloadLen > maxPayloadSize then .tooBig payloadLen
      else if masked ∧ buffer.length < offset + 4 then .more
      else
        let mask := (buffer.drop offset).take 4
        let offset := if masked then offset + 4 else offset
        if buffer.length < offset + payloadLen then .more
        else
          let payload := (buffer.drop offset).take payloadLen
          .whole (if masked then maskWith payload mask else payload)
            (buffer.drop (offset + payloadLen))

/-- The fields that are set from the first two octets. -/
def setHead (f : WSockFrame) (buffer : Octets) : WSockFrame :=
  let hdr := unpack8 buffer
  { f with
    fin? := some (hdr.testBit 7)
    rsv := some (hdr.testBit 6, hdr.testBit 5, hdr.testBit 4)
    masked := (unpack8 (buffer.drop 1) &&& 0x80) >>> 7 ≠ 0 }

/-- What `next_bytes` returns: nothing, a message, or not at all. -/
inductive Result
  | undef
  | bytes (payload : Octets)
  | died (message : String)
  deriving DecidableEq, Repr

/-- A payload comes in: a control frame between fragments, the end of a message, or a
fragment, after which the loop goes on. -/
def takePayload (f : WSockFrame) (opcode : Nat) (payload : Octets) : WSockFrame × Option Result :=
  if f.fragments.isSome ∧ opcode &&& 0x08 ≠ 0 then
    ({ f with opcode? := some opcode }, some (.bytes payload))
  else if f.fin then
    match f.fragments with
    | some (first, parts) =>
        ({ f with opcode? := some first, fragments := none },
          some (.bytes (parts.flatten ++ payload)))
    | none => ({ f with opcode? := some opcode, fragments := none }, some (.bytes payload))
  else
    let (first, parts) := f.fragments.getD (opcode, [])
    let parts := parts ++ [payload]
    ({ f with fragments := some (first, parts) },
      if parts.length + 1 > f.maxFragmentsAmount then some (.died "Too many fragments") else none)

/-- The loop of `next_bytes`. Every turn that goes on takes octets off the buffer. -/
def nextLoop : Nat → WSockFrame → WSockFrame × Result
  | 0, f => (f, .undef)
  | fuel + 1, f =>
      if f.buffer = [] then (f, .undef)
      else
        let opcode := unpack8 f.buffer &&& 0x0F
        let f := f.setHead f.buffer
        match readHead f.maxPayloadSize f.buffer with
        | .more => (f, .undef)
        | .tooBig payloadLen =>
            ({ f with buffer := [] }, .died ("Payload is too big. Deny big message (" ++
              toString payloadLen ++ ") or increase max_payload_size (" ++
              toString f.maxPayloadSize ++ ")"))
        | .whole payload rest =>
            match takePayload { f with buffer := rest } opcode payload with
            | (f, some result) => (f, result)
            | (f, none) => nextLoop fuel f

/-- `next_bytes` of the two old versions. -/
def nextBytesOld (f : WSockFrame) : WSockFrame × Result :=
  if [0xFF, 0x00].isPrefixOf f.buffer then
    ({ f with buffer := f.buffer.drop 2, opcode? := some 8 }, .bytes [])
  else
    match cutAt [0x00] f.buffer with
    | none => (f, .undef)
    | some (_, rest) =>
        match cutAt [0xFF] rest with
        | none => (f, .undef)
        | some (payload, rest) => ({ f with buffer := rest }, .bytes payload)

/-- `next_bytes`. -/
def nextBytes (f : WSockFrame) : WSockFrame × Result :=
  if f.version = .hixie75 ∨ f.version = .hybi00 then nextBytesOld f
  else if f.buffer.length < 2 then (f, .undef)
  else nextLoop f.buffer.length f

/-! ### Writing -/

/-- `$rsv_set`. -/
def rsvSet (f : WSockFrame) : Nat :=
  match f.rsv with
  | some (a, b, c) => a.toNat <<< 6 + b.toNat <<< 5 + c.toNat <<< 4
  | none => 0

/-- The octets that give the length of the payload. -/
def lengthOctets (masked : Bool) (payloadLen : Nat) : Octets :=
  let bit := if masked then 128 else 0
  if payloadLen ≤ 125 then [UInt8.ofNat (payloadLen ||| bit)]
  else if payloadLen ≤ 0xFFFF then UInt8.ofNat (126 + bit) :: pack16 payloadLen
  else UInt8.ofNat (127 + bit) :: pack32 (payloadLen >>> 32) ++ pack32 (payloadLen &&& 0xFFFFFFFF)

/-- `to_bytes`, where `random` is drawn when no mask is given. -/
def toBytes (f : WSockFrame) (random : Nat) : Except String Octets :=
  if f.version = .hixie75 ∨ f.version = .hybi00 then
    .ok (if f.type = some .close then [0xFF, 0x00] else [0x00] ++ f.buffer ++ [0xFF])
  else if f.maxPayloadSize ≠ 0 ∧ f.buffer.length > f.maxPayloadSize then
    .error "Payload is too big. Send shorter messages or increase max_payload_size"
  else
    let first := f.opcode ||| f.rsvSet ||| (if f.fin then 128 else 0)
    let head := UInt8.ofNat first :: lengthOctets f.masked f.buffer.length
    if f.masked then
      let given := f.mask.getD 0
      let mask := pack32 (if given ≠ 0 then given else random)
      .ok (head ++ mask ++ maskWith f.buffer mask)
    else .ok (head ++ f.buffer)

end WSockFrame
end PageCamel.Helpers

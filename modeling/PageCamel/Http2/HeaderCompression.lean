import PageCamel.Http2.Constants
import PageCamel.Http2.Huffman
import PageCamel.Http2.StaticTable

/-!
HPACK (`HeaderCompression.pm`). A buffer with an offset is modelled by the rest
of the buffer, so a decoder returns what it read and the octets it used. The
errors of `headers_decode` are returned to the caller, which raises them on the
connection.
-/

namespace PageCamel.Http2
open PageCamel.Lib

/-! ### Integers -/

/-- The continuation octets of `int_encode`. -/
def intEncodeRest : Nat → Nat → Octets
  | 0, int => [UInt8.ofNat int]
  | fuel + 1, int =>
      if int ≥ 0x80 then UInt8.ofNat (int &&& 0x7f ||| 0x80) :: intEncodeRest fuel (int >>> 7)
      else [UInt8.ofNat int]

def intEncode (int N : Nat) : Octets :=
  let ff := 2 ^ N - 1
  if int < ff then [UInt8.ofNat int]
  else UInt8.ofNat ff :: intEncodeRest (int - ff) (int - ff)

/-- The continuation octets, the `i`-th one next: the value read so far and the
octets used in all. -/
def intDecodeRest : Nat → Nat → Octets → Option (Nat × Nat)
  | _, _, [] => none
  | i, int, s :: rest =>
      if i > maxIntSize then none
      else
        let int := int + (s.toNat &&& 0x7f) <<< ((i - 1) * 7)
        if s < 0x80 then some (int, i + 1) else intDecodeRest (i + 1) int rest

/-- `int_decode`: the integer and the octets used, or nothing on malformed data. -/
def intDecode (buf : Octets) (N : Nat) : Option (Nat × Nat) :=
  match buf with
  | [] => none
  | b :: rest =>
      let ff := 2 ^ N - 1
      let int := ff &&& b.toNat
      if int < ff then some (int, 1) else intDecodeRest 1 int rest

/-! ### String literals -/

/-- Setting bits of the first octet (`vec($pack, ...) = ...`). -/
def orFirst (mask : UInt8) : Octets → Octets
  | [] => []
  | b :: rest => (b ||| mask) :: rest

def strEncode (str : Octets) : Octets :=
  let huffStr := huffmanEncode str
  if huffStr.length < str.length then orFirst 0x80 (intEncode huffStr.length 7) ++ huffStr
  else intEncode str.length 7 ++ str

/-- `str_decode`: the string and the octets used. -/
def strDecode (buf : Octets) : Option (Octets × Nat) :=
  match intDecode buf 7 with
  | none => none
  | some (l, offset) =>
      if buf.length - offset < l then none
      else
        let str := (buf.drop offset).take l
        let str := if hasFlag (buf.headD 0) 0x80 then huffmanDecode str else str
        some (str, offset + l)

/-! ### The dynamic table -/

/-- The part of a context both directions have; the newest entry comes first. -/
structure Context where
  headerTable : List Header := []
  htSize : Int := 0
  maxHtSize : Nat := defaultHeaderTableSize
  settings : Settings := defaultSettings
  deriving DecidableEq

structure DecodeContext extends Context where
  emittedHeaders : List Header := []
  deriving DecidableEq

def entrySize (kv : Header) : Nat := 32 + kv.1.length + kv.2.length

/-- The loop of `evict_ht` over the table read from its oldest entry: the size
left, the entries left and the entries evicted. -/
def evictLoop (limit : Int) : Int → List Header → Int × List Header × List Header
  | htSize, [] => (htSize, [], [])
  | htSize, kv :: newer =>
      if htSize > limit then
        let (size, left, evicted) := evictLoop limit (htSize - entrySize kv) newer
        (size, left, kv :: evicted)
      else (htSize, kv :: newer, [])

/-- `evict_ht`: the context and the entries evicted, the oldest one first. -/
def evictHt (context : Context) (size : Nat) : Context × List Header :=
  let (htSize, left, evicted) :=
    evictLoop (context.maxHtSize - size) context.htSize context.headerTable.reverse
  ({ context with headerTable := left.reverse, htSize }, evicted)

def addToHt (context : Context) (key value : Octets) : Context × List Header :=
  let size := key.length + value.length + 32
  if size > context.maxHtSize then (context, [])
  else
    let (context, evicted) := evictHt context size
    ({ context with
        headerTable := (key, value) :: context.headerTable
        htSize := context.htSize + size }, evicted)

/-! ### Decoding -/

/-- How `headers_decode` ends: it returns the length read, raises an error on
the connection, or resets the stream. -/
inductive DecodeResult
  | done
  | conError (code : ErrorCode)
  | streamError (code : ErrorCode)
  deriving DecidableEq, Repr

/-- What decoding one field does: `last` leaves the loop, `fail` the function. -/
inductive FieldStep
  | next (context : DecodeContext) (size : Nat)
  | last
  | fail (result : DecodeResult)

def DecodeContext.emit (context : DecodeContext) (key value : Octets) : DecodeContext :=
  { context with emittedHeaders := context.emittedHeaders ++ [(key, value)] }

def DecodeContext.add (context : DecodeContext) (key value : Octets) : DecodeContext :=
  { context with toContext := (addToHt context.toContext key value).1 }

/-- The entry an index names: the static table first, then the dynamic one. -/
def DecodeContext.entry? (context : DecodeContext) (index : Nat) : Option Header :=
  if index ≤ stable.length then stable[index - 1]?
  else context.headerTable[index - stable.length - 1]?

/-- The characters a literal header name may have. -/
def isNameChar (b : UInt8) : Bool :=
  (0x61 ≤ b ∧ b ≤ 0x7A) ∨ (0x30 ≤ b ∧ b ≤ 0x39) ∨ b ∈ octets "!#$%&'*+-^_`"

/-- `$h =~ /^\:/`. -/
def isPseudo (name : Octets) : Bool := name.head? = some 0x3A

def decodeIndexed (context : DecodeContext) (buf : Octets) : FieldStep :=
  match intDecode buf 7 with
  | none => .last
  | some (index, size) =>
      if index = 0 then .fail (.conError .compressionError)
      else
        match context.entry? index with
        | none => .fail (.conError .compressionError)
        | some (key, value) => .next (context.emit key value) size

def decodeLiteralNew (context : DecodeContext) (f : UInt8) (buf : Octets) : FieldStep :=
  match strDecode (buf.drop 1) with
  | none => .last
  | some (key, keySize) =>
      if keySize = 1 then .fail (.conError .compressionError)
      else if !key.all isNameChar && !isPseudo key then .fail (.streamError .protocolError)
      else
        match strDecode (buf.drop (1 + keySize)) with
        | none => .last
        | some (value, valueSize) =>
            let context := context.emit key value
            let context := if f = 0x40 then context.add key value else context
            .next context (1 + keySize + valueSize)

def decodeLiteralIndexed (context : DecodeContext) (f : UInt8) (buf : Octets) : FieldStep :=
  match intDecode buf (if f &&& 0xC0 = 0x40 then 6 else 4) with
  | none => .last
  | some (index, size) =>
      match strDecode (buf.drop size) with
      | none => .last
      | some (value, valueSize) =>
          match context.entry? index with
          | none => .fail (.conError .compressionError)
          | some (key, _) =>
              let context := context.emit key value
              let context := if f &&& 0xC0 = 0x40 then context.add key value else context
              .next context (size + valueSize)

def decodeSizeUpdate (context : DecodeContext) (buf : Octets) : FieldStep :=
  match intDecode buf 5 with
  | none => .last
  | some (htSize, size) =>
      if htSize > context.settings.value Setting.headerTableSize then
        .fail (.conError .compressionError)
      else if context.emittedHeaders ≠ [] then .fail (.conError .compressionError)
      else
        let context := { context with maxHtSize := htSize }
        .next { context with toContext := (evictHt context.toContext 0).1 } size

/-- One turn of the loop of `headers_decode`, by the first octet. -/
def decodeField (context : DecodeContext) (buf : Octets) : FieldStep :=
  let f := buf.headD 0
  if f &&& 0x80 ≠ 0 then decodeIndexed context buf
  else if f = 0x40 ∨ f = 0x00 ∨ f = 0x10 then decodeLiteralNew context f buf
  else if f &&& 0xC0 = 0x40 ∨ f &&& 0xF0 = 0x00 ∨ f &&& 0xF0 = 0x10 then
    decodeLiteralIndexed context f buf
  else if f &&& 0xE0 = 0x20 then decodeSizeUpdate context buf
  else .fail (.conError .compressionError)

/-- The loop of `headers_decode` on the rest of the block. Leaving it early is a
compression error, because octets remain. -/
def headersDecodeLoop : Nat → DecodeContext → Octets → DecodeContext × DecodeResult
  | 0, context, buf => (context, if buf = [] then .done else .conError .compressionError)
  | fuel + 1, context, buf =>
      if buf = [] then (context, .done)
      else
        match decodeField context buf with
        | .next context size => headersDecodeLoop fuel context (buf.drop size)
        | .last => (context, .conError .compressionError)
        | .fail result => (context, result)

/-- `headers_decode` on a whole header block. -/
def headersDecode (context : DecodeContext) (block : Octets) : DecodeContext × DecodeResult :=
  headersDecodeLoop block.length context block

/-! ### Encoding -/

def encodeField (context : Context) (header value : Octets) : Context × Octets :=
  match context.headerTable.findIdx? (fun kv => kv.1 = header ∧ kv.2 = value) with
  | some i => (context, orFirst 0x80 (intEncode (i + stable.length + 1) 7))
  | none =>
      match rstable.lookup (rstableKey header value) with
      | some k => (context, orFirst 0x80 (intEncode k 7))
      | none =>
          let context' := (addToHt context header value).1
          match rstable.lookup (rstableKey header []) with
          | some k => (context', orFirst 0x40 (intEncode k 6) ++ strEncode value)
          | none => (context', 0x40 :: strEncode header ++ strEncode value)

def encodeFields (context : Context) : List Header → Context × Octets
  | [] => (context, [])
  | (name, value) :: headers =>
      let (context, hdr) := encodeField context (lc name) value
      let (context, res) := encodeFields context headers
      (context, hdr ++ res)

/-- `headers_encode`. The loop runs over `0 .. (@{$headers} - 1) / 2`, which is
once even for an empty list. -/
def headersEncode (context : Context) (headers : List Header) : Context × Octets :=
  let sht := context.settings.value Setting.headerTableSize
  let headers := if headers = [] then [([], [])] else headers
  if context.maxHtSize ≠ sht then
    let (context, res) := encodeFields { context with maxHtSize := sht } headers
    (context, orFirst 0x20 (intEncode sht 5) ++ res)
  else encodeFields context headers

end PageCamel.Http2

import PageCamel.Http2.Connection

/-!
Complete header blocks (`stream_headers_done` and `validate_headers` in
`Stream.pm`). The checks of `validate_headers` are a function of the header list;
the fields of the stream they set and the reset they end in are applied after.
-/

namespace PageCamel.Http2
open PageCamel.Lib

def isConnect (headers : List Header) : Bool :=
  headers.reverse.lookup (octets ":method") = some (octets "CONNECT")

def hasProtocol (headers : List Header) : Bool :=
  (headers.reverse.lookup (octets ":protocol")).isSome

/-- The pseudo-header fields that are allowed and required; none at all for an
extended CONNECT the endpoint has not enabled. -/
def pseudoFields (isResponse enableConnect : Bool) (headers : List Header) : Option (List Octets) :=
  if isResponse then some [octets ":status"]
  else if isConnect headers then
    if hasProtocol headers then
      if enableConnect then
        some [octets ":method", octets ":scheme", octets ":authority", octets ":path",
          octets ":protocol"]
      else none
    else some [octets ":method", octets ":authority"]
  else some [octets ":method", octets ":scheme", octets ":authority", octets ":path"]

def forbiddenTrailers : List Octets :=
  [octets "transfer-encoding", octets "content-length", octets "host", octets "authentication",
    octets "cache-control", octets "expect", octets "max-forwards", octets "pragma", octets "range",
    octets "te", octets "content-encoding", octets "content-type", octets "content-range",
    octets "trailer"]

/-- `split /\s*,\s*/, $s`. -/
def splitCommas (s : Octets) : List Octets :=
  let trimRight (p : Octets) := (p.reverse.dropWhile isSpace).reverse
  let trim (p : Octets) := trimRight (p.dropWhile isSpace)
  let fields : List Octets :=
    match s.splitOn 0x2C with
    | [] => []
    | [p] => [p]
    | p :: rest => trimRight p :: rest.dropLast.map trim ++ (rest.getLast?.map (·.dropWhile isSpace)).toList
  (fields.reverse.dropWhile (· = [])).reverse

/-- Where the second pass of `validate_headers` stands. -/
structure Validation where
  seen : List Octets := []
  regular : Bool := false
  length : Option Octets := none
  trailer : Option (List Octets) := none
  accepted : Bool := true
  deriving DecidableEq

def Validation.reject (c : Validation) : Validation := { c with accepted := false }

/-- One turn of the second pass. -/
def validateField (allowed : List Octets) (c : Validation) (h v : Octets) : Validation :=
  if isPseudo h then
    if c.regular then c.reject
    else if h ∉ allowed then c.reject
    else if h ∈ c.seen then c.reject
    else { c with seen := h :: c.seen }
  else
    let c := { c with regular := true }
    if h = octets "connection" then c.reject
    else if h = octets "te" ∧ v ≠ octets "trailers" then c.reject
    else if h = octets "content-length" then { c with length := some v }
    else if h = octets "trailer" then
      let th := splitCommas (lc v)
      if forbiddenTrailers.any (· ∈ th) then c.reject else { c with trailer := some th }
    else c

/-- The second pass, which stops at the first field it rejects. -/
def validateFields (allowed : List Octets) (c : Validation) : List Header → Validation
  | [] => if allowed.all (· ∈ c.seen) then c else c.reject
  | (h, v) :: headers =>
      let c := validateField allowed c h v
      if c.accepted then validateFields allowed c headers else c

/-- The checks of `validate_headers` on a stream that has announced `trailer`. -/
def validateList (isResponse enableConnect : Bool) (trailer : Option (List Octets))
    (headers : List Header) : Validation :=
  match pseudoFields isResponse enableConnect headers with
  | none => Validation.reject {}
  | some allowed =>
      match trailer with
      | some t => if headers.all (·.1 ∈ t) then {} else Validation.reject {}
      | none => validateFields allowed {} headers

/-- The fields of the stream that `validate_headers` sets. -/
def Stream.announce (c : Validation) (s : Stream) : Stream :=
  { s with length := c.length <|> s.length, trailer := c.trailer <|> s.trailer }

/-- The header list of a request, or its trailers. -/
def Stream.store (isTrailer : Bool) (eh : List Header) (s : Stream) : Stream :=
  if isTrailer then { s with trailerHeaders := some eh } else { s with headers := some eh }

/-- `stream_header_block` with a value. -/
def Stream.setHeaderBlock (block : Octets) (s : Stream) : Stream :=
  { s with headerBlock := some block }

namespace Connection

def announce (con : Connection) (sid : Nat) (c : Validation) : Connection :=
  con.modifyStream sid (Stream.announce c)

/-- The checks of `validate_headers` on a list for the stream. -/
def validation (con : Connection) (headers : List Header) (sid : Nat) (isResponse : Bool) :
    Validation :=
  validateList isResponse (con.decSetting Setting.enableConnectProtocol ≠ 0)
    (con.get sid Stream.trailer) headers

/-- `validate_headers`; the second component is its truth value. -/
def validateHeaders (con : Connection) (headers : List Header) (sid : Nat) (isResponse : Bool) :
    Connection × Bool :=
  let c := con.validation headers sid isResponse
  if c.accepted then (con.announce sid c, true)
  else ((con.announce sid c).streamError sid .protocolError, false)

def setDecodeCtx (con : Connection) (decodeCtx : DecodeContext) : Connection :=
  { con with decodeCtx }

/-- `headers_decode` with its errors raised; the second component says whether
it returned a length. -/
def decodeBlock (con : Connection) (block : Octets) (sid : Nat) : Connection × Bool :=
  let (decodeCtx, result) := headersDecode con.decodeCtx block
  let con := con.setDecodeCtx decodeCtx
  match result with
  | .done => (con, true)
  | .conError code => (con.setError code, false)
  | .streamError code => (con.streamError sid code, false)

def setHeaderBlock (con : Connection) (sid : Nat) (block : Octets) : Connection :=
  con.modifyStream sid (Stream.setHeaderBlock block)

/-- Where `stream_headers_done` stores an accepted header list. -/
def storeHeaders (con : Connection) (sid : Nat) (promisedSid : Option Nat) (isTrailer : Bool)
    (eh : List Header) : Connection :=
  match promisedSid with
  | some promised => (con.vivify promised).modifyStream promised fun s => { s with ppHeaders := some eh }
  | none => con.modifyStream sid (Stream.store isTrailer eh)

def clearEmitted (con : Connection) : Connection :=
  con.setDecodeCtx { con.decodeCtx with emittedHeaders := [] }

/-- Is the list checked as that of a response? -/
def isResponse (con : Connection) (sid : Nat) : Bool :=
  con.type = .client ∧ (con.get sid Stream.promisedSid).isNone

/-- The part of `stream_headers_done` that follows the decoding. -/
def headersDecoded (con : Connection) (sid : Nat) : Connection × Bool :=
  let eh := con.decodeCtx.emittedHeaders
  let promisedSid := con.get sid Stream.promisedSid
  let isTrailer := (con.get sid Stream.trailer).isSome
  match con.validateHeaders eh sid (con.isResponse sid) with
  | (con, false) => (con, false)
  | (con, true) => ((con.storeHeaders sid promisedSid isTrailer eh).clearEmitted, true)

/-- `stream_headers_done`; the second component is its truth value. -/
def streamHeadersDone (con : Connection) (sid : Nat) : Connection × Bool :=
  match con.stream? sid with
  | none => (con, false)
  | some s =>
      match con.decodeBlock (s.headerBlock.getD []) sid with
      | (con, false) => (con, false)
      | (con, true) => (con.setHeaderBlock sid []).headersDecoded sid

end Connection
end PageCamel.Http2

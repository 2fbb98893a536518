import PageCamel.Frontend.BackendHead

/-!
The streams of `HTTP3Handler.pm`: the request written to a backend, the data that
follows it, and the response of the backend on its way to the HTTP/3 connection.
Every function is given what the connection answers to the one send of body data
it may make.
-/

namespace PageCamel.Frontend.Http3
open PageCamel.Lib PageCamel.Lib.Http1 PageCamel.Http2

/-! ### Requests -/

def methodsWithBody : List Octets := [octets "POST", octets "PUT", octets "PATCH"]

def hasContentLength (headers : List Header) : Bool :=
  (orderHeaders headers).any fun h => lc h.1 = octets "content-length"

/-- `streamUseChunked` as `translateRequest` sets it. -/
def useChunked (headers : List Header) : Bool :=
  ¬ hasContentLength headers ∧ headerOr headers ":method" "GET" ∈ methodsWithBody

/-- The head `translateRequest` writes. -/
def requestHead (headers : List Header) : Octets :=
  let method := headerOr headers ":method" "GET"
  let path := headerOr headers ":path" "/"
  let authority := headerOr headers ":authority" ""
  let request := method ++ octets " " ++ path ++ octets " HTTP/1.1\r\n"
  let request := request ++ octets "Host: " ++ authority ++ octets "\r\n"
  let request := request ++
    (orderHeaders headers).flatMap fun h => h.1 ++ octets ": " ++ h.2 ++ octets "\r\n"
  let request := request ++
    if useChunked headers then octets "Transfer-Encoding: chunked\r\n" else []
  request ++ octets "\r\n"

/-- Body data as it is put into the buffer for the backend. -/
def frameData (useChunked : Bool) (data : Octets) : Octets :=
  if data = [] then [] else if useChunked then renderChunk data else data

def translateRequest (headers : List Header) (body : Option Octets) : Octets :=
  requestHead headers ++ frameData (useChunked headers) (body.getD [])

/-- The headers `translateWebsocketUpgrade` does not pass on, by the start of their line. -/
def skippedInUpgrade (line : Octets) : Bool :=
  (octets "connection").isPrefixOf (lc line) ∨ (octets "upgrade").isPrefixOf (lc line) ∨
    (octets "sec-websocket").isPrefixOf (lc line)

def translateWebsocketUpgrade (headers : List Header) : Octets :=
  let path := headerOr headers ":path" "/"
  let authority := headerOr headers ":authority" ""
  let lines := (orderHeaders headers).map fun h => h.1 ++ octets ": " ++ h.2
  let request := octets "GET " ++ path ++ octets " HTTP/1.1\r\n"
  let request := request ++ octets "Host: " ++ authority ++ octets "\r\n"
  let request := request ++ octets "Upgrade: websocket\r\n"
  let request := request ++ octets "Connection: Upgrade\r\n"
  let request := request ++ octets "Sec-WebSocket-Key: dGhlIHNhbXBsZSBub25jZQ==\r\n"
  let request := request ++ octets "Sec-WebSocket-Version: 13\r\n"
  let request := request ++
    (lines.filter fun line => ¬ skippedInUpgrade line).flatMap fun line => line ++ octets "\r\n"
  request ++ octets "\r\n"

/-! ### Streams -/

inductive StreamState where
  | waitingResponse
  | tunnelPending
  | streaming
  | tunnelActive
  deriving DecidableEq, Repr

/-- What the handler's hashes hold for a stream. -/
structure StreamEntry where
  state : Option StreamState := none
  response : Octets := []
  stream : Bool := false
  tunnel : Bool := false
  tobackend : Octets := []
  disconnected : Bool := false
  contentLength : Option Octets := none
  bytesSent : Nat := 0
  congestionBlocked : Bool := false
  pendingFlush : Bool := false
  useChunked : Bool := false
  tunnelPending : Bool := false
  deriving DecidableEq, Repr

/-- Calls on the HTTP/3 connection. -/
inductive Call where
  | sendResponse (status : Nat) (headers : List Header) (body : Octets)
  | sendResponseHeaders (status : Nat) (headers : List Header)
  | sendResponseBody (data : Octets) (eof : Bool)
  deriving DecidableEq, Repr

/-- What the handler does for a stream: the new entry, the calls with their results
(`true` for `H3_OK`), and whether the backend is released and as reusable. -/
structure Outcome where
  entry : StreamEntry
  calls : List (Call × Bool) := []
  release : Option Bool := none
  deriving DecidableEq, Repr

def Outcome.after (o : Outcome) (calls : List (Call × Bool)) : Outcome :=
  { o with calls := calls ++ o.calls }

/-- `cleanupStream`. The flag for a pending tunnel stays. -/
def StreamEntry.cleanupStream (e : StreamEntry) : Outcome :=
  { entry := { tunnelPending := e.tunnelPending }, release := some (!e.tunnel && !e.disconnected) }

/-! ### Request data -/

def StreamEntry.put (e : StreamEntry) (data : Octets) : StreamEntry :=
  { e with tobackend := e.tobackend ++ data }

/-- `handleStreamData`; `backend` says that the stream has one. -/
def StreamEntry.handleStreamData (e : StreamEntry) (backend : Bool) (data : Octets) (fin : Bool) :
    StreamEntry :=
  let e :=
    if data ≠ [] then
      if e.state = some .tunnelActive then if backend then e.put data else e
      else if e.state = some .waitingResponse then
        if backend then e.put (frameData e.useChunked data) else e
      else e
    else e
  if fin ∧ e.state = some .waitingResponse ∧ e.useChunked then e.put lastChunk else e

/-! ### Responses -/

/-- The status in `$statusLine =~ m{^HTTP/(\S+)\s+(\d+)\s*(.*)$}`, 500 without a match. -/
def statusOf (statusLine : Octets) : Nat :=
  if (octets "HTTP/").isPrefixOf statusLine then
    let rest := statusLine.drop 5
    let version := rest.takeWhile fun b => ¬ isSpace b
    let rest := rest.drop version.length
    let digits := (rest.dropWhile isSpace).takeWhile isDigit
    let text := ((rest.dropWhile isSpace).drop digits.length).dropWhile isSpace
    if version ≠ [] ∧ rest ≠ [] ∧ digits ≠ [] ∧ 0x0A ∉ text.dropLast then digitsValue digits
    else 500
  else 500

/-- The names of response fields that are not passed on. -/
def isSkipped (name : Octets) : Bool :=
  lc name = octets "connection" ∨ lc name = octets "transfer-encoding" ∨
    lc name = octets "keep-alive"

/-- The fields passed on with an opened tunnel. -/
def tunnelHeaders (headers : List Header) : List Header :=
  headers.filter fun h => h.1 ≠ octets "content-length" ∧ h.1 ≠ octets "upgrade" ∧
    h.1 ≠ octets "connection"

/-- A tunnel is opened; what follows the head is its first data. -/
def StreamEntry.openTunnel (e : StreamEntry) (headers : List Header) (body : Octets)
    (accept : Bool) : Outcome :=
  { entry := { e with
      tunnelPending := false, state := some .tunnelActive, tunnel := true, response := [] }
    calls := (.sendResponseHeaders 200 (tunnelHeaders headers), true) ::
      if body ≠ [] then [(.sendResponseBody body false, accept)] else [] }

/-- The entry when the response starts to be streamed. -/
def StreamEntry.streamed (e : StreamEntry) (contentLength : Option Octets) : StreamEntry :=
  { e with state := some .streaming, contentLength, bytesSent := 0, stream := true }

/-- Body data was accepted. -/
def StreamEntry.sent (e : StreamEntry) : StreamEntry := { e with response := [] }

def StreamEntry.addSent (e : StreamEntry) (n : Nat) : StreamEntry :=
  { e with bytesSent := e.bytesSent + n }

def StreamEntry.block (e : StreamEntry) : StreamEntry := { e with congestionBlocked := true }

def StreamEntry.unblock (e : StreamEntry) : StreamEntry := { e with congestionBlocked := false }

/-- The head of a large response is sent, with what is there of the body. -/
def StreamEntry.startStreaming (e : StreamEntry) (status : Nat) (headers : List Header)
    (contentLength : Option Octets) (body : Octets) (accept : Bool) : Outcome :=
  let e := e.streamed contentLength
  let entry :=
    if body ≠ [] then if accept then (e.addSent body.length).sent else e.block
    else e.sent
  { entry
    calls := (.sendResponseHeaders status headers, true) ::
      if body ≠ [] then [(.sendResponseBody body false, accept)] else [] }

/-- The whole response in one call, whose result is not looked at. -/
def StreamEntry.respond (e : StreamEntry) (status : Nat) (headers : List Header) (body : Octets)
    (accept : Bool) : Outcome :=
  { entry := { e with pendingFlush := true, response := [] }
    calls := [(.sendResponse status headers body, accept)] }

/-- Responses above this size are streamed. -/
def streamingThreshold : Nat := 1000000

/-- `$contentLength > 1_000_000`. -/
def shouldStream (contentLength : Option Octets) : Bool :=
  match contentLength with
  | none => false
  | some value => (streamingThreshold : Int) < numify value

/-- `processBackendResponse` while the stream waits for the response. -/
def StreamEntry.processHead (e : StreamEntry) (accept : Bool) : Outcome :=
  match cutAt headEnd e.response with
  | none => { entry := e }
  | some (headerBlock, body) =>
      let lines := splitAll crlf headerBlock
      let status := statusOf (lines.head?.getD [])
      let headers := responseFields isSkipped lines.tail
      let contentLength := contentLengthOf headers
      if e.tunnelPending ∨ (status = 101 ∧ headers.any fun h => h.1 = octets "upgrade") then
        e.openTunnel headers body accept
      else if shouldStream contentLength then
        e.startStreaming status headers contentLength body accept
      else if e.disconnected then e.respond status headers body accept
      else if reaches contentLength body.length then
        let length := (contentLength.map numify).getD 0
        -- a negative length counts from the end
        let body := if length < 0 then body.take (body.length - length.natAbs)
          else body.take length.toNat
        e.respond status headers body accept
      else { entry := e }

/-- The end of a response that has been streamed or tunnelled. -/
def StreamEntry.finish (e : StreamEntry) : Outcome :=
  e.cleanupStream.after [(.sendResponseBody [] true, true)]

/-- The end of a streamed response is sent once nothing is left of it. -/
def StreamEntry.finishStreaming (e : StreamEntry) : Outcome :=
  if e.response = [] ∧ (e.disconnected ∨ reaches e.contentLength e.bytesSent) then e.finish
  else { entry := e }

def StreamEntry.finishTunnel (e : StreamEntry) : Outcome :=
  if e.response = [] ∧ e.disconnected then e.finish else { entry := e }

/-- `processBackendResponse`. -/
def StreamEntry.processBackendResponse (e : StreamEntry) (accept : Bool) : Outcome :=
  match e.state with
  | some .waitingResponse => e.processHead accept
  | some .streaming =>
      if e.response ≠ [] then
        let e' :=
          if accept then ((e.addSent e.response.length).sent).unblock else e.block
        e'.finishStreaming.after [(.sendResponseBody e.response false, accept)]
      else e.finishStreaming
  | some .tunnelActive =>
      if e.response ≠ [] then
        let e' := if accept then e.sent else e
        e'.finishTunnel.after [(.sendResponseBody e.response false, accept)]
      else e.finishTunnel
  | _ => { entry := e }

def StreamEntry.appendResponse (e : StreamEntry) (buf : Octets) : StreamEntry :=
  { e with response := e.response ++ buf }

def StreamEntry.setDisconnected (e : StreamEntry) : StreamEntry := { e with disconnected := true }

/-- One turn of the loop of `handleBackendData` that makes a read: some octets, or
none at the end of the connection. A blocked stream makes none. -/
def StreamEntry.handleBackendData (e : StreamEntry) (buf : Option Octets) (accept : Bool) :
    Outcome :=
  if e.congestionBlocked then { entry := e }
  else
    match buf with
    | none => e.setDisconnected.processBackendResponse accept
    | some buf => (e.appendResponse buf).processBackendResponse accept

/-- `flushPendingStreams` for one stream. -/
def StreamEntry.flushPending (e : StreamEntry) (accept : Bool) : Outcome :=
  if e.response = [] then { entry := e }
  else
    match e.state with
    | some .streaming =>
        let e' := if accept then (e.unblock.addSent e.response.length).sent else e.unblock.block
        e'.finishStreaming.after [(.sendResponseBody e.response false, accept)]
    | some .tunnelActive =>
        let e' := if accept then e.sent else e
        e'.finishTunnel.after [(.sendResponseBody e.response false, accept)]
    | _ => { entry := e }

end PageCamel.Frontend.Http3

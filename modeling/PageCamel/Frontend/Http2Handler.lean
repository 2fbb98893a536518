import PageCamel.Frontend.BackendHead

/-!
How `HTTP2Handler.pm` relays the response of a backend to a stream: the entry it
keeps for the stream, what it does with the octets of a read, and the calls it
makes on the HTTP/2 server.
-/

namespace PageCamel.Frontend.Http2
open PageCamel.Lib PageCamel.Lib.Http1 PageCamel.Http2

/-- `(split(/\s+/, $statusLine, 3))[1] // 500`. -/
def statusOf (statusLine : Octets) : Octets :=
  match statusLine.dropWhile (fun b => ¬ isSpace b) with
  | [] => octets "500"
  | rest => (rest.dropWhile isSpace).takeWhile fun b => ¬ isSpace b

/-- The field that advertises HTTP/3 on the given port. -/
def altSvc (http3Port : Option Octets) : List Header :=
  match http3Port with
  | none => []
  | some port => [(octets "alt-svc", octets "h3=\":" ++ port ++ octets "\"; ma=86400")]

/-! ### Streams -/

inductive StreamState where
  | waitingResponse
  | tunnelPending
  | streaming
  | tunnel
  deriving DecidableEq, Repr

/-- What the handler's hashes hold for a stream. -/
structure StreamEntry where
  state : Option StreamState := none
  response : Octets := []
  stream : Bool := false
  tunnel : Bool := false
  tobackend : Octets := []
  disconnected : Bool := false
  contentLength : Option Octets := none
  bytesSent : Nat := 0
  deriving DecidableEq, Repr

/-- Calls on the server and on its stream and tunnel objects. -/
inductive Call where
  | response (status : Octets) (headers : List Header) (data : Octets)
  | responseStream (status : Octets) (headers : List Header)
  | tunnelResponse (headers : List Header)
  | send (data : Octets)
  | close
  deriving DecidableEq, Repr

/-- What the handler does for a stream: the new entry, the calls, and whether the
backend is released and as reusable. -/
structure Outcome where
  entry : StreamEntry
  calls : List Call := []
  release : Option Bool := none
  deriving DecidableEq, Repr

/-- `cleanupStream`. -/
def StreamEntry.cleanupStream (e : StreamEntry) (sendEndStream : Bool) : Outcome :=
  { entry := {}
    calls := if sendEndStream ∧ (e.stream ∨ e.tunnel) then [.close] else []
    release := some (!e.tunnel && !e.disconnected) }

/-- The calls come before the rest of an outcome. -/
def Outcome.after (o : Outcome) (calls : List Call) : Outcome := { o with calls := calls ++ o.calls }

/-- A complete response goes to the client in one call. -/
def StreamEntry.respond (e : StreamEntry) (status : Octets) (headers : List Header)
    (data : Octets) : Outcome :=
  (e.cleanupStream false).after [.response status headers data]

/-- The tunnel of an accepted upgrade. -/
def StreamEntry.openTunnel (e : StreamEntry) (headers : List Header) : Outcome :=
  { entry := { e with state := some .tunnel, tunnel := true, response := [] }
    calls := [.tunnelResponse (headers.filter fun h => lc h.1 ≠ octets "content-length")] }

/-- The head of a response whose body follows. -/
def StreamEntry.startStreaming (e : StreamEntry) (status : Octets) (headers : List Header)
    (contentLength : Option Octets) (body : Octets) : Outcome :=
  { entry := { e with
      state := some .streaming, stream := true, contentLength, bytesSent := body.length
      response := [] }
    calls := .responseStream status headers :: if body ≠ [] then [.send body] else [] }

/-- `processBackendResponse`. -/
def StreamEntry.processBackendResponse (http3Port : Option Octets) (e : StreamEntry) : Outcome :=
  let (headerPart, bodyPart) :=
    match cutAt headEnd e.response with
    | some (headerPart, bodyPart) => (headerPart, some bodyPart)
    | none => (e.response, none)
  let lines := splitAll crlf headerPart
  let status := statusOf (lines.head?.getD [])
  let fields := responseFields isConnectionSpecific lines.tail
  let contentLength := contentLengthOf fields
  let headers := fields ++ altSvc http3Port
  let body := bodyPart.getD []
  if e.state = some .tunnelPending then
    if status = octets "101" then e.openTunnel headers else e.respond status headers body
  else if bodyPart.isSome ∧ reaches contentLength body.length then e.respond status headers body
  else e.startStreaming status headers contentLength body

def StreamEntry.setDisconnected (e : StreamEntry) : StreamEntry := { e with disconnected := true }

def StreamEntry.appendResponse (e : StreamEntry) (buf : Octets) : StreamEntry :=
  { e with response := e.response ++ buf }

def StreamEntry.addSent (e : StreamEntry) (n : Nat) : StreamEntry :=
  { e with bytesSent := e.bytesSent + n }

/-- `handleBackendData` for a stream that has the backend, given what the read
returned: some octets, or none at the end of the connection. -/
def StreamEntry.handleBackendData (http3Port : Option Octets) (e : StreamEntry)
    (buf : Option Octets) : Outcome :=
  match buf with
  | none => e.setDisconnected.cleanupStream true
  | some buf =>
      match e.state.getD .waitingResponse with
      | .tunnel => { entry := e, calls := if e.tunnel then [.send buf] else [] }
      | .tunnelPending | .waitingResponse =>
          let e := e.appendResponse buf
          if (indexOf headEnd e.response).isSome then e.processBackendResponse http3Port
          else { entry := e }
      | .streaming =>
          if e.stream then
            let e := e.addSent buf.length
            let o : Outcome :=
              if reaches e.contentLength e.bytesSent then e.cleanupStream true else { entry := e }
            o.after [.send buf]
          else { entry := e }

/-! ### Reading a well-formed head -/

theorem statusOf_statusLine {h : ResponseHead} (hWell : h.WellFormed) :
    statusOf (statusLine h.status h.reason) = h.status := by
  have hVersion : ∀ b ∈ octets "HTTP/1.1", (decide ¬ isSpace b = true) = true := by decide +kernel
  have hDigits : ∀ b ∈ h.status, isSpace b = false := fun b hb =>
    isDigit_not_space (List.all_eq_true.mp hWell.status.2 b hb)
  obtain ⟨b, status, hCons⟩ : ∃ b status, h.status = b :: status := by
    cases hStatus : h.status with
    | nil => have := hWell.status.1; rw [hStatus] at this; cases this
    | cons b status => exact ⟨b, status, rfl⟩
  have hFirst : isSpace b = false := hDigits b (by rw [hCons]; exact List.mem_cons_self ..)
  have hDrop : (statusLine h.status h.reason).dropWhile (fun b => ¬ isSpace b) =
      0x20 :: (h.status ++ 0x20 :: h.reason) := by
    rw [statusLine, dropWhile_append_of_all hVersion, List.dropWhile_cons_of_neg (by decide)]
  rw [statusOf, hDrop]
  dsimp only
  rw [List.dropWhile_cons_of_pos (by decide), hCons, List.cons_append,
    List.dropWhile_cons_of_neg (by simp [hFirst]), ← List.cons_append, ← hCons,
    takeWhile_append_of_all fun c hc => by simp [hDigits c hc], List.takeWhile_cons_of_neg (by decide),
    List.append_nil]

theorem isConnectionSpecific_keepsLength : KeepsLength isConnectionSpecific := by
  intro name hName
  simp only [isConnectionSpecific, hName]
  decide

end PageCamel.Frontend.Http2

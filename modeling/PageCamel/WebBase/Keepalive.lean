import PageCamel.WebBase.RequestHead
import PageCamel.WebBase.ChunkedReaders

/-!
`process_request` on a connection that stays open: the head of a request, its body, and the
next request. The body is read in one place, and only when the request was not answered
before; on paths for streaming it is read only by a page that answers 100.
-/

namespace PageCamel.WebBase
open PageCamel.Lib PageCamel.Lib.Http1

/-! ### The readers of a body of known length -/

/-- Octets of a body, given to the handler block by block: whether all of them were read and
taken, what was read, and what is left on the socket. -/
def stream_request_body (accepts : List Octets → Octets → Bool) (cuts : List Nat) (unread : Nat)
    (socket : Arrivals) : Bool × Octets × Arrivals :=
  let (complete, data, r) := readChunk accepts unread unread { cuts, socket }
  (complete, data, r.socket)

def get_request_body (cuts : List Nat) (unread : Nat) (socket : Arrivals) :
    Option Octets × Arrivals :=
  match stream_request_body (fun _ _ => true) cuts unread socket with
  | (true, postdata, socket) => (some postdata, socket)
  | (false, _, socket) => (none, socket)

def is_chunked_transfer (ua : Ua) : Bool :=
  match ua.header (octets "Transfer-Encoding") with
  | none => false
  | some coding => mentions "chunked" coding

/-- `Content-Length` as a number; a number below zero counts as none. -/
def contentLength (ua : Ua) : Nat :=
  match ua.header (octets "Content-Length") with
  | none => 0
  | some value => (numify value).toNat

/-! ### A turn of the loop -/

/-- The handlers of a path for streaming: what `stream` returns for a block after others, and
the result of `finish`. -/
structure UploadStream where
  stream : List Octets → Octets → Bool
  finish : Ua → PageResult × Ua

/-- A server, and everything that may be different for each request: the callbacks, how much
the reads get, whether the response can be written. -/
structure WebTurn extends WebServer where
  decode_uri_path : Octets → Octets
  firewall : Bool
  mandant : Ua → Bool
  uploadstreamwebpaths : List (Octets × UploadStream)
  continueheaders : List (Octets × (Ua → Bool))
  parse_post_data : Ua → Octets → Option Ua
  cuts : List Nat
  /-- What the callbacks behind the page make of its result. -/
  postfilter : RequestState → RequestState
  /-- `$ua->{keepalive}` as the callbacks leave it. -/
  keepalive : Ua → Bool → Bool
  written : RequestState → Bool

/-- The client waits for `100 Continue` and does not get it. -/
def WebTurn.expectationFails (turn : WebTurn) (webpath : Octets) (ua : Ua) : Bool :=
  match ua.header (octets "Expect") with
  | none => false
  | some expect => mentions "100-continue" expect &&
      turn.continueheaders.any fun entry => turn.pathMatches entry.1 webpath && !entry.2 ua

/-- What a reader of chunks leaves in the headers. -/
def Ua.withTrailers (ua : Ua) (body : Outcome) : Ua :=
  (body.trailers.foldl (fun ua trailer => (parse_header_line ua trailer).getD ua) ua).setHeader
    (octets "Content-Length", decimal body.content_length)

/-- The request with its body; nothing when the connection ends here. -/
def WebTurn.getBody (turn : WebTurn) (webpath : Octets) (useuploadstream : Bool) (ua : Ua)
    (socket : Arrivals) : Option Ua × Arrivals :=
  if contentLength ua = 0 ∧ is_chunked_transfer ua = false then (some ua, socket)
  else if turn.expectationFails webpath ua then (none, socket)
  else if useuploadstream then (some ua, socket)
  else if is_chunked_transfer ua then
    let body := get_request_body_chunked turn.cuts socket
    (turn.parse_post_data (ua.withTrailers body) (body.postdata.getD []), body.socket)
  else
    match get_request_body turn.cuts (contentLength ua) socket with
    | (none, socket) => (none, socket)
    | (some postdata, socket) => (turn.parse_post_data ua postdata, socket)

def RequestState.getBody (turn : WebTurn) (useuploadstream : Bool) (s : RequestState)
    (socket : Arrivals) : Option RequestState × Arrivals :=
  if s.pagedone then (some s, socket)
  else
    let (ua, socket) := turn.getBody s.webpath useuploadstream s.ua socket
    (ua.map fun ua => { s with ua }, socket)

/-- The filters between the body and the page. -/
def WebServer.ready (server : WebServer) (s : RequestState) : RequestState :=
  let s := s.filter server.prefilter
  let s := { s with webpath := s.ua.url }
  (s.filter server.authcheck).filter server.postauthfilter

/-- The server of a turn, with the body that is on the socket. -/
def WebTurn.server (turn : WebTurn) (webpath : Octets) (socket : Arrivals) : WebServer :=
  { turn.toWebServer with requestBody := fun ua => (turn.getBody webpath false ua socket).1 }

/-- Where nothing is streamed, the page gets what `processRequest` gives it. -/
theorem processRequest_server (turn : WebTurn) (ua : Ua) (socket : Arrivals) :
    (turn.server (cleanPath ua.url) socket).processRequest ua =
      ((turn.checks ua).getBody turn false socket).1.map fun s =>
        (turn.ready s).dispatch turn.toWebServer := by
  have hPath := (checks_checked turn.toWebServer ua).1
  have hChecks : (turn.server (cleanPath ua.url) socket).checks ua = turn.checks ua := rfl
  rw [WebServer.processRequest, hChecks, RequestState.getBody, RequestState.readBody, hPath]
  by_cases hDone : (turn.checks ua).pagedone = true
  · rw [if_pos hDone, if_pos hDone]
    rfl
  · rw [if_neg hDone, if_neg hDone]
    rfl

/-- The body of a page that answered 100: whether it was read and taken. -/
def WebTurn.streamBody (turn : WebTurn) (upload : UploadStream) (ua : Ua) (socket : Arrivals) :
    Bool × Ua × Arrivals :=
  if is_chunked_transfer ua then
    let body := stream_request_body_chunked upload.stream turn.cuts socket
    (body.returned, ua.withTrailers body, body.socket)
  else
    let (complete, _, socket) :=
      stream_request_body upload.stream turn.cuts (contentLength ua) socket
    (complete, ua, socket)

/-- The page that is called, when it answers 100 on a path for streaming. -/
def WebTurn.streams (turn : WebTurn) (useuploadstream : Bool) (s : RequestState) :
    Option Octets :=
  if s.pagedone then none
  else
    match dispatchEntry turn.pathMatches turn.webpaths turn.overridewebpaths s.webpath with
    | some (.webpath dpath, conf) =>
        if useuploadstream && (conf.page s.ua).1.status = 100 then some dpath else none
    | _ => none

/-- The page, and the body for streaming. Nothing is left when the page has no handlers: the
process dies. -/
def RequestState.dispatchStream (turn : WebTurn) (useuploadstream : Bool) (s : RequestState)
    (socket : Arrivals) : Option (RequestState × Arrivals) :=
  let called := s.dispatch turn.toWebServer
  match turn.streams useuploadstream s with
  | none => some (called, socket)
  | some dpath =>
      match turn.uploadstreamwebpaths.lookup dpath with
      | none => none
      | some upload =>
          let (ok, ua, socket) := turn.streamBody upload called.ua socket
          if ok then
            let (result, ua) := upload.finish ua
            some ({ called with ua }.done result, socket)
          else some ({ called with ua }.done { called.result with status := 500 }, socket)

/-- The connection goes on behind this page. -/
def WebTurn.goesOn (turn : WebTurn) (ua : Ua) (s : RequestState) : Bool :=
  let s := turn.postfilter s
  let result := s.result.withDefaultPage s.uamethod
  turn.keepalive s.ua (keepaliveOf ua) && turn.written { s with result } &&
    result.keepalive ≠ some false && result.status ≠ 101

def WebTurn.useuploadstream (turn : WebTurn) (ua : Ua) : Bool :=
  turn.uploadstreamwebpaths.any fun entry => turn.pathMatches entry.1 (cleanPath ua.url)

/-- From the end of the head to the next request. -/
def WebTurn.afterHead (turn : WebTurn) (ua : Ua) (socket : Arrivals) : Option Arrivals :=
  if !turn.mandant ua then none
  else
    match (turn.checks ua).getBody turn (turn.useuploadstream ua) socket with
    | (none, _) => none
    | (some s, socket) =>
        match (turn.ready s).dispatchStream turn (turn.useuploadstream ua) socket with
        | none => none
        | some (s, socket) => if turn.goesOn ua s then some socket else none

/-- From one `nextrequest` to the next, with what is on the socket there. -/
def WebTurn.process_request (turn : WebTurn) (socket : Arrivals) : Option Arrivals :=
  if !turn.firewall then none
  else
    match readHead turn.decode_uri_path socket with
    | (none, _) => none
    | (some head, socket) => turn.afterHead head.ua socket

/-- A request of a connection: what is on the socket when it begins, and when the next one
does. -/
structure Served where
  turn : WebTurn
  socket : Arrivals
  next : Option Arrivals

/-- The requests of a connection. -/
def connection : Arrivals → List WebTurn → List Served
  | _, [] => []
  | socket, turn :: turns =>
      match turn.process_request socket with
      | none => [{ turn, socket, next := none }]
      | some next => { turn, socket, next := some next } :: connection next turns

/-! ### Whole requests -/

/-- How the header lines delimit the body: by a chunked coding, or by the length they agree
on. -/
def bodyFraming (fields : List Field) : Option Framing :=
  let values := fun name => (fields.filter fun field => field.1 = octets name).map Prod.snd
  if (values "Transfer-Encoding").any (mentions "chunked") then some .chunked
  else if values "Content-Length" = [] then some (.length 0)
  else (lengthValue (values "Content-Length")).map .length

/-- The body that the framing delimits is in front of the rest. -/
def Delimits (framing : Framing) (socket rest : Arrivals) : Prop :=
  match framing with
  | .length n => ∃ body, body.length = n ∧ socket = arriving body ++ rest
  | .chunked => ∃ chunks, BodyArrives chunks socket rest
  | .untilClose => False

/-- What was taken from the socket is the request line, the header lines and the body that
they delimit. -/
def Served.Whole (served : Served) (next : Arrivals) : Prop :=
  ∃ head found body framing, IsHead head ∧ served.socket = arriving head ++ body ∧
    readHead served.turn.decode_uri_path served.socket = (some found, body) ∧
    bodyFraming found.fields = some framing ∧ Delimits framing body next

/-- The framing as the readers see it, in the last field of each name. -/
def seenFraming (ua : Ua) : Option Framing :=
  if is_chunked_transfer ua then some .chunked
  else
    match ua.header (octets "Content-Length") with
    | none => some (.length 0)
    | some value => (lengthValue [value]).map .length

/-- The handler takes the body in the blocks in which it is read. -/
def UploadStream.TakesBody (upload : UploadStream) (cuts : List Nat) (framing : Framing)
    (socket : Arrivals) : Prop :=
  match framing with
  | .length n => ∃ body rest, body.length = n ∧ socket = arriving body ++ rest ∧
      Takes upload.stream [] (pieces n cuts body).1
  | .chunked => ∃ chunks rest, BodyArrives chunks socket rest ∧
      Takes upload.stream [] (allPieces cuts chunks).1
  | .untilClose => False

/-- The request as the page for streaming leaves it, and the handlers of its body, when it is
called and answers 100. -/
def WebTurn.streamsAt (turn : WebTurn) (ua : Ua) : Option (Ua × UploadStream) :=
  let s := turn.ready (turn.checks ua)
  ((turn.streams true s).bind fun dpath => turn.uploadstreamwebpaths.lookup dpath).map fun upload =>
    ((s.dispatch turn.toWebServer).ua, upload)

/-- The request is answered by then, or its body is left for a page that does not read it. -/
def WebTurn.LeavesBody (turn : WebTurn) (ua : Ua) : Prop :=
  (turn.checks ua).pagedone = true ∨
    turn.useuploadstream ua = true ∧ turn.streamsAt ua = none

/-- The body is read to its end: there is none, or it arrives whole, and the readers see the
framing of the header lines; on a path for streaming the handler takes all of it. -/
inductive WebTurn.ReadsBody (turn : WebTurn) (found : RequestHead) (socket : Arrivals) : Prop
  | absent : turn.LeavesBody found.ua → bodyFraming found.fields = some (.length 0) →
      ReadsBody turn found socket
  | whole {framing : Framing} {rest : Arrivals} : (turn.checks found.ua).pagedone = false →
      turn.useuploadstream found.ua = false → bodyFraming found.fields = some framing →
      seenFraming (turn.checks found.ua).ua = some framing → Delimits framing socket rest →
      ReadsBody turn found socket
  | streamed {framing : Framing} {ua : Ua} {upload : UploadStream} :
      (turn.checks found.ua).pagedone = false → turn.useuploadstream found.ua = true →
      turn.streamsAt found.ua = some (ua, upload) → bodyFraming found.fields = some framing →
      seenFraming ua = some framing → upload.TakesBody turn.cuts framing socket →
      ReadsBody turn found socket

/-! ### What the readers take from the socket -/

theorem sysread_spec (n : Nat) (socket : Arrivals) :
    socket = arriving (sysread n socket).1 ++ (sysread n socket).2 ∧
      (sysread n socket).1.length ≤ n := by
  induction socket generalizing n with
  | nil => cases n <;> simp [sysread, arriving]
  | cons signal socket ih =>
      cases n with
      | zero => simp [sysread, arriving]
      | succ n =>
          cases signal with
          | timeUp => simp [sysread, arriving]
          | octet b =>
              obtain ⟨hSocket, hLength⟩ := ih n
              refine ⟨?_, Nat.succ_le_succ hLength⟩
              rw [sysread, arriving, List.map_cons, List.cons_append, ← arriving, ← hSocket]

theorem sysread_pos {n : Nat} (h : 0 < n) (b : UInt8) (socket : Arrivals) :
    0 < (sysread n (.octet b :: socket)).1.length := by
  obtain ⟨n, rfl⟩ := Nat.exists_eq_succ_of_ne_zero (Nat.ne_of_gt h)
  exact Nat.succ_pos _

/-- A read that is complete took as much as it was to take. -/
theorem readChunk_complete {accepts : List Octets → Octets → Bool} (fuel remaining : Nat)
    (r after : Reader) (data : Octets) (hFuel : remaining ≤ fuel)
    (hRead : readChunk accepts fuel remaining r = (true, data, after)) :
    r.socket = arriving data ++ after.socket ∧ data.length = remaining := by
  induction fuel generalizing remaining r data with
  | zero =>
      simp only [readChunk, Prod.mk.injEq, true_and] at hRead
      obtain ⟨rfl, rfl⟩ := hRead
      exact ⟨rfl, (Nat.le_zero.mp hFuel).symm⟩
  | succ fuel ih =>
      rw [readChunk] at hRead
      split at hRead
      · next hZero =>
          simp only [Prod.mk.injEq, true_and] at hRead
          obtain ⟨rfl, rfl⟩ := hRead
          exact ⟨rfl, hZero.symm⟩
      · next hMore =>
          split at hRead
          · simp at hRead
          · simp at hRead
          · next b socket hSocket =>
              have hSize := readSize_le r.cuts (Nat.pos_of_ne_zero hMore)
              have hPos := sysread_pos (readSize_pos r.cuts remaining) b socket
              have hSpec := sysread_spec (readSize r.cuts remaining) r.socket
              rw [← hSocket] at hPos
              generalize sysread (readSize r.cuts remaining) r.socket = got at hRead hPos hSpec
              obtain ⟨buf, left⟩ := got
              dsimp only at hRead hPos hSpec
              split at hRead
              · simp only [Prod.mk.injEq] at hRead
                obtain ⟨hComplete, hData, hAfter⟩ := hRead
                obtain ⟨hLeft, hLength⟩ := ih (remaining - buf.length) _ _ (by omega)
                  (Prod.ext hComplete (Prod.ext rfl hAfter))
                dsimp only at hLeft
                rw [← hData, List.length_append, hLength, arriving_append, List.append_assoc,
                  ← hLeft]
                exact ⟨hSpec.1, by omega⟩
              · simp at hRead

theorem get_request_body_takes {cuts : List Nat} {unread : Nat} {socket rest : Arrivals}
    {postdata : Octets} (hRead : get_request_body cuts unread socket = (some postdata, rest)) :
    postdata.length = unread ∧ socket = arriving postdata ++ rest := by
  rw [get_request_body, stream_request_body] at hRead
  generalize hChunk : readChunk (fun _ _ => true) unread unread { cuts, socket } = read at hRead
  obtain ⟨complete, data, after⟩ := read
  cases complete with
  | false => simp at hRead
  | true =>
      simp only [Prod.mk.injEq, Option.some.injEq] at hRead
      obtain ⟨rfl, rfl⟩ := hRead
      exact (readChunk_complete unread unread _ after data le_rfl hChunk).symm

theorem stream_request_body_taken {accepts : List Octets → Octets → Bool} {cuts : List Nat}
    {body : Octets} {rest : Arrivals} (hTakes : Takes accepts [] (pieces body.length cuts body).1) :
    stream_request_body accepts cuts body.length (arriving body ++ rest) = (true, body, rest) := by
  rw [stream_request_body, readChunk_taken le_rfl hTakes]

/-- The digits of one value are the number that the readers take it for. -/
theorem numify_lengthValue {value : Octets} {n : Nat} (h : lengthValue [value] = some n) :
    numify value = n := by
  obtain ⟨hNonempty, hDigits, rfl⟩ :=
    (lengthValue_eq_some (List.cons_ne_nil _ _)).mp h value List.mem_cons_self
  have hNumber : numify (value ++ []) = digitsValue value :=
    numify_append hNonempty (List.all_eq_true.mp hDigits) (by simp)
  rwa [List.append_nil] at hNumber

theorem seenFraming_length {ua : Ua} {n : Nat} (h : seenFraming ua = some (.length n)) :
    is_chunked_transfer ua = false ∧ contentLength ua = n := by
  rw [seenFraming] at h
  split at h
  · simp at h
  · next hPlain =>
      refine ⟨by simpa using hPlain, ?_⟩
      rw [contentLength]
      split at h
      · simpa using h
      · next value _ =>
          obtain ⟨length, hLength, hSame⟩ := Option.map_eq_some_iff.mp h
          cases hSame
          rw [numify_lengthValue hLength, Int.toNat_natCast]

theorem seenFraming_chunked {ua : Ua} (h : seenFraming ua = some .chunked) :
    is_chunked_transfer ua = true := by
  rw [seenFraming] at h
  split at h
  · assumption
  · split at h <;> simp at h

section Turn
variable {turn : WebTurn}

/-- A body for streaming stays on the socket. -/
theorem getBody_upload {webpath : Octets} {ua read : Ua} {socket rest : Arrivals}
    (hRead : turn.getBody webpath true ua socket = (some read, rest)) :
    read = ua ∧ rest = socket := by
  rw [WebTurn.getBody] at hRead
  split at hRead
  · simpa [eq_comm] using hRead
  · split at hRead
    · simp at hRead
    · simpa [eq_comm] using hRead

/-- Other bodies are read to their end, as it is seen. -/
theorem getBody_takes {webpath : Octets} {ua read : Ua} {socket rest after : Arrivals}
    {framing : Framing} (hSeen : seenFraming ua = some framing)
    (hArrives : Delimits framing socket after)
    (hRead : turn.getBody webpath false ua socket = (some read, rest)) :
    Delimits framing socket rest := by
  cases framing with
  | untilClose => exact hArrives
  | length n =>
      obtain ⟨hPlain, hLength⟩ := seenFraming_length hSeen
      rw [WebTurn.getBody, hPlain, hLength] at hRead
      split at hRead
      · next hZero =>
          simp only [Prod.mk.injEq] at hRead
          exact ⟨[], hZero.1.symm, hRead.2⟩
      · split at hRead
        · simp at hRead
        · simp only [Bool.false_eq_true, if_false] at hRead
          split at hRead
          · simp at hRead
          · next postdata left hBody =>
              simp only [Prod.mk.injEq] at hRead
              obtain ⟨hLength, hSocket⟩ := get_request_body_takes hBody
              exact ⟨postdata, hLength, hRead.2 ▸ hSocket⟩
  | chunked =>
      have hChunked := seenFraming_chunked hSeen
      obtain ⟨chunks, hArrives⟩ := hArrives
      rw [WebTurn.getBody, hChunked] at hRead
      simp only [Bool.true_eq_false, and_false, if_false, Bool.false_eq_true, if_true] at hRead
      split at hRead
      · simp at hRead
      · obtain ⟨trailers, r, hBlock, -, -, hRest⟩ :=
          @evalBlock_taken _ turn.cuts _ _ _ hArrives (takes_all [] _)
        simp only [get_request_body_chunked, hBlock, Prod.mk.injEq] at hRead
        exact ⟨chunks, hRead.2 ▸ hRest ▸ hArrives⟩

/-- A body is streamed to its end when all of it is taken. -/
theorem streamBody_takes {upload : UploadStream} {ua : Ua} {socket : Arrivals} {framing : Framing}
    (hSeen : seenFraming ua = some framing)
    (hTakes : upload.TakesBody turn.cuts framing socket) :
    Delimits framing socket (turn.streamBody upload ua socket).2.2 := by
  cases framing with
  | untilClose => exact hTakes
  | length n =>
      obtain ⟨hPlain, hLength⟩ := seenFraming_length hSeen
      obtain ⟨body, rest, rfl, rfl, hTakes⟩ := hTakes
      simp only [WebTurn.streamBody, hPlain, hLength, stream_request_body_taken hTakes]
      exact ⟨body, rfl, rfl⟩
  | chunked =>
      obtain ⟨chunks, rest, hArrives, hTakes⟩ := hTakes
      obtain ⟨trailers, r, hBlock, -, -, hRest⟩ := evalBlock_taken hArrives hTakes
      simp only [WebTurn.streamBody, seenFraming_chunked hSeen, stream_request_body_chunked, hBlock]
      exact ⟨chunks, hRest ▸ hArrives⟩

/-- The filters in front of the page leave an answer alone. -/
theorem ready_pagedone (server : WebServer) {s : RequestState} (h : s.pagedone = true) :
    (server.ready s).pagedone = true := by
  simp [WebServer.ready, RequestState.filter, h]

theorem streams_answered {useuploadstream : Bool} {s : RequestState} (h : s.pagedone = true) :
    turn.streams useuploadstream s = none := by
  rw [WebTurn.streams, if_pos h]

theorem streams_plain (s : RequestState) : turn.streams false s = none := by
  rw [WebTurn.streams]
  split
  · rfl
  · split <;> simp

theorem dispatchStream_plain {useuploadstream : Bool} {s : RequestState} {socket : Arrivals}
    (h : turn.streams useuploadstream s = none) :
    s.dispatchStream turn useuploadstream socket = some (s.dispatch turn.toWebServer, socket) := by
  rw [RequestState.dispatchStream, h]

/-- Going on behind the head: the body was read or left, then the page was called. -/
theorem afterHead_some {ua : Ua} {socket next : Arrivals}
    (hNext : turn.afterHead ua socket = some next) :
    ∃ s rest called,
      (turn.checks ua).getBody turn (turn.useuploadstream ua) socket = (some s, rest) ∧
      (turn.ready s).dispatchStream turn (turn.useuploadstream ua) rest = some (called, next) := by
  rw [WebTurn.afterHead] at hNext
  split at hNext
  · cases hNext
  · split at hNext
    · cases hNext
    · next s rest hBody =>
        split at hNext
        · cases hNext
        · next called after hPage =>
            split at hNext
            · exact ⟨s, rest, called, hBody, by rw [hPage, Option.some.inj hNext]⟩
            · cases hNext

/-- On a path for streaming, nothing is read before the page. -/
theorem afterHead_upload {ua : Ua} {socket next : Arrivals}
    (hUpload : turn.useuploadstream ua = true) (hNext : turn.afterHead ua socket = some next) :
    ∃ called, (turn.ready (turn.checks ua)).dispatchStream turn true socket =
      some (called, next) := by
  obtain ⟨s, rest, called, hBody, hPage⟩ := afterHead_some hNext
  rw [hUpload] at hBody hPage
  rw [RequestState.getBody] at hBody
  split at hBody
  · simp only [Prod.mk.injEq, Option.some.injEq] at hBody
    obtain ⟨rfl, rfl⟩ := hBody
    exact ⟨called, hPage⟩
  · generalize hRead : turn.getBody (turn.checks ua).webpath true (turn.checks ua).ua socket = read
      at hBody
    obtain ⟨read, after⟩ := read
    cases read with
    | none => simp at hBody
    | some read =>
        obtain ⟨rfl, rfl⟩ := getBody_upload hRead
        simp only [Option.map_some, Prod.mk.injEq, Option.some.injEq] at hBody
        obtain ⟨rfl, rfl⟩ := hBody
        exact ⟨called, hPage⟩

/-- A body that is left is on the socket when the next request begins. -/
theorem afterHead_leaves {ua : Ua} {socket next : Arrivals} (hLeaves : turn.LeavesBody ua)
    (hNext : turn.afterHead ua socket = some next) : next = socket := by
  obtain hDone | ⟨hUpload, hNone⟩ := hLeaves
  · obtain ⟨s, rest, called, hBody, hPage⟩ := afterHead_some hNext
    rw [RequestState.getBody, if_pos hDone] at hBody
    simp only [Prod.mk.injEq, Option.some.injEq] at hBody
    obtain ⟨rfl, rfl⟩ := hBody
    rw [dispatchStream_plain (streams_answered (ready_pagedone _ hDone))] at hPage
    exact (Prod.mk.inj (Option.some.inj hPage)).2.symm
  · obtain ⟨called, hPage⟩ := afterHead_upload hUpload hNext
    rw [WebTurn.streamsAt] at hNone
    cases hStreams : turn.streams true (turn.ready (turn.checks ua)) with
    | none =>
        rw [dispatchStream_plain hStreams] at hPage
        exact (Prod.mk.inj (Option.some.inj hPage)).2.symm
    | some dpath =>
        -- the page answers 100, and there is no handler for the body: the process dies
        simp only [hStreams, Option.bind_some, Option.map_eq_none_iff] at hNone
        simp only [RequestState.dispatchStream, hStreams, hNone] at hPage
        cases hPage

theorem afterHead_streams {ua handed : Ua} {upload : UploadStream} {socket next : Arrivals}
    (hUpload : turn.useuploadstream ua = true) (hStreams : turn.streamsAt ua = some (handed, upload))
    (hNext : turn.afterHead ua socket = some next) :
    next = (turn.streamBody upload handed socket).2.2 := by
  obtain ⟨called, hPage⟩ := afterHead_upload hUpload hNext
  rw [WebTurn.streamsAt] at hStreams
  obtain ⟨found, hFound, hSame⟩ := Option.map_eq_some_iff.mp hStreams
  obtain ⟨dpath, hPath, hLookup⟩ := Option.bind_eq_some_iff.mp hFound
  cases hSame
  rw [RequestState.dispatchStream, hPath] at hPage
  simp only [hLookup] at hPage
  split at hPage
  · exact (Prod.mk.inj (Option.some.inj hPage)).2.symm
  · exact (Prod.mk.inj (Option.some.inj hPage)).2.symm

theorem afterHead_plain {ua : Ua} {socket next rest : Arrivals} {framing : Framing}
    (hOpen : (turn.checks ua).pagedone = false) (hPlain : turn.useuploadstream ua = false)
    (hSeen : seenFraming (turn.checks ua).ua = some framing)
    (hArrives : Delimits framing socket rest) (hNext : turn.afterHead ua socket = some next) :
    Delimits framing socket next := by
  obtain ⟨s, after, called, hBody, hPage⟩ := afterHead_some hNext
  rw [hPlain] at hBody hPage
  rw [dispatchStream_plain (streams_plain _)] at hPage
  obtain rfl : after = next := (Prod.mk.inj (Option.some.inj hPage)).2
  rw [RequestState.getBody, hOpen] at hBody
  simp only [Bool.false_eq_true, if_false] at hBody
  generalize hRead : turn.getBody (turn.checks ua).webpath false (turn.checks ua).ua socket = read
    at hBody
  obtain ⟨read, left⟩ := read
  cases read with
  | none => simp at hBody
  | some read =>
      obtain ⟨-, rfl⟩ := Prod.mk.inj hBody
      exact getBody_takes hSeen hArrives hRead

/-- A request goes on behind its head. -/
theorem process_request_some {socket next : Arrivals}
    (hNext : turn.process_request socket = some next) :
    ∃ found body, readHead turn.decode_uri_path socket = (some found, body) ∧
      turn.afterHead found.ua body = some next := by
  rw [WebTurn.process_request] at hNext
  split at hNext
  · cases hNext
  · split at hNext
    · cases hNext
    · next found body hHead => exact ⟨found, body, hHead, hNext⟩

/-- A body that is read is delimited as the header lines say. -/
theorem readsBody_delimits {found : RequestHead} {body next : Arrivals}
    (hReads : turn.ReadsBody found body) (hNext : turn.afterHead found.ua body = some next) :
    ∃ framing, bodyFraming found.fields = some framing ∧ Delimits framing body next := by
  cases hReads with
  | absent hLeaves hFraming =>
      obtain rfl := afterHead_leaves hLeaves hNext
      exact ⟨.length 0, hFraming, [], rfl, rfl⟩
  | @whole framing rest hOpen hPlain hFraming hSeen hArrives =>
      exact ⟨framing, hFraming, afterHead_plain hOpen hPlain hSeen hArrives hNext⟩
  | @streamed framing ua upload hOpen hUpload hStreams hFraming hSeen hTakes =>
      obtain rfl := afterHead_streams hUpload hStreams hNext
      exact ⟨framing, hFraming, streamBody_takes hSeen hTakes⟩

end Turn

/-- A body in front of nothing less than itself has no octets. -/
theorem delimits_self {framing : Framing} {socket : Arrivals} (h : Delimits framing socket socket) :
    framing = .length 0 := by
  cases framing with
  | untilClose => exact h.elim
  | length n =>
      obtain ⟨body, rfl, hSocket⟩ := h
      have hLength := congrArg List.length hSocket
      rw [List.length_append, arriving_length] at hLength
      rw [show body.length = 0 by omega]
  | chunked =>
      obtain ⟨chunks, lines, trailers, hLines, -, hSocket⟩ := h
      have hLength := congrArg List.length hSocket
      have hPos := chunkLines_length hLines
      rw [List.length_append, arriving_length, List.length_append] at hLength
      omega

/-! ### The requests of a connection -/

/-- Each request of a connection that goes on was processed from where it begins. -/
theorem mem_connection {socket next : Arrivals} {turns : List WebTurn} {served : Served}
    (hServed : served ∈ connection socket turns) (hNext : served.next = some next) :
    served.turn.process_request served.socket = some next := by
  induction turns generalizing socket with
  | nil => cases hServed
  | cons turn turns ih =>
      rw [connection] at hServed
      split at hServed
      · obtain rfl := List.mem_singleton.mp hServed
        cases hNext
      · next after hAfter =>
          rcases List.mem_cons.mp hServed with rfl | hLater
          · exact hAfter.trans hNext
          · exact ih hLater

/-- A request that leaves the socket at the end of its head is whole only without a body. -/
theorem whole_of_left {served : Served} {found : RequestHead} {body : Arrivals}
    (hHead : readHead served.turn.decode_uri_path served.socket = (some found, body))
    (hWhole : served.Whole body) : bodyFraming found.fields = some (.length 0) := by
  obtain ⟨-, found', body', framing, -, -, hHead', hFraming, hDelimits⟩ := hWhole
  obtain ⟨hSame, rfl⟩ := Prod.mk.inj (hHead.symm.trans hHead')
  obtain rfl := Option.some.inj hSame
  rw [hFraming, delimits_self hDelimits]

/-- When the connection goes on behind a request, the request was taken whole if its body was
read; if the body was left, it is taken whole when there is none. -/
theorem keepalive_takes_requests {socket next : Arrivals} {turns : List WebTurn} {served : Served}
    (hServed : served ∈ connection socket turns) (hNext : served.next = some next) :
    ∃ found body, readHead served.turn.decode_uri_path served.socket = (some found, body) ∧
      (served.turn.ReadsBody found body → served.Whole next) ∧
      (served.turn.LeavesBody found.ua →
        (served.Whole next ↔ bodyFraming found.fields = some (.length 0))) := by
  obtain ⟨found, body, hHead, hAfter⟩ := process_request_some (mem_connection hServed hNext)
  obtain ⟨head, hIsHead, hSocket⟩ := readHead_takes _ _ _ _ hHead
  have hReads (h : served.turn.ReadsBody found body) : served.Whole next := by
    obtain ⟨framing, hFraming, hDelimits⟩ := readsBody_delimits h hAfter
    exact ⟨head, found, body, framing, hIsHead, hSocket, hHead, hFraming, hDelimits⟩
  refine ⟨found, body, hHead, hReads, fun hLeaves => ⟨?_, fun hNone => hReads (.absent hLeaves hNone)⟩⟩
  obtain rfl := afterHead_leaves hLeaves hAfter
  exact whole_of_left hHead

/-- A server for two paths, and callbacks that leave everything as it is. -/
def plainTurn : WebTurn where
  toWebServer := twoPaths false
  decode_uri_path := id
  firewall := true
  mandant := fun _ => true
  uploadstreamwebpaths := []
  continueheaders := []
  parse_post_data := fun ua _ => some ua
  cuts := []
  postfilter := id
  keepalive := fun _ keepalive => keepalive
  written := fun _ => true

/-- The head of a POST, and its body, which looks like a request of its own. -/
def postHead (path : String) : Octets :=
  octets ("POST " ++ path ++ " HTTP/1.1\r\nHost: h\r\nContent-Length: 28\r\n\r\n")

def hiddenRequest : Octets := octets "GET /a HTTP/1.1\r\nHost: h\r\n\r\n"

/-- How the head of the POST is read. -/
def postFound (path : String) : RequestHead where
  ua :=
    { url := octets path
      method := octets "POST"
      headers := [(octets "Content-Length", octets "28"), (octets "Host", octets "h")] }
  fields := [(octets "Host", octets "h"), (octets "Content-Length", octets "28")]

/-- A POST to `/a` is read to its end, and what comes behind it is the next request. -/
theorem keepalive_takes_requests_post :
    ∃ served ∈ connection (arriving (postHead "/a" ++ hiddenRequest ++ hiddenRequest)) [plainTurn],
      served.next = some (arriving hiddenRequest) ∧ served.Whole (arriving hiddenRequest) := by
  have hRun : plainTurn.process_request
      (arriving (postHead "/a" ++ hiddenRequest ++ hiddenRequest)) =
        some (arriving hiddenRequest) := by decide +kernel
  have hServed : { turn := plainTurn
                   socket := arriving (postHead "/a" ++ hiddenRequest ++ hiddenRequest)
                   next := some (arriving hiddenRequest) : Served } ∈
      connection (arriving (postHead "/a" ++ hiddenRequest ++ hiddenRequest)) [plainTurn] := by
    simp only [connection, hRun, List.mem_singleton]
  refine ⟨_, hServed, rfl, ?_⟩
  obtain ⟨found, body, hHead, hReads, -⟩ := keepalive_takes_requests hServed rfl
  have hPost : readHead id (arriving (postHead "/a" ++ hiddenRequest ++ hiddenRequest)) =
      (some (postFound "/a"), arriving (hiddenRequest ++ hiddenRequest)) := by decide +kernel
  obtain ⟨hSame, rfl⟩ := Prod.mk.inj (hHead.symm.trans hPost)
  obtain rfl := Option.some.inj hSame
  refine hReads (@WebTurn.ReadsBody.whole _ _ _ (.length 28) (arriving hiddenRequest) ?_ ?_ ?_ ?_ ?_)
  · decide +kernel
  · rfl
  · decide +kernel
  · decide +kernel
  · exact ⟨hiddenRequest, by decide, arriving_append _ _⟩

/-- A POST to `/b` is answered before its body is read, and the body is the next request. -/
theorem hidden_request_served :
    (∃ served ∈ connection (arriving (postHead "/b" ++ hiddenRequest)) [plainTurn, plainTurn],
      served.socket = arriving hiddenRequest ∧ served.next = some []) ∧
    ¬ ∀ (socket next : Arrivals) (turns : List WebTurn),
      ∀ served ∈ connection socket turns, served.next = some next → served.Whole next := by
  have hRun : plainTurn.process_request (arriving (postHead "/b" ++ hiddenRequest)) =
      some (arriving hiddenRequest) := by decide +kernel
  have hHidden : plainTurn.process_request (arriving hiddenRequest) = some [] := by decide +kernel
  have hServed : connection (arriving (postHead "/b" ++ hiddenRequest)) [plainTurn, plainTurn] =
      [{ turn := plainTurn
         socket := arriving (postHead "/b" ++ hiddenRequest)
         next := some (arriving hiddenRequest) },
       { turn := plainTurn
         socket := arriving hiddenRequest
         next := some [] }] := by
    simp only [connection, hRun, hHidden]
  refine ⟨⟨_, hServed ▸ List.mem_cons_of_mem _ List.mem_cons_self, rfl, rfl⟩, fun hAll => ?_⟩
  have hWhole := hAll _ _ _ _ (hServed ▸ List.mem_cons_self) rfl
  have hPost : readHead id (arriving (postHead "/b" ++ hiddenRequest)) =
      (some (postFound "/b"), arriving hiddenRequest) := by decide +kernel
  have hNone := whole_of_left hPost hWhole
  revert hNone
  decide +kernel

end PageCamel.WebBase

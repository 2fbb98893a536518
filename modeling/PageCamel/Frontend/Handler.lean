import PageCamel.Frontend.BackendPool
import PageCamel.Frontend.Http2Handler
import PageCamel.Frontend.Http3Handler
import Mathlib.Logic.Function.Basic

/-!
The two handlers with all their streams: requests that get a backend at once or
wait for one, reads and writes of the backends, and the events of the client side.
What happens to the entry of a stream is the business of `Http2Handler` and
`Http3Handler`.
-/

namespace PageCamel.Frontend
open PageCamel.Lib PageCamel.Http2

/-- The connections to the backend, and what the hashes hold for every stream. -/
structure Handler (σ ε : Type) where
  pool : BackendPool σ := {}
  entry : Nat → ε

variable {σ ε : Type}

def Handler.setPool (h : Handler σ ε) (pool : BackendPool σ) : Handler σ ε := { h with pool }

def Handler.setEntry (h : Handler σ ε) (streamId : Nat) (e : ε) : Handler σ ε :=
  { h with entry := Function.update h.entry streamId e }

/-- A request, translated: it is given to a backend, queued when the limit is reached,
or refused, which the result tells. -/
def Handler.startRequest (h : Handler σ ε) (s : Sockets) (streamId : Nat) (request : Octets)
    (queued : σ) (start : ε → ε) : Handler σ ε × Bool :=
  match h.pool.acquireBackend s streamId with
  | (pool, some _) => ((h.setPool pool).setEntry streamId (start (h.entry streamId)), false)
  | (pool, none) =>
      if maxPoolSize ≤ pool.activeBackends then
        (h.setPool (pool.enqueue ⟨streamId, request, queued⟩), false)
      else (h.setPool pool, true)

/-- `processWaitingStreams`, with what it does to the entry of a stream it serves. -/
def Handler.processWaitingStreams (dispatch : ε → Octets → σ → ε) (h : Handler σ ε)
    (s : Sockets) : Handler σ ε :=
  let (pool, served) := h.pool.processWaitingStreams s
  served.foldl (fun h w => h.setEntry w.streamId (dispatch (h.entry w.streamId) w.request w.state))
    (h.setPool pool)

/-- The stream has a new entry and its backend may be released. -/
def Handler.settle (h : Handler σ ε) (s : Sockets) (streamId : Nat) (e : ε)
    (release : Option Bool) : Handler σ ε :=
  match release with
  | none => h.setEntry streamId e
  | some reusable => (h.setPool (h.pool.releaseBackend s streamId reusable)).setEntry streamId e

@[simp] theorem entry_setEntry (h : Handler σ ε) (streamId : Nat) (e : ε) :
    (h.setEntry streamId e).entry streamId = e := Function.update_self ..

/-! ### Serving the queue -/

/-- The entries a stream has in the queue. -/
def BackendPool.waitingOf (p : BackendPool σ) (streamId : Nat) : List (WaitingStream σ) :=
  p.waitingForBackend.filter fun w => w.streamId = streamId

theorem entry_dispatchAll (dispatch : ε → Octets → σ → ε) (id : Nat)
    (served : List (WaitingStream σ)) :
    ∀ h : Handler σ ε,
      (served.foldl (fun h w =>
          h.setEntry w.streamId (dispatch (h.entry w.streamId) w.request w.state)) h).entry id =
        (served.filter fun w => w.streamId = id).foldl (fun e w => dispatch e w.request w.state)
          (h.entry id) := by
  induction served with
  | nil => exact fun _ => rfl
  | cons w served ih =>
      intro h
      rw [List.foldl_cons, ih]
      by_cases hId : w.streamId = id
      · subst hId
        simp [Handler.setEntry]
      · have hEntry : (h.setEntry w.streamId
            (dispatch (h.entry w.streamId) w.request w.state)).entry id = h.entry id :=
          Function.update_of_ne (fun hEq => hId hEq.symm) ..
        rw [hEntry, List.filter_cons_of_neg (by simpa using hId)]

theorem pool_dispatchAll (dispatch : ε → Octets → σ → ε) (served : List (WaitingStream σ)) :
    ∀ h : Handler σ ε,
      (served.foldl (fun h w =>
          h.setEntry w.streamId (dispatch (h.entry w.streamId) w.request w.state)) h).pool = h.pool := by
  induction served with
  | nil => exact fun _ => rfl
  | cons w served ih => exact fun h => ih _

/-- What a round of `processWaitingStreams` means for one stream: the entries it serves
are the first ones the stream has in the queue. -/
theorem processWaitingStreams_spec (dispatch : ε → Octets → σ → ε) (h : Handler σ ε) (s : Sockets)
    (id : Nat) :
    ∃ served, h.pool.waitingOf id =
        served ++ (h.processWaitingStreams dispatch s).pool.waitingOf id ∧
      (h.processWaitingStreams dispatch s).pool.holds id = (!served.isEmpty || h.pool.holds id) ∧
      (h.processWaitingStreams dispatch s).entry id =
        served.foldl (fun e w => dispatch e w.request w.state) (h.entry id) := by
  have hWaiting := serve_waiting s h.pool.waitingForBackend h.pool
  have hHolds := holds_serve s h.pool.waitingForBackend h.pool id
  refine ⟨(h.pool.serve s h.pool.waitingForBackend).2.1.filter fun w => w.streamId = id, ?_, ?_, ?_⟩
  · rw [Handler.processWaitingStreams, pool_dispatchAll]
    simp only [BackendPool.waitingOf, Handler.setPool, BackendPool.processWaitingStreams]
    rw [← List.filter_append, hWaiting]
  · rw [Handler.processWaitingStreams, pool_dispatchAll]
    simp only [Handler.setPool, BackendPool.processWaitingStreams]
    refine hHolds.trans ?_
    congr 1
    rw [Bool.eq_iff_iff]
    simp [List.filter_eq_nil_iff]
  · rw [Handler.processWaitingStreams, entry_dispatchAll]
    rfl

/-! ### Starting a request -/

/-- What becomes of a request. -/
inductive Handler.Started (h : Handler σ ε) (streamId : Nat) (request : Octets) (queued : σ)
    (start : ε → ε) (h' : Handler σ ε) : Prop
  | dispatched (hHolds : h'.pool.holds streamId = true)
      (hWaiting : h'.pool.waitingOf streamId = h.pool.waitingOf streamId)
      (hEntry : h'.entry streamId = start (h.entry streamId))
  | queued (hHolds : h'.pool.holds streamId = h.pool.holds streamId)
      (hWaiting : h'.pool.waitingOf streamId =
        h.pool.waitingOf streamId ++ [⟨streamId, request, queued⟩])
      (hEntry : h'.entry streamId = h.entry streamId)
  | refused (hHolds : h'.pool.holds streamId = h.pool.holds streamId)
      (hWaiting : h'.pool.waitingOf streamId = h.pool.waitingOf streamId)
      (hEntry : h'.entry streamId = h.entry streamId)

theorem startRequest_started (h : Handler σ ε) (s : Sockets) (streamId : Nat) (request : Octets)
    (queued : σ) (start : ε → ε) :
    h.Started streamId request queued start (h.startRequest s streamId request queued start).1 := by
  have hHolds := holds_acquireBackend h.pool s streamId streamId
  have hWaiting := acquireBackend_waiting h.pool s streamId
  rw [Handler.startRequest]
  revert hHolds hWaiting
  rcases h.pool.acquireBackend s streamId with ⟨pool, _ | b⟩
  · intro hHolds hWaiting
    simp only [Option.isSome_none, Bool.false_eq_true, and_false, decide_false,
      Bool.false_or] at hHolds hWaiting
    dsimp only
    split
    · refine .queued hHolds ?_ rfl
      simp only [BackendPool.waitingOf, Handler.setPool, BackendPool.enqueue, hWaiting,
        List.filter_append]
      simp
    · exact .refused hHolds (by simp only [BackendPool.waitingOf, Handler.setPool, hWaiting]) rfl
  · intro hHolds hWaiting
    simp only [Option.isSome_some, and_self, decide_true, Bool.true_or] at hHolds hWaiting
    refine .dispatched hHolds ?_ (Function.update_self ..)
    simp only [BackendPool.waitingOf, Handler.setEntry, Handler.setPool, hWaiting]

/-! ### Other streams -/

/-- The two handlers are the same as far as a stream is concerned. -/
structure Handler.SameFor (streamId : Nat) (h h' : Handler σ ε) : Prop where
  holds : h'.pool.holds streamId = h.pool.holds streamId
  waiting : h'.pool.waitingOf streamId = h.pool.waitingOf streamId
  entry : h'.entry streamId = h.entry streamId

theorem Handler.SameFor.refl (streamId : Nat) (h : Handler σ ε) : h.SameFor streamId h :=
  ⟨rfl, rfl, rfl⟩

theorem Handler.SameFor.trans {streamId : Nat} {h h' h'' : Handler σ ε}
    (hFirst : h.SameFor streamId h') (hSecond : h'.SameFor streamId h'') :
    h.SameFor streamId h'' :=
  ⟨hSecond.holds.trans hFirst.holds, hSecond.waiting.trans hFirst.waiting,
    hSecond.entry.trans hFirst.entry⟩

theorem sameFor_setEntry {id streamId : Nat} (hOther : streamId ≠ id) (h : Handler σ ε) (e : ε) :
    h.SameFor id (h.setEntry streamId e) :=
  ⟨rfl, rfl, Function.update_of_ne hOther.symm ..⟩

/-- What is done for another stream under a condition. -/
theorem sameFor_setEntry_ite {id streamId : Nat} (hOther : streamId ≠ id) (h : Handler σ ε) (e : ε)
    (p : Prop) [Decidable p] : h.SameFor id (if p then h.setEntry streamId e else h) := by
  split
  · exact sameFor_setEntry hOther h e
  · exact .refl id h

theorem sameFor_settle {id streamId : Nat} (hOther : streamId ≠ id) (h : Handler σ ε) (s : Sockets)
    (e : ε) (release : Option Bool) : h.SameFor id (h.settle s streamId e release) := by
  cases release with
  | none => exact sameFor_setEntry hOther h e
  | some reusable =>
      refine ⟨?_, ?_, Function.update_of_ne hOther.symm ..⟩
      · simp [Handler.settle, Handler.setEntry, Handler.setPool, holds_releaseBackend, hOther.symm]
      · simp only [Handler.settle, Handler.setEntry, Handler.setPool, BackendPool.waitingOf,
          releaseBackend_waiting]

theorem sameFor_startRequest {id streamId : Nat} (hOther : streamId ≠ id) (h : Handler σ ε)
    (s : Sockets) (request : Octets) (queued : σ) (start : ε → ε) :
    h.SameFor id (h.startRequest s streamId request queued start).1 := by
  have hHolds := holds_acquireBackend h.pool s streamId id
  have hWaiting := acquireBackend_waiting h.pool s streamId
  rw [Handler.startRequest]
  revert hHolds hWaiting
  simp only [hOther.symm, false_and, decide_false, Bool.false_or]
  rcases h.pool.acquireBackend s streamId with ⟨pool, _ | b⟩
  · intro hHolds hWaiting
    dsimp only at hHolds hWaiting ⊢
    split
    · refine ⟨hHolds, ?_, rfl⟩
      simp only [BackendPool.waitingOf, Handler.setPool, BackendPool.enqueue, hWaiting,
        List.filter_append]
      simp [hOther]
    · exact ⟨hHolds, by simp only [BackendPool.waitingOf, Handler.setPool, hWaiting], rfl⟩
  · intro hHolds hWaiting
    dsimp only at hWaiting
    refine ⟨hHolds, ?_, Function.update_of_ne hOther.symm ..⟩
    simp only [BackendPool.waitingOf, Handler.setEntry, Handler.setPool, hWaiting]

/-! ### HTTP/2 -/

namespace Http2

/-- The request is in the buffer for the backend. -/
def StreamEntry.dispatch (e : StreamEntry) (request : Octets) (state : StreamState) : StreamEntry :=
  { e with tobackend := request, state := some state, response := [] }

def StreamEntry.put (e : StreamEntry) (data : Octets) : StreamEntry :=
  { e with tobackend := e.tobackend ++ data }

def StreamEntry.written (e : StreamEntry) (n : Nat) : StreamEntry :=
  { e with tobackend := e.tobackend.drop n }

abbrev Http2Handler := Handler StreamState StreamEntry

def errorPage (page : Octets) : Call :=
  .response (octets "590") [(octets "content-type", octets "text/html; charset=UTF-8")] page

/-- `handleRequest`. -/
def handleRequest (page : Octets) (h : Http2Handler) (s : Sockets) (streamId : Nat)
    (headers : List Header) (data : Option Octets) : Http2Handler × List Call :=
  let request := translateRequest headers data
  let (h, refused) :=
    h.startRequest s streamId request .waitingResponse fun e => e.dispatch request .waitingResponse
  (h, if refused then [errorPage page] else [])

/-- `handleConnectRequest`. -/
def handleConnectRequest (page : Octets) (h : Http2Handler) (s : Sockets) (streamId : Nat)
    (picks : List (Fin 64)) (headers : List Header) : Http2Handler × List Call :=
  if headerOr headers ":protocol" "" ≠ octets "websocket" then
    (h, [.response (octets "501") [] []])
  else
    let request := translateWebsocketUpgrade picks headers
    let (h, refused) :=
      h.startRequest s streamId request .tunnelPending fun e => e.dispatch request .tunnelPending
    (h, if refused then [errorPage page] else [])

/-- A call of `handleRequest` or `handleConnectRequest`. -/
inductive Request where
  | normal (headers : List Header) (data : Option Octets)
  | connect (picks : List (Fin 64)) (headers : List Header)
  deriving DecidableEq, Repr

def Request.handle (page : Octets) (h : Http2Handler) (s : Sockets) (streamId : Nat) :
    Request → Http2Handler × List Call
  | .normal headers data => handleRequest page h s streamId headers data
  | .connect picks headers => handleConnectRequest page h s streamId picks headers

/-- What the main loop, the server's callbacks and the tunnels make the handler do. -/
inductive Event where
  | request (s : Sockets) (streamId : Nat) (r : Request)
  | tunnelData (streamId : Nat) (data : Octets)
  | backendData (s : Sockets) (backend : Nat) (buf : Option Octets)
  | write (streamId n : Nat)
  | writeError (streamId : Nat)
  | processWaiting (s : Sockets)

def step (http3Port : Option Octets) (page : Octets) (h : Http2Handler) : Event → Http2Handler
  | .request s streamId r => (r.handle page h s streamId).1
  | .tunnelData streamId data =>
      let e := h.entry streamId
      if e.tunnel ∧ h.pool.holds streamId then h.setEntry streamId (e.put data) else h
  | .backendData s backend buf =>
      match h.pool.backendToStream.lookup backend with
      | none => h
      | some streamId =>
          let o := (h.entry streamId).handleBackendData http3Port buf
          h.settle s streamId o.entry o.release
  | .write streamId n =>
      let e := h.entry streamId
      if h.pool.holds streamId ∧ ¬ e.disconnected then h.setEntry streamId (e.written n) else h
  | .writeError streamId =>
      let e := h.entry streamId
      if h.pool.holds streamId ∧ ¬ e.disconnected then h.setEntry streamId e.setDisconnected else h
  | .processWaiting s => h.processWaitingStreams StreamEntry.dispatch s

/-- The stream an event is about. -/
def Event.stream? (h : Http2Handler) : Event → Option Nat
  | .request _ streamId _ | .tunnelData streamId _ | .write streamId _ | .writeError streamId =>
      some streamId
  | .backendData _ backend _ => h.pool.backendToStream.lookup backend
  | .processWaiting _ => none

end Http2

/-! ### HTTP/3 -/

namespace Http3

/-- The request is in the buffer for the backend. -/
def StreamEntry.dispatch (e : StreamEntry) (request : Octets) (state : StreamState) : StreamEntry :=
  { e with tobackend := request, state := some state, response := [] }

/-- An upgrade is given to a backend at once. -/
def StreamEntry.dispatchUpgrade (e : StreamEntry) (request : Octets) : StreamEntry :=
  { e.dispatch request .waitingResponse with tunnelPending := true }

def StreamEntry.written (e : StreamEntry) (n : Nat) : StreamEntry :=
  { e with tobackend := e.tobackend.drop n }

/-- `translateRequest`, which may set `streamUseChunked`. -/
def StreamEntry.translateRequest (e : StreamEntry) (headers : List Header) (body : Option Octets) :
    StreamEntry × Octets :=
  let e := if Http3.useChunked headers then { e with useChunked := true } else e
  (e, requestHead headers ++ frameData e.useChunked (body.getD []))

abbrev Http3Handler := Handler StreamState StreamEntry

def errorPage (contentType : String) (page : Octets) : Call :=
  .sendResponse 590 [(octets "content-type", octets contentType)] page

def handleNormalRequest (page : Octets) (h : Http3Handler) (s : Sockets) (streamId : Nat)
    (headers : List Header) (body : Option Octets) : Http3Handler × List Call :=
  let (e, request) := (h.entry streamId).translateRequest headers body
  let (h, refused) := (h.setEntry streamId e).startRequest s streamId request .waitingResponse
    fun e => e.dispatch request .waitingResponse
  (h, if refused then [errorPage "text/html; charset=UTF-8" page] else [])

def handleConnectRequest (page : Octets) (h : Http3Handler) (s : Sockets) (streamId : Nat)
    (headers : List Header) : Http3Handler × List Call :=
  if headerOr headers ":protocol" "" ≠ octets "websocket" then
    (h, [.sendResponse 400 [(octets "content-type", octets "text/plain")] (octets "Bad Request")])
  else
    let request := translateWebsocketUpgrade headers
    let (h, refused) := h.startRequest s streamId request .tunnelPending
      fun e => e.dispatchUpgrade request
    (h, if refused then [errorPage "text/html" page] else [])

structure Request where
  headers : List Header
  body : Option Octets := none
  isConnect : Bool := false
  deriving DecidableEq, Repr

/-- `handleRequest`. -/
def Request.handle (page : Octets) (h : Http3Handler) (s : Sockets) (streamId : Nat)
    (r : Request) : Http3Handler × List Call :=
  if r.isConnect then handleConnectRequest page h s streamId r.headers
  else handleNormalRequest page h s streamId r.headers r.body

/-- `cleanupStream`. -/
def cleanupStream (h : Http3Handler) (s : Sockets) (streamId : Nat) : Http3Handler :=
  let o := (h.entry streamId).cleanupStream
  h.settle s streamId o.entry o.release

/-- A read in `handleBackendData` and what the connection answers to the data it leads to. -/
structure Read where
  buf : Option Octets
  accept : Bool
  deriving DecidableEq, Repr

def maxReadPerCall : Nat := 4000000

/-- The loop of `handleBackendData`, with the reads it can make. It goes on for the
stream it has begun with, whether or not that still has the backend. -/
def readLoop (s : Sockets) (streamId : Nat) : Nat → List Read → Http3Handler → Http3Handler
  | _, [], h => h
  | totalBytesRead, r :: reads, h =>
      let e := h.entry streamId
      if maxReadPerCall ≤ totalBytesRead ∨ e.congestionBlocked then h
      else
        let o := e.handleBackendData r.buf r.accept
        let h := h.settle s streamId o.entry o.release
        match r.buf with
        | none => h
        | some buf => readLoop s streamId (totalBytesRead + buf.length) reads h

/-- What the main loop and the callbacks of the connection make the handler do. -/
inductive Event where
  | request (s : Sockets) (streamId : Nat) (r : Request)
  | streamData (streamId : Nat) (data : Octets) (fin : Bool)
  | streamClose (s : Sockets) (streamId : Nat)
  | backendData (s : Sockets) (backend : Nat) (reads : List Read)
  | write (streamId n : Nat)
  | writeError (streamId : Nat)
  | processWaiting (s : Sockets)
  | flush (s : Sockets) (streamId : Nat) (accept : Bool)

def step (page : Octets) (h : Http3Handler) : Event → Http3Handler
  | .request s streamId r => (r.handle page h s streamId).1
  | .streamData streamId data fin =>
      h.setEntry streamId ((h.entry streamId).handleStreamData (h.pool.holds streamId) data fin)
  | .streamClose s streamId => cleanupStream h s streamId
  | .backendData s backend reads =>
      match h.pool.backendToStream.lookup backend with
      | none => h
      | some streamId => readLoop s streamId 0 reads h
  | .write streamId n =>
      let e := h.entry streamId
      if h.pool.holds streamId ∧ ¬ e.disconnected then h.setEntry streamId (e.written n) else h
  | .writeError streamId =>
      let e := h.entry streamId
      if h.pool.holds streamId ∧ ¬ e.disconnected then h.setEntry streamId e.setDisconnected else h
  | .processWaiting s => h.processWaitingStreams StreamEntry.dispatch s
  | .flush s streamId accept =>
      let o := (h.entry streamId).flushPending accept
      h.settle s streamId o.entry o.release

/-- The stream an event is about. -/
def Event.stream? (h : Http3Handler) : Event → Option Nat
  | .request _ streamId _ | .streamData streamId _ _ | .streamClose _ streamId
  | .write streamId _ | .writeError streamId | .flush _ streamId _ => some streamId
  | .backendData _ backend _ => h.pool.backendToStream.lookup backend
  | .processWaiting _ => none

end Http3

end PageCamel.Frontend

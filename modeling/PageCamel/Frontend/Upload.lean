import PageCamel.Frontend.Http3Handler
import PageCamel.Lib.Runs

/-!
The request of an HTTP/3 stream on its way into the buffer for the backend: its
head when the stream gets a backend, at once or from the queue, and the body data
as it arrives. Data that arrives in a state `handleStreamData` has no branch for
is dropped.
-/

namespace PageCamel.Frontend.Http3
open PageCamel.Lib PageCamel.Lib.Http1 PageCamel.Http2

/-! ### Streams with a request -/

/-- What `acquireBackend` comes to for a new request: a backend, a place in the queue,
or an error response. -/
inductive Acquired where
  | backend
  | full
  | unavailable
  deriving DecidableEq, Repr

/-- A stream, its place in `waitingForBackend`, and what has happened so far: the
request and whether its head announces chunks, the data that arrived, and all that
was put into the buffer for the backend. -/
structure Upload where
  entry : StreamEntry
  backend : Bool := false
  waiting : Option (Octets × StreamState) := none
  closed : Bool := false
  request : Octets
  chunked : Bool
  chunks : List Octets := []
  fin : Bool := false
  put : Option Octets := none
  deriving DecidableEq, Repr

/-- The request is put into the buffer and the stream waits for its response. -/
def Upload.assign (u : Upload) (request : Octets) (state : StreamState) : Upload :=
  { u with
    entry := { u.entry with tobackend := request, state := some state, response := [] }
    backend := true, waiting := none, put := some (u.put.getD [] ++ request) }

/-- `handleRequest` and what follows it, for a request that is not a CONNECT. -/
def Upload.start (headers : List Header) (body : Option Octets) (acquired : Acquired) : Upload :=
  let request := translateRequest headers body
  let chunked := useChunked headers
  let u : Upload := { entry := { useChunked := chunked }, request, chunked }
  match acquired with
  | .backend => u.assign request .waitingResponse
  | .full => { u with waiting := some (request, .waitingResponse) }
  | .unavailable => u

/-- `handleConnectRequest`. -/
def Upload.startConnect (headers : List Header) (acquired : Acquired) : Upload :=
  let request := translateWebsocketUpgrade headers
  let u : Upload := { entry := {}, request, chunked := false }
  if headerOr headers ":protocol" "" ≠ octets "websocket" then u
  else
    match acquired with
    | .backend =>
        let u := u.assign request .waitingResponse
        { u with entry := { u.entry with tunnelPending := true } }
    | .full => { u with waiting := some (request, .tunnelPending) }
    | .unavailable => u

inductive UploadEvent where
  | data (chunk : Octets) (fin : Bool)
  | dispatch
  | write (n : Nat)
  | writeError
  | read (buf : Option Octets) (accept : Bool)
  | flush (accept : Bool)
  | close
  deriving DecidableEq, Repr

/-- Body data or the end of the body arrives; nothing does after the end or after
the stream is closed. -/
def Upload.receive (u : Upload) (chunk : Octets) (fin : Bool) : Upload :=
  if u.closed ∨ u.fin then u
  else
    let entry := u.entry.handleStreamData u.backend chunk fin
    { u with
      entry, chunks := u.chunks ++ [chunk], fin
      put := u.put.map (· ++ entry.tobackend.drop u.entry.tobackend.length) }

/-- `processWaitingStreams` comes to the stream and has a backend for it. -/
def Upload.dispatch (u : Upload) : Upload :=
  match u.waiting with
  | none => u
  | some (request, state) => u.assign request state

/-- `writeToBackends` writes some of the buffer. -/
def Upload.write (u : Upload) (n : Nat) : Upload :=
  { u with entry := { u.entry with tobackend := u.entry.tobackend.drop n } }

/-- The response side has done something to the stream. -/
def Upload.respond (u : Upload) (o : Outcome) : Upload :=
  { u with entry := o.entry, backend := u.backend && o.release.isNone }

def Upload.step (u : Upload) : UploadEvent → Upload
  | .data chunk fin => u.receive chunk fin
  | .dispatch => u.dispatch
  | .write n => if u.backend then u.write n else u
  | .writeError => if u.backend then { u with entry := u.entry.setDisconnected } else u
  | .read buf accept => if u.backend then u.respond (u.entry.handleBackendData buf accept) else u
  | .flush accept => u.respond (u.entry.flushPending accept)
  | .close => { u.respond u.entry.cleanupStream with closed := true }

/-! ### The upload -/

/-- The request and every chunk of body data, in order and once each, and the end of
the chunks if the body has ended. -/
def Upload.expected (u : Upload) : Octets :=
  u.request ++ u.chunks.flatMap (frameData u.chunked) ++ if u.fin ∧ u.chunked then lastChunk else []

/-- What was put into the buffer since the stream got a backend is the request as
far as it has arrived. -/
def Upload.Complete (u : Upload) : Prop := ∀ put, u.put = some put → put = u.expected

/-- The request has got an error response and will never have a backend. -/
def Upload.Refused (u : Upload) : Prop := u.put = none ∧ u.waiting = none

/-- Data arrives while `handleStreamData` has a branch for it, or when nothing is to
be done with it. -/
def UploadEvent.Timely (u : Upload) : UploadEvent → Prop
  | .data chunk fin =>
      u.closed = true ∨ u.fin = true ∨ u.Refused ∨
      ((chunk ≠ [] → u.entry.state = some .waitingResponse ∨
          (u.entry.state = some .tunnelActive ∧ u.chunked = false)) ∧
        (fin = true → u.chunked = true → u.entry.state = some .waitingResponse))
  | _ => True

/-! ### What the response side keeps -/

/-- The stream is cleaned up, or the request side of its entry stays as it is and it
does not start to wait for a response or leave a tunnel. -/
def Outcome.Keeps (e : StreamEntry) (o : Outcome) : Prop :=
  (o.release.isSome = true ∧ o.entry.state = none) ∨
  (o.release = none ∧ o.entry.useChunked = e.useChunked ∧ o.entry.tobackend = e.tobackend ∧
    (o.entry.state = some .waitingResponse → e.state = some .waitingResponse) ∧
    (o.entry.state = some .tunnelActive →
      e.state = some .waitingResponse ∨ e.state = some .tunnelActive))

theorem keeps_of_same {e e' : StreamEntry} {calls : List (Call × Bool)}
    (hChunked : e'.useChunked = e.useChunked) (hBuffer : e'.tobackend = e.tobackend)
    (hState : e'.state = e.state) : ({ entry := e', calls } : Outcome).Keeps e :=
  .inr ⟨rfl, hChunked, hBuffer, fun h => hState ▸ h, fun h => .inr (hState ▸ h)⟩

theorem Outcome.Keeps.after {e : StreamEntry} {o : Outcome} (h : o.Keeps e)
    (calls : List (Call × Bool)) : (o.after calls).Keeps e := h

theorem Outcome.Keeps.of_entry {e e' : StreamEntry} {o : Outcome} (h : o.Keeps e')
    (hChunked : e'.useChunked = e.useChunked) (hBuffer : e'.tobackend = e.tobackend)
    (hState : e'.state = e.state) : o.Keeps e := by
  rcases h with h | ⟨hNone, hC, hB, hW, hT⟩
  · exact .inl h
  · exact .inr ⟨hNone, hC.trans hChunked, hB.trans hBuffer, fun h => hState ▸ hW h,
      fun h => hState ▸ hT h⟩

theorem keeps_finish (e : StreamEntry) : e.finish.Keeps e := .inl ⟨rfl, rfl⟩

theorem keeps_finishStreaming (e : StreamEntry) : e.finishStreaming.Keeps e := by
  rw [StreamEntry.finishStreaming]
  split
  · exact keeps_finish e
  · exact keeps_of_same rfl rfl rfl

theorem keeps_finishTunnel (e : StreamEntry) : e.finishTunnel.Keeps e := by
  rw [StreamEntry.finishTunnel]
  split
  · exact keeps_finish e
  · exact keeps_of_same rfl rfl rfl

theorem keeps_startStreaming (e : StreamEntry) (status : Nat) (headers : List Header)
    (contentLength : Option Octets) (body : Octets) (accept : Bool) :
    (e.startStreaming status headers contentLength body accept).Keeps e := by
  right
  unfold StreamEntry.startStreaming
  dsimp only
  refine ⟨rfl, ?_, ?_, ?_, ?_⟩
  · split <;> (try split) <;> rfl
  · split <;> (try split) <;> rfl
  · split <;> (try split) <;> (intro h; cases h)
  · split <;> (try split) <;> (intro h; cases h)

theorem keeps_processHead {e : StreamEntry} (hState : e.state = some .waitingResponse)
    (accept : Bool) : (e.processHead accept).Keeps e := by
  rw [StreamEntry.processHead]
  split
  · exact keeps_of_same rfl rfl rfl
  · dsimp only
    split
    · exact .inr ⟨rfl, rfl, rfl, (fun h => by cases h), fun _ => .inl hState⟩
    · split
      · exact keeps_startStreaming ..
      · split
        · exact keeps_of_same rfl rfl rfl
        · split
          · exact keeps_of_same rfl rfl rfl
          · exact keeps_of_same rfl rfl rfl

theorem keeps_processBackendResponse (e : StreamEntry) (accept : Bool) :
    (e.processBackendResponse accept).Keeps e := by
  rw [StreamEntry.processBackendResponse]
  split
  · next hState => exact keeps_processHead hState accept
  · split
    · apply Outcome.Keeps.after
      cases accept
      · exact (keeps_finishStreaming _).of_entry rfl rfl rfl
      · exact (keeps_finishStreaming _).of_entry rfl rfl rfl
    · exact keeps_finishStreaming e
  · split
    · apply Outcome.Keeps.after
      cases accept
      · exact (keeps_finishTunnel _).of_entry rfl rfl rfl
      · exact (keeps_finishTunnel _).of_entry rfl rfl rfl
    · exact keeps_finishTunnel e
  · exact keeps_of_same rfl rfl rfl

theorem keeps_handleBackendData (e : StreamEntry) (buf : Option Octets) (accept : Bool) :
    (e.handleBackendData buf accept).Keeps e := by
  unfold StreamEntry.handleBackendData
  split
  · exact keeps_of_same rfl rfl rfl
  · cases buf with
    | none => exact (keeps_processBackendResponse _ accept).of_entry rfl rfl rfl
    | some buf => exact (keeps_processBackendResponse _ accept).of_entry rfl rfl rfl

theorem keeps_flushPending (e : StreamEntry) (accept : Bool) : (e.flushPending accept).Keeps e := by
  rw [StreamEntry.flushPending]
  split
  · exact keeps_of_same rfl rfl rfl
  · split
    · apply Outcome.Keeps.after
      cases accept
      · exact (keeps_finishStreaming _).of_entry rfl rfl rfl
      · exact (keeps_finishStreaming _).of_entry rfl rfl rfl
    · apply Outcome.Keeps.after
      cases accept
      · exact (keeps_finishTunnel _).of_entry rfl rfl rfl
      · exact (keeps_finishTunnel _).of_entry rfl rfl rfl
    · exact keeps_of_same rfl rfl rfl

/-! ### The invariant -/

/-- The stream's state says that a backend has its request. -/
def StreamEntry.Assigned (e : StreamEntry) : Prop :=
  e.state = some .waitingResponse ∨ e.state = some .tunnelActive

structure Upload.Inv (u : Upload) : Prop where
  complete : u.Complete
  assigned : u.entry.Assigned → u.backend = true ∧ u.put.isSome = true
  chunked : u.closed = false → u.entry.state = some .waitingResponse → u.entry.useChunked = u.chunked
  queued : ∀ request state, u.waiting = some (request, state) → u.put = none ∧ request = u.request
  nothing : u.put = none → u.backend = false ∧ u.entry.state = none
  waiting : u.put = none → u.waiting.isSome = true →
    u.chunks.flatMap (frameData u.chunked) = [] ∧ ¬ (u.fin = true ∧ u.chunked = true) ∧
    (u.closed = false → u.entry.useChunked = u.chunked)

theorem Upload.Inv.expected_waiting {u : Upload} (h : u.Inv) (hNone : u.put = none)
    (hWaiting : u.waiting.isSome = true) : u.expected = u.request := by
  obtain ⟨hChunks, hFin, _⟩ := h.waiting hNone hWaiting
  rw [Upload.expected, hChunks, if_neg (by simpa using hFin)]
  simp

theorem Upload.Inv.assign {u : Upload} (h : u.Inv) (hNone : u.put = none)
    (hWaiting : u.waiting.isSome = true) (state : StreamState) : (u.assign u.request state).Inv where
  complete put hPut := by
    have hSame : (u.assign u.request state).expected = u.expected := rfl
    rw [hSame, h.expected_waiting hNone hWaiting]
    simp only [Upload.assign, hNone, Option.getD_none, List.nil_append, Option.some.injEq] at hPut
    exact hPut.symm
  assigned _ := ⟨rfl, rfl⟩
  chunked hOpen _ := (h.waiting hNone hWaiting).2.2 hOpen
  queued _ _ hEq := by cases hEq
  nothing hEq := by cases hEq
  waiting hEq := by cases hEq

/-- A stream before its request has been given to anyone. -/
theorem inv_queued (request : Octets) (chunked : Bool) (waiting : Option (Octets × StreamState))
    (hWaiting : ∀ r s, waiting = some (r, s) → r = request) :
    ({ entry := { useChunked := chunked }, waiting, request, chunked } : Upload).Inv where
  complete _ hEq := by cases hEq
  assigned hEq := by rcases hEq with hEq | hEq <;> cases hEq
  chunked _ _ := rfl
  queued r s hEq := ⟨rfl, hWaiting r s hEq⟩
  nothing _ := ⟨rfl, rfl⟩
  waiting _ _ := ⟨rfl, by simp, fun _ => rfl⟩

theorem inv_start (headers : List Header) (body : Option Octets) (acquired : Acquired) :
    (Upload.start headers body acquired).Inv := by
  have hQueue (waiting : Option (Octets × StreamState)) :=
    inv_queued (translateRequest headers body) (useChunked headers) waiting
  cases acquired with
  | backend =>
      exact (hQueue (some (translateRequest headers body, .waitingResponse)) (by simp)).assign
        rfl rfl .waitingResponse
  | full => exact hQueue (some (_, .waitingResponse)) (by simp)
  | unavailable => exact hQueue none (by simp)

theorem inv_startConnect (headers : List Header) (acquired : Acquired) :
    (Upload.startConnect headers acquired).Inv := by
  have hQueue (waiting : Option (Octets × StreamState)) :=
    inv_queued (translateWebsocketUpgrade headers) false waiting
  unfold Upload.startConnect
  dsimp only
  split
  · exact hQueue none (by simp)
  · cases acquired with
    | backend =>
        have h := (hQueue (some (translateWebsocketUpgrade headers, .waitingResponse))
          (by simp)).assign rfl rfl .waitingResponse
        exact ⟨h.complete, h.assigned, h.chunked, h.queued, h.nothing, h.waiting⟩
    | full => exact hQueue (some (_, .tunnelPending)) (by simp)
    | unavailable => exact hQueue none (by simp)

theorem frameData_nil (chunked : Bool) : frameData chunked [] = [] := rfl

/-- Data that arrives in time is put behind what is in the buffer. -/
theorem handleStreamData_timely {e : StreamEntry} {backend chunked fin : Bool} {chunk : Octets}
    (hBackend : e.Assigned → backend = true)
    (hChunked : e.state = some .waitingResponse → e.useChunked = chunked)
    (hData : chunk ≠ [] → e.state = some .waitingResponse ∨
      (e.state = some .tunnelActive ∧ chunked = false))
    (hFin : fin = true → chunked = true → e.state = some .waitingResponse) :
    e.handleStreamData backend chunk fin =
      e.put (frameData chunked chunk ++ if fin ∧ chunked then lastChunk else []) := by
  have hNothing : e.put [] = e := by
    rw [StreamEntry.put, List.append_nil]
  have hTwice (a b : Octets) : (e.put a).put b = e.put (a ++ b) := by
    simp [StreamEntry.put]
  -- first the data, whichever branch takes it
  have hFirst : (if chunk ≠ [] then
      if e.state = some .tunnelActive then if backend then e.put chunk else e
      else if e.state = some .waitingResponse then
        if backend then e.put (frameData e.useChunked chunk) else e
      else e
    else e) = e.put (frameData chunked chunk) := by
    by_cases hEmpty : chunk = []
    · rw [if_neg (not_not.mpr hEmpty), hEmpty, frameData_nil, hNothing]
    · rw [if_pos hEmpty]
      rcases hData hEmpty with hState | ⟨hState, hPlain⟩
      · rw [if_neg (by simp [hState]), if_pos hState, if_pos (hBackend (.inl hState)),
          hChunked hState]
      · rw [if_pos hState, if_pos (hBackend (.inr hState)), hPlain]
        simp [frameData, hEmpty]
  rw [StreamEntry.handleStreamData, hFirst]
  by_cases hEnd : fin = true ∧ chunked = true
  · have hState := hFin hEnd.1 hEnd.2
    rw [if_pos ⟨hEnd.1, hState, (hChunked hState).trans hEnd.2⟩, hTwice, if_pos (by simpa using hEnd)]
  · rw [if_neg, if_neg (by simpa using hEnd), List.append_nil]
    rintro ⟨hYes, hState, hUse⟩
    exact hEnd ⟨hYes, (hChunked hState).symm.trans hUse⟩

theorem Upload.Inv.receive {u : Upload} (h : u.Inv) {chunk : Octets} {fin : Bool}
    (hTimely : (UploadEvent.data chunk fin).Timely u) : (u.receive chunk fin).Inv := by
  rw [Upload.receive]
  split
  · exact h
  · next hLive =>
      simp only [not_or, Bool.not_eq_true] at hLive
      have hBranch := (hTimely.resolve_left (by simp [hLive.1])).resolve_left (by simp [hLive.2])
      dsimp only
      cases hPut : u.put with
      | none =>
          -- a stream without a backend keeps nothing of what arrives
          obtain ⟨hBackend, hState⟩ := h.nothing hPut
          have hSame : u.entry.handleStreamData u.backend chunk fin = u.entry := by
            rw [StreamEntry.handleStreamData]
            simp [hState]
          rw [hSame]
          refine
            { complete := fun _ hEq => by cases hEq
              assigned := fun hEq => by
                rcases hEq with hEq | hEq <;> (simp only at hEq; rw [hState] at hEq; cases hEq)
              chunked := fun _ hEq => by simp only at hEq; rw [hState] at hEq; cases hEq
              queued := fun r s hEq => ⟨rfl, (h.queued r s hEq).2⟩
              nothing := fun _ => ⟨hBackend, hState⟩
              waiting := fun _ hWaiting => ?_ }
          obtain ⟨hChunks, _, hUse⟩ := h.waiting hPut hWaiting
          obtain ⟨hData, hFin⟩ := hBranch.resolve_left fun hRefused => by
            rw [hRefused.2] at hWaiting
            cases hWaiting
          have hEmpty : chunk = [] := by
            by_contra hSome
            rcases hData hSome with hEq | ⟨hEq, _⟩ <;> rw [hState] at hEq <;> cases hEq
          have hNoFin : ¬ (fin = true ∧ u.chunked = true) := by
            rintro ⟨hYes, hChunked⟩
            have := hFin hYes hChunked
            rw [hState] at this
            cases this
          exact ⟨by simp [hChunks, hEmpty, frameData_nil], hNoFin, hUse⟩
      | some put =>
          obtain ⟨hData, hFin⟩ := hBranch.resolve_left fun hRefused => by
            rw [hRefused.1] at hPut
            cases hPut
          have hBefore : put = u.request ++ u.chunks.flatMap (frameData u.chunked) := by
            have := h.complete put hPut
            rw [Upload.expected, if_neg (by simp [hLive.2]), List.append_nil] at this
            exact this
          have hChunked := h.chunked hLive.1
          have hHandle := handleStreamData_timely (fun hAssigned => (h.assigned hAssigned).1)
            hChunked hData hFin
          rw [hHandle]
          refine
            { complete := fun put' hEq => ?_
              assigned := fun hEq => ⟨(h.assigned hEq).1, rfl⟩
              chunked := h.chunked
              queued := fun r s hEq => ?_
              nothing := fun hEq => by cases hEq
              waiting := fun hEq => by cases hEq }
          · simp only [Option.map_some, Option.some.injEq] at hEq
            rw [← hEq, hBefore, StreamEntry.put, List.drop_left]
            simp [Upload.expected]
          · have := (h.queued r s hEq).1
            rw [hPut] at this
            cases this

theorem Upload.Inv.respond {u : Upload} (h : u.Inv) {o : Outcome} (hKeeps : o.Keeps u.entry)
    (hIdle : u.put = none → o = { entry := u.entry }) : (u.respond o).Inv where
  complete := h.complete
  assigned hAssigned := by
    rcases hKeeps with ⟨_, hState⟩ | ⟨hNone, _, _, hWaiting, hTunnel⟩
    · rcases hAssigned with hEq | hEq <;> (simp only [Upload.respond] at hEq; rw [hState] at hEq; cases hEq)
    · have hBefore : u.entry.Assigned := by
        rcases hAssigned with hEq | hEq
        · exact .inl (hWaiting hEq)
        · exact hTunnel hEq
      obtain ⟨hBackend, hPut⟩ := h.assigned hBefore
      exact ⟨by simp [Upload.respond, hBackend, hNone], hPut⟩
  chunked hOpen hEq := by
    rcases hKeeps with ⟨_, hState⟩ | ⟨_, hUse, _, hWaiting, _⟩
    · simp only [Upload.respond] at hEq
      rw [hState] at hEq
      cases hEq
    · exact hUse.trans (h.chunked hOpen (hWaiting hEq))
  queued := h.queued
  nothing hNone := by
    obtain ⟨hBackend, hState⟩ := h.nothing hNone
    rw [hIdle hNone]
    exact ⟨by simp [Upload.respond, hBackend], hState⟩
  waiting hNone hWaiting := by
    rw [hIdle hNone]
    exact h.waiting hNone hWaiting

/-- One event that comes in time. -/
theorem Upload.Inv.step {u : Upload} (h : u.Inv) (event : UploadEvent) (hTimely : event.Timely u) :
    (u.step event).Inv := by
  have hBuffer (e : StreamEntry) (hState : e.state = u.entry.state)
      (hUse : e.useChunked = u.entry.useChunked) : ({ u with entry := e } : Upload).Inv :=
    { complete := h.complete
      assigned := fun hEq => h.assigned (by rw [StreamEntry.Assigned, hState] at hEq; exact hEq)
      chunked := fun hOpen hEq => hUse.trans (h.chunked hOpen (hState ▸ hEq))
      queued := h.queued
      nothing := fun hNone => ⟨(h.nothing hNone).1, hState.trans (h.nothing hNone).2⟩
      waiting := fun hNone hWaiting => by
        obtain ⟨hChunks, hFin, hSame⟩ := h.waiting hNone hWaiting
        exact ⟨hChunks, hFin, fun hOpen => hUse.trans (hSame hOpen)⟩ }
  cases event with
  | data chunk fin => exact h.receive hTimely
  | dispatch =>
      rw [Upload.step, Upload.dispatch]
      split
      · exact h
      · next request state hWaiting =>
          obtain ⟨hNone, rfl⟩ := h.queued request state hWaiting
          exact h.assign hNone (by rw [hWaiting]; rfl) state
  | write n =>
      rw [Upload.step]
      split
      · exact hBuffer _ rfl rfl
      · exact h
  | writeError =>
      rw [Upload.step]
      split
      · exact hBuffer _ rfl rfl
      · exact h
  | read buf accept =>
      rw [Upload.step]
      split
      · next hBackend =>
          refine h.respond (keeps_handleBackendData ..) fun hNone => ?_
          rw [(h.nothing hNone).1] at hBackend
          cases hBackend
      · exact h
  | flush accept =>
      refine h.respond (keeps_flushPending ..) fun hNone => ?_
      rw [StreamEntry.flushPending, (h.nothing hNone).2]
      split <;> rfl
  | close =>
      exact
        { complete := h.complete
          assigned := fun hEq => by rcases hEq with hEq | hEq <;> cases hEq
          chunked := fun hEq => by cases hEq
          queued := h.queued
          nothing := fun hNone => by
            have hReleased : (u.step .close).backend = false := by
              show (u.backend && _) = false
              rw [(h.nothing hNone).1]
              rfl
            exact ⟨hReleased, rfl⟩
          waiting := fun hNone hWaiting => by
            obtain ⟨hChunks, hFin, _⟩ := h.waiting hNone hWaiting
            exact ⟨hChunks, hFin, fun hEq => by cases hEq⟩ }

/-- In every run in which data arrives while the handler has a branch for it, what
has been put into the buffer for the backend is in every state the request as far
as it has arrived. -/
theorem upload_complete {u₀ u : Upload}
    (hStart : (∃ headers body acquired, u₀ = Upload.start headers body acquired) ∨
      ∃ headers acquired, u₀ = Upload.startConnect headers acquired)
    (hRun : Reached Upload.step (fun u event => event.Timely u) u₀ u) : u.Complete := by
  have hInv : u₀.Inv := by
    rcases hStart with ⟨headers, body, acquired, rfl⟩ | ⟨headers, acquired, rfl⟩
    · exact inv_start headers body acquired
    · exact inv_startConnect headers acquired
  exact (hRun.invariant hInv fun u event h hTimely => h.step event hTimely).complete

/-- An upload whose head announces chunks. -/
def putRequest : List Header :=
  [(octets ":method", octets "PUT"), (octets ":path", octets "/f"), (octets ":authority", octets "a")]

theorem upload_complete_put :
    (runEvents Upload.step (Upload.start putRequest none .backend)
      [.data (octets "abc") false, .write 10, .data [] true]).Complete := by
  refine upload_complete (.inl ⟨putRequest, none, .backend, rfl⟩) ?_
  refine .next (UploadEvent.data [] true) (.next (UploadEvent.write 10)
    (.next (UploadEvent.data (octets "abc") false) .start ?_) ?_) ?_
  · exact .inr (.inr (.inr ⟨fun _ => .inl rfl, fun hEq => by cases hEq⟩))
  · trivial
  · exact .inr (.inr (.inr ⟨fun hNe => absurd rfl hNe, fun _ _ => rfl⟩))

/-- Data that arrives while the request is queued is lost, and so is the end. -/
theorem upload_queued :
    ¬ (runEvents Upload.step (Upload.start putRequest none .full)
      [.data (octets "abc") false, .data [] true, .dispatch]).Complete := by
  intro hComplete
  have := hComplete (translateRequest putRequest none) (by decide +kernel)
  revert this
  decide +kernel

end PageCamel.Frontend.Http3

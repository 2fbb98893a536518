import PageCamel.Frontend.Handler
import PageCamel.Frontend.Relay
import PageCamel.Http2.EndedStreams
import PageCamel.Http2.StreamEnds

/-!
Streams that `cleanupStream` of `HTTP2Handler.pm` forgets. It ends a stream through
the object `response_stream` or `tunnel_response` has made for it, and there is none
before the head of the response is complete. An object that goes away unclosed would
end its stream too, but `cleanupStream` has closed it by then or the stream has its
whole response.
-/

namespace PageCamel.Http2
open PageCamel.Lib

/-- The stream has been ended towards the client, or END_STREAM is recorded to follow
its blocked data, or it was reset. -/
def Flow.Finished (f : Flow) (sid : Nat) : Prop :=
  (∃ frame ∈ f.frames, frame.EndsStream sid) ∨ f.con.EndsBlocked sid ∨ f.con.Reset f.taken sid

instance (f : Flow) (sid : Nat) : Decidable (f.Finished sid) :=
  inferInstanceAs (Decidable (_ ∨ _ ∨ (_ ∨ _)))

end PageCamel.Http2

namespace PageCamel.Frontend
open PageCamel.Lib PageCamel.Http2

/-! ### The streams of the pool -/

section
variable {σ ε : Type} {known known' : Nat → Prop}

/-- Backends are assigned to streams of a kind, and only such wait for one. -/
structure BackendPool.Within (p : BackendPool σ) (known : Nat → Prop) : Prop where
  assigned : ∀ b streamId, p.backendToStream.lookup b = some streamId → known streamId
  waiting : ∀ w ∈ p.waitingForBackend, known w.streamId

theorem BackendPool.Within.mono {p : BackendPool σ} (h : p.Within known)
    (hMore : ∀ streamId, known streamId → known' streamId) : p.Within known' :=
  ⟨fun b streamId hLookup => hMore _ (h.assigned b streamId hLookup),
    fun w hMem => hMore _ (h.waiting w hMem)⟩

theorem BackendPool.Within.acquireBackend {p : BackendPool σ} (h : p.Within known) (s : Sockets)
    {streamId : Nat} (hKnown : known streamId) : (p.acquireBackend s streamId).1.Within known := by
  rcases acquireBackend_cases p s streamId with hNone | ⟨b, pool, -, hSome⟩
  · rw [hNone]
    exact ⟨h.assigned, h.waiting⟩
  · rw [hSome]
    refine ⟨fun c id hLookup => ?_, h.waiting⟩
    change (p.backendToStream.insert b streamId).lookup c = some id at hLookup
    by_cases hc : c = b
    · subst hc
      rw [AList.lookup_insert] at hLookup
      cases hLookup
      exact hKnown
    · rw [AList.lookup_insert_ne hc] at hLookup
      exact h.assigned c id hLookup

theorem BackendPool.Within.releaseBackend {p : BackendPool σ} (h : p.Within known) (s : Sockets)
    (streamId : Nat) (reusable : Bool) : (p.releaseBackend s streamId reusable).Within known := by
  rw [BackendPool.releaseBackend]
  cases p.streamBackends.lookup streamId with
  | none => exact h
  | some b =>
      have hErased : (p.unassign streamId b).Within known := by
        refine ⟨fun c id hLookup => ?_, h.waiting⟩
        change (p.backendToStream.erase b).lookup c = some id at hLookup
        by_cases hc : c = b
        · subst hc
          rw [AList.lookup_erase] at hLookup
          cases hLookup
        · rw [AList.lookup_erase_ne hc] at hLookup
          exact h.assigned c id hLookup
      dsimp only
      split
      · exact ⟨hErased.assigned, hErased.waiting⟩
      · exact hErased

theorem BackendPool.Within.serve (s : Sockets) (waiting : List (WaitingStream σ)) :
    ∀ {p : BackendPool σ}, p.Within known → (∀ w ∈ waiting, known w.streamId) →
      (p.serve s waiting).1.Within known := by
  induction waiting with
  | nil => exact fun h _ => h
  | cons w waiting ih =>
      intro p h hWaiting
      have hNext := h.acquireBackend s (hWaiting w (List.mem_cons_self ..))
      rw [BackendPool.serve]
      generalize p.acquireBackend s w.streamId = r at hNext ⊢
      obtain ⟨p', _ | b⟩ := r
      · exact hNext
      · exact ih hNext fun w' hMem => hWaiting w' (List.mem_cons_of_mem _ hMem)

theorem within_startRequest {h : Handler σ ε} (hWithin : h.pool.Within known) (s : Sockets)
    {streamId : Nat} (hKnown : known streamId) (request : Octets) (queued : σ) (start : ε → ε) :
    (h.startRequest s streamId request queued start).1.pool.Within known := by
  have hNext := hWithin.acquireBackend s hKnown
  rw [Handler.startRequest]
  generalize h.pool.acquireBackend s streamId = r at hNext ⊢
  obtain ⟨pool, _ | b⟩ := r
  · dsimp only
    split
    · refine ⟨hNext.assigned, fun w hMem => ?_⟩
      rcases List.mem_append.mp hMem with hMem | hMem
      · exact hNext.waiting w hMem
      · rw [List.mem_singleton.mp hMem]
        exact hKnown
    · exact hNext
  · exact hNext

theorem within_settle {h : Handler σ ε} (hWithin : h.pool.Within known) (s : Sockets)
    (streamId : Nat) (e : ε) (release : Option Bool) :
    (h.settle s streamId e release).pool.Within known := by
  cases release with
  | none => exact hWithin
  | some reusable => exact hWithin.releaseBackend s streamId reusable

theorem within_processWaitingStreams {h : Handler σ ε} (hWithin : h.pool.Within known)
    (dispatch : ε → Octets → σ → ε) (s : Sockets) :
    (h.processWaitingStreams dispatch s).pool.Within known := by
  rw [Handler.processWaitingStreams, pool_dispatchAll]
  have hServed := hWithin.serve s h.pool.waitingForBackend hWithin.waiting
  refine ⟨hServed.assigned, fun w hMem => hWithin.waiting w ?_⟩
  rw [← serve_waiting s h.pool.waitingForBackend h.pool]
  exact List.mem_append_right _ hMem

end

namespace Http2

/-! ### Runs -/

/-- The handler and the connection of its server. -/
structure Serving where
  handler : Http2Handler
  flow : Flow

/-- A frame comes in or is fetched, the connection is kept alive, or the handler has
something to do. -/
inductive ServingEvent where
  | recv (ord : HashOrder) (buf : Octets)
  | nextFrame
  | ping (payload : Octets)
  | handler (e : Event)

def Call.perform (streamId : Nat) (con : Connection) : Call → Connection
  | .response status headers data => Server.response con streamId status headers data
  | .responseStream status headers => Server.responseStream con streamId status headers
  | .tunnelResponse headers => Server.tunnelResponse con streamId (octets "200") headers
  | .send data => con.sendData streamId data none
  | .close => con.sendData streamId [] (some true)

/-- An extended CONNECT that is not for a WebSocket. -/
def Request.isUnsupported : Request → Bool
  | .connect _ headers => headerOr headers ":protocol" "" ≠ octets "websocket"
  | .normal _ _ => false

/-- The answer of `handleRequest` and `handleConnectRequest`; the one without a body
ends the stream with its headers. -/
def Request.answer (page : Octets) (h : Http2Handler) (s : Sockets) (streamId : Nat)
    (con : Connection) (r : Request) : Connection :=
  if r.isUnsupported then con.sendHeaders streamId (Server.responseFields (octets "501") []) true
  else (r.handle page h s streamId).2.foldl (Call.perform streamId) con

/-- What an event of the handler does to the connection. -/
def Event.perform (http3Port : Option Octets) (page : Octets) (h : Http2Handler)
    (con : Connection) : Event → Connection
  | .request s streamId r => r.answer page h s streamId con
  | .backendData _ backend buf =>
      match h.pool.backendToStream.lookup backend with
      | none => con
      | some streamId =>
          ((h.entry streamId).handleBackendData http3Port buf).calls.foldl (Call.perform streamId) con
  | .tunnelData _ _ | .write _ _ | .writeError _ | .processWaiting _ => con

namespace Serving

def start (given : Settings) : Serving := { handler := { entry := fun _ => {} }, flow := .start given }

def step (http3Port : Option Octets) (page : Octets) (f : Serving) : ServingEvent → Serving
  | .recv ord buf => { f with flow := f.flow.handle (.flow (.recv ord buf)) }
  | .nextFrame => { f with flow := f.flow.handle (.flow .dequeue) }
  | .ping payload => { f with flow := f.flow.handle (.ping payload) }
  | .handler e =>
      { handler := Http2.step http3Port page f.handler e
        flow := f.flow.update (e.perform http3Port page f.handler f.flow.con) }

end Serving

/-- A request comes on a stream of the connection. -/
def ServingEvent.Valid (f : Serving) : ServingEvent → Prop
  | .handler (.request _ streamId _) => (f.flow.con.stream? streamId).isSome
  | _ => True

/-- The stream that `cleanupStream` is called for. -/
def ServingEvent.forgets (http3Port : Option Octets) (f : Serving) : ServingEvent → Option Nat
  | .handler (.backendData _ backend buf) =>
      (f.handler.pool.backendToStream.lookup backend).filter fun streamId =>
        ((f.handler.entry streamId).handleBackendData http3Port buf).release.isSome
  | _ => none

/-- The stream that is forgotten has been ended. -/
def ServingEvent.LeavesFinished (http3Port : Option Octets) (page : Octets) (f : Serving)
    (e : ServingEvent) : Prop :=
  ∀ streamId ∈ e.forgets http3Port f, (f.step http3Port page e).flow.Finished streamId

/-- When a backend closes its connection, the stream it serves has an object that can
be closed or is finished already. -/
def ServingEvent.Closable (f : Serving) : ServingEvent → Prop
  | .handler (.backendData _ backend none) =>
      ∀ streamId ∈ f.handler.pool.backendToStream.lookup backend,
        (f.handler.entry streamId).stream ∨ (f.handler.entry streamId).tunnel ∨
          f.flow.Finished streamId
  | _ => True

/-! ### Calls -/

theorem keeps_perform (streamId : Nat) (con : Connection) (call : Call) :
    con.Keeps (call.perform streamId con) := by
  have hMem : streamId ∈ (Set.univ : Set Nat) := Set.mem_univ streamId
  cases call with
  | response status headers data =>
      exact ((Connection.touches_sendHeaders hMem ..).trans
        (Connection.touches_sendData hMem ..)).toKeeps
  | responseStream status headers => exact (Connection.touches_sendHeaders hMem ..).toKeeps
  | tunnelResponse headers =>
      exact ((Connection.touches_sendHeaders hMem ..).trans
        (Connection.touches_modifyStream_shown (by exact fun _ => rfl) ..)).toKeeps
  | send data => exact (Connection.touches_sendData hMem ..).toKeeps
  | close => exact (Connection.touches_sendData hMem ..).toKeeps

theorem keeps_performAll (streamId : Nat) (calls : List Call) (con : Connection) :
    con.Keeps (calls.foldl (Call.perform streamId) con) := by
  induction calls generalizing con with
  | nil => exact .refl con
  | cons call calls ih => exact (keeps_perform streamId con call).trans (ih _)

theorem keeps_eventPerform (http3Port : Option Octets) (page : Octets) (h : Http2Handler)
    (con : Connection) (e : Event) : con.Keeps (e.perform http3Port page h con) := by
  cases e with
  | request s streamId r =>
      rw [Event.perform, Request.answer]
      split
      · exact (Connection.touches_sendHeaders (Set.mem_univ streamId) ..).toKeeps
      · exact keeps_performAll ..
  | backendData s backend buf =>
      rw [Event.perform]
      split
      · exact .refl con
      · exact keeps_performAll ..
  | tunnelData _ _ | write _ _ | writeError _ | processWaiting _ => exact .refl con

/-- The call ends the stream. -/
theorem finished_of_ends {f : Flow} {streamId : Nat} (hSome : (f.con.stream? streamId).isSome)
    {call : Call} (hEnds : call.ends = true) :
    (f.update (call.perform streamId f.con)).Finished streamId := by
  have hSend {con : Connection} (hSome : (con.stream? streamId).isSome) (data : Octets) :
      (f.update (con.sendData streamId data (some true))).Finished streamId := by
    rcases Connection.sendData_ends hSome data with ⟨frame, hMem, hFrame⟩ | hBlocked
    · exact .inl ⟨frame, List.mem_append_right _ hMem, hFrame⟩
    · exact .inr (.inl hBlocked)
  cases call with
  | response status headers data =>
      exact hSend ((Connection.touches_sendHeaders (Set.mem_univ streamId) ..).streams _ hSome) data
  | close => exact hSend hSome []
  | responseStream _ _ | tunnelResponse _ | send _ => cases hEnds

theorem finished_performAll {f : Flow} {streamId : Nat} (hSome : (f.con.stream? streamId).isSome)
    {calls : List Call} {last : Call} (hEnds : last.ends = true) :
    (f.update ((calls ++ [last]).foldl (Call.perform streamId) f.con)).Finished streamId := by
  rw [List.foldl_append]
  exact finished_of_ends (f := f.update _) ((keeps_performAll ..).streams _ hSome) hEnds

/-- With octets of the backend a stream is cleaned up only once its last call ends it. -/
theorem release_ends {http3Port : Option Octets} {e : StreamEntry} {buf : Octets}
    (hRelease : (e.handleBackendData http3Port (some buf)).release.isSome) :
    ∃ calls last, (e.handleBackendData http3Port (some buf)).calls = calls ++ [last] ∧
      last.ends = true := by
  have hHead (e : StreamEntry) (hRelease : (e.processBackendResponse http3Port).release.isSome) :
      ∃ calls last, (e.processBackendResponse http3Port).calls = calls ++ [last] ∧
        last.ends = true := by
    have hRespond (e : StreamEntry) (status : Octets) (headers : List Header) (data : Octets) :
        ∃ calls last, (e.respond status headers data).calls = calls ++ [last] ∧ last.ends = true :=
      ⟨[], .response status headers data, by simp [StreamEntry.respond, Outcome.after,
        StreamEntry.cleanupStream], rfl⟩
    revert hRelease
    rw [StreamEntry.processBackendResponse]
    dsimp only
    repeat' split
    all_goals
      first
      | exact fun _ => hRespond ..
      | exact fun hRelease => absurd hRelease Bool.false_ne_true
  revert hRelease
  rw [StreamEntry.handleBackendData]
  split
  · exact fun hRelease => absurd hRelease Bool.false_ne_true
  · dsimp only
    split
    · exact hHead _
    · exact fun hRelease => absurd hRelease Bool.false_ne_true
  · dsimp only
    split
    · exact hHead _
    · exact fun hRelease => absurd hRelease Bool.false_ne_true
  · split
    · next hStream =>
        dsimp only
        split
        · intro _
          refine ⟨[.send buf], .close, ?_, rfl⟩
          simp [Outcome.after, StreamEntry.cleanupStream, StreamEntry.addSent, hStream]
        · exact fun hRelease => absurd hRelease Bool.false_ne_true
    · exact fun hRelease => absurd hRelease Bool.false_ne_true

/-! ### The invariant -/

/-- Backends serve streams of the connection. -/
def Serving.Inv (f : Serving) : Prop :=
  f.handler.pool.Within fun streamId => (f.flow.con.stream? streamId).isSome

theorem inv_start (given : Settings) : (Serving.start given).Inv :=
  ⟨fun _ _ hLookup => (nomatch hLookup), fun _ hMem => (nomatch hMem)⟩

theorem within_step {known : Nat → Prop} {h : Http2Handler} (hWithin : h.pool.Within known)
    (http3Port : Option Octets) (page : Octets) (e : Event)
    (hKnown : ∀ s streamId r, e = .request s streamId r → known streamId) :
    (Http2.step http3Port page h e).pool.Within known := by
  cases e with
  | request s streamId r =>
      have hStream := hKnown s streamId r rfl
      cases r with
      | normal headers data =>
          rw [Http2.step, Request.handle, handleRequest]
          exact within_startRequest hWithin s hStream ..
      | connect picks headers =>
          rw [Http2.step, Request.handle, handleConnectRequest]
          split
          · exact hWithin
          · exact within_startRequest hWithin s hStream ..
  | tunnelData streamId data =>
      rw [Http2.step]
      split <;> exact hWithin
  | backendData s backend buf =>
      rw [Http2.step]
      split
      · exact hWithin
      · exact within_settle hWithin ..
  | write streamId n | writeError streamId =>
      rw [Http2.step]
      split <;> exact hWithin
  | processWaiting s => exact within_processWaitingStreams hWithin ..

theorem Serving.Inv.step {f : Serving} (h : f.Inv) (http3Port : Option Octets) (page : Octets)
    (e : ServingEvent) (hValid : e.Valid f) : (f.step http3Port page e).Inv := by
  have hKeeps {con : Connection} (hKept : f.flow.con.Keeps con) :
      f.handler.pool.Within fun streamId => (con.stream? streamId).isSome :=
    h.mono hKept.streams
  cases e with
  | recv ord buf => exact hKeeps (Connection.keeps_frameDecode ord f.flow.con buf)
  | nextFrame => exact h
  | ping payload => exact hKeeps (Connection.touches_enqueue (Set.mem_univ 0) ..).toKeeps
  | handler e =>
      refine within_step (hKeeps (keeps_eventPerform ..)) http3Port page e fun s streamId r hRequest => ?_
      subst hRequest
      exact (keeps_eventPerform ..).streams _ hValid

/-! ### Cleaning up -/

/-- The end of the connection of the backend. -/
theorem leavesFinished_closed {f : Serving} {backend streamId : Nat}
    (hSome : (f.flow.con.stream? streamId).isSome)
    (hLookup : f.handler.pool.backendToStream.lookup backend = some streamId)
    (http3Port : Option Octets) (s : Sockets) :
    (∀ forgotten ∈ (some streamId).filter fun streamId =>
        ((f.handler.entry streamId).handleBackendData http3Port none).release.isSome,
      (f.flow.update (((f.handler.entry streamId).handleBackendData http3Port none).calls.foldl
        (Call.perform streamId) f.flow.con)).Finished forgotten) ↔
      (ServingEvent.handler (.backendData s backend none)).Closable f := by
  have hCalls : ((f.handler.entry streamId).handleBackendData http3Port none).calls =
      if (f.handler.entry streamId).stream ∨ (f.handler.entry streamId).tunnel then [.close]
      else [] := by
    simp [StreamEntry.handleBackendData, StreamEntry.cleanupStream, StreamEntry.setDisconnected]
  have hForgets : (some streamId).filter (fun streamId =>
      ((f.handler.entry streamId).handleBackendData http3Port none).release.isSome) =
        some streamId := rfl
  rw [hForgets, hCalls, ServingEvent.Closable, hLookup]
  simp only [Option.mem_some_iff, forall_eq']
  by_cases hObject : (f.handler.entry streamId).stream ∨ (f.handler.entry streamId).tunnel
  · rw [if_pos hObject]
    exact iff_of_true (@finished_performAll _ _ hSome [] _ rfl) (or_assoc.mp (.inl hObject))
  · rw [if_neg hObject, ← or_assoc]
    exact ⟨.inr, fun hClosable => hClosable.resolve_left hObject⟩

theorem leavesFinished_iff {f : Serving} (h : f.Inv) (http3Port : Option Octets) (page : Octets)
    (e : ServingEvent) : e.LeavesFinished http3Port page f ↔ e.Closable f := by
  have hNothing (hForgets : e.forgets http3Port f = none) : e.LeavesFinished http3Port page f := by
    intro streamId hMem
    rw [hForgets] at hMem
    cases hMem
  cases e with
  | recv ord buf => exact iff_of_true (hNothing rfl) trivial
  | nextFrame => exact iff_of_true (hNothing rfl) trivial
  | ping payload => exact iff_of_true (hNothing rfl) trivial
  | handler e =>
      cases e with
      | request _ _ _ => exact iff_of_true (hNothing rfl) trivial
      | tunnelData _ _ => exact iff_of_true (hNothing rfl) trivial
      | write _ _ => exact iff_of_true (hNothing rfl) trivial
      | writeError _ => exact iff_of_true (hNothing rfl) trivial
      | processWaiting _ => exact iff_of_true (hNothing rfl) trivial
      | backendData s backend buf =>
          cases hLookup : f.handler.pool.backendToStream.lookup backend with
          | none =>
              refine iff_of_true (hNothing ?_) ?_
              · rw [ServingEvent.forgets, hLookup]
                rfl
              · cases buf with
                | none =>
                    intro streamId hMem
                    rw [hLookup] at hMem
                    cases hMem
                | some buf => trivial
          | some streamId =>
              have hSome := h.assigned backend streamId hLookup
              have hFlow : (f.step http3Port page (.handler (.backendData s backend buf))).flow =
                  f.flow.update (((f.handler.entry streamId).handleBackendData http3Port
                    buf).calls.foldl (Call.perform streamId) f.flow.con) := by
                simp only [Serving.step, Event.perform, hLookup]
              rw [ServingEvent.LeavesFinished, hFlow, ServingEvent.forgets, hLookup]
              cases buf with
              | none => exact leavesFinished_closed hSome hLookup http3Port s
              | some buf =>
                  refine iff_of_true (fun forgotten hForgets => ?_) trivial
                  obtain ⟨hEq, hRelease⟩ := Option.filter_eq_some_iff.mp hForgets
                  cases hEq
                  obtain ⟨calls, last, hCalls, hEnds⟩ := release_ends hRelease
                  rw [hCalls]
                  exact finished_performAll hSome hEnds

/-- `cleanupStream` ends every stream it is called for exactly if no backend closes its
connection to a stream that has neither been given a stream or tunnel object nor been
finished. -/
theorem cleanups_finished_iff (http3Port : Option Octets) (page : Octets) (given : Settings)
    (events : List ServingEvent)
    (hValid : Meets (Serving.step http3Port page) (fun f e => e.Valid f) (.start given) events) :
    Meets (Serving.step http3Port page) (fun f e => e.LeavesFinished http3Port page f) (.start given)
        events ↔
      Meets (Serving.step http3Port page) (fun f e => e.Closable f) (.start given) events :=
  Meets.congr_of_invariant (fun _ e h hValid => h.step http3Port page e hValid)
    (fun _ e h _ => leavesFinished_iff h http3Port page e) (inv_start given) hValid

/-- A request that is given to a backend. -/
def dispatchedRequest : List ServingEvent :=
  [.recv .kept requestFrame, .handler (.request .steady 1 (.normal [] none))]

/-- A response of unknown length that its backend ends. -/
def endedResponse : List ServingEvent :=
  dispatchedRequest ++ [.handler (.backendData .steady 1 (some (octets "HTTP/1.1 200 OK\r\n\r\n"))),
    .handler (.backendData .steady 1 none)]

theorem cleanups_finished_endedResponse :
    Meets (Serving.step none []) (fun f e => e.LeavesFinished none [] f) (.start ∅) endedResponse := by
  refine (cleanups_finished_iff none [] ∅ endedResponse ?_).mpr ?_
  · refine ⟨trivial, ?_, trivial, trivial, trivial⟩
    show Option.isSome _ = true
    decide +kernel
  · refine ⟨trivial, trivial, trivial, fun streamId hMem => .inl ?_, trivial⟩
    have hLookup : (runEvents (Serving.step none []) (.start ∅)
        (endedResponse.take 3)).handler.pool.backendToStream.lookup 1 = some 1 := by
      decide +kernel
    change (runEvents (Serving.step none []) (.start ∅)
      (endedResponse.take 3)).handler.pool.backendToStream.lookup 1 = some streamId at hMem
    rw [hLookup] at hMem
    cases hMem
    decide +kernel

/-- The backend closes its connection before it has answered: the request is forgotten and
its stream stays open. -/
theorem cleanups_unfinished :
    Meets (Serving.step none []) (fun f e => e.Valid f) (.start ∅)
        (dispatchedRequest ++ [.handler (.backendData .steady 1 none)]) ∧
      ¬ Meets (Serving.step none []) (fun f e => e.LeavesFinished none [] f) (.start ∅)
        (dispatchedRequest ++ [.handler (.backendData .steady 1 none)]) := by
  refine ⟨⟨trivial, ?_, trivial, trivial⟩, fun hMeets => ?_⟩
  · show Option.isSome _ = true
    decide +kernel
  · have hFinished := hMeets.2.2.1 1 (by decide +kernel)
    revert hFinished
    decide +kernel

end Http2
end PageCamel.Frontend

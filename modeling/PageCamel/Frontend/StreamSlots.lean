import PageCamel.Frontend.Handler

/-!
Streams that are over must not keep or get a backend. `cleanupStream` releases the
backend of a stream but leaves its request in the queue, and over HTTP/2 nothing is
cleaned up when the client resets a stream.
-/

namespace PageCamel.Frontend
open PageCamel.Lib PageCamel.Http2

/-! ### Where the streams are -/

section
variable {σ ε : Type}

/-- Every stream is held or waits at most once and has sent its request, and a stream
that is over does neither. -/
structure BackendPool.Placed (p : BackendPool σ) (requested gone : List Nat) : Prop where
  sound : p.Sound
  held : ∀ id, p.holds id = true → id ∈ requested ∧ id ∉ p.waitingIds
  waiting : ∀ id ∈ p.waitingIds, id ∈ requested
  once : p.waitingIds.Nodup
  gone : ∀ id ∈ gone, p.holds id = false ∧ id ∉ p.waitingIds

theorem placed_empty : ({} : BackendPool σ).Placed [] [] where
  sound := sound_empty
  held id h := by cases h
  waiting id h := by cases h
  once := List.nodup_nil
  gone id h := by cases h

theorem waitingIds_congr {p p' : BackendPool σ} (h : p'.waitingForBackend = p.waitingForBackend) :
    p'.waitingIds = p.waitingIds := by
  rw [BackendPool.waitingIds, h, BackendPool.waitingIds]

theorem BackendPool.Placed.lookup_none {p : BackendPool σ} {requested gone : List Nat}
    (h : p.Placed requested gone) {id : Nat} (hNew : id ∉ requested) :
    p.streamBackends.lookup id = none := by
  cases hLookup : p.streamBackends.lookup id with
  | none => rfl
  | some b => exact absurd (h.held id (by rw [BackendPool.holds, hLookup]; rfl)).1 hNew

theorem BackendPool.Placed.mono {p : BackendPool σ} {requested requested' gone gone' : List Nat}
    (hPlaced : p.Placed requested gone) (hRequested : requested ⊆ requested') (hGone : gone' ⊆ gone) :
    p.Placed requested' gone' :=
  ⟨hPlaced.sound, fun id hId => ⟨hRequested (hPlaced.held id hId).1, (hPlaced.held id hId).2⟩,
    fun id hId => hRequested (hPlaced.waiting id hId), hPlaced.once,
    fun id hId => hPlaced.gone id (hGone hId)⟩

theorem BackendPool.Placed.congr {p p' : BackendPool σ} {requested gone : List Nat}
    (hPlaced : p.Placed requested gone) (hSound : p'.Sound) (hHolds : ∀ id, p'.holds id = p.holds id)
    (hWaiting : p'.waitingIds = p.waitingIds) : p'.Placed requested gone := by
  refine ⟨hSound, fun id hId => ?_, fun id hId => ?_, ?_, fun id hId => ?_⟩
  · rw [hHolds] at hId
    rw [hWaiting]
    exact hPlaced.held id hId
  · rw [hWaiting] at hId
    exact hPlaced.waiting id hId
  · rw [hWaiting]
    exact hPlaced.once
  · rw [hHolds, hWaiting]
    exact hPlaced.gone id hId

/-- A stream that neither holds a backend nor waits for one gets one. -/
theorem BackendPool.Placed.take {p p' : BackendPool σ} {requested gone : List Nat} {streamId : Nat}
    (hPlaced : p.Placed requested gone) (hSound : p'.Sound)
    (hHolds : ∀ id, p'.holds id = (decide (id = streamId) || p.holds id))
    (hWaiting : p'.waitingIds = p.waitingIds) (hRequested : streamId ∈ requested)
    (hNotWaiting : streamId ∉ p.waitingIds) (hOpen : streamId ∉ gone) : p'.Placed requested gone := by
  refine ⟨hSound, fun id hId => ?_, fun id hId => ?_, ?_, fun id hId => ?_⟩
  · rw [hHolds, Bool.or_eq_true, decide_eq_true_eq] at hId
    rw [hWaiting]
    rcases hId with rfl | hId
    · exact ⟨hRequested, hNotWaiting⟩
    · exact hPlaced.held id hId
  · rw [hWaiting] at hId
    exact hPlaced.waiting id hId
  · rw [hWaiting]
    exact hPlaced.once
  · have hGone := hPlaced.gone id hId
    have hOther : id ≠ streamId := fun hEq => hOpen (hEq ▸ hId)
    rw [hHolds, hWaiting]
    exact ⟨by simp [hGone.1, hOther], hGone.2⟩

/-- Such a stream is queued. -/
theorem BackendPool.Placed.enqueue {p : BackendPool σ} {requested gone : List Nat}
    (hPlaced : p.Placed requested gone) (w : WaitingStream σ) (hRequested : w.streamId ∈ requested)
    (hUnheld : p.holds w.streamId = false) (hNotWaiting : w.streamId ∉ p.waitingIds)
    (hOpen : w.streamId ∉ gone) : (p.enqueue w).Placed requested gone := by
  have hIds : (p.enqueue w).waitingIds = p.waitingIds ++ [w.streamId] := by
    simp only [BackendPool.waitingIds, BackendPool.enqueue, List.map_append, List.map_singleton]
  refine ⟨hPlaced.sound.setWaiting _, fun id hId => ?_, fun id hId => ?_, ?_, fun id hId => ?_⟩
  · have hHeld := hPlaced.held id hId
    rw [hIds, List.mem_append, List.mem_singleton, not_or]
    refine ⟨hHeld.1, hHeld.2, ?_⟩
    rintro rfl
    exact Bool.false_ne_true (hUnheld.symm.trans hId)
  · rw [hIds, List.mem_append, List.mem_singleton] at hId
    rcases hId with hId | rfl
    · exact hPlaced.waiting id hId
    · exact hRequested
  · rw [hIds, ← List.concat_eq_append]
    exact hPlaced.once.concat hNotWaiting
  · have hGone := hPlaced.gone id hId
    rw [hIds, List.mem_append, List.mem_singleton, not_or]
    exact ⟨hGone.1, hGone.2, fun hEq => hOpen (hEq ▸ hId)⟩

theorem mem_waitingIds {p : BackendPool σ} {id : Nat} : id ∈ p.waitingIds ↔ p.waitingOf id ≠ [] := by
  simp [BackendPool.waitingIds, BackendPool.waitingOf, List.filter_eq_nil_iff]

/-- A stream asks for a backend for the first time. -/
theorem BackendPool.Placed.startRequest {h : Handler σ ε} {requested gone : List Nat}
    (hPlaced : h.pool.Placed requested gone) (s : Sockets) {streamId : Nat}
    (hNew : streamId ∉ requested) (hOpen : streamId ∉ gone) (request : Octets) (queued : σ)
    (start : ε → ε) :
    (h.startRequest s streamId request queued start).1.pool.Placed (streamId :: requested) gone := by
  have hLookup := hPlaced.lookup_none hNew
  have hSound := hPlaced.sound.acquireBackend s hLookup
  have hHolds := holds_acquireBackend h.pool s streamId
  have hWaiting := waitingIds_congr (acquireBackend_waiting h.pool s streamId)
  have hNotWaiting : streamId ∉ h.pool.waitingIds := fun hMem => hNew (hPlaced.waiting _ hMem)
  have hMore := hPlaced.mono (List.subset_cons_self streamId requested) (List.Subset.refl gone)
  have hFirst : streamId ∈ streamId :: requested := List.mem_cons_self ..
  rw [Handler.startRequest]
  revert hSound hHolds hWaiting
  rcases h.pool.acquireBackend s streamId with ⟨pool, _ | b⟩
  · simp only [Option.isSome_none, Bool.false_eq_true, and_false, decide_false, Bool.false_or]
    intro hSound hHolds hWaiting
    have hPool := hMore.congr hSound hHolds hWaiting
    split
    · refine hPool.enqueue ⟨streamId, request, queued⟩ hFirst ?_ ?_ hOpen
      · rw [hHolds, BackendPool.holds, hLookup]
        rfl
      · rw [hWaiting]
        exact hNotWaiting
    · exact hPool
  · simp only [Option.isSome_some, and_true]
    intro hSound hHolds hWaiting
    exact hMore.take hSound hHolds hWaiting hFirst hNotWaiting hOpen

/-- A stream that does not wait is over. -/
theorem BackendPool.Placed.releaseBackend {p : BackendPool σ} {requested gone : List Nat}
    (hPlaced : p.Placed requested gone) (s : Sockets) {streamId : Nat}
    (hNotWaiting : streamId ∉ p.waitingIds) (reusable : Bool) :
    (p.releaseBackend s streamId reusable).Placed requested (streamId :: gone) := by
  have hWaiting := waitingIds_congr (releaseBackend_waiting p s streamId reusable)
  have hHolds (id : Nat) := holds_releaseBackend p s streamId id reusable
  refine ⟨hPlaced.sound.releaseBackend s streamId reusable, fun id hId => ?_, fun id hId => ?_, ?_,
    fun id hId => ?_⟩
  · rw [hHolds, Bool.and_eq_true] at hId
    rw [hWaiting]
    exact hPlaced.held id hId.2
  · rw [hWaiting] at hId
    exact hPlaced.waiting id hId
  · rw [hWaiting]
    exact hPlaced.once
  · rw [hHolds, hWaiting]
    rcases List.mem_cons.mp hId with rfl | hId
    · exact ⟨by simp, hNotWaiting⟩
    · have hGone := hPlaced.gone id hId
      exact ⟨by simp [hGone.1], hGone.2⟩

/-- A stream that does neither is over. -/
theorem BackendPool.Placed.addGone {p : BackendPool σ} {requested gone : List Nat}
    (hPlaced : p.Placed requested gone) {streamId : Nat} (hUnheld : p.holds streamId = false)
    (hNotWaiting : streamId ∉ p.waitingIds) : p.Placed requested (streamId :: gone) :=
  ⟨hPlaced.sound, hPlaced.held, hPlaced.waiting, hPlaced.once, by
    intro id hId
    rcases List.mem_cons.mp hId with rfl | hId
    · exact ⟨hUnheld, hNotWaiting⟩
    · exact hPlaced.gone id hId⟩

theorem servesUnheld_of_nodup (s : Sockets) (waiting : List (WaitingStream σ)) :
    ∀ p : BackendPool σ, (waiting.map (·.streamId)).Nodup →
      (∀ w ∈ waiting, p.holds w.streamId = false) → p.servesUnheld s waiting = true := by
  induction waiting with
  | nil => exact fun _ _ _ => rfl
  | cons w waiting ih =>
      intro p hNodup hUnheld
      rw [List.map_cons, List.nodup_cons] at hNodup
      have hFirst := hUnheld w (List.mem_cons_self ..)
      have hHolds := holds_acquireBackend p s w.streamId
      rw [BackendPool.servesUnheld]
      rw [BackendPool.holds, Option.isSome_eq_false_iff] at hFirst
      rw [hFirst, Bool.true_and]
      revert hHolds
      rcases p.acquireBackend s w.streamId with ⟨p', _ | b⟩
      · exact fun _ => rfl
      · intro hHolds
        refine ih p' hNodup.2 fun v hv => ?_
        have hOther : v.streamId ≠ w.streamId := fun hEq =>
          hNodup.1 (hEq ▸ List.mem_map_of_mem hv)
        rw [hHolds, hUnheld v (List.mem_cons_of_mem _ hv)]
        simp [hOther]

theorem BackendPool.Placed.serve {p : BackendPool σ} {requested gone : List Nat}
    (hPlaced : p.Placed requested gone) (s : Sockets) :
    (p.processWaitingStreams s).1.Placed requested gone := by
  have hUnheld : ∀ w ∈ p.waitingForBackend, p.holds w.streamId = false := by
    intro w hw
    rw [Bool.eq_false_iff]
    exact fun hHolds => (hPlaced.held _ hHolds).2 (List.mem_map_of_mem hw)
  have hSound := BackendPool.Sound.serve s _ p hPlaced.sound
    (servesUnheld_of_nodup s _ p hPlaced.once hUnheld)
  have hSplit : (p.serve s p.waitingForBackend).2.1.map (·.streamId) ++
      (p.processWaitingStreams s).1.waitingIds = p.waitingIds := by
    have := congrArg (List.map (·.streamId)) (serve_waiting s p.waitingForBackend p)
    rw [List.map_append] at this
    exact this
  have hHolds (id : Nat) : (p.processWaitingStreams s).1.holds id = true ↔
      id ∈ (p.serve s p.waitingForBackend).2.1.map (·.streamId) ∨ p.holds id = true := by
    have := holds_serve s p.waitingForBackend p id
    rw [show (p.processWaitingStreams s).1.holds id = _ from this]
    simp
  have hOnce := hPlaced.once
  rw [← hSplit, List.nodup_append] at hOnce
  have hServed (id : Nat) (hMem : id ∈ (p.serve s p.waitingForBackend).2.1.map (·.streamId)) :
      id ∈ p.waitingIds := by
    rw [← hSplit]
    exact List.mem_append_left _ hMem
  have hLeft (id : Nat) (hMem : id ∈ (p.processWaitingStreams s).1.waitingIds) :
      id ∈ p.waitingIds := by
    rw [← hSplit]
    exact List.mem_append_right _ hMem
  refine ⟨hSound.setWaiting _, fun id hId => ?_, fun id hId => hPlaced.waiting id (hLeft id hId),
    hOnce.2.1, fun id hId => ?_⟩
  · rcases (hHolds id).mp hId with hMem | hHeld
    · exact ⟨hPlaced.waiting id (hServed id hMem), fun hWaits => hOnce.2.2 id hMem id hWaits rfl⟩
    · have := hPlaced.held id hHeld
      exact ⟨this.1, fun hWaits => this.2 (hLeft id hWaits)⟩
  · have hGone := hPlaced.gone id hId
    refine ⟨?_, fun hWaits => hGone.2 (hLeft id hWaits)⟩
    rw [Bool.eq_false_iff]
    intro hHeld
    rcases (hHolds id).mp hHeld with hMem | hHeld
    · exact hGone.2 (hServed id hMem)
    · rw [hGone.1] at hHeld
      cases hHeld

/-- A handler, with the streams whose requests have come in and those that have been
cleaned up or that the client has closed. -/
structure Watched (σ ε : Type) where
  handler : Handler σ ε
  requested : List Nat := []
  gone : List Nat := []

def Watched.Placed (r : Watched σ ε) : Prop := r.handler.pool.Placed r.requested r.gone

/-- No stream that is over holds a backend or waits for one. -/
def Watched.Released (r : Watched σ ε) : Prop :=
  ∀ id ∈ r.gone, r.handler.pool.holds id = false ∧ id ∉ r.handler.pool.waitingIds

theorem pool_settle (h : Handler σ ε) (s : Sockets) (streamId : Nat) (e : ε)
    (release : Option Bool) :
    (h.settle s streamId e release).pool =
      match release with
      | none => h.pool
      | some reusable => h.pool.releaseBackend s streamId reusable := by
  cases release <;> rfl

/-- The streams that are over, once a stream's entry has been settled. -/
def goneAfter (release : Option Bool) (streamId : Nat) (gone : List Nat) : List Nat :=
  if release.isSome then streamId :: gone else gone

theorem BackendPool.Placed.settle {h : Handler σ ε} {requested gone : List Nat}
    (hPlaced : h.pool.Placed requested gone) (s : Sockets) {streamId : Nat}
    (hNotWaiting : streamId ∉ h.pool.waitingIds) (e : ε) (release : Option Bool) :
    (h.settle s streamId e release).pool.Placed requested (goneAfter release streamId gone) := by
  rw [pool_settle]
  cases release with
  | none => exact hPlaced
  | some reusable => exact hPlaced.releaseBackend s hNotWaiting reusable

end

/-! ### HTTP/2 -/

namespace Http2

variable (http3Port : Option Octets) (page : Octets)

/-- What can happen on a connection. The handler is not told of a reset. -/
inductive ConnectionEvent where
  | handler (e : Event)
  | reset (streamId : Nat)

/-- The streams `cleanupStream` is called for. -/
def Event.cleans (h : Http2Handler) : Event → List Nat
  | .backendData _ backend buf =>
      match h.pool.backendToStream.lookup backend with
      | none => []
      | some streamId => goneAfter ((h.entry streamId).handleBackendData http3Port buf).release streamId []
  | _ => []

/-- The streams whose request comes in. -/
def Event.requests : Event → List Nat
  | .request _ streamId _ => [streamId]
  | _ => []

def watchedStep (r : Watched StreamState StreamEntry) :
    ConnectionEvent → Watched StreamState StreamEntry
  | .handler e =>
      { handler := step http3Port page r.handler e
        requested := e.requests ++ r.requested
        gone := e.cleans http3Port r.handler ++ r.gone }
  | .reset streamId => { r with gone := streamId :: r.gone }

/-- A stream carries one request and none after its end, and a reset comes only when
the stream holds no backend and does not wait for one. -/
def Orderly (r : Watched StreamState StreamEntry) : ConnectionEvent → Prop
  | .handler e => ∀ id ∈ e.requests, id ∉ r.requested ∧ id ∉ r.gone
  | .reset streamId =>
      r.handler.pool.holds streamId = false ∧ streamId ∉ r.handler.pool.waitingIds

theorem placed_watchedStep {r : Watched StreamState StreamEntry} (h : r.Placed)
    (e : ConnectionEvent) (hOk : Orderly r e) : (watchedStep http3Port page r e).Placed := by
  simp only [Watched.Placed] at h ⊢
  cases e with
  | reset streamId => exact h.addGone hOk.1 hOk.2
  | handler e =>
      cases e with
      | request s streamId q =>
          obtain ⟨hNew, hOpen⟩ := hOk streamId (List.mem_singleton_self _)
          cases q with
          | normal headers data =>
              simp only [watchedStep, step, Request.handle, handleRequest]
              exact h.startRequest s hNew hOpen ..
          | connect picks headers =>
              simp only [watchedStep, step, Request.handle, handleConnectRequest]
              split
              · exact h.mono (List.subset_cons_self ..) (List.Subset.refl _)
              · exact h.startRequest s hNew hOpen ..
      | tunnelData streamId data =>
          simp only [watchedStep, step]
          split <;> exact h
      | backendData s backend buf =>
          simp only [watchedStep, step, Event.cleans]
          cases hStream : r.handler.pool.backendToStream.lookup backend with
          | none => exact h
          | some streamId =>
              have hLookup := (h.sound.inverse streamId backend).mpr hStream
              have hHeld := h.held streamId (by rw [BackendPool.holds, hLookup]; rfl)
              have hSettled := h.settle s hHeld.2
                ((r.handler.entry streamId).handleBackendData http3Port buf).entry
                ((r.handler.entry streamId).handleBackendData http3Port buf).release
              refine hSettled.mono (List.Subset.refl _) ?_
              simp only [goneAfter]
              split <;> exact List.Subset.refl _
      | write streamId n =>
          simp only [watchedStep, step]
          split <;> exact h
      | writeError streamId =>
          simp only [watchedStep, step]
          split <;> exact h
      | processWaiting s =>
          simp only [watchedStep, step, Handler.processWaitingStreams, pool_dispatchAll]
          exact h.serve s

end Http2

/-! ### HTTP/3 -/

namespace Http3

variable (page : Octets)

/-- `cleanupStream` is called in the loop of `handleBackendData`. -/
def readLoopCleans (s : Sockets) (streamId : Nat) : Nat → List Read → Http3Handler → Bool
  | _, [], _ => false
  | totalBytesRead, r :: reads, h =>
      let e := h.entry streamId
      if maxReadPerCall ≤ totalBytesRead ∨ e.congestionBlocked then false
      else
        let o := e.handleBackendData r.buf r.accept
        o.release.isSome ||
          match r.buf with
          | none => false
          | some buf =>
              readLoopCleans s streamId (totalBytesRead + buf.length) reads
                (h.settle s streamId o.entry o.release)

/-- The streams `cleanupStream` is called for. -/
def Event.cleans (h : Http3Handler) : Event → List Nat
  | .streamClose _ streamId => [streamId]
  | .backendData s backend reads =>
      match h.pool.backendToStream.lookup backend with
      | none => []
      | some streamId => if readLoopCleans s streamId 0 reads h then [streamId] else []
  | .flush _ streamId accept => goneAfter ((h.entry streamId).flushPending accept).release streamId []
  | _ => []

/-- The streams whose request comes in. -/
def Event.requests : Event → List Nat
  | .request _ streamId _ => [streamId]
  | _ => []

def watchedStep (r : Watched StreamState StreamEntry) (e : Event) : Watched StreamState StreamEntry :=
  { handler := step page r.handler e
    requested := e.requests ++ r.requested
    gone := e.cleans r.handler ++ r.gone }

/-- A stream carries one request and none after its end, and is not closed while its
request waits for a backend. -/
def Orderly (r : Watched StreamState StreamEntry) : Event → Prop
  | .streamClose _ streamId => streamId ∉ r.handler.pool.waitingIds
  | e => ∀ id ∈ e.requests, id ∉ r.requested ∧ id ∉ r.gone

/-- A stream with a state has got a backend. -/
structure Slots (h : Http3Handler) (requested gone : List Nat) : Prop where
  placed : h.pool.Placed requested gone
  active : ∀ id, (h.entry id).state ≠ none → id ∈ requested ∧ id ∉ h.pool.waitingIds

theorem waitingIds_settle (h : Http3Handler) (s : Sockets) (streamId : Nat) (e : StreamEntry)
    (release : Option Bool) :
    (h.settle s streamId e release).pool.waitingIds = h.pool.waitingIds := by
  rw [pool_settle]
  cases release with
  | none => rfl
  | some reusable => exact waitingIds_congr (releaseBackend_waiting ..)

theorem Slots.settle {h : Http3Handler} {requested gone : List Nat} (hSlots : Slots h requested gone)
    (s : Sockets) {streamId : Nat} (hRequested : streamId ∈ requested)
    (hNotWaiting : streamId ∉ h.pool.waitingIds) (e : StreamEntry) (release : Option Bool) :
    Slots (h.settle s streamId e release) requested (goneAfter release streamId gone) := by
  refine ⟨hSlots.placed.settle s hNotWaiting e release, fun id hState => ?_⟩
  rw [waitingIds_settle]
  by_cases hId : streamId = id
  · subst hId
    exact ⟨hRequested, hNotWaiting⟩
  · rw [(sameFor_settle hId h s e release).entry] at hState
    exact hSlots.active id hState

theorem Slots.setEntry {h : Http3Handler} {requested gone : List Nat} (hSlots : Slots h requested gone)
    {streamId : Nat} {e : StreamEntry} (hState : e.state = (h.entry streamId).state) :
    Slots (h.setEntry streamId e) requested gone := by
  refine ⟨hSlots.placed, fun id hActive => ?_⟩
  apply hSlots.active id
  by_cases hId : streamId = id
  · subst hId
    rwa [entry_setEntry, hState] at hActive
  · rwa [(sameFor_setEntry hId h e).entry] at hActive

theorem Slots.mono {h : Http3Handler} {requested requested' gone gone' : List Nat}
    (hSlots : Slots h requested gone) (hRequested : requested ⊆ requested') (hGone : gone' ⊆ gone) :
    Slots h requested' gone' :=
  ⟨hSlots.placed.mono hRequested hGone, fun id hState =>
    ⟨hRequested (hSlots.active id hState).1, (hSlots.active id hState).2⟩⟩

theorem Slots.readLoop {requested : List Nat} (s : Sockets) {streamId : Nat}
    (hRequested : streamId ∈ requested) (reads : List Read) :
    ∀ (n : Nat) (h : Http3Handler) (gone : List Nat), Slots h requested gone →
      streamId ∉ h.pool.waitingIds →
      Slots (readLoop s streamId n reads h) requested
        (if readLoopCleans s streamId n reads h then streamId :: gone else gone) := by
  induction reads with
  | nil => exact fun _ _ _ hSlots _ => hSlots
  | cons r reads ih =>
      intro n h gone hSlots hNotWaiting
      rw [Http3.readLoop, readLoopCleans]
      split
      · exact hSlots
      · generalize (h.entry streamId).handleBackendData r.buf r.accept = o
        have hSettled := hSlots.settle s hRequested hNotWaiting o.entry o.release
        have hWaiting := waitingIds_settle h s streamId o.entry o.release
        rcases r with ⟨_ | buf, accept⟩
        · simpa [goneAfter] using hSettled
        · have hRest := ih (n + buf.length) _ _ hSettled (by rw [hWaiting]; exact hNotWaiting)
          refine hRest.mono (List.Subset.refl _) ?_
          simp only [goneAfter, Bool.or_eq_true]
          cases o.release.isSome with
          | false => simp
          | true =>
              simp only [true_or, if_true]
              split
              · exact List.subset_cons_self ..
              · exact List.Subset.refl _

theorem flushPending_of_none {e : StreamEntry} (hState : e.state = none) (accept : Bool) :
    e.flushPending accept = { entry := e } := by
  rw [StreamEntry.flushPending, hState]
  split <;> rfl

theorem handleStreamData_state (e : StreamEntry) (backend : Bool) (data : Octets) (fin : Bool) :
    (e.handleStreamData backend data fin).state = e.state := by
  have hPut (e : StreamEntry) (c : Prop) [Decidable c] (data : Octets) :
      (if c then e.put data else e).state = e.state := by
    split <;> rfl
  rw [StreamEntry.handleStreamData, hPut]
  split_ifs <;> rfl

/-- A request that comes in for the first time. -/
theorem Slots.started {h h' : Http3Handler} {requested gone : List Nat} {streamId : Nat}
    {text : Octets} {queued : StreamState} {start : StreamEntry → StreamEntry}
    (hSlots : Slots h requested gone) (hNew : streamId ∉ requested)
    (hPlaced : h'.pool.Placed (streamId :: requested) gone)
    (hStarted : h.Started streamId text queued start h')
    (hOthers : ∀ id, streamId ≠ id → h.SameFor id h') :
    Slots h' (streamId :: requested) gone := by
  refine ⟨hPlaced, fun id hState => ?_⟩
  by_cases hId : streamId = id
  · subst hId
    refine ⟨List.mem_cons_self .., ?_⟩
    have hBefore : (h.entry streamId).state = none := by
      by_contra hActive
      exact hNew (hSlots.active streamId hActive).1
    cases hStarted with
    | dispatched hHolds _ _ => exact (hPlaced.held streamId hHolds).2
    | queued _ _ hEntry => exact absurd (by rw [hEntry, hBefore]) hState
    | refused _ _ hEntry => exact absurd (by rw [hEntry, hBefore]) hState
  · have hSame := hOthers id hId
    rw [hSame.entry] at hState
    obtain ⟨hRequested, hNotWaiting⟩ := hSlots.active id hState
    refine ⟨List.mem_cons_of_mem _ hRequested, ?_⟩
    rwa [mem_waitingIds, hSame.waiting, ← mem_waitingIds]

theorem Slots.processWaitingStreams {h : Http3Handler} {requested gone : List Nat}
    (hSlots : Slots h requested gone) (s : Sockets) :
    Slots (h.processWaitingStreams StreamEntry.dispatch s) requested gone := by
  have hPlaced : (h.processWaitingStreams StreamEntry.dispatch s).pool.Placed requested gone := by
    rw [Handler.processWaitingStreams, pool_dispatchAll]
    exact hSlots.placed.serve s
  refine ⟨hPlaced, fun id hState => ?_⟩
  obtain ⟨served, hSplit, hHolds, hEntry⟩ :=
    processWaitingStreams_spec StreamEntry.dispatch h s id
  cases served with
  | nil =>
      rw [hEntry] at hState
      obtain ⟨hRequested, hNotWaiting⟩ := hSlots.active id hState
      refine ⟨hRequested, ?_⟩
      rwa [mem_waitingIds, hSplit, List.nil_append, ← mem_waitingIds] at hNotWaiting
  | cons w served => exact hPlaced.held id hHolds

def WatchedSlots (r : Watched StreamState StreamEntry) : Prop :=
  Slots r.handler r.requested r.gone

theorem slots_watchedStep {r : Watched StreamState StreamEntry} (h : WatchedSlots r) (e : Event)
    (hOk : Orderly r e) : WatchedSlots (watchedStep page r e) := by
  simp only [WatchedSlots] at h ⊢
  cases e with
  | request s streamId q =>
      obtain ⟨hNew, hOpen⟩ := hOk streamId (List.mem_singleton_self _)
      simp only [watchedStep, step, Request.handle, handleConnectRequest, handleNormalRequest]
      split
      · split
        · exact h.mono (List.subset_cons_self ..) (List.Subset.refl _)
        · exact h.started hNew (h.placed.startRequest s hNew hOpen ..) (startRequest_started ..)
            fun id hId => sameFor_startRequest hId ..
      · have hTranslated : Slots (r.handler.setEntry streamId
            ((r.handler.entry streamId).translateRequest q.headers q.body).1) r.requested r.gone := by
          refine h.setEntry ?_
          rw [StreamEntry.translateRequest]
          dsimp only
          split <;> rfl
        exact hTranslated.started hNew (hTranslated.placed.startRequest s hNew hOpen ..)
          (startRequest_started ..) fun id hId => sameFor_startRequest hId ..
  | streamData streamId data fin => exact h.setEntry (handleStreamData_state ..)
  | streamClose s streamId =>
      have hPlaced := h.placed.settle s hOk (r.handler.entry streamId).cleanupStream.entry
        (r.handler.entry streamId).cleanupStream.release
      refine ⟨hPlaced, fun id hState => ?_⟩
      simp only [watchedStep, step, cleanupStream] at hState ⊢
      rw [waitingIds_settle]
      by_cases hId : streamId = id
      · subst hId
        exact absurd (by simp [Handler.settle, Handler.setEntry, StreamEntry.cleanupStream]) hState
      · rw [(sameFor_settle hId ..).entry] at hState
        exact h.active id hState
  | backendData s backend reads =>
      simp only [watchedStep, step, Event.cleans]
      cases hStream : r.handler.pool.backendToStream.lookup backend with
      | none => exact h
      | some streamId =>
          have hLookup := (h.placed.sound.inverse streamId backend).mpr hStream
          have hHeld := h.placed.held streamId (by rw [BackendPool.holds, hLookup]; rfl)
          have hRead := Slots.readLoop s hHeld.1 reads 0 r.handler r.gone h hHeld.2
          refine hRead.mono (List.Subset.refl _) ?_
          dsimp only
          split <;> exact List.Subset.refl _
  | write streamId n =>
      simp only [watchedStep, step]
      split
      · exact h.setEntry rfl
      · exact h
  | writeError streamId =>
      simp only [watchedStep, step]
      split
      · exact h.setEntry rfl
      · exact h
  | processWaiting s => exact h.processWaitingStreams s
  | flush s streamId accept =>
      simp only [watchedStep, step, Event.cleans]
      by_cases hState : (r.handler.entry streamId).state = none
      · rw [flushPending_of_none hState]
        exact h.setEntry rfl
      · obtain ⟨hRequested, hNotWaiting⟩ := h.active streamId hState
        have hSettled := h.settle s hRequested hNotWaiting
          ((r.handler.entry streamId).flushPending accept).entry
          ((r.handler.entry streamId).flushPending accept).release
        refine hSettled.mono (List.Subset.refl _) ?_
        simp only [goneAfter]
        split <;> exact List.Subset.refl _

end Http3

/-! ### Runs -/

def Http2.fresh : Watched Http2.StreamState Http2.StreamEntry := { handler := { entry := fun _ => {} } }

def Http3.fresh : Watched Http3.StreamState Http3.StreamEntry := { handler := { entry := fun _ => {} } }

/-- A stream that has been cleaned up or that the client has closed holds no backend
and does not wait for one, in any run of either handler in which no client goes away
from a request that waits and, over HTTP/2, from one that has a backend. -/
theorem gone_released (http3Port : Option Octets) (page : Octets)
    {r : Watched Http2.StreamState Http2.StreamEntry}
    {r' : Watched Http3.StreamState Http3.StreamEntry}
    (h : Reached (Http2.watchedStep http3Port page) Http2.Orderly Http2.fresh r)
    (h' : Reached (Http3.watchedStep page) Http3.Orderly Http3.fresh r') :
    r.Released ∧ r'.Released := by
  have hFresh : Http2.fresh.Placed := placed_empty
  have hPlaced : r.Placed :=
    h.invariant hFresh fun _ e hInv hOk => Http2.placed_watchedStep http3Port page hInv e hOk
  have hFresh' : Http3.WatchedSlots Http3.fresh :=
    ⟨placed_empty, fun _ hState => absurd rfl hState⟩
  have hSlots : Http3.WatchedSlots r' :=
    h'.invariant hFresh' fun _ e hInv hOk => Http3.slots_watchedStep page hInv e hOk
  exact ⟨hPlaced.gone, hSlots.placed.gone⟩

/-- A request over each protocol, with the stream reset or closed after its end. -/
theorem gone_released_done :
    let r := runEvents (Http2.watchedStep none []) Http2.fresh
      [.handler (.request .steady 1 (.normal [] none)), .handler (.backendData .steady 1 none),
        .reset 1]
    let r' := runEvents (Http3.watchedStep []) Http3.fresh
      [.request .steady 0 { headers := [] }, .streamClose .steady 0, .processWaiting .steady]
    r.Released ∧ r'.Released := by
  have hUnheld : Http2.Orderly (runEvents (Http2.watchedStep none []) Http2.fresh
      [.handler (.request .steady 1 (.normal [] none)), .handler (.backendData .steady 1 none)])
      (.reset 1) := by
    constructor
    · decide +kernel
    · decide +kernel
  have hNotWaiting : Http3.Orderly (Http3.watchedStep [] Http3.fresh
      (.request .steady 0 { headers := [] })) (.streamClose .steady 0) := by
    show 0 ∉ _
    decide +kernel
  exact gone_released none []
    (Reached.run _ _ .start ⟨fun _ _ => ⟨List.not_mem_nil, List.not_mem_nil⟩,
      fun _ hMem => absurd hMem List.not_mem_nil, hUnheld, trivial⟩)
    (Reached.run _ _ .start ⟨fun _ _ => ⟨List.not_mem_nil, List.not_mem_nil⟩, hNotWaiting,
      fun _ hMem => absurd hMem List.not_mem_nil, trivial⟩)

/-- Requests on all backends and one that is queued, whose stream the client closes
before another stream is closed. -/
def Http3.abandoned : List Http3.Event :=
  ((List.range (maxPoolSize + 1)).map fun i => .request .steady (4 * i) { headers := [] }) ++
    [.streamClose .steady 128, .streamClose .steady 0, .processWaiting .steady]

/-- The closed stream gets the backend of the other one. -/
theorem gone_abandoned : ¬ (runEvents (Http3.watchedStep []) Http3.fresh Http3.abandoned).Released := by
  intro hReleased
  have hGone : 128 ∈ (runEvents (Http3.watchedStep []) Http3.fresh Http3.abandoned).gone := by
    decide +kernel
  have hHeld : (runEvents (Http3.watchedStep []) Http3.fresh Http3.abandoned).handler.pool.holds 128 =
      true := by
    decide +kernel
  rw [(hReleased 128 hGone).1] at hHeld
  cases hHeld

end PageCamel.Frontend

import PageCamel.Frontend.Handler

/-!
A request that waits for a backend, compared with the same request when it gets one
at once. Over HTTP/3 the queue keeps a state for an upgrade that the handler of the
response does not know.
-/

namespace PageCamel.Frontend
open PageCamel.Lib PageCamel.Http2

section
variable {σ ε : Type}

/-! ### The stream while it waits -/

/-- A stream whose request was queued, as long as nothing but `processWaitingStreams`
concerns it. -/
inductive Handler.Waits (dispatch : ε → Octets → σ → ε) (w : WaitingStream σ) (e : ε)
    (h : Handler σ ε) : Prop
  | waiting (hHolds : h.pool.holds w.streamId = false)
      (hWaiting : h.pool.waitingOf w.streamId = [w]) (hEntry : h.entry w.streamId = e)
  | served (hHolds : h.pool.holds w.streamId = true) (hWaiting : h.pool.waitingOf w.streamId = [])
      (hEntry : h.entry w.streamId = dispatch e w.request w.state)
  | refused (hHolds : h.pool.holds w.streamId = false)
      (hWaiting : h.pool.waitingOf w.streamId = [])

theorem Handler.Waits.processWaitingStreams {dispatch : ε → Octets → σ → ε} {w : WaitingStream σ}
    {e : ε} {h : Handler σ ε} (hWaits : h.Waits dispatch w e) (s : Sockets) :
    (h.processWaitingStreams dispatch s).Waits dispatch w e := by
  obtain ⟨served, hSplit, hHolds', hEntry'⟩ :=
    processWaitingStreams_spec dispatch h s w.streamId
  cases hWaits with
  | waiting hHolds hWaiting hEntry =>
      rw [hWaiting] at hSplit
      rw [hHolds] at hHolds'
      rw [hEntry] at hEntry'
      cases served with
      | nil => exact .waiting hHolds' hSplit.symm hEntry'
      | cons v served =>
          rw [List.cons_append, List.cons.injEq] at hSplit
          obtain ⟨rfl, hRest⟩ := hSplit
          obtain ⟨rfl, hLeft⟩ := List.append_eq_nil_iff.mp hRest.symm
          exact .served hHolds' hLeft hEntry'
  | served hHolds hWaiting hEntry =>
      rw [hWaiting, eq_comm, List.append_eq_nil_iff] at hSplit
      obtain ⟨rfl, hLeft⟩ := hSplit
      exact .served (hHolds'.trans hHolds) hLeft (hEntry'.trans hEntry)
  | refused hHolds hWaiting =>
      rw [hWaiting, eq_comm, List.append_eq_nil_iff] at hSplit
      obtain ⟨rfl, hLeft⟩ := hSplit
      exact .refused (hHolds'.trans hHolds) hLeft

theorem Handler.Waits.congr {dispatch : ε → Octets → σ → ε} {w : WaitingStream σ} {e : ε}
    {h h' : Handler σ ε} (hWaits : h.Waits dispatch w e) (hSame : h.SameFor w.streamId h') :
    h'.Waits dispatch w e := by
  cases hWaits with
  | waiting hHolds hWaiting hEntry =>
      exact .waiting (hSame.holds.trans hHolds) (hSame.waiting.trans hWaiting)
        (hSame.entry.trans hEntry)
  | served hHolds hWaiting hEntry =>
      exact .served (hSame.holds.trans hHolds) (hSame.waiting.trans hWaiting)
        (hSame.entry.trans hEntry)
  | refused hHolds hWaiting =>
      exact .refused (hSame.holds.trans hHolds) (hSame.waiting.trans hWaiting)

/-- A stream that waits for a backend has got one. -/
theorem Handler.Waits.entry_of_holds {dispatch : ε → Octets → σ → ε} {w : WaitingStream σ} {e : ε}
    {h : Handler σ ε} (hWaits : h.Waits dispatch w e) (hServed : h.pool.holds w.streamId = true) :
    h.entry w.streamId = dispatch e w.request w.state := by
  cases hWaits with
  | waiting hHolds _ _ => rw [hHolds] at hServed; cases hServed
  | served _ _ hEntry => exact hEntry
  | refused hHolds _ => rw [hHolds] at hServed; cases hServed

/-- A request that did not get a backend waits for one. -/
theorem Handler.Started.waits {h h' : Handler σ ε} {streamId : Nat} {request : Octets} {queued : σ}
    {start : ε → ε} (hStarted : h.Started streamId request queued start h')
    (dispatch : ε → Octets → σ → ε) (hBefore : h.pool.holds streamId = false)
    (hNone : h.pool.waitingOf streamId = []) (hAfter : h'.pool.holds streamId = false) :
    h'.Waits dispatch ⟨streamId, request, queued⟩ (h.entry streamId) := by
  cases hStarted with
  | dispatched hHolds _ _ => rw [hHolds] at hAfter; cases hAfter
  | queued hHolds hWaiting hEntry =>
      rw [hNone] at hWaiting
      exact .waiting (hHolds.trans hBefore) hWaiting hEntry
  | refused hHolds hWaiting _ => exact .refused (hHolds.trans hBefore) (hWaiting.trans hNone)

/-- A request that got a backend. -/
theorem Handler.Started.entry_of_holds {h h' : Handler σ ε} {streamId : Nat} {request : Octets}
    {queued : σ} {start : ε → ε} (hStarted : h.Started streamId request queued start h')
    (hBefore : h.pool.holds streamId = false) (hAfter : h'.pool.holds streamId = true) :
    h'.entry streamId = start (h.entry streamId) := by
  cases hStarted with
  | dispatched _ _ hEntry => exact hEntry
  | queued hHolds _ _ => rw [hHolds, hBefore] at hAfter; cases hAfter
  | refused hHolds _ _ => rw [hHolds, hBefore] at hAfter; cases hAfter

end

/-! ### HTTP/2 -/

namespace Http2

variable (http3Port : Option Octets) (page : Octets)

/-- The event is not about the stream. -/
def Event.Spares (streamId : Nat) (h : Http2Handler) (e : Event) : Prop :=
  e.stream? h ≠ some streamId

theorem step_sameFor {id : Nat} {h : Http2Handler} {e : Event} (hSpares : e.Spares id h) :
    h.SameFor id (step http3Port page h e) ∨
      ∃ s, step http3Port page h e = h.processWaitingStreams StreamEntry.dispatch s := by
  have hOther {streamId : Nat} (hStream : e.stream? h = some streamId) : streamId ≠ id :=
    fun hSame => hSpares (hSame ▸ hStream)
  cases e with
  | request s streamId r =>
      left
      cases r with
      | normal headers data =>
          simp only [step, Request.handle, handleRequest]
          exact sameFor_startRequest (hOther rfl) h s ..
      | connect picks headers =>
          simp only [step, Request.handle, handleConnectRequest]
          split
          · exact .refl id h
          · exact sameFor_startRequest (hOther rfl) h s ..
  | tunnelData streamId data =>
      exact .inl (sameFor_setEntry_ite (hOther rfl) h ..)
  | backendData s backend buf =>
      left
      simp only [step]
      split
      · exact .refl id h
      · next streamId hStream =>
          exact sameFor_settle (hOther hStream) h s ..
  | write streamId n =>
      exact .inl (sameFor_setEntry_ite (hOther rfl) h ..)
  | writeError streamId =>
      exact .inl (sameFor_setEntry_ite (hOther rfl) h ..)
  | processWaiting s => exact .inr ⟨s, rfl⟩

/-- A request given to a backend at once by one handler, and queued by another one
which gives it to a backend later. -/
structure LateRun where
  streamId : Nat
  request : Request
  atOnce : Http2Handler
  late : Http2Handler
  served : Http2Handler
  socketsAtOnce : Sockets
  socketsLate : Sockets
  sameEntry : late.entry streamId = atOnce.entry streamId
  unheldAtOnce : atOnce.pool.holds streamId = false
  dispatched : (request.handle page atOnce socketsAtOnce streamId).1.pool.holds streamId = true
  unheldLate : late.pool.holds streamId = false
  unqueued : late.pool.waitingOf streamId = []
  queued : (request.handle page late socketsLate streamId).1.pool.holds streamId = false
  later : Reached (step http3Port page) (fun h e => e.Spares streamId h)
    (request.handle page late socketsLate streamId).1 served
  servedHolds : served.pool.holds streamId = true

/-- A request is not for a backend, or it has a text and a state whichever way it goes. -/
theorem Request.handle_started (streamId : Nat) (r : Request) :
    (∀ h s, (r.handle page h s streamId).1 = h) ∨
    ∃ text state, ∀ (h : Http2Handler) s,
      h.Started streamId text state (fun e => e.dispatch text state) (r.handle page h s streamId).1 := by
  cases r with
  | normal headers data =>
      refine .inr ⟨Frontend.translateRequest headers data, .waitingResponse, fun h s => ?_⟩
      simp only [Request.handle, handleRequest]
      exact startRequest_started h s ..
  | connect picks headers =>
      by_cases hProtocol : headerOr headers ":protocol" "" ≠ octets "websocket"
      · left
        intro h s
        rw [Request.handle, handleConnectRequest, if_pos hProtocol]
      · refine .inr ⟨Frontend.translateWebsocketUpgrade picks headers, .tunnelPending,
          fun h s => ?_⟩
        simp only [Request.handle, handleConnectRequest, if_neg hProtocol]
        exact startRequest_started h s ..

theorem LateRun.waits (r : LateRun http3Port page) {text : Octets} {state : StreamState}
    (hStarted : ∀ (h : Http2Handler) s, h.Started r.streamId text state (fun e => e.dispatch text state)
      (r.request.handle page h s r.streamId).1) :
    r.served.Waits StreamEntry.dispatch ⟨r.streamId, text, state⟩ (r.late.entry r.streamId) := by
  refine r.later.invariant ?_ ?_
  · exact (hStarted r.late r.socketsLate).waits _ r.unheldLate r.unqueued r.queued
  · intro h e hWaits hSpares
    rcases step_sameFor http3Port page hSpares with hSame | ⟨s, hEq⟩
    · exact hWaits.congr hSame
    · rw [hEq]
      exact hWaits.processWaitingStreams s

theorem LateRun.entry_eq (r : LateRun http3Port page) :
    r.served.entry r.streamId =
      (r.request.handle page r.atOnce r.socketsAtOnce r.streamId).1.entry r.streamId := by
  rcases Request.handle_started page r.streamId r.request with hUnchanged | ⟨text, state, hStarted⟩
  · have hDispatched := r.dispatched
    rw [hUnchanged, r.unheldAtOnce] at hDispatched
    cases hDispatched
  · rw [(hStarted r.atOnce r.socketsAtOnce).entry_of_holds r.unheldAtOnce r.dispatched,
      (r.waits http3Port page hStarted).entry_of_holds r.servedHolds, r.sameEntry]

end Http2

/-! ### HTTP/3 -/

namespace Http3

variable (page : Octets)

/-- The event is not about the stream. -/
def Event.Spares (streamId : Nat) (h : Http3Handler) (e : Event) : Prop :=
  e.stream? h ≠ some streamId

theorem readLoop_sameFor {id streamId : Nat} (hOther : streamId ≠ id) (s : Sockets)
    (reads : List Read) :
    ∀ (n : Nat) (h : Http3Handler), h.SameFor id (readLoop s streamId n reads h) := by
  induction reads with
  | nil => exact fun _ h => .refl id h
  | cons r reads ih =>
      intro n h
      rw [readLoop]
      split
      · exact .refl id h
      · have hSettled := sameFor_settle hOther h s
          ((h.entry streamId).handleBackendData r.buf r.accept).entry
          ((h.entry streamId).handleBackendData r.buf r.accept).release
        rcases r with ⟨_ | buf, accept⟩
        · exact hSettled
        · exact hSettled.trans (ih _ _)

theorem step_sameFor {id : Nat} {h : Http3Handler} {e : Event} (hSpares : e.Spares id h) :
    h.SameFor id (step page h e) ∨
      ∃ s, step page h e = h.processWaitingStreams StreamEntry.dispatch s := by
  have hOther {streamId : Nat} (hStream : e.stream? h = some streamId) : streamId ≠ id :=
    fun hSame => hSpares (hSame ▸ hStream)
  cases e with
  | request s streamId r =>
      left
      simp only [step, Request.handle, handleConnectRequest, handleNormalRequest]
      split
      · split
        · exact .refl id h
        · exact sameFor_startRequest (hOther rfl) h s ..
      · exact (sameFor_setEntry (hOther rfl) h _).trans (sameFor_startRequest (hOther rfl) _ s ..)
  | streamData streamId data fin =>
      exact .inl (sameFor_setEntry (hOther rfl) h _)
  | streamClose s streamId =>
      exact .inl (sameFor_settle (hOther rfl) h s _ (h.entry streamId).cleanupStream.release)
  | backendData s backend reads =>
      left
      simp only [step]
      split
      · exact .refl id h
      · next streamId hStream =>
          exact readLoop_sameFor (hOther hStream) s reads 0 h
  | write streamId n =>
      exact .inl (sameFor_setEntry_ite (hOther rfl) h ..)
  | writeError streamId =>
      exact .inl (sameFor_setEntry_ite (hOther rfl) h ..)
  | processWaiting s => exact .inr ⟨s, rfl⟩
  | flush s streamId accept =>
      exact .inl (sameFor_settle (hOther rfl) h s ..)

/-- A request given to a backend at once by one handler, and queued by another one
which gives it to a backend later. -/
structure LateRun where
  streamId : Nat
  request : Request
  atOnce : Http3Handler
  late : Http3Handler
  served : Http3Handler
  socketsAtOnce : Sockets
  socketsLate : Sockets
  sameEntry : late.entry streamId = atOnce.entry streamId
  unheldAtOnce : atOnce.pool.holds streamId = false
  dispatched : (request.handle page atOnce socketsAtOnce streamId).1.pool.holds streamId = true
  unheldLate : late.pool.holds streamId = false
  unqueued : late.pool.waitingOf streamId = []
  queued : (request.handle page late socketsLate streamId).1.pool.holds streamId = false
  later : Reached (step page) (fun h e => e.Spares streamId h)
    (request.handle page late socketsLate streamId).1 served
  servedHolds : served.pool.holds streamId = true

theorem LateRun.waits (r : LateRun page) {w : WaitingStream StreamState} {e : StreamEntry}
    (hStream : w.streamId = r.streamId)
    (hQueued : (r.request.handle page r.late r.socketsLate r.streamId).1.Waits
      StreamEntry.dispatch w e) : r.served.Waits StreamEntry.dispatch w e := by
  refine r.later.invariant hQueued fun h e hWaits hSpares => ?_
  rcases step_sameFor page hSpares with hSame | ⟨s, hEq⟩
  · rw [← hStream] at hSame
    exact hWaits.congr hSame
  · rw [hEq]
    exact hWaits.processWaitingStreams s

theorem LateRun.entry_normal (r : LateRun page) (hNormal : r.request.isConnect = false) :
    r.served.entry r.streamId =
      (r.request.handle page r.atOnce r.socketsAtOnce r.streamId).1.entry r.streamId := by
  obtain ⟨e, text, hText⟩ : ∃ e text,
      (r.atOnce.entry r.streamId).translateRequest r.request.headers r.request.body = (e, text) :=
    ⟨_, _, rfl⟩
  have hStarted (h : Http3Handler) (s : Sockets)
      (hEntry : h.entry r.streamId = r.atOnce.entry r.streamId) :
      (h.setEntry r.streamId e).Started r.streamId text .waitingResponse
        (fun e => e.dispatch text .waitingResponse) (r.request.handle page h s r.streamId).1 := by
    simp only [Request.handle, hNormal, Bool.false_eq_true, if_false, handleNormalRequest, hEntry,
      hText]
    exact startRequest_started _ s ..
  have hSet (h : Http3Handler) : (h.setEntry r.streamId e).entry r.streamId = e :=
    Function.update_self ..
  have hWaits := r.waits page rfl
    ((hStarted r.late r.socketsLate r.sameEntry).waits _ r.unheldLate r.unqueued r.queued)
  rw [(hStarted r.atOnce r.socketsAtOnce rfl).entry_of_holds r.unheldAtOnce r.dispatched,
    hWaits.entry_of_holds r.servedHolds, hSet, hSet]

theorem LateRun.entry_connect (r : LateRun page) (hConnect : r.request.isConnect = true) :
    r.served.entry r.streamId ≠
      (r.request.handle page r.atOnce r.socketsAtOnce r.streamId).1.entry r.streamId := by
  have hHandle (h : Http3Handler) (s : Sockets) :
      r.request.handle page h s r.streamId =
        handleConnectRequest page h s r.streamId r.request.headers := by
    rw [Request.handle, if_pos hConnect]
  by_cases hProtocol : headerOr r.request.headers ":protocol" "" ≠ octets "websocket"
  · have hDispatched := r.dispatched
    rw [hHandle, handleConnectRequest, if_pos hProtocol, r.unheldAtOnce] at hDispatched
    cases hDispatched
  · have hStarted (h : Http3Handler) (s : Sockets) :
        h.Started r.streamId (translateWebsocketUpgrade r.request.headers) .tunnelPending
          (fun e => e.dispatchUpgrade (translateWebsocketUpgrade r.request.headers))
          (r.request.handle page h s r.streamId).1 := by
      rw [hHandle]
      simp only [handleConnectRequest, if_neg hProtocol]
      exact startRequest_started h s ..
    have hWaits := r.waits page rfl
      ((hStarted r.late r.socketsLate).waits _ r.unheldLate r.unqueued r.queued)
    rw [(hStarted r.atOnce r.socketsAtOnce).entry_of_holds r.unheldAtOnce r.dispatched,
      hWaits.entry_of_holds r.servedHolds]
    -- the states differ
    intro hEq
    have := congrArg StreamEntry.state hEq
    cases this

end Http3

/-- Over HTTP/2 a stream is left the same whether its request is given to a backend at
once or from the queue. Over HTTP/3 it is unless the request is an extended CONNECT. -/
theorem late_dispatch (http3Port : Option Octets) (page : Octets)
    (r : Http2.LateRun http3Port page) (r' : Http3.LateRun page) :
    r.served.entry r.streamId =
        (r.request.handle page r.atOnce r.socketsAtOnce r.streamId).1.entry r.streamId ∧
      (r'.served.entry r'.streamId =
          (r'.request.handle page r'.atOnce r'.socketsAtOnce r'.streamId).1.entry r'.streamId ↔
        r'.request.isConnect = false) := by
  refine ⟨r.entry_eq http3Port page, fun hEq => ?_, r'.entry_normal page⟩
  cases hConnect : r'.request.isConnect with
  | false => rfl
  | true => exact absurd hEq (r'.entry_connect page hConnect)

/-- Handlers whose backends are all in use. -/
def Http2.busy : Http2.Http2Handler :=
  runEvents (Http2.step none []) { entry := fun _ => {} }
    ((List.range maxPoolSize).map fun i => .request .steady (2 * i + 1) (.normal [] none))

def Http3.busy : Http3.Http3Handler :=
  runEvents (Http3.step []) { entry := fun _ => {} }
    ((List.range maxPoolSize).map fun i => .request .steady (4 * i) { headers := [] })

def Http3.upgradeRequest : Http3.Request :=
  { headers := [(octets ":method", octets "CONNECT"), (octets ":protocol", octets "websocket")]
    isConnect := true }

/-- An upgrade that is queued, and served when the first stream is closed. -/
def Http3.queuedUpgrade : Http3.LateRun [] where
  streamId := 128
  request := Http3.upgradeRequest
  atOnce := { entry := fun _ => {} }
  late := Http3.busy
  served := runEvents (Http3.step []) (Http3.upgradeRequest.handle [] Http3.busy .steady 128).1
    [.streamClose .steady 0, .processWaiting .steady]
  socketsAtOnce := .steady
  socketsLate := .steady
  sameEntry := by decide +kernel
  unheldAtOnce := rfl
  dispatched := by decide +kernel
  unheldLate := by decide +kernel
  unqueued := by decide +kernel
  queued := by decide +kernel
  later := Reached.run _ _ .start ⟨(fun h => by cases h), (fun h => by cases h), trivial⟩
  servedHolds := by decide +kernel

/-- Its entry says that the tunnel is pending; that of an upgrade which gets a backend
at once says that it waits for a response. -/
theorem late_dispatch_upgrade :
    ¬ ∀ r : Http3.LateRun [], r.served.entry r.streamId =
      (r.request.handle [] r.atOnce r.socketsAtOnce r.streamId).1.entry r.streamId := by
  intro hSame
  have hStates := congrArg Http3.StreamEntry.state (hSame Http3.queuedUpgrade)
  have hDiffer : (Http3.queuedUpgrade.served.entry Http3.queuedUpgrade.streamId).state ≠
      ((Http3.queuedUpgrade.request.handle [] Http3.queuedUpgrade.atOnce
        Http3.queuedUpgrade.socketsAtOnce Http3.queuedUpgrade.streamId).1.entry
          Http3.queuedUpgrade.streamId).state := by
    decide +kernel
  exact hDiffer hStates

/-- A request that is queued, and served when a backend has closed its connection. -/
def Http2.queuedRequest : Http2.LateRun none [] where
  streamId := 65
  request := .normal [] none
  atOnce := { entry := fun _ => {} }
  late := Http2.busy
  served := runEvents (Http2.step none [])
    (Http2.Request.handle [] Http2.busy .steady 65 (.normal [] none)).1
    [.backendData .steady 1 none, .processWaiting .steady]
  socketsAtOnce := .steady
  socketsLate := .steady
  sameEntry := by decide +kernel
  unheldAtOnce := rfl
  dispatched := by decide +kernel
  unheldLate := by decide +kernel
  unqueued := by decide +kernel
  queued := by decide +kernel
  later := by
    have hOther : Http2.Event.stream? (Http2.Request.handle [] Http2.busy .steady 65
        (.normal [] none)).1 (.backendData .steady 1 none) ≠ some 65 := by decide +kernel
    exact Reached.run _ _ .start ⟨hOther, (fun h => by cases h), trivial⟩
  servedHolds := by decide +kernel

theorem late_dispatch_queued :
    let r := Http2.queuedRequest
    let r' := Http3.queuedUpgrade
    r.served.entry r.streamId =
        (r.request.handle [] r.atOnce r.socketsAtOnce r.streamId).1.entry r.streamId ∧
      (r'.served.entry r'.streamId =
          (r'.request.handle [] r'.atOnce r'.socketsAtOnce r'.streamId).1.entry r'.streamId ↔
        r'.request.isConnect = false) :=
  late_dispatch none [] Http2.queuedRequest Http3.queuedUpgrade

end PageCamel.Frontend

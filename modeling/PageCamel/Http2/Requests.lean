import PageCamel.Http2.EndedStreams
import PageCamel.Http2.Transitions

/-!
What a server keeps of the requests of its client: where the client stands on a stream,
the header list it has requested with, and the stream and its dispatches that go with
both. Nothing the server sends on the stream changes that.
-/

namespace PageCamel.Http2
open PageCamel.Lib

/-! ### The side of the client -/

/-- Where the client stands on a stream: with a header block that is not complete it is
kept whether END_STREAM came with its HEADERS frame. -/
inductive ClientSide
  | idle
  | opening (endStream : Bool)
  | opened
  | trailing (endStream : Bool)
  | ended
  deriving DecidableEq, Repr

namespace ClientSide

/-- After a complete header block. -/
def complete (endStream : Bool) : ClientSide := if endStream then .ended else .opened

def hear (c : ClientSide) (type : FrameType) (flags : UInt8) : ClientSide :=
  let endStream := hasFlag flags Flag.endStream
  let endHeaders := hasFlag flags Flag.endHeaders
  match c, type with
  | .idle, .headers => if endHeaders then complete endStream else .opening endStream
  | .opened, .data | .trailing false, .data => if endStream then .ended else c
  | .opened, .headers | .trailing false, .headers =>
      if endHeaders then complete endStream else .trailing endStream
  | .opening last, .continuation | .trailing last, .continuation =>
      if endHeaders then complete last else c
  | c, _ => c

/-- The first header block of the client is not complete. -/
def starting : ClientSide → Bool
  | .idle | .opening _ => true
  | .opened | .trailing _ | .ended => false

/-- The client has opened the stream and END_STREAM has not come. -/
def isOpen : ClientSide → Bool
  | .opened | .trailing false => true
  | .idle | .opening _ | .trailing true | .ended => false

theorem starting_of_isOpen {c : ClientSide} (h : c.isOpen = true) : c.starting = false := by
  cases c with
  | idle | opening last => cases h
  | opened | trailing last | ended => rfl

/-- Without END_STREAM on a frame that can carry it the stream stays open. -/
theorem isOpen_hear {c : ClientSide} (hOpen : c.isOpen = true) {type : FrameType} {flags : UInt8}
    (hStays : hasFlag flags Flag.endStream = true → type ≠ .data ∧ type ≠ .headers) :
    (c.hear type flags).isOpen = true := by
  have hBlock (last : Bool) (hLast : last = false) :
      (if hasFlag flags Flag.endHeaders = true then complete last else .trailing last).isOpen = true := by
    rw [hLast]
    split <;> rfl
  have hEnd (hType : type = .data ∨ type = .headers) : hasFlag flags Flag.endStream = false := by
    by_contra hFlag
    obtain ⟨hData, hHeaders⟩ := hStays (by simpa using hFlag)
    exact hType.elim hData hHeaders
  cases c with
  | idle | opening last | ended => cases hOpen
  | opened =>
      cases type with
      | data => rw [hear, hEnd (.inl rfl)]; rfl
      | headers => exact hBlock _ (hEnd (.inr rfl))
      | _ => rfl
  | trailing last =>
      cases last with
      | true => cases hOpen
      | false =>
          cases type with
          | data => rw [hear, hEnd (.inl rfl)]; rfl
          | headers => exact hBlock _ (hEnd (.inr rfl))
          | continuation => exact hBlock false rfl
          | _ => rfl

/-- The calls of `on_request` and `on_connect_request` there must have been: one for an
extended CONNECT whose header block is complete, and one for an ordinary request that the
client has ended. -/
def due (c : ClientSide) (requested : Option (List Header)) : Nat × Nat :=
  match requested with
  | none => (0, 0)
  | some h => if isExtendedConnect h then (0, 1) else if c = .ended then (1, 0) else (0, 0)

end ClientSide

/-- How often `on_request` and `on_connect_request` are called. -/
def callsIn (events : List Event) : Nat × Nat :=
  (events.countP fun e => e matches .request .., events.countP fun e => e matches .connectRequest ..)

/-! ### What a stream and its dispatches look like -/

/-- The callbacks a stream of the client is made with. -/
def requestCallbacks : List (StreamState × Callback) :=
  [(.opened, .opened), (.halfClosed, .halfClosed)]

/-- A stream whose request has not been dispatched. -/
structure Stream.Awaits (s : Stream) : Prop where
  cb : s.cb = requestCallbacks
  ended : s.ended ≠ some true
  promised : s.promisedSid = none

/-- A list of the same kind. -/
def Stream.Holds (s : Stream) (extended : Bool) : Prop :=
  ∃ h, s.headers = some h ∧ isExtendedConnect h = extended

/-- A stream with trailers announced has a header list, unless it was reset. -/
def Stream.Listed (s : Stream) : Prop := s.reset.isSome ∨ (s.trailer.isSome → s.headers.isSome)

/-- A stream that was ended by one side or both. -/
structure Stream.Done (s : Stream) : Prop where
  plain : s.Plain
  state : s.state = some .halfClosed ∨ s.state = some .closed
  pending : s.pendingState = none ∨ s.pendingState = some .closed

/-- A tunnel that neither side has ended. -/
structure Stream.Open (s : Stream) : Prop where
  plain : s.Plain
  state : s.state = some .opened
  holds : s.Holds true
  pending : s.pendingState = none ∨ s.pendingState = some .halfClosed

/-- The stream, given where the client stands and what it has requested. -/
inductive Tracks : ClientSide → Option (List Header) → Option Stream → List Event → Prop
  | absent : Tracks .idle none none []
  | idle {s : Stream} (hAwaits : s.Awaits) (hState : s.state = some .idle)
      (hPending : s.pendingState = none) (hListed : s.Listed) :
      Tracks .idle none (some s) []
  | opening {s : Stream} (endStream : Bool) (hAwaits : s.Awaits) (hState : s.state = some .idle)
      (hPending : s.pendingState = some (if endStream then .halfClosed else .opened))
      (hListed : s.Listed) :
      Tracks (.opening endStream) none (some s) []
  | opened {c : ClientSide} {s : Stream} {h : List Header} (hOpen : c.isOpen = true)
      (hAwaits : s.Awaits) (hState : s.state = some .opened) (hKind : isExtendedConnect h = false)
      (hHolds : s.Holds false) (hPending : s.pendingState = none) : Tracks c (some h) (some s) []
  | trailing {s : Stream} {h : List Header} (hAwaits : s.Awaits) (hState : s.state = some .opened)
      (hKind : isExtendedConnect h = false) (hHolds : s.Holds false)
      (hPending : s.pendingState = some .halfClosed) : Tracks (.trailing true) (some h) (some s) []
  | dispatched {s : Stream} {h list : List Header} {data : Option Octets} (sid : Nat)
      (hDone : s.Done) (hKind : isExtendedConnect h = false) :
      Tracks .ended (some h) (some s) [.request sid list data]
  | tunnel {c : ClientSide} {s : Stream} {h list : List Header} {data : Option Octets} (sid : Nat)
      (hStarted : c.starting = false) (hKind : isExtendedConnect h = true)
      (hTunnel : s.Open ∨ s.Done) : Tracks c (some h) (some s) [.connectRequest sid list data]

/-! ### Transitions of such a stream -/

theorem Stream.Awaits.plain {s : Stream} (h : s.Awaits) : s.Plain where
  promised := h.promised
  cb := by
    rw [h.cb]
    simp [requestCallbacks]

theorem Stream.Awaits.congr {s s' : Stream} (h : s.Awaits) (hCb : s'.cb = s.cb)
    (hEnded : s'.ended = s.ended) (hPromised : s'.promisedSid = s.promisedSid) : s'.Awaits :=
  ⟨hCb.trans h.cb, hEnded ▸ h.ended, hPromised.trans h.promised⟩

theorem Stream.Plain.after {s : Stream} (h : s.Plain) (t : Transition) : (s.after t).Plain := by
  cases t with
  | stay => exact h
  | pend new => exact ⟨h.promised, h.cb⟩
  | enter new =>
      rw [Stream.after, Stream.enter]
      split
      · exact ⟨rfl, fun cb hMem => absurd hMem List.not_mem_nil⟩
      · exact ⟨h.promised, h.cb⟩

/-- A request is dispatched for no other state than that of its callback. -/
theorem dispatched_closed {s : Stream} (h : s.Plain) (sid : Nat) :
    s.dispatched sid (.enter .closed) = [] := by
  have hNone : s.cb.filter (fun cb => cb.1 = StreamState.closed) = [] := by
    rw [List.filter_eq_nil_iff]
    intro cb hMem
    rcases h.cb cb hMem with rfl | rfl <;> simp
  rw [Stream.dispatched, hNone]
  rfl

theorem dispatched_tunnel {s : Stream} (h : s.Plain) (hHolds : s.Holds true) (sid : Nat) :
    s.dispatched sid (.enter .halfClosed) = [] := by
  obtain ⟨list, hList, hKind⟩ := hHolds
  rw [Stream.dispatched, List.flatMap_eq_nil_iff]
  intro cb hMem
  obtain ⟨hMem, hState⟩ := List.mem_filter.mp hMem
  rcases h.cb cb hMem with rfl | rfl
  · simp at hState
  · simp [Stream.called, hList, hKind]

theorem dispatched_request {s : Stream} (h : s.Awaits) (hHolds : s.Holds false) (sid : Nat) :
    ∃ list, s.dispatched sid (.enter .halfClosed) = [.request sid list s.data] := by
  obtain ⟨list, hList, hKind⟩ := hHolds
  refine ⟨list, ?_⟩
  simp [Stream.dispatched, h.cb, requestCallbacks, Stream.called, hList, hKind]

theorem dispatched_opened {s : Stream} (h : s.Awaits) {list : List Header}
    (hList : s.headers = some list) (sid : Nat) :
    s.dispatched sid (.enter .opened) =
      if isExtendedConnect list then [.connectRequest sid list s.data] else [] := by
  simp [Stream.dispatched, h.cb, requestCallbacks, Stream.called, hList]

theorem transition_done {s : Stream} (h : s.Done) (act : Connection.Act) (type : FrameType)
    (flags : UInt8) : s.transition act type flags = .stay ∨
      s.transition act type flags = .pend .closed ∨ s.transition act type flags = .enter .closed := by
  unfold Stream.transition Transition.by
  rcases h.pending with hPending | hPending <;> rcases h.state with hState | hState
  all_goals simp only [hPending, hState]
  all_goals repeat' split
  all_goals simp

theorem Stream.Done.after {s : Stream} (h : s.Done) (act : Connection.Act) (type : FrameType)
    (flags : UInt8) (sid : Nat) : (s.after (s.transition act type flags)).Done ∧
      s.dispatched sid (s.transition act type flags) = [] := by
  rcases transition_done h act type flags with hStep | hStep | hStep <;> rw [hStep]
  · exact ⟨h, rfl⟩
  · exact ⟨⟨h.plain.after (.pend .closed), h.state, .inr rfl⟩, rfl⟩
  · exact ⟨⟨h.plain.after (.enter .closed), .inr rfl, .inl rfl⟩, dispatched_closed h.plain sid⟩

theorem transition_open {s : Stream} (h : s.Open) (act : Connection.Act) {type : FrameType}
    (hReset : type ≠ .rstStream) (flags : UInt8) : s.transition act type flags = .stay ∨
      s.transition act type flags = .pend .halfClosed ∨
      s.transition act type flags = .enter .halfClosed := by
  unfold Stream.transition Transition.by
  rcases h.pending with hPending | hPending
  all_goals simp only [hPending, h.state, hReset, if_false]
  all_goals repeat' split
  all_goals simp

theorem Stream.Open.after {s : Stream} (h : s.Open) (act : Connection.Act) {type : FrameType}
    (hReset : type ≠ .rstStream) (flags : UInt8) (sid : Nat) :
    ((s.after (s.transition act type flags)).Open ∨ (s.after (s.transition act type flags)).Done) ∧
      s.dispatched sid (s.transition act type flags) = [] := by
  rcases transition_open h act hReset flags with hStep | hStep | hStep <;> rw [hStep]
  · exact ⟨.inl h, rfl⟩
  · exact ⟨.inl ⟨h.plain.after (.pend .halfClosed), h.state, h.holds, .inr rfl⟩, rfl⟩
  · exact ⟨.inr ⟨h.plain.after (.enter .halfClosed), .inl rfl, .inl rfl⟩,
      dispatched_tunnel h.plain h.holds sid⟩

/-- A stream whose request is dispatched already takes any frame but RST_STREAM. -/
theorem Tracks.handled {c : ClientSide} {r : Option (List Header)} {s : Stream} {events : List Event}
    (h : Tracks c r (some s) events) (hEvents : events ≠ []) (act : Connection.Act) {type : FrameType}
    (hReset : type ≠ .rstStream) (flags : UInt8) (sid : Nat) :
    Tracks c r (some (s.after (s.transition act type flags)))
      (events ++ s.dispatched sid (s.transition act type flags)) := by
  cases h with
  | idle _ _ _ _ | opening _ _ _ _ _ | opened _ _ _ _ _ _ | trailing _ _ _ _ _ =>
      exact absurd rfl hEvents
  | dispatched on hDone hKind =>
      obtain ⟨hAfter, hNothing⟩ := hDone.after act type flags sid
      rw [hNothing, List.append_nil]
      exact .dispatched on hAfter hKind
  | tunnel on hStarted hKind hTunnel =>
      rcases hTunnel with hOpen | hDone
      · obtain ⟨hAfter, hNothing⟩ := hOpen.after act hReset flags sid
        rw [hNothing, List.append_nil]
        exact .tunnel on hStarted hKind hAfter
      · obtain ⟨hAfter, hNothing⟩ := hDone.after act type flags sid
        rw [hNothing, List.append_nil]
        exact .tunnel on hStarted hKind (.inr hAfter)

/-- A frame the server sends, other than RST_STREAM, keeps track of a stream that is
dispatched already, and of any other as long as it does not end the stream. -/
theorem Tracks.send {c : ClientSide} {r : Option (List Header)} {s : Stream} {events : List Event}
    (h : Tracks c r (some s) events) {type : FrameType} (flags : UInt8) (sid : Nat)
    (hReset : type ≠ .rstStream)
    (hFree : events ≠ [] ∨ ¬ hasFlag flags Flag.endStream ∧ (type ≠ .continuation ∨ c.isOpen = true)) :
    Tracks c r (some (s.after (s.transition .send type flags)))
      (events ++ s.dispatched sid (s.transition .send type flags)) := by
  have hStay (hStay : s.transition .send type flags = .stay) :
      Tracks c r (some (s.after (s.transition .send type flags)))
        (events ++ s.dispatched sid (s.transition .send type flags)) := by
    rw [hStay, Stream.dispatched, List.append_nil]
    exact h
  cases h with
  | idle hAwaits hState hPending hListed =>
      obtain ⟨hNoEnd, hType | hOpened⟩ := hFree.resolve_left (fun hNe => hNe rfl)
      · exact hStay (by simp [Stream.transition, hPending, hState, hReset])
      · cases hOpened
  | opening endStream hAwaits hState hPending hListed =>
      obtain ⟨hNoEnd, hType | hOpened⟩ := hFree.resolve_left (fun hNe => hNe rfl)
      · exact hStay (by simp [Stream.transition, hPending, hType])
      · cases hOpened
  | opened hOpen hAwaits hState hKind hHolds hPending =>
      obtain ⟨hNoEnd, -⟩ := hFree.resolve_left (fun hNe => hNe rfl)
      exact hStay (by simp [Stream.transition, hPending, hState, hNoEnd, hReset])
  | trailing hAwaits hState hKind hHolds hPending =>
      obtain ⟨hNoEnd, hType | hOpened⟩ := hFree.resolve_left (fun hNe => hNe rfl)
      · exact hStay (by simp [Stream.transition, hPending, hType])
      · cases hOpened
  | dispatched on hDone hKind =>
      exact (Tracks.dispatched on hDone hKind).handled (List.cons_ne_nil _ _) .send hReset flags sid
  | tunnel on hStarted hKind hTunnel =>
      exact (Tracks.tunnel on hStarted hKind hTunnel).handled (List.cons_ne_nil _ _) .send hReset
        flags sid

theorem starting_hear {c : ClientSide} (h : c.starting = false) (type : FrameType)
    (flags : UInt8) : (c.hear type flags).starting = false := by
  have hComplete (endStream : Bool) : (ClientSide.complete endStream).starting = false := by
    cases endStream <;> rfl
  unfold ClientSide.hear
  dsimp only
  repeat' split
  all_goals first | exact hComplete _ | rfl | exact h

/-- The first header list of a stream. -/
theorem tracks_request {s : Stream} (hAwaits : s.Awaits) {list : List Header}
    (hList : s.headers = some list) (endStream : Bool)
    (hConnect : endStream = true → isExtendedConnect list = false) (sid : Nat) :
    let new := if endStream then StreamState.halfClosed else .opened
    Tracks (.complete endStream) (some list) (some (s.after (.enter new)))
      (s.dispatched sid (.enter new)) := by
  cases endStream with
  | true =>
      have hKind := hConnect rfl
      obtain ⟨list', hRequest⟩ := dispatched_request hAwaits ⟨list, hList, hKind⟩ sid
      show Tracks .ended (some list) _ (s.dispatched sid (.enter .halfClosed))
      rw [hRequest]
      exact .dispatched sid ⟨hAwaits.plain.after (.enter .halfClosed), .inl rfl, .inl rfl⟩ hKind
  | false =>
      have hOpened := dispatched_opened hAwaits hList sid
      show Tracks .opened (some list) _ (s.dispatched sid (.enter .opened))
      cases hKind : isExtendedConnect list with
      | true =>
          rw [hOpened, hKind, if_pos rfl]
          exact .tunnel sid rfl hKind (.inl ⟨hAwaits.plain.after (.enter .opened), rfl,
            ⟨list, hList, hKind⟩, .inl rfl⟩)
      | false =>
          rw [hOpened, hKind, if_neg Bool.false_ne_true]
          exact .opened rfl (hAwaits.congr rfl rfl rfl) rfl hKind ⟨list, hList, hKind⟩ rfl

/-- A frame of the client other than RST_STREAM, once its payload has been decoded. -/
theorem Tracks.recv {c : ClientSide} {r : Option (List Header)} {s : Stream} {events : List Event}
    (h : Tracks c r (some s) events) {type : FrameType} (flags : UInt8) (sid : Nat)
    (hReset : type ≠ .rstStream)
    (hHeaders : c.starting = true → (c.hear type flags).starting = false → ∃ list,
      s.headers = some list ∧ (c.hear type flags = .ended → isExtendedConnect list = false)) :
    let t := s.transition .recv type flags
    Tracks (c.hear type flags)
      (if c.starting ∧ ¬ (c.hear type flags).starting then (s.after t).headers else r)
      (some (s.after t)) (events ++ s.dispatched sid t) := by
  have hStay (hHear : c.hear type flags = c) (hStay : s.transition .recv type flags = .stay) :
      Tracks (c.hear type flags) (if c.starting ∧ ¬ (c.hear type flags).starting then
        (s.after (s.transition .recv type flags)).headers else r)
        (some (s.after (s.transition .recv type flags)))
        (events ++ s.dispatched sid (s.transition .recv type flags)) := by
    rw [hHear, hStay, if_neg fun hBoth => hBoth.2 hBoth.1]
    show Tracks c r (some s) (events ++ [])
    rw [List.append_nil]
    exact h
  have hRequest (hAwaits : s.Awaits) (hStarting : c.starting = true) (endStream : Bool)
      (hHear : c.hear type flags = .complete endStream)
      (hStep : s.transition .recv type flags =
        .enter (if endStream then .halfClosed else .opened)) :
      Tracks (c.hear type flags) (if c.starting ∧ ¬ (c.hear type flags).starting then
        (s.after (s.transition .recv type flags)).headers else r)
        (some (s.after (s.transition .recv type flags)))
        ([] ++ s.dispatched sid (s.transition .recv type flags)) := by
    have hStarted : (c.hear type flags).starting = false := by
      rw [hHear]
      cases endStream <;> rfl
    obtain ⟨list, hList, hConnect⟩ := hHeaders hStarting hStarted
    have hAfter : (s.after (.enter (if endStream then .halfClosed else .opened))).headers =
        some list := by
      cases endStream <;> exact hList
    rw [if_pos ⟨hStarting, fun hStart => Bool.false_ne_true (hStarted.symm.trans hStart)⟩, hStep,
      hAfter, hHear]
    refine tracks_request hAwaits hList endStream (fun hEnd => hConnect ?_) sid
    rw [hHear, hEnd]
    rfl
  -- the request of a stream that is open goes out with END_STREAM
  have hEnding {list : List Header} (hAwaits : s.Awaits) (hKind : isExtendedConnect list = false)
      (hHolds : s.Holds false) (hStarting : c.starting = false)
      (hHear : c.hear type flags = .ended)
      (hStep : s.transition .recv type flags = .enter .halfClosed) :
      Tracks (c.hear type flags) (if c.starting ∧ ¬ (c.hear type flags).starting then
        (s.after (s.transition .recv type flags)).headers else some list)
        (some (s.after (s.transition .recv type flags)))
        ([] ++ s.dispatched sid (s.transition .recv type flags)) := by
    obtain ⟨list', hRequest⟩ := dispatched_request hAwaits hHolds sid
    rw [if_neg fun hBoth => Bool.false_ne_true (hStarting ▸ hBoth.1), hHear, hStep, hRequest]
    exact .dispatched sid ⟨hAwaits.plain.after (.enter .halfClosed), .inl rfl, .inl rfl⟩ hKind
  dsimp only
  cases h with
  | idle hAwaits hState hPending hListed =>
      by_cases hType : type = .headers
      · subst hType
        cases hEnd : hasFlag flags Flag.endHeaders with
        | true =>
            refine hRequest hAwaits rfl (hasFlag flags Flag.endStream) ?_ ?_
            · simp [ClientSide.hear, hEnd]
            · simp [Stream.transition, hPending, hState, hEnd, Transition.by]
        | false =>
            have hHear : ClientSide.hear .idle .headers flags =
                .opening (hasFlag flags Flag.endStream) := by
              simp [ClientSide.hear, hEnd]
            have hStep : s.transition .recv .headers flags =
                .pend (if hasFlag flags Flag.endStream then .halfClosed else .opened) := by
              simp [Stream.transition, hPending, hState, hEnd, Transition.by]
            rw [hHear, hStep, if_neg fun hBoth => hBoth.2 rfl]
            exact .opening _ (hAwaits.congr rfl rfl rfl) hState rfl hListed
      · refine hStay ?_ ?_
        · cases type <;> first | rfl | exact absurd rfl hType
        · simp [Stream.transition, hPending, hState, hType]
  | opening endStream hAwaits hState hPending hListed =>
      by_cases hType : type = .continuation
      · subst hType
        cases hEnd : hasFlag flags Flag.endHeaders with
        | true =>
            refine hRequest hAwaits rfl endStream ?_ ?_
            · simp [ClientSide.hear, hEnd]
            · simp [Stream.transition, hPending, hEnd]
        | false =>
            refine hStay ?_ ?_
            · simp [ClientSide.hear, hEnd]
            · simp [Stream.transition, hPending, hEnd]
      · refine hStay ?_ ?_
        · cases type <;> first | rfl | exact absurd rfl hType
        · simp [Stream.transition, hPending, hType]
  | @opened _ _ list hOpen hAwaits hState hKind hHolds hPending =>
      have hStarting := ClientSide.starting_of_isOpen hOpen
      have hSides : c = .opened ∨ c = .trailing false := by
        cases c with
        | opened => exact .inl rfl
        | trailing last =>
            cases last with
            | false => exact .inr rfl
            | true => cases hOpen
        | idle | opening last | ended => cases hOpen
      -- the stream stays open on both sides
      have hKeep (hHear : (c.hear type flags).isOpen = true)
          (hStay : s.transition .recv type flags = .stay) :
          Tracks (c.hear type flags) (if c.starting ∧ ¬ (c.hear type flags).starting then
            (s.after (s.transition .recv type flags)).headers else some list)
            (some (s.after (s.transition .recv type flags)))
            ([] ++ s.dispatched sid (s.transition .recv type flags)) := by
        rw [hStay, if_neg fun hBoth => Bool.false_ne_true (hStarting ▸ hBoth.1)]
        exact .opened hHear hAwaits hState hKind hHolds hPending
      by_cases hData : type = .data
      · subst hData
        cases hEnd : hasFlag flags Flag.endStream with
        | true =>
            refine hEnding hAwaits hKind hHolds hStarting ?_ ?_
            · rcases hSides with rfl | rfl <;> simp [ClientSide.hear, hEnd]
            · simp [Stream.transition, hPending, hState, hEnd, Transition.by]
        | false =>
            refine hKeep (ClientSide.isOpen_hear hOpen (by simp [hEnd])) ?_
            · simp [Stream.transition, hPending, hState, hEnd]
      · by_cases hType : type = .headers
        · subst hType
          cases hEnd : hasFlag flags Flag.endStream with
          | true =>
              cases hComplete : hasFlag flags Flag.endHeaders with
              | true =>
                  refine hEnding hAwaits hKind hHolds hStarting ?_ ?_
                  · rcases hSides with rfl | rfl <;>
                      simp [ClientSide.hear, hEnd, hComplete, ClientSide.complete]
                  · simp [Stream.transition, hPending, hState, hEnd, hComplete, Transition.by]
              | false =>
                  have hHear : c.hear .headers flags = .trailing true := by
                    rcases hSides with rfl | rfl <;> simp [ClientSide.hear, hEnd, hComplete]
                  have hStep : s.transition .recv .headers flags = .pend .halfClosed := by
                    simp [Stream.transition, hPending, hState, hEnd, hComplete, Transition.by]
                  rw [hHear, hStep, if_neg fun hBoth => Bool.false_ne_true (hStarting ▸ hBoth.1)]
                  exact .trailing (hAwaits.congr rfl rfl rfl) hState hKind hHolds rfl
          | false =>
              refine hKeep (ClientSide.isOpen_hear hOpen (by simp [hEnd])) ?_
              · simp [Stream.transition, hPending, hState, hEnd]
        · refine hKeep (ClientSide.isOpen_hear hOpen fun _ => ⟨hData, hType⟩) ?_
          · simp [Stream.transition, hPending, hState, hType, hData, hReset]
  | trailing hAwaits hState hKind hHolds hPending =>
      by_cases hType : type = .continuation
      · subst hType
        cases hEnd : hasFlag flags Flag.endHeaders with
        | true =>
            refine hEnding hAwaits hKind hHolds rfl ?_ ?_
            · simp [ClientSide.hear, hEnd, ClientSide.complete]
            · simp [Stream.transition, hPending, hEnd]
        | false =>
            refine hStay ?_ ?_
            · simp [ClientSide.hear, hEnd]
            · simp [Stream.transition, hPending, hEnd]
      · refine hStay ?_ ?_
        · cases type <;> first | rfl | exact absurd rfl hType
        · simp [Stream.transition, hPending, hType]
  | dispatched on hDone hKind =>
      obtain ⟨hAfter, hNothing⟩ := hDone.after .recv type flags sid
      rw [hNothing, List.append_nil]
      exact .dispatched on hAfter hKind
  | tunnel on hStarted hKind hTunnel =>
      have hStarting := starting_hear hStarted type flags
      rw [if_neg fun hBoth => Bool.false_ne_true (hStarted ▸ hBoth.1)]
      rcases hTunnel with hOpen | hDone
      · obtain ⟨hAfter, hNothing⟩ := hOpen.after .recv hReset flags sid
        rw [hNothing, List.append_nil]
        exact .tunnel on hStarting hKind hAfter
      · obtain ⟨hAfter, hNothing⟩ := hDone.after .recv type flags sid
        rw [hNothing, List.append_nil]
        exact .tunnel on hStarting hKind (.inr hAfter)

/-- RST_STREAM, sent or received: the stream loses its callbacks, or its state does not matter
any more, unless the client resets a stream that it has not opened. -/
theorem Tracks.reset {c : ClientSide} {r : Option (List Header)} {s : Stream} {events : List Event}
    (h : Tracks c r (some s) events) (act : Connection.Act) (flags : UInt8) (sid : Nat) :
    let t := s.transition act .rstStream flags
    events ++ s.dispatched sid t = [] ∧ (s.after t).cb = [] ∨
      Tracks c r (some (s.after t)) (events ++ s.dispatched sid t) ∧
        (events ≠ [] ∨ (s.after t).pendingState.isSome ∨ act = .recv) := by
  dsimp only
  cases h with
  | idle hAwaits hState hPending hListed =>
      cases act with
      | send =>
          have hStep : s.transition .send .rstStream flags = .enter .closed := by
            simp [Stream.transition, hPending, hState]
          rw [hStep, dispatched_closed hAwaits.plain]
          exact .inl ⟨rfl, rfl⟩
      | recv =>
          have hStep : s.transition .recv .rstStream flags = .stay := by
            simp [Stream.transition, hPending, hState]
          rw [hStep]
          exact .inr ⟨.idle hAwaits hState hPending hListed, .inr (.inr rfl)⟩
  | opening endStream hAwaits hState hPending hListed =>
      have hStep : s.transition act .rstStream flags = .stay := by
        simp [Stream.transition, hPending]
      rw [hStep]
      refine .inr ⟨.opening endStream hAwaits hState hPending hListed, .inr (.inl ?_)⟩
      rw [Stream.after, hPending]
      rfl
  | opened hOpen hAwaits hState hKind hHolds hPending =>
      have hStep : s.transition act .rstStream flags = .enter .closed := by
        simp [Stream.transition, hPending, hState]
      rw [hStep, dispatched_closed hAwaits.plain]
      exact .inl ⟨rfl, rfl⟩
  | trailing hAwaits hState hKind hHolds hPending =>
      have hStep : s.transition act .rstStream flags = .stay := by
        simp [Stream.transition, hPending]
      rw [hStep]
      refine .inr ⟨.trailing hAwaits hState hKind hHolds hPending, .inr (.inl ?_)⟩
      rw [Stream.after, hPending]
      rfl
  | dispatched on hDone hKind =>
      obtain ⟨hAfter, hNothing⟩ := hDone.after act .rstStream flags sid
      rw [hNothing, List.append_nil]
      exact .inr ⟨.dispatched on hAfter hKind, .inl (List.cons_ne_nil _ _)⟩
  | tunnel on hStarted hKind hTunnel =>
      have hAfter : (s.after (s.transition act .rstStream flags)).Open ∨
          (s.after (s.transition act .rstStream flags)).Done := by
        rcases hTunnel with hOpen | hDone
        · have hStep : s.transition act .rstStream flags = .stay ∨
              s.transition act .rstStream flags = .enter .closed := by
            rcases hOpen.pending with hPending | hPending <;>
              simp [Stream.transition, hPending, hOpen.state]
          rcases hStep with hStep | hStep <;> rw [hStep]
          · exact .inl hOpen
          · exact .inr ⟨hOpen.plain.after (.enter .closed), .inr rfl, .inl rfl⟩
        · exact .inr (hDone.after act .rstStream flags sid).1
      have hNothing : s.dispatched sid (s.transition act .rstStream flags) = [] := by
        rcases hTunnel with hOpen | hDone
        · rcases hOpen.pending with hPending | hPending
          · have hStep : s.transition act .rstStream flags = .enter .closed := by
              simp [Stream.transition, hPending, hOpen.state]
            rw [hStep, dispatched_closed hOpen.plain]
          · have hStep : s.transition act .rstStream flags = .stay := by
              simp [Stream.transition, hPending]
            rw [hStep, Stream.dispatched]
        · exact (hDone.after act .rstStream flags sid).2
      rw [hNothing, List.append_nil]
      exact .inr ⟨.tunnel on hStarted hKind hAfter, .inl (List.cons_ne_nil _ _)⟩

/-- The first header block ends with END_HEADERS, in its HEADERS frame or the last
CONTINUATION frame. -/
theorem starting_ends {c : ClientSide} {type : FrameType} {flags : UInt8} (hStarting : c.starting = true)
    (hStarted : (c.hear type flags).starting = false) :
    (type = .headers ∨ type = .continuation) ∧ hasFlag flags Flag.endHeaders := by
  cases c with
  | idle | opening last =>
      cases hEnd : hasFlag flags Flag.endHeaders <;> cases type <;>
        simp_all [ClientSide.hear, ClientSide.starting]
  | opened | trailing last | ended => cases hStarting

theorem hear_same {type : FrameType} (c : ClientSide) (flags : UInt8)
    (hType : type ≠ .headers ∧ type ≠ .continuation ∧ type ≠ .data) : c.hear type flags = c := by
  obtain ⟨hHeaders, hContinuation, hData⟩ := hType
  unfold ClientSide.hear
  split <;> first | rfl | contradiction

/-- Before the first header block is complete the stream has a list if it announces trailers. -/
theorem Tracks.listed {c : ClientSide} {r : Option (List Header)} {s : Stream}
    {events : List Event} (h : Tracks c r (some s) events) (hStarting : c.starting = true) : s.Listed := by
  cases h with
  | idle hAwaits hState hPending hListed | opening endStream hAwaits hState hPending hListed =>
      exact hListed
  | opened hOpen _ _ _ _ _ =>
      rw [ClientSide.starting_of_isOpen hOpen] at hStarting
      cases hStarting
  | trailing _ _ _ _ _ | dispatched _ _ _ => cases hStarting
  | tunnel _ hStarted _ _ =>
      rw [hStarted] at hStarting
      cases hStarting

/-! ### The connection keeps track of a stream -/

/-- The request of the stream has been dispatched. -/
def Given (c : ClientSide) (r : Option (List Header)) : Prop :=
  ∃ h ∈ r, isExtendedConnect h ∨ c = .ended

theorem Tracks.given {c : ClientSide} {r : Option (List Header)} {s : Option Stream}
    {events : List Event} (h : Tracks c r s events) : Given c r ↔ events ≠ [] := by
  cases h with
  | absent | idle _ _ _ _ | opening _ _ _ _ _ => simp [Given]
  | opened hOpen _ _ hKind _ _ =>
      have hNot : c ≠ .ended := by
        rintro rfl
        cases hOpen
      simp [Given, hKind, hNot]
  | trailing _ _ hKind _ _ => simp [Given, hKind]
  | dispatched _ _ _ => simp [Given]
  | tunnel _ _ hKind _ => simp [Given, hKind]

theorem Tracks.due {c : ClientSide} {r : Option (List Header)} {s : Option Stream}
    {events : List Event} (h : Tracks c r s events) : callsIn events = c.due r := by
  cases h with
  | absent | idle _ _ _ _ | opening _ _ _ _ _ => rfl
  | opened hOpen _ _ hKind _ _ =>
      have hNot : c ≠ .ended := by
        rintro rfl
        cases hOpen
      simp [ClientSide.due, callsIn, hKind, hNot]
  | trailing _ _ hKind _ _ => simp [ClientSide.due, callsIn, hKind]
  | dispatched _ _ hKind => simp [ClientSide.due, callsIn, hKind]
  | tunnel _ _ hKind _ => simp [ClientSide.due, callsIn, hKind]

theorem Tracks.state {c : ClientSide} {r : Option (List Header)} {s : Stream} {events : List Event}
    (h : Tracks c r (some s) events) : s.state.isSome ∧ s.Plain := by
  cases h with
  | idle hAwaits hState _ _ | opening _ hAwaits hState _ _ | opened _ hAwaits hState _ _ _
  | trailing hAwaits hState _ _ _ => exact ⟨by rw [hState]; rfl, hAwaits.plain⟩
  | dispatched _ hDone _ => exact ⟨by rcases hDone.state with h | h <;> rw [h] <;> rfl, hDone.plain⟩
  | tunnel _ _ _ hTunnel =>
      rcases hTunnel with hOpen | hDone
      · exact ⟨by rw [hOpen.state]; rfl, hOpen.plain⟩
      · exact ⟨by rcases hDone.state with h | h <;> rw [h] <;> rfl, hDone.plain⟩

theorem Tracks.ended {c : ClientSide} {r : Option (List Header)} {s : Stream} {events : List Event}
    (h : Tracks c r (some s) events) (hEnded : s.ended = some true) : Given c r := by
  refine h.given.mpr ?_
  cases h with
  | idle hAwaits _ _ _ | opening _ hAwaits _ _ _ | opened _ hAwaits _ _ _ _
  | trailing hAwaits _ _ _ _ =>
      exact absurd hEnded hAwaits.ended
  | dispatched _ _ _ | tunnel _ _ _ _ => exact List.cons_ne_nil _ _

/-- A change of the stream that spares its state; the header list stays of its kind while
the stream is open. -/
theorem Tracks.change {c : ClientSide} {r : Option (List Header)} {s s' : Stream}
    {events : List Event} (h : Tracks c r (some s) events) (hState : s'.state = s.state)
    (hPending : s'.pendingState = s.pendingState) (hCb : s'.cb = s.cb)
    (hPromised : s'.promisedSid = s.promisedSid)
    (hEnded : s'.ended = some true → s.ended = some true ∨ Given c r)
    (hListed : s.Listed → s'.Listed)
    (hHolds : s.state = some .opened → ∀ list ∈ r, s.Holds (isExtendedConnect list) →
      s'.Holds (isExtendedConnect list)) : Tracks c r (some s') events := by
  have hPlain (hBefore : s.Plain) : s'.Plain :=
    ⟨hPromised.trans hBefore.promised, hCb ▸ hBefore.cb⟩
  have hAwaits (hNot : ¬ Given c r) (hBefore : s.Awaits) : s'.Awaits :=
    ⟨hCb.trans hBefore.cb, fun hTrue => (hEnded hTrue).elim hBefore.ended hNot,
      hPromised.trans hBefore.promised⟩
  have hDone (hBefore : s.Done) : s'.Done :=
    ⟨hPlain hBefore.plain, hState ▸ hBefore.state, hPending ▸ hBefore.pending⟩
  have hNot : events = [] → ¬ Given c r := fun hNil hGiven => h.given.mp hGiven hNil
  cases h with
  | idle hBefore hIdle hNone hList =>
      exact .idle (hAwaits (hNot rfl) hBefore) (hState.trans hIdle) (hPending.trans hNone)
        (hListed hList)
  | opening endStream hBefore hIdle hSome hList =>
      exact .opening endStream (hAwaits (hNot rfl) hBefore) (hState.trans hIdle)
        (hPending.trans hSome) (hListed hList)
  | opened hOpen hBefore hOpened hKind hBoth hNone =>
      refine .opened hOpen (hAwaits (hNot rfl) hBefore) (hState.trans hOpened) hKind ?_ (hPending.trans hNone)
      rw [← hKind] at hBoth ⊢
      exact hHolds hOpened _ rfl hBoth
  | trailing hBefore hOpened hKind hBoth hSome =>
      refine .trailing (hAwaits (hNot rfl) hBefore) (hState.trans hOpened) hKind ?_
        (hPending.trans hSome)
      rw [← hKind] at hBoth ⊢
      exact hHolds hOpened _ rfl hBoth
  | dispatched on hBefore hKind => exact .dispatched on (hDone hBefore) hKind
  | tunnel on hStarted hKind hTunnel =>
      refine .tunnel on hStarted hKind (hTunnel.imp (fun hOpen => ?_) hDone)
      refine ⟨hPlain hOpen.plain, hState.trans hOpen.state, ?_, hPending ▸ hOpen.pending⟩
      rw [← hKind]
      exact hHolds hOpen.state _ rfl (hKind ▸ hOpen.holds)

theorem Tracks.shown {c : ClientSide} {r : Option (List Header)} {s s' : Option Stream}
    {events : List Event} (h : Tracks c r s events) (hShown : s'.map Stream.shown = s.map Stream.shown) :
    Tracks c r s' events := by
  cases s with
  | none =>
      cases s' with
      | none => exact h
      | some s' => cases hShown
  | some s =>
      cases s' with
      | none => cases hShown
      | some s' =>
          have hSame : s'.shown = s.shown := Option.some.inj hShown
          have hEnded : s'.ended = s.ended := (congrArg Stream.ended hSame :)
          have hTrailer : s'.trailer = s.trailer := (congrArg Stream.trailer hSame :)
          have hReset : s'.reset = s.reset := (congrArg Stream.reset hSame :)
          have hHeaders : s'.headers = s.headers := (congrArg Stream.headers hSame :)
          refine h.change (congrArg Stream.state hSame :) (congrArg Stream.pendingState hSame :)
            (congrArg Stream.cb hSame :) (congrArg Stream.promisedSid hSame :) ?_ ?_ ?_
          · exact fun hTrue => .inl (hEnded ▸ hTrue)
          · unfold Stream.Listed
            rw [hTrailer, hHeaders, hReset]
            exact id
          · rintro - list - ⟨h, hList, hKind⟩
            exact ⟨h, hHeaders.trans hList, hKind⟩

/-- The header list that a decoded list leaves on a stream. -/
def Stream.listAfter (s : Stream) (list : List Header) : Option (List Header) :=
  if s.trailer.isSome then s.headers else some list

namespace Connection

variable {con con' : Connection} {taken : List Frame} {sid : Nat}

instance (con : Connection) (taken : List Frame) (sid : Nat) : Decidable (con.Reset taken sid) :=
  inferInstanceAs (Decidable (_ ∨ _))

theorem Touches.resets {touched : Set Nat} (h : Touches touched con con')
    (hReset : con.Reset taken sid) : con'.Reset taken sid := by
  refine Reset.mono (h.reset sid) (List.map_subset _ fun f hMem => ?_) hReset
  obtain ⟨hMem, hType⟩ := List.mem_filter.mp hMem
  exact List.mem_filter.mpr ⟨h.queue hMem, hType⟩

/-- The stream was reset; what has been dispatched on it stays what was due. -/
structure Gone (con : Connection) (taken : List Frame) (c : ClientSide)
    (r : Option (List Header)) (sid : Nat) : Prop where
  reset : con.Reset taken sid
  spent : con.Spent sid
  due : callsIn (con.dispatches sid) = c.due r

/-- A server connection that keeps track of a stream, or the stream is gone. -/
structure Tracked (con : Connection) (taken : List Frame) (c : ClientSide)
    (r : Option (List Header)) (sid : Nat) : Prop where
  plain : con.Plain
  type : con.type = .server
  preface : con.preface = true
  stream : con.Gone taken c r sid ∨ Tracks c r (con.stream? sid) (con.dispatches sid)

variable {c c' : ClientSide} {r r' : Option (List Header)}

theorem dispatches_modifyStream (con : Connection) (on : Nat) (f : Stream → Stream) (sid : Nat) :
    (con.modifyStream on f).dispatches sid = con.dispatches sid := by
  unfold modifyStream
  split <;> rfl

theorem Gone.touches {touched : Set Nat} (h : con.Gone taken c r sid) (hPlain : con.Plain)
    (hTouches : Touches touched con con') : con'.Gone taken c r sid := by
  obtain ⟨hSpent, hSame⟩ := hTouches.spent hPlain sid h.spent
  exact ⟨hTouches.resets h.reset, hSpent, hSame ▸ h.due⟩

theorem Tracked.due (h : con.Tracked taken c r sid) : callsIn (con.dispatches sid) = c.due r :=
  h.stream.elim Gone.due Tracks.due

/-- A step after which the stream is tracked, if it is not gone before. -/
theorem Tracked.step (h : con.Tracked taken c r sid) (hTouches : Touches Set.univ con con')
    (hTracks : Tracks c r (con.stream? sid) (con.dispatches sid) →
      con'.Gone taken c r sid ∨ Tracks c r (con'.stream? sid) (con'.dispatches sid)) :
    con'.Tracked taken c r sid :=
  ⟨hTouches.plain h.plain, hTouches.type.trans h.type, hTouches.preface.trans h.preface,
    h.stream.elim (fun hGone => .inl (hGone.touches h.plain hTouches)) hTracks⟩

/-- A step that does not touch the stream. -/
theorem Tracked.touches {touched : Set Nat} (h : con.Tracked taken c r sid)
    (hTouches : Touches touched con con') (hNot : sid ∉ touched) :
    con'.Tracked taken c r sid := by
  refine h.step (hTouches.mono (Set.subset_univ touched)) fun hTracks => .inr ?_
  have hView := hTouches.apart h.plain sid hNot
  have hDispatches : con'.dispatches sid = con.dispatches sid := congrArg View.dispatches hView
  rw [hDispatches]
  exact hTracks.shown (congrArg View.stream hView)

theorem Tracked.gone (h : con.Tracked taken c r sid) (hGone : con.Gone taken c r sid)
    (hTouches : Touches Set.univ con con') : con'.Tracked taken c r sid :=
  h.step hTouches fun _ => .inl (hGone.touches h.plain hTouches)

/-- A change of the stream itself that does not show. -/
theorem Tracked.quiet (h : con.Tracked taken c r sid) (hTouches : Touches ∅ con con') :
    con'.Tracked taken c r sid := h.touches hTouches (Set.notMem_empty sid)

/-! ### Sending on the stream -/

theorem Tracked.machineSend (h : con.Tracked taken c r sid) (hSid : sid ≠ 0)
    (hSome : (con.stream? sid).isSome) {type : FrameType} (flags : UInt8)
    (hReset : type ≠ .rstStream) (hPush : type ≠ .pushPromise)
    (hFree : Given c r ∨ ¬ hasFlag flags Flag.endStream ∧ (type ≠ .continuation ∨ c.isOpen = true)) :
    (con.stateMachine .send type flags sid).Tracked taken c r sid := by
  refine h.step (touches_stateMachine (Set.mem_univ sid) ..) fun hTracks => .inr ?_
  obtain ⟨s, hs⟩ := Option.isSome_iff_exists.mp hSome
  rw [hs] at hTracks
  obtain ⟨hState, hPlain⟩ := hTracks.state
  obtain ⟨hStream, hMore⟩ := goes_stateMachine h.type h.preface hSid hs hPlain hState .send hPush flags
  rw [hStream, hMore]
  exact hTracks.send flags sid hReset (hFree.imp_left hTracks.given.mp)

/-- What is encoded and queued without regard to the state of the stream. -/
theorem touches_queued (con : Connection) {d : FrameData} (hReset : d.type ≠ .rstStream)
    (flags : UInt8) (sid : Nat) :
    Touches ∅ con ((con.encodeEffect d sid).push (con.frameEncode d flags sid).2) := by
  refine Touches.trans ?_ (touches_push ..)
  cases d with
  | rstStream code => exact absurd rfl hReset
  | goaway _ _ => exact touches_of_streams rfl (fun _ => rfl) rfl rfl fun _ h => h
  | _ => exact .refl ∅ con

theorem Tracked.enqueue (h : con.Tracked taken c r sid) (hSid : sid ≠ 0)
    (hSome : (con.stream? sid).isSome) {d : FrameData} (flags : UInt8) (hReset : d.type ≠ .rstStream)
    (hPush : d.type ≠ .pushPromise)
    (hFree : Given c r ∨ ¬ hasFlag flags Flag.endStream ∧ (d.type ≠ .continuation ∨ c.isOpen = true)) :
    (con.enqueue d flags sid).Tracked taken c r sid := by
  have hQueued := touches_queued con hReset flags sid
  exact (h.quiet hQueued).machineSend hSid (hQueued.streams sid hSome) flags hReset hPush hFree

/-- The stream is marked as reset, and its RST_STREAM frame queued. -/
def markReset (con : Connection) (sid : Nat) (code : ErrorCode) : Connection :=
  (con.encodeEffect (.rstStream code.code) sid).push (con.frameEncode (.rstStream code.code) 0 sid).2

theorem reset_markReset (con : Connection) (sid : Nat) (code : ErrorCode) (taken : List Frame) :
    (con.markReset sid code).Reset taken sid := by
  have hMem : (con.frameEncode (.rstStream code.code) 0 sid).2 ∈ (con.markReset sid code).queue :=
    List.mem_append_right _ (List.mem_singleton.mpr rfl)
  refine .inr ?_
  rw [resetStreams_append]
  exact List.mem_append_right _ (List.mem_map.mpr ⟨_, List.mem_filter.mpr ⟨hMem, rfl⟩, rfl⟩)

theorem reset_streamError (con : Connection) (sid : Nat) (code : ErrorCode) (taken : List Frame) :
    (con.streamError sid code).Reset taken sid :=
  (touches_stateMachine (Set.mem_univ sid) ..).resets (reset_markReset con sid code taken)

/-- Frames on the stream other than CONTINUATION change nothing that counts. -/
def Settles (con : Connection) (taken : List Frame) (c : ClientSide) (r : Option (List Header))
    (sid : Nat) : Prop :=
  con.Gone taken c r sid ∨ Given c r ∨ (con.get sid Stream.pendingState).isSome

/-- RST_STREAM on a stream that is marked as reset. -/
theorem Tracked.machineReset (h : con.Tracked taken c r sid) (hSid : sid ≠ 0)
    (hSome : (con.stream? sid).isSome) (hReset : con.Reset taken sid) (act : Act) (flags : UInt8) :
    (con.stateMachine act .rstStream flags sid).Tracked taken c r sid ∧
      (act = .send → (con.stateMachine act .rstStream flags sid).Settles taken c r sid) := by
  have hTouches := touches_stateMachine (Set.mem_univ sid) con act .rstStream flags
  rcases h.stream with hGone | hTracks
  · exact ⟨h.gone hGone hTouches, fun _ => .inl (hGone.touches h.plain hTouches)⟩
  · obtain ⟨s, hs⟩ := Option.isSome_iff_exists.mp hSome
    rw [hs] at hTracks
    obtain ⟨hState, hPlain⟩ := hTracks.state
    have hPush : FrameType.rstStream ≠ .pushPromise := nofun
    obtain ⟨hStream, hMore⟩ :=
      goes_stateMachine h.type h.preface hSid hs hPlain hState act hPush flags
    have hAfter := hTracks.reset act flags sid
    dsimp only at hAfter
    rw [← hStream, ← hMore] at hAfter
    rcases hAfter with ⟨hNone, hCb⟩ | ⟨hTracks', hWhich⟩
    · have hEvents : con.dispatches sid = [] := by
        rw [hMore] at hNone
        exact (List.append_eq_nil_iff.mp hNone).1
      have hGone : (con.stateMachine act .rstStream flags sid).Gone taken c r sid := by
        refine ⟨hTouches.resets hReset, ⟨_, hStream, hCb⟩, ?_⟩
        rw [hNone, ← hEvents]
        exact hTracks.due
      exact ⟨h.step hTouches fun _ => .inl hGone, fun _ => .inl hGone⟩
    · refine ⟨h.step hTouches fun _ => .inr hTracks', fun hSend => ?_⟩
      rcases hWhich with hEvents | hPending | hRecv
      · exact .inr (.inl (hTracks.given.mpr hEvents))
      · refine .inr (.inr ?_)
        rw [get_of_some hStream]
        exact hPending
      · rw [hSend] at hRecv
        cases hRecv

/-- The stream changes as it is marked as reset. -/
theorem Tracked.setReset (h : con.Tracked taken c r sid) {f : Stream → Stream}
    (hReset : ∀ s, (f s).reset.isSome) (hState : ∀ s, (f s).state = s.state)
    (hPending : ∀ s, (f s).pendingState = s.pendingState) (hCb : ∀ s, (f s).cb = s.cb)
    (hPromised : ∀ s, (f s).promisedSid = s.promisedSid) (hEnded : ∀ s, (f s).ended = s.ended)
    (hHeaders : ∀ s, (f s).headers = s.headers) : (con.modifyStream sid f).Tracked taken c r sid := by
  have hPlain (s : Stream) (hPlain : s.Plain) : (f s).Plain :=
    ⟨(hPromised s).trans hPlain.promised, hCb s ▸ hPlain.cb⟩
  have hTouches := touches_modifyStream (Set.mem_univ sid) (fun s _ => hReset s) hPlain
    (fun s hSpent => (hCb s).trans hSpent) con
  refine h.step hTouches fun hTracks => .inr ?_
  rw [stream?_modifyStream_self, dispatches_modifyStream]
  cases hs : con.stream? sid with
  | none =>
      rw [hs] at hTracks
      exact hTracks
  | some s =>
      rw [hs] at hTracks
      refine hTracks.change (hState s) (hPending s) (hCb s) (hPromised s) ?_ ?_ ?_
      · exact fun hTrue => .inl ((hEnded s).symm.trans hTrue)
      · exact fun _ => .inl (hReset s)
      · rintro - list - ⟨h, hList, hKind⟩
        exact ⟨h, (hHeaders s).trans hList, hKind⟩

/-- RST_STREAM goes out for a stream that is marked as reset. -/
theorem Tracked.sendReset {code : ErrorCode} (hMarked : (con.markReset sid code).Tracked taken c r sid)
    (hSid : sid ≠ 0) : (con.streamError sid code).Tracked taken c r sid ∧
      (con.streamError sid code).Settles taken c r sid := by
  have hReset := reset_markReset con sid code taken
  show ((con.markReset sid code).stateMachine .send .rstStream 0 sid).Tracked taken c r sid ∧
    ((con.markReset sid code).stateMachine .send .rstStream 0 sid).Settles taken c r sid
  generalize con.markReset sid code = marked at hReset hMarked ⊢
  cases hs : marked.stream? sid with
  | some s =>
      obtain ⟨hTracked, hSettles⟩ :=
        hMarked.machineReset hSid (by rw [hs]; rfl) hReset .send 0
      exact ⟨hTracked, hSettles rfl⟩
  | none =>
      -- the entry that comes into being has no callbacks
      have hVivified : marked.stateMachine .send .rstStream 0 sid = marked.vivify sid := by
        have hPrev : (marked.vivify sid).get sid Stream.state = none := by
          rw [vivify, hs]
          exact get_of_some (stream?_setStream_self ..) _
        unfold stateMachine
        simp [hSid, hMarked.preface, get_of_none hs, hPrev]
      have hTouches := touches_vivify (Set.mem_univ sid) marked
      have hGone : (marked.vivify sid).Gone taken c r sid := by
        refine ⟨hTouches.resets hReset, ⟨{}, ?_, rfl⟩, ?_⟩
        · rw [vivify, hs]
          exact stream?_setStream_self ..
        · rw [vivify, hs]
          exact hMarked.due
      rw [hVivified]
      exact ⟨hMarked.step hTouches fun _ => .inl hGone, .inl hGone⟩

/-- The server resets the stream. -/
theorem Tracked.streamError (h : con.Tracked taken c r sid) (hSid : sid ≠ 0) (code : ErrorCode) :
    (con.streamError sid code).Tracked taken c r sid ∧
      (con.streamError sid code).Settles taken c r sid := by
  have hSet : (con.modifyStream sid (Stream.setReset code.code)).Tracked taken c r sid :=
    h.setReset (fun _ => rfl) (fun _ => rfl) (fun _ => rfl) (fun _ => rfl) (fun _ => rfl)
      (fun _ => rfl) fun _ => rfl
  exact Tracked.sendReset (hSet.quiet (touches_push ..)) hSid

theorem Tracked.sendContinuations (hSid : sid ≠ 0) (maxSize fuel : Nat) :
    ∀ {con : Connection} (block : Octets), con.Tracked taken c r sid → (con.stream? sid).isSome →
      Given c r ∨ c.isOpen = true →
        (sendContinuations maxSize sid fuel con block).Tracked taken c r sid := by
  induction fuel with
  | zero => exact fun _ h _ _ => h
  | succ fuel ih =>
      intro con block h hSome hFree
      rw [Connection.sendContinuations]
      split
      · refine ih _ (h.enqueue hSid hSome _ (fun hEq => FrameType.noConfusion hEq)
          (fun hEq => FrameType.noConfusion hEq) (hFree.imp_right fun hOpened => ⟨?_, .inr hOpened⟩))
          ((touches_enqueue (Set.mem_univ sid) ..).streams sid hSome) hFree
        split <;> decide
      · exact h

theorem Tracked.sendHeaders (h : con.Tracked taken c r sid) (hSid : sid ≠ 0)
    (hSome : (con.stream? sid).isSome) (headers : List Header) (ended : Bool)
    (hFree : Given c r ∨ c.isOpen = true ∧ ended = false) :
    (con.sendHeaders sid headers ended).Tracked taken c r sid := by
  unfold Connection.sendHeaders
  have hCtx := h.quiet (touches_setEncodeCtx con (headersEncode con.encodeCtx headers).1)
  refine Tracked.sendContinuations hSid _ _ _ (hCtx.enqueue hSid ?_ _ (fun hEq =>
    FrameType.noConfusion hEq) (fun hEq => FrameType.noConfusion hEq) (hFree.imp_right ?_)) ?_
    (hFree.imp_right And.left)
  · exact hSome
  · rintro ⟨hOpened, rfl⟩
    have hFlags (p : Prop) [Decidable p] :
        ¬ hasFlag (if p then (0 ||| Flag.endHeaders) else 0) Flag.endStream := by
      by_cases hp : p
      · rw [if_pos hp]
        decide
      · rw [if_neg hp]
        decide
    exact ⟨hFlags _, .inr hOpened⟩
  · exact (touches_enqueue (Set.mem_univ sid) ..).streams sid hSome

/-- `ended` is recorded. -/
theorem Tracked.setEnded (h : con.Tracked taken c r sid) (ended : Option Bool)
    (hFree : ended = some true → Given c r) :
    (con.modifyStream sid fun s => { s with ended }).Tracked taken c r sid := by
  refine h.step ?_ fun hTracks => .inr ?_
  · exact touches_modifyStream (f := fun s => { s with ended }) (Set.mem_univ sid) (fun _ => id)
      (fun _ hPlain => ⟨hPlain.promised, hPlain.cb⟩) (fun _ => id) con
  · rw [stream?_modifyStream_self, dispatches_modifyStream]
    cases hs : con.stream? sid with
    | none =>
        rw [hs] at hTracks
        exact hTracks
    | some s =>
        rw [hs] at hTracks
        refine hTracks.change rfl rfl rfl rfl (fun hTrue => .inr (hFree hTrue)) id ?_
        exact fun _ _ _ hHolds => hHolds

theorem Tracked.sendDataLoop (hSid : sid ≠ 0) (ended : Bool) (fuel : Nat) :
    ∀ {con : Connection} (data : Octets), con.Tracked taken c r sid → (con.stream? sid).isSome →
      (ended = true → Given c r) → (sendDataLoop sid ended fuel con data).1.Tracked taken c r sid := by
  induction fuel with
  | zero => exact fun _ h _ _ => h
  | succ fuel ih =>
      intro con data h hSome hFree
      rw [Connection.sendDataLoop]
      dsimp only
      split
      · exact h
      · have hFrame (delta : Int) (chunk : Octets) (p : Prop) [Decidable p] :
            (((con.addFcwSend delta).addStreamFcwSend sid delta).enqueue (.data chunk)
              (if ended = true ∧ p then Flag.endStream else 0) sid).Tracked taken c r sid ∧
            ((((con.addFcwSend delta).addStreamFcwSend sid delta).enqueue (.data chunk)
              (if ended = true ∧ p then Flag.endStream else 0) sid).stream? sid).isSome := by
          have hWindows : Touches ∅ con ((con.addFcwSend delta).addStreamFcwSend sid delta) :=
            (touches_addFcwSend con delta).trans (touches_addStreamFcwSend _ sid delta)
          have hThere := hWindows.streams sid hSome
          refine ⟨?_, (touches_enqueue (Set.mem_univ sid) ..).streams sid hThere⟩
          refine (h.quiet hWindows).enqueue hSid hThere _ (fun hEq => FrameType.noConfusion hEq)
            (fun hEq => FrameType.noConfusion hEq) ?_
          by_cases hEnds : ended = true ∧ p
          · exact .inl (hFree hEnds.1)
          · rw [if_neg hEnds]
            exact .inr ⟨by decide, .inl fun hEq => by cases hEq⟩
        split
        · exact (hFrame ..).1
        · exact ih _ (hFrame ..).1 (hFrame ..).2 hFree

theorem Tracked.sendData (h : con.Tracked taken c r sid) (hSid : sid ≠ 0)
    (hSome : (con.stream? sid).isSome) (chunk : Octets) (ended : Option Bool)
    (hFree : ended = some true → Given c r) : (con.sendData sid chunk ended).Tracked taken c r sid := by
  have hEnded : (if ended.isSome then con.modifyStream sid fun s => { s with ended }
      else con).Tracked taken c r sid ∧
        ((if ended.isSome then con.modifyStream sid fun s => { s with ended }
          else con).stream? sid).isSome := by
    split
    · refine ⟨h.setEnded ended hFree, ?_⟩
      rw [isSome_stream?_modifyStream]
      exact hSome
    · exact ⟨h, hSome⟩
  unfold Connection.sendData
  dsimp only
  generalize (con.get sid Stream.blockedData).getD [] ++ chunk = data
  generalize (if ended.isSome then con.modifyStream sid fun s => { s with ended } else con) = con₁
    at hEnded ⊢
  obtain ⟨hTracked, hThere⟩ := hEnded
  rcases hTracked.stream with hGone | hTracks
  · have hTouches := ((uploads_touches (Set.mem_univ sid)).sendDataLoop
      ((con₁.get sid Stream.ended).getD false) (data.length + 3) con₁ data).trans (touches_modifyStream_shown
        (f := fun s => { s with blockedData := some (Connection.sendDataLoop sid
          ((con₁.get sid Stream.ended).getD false) (data.length + 3) con₁ data).2 })
        (fun _ => rfl) _ sid)
    exact hTracked.gone hGone hTouches
  · have hGiven : (con₁.get sid Stream.ended).getD false = true → Given c r := by
      obtain ⟨s, hs⟩ := Option.isSome_iff_exists.mp hThere
      rw [hs] at hTracks
      rw [get_of_some hs]
      cases hEnds : s.ended with
      | none => exact fun hTrue => nomatch hTrue
      | some last =>
          rintro rfl
          exact hTracks.ended hEnds
    exact (Tracked.sendDataLoop hSid _ _ _ hTracked hThere hGiven).quiet
      (touches_modifyStream_shown (by exact fun _ => rfl) ..)

theorem Tracked.streamSendBlocked (h : con.Tracked taken c r sid) (hSid : sid ≠ 0) (on : Nat) :
    (con.streamSendBlocked on).Tracked taken c r sid := by
  by_cases hOn : sid = on
  · subst hOn
    unfold Connection.streamSendBlocked
    split
    · exact h
    · next s hs =>
        split
        · exact h.sendData hSid (by rw [hs]; rfl) [] none (fun hEq => nomatch hEq)
        · exact h
  · exact h.touches (touches_streamSendBlocked (Set.mem_singleton on) con) hOn

theorem Tracked.sendBlocked (h : con.Tracked taken c r sid) (hSid : sid ≠ 0) (ord : HashOrder) :
    (con.sendBlocked ord).Tracked taken c r sid := by
  unfold Connection.sendBlocked
  generalize ord.order con.streams.keys = keys
  induction keys generalizing con with
  | nil => exact h
  | cons on keys ih => exact ih (h.streamSendBlocked hSid on)
end Connection
end PageCamel.Http2

import PageCamel.Http2.FeedProgress
import PageCamel.Http2.Requests

/-!
The dispatch of requests to the application. It hangs on the states a stream enters,
which frames of both sides bring about, and on the header list the stream has at that
moment.
-/

namespace PageCamel.Http2
open PageCamel.Lib Connection

/-! ### Runs -/

/-- A connection, where its client stands on each stream, and the header list of each
request whose first header block is complete. -/
structure Dispatching where
  flow : Flow
  client : Nat → ClientSide := fun _ => .idle
  requested : Nat → Option (List Header) := fun _ => none

namespace Dispatching

def start (given : Settings) : Dispatching := { flow := .start given }

/-- The frame has been received. -/
def hear (f : Dispatching) (fh : FrameHeader) : Dispatching :=
  let client := (f.client fh.stream).hear fh.type fh.flags
  { f with
    client := Function.update f.client fh.stream client
    requested :=
      if (f.client fh.stream).starting ∧ ¬ client.starting then
        Function.update f.requested fh.stream (f.flow.con.get fh.stream Stream.headers)
      else f.requested }

/-- Frames count as long as their stream was not reset. -/
def step (f : Dispatching) (event : HandlerEvent) : Dispatching :=
  let f' := { f with flow := f.flow.handle event }
  match event with
  | .flow (.recv ord buf) =>
      match f.flow.con.inTurn buf, (f.flow.con.frameDecode ord buf).2 with
      | some (fh, _), some _ =>
          if (f'.flow.con.stream? fh.stream).isSome ∧ ¬ f'.flow.con.Reset f'.flow.taken fh.stream
          then f'.hear fh else f'
      | _, _ => f'
  | _ => f'

/-- Every request has been dispatched when it must be, and once. -/
def Once (f : Dispatching) : Prop :=
  ∀ sid, sid ≠ 0 → callsIn (f.flow.con.dispatches sid) = (f.client sid).due (f.requested sid)

end Dispatching

/-! ### When it holds -/

/-- The header list a frame with END_HEADERS leaves on its stream: trailers that were
announced are kept apart. -/
def Connection.headersAfter (con : Connection) (fh : FrameHeader) (payload : Octets) :
    Option (List Header) :=
  let block := if fh.type = .headers then headersBlock fh payload else payload.take fh.length
  if (con.get fh.stream Stream.trailer).isSome then con.get fh.stream Stream.headers
  else some (headersDecode con.decodeCtx block).1.emittedHeaders

/-- What a frame of the client must not be, given where the client stands on its stream and
what it has requested: the end of an extended CONNECT that has ended with its header block;
a list that turns a request that is open into one of the other kind; a frame for a stream
that was reset when it could not be closed. -/
structure Connection.Regular (con : Connection) (taken : List Frame) (c : ClientSide)
    (r : Option (List Header)) (fh : FrameHeader) (payload : Octets) : Prop where
  connect : ¬ con.Reset taken fh.stream → c.starting = true → c.hear fh.type fh.flags = .ended →
    ∀ h ∈ con.headersAfter fh payload, isExtendedConnect h = false
  kind : (fh.type = .headers ∨ fh.type = .continuation) → hasFlag fh.flags Flag.endHeaders →
    con.get fh.stream Stream.state = some .opened →
      ∀ h ∈ con.headersAfter fh payload, ∀ h' ∈ r, isExtendedConnect h = isExtendedConnect h'
  live : (fh.type = .headers ∨ fh.type = .continuation ∨ fh.type = .data) →
    con.Reset taken fh.stream → con.dispatches fh.stream ≠ [] ∨ con.Spent fh.stream

namespace Dispatching

/-- The application answers requests it was given; on a stream whose request it awaits it
sends nothing that ends the stream. -/
def Answers (f : Dispatching) (sid : Nat) (ended : Bool) : Prop :=
  f.flow.con.dispatches sid ≠ [] ∨ ((f.client sid).isOpen ∧ ended = false)

end Dispatching

def HandlerEvent.Regular (f : Dispatching) : HandlerEvent → Prop
  | .flow (.recv _ buf) => ∀ fh payload, f.flow.con.inTurn buf = some (fh, payload) →
      fh.type ≠ .pushPromise ∧ (fh.stream ≠ 0 →
        f.flow.con.Regular f.flow.taken (f.client fh.stream) (f.requested fh.stream) fh payload)
  | .flow (.sendHeaders sid _ ended) => f.Answers sid ended
  | .flow (.sendData sid _ ended) => f.Answers sid (ended.getD false)
  | .flow .dequeue | .onData _ | .ping _ => True

/-! ### Receiving on the stream -/

/-- A stream that has been given a header list. -/
structure Lists (s s' : Stream) (list : List Header) : Prop where
  state : s'.state = s.state
  pending : s'.pendingState = s.pendingState
  cb : s'.cb = s.cb
  promised : s'.promisedSid = s.promisedSid
  ended : s'.ended = s.ended
  reset : s'.reset = s.reset
  headers : s'.headers = s.listAfter list
  listed : s.Listed → s'.Listed

theorem lists_store (s : Stream) (v : Validation) (list : List Header) :
    Lists s (((s.announce v).store s.trailer.isSome list)) list := by
  unfold Stream.store Stream.announce
  cases hTrailer : s.trailer with
  | none =>
      refine ⟨rfl, rfl, rfl, rfl, rfl, rfl, ?_, fun _ => .inr fun _ => rfl⟩
      rw [Stream.listAfter, hTrailer]
      rfl
  | some trailer =>
      refine ⟨rfl, rfl, rfl, rfl, rfl, rfl, ?_, ?_⟩
      · rw [Stream.listAfter, hTrailer]
        rfl
      · exact Or.imp_right fun hList _ => hList (by rw [hTrailer]; rfl)

/-- A header list for a stream that is tracked. -/
theorem Tracks.lists {c : ClientSide} {r : Option (List Header)} {s s' : Stream} {list : List Header} {events : List Event}
    (h : Tracks c r (some s) events) (hLists : Lists s s' list)
    (hKind : s.state = some .opened → ∀ after ∈ s.listAfter list, ∀ first ∈ r,
      isExtendedConnect after = isExtendedConnect first) : Tracks c r (some s') events := by
  refine h.change hLists.state hLists.pending hLists.cb hLists.promised
    (fun hTrue => .inl (hLists.ended ▸ hTrue)) hLists.listed fun hOpened first hFirst hHolds => ?_
  obtain ⟨before, hBefore, -⟩ := hHolds
  cases hAfter : s.listAfter list with
  | none =>
      unfold Stream.listAfter at hAfter
      split at hAfter
      · rw [hBefore] at hAfter
        cases hAfter
      · cases hAfter
  | some after =>
      exact ⟨after, hLists.headers.trans hAfter, hKind hOpened after hAfter first hFirst⟩

namespace Connection

variable {con con' : Connection} {taken : List Frame} {sid : Nat} {c : ClientSide}
  {r : Option (List Header)}

theorem reset_congr {s s' : Stream} (hs : con.stream? sid = some s) (hs' : con'.stream? sid = some s')
    (hReset : s'.reset = s.reset) (hQueue : con'.queue = con.queue) :
    con'.Reset taken sid ↔ con.Reset taken sid := by
  unfold Reset
  rw [get_of_some hs, get_of_some hs', hReset, hQueue]

/-- An accepted header list. -/
theorem headersDecoded_true (hPlain : con.Plain) {s : Stream} (hs : con.stream? sid = some s)
    (hTrue : (con.headersDecoded sid).2 = true) :
    ∃ s', (con.headersDecoded sid).1.stream? sid = some s' ∧
      (con.headersDecoded sid).1.dispatches sid = con.dispatches sid ∧
      (con.headersDecoded sid).1.queue = con.queue ∧ Lists s s' con.decodeCtx.emittedHeaders := by
  have hPromised := hPlain.promised sid
  revert hTrue
  unfold headersDecoded validateHeaders
  simp only [hPromised, get_of_some hs]
  split
  · next con' hValid =>
      split at hValid <;> cases hValid
      exact fun hTrue => nomatch hTrue
  · next con' hValid =>
      intro _
      split at hValid <;> cases hValid
      refine ⟨_, ?_, ?_, ?_, lists_store s (con.validation con.decodeCtx.emittedHeaders sid
        (con.isResponse sid)) con.decodeCtx.emittedHeaders⟩
      · show ((con.announce sid _).modifyStream sid _).stream? sid = _
        rw [stream?_modifyStream_self, announce, stream?_modifyStream_self, hs]
        rfl
      · show ((con.announce sid _).modifyStream sid _).dispatches sid = _
        rw [dispatches_modifyStream, announce, dispatches_modifyStream]
      · show ((con.announce sid _).modifyStream sid _).queue = _
        rw [queue_modifyStream, announce, queue_modifyStream]

/-- A list that is not accepted resets the stream. -/
theorem Tracked.headersDecoded_false (h : con.Tracked taken c r sid) (hSid : sid ≠ 0)
    (hFalse : (con.headersDecoded sid).2 = false) :
    (con.headersDecoded sid).1.Tracked taken c r sid := by
  have hMarked (v : Validation) (code : ErrorCode) :
      ((con.announce sid v).markReset sid code).Tracked taken c r sid := by
    have hSet : (con.modifyStream sid (Stream.setReset code.code ∘ Stream.announce v)).Tracked
        taken c r sid := h.setReset (fun _ => rfl) (fun _ => rfl) (fun _ => rfl) (fun _ => rfl)
          (fun _ => rfl) (fun _ => rfl) fun _ => rfl
    have hBoth : (con.announce sid v).modifyStream sid (Stream.setReset code.code) =
        con.modifyStream sid (Stream.setReset code.code ∘ Stream.announce v) := by
      cases hs : con.stream? sid with
      | none =>
          rw [announce, modifyStream_of_none hs, modifyStream_of_none hs, modifyStream_of_none hs]
      | some s =>
          rw [announce, modifyStream_of_some hs, modifyStream_of_some (stream?_setStream_self ..),
            modifyStream_of_some hs]
          unfold setStream
          rw [AList.insert_insert]
          rfl
    unfold markReset
    rw [show (con.announce sid v).encodeEffect (.rstStream code.code) sid = _ from hBoth]
    exact hSet.quiet (touches_push ..)
  revert hFalse
  unfold headersDecoded validateHeaders
  dsimp only
  split
  · next con' hValid =>
      intro _
      split at hValid <;> cases hValid
      exact (Tracked.sendReset (hMarked ..) hSid).1
  · exact fun hFalse => nomatch hFalse

/-- A frame of a header block that has been taken in: the stream is not reset by it, and has
its header list if the frame ends the block. -/
structure Taken (con con' : Connection) (taken : List Frame) (fh : FrameHeader)
    (list : Option (List Header)) : Prop where
  reset : con'.Reset taken fh.stream → con.Reset taken fh.stream
  headers : hasFlag fh.flags Flag.endHeaders → con'.get fh.stream Stream.headers = list

theorem Tracked.blockDecode {fh : FrameHeader} (h : con.Tracked taken c r fh.stream)
    (hSid : fh.stream ≠ 0) {s : Stream} (hs : con.stream? fh.stream = some s) (block : Octets)
    (hKind : hasFlag fh.flags Flag.endHeaders → s.state = some .opened →
      ∀ after ∈ s.listAfter (headersDecode con.decodeCtx block).1.emittedHeaders, ∀ first ∈ r,
        isExtendedConnect after = isExtendedConnect first) :
    (con.blockDecode fh block).1.Tracked taken c r fh.stream ∧
      ((con.blockDecode fh block).2.isSome → Taken con (con.blockDecode fh block).1 taken fh
        (s.listAfter (headersDecode con.decodeCtx block).1.emittedHeaders)) := by
  have hMem : fh.stream ∈ (Set.univ : Set Nat) := Set.mem_univ _
  have hTouches := (decodes_touches hMem).blockDecode con block
  have hBlock : (con.setHeaderBlock fh.stream block).stream? fh.stream =
      some (s.setHeaderBlock block) := by
    rw [setHeaderBlock, stream?_modifyStream_self, hs]
    rfl
  by_cases hEnd : hasFlag fh.flags Flag.endHeaders
  · have hCtx : (con.setHeaderBlock fh.stream block).decodeCtx = con.decodeCtx :=
      decodeCtx_modifyStream ..
    revert hTouches
    unfold Connection.blockDecode
    rw [if_pos hEnd]
    unfold streamHeadersDone
    simp only [hBlock]
    rw [show (s.setHeaderBlock block).headerBlock.getD [] = block from rfl]
    unfold decodeBlock
    rw [hCtx]
    have hKind := hKind hEnd
    generalize headersDecode con.decodeCtx block = decoded at hKind ⊢
    obtain ⟨decodeCtx, result⟩ := decoded
    have hDecoded : Touches ∅ con ((con.setHeaderBlock fh.stream block).setDecodeCtx decodeCtx) :=
      (touches_setHeaderBlock con _ block).trans (touches_setDecodeCtx ..)
    cases result with
    | conError code =>
        intro hTouches
        exact ⟨h.quiet (hDecoded.trans (touches_setError ..)), fun hSome => by cases hSome⟩
    | streamError code =>
        intro hTouches
        exact ⟨((h.quiet hDecoded).streamError hSid code).1, fun hSome => by cases hSome⟩
    | done =>
        dsimp only
        have hReady : Touches ∅ con (((con.setHeaderBlock fh.stream block).setDecodeCtx
            decodeCtx).setHeaderBlock fh.stream []) := hDecoded.trans (touches_setHeaderBlock ..)
        have hStream : (((con.setHeaderBlock fh.stream block).setDecodeCtx
            decodeCtx).setHeaderBlock fh.stream []).stream? fh.stream =
              some ((s.setHeaderBlock block).setHeaderBlock []) := by
          rw [setHeaderBlock, stream?_modifyStream_self]
          show ((con.setHeaderBlock fh.stream block).stream? fh.stream).map _ = _
          rw [hBlock]
          rfl
        have hQueue : (((con.setHeaderBlock fh.stream block).setDecodeCtx
            decodeCtx).setHeaderBlock fh.stream []).queue = con.queue := by
          rw [setHeaderBlock, queue_modifyStream]
          show (con.setHeaderBlock fh.stream block).queue = _
          rw [setHeaderBlock, queue_modifyStream]
        have hEmitted : (((con.setHeaderBlock fh.stream block).setDecodeCtx
            decodeCtx).setHeaderBlock fh.stream []).decodeCtx = decodeCtx :=
          decodeCtx_modifyStream ..
        have hTracked := h.quiet hReady
        have hEvents : (((con.setHeaderBlock fh.stream block).setDecodeCtx
            decodeCtx).setHeaderBlock fh.stream []).dispatches fh.stream =
              con.dispatches fh.stream :=
          congrArg View.dispatches (hReady.apart h.plain fh.stream (Set.notMem_empty _))
        generalize ((con.setHeaderBlock fh.stream block).setDecodeCtx
          decodeCtx).setHeaderBlock fh.stream [] = con₁ at hStream hQueue hEmitted hTracked hEvents ⊢
        cases hOk : (con₁.headersDecoded fh.stream).2 with
        | false =>
            have hFails := hTracked.headersDecoded_false hSid hOk
            generalize con₁.headersDecoded fh.stream = result at hOk hFails ⊢
            obtain ⟨con₂, ok⟩ := result
            subst hOk
            exact fun _ => ⟨hFails, fun hSome => by cases hSome⟩
        | true =>
            obtain ⟨s', hs', hSame, hQueued, hLists⟩ := headersDecoded_true hTracked.plain hStream hOk
            rw [hEmitted] at hLists
            generalize con₁.headersDecoded fh.stream = result at hOk hs' hSame hQueued ⊢
            obtain ⟨con₂, ok⟩ := result
            subst hOk
            intro hTouches
            refine ⟨h.step hTouches fun hTracks => .inr ?_, fun _ => ⟨?_, fun _ => ?_⟩⟩
            · show Tracks c r (con₂.stream? fh.stream) (con₂.dispatches fh.stream)
              rw [hs', hSame, hEvents]
              rw [hs] at hTracks
              have hShown : Tracks c r (some ((s.setHeaderBlock block).setHeaderBlock [])) _ :=
                hTracks.shown rfl
              exact hShown.lists hLists hKind
            · exact (reset_congr hs hs' hLists.reset (hQueued.trans hQueue)).mp
            · exact (get_of_some hs' _).trans hLists.headers
  · rw [Connection.blockDecode, if_neg hEnd]
    refine ⟨h.quiet (touches_setHeaderBlock ..), fun _ => ⟨?_, fun hTrue => absurd hTrue hEnd⟩⟩
    exact (reset_congr hs hBlock rfl (queue_modifyStream ..)).mp

/-! ### Whether a step resets the stream -/

theorem reset_of_view (hView : con'.view sid = con.view sid)
    (hQueue : resetStreams con'.queue = resetStreams con.queue) (h : con'.Reset taken sid) :
    con.Reset taken sid := by
  have hStream : (con'.stream? sid).map Stream.shown = (con.stream? sid).map Stream.shown :=
    congrArg View.stream hView
  have hReset : con'.get sid Stream.reset = con.get sid Stream.reset := by
    have hBind (o : Option Stream) : o.bind Stream.reset = (o.map Stream.shown).bind Stream.reset := by
      cases o <;> rfl
    rw [get, get, hBind, hStream, ← hBind]
  unfold Reset at h ⊢
  rw [hReset, resetStreams_append, hQueue, ← resetStreams_append] at h
  exact h

/-- The state machine resets no stream. -/
theorem Tracked.reset_stateMachine (h : con.Tracked taken c r sid) (hSid : sid ≠ 0)
    (hSome : (con.stream? sid).isSome) (act : Act) {type : FrameType} (hPush : type ≠ .pushPromise)
    (flags : UInt8) (hReset : (con.stateMachine act type flags sid).Reset taken sid) :
    con.Reset taken sid := by
  rcases h.stream with hGone | hTracks
  · exact hGone.reset
  · obtain ⟨s, hs⟩ := Option.isSome_iff_exists.mp hSome
    rw [hs] at hTracks
    obtain ⟨hState, hPlain⟩ := hTracks.state
    have hStream :=
      (goes_stateMachine h.type h.preface hSid hs hPlain hState act hPush flags).stream
    have hField : (s.after (s.transition act type flags)).reset = s.reset := by
      generalize s.transition act type flags = t
      cases t with
      | stay | pend new => rfl
      | enter new =>
          rw [Stream.after, Stream.enter]
          split <;> rfl
    unfold Reset at hReset ⊢
    rw [get_of_some hStream, hField, resetStreams_append,
      (hush_stateMachine sid con act type flags sid).queue.resets, ← resetStreams_append] at hReset
    rw [get_of_some hs]
    exact hReset

theorem resets_queued (con : Connection) {d : FrameData} (hReset : d.type ≠ .rstStream)
    (flags : UInt8) (on : Nat) :
    resetStreams ((con.encodeEffect d on).push (con.frameEncode d flags on).2).queue =
      resetStreams con.queue := by
  show resetStreams ((con.encodeEffect d on).queue ++ [_]) = _
  rw [resetStreams_append, (hush_encodeEffect 0 con on hReset).queue.resets,
    resetStreams_cons_of (by exact hReset)]
  exact List.append_nil _

theorem Tracked.reset_enqueue (h : con.Tracked taken c r sid) (hSid : sid ≠ 0)
    (hSome : (con.stream? sid).isSome) {d : FrameData} (flags : UInt8) (hReset : d.type ≠ .rstStream)
    (hPush : d.type ≠ .pushPromise) (hAfter : (con.enqueue d flags sid).Reset taken sid) :
    con.Reset taken sid := by
  have hQueued := touches_queued con hReset flags sid
  have hBefore := (h.quiet hQueued).reset_stateMachine hSid (hQueued.streams sid hSome) .send hPush
    flags hAfter
  exact reset_of_view (hQueued.apart h.plain sid (Set.notMem_empty _)) (resets_queued con hReset flags sid)
    hBefore

theorem queue_headersPriority (con : Connection) (fh : FrameHeader) (buf : Octets) :
    (con.headersPriority fh buf).1.queue = con.queue := by
  have hReorders : Reorders fun con con' => con'.queue = con.queue :=
    ⟨⟨⟨fun _ => rfl, fun h h' => h'.trans h⟩, fun _ _ _ => queue_modifyStream ..⟩, fun _ _ _ =>
      queue_modifyStream ..⟩
  exact hReorders.headersPriority con fh buf

/-! ### The payloads -/

theorem headersAfter_eq {s : Stream} {fh : FrameHeader} (hs : con.stream? fh.stream = some s)
    (payload : Octets) : con.headersAfter fh payload =
      s.listAfter (headersDecode con.decodeCtx
        (if fh.type = .headers then headersBlock fh payload else payload.take fh.length)).1.emittedHeaders := by
  unfold headersAfter Stream.listAfter
  rw [get_of_some hs, get_of_some hs]

theorem Tracked.headersFrameDecode {fh : FrameHeader} (h : con.Tracked taken c r fh.stream)
    (hSid : fh.stream ≠ 0) (hSome : (con.stream? fh.stream).isSome) (hType : fh.type = .headers)
    (buf : Octets) (hKind : hasFlag fh.flags Flag.endHeaders →
      con.get fh.stream Stream.state = some .opened →
        ∀ after ∈ con.headersAfter fh buf, ∀ first ∈ r,
          isExtendedConnect after = isExtendedConnect first) :
    (con.headersFrameDecode fh buf).1.Tracked taken c r fh.stream ∧
      ((con.headersFrameDecode fh buf).2.isSome →
        Taken con (con.headersFrameDecode fh buf).1 taken fh (con.headersAfter fh buf)) := by
  have hTouches : Touches ∅ con (con.headersPriority fh buf).1 := reorders_touches.headersPriority con fh buf
  have hCtx := (alike_headersPriority con fh buf).decodeCtx
  have hQueue := queue_headersPriority con fh buf
  unfold Connection.headersFrameDecode
  rw [if_neg hSid]
  generalize con.headersPriority fh buf = result at hTouches hCtx hQueue ⊢
  obtain ⟨con₁, ok⟩ := result
  have hTracked := h.quiet hTouches
  cases ok with
  | false => exact ⟨hTracked.quiet (touches_setError ..), fun hTrue => nomatch hTrue⟩
  | true =>
      dsimp only
      split
      · exact ⟨hTracked.quiet (touches_setError ..), fun hTrue => nomatch hTrue⟩
      · obtain ⟨s, hs⟩ := Option.isSome_iff_exists.mp hSome
        have hView := hTouches.apart h.plain fh.stream (Set.notMem_empty _)
        have hShown : (con₁.stream? fh.stream).map Stream.shown = some s.shown := by
          have hStream : (con₁.stream? fh.stream).map Stream.shown =
              (con.stream? fh.stream).map Stream.shown := congrArg View.stream hView
          rw [hStream, hs]
          rfl
        obtain ⟨s₁, hs₁, hSame⟩ := Option.map_eq_some_iff.mp hShown
        have hList (list : List Header) : s₁.listAfter list = s.listAfter list := by
          have hTrailer : s₁.trailer = s.trailer := (congrArg Stream.trailer hSame :)
          have hHeaders : s₁.headers = s.headers := (congrArg Stream.headers hSame :)
          rw [Stream.listAfter, hTrailer, hHeaders, Stream.listAfter]
        have hState : s₁.state = s.state := (congrArg Stream.state hSame :)
        rw [headersAfter_eq hs, if_pos hType] at hKind ⊢
        have hBlock := hTracked.blockDecode hSid hs₁ (headersBlock fh buf)
        rw [hCtx, hList, hState] at hBlock
        obtain ⟨hDone, hTaken⟩ := hBlock fun hEnd hOpened =>
          hKind hEnd ((get_of_some hs _).trans hOpened)
        refine ⟨hDone, fun hTrue => ⟨fun hReset => ?_, (hTaken hTrue).headers⟩⟩
        exact reset_of_view hView (congrArg resetStreams hQueue) ((hTaken hTrue).reset hReset)

theorem Tracked.continuationDecode {fh : FrameHeader} (h : con.Tracked taken c r fh.stream)
    (hSid : fh.stream ≠ 0) (hSome : (con.stream? fh.stream).isSome) (hType : fh.type = .continuation)
    (buf : Octets) (hKind : hasFlag fh.flags Flag.endHeaders →
      con.get fh.stream Stream.state = some .opened →
        ∀ after ∈ con.headersAfter fh buf, ∀ first ∈ r,
          isExtendedConnect after = isExtendedConnect first) :
    (con.continuationDecode fh buf).1.Tracked taken c r fh.stream ∧
      ((con.continuationDecode fh buf).2.isSome →
        Taken con (con.continuationDecode fh buf).1 taken fh (con.headersAfter fh buf)) := by
  obtain ⟨s, hs⟩ := Option.isSome_iff_exists.mp hSome
  have hNot : fh.type ≠ .headers := by
    rw [hType]
    exact nofun
  rw [headersAfter_eq hs, if_neg hNot] at hKind ⊢
  unfold Connection.continuationDecode
  rw [if_neg hSid]
  exact h.blockDecode hSid hs (buf.take fh.length) fun hEnd hOpened =>
    hKind hEnd ((get_of_some hs _).trans hOpened)

/-- A step on the stream that keeps track of it and does not reset it. -/
structure Unmoved (con con' : Connection) (taken : List Frame) (c : ClientSide)
    (r : Option (List Header)) (sid : Nat) : Prop where
  tracked : con'.Tracked taken c r sid
  there : (con'.stream? sid).isSome
  reset : con'.Reset taken sid → con.Reset taken sid

theorem Unmoved.trans {con'' : Connection} (h : Unmoved con con' taken c r sid)
    (h' : Unmoved con' con'' taken c r sid) : Unmoved con con'' taken c r sid :=
  ⟨h'.tracked, h'.there, fun hReset => h.reset (h'.reset hReset)⟩

theorem Tracked.unmoved (h : con.Tracked taken c r sid) (hSome : (con.stream? sid).isSome)
    (hTouches : Touches ∅ con con') (hQueue : resetStreams con'.queue = resetStreams con.queue) :
    Unmoved con con' taken c r sid :=
  ⟨h.quiet hTouches, hTouches.streams sid hSome,
    reset_of_view (hTouches.apart h.plain sid (Set.notMem_empty _)) hQueue⟩

theorem Tracked.refillWindows (h : con.Tracked taken c r sid) (hSid : sid ≠ 0)
    (hSome : (con.stream? sid).isSome) (endStream : Bool) :
    Unmoved con (con.refillWindows sid endStream) taken c r sid := by
  have hCon : Unmoved con con.fcwUpdate taken c r sid := by
    have hNot : (FrameData.windowUpdate (con.decSetting Setting.initialWindowSize)).type ≠ .rstStream :=
      nofun
    refine h.unmoved hSome ((touches_addFcwRecv ..).trans (touches_enqueue_zero _ hNot _)) ?_
    exact resets_queued (con.addFcwRecv _) hNot 0 0
  have hStream {con : Connection} (h : con.Tracked taken c r sid) (hSome : (con.stream? sid).isSome) :
      Unmoved con (con.streamFcwUpdate sid) taken c r sid := by
    have hWindow := h.unmoved hSome (touches_addStreamFcwRecv con sid
      (con.decSetting Setting.initialWindowSize)) (congrArg resetStreams (queue_modifyStream ..))
    have hNot : (FrameData.windowUpdate (con.decSetting Setting.initialWindowSize)).type ≠ .rstStream :=
      nofun
    have hPush : (FrameData.windowUpdate (con.decSetting Setting.initialWindowSize)).type ≠
        .pushPromise := nofun
    refine hWindow.trans ⟨?_, (touches_enqueue (Set.mem_univ sid) ..).streams sid hWindow.there, ?_⟩
    · exact hWindow.tracked.enqueue hSid hWindow.there 0 hNot hPush (.inr ⟨by decide, .inl nofun⟩)
    · exact hWindow.tracked.reset_enqueue hSid hWindow.there 0 hNot hPush
  have hSame : Unmoved con con taken c r sid := ⟨h, hSome, id⟩
  unfold Connection.refillWindows
  dsimp only
  repeat' split
  all_goals
    first
    | exact hCon.trans (hStream hCon.tracked hCon.there)
    | exact hCon
    | exact hStream h hSome
    | exact hSame

theorem Tracked.dataDecode {fh : FrameHeader} (h : con.Tracked taken c r fh.stream)
    (hSid : fh.stream ≠ 0) (hSome : (con.stream? fh.stream).isSome) (buf : Octets) :
    (con.dataDecode fh buf).1.Tracked taken c r fh.stream ∧
      ((con.dataDecode fh buf).1.Reset taken fh.stream → con.Reset taken fh.stream ∨
        (con.dataDecode fh buf).1.Settles taken c r fh.stream) := by
  unfold Connection.dataDecode
  rw [if_neg hSid]
  dsimp only
  split
  · have hStays := h.unmoved hSome (touches_setError con .protocolError) ?_
    · exact ⟨hStays.tracked, fun hReset => .inl (hStays.reset hReset)⟩
    · exact (hush_setError 0 con .protocolError).queue.resets
  · have hTaken := h.unmoved hSome ((touches_addFcwRecv con (-fh.length)).trans
      (touches_addStreamFcwRecv _ fh.stream (-fh.length))) (congrArg resetStreams (queue_modifyStream ..))
    split
    · obtain ⟨hTracked, hSettles⟩ := hTaken.tracked.streamError hSid .flowControlError
      exact ⟨hTracked, fun _ => .inr hSettles⟩
    · have hFilled := hTaken.trans
        (hTaken.tracked.refillWindows hSid hTaken.there (hasFlag fh.flags Flag.endStream))
      split
      · exact ⟨hFilled.tracked, fun hReset => .inl (hFilled.reset hReset)⟩
      · have hData := hFilled.trans (hFilled.tracked.unmoved hFilled.there (touches_streamData _
          fh.stream ((buf.drop (padOffset fh)).take (fh.length - padOffset fh - padSize fh buf))) ?_)
        · split
          · unfold checkContentLength
            split
            · split
              · obtain ⟨hTracked, hSettles⟩ := hData.tracked.streamError hSid .protocolError
                exact ⟨hTracked, fun _ => .inr hSettles⟩
              · exact ⟨hData.tracked, fun hReset => .inl (hData.reset hReset)⟩
            · exact ⟨hData.tracked, fun hReset => .inl (hData.reset hReset)⟩
          · exact ⟨hData.tracked, fun hReset => .inl (hData.reset hReset)⟩
        · unfold streamData
          repeat' split
          all_goals rfl

theorem Tracked.rstStreamDecode {fh : FrameHeader} (h : con.Tracked taken c r fh.stream)
    (hSid : fh.stream ≠ 0) (hSome : (con.stream? fh.stream).isSome) (buf : Octets) :
    (con.rstStreamDecode fh buf).1.Tracked taken c r fh.stream ∧
      ((con.rstStreamDecode fh buf).2.isSome → (con.rstStreamDecode fh buf).1.Reset taken fh.stream) := by
  unfold Connection.rstStreamDecode
  rw [if_neg hSid]
  split
  · exact ⟨h.quiet (touches_setError ..), fun hTrue => nomatch hTrue⟩
  · refine ⟨?_, fun _ => .inl ?_⟩
    · exact h.setReset (fun _ => rfl) (fun _ => rfl) (fun _ => rfl) (fun _ => rfl) (fun _ => rfl)
        (fun _ => rfl) fun _ => rfl
    · obtain ⟨s, hs⟩ := Option.isSome_iff_exists.mp hSome
      rw [get, stream?_modifyStream_self, hs]
      rfl

theorem Tracked.windowUpdateDecode {fh : FrameHeader} (h : con.Tracked taken c r fh.stream)
    (hSid : fh.stream ≠ 0) (ord : HashOrder) (buf : Octets) :
    (con.windowUpdateDecode ord fh buf).1.Tracked taken c r fh.stream := by
  unfold Connection.windowUpdateDecode
  dsimp only
  rw [if_neg hSid]
  repeat' split
  · exact h.quiet (touches_setError ..)
  · exact h.quiet (touches_setError ..)
  · exact h
  · exact ((h.quiet (touches_addStreamFcwSend ..)).streamError hSid _).1
  · exact (h.quiet (touches_addStreamFcwSend ..)).streamSendBlocked hSid fh.stream

/-- What a frame whose payload has been decoded has done to its stream. -/
structure Decoded (con con' : Connection) (taken : List Frame) (c : ClientSide)
    (r : Option (List Header)) (fh : FrameHeader) (list : Option (List Header)) : Prop where
  block : fh.type = .headers ∨ fh.type = .continuation → Taken con con' taken fh list
  data : fh.type = .data → con'.Reset taken fh.stream →
    con.Reset taken fh.stream ∨ con'.Settles taken c r fh.stream
  reset : fh.type = .rstStream → con'.Reset taken fh.stream

theorem Tracked.payloadDecode {fh : FrameHeader} (h : con.Tracked taken c r fh.stream)
    (hSid : fh.stream ≠ 0) (hSome : (con.stream? fh.stream).isSome) (hPush : fh.type ≠ .pushPromise)
    (ord : HashOrder) (buf : Octets)
    (hKind : (fh.type = .headers ∨ fh.type = .continuation) → hasFlag fh.flags Flag.endHeaders →
      con.get fh.stream Stream.state = some .opened →
        ∀ after ∈ con.headersAfter fh buf, ∀ first ∈ r,
          isExtendedConnect after = isExtendedConnect first) :
    (con.payloadDecode ord fh buf).1.Tracked taken c r fh.stream ∧
      ((con.payloadDecode ord fh buf).2.isSome →
        Decoded con (con.payloadDecode ord fh buf).1 taken c r fh (con.headersAfter fh buf)) := by
  have hNothing (hType : fh.type ≠ .headers ∧ fh.type ≠ .continuation ∧ fh.type ≠ .data ∧
      fh.type ≠ .rstStream) (con' : Connection) (list : Option (List Header)) :
      Decoded con con' taken c r fh list := by
    obtain ⟨hHeaders, hContinuation, hData, hReset⟩ := hType
    exact ⟨fun hBlock => absurd hBlock (not_or.mpr ⟨hHeaders, hContinuation⟩),
      fun hEq => absurd hEq hData, fun hEq => absurd hEq hReset⟩
  unfold Connection.payloadDecode
  cases hType : fh.type with
  | data =>
      obtain ⟨hTracked, hReset⟩ := h.dataDecode hSid hSome buf
      exact ⟨hTracked, fun _ => ⟨by simp [hType], fun _ => hReset, by simp [hType]⟩⟩
  | headers =>
      obtain ⟨hTracked, hTaken⟩ := h.headersFrameDecode hSid hSome hType buf (hKind (.inl hType))
      exact ⟨hTracked, fun hTrue => ⟨fun _ => hTaken hTrue, by simp [hType], by simp [hType]⟩⟩
  | continuation =>
      obtain ⟨hTracked, hTaken⟩ := h.continuationDecode hSid hSome hType buf (hKind (.inr hType))
      exact ⟨hTracked, fun hTrue => ⟨fun _ => hTaken hTrue, by simp [hType], by simp [hType]⟩⟩
  | rstStream =>
      obtain ⟨hTracked, hReset⟩ := h.rstStreamDecode hSid hSome buf
      exact ⟨hTracked, fun hTrue => ⟨by simp [hType], by simp [hType], fun _ => hReset hTrue⟩⟩
  | windowUpdate =>
      exact ⟨h.windowUpdateDecode hSid ord buf, fun _ => hNothing (by simp [hType]) ..⟩
  | priority => exact ⟨h.quiet (reorders_touches.priorityDecode touches_setError ..), fun _ => hNothing (by simp [hType]) ..⟩
  | settings => exact ⟨h.quiet (manages_touches.settingsDecode ..), fun _ => hNothing (by simp [hType]) ..⟩
  | ping => exact ⟨h.quiet (manages_touches.pingDecode ..), fun _ => hNothing (by simp [hType]) ..⟩
  | goaway => exact ⟨h.quiet (manages_touches.goawayDecode ..), fun _ => hNothing (by simp [hType]) ..⟩
  | pushPromise => exact absurd hType hPush
  | unknown code => exact ⟨h, fun _ => hNothing (by simp [hType]) ..⟩

/-! ### Frames on the stream -/

/-- A stream without callbacks was not waiting to be dispatched. -/
theorem Tracked.given_of_spent (h : con.Tracked taken c r sid)
    (hLive : con.dispatches sid ≠ [] ∨ con.Spent sid) : con.Gone taken c r sid ∨ Given c r := by
  refine h.stream.imp_right fun hTracks => hTracks.given.mpr ?_
  generalize con.dispatches sid = events at hLive hTracks
  cases hs : con.stream? sid with
  | none =>
      refine hLive.resolve_right ?_
      rintro ⟨s, hSome, -⟩
      rw [hs] at hSome
      cases hSome
  | some s =>
      rw [hs] at hTracks
      cases hTracks with
      | idle hAwaits _ _ _ | opening _ hAwaits _ _ _ | opened _ hAwaits _ _ _ _
      | trailing hAwaits _ _ _ _ =>
          refine hLive.resolve_right fun hSpent => ?_
          have hCb := hAwaits.cb.symm.trans (hSpent.cb hs)
          cases hCb
      | dispatched _ _ _ | tunnel _ _ _ _ => exact List.cons_ne_nil _ _

/-- A frame the server receives, on a stream that is not gone. -/
theorem Tracked.machineRecv (h : con.Tracked taken c r sid) (hSid : sid ≠ 0)
    (hSome : (con.stream? sid).isSome) {type : FrameType} (hReset : type ≠ .rstStream)
    (hPush : type ≠ .pushPromise) (flags : UInt8)
    (hHeaders : c.starting = true → (c.hear type flags).starting = false → ∃ list,
      con.get sid Stream.headers = some list ∧
        (c.hear type flags = .ended → isExtendedConnect list = false)) :
    con.Gone taken c r sid ∨ (con.stateMachine .recv type flags sid).Tracked taken (c.hear type flags)
      (if c.starting ∧ ¬ (c.hear type flags).starting then
        (con.stateMachine .recv type flags sid).get sid Stream.headers else r) sid := by
  refine h.stream.imp_right fun hTracks => ?_
  have hTouches := touches_stateMachine (Set.mem_univ sid) con .recv type flags
  obtain ⟨s, hs⟩ := Option.isSome_iff_exists.mp hSome
  rw [hs] at hTracks
  obtain ⟨hState, hPlain⟩ := hTracks.state
  obtain ⟨hStream, hMore⟩ := goes_stateMachine h.type h.preface hSid hs hPlain hState .recv hPush flags
  rw [get_of_some hs] at hHeaders
  refine ⟨hTouches.plain h.plain, hTouches.type.trans h.type, hTouches.preface.trans h.preface, .inr ?_⟩
  rw [hMore, hStream, get_of_some hStream]
  exact hTracks.recv flags sid hReset hHeaders

/-- Where the stream waits for nothing but the rest of a header block it goes on so. -/
theorem Settles.machineRecv (hSettles : con.Settles taken c r sid) (h : con.Tracked taken c r sid)
    (hSid : sid ≠ 0) (hSome : (con.stream? sid).isSome) {type : FrameType}
    (hReset : type ≠ .rstStream) (hPush : type ≠ .pushPromise)
    (hContinuation : type = .continuation → con.Gone taken c r sid ∨ Given c r) (flags : UInt8) :
    (con.stateMachine .recv type flags sid).Tracked taken c r sid := by
  have hTouches := touches_stateMachine (Set.mem_univ sid) con .recv type flags
  by_cases hGone : con.Gone taken c r sid
  · exact h.gone hGone hTouches
  · have hTracks := h.stream.resolve_left hGone
    obtain ⟨s, hs⟩ := Option.isSome_iff_exists.mp hSome
    rw [hs] at hTracks
    obtain ⟨hState, hPlain⟩ := hTracks.state
    obtain ⟨hStream, hMore⟩ := goes_stateMachine h.type h.preface hSid hs hPlain hState .recv hPush flags
    refine h.step hTouches fun _ => .inr ?_
    rw [hMore, hStream]
    have hHandled (hGiven : Given c r) : Tracks c r (some (s.after (s.transition .recv type flags)))
        (con.dispatches sid ++ s.dispatched sid (s.transition .recv type flags)) :=
      hTracks.handled (hTracks.given.mp hGiven) .recv hReset flags sid
    rcases hSettles.resolve_left hGone with hGiven | hPending
    · exact hHandled hGiven
    · by_cases hType : type = .continuation
      · exact hHandled ((hContinuation hType).resolve_left hGone)
      · have hStay : s.transition .recv type flags = .stay := by
          rw [get_of_some hs] at hPending
          obtain ⟨ps, hPending⟩ := Option.isSome_iff_exists.mp hPending
          simp [Stream.transition, hPending, hType]
        rw [hStay, Stream.dispatched, List.append_nil]
        exact hTracks

/-- After a frame the stream is tracked, with the frame or, if it does not count, without it. -/
structure Hears (con' : Connection) (taken : List Frame) (c : ClientSide)
    (r : Option (List Header)) (fh : FrameHeader) (done : Prop) : Prop where
  heard : done → ¬ con'.Reset taken fh.stream →
    con'.Tracked taken (c.hear fh.type fh.flags)
      (if c.starting ∧ ¬ (c.hear fh.type fh.flags).starting then
        con'.get fh.stream Stream.headers else r) fh.stream
  unheard : ¬ done ∨ con'.Reset taken fh.stream → con'.Tracked taken c r fh.stream

theorem Tracked.frameReceive {fh : FrameHeader} (h : con.Tracked taken c r fh.stream)
    (hSid : fh.stream ≠ 0) (hSome : (con.stream? fh.stream).isSome) (ord : HashOrder) {buf : Octets}
    (hPush : fh.type ≠ .pushPromise) (hRegular : con.Regular taken c r fh buf) :
    Hears (con.frameReceive ord fh buf).1 taken c r fh (con.frameReceive ord fh buf).2.isSome := by
  obtain ⟨hPayload, hDecoded⟩ := h.payloadDecode hSid hSome hPush ord buf hRegular.kind
  have hTouches := touches_payloadDecode ord hPush (Set.mem_univ _) (fun _ _ => rfl) con buf
  unfold Connection.frameReceive
  generalize con.payloadDecode ord fh buf = result at hPayload hDecoded hTouches ⊢
  obtain ⟨con₁, _ | len⟩ := result
  · exact ⟨(nomatch ·), fun _ => hPayload⟩
  · have hDecoded := hDecoded rfl
    have hThere := hTouches.streams fh.stream hSome
    dsimp only at hPayload hDecoded hTouches hThere ⊢
    have hMachine := touches_stateMachine (Set.mem_univ fh.stream) con₁ .recv fh.type fh.flags
    refine ⟨fun _ hLives => ?_, fun hReset => ?_⟩
    · have hLives₁ : ¬ con₁.Reset taken fh.stream := mt hMachine.resets hLives
      have hLives₀ : ¬ con.Reset taken fh.stream := mt hTouches.resets hLives₁
      have hNot : fh.type ≠ .rstStream := fun hType => hLives₁ (hDecoded.reset hType)
      refine (hPayload.machineRecv hSid hThere hNot hPush fh.flags ?_).resolve_left
        fun hGone => hLives₁ hGone.reset
      intro hStarting hStarted
      obtain ⟨hType, hEnd⟩ := starting_ends hStarting hStarted
      have hList := (hDecoded.block hType).headers hEnd
      have hSomeList : (con.headersAfter fh buf).isSome := by
        obtain ⟨s, hs⟩ := Option.isSome_iff_exists.mp hSome
        have hTracks := h.stream.resolve_left fun hGone => hLives₀ hGone.reset
        rw [hs] at hTracks
        have hListed := (hTracks.listed hStarting).resolve_left fun hReset =>
          hLives₀ (.inl (by rw [get_of_some hs]; exact hReset))
        rw [headersAfter_eq hs, Stream.listAfter]
        split
        · next hTrailer => exact hListed hTrailer
        · rfl
      obtain ⟨list, hAfter⟩ := Option.isSome_iff_exists.mp hSomeList
      exact ⟨list, hList.trans hAfter, fun hEnded =>
        hRegular.connect hLives₀ hStarting hEnded list hAfter⟩
    · have hAfter := hReset.resolve_left fun hFalse => hFalse rfl
      have hReset₁ := hPayload.reset_stateMachine hSid hThere .recv hPush fh.flags hAfter
      by_cases hType : fh.type = .rstStream
      · rw [hType]
        exact (hPayload.machineReset hSid hThere hReset₁ .recv fh.flags).1
      · have hSettles (hBlock : fh.type = .headers ∨ fh.type = .continuation ∨ fh.type = .data)
            (hReset₀ : con.Reset taken fh.stream) : con₁.Gone taken c r fh.stream ∨ Given c r :=
          (h.given_of_spent (hRegular.live hBlock hReset₀)).imp_left fun hGone =>
            hGone.touches h.plain hTouches
        by_cases hBlock : fh.type = .headers ∨ fh.type = .continuation
        · have hSettled := hSettles (by tauto) ((hDecoded.block hBlock).reset hReset₁)
          have hWhole : con₁.Settles taken c r fh.stream := hSettled.imp_right .inl
          exact hWhole.machineRecv hPayload hSid hThere hType hPush (fun _ => hSettled) fh.flags
        · by_cases hData : fh.type = .data
          · have hWhole : con₁.Settles taken c r fh.stream :=
              (hDecoded.data hData hReset₁).elim
                (fun hReset₀ => (hSettles (by tauto) hReset₀).imp_right .inl) id
            refine hWhole.machineRecv hPayload hSid hThere hType hPush ?_ fh.flags
            exact fun hContinuation => absurd (.inr hContinuation) hBlock
          · have hSame := hear_same c fh.flags ⟨(hBlock <| .inl ·), (hBlock <| .inr ·), hData⟩
            have hRecv := hPayload.machineRecv hSid hThere hType hPush fh.flags ?_
            · rw [hSame, if_neg fun hBoth => hBoth.2 hBoth.1] at hRecv
              exact hRecv.elim (hPayload.gone · hMachine) id
            · intro hStarting hStarted
              rw [hSame, hStarting] at hStarted
              cases hStarted

/-- A stream that the client opens. -/
theorem Tracked.admitted (h : con.Tracked taken .idle none sid) (hNone : con.stream? sid = none) :
    (con.admitted sid).Tracked taken .idle none sid := by
  have hStream : (con.admitted sid).stream? sid =
      some { con.newStreamEntry with cb := requestCallbacks } := stream?_setStream_self ..
  have hEvents : con.dispatches sid = [] := by
    rcases h.stream with hGone | hTracks
    · obtain ⟨s, hs, -⟩ := hGone.spent
      rw [hNone] at hs
      cases hs
    · rw [hNone] at hTracks
      generalize con.dispatches sid = events at hTracks
      cases hTracks
      rfl
  refine ⟨fun other s hs => ?_, h.type, h.preface, .inr ?_⟩
  · have hSet : (con.admitted sid).stream? other =
        if other = sid then some { con.newStreamEntry with cb := requestCallbacks }
        else con.stream? other := stream?_setStream ..
    rw [hSet] at hs
    split at hs
    · cases hs
      exact ⟨rfl, by simp [requestCallbacks]⟩
    · exact h.plain other s hs
  · rw [hStream]
    show Tracks .idle none _ (con.dispatches sid)
    rw [hEvents]
    exact .idle ⟨rfl, (Option.some_ne_none _).symm, rfl⟩ rfl rfl
      (.inr fun hSome => absurd hSome Bool.false_ne_true)

theorem Tracked.frameAdmit {fh : FrameHeader} (h : con.Tracked taken c r fh.stream)
    (hSid : fh.stream ≠ 0) (ord : HashOrder) {buf : Octets} (hPush : fh.type ≠ .pushPromise)
    (hRegular : con.Regular taken c r fh buf) :
    Hears (con.frameAdmit ord fh buf).1 taken c r fh ((con.frameAdmit ord fh buf).2.isSome ∧
      ((con.frameAdmit ord fh buf).1.stream? fh.stream).isSome) := by
  have hReceive {con : Connection} (h : con.Tracked taken c r fh.stream)
      (hSome : (con.stream? fh.stream).isSome) (hRegular : con.Regular taken c r fh buf) :
      Hears (con.frameReceive ord fh buf).1 taken c r fh ((con.frameReceive ord fh buf).2.isSome ∧
        ((con.frameReceive ord fh buf).1.stream? fh.stream).isSome) := by
    have hThere := (keeps_frameReceive ord con fh buf).streams fh.stream hSome
    simp only [hThere, and_true]
    exact h.frameReceive hSid hSome ord hPush hRegular
  cases hs : con.stream? fh.stream with
  | some s =>
      have hSome : (con.stream? fh.stream).isSome := by
        rw [hs]
        rfl
      rw [Connection.frameAdmit, if_neg fun hNew => by simp [hs] at hNew]
      exact hReceive h hSome hRegular
  | none =>
      obtain ⟨rfl, rfl⟩ : c = .idle ∧ r = none := by
        rcases h.stream with hGone | hTracks
        · obtain ⟨s, hSome, -⟩ := hGone.spent
          rw [hs] at hSome
          cases hSome
        · rw [hs] at hTracks
          generalize con.dispatches fh.stream = events at hTracks
          cases hTracks
          exact ⟨rfl, rfl⟩
      rw [Connection.frameAdmit, if_pos ⟨hSid, by rw [hs]; rfl⟩]
      by_cases hBad : con.badPeerStream fh.stream
      · rw [show con.newPeerStream fh.stream = _ from if_pos hBad]
        have hAbsent : (con.setError .protocolError).stream? fh.stream = none := by
          rw [stream?_setError, hs]
        refine ⟨fun hDone => ?_, fun _ => h.quiet (touches_setError ..)⟩
        simp [hAbsent] at hDone
      · by_cases hFull : con.peerStreamsFull
        · rw [show con.newPeerStream fh.stream = _ from (if_neg hBad).trans (if_pos hFull)]
          have hLast : Touches ∅ con (con.setLastPeerStream fh.stream) :=
            touches_of_streams rfl (fun _ => rfl) rfl rfl fun _ h => h
          have hRefused := ((h.quiet hLast).streamError hSid .refusedStream).1
          refine ⟨fun _ hLives => ?_, fun _ => hRefused⟩
          exact absurd (reset_streamError ..) hLives
        · rw [show con.newPeerStream fh.stream = _ from (if_neg hBad).trans (if_neg hFull)]
          have hTracked := h.admitted hs
          have hStream : (con.admitted fh.stream).stream? fh.stream =
              some { con.newStreamEntry with cb := requestCallbacks } := stream?_setStream_self ..
          have hReset : (con.admitted fh.stream).Reset taken fh.stream ↔ con.Reset taken fh.stream := by
            unfold Reset
            rw [get_of_some hStream, get_of_none hs]
            rfl
          have hList : (con.admitted fh.stream).headersAfter fh buf = con.headersAfter fh buf := by
            unfold headersAfter
            rw [get_of_some hStream, get_of_some hStream, get_of_none hs, get_of_none hs]
            rfl
          refine hReceive hTracked (by rw [hStream]; rfl) ⟨?_, fun _ _ hOpened => ?_, fun hType hBefore => ?_⟩
          · rw [hReset, hList]
            exact hRegular.connect
          · rw [get_of_some hStream] at hOpened
            cases hOpened
          · refine (hRegular.live hType (hReset.mp hBefore)).imp id ?_
            rintro ⟨s, hSome, -⟩
            rw [hs] at hSome
            cases hSome

/-- A frame in turn, on any other stream. -/
theorem touches_frameAdmit (ord : HashOrder) {fh : FrameHeader} (hPush : fh.type ≠ .pushPromise)
    (hSid : fh.stream ≠ 0 ∨ fh.type ≠ .windowUpdate) (con : Connection) (buf : Octets) :
    Touches {fh.stream} con (con.frameAdmit ord fh buf).1 := by
  have hReceive (con : Connection) : Touches {fh.stream} con (con.frameReceive ord fh buf).1 := by
    have hPayload : Touches {fh.stream} con (con.payloadDecode ord fh buf).1 :=
      touches_payloadDecode ord hPush (Set.mem_singleton _)
        (fun hType hZero => hSid.elim (absurd hZero) (absurd hType)) con buf
    unfold Connection.frameReceive
    generalize con.payloadDecode ord fh buf = result at hPayload ⊢
    obtain ⟨con₁, _ | len⟩ := result
    · exact hPayload
    · exact hPayload.trans (touches_stateMachine (Set.mem_singleton _) ..)
  unfold Connection.frameAdmit
  split
  · next hNew =>
      have hPeer : Touches {fh.stream} con (con.newPeerStream fh.stream).1 :=
        touches_newPeerStream (Set.mem_singleton _) (by simpa using hNew.2)
      generalize con.newPeerStream fh.stream = result at hPeer ⊢
      obtain ⟨con₁, ok⟩ := result
      cases ok with
      | false => exact hPeer
      | true => exact hPeer.trans (hReceive con₁)
  · exact hReceive con

/-- WINDOW_UPDATE for the connection: data that waits goes out on all streams. -/
theorem Tracked.frameAdmit_zero {fh : FrameHeader} (h : con.Tracked taken c r sid) (hSid : sid ≠ 0)
    (hZero : fh.stream = 0) (hType : fh.type = .windowUpdate) (ord : HashOrder) (buf : Octets) :
    (con.frameAdmit ord fh buf).1.Tracked taken c r sid := by
  have hPayload : (con.windowUpdateDecode ord fh buf).1.Tracked taken c r sid := by
    unfold Connection.windowUpdateDecode
    dsimp only
    rw [if_pos hZero]
    repeat' split
    · exact h.quiet (touches_setError ..)
    · exact h.quiet (touches_setError ..)
    · exact h.quiet ((touches_addFcwSend ..).trans (touches_setError ..))
    · exact (h.quiet (touches_addFcwSend ..)).sendBlocked hSid ord
  rw [Connection.frameAdmit, if_neg fun hNew => hNew.1 hZero]
  unfold Connection.frameReceive Connection.payloadDecode
  rw [hType, hZero]
  dsimp only
  generalize con.windowUpdateDecode ord fh buf = result at hPayload ⊢
  obtain ⟨con₁, _ | len⟩ := result
  · exact hPayload
  · have hMachine : con₁.stateMachine .recv .windowUpdate fh.flags 0 = con₁ := if_pos (.inl rfl)
    dsimp only
    rw [hMachine]
    exact hPayload

end Connection

/-! ### Runs that keep track of all streams -/

namespace Dispatching

variable {f : Dispatching}

/-- The connection keeps track of every stream. -/
def Inv (f : Dispatching) : Prop :=
  ∀ sid, sid ≠ 0 → f.flow.con.Tracked f.flow.taken (f.client sid) (f.requested sid) sid

theorem Inv.once (h : f.Inv) : f.Once := fun sid hSid => (h sid hSid).due

theorem inv_start (given : Settings) : (start given).Inv :=
  fun _ _ => ⟨fun _ _ hs => (nomatch hs), rfl, rfl, .inr .absent⟩

theorem hear_eq_self {fh : FrameHeader}
    (hSame : (f.client fh.stream).hear fh.type fh.flags = f.client fh.stream) : f.hear fh = f := by
  unfold hear
  dsimp only
  rw [hSame, if_neg fun hBoth => hBoth.2 hBoth.1, Function.update_eq_self]

/-- A frame that counts moves the client of its own stream. -/
theorem inv_hear {fh : FrameHeader} (hOther : ∀ sid, sid ≠ 0 → sid ≠ fh.stream →
      f.flow.con.Tracked f.flow.taken (f.client sid) (f.requested sid) sid)
    (hOwn : fh.stream ≠ 0 → f.flow.con.Tracked f.flow.taken
      ((f.client fh.stream).hear fh.type fh.flags)
      (if (f.client fh.stream).starting ∧ ¬ ((f.client fh.stream).hear fh.type fh.flags).starting
        then f.flow.con.get fh.stream Stream.headers else f.requested fh.stream) fh.stream) :
    (f.hear fh).Inv := by
  intro sid hSid
  unfold hear
  dsimp only
  by_cases hStream : sid = fh.stream
  · subst hStream
    rw [Function.update_self]
    have hTracked := hOwn hSid
    split at hTracked
    · next hBoth =>
        rw [if_pos hBoth, Function.update_self]
        exact hTracked
    · next hNot =>
        rw [if_neg hNot]
        exact hTracked
  · rw [Function.update_of_ne hStream]
    split
    · rw [Function.update_of_ne hStream]
      exact hOther sid hSid hStream
    · exact hOther sid hSid hStream

theorem Inv.recv (h : f.Inv) {ord : HashOrder} {buf : Octets}
    (hRegular : (HandlerEvent.flow (.recv ord buf)).Regular f) :
    (f.step (.flow (.recv ord buf))).Inv := by
  have hTaken : (f.flow.handle (.flow (.recv ord buf))).taken = f.flow.taken := by
    show (f.flow.step (.recv ord buf)).taken = _
    unfold Flow.step
    dsimp only
    split <;> rfl
  have hCon : (f.flow.handle (.flow (.recv ord buf))).con = (f.flow.con.frameDecode ord buf).1 := rfl
  unfold step
  dsimp only
  generalize f.flow.handle (.flow (.recv ord buf)) = flow' at hTaken hCon ⊢
  cases hTurn : f.flow.con.inTurn buf with
  | none =>
      refine fun sid hSid => ?_
      dsimp only
      rw [hTaken, hCon]
      rcases frameDecode_idle hTurn ord with hSame | ⟨code, hSame⟩ <;> rw [hSame]
      · exact h sid hSid
      · exact (h sid hSid).quiet (touches_setError ..)
  | some turn =>
      obtain ⟨fh, payload⟩ := turn
      obtain ⟨hPush, hRegular⟩ := hRegular fh payload hTurn
      rcases frameDecode_inTurn hTurn ord with ⟨⟨code, hUnknown⟩, hStays⟩ | hAdmit
      · -- a frame of unknown type is skipped
        have hInv : Inv { f with flow := flow' } := by
          intro sid hSid
          dsimp only
          rw [hTaken, hCon, hStays]
          exact h sid hSid
        have hSame : ({ f with flow := flow' } : Dispatching).hear fh = { f with flow := flow' } := by
          refine hear_eq_self (hear_same _ fh.flags ?_)
          rw [hUnknown]
          exact ⟨nofun, nofun, nofun⟩
        cases (f.flow.con.frameDecode ord buf).2 with
        | none => exact hInv
        | some len =>
            dsimp only
            rw [hSame, ite_self]
            exact hInv
      · rw [hAdmit] at hCon ⊢
        have hOther (sid : Nat) (hSid : sid ≠ 0) (hNe : sid ≠ fh.stream) :
            flow'.con.Tracked flow'.taken (f.client sid) (f.requested sid) sid := by
          rw [hTaken, hCon]
          by_cases hWindow : fh.stream = 0 ∧ fh.type = .windowUpdate
          · exact (h sid hSid).frameAdmit_zero hSid hWindow.1 hWindow.2 ord payload
          · refine (h sid hSid).touches (touches_frameAdmit ord hPush ?_ _ payload) hNe
            exact not_and_or.mp hWindow
        have hOwn (hSid : fh.stream ≠ 0) := (h fh.stream hSid).frameAdmit hSid ord hPush (hRegular hSid)
        rw [← hCon, ← hTaken] at hOwn
        have hUnheard (hNot : fh.stream ≠ 0 → ¬ ((f.flow.con.frameAdmit ord fh payload).2.isSome ∧
            (flow'.con.stream? fh.stream).isSome) ∨ flow'.con.Reset flow'.taken fh.stream) :
            Inv { f with flow := flow' } := by
          intro sid hSid
          by_cases hStream : sid = fh.stream
          · subst hStream
            exact (hOwn hSid).unheard (hNot hSid)
          · exact hOther sid hSid hStream
        cases hDone : (f.flow.con.frameAdmit ord fh payload).2 with
        | none => exact hUnheard fun _ => .inl fun hBoth => by simp [hDone] at hBoth
        | some len =>
            dsimp only
            split
            · next hCounts =>
                exact inv_hear hOther fun hSid =>
                  (hOwn hSid).heard ⟨by rw [hDone]; rfl, hCounts.1⟩ hCounts.2
            · next hNot =>
                refine hUnheard fun _ => ?_
                by_contra hBoth
                rw [not_or, not_not] at hBoth
                exact hNot ⟨hBoth.1.2, hBoth.2⟩

/-- A step that the client has no part in. -/
theorem Inv.update (h : f.Inv) {event : HandlerEvent}
    (hStep : f.step event = { f with flow := f.flow.handle event })
    (hTracked : ∀ sid, sid ≠ 0 → f.flow.con.Tracked f.flow.taken (f.client sid) (f.requested sid) sid →
      (f.flow.handle event).con.Tracked (f.flow.handle event).taken (f.client sid) (f.requested sid) sid) :
    (f.step event).Inv := by
  rw [hStep]
  exact fun sid hSid => hTracked sid hSid (h sid hSid)

/-- What the answers of the application find. -/
theorem Answers.finds {sid : Nat} {ended : Bool} (hAnswers : f.Answers sid ended)
    (h : f.flow.con.Tracked f.flow.taken (f.client sid) (f.requested sid) sid) :
    f.flow.con.Gone f.flow.taken (f.client sid) (f.requested sid) sid ∨
      (f.flow.con.stream? sid).isSome ∧ (Given (f.client sid) (f.requested sid) ∨
        (f.client sid).isOpen = true ∧ ended = false) := by
  refine h.stream.imp_right fun hTracks => ?_
  unfold Answers at hAnswers
  refine ⟨?_, hAnswers.imp_left hTracks.given.mpr⟩
  generalize f.flow.con.dispatches sid = events at hAnswers hTracks
  generalize f.client sid = c at hAnswers hTracks
  cases hs : f.flow.con.stream? sid with
  | some s => rfl
  | none =>
      rw [hs] at hTracks
      generalize f.requested sid = r at hTracks
      cases hTracks
      rcases hAnswers with hEvents | ⟨hOpen, -⟩
      · exact absurd rfl hEvents
      · cases hOpen

theorem Inv.step (h : f.Inv) {event : HandlerEvent} (hRegular : event.Regular f) :
    (f.step event).Inv := by
  cases event with
  | flow event =>
      cases event with
      | recv ord buf => exact h.recv hRegular
      | sendHeaders on headers ended =>
          refine h.update rfl fun sid hSid hTracked => ?_
          by_cases hOn : sid = on
          · subst hOn
            rcases Answers.finds hRegular hTracked with hGone | ⟨hSome, hFree⟩
            · exact hTracked.gone hGone (touches_sendHeaders (Set.mem_univ sid) ..)
            · exact hTracked.sendHeaders hSid hSome headers ended hFree
          · exact hTracked.touches (touches_sendHeaders (Set.mem_singleton on) ..) hOn
      | sendData on chunk ended =>
          refine h.update rfl fun sid hSid hTracked => ?_
          by_cases hOn : sid = on
          · subst hOn
            rcases Answers.finds hRegular hTracked with hGone | ⟨hSome, hFree⟩
            · exact hTracked.gone hGone (touches_sendData (Set.mem_univ sid) ..)
            · refine hTracked.sendData hSid hSome chunk ended fun hEnded => ?_
              rw [hEnded] at hFree
              exact hFree.resolve_right fun hBoth => Bool.noConfusion hBoth.2
          · exact hTracked.touches (touches_sendData (Set.mem_singleton on) ..) hOn
      | dequeue =>
          refine h.update rfl fun sid _ hTracked => ?_
          have hFrames : (f.flow.taken ++ f.flow.con.queue.take 1) ++ f.flow.con.queue.tail =
              f.flow.taken ++ f.flow.con.queue := by
            rw [List.append_assoc, ← List.drop_one, List.take_append_drop]
          refine ⟨hTracked.plain, hTracked.type, hTracked.preface, hTracked.stream.imp_left fun hGone => ?_⟩
          refine ⟨?_, hGone.spent, hGone.due⟩
          show _ ∨ sid ∈ resetStreams ((f.flow.taken ++ f.flow.con.queue.take 1) ++ f.flow.con.queue.tail)
          rw [hFrames]
          exact hGone.reset
  | onData on =>
      refine h.update rfl fun sid _ hTracked => hTracked.quiet ?_
      exact touches_modifyStream_shown (by exact fun _ => rfl) ..
  | ping payload =>
      refine h.update rfl fun sid _ hTracked => hTracked.quiet ?_
      exact touches_enqueue_zero _ (by exact nofun) _

end Dispatching

/-- In every run of a server connection whose frames are regular and whose application
answers what it was given, each request has been dispatched when it must be, and once. -/
theorem dispatched_once (given : Settings) {f : Dispatching}
    (h : Reached Dispatching.step (fun f event => event.Regular f) (.start given) f) : f.Once :=
  (Reached.invariant (Dispatching.inv_start given) (fun _ _ hInv hRegular => hInv.step hRegular) h).once

/-- A frame on a stream that was not reset and is not open, with the list of an ordinary
request. -/
theorem regular_recv {f : Dispatching} {ord : HashOrder} {buf payload : Octets} {fh : FrameHeader}
    (hTurn : f.flow.con.inTurn buf = some (fh, payload)) (hPush : fh.type ≠ .pushPromise)
    (hConnect : (f.flow.con.headersAfter fh payload).all (! isExtendedConnect ·) = true)
    (hState : f.flow.con.get fh.stream Stream.state ≠ some .opened)
    (hLives : ¬ f.flow.con.Reset f.flow.taken fh.stream) :
    (HandlerEvent.flow (.recv ord buf)).Regular f := by
  intro fh' payload' hTurn'
  rw [hTurn] at hTurn'
  cases hTurn'
  refine ⟨hPush, fun _ => ⟨fun _ _ _ h hMem => ?_, fun _ _ hOpened => absurd hOpened hState,
    fun _ hReset => absurd hReset hLives⟩⟩
  rw [Option.mem_def.mp hMem] at hConnect
  simpa using hConnect

/-- A request that is answered. -/
def answeredRequest : Dispatching :=
  runEvents Dispatching.step (.start ∅) [.flow (.recv .kept requestFrame),
    .flow (.sendHeaders 1 [(octets ":status", octets "200")] true)]

/-- An answered request has been dispatched once. -/
theorem dispatched_once_answered : answeredRequest.Once := by
  refine dispatched_once ∅ (Reached.next
    (HandlerEvent.flow (.sendHeaders 1 [(octets ":status", octets "200")] true))
    (.next (HandlerEvent.flow (.recv .kept requestFrame)) .start ?_) ?_)
  · refine @regular_recv _ _ _ (requestFrame.drop 9) (frameHeaderDecode requestFrame) ?_ ?_ ?_ ?_ ?_
    all_goals decide +kernel
  · refine .inl ?_
    decide +kernel

/-- The settings of a server that takes extended CONNECT. -/
def connectSettings : Settings := List.toAList [⟨Setting.enableConnectProtocol, 1⟩]

/-- An extended CONNECT on stream 1 that ends with its header block. -/
def connectFrame : Octets :=
  [0, 0, 35, 1, 5, 0, 0, 0, 1, 0x02, 7] ++ octets "CONNECT" ++ [0x87, 0x01, 1] ++ octets "a" ++
    [0x84, 0x00, 9] ++ octets ":protocol" ++ [9] ++ octets "websocket"

/-- Neither callback takes the extended CONNECT: the stream is never open, and when it is half
closed the callback for ordinary requests passes it over. -/
theorem connect_undispatched :
    ¬ (runEvents Dispatching.step (.start connectSettings) [.flow (.recv .kept connectFrame)]).Once :=
  fun h => absurd (h 1 (by decide)) (by decide +kernel)

end PageCamel.Http2

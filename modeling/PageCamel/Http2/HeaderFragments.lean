import PageCamel.Http2.FeedProgress

/-!
Header blocks in several frames. The decoders of HEADERS and CONTINUATION both
store their fragment as the block of the stream (`stream_header_block` with a
value), so when END_HEADERS comes only the last fragment is decoded. And only a
HEADERS frame that changes the state of its stream makes the connection wait for
CONTINUATION frames. A split block is received like a whole one exactly when
neither makes a difference.
-/

namespace PageCamel.Http2
open PageCamel.Lib Connection

/-! ### Frames of a block -/

/-- What comes with the fragment in a HEADERS frame: END_STREAM, the number of
padding octets, and dependency and weight in five octets. -/
structure HeadersShape where
  endStream : Bool
  padding : Option UInt8 := none
  priority : Option (UInt8 × UInt8 × UInt8 × UInt8 × UInt8) := none

namespace HeadersShape

def prioritySection (shape : HeadersShape) : Octets :=
  match shape.priority with
  | some (a, b, c, d, weight) => [a, b, c, d, weight]
  | none => []

def flags (shape : HeadersShape) (endHeaders : Bool) : UInt8 :=
  (if shape.endStream then Flag.endStream else 0) ||| (if endHeaders then Flag.endHeaders else 0) |||
    (if shape.padding.isSome then Flag.padded else 0) |||
    (if shape.priority.isSome then Flag.priority else 0)

def payload (shape : HeadersShape) (fragment : Octets) : Octets :=
  shape.padding.toList ++ (shape.prioritySection ++ (fragment ++
    List.replicate (shape.padding.getD 0).toNat 0))

/-- The stream the new one is to depend on. -/
def dependency (shape : HeadersShape) : Nat := unpack32 shape.prioritySection &&& 0x7FFFFFFF

def header (shape : HeadersShape) (sid : Nat) (endHeaders : Bool) (fragment : Octets) :
    FrameHeader :=
  ⟨(shape.payload fragment).length, .headers, shape.flags endHeaders, sid⟩

variable (shape : HeadersShape) (sid : Nat) (endHeaders : Bool) (fragment : Octets)

theorem hasFlag_flags :
    hasFlag (shape.flags endHeaders) Flag.endStream = shape.endStream ∧
      hasFlag (shape.flags endHeaders) Flag.endHeaders = endHeaders ∧
      hasFlag (shape.flags endHeaders) Flag.padded = shape.padding.isSome ∧
      hasFlag (shape.flags endHeaders) Flag.priority = shape.priority.isSome := by
  unfold flags
  cases shape.endStream <;> cases endHeaders <;> cases shape.padding.isSome <;>
    cases shape.priority.isSome <;> decide

theorem padOffset_header : padOffset (shape.header sid endHeaders fragment) =
    shape.padding.toList.length := by
  have hFlag := (shape.hasFlag_flags endHeaders).2.2.1
  simp only [padOffset, header, hFlag]
  cases shape.padding <;> rfl

theorem headersOffset_header : headersOffset (shape.header sid endHeaders fragment) =
    shape.padding.toList.length + shape.prioritySection.length := by
  have hFlag := (shape.hasFlag_flags endHeaders).2.2.2
  rw [headersOffset, padOffset_header]
  simp only [header, hFlag, prioritySection]
  rcases shape.priority with _ | ⟨a, b, c, d, weight⟩ <;> rfl

theorem padSize_header : padSize (shape.header sid endHeaders fragment) (shape.payload fragment) =
    (shape.padding.getD 0).toNat := by
  have hFlag := (shape.hasFlag_flags endHeaders).2.2.1
  simp only [padSize, header, hFlag, payload]
  cases shape.padding <;> simp [unpack8]

theorem length_payload : (shape.payload fragment).length =
    shape.padding.toList.length + shape.prioritySection.length + fragment.length +
      (shape.padding.getD 0).toNat := by
  simp only [payload, List.length_append, List.length_replicate]
  omega

/-- The decoder finds the fragment between the priority and the padding. -/
theorem headersBlock_header :
    headersBlock (shape.header sid endHeaders fragment) (shape.payload fragment) = fragment := by
  have hLength := shape.length_payload fragment
  rw [headersBlock, headersOffset_header, padSize_header]
  have hSize : (shape.header sid endHeaders fragment).length -
      (shape.padding.toList.length + shape.prioritySection.length) -
      (shape.padding.getD 0).toNat = fragment.length := by
    simp only [header]
    omega
  rw [hSize, payload, ← List.append_assoc, ← List.length_append, List.drop_left, List.take_left]

end HeadersShape

def continuationHeader (sid : Nat) (endHeaders : Bool) (fragment : Octets) : FrameHeader :=
  ⟨fragment.length, .continuation, if endHeaders then Flag.endHeaders else 0, sid⟩

/-- The CONTINUATION frames of the fragments that follow the first one. -/
def continuations (sid : Nat) : List Octets → List (FrameHeader × Octets)
  | [] => []
  | fragment :: rest =>
      (continuationHeader sid (rest = []) fragment, fragment) :: continuations sid rest

/-- The frames of a block that is cut into fragments. -/
def blockFrames (shape : HeadersShape) (sid : Nat) (first : Octets) (rest : List Octets) :
    List (FrameHeader × Octets) :=
  (shape.header sid (rest = []) first, shape.payload first) :: continuations sid rest

/-- The frames are received one after another until one of them yields `undef`. -/
def receiveFrames (ord : HashOrder) : Connection → List (FrameHeader × Octets) → Connection
  | con, [] => con
  | con, (fh, payload) :: frames =>
      match con.frameApply ord fh payload with
      | (con, some _) => receiveFrames ord con frames
      | (con, none) => con

/-- The connection when the payload of a frame is decoded and the state machine
has not acted yet. -/
def Connection.frameDecoded (ord : HashOrder) (con : Connection) (fh : FrameHeader) (buf : Octets) :
    Connection :=
  if fh.stream ≠ 0 ∧ (con.stream? fh.stream).isNone then
    match con.newPeerStream fh.stream with
    | (con, true) => (con.payloadDecode ord fh buf).1
    | (con, false) => con
  else (con.payloadDecode ord fh buf).1

def Connection.headerLists (con : Connection) (sid : Nat) :
    Option (List Header) × Option (List Header) :=
  (con.get sid Stream.headers, con.get sid Stream.trailerHeaders)

/-- The header list and the trailers that the frames of a block bring, if each of
them is taken and the connection goes on: what the callbacks for the new state of
the stream find, which run before a stream that closes is cleaned up. -/
def delivered (ord : HashOrder) (sid : Nat) : Connection → List (FrameHeader × Octets) →
    Option (List Header) × Option (List Header)
  | _, [] => (none, none)
  | con, (fh, payload) :: frames =>
      match con.frameApply ord fh payload with
      | (_, none) => (none, none)
      | (con', some _) =>
          if frames ≠ [] then delivered ord sid con' frames
          else if con'.shutdown then (none, none)
          else (con.frameDecoded ord fh payload).headerLists sid

/-! ### What a block comes to -/

/-- What decoding and checking the block alone comes to: the header list, if it is
accepted, and the table of the decoder. -/
def blockResult (con : Connection) (sid : Nat) (block : Octets) : Option (List Header) × Context :=
  match headersDecode con.decodeCtx block with
  | (decodeCtx, .done) =>
      (if (con.setDecodeCtx decodeCtx).refusesList sid then none else some decodeCtx.emittedHeaders,
        decodeCtx.toContext)
  | (decodeCtx, _) => (none, decodeCtx.toContext)

/-- The trailers that the stream announces, or the block does. -/
def announced (con : Connection) (sid : Nat) (block : Octets) : Option (List Octets) :=
  let con' := con.setDecodeCtx (headersDecode con.decodeCtx block).1
  (con'.validation con'.decodeCtx.emittedHeaders sid (con'.isResponse sid)).trailer <|>
    con.get sid Stream.trailer

/-- Where an accepted list goes. -/
def stored (s : Stream) : Option (List Header) → Option (List Header) × Option (List Header)
  | none => (none, none)
  | some eh => if s.trailer.isSome then (s.headers, some eh) else (some eh, s.trailerHeaders)

theorem stored_injective (s : Stream) {result result' : Option (List Header)} :
    stored s result = stored s result' ↔ result = result' := by
  cases result <;> cases result' <;> simp only [stored] <;> split <;> simp

/-- The fields of the stream that a fragment must not touch. -/
def Stream.lists (s : Stream) : Option (List Octets) × Option (List Header) × Option (List Header) :=
  (s.trailer, s.headers, s.trailerHeaders)

theorem stored_congr {s s' : Stream} (h : s'.lists = s.lists) : stored s' = stored s := by
  simp only [Stream.lists, Prod.mk.injEq] at h
  funext result
  cases result with
  | none => rfl
  | some eh => simp only [stored, h]

/-! ### Streams between two frames -/

/-- The stream is there, and no promise is under way on it. -/
structure Present (con : Connection) (sid : Nat) (s : Stream) : Prop where
  preface : con.preface = true
  nonzero : sid ≠ 0
  stream : con.stream? sid = some s
  promisedSid : s.promisedSid = none

/-- Two moments of a block: nothing that has to do with its result has changed. -/
structure Kept (con con' : Connection) (s s' : Stream) : Prop where
  type : con'.type = con.type
  decodeCtx : con'.decodeCtx = con.decodeCtx
  lists : s'.lists = s.lists

theorem Kept.refl (con : Connection) (s : Stream) : Kept con con s s := ⟨rfl, rfl, rfl⟩

theorem Kept.trans {con con' con'' : Connection} {s s' s'' : Stream} (h : Kept con con' s s')
    (h' : Kept con' con'' s' s'') : Kept con con'' s s'' :=
  ⟨h'.type.trans h.type, h'.decodeCtx.trans h.decodeCtx, h'.lists.trans h.lists⟩

namespace Present

variable {con con' : Connection} {sid : Nat} {s s' : Stream}

theorem setDecodeCtx (h : Present con sid s) (decodeCtx : DecodeContext) :
    Present (con.setDecodeCtx decodeCtx) sid s :=
  ⟨h.preface, h.nonzero, h.stream, h.promisedSid⟩

theorem get_promisedSid (h : Present con sid s) : con.get sid Stream.promisedSid = none :=
  (get_of_some h.stream _).trans h.promisedSid

theorem get_trailer (h : Present con sid s) : con.get sid Stream.trailer = s.trailer :=
  get_of_some h.stream _

/-- The checks of a list that is there are the same at both moments. -/
theorem validation (h : Present con sid s) (h' : Present con' sid s') (hType : con'.type = con.type)
    (hTrailer : s'.trailer = s.trailer) (decodeCtx : DecodeContext) (headers : List Header) :
    (con'.setDecodeCtx decodeCtx).validation headers sid
        ((con'.setDecodeCtx decodeCtx).isResponse sid) =
      (con.setDecodeCtx decodeCtx).validation headers sid
        ((con.setDecodeCtx decodeCtx).isResponse sid) := by
  have hGet := (h.setDecodeCtx decodeCtx).get_promisedSid
  have hGet' := (h'.setDecodeCtx decodeCtx).get_promisedSid
  have hTrail := (h.setDecodeCtx decodeCtx).get_trailer
  have hTrail' := (h'.setDecodeCtx decodeCtx).get_trailer
  have hEndpoint : (con'.setDecodeCtx decodeCtx).type = (con.setDecodeCtx decodeCtx).type := hType
  simp only [Connection.validation, Connection.isResponse, Connection.decSetting, hGet, hGet', hTrail,
    hTrail', hTrailer, hEndpoint]
  rfl

theorem blockResult_eq (h : Present con sid s) (h' : Present con' sid s') (hKept : Kept con con' s s') :
    blockResult con' sid = blockResult con sid := by
  have hTrailer : s'.trailer = s.trailer := congrArg Prod.fst hKept.lists
  funext block
  simp only [blockResult, Connection.refusesList, hKept.decodeCtx,
    h.validation h' hKept.type hTrailer]
  rfl

theorem announced_eq (h : Present con sid s) (h' : Present con' sid s') (hKept : Kept con con' s s') :
    announced con' sid = announced con sid := by
  have hTrailer : s'.trailer = s.trailer := congrArg Prod.fst hKept.lists
  funext block
  simp only [announced, hKept.decodeCtx, h.validation h' hKept.type hTrailer, h.get_trailer,
    h'.get_trailer, hTrailer]
  rfl

theorem modifyStream {f : Stream → Stream} (h : Present con sid s)
    (hPromised : (f s).promisedSid = s.promisedSid) : Present (con.modifyStream sid f) sid (f s) where
  preface := by simpa using h.preface
  nonzero := h.nonzero
  stream := by simp [h.stream]
  promisedSid := hPromised.trans h.promisedSid

theorem setHeaderBlock (h : Present con sid s) (block : Octets) :
    Present (con.setHeaderBlock sid block) sid (s.setHeaderBlock block) :=
  h.modifyStream (f := Stream.setHeaderBlock block) rfl

theorem setError (h : Present con sid s) (code : ErrorCode) : Present (con.setError code) sid s :=
  ⟨(quiet_setError con code).preface.trans h.preface, h.nonzero, by simp [h.stream],
    h.promisedSid⟩

theorem setPendingState (h : Present con sid s) (pending : Option StreamState) :
    Present (con.setPendingState sid pending) sid (s.setPending pending) :=
  ⟨(quiet_setPendingState con sid pending).preface.trans h.preface, h.nonzero,
    stream?_setPendingState h.stream pending, h.promisedSid⟩

/-- The state machine on such a stream. -/
theorem stateMachine (h : Present con sid s) (type : FrameType) (flags : UInt8)
    (hType : type = .headers ∨ type = .continuation) :
    con.stateMachine .recv type flags sid =
      match s.pendingState with
      | some ps =>
          if type ≠ .continuation then con.setError .protocolError
          else if hasFlag flags Flag.endHeaders then (con.setPendingState sid none).setState sid ps
          else con
      | none =>
          if type = .continuation then con.setError .protocolError
          else con.stateStep .recv type flags sid none s.state := by
  rcases hType with rfl | rfl <;> cases hPending : s.pendingState <;>
    simp [Connection.stateMachine, h.nonzero, h.preface, get_of_some h.stream,
      h.promisedSid, vivify_of_some h.stream, hPending]

end Present

/-! ### The end of a block -/

/-- The end of a block that comes to `result`. -/
structure BlockRead (con : Connection) (sid : Nat) (s : Stream)
    (result : Option (List Header) × Context) (trailer : Option (List Octets))
    (r : Connection × Bool) : Prop where
  context : r.1.decodeCtx.toContext = result.2
  refused : result.1 = none → r.2 = false
  accepted : result.1.isSome → r.2 = true ∧ r.1.shutdown = con.shutdown ∧ r.1.type = con.type ∧
    r.1.pendingStream = con.pendingStream ∧ ∃ s', Present r.1 sid s' ∧ s'.state = s.state ∧
      s'.pendingState = s.pendingState ∧ s'.trailer = trailer ∧
      (s'.headers, s'.trailerHeaders) = stored s result.1

namespace Present

variable {con con' : Connection} {sid : Nat} {s s' : Stream}

theorem decodeCtx_streamError (con : Connection) (sid : Nat) (code : ErrorCode) :
    (con.streamError sid code).decodeCtx = con.decodeCtx := by
  refine (quiet_stateMachine _ _ _ _ _).decodeCtx.trans ?_
  simp [Connection.push, Connection.encodeEffect]

theorem setDecodeCtx_self {decodeCtx : DecodeContext} (h : con.decodeCtx = decodeCtx) :
    con.setDecodeCtx decodeCtx = con := by
  subst h
  rfl

/-- The second half of `stream_headers_done`. -/
theorem headersDecoded (h : Present con sid s) :
    BlockRead con sid s
      (if con.refusesList sid then none else some con.decodeCtx.emittedHeaders,
        con.decodeCtx.toContext)
      ((con.validation con.decodeCtx.emittedHeaders sid (con.isResponse sid)).trailer <|> s.trailer)
      (con.headersDecoded sid) := by
  have hPromised := h.get_promisedSid
  have hTrailer := h.get_trailer
  obtain ⟨c, hc⟩ : ∃ c, c = con.validation con.decodeCtx.emittedHeaders sid (con.isResponse sid) :=
    ⟨_, rfl⟩
  have hAnnounce : Present (con.announce sid c) sid (s.announce c) :=
    h.modifyStream (f := Stream.announce c) rfl
  cases hAccepted : c.accepted with
  | false =>
      simp only [Connection.headersDecoded, Connection.validateHeaders, Connection.refusesList, ← hc,
        hAccepted]
      refine ⟨?_, fun _ => rfl, by simp⟩
      simp [decodeCtx_streamError, Connection.announce]
  | true =>
      simp only [Connection.headersDecoded, Connection.validateHeaders, Connection.refusesList, ← hc,
        hAccepted, hPromised, hTrailer]
      refine ⟨by simp [Connection.clearEmitted, Connection.setDecodeCtx, Connection.storeHeaders,
        Connection.announce], by simp, ?_⟩
      have hStore := hAnnounce.modifyStream
        (f := Stream.store s.trailer.isSome con.decodeCtx.emittedHeaders)
        (by unfold Stream.store; split <;> rfl)
      refine fun _ => ⟨rfl, ?_, ?_, ?_, _, hStore.setDecodeCtx _, ?_, ?_, ?_, ?_⟩
      · simp [Connection.clearEmitted, Connection.storeHeaders, Connection.setDecodeCtx]
      · simp [Connection.clearEmitted, Connection.storeHeaders, Connection.setDecodeCtx,
          Connection.announce]
      · simp [Connection.clearEmitted, Connection.storeHeaders, Connection.setDecodeCtx,
          Connection.announce]
      · unfold Stream.store; split <;> rfl
      · unfold Stream.store; split <;> rfl
      · unfold Stream.store; split <;> rfl
      · unfold Stream.store stored; split <;> simp_all [Stream.announce]

theorem streamHeadersDone (h : Present con sid s) {block : Octets}
    (hBlock : s.headerBlock = some block) :
    BlockRead con sid s (blockResult con sid block) (announced con sid block)
      (con.streamHeadersDone sid) := by
  simp only [Connection.streamHeadersDone, h.stream, hBlock, Option.getD_some,
    Connection.decodeBlock, blockResult, announced]
  rcases headersDecode con.decodeCtx block with ⟨decodeCtx, result⟩
  cases result with
  | conError code =>
      exact ⟨congrArg _ (quiet_setError _ code).decodeCtx, fun _ => rfl, by simp⟩
  | streamError code =>
      exact ⟨congrArg _ (decodeCtx_streamError _ sid code), fun _ => rfl, by simp⟩
  | done =>
      have hCtx := h.setDecodeCtx decodeCtx
      have hClear := hCtx.setHeaderBlock []
      have hDone := hClear.headersDecoded
      have hSame : ((con.setDecodeCtx decodeCtx).setHeaderBlock sid []).decodeCtx = decodeCtx := by
        simp [Connection.setHeaderBlock, Connection.setDecodeCtx]
      have hIdle : ((con.setDecodeCtx decodeCtx).setHeaderBlock sid []).setDecodeCtx decodeCtx =
          (con.setDecodeCtx decodeCtx).setHeaderBlock sid [] := setDecodeCtx_self hSame
      have hChecks := h.validation hClear (by simp [Connection.setHeaderBlock, Connection.setDecodeCtx])
        rfl decodeCtx decodeCtx.emittedHeaders
      rw [hIdle] at hChecks
      rw [refusesList_setHeaderBlock, hSame, hChecks] at hDone
      refine ⟨hDone.context, hDone.refused, fun hAccepted => ?_⟩
      obtain ⟨hOk, hShutdown, hType, hPending, s', hPresent, hState, hWaits, hTrailer, hStored⟩ :=
        hDone.accepted hAccepted
      refine ⟨hOk, hShutdown.trans (by simp), hType.trans ?_, hPending.trans ?_, s', hPresent, hState,
        hWaits, hTrailer.trans ?_, hStored.trans (congrFun (stored_congr rfl) _)⟩
      · simp [Connection.setHeaderBlock, Connection.setDecodeCtx]
      · simp [Connection.setHeaderBlock, Connection.setDecodeCtx]
      · rw [h.get_trailer]
        rfl

end Present

/-! ### One frame -/

/-- The frame gets to the fragment in it, with `con'` when that is looked at. -/
structure Takes (ord : HashOrder) (con : Connection) (fh : FrameHeader) (buf : Octets)
    (con' : Connection) (fragment : Octets) : Prop where
  apply : con.frameApply ord fh buf =
    match con'.blockDecode fh fragment with
    | (con, none) => (con, none)
    | (con, some _) => (con.stateMachine .recv fh.type fh.flags fh.stream,
        some (frameHeaderSize + fh.length))
  decoded : con.frameDecoded ord fh buf = (con'.blockDecode fh fragment).1

/-- Nothing of the stream has changed, and the connection is about to do the same. -/
structure Still (con con' : Connection) (s s' : Stream) : Prop extends Kept con con' s s' where
  state : s'.state = s.state
  pendingState : s'.pendingState = s.pendingState
  shutdown : con'.shutdown = con.shutdown
  pendingStream : con'.pendingStream = con.pendingStream

namespace Present

variable {con con' : Connection} {sid : Nat} {s s' : Stream}

theorem of_alike (h : Present con sid s) (hAlike : con.Alike con') :
    ∃ s', Present con' sid s' ∧ Still con con' s s' := by
  have hCore := hAlike.streams sid
  rw [h.stream, Option.map_some] at hCore
  obtain ⟨s', hs', hCore⟩ := Option.map_eq_some_iff.mp hCore
  refine ⟨s', ⟨hAlike.preface.trans h.preface, h.nonzero, hs', ?_⟩,
    ⟨hAlike.type, hAlike.decodeCtx, Stream.field_congr (fun _ => rfl) hCore⟩,
    Stream.field_congr (fun _ => rfl) hCore, Stream.field_congr (fun _ => rfl) hCore,
    hAlike.shutdown, hAlike.pendingStream⟩
  exact (Stream.field_congr (fun _ => rfl) hCore).trans h.promisedSid

/-- A frame of a block for a stream that is there goes to its decoder. -/
theorem frameApply (h : Present con sid s) (ord : HashOrder) {fh : FrameHeader} (buf : Octets)
    (hSid : fh.stream = sid) (hType : fh.type = .headers ∨ fh.type = .continuation)
    (hOther : con.awaitsOther fh = false) :
    con.frameApply ord fh buf = con.frameReceive ord fh buf ∧
      con.frameDecoded ord fh buf = (con.payloadDecode ord fh buf).1 := by
  subst hSid
  rcases hType with hType | hType <;>
    simp [Connection.frameApply, Connection.frameDecoded, hOther, hType, Connection.frameAdmit,
      h.stream]

theorem takes (h : Present con sid s) {ord : HashOrder} {fh : FrameHeader} {buf fragment : Octets}
    (hSid : fh.stream = sid) (hType : fh.type = .headers ∨ fh.type = .continuation)
    (hOther : con.awaitsOther fh = false)
    (hPayload : con.payloadDecode ord fh buf = con'.blockDecode fh fragment) :
    Takes ord con fh buf con' fragment := by
  obtain ⟨hApply, hDecoded⟩ := h.frameApply ord buf hSid hType hOther
  refine ⟨?_, by rw [hDecoded, hPayload]⟩
  rw [hApply, Connection.frameReceive]
  exact hPayload ▸ rfl

theorem takes_continuation (h : Present con sid s) (ord : HashOrder)
    (hWaits : con.pendingStream = none ∨ con.pendingStream = some sid) (endHeaders : Bool)
    (fragment : Octets) :
    Takes ord con (continuationHeader sid endHeaders fragment) fragment con fragment := by
  have hNonzero : (continuationHeader sid endHeaders fragment).stream ≠ 0 := h.nonzero
  have hOther : con.awaitsOther (continuationHeader sid endHeaders fragment) = false := by
    rcases hWaits with hNone | hSome <;> simp [Connection.awaitsOther, continuationHeader, *]
  refine h.takes rfl (Or.inr rfl) hOther ?_
  have hDecode : con.continuationDecode (continuationHeader sid endHeaders fragment) fragment =
      con.blockDecode (continuationHeader sid endHeaders fragment) fragment := by
    rw [Connection.continuationDecode, if_neg hNonzero]
    simp only [continuationHeader, List.take_length]
  exact hDecode

end Present

/-- The priority of the frame is one that `stream_reprio` rejects. -/
def HeadersShape.Misplaced (shape : HeadersShape) (con : Connection) (sid : Nat) : Prop :=
  shape.priority.isSome ∧
    (shape.dependency = sid ∨ (shape.dependency ≠ 0 ∧ con.stream? shape.dependency = none))

namespace Present

variable {con con' : Connection} {sid : Nat} {s s' : Stream} {shape : HeadersShape}

theorem headersPriority_iff (h : Present con sid s) (endHeaders : Bool) (fragment : Octets) :
    (con.headersPriority (shape.header sid endHeaders fragment) (shape.payload fragment)).2 =
      false ↔ shape.Misplaced con sid := by
  have hFlag := (shape.hasFlag_flags endHeaders).2.2.2
  have hFlag' : hasFlag (shape.header sid endHeaders fragment).flags Flag.priority =
      shape.priority.isSome := hFlag
  rw [Connection.headersPriority, HeadersShape.Misplaced, hFlag']
  cases hPriority : shape.priority with
  | none => simp
  | some fields =>
      obtain ⟨a, b, c, d, weight⟩ := fields
      have hDrop : (shape.payload fragment).drop (padOffset (shape.header sid endHeaders fragment)) =
          shape.prioritySection ++ (fragment ++ List.replicate (shape.padding.getD 0).toNat 0) := by
        rw [shape.padOffset_header, HeadersShape.payload, List.drop_left]
      have hUnpack : unpack32 (shape.prioritySection ++
          (fragment ++ List.replicate (shape.padding.getD 0).toNat 0)) =
            unpack32 shape.prioritySection := by
        simp [HeadersShape.prioritySection, hPriority, unpack32]
      have hWeight := fun other => isSome_stream?_modifyStream con sid other
      have hNone (other : Nat) (weight : Nat) :
          (con.setWeight sid weight).stream? other = none ↔ con.stream? other = none := by
        rw [← Option.isNone_iff_eq_none, ← Option.isNone_iff_eq_none, ← Option.not_isSome,
          ← Option.not_isSome, Connection.setWeight, hWeight]
      have hThere : ¬ con.stream? sid = none := by simp [h.stream]
      have hSid : (shape.header sid endHeaders fragment).stream = sid := rfl
      simp only [Option.isSome_some, if_true, hDrop, hUnpack, hSid, true_and]
      rw [Connection.streamReprio]
      simp only [Option.isNone_iff_eq_none, hNone, hThere, false_or]
      change (if _ then _ else _ : Connection × Bool).2 = false ↔ _
      have hDep : unpack32 shape.prioritySection &&& 2147483647 = shape.dependency := rfl
      rw [hDep]
      split
      · next hBad =>
          simp only [true_iff]
          exact hBad.symm.imp_left Eq.symm
      · next hGood =>
          simp only [Bool.true_eq_false, false_iff]
          exact fun hBad => hGood (hBad.symm.imp_right Eq.symm)

/-- A HEADERS frame that is well-formed comes to its fragment. -/
theorem takes_headers (h : Present con sid s) (hPlaced : ¬ shape.Misplaced con sid) (ord : HashOrder)
    (hFree : con.pendingStream = none) (endHeaders : Bool) (fragment : Octets) :
    ∃ con' s', Present con' sid s' ∧ Still con con' s s' ∧
      Takes ord con (shape.header sid endHeaders fragment) (shape.payload fragment) con' fragment := by
  have hPriority := mt (h.headersPriority_iff endHeaders fragment).mp hPlaced
  have hAlike := alike_headersPriority con (shape.header sid endHeaders fragment)
    (shape.payload fragment)
  obtain ⟨s', hPresent, hStill⟩ := h.of_alike hAlike
  have hOther : con.awaitsOther (shape.header sid endHeaders fragment) = false := by
    simp [Connection.awaitsOther, hFree]
  refine ⟨_, s', hPresent, hStill, h.takes rfl (Or.inl rfl) hOther ?_⟩
  have hFits : ¬ (shape.header sid endHeaders fragment).length <
      headersOffset (shape.header sid endHeaders fragment) +
        padSize (shape.header sid endHeaders fragment) (shape.payload fragment) := by
    have hLength := shape.length_payload fragment
    rw [shape.headersOffset_header, shape.padSize_header]
    simp only [HeadersShape.header]
    omega
  have hNonzero : (shape.header sid endHeaders fragment).stream ≠ 0 := h.nonzero
  have hDecode : con.headersFrameDecode (shape.header sid endHeaders fragment)
      (shape.payload fragment) = (con.headersPriority (shape.header sid endHeaders fragment)
        (shape.payload fragment)).1.blockDecode (shape.header sid endHeaders fragment) fragment := by
    rcases hResult : con.headersPriority (shape.header sid endHeaders fragment)
      (shape.payload fragment) with ⟨con', ok⟩
    rw [hResult] at hPriority
    obtain rfl : ok = true := by simpa using hPriority
    simp only [Connection.headersFrameDecode, hNonzero, if_false, hResult, hFits,
      shape.headersBlock_header]
  exact hDecode

end Present

/-- The last frame of a block: what it leaves, by what its fragment comes to. -/
structure Ended (ord : HashOrder) (sid : Nat) (con : Connection) (s : Stream)
    (frame : FrameHeader × Octets) (fragment : Octets) : Prop where
  context : (receiveFrames ord con [frame]).decodeCtx.toContext = (blockResult con sid fragment).2
  refused : (blockResult con sid fragment).1 = none → delivered ord sid con [frame] = (none, none)
  accepted : (blockResult con sid fragment).1.isSome → ∃ con' s', Present con' sid s' ∧
    con'.type = con.type ∧ con'.shutdown = con.shutdown ∧ s'.state = s.state ∧
    s'.pendingState = s.pendingState ∧ s'.trailer = announced con sid fragment ∧
    delivered ord sid con [frame] =
      if (con'.stateMachine .recv frame.1.type frame.1.flags sid).shutdown then (none, none)
      else stored s (blockResult con sid fragment).1

theorem Takes.ended {ord : HashOrder} {con con' : Connection} {sid : Nat} {s s' : Stream}
    {fh : FrameHeader} {buf fragment : Octets} (h : Takes ord con fh buf con' fragment)
    (hSid : fh.stream = sid) (hEnd : hasFlag fh.flags Flag.endHeaders = true)
    (hPresent : Present con sid s) (hPresent' : Present con' sid s') (hStill : Still con con' s s') :
    Ended ord sid con s (fh, buf) fragment := by
  subst hSid
  have hSet := hPresent'.setHeaderBlock fragment
  have hAlike := alike_setHeaderBlock con' fh.stream fragment
  have hKept : Kept con (con'.setHeaderBlock fh.stream fragment) s (s'.setHeaderBlock fragment) :=
    hStill.toKept.trans ⟨hAlike.type, hAlike.decodeCtx, rfl⟩
  have hDone := hSet.streamHeadersDone rfl
  rw [hPresent.blockResult_eq hSet hKept, hPresent.announced_eq hSet hKept] at hDone
  have hBlock : con'.blockDecode fh fragment =
      match (con'.setHeaderBlock fh.stream fragment).streamHeadersDone fh.stream with
      | (con, true) => (con, some fh.length)
      | (con, false) => (con, none) := by
    rw [Connection.blockDecode]
    exact if_pos hEnd
  obtain ⟨hApply, hDecoded⟩ := h
  rw [hBlock] at hApply hDecoded
  rcases hHeaders : (con'.setHeaderBlock fh.stream fragment).streamHeadersDone fh.stream with ⟨con1, ok⟩
  rw [hHeaders] at hDone hApply hDecoded
  cases ok with
  | false =>
      refine ⟨?_, fun _ => ?_, fun hSome => ?_⟩
      · rw [receiveFrames, hApply]
        exact hDone.context
      · rw [delivered, hApply]
      · exact absurd (hDone.accepted hSome).1 Bool.false_ne_true
  | true =>
      refine ⟨?_, fun hNone => absurd (hDone.refused hNone) Bool.noConfusion, fun hSome => ?_⟩
      · rw [receiveFrames, hApply]
        exact (congrArg _ (quiet_stateMachine _ _ _ _ _).decodeCtx).trans hDone.context
      · obtain ⟨-, hShutdown, hType, -, s1, hPresent1, hState, hPending, hTrailer, hStored⟩ :=
          hDone.accepted hSome
        refine ⟨con1, s1, hPresent1, hType.trans hKept.type, ?_, hState.trans hStill.state,
          hPending.trans hStill.pendingState, hTrailer, ?_⟩
        · exact hShutdown.trans (hAlike.shutdown.trans hStill.shutdown)
        · rw [delivered, hApply, hDecoded]
          dsimp only
          rw [if_neg (not_not.mpr rfl), Connection.headerLists, get_of_some hPresent1.stream,
            get_of_some hPresent1.stream, hStored, stored_congr hKept.lists]

/-- A frame that does not end its block. -/
theorem Takes.stores {ord : HashOrder} {con con' : Connection} {fh : FrameHeader}
    {buf fragment : Octets} (h : Takes ord con fh buf con' fragment)
    (hMore : hasFlag fh.flags Flag.endHeaders = false) :
    con.frameApply ord fh buf =
      ((con'.setHeaderBlock fh.stream fragment).stateMachine .recv fh.type fh.flags fh.stream,
        some (frameHeaderSize + fh.length)) := by
  rw [h.apply, Connection.blockDecode, if_neg (by simp [hMore])]

/-! ### CONTINUATION frames -/

/-- Where the stream is while the rest of a block comes: the connection waits for it, or it has
been shut down or will be by the next CONTINUATION frame. -/
inductive BlockCourse (con : Connection) (sid : Nat) (s : Stream) : Bool → Prop
  | waits {ps : StreamState} (hState : s.pendingState = some ps) (hUp : con.shutdown = false)
      (hPending : con.pendingStream = some sid) : BlockCourse con sid s true
  | lost (hPending : con.pendingStream = none) (hLost : con.shutdown = true ∨ s.pendingState = none) :
      BlockCourse con sid s false

namespace Present

variable {con con' : Connection} {sid : Nat} {s s' : Stream} {waits : Bool}

theorem kept_setHeaderBlock (con : Connection) (sid : Nat) (s : Stream) (fragment : Octets) :
    Kept con (con.setHeaderBlock sid fragment) s (s.setHeaderBlock fragment) :=
  ⟨(alike_setHeaderBlock con sid fragment).type,
    (alike_setHeaderBlock con sid fragment).decodeCtx, rfl⟩

/-- A frame in the middle of the block. -/
theorem continuation_stores (h : Present con sid s) (hCourse : BlockCourse con sid s waits)
    (ord : HashOrder) (fragment : Octets) :
    ∃ con' s' n, con.frameApply ord (continuationHeader sid false fragment) fragment =
        (con', some n) ∧ Present con' sid s' ∧ Kept con con' s s' ∧ BlockCourse con' sid s' waits := by
  have hNoFlag : hasFlag 0 Flag.endHeaders = false := by decide
  have hSet := h.setHeaderBlock fragment
  have hAlike := alike_setHeaderBlock con sid fragment
  have hKept := kept_setHeaderBlock con sid s fragment
  have hMachine := hSet.stateMachine .continuation 0 (Or.inr rfl)
  cases hCourse with
  | @waits ps hState hUp hPending =>
      have hApply := (h.takes_continuation ord (Or.inr hPending) false fragment).stores hNoFlag
      have hState' : (s.setHeaderBlock fragment).pendingState = some ps := hState
      simp only [hState', hNoFlag] at hMachine
      refine ⟨_, _, _, hApply.trans (Prod.ext hMachine rfl), hSet, hKept, .waits hState' ?_ ?_⟩
      · exact hAlike.shutdown.trans hUp
      · exact hAlike.pendingStream.trans hPending
  | lost hPending hLost =>
      have hApply := (h.takes_continuation ord (Or.inl hPending) false fragment).stores hNoFlag
      have hFree := hAlike.pendingStream.trans hPending
      cases hState : s.pendingState with
      | some ps =>
          have hState' : (s.setHeaderBlock fragment).pendingState = some ps := hState
          simp only [hState', hNoFlag] at hMachine
          refine ⟨_, _, _, hApply.trans (Prod.ext hMachine rfl), hSet, hKept, .lost hFree (Or.inl ?_)⟩
          rcases hLost with hDown | hNone
          · exact hAlike.shutdown.trans hDown
          · rw [hState] at hNone
            cases hNone
      | none =>
          have hState' : (s.setHeaderBlock fragment).pendingState = none := hState
          simp only [hState', if_true] at hMachine
          refine ⟨_, _, _, hApply.trans (Prod.ext hMachine rfl), hSet.setError _, ?_, .lost ?_ (Or.inl ?_)⟩
          · exact hKept.trans ⟨(quiet_setError _ _).type,
              (quiet_setError _ _).decodeCtx, rfl⟩
          · exact (pendingStream_setError _ _).trans hFree
          · exact shutdown_setError _ _

/-- The last frame of the block: its fragment is taken for the whole. -/
theorem continuation_ended (h : Present con sid s) (hCourse : BlockCourse con sid s waits)
    (ord : HashOrder) (fragment : Octets) :
    let frame := (continuationHeader sid true fragment, fragment)
    delivered ord sid con [frame] =
        (if waits then stored s (blockResult con sid fragment).1 else (none, none)) ∧
      (receiveFrames ord con [frame]).decodeCtx.toContext =
        (blockResult con sid fragment).2 := by
  intro frame
  have hFlag : hasFlag frame.1.flags Flag.endHeaders = true := by
    show hasFlag Flag.endHeaders Flag.endHeaders = true
    decide
  have hFree : con.pendingStream = none ∨ con.pendingStream = some sid := by
    cases hCourse with
    | waits _ _ hPending => exact Or.inr hPending
    | lost hPending _ => exact Or.inl hPending
  have hEnded : Ended ord sid con s frame fragment :=
    (h.takes_continuation ord hFree true fragment).ended rfl hFlag h h ⟨.refl con s, rfl, rfl, rfl, rfl⟩
  refine ⟨?_, hEnded.context⟩
  cases hResult : (blockResult con sid fragment).1 with
  | none =>
      rw [hEnded.refused hResult]
      split <;> rfl
  | some eh =>
      obtain ⟨con1, s1, hPresent, -, hShutdown, -, hPending1, -, hDelivered⟩ :=
        hEnded.accepted (by rw [hResult]; rfl)
      have hMachine := hPresent.stateMachine .continuation frame.1.flags (Or.inr rfl)
      have hType : frame.1.type = .continuation := rfl
      rw [hDelivered, hType, hMachine, hPending1, hResult]
      cases hCourse with
      | waits hState hUp _ => simp [hState, hFlag, hShutdown, hUp]
      | lost _ hLost =>
          cases hState : s.pendingState with
          | none => simp
          | some ps =>
              have hDown : con.shutdown = true := by
                rcases hLost with hDown | hNone
                · exact hDown
                · rw [hState] at hNone
                  cases hNone
              simp [hFlag, hShutdown, hDown]

/-- Whatever comes in between, the last fragment alone decides. -/
theorem continuations_ended (h : Present con sid s) (hCourse : BlockCourse con sid s waits)
    (ord : HashOrder) (rest : List Octets) (hRest : rest ≠ []) :
    delivered ord sid con (continuations sid rest) =
        (if waits then stored s (blockResult con sid (rest.getLast hRest)).1
          else (none, none)) ∧
      (receiveFrames ord con (continuations sid rest)).decodeCtx.toContext =
        (blockResult con sid (rest.getLast hRest)).2 := by
  induction rest generalizing con s with
  | nil => exact absurd rfl hRest
  | cons fragment rest ih =>
      cases rest with
      | nil => exact h.continuation_ended hCourse ord fragment
      | cons next rest =>
          obtain ⟨con', s', n, hApply, hPresent, hKept, hCourse'⟩ :=
            h.continuation_stores hCourse ord fragment
          have hMore := ih hPresent hCourse' (List.cons_ne_nil next rest)
          rw [h.blockResult_eq hPresent hKept, stored_congr hKept.lists] at hMore
          rw [continuations, delivered, receiveFrames]
          simp only [List.cons_ne_nil, decide_false, hApply]
          rw [if_pos (by simp [continuations])]
          exact hMore

end Present

/-! ### HEADERS frames -/

/-- The block changes the state of the stream, so the connection waits for all of it. -/
def Stream.Waits (s : Stream) (type : Endpoint) (endStream : Bool) : Prop :=
  s.pendingState = none ∧
    match s.state with
    | some .idle => type = .server
    | some .opened => endStream = true
    | some .reserved => type = .client
    | some .halfClosed => type = .client ∧ endStream = true
    | _ => False

/-- The block is taken and the stream stays in its state. -/
def Stream.Admits (s : Stream) (type : Endpoint) (endStream : Bool) (trailer : Option (List Octets)) :
    Prop :=
  s.pendingState = none ∧
    match s.state with
    | some .opened => endStream = false ∧ trailer = none
    | some .halfClosed => type = .client ∧ endStream = false
    | some .closed => type = .client
    | _ => False

def Stream.Takes (s : Stream) (type : Endpoint) (endStream : Bool) (trailer : Option (List Octets)) :
    Prop :=
  s.Waits type endStream ∨ s.Admits type endStream trailer

namespace Present

variable {con con' : Connection} {sid : Nat} {s s' : Stream} {shape : HeadersShape}

/-- The state machine at the end of a block in one frame. -/
theorem stateMachine_whole (h : Present con sid s) (hUp : con.shutdown = false) :
    (con.stateMachine .recv .headers (shape.flags true) sid).shutdown = false ↔
      s.Takes con.type shape.endStream s.trailer := by
  obtain ⟨hEndStream, hEndHeaders, -, -⟩ := shape.hasFlag_flags true
  have hTrailer := h.get_trailer
  rw [h.stateMachine .headers _ (Or.inl rfl), Stream.Takes, Stream.Waits, Stream.Admits]
  cases s.pendingState with
  | some ps => simp
  | none =>
      rcases hState : s.state with _ | state
      · simp [Connection.stateStep]
      · cases state <;> cases hType : con.type <;> cases hEnd : shape.endStream <;>
          cases hTrail : s.trailer <;>
          simp_all [Connection.stateStep]

/-- The state machine at the first frame of a longer block. -/
theorem stateMachine_first (h : Present con sid s) (hFree : con.pendingStream = none)
    (hUp : con.shutdown = false) :
    ∃ con' s' waits, con.stateMachine .recv .headers (shape.flags false) sid = con' ∧
      Present con' sid s' ∧ Kept con con' s s' ∧ BlockCourse con' sid s' waits ∧
      (waits = true ↔ s.Waits con.type shape.endStream) := by
  obtain ⟨hEndStream, hEndHeaders, -, -⟩ := shape.hasFlag_flags false
  have hWait (ps : StreamState) : BlockCourse (con.setPendingState sid (some ps)) sid (s.setPending (some ps))
      true := .waits rfl (by simpa using hUp) (by simp [Connection.setPendingState, h.stream])
  have hKept (ps : StreamState) : Kept con (con.setPendingState sid (some ps)) s (s.setPending (some ps)) :=
    ⟨(quiet_setPendingState _ _ _).type, (quiet_setPendingState _ _ _).decodeCtx, rfl⟩
  have hLost (code : ErrorCode) : BlockCourse (con.setError code) sid s false :=
    .lost ((pendingStream_setError con code).trans hFree) (Or.inl (shutdown_setError con code))
  have hError (code : ErrorCode) : Kept con (con.setError code) s s :=
    ⟨(quiet_setError con code).type, (quiet_setError con code).decodeCtx, rfl⟩
  rw [h.stateMachine .headers _ (Or.inl rfl), Stream.Waits]
  cases hPending : s.pendingState with
  | some ps => exact ⟨_, s, false, rfl, h.setError _, hError _, hLost _, by simp⟩
  | none =>
      have hSame : BlockCourse con sid s false := .lost hFree (Or.inr hPending)
      rcases hState : s.state with _ | state
      · exact ⟨_, s, false, rfl, h.setError _, hError _, hLost _, by simp⟩
      · cases state <;> cases hType : con.type <;> cases hEnd : shape.endStream <;>
          simp [Connection.stateStep, Connection.streamState, hType, hEnd, hEndStream, hEndHeaders]
        all_goals
          first
          | exact ⟨_, h.setPendingState _, hKept _, hWait _⟩
          | exact ⟨s, h.setError _, hError _, hLost _⟩
          | exact ⟨s, h, .refl con s, hSame⟩

/-- The block in one frame is delivered where the state machine takes it. -/
theorem whole_ended (h : Present con sid s) (hFree : con.pendingStream = none)
    (hUp : con.shutdown = false) (hPlaced : ¬ shape.Misplaced con sid) (ord : HashOrder)
    (block : Octets) :
    let frames := blockFrames shape sid block []
    (receiveFrames ord con frames).decodeCtx.toContext = (blockResult con sid block).2 ∧
      (s.Takes con.type shape.endStream (announced con sid block) →
        delivered ord sid con frames = stored s (blockResult con sid block).1) ∧
      (¬ s.Takes con.type shape.endStream (announced con sid block) →
        delivered ord sid con frames = (none, none)) := by
  intro frames
  obtain ⟨con1, s1, hPresent, hStill, hTakes⟩ := h.takes_headers hPlaced ord hFree true block
  have hEnded : Ended ord sid con s (shape.header sid true block, shape.payload block) block :=
    hTakes.ended rfl (shape.hasFlag_flags true).2.1 h hPresent hStill
  refine ⟨hEnded.context, ?_⟩
  have hFrames : frames = [(shape.header sid true block, shape.payload block)] := rfl
  rw [hFrames]
  cases hResult : (blockResult con sid block).1 with
  | none =>
      have hNone := hEnded.refused hResult
      exact ⟨fun _ => hNone, fun _ => hNone⟩
  | some eh =>
      obtain ⟨con2, s2, hPresent2, hType, hShutdown, hState, hPending, hTrailer, hDelivered⟩ :=
        hEnded.accepted (by rw [hResult]; rfl)
      have hMachine := @Present.stateMachine_whole _ _ _ shape hPresent2 (hShutdown.trans hUp)
      have hSame : s2.Takes con2.type shape.endStream s2.trailer ↔
          s.Takes con.type shape.endStream (announced con sid block) := by
        simp only [Stream.Takes, Stream.Waits, Stream.Admits, hState, hPending, hTrailer, hType]
      rw [hSame] at hMachine
      rw [hDelivered, ← hResult]
      refine ⟨fun hTakes => if_neg ?_, fun hNot => if_pos ?_⟩
      · exact ne_true_of_eq_false (hMachine.mpr hTakes)
      · exact eq_true_of_ne_false (mt hMachine.mp hNot)

/-- Of a block in several frames, the last fragment is what counts. -/
theorem split_ended (h : Present con sid s) (hFree : con.pendingStream = none)
    (hUp : con.shutdown = false) (hPlaced : ¬ shape.Misplaced con sid) (ord : HashOrder)
    (first : Octets) {rest : List Octets} (hRest : rest ≠ []) :
    let frames := blockFrames shape sid first rest
    ∃ waits : Bool, (waits = true ↔ s.Waits con.type shape.endStream) ∧
      delivered ord sid con frames = (if waits then
        stored s (blockResult con sid (rest.getLast hRest)).1 else (none, none)) ∧
      (receiveFrames ord con frames).decodeCtx.toContext =
        (blockResult con sid (rest.getLast hRest)).2 := by
  intro frames
  obtain ⟨con1, s1, hPresent, hStill, hTakes⟩ := h.takes_headers hPlaced ord hFree false first
  have hSet := hPresent.setHeaderBlock first
  have hAlike := alike_setHeaderBlock con1 sid first
  have hKept : Kept con (con1.setHeaderBlock sid first) s (s1.setHeaderBlock first) :=
    hStill.toKept.trans (kept_setHeaderBlock con1 sid s1 first)
  obtain ⟨con2, s2, waits, hMachine, hPresent2, hKept2, hCourse, hWaits⟩ :=
    @Present.stateMachine_first _ _ _ shape hSet
      (hAlike.pendingStream.trans (hStill.pendingStream.trans hFree))
      (hAlike.shutdown.trans (hStill.shutdown.trans hUp))
  have hApply := hTakes.stores (shape.hasFlag_flags false).2.1
  have hRestEnded := hPresent2.continuations_ended hCourse ord rest hRest
  rw [h.blockResult_eq hPresent2 (hKept.trans hKept2), stored_congr (hKept.trans hKept2).lists]
    at hRestEnded
  have hSame : (s1.setHeaderBlock first).Waits (con1.setHeaderBlock sid first).type shape.endStream ↔
      s.Waits con.type shape.endStream := by
    have hState : (s1.setHeaderBlock first).state = s.state := hStill.state
    have hPending : (s1.setHeaderBlock first).pendingState = s.pendingState := hStill.pendingState
    rw [Stream.Waits, Stream.Waits, hKept.type, hState, hPending]
  refine ⟨waits, hWaits.trans hSame, ?_⟩
  have hMore : continuations sid rest ≠ [] := by
    cases rest with
    | nil => exact absurd rfl hRest
    | cons next rest => simp [continuations]
  have hFlag : decide (rest = []) = false := decide_eq_false hRest
  have hFrame : con.frameApply ord (shape.header sid false first) (shape.payload first) = (con2, some _) :=
    hApply.trans (Prod.ext hMachine rfl)
  simp only [frames, blockFrames, hFlag, delivered, receiveFrames, hFrame]
  rw [if_pos hMore]
  exact hRestEnded

end Present

/-! ### Whole and split blocks -/

/-- The connection is up, and no promise is under way on the stream. -/
structure Receptive (con : Connection) (sid : Nat) : Prop where
  preface : con.preface = true
  shutdown : con.shutdown = false
  error : con.error = none
  promisedSid : con.get sid Stream.promisedSid = none

/-- On a stream that is there the split makes no difference: the priority is rejected before the
block is looked at, the connection waits for the block and its last fragment alone comes to the
same, or the whole block is not taken either and leaves the same table. -/
def Stream.KeepsSplit (s : Stream) (con : Connection) (sid : Nat) (shape : HeadersShape)
    (last whole : Octets) : Prop :=
  shape.Misplaced con sid ∨
    (s.Waits con.type shape.endStream ∧ blockResult con sid last = blockResult con sid whole) ∨
    (¬ s.Waits con.type shape.endStream ∧
      (blockResult con sid last).2 = (blockResult con sid whole).2 ∧
      (s.Admits con.type shape.endStream (announced con sid whole) → (blockResult con sid whole).1 = none))

/-- A block in one frame; or a HEADERS frame that is a connection error in any case; or a split
that makes no difference on the stream, which is made first if it is a new one. A stream that is
refused is made by its reset, so the rest of its block is decoded. -/
def KeepsSplit (con : Connection) (sid : Nat) (shape : HeadersShape) (first : Octets)
    (rest : List Octets) : Prop :=
  let last := (first :: rest).getLast (List.cons_ne_nil first rest)
  let whole := first ++ rest.flatten
  rest = [] ∨ con.pendingStream ≠ none ∨ sid = 0 ∨
    match con.stream? sid with
    | some s => s.KeepsSplit con sid shape last whole
    | none =>
        con.badPeerStream sid = true ∨
          if con.peerStreamsFull then
            (headersDecode con.decodeCtx last).1.toContext = con.decodeCtx.toContext
          else ∀ s ∈ (con.admitted sid).stream? sid, s.KeepsSplit (con.admitted sid) sid shape last whole

/-- The property of the two ways to receive the block. -/
def SplitAgrees (ord : HashOrder) (con : Connection) (sid : Nat) (shape : HeadersShape)
    (first : Octets) (rest : List Octets) : Prop :=
  let split := blockFrames shape sid first rest
  let whole := blockFrames shape sid (first ++ rest.flatten) []
  delivered ord sid con split = delivered ord sid con whole ∧
    (receiveFrames ord con split).decodeCtx.toContext =
      (receiveFrames ord con whole).decodeCtx.toContext

variable {ord : HashOrder} {con : Connection} {sid : Nat} {shape : HeadersShape} {first : Octets}
  {rest : List Octets}

theorem context_blockResult (con : Connection) (sid : Nat) (block : Octets) :
    (blockResult con sid block).2 = (headersDecode con.decodeCtx block).1.toContext := by
  rw [blockResult]
  rcases headersDecode con.decodeCtx block with ⟨decodeCtx, _ | code | code⟩ <;> rfl

theorem Present.splitAgrees_iff {s : Stream} (h : Present con sid s) (hFree : con.pendingStream = none)
    (hUp : con.shutdown = false) (hPlaced : ¬ shape.Misplaced con sid) (hRest : rest ≠ []) :
    SplitAgrees ord con sid shape first rest ↔
      s.KeepsSplit con sid shape (rest.getLast hRest) (first ++ rest.flatten) := by
  obtain ⟨waits, hWaits, hSplit, hSplitCtx⟩ :=
    h.split_ended hFree hUp hPlaced ord first hRest
  obtain ⟨hWholeCtx, hTaken, hLeft⟩ :=
    h.whole_ended hFree hUp hPlaced ord (first ++ rest.flatten)
  rw [SplitAgrees, Stream.KeepsSplit, hSplit, hSplitCtx, hWholeCtx]
  simp only [hPlaced, false_or]
  cases waits with
  | true =>
      have hWait := hWaits.mp rfl
      rw [hTaken (Or.inl hWait), if_pos rfl, stored_injective, ← Prod.ext_iff]
      simp [hWait]
  | false =>
      have hWait : ¬ s.Waits con.type shape.endStream := fun h => Bool.false_ne_true (hWaits.mpr h)
      simp only [hWait, false_and, false_or, not_false_eq_true, true_and, Bool.false_eq_true, if_false]
      by_cases hAdmits : s.Admits con.type shape.endStream
          (announced con sid (first ++ rest.flatten))
      · have hNone := @stored_injective s none (blockResult con sid (first ++ rest.flatten)).1
        rw [hTaken (Or.inr hAdmits), ← stored, hNone]
        simp only [hAdmits, true_imp_iff]
        exact and_comm.trans (and_congr_right' ⟨Eq.symm, Eq.symm⟩)
      · rw [hLeft (not_or.mpr ⟨hWait, hAdmits⟩)]
        simp [hAdmits]

/-- No HEADERS frame gets to its block. -/
def Rejects (ord : HashOrder) (con : Connection) (sid : Nat) (shape : HeadersShape) : Prop :=
  ∀ endHeaders fragment, ∃ con', con'.decodeCtx = con.decodeCtx ∧
    con.frameApply ord (shape.header sid endHeaders fragment) (shape.payload fragment) = (con', none)

theorem Rejects.splitAgrees (hRejects : Rejects ord con sid shape) (first : Octets) (rest : List Octets) : SplitAgrees ord con sid shape first rest := by
  have hFrames (first : Octets) (rest : List Octets) :
      delivered ord sid con (blockFrames shape sid first rest) = (none, none) ∧
        (receiveFrames ord con (blockFrames shape sid first rest)).decodeCtx = con.decodeCtx := by
    obtain ⟨con', hCtx, hApply⟩ := hRejects (rest = []) first
    rw [blockFrames, delivered, receiveFrames, hApply]
    exact ⟨rfl, hCtx⟩
  refine ⟨(hFrames _ _).1.trans (hFrames _ _).1.symm, ?_⟩
  rw [(hFrames _ _).2, (hFrames _ _).2]

theorem rejects_pending (hPending : con.pendingStream ≠ none) :
    Rejects ord con sid shape := by
  intro endHeaders fragment
  obtain ⟨pending, hPending⟩ := Option.ne_none_iff_exists'.mp hPending
  refine ⟨_, (quiet_setError con .protocolError).decodeCtx, ?_⟩
  rw [Connection.frameApply, if_pos]
  simp [Connection.awaitsOther, hPending, HeadersShape.header]

theorem frameApply_free (hFree : con.pendingStream = none) (endHeaders : Bool) (fragment : Octets) :
    con.frameApply ord (shape.header sid endHeaders fragment) (shape.payload fragment) =
      con.frameAdmit ord (shape.header sid endHeaders fragment) (shape.payload fragment) := by
  have hOther : con.awaitsOther (shape.header sid endHeaders fragment) = false := by
    simp [Connection.awaitsOther, hFree]
  rw [Connection.frameApply, hOther]
  rfl

theorem rejects_zero (hFree : con.pendingStream = none) (hZero : sid = 0) :
    Rejects ord con sid shape := by
  intro endHeaders fragment
  subst hZero
  refine ⟨_, (quiet_setError con .protocolError).decodeCtx, ?_⟩
  rw [frameApply_free hFree]
  rfl

theorem rejects_bad (hFree : con.pendingStream = none) (hUp : con.shutdown = false) (hNonzero : sid ≠ 0)
    (hNew : con.stream? sid = none) (hBad : con.badPeerStream sid = true) :
    Rejects ord con sid shape := by
  intro endHeaders fragment
  have hSid : (shape.header sid endHeaders fragment).stream = sid := rfl
  have hError : (con.setError .protocolError).error.isSome = true := by
    simp [Connection.setError, hUp, Connection.finish]
  refine ⟨_, (quiet_setError con .protocolError).decodeCtx, ?_⟩
  rw [frameApply_free hFree]
  simp [Connection.frameAdmit, hSid, hNonzero, hNew, Connection.newPeerStream, hBad, hError]

theorem Present.rejects_misplaced {s : Stream} (h : Present con sid s) (hFree : con.pendingStream = none)
    (hMisplaced : shape.Misplaced con sid) :
    Rejects ord con sid shape := by
  intro endHeaders fragment
  have hPriority := (h.headersPriority_iff endHeaders fragment).mpr hMisplaced
  have hAlike := alike_headersPriority con (shape.header sid endHeaders fragment)
    (shape.payload fragment)
  have hOther : con.awaitsOther (shape.header sid endHeaders fragment) = false := by
    simp [Connection.awaitsOther, hFree]
  obtain ⟨hApply, -⟩ := h.frameApply ord (shape.payload fragment) rfl (Or.inl rfl) hOther
  rcases hResult : con.headersPriority (shape.header sid endHeaders fragment) (shape.payload fragment)
    with ⟨con', ok⟩
  rw [hResult] at hPriority hAlike
  obtain rfl : ok = false := hPriority
  have hNonzero : (shape.header sid endHeaders fragment).stream ≠ 0 := h.nonzero
  have hDecode : con.headersFrameDecode (shape.header sid endHeaders fragment)
      (shape.payload fragment) = (con'.setError .protocolError, none) := by
    simp only [Connection.headersFrameDecode, hNonzero, if_false, hResult]
  refine ⟨con'.setError .protocolError,
    (quiet_setError con' .protocolError).decodeCtx.trans hAlike.decodeCtx, ?_⟩
  rw [hApply, Connection.frameReceive]
  change (match con.headersFrameDecode _ _ with | (con, none) => (con, none) | (con, some _) => _) = _
  rw [hDecode]

/-- A stream that is refused is there afterwards, without a state. -/
theorem refused_frames (h : Receptive con sid) (hFree : con.pendingStream = none) (hNonzero : sid ≠ 0)
    (hNew : con.stream? sid = none) (hGood : con.badPeerStream sid = false)
    (hFull : con.peerStreamsFull = true) :
    ∃ con', Present con' sid {} ∧ con'.pendingStream = none ∧ con'.shutdown = false ∧
      con'.decodeCtx = con.decodeCtx ∧ ∀ endHeaders fragment, ∃ n,
        con.frameApply ord (shape.header sid endHeaders fragment) (shape.payload fragment) =
          (con', some n) ∧
        con.frameDecoded ord (shape.header sid endHeaders fragment) (shape.payload fragment) = con' := by
  let frame : Frame := ⟨.rstStream, 0, sid, pack32 ErrorCode.refusedStream.code⟩
  let con' := ((con.setLastPeerStream sid).push frame).setStream sid {}
  have hLast : (con.setLastPeerStream sid).stream? sid = none := hNew
  have hPush : ((con.setLastPeerStream sid).push frame).stream? sid = none := hNew
  have hPreface : ((con.setLastPeerStream sid).push frame).preface = true := h.preface
  have hReset : (con.setLastPeerStream sid).streamError sid .refusedStream = con' := by
    have hQueue : (con.setLastPeerStream sid).streamError sid .refusedStream =
        ((con.setLastPeerStream sid).push frame).stateMachine .send .rstStream 0 sid := by
      simp only [Connection.streamError, Connection.enqueue, Connection.frameEncode,
        Connection.encodeEffect, FrameData.encode, modifyStream_of_none hLast]
      rfl
    rw [hQueue, Connection.stateMachine]
    simp [hNonzero, hPreface, Connection.vivify, hPush, con', Connection.get]
  have hPeer : con.newPeerStream sid = (con', false) := by
    rw [Connection.newPeerStream, if_neg (by simp [hGood]), if_pos hFull, hReset]
  have hError : con'.error.isSome = false := by
    show con.error.isSome = false
    rw [h.error]
    rfl
  refine ⟨con', ⟨h.preface, hNonzero, stream?_setStream_self _ sid {}, rfl⟩, hFree, h.shutdown,
    rfl, fun endHeaders fragment => ?_⟩
  have hSid : (shape.header sid endHeaders fragment).stream = sid := rfl
  refine ⟨frameHeaderSize + (shape.header sid endHeaders fragment).length, ?_, ?_⟩
  · rw [frameApply_free hFree]
    simp [Connection.frameAdmit, hSid, hNonzero, hNew, hPeer, hError]
  · simp [Connection.frameDecoded, hSid, hNonzero, hNew, hPeer]

theorem splitAgrees_refused (h : Receptive con sid) (hFree : con.pendingStream = none)
    (hNonzero : sid ≠ 0) (hNew : con.stream? sid = none) (hGood : con.badPeerStream sid = false)
    (hFull : con.peerStreamsFull = true) (hRest : rest ≠ []) :
    SplitAgrees ord con sid shape first rest ↔
      (headersDecode con.decodeCtx (rest.getLast hRest)).1.toContext = con.decodeCtx.toContext := by
  obtain ⟨con', hPresent, hFree', hUp, hCtx, hFrames⟩ :=
    @refused_frames ord con sid shape h hFree hNonzero hNew hGood hFull
  obtain ⟨n, hFirst, -⟩ := hFrames false first
  obtain ⟨m, hWhole, hDecoded⟩ := hFrames true (first ++ rest.flatten)
  obtain ⟨hNone, hLast⟩ :=
    hPresent.continuations_ended (.lost hFree' (Or.inr rfl)) ord rest hRest
  have hMore : continuations sid rest ≠ [] := by
    cases rest with
    | nil => exact absurd rfl hRest
    | cons next rest => simp [continuations]
  have hFlag : decide (rest = []) = false := decide_eq_false hRest
  have hLists : con'.headerLists sid = (none, none) := by
    rw [Connection.headerLists, get_of_some hPresent.stream,
      get_of_some hPresent.stream]
  rw [context_blockResult, hCtx] at hLast
  rw [if_neg Bool.false_ne_true] at hNone
  simp only [SplitAgrees, blockFrames, hFlag, decide_true, continuations, delivered, receiveFrames,
    hFirst, hWhole, hDecoded, hUp, hLists, hNone, hLast, hCtx]
  simp [hMore]

/-- A new stream is made by the first frame for it. -/
theorem splitAgrees_admitted (hFree : con.pendingStream = none) (hNonzero : sid ≠ 0)
    (hNew : con.stream? sid = none) (hGood : con.badPeerStream sid = false)
    (hRoom : con.peerStreamsFull = false) :
    SplitAgrees ord con sid shape first rest ↔
      SplitAgrees ord (con.admitted sid) sid shape first rest := by
  have hThere : ((con.admitted sid).stream? sid).isSome :=
    (stream?_admitted con sid sid).mpr (Or.inl rfl)
  have hFree' : (con.admitted sid).pendingStream = none := hFree
  have hPeer : con.newPeerStream sid = (con.admitted sid, true) := by
    rw [Connection.newPeerStream, if_neg (by simp [hGood]), if_neg (by simp [hRoom])]
  have hFirst (endHeaders : Bool) (fragment : Octets) :
      con.frameApply ord (shape.header sid endHeaders fragment) (shape.payload fragment) =
          (con.admitted sid).frameApply ord (shape.header sid endHeaders fragment)
            (shape.payload fragment) ∧
        con.frameDecoded ord (shape.header sid endHeaders fragment) (shape.payload fragment) =
          (con.admitted sid).frameDecoded ord (shape.header sid endHeaders fragment)
            (shape.payload fragment) := by
    have hSid : (shape.header sid endHeaders fragment).stream = sid := rfl
    rw [frameApply_free hFree, frameApply_free hFree']
    simp [Connection.frameAdmit, Connection.frameDecoded, hSid, hNonzero, hNew, hPeer,
      Option.isSome_iff_ne_none.mp hThere]
  simp only [SplitAgrees, blockFrames, delivered, receiveFrames, (hFirst _ _).1, (hFirst _ _).2]

/-- A block in any number of fragments brings the lists and leaves the table of the whole block in
one frame exactly when the split is one that is kept. -/
theorem blockFrames_receive_iff (ord : HashOrder) {con : Connection} {sid : Nat} (h : Receptive con sid)
    (shape : HeadersShape) (first : Octets) (rest : List Octets) :
    SplitAgrees ord con sid shape first rest ↔ KeepsSplit con sid shape first rest := by
  rw [KeepsSplit]
  by_cases hRest : rest = []
  · subst hRest
    simp [SplitAgrees]
  have hLast : (first :: rest).getLast (List.cons_ne_nil first rest) = rest.getLast hRest :=
    List.getLast_cons hRest
  simp only [hRest, false_or, hLast]
  by_cases hPending : con.pendingStream = none
  case neg => simp [hPending, (rejects_pending hPending).splitAgrees]
  by_cases hZero : sid = 0
  case pos => exact iff_of_true ((rejects_zero hPending hZero).splitAgrees first rest) (by simp [hZero])
  simp only [hPending, hZero, ne_eq, not_true_eq_false, false_or]
  have hThere {con' : Connection} {s : Stream} (hPresent : Present con' sid s)
      (hFree : con'.pendingStream = none) (hUp : con'.shutdown = false) :
      SplitAgrees ord con' sid shape first rest ↔
        s.KeepsSplit con' sid shape (rest.getLast hRest) (first ++ rest.flatten) := by
    by_cases hMisplaced : shape.Misplaced con' sid
    · have hRejects : Rejects ord con' sid shape := hPresent.rejects_misplaced hFree hMisplaced
      exact iff_of_true (hRejects.splitAgrees first rest) (Or.inl hMisplaced)
    · exact hPresent.splitAgrees_iff hFree hUp hMisplaced hRest
  cases hStream : con.stream? sid with
  | some s =>
      refine hThere ⟨h.preface, hZero, hStream, ?_⟩ hPending h.shutdown
      exact (get_of_some hStream _).symm.trans h.promisedSid
  | none =>
      cases hBad : con.badPeerStream sid with
      | true =>
          have hRejects : Rejects ord con sid shape :=
            rejects_bad hPending h.shutdown hZero hStream hBad
          exact iff_of_true (hRejects.splitAgrees first rest) (Or.inl rfl)
      | false =>
          simp only [Bool.false_eq_true, false_or]
          split
          · next hFull => exact splitAgrees_refused h hPending hZero hStream hBad hFull hRest
          · next hRoom =>
              have hRoom : con.peerStreamsFull = false := by simpa using hRoom
              rw [splitAgrees_admitted hPending hZero hStream hBad hRoom]
              obtain ⟨s, hs⟩ : ∃ s, s = { con.newStreamEntry with
                cb := [(.opened, .opened), (.halfClosed, .halfClosed)] } := ⟨_, rfl⟩
              have hEntry : (con.admitted sid).stream? sid = some s := by
                rw [hs]
                exact stream?_setStream_self con sid _
              have hPresent : Present (con.admitted sid) sid s :=
                ⟨h.preface, hZero, hEntry, by rw [hs]; rfl⟩
              rw [hThere hPresent hPending h.shutdown, hEntry]
              simp

/-- A GET request for `/` at host `a`. -/
def smallRequest : Octets := [0x82, 0x86, 0x84, 0x41, 0x01, 0x61]

theorem started_receptive : Receptive started.con 1 := ⟨rfl, rfl, rfl, rfl⟩

theorem blockFrames_receive_smallRequest :
    SplitAgrees .kept started.con 1 { endStream := true } [] [[], smallRequest] ↔
      KeepsSplit started.con 1 { endStream := true } [] [[], smallRequest] :=
  blockFrames_receive_iff .kept started_receptive { endStream := true } [] [[], smallRequest]

/-- With its first octet in the HEADERS frame and the rest in a CONTINUATION frame
the request is lost. -/
theorem blockFrames_receive_splitRequest :
    ¬ SplitAgrees .kept started.con 1 { endStream := true } (smallRequest.take 1)
        [smallRequest.drop 1] := by
  have hSplit : delivered .kept 1 started.con
      (blockFrames { endStream := true } 1 (smallRequest.take 1) [smallRequest.drop 1]) =
        (none, none) := by
    decide +kernel
  have hWhole : delivered .kept 1 started.con (blockFrames { endStream := true } 1 smallRequest []) =
      (some [(octets ":method", octets "GET"), (octets ":scheme", octets "http"),
        (octets ":path", octets "/"), (octets ":authority", octets "a")], none) := by
    decide +kernel
  intro hAgrees
  have hSame := hAgrees.1
  have hFlat : smallRequest.take 1 ++ [smallRequest.drop 1].flatten = smallRequest := rfl
  rw [hFlat, hSplit, hWhole] at hSame
  cases hSame

end PageCamel.Http2

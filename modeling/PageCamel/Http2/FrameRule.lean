import PageCamel.Http2.FlowControl

/-!
A rule for the steps of a connection: a relation between the connection before and after that
has in it the state machine and the elementary changes has in it every frame that is received
and all data that is sent.
-/

namespace PageCamel.Http2
open PageCamel.Lib

/-! ### The settings of the decoder -/

/-- The settings are kept, if the function goes on. -/
def FieldStep.KeepsSettings (dec : DecodeContext) : FieldStep → Prop
  | .next dec' _ => dec'.settings = dec.settings
  | .last | .fail _ => True

theorem settings_add (dec : DecodeContext) (key value : Octets) :
    (dec.add key value).settings = dec.settings := Connection.settings_addToHt ..

theorem settings_decodeField (dec : DecodeContext) (buf : Octets) :
    (decodeField dec buf).KeepsSettings dec := by
  rw [decodeField]
  split
  · simp only [decodeIndexed]
    repeat' split
    all_goals trivial
  · split
    · simp only [decodeLiteralNew]
      repeat' split
      all_goals first | trivial | exact settings_add ..
    · split
      · simp only [decodeLiteralIndexed]
        repeat' split
        all_goals first | trivial | exact settings_add ..
      · split
        · simp only [decodeSizeUpdate]
          repeat' split
          all_goals trivial
        · trivial

theorem settings_headersDecodeLoop (fuel : Nat) (dec : DecodeContext) (buf : Octets) :
    (headersDecodeLoop fuel dec buf).1.settings = dec.settings := by
  induction fuel generalizing dec buf with
  | zero => rfl
  | succ fuel ih =>
      have hField := settings_decodeField dec buf
      rw [headersDecodeLoop]
      split
      · rfl
      · split
        · next dec' size hNext =>
            rw [hNext] at hField
            exact (ih dec' _).trans hField
        · rfl
        · rfl

theorem settings_headersDecode (dec : DecodeContext) (block : Octets) :
    (headersDecode dec block).1.settings = dec.settings :=
  settings_headersDecodeLoop ..

/-! ### The rule -/

/-- The stream is in the same state, with the same one pending and the same promise. -/
structure Stream.SameState (s s' : Stream) : Prop where
  state : s'.state = s.state
  pending : s'.pendingState = s.pendingState
  promised : s'.promisedSid = s.promisedSid

namespace Connection

variable {con con' con'' : Connection}

/-- A change beside the streams, their number, the queue and the endpoint's own settings, while the
connection goes on. -/
structure Beside (con con' : Connection) : Prop where
  streams : con'.streams = con.streams
  queue : con'.queue = con.queue
  type : con'.type = con.type
  activePeerStreams : con'.activePeerStreams = con.activePeerStreams
  lastStream : con'.lastStream = con.lastStream
  settings : con'.decodeCtx.settings = con.decodeCtx.settings
  preface : con'.preface = con.preface
  shutdown : con'.shutdown = con.shutdown
  error : con'.error = con.error
  goaway : con.goaway = true → con'.goaway = true

theorem Beside.trans (h : Beside con con') (h' : Beside con' con'') : Beside con con'' :=
  ⟨h'.streams.trans h.streams, h'.queue.trans h.queue, h'.type.trans h.type,
    h'.activePeerStreams.trans h.activePeerStreams, h'.lastStream.trans h.lastStream,
    h'.settings.trans h.settings, h'.preface.trans h.preface, h'.shutdown.trans h.shutdown,
    h'.error.trans h.error, fun hDown => h'.goaway (h.goaway hDown)⟩

/-- The frame behind the CONTINUATION and PING frames that head the queue. -/
def insert (con : Connection) (frame : Frame) : Connection :=
  let held := con.queue.takeWhile fun f => f.type = .continuation ∨ f.type = .ping
  { con with queue := held ++ frame :: con.queue.drop held.length }

/-- A relation that has in it most of what the steps of a connection are made of. Without `promises` a
stream is made only where there is none, and none is promised. -/
structure Treads (promises : Prop) (R : Connection → Connection → Prop) : Prop extends Chains R where
  stateMachine : ∀ con act type flags sid, R con (stateMachine con act type flags sid)
  setError : ∀ con code, R con (setError con code)
  vivify : ∀ con sid, R con (vivify con sid)
  modify : ∀ con sid {f : Stream → Stream}, (∀ s : Stream, s.SameState (f s)) → R con (modifyStream con sid f)
  ack : ∀ con payload, R con (insert con ⟨.ping, Flag.ack, 0, payload⟩)
  newPeer : ∀ con sid, (promises ∨ con.stream? sid = none) → badPeerStream con sid = false →
    peerStreamsFull con = false → R con (admitted con sid)
  promise : promises → ∀ con sid promised, R con (setPromised con sid promised)

/-- The rest are changes beside the streams, and frames that are queued. -/
structure Passes (promises : Prop) (R : Connection → Connection → Prop) : Prop
    extends Treads promises R where
  beside : ∀ {con con' : Connection}, Beside con con' → R con con'
  push : ∀ con {frame : Frame}, frame.type.Plain → R con (push con frame)

/-- The same, but that the receive window of the connection stays and no WINDOW_UPDATE frame is
queued: this is all but the frames of data that are received. -/
structure PassesFree (promises : Prop) (R : Connection → Connection → Prop) : Prop
    extends Treads promises R where
  beside : ∀ {con con' : Connection}, Beside con con' → con'.fcwRecv = con.fcwRecv → R con con'
  push : ∀ con {frame : Frame}, frame.type.Plain ∧ frame.type ≠ .windowUpdate → R con (push con frame)

theorem Passes.free {promises : Prop} {R : Connection → Connection → Prop} (h : Passes promises R) :
    PassesFree promises R :=
  { h with
    beside := fun hBeside _ => h.beside hBeside
    push := fun con _ hType => h.push con hType.1 }

/-! ### Streams of the peer -/

/-- The frame of the peer passes all checks of a PUSH_PROMISE frame, and the stream it promises is
made. -/
def Promises (con : Connection) (fh : FrameHeader) (buf : Octets) : Prop :=
  fh.type = .pushPromise ∧ fh.stream ≠ 0 ∧ con.decSetting Setting.enablePush ≠ 0 ∧
    promiseOffset fh + padSize fh buf ≤ fh.length ∧
    con.badPeerStream (promisedId fh buf) = false ∧ con.peerStreamsFull = false

theorem badPeerStream_eq_false_iff {con : Connection} {sid : Nat} : con.badPeerStream sid = false ↔
    con.lastPeerStream ≤ sid ∧ sid % 2 ≠ (if con.type = .client then 1 else 0) ∧ con.goaway = false := by
  simp [badPeerStream]

theorem peerStreamsFull_eq_false_iff {con : Connection} : con.peerStreamsFull = false ↔
    con.activePeerStreams < con.decSetting Setting.maxConcurrentStreams := by
  simp [peerStreamsFull]

theorem not_promises_admitted {con : Connection} {fh : FrameHeader} {buf : Octets}
    (hNot : ¬ con.Promises fh buf) (hGood : con.badPeerStream fh.stream = false) :
    ¬ (con.admitted fh.stream).Promises fh buf := by
  rintro ⟨hType, hStream, hPush, hLength, hPromised, hRoom⟩
  rw [badPeerStream_eq_false_iff] at hGood hPromised
  rw [peerStreamsFull_eq_false_iff] at hRoom
  refine hNot ⟨hType, hStream, hPush, hLength, badPeerStream_eq_false_iff.mpr ⟨?_, hPromised.2⟩,
    peerStreamsFull_eq_false_iff.mpr ?_⟩
  · exact hGood.1.trans hPromised.1
  · exact Nat.lt_of_succ_lt hRoom

theorem newPeerStream_of_true {con con' : Connection} {sid : Nat} (hNew : con.newPeerStream sid = (con', true)) :
    con.badPeerStream sid = false ∧ con.peerStreamsFull = false ∧ con' = con.admitted sid := by
  rw [newPeerStream] at hNew
  split at hNew
  · cases hNew
  · next hGood =>
      split at hNew
      · cases hNew
      · next hRoom =>
          cases hNew
          exact ⟨by simpa using hGood, by simpa using hRoom, rfl⟩

section
variable {promises : Prop} {R : Connection → Connection → Prop} (h : PassesFree promises R)
include h

theorem PassesFree.foldl {α : Type} {f : Connection → α → Connection} (hStep : ∀ con a, R con (f con a))
    (l : List α) (con : Connection) : R con (l.foldl f con) := by
  induction l generalizing con with
  | nil => exact h.refl con
  | cons a l ih => exact h.trans (hStep con a) (ih (f con a))

/-! ### Frames that are sent -/

theorem PassesFree.encodeEffect (con : Connection) (d : FrameData) (sid : Nat) :
    R con (con.encodeEffect d sid) := by
  cases d with
  | rstStream code => exact h.modify con sid fun _ => ⟨rfl, rfl, rfl⟩
  | goaway lastStream code =>
      exact h.beside ⟨rfl, rfl, rfl, rfl, rfl, rfl, rfl, rfl, rfl, fun _ => rfl⟩ rfl
  | _ => exact h.refl con

theorem PassesFree.enqueue_of_push (con : Connection) (d : FrameData) (flags : UInt8) (sid : Nat)
    (hPush : ∀ con, R con (con.push ⟨d.type, (d.encode flags).1, sid, (d.encode flags).2⟩)) :
    R con (con.enqueue d flags sid) :=
  h.trans (h.trans (h.encodeEffect con d sid) (hPush _)) (h.stateMachine ..)

theorem PassesFree.enqueue (con : Connection) {d : FrameData} (hType : d.type.Plain ∧ d.type ≠ .windowUpdate) (flags : UInt8)
    (sid : Nat) : R con (con.enqueue d flags sid) :=
  h.enqueue_of_push con d flags sid fun con => h.push con hType

theorem PassesFree.ackPing (con : Connection) (payload : Octets) : R con (con.ackPing payload) :=
  h.trans (h.ack con payload) (h.stateMachine _ .send .ping Flag.ack 0)

theorem PassesFree.streamError (con : Connection) (sid : Nat) (code : ErrorCode) :
    R con (con.streamError sid code) :=
  h.enqueue con (d := .rstStream code.code) (by simp [FrameData.type, FrameType.Plain]) 0 sid

theorem PassesFree.acceptSettings (con : Connection) : R con con.acceptSettings :=
  h.enqueue con (d := .settings ∅) (by simp [FrameData.type, FrameType.Plain]) Flag.ack 0

theorem PassesFree.sendPing (con : Connection) (payload : Octets) : R con (con.sendPing payload) :=
  h.enqueue con (d := .ping _) (by simp [FrameData.type, FrameType.Plain]) 0 0

theorem PassesFree.addFcwSend (con : Connection) (delta : Int) : R con (con.addFcwSend delta) :=
  h.beside ⟨rfl, rfl, rfl, rfl, rfl, rfl, rfl, rfl, rfl, id⟩ rfl

theorem PassesFree.addStreamFcwSend (con : Connection) (sid : Nat) (delta : Int) :
    R con (con.addStreamFcwSend sid delta) :=
  h.modify con sid fun _ => ⟨rfl, rfl, rfl⟩

theorem PassesFree.uploads (sid : Nat) : Uploads sid R where
  toChains := h.toChains
  addFcwSend := h.addFcwSend
  addStreamFcwSend con delta := h.addStreamFcwSend con sid delta
  data con _ flags := h.enqueue con (by simp [FrameData.type, FrameType.Plain]) flags sid
  ended con _ := h.modify con sid fun _ => ⟨rfl, rfl, rfl⟩
  blocked con _ := h.modify con sid fun _ => ⟨rfl, rfl, rfl⟩

theorem PassesFree.streamSendBlocked (con : Connection) (sid : Nat) : R con (con.streamSendBlocked sid) :=
  (h.uploads sid).streamSendBlocked con

theorem PassesFree.sendBlocked (ord : HashOrder) (con : Connection) : R con (con.sendBlocked ord) :=
  h.foldl h.streamSendBlocked _ con

/-! ### Frames that are received -/

theorem PassesFree.pushEvent (con : Connection) (e : Event) : R con (con.pushEvent e) :=
  h.beside ⟨rfl, rfl, rfl, rfl, rfl, rfl, rfl, rfl, rfl, id⟩ rfl

theorem PassesFree.streamData (con : Connection) (sid : Nat) (data : Octets) :
    R con (con.streamData sid data) := by
  rw [Connection.streamData]
  cases hs : con.stream? sid with
  | none => exact h.refl con
  | some s =>
      dsimp only
      split
      · exact h.pushEvent ..
      · have hModify := h.modify con sid
          (f := fun s => { s with data := some (s.data.getD [] ++ data) }) fun _ => ⟨rfl, rfl, rfl⟩
        rw [modifyStream_of_some hs] at hModify
        exact hModify

/-- Once a DATA frame has taken its length off the windows, they are filled up again. -/
theorem PassesFree.dataDecode {fh : FrameHeader} (hFcw : ∀ con, R con (fcwUpdate con))
    (hStream : fh.stream ≠ 0 → ∀ con, R con (streamFcwUpdate con fh.stream)) (con : Connection)
    (buf : Octets) :
    R con (con.dataDecode fh buf).1 ∨
      R ((con.addFcwRecv (-fh.length)).addStreamFcwRecv fh.stream (-fh.length))
        (con.dataDecode fh buf).1 :=
  Collects.dataDecode_taken
    { toChains := h.toChains, setError := h.setError, fcwUpdate := hFcw
      streamError := fun con code => h.streamError con fh.stream code
      streamFcwUpdate := hStream
      streamData := fun con data => h.streamData con fh.stream data } con buf

theorem PassesFree.setDecodeCtx (con : Connection) {decodeCtx : DecodeContext}
    (hSettings : decodeCtx.settings = con.decodeCtx.settings) : R con (con.setDecodeCtx decodeCtx) :=
  h.beside ⟨rfl, rfl, rfl, rfl, rfl, hSettings, rfl, rfl, rfl, id⟩ rfl

theorem PassesFree.announce (con : Connection) (sid : Nat) (c : Validation) : R con (con.announce sid c) :=
  h.modify con sid fun _ => ⟨rfl, rfl, rfl⟩

theorem PassesFree.storeHeaders (con : Connection) (sid : Nat) (promisedSid : Option Nat)
    (isTrailer : Bool) (eh : List Header) : R con (con.storeHeaders sid promisedSid isTrailer eh) := by
  cases promisedSid with
  | some promised => exact h.trans (h.vivify con promised) (h.modify _ promised fun _ => ⟨rfl, rfl, rfl⟩)
  | none =>
      refine h.modify con sid fun s => ?_
      rw [Stream.store]
      split <;> exact ⟨rfl, rfl, rfl⟩

theorem PassesFree.headersDecoded (con : Connection) (sid : Nat) : R con (con.headersDecoded sid).1 :=
  headersDecoded_rule (R := R) h.trans (fun con c => h.announce con sid c) (fun con => h.streamError con sid _)
    (fun con => h.setDecodeCtx con rfl) con fun con' _ _ => h.storeHeaders con' sid _ _ _

theorem PassesFree.setHeaderBlock (con : Connection) (sid : Nat) (block : Octets) :
    R con (con.setHeaderBlock sid block) :=
  h.modify con sid fun _ => ⟨rfl, rfl, rfl⟩

theorem PassesFree.decodes (sid : Nat) : Decodes sid R where
  toChains := h.toChains
  setWeight con other _ := h.modify con other fun _ => ⟨rfl, rfl, rfl⟩
  setStreamDep con other _ := h.modify con other fun _ => ⟨rfl, rfl, rfl⟩
  setError := h.setError
  streamError con code := h.streamError con sid code
  setHeaderBlock con block := h.setHeaderBlock con sid block
  headersDecode con block := h.setDecodeCtx con (settings_headersDecode con.decodeCtx block)
  headersDecoded con := h.headersDecoded con sid

theorem PassesFree.setLastPeerStream (con : Connection) (sid : Nat) : R con (con.setLastPeerStream sid) :=
  h.beside ⟨rfl, rfl, rfl, rfl, rfl, rfl, rfl, rfl, rfl, id⟩ rfl

theorem PassesFree.newPeerStream (con : Connection) (sid : Nat) (hNew : promises ∨ con.stream? sid = none) :
    R con (con.newPeerStream sid).1 := by
  rw [Connection.newPeerStream]
  split
  · exact h.setError ..
  · next hGood =>
      split
      · exact h.trans (h.setLastPeerStream con sid) (h.streamError ..)
      · next hRoom => exact h.newPeer con sid hNew (by simpa using hGood) (by simpa using hRoom)

theorem PassesFree.pushPromiseDecode (hPromises : promises) (con : Connection) (fh : FrameHeader)
    (buf : Octets) : R con (con.pushPromiseDecode fh buf).1 := by
  have hNew := h.newPeerStream con (promisedId fh buf) (.inl hPromises)
  rw [Connection.pushPromiseDecode]
  split
  · exact h.setError ..
  · split
    · exact h.setError ..
    · split
      · next hFalse =>
          rw [hFalse] at hNew
          exact hNew
      · next hTrue =>
          rw [hTrue] at hNew
          exact h.trans hNew (h.trans (h.promise hPromises ..) ((h.decodes _).blockDecode ..))

theorem PassesFree.manages : Manages R where
  toChains := h.toChains
  setError := h.setError
  ackPing := h.ackPing
  goaway _ := h.beside ⟨rfl, rfl, rfl, rfl, rfl, rfl, rfl, rfl, rfl, fun _ => rfl⟩ rfl
  addStreamFcwSend := h.addStreamFcwSend
  setSettings _ _ := h.beside ⟨rfl, rfl, rfl, rfl, rfl, rfl, rfl, rfl, rfl, id⟩ rfl
  acceptSettings := h.acceptSettings

theorem PassesFree.windowUpdateDecode (ord : HashOrder) (con : Connection) (fh : FrameHeader)
    (buf : Octets) : R con (con.windowUpdateDecode ord fh buf).1 := by
  rw [Connection.windowUpdateDecode]
  split
  · exact h.setError ..
  · dsimp only
    split
    · exact h.setError ..
    · split
      · refine h.trans (h.addFcwSend con (unpack32 buf &&& 0x7FFFFFFF : Nat)) ?_
        dsimp only
        split
        · exact h.setError ..
        · exact h.sendBlocked ..
      · split
        · exact h.refl con
        · split
          · exact h.trans (h.addStreamFcwSend con fh.stream (unpack32 buf &&& 0x7FFFFFFF : Nat))
              (h.streamError ..)
          · exact h.trans (h.addStreamFcwSend con fh.stream (unpack32 buf &&& 0x7FFFFFFF : Nat))
              (h.streamSendBlocked ..)

/-! ### All frames -/

theorem PassesFree.newPeerStream_refused {con con' : Connection} {sid : Nat}
    (hNew : con.newPeerStream sid = (con', false)) : R con con' := by
  rw [Connection.newPeerStream] at hNew
  split at hNew
  · cases hNew
    exact h.setError ..
  · split at hNew
    · cases hNew
      exact h.trans (h.setLastPeerStream con sid) (h.streamError ..)
    · cases hNew

/-- Such a frame that fails a check makes no stream. -/
theorem PassesFree.pushPromiseDecode_refused {con : Connection} {fh : FrameHeader} {buf : Octets}
    (hType : fh.type = .pushPromise) (hNot : ¬ con.Promises fh buf) :
    R con (con.pushPromiseDecode fh buf).1 := by
  rw [Connection.pushPromiseDecode]
  split
  · exact h.setError ..
  · next hAllowed =>
      rw [not_or] at hAllowed
      split
      · exact h.setError ..
      · next hLength =>
          split
          · next hFalse => exact h.newPeerStream_refused hFalse
          · next hTrue =>
              obtain ⟨hGood, hRoom, -⟩ := newPeerStream_of_true hTrue
              exact absurd ⟨hType, hAllowed.1, hAllowed.2, by omega, hGood, hRoom⟩ hNot

theorem PassesFree.payloadDecode (ord : HashOrder) (con : Connection) {fh : FrameHeader} {buf : Octets}
    (hData : fh.type = .data → R con (con.dataDecode fh buf).1)
    (hPush : fh.type = .pushPromise → R con (con.pushPromiseDecode fh buf).1) :
    R con (con.payloadDecode ord fh buf).1 := by
  unfold Connection.payloadDecode
  split
  · next hType => exact hData hType
  · exact (h.decodes _).headersFrameDecode ..
  · exact (h.decodes 0).priorityDecode h.setError ..
  · exact (h.decodes _).rstStreamDecode (fun con _ => h.modify con fh.stream fun _ => ⟨rfl, rfl, rfl⟩) ..
  · exact h.manages.settingsDecode ..
  · next hType => exact hPush hType
  · exact h.manages.pingDecode ..
  · exact h.manages.goawayDecode ..
  · exact h.windowUpdateDecode ..
  · exact (h.decodes _).continuationDecode ..
  · exact h.refl con

theorem PassesFree.frameReceive (ord : HashOrder) (con : Connection) {fh : FrameHeader} {buf : Octets}
    (hData : fh.type = .data → R con (con.dataDecode fh buf).1)
    (hPush : fh.type = .pushPromise → R con (con.pushPromiseDecode fh buf).1) :
    R con (con.frameReceive ord fh buf).1 := by
  have hPayload := h.payloadDecode ord con hData hPush
  rw [Connection.frameReceive]
  split
  · next hNone =>
      rw [hNone] at hPayload
      exact hPayload
  · next hSome =>
      rw [hSome] at hPayload
      exact h.trans hPayload (h.stateMachine ..)

/-- The frame may make its stream before it is decoded. -/
theorem PassesFree.frameAdmit (ord : HashOrder) (con : Connection) {fh : FrameHeader} {buf : Octets}
    (hData : fh.type = .data → ∀ con, R con (con.dataDecode fh buf).1)
    (hPush : promises ∨ ¬ con.Promises fh buf) : R con (con.frameAdmit ord fh buf).1 := by
  have hReceive {con : Connection} (hPush : promises ∨ ¬ con.Promises fh buf) :
      R con (con.frameReceive ord fh buf).1 :=
    h.frameReceive ord con (fun hType => hData hType con) fun hType => hPush.elim (fun hPromises => h.pushPromiseDecode hPromises con fh buf)
      (h.pushPromiseDecode_refused hType)
  rw [Connection.frameAdmit]
  split
  · next hAbsent =>
      have hNew := h.newPeerStream con fh.stream (.inr (Option.isNone_iff_eq_none.mp hAbsent.2))
      split
      · next hTrue =>
          obtain ⟨hGood, -, rfl⟩ := newPeerStream_of_true hTrue
          rw [hTrue] at hNew
          exact h.trans hNew (hReceive (hPush.imp_right fun hNot => not_promises_admitted hNot hGood))
      · next hFalse =>
          rw [hFalse] at hNew
          exact hNew
  · exact hReceive hPush

/-! ### Header blocks that are sent -/

theorem PassesFree.setEncodeCtx (con : Connection) (encodeCtx : Context) : R con { con with encodeCtx } :=
  h.beside ⟨rfl, rfl, rfl, rfl, rfl, rfl, rfl, rfl, rfl, id⟩ rfl

theorem PassesFree.fragments (sid : Nat)
    (hPush : ∀ con frame, frame.type = .continuation → R con (con.push frame)) : Fragments sid R where
  toChains := h.toChains
  encode con _ := h.setEncodeCtx con _
  continuation con _ flags := h.enqueue_of_push con _ flags sid fun con => hPush con _ rfl

theorem PassesFree.sendHeaders
    (hPush : ∀ con frame, frame.type ≠ .windowUpdate → R con (con.push frame)) (con : Connection)
    (sid : Nat) (headers : List Header) (ended : Bool) : R con (con.sendHeaders sid headers ended) :=
  (h.fragments sid fun con frame hType => hPush con frame (by simp [hType])).sendHeaders
    (fun con _ flags => h.enqueue_of_push con _ flags sid fun con => hPush con _ (by simp [FrameData.type]))
    con headers ended

theorem PassesFree.sendPpHeaders
    (hPush : ∀ con frame, frame.type ≠ .windowUpdate → R con (con.push frame)) (con : Connection)
    (sid promisedId : Nat) (headers : List Header) : R con (con.sendPpHeaders sid promisedId headers) :=
  (h.fragments sid fun con frame hType => hPush con frame (by simp [hType])).sendPpHeaders
    (fun con _ flags => h.enqueue_of_push con _ flags sid fun con => hPush con _ (by simp [FrameData.type]))
    con headers

end

/-! ### All steps -/

section
variable {promises : Prop} {R : Connection → Connection → Prop} (h : Passes promises R)
include h

theorem Passes.enqueue_of_push (con : Connection) (d : FrameData) (flags : UInt8) (sid : Nat)
    (hPush : ∀ con, R con (con.push ⟨d.type, (d.encode flags).1, sid, (d.encode flags).2⟩)) :
    R con (con.enqueue d flags sid) := h.free.enqueue_of_push con d flags sid hPush

theorem Passes.ackPing (con : Connection) (payload : Octets) : R con (con.ackPing payload) :=
  h.free.ackPing con payload

theorem Passes.sendPing (con : Connection) (payload : Octets) : R con (con.sendPing payload) :=
  h.free.sendPing con payload

theorem Passes.sendData (con : Connection) (sid : Nat) (chunk : Octets) (ended : Option Bool) :
    R con (con.sendData sid chunk ended) := (h.free.uploads sid).sendData con chunk ended

theorem Passes.sendHeaders (hPush : ∀ con frame, R con (con.push frame)) (con : Connection) (sid : Nat)
    (headers : List Header) (ended : Bool) : R con (con.sendHeaders sid headers ended) :=
  h.free.sendHeaders (fun con frame _ => hPush con frame) con sid headers ended

theorem Passes.sendPpHeaders (hPush : ∀ con frame, R con (con.push frame)) (con : Connection)
    (sid promisedId : Nat) (headers : List Header) : R con (con.sendPpHeaders sid promisedId headers) :=
  h.free.sendPpHeaders (fun con frame _ => hPush con frame) con sid promisedId headers

/-! ### Frames of data that are received -/

theorem Passes.addFcwRecv (con : Connection) (delta : Int) : R con (con.addFcwRecv delta) :=
  h.beside ⟨rfl, rfl, rfl, rfl, rfl, rfl, rfl, rfl, rfl, id⟩

theorem Passes.addStreamFcwRecv (con : Connection) (sid : Nat) (delta : Int) :
    R con (con.addStreamFcwRecv sid delta) :=
  h.modify con sid fun _ => ⟨rfl, rfl, rfl⟩

theorem Passes.fcwUpdate (con : Connection) : R con con.fcwUpdate :=
  h.trans (h.addFcwRecv con _)
    (h.enqueue_of_push _ (.windowUpdate _) 0 0 fun con => h.push con plain_windowUpdate)

theorem Passes.streamFcwUpdate (con : Connection) (sid : Nat) : R con (con.streamFcwUpdate sid) :=
  h.trans (h.addStreamFcwRecv con sid _)
    (h.enqueue_of_push _ (.windowUpdate _) 0 sid fun con => h.push con plain_windowUpdate)

theorem Passes.dataDecode (con : Connection) (fh : FrameHeader) (buf : Octets) :
    R con (con.dataDecode fh buf).1 := by
  rcases h.free.dataDecode h.fcwUpdate (fun _ con => h.streamFcwUpdate con fh.stream) con buf with
    hRefused | hTaken
  · exact hRefused
  · exact h.trans (h.trans (h.addFcwRecv con (-fh.length)) (h.addStreamFcwRecv _ fh.stream (-fh.length)))
      hTaken

theorem Passes.frameDecode (ord : HashOrder) (con : Connection) (buf : Octets)
    (hTurn : promises ∨ ∀ fh payload, con.inTurn buf = some (fh, payload) → ¬ con.Promises fh payload) :
    R con (con.frameDecode ord buf).1 := by
  rcases con.frameDecode_cases ord buf with hSame | ⟨code, hError⟩ | ⟨fh, payload, hNext, hAdmit⟩
  · rw [hSame]
    exact h.refl con
  · rw [hError]
    exact h.setError ..
  · rw [hAdmit]
    exact h.free.frameAdmit ord con (fun _ con => h.dataDecode con fh payload)
      (hTurn.imp_right fun hNo => hNo fh payload hNext)

/-! ### Input -/

theorem Passes.feedLoop (hPromises : promises) (ord : HashOrder) (fuel : Nat) :
    ∀ (con : Connection) (input : Octets), R con (Server.feedLoop ord fuel con input).1 := by
  induction fuel with
  | zero => exact fun con _ => h.refl con
  | succ fuel ih =>
      intro con input
      have hFrame := h.frameDecode ord con input (.inl hPromises)
      rw [Server.feedLoop]
      split
      · next hNext =>
          rw [hNext] at hFrame
          exact hFrame
      · next hNext =>
          rw [hNext] at hFrame
          exact hFrame
      · next hNext =>
          rw [hNext] at hFrame
          exact h.trans hFrame (ih _ _)

theorem Passes.feedFrames (hPromises : promises) (ord : HashOrder) (con : Connection) (input : Octets) :
    R con (Server.feedFrames ord con input).con :=
  h.feedLoop hPromises ord (input.length + 1) con input

theorem Passes.feed (hPromises : promises) (hPreface : ∀ con, R con { con with preface := true })
    (hShutdown : ∀ con, R con { con with shutdown := true }) (ord : HashOrder) (server : Server)
    (chunk : Octets) : R server.con (server.feed ord chunk).con := by
  rw [Server.feed]
  dsimp only
  split
  · exact h.feedFrames hPromises ..
  · split
    · exact hShutdown _
    · exact h.refl _
    · exact h.trans (hPreface _) (h.feedFrames hPromises ..)

end

end Connection
end PageCamel.Http2

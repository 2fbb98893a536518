import PageCamel.Http2.DecoderRule
import PageCamel.Http2.Server

/-!
Progress of `feed`. A decoder that returns `undef` ends the loop of `feed` with
its frame still in the input. That is meant for connection errors, after which
the connection shuts down; the decoders of header blocks return `undef` for
stream errors as well, and then the next call of `feed` meets the same frame again.
-/

namespace PageCamel.Http2
open PageCamel.Lib

/-- A stream without its priority and without the block collected so far. -/
def Stream.core (s : Stream) : Stream :=
  { s with weight := none, streamDep := none, headerBlock := none }

theorem Stream.field_congr {α : Type} {field : Stream → α} (hField : ∀ s : Stream, field s.core = field s)
    {s s' : Stream} (h : s'.core = s.core) : field s' = field s := by
  rw [← hField s', h, hField]

namespace Connection

variable {con con' con'' : Connection}

/-! ### Resetting a stream -/

/-- Sending RST_STREAM is itself an error: a header block of the stream is
pending, or a client resets a stream that is closed. -/
def ResetRaises (con : Connection) (sid : Nat) : Prop :=
  let state := con.get ((con.get sid Stream.promisedSid).getD sid) Stream.state
  sid ≠ 0 ∧ con.preface = true ∧ state.isSome ∧
    ((con.get sid Stream.pendingState).isSome ∨ (state = some .closed ∧ con.type = .client))

theorem type_vivify (con : Connection) (sid : Nat) : (con.vivify sid).type = con.type :=
  (quiet_vivify con sid).type

theorem shutdown_stateStep_reset (con : Connection) (flags : UInt8) (sid : Nat)
    (promisedSid : Option Nat) (state : StreamState) :
    (con.stateStep .send .rstStream flags sid promisedSid (some state)).shutdown = true ↔
      con.shutdown = true ∨ (state = .closed ∧ con.type = .client) := by
  cases hType : con.type <;> cases state <;> simp [stateStep, hType]

theorem shutdown_stateMachine_reset (con : Connection) (flags : UInt8) (sid : Nat) :
    (con.stateMachine .send .rstStream flags sid).shutdown = true ↔
      con.shutdown = true ∨ con.ResetRaises sid := by
  unfold stateMachine ResetRaises
  by_cases hSkip : sid = 0 ∨ con.preface = false
  · rcases hSkip with h | h <;> simp [h]
  obtain ⟨hSid, hPreface⟩ : sid ≠ 0 ∧ con.preface = true := by simpa using hSkip
  have hState : Stream.state {} = none := rfl
  have hPending : Stream.pendingState {} = none := rfl
  simp only [hSid, hPreface, get_vivify hState, get_vivify hPending]
  generalize con.get ((con.get sid Stream.promisedSid).getD sid) Stream.state = state
  generalize con.get sid Stream.pendingState = pending
  cases state with
  | none => simp
  | some state =>
      cases pending with
      | none => simp [hSid, shutdown_stateStep_reset, type_vivify]
      | some _ => simp [hSid]

theorem resetRaises_congr {sid : Nat} (hPreface : con'.preface = con.preface)
    (hType : con'.type = con.type)
    (hState : ∀ other, con'.get other Stream.state = con.get other Stream.state)
    (hPromised : con'.get sid Stream.promisedSid = con.get sid Stream.promisedSid)
    (hPending : con'.get sid Stream.pendingState = con.get sid Stream.pendingState) :
    con'.ResetRaises sid ↔ con.ResetRaises sid := by
  simp only [ResetRaises, hPreface, hType, hState, hPromised, hPending]

theorem resetRaises_modifyStream {f : Stream → Stream} (hState : ∀ s, (f s).state = s.state)
    (hPromised : ∀ s, (f s).promisedSid = s.promisedSid)
    (hPending : ∀ s, (f s).pendingState = s.pendingState)
    (con : Connection) (sid other : Nat) :
    (con.modifyStream sid f).ResetRaises other ↔ con.ResetRaises other := by
  apply resetRaises_congr
  · simp
  · simp
  · exact fun _ => get_modifyStream hState con sid _
  · exact get_modifyStream hPromised con sid other
  · exact get_modifyStream hPending con sid other

@[simp] theorem resetRaises_push (con : Connection) (frame : Frame) (sid : Nat) :
    (con.push frame).ResetRaises sid ↔ con.ResetRaises sid := Iff.rfl

@[simp] theorem resetRaises_setDecodeCtx (con : Connection) (decodeCtx : DecodeContext)
    (sid : Nat) : (con.setDecodeCtx decodeCtx).ResetRaises sid ↔ con.ResetRaises sid := Iff.rfl

@[simp] theorem resetRaises_setHeaderBlock (con : Connection) (sid other : Nat) (block : Octets) :
    (con.setHeaderBlock sid block).ResetRaises other ↔ con.ResetRaises other :=
  resetRaises_modifyStream (f := Stream.setHeaderBlock block)
    (fun _ => rfl) (fun _ => rfl) (fun _ => rfl) con sid other

@[simp] theorem resetRaises_announce (con : Connection) (sid other : Nat) (c : Validation) :
    (con.announce sid c).ResetRaises other ↔ con.ResetRaises other :=
  resetRaises_modifyStream (f := Stream.announce c)
    (fun _ => rfl) (fun _ => rfl) (fun _ => rfl) con sid other

theorem shutdown_streamError (con : Connection) (sid : Nat) (code : ErrorCode) :
    (con.streamError sid code).shutdown = true ↔ con.shutdown = true ∨ con.ResetRaises sid := by
  have hReset := resetRaises_modifyStream (f := Stream.setReset code.code)
    (fun _ => rfl) (fun _ => rfl) (fun _ => rfl) con sid sid
  refine (shutdown_stateMachine_reset _ 0 sid).trans ?_
  simpa [encodeEffect] using or_congr_right hReset

/-! ### Refused header blocks -/

@[simp] theorem shutdown_setDecodeCtx (con : Connection) (decodeCtx : DecodeContext) :
    (con.setDecodeCtx decodeCtx).shutdown = con.shutdown := rfl

@[simp] theorem shutdown_setHeaderBlock (con : Connection) (sid : Nat) (block : Octets) :
    (con.setHeaderBlock sid block).shutdown = con.shutdown := shutdown_modifyStream con sid _

@[simp] theorem shutdown_announce (con : Connection) (sid : Nat) (c : Validation) :
    (con.announce sid c).shutdown = con.shutdown := shutdown_modifyStream con sid _

/-- The list the decoder has emitted is one `validate_headers` refuses. -/
def refusesList (con : Connection) (sid : Nat) : Bool :=
  !(con.validation con.decodeCtx.emittedHeaders sid (con.isResponse sid)).accepted

/-- `headers_decode` or `validate_headers` refuses the block with a stream error. -/
def refusesBlock (con : Connection) (sid : Nat) (block : Octets) : Bool :=
  match headersDecode con.decodeCtx block with
  | (_, .conError _) => false
  | (_, .streamError _) => true
  | (decodeCtx, .done) => (con.setDecodeCtx decodeCtx).refusesList sid

/-- A function failed and yet the connection goes on. -/
def Failed (r : Connection × Bool) : Prop := r.2 = false ∧ r.1.shutdown = false

theorem headersDecoded_failed_iff (con : Connection) (sid : Nat) :
    Failed (con.headersDecoded sid) ↔
      con.shutdown = false ∧ con.refusesList sid = true ∧ ¬ con.ResetRaises sid := by
  simp only [headersDecoded, validateHeaders, refusesList]
  cases hAccepted : (con.validation con.decodeCtx.emittedHeaders sid (con.isResponse sid)).accepted with
  | true => simp [Failed]
  | false => simp [Failed, ← Bool.not_eq_true, shutdown_streamError]

theorem refusesList_congr {sid : Nat} (hType : con'.type = con.type)
    (hDecodeCtx : con'.decodeCtx = con.decodeCtx)
    (hPromised : con'.get sid Stream.promisedSid = con.get sid Stream.promisedSid)
    (hTrailer : con'.get sid Stream.trailer = con.get sid Stream.trailer) :
    con'.refusesList sid = con.refusesList sid := by
  unfold refusesList validation isResponse decSetting
  rw [hType, hDecodeCtx, hPromised, hTrailer]

theorem get_setHeaderBlock {α : Type} {field : Stream → Option α}
    (hField : ∀ s block, field (Stream.setHeaderBlock block s) = field s)
    (con : Connection) (sid other : Nat) (block : Octets) :
    (con.setHeaderBlock sid block).get other field = con.get other field :=
  get_modifyStream (fun s => hField s block) con sid other

theorem refusesList_setHeaderBlock (con : Connection) (sid : Nat) (block : Octets) :
    (con.setHeaderBlock sid block).refusesList sid = con.refusesList sid := by
  apply refusesList_congr
  · simp [setHeaderBlock]
  · simp [setHeaderBlock]
  · exact get_setHeaderBlock (fun _ _ => rfl) _ sid sid block
  · exact get_setHeaderBlock (fun _ _ => rfl) _ sid sid block

theorem streamHeadersDone_failed_iff {sid : Nat} {s : Stream} {block : Octets}
    (hs : con.stream? sid = some s) (hBlock : s.headerBlock = some block) :
    Failed (con.streamHeadersDone sid) ↔
      con.shutdown = false ∧ con.refusesBlock sid block = true ∧ ¬ con.ResetRaises sid := by
  simp only [streamHeadersDone, hs, hBlock, Option.getD_some, decodeBlock, refusesBlock]
  rcases headersDecode con.decodeCtx block with ⟨decodeCtx, result⟩
  cases result with
  | conError code => simp [Failed]
  | streamError code => simp [Failed, ← Bool.not_eq_true, shutdown_streamError]
  | done =>
      simp [headersDecoded_failed_iff, refusesList_setHeaderBlock]

/-! ### Frames that change no header block -/

/-- The two connections treat header blocks alike. -/
structure Alike (con con' : Connection) : Prop where
  shutdown : con'.shutdown = con.shutdown
  preface : con'.preface = con.preface
  type : con'.type = con.type
  decodeCtx : con'.decodeCtx = con.decodeCtx
  pendingStream : con'.pendingStream = con.pendingStream
  streams : ∀ sid, (con'.stream? sid).map Stream.core = (con.stream? sid).map Stream.core

theorem Alike.refl (con : Connection) : Alike con con :=
  ⟨rfl, rfl, rfl, rfl, rfl, fun _ => rfl⟩

theorem Alike.trans (h : Alike con con') (h' : Alike con' con'') : Alike con con'' :=
  ⟨h'.shutdown.trans h.shutdown, h'.preface.trans h.preface, h'.type.trans h.type,
    h'.decodeCtx.trans h.decodeCtx, h'.pendingStream.trans h.pendingStream,
    fun sid => (h'.streams sid).trans (h.streams sid)⟩

theorem pendingStream_setError (con : Connection) (code : ErrorCode) :
    (con.setError code).pendingStream = con.pendingStream := by
  unfold setError finish
  split
  · rfl
  · simp only [*]

theorem Alike.isSome (h : Alike con con') (sid : Nat) :
    (con'.stream? sid).isSome = (con.stream? sid).isSome := by
  simpa using congrArg Option.isSome (h.streams sid)

theorem Alike.get {α : Type} {field : Stream → Option α} (h : Alike con con')
    (hField : ∀ s : Stream, field s.core = field s) (sid : Nat) :
    con'.get sid field = con.get sid field := by
  have hCore : ∀ con : Connection,
      con.get sid field = ((con.stream? sid).map Stream.core).bind field := by
    intro con
    cases hs : con.stream? sid <;> simp [Connection.get, hs, hField]
  rw [hCore, hCore, h.streams]

theorem alike_modifyStream {f : Stream → Stream} (hCore : ∀ s, (f s).core = s.core)
    (con : Connection) (sid : Nat) : Alike con (con.modifyStream sid f) := by
  refine ⟨by simp, by simp, by simp, by simp, by simp, fun other => ?_⟩
  rw [stream?_modifyStream]
  split
  · subst other
    cases con.stream? sid <;> simp [hCore]
  · rfl

theorem alike_setHeaderBlock (con : Connection) (sid : Nat) (block : Octets) :
    Alike con (con.setHeaderBlock sid block) :=
  alike_modifyStream (f := Stream.setHeaderBlock block) (fun _ => rfl) con sid

theorem alike_headersPriority (con : Connection) (fh : FrameHeader) (buf : Octets) :
    Alike con (con.headersPriority fh buf).1 := by
  have hReorders : Reorders Alike := ⟨⟨⟨.refl, .trans⟩,
    fun con sid _ => alike_modifyStream (by exact fun _ => rfl) con sid⟩,
    fun con sid _ => alike_modifyStream (by exact fun _ => rfl) con sid⟩
  exact hReorders.headersPriority con fh buf

theorem Alike.resetRaises {sid : Nat} (h : Alike con con') :
    con'.ResetRaises sid ↔ con.ResetRaises sid :=
  resetRaises_congr h.preface h.type (h.get fun _ => rfl) (h.get (fun _ => rfl) sid)
    (h.get (fun _ => rfl) sid)

theorem refusesBlock_congr {sid : Nat} (h : Alike con con') (block : Octets) :
    con'.refusesBlock sid block = con.refusesBlock sid block := by
  unfold refusesBlock
  rw [h.decodeCtx]
  split
  · rfl
  · rfl
  · exact refusesList_congr h.type rfl (h.get (fun _ => rfl) sid) (h.get (fun _ => rfl) sid)

/-! ### Decoders that come to no result -/

/-- A decoder returned `undef` and yet the connection goes on. -/
def Stuck (r : Connection × Option Nat) : Prop := r.2 = none ∧ r.1.shutdown = false

/-- The frame ends a block that is refused. -/
def BlockWedges (con : Connection) (fh : FrameHeader) (block : Octets) : Prop :=
  hasFlag fh.flags Flag.endHeaders = true ∧ con.shutdown = false ∧
    con.refusesBlock fh.stream block = true ∧ ¬ con.ResetRaises fh.stream

theorem Alike.blockWedges (h : Alike con con') (fh : FrameHeader) (block : Octets) :
    con'.BlockWedges fh block ↔ con.BlockWedges fh block := by
  simp only [BlockWedges, h.shutdown, refusesBlock_congr h, h.resetRaises]

@[simp] theorem not_stuck_some (con : Connection) (n : Nat) : ¬ Stuck (con, some n) := by
  simp [Stuck]

@[simp] theorem not_stuck_setError (con : Connection) (code : ErrorCode) :
    ¬ Stuck (con.setError code, none) := by
  simp [Stuck]

theorem blockDecode_stuck_iff {fh : FrameHeader} (hs : (con.stream? fh.stream).isSome)
    (block : Octets) : Stuck (con.blockDecode fh block) ↔ con.BlockWedges fh block := by
  obtain ⟨s, hs⟩ := Option.isSome_iff_exists.mp hs
  have hSet := (setHeaderBlock_self hs block).1
  have hDone := streamHeadersDone_failed_iff hSet rfl
  have hAlike := alike_setHeaderBlock con fh.stream block
  rw [hAlike.shutdown, refusesBlock_congr hAlike, hAlike.resetRaises] at hDone
  rw [BlockWedges, ← hDone, blockDecode]
  split
  · rename_i hEnd
    simp only [hEnd, true_and]
    rcases (con.setHeaderBlock fh.stream block).streamHeadersDone fh.stream with ⟨con', ok⟩
    cases ok <;> simp [Stuck, Failed]
  · rename_i hEnd
    simp [Stuck, hEnd]

theorem headersFrameDecode_stuck_iff {fh : FrameHeader} (hs : (con.stream? fh.stream).isSome)
    (buf : Octets) : Stuck (con.headersFrameDecode fh buf) ↔
      fh.stream ≠ 0 ∧ (con.headersPriority fh buf).2 = true ∧
        headersOffset fh + padSize fh buf ≤ fh.length ∧
        con.BlockWedges fh (headersBlock fh buf) := by
  have hAlike := alike_headersPriority con fh buf
  unfold headersFrameDecode
  split
  · simp [*]
  · rename_i hStream
    rcases hPriority : con.headersPriority fh buf with ⟨con', ok⟩
    rw [hPriority] at hAlike
    cases ok with
    | false => simp
    | true =>
        dsimp only
        split
        · rename_i hShort
          simp [Nat.not_le.mpr hShort]
        · rename_i hLong
          rw [blockDecode_stuck_iff (by rw [hAlike.isSome, hs]), hAlike.blockWedges]
          simp [hStream, Nat.not_lt.mp hLong]

theorem continuationDecode_stuck_iff {fh : FrameHeader} (hs : (con.stream? fh.stream).isSome)
    (buf : Octets) : Stuck (con.continuationDecode fh buf) ↔
      fh.stream ≠ 0 ∧ con.BlockWedges fh (buf.take fh.length) := by
  unfold continuationDecode
  split
  · simp [*]
  · rename_i hStream
    simp [blockDecode_stuck_iff hs, hStream]

/-- A promised stream is refused because too many are active. -/
def RefusedWedges (con : Connection) (sid : Nat) : Prop :=
  con.peerStreamsFull = true ∧ con.shutdown = false ∧ ¬ con.ResetRaises sid

/-- What a PUSH_PROMISE frame leaves behind once its stream is made. -/
def promise (con : Connection) (fh : FrameHeader) (buf : Octets) : Connection :=
  (con.admitted (promisedId fh buf)).setPromised fh.stream (promisedId fh buf)

theorem stream?_admitted (con : Connection) (sid other : Nat) :
    ((con.admitted sid).stream? other).isSome ↔ other = sid ∨ (con.stream? other).isSome := by
  have hAdmit : (con.admitted sid).stream? other = (con.setStream sid
      { con.newStreamEntry with cb := [(.opened, .opened), (.halfClosed, .halfClosed)] }).stream?
        other := rfl
  rw [hAdmit, stream?_setStream]
  split <;> simp [*]

theorem shutdown_refuse (con : Connection) (sid : Nat) :
    ((con.setLastPeerStream sid).streamError sid .refusedStream).shutdown = false ↔
      con.shutdown = false ∧ ¬ con.ResetRaises sid := by
  rw [← Bool.not_eq_true, shutdown_streamError, not_or, Bool.not_eq_true]
  rfl

theorem pushPromiseDecode_stuck_iff {fh : FrameHeader} (hs : (con.stream? fh.stream).isSome)
    (buf : Octets) : Stuck (con.pushPromiseDecode fh buf) ↔
      fh.stream ≠ 0 ∧ con.decSetting Setting.enablePush ≠ 0 ∧
        promiseOffset fh + padSize fh buf ≤ fh.length ∧
        con.badPeerStream (promisedId fh buf) = false ∧
        (con.RefusedWedges (promisedId fh buf) ∨
          (con.peerStreamsFull = false ∧
            (con.promise fh buf).BlockWedges fh (promiseBlock fh buf))) := by
  unfold pushPromiseDecode
  split
  · rename_i hForbidden
    rcases hForbidden with h | h <;> simp [h]
  · rename_i hAllowed
    obtain ⟨hStream, hPush⟩ := not_or.mp hAllowed
    split
    · rename_i hShort
      simp [Nat.not_le.mpr hShort]
    · rename_i hLong
      simp only [Nat.not_lt.mp hLong, newPeerStream]
      cases hBad : con.badPeerStream (promisedId fh buf) with
      | true => simp
      | false =>
          cases hFull : con.peerStreamsFull with
          | true => simp [Stuck, RefusedWedges, shutdown_refuse, hFull, hStream, hPush]
          | false =>
              have hs' : ((con.promise fh buf).stream? fh.stream).isSome := by
                unfold promise setPromised
                rw [isSome_stream?_modifyStream, stream?_admitted]
                exact Or.inr hs
              have hBlock := blockDecode_stuck_iff hs' (promiseBlock fh buf)
              simpa [RefusedWedges, hFull, hStream, hPush, promise] using hBlock

theorem dataDecode_not_stuck (con : Connection) (fh : FrameHeader) (buf : Octets) :
    ¬ Stuck (con.dataDecode fh buf) := by
  unfold dataDecode
  dsimp only
  repeat' split
  all_goals simp

theorem priorityDecode_not_stuck (con : Connection) (fh : FrameHeader) (buf : Octets) :
    ¬ Stuck (con.priorityDecode fh buf) := by
  unfold priorityDecode
  dsimp only
  repeat' split
  all_goals simp

theorem rstStreamDecode_not_stuck (con : Connection) (fh : FrameHeader) (buf : Octets) :
    ¬ Stuck (con.rstStreamDecode fh buf) := by
  unfold rstStreamDecode
  repeat' split
  all_goals simp

theorem applySettings_shutdown (con : Connection) (pairs : List (Nat × Nat))
    (h : (con.applySettings pairs).2 = false) : (con.applySettings pairs).1.shutdown = true := by
  induction pairs generalizing con with
  | nil => simp [applySettings] at h
  | cons pair pairs ih =>
      simp only [applySettings] at h ⊢
      split
      · rename_i hOk
        simp only [hOk] at h
        exact ih _ h
      · simp

theorem settingsDecode_not_stuck (con : Connection) (fh : FrameHeader) (buf : Octets) :
    ¬ Stuck (con.settingsDecode fh buf) := by
  have hSettings := applySettings_shutdown con (settingsPairs (buf.take fh.length))
  unfold settingsDecode
  repeat' split
  all_goals simp_all [Stuck]

theorem pingDecode_not_stuck (con : Connection) (fh : FrameHeader) (buf : Octets) :
    ¬ Stuck (con.pingDecode fh buf) := by
  unfold pingDecode
  repeat' split
  all_goals simp

theorem goawayDecode_not_stuck (con : Connection) (fh : FrameHeader) :
    ¬ Stuck (con.goawayDecode fh) := by
  unfold goawayDecode
  split <;> simp

theorem windowUpdateDecode_not_stuck (ord : HashOrder) (con : Connection) (fh : FrameHeader)
    (buf : Octets) : ¬ Stuck (con.windowUpdateDecode ord fh buf) := by
  unfold windowUpdateDecode
  dsimp only
  repeat' split
  all_goals simp

/-! ### Frames that stay in the input -/

/-- The payloads that get stuck, on a stream that exists: a refused header block,
and a promise of a stream beyond the limit. -/
def PayloadWedges (con : Connection) (fh : FrameHeader) (buf : Octets) : Prop :=
  fh.stream ≠ 0 ∧
    match fh.type with
    | .headers =>
        (con.headersPriority fh buf).2 = true ∧ headersOffset fh + padSize fh buf ≤ fh.length ∧
          con.BlockWedges fh (headersBlock fh buf)
    | .continuation => con.BlockWedges fh (buf.take fh.length)
    | .pushPromise =>
        con.decSetting Setting.enablePush ≠ 0 ∧ promiseOffset fh + padSize fh buf ≤ fh.length ∧
          con.badPeerStream (promisedId fh buf) = false ∧
          (con.RefusedWedges (promisedId fh buf) ∨
            (con.peerStreamsFull = false ∧
              (con.promise fh buf).BlockWedges fh (promiseBlock fh buf)))
    | _ => False

/-- The frames that get stuck, on a stream that exists or is admitted. (A stream
refused by the limit gets its frame stuck only if the connection had an error and
yet was not shut down.) -/
def FrameWedges (con : Connection) (fh : FrameHeader) (buf : Octets) : Prop :=
  con.awaitsOther fh = false ∧ (∀ code, fh.type ≠ .unknown code) ∧
    if fh.stream ≠ 0 ∧ (con.stream? fh.stream).isNone then
      con.badPeerStream fh.stream = false ∧
        ((con.error.isSome ∧ con.RefusedWedges fh.stream) ∨
          (con.peerStreamsFull = false ∧ (con.admitted fh.stream).PayloadWedges fh buf))
    else con.PayloadWedges fh buf

theorem frameReceive_stuck_iff (ord : HashOrder) {fh : FrameHeader}
    (hs : fh.stream ≠ 0 → (con.stream? fh.stream).isSome) (buf : Octets) :
    Stuck (con.frameReceive ord fh buf) ↔ con.PayloadWedges fh buf := by
  have hPayload : Stuck (con.frameReceive ord fh buf) ↔ Stuck (con.payloadDecode ord fh buf) := by
    unfold frameReceive
    rcases con.payloadDecode ord fh buf with ⟨con', _ | n⟩ <;> simp [Stuck]
  rw [hPayload]
  unfold payloadDecode PayloadWedges
  by_cases hStream : fh.stream = 0
  · cases fh.type <;>
      simp [hStream, headersFrameDecode, continuationDecode, pushPromiseDecode,
        dataDecode_not_stuck, priorityDecode_not_stuck, rstStreamDecode_not_stuck,
        settingsDecode_not_stuck, pingDecode_not_stuck, goawayDecode_not_stuck,
        windowUpdateDecode_not_stuck]
  · cases fh.type with
    | headers => simpa [hStream] using headersFrameDecode_stuck_iff (hs hStream) buf
    | continuation => simpa [hStream] using continuationDecode_stuck_iff (hs hStream) buf
    | pushPromise => simpa [hStream] using pushPromiseDecode_stuck_iff (hs hStream) buf
    | _ =>
        simp [dataDecode_not_stuck, priorityDecode_not_stuck, rstStreamDecode_not_stuck,
          settingsDecode_not_stuck, pingDecode_not_stuck, goawayDecode_not_stuck,
          windowUpdateDecode_not_stuck]

theorem error_refuse (con : Connection) (sid : Nat)
    (h : ((con.setLastPeerStream sid).streamError sid .refusedStream).shutdown = false) :
    ((con.setLastPeerStream sid).streamError sid .refusedStream).error = con.error := by
  have hQuiet := quiet_stateMachine
    (((con.setLastPeerStream sid).encodeEffect (.rstStream ErrorCode.refusedStream.code) sid).push
      ⟨.rstStream, 0, sid, pack32 ErrorCode.refusedStream.code⟩) .send .rstStream 0 sid
  refine (hQuiet.error h).trans ?_
  simp [push, encodeEffect, setLastPeerStream]

theorem frameAdmit_stuck_iff (ord : HashOrder) (con : Connection) (fh : FrameHeader)
    (buf : Octets) : Stuck (con.frameAdmit ord fh buf) ↔
      if fh.stream ≠ 0 ∧ (con.stream? fh.stream).isNone then
        con.badPeerStream fh.stream = false ∧
          ((con.error.isSome ∧ con.RefusedWedges fh.stream) ∨
            (con.peerStreamsFull = false ∧ (con.admitted fh.stream).PayloadWedges fh buf))
      else con.PayloadWedges fh buf := by
  unfold frameAdmit
  split
  · simp only [newPeerStream]
    cases hBad : con.badPeerStream fh.stream with
    | true => simp [Stuck]
    | false =>
        cases hFull : con.peerStreamsFull with
        | true =>
            have hUp := shutdown_refuse con fh.stream
            have hError := error_refuse con fh.stream
            simp only [Stuck, RefusedWedges, hFull, ← hUp]
            cases hDown : ((con.setLastPeerStream fh.stream).streamError fh.stream
                .refusedStream).shutdown with
            | true => simp [hDown]
            | false => simp [hDown, hError hDown, Option.isSome_iff_ne_none]
        | false =>
            have hs : ((con.admitted fh.stream).stream? fh.stream).isSome :=
              (stream?_admitted con fh.stream fh.stream).mpr (Or.inl rfl)
            simpa [RefusedWedges, hFull] using frameReceive_stuck_iff ord (fun _ => hs) buf
  · rename_i hOld
    apply frameReceive_stuck_iff
    intro hStream
    simpa [hStream, Option.isSome_iff_ne_none] using hOld

theorem frameApply_stuck_iff (ord : HashOrder) (con : Connection) (fh : FrameHeader)
    (buf : Octets) : Stuck (con.frameApply ord fh buf) ↔ con.FrameWedges fh buf := by
  unfold frameApply FrameWedges
  cases hOther : con.awaitsOther fh with
  | true => simp
  | false =>
      rw [← frameAdmit_stuck_iff ord]
      cases fh.type <;> simp

/-! ### Frames in the input -/

/-- The buffer is a strict prefix of one frame. -/
def Incomplete (buf : Octets) : Prop :=
  buf.length < frameHeaderSize ∨ buf.length < frameHeaderSize + (frameHeaderDecode buf).length

/-- The first frame of the buffer gets stuck. -/
def Wedges (con : Connection) (buf : Octets) : Prop :=
  ¬ Incomplete buf ∧ (frameHeaderDecode buf).length ≤ con.decSetting Setting.maxFrameSize ∧
    con.FrameWedges (frameHeaderDecode buf) (buf.drop frameHeaderSize)

theorem frameDecode_stuck_iff (ord : HashOrder) (con : Connection) (buf : Octets) :
    Stuck (con.frameDecode ord buf) ↔ con.Wedges buf := by
  unfold frameDecode Wedges Incomplete
  dsimp only
  split
  · simp [*]
  · split
    · rename_i hLarge
      simp [Nat.not_le.mpr hLarge]
    · rename_i hSmall
      split
      · simp [*]
      · rw [frameApply_stuck_iff]
        simp [*, Nat.not_lt.mp hSmall]

theorem frameReceive_some {ord : HashOrder} {fh : FrameHeader} {buf : Octets} {len : Nat}
    (h : (con.frameReceive ord fh buf).2 = some len) : len = frameHeaderSize + fh.length := by
  unfold frameReceive at h
  split at h <;> simp_all

theorem frameApply_some {ord : HashOrder} {fh : FrameHeader} {buf : Octets} {len : Nat}
    (h : (con.frameApply ord fh buf).2 = some len) : len = frameHeaderSize + fh.length := by
  unfold frameApply frameAdmit at h
  repeat' split at h
  all_goals
    first
    | exact frameReceive_some h
    | simp_all

/-- What a frame that is taken off the buffer looks like. -/
theorem frameDecode_some {ord : HashOrder} {buf : Octets} {len : Nat}
    (h : con.frameDecode ord buf = (con', some len)) :
    (len = 0 ∧ con' = con ∧ Incomplete buf) ∨
      (len = frameHeaderSize + (frameHeaderDecode buf).length ∧ len ≤ buf.length) := by
  unfold frameDecode at h
  dsimp only at h
  split at h
  · rename_i hShort
    simp only [Prod.mk.injEq, Option.some.injEq] at h
    exact Or.inl ⟨h.2.symm, h.1.symm, Or.inl hShort⟩
  · split at h
    · simp at h
    · split at h
      · rename_i hShort
        simp only [Prod.mk.injEq, Option.some.injEq] at h
        exact Or.inl ⟨h.2.symm, h.1.symm, Or.inr hShort⟩
      · rename_i hLong
        have hLen := frameApply_some (congrArg Prod.snd h)
        exact Or.inr ⟨hLen, by omega⟩

theorem frameDecode_taken {ord : HashOrder} {buf : Octets} {len : Nat}
    (h : con.frameDecode ord buf = (con', some len)) (hLen : len ≠ 0) :
    len = frameHeaderSize + (frameHeaderDecode buf).length ∧ len ≤ buf.length := by
  rcases frameDecode_some h with ⟨hZero, -⟩ | hTaken
  · exact absurd hZero hLen
  · exact hTaken

end Connection

/-! ### The loop of `feed` -/

/-- The frames at the front of the input have been decoded, each of them once and
in order, and `rest` is what is left. -/
inductive FramesConsumed (ord : HashOrder) : Connection → Octets → Connection → Octets → Prop
  | refl (con : Connection) (buf : Octets) : FramesConsumed ord con buf con buf
  | frame {con con' con'' : Connection} {buf rest : Octets} {len : Nat}
      (hDecode : con.frameDecode ord buf = (con', some len)) (hLen : len ≠ 0)
      (hRest : FramesConsumed ord con' (buf.drop len) con'' rest) :
      FramesConsumed ord con buf con'' rest

/-- The loop of `feed` stops at this point of the input. -/
def Stops (ord : HashOrder) (con : Connection) (buf : Octets) : Prop :=
  (con.frameDecode ord buf).2 = none ∨ (con.frameDecode ord buf).2 = some 0

theorem feedLoop_of_consumed {ord : HashOrder} {con con' : Connection} {input rest : Octets}
    (h : FramesConsumed ord con input con' rest) (hStops : Stops ord con' rest) {fuel : Nat}
    (hFuel : input.length < fuel) :
    Server.feedLoop ord fuel con input = ((con'.frameDecode ord rest).1, rest) := by
  induction h generalizing fuel with
  | refl con buf =>
      cases fuel with
      | zero => omega
      | succ fuel =>
          rw [Server.feedLoop]
          rcases hDecode : con.frameDecode ord buf with ⟨con', result⟩
          rcases hStops with h | h <;> rw [hDecode] at h <;> simp only at h <;> subst h <;> rfl
  | @frame con con1 con2 buf rest len hDecode hLen hRest ih =>
      cases fuel with
      | zero => omega
      | succ fuel =>
          have hTaken := (Connection.frameDecode_taken hDecode hLen).2
          obtain ⟨n, rfl⟩ := Nat.exists_eq_succ_of_ne_zero hLen
          rw [Server.feedLoop, hDecode]
          exact ih hStops (by rw [List.length_drop]; omega)

/-- An octet string that is one frame. -/
def IsFrame (f : Octets) : Prop := f.length = frameHeaderSize + (frameHeaderDecode f).length

theorem frameHeaderDecode_take {buf : Octets} {n : Nat} (h : frameHeaderSize ≤ n)
    (hBuf : frameHeaderSize ≤ buf.length) :
    (frameHeaderDecode (buf.take n)).length = (frameHeaderDecode buf).length := by
  obtain ⟨m, rfl⟩ := Nat.exists_eq_add_of_le h
  match buf, hBuf with
  | a :: b :: c :: rest, _ =>
      rw [frameHeaderSize, show 9 + m = (m + 6) + 1 + 1 + 1 by omega]
      rfl

/-- What has been consumed is a sequence of whole frames. -/
theorem FramesConsumed.frames {ord : HashOrder} {con con' : Connection} {input rest : Octets}
    (h : FramesConsumed ord con input con' rest) :
    ∃ frames : List Octets, input = frames.flatten ++ rest ∧ ∀ f ∈ frames, IsFrame f := by
  induction h with
  | refl con buf => exact ⟨[], by simp⟩
  | @frame con con1 con2 buf rest len hDecode hLen hRest ih =>
      obtain ⟨frames, hInput, hFrames⟩ := ih
      obtain ⟨hSize, hTaken⟩ := Connection.frameDecode_taken hDecode hLen
      refine ⟨buf.take len :: frames, ?_, ?_⟩
      · rw [List.flatten_cons, List.append_assoc, ← hInput, List.take_append_drop]
      · intro f hf
        rcases List.mem_cons.mp hf with rfl | hf
        · rw [IsFrame, frameHeaderDecode_take (by omega) (by omega), List.length_take]
          omega
        · exact hFrames f hf

theorem exists_stops (ord : HashOrder) (con : Connection) (input : Octets) :
    ∃ con' rest, FramesConsumed ord con input con' rest ∧ Stops ord con' rest := by
  induction hSize : input.length using Nat.strong_induction_on generalizing con input with
  | _ size ih =>
      rcases hDecode : con.frameDecode ord input with ⟨con1, _ | len⟩
      · exact ⟨con, input, .refl con input, Or.inl (by rw [hDecode])⟩
      · by_cases hLen : len = 0
        · exact ⟨con, input, .refl con input, Or.inr (by rw [hDecode, hLen])⟩
        · have hTaken := (Connection.frameDecode_taken hDecode hLen).2
          obtain ⟨con', rest, hConsumed, hStops⟩ :=
            ih (input.drop len).length (by rw [List.length_drop]; omega) con1 (input.drop len) rfl
          exact ⟨con', rest, .frame hDecode hLen hConsumed, hStops⟩

/-- `feed` has made all the progress it can: unless the connection is shut down,
the complete frames of the input have been taken off it, each decoded once. -/
def Progress (ord : HashOrder) (con : Connection) (input : Octets) (after : Server) : Prop :=
  after.con.shutdown = true ∨
    (Connection.Incomplete after.input ∧ FramesConsumed ord con input after.con after.input)

/-- `feed` makes progress exactly when no frame it comes to gets stuck. -/
theorem feed_progress_iff (ord : HashOrder) (server : Server) (chunk : Octets)
    (hPreface : server.con.preface = true) :
    Progress ord server.con (server.input ++ chunk) (server.feed ord chunk) ↔
      ∀ con rest, FramesConsumed ord server.con (server.input ++ chunk) con rest →
        ¬ con.Wedges rest := by
  simp only [Server.feed, hPreface, if_true, Server.feedFrames]
  generalize server.input ++ chunk = input
  constructor
  · intro hProgress con rest hConsumed hWedges
    have hStuck := (Connection.frameDecode_stuck_iff ord con rest).mpr hWedges
    rw [feedLoop_of_consumed hConsumed (Or.inl hStuck.1) (Nat.lt_succ_self _)] at hProgress
    rcases hProgress with hDown | hDone
    · rw [hStuck.2] at hDown
      cases hDown
    · exact hWedges.1 hDone.1
  · intro hFree
    obtain ⟨con, rest, hConsumed, hStops⟩ := exists_stops ord server.con input
    rw [feedLoop_of_consumed hConsumed hStops (Nat.lt_succ_self _)]
    rcases hStops with hNone | hZero
    · have hStuck := mt (Connection.frameDecode_stuck_iff ord con rest).mp (hFree con rest hConsumed)
      left
      by_contra hUp
      exact hStuck ⟨hNone, by simpa using hUp⟩
    · right
      have hDecode : con.frameDecode ord rest = ((con.frameDecode ord rest).1, some 0) := by
        rw [← hZero]
      rcases Connection.frameDecode_some hDecode with ⟨-, hSame, hShort⟩ | ⟨hLen, -⟩
      · exact ⟨hShort, by simpa only [hSame] using hConsumed⟩
      · rw [frameHeaderSize] at hLen
        omega

/-- A server with default settings that has got the preface. -/
def started : Server := { con := { (Server.new ∅).con with preface := true } }

/-- A whole request on stream 1 whose header list is only `:method: GET`. -/
def refusedRequest : Octets := [0, 0, 1, 1, 5, 0, 0, 0, 1, 0x82]

theorem feed_progress_iff_refusedRequest :
    started.con.preface = true ∧
      (Progress .kept started.con (started.input ++ refusedRequest)
          (started.feed .kept refusedRequest) ↔
        ∀ con rest, FramesConsumed .kept started.con (started.input ++ refusedRequest) con rest →
          ¬ con.Wedges rest) :=
  ⟨rfl, feed_progress_iff .kept started refusedRequest rfl⟩

/-- After it the frame is still in the input although the connection goes on. -/
theorem feed_refusedRequest :
    ¬ Progress .kept started.con (started.input ++ refusedRequest)
        (started.feed .kept refusedRequest) := by
  have hUp : (started.feed .kept refusedRequest).con.shutdown = false := by decide +kernel
  have hInput : (started.feed .kept refusedRequest).input = refusedRequest := by decide +kernel
  rintro (hDown | ⟨hShort, -⟩)
  · rw [hUp] at hDown
    cases hDown
  · rw [hInput] at hShort
    rcases hShort with h | h <;> revert h <;> decide

end PageCamel.Http2

import PageCamel.Http2.Server
import PageCamel.Http2.StateMachine

/-!
The frames of an outgoing header block (`send_headers` and `send_pp_headers` in
`Connection.pm`). The two functions cut the block into the right pieces, but the
flags of the CONTINUATION frames are the wrong way round, so only a block that
needs no CONTINUATION frame is sent as a receiver expects it.
-/

namespace PageCamel.Http2
open PageCamel.Lib

/-! ### What has been queued -/

/-- `con'` has queued the given frames on top of what `con` had, and maybe the
GOAWAY frame of an error. -/
def Sends (con con' : Connection) (frames : List Frame) : Prop :=
  ∃ added, con'.queue = con.queue ++ added ∧ added.filter (fun f => f.type ≠ .goaway) = frames

/-- The frames queued between two states, GOAWAY frames left out. -/
def sentFrames (con con' : Connection) : List Frame :=
  (con'.queue.drop con.queue.length).filter fun f => f.type ≠ .goaway

theorem Sends.sentFrames {con con' : Connection} {frames : List Frame} (h : Sends con con' frames) :
    sentFrames con con' = frames := by
  obtain ⟨added, hQueue, hFrames⟩ := h
  rw [Http2.sentFrames, hQueue, List.drop_left, hFrames]

theorem Sends.refl (con : Connection) : Sends con con [] := ⟨[], by simp⟩

theorem Sends.trans {con con' con'' : Connection} {frames frames' : List Frame}
    (h : Sends con con' frames) (h' : Sends con' con'' frames') :
    Sends con con'' (frames ++ frames') := by
  obtain ⟨added, hQueue, hFrames⟩ := h
  obtain ⟨added', hQueue', hFrames'⟩ := h'
  refine ⟨added ++ added', ?_, ?_⟩
  · rw [hQueue', hQueue, List.append_assoc]
  · rw [List.filter_append, hFrames, hFrames']

theorem Connection.Quiet.sends {con con' : Connection} (h : con.Quiet con') : Sends con con' [] := by
  obtain ⟨goaways, hQueue, hGoaways⟩ := h.queue
  refine ⟨goaways, hQueue, ?_⟩
  rw [List.filter_eq_nil_iff]
  intro f hf
  simp [hGoaways f hf]

theorem enqueue_sends (con : Connection) (d : FrameData) (flags : UInt8) (sid : Nat)
    (hType : d.type ≠ .goaway) :
    Sends con (con.enqueue d flags sid) [⟨d.type, (d.encode flags).1, sid, (d.encode flags).2⟩] := by
  have hQueue : (con.encodeEffect d sid).queue = con.queue := by
    cases d with
    | rstStream code =>
        simp only [Connection.encodeEffect, Connection.modifyStream]
        split <;> rfl
    | _ => rfl
  have hPush : Sends con
      ((con.encodeEffect d sid).push ⟨d.type, (d.encode flags).1, sid, (d.encode flags).2⟩)
      [⟨d.type, (d.encode flags).1, sid, (d.encode flags).2⟩] :=
    ⟨_, by rw [Connection.push, hQueue], by simp [hType]⟩
  have hMachine := (Connection.quiet_stateMachine
    ((con.encodeEffect d sid).push ⟨d.type, (d.encode flags).1, sid, (d.encode flags).2⟩)
    .send d.type flags sid).sends
  exact hPush.trans hMachine

/-! ### Well-formed sequences -/

/-- The piece of a header block a frame carries. -/
def Frame.fragment (f : Frame) : Octets :=
  if f.type = .continuation then f.payload
  else
    let padded := hasFlag f.flags Flag.padded
    let offset := (if padded then 1 else 0) +
      (if f.type = .pushPromise then 4 else if hasFlag f.flags Flag.priority then 5 else 0)
    let pad := if padded then unpack8 f.payload else 0
    (f.payload.drop offset).take (f.payload.length - offset - pad)

theorem Frame.fragment_of_plain {f : Frame} (hPadded : hasFlag f.flags Flag.padded = false)
    (hPriority : hasFlag f.flags Flag.priority = false) :
    f.fragment = f.payload.drop (if f.type = .pushPromise then 4 else 0) := by
  unfold Frame.fragment
  split
  · rename_i hType
    simp [hType]
  · simp [hPadded, hPriority]

/-- The frames carry one header block as the protocol wants it: the first frame
has the type `lead`, the others continue it, and the last one alone ends it. -/
structure IsHeaderBlock (lead : FrameType) (sid maxSize : Nat) (block : Octets)
    (frames : List Frame) : Prop where
  types : ∃ head rest, frames = head :: rest ∧ head.type = lead ∧ ∀ f ∈ rest, f.type = .continuation
  streams : ∀ f ∈ frames, f.streamId = sid
  sizes : ∀ f ∈ frames, f.payload.length ≤ maxSize
  ends : ∀ i f, frames[i]? = some f →
    (hasFlag f.flags Flag.endHeaders = true ↔ i + 1 = frames.length)
  fragments : frames.flatMap Frame.fragment = block

/-- One frame is a well-formed sequence when it ends the block and carries it. -/
theorem isHeaderBlock_singleton {lead : FrameType} {sid maxSize : Nat} {f : Frame}
    (hType : f.type = lead) (hSid : f.streamId = sid) (hSize : f.payload.length ≤ maxSize)
    (hEnds : hasFlag f.flags Flag.endHeaders = true) :
    IsHeaderBlock lead sid maxSize f.fragment [f] := by
  refine ⟨⟨f, [], rfl, hType, by simp⟩, by simpa using hSid, by simpa using hSize, ?_, by simp⟩
  intro i g hg
  cases i with
  | zero => simpa [← Option.some.inj hg] using hEnds
  | succ i => simp at hg

theorem IsHeaderBlock.endHeaders_of_mem_getLast? {lead : FrameType} {sid maxSize : Nat}
    {block : Octets} {frames : List Frame} {f : Frame}
    (h : IsHeaderBlock lead sid maxSize block frames) (hLast : frames.getLast? = some f) :
    hasFlag f.flags Flag.endHeaders = true := by
  have hNe : frames ≠ [] := by
    rintro rfl
    simp at hLast
  have hPos : 0 < frames.length := List.length_pos_iff.mpr hNe
  rw [List.getLast?_eq_getElem?] at hLast
  exact (h.ends _ f hLast).mpr (by omega)

/-! ### What the senders queue -/

/-- The frames of `sendContinuations`. -/
def continuationFrames (maxSize sid : Nat) : Nat → Octets → List Frame
  | 0, _ => []
  | fuel + 1, block =>
      if block.length > 0 then
        ⟨.continuation, if block.length ≤ maxSize then 0 else Flag.endHeaders, sid,
          block.take maxSize⟩ :: continuationFrames maxSize sid fuel (block.drop maxSize)
      else []

theorem sendContinuations_sends (maxSize sid fuel : Nat) (con : Connection) (block : Octets) :
    Sends con (Connection.sendContinuations maxSize sid fuel con block)
      (continuationFrames maxSize sid fuel block) := by
  induction fuel generalizing con block with
  | zero => exact Sends.refl con
  | succ fuel ih =>
      simp only [Connection.sendContinuations, continuationFrames]
      split
      · exact (enqueue_sends con (.continuation _) _ sid (by simp [FrameData.type])).trans (ih _ _)
      · exact Sends.refl con

theorem continuationFrames_nil (maxSize sid fuel : Nat) :
    continuationFrames maxSize sid fuel [] = [] := by
  cases fuel <;> simp [continuationFrames]

/-- The last CONTINUATION frame has no flag: what is left of the block then fits. -/
theorem continuationFrames_getLast? {maxSize fuel : Nat} {block : Octets} (sid : Nat)
    (hMax : 0 < maxSize) (hFuel : block.length ≤ fuel) (hBlock : block ≠ []) :
    ∃ f, (continuationFrames maxSize sid fuel block).getLast? = some f ∧ f.flags = 0 := by
  induction fuel generalizing block with
  | zero => exact absurd (List.length_eq_zero_iff.mp (Nat.le_zero.mp hFuel)) hBlock
  | succ fuel ih =>
      have hPos : 0 < block.length := List.length_pos_iff.mpr hBlock
      simp only [continuationFrames, gt_iff_lt, hPos, if_true]
      by_cases hFits : block.length ≤ maxSize
      · have hDrop : block.drop maxSize = [] := List.drop_eq_nil_of_le hFits
        simp [hFits, hDrop, continuationFrames_nil]
      · have hDrop : block.drop maxSize ≠ [] := by
          rw [← List.length_pos_iff, List.length_drop]
          omega
        obtain ⟨f, hLast, hFlags⟩ := ih (by rw [List.length_drop]; omega) hDrop
        refine ⟨f, ?_, hFlags⟩
        rw [List.getLast?_cons, hLast]
        rfl

/-- What either sender queues is well formed exactly when nothing is left for a
CONTINUATION frame. -/
theorem isHeaderBlock_cons_iff {lead : FrameType} {sid maxSize : Nat} {head : Frame}
    {block rest : Octets} (hMax : 0 < maxSize) (hType : head.type = lead)
    (hSid : head.streamId = sid) (hSize : head.payload.length ≤ maxSize)
    (hEnds : rest = [] → hasFlag head.flags Flag.endHeaders = true)
    (hFragment : rest = [] → head.fragment = block) (hRest : rest.length ≤ block.length) :
    IsHeaderBlock lead sid maxSize block
      (head :: continuationFrames maxSize sid block.length rest) ↔ rest = [] := by
  constructor
  · intro h
    by_contra hNe
    obtain ⟨f, hLast, hFlags⟩ := continuationFrames_getLast? sid hMax hRest hNe
    have hEnd := h.endHeaders_of_mem_getLast? (f := f) (by rw [List.getLast?_cons, hLast]; rfl)
    rw [hFlags] at hEnd
    exact absurd hEnd (by decide)
  · intro h
    subst rest
    rw [continuationFrames_nil, ← hFragment rfl]
    exact isHeaderBlock_singleton hType hSid hSize (hEnds rfl)

/-! ### The two senders -/

/-- The header block both senders cut up. -/
def headerBlock (con : Connection) (headers : List Header) : Octets :=
  (headersEncode con.encodeCtx headers).2

def headersFrame (sid maxSize : Nat) (ended : Bool) (block : Octets) : Frame :=
  let flags := if ended then Flag.endStream else 0
  ⟨.headers, if block.length ≤ maxSize then flags ||| Flag.endHeaders else flags, sid,
    block.take maxSize⟩

def pushPromiseFrame (sid promisedId maxSize : Nat) (block : Octets) : Frame :=
  ⟨.pushPromise, if block.length ≤ maxSize then Flag.endHeaders else 0, sid,
    pack32 promisedId ++ block.take (maxSize - 4)⟩

theorem sendHeaders_sends (con : Connection) (sid : Nat) (headers : List Header) (ended : Bool) :
    let maxSize := con.encSetting Setting.maxFrameSize
    let block := headerBlock con headers
    Sends con (con.sendHeaders sid headers ended)
      (headersFrame sid maxSize ended block ::
        continuationFrames maxSize sid block.length (block.drop maxSize)) := by
  intro maxSize block
  have hEncode : Sends con { con with encodeCtx := (headersEncode con.encodeCtx headers).1 } [] :=
    ⟨[], by simp⟩
  have hHeaders := enqueue_sends { con with encodeCtx := (headersEncode con.encodeCtx headers).1 }
    (.headers { hblock := block.take maxSize }) (headersFrame sid maxSize ended block).flags sid
    (by simp [FrameData.type])
  exact (hEncode.trans hHeaders).trans (sendContinuations_sends maxSize sid block.length _ _)

theorem sendPpHeaders_sends (con : Connection) (sid promisedId : Nat) (headers : List Header) :
    let maxSize := con.encSetting Setting.maxFrameSize
    let block := headerBlock con headers
    Sends con (con.sendPpHeaders sid promisedId headers)
      (pushPromiseFrame sid promisedId maxSize block ::
        continuationFrames maxSize sid block.length (block.drop (maxSize - 4))) := by
  intro maxSize block
  have hEncode : Sends con { con with encodeCtx := (headersEncode con.encodeCtx headers).1 } [] :=
    ⟨[], by simp⟩
  have hPromise := enqueue_sends { con with encodeCtx := (headersEncode con.encodeCtx headers).1 }
    (.pushPromise promisedId (block.take (maxSize - 4)))
    (pushPromiseFrame sid promisedId maxSize block).flags sid (by simp [FrameData.type])
  exact (hEncode.trans hPromise).trans (sendContinuations_sends maxSize sid block.length _ _)

theorem headersFrame_fragment (sid maxSize : Nat) (ended : Bool) (block : Octets) :
    (headersFrame sid maxSize ended block).fragment = block.take maxSize := by
  have hPlain : ∀ flags : UInt8, flags = 0 ∨ flags = 1 ∨ flags = 4 ∨ flags = 5 →
      hasFlag flags Flag.padded = false ∧ hasFlag flags Flag.priority = false := by
    rintro flags (rfl | rfl | rfl | rfl) <;> decide
  obtain ⟨hPadded, hPriority⟩ := hPlain (headersFrame sid maxSize ended block).flags (by
    simp only [headersFrame, Flag.endStream, Flag.endHeaders]
    cases ended <;> split <;> decide)
  rw [Frame.fragment_of_plain hPadded hPriority]
  simp [headersFrame]

theorem pushPromiseFrame_fragment (sid promisedId maxSize : Nat) (block : Octets) :
    (pushPromiseFrame sid promisedId maxSize block).fragment = block.take (maxSize - 4) := by
  have hPlain : hasFlag (pushPromiseFrame sid promisedId maxSize block).flags Flag.padded = false ∧
      hasFlag (pushPromiseFrame sid promisedId maxSize block).flags Flag.priority = false := by
    simp only [pushPromiseFrame]
    split <;> decide
  rw [Frame.fragment_of_plain hPlain.1 hPlain.2]
  simp [pushPromiseFrame, pack32]

theorem sendHeaders_isHeaderBlock_iff (con : Connection) (sid : Nat) (headers : List Header)
    (ended : Bool) (hMax : 0 < con.encSetting Setting.maxFrameSize) :
    IsHeaderBlock .headers sid (con.encSetting Setting.maxFrameSize) (headerBlock con headers)
        (sentFrames con (con.sendHeaders sid headers ended)) ↔
      (headerBlock con headers).length ≤ con.encSetting Setting.maxFrameSize := by
  generalize hBlock : headerBlock con headers = block
  generalize hSize : con.encSetting Setting.maxFrameSize = maxSize at hMax
  have hSends := (sendHeaders_sends con sid headers ended).sentFrames
  simp only [hBlock, hSize] at hSends
  have hType : (headersFrame sid maxSize ended block).type = .headers := rfl
  have hSid : (headersFrame sid maxSize ended block).streamId = sid := rfl
  rw [hSends, isHeaderBlock_cons_iff hMax hType hSid, List.drop_eq_nil_iff]
  · simp [headersFrame]
  · intro h
    have hFits : block.length ≤ maxSize := List.drop_eq_nil_iff.mp h
    simp only [headersFrame, hFits, if_true]
    cases ended <;> decide
  · intro h
    rw [headersFrame_fragment, List.take_of_length_le (List.drop_eq_nil_iff.mp h)]
  · simp

theorem sendPpHeaders_isHeaderBlock_iff (con : Connection) (sid promisedId : Nat)
    (headers : List Header) (hMax : 4 ≤ con.encSetting Setting.maxFrameSize) :
    IsHeaderBlock .pushPromise sid (con.encSetting Setting.maxFrameSize) (headerBlock con headers)
        (sentFrames con (con.sendPpHeaders sid promisedId headers)) ↔
      (headerBlock con headers).length ≤ con.encSetting Setting.maxFrameSize - 4 := by
  generalize hBlock : headerBlock con headers = block
  generalize hSize : con.encSetting Setting.maxFrameSize = maxSize at hMax
  have hSends := (sendPpHeaders_sends con sid promisedId headers).sentFrames
  simp only [hBlock, hSize] at hSends
  have hType : (pushPromiseFrame sid promisedId maxSize block).type = .pushPromise := rfl
  have hSid : (pushPromiseFrame sid promisedId maxSize block).streamId = sid := rfl
  rw [hSends, isHeaderBlock_cons_iff (by omega) hType hSid, List.drop_eq_nil_iff]
  · simp only [pushPromiseFrame, List.length_append, List.length_take, pack32, List.length_cons,
      List.length_nil]
    omega
  · intro h
    have hFits : block.length ≤ maxSize := by
      have := List.drop_eq_nil_iff.mp h
      omega
    simp only [pushPromiseFrame, hFits, if_true]
    decide
  · intro h
    rw [pushPromiseFrame_fragment, List.take_of_length_le (List.drop_eq_nil_iff.mp h)]
  · simp

/-- A connection of default settings with one request, on stream 1, to answer. -/
def answering : Connection :=
  { (Connection.new .server ∅).setStream 1 { state := some .halfClosed } with preface := true }

/-- Under every frame size a peer can set, the frames of a header block are well
formed exactly when the block fits into the first of them. -/
theorem headerFrames_wellFormed_iff (con : Connection)
    (hMax : Connection.settingError Setting.maxFrameSize
      (con.encSetting Setting.maxFrameSize) = none) :
    let maxSize := con.encSetting Setting.maxFrameSize
    (∀ sid headers ended,
      IsHeaderBlock .headers sid maxSize (headerBlock con headers)
          (sentFrames con (con.sendHeaders sid headers ended)) ↔
        (headerBlock con headers).length ≤ maxSize) ∧
    (∀ sid promisedId headers,
      IsHeaderBlock .pushPromise sid maxSize (headerBlock con headers)
          (sentFrames con (con.sendPpHeaders sid promisedId headers)) ↔
        (headerBlock con headers).length ≤ maxSize - 4) := by
  have hRange : 16384 ≤ con.encSetting Setting.maxFrameSize := by
    by_contra hLow
    simp [Connection.settingError, defaultMaxFrameSize, hLow] at hMax
  exact ⟨fun sid headers ended =>
      sendHeaders_isHeaderBlock_iff con sid headers ended (by omega),
    fun sid promisedId headers =>
      sendPpHeaders_isHeaderBlock_iff con sid promisedId headers (by omega)⟩

theorem headerFrames_wellFormed_iff_answering :
    let maxSize := answering.encSetting Setting.maxFrameSize
    let headers := [(octets ":status", octets "200")]
    Connection.settingError Setting.maxFrameSize maxSize = none ∧
      (IsHeaderBlock .headers 1 maxSize (headerBlock answering headers)
          (sentFrames answering (answering.sendHeaders 1 headers true)) ↔
        (headerBlock answering headers).length ≤ maxSize) :=
  ⟨by decide, (headerFrames_wellFormed_iff _ (by decide)).1 1 _ true⟩

/-! ### A block that is too long -/

/-- Coded or not, a string keeps five eighths of its length. -/
theorem five_mul_length_le_strEncode (s : Octets) : 5 * s.length ≤ 8 * (strEncode s).length := by
  have hHuffman := five_mul_length_le_huffmanEncode s
  simp only [strEncode]
  split <;> simp only [List.length_append] <;> omega

/-- The names the static table is searched by are short. -/
theorem rstable_lookup_of_long {key : Octets} (h : 60 < key.length) : rstable.lookup key = none := by
  have hShort : ∀ entry ∈ rstable, entry.1.length ≤ 60 := by decide +kernel
  rw [List.lookup_eq_none_iff]
  intro entry hEntry
  have hEntryShort := hShort entry hEntry
  rw [bne_iff_ne]
  rintro rfl
  omega

theorem length_encodeField_of_long (context : Context) (header : Octets) {value : Octets}
    (hTable : context.headerTable = []) (hValue : 60 < value.length) :
    5 * value.length ≤ 8 * (encodeField context header value).2.length := by
  have hCode := five_mul_length_le_strEncode value
  have hKey : rstable.lookup (rstableKey header value) = none :=
    rstable_lookup_of_long (by simp only [rstableKey, List.length_append]; omega)
  simp only [encodeField, hTable, List.findIdx?_nil, hKey]
  split <;> simp only [List.length_append, List.length_cons] <;> omega

/-- A response with one field of 40000 octets. -/
def longFields : List Header := [(octets "x-long", List.replicate 40000 0x61)]

theorem length_headerBlock_longFields : 16384 < (headerBlock answering longFields).length := by
  have hLong : 60 < (List.replicate 40000 (0x61 : UInt8)).length := by
    rw [List.length_replicate]
    omega
  have hField := length_encodeField_of_long answering.encodeCtx (lc (octets "x-long")) rfl hLong
  rw [List.length_replicate] at hField
  have hBlock : headerBlock answering longFields =
      (encodeField answering.encodeCtx (lc (octets "x-long")) (List.replicate 40000 0x61)).2 ++ [] :=
    rfl
  rw [hBlock, List.append_nil]
  omega

/-- The CONTINUATION frame that carries the rest of such a response does not end it. -/
theorem headerFrames_longFields :
    ¬ IsHeaderBlock .headers 1 (answering.encSetting Setting.maxFrameSize)
        (headerBlock answering longFields)
        (sentFrames answering (answering.sendHeaders 1 longFields true)) := by
  intro h
  have hFits := (sendHeaders_isHeaderBlock_iff answering 1 longFields true (by decide)).mp h
  have hSize : answering.encSetting Setting.maxFrameSize = 16384 := by decide
  have hLong := length_headerBlock_longFields
  omega

end PageCamel.Http2

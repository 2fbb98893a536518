import PageCamel.Http2.Frame

/-!
HEADERS frames written and read (`Frame.pm`, `Frame/Headers.pm`). The encoder says how many
octets of padding there are and writes none, so that the decoder takes the end of the header
block for them.
-/

namespace PageCamel.Http2
open PageCamel.Lib

/-- Dependency, weight and exclusive bit. -/
structure PriorityFields where
  streamDep : Nat
  weight : Nat
  exclusive : Bool
  deriving DecidableEq

/-- What a HEADERS frame says. PADDED and PRIORITY come with what they announce. -/
structure HeadersFields where
  stream : Nat
  endStream : Bool
  endHeaders : Bool
  padding : Option Nat := none
  priority : Option PriorityFields := none
  hblock : Octets
  deriving DecidableEq

namespace HeadersFields

/-- The length of the payload, the padding included. -/
def length (d : HeadersFields) : Nat :=
  (d.padding.map (· + 1)).getD 0 + (if d.priority.isSome then 5 else 0) + d.hblock.length

/-- The fields have room in a frame. -/
structure Valid (d : HeadersFields) : Prop where
  stream : d.stream ≠ 0 ∧ d.stream < 2 ^ 31
  padding : ∀ n ∈ d.padding, n < 256
  streamDep : ∀ p ∈ d.priority, p.streamDep < 2 ^ 31
  weight : ∀ p ∈ d.priority, 1 ≤ p.weight ∧ p.weight ≤ 256
  length : d.length ≤ maxPayloadSize

/-- The flags `frame_encode` is given; the encoder adds the others. -/
def flags (d : HeadersFields) : UInt8 :=
  (if d.endStream then Flag.endStream else 0) ||| if d.endHeaders then Flag.endHeaders else 0

/-- The arguments of the encoder. -/
def data (d : HeadersFields) : HeadersData :=
  { hblock := d.hblock
    padding := d.padding
    streamDep := d.priority.map PriorityFields.streamDep
    weight := d.priority.map PriorityFields.weight
    exclusive := (d.priority.map PriorityFields.exclusive).getD false }

end HeadersFields

/-- A description of a HEADERS frame. -/
structure HeadersDescription extends HeadersFields where
  valid : toHeadersFields.Valid

/-- `frame_encode`. -/
def HeadersFields.bytes (d : HeadersFields) (con : Connection) : Octets :=
  (con.frameEncode (.headers d.data) d.flags d.stream).2.bytes

/-! ### Reading -/

/-- The priority `decode` reads. -/
def headersPriorityFields (fh : FrameHeader) (buf : Octets) : Option PriorityFields :=
  if hasFlag fh.flags Flag.priority then
    let buf := buf.drop (padOffset fh)
    some {
      streamDep := unpack32 buf &&& 0x7FFFFFFF
      weight := unpack8 (buf.drop 4) + 1
      exclusive := unpack32 buf >>> 31 ≠ 0 }
  else none

def headersFields (fh : FrameHeader) (buf : Octets) : HeadersFields :=
  { stream := fh.stream
    endStream := hasFlag fh.flags Flag.endStream
    endHeaders := hasFlag fh.flags Flag.endHeaders
    padding := if hasFlag fh.flags Flag.padded then some (unpack8 buf) else none
    priority := headersPriorityFields fh buf
    hblock := headersBlock fh buf }

/-- The HEADERS frame at the start of a buffer and the octets it takes; nothing when the frame is
not complete, or when there is no space for the header block. -/
def headersFrameRead (buf : Octets) : Option (HeadersFields × Nat) :=
  if buf.length < frameHeaderSize then none
  else
    let fh := frameHeaderDecode buf
    let payload := buf.drop frameHeaderSize
    if payload.length < fh.length ∨ fh.type ≠ .headers ∨
        fh.length < headersOffset fh + padSize fh payload then none
    else some (headersFields fh payload, frameHeaderSize + fh.length)

namespace Connection

/-- What `decode` does with a priority. -/
def applyPriority (con : Connection) (sid : Nat) : Option PriorityFields → Connection × Bool
  | none => (con, true)
  | some p => (con.setWeight sid p.weight).streamReprio sid p.exclusive p.streamDep

/-- `decode` changes the connection by the fields it reads. -/
theorem headersFrameDecode_fields (con : Connection) (fh : FrameHeader) (buf : Octets)
    (hStream : fh.stream ≠ 0) :
    con.headersFrameDecode fh buf =
      match con.applyPriority fh.stream (headersFields fh buf).priority with
      | (con, false) => (con.setError .protocolError, none)
      | (con, true) =>
          if fh.length < headersOffset fh + padSize fh buf then (con.setError .protocolError, none)
          else con.blockDecode fh (headersFields fh buf).hblock := by
  have hPriority : con.headersPriority fh buf =
      con.applyPriority fh.stream (headersFields fh buf).priority := by
    rw [headersPriority, headersFields, headersPriorityFields]
    split <;> rfl
  rw [headersFrameDecode, if_neg hStream, hPriority]
  rfl

/-- `frame_decode` takes the octets of the frame that was read, unless the connection refuses it. -/
theorem frameDecode_of_read (ord : HashOrder) (con : Connection) {buf : Octets} {d : HeadersFields}
    {n : Nat} (h : headersFrameRead buf = some (d, n)) :
    (con.frameDecode ord buf).2 = none ∨ (con.frameDecode ord buf).2 = some n := by
  have hReceive (con : Connection) (fh : FrameHeader) (payload : Octets) :
      (con.frameReceive ord fh payload).2 = none ∨
        (con.frameReceive ord fh payload).2 = some (frameHeaderSize + fh.length) := by
    rw [frameReceive]
    split
    · exact .inl rfl
    · exact .inr rfl
  rw [headersFrameRead] at h
  rw [frameDecode]
  split at h
  · cases h
  · next hHeader =>
      dsimp only at h
      split at h
      · cases h
      · next hComplete =>
          simp only [not_or, List.length_drop] at hComplete
          cases h
          rw [if_neg hHeader]
          dsimp only
          split
          · exact .inl rfl
          · rw [if_neg (by omega), frameApply]
            split
            · exact .inl rfl
            · split
              · exact .inr rfl
              · rw [frameAdmit]
                split
                · split
                  · exact hReceive ..
                  · dsimp only
                    split
                    · exact .inl rfl
                    · exact .inr rfl
                · exact hReceive ..

end Connection

/-! ### The parts of a frame -/

theorem frameHeaderDecode_bytes {f : Frame} (hLength : f.payload.length ≤ maxPayloadSize)
    (hType : f.type.code < 256) (hStream : f.streamId < 2 ^ 31) (rest : Octets) :
    frameHeaderDecode (f.bytes ++ rest) =
      ⟨f.payload.length, FrameType.ofCode f.type.code, f.flags, f.streamId⟩ := by
  have hHigh : (UInt8.ofNat (f.payload.length >>> 16)).toNat <<< 16 +
      unpack16 (pack16 (f.payload.length &&& 0xFFFF) ++
        ([UInt8.ofNat f.type.code, f.flags] ++ pack32 f.streamId ++ f.payload ++ rest)) =
      f.payload.length := by
    have hLow : f.payload.length &&& 0xFFFF = f.payload.length % 2 ^ 16 :=
      Nat.and_two_pow_sub_one_eq_mod _ 16
    rw [maxPayloadSize] at hLength
    rw [hLow, unpack16_pack16 (Nat.mod_lt _ (by decide)), UInt8.toNat_ofNat', Nat.shiftLeft_eq,
      Nat.shiftRight_eq_div_pow]
    omega
  have hCode : (UInt8.ofNat f.type.code).toNat = f.type.code := by
    rw [UInt8.toNat_ofNat', Nat.mod_eq_of_lt hType]
  have hId : unpack32 (pack32 f.streamId ++ (f.payload ++ rest)) &&& 0x7FFFFFFF = f.streamId := by
    rw [unpack32_pack32 (by omega), show 0x7FFFFFFF = 2 ^ 31 - 1 from rfl,
      Nat.and_two_pow_sub_one_eq_mod, Nat.mod_eq_of_lt hStream]
  have hFields : frameHeaderDecode (f.bytes ++ rest) =
      ⟨(UInt8.ofNat (f.payload.length >>> 16)).toNat <<< 16 +
          unpack16 (pack16 (f.payload.length &&& 0xFFFF) ++
            ([UInt8.ofNat f.type.code, f.flags] ++ pack32 f.streamId ++ f.payload ++ rest)),
        FrameType.ofCode (UInt8.ofNat f.type.code).toNat, f.flags,
        unpack32 (pack32 f.streamId ++ (f.payload ++ rest)) &&& 0x7FFFFFFF⟩ := rfl
  rw [hFields, hHigh, hCode, hId]

theorem drop_bytes (f : Frame) (rest : Octets) :
    (f.bytes ++ rest).drop frameHeaderSize = f.payload ++ rest := rfl

theorem length_bytes (f : Frame) : f.bytes.length = frameHeaderSize + f.payload.length := by
  rw [Frame.bytes, frameHeaderSize]
  simp only [List.length_append, List.length_cons, List.length_nil, pack16, pack32]

/-- The exclusive bit stands above the dependency. -/
theorem exclusive_dep {dep : Nat} (h : dep < 2 ^ 31) (exclusive : Bool) (rest : Octets) :
    let word := unpack32 (pack32 (if exclusive then dep ||| 2 ^ 31 else dep) ++ rest)
    word &&& 0x7FFFFFFF = dep ∧ decide (word >>> 31 ≠ 0) = exclusive := by
  have hMask (n : Nat) : n &&& 0x7FFFFFFF = n % 2 ^ 31 := Nat.and_two_pow_sub_one_eq_mod n 31
  cases exclusive with
  | false =>
      rw [if_neg Bool.false_ne_true, unpack32_pack32 (by omega)]
      dsimp only
      rw [hMask, Nat.mod_eq_of_lt h, Nat.shiftRight_eq_div_pow, Nat.div_eq_of_lt h]
      exact ⟨rfl, rfl⟩
  | true =>
      have hSum : dep ||| 2 ^ 31 = 2 ^ 31 + dep := by
        have hOr := Nat.two_pow_add_eq_or_of_lt h 1
        rw [Nat.mul_one] at hOr
        rw [Nat.or_comm, hOr]
      rw [if_pos rfl, hSum, unpack32_pack32 (by omega)]
      dsimp only
      rw [hMask, Nat.shiftRight_eq_div_pow]
      refine ⟨by omega, decide_eq_true ?_⟩
      omega

namespace HeadersFields

/-- The octets of the priority. -/
def priorityOctets (d : HeadersFields) : Octets :=
  match d.priority with
  | none => []
  | some p =>
      pack32 (if p.exclusive then p.streamDep ||| 2 ^ 31 else p.streamDep) ++ [UInt8.ofNat (p.weight - 1)]

def wireFlags (d : HeadersFields) : UInt8 :=
  d.flags ||| (if d.padding.isSome then Flag.padded else 0) |||
    if d.priority.isSome then Flag.priority else 0

/-- What the encoder makes. -/
theorem encode_data {d : HeadersFields} (h : d.Valid) :
    d.data.encode d.flags =
      (d.wireFlags, (d.padding.map UInt8.ofNat).toList ++ (d.priorityOctets ++ d.hblock)) := by
  have hWeight (p : PriorityFields) (hp : p ∈ d.priority) : p.weight ≠ 0 :=
    Nat.one_le_iff_ne_zero.mp (h.weight p hp).1
  rw [HeadersData.encode, data, priorityOctets, wireFlags]
  cases hPriority : d.priority with
  | none => cases d.padding <;> simp
  | some p =>
      have hPos := hWeight p hPriority
      cases d.padding <;> simp [hPos]

theorem hasFlag_wireFlags (d : HeadersFields) :
    hasFlag d.wireFlags Flag.endStream = d.endStream ∧
      hasFlag d.wireFlags Flag.endHeaders = d.endHeaders ∧
      hasFlag d.wireFlags Flag.padded = d.padding.isSome ∧
      hasFlag d.wireFlags Flag.priority = d.priority.isSome := by
  rw [wireFlags, flags]
  cases d.endStream <;> cases d.endHeaders <;> cases d.padding.isSome <;>
    cases d.priority.isSome <;> decide

theorem length_priorityOctets (d : HeadersFields) :
    d.priorityOctets.length = if d.priority.isSome then 5 else 0 := by
  rw [priorityOctets]
  cases d.priority <;> rfl

/-- The payload the encoder makes. -/
def payload (d : HeadersFields) : Octets :=
  (d.padding.map UInt8.ofNat).toList ++ (d.priorityOctets ++ d.hblock)

/-- The header of the frame. -/
def header (d : HeadersFields) : FrameHeader := ⟨d.payload.length, .headers, d.wireFlags, d.stream⟩

theorem padOffset_header (d : HeadersFields) :
    padOffset d.header = (d.padding.map UInt8.ofNat).toList.length := by
  have hFlag : hasFlag d.header.flags Flag.padded = d.padding.isSome := d.hasFlag_wireFlags.2.2.1
  rw [padOffset, hFlag]
  cases d.padding <;> rfl

theorem headersOffset_header (d : HeadersFields) :
    headersOffset d.header =
      (d.padding.map UInt8.ofNat).toList.length + d.priorityOctets.length := by
  have hFlag : hasFlag d.header.flags Flag.priority = d.priority.isSome := d.hasFlag_wireFlags.2.2.2
  rw [headersOffset, padOffset_header, hFlag, length_priorityOctets]

theorem padSize_header {d : HeadersFields} (h : d.Valid) (rest : Octets) :
    padSize d.header (d.payload ++ rest) = d.padding.getD 0 := by
  have hFlag : hasFlag d.header.flags Flag.padded = d.padding.isSome := d.hasFlag_wireFlags.2.2.1
  have hOctet := h.padding
  rw [padSize, hFlag, payload]
  cases hPadding : d.padding with
  | none => rfl
  | some n => exact (UInt8.toNat_ofNat' ..).trans (Nat.mod_eq_of_lt (hOctet n hPadding))

theorem headersPriorityFields_header {d : HeadersFields} (h : d.Valid) (rest : Octets) :
    headersPriorityFields d.header (d.payload ++ rest) = d.priority := by
  have hFlag : hasFlag d.header.flags Flag.priority = d.priority.isSome := d.hasFlag_wireFlags.2.2.2
  rw [headersPriorityFields, hFlag, padOffset_header, payload, List.append_assoc, List.drop_left,
    priorityOctets]
  have hDep := h.streamDep
  have hWeight := h.weight
  cases hPriority : d.priority with
  | none => rfl
  | some p =>
      obtain ⟨hLow, hExclusive⟩ := exclusive_dep (hDep p hPriority) p.exclusive
        ([UInt8.ofNat (p.weight - 1)] ++ (d.hblock ++ rest))
      have hRange := hWeight p hPriority
      have hOctet : (UInt8.ofNat (p.weight - 1)).toNat + 1 = p.weight := by
        rw [UInt8.toNat_ofNat']
        omega
      rw [Option.isSome_some, if_pos rfl]
      simp only [List.append_assoc, hLow, hExclusive]
      have hFifth (word : Nat) : unpack8 ((pack32 word ++
          ([UInt8.ofNat (p.weight - 1)] ++ (d.hblock ++ rest))).drop 4) + 1 = p.weight := hOctet
      rw [hFifth]

/-- The last octets of the block are taken for the padding. -/
theorem headersBlock_header {d : HeadersFields} (h : d.Valid) (rest : Octets) :
    headersBlock d.header (d.payload ++ rest) =
      d.hblock.take (d.hblock.length - d.padding.getD 0) := by
  have hDrop : (d.payload ++ rest).drop (headersOffset d.header) = d.hblock ++ rest := by
    rw [headersOffset_header, payload, ← List.append_assoc, ← List.length_append, List.append_assoc,
      List.drop_left]
  have hSize : d.header.length - headersOffset d.header - d.padding.getD 0 =
      d.hblock.length - d.padding.getD 0 := by
    rw [headersOffset_header, header, payload]
    simp only [List.length_append]
    omega
  rw [headersBlock, padSize_header h, hDrop, hSize, List.take_append_of_le_length (Nat.sub_le ..)]

theorem headersFields_header {d : HeadersFields} (h : d.Valid) (rest : Octets) :
    headersFields d.header (d.payload ++ rest) =
      { d with hblock := d.hblock.take (d.hblock.length - d.padding.getD 0) } := by
  obtain ⟨hStream, hHeaders, hPadded, -⟩ := d.hasFlag_wireFlags
  have hOctet := h.padding
  have hPadding : (if hasFlag d.header.flags Flag.padded then some (unpack8 (d.payload ++ rest)) else none) =
      d.padding := by
    rw [show d.header.flags = d.wireFlags from rfl, hPadded, payload]
    cases hCase : d.padding with
    | none => rfl
    | some n =>
        rw [Option.isSome_some, if_pos rfl]
        exact congrArg some ((UInt8.toNat_ofNat' ..).trans (Nat.mod_eq_of_lt (hOctet n hCase)))
  rw [headersFields, headersPriorityFields_header h, headersBlock_header h, hPadding]
  simp only [header, hStream, hHeaders]

theorem length_payload_le {d : HeadersFields} (h : d.Valid) : d.payload.length ≤ maxPayloadSize := by
  have hLength := h.length
  rw [length] at hLength
  rw [payload, List.length_append, List.length_append, length_priorityOctets]
  cases hPadding : d.padding with
  | none => simpa [hPadding] using hLength
  | some n =>
      simp only [hPadding, Option.map_some, Option.getD_some] at hLength
      simp only [Option.map_some, Option.toList_some, List.length_singleton]
      omega

/-- The frame read back, with any octets behind it. -/
theorem headersFrameRead_bytes {d : HeadersFields} (h : d.Valid) (con : Connection) (rest : Octets) :
    headersFrameRead (d.bytes con ++ rest) =
      if d.hblock.length < d.padding.getD 0 then none
      else some ({ d with hblock := d.hblock.take (d.hblock.length - d.padding.getD 0) },
        (d.bytes con).length) := by
  have hFrame : (con.frameEncode (.headers d.data) d.flags d.stream).2 =
      ⟨.headers, d.wireFlags, d.stream, d.payload⟩ := by
    have hEncode : (FrameData.headers d.data).encode d.flags = (d.wireFlags, d.payload) := encode_data h
    rw [Connection.frameEncode, hEncode]
    rfl
  have hHeader : frameHeaderDecode (d.bytes con ++ rest) = d.header := by
    rw [bytes, hFrame, frameHeaderDecode_bytes (length_payload_le h)
      (by decide : FrameType.headers.code < 256) h.stream.2]
    rfl
  have hDrop : (d.bytes con ++ rest).drop frameHeaderSize = d.payload ++ rest := by
    rw [bytes, hFrame, drop_bytes]
  have hLength : (d.bytes con).length = frameHeaderSize + d.header.length := by
    rw [bytes, hFrame, length_bytes]
    rfl
  have hSpace : d.header.length = headersOffset d.header + d.hblock.length := by
    rw [headersOffset_header, header, payload]
    simp only [List.length_append]
    omega
  rw [headersFrameRead, if_neg]
  · dsimp only
    rw [hHeader, hDrop, padSize_header h, headersFields_header h, hLength, hSpace]
    by_cases hShort : d.hblock.length < d.padding.getD 0
    · rw [if_pos hShort, if_pos (.inr (.inr (by omega)))]
    · rw [if_neg hShort, if_neg]
      rintro (hLess | hType | hLess)
      · rw [← hSpace, List.length_append] at hLess
        exact absurd hLess (Nat.not_lt.mpr (Nat.le_add_right ..))
      · exact hType rfl
      · omega
  · rw [List.length_append, hLength]
    omega

end HeadersFields

/-- A HEADERS frame is read back as it was described exactly when it has no octets of padding. -/
theorem headers_read_back_iff (d : HeadersDescription) (con : Connection) (rest : Octets) :
    headersFrameRead (d.bytes con ++ rest) = some (d.toHeadersFields, (d.bytes con).length) ↔
      d.padding.getD 0 = 0 := by
  obtain ⟨d, h⟩ := d
  rw [HeadersFields.headersFrameRead_bytes h]
  constructor
  · intro hRead
    split at hRead
    · cases hRead
    · next hSpace =>
        simp only [Option.some.injEq, Prod.mk.injEq, and_true] at hRead
        have hBlock := congrArg (fun d => d.hblock.length) hRead
        dsimp only at hBlock ⊢
        rw [List.length_take] at hBlock
        omega
  · intro hPadding
    dsimp only at hPadding
    rw [hPadding, if_neg (Nat.not_lt_zero _), Nat.sub_zero, List.take_length]

/-- A frame with one octet of padding, and a block of three octets. -/
def paddedFields : HeadersFields :=
  { stream := 1, endStream := true, endHeaders := true, padding := some 1, hblock := [0x82, 0x86, 0x84] }

theorem valid_paddedFields : paddedFields.Valid where
  stream := by decide
  padding := by decide
  streamDep := by decide
  weight := by decide
  length := by decide

/-- The third octet of the block is gone. -/
theorem headers_padded_cut :
    ¬ ∀ (d : HeadersDescription) (con : Connection) (rest : Octets),
      headersFrameRead (d.bytes con ++ rest) = some (d.toHeadersFields, (d.bytes con).length) := by
  intro hAll
  have hRead := hAll ⟨paddedFields, valid_paddedFields⟩ (Connection.new .server ∅) []
  revert hRead
  decide

end PageCamel.Http2

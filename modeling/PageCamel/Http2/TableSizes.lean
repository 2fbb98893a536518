import PageCamel.Http2.DynamicTable
import PageCamel.Http2.Frame
import PageCamel.Http2.HeaderRoundTrip
import PageCamel.Lib.Runs

/-!
The encoder of header blocks and the decoder of its peer, which sets the size of the
dynamic table (`headers_encode`, and the SETTINGS that change its context). The encoder
announces the last size the peer has set, and evicts nothing when it does.
-/

namespace PageCamel.Http2
open PageCamel.Lib

/-! ### What is written is read -/

/-- The code of compressed strings. -/
def huffmanString (raw : Octets) : Option Octets :=
  if huffmanEncode (huffmanDecode raw) = raw then some (huffmanDecode raw) else none

theorem huffmanString_encode (s : Octets) : huffmanString (huffmanEncode s) = some s := by
  rw [huffmanString, huffmanDecode_huffmanEncode, if_pos rfl]

theorem toNat_continuation (v : Nat) :
    (UInt8.ofNat (v &&& 0x7f ||| 0x80)).toNat % 128 = v % 128 ∧
      ¬ (UInt8.ofNat (v &&& 0x7f ||| 0x80)).toNat < 128 := by
  have hAll : ∀ x : Fin 128, (UInt8.ofNat (x ||| 0x80)).toNat % 128 = x ∧
      ¬ (UInt8.ofNat (x ||| 0x80)).toNat < 128 := by
    decide +kernel
  rw [show v &&& 0x7f = v % 128 from Nat.and_two_pow_sub_one_eq_mod v 7]
  exact hAll ⟨v % 128, Nat.mod_lt _ (by omega)⟩

theorem readRest_intEncodeRest {fuel v : Nat} (rest : Octets) (hFuel : v ≤ fuel) :
    Hpack.readRest (intEncodeRest fuel v ++ rest) = some (v, rest) := by
  induction fuel generalizing v with
  | zero =>
      obtain rfl := Nat.le_zero.mp hFuel
      rfl
  | succ fuel ih =>
      rw [intEncodeRest]
      split
      · next hMore =>
          obtain ⟨hBits, hFlag⟩ := toNat_continuation v
          have hNext : v >>> 7 = v / 128 := Nat.shiftRight_eq_div_pow v 7
          rw [List.cons_append, Hpack.readRest, if_neg hFlag, ih (by rw [hNext]; omega), hBits, hNext]
          simp only [Option.map_some, Nat.mod_add_div]
      · next hLast =>
          have hSmall : (UInt8.ofNat v).toNat = v := by
            rw [UInt8.toNat_ofNat']
            omega
          rw [List.singleton_append, Hpack.readRest, hSmall, if_pos (by omega)]

/-- An integer with flags above its prefix. -/
theorem readInt_intEncode {mask : UInt8} {N : Nat} (v : Nat) (rest : Octets) (hN : N ≤ 7)
    (hMask : mask.toNat % 2 ^ N = 0) :
    Hpack.readInt N (orFirst mask (intEncode v N) ++ rest) = some (v, rest) := by
  have hPos := Nat.two_pow_pos N
  have hMod (w : Nat) (hw : w < 2 ^ N) : (UInt8.ofNat w ||| mask).toNat % 2 ^ N = w := by
    rw [← Nat.and_two_pow_sub_one_eq_mod, Nat.and_comm]
    exact first_octet (Nat.le_succ_of_le hN) hMask hw
  by_cases hShort : v < 2 ^ N - 1
  · simp only [intEncode, if_pos hShort, orFirst, List.singleton_append, Hpack.readInt,
      hMod v (by omega)]
  · simp only [intEncode, if_neg hShort, orFirst, List.cons_append, Hpack.readInt,
      hMod (2 ^ N - 1) (by omega), if_neg (Nat.lt_irrefl _),
      readRest_intEncodeRest rest (le_refl _), Option.map_some]
    rw [Nat.add_sub_cancel' (Nat.not_lt.mp hShort)]

theorem headD_intEncode {mask : UInt8} (v N : Nat) (rest : Octets) :
    (orFirst mask (intEncode v N) ++ rest).headD 0 = (intEncode v N).headD 0 ||| mask := by
  have hNe : orFirst mask (intEncode v N) ≠ [] := by
    rw [← List.length_pos_iff, length_orFirst, List.length_pos_iff]
    exact intEncode_ne_nil _ _
  rw [headD_append hNe, headD_orFirst (intEncode_ne_nil _ _)]

theorem hasFlag_iff (b : UInt8) : hasFlag b 0x80 = true ↔ 128 ≤ b.toNat := by
  have hAll : ∀ x : Fin 256, hasFlag (UInt8.ofNat x) 0x80 = true ↔ 128 ≤ x.val := by decide +kernel
  simpa using hAll ⟨b.toNat, b.toNat_lt⟩

theorem readString_strEncode (s rest : Octets) :
    Hpack.readString huffmanString (strEncode s ++ rest) = some (s, rest) := by
  by_cases hShorter : (huffmanEncode s).length < s.length
  · have hFlag := hasFlag_high ((intEncode (huffmanEncode s).length 7).headD 0)
    rw [← headD_intEncode _ _ (huffmanEncode s ++ rest), hasFlag_iff] at hFlag
    rw [strEncode, if_pos hShorter, List.append_assoc, Hpack.readString,
      readInt_intEncode _ _ le_rfl (by decide), Option.bind_some]
    simp only [if_pos hFlag, List.take_left, huffmanString_encode, List.drop_left,
      List.length_append, Option.map_some]
    rw [if_neg (by omega)]
  · have hFlag := hasFlag_intEncode s.length
    have hPlain : ¬ 128 ≤ ((orFirst 0 (intEncode s.length 7) ++ (s ++ rest)).headD 0).toNat := by
      rw [headD_intEncode, UInt8.or_zero, ← hasFlag_iff, hFlag]
      exact Bool.false_ne_true
    rw [strEncode, if_neg hShorter, List.append_assoc, ← orFirst_zero (intEncode s.length 7),
      Hpack.readString, readInt_intEncode _ _ le_rfl (by decide), Option.bind_some]
    simp only [if_neg hPlain, List.take_left, List.drop_left, List.length_append, Option.map_some]
    rw [if_neg (by omega)]

theorem readInstruction_indexed (v : Nat) (rest : Octets) :
    Hpack.readInstruction huffmanString (orFirst 0x80 (intEncode v 7) ++ rest) =
      some (.indexed v, rest) := by
  have hFlag := hasFlag_high ((intEncode v 7).headD 0)
  rw [← headD_intEncode _ _ rest, hasFlag_iff] at hFlag
  rw [Hpack.readInstruction]
  simp only [if_pos hFlag, readInt_intEncode v rest le_rfl (by decide : (0x80 : UInt8).toNat % 2 ^ 7 = 0),
    Option.map_some]

/-- The first octet of an integer on a prefix of six or five bits, with the bit before it set. -/
theorem toNat_first (v : Nat) :
    (64 ≤ ((intEncode v 6).headD 0 ||| 0x40).toNat ∧ ((intEncode v 6).headD 0 ||| 0x40).toNat < 128) ∧
      (32 ≤ ((intEncode v 5).headD 0 ||| 0x20).toNat ∧
        ((intEncode v 5).headD 0 ||| 0x20).toNat < 64) := by
  have hSix : ∀ x : Fin 64, 64 ≤ (UInt8.ofNat x ||| 0x40).toNat ∧ (UInt8.ofNat x ||| 0x40).toNat < 128 := by
    decide +kernel
  have hFive : ∀ x : Fin 32, 32 ≤ (UInt8.ofNat x ||| 0x20).toNat ∧ (UInt8.ofNat x ||| 0x20).toNat < 64 := by
    decide +kernel
  constructor
  · rw [intEncode]
    split
    · next hShort => exact hSix ⟨v, by omega⟩
    · exact hSix ⟨63, by omega⟩
  · rw [intEncode]
    split
    · next hShort => exact hFive ⟨v, by omega⟩
    · exact hFive ⟨31, by omega⟩

theorem readInstruction_named {k : Nat} (hk : k ≠ 0) (value rest : Octets) :
    Hpack.readInstruction huffmanString (orFirst 0x40 (intEncode k 6) ++ strEncode value ++ rest) =
      some (.literal (.index k) value true, rest) := by
  obtain ⟨⟨hLow, hHigh⟩, -⟩ := toNat_first k
  rw [← headD_intEncode _ _ (strEncode value ++ rest)] at hLow hHigh
  rw [List.append_assoc, Hpack.readInstruction]
  simp only [if_neg (Nat.not_le.mpr hHigh), if_pos hLow, Hpack.readLiteral,
    readInt_intEncode k (strEncode value ++ rest) (by omega) (by decide : (0x40 : UInt8).toNat % 2 ^ 6 = 0),
    Option.bind_some, if_neg hk, readString_strEncode, Option.map_some]

theorem readInstruction_new (name value rest : Octets) :
    Hpack.readInstruction huffmanString (0x40 :: strEncode name ++ strEncode value ++ rest) =
      some (.literal (.new name) value true, rest) := by
  have hFirst : ((0x40 : UInt8) :: (strEncode name ++ (strEncode value ++ rest))) =
      orFirst 0x40 (intEncode 0 6) ++ (strEncode name ++ (strEncode value ++ rest)) := rfl
  obtain ⟨⟨hLow, hHigh⟩, -⟩ := toNat_first 0
  rw [← headD_intEncode _ _ (strEncode name ++ (strEncode value ++ rest))] at hLow hHigh
  rw [List.cons_append, List.cons_append, List.append_assoc, hFirst, Hpack.readInstruction]
  simp only [if_neg (Nat.not_le.mpr hHigh), if_pos hLow, Hpack.readLiteral,
    readInt_intEncode 0 _ (by omega : 6 ≤ 7) (by decide : (0x40 : UInt8).toNat % 2 ^ 6 = 0),
    Option.bind_some, if_true, readString_strEncode, Option.map_some]

theorem readInstruction_update (v : Nat) (rest : Octets) :
    Hpack.readInstruction huffmanString (orFirst 0x20 (intEncode v 5) ++ rest) =
      some (.sizeUpdate v, rest) := by
  obtain ⟨-, hLow, hHigh⟩ := toNat_first v
  rw [← headD_intEncode _ _ rest] at hLow hHigh
  rw [Hpack.readInstruction]
  simp only [if_neg (Nat.not_le.mpr (hHigh.trans (by omega : 64 < 128))), if_neg (Nat.not_le.mpr hHigh),
    if_pos hLow, readInt_intEncode v rest (by omega : 5 ≤ 7) (by decide : (0x20 : UInt8).toNat % 2 ^ 5 = 0),
    Option.map_some]

/-! ### One field -/

/-- The table of the peer's decoder is the encoder's. -/
structure Mirrors (encoder : Context) (table : Hpack.Table) : Prop where
  entries : table.entries = encoder.headerTable
  maxSize : table.maxSize = encoder.maxHtSize
  counted : encoder.Counted

theorem Mirrors.add {encoder : Context} {table : Hpack.Table} (h : Mirrors encoder table)
    {key value : Octets}
    (hRoom : Hpack.fieldSize (key, value) ≤ encoder.maxHtSize ∨ encoder.headerTable = []) :
    Mirrors (addToHt encoder key value).1 (table.add (key, value)) where
  entries := by
    rw [((addToHt_prescribed_iff h.counted key value).mpr hRoom).1, ← h.entries, ← h.maxSize]
    rfl
  maxSize := h.maxSize.trans (frame_addToHt encoder key value).1.symm
  counted := h.counted.addToHt key value

/-- A field whose key in the reverse table is its own: the name holds no space, unless it is a
pseudo name, and the names with a value in the static table come with one. -/
structure Keyed (kv : Header) : Prop where
  name : Unspaced kv.1
  value : kv.2 = [] → kv.1 ∉ valuedNames

instance (kv : Header) : Decidable (Keyed kv) :=
  decidable_of_iff (Unspaced kv.1 ∧ (kv.2 = [] → kv.1 ∉ valuedNames))
    ⟨fun ⟨hName, hValue⟩ => ⟨hName, hValue⟩, fun h => ⟨h.name, h.value⟩⟩

theorem Keyed.lookup {kv : Header} (h : Keyed kv) {k : Nat}
    (hKey : rstable.lookup (rstableKey kv.1 kv.2) = some k) :
    (1 ≤ k ∧ k ≤ stable.length) ∧ stable[k - 1]? = some kv := by
  obtain ⟨hSpelled, hName, hValue⟩ := rstable_lookup h.name hKey
  have hField := hSpelled.value
  rw [hName, hValue] at hField
  refine ⟨hSpelled.index, ?_⟩
  rw [stable_getElem? hSpelled.index]
  exact congrArg some (Prod.ext (hSpelled.name.trans hName) (hField.mpr h.value))

theorem rstable_stable : ∀ kv ∈ stable, (rstable.lookup (rstableKey kv.1 kv.2)).isSome := by
  decide +kernel

theorem entry?_stable (table : Hpack.Table) {k : Nat} (h : 1 ≤ k ∧ k ≤ stable.length) :
    table.entry? stable k = stable[k - 1]? := by
  rw [Hpack.Table.entry?, if_neg (by omega), if_pos h.2]

theorem Mirrors.entry? {encoder : Context} {table : Hpack.Table} (h : Mirrors encoder table) (i : Nat) :
    table.entry? stable (i + stable.length + 1) = encoder.headerTable[i]? := by
  rw [Hpack.Table.entry?, if_neg (by omega), if_neg (by omega), h.entries,
    show i + stable.length + 1 - stable.length - 1 = i by omega]

/-- The decoder reads the field, and its table goes where the encoder's goes. -/
theorem Mirrors.encodeField {encoder : Context} {table : Hpack.Table} {kv : Header}
    (h : Mirrors encoder table) (hKeyed : Keyed kv)
    (hRoom : kv ∈ stable ∨ Hpack.fieldSize kv ≤ encoder.maxHtSize ∨ encoder.headerTable = [])
    (limit : Nat) (fields : List Header) (rest : Octets) :
    ∃ instruction table', Hpack.readInstruction huffmanString
        ((encodeField encoder kv.1 kv.2).2 ++ rest) = some (instruction, rest) ∧
      Hpack.Decoder.step stable limit ⟨table, fields⟩ instruction =
        some ⟨table', fields ++ [kv]⟩ ∧
      Mirrors (encodeField encoder kv.1 kv.2).1 table' := by
  have hWritten := encodeField_written encoder kv
  have hRoom (hKey : rstable.lookup (rstableKey kv.1 kv.2) = none) :
      Hpack.fieldSize kv ≤ encoder.maxHtSize ∨ encoder.headerTable = [] :=
    hRoom.resolve_left fun hStatic => by simpa [hKey] using rstable_stable kv hStatic
  generalize Http2.encodeField encoder kv.1 kv.2 = written at hWritten ⊢
  cases hWritten with
  | known i hEntry =>
      refine ⟨_, table, readInstruction_indexed _ rest, ?_, h⟩
      rw [Hpack.Decoder.step, h.entry?, hEntry]
      rfl
  | static k hKey =>
      obtain ⟨hIndex, hField⟩ := hKeyed.lookup hKey
      refine ⟨_, table, readInstruction_indexed k rest, ?_, h⟩
      rw [Hpack.Decoder.step, entry?_stable table hIndex, hField]
      rfl
  | named k hKey hName =>
      obtain ⟨hSpelled, hSame, -⟩ := rstable_lookup hKeyed.name hName
      have hIndex := hSpelled.index
      refine ⟨_, table.add kv, readInstruction_named (by omega) kv.2 rest, ?_, h.add (hRoom hKey)⟩
      rw [Hpack.Decoder.step, entry?_stable table hIndex, stable_getElem? hIndex]
      simp only [Option.map_some, hSpelled.name, hSame, Hpack.Decoder.emitLiteral, if_true]
  | new hKey =>
      exact ⟨_, table.add kv, readInstruction_new kv.1 kv.2 rest, rfl, h.add (hRoom hKey)⟩

/-! ### One block -/

/-- The fields that are added to the table have room in it, or come while it is empty: a larger
one would empty it. -/
def fitting (maxSize : Nat) : Bool → List Header → Bool
  | _, [] => true
  | empty, kv :: headers =>
      if kv ∈ stable then fitting maxSize empty headers
      else if Hpack.fieldSize kv ≤ maxSize then fitting maxSize false headers
      else empty && fitting maxSize true headers

theorem maxHtSize_encodeField (encoder : Context) (kv : Header) :
    (encodeField encoder kv.1 kv.2).1.maxHtSize = encoder.maxHtSize := by
  have hWritten := encodeField_written encoder kv
  generalize encodeField encoder kv.1 kv.2 = written at hWritten ⊢
  cases hWritten with
  | known i hEntry | static k hKey => rfl
  | named k hKey hName | new hKey => exact (frame_addToHt encoder kv.1 kv.2).1

/-- What is not added leaves an empty table empty. -/
theorem headerTable_encodeField {encoder : Context} {kv : Header}
    (hStays : kv ∈ stable ∨ encoder.maxHtSize < Hpack.fieldSize kv) :
    (encodeField encoder kv.1 kv.2).1.headerTable = encoder.headerTable := by
  have hWritten := encodeField_written encoder kv
  have hAdd (hKey : rstable.lookup (rstableKey kv.1 kv.2) = none) :
      (addToHt encoder kv.1 kv.2).1 = encoder :=
    addToHt_of_large (hStays.resolve_left fun hStatic => by
      simpa [hKey] using rstable_stable kv hStatic)
  generalize encodeField encoder kv.1 kv.2 = written at hWritten ⊢
  cases hWritten with
  | known i hEntry | static k hKey => rfl
  | named k hKey hName | new hKey => rw [hAdd hKey]

theorem Mirrors.encodeFields {encoder : Context} {table : Hpack.Table} {headers : List Header}
    (h : Mirrors encoder table) (hKeyed : ∀ kv ∈ headers, Keyed (lowered kv)) {empty : Bool}
    (hEmpty : empty = true → encoder.headerTable = [])
    (hFitting : fitting encoder.maxHtSize empty (headers.map lowered) = true)
    (limit : Nat) (fields : List Header) {fuel : Nat}
    (hFuel : (encodeFields encoder headers).2.length ≤ fuel) :
    ∃ instructions table',
      Hpack.readInstructions huffmanString fuel (encodeFields encoder headers).2 = some instructions ∧
      Hpack.Decoder.run stable limit ⟨table, fields⟩ instructions =
        some ⟨table', fields ++ headers.map lowered⟩ ∧
      Mirrors (encodeFields encoder headers).1 table' := by
  induction headers generalizing encoder table fields fuel empty with
  | nil =>
      refine ⟨[], table, ?_, ?_, h⟩
      · cases fuel <;> rfl
      · simp [Hpack.Decoder.run]
  | cons kv headers ih =>
      have hKv := hKeyed kv (List.mem_cons_self ..)
      rw [encodeFields_cons] at hFuel ⊢
      rw [List.map_cons, fitting] at hFitting
      have hNe := encodeField_ne_nil encoder (lowered kv)
      have hPos := List.length_pos_iff.mpr hNe
      simp only [List.length_append] at hFuel
      simp only [lowered] at hNe hPos
      obtain ⟨fuel, rfl⟩ : ∃ fuel', fuel = fuel' + 1 := ⟨fuel - 1, by omega⟩
      have hRoom : lowered kv ∈ stable ∨ Hpack.fieldSize (lowered kv) ≤ encoder.maxHtSize ∨
          encoder.headerTable = [] := by
        split at hFitting
        · next hStatic => exact .inl hStatic
        · split at hFitting
          · next hFits => exact .inr (.inl hFits)
          · exact .inr (.inr (hEmpty (Bool.and_eq_true_iff.mp hFitting).1))
      have hNext : ∃ empty', (empty' = true →
          (Http2.encodeField encoder (lc kv.1) kv.2).1.headerTable = []) ∧
          fitting encoder.maxHtSize empty' (headers.map lowered) = true := by
        split at hFitting
        · next hStatic =>
            refine ⟨empty, fun hTrue => ?_, hFitting⟩
            exact (headerTable_encodeField (.inl hStatic)).trans (hEmpty hTrue)
        · split at hFitting
          · exact ⟨false, fun hTrue => absurd hTrue Bool.false_ne_true, hFitting⟩
          · next hLarge =>
              obtain ⟨hTrue, hRest⟩ := Bool.and_eq_true_iff.mp hFitting
              refine ⟨true, fun _ => ?_, hRest⟩
              exact (headerTable_encodeField (.inr (Nat.not_le.mp hLarge))).trans (hEmpty hTrue)
      obtain ⟨empty', hEmpty', hFitting'⟩ := hNext
      obtain ⟨instruction, table', hRead, hStep, hMirrors⟩ := h.encodeField hKv hRoom limit fields
        (Http2.encodeFields (Http2.encodeField encoder (lc kv.1) kv.2).1 headers).2
      have hMax := maxHtSize_encodeField encoder (lowered kv)
      simp only [lowered] at hRead hStep hMirrors hMax
      have hLeft : (Http2.encodeFields (Http2.encodeField encoder (lc kv.1) kv.2).1 headers).2.length ≤
          fuel := by omega
      obtain ⟨instructions, table'', hReads, hRun, hMirrors'⟩ := ih hMirrors
        (fun kv' hkv' => hKeyed kv' (List.mem_cons_of_mem kv hkv')) hEmpty'
        (by rw [hMax]; exact hFitting') (fields ++ [(lc kv.1, kv.2)]) hLeft
      refine ⟨instruction :: instructions, table'', ?_, ?_, hMirrors'⟩
      · rw [Hpack.readInstructions, if_neg (List.append_ne_nil_of_left_ne_nil hNe _), hRead,
          Option.bind_some]
        simp only [hReads, Option.map_some]
      · rw [Hpack.Decoder.run, hStep, Option.bind_some, hRun]
        simp only [List.append_assoc, List.map_cons, List.singleton_append, lowered]

/-! ### Runs -/

def Context.setTableSize (context : Context) (size : Nat) : Context :=
  { context with settings := context.settings.insert Setting.headerTableSize size }

/-- The setting of the peer changes the context of the encoder, and nothing else. -/
theorem applySetting_tableSize {con : Connection} (size : Nat)
    (hKnown : (con.encodeCtx.settings.lookup Setting.headerTableSize).isSome) :
    con.applySetting Setting.headerTableSize size =
      .ok { con with encodeCtx := con.encodeCtx.setTableSize size } := by
  have hNone : Connection.settingError Setting.headerTableSize size = none := rfl
  rw [Connection.applySetting, if_neg (by rw [Option.isNone_iff_eq_none]; exact Option.isSome_iff_ne_none.mp hKnown)]
  simp only [hNone]
  rfl

/-- The encoder, the decoder of its peer, the size the peer has set last and the lowest one
since the last block, and whether every block came back with equal tables behind it. -/
structure Compression where
  encoder : Context
  decoder : Hpack.Table
  limit : Nat
  lowest : Nat
  agreed : Bool := true

inductive CompressionEvent
  | setting (size : Nat)
  | block (headers : List Header)

namespace Compression

/-- The size the encoder goes by. -/
def size (c : Compression) : Nat := c.encoder.settings.value Setting.headerTableSize

/-- The endpoint is built with settings of its own; its peer has set none so far. -/
def start (type : Endpoint) (given : Settings) : Compression where
  encoder := (Connection.new type given).encodeCtx
  decoder := .empty defaultHeaderTableSize
  limit := defaultHeaderTableSize
  lowest := defaultHeaderTableSize

def step (c : Compression) : CompressionEvent → Compression
  | .setting size =>
      { c with encoder := c.encoder.setTableSize size, limit := size, lowest := min c.lowest size }
  | .block headers =>
      let (encoder, block) := headersEncode c.encoder headers
      match Hpack.decodeBlock huffmanString stable c.limit c.lowest c.decoder block with
      | some decoded =>
          { encoder, decoder := decoded.table, limit := c.limit, lowest := c.limit
            agreed := c.agreed && decide (decoded.fields = headers.map lowered ∧
              decoded.table.entries = encoder.headerTable) }
      | none => { c with encoder, lowest := c.limit, agreed := false }

end Compression

/-- What a block must be: it has a field and every field its own key; the size the encoder goes
by is not above the one the peer has set; it is the lowest since the last block, or none of them
was below the size announced; all entries of the table have room in it; and the fields that are
added to the table fit. -/
structure Encodes (c : Compression) (headers : List Header) : Prop where
  nonempty : headers ≠ []
  keyed : ∀ kv ∈ headers, Keyed (lowered kv)
  allowed : c.size ≤ c.limit
  announced : c.encoder.maxHtSize ≤ c.lowest ∨ c.size ≤ c.lowest
  kept : Hpack.size c.encoder.headerTable ≤ c.size
  fits : fitting c.size (c.encoder.headerTable = []) (headers.map lowered) = true

instance (c : Compression) (headers : List Header) : Decidable (Encodes c headers) :=
  decidable_of_iff (headers ≠ [] ∧ (∀ kv ∈ headers, Keyed (lowered kv)) ∧ c.size ≤ c.limit ∧
      (c.encoder.maxHtSize ≤ c.lowest ∨ c.size ≤ c.lowest) ∧
      Hpack.size c.encoder.headerTable ≤ c.size ∧
      fitting c.size (c.encoder.headerTable = []) (headers.map lowered) = true)
    ⟨fun ⟨hNonempty, hKeyed, hAllowed, hAnnounced, hKept, hFits⟩ =>
      ⟨hNonempty, hKeyed, hAllowed, hAnnounced, hKept, hFits⟩,
     fun h => ⟨h.nonempty, h.keyed, h.allowed, h.announced, h.kept, h.fits⟩⟩

def CompressionEvent.Encodes (c : Compression) : CompressionEvent → Prop
  | .setting _ => True
  | .block headers => Http2.Encodes c headers

instance (c : Compression) (event : CompressionEvent) : Decidable (event.Encodes c) :=
  match event with
  | .setting _ => .isTrue trivial
  | .block headers => inferInstanceAs (Decidable (Http2.Encodes c headers))

namespace Compression

structure Inv (c : Compression) : Prop where
  mirrors : Mirrors c.encoder c.decoder
  agreed : c.agreed = true

theorem inv_start {type : Endpoint} {given : Settings} : (start type given).Inv :=
  ⟨⟨rfl, rfl, rfl⟩, rfl⟩

/-- The block begins with the new size, which the table has room for. -/
theorem Inv.resized {c : Compression} (h : c.Inv) (hKept : Hpack.size c.encoder.headerTable ≤ c.size) :
    Mirrors { c.encoder with maxHtSize := c.size } (c.decoder.resize c.size) where
  entries := (Hpack.keep_of_fits (by rwa [h.mirrors.entries])).trans h.mirrors.entries
  maxSize := rfl
  counted := h.mirrors.counted

/-- The peer decodes the block to the list it was made of. -/
theorem Inv.decodeBlock {c : Compression} (h : c.Inv) {headers : List Header}
    (hEncodes : Encodes c headers) :
    ∃ table, Hpack.decodeBlock huffmanString stable c.limit c.lowest c.decoder
        (headersEncode c.encoder headers).2 = some ⟨table, headers.map lowered⟩ ∧
      Mirrors (headersEncode c.encoder headers).1 table := by
  have hEmpty : decide (c.encoder.headerTable = []) = true → c.encoder.headerTable = [] :=
    of_decide_eq_true
  have hMax := h.mirrors.maxSize
  have hSize : c.encoder.settings.value Setting.headerTableSize = c.size := rfl
  have hAnnounced := hEncodes.announced
  rw [headersEncode, hSize]
  simp only [if_neg hEncodes.nonempty]
  by_cases hSame : c.encoder.maxHtSize = c.size
  · have hFits := hEncodes.fits
    rw [← hSame] at hFits
    obtain ⟨instructions, table, hRead, hRun, hMirrors⟩ := h.mirrors.encodeFields hEncodes.keyed hEmpty
      hFits c.limit [] (le_refl _)
    have hAnnounces : Hpack.announces c.lowest c.decoder instructions = true := by
      rw [Hpack.announces, Bool.or_eq_true, decide_eq_true_eq]
      omega
    rw [if_neg (not_not.mpr hSame)]
    refine ⟨table, ?_, hMirrors⟩
    rw [Hpack.decodeBlock, Hpack.readBlock, hRead, Option.bind_some, if_pos hAnnounces]
    exact hRun
  · have hNe : orFirst 0x20 (intEncode c.size 5) ≠ [] := by
      rw [← List.length_pos_iff, length_orFirst, List.length_pos_iff]
      exact intEncode_ne_nil _ _
    have hPos := List.length_pos_iff.mpr hNe
    obtain ⟨fuel, hFuel⟩ : ∃ fuel, (orFirst 0x20 (intEncode c.size 5) ++
        (encodeFields { c.encoder with maxHtSize := c.size } headers).2).length = fuel + 1 :=
      ⟨_, (Nat.sub_add_cancel (by rw [List.length_append]; omega)).symm⟩
    have hLeft : (Http2.encodeFields { c.encoder with maxHtSize := c.size } headers).2.length ≤ fuel := by
      rw [List.length_append] at hFuel
      omega
    obtain ⟨instructions, table, hRead, hRun, hMirrors⟩ := (h.resized hEncodes.kept).encodeFields
      hEncodes.keyed hEmpty hEncodes.fits c.limit [] hLeft
    have hAnnounces : Hpack.announces c.lowest c.decoder (.sizeUpdate c.size :: instructions) = true := by
      rw [Hpack.announces, Hpack.updates, List.any_cons]
      simp only [Bool.or_eq_true, decide_eq_true_eq]
      omega
    have hBlock : Hpack.readBlock huffmanString (orFirst 0x20 (intEncode c.size 5) ++
        (encodeFields { c.encoder with maxHtSize := c.size } headers).2) =
          some (.sizeUpdate c.size :: instructions) := by
      rw [Hpack.readBlock, hFuel, Hpack.readInstructions,
        if_neg (List.append_ne_nil_of_left_ne_nil hNe _), readInstruction_update, Option.bind_some]
      simp only [hRead, Option.map_some]
    rw [if_pos hSame]
    refine ⟨table, ?_, hMirrors⟩
    rw [Hpack.decodeBlock, hBlock, Option.bind_some, if_pos hAnnounces, Hpack.Decoder.run,
      Hpack.Decoder.step, if_pos ⟨hEncodes.allowed, rfl⟩, Option.bind_some]
    exact hRun

theorem Inv.step {c : Compression} (h : c.Inv) {event : CompressionEvent} (hEncodes : event.Encodes c) :
    (c.step event).Inv := by
  cases event with
  | setting size =>
      exact ⟨⟨h.mirrors.entries, h.mirrors.maxSize, h.mirrors.counted⟩, h.agreed⟩
  | block headers =>
      obtain ⟨table, hDecode, hMirrors⟩ := h.decodeBlock hEncodes
      rw [Compression.step]
      simp only [hDecode]
      exact ⟨hMirrors, by simp [h.agreed, hMirrors.entries]⟩

/-- However often the peer sets the size of the table, every block comes back as the list it
was made of, with equal tables behind it, in each run whose blocks meet the condition. -/
theorem agreed_of_encodes {type : Endpoint} {given : Settings} {c : Compression}
    (hRun : Reached step (fun c event => event.Encodes c) (start type given) c) : c.agreed = true := by
  have hInv : c.Inv := hRun.invariant inv_start fun _ _ hInv hEncodes => hInv.step hEncodes
  exact hInv.agreed

def cookieList : List Header := [(octets "Cookie", octets "a")]

theorem agreed_of_encodes_cookie :
    (runEvents step (start .server ∅) [.block cookieList, .setting 100, .block cookieList]).agreed =
      true :=
  agreed_of_encodes (Reached.run _ _ .start ⟨by decide +kernel, trivial, by decide +kernel, trivial⟩)

/-- When the peer takes the table away, the next block refers to an entry it no longer has. -/
theorem table_withdrawn :
    ¬ (runEvents step (start .server ∅) [.block cookieList, .setting 0,
      .block cookieList]).agreed = true := by
  decide +kernel

end Compression

end PageCamel.Http2

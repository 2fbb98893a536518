import PageCamel.Http2.HeaderLiterals

/-!
A decoder fed the blocks of an encoder in order reads back the header lists, and
both keep the same dynamic table. The exceptions come from the reverse table: it
holds the names of five static fields under the key of the name with an empty
value, so a field of such a name without a value is sent as the static field.
An empty header list is sent as one field without a name, which is refused.
-/

namespace PageCamel.Http2
open PageCamel.Lib

/-! ### The fields that survive -/

/-- The names whose first field of the static table has a value. -/
def valuedNames : List Octets :=
  [octets ":method", octets ":path", octets ":scheme", octets ":status", octets "accept-encoding"]

/-- A field the decoder reads as the encoder was given it. -/
structure Safe (kv : Header) : Prop where
  named : kv.1 ≠ []
  nameFits : codedLength kv.1 < intLimit 7
  valueFits : codedLength kv.2 < intLimit 7
  keyed : kv.2 = [] → kv.1 ∉ valuedNames

/-- The alphabet of literal names. -/
def Accepted (name : Octets) : Prop := name.all isNameChar ∨ isPseudo name

/-- A name without a space, or a pseudo name. -/
def Unspaced (name : Octets) : Prop := 0x20 ∉ name ∨ isPseudo name

instance (name : Octets) : Decidable (Unspaced name) := inferInstanceAs (Decidable (_ ∨ _))

theorem Accepted.unspaced {name : Octets} (h : Accepted name) : Unspaced name :=
  h.imp_left fun hChars hSpace => absurd (List.all_eq_true.mp hChars 0x20 hSpace) (by decide)

/-- A field under the name the encoder sends. -/
def lowered (kv : Header) : Header := (lc kv.1, kv.2)

/-! ### The dynamic table -/

def tableSize (table : List Header) : Nat := (table.map entrySize).sum

/-- The recorded size is that of the entries, within the bound, and every entry
came in as a literal. -/
structure Context.Sound (context : Context) : Prop where
  size : context.htSize = tableSize context.headerTable
  bounded : context.htSize ≤ context.maxHtSize
  safe : ∀ kv ∈ context.headerTable, Safe kv

/-- What is left of the table is its newer part, and fits. -/
theorem evictLoop_spec (limit : Int) (entries : List Header) (hLimit : 0 ≤ limit) :
    let (size, left, evicted) := evictLoop limit (tableSize entries) entries
    entries = evicted ++ left ∧ size = tableSize left ∧ size ≤ limit := by
  induction entries with
  | nil => simpa [evictLoop, tableSize] using hLimit
  | cons kv newer ih =>
      have hSize : (tableSize (kv :: newer) : Int) - entrySize kv = tableSize newer := by
        simp [tableSize]
      by_cases hOver : (tableSize (kv :: newer) : Int) > limit
      · rw [evictLoop, if_pos hOver, hSize]
        obtain ⟨hEntries, hLeft, hFits⟩ := ih
        exact ⟨by rw [List.cons_append, ← hEntries], hLeft, hFits⟩
      · rw [evictLoop, if_neg hOver]
        exact ⟨rfl, rfl, by omega⟩

theorem tableSize_reverse (table : List Header) : tableSize table.reverse = tableSize table := by
  simp [tableSize]

theorem Context.Sound.addToHt {context : Context} (h : context.Sound) {key value : Octets}
    (hSafe : Safe (key, value)) : (addToHt context key value).1.Sound := by
  rw [Http2.addToHt]
  split
  · exact h
  · next hFits =>
      have hSpec := evictLoop_spec (context.maxHtSize - (key.length + value.length + 32 : Nat))
        context.headerTable.reverse (by omega)
      rw [tableSize_reverse, ← h.size] at hSpec
      rw [evictHt]
      generalize evictLoop _ _ _ = result at hSpec ⊢
      obtain ⟨size, left, evicted⟩ := result
      obtain ⟨hEntries, hLeft, hRoom⟩ := hSpec
      refine ⟨?_, ?_, fun kv hkv => ?_⟩
      · simp only [tableSize, List.map_cons, List.map_reverse, List.sum_cons, List.sum_reverse,
          entrySize] at hLeft ⊢
        omega
      · simp only at hRoom ⊢
        omega
      · cases hkv with
        | head => exact hSafe
        | tail _ hkv =>
            apply h.safe
            rw [← List.mem_reverse, hEntries]
            exact List.mem_append_right _ (List.mem_reverse.mp hkv)

/-- Adding an entry changes the table and its size only. -/
theorem frame_addToHt (context : Context) (key value : Octets) :
    (addToHt context key value).1.maxHtSize = context.maxHtSize ∧
      (addToHt context key value).1.settings = context.settings := by
  rw [addToHt, evictHt]
  split <;> exact ⟨rfl, rfl⟩

theorem length_stable : stable.length = 61 := by decide +kernel

/-- An index into the table is within the decoder's reach. -/
theorem Context.Sound.index_lt {context : Context} (h : context.Sound)
    (hSize : context.maxHtSize < 2 ^ 32) {i : Nat} (hi : i < context.headerTable.length) :
    i + stable.length + 1 < intLimit 7 := by
  have hEntries (table : List Header) : 32 * table.length ≤ tableSize table := by
    induction table with
    | nil => simp [tableSize]
    | cons kv table ih =>
        simp only [tableSize, List.map_cons, List.sum_cons, entrySize, List.length_cons] at ih ⊢
        omega
  have hTable := hEntries context.headerTable
  have hLength := h.size
  have hBound := h.bounded
  have hStable := length_stable
  have hLimit : intLimit 7 = 2 ^ 28 + 127 := by decide
  omega

/-! ### The static table -/

/-- A key cut at its first space. -/
def keyName (key : Octets) : Octets := key.takeWhile (· ≠ 0x20)

def keyValue (key : Octets) : Octets := (key.dropWhile (· ≠ 0x20)).drop 1

/-- What the reverse table holds under a key: the number of the field the key
spells, or of a field with the name it spells. -/
structure Spelled (key : Octets) (k : Nat) : Prop where
  index : 1 ≤ k ∧ k ≤ stable.length
  named : keyName key ≠ []
  short : key.length ≤ 60
  space : 0x20 ∈ keyValue key → ¬ isPseudo key
  name : (stable.getD (k - 1) ([], [])).1 = keyName key
  value : (stable.getD (k - 1) ([], [])).2 = keyValue key ↔
    (keyValue key = [] → keyName key ∉ valuedNames)

instance (key : Octets) (k : Nat) : Decidable (Spelled key k) :=
  decidable_of_iff
    ((1 ≤ k ∧ k ≤ stable.length) ∧ keyName key ≠ [] ∧ key.length ≤ 60 ∧
      (0x20 ∈ keyValue key → ¬ isPseudo key) ∧
      (stable.getD (k - 1) ([], [])).1 = keyName key ∧
      ((stable.getD (k - 1) ([], [])).2 = keyValue key ↔
        (keyValue key = [] → keyName key ∉ valuedNames)))
    ⟨fun ⟨hIndex, hNamed, hShort, hSpace, hName, hValue⟩ =>
      ⟨hIndex, hNamed, hShort, hSpace, hName, hValue⟩,
     fun h => ⟨h.index, h.named, h.short, h.space, h.name, h.value⟩⟩

theorem rstable_spelled : ∀ entry ∈ rstable, Spelled entry.1 entry.2 := by decide +kernel

theorem rstable_valuedNames :
    ∀ name ∈ valuedNames, (rstable.lookup (rstableKey name [])).isSome := by
  decide +kernel

theorem key_cut {name value : Octets} (h : 0x20 ∉ name) :
    keyName (name ++ 0x20 :: value) = name ∧ keyValue (name ++ 0x20 :: value) = value := by
  have hAll : ∀ b ∈ name, decide (b ≠ 0x20) = true := by
    intro b hb
    exact decide_eq_true fun hSpace => h (hSpace ▸ hb)
  rw [keyName, keyValue, List.takeWhile_append_of_pos hAll, List.dropWhile_append_of_pos hAll]
  simp

theorem isPseudo_append {name rest : Octets} (h : name ≠ []) :
    isPseudo (name ++ rest) = isPseudo name := by
  cases name with
  | nil => exact absurd rfl h
  | cons b name => rfl

/-- The key of a field in the reverse table spells the field. -/
theorem rstable_lookup {name value : Octets} {k : Nat} (hName : Unspaced name)
    (h : rstable.lookup (rstableKey name value) = some k) :
    Spelled (rstableKey name value) k ∧ keyName (rstableKey name value) = name ∧
      keyValue (rstableKey name value) = value := by
  obtain ⟨table, table', hTable, -⟩ := List.lookup_eq_some_iff.mp h
  have hSpelled := rstable_spelled (rstableKey name value, k) (by rw [hTable]; simp)
  refine ⟨hSpelled, ?_⟩
  have hKey (name value : Octets) : rstableKey name value = name ++ 0x20 :: value := by
    simp [rstableKey, show octets " " = [0x20] from rfl]
  by_cases hSpace : 0x20 ∈ name
  · -- only a pseudo name may hold a space, and then the key spells no static field
    obtain ⟨first, second, hCutName, hFirst⟩ := List.eq_append_cons_of_mem hSpace
    have hCut := (@key_cut first (second ++ 0x20 :: value) hFirst).2
    rw [← List.cons_append, ← List.append_assoc, ← hCutName, ← hKey] at hCut
    have hNotPseudo := hSpelled.space (by rw [hCut]; simp)
    rw [hKey, isPseudo_append (by rw [hCutName]; simp)] at hNotPseudo
    exact absurd (hName.resolve_left (not_not.mpr hSpace)) hNotPseudo
  · rw [hKey]
    exact key_cut hSpace

theorem stable_getElem? {k : Nat} (h : 1 ≤ k ∧ k ≤ stable.length) :
    stable[k - 1]? = some (stable.getD (k - 1) ([], [])) := by
  rw [List.getD_eq_getElem?_getD, List.getElem?_eq_getElem (by omega), Option.getD_some]

/-! ### One field -/

section
variable {dec : DecodeContext} {kv : Header} {rest : Octets}

theorem first_indexed {v : Nat} {rest : Octets} :
    (orFirst 0x80 (intEncode v 7) ++ rest).headD 0 &&& 0x80 ≠ 0 := by
  have hNe : orFirst 0x80 (intEncode v 7) ≠ [] := by
    rw [← List.length_pos_iff, length_orFirst, List.length_pos_iff]
    exact intEncode_ne_nil _ _
  rw [headD_append hNe, headD_orFirst (intEncode_ne_nil _ _)]
  simpa [hasFlag] using hasFlag_high ((intEncode v 7).headD 0)

/-- An indexed field is the entry of its index. -/
theorem decodeField_indexed {v : Nat} (hPos : v ≠ 0) (hLimit : v < intLimit 7)
    (hEntry : dec.entry? v = some kv) :
    decodeField dec (orFirst 0x80 (intEncode v 7) ++ rest)
      = .next (dec.emit kv.1 kv.2) (orFirst 0x80 (intEncode v 7)).length := by
  rw [decodeField, if_pos first_indexed, decodeIndexed, intDecode_intEncode rest (by decide) (by decide),
    if_pos hLimit]
  simp only [if_neg hPos, hEntry, length_orFirst]

theorem first_literal {k : Nat} (h : 1 ≤ k ∧ k ≤ stable.length) :
    intEncode k 6 = [UInt8.ofNat k] ∧
      (UInt8.ofNat k ||| 0x40) &&& 0x80 = 0 ∧ (UInt8.ofNat k ||| 0x40) &&& 0xC0 = 0x40 ∧
      ¬ ((UInt8.ofNat k ||| 0x40) = 0x40 ∨ (UInt8.ofNat k ||| 0x40) = 0x00 ∨
        (UInt8.ofNat k ||| 0x40) = 0x10) := by
  have hAll : ∀ k : Fin 62, 1 ≤ k.val → intEncode k 6 = [UInt8.ofNat k] ∧
      (UInt8.ofNat k ||| 0x40) &&& 0x80 = 0 ∧ (UInt8.ofNat k ||| 0x40) &&& 0xC0 = 0x40 ∧
      ¬ ((UInt8.ofNat k ||| 0x40) = 0x40 ∨ (UInt8.ofNat k ||| 0x40) = 0x00 ∨
        (UInt8.ofNat k ||| 0x40) = 0x10) := by
    decide +kernel
  have hStable := length_stable
  exact hAll ⟨k, by omega⟩ h.1

/-- A literal with an indexed name, when its value fits. -/
theorem decodeField_literalIndexed {k : Nat} {value : Octets} (hIndex : 1 ≤ k ∧ k ≤ stable.length)
    (hEntry : dec.entry? k = some kv) :
    decodeField dec (orFirst 0x40 (intEncode k 6) ++ strEncode value ++ rest)
      = if codedLength value < intLimit 7 then
          .next ((dec.emit kv.1 value).add kv.1 value)
            (orFirst 0x40 (intEncode k 6) ++ strEncode value).length
        else .last := by
  obtain ⟨hInt, hHigh, hLiteral, hNew⟩ := first_literal hIndex
  have hStable := length_stable
  have hLimit : k < intLimit 6 := by
    rw [show intLimit 6 = 2 ^ 28 + 63 by decide]
    omega
  have hDecode := @intDecode_intEncode 0x40 k 6 (strEncode value ++ rest) (by omega) (by decide)
  rw [if_pos hLimit, hInt] at hDecode
  simp only [hInt, orFirst, List.cons_append, List.nil_append] at hDecode ⊢
  rw [decodeField, List.headD_cons, if_neg (by rw [hHigh]; decide), if_neg hNew,
    if_pos (Or.inl hLiteral), decodeLiteralIndexed, if_pos hLiteral, hDecode]
  simp only [List.length_singleton, List.drop_succ_cons, List.drop_zero, strDecode_strEncode]
  by_cases hFits : codedLength value < intLimit 7
  · simp only [if_pos hFits, hEntry, if_pos hLiteral, List.length_cons]
    rw [Nat.add_comm]
  · simp only [if_neg hFits]

/-- A literal with a new name: an empty name and strings that do not fit are refused. -/
theorem decodeField_literalNew {name value : Octets} (hAccepted : Accepted name) :
    decodeField dec (0x40 :: strEncode name ++ strEncode value ++ rest)
      = if codedLength name < intLimit 7 then
          if name = [] then .fail (.conError .compressionError)
          else if codedLength value < intLimit 7 then
            .next ((dec.emit name value).add name value)
              (0x40 :: strEncode name ++ strEncode value).length
          else .last
        else .last := by
  have hChars : (!name.all isNameChar && !isPseudo name) = false := by
    cases hAccepted with
    | inl hAll => simp [hAll]
    | inr hPseudo => simp [hPseudo]
  have hDrop : (0x40 :: (strEncode name ++ (strEncode value ++ rest))).drop
      (1 + (strEncode name).length) = strEncode value ++ rest := by
    rw [Nat.add_comm, List.drop_succ_cons, List.drop_left]
  rw [List.cons_append, List.cons_append, List.append_assoc, decodeField, List.headD_cons,
    if_neg (by decide), if_pos (Or.inl rfl), decodeLiteralNew]
  rw [List.drop_succ_cons, List.drop_zero, strDecode_strEncode]
  by_cases hName : codedLength name < intLimit 7
  · simp only [if_pos hName, length_strEncode, hChars]
    by_cases hNil : name = []
    · simp only [if_pos hNil]
    · simp only [if_neg hNil, Bool.false_eq_true, if_false, hDrop, strDecode_strEncode]
      by_cases hValue : codedLength value < intLimit 7
      · simp only [if_pos hValue, if_true, List.length_cons, List.length_append]
        congr 1
        omega
      · simp only [if_neg hValue]
  · simp only [if_neg hName]

end

/-- Both contexts are the same one, with a table as literals build it, whose
size is the one set. -/
structure InStep (enc : Context) (dec : DecodeContext) : Prop where
  same : dec.toContext = enc
  sound : enc.Sound
  size : enc.maxHtSize < 2 ^ 32
  steady : enc.maxHtSize = enc.settings.value Setting.headerTableSize

theorem entry?_static (dec : DecodeContext) {k : Nat} (h : 1 ≤ k ∧ k ≤ stable.length) :
    dec.entry? k = some (stable.getD (k - 1) ([], [])) := by
  rw [DecodeContext.entry?, if_pos h.2, stable_getElem? h]

theorem InStep.emit {enc : Context} {dec : DecodeContext} (h : InStep enc dec)
    (key value : Octets) : InStep enc (dec.emit key value) :=
  ⟨h.same, h.sound, h.size, h.steady⟩

theorem InStep.add {enc : Context} {dec : DecodeContext} (h : InStep enc dec)
    {key value : Octets} (hSafe : Safe (key, value)) :
    InStep (addToHt enc key value).1 (dec.add key value) where
  same := by rw [DecodeContext.add, h.same]
  sound := h.sound.addToHt hSafe
  size := by
    rw [(frame_addToHt ..).1]
    exact h.size
  steady := by
    rw [(frame_addToHt ..).1, (frame_addToHt ..).2]
    exact h.steady

/-- The ways a field is written, each with the fields it is chosen for. -/
inductive Written (enc : Context) (kv : Header) : Context × Octets → Prop
  | known (i : Nat) (hEntry : enc.headerTable[i]? = some kv) :
      Written enc kv (enc, orFirst 0x80 (intEncode (i + stable.length + 1) 7))
  | static (k : Nat) (hKey : rstable.lookup (rstableKey kv.1 kv.2) = some k) :
      Written enc kv (enc, orFirst 0x80 (intEncode k 7))
  | named (k : Nat) (hKey : rstable.lookup (rstableKey kv.1 kv.2) = none)
      (hName : rstable.lookup (rstableKey kv.1 []) = some k) :
      Written enc kv ((addToHt enc kv.1 kv.2).1,
        orFirst 0x40 (intEncode k 6) ++ strEncode kv.2)
  | new (hKey : rstable.lookup (rstableKey kv.1 kv.2) = none) :
      Written enc kv ((addToHt enc kv.1 kv.2).1, 0x40 :: strEncode kv.1 ++ strEncode kv.2)

theorem encodeField_written (enc : Context) (kv : Header) :
    Written enc kv (encodeField enc kv.1 kv.2) := by
  rw [encodeField]
  split
  · next i hFound =>
      obtain ⟨hi, hEntry, -⟩ := List.findIdx?_eq_some_iff_getElem.mp hFound
      refine .known i ?_
      rw [List.getElem?_eq_getElem hi]
      exact congrArg some (Prod.ext_iff.mpr (by simpa using hEntry))
  · split
    · next k hKey => exact .static k hKey
    · next hKey =>
        split
        · next k hName => exact .named k hKey hName
        · exact .new hKey

/-- A field that survives: the decoder emits it, and stays in step. -/
theorem decodeField_safe {enc : Context} {dec : DecodeContext} {kv : Header} (h : InStep enc dec)
    (hAccepted : Accepted kv.1) (hSafe : Safe kv) (rest : Octets) :
    ∃ dec', decodeField dec ((encodeField enc kv.1 kv.2).2 ++ rest)
        = .next dec' (encodeField enc kv.1 kv.2).2.length ∧
      InStep (encodeField enc kv.1 kv.2).1 dec' ∧
      dec'.emittedHeaders = dec.emittedHeaders ++ [kv] := by
  have hStable := length_stable
  have hLimit : intLimit 7 = 2 ^ 28 + 127 := by decide
  have hWritten := encodeField_written enc kv
  generalize encodeField enc kv.1 kv.2 = written at hWritten ⊢
  cases hWritten with
  | known i hEntry =>
      have hi : i < enc.headerTable.length := (List.getElem?_eq_some_iff.mp hEntry).1
      have hRead : dec.entry? (i + stable.length + 1) = some kv := by
        rw [DecodeContext.entry?, if_neg (by omega), h.same, ← hEntry,
          show i + stable.length + 1 - stable.length - 1 = i by omega]
      exact ⟨_, decodeField_indexed (by omega) (h.sound.index_lt h.size hi) hRead,
        h.emit _ _, rfl⟩
  | static k hKey =>
      obtain ⟨hSpelled, hName, hValue⟩ := rstable_lookup hAccepted.unspaced hKey
      have hRead : dec.entry? k = some kv := by
        rw [entry?_static dec hSpelled.index]
        have hField := hSpelled.value
        rw [hName, hValue] at hField
        exact congrArg some (Prod.ext (hSpelled.name.trans hName) (hField.mpr hSafe.keyed))
      have hIndex := hSpelled.index
      exact ⟨_, decodeField_indexed (by omega) (by omega) hRead, h.emit _ _, rfl⟩
  | named k hKey hName =>
      obtain ⟨hSpelled, hSame, -⟩ := rstable_lookup hAccepted.unspaced hName
      refine ⟨_, ?_, (h.emit kv.1 kv.2).add hSafe, rfl⟩
      rw [decodeField_literalIndexed hSpelled.index (entry?_static dec hSpelled.index),
        if_pos hSafe.valueFits, hSpelled.name, hSame]
  | new hKey =>
      refine ⟨_, ?_, (h.emit kv.1 kv.2).add hSafe, rfl⟩
      rw [decodeField_literalNew hAccepted, if_pos hSafe.nameFits, if_neg hSafe.named,
        if_pos hSafe.valueFits]

/-- A field that does not survive: it is refused or another one is emitted. -/
theorem decodeField_other {enc : Context} {dec dec' : DecodeContext} {kv : Header} {size : Nat}
    (h : InStep enc dec) (hAccepted : Accepted kv.1) (hUnsafe : ¬ Safe kv) (rest : Octets)
    (hNext : decodeField dec ((encodeField enc kv.1 kv.2).2 ++ rest) = .next dec' size) :
    ∃ other, other ≠ kv ∧ dec'.emittedHeaders = dec.emittedHeaders ++ [other] := by
  have hStable := length_stable
  have hLimit : intLimit 7 = 2 ^ 28 + 127 := by decide
  have hFits {s : Octets} (hs : s.length < 60) : codedLength s < intLimit 7 := by
    have := Nat.min_le_right (huffmanEncode s).length s.length
    rw [codedLength]
    omega
  have hShort {value : Octets} (hs : (rstableKey kv.1 value).length ≤ 60) :
      codedLength kv.1 < intLimit 7 ∧ codedLength value < intLimit 7 := by
    simp only [rstableKey, List.length_append, show (octets " ").length = 1 from rfl] at hs
    exact ⟨hFits (by omega), hFits (by omega)⟩
  have hWritten := encodeField_written enc kv
  generalize encodeField enc kv.1 kv.2 = written at hWritten hNext
  cases hWritten with
  | known i hEntry => exact absurd (h.sound.safe kv (List.mem_of_getElem? hEntry)) hUnsafe
  | static k hKey =>
      obtain ⟨hSpelled, hName, hValue⟩ := rstable_lookup hAccepted.unspaced hKey
      have hIndex := hSpelled.index
      rw [decodeField_indexed (by omega) (by omega) (entry?_static dec hIndex)] at hNext
      obtain ⟨rfl, -⟩ := FieldStep.next.inj hNext
      refine ⟨_, fun hSame => hUnsafe ?_, rfl⟩
      have hField := hSpelled.value
      have hNamed := hSpelled.named
      rw [hName, hValue] at hField
      rw [hName] at hNamed
      obtain ⟨hNameFits, hValueFits⟩ := hShort hSpelled.short
      exact ⟨hNamed, hNameFits, hValueFits, hField.mp (congrArg Prod.snd hSame)⟩
  | named k hKey hName =>
      obtain ⟨hSpelled, hSame, -⟩ := rstable_lookup hAccepted.unspaced hName
      rw [decodeField_literalIndexed hSpelled.index (entry?_static dec hSpelled.index)] at hNext
      have hNamed := hSpelled.named
      rw [hSame] at hNamed
      split at hNext
      · next hValueFits =>
          refine absurd ⟨hNamed, (hShort hSpelled.short).1, hValueFits, fun hNil => ?_⟩ hUnsafe
          rw [hNil, hName] at hKey
          exact absurd hKey (by simp)
      · cases hNext
  | new hKey =>
      rw [decodeField_literalNew hAccepted] at hNext
      split at hNext
      · next hNameFits =>
          split at hNext
          · cases hNext
          · next hNamed =>
              split at hNext
              · next hValueFits =>
                  refine absurd ⟨hNamed, hNameFits, hValueFits, fun hNil hValued => ?_⟩ hUnsafe
                  have hHeld := rstable_valuedNames kv.1 hValued
                  rw [← hNil, hKey] at hHeld
                  exact absurd hHeld (by simp)
              · cases hNext
      · cases hNext

/-! ### One block -/

theorem emit_prefix (dec : DecodeContext) (key value : Octets) :
    dec.emittedHeaders <+: (dec.emit key value).emittedHeaders := List.prefix_append _ _

/-- A field is added to those emitted, or the function ends with an error. -/
def FieldStep.Adds (dec : DecodeContext) : FieldStep → Prop
  | .next dec' _ => dec.emittedHeaders <+: dec'.emittedHeaders
  | .last => True
  | .fail result => result ≠ .done

theorem decodeField_adds (dec : DecodeContext) (buf : Octets) :
    (decodeField dec buf).Adds dec := by
  rw [decodeField]
  split
  · simp only [decodeIndexed]
    repeat' split
    all_goals first | exact trivial | exact emit_prefix _ _ _ | exact nofun
  · split
    · simp only [decodeLiteralNew]
      repeat' split
      all_goals first | exact trivial | exact emit_prefix _ _ _ | exact nofun
    · split
      · simp only [decodeLiteralIndexed]
        repeat' split
        all_goals first | exact trivial | exact emit_prefix _ _ _ | exact nofun
      · split
        · simp only [decodeSizeUpdate]
          repeat' split
          all_goals first | exact trivial | exact List.prefix_refl _ | exact nofun
        · exact nofun

/-- Fields are only added to those emitted. -/
theorem emitted_headersDecodeLoop (fuel : Nat) (dec : DecodeContext) (buf : Octets) :
    dec.emittedHeaders <+: (headersDecodeLoop fuel dec buf).1.emittedHeaders := by
  induction fuel generalizing dec buf with
  | zero => exact List.prefix_refl _
  | succ fuel ih =>
      have hField := decodeField_adds dec buf
      rw [headersDecodeLoop]
      split
      · exact List.prefix_refl _
      · split
        · next dec' size hNext =>
            rw [hNext] at hField
            exact List.IsPrefix.trans hField (ih dec' _)
        · exact List.prefix_refl _
        · exact List.prefix_refl _

theorem encodeField_ne_nil (enc : Context) (kv : Header) :
    (encodeField enc kv.1 kv.2).2 ≠ [] := by
  have hInt (mask : UInt8) (v N : Nat) : orFirst mask (intEncode v N) ≠ [] := by
    rw [← List.length_pos_iff, length_orFirst, List.length_pos_iff]
    exact intEncode_ne_nil v N
  have hWritten := encodeField_written enc kv
  generalize encodeField enc kv.1 kv.2 = written at hWritten ⊢
  cases hWritten with
  | known i => exact hInt _ _ _
  | static k => exact hInt _ _ _
  | named k => exact List.append_ne_nil_of_left_ne_nil (hInt _ _ _) _
  | new => exact List.cons_ne_nil _ _

theorem encodeFields_cons (enc : Context) (kv : Header) (headers : List Header) :
    encodeFields enc (kv :: headers)
      = let field := encodeField enc (lc kv.1) kv.2
        let fields := encodeFields field.1 headers
        (fields.1, field.2 ++ fields.2) := rfl

/-- One turn of the decoder on a block whose first field survives. -/
theorem headersDecodeLoop_safe {enc : Context} {dec : DecodeContext} {kv : Header} {fuel : Nat}
    (h : InStep enc dec) (hAccepted : Accepted (lc kv.1)) (hSafe : Safe (lowered kv))
    (rest : Octets) :
    ∃ dec', headersDecodeLoop (fuel + 1) dec ((encodeField enc (lc kv.1) kv.2).2 ++ rest)
        = headersDecodeLoop fuel dec' rest ∧
      InStep (encodeField enc (lc kv.1) kv.2).1 dec' ∧
      dec'.emittedHeaders = dec.emittedHeaders ++ [lowered kv] := by
  obtain ⟨dec', hNext, hStep, hEmitted⟩ := decodeField_safe h hAccepted hSafe rest
  refine ⟨dec', ?_, hStep, hEmitted⟩
  have hNe := List.append_ne_nil_of_left_ne_nil (encodeField_ne_nil enc (lowered kv)) rest
  simp only [lowered] at hNe hNext
  simp only [headersDecodeLoop, if_neg hNe, hNext, List.drop_left]

/-- A turn on a block whose first field does not: nothing, or another field first. -/
theorem headersDecodeLoop_other {enc : Context} {dec : DecodeContext} {kv : Header} {fuel : Nat}
    (h : InStep enc dec) (hAccepted : Accepted (lc kv.1)) (hUnsafe : ¬ Safe (lowered kv))
    (rest : Octets) {more : List Header}
    (hDone : (headersDecodeLoop (fuel + 1) dec
      ((encodeField enc (lc kv.1) kv.2).2 ++ rest)).2 = .done)
    (hEmitted : (headersDecodeLoop (fuel + 1) dec
      ((encodeField enc (lc kv.1) kv.2).2 ++ rest)).1.emittedHeaders
        = dec.emittedHeaders ++ more) :
    ∃ other, other ≠ lowered kv ∧ [other] <+: more := by
  have hNe := List.append_ne_nil_of_left_ne_nil (encodeField_ne_nil enc (lowered kv)) rest
  simp only [lowered] at hNe
  simp only [headersDecodeLoop, if_neg hNe] at hDone hEmitted
  cases hField : decodeField dec ((encodeField enc (lc kv.1) kv.2).2 ++ rest) with
  | next dec' size =>
      obtain ⟨other, hOther, hFirst⟩ := decodeField_other h hAccepted hUnsafe rest hField
      refine ⟨other, hOther, ?_⟩
      rw [hField] at hEmitted
      have hGrown := emitted_headersDecodeLoop fuel dec'
        (((encodeField enc (lc kv.1) kv.2).2 ++ rest).drop size)
      rw [hEmitted, hFirst] at hGrown
      exact (List.prefix_append_right_inj _).mp hGrown
  | last =>
      rw [hField] at hDone
      exact nomatch hDone
  | fail result =>
      have hAdds := decodeField_adds dec ((encodeField enc (lc kv.1) kv.2).2 ++ rest)
      rw [hField] at hDone hAdds
      exact absurd hDone hAdds

/-- The decoder emits the list a block was made of exactly when its fields survive. -/
theorem headersDecodeLoop_encodeFields {enc : Context} {dec : DecodeContext}
    {headers : List Header} {fuel : Nat} (h : InStep enc dec)
    (hAccepted : ∀ kv ∈ headers, Accepted (lc kv.1))
    (hFuel : (encodeFields enc headers).2.length ≤ fuel) :
    let decoded := headersDecodeLoop fuel dec (encodeFields enc headers).2
    (decoded.2 = .done ∧
        decoded.1.emittedHeaders = dec.emittedHeaders ++ headers.map lowered ↔
      ∀ kv ∈ headers, Safe (lowered kv)) ∧
    ((∀ kv ∈ headers, Safe (lowered kv)) → InStep (encodeFields enc headers).1 decoded.1) := by
  induction headers generalizing enc dec fuel with
  | nil =>
      have hEnd : headersDecodeLoop fuel dec [] = (dec, .done) := by
        cases fuel <;> simp [headersDecodeLoop]
      simp only [encodeFields, hEnd]
      exact ⟨by simp, fun _ => h⟩
  | cons kv headers ih =>
      have hHead := hAccepted kv (List.mem_cons_self ..)
      have hTail := fun kv' hkv' => hAccepted kv' (List.mem_cons_of_mem kv hkv')
      rw [encodeFields_cons] at hFuel ⊢
      simp only [List.length_append] at hFuel ⊢
      have hPos := List.length_pos_iff.mpr (encodeField_ne_nil enc (lowered kv))
      simp only [lowered] at hPos
      obtain ⟨fuel, rfl⟩ : ∃ fuel', fuel = fuel' + 1 := ⟨fuel - 1, by omega⟩
      by_cases hSafe : Safe (lowered kv)
      · obtain ⟨dec', hTurn, hStep, hEmitted⟩ := @headersDecodeLoop_safe _ _ _ fuel h hHead hSafe
          (encodeFields (encodeField enc (lc kv.1) kv.2).1 headers).2
        have hRest := @ih _ _ fuel hStep hTail (by omega)
        rw [hTurn]
        simp only [hEmitted, List.append_assoc, List.singleton_append] at hRest
        simpa [hSafe] using hRest
      · refine ⟨⟨fun hDone => ?_, fun hAll => absurd (hAll kv (List.mem_cons_self ..)) hSafe⟩,
          fun hAll => absurd (hAll kv (List.mem_cons_self ..)) hSafe⟩
        obtain ⟨other, hOther, hFirst⟩ :=
          headersDecodeLoop_other h hHead hSafe _ hDone.1 hDone.2
        rw [List.map_cons, List.cons_prefix_cons] at hFirst
        exact absurd hFirst.1 hOther

/-! ### A sequence of blocks -/

/-- A context of the given size, as `new` makes it. -/
def Context.ofSize (size : UInt32) : Context where
  maxHtSize := size.toNat
  settings := defaultSettings.insert Setting.headerTableSize size.toNat

/-- Each block decodes to the list it was made of, its names in lower case, and
leaves the two tables equal; the emitted list is emptied between blocks. -/
def RoundTrip : Context → DecodeContext → List (List Header) → Prop
  | _, _, [] => True
  | enc, dec, headers :: lists =>
      let encoded := headersEncode enc headers
      let decoded := headersDecode { dec with emittedHeaders := [] } encoded.2
      decoded.2 = .done ∧ decoded.1.emittedHeaders = headers.map lowered ∧
        decoded.1.headerTable = encoded.1.headerTable ∧ RoundTrip encoded.1 decoded.1 lists

theorem InStep.clear {enc : Context} {dec : DecodeContext} (h : InStep enc dec) :
    InStep enc { dec with emittedHeaders := [] } := ⟨h.same, h.sound, h.size, h.steady⟩

theorem InStep.headersEncode {enc : Context} {dec : DecodeContext} (h : InStep enc dec)
    (headers : List Header) :
    headersEncode enc headers = encodeFields enc (if headers = [] then [([], [])] else headers) := by
  rw [Http2.headersEncode, if_neg (not_not.mpr h.steady)]

/-- An empty list does not come back. -/
theorem headersDecode_empty {enc : Context} {dec : DecodeContext} (h : InStep enc dec)
    (hEmitted : dec.emittedHeaders = []) :
    let decoded := headersDecode dec (headersEncode enc []).2
    ¬ (decoded.2 = .done ∧ decoded.1.emittedHeaders = []) := by
  have hNe := List.length_pos_iff.mpr (encodeField_ne_nil enc ([], []))
  obtain ⟨fuel, hFuel⟩ : ∃ fuel, (encodeField enc [] []).2.length = fuel + 1 :=
    ⟨_, (Nat.sub_add_cancel hNe).symm⟩
  have hBlock : (headersEncode enc []).2 = (encodeField enc (lc []) []).2 ++ [] := by
    rw [h.headersEncode, if_pos rfl]
    rfl
  rw [headersDecode, hBlock, List.append_nil, show lc [] = [] from rfl, hFuel]
  rintro decoded ⟨hDone, hNone⟩
  obtain ⟨other, -, hFirst⟩ := @headersDecodeLoop_other enc dec ([], []) fuel h (Or.inl rfl)
    (fun hSafe => hSafe.named rfl) [] [] (by rw [List.append_nil]; exact hDone)
    (by rw [List.append_nil, List.append_nil, hEmitted]; exact hNone)
  simp at hFirst

theorem roundTrip_iff {enc : Context} {dec : DecodeContext} {lists : List (List Header)}
    (h : InStep enc dec) (hAccepted : ∀ headers ∈ lists, ∀ kv ∈ headers, Accepted (lc kv.1)) :
    RoundTrip enc dec lists ↔
      ∀ headers ∈ lists, headers ≠ [] ∧ ∀ kv ∈ headers, Safe (lowered kv) := by
  induction lists generalizing enc dec with
  | nil => simp [RoundTrip]
  | cons headers lists ih =>
      have hHead := hAccepted headers (List.mem_cons_self ..)
      have hTail := fun list hList => hAccepted list (List.mem_cons_of_mem headers hList)
      by_cases hEmpty : headers = []
      · subst hEmpty
        have hFails := headersDecode_empty h.clear rfl
        refine iff_of_false (fun hTrip => hFails ⟨hTrip.1, hTrip.2.1⟩) fun hAll => ?_
        exact (hAll [] (List.mem_cons_self ..)).1 rfl
      · have hEncode := h.headersEncode headers
        rw [if_neg hEmpty] at hEncode
        obtain ⟨hBlock, hStays⟩ := headersDecodeLoop_encodeFields h.clear hHead le_rfl
        simp only [List.nil_append] at hBlock
        rw [RoundTrip, hEncode, headersDecode, List.forall_mem_cons]
        constructor
        · rintro ⟨hDone, hEmitted, -, hRest⟩
          have hSafe := hBlock.mp ⟨hDone, hEmitted⟩
          exact ⟨⟨hEmpty, hSafe⟩, (ih (hStays hSafe) hTail).mp hRest⟩
        · rintro ⟨⟨-, hSafe⟩, hRest⟩
          obtain ⟨hDone, hEmitted⟩ := hBlock.mpr hSafe
          exact ⟨hDone, hEmitted, congrArg Context.headerTable (hStays hSafe).same,
            (ih (hStays hSafe) hTail).mpr hRest⟩

theorem inStep_ofSize (size : UInt32) :
    InStep (Context.ofSize size) { Context.ofSize size with } where
  same := rfl
  sound := ⟨rfl, Int.natCast_nonneg _, nofun⟩
  size := UInt32.toNat_lt size
  steady := by simp [Context.ofSize, Settings.value]

/-- A sequence of header lists comes back from a decoder with the encoder's table
size exactly when every list has a field and every field survives. -/
theorem headers_roundTrip_iff (size : UInt32) (lists : List (List Header))
    (hAccepted : ∀ headers ∈ lists, ∀ kv ∈ headers, Accepted (lc kv.1)) :
    RoundTrip (Context.ofSize size) { Context.ofSize size with } lists ↔
      ∀ headers ∈ lists, headers ≠ [] ∧ ∀ kv ∈ headers, Safe (lowered kv) :=
  roundTrip_iff (inStep_ofSize size) hAccepted

instance (name : Octets) : Decidable (Accepted name) := inferInstanceAs (Decidable (_ ∨ _))

theorem headers_roundTrip_request :
    RoundTrip (Context.ofSize 4096) { Context.ofSize 4096 with }
        [[(octets ":path", octets "/news"), (octets "X-Tag", [])], [(octets "x-tag", [])]] ↔
      ∀ headers ∈
          [[(octets ":path", octets "/news"), (octets "X-Tag", [])], [(octets "x-tag", [])]],
        headers ≠ [] ∧ ∀ kv ∈ headers, Safe (lowered kv) :=
  headers_roundTrip_iff 4096 _ (by decide +kernel)

/-- A field without a value takes the value of the static field with its name. -/
theorem headers_roundTrip_fails :
    ¬ ∀ (size : UInt32) (lists : List (List Header)),
      (∀ headers ∈ lists, ∀ kv ∈ headers, Accepted (lc kv.1)) →
        RoundTrip (Context.ofSize size) { Context.ofSize size with } lists := by
  intro h
  have hTrip := h 4096 [[(octets "accept-encoding", [])]] (by decide +kernel)
  have hDecoded : (headersDecode { Context.ofSize 4096 with emittedHeaders := [] }
      (headersEncode (Context.ofSize 4096) [(octets "accept-encoding", [])]).2).1.emittedHeaders
        = [(octets "accept-encoding", octets "gzip, deflate")] := by
    decide +kernel
  exact absurd (hDecoded.symm.trans hTrip.2.1) (by decide +kernel)

end PageCamel.Http2

import PageCamel.Http2.DynamicTable

/-!
What `headers_decode` takes from its two tables. `evict_ht` pops entries without a look at
whether there are any, and the subscripts come from the peer; both rest on the size kept
beside the dynamic table and on the branches that were left before.
-/

namespace PageCamel.Http2
open PageCamel.Lib

/-- A read of an element by its subscript or the `pop` of an entry, with the number of entries
the table has. -/
inductive TableUse
  | element (subscript : Int) (entries : Nat)
  | pop (entries : Nat)
  deriving DecidableEq

/-- The element is one of the table; there is an entry to pop. -/
def TableUse.InRange : TableUse → Prop
  | .element subscript entries => 0 ≤ subscript ∧ subscript < entries
  | .pop entries => 0 < entries

instance : DecidablePred TableUse.InRange := fun use =>
  match use with
  | .element subscript entries => inferInstanceAs (Decidable (0 ≤ subscript ∧ subscript < entries))
  | .pop entries => inferInstanceAs (Decidable (0 < entries))

/-- The `pop`s of the loop of `evict_ht`, up to the first one from an empty table. -/
def evictPops (limit : Int) : Int → List Header → List TableUse
  | htSize, [] => if htSize > limit then [.pop 0] else []
  | htSize, kv :: newer =>
      if htSize > limit then
        .pop (newer.length + 1) :: evictPops limit (htSize - entrySize kv) newer
      else []

namespace Context

/-- `evict_ht`. -/
def evictUses (context : Context) (size : Nat) : List TableUse :=
  evictPops (context.maxHtSize - size) context.htSize context.headerTable.reverse

/-- `add_to_ht`. -/
def addUses (context : Context) (key value : Octets) : List TableUse :=
  let size := key.length + value.length + 32
  if size > context.maxHtSize then [] else context.evictUses size

/-- `$stable[ $index - 1 ]` or `$ht->[ $index - @stable - 1 ]`, by the test that chooses. -/
def indexUses (context : Context) (index : Nat) : List TableUse :=
  if index ≤ stable.length then [.element ((index : Int) - 1) stable.length]
  else if index > stable.length + context.headerTable.length then []
  else [.element ((index : Int) - stable.length - 1) context.headerTable.length]

/-- The invariant of a context: the size counted is the size of the table, which is no larger
than it may be. -/
structure Metered (context : Context) : Prop where
  counted : context.Counted
  fits : context.htSize ≤ context.maxHtSize

instance (context : Context) : Decidable context.Metered :=
  decidable_of_iff (context.Counted ∧ context.htSize ≤ context.maxHtSize)
    ⟨fun h => ⟨h.1, h.2⟩, fun h => ⟨h.counted, h.fits⟩⟩

end Context

namespace DecodeContext

def indexedUses (context : DecodeContext) (buf : Octets) : List TableUse :=
  match intDecode buf 7 with
  | none => []
  | some (index, _) => if index = 0 then [] else context.indexUses index

def literalNewUses (context : DecodeContext) (f : UInt8) (buf : Octets) : List TableUse :=
  match strDecode (buf.drop 1) with
  | none => []
  | some (key, keySize) =>
      if keySize = 1 then []
      else if !key.all isNameChar && !isPseudo key then []
      else
        match strDecode (buf.drop (1 + keySize)) with
        | none => []
        | some (value, _) => if f = 0x40 then context.addUses key value else []

/-- The name is looked up before the entry is added; an index of zero is not told apart. -/
def literalIndexedUses (context : DecodeContext) (f : UInt8) (buf : Octets) : List TableUse :=
  match intDecode buf (if f &&& 0xC0 = 0x40 then 6 else 4) with
  | none => []
  | some (index, size) =>
      match strDecode (buf.drop size) with
      | none => []
      | some (value, _) =>
          context.indexUses index ++
            match context.entry? index with
            | none => []
            | some (key, _) => if f &&& 0xC0 = 0x40 then context.addUses key value else []

def sizeUpdateUses (context : DecodeContext) (buf : Octets) : List TableUse :=
  match intDecode buf 5 with
  | none => []
  | some (htSize, _) =>
      if htSize > context.settings.value Setting.headerTableSize then []
      else if context.emittedHeaders ≠ [] then []
      else { context.toContext with maxHtSize := htSize }.evictUses 0

/-- One turn of the loop of `headers_decode`, by the first octet. -/
def uses (context : DecodeContext) (buf : Octets) : List TableUse :=
  let f := buf.headD 0
  if f &&& 0x80 ≠ 0 then context.indexedUses buf
  else if f = 0x40 ∨ f = 0x00 ∨ f = 0x10 then context.literalNewUses f buf
  else if f &&& 0xC0 = 0x40 ∨ f &&& 0xF0 = 0x00 ∨ f &&& 0xF0 = 0x10 then
    context.literalIndexedUses f buf
  else if f &&& 0xE0 = 0x20 then context.sizeUpdateUses buf
  else []

end DecodeContext

/-- The turns of the loop of `headers_decode`: the context each begins with and the rest of
the block. -/
def headersDecodeTurns : Nat → DecodeContext → Octets → List (DecodeContext × Octets)
  | 0, _, _ => []
  | fuel + 1, context, buf =>
      if buf = [] then []
      else
        (context, buf) ::
          match decodeField context buf with
          | .next context size => headersDecodeTurns fuel context (buf.drop size)
          | .last => []
          | .fail _ => []

/-! ### Eviction -/

/-- As long as the size is the one of the entries that are left, the loop stops at the last of
them. -/
theorem inRange_of_mem_evictPops (limit : Nat) (entries : List Header) :
    ∀ use ∈ evictPops limit (Hpack.size entries) entries, use.InRange := by
  induction entries with
  | nil =>
      intro use hUse
      rw [evictPops, Hpack.size_nil, if_neg (by omega)] at hUse
      cases hUse
  | cons kv newer ih =>
      intro use hUse
      rw [evictPops] at hUse
      split at hUse
      · have hSize : (Hpack.size (kv :: newer) : Int) - entrySize kv = Hpack.size newer := by
          rw [entrySize_eq, Hpack.size_cons]
          omega
        rw [hSize] at hUse
        cases hUse with
        | head => exact Nat.succ_pos _
        | tail _ hRest => exact ih use hRest
      · cases hUse

namespace Context

theorem Counted.inRange_of_mem_evictUses {context : Context} (h : context.Counted) {size : Nat}
    (hRoom : size ≤ context.maxHtSize) {use : TableUse} (hUse : use ∈ context.evictUses size) :
    use.InRange := by
  have hLimit : (context.maxHtSize : Int) - (size : Nat) = ((context.maxHtSize - size : Nat) : Int) := by
    omega
  rw [evictUses, hLimit, h, ← Hpack.size_reverse] at hUse
  exact inRange_of_mem_evictPops _ _ use hUse

theorem Counted.metered_evictHt {context : Context} (h : context.Counted) :
    (Http2.evictHt context 0).1.Metered := by
  rw [h.evictHt (show context.maxHtSize = context.maxHtSize + 0 from rfl)]
  exact ⟨rfl, Int.ofNat_le.mpr (Hpack.size_keep ..)⟩

theorem Metered.inRange_of_mem_addUses {context : Context} (h : context.Metered) {key value : Octets}
    {use : TableUse} (hUse : use ∈ context.addUses key value) : use.InRange := by
  rw [addUses] at hUse
  split at hUse
  · cases hUse
  · next hFits => exact h.counted.inRange_of_mem_evictUses (Nat.not_lt.mp hFits) hUse

theorem Metered.addToHt {context : Context} (h : context.Metered) (key value : Octets) :
    (Http2.addToHt context key value).1.Metered := by
  by_cases hFits : Hpack.fieldSize (key, value) ≤ context.maxHtSize
  · rw [h.counted.addToHt_of_fits hFits]
    exact ⟨rfl, Int.ofNat_le.mpr (Hpack.size_insert ..)⟩
  · rwa [addToHt_of_large (Nat.not_le.mp hFits)]

/-! ### Subscripts -/

theorem inRange_of_mem_indexUses {context : Context} {index : Nat} (hIndex : index ≠ 0) {use : TableUse}
    (hUse : use ∈ context.indexUses index) : use.InRange := by
  rw [indexUses] at hUse
  split at hUse
  · obtain rfl := List.mem_singleton.mp hUse
    exact ⟨by omega, by omega⟩
  · split at hUse
    · cases hUse
    · obtain rfl := List.mem_singleton.mp hUse
      exact ⟨by omega, by omega⟩

end Context

/-- Continuation octets only add to an integer. -/
theorem le_intDecodeRest {i int v size : Nat} {buf : Octets}
    (h : intDecodeRest i int buf = some (v, size)) : int ≤ v := by
  induction buf generalizing i int with
  | nil => cases h
  | cons s rest ih =>
      rw [intDecodeRest] at h
      split at h
      · cases h
      · dsimp only at h
        split at h
        · cases h
          exact Nat.le_add_right ..
        · exact (Nat.le_add_right ..).trans (ih h)

theorem intDecode_ne_zero {N v size : Nat} {buf : Octets} (h : intDecode buf N = some (v, size))
    (hPrefix : 2 ^ N - 1 &&& (buf.headD 0).toNat ≠ 0) : v ≠ 0 := by
  cases buf with
  | nil => cases h
  | cons b rest =>
      rw [intDecode] at h
      split at h
      · cases h
        exact hPrefix
      · next hLong =>
          have hLeast := le_intDecodeRest h
          rw [List.headD_cons] at hPrefix
          omega

/-- The octets that start a literal with a name of its own are the ones whose index is zero. -/
theorem prefix_ne_zero {f : UInt8} (hNew : ¬ (f = 0x40 ∨ f = 0x00 ∨ f = 0x10))
    (hIndexed : f &&& 0xC0 = 0x40 ∨ f &&& 0xF0 = 0x00 ∨ f &&& 0xF0 = 0x10) :
    2 ^ (if f &&& 0xC0 = 0x40 then 6 else 4) - 1 &&& f.toNat ≠ 0 := by
  have hAll : ∀ x : Fin 256,
      ¬ (UInt8.ofNat x = 0x40 ∨ UInt8.ofNat x = 0x00 ∨ UInt8.ofNat x = 0x10) →
      UInt8.ofNat x &&& 0xC0 = 0x40 ∨ UInt8.ofNat x &&& 0xF0 = 0x00 ∨
        UInt8.ofNat x &&& 0xF0 = 0x10 →
      2 ^ (if UInt8.ofNat x &&& 0xC0 = 0x40 then 6 else 4) - 1 &&& (UInt8.ofNat x).toNat ≠ 0 := by
    decide +kernel
  have hOctet := hAll ⟨f.toNat, UInt8.toNat_lt f⟩
  simp only [UInt8.ofNat_toNat] at hOctet
  exact hOctet hNew hIndexed

/-! ### A turn of the loop -/

section
variable {context context' : DecodeContext} {buf : Octets} {f : UInt8} {size : Nat} {use : TableUse}

theorem metered_emit_add (h : context.Metered) (added : Prop) [Decidable added] (key value : Octets) :
    (if added then (context.emit key value).add key value else context.emit key value).Metered := by
  split
  · exact h.addToHt key value
  · exact h

theorem metered_decodeIndexed (h : context.Metered)
    (hField : decodeIndexed context buf = .next context' size) : context'.Metered := by
  rw [decodeIndexed] at hField
  split at hField
  · cases hField
  · split at hField
    · cases hField
    · split at hField
      · cases hField
      · cases hField
        exact h

theorem inRange_of_mem_indexedUses (hUse : use ∈ context.indexedUses buf) : use.InRange := by
  rw [DecodeContext.indexedUses] at hUse
  split at hUse
  · cases hUse
  · split at hUse
    · cases hUse
    · next hIndex => exact Context.inRange_of_mem_indexUses hIndex hUse

theorem metered_decodeLiteralNew (h : context.Metered)
    (hField : decodeLiteralNew context f buf = .next context' size) : context'.Metered := by
  rw [decodeLiteralNew] at hField
  split at hField
  · cases hField
  · split at hField
    · cases hField
    · split at hField
      · cases hField
      · split at hField
        · cases hField
        · cases hField
          exact metered_emit_add h ..

theorem inRange_of_mem_literalNewUses (h : context.Metered)
    (hUse : use ∈ context.literalNewUses f buf) : use.InRange := by
  rw [DecodeContext.literalNewUses] at hUse
  split at hUse
  · cases hUse
  · split at hUse
    · cases hUse
    · split at hUse
      · cases hUse
      · split at hUse
        · cases hUse
        · split at hUse
          · exact h.inRange_of_mem_addUses hUse
          · cases hUse

theorem metered_decodeLiteralIndexed (h : context.Metered)
    (hField : decodeLiteralIndexed context f buf = .next context' size) : context'.Metered := by
  rw [decodeLiteralIndexed] at hField
  split at hField
  · cases hField
  · split at hField
    · cases hField
    · split at hField
      · cases hField
      · cases hField
        exact metered_emit_add h ..

/-- A literal whose index is zero has gone to the branch before. -/
theorem inRange_of_mem_literalIndexedUses (h : context.Metered) (hFirst : f = buf.headD 0)
    (hNew : ¬ (f = 0x40 ∨ f = 0x00 ∨ f = 0x10))
    (hIndexed : f &&& 0xC0 = 0x40 ∨ f &&& 0xF0 = 0x00 ∨ f &&& 0xF0 = 0x10)
    (hUse : use ∈ context.literalIndexedUses f buf) : use.InRange := by
  rw [DecodeContext.literalIndexedUses] at hUse
  split at hUse
  · cases hUse
  · next index size hIndex =>
      have hPos : index ≠ 0 := intDecode_ne_zero hIndex (hFirst ▸ prefix_ne_zero hNew hIndexed)
      split at hUse
      · cases hUse
      · rcases List.mem_append.mp hUse with hUse | hUse
        · exact Context.inRange_of_mem_indexUses hPos hUse
        · split at hUse
          · cases hUse
          · split at hUse
            · exact h.inRange_of_mem_addUses hUse
            · cases hUse

theorem metered_decodeSizeUpdate (h : context.Metered)
    (hField : decodeSizeUpdate context buf = .next context' size) : context'.Metered := by
  rw [decodeSizeUpdate] at hField
  split at hField
  · cases hField
  · next htSize _ _ =>
      split at hField
      · cases hField
      · split at hField
        · cases hField
        · cases hField
          have hCounted : Context.Counted { context.toContext with maxHtSize := htSize } := h.counted
          exact hCounted.metered_evictHt

theorem inRange_of_mem_sizeUpdateUses (h : context.Metered)
    (hUse : use ∈ context.sizeUpdateUses buf) : use.InRange := by
  rw [DecodeContext.sizeUpdateUses] at hUse
  split at hUse
  · cases hUse
  · next htSize _ _ =>
      split at hUse
      · cases hUse
      · split at hUse
        · cases hUse
        · have hCounted : Context.Counted { context.toContext with maxHtSize := htSize } := h.counted
          exact hCounted.inRange_of_mem_evictUses (Nat.zero_le _) hUse

theorem metered_decodeField (h : context.Metered) (hField : decodeField context buf = .next context' size) :
    context'.Metered := by
  rw [decodeField] at hField
  split at hField
  · exact metered_decodeIndexed h hField
  · split at hField
    · exact metered_decodeLiteralNew h hField
    · split at hField
      · exact metered_decodeLiteralIndexed h hField
      · split at hField
        · exact metered_decodeSizeUpdate h hField
        · cases hField

theorem inRange_of_mem_uses (h : context.Metered) (hUse : use ∈ context.uses buf) : use.InRange := by
  rw [DecodeContext.uses] at hUse
  split at hUse
  · exact inRange_of_mem_indexedUses hUse
  · split at hUse
    · exact inRange_of_mem_literalNewUses h hUse
    · next hNew =>
        split at hUse
        · next hIndexed => exact inRange_of_mem_literalIndexedUses h rfl hNew hIndexed hUse
        · split at hUse
          · exact inRange_of_mem_sizeUpdateUses h hUse
          · cases hUse

end

/-! ### The loop -/

theorem metered_headersDecodeLoop (fuel : Nat) {context : DecodeContext} (h : context.Metered)
    (buf : Octets) : (headersDecodeLoop fuel context buf).1.Metered := by
  induction fuel generalizing context buf with
  | zero => exact h
  | succ fuel ih =>
      rw [headersDecodeLoop]
      split
      · exact h
      · split
        · next hField => exact ih (metered_decodeField h hField) _
        · exact h
        · exact h

theorem metered_of_mem_turns (fuel : Nat) {context : DecodeContext} (h : context.Metered)
    (buf : Octets) {turn : DecodeContext × Octets}
    (hTurn : turn ∈ headersDecodeTurns fuel context buf) : turn.1.Metered := by
  induction fuel generalizing context buf with
  | zero => cases hTurn
  | succ fuel ih =>
      rw [headersDecodeTurns] at hTurn
      split at hTurn
      · cases hTurn
      · cases hTurn with
        | head => exact h
        | tail _ hRest =>
            split at hRest
            · next hField => exact ih (metered_decodeField h hField) _ hRest
            · cases hRest
            · cases hRest

/-- Whatever the block is, the decoder keeps the invariant of its context, has it at the start
of every turn, and reads or pops only entries that exist. -/
theorem headersDecode_metered (context : DecodeContext) (h : context.Metered) (block : Octets) :
    (headersDecode context block).1.Metered ∧
      ∀ turn ∈ headersDecodeTurns block.length context block,
        turn.1.Metered ∧ ∀ use ∈ turn.1.uses turn.2, use.InRange := by
  refine ⟨metered_headersDecodeLoop _ h block, fun turn hTurn => ?_⟩
  have hMetered := metered_of_mem_turns _ h block hTurn
  exact ⟨hMetered, fun use hUse => inRange_of_mem_uses hMetered hUse⟩

/-- A size update to 40 octets evicts the one entry of this context, and the field after it is
cut off in its value. -/
def evictingContext : DecodeContext :=
  { headerTable := [(octets "name", octets "value")], htSize := 41 }

def evictingBlock : Octets := [0x3F, 0x09, 0x40, 0x01, 0x61, 0x05, 0x62]

theorem headersDecode_metered_evicting :
    evictingContext.Metered ∧ (headersDecode evictingContext evictingBlock).1.Metered ∧
      ∀ turn ∈ headersDecodeTurns evictingBlock.length evictingContext evictingBlock,
        turn.1.Metered ∧ ∀ use ∈ turn.1.uses turn.2, use.InRange :=
  ⟨by decide, headersDecode_metered evictingContext (by decide) evictingBlock⟩

example : (headersDecodeTurns evictingBlock.length evictingContext evictingBlock).flatMap
    (fun turn => turn.1.uses turn.2) = [.pop 1] := by decide +kernel

end PageCamel.Http2

import PageCamel.Http2.HeaderCompression
import PageCamel.Lib.Hpack

/-!
The dynamic table beside the one of RFC 7541. Both evict from the oldest entry on until
there is room; they differ on an entry that is larger than the whole table, which
`add_to_ht` drops and the RFC lets empty the table.
-/

namespace PageCamel.Http2
open PageCamel.Lib

theorem entrySize_eq (kv : Header) : entrySize kv = Hpack.fieldSize kv := by
  rw [entrySize, Hpack.fieldSize]
  omega

/-- The counter kept beside the table is its size. -/
def Context.Counted (context : Context) : Prop :=
  context.htSize = Hpack.size context.headerTable

instance (context : Context) : Decidable context.Counted := inferInstanceAs (Decidable (_ = _))

/-! ### Eviction -/

/-- The loop of `evict_ht` leaves the newest entries there is room for. -/
theorem evictLoop_keep (limit : Nat) (entries : List Header) :
    ∃ evicted, evictLoop limit (Hpack.size entries) entries.reverse =
      (((Hpack.size (Hpack.keep limit entries) : Nat) : Int), (Hpack.keep limit entries).reverse,
        evicted) := by
  induction entries using List.reverseRecOn with
  | nil => exact ⟨[], rfl⟩
  | append_singleton entries oldest ih =>
      rw [List.reverse_append, List.reverse_singleton, List.singleton_append, evictLoop]
      by_cases hLarge : limit < Hpack.size (entries ++ [oldest])
      · obtain ⟨evicted, hLoop⟩ := ih
        have hSize : (Hpack.size (entries ++ [oldest]) : Int) - entrySize oldest =
            Hpack.size entries := by
          rw [entrySize_eq, Hpack.size_append, Hpack.size_cons, Hpack.size_nil]
          omega
        refine ⟨oldest :: evicted, ?_⟩
        rw [if_pos (by omega), hSize, hLoop, Hpack.keep_append_singleton hLarge]
      · refine ⟨[], ?_⟩
        rw [if_neg (by omega), Hpack.keep_of_fits (Nat.not_lt.mp hLarge), List.reverse_append]
        rfl

/-- `evict_ht` leaves the entries that have room beside `size` octets. -/
theorem Context.Counted.evictHt {context : Context} (h : context.Counted) {room size : Nat}
    (hRoom : context.maxHtSize = room + size) :
    (Http2.evictHt context size).1 = { context with
      headerTable := Hpack.keep room context.headerTable
      htSize := Hpack.size (Hpack.keep room context.headerTable) } := by
  obtain ⟨evicted, hLoop⟩ := evictLoop_keep room context.headerTable
  have hLimit : ((context.maxHtSize : Int) - (size : Nat)) = (room : Nat) := by omega
  rw [Http2.evictHt, hLimit, h, hLoop]
  simp only [List.reverse_reverse]

/-! ### Adding an entry -/

theorem addToHt_of_large {context : Context} {key value : Octets}
    (h : context.maxHtSize < Hpack.fieldSize (key, value)) : (addToHt context key value).1 = context := by
  have hField : key.length + value.length + 32 = Hpack.fieldSize (key, value) := rfl
  rw [addToHt, hField, if_pos h]

theorem Context.Counted.addToHt_of_fits {context : Context} (h : context.Counted)
    {key value : Octets} (hFits : Hpack.fieldSize (key, value) ≤ context.maxHtSize) :
    (addToHt context key value).1 = { context with
      headerTable := Hpack.insert context.maxHtSize (key, value) context.headerTable
      htSize := Hpack.size (Hpack.insert context.maxHtSize (key, value) context.headerTable) } := by
  have hField : key.length + value.length + 32 = Hpack.fieldSize (key, value) := rfl
  have hRoom : context.maxHtSize =
      (context.maxHtSize - Hpack.fieldSize (key, value)) + Hpack.fieldSize (key, value) := by omega
  have hEvict := h.evictHt hRoom
  rw [addToHt, hField, if_neg (Nat.not_lt.mpr hFits)]
  generalize Http2.evictHt context _ = result at hEvict ⊢
  obtain ⟨left, evicted⟩ := result
  obtain rfl := hEvict
  have hSize (entries : List Header) : ((Hpack.size entries : Nat) : Int) +
      ((Hpack.fieldSize (key, value) : Nat) : Int) = Hpack.size ((key, value) :: entries) := by
    rw [Hpack.size_cons]
    omega
  simp only [Hpack.insert, if_pos hFits, hSize]

theorem Context.Counted.addToHt {context : Context} (h : context.Counted) (key value : Octets) :
    (addToHt context key value).1.Counted := by
  by_cases hFits : Hpack.fieldSize (key, value) ≤ context.maxHtSize
  · rw [h.addToHt_of_fits hFits]
    rfl
  · rwa [addToHt_of_large (Nat.not_le.mp hFits)]

/-- `add_to_ht` leaves the table of RFC 7541, and counts its size, exactly when the entry is
not larger than the table may become or the table is empty. -/
theorem addToHt_prescribed_iff {context : Context} (h : context.Counted) (key value : Octets) :
    (addToHt context key value).1.headerTable =
        Hpack.insert context.maxHtSize (key, value) context.headerTable ∧
        (addToHt context key value).1.Counted ↔
      Hpack.fieldSize (key, value) ≤ context.maxHtSize ∨ context.headerTable = [] := by
  rw [and_iff_left (h.addToHt key value)]
  by_cases hFits : Hpack.fieldSize (key, value) ≤ context.maxHtSize
  · simp [h.addToHt_of_fits hFits, hFits]
  · have hLarge := Nat.not_le.mp hFits
    simp [addToHt_of_large hLarge, Hpack.insert_of_large hLarge, hFits]

/-- A table for one small entry. -/
def smallTable : Context := { headerTable := [(octets "a", octets "b")], htSize := 34, maxHtSize := 40 }

theorem addToHt_prescribed_small :
    smallTable.Counted ∧
      ((addToHt smallTable (octets "c") (octets "d")).1.headerTable =
          Hpack.insert smallTable.maxHtSize (octets "c", octets "d") smallTable.headerTable ∧
          (addToHt smallTable (octets "c") (octets "d")).1.Counted ↔
        Hpack.fieldSize (octets "c", octets "d") ≤ smallTable.maxHtSize ∨
          smallTable.headerTable = []) :=
  ⟨by decide, addToHt_prescribed_iff (by decide) (octets "c") (octets "d")⟩

/-- An entry of 43 octets leaves the old one in the table. -/
theorem addToHt_keeps_old :
    ¬ ((addToHt smallTable (octets "location") (octets "/x")).1.headerTable =
      Hpack.insert smallTable.maxHtSize (octets "location", octets "/x") smallTable.headerTable) := by
  decide

end PageCamel.Http2

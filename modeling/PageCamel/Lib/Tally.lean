import Mathlib.Data.List.AList

/-!
The number of entries of a table that have a property, and what putting an entry does to it.
-/

namespace PageCamel.Lib

universe u v
variable {α : Type u} {β : α → Type v} [DecidableEq α]

/-- Whether the table has an entry with the property. -/
def holdsAt (p : (a : α) → β a → Bool) (table : AList β) (a : α) : Bool := (table.lookup a).any (p a)

/-- The number of entries with the property. -/
def tally (p : (a : α) → β a → Bool) (table : AList β) : Nat := table.keys.countP (holdsAt p table)

variable {p : (a : α) → β a → Bool} {table : AList β} {a : α}

theorem holdsAt_of_lookup {b : β a} (h : table.lookup a = some b) : holdsAt p table a = p a b := by
  rw [holdsAt, h, Option.any_some]

theorem holdsAt_of_none (h : table.lookup a = none) : holdsAt p table a = false := by
  rw [holdsAt, h, Option.any_none]

theorem countP_erase_add (p : (a : α) → β a → Bool) (table : AList β) (a : α) :
    (table.keys.erase a).countP (holdsAt p table) + (if holdsAt p table a then 1 else 0) = tally p table := by
  by_cases hMem : a ∈ table.keys
  · rw [tally, (List.perm_cons_erase hMem).countP_eq, List.countP_cons]
  · have hNone : table.lookup a = none := AList.lookup_eq_none.mpr fun hIn => hMem (AList.mem_keys.mp hIn)
    rw [List.erase_of_not_mem hMem, holdsAt_of_none hNone]
    rfl

/-- An entry that is put takes the place of the one that was there. -/
theorem tally_insert (p : (a : α) → β a → Bool) (table : AList β) (a : α) (b : β a) :
    tally p (table.insert a b) + (if holdsAt p table a then 1 else 0) =
      tally p table + (if p a b then 1 else 0) := by
  have hOthers : (table.keys.erase a).countP (holdsAt p (table.insert a b)) =
      (table.keys.erase a).countP (holdsAt p table) := by
    refine List.countP_congr fun other hOther => ?_
    have hNe : other ≠ a := by
      rintro rfl
      exact (table.keys_nodup.not_mem_erase) hOther
    rw [holdsAt, holdsAt, AList.lookup_insert_ne hNe]
  have hSelf : holdsAt p (table.insert a b) a = p a b := holdsAt_of_lookup (AList.lookup_insert ..)
  have hBefore := countP_erase_add p table a
  rw [tally, AList.keys_insert, List.countP_cons, hOthers, hSelf]
  omega

end PageCamel.Lib

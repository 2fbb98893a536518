import Mathlib.Data.List.Basic

/-!
Blocks of memory with places that may not have been written yet, and what stands at their
beginning.
-/

namespace PageCamel.Lib.Blocks

variable {α : Type*}

abbrev Block (α : Type*) := List (Option α)

/-- `malloc`. -/
def fresh (size : Nat) : Block α := List.replicate size none

/-- `realloc`: the first places are as they were. -/
def resized (block : Block α) (size : Nat) : Block α :=
  block.take size ++ fresh (size - block.length)

/-- `memcpy` into a block; there is no result when it would write outside. -/
def copyInto (block : Block α) (start : Nat) (data : List α) : Option (Block α) :=
  if start + data.length ≤ block.length then
    some (block.take start ++ (data.map some ++ block.drop (start + data.length)))
  else none

/-- The block begins with these items. -/
def Holds (block : Block α) (items : List α) : Prop := items.map some <+: block

variable {block : Block α} {items more : List α} {size : Nat}

theorem holds_nil (block : Block α) : Holds block [] := List.nil_prefix

theorem length_resized (block : Block α) (size : Nat) : (resized block size).length = size := by
  rw [resized, fresh, List.length_append, List.length_take, List.length_replicate]
  omega

theorem Holds.resized (hHolds : Holds block items) (hRoom : items.length ≤ size) :
    Holds (resized block size) items := by
  have hTake : items.map some <+: block.take size :=
    List.prefix_take_iff.mpr ⟨hHolds, by rwa [List.length_map]⟩
  exact hTake.trans (List.prefix_append _ _)

/-- What is copied behind the items is added to them. -/
theorem Holds.copyInto (hHolds : Holds block items) (hRoom : items.length + more.length ≤ block.length) :
    ∃ block', copyInto block items.length more = some block' ∧ Holds block' (items ++ more) ∧
      block'.length = block.length := by
  obtain ⟨free, rfl⟩ := hHolds
  refine ⟨_, if_pos hRoom, ?_, ?_⟩
  · have hTake : (items.map some ++ free).take items.length = items.map some :=
      List.take_left' (List.length_map some)
    rw [hTake, Holds, List.map_append, ← List.append_assoc]
    exact List.prefix_append _ _
  · simp only [List.length_append, List.length_take, List.length_drop, List.length_map] at hRoom ⊢
    omega

end PageCamel.Lib.Blocks

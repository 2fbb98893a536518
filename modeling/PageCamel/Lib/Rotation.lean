import Mathlib.Data.List.Nodup
import Mathlib.Data.Nat.ModEq
import Mathlib.Tactic.Common

/-!
Turns on a circle of `n` positions: each takes up where the one before it ended and is at
least one position long, so that `n` turns in a row come to every position.
-/

namespace PageCamel.Lib.Rotation

variable {n i k p : Nat}

/-- `k` positions from `i` on. -/
def arc (n i k : Nat) : List Nat := (List.range k).map fun j => (i + j) % n

@[simp] theorem length_arc : (arc n i k).length = k := by
  rw [arc, List.length_map, List.length_range]

theorem arc_congr {j : Nat} (hSame : i % n = j % n) (k : Nat) : arc n i k = arc n j k := by
  apply List.map_congr_left
  intro l _
  exact Nat.ModEq.add_right l hSame

theorem arc_succ (n i k : Nat) : arc n i (k + 1) = i % n :: arc n (i + 1) k := by
  rw [arc, List.range_succ_eq_map, List.map_cons, List.map_map, Nat.add_zero, arc]
  congr 1
  apply List.map_congr_left
  intro j _
  rw [Function.comp_apply, Nat.succ_eq_add_one, Nat.add_comm j 1, Nat.add_assoc]

theorem arc_add (n i k l : Nat) : arc n i (k + l) = arc n i k ++ arc n (i + k) l := by
  induction k generalizing i with
  | zero => rw [Nat.zero_add, Nat.add_zero]; rfl
  | succ k ih =>
      rw [Nat.add_right_comm, arc_succ, arc_succ, ih, List.cons_append, Nat.add_assoc i 1 k,
        Nat.add_comm 1 k]

theorem lt_of_mem_arc (hPos : 0 < n) (hMem : p ∈ arc n i k) : p < n := by
  obtain ⟨j, -, rfl⟩ := List.mem_map.mp hMem
  exact Nat.mod_lt _ hPos

theorem nodup_arc (hRound : k ≤ n) : (arc n i k).Nodup := by
  refine List.Nodup.map_on ?_ List.nodup_range
  intro j hj l hl hSame
  rw [List.mem_range] at hj hl
  have hMod : j % n = l % n := Nat.ModEq.add_left_cancel (Nat.ModEq.refl i) hSame
  rwa [Nat.mod_eq_of_lt (Nat.lt_of_lt_of_le hj hRound), Nat.mod_eq_of_lt (Nat.lt_of_lt_of_le hl hRound)] at hMod

/-- Turns of at most one round, each from where the one before it ended. -/
inductive Turns (n : Nat) : Nat → List (List Nat) → Prop
  | nil (i : Nat) : Turns n i []
  | cons {i k : Nat} {turns : List (List Nat)} :
      1 ≤ k → k ≤ n → Turns n (i + k) turns → Turns n i (arc n i k :: turns)

namespace Turns
variable {turns before after : List (List Nat)}

theorem congr {j : Nat} (hTurns : Turns n i turns) (hSame : i % n = j % n) : Turns n j turns := by
  induction hTurns generalizing j with
  | nil => exact .nil j
  | @cons i k turns hSome hRound _ ih =>
      rw [arc_congr hSame]
      exact .cons hSome hRound (ih (Nat.ModEq.add_right k hSame))

theorem turn (hPos : 0 < n) (hTurns : Turns n i turns) : ∀ turn ∈ turns,
    1 ≤ turn.length ∧ turn.length ≤ n ∧ turn.Nodup ∧ ∀ p ∈ turn, p < n := by
  induction hTurns with
  | nil => exact nofun
  | cons hSome hRound _ ih =>
      rw [List.forall_mem_cons, length_arc]
      exact ⟨⟨hSome, hRound, nodup_arc hRound, fun p => lt_of_mem_arc hPos⟩, ih⟩

theorem flatten (hTurns : Turns n i turns) :
    ∃ k, turns.length ≤ k ∧ turns.flatten = arc n i k := by
  induction hTurns with
  | nil => exact ⟨0, Nat.le_refl 0, rfl⟩
  | @cons i k turns hSome _ _ ih =>
      obtain ⟨l, hLength, hFlatten⟩ := ih
      refine ⟨k + l, ?_, ?_⟩
      · rw [List.length_cons]
        omega
      · rw [List.flatten_cons, hFlatten, arc_add]

theorem of_append (hTurns : Turns n i (before ++ after)) :
    Turns n i before ∧ ∃ j, Turns n j after := by
  induction before generalizing i with
  | nil => exact ⟨.nil i, i, hTurns⟩
  | cons first before ih =>
      cases hTurns with
      | cons hSome hRound hRest =>
          obtain ⟨hBefore, hAfter⟩ := ih hRest
          exact ⟨.cons hSome hRound hBefore, hAfter⟩

end Turns

end PageCamel.Lib.Rotation

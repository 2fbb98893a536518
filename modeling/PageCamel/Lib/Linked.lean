import Mathlib.Data.List.Nodup

/-!
Singly linked lists in a memory: cells at addresses, each with the address of the next one.
What a change of the memory does to a list is said for the list of its addresses.
-/

namespace PageCamel.Lib

universe u
variable {σ : Type u} {next : σ → Option Nat} {heap heap' : Nat → Option σ}

/-- The cells that are reached from a pointer, up to the one without a next cell. -/
inductive Linked (next : σ → Option Nat) (heap : Nat → Option σ) : Option Nat → List Nat → Prop
  | nil : Linked next heap none []
  | cons {a : Nat} {cell : σ} {rest : List Nat} (hCell : heap a = some cell)
      (hRest : Linked next heap (next cell) rest) : Linked next heap (some a) (a :: rest)

namespace Linked

theorem alive {p : Option Nat} {as : List Nat} (h : Linked next heap p as) {a : Nat}
    (hMem : a ∈ as) : ∃ cell, heap a = some cell := by
  induction h with
  | nil => cases hMem
  | cons hCell _ ih =>
      rcases List.mem_cons.mp hMem with rfl | hMem
      · exact ⟨_, hCell⟩
      · exact ih hMem

/-- A list depends on the pointers in its own cells only. -/
theorem congr {p : Option Nat} {as : List Nat} (h : Linked next heap p as)
    (hSame : ∀ a ∈ as, (heap' a).map next = (heap a).map next) : Linked next heap' p as := by
  induction h with
  | nil => exact .nil
  | @cons a cell rest hCell _ ih =>
      have hNext := hSame a List.mem_cons_self
      rw [hCell, Option.map_some, Option.map_eq_some_iff] at hNext
      obtain ⟨cell', hCell', hNext⟩ := hNext
      refine .cons hCell' ?_
      rw [hNext]
      exact ih fun b hMem => hSame b (List.mem_cons_of_mem _ hMem)

theorem tail {p : Option Nat} {front back : List Nat} {a : Nat} {cell : σ}
    (h : Linked next heap p (front ++ a :: back)) (hCell : heap a = some cell) :
    Linked next heap (next cell) back := by
  induction front generalizing p with
  | nil =>
      cases h with
      | cons hCell' hRest =>
          cases hCell.symm.trans hCell'
          exact hRest
  | cons b front ih =>
      cases h with
      | cons _ hRest => exact ih hRest

/-- A cell is taken out: the one before it is made to point behind it. -/
theorem unlink {p : Option Nat} {front back : List Nat} {b a : Nat} {cell before : σ}
    (h : Linked next heap p (front ++ b :: a :: back)) (hCell : heap a = some cell)
    (hBefore : heap' b = some before) (hNext : next before = next cell)
    (hSame : ∀ c ∈ front ++ back, (heap' c).map next = (heap c).map next) :
    Linked next heap' p (front ++ b :: back) := by
  induction front generalizing p with
  | nil =>
      cases h with
      | cons _ hRest =>
          have hBack : Linked next heap (next cell) back := @tail _ _ _ _ [] back a cell hRest hCell
          refine .cons hBefore ?_
          rw [hNext]
          exact hBack.congr hSame
  | cons c front ih =>
      cases h with
      | cons hFirst hRest =>
          have hPointer := hSame c List.mem_cons_self
          rw [hFirst, Option.map_some, Option.map_eq_some_iff] at hPointer
          obtain ⟨first, hFirst', hPointer⟩ := hPointer
          refine .cons hFirst' ?_
          rw [hPointer]
          exact ih hRest fun d hMem => hSame d (List.mem_cons_of_mem _ hMem)

end Linked

end PageCamel.Lib

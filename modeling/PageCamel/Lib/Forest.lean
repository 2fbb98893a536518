import Mathlib.Logic.Function.Basic
import Mathlib.Logic.Relation
import Mathlib.Order.WellFounded

/-!
Trees kept as a function from nodes to their parents. The root stands above all nodes; what
the function says of the root itself does not matter.
-/

namespace PageCamel.Lib.Forest

universe u
variable {α : Type u} {root : α} {parent : α → α} {a b c : α}

/-- `a` is the parent of `b`. -/
def IsParent (root : α) (parent : α → α) (a b : α) : Prop := b ≠ root ∧ parent b = a

/-- The way up from a node ends at the root. -/
inductive Climbs (root : α) (parent : α → α) : α → Prop
  | root : Climbs root parent root
  | up {a : α} : Climbs root parent (parent a) → Climbs root parent a

def Rooted (root : α) (parent : α → α) : Prop := ∀ a, Climbs root parent a

theorem Climbs.acc (h : Climbs root parent a) : Acc (IsParent root parent) a := by
  induction h with
  | root => exact ⟨_, fun _ hParent => absurd rfl hParent.1⟩
  | up _ ih => exact ⟨_, fun _ hParent => hParent.2 ▸ ih⟩

/-- No node is above itself. -/
theorem Rooted.acyclic (h : Rooted root parent) (a : α) :
    ¬ Relation.TransGen (IsParent root parent) a a := by
  have hWf : WellFounded (IsParent root parent) := ⟨fun a => (h a).acc⟩
  exact hWf.transGen.irrefl.irrefl a

/-! ### The nodes on the way up -/

/-- The nodes from `a` up to the root, without the root. -/
inductive Way (root : α) (parent : α → α) : α → List α → Prop
  | root : Way root parent root []
  | up {a : α} {nodes : List α} : a ≠ root → Way root parent (parent a) nodes →
      Way root parent a (a :: nodes)

theorem Climbs.way (h : Climbs root parent a) : ∃ nodes, Way root parent a nodes := by
  induction h with
  | root => exact ⟨[], .root⟩
  | up _ ih =>
      rename_i a _
      by_cases hRoot : a = root
      · exact ⟨[], hRoot ▸ .root⟩
      · obtain ⟨nodes, hNodes⟩ := ih
        exact ⟨a :: nodes, .up hRoot hNodes⟩

theorem Way.mem_iff {nodes : List α} (h : Way root parent a nodes) :
    b ∈ nodes ↔ b ≠ root ∧ Relation.ReflTransGen (IsParent root parent) b a := by
  induction h with
  | root =>
      refine ⟨nofun, fun ⟨hNe, hAbove⟩ => ?_⟩
      cases hAbove with
      | refl => exact absurd rfl hNe
      | tail _ hParent => exact absurd rfl hParent.1
  | up hRoot _ ih =>
      rename_i a nodes _
      constructor
      · intro hMem
        cases hMem with
        | head => exact ⟨hRoot, .refl⟩
        | tail _ hMem => exact ⟨(ih.mp hMem).1, (ih.mp hMem).2.tail ⟨hRoot, rfl⟩⟩
      · rintro ⟨hNe, hAbove⟩
        cases hAbove with
        | refl => exact List.mem_cons_self ..
        | tail hAbove hParent =>
            obtain ⟨-, rfl⟩ := hParent
            exact List.mem_cons_of_mem _ (ih.mpr ⟨hNe, hAbove⟩)

/-- No node comes up twice. -/
theorem Way.nodup (hRooted : Rooted root parent) {nodes : List α} (h : Way root parent a nodes) :
    nodes.Nodup := by
  induction h with
  | root => exact .nil
  | up hRoot hWay ih =>
      rename_i a nodes
      refine List.nodup_cons.mpr ⟨fun hMem => ?_, ih⟩
      have hAbove := (hWay.mem_iff.mp hMem).2
      exact hRooted.acyclic a (Relation.TransGen.tail' hAbove ⟨hRoot, rfl⟩)

/-! ### New parents -/

/-- What stands above the root does not matter. -/
theorem Rooted.congr (h : Rooted root parent) {parent' : α → α}
    (hSame : ∀ c, c ≠ root → parent' c = parent c) : Rooted root parent' := by
  intro c
  induction h c with
  | root => exact .root
  | up _ ih =>
      rename_i c _
      by_cases hRoot : c = root
      · exact hRoot ▸ .root
      · exact .up (hSame c hRoot ▸ ih)

section
variable [DecidableEq α]

/-- A way that does not meet `a` is as it was when `a` has another parent. -/
theorem Climbs.update (h : Climbs root parent b)
    (hAbove : ¬ Relation.ReflTransGen (IsParent root parent) a b) (new : α) :
    Climbs root (Function.update parent a new) b := by
  induction h with
  | root => exact .root
  | up _ ih =>
      rename_i b _
      by_cases hRoot : b = root
      · exact hRoot ▸ .root
      · have hNe : b ≠ a := fun hEq => hAbove (hEq ▸ .refl)
        have hUp := ih fun hNext => hAbove (hNext.tail ⟨hRoot, rfl⟩)
        refine .up ?_
        rwa [Function.update_of_ne hNe]

theorem above_of_update (hAbove : ¬ Relation.ReflTransGen (IsParent root parent) b c) (new : α)
    (h : Relation.ReflTransGen (IsParent root (Function.update parent b new)) a c) :
    Relation.ReflTransGen (IsParent root parent) a c := by
  induction h with
  | refl => exact .refl
  | tail _ hParent ih =>
      rename_i d c _
      obtain ⟨hRoot, hEq⟩ := hParent
      have hNe : c ≠ b := fun hSame => hAbove (hSame ▸ .refl)
      rw [Function.update_of_ne hNe] at hEq
      have hStep : IsParent root parent d c := ⟨hRoot, hEq⟩
      exact (ih fun hNext => hAbove (hNext.tail hStep)).tail hStep

/-- A node goes below another one that is not below it. -/
theorem Rooted.update (h : Rooted root parent)
    (hAbove : ¬ Relation.ReflTransGen (IsParent root parent) a b) :
    Rooted root (Function.update parent a b) := by
  intro c
  induction h c with
  | root => exact .root
  | up _ ih =>
      rename_i c _
      refine .up ?_
      by_cases hEq : c = a
      · rw [hEq, Function.update_self]
        exact (h b).update hAbove b
      · rwa [Function.update_of_ne hEq]

/-- A node goes directly below the root. -/
theorem Rooted.detach (h : Rooted root parent) (a : α) : Rooted root (Function.update parent a root) := by
  by_cases hRoot : a = root
  · exact h.congr fun c hc => Function.update_of_ne (hRoot ▸ hc) ..
  · refine h.update fun hAbove => ?_
    cases hAbove with
    | refl => exact hRoot rfl
    | tail _ hParent => exact hParent.1 rfl

/-- `b` becomes the parent of `a`. When it is below `a`, it takes the place of `a` first. -/
noncomputable def hang (root : α) (parent : α → α) (a b : α) : α → α :=
  open Classical in
  if Relation.TransGen (IsParent root parent) a b then
    Function.update (Function.update parent b (parent a)) a b
  else Function.update parent a b

theorem Rooted.hang (h : Rooted root parent) (hRoot : a ≠ root) (hNe : a ≠ b) :
    Rooted root (hang root parent a b) := by
  rw [Forest.hang]
  split
  · next hBelow =>
      have hUp : IsParent root parent (parent a) a := ⟨hRoot, rfl⟩
      have hFree : ¬ Relation.ReflTransGen (IsParent root parent) b (parent a) := fun hLoop =>
        h.acyclic a (hBelow.trans (Relation.TransGen.tail' hLoop hUp))
      refine (h.update hFree).update fun hLoop => ?_
      -- the parent of `b` is now the one `a` had, and `a` is not above that one
      cases hLoop with
      | refl => exact hNe rfl
      | tail hLoop hParent =>
          obtain ⟨-, hEq⟩ := hParent
          rw [Function.update_self] at hEq
          subst hEq
          have hOld := above_of_update hFree _ hLoop
          exact h.acyclic a (Relation.TransGen.tail' hOld hUp)
  · next hBelow =>
      refine h.update fun hAbove => ?_
      rcases Relation.reflTransGen_iff_eq_or_transGen.mp hAbove with hEq | hTrans
      · exact hNe hEq.symm
      · exact hBelow hTrans

end

/-- `a` becomes the parent of some of its siblings. -/
theorem Rooted.adopt (h : Rooted root parent) {parent' : α → α} (hOwn : parent' a = parent a)
    (hOthers : ∀ c, parent' c = parent c ∨ parent c = parent a ∧ parent' c = a) :
    Rooted root parent' := by
  intro c
  induction h c with
  | root => exact .root
  | up _ ih =>
      rename_i c _
      rcases hOthers c with hSame | ⟨hSibling, hMoved⟩
      · exact .up (hSame ▸ ih)
      · refine .up (hMoved ▸ .up ?_)
        rwa [hOwn, ← hSibling]

end PageCamel.Lib.Forest

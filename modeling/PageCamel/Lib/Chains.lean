import Mathlib.Data.Set.Finite.Basic
import Mathlib.Order.WellFounded
import Mathlib.Data.Fintype.Order
import Mathlib.Logic.Relation

/-!
Chains of a relation: from a point that reaches only finitely many points, all chains come
to an end exactly when none of them returns to a point it has passed.
-/

namespace PageCamel.Lib
open Relation

universe u
variable {α : Type u} {r : α → α → Prop} {x y : α}

theorem acc_of_reflTransGen (h : Acc (flip r) x) (hReach : ReflTransGen r x y) :
    Acc (flip r) y := by
  induction hReach with
  | refl => exact h
  | tail _ hStep ih => exact ih.inv hStep

theorem not_transGen_self (h : Acc (flip r) x) : ¬ TransGen r x x := by
  induction h with
  | intro x _ ih =>
      intro hCycle
      obtain ⟨y, hStep, hRest⟩ := TransGen.head'_iff.mp hCycle
      exact ih y hStep (TransGen.tail' hRest hStep)

theorem acc_of_no_return (hFinite : {y | ReflTransGen r x y}.Finite)
    (hNone : ∀ y, ReflTransGen r x y → ¬ TransGen r y y) : Acc (flip r) x := by
  have := hFinite.to_subtype
  let below (a b : {y | ReflTransGen r x y}) : Prop := TransGen r b a
  have : IsTrans _ below := ⟨fun _ _ _ hab hbc => TransGen.trans hbc hab⟩
  have : Std.Irrefl below := ⟨fun a => hNone a a.2⟩
  have hWell : WellFounded below := Finite.wellFounded_of_trans_of_irrefl below
  have hAll : ∀ a : {y | ReflTransGen r x y}, Acc (flip r) a.1 := by
    intro a
    induction a using hWell.induction with
    | h a ih =>
        constructor
        intro y hStep
        exact ih ⟨y, a.2.tail hStep⟩ (TransGen.single hStep)
  exact hAll ⟨x, .refl⟩

theorem acc_iff_no_return (hFinite : {y | ReflTransGen r x y}.Finite) :
    Acc (flip r) x ↔ ∀ y, ReflTransGen r x y → ¬ TransGen r y y :=
  ⟨fun h _ hReach => not_transGen_self (acc_of_reflTransGen h hReach),
    acc_of_no_return hFinite⟩

end PageCamel.Lib

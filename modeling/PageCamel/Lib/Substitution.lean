import Mathlib.Data.List.Induction
import Mathlib.Data.List.Nodup
import Mathlib.Data.List.Perm.Subperm
import Mathlib.Tactic.Common

/-!
Names in a text that are replaced by their values, all at once or one after the other. A text in
which the places of the names are marked says which places are meant; what a step finds in the
text is given by a function.
-/

namespace PageCamel.Lib.Substitution

variable {ν α : Type*} [DecidableEq ν]

abbrev Marked (ν α : Type*) := List (ν ⊕ α)

structure Names (ν α : Type*) where
  spell : ν → List α
  value : ν → List α
  /-- The parts of a text between the places where a name is found, if it can be looked for. -/
  between : ν → List α → Option (List (List α))

variable (names : Names ν α)

namespace Names

/-- The text with these names replaced by their values. -/
def shown (done : List ν) (marked : Marked ν α) : List α :=
  marked.flatMap fun
    | .inl n => if n ∈ done then names.value n else names.spell n
    | .inr a => [a]

def substitute (n : ν) (text : List α) : Option (List α) :=
  (names.between n text).map (List.intercalate (names.value n))

/-- One after the other. -/
def substituteAll : List ν → List α → Option (List α)
  | [], text => some text
  | n :: order, text => (names.substitute n text).bind (substituteAll order)

def isMark (n : ν) : ν ⊕ α → Bool
  | .inl m => m = n
  | .inr _ => false

/-- The name is found at its marks and nowhere else. -/
def Own (marked : Marked ν α) (done : List ν) (n : ν) : Prop :=
  names.between n (names.shown done marked) =
    some ((marked.splitOnP (isMark n)).map (names.shown done))

/-- Whichever of the other names have been replaced, a name is found at its marks and nowhere
else. -/
def Clear (all : List ν) (marked : Marked ν α) : Prop :=
  ∀ done n, (n :: done).Nodup → n :: done ⊆ all → names.Own marked done n

/-- In this order a name is looked for where it is found elsewhere than at its marks. -/
def Strays (marked : Marked ν α) (order : List ν) : Prop :=
  ∃ done n rest, order = done ++ n :: rest ∧
    (names.substituteAll done (names.shown [] marked)).bind (names.between n) ≠
      some ((marked.splitOnP (isMark n)).map (names.shown done))

end Names

variable {names} {marked : Marked ν α} {done all : List ν} {n : ν}

open Names

/-- The text depends on which names are replaced, not on their order. -/
theorem shown_congr {done' : List ν} (hSame : ∀ n, n ∈ done ↔ n ∈ done') :
    names.shown done marked = names.shown done' marked := by
  refine congrArg (List.flatMap · marked) (funext fun place => ?_)
  cases place with
  | inl n => simp only [hSame]
  | inr a => rfl

theorem shown_skip (hNone : ∀ place ∈ marked, isMark n place = false) :
    names.shown (n :: done) marked = names.shown done marked := by
  refine List.flatMap_congr fun place hPlace => ?_
  cases place with
  | inl m =>
    have hOther : m ≠ n := of_decide_eq_false (hNone _ hPlace)
    simp only [List.mem_cons, hOther, false_or]
  | inr a => rfl

theorem shown_cons (place : ν ⊕ α) (marked : Marked ν α) :
    names.shown done (place :: marked) = names.shown done [place] ++ names.shown done marked := by
  rw [shown, List.flatMap_cons, shown, List.flatMap_singleton, shown]

/-- Replacing one name more is replacing it at its marks. -/
theorem shown_mark (marked : Marked ν α) :
    names.shown (n :: done) marked =
      List.intercalate (names.value n) ((marked.splitOnP (isMark n)).map (names.shown done)) := by
  induction marked with
  | nil => rfl
  | cons place marked ih =>
    obtain ⟨part, parts, hSplit⟩ := List.exists_cons_of_ne_nil
      (List.splitOnP_ne_nil (isMark n) marked)
    rw [shown_cons, ih, List.splitOnP_cons_eq_if_modifyHead, hSplit]
    by_cases hMark : isMark n place = true
    · rw [if_pos hMark, List.map_cons, List.map_cons, List.map_cons, List.intercalate_cons_cons]
      cases place with
      | inl m =>
        cases of_decide_eq_true hMark
        simp [shown]
      | inr a => cases hMark
    · have hOther : names.shown (n :: done) [place] = names.shown done [place] :=
        shown_skip fun other hOther => by
          rw [List.mem_singleton.mp hOther, eq_false_of_ne_true hMark]
      rw [if_neg hMark, hOther, List.modifyHead_cons, List.map_cons, List.map_cons,
        shown_cons place part]
      cases parts with
      | nil => simp
      | cons next parts => simp [List.intercalate_cons_cons]

theorem substitute_own (hOwn : names.Own marked done n) :
    names.substitute n (names.shown done marked) = some (names.shown (n :: done) marked) := by
  rw [substitute, hOwn, Option.map_some, shown_mark]

omit [DecidableEq ν] in
theorem substituteAll_append (front back : List ν) (text : List α) :
    names.substituteAll (front ++ back) text =
      (names.substituteAll front text).bind (names.substituteAll back) := by
  induction front generalizing text with
  | nil => rfl
  | cons n front ih =>
    rw [List.cons_append, substituteAll, substituteAll]
    cases names.substitute n text with
    | none => rfl
    | some next => exact ih next

/-- Whatever has been replaced before, the names of a list are replaced at their marks. -/
theorem substituteAll_shown (hClear : names.Clear all marked) {order : List ν}
    (hNodup : (order.reverse ++ done).Nodup) (hAll : order.reverse ++ done ⊆ all) :
    names.substituteAll order (names.shown done marked) =
      some (names.shown (order.reverse ++ done) marked) := by
  induction order generalizing done with
  | nil => rfl
  | cons n order ih =>
    have hSplit : (n :: order).reverse ++ done = order.reverse ++ n :: done := by
      rw [List.reverse_cons, List.append_assoc, List.singleton_append]
    rw [hSplit] at hNodup hAll ⊢
    have hTail := List.Nodup.of_append_right hNodup
    have hOwn := hClear done n hTail (List.Subset.trans (List.subset_append_right _ _) hAll)
    rw [substituteAll, substitute_own hOwn, Option.bind_some, ih hNodup hAll]

theorem substituteAll_of_clear (hClear : names.Clear all marked) {order : List ν}
    (hNodup : order.Nodup) (hAll : order ⊆ all) :
    names.substituteAll order (names.shown [] marked) = some (names.shown order marked) := by
  rw [substituteAll_shown hClear]
  · refine congrArg some (shown_congr fun n => ?_)
    rw [List.append_nil, List.mem_reverse]
  · rw [List.append_nil]
    exact List.nodup_reverse.mpr hNodup
  · intro n hMem
    rw [List.append_nil, List.mem_reverse] at hMem
    exact hAll hMem

/-- Every replacement before this one was at the marks. -/
theorem substituteAll_of_not_strays {order : List ν}
    (hNever : ¬ names.Strays marked order) {front back : List ν} (hOrder : order = front ++ back) :
    names.substituteAll front (names.shown [] marked) = some (names.shown front marked) := by
  induction front using List.reverseRecOn generalizing back with
  | nil => rfl
  | append_singleton front n ih =>
    rw [List.append_assoc, List.singleton_append] at hOrder
    have hFront := ih hOrder
    have hOwn : names.Own marked front n := by
      by_contra hElse
      refine hNever ⟨front, n, back, hOrder, ?_⟩
      rwa [hFront, Option.bind_some]
    have hSame : names.shown (n :: front) marked = names.shown (front ++ [n]) marked :=
      shown_congr fun m => by rw [List.mem_cons, List.mem_append, List.mem_singleton, or_comm]
    rw [substituteAll_append, hFront, Option.bind_some, substituteAll,
      substitute_own hOwn, Option.bind_some, substituteAll, hSame]

theorem exists_order (hNodup : done.Nodup) (hAll : done ⊆ all) :
    ∃ rest, (done ++ rest).Perm all :=
  ⟨all.diff done, List.subperm_append_diff_self_of_count_le fun m hMem =>
    List.subperm_ext_iff.mp (List.subperm_of_subset hNodup hAll) m hMem⟩

/-- The condition is that in no order a name is looked for where it is found elsewhere. -/
theorem clear_iff (hNodup : all.Nodup) :
    names.Clear all marked ↔ ∀ order, order.Perm all → ¬ names.Strays marked order := by
  constructor
  · rintro hClear order hPerm ⟨done, n, rest, rfl, hElse⟩
    have hOrder := hPerm.nodup_iff.mpr hNodup
    have hFront := List.Nodup.of_append_left hOrder
    have hSubset : done ⊆ all := fun m hMem => hPerm.mem_iff.mp (List.mem_append_left _ hMem)
    have hNew : n ∉ done := fun hMem => List.disjoint_of_nodup_append hOrder hMem List.mem_cons_self
    have hMem : n ∈ all := hPerm.mem_iff.mp (List.mem_append_right _ List.mem_cons_self)
    rw [substituteAll_of_clear hClear hFront hSubset, Option.bind_some] at hElse
    exact hElse (hClear done n (List.nodup_cons.mpr ⟨hNew, hFront⟩)
      (List.cons_subset.mpr ⟨hMem, hSubset⟩))
  · intro hNever done n hTail hSubset
    have hLast : (done ++ [n]).Perm (n :: done) := List.perm_append_singleton n done
    obtain ⟨rest, hPerm⟩ := exists_order (hLast.nodup_iff.mpr hTail)
      (List.Subset.trans hLast.subset hSubset)
    have hSplit : (done ++ [n]) ++ rest = done ++ n :: rest := by
      rw [List.append_assoc, List.singleton_append]
    rw [hSplit] at hPerm
    have hOrder := hNever _ hPerm
    by_contra hElse
    refine hOrder ⟨done, n, rest, rfl, ?_⟩
    rwa [substituteAll_of_not_strays hOrder rfl, Option.bind_some]

end PageCamel.Lib.Substitution

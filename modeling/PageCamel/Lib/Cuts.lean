import Mathlib.Data.List.Infix
import Mathlib.Data.List.Basic
import Mathlib.Tactic.Common

/-!
Text cut wherever a matcher finds something. A matcher gives the length of the match that a text
begins with; matches are taken from the left and do not overlap.
-/

namespace PageCamel.Lib.Cuts

variable {α : Type*} {len : List α → Option Nat} {sep front text : List α}

/-- The pieces between the matches, behind the first `skip` elements. Empty matches do not
count. -/
def cut (len : List α → Option Nat) : Nat → List α → List (List α)
  | _, [] => [[]]
  | skip + 1, _ :: text => cut len skip text
  | 0, a :: text =>
      match len (a :: text) with
      | some (n + 1) => [] :: cut len n text
      | _ => (cut len 0 text).modifyHead (a :: ·)

theorem cut_cons (len : List α → Option Nat) (a : α) (text : List α) :
    cut len 0 (a :: text) = match len (a :: text) with
      | some (n + 1) => [] :: cut len n text
      | _ => (cut len 0 text).modifyHead (a :: ·) := rfl

theorem cut_skip (sep text : List α) : cut len sep.length (sep ++ text) = cut len 0 text := by
  induction sep with
  | nil => rfl
  | cons a sep ih => exact ih

theorem cut_match (hSep : sep ≠ []) (hMatch : len (sep ++ text) = some sep.length) :
    cut len 0 (sep ++ text) = [] :: cut len 0 text := by
  obtain ⟨a, rest, rfl⟩ := List.exists_cons_of_ne_nil hSep
  rw [List.cons_append, List.length_cons] at hMatch
  rw [List.cons_append, cut_cons, hMatch]
  show [] :: cut len rest.length (rest ++ text) = _
  rw [cut_skip]

/-- No match begins in this part of a text. -/
def Silent (len : List α → Option Nat) (front text : List α) : Prop :=
  ∀ back, back ≠ [] → back <:+ front → len (back ++ text) = none

theorem cut_silent (hSilent : Silent len front text) :
    cut len 0 (front ++ text) = (cut len 0 text).modifyHead (front ++ ·) := by
  induction front with
  | nil =>
    rw [List.nil_append]
    cases cut len 0 text with
    | nil => rfl
    | cons piece pieces => rfl
  | cons a front ih =>
    have hNone := hSilent (a :: front) (List.cons_ne_nil a front) (List.suffix_refl _)
    have hRest : Silent len front text := fun back hSome hSuffix =>
      hSilent back hSome (hSuffix.trans (List.suffix_cons a front))
    rw [List.cons_append] at hNone
    rw [List.cons_append, cut_cons, hNone, ih hRest]
    cases cut len 0 text with
    | nil => rfl
    | cons piece pieces => rfl

theorem exists_cut_silent (hSilent : Silent len front text) :
    ∃ piece pieces, cut len 0 (front ++ text) = (front ++ piece) :: pieces := by
  have hSome : ∀ n text, cut len n text ≠ [] := by
    intro n text
    induction text generalizing n with
    | nil => cases n <;> exact List.cons_ne_nil _ _
    | cons a text ih =>
      cases n with
      | succ n => exact ih n
      | zero =>
        rw [cut_cons]
        split
        · exact List.cons_ne_nil _ _
        · rw [Ne, List.modifyHead_eq_nil_iff]
          exact ih 0
  obtain ⟨piece, pieces, hPieces⟩ := List.exists_cons_of_ne_nil (hSome 0 text)
  exact ⟨piece, pieces, by rw [cut_silent hSilent, hPieces, List.modifyHead_cons]⟩

/-! ### A separator in front of each piece -/

def join (sep : List α) (pieces : List (List α)) : List α := pieces.flatMap (sep ++ ·)

/-- The matches are the separators and nothing else. -/
def Exact (len : List α → Option Nat) (sep : List α) : List (List α) → Prop
  | [] => True
  | piece :: pieces =>
      len (sep ++ (piece ++ join sep pieces)) = some sep.length ∧
        Silent len piece (join sep pieces) ∧ Exact len sep pieces

theorem cut_join {pieces : List (List α)} (hSep : sep ≠ []) (hExact : Exact len sep pieces) :
    cut len 0 (join sep pieces) = [] :: pieces := by
  induction pieces with
  | nil => rfl
  | cons piece pieces ih =>
    obtain ⟨hMatch, hSilent, hRest⟩ := hExact
    have hJoin : join sep (piece :: pieces) = sep ++ (piece ++ join sep pieces) := by
      rw [join, List.flatMap_cons, List.append_assoc, ← join]
    rw [hJoin, cut_match hSep hMatch, cut_silent hSilent, ih hRest, List.modifyHead_cons,
      List.append_nil]

/-! ### Literal separators -/

section Literal
variable [DecidableEq α]

def literal (sep text : List α) : Option Nat := if sep <+: text then some sep.length else none

omit [DecidableEq α] in
/-- What the separator lacks divides its occurrences. -/
theorem infix_append_cons {a : α} (hLacks : a ∉ sep) {back : List α}
    (hInfix : sep <:+: front ++ a :: back) : sep <:+: front ∨ sep <:+: back := by
  obtain ⟨before, after, hText⟩ := hInfix
  rcases List.append_eq_append_iff.mp hText with ⟨rest, hFront, -⟩ | ⟨rest, hOver, hRest⟩
  · exact .inl ⟨before, rest, hFront.symm⟩
  · cases rest with
    | nil => exact .inl ⟨before, [], by rw [hOver, List.append_nil, List.append_nil]⟩
    | cons b rest =>
      obtain ⟨rfl, rfl⟩ := List.cons.inj hRest
      rcases List.append_eq_append_iff.mp hOver with ⟨part, -, hSep⟩ | ⟨part, -, hSep⟩
      · exact absurd (hSep ▸ List.mem_append_right part List.mem_cons_self) hLacks
      · cases part with
        | nil =>
          rw [List.nil_append] at hSep
          exact absurd (hSep ▸ List.mem_cons_self) hLacks
        | cons c part =>
          obtain ⟨-, rfl⟩ := List.cons.inj hSep
          exact .inr ⟨part, after, rfl⟩

theorem literal_append (sep text : List α) : literal sep (sep ++ text) = some sep.length :=
  if_pos (List.prefix_append sep text)

/-- An element that the separator lacks, at the end, keeps matches from reaching over it. -/
theorem silent_literal {last : α} (hLast : last ∉ sep) (hFree : ¬ sep <:+: front ++ [last])
    (text : List α) : Silent (literal sep) (front ++ [last]) text := by
  intro back hSome hSuffix
  refine if_neg fun hPrefix => ?_
  rcases List.prefix_or_prefix_of_prefix hPrefix (List.prefix_append back text) with hInside | hOver
  · exact hFree (hInside.isInfix.trans hSuffix.isInfix)
  · obtain ⟨before, hBefore⟩ := hSuffix
    have hMem : last ∈ back := by
      have hEnd := congrArg List.getLast? hBefore
      rw [List.getLast?_append_of_ne_nil _ hSome, List.getLast?_concat] at hEnd
      exact List.mem_of_getLast? hEnd
    exact hLast (hOver.subset hMem)

theorem exact_literal {last : α} (hLast : last ∉ sep) {pieces : List (List α)}
    (hPieces : ∀ piece ∈ pieces, (∃ front, piece = front ++ [last]) ∧ ¬ sep <:+: piece) :
    Exact (literal sep) sep pieces := by
  induction pieces with
  | nil => trivial
  | cons piece pieces ih =>
    rw [List.forall_mem_cons] at hPieces
    obtain ⟨⟨⟨front, rfl⟩, hFree⟩, hRest⟩ := hPieces
    exact ⟨literal_append _ _, silent_literal hLast hFree _, ih hRest⟩

omit [DecidableEq α] in
theorem head_cut_prefix {piece : List α} {pieces : List (List α)}
    (hCut : cut len 0 text = piece :: pieces) : piece <+: text := by
  induction text generalizing piece pieces with
  | nil =>
    cases hCut
    exact List.prefix_refl _
  | cons a text ih =>
    rw [cut_cons] at hCut
    split at hCut
    · cases hCut
      exact List.nil_prefix
    · cases hRest : cut len 0 text with
      | nil =>
        rw [hRest] at hCut
        cases hCut
      | cons first rest =>
        rw [hRest, List.modifyHead_cons] at hCut
        cases hCut
        exact List.cons_prefix_cons.mpr ⟨rfl, ih hRest⟩

/-- The pieces lack the separator. -/
theorem not_infix_of_mem_cut (hSep : sep ≠ []) {n : Nat} {piece : List α}
    (hPiece : piece ∈ cut (literal sep) n text) : ¬ sep <:+: piece := by
  induction text generalizing n piece with
  | nil =>
    have hNil : piece = [] := by
      cases n with
      | zero => exact List.mem_singleton.mp hPiece
      | succ n => exact List.mem_singleton.mp hPiece
    rw [hNil, List.infix_nil]
    exact hSep
  | cons a text ih =>
    cases n with
    | succ n => exact ih hPiece
    | zero =>
      rw [cut_cons] at hPiece
      split at hPiece
      · rcases List.mem_cons.mp hPiece with rfl | hRest
        · rw [List.infix_nil]
          exact hSep
        · exact ih hRest
      · next hNone =>
        cases hRest : cut (literal sep) 0 text with
        | nil =>
          rw [hRest] at hPiece
          cases hPiece
        | cons first rest =>
          rw [hRest, List.modifyHead_cons] at hPiece
          rcases List.mem_cons.mp hPiece with rfl | hLater
          · rw [List.infix_cons_iff]
            rintro (hPrefix | hInside)
            · have hText : sep <+: a :: text :=
                hPrefix.trans (List.cons_prefix_cons.mpr ⟨rfl, head_cut_prefix hRest⟩)
              obtain ⟨m, hLength⟩ := Nat.exists_eq_succ_of_ne_zero
                (List.length_pos_iff.mpr hSep).ne'
              exact hNone m (by rw [literal, if_pos hText, hLength])
            · exact ih (hRest ▸ List.mem_cons_self) hInside
          · exact ih (hRest ▸ List.mem_cons_of_mem _ hLater)

end Literal

end PageCamel.Lib.Cuts

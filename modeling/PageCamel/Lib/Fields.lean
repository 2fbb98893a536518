import Mathlib.Data.List.DropRight
import Mathlib.Tactic.Common

/-!
Text cut at a separator, the way `split` does without a limit: empty fields at the end are not
counted.
-/

namespace PageCamel.Lib.Fields

variable {α : Type*} [DecidableEq α] {sep : α}

def fields (sep : α) (text : List α) : List (List α) := (text.splitOn sep).rdropWhile List.isEmpty

/-- What stands in column `i`, the empty text where the line is too short. -/
def column (row : List (List α)) (i : Nat) : List α := row[i]?.getD []

omit [DecidableEq α] in
theorem length_le_of_column {line : List (List α)} {i : Nat} (hColumn : column line i ≠ []) :
    i < line.length := by
  by_contra hLong
  rw [column, List.getElem?_eq_none (Nat.le_of_not_lt hLong)] at hColumn
  exact hColumn rfl

theorem fields_intercalate {line : List (List α)} (hFree : ∀ field ∈ line, sep ∉ field) :
    fields sep (List.intercalate [sep] line) = line.rdropWhile List.isEmpty := by
  cases line with
  | nil => rfl
  | cons field line =>
    rw [fields, List.splitOn_intercalate sep hFree (List.cons_ne_nil field line)]

omit [DecidableEq α] in
/-- Only empty columns are left out. -/
theorem column_rdropWhile (line : List (List α)) (i : Nat) :
    column (line.rdropWhile List.isEmpty) i = column line i := by
  induction line using List.reverseRecOn with
  | nil => rfl
  | append_singleton line field ih =>
    rw [List.rdropWhile_concat]
    cases field with
    | cons a field => rfl
    | nil =>
      rw [List.isEmpty_nil, if_pos rfl, ih, column, column]
      rcases lt_trichotomy i line.length with hLess | rfl | hMore
      · rw [List.getElem?_append_left hLess]
      · rw [List.getElem?_concat_length, List.getElem?_eq_none (Nat.le_refl _)]
        rfl
      · rw [List.getElem?_eq_none (Nat.le_of_lt hMore), List.getElem?_eq_none (by simp; omega)]

omit [DecidableEq α] in
/-- A column is left out when it and all after it are empty. -/
theorem lt_length_rdropWhile_iff {line : List (List α)} {i : Nat} :
    i < (line.rdropWhile List.isEmpty).length ↔ ∃ j, i ≤ j ∧ column line j ≠ [] := by
  constructor
  · intro hLess
    refine ⟨(line.rdropWhile List.isEmpty).length - 1, by omega, ?_⟩
    have hSome : line.rdropWhile List.isEmpty ≠ [] := List.ne_nil_of_length_pos (by omega)
    have hLast := List.rdropWhile_last_not List.isEmpty line hSome
    rw [← column_rdropWhile, column, ← List.getLast?_eq_getElem?, List.getLast?_eq_getLast_of_ne_nil hSome]
    simpa using hLast
  · rintro ⟨j, hFrom, hColumn⟩
    rw [← column_rdropWhile] at hColumn
    exact Nat.lt_of_le_of_lt hFrom (length_le_of_column hColumn)

omit [DecidableEq α] in
theorem eq_false_of_mem_splitOnP {p : α → Bool} {text field : List α}
    (hField : field ∈ text.splitOnP p) : ∀ a ∈ field, p a = false := by
  induction text generalizing field with
  | nil =>
    cases List.mem_singleton.mp hField
    simp
  | cons a text ih =>
    rw [List.splitOnP_cons_eq_if_modifyHead] at hField
    split at hField
    · rcases List.mem_cons.mp hField with rfl | hRest
      · simp
      · exact ih hRest
    · next hOther =>
      obtain ⟨first, rest, hSplit⟩ := List.exists_cons_of_ne_nil (List.splitOnP_ne_nil p text)
      rw [hSplit, List.modifyHead_cons] at hField
      rcases List.mem_cons.mp hField with rfl | hRest
      · rw [List.forall_mem_cons]
        exact ⟨eq_false_of_ne_true hOther, ih (hSplit ▸ List.mem_cons_self)⟩
      · exact ih (hSplit ▸ List.mem_cons_of_mem _ hRest)

theorem not_mem_of_mem_splitOn {text field : List α} (hField : field ∈ text.splitOn sep) :
    sep ∉ field := by
  intro hSep
  rw [List.splitOn_eq_splitOnP] at hField
  have hOther := eq_false_of_mem_splitOnP hField sep hSep
  simp at hOther

theorem not_mem_of_mem_fields {text field : List α} (hField : field ∈ fields sep text) :
    sep ∉ field :=
  not_mem_of_mem_splitOn ((List.rdropWhile_prefix _ _).subset hField)

omit [DecidableEq α] in
theorem intercalate_concat {line : List (List α)} (hSome : line ≠ []) (field : List α) :
    List.intercalate [sep] (line ++ [field]) = List.intercalate [sep] line ++ sep :: field := by
  induction line with
  | nil => exact absurd rfl hSome
  | cons first line ih =>
    cases line with
    | nil => simp
    | cons second line =>
      have hRest := ih (List.cons_ne_nil second line)
      rw [List.cons_append, List.cons_append, List.intercalate_cons_cons, ← List.cons_append, hRest,
        List.intercalate_cons_cons, List.append_assoc _ _ (sep :: field)]

theorem intercalate_rdropWhile {line : List (List α)} (hFree : ∀ field ∈ line, sep ∉ field) :
    List.intercalate [sep] (line.rdropWhile List.isEmpty) =
      (List.intercalate [sep] line).rdropWhile (· == sep) := by
  induction line using List.reverseRecOn with
  | nil => rfl
  | append_singleton line field ih =>
    have hRest := ih fun other hOther => hFree other (List.mem_append_left _ hOther)
    have hField : sep ∉ field := hFree field (List.mem_append_right _ List.mem_cons_self)
    rcases List.eq_nil_or_concat field with rfl | ⟨front, a, rfl⟩
    · rw [List.rdropWhile_concat_pos _ _ _ List.isEmpty_nil, hRest]
      by_cases hSome : line = []
      · rw [hSome]
        rfl
      · rw [intercalate_concat hSome, List.rdropWhile_concat_pos (· == sep) _ sep BEq.rfl]
    · have hLast : ¬ (a == sep) = true := fun hSep => hField (by simp [beq_iff_eq.mp hSep])
      rw [List.rdropWhile_concat_neg _ _ _ (by simp)]
      by_cases hSome : line = []
      · rw [hSome, List.nil_append, List.intercalate_singleton, List.concat_eq_append,
          List.rdropWhile_concat_neg (· == sep) _ a hLast]
      · rw [intercalate_concat hSome, List.concat_eq_append, ← List.cons_append, ← List.append_assoc,
          List.rdropWhile_concat_neg (· == sep) _ a hLast]

/-- Joining the fields again gives the text without the separators at its end. -/
theorem intercalate_fields (text : List α) :
    List.intercalate [sep] (fields sep text) = text.rdropWhile (· == sep) := by
  rw [fields, intercalate_rdropWhile fun field hField => not_mem_of_mem_splitOn hField,
    List.intercalate_splitOn]

/-! ### Lines that end with the separator -/

omit [DecidableEq α] in
theorem flatMap_append_sep (lines : List (List α)) :
    lines.flatMap (· ++ [sep]) = List.intercalate [sep] (lines ++ [[]]) := by
  induction lines with
  | nil => rfl
  | cons line lines ih =>
    rw [List.flatMap_cons, ih, List.cons_append]
    cases lines with
    | nil => simp
    | cons next lines => rw [List.cons_append, List.intercalate_cons_cons]

theorem fields_flatMap {lines : List (List α)} (hFree : ∀ line ∈ lines, sep ∉ line)
    (hLast : lines.rdropWhile List.isEmpty = lines) :
    fields sep (lines.flatMap (· ++ [sep])) = lines := by
  rw [flatMap_append_sep, fields_intercalate]
  · rw [List.rdropWhile_concat_pos _ _ _ List.isEmpty_nil, hLast]
  · intro line hLine
    rcases List.mem_append.mp hLine with hLine | hEmpty
    · exact hFree line hLine
    · rw [List.mem_singleton.mp hEmpty]
      exact List.not_mem_nil

theorem rdropWhile_fields (text : List α) :
    (fields sep text).rdropWhile List.isEmpty = fields sep text :=
  List.rdropWhile_idempotent _ _

variable (sep) in
/-- The fields as lines give the text back, up to the separators at its end. -/
theorem exists_flatMap_fields (text : List α) :
    ∃ n, (fields sep text).flatMap (· ++ [sep]) =
      text.rdropWhile (· == sep) ++ List.replicate n sep := by
  rw [flatMap_append_sep, ← intercalate_fields text]
  by_cases hNone : fields sep text = []
  · rw [hNone]
    exact ⟨0, rfl⟩
  · exact ⟨1, intercalate_concat hNone []⟩

end PageCamel.Lib.Fields

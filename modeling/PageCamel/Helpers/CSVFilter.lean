import PageCamel.Lib.Fields
import Mathlib.Data.List.Perm.Subperm
import Mathlib.Logic.Function.Basic

/-!
The filter that takes the unused columns out of a CSV file (`Helpers/CSVFilter.pm`). Both its
rounds stop one column early: the last header is not written, and the last value of a row does
not count.
-/

namespace PageCamel.Helpers.CSVFilter

open Lib.Fields

abbrev Text := List Char

/-- First round, one line: `$i < $#parts` passes the last value by. -/
def countLine (headcount : Nat → Nat) (line : Text) : Nat → Nat :=
  (List.range ((fields ';' line).length - 1)).foldl (fun headcount i =>
    if 0 < (column (fields ';' line) i).length then
      Function.update headcount i (headcount i + 1)
    else headcount) headcount

def headerCell (value : Text) : Text := ['=', '"'] ++ value ++ ['"', ';']

/-- All columns but the second, a date, are quoted as strings. -/
def cell (i : Nat) (value : Text) : Text :=
  if i = 1 then ['"'] ++ value ++ ['"', ';'] else ['=', '"'] ++ value ++ ['"', ';']

/-- The loop over the headers that both kinds of lines are written with. -/
def outline (headers : List Text) (headcount : Nat → Nat) (write : Nat → Text) : Text :=
  (List.range (headers.length - 1)).foldl (fun outline i =>
    if 0 < headcount i then outline ++ write i else outline) []

structure Output where
  linecount : Nat
  /-- The lines of the destination, which is opened at the first row. -/
  file : Option (List Text)

def writeLine (headers : List Text) (headcount : Nat → Nat) (out : Output) (line : Text) : Output :=
  let file :=
    if out.linecount = 0 then [outline headers headcount fun i => headerCell (column headers i)]
    else out.file.getD []
  { linecount := out.linecount + 1
    file := some (file ++
      [outline headers headcount fun i => cell i (column (fields ';' line) i)]) }

/-- `lines` is what `slurpTextFile` makes of the source; the result, the lines of the
destination, is `none` where no file is opened. -/
def filter (lines : List Text) : Option (List Text) :=
  let headers := fields ';' (lines.headD [])
  let headcount := lines.tail.foldl countLine fun _ => 0
  (lines.tail.foldl (writeLine headers headcount) { linecount := 0, file := none }).file

/-! ### Tables -/

/-- Headers and rows that such a file can hold. -/
structure Table where
  headers : List Text
  rows : List (List Text)
  plain : ∀ line ∈ headers :: rows, ∀ field ∈ line, ';' ∉ field ∧ '\n' ∉ field ∧ '\r' ∉ field

namespace Table

def lines (t : Table) : List Text := (t.headers :: t.rows).map (List.intercalate [';'])

/-- Some row has a value in the column. -/
def Used (t : Table) (i : Nat) : Prop := ∃ row ∈ t.rows, column row i ≠ []

def headerOf (t : Table) (kept : List Nat) : Text :=
  kept.flatMap fun i => headerCell (column t.headers i)

def rowOf (kept : List Nat) (row : List Text) : Text := kept.flatMap fun i => cell i (column row i)

/-- The output has the columns `kept`, in their order, and no used one is missing. -/
structure Keeps (t : Table) (kept : List Nat) (out : Option (List Text)) : Prop where
  ordered : kept.Pairwise (· < ·)
  used : ∀ i, t.Used i → i ∈ kept
  written : t.rows ≠ [] → out = some (t.headerOf kept :: t.rows.map (rowOf kept))

/-- A header stands further right, and one of the column's values has another one behind it. -/
structure Counted (t : Table) (i : Nat) : Prop where
  header : ∃ j, i < j ∧ column t.headers j ≠ []
  value : ∃ row ∈ t.rows, column row i ≠ [] ∧ ∃ j, i < j ∧ column row j ≠ []

end Table

/-! ### Counting -/

theorem countFields_pos (value : Nat → Text) (headcount : Nat → Nat) (n i : Nat) :
    0 < (List.range n).foldl (fun headcount i =>
        if 0 < (value i).length then Function.update headcount i (headcount i + 1)
        else headcount) headcount i ↔
      0 < headcount i ∨ i < n ∧ value i ≠ [] := by
  induction n with
  | zero => simp
  | succ n ih =>
    rw [List.range_succ, List.foldl_append, List.foldl_cons, List.foldl_nil]
    by_cases hValue : 0 < (value n).length
    · rw [if_pos hValue]
      by_cases hOwn : i = n
      · subst hOwn
        rw [Function.update_self]
        have hSome : value i ≠ [] := List.ne_nil_of_length_pos hValue
        simp [hSome]
      · rw [Function.update_of_ne hOwn, ih]
        have hRange : i < n + 1 ↔ i < n := by omega
        rw [hRange]
    · rw [if_neg hValue, ih]
      have hEmpty : value n = [] := List.length_eq_zero_iff.mp (by omega)
      by_cases hOwn : i = n
      · subst hOwn
        simp [hEmpty]
      · have hRange : i < n + 1 ↔ i < n := by omega
        rw [hRange]

theorem countLine_pos (headcount : Nat → Nat) (line : Text) (i : Nat) :
    0 < countLine headcount line i ↔ 0 < headcount i ∨
      i + 1 < (fields ';' line).length ∧ column (fields ';' line) i ≠ [] := by
  rw [countLine, countFields_pos, Nat.lt_sub_iff_add_lt]

theorem headcount_pos (headcount : Nat → Nat) (lines : List Text) (i : Nat) :
    0 < lines.foldl countLine headcount i ↔ 0 < headcount i ∨ ∃ line ∈ lines,
      i + 1 < (fields ';' line).length ∧ column (fields ';' line) i ≠ [] := by
  induction lines generalizing headcount with
  | nil => simp
  | cons line lines ih => rw [List.foldl_cons, ih, countLine_pos, List.exists_mem_cons_iff, or_assoc]

/-! ### Writing -/

theorem outline_eq (headers : List Text) (headcount : Nat → Nat) (write : Nat → Text) :
    outline headers headcount write =
      ((List.range (headers.length - 1)).filter (0 < headcount ·)).flatMap write := by
  rw [outline]
  induction headers.length - 1 with
  | zero => rfl
  | succ n ih =>
    rw [List.range_succ, List.foldl_append, List.foldl_cons, List.foldl_nil, ih, List.filter_append,
      List.flatMap_append]
    by_cases hCounted : 0 < headcount n
    · simp [hCounted]
    · simp [hCounted]

theorem writeLines_file (headers : List Text) (headcount : Nat → Nat) (lines file : List Text)
    (linecount : Nat) :
    (lines.foldl (writeLine headers headcount) ⟨linecount + 1, some file⟩).file =
      some (file ++ lines.map fun line =>
        outline headers headcount fun i => cell i (column (fields ';' line) i)) := by
  induction lines generalizing file linecount with
  | nil => rw [List.foldl_nil, List.map_nil, List.append_nil]
  | cons line lines ih =>
    rw [List.foldl_cons, writeLine, if_neg (Nat.succ_ne_zero linecount), ih, List.map_cons]
    simp

/-- The first row opens the file, and the header goes before it. -/
theorem writeLines_open (headers : List Text) (headcount : Nat → Nat) {lines : List Text}
    (hLines : lines ≠ []) :
    (lines.foldl (writeLine headers headcount) ⟨0, none⟩).file =
      some ((outline headers headcount fun i => headerCell (column headers i)) ::
        lines.map fun line => outline headers headcount fun i => cell i (column (fields ';' line) i)) := by
  cases lines with
  | nil => exact absurd rfl hLines
  | cons line lines =>
    rw [List.foldl_cons, writeLine, if_pos rfl, writeLines_file]
    rfl

namespace Table

variable {t : Table} {kept : List Nat} {i : Nat}

theorem fields_join {row : List Text} (hRow : row ∈ t.headers :: t.rows) :
    fields ';' (List.intercalate [';'] row) = row.rdropWhile List.isEmpty :=
  fields_intercalate fun field hField => (t.plain row hRow field hField).1

/-- The columns that `filter` writes. -/
def written (t : Table) : List Nat :=
  (List.range ((t.headers.rdropWhile List.isEmpty).length - 1)).filter
    (0 < (t.rows.map (List.intercalate [';'])).foldl countLine (fun _ => 0) ·)

theorem mem_written : i ∈ t.written ↔ t.Counted i := by
  rw [written, List.mem_filter, List.mem_range, Nat.lt_sub_iff_add_lt, lt_length_rdropWhile_iff,
    decide_eq_true_iff, headcount_pos]
  constructor
  · rintro ⟨hHeader, hNone | ⟨line, hLine, hLater, hValue⟩⟩
    · exact absurd hNone (Nat.lt_irrefl 0)
    · obtain ⟨row, hRow, rfl⟩ := List.mem_map.mp hLine
      rw [fields_join (List.mem_cons_of_mem _ hRow)] at hLater hValue
      rw [column_rdropWhile] at hValue
      exact ⟨hHeader, row, hRow, hValue, lt_length_rdropWhile_iff.mp hLater⟩
  · rintro ⟨hHeader, row, hRow, hValue, hLater⟩
    refine ⟨hHeader, .inr ⟨_, List.mem_map_of_mem hRow, ?_, ?_⟩⟩
    · rw [fields_join (List.mem_cons_of_mem _ hRow)]
      exact lt_length_rdropWhile_iff.mpr hLater
    · rw [fields_join (List.mem_cons_of_mem _ hRow), column_rdropWhile]
      exact hValue

theorem written_pairwise (t : Table) : t.written.Pairwise (· < ·) :=
  List.pairwise_lt_range.filter _

theorem filter_lines (hRows : t.rows ≠ []) :
    filter t.lines = some (t.headerOf t.written :: t.rows.map (rowOf t.written)) := by
  rw [filter, lines, List.map_cons, List.headD_cons, List.tail_cons, fields_join List.mem_cons_self,
    writeLines_open _ _ (by simpa using hRows), outline_eq, List.map_map]
  simp only [column_rdropWhile]
  congr 2
  apply List.map_congr_left
  intro row hRow
  rw [Function.comp_apply, outline_eq, fields_join (List.mem_cons_of_mem _ hRow)]
  simp only [column_rdropWhile]
  rfl

/-- A header cell has one semicolon, so that the line tells how many columns there are. -/
theorem count_headerOf (t : Table) (kept : List Nat) :
    (t.headerOf kept).count ';' = kept.length := by
  have hPlain : ∀ i, ';' ∉ column t.headers i := by
    intro i hSep
    rw [column] at hSep
    cases hGet : t.headers[i]? with
    | none => simp [hGet] at hSep
    | some value =>
      rw [hGet] at hSep
      exact (t.plain t.headers List.mem_cons_self value (List.mem_of_getElem? hGet)).1 hSep
  induction kept with
  | nil => rfl
  | cons i kept ih =>
    rw [headerOf, List.flatMap_cons, List.count_append, ← headerOf, ih, headerCell, List.count_append,
      List.count_append, List.count_eq_zero_of_not_mem (hPlain i), List.length_cons, Nat.add_comm]
    rfl

theorem rows_of_used (hUsed : t.Used i) : t.rows ≠ [] := by
  obtain ⟨row, hRow, -⟩ := hUsed
  exact List.ne_nil_of_mem hRow

theorem used_of_counted (hCounted : t.Counted i) : t.Used i := by
  obtain ⟨-, row, hRow, hValue, -⟩ := hCounted
  exact ⟨row, hRow, hValue⟩

theorem counted_of_keeps (hKeeps : t.Keeps kept (filter t.lines)) (hUsed : t.Used i) :
    t.Counted i := by
  have hSub : t.written ⊆ kept := fun j hj =>
    hKeeps.used j (used_of_counted (mem_written.mp hj))
  have hLength : kept.length ≤ t.written.length := by
    have hRows := rows_of_used hUsed
    have hOut := hKeeps.written hRows
    rw [filter_lines hRows] at hOut
    rw [← count_headerOf t kept, ← count_headerOf t, (List.cons.inj (Option.some.inj hOut)).1]
  have hPerm := (List.subperm_of_subset (t.written_pairwise.imp Nat.ne_of_lt) hSub).perm_of_length_le hLength
  exact mem_written.mp (hPerm.mem_iff.mpr (hKeeps.used i hUsed))

/-- A column with a value is lost when it is the last header, or when each of its values is the
last one of its row. -/
theorem filter_keeps_iff (t : Table) :
    (∃ kept, t.Keeps kept (filter t.lines)) ↔ ∀ i, t.Used i → t.Counted i := by
  constructor
  · rintro ⟨kept, hKeeps⟩ i hUsed
    exact counted_of_keeps hKeeps hUsed
  · intro hAll
    refine ⟨t.written, t.written_pairwise, ?_, filter_lines⟩
    intro i hUsed
    exact mem_written.mpr (hAll i hUsed)

/-- The second of two columns is not written, and neither is the header of it. -/
theorem not_keeps_last :
    ¬ ∀ t : Table, ∃ kept, t.Keeps kept (filter t.lines) := by
  intro hAll
  obtain ⟨kept, hKeeps⟩ := hAll ⟨[['a'], ['b']], [[['x'], ['y']]], by decide⟩
  have hUsed : Used ⟨[['a'], ['b']], [[['x'], ['y']]], by decide⟩ 1 :=
    ⟨_, List.mem_cons_self, by decide⟩
  obtain ⟨⟨j, hLater, hHeader⟩, -⟩ := counted_of_keeps hKeeps hUsed
  have hLess : j < 2 := length_le_of_column hHeader
  omega

end Table

end PageCamel.Helpers.CSVFilter

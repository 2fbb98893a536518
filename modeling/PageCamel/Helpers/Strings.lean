import PageCamel.Helpers.TemplateEngine
import PageCamel.Lib.Fields
import PageCamel.Lib.FileChunks
import Mathlib.Data.List.Forall2

/-!
Wrapping of a text into lines (`lineWrap` of `Helpers/Strings.pm`). Words that are longer than
a line are cut with `unpack("(A n)*")`, which takes the NUL characters off the end of each
piece.
-/

namespace PageCamel.Helpers.Strings

open Lib Lib.Fields TemplateEngine

/-- `split/\s+/`: a text that begins with white space has an empty word first. -/
def splitSpaces (val : Text) : List Text :=
  let parts := val.splitOnP isSpace
  (parts.headD [] :: parts.tail.filter (· ≠ [])).rdropWhile List.isEmpty

/-- What `A` takes off the end of a string. -/
def isPadding (c : Char) : Bool := isSpace c || c = '\x00'

/-- `unpack("(A" . $linelength . ")*", $word)`. -/
def unpackA (linelength : Nat) (word : Text) : List Text :=
  (readChunks linelength word.length word).map (List.rdropWhile isPadding)

structure Wrap where
  lines : List Text
  line : Text

/-- The word goes to the next line where it does not fit any more. -/
def Wrap.break (linelength : Nat) (wrap : Wrap) (word : Text) : Wrap :=
  if linelength < wrap.line.length + word.length + 1 then
    if wrap.line ≠ [] then { lines := wrap.lines ++ [wrap.line], line := [] } else wrap
  else wrap

def Wrap.space (wrap : Wrap) : Wrap :=
  if wrap.line ≠ [] then { wrap with line := wrap.line ++ [' '] } else wrap

def Wrap.put (linelength : Nat) (wrap : Wrap) (word : Text) : Wrap :=
  if linelength < word.length then { wrap with lines := wrap.lines ++ unpackA linelength word }
  else { wrap with line := wrap.line ++ word }

def wrapWord (linelength : Nat) (wrap : Wrap) (word : Text) : Wrap :=
  ((wrap.break linelength word).space).put linelength word

/-- Push the last (non-empty) line. -/
def Wrap.finish (wrap : Wrap) : List Text :=
  if wrap.line ≠ [] then wrap.lines ++ [wrap.line] else wrap.lines

def lineWrap (val : Option Text) (linelength : Nat) : List Text :=
  ((splitSpaces (val.getD [])).foldl (wrapWord linelength) { lines := [], line := [] }).finish

/-! ### Words and lines -/

def words (val : Text) : List Text := (val.splitOnP isSpace).filter (· ≠ [])

/-- A word that fits in a line is one piece; the pieces of a longer one make up the word. -/
def CutInto (linelength : Nat) (word : Text) (pieces : List Text) : Prop :=
  pieces.flatten = word ∧ (word.length ≤ linelength → pieces = [word])

/-- The lines fit, and they have the pieces of the text's words, one blank between two of a
line. -/
structure WrapOf (val : Text) (linelength : Nat) (lines : List Text) : Prop where
  nonempty : ∀ line ∈ lines, line ≠ []
  short : ∀ line ∈ lines, line.length ≤ linelength
  words : ∃ cut, List.Forall₂ (CutInto linelength) (words val) cut ∧
    lines.flatMap (List.splitOn ' ') = cut.flatten

/-- The pieces that the code makes of a word. -/
def cuts (linelength : Nat) (word : Text) : List Text :=
  if linelength < word.length then unpackA linelength word else [word]

/-! ### The words of a text -/

theorem words_ne_nil {val word : Text} (hWord : word ∈ words val) : word ≠ [] := by
  simpa using List.of_mem_filter hWord

theorem isSpace_words {val word : Text} (hWord : word ∈ words val) :
    ∀ c ∈ word, isSpace c = false :=
  eq_false_of_mem_splitOnP (List.mem_of_mem_filter hWord)

/-- An empty word at the front is all that `split` adds. -/
theorem splitSpaces_eq (val : Text) :
    splitSpaces val = words val ∨ splitSpaces val = [] :: words val := by
  obtain ⟨first, rest, hParts⟩ := List.exists_cons_of_ne_nil (List.splitOnP_ne_nil isSpace val)
  have hRest : (rest.filter (· ≠ [])).rdropWhile List.isEmpty = rest.filter (· ≠ []) := by
    refine List.rdropWhile_eq_self_iff.mpr fun hSome => ?_
    simpa using List.of_mem_filter (List.getLast_mem hSome)
  have hCons : ∀ words : List Text, words ≠ [] → words.rdropWhile List.isEmpty = words →
      (first :: words).rdropWhile List.isEmpty = first :: words := by
    intro words hSome hWords
    rw [List.rdropWhile_eq_self_iff] at hWords ⊢
    intro hFirst
    rw [List.getLast_cons hSome]
    exact hWords hSome
  rw [splitSpaces, words, hParts, List.headD_cons, List.tail_cons]
  by_cases hSome : rest.filter (· ≠ []) = []
  · left
    rw [hSome, ← List.nil_append [first], List.rdropWhile_concat, List.nil_append, List.filter_cons,
      hSome]
    cases first with
    | nil => rfl
    | cons c first => rfl
  · rw [hCons _ hSome hRest]
    cases first with
    | nil => exact .inr rfl
    | cons c first => exact .inl rfl

/-! ### One word -/

variable {linelength : Nat} {word piece : Text}

theorem of_mem_cuts (hWord : ∀ c ∈ word, isSpace c = false) (hPiece : piece ∈ cuts linelength word) :
    piece.length ≤ linelength ∧ ' ' ∉ piece := by
  have hBlank : ' ' ∉ word := by
    intro hMem
    exact absurd (hWord ' ' hMem) (by decide)
  rw [cuts] at hPiece
  split at hPiece
  · obtain ⟨chunk, hChunk, rfl⟩ := List.mem_map.mp hPiece
    obtain ⟨-, hShort, hSub⟩ := of_mem_readChunks hChunk
    have hPrefix := List.rdropWhile_prefix isPadding chunk
    exact ⟨Nat.le_trans hPrefix.length_le hShort, fun hMem => hBlank (hSub (hPrefix.subset hMem))⟩
  · next hFits =>
    obtain rfl := List.mem_singleton.mp hPiece
    exact ⟨Nat.le_of_not_lt hFits, hBlank⟩

theorem splitOn_of_not_mem (hBlank : ' ' ∉ piece) : piece.splitOn ' ' = [piece] := by
  rw [List.splitOn_eq_splitOnP]
  apply List.splitOnP_eq_singleton
  intro c hc
  exact beq_eq_false_iff_ne.mpr fun hEq => hBlank (hEq ▸ hc)

theorem flatMap_splitOn {pieces : List Text} (hBlank : ∀ piece ∈ pieces, ' ' ∉ piece) :
    pieces.flatMap (List.splitOn ' ') = pieces := by
  induction pieces with
  | nil => rfl
  | cons piece pieces ih =>
    rw [List.forall_mem_cons] at hBlank
    rw [List.flatMap_cons, splitOn_of_not_mem hBlank.1, ih hBlank.2]
    rfl

/-- A word makes lines of its own, or it is put behind the last line where it fits. -/
theorem finish_wrapWord (wrap : Wrap) (hSome : word ≠ []) :
    (wrapWord linelength wrap word).finish = wrap.finish ++ cuts linelength word ∨
      (wrap.line.length + word.length + 1 ≤ linelength ∧ cuts linelength word = [word] ∧
        wrap.finish = wrap.lines ++ [wrap.line] ∧
        (wrapWord linelength wrap word).finish = wrap.lines ++ [wrap.line ++ ' ' :: word]) := by
  obtain ⟨lines, line⟩ := wrap
  by_cases hLine : line = []
  · left
    subst hLine
    by_cases hLong : linelength < word.length
    · simp [wrapWord, Wrap.break, Wrap.space, Wrap.put, Wrap.finish, cuts, hLong]
    · simp [wrapWord, Wrap.break, Wrap.space, Wrap.put, Wrap.finish, cuts, hLong, hSome]
  · by_cases hLong : linelength < word.length
    · left
      have hBreak : linelength < line.length + word.length + 1 := by omega
      simp [wrapWord, Wrap.break, Wrap.space, Wrap.put, Wrap.finish, cuts, hLong, hBreak, hLine]
    · by_cases hBreak : linelength < line.length + word.length + 1
      · left
        simp [wrapWord, Wrap.break, Wrap.space, Wrap.put, Wrap.finish, cuts, hLong, hBreak, hLine, hSome]
      · right
        simp [wrapWord, Wrap.break, Wrap.space, Wrap.put, Wrap.finish, cuts, hLong, hBreak, hLine]
        omega

/-- The lines hold these parts, each within the length. -/
structure Wrapped (linelength : Nat) (wrap : Wrap) (parts : List Text) : Prop where
  short : ∀ line ∈ wrap.finish, line.length ≤ linelength
  nonempty : (∀ part ∈ parts, part ≠ []) → ∀ line ∈ wrap.finish, line ≠ []
  words : wrap.finish.flatMap (List.splitOn ' ') = parts

theorem wrapped_wrapWord {wrap : Wrap} {parts : List Text} (hWord : ∀ c ∈ word, isSpace c = false)
    (hSome : word ≠ []) (hWrapped : Wrapped linelength wrap parts) :
    Wrapped linelength (wrapWord linelength wrap word) (parts ++ cuts linelength word) := by
  rcases finish_wrapWord wrap hSome with hOwn | ⟨hFits, hCuts, hBefore, hAfter⟩
  · refine ⟨?_, ?_, ?_⟩
    · rw [hOwn, List.forall_mem_append]
      exact ⟨hWrapped.short, fun piece hPiece => (of_mem_cuts hWord hPiece).1⟩
    · rw [hOwn, List.forall_mem_append, List.forall_mem_append]
      rintro ⟨hParts, hCuts⟩
      exact ⟨hWrapped.nonempty hParts, hCuts⟩
    · rw [hOwn, List.flatMap_append, hWrapped.words,
        flatMap_splitOn fun piece hPiece => (of_mem_cuts hWord hPiece).2]
  · obtain ⟨hShort, hNonempty, hWords⟩ := hWrapped
    rw [hBefore, List.forall_mem_append] at hShort
    rw [hBefore, List.flatMap_append, List.flatMap_singleton] at hWords
    refine ⟨?_, ?_, ?_⟩
    · rw [hAfter, List.forall_mem_append, List.forall_mem_singleton]
      refine ⟨hShort.1, ?_⟩
      simp only [List.length_append, List.length_cons]
      omega
    · rw [hAfter, List.forall_mem_append, List.forall_mem_append, List.forall_mem_singleton]
      rintro ⟨hParts, -⟩
      have hLines := hNonempty hParts
      rw [hBefore, List.forall_mem_append] at hLines
      exact ⟨hLines.1, List.append_ne_nil_of_right_ne_nil _ (List.cons_ne_nil ' ' word)⟩
    · have hBlank : ' ' ∉ word := (of_mem_cuts hWord (hCuts ▸ List.mem_cons_self)).2
      rw [hAfter, hCuts, List.flatMap_append, List.flatMap_singleton, List.splitOn_append_cons_self,
        splitOn_of_not_mem hBlank, ← List.append_assoc, hWords]

theorem wrapped_words {words : List Text} (hWords : ∀ word ∈ words, word ≠ [])
    (hSpace : ∀ word ∈ words, ∀ c ∈ word, isSpace c = false) {wrap : Wrap} {parts : List Text}
    (hWrapped : Wrapped linelength wrap parts) :
    Wrapped linelength (words.foldl (wrapWord linelength) wrap)
      (parts ++ words.flatMap (cuts linelength)) := by
  induction words generalizing wrap parts with
  | nil =>
    rw [List.flatMap_nil, List.append_nil]
    exact hWrapped
  | cons word words ih =>
    rw [List.forall_mem_cons] at hWords hSpace
    have hNext := ih hWords.2 hSpace.2 (wrapped_wrapWord hSpace.1 hWords.1 hWrapped)
    rw [List.append_assoc] at hNext
    exact hNext

/-! ### The text -/

variable {val : Text}

/-- The empty word before leading white space changes nothing. -/
theorem wrapWord_nil (linelength : Nat) : wrapWord linelength ⟨[], []⟩ [] = ⟨[], []⟩ := by
  rw [wrapWord, Wrap.break]
  split <;> rfl

theorem lineWrap_wrapped (val : Text) (linelength : Nat) :
    ∃ wrap, lineWrap (some val) linelength = wrap.finish ∧
      Wrapped linelength wrap ((words val).flatMap (cuts linelength)) := by
  have hStart : Wrapped linelength ⟨[], []⟩ [] := by
    refine ⟨?_, ?_, rfl⟩
    · simp [Wrap.finish]
    · simp [Wrap.finish]
  have hWords : ∀ word ∈ words val, word ≠ [] := fun word hWord => words_ne_nil hWord
  have hAll := wrapped_words hWords (fun word hWord => isSpace_words hWord) hStart
  refine ⟨_, ?_, hAll⟩
  rw [lineWrap, Option.getD_some]
  rcases splitSpaces_eq val with hSplit | hSplit
  · rw [hSplit]
  · rw [hSplit, List.foldl_cons, wrapWord_nil]

/-- No piece that a word longer than a line is cut into ends with NUL. -/
def KeepsPieces (val : Text) (linelength : Nat) : Prop :=
  ∀ word ∈ words val, linelength < word.length →
    ∀ piece ∈ readChunks linelength word.length word, piece.getLast? ≠ some '\x00'

theorem rdropWhile_isPadding_iff (hPiece : ∀ c ∈ piece, isSpace c = false) :
    piece.rdropWhile isPadding = piece ↔ piece.getLast? ≠ some '\x00' := by
  rw [List.rdropWhile_eq_self_iff]
  rcases List.eq_nil_or_concat piece with rfl | ⟨front, c, rfl⟩
  · simp
  · have hSpace : isSpace c = false := hPiece c (by simp)
    simp [isPadding, hSpace]

theorem length_flatten_cuts_le (hLength : 1 ≤ linelength) (word : Text) :
    (cuts linelength word).flatten.length ≤ word.length := by
  rw [cuts]
  split
  · have hWhole := flatten_readChunks hLength (Nat.le_refl word.length)
    refine Nat.le_trans (length_flatten_map_le fun chunk _ => ?_) (Nat.le_of_eq (congrArg _ hWhole))
    exact (List.rdropWhile_prefix isPadding chunk).length_le
  · simp

theorem cutInto_cuts_iff (hLength : 1 ≤ linelength) (hWord : ∀ c ∈ word, isSpace c = false) :
    (cuts linelength word).flatten = word ↔ (linelength < word.length →
      ∀ piece ∈ readChunks linelength word.length word, piece.getLast? ≠ some '\x00') := by
  rw [cuts]
  by_cases hLong : linelength < word.length
  · have hWhole := flatten_readChunks hLength (Nat.le_refl word.length)
    have hPiece : ∀ piece ∈ readChunks linelength word.length word,
        (piece.rdropWhile isPadding = piece ↔ piece.getLast? ≠ some '\x00') := by
      intro piece hMem
      have hSub := (of_mem_readChunks hMem).2.2
      exact rdropWhile_isPadding_iff fun c hc => hWord c (hSub hc)
    rw [if_pos hLong, unpackA]
    constructor
    · intro hSame _ piece hMem
      refine (hPiece piece hMem).mp (eq_of_flatten_map ?_ (hSame.trans hWhole.symm) piece hMem)
      exact fun chunk _ => (List.rdropWhile_prefix isPadding chunk).length_le
    · intro hKept
      rw [List.map_congr_left fun piece hMem => (hPiece piece hMem).mpr (hKept hLong piece hMem),
        List.map_id', hWhole]
  · simp [hLong]

theorem cuts_ne_nil (hLength : 1 ≤ linelength) (hSome : word ≠ [])
    (hWhole : (cuts linelength word).flatten = word) : ∀ piece ∈ cuts linelength word, piece ≠ [] := by
  rw [cuts] at hWhole ⊢
  split at hWhole
  · next hLong =>
    rw [if_pos hLong]
    intro piece hPiece
    obtain ⟨chunk, hChunk, rfl⟩ := List.mem_map.mp hPiece
    have hChunks := flatten_readChunks hLength (Nat.le_refl word.length)
    rw [eq_of_flatten_map (fun chunk _ => (List.rdropWhile_prefix isPadding chunk).length_le)
      (hWhole.trans hChunks.symm) chunk hChunk]
    exact (of_mem_readChunks hChunk).1
  · next hFits =>
    rw [if_neg hFits, List.forall_mem_singleton]
    exact hSome

theorem map_flatten_of_cut {words : List Text} {cut : List (List Text)}
    (hCut : List.Forall₂ (CutInto linelength) words cut) : cut.map List.flatten = words := by
  induction hCut with
  | nil => rfl
  | cons hPieces _ ih => rw [List.map_cons, hPieces.1, ih]

/-- The lines are right unless a piece of a word that is too long for a line ends with NUL. -/
theorem lineWrap_iff (val : Text) (linelength : Nat) (hLength : 1 ≤ linelength) :
    WrapOf val linelength (lineWrap (some val) linelength) ↔ KeepsPieces val linelength := by
  obtain ⟨wrap, hLines, hShort, hNonempty, hWords⟩ := lineWrap_wrapped val linelength
  have hCuts : (∀ word ∈ words val, (cuts linelength word).flatten = word) ↔
      KeepsPieces val linelength :=
    forall₂_congr fun word hWord => cutInto_cuts_iff hLength (isSpace_words hWord)
  rw [hLines, ← hCuts]
  constructor
  · rintro ⟨-, -, cut, hCut, hSame⟩
    refine eq_of_flatten_map (fun word _ => length_flatten_cuts_le hLength word) ?_
    have hFlatten := congrArg List.flatten (hWords.symm.trans hSame)
    rw [List.flatten_flatten, map_flatten_of_cut hCut, List.flatMap_def, List.flatten_flatten,
      List.map_map] at hFlatten
    exact hFlatten
  · intro hWhole
    refine ⟨hNonempty ?_, hShort, (words val).map (cuts linelength), ?_, hWords⟩
    · intro piece hPiece
      obtain ⟨word, hWord, hPiece⟩ := List.mem_flatMap.mp hPiece
      exact cuts_ne_nil hLength (words_ne_nil hWord) (hWhole word hWord) piece hPiece
    · rw [List.forall₂_map_right_iff, List.forall₂_same]
      intro word hWord
      refine ⟨hWhole word hWord, fun hFits => ?_⟩
      rw [cuts, if_neg (Nat.not_lt.mpr hFits)]

theorem lineWrap_iff_short :
    WrapOf ['a', ' ', 'b', 'c', 'd'] 2 (lineWrap (some ['a', ' ', 'b', 'c', 'd']) 2) ↔
      KeepsPieces ['a', ' ', 'b', 'c', 'd'] 2 :=
  lineWrap_iff ['a', ' ', 'b', 'c', 'd'] 2 (by decide)

/-- The second piece of the word is lost, and an empty line is left of it. -/
theorem not_wrapOf_nul : ¬ ∀ val linelength, 1 ≤ linelength →
    WrapOf val linelength (lineWrap (some val) linelength) := by
  intro hAll
  have hEmpty := (hAll ['a', '\x00'] 1 (by decide)).nonempty [] (by decide)
  exact hEmpty rfl

end PageCamel.Helpers.Strings

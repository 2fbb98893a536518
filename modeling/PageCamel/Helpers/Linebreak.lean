import PageCamel.Helpers.Strings
import PageCamel.Lib.Runs

/-!
Lines for a printer (`linebreakText` of `Helpers/Format.pm`), the first of another length than
the rest. The blank before a word is put behind the line before it is known whether the word
still goes there.
-/

namespace PageCamel.Helpers.Linebreak

open Lib (Meets runEvents runEvents_append)
open Lib.Fields TemplateEngine Strings

/-- `s/\ \ / /g`. -/
def halve : Text → Text
  | [] => []
  | [c] => [c]
  | c :: d :: s => if c = ' ' ∧ d = ' ' then ' ' :: halve s else c :: halve (d :: s)

structure Layout where
  lines : List Text
  line : Text
  thislen : Nat
  deriving DecidableEq, Repr

/-- Before the first part. -/
def start (len : Nat) : Layout := { lines := [], line := [], thislen := len }

def pushLine (lines : List Text) (line : Text) : List Text :=
  if line ≠ [] then lines ++ [line] else lines

/-- The blank before the next part. -/
def Layout.space (layout : Layout) : Text :=
  if layout.line ≠ [] then layout.line ++ [' '] else layout.line

/-- A line that is not half full is filled up with the beginning of the part. -/
def Layout.fillUp (nextlen : Nat) (layout : Layout) (part : Text) : Layout × Text :=
  if layout.thislen < layout.line.length + part.length ∧ 2 * layout.line.length < layout.thislen then
    let partlen := layout.thislen - layout.line.length
    ({ lines := pushLine layout.lines (layout.line ++ part.take partlen)
       line := []
       thislen := nextlen }, part.drop partlen)
  else (layout, part)

/-- A long part is cut into lines. What is left of it is given back, too. -/
def Layout.cut (nextlen : Nat) : Nat → Layout → Text → Layout × Text
  | 0, layout, part => (layout, part)
  | fuel + 1, layout, part =>
      if part = [] then (layout, [])
      else
        let line := part.take layout.thislen
        let layout' : Layout :=
          if line.length = layout.thislen then
            { lines := layout.lines ++ [line], line := [], thislen := nextlen }
          else { lines := layout.lines, line, thislen := nextlen }
        layout'.cut nextlen fuel
          (if layout.thislen < part.length then part.drop layout.thislen else [])

/-- The part goes behind the line if it fits. -/
def Layout.put (nextlen : Nat) (layout : Layout) (part : Text) : Layout :=
  if layout.thislen < layout.line.length + part.length then
    let layout := { layout with lines := pushLine layout.lines layout.line, thislen := nextlen }
    if part.length < nextlen then { layout with line := part }
    else (layout.cut nextlen part.length part).1
  else { layout with line := layout.line ++ part }

def addPart (nextlen : Nat) (layout : Layout) (part : Text) : Layout :=
  let (layout, part) := ({ layout with line := layout.space } : Layout).fillUp nextlen part
  layout.put nextlen part

/-- `split/\ /` of the text without superfluous white space. -/
def lineParts (val : Text) : List Text := fields ' ' (halve (stripString (some val)))

def linebreakText (val : Text) (len : Nat) (nextlen : Option Nat) : List Text :=
  let nextlen := nextlen.getD len
  let layout := (lineParts val).foldl (addPart nextlen) (start len)
  pushLine layout.lines layout.line

/-! ### What the lines should be -/

/-- The first line has a length of its own. -/
def Fits (len nextlen : Nat) : List Text → Prop
  | [] => True
  | first :: others => first.length ≤ len ∧ ∀ line ∈ others, line.length ≤ nextlen

/-- The characters other than white space. -/
def inked (val : Text) : Text := val.filter fun c => !isSpace c

structure BreakOf (val : Text) (len nextlen : Nat) (lines : List Text) : Prop where
  fits : Fits len nextlen lines
  nonempty : ∀ line ∈ lines, line ≠ []
  inked : inked lines.flatten = inked val

/-- The length of a line and its limit after a further word of `n` characters: the word goes
behind the blank, fills the line up and goes on in the next one, or begins the next one. -/
def fill (nextlen : Nat) (room : Nat × Nat) (n : Nat) : Nat × Nat :=
  let used := if room.1 = 0 then 0 else room.1 + 1
  if used + n ≤ room.2 then (used + n, room.2)
  else if 2 * used < room.2 then
    let rest := used + n - room.2
    (if rest ≤ nextlen then rest else rest % nextlen, nextlen)
  else (n % nextlen, nextlen)

/-- For words of these lengths, no line is full when a further word comes. -/
def NeverFull (val : Text) (len nextlen : Nat) : Prop :=
  Meets (fill nextlen) (fun room _ => room.1 ≠ room.2) (0, len) ((words val).map List.length)

/-! ### The parts are the words -/

variable {val part : Text} {len nextlen : Nat} {c : Char}

theorem words_cons_space (hSpace : isSpace c = true) : words (c :: val) = words val := by
  rw [words, List.splitOnP_cons_eq_if_modifyHead, if_pos hSpace]
  rfl

theorem words_cons_first {d : Char} (hInk : isSpace c = false) (hSpace : isSpace d = true) :
    words (c :: d :: val) = [c] :: words (d :: val) := by
  rw [words, words, List.splitOnP_cons_eq_if_modifyHead, if_neg (ne_true_of_eq_false hInk),
    List.splitOnP_cons_eq_if_modifyHead, if_pos hSpace]
  rfl

theorem words_cons_inner {d : Char} (hInk : isSpace c = false) (hNext : isSpace d = false) :
    ∃ word rest, words (d :: val) = word :: rest ∧ words (c :: d :: val) = (c :: word) :: rest := by
  obtain ⟨first, rest, hSplit⟩ := List.exists_cons_of_ne_nil (List.splitOnP_ne_nil isSpace val)
  refine ⟨d :: first, rest.filter (· ≠ []), ?_, ?_⟩
  · rw [words, List.splitOnP_cons_eq_if_modifyHead, if_neg (ne_true_of_eq_false hNext), hSplit]
    rfl
  · rw [words, List.splitOnP_cons_eq_if_modifyHead, if_neg (ne_true_of_eq_false hInk),
      List.splitOnP_cons_eq_if_modifyHead, if_neg (ne_true_of_eq_false hNext), hSplit]
    rfl

theorem words_concat_space (hSpace : isSpace c = true) : words (val ++ [c]) = words val := by
  rw [words, List.splitOnP_append_cons val [] hSpace, List.filter_append]
  exact List.append_nil _

theorem words_dropWhile (val : Text) : words (val.dropWhile isSpace) = words val := by
  induction val with
  | nil => rfl
  | cons c val ih =>
    rw [List.dropWhile_cons]
    split
    · next hSpace => rw [ih, words_cons_space hSpace]
    · rfl

theorem words_rdropWhile (val : Text) : words (val.rdropWhile isSpace) = words val := by
  induction val using List.reverseRecOn with
  | nil => rfl
  | append_singleton val c ih =>
    rw [List.rdropWhile_concat]
    split
    · next hSpace => rw [ih, words_concat_space hSpace]
    · rfl

theorem words_ne_nil_of_getLast (hEnd : ∃ c ∈ val.getLast?, isSpace c = false) : words val ≠ [] := by
  induction val with
  | nil =>
    obtain ⟨c, hLast, _⟩ := hEnd
    cases hLast
  | cons d val ih =>
    cases hSpace : isSpace d with
    | false =>
      obtain ⟨first, rest, hSplit⟩ := List.exists_cons_of_ne_nil (List.splitOnP_ne_nil isSpace val)
      rw [words, List.splitOnP_cons_eq_if_modifyHead, if_neg (ne_true_of_eq_false hSpace), hSplit]
      exact List.cons_ne_nil _ _
    | true =>
      rw [words_cons_space hSpace]
      apply ih
      obtain ⟨c, hLast, hInk⟩ := hEnd
      cases val with
      | nil =>
        cases hLast
        exact absurd hSpace (ne_true_of_eq_false hInk)
      | cons e val => exact ⟨c, by rwa [List.getLast?_cons_cons] at hLast, hInk⟩

theorem collapse_space (hSpace : isSpace c = true) :
    collapse true (c :: val) = collapse true val ∧ collapse false (c :: val) = ' ' :: collapse true val := by
  constructor
  · rw [collapse, if_pos hSpace]
    rfl
  · rw [collapse, if_pos hSpace]
    rfl

theorem collapse_ink (inRun : Bool) (hInk : isSpace c = false) :
    collapse inRun (c :: val) = c :: collapse false val := by
  rw [collapse, if_neg (ne_true_of_eq_false hInk)]

/-- Of text without white space at its end the words are left, with a blank between two. -/
theorem collapse_words (hEnd : ∀ c ∈ val.getLast?, isSpace c = false) :
    collapse true val = List.intercalate [' '] (words val) ∧
      collapse false val = if val.head?.any isSpace then ' ' :: List.intercalate [' '] (words val)
        else List.intercalate [' '] (words val) := by
  induction val with
  | nil => exact ⟨rfl, rfl⟩
  | cons c val ih =>
    cases val with
    | nil =>
      have hInk : isSpace c = false := hEnd c rfl
      have hWord : words [c] = [[c]] := by
        rw [words, List.splitOnP_cons_eq_if_modifyHead, if_neg (ne_true_of_eq_false hInk)]
        rfl
      rw [collapse_ink true hInk, collapse_ink false hInk, hWord]
      simp [hInk, collapse]
    | cons d val =>
      rw [List.getLast?_cons_cons] at hEnd
      obtain ⟨hRun, hBlank⟩ := ih hEnd
      cases hSpace : isSpace c with
      | true =>
        rw [words_cons_space hSpace, (collapse_space hSpace).1, (collapse_space hSpace).2, hRun]
        simp [hSpace]
      | false =>
        rw [collapse_ink true hSpace, collapse_ink false hSpace, hBlank]
        have hJoin : c :: (if (d :: val).head?.any isSpace = true then
            ' ' :: List.intercalate [' '] (words (d :: val))
            else List.intercalate [' '] (words (d :: val))) =
            List.intercalate [' '] (words (c :: d :: val)) := by
          cases hNext : isSpace d with
          | true =>
            have hSome : words (d :: val) ≠ [] := by
              have hLast := List.getLast?_eq_some_getLast (List.cons_ne_nil d val)
              exact words_ne_nil_of_getLast ⟨_, hLast, hEnd _ hLast⟩
            obtain ⟨word, rest, hWords⟩ := List.exists_cons_of_ne_nil hSome
            rw [words_cons_first hSpace hNext, hWords, List.intercalate_cons_cons]
            simp [hNext]
          | false =>
            obtain ⟨word, rest, hWords, hLonger⟩ := @words_cons_inner val c d hSpace hNext
            rw [hWords, hLonger]
            cases rest with
            | nil => simp [hNext]
            | cons next rest => simp [hNext, List.intercalate_cons_cons]
        rw [hJoin]
        simp [hSpace]

theorem halve_cons (hInk : c ≠ ' ') (val : Text) : halve (c :: val) = c :: halve val := by
  cases val with
  | nil => rfl
  | cons d val => rw [halve, if_neg fun hBoth => hInk hBoth.1]

theorem halve_blank (hInk : c ≠ ' ') (val : Text) : halve (' ' :: c :: val) = ' ' :: halve (c :: val) := by
  rw [halve.eq_def]
  exact if_neg fun hBoth => hInk hBoth.2

theorem halve_append {word : Text} (hFree : ' ' ∉ word) (val : Text) :
    halve (word ++ val) = word ++ halve val := by
  induction word with
  | nil => rfl
  | cons c word ih =>
    rw [List.mem_cons, not_or] at hFree
    rw [List.cons_append, halve_cons (Ne.symm hFree.1), ih hFree.2, List.cons_append]

/-- One blank between words is left alone. -/
theorem halve_intercalate {words : List Text} (hSome : ∀ word ∈ words, word ≠ [])
    (hFree : ∀ word ∈ words, ' ' ∉ word) :
    halve (List.intercalate [' '] words) = List.intercalate [' '] words := by
  induction words with
  | nil => rfl
  | cons word words ih =>
    rw [List.forall_mem_cons] at hSome hFree
    have hRest := ih hSome.2 hFree.2
    cases words with
    | nil =>
      have hWord := halve_append hFree.1 []
      rw [List.intercalate_singleton]
      rwa [List.append_nil, halve, List.append_nil] at hWord
    | cons next words =>
      obtain ⟨d, tail, rfl⟩ := List.exists_cons_of_ne_nil (hSome.2 next List.mem_cons_self)
      have hNext : d ≠ ' ' := fun hBlank => hFree.2 _ List.mem_cons_self (hBlank ▸ List.mem_cons_self)
      have hHead : ∃ rest, List.intercalate [' '] ((d :: tail) :: words) = d :: rest := by
        cases words with
        | nil => exact ⟨tail, List.intercalate_singleton⟩
        | cons third words => exact ⟨_, List.intercalate_cons_cons⟩
      obtain ⟨rest, hHead⟩ := hHead
      rw [List.intercalate_cons_cons, List.append_assoc, halve_append hFree.1, List.singleton_append,
        hHead, halve_blank hNext, ← hHead, hRest]

theorem isSpace_getLast_rdropWhile (val : Text) :
    ∀ c ∈ (val.rdropWhile isSpace).getLast?, isSpace c = false := by
  intro c hLast
  have hSome : val.rdropWhile isSpace ≠ [] := by
    intro hNone
    rw [hNone] at hLast
    cases hLast
  have hEnd := List.rdropWhile_last_not isSpace val hSome
  rw [List.getLast?_eq_getLast_of_ne_nil hSome] at hLast
  cases hLast
  exact eq_false_of_ne_true hEnd

theorem isSpace_head_dropWhile (val : Text) : ∀ c ∈ (val.dropWhile isSpace).head?, isSpace c = false := by
  intro c hHead
  have hNot := List.head?_dropWhile_not isSpace val
  rw [hHead] at hNot
  exact hNot

theorem blank_not_mem_words (val : Text) : ∀ word ∈ words val, ' ' ∉ word :=
  fun word hWord hBlank => absurd (isSpace_words hWord ' ' hBlank) (by decide)

theorem lineParts_eq_words (val : Text) : lineParts val = words val := by
  have hStrip : stripString (some val) = List.intercalate [' '] (words val) := by
    have hEnd := isSpace_getLast_rdropWhile (val.dropWhile isSpace)
    have hHead : ((val.dropWhile isSpace).rdropWhile isSpace).head?.any isSpace = false := by
      obtain ⟨rest, hRest⟩ := List.rdropWhile_prefix isSpace (val.dropWhile isSpace)
      have hFirst := isSpace_head_dropWhile val
      cases hText : (val.dropWhile isSpace).rdropWhile isSpace with
      | nil => rfl
      | cons c text =>
        rw [← hRest, hText] at hFirst
        exact hFirst c rfl
    rw [stripString, Option.getD_some, (collapse_words hEnd).2, hHead, words_rdropWhile,
      words_dropWhile]
    rfl
  have hSome : ∀ word ∈ words val, word ≠ [] := fun word hWord => words_ne_nil hWord
  rw [lineParts, hStrip, halve_intercalate hSome (blank_not_mem_words val),
    fields_intercalate (blank_not_mem_words val), List.rdropWhile_eq_self_iff]
  intro hWords
  simpa using hSome _ (List.getLast_mem hWords)

/-! ### One part -/

/-- The length of the next line. -/
def limit (len nextlen : Nat) (lines : List Text) : Nat := if lines = [] then len else nextlen

theorem fits_concat {lines : List Text} {line : Text} : Fits len nextlen (lines ++ [line]) ↔
    Fits len nextlen lines ∧ line.length ≤ limit len nextlen lines := by
  cases lines with
  | nil => simp [Fits, limit]
  | cons first lines =>
    rw [List.cons_append, Fits, Fits, List.forall_mem_append, List.forall_mem_singleton, and_assoc]
    rfl

theorem fits_append {lines others : List Text} (hSome : lines ≠ []) :
    Fits len nextlen (lines ++ others) ↔
      Fits len nextlen lines ∧ ∀ line ∈ others, line.length ≤ nextlen := by
  cases lines with
  | nil => exact absurd rfl hSome
  | cons first lines => rw [List.cons_append, Fits, Fits, List.forall_mem_append, and_assoc]

/-- The part is cut into whole lines and a rest. -/
theorem cut_spec (hNext : 1 ≤ nextlen) (fuel : Nat) (lines : List Text) (line part : Text)
    (hFuel : part.length ≤ fuel) (hLine : part = [] → line = []) :
    ∃ chunks rest, part = chunks.flatten ++ rest ∧ (∀ chunk ∈ chunks, chunk.length = nextlen) ∧
      rest.length < nextlen ∧
      Layout.cut nextlen fuel ⟨lines, line, nextlen⟩ part = (⟨lines ++ chunks, rest, nextlen⟩, []) := by
  induction fuel generalizing lines line part with
  | zero =>
    obtain rfl := List.length_eq_zero_iff.mp (Nat.le_zero.mp hFuel)
    refine ⟨[], [], rfl, nofun, hNext, ?_⟩
    rw [Layout.cut, hLine rfl, List.append_nil]
  | succ fuel ih =>
    rw [Layout.cut]
    split
    · next hNone =>
      refine ⟨[], [], hNone, nofun, hNext, ?_⟩
      rw [hLine hNone, List.append_nil]
    · next hSome =>
      dsimp only
      by_cases hWhole : nextlen ≤ part.length
      · have hLength : (part.take nextlen).length = nextlen := by
          rw [List.length_take]
          omega
        have hRest : (if nextlen < part.length then part.drop nextlen else []) = part.drop nextlen := by
          split
          · rfl
          · next hEnd => exact (List.drop_eq_nil_of_le (by omega)).symm
        obtain ⟨chunks, rest, hPart, hChunks, hShort, hCut⟩ :=
          ih (lines ++ [part.take nextlen]) [] (part.drop nextlen)
            (by rw [List.length_drop]; omega) (fun _ => rfl)
        refine ⟨part.take nextlen :: chunks, rest, ?_, ?_, hShort, ?_⟩
        · rw [List.flatten_cons, List.append_assoc, ← hPart, List.take_append_drop]
        · exact List.forall_mem_cons.mpr ⟨hLength, hChunks⟩
        · rw [if_pos hLength, hRest, hCut, List.append_assoc]
          rfl
      · have hTake : part.take nextlen = part := List.take_of_length_le (by omega)
        refine ⟨[], part, rfl, nofun, by omega, ?_⟩
        rw [hTake, if_neg (by omega), if_neg (by omega), List.append_nil]
        cases fuel with
        | zero => rfl
        | succ fuel => rw [Layout.cut, if_pos rfl]

theorem length_rest {chunks : List Text} {rest : Text}
    (hChunks : ∀ chunk ∈ chunks, chunk.length = nextlen) (hShort : rest.length < nextlen) :
    rest.length = (chunks.flatten ++ rest).length % nextlen := by
  induction chunks with
  | nil => exact (Nat.mod_eq_of_lt hShort).symm
  | cons chunk chunks ih =>
    rw [List.forall_mem_cons] at hChunks
    rw [List.flatten_cons, List.append_assoc, List.length_append, hChunks.1, Nat.add_mod_left]
    exact ih hChunks.2

/-- What becomes of a part that begins a line. -/
theorem begin_spec (hNext : 1 ≤ nextlen) (lines : List Text) (line part : Text) :
    ∃ chunks rest, part = chunks.flatten ++ rest ∧ (∀ chunk ∈ chunks, chunk.length = nextlen) ∧
      rest.length = part.length % nextlen ∧
      (if part.length < nextlen then ⟨lines, part, nextlen⟩
        else (Layout.cut nextlen part.length ⟨lines, line, nextlen⟩ part).1) =
          (⟨lines ++ chunks, rest, nextlen⟩ : Layout) := by
  split
  · next hShort => exact ⟨[], part, rfl, nofun, (Nat.mod_eq_of_lt hShort).symm, by rw [List.append_nil]⟩
  · next hLong =>
    have hSome : part = [] → line = [] := by
      rintro rfl
      exact absurd hNext hLong
    obtain ⟨chunks, rest, hPart, hChunks, hRest, hCut⟩ :=
      cut_spec hNext part.length lines line part (Nat.le_refl _) hSome
    exact ⟨chunks, rest, hPart, hChunks, hPart ▸ length_rest hChunks hRest, by rw [hCut]⟩

theorem put_empty (hNext : 1 ≤ nextlen) (lines : List Text) (part : Text) :
    ∃ chunks rest, part = chunks.flatten ++ rest ∧ (∀ chunk ∈ chunks, chunk.length = nextlen) ∧
      rest.length = (if part.length ≤ nextlen then part.length else part.length % nextlen) ∧
      Layout.put nextlen ⟨lines, [], nextlen⟩ part = ⟨lines ++ chunks, rest, nextlen⟩ := by
  rw [Layout.put]
  dsimp only
  rw [List.length_nil, Nat.zero_add]
  by_cases hFits : part.length ≤ nextlen
  · rw [if_neg (Nat.not_lt.mpr hFits), if_pos hFits]
    exact ⟨[], part, rfl, nofun, rfl, by rw [List.append_nil, List.nil_append]⟩
  · rw [if_pos (Nat.lt_of_not_le hFits), if_neg hFits]
    exact begin_spec hNext lines [] part

theorem pushLine_of_ne_nil (lines : List Text) {line : Text} (hSome : line ≠ []) :
    pushLine lines line = lines ++ [line] := if_pos hSome

variable {layout : Layout}

theorem space_cases : layout.line.length = 0 ∧ layout.space.length = 0 ∨
    0 < layout.line.length ∧ layout.space.length = layout.line.length + 1 := by
  rw [Layout.space]
  by_cases hLine : layout.line = []
  · rw [if_neg (not_not.mpr hLine), hLine]
    exact .inl ⟨rfl, rfl⟩
  · rw [if_pos hLine, List.length_append]
    exact .inr ⟨List.length_pos_iff.mpr hLine, rfl⟩

/-- The part fits, or it goes on in the next line: a line that gets too long was full. -/
theorem addPart_cases (hPos : 1 ≤ layout.thislen) (hNext : 1 ≤ nextlen)
    (hShort : layout.line.length ≤ layout.thislen) (hSome : part ≠ []) :
    (layout.line.length ≠ layout.thislen ∧ (layout.space ++ part).length ≤ layout.thislen ∧
      fill nextlen (layout.line.length, layout.thislen) part.length =
        ((layout.space ++ part).length, layout.thislen) ∧
      addPart nextlen layout part = { layout with line := layout.space ++ part }) ∨
    ∃ first chunks rest, layout.space ++ part = first ++ (chunks.flatten ++ rest) ∧ first ≠ [] ∧
      (first.length ≤ layout.thislen ↔ layout.line.length ≠ layout.thislen) ∧
      (∀ chunk ∈ chunks, chunk.length = nextlen) ∧ rest.length ≤ nextlen ∧
      fill nextlen (layout.line.length, layout.thislen) part.length = (rest.length, nextlen) ∧
      addPart nextlen layout part = ⟨layout.lines ++ first :: chunks, rest, nextlen⟩ := by
  have hPart : 1 ≤ part.length := List.length_pos_iff.mpr hSome
  have hSpace := @space_cases layout
  have hUsed : (if layout.line.length = 0 then 0 else layout.line.length + 1) =
      layout.space.length := by
    split <;> omega
  have hMod : part.length % nextlen < nextlen := Nat.mod_lt _ hNext
  rw [addPart, Layout.fillUp]
  dsimp only
  by_cases hFits : layout.space.length + part.length ≤ layout.thislen
  · left
    rw [if_neg (by omega), Layout.put]
    dsimp only
    rw [if_neg (by omega), List.length_append]
    exact ⟨by omega, hFits, by rw [fill, hUsed, if_pos hFits], rfl⟩
  · right
    by_cases hHalf : 2 * layout.space.length < layout.thislen
    · -- the line is filled up
      have hFull : (layout.space ++ part.take (layout.thislen - layout.space.length)).length =
          layout.thislen := by
        rw [List.length_append, List.length_take]
        omega
      have hFirst := List.ne_nil_of_length_pos (hFull ▸ hPos)
      obtain ⟨chunks, rest, hCut, hChunks, hRest, hPut⟩ := put_empty hNext
        (layout.lines ++ [layout.space ++ part.take (layout.thislen - layout.space.length)])
        (part.drop (layout.thislen - layout.space.length))
      rw [List.length_drop, show part.length - (layout.thislen - layout.space.length) =
        layout.space.length + part.length - layout.thislen by omega] at hRest
      refine ⟨_, chunks, rest, ?_, hFirst, ?_, hChunks, ?_, ?_, ?_⟩
      · rw [← hCut, List.append_assoc, List.take_append_drop]
      · exact iff_of_true (Nat.le_of_eq hFull) (by omega)
      · rw [hRest]
        split
        · assumption
        · exact (Nat.mod_lt _ hNext).le
      · rw [fill, hUsed, if_neg hFits, if_pos hHalf, hRest]
      · rw [if_pos ⟨by omega, hHalf⟩, pushLine_of_ne_nil _ hFirst, hPut, List.append_assoc]
        rfl
    · -- the line is closed with a blank at its end
      have hFirst : layout.space ≠ [] := List.ne_nil_of_length_pos (by omega)
      obtain ⟨chunks, rest, hCut, hChunks, hRest, hBegin⟩ :=
        begin_spec hNext (layout.lines ++ [layout.space]) layout.space part
      refine ⟨layout.space, chunks, rest, by rw [← hCut], hFirst, by omega, hChunks, by omega, ?_, ?_⟩
      · rw [fill, hUsed, if_neg hFits, if_neg hHalf, hRest]
      rw [if_neg (by omega), Layout.put]
      dsimp only
      rw [if_pos (by omega), pushLine_of_ne_nil _ hFirst, hBegin, List.append_assoc]
      rfl

/-! ### All parts -/

/-- What holds of the layout whether or not the lines fit. -/
structure Good (len nextlen : Nat) (layout : Layout) : Prop where
  thislen : layout.thislen = limit len nextlen layout.lines
  short : layout.line.length ≤ layout.thislen
  nonempty : ∀ line ∈ layout.lines, line ≠ []

theorem one_le_limit (hLen : 1 ≤ len) (hNext : 1 ≤ nextlen) (lines : List Text) :
    1 ≤ limit len nextlen lines := by
  rw [limit]
  split
  · exact hLen
  · exact hNext

theorem good_addPart (hLen : 1 ≤ len) (hNext : 1 ≤ nextlen) (hGood : Good len nextlen layout)
    (hSome : part ≠ []) : Good len nextlen (addPart nextlen layout part) := by
  have hPos : 1 ≤ layout.thislen := hGood.thislen ▸ one_le_limit hLen hNext layout.lines
  rcases addPart_cases hPos hNext hGood.short hSome with
    ⟨-, hShort, -, hAdd⟩ | ⟨first, chunks, rest, -, hFirst, -, hChunks, hRest, -, hAdd⟩
  · rw [hAdd]
    exact ⟨hGood.thislen, hShort, hGood.nonempty⟩
  · rw [hAdd]
    refine ⟨?_, hRest, ?_⟩
    · rw [limit, if_neg (List.append_ne_nil_of_right_ne_nil _ (List.cons_ne_nil first chunks))]
    · rw [List.forall_mem_append, List.forall_mem_cons]
      refine ⟨hGood.nonempty, hFirst, fun chunk hChunk => List.ne_nil_of_length_pos ?_⟩
      rw [hChunks chunk hChunk]
      exact hNext

theorem fill_addPart (hLen : 1 ≤ len) (hNext : 1 ≤ nextlen) (hGood : Good len nextlen layout)
    (hSome : part ≠ []) : fill nextlen (layout.line.length, layout.thislen) part.length =
      ((addPart nextlen layout part).line.length, (addPart nextlen layout part).thislen) := by
  have hPos : 1 ≤ layout.thislen := hGood.thislen ▸ one_le_limit hLen hNext layout.lines
  rcases addPart_cases hPos hNext hGood.short hSome with
    ⟨-, -, hFill, hAdd⟩ | ⟨first, chunks, rest, -, -, -, -, -, hFill, hAdd⟩
  · rw [hFill, hAdd]
  · rw [hFill, hAdd]

theorem fits_addPart_iff (hLen : 1 ≤ len) (hNext : 1 ≤ nextlen) (hGood : Good len nextlen layout)
    (hSome : part ≠ []) (hFits : Fits len nextlen layout.lines) :
    Fits len nextlen (addPart nextlen layout part).lines ↔ layout.line.length ≠ layout.thislen := by
  have hPos : 1 ≤ layout.thislen := hGood.thislen ▸ one_le_limit hLen hNext layout.lines
  rcases addPart_cases hPos hNext hGood.short hSome with
    ⟨hRoom, -, -, hAdd⟩ | ⟨first, chunks, rest, -, -, hFirst, hChunks, -, -, hAdd⟩
  · rw [hAdd]
    exact iff_of_true hFits hRoom
  · have hSplit : layout.lines ++ first :: chunks = (layout.lines ++ [first]) ++ chunks := by
      rw [List.append_assoc]
      rfl
    have hBegun : layout.lines ++ [first] ≠ [] :=
      List.append_ne_nil_of_right_ne_nil _ (List.cons_ne_nil first [])
    rw [hAdd, hSplit, fits_append hBegun, fits_concat, ← hGood.thislen, hFirst]
    refine ⟨fun hAll => hAll.1.2, fun hRoom => ⟨⟨hFits, hRoom⟩, fun chunk hChunk => ?_⟩⟩
    exact Nat.le_of_eq (hChunks chunk hChunk)

/-- The characters that have been laid out. -/
def Layout.text (layout : Layout) : Text := layout.lines.flatten ++ layout.line

theorem inked_append (val other : Text) : inked (val ++ other) = inked val ++ inked other := by
  rw [inked, inked, inked, List.filter_append]

theorem inked_space : inked layout.space = inked layout.line := by
  rw [Layout.space]
  split
  · rw [inked_append]
    exact List.append_nil _
  · rfl

theorem inked_addPart (hPos : 1 ≤ layout.thislen) (hNext : 1 ≤ nextlen)
    (hShort : layout.line.length ≤ layout.thislen) (hSome : part ≠ []) :
    inked (addPart nextlen layout part).text = inked layout.text ++ inked part := by
  have hText : ∀ lines : List Text, inked (lines.flatten ++ (layout.space ++ part)) =
      inked (lines.flatten ++ layout.line) ++ inked part := by
    intro lines
    rw [inked_append, inked_append, inked_space, inked_append, List.append_assoc]
  rcases addPart_cases hPos hNext hShort hSome with
    ⟨-, -, -, hAdd⟩ | ⟨first, chunks, rest, hText', -, -, -, -, -, hAdd⟩
  · rw [hAdd]
    exact hText layout.lines
  · rw [hAdd, Layout.text, Layout.text, ← hText, hText', List.flatten_append, List.flatten_cons,
      List.append_assoc, List.append_assoc]

theorem inked_words (val : Text) : inked (words val).flatten = inked val := by
  induction val with
  | nil => rfl
  | cons c val ih =>
    cases hSpace : isSpace c with
    | true =>
      rw [words_cons_space hSpace, ih, inked, inked, List.filter_cons_of_neg (by simp [hSpace])]
    | false =>
      have hInk : inked (c :: val) = c :: inked val := List.filter_cons_of_pos (by simp [hSpace])
      rw [hInk, ← ih]
      cases val with
      | nil =>
        rw [words, List.splitOnP_cons_eq_if_modifyHead, if_neg (ne_true_of_eq_false hSpace)]
        exact List.filter_cons_of_pos (by simp [hSpace])
      | cons d val =>
        cases hNext : isSpace d with
        | true =>
          rw [words_cons_first hSpace hNext, List.flatten_cons]
          exact List.filter_cons_of_pos (by simp [hSpace])
        | false =>
          obtain ⟨word, rest, hWords, hLonger⟩ := @words_cons_inner val c d hSpace hNext
          rw [hWords, hLonger, List.flatten_cons, List.flatten_cons, List.cons_append]
          exact List.filter_cons_of_pos (by simp [hSpace])

theorem good_start (len nextlen : Nat) : Good len nextlen (start len) :=
  ⟨rfl, Nat.zero_le len, nofun⟩

theorem parts_nonempty (val : Text) (layout : Layout) :
    Meets (addPart nextlen) (fun _ part => part ≠ []) layout (words val) := by
  have hSome : ∀ word ∈ words val, word ≠ [] := fun word hWord => words_ne_nil hWord
  revert layout
  generalize words val = parts at hSome
  induction parts with
  | nil => exact fun _ => trivial
  | cons part parts ih =>
    rw [List.forall_mem_cons] at hSome
    exact fun layout => ⟨hSome.1, ih hSome.2 _⟩

theorem good_run (hLen : 1 ≤ len) (hNext : 1 ≤ nextlen) {parts : List Text}
    (hParts : Meets (addPart nextlen) (fun _ part => part ≠ []) layout parts)
    (hGood : Good len nextlen layout) : Good len nextlen (runEvents (addPart nextlen) layout parts) :=
  hParts.invariant hGood fun _ _ hGood hSome => good_addPart hLen hNext hGood hSome

theorem inked_run (hLen : 1 ≤ len) (hNext : 1 ≤ nextlen) {parts : List Text}
    (hParts : Meets (addPart nextlen) (fun _ part => part ≠ []) layout parts)
    (hGood : Good len nextlen layout) :
    inked (runEvents (addPart nextlen) layout parts).text = inked layout.text ++ inked parts.flatten := by
  induction parts generalizing layout with
  | nil => exact (List.append_nil _).symm
  | cons part parts ih =>
    have hPos : 1 ≤ layout.thislen := hGood.thislen ▸ one_le_limit hLen hNext layout.lines
    have hPart := inked_addPart hPos hNext hGood.short hParts.1
    have hRest := ih hParts.2 (good_addPart hLen hNext hGood hParts.1)
    rw [List.flatten_cons, inked_append, ← List.append_assoc, ← hPart, ← hRest]
    rfl

/-- The lengths of the words say when a line is full. -/
theorem neverFull_iff (hLen : 1 ≤ len) (hNext : 1 ≤ nextlen) {parts : List Text}
    (hParts : Meets (addPart nextlen) (fun _ part => part ≠ []) layout parts)
    (hGood : Good len nextlen layout) :
    Meets (addPart nextlen) (fun layout _ => layout.line.length ≠ layout.thislen) layout parts ↔
      Meets (fill nextlen) (fun room _ => room.1 ≠ room.2) (layout.line.length, layout.thislen)
        (parts.map List.length) := by
  induction parts generalizing layout with
  | nil => rfl
  | cons part parts ih =>
    rw [List.map_cons, Meets, Meets, fill_addPart hLen hNext hGood hParts.1,
      ih hParts.2 (good_addPart hLen hNext hGood hParts.1)]

/-- No line is taken back. -/
theorem lines_run (hLen : 1 ≤ len) (hNext : 1 ≤ nextlen) {parts : List Text}
    (hParts : Meets (addPart nextlen) (fun _ part => part ≠ []) layout parts)
    (hGood : Good len nextlen layout) :
    layout.lines <+: (runEvents (addPart nextlen) layout parts).lines := by
  induction parts generalizing layout with
  | nil => exact List.prefix_refl _
  | cons part parts ih =>
    have hPos : 1 ≤ layout.thislen := hGood.thislen ▸ one_le_limit hLen hNext layout.lines
    refine List.IsPrefix.trans ?_ (ih hParts.2 (good_addPart hLen hNext hGood hParts.1))
    rcases addPart_cases hPos hNext hGood.short hParts.1 with
      ⟨-, -, -, hAdd⟩ | ⟨first, chunks, rest, -, -, -, -, -, -, hAdd⟩
    · rw [hAdd]
    · rw [hAdd]
      exact List.prefix_append _ _

theorem Fits.of_prefix {lines others : List Text} (hFits : Fits len nextlen others)
    (hPrefix : lines <+: others) : Fits len nextlen lines := by
  obtain ⟨rest, rfl⟩ := hPrefix
  cases lines with
  | nil => trivial
  | cons first lines => exact ((fits_append (List.cons_ne_nil first lines)).mp hFits).1

theorem fits_run_iff (hLen : 1 ≤ len) (hNext : 1 ≤ nextlen) (val : Text) :
    Fits len nextlen (runEvents (addPart nextlen) (start len) (words val)).lines ↔
      NeverFull val len nextlen := by
  have hGood := good_start len nextlen
  have hAlways := @Meets.iff_always_of_valid _ _ (addPart nextlen) _ _ (Good len nextlen)
    (fun layout => Fits len nextlen layout.lines)
    (fun _ _ hGood hSome _ => good_addPart hLen hNext hGood hSome)
    (fun _ _ hGood hSome hFits => fits_addPart_iff hLen hNext hGood hSome hFits)
    (words val) (start len) hGood trivial (parts_nonempty val (start len))
  refine Iff.trans ?_ (neverFull_iff hLen hNext (parts_nonempty val (start len)) hGood)
  refine Iff.trans ⟨fun hFits seen hSeen => ?_, fun hAll => hAll _ (List.prefix_refl _)⟩ hAlways
  obtain ⟨rest, hWords⟩ := hSeen
  have hParts := @parts_nonempty nextlen val (start len)
  rw [← hWords] at hParts
  rw [← hWords, runEvents_append] at hFits
  have hSplit := hParts.of_append
  exact hFits.of_prefix (lines_run hLen hNext hSplit.2 (good_run hLen hNext hSplit.1 hGood))

theorem mem_pushLine {lines : List Text} {line other : Text} (hOther : other ∈ pushLine lines line) :
    other ∈ lines ∨ other = line ∧ line ≠ [] := by
  rw [pushLine] at hOther
  split at hOther
  · next hSome =>
    rcases List.mem_append.mp hOther with hOld | hNew
    · exact .inl hOld
    · exact .inr ⟨List.mem_singleton.mp hNew, hSome⟩
  · exact .inl hOther

theorem pushLine_flatten (lines : List Text) (line : Text) :
    (pushLine lines line).flatten = lines.flatten ++ line := by
  rw [pushLine]
  split
  · rw [List.flatten_append, List.flatten_singleton]
  · next hNone =>
    rw [not_not.mp hNone, List.append_nil]

theorem Good.fits_pushLine (hGood : Good len nextlen layout) :
    Fits len nextlen (pushLine layout.lines layout.line) ↔ Fits len nextlen layout.lines := by
  rw [pushLine]
  split
  · rw [fits_concat, ← hGood.thislen]
    exact and_iff_left hGood.short
  · rfl

/-- The lines are as they should be exactly if no line was full when a further word came. -/
theorem linebreakText_iff (val : Text) (hLen : 1 ≤ len) (hNext : 1 ≤ nextlen) :
    BreakOf val len nextlen (linebreakText val len (some nextlen)) ↔ NeverFull val len nextlen := by
  have hStart := good_start len nextlen
  have hParts := @parts_nonempty nextlen val (start len)
  have hGood := good_run hLen hNext hParts hStart
  have hText := inked_run hLen hNext hParts hStart
  have hFits := fits_run_iff hLen hNext val
  have hLines : linebreakText val len (some nextlen) =
      pushLine (runEvents (addPart nextlen) (start len) (words val)).lines
        (runEvents (addPart nextlen) (start len) (words val)).line := by
    rw [linebreakText, lineParts_eq_words]
    rfl
  rw [hLines]
  constructor
  · intro hBreak
    exact hFits.mp (hGood.fits_pushLine.mp hBreak.fits)
  · intro hNever
    refine ⟨hGood.fits_pushLine.mpr (hFits.mpr hNever), fun line hLine => ?_, ?_⟩
    · rcases mem_pushLine hLine with hOld | ⟨rfl, hSome⟩
      · exact hGood.nonempty line hOld
      · exact hSome
    · rw [pushLine_flatten]
      exact hText.trans (inked_words val)

/-- A line of five characters, then lines of four. -/
theorem linebreakText_fits : 1 ≤ 5 ∧ 1 ≤ 4 ∧
    (BreakOf ['a', ' ', 'b', 'c', 'd', ' ', 'e'] 5 4
      (linebreakText ['a', ' ', 'b', 'c', 'd', ' ', 'e'] 5 (some 4)) ↔
        NeverFull ['a', ' ', 'b', 'c', 'd', ' ', 'e'] 5 4) :=
  ⟨by decide, by decide, linebreakText_iff _ (by decide) (by decide)⟩

/-- The blank is put behind a line that is full. -/
theorem not_linebreakText_full :
    ¬BreakOf ['a', 'b', ' ', 'c'] 2 2 (linebreakText ['a', 'b', ' ', 'c'] 2 (some 2)) :=
  fun hBreak => absurd hBreak.fits.1 (by decide)

end PageCamel.Helpers.Linebreak

import PageCamel.Lib.Fields
import Mathlib.Data.List.DropRight
import Mathlib.Data.List.Infix
import Mathlib.Tactic.Common

/-!
The dialogs of a template (`Helpers/TemplateEngine/Main.pm`, `parseAutoDialogs`). Each tag
`[% dialog.name( ... %]` is cut out and described to the generator
(`Helpers/AutoDialogs.pm`), whose snippets are put in for two other tags.
-/

namespace PageCamel.Helpers.TemplateEngine

abbrev Text := List Char

/-- The class `\s`. -/
def isSpace (c : Char) : Bool :=
  c = ' ' ∨ (0x09 ≤ c.val ∧ c.val ≤ 0x0D) ∨ c.val = 0x85 ∨ c.val = 0xA0 ∨ c.val = 0x1680 ∨
    (0x2000 ≤ c.val ∧ c.val ≤ 0x200A) ∨ c.val = 0x2028 ∨ c.val = 0x2029 ∨ c.val = 0x202F ∨
    c.val = 0x205F ∨ c.val = 0x3000

/-- The class `\w`, with the table of the word characters that are not ASCII. -/
def isWord (table : Char → Bool) (c : Char) : Bool :=
  if c.val < 0x80 then c.isAlphanum || c = '_' else table c

/-! ### Strings -/

/-- Runs of white space become one blank. -/
def collapse : Bool → Text → Text
  | _, [] => []
  | inRun, c :: s =>
      if isSpace c then if inRun then collapse true s else ' ' :: collapse true s
      else c :: collapse false s

/-- `stripString`. -/
def stripString (val : Option Text) : Text :=
  collapse false (((val.getD []).dropWhile isSpace).rdropWhile isSpace)

def dropPrefix (c : Char) : Text → Text
  | [] => []
  | b :: s => if b = c then s else b :: s

def dropSuffix (c : Char) (s : Text) : Text := (dropPrefix c s.reverse).reverse

/-- What a pattern captures at the leftmost place where it matches. -/
def firstMatch {α : Type} (pattern : Text → Option α) : Text → Option α
  | [] => pattern []
  | c :: s => (pattern (c :: s)).orElse fun _ => firstMatch pattern s

def dropLiteral (literal s : Text) : Option Text :=
  if literal.isPrefixOf s then some (s.drop literal.length) else none

/-- The fields before and behind the first `=>`. -/
def cutArrow : Text → Text × Option Text
  | [] => ([], none)
  | '=' :: '>' :: s => ([], some s)
  | c :: s => (c :: (cutArrow s).1, (cutArrow s).2)

/-! ### Tags -/

/-- `\s+`. -/
def blanks (s : Text) : Option Text :=
  if (s.head?.any isSpace) then some (s.dropWhile isSpace) else none

/-- `\[\%\s+name\s+\%\]`. -/
def hasTag (name : String) (line : Text) : Bool :=
  (firstMatch (fun s => (dropLiteral ['[', '%'] s).bind blanks |>.bind (dropLiteral name.toList)
    |>.bind blanks |>.bind (dropLiteral ['%', ']'])) line).isSome

/-- `\[\%\ +dialog\.(\w+)\ *\(`, for the name. -/
def dialogTag (table : Char → Bool) : Text → Option Text :=
  firstMatch fun s => do
    let s ← dropLiteral ['[', '%', ' '] s
    let s ← dropLiteral ['d', 'i', 'a', 'l', 'o', 'g', '.'] (s.dropWhile (· = ' '))
    let dialogname := s.takeWhile (isWord table)
    if dialogname ≠ [] ∧ ((s.dropWhile (isWord table)).dropWhile (· = ' ')).head? = some '(' then
      some dialogname
    else none

/-- `s/^(.+?)\(//`. -/
def argumentsOf : Text → Text
  | [] => []
  | c :: s =>
      match s.dropWhile (· ≠ '(') with
      | [] => c :: s
      | _ :: arguments => arguments

/-- `/\%\]/`. -/
def hasClose (line : Text) : Bool := (firstMatch (dropLiteral ['%', ']']) line).isSome

/-- `s/\%\]//`. -/
def removeClose : Text → Text
  | [] => []
  | '%' :: ']' :: s => s
  | c :: s => c :: removeClose s

/-! ### The generator -/

/-- A hash, with the values set last first. -/
abbrev Config := List (Text × Text)

def Config.get (config : Config) (key : String) : Option Text := config.lookup key.toList

/-- The dialogs added so far. -/
abbrev AutoDialogs := List Config

/-- The texts that `getJS` and `getHTML` make for the dialogs. -/
structure Snippets where
  js : AutoDialogs → Text
  html : AutoDialogs → Text

/-- What makes `notification`, `simpleform` and `modechangeform` croak. -/
def Config.check (config : Config) : Except String Unit :=
  if config.get "type" = some "notification".toList ∨
      config.get "type" = some "simpleform".toList then
    if config.get "name" = none then throw "undefined value name, can't continue" else pure ()
  else if config.get "type" = some "modechangeform".toList then
    if config.get "name" = none then throw "undefined value name, can't continue"
    else if config.get "mode" = none then throw "undefined value mode, can't continue"
    else pure ()
  else throw ("Unknown AutoDialog type " ++ String.ofList ((config.get "type").getD []))

def addDialog (generator : AutoDialogs) (config : Config) : Except String AutoDialogs := do
  config.check
  return generator ++ [config]

/-! ### `parseAutoDialogs` -/

/-- The key and the value on one line of a tag. -/
def addArgument (config : Config) (line : Text) : Config :=
  let line := dropSuffix ',' (stripString (some line))
  let key := stripString (some (cutArrow line).1)
  let val := stripString ((cutArrow line).2.map fun rest => (cutArrow rest).1)
  let val := stripString (some (dropSuffix ')' val))
  (key, dropSuffix '"' (dropPrefix '"' val)) :: config

/-- The inner loop, for so many turns. Behind the last line `shift` gives nothing, which
matches like an empty line. -/
def readDialog : Nat → Option Text → List Text → Config → Option (Config × List Text)
  | 0, _, _, _ => none
  | turns + 1, line, oldlines, config =>
      let readfinished := hasClose (line.getD [])
      let line := if readfinished then removeClose (line.getD []) else line.getD []
      let config := addArgument config line
      if readfinished then some (config, oldlines)
      else readDialog turns oldlines.head? oldlines.tail config

structure Scan where
  newlines : List Text := []
  generator : AutoDialogs := []
  hasautodialogshtmltag : Bool := false
  hasautodialogsjstag : Bool := false
  autodialogcount : Nat := 0

def Scan.seeLine (st : Scan) (line : Text) : Scan :=
  { st with
    hasautodialogshtmltag := st.hasautodialogshtmltag || hasTag "AutoDialogsHTML" line
    hasautodialogsjstag := st.hasautodialogsjstag || hasTag "AutoDialogsJS" line }

/-- The line that is kept, unless it is empty. -/
def Scan.pushLine (st : Scan) (line : Text) : Scan :=
  if line = [] then st else { st with newlines := st.newlines ++ [line] }

/-- The loop over the lines, for so many turns. -/
def scan (table : Char → Bool) : Nat → List Text → Scan → Option (Except String Scan)
  | 0, _, _ => none
  | _ + 1, [], st => some (.ok st)
  | turns + 1, line :: oldlines, st =>
      let st := st.seeLine line
      match dialogTag table line with
      | none => scan table turns oldlines (st.pushLine line)
      | some dialogname =>
          match readDialog turns (some (argumentsOf line)) oldlines
              [("type".toList, dialogname)] with
          | none => none
          | some (config, oldlines) =>
              match addDialog st.generator config with
              | .error message => some (.error message)
              | .ok generator =>
                  scan table turns oldlines
                    { st with generator, autodialogcount := st.autodialogcount + 1 }

/-- One line of the second loop, and whether the snippets were put in. -/
def insertSnippets (js html : Text) (jstag : Bool) (line : Text) : List Text × Bool × Bool :=
  let htmlinserted := hasTag "AutoDialogsHTML" line
  let line := if htmlinserted then html else line
  if jstag then
    if hasTag "AutoDialogsJS" line then ([js], htmlinserted, true) else ([line], htmlinserted, false)
  else if (firstMatch (dropLiteral "</script".toList) line).isSome then
    ([js, line], htmlinserted, true)
  else ([line], htmlinserted, false)

def joinLines (lines : List Text) : Text := List.intercalate ['\n'] lines

def finish (snippets : Snippets) (fname : String) (st : Scan) : Except String Text := do
  if st.autodialogcount = 0 then return joinLines st.newlines
  let js := snippets.js st.generator
  let html := snippets.html st.generator
  let inserted := st.newlines.map (insertSnippets js html st.hasautodialogsjstag)
  let newlines := inserted.flatMap (·.1) ++ if st.hasautodialogshtmltag then [] else [html]
  if st.hasautodialogshtmltag ∧ !inserted.any (·.2.1) then
    throw ("Coudln't insert Autoform HTML in " ++ fname)
  if !inserted.any (·.2.2) then throw ("Coudln't insert Autoform JS in " ++ fname)
  return joinLines newlines

/-- `split/\n/`: empty lines at the end are dropped. -/
def splitLines (data : Text) : List Text := (data.splitOn '\n').rdropWhile List.isEmpty

/-- `parseAutoDialogs`, with so many turns for each loop. -/
def parseAutoDialogs (table : Char → Bool) (snippets : Snippets) (turns : Nat) (fname : String)
    (data : Text) : Option (Except String Text) :=
  (scan table turns (splitLines data) {}).map fun result => result.bind (finish snippets fname)

/-! ### Closed tags -/

/-- The lines of a tag, up to the one that closes it, and the lines behind that one. -/
def tagLines : Text → List Text → Option (List Text × List Text)
  | line, [] => if hasClose line then some ([line], []) else none
  | line, next :: oldlines =>
      if hasClose line then some ([line], next :: oldlines)
      else (tagLines next oldlines).map fun found => (line :: found.1, found.2)

/-- What a tag describes to the generator. -/
def tagConfig (dialogname : Text) (lines : List Text) : Config :=
  lines.foldl (fun config line =>
    addArgument config (if hasClose line then removeClose line else line))
    [("type".toList, dialogname)]

/-- Every tag that the loop comes to is closed. A dialog that the generator does not know or
that lacks a value is the last it comes to. -/
inductive TagsClosed (table : Char → Bool) : List Text → Prop
  | nil : TagsClosed table []
  | text {line : Text} {oldlines : List Text} (hText : dialogTag table line = none)
      (hRest : TagsClosed table oldlines) : TagsClosed table (line :: oldlines)
  | tag {line dialogname : Text} {oldlines lines rest : List Text}
      (hTag : dialogTag table line = some dialogname)
      (hLines : tagLines (argumentsOf line) oldlines = some (lines, rest))
      (hRest : (tagConfig dialogname lines).check = .ok () → TagsClosed table rest) :
      TagsClosed table (line :: oldlines)

def HasDialogTag (table : Char → Bool) (data : Text) : Prop :=
  ∃ line ∈ splitLines data, (dialogTag table line).isSome

/-- The loop over the arguments of a tag that is not closed has no end. -/
theorem readDialog_exhausted (turns : Nat) (config : Config) :
    readDialog turns none [] config = none := by
  induction turns generalizing config with
  | zero => rfl
  | succ turns ih => exact ih _

theorem tagLines_of_readDialog {turns : Nat} {line : Text} {oldlines rest : List Text}
    {config config' : Config}
    (hRead : readDialog turns (some line) oldlines config = some (config', rest)) :
    ∃ lines, tagLines line oldlines = some (lines, rest) ∧
      config' = lines.foldl (fun config line =>
        addArgument config (if hasClose line then removeClose line else line)) config := by
  induction turns generalizing line oldlines config with
  | zero => cases hRead
  | succ turns ih =>
      rw [readDialog] at hRead
      by_cases hClose : hasClose line
      · simp only [Option.getD_some, hClose, if_true, Option.some.injEq, Prod.mk.injEq] at hRead
        obtain ⟨rfl, rfl⟩ := hRead
        refine ⟨[line], ?_, by simp [hClose]⟩
        cases oldlines <;> simp [tagLines, hClose]
      · simp only [Option.getD_some, hClose, Bool.false_eq_true, if_false] at hRead
        cases oldlines with
        | nil =>
            rw [List.head?_nil, List.tail_nil, readDialog_exhausted] at hRead
            cases hRead
        | cons next oldlines =>
            rw [List.head?_cons, List.tail_cons] at hRead
            obtain ⟨lines, hLines, rfl⟩ := ih hRead
            refine ⟨line :: lines, ?_, by simp [hClose]⟩
            rw [tagLines, if_neg hClose, hLines]
            rfl

theorem readDialog_of_tagLines {turns : Nat} {line : Text} {oldlines lines rest : List Text}
    (hLines : tagLines line oldlines = some (lines, rest)) (hTurns : oldlines.length < turns)
    (config : Config) :
    readDialog turns (some line) oldlines config =
      some (lines.foldl (fun config line =>
        addArgument config (if hasClose line then removeClose line else line)) config, rest) := by
  induction turns generalizing line oldlines lines config with
  | zero => exact absurd hTurns (Nat.not_lt_zero _)
  | succ turns ih =>
      rw [readDialog]
      by_cases hClose : hasClose line
      · have hFound : tagLines line oldlines = some ([line], oldlines) := by
          cases oldlines <;> simp [tagLines, hClose]
        cases hFound.symm.trans hLines
        simp [hClose]
      · cases oldlines with
        | nil => simp [tagLines, hClose] at hLines
        | cons next oldlines =>
            rw [tagLines, if_neg hClose, Option.map_eq_some_iff] at hLines
            obtain ⟨found, hNext, hFound⟩ := hLines
            cases hFound
            have := ih hNext (Nat.lt_of_succ_lt_succ hTurns)
            simp [hClose, this]

theorem length_of_tagLines {line : Text} {oldlines lines rest : List Text}
    (hLines : tagLines line oldlines = some (lines, rest)) : rest.length ≤ oldlines.length := by
  induction oldlines generalizing line lines with
  | nil =>
      rw [tagLines] at hLines
      split at hLines
      · cases hLines
        exact Nat.le_refl _
      · cases hLines
  | cons next oldlines ih =>
      rw [tagLines] at hLines
      split at hLines
      · cases hLines
        exact Nat.le_refl _
      · obtain ⟨found, hNext, hFound⟩ := Option.map_eq_some_iff.mp hLines
        cases hFound
        exact Nat.le_succ_of_le (ih hNext)

theorem addDialog_of_check {generator : AutoDialogs} {config : Config}
    (hCheck : config.check = .ok ()) :
    addDialog generator config = .ok (generator ++ [config]) := by
  rw [addDialog, hCheck]
  rfl

theorem addDialog_of_refused {generator : AutoDialogs} {config : Config} {message : String}
    (hCheck : config.check = .error message) : addDialog generator config = .error message := by
  rw [addDialog, hCheck]
  rfl

/-! ### The end of the scan -/

theorem tagsClosed_of_scan {table : Char → Bool} {turns : Nat} {oldlines : List Text} {st : Scan}
    {result : Except String Scan} (hScan : scan table turns oldlines st = some result) :
    TagsClosed table oldlines := by
  induction turns generalizing oldlines st with
  | zero => cases hScan
  | succ turns ih =>
      cases oldlines with
      | nil => exact .nil
      | cons line oldlines =>
          rw [scan] at hScan
          cases hTag : dialogTag table line with
          | none =>
              rw [hTag] at hScan
              exact .text hTag (ih hScan)
          | some dialogname =>
              simp only [hTag] at hScan
              cases hRead : readDialog turns (some (argumentsOf line)) oldlines
                  [("type".toList, dialogname)] with
              | none =>
                  simp only [hRead] at hScan
                  cases hScan
              | some found =>
                  obtain ⟨lines, hLines, hConfig⟩ := tagLines_of_readDialog hRead
                  refine .tag hTag hLines fun hCheck => ?_
                  rw [tagConfig, ← hConfig] at hCheck
                  simp only [hRead, addDialog_of_check hCheck] at hScan
                  exact ih hScan

theorem scan_of_tagsClosed {table : Char → Bool} {turns : Nat} {oldlines : List Text}
    (hClosed : TagsClosed table oldlines) (hTurns : oldlines.length < turns) (st : Scan) :
    ∃ result, scan table turns oldlines st = some result := by
  induction hClosed generalizing turns st with
  | nil =>
      obtain ⟨turns, rfl⟩ := Nat.exists_eq_succ_of_ne_zero (Nat.ne_zero_of_lt hTurns)
      exact ⟨_, rfl⟩
  | text hText _ ih =>
      obtain ⟨turns, rfl⟩ := Nat.exists_eq_succ_of_ne_zero (Nat.ne_zero_of_lt hTurns)
      rw [scan, hText]
      exact ih (Nat.lt_of_succ_lt_succ hTurns) _
  | @tag line dialogname oldlines lines rest hTag hLines _ ih =>
      obtain ⟨turns, rfl⟩ := Nat.exists_eq_succ_of_ne_zero (Nat.ne_zero_of_lt hTurns)
      have hLeft := Nat.lt_of_succ_lt_succ hTurns
      simp only [scan, hTag, readDialog_of_tagLines hLines hLeft]
      rw [← tagConfig]
      cases hCheck : (tagConfig dialogname lines).check with
      | error message => exact ⟨.error message, by rw [addDialog_of_refused hCheck]⟩
      | ok _ =>
          rw [addDialog_of_check hCheck]
          exact ih hCheck (Nat.lt_of_le_of_lt (length_of_tagLines hLines) hLeft) _

/-! ### Templates without dialogs -/

theorem plain_of_scan {table : Char → Bool} {turns : Nat} {oldlines : List Text} {st : Scan}
    {result : Except String Scan} (hPlain : ∀ line ∈ oldlines, dialogTag table line = none)
    (hScan : scan table turns oldlines st = some result) :
    ∃ st', result = .ok st' ∧ st'.newlines = st.newlines ++ oldlines.filter (· ≠ []) ∧
      st'.autodialogcount = st.autodialogcount := by
  induction turns generalizing oldlines st with
  | zero => cases hScan
  | succ turns ih =>
      cases oldlines with
      | nil =>
          cases hScan
          exact ⟨st, rfl, (List.append_nil _).symm, rfl⟩
      | cons line oldlines =>
          rw [scan, hPlain line List.mem_cons_self] at hScan
          obtain ⟨st', rfl, hLines, hCount⟩ :=
            ih (fun next hNext => hPlain next (List.mem_cons_of_mem _ hNext)) hScan
          refine ⟨st', rfl, ?_, ?_⟩
          · rw [hLines, Scan.pushLine]
            by_cases hEmpty : line = []
            · simp [hEmpty, Scan.seeLine]
            · simp [hEmpty, Scan.seeLine]
          · rw [hCount, Scan.pushLine]
            split <;> rfl

theorem parse_plain {table : Char → Bool} {snippets : Snippets} {turns : Nat} {fname : String}
    {data : Text} {result : Except String Text} (hPlain : ¬ HasDialogTag table data)
    (hParse : parseAutoDialogs table snippets turns fname data = some result) :
    result = .ok (joinLines ((splitLines data).filter (· ≠ []))) := by
  obtain ⟨scanned, hScan, rfl⟩ := Option.map_eq_some_iff.mp hParse
  have hLines : ∀ line ∈ splitLines data, dialogTag table line = none := fun line hLine =>
    Option.not_isSome_iff_eq_none.mp fun hTag => hPlain ⟨line, hLine, hTag⟩
  obtain ⟨st, rfl, hNew, hCount⟩ := plain_of_scan hLines hScan
  show finish snippets fname st = _
  rw [finish, if_pos hCount, hNew]
  rfl

/-- The lines put together are the text again just when no line was dropped. -/
theorem joinLines_eq_iff (data : Text) :
    joinLines ((splitLines data).filter (· ≠ [])) = data ↔
      data = [] ∨ [] ∉ data.splitOn '\n' := by
  constructor
  · intro hJoin
    by_cases hData : data = []
    · exact .inl hData
    · right
      have hSome : (splitLines data).filter (· ≠ []) ≠ [] := by
        intro hNone
        rw [hNone] at hJoin
        exact hData hJoin.symm
      have hClean : ∀ line ∈ (splitLines data).filter (· ≠ []), '\n' ∉ line := fun line hLine =>
        Lib.Fields.not_mem_of_mem_fields (List.mem_of_mem_filter hLine)
      have hSplit : data.splitOn '\n' = (splitLines data).filter (· ≠ []) := by
        conv_lhs => rw [← hJoin, joinLines]
        exact List.splitOn_intercalate '\n' hClean hSome
      rw [hSplit]
      intro hEmpty
      simpa using List.of_mem_filter hEmpty
  · rintro (rfl | hFull)
    · rfl
    · have hNone : ∀ line ∈ data.splitOn '\n', line ≠ [] := fun line hLine hEmpty =>
        hFull (hEmpty ▸ hLine)
      have hLines : splitLines data = data.splitOn '\n' := by
        refine List.rdropWhile_eq_self_iff.mpr fun hSome => ?_
        rw [List.isEmpty_iff]
        exact hNone _ (List.getLast_mem hSome)
      rw [hLines, List.filter_eq_self.mpr fun line hLine => decide_eq_true (hNone line hLine),
        joinLines, List.intercalate_splitOn]

/-- `parseAutoDialogs` comes to an end, and leaves a template without dialogs alone, just
when the tags that it comes to are closed and no line without text is lost. -/
theorem parseAutoDialogs_iff (table : Char → Bool) (snippets : Snippets) (fname : String)
    (data : Text) :
    (∃ turns result, parseAutoDialogs table snippets turns fname data = some result ∧
      (¬ HasDialogTag table data → result = .ok data)) ↔
    TagsClosed table (splitLines data) ∧
      (HasDialogTag table data ∨ data = [] ∨ [] ∉ data.splitOn '\n') := by
  constructor
  · rintro ⟨turns, result, hParse, hSame⟩
    obtain ⟨scanned, hScan, -⟩ := Option.map_eq_some_iff.mp hParse
    refine ⟨tagsClosed_of_scan hScan, or_iff_not_imp_left.mpr fun hPlain => ?_⟩
    have hJoined := parse_plain hPlain hParse
    rw [hSame hPlain] at hJoined
    exact (joinLines_eq_iff data).mp (Except.ok.inj hJoined).symm
  · rintro ⟨hClosed, hWhole⟩
    obtain ⟨scanned, hScan⟩ := scan_of_tagsClosed hClosed (Nat.lt_succ_self _) {}
    have hParse : parseAutoDialogs table snippets _ fname data = some _ :=
      Option.map_eq_some_iff.mpr ⟨scanned, hScan, rfl⟩
    refine ⟨_, _, hParse, fun hPlain => ?_⟩
    rw [parse_plain hPlain hParse, (joinLines_eq_iff data).mpr (hWhole.resolve_left hPlain)]

/-- A tag that is not closed, at the end of a template. -/
theorem not_parse_unclosed (table : Char → Bool) (snippets : Snippets) (fname : String) :
    ¬ ∃ turns result, parseAutoDialogs table snippets turns fname
      "[% dialog.notification(".toList = some result := by
  rintro ⟨turns, result, hParse⟩
  obtain ⟨scanned, hScan, -⟩ := Option.map_eq_some_iff.mp hParse
  have hLine : splitLines "[% dialog.notification(".toList = ["[% dialog.notification(".toList] := by
    decide +kernel
  have hTag : dialogTag table "[% dialog.notification(".toList = some "notification".toList := rfl
  have hOpen : tagLines (argumentsOf "[% dialog.notification(".toList) [] = none := by
    decide +kernel
  have hClosed := tagsClosed_of_scan hScan
  rw [hLine] at hClosed
  cases hClosed with
  | text hText => rw [hTag] at hText; cases hText
  | tag _ hLines => rw [hOpen] at hLines; cases hLines

/-- Not every template is parsed in the end. -/
theorem parseAutoDialogs_unclosed :
    ¬ ∀ (table : Char → Bool) (snippets : Snippets) (fname : String) (data : Text),
      ∃ turns result, parseAutoDialogs table snippets turns fname data = some result ∧
        (¬ HasDialogTag table data → result = .ok data) := by
  intro hAll
  obtain ⟨turns, result, hParse, -⟩ := hAll (fun _ => false) ⟨fun _ => [], fun _ => []⟩ "page.tt"
    "[% dialog.notification(".toList
  exact not_parse_unclosed _ _ _ ⟨turns, result, hParse⟩

end PageCamel.Helpers.TemplateEngine

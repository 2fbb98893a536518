import PageCamel.Lib.Cuts
import PageCamel.WebBase.Params
import Mathlib.Data.Bool.AllAny

/-!
The body of a posted form (`parse_post_data` of `WebBase.pm`), urlencoded or in parts. The
boundary between parts is taken for a pattern, and a third value that comes with a file makes
an array in an array.
-/

namespace PageCamel.WebBase.PostData

open Lib (Octets)
open Lib.Fields Lib.Cuts Helpers Helpers.URI Helpers.UTF Params

/-! ### The boundary as a pattern -/

inductive Atom
  | char (c : Char)
  | any
  deriving DecidableEq, Repr

def Atom.accepts : Atom → Char → Bool
  | char c, d => d = c
  | any, d => d ≠ '\n'

/-- An atom with the plus signs behind it: one is greedy, two keep what they took. -/
structure Item where
  atom : Atom
  pluses : Nat
  deriving DecidableEq, Repr

/-- Characters with another meaning in a pattern; no token has them. -/
def special : Text := ['\\', '^', '$', '|', '(', ')', '[', ']', '\x7b', '\x7d', '*', '?']

/-- The items of a pattern, and the plus signs in front of them. -/
def readItems : Text → Option (List Item × Nat)
  | [] => some ([], 0)
  | c :: text =>
      match readItems text with
      | none => none
      | some (items, pluses) =>
          if c = '+' then if pluses < 2 then some (items, pluses + 1) else none
          else if c ∈ special then none
          else some ({ atom := if c = '.' then .any else .char c, pluses } :: items, 0)

/-- There is nothing for a nested quantifier, with which `split` dies, nor for a pattern with
other special characters. -/
def compile (boundary : Text) : Option (List Item) :=
  match readItems boundary with
  | some (items, 0) => some items
  | _ => none

/-- The length of the match at the start of a text, longer ones of a greedy item first. -/
def matchItems : List Item → Text → Option Nat
  | [], _ => some 0
  | ⟨_, 0⟩ :: _, [] => none
  | ⟨atom, 0⟩ :: items, c :: text =>
      if atom.accepts c then (matchItems items text).map (· + 1) else none
  | ⟨atom, 1⟩ :: items, text =>
      (List.range (text.takeWhile atom.accepts).length).reverse.findSome? fun k =>
        (matchItems items (text.drop (k + 1))).map (· + (k + 1))
  | ⟨atom, _⟩ :: items, text =>
      let run := text.takeWhile atom.accepts
      if run = [] then none else (matchItems items (text.drop run.length)).map (· + run.length)

/-! ### Strings -/

/-- `s/^\r\n//` -/
def withoutFirstCrlf : Text → Text
  | '\r' :: '\n' :: s => s
  | s => s

/-- `s/\r\n$//`; the end may be in front of a last line feed. -/
def withoutLastCrlf : Text → Text
  | [] => []
  | ['\r', '\n'] => []
  | ['\r', '\n', '\n'] => ['\n']
  | c :: s => c :: withoutLastCrlf s

/-- `split/\r\n/, $part, 2` -/
def splitLine : Text → Text × Option Text
  | [] => ([], none)
  | '\r' :: '\n' :: s => ([], some s)
  | c :: s => (c :: (splitLine s).1, (splitLine s).2)

/-- `^(.+?)` and what stands behind it: the shortest text in front of `sep`, and the rest. -/
def upTo (sep : Text) : Text → Option (Text × Text)
  | [] => none
  | c :: s =>
      if c = '\n' then none
      else if sep <+: s then some ([c], s.drop sep.length)
      else (upTo sep s).map fun found => (c :: found.1, found.2)

/-- `/^(.+?)\:\ (.+?)\; (.*)/` -/
def disposition (pline : Text) : Option (Text × Text × Text) :=
  (upTo [':', ' '] pline).bind fun (hname, rest) =>
    (upTo [';', ' '] rest).map fun (htype, rest) => (hname, htype, rest.takeWhile (· ≠ '\n'))

/-- `s/^\"//` and `s/\"$//` -/
def unquote (pval : Text) : Text :=
  let pval := if pval.head? = some '"' then pval.tail else pval
  if pval.getLast? = some '"' then pval.dropLast else pval

def setParam (pparams : Text → Option Text) (ppart : Text) : Text → Option Text :=
  Function.update pparams (ppart.takeWhile (· ≠ '='))
    (match ppart.dropWhile (· ≠ '=') with
      | [] => none
      | _ :: pval => some (unquote pval))

def pparams (params : Text) : Text → Option Text :=
  ((cut (literal [';', ' ']) 0 params).rdropWhile List.isEmpty).foldl setParam fun _ => none

/-- `s/^.*\\//`: "discarding the path of the filename". -/
def withoutPath (filename : Text) : Text := (filename.reverse.takeWhile (· ≠ '\\')).reverse

/-- `s/^Content-Type\:\ (.+?)\r\n\r\n//`: the type, and what is left. -/
def typeAndData (pcontent : Text) : Option (Text × Text) :=
  if "Content-Type: ".toList <+: pcontent then upTo ['\r', '\n', '\r', '\n'] (pcontent.drop 14)
  else none

/-! ### Parts -/

structure File where
  type : Text
  data : Text
  deriving DecidableEq, Repr

structure Posted where
  postparams : Hash := .empty
  files : Text → Option File := fun _ => none
  ok : Bool := true

/-- What holds arrays is asked for in `files`, where there are none. -/
def pushFile (filename : Scalar) : Option Value → Value
  | none | some (.scalar .undef) => .scalar filename
  | some tempval => .array tempval [filename]

def Posted.addFile (posted : Posted) (name filename : Text) (file : File) : Posted :=
  { posted with
    files := Function.update posted.files filename (some file)
    postparams := Function.update posted.postparams name
      (some (pushFile (.octets filename) (posted.postparams name))) }

def Posted.addField (posted : Posted) (name : Text) (pcontent : Scalar) : Posted :=
  { posted with postparams := posted.postparams.collect (name, pcontent) }

/-- One part; nothing where the loop ends with an error. -/
def parsePart (posted : Posted) (part : Text) : Option Posted :=
  let part := withoutLastCrlf (withoutFirstCrlf part)
  if part = [] ∨ part = ['-', '-'] then some posted
  else
    match disposition (splitLine part).1 with
    | none => none
    | some (hname, htype, params) =>
        if hname ≠ "Content-Disposition".toList ∨ htype ≠ "form-data".toList then none
        else
          let name := (pparams params "name".toList).getD []
          match pparams params "filename".toList with
          | some filename =>
              match (splitLine part).2.bind typeAndData with
              | some (type, data) => some (posted.addFile name (withoutPath filename) { type, data })
              | none => some { posted with ok := false }
          | none =>
              some (posted.addField name
                ((splitLine part).2.elim .undef fun pcontent => .octets (withoutFirstCrlf pcontent)))

def parseParts (posted : Posted) : List Text → Posted
  | [] => posted
  | part :: parts =>
      match parsePart posted part with
      | none => { posted with ok := false }
      | some posted => parseParts posted parts

/-- `/^multipart\/form\-data\;\ boundary\=(.+)/` -/
def boundaryOf (contentType : Text) : Option Text :=
  if "multipart/form-data; boundary=".toList <+: contentType then
    let boundary := (contentType.drop 30).takeWhile (· ≠ '\n')
    if boundary = [] then none else some boundary
  else none

section Parse
variable (malformed : Text → Text)

/-- There is nothing where `split` dies. -/
def parsePostData (contentType : Option Text) (method postdata : Text) : Option Posted :=
  let posted : Option Posted :=
    match contentType with
    | none => some {}
    | some contentType =>
        if "application/x-www-form-urlencoded".toList <:+: contentType ∧ method = "POST".toList then
          some { postparams := urlencoded malformed postdata }
        else
          match boundaryOf contentType with
          | none => some {}
          | some boundary =>
              (compile ('-' :: '-' :: boundary)).map fun items =>
                parseParts {} ((cut (matchItems items) 0 postdata).rdropWhile List.isEmpty)
  posted.map fun posted => { posted with postparams := posted.postparams.decode malformed }

end Parse

/-! ### Urlencoded forms -/

variable {malformed : Text → Text}

/-- The parameters of a form are those of the list, in their order. -/
theorem values_urlencoded {pairs : List Pair} {form : Text} (hForm : EncodesForm pairs form)
    (name : Text) : ((urlencoded malformed form).decode malformed).values name =
      some ((pairs.filter (·.name = name)).map fun pair => .decoded pair.value) := by
  have hEntries : (fields '&' form).map (postparam malformed) =
      pairs.map fun pair => (pair.name, Scalar.decoded pair.value) := by
    have hPostparam : postparam malformed = (fun entry => (utf8Decoded malformed entry.1,
        Scalar.decoded (utf8Decoded malformed entry.2))) ∘ keyAndValue := rfl
    rw [hPostparam, ← List.map_map, keyAndValue_of_encodes hForm, List.map_map]
    refine List.map_congr_left fun pair _ => ?_
    rw [Function.comp_apply, utf8Decoded_encodeUtf8, utf8Decoded_encodeUtf8]
  have hDefined : ∀ entry ∈ pairs.map fun pair => (pair.name, Scalar.decoded pair.value),
      entry.2 ≠ .undef := by
    intro entry hMem
    obtain ⟨pair, -, rfl⟩ := List.mem_map.mp hMem
    exact fun hUndef => nomatch hUndef
  rw [urlencoded, hEntries, values_decode (proper_empty.foldl hDefined), values_collected hDefined,
    Option.map_some, List.filter_map, List.map_map]
  congr 1
  split
  · rw [List.map_map]
    rfl
  · rfl

/-- The body of a form gives back the names and values of the list, however it is encoded. -/
def PostKept (malformed : Text → Text) (pairs : List Pair) : Prop :=
  ∀ contentType form, "application/x-www-form-urlencoded".toList <:+: contentType →
    EncodesForm pairs form →
      ∃ posted, parsePostData malformed (some contentType) "POST".toList form = some posted ∧
        posted.postparams.Holds pairs

theorem parsePostData_urlencoded {contentType : Text} (form : Text)
    (hType : "application/x-www-form-urlencoded".toList <:+: contentType) :
    parsePostData malformed (some contentType) "POST".toList form =
      some { postparams := (urlencoded malformed form).decode malformed } := by
  have hPost := And.intro hType (Eq.refl "POST".toList)
  unfold parsePostData
  dsimp only
  rw [if_pos hPost]
  rfl

theorem postKept (pairs : List Pair) : PostKept malformed pairs := by
  intro contentType form hType hForm
  refine ⟨_, parsePostData_urlencoded form hType, fun name => ?_⟩
  rw [values_urlencoded hForm, Option.map_some, List.map_map]
  rfl

/-- The query, the form and the cookies all come back. -/
def RoundTrips (malformed : Text → Text) (decode_uri_path : Octets → Octets) (pairs : List Pair)
    (list : CookieList) : Prop :=
  QueryKept malformed decode_uri_path pairs ∧ PostKept malformed pairs ∧ CookiesKept malformed list

/-- A query has to be ASCII, and a cookie's value must be there and have no equals sign. -/
theorem roundTrips_iff (malformed : Text → Text) (decode_uri_path : Octets → Octets)
    (pairs : List Pair) (list : CookieList) : RoundTrips malformed decode_uri_path pairs list ↔
      (∀ pair ∈ pairs, Ascii pair.name ∧ Ascii pair.value) ∧
        ∀ cookie ∈ list.cookies, cookie.value ≠ [] ∧ '=' ∉ cookie.value := by
  rw [RoundTrips, queryKept_iff, cookiesKept_iff]
  constructor
  · exact fun ⟨hQuery, _, hCookies⟩ => ⟨hQuery, hCookies⟩
  · exact fun ⟨hQuery, hCookies⟩ => ⟨hQuery, postKept pairs, hCookies⟩

def accent : List Pair := [⟨['a'], ['é'], by decide⟩]

def signed : CookieList :=
  ⟨[⟨['a'], ['b', '=', 'c'], by decide, List.all_iff_forall_prop.mp (by decide),
    List.all_iff_forall_prop.mp (by decide)⟩], by decide⟩

/-- The query `a=%C3%A9`, and the header `Cookie: a=b=c`. -/
theorem not_roundTrips : (∀ malformed decode_uri_path, ¬ QueryKept malformed decode_uri_path accent) ∧
    ∀ malformed, ¬ CookiesKept malformed signed := by
  constructor
  · intro malformed decode_uri_path hKept
    have hAscii := (queryKept_iff _).mp hKept _ List.mem_cons_self
    exact absurd (hAscii.2 'é' List.mem_cons_self) (by decide)
  · intro malformed hKept
    have hFree := (cookiesKept_iff _).mp hKept _ List.mem_cons_self
    exact hFree.2 (by decide)

/-! ### Forms in parts -/

/-- Characters that may stand between quotes in a header line. -/
def Quotable (text : Text) : Prop := ∀ c ∈ text, c ≠ '"' ∧ c ≠ '\r' ∧ c ≠ '\n' ∧ c.toNat < 256

def quoted (key name : Text) : Text := key ++ '=' :: ('"' :: name ++ ['"'])

/-- A part of a form, in octets. -/
inductive Part
  | field (name content : Text)
  | file (name filename type content : Text)
  deriving DecidableEq, Repr

namespace Part

def name : Part → Text
  | field name _ | file name _ _ _ => name

def content : Part → Text
  | field _ content | file _ _ _ content => content

def IsFile : Part → Prop
  | field _ _ => False
  | file _ _ _ _ => True

instance : DecidablePred IsFile
  | field _ _ => inferInstanceAs (Decidable False)
  | file _ _ _ _ => inferInstanceAs (Decidable True)

/-- The value that the part has among the parameters. -/
def value : Part → Text
  | field _ content => content
  | file _ filename _ _ => withoutPath filename

def upload : Part → Option (Text × File)
  | field _ _ => none
  | file _ filename type content => some (withoutPath filename, { type, data := content })

def WellFormed : Part → Prop
  | field name content => Quotable name ∧ ∀ c ∈ content, c.toNat < 256
  | file name filename type content => Quotable name ∧ Quotable filename ∧ ';' ∉ filename ∧
      type ≠ [] ∧ (∀ c ∈ type, c ≠ '\r' ∧ c ≠ '\n') ∧ ∀ c ∈ content, c.toNat < 256

def params : Part → Text
  | field name _ => quoted "name".toList name
  | file name filename _ _ =>
      quoted "name".toList name ++ ([';', ' '] ++ quoted "filename".toList filename)

def crlf : Text := ['\r', '\n']

def headerLine (part : Part) : Text := "Content-Disposition: form-data; ".toList ++ part.params

/-- What stands behind the first line. -/
def rest : Part → Text
  | field _ content => crlf ++ content
  | file _ _ type content => "Content-Type: ".toList ++ (type ++ (crlf ++ crlf ++ content))

/-- What stands between two delimiters. -/
def text (part : Part) : Text := crlf ++ (part.headerLine ++ (crlf ++ part.rest)) ++ crlf

end Part

/-- Characters of a boundary that is a token. -/
def isBoundaryChar (c : Char) : Bool := c.isAlphanum || c ∈ ['\x27', '+', '_', '-', '.']

/-- A form in parts, with its boundary in quotes or not. -/
structure Form where
  boundary : Text
  quoted : Bool
  parts : List Part
  boundary_some : boundary ≠ []
  boundary_length : boundary.length ≤ 70
  boundary_chars : ∀ c ∈ boundary, isBoundaryChar c = true
  wellFormed : ∀ part ∈ parts, part.WellFormed
  free : ∀ part ∈ parts, ¬ (Part.crlf ++ '-' :: '-' :: boundary) <:+: Part.crlf ++ part.content

namespace Form
variable (form : Form)

def delimiter : Text := '-' :: '-' :: form.boundary

def contentType : Text :=
  "multipart/form-data; boundary=".toList ++
    if form.quoted then '"' :: form.boundary ++ ['"'] else form.boundary

/-- The files, with their names. -/
def uploads : List (Text × File) := form.parts.filterMap Part.upload

def pieces : List Text := form.parts.map Part.text ++ [['-', '-', '\r', '\n']]

def body : Text := join form.delimiter form.pieces

/-- The boundary, taken for a pattern, matches at the delimiters and nowhere else. -/
def Cut : Prop :=
  ∃ items, compile form.delimiter = some items ∧ Exact (matchItems items) form.delimiter form.pieces

end Form

/-- The octets that a scalar stands for. -/
def asOctets : Scalar → Text
  | .undef => []
  | .octets s => s
  | .decoded s => URI.encodeUtf8 s

/-- Every name with all its values as one flat list, and every file. -/
structure Recovered (form : Form) (posted : Posted) : Prop where
  ok : posted.ok = true
  values : ∀ name, (posted.postparams.values name).map (·.map asOctets) =
    some ((form.parts.filter (·.name = name)).map Part.value)
  files : ∀ upload ∈ form.uploads, posted.files upload.1 = some upload.2

/-- No name is cut, no file is the third of its name or more, files of one name are the same, and
a value that is alone is UTF-8. -/
structure Form.Kept (form : Form) : Prop where
  names : ∀ part ∈ form.parts, ¬ [';', ' '] <:+: part.name
  flat : ∀ before part after, form.parts = before ++ part :: after → part.IsFile →
    (before.filter (·.name = part.name)).length ≤ 1
  files : ∀ upload ∈ form.uploads, ∀ other ∈ form.uploads, upload.1 = other.1 → upload.2 = other.2
  decodable : ∀ name part, form.parts.filter (·.name = name) = [part] →
    ∃ text, part.value = URI.encodeUtf8 text

/-- The form is recovered from its body, whatever the method. -/
def Form.Recovers (malformed : Text → Text) (form : Form) : Prop :=
  ∀ method, ∃ posted, parsePostData malformed (some form.contentType) method form.body = some posted ∧
    Recovered form posted

/-! ### One part -/

variable {c : Char} {sep front rest : Text}

theorem upTo_append (hFront : front ≠ []) (hLine : '\n' ∉ front) (hFree : c ∉ front) :
    upTo (c :: sep) (front ++ (c :: sep ++ rest)) = some (front, rest) := by
  induction front with
  | nil => exact absurd rfl hFront
  | cons d front ih =>
    rw [List.mem_cons, not_or] at hLine hFree
    rw [List.cons_append, upTo, if_neg (Ne.symm hLine.1)]
    cases front with
    | nil =>
      rw [List.nil_append, if_pos (List.prefix_append _ _), List.drop_left]
    | cons e front =>
      have hOther : ¬ (c :: sep) <+: e :: front ++ (c :: sep ++ rest) := by
        intro hPrefix
        rw [List.cons_append, List.cons_prefix_cons] at hPrefix
        exact hFree.2 (hPrefix.1 ▸ List.mem_cons_self)
      rw [if_neg hOther, ih (List.cons_ne_nil e front) hLine.2 hFree.2]
      rfl

theorem splitLine_append (hFront : '\r' ∉ front) (rest : Text) :
    splitLine (front ++ '\r' :: '\n' :: rest) = (front, some rest) := by
  induction front with
  | nil => rfl
  | cons d front ih =>
    rw [List.mem_cons, not_or] at hFront
    rw [List.cons_append, splitLine, ih hFront.2]
    rintro _ rfl
    exact absurd rfl hFront.1

theorem withoutLastCrlf_append (s : Text) : withoutLastCrlf (s ++ ['\r', '\n']) = s := by
  induction s with
  | nil => rfl
  | cons d s ih =>
    have hMem : '\r' ∈ s ++ ['\r', '\n'] := List.mem_append_right s List.mem_cons_self
    rw [List.cons_append, withoutLastCrlf, ih]
    · intro _ hSame
      exact absurd (hSame ▸ hMem) (by decide)
    · intro _ hSame
      exact absurd (hSame ▸ hMem) (by decide)

theorem unquote_quoted (s : Text) : unquote ('"' :: s ++ ['"']) = s := by
  rw [unquote]
  simp

theorem setParam_append (hFront : '=' ∉ front) (s : Text) (found : Text → Option Text) :
    setParam found (front ++ '=' :: ('"' :: s ++ ['"'])) = Function.update found front (some s) := by
  have hPlain : ∀ c ∈ front, decide (c ≠ '=') = true := fun c hMem =>
    decide_eq_true fun hSame => hFront (hSame ▸ hMem)
  rw [setParam, List.takeWhile_append_of_pos hPlain, List.dropWhile_append_of_pos hPlain,
    List.takeWhile_cons_of_neg (by decide), List.dropWhile_cons_of_neg (by decide), List.append_nil]
  dsimp only
  rw [unquote_quoted]

theorem cut_quoted {key name : Text} (hKey : ';' ∉ key) (hName : ¬ [';', ' '] <:+: name)
    (text : Text) : cut (literal [';', ' ']) 0 (quoted key name ++ text) =
      (cut (literal [';', ' ']) 0 text).modifyHead (quoted key name ++ ·) := by
  have hText : quoted key name = (key ++ '=' :: '"' :: name) ++ ['"'] := by simp [quoted]
  have hFree : ¬ [';', ' '] <:+: (key ++ '=' :: '"' :: name) ++ ['"'] := by
    intro hInfix
    rcases infix_append_cons (by decide) hInfix with hFront | hEnd
    · rcases infix_append_cons (by decide) hFront with hInKey | hRest
      · exact hKey (hInKey.subset List.mem_cons_self)
      · have hEmpty : [';', ' '] <:+: [] ++ '"' :: name := hRest
        rcases infix_append_cons (by decide) hEmpty with hNil | hInName
        · exact absurd hNil (by decide)
        · exact hName hInName
    · exact absurd hEnd (by decide)
  rw [hText]
  exact cut_silent (silent_literal (by decide) hFree text)

theorem cut_quoted_nil {key name : Text} (hKey : ';' ∉ key) (hName : ¬ [';', ' '] <:+: name) :
    cut (literal [';', ' ']) 0 (quoted key name) = [quoted key name] := by
  have hCut := cut_quoted hKey hName []
  rw [List.append_nil, cut, List.modifyHead_cons, List.append_nil] at hCut
  exact hCut

theorem foldl_setParam_quoted {key name : Text} (hKey : '=' ∉ key) (pparts : List Text)
    (found : Text → Option Text) : (quoted key name :: pparts).foldl setParam found =
      pparts.foldl setParam (Function.update found key (some name)) := by
  rw [List.foldl_cons, quoted, setParam_append hKey]

theorem pparams_field {name : Text} (hName : ¬ [';', ' '] <:+: name) :
    pparams (quoted "name".toList name) =
      Function.update (fun _ => none) "name".toList (some name) := by
  have hSome : ¬ (quoted "name".toList name).isEmpty = true := by simp [quoted]
  rw [pparams, cut_quoted_nil (by decide) hName, List.rdropWhile_singleton, if_neg hSome,
    foldl_setParam_quoted (by decide)]
  rfl

theorem pparams_file {name filename : Text} (hName : ¬ [';', ' '] <:+: name)
    (hFilename : ';' ∉ filename) :
    pparams (quoted "name".toList name ++ ([';', ' '] ++ quoted "filename".toList filename)) =
      Function.update (Function.update (fun _ => none) "name".toList (some name))
        "filename".toList (some filename) := by
  have hFree : ¬ [';', ' '] <:+: filename := fun hInfix =>
    hFilename (hInfix.subset List.mem_cons_self)
  have hSome : ¬ (quoted "filename".toList filename).isEmpty = true := by simp [quoted]
  have hPieces : ([quoted "name".toList name, quoted "filename".toList filename]).rdropWhile
      List.isEmpty = [quoted "name".toList name, quoted "filename".toList filename] :=
    List.rdropWhile_eq_self_iff.mpr fun _ => hSome
  rw [pparams, cut_quoted (by decide) hName, cut_match (by decide) (literal_append _ _),
    cut_quoted_nil (by decide) hFree, List.modifyHead_cons, List.append_nil, hPieces,
    foldl_setParam_quoted (by decide), foldl_setParam_quoted (by decide)]
  rfl

theorem not_mem_quoted {key name : Text} (hChar : c ∉ ['=', '"']) (hKey : c ∉ key) (hName : c ∉ name) :
    c ∉ quoted key name := by
  simp only [List.mem_cons, List.not_mem_nil, or_false, not_or] at hChar
  simp [quoted, hChar, hKey, hName]

theorem Quotable.lineEnd_not_mem {name : Text} (hName : Quotable name) (hEnd : c ∈ ['\r', '\n']) :
    c ∉ name := by
  intro hMem
  obtain ⟨-, hReturn, hFeed, -⟩ := hName c hMem
  simp [hReturn, hFeed] at hEnd

theorem lineEnd_not_mem_params {part : Part} (hPart : part.WellFormed) (hEnd : c ∈ ['\r', '\n']) :
    c ∉ part.params := by
  have hKeys : c ∉ ['=', '"'] ∧ c ∉ "name".toList ∧ c ∉ "filename".toList ∧ c ∉ [';', ' '] := by
    rcases List.mem_pair.mp hEnd with rfl | rfl
    · decide
    · decide
  cases part with
  | field name content => exact not_mem_quoted hKeys.1 hKeys.2.1 (hPart.1.lineEnd_not_mem hEnd)
  | file name filename type content =>
    have hName := not_mem_quoted hKeys.1 hKeys.2.1 (hPart.1.lineEnd_not_mem hEnd)
    have hFilename := not_mem_quoted hKeys.1 hKeys.2.2.1 (hPart.2.1.lineEnd_not_mem hEnd)
    show c ∉ quoted _ name ++ ([';', ' '] ++ quoted _ filename)
    rw [List.mem_append, List.mem_append, not_or, not_or]
    exact ⟨hName, hKeys.2.2.2, hFilename⟩

theorem headerLine_eq (part : Part) : part.headerLine = "Content-Disposition".toList ++
    ([':', ' '] ++ ("form-data".toList ++ ([';', ' '] ++ part.params))) := by
  show "Content-Disposition: form-data; ".toList ++ part.params = _
  simp

theorem disposition_headerLine {part : Part} (hPart : part.WellFormed) :
    disposition part.headerLine =
      some ("Content-Disposition".toList, "form-data".toList, part.params) := by
  have hParams : part.params.takeWhile (fun c => decide (c ≠ '\n')) = part.params :=
    List.takeWhile_eq_self_iff.mpr fun c hMem => decide_eq_true fun hSame =>
      lineEnd_not_mem_params hPart (by decide) (hSame ▸ hMem)
  rw [disposition, headerLine_eq, upTo_append (by simp) (by decide) (by decide), Option.bind_some]
  dsimp only
  rw [upTo_append (by simp) (by decide) (by decide), Option.map_some, hParams]

/-- What a part adds. -/
def Posted.record (posted : Posted) : Part → Posted
  | .field name content => posted.addField name (.octets content)
  | .file name filename type content =>
      posted.addFile name (withoutPath filename) { type, data := content }

theorem typeAndData_rest {type : Text} (hType : type ≠ []) (hLine : ∀ c ∈ type, c ≠ '\r' ∧ c ≠ '\n')
    (content : Text) :
    typeAndData ("Content-Type: ".toList ++ (type ++ (Part.crlf ++ Part.crlf ++ content))) =
      some (type, content) := by
  have hLength : "Content-Type: ".toList.length = 14 := by simp
  rw [typeAndData, if_pos (List.prefix_append _ _), ← hLength, List.drop_left]
  exact upTo_append hType (fun hMem => (hLine _ hMem).2 rfl) (fun hMem => (hLine _ hMem).1 rfl)

theorem parsePart_text {part : Part} (hPart : part.WellFormed) (hName : ¬ [';', ' '] <:+: part.name)
    (posted : Posted) : parsePart posted part.text = some (posted.record part) := by
  have hStripped : withoutLastCrlf (withoutFirstCrlf part.text) =
      part.headerLine ++ '\r' :: '\n' :: part.rest :=
    withoutLastCrlf_append (part.headerLine ++ (Part.crlf ++ part.rest))
  have hSome : ¬ (part.headerLine ++ '\r' :: '\n' :: part.rest = [] ∨
      part.headerLine ++ '\r' :: '\n' :: part.rest = ['-', '-']) := by
    rw [headerLine_eq]
    simp
  have hLine : '\r' ∉ part.headerLine := by
    rw [headerLine_eq]
    have hParams : '\r' ∉ part.params := lineEnd_not_mem_params hPart (by decide)
    simp [hParams]
  unfold parsePart
  dsimp only
  rw [hStripped, if_neg hSome, splitLine_append hLine, disposition_headerLine hPart]
  dsimp only
  rw [if_neg (by simp)]
  cases part with
  | field name content =>
    have hParams : pparams (Part.field name content).params = _ := pparams_field hName
    rw [hParams, Function.update_of_ne (by simp), Function.update_self]
    rfl
  | file name filename type content =>
    obtain ⟨-, -, hFilename, hType, hLine, -⟩ := hPart
    have hParams : pparams (Part.file name filename type content).params = _ :=
      pparams_file hName hFilename
    have hContent : typeAndData (Part.file name filename type content).rest = some (type, content) :=
      typeAndData_rest hType hLine content
    rw [hParams, Function.update_self, Function.update_of_ne (by simp), Function.update_self]
    dsimp only
    rw [Option.bind_some, hContent]
    rfl

/-! ### All parts -/

/-- What a part makes of the values that its name has. -/
def Part.push (part : Part) (values : List Scalar) : Option (List Scalar) :=
  if part.IsFile ∧ 1 < values.length then none else some (values ++ [.octets part.value])

theorem flat_pushFile {value : Option Value} (hProper : ∀ v ∈ value, v.Proper) (filename : Scalar) :
    (pushFile filename value).flat = (value.elim (some []) Value.flat).bind fun values =>
      if 1 < values.length then none else some (values ++ [filename]) := by
  cases value with
  | none => rfl
  | some value =>
    cases value with
    | scalar tempval =>
      cases tempval with
      | undef => exact absurd rfl (hProper _ rfl)
      | octets s => rfl
      | decoded s => rfl
    | array tempval pushed =>
      cases tempval with
      | array first others => rfl
      | scalar first =>
        have hPushed : pushed ≠ [] := hProper _ rfl
        have hMany : 1 < (first :: pushed).length :=
          Nat.succ_lt_succ (List.length_pos_iff.mpr hPushed)
        show none = (some (first :: pushed)).bind _
        rw [Option.bind_some, if_pos hMany]

theorem proper_pushFile (filename : Text) (value : Option Value) :
    (pushFile (.octets filename) value).Proper := by
  cases value with
  | none => exact fun hUndef => nomatch hUndef
  | some value =>
    cases value with
    | scalar tempval =>
      cases tempval with
      | undef => exact fun hUndef => nomatch hUndef
      | octets s => exact List.cons_ne_nil _ _
      | decoded s => exact List.cons_ne_nil _ _
    | array tempval pushed => exact List.cons_ne_nil _ _

variable {posted : Posted}

theorem proper_record (hProper : posted.postparams.Proper) (part : Part) :
    (posted.record part).postparams.Proper := by
  cases part with
  | field name content => exact hProper.collect fun hUndef => nomatch hUndef
  | file name filename type content => exact hProper.update (proper_pushFile _ _)

theorem values_record (hProper : posted.postparams.Proper) (part : Part) (name : Text) :
    (posted.record part).postparams.values name =
      if part.name = name then (posted.postparams.values name).bind part.push
      else posted.postparams.values name := by
  cases part with
  | field field content =>
    have hPush : Part.push (.field field content) = fun values => some (values ++ [.octets content]) := by
      funext values
      exact if_neg fun hFile => hFile.1
    show (posted.postparams.collect (field, .octets content)).values name = if field = name then _ else _
    rw [values_collect hProper, hPush, Option.map_eq_bind]
    by_cases hName : field = name
    · rw [if_pos hName, if_pos hName]
      rfl
    · rw [if_neg hName, if_neg hName]
      simp
  | file field filename type content =>
    have hPush : Part.push (.file field filename type content) = fun values =>
        if 1 < values.length then none else some (values ++ [.octets (withoutPath filename)]) := by
      funext values
      simp only [Part.push, Part.IsFile, true_and]
      rfl
    show Hash.values (Function.update posted.postparams field
      (some (pushFile (.octets (withoutPath filename)) _))) name = if field = name then _ else _
    rw [values_update, hPush]
    by_cases hName : field = name
    · rw [if_pos hName, if_pos hName, ← hName]
      exact flat_pushFile (hProper field) _
    · rw [if_neg hName, if_neg hName]

/-- No file comes under a name that has two values already. -/
def FlatFor (parts : List Part) (name : Text) : Prop :=
  ∀ before part after, parts = before ++ part :: after → part.IsFile → part.name = name →
    (before.filter (·.name = name)).length ≤ 1

theorem flatFor_concat (parts : List Part) (part : Part) (name : Text) :
    FlatFor (parts ++ [part]) name ↔ FlatFor parts name ∧
      (part.IsFile → part.name = name → (parts.filter (·.name = name)).length ≤ 1) := by
  constructor
  · intro hFlat
    refine ⟨fun before other after hParts => ?_, hFlat parts part [] rfl⟩
    apply hFlat before other (after ++ [part])
    rw [hParts, List.append_assoc, List.cons_append]
  · rintro ⟨hParts, hPart⟩ before other after hSplit hFile hName
    rcases List.eq_nil_or_concat after with rfl | ⟨after, last, rfl⟩
    · obtain ⟨rfl, hSame⟩ := List.append_inj' hSplit rfl
      cases hSame
      exact hPart hFile hName
    · rw [List.concat_eq_append, ← List.cons_append, ← List.append_assoc] at hSplit
      exact hParts before other after (List.append_inj' hSplit rfl).1 hFile hName

def recordAll (parts : List Part) : Posted := parts.foldl Posted.record {}

theorem recordAll_concat (parts : List Part) (part : Part) :
    recordAll (parts ++ [part]) = (recordAll parts).record part := List.foldl_concat _ _ _ _

theorem proper_recordAll (parts : List Part) : (recordAll parts).postparams.Proper := by
  induction parts using List.reverseRecOn with
  | nil => exact proper_empty
  | append_singleton parts part ih =>
    rw [recordAll_concat]
    exact proper_record ih part

open Classical in
/-- The values of a name are there in their order, unless an array came into an array. -/
theorem values_recordAll (parts : List Part) (name : Text) :
    (recordAll parts).postparams.values name =
      if FlatFor parts name then
        some ((parts.filter (·.name = name)).map fun part => .octets part.value)
      else none := by
  induction parts using List.reverseRecOn with
  | nil =>
    have hFlat : FlatFor [] name := fun before part after hNil => by simp at hNil
    rw [if_pos hFlat]
    rfl
  | append_singleton parts part ih =>
    rw [recordAll_concat, values_record (proper_recordAll parts), ih, List.filter_append,
      List.map_append, flatFor_concat]
    by_cases hName : part.name = name
    · rw [if_pos hName]
      by_cases hFlat : FlatFor parts name
      · rw [if_pos hFlat, Option.bind_some, Part.push, List.length_map]
        by_cases hThird : part.IsFile ∧ 1 < (parts.filter (·.name = name)).length
        · rw [if_pos hThird, if_neg fun hBoth => absurd (hBoth.2 hThird.1 hName) (by omega)]
        · have hFew : part.IsFile → part.name = name →
              (parts.filter (·.name = name)).length ≤ 1 := fun hFile _ =>
            Nat.le_of_not_lt fun hMore => hThird ⟨hFile, hMore⟩
          rw [if_neg hThird, if_pos ⟨hFlat, hFew⟩]
          simp [hName]
      · rw [if_neg hFlat, if_neg fun hBoth => hFlat hBoth.1]
        rfl
    · have hSame : (FlatFor parts name ∧ (part.IsFile → part.name = name →
          (parts.filter (·.name = name)).length ≤ 1)) ↔ FlatFor parts name :=
        and_iff_left fun _ hOther => absurd hOther hName
      rw [if_neg hName, hSame]
      simp [hName]

/-- Of files with one name the last one stays. -/
theorem files_recordAll (parts : List Part) (filename : Text) : (recordAll parts).files filename =
    (((parts.filterMap Part.upload).filter (·.1 = filename)).getLast?).map Prod.snd := by
  induction parts using List.reverseRecOn with
  | nil => rfl
  | append_singleton parts part ih =>
    rw [recordAll_concat, List.filterMap_append, List.filter_append]
    cases part with
    | field name content =>
      have hNone : [Part.field name content].filterMap Part.upload = [] := rfl
      rw [hNone, List.filter_nil, List.append_nil]
      exact ih
    | file name path type content =>
      have hOne : [Part.file name path type content].filterMap Part.upload =
          [(withoutPath path, { type, data := content })] := rfl
      show Function.update (recordAll parts).files (withoutPath path) _ filename = _
      rw [hOne]
      by_cases hSame : withoutPath path = filename
      · rw [← hSame, Function.update_self]
        simp
      · rw [Function.update_of_ne (Ne.symm hSame), ih]
        simp [hSame]

theorem files_recovered_iff (parts : List Part) :
    (∀ upload ∈ parts.filterMap Part.upload, (recordAll parts).files upload.1 = some upload.2) ↔
      ∀ upload ∈ parts.filterMap Part.upload, ∀ other ∈ parts.filterMap Part.upload,
        upload.1 = other.1 → upload.2 = other.2 := by
  constructor
  · intro hFiles upload hUpload other hOther hSame
    have hBoth := (hFiles upload hUpload).symm.trans (hSame ▸ hFiles other hOther)
    exact Option.some.inj hBoth
  · intro hSame upload hUpload
    have hMem : upload ∈ (parts.filterMap Part.upload).filter (·.1 = upload.1) :=
      List.mem_filter.mpr ⟨hUpload, by simp⟩
    obtain ⟨last, hLast⟩ := Option.isSome_iff_exists.mp
      (List.getLast?_isSome.mpr (List.ne_nil_of_mem hMem))
    obtain ⟨hLastMem, hName⟩ := List.mem_filter.mp (List.mem_of_getLast? hLast)
    rw [files_recordAll, hLast, Option.map_some,
      hSame upload hUpload last hLastMem (of_decide_eq_true hName).symm]

theorem ok_recordAll (parts : List Part) : (recordAll parts).ok = true := by
  induction parts using List.reverseRecOn with
  | nil => rfl
  | append_singleton parts part ih =>
    rw [recordAll_concat]
    cases part with
    | field name content => exact ih
    | file name filename type content => exact ih

/-- A value that is decoded comes back if it was UTF-8. -/
theorem asOctets_decode_iff {s : Text} (hOctets : ∀ c ∈ s, c.toNat < 256) :
    asOctets (Scalar.decode malformed (.octets s)) = s ↔ ∃ text, s = URI.encodeUtf8 text := by
  constructor
  · intro hSame
    have hSome : ∃ text, decodeUtf8 malformed s = some text := by
      rw [decodeUtf8, if_pos (List.all_eq_true.mpr fun c hMem => decide_eq_true (hOctets c hMem))]
      exact ⟨_, rfl⟩
    obtain ⟨text, hText⟩ := hSome
    rw [Scalar.decode, hText] at hSame
    exact ⟨text, hSame.symm⟩
  · rintro ⟨text, rfl⟩
    rw [Scalar.decode, decodeUtf8_encodeUtf8]
    rfl

theorem values_recovered_iff {parts : List Part} (hOctets : ∀ part ∈ parts, ∀ c ∈ part.value, c.toNat < 256)
    (name : Text) : (((recordAll parts).postparams.decode malformed).values name).map (·.map asOctets) =
        some ((parts.filter (·.name = name)).map Part.value) ↔
      FlatFor parts name ∧ ∀ part, parts.filter (·.name = name) = [part] →
        ∃ text, part.value = URI.encodeUtf8 text := by
  rw [values_decode (proper_recordAll parts), values_recordAll]
  by_cases hFlat : FlatFor parts name
  · rw [if_pos hFlat, Option.map_some, Option.map_some, Option.some_inj, List.length_map]
    by_cases hAlone : (parts.filter (·.name = name)).length = 1
    · obtain ⟨part, hPart⟩ := List.length_eq_one_iff.mp hAlone
      have hMem : part ∈ parts := (List.mem_filter.mp (hPart ▸ List.mem_singleton_self part)).1
      rw [if_pos hAlone, hPart]
      simp only [List.map_cons, List.map_nil, List.cons.injEq, and_true]
      rw [asOctets_decode_iff (hOctets part hMem)]
      simp [hFlat]
    · rw [if_neg hAlone, List.map_map]
      have hOther : ∀ part, parts.filter (·.name = name) ≠ [part] := fun part hPart =>
        hAlone (hPart ▸ rfl)
      simp only [hFlat, true_and]
      exact ⟨fun _ part hPart => absurd hPart (hOther part), fun _ => List.map_congr_left fun _ _ => rfl⟩
  · rw [if_neg hFlat]
    simp [hFlat]

/-! ### The loop over the parts -/

theorem parsePart_nil (posted : Posted) : parsePart posted [] = some posted := by
  unfold parsePart
  exact if_pos (.inl rfl)

theorem parsePart_end (posted : Posted) : parsePart posted ['-', '-', '\r', '\n'] = some posted := by
  unfold parsePart
  exact if_pos (.inr rfl)

theorem parseParts_texts {parts : List Part} (hParts : ∀ part ∈ parts, part.WellFormed)
    (hNames : ∀ part ∈ parts, ¬ [';', ' '] <:+: part.name) (posted : Posted) :
    parseParts posted (parts.map Part.text ++ [['-', '-', '\r', '\n']]) =
      parts.foldl Posted.record posted := by
  induction parts generalizing posted with
  | nil =>
    rw [List.map_nil, List.nil_append, parseParts, parsePart_end]
    rfl
  | cons part parts ih =>
    rw [List.forall_mem_cons] at hParts hNames
    rw [List.map_cons, List.cons_append, parseParts, parsePart_text hParts.1 hNames.1]
    exact ih hParts.2 hNames.2 _

/-- Empty pieces at the end change nothing. -/
theorem parseParts_rdropWhile (pieces : List Text) (posted : Posted) :
    parseParts posted (pieces.rdropWhile List.isEmpty) = parseParts posted pieces := by
  have hConcat : ∀ (pieces : List Text) (posted : Posted),
      parseParts posted (pieces ++ [[]]) = parseParts posted pieces := by
    intro pieces
    induction pieces with
    | nil =>
      intro posted
      rw [List.nil_append, parseParts.eq_2, parsePart_nil]
    | cons piece pieces ih =>
      intro posted
      rw [List.cons_append, parseParts, parseParts]
      cases parsePart posted piece with
      | none => rfl
      | some posted => exact ih posted
  induction pieces using List.reverseRecOn with
  | nil => rfl
  | append_singleton pieces piece ih =>
    by_cases hEmpty : piece.isEmpty = true
    · rw [List.rdropWhile_concat_pos _ _ _ hEmpty, ih, List.isEmpty_iff.mp hEmpty, hConcat]
    · rw [List.rdropWhile_concat_neg _ _ _ hEmpty]

/-- No name in the hash has a semicolon with a blank. -/
def NoCut (posted : Posted) : Prop :=
  ∀ name, [';', ' '] <:+: name → posted.postparams name = none

theorem isInfix_unquote (pval : Text) : unquote pval <:+: pval := by
  have hFirst : (if pval.head? = some '"' then pval.tail else pval) <:+: pval := by
    split
    · exact (List.tail_suffix pval).isInfix
    · exact List.infix_refl pval
  have hLast : ∀ s : Text, (if s.getLast? = some '"' then s.dropLast else s) <:+: s := by
    intro s
    split
    · exact (List.dropLast_prefix s).isInfix
    · exact List.infix_refl s
  exact (hLast _).trans hFirst

theorem pparams_free {params key value : Text} (hValue : pparams params key = some value) :
    ¬ [';', ' '] <:+: value := by
  have hPieces : ∀ ppart ∈ (cut (literal [';', ' ']) 0 params).rdropWhile List.isEmpty,
      ¬ [';', ' '] <:+: ppart := fun ppart hPart =>
    not_infix_of_mem_cut (by decide) ((List.rdropWhile_prefix _ _).subset hPart)
  have hFold : ∀ (pparts : List Text) (found : Text → Option Text),
      (∀ ppart ∈ pparts, ¬ [';', ' '] <:+: ppart) →
      (∀ key value, found key = some value → ¬ [';', ' '] <:+: value) →
      ∀ key value, pparts.foldl setParam found key = some value → ¬ [';', ' '] <:+: value := by
    intro pparts
    induction pparts with
    | nil => exact fun found _ hFound => hFound
    | cons ppart pparts ih =>
      intro found hFree hFound
      rw [List.forall_mem_cons] at hFree
      refine ih _ hFree.2 fun key value hSome => ?_
      rw [setParam, Function.update_apply] at hSome
      split at hSome
      · split at hSome
        · exact nomatch hSome
        · next c pval hDrop =>
          cases Option.some.inj hSome
          have hSuffix : pval <:+: ppart :=
            ((List.suffix_cons c pval).trans (hDrop ▸ List.dropWhile_suffix _)).isInfix
          exact fun hInfix => hFree.1 (hInfix.trans ((isInfix_unquote pval).trans hSuffix))
      · exact hFound key value hSome
  have hNone : ∀ (_ : Text) value, (none : Option Text) = some value → ¬ [';', ' '] <:+: value :=
    fun _ _ hSome => nomatch hSome
  exact hFold _ _ hPieces hNone key value hValue

theorem NoCut.update {posted : Posted} (hPosted : NoCut posted) {params key : Text} (value : Value) :
    ∀ name, [';', ' '] <:+: name →
      Function.update posted.postparams ((pparams params key).getD []) (some value) name = none := by
  intro name hInfix
  have hFree : ¬ [';', ' '] <:+: (pparams params key).getD [] := by
    cases hValue : pparams params key with
    | none => exact by decide
    | some value => exact pparams_free hValue
  have hOther : name ≠ (pparams params key).getD [] := by
    rintro rfl
    exact hFree hInfix
  rw [Function.update_of_ne hOther]
  exact hPosted name hInfix

theorem NoCut.parsePart {posted posted' : Posted} (hPosted : NoCut posted) {part : Text}
    (hPart : parsePart posted part = some posted') : NoCut posted' := by
  unfold PostData.parsePart at hPart
  dsimp only at hPart
  split at hPart
  · cases hPart
    exact hPosted
  · split at hPart
    · exact nomatch hPart
    · split at hPart
      · exact nomatch hPart
      · split at hPart
        · split at hPart
          · cases hPart
            exact hPosted.update _
          · cases hPart
            exact hPosted
        · cases hPart
          exact hPosted.update _

theorem NoCut.parseParts {posted : Posted} (hPosted : NoCut posted) (pieces : List Text) :
    NoCut (parseParts posted pieces) := by
  induction pieces generalizing posted with
  | nil => exact hPosted
  | cons piece pieces ih =>
    rw [PostData.parseParts]
    split
    · exact hPosted
    · next posted' hPart => exact ih (hPosted.parsePart hPart)

/-! ### The header of a form -/

theorem ne_of_isBoundaryChar (hChar : isBoundaryChar c = true) :
    c ∉ ['/', '"', '\r', '\n', ':', ' '] := by
  intro hMem
  simp only [List.mem_cons, List.not_mem_nil, or_false] at hMem
  rcases hMem with rfl | rfl | rfl | rfl | rfl | rfl
  all_goals exact absurd hChar (by decide)

variable {form : Form}

theorem boundary_not_mem (form : Form) (hChar : c ∈ ['/', '"', '\r', '\n', ':', ' ']) :
    c ∉ form.boundary := fun hMem => ne_of_isBoundaryChar (form.boundary_chars c hMem) hChar

/-- What the header says about the boundary. -/
def Form.written (form : Form) : Text :=
  if form.quoted then '"' :: form.boundary ++ ['"'] else form.boundary

theorem not_mem_written (form : Form) (hChar : c ∈ ['/', '\n']) : c ∉ form.written := by
  have hBoundary : c ∉ form.boundary := by
    rcases List.mem_pair.mp hChar with rfl | rfl
    · exact boundary_not_mem form (by decide)
    · exact boundary_not_mem form (by decide)
  have hQuote : c ≠ '"' := by
    rintro rfl
    exact absurd hChar (by decide)
  rw [Form.written]
  split
  · simp [hBoundary, hQuote]
  · exact hBoundary

theorem written_ne_nil (form : Form) : form.written ≠ [] := by
  rw [Form.written]
  split
  · simp
  · exact form.boundary_some

theorem contentType_eq (form : Form) :
    form.contentType = "multipart/form-data; boundary=".toList ++ form.written := rfl

theorem boundaryOf_contentType (form : Form) : boundaryOf form.contentType = some form.written := by
  have hLength : "multipart/form-data; boundary=".toList.length = 30 := by simp
  have hLine : form.written.takeWhile (fun c => decide (c ≠ '\n')) = form.written :=
    List.takeWhile_eq_self_iff.mpr fun c hMem => decide_eq_true fun hSame =>
      not_mem_written form (by decide) (hSame ▸ hMem)
  rw [contentType_eq, boundaryOf, if_pos (List.prefix_append _ _), ← hLength, List.drop_left]
  dsimp only
  rw [hLine, if_neg (written_ne_nil form)]

/-- The header has one slash, too early for the other kind of form. -/
theorem not_urlencoded (form : Form) :
    ¬ "application/x-www-form-urlencoded".toList <:+: form.contentType := by
  rintro ⟨before, after, hType⟩
  have hNeedle : "application/x-www-form-urlencoded".toList =
      "application".toList ++ '/' :: "x-www-form-urlencoded".toList := by simp
  have hHeader : "multipart/form-data; boundary=".toList =
      "multipart".toList ++ '/' :: "form-data; boundary=".toList := by simp
  have hSlash : '/' ∉ "form-data; boundary=".toList ++ form.written := by
    rw [List.mem_append, not_or]
    exact ⟨by decide, not_mem_written form (by decide)⟩
  rw [contentType_eq, hNeedle, hHeader, List.append_assoc, List.append_assoc, List.append_assoc,
    ← List.append_assoc before] at hType
  have hLong : (before ++ "application".toList).length = before.length + 11 := by simp
  rcases List.append_eq_append_iff.mp hType with ⟨rest, hFront, -⟩ | ⟨rest, hFront, hRest⟩
  · have hLength := congrArg List.length hFront
    rw [List.length_append, hLong] at hLength
    simp at hLength
    omega
  · cases rest with
    | nil =>
      have hLength := congrArg List.length hFront
      rw [hLong] at hLength
      simp at hLength
    | cons c rest =>
      have hBehind : "form-data; boundary=".toList ++ form.written =
          rest ++ ('/' :: "x-www-form-urlencoded".toList ++ after) := (List.cons.inj hRest).2
      rw [hBehind] at hSlash
      exact hSlash (List.mem_append_right rest List.mem_cons_self)

theorem parsePostData_form (form : Form) (method : Text) :
    parsePostData malformed (some form.contentType) method form.body =
      (compile ('-' :: '-' :: form.written)).map fun items =>
        let posted := parseParts {} (cut (matchItems items) 0 form.body)
        { posted with postparams := posted.postparams.decode malformed } := by
  unfold parsePostData
  dsimp only
  rw [if_neg fun hBoth => not_urlencoded form hBoth.1, boundaryOf_contentType]
  dsimp only
  rw [Option.map_map]
  congr 1
  funext items
  rw [Function.comp_apply, parseParts_rdropWhile]

/-! ### A boundary in quotes -/

variable {items : List Item} {text : Text} {n : Nat}

theorem readItems_char (hPlus : c ≠ '+') (hAny : c ≠ '.') (hSpecial : c ∉ special) (text : Text) :
    readItems (c :: text) =
      (readItems text).map fun found => ({ atom := .char c, pluses := found.2 } :: found.1, 0) := by
  rw [readItems]
  cases readItems text with
  | none => rfl
  | some found =>
    dsimp only
    rw [if_neg hPlus, if_neg hSpecial, if_neg hAny]
    rfl

theorem matchItems_head {pluses : Nat} (hMatch : matchItems (⟨.char c, pluses⟩ :: items) text = some n) :
    ∃ rest, text = c :: rest := by
  have hRun : text.takeWhile (Atom.char c).accepts ≠ [] → ∃ rest, text = c :: rest := by
    cases text with
    | nil => exact fun hSome => absurd rfl hSome
    | cons d text =>
      intro hSome
      by_cases hSame : d = c
      · exact ⟨text, by rw [hSame]⟩
      · rw [List.takeWhile_cons_of_neg (by simpa [Atom.accepts] using hSame)] at hSome
        exact absurd rfl hSome
  match pluses with
  | 0 =>
    cases text with
    | nil => exact nomatch hMatch
    | cons d text =>
      rw [matchItems] at hMatch
      split at hMatch
      · next hSame => exact ⟨text, by rw [of_decide_eq_true hSame]⟩
      · exact nomatch hMatch
  | 1 =>
    refine hRun fun hNil => ?_
    rw [matchItems, hNil] at hMatch
    exact nomatch hMatch
  | pluses + 2 =>
    refine hRun fun hNil => ?_
    rw [matchItems, hNil] at hMatch
    exact nomatch hMatch
    all_goals simp

theorem matchItems_once (hMatch : matchItems (⟨.char c, 0⟩ :: items) text = some n) :
    ∃ rest m, text = c :: rest ∧ matchItems items rest = some m := by
  obtain ⟨rest, rfl⟩ := matchItems_head hMatch
  rw [matchItems] at hMatch
  split at hMatch
  · obtain ⟨m, hRest, -⟩ := Option.map_eq_some_iff.mp hMatch
    exact ⟨rest, m, rfl, hRest⟩
  · exact nomatch hMatch

/-- The quote belongs to the pattern, and stands behind two dashes. -/
theorem match_quoted {boundary : Text} (hItems : compile ('-' :: '-' :: '"' :: boundary) = some items)
    (hMatch : matchItems items text = some n) : ∃ rest, text = '-' :: '-' :: '"' :: rest := by
  rw [compile, readItems_char (by decide) (by decide) (by decide),
    readItems_char (by decide) (by decide) (by decide),
    readItems_char (by decide) (by decide) (by decide)] at hItems
  cases hRead : readItems boundary with
  | none =>
    rw [hRead] at hItems
    exact nomatch hItems
  | some found =>
    rw [hRead] at hItems
    cases hItems
    obtain ⟨_, _, rfl, hSecond⟩ := matchItems_once hMatch
    obtain ⟨_, _, rfl, hThird⟩ := matchItems_once hSecond
    obtain ⟨rest, rfl⟩ := matchItems_head hThird
    exact ⟨rest, rfl⟩

theorem silent_quoted {boundary : Text} (hItems : compile ('-' :: '-' :: '"' :: boundary) = some items)
    (hQuote : '"' ∉ front ++ [c]) (hDash : c ≠ '-') (text : Text) :
    Silent (matchItems items) (front ++ [c]) text := by
  intro back hSome hSuffix
  by_contra hFound
  obtain ⟨n, hMatch⟩ := Option.ne_none_iff_exists'.mp hFound
  obtain ⟨rest, hText⟩ := match_quoted hItems hMatch
  obtain ⟨before, hBefore⟩ := hSuffix
  have hLast := congrArg List.getLast? hBefore
  rw [List.getLast?_append_of_ne_nil _ hSome, List.getLast?_concat] at hLast
  match back, hSome with
  | [a], _ =>
    cases Option.some.inj hLast
    exact hDash (List.cons.inj hText).1
  | [a, b], _ =>
    cases Option.some.inj hLast
    exact hDash (List.cons.inj (List.cons.inj hText).2).1
  | a :: b :: d :: back, _ =>
    have hThird : d = '"' := (List.cons.inj (List.cons.inj (List.cons.inj hText).2).2).1
    have hMem : d ∈ before ++ a :: b :: d :: back := by simp
    exact hQuote (hThird ▸ hBefore ▸ hMem)

theorem upTo_none (hFree : c ∉ text) : upTo (c :: sep) text = none := by
  induction text with
  | nil => rfl
  | cons d text ih =>
    rw [List.mem_cons, not_or] at hFree
    have hOther : ¬ (c :: sep) <+: text := fun hPrefix => hFree.2 (hPrefix.subset List.mem_cons_self)
    rw [upTo, if_neg hOther, ih hFree.2]
    split
    · rfl
    · rfl

theorem splitLine_fst_subset (text : Text) : (splitLine text).1 ⊆ text := by
  induction text using splitLine.induct with
  | case1 => exact List.Subset.refl _
  | case2 s => exact List.nil_subset _
  | case3 c s hOther ih =>
    rw [splitLine]
    · exact List.cons_subset_cons c ih
    · exact hOther

/-- What does not begin with a header line ends the loop. -/
theorem parsePart_none {part stripped : Text}
    (hPart : withoutLastCrlf (withoutFirstCrlf part) = stripped) (hLong : 2 < stripped.length)
    (hColon : ':' ∉ (splitLine stripped).1) (posted : Posted) : parsePart posted part = none := by
  have hSome : ¬ (stripped = [] ∨ stripped = ['-', '-']) := by
    rintro (rfl | rfl)
    · exact absurd hLong (by decide)
    · exact absurd hLong (by decide)
  unfold parsePart
  dsimp only
  rw [hPart, if_neg hSome, disposition, upTo_none hColon, Option.bind_none]

theorem withoutLastCrlf_keep (hText : c ∉ ['\r', '\n']) (front rest : Text) :
    withoutLastCrlf (front ++ c :: rest) = front ++ c :: withoutLastCrlf rest := by
  rw [List.mem_pair, not_or] at hText
  induction front with
  | nil =>
    rw [List.nil_append, withoutLastCrlf]
    · rfl
    · exact fun hReturn _ => hText.1 hReturn
    · exact fun hReturn _ => hText.1 hReturn
  | cons d front ih =>
    have hMem : c ∈ front ++ c :: rest := List.mem_append_right front List.mem_cons_self
    rw [List.cons_append, withoutLastCrlf, ih, List.cons_append]
    · intro _ hSame
      rw [hSame] at hMem
      exact hText.2 (List.mem_singleton.mp hMem)
    · intro _ hSame
      rw [hSame] at hMem
      exact hText.2 (by simpa using hMem)

theorem delimiter_length (form : Form) : 2 < form.delimiter.length := by
  have hSome := List.length_pos_iff.mpr form.boundary_some
  rw [Form.delimiter, List.length_cons, List.length_cons]
  omega

theorem delimiter_not_mem (form : Form) (hChar : c ∈ ['/', '"', '\r', '\n', ':', ' ']) :
    c ∉ form.delimiter := by
  have hDash : c ≠ '-' := by
    rintro rfl
    exact absurd hChar (by decide)
  simp [Form.delimiter, hDash, boundary_not_mem form hChar]

/-- With quotes, the first piece begins with the first delimiter. -/
theorem parseParts_quoted (hItems : compile ('-' :: '-' :: '"' :: (form.boundary ++ ['"'])) = some items)
    (posted : Posted) : (parseParts posted (cut (matchItems items) 0 form.body)).ok = false := by
  have hQuote : '"' ∉ form.delimiter := delimiter_not_mem form (by decide)
  have hReturn : '\r' ∉ form.delimiter := delimiter_not_mem form (by decide)
  have hColon : ':' ∉ form.delimiter := delimiter_not_mem form (by decide)
  have hLong := delimiter_length form
  have hFirst : ∀ rest, withoutFirstCrlf (form.delimiter ++ rest) = form.delimiter ++ rest := fun _ => rfl
  have hNone : ∃ piece pieces, cut (matchItems items) 0 form.body = piece :: pieces ∧
      parsePart posted piece = none := by
    cases hParts : form.parts with
    | nil =>
      have hBody : form.body = form.delimiter ++ ['-', '-', '\r'] ++ ['\n'] ++ [] := by
        rw [Form.body, Form.pieces, hParts]
        simp [join]
      have hSilent : Silent (matchItems items) (form.delimiter ++ ['-', '-', '\r'] ++ ['\n']) [] :=
        silent_quoted hItems (by simp [hQuote]) (by decide) []
      have hStripped : withoutLastCrlf (form.delimiter ++ ['-', '-'] ++ ['\r', '\n']) =
          form.delimiter ++ ['-', '-'] := withoutLastCrlf_append _
      have hPart : withoutLastCrlf (withoutFirstCrlf
          (form.delimiter ++ ['-', '-', '\r'] ++ ['\n'] ++ [])) = form.delimiter ++ ['-', '-'] := by
        rw [← hStripped, List.append_nil, List.append_assoc, List.append_assoc, hFirst]
        rfl
      have hColon' : ':' ∉ (splitLine (form.delimiter ++ ['-', '-'])).1 := fun hMem => by
        simpa [hColon] using splitLine_fst_subset _ hMem
      refine ⟨_, _, by rw [hBody, cut_silent hSilent, cut, List.modifyHead_cons],
        parsePart_none hPart ?_ hColon' posted⟩
      rw [List.length_append]
      omega
    | cons part parts =>
      obtain ⟨line, hLine⟩ : ∃ line, part.headerLine = 'C' :: line :=
        ⟨"ontent-Disposition: form-data; ".toList ++ part.params, by simp [headerLine_eq]⟩
      obtain ⟨more, hBody⟩ : ∃ more, form.body = form.delimiter ++ Part.crlf ++ ['C'] ++ more := by
        rw [Form.body, Form.pieces, hParts]
        exact ⟨line ++ (Part.crlf ++ part.rest) ++ Part.crlf ++ _, by
          simp [join, Part.text, hLine]
          rfl⟩
      have hSilent : Silent (matchItems items) (form.delimiter ++ Part.crlf ++ ['C']) more :=
        silent_quoted hItems (by simp [hQuote, Part.crlf]) (by decide) more
      obtain ⟨piece, pieces, hCut⟩ := exists_cut_silent hSilent
      rw [← hBody] at hCut
      have hPart : withoutLastCrlf (withoutFirstCrlf (form.delimiter ++ Part.crlf ++ ['C'] ++ piece)) =
          form.delimiter ++ '\r' :: '\n' :: ('C' :: withoutLastCrlf piece) := by
        rw [List.append_assoc, List.append_assoc, hFirst, ← List.append_assoc, List.singleton_append,
          withoutLastCrlf_keep (by decide), List.append_assoc]
        rfl
      refine ⟨_, _, hCut, parsePart_none hPart ?_ ?_ posted⟩
      · rw [List.length_append]
        omega
      · rw [splitLine_append hReturn]
        exact hColon
  obtain ⟨piece, pieces, hCut, hEnd⟩ := hNone
  rw [hCut, parseParts, hEnd]

/-- The boundary is never found when the header has it in quotes. -/
theorem not_recovers_quoted (hQuoted : form.quoted = true) : ¬ form.Recovers malformed := by
  intro hRecovers
  obtain ⟨posted, hParsed, hRecovered⟩ := hRecovers []
  have hWritten : form.written = '"' :: (form.boundary ++ ['"']) := by
    rw [Form.written, hQuoted, if_pos rfl, List.cons_append]
  rw [parsePostData_form, hWritten] at hParsed
  obtain ⟨items, hItems, rfl⟩ := Option.map_eq_some_iff.mp hParsed
  have hFailed := parseParts_quoted hItems {}
  exact absurd (hFailed.symm.trans hRecovered.ok) Bool.false_ne_true

/-! ### A boundary without quotes -/

theorem value_octets (form : Form) : ∀ part ∈ form.parts, ∀ c ∈ part.value, c.toNat < 256 := by
  intro part hMem
  have hPart := form.wellFormed part hMem
  cases part with
  | field name content => exact hPart.2
  | file name filename type content =>
    intro c hChar
    have hIn : c ∈ filename := by
      have hTaken := (List.takeWhile_prefix _).subset (List.mem_reverse.mp hChar)
      exact List.mem_reverse.mp hTaken
    exact (hPart.2.1 c hIn).2.2.2

/-- The names of a form are in the hash only if none is cut. -/
theorem names_of_recovers (hRecovers : form.Recovers malformed) :
    ∀ part ∈ form.parts, ¬ [';', ' '] <:+: part.name := by
  intro part hMem hInfix
  obtain ⟨posted, hParsed, hRecovered⟩ := hRecovers []
  rw [parsePostData_form] at hParsed
  obtain ⟨items, -, rfl⟩ := Option.map_eq_some_iff.mp hParsed
  have hFree : NoCut (parseParts {} (cut (matchItems items) 0 form.body)) :=
    NoCut.parseParts (fun _ _ => rfl) _
  have hValues := hRecovered.values part.name
  dsimp only at hValues
  rw [Hash.values, Hash.decode, hFree part.name hInfix] at hValues
  have hFound : part ∈ form.parts.filter (·.name = part.name) :=
    List.mem_filter.mpr ⟨hMem, by simp⟩
  have hNil : [] = (form.parts.filter (·.name = part.name)).map Part.value := Option.some.inj hValues
  exact absurd (List.map_eq_nil_iff.mp hNil.symm) (List.ne_nil_of_mem hFound)

theorem parsePostData_cut (hQuoted : form.quoted = false) (hCut : form.Cut)
    (hNames : ∀ part ∈ form.parts, ¬ [';', ' '] <:+: part.name) (method : Text) :
    parsePostData malformed (some form.contentType) method form.body =
      some { recordAll form.parts with
        postparams := (recordAll form.parts).postparams.decode malformed } := by
  obtain ⟨items, hItems, hExact⟩ := hCut
  have hWritten : form.written = form.boundary := by
    rw [Form.written, hQuoted, if_neg Bool.false_ne_true]
  have hPieces : cut (matchItems items) 0 form.body = [] :: form.pieces :=
    cut_join (List.cons_ne_nil _ _) hExact
  have hParsed : parseParts {} ([] :: form.pieces) = recordAll form.parts := by
    rw [parseParts, parsePart_nil]
    exact parseParts_texts form.wellFormed hNames {}
  rw [Form.delimiter] at hItems
  rw [parsePostData_form, hWritten, hItems, Option.map_some, hPieces, hParsed]

theorem flat_iff (parts : List Part) : (∀ name, FlatFor parts name) ↔
    ∀ before part after, parts = before ++ part :: after → part.IsFile →
      (before.filter (·.name = part.name)).length ≤ 1 := by
  constructor
  · exact fun hFlat before part after hParts hFile => hFlat part.name before part after hParts hFile rfl
  · rintro hFlat name before part after hParts hFile rfl
    exact hFlat before part after hParts hFile

theorem recovers_iff_kept (hQuoted : form.quoted = false) (hCut : form.Cut) :
    form.Recovers malformed ↔ form.Kept := by
  have hRecovered : Recovered form { recordAll form.parts with
      postparams := (recordAll form.parts).postparams.decode malformed } ↔
        (∀ name, FlatFor form.parts name ∧ ∀ part, form.parts.filter (·.name = name) = [part] →
          ∃ text, part.value = URI.encodeUtf8 text) ∧
        ∀ upload ∈ form.uploads, ∀ other ∈ form.uploads, upload.1 = other.1 → upload.2 = other.2 := by
    have hValues := @values_recovered_iff malformed form.parts (value_octets form)
    have hFiles := files_recovered_iff form.parts
    constructor
    · rintro ⟨-, hAll, hUploads⟩
      exact ⟨fun name => (hValues name).mp (hAll name), hFiles.mp hUploads⟩
    · rintro ⟨hAll, hUploads⟩
      exact ⟨ok_recordAll form.parts, fun name => (hValues name).mpr (hAll name), hFiles.mpr hUploads⟩
  constructor
  · intro hRecovers
    have hNames := names_of_recovers hRecovers
    obtain ⟨posted, hParsed, hPosted⟩ := hRecovers []
    rw [parsePostData_cut hQuoted hCut hNames] at hParsed
    cases Option.some.inj hParsed
    obtain ⟨hAll, hFiles⟩ := hRecovered.mp hPosted
    exact ⟨hNames, (flat_iff _).mp fun name => (hAll name).1, hFiles,
      fun name part hPart => (hAll name).2 part hPart⟩
  · intro hKept method
    refine ⟨_, parsePostData_cut hQuoted hCut hKept.names method, hRecovered.mpr ⟨fun name => ?_,
      hKept.files⟩⟩
    exact ⟨(flat_iff _).mpr hKept.flat name, hKept.decodable name⟩

/-! ### Boundaries that mean themselves -/

theorem readItems_literal (hPlain : ∀ c ∈ text, c ≠ '+' ∧ c ≠ '.' ∧ c ∉ special) :
    readItems text = some (text.map fun c => { atom := .char c, pluses := 0 }, 0) := by
  induction text with
  | nil => rfl
  | cons c text ih =>
    rw [List.forall_mem_cons] at hPlain
    rw [readItems_char hPlain.1.1 hPlain.1.2.1 hPlain.1.2.2, ih hPlain.2]
    rfl

theorem matchItems_literal (pattern : Text) :
    matchItems (pattern.map fun c => { atom := .char c, pluses := 0 }) = literal pattern := by
  funext text
  induction pattern generalizing text with
  | nil => exact (if_pos List.nil_prefix).symm
  | cons c pattern ih =>
    cases text with
    | nil => exact (if_neg (by simp)).symm
    | cons d text =>
      rw [List.map_cons, matchItems, ih, literal, literal]
      by_cases hSame : d = c
      · by_cases hRest : pattern <+: text
        · simp [Atom.accepts, List.cons_prefix_cons, hSame, hRest]
        · simp [Atom.accepts, List.cons_prefix_cons, hSame, hRest]
      · simp [Atom.accepts, List.cons_prefix_cons, hSame, Ne.symm hSame]

theorem not_special (hChar : isBoundaryChar c = true) : c ∉ special := by
  intro hMem
  simp only [special, List.mem_cons, List.not_mem_nil, or_false] at hMem
  rcases hMem with rfl | rfl | rfl | rfl | rfl | rfl | rfl | rfl | rfl | rfl | rfl | rfl
  all_goals exact absurd hChar (by decide)

/-- A boundary without dots and plus signs that is nowhere in the parts is found where it is. -/
theorem cut_of_plain (hPlain : '.' ∉ form.boundary ∧ '+' ∉ form.boundary)
    (hFree : ∀ part ∈ form.parts, ¬ form.delimiter <:+: part.text) : form.Cut := by
  have hChars : ∀ c ∈ form.delimiter, c ≠ '+' ∧ c ≠ '.' ∧ c ∉ special := by
    rw [Form.delimiter, List.forall_mem_cons, List.forall_mem_cons]
    refine ⟨by decide, by decide, fun c hMem => ⟨?_, ?_, not_special (form.boundary_chars c hMem)⟩⟩
    · rintro rfl
      exact hPlain.2 hMem
    · rintro rfl
      exact hPlain.1 hMem
  have hEnd : ¬ form.delimiter <:+: ['-', '-', '\r', '\n'] := by
    intro hInfix
    obtain ⟨b, boundary, hBoundary⟩ := List.exists_cons_of_ne_nil form.boundary_some
    have hText : form.delimiter = '-' :: '-' :: b :: boundary := by rw [Form.delimiter, hBoundary]
    have hMem := hInfix.subset (hText ▸ List.mem_cons_of_mem _ (List.mem_cons_of_mem _ List.mem_cons_self))
    have hLine : b ∉ ['\r', '\n'] := by
      intro hLine
      have hIn : b ∈ form.boundary := hBoundary ▸ List.mem_cons_self
      rcases List.mem_pair.mp hLine with rfl | rfl
      · exact boundary_not_mem form (by decide) hIn
      · exact boundary_not_mem form (by decide) hIn
    have hDash : b = '-' := by
      simp only [List.mem_cons, List.not_mem_nil, or_false] at hMem hLine
      tauto
    have hCount := hInfix.sublist.count_le '-'
    rw [hText, hDash] at hCount
    simp at hCount
  have hItems : compile form.delimiter =
      some (form.delimiter.map fun c => { atom := .char c, pluses := 0 }) := by
    rw [compile, readItems_literal hChars]
    rfl
  refine ⟨_, hItems, ?_⟩
  rw [matchItems_literal]
  refine @exact_literal _ _ _ '\n' (delimiter_not_mem form (by decide)) _ fun piece hMem => ?_
  rw [Form.pieces, List.mem_append, List.mem_singleton] at hMem
  rcases hMem with hPart | rfl
  · obtain ⟨part, hIn, rfl⟩ := List.mem_map.mp hPart
    refine ⟨⟨Part.crlf ++ (part.headerLine ++ (Part.crlf ++ part.rest)) ++ ['\r'], ?_⟩, hFree part hIn⟩
    simp [Part.text, Part.crlf]
  · exact ⟨⟨['-', '-', '\r'], rfl⟩, hEnd⟩

/-- Where the boundary cuts the body into the parts, the form is recovered if the header has it
without quotes and nothing in the parts is lost. -/
theorem recovers_iff (malformed : Text → Text) (form : Form)
    (hCut : form.quoted = false → form.Cut) :
    form.Recovers malformed ↔ form.quoted = false ∧ form.Kept := by
  cases hQuoted : form.quoted with
  | true =>
    constructor
    · exact fun hRecovers => absurd hRecovers (not_recovers_quoted hQuoted)
    · exact fun hBoth => nomatch hBoth.1
  | false =>
    rw [recovers_iff_kept hQuoted (hCut hQuoted)]
    exact (and_iff_right rfl).symm

/-- A file between two values of a field. -/
def fieldAndFile : Form where
  boundary := ['b']
  quoted := false
  parts := [.field ['a'] ['x'], .file ['f'] ['g'] ['t'] ['z'], .field ['a'] ['y']]
  boundary_some := by decide
  boundary_length := by decide
  boundary_chars := List.forall_mem_singleton.mpr (by decide)
  wellFormed := by
    rw [List.forall_mem_cons, List.forall_mem_cons, List.forall_mem_singleton]
    simp only [Part.WellFormed, Quotable, List.forall_mem_singleton]
    decide
  free := by decide

theorem recovers_fieldAndFile : fieldAndFile.Recovers id := by
  have hParts : fieldAndFile.parts =
      [.field ['a'] ['x'], .file ['f'] ['g'] ['t'] ['z'], .field ['a'] ['y']] := rfl
  have hFree : ∀ part ∈ fieldAndFile.parts, ¬ fieldAndFile.delimiter <:+: part.text := by
    rw [hParts, List.forall_mem_cons, List.forall_mem_cons, List.forall_mem_singleton]
    decide +kernel
  refine (recovers_iff id fieldAndFile fun _ => cut_of_plain (by decide) hFree).mpr ⟨rfl, ?_⟩
  refine ⟨by rw [hParts]; decide, ?_, by decide, ?_⟩
  · intro before part after hSplit hFile
    have hMem : part ∈ fieldAndFile.parts := hSplit ▸ List.mem_append_right before List.mem_cons_self
    have hBefore : before.Sublist fieldAndFile.parts := hSplit ▸ List.sublist_append_left ..
    rw [hParts, List.mem_cons, List.mem_cons, List.mem_singleton] at hMem
    rcases hMem with rfl | rfl | rfl
    · exact hFile.elim
    · exact (hBefore.filter _).length_le
    · exact hFile.elim
  · intro name part hFilter
    have hMem : part ∈ fieldAndFile.parts.filter (·.name = name) := hFilter ▸ List.mem_cons_self
    have hPart := (List.mem_filter.mp hMem).1
    rw [hParts, List.mem_cons, List.mem_cons, List.mem_singleton] at hPart
    rcases hPart with rfl | rfl | rfl
    · exact ⟨['x'], by decide⟩
    · exact ⟨['g'], by decide⟩
    · exact ⟨['y'], by decide⟩

/-- Three files under one name. -/
def threeFiles : Form where
  boundary := ['b']
  quoted := false
  parts := [.file ['a'] ['f'] ['t'] ['x'], .file ['a'] ['g'] ['t'] ['y'], .file ['a'] ['h'] ['t'] ['z']]
  boundary_some := by decide
  boundary_length := by decide
  boundary_chars := List.forall_mem_singleton.mpr (by decide)
  wellFormed := by
    rw [List.forall_mem_cons, List.forall_mem_cons, List.forall_mem_singleton]
    simp only [Part.WellFormed, Quotable, List.forall_mem_singleton]
    decide
  free := by decide

/-- The names of the first two files are in an array, which is in an array with the third. -/
theorem not_recovers_threeFiles : ¬ ∃ malformed, threeFiles.Recovers malformed := by
  rintro ⟨malformed, hRecovers⟩
  have hFree : ∀ part ∈ threeFiles.parts, ¬ threeFiles.delimiter <:+: part.text := by
    rw [threeFiles, List.forall_mem_cons, List.forall_mem_cons, List.forall_mem_singleton]
    decide +kernel
  have hKept := (recovers_iff_kept rfl (cut_of_plain (by decide) hFree)).mp hRecovers
  have hFew := hKept.flat [.file ['a'] ['f'] ['t'] ['x'], .file ['a'] ['g'] ['t'] ['y']]
    (.file ['a'] ['h'] ['t'] ['z']) [] rfl trivial
  exact absurd hFew (by decide)

end PageCamel.WebBase.PostData

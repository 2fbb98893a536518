import PageCamel.Helpers.TemplateEngine
import PageCamel.Helpers.UTF
import PageCamel.WebBase.RequestHead
import Mathlib.Logic.Function.Basic

/-!
Parameters of a request (`WebBase.pm`): the query in the request line, the body of a form, and
the cookies. Names with several values have an array in the hash. A query is not decoded as
UTF-8, and a cookie's value ends at its first equals sign.
-/

namespace PageCamel.WebBase.Params

open Lib (Octets octets)
open Helpers.TemplateEngine (isSpace)
open Lib.Fields Helpers Helpers.URI Helpers.UTF

/-! ### Hashes with several values under a name -/

/-- A scalar, with or without the UTF-8 flag. -/
inductive Scalar
  | undef
  | octets (s : Text)
  | decoded (s : Text)
  deriving DecidableEq, Repr

def Scalar.chars : Scalar → Text
  | undef => []
  | octets s | decoded s => s

/-- What a hash holds; an array is made from a value that is there, which may be an array. -/
inductive Value
  | scalar (value : Scalar)
  | array (tempval : Value) (pushed : List Scalar)
  deriving DecidableEq, Repr

abbrev Hash := Text → Option Value

def Hash.empty : Hash := fun _ => none

/-- A value is set, made an array, or pushed. -/
def Value.push (dval : Scalar) : Option Value → Value
  | none | some (scalar .undef) => scalar dval
  | some (array tempval pushed) => array tempval (pushed ++ [dval])
  | some tempval => array tempval [dval]

def Hash.collect (params : Hash) (entry : Text × Scalar) : Hash :=
  Function.update params entry.1 (some (Value.push entry.2 (params entry.1)))

/-- The values as one flat list; there is none where an array is in an array. -/
def Value.flat : Value → Option (List Scalar)
  | scalar value => some [value]
  | array (scalar tempval) pushed => some (tempval :: pushed)
  | array (array _ _) _ => none

def Hash.values (params : Hash) (name : Text) : Option (List Scalar) :=
  (params name).elim (some []) Value.flat

/-! ### Query and form -/

/-- What is missing counts as empty. -/
def keyAndValue (part : Text) : Text × Text :=
  (decodeUriPart (column (fields '=' part) 0), decodeUriPart (column (fields '=' part) 1))

def uriparam (part : Text) : Text × Scalar := ((keyAndValue part).1, .octets (keyAndValue part).2)

def uriparams (params : Text) : Hash := ((fields '&' params).map uriparam).foldl Hash.collect .empty

/-- `/([^\?]+)\?(.+)/`, the second group. -/
def query (url : Octets) : Option Octets :=
  match (url.dropWhile (· = 0x3F)).dropWhile (· ≠ 0x3F) with
  | _ :: b :: params => some (b :: params)
  | _ => none

def chars (octets : Octets) : Text := octets.map fun b => Char.ofNat b.toNat

section Decode
variable (malformed : Text → Text)

def postparam (part : Text) : Text × Scalar :=
  (utf8Decoded malformed (keyAndValue part).1, .decoded (utf8Decoded malformed (keyAndValue part).2))

/-- The parameters of an urlencoded form. -/
def urlencoded (postdata : Text) : Hash :=
  ((fields '&' postdata).map (postparam malformed)).foldl Hash.collect .empty

def Scalar.decode : Scalar → Scalar
  | octets s => (decodeUtf8 malformed s).elim (octets s) decoded
  | value => value

/-- "Make sure we have utf8 decoded properly": scalars, but not what is in an array. -/
def Value.decode : Value → Value
  | scalar value => scalar (value.decode malformed)
  | value => value

def Hash.decode (postparams : Hash) : Hash := fun name => (postparams name).map (Value.decode malformed)

/-- The line is decoded before it is looked at. -/
def parseRequestLine (decode_uri_path : Octets → Octets) (header : Octets) : Option (Ua × Hash) :=
  (parse_request_line decode_uri_path header).map fun ua =>
    let target := word ((header.dropWhile fun b => 0x41 ≤ b ∧ b ≤ 0x5A).drop 1)
    (ua, match query target with
      | none => .empty
      | some params => uriparams (utf8Decoded malformed (chars params)))

end Decode

/-! ### Cookies -/

abbrev Cookies := Text → Option Text

def setCookie (cookies : Cookies) (part : Text) : Cookies :=
  let part := (part.dropWhile isSpace).rdropWhile isSpace
  let cname := column (fields '=' part) 0
  let cval := column (fields '=' part) 1
  if '=' ∈ part ∧ cname ≠ [] ∧ cval ≠ [] then Function.update cookies cname (some cval) else cookies

/-- `parse_header_line`, the part behind the headers. -/
def parseCookies (malformed : Text → Text) (cookies : Cookies) (header : Octets) : Cookies :=
  match headerField header with
  | some (name, value) =>
      if name = octets "Cookie" then
        (fields ';' (utf8Decoded malformed (chars value))).foldl setCookie cookies
      else cookies
  | none => cookies

/-! ### Collecting -/

/-- What is there is defined, and arrays were made by pushing. -/
def Value.Proper : Value → Prop
  | scalar value => value ≠ .undef
  | array _ pushed => pushed ≠ []

def Hash.Proper (params : Hash) : Prop := ∀ name, ∀ value ∈ params name, value.Proper

variable {params : Hash} {entries : List (Text × Scalar)} {dval : Scalar}

theorem proper_empty : Hash.empty.Proper := fun _ _ hMem => nomatch hMem

theorem flat_push {value : Option Value} (hProper : ∀ v ∈ value, v.Proper) :
    (Value.push dval value).flat = (value.elim (some []) Value.flat).map (· ++ [dval]) := by
  cases value with
  | none => rfl
  | some value =>
    cases value with
    | scalar tempval =>
      cases tempval with
      | undef => exact absurd rfl (hProper _ rfl)
      | octets s => rfl
      | decoded s => rfl
    | array tempval pushed =>
      cases tempval with
      | scalar first => rfl
      | array first others => rfl

theorem proper_push (hDval : dval ≠ .undef) (value : Option Value) :
    (Value.push dval value).Proper := by
  cases value with
  | none => exact hDval
  | some value =>
    cases value with
    | scalar tempval =>
      cases tempval with
      | undef => exact hDval
      | octets s => exact List.cons_ne_nil _ _
      | decoded s => exact List.cons_ne_nil _ _
    | array tempval pushed => exact List.append_ne_nil_of_right_ne_nil _ (List.cons_ne_nil _ _)

theorem Hash.Proper.update (hParams : params.Proper) {name : Text} {value : Value}
    (hValue : value.Proper) : Hash.Proper (Function.update params name (some value)) := by
  intro other
  rw [Function.update_apply]
  split
  · rintro _ ⟨⟩
    exact hValue
  · exact hParams other

theorem Hash.Proper.collect (hParams : params.Proper) {entry : Text × Scalar}
    (hEntry : entry.2 ≠ .undef) : (params.collect entry).Proper :=
  hParams.update (proper_push hEntry _)

theorem values_update (name other : Text) (value : Value) :
    Hash.values (Function.update params name (some value)) other =
      if name = other then value.flat else params.values other := by
  rw [Hash.values, Function.update_apply, Hash.values]
  by_cases hName : name = other
  · rw [if_pos hName.symm, if_pos hName]
    rfl
  · rw [if_neg (Ne.symm hName), if_neg hName]

theorem values_collect (hParams : params.Proper) (entry : Text × Scalar) (name : Text) :
    (params.collect entry).values name =
      (params.values name).map (· ++ if entry.1 = name then [entry.2] else []) := by
  rw [Hash.collect, values_update]
  by_cases hName : entry.1 = name
  · rw [if_pos hName, if_pos hName, ← hName]
    exact flat_push (hParams entry.1)
  · rw [if_neg hName, if_neg hName]
    simp

/-- Each entry goes behind the values that its name has. -/
theorem values_foldl_collect (hParams : params.Proper) (hEntries : ∀ entry ∈ entries, entry.2 ≠ .undef)
    (name : Text) : (entries.foldl Hash.collect params).values name =
      (params.values name).map (· ++ (entries.filter (·.1 = name)).map Prod.snd) := by
  induction entries generalizing params with
  | nil => simp
  | cons entry entries ih =>
    rw [List.forall_mem_cons] at hEntries
    rw [List.foldl_cons, ih (hParams.collect hEntries.1) hEntries.2, values_collect hParams,
      Option.map_map]
    congr 1
    funext values
    by_cases hName : entry.1 = name
    · simp [hName]
    · simp [hName]

theorem values_collected (hEntries : ∀ entry ∈ entries, entry.2 ≠ .undef) (name : Text) :
    (entries.foldl Hash.collect .empty).values name =
      some ((entries.filter (·.1 = name)).map Prod.snd) :=
  values_foldl_collect proper_empty hEntries name

theorem Hash.Proper.foldl (hParams : params.Proper) (hEntries : ∀ entry ∈ entries, entry.2 ≠ .undef) :
    (entries.foldl Hash.collect params).Proper := by
  induction entries generalizing params with
  | nil => exact hParams
  | cons entry entries ih =>
    rw [List.forall_mem_cons] at hEntries
    rw [List.foldl_cons]
    exact ih (hParams.collect hEntries.1) hEntries.2

/-- Only a value that is alone is decoded. -/
theorem values_decode {malformed : Text → Text} (hParams : params.Proper) (name : Text) :
    (params.decode malformed).values name = (params.values name).map fun values =>
      if values.length = 1 then values.map (Scalar.decode malformed) else values := by
  rw [Hash.values, Hash.decode, Hash.values]
  cases hValue : params name with
  | none => rfl
  | some value =>
    cases value with
    | scalar value => rfl
    | array tempval pushed =>
      cases tempval with
      | array first others => rfl
      | scalar first =>
        have hMany : (first :: pushed).length ≠ 1 := by
          rw [List.length_cons, Ne, Nat.add_eq_right, List.length_eq_zero_iff]
          exact hParams name _ hValue
        show some (first :: pushed) = some (if _ then _ else _)
        rw [if_neg hMany]

/-! ### The usual encoding -/

def isVisible (c : Char) : Bool := '!' ≤ c && c ≤ '~'

/-- Characters that may stand for themselves in a query or a form. -/
def usualLiteral (c : Char) : Bool := isVisible c && c ∉ ['%', '+', '&', '=', '#']

def IsHexDigit (n : Nat) (digit : Char) : Prop := digit = n.digitChar ∨ digit = n.digitChar.toUpper

inductive EncodesOctet : Char → Text → Prop
  | literal {c : Char} (hLiteral : usualLiteral c = true) : EncodesOctet c [c]
  | blank : EncodesOctet ' ' ['+']
  | percent {c high low : Char} (hNarrow : c.toNat < 256) (hHigh : IsHexDigit (c.toNat / 16) high)
      (hLow : IsHexDigit (c.toNat % 16) low) : EncodesOctet c ['%', high, low]

/-- The octets of the UTF-8 text, each as itself, as a plus sign or by its number. -/
def Encodes (orig encoded : Text) : Prop :=
  ∃ pieces, List.Forall₂ EncodesOctet (URI.encodeUtf8 orig) pieces ∧ encoded = pieces.flatten

structure Pair where
  name : Text
  value : Text
  nonempty : name ≠ []

def EncodesPair (pair : Pair) (part : Text) : Prop :=
  ∃ name value, Encodes pair.name name ∧ Encodes pair.value value ∧ part = name ++ '=' :: value

def EncodesForm (pairs : List Pair) (form : Text) : Prop :=
  ∃ parts, List.Forall₂ EncodesPair pairs parts ∧ form = List.intercalate ['&'] parts

/-- A hash with every name of the list, its values in their order, and no other names. -/
def Hash.Holds (params : Hash) (pairs : List Pair) : Prop :=
  ∀ name, (params.values name).map (·.map Scalar.chars) =
    some ((pairs.filter (·.name = name)).map Pair.value)

/-- What the texts of names and values are made of. -/
def isEncoded (c : Char) : Bool := isVisible c && c ≠ '&' && c ≠ '='

theorem hex_digit : ∀ n < 16, hex n.digitChar = n ∧ hex n.digitChar.toUpper = n ∧
    isEncoded n.digitChar = true ∧ isEncoded n.digitChar.toUpper = true := by decide

theorem IsHexDigit.hex_eq {n : Nat} {digit : Char} (hDigit : IsHexDigit n digit) (hLess : n < 16) :
    hex digit = n := by
  rcases hDigit with rfl | rfl
  · exact (hex_digit n hLess).1
  · exact (hex_digit n hLess).2.1

theorem IsHexDigit.isEncoded {n : Nat} {digit : Char} (hDigit : IsHexDigit n digit) (hLess : n < 16) :
    isEncoded digit = true := by
  rcases hDigit with rfl | rfl
  · exact (hex_digit n hLess).2.2.1
  · exact (hex_digit n hLess).2.2.2

theorem EncodesOctet.isEncoded {c : Char} {piece : Text} (hPiece : EncodesOctet c piece) :
    ∀ d ∈ piece, isEncoded d = true := by
  cases hPiece with
  | literal hLiteral =>
    intro d hMem
    cases List.mem_singleton.mp hMem
    simp only [usualLiteral, Params.isEncoded, Bool.and_eq_true, decide_eq_true_eq] at hLiteral ⊢
    simp_all
  | blank => exact List.forall_mem_singleton.mpr (by decide)
  | percent hNarrow hHigh hLow =>
    rw [List.forall_mem_cons, List.forall_mem_cons, List.forall_mem_singleton]
    exact ⟨by decide, hHigh.isEncoded (by omega), hLow.isEncoded (by omega)⟩

/-- Each octet is decoded by itself. -/
theorem EncodesOctet.decode {c : Char} {piece : Text} (hPiece : EncodesOctet c piece) (rest : Text) :
    decodeUriPart (piece ++ rest) = c :: decodeUriPart rest := by
  rw [decodeUriPart, decodeUriPart]
  cases hPiece with
  | literal hLiteral =>
    have hPercent : c ≠ '%' := by
      rintro rfl
      exact absurd hLiteral (by decide)
    have hPlus : c ≠ '+' := by
      rintro rfl
      exact absurd hLiteral (by decide)
    rw [List.singleton_append, decodeWith_literal hPercent, if_neg hPlus]
  | blank =>
    rw [List.singleton_append, decodeWith_literal (by decide), if_pos rfl]
  | percent hNarrow hHigh hLow =>
    show Char.ofNat _ :: decodeWith _ rest = _
    rw [hHigh.hex_eq (by omega), hLow.hex_eq (by omega), Nat.div_add_mod', Char.ofNat_toNat]

theorem Encodes.decode {orig encoded : Text} (hEncodes : Encodes orig encoded) :
    decodeUriPart encoded = URI.encodeUtf8 orig := by
  obtain ⟨pieces, hPieces, rfl⟩ := hEncodes
  generalize URI.encodeUtf8 orig = octets at hPieces
  induction hPieces with
  | nil => rfl
  | cons hPiece _ ih => rw [List.flatten_cons, hPiece.decode, ih]

theorem Encodes.isEncoded {orig encoded : Text} (hEncodes : Encodes orig encoded) :
    ∀ d ∈ encoded, isEncoded d = true := by
  obtain ⟨pieces, hPieces, rfl⟩ := hEncodes
  generalize URI.encodeUtf8 orig = octets at hPieces
  induction hPieces with
  | nil => exact List.forall_mem_nil _
  | cons hPiece _ ih =>
    rw [List.flatten_cons, List.forall_mem_append]
    exact ⟨hPiece.isEncoded, ih⟩

theorem ne_of_isEncoded {c : Char} (hEncoded : isEncoded c = true) :
    isVisible c = true ∧ c ≠ '&' ∧ c ≠ '=' := by
  simpa only [isEncoded, Bool.and_eq_true, decide_eq_true_eq, and_assoc] using hEncoded

theorem fields_pair {name value : Text} (hName : '=' ∉ name) (hValue : '=' ∉ value) (i : Nat) :
    column (fields '=' (name ++ '=' :: value)) i = column [name, value] i := by
  have hFree : ∀ field ∈ [name, value], '=' ∉ field := by
    rw [List.forall_mem_cons, List.forall_mem_singleton]
    exact ⟨hName, hValue⟩
  have hPart : name ++ '=' :: value = List.intercalate ['='] [name, value] := by simp
  rw [hPart, fields_intercalate hFree, column_rdropWhile]

theorem EncodesPair.keyAndValue {pair : Pair} {part : Text} (hPart : EncodesPair pair part) :
    keyAndValue part = (URI.encodeUtf8 pair.name, URI.encodeUtf8 pair.value) := by
  obtain ⟨name, value, hName, hValue, rfl⟩ := hPart
  have hFree : '=' ∉ name := fun hMem => (ne_of_isEncoded (hName.isEncoded _ hMem)).2.2 rfl
  have hFree' : '=' ∉ value := fun hMem => (ne_of_isEncoded (hValue.isEncoded _ hMem)).2.2 rfl
  rw [Params.keyAndValue, fields_pair hFree hFree', fields_pair hFree hFree', ← hName.decode,
    ← hValue.decode]
  rfl

theorem EncodesPair.visible {pair : Pair} {part : Text} (hPart : EncodesPair pair part) :
    ∀ c ∈ part, isVisible c = true ∧ c ≠ '&' := by
  obtain ⟨name, value, hName, hValue, rfl⟩ := hPart
  rw [List.forall_mem_append, List.forall_mem_cons]
  refine ⟨fun c hMem => ?_, by decide, fun c hMem => ?_⟩
  · exact ⟨(ne_of_isEncoded (hName.isEncoded c hMem)).1, (ne_of_isEncoded (hName.isEncoded c hMem)).2.1⟩
  · exact ⟨(ne_of_isEncoded (hValue.isEncoded c hMem)).1, (ne_of_isEncoded (hValue.isEncoded c hMem)).2.1⟩

theorem EncodesPair.ne_nil {pair : Pair} {part : Text} (hPart : EncodesPair pair part) :
    part ≠ [] := by
  obtain ⟨name, value, -, -, rfl⟩ := hPart
  simp

theorem parts_of_encodes {pairs : List Pair} {parts : List Text}
    (hParts : List.Forall₂ EncodesPair pairs parts) :
    fields '&' (List.intercalate ['&'] parts) = parts := by
  have hEach : ∀ part ∈ parts, '&' ∉ part ∧ part ≠ [] := by
    induction hParts with
    | nil => exact List.forall_mem_nil _
    | cons hPart _ ih =>
      rw [List.forall_mem_cons]
      exact ⟨⟨fun hMem => (hPart.visible _ hMem).2 rfl, hPart.ne_nil⟩, ih⟩
  rw [fields_intercalate fun part hMem => (hEach part hMem).1, List.rdropWhile_eq_self_iff]
  intro hSome
  rw [List.isEmpty_iff]
  exact (hEach _ (List.getLast_mem hSome)).2

/-- Both parsers see the pairs, each in UTF-8. -/
theorem keyAndValue_of_encodes {pairs : List Pair} {form : Text} (hForm : EncodesForm pairs form) :
    (fields '&' form).map keyAndValue =
      pairs.map fun pair => (URI.encodeUtf8 pair.name, URI.encodeUtf8 pair.value) := by
  obtain ⟨parts, hParts, rfl⟩ := hForm
  rw [parts_of_encodes hParts]
  induction hParts with
  | nil => rfl
  | cons hPart _ ih => rw [List.map_cons, List.map_cons, hPart.keyAndValue, ih]

/-! ### The query -/

def isVisibleOctet (b : UInt8) : Bool := 0x21 ≤ b && b ≤ 0x7E

/-- The parts of a request line around its query. -/
structure RequestLine where
  method : Octets
  path : Octets
  version : Octets
  method_some : method ≠ []
  path_some : path ≠ []
  upper : ∀ b ∈ method, 0x41 ≤ b ∧ b ≤ 0x5A
  visible : ∀ b ∈ path, isVisibleOctet b = true ∧ b ≠ 0x3F

def RequestLine.target (line : RequestLine) (form : Text) : Octets :=
  line.path ++ 0x3F :: octetsOf form

def RequestLine.header (line : RequestLine) (form : Text) : Octets :=
  line.method ++ 0x20 :: (line.target form ++ (octets " HTTP/" ++ line.version))

theorem spaceLength_visible {b : UInt8} (hVisible : isVisibleOctet b = true) (rest : Octets) :
    spaceLength (b :: rest) = 0 := by
  rw [isVisibleOctet, Bool.and_eq_true, decide_eq_true_iff, decide_eq_true_iff,
    UInt8.le_iff_toNat_le, UInt8.le_iff_toNat_le] at hVisible
  obtain ⟨hFrom, hTo⟩ := hVisible
  have hPlain : ¬ (b = 0x20 ∨ (0x09 ≤ b ∧ b ≤ 0x0D)) := by
    rintro (rfl | ⟨-, hLow⟩)
    · exact absurd hFrom (by decide)
    · rw [UInt8.le_iff_toNat_le] at hLow
      exact absurd (Nat.le_trans hFrom hLow) (by decide)
  unfold spaceLength
  split
  · next hList => exact absurd ((List.cons.inj hList).1 ▸ hTo) (by decide)
  · next hList => exact absurd ((List.cons.inj hList).1 ▸ hTo) (by decide)
  · next hList => exact absurd ((List.cons.inj hList).1 ▸ hTo) (by decide)
  · next hList => exact absurd ((List.cons.inj hList).1 ▸ hTo) (by decide)
  · next hList => exact absurd ((List.cons.inj hList).1 ▸ hTo) (by decide)
  · next hList =>
    cases hList
    exact if_neg hPlain
  · rfl

theorem word_visible {run : Octets} (hVisible : ∀ b ∈ run, isVisibleOctet b = true) (rest : Octets) :
    word (run ++ 0x20 :: rest) = run := by
  induction run with
  | nil => rfl
  | cons b run ih =>
    rw [List.forall_mem_cons] at hVisible
    rw [List.cons_append, word, if_pos (spaceLength_visible hVisible.1 _), ih hVisible.2]

theorem query_target (line : RequestLine) (form : Text) :
    (query (line.target form)).getD [] = octetsOf form := by
  have hPath : ∀ b ∈ line.path, decide (b ≠ 0x3F) = true := fun b hMem =>
    decide_eq_true (line.visible b hMem).2
  obtain ⟨b, path, hCons⟩ := List.exists_cons_of_ne_nil line.path_some
  have hFirst : ¬ decide (b = 0x3F) = true := by
    simpa using (line.visible b (hCons ▸ List.mem_cons_self)).2
  have hStart : (line.target form).dropWhile (· = 0x3F) = line.target form := by
    rw [RequestLine.target, hCons]
    exact List.dropWhile_cons_of_neg hFirst
  rw [query, hStart, RequestLine.target, Lib.dropWhile_append_of_all hPath,
    List.dropWhile_cons_of_neg (by decide)]
  cases octetsOf form with
  | nil => rfl
  | cons c params => rfl

theorem toNat_octet {c : Char} (hNarrow : c.toNat < 256) : (UInt8.ofNat c.toNat).toNat = c.toNat :=
  Nat.mod_eq_of_lt hNarrow

theorem chars_octetsOf {s : Text} (hNarrow : ∀ c ∈ s, c.toNat < 256) : chars (octetsOf s) = s := by
  rw [chars, octetsOf, List.map_map]
  conv_rhs => rw [← List.map_id s]
  refine List.map_congr_left fun c hMem => ?_
  rw [Function.comp_apply, toNat_octet (hNarrow c hMem), Char.ofNat_toNat, id]

theorem toNat_of_isVisible {c : Char} (hVisible : isVisible c = true) :
    33 ≤ c.toNat ∧ c.toNat ≤ 126 := by
  rw [isVisible, Bool.and_eq_true, decide_eq_true_iff, decide_eq_true_iff] at hVisible
  exact ⟨UInt32.le_iff_toNat_le.mp hVisible.1, UInt32.le_iff_toNat_le.mp hVisible.2⟩

theorem ascii_of_isVisible {s : Text} (hVisible : ∀ c ∈ s, isVisible c = true) : Ascii s := by
  intro c hMem
  have hBounds := toNat_of_isVisible (hVisible c hMem)
  omega

theorem isVisibleOctet_octetsOf {s : Text} (hVisible : ∀ c ∈ s, isVisible c = true) :
    ∀ b ∈ octetsOf s, isVisibleOctet b = true := by
  intro b hMem
  obtain ⟨c, hChar, rfl⟩ := List.mem_map.mp hMem
  obtain ⟨hFrom, hTo⟩ := toNat_of_isVisible (hVisible c hChar)
  rw [isVisibleOctet, Bool.and_eq_true, decide_eq_true_iff, decide_eq_true_iff,
    UInt8.le_iff_toNat_le, UInt8.le_iff_toNat_le, toNat_octet (by omega)]
  exact ⟨hFrom, hTo⟩

theorem decoded_chars {malformed : Text → Text} {s : Text} (hAscii : Ascii s) :
    utf8Decoded malformed (chars (octetsOf s)) = s := by
  have hEncode := encodeUtf8_of_ascii hAscii
  rw [chars_octetsOf fun c hMem => Nat.lt_trans (hAscii c hMem) (by decide)]
  conv_lhs => rw [← hEncode]
  exact utf8Decoded_encodeUtf8 s

section Query
variable {malformed : Text → Text} {decode_uri_path : Octets → Octets}

/-- The parameters are those of the form, whatever stands around it. -/
theorem parseRequestLine_header (line : RequestLine) {form : Text}
    (hForm : ∀ c ∈ form, isVisible c = true) :
    ∃ ua, parseRequestLine malformed decode_uri_path (line.header form) =
      some (ua, uriparams form) := by
  have hVisible : ∀ b ∈ line.target form, isVisibleOctet b = true := by
    rw [RequestLine.target, List.forall_mem_append, List.forall_mem_cons]
    exact ⟨fun b hMem => (line.visible b hMem).1, by decide, isVisibleOctet_octetsOf hForm⟩
  have hMethod : (line.header form).takeWhile (fun b => decide (0x41 ≤ b ∧ b ≤ 0x5A)) = line.method := by
    rw [RequestLine.header, Lib.takeWhile_append_of_all fun b hMem => decide_eq_true (line.upper b hMem),
      List.takeWhile_cons_of_neg (by decide), List.append_nil]
  have hRest : (line.header form).dropWhile (fun b => decide (0x41 ≤ b ∧ b ≤ 0x5A)) =
      0x20 :: (line.target form ++ (octets " HTTP/" ++ line.version)) := by
    rw [RequestLine.header, Lib.dropWhile_append_of_all fun b hMem => decide_eq_true (line.upper b hMem),
      List.dropWhile_cons_of_neg (by decide)]
  have hTarget : word (line.target form ++ (octets " HTTP/" ++ line.version)) = line.target form :=
    word_visible hVisible _
  have hParsed : ∃ ua, parse_request_line decode_uri_path (line.header form) = some ua := by
    have hSome : line.method ≠ [] ∧ line.target form ≠ [] ∧
        (octets " HTTP/").isPrefixOf (octets " HTTP/" ++ line.version) := by
      refine ⟨line.method_some, ?_, ?_⟩
      · simp [RequestLine.target]
      · rw [List.isPrefixOf_iff_prefix]
        exact List.prefix_append _ _
    rw [parse_request_line, hMethod, RequestLine.header, List.drop_left]
    show ∃ ua, (if line.method ≠ [] ∧ word (line.target form ++ _) ≠ [] ∧ _ then some _ else none) =
      some ua
    rw [hTarget, List.drop_left, if_pos hSome]
    exact ⟨_, rfl⟩
  obtain ⟨ua, hUa⟩ := hParsed
  refine ⟨ua, ?_⟩
  have hQuery := query_target line form
  rw [parseRequestLine, hUa, Option.map_some, hRest, List.drop_one, List.tail_cons, hTarget]
  dsimp only
  cases hParams : query (line.target form) with
  | none =>
    rw [hParams] at hQuery
    cases List.map_eq_nil_iff.mp hQuery.symm
    rfl
  | some params =>
    rw [hParams, Option.getD_some] at hQuery
    dsimp only
    rw [hQuery, decoded_chars (ascii_of_isVisible hForm)]

theorem EncodesForm.visible {pairs : List Pair} {form : Text} (hForm : EncodesForm pairs form) :
    ∀ c ∈ form, isVisible c = true := by
  obtain ⟨parts, hParts, rfl⟩ := hForm
  induction hParts with
  | nil => exact List.forall_mem_nil _
  | @cons pair part pairs parts hPart _ ih =>
    have hFirst : ∀ c ∈ part, isVisible c = true := fun c hMem => (hPart.visible c hMem).1
    cases parts with
    | nil =>
      rw [List.intercalate_singleton]
      exact hFirst
    | cons next parts =>
      rw [List.intercalate_cons_cons, List.forall_mem_append, List.forall_mem_append]
      exact ⟨⟨hFirst, List.forall_mem_singleton.mpr (by decide)⟩, ih⟩

theorem exists_encodes (orig : Text) : ∃ encoded, Encodes orig encoded := by
  refine ⟨_, (URI.encodeUtf8 orig).map fun c =>
    ['%', (c.toNat / 16).digitChar, (c.toNat % 16).digitChar], ?_, rfl⟩
  rw [List.forall₂_map_right_iff, List.forall₂_same]
  exact fun c hMem => .percent (toNat_encodeUtf8 hMem) (.inl rfl) (.inl rfl)

theorem exists_encodesForm (pairs : List Pair) : ∃ form, EncodesForm pairs form := by
  choose encoded hEncodes using exists_encodes
  refine ⟨_, pairs.map fun pair => encoded pair.name ++ '=' :: encoded pair.value, ?_, rfl⟩
  rw [List.forall₂_map_right_iff, List.forall₂_same]
  exact fun pair _ => ⟨_, _, hEncodes pair.name, hEncodes pair.value, rfl⟩

/-- The names and values of a query are octets. -/
theorem values_uriparams {pairs : List Pair} {form : Text} (hForm : EncodesForm pairs form)
    (name : Text) : ((uriparams form).values name).map (·.map Scalar.chars) =
      some ((pairs.filter (URI.encodeUtf8 ·.name = name)).map (URI.encodeUtf8 ·.value)) := by
  have hDefined : ∀ entry ∈ pairs.map (fun pair =>
      (URI.encodeUtf8 pair.name, Scalar.octets (URI.encodeUtf8 pair.value))), entry.2 ≠ .undef := by
    intro entry hMem
    obtain ⟨pair, -, rfl⟩ := List.mem_map.mp hMem
    exact fun hUndef => nomatch hUndef
  have hEntries : (fields '&' form).map uriparam = pairs.map fun pair =>
      (URI.encodeUtf8 pair.name, Scalar.octets (URI.encodeUtf8 pair.value)) := by
    have hUriparam : uriparam = (fun entry => (entry.1, Scalar.octets entry.2)) ∘ keyAndValue := rfl
    rw [hUriparam, ← List.map_map, keyAndValue_of_encodes hForm, List.map_map]
    rfl
  rw [uriparams, hEntries, values_collected hDefined, Option.map_some, List.filter_map, List.map_map,
    List.map_map]
  rfl

/-- The query gives back the names and values of the list, however it is encoded. -/
def QueryKept (malformed : Text → Text) (decode_uri_path : Octets → Octets) (pairs : List Pair) :
    Prop :=
  ∀ (line : RequestLine) (form : Text), EncodesForm pairs form →
    ∃ ua params, parseRequestLine malformed decode_uri_path (line.header form) = some (ua, params) ∧
      params.Holds pairs

theorem queryKept_iff (pairs : List Pair) : QueryKept malformed decode_uri_path pairs ↔
    ∀ pair ∈ pairs, Ascii pair.name ∧ Ascii pair.value := by
  constructor
  · intro hKept
    obtain ⟨form, hForm⟩ := exists_encodesForm pairs
    let line : RequestLine := ⟨octets "GET", octets "/", [], by decide, by decide, by decide +kernel, by decide +kernel⟩
    obtain ⟨ua, params, hParsed, hHolds⟩ := hKept line form hForm
    obtain ⟨ua', hParsed'⟩ := parseRequestLine_header line hForm.visible
    obtain ⟨-, rfl⟩ := Prod.mk.inj (Option.some.inj (hParsed.symm.trans hParsed'))
    have hSame : ∀ name, (pairs.filter (URI.encodeUtf8 ·.name = name)).map (URI.encodeUtf8 ·.value) =
        (pairs.filter (·.name = name)).map Pair.value := fun name =>
      Option.some.inj ((values_uriparams hForm name).symm.trans (hHolds name))
    -- a name that is there is the encoding of one that is there
    have hNames : ∀ name ∈ pairs.map Pair.name, Ascii name := by
      apply ascii_of_closed
      intro name hMem
      obtain ⟨pair, hPair, rfl⟩ := List.mem_map.mp hMem
      have hFound : pair ∈ pairs.filter (·.name = pair.name) := List.mem_filter.mpr ⟨hPair, by simp⟩
      have hValue := List.mem_map_of_mem (f := Pair.value) hFound
      rw [← hSame] at hValue
      obtain ⟨other, hOther, -⟩ := List.mem_map.mp hValue
      obtain ⟨hMem', hName⟩ := List.mem_filter.mp hOther
      exact ⟨other.name, List.mem_map_of_mem hMem', of_decide_eq_true hName⟩
    intro pair hPair
    refine ⟨hNames _ (List.mem_map_of_mem hPair), encodeUtf8_eq_self_iff.mp ?_⟩
    have hFilter : pairs.filter (URI.encodeUtf8 ·.name = pair.name) =
        pairs.filter (·.name = pair.name) := by
      refine List.filter_congr fun other hOther => ?_
      rw [encodeUtf8_of_ascii (hNames _ (List.mem_map_of_mem hOther))]
    have hValues := hSame pair.name
    rw [hFilter, List.map_inj_left] at hValues
    exact hValues pair (List.mem_filter.mpr ⟨hPair, by simp⟩)
  · intro hAscii line form hForm
    obtain ⟨ua, hParsed⟩ := parseRequestLine_header line hForm.visible
    refine ⟨ua, _, hParsed, fun name => ?_⟩
    have hFilter : pairs.filter (URI.encodeUtf8 ·.name = name) = pairs.filter (·.name = name) := by
      refine List.filter_congr fun pair hPair => ?_
      rw [encodeUtf8_of_ascii (hAscii pair hPair).1]
    rw [values_uriparams hForm, hFilter]
    congr 1
    exact List.map_congr_left fun pair hMem =>
      encodeUtf8_of_ascii (hAscii pair (List.mem_filter.mp hMem).1).2

end Query

/-! ### Cookies in a header -/

structure Cookie where
  name : Text
  value : Text
  name_some : name ≠ []
  name_visible : ∀ c ∈ name, isVisible c = true ∧ c ≠ '=' ∧ c ≠ ';'
  value_plain : ∀ c ∈ value, isSpace c = false ∧ c ≠ ';'

def Cookie.text (cookie : Cookie) : Text := cookie.name ++ '=' :: cookie.value

structure CookieList where
  cookies : List Cookie
  distinct : (cookies.map Cookie.name).Nodup

def CookieList.text (list : CookieList) : Text :=
  List.intercalate [';', ' '] (list.cookies.map Cookie.text)

def CookieList.header (list : CookieList) : Octets :=
  octets "Cookie: " ++ octetsOf (URI.encodeUtf8 list.text)

/-- The header gives back every cookie. -/
def CookiesKept (malformed : Text → Text) (list : CookieList) : Prop :=
  ∀ cookie ∈ list.cookies,
    parseCookies malformed (fun _ => none) list.header cookie.name = some cookie.value

theorem isSpace_of_isVisible {c : Char} (hVisible : isVisible c = true) : isSpace c = false := by
  obtain ⟨hFrom, hTo⟩ := toNat_of_isVisible hVisible
  have hVal : c.val.toNat = c.toNat := rfl
  have hBlank : c ≠ ' ' := by
    rintro rfl
    exact absurd hFrom (by decide)
  simp only [isSpace, decide_eq_false_iff_not, UInt32.le_iff_toNat_le, ← UInt32.toNat_inj, hBlank,
    false_or, hVal, UInt32.reduceToNat]
  omega

/-- The value in front of its first equals sign. -/
def Cookie.front (cookie : Cookie) : Text := column (cookie.value.splitOn '=') 0

theorem Cookie.columns (cookie : Cookie) : column (fields '=' cookie.text) 0 = cookie.name ∧
    column (fields '=' cookie.text) 1 = cookie.front := by
  have hName : '=' ∉ cookie.name := fun hMem => (cookie.name_visible _ hMem).2.1 rfl
  have hFree : ∀ field ∈ cookie.name :: cookie.value.splitOn '=', '=' ∉ field := by
    rw [List.forall_mem_cons]
    exact ⟨hName, fun field hField => not_mem_of_mem_splitOn hField⟩
  have hText : cookie.text = List.intercalate ['='] (cookie.name :: cookie.value.splitOn '=') := by
    obtain ⟨first, rest, hSplit⟩ := List.exists_cons_of_ne_nil (List.splitOn_ne_nil '=' cookie.value)
    rw [hSplit, List.intercalate_cons_cons, ← hSplit, List.intercalate_splitOn]
    simp [Cookie.text]
  rw [hText, fields_intercalate hFree, column_rdropWhile, column_rdropWhile]
  exact ⟨rfl, rfl⟩

theorem Cookie.front_eq_iff (cookie : Cookie) : cookie.front = cookie.value ↔ '=' ∉ cookie.value := by
  obtain ⟨first, rest, hSplit⟩ := List.exists_cons_of_ne_nil (List.splitOn_ne_nil '=' cookie.value)
  have hFront : cookie.front = first := by
    rw [Cookie.front, hSplit]
    rfl
  rw [hFront]
  constructor
  · intro hSame
    rw [← hSame]
    exact not_mem_of_mem_splitOn (hSplit ▸ List.mem_cons_self)
  · intro hFree
    have hWhole := List.splitOn_intercalate '=' (List.forall_mem_singleton.mpr hFree)
      (List.cons_ne_nil cookie.value [])
    rw [List.intercalate_singleton, hSplit] at hWhole
    exact (List.cons.inj hWhole).1

theorem Cookie.trim (cookie : Cookie) :
    (cookie.text.dropWhile isSpace).rdropWhile isSpace = cookie.text ∧
      ((' ' :: cookie.text).dropWhile isSpace).rdropWhile isSpace = cookie.text := by
  have hStart : cookie.text.dropWhile isSpace = cookie.text := by
    obtain ⟨c, name, hName⟩ := List.exists_cons_of_ne_nil cookie.name_some
    have hVisible := (cookie.name_visible c (hName ▸ List.mem_cons_self)).1
    rw [Cookie.text, hName, List.cons_append, List.dropWhile_cons_of_neg]
    rw [isSpace_of_isVisible hVisible]
    exact Bool.false_ne_true
  have hEnd : cookie.text.rdropWhile isSpace = cookie.text := by
    rw [List.rdropWhile_eq_self_iff]
    intro hSome
    have hLast : isSpace (cookie.text.getLast hSome) = false := by
      have hMem := List.getLast_mem hSome
      generalize cookie.text.getLast hSome = last at hMem ⊢
      rw [Cookie.text, List.mem_append, List.mem_cons] at hMem
      rcases hMem with hName | rfl | hValue
      · exact isSpace_of_isVisible (cookie.name_visible _ hName).1
      · decide
      · exact (cookie.value_plain _ hValue).1
    rw [hLast]
    exact Bool.false_ne_true
  rw [List.dropWhile_cons_of_pos (by decide), hStart]
  exact ⟨hEnd, hEnd⟩

def Cookie.store (cookies : Cookies) (cookie : Cookie) : Cookies :=
  if cookie.front = [] then cookies else Function.update cookies cookie.name (some cookie.front)

theorem setCookie_text {cookie : Cookie} {part : Text}
    (hPart : (part.dropWhile isSpace).rdropWhile isSpace = cookie.text) (cookies : Cookies) :
    setCookie cookies part = cookie.store cookies := by
  have hSign : '=' ∈ cookie.text := by simp [Cookie.text]
  rw [setCookie, hPart, cookie.columns.1, cookie.columns.2, Cookie.store]
  by_cases hFront : cookie.front = []
  · rw [if_pos hFront, if_neg fun hAll => hAll.2.2 hFront]
  · rw [if_neg hFront, if_pos ⟨hSign, cookie.name_some, hFront⟩]

theorem foldl_setCookie {parts : List Text} {cookies : List Cookie}
    (hParts : List.Forall₂ (fun part cookie =>
      (part.dropWhile isSpace).rdropWhile isSpace = cookie.text) parts cookies) (init : Cookies) :
    parts.foldl setCookie init = cookies.foldl (fun cookies cookie => cookie.store cookies) init := by
  induction hParts generalizing init with
  | nil => rfl
  | cons hPart _ ih => rw [List.foldl_cons, List.foldl_cons, setCookie_text hPart, ih]

theorem intercalate_blank (text : Text) (texts : List Text) :
    List.intercalate [';', ' '] (text :: texts) =
      List.intercalate [';'] (text :: texts.map (' ' :: ·)) := by
  induction texts generalizing text with
  | nil => rfl
  | cons next texts ih =>
    rw [List.intercalate_cons_cons, ih, List.map_cons, List.intercalate_cons_cons]
    cases texts with
    | nil => simp
    | cons other texts => simp

/-- The header is cut into the cookies, with a blank in front of all but the first. -/
theorem fields_text (list : CookieList) : List.Forall₂ (fun part cookie =>
    (part.dropWhile isSpace).rdropWhile isSpace = Cookie.text cookie) (fields ';' list.text)
      list.cookies := by
  have hFree : ∀ cookie : Cookie, ';' ∉ cookie.text := by
    intro cookie hMem
    rw [Cookie.text, List.mem_append, List.mem_cons] at hMem
    rcases hMem with hName | hSign | hValue
    · exact (cookie.name_visible _ hName).2.2 rfl
    · exact absurd hSign (by decide)
    · exact (cookie.value_plain _ hValue).2 rfl
  rw [CookieList.text]
  cases list.cookies with
  | nil => exact .nil
  | cons first others =>
    have hEach : ∀ part ∈ first.text :: (others.map Cookie.text).map (' ' :: ·),
        ';' ∉ part ∧ ¬ part.isEmpty = true := by
      rw [List.forall_mem_cons]
      refine ⟨⟨hFree first, by simp [Cookie.text]⟩, fun part hPart => ?_⟩
      obtain ⟨text, hText, rfl⟩ := List.mem_map.mp hPart
      obtain ⟨cookie, -, rfl⟩ := List.mem_map.mp hText
      refine ⟨fun hMem => ?_, by simp⟩
      exact hFree cookie ((List.mem_cons.mp hMem).resolve_left (by decide))
    rw [List.map_cons, intercalate_blank, fields_intercalate fun part hPart => (hEach part hPart).1,
      List.rdropWhile_eq_self_iff.mpr fun hSome => (hEach _ (List.getLast_mem hSome)).2]
    refine .cons first.trim.1 ?_
    rw [List.map_map, List.forall₂_map_left_iff, List.forall₂_same]
    exact fun cookie _ => cookie.trim.2

theorem foldl_store_of_not_mem {name : Text} {cookies : List Cookie}
    (hOther : name ∉ cookies.map Cookie.name) (init : Cookies) :
    cookies.foldl (fun cookies cookie => cookie.store cookies) init name = init name := by
  induction cookies generalizing init with
  | nil => rfl
  | cons cookie cookies ih =>
    rw [List.map_cons, List.mem_cons, not_or] at hOther
    rw [List.foldl_cons, ih hOther.2, Cookie.store]
    split
    · rfl
    · exact Function.update_of_ne hOther.1 _ _

/-- With distinct names, each cookie is as it was stored. -/
theorem foldl_store {cookies : List Cookie} (hDistinct : (cookies.map Cookie.name).Nodup)
    {init : Cookies} (hInit : ∀ cookie ∈ cookies, init cookie.name = none) :
    ∀ cookie ∈ cookies, cookies.foldl (fun cookies cookie => cookie.store cookies) init cookie.name =
      if cookie.front = [] then none else some cookie.front := by
  induction cookies generalizing init with
  | nil => exact List.forall_mem_nil _
  | cons first cookies ih =>
    rw [List.map_cons, List.nodup_cons] at hDistinct
    rw [List.forall_mem_cons] at hInit ⊢
    constructor
    · rw [List.foldl_cons, foldl_store_of_not_mem hDistinct.1, Cookie.store]
      split
      · exact hInit.1
      · exact Function.update_self _ _ _
    · intro cookie hMem
      rw [List.foldl_cons]
      refine ih hDistinct.2 (fun other hOther => ?_) cookie hMem
      have hNames : other.name ≠ first.name := fun hSame =>
        hDistinct.1 (hSame ▸ List.mem_map_of_mem hOther)
      rw [Cookie.store]
      split
      · exact hInit.2 other hOther
      · rw [Function.update_of_ne hNames]
        exact hInit.2 other hOther

theorem dropSpaces_blank {value : Octets} (hValue : ∀ b ∈ value.head?, isVisibleOctet b = true) :
    dropSpaces (0x20 :: value).length (0x20 :: value) = value := by
  have hBlank : spaceLength (0x20 :: value) = 1 := rfl
  rw [List.length_cons, dropSpaces, if_neg (by rw [hBlank]; exact Nat.one_ne_zero), hBlank,
    List.drop_one, List.tail_cons]
  cases value with
  | nil => rfl
  | cons b value =>
    rw [List.length_cons, dropSpaces, if_pos (spaceLength_visible (hValue b rfl) value)]

/-- The value of the header begins with the name of a cookie. -/
theorem head_text_visible (list : CookieList) :
    ∀ b ∈ (octetsOf (URI.encodeUtf8 list.text)).head?, isVisibleOctet b = true := by
  cases hCookies : list.cookies with
  | nil =>
    rw [CookieList.text, hCookies]
    exact fun b hHead => nomatch hHead
  | cons first others =>
    obtain ⟨c, name, hName⟩ := List.exists_cons_of_ne_nil first.name_some
    have hVisible := (first.name_visible c (hName ▸ List.mem_cons_self)).1
    have hAscii : c.toNat < 128 := by
      have hBounds := toNat_of_isVisible hVisible
      omega
    have hText : ∃ rest, list.text = c :: rest := by
      rw [CookieList.text, hCookies, List.map_cons, intercalate_blank]
      cases others with
      | nil => exact ⟨_, by rw [List.map_nil, List.map_nil, List.intercalate_singleton, Cookie.text,
          hName, List.cons_append]⟩
      | cons next others => exact ⟨_, by rw [List.map_cons, List.map_cons, List.intercalate_cons_cons,
          Cookie.text, hName, List.cons_append, List.cons_append, List.cons_append]⟩
    obtain ⟨rest, hText⟩ := hText
    rw [hText, encodeUtf8_cons, encodeUtf8_ascii_char hAscii]
    rintro b ⟨⟩
    exact isVisibleOctet_octetsOf (List.forall_mem_singleton.mpr hVisible) _ List.mem_cons_self

/-- The name and the value of the header line. -/
theorem headerField_cookie (list : CookieList) :
    headerField list.header = some (octets "Cookie", octetsOf (URI.encodeUtf8 list.text)) := by
  have hHeader : list.header = octets "Cookie:" ++ 0x20 :: octetsOf (URI.encodeUtf8 list.text) := rfl
  have hWord : word list.header = octets "Cookie:" := by
    rw [hHeader, word_visible (by decide +kernel)]
  have hName : httpheadersmapping (octets "Cookie") = octets "Cookie" := by decide
  have hRest : list.header.drop 7 = 0x20 :: octetsOf (URI.encodeUtf8 list.text) := rfl
  rw [headerField, hWord]
  show some (httpheadersmapping (octets "Cookie"), if httpheadersmapping (octets "Cookie") = octets "Host"
    then _ else dropSpaces (list.header.drop 7).length (list.header.drop 7)) = _
  rw [hName, if_neg (by decide), hRest, dropSpaces_blank (head_text_visible list)]

theorem cookiesKept_iff {malformed : Text → Text} (list : CookieList) :
    CookiesKept malformed list ↔ ∀ cookie ∈ list.cookies, cookie.value ≠ [] ∧ '=' ∉ cookie.value := by
  have hParsed : parseCookies malformed (fun _ => none) list.header =
      list.cookies.foldl (fun cookies cookie => cookie.store cookies) (fun _ => none) := by
    have hText : utf8Decoded malformed (chars (octetsOf (URI.encodeUtf8 list.text))) = list.text := by
      rw [chars_octetsOf fun c hMem => toNat_encodeUtf8 hMem, utf8Decoded_encodeUtf8]
    rw [parseCookies, headerField_cookie]
    dsimp only
    rw [if_pos rfl, hText, foldl_setCookie (fields_text list)]
  rw [CookiesKept, hParsed]
  refine forall₂_congr fun cookie hMem => ?_
  rw [foldl_store list.distinct (fun _ _ => rfl) cookie hMem]
  constructor
  · intro hKept
    split at hKept
    · exact nomatch hKept
    · next hFront =>
      have hSame := Option.some.inj hKept
      exact ⟨hSame ▸ hFront, cookie.front_eq_iff.mp hSame⟩
  · rintro ⟨hSome, hFree⟩
    have hSame := cookie.front_eq_iff.mpr hFree
    rw [hSame, if_neg hSome]

end PageCamel.WebBase.Params

import PageCamel.Lib.Fields
import Mathlib.Data.List.DropRight

/-!
Encoding and decoding of addresses (`Helpers/URI.pm`). A string of octets is a string of
characters below 256, as in the source. The part-wise functions lose slashes at the end, and
the path variant writes wide characters with more than two digits.
-/

namespace PageCamel.Helpers.URI

open Lib.Fields

abbrev Text := List Char

def encodeUtf8 (orig : Text) : Text :=
  orig.flatMap fun c => (String.utf8EncodeChar c).map fun b => Char.ofNat b.toNat

/-- `hex` of one character; what is no digit counts as zero. -/
def hex (c : Char) : Nat :=
  if '0' ≤ c ∧ c ≤ '9' then c.toNat - 48
  else if 'a' ≤ c ∧ c ≤ 'f' then c.toNat - 87
  else if 'A' ≤ c ∧ c ≤ 'F' then c.toNat - 55
  else 0

/-- `'%' . uc(doFPad(sprintf("%x", ord($part)), 2))`. -/
def percent (part : Char) : Text := '%' :: ((Nat.toDigits 16 part.toNat).leftpad 2 '0').map Char.toUpper

def isLiteral (part : Char) : Bool := part.isAlphanum || part = ':' || part = '~'

def encodeOctet (part : Char) : Text :=
  if isLiteral part then [part] else if part = ' ' then ['+'] else percent part

def encodeUriPart (orig : Text) : Text := (encodeUtf8 orig).flatMap encodeOctet

def encodeUri (orig : Text) : Text :=
  List.intercalate ['/'] ((fields '/' orig).map encodeUriPart)

def encodePathChar (encodeslashes : Bool) (part : Char) : Text :=
  if isLiteral part || part = '/' then
    if encodeslashes && part = '/' then percent part else [part]
  else if part = ' ' then ['%', '2', '0']
  else percent part

def encodeUriPath (orig : Text) (encodeslashes : Bool) : Text :=
  orig.flatMap (encodePathChar encodeslashes)

/-- Both decoders, with what becomes of a character other than `%`. Behind the end of the
string `hex` gives zero. -/
def decodeWith (literal : Char → Char) : Text → Text
  | [] => []
  | ['%'] => [Char.ofNat 0]
  | ['%', high] => [Char.ofNat (hex high * 16)]
  | '%' :: high :: low :: parts => Char.ofNat (hex high * 16 + hex low) :: decodeWith literal parts
  | part :: parts => literal part :: decodeWith literal parts

def decodeUriPart (orig : Text) : Text := decodeWith (fun part => if part = '+' then ' ' else part) orig

def decodeUriPath (orig : Text) : Text := decodeWith id orig

def decodeUri (orig : Text) : Text := List.intercalate ['/'] ((fields '/' orig).map decodeUriPart)

/-! ### One character -/

variable {literal : Char → Char} {c : Char}

theorem decodeWith_literal (hOther : c ≠ '%') (rest : Text) :
    decodeWith literal (c :: rest) = literal c :: decodeWith literal rest := by
  rw [decodeWith]
  · simp [hOther]
  · simp [hOther]
  · simp [hOther]

def hexDigit (n : Nat) : Char := n.digitChar.toUpper

theorem hex_hexDigit : ∀ n < 16, hex (hexDigit n) = n := by decide

theorem hexDigit_ne : ∀ n < 16, hexDigit n ≠ '%' ∧ hexDigit n ≠ '/' ∧ hexDigit n ≠ '+' := by decide

theorem mem_digits {n : Nat} {d : Char} (hDigit : d ∈ (Nat.toDigits 16 n).map Char.toUpper) :
    ∃ k < 16, d = hexDigit k := by
  induction n using Nat.strongRecOn with
  | ind n ih =>
    rw [Nat.toDigits_eq_if (by decide)] at hDigit
    split at hDigit
    · next hLess => exact ⟨n, hLess, List.mem_singleton.mp hDigit⟩
    · rw [List.map_append, List.mem_append] at hDigit
      rcases hDigit with hFront | hLast
      · exact ih (n / 16) (by omega) hFront
      · exact ⟨n % 16, Nat.mod_lt n (by decide), List.mem_singleton.mp hLast⟩

theorem percent_of_lt (hNarrow : c.toNat < 256) :
    percent c = ['%', hexDigit (c.toNat / 16), hexDigit (c.toNat % 16)] := by
  rw [percent, Nat.toDigits_eq_if (by decide)]
  split
  · next hLess =>
    rw [Nat.div_eq_of_lt hLess, Nat.mod_eq_of_lt hLess]
    rfl
  · rw [Nat.toDigits_of_lt_base (by omega)]
    rfl

/-- A wide character has a third digit. -/
theorem percent_of_le (hWide : 256 ≤ c.toNat) : ∃ high low digit digits,
    percent c = '%' :: high :: low :: digit :: digits ∧ ∀ d ∈ digit :: digits, d ≠ '%' := by
  have hDigits : ∀ d ∈ (Nat.toDigits 16 c.toNat).map Char.toUpper, d ≠ '%' := by
    intro d hd
    obtain ⟨k, hk, rfl⟩ := mem_digits hd
    exact (hexDigit_ne k hk).1
  have hLength : 2 < (Nat.toDigits 16 c.toNat).length := by
    by_contra hShort
    have hBound := (Nat.length_toDigits_le_iff (by decide : 1 < 16) (by decide : 0 < 2)).mp
      (Nat.le_of_not_lt hShort)
    omega
  rw [percent, List.leftpad, Nat.sub_eq_zero_of_le (Nat.le_of_lt hLength)]
  match hList : Nat.toDigits 16 c.toNat, hLength with
  | high :: low :: digit :: digits, _ =>
    refine ⟨_, _, _, _, rfl, ?_⟩
    intro d hd
    apply hDigits d
    rw [hList]
    exact List.mem_cons_of_mem _ (List.mem_cons_of_mem _ hd)

theorem decodeWith_percent (hNarrow : c.toNat < 256) (rest : Text) :
    decodeWith literal (percent c ++ rest) = c :: decodeWith literal rest := by
  rw [percent_of_lt hNarrow]
  show Char.ofNat _ :: decodeWith literal rest = _
  rw [hex_hexDigit _ (by omega), hex_hexDigit _ (by omega), Nat.div_add_mod', Char.ofNat_toNat]

theorem decodeWith_digits {digits : Text} (hDigits : ∀ d ∈ digits, d ≠ '%') (rest : Text) :
    decodeWith id (digits ++ rest) = digits ++ decodeWith id rest := by
  induction digits with
  | nil => rfl
  | cons d digits ih =>
    rw [List.forall_mem_cons] at hDigits
    rw [List.cons_append, decodeWith_literal hDigits.1, ih hDigits.2]
    rfl

theorem isLiteral_ne (hLiteral : isLiteral c) : c ≠ '%' ∧ c ≠ '/' ∧ c ≠ '+' := by
  refine ⟨?_, ?_, ?_⟩
  all_goals
    rintro rfl
    exact absurd hLiteral (by decide)

theorem toNat_of_isLiteral (hLiteral : isLiteral c) : c.toNat < 128 := by
  delta isLiteral Char.isAlphanum Char.isAlpha Char.isUpper Char.isLower Char.isDigit at hLiteral
  simp only [Bool.or_eq_true, Bool.and_eq_true, decide_eq_true_eq, UInt32.le_iff_toNat_le, ge_iff_le]
    at hLiteral
  rcases hLiteral with (((⟨-, hTo⟩ | ⟨-, hTo⟩) | ⟨-, hTo⟩) | rfl) | rfl
  · exact Nat.lt_of_le_of_lt hTo (by decide)
  · exact Nat.lt_of_le_of_lt hTo (by decide)
  · exact Nat.lt_of_le_of_lt hTo (by decide)
  · decide
  · decide

/-! ### Paths -/

/-- Paths come back character by character, and a wide one as more than one. -/
theorem decode_encodePathChar (encodeslashes : Bool) (hNarrow : c.toNat < 256) (rest : Text) :
    decodeUriPath (encodePathChar encodeslashes c ++ rest) = c :: decodeUriPath rest := by
  rw [decodeUriPath, encodePathChar]
  split
  · next hPlain =>
    split
    · exact decodeWith_percent hNarrow rest
    · have hOther : c ≠ '%' := by
        rintro rfl
        exact absurd hPlain (by decide)
      exact decodeWith_literal hOther rest
  · split
    · next hBlank =>
      subst hBlank
      rfl
    · exact decodeWith_percent hNarrow rest

theorem length_decode_wide (encodeslashes : Bool) (hWide : 256 ≤ c.toNat) (rest : Text) :
    (decodeUriPath rest).length + 2 ≤
      (decodeUriPath (encodePathChar encodeslashes c ++ rest)).length := by
  have hPlain : ¬ (isLiteral c || c = '/') = true := by
    intro hPlain
    rw [Bool.or_eq_true, decide_eq_true_iff] at hPlain
    rcases hPlain with hLiteral | rfl
    · have hAscii := toNat_of_isLiteral hLiteral
      omega
    · exact absurd hWide (by decide)
  have hBlank : c ≠ ' ' := by
    rintro rfl
    exact absurd hWide (by decide)
  obtain ⟨high, low, digit, digits, hPercent, hDigits⟩ := percent_of_le hWide
  rw [encodePathChar, if_neg hPlain, if_neg hBlank, hPercent]
  show _ ≤ (Char.ofNat _ :: decodeWith id (digit :: digits ++ rest)).length
  rw [decodeWith_digits hDigits, decodeUriPath]
  simp only [List.length_cons, List.length_append]
  omega

theorem length_decode_encodeUriPath (encodeslashes : Bool) (path : Text) :
    path.length ≤ (decodeUriPath (encodeUriPath path encodeslashes)).length := by
  induction path with
  | nil => exact Nat.zero_le _
  | cons c path ih =>
    rw [encodeUriPath, List.flatMap_cons, ← encodeUriPath, List.length_cons]
    by_cases hNarrow : c.toNat < 256
    · rw [decode_encodePathChar encodeslashes hNarrow, List.length_cons]
      exact Nat.succ_le_succ ih
    · have hMore := length_decode_wide encodeslashes (Nat.le_of_not_lt hNarrow)
        (encodeUriPath path encodeslashes)
      omega

theorem decode_encodeUriPath_iff (encodeslashes : Bool) (path : Text) :
    decodeUriPath (encodeUriPath path encodeslashes) = path ↔ ∀ c ∈ path, c.toNat < 256 := by
  induction path with
  | nil => simp [encodeUriPath, decodeUriPath, decodeWith]
  | cons c path ih =>
    rw [encodeUriPath, List.flatMap_cons, ← encodeUriPath, List.forall_mem_cons, ← ih]
    by_cases hNarrow : c.toNat < 256
    · rw [decode_encodePathChar encodeslashes hNarrow, List.cons.injEq]
      simp only [hNarrow, true_and]
    · have hMore := length_decode_wide encodeslashes (Nat.le_of_not_lt hNarrow)
        (encodeUriPath path encodeslashes)
      have hRest := length_decode_encodeUriPath encodeslashes path
      constructor
      · intro hSame
        rw [hSame, List.length_cons] at hMore
        omega
      · rintro ⟨hLess, -⟩
        exact absurd hLess hNarrow

/-! ### Parts -/

theorem toNat_encodeUtf8 {orig : Text} (hMem : c ∈ encodeUtf8 orig) : c.toNat < 256 := by
  obtain ⟨d, -, hOctet⟩ := List.mem_flatMap.mp hMem
  obtain ⟨b, -, rfl⟩ := List.mem_map.mp hOctet
  have hBound : b.toNat < 256 := b.toNat_lt
  have hValid : b.toNat.isValidChar := .inl (by omega)
  rw [Char.ofNat, dif_pos hValid]
  exact hBound

theorem encodeUtf8_eq_nil {orig : Text} (hNone : encodeUtf8 orig = []) : orig = [] := by
  cases orig with
  | nil => rfl
  | cons c orig =>
    rw [encodeUtf8, List.flatMap_cons, List.append_eq_nil_iff, List.map_eq_nil_iff] at hNone
    exact absurd hNone.1 String.utf8EncodeChar_ne_nil

theorem decode_encodeOctets {octets : Text} (hOctets : ∀ c ∈ octets, c.toNat < 256) :
    decodeUriPart (octets.flatMap encodeOctet) = octets := by
  induction octets with
  | nil => rfl
  | cons c octets ih =>
    rw [List.forall_mem_cons] at hOctets
    have hRest := ih hOctets.2
    rw [decodeUriPart] at hRest ⊢
    rw [List.flatMap_cons, encodeOctet]
    split
    · next hLiteral =>
      obtain ⟨hPercent, -, hPlus⟩ := isLiteral_ne hLiteral
      rw [List.singleton_append, decodeWith_literal hPercent, if_neg hPlus, hRest]
    · split
      · next hBlank =>
        rw [List.singleton_append, decodeWith_literal (by decide), if_pos rfl, hRest, hBlank]
      · rw [decodeWith_percent hOctets.1, hRest]

theorem decode_encodeUriPart (orig : Text) : decodeUriPart (encodeUriPart orig) = encodeUtf8 orig :=
  decode_encodeOctets fun _ hMem => toNat_encodeUtf8 hMem

theorem encodeUriPart_ne_nil {orig : Text} (hSome : orig ≠ []) : encodeUriPart orig ≠ [] := by
  intro hNone
  have hDecode := decode_encodeUriPart orig
  rw [hNone] at hDecode
  exact hSome (encodeUtf8_eq_nil hDecode.symm)

theorem slash_not_mem (orig : Text) : '/' ∉ encodeUriPart orig := by
  intro hMem
  obtain ⟨part, hPart, hSlash⟩ := List.mem_flatMap.mp hMem
  have hNarrow := toNat_encodeUtf8 hPart
  rw [encodeOctet] at hSlash
  split at hSlash
  · next hLiteral => exact (isLiteral_ne hLiteral).2.1 (List.mem_singleton.mp hSlash).symm
  · split at hSlash
    · exact absurd hSlash (by decide)
    · rw [percent_of_lt hNarrow] at hSlash
      have hHigh := (hexDigit_ne (part.toNat / 16) (by omega)).2.1
      have hLow := (hexDigit_ne (part.toNat % 16) (by omega)).2.1
      simp [hHigh.symm, hLow.symm] at hSlash

theorem encodeUtf8_append (front back : Text) :
    encodeUtf8 (front ++ back) = encodeUtf8 front ++ encodeUtf8 back := List.flatMap_append

theorem encodeUtf8_intercalate (parts : List Text) :
    encodeUtf8 (List.intercalate ['/'] parts) = List.intercalate ['/'] (parts.map encodeUtf8) := by
  induction parts with
  | nil => rfl
  | cons part parts ih =>
    cases parts with
    | nil => rw [List.map_singleton, List.intercalate_singleton, List.intercalate_singleton]
    | cons next parts =>
      rw [List.map_cons, List.map_cons, List.intercalate_cons_cons, List.intercalate_cons_cons,
        encodeUtf8_append, encodeUtf8_append, ih, List.map_cons]
      rfl

/-- Slashes at the end are what gets lost. -/
theorem decode_encodeUri (orig : Text) :
    decodeUri (encodeUri orig) = encodeUtf8 (orig.rdropWhile (· == '/')) := by
  have hLast : ((fields '/' orig).map encodeUriPart).rdropWhile List.isEmpty =
      (fields '/' orig).map encodeUriPart := by
    refine List.rdropWhile_eq_self_iff.mpr fun hSome => ?_
    have hFields : fields '/' orig ≠ [] := by simpa using hSome
    rw [List.getLast_map, List.isEmpty_iff]
    apply encodeUriPart_ne_nil
    have hField := List.rdropWhile_last_not List.isEmpty (orig.splitOn '/') hFields
    rwa [List.isEmpty_iff] at hField
  have hFree : ∀ part ∈ (fields '/' orig).map encodeUriPart, '/' ∉ part := by
    intro part hPart
    obtain ⟨field, -, rfl⟩ := List.mem_map.mp hPart
    exact slash_not_mem field
  have hParts : decodeUriPart ∘ encodeUriPart = encodeUtf8 := funext decode_encodeUriPart
  rw [decodeUri, encodeUri, fields_intercalate hFree, hLast, List.map_map, hParts,
    ← encodeUtf8_intercalate, intercalate_fields]

theorem decode_encodeUri_iff (orig : Text) :
    decodeUri (encodeUri orig) = encodeUtf8 orig ↔ orig.getLast? ≠ some '/' := by
  rw [decode_encodeUri]
  constructor
  · intro hSame hLast
    obtain ⟨front, rfl⟩ := List.getLast?_eq_some_iff.mp hLast
    rw [List.rdropWhile_concat_pos (· == '/') _ '/' BEq.rfl, encodeUtf8_append] at hSame
    obtain ⟨dropped, hDropped⟩ := List.rdropWhile_prefix (· == '/') front
    conv_rhs at hSame => rw [← hDropped, encodeUtf8_append, List.append_assoc]
    have hNone := List.append_right_eq_self.mp hSame.symm
    rw [List.append_eq_nil_iff] at hNone
    exact absurd hNone.2 (by decide)
  · intro hLast
    rw [List.rdropWhile_eq_self_iff.mpr]
    intro hSome hSlash
    rw [List.getLast?_eq_getLast_of_ne_nil hSome, beq_iff_eq.mp hSlash] at hLast
    exact hLast rfl

/-- An address comes back as its octets unless it ends with a slash, and a path unless it has a
character that is no octet. -/
theorem uri_round_trip_iff (orig path : Text) :
    (decodeUri (encodeUri orig) = encodeUtf8 orig ↔ orig.getLast? ≠ some '/') ∧
      (decodeUriPath (encodeUriPath path false) = path ↔ ∀ c ∈ path, c.toNat < 256) :=
  ⟨decode_encodeUri_iff orig, decode_encodeUriPath_iff false path⟩

theorem not_uri_round_trip :
    ¬ (∀ orig, decodeUri (encodeUri orig) = encodeUtf8 orig) ∧
      ¬ ∀ path, decodeUriPath (encodeUriPath path false) = path := by
  constructor
  · intro hAll
    exact (decode_encodeUri_iff ['/']).mp (hAll ['/']) rfl
  · intro hAll
    exact absurd ((decode_encodeUriPath_iff false ['€']).mp (hAll ['€']) '€' List.mem_cons_self)
      (by decide)

end PageCamel.Helpers.URI

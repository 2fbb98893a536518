import PageCamel.Lib.Fields
import PageCamel.Lib.PerlNumber
import Mathlib.Data.Rat.Cast.Order
import Mathlib.Tactic.FieldSimp
import Mathlib.Tactic.Linarith
import Mathlib.Tactic.Positivity

/-!
Decimal numbers as text, with a point or a comma, and the decimal with a number of places that
is nearest to a number.
-/

namespace PageCamel.Lib

open PerlNumber Fields

/-- Without a separator there is no fraction; there may be a separator and no digit on one of its
sides. -/
structure DecimalText where
  negative : Bool
  whole : List Char
  separator : Char
  frac : Option (List Char)
  isDigit_whole : ∀ c ∈ whole, c.isDigit = true
  isDigit_frac : ∀ c ∈ frac.getD [], c.isDigit = true
  separator_eq : separator = '.' ∨ separator = ','

/-- A decimal with a digit before the separator. -/
structure NumberText extends DecimalText where
  whole_ne_nil : whole ≠ []

theorem separator_point : '.' = '.' ∨ '.' = ',' := .inl rfl

namespace DecimalText

variable (x : DecimalText)

def fraction : List Char := x.frac.getD []

def toText : List Char :=
  sign x.negative ++ (x.whole ++ (x.frac.map (x.separator :: ·)).getD [])

def places : Nat := x.fraction.length

def digits : List Char := x.whole ++ x.fraction

/-- The number without its separator. -/
def unscaled : Int := signed x.negative (natOf x.digits)

def value : ℚ := x.unscaled / 10 ^ x.places

end DecimalText

/-- Of two decimals as near as one another it is the one away from zero. -/
structure Nearest (places : Nat) (x y : ℚ) : Prop where
  near : |y - x| ≤ 1 / (2 * 10 ^ places)
  away : |y - x| = 1 / (2 * 10 ^ places) → |x| ≤ |y|

/-- `s/\\,/./g`. -/
def dotted (text : List Char) : List Char := text.map fun c => if c = ',' then '.' else c

/-- `s/\\./,/g`. -/
def commas (text : List Char) : List Char := text.map fun c => if c = '.' then ',' else c

/-- Without separators. -/
def plain (text : List Char) : List Char := text.filter fun c => c ≠ '.' && c ≠ ','

/-! ### Text -/

variable {x : DecimalText} {text : List Char} {c : Char}

theorem mem_sign {negative : Bool} (hc : c ∈ sign negative) : c = '-' := by
  cases negative with
  | true => exact List.mem_singleton.mp hc
  | false => cases hc

theorem isNat_whole (x : NumberText) : IsNat x.whole := ⟨x.whole_ne_nil, x.isDigit_whole⟩

theorem isNat_digits (x : NumberText) : IsNat x.digits :=
  ⟨List.append_ne_nil_of_left_ne_nil x.whole_ne_nil _,
    List.forall_mem_append.mpr ⟨x.isDigit_whole, x.isDigit_frac⟩⟩

theorem isDigit_of_frac {frac : List Char} (hFrac : x.frac = some frac) :
    ∀ c ∈ frac, c.isDigit = true := by
  have hDigits := x.isDigit_frac
  rw [hFrac] at hDigits
  exact hDigits

theorem map_eq_self {f : Char → Char} (hSame : ∀ c ∈ text, f c = c) : text.map f = text := by
  induction text with
  | nil => rfl
  | cons c text ih =>
    rw [List.forall_mem_cons] at hSame
    rw [List.map_cons, hSame.1, ih hSame.2]

/-- A replacement of a separator leaves signs and digits alone. -/
theorem replace_sign (negative : Bool) {old new : Char} (hOld : '-' ≠ old) :
    (sign negative).map (fun c => if c = old then new else c) = sign negative :=
  map_eq_self fun _ hc => if_neg (mem_sign hc ▸ hOld)

theorem replace_digits (hDigits : ∀ c ∈ text, c.isDigit = true) {old new : Char}
    (hOld : old.isDigit = false) : text.map (fun c => if c = old then new else c) = text :=
  map_eq_self fun c hc => if_neg (ne_of_isDigit (hDigits c hc) hOld)

theorem dotted_toText (x : DecimalText) :
    dotted x.toText = sign x.negative ++ (x.whole ++ (x.frac.map ('.' :: ·)).getD []) := by
  have hDot : (if x.separator = ',' then '.' else x.separator) = '.' := by
    rcases x.separator_eq with hSame | hSame
    · rw [hSame]
      rfl
    · rw [hSame]
      rfl
  rw [DecimalText.toText, dotted, List.map_append, List.map_append,
    replace_sign _ (by decide), replace_digits x.isDigit_whole (by decide)]
  cases hNone : x.frac with
  | none => rfl
  | some frac =>
    simp only [Option.map_some, Option.getD_some, List.map_cons, hDot]
    rw [replace_digits (isDigit_of_frac hNone) (by decide)]

theorem not_mem_of_isDigit (hDigits : ∀ c ∈ text, c.isDigit = true) (hOther : c.isDigit = false) :
    c ∉ text := fun hc => ne_of_isDigit (hDigits c hc) hOther rfl

/-- `split/\\./` of text with one point, or none. -/
theorem column_split {pre : List Char} {post : Option (List Char)} (hPre : '.' ∉ pre)
    (hPost : '.' ∉ post.getD []) :
    column (fields '.' (pre ++ (post.map ('.' :: ·)).getD [])) 0 = pre ∧
      column (fields '.' (pre ++ (post.map ('.' :: ·)).getD [])) 1 = post.getD [] := by
  obtain ⟨row, hRow, hFree, hFirst, hSecond⟩ : ∃ row : List (List Char),
      pre ++ (post.map ('.' :: ·)).getD [] = List.intercalate ['.'] row ∧
        (∀ field ∈ row, '.' ∉ field) ∧ column row 0 = pre ∧ column row 1 = post.getD [] := by
    cases post with
    | none =>
      refine ⟨[pre], ?_, List.forall_mem_singleton.mpr hPre, rfl, rfl⟩
      rw [List.intercalate_singleton]
      exact List.append_nil _
    | some post =>
      refine ⟨[pre, post], ?_, ?_, rfl, rfl⟩
      · rw [List.intercalate_cons_cons, List.intercalate_singleton, List.append_assoc]
        rfl
      · exact List.forall_mem_cons.mpr ⟨hPre, List.forall_mem_singleton.mpr hPost⟩
  rw [hRow, fields_intercalate hFree, column_rdropWhile, column_rdropWhile]
  exact ⟨hFirst, hSecond⟩

theorem column_toText (x : DecimalText) :
    column (fields '.' (dotted x.toText)) 0 = sign x.negative ++ x.whole ∧
      column (fields '.' (dotted x.toText)) 1 = x.fraction := by
  have hPre : '.' ∉ sign x.negative ++ x.whole := by
    rw [List.mem_append, not_or]
    exact ⟨fun hc => absurd (mem_sign hc) (by decide), not_mem_of_isDigit x.isDigit_whole (by decide)⟩
  rw [dotted_toText, ← List.append_assoc]
  exact column_split hPre (not_mem_of_isDigit x.isDigit_frac (by decide))

theorem plain_append (text other : List Char) : plain (text ++ other) = plain text ++ plain other :=
  List.filter_append ..

theorem plain_eq_self (hKept : ∀ c ∈ text, c ≠ '.' ∧ c ≠ ',') : plain text = text :=
  List.filter_eq_self.mpr fun c hc => by simpa using hKept c hc

theorem plain_digits (hDigits : ∀ c ∈ text, c.isDigit = true) : plain text = text :=
  plain_eq_self fun c hc =>
    ⟨ne_of_isDigit (hDigits c hc) (by decide), ne_of_isDigit (hDigits c hc) (by decide)⟩

theorem plain_sign (negative : Bool) : plain (sign negative) = sign negative :=
  plain_eq_self fun c hc => by
    rw [mem_sign hc]
    exact ⟨by decide, by decide⟩

theorem plain_commas (text : List Char) : plain (commas text) = plain text := by
  induction text with
  | nil => rfl
  | cons c text ih =>
    rw [plain, plain, commas] at ih
    rw [commas, plain, plain, List.map_cons, List.filter_cons, List.filter_cons, ih]
    by_cases hDot : c = '.'
    · subst hDot
      rfl
    · rw [if_neg hDot]

/-- Without separators the text is that of an integer. -/
theorem intOf?_plain (x : NumberText) : intOf? (plain x.toText) = some x.unscaled := by
  have hPlain : plain x.toText = sign x.negative ++ x.digits := by
    rw [DecimalText.toText, plain_append, plain_append, plain_sign, plain_digits x.isDigit_whole,
      DecimalText.digits, DecimalText.fraction]
    cases hNone : x.frac with
    | none => rfl
    | some frac =>
      have hGone : (x.separator ≠ '.' && x.separator ≠ ',') = false := by
        rcases x.separator_eq with hSame | hSame
        · rw [hSame]
          rfl
        · rw [hSame]
          rfl
      have hFrac := plain_digits (isDigit_of_frac hNone)
      rw [plain] at hFrac
      simp only [Option.map_some, Option.getD_some]
      rw [plain, List.filter_cons, if_neg (ne_true_of_eq_false hGone), hFrac]
  rw [hPlain, intOf?_sign (isNat_digits x)]
  rfl

end PageCamel.Lib

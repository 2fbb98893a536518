import PageCamel.Lib.DecimalText

/-!
Rounding of decimal numbers (`roundNumber` of `Helpers/Format.pm`). It works on the digits; the
last of them is counted up with `++`, which takes text with a sign for a number.
-/

namespace PageCamel.Helpers.RoundNumber

open Lib Lib.PerlNumber Lib.Fields

abbrev Text := List Char

/-- The loop over the digits: those that are missing are zeros. What is left is given back, too. -/
def takeDigits : Nat → Text → Text × Text
  | 0, parts => ([], parts)
  | digits + 1, [] => ('0' :: (takeDigits digits []).1, (takeDigits digits []).2)
  | digits + 1, digit :: parts =>
      (digit :: (takeDigits digits parts).1, (takeDigits digits parts).2)

/-- A character as a number. -/
def digitValue (c : Char) : Nat := if c.isDigit then c.toNat - 48 else 0

/-- The loop that takes digits from the end of `$tempnum`; there may be too few. -/
def cutDigits (digits : Nat) (tempnum : Text) : Text × Text :=
  let tempparts := tempnum.take (tempnum.length - digits)
  (if tempparts = [] then ['0'] else tempparts, tempnum.drop (tempnum.length - digits))

/-- `nextdigit` is the first digit that is left out. -/
def roundParts (digits : Nat) (pre newparts : Text) : Option Char → Option (Text × Text)
  | none => some (pre, newparts)
  | some nextdigit =>
      if 5 ≤ digitValue nextdigit then
        (increment (pre ++ newparts)).map fun tempnum => cutDigits digits tempnum
      else some (pre, newparts)

def joinParts (digits : Nat) (parts : Text × Text) : Text :=
  parts.1 ++ if digits ≠ 0 then '.' :: parts.2 else []

/-- There is no result where the number is not a decimal and `++` is not modelled for it. -/
def roundNumber (displaynumber : Text) (digits : Nat) : Option Text :=
  let row := fields '.' (dotted displaynumber)
  let taken := takeDigits digits (column row 1)
  (roundParts digits (column row 0) taken.1 taken.2.head?).map fun parts =>
    if ',' ∈ displaynumber then commas (joinParts digits parts) else joinParts digits parts

/-- The result is the nearest decimal with this number of digits behind the point. -/
def Rounded (x : NumberText) (digits : Nat) (result : Option Text) : Prop :=
  ∃ y : NumberText, result = some y.toText ∧ y.places = digits ∧ Nearest digits x.value y.value

/-- The number is rounded away from zero. -/
def RoundsUp (x : NumberText) (digits : Nat) : Prop :=
  ∃ nextdigit ∈ x.fraction[digits]?, 5 ≤ digitValue nextdigit

/-! ### The digits that stay -/

variable {x : NumberText} {digits : Nat} {parts : Text}

theorem takeDigits_eq (digits : Nat) (parts : Text) :
    takeDigits digits parts =
      (parts.take digits ++ List.replicate (digits - parts.length) '0', parts.drop digits) := by
  induction digits generalizing parts with
  | zero =>
    rw [takeDigits, List.take_zero, Nat.zero_sub, List.drop_zero]
    rfl
  | succ digits ih =>
    cases parts with
    | nil =>
      rw [takeDigits, ih, List.take_nil, List.take_nil, List.length_nil, Nat.sub_zero, Nat.sub_zero,
        List.replicate_succ, List.drop_nil, List.drop_nil]
      rfl
    | cons digit parts =>
      rw [takeDigits, ih, List.take_succ_cons, List.length_cons, Nat.add_sub_add_right]
      rfl

def kept (x : NumberText) (digits : Nat) : Text :=
  x.fraction.take digits ++ List.replicate (digits - x.fraction.length) '0'

theorem kept_length (x : NumberText) (digits : Nat) : (kept x digits).length = digits := by
  rw [kept, List.length_append, List.length_take, List.length_replicate]
  omega

theorem isDigit_kept (x : NumberText) (digits : Nat) : ∀ c ∈ kept x digits, c.isDigit = true := by
  rw [kept, List.forall_mem_append]
  constructor
  · exact fun c hc => x.isDigit_frac c (List.mem_of_mem_take hc)
  · intro c hc
    rw [List.eq_of_mem_replicate hc]
    decide

theorem isNat_kept (x : NumberText) (digits : Nat) : IsNat (x.whole ++ kept x digits) :=
  ⟨List.append_ne_nil_of_left_ne_nil x.whole_ne_nil _,
    List.forall_mem_append.mpr ⟨x.isDigit_whole, isDigit_kept x digits⟩⟩

/-- The text is taken apart at its separator, which is put back in the end. -/
theorem roundNumber_toText (x : NumberText) (digits : Nat) :
    roundNumber x.toText digits =
      (roundParts digits (sign x.negative ++ x.whole) (kept x digits) x.fraction[digits]?).map
        fun parts =>
          if ',' ∈ x.toText then commas (joinParts digits parts) else joinParts digits parts := by
  rw [roundNumber, (column_toText x.toDecimalText).1, (column_toText x.toDecimalText).2, takeDigits_eq]
  dsimp only
  rw [List.head?_drop]
  rfl

/-- The parts make a decimal of the same form. -/
theorem joinParts_toText (x : NumberText) (negative : Bool) {digits : Nat} {whole newparts : Text}
    (hWhole : IsNat whole) (hNew : ∀ c ∈ newparts, c.isDigit = true)
    (hLength : newparts.length = digits) :
    ∃ y : NumberText,
      (if ',' ∈ x.toText then commas (joinParts digits (sign negative ++ whole, newparts))
        else joinParts digits (sign negative ++ whole, newparts)) = y.toText ∧
      y.places = digits ∧ y.negative = negative ∧ y.digits = whole ++ newparts := by
  have hCommas : commas (sign negative ++ whole) = sign negative ++ whole := by
    rw [commas, List.map_append, replace_sign _ (by decide), replace_digits hWhole.2 (by decide)]
  by_cases hZero : digits = 0
  · obtain rfl : newparts = [] := List.length_eq_zero_iff.mp (hLength.trans hZero)
    have hFrac : ∀ c ∈ (none : Option Text).getD [], c.isDigit = true := List.forall_mem_nil _
    refine ⟨⟨⟨negative, whole, '.', none, hWhole.2, hFrac, .inl rfl⟩, hWhole.1⟩, ?_, hZero.symm, rfl, rfl⟩
    rw [joinParts, if_neg (not_not.mpr hZero), List.append_nil, hCommas, ite_self,
      DecimalText.toText]
    exact congrArg _ (List.append_nil _).symm
  · have hSeparator : ∀ separator, separator = '.' ∨ separator = ',' →
        ∃ y : NumberText, sign negative ++ (whole ++ separator :: newparts) = y.toText ∧
          y.places = digits ∧ y.negative = negative ∧ y.digits = whole ++ newparts :=
      fun separator hSame =>
        ⟨⟨⟨negative, whole, separator, some newparts, hWhole.2, hNew, hSame⟩, hWhole.1⟩, rfl, hLength,
          rfl, rfl⟩
    rw [joinParts, if_pos hZero, List.append_assoc]
    split
    · have hJoined : commas (sign negative ++ (whole ++ '.' :: newparts)) =
          sign negative ++ (whole ++ ',' :: newparts) := by
        rw [commas, List.map_append, List.map_append, List.map_cons, replace_sign _ (by decide),
          replace_digits hWhole.2 (by decide), replace_digits hNew (by decide)]
        rfl
      rw [hJoined]
      exact hSeparator ',' (.inr rfl)
    · exact hSeparator '.' (.inl rfl)

/-! ### The nearest decimal -/

theorem nearest_refl (places : Nat) (value : ℚ) : Nearest places value value := by
  constructor
  · rw [sub_self, abs_zero]
    positivity
  · intro hTie
    exact le_refl _

/-- Numbers on a common scale. -/
theorem nearest_scaled {u w : ℤ} {places more : Nat} :
    Nearest places ((u : ℚ) / 10 ^ (places + more)) ((w : ℚ) / 10 ^ places) ↔
      2 * |w * 10 ^ more - u| ≤ 10 ^ more ∧
        (2 * |w * 10 ^ more - u| = 10 ^ more → |u| ≤ |w| * 10 ^ more) := by
  have hPos : (0 : ℚ) < 10 ^ (places + more) := by positivity
  have hScaled : (w : ℚ) / 10 ^ places = (w * 10 ^ more : ℤ) / 10 ^ (places + more) := by
    rw [pow_add]
    push_cast
    field_simp
  have hHalf : (1 : ℚ) / (2 * 10 ^ places) = (10 ^ more / 2) / 10 ^ (places + more) := by
    rw [pow_add]
    field_simp
  have hDistance : |(w : ℚ) / 10 ^ places - u / 10 ^ (places + more)| =
      (|w * 10 ^ more - u| : ℤ) / 10 ^ (places + more) := by
    rw [hScaled, ← sub_div, abs_div, abs_of_pos hPos]
    push_cast
    rfl
  have hNear : |(w : ℚ) / 10 ^ places - u / 10 ^ (places + more)| ≤ 1 / (2 * 10 ^ places) ↔
      2 * |w * 10 ^ more - u| ≤ 10 ^ more := by
    rw [hDistance, hHalf, div_le_div_iff_of_pos_right hPos, le_div_iff₀ (by norm_num), mul_comm]
    exact_mod_cast Iff.rfl
  have hTie : |(w : ℚ) / 10 ^ places - u / 10 ^ (places + more)| = 1 / (2 * 10 ^ places) ↔
      2 * |w * 10 ^ more - u| = 10 ^ more := by
    rw [hDistance, hHalf, div_left_inj' hPos.ne', eq_div_iff (by norm_num), mul_comm]
    exact_mod_cast Iff.rfl
  have hAway : |(u : ℚ) / 10 ^ (places + more)| ≤ |(w : ℚ) / 10 ^ places| ↔
      |u| ≤ |w| * 10 ^ more := by
    rw [hScaled, abs_div, abs_div, abs_of_pos hPos, div_le_div_iff_of_pos_right hPos, ← Int.cast_abs,
      ← Int.cast_abs, Int.cast_le, abs_mul, abs_of_pos (by positivity : (0 : ℤ) < 10 ^ more)]
  constructor
  · intro hNearest
    exact ⟨hNear.mp hNearest.near, fun hSame => hAway.mp (hNearest.away (hTie.mpr hSame))⟩
  · rintro ⟨hLess, hOut⟩
    exact ⟨hNear.mpr hLess, fun hSame => hAway.mpr (hOut (hTie.mp hSame))⟩

/-- The number that the digits that stay make. -/
def scaled (x : NumberText) (digits : Nat) : Nat := natOf (x.whole ++ kept x digits)

/-- Nothing is left out. -/
theorem unscaled_of_short (hShort : x.places ≤ digits) :
    scaled x digits = natOf x.digits * 10 ^ (digits - x.places) := by
  have hKept : kept x digits = x.fraction ++ List.replicate (digits - x.places) '0' := by
    rw [kept, List.take_of_length_le hShort]
    rfl
  rw [scaled, hKept, ← List.append_assoc, natOf_append, natOf_replicate_zero, List.length_replicate,
    Nat.add_zero]
  rfl

/-- The first digit that is left out decides on which side of the half the rest is. -/
theorem unscaled_of_long {nextdigit : Char} (hNext : x.fraction[digits]? = some nextdigit) :
    ∃ more rest, x.places = digits + more ∧ natOf x.digits = scaled x digits * 10 ^ more + rest ∧
      rest < 10 ^ more ∧ (5 ≤ digitValue nextdigit ↔ 10 ^ more ≤ 2 * rest) := by
  obtain ⟨hLess, hDigit⟩ := List.getElem?_eq_some_iff.mp hNext
  have hDrop : x.fraction.drop digits = nextdigit :: x.fraction.drop (digits + 1) := by
    rw [List.drop_eq_getElem_cons hLess, hDigit]
  have hKept : kept x digits = x.fraction.take digits := by
    rw [kept, Nat.sub_eq_zero_of_le hLess.le]
    exact List.append_nil _
  have hIsDigit : ∀ c ∈ x.fraction.drop digits, c.isDigit = true := fun c hc =>
    x.isDigit_frac c (List.mem_of_mem_drop hc)
  have hSplit : x.digits = (x.whole ++ kept x digits) ++ x.fraction.drop digits := by
    rw [hKept, List.append_assoc, List.take_append_drop]
    rfl
  have hTail := natOf_lt fun c hc => hIsDigit c (hDrop ▸ List.mem_cons_of_mem nextdigit hc)
  have hNextDigit : nextdigit.isDigit = true := hIsDigit _ (hDrop ▸ List.mem_cons_self)
  have hValue : natOf (x.fraction.drop digits) =
      digitValue nextdigit * 10 ^ (x.fraction.drop (digits + 1)).length +
        natOf (x.fraction.drop (digits + 1)) := by
    rw [hDrop, ← List.singleton_append, natOf_append, digitValue, if_pos hNextDigit]
    congr 1
    rw [← List.nil_append [nextdigit], natOf_append_singleton]
    simp [natOf]
  refine ⟨(x.fraction.drop digits).length, natOf (x.fraction.drop digits), ?_, ?_,
    natOf_lt hIsDigit, ?_⟩
  · rw [List.length_drop, DecimalText.places]
    omega
  · rw [hSplit, natOf_append]
    rfl
  · have hLength : (x.fraction.drop digits).length = (x.fraction.drop (digits + 1)).length + 1 := by
      rw [hDrop]
      rfl
    rw [hLength, hValue, pow_succ]
    constructor
    · intro hFive
      have := Nat.mul_le_mul_right (10 ^ (x.fraction.drop (digits + 1)).length) hFive
      omega
    · intro hHalf
      by_contra hFour
      have := Nat.mul_le_mul_right (10 ^ (x.fraction.drop (digits + 1)).length)
        (Nat.le_of_lt_succ (Nat.not_le.mp hFour))
      omega

/-- The value of the decimal that has these digits. -/
theorem value_eq {y : NumberText} {negative : Bool} {whole newparts : Text}
    (hPlaces : y.places = digits) (hNegative : y.negative = negative)
    (hDigits : y.digits = whole ++ newparts) :
    y.value = (signed negative (natOf (whole ++ newparts)) : ℚ) / 10 ^ digits := by
  rw [DecimalText.value, DecimalText.unscaled, hPlaces, hNegative, hDigits]

theorem abs_rest (negative : Bool) (whole rest more : Nat) :
    |signed negative whole * 10 ^ more - signed negative (whole * 10 ^ more + rest)| = rest := by
  cases negative with
  | true =>
    rw [signed, signed, if_pos rfl, if_pos rfl]
    push_cast
    rw [show -(whole : ℤ) * 10 ^ more - -(whole * 10 ^ more + rest) = rest by ring]
    exact abs_of_nonneg (Int.natCast_nonneg rest)
  | false =>
    rw [signed, signed, if_neg Bool.false_ne_true, if_neg Bool.false_ne_true]
    push_cast
    rw [show (whole : ℤ) * 10 ^ more - (whole * 10 ^ more + rest) = -rest by ring, abs_neg]
    exact abs_of_nonneg (Int.natCast_nonneg rest)

theorem rounded_down (hDown : ¬RoundsUp x digits) : Rounded x digits (roundNumber x.toText digits) := by
  obtain ⟨y, hText, hPlaces, hNegative, hDigits⟩ := joinParts_toText x x.negative (isNat_whole x)
    (isDigit_kept x digits) (kept_length x digits)
  have hParts : roundParts digits (sign x.negative ++ x.whole) (kept x digits) x.fraction[digits]? =
      some (sign x.negative ++ x.whole, kept x digits) := by
    cases hNext : x.fraction[digits]? with
    | none => rfl
    | some nextdigit => exact if_neg fun hFive => hDown ⟨nextdigit, hNext, hFive⟩
  refine ⟨y, ?_, hPlaces, ?_⟩
  · rw [roundNumber_toText, hParts, Option.map_some, hText]
  · have hValue := value_eq hPlaces hNegative hDigits
    have hSame : natOf (x.whole ++ kept x digits) = scaled x digits := rfl
    rw [hSame] at hValue
    cases hNext : x.fraction[digits]? with
    | none =>
      have hShort : x.places ≤ digits := List.getElem?_eq_none_iff.mp hNext
      have hEqual : x.value = y.value := by
        rw [hValue, unscaled_of_short hShort, DecimalText.value, DecimalText.unscaled]
        have hPow : (10 : ℚ) ^ digits = 10 ^ x.places * 10 ^ (digits - x.places) := by
          rw [← pow_add, Nat.add_sub_cancel' hShort]
        rw [signed_mul, hPow]
        push_cast
        field_simp
      rw [hEqual]
      exact nearest_refl digits y.value
    | some nextdigit =>
      obtain ⟨more, rest, hMore, hAll, -, hFive⟩ := unscaled_of_long hNext
      have hLess : ¬10 ^ more ≤ 2 * rest := fun hHalf =>
        hDown ⟨nextdigit, hNext, hFive.mpr hHalf⟩
      have hRest : 2 * (rest : ℤ) < 10 ^ more := by exact_mod_cast Nat.not_le.mp hLess
      rw [hValue, DecimalText.value, DecimalText.unscaled, hMore, hAll]
      refine nearest_scaled.mpr ⟨?_, ?_⟩
      · rw [abs_rest]
        exact hRest.le
      · intro hTie
        rw [abs_rest] at hTie
        exact absurd hTie hRest.ne

theorem rounded_up (hPositive : x.negative = false) (hUp : RoundsUp x digits) :
    Rounded x digits (roundNumber x.toText digits) := by
  obtain ⟨nextdigit, hNext, hFive⟩ := hUp
  obtain ⟨hNat, hOneMore, hLonger⟩ := incrementChars_spec (isNat_kept x digits)
  rw [List.length_append, kept_length] at hLonger
  have hWhole : 1 ≤ x.whole.length := List.length_pos_iff.mpr x.whole_ne_nil
  obtain ⟨tempnum, hTempnum⟩ : ∃ tempnum, incrementChars (x.whole ++ kept x digits) = tempnum :=
    ⟨_, rfl⟩
  rw [hTempnum] at hNat hOneMore hLonger
  have hTake : tempnum.take (tempnum.length - digits) ≠ [] := by
    refine List.ne_nil_of_length_pos ?_
    rw [List.length_take]
    omega
  have hParts : roundParts digits (sign x.negative ++ x.whole) (kept x digits) (some nextdigit) =
      some (tempnum.take (tempnum.length - digits), tempnum.drop (tempnum.length - digits)) := by
    rw [roundParts, if_pos hFive, hPositive]
    rw [show sign false ++ x.whole = x.whole from rfl, increment_digits (isNat_kept x digits),
      Option.map_some, hTempnum, cutDigits]
    exact congrArg some (congrArg (·, _) (if_neg hTake))
  obtain ⟨y, hText, hPlaces, hNegative, hDigits⟩ := joinParts_toText x false
    ⟨hTake, fun c hc => hNat.2 c (List.mem_of_mem_take hc)⟩
    (fun c hc => hNat.2 c (List.mem_of_mem_drop hc))
    (by rw [List.length_drop]; omega : (tempnum.drop (tempnum.length - digits)).length = digits)
  obtain ⟨more, rest, hMore, hAll, hLess, hHalf⟩ := unscaled_of_long hNext
  refine ⟨y, ?_, hPlaces, ?_⟩
  · rw [roundNumber_toText, hNext, hParts, Option.map_some]
    exact congrArg some hText
  · have hValue := value_eq hPlaces hNegative hDigits
    rw [List.take_append_drop, hOneMore, signed, if_neg Bool.false_ne_true] at hValue
    have hSame : natOf (x.whole ++ kept x digits) = scaled x digits := rfl
    have hRest : (10 : ℤ) ^ more ≤ 2 * rest := by exact_mod_cast hHalf.mp hFive
    have hLess : (rest : ℤ) < 10 ^ more := by exact_mod_cast hLess
    have hDistance : |((scaled x digits + 1 : ℕ) : ℤ) * 10 ^ more -
        (scaled x digits * 10 ^ more + rest : ℕ)| = 10 ^ more - rest := by
      push_cast
      rw [abs_of_nonneg (by linarith)]
      ring
    rw [hValue, hSame, DecimalText.value, DecimalText.unscaled, hMore, hAll, hPositive,
      signed, if_neg Bool.false_ne_true]
    refine nearest_scaled.mpr ⟨?_, ?_⟩
    · rw [hDistance]
      linarith
    · intro hTie
      rw [Nat.abs_cast, Nat.abs_cast]
      push_cast
      linarith

/-! ### Below zero -/

theorem plain_joinParts {parts : Text × Text} (hNone : digits = 0 → parts.2 = []) :
    plain (joinParts digits parts) = plain (parts.1 ++ parts.2) := by
  by_cases hZero : digits = 0
  · rw [joinParts, if_neg (not_not.mpr hZero), hNone hZero]
  · rw [joinParts, if_pos hZero, plain_append, plain_append]
    rfl

/-- Where there are too few digits, a zero is put before them. -/
theorem cutDigits_join (digits : Nat) (tempnum : Text) :
    (cutDigits digits tempnum).1 ++ (cutDigits digits tempnum).2 = tempnum ∨
      (cutDigits digits tempnum).1 ++ (cutDigits digits tempnum).2 = '0' :: tempnum := by
  rw [cutDigits]
  dsimp only
  split
  · next hNone =>
    right
    have hAll := List.take_append_drop (tempnum.length - digits) tempnum
    rw [hNone, List.nil_append] at hAll
    rw [hAll]
    rfl
  · left
    exact List.take_append_drop _ _

theorem mem_unsigned {text : Text} {c : Char} (hc : c ∈ text) (hOther : c ≠ '-') : c ∈ unsigned text := by
  rw [unsigned]
  split
  · next hHead =>
    cases text with
    | nil => cases hHead
    | cons d rest =>
      rw [List.head?_cons, Option.some.injEq] at hHead
      rcases List.mem_cons.mp hc with hSame | hRest
      · exact absurd (hSame.trans hHead) hOther
      · exact hRest
  · exact hc

theorem intOf?_plain_eq_none {text : Text} {c : Char} (hc : c ∈ text) (hDigit : c.isDigit = false)
    (hOther : c ≠ '-' ∧ c ≠ '.' ∧ c ≠ ',') : intOf? (plain text) = none := by
  have hPlain : c ∈ plain text := List.mem_filter.mpr ⟨hc, by simpa using hOther.2⟩
  exact intOf?_eq_none ⟨c, mem_unsigned hPlain hOther.1, hDigit⟩

theorem plain_intText (z : ℤ) : plain (intText z) = intText z := by
  rw [intText, plain_append, plain_sign, plain_digits (isNat_toDigits _).2]

/-- A number of more than 64 bits is not written as digits. -/
theorem intOf?_large (negative : Bool) (magnitude : Option Nat) {text : Text}
    (hText : ∀ c ∈ (Number.double negative magnitude).text, c ∈ text) : intOf? (plain text) = none := by
  cases magnitude with
  | none =>
    exact intOf?_plain_eq_none (c := 'n') (hText 'n' (List.mem_append_right _ (by decide)))
      (by decide) (by decide)
  | some m =>
    exact intOf?_plain_eq_none (c := 'e') (hText 'e' (List.mem_append_right _ (mem_scientific m)))
      (by decide) (by decide)

/-- A zero before a number below zero spoils it. -/
theorem intOf?_cons_zero {z w : ℤ} (hInt : intOf? (plain ('0' :: intText z)) = some w) : w = z := by
  have hCons : plain ('0' :: intText z) = '0' :: intText z :=
    congrArg (List.cons '0') (plain_intText z)
  rw [hCons, intText] at hInt
  by_cases hBelow : z < 0
  · have hSign : '-' ∈ unsigned ('0' :: (sign true ++ Nat.toDigits 10 z.natAbs)) :=
      List.mem_cons_of_mem _ List.mem_cons_self
    rw [decide_eq_true hBelow, intOf?_eq_none ⟨'-', hSign, by decide⟩] at hInt
    cases hInt
  · rw [decide_eq_false hBelow] at hInt
    have hNat : IsNat ('0' :: Nat.toDigits 10 z.natAbs) :=
      ⟨List.cons_ne_nil _ _, List.forall_mem_cons.mpr ⟨by decide, (isNat_toDigits _).2⟩⟩
    have hValue : natOf ('0' :: Nat.toDigits 10 z.natAbs) = z.natAbs := by
      rw [← List.singleton_append, natOf_append, natOf_toDigits]
      exact (congrArg (· + _) (Nat.zero_mul _)).trans (Nat.zero_add _)
    rw [show sign false ++ Nat.toDigits 10 z.natAbs = Nat.toDigits 10 z.natAbs from rfl,
      intOf?_of_isNat hNat, hValue] at hInt
    have hSome := Option.some.inj hInt
    omega

/-- `++` counts towards zero there, and no decimal comes of a number that is too large. -/
theorem intOf?_increment {n : Nat} {z : ℤ} {text : Text}
    (hText : text = (ofInt (-n)).increment.text ∨ text = '0' :: (ofInt (-n)).increment.text)
    (hInt : intOf? (plain text) = some z) : z = 1 - n := by
  by_cases hFits : Fits (-n)
  · have hNext : (ofInt (-n)).increment.text = intText (1 - n) := by
      have hFitsNext : Fits (-n + 1) := by
        rw [Fits] at hFits ⊢
        omega
      rw [ofInt, dif_pos hFits, Number.increment, ofInt, dif_pos hFitsNext, Number.text, neg_add_eq_sub]
    rw [hNext] at hText
    rcases hText with rfl | rfl
    · rw [plain_intText, intOf?_intText] at hInt
      exact (Option.some.inj hInt).symm
    · exact intOf?_cons_zero hInt
  · obtain ⟨negative, magnitude, hDouble⟩ : ∃ negative magnitude,
        (ofInt (-n)).increment = .double negative magnitude := by
      rw [ofInt, dif_neg hFits]
      exact ⟨_, _, rfl⟩
    rw [hDouble] at hText
    have hNone : intOf? (plain text) = none := by
      refine intOf?_large negative magnitude fun c hc => ?_
      rcases hText with hSame | hZero
      · rw [hSame]
        exact hc
      · rw [hZero]
        exact List.mem_cons_of_mem _ hc
    rw [hNone] at hInt
    cases hInt

theorem not_rounded_up (hNegative : x.negative = true) (hUp : RoundsUp x digits) :
    ¬Rounded x digits (roundNumber x.toText digits) := by
  obtain ⟨nextdigit, hNext, hFive⟩ := hUp
  rintro ⟨y, hResult, hPlaces, hNearest⟩
  obtain ⟨more, rest, hMore, hAll, hLess, -⟩ := unscaled_of_long hNext
  have hUnscaled : y.unscaled = 1 - scaled x digits := by
    obtain ⟨tempnum, hTempnum⟩ : ∃ tempnum,
        (ofInt (-(scaled x digits : ℤ))).increment.text = tempnum := ⟨_, rfl⟩
    have hParts : roundParts digits (sign x.negative ++ x.whole) (kept x digits) (some nextdigit) =
        some (cutDigits digits tempnum) := by
      rw [roundParts, if_pos hFive, hNegative, ← hTempnum]
      rw [show sign true ++ x.whole ++ kept x digits = '-' :: (x.whole ++ kept x digits) from rfl,
        increment_neg (isNat_kept x digits)]
      rfl
    rw [roundNumber_toText, hNext, hParts, Option.map_some, Option.some.injEq] at hResult
    have hPlain : plain y.toText = plain (joinParts digits (cutDigits digits tempnum)) := by
      rw [← hResult]
      split
      · exact plain_commas _
      · rfl
    have hInt := intOf?_plain y
    have hNone : digits = 0 → (cutDigits digits tempnum).2 = [] := by
      rintro rfl
      exact List.drop_length
    rw [hPlain, plain_joinParts hNone] at hInt
    refine intOf?_increment ?_ hInt
    rw [hTempnum]
    exact cutDigits_join digits tempnum
  have hValue : y.value = ((1 - scaled x digits : ℤ) : ℚ) / 10 ^ digits := by
    rw [DecimalText.value, hUnscaled, hPlaces]
  have hNear : 2 * |(1 - scaled x digits : ℤ) * 10 ^ more -
      -((scaled x digits * 10 ^ more + rest : ℕ) : ℤ)| ≤ 10 ^ more := by
    rw [hValue, DecimalText.value, DecimalText.unscaled, hMore, hAll, hNegative, signed,
      if_pos rfl] at hNearest
    exact (nearest_scaled.mp hNearest).1
  have hDistance : (1 - scaled x digits : ℤ) * 10 ^ more -
      -((scaled x digits * 10 ^ more + rest : ℕ) : ℤ) = 10 ^ more + rest := by
    push_cast
    ring
  have hPos : (0 : ℤ) < 10 ^ more := by positivity
  rw [hDistance, abs_of_nonneg (by positivity)] at hNear
  linarith

/-- Away from zero only numbers without a minus sign are rounded right. -/
theorem roundNumber_iff (x : NumberText) (digits : Nat) :
    Rounded x digits (roundNumber x.toText digits) ↔ ¬(x.negative = true ∧ RoundsUp x digits) := by
  constructor
  · rintro hRounded ⟨hNegative, hUp⟩
    exact not_rounded_up hNegative hUp hRounded
  · intro hOther
    by_cases hUp : RoundsUp x digits
    · exact rounded_up (Bool.eq_false_of_not_eq_true fun hNegative => hOther ⟨hNegative, hUp⟩) hUp
    · exact rounded_down hUp

/-- `-0.7`. -/
def belowZero : NumberText where
  negative := true
  whole := ['0']
  separator := '.'
  frac := some ['7']
  isDigit_whole := List.forall_mem_singleton.mpr (by decide)
  isDigit_frac := List.forall_mem_singleton.mpr (by decide)
  separator_eq := separator_point
  whole_ne_nil := List.cons_ne_nil _ _

theorem not_rounded_belowZero :
    roundNumber belowZero.toText 0 = some ['1'] ∧
      ¬Rounded belowZero 0 (roundNumber belowZero.toText 0) :=
  ⟨by decide, not_rounded_up rfl ⟨'7', rfl, by decide⟩⟩

example : roundNumber ['9', ',', '9', '9', '6'] 2 = some ['1', '0', ',', '0', '0'] := by decide

end PageCamel.Helpers.RoundNumber

import PageCamel.Lib.DecimalText

/-!
Amounts of money in euros and in cents (`euroToCents` and `centsToEuro` of `Helpers/Format.pm`).
-/

namespace PageCamel.Helpers.Cents

open Lib Lib.PerlNumber Lib.Fields

abbrev Text := List Char

/-- There is no number where the text is none that `ofText` knows. -/
def euroToCents : Option Text → Except String (Option Number)
  | none => .error "Undefined value"
  | some euro =>
      let row := fields '.' (dotted euro)
      .ok (ofText (column row 0 ++ (column row 1).rightpad 2 '0'))

/-- `s/^(\d+)(\d\d)$/$1.$2/`. -/
def pointed (val : Text) : Text :=
  if 3 ≤ val.length ∧ val.all Char.isDigit = true then
    val.take (val.length - 2) ++ '.' :: val.drop (val.length - 2)
  else val

def centsToEuro (val : Number) : Text :=
  let text := val.int.text
  sign (text.head? = some '-') ++ pointed ((unsigned text).leftpad 3 '0')

/-- The cents are less than one off. -/
def NearCents (x : DecimalText) : Prop :=
  ∃ n cents, euroToCents (some x.toText) = .ok (some n) ∧ n.value = some cents ∧
    |(cents : ℚ) - 100 * x.value| < 1

/-- The cents come back. -/
def BackAgain (val : Number) : Prop :=
  ∃ n cents, euroToCents (some (centsToEuro val)) = .ok (some n) ∧ val.value = some cents ∧
    n.value = some cents

def Accurate (x : DecimalText) : Prop :=
  if x.places ≤ 2 then Exact (x.unscaled * 10 ^ (2 - x.places)) else natOf x.digits ≤ 1

instance (x : DecimalText) : Decidable (Accurate x) :=
  inferInstanceAs (Decidable (if x.places ≤ 2 then _ else _))

/-- An integer of 64 bits. -/
def InRange (val : Number) : Prop := ∃ cents, val.value = some cents ∧ Fits cents

/-! ### From euros to cents -/

variable {x : DecimalText} {val : Number}

theorem euroToCents_split {text pre : Text} {post : Option Text}
    (hText : dotted text = pre ++ (post.map ('.' :: ·)).getD []) (hPre : '.' ∉ pre)
    (hPost : '.' ∉ post.getD []) :
    euroToCents (some text) = .ok (ofText (pre ++ (post.getD []).rightpad 2 '0')) := by
  have hColumns := column_split hPre hPost
  rw [euroToCents, hText, hColumns.1, hColumns.2]

/-- What comes of a decimal: its digits with zeros behind a fraction of less than two places. -/
theorem euroToCents_toText (x : DecimalText) :
    euroToCents (some x.toText) = .ok (some (ofInt (x.unscaled * 10 ^ (2 - x.places)))) := by
  have hColumns := column_toText x
  have hZeros : ∀ c ∈ List.replicate (2 - x.places) '0', c.isDigit = true := fun c hc => by
    rw [List.eq_of_mem_replicate hc]
    decide
  have hPadded : x.whole ++ x.fraction.rightpad 2 '0' =
      x.digits ++ List.replicate (2 - x.places) '0' := (List.append_assoc _ _ _).symm
  have hNat : IsNat (x.digits ++ List.replicate (2 - x.places) '0') := by
    constructor
    · refine List.ne_nil_of_length_pos ?_
      rw [← hPadded, List.length_append, List.length_rightpad]
      omega
    · rw [DecimalText.digits, List.forall_mem_append, List.forall_mem_append]
      exact ⟨⟨x.isDigit_whole, x.isDigit_frac⟩, hZeros⟩
  have hValue : natOf (x.digits ++ List.replicate (2 - x.places) '0') =
      natOf x.digits * 10 ^ (2 - x.places) := by
    rw [natOf_append, natOf_replicate_zero, List.length_replicate, Nat.add_zero]
  rw [euroToCents, hColumns.1, hColumns.2, List.append_assoc, hPadded, ofText, intOf?_sign hNat,
    hValue, signed_mul, DecimalText.unscaled]
  push_cast
  rfl

theorem nearCents_of_short (hShort : x.places ≤ 2) :
    NearCents x ↔ Exact (x.unscaled * 10 ^ (2 - x.places)) := by
  have hHundred : 100 * x.value = (x.unscaled * 10 ^ (2 - x.places) : ℤ) := by
    have hPow : (100 : ℚ) = 10 ^ x.places * 10 ^ (2 - x.places) := by
      rw [← pow_add, Nat.add_sub_cancel' hShort]
      norm_num
    rw [DecimalText.value, hPow]
    push_cast
    field_simp
  rw [← value_ofInt_eq_some_iff, NearCents, euroToCents_toText, hHundred]
  constructor
  · rintro ⟨n, cents, hCents, hValue, hNear⟩
    obtain rfl := Option.some.inj (Except.ok.inj hCents)
    have hLess : |cents - x.unscaled * 10 ^ (2 - x.places)| < 1 := by exact_mod_cast hNear
    have hSame : cents = x.unscaled * 10 ^ (2 - x.places) :=
      sub_eq_zero.mp (Int.abs_lt_one_iff.mp hLess)
    rw [hSame] at hValue
    exact hValue
  · intro hValue
    refine ⟨_, _, rfl, hValue, ?_⟩
    rw [sub_self, abs_zero]
    exact one_pos

theorem abs_signed_sub (negative : Bool) (n m : Nat) :
    |signed negative n - signed negative m| = |(n : ℤ) - m| := by
  cases negative with
  | true =>
    rw [signed, signed, if_pos rfl, if_pos rfl, neg_sub_neg]
    exact abs_sub_comm _ _
  | false => rfl

/-- A number of the same sign that is at least half as large is too large. -/
theorem natAbs_le_one {u cents : ℤ} {more : Nat} (hMore : 1 ≤ more)
    (hValue : (ofInt u).value = some cents) (hNear : |cents * 10 ^ more - u| < 10 ^ more) :
    u.natAbs ≤ 1 := by
  obtain ⟨m, hCents, hHalf, hFits⟩ : ∃ m, cents = signed (u < 0) m ∧ u.natAbs ≤ 2 * m ∧
      (Fits u → m = u.natAbs) := by
    rcases value_ofInt hValue with ⟨rfl, -⟩ | ⟨hLarge, m, hSame, hNearest⟩
    · exact ⟨cents.natAbs, (signed_natAbs cents).symm, by omega, fun _ => rfl⟩
    · exact ⟨m, hSame, le_two_mul_nearest hNearest, fun fits => absurd fits hLarge⟩
  have hTen : (10 : ℤ) ≤ 10 ^ more := by
    calc (10 : ℤ) = 10 ^ 1 := (pow_one 10).symm
      _ ≤ 10 ^ more := pow_le_pow_right₀ (by decide) hMore
  have hDistance : cents * 10 ^ more - u = signed (u < 0) (m * 10 ^ more) - signed (u < 0) u.natAbs := by
    rw [signed_natAbs, signed_mul, hCents]
    push_cast
    rfl
  rw [hDistance, abs_signed_sub, abs_lt] at hNear
  push_cast at hNear
  have hOne : m ≤ 1 := by
    by_contra hTwo
    have hLess : ((m : ℤ) - 1) * 10 ^ more < 2 * m := by
      have hHalf : |u| ≤ 2 * m := by
        rw [Int.abs_eq_natAbs]
        exact_mod_cast hHalf
      linarith
    have hMost : ((m : ℤ) - 1) * 10 ≤ (m - 1) * 10 ^ more :=
      mul_le_mul_of_nonneg_left hTen (by omega)
    omega
  have fits : Fits u := by
    rw [Fits]
    omega
  exact hFits fits ▸ hOne

theorem nearCents_of_long (hLong : 2 < x.places) : NearCents x ↔ natOf x.digits ≤ 1 := by
  obtain ⟨more, hMore⟩ := Nat.exists_eq_add_of_le hLong.le
  have hHundred : 100 * x.value = x.unscaled / 10 ^ more := by
    rw [DecimalText.value, hMore, pow_add]
    field_simp
    ring
  have hScale : x.unscaled * 10 ^ (2 - x.places) = x.unscaled := by
    rw [Nat.sub_eq_zero_of_le hLong.le, pow_zero, mul_one]
  have hPos : (0 : ℚ) < 10 ^ more := by positivity
  have hNear : ∀ cents : ℤ, |(cents : ℚ) - x.unscaled / 10 ^ more| < 1 ↔
      |cents * 10 ^ more - x.unscaled| < 10 ^ more := by
    intro cents
    have hDistance : (cents : ℚ) - x.unscaled / 10 ^ more =
        (cents * 10 ^ more - x.unscaled : ℤ) / 10 ^ more := by
      push_cast
      field_simp
    rw [hDistance, abs_div, abs_of_pos hPos, div_lt_one hPos, ← Int.cast_abs]
    exact_mod_cast Iff.rfl
  have hAbs : x.unscaled.natAbs = natOf x.digits := natAbs_signed _ _
  rw [NearCents, euroToCents_toText, hHundred, hScale]
  constructor
  · rintro ⟨n, cents, hCents, hValue, hLess⟩
    obtain rfl := Option.some.inj (Except.ok.inj hCents)
    rw [← hAbs]
    exact natAbs_le_one (by omega : 1 ≤ more) hValue ((hNear cents).mp hLess)
  · intro hSmall
    have fits : Fits x.unscaled := by
      rw [Fits]
      omega
    refine ⟨_, _, rfl, value_ofInt_eq_some_iff.mpr (.inl fits), (hNear _).mpr ?_⟩
    have hSplit : x.unscaled * 10 ^ more - x.unscaled = x.unscaled * (10 ^ more - 1) := by ring
    have hOne : (1 : ℤ) ≤ 10 ^ more := one_le_pow₀ (by decide)
    rw [hSplit, abs_mul, abs_of_nonneg (by linarith : (0 : ℤ) ≤ 10 ^ more - 1)]
    have hAbsLe : |x.unscaled| ≤ 1 := by
      rw [Int.abs_eq_natAbs, hAbs]
      exact_mod_cast hSmall
    nlinarith

theorem nearCents_iff (x : DecimalText) : NearCents x ↔ Accurate x := by
  rw [Accurate]
  split
  · next hShort => exact nearCents_of_short hShort
  · next hLong => exact nearCents_of_long (Nat.not_le.mp hLong)

/-! ### And back -/

theorem pointed_spec {digits : Text} (hDigits : ∀ c ∈ digits, c.isDigit = true)
    (hLength : 3 ≤ digits.length) :
    pointed digits = digits.take (digits.length - 2) ++ '.' :: digits.drop (digits.length - 2) :=
  if_pos ⟨hLength, List.all_eq_true.mpr hDigits⟩

theorem head?_ne_of_isDigit {c : Char} (hDigit : c.isDigit = true) (rest : Text) :
    (c :: rest).head? ≠ some '-' := fun hSign =>
  ne_of_isDigit hDigit (by decide) (Option.some.inj hSign)

/-- The sign is taken off and put back. -/
theorem centsToEuro_text {negative : Bool} {text : Text} (hText : val.int.text = sign negative ++ text)
    (hHead : text.head? ≠ some '-') :
    centsToEuro val = sign negative ++ pointed (text.leftpad 3 '0') := by
  rw [centsToEuro, hText, unsigned_sign hHead, head_sign hHead]

/-- An amount of 64 bits has two places. -/
theorem centsToEuro_of_fits {cents : ℤ} (hValue : val.value = some cents) (fits : Fits cents) :
    ∃ x : DecimalText, centsToEuro val = x.toText ∧ x.places = 2 ∧ x.unscaled = cents := by
  have hText : val.int.text = sign (cents < 0) ++ Nat.toDigits 10 cents.natAbs := by
    rw [int_of_fits hValue fits, Number.text, intText]
  have hHead : (Nat.toDigits 10 cents.natAbs).head? ≠ some '-' := by
    obtain ⟨c, rest, hDigits⟩ := List.exists_cons_of_ne_nil (isNat_toDigits cents.natAbs).1
    rw [hDigits]
    exact head?_ne_of_isDigit ((isNat_toDigits cents.natAbs).2 c (hDigits ▸ List.mem_cons_self)) rest
  obtain ⟨digits, hPadded⟩ : ∃ digits, (Nat.toDigits 10 cents.natAbs).leftpad 3 '0' = digits :=
    ⟨_, rfl⟩
  have hDigits : ∀ c ∈ digits, c.isDigit = true := by
    rw [← hPadded, List.leftpad, List.forall_mem_append]
    constructor
    · intro c hc
      rw [List.eq_of_mem_replicate hc]
      decide
    · exact (isNat_toDigits _).2
  have hLength : 3 ≤ digits.length := by
    rw [← hPadded, List.length_leftpad]
    exact Nat.le_max_left _ _
  have hNat : natOf digits = cents.natAbs := by
    rw [← hPadded, List.leftpad, natOf_append, natOf_replicate_zero, natOf_toDigits, Nat.zero_mul,
      Nat.zero_add]
  refine ⟨⟨cents < 0, digits.take (digits.length - 2), '.', some (digits.drop (digits.length - 2)),
    fun c hc => hDigits c (List.mem_of_mem_take hc), fun c hc => hDigits c (List.mem_of_mem_drop hc),
    .inl rfl⟩, ?_, ?_, ?_⟩
  · rw [centsToEuro_text hText hHead, hPadded, pointed_spec hDigits hLength]
    rfl
  · have hDrop : (digits.drop (digits.length - 2)).length = 2 := by
      rw [List.length_drop]
      omega
    exact hDrop
  · have hWhole : natOf (digits.take (digits.length - 2) ++ digits.drop (digits.length - 2)) =
        cents.natAbs := by rw [List.take_append_drop, hNat]
    exact (congrArg (signed (cents < 0)) hWhole).trans (signed_natAbs cents)

theorem backAgain_of_fits {cents : ℤ} (hValue : val.value = some cents) (fits : Fits cents) :
    BackAgain val := by
  obtain ⟨x, hText, hPlaces, hSame⟩ := centsToEuro_of_fits hValue fits
  refine ⟨ofInt cents, cents, ?_, hValue, value_ofInt_eq_some_iff.mpr (.inl fits)⟩
  rw [hText, euroToCents_toText, hPlaces, hSame]
  exact congrArg (fun n => Except.ok (some (ofInt n))) (Int.mul_one cents)

theorem two_mul_lt {m digits low high : Nat} (hPos : 0 < m) (hClose : m ≤ 2 * (digits * 10 ^ low))
    (hHigh : low < high) : 2 * m < digits * 10 ^ high := by
  have hMore : 10 * (digits * 10 ^ low) ≤ digits * 10 ^ high := by
    calc 10 * (digits * 10 ^ low) = digits * 10 ^ (low + 1) := by ring
      _ ≤ digits * 10 ^ high := Nat.mul_le_mul_left _ (Nat.pow_le_pow_right (by decide) hHigh)
  omega

theorem not_mem_exponent {sep : Char} (hSep : sep = '.' ∨ sep = ',') (exponent : Nat) :
    sep ∉ 'e' :: '+' :: Nat.toDigits 10 exponent := by
  have hDigits : sep ∉ Nat.toDigits 10 exponent :=
    not_mem_of_isDigit (isNat_toDigits exponent).2 (by rcases hSep with rfl | rfl <;> decide)
  rw [List.mem_cons, List.mem_cons, not_or, not_or]
  rcases hSep with rfl | rfl
  · exact ⟨by decide, by decide, hDigits⟩
  · exact ⟨by decide, by decide, hDigits⟩

theorem not_mem_front {sep : Char} (hSep : sep = '.' ∨ sep = ',') (negative : Bool) {text : Text}
    (hDigits : ∀ c ∈ text, c.isDigit = true) : sep ∉ sign negative ++ text := by
  have hText : sep ∉ text := not_mem_of_isDigit hDigits (by rcases hSep with rfl | rfl <;> decide)
  have hSign : sep ∉ sign negative := fun hc => by
    rcases hSep with rfl | rfl
    · exact absurd (mem_sign hc) (by decide)
    · exact absurd (mem_sign hc) (by decide)
  rw [List.mem_append, not_or]
  exact ⟨hSign, hText⟩

theorem dotted_eq_self {text : Text} (hComma : ',' ∉ text) : dotted text = text :=
  map_eq_self fun _ hc => if_neg (ne_of_mem_of_not_mem hc hComma)

/-- With a first digit alone the two zeros are added to the exponent, otherwise the point is lost. -/
theorem euroToCents_scientific {m : Nat} (hLarge : 10 ^ 15 ≤ m) (negative : Bool) :
    ∃ n, euroToCents (some (sign negative ++ scientific m)) =
      .ok (some (.double negative (nearest n))) ∧ 2 * m < n := by
  obtain ⟨first, rest, k, exponent, hText, hNat, hShort, hExponent, hClose⟩ := scientific_spec hLarge
  have hFirst : ∀ c ∈ [first], c.isDigit = true :=
    List.forall_mem_singleton.mpr (hNat.2 first List.mem_cons_self)
  have hRest : ∀ c ∈ rest, c.isDigit = true := fun c hc => hNat.2 c (List.mem_cons_of_mem _ hc)
  have hDigits := isNat_toDigits exponent
  have hPos : 0 < m := Nat.lt_of_lt_of_le (by decide) hLarge
  by_cases hNone : rest = []
  · subst hNone
    rw [if_pos rfl, List.nil_append] at hText
    have hPoint : ∀ sep : Char, sep = '.' ∨ sep = ',' → sep ∉ sign negative ++ scientific m := by
      intro sep hSep
      rw [hText, ← List.singleton_append, ← List.append_assoc, List.mem_append, not_or]
      exact ⟨not_mem_front hSep negative hFirst, not_mem_exponent hSep exponent⟩
    have hSplit := @euroToCents_split (sign negative ++ scientific m) (sign negative ++ scientific m) none
      ((dotted_eq_self (hPoint ',' (.inr rfl))).trans (List.append_nil _).symm)
      (hPoint '.' (.inl rfl)) List.not_mem_nil
    have hJoined : sign negative ++ scientific m ++ List.rightpad 2 '0' (Option.getD none []) =
        sign negative ++ ([first] ++ 'e' :: '+' :: (Nat.toDigits 10 exponent ++ ['0', '0'])) := by
      rw [hText, List.append_assoc]
      rfl
    have hZeros : IsNat (Nat.toDigits 10 exponent ++ ['0', '0']) := by
      refine ⟨List.append_ne_nil_of_left_ne_nil hDigits.1 _, List.forall_mem_append.mpr ⟨hDigits.2, ?_⟩⟩
      exact List.forall_mem_cons.mpr ⟨by decide, List.forall_mem_singleton.mpr (by decide)⟩
    have hHundred : natOf (Nat.toDigits 10 exponent ++ ['0', '0']) = exponent * 100 := by
      rw [natOf_append, natOf_toDigits]
      rfl
    rw [hJoined, ofText_exponent hNat hZeros, hHundred] at hSplit
    exact ⟨_, hSplit, two_mul_lt hPos hClose (by omega)⟩
  · rw [if_neg hNone] at hText
    have hForm : sign negative ++ scientific m = sign negative ++ [first] ++
        ((some (rest ++ 'e' :: '+' :: Nat.toDigits 10 exponent)).map ('.' :: ·)).getD [] := by
      rw [hText, List.append_assoc]
      rfl
    have hTail : ∀ sep : Char, sep = '.' ∨ sep = ',' →
        sep ∉ rest ++ 'e' :: '+' :: Nat.toDigits 10 exponent := by
      intro sep hSep
      rw [List.mem_append, not_or]
      exact ⟨not_mem_of_isDigit hRest (by rcases hSep with rfl | rfl <;> decide),
        not_mem_exponent hSep exponent⟩
    have hComma : ',' ∉ sign negative ++ scientific m := by
      rw [hForm, List.mem_append, not_or]
      refine ⟨not_mem_front (.inr rfl) negative hFirst, ?_⟩
      exact List.not_mem_cons_of_ne_of_not_mem (by decide) (hTail ',' (.inr rfl))
    have hSplit := euroToCents_split ((dotted_eq_self hComma).trans hForm)
      (not_mem_front (.inl rfl) negative hFirst) (hTail '.' (.inl rfl))
    have hLong : 1 ≤ rest.length := List.length_pos_iff.mpr hNone
    have hJoined : sign negative ++ [first] ++
        List.rightpad 2 '0' ((some (rest ++ 'e' :: '+' :: Nat.toDigits 10 exponent)).getD []) =
          sign negative ++ (first :: rest ++ 'e' :: '+' :: Nat.toDigits 10 exponent) := by
      have hLength : 2 ≤ (rest ++ 'e' :: '+' :: Nat.toDigits 10 exponent).length := by
        rw [List.length_append, List.length_cons]
        omega
      rw [Option.getD_some, List.rightpad, Nat.sub_eq_zero_of_le hLength, List.replicate_zero,
        List.append_nil, List.append_assoc]
      rfl
    rw [hJoined, ofText_exponent hNat hDigits, natOf_toDigits] at hSplit
    exact ⟨_, hSplit, two_mul_lt hPos hClose (by omega)⟩

theorem not_backAgain {cents : ℤ} (hValue : val.value = some cents) (hLarge : ¬Fits cents) :
    ¬BackAgain val := by
  obtain ⟨negative, m, hDouble, hInt, rfl⟩ := eq_double_of_not_fits hValue hLarge
  have hMany : 10 ^ 15 ≤ m := by
    rw [Fits, signed] at hLarge
    split at hLarge
    · omega
    · omega
  have hText : val.int.text = sign negative ++ scientific m := by
    rw [hInt, hDouble]
    rfl
  have hEuro : centsToEuro val = sign negative ++ scientific m := by
    obtain ⟨first, rest, -, exponent, hForm, hNat, -⟩ := scientific_spec hMany
    have hHead : (scientific m).head? ≠ some '-' := by
      rw [hForm]
      exact head?_ne_of_isDigit (hNat.2 first List.mem_cons_self) _
    have hPadded : (scientific m).leftpad 3 '0' = scientific m := by
      have hLength : 3 ≤ (scientific m).length := by
        rw [hForm, List.length_cons, List.length_append, List.length_cons, List.length_cons]
        omega
      rw [List.leftpad, Nat.sub_eq_zero_of_le hLength]
      rfl
    have hPointed : pointed (scientific m) = scientific m := by
      refine if_neg fun hAll => ?_
      exact absurd (List.all_eq_true.mp hAll.2 'e' (mem_scientific m)) (by decide)
    rw [centsToEuro_text hText hHead, hPadded, hPointed]
  rintro ⟨n, cents, hCents, hVal, hBack⟩
  obtain ⟨much, hMuch, hMore⟩ := euroToCents_scientific hMany negative
  rw [hEuro, hMuch] at hCents
  obtain rfl := Option.some.inj (Except.ok.inj hCents)
  obtain ⟨other, hNearest, hOther⟩ := Option.map_eq_some_iff.mp hBack
  rw [hValue, Option.some.injEq] at hVal
  have hSame : other = m := signed_inj.mp (hOther.trans hVal.symm)
  have hHalf := le_two_mul_nearest hNearest
  omega

theorem backAgain_iff (val : Number) : BackAgain val ↔ InRange val := by
  constructor
  · intro hBack
    obtain ⟨n, cents, -, hValue, -⟩ := id hBack
    by_contra hOut
    exact not_backAgain hValue (fun fits => hOut ⟨cents, hValue, fits⟩) hBack
  · rintro ⟨cents, hValue, fits⟩
    exact backAgain_of_fits hValue fits

/-- Both directions for every amount and every number. -/
theorem cents_iff (x : DecimalText) (val : Number) :
    (NearCents x ↔ Accurate x) ∧ (BackAgain val ↔ InRange val) :=
  ⟨nearCents_iff x, backAgain_iff val⟩

/-- `1.234`. -/
def overLong : DecimalText where
  negative := false
  whole := ['1']
  separator := '.'
  frac := some ['2', '3', '4']
  isDigit_whole := List.forall_mem_singleton.mpr (by decide)
  isDigit_frac := List.all_eq_true.mp (by decide)
  separator_eq := separator_point

theorem not_nearCents_overLong :
    euroToCents (some overLong.toText) = .ok (some (ofInt 1234)) ∧ ¬NearCents overLong :=
  ⟨by decide, fun hNear => absurd ((nearCents_iff overLong).mp hNear) (by decide)⟩

example : centsToEuro (ofInt (-5)) = ['-', '0', '.', '0', '5'] := by decide

end PageCamel.Helpers.Cents

import Mathlib.Algebra.Order.Ring.Int
import Mathlib.Data.List.DropRight
import Mathlib.Data.Nat.Digits.Defs
import Mathlib.Tactic.Ring

/-!
Whole numbers as Perl has them: integers of 64 bits, doubles beyond, how they are written and
read, and `++` on text.
-/

namespace PageCamel.Lib.PerlNumber

/-- `n / unit`, ties to even. -/
def roundEven (n unit : Nat) : Nat :=
  if 2 * (n % unit) < unit ∨ 2 * (n % unit) = unit ∧ n / unit % 2 = 0 then n / unit
  else n / unit + 1

/-- The nearest double, if there is a finite one. -/
def nearest (n : Nat) : Option Nat :=
  if n < 2 ^ 53 then some n
  else
    let unit := 2 ^ (n.log2 - 52)
    let m := roundEven n unit * unit
    if m < 2 ^ 1024 then some m else none

def Fits (n : Int) : Prop := -2 ^ 63 ≤ n ∧ n < 2 ^ 64

instance (n : Int) : Decidable (Fits n) := inferInstanceAs (Decidable (-2 ^ 63 ≤ n ∧ n < 2 ^ 64))

/-- A double without a magnitude is infinite. -/
inductive Number where
  | whole (n : Int) (fits : Fits n)
  | double (negative : Bool) (magnitude : Option Nat)
  deriving DecidableEq, Repr

def signed (negative : Bool) (n : Nat) : Int := if negative then -n else n

def ofInt (n : Int) : Number :=
  if fits : Fits n then .whole n fits else .double (decide (n < 0)) (nearest n.natAbs)

def Number.value : Number → Option Int
  | .whole n _ => some n
  | .double negative magnitude => magnitude.map fun m => signed negative m

/-- The number is one of Perl's. -/
def Exact (n : Int) : Prop := Fits n ∨ nearest n.natAbs = some n.natAbs

instance (n : Int) : Decidable (Exact n) :=
  inferInstanceAs (Decidable (Fits n ∨ nearest n.natAbs = some n.natAbs))

/-- `int`, of whole numbers: a double becomes an integer where there is room. -/
def Number.int : Number → Number
  | .whole n fits => .whole n fits
  | .double negative none => .double negative none
  | .double negative (some m) =>
      if fits : Fits (signed negative m) then .whole (signed negative m) fits
      else .double negative (some m)

/-! ### Text -/

def natOf (digits : List Char) : Nat := Nat.ofDigitChars 10 digits 0

def IsNat (text : List Char) : Prop := text ≠ [] ∧ ∀ c ∈ text, c.isDigit = true

instance (text : List Char) : Decidable (IsNat text) :=
  decidable_of_iff (text ≠ [] ∧ text.all Char.isDigit = true) (and_congr_right' List.all_eq_true)

/-- An optional sign and digits. -/
def intOf? : List Char → Option Int
  | '-' :: digits => if IsNat digits then some (-natOf digits) else none
  | digits => if IsNat digits then some (natOf digits) else none

def unsigned (text : List Char) : List Char := if text.head? = some '-' then text.tail else text

/-- What the text counts as: besides integers whole numbers with an exponent, and `Inf`. Fractions
and text with something behind the number are left out. -/
def ofText (text : List Char) : Option Number :=
  match intOf? text with
  | some n => some (ofInt n)
  | none =>
      let negative := decide (text.head? = some '-')
      if ['I', 'n', 'f'] <+: unsigned text then some (.double negative none)
      else
        let digits := (unsigned text).takeWhile Char.isDigit
        match (unsigned text).dropWhile Char.isDigit with
        | 'e' :: '+' :: exponent =>
            if IsNat digits ∧ IsNat exponent then
              some (.double negative (nearest (natOf digits * 10 ^ natOf exponent)))
            else none
        | _ => none

/-- `-` or nothing. -/
def sign (negative : Bool) : List Char := if negative then ['-'] else []

def intText (n : Int) : List Char :=
  sign (n < 0) ++ Nat.toDigits 10 n.natAbs

/-- The first fifteen digits and the exponent. -/
def mantissa (m : Nat) : Nat × Nat :=
  let exponent := (Nat.toDigits 10 m).length - 1
  let digits := roundEven m (10 ^ (exponent - 14))
  if digits = 10 ^ 15 then (10 ^ 14, exponent + 1) else (digits, exponent)

/-- `%.15g` of a number from 10 ^ 15 on. -/
def scientific (m : Nat) : List Char :=
  let digits := Nat.toDigits 10 (mantissa m).1
  let rest := digits.tail.rdropWhile (· = '0')
  digits.take 1 ++ (if rest = [] then [] else '.' :: rest) ++
    'e' :: '+' :: Nat.toDigits 10 (mantissa m).2

def Number.text : Number → List Char
  | .whole n _ => intText n
  | .double negative magnitude =>
      sign negative ++ (magnitude.map scientific).getD ['I', 'n', 'f']

/-! ### `++` -/

def Number.increment : Number → Number
  | .whole n _ => ofInt (n + 1)
  | .double negative magnitude =>
      .double negative (magnitude.bind fun m => nearest (if negative then m - 1 else m + 1))

/-- One more, the last character first, and whether there is a carry. -/
def carry : List Char → List Char × Bool
  | [] => ([], true)
  | '9' :: rest => ('0' :: (carry rest).1, (carry rest).2)
  | 'z' :: rest => ('a' :: (carry rest).1, (carry rest).2)
  | 'Z' :: rest => ('A' :: (carry rest).1, (carry rest).2)
  | c :: rest => (Char.ofNat (c.toNat + 1) :: rest, false)

/-- Letters and digits behind them count in their own ranges. -/
def incrementChars (text : List Char) : List Char :=
  let (more, grows) := carry text.reverse
  match more.reverse, grows with
  | c :: more, true => (if c.isDigit then '1' else c) :: c :: more
  | more, _ => more

def increment (text : List Char) : Option (List Char) :=
  if text = [] then some ['1']
  else if (text.dropWhile Char.isAlpha).all Char.isDigit then some (incrementChars text)
  else (ofText text).map fun n => n.increment.text

/-! ### Digits -/

variable {c : Char} {digits : List Char} {n : Nat}

theorem isDigit_iff : c.isDigit = true ↔ 48 ≤ c.toNat ∧ c.toNat ≤ 57 := by
  rw [Char.isDigit, Bool.and_eq_true, decide_eq_true_iff, decide_eq_true_iff, ge_iff_le,
    UInt32.le_iff_toNat_le, UInt32.le_iff_toNat_le]
  exact Iff.rfl

theorem natOf_append_singleton (digits : List Char) (c : Char) :
    natOf (digits ++ [c]) = 10 * natOf digits + (c.toNat - 48) := by
  rw [natOf, Nat.ofDigitChars_append, Nat.ofDigitChars_cons, Nat.ofDigitChars_nil]
  rfl

theorem natOf_append (digits other : List Char) :
    natOf (digits ++ other) = natOf digits * 10 ^ other.length + natOf other := by
  rw [natOf, Nat.ofDigitChars_append, Nat.ofDigitChars_eq_ofDigitChars_zero, Nat.mul_comm]
  rfl

theorem natOf_replicate_zero (k : Nat) : natOf (List.replicate k '0') = 0 := by
  rw [natOf, Nat.ofDigitChars_replicate_zero, Nat.mul_zero]

theorem natOf_toDigits (n : Nat) : natOf (Nat.toDigits 10 n) = n := Nat.ofDigitChars_ten_toDigits

theorem isNat_toDigits (n : Nat) : IsNat (Nat.toDigits 10 n) :=
  ⟨Nat.toDigits_ne_nil, fun _ hc => Nat.isDigit_of_mem_toDigits (by decide) (by decide) hc⟩

theorem natOf_lt (hDigits : ∀ c ∈ digits, c.isDigit = true) : natOf digits < 10 ^ digits.length := by
  induction digits using List.reverseRecOn with
  | nil => exact Nat.one_pos
  | append_singleton digits c ih =>
    rw [List.forall_mem_append, List.forall_mem_singleton] at hDigits
    have hRest := ih hDigits.1
    have hLast := (isDigit_iff.mp hDigits.2).2
    rw [natOf_append_singleton, List.length_append, List.length_singleton, pow_succ]
    omega

theorem ne_of_isDigit (hDigit : c.isDigit = true) {d : Char} (hOther : d.isDigit = false) : c ≠ d := by
  rintro rfl
  rw [hDigit] at hOther
  cases hOther

theorem intOf?_of_isNat (hNat : IsNat digits) : intOf? digits = some (natOf digits : Int) := by
  rw [intOf?]
  · exact if_pos hNat
  · rintro rest rfl
    exact ne_of_isDigit (hNat.2 _ List.mem_cons_self) (by decide) rfl

theorem intOf?_neg (hNat : IsNat digits) : intOf? ('-' :: digits) = some (-(natOf digits : Int)) := by
  rw [intOf?]
  exact if_pos hNat

theorem intOf?_sign (hNat : IsNat digits) (negative : Bool) :
    intOf? (sign negative ++ digits) = some (signed negative (natOf digits)) := by
  cases negative with
  | true => exact intOf?_neg hNat
  | false => exact intOf?_of_isNat hNat

theorem natAbs_signed (negative : Bool) (n : Nat) : (signed negative n).natAbs = n := by
  cases negative with
  | true => exact (Int.natAbs_neg n).trans (Int.natAbs_natCast n)
  | false => exact Int.natAbs_natCast n

theorem signed_mul (negative : Bool) (n m : Nat) : signed negative (n * m) = signed negative n * m := by
  cases negative with
  | true => exact (congrArg Neg.neg (Nat.cast_mul n m)).trans (Int.neg_mul n m).symm
  | false => exact Nat.cast_mul n m

theorem signed_natAbs (n : Int) : signed (n < 0) n.natAbs = n := by
  by_cases hNegative : n < 0
  · rw [signed, if_pos (decide_eq_true hNegative)]
    omega
  · rw [signed, if_neg (by simpa using hNegative)]
    omega

theorem intOf?_intText (n : Int) : intOf? (intText n) = some n := by
  rw [intText, intOf?_sign (isNat_toDigits _), natOf_toDigits, signed_natAbs]

/-! ### Counting up digits -/

theorem toNat_ofNat {k : Nat} (hk : k < 128) : (Char.ofNat k).toNat = k := by
  have hValid : k.isValidChar := .inl (Nat.lt_trans hk (by decide))
  rw [Char.ofNat, dif_pos hValid]
  rfl

/-- A digit other than nine. -/
theorem carry_cons (hDigit : c.isDigit = true) (hNine : c ≠ '9') (rest : List Char) :
    carry (c :: rest) = (Char.ofNat (c.toNat + 1) :: rest, false) := by
  have hLetter : ∀ d : Char, d.isDigit = false → c ≠ d := fun d hOther => ne_of_isDigit hDigit hOther
  rw [carry]
  · exact hNine
  · exact hLetter 'z' (by decide)
  · exact hLetter 'Z' (by decide)

theorem toNat_lt_of_ne_nine (hDigit : c.isDigit = true) (hNine : c ≠ '9') : c.toNat < 57 := by
  have hLe := (isDigit_iff.mp hDigit).2
  have hNe : c.toNat ≠ 57 := fun hSame => hNine (Char.toNat_inj.mp hSame)
  omega

/-- By induction on the digits from the last one on; nines are carried. -/
theorem carry_spec (rev : List Char) (hDigits : ∀ c ∈ rev, c.isDigit = true) :
    (∀ c ∈ (carry rev).1, c.isDigit = true) ∧ (carry rev).1.length = rev.length ∧
      natOf (carry rev).1.reverse + (if (carry rev).2 then 10 ^ rev.length else 0) =
        natOf rev.reverse + 1 := by
  induction rev with
  | nil => exact ⟨nofun, rfl, rfl⟩
  | cons c rest ih =>
    rw [List.forall_mem_cons] at hDigits
    obtain ⟨hRest, hLength, hNat⟩ := ih hDigits.2
    by_cases hNine : c = '9'
    · subst hNine
      rw [carry, List.reverse_cons, List.reverse_cons, natOf_append_singleton,
        natOf_append_singleton, List.length_cons, List.length_cons, hLength]
      refine ⟨List.forall_mem_cons.mpr ⟨by decide, hRest⟩, rfl, ?_⟩
      cases hCarry : (carry rest).2 with
      | false =>
        rw [hCarry, if_neg Bool.false_ne_true] at hNat
        have hZero : ('0' : Char).toNat - 48 = 0 := rfl
        have hTen : ('9' : Char).toNat - 48 = 9 := rfl
        rw [if_neg Bool.false_ne_true, hZero, hTen]
        omega
      | true =>
        rw [hCarry, if_pos rfl] at hNat
        have hZero : ('0' : Char).toNat - 48 = 0 := rfl
        have hTen : ('9' : Char).toNat - 48 = 9 := rfl
        rw [if_pos rfl, hZero, hTen, pow_succ]
        omega
    · have hLess := toNat_lt_of_ne_nine hDigits.1 hNine
      have hFirst := (isDigit_iff.mp hDigits.1).1
      have hNext : (Char.ofNat (c.toNat + 1)).toNat = c.toNat + 1 := toNat_ofNat (by omega)
      rw [carry_cons hDigits.1 hNine, List.reverse_cons, List.reverse_cons, natOf_append_singleton,
        natOf_append_singleton, hNext]
      refine ⟨List.forall_mem_cons.mpr ⟨?_, hDigits.2⟩, rfl, ?_⟩
      · rw [isDigit_iff, hNext]
        omega
      · rw [if_neg Bool.false_ne_true]
        omega

theorem incrementChars_spec (hNat : IsNat digits) :
    IsNat (incrementChars digits) ∧ natOf (incrementChars digits) = natOf digits + 1 ∧
      digits.length ≤ (incrementChars digits).length := by
  obtain ⟨hDigits, hLength, hValue⟩ := carry_spec digits.reverse fun c hc =>
    hNat.2 c (List.mem_reverse.mp hc)
  rw [List.length_reverse, List.reverse_reverse] at hValue
  rw [List.length_reverse] at hLength
  have hReverse : ∀ c ∈ (carry digits.reverse).1.reverse, c.isDigit = true := fun c hc =>
    hDigits c (List.mem_reverse.mp hc)
  have hSome : (carry digits.reverse).1.reverse ≠ [] := by
    refine List.ne_nil_of_length_pos ?_
    rw [List.length_reverse, hLength]
    exact List.length_pos_iff.mpr hNat.1
  rw [incrementChars]
  obtain ⟨c, more, hMore⟩ := List.exists_cons_of_ne_nil hSome
  have hMoreLength : (c :: more).length = digits.length := by
    rw [← hMore, List.length_reverse, hLength]
  rw [hMore] at hReverse hValue
  dsimp only
  cases hCarry : (carry digits.reverse).2 with
  | false =>
    rw [hMore]
    rw [hCarry, if_neg Bool.false_ne_true, Nat.add_zero] at hValue
    exact ⟨⟨List.cons_ne_nil c more, hReverse⟩, hValue, hMoreLength.ge⟩
  | true =>
    rw [hMore]
    rw [hCarry, if_pos rfl] at hValue
    dsimp only
    rw [if_pos (hReverse c List.mem_cons_self)]
    refine ⟨⟨List.cons_ne_nil _ _, List.forall_mem_cons.mpr ⟨by decide, hReverse⟩⟩, ?_, ?_⟩
    · have hOne : natOf ['1'] = 1 := rfl
      rw [← List.singleton_append, natOf_append, hOne, hMoreLength, Nat.one_mul, Nat.add_comm]
      exact hValue
    · rw [List.length_cons, hMoreLength]
      exact Nat.le_succ _

theorem increment_digits (hNat : IsNat digits) : increment digits = some (incrementChars digits) := by
  have hAll : (digits.dropWhile Char.isAlpha).all Char.isDigit = true :=
    List.all_eq_true.mpr fun c hc => hNat.2 c ((List.dropWhile_suffix _).subset hc)
  rw [increment, if_neg hNat.1, if_pos hAll]

theorem increment_neg (hNat : IsNat digits) :
    increment ('-' :: digits) = some (ofInt (-natOf digits)).increment.text := by
  rw [increment, if_neg (List.cons_ne_nil _ _), if_neg (by simp [List.dropWhile]),
    ofText, intOf?_neg hNat]
  rfl

/-! ### Doubles -/

theorem le_two_mul_roundEven {unit : Nat} (hUnit : 0 < unit) (hLe : unit ≤ n) :
    n ≤ 2 * (roundEven n unit * unit) := by
  have hDown : n / unit ≤ roundEven n unit := by
    rw [roundEven]
    split
    · exact Nat.le_refl _
    · exact Nat.le_succ _
  have hOne : 1 ≤ n / unit := Nat.div_pos hLe hUnit
  have hSplit := Nat.div_add_mod n unit
  have hRest := Nat.mod_lt n hUnit
  have hMul : n / unit * unit ≤ roundEven n unit * unit := Nat.mul_le_mul_right unit hDown
  have hUnitLe : unit ≤ n / unit * unit := Nat.le_mul_of_pos_left unit hOne
  rw [Nat.mul_comm] at hSplit
  omega

theorem le_two_mul_nearest {m : Nat} (hNearest : nearest n = some m) : n ≤ 2 * m := by
  rw [nearest] at hNearest
  split at hNearest
  · obtain rfl := Option.some.inj hNearest
    omega
  · next hLarge =>
    dsimp only at hNearest
    split at hNearest
    · obtain rfl := Option.some.inj hNearest
      refine le_two_mul_roundEven (Nat.two_pow_pos _) ?_
      have hSome : n ≠ 0 := by
        rintro rfl
        exact hLarge (Nat.two_pow_pos 53)
      exact Nat.le_trans (Nat.pow_le_pow_right (by decide) (Nat.sub_le _ _)) (Nat.log2_self_le hSome)
    · cases hNearest

theorem signed_inj {negative : Bool} {m : Nat} : signed negative n = signed negative m ↔ n = m := by
  cases negative with
  | true => exact neg_inj.trans Nat.cast_inj
  | false => exact Nat.cast_inj

/-- A number beyond 64 bits is replaced by a double of its order. -/
theorem value_ofInt {n c : Int} (hValue : (ofInt n).value = some c) :
    c = n ∧ Fits n ∨ ¬Fits n ∧ ∃ m, c = signed (n < 0) m ∧ nearest n.natAbs = some m := by
  by_cases fits : Fits n
  · rw [ofInt, dif_pos fits, Number.value, Option.some.injEq] at hValue
    exact .inl ⟨hValue.symm, fits⟩
  · rw [ofInt, dif_neg fits, Number.value, Option.map_eq_some_iff] at hValue
    obtain ⟨m, hNearest, hSame⟩ := hValue
    exact .inr ⟨fits, m, hSame.symm, hNearest⟩

theorem value_ofInt_eq_some_iff {n : Int} : (ofInt n).value = some n ↔ Exact n := by
  constructor
  · intro hValue
    rcases value_ofInt hValue with ⟨-, fits⟩ | ⟨-, m, hSame, hNearest⟩
    · exact .inl fits
    · right
      rw [hNearest]
      have hAbs := natAbs_signed (n < 0) m
      rw [← hSame] at hAbs
      rw [hAbs]
  · intro hExact
    by_cases fits : Fits n
    · rw [ofInt, dif_pos fits, Number.value]
    · rw [ofInt, dif_neg fits, Number.value, hExact.resolve_left fits, Option.map_some,
        signed_natAbs]

theorem int_of_fits {val : Number} {c : Int} (hValue : val.value = some c) (fits : Fits c) :
    val.int = .whole c fits := by
  cases val with
  | whole n _ =>
    obtain rfl := Option.some.inj hValue
    rfl
  | double negative magnitude =>
    obtain ⟨m, rfl, rfl⟩ := Option.map_eq_some_iff.mp hValue
    exact dif_pos fits

theorem eq_double_of_not_fits {val : Number} {c : Int} (hValue : val.value = some c)
    (hLarge : ¬Fits c) :
    ∃ negative m, val = .double negative (some m) ∧ val.int = val ∧ c = signed negative m := by
  cases val with
  | whole n fits => exact absurd (Option.some.inj hValue ▸ fits) hLarge
  | double negative magnitude =>
    obtain ⟨m, rfl, rfl⟩ := Option.map_eq_some_iff.mp hValue
    exact ⟨negative, m, rfl, dif_neg hLarge, rfl⟩

/-! ### Numbers with an exponent -/

theorem roundEven_le (n unit : Nat) : roundEven n unit ≤ n / unit + 1 := by
  rw [roundEven]
  split
  · exact Nat.le_succ _
  · exact Nat.le_refl _

theorem mantissa_spec {m : Nat} (hLarge : 10 ^ 15 ≤ m) :
    (mantissa m).1 < 10 ^ 15 ∧ 15 ≤ (mantissa m).2 ∧
      m ≤ 2 * ((mantissa m).1 * 10 ^ ((mantissa m).2 - 14)) := by
  obtain ⟨exponent, hLength⟩ : ∃ exponent, (Nat.toDigits 10 m).length = exponent + 1 :=
    ⟨(Nat.toDigits 10 m).length - 1, (Nat.succ_pred_eq_of_pos Nat.length_toDigits_pos).symm⟩
  have hLess : m < 10 ^ (exponent + 1) :=
    (Nat.length_toDigits_le_iff (by decide) (Nat.succ_pos exponent)).mp hLength.le
  have hExponent : 15 ≤ exponent := by
    by_contra hShort
    have hPow : 10 ^ (exponent + 1) ≤ 10 ^ 15 := Nat.pow_le_pow_right (by decide) (by omega)
    omega
  have hMore : 10 ^ exponent ≤ m := by
    by_contra hShort
    have hLe := (Nat.length_toDigits_le_iff (n := m) (by decide) (by omega : 0 < exponent)).mpr
      (Nat.not_le.mp hShort)
    omega
  have hUnit : 10 ^ (exponent - 14) ≤ m :=
    Nat.le_trans (Nat.pow_le_pow_right (by decide) (Nat.sub_le _ _)) hMore
  have hClose := le_two_mul_roundEven (Nat.pow_pos (by decide) : 0 < 10 ^ (exponent - 14)) hUnit
  have hDigits : roundEven m (10 ^ (exponent - 14)) ≤ 10 ^ 15 := by
    refine Nat.le_trans (roundEven_le _ _) (Nat.div_lt_of_lt_mul ?_)
    rwa [← pow_add, show exponent - 14 + 15 = exponent + 1 by omega]
  rw [mantissa, hLength, Nat.add_sub_cancel]
  split
  · next hFull =>
    refine ⟨Nat.pow_lt_pow_right (by decide) (by decide), Nat.le_succ_of_le hExponent, ?_⟩
    rw [hFull] at hClose
    have hSame : 10 ^ 14 * 10 ^ (exponent + 1 - 14) = 10 ^ 15 * 10 ^ (exponent - 14) := by
      rw [← pow_add, ← pow_add]
      congr 1
      omega
    rwa [hSame]
  · next hNotFull => exact ⟨Nat.lt_of_le_of_ne hDigits hNotFull, hExponent, hClose⟩

theorem eq_append_replicate (digits : List Char) :
    ∃ k, digits = digits.rdropWhile (· = '0') ++ List.replicate k '0' := by
  induction digits using List.reverseRecOn with
  | nil => exact ⟨0, rfl⟩
  | append_singleton digits c ih =>
    rw [List.rdropWhile_concat]
    split
    · next hZero =>
      obtain ⟨k, hk⟩ := ih
      refine ⟨k + 1, ?_⟩
      rw [List.replicate_succ', ← List.append_assoc, ← hk, of_decide_eq_true hZero]
    · exact ⟨0, (List.append_nil _).symm⟩

/-- What is written of a number: a first digit, the digits behind the point, and the exponent. -/
theorem scientific_spec {m : Nat} (hLarge : 10 ^ 15 ≤ m) :
    ∃ first rest k exponent,
      scientific m =
          first :: ((if rest = [] then [] else '.' :: rest) ++ 'e' :: '+' :: Nat.toDigits 10 exponent) ∧
        IsNat (first :: rest) ∧ rest.length + k ≤ 14 ∧ 15 ≤ exponent ∧
          m ≤ 2 * (natOf (first :: rest) * 10 ^ (k + exponent - 14)) := by
  obtain ⟨hShort, hExponent, hClose⟩ := mantissa_spec hLarge
  have hNat := isNat_toDigits (mantissa m).1
  have hLength : (Nat.toDigits 10 (mantissa m).1).length ≤ 15 :=
    (Nat.length_toDigits_le_iff (by decide) (by decide)).mpr hShort
  have hValue := natOf_toDigits (mantissa m).1
  rw [scientific]
  obtain ⟨first, tail, hDigits⟩ := List.exists_cons_of_ne_nil hNat.1
  rw [hDigits] at hNat hLength hValue ⊢
  obtain ⟨k, hk⟩ := eq_append_replicate tail
  refine ⟨first, tail.rdropWhile (· = '0'), k, (mantissa m).2, ?_, ?_, ?_, hExponent, ?_⟩
  · simp only [List.tail_cons, List.take_succ_cons, List.take_zero]
    rw [List.append_assoc]
    rfl
  · refine ⟨List.cons_ne_nil _ _, List.forall_mem_cons.mpr ⟨hNat.2 _ List.mem_cons_self, ?_⟩⟩
    exact fun c hc => hNat.2 c (List.mem_cons_of_mem _ ((List.rdropWhile_prefix _ _).subset hc))
  · have hTail := congrArg List.length hk
    rw [List.length_append, List.length_replicate] at hTail
    rw [List.length_cons] at hLength
    omega
  · have hSplit : natOf (first :: tail.rdropWhile (· = '0')) * 10 ^ k = (mantissa m).1 := by
      rw [← hValue]
      conv_rhs => rw [hk]
      rw [← List.cons_append, natOf_append, natOf_replicate_zero, List.length_replicate, Nat.add_zero]
    rw [← hSplit, Nat.mul_assoc, ← pow_add] at hClose
    rwa [show k + (mantissa m).2 - 14 = k + ((mantissa m).2 - 14) by omega]

theorem mem_scientific (m : Nat) : 'e' ∈ scientific m :=
  List.mem_append_right _ List.mem_cons_self

theorem intOf?_eq_none {text : List Char} (hOther : ∃ c ∈ unsigned text, c.isDigit = false) :
    intOf? text = none := by
  obtain ⟨c, hc, hOther⟩ := hOther
  have hNot : ¬IsNat (unsigned text) := fun hNat => ne_true_of_eq_false hOther (hNat.2 c hc)
  rw [unsigned] at hNot
  rw [intOf?.eq_def]
  split
  · exact if_neg hNot
  · next hSign =>
    rw [if_neg] at hNot
    · exact if_neg hNot
    · intro hHead
      obtain ⟨rest, rfl⟩ : ∃ rest, text = '-' :: rest := by
        cases text with
        | nil => cases hHead
        | cons d rest => exact ⟨rest, by rw [Option.some.inj hHead]⟩
      exact hSign rest rfl

theorem unsigned_sign {text : List Char} (hText : text.head? ≠ some '-') (negative : Bool) :
    unsigned (sign negative ++ text) = text := by
  cases negative with
  | true => exact if_pos rfl
  | false => exact if_neg hText

theorem head_sign {text : List Char} (hText : text.head? ≠ some '-') (negative : Bool) :
    decide ((sign negative ++ text).head? = some '-') = negative := by
  cases negative with
  | true => exact decide_eq_true rfl
  | false => exact decide_eq_false hText

theorem ofText_exponent {exponent : List Char} (hNat : IsNat digits) (hExponent : IsNat exponent)
    (negative : Bool) :
    ofText (sign negative ++ (digits ++ 'e' :: '+' :: exponent)) =
      some (.double negative (nearest (natOf digits * 10 ^ natOf exponent))) := by
  obtain ⟨c, more, hDigits⟩ := List.exists_cons_of_ne_nil hNat.1
  have hFirst : c.isDigit = true := hNat.2 c (hDigits ▸ List.mem_cons_self)
  have hHead : (digits ++ 'e' :: '+' :: exponent).head? ≠ some '-' := by
    rw [hDigits]
    intro hSign
    exact ne_of_isDigit hFirst (by decide) (Option.some.inj hSign)
  have hInf : ¬['I', 'n', 'f'] <+: digits ++ 'e' :: '+' :: exponent := by
    rw [hDigits]
    intro hPrefix
    exact ne_of_isDigit hFirst (by decide) (List.cons_prefix_cons.mp hPrefix).1.symm
  have hNone : intOf? (sign negative ++ (digits ++ 'e' :: '+' :: exponent)) = none := by
    refine intOf?_eq_none ?_
    rw [unsigned_sign hHead]
    exact ⟨'e', List.mem_append_right _ List.mem_cons_self, by decide⟩
  have hTake : (digits ++ 'e' :: '+' :: exponent).takeWhile Char.isDigit = digits := by
    rw [List.takeWhile_append_of_pos hNat.2]
    exact List.append_nil digits
  have hDrop : (digits ++ 'e' :: '+' :: exponent).dropWhile Char.isDigit = 'e' :: '+' :: exponent := by
    rw [List.dropWhile_append_of_pos hNat.2]
    rfl
  rw [ofText, hNone]
  dsimp only
  rw [unsigned_sign hHead, head_sign hHead, if_neg hInf, hTake, hDrop]
  exact if_pos ⟨hNat, hExponent⟩

end PageCamel.Lib.PerlNumber

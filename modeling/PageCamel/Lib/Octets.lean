import Mathlib.Data.List.Infix
import Mathlib.Data.Nat.Digits.Defs

/-!
Octet strings and the string operations Perl code performs on them: searching
for a substring, cutting at the first or at every occurrence of a separator,
folding case, and writing numbers in decimal and hexadecimal.
-/

namespace PageCamel.Lib

abbrev Octets := List UInt8

instance : LawfulBEq Octets := List.instLawfulBEq

/-- The octets of an ASCII literal. -/
def octets (s : String) : Octets := s.toList.map fun c => c.val.toUInt8

def crlf : Octets := [13, 10]

/-- `index($hay, $needle)`: the offset of the first occurrence. -/
def indexOf (needle : Octets) : Octets → Option Nat
  | [] => if needle = [] then some 0 else none
  | b :: hay =>
      if needle.isPrefixOf (b :: hay) then some 0
      else (indexOf needle hay).map (· + 1)

/-- The text before the first separator and the text after it. -/
def cutAt (sep hay : Octets) : Option (Octets × Octets) :=
  (indexOf sep hay).map fun i => (hay.take i, hay.drop (i + sep.length))

/-- All pieces between separators, the last one included even when empty. -/
def pieces (sep : Octets) : Nat → Octets → List Octets
  | 0, hay => [hay]
  | fuel + 1, hay =>
      match cutAt sep hay with
      | none => [hay]
      | some (piece, rest) => piece :: pieces sep fuel rest

/-- `split(/sep/, $hay)` for a non-empty literal separator: trailing empty
fields are dropped. -/
def splitAll (sep hay : Octets) : List Octets :=
  ((pieces sep hay.length hay).reverse.dropWhile (· = [])).reverse

/-- `lc` on an octet string, under the `unicode_strings` feature: the Latin-1
capitals fold as well as the ASCII ones. -/
def lcOctet (b : UInt8) : UInt8 :=
  if (0x41 ≤ b ∧ b ≤ 0x5A) ∨ (0xC0 ≤ b ∧ b ≤ 0xDE ∧ b ≠ 0xD7) then b + 0x20 else b

def lc (s : Octets) : Octets := s.map lcOctet

/-- The class `\s` on octets, under the `unicode_strings` feature. -/
def isSpace (b : UInt8) : Bool :=
  b = 0x20 ∨ (0x09 ≤ b ∧ b ≤ 0x0D) ∨ b = 0x85 ∨ b = 0xA0

def isDigit (b : UInt8) : Bool := 0x30 ≤ b ∧ b ≤ 0x39

/-- The value of a string of decimal digits. -/
def digitsValue (s : Octets) : Nat :=
  s.foldl (fun acc b => 10 * acc + (b.toNat - 0x30)) 0

/-- A string where a number is expected: the integer at its start. Fractions,
exponents and the words for infinity are left out. -/
def numify (s : Octets) : Int :=
  match s.dropWhile isSpace with
  | 0x2D :: digits => -(digitsValue (digits.takeWhile isDigit) : Int)
  | 0x2B :: digits => digitsValue (digits.takeWhile isDigit)
  | digits => digitsValue (digits.takeWhile isDigit)

theorem takeWhile_append_of_all {p : UInt8 → Bool} {s : Octets} (h : ∀ b ∈ s, p b = true)
    (rest : Octets) : (s ++ rest).takeWhile p = s ++ rest.takeWhile p := by
  induction s with
  | nil => rfl
  | cons b s ih =>
      rw [List.cons_append, List.takeWhile_cons_of_pos (h b (List.mem_cons_self ..)),
        ih fun c hc => h c (List.mem_cons_of_mem _ hc)]
      rfl

theorem dropWhile_append_of_all {p : UInt8 → Bool} {s : Octets} (h : ∀ b ∈ s, p b = true)
    (rest : Octets) : (s ++ rest).dropWhile p = rest.dropWhile p := by
  induction s with
  | nil => rfl
  | cons b s ih =>
      rw [List.cons_append, List.dropWhile_cons_of_pos (h b (List.mem_cons_self ..)),
        ih fun c hc => h c (List.mem_cons_of_mem _ hc)]

theorem isDigit_not_space {b : UInt8} (h : isDigit b = true) : isSpace b = false := by
  have hAll : ∀ i : Fin 256, isDigit (UInt8.ofNat i.val) = true →
      isSpace (UInt8.ofNat i.val) = false := by decide +kernel
  have := hAll ⟨b.toNat, b.toNat_lt⟩
  rw [UInt8.ofNat_toNat] at this
  exact this h

/-- A number goes as far as its digits. -/
theorem numify_append {digits tail : Octets} (hNonempty : digits ≠ [])
    (hDigits : ∀ b ∈ digits, isDigit b = true) (hTail : ∀ b ∈ tail.head?, isDigit b = false) :
    numify (digits ++ tail) = digitsValue digits := by
  obtain ⟨d, ds, rfl⟩ := List.exists_cons_of_ne_nil hNonempty
  have hDigit := hDigits d List.mem_cons_self
  have hTake : (d :: ds ++ tail).takeWhile isDigit = d :: ds := by
    rw [takeWhile_append_of_all hDigits]
    cases tail with
    | nil => rw [List.takeWhile_nil, List.append_nil]
    | cons b tail =>
        rw [List.takeWhile_cons_of_neg (by simp [hTail b rfl]), List.append_nil]
  have hSign : d ≠ 0x2D ∧ d ≠ 0x2B := by
    constructor <;> rintro rfl <;> revert hDigit <;> decide
  rw [List.cons_append] at hTake ⊢
  rw [numify, List.dropWhile_cons_of_neg (by simp [isDigit_not_space hDigit])]
  split
  · next hMinus => cases hMinus; exact absurd rfl hSign.1
  · next hPlus => cases hPlus; exact absurd rfl hSign.2
  · rw [hTake]

def digitChar (d : Nat) : UInt8 := UInt8.ofNat (if d < 10 then 0x30 + d else 0x57 + d)

/-- A number in the given base, most significant digit first (`%d`, `%x`). -/
def numeral (base n : Nat) : Octets :=
  if n = 0 then [digitChar 0] else (Nat.digits base n).reverse.map digitChar

abbrev decimal (n : Nat) : Octets := numeral 10 n

theorem digitChar_toNat {d : Nat} (h : d < 10) : (digitChar d).toNat = 0x30 + d := by
  rw [digitChar, if_pos h, UInt8.toNat_ofNat']
  omega

theorem isDigit_digitChar {d : Nat} (h : d < 10) : isDigit (digitChar d) = true := by
  have hValue := digitChar_toNat h
  simp only [isDigit, decide_eq_true_eq, UInt8.le_iff_toNat_le, hValue]
  exact ⟨by simp, by simp; omega⟩

theorem digitsValue_reverse (ds : List Nat) (h : ∀ d ∈ ds, d < 10) :
    digitsValue (ds.reverse.map digitChar) = Nat.ofDigits 10 ds := by
  rw [digitsValue, List.foldl_map, List.foldl_reverse]
  induction ds with
  | nil => rfl
  | cons d ds ih =>
      have hd := digitChar_toNat (h d (List.mem_cons_self ..))
      rw [List.foldr_cons, ih fun e he => h e (List.mem_cons_of_mem _ he), hd, Nat.ofDigits_cons]
      omega

/-- A number is read back from its decimal digits. -/
theorem decimal_spec (n : Nat) :
    decimal n ≠ [] ∧ (decimal n).all isDigit = true ∧ digitsValue (decimal n) = n := by
  rw [decimal, numeral]
  split
  · next hn => subst hn; decide
  · next hn =>
      have hDigits (d : Nat) (hd : d ∈ Nat.digits 10 n) : d < 10 :=
        Nat.digits_lt_base (by omega) hd
      refine ⟨by simpa [Nat.digits_ne_nil_iff_ne_zero] using hn, ?_, by rw [digitsValue_reverse _ hDigits, Nat.ofDigits_digits]⟩
      rw [List.all_eq_true]
      intro b hb
      obtain ⟨d, hd, rfl⟩ := List.mem_map.mp hb
      exact isDigit_digitChar (hDigits d (List.mem_reverse.mp hd))

/-- `pack 'N', $n`: four octets, most significant first. -/
def pack32 (n : Nat) : Octets :=
  [UInt8.ofNat (n >>> 24), UInt8.ofNat (n >>> 16), UInt8.ofNat (n >>> 8), UInt8.ofNat n]

/-- `pack 'n', $n`. -/
def pack16 (n : Nat) : Octets := [UInt8.ofNat (n >>> 8), UInt8.ofNat n]

/-- `unpack 'N', $s`: undefined, and so numerically zero, on a short string. -/
def unpack32 : Octets → Nat
  | a :: b :: c :: d :: _ => ((a.toNat <<< 8 + b.toNat) <<< 8 + c.toNat) <<< 8 + d.toNat
  | _ => 0

def unpack16 : Octets → Nat
  | a :: b :: _ => a.toNat <<< 8 + b.toNat
  | _ => 0

/-- `unpack 'C', $s`. -/
def unpack8 : Octets → Nat
  | a :: _ => a.toNat
  | [] => 0

theorem unpack16_pack16 {n : Nat} (h : n < 2 ^ 16) (rest : Octets) :
    unpack16 (pack16 n ++ rest) = n := by
  simp only [pack16, List.cons_append, unpack16, UInt8.toNat_ofNat', Nat.shiftLeft_eq,
    Nat.shiftRight_eq_div_pow]
  omega

theorem unpack32_pack32 {n : Nat} (h : n < 2 ^ 32) (rest : Octets) :
    unpack32 (pack32 n ++ rest) = n := by
  simp only [pack32, List.cons_append, unpack32, UInt8.toNat_ofNat', Nat.shiftLeft_eq,
    Nat.shiftRight_eq_div_pow]
  omega

end PageCamel.Lib

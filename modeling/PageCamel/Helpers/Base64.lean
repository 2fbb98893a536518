import PageCamel.Frontend.Translate

/-!
`decode_base64` of MIME::Base64, which undoes `encode_base64`.
-/

namespace PageCamel.Helpers.Base64
open PageCamel.Frontend (base64Char encodeBase64)
open PageCamel.Lib (Octets)

def base64Value (c : UInt8) : Option Nat :=
  if 65 ≤ c ∧ c ≤ 90 then some (c.toNat - 65)
  else if 97 ≤ c ∧ c ≤ 122 then some (c.toNat - 71)
  else if 48 ≤ c ∧ c ≤ 57 then some (c.toNat + 4)
  else if c = 43 then some 62
  else if c = 47 then some 63
  else none

def decodeGroups : List Nat → Octets
  | a :: b :: c :: d :: rest =>
      UInt8.ofNat (a * 4 + b / 16) :: UInt8.ofNat (b % 16 * 16 + c / 4) ::
        UInt8.ofNat (c % 4 * 64 + d) :: decodeGroups rest
  | [a, b, c] => [UInt8.ofNat (a * 4 + b / 16), UInt8.ofNat (b % 16 * 16 + c / 4)]
  | [a, b] => [UInt8.ofNat (a * 4 + b / 16)]
  | _ => []

/-- `decode_base64` ends at the padding and leaves out what is no digit. -/
def decodeBase64 (text : Octets) : Octets :=
  decodeGroups ((text.takeWhile (· ≠ 61)).filterMap base64Value)

theorem base64Value_base64Char (n : Nat) : base64Value (base64Char n) = some (n % 64) := by
  have hDigits : ∀ m < 64, base64Value (base64Char m) = some m := by decide
  have hMod : base64Char n = base64Char (n % 64) := by
    rw [base64Char, base64Char, Nat.mod_mod]
  rw [hMod, hDigits _ (Nat.mod_lt n (by decide))]

theorem base64Char_ne {n : Nat} {c : UInt8} (hOther : base64Value c = none) :
    base64Char n ≠ c := by
  rintro rfl
  rw [base64Value_base64Char] at hOther
  cases hOther

theorem digits_cons (n : Nat) (text : Octets) :
    ((base64Char n :: text).takeWhile (· ≠ 61)).filterMap base64Value =
      n % 64 :: (text.takeWhile (· ≠ 61)).filterMap base64Value := by
  have hDigit : base64Char n ≠ 61 := base64Char_ne rfl
  rw [List.takeWhile_cons, if_pos (decide_eq_true hDigit),
    List.filterMap_cons_some (base64Value_base64Char n)]

theorem digits_padding (text : Octets) :
    ((61 :: text).takeWhile (· ≠ 61)).filterMap base64Value = [] := rfl

theorem ofNat_eq_of_toNat {n : Nat} {b : UInt8} (hValue : n = b.toNat) : UInt8.ofNat n = b := by
  rw [hValue, UInt8.ofNat_toNat]

@[simp] theorem decode_encodeBase64 (s : Octets) : decodeBase64 (encodeBase64 s) = s := by
  rw [decodeBase64]
  fun_induction encodeBase64 s with
  | case1 => rfl
  | case2 a =>
    have hA := a.toNat_lt
    rw [digits_cons, digits_cons, digits_padding, decodeGroups,
      ofNat_eq_of_toNat (b := a) (by omega)]
  | case3 a b =>
    have hA := a.toNat_lt
    have hB := b.toNat_lt
    rw [digits_cons, digits_cons, digits_cons, digits_padding, decodeGroups,
      ofNat_eq_of_toNat (b := a) (by omega), ofNat_eq_of_toNat (b := b) (by omega)]
  | case4 a b c s ih =>
    have hA := a.toNat_lt
    have hB := b.toNat_lt
    have hC := c.toNat_lt
    rw [digits_cons, digits_cons, digits_cons, digits_cons, decodeGroups, ih,
      ofNat_eq_of_toNat (b := a) (by omega), ofNat_eq_of_toNat (b := b) (by omega),
      ofNat_eq_of_toNat (b := c) (by omega)]

theorem newline_not_mem_encodeBase64 (s : Octets) : 10 ∉ encodeBase64 s := by
  have hNever : ∀ n, (10 : UInt8) ≠ base64Char n := fun n => (base64Char_ne rfl).symm
  fun_induction encodeBase64 s with
  | case1 => exact List.not_mem_nil
  | case2 a => simp [hNever]
  | case3 a b => simp [hNever]
  | case4 a b c s ih => simp [hNever, ih]

theorem encodeBase64_eq_nil_iff {s : Octets} : encodeBase64 s = [] ↔ s = [] := by
  constructor
  · intro hNil
    rw [← decode_encodeBase64 s, hNil]
    rfl
  · rintro rfl
    rfl

end PageCamel.Helpers.Base64

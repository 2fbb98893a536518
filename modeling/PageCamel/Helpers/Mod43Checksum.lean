import Mathlib.Algebra.BigOperators.Group.List.Basic
import Mathlib.Data.Bool.AllAny
import Mathlib.Data.Nat.ModEq
import Mathlib.Tactic.Common

/-!
The check character of a Code 39 label (`Helpers/Mod43Checksum.pm`). The characters are
looked up in lower case in a list that has capitals only, so every letter counts as zero.
-/

namespace PageCamel.Helpers.Mod43Checksum

abbrev Text := List Char

def keycodes : List Char :=
  ['0', '1', '2', '3', '4', '5', '6', '7', '8', '9', 'A', 'B', 'C', 'D', 'E', 'F', 'G', 'H', 'I',
    'J', 'K', 'L', 'M', 'N', 'O', 'P', 'Q', 'R', 'S', 'T', 'U', 'V', 'W', 'X', 'Y', 'Z', '-', '.',
    ' ', '$', '/', '+', '%']

/-- `keytonum`: zero for what is not in the list. -/
def keytonum (val : Char) : Nat := (keycodes.idxOf? val.toLower).getD 0

def numtokey (val : Nat) : Except String Char :=
  match keycodes[val]? with
  | none => throw ("Illegal keycode " ++ toString val ++ "!")
  | some key => return key

/-- `genChecksum`, with `uc` and `lc` for ASCII, which the alphabet is part of. -/
def genChecksum (val : Text) : Except String Char :=
  numtokey (((val.map Char.toUpper).map keytonum).sum % 43)

/-! ### Check characters -/

/-- A text over the alphabet. -/
def IsLabel (val : Text) : Prop := ∀ c ∈ val, c ∈ keycodes

instance (val : Text) : Decidable (IsLabel val) := List.decidableBAll _ val

/-- The character at the sum of the indices. -/
def checkCharacter (val : Text) : Option Char :=
  keycodes[(val.map fun c => keycodes.idxOf c).sum % 43]?

/-- The last character is the check character of the others. -/
def Verifies (label : Text) : Prop := ∃ val key, label = val ++ [key] ∧ genChecksum val = .ok key

/-- One character is another one of the alphabet. -/
def Substitutes (label label' : Text) : Prop :=
  ∃ front c c' back, label = front ++ c :: back ∧ label' = front ++ c' :: back ∧ c' ≠ c ∧
    c' ∈ keycodes

/-- The check character is the right one, and no label with one character replaced passes. -/
structure Checks (val : Text) : Prop where
  character : ∃ key, checkCharacter val = some key ∧ genChecksum val = .ok key
  rejects : ∀ key, genChecksum val = .ok key → ∀ label, Substitutes (val ++ [key]) label →
    ¬ Verifies label

/-- Zero and the letters, which count as zero too. -/
def CountsAsZero (c : Char) : Prop := c = '0' ∨ c.isUpper

instance (c : Char) : Decidable (CountsAsZero c) := inferInstanceAs (Decidable (_ ∨ _))

/-! ### The sum -/

theorem toUpper_keycodes : ∀ c ∈ keycodes, c.toUpper = c :=
  List.all_iff_forall_prop.mp (by decide)

theorem keytonum_lt : ∀ c ∈ keycodes, keytonum c < 43 :=
  List.all_iff_forall_prop.mp (by decide)

theorem keytonum_zero : ∀ c ∈ keycodes, CountsAsZero c → keytonum c = 0 :=
  List.all_iff_forall_prop.mp (by decide)

theorem keytonum_idxOf : ∀ c ∈ keycodes, ¬ CountsAsZero c → keytonum c = keycodes.idxOf c :=
  List.all_iff_forall_prop.mp (by decide)

theorem keytonum_inj : ∀ c ∈ keycodes, ∀ c' ∈ keycodes, keytonum c' = keytonum c →
    ¬ CountsAsZero c → c' = c := by
  intro c hIn c' hIn' hNums hCounted
  rw [keytonum_idxOf c hIn hCounted] at hNums
  by_cases hZero : CountsAsZero c'
  · have hFirst : keycodes.idxOf '0' = keycodes.idxOf c := by
      rw [← hNums, keytonum_zero c' hIn' hZero]
      rfl
    exact absurd (.inl ((List.idxOf_inj (by decide)).mp hFirst).symm) hCounted
  · rw [keytonum_idxOf c' hIn' hZero] at hNums
    exact (List.idxOf_inj hIn').mp hNums

variable {val : Text} {key : Char}

theorem genChecksum_ok (val : Text) : ∃ key, genChecksum val = .ok key ∧
    keycodes[((val.map Char.toUpper).map keytonum).sum % 43]? = some key := by
  have hLength : keycodes.length = 43 := rfl
  have hIndex : ((val.map Char.toUpper).map keytonum).sum % 43 < keycodes.length := by
    rw [hLength]
    exact Nat.mod_lt _ (by decide)
  refine ⟨keycodes.get ⟨_, hIndex⟩, ?_, List.getElem?_eq_getElem hIndex⟩
  rw [genChecksum, numtokey, List.getElem?_eq_getElem hIndex]
  rfl

/-- The sum of the numbers that `keytonum` gives the characters. -/
def total (val : Text) : Nat := (val.map keytonum).sum

theorem total_substituted (front : Text) (c : Char) (back : Text) :
    total (front ++ c :: back) = total (front ++ back) + keytonum c := by
  simp only [total, List.map_append, List.map_cons, List.sum_append, List.sum_cons]
  omega

theorem genChecksum_of_isLabel (hLabel : IsLabel val) :
    ∃ key, genChecksum val = .ok key ∧ keycodes[total val % 43]? = some key := by
  have hUpper : val.map Char.toUpper = val := by
    rw [List.map_congr_left fun c hc => toUpper_keycodes c (hLabel c hc), List.map_id']
  have hKey := genChecksum_ok val
  rw [hUpper] at hKey
  exact hKey

theorem genChecksum_eq_iff {val' : Text} (hLabel : IsLabel val) (hLabel' : IsLabel val') :
    genChecksum val' = genChecksum val ↔ total val' ≡ total val [MOD 43] := by
  obtain ⟨key, hKey, hAt⟩ := genChecksum_of_isLabel hLabel
  obtain ⟨key', hKey', hAt'⟩ := genChecksum_of_isLabel hLabel'
  have hBound : total val' % 43 < keycodes.length := Nat.mod_lt _ (by decide)
  rw [hKey, hKey']
  constructor
  · intro hSame
    obtain rfl := Except.ok.inj hSame
    exact (List.getElem?_inj hBound (by decide : keycodes.Nodup)).mp (hAt'.trans hAt.symm)
  · intro hMod
    rw [Nat.ModEq] at hMod
    rw [hMod, hAt] at hAt'
    rw [Option.some.inj hAt']

/-- A replaced character goes unnoticed just when it counts the same. -/
theorem genChecksum_substituted_iff {front back : Text} {c c' : Char}
    (hLabel : IsLabel (front ++ c :: back)) (hMem : c' ∈ keycodes) :
    genChecksum (front ++ c' :: back) = genChecksum (front ++ c :: back) ↔
      keytonum c' = keytonum c := by
  have hLabel' : IsLabel (front ++ c' :: back) := by
    intro d hd
    rcases List.mem_append.mp hd with hFront | hBack
    · exact hLabel d (List.mem_append_left _ hFront)
    · rcases List.mem_cons.mp hBack with rfl | hBack
      · exact hMem
      · exact hLabel d (List.mem_append_right _ (List.mem_cons_of_mem _ hBack))
  have hOwn : c ∈ keycodes := hLabel c (List.mem_append_right _ List.mem_cons_self)
  rw [genChecksum_eq_iff hLabel hLabel', total_substituted, total_substituted]
  constructor
  · intro hMod
    have hNums := Nat.ModEq.add_left_cancel' _ hMod
    rwa [Nat.ModEq, Nat.mod_eq_of_lt (keytonum_lt c' hMem), Nat.mod_eq_of_lt (keytonum_lt c hOwn)]
      at hNums
  · intro hNums
    rw [hNums]

theorem character_of_counted (hLabel : IsLabel val) (hCounted : ∀ c ∈ val, ¬ CountsAsZero c) :
    ∃ key, checkCharacter val = some key ∧ genChecksum val = .ok key := by
  obtain ⟨key, hKey, hAt⟩ := genChecksum_of_isLabel hLabel
  refine ⟨key, ?_, hKey⟩
  rw [checkCharacter, ← List.map_congr_left fun c hc => keytonum_idxOf c (hLabel c hc) (hCounted c hc)]
  exact hAt

theorem not_verifies_of_counted (hLabel : IsLabel val) (hCounted : ∀ c ∈ val, ¬ CountsAsZero c)
    (hKey : genChecksum val = .ok key) {label : Text} (hLabel' : Substitutes (val ++ [key]) label) :
    ¬ Verifies label := by
  obtain ⟨front, c, c', back, hWhole, rfl, hOther, hMem⟩ := hLabel'
  rintro ⟨val', key', hSplit, hKey'⟩
  rcases List.eq_nil_or_concat back with rfl | ⟨mid, last, rfl⟩
  · -- the check character itself is another one
    obtain ⟨rfl, hLast⟩ := List.append_inj' hWhole rfl
    obtain ⟨rfl, hLast'⟩ := List.append_inj' hSplit rfl
    obtain rfl := List.singleton_injective hLast
    obtain rfl := List.singleton_injective hLast'
    rw [hKey] at hKey'
    exact hOther (Except.ok.inj hKey').symm
  · rw [List.concat_eq_append, ← List.cons_append, ← List.append_assoc] at hWhole hSplit
    obtain ⟨rfl, hLast⟩ := List.append_inj' hWhole rfl
    obtain ⟨rfl, hLast'⟩ := List.append_inj' hSplit rfl
    obtain rfl := List.singleton_injective hLast
    obtain rfl := List.singleton_injective hLast'
    have hIn : c ∈ front ++ c :: mid := List.mem_append_right _ List.mem_cons_self
    have hNums := (genChecksum_substituted_iff hLabel hMem).mp (hKey'.trans hKey.symm)
    exact hOther (keytonum_inj c (hLabel c hIn) c' hMem hNums (hCounted c hIn))

/-- A character that counts as zero can be replaced by another one that does. -/
theorem unnoticed (hLabel : IsLabel val) {c : Char} (hIn : c ∈ val) (hZero : CountsAsZero c) :
    ∃ key label, genChecksum val = .ok key ∧ Substitutes (val ++ [key]) label ∧ Verifies label := by
  obtain ⟨key, hKey, -⟩ := genChecksum_of_isLabel hLabel
  obtain ⟨c', hMem, hOther, hZero'⟩ : ∃ c' ∈ keycodes, c' ≠ c ∧ CountsAsZero c' := by
    by_cases hIs : c = '0'
    · exact ⟨'A', by decide, by rw [hIs]; decide, by decide⟩
    · exact ⟨'0', by decide, Ne.symm hIs, by decide⟩
  have hNums : keytonum c' = keytonum c :=
    (keytonum_zero c' hMem hZero').trans (keytonum_zero c (hLabel c hIn) hZero).symm
  obtain ⟨front, back, rfl⟩ := List.append_of_mem hIn
  refine ⟨key, front ++ c' :: back ++ [key], hKey, ⟨front, c, c', back ++ [key], ?_, ?_, hOther, hMem⟩,
    ⟨front ++ c' :: back, key, rfl, ?_⟩⟩
  · rw [List.append_assoc, List.cons_append]
  · rw [List.append_assoc, List.cons_append]
  · exact ((genChecksum_substituted_iff hLabel hMem).mpr hNums).trans hKey

/-- The check character does its work for the texts without a zero and without letters. -/
theorem checks_iff (val : Text) (hLabel : IsLabel val) :
    Checks val ↔ ∀ c ∈ val, ¬ CountsAsZero c := by
  constructor
  · intro hChecks c hIn hZero
    obtain ⟨key, label, hKey, hLabel', hVerifies⟩ := unnoticed hLabel hIn hZero
    exact hChecks.rejects key hKey label hLabel' hVerifies
  · intro hCounted
    refine ⟨character_of_counted hLabel hCounted, ?_⟩
    intro key hKey label hLabel'
    exact not_verifies_of_counted hLabel hCounted hKey hLabel'

theorem checks_iff_digits :
    Checks ['1', '2', '-', '3'] ↔ ∀ c ∈ ['1', '2', '-', '3'], ¬ CountsAsZero c :=
  checks_iff ['1', '2', '-', '3'] (List.all_iff_forall_prop.mp (by decide))

/-- The index of `A` is ten, and the check character comes out as the one for zero. -/
theorem not_checks_letter : ¬ ∀ val, IsLabel val → Checks val := by
  intro hAll
  obtain ⟨key, hCharacter, hKey⟩ := (hAll ['A'] (List.forall_mem_singleton.mpr (by decide))).character
  rw [show checkCharacter ['A'] = some 'A' from rfl] at hCharacter
  rw [show genChecksum ['A'] = .ok '0' from rfl] at hKey
  cases hCharacter
  cases hKey

end PageCamel.Helpers.Mod43Checksum

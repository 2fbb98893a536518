import Mathlib.Data.List.Perm.Basic
import Mathlib.Data.Nat.Bitwise
import Mathlib.Tactic.Ring
import PageCamel.Http2.HeaderCompression

/-!
Integers and string literals of HPACK are read back as they were written, up to
the largest integer the decoder takes: one with four continuation octets.
-/

namespace PageCamel.Http2
open PageCamel.Lib

/-! ### Bits -/

theorem length_bitsOf (len value : Nat) : (bitsOf len value).length = len := by
  simp [bitsOf]

theorem bitsOf_getElem? {len value i : Nat} (h : i < len) :
    (bitsOf len value)[i]? = some (value.testBit (len - 1 - i)) := by
  simp [bitsOf, h]

/-- A group of eight bits is the octet it was packed into. -/
theorem bitsOf_bitsValue (group : List Bool) (h : group.length = 8) :
    bitsOf 8 (UInt8.ofNat (bitsValue group)).toNat = group := by
  have hAll : ∀ a b c d e f g i : Bool,
      bitsOf 8 (UInt8.ofNat (bitsValue [a, b, c, d, e, f, g, i])).toNat
        = [a, b, c, d, e, f, g, i] := by
    decide +kernel
  match group, h with
  | [a, b, c, d, e, f, g, i], _ => exact hAll a b c d e f g i

theorem unpackBits_packBits (fuel : Nat) (bits : List Bool) (hFuel : bits.length ≤ fuel)
    (hOctets : 8 ∣ bits.length) : unpackBits (packBits fuel bits) = bits := by
  induction fuel generalizing bits with
  | zero =>
      have hNil := List.length_eq_zero_iff.mp (Nat.le_zero.mp hFuel)
      simp [hNil, packBits, unpackBits]
  | succ fuel ih =>
      by_cases hNil : bits = []
      · simp [hNil, packBits, unpackBits]
      · have hPos := List.length_pos_iff.mpr hNil
        have hTake : (bits.take 8).length = 8 := by simp only [List.length_take]; omega
        have hRest := ih (bits.drop 8) (by simp only [List.length_drop]; omega)
          (by simp only [List.length_drop]; omega)
        have hGroup := bitsOf_bitsValue (bits.take 8) hTake
        simp only [packBits, hNil, if_false, hTake, Nat.sub_self, List.replicate_zero,
          List.append_nil]
        simp only [unpackBits, List.flatMap_cons] at hRest ⊢
        rw [hRest, hGroup, List.take_append_drop]

/-! ### The Huffman code -/

/-- Neither of two code words starts the other. -/
def Apart (p q : Nat × Nat) : Prop := p.2 >>> (p.1 - q.1) ≠ q.2 >>> (q.1 - p.1)

instance : DecidableRel Apart := fun _ _ => inferInstanceAs (Decidable (_ ≠ _))

/-- A code word stands before another one that is not shorter, and does not start it. -/
def Before (p q : Nat × Nat) : Prop := p.1 ≤ q.1 ∧ (p.2 + 1) * 2 ^ (q.1 - p.1) ≤ q.2

instance : DecidableRel Before := fun _ _ => inferInstanceAs (Decidable (_ ∧ _))

instance : IsTrans (Nat × Nat) Before where
  trans p q r hpq hqr := by
    refine ⟨hpq.1.trans hqr.1, ?_⟩
    have hPow : 2 ^ (r.1 - p.1) = 2 ^ (q.1 - p.1) * 2 ^ (r.1 - q.1) := by
      rw [← Nat.pow_add]
      have hSum : r.1 - p.1 = q.1 - p.1 + (r.1 - q.1) := by
        have hFirst := hpq.1
        have hSecond := hqr.1
        omega
      rw [hSum]
    calc (p.2 + 1) * 2 ^ (r.1 - p.1) = (p.2 + 1) * 2 ^ (q.1 - p.1) * 2 ^ (r.1 - q.1) := by
          rw [hPow, Nat.mul_assoc]
      _ ≤ (q.2 + 1) * 2 ^ (r.1 - q.1) := Nat.mul_le_mul_right _ (hpq.2.trans (Nat.le_succ _))
      _ ≤ r.2 := hqr.2

theorem Apart.symm {p q : Nat × Nat} (h : Apart p q) : Apart q p := Ne.symm h

theorem Before.apart {p q : Nat × Nat} (h : Before p q) : Apart p q := by
  have hQuotient : p.2 + 1 ≤ q.2 / 2 ^ (q.1 - p.1) :=
    (Nat.le_div_iff_mul_le (Nat.two_pow_pos _)).mpr h.2
  rw [Apart, Nat.sub_eq_zero_of_le h.1, Nat.shiftRight_zero, Nat.shiftRight_eq_div_pow]
  exact Nat.ne_of_lt hQuotient

/-- The code words that have at most `n` bits, the shorter ones first, and the others. -/
def byLength : Nat → List (Nat × Nat) → List (Nat × Nat)
  | 0, codes => codes
  | n + 1, codes => byLength n (codes.filter (·.1 ≤ n)) ++ codes.filter (! ·.1 ≤ n)

theorem byLength_perm (n : Nat) (codes : List (Nat × Nat)) : (byLength n codes).Perm codes := by
  induction n generalizing codes with
  | zero => exact List.Perm.refl codes
  | succ n ih => exact ((ih _).append_right _).trans (List.filter_append_perm _ codes)

theorem hcodes_apart : hcodes.Pairwise Apart := by
  have hChain : (byLength 31 hcodes).IsChain Before := by decide +kernel
  exact (byLength_perm 31 hcodes).pairwise (hChain.pairwise.imp Before.apart) Apart.symm

theorem hcodes_bounded : ∀ entry ∈ hcodes, entry.2 < 2 ^ entry.1 := by decide +kernel

/-- The first bits of a code word as a number. -/
theorem testBit_of_prefix {p : Nat × Nat} {bits : List Bool} {m i : Nat}
    (h : bitsOf p.1 p.2 <+: bits) (hm : m ≤ p.1) (hi : i < m) :
    some ((p.2 >>> (p.1 - m)).testBit i) = bits[m - 1 - i]? := by
  have hAt : m - 1 - i < p.1 := by omega
  have hSame := List.prefix_iff_getElem?.mp h (m - 1 - i) (by rw [length_bitsOf]; exact hAt)
  have hBit := @bitsOf_getElem? p.1 p.2 _ hAt
  rw [List.getElem?_eq_getElem (by rw [length_bitsOf]; exact hAt)] at hBit
  rw [hSame, hBit, Nat.testBit_shiftRight]
  congr 2
  omega

theorem not_apart_of_prefixes {p q : Nat × Nat} {bits : List Bool} (hp : bitsOf p.1 p.2 <+: bits)
    (hq : bitsOf q.1 q.2 <+: bits) (hpBound : p.2 < 2 ^ p.1) (hqBound : q.2 < 2 ^ q.1) :
    ¬ Apart p q := by
  have hShift {r : Nat × Nat} {m : Nat} (hr : r.2 < 2 ^ r.1) (hm : m ≤ r.1) :
      r.2 >>> (r.1 - m) < 2 ^ m := by
    rw [Nat.shiftRight_eq_div_pow, Nat.div_lt_iff_lt_mul (Nat.two_pow_pos _), ← Nat.pow_add]
    rwa [Nat.add_sub_cancel' hm]
  have hpMin : p.1 - q.1 = p.1 - min p.1 q.1 := by omega
  have hqMin : q.1 - p.1 = q.1 - min p.1 q.1 := by omega
  rw [Apart, ne_eq, not_not, hpMin, hqMin]
  apply Nat.eq_of_testBit_eq
  intro i
  by_cases hi : i < min p.1 q.1
  · have hpBit := testBit_of_prefix hp (Nat.min_le_left _ _) hi
    have hqBit := testBit_of_prefix hq (Nat.min_le_right _ _) hi
    exact Option.some.inj (hpBit.trans hqBit.symm)
  · have hPow : 2 ^ min p.1 q.1 ≤ 2 ^ i := Nat.pow_le_pow_right (by omega) (by omega)
    rw [Nat.testBit_lt_two_pow ((hShift hpBound (Nat.min_le_left _ _)).trans_le hPow),
      Nat.testBit_lt_two_pow ((hShift hqBound (Nat.min_le_right _ _)).trans_le hPow)]

/-- The code is prefix-free: at most one symbol's code word starts a bit string. -/
theorem hcode_prefix_inj {s t : Nat} {bits : List Bool} (hs : s < hcodes.length)
    (ht : t < hcodes.length) (hsBits : hcode s <+: bits) (htBits : hcode t <+: bits) : s = t := by
  have hGet {u : Nat} (hu : u < hcodes.length) : hcodes.getD u (0, 0) = hcodes[u] :=
    List.getD_eq_getElem _ _ hu
  have hBound {u : Nat} (hu : u < hcodes.length) := hcodes_bounded _ (List.getElem_mem hu)
  rw [hcode, hGet hs] at hsBits
  rw [hcode, hGet ht] at htBits
  rcases Nat.lt_trichotomy s t with hlt | heq | hgt
  · exact absurd (List.pairwise_iff_getElem.mp hcodes_apart s t hs ht hlt)
      (not_apart_of_prefixes hsBits htBits (hBound hs) (hBound ht))
  · exact heq
  · exact absurd (List.pairwise_iff_getElem.mp hcodes_apart t s ht hs hgt)
      (not_apart_of_prefixes htBits hsBits (hBound ht) (hBound hs))

theorem matchCode_hcode {s : Nat} (hs : s < hcodes.length) (rest : List Bool) :
    matchCode (hcode s ++ rest) = some (s, rest) := by
  have hFound : (hcode s).isPrefixOf (hcode s ++ rest) = true := by simp
  cases hMatch : matchCode (hcode s ++ rest) with
  | none =>
      have hNone := List.findSome?_eq_none_iff.mp hMatch s (List.mem_range.mpr hs)
      simp at hNone
  | some result =>
      obtain ⟨t, ht, hResult⟩ := List.exists_of_findSome?_eq_some hMatch
      split at hResult
      · next hPrefix =>
          have hSame := hcode_prefix_inj (List.mem_range.mp ht) hs
            (List.isPrefixOf_iff_prefix.mp hPrefix) (List.isPrefixOf_iff_prefix.mp hFound)
          subst hSame
          simpa using hResult.symm
      · exact absurd hResult (by simp)

theorem length_hcode_eosSymbol : (hcode eosSymbol).length = 30 := by
  rw [hcode, length_bitsOf]
  rfl

/-- Padding, the first bits of the end-of-string mark, is no symbol. -/
theorem matchCode_padding (n : Nat) (h : n < 8) : matchCode ((hcode eosSymbol).take n) = none := by
  have hLength : hcodes.length = 257 := hcodes_length
  have hEos : eosSymbol < hcodes.length := by rw [hLength]; decide
  refine List.findSome?_eq_none_iff.mpr fun t ht => if_neg fun hPrefix => ?_
  have hBits := List.isPrefixOf_iff_prefix.mp hPrefix
  have hSame := hcode_prefix_inj (List.mem_range.mp ht) hEos
    (hBits.trans (List.take_prefix _ _)) (List.prefix_refl _)
  have hShort := hBits.length_le
  rw [hSame, List.length_take, length_hcode_eosSymbol] at hShort
  omega

theorem toNat_lt_hcodes (b : UInt8) : b.toNat < hcodes.length := by
  rw [hcodes_length]
  have := UInt8.toNat_lt b
  omega

section
-- Unfolding `matchCode` on a variable runs through all symbols.
attribute [local irreducible] matchCode

theorem huffmanSymbols_zero (bits : List Bool) : huffmanSymbols 0 bits = [] := rfl

theorem huffmanSymbols_succ (fuel : Nat) (bits : List Bool) :
    huffmanSymbols (fuel + 1) bits = match matchCode bits with
      | none => []
      | some (symbol, rest) => symbol :: huffmanSymbols fuel rest := rfl

end

theorem huffmanSymbols_none {fuel : Nat} {bits : List Bool} (h : matchCode bits = none) :
    huffmanSymbols fuel bits = [] := by
  cases fuel with
  | zero => exact huffmanSymbols_zero bits
  | succ fuel => rw [huffmanSymbols_succ, h]

theorem huffmanSymbols_codeBits {s : Octets} {fuel : Nat} {padding : List Bool}
    (hPad : matchCode padding = none) (h : s.length ≤ fuel) :
    huffmanSymbols fuel (codeBits s ++ padding) = s.map UInt8.toNat := by
  induction s generalizing fuel with
  | nil => exact huffmanSymbols_none hPad
  | cons b s ih =>
      obtain ⟨fuel, rfl⟩ : ∃ fuel', fuel = fuel' + 1 := ⟨fuel - 1, by simp at h; omega⟩
      have hRest := ih (by simpa using h)
      rw [codeBits, List.flatMap_cons, List.append_assoc, huffmanSymbols_succ,
        matchCode_hcode (toNat_lt_hcodes b), List.map_cons, ← hRest, codeBits]

theorem huffmanDecode_huffmanEncode (s : Octets) : huffmanDecode (huffmanEncode s) = s := by
  have hBits := five_mul_length_le_codeBits s
  obtain ⟨n, hn, hOctets, hEncode⟩ : ∃ n, n < 8 ∧ 8 ∣ ((codeBits s).length + n) ∧
      huffmanEncode s = packBits (codeBits s ++ (hcode eosSymbol).take n).length
        (codeBits s ++ (hcode eosSymbol).take n) := by
    by_cases hWhole : (codeBits s).length % 8 = 0
    · exact ⟨0, by omega, by omega, by simp [huffmanEncode, hWhole]⟩
    · exact ⟨8 - (codeBits s).length % 8, by omega, by omega, by simp [huffmanEncode, hWhole]⟩
  have hLength : (codeBits s ++ (hcode eosSymbol).take n).length = (codeBits s).length + n := by
    simp only [List.length_append, List.length_take, length_hcode_eosSymbol]
    omega
  have hUnpack := unpackBits_packBits _ _ le_rfl (hLength ▸ hOctets)
  simp only [huffmanDecode, hEncode, hUnpack]
  rw [huffmanSymbols_codeBits (matchCode_padding n hn) (by rw [hLength]; omega), List.map_map]
  exact List.map_id'' (fun b => by simp) s

/-! ### Integers -/

/-- The first integer beyond the decoder's reach, on an `N`-bit prefix. -/
def intLimit (N : Nat) : Nat := 2 ^ N - 1 + 2 ^ (7 * maxIntSize)

theorem continuation_octet (v : Nat) :
    (UInt8.ofNat (v &&& 0x7f ||| 0x80)).toNat &&& 0x7f = v % 128 ∧
      ¬ UInt8.ofNat (v &&& 0x7f ||| 0x80) < 0x80 := by
  have hAll : ∀ x : Fin 128, (UInt8.ofNat (x ||| 0x80)).toNat &&& 0x7f = x ∧
      ¬ UInt8.ofNat (x ||| 0x80) < 0x80 := by
    decide
  rw [show v &&& 0x7f = v % 128 from Nat.and_two_pow_sub_one_eq_mod v 7]
  exact hAll ⟨v % 128, Nat.mod_lt _ (by omega)⟩

theorem last_octet {v : Nat} (h : v < 128) :
    (UInt8.ofNat v).toNat &&& 0x7f = v ∧ UInt8.ofNat v < 0x80 := by
  have hAll : ∀ x : Fin 128, (UInt8.ofNat x).toNat &&& 0x7f = x ∧ UInt8.ofNat x < 0x80 := by
    decide
  exact hAll ⟨v, h⟩

/-- The continuation octets from the `i`-th on, when the decoder has room for them. -/
theorem intDecodeRest_intEncodeRest {fuel v i : Nat} (int : Nat) (rest : Octets) (hFuel : v ≤ fuel)
    (hPos : 1 ≤ i) (hRoom : i ≤ maxIntSize) (h : v < 2 ^ (7 * (maxIntSize + 1 - i))) :
    intDecodeRest i int (intEncodeRest fuel v ++ rest)
      = some (int + v <<< ((i - 1) * 7), i + (intEncodeRest fuel v).length) := by
  induction fuel generalizing v i int with
  | zero =>
      obtain rfl := Nat.le_zero.mp hFuel
      simp [intEncodeRest, intDecodeRest, Nat.not_lt.mpr hRoom]
  | succ fuel ih =>
      by_cases hMore : v ≥ 0x80
      · obtain ⟨hBits, hFlag⟩ := continuation_octet v
        have hNext : v >>> 7 < 2 ^ (7 * (maxIntSize + 1 - (i + 1))) := by
          rw [Nat.shiftRight_eq_div_pow, Nat.div_lt_iff_lt_mul (by omega), ← Nat.pow_add]
          exact h.trans_le (Nat.pow_le_pow_right (by omega) (by omega))
        have hStays : i + 1 ≤ maxIntSize := by
          by_contra hLast
          rw [show maxIntSize + 1 - i = 1 by omega] at h
          omega
        have hRest := ih (int + (v % 128) <<< ((i - 1) * 7))
          (by rw [Nat.shiftRight_eq_div_pow]; omega) (by omega) hStays hNext
        have hValue : (v % 128) <<< ((i - 1) * 7) + (v >>> 7) <<< (i * 7)
            = v <<< ((i - 1) * 7) := by
          obtain ⟨j, rfl⟩ : ∃ j, i = j + 1 := ⟨i - 1, by omega⟩
          simp only [Nat.add_sub_cancel, Nat.shiftLeft_eq, Nat.shiftRight_eq_div_pow,
            Nat.add_mul, Nat.pow_add]
          have hSplit := Nat.mod_add_div v 128
          rw [show 2 ^ 7 = 128 from rfl]
          calc v % 128 * 2 ^ (j * 7) + v / 128 * (2 ^ (j * 7) * 128)
              = (v % 128 + 128 * (v / 128)) * 2 ^ (j * 7) := by ring
            _ = v * 2 ^ (j * 7) := by rw [hSplit]
        simp only [intEncodeRest, if_pos hMore, List.cons_append, intDecodeRest,
          if_neg (Nat.not_lt.mpr hRoom), hBits, if_neg hFlag, hRest, List.length_cons,
          Nat.add_sub_cancel]
        rw [Nat.add_assoc int, hValue, Nat.add_right_comm i 1, Nat.add_assoc i]
      · obtain ⟨hBits, hFlag⟩ := last_octet (v := v) (by omega)
        simp only [intEncodeRest, if_neg hMore, List.singleton_append, intDecodeRest,
          if_neg (Nat.not_lt.mpr hRoom), hBits, if_pos hFlag, List.length_singleton]

theorem intDecodeRest_overflow {fuel v i : Nat} (int : Nat) (rest : Octets) (hFuel : v ≤ fuel)
    (hRoom : i ≤ maxIntSize) (h : 2 ^ (7 * (maxIntSize + 1 - i)) ≤ v) :
    intDecodeRest i int (intEncodeRest fuel v ++ rest) = none := by
  induction fuel generalizing v i int with
  | zero =>
      have := Nat.two_pow_pos (7 * (maxIntSize + 1 - i))
      omega
  | succ fuel ih =>
      have hMore : 2 ^ 7 ≤ v := le_trans (Nat.pow_le_pow_right (by omega) (by omega)) h
      obtain ⟨hBits, hFlag⟩ := continuation_octet v
      have hNext : 2 ^ (7 * (maxIntSize + 1 - (i + 1))) ≤ v >>> 7 := by
        rw [Nat.shiftRight_eq_div_pow, Nat.le_div_iff_mul_le (by omega), ← Nat.pow_add]
        rwa [show 7 * (maxIntSize + 1 - (i + 1)) + 7 = 7 * (maxIntSize + 1 - i) by omega]
      simp only [intEncodeRest, if_pos (show v ≥ 0x80 from hMore), List.cons_append,
        intDecodeRest, if_neg (Nat.not_lt.mpr hRoom), if_neg hFlag]
      by_cases hLast : i + 1 ≤ maxIntSize
      · exact ih _ (by rw [Nat.shiftRight_eq_div_pow]; omega) hLast hNext
      · -- a fifth continuation octet is refused, whatever it holds
        cases hRest : intEncodeRest fuel (v >>> 7) ++ rest with
        | nil => rfl
        | cons s rest => simp [intDecodeRest, Nat.not_le.mp hLast]

/-- The first octet of an integer with flags above the prefix: `N` bits of it are read. -/
theorem first_octet {mask : UInt8} {v N : Nat} (hN : N ≤ 8) (hMask : mask.toNat % 2 ^ N = 0)
    (h : v < 2 ^ N) : 2 ^ N - 1 &&& (UInt8.ofNat v ||| mask).toNat = v := by
  have hPow : 2 ^ N ≤ 2 ^ 8 := Nat.pow_le_pow_right (by omega) (by omega)
  have hOctet : v < 256 := h.trans_le hPow
  rw [Nat.and_comm, Nat.and_two_pow_sub_one_eq_mod, UInt8.toNat_or, Nat.or_mod_two_pow, hMask,
    Nat.or_zero, UInt8.toNat_ofNat', Nat.mod_eq_of_lt hOctet, Nat.mod_eq_of_lt h]

theorem length_orFirst (mask : UInt8) (buf : Octets) : (orFirst mask buf).length = buf.length := by
  cases buf <;> rfl

theorem intDecode_intEncode {mask : UInt8} {v N : Nat} (rest : Octets) (hN : N ≤ 8)
    (hMask : mask.toNat % 2 ^ N = 0) :
    intDecode (orFirst mask (intEncode v N) ++ rest) N
      = if v < intLimit N then some (v, (intEncode v N).length) else none := by
  have hPos := Nat.two_pow_pos N
  by_cases hShort : v < 2 ^ N - 1
  · have hFirst := first_octet hN hMask (v := v) (by omega)
    have hRest := Nat.two_pow_pos (7 * maxIntSize)
    have hLimit : v < intLimit N := by rw [intLimit]; omega
    simp only [intEncode, if_pos hShort, orFirst, List.singleton_append, intDecode, hFirst,
      if_pos hLimit, List.length_singleton]
  · have hFirst := first_octet hN hMask (v := 2 ^ N - 1) (by omega)
    simp only [intEncode, if_neg hShort, orFirst, List.cons_append, intDecode, hFirst,
      if_neg (Nat.lt_irrefl _), List.length_cons]
    by_cases hRoom : v < intLimit N
    · rw [intDecodeRest_intEncodeRest (2 ^ N - 1) rest le_rfl le_rfl (by decide)
        (by rw [intLimit] at hRoom; simp only [Nat.add_sub_cancel]; omega), if_pos hRoom]
      simp only [Nat.sub_self, Nat.zero_mul, Nat.shiftLeft_zero]
      congr 2 <;> omega
    · rw [intDecodeRest_overflow (2 ^ N - 1) rest le_rfl (by decide)
        (by rw [intLimit] at hRoom; simp only [Nat.add_sub_cancel]; omega), if_neg hRoom]

/-! ### String literals -/

/-- The octets a string literal takes after its length. -/
def codedLength (str : Octets) : Nat := min (huffmanEncode str).length str.length

theorem hasFlag_high (b : UInt8) : hasFlag (b ||| 0x80) 0x80 = true := by
  have hAll : ∀ x : Fin 256, hasFlag (UInt8.ofNat x ||| 0x80) 0x80 = true := by decide +kernel
  simpa using hAll ⟨b.toNat, UInt8.toNat_lt b⟩

theorem hasFlag_intEncode (v : Nat) : hasFlag ((intEncode v 7).headD 0) 0x80 = false := by
  have hAll : ∀ x : Fin 128, hasFlag (UInt8.ofNat x) 0x80 = false := by decide
  rw [intEncode]
  split
  · next hShort => exact hAll ⟨v, by omega⟩
  · exact hAll ⟨127, by omega⟩

theorem orFirst_zero (buf : Octets) : orFirst 0 buf = buf := by
  cases buf <;> simp [orFirst]

theorem intEncode_ne_nil (v N : Nat) : intEncode v N ≠ [] := by
  rw [intEncode]
  split <;> simp

theorem headD_append {buf rest : Octets} (h : buf ≠ []) : (buf ++ rest).headD 0 = buf.headD 0 := by
  cases buf with
  | nil => exact absurd rfl h
  | cons b buf => rfl

theorem headD_orFirst {mask : UInt8} {buf : Octets} (h : buf ≠ []) :
    (orFirst mask buf).headD 0 = buf.headD 0 ||| mask := by
  cases buf with
  | nil => exact absurd rfl h
  | cons b buf => rfl

/-- A length and that many octets, as `strDecode` reads them. -/
theorem strDecode_coded {mask : UInt8} {coded rest : Octets} (hMask : mask.toNat % 2 ^ 7 = 0) :
    strDecode (orFirst mask (intEncode coded.length 7) ++ coded ++ rest)
      = if coded.length < intLimit 7 then
          some (if hasFlag ((intEncode coded.length 7).headD 0 ||| mask) 0x80 then
              huffmanDecode coded else coded,
            (orFirst mask (intEncode coded.length 7) ++ coded).length)
        else none := by
  have hNe : orFirst mask (intEncode coded.length 7) ≠ [] := by
    rw [← List.length_pos_iff, length_orFirst, List.length_pos_iff]
    exact intEncode_ne_nil _ _
  have hHead := @headD_append _ (coded ++ rest) hNe
  rw [headD_orFirst (intEncode_ne_nil _ _)] at hHead
  rw [strDecode, List.append_assoc, intDecode_intEncode _ (by decide) hMask]
  split
  · next hNone => rw [if_neg]; simpa using hNone
  · next l offset hSome =>
      obtain ⟨hRoom, hFields⟩ : coded.length < intLimit 7 ∧ _ := by simpa using hSome
      obtain ⟨rfl, rfl⟩ := hFields
      have hDrop : (orFirst mask (intEncode coded.length 7) ++ (coded ++ rest)).drop
          (intEncode coded.length 7).length = coded ++ rest := by
        rw [← length_orFirst mask, List.drop_left]
      rw [if_pos hRoom, hDrop, hHead, List.take_left, if_neg]
      · simp only [List.length_append, length_orFirst]
      · simp only [List.length_append, length_orFirst]
        omega

theorem strDecode_strEncode (str rest : Octets) :
    strDecode (strEncode str ++ rest)
      = if codedLength str < intLimit 7 then some (str, (strEncode str).length) else none := by
  by_cases hShorter : (huffmanEncode str).length < str.length
  · have hFlag := hasFlag_high ((intEncode (huffmanEncode str).length 7).headD 0)
    rw [codedLength, min_eq_left hShorter.le, strEncode, if_pos hShorter,
      strDecode_coded (by decide), if_pos hFlag, huffmanDecode_huffmanEncode]
  · have hFlag := hasFlag_intEncode str.length
    rw [codedLength, min_eq_right (Nat.not_lt.mp hShorter), strEncode, if_neg hShorter,
      ← orFirst_zero (intEncode str.length 7), strDecode_coded (by decide), UInt8.or_zero,
      hFlag, if_neg Bool.false_ne_true]

/-- Only the empty string takes one octet. -/
theorem length_strEncode (str : Octets) : (strEncode str).length = 1 ↔ str = [] := by
  have hLength := five_mul_length_le_huffmanEncode str
  have hPos (v : Nat) : 0 < (intEncode v 7).length := List.length_pos_iff.mpr (intEncode_ne_nil _ _)
  constructor
  · intro h
    rw [strEncode] at h
    split at h <;> simp only [List.length_append, length_orFirst] at h
    · have := hPos (huffmanEncode str).length
      exact List.length_eq_zero_iff.mp (by omega)
    · have := hPos str.length
      exact List.length_eq_zero_iff.mp (by omega)
  · rintro rfl
    rfl

end PageCamel.Http2

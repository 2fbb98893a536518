import PageCamel.Http2.HeaderLiterals

/-!
`int_decode` of `HeaderCompression.pm` at an offset of a buffer, and the octets that are an
integer at all: an octet with room in its prefix, or a full prefix, octets with the high bit and
a last one without.
-/

namespace PageCamel.Http2
open PageCamel.Lib

def octetAt (buf : Octets) (i : Nat) : UInt8 := buf.getD i 0

/-- `for my $i ( 1 .. $l )`. -/
def intDecodeLoop (buf : Octets) (bufOffset : Nat) : List Nat → Nat → Option (Nat × Nat)
  | [], _ => none
  | i :: more, int =>
      if i > maxIntSize then none
      else
        let s := octetAt buf (i + bufOffset)
        let int := int + (s.toNat &&& 0x7f) <<< ((i - 1) * 7)
        if s < 0x80 then some (int, i + 1) else intDecodeLoop buf bufOffset more int

def intDecodeAt (buf : Octets) (bufOffset N : Nat) : Option (Nat × Nat) :=
  if buf.length ≤ bufOffset then none
  else
    let N := if N = 0 then 7 else N
    let ff := 2 ^ N - 1
    let int := ff &&& (octetAt buf bufOffset).toNat
    if int < ff then some (int, 1)
    else intDecodeLoop buf bufOffset (List.range' 1 (buf.length - bufOffset - 1)) int

/-- The octets of an integer; those behind the first one continue it. -/
inductive IsInteger (N : Nat) : Octets → Prop
  | short {first : UInt8} (hRoom : 2 ^ N - 1 &&& first.toNat < 2 ^ N - 1) : IsInteger N [first]
  | continued {first last : UInt8} {more : Octets} (hFull : ¬2 ^ N - 1 &&& first.toNat < 2 ^ N - 1)
      (hMore : ∀ b ∈ more, ¬b < 0x80) (hLast : last < 0x80) : IsInteger N (first :: (more ++ [last]))

/-! ### The loop -/

variable {buf encoded : Octets} {bufOffset N : Nat}

/-- The octets from the `i`-th on, one by one. -/
theorem intDecodeLoop_eq (before rest : Octets) (hBefore : before.length = bufOffset) (first : UInt8)
    (read : Octets) (int : Nat) :
    intDecodeLoop (before ++ first :: (read ++ rest)) bufOffset (List.range' (read.length + 1) rest.length)
      int = intDecodeRest (read.length + 1) int rest := by
  induction rest generalizing read int with
  | nil => rfl
  | cons s rest ih =>
    have hOctet : octetAt (before ++ first :: (read ++ s :: rest)) (read.length + 1 + bufOffset) = s := by
      rw [octetAt, List.getD_eq_getElem?_getD, ← hBefore, Nat.add_comm, List.getElem?_append_right (by omega)]
      simp
    have hNext := ih (read ++ [s])
    rw [List.append_assoc, List.singleton_append, List.length_append, List.length_singleton] at hNext
    rw [List.length_cons, List.range'_succ, intDecodeLoop, intDecodeRest, hOctet]
    dsimp only
    rw [hNext]

theorem intDecodeAt_eq (hN : N ≠ 0) (before rest : Octets) :
    intDecodeAt (before ++ rest) before.length N = intDecode rest N := by
  cases rest with
  | nil =>
    rw [intDecodeAt, if_pos (by rw [List.append_nil])]
    rfl
  | cons first rest =>
    have hOctet : octetAt (before ++ first :: rest) before.length = first := by
      rw [octetAt, List.getD_eq_getElem?_getD, List.getElem?_append_right (Nat.le_refl _), Nat.sub_self]
      rfl
    have hLength : (before ++ first :: rest).length - before.length - 1 = rest.length := by
      rw [List.length_append, List.length_cons]
      omega
    have hLoop : ∀ int, intDecodeLoop (before ++ first :: rest) before.length
        (List.range' 1 rest.length) int = intDecodeRest 1 int rest :=
      intDecodeLoop_eq before rest rfl first []
    rw [intDecodeAt, if_neg (by rw [List.length_append, List.length_cons]; omega), hOctet, hLength,
      if_neg hN, intDecode]
    dsimp only
    rw [hLoop]

/-! ### What is read -/

theorem length_intEncodeRest {fuel v : Nat} (hFuel : v ≤ fuel) (k : Nat) :
    (intEncodeRest fuel v).length ≤ k + 1 ↔ v < 2 ^ (7 * (k + 1)) := by
  have hOne : 2 ^ 7 ≤ 2 ^ (7 * (k + 1)) := Nat.pow_le_pow_right (by decide) (by omega)
  induction fuel generalizing v k with
  | zero =>
    obtain rfl := Nat.le_zero.mp hFuel
    rw [intEncodeRest, List.length_singleton]
    exact iff_of_true (Nat.le_add_left 1 k) (Nat.two_pow_pos _)
  | succ fuel ih =>
    rw [intEncodeRest]
    split
    · next hMore =>
      have hShift : v >>> 7 = v / 2 ^ 7 := Nat.shiftRight_eq_div_pow v 7
      have hLess : v >>> 7 ≤ fuel := by
        rw [hShift]
        omega
      rw [List.length_cons]
      cases k with
      | zero =>
        have hPos : 1 ≤ (intEncodeRest fuel (v >>> 7)).length := by
          cases fuel with
          | zero => exact Nat.le_refl 1
          | succ fuel =>
            rw [intEncodeRest]
            split
            · exact Nat.le_add_left 1 _
            · exact Nat.le_refl 1
        exact iff_of_false (by omega) (by omega)
      | succ k =>
        have hPow : 2 ^ (7 * (k + 1 + 1)) = 2 ^ (7 * (k + 1)) * 2 ^ 7 := by
          rw [← Nat.pow_add]
          congr 1
        have hLength : (intEncodeRest fuel (v >>> 7)).length ≤ k + 1 ↔ v >>> 7 < 2 ^ (7 * (k + 1)) :=
          ih hLess k (Nat.pow_le_pow_right (by decide) (by omega))
        have hValue : v >>> 7 < 2 ^ (7 * (k + 1)) ↔ v < 2 ^ (7 * (k + 1 + 1)) := by
          rw [hShift, hPow, Nat.div_lt_iff_lt_mul (Nat.two_pow_pos 7)]
        exact Nat.add_le_add_iff_right.trans (hLength.trans hValue)
    · next hLast =>
      rw [List.length_singleton]
      exact iff_of_true (Nat.le_add_left 1 k) (by omega)

theorem length_intEncode (i N : Nat) : (intEncode i N).length ≤ maxIntSize + 1 ↔ i < intLimit N := by
  have hRoom := Nat.two_pow_pos (7 * maxIntSize)
  rw [intEncode, intLimit]
  split
  · next hShort => exact iff_of_true (Nat.le_add_left 1 maxIntSize) (by omega)
  · next hFull =>
    rw [List.length_cons, Nat.add_le_add_iff_right]
    have hRest := length_intEncodeRest (Nat.le_refl (i - (2 ^ N - 1))) (maxIntSize - 1)
    rw [show maxIntSize - 1 + 1 = maxIntSize from rfl] at hRest
    rw [hRest]
    omega

theorem isInteger_intEncode {N : Nat} (hN : N ≤ 8) (i : Nat) : IsInteger N (intEncode i N) := by
  have hZero : (0 : UInt8).toNat % 2 ^ N = 0 := Nat.zero_mod _
  have hFirst : ∀ v < 2 ^ N, 2 ^ N - 1 &&& (UInt8.ofNat v).toNat = v := fun v hv => by
    have hPrefix := first_octet hN hZero hv
    rwa [UInt8.or_zero] at hPrefix
  have hPos := Nat.two_pow_pos N
  have hContinued : ∀ fuel v, v ≤ fuel → ∃ more last, intEncodeRest fuel v = more ++ [last] ∧
      (∀ b ∈ more, ¬b < 0x80) ∧ last < 0x80 := by
    intro fuel
    induction fuel with
    | zero =>
      intro v hv
      obtain rfl := Nat.le_zero.mp hv
      exact ⟨[], 0, rfl, nofun, by decide⟩
    | succ fuel ih =>
      intro v hv
      rw [intEncodeRest]
      split
      · have hLess : v >>> 7 ≤ fuel := by
          rw [Nat.shiftRight_eq_div_pow]
          omega
        obtain ⟨more, last, hRest, hMore, hLast⟩ := ih (v >>> 7) hLess
        refine ⟨_ :: more, last, by rw [hRest]; rfl, ?_, hLast⟩
        exact List.forall_mem_cons.mpr ⟨(continuation_octet v).2, hMore⟩
      · next hLast => exact ⟨[], UInt8.ofNat v, rfl, nofun, (last_octet (Nat.not_le.mp hLast)).2⟩
  rw [intEncode]
  split
  · next hShort =>
    refine .short ?_
    rw [hFirst i (by omega)]
    exact hShort
  · obtain ⟨more, last, hRest, hMore, hLast⟩ := hContinued (i - (2 ^ N - 1)) _ (Nat.le_refl _)
    rw [hRest]
    refine .continued ?_ hMore hLast
    rw [hFirst (2 ^ N - 1) (by omega)]
    exact Nat.lt_irrefl _

/-- Too many octets with the high bit, whatever is behind them. -/
theorem intDecodeRest_long {more : Octets} (hMore : ∀ b ∈ more, ¬b < 0x80) {i : Nat} (int : Nat)
    (last : UInt8) (rest : Octets) (hLong : maxIntSize < i + more.length) :
    intDecodeRest i int (more ++ last :: rest) = none := by
  induction more generalizing i int with
  | nil => exact if_pos hLong
  | cons s more ih =>
    rw [List.forall_mem_cons] at hMore
    rw [List.length_cons] at hLong
    rw [List.cons_append, intDecodeRest]
    split
    · rfl
    · dsimp only
      rw [if_neg hMore.1]
      exact ih hMore.2 _ (by omega)

/-- The last octet is missing. -/
theorem intDecodeRest_cut {more : Octets} (hMore : ∀ b ∈ more, ¬b < 0x80) (i int : Nat) :
    intDecodeRest i int more = none := by
  induction more generalizing i int with
  | nil => rfl
  | cons s more ih =>
    rw [List.forall_mem_cons] at hMore
    rw [intDecodeRest]
    split
    · rfl
    · dsimp only
      rw [if_neg hMore.1]
      exact ih hMore.2 _ _

theorem IsInteger.refused (hInteger : IsInteger N encoded) (hLong : maxIntSize + 1 < encoded.length)
    (after : Octets) : intDecode (encoded ++ after) N = none := by
  cases hInteger with
  | short hRoom =>
    rw [List.length_singleton] at hLong
    exact absurd hLong (by decide)
  | @continued first last more hFull hMore hLast =>
    rw [List.length_cons, List.length_append, List.length_singleton] at hLong
    rw [List.cons_append, List.append_assoc, intDecode]
    rw [if_neg hFull]
    exact intDecodeRest_long hMore _ last after (by omega)

theorem IsInteger.truncated (hInteger : IsInteger N encoded) {k : Nat} (hCut : k < encoded.length) :
    intDecode (encoded.take k) N = none := by
  cases hInteger with
  | short hRoom =>
    obtain rfl : k = 0 := Nat.lt_one_iff.mp hCut
    rfl
  | @continued first last more hFull hMore hLast =>
    cases k with
    | zero => rfl
    | succ k =>
      rw [List.length_cons, List.length_append, List.length_singleton] at hCut
      rw [List.take_succ_cons, List.take_append_of_le_length (by omega), intDecode]
      rw [if_neg hFull]
      exact intDecodeRest_cut (fun b hb => hMore b (List.mem_of_mem_take hb)) 1 _

/-- Integers of at most `MAX_INT_SIZE` continuation octets are read back; longer ones and cut
ones are refused, however they were made. -/
theorem integers_read_back (hN : 1 ≤ N ∧ N ≤ 8) (before after : Octets) :
    (∀ i, IsInteger N (intEncode i N) ∧ ((intEncode i N).length ≤ maxIntSize + 1 →
      intDecodeAt (before ++ (intEncode i N ++ after)) before.length N =
        some (i, (intEncode i N).length))) ∧
    ∀ encoded, IsInteger N encoded →
      (maxIntSize + 1 < encoded.length →
        intDecodeAt (before ++ (encoded ++ after)) before.length N = none) ∧
      ∀ k < encoded.length, intDecodeAt (before ++ encoded.take k) before.length N = none := by
  have hSome : N ≠ 0 := by omega
  refine ⟨fun i => ⟨isInteger_intEncode hN.2 i, fun hShort => ?_⟩, fun encoded hInteger =>
    ⟨fun hLong => ?_, fun k hCut => ?_⟩⟩
  · have hDecode := @intDecode_intEncode 0 i N after hN.2 (Nat.zero_mod _)
    rw [orFirst_zero, if_pos ((length_intEncode i N).mp hShort)] at hDecode
    rw [intDecodeAt_eq hSome, hDecode]
  · rw [intDecodeAt_eq hSome, hInteger.refused hLong]
  · rw [intDecodeAt_eq hSome, hInteger.truncated hCut]

theorem integers_read_back_five :
    intDecodeAt ([0xff] ++ (intEncode 1337 5 ++ [0x80])) 1 5 = some (1337, 3) ∧
      intDecodeAt ([0xff] ++ [0x1f, 0x9a]) 1 5 = none :=
  ⟨((integers_read_back (by decide) [0xff] [0x80]).1 1337).2 (by decide),
    ((integers_read_back (by decide) [0xff] []).2 [0x1f, 0x9a, 0x0a]
      (@IsInteger.continued 5 0x1f 0x0a [0x9a] (by decide) (List.forall_mem_singleton.mpr (by decide))
        (by decide))).2 2 (by decide)⟩

end PageCamel.Http2

import Mathlib.Data.List.GetD
import PageCamel.Http2.HuffmanCodes

/-!
Huffman coding of string literals (`Huffman.pm`). Decoding follows the regular
expression of the source: code words are taken off the front as long as one
matches, and what is left over is ignored with a warning only.
-/

namespace PageCamel.Http2
open PageCamel.Lib

/-- `unpack 'B*', $s`. -/
def unpackBits (s : Octets) : List Bool :=
  s.flatMap fun b => bitsOf 8 b.toNat

/-- The value of a bit string, most significant first. -/
def bitsValue (bits : List Bool) : Nat :=
  bits.foldl (fun acc b => 2 * acc + b.toNat) 0

/-- `pack 'B*', $bin`: a last incomplete group is filled with zero bits. -/
def packBits : Nat → List Bool → Octets
  | 0, _ => []
  | fuel + 1, bits =>
      if bits = [] then []
      else
        let group := bits.take 8
        UInt8.ofNat (bitsValue (group ++ List.replicate (8 - group.length) false)) ::
          packBits fuel (bits.drop 8)

/-- The code words of a string, one after another. -/
def codeBits (s : Octets) : List Bool := s.flatMap fun b => hcode b.toNat

def huffmanEncode (s : Octets) : Octets :=
  let bin := codeBits s
  let bin := if bin.length % 8 ≠ 0 then bin ++ (hcode eosSymbol).take (8 - bin.length % 8) else bin
  packBits bin.length bin

/-- The symbols `$bin =~ /$hre/g` yields. -/
def huffmanSymbols : Nat → List Bool → List Nat
  | 0, _ => []
  | fuel + 1, bits =>
      match matchCode bits with
      | none => []
      | some (symbol, rest) => symbol :: huffmanSymbols fuel rest

/-- `pack 'C*'` keeps the low eight bits, so the end-of-string mark inside a
string becomes a zero octet. -/
def huffmanDecode (s : Octets) : Octets :=
  let bin := unpackBits s
  (huffmanSymbols bin.length bin).map UInt8.ofNat

theorem hcode_length (symbol : Nat) : (hcode symbol).length = (hcodes.getD symbol (0, 0)).1 := by
  simp [hcode, bitsOf]

/-- Every symbol has a code word of at least five bits. -/
theorem five_le_hcode_length {symbol : Nat} (h : symbol < hcodes.length) :
    5 ≤ (hcode symbol).length := by
  have hAll : ∀ entry ∈ hcodes, 5 ≤ entry.1 := by decide +kernel
  rw [hcode_length, List.getD_eq_getElem _ _ h]
  exact hAll _ (List.getElem_mem h)

theorem five_mul_length_le_codeBits (s : Octets) : 5 * s.length ≤ (codeBits s).length := by
  induction s with
  | nil => simp [codeBits]
  | cons b s ih =>
      have hb : 5 ≤ (hcode b.toNat).length := by
        apply five_le_hcode_length
        have hLength := hcodes_length
        have := UInt8.toNat_lt b
        omega
      simp only [codeBits, List.flatMap_cons, List.length_append, List.length_cons] at ih ⊢
      omega

theorem length_packBits (fuel : Nat) (bits : List Bool) (h : bits.length ≤ fuel) :
    bits.length ≤ 8 * (packBits fuel bits).length := by
  induction fuel generalizing bits with
  | zero => simp [Nat.le_zero.mp h]
  | succ fuel ih =>
      simp only [packBits]
      split
      · simp_all
      · rename_i hBits
        have hPos : 0 < bits.length := List.length_pos_iff.mpr hBits
        have hRest := ih (bits.drop 8) (by simp only [List.length_drop]; omega)
        simp only [List.length_cons, List.length_drop] at hRest ⊢
        omega

/-- Coding shortens a string by at most three eighths. -/
theorem five_mul_length_le_huffmanEncode (s : Octets) :
    5 * s.length ≤ 8 * (huffmanEncode s).length := by
  have hBits := five_mul_length_le_codeBits s
  simp only [huffmanEncode]
  split
  · refine le_trans ?_ (length_packBits _ _ le_rfl)
    simp only [List.length_append]
    omega
  · exact hBits.trans (length_packBits _ _ le_rfl)

end PageCamel.Http2

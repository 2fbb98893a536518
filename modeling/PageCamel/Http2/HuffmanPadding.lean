import PageCamel.Http2.HeaderLiterals

/-!
What follows the code words of a Huffman-coded string. The code takes any bits for padding and
any number of them, and the end-of-string mark for a symbol: `huffman_decode` writes warnings
and returns what it has.
-/

namespace PageCamel.Http2
open PageCamel.Lib

/-- The octets code a string: its code words, none of them the end-of-string mark, and at most
seven padding bits, which are ones. -/
def Codes (raw s : Octets) : Prop :=
  ∃ n ≤ 7, unpackBits raw = codeBits s ++ List.replicate n true

/-- The octets of the Huffman-coded literal a buffer starts with, when all of them are there. -/
def huffmanLiteral (buf : Octets) : Option Octets :=
  match intDecode buf 7 with
  | none => none
  | some (l, offset) =>
      if buf.length - offset < l ∨ hasFlag (buf.headD 0) 0x80 = false then none
      else some ((buf.drop offset).take l)

/-- A Huffman-coded literal is read as the string it codes, and refused when it codes none or is
not complete. -/
def StrictAt (buf : Octets) : Prop :=
  hasFlag (buf.headD 0) 0x80 = true →
    match strDecode buf with
    | none => ∀ raw, huffmanLiteral buf = some raw → ¬ ∃ s, Codes raw s
    | some (s, _) => ∃ raw, huffmanLiteral buf = some raw ∧ Codes raw s

/-! ### Code words and what is left over -/

theorem matchCode_ones {n : Nat} (h : n ≤ 7) : matchCode (List.replicate n true) = none := by
  have hMark : (hcode eosSymbol).take n = List.replicate n true := by
    have hOnes : hcode eosSymbol = List.replicate 30 true := by decide +kernel
    rw [hOnes, List.take_replicate, Nat.min_eq_left (by omega)]
  rw [← hMark]
  exact matchCode_padding n (by omega)

/-- A string that is coded is the one decoded. -/
theorem Codes.huffmanDecode {raw s : Octets} (h : Codes raw s) : huffmanDecode raw = s := by
  obtain ⟨n, hn, hBits⟩ := h
  have hFuel : s.length ≤ (codeBits s ++ List.replicate n true).length := by
    have hLength := five_mul_length_le_codeBits s
    rw [List.length_append]
    omega
  simp only [Http2.huffmanDecode, hBits, huffmanSymbols_codeBits (matchCode_ones hn) hFuel, List.map_map]
  exact List.map_id'' (fun b => by simp) s

theorem eq_of_matchCode {bits rest : List Bool} {symbol : Nat}
    (h : matchCode bits = some (symbol, rest)) : symbol < hcodes.length ∧ bits = hcode symbol ++ rest := by
  obtain ⟨t, ht, hResult⟩ := List.exists_of_findSome?_eq_some h
  split at hResult
  · next hPrefix =>
      obtain ⟨tail, rfl⟩ := List.isPrefixOf_iff_prefix.mp hPrefix
      simp only [Option.some.injEq, Prod.mk.injEq, List.drop_left] at hResult
      obtain ⟨rfl, rfl⟩ := hResult
      exact ⟨List.mem_range.mp ht, rfl⟩
  · cases hResult

/-- The bits behind the last match of `$hre`. -/
def huffmanRest : Nat → List Bool → List Bool
  | 0, bits => bits
  | fuel + 1, bits =>
      match matchCode bits with
      | none => bits
      | some (_, rest) => huffmanRest fuel rest

section
attribute [local irreducible] matchCode

theorem huffmanRest_succ (fuel : Nat) (bits : List Bool) :
    huffmanRest (fuel + 1) bits = match matchCode bits with
      | none => bits
      | some (_, rest) => huffmanRest fuel rest := rfl

end

theorem huffmanRest_none {fuel : Nat} {bits : List Bool} (h : matchCode bits = none) :
    huffmanRest fuel bits = bits := by
  cases fuel with
  | zero => rfl
  | succ fuel => rw [huffmanRest_succ, h]

theorem huffmanRest_codeBits {s : Octets} {fuel : Nat} {padding : List Bool}
    (hPad : matchCode padding = none) (h : s.length ≤ fuel) :
    huffmanRest fuel (codeBits s ++ padding) = padding := by
  induction s generalizing fuel with
  | nil => exact huffmanRest_none hPad
  | cons b s ih =>
      cases fuel with
      | zero => cases h
      | succ fuel =>
          have hRest := ih (Nat.le_of_succ_le_succ h)
          rw [codeBits, List.flatMap_cons, List.append_assoc, huffmanRest_succ,
            matchCode_hcode (toNat_lt_hcodes b)]
          exact hRest

/-- The bits are the code words matched and the rest. -/
theorem flatMap_huffmanSymbols (fuel : Nat) (bits : List Bool) :
    (huffmanSymbols fuel bits).flatMap hcode ++ huffmanRest fuel bits = bits ∧
      ∀ symbol ∈ huffmanSymbols fuel bits, symbol < hcodes.length := by
  induction fuel generalizing bits with
  | zero =>
      rw [huffmanSymbols_zero]
      exact ⟨rfl, nofun⟩
  | succ fuel ih =>
      rw [huffmanSymbols_succ, huffmanRest_succ]
      cases hMatch : matchCode bits with
      | none => exact ⟨rfl, nofun⟩
      | some result =>
          obtain ⟨symbol, rest⟩ := result
          obtain ⟨hSymbol, rfl⟩ := eq_of_matchCode hMatch
          obtain ⟨hBits, hAll⟩ := ih rest
          refine ⟨?_, fun other hOther => ?_⟩
          · rw [List.flatMap_cons, List.append_assoc, hBits]
          · cases hOther with
            | head => exact hSymbol
            | tail _ hRest => exact hAll other hRest

theorem codeBits_map {symbols : List Nat} (h : ∀ symbol ∈ symbols, symbol < eosSymbol) :
    codeBits (symbols.map UInt8.ofNat) = symbols.flatMap hcode := by
  induction symbols with
  | nil => rfl
  | cons symbol symbols ih =>
      have hOctet : (UInt8.ofNat symbol).toNat = symbol := by
        have hSmall := h symbol (List.mem_cons_self ..)
        rw [eosSymbol] at hSmall
        rw [UInt8.toNat_ofNat', Nat.mod_eq_of_lt hSmall]
      have hRest := ih fun other hOther => h other (List.mem_cons_of_mem _ hOther)
      rw [codeBits] at hRest
      rw [codeBits, List.map_cons, List.flatMap_cons, hOctet, hRest, List.flatMap_cons]

/-- What makes the octets no string: the end-of-string mark among the code words, a rest of
eight bits or more, or a zero bit in it. -/
theorem exists_codes_iff (raw : Octets) :
    (∃ s, Codes raw s) ↔
      eosSymbol ∉ huffmanSymbols (unpackBits raw).length (unpackBits raw) ∧
        ∃ n ≤ 7, huffmanRest (unpackBits raw).length (unpackBits raw) = List.replicate n true := by
  constructor
  · rintro ⟨s, n, hn, hBits⟩
    have hFuel : s.length ≤ (codeBits s ++ List.replicate n true).length := by
      have hLength := five_mul_length_le_codeBits s
      rw [List.length_append]
      omega
    rw [hBits, huffmanSymbols_codeBits (matchCode_ones hn) hFuel,
      huffmanRest_codeBits (matchCode_ones hn) hFuel]
    refine ⟨fun hMark => ?_, n, hn, rfl⟩
    obtain ⟨b, -, hb⟩ := List.mem_map.mp hMark
    exact absurd hb (UInt8.toNat_lt b).ne
  · rintro ⟨hMark, n, hn, hRest⟩
    obtain ⟨hBits, hAll⟩ := flatMap_huffmanSymbols (unpackBits raw).length (unpackBits raw)
    generalize huffmanSymbols _ _ = symbols at hMark hBits hAll
    have hSmall (symbol : Nat) (h : symbol ∈ symbols) : symbol < eosSymbol := by
      have hNe : symbol ≠ eosSymbol := fun hEq => hMark (hEq ▸ h)
      have hLt := hAll symbol h
      rw [hcodes_length] at hLt
      rw [eosSymbol] at hNe ⊢
      omega
    refine ⟨symbols.map UInt8.ofNat, n, hn, ?_⟩
    rw [codeBits_map hSmall, ← hRest, hBits]

/-! ### String literals -/

theorem strDecode_huffman {buf : Octets} (h : hasFlag (buf.headD 0) 0x80 = true) :
    (strDecode buf).map Prod.fst = (huffmanLiteral buf).map huffmanDecode := by
  rw [strDecode, huffmanLiteral]
  cases intDecode buf 7 with
  | none => rfl
  | some result =>
      obtain ⟨l, offset⟩ := result
      by_cases hFits : buf.length - offset < l
      · simp [hFits]
      · simp only [hFits, h, Bool.true_eq_false, or_self, if_false, if_true, Option.map_some]

theorem StrictAt.codes {buf raw : Octets} (h : StrictAt buf)
    (hHuffman : hasFlag (buf.headD 0) 0x80 = true) (hRaw : huffmanLiteral buf = some raw) :
    ∃ s, Codes raw s := by
  have hRead := strDecode_huffman hHuffman
  rw [hRaw, Option.map_some, Option.map_eq_some_iff] at hRead
  obtain ⟨⟨s, used⟩, hDecode, -⟩ := hRead
  have hAccepted := h hHuffman
  rw [hDecode] at hAccepted
  obtain ⟨_, hSame, hCodes⟩ := hAccepted
  rw [hRaw] at hSame
  cases hSame
  exact ⟨s, hCodes⟩

/-- `str_decode` is strict exactly on the buffers whose Huffman-coded literal, if they have a
complete one, codes a string. -/
theorem strictAt_iff (buf : Octets) :
    StrictAt buf ↔
      (hasFlag (buf.headD 0) 0x80 = true →
        ∀ raw, huffmanLiteral buf = some raw → ∃ s, Codes raw s) := by
  refine ⟨fun hStrict hHuffman raw hRaw => hStrict.codes hHuffman hRaw, fun hCodes hHuffman => ?_⟩
  have hRead := strDecode_huffman hHuffman
  cases hLiteral : huffmanLiteral buf with
  | none =>
      rw [hLiteral, Option.map_none, Option.map_eq_none_iff] at hRead
      rw [hRead]
      exact nofun
  | some raw =>
      obtain ⟨s, hs⟩ := hCodes hHuffman raw hLiteral
      rw [hLiteral, Option.map_some, hs.huffmanDecode, Option.map_eq_some_iff] at hRead
      obtain ⟨⟨_, used⟩, hDecode, rfl⟩ := hRead
      rw [hDecode]
      exact ⟨raw, rfl, hs⟩

/-- An end-of-string mark and two bits of padding: a string of one zero octet is delivered. -/
theorem not_strictAt_mark : ¬ StrictAt [0x84, 0xFF, 0xFF, 0xFF, 0xFF] := by
  have hLiteral : huffmanLiteral [0x84, 0xFF, 0xFF, 0xFF, 0xFF] = some [0xFF, 0xFF, 0xFF, 0xFF] := by
    decide +kernel
  have hSymbols : huffmanSymbols (unpackBits [0xFF, 0xFF, 0xFF, 0xFF]).length
      (unpackBits [0xFF, 0xFF, 0xFF, 0xFF]) = [eosSymbol] := by
    have hBits : unpackBits [0xFF, 0xFF, 0xFF, 0xFF] = hcode eosSymbol ++ List.replicate 2 true := by
      decide +kernel
    have hLength : (unpackBits [0xFF, 0xFF, 0xFF, 0xFF]).length = 31 + 1 := by decide +kernel
    have hEos : eosSymbol < hcodes.length := by
      rw [hcodes_length]
      decide
    rw [hLength, hBits, huffmanSymbols_succ, matchCode_hcode hEos]
    exact congrArg _ (huffmanSymbols_none (matchCode_ones (by decide)))
  intro hStrict
  have hCodes := hStrict.codes (by decide) hLiteral
  have hMark := ((exists_codes_iff _).mp hCodes).1
  rw [hSymbols] at hMark
  exact hMark (List.mem_singleton_self _)

/-! ### Strings read back -/

/-- A string is decoded from its code words, and from its literal, whatever follows that, as
long as the decoder can read the length. -/
theorem literals_read_back (s suffix : Octets) :
    huffmanDecode (huffmanEncode s) = s ∧
      strDecode (strEncode s ++ suffix) =
        if codedLength s < 2 ^ 28 + 127 then some (s, (strEncode s).length) else none := by
  refine ⟨huffmanDecode_huffmanEncode s, ?_⟩
  rw [strDecode_strEncode, show intLimit 7 = 2 ^ 28 + 127 from rfl]

/-- The length of this string takes five continuation octets. -/
theorem literal_too_long :
    ¬ ∀ s suffix : Octets, huffmanDecode (huffmanEncode s) = s ∧
      strDecode (strEncode s ++ suffix) = some (s, (strEncode s).length) := by
  intro hAll
  have hRead := (hAll (List.replicate (2 ^ 29) 0) []).2
  have hLong := five_mul_length_le_huffmanEncode (List.replicate (2 ^ 29) 0)
  rw [strDecode_strEncode, if_neg] at hRead
  · cases hRead
  · rw [codedLength, show intLimit 7 = 2 ^ 28 + 127 from rfl]
    rw [List.length_replicate] at hLong ⊢
    omega

end PageCamel.Http2

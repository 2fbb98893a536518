import PageCamel.Helpers.URI

/-!
Decoding of UTF-8 (`Helpers/UTF.pm`). A string of octets is a string of characters below 256.
What Encode puts in the place of octets that are not UTF-8 is left open.
-/

namespace PageCamel.Helpers.UTF

open URI

def octetsOf (orig : Text) : List UInt8 := orig.map fun c => UInt8.ofNat c.toNat

section Decode
variable (malformed : Text → Text)

/-- `decode('UTF-8', $orig)`; it dies at a character that is no octet. -/
def decodeUtf8 (orig : Text) : Option Text :=
  if orig.all (·.toNat < 256) then
    some (((octetsOf orig).toByteArray.utf8Decode?.map Array.toList).getD (malformed orig))
  else none

/-- The same in an `eval` that leaves the string as it was. -/
def utf8Decoded (orig : Text) : Text := (decodeUtf8 malformed orig).getD orig

end Decode

variable {malformed : Text → Text} {c : Char} {text : Text}

theorem ofNat_toNat_octet (b : UInt8) : UInt8.ofNat (Char.ofNat b.toNat).toNat = b := by
  have hBound : b.toNat < 256 := b.toNat_lt
  have hValid : b.toNat.isValidChar := .inl (by omega)
  rw [Char.ofNat, dif_pos hValid]
  exact UInt8.ofNat_toNat

theorem octetsOf_encodeUtf8 (text : Text) :
    octetsOf (encodeUtf8 text) = text.flatMap String.utf8EncodeChar := by
  rw [octetsOf, encodeUtf8, List.map_flatMap]
  apply List.flatMap_congr
  intro c _
  rw [List.map_map]
  exact List.map_id'' ofNat_toNat_octet _

@[simp] theorem decodeUtf8_encodeUtf8 (text : Text) :
    decodeUtf8 malformed (encodeUtf8 text) = some text := by
  have hOctets : (encodeUtf8 text).all (·.toNat < 256) = true := by
    rw [List.all_eq_true]
    exact fun c hMem => decide_eq_true (toNat_encodeUtf8 hMem)
  have hDecode : (octetsOf (encodeUtf8 text)).toByteArray.utf8Decode? = some text.toArray := by
    rw [octetsOf_encodeUtf8]
    exact List.utf8Decode?_utf8Encode
  rw [decodeUtf8, if_pos hOctets, hDecode]
  rfl

@[simp] theorem utf8Decoded_encodeUtf8 (text : Text) :
    utf8Decoded malformed (encodeUtf8 text) = text := by
  rw [utf8Decoded, decodeUtf8_encodeUtf8, Option.getD_some]

/-! ### Text in ASCII -/

def Ascii (text : Text) : Prop := ∀ c ∈ text, c.toNat < 128

theorem encodeUtf8_cons (c : Char) (text : Text) :
    encodeUtf8 (c :: text) = encodeUtf8 [c] ++ encodeUtf8 text := encodeUtf8_append [c] text

theorem encodeUtf8_ascii_char (hAscii : c.toNat < 128) : encodeUtf8 [c] = [c] := by
  have hSize : c.utf8Size = 1 := by
    rw [Char.utf8Size, if_pos]
    exact UInt32.le_iff_toNat_le.mpr (Nat.le_of_lt_succ hAscii)
  have hByte : Char.ofNat c.val.toUInt8.toNat = c := by
    have hNarrow : c.val.toNat < 2 ^ 8 := Nat.lt_trans hAscii (by decide)
    rw [UInt32.toNat_toUInt8, Nat.mod_eq_of_lt hNarrow]
    exact Char.ofNat_toNat c
  rw [encodeUtf8, List.flatMap_singleton, String.utf8EncodeChar_eq_singleton hSize,
    List.map_singleton, hByte]

theorem length_encodeUtf8_char (hWide : 128 ≤ c.toNat) : 1 < (encodeUtf8 [c]).length := by
  rw [encodeUtf8, List.flatMap_singleton, List.length_map, String.length_utf8EncodeChar]
  rw [Char.utf8Size]
  split
  · next hNarrow =>
    have hBound : c.toNat ≤ 127 := UInt32.le_iff_toNat_le.mp hNarrow
    omega
  · split_ifs <;> decide

theorem length_le_encodeUtf8 (text : Text) : text.length ≤ (encodeUtf8 text).length := by
  induction text with
  | nil => exact Nat.zero_le _
  | cons c text ih =>
    rw [encodeUtf8_cons, List.length_append, List.length_cons]
    by_cases hAscii : c.toNat < 128
    · rw [encodeUtf8_ascii_char hAscii, List.length_singleton]
      omega
    · have hMore := length_encodeUtf8_char (Nat.le_of_not_lt hAscii)
      omega

theorem encodeUtf8_of_ascii (hAscii : Ascii text) : encodeUtf8 text = text := by
  induction text with
  | nil => rfl
  | cons c text ih =>
    rw [Ascii, List.forall_mem_cons] at hAscii
    rw [encodeUtf8_cons, encodeUtf8_ascii_char hAscii.1, ih hAscii.2, List.singleton_append]

theorem length_lt_encodeUtf8 (hWide : ¬ Ascii text) : text.length < (encodeUtf8 text).length := by
  induction text with
  | nil => exact absurd (List.forall_mem_nil _) hWide
  | cons c text ih =>
    rw [Ascii, List.forall_mem_cons] at hWide
    rw [encodeUtf8_cons, List.length_append, List.length_cons]
    by_cases hAscii : c.toNat < 128
    · have hRest := ih fun hText => hWide ⟨hAscii, hText⟩
      rw [encodeUtf8_ascii_char hAscii, List.length_singleton]
      omega
    · have hMore := length_encodeUtf8_char (Nat.le_of_not_lt hAscii)
      have hRest := length_le_encodeUtf8 text
      omega

theorem encodeUtf8_eq_self_iff : encodeUtf8 text = text ↔ Ascii text := by
  constructor
  · intro hSame
    by_contra hWide
    have hLess := length_lt_encodeUtf8 hWide
    rw [hSame] at hLess
    exact Nat.lt_irrefl _ hLess
  · exact encodeUtf8_of_ascii

/-- Encoding makes a text longer, so the texts cannot all be encodings of one another. -/
theorem ascii_of_closed {texts : List Text}
    (hClosed : ∀ text ∈ texts, ∃ orig ∈ texts, encodeUtf8 orig = text) :
    ∀ text ∈ texts, Ascii text := by
  intro text hMem
  induction hLength : text.length using Nat.strongRecOn generalizing text with
  | ind n ih =>
    obtain ⟨orig, hOrig, hEncode⟩ := hClosed text hMem
    by_cases hAscii : Ascii orig
    · rw [encodeUtf8_of_ascii hAscii] at hEncode
      exact hEncode ▸ hAscii
    · have hLess := length_lt_encodeUtf8 hAscii
      rw [hEncode, hLength] at hLess
      exact absurd (ih orig.length hLess orig hOrig rfl) hAscii

end PageCamel.Helpers.UTF

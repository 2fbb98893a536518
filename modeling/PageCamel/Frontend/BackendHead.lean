import PageCamel.Lib.Http1Response
import PageCamel.Frontend.Translate
import Mathlib.Data.List.TakeWhile

/-!
How both handlers take the head of a backend response apart, and what they find
in a well-formed one: the fields they pass on, and the last content-length.
-/

namespace PageCamel.Frontend
open PageCamel.Lib PageCamel.Lib.Http1 PageCamel.Http2

/-- `split(/:\s*/, $line, 2)` where it gives two fields. -/
def splitLine (line : Octets) : Option Header :=
  (cutAt [0x3A] line).map fun pair => (pair.1, pair.2.dropWhile isSpace)

/-- The fields of a backend response that are passed on, those left out whose name
is to be skipped. -/
def responseFields (skip : Octets → Bool) (lines : List Octets) : List Header :=
  ((lines.filterMap splitLine).filter fun h => ¬ skip h.1).map fun h => (lc h.1, h.2)

/-- The value of the last content-length field. -/
def contentLengthOf (fields : List Header) : Option Octets :=
  fields.reverse.lookup (octets "content-length")

/-- As much has been sent as the content-length says. -/
def reaches (contentLength : Option Octets) (sent : Nat) : Bool :=
  match contentLength with
  | none => false
  | some value => numify value ≤ sent

/-! ### Reading a well-formed head -/

theorem splitLine_fieldLine {f : Field} (hValid : ValidField f) :
    splitLine (fieldLine f) = some (f.1, f.2.dropWhile isSpace) := by
  have hCut := cutAt_append 0x3A [] f.1 f.2 (not_mem_of_all (isToken_all hValid.1) (by decide))
  rw [splitLine, fieldLine, show f.1 ++ 0x3A :: f.2 = f.1 ++ ([0x3A] ++ f.2) from rfl, hCut]
  rfl

theorem responseFields_fieldLine (skip : Octets → Bool) {fields : List Field} (hValid : ∀ f ∈ fields, ValidField f) :
    responseFields skip (fields.map fieldLine) =
      (fields.filter fun f => ¬ skip f.1).map
        fun f => (lc f.1, f.2.dropWhile isSpace) := by
  have hSplit : (fields.map fieldLine).filterMap splitLine =
      fields.map fun f => (f.1, f.2.dropWhile isSpace) := by
    induction fields with
    | nil => rfl
    | cons f fields ih =>
        rw [List.map_cons, List.filterMap_cons, splitLine_fieldLine (hValid f (List.mem_cons_self ..)),
          ih fun g hg => hValid g (List.mem_cons_of_mem _ hg), List.map_cons]
  rw [responseFields, hSplit, List.filter_map, List.map_map]
  rfl

/-- The number in a field value is that of its digits. -/
theorem numify_trimOws {v : Octets} (hNonempty : trimOws v ≠ [])
    (hDigits : (trimOws v).all isDigit = true) :
    numify (v.dropWhile isSpace) = digitsValue (trimOws v) := by
  have hBack : v.dropWhile isOws =
      trimOws v ++ ((v.dropWhile isOws).reverse.takeWhile isOws).reverse := by
    rw [trimOws, ← List.reverse_append, List.takeWhile_append_dropWhile, List.reverse_reverse]
  have hFront : v = v.takeWhile isOws ++ v.dropWhile isOws :=
    (List.takeWhile_append_dropWhile).symm
  have hSpace : ∀ b, isOws b = true → isSpace b = true := by
    intro b hb
    simp only [isOws, decide_eq_true_eq] at hb
    rcases hb with rfl | rfl <;> decide
  generalize hTail : ((v.dropWhile isOws).reverse.takeWhile isOws).reverse = tail at hBack
  have hTailOws : ∀ b ∈ tail, isOws b = true := by
    intro b hb
    rw [← hTail, List.mem_reverse] at hb
    exact List.mem_takeWhile_imp hb
  obtain ⟨d, ds, hCons⟩ := List.exists_cons_of_ne_nil hNonempty
  have hd : isDigit d = true := List.all_eq_true.mp hDigits d (by rw [hCons]; exact List.mem_cons_self ..)
  have hDrop : v.dropWhile isSpace = trimOws v ++ tail := by
    conv_lhs => rw [hFront]
    rw [dropWhile_append_of_all fun b hb => hSpace b (List.mem_takeWhile_imp hb), hBack, hCons,
      List.cons_append, List.dropWhile_cons_of_neg (by simp [isDigit_not_space hd])]
  rw [hDrop]
  refine numify_append hNonempty (List.all_eq_true.mp hDigits) fun b hb => ?_
  by_contra hDigit
  have hOws := hTailOws b (List.mem_of_mem_head? hb)
  rw [isDigit_not_ows (by simpa using hDigit)] at hOws
  cases hOws

/-- A content-length field is not left out. -/
def KeepsLength (skip : Octets → Bool) : Prop :=
  ∀ name, lc name = octets "content-length" → skip name = false

theorem mem_responseFields {skip : Octets → Bool} {fields : List Field} (hValid : ∀ f ∈ fields, ValidField f) {h : Header}
    (hMem : h ∈ responseFields skip (fields.map fieldLine)) :
    ∃ f ∈ fields, lc f.1 = h.1 ∧ f.2.dropWhile isSpace = h.2 := by
  rw [responseFields_fieldLine skip hValid] at hMem
  obtain ⟨f, hf, rfl⟩ := List.mem_map.mp hMem
  exact ⟨f, (List.mem_filter.mp hf).1, rfl, rfl⟩

theorem contentLengthOf_eq_none (skip : Octets → Bool) {h : ResponseHead} (hWell : h.WellFormed)
    (hNone : fieldValues (octets "content-length") (trimFields h.fields) = []) :
    contentLengthOf (responseFields skip (h.fields.map fieldLine)) = none := by
  rw [contentLengthOf, List.lookup_eq_none_iff]
  intro p hp
  obtain ⟨f, hf, hName, _⟩ := mem_responseFields hWell.fields (List.mem_reverse.mp hp)
  by_contra hEq
  have hLc : lc f.1 = octets "content-length" := by
    rw [hName]
    simpa using Eq.symm (by simpa using hEq)
  have := mem_fieldValues.mpr ⟨f, hf, hLc, rfl⟩
  rw [fieldValues_trim, List.map_eq_nil_iff] at hNone
  rw [hNone] at this
  cases this

theorem contentLengthOf_eq_some {skip : Octets → Bool} (hSkip : KeepsLength skip)
    {h : ResponseHead} (hWell : h.WellFormed) {n : Nat}
    (hLength : ∀ v ∈ fieldValues (octets "content-length") (trimFields h.fields),
      v ≠ [] ∧ v.all isDigit = true ∧ digitsValue v = n)
    (hSome : fieldValues (octets "content-length") (trimFields h.fields) ≠ []) :
    ∃ value, contentLengthOf (responseFields skip (h.fields.map fieldLine)) = some value ∧
      numify value = n := by
  have hNumify (f : Field) (hf : f ∈ h.fields) (hName : lc f.1 = octets "content-length") :
      numify (f.2.dropWhile isSpace) = n := by
    have hMem : trimOws f.2 ∈ fieldValues (octets "content-length") (trimFields h.fields) := by
      rw [fieldValues_trim]
      exact List.mem_map_of_mem (mem_fieldValues.mpr ⟨f, hf, hName, rfl⟩)
    obtain ⟨hNonempty, hDigits, hValue⟩ := hLength _ hMem
    rw [numify_trimOws hNonempty hDigits, hValue]
  cases hLookup : contentLengthOf (responseFields skip (h.fields.map fieldLine)) with
  | some value =>
      rw [contentLengthOf, List.lookup_eq_some_iff] at hLookup
      obtain ⟨before, after, hEq, _⟩ := hLookup
      have hMem : (octets "content-length", value) ∈
          (responseFields skip (h.fields.map fieldLine)).reverse := by
        rw [hEq]
        simp
      obtain ⟨f, hf, hName, hValue⟩ := mem_responseFields hWell.fields (List.mem_reverse.mp hMem)
      exact ⟨value, rfl, by rw [show value = _ from hValue.symm, hNumify f hf hName]⟩
  | none =>
      exfalso
      apply hSome
      rw [fieldValues_trim, List.map_eq_nil_iff, List.eq_nil_iff_forall_not_mem]
      intro v hv
      obtain ⟨f, hf, hName, _⟩ := mem_fieldValues.mp hv
      rw [contentLengthOf, List.lookup_eq_none_iff, responseFields_fieldLine skip hWell.fields] at hLookup
      have hKept := hSkip f.1 hName
      have := hLookup (lc f.1, f.2.dropWhile isSpace) (by
        rw [List.mem_reverse]
        exact List.mem_map.mpr ⟨f, List.mem_filter.mpr ⟨hf, by simp [hKept]⟩, rfl⟩)
      simp [hName] at this

/-- The length a framing gives. -/
def lengthOf? : Option Framing → Option Int
  | some (.length n) => some n
  | _ => none

/-- The number in the last content-length field is the length the head announces. -/
theorem numify_contentLengthOf {skip : Octets → Bool} (hSkip : KeepsLength skip) {h : ResponseHead}
    (hWell : h.WellFormed) :
    (contentLengthOf (responseFields skip (h.fields.map fieldLine))).map numify =
      lengthOf? h.announced := by
  have hSome := hWell.announced
  unfold ResponseHead.announced fieldFraming at hSome ⊢
  cases hCoding : fieldValues (octets "transfer-encoding") (trimFields h.fields) with
  | nil =>
      rw [hCoding] at hSome
      cases hLength : fieldValues (octets "content-length") (trimFields h.fields) with
      | nil => rw [contentLengthOf_eq_none skip hWell hLength]; rfl
      | cons v values =>
          rw [hLength] at hSome
          dsimp only at hSome ⊢
          cases hValue : lengthValue (v :: values) with
          | none => rw [hValue] at hSome; cases hSome
          | some n =>
              have hAll := (lengthValue_eq_some (List.cons_ne_nil v values)).mp hValue
              rw [← hLength] at hAll
              obtain ⟨value, hLookup, hNumify⟩ :=
                contentLengthOf_eq_some hSkip hWell hAll (by rw [hLength]; exact List.cons_ne_nil _ _)
              rw [hLookup, Option.map_some, hNumify]
              rfl
  | cons coding codings =>
      rw [hCoding] at hSome
      cases codings with
      | cons _ _ => cases hSome
      | nil =>
          cases hLength : fieldValues (octets "content-length") (trimFields h.fields) with
          | cons _ _ => rw [hLength] at hSome; cases hSome
          | nil =>
              rw [contentLengthOf_eq_none skip hWell hLength]
              dsimp only
              split <;> rfl

theorem reaches_eq (contentLength : Option Octets) (sent : Nat) :
    reaches contentLength sent = (contentLength.map numify).any (· ≤ (sent : Int)) := by
  cases contentLength <;> rfl

/-- Whether as much has been sent as the content-length says, in terms of the
framing the head announces. -/
theorem reaches_iff {skip : Octets → Bool} (hSkip : KeepsLength skip) {h : ResponseHead}
    (hWell : h.WellFormed) (sent : Nat) :
    reaches (contentLengthOf (responseFields skip (h.fields.map fieldLine))) sent = true ↔
      ∃ n, h.announced = some (.length n) ∧ n ≤ sent := by
  rw [reaches_eq, numify_contentLengthOf hSkip hWell]
  cases h.announced with
  | none => simp [lengthOf?]
  | some framing => cases framing <;> simp [lengthOf?]

end PageCamel.Frontend

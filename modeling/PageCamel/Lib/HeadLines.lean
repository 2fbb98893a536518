import PageCamel.Lib.Http1

/-!
Request heads written from texts with a line end behind each. A text that has line
ends of its own is read as several lines, so a head is what its lines are. Bodies
written in chunks are read back whole.
-/

namespace PageCamel.Lib.Http1

/-! ### Lines -/

/-- The lines a text is read as when a line end follows it. -/
def linesOf (text : Octets) : List Octets := pieces crlf text.length text

def writeLines (texts : List Octets) : Octets := texts.flatMap (· ++ crlf)

/-- The first line end behind the line is the one that is put there. -/
def IsCut (line : Octets) : Prop :=
  ∀ rest, cutAt crlf (line ++ (crlf ++ rest)) = some (line, rest)

theorem indexOf_crlf_append {line : Octets} (h : indexOf crlf line = none) (rest : Octets) :
    indexOf crlf (line ++ (crlf ++ rest)) = some line.length := by
  induction line with
  | nil => rfl
  | cons b line ih =>
      rw [indexOf] at h
      split at h
      · cases h
      · next hNot =>
          rw [Option.map_eq_none_iff] at h
          rw [List.cons_append, indexOf, if_neg, ih h, Option.map_some, List.length_cons]
          -- a line end at the last octet would need the next one to be its second half
          intro hPrefix
          apply hNot
          cases line with
          | nil => revert hPrefix; simp [crlf, List.isPrefixOf]
          | cons c line => simpa [crlf, List.isPrefixOf] using hPrefix

theorem indexOf_take {sep hay : Octets} (hSep : sep ≠ []) :
    ∀ {i : Nat}, indexOf sep hay = some i → indexOf sep (hay.take i) = none := by
  induction hay with
  | nil =>
      intro i h
      rw [indexOf, if_neg hSep] at h
      cases h
  | cons b hay ih =>
      intro i h
      rw [indexOf] at h
      split at h
      · cases h
        rw [List.take_zero, indexOf, if_neg hSep]
      · next hNot =>
          obtain ⟨j, hTail, rfl⟩ := Option.map_eq_some_iff.mp h
          rw [List.take_succ_cons, indexOf, if_neg, ih hTail, Option.map_none]
          intro hPrefix
          apply hNot
          rw [List.isPrefixOf_iff_prefix] at hPrefix ⊢
          exact hPrefix.trans (List.cons_prefix_cons.mpr ⟨rfl, List.take_prefix ..⟩)

theorem isCut_of_indexOf {line : Octets} (h : indexOf crlf line = none) : IsCut line := by
  intro rest
  rw [cutAt, indexOf_crlf_append h, Option.map_some, List.take_left, ← List.drop_drop,
    List.drop_left, List.drop_left]

theorem pieces_lines (fuel : Nat) : ∀ text : Octets, text.length ≤ fuel →
    writeLines (pieces crlf fuel text) = text ++ crlf ∧
      ∀ line ∈ pieces crlf fuel text, IsCut line := by
  induction fuel with
  | zero =>
      intro text hText
      obtain rfl := List.length_eq_zero_iff.mp (Nat.le_zero.mp hText)
      refine ⟨rfl, fun line hLine => ?_⟩
      rw [pieces, List.mem_singleton] at hLine
      subst hLine
      exact isCut_of_indexOf rfl
  | succ fuel ih =>
      intro text hText
      rw [pieces]
      cases hCut : cutAt crlf text with
      | none =>
          rw [cutAt, Option.map_eq_none_iff] at hCut
          refine ⟨by simp [writeLines], fun line hLine => ?_⟩
          rw [List.mem_singleton] at hLine
          subst hLine
          exact isCut_of_indexOf hCut
      | some cut =>
          obtain ⟨line, rest⟩ := cut
          have hLength := cutAt_length hCut
          have hCrlf : crlf.length = 2 := rfl
          obtain ⟨hRest, hLines⟩ := ih rest (by omega)
          have hText := cutAt_split hCut
          constructor
          · have hFirst : writeLines (line :: pieces crlf fuel rest) =
                line ++ crlf ++ writeLines (pieces crlf fuel rest) := by simp [writeLines]
            rw [hFirst, hRest, hText]
            simp
          · intro l hl
            rcases List.mem_cons.mp hl with rfl | hl
            · rw [cutAt, Option.map_eq_some_iff] at hCut
              obtain ⟨i, hIndex, hParts⟩ := hCut
              cases hParts
              exact isCut_of_indexOf (indexOf_take (by decide) hIndex)
            · exact hLines l hl

theorem isCut_of_mem_linesOf {text line : Octets} (h : line ∈ linesOf text) : IsCut line :=
  (pieces_lines text.length text (Nat.le_refl _)).2 line h

/-- Texts and their lines are the same octets. -/
theorem writeLines_linesOf (texts : List Octets) :
    writeLines (texts.flatMap linesOf) = writeLines texts := by
  induction texts with
  | nil => rfl
  | cons text texts ih =>
      have hText := (pieces_lines text.length text (Nat.le_refl _)).1
      rw [writeLines] at ih hText
      rw [writeLines, List.flatMap_cons, List.flatMap_append, ih]
      exact congrArg (· ++ writeLines texts) hText

/-! ### Reading a head -/

theorem parseFields_lines {lines : List Octets} (hLines : ∀ line ∈ lines, IsCut line)
    {content : Octets} :
    ∀ {fuel : Nat} {fields : List Field}, lines.length < fuel →
      (parseFields fuel (writeLines lines ++ (crlf ++ content)) = some (fields, content) ↔
        (∀ line ∈ lines, (parseField line).isSome) ∧ fields = lines.filterMap parseField) := by
  have hEmpty : IsCut [] := isCut_of_indexOf rfl
  induction lines with
  | nil =>
      intro fuel fields hFuel
      obtain ⟨fuel, rfl⟩ := Nat.exists_eq_succ_of_ne_zero (Nat.ne_zero_of_lt hFuel)
      have hCut := hEmpty content
      rw [List.nil_append] at hCut
      rw [writeLines, List.flatMap_nil, List.nil_append, parseFields, hCut]
      dsimp only
      constructor
      · intro h
        cases h
        exact ⟨fun line hLine => absurd hLine List.not_mem_nil, rfl⟩
      · rintro ⟨_, rfl⟩
        rfl
  | cons line lines ih =>
      intro fuel fields hFuel
      obtain ⟨fuel, rfl⟩ := Nat.exists_eq_succ_of_ne_zero (Nat.ne_zero_of_lt hFuel)
      have ih := fun fields => @ih (fun l hl => hLines l (List.mem_cons_of_mem _ hl)) fuel fields
        (Nat.lt_of_succ_lt_succ hFuel)
      have hBytes : writeLines (line :: lines) ++ (crlf ++ content) =
          line ++ (crlf ++ (writeLines lines ++ (crlf ++ content))) := by simp [writeLines]
      rw [hBytes, parseFields, hLines line List.mem_cons_self]
      cases line with
      | nil =>
          -- an empty line ends the head too early
          have hNone : parseField [] = none := rfl
          constructor
          · intro h
            have hLength := congrArg (fun p => (Option.getD p ([], [])).2.length) h
            simp only [Option.getD_some, List.length_append] at hLength
            have hCrlf : crlf.length = 2 := rfl
            omega
          · rintro ⟨h, _⟩
            have := h [] List.mem_cons_self
            rw [hNone] at this
            cases this
      | cons b line =>
          dsimp only
          cases hField : parseField (b :: line) with
          | none => simp [hField]
          | some f =>
              rw [List.filterMap_cons_some hField]
              constructor
              · intro h
                cases hRest : parseFields fuel (writeLines lines ++ (crlf ++ content)) with
                | none => rw [hRest] at h; cases h
                | some p =>
                    rw [hRest] at h
                    cases h
                    obtain ⟨hSome, hFields⟩ := (ih _).mp hRest
                    exact ⟨by simpa [hField] using hSome, congrArg (f :: ·) hFields⟩
              · rintro ⟨hSome, rfl⟩
                rw [(ih _).mpr ⟨fun l hl => hSome l (List.mem_cons_of_mem _ hl), rfl⟩]

/-- The head at the front of the octets is that of the request, and the content is
what follows it. -/
def HeadRead (bytes : Octets) (r : Request) (content : Octets) : Prop :=
  ∃ line head, cutAt crlf bytes = some (line, head) ∧
    parseRequestLine line = some (r.method, r.target) ∧
    parseFields (head.length + 1) head = some (r.fields, content)

theorem HeadRead.content_eq {bytes content content' : Octets} {r : Request}
    (h : HeadRead bytes r content) (h' : HeadRead bytes r content') : content = content' := by
  obtain ⟨line, head, hCut, _, hFields⟩ := h
  obtain ⟨line', head', hCut', _, hFields'⟩ := h'
  cases hCut.symm.trans hCut'
  cases hFields.symm.trans hFields'
  rfl

/-- The lines are a request line and the lines of fields. -/
structure IsHead (lines : List Octets) : Prop where
  request : ∃ line ∈ lines.head?, (parseRequestLine line).isSome
  fields : ∀ line ∈ lines.tail, (parseField line).isSome

theorem IsHead.line {lines : List Octets} (h : IsHead lines) :
    ∃ method target, ∃ line ∈ lines.head?, parseRequestLine line = some (method, target) := by
  obtain ⟨line, hLine, hSome⟩ := h.request
  obtain ⟨⟨method, target⟩, hRead⟩ := Option.isSome_iff_exists.mp hSome
  exact ⟨method, target, line, hLine, hRead⟩

/-- The fields on the lines after the first. -/
def fieldsOf (lines : List Octets) : List Field := lines.tail.filterMap parseField

theorem parseRequests_iff_headRead {bytes : Octets} {r : Request} :
    parseRequests bytes = some [r] ↔ ∃ content framing, HeadRead bytes r content ∧
      fieldFraming (.length 0) r.fields = some framing ∧
      readBody framing content = some (r.body, []) := by
  rw [parseRequests_eq_singleton, parseRequest_eq_some]
  constructor
  · rintro ⟨line, head, content, framing, hCut, hLine, hFields, hFraming, hBody⟩
    exact ⟨content, framing, ⟨line, head, hCut, hLine, hFields⟩, hFraming, hBody⟩
  · rintro ⟨content, framing, ⟨line, head, hCut, hLine, hFields⟩, hFraming, hBody⟩
    exact ⟨line, head, content, framing, hCut, hLine, hFields, hFraming, hBody⟩

theorem length_writeLines (lines : List Octets) : lines.length ≤ (writeLines lines).length := by
  induction lines with
  | nil => exact Nat.le_refl _
  | cons line lines ih =>
      rw [writeLines] at ih
      rw [writeLines, List.flatMap_cons, List.length_append, List.length_append, List.length_cons]
      have hCrlf : crlf.length = 2 := rfl
      omega

/-- A head is read to its end when its lines are those of a head. -/
theorem headRead_writeLines {texts : List Octets} {r : Request} {content : Octets} :
    HeadRead (writeLines texts ++ (crlf ++ content)) r content ↔
      (∃ line ∈ (texts.flatMap linesOf).head?, parseRequestLine line = some (r.method, r.target)) ∧
      (∀ line ∈ (texts.flatMap linesOf).tail, (parseField line).isSome) ∧
      r.fields = fieldsOf (texts.flatMap linesOf) := by
  have hCuts : ∀ line ∈ texts.flatMap linesOf, IsCut line := by
    intro line hLine
    obtain ⟨text, _, hMem⟩ := List.mem_flatMap.mp hLine
    exact isCut_of_mem_linesOf hMem
  rw [← writeLines_linesOf texts, fieldsOf]
  generalize texts.flatMap linesOf = lines at hCuts
  cases lines with
  | nil =>
      constructor
      · rintro ⟨line, head, hCut, hLine, _⟩
        have hEmpty : IsCut [] := isCut_of_indexOf rfl
        cases hCut.symm.trans (hEmpty content)
        cases hLine
      · rintro ⟨⟨line, hLine, _⟩, _⟩
        cases hLine
  | cons line lines =>
      have hBytes : writeLines (line :: lines) ++ (crlf ++ content) =
          line ++ (crlf ++ (writeLines lines ++ (crlf ++ content))) := by simp [writeLines]
      have hCut := hCuts line List.mem_cons_self (writeLines lines ++ (crlf ++ content))
      have hFuel : lines.length < (writeLines lines ++ (crlf ++ content)).length + 1 := by
        have := length_writeLines lines
        rw [List.length_append]
        omega
      have hRead := fun fields => @parseFields_lines lines
        (fun l hl => hCuts l (List.mem_cons_of_mem _ hl)) content _ fields hFuel
      rw [HeadRead, hBytes, hCut, List.head?_cons, List.tail_cons, ← hRead]
      constructor
      · rintro ⟨_, _, hEq, hLine, hFields⟩
        cases hEq
        exact ⟨⟨line, rfl, hLine⟩, hFields⟩
      · rintro ⟨⟨_, hEq, hLine⟩, hFields⟩
        cases hEq
        exact ⟨line, _, rfl, hLine, hFields⟩

/-! ### Fields put behind the texts -/

def fieldText (f : Field) : Octets := f.1 ++ octets ": " ++ f.2

/-- The request line and the fields of a request, a text each. -/
def Request.texts (r : Request) : List Octets :=
  renderRequestLine r.method r.target :: r.fields.map fieldText

theorem render_eq_writeLines (r : Request) :
    r.render = writeLines r.texts ++ (crlf ++ r.body) := by
  have hFields : renderField = fun f => fieldText f ++ crlf := rfl
  simp [Request.render, renderFields, Request.texts, writeLines, hFields, List.flatMap_map]

theorem indexOf_eq_none {b : UInt8} {sep text : Octets} (h : b ∉ text) :
    indexOf (b :: sep) text = none := by
  have := indexOf_append_left b sep text [] h
  rw [List.append_nil, indexOf, if_neg (List.cons_ne_nil _ _)] at this
  exact this

/-- A text without a carriage return is one line. -/
theorem linesOf_eq_singleton {text : Octets} (h : (13 : UInt8) ∉ text) : linesOf text = [text] := by
  have hNone : cutAt crlf text = none := by
    rw [cutAt, show crlf = [13, 10] from rfl, indexOf_eq_none h, Option.map_none]
  rw [linesOf]
  cases text.length with
  | zero => rfl
  | succ n => rw [pieces, hNone]

theorem linesOf_ne_nil (text : Octets) : linesOf text ≠ [] := by
  rw [linesOf]
  cases text.length with
  | zero => exact List.cons_ne_nil _ _
  | succ n =>
      rw [pieces]
      split <;> exact List.cons_ne_nil _ _

theorem linesOf_fieldText {f : Field} (h : ValidField f) : linesOf (fieldText f) = [fieldText f] := by
  apply linesOf_eq_singleton
  have hName := not_mem_of_all (b := 13) (isToken_all h.1) (by decide)
  have hValue := not_mem_of_all (b := 13) h.2 (by decide)
  have hColon : (13 : UInt8) ∉ octets ": " := by decide
  simp [fieldText, hName, hValue, hColon]

theorem parseField_fieldText {f : Field} (h : ValidField f) :
    parseField (fieldText f) = some (f.1, trimOws f.2) :=
  parseField_render h

theorem filterMap_fieldText {fields : List Field} (h : ∀ f ∈ fields, ValidField f) :
    (fields.map fieldText).filterMap parseField = trimFields fields := by
  induction fields with
  | nil => rfl
  | cons f fields ih =>
      have hField := parseField_fieldText (h f List.mem_cons_self)
      rw [List.map_cons, List.filterMap_cons_some hField,
        ih fun g hg => h g (List.mem_cons_of_mem _ hg)]
      rfl

theorem flatMap_linesOf_fieldText {fields : List Field} (h : ∀ f ∈ fields, ValidField f) :
    (fields.map fieldText).flatMap linesOf = fields.map fieldText := by
  induction fields with
  | nil => rfl
  | cons f fields ih =>
      rw [List.map_cons, List.flatMap_cons, linesOf_fieldText (h f List.mem_cons_self),
        ih fun g hg => h g (List.mem_cons_of_mem _ hg), List.singleton_append]

/-- Valid fields behind other texts are read behind what these are read as. -/
theorem headRead_fields {texts : List Octets} (hTexts : texts ≠ []) {added : List Field}
    (hAdded : ∀ f ∈ added, ValidField f) {r : Request} {content : Octets} :
    HeadRead (writeLines (texts ++ added.map fieldText) ++ (crlf ++ content)) r content ↔
      (∃ line ∈ (texts.flatMap linesOf).head?, parseRequestLine line = some (r.method, r.target)) ∧
      (∀ line ∈ (texts.flatMap linesOf).tail, (parseField line).isSome) ∧
      r.fields = fieldsOf (texts.flatMap linesOf) ++ trimFields added := by
  have hLines : texts.flatMap linesOf ≠ [] := by
    obtain ⟨text, others, rfl⟩ := List.exists_cons_of_ne_nil hTexts
    rw [List.flatMap_cons]
    exact List.append_ne_nil_of_left_ne_nil (linesOf_ne_nil text) _
  have hSome : ∀ line ∈ added.map fieldText, (parseField line).isSome := by
    intro line hLine
    obtain ⟨f, hf, rfl⟩ := List.mem_map.mp hLine
    rw [parseField_fieldText (hAdded f hf)]
    rfl
  rw [headRead_writeLines, List.flatMap_append, flatMap_linesOf_fieldText hAdded, fieldsOf, fieldsOf,
    List.head?_append_of_ne_nil _ hLines, List.tail_append_of_ne_nil hLines, List.filterMap_append,
    filterMap_fieldText hAdded, List.forall_mem_append]
  exact and_congr_right fun _ => and_congr_left fun _ => and_iff_left hSome

/-! ### Framing -/

/-- The value of a field that announces a length. -/
def IsLength (n : Nat) (value : Octets) : Prop :=
  value ≠ [] ∧ value.all isDigit = true ∧ digitsValue value = n

theorem fieldFraming_length_iff {fields : List Field} {n : Nat} :
    fieldFraming (.length 0) fields = some (.length n) ↔
      fieldValues (octets "transfer-encoding") fields = [] ∧
      (fieldValues (octets "content-length") fields = [] → n = 0) ∧
      ∀ v ∈ fieldValues (octets "content-length") fields, IsLength n v := by
  constructor
  · intro h
    have hCoding : fieldValues (octets "transfer-encoding") fields = [] := by
      rw [fieldFraming] at h
      split at h <;> first | assumption | skip
      · split at h <;> cases h
      · cases h
    have hNone : fieldValues (octets "content-length") fields = [] → n = 0 := by
      intro hNone
      rw [fieldFraming, hCoding, hNone] at h
      cases h
      rfl
    exact ⟨hCoding, hNone, (fieldFraming_eq_length hCoding hNone).mp h⟩
  · rintro ⟨hCoding, hNone, hLengths⟩
    exact (fieldFraming_eq_length hCoding hNone).mpr hLengths

/-- Without a transfer coding a body stands in the octets as it is, up to their end. -/
theorem content_eq_body {fields : List Field} {framing : Framing} {content body : Octets}
    (hCoding : fieldValues (octets "transfer-encoding") fields = [])
    (hFraming : fieldFraming (.length 0) fields = some framing)
    (hRead : readBody framing content = some (body, [])) : content = body := by
  obtain ⟨n, rfl⟩ : ∃ n, framing = .length n := by
    rw [fieldFraming, hCoding] at hFraming
    cases hValues : fieldValues (octets "content-length") fields with
    | nil =>
        rw [hValues] at hFraming
        cases hFraming
        exact ⟨0, rfl⟩
    | cons v values =>
        rw [hValues] at hFraming
        obtain ⟨n, _, hEq⟩ := Option.map_eq_some_iff.mp hFraming
        exact ⟨n, hEq.symm⟩
  rw [readBody] at hRead
  split at hRead
  · rw [Option.some.injEq, Prod.mk.injEq, List.drop_eq_nil_iff] at hRead
    rw [← hRead.1, List.take_of_length_le hRead.2]
  · cases hRead

/-- A transfer coding that is understood is the framing. -/
theorem framing_eq_chunked {fields : List Field} {framing : Framing}
    (hCoding : fieldValues (octets "transfer-encoding") fields ≠ [])
    (hFraming : fieldFraming (.length 0) fields = some framing) : framing = .chunked := by
  rw [fieldFraming] at hFraming
  split at hFraming
  · next hNil _ => exact absurd hNil hCoding
  · next hNil _ => exact absurd hNil hCoding
  · split at hFraming
    · cases hFraming
      rfl
    · cases hFraming
  · cases hFraming

theorem fieldFraming_chunked_iff {fields : List Field} :
    fieldFraming (.length 0) fields = some .chunked ↔
      fieldValues (octets "content-length") fields = [] ∧
      ∃ coding, fieldValues (octets "transfer-encoding") fields = [coding] ∧
        lc coding = octets "chunked" := by
  rw [fieldFraming]
  constructor
  · intro h
    split at h
    · cases h
    · rw [Option.map_eq_some_iff] at h
      obtain ⟨_, _, hEq⟩ := h
      cases hEq
    · next coding hCoding hNone =>
        split at h
        · next hChunked => exact ⟨hNone, coding, hCoding, hChunked⟩
        · cases h
    · cases h
  · rintro ⟨hNone, coding, hCoding, hChunked⟩
    rw [hNone, hCoding]
    exact if_pos hChunked

/-! ### Chunks -/

theorem hexDigit_digitChar {d : Nat} (h : d < 16) : hexDigit? (digitChar d) = some d := by
  have hAll : ∀ i : Fin 16, hexDigit? (digitChar i.val) = some i.val := by decide
  exact hAll ⟨d, h⟩

theorem digits_lt_16 {n d : Nat} (h : d ∈ Nat.digits 16 n) : d < 16 :=
  Nat.digits_lt_base (by omega) h

theorem hexValue_numeral (n : Nat) : hexValue (numeral 16 n) = n := by
  have hReverse (ds : List Nat) (h : ∀ d ∈ ds, d < 16) :
      hexValue (ds.reverse.map digitChar) = Nat.ofDigits 16 ds := by
    rw [hexValue, List.foldl_map, List.foldl_reverse]
    induction ds with
    | nil => rfl
    | cons d ds ih =>
        rw [List.foldr_cons, ih fun e he => h e (List.mem_cons_of_mem _ he),
          hexDigit_digitChar (h d List.mem_cons_self), Nat.ofDigits_cons, Option.getD_some]
        exact Nat.add_comm ..
  rw [numeral]
  split
  · next hZero => subst hZero; decide
  · rw [hReverse _ fun d => digits_lt_16, Nat.ofDigits_digits]

theorem hexDigit_of_mem_numeral {n : Nat} {b : UInt8} (h : b ∈ numeral 16 n) :
    (hexDigit? b).isSome = true := by
  rw [numeral] at h
  split at h
  · rw [List.mem_singleton] at h
    subst h
    decide
  · obtain ⟨d, hd, rfl⟩ := List.mem_map.mp h
    rw [hexDigit_digitChar (digits_lt_16 (List.mem_reverse.mp hd))]
    rfl

theorem numeral_ne_nil (n : Nat) : numeral 16 n ≠ [] := by
  rw [numeral]
  split
  · exact List.cons_ne_nil _ _
  · next hn => simpa [Nat.digits_ne_nil_iff_ne_zero] using hn

theorem takeWhile_eq_self_of_all {p : UInt8 → Bool} {s : Octets} (h : ∀ b ∈ s, p b = true) :
    s.takeWhile p = s := by
  have := takeWhile_append_of_all h []
  rwa [List.append_nil, List.takeWhile_nil, List.append_nil] at this

theorem chunkSize_numeral (n : Nat) : chunkSize (numeral 16 n) = some n := by
  have hTake : (numeral 16 n).takeWhile (fun b => (hexDigit? b).isSome) = numeral 16 n :=
    takeWhile_eq_self_of_all fun b hb => hexDigit_of_mem_numeral hb
  rw [chunkSize]
  simp only [hTake]
  rw [if_pos ⟨numeral_ne_nil n, .inl (List.drop_length ..)⟩, hexValue_numeral]

/-- Chunks with their end are read back as the data they were written from. -/
theorem readChunks_render {chunks : List Octets} (hChunks : ∀ data ∈ chunks, data ≠ []) :
    ∀ {fuel : Nat}, chunks.length < fuel →
      readChunks fuel (chunks.flatMap renderChunk ++ lastChunk) = some (chunks.flatten, []) := by
  induction chunks with
  | nil =>
      intro fuel hFuel
      obtain ⟨fuel, rfl⟩ := Nat.exists_eq_succ_of_ne_zero (Nat.ne_zero_of_lt hFuel)
      rfl
  | cons data chunks ih =>
      intro fuel hFuel
      obtain ⟨fuel, rfl⟩ := Nat.exists_eq_succ_of_ne_zero (Nat.ne_zero_of_lt hFuel)
      have hRest := ih (fun d hd => hChunks d (List.mem_cons_of_mem _ hd))
        (Nat.lt_of_succ_lt_succ hFuel)
      have hBytes : (data :: chunks).flatMap renderChunk ++ lastChunk =
          numeral 16 data.length ++
            ([13, 10] ++ (data ++ (crlf ++ (chunks.flatMap renderChunk ++ lastChunk)))) := by
        simp [renderChunk, crlf]
      have hNoCr : (13 : UInt8) ∉ numeral 16 data.length :=
        fun h => absurd (hexDigit_of_mem_numeral h) (by decide)
      have hPositive : 0 < data.length :=
        List.length_pos_iff.mpr (hChunks data List.mem_cons_self)
      obtain ⟨n, hn⟩ : ∃ n, data.length = n + 1 := ⟨data.length - 1, by omega⟩
      have hDrop : ∀ tail : Octets, (data ++ ([13, 10] ++ tail)).drop (n + 3) = tail := by
        intro tail
        rw [← List.append_assoc]
        exact List.drop_left' (by rw [List.length_append, hn]; rfl)
      rw [hBytes, readChunks, show crlf = [13, 10] from rfl, cutAt_append 13 [10] _ _ hNoCr]
      dsimp only
      rw [chunkSize_numeral, hn]
      dsimp only
      have hEnd (tail : Octets) : List.isPrefixOf [13, 10] ([13, 10] ++ tail) = true := rfl
      rw [List.drop_left' hn, List.take_left' hn, hDrop, if_pos (hEnd _), hRest]
      rfl

end PageCamel.Lib.Http1

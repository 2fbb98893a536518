import PageCamel.Lib.Http1

/-!
HTTP/1.1 responses as they arrive on a connection: the head, where it ends in the
octets received so far, and the body a recipient knows at that point.
-/

namespace PageCamel.Lib.Http1

/-- The head of a response. A field value keeps the white space around it. -/
structure ResponseHead where
  status : Octets
  reason : Octets
  fields : List Field
  deriving DecidableEq, Repr

def statusLine (status reason : Octets) : Octets :=
  octets "HTTP/1.1" ++ 0x20 :: (status ++ 0x20 :: reason)

def fieldLine (f : Field) : Octets := f.1 ++ 0x3A :: f.2

def ResponseHead.lines (h : ResponseHead) : List Octets :=
  statusLine h.status h.reason :: h.fields.map fieldLine

/-- Lines with a line end between them. -/
def joinLines : List Octets → Octets
  | [] => []
  | [line] => line
  | line :: lines => line ++ crlf ++ joinLines lines

def ResponseHead.text (h : ResponseHead) : Octets := joinLines h.lines

/-- The line end of the last line and the empty line. -/
def headEnd : Octets := crlf ++ crlf

/-- The octets of a response. -/
def ResponseHead.message (h : ResponseHead) (wire : Octets) : Octets := h.text ++ headEnd ++ wire

/-- The length of the head with its empty line. -/
def headLength (h : ResponseHead) : Nat := h.text.length + headEnd.length

theorem headLength_pos (h : ResponseHead) : 0 < headLength h :=
  Nat.lt_of_lt_of_le (by decide) (Nat.le_add_left ..)

theorem headLength_le_message (h : ResponseHead) (wire : Octets) :
    headLength h ≤ (h.message wire).length := by
  rw [headLength, ResponseHead.message, List.length_append, List.length_append]
  omega

/-- The framing the fields announce. -/
def ResponseHead.announced (h : ResponseHead) : Option Framing :=
  fieldFraming .untilClose (trimFields h.fields)

structure ResponseHead.WellFormed (h : ResponseHead) : Prop where
  status : h.status.length = 3 ∧ h.status.all isDigit
  reason : h.reason.all isValueChar
  fields : ∀ f ∈ h.fields, ValidField f
  announced : h.announced.isSome

/-- The request method and the status leave no room for a body. -/
def ResponseHead.hasNoBody (method : Octets) (h : ResponseHead) : Bool :=
  method = octets "HEAD" ∨ h.status.head? = some 0x31 ∨ h.status = octets "204" ∨
    h.status = octets "304" ∨ (method = octets "CONNECT" ∧ h.status.head? = some 0x32)

/-- How the body of the response to a request with the given method ends. -/
def ResponseHead.framing (method : Octets) (h : ResponseHead) : Option Framing :=
  if h.hasNoBody method then some (.length 0) else h.announced

/-- The body, once the octets received after the head hold all of it. -/
def receivedBody (framing : Framing) (wire : Octets) (closed : Bool) : Option Octets :=
  match framing with
  | .untilClose => if closed then some wire else none
  | framing => (readBody framing wire).map (·.1)

/-- The body of the response, once all of it has been received. -/
def ResponseHead.bodyOf (method : Octets) (h : ResponseHead) (received : Octets) (closed : Bool) :
    Option Octets :=
  if received.length < headLength h then none
  else (h.framing method).bind fun framing =>
    receivedBody framing (received.drop (headLength h)) closed

/-! ### Finding the end of the head -/

theorem indexOf_append_right {needle hay : Octets} {i : Nat} (more : Octets)
    (h : indexOf needle hay = some i) : indexOf needle (hay ++ more) = some i := by
  induction hay generalizing i with
  | nil =>
      rw [indexOf] at h
      split at h
      · next hNeedle =>
          cases h
          subst hNeedle
          cases more <;> rfl
      · cases h
  | cons b hay ih =>
      rw [indexOf] at h
      rw [List.cons_append, indexOf]
      split at h
      · next hPrefix =>
          cases h
          rw [List.isPrefixOf_iff_prefix] at hPrefix
          rw [if_pos]
          rw [List.isPrefixOf_iff_prefix]
          exact hPrefix.trans ⟨more, by simp⟩
      · next hNot =>
          cases hTail : indexOf needle hay with
          | none => rw [hTail] at h; cases h
          | some j =>
              rw [hTail] at h
              cases h
              rw [if_neg, ih hTail]
              · rfl
              · intro hPrefix
                apply hNot
                rw [List.isPrefixOf_iff_prefix] at hPrefix ⊢
                have hLength : needle.length ≤ (b :: hay).length := by
                  have := indexOf_length_le needle hay j hTail
                  simp only [List.length_cons]
                  omega
                exact List.prefix_of_prefix_length_le hPrefix ⟨more, by simp⟩ hLength

/-- A line that is not empty and has no carriage return in it. -/
def IsLine (line : Octets) : Prop := line ≠ [] ∧ (13 : UInt8) ∉ line

theorem indexOf_headEnd (lines : List Octets) (hLines : ∀ line ∈ lines, IsLine line)
    (hNonempty : lines ≠ []) (wire : Octets) :
    indexOf headEnd (joinLines lines ++ (headEnd ++ wire)) = some (joinLines lines).length := by
  have hEnd : headEnd = 13 :: [10, 13, 10] := rfl
  fun_induction joinLines lines with
  | case1 => exact absurd rfl hNonempty
  | case2 line =>
      rw [hEnd]
      exact indexOf_append 13 _ line wire (hLines line (List.mem_cons_self ..)).2
  | case3 line lines hRest ih =>
      have hLine := hLines line (List.mem_cons_self ..)
      have hTail := ih (fun l hl => hLines l (List.mem_cons_of_mem _ hl)) (by
        intro h
        exact hRest h)
      obtain ⟨next, others, rfl⟩ := List.exists_cons_of_ne_nil (l := lines) (fun h => hRest h)
      have hNext := hLines next (by simp)
      obtain ⟨b, tail, hb⟩ := List.exists_cons_of_ne_nil hNext.1
      have hFirst : (13 == b) = false := by
        have : (13 : UInt8) ≠ b := fun h => hNext.2 (by rw [hb, h]; exact List.mem_cons_self ..)
        simpa using this
      obtain ⟨more, hMore⟩ : ∃ more, joinLines (next :: others) = b :: more := by
        cases others with
        | nil => exact ⟨tail, hb⟩
        | cons _ _ => exact ⟨tail ++ crlf ++ _, by rw [joinLines, hb]; rfl; simp⟩
      -- the line end after the line is not the start of an empty line
      have hSkip : indexOf headEnd (crlf ++ (joinLines (next :: others) ++ (headEnd ++ wire))) =
          some (2 + (joinLines (next :: others)).length) := by
        rw [hMore] at hTail ⊢
        rw [show crlf ++ (b :: more ++ (headEnd ++ wire)) =
          13 :: 10 :: (b :: more ++ (headEnd ++ wire)) from rfl]
        rw [indexOf, if_neg (by simp [hEnd, List.isPrefixOf, hFirst]), indexOf,
          if_neg (by simp [hEnd, List.isPrefixOf]), hTail]
        simp only [Option.map_some, List.length_cons]
        congr 1
        omega
      rw [hEnd] at hSkip ⊢
      rw [List.append_assoc, List.append_assoc, indexOf_append_left 13 _ line _ hLine.2, hSkip]
      have hCrlf : crlf.length = 2 := rfl
      simp only [Option.map_some, List.length_append]
      congr 1
      omega

theorem isLine_statusLine {h : ResponseHead} (hWell : h.WellFormed) :
    IsLine (statusLine h.status h.reason) := by
  have hStatus := not_mem_of_all (b := 13) hWell.status.2 (by decide)
  have hReason := not_mem_of_all (b := 13) hWell.reason (by decide)
  have hVersion : (13 : UInt8) ∉ octets "HTTP/1.1" := by decide
  constructor
  · intro hNil
    have := congrArg List.length hNil
    simp [statusLine] at this
  · simp [statusLine, hStatus, hReason, hVersion]

theorem isLine_fieldLine {f : Field} (hValid : ValidField f) : IsLine (fieldLine f) := by
  have hName := not_mem_of_all (b := 13) (isToken_all hValid.1) (by decide)
  have hValue := not_mem_of_all (b := 13) hValid.2 (by decide)
  constructor
  · intro hNil
    have := congrArg List.length hNil
    simp [fieldLine] at this
  · simp [fieldLine, hName, hValue]

theorem isLine_lines {h : ResponseHead} (hWell : h.WellFormed) : ∀ line ∈ h.lines, IsLine line := by
  intro line hMem
  rcases List.mem_cons.mp hMem with rfl | hMem
  · exact isLine_statusLine hWell
  · obtain ⟨f, hf, rfl⟩ := List.mem_map.mp hMem
    exact isLine_fieldLine (hWell.fields f hf)

theorem indexOf_message {h : ResponseHead} (hWell : h.WellFormed) (wire : Octets) :
    indexOf headEnd (h.message wire) = some h.text.length := by
  rw [ResponseHead.message, List.append_assoc]
  exact indexOf_headEnd h.lines (isLine_lines hWell) (List.cons_ne_nil _ _) wire

/-- What has been received of a message holds the end of the head once it is long
enough. -/
theorem indexOf_received {h : ResponseHead} (hWell : h.WellFormed) {wire received more : Octets}
    (hPrefix : received ++ more = h.message wire) :
    indexOf headEnd received =
      if received.length < headLength h then none else some h.text.length := by
  have hWhole := indexOf_message hWell wire
  rw [headLength]
  split
  · next hShort =>
      cases hFound : indexOf headEnd received with
      | none => rfl
      | some i =>
          have hBound := indexOf_length_le headEnd received i hFound
          have hSame := indexOf_append_right more hFound
          rw [hPrefix, hWhole] at hSame
          cases hSame
          omega
  · next hLong =>
      obtain ⟨wire', rfl⟩ : ∃ wire', received = h.message wire' := by
        refine ⟨received.drop (h.text ++ headEnd).length, ?_⟩
        have hTake : received.take (h.text ++ headEnd).length = h.text ++ headEnd := by
          have := congrArg (List.take (h.text ++ headEnd).length) hPrefix
          rw [ResponseHead.message, List.take_left, List.take_append_of_le_length] at this
          · exact this
          · rw [List.length_append]
            omega
        rw [ResponseHead.message]
        conv_lhs => rw [← List.take_append_drop (h.text ++ headEnd).length received, hTake]
      exact indexOf_message hWell wire'

theorem cutAt_headEnd {h : ResponseHead} (hWell : h.WellFormed) {received more wire : Octets}
    (hPrefix : received ++ more = h.message wire) (hLong : headLength h ≤ received.length) :
    cutAt headEnd received = some (h.text, received.drop (headLength h)) := by
  have hIndex := indexOf_received hWell hPrefix
  rw [if_neg (by omega)] at hIndex
  have hText : received.take h.text.length = h.text := by
    have := congrArg (List.take h.text.length) hPrefix
    rw [ResponseHead.message, List.append_assoc, List.take_left, List.take_append_of_le_length] at this
    · exact this
    · rw [headLength] at hLong
      omega
  rw [cutAt, hIndex, Option.map_some, hText, headLength]

theorem cutAt_crlf_joinLines {line : Octets} (hLine : IsLine line) (next : Octets)
    (others : List Octets) :
    cutAt crlf (joinLines (line :: next :: others)) = some (line, joinLines (next :: others)) := by
  have := cutAt_append 13 [10] line (joinLines (next :: others)) hLine.2
  rw [joinLines, List.append_assoc]
  · exact this
  · exact fun h => by cases h

theorem cutAt_crlf_line {line : Octets} (hLine : IsLine line) : cutAt crlf line = none := by
  have := cutAt_append_left 13 [10] line [] hLine.2
  rw [List.append_nil] at this
  exact this

theorem pieces_joinLines (lines : List Octets) (hLines : ∀ line ∈ lines, IsLine line)
    (hNonempty : lines ≠ []) :
    ∀ fuel, lines.length ≤ fuel + 1 → pieces crlf fuel (joinLines lines) = lines := by
  induction lines with
  | nil => exact absurd rfl hNonempty
  | cons line lines ih =>
      intro fuel hFuel
      have hLine := hLines line (List.mem_cons_self ..)
      cases lines with
      | nil =>
          cases fuel with
          | zero => rfl
          | succ fuel => rw [joinLines, pieces, cutAt_crlf_line hLine]
      | cons next others =>
          simp only [List.length_cons] at hFuel
          obtain ⟨fuel, rfl⟩ : ∃ n, fuel = n + 1 := ⟨fuel - 1, by omega⟩
          have hRest := ih (fun l hl => hLines l (List.mem_cons_of_mem _ hl))
            (List.cons_ne_nil _ _) fuel (by simp only [List.length_cons]; omega)
          rw [pieces, cutAt_crlf_joinLines hLine]
          dsimp only
          rw [hRest]

theorem length_joinLines (lines : List Octets) (hLines : ∀ line ∈ lines, IsLine line) :
    lines.length ≤ (joinLines lines).length := by
  fun_induction joinLines lines with
  | case1 => exact Nat.zero_le _
  | case2 line =>
      have := List.length_pos_of_ne_nil (hLines line (List.mem_cons_self ..)).1
      simp only [List.length_singleton]
      omega
  | case3 line lines _ ih =>
      have hRest := ih fun l hl => hLines l (List.mem_cons_of_mem _ hl)
      have hCrlf : crlf.length = 2 := rfl
      simp only [List.length_cons, List.length_append]
      omega

/-- The lines of a head are found again. -/
theorem splitAll_text {h : ResponseHead} (hWell : h.WellFormed) : splitAll crlf h.text = h.lines := by
  have hLines := isLine_lines hWell
  have hLast : ∀ line, h.lines.reverse.head? = some line → line ≠ [] := by
    intro line hHead
    exact (hLines line (List.mem_reverse.mp (List.mem_of_head? hHead))).1
  rw [splitAll, ResponseHead.text, pieces_joinLines h.lines hLines (List.cons_ne_nil _ _)]
  · cases hReverse : h.lines.reverse with
    | nil => rw [List.reverse_eq_nil_iff] at hReverse; rw [hReverse]; rfl
    | cons line others =>
        rw [List.dropWhile_cons_of_neg, ← hReverse, List.reverse_reverse]
        simpa using hLast line (by rw [hReverse]; rfl)
  · have := length_joinLines h.lines hLines
    omega

end PageCamel.Lib.Http1

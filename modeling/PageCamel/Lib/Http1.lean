import PageCamel.Lib.Octets

/-!
HTTP/1.1 messages: the lines of a head, the framing of a body and the requests a
recipient reads from a connection. The reader is strict, it takes no byte into a
line that the grammar keeps out of it.
-/

namespace PageCamel.Lib.Http1

abbrev Field := Octets × Octets

/-! ### Characters -/

def isAlpha (b : UInt8) : Bool := (0x41 ≤ b ∧ b ≤ 0x5A) ∨ (0x61 ≤ b ∧ b ≤ 0x7A)

/-- A character of a token. -/
def isTchar (b : UInt8) : Bool :=
  isDigit b ∨ isAlpha b ∨ b = 0x21 ∨ (0x23 ≤ b ∧ b ≤ 0x27) ∨ b = 0x2A ∨ b = 0x2B ∨ b = 0x2D ∨
    b = 0x2E ∨ b = 0x5E ∨ b = 0x5F ∨ b = 0x60 ∨ b = 0x7C ∨ b = 0x7E

/-- A character of a request target: no control character and no space. -/
def isTargetChar (b : UInt8) : Bool := 0x20 < b ∧ b ≠ 0x7F

/-- A character of a field value: no control character but the tab. -/
def isValueChar (b : UInt8) : Bool := b = 0x09 ∨ (0x20 ≤ b ∧ b ≠ 0x7F)

/-- Optional white space around a field value. -/
def isOws (b : UInt8) : Bool := b = 0x20 ∨ b = 0x09

def isToken (s : Octets) : Bool := s ≠ [] ∧ s.all isTchar

def isTarget (s : Octets) : Bool := s ≠ [] ∧ s.all isTargetChar

def trimOws (s : Octets) : Octets := ((s.dropWhile isOws).reverse.dropWhile isOws).reverse

/-! ### Heads -/

def renderField (f : Field) : Octets := f.1 ++ octets ": " ++ f.2 ++ crlf

def parseField (line : Octets) : Option Field :=
  match cutAt [0x3A] line with
  | none => none
  | some (name, value) =>
      if isToken name ∧ value.all isValueChar then some (name, trimOws value) else none

/-- Field lines up to the empty line, and what follows it. -/
def parseFields : Nat → Octets → Option (List Field × Octets)
  | 0, _ => none
  | fuel + 1, bytes =>
      match cutAt crlf bytes with
      | none => none
      | some ([], rest) => some ([], rest)
      | some (b :: line, rest) =>
          match parseField (b :: line), parseFields fuel rest with
          | some f, some (fields, rest) => some (f :: fields, rest)
          | _, _ => none

/-- The method and the target of a request line. -/
def parseRequestLine (line : Octets) : Option (Octets × Octets) :=
  match cutAt [0x20] line with
  | none => none
  | some (method, rest) =>
      match cutAt [0x20] rest with
      | none => none
      | some (target, version) =>
          if isToken method ∧ isTarget target ∧ version = octets "HTTP/1.1" then
            some (method, target)
          else none

/-- The values of the fields with the given (lower case) name. -/
def fieldValues (name : Octets) (fields : List Field) : List Octets :=
  (fields.filter fun f => lc f.1 = name).map (·.2)

/-! ### Bodies -/

/-- How the end of a body is found. -/
inductive Framing where
  | length (n : Nat)
  | chunked
  | untilClose
  deriving DecidableEq, Repr

/-- The one length a non-empty list of content-length values agrees on. -/
def lengthValue : List Octets → Option Nat
  | [] => none
  | v :: values =>
      if (v :: values).all fun w => w ≠ [] ∧ w.all isDigit ∧ digitsValue w = digitsValue v then
        some (digitsValue v)
      else none

/-- The framing the fields announce, and `otherwise` when they announce none. -/
def fieldFraming (otherwise : Framing) (fields : List Field) : Option Framing :=
  match fieldValues (octets "transfer-encoding") fields,
      fieldValues (octets "content-length") fields with
  | [], [] => some otherwise
  | [], values => (lengthValue values).map .length
  | [coding], [] => if lc coding = octets "chunked" then some .chunked else none
  | _, _ => none

def hexDigit? (b : UInt8) : Option Nat :=
  if isDigit b then some (b.toNat - 0x30)
  else if 0x41 ≤ b ∧ b ≤ 0x46 then some (b.toNat - 0x37)
  else if 0x61 ≤ b ∧ b ≤ 0x66 then some (b.toNat - 0x57)
  else none

def hexValue (s : Octets) : Nat := s.foldl (fun acc b => 16 * acc + (hexDigit? b).getD 0) 0

/-- The size on a chunk-size line; an extension follows a semicolon. -/
def chunkSize (line : Octets) : Option Nat :=
  let digits := line.takeWhile fun b => (hexDigit? b).isSome
  let extension := line.drop digits.length
  if digits ≠ [] ∧ (extension = [] ∨ extension.head? = some 0x3B) then some (hexValue digits)
  else none

def renderChunk (data : Octets) : Octets := numeral 16 data.length ++ crlf ++ data ++ crlf

/-- The last chunk, without trailers. -/
def lastChunk : Octets := octets "0" ++ crlf ++ crlf

/-- The data of a chunked body and what follows the body. -/
def readChunks : Nat → Octets → Option (Octets × Octets)
  | 0, _ => none
  | fuel + 1, bytes =>
      match cutAt crlf bytes with
      | none => none
      | some (line, rest) =>
          match chunkSize line with
          | none => none
          | some 0 => (parseFields (rest.length + 1) rest).map fun trailers => ([], trailers.2)
          | some (n + 1) =>
              if crlf.isPrefixOf (rest.drop (n + 1)) then
                (readChunks fuel (rest.drop (n + 3))).map fun body =>
                  (rest.take (n + 1) ++ body.1, body.2)
              else none

/-- The body of a message whose end does not depend on the connection, and what
follows it. -/
def readBody (framing : Framing) (bytes : Octets) : Option (Octets × Octets) :=
  match framing with
  | .length n => if n ≤ bytes.length then some (bytes.take n, bytes.drop n) else none
  | .chunked => readChunks (bytes.length + 1) bytes
  | .untilClose => none

/-! ### Requests -/

structure Request where
  method : Octets
  target : Octets
  fields : List Field
  body : Octets
  deriving DecidableEq, Repr

def renderFields (fields : List Field) : Octets := fields.flatMap renderField ++ crlf

def renderRequestLine (method target : Octets) : Octets :=
  method ++ [0x20] ++ target ++ [0x20] ++ octets "HTTP/1.1"

def Request.render (r : Request) : Octets :=
  renderRequestLine r.method r.target ++ crlf ++ renderFields r.fields ++ r.body

/-- One request at the front of the octets, and what follows it. A request whose
fields announce no body has none. -/
def parseRequest (bytes : Octets) : Option (Request × Octets) :=
  match cutAt crlf bytes with
  | none => none
  | some (line, rest) =>
      match parseRequestLine line, parseFields (rest.length + 1) rest with
      | some (method, target), some (fields, rest) =>
          match fieldFraming (.length 0) fields with
          | none => none
          | some framing =>
              (readBody framing rest).map fun body => (⟨method, target, fields, body.1⟩, body.2)
      | _, _ => none

/-- All requests on a connection. -/
def parseRequestsAux : Nat → Octets → Option (List Request)
  | _, [] => some []
  | 0, _ :: _ => none
  | fuel + 1, b :: bytes =>
      match parseRequest (b :: bytes) with
      | none => none
      | some (r, rest) => (parseRequestsAux fuel rest).map (r :: ·)

def parseRequests (bytes : Octets) : Option (List Request) := parseRequestsAux bytes.length bytes

/-- The fields as a recipient reads them, without the white space around a value. -/
def trimFields (fields : List Field) : List Field := fields.map fun f => (f.1, trimOws f.2)

def Request.trimmed (r : Request) : Request := { r with fields := trimFields r.fields }

/-- The line of the field is one field line. -/
def ValidField (f : Field) : Prop := isToken f.1 ∧ f.2.all isValueChar

instance (f : Field) : Decidable (ValidField f) := inferInstanceAs (Decidable (_ ∧ _))

/-- The elements of the request are such that its octets delimit them. -/
structure Request.Valid (r : Request) : Prop where
  method : isToken r.method
  target : isTarget r.target
  fields : ∀ f ∈ r.fields, ValidField f
  framing : fieldFraming (.length 0) (trimFields r.fields) = some (.length r.body.length)

/-! ### Cutting at a separator -/

theorem indexOf_append (b : UInt8) (sep line rest : Octets) (h : b ∉ line) :
    indexOf (b :: sep) (line ++ ((b :: sep) ++ rest)) = some line.length := by
  induction line with
  | nil => simp [indexOf]
  | cons c line ih =>
      rw [List.mem_cons, not_or] at h
      have hHead : (b == c) = false := by simpa using h.1
      rw [List.cons_append, indexOf, if_neg (by simp [List.isPrefixOf, hHead]), ih h.2]
      rfl

theorem cutAt_append (b : UInt8) (sep line rest : Octets) (h : b ∉ line) :
    cutAt (b :: sep) (line ++ ((b :: sep) ++ rest)) = some (line, rest) := by
  have hDrop : (line ++ ((b :: sep) ++ rest)).drop (line.length + (b :: sep).length) = rest := by
    rw [← List.drop_drop, List.drop_left, List.drop_left]
  rw [cutAt, indexOf_append b sep line rest h, Option.map_some, hDrop, List.take_left]

/-- An occurrence starts with the first octet of the separator. -/
theorem indexOf_append_left (b : UInt8) (sep line rest : Octets) (h : b ∉ line) :
    indexOf (b :: sep) (line ++ rest) = (indexOf (b :: sep) rest).map (line.length + ·) := by
  induction line with
  | nil => simp
  | cons c line ih =>
      rw [List.mem_cons, not_or] at h
      have hHead : (b == c) = false := by simpa using h.1
      rw [List.cons_append, indexOf, if_neg (by simp [List.isPrefixOf, hHead]), ih h.2,
        Option.map_map]
      congr 1
      funext i
      simp only [Function.comp, List.length_cons]
      omega

theorem cutAt_append_left (b : UInt8) (sep line rest : Octets) (h : b ∉ line) :
    cutAt (b :: sep) (line ++ rest) =
      (cutAt (b :: sep) rest).map fun cut => (line ++ cut.1, cut.2) := by
  rw [cutAt, indexOf_append_left b sep line rest h, cutAt, Option.map_map, Option.map_map]
  congr 1
  funext i
  simp only [Function.comp, Nat.add_assoc, List.take_append, List.drop_append]
  simp

theorem indexOf_length_le (sep : Octets) :
    ∀ (hay : Octets) (i : Nat), indexOf sep hay = some i → i + sep.length ≤ hay.length
  | [], i, h => by
      rw [indexOf] at h
      split at h
      · next hSep => simp_all
      · cases h
  | b :: hay, i, h => by
      rw [indexOf] at h
      split at h
      · next hPrefix =>
          cases h
          have := (List.isPrefixOf_iff_prefix.mp hPrefix).length_le
          omega
      · cases hRest : indexOf sep hay with
        | none => rw [hRest] at h; cases h
        | some j =>
            have := indexOf_length_le sep hay j hRest
            rw [hRest] at h
            cases h
            simp only [List.length_cons]
            omega

theorem cutAt_length {sep hay before after : Octets} (h : cutAt sep hay = some (before, after)) :
    before.length + sep.length + after.length = hay.length := by
  cases hIndex : indexOf sep hay with
  | none => rw [cutAt, hIndex] at h; cases h
  | some i =>
      have := indexOf_length_le sep hay i hIndex
      rw [cutAt, hIndex] at h
      cases h
      simp only [List.length_take, List.length_drop]
      omega

theorem indexOf_split (sep : Octets) :
    ∀ (hay : Octets) (i : Nat), indexOf sep hay = some i →
      hay = hay.take i ++ (sep ++ hay.drop (i + sep.length))
  | [], i, h => by
      rw [indexOf] at h
      split at h
      · next hSep => simp [hSep]
      · cases h
  | b :: hay, i, h => by
      rw [indexOf] at h
      split at h
      · next hPrefix =>
          cases h
          obtain ⟨rest, hRest⟩ := List.isPrefixOf_iff_prefix.mp hPrefix
          rw [List.take_zero, List.nil_append, Nat.zero_add, ← hRest, List.drop_left]
      · cases hTail : indexOf sep hay with
        | none => rw [hTail] at h; cases h
        | some j =>
            rw [hTail] at h
            cases h
            rw [List.take_succ_cons, List.cons_append, Nat.add_right_comm, List.drop_succ_cons,
              ← indexOf_split sep hay j hTail]

theorem cutAt_split {sep hay before after : Octets} (h : cutAt sep hay = some (before, after)) :
    hay = before ++ (sep ++ after) := by
  rw [cutAt, Option.map_eq_some_iff] at h
  obtain ⟨i, hIndex, hParts⟩ := h
  cases hParts
  exact indexOf_split sep hay i hIndex

/-! ### Field lines -/

theorem isValueChar_of_isOws {b : UInt8} (h : isOws b = true) : isValueChar b = true := by
  simp only [isOws, decide_eq_true_eq] at h
  rcases h with rfl | rfl <;> decide

theorem all_of_dropWhile {p q : UInt8 → Bool} (hpq : ∀ b, p b = true → q b = true) (s : Octets)
    (h : (s.dropWhile p).all q = true) : s.all q = true := by
  induction s with
  | nil => rfl
  | cons b s ih =>
      rw [List.dropWhile_cons] at h
      split at h
      · next hb => simp [hpq b hb, ih h]
      · exact h

theorem all_trimOws (s : Octets) : (trimOws s).all isValueChar = s.all isValueChar := by
  apply Bool.eq_iff_iff.mpr
  constructor
  · intro h
    rw [trimOws, List.all_reverse] at h
    have hRight := all_of_dropWhile (fun b => isValueChar_of_isOws) _ h
    rw [List.all_reverse] at hRight
    exact all_of_dropWhile (fun b => isValueChar_of_isOws) s hRight
  · intro h
    rw [List.all_eq_true] at h ⊢
    intro b hb
    rw [trimOws, List.mem_reverse] at hb
    have hLeft := List.mem_reverse.mp ((List.dropWhile_sublist isOws).mem hb)
    exact h b ((List.dropWhile_sublist isOws).mem hLeft)

theorem trimOws_space (s : Octets) : trimOws (0x20 :: s) = trimOws s := by
  rw [trimOws, List.dropWhile_cons_of_pos (by decide)]
  rfl

theorem dropWhile_eq_self {p : UInt8 → Bool} {s : Octets} (h : ∀ b ∈ s, p b = false) :
    s.dropWhile p = s := by
  cases s with
  | nil => rfl
  | cons b s => exact List.dropWhile_cons_of_neg (by simp [h b (List.mem_cons_self ..)])

theorem trimOws_eq_self {s : Octets} (h : ∀ b ∈ s, isOws b = false) : trimOws s = s := by
  rw [trimOws, dropWhile_eq_self h,
    dropWhile_eq_self fun b hb => h b (List.mem_reverse.mp hb), List.reverse_reverse]

theorem validField_trim (f : Field) : ValidField (f.1, trimOws f.2) ↔ ValidField f := by
  simp [ValidField, all_trimOws]

theorem not_mem_of_all {p : UInt8 → Bool} {s : Octets} {b : UInt8} (h : s.all p = true)
    (hb : p b = false) : b ∉ s := by
  intro hMem
  rw [List.all_eq_true] at h
  rw [h b hMem] at hb
  cases hb

theorem isToken_all {s : Octets} (h : isToken s = true) : s.all isTchar = true := by
  simp only [isToken, decide_eq_true_eq] at h
  exact h.2

theorem isToken_ne_nil {s : Octets} (h : isToken s = true) : s ≠ [] := by
  simp only [isToken, decide_eq_true_eq] at h
  exact h.1

theorem parseField_valid {line : Octets} {f : Field} (h : parseField line = some f) :
    ValidField f := by
  rw [parseField] at h
  split at h
  · cases h
  · next name value _ =>
      split at h
      · next hValid =>
          cases h
          exact (validField_trim (name, value)).mpr hValid
      · cases h

theorem isValueChar_of_isTchar {b : UInt8} (h : isTchar b = true) : isValueChar b = true := by
  have hAll : ∀ n : Fin 256, isTchar (UInt8.ofNat n.val) = true →
      isValueChar (UInt8.ofNat n.val) = true := by decide +kernel
  have hByte := hAll ⟨b.toNat, b.toNat_lt⟩
  rw [UInt8.ofNat_toNat] at hByte
  exact hByte h

/-- A field line has no control characters but tabs. -/
theorem parseField_chars {line : Octets} (h : (parseField line).isSome = true) :
    ∀ b ∈ line, isValueChar b = true := by
  intro b hb
  rw [parseField] at h
  split at h
  · cases h
  · next name value hCut =>
      split at h
      · next hValid =>
          rw [cutAt_split hCut, List.mem_append, List.mem_append, List.mem_singleton] at hb
          rcases hb with hb | rfl | hb
          · exact isValueChar_of_isTchar (List.all_eq_true.mp (isToken_all hValid.1) b hb)
          · decide
          · exact List.all_eq_true.mp hValid.2 b hb
      · cases h

theorem parseField_name {name value : Octets} (hName : isToken name = true) {f : Field}
    (h : parseField (name ++ 0x3A :: value) = some f) : f.1 = name := by
  have hCut := cutAt_append 0x3A [] name value (not_mem_of_all (isToken_all hName) (by decide))
  rw [parseField, show name ++ 0x3A :: value = name ++ ([0x3A] ++ value) from rfl, hCut] at h
  dsimp only at h
  split at h
  · cases h; rfl
  · cases h

theorem parseField_render {f : Field} (h : ValidField f) :
    parseField (f.1 ++ octets ": " ++ f.2) = some (f.1, trimOws f.2) := by
  have hCut := cutAt_append 0x3A [] f.1 (0x20 :: f.2)
    (not_mem_of_all (isToken_all h.1) (by decide))
  have hLine : f.1 ++ octets ": " ++ f.2 = f.1 ++ ([0x3A] ++ 0x20 :: f.2) := by
    rw [List.append_assoc]; rfl
  rw [parseField, hLine, hCut]
  dsimp only
  rw [if_pos ⟨h.1, by rw [List.all_cons, h.2]; decide⟩, trimOws_space]

theorem parseFields_valid :
    ∀ (fuel : Nat) (bytes : Octets) (fields : List Field) (rest : Octets),
      parseFields fuel bytes = some (fields, rest) → ∀ f ∈ fields, ValidField f
  | 0, _, _, _, h => by cases h
  | fuel + 1, bytes, fields, rest, h => by
      rw [parseFields] at h
      split at h
      · cases h
      · cases h
        intro f hf
        cases hf
      · next b line tail _ =>
          split at h
          · next f fields' tail' hField hTail =>
              cases h
              intro g hg
              rcases List.mem_cons.mp hg with rfl | hg
              · exact parseField_valid hField
              · exact parseFields_valid fuel tail fields' _ hTail g hg
          · cases h

/-- The first line of a head that starts with the line of a valid field. -/
theorem parseFields_renderField {f : Field} (h : ValidField f) (fuel : Nat) (tail : Octets) :
    parseFields (fuel + 1) (renderField f ++ tail) =
      (parseFields fuel tail).map fun p => ((f.1, trimOws f.2) :: p.1, p.2) := by
  have hLine : (13 : UInt8) ∉ f.1 ++ octets ": " ++ f.2 := by
    have hName := not_mem_of_all (b := 13) (isToken_all h.1) (by decide)
    have hValue := not_mem_of_all (b := 13) h.2 (by decide)
    have hColon : (13 : UInt8) ∉ octets ": " := by decide
    simp [hName, hValue, hColon]
  have hCut := cutAt_append 13 [10] _ tail hLine
  obtain ⟨b, line, hCons⟩ : ∃ b line, f.1 ++ octets ": " ++ f.2 = b :: line := by
    cases hName : f.1 with
    | nil => exact absurd hName (isToken_ne_nil h.1)
    | cons b name => exact ⟨b, name ++ octets ": " ++ f.2, rfl⟩
  have hField := parseField_render h
  rw [hCons] at hCut hField
  have hBytes : renderField f ++ tail = (b :: line) ++ ([13, 10] ++ tail) := by
    rw [← hCons, renderField]
    simp [crlf]
  rw [parseFields, hBytes, show crlf = [13, 10] from rfl, hCut]
  dsimp only
  rw [hField]
  cases parseFields fuel tail <;> rfl

theorem parseFields_cons {f : Field} (h : ValidField f) {fuel : Nat} {tail rest : Octets}
    {fields : List Field}
    (hRead : parseFields fuel (renderField f ++ tail) = some (trimFields (f :: fields), rest)) :
    ∃ fuel', parseFields fuel' tail = some (trimFields fields, rest) := by
  cases fuel with
  | zero => cases hRead
  | succ fuel =>
      rw [parseFields_renderField h, Option.map_eq_some_iff] at hRead
      obtain ⟨⟨read, after⟩, hTail, hEq⟩ := hRead
      rw [Prod.mk.injEq, trimFields, List.map_cons, List.cons.injEq] at hEq
      obtain ⟨⟨_, rfl⟩, rfl⟩ := hEq
      exact ⟨fuel, hTail⟩

/-- The name of a line that starts with a token and a colon, whatever follows. -/
theorem parseFields_renderField_name {f : Field} (hName : isToken f.1 = true) {fuel : Nat}
    {tail rest : Octets} {fields : List Field}
    (h : parseFields fuel (renderField f ++ tail) = some (fields, rest)) :
    ∃ g gs, fields = g :: gs ∧ g.1 = f.1 := by
  obtain ⟨fuel, rfl⟩ : ∃ n, fuel = n + 1 := by
    cases fuel with
    | zero => cases h
    | succ n => exact ⟨n, rfl⟩
  have hStart : (13 : UInt8) ∉ f.1 ++ octets ": " := by
    have := not_mem_of_all (b := 13) (isToken_all hName) (by decide)
    have hColon : (13 : UInt8) ∉ octets ": " := by decide
    simp [this, hColon]
  have hCut := cutAt_append_left 13 [10] _ (f.2 ++ crlf ++ tail) hStart
  have hBytes : renderField f ++ tail = f.1 ++ octets ": " ++ (f.2 ++ crlf ++ tail) := by
    simp [renderField]
  rw [parseFields, hBytes, show crlf = [13, 10] from rfl] at h
  rw [show crlf = [13, 10] from rfl] at hCut
  rw [hCut] at h
  cases hRest : cutAt [13, 10] (f.2 ++ [13, 10] ++ tail) with
  | none => rw [hRest] at h; cases h
  | some cut =>
      obtain ⟨b, name, hCons⟩ := List.exists_cons_of_ne_nil (isToken_ne_nil hName)
      have hLine : f.1 ++ octets ": " ++ cut.1 = b :: (name ++ octets ": " ++ cut.1) := by
        rw [hCons]; rfl
      rw [hRest, Option.map_some, hLine] at h
      dsimp only at h
      rw [← hLine] at h
      split at h
      · next g gs _ hField _ =>
          cases h
          refine ⟨g, gs, rfl, @parseField_name f.1 (0x20 :: cut.1) hName _ ?_⟩
          rw [← hField, List.append_assoc]
          rfl
      · cases h

theorem parseFields_render (fields : List Field) (h : ∀ f ∈ fields, ValidField f) :
    ∀ (fuel : Nat) (rest : Octets), fields.length < fuel →
      parseFields fuel (renderFields fields ++ rest) = some (trimFields fields, rest) := by
  induction fields with
  | nil =>
      intro fuel rest hFuel
      obtain ⟨fuel, rfl⟩ : ∃ n, fuel = n + 1 := ⟨fuel - 1, by simp at hFuel; omega⟩
      have hCut := cutAt_append 13 [10] [] rest (List.not_mem_nil)
      rw [parseFields, show renderFields [] ++ rest = [] ++ ([13, 10] ++ rest) from rfl,
        show crlf = [13, 10] from rfl, hCut]
      rfl
  | cons f fields ih =>
      intro fuel rest hFuel
      rw [List.length_cons] at hFuel
      obtain ⟨fuel, rfl⟩ : ∃ n, fuel = n + 1 := ⟨fuel - 1, by omega⟩
      have hBytes : renderFields (f :: fields) ++ rest =
          renderField f ++ (renderFields fields ++ rest) := by
        simp [renderFields]
      rw [hBytes, parseFields_renderField (h f (List.mem_cons_self ..)),
        ih (fun g hg => h g (List.mem_cons_of_mem _ hg)) fuel rest (by omega)]
      rfl

/-- Valid fields at the front of a head do not change how the rest is read. -/
theorem parseFields_append {front : List Field} (hFront : ∀ f ∈ front, ValidField f)
    (fields expected : List Field) (tail rest : Octets) :
    ∀ fuel, parseFields fuel (renderFields (front ++ fields) ++ tail) =
        some (trimFields (front ++ expected), rest) →
      ∃ fuel', parseFields fuel' (renderFields fields ++ tail) = some (trimFields expected, rest) := by
  induction front with
  | nil => exact fun fuel h => ⟨fuel, h⟩
  | cons f front ih =>
      intro fuel h
      have hBytes : renderFields (f :: front ++ fields) ++ tail =
          renderField f ++ (renderFields (front ++ fields) ++ tail) := by
        simp [renderFields]
      rw [hBytes] at h
      obtain ⟨fuel', hRest⟩ := parseFields_cons (hFront f (List.mem_cons_self ..)) h
      exact ih (fun g hg => hFront g (List.mem_cons_of_mem _ hg)) fuel' hRest

theorem parseFields_nil {fuel : Nat} {tail rest : Octets} {fields : List Field}
    (h : parseFields fuel (renderFields [] ++ tail) = some (fields, rest)) : fields = [] := by
  cases fuel with
  | zero => cases h
  | succ fuel =>
      have hRender := parseFields_render [] (by simp) (fuel + 1) tail (by simp)
      cases hRender.symm.trans h
      rfl

/-- When a head written with the fields of one kind is read as the fields of
another kind, there are no fields the kinds disagree on. -/
theorem parseFields_filter {p q : Octets → Bool} (hKinds : ∀ name, p name = true ∨ q name = true)
    (tail rest : Octets) (fields : List Field) :
    (∀ f ∈ fields, isToken f.1 = true) → (∀ f ∈ fields, q f.1 = true → ValidField f) →
    ∀ fuel, parseFields fuel (renderFields (fields.filter fun f => p f.1) ++ tail) =
        some (trimFields (fields.filter fun f => q f.1), rest) →
      ∀ f ∈ fields, p f.1 = true ∧ q f.1 = true := by
  induction fields with
  | nil => simp
  | cons f fields ih =>
      intro hTokens hValid fuel h
      have hTokens' := fun g hg => hTokens g (List.mem_cons_of_mem _ hg)
      have hValid' := fun g hg => hValid g (List.mem_cons_of_mem _ hg)
      have hBytes (fs : List Field) : renderFields (f :: fs) ++ tail =
          renderField f ++ (renderFields fs ++ tail) := by
        simp [renderFields]
      by_cases hp : p f.1 = true
      · rw [List.filter_cons_of_pos (p := fun f : Field => p f.1) hp, hBytes] at h
        by_cases hq : q f.1 = true
        · rw [List.filter_cons_of_pos (p := fun f : Field => q f.1) hq] at h
          obtain ⟨fuel', hRest⟩ := parseFields_cons (hValid f (List.mem_cons_self ..) hq) h
          intro g hg
          rcases List.mem_cons.mp hg with rfl | hg
          · exact ⟨hp, hq⟩
          · exact ih hTokens' hValid' fuel' hRest g hg
        · -- the line written is read under its own name, which is of the other kind
          rw [List.filter_cons_of_neg (p := fun f : Field => q f.1) hq] at h
          obtain ⟨g, gs, hEq, hName⟩ :=
            parseFields_renderField_name (hTokens f (List.mem_cons_self ..)) h
          have hMem : g ∈ trimFields (fields.filter fun f => q f.1) := by simp [hEq]
          rw [trimFields, List.mem_map] at hMem
          obtain ⟨g', hg', rfl⟩ := hMem
          exact absurd (hName ▸ (List.mem_filter.mp hg').2) hq
      · have hq := (hKinds f.1).resolve_left hp
        rw [List.filter_cons_of_neg (p := fun f : Field => p f.1) hp, List.filter_cons_of_pos (p := fun f : Field => q f.1) hq] at h
        exfalso
        cases hWritten : fields.filter fun f => p f.1 with
        | nil =>
            rw [hWritten] at h
            exact absurd (parseFields_nil h) (by simp [trimFields])
        | cons g gs =>
            have hg : g ∈ fields.filter fun f => p f.1 := by simp [hWritten]
            rw [List.mem_filter] at hg
            have hLine : renderFields (g :: gs) ++ tail =
                renderField g ++ (renderFields gs ++ tail) := by
              simp [renderFields]
            rw [hWritten, hLine] at h
            obtain ⟨_, _, hEq, hName⟩ := parseFields_renderField_name (hTokens' g hg.1) h
            cases hEq
            exact hp (hName ▸ hg.2)

theorem length_renderFields (fields : List Field) :
    fields.length < (renderFields fields).length := by
  induction fields with
  | nil => decide
  | cons f fields ih =>
      have hBytes : renderFields (f :: fields) = renderField f ++ renderFields fields := by
        simp [renderFields]
      have hField : 0 < (renderField f).length := by simp [renderField, crlf]
      rw [hBytes, List.length_append, List.length_cons]
      omega

/-! ### Requests -/

theorem parseRequestLine_valid {line method target : Octets}
    (h : parseRequestLine line = some (method, target)) :
    isToken method = true ∧ isTarget target = true := by
  rw [parseRequestLine] at h
  split at h
  · cases h
  · split at h
    · cases h
    · split at h
      · next hValid =>
          cases h
          exact ⟨hValid.1, hValid.2.1⟩
      · cases h

theorem isTarget_all {s : Octets} (h : isTarget s = true) : s.all isTargetChar = true := by
  simp only [isTarget, decide_eq_true_eq] at h
  exact h.2

theorem parseRequestLine_render {method target : Octets} (hMethod : isToken method = true)
    (hTarget : isTarget target = true) :
    parseRequestLine (renderRequestLine method target) = some (method, target) := by
  have hFirst := cutAt_append 0x20 [] method (target ++ [0x20] ++ octets "HTTP/1.1")
    (not_mem_of_all (isToken_all hMethod) (by decide))
  have hSecond := cutAt_append 0x20 [] target (octets "HTTP/1.1")
    (not_mem_of_all (isTarget_all hTarget) (by decide))
  rw [parseRequestLine, renderRequestLine, List.append_assoc, List.append_assoc,
    List.append_assoc, ← List.append_assoc target, hFirst]
  dsimp only
  rw [List.append_assoc, hSecond]
  exact if_pos ⟨hMethod, hTarget, rfl⟩

theorem cutAt_renderRequestLine {method target : Octets} (hMethod : isToken method = true)
    (hTarget : isTarget target = true) (rest : Octets) :
    cutAt crlf (renderRequestLine method target ++ (crlf ++ rest)) =
      some (renderRequestLine method target, rest) := by
  have hName := not_mem_of_all (b := 13) (isToken_all hMethod) (by decide)
  have hPath := not_mem_of_all (b := 13) (isTarget_all hTarget) (by decide)
  have hVersion : (13 : UInt8) ∉ octets "HTTP/1.1" := by decide
  exact cutAt_append 13 [10] _ rest (by simp [renderRequestLine, hName, hPath, hVersion])

theorem parseRequest_eq_some {bytes : Octets} {r : Request} {rest : Octets} :
    parseRequest bytes = some (r, rest) ↔ ∃ line head tail framing,
      cutAt crlf bytes = some (line, head) ∧
      parseRequestLine line = some (r.method, r.target) ∧
      parseFields (head.length + 1) head = some (r.fields, tail) ∧
      fieldFraming (.length 0) r.fields = some framing ∧
      readBody framing tail = some (r.body, rest) := by
  rw [parseRequest]
  constructor
  · intro h
    split at h
    · cases h
    · next line head hCut =>
        split at h
        · next method target fields tail hLine hFields =>
            split at h
            · cases h
            · next framing hFraming =>
                rw [Option.map_eq_some_iff] at h
                obtain ⟨body, hBody, hEq⟩ := h
                cases hEq
                exact ⟨line, head, tail, framing, hCut, hLine, hFields, hFraming, hBody⟩
        · cases h
  · rintro ⟨line, head, tail, framing, hCut, hLine, hFields, hFraming, hBody⟩
    rw [hCut]
    dsimp only
    rw [hLine, hFields]
    dsimp only
    rw [hFraming]
    dsimp only
    rw [hBody]
    rfl

theorem parseRequestsAux_nil {fuel : Nat} {bytes : Octets}
    (h : parseRequestsAux fuel bytes = some []) : bytes = [] := by
  cases bytes with
  | nil => rfl
  | cons b bytes =>
      cases fuel with
      | zero => cases h
      | succ fuel =>
          rw [parseRequestsAux] at h
          split at h
          · cases h
          · rw [Option.map_eq_some_iff] at h
            obtain ⟨_, _, hEq⟩ := h
            cases hEq

/-- A connection carries exactly one request when the first one takes all of it. -/
theorem parseRequests_eq_singleton {bytes : Octets} {r : Request} :
    parseRequests bytes = some [r] ↔ parseRequest bytes = some (r, []) := by
  rw [parseRequests]
  cases bytes with
  | nil =>
      have hNone : parseRequest [] = none := rfl
      simp [parseRequestsAux, hNone]
  | cons b bytes =>
      rw [List.length_cons, parseRequestsAux]
      cases hFirst : parseRequest (b :: bytes) with
      | none => simp
      | some p =>
          obtain ⟨r', rest⟩ := p
          constructor
          · intro h
            dsimp only at h
            rw [Option.map_eq_some_iff] at h
            obtain ⟨rs, hRest, hEq⟩ := h
            cases hEq
            rw [parseRequestsAux_nil hRest]
          · intro h
            cases h
            cases bytes.length <;> rfl

theorem readChunks_length :
    ∀ (fuel : Nat) (bytes body rest : Octets),
      readChunks fuel bytes = some (body, rest) → body.length < bytes.length
  | 0, _, _, _, h => by cases h
  | fuel + 1, bytes, body, rest, h => by
      rw [readChunks] at h
      split at h
      · cases h
      · next line tail hCut =>
          have hLength := cutAt_length hCut
          have hCrlf : crlf.length = 2 := rfl
          split at h
          · cases h
          · rw [Option.map_eq_some_iff] at h
            obtain ⟨trailers, _, hEq⟩ := h
            cases hEq
            simp only [List.length_nil]
            omega
          · next n _ =>
              split at h
              · rw [Option.map_eq_some_iff] at h
                obtain ⟨inner, hInner, hEq⟩ := h
                have hTail := readChunks_length fuel _ inner.1 inner.2 hInner
                cases hEq
                rw [List.length_append, List.length_take]
                rw [List.length_drop] at hTail
                omega
              · cases h

theorem lengthValue_eq_some {values : List Octets} {n : Nat} (hNonempty : values ≠ []) :
    lengthValue values = some n ↔
      ∀ v ∈ values, v ≠ [] ∧ v.all isDigit = true ∧ digitsValue v = n := by
  cases values with
  | nil => exact absurd rfl hNonempty
  | cons v values =>
      rw [lengthValue]
      constructor
      · intro h
        split at h
        · next hAll =>
            cases h
            simpa using hAll
        · cases h
      · intro h
        have hValue := (h v (List.mem_cons_self ..)).2.2
        rw [if_pos (by simpa [hValue] using h), hValue]

theorem fieldFraming_eq_length {fields : List Field} {n m : Nat}
    (hCoding : fieldValues (octets "transfer-encoding") fields = [])
    (hNone : fieldValues (octets "content-length") fields = [] → n = m) :
    fieldFraming (.length m) fields = some (.length n) ↔
      ∀ v ∈ fieldValues (octets "content-length") fields,
        v ≠ [] ∧ v.all isDigit = true ∧ digitsValue v = n := by
  rw [fieldFraming, hCoding]
  cases hValues : fieldValues (octets "content-length") fields with
  | nil => simp [hNone hValues]
  | cons v values =>
      rw [← lengthValue_eq_some (List.cons_ne_nil v values)]
      dsimp only
      cases lengthValue (v :: values) <;> simp

/-- Only a length frames a body that stands in the octets as it is. -/
theorem readBody_self {framing : Framing} {bytes : Octets}
    (h : readBody framing bytes = some (bytes, [])) : framing = .length bytes.length := by
  cases framing with
  | length n =>
      rw [readBody] at h
      split at h
      · next hLe =>
          have hDrop : bytes.drop n = [] := congrArg Prod.snd (Option.some.inj h)
          rw [List.drop_eq_nil_iff] at hDrop
          rw [Nat.le_antisymm hLe hDrop]
      · cases h
  | chunked => exact absurd (readChunks_length _ _ _ _ h) (Nat.lt_irrefl _)
  | untilClose => cases h

theorem readBody_length (bytes : Octets) :
    readBody (.length bytes.length) bytes = some (bytes, []) := by
  simp [readBody]

theorem validFields_trim (fields : List Field) :
    (∀ f ∈ trimFields fields, ValidField f) ↔ ∀ f ∈ fields, ValidField f := by
  simp only [trimFields, List.forall_mem_map]
  exact forall₂_congr fun f _ => validField_trim f

/-- A connection that carries the octets of a request carries that request and
nothing else exactly when the elements of the request are delimited. -/
theorem parseRequests_render_iff (r : Request) :
    parseRequests r.render = some [r.trimmed] ↔ r.Valid := by
  have hBytes : r.render =
      renderRequestLine r.method r.target ++ (crlf ++ (renderFields r.fields ++ r.body)) := by
    simp [Request.render]
  have hFuel : r.fields.length < (renderFields r.fields ++ r.body).length + 1 := by
    have := length_renderFields r.fields
    rw [List.length_append]
    omega
  rw [parseRequests_eq_singleton, parseRequest_eq_some, hBytes]
  constructor
  · rintro ⟨line, head, tail, framing, hCut, hLine, hFields, hFraming, hBody⟩
    obtain ⟨hMethod, hTarget⟩ := parseRequestLine_valid hLine
    have hCut' := cutAt_renderRequestLine hMethod hTarget (renderFields r.fields ++ r.body)
    cases hCut.symm.trans hCut'
    have hValid := (validFields_trim r.fields).mp (parseFields_valid _ _ _ _ hFields)
    cases hFields.symm.trans (parseFields_render r.fields hValid _ r.body hFuel)
    have hLength := readBody_self hBody
    exact ⟨hMethod, hTarget, hValid, by rw [← hLength]; exact hFraming⟩
  · intro h
    exact ⟨_, _, _, _, cutAt_renderRequestLine h.method h.target _,
      parseRequestLine_render h.method h.target, parseFields_render _ h.fields _ _ hFuel,
      h.framing, readBody_length r.body⟩

end PageCamel.Lib.Http1

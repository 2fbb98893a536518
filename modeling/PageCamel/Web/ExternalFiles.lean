import PageCamel.Lib.Octets
import PageCamel.Web.ByteRanges

/-!
Downloads with a range (`Web/DynamicFiles/External.pm`): the answer to one range or several, and
the functions that give the data piece by piece. A range `-n` is taken for the first octets
instead of the last ones, and the answer to several ranges is never given, since the length of
its parts is asked for with an argument missing.
-/

namespace PageCamel.Web.ExternalFiles

open Lib (Octets)
open Lib.Fields ByteRanges

/-- The fields of `$self->{file}` for one range, with the octets of the file. -/
structure FileState where
  content : Octets
  offs : Nat
  dataend : Nat

def seekRead (content : Octets) (offs curlength : Nat) : Octets := (content.drop offs).take curlength

/-- The data of one call, and the state for the next; there is none after `done`. -/
def fileGet (chunksize : Nat) (st : FileState) : Octets × Option FileState :=
  let curlength := st.dataend - st.offs
  if chunksize < curlength then
    (seekRead st.content st.offs chunksize, some { st with offs := st.offs + chunksize })
  else (seekRead st.content st.offs curlength, none)

/-- All that comes until `done`, if it comes within so many calls. -/
def produce {σ : Type} (get : σ → Octets × Option σ) : Nat → σ → Option Octets
  | 0, _ => none
  | fuel + 1, st =>
      match get st with
      | (data, none) => some data
      | (data, some st) => (produce get fuel st).map (data ++ ·)

/-! ### Several parts -/

/-- The entries of an accepted range that the parts are made with. -/
structure Part where
  start : Nat
  len : Nat
  rangeheader : Text

/-- The fields of `$self->{file}` for several ranges. -/
structure MultipartState where
  content : Octets
  ranges : List Part
  separator : Text
  mtype : Text
  offs : Option Nat := none
  dataend : Nat := 0

def crlf : Text := ['\r', '\n']

def asOctets (text : Text) : Octets := text.map fun c => UInt8.ofNat c.toNat

def partHeader (st : MultipartState) (okrange : Part) : Octets :=
  asOctets (st.separator ++ crlf ++ "Content-type: ".toList ++ st.mtype ++ crlf ++
    "Content-range: ".toList ++ okrange.rangeheader ++ crlf ++ crlf)

/-- The part of `file_get_multipart` behind the choice of the range. -/
def nextPiece (chunksize : Nat) (st : MultipartState) (offs : Nat) (data : Octets) :
    Octets × Option MultipartState :=
  let curlength := st.dataend - offs
  if chunksize < curlength then
    (data ++ seekRead st.content offs chunksize, some { st with offs := some (offs + chunksize) })
  else
    (data ++ seekRead st.content offs curlength ++ asOctets crlf, some { st with offs := none })

def fileGetMultipart (chunksize : Nat) (st : MultipartState) : Octets × Option MultipartState :=
  match st.offs with
  | some offs => nextPiece chunksize st offs []
  | none =>
      match st.ranges with
      | [] => (asOctets (st.separator ++ crlf), none)
      | okrange :: ranges =>
          nextPiece chunksize
            { st with ranges, offs := some okrange.start, dataend := okrange.start + okrange.len }
            okrange.start (partHeader st okrange)

/-! ### The answer -/

inductive Generator
  | fileGet (file : FileState)
  | fileGetMultipart (file : MultipartState)

/-- What `get_download` reads of `$ua`. -/
structure UserAgent where
  method : Text
  headers : Text → Option Text

inductive Download
  | status (code : Nat)
  | content (contentLength : Nat) (dataGenerator : Generator)
  | partialContent (contentLength : Nat) (contentRange : Text) (dataGenerator : Generator)
  | died (message : String)

def getRange (file : Octets) (range : Text) : Download :=
  let (start, stop) := startEnd file.length range
  if invalid file.length start stop then .status 416
  else .partialContent (num stop - num start + 1)
    ("bytes ".toList ++ start ++ ['-'] ++ stop ++ ['/'] ++ decimal file.length)
    (.fileGet { content := file, offs := num start, dataend := num stop + 1 })

/-- The length is asked for with `$self->file_get_multipart_contentlength()`. -/
def getMultirange (file : Octets) (range : Text) : Download :=
  match okRanges file.length range with
  | .error code => .status code
  | .ok okranges =>
      if hasTrickery okranges then .status 403
      else .died "Too few arguments for subroutine 'file_get_multipart_contentlength'"

def getWhole (file : Octets) (uamethod : Text) : Download :=
  if uamethod = "GET".toList then
    .content file.length (.fileGet { content := file, offs := 0, dataend := file.length })
  else if uamethod = "HEAD".toList then .status 200
  else .status 500

/-- `get_download` of a file that is there and not unmodified. The range is looked for under this
name only; `Range` is another header. -/
def getDownload (file : Octets) (ua : UserAgent) : Download :=
  match ua.headers "HTTP_RANGE".toList with
  | none => getWhole file ua.method
  | some range =>
      if ua.method = "GET".toList then
        let range := withoutUnit range
        if ',' ∉ range then getRange file range else getMultirange file range
      else getWhole file ua.method

def Generator.run (chunksize : Nat) : Generator → Nat → Option Octets
  | .fileGet file, fuel => produce (ExternalFiles.fileGet chunksize) fuel file
  | .fileGetMultipart file, fuel => produce (ExternalFiles.fileGetMultipart chunksize) fuel file

/-! ### What is asked for -/

/-- A number of a byte range. -/
structure Digits where
  text : Text
  nonempty : text ≠ []
  digits : ∀ c ∈ text, c.isDigit = true

def Digits.value (n : Digits) : Nat := Nat.ofDigitChars 10 n.text 0

/-- The range specifiers of RFC 9110, section 14. -/
inductive RangeSpec
  | between (first last : Digits)
  | starting (first : Digits)
  | suffix (length : Digits)

namespace RangeSpec

def text : RangeSpec → Text
  | between first last => first.text ++ '-' :: last.text
  | starting first => first.text ++ ['-']
  | suffix length => '-' :: length.text

/-- The first position, and the one behind the last. -/
def bounds (contentlength : Nat) : RangeSpec → Nat × Nat
  | between first last => (first.value, min (last.value + 1) contentlength)
  | starting first => (first.value, contentlength)
  | suffix length => (contentlength - length.value, contentlength)

def Selects (contentlength : Nat) (spec : RangeSpec) (i : Nat) : Prop :=
  (spec.bounds contentlength).1 ≤ i ∧ i < (spec.bounds contentlength).2

def octets (file : Octets) (spec : RangeSpec) : Octets :=
  let (first, behind) := spec.bounds file.length
  (file.drop first).take (behind - first)

def IsSuffix : RangeSpec → Prop
  | suffix _ => True
  | _ => False

/-- The positions are in the file; of a suffix, also the one behind its length. -/
def InFile (contentlength : Nat) : RangeSpec → Prop
  | between first last => first.value ≤ last.value ∧ last.value < contentlength
  | starting first => first.value < contentlength
  | suffix length => length.value < contentlength

end RangeSpec

/-- What stands between two commas: at most one specifier, with blanks. -/
structure RangeElement where
  before : Text
  spec : Option RangeSpec
  after : Text
  blank : ∀ c ∈ before ++ after, c = ' ' ∨ c = '\t'

def RangeElement.text (element : RangeElement) : Text :=
  element.before ++ (element.spec.map RangeSpec.text).getD [] ++ element.after

inductive RangeRequest
  | single (spec : RangeSpec)
  | several (first second : RangeElement) (others : List RangeElement)

def RangeRequest.header : RangeRequest → Text
  | single spec => "bytes=".toList ++ spec.text
  | several first second others =>
      "bytes=".toList ++ List.intercalate [',']
        ((first :: second :: others).map RangeElement.text)

/-- The parts of an answer, each with its header, and the separator behind them. -/
def multipartText (file : Octets) (separator mtype : Text) (parts : List Part) : Octets :=
  parts.flatMap (fun okrange =>
    partHeader { content := file, ranges := parts, separator, mtype } okrange ++
      seekRead file okrange.start okrange.len ++ asOctets crlf) ++ asOctets (separator ++ crlf)

/-- The generator gives this and says that it is done. -/
def Generator.Gives (chunksize : Nat) (generator : Generator) (data : Octets) : Prop :=
  ∃ fuel, generator.run chunksize fuel = some data

/-- One range is answered with its octets, several ones with disjoint parts that make up their
union; the length announced is that of all data. -/
def RangeRequest.ServedBy (file : Octets) (chunksize contentLength : Nat) (generator : Generator) :
    RangeRequest → Prop
  | single spec =>
      generator.Gives chunksize (spec.octets file) ∧ contentLength = (spec.octets file).length
  | several first second others =>
      ∃ (parts : List Part) (separator mtype : Text),
        (parts.Pairwise fun part part' => part.start + part.len ≤ part'.start ∨
          part'.start + part'.len ≤ part.start) ∧
        (∀ i, (∃ part ∈ parts, part.start ≤ i ∧ i < part.start + part.len) ↔
          ∃ element ∈ first :: second :: others, ∃ spec ∈ element.spec,
            spec.Selects file.length i) ∧
        generator.Gives chunksize (multipartText file separator mtype parts) ∧
        contentLength = (multipartText file separator mtype parts).length

/-- The request in the header that is looked at. -/
def UserAgent.Asks (ua : UserAgent) (request : RangeRequest) : Prop :=
  ua.headers "HTTP_RANGE".toList = some request.header

/-- Where the answer is 206, it is the right one. -/
def Correct (file : Octets) (chunksize : Nat) (ua : UserAgent) : Prop :=
  ∀ contentLength contentRange dataGenerator request,
    getDownload file ua = .partialContent contentLength contentRange dataGenerator →
      ua.Asks request → request.ServedBy file chunksize contentLength dataGenerator

/-! ### Data in pieces -/

variable {chunksize : Nat}

theorem take_seekRead {content : Octets} {offs n m : Nat} (hLess : n ≤ m) :
    seekRead content offs n ++ seekRead content (offs + n) (m - n) = seekRead content offs m := by
  rw [seekRead, seekRead, seekRead, ← List.drop_drop, ← List.take_add, Nat.add_sub_cancel' hLess]

/-- What the calls give, however many it takes. -/
theorem produce_fileGet_eq {st : FileState} {fuel : Nat} {data : Octets}
    (hRun : produce (fileGet chunksize) fuel st = some data) :
    data = seekRead st.content st.offs (st.dataend - st.offs) ∧
      (st.offs < st.dataend → 0 < chunksize) := by
  induction fuel generalizing st data with
  | zero => cases hRun
  | succ fuel ih =>
    rw [produce, fileGet] at hRun
    by_cases hMore : chunksize < st.dataend - st.offs
    · rw [if_pos hMore] at hRun
      obtain ⟨rest, hRest, rfl⟩ := Option.map_eq_some_iff.mp hRun
      obtain ⟨rfl, hChunk⟩ := ih hRest
      dsimp only at hChunk ⊢
      refine ⟨?_, fun _ => ?_⟩
      · rw [← Nat.sub_sub, take_seekRead (Nat.le_of_lt hMore)]
      · by_contra hNone
        exact hNone (hChunk (by omega))
    · rw [if_neg hMore] at hRun
      cases hRun
      exact ⟨rfl, by omega⟩

theorem produce_fileGet (hChunk : 0 < chunksize) (st : FileState) :
    ∃ fuel, produce (fileGet chunksize) fuel st =
      some (seekRead st.content st.offs (st.dataend - st.offs)) := by
  induction hLeft : st.dataend - st.offs using Nat.strongRecOn generalizing st with
  | ind left ih =>
    by_cases hMore : chunksize < st.dataend - st.offs
    · obtain ⟨fuel, hRest⟩ := ih (left - chunksize) (by omega) { st with offs := st.offs + chunksize }
        (by dsimp only; omega)
      refine ⟨fuel + 1, ?_⟩
      rw [produce, fileGet, if_pos hMore]
      dsimp only at hRest ⊢
      rw [hRest, Option.map_some, ← hLeft, take_seekRead (Nat.le_of_lt hMore)]
    · refine ⟨1, ?_⟩
      rw [produce, fileGet, if_neg hMore, hLeft]

/-! ### Reading one range -/

theorem num_of_digits {text : Text} (hDigits : ∀ c ∈ text, c.isDigit = true) :
    num text = Nat.ofDigitChars 10 text 0 := by
  have hStart : text.dropWhile isSpace = text := by
    cases text with
    | nil => rfl
    | cons c text =>
      have hDigit := hDigits c List.mem_cons_self
      refine List.dropWhile_cons_of_neg fun hSpace => ?_
      simp only [isSpace, Bool.or_eq_true, Bool.and_eq_true, decide_eq_true_iff] at hSpace
      rcases hSpace with rfl | ⟨-, hLow⟩
      · exact absurd hDigit (by decide)
      · simp only [Char.isDigit, Bool.and_eq_true, decide_eq_true_iff, ge_iff_le,
          UInt32.le_iff_toNat_le] at hDigit
        exact absurd (hDigit.1.trans hLow) (by decide)
  rw [num, hStart, List.takeWhile_eq_self_iff.mpr hDigits]

theorem num_text (n : Digits) : num n.text = n.value := num_of_digits n.digits

theorem digits_decimal (n : Nat) : ∀ c ∈ decimal n, c.isDigit = true :=
  fun _ hc => Nat.isDigit_of_mem_toDigits (by decide) (by decide) hc

theorem num_decimal (n : Nat) : num (decimal n) = n := by
  rw [num_of_digits (digits_decimal n), decimal, Nat.ofDigitChars_ten_toDigits]

theorem not_mem_of_digits {text : Text} {c : Char} (hDigits : ∀ c ∈ text, c.isDigit = true)
    (hOther : c.isDigit = false) : c ∉ text :=
  fun hMem => absurd (hDigits c hMem) (by simp [hOther])

theorem fields_dash {start stop : Text} (hStart : ∀ c ∈ start, c.isDigit = true)
    (hStop : ∀ c ∈ stop, c.isDigit = true) (hSome : stop ≠ []) :
    fields '-' (start ++ '-' :: stop) = [start, stop] := by
  have hFree : ∀ field ∈ [start, stop], '-' ∉ field := by
    intro field hField
    rcases List.mem_pair.mp hField with rfl | rfl
    · exact not_mem_of_digits hStart (by decide)
    · exact not_mem_of_digits hStop (by decide)
  have hJoin : start ++ '-' :: stop = List.intercalate ['-'] [start, stop] := by simp
  rw [hJoin, fields_intercalate hFree, List.rdropWhile_eq_self_iff]
  simpa using hSome

theorem head_ne_dash {text rest : Text} (hDigits : ∀ c ∈ text, c.isDigit = true) (hSome : text ≠ []) :
    (text ++ rest).head? ≠ some '-' := by
  obtain ⟨c, text, rfl⟩ := List.exists_cons_of_ne_nil hSome
  rw [List.cons_append, List.head?_cons]
  intro hDash
  have hMem : '-' ∈ c :: text := by
    rw [Option.some.inj hDash]
    exact List.mem_cons_self
  exact not_mem_of_digits hDigits (by decide) hMem

theorem getLast_ne_dash {text front : Text} (hDigits : ∀ c ∈ text, c.isDigit = true)
    (hSome : text ≠ []) : (front ++ text).getLast? ≠ some '-' := by
  rw [List.getLast?_append_of_ne_nil _ hSome, List.getLast?_eq_getLast_of_ne_nil hSome]
  intro hDash
  have hMem := List.getLast_mem hSome
  rw [Option.some.inj hDash] at hMem
  exact not_mem_of_digits hDigits (by decide) hMem

variable (contentlength : Nat)

theorem startEnd_between (first last : Digits) :
    startEnd contentlength (RangeSpec.between first last).text = (first.text, last.text) := by
  have hHead : (RangeSpec.between first last).text.head? ≠ some '-' :=
    head_ne_dash first.digits first.nonempty
  have hLast : (RangeSpec.between first last).text.getLast? ≠ some '-' := by
    rw [RangeSpec.text, List.append_cons]
    exact getLast_ne_dash last.digits last.nonempty
  rw [startEnd, shorthand, if_neg hHead, if_neg hLast, RangeSpec.text,
    fields_dash first.digits last.digits last.nonempty]
  rfl

theorem startEnd_starting (first : Digits) (hSome : 0 < contentlength) :
    startEnd contentlength (RangeSpec.starting first).text =
      (first.text, decimal (contentlength - 1)) := by
  have hHead : (RangeSpec.starting first).text.head? ≠ some '-' :=
    head_ne_dash first.digits first.nonempty
  have hLast : (RangeSpec.starting first).text.getLast? = some '-' := by
    rw [RangeSpec.text, List.getLast?_concat]
  have hDecimal : decimal (contentlength - 1) ≠ [] := Nat.toDigits_ne_nil
  rw [startEnd, shorthand, if_neg hHead, if_pos hLast, lastPosition, if_neg (Nat.ne_of_gt hSome),
    RangeSpec.text, List.append_assoc, List.singleton_append,
    fields_dash first.digits (digits_decimal _) hDecimal]
  rfl

theorem startEnd_suffix (length : Digits) :
    startEnd contentlength (RangeSpec.suffix length).text = (['0'], length.text) := by
  have hHead : (RangeSpec.suffix length).text.head? = some '-' := rfl
  have hLast : ('0' :: (RangeSpec.suffix length).text).getLast? ≠ some '-' := by
    show (['0', '-'] ++ length.text).getLast? ≠ some '-'
    exact getLast_ne_dash length.digits length.nonempty
  have hFields : fields '-' ('0' :: (RangeSpec.suffix length).text) = [['0'], length.text] :=
    @fields_dash ['0'] length.text (List.forall_mem_singleton.mpr (by decide)) length.digits length.nonempty
  rw [startEnd, shorthand, if_pos hHead, if_neg hLast, hFields]
  rfl

/-- The positions that the code takes a specifier for. -/
def RangeSpec.taken : RangeSpec → Nat × Nat
  | between first last => (first.value, last.value)
  | starting first => (first.value, contentlength - 1)
  | suffix length => (0, length.value)

variable {contentlength} {file : Octets} {spec : RangeSpec}

theorem num_startEnd (hSome : 0 < contentlength) :
    num (startEnd contentlength spec.text).1 = (spec.taken contentlength).1 ∧
      num (startEnd contentlength spec.text).2 = (spec.taken contentlength).2 := by
  cases spec with
  | between first last =>
    rw [startEnd_between]
    exact ⟨num_text first, num_text last⟩
  | starting first =>
    rw [startEnd_starting contentlength first hSome]
    exact ⟨num_text first, num_decimal _⟩
  | suffix length =>
    rw [startEnd_suffix]
    exact ⟨rfl, num_text length⟩

theorem inFile_iff (hSome : 0 < contentlength) : spec.InFile contentlength ↔
    (spec.taken contentlength).2 < contentlength ∧
      (spec.taken contentlength).1 ≤ (spec.taken contentlength).2 := by
  cases spec with
  | between first last => exact and_comm
  | starting first =>
    simp only [RangeSpec.InFile, RangeSpec.taken]
    omega
  | suffix length => simp [RangeSpec.InFile, RangeSpec.taken]

theorem length_pos_of_inFile (hInFile : spec.InFile contentlength) : 0 < contentlength := by
  cases spec with
  | between first last => exact Nat.lt_of_le_of_lt (Nat.zero_le _) hInFile.2
  | starting first => exact Nat.lt_of_le_of_lt (Nat.zero_le _) hInFile
  | suffix length => exact Nat.lt_of_le_of_lt (Nat.zero_le _) hInFile

theorem invalid_iff : invalid contentlength (startEnd contentlength spec.text).1
    (startEnd contentlength spec.text).2 = true ↔ ¬ spec.InFile contentlength := by
  rcases Nat.eq_zero_or_pos contentlength with rfl | hSome
  · have hNone : ¬ spec.InFile 0 := fun hInFile => absurd (length_pos_of_inFile hInFile) (by decide)
    simp [invalid, hNone]
  · rw [inFile_iff hSome, invalid, (num_startEnd hSome).1, (num_startEnd hSome).2]
    simp
    omega

theorem getRange_inFile (hInFile : spec.InFile file.length) : ∃ contentRange,
    getRange file spec.text = .partialContent
      ((spec.taken file.length).2 - (spec.taken file.length).1 + 1) contentRange
      (.fileGet { content := file, offs := (spec.taken file.length).1,
                  dataend := (spec.taken file.length).2 + 1 }) := by
  have hValid : ¬ invalid file.length (startEnd file.length spec.text).1
      (startEnd file.length spec.text).2 = true := fun hInvalid => invalid_iff.mp hInvalid hInFile
  obtain ⟨hStart, hStop⟩ := @num_startEnd _ spec (length_pos_of_inFile hInFile)
  refine ⟨"bytes ".toList ++ (startEnd file.length spec.text).1 ++ ['-'] ++
    (startEnd file.length spec.text).2 ++ ['/'] ++ decimal file.length, ?_⟩
  simp only [getRange, if_neg hValid, hStart, hStop]

theorem getRange_not_inFile (hOut : ¬ spec.InFile file.length) :
    getRange file spec.text = .status 416 := by
  simp only [getRange, invalid_iff.mpr hOut, if_true]

/-! ### The header -/

theorem withoutUnit_append {text : Text} (hText : '=' ∉ text) (unit : Text) :
    withoutUnit (unit ++ '=' :: text) = text := by
  have hKept : ∀ c ∈ text.reverse, decide (c ≠ '=') = true := by
    intro c hc
    refine decide_eq_true fun hEq => hText ?_
    rw [← hEq]
    exact List.mem_reverse.mp hc
  rw [withoutUnit, List.reverse_append, List.reverse_cons, List.append_assoc,
    List.takeWhile_append_of_pos hKept, List.singleton_append, List.takeWhile_cons_of_neg (by simp),
    List.append_nil, List.reverse_reverse]

theorem mem_text {c : Char} (hMem : c ∈ spec.text) : c.isDigit = true ∨ c = '-' := by
  cases spec with
  | between first last =>
    rcases List.mem_append.mp hMem with hFirst | hRest
    · exact .inl (first.digits c hFirst)
    · rcases List.mem_cons.mp hRest with hDash | hLast
      · exact .inr hDash
      · exact .inl (last.digits c hLast)
  | starting first =>
    rcases List.mem_append.mp hMem with hFirst | hDash
    · exact .inl (first.digits c hFirst)
    · exact .inr (List.mem_singleton.mp hDash)
  | suffix length =>
    rcases List.mem_cons.mp hMem with hDash | hLength
    · exact .inr hDash
    · exact .inl (length.digits c hLength)

theorem not_mem_text {c : Char} (hOther : c.isDigit = false) (hDash : c ≠ '-') : c ∉ spec.text := by
  intro hMem
  rcases mem_text hMem with hDigit | hEq
  · rw [hOther] at hDigit
    cases hDigit
  · exact hDash hEq

theorem getDownload_eq {file : Octets} {ua : UserAgent} {request : RangeRequest}
    (hAsks : ua.Asks request) (hGet : ua.method = "GET".toList) :
    getDownload file ua =
      if ',' ∉ withoutUnit request.header then getRange file (withoutUnit request.header)
      else getMultirange file (withoutUnit request.header) := by
  rw [UserAgent.Asks] at hAsks
  simp only [getDownload, hAsks, if_pos hGet]

/-- Only a `GET` is answered with a part. -/
theorem method_of_partialContent {file : Octets} {ua : UserAgent} {contentLength : Nat}
    {contentRange : Text} {dataGenerator : Generator}
    (hAnswer : getDownload file ua = .partialContent contentLength contentRange dataGenerator) :
    ua.method = "GET".toList := by
  have hWhole : getWhole file ua.method ≠ .partialContent contentLength contentRange dataGenerator := by
    rw [getWhole]
    split_ifs <;> exact nofun
  rw [getDownload] at hAnswer
  split at hAnswer
  · exact absurd hAnswer hWhole
  · split_ifs at hAnswer with hGet
    all_goals first | exact hGet | exact absurd hAnswer hWhole

theorem getDownload_single {ua : UserAgent} (hAsks : ua.Asks (.single spec))
    (hGet : ua.method = "GET".toList) : getDownload file ua = getRange file spec.text := by
  have hUnit : withoutUnit (RangeRequest.single spec).header = spec.text :=
    withoutUnit_append (not_mem_text (by decide) (by decide)) "bytes".toList
  have hComma : ',' ∉ spec.text := not_mem_text (by decide) (by decide)
  rw [getDownload_eq hAsks hGet, hUnit, if_pos hComma]

theorem equals_not_mem (element : RangeElement) : '=' ∉ element.text := by
  have hBlank : ∀ {text : Text}, (∀ c ∈ text, c = ' ' ∨ c = '\t') → '=' ∉ text := by
    intro text hText hMem
    rcases hText '=' hMem with hSpace | hTab
    · exact absurd hSpace (by decide)
    · exact absurd hTab (by decide)
  intro hMem
  rw [RangeElement.text, List.mem_append, List.mem_append] at hMem
  rcases hMem with (hBefore | hSpec) | hAfter
  · exact hBlank (fun c hc => element.blank c (List.mem_append_left _ hc)) hBefore
  · cases hSome : element.spec with
    | none => simp [hSome] at hSpec
    | some spec =>
      rw [hSome] at hSpec
      exact not_mem_text (by decide) (by decide) hSpec
  · exact hBlank (fun c hc => element.blank c (List.mem_append_right _ hc)) hAfter

theorem not_mem_intercalate {sep c : Char} (hSep : c ≠ sep) {texts : List Text}
    (hTexts : ∀ text ∈ texts, c ∉ text) : c ∉ List.intercalate [sep] texts := by
  induction texts with
  | nil => exact List.not_mem_nil
  | cons text texts ih =>
    rw [List.forall_mem_cons] at hTexts
    cases texts with
    | nil =>
      rw [List.intercalate_singleton]
      exact hTexts.1
    | cons next texts =>
      rw [List.intercalate_cons_cons, List.mem_append, List.mem_append, List.mem_singleton]
      rintro ((hText | hOwn) | hRest)
      · exact hTexts.1 hText
      · exact hSep hOwn
      · exact ih hTexts.2 hRest

theorem getDownload_several {ua : UserAgent} {first second : RangeElement}
    {others : List RangeElement} (hAsks : ua.Asks (.several first second others))
    (hGet : ua.method = "GET".toList) :
    ∃ range, getDownload file ua = getMultirange file range := by
  have hEquals : '=' ∉ List.intercalate [',']
      ((first :: second :: others).map RangeElement.text) := by
    apply not_mem_intercalate (by decide)
    intro text hText
    obtain ⟨element, -, rfl⟩ := List.mem_map.mp hText
    exact equals_not_mem element
  have hUnit : withoutUnit (RangeRequest.several first second others).header = _ :=
    withoutUnit_append hEquals "bytes".toList
  refine ⟨withoutUnit (RangeRequest.several first second others).header, ?_⟩
  rw [getDownload_eq hAsks hGet]
  refine if_neg ?_
  rw [hUnit]
  simp

/-- Several ranges are never answered with 206. -/
theorem getMultirange_ne (file : Octets) (range : Text) (contentLength : Nat) (contentRange : Text)
    (dataGenerator : Generator) :
    getMultirange file range ≠ .partialContent contentLength contentRange dataGenerator := by
  rw [getMultirange]
  split
  · exact nofun
  · split
    · exact nofun
    · exact nofun

/-! ### The octets of one range -/

theorem length_seekRead {content : Octets} {offs n : Nat} (hIn : offs + n ≤ content.length) :
    (seekRead content offs n).length = n := by
  rw [seekRead, List.length_take, List.length_drop]
  omega

theorem octets_eq (hInFile : spec.InFile file.length) (hPlain : ¬ spec.IsSuffix) :
    spec.octets file = seekRead file (spec.taken file.length).1
      ((spec.taken file.length).2 + 1 - (spec.taken file.length).1) := by
  have hSome := length_pos_of_inFile hInFile
  cases spec with
  | between first last =>
    have hMin : min (last.value + 1) file.length = last.value + 1 := Nat.min_eq_left hInFile.2
    simp only [RangeSpec.octets, RangeSpec.bounds, hMin]
    rfl
  | starting first =>
    simp only [RangeSpec.octets, RangeSpec.bounds, RangeSpec.taken, Nat.sub_add_cancel hSome]
    rfl
  | suffix length => exact absurd trivial hPlain

/-- One octet more than the suffix has. -/
theorem length_octets_suffix (length : Digits) (hInFile : (RangeSpec.suffix length).InFile file.length) :
    ((RangeSpec.suffix length).octets file).length = length.value := by
  have hLess : length.value < file.length := hInFile
  simp only [RangeSpec.octets, RangeSpec.bounds, List.length_take, List.length_drop]
  omega

theorem servedBy_of_sound (hSound : spec.InFile file.length → 0 < chunksize ∧ ¬ spec.IsSuffix)
    {contentLength : Nat} {contentRange : Text} {dataGenerator : Generator}
    (hAnswer : getRange file spec.text = .partialContent contentLength contentRange dataGenerator) :
    (RangeRequest.single spec).ServedBy file chunksize contentLength dataGenerator := by
  by_cases hInFile : spec.InFile file.length
  · obtain ⟨hChunk, hPlain⟩ := hSound hInFile
    obtain ⟨hBelow, hOrder⟩ := (inFile_iff (length_pos_of_inFile hInFile)).mp hInFile
    obtain ⟨_, hGiven⟩ := getRange_inFile hInFile
    rw [hGiven] at hAnswer
    cases hAnswer
    refine ⟨?_, ?_⟩
    · rw [octets_eq hInFile hPlain]
      exact produce_fileGet hChunk _
    · rw [octets_eq hInFile hPlain, length_seekRead (by omega)]
      omega
  · rw [getRange_not_inFile hInFile] at hAnswer
    cases hAnswer

theorem sound_of_correct {ua : UserAgent} (hCorrect : Correct file chunksize ua)
    (hAsks : ua.Asks (.single spec)) (hGet : ua.method = "GET".toList)
    (hInFile : spec.InFile file.length) : 0 < chunksize ∧ ¬ spec.IsSuffix := by
  obtain ⟨hBelow, hOrder⟩ := (inFile_iff (length_pos_of_inFile hInFile)).mp hInFile
  obtain ⟨_, hGiven⟩ := getRange_inFile hInFile
  obtain ⟨⟨fuel, hRun⟩, -⟩ := hCorrect _ _ _ _ ((getDownload_single hAsks hGet).trans hGiven) hAsks
  obtain ⟨hData, hChunk⟩ := produce_fileGet_eq hRun
  refine ⟨hChunk (by dsimp only; omega), fun hSuffix => ?_⟩
  cases spec with
  | suffix length =>
    have hLength := congrArg List.length hData
    rw [length_octets_suffix length hInFile] at hLength
    dsimp only at hLength hBelow hOrder
    rw [length_seekRead (by omega)] at hLength
    simp only [RangeSpec.taken] at hLength
    omega
  | between first last => exact hSuffix
  | starting first => exact hSuffix

/-- Where the code answers 206, the data and the length are right, except for a suffix. -/
theorem download_correct_iff (file : Octets) (chunksize : Nat) (ua : UserAgent) :
    Correct file chunksize ua ↔ ∀ spec, ua.method = "GET".toList → ua.Asks (.single spec) →
      spec.InFile file.length → 0 < chunksize ∧ ¬ spec.IsSuffix := by
  constructor
  · exact fun hCorrect spec hGet hAsks => sound_of_correct hCorrect hAsks hGet
  · intro hSound contentLength contentRange dataGenerator request hAnswer hAsks
    have hGet := method_of_partialContent hAnswer
    cases request with
    | single spec =>
      rw [getDownload_single hAsks hGet] at hAnswer
      exact servedBy_of_sound (hSound spec hGet hAsks) hAnswer
    | several first second others =>
      obtain ⟨range, hRange⟩ := @getDownload_several file _ _ _ _ hAsks hGet
      rw [hRange] at hAnswer
      exact absurd hAnswer (getMultirange_ne file range _ _ _)

/-- A `GET` with this one header. -/
def asking (request : RangeRequest) : UserAgent where
  method := "GET".toList
  headers name := if name = "HTTP_RANGE".toList then some request.header else none

theorem asks_asking (request : RangeRequest) : (asking request).Asks request := by
  simp only [UserAgent.Asks, asking, if_true]

/-- The last octet of three: the answer has the first two. -/
theorem not_correct_suffix : ¬ ∀ file chunksize ua, 0 < chunksize →
    Correct file chunksize ua := by
  intro hAll
  let spec : RangeSpec := .suffix ⟨['1'], by decide, List.forall_mem_singleton.mpr (by decide)⟩
  exact (sound_of_correct (hAll [1, 2, 3] 50000 _ (by decide)) (asks_asking (.single spec)) rfl
    (show Digits.value _ < 3 by decide)).2 trivial

end PageCamel.Web.ExternalFiles

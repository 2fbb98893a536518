import PageCamel.Lib.Http1Response

/-!
The last part of `process_request`: from the result of a page to the head and the body that
are written, and when these are one HTTP/1.1 response.
-/

namespace PageCamel.WebBase
open PageCamel.Lib PageCamel.Lib.Http1

/-! ### Results -/

/-- A string is made of octets, or of characters when it has the flag of `is_utf8`. -/
inductive PerlString where
  | octets (s : Octets)
  | characters (s : List Char)
  deriving DecidableEq, Repr

def encodeUtf8 (s : List Char) : Octets := s.flatMap String.utf8EncodeChar

/-- What `write` puts out for a string. -/
def PerlString.written : PerlString → Octets
  | .octets s => s
  | .characters s => encodeUtf8 s

/-- The length that goes into the head. -/
def PerlString.contentLength : PerlString → Nat
  | .octets s => s.length
  | .characters s => (encodeUtf8 s).length

/-- The keys of a result that the body and its length depend on. `dataGenerator` has the parts
the generator gives until it is done. -/
structure PageResult where
  status : Nat
  data : Option PerlString := none
  contentLength : Option Nat := none
  transferEncoding : Option Octets := none
  dataGenerator : Option (List PerlString) := none
  keepalive : Option Bool := none
  deriving DecidableEq, Repr

/-- `%fallbackresult`. -/
def fallbackresult : PageResult where
  status := 404
  data := some (.octets (octets ("Error 404: Kindly check your URL and try again!\n" ++
    "If you think this error is in error, please contact your " ++
    "system administrator or local network expert\n.")))

/-- A page without data for the two codes that pages leave to the server. -/
def PageResult.withDefaultPage (method : Octets) (result : PageResult) : PageResult :=
  if result.data = none then
    if result.status = 404 then fallbackresult
    else if result.status = 405 then
      { result with data := some (.octets (octets "The requested method " ++ 39 :: method ++
          39 :: octets " is not available for this resource.")) }
    else result
  else result

/-! ### The response -/

/-- The lines of all other keys of `%header`, none of which says how the body ends. -/
structure OtherFields where
  fields : List Field
  unframed : ∀ f ∈ fields, lc f.1 ≠ octets "transfer-encoding" ∧ lc f.1 ≠ octets "content-length"

/-- What is written: a head, and the octets after its empty line. -/
structure Written where
  status : Nat
  fields : List Field
  body : Octets
  keepalive : Bool

/-- The codes that have their data deleted. -/
def noBodyCodes : List Nat := [100, 101, 204, 205, 304]

/-- `$header{"-Content-Length"}`. -/
def announcedLength (result : PageResult) (data : Option PerlString) : Option Nat :=
  match data with
  | some data => if result.transferEncoding = none then some data.contentLength else none
  | none =>
      match result.contentLength with
      | some n => some n
      | none => if result.transferEncoding = none then some 0 else none

def PageResult.dataOctets (result : PageResult) : Octets :=
  (result.data.map PerlString.written).getD []

def PageResult.generated (result : PageResult) : Octets :=
  (result.dataGenerator.getD []).flatMap PerlString.written

def respond (method : Octets) (headAutomagic keepalive : Bool) (others : OtherFields)
    (result : PageResult) : Written :=
  let result := result.withDefaultPage method
  let result := if result.status ∈ noBodyCodes then { result with data := none } else result
  let codings := result.transferEncoding.toList.map fun coding => (octets "Transfer-Encoding", coding)
  let lengths := (announcedLength result result.data).toList.map fun n =>
    (octets "Content-Length", decimal n)
  -- Only the content of an answer to HEAD is dropped, the headers stay.
  let result :=
    if headAutomagic ∧ method = octets "HEAD" then { result with data := none } else result
  let generated := if result.status = 101 then [] else result.generated
  { status := result.status
    fields := codings ++ lengths ++ others.fields
    body := result.dataOctets ++ generated
    keepalive := keepalive && result.keepalive.getD true && result.status ≠ 101 }

/-! ### One response -/

/-- The method and the status leave no room for a body. -/
def bodyless (method : Octets) (status : Nat) : Bool :=
  method = octets "HEAD" ∨ status / 100 = 1 ∨ status = 204 ∨ status = 304

/-- How a client finds the end of the response. -/
def Written.framing (method : Octets) (w : Written) : Option Framing :=
  if bodyless method w.status then some (.length 0) else fieldFraming .untilClose (trimFields w.fields)

/-- The client takes all that is written as one response, whether or not the connection
stays open. -/
def Written.OneResponse (method : Octets) (w : Written) : Prop :=
  ∃ framing, w.framing method = some framing ∧ ∃ content, readBody framing w.body = some (content, [])

/-- A generator that comes with a `content_length` gives that many octets. -/
def PageResult.KeepsLength (result : PageResult) : Prop :=
  result.dataGenerator ≠ none → ∀ n, result.contentLength = some n → result.generated.length = n

/-- The result of a page leads to one response. Without room for a body nothing is generated,
and there is no data unless it is dropped. Else a generator comes with `content_length`, without
data, and a `content_length` without data comes with a generator; and with `transfer-encoding` it
is the page that writes chunks. -/
def PageResult.Fits (method : Octets) (headAutomagic : Bool) (result : PageResult) : Prop :=
  if bodyless method result.status then
    (result.status ≠ 101 → result.generated = []) ∧
      (result.status ∉ noBodyCodes → ¬ (headAutomagic ∧ method = octets "HEAD") →
        result.dataOctets = [])
  else
    let hasData := result.data ≠ none ∧ result.status ≠ 205
    match result.transferEncoding with
    | none =>
        if hasData then result.generated = []
        else (result.contentLength = none → result.generated = []) ∧
          (result.dataGenerator = none → result.contentLength.getD 0 = 0)
    | some coding =>
        (hasData ∨ result.contentLength = none) ∧ lc (trimOws coding) = octets "chunked" ∧
          ∃ content, readBody .chunked
            ((if hasData then result.dataOctets else []) ++ result.generated) = some (content, [])

theorem contentLength_written (s : PerlString) : s.contentLength = s.written.length := by
  cases s <;> rfl

theorem fieldValues_append (name : Octets) (fields fields' : List Field) :
    fieldValues name (fields ++ fields') = fieldValues name fields ++ fieldValues name fields' := by
  simp [fieldValues]

theorem fieldValues_others {others : OtherFields} {name : Octets}
    (hName : name = octets "transfer-encoding" ∨ name = octets "content-length") :
    fieldValues name (trimFields others.fields) = [] := by
  simp only [fieldValues, List.map_eq_nil_iff, List.filter_eq_nil_iff, decide_eq_true_eq]
  intro f hMem hSame
  obtain ⟨f', hOld, rfl⟩ := List.mem_map.mp hMem
  rcases hName with rfl | rfl
  · exact (others.unframed f' hOld).1 hSame
  · exact (others.unframed f' hOld).2 hSame

theorem trimOws_decimal (n : Nat) : trimOws (decimal n) = decimal n := by
  refine trimOws_eq_self fun b hb => ?_
  have hDigit := List.all_eq_true.mp (decimal_spec n).2.1 b hb
  simp only [isDigit, decide_eq_true_eq] at hDigit
  simp only [isOws, decide_eq_false_iff_not, not_or]
  constructor <;> rintro rfl <;> exact absurd hDigit (by decide)

/-- The framing of a head with at most one coding and at most one length. -/
theorem fieldFraming_written (coding : Option Octets) (length : Option Nat) (others : OtherFields) :
    fieldFraming .untilClose (trimFields
        (coding.toList.map (fun coding => (octets "Transfer-Encoding", coding)) ++
          length.toList.map (fun n => (octets "Content-Length", decimal n)) ++ others.fields)) =
      match coding, length with
      | none, none => some .untilClose
      | none, some n => some (.length n)
      | some coding, none => if lc (trimOws coding) = octets "chunked" then some .chunked else none
      | some _, some _ => none := by
  have hCoding : lc (octets "Transfer-Encoding") = octets "transfer-encoding" := by decide
  have hLength : lc (octets "Content-Length") = octets "content-length" := by decide
  have hNe : octets "transfer-encoding" ≠ octets "content-length" := by decide
  have hTrim (fields fields' : List Field) :
      trimFields (fields ++ fields') = trimFields fields ++ trimFields fields' := List.map_append
  have hCodings : fieldValues (octets "transfer-encoding") (trimFields
      (coding.toList.map (fun coding => (octets "Transfer-Encoding", coding)) ++
        length.toList.map (fun n => (octets "Content-Length", decimal n)) ++ others.fields)) =
      coding.toList.map trimOws := by
    rw [hTrim, hTrim, fieldValues_append, fieldValues_append, fieldValues_others (.inl rfl)]
    cases coding <;> cases length <;>
      simp [trimFields, fieldValues, hCoding, hLength, Ne.symm hNe]
  have hLengths : fieldValues (octets "content-length") (trimFields
      (coding.toList.map (fun coding => (octets "Transfer-Encoding", coding)) ++
        length.toList.map (fun n => (octets "Content-Length", decimal n)) ++ others.fields)) =
      length.toList.map decimal := by
    rw [hTrim, hTrim, fieldValues_append, fieldValues_append, fieldValues_others (.inr rfl)]
    cases coding <;> cases length <;>
      simp [trimFields, fieldValues, hCoding, hLength, hNe, trimOws_decimal]
  rw [fieldFraming, hCodings, hLengths]
  cases coding with
  | none =>
      cases length with
      | none => rfl
      | some n =>
          have hValue : lengthValue [decimal n] = some n :=
            (lengthValue_eq_some (List.cons_ne_nil _ _)).mpr fun v hv =>
              List.mem_singleton.mp hv ▸ decimal_spec n
          simp [hValue]
  | some coding => cases length <;> rfl

/-- Exactly the empty body is read as none. -/
theorem readBody_zero (body : Octets) :
    (∃ content, readBody (.length 0) body = some (content, [])) ↔ body = [] := by
  simp [readBody]

theorem readBody_length_iff (n : Nat) (body : Octets) :
    (∃ content, readBody (.length n) body = some (content, [])) ↔ body.length = n := by
  constructor
  · rintro ⟨content, hRead⟩
    rw [readBody] at hRead
    split at hRead
    · next hLe =>
        have hDrop : body.drop n = [] := congrArg Prod.snd (Option.some.inj hRead)
        exact Nat.le_antisymm (List.drop_eq_nil_iff.mp hDrop) hLe
    · cases hRead
  · rintro rfl
    exact ⟨body, readBody_length body⟩

/-- The data that is left after the codes without a body. -/
def PageResult.keptData (result : PageResult) : Option PerlString :=
  if result.status ∈ noBodyCodes then none else result.data

/-- What is written after the head, and the head, from the result with its default page. -/
theorem respond_eq (method : Octets) (headAutomagic keepalive : Bool) (others : OtherFields)
    (result : PageResult) {page : PageResult} (hPage : result.withDefaultPage method = page) :
    (respond method headAutomagic keepalive others result).status = page.status ∧
    (respond method headAutomagic keepalive others result).fields =
      page.transferEncoding.toList.map (fun coding => (octets "Transfer-Encoding", coding)) ++
        (announcedLength page page.keptData).toList.map (fun n =>
          (octets "Content-Length", decimal n)) ++ others.fields ∧
    (respond method headAutomagic keepalive others result).body =
      (if headAutomagic ∧ method = octets "HEAD" then []
        else (page.keptData.map PerlString.written).getD []) ++
        (if page.status = 101 then [] else page.generated) := by
  rw [respond, hPage, PageResult.keptData]
  by_cases hCode : page.status ∈ noBodyCodes <;>
    by_cases hHead : headAutomagic = true ∧ method = octets "HEAD" <;>
      simp [hCode, hHead, PageResult.dataOctets, PageResult.generated, announcedLength]

theorem keepsLength_withDefaultPage {method : Octets} {result : PageResult}
    (hKeeps : result.KeepsLength) : (result.withDefaultPage method).KeepsLength := by
  rw [PageResult.withDefaultPage]
  split
  · split
    · exact fun hGenerator => absurd rfl hGenerator
    · split
      · exact hKeeps
      · exact hKeeps
  · exact hKeeps

/-- A response without room for a body. -/
theorem oneResponse_bodyless {method : Octets} {headAutomagic keepalive : Bool}
    {others : OtherFields} {result page : PageResult} (hPage : result.withDefaultPage method = page)
    (hBodyless : bodyless method page.status = true) :
    (respond method headAutomagic keepalive others result).OneResponse method ↔
      (page.status ≠ 101 → page.generated = []) ∧
        (page.status ∉ noBodyCodes → ¬ (headAutomagic ∧ method = octets "HEAD") →
          page.dataOctets = []) := by
  obtain ⟨hStatus, -, hBody⟩ := respond_eq method headAutomagic keepalive others result hPage
  simp only [Written.OneResponse, Written.framing, hStatus, hBodyless, if_true, Option.some.injEq,
    exists_eq_left', readBody_zero, hBody, List.append_eq_nil_iff]
  rw [and_comm]
  refine and_congr ?_ ?_
  · by_cases hUpgrade : page.status = 101 <;> simp [hUpgrade]
  · by_cases hHead : headAutomagic = true ∧ method = octets "HEAD" <;>
      by_cases hCode : page.status ∈ noBodyCodes <;>
        simp [hHead, hCode, PageResult.keptData, PageResult.dataOctets]

theorem keptData_body {method : Octets} {page : PageResult}
    (hBody : bodyless method page.status = false) :
    method ≠ octets "HEAD" ∧ page.status ≠ 101 ∧
      page.keptData = if page.status = 205 then none else page.data := by
  simp only [bodyless, decide_eq_false_iff_not, not_or] at hBody
  obtain ⟨hHead, hInformational, hNoContent, hNotModified⟩ := hBody
  have hCodes : page.status ∈ noBodyCodes ↔ page.status = 205 := by
    simp only [noBodyCodes, List.mem_cons, List.not_mem_nil, or_false]
    omega
  refine ⟨hHead, by omega, ?_⟩
  rw [PageResult.keptData]
  exact if_congr hCodes rfl rfl

/-- A response with room for a body. -/
theorem oneResponse_body {method : Octets} {headAutomagic keepalive : Bool}
    {others : OtherFields} {result page : PageResult} (hPage : result.withDefaultPage method = page)
    (hKeeps : page.KeepsLength) (hBody : bodyless method page.status = false) :
    (respond method headAutomagic keepalive others result).OneResponse method ↔
      page.Fits method headAutomagic := by
  obtain ⟨hStatus, hFields, hWritten⟩ :=
    respond_eq method headAutomagic keepalive others result hPage
  obtain ⟨hHead, hUpgrade, hKept⟩ := keptData_body hBody
  have hDrop : ¬ (headAutomagic = true ∧ method = octets "HEAD") := fun h => hHead h.2
  rw [if_neg hDrop, if_neg hUpgrade] at hWritten
  simp only [Written.OneResponse, Written.framing, hStatus, hBody, Bool.false_eq_true, if_false,
    hFields, fieldFraming_written, hWritten, PageResult.Fits]
  by_cases hData : page.data ≠ none ∧ page.status ≠ 205
  · obtain ⟨data, hSome⟩ := Option.ne_none_iff_exists'.mp hData.1
    rw [if_neg hData.2, hSome] at hKept
    have hOctets : page.dataOctets = data.written := by rw [PageResult.dataOctets, hSome]; rfl
    cases hCoding : page.transferEncoding with
    | none =>
        simp only [hKept, announcedLength, hCoding, if_true, Option.some.injEq, exists_eq_left',
          readBody_length_iff, if_pos hData, Option.map_some, Option.getD_some,
          contentLength_written, List.length_append]
        rw [← List.length_eq_zero_iff]
        omega
    | some coding =>
        have hNone : announcedLength page (some data) = none := by simp [announcedLength, hCoding]
        simp only [hKept, hNone, hData, true_or, true_and, Option.map_some,
          Option.getD_some, hOctets, not_false_eq_true, ne_eq]
        split
        · next hChunked => simp [hChunked]
        · next hOther => simp [hOther]
  · have hNoData : page.keptData = none := by
      rw [hKept]
      by_cases hReset : page.status = 205
      · rw [if_pos hReset]
      · rw [if_neg hReset]
        by_contra hSome
        exact hData ⟨hSome, hReset⟩
    cases hCoding : page.transferEncoding with
    | none =>
        have hLength : announcedLength page none = some (page.contentLength.getD 0) := by
          cases hGiven : page.contentLength <;> simp [announcedLength, hCoding, hGiven]
        simp only [hNoData, hLength, Option.some.injEq, exists_eq_left', readBody_length_iff,
          if_neg hData, Option.map_none, Option.getD_none, List.nil_append]
        cases hGenerator : page.dataGenerator with
        | none =>
            have hNothing : page.generated = [] := by simp [PageResult.generated, hGenerator]
            simp [hNothing, eq_comm]
        | some parts =>
            have hGiven := hKeeps (by simp [hGenerator])
            cases hLength : page.contentLength with
            | none => simp
            | some n => simp [hGiven n hLength]
    | some coding =>
        have hLength : announcedLength page none = page.contentLength := by
          cases hGiven : page.contentLength <;> simp [announcedLength, hCoding, hGiven]
        simp only [hNoData, hLength, hData, false_or, Option.map_none,
          Option.getD_none, List.nil_append]
        cases hGiven : page.contentLength with
        | some n => simp
        | none =>
            dsimp only
            split
            · next hChunked => simp [hChunked]
            · next hOther => simp [hOther]

/-- What is written for the result of a page is one response exactly when the result fits. -/
theorem response_whole_iff (method : Octets) (headAutomagic keepalive : Bool) (others : OtherFields)
    (result : PageResult) (hKeeps : result.KeepsLength) :
    (respond method headAutomagic keepalive others result).OneResponse method ↔
      (result.withDefaultPage method).Fits method headAutomagic := by
  have hKeeps : (result.withDefaultPage method).KeepsLength := keepsLength_withDefaultPage hKeeps
  cases hBodyless : bodyless method (result.withDefaultPage method).status with
  | true =>
      rw [oneResponse_bodyless rfl hBodyless, PageResult.Fits, hBodyless, if_pos rfl]
  | false => exact oneResponse_body rfl hKeeps hBodyless

/-- A file from a generator. -/
def generatedFile : PageResult where
  status := 200
  contentLength := some 3
  dataGenerator := some [.octets (octets "ab"), .octets (octets "c")]

def noOthers : OtherFields := ⟨[], by simp⟩

theorem response_whole_generatedFile :
    (respond (octets "GET") true true noOthers generatedFile).OneResponse (octets "GET") := by
  refine (response_whole_iff _ _ _ _ generatedFile ?_).mpr ?_
  · intro _ n hLength
    obtain rfl : 3 = n := by simpa [generatedFile] using hLength
    decide
  · have hPage : generatedFile.withDefaultPage (octets "GET") = generatedFile := by decide
    have hBody : bodyless (octets "GET") generatedFile.status = false := by decide
    rw [hPage, PageResult.Fits, hBody]
    simp [generatedFile]

/-- The answer to HEAD for the same file has the file behind it. -/
theorem response_not_whole :
    generatedFile.KeepsLength ∧
    (respond (octets "HEAD") true true noOthers generatedFile).body = octets "abc" ∧
    ¬ (respond (octets "HEAD") true true noOthers generatedFile).OneResponse (octets "HEAD") := by
  have hBody : (respond (octets "HEAD") true true noOthers generatedFile).body = octets "abc" := by
    decide
  refine ⟨fun _ n hLength => ?_, hBody, ?_⟩
  · obtain rfl : 3 = n := by simpa [generatedFile] using hLength
    decide
  · rintro ⟨framing, hFraming, hRead⟩
    obtain rfl : Framing.length 0 = framing := Option.some.inj hFraming
    rw [hBody] at hRead
    exact absurd ((readBody_zero _).mp hRead) (by decide)

end PageCamel.WebBase

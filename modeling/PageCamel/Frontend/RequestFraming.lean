import PageCamel.Lib.HeadLines
import PageCamel.Frontend.Translate
import PageCamel.Frontend.Upload

/-!
The framing of the HTTP/1.1 requests written to a backend: by what a backend finds
the end of the body, with the client's own fields among those it reads.
-/

namespace PageCamel.Frontend
open PageCamel.Lib PageCamel.Lib.Http1 PageCamel.Http2

/-! ### Requests of HTTP/2 -/

/-- What `translateRequest` writes from the header list, a text for each line end. -/
def clientTexts (headers : List Header) : List Octets := (requestOf headers none).texts

def clientLines (headers : List Header) : List Octets := (clientTexts headers).flatMap linesOf

/-- The values of content-length fields: the one length of a body, or nothing but 0
without a body. -/
def OwnLength (body : Octets) (values : List Octets) : Prop :=
  if body ≠ [] then ∃ v, values = [v] ∧ IsLength body.length v else ∀ v ∈ values, IsLength 0 v

/-- A backend reads one request with this body, and its length is the one way it
has to find the end. -/
def OneFraming (bytes body : Octets) : Prop :=
  ∃ r, parseRequests bytes = some [r] ∧ r.body = body ∧
    fieldValues (octets "transfer-encoding") r.fields = [] ∧
    OwnLength body (fieldValues (octets "content-length") r.fields)

/-- The lines of the client are those of a head which leaves the framing of the body
to the translator. -/
structure LeavesFraming (headers : List Header) (body : Octets) : Prop where
  head : IsHead (clientLines headers)
  coding : fieldValues (octets "transfer-encoding") (fieldsOf (clientLines headers)) = []
  lengths :
    if body ≠ [] then
      fieldValues (octets "content-length") (fieldsOf (clientLines headers)) = []
    else
      ∀ v ∈ fieldValues (octets "content-length") (fieldsOf (clientLines headers)), IsLength 0 v

theorem lengthField_nil : lengthField [] = [] := rfl

theorem translateRequest_eq_writeLines (headers : List Header) (data : Option Octets) :
    translateRequest headers data =
      writeLines (clientTexts headers ++ (lengthField (data.getD [])).map fieldText) ++
        (crlf ++ data.getD []) := by
  have hTexts : (requestOf headers data).texts =
      clientTexts headers ++ (lengthField (data.getD [])).map fieldText := by
    simp only [clientTexts, Request.texts, requestOf, List.map_append, List.map_cons,
      Option.getD_none, lengthField_nil, List.append_nil, List.cons_append]
  rw [translateRequest_eq_render, render_eq_writeLines, hTexts]
  rfl

theorem lengthField_valid (body : Octets) : ∀ f ∈ lengthField body, ValidField f := by
  intro f hf
  unfold lengthField at hf
  split at hf
  · rw [List.mem_singleton] at hf
    subst hf
    exact ⟨show isToken (octets "Content-Length") = true by decide, decimal_isValueChar _⟩
  · cases hf

/-- The head of the request as a backend reads it. -/
theorem headRead_translateRequest {headers : List Header} {data : Option Octets} {r : Http1.Request} :
    HeadRead (translateRequest headers data) r (data.getD []) ↔
      (∃ line ∈ (clientLines headers).head?,
        parseRequestLine line = some (r.method, r.target)) ∧
      (∀ line ∈ (clientLines headers).tail, (parseField line).isSome) ∧
      r.fields = fieldsOf (clientLines headers) ++ trimFields (lengthField (data.getD [])) := by
  rw [translateRequest_eq_writeLines]
  exact headRead_fields (List.cons_ne_nil _ _) (lengthField_valid _)

theorem trimFields_lengthField {body : Octets} (hBody : body ≠ []) :
    trimFields (lengthField body) = [(octets "Content-Length", decimal body.length)] := by
  have hTrim : trimOws (decimal body.length) = decimal body.length :=
    trimOws_eq_self fun b hb =>
      isDigit_not_ows (List.all_eq_true.mp (decimal_spec body.length).2.1 b hb)
  rw [lengthField, if_pos hBody, trimFields, List.map_singleton, hTrim]

/-- The framing fields of the request that is read. -/
theorem fieldValues_read (fields : List Field) (body : Octets) :
    fieldValues (octets "transfer-encoding") (fields ++ trimFields (lengthField body)) =
      fieldValues (octets "transfer-encoding") fields ∧
    fieldValues (octets "content-length") (fields ++ trimFields (lengthField body)) =
      fieldValues (octets "content-length") fields ++
        if body ≠ [] then [decimal body.length] else [] := by
  rw [fieldValues_append, fieldValues_append]
  by_cases hBody : body = []
  · subst hBody
    rw [lengthField_nil, if_neg (not_not.mpr rfl)]
    exact ⟨List.append_nil _, rfl⟩
  · rw [trimFields_lengthField hBody, if_pos hBody]
    have hCoding : fieldValues (octets "transfer-encoding")
        [(octets "Content-Length", decimal body.length)] = [] := by
      have hName : lc (octets "Content-Length") ≠ octets "transfer-encoding" := by decide
      simp [fieldValues, hName]
    have hLength : fieldValues (octets "content-length")
        [(octets "Content-Length", decimal body.length)] = [decimal body.length] := by
      have hName : lc (octets "Content-Length") = octets "content-length" := by decide
      simp [fieldValues, hName]
    rw [hCoding, hLength]
    exact ⟨List.append_nil _, rfl⟩

/-- The translator's own length is the only one, or there is no body. -/
theorem ownLength_append (body : Octets) (values : List Octets) :
    OwnLength body (values ++ if body ≠ [] then [decimal body.length] else []) ↔
      if body ≠ [] then values = [] else ∀ v ∈ values, IsLength 0 v := by
  rw [OwnLength]
  by_cases hBody : body = []
  · subst hBody
    simp
  · rw [if_pos hBody, if_pos hBody, if_pos hBody]
    constructor
    · rintro ⟨v, hOne, _⟩
      have hLength := congrArg List.length hOne
      rw [List.length_append, List.length_singleton, List.length_singleton] at hLength
      exact List.length_eq_zero_iff.mp (by omega)
    · rintro rfl
      exact ⟨_, rfl, decimal_spec body.length⟩

theorem OwnLength.framing {body : Octets} {values : List Octets} (h : OwnLength body values) :
    (values = [] → body.length = 0) ∧ ∀ v ∈ values, IsLength body.length v := by
  rw [OwnLength] at h
  split at h
  · obtain ⟨v, rfl, hLength⟩ := h
    refine ⟨fun hNil => absurd hNil (List.cons_ne_nil _ _), fun w hw => ?_⟩
    rw [List.mem_singleton] at hw
    exact hw ▸ hLength
  · next hBody =>
      rw [not_not.mp hBody]
      exact ⟨fun _ => rfl, h⟩

/-- The request a backend reads has exactly one framing, the length of its body, if
and only if the client's own lines are those of a head, none of them is a
transfer-encoding, and none a content-length when there is a body. Without a body
the lengths the client announces must be 0. -/
theorem translateRequest_oneFraming_iff (headers : List Header) (data : Option Octets) :
    OneFraming (translateRequest headers data) (data.getD []) ↔
      LeavesFraming headers (data.getD []) := by
  generalize hBody : data.getD [] = body
  constructor
  · rintro ⟨r, hParse, rfl, hCoding, hLengths⟩
    obtain ⟨content, framing, hHead, hFraming, hRead⟩ := parseRequests_iff_headRead.mp hParse
    -- a length is the only framing without a transfer-encoding, so the body is all that follows
    have hContent := content_eq_body hCoding hFraming hRead
    subst hContent
    rw [← hBody, headRead_translateRequest, hBody] at hHead
    obtain ⟨⟨line, hLine, hRequest⟩, hFields, hEq⟩ := hHead
    obtain ⟨hTe, hCl⟩ := fieldValues_read (fieldsOf (clientLines headers)) r.body
    rw [← hEq] at hTe hCl
    refine ⟨⟨⟨line, hLine, by rw [hRequest]; rfl⟩, hFields⟩, hTe ▸ hCoding, ?_⟩
    rw [hCl] at hLengths
    exact (ownLength_append _ _).mp hLengths
  · intro h
    obtain ⟨method, target, hLine⟩ := h.head.line
    obtain ⟨hTe, hCl⟩ := fieldValues_read (fieldsOf (clientLines headers)) body
    have hCoding := hTe.trans h.coding
    have hLengths := (ownLength_append _ _).mpr h.lengths
    rw [← hCl] at hLengths
    have hHead : HeadRead (translateRequest headers data)
        ⟨method, target, fieldsOf (clientLines headers) ++ trimFields (lengthField body), body⟩
        body := by
      rw [← hBody, headRead_translateRequest, hBody]
      exact ⟨hLine, h.head.fields, rfl⟩
    exact ⟨_, parseRequests_iff_headRead.mpr ⟨body, .length body.length, hHead,
      fieldFraming_length_iff.mpr ⟨hCoding, hLengths.framing⟩, readBody_length body⟩, rfl, hCoding,
      hLengths⟩

/-- A request with a body and its length, as any client sends it. -/
def announcedHeaders : List Header :=
  [(octets ":method", octets "POST"), (octets ":scheme", octets "https"),
    (octets ":path", octets "/"), (octets ":authority", octets "a"),
    (octets "content-length", octets "5")]

/-- The block of these headers: three indexed fields, and two literals with an
indexed name. -/
def announcedBlock : Octets := [0x83, 0x87, 0x84, 0x01, 1] ++ octets "a" ++ [0x0F, 0x0D, 1] ++ octets "5"

/-- The header list is accepted, and the backend reads two lengths. -/
theorem not_oneFraming_announced :
    Accepted announcedHeaders ∧
    ¬ OneFraming (translateRequest announcedHeaders (some (octets "hello"))) (octets "hello") := by
  refine ⟨⟨announcedBlock, (headersDecode {} announcedBlock).1, ?_, ?_, ?_⟩, ?_⟩
  · have hDone : (headersDecode {} announcedBlock).2 = .done := by decide +kernel
    rw [← hDone]
  · decide +kernel
  · decide +kernel
  · rintro ⟨r, hParse, _, _, hOwn⟩
    have hTwo : (parseRequests (translateRequest announcedHeaders (some (octets "hello")))).map
        (List.map fun r => (fieldValues (octets "content-length") r.fields).length) = some [2] := by
      decide +kernel
    rw [hParse, Option.map_some, List.map_singleton, Option.some.injEq, List.cons.injEq] at hTwo
    rw [OwnLength, if_pos (by decide)] at hOwn
    obtain ⟨v, hOne, _⟩ := hOwn
    rw [hOne] at hTwo
    cases hTwo.1

/-! ### Requests of HTTP/3 -/

namespace Http3

/-- What `translateRequest` writes from the header list. -/
def clientTexts (headers : List Header) : List Octets :=
  renderRequestLine (headerOr headers ":method" "GET") (headerOr headers ":path" "/") ::
    ((octets "Host", headerOr headers ":authority" "") :: orderHeaders headers).map fieldText

def clientLines (headers : List Header) : List Octets := (clientTexts headers).flatMap linesOf

/-- The field `translateRequest` adds. -/
def codingField (headers : List Header) : List Field :=
  if useChunked headers then [(octets "Transfer-Encoding", octets "chunked")] else []

/-- The octets are one request: the head is read to the end of the one written, and
what follows is the body. -/
def OneRequest (head bytes body : Octets) : Prop :=
  ∃ r content, bytes = head ++ content ∧ HeadRead bytes r content ∧
    parseRequests bytes = some [r] ∧ r.body = body

/-- The lines of the client are those of a head that has no transfer-encoding, and
a length if and only if no chunks are announced for the body. -/
structure LeavesFraming (headers : List Header) (n : Nat) : Prop where
  head : IsHead (clientLines headers)
  coding : fieldValues (octets "transfer-encoding") (fieldsOf (clientLines headers)) = []
  lengths :
    if useChunked headers then
      fieldValues (octets "content-length") (fieldsOf (clientLines headers)) = []
    else
      (fieldValues (octets "content-length") (fieldsOf (clientLines headers)) = [] → n = 0) ∧
      ∀ v ∈ fieldValues (octets "content-length") (fieldsOf (clientLines headers)), IsLength n v

theorem requestHead_eq_writeLines (headers : List Header) :
    requestHead headers =
      writeLines (clientTexts headers ++ (codingField headers).map fieldText) ++ crlf := by
  have hVersion : octets " HTTP/1.1\r\n" = 0x20 :: octets "HTTP/1.1" ++ crlf := by decide
  have hHost : octets "Host: " = octets "Host" ++ octets ": " := by decide
  have hCoding : octets "Transfer-Encoding: chunked\r\n" =
      octets "Transfer-Encoding" ++ octets ": " ++ octets "chunked" ++ crlf := by decide
  have hCrlf : octets "\r\n" = crlf := by decide
  have hSpace : octets " " = [0x20] := by decide
  unfold requestHead
  dsimp only
  rw [hVersion, hHost, hCoding, hCrlf, hSpace]
  unfold codingField
  split <;> simp [clientTexts, writeLines, renderRequestLine, List.flatMap_map, fieldText]

theorem codingField_valid (headers : List Header) : ∀ f ∈ codingField headers, ValidField f := by
  intro f hf
  unfold codingField at hf
  split at hf
  · rw [List.mem_singleton] at hf
    subst hf
    exact (by decide : ValidField (octets "Transfer-Encoding", octets "chunked"))
  · cases hf

theorem headRead_requestHead {headers : List Header} {content : Octets} {r : Http1.Request} :
    HeadRead (requestHead headers ++ content) r content ↔
      (∃ line ∈ (clientLines headers).head?,
        parseRequestLine line = some (r.method, r.target)) ∧
      (∀ line ∈ (clientLines headers).tail, (parseField line).isSome) ∧
      r.fields = fieldsOf (clientLines headers) ++ trimFields (codingField headers) := by
  rw [requestHead_eq_writeLines, List.append_assoc]
  exact headRead_fields (List.cons_ne_nil _ _) (codingField_valid headers)

theorem trimFields_codingField (headers : List Header) :
    trimFields (codingField headers) = codingField headers := by
  unfold codingField
  split
  · decide
  · rfl

/-- The framing fields of the request that is read. -/
theorem fieldValues_read (headers : List Header) (fields : List Field) :
    fieldValues (octets "transfer-encoding") (fields ++ trimFields (codingField headers)) =
      fieldValues (octets "transfer-encoding") fields ++
        (if useChunked headers then [octets "chunked"] else []) ∧
    fieldValues (octets "content-length") (fields ++ trimFields (codingField headers)) =
      fieldValues (octets "content-length") fields := by
  rw [fieldValues_append, fieldValues_append, trimFields_codingField, codingField]
  split
  · have hCoding : fieldValues (octets "transfer-encoding")
        [(octets "Transfer-Encoding", octets "chunked")] = [octets "chunked"] := by decide
    have hLength : fieldValues (octets "content-length")
        [(octets "Transfer-Encoding", octets "chunked")] = [] := by decide
    rw [hCoding, hLength]
    exact ⟨rfl, List.append_nil _⟩
  · exact ⟨rfl, List.append_nil _⟩

/-- The body as it stands behind the head. -/
def writtenBody (headers : List Header) (chunks : List Octets) : Octets :=
  chunks.flatMap (frameData (useChunked headers)) ++ if useChunked headers then lastChunk else []

theorem flatMap_frameData_false (chunks : List Octets) :
    chunks.flatMap (frameData false) = chunks.flatten := by
  induction chunks with
  | nil => rfl
  | cons chunk chunks ih =>
      rw [List.flatMap_cons, List.flatten_cons, ih, frameData]
      split <;> simp_all

/-- Empty data makes no chunk, which would end the body. -/
theorem flatMap_frameData_true (chunks : List Octets) :
    chunks.flatMap (frameData true) = (chunks.filter (· ≠ [])).flatMap renderChunk ∧
      (chunks.filter (· ≠ [])).flatten = chunks.flatten := by
  induction chunks with
  | nil => exact ⟨rfl, rfl⟩
  | cons chunk chunks ih =>
      rw [List.flatMap_cons, List.flatten_cons, frameData]
      by_cases hEmpty : chunk = []
      · rw [List.filter_cons_of_neg (by simpa using hEmpty), if_pos hEmpty, hEmpty]
        exact ih
      · rw [List.filter_cons_of_pos (by simpa using hEmpty), if_neg hEmpty, List.flatMap_cons,
          List.flatten_cons, ih.1, ih.2]
        exact ⟨rfl, rfl⟩

theorem length_flatMap_renderChunk (chunks : List Octets) :
    chunks.length ≤ (chunks.flatMap renderChunk).length := by
  induction chunks with
  | nil => exact Nat.le_refl _
  | cons chunk chunks ih =>
      have hChunk : 0 < (renderChunk chunk).length := by simp [renderChunk, crlf]
      rw [List.flatMap_cons, List.length_append, List.length_cons]
      omega

theorem readBody_chunked (chunks : List Octets) :
    readBody .chunked (chunks.flatMap (frameData true) ++ lastChunk) = some (chunks.flatten, []) := by
  obtain ⟨hWritten, hFlat⟩ := flatMap_frameData_true chunks
  rw [hWritten, ← hFlat, readBody]
  refine readChunks_render (fun data hData => by simpa using (List.mem_filter.mp hData).2) ?_
  rw [List.length_append]
  exact Nat.lt_succ_of_le (Nat.le_trans (length_flatMap_renderChunk _) (Nat.le_add_right ..))

/-- The framing of a body in either form. -/
theorem framing_iff (headers : List Header) (chunks : List Octets) (fields : List Field) :
    (∃ framing, fieldFraming (.length 0) (fields ++ trimFields (codingField headers)) = some framing ∧
      readBody framing (writtenBody headers chunks) = some (chunks.flatten, [])) ↔
    fieldValues (octets "transfer-encoding") fields = [] ∧
      if useChunked headers then fieldValues (octets "content-length") fields = []
      else (fieldValues (octets "content-length") fields = [] → chunks.flatten.length = 0) ∧
        ∀ v ∈ fieldValues (octets "content-length") fields, IsLength chunks.flatten.length v := by
  obtain ⟨hTe, hCl⟩ := fieldValues_read headers fields
  generalize fields ++ trimFields (codingField headers) = read at hTe hCl
  rw [writtenBody]
  cases hChunked : useChunked headers with
  | false =>
      rw [hChunked, if_neg Bool.false_ne_true, List.append_nil] at hTe
      rw [flatMap_frameData_false, if_neg Bool.false_ne_true, List.append_nil,
        if_neg Bool.false_ne_true, ← hTe, ← hCl, ← fieldFraming_length_iff]
      constructor
      · rintro ⟨framing, hFraming, hBody⟩
        rw [← readBody_self hBody]
        exact hFraming
      · intro hFraming
        exact ⟨_, hFraming, readBody_length _⟩
  | true =>
      rw [hChunked, if_pos rfl] at hTe
      rw [if_pos rfl, if_pos rfl]
      constructor
      · rintro ⟨framing, hFraming, _⟩
        have hNonempty : fieldValues (octets "transfer-encoding") read ≠ [] := by
          rw [hTe]
          exact List.append_ne_nil_of_right_ne_nil _ (List.cons_ne_nil _ _)
        rw [framing_eq_chunked hNonempty hFraming, fieldFraming_chunked_iff, hCl, hTe] at hFraming
        obtain ⟨hNone, coding, hOne, _⟩ := hFraming
        refine ⟨?_, hNone⟩
        have hLength := congrArg List.length hOne
        rw [List.length_append, List.length_singleton, List.length_singleton] at hLength
        exact List.length_eq_zero_iff.mp (by omega)
      · rintro ⟨hCoding, hNone⟩
        refine ⟨.chunked, fieldFraming_chunked_iff.mpr ⟨hCl.trans hNone, octets "chunked", ?_, ?_⟩,
          readBody_chunked chunks⟩
        · rw [hTe, hCoding]
          rfl
        · decide

/-- The octets of a whole request. -/
theorem oneRequest_iff (headers : List Header) (chunks : List Octets) :
    OneRequest (requestHead headers) (requestHead headers ++ writtenBody headers chunks)
        chunks.flatten ↔ LeavesFraming headers chunks.flatten.length := by
  constructor
  · rintro ⟨r, content, hBytes, hHead, hParse, hBody⟩
    obtain rfl := List.append_cancel_left hBytes
    obtain ⟨⟨line, hLine, hRequest⟩, hFields, hEq⟩ := headRead_requestHead.mp hHead
    obtain ⟨content, framing, hHead', hFraming, hRead⟩ := parseRequests_iff_headRead.mp hParse
    obtain rfl := hHead.content_eq hHead'
    rw [hEq] at hFraming
    rw [hBody] at hRead
    obtain ⟨hCoding, hLengths⟩ := (framing_iff headers chunks _).mp ⟨framing, hFraming, hRead⟩
    exact ⟨⟨⟨line, hLine, by rw [hRequest]; rfl⟩, hFields⟩, hCoding, hLengths⟩
  · intro h
    obtain ⟨method, target, hLine⟩ := h.head.line
    obtain ⟨framing, hFraming, hRead⟩ :=
      (framing_iff headers chunks _).mpr ⟨h.coding, h.lengths⟩
    have hHead : HeadRead (requestHead headers ++ writtenBody headers chunks)
        ⟨method, target, fieldsOf (clientLines headers) ++ trimFields (codingField headers),
          chunks.flatten⟩ (writtenBody headers chunks) :=
      headRead_requestHead.mpr ⟨hLine, h.head.fields, rfl⟩
    exact ⟨_, _, rfl, hHead, parseRequests_iff_headRead.mpr ⟨_, framing, hHead, hFraming, hRead⟩, rfl⟩

/-! ### Requests as they are put together -/

/-- Body data arrives while the stream waits for the response. -/
def UploadEvent.Awaited (u : Upload) : UploadEvent → Prop
  | .data _ _ => u.entry.state = some .waitingResponse
  | _ => True

theorem UploadEvent.Awaited.timely {u : Upload} {event : UploadEvent} (h : event.Awaited u) :
    event.Timely u := by
  cases event with
  | data chunk fin => exact .inr (.inr (.inr ⟨fun _ => .inl h, fun _ _ => h⟩))
  | _ => trivial

/-- No step changes which request the stream is for. -/
theorem step_request (u : Upload) (event : UploadEvent) :
    (u.step event).request = u.request ∧ (u.step event).chunked = u.chunked := by
  cases event with
  | data chunk fin =>
      rw [Upload.step, Upload.receive]
      split <;> exact ⟨rfl, rfl⟩
  | dispatch =>
      rw [Upload.step, Upload.dispatch]
      split <;> exact ⟨rfl, rfl⟩
  | write n | writeError | read buf accept =>
      rw [Upload.step]
      split <;> exact ⟨rfl, rfl⟩
  | flush accept | close => exact ⟨rfl, rfl⟩

/-- The upload is that of a request with these headers. -/
def Upload.IsFor (headers : List Header) (body : Option Octets) (u : Upload) : Prop :=
  u.request = translateRequest headers body ∧ u.chunked = useChunked headers

theorem isFor_start (headers : List Header) (body : Option Octets) (acquired : Acquired) :
    (Upload.start headers body acquired).IsFor headers body := by
  cases acquired <;> exact ⟨rfl, rfl⟩

/-- The octets put together for a request whose body has ended, when all of it
arrived in time. -/
theorem put_eq {headers : List Header} {body : Option Octets} {acquired : Acquired} {u : Upload}
    (hRun : Reached Upload.step (fun u event => event.Awaited u)
      (Upload.start headers body acquired) u)
    (hFin : u.fin = true) {bytes : Octets} (hPut : u.put = some bytes) :
    bytes = requestHead headers ++ writtenBody headers (body.getD [] :: u.chunks) := by
  have hInv : u.Inv := hRun.invariant (inv_start headers body acquired)
    fun u event h hAwaited => h.step event hAwaited.timely
  have hFor : u.IsFor headers body := hRun.invariant (isFor_start headers body acquired)
    fun u event h _ => by
      obtain ⟨hRequest, hChunked⟩ := step_request u event
      exact ⟨hRequest.trans h.1, hChunked.trans h.2⟩
  obtain ⟨hRequest, hChunked⟩ := hFor
  rw [hInv.complete bytes hPut, Upload.expected, hRequest, hChunked, hFin, translateRequest,
    writtenBody, List.flatMap_cons]
  simp

/-- In every run in which the body arrives while the stream waits for the response,
the octets for a request whose body has ended are exactly one request, with the
data that arrived as its body, if and only if the client's own lines are those of
a head without a transfer-encoding, and announce no length where the head announces
chunks; where it does not, they announce the length of the body, which need be
announced only if there is any data. -/
theorem upload_oneRequest_iff {headers : List Header} {body : Option Octets} {acquired : Acquired}
    {u : Upload}
    (hRun : Reached Upload.step (fun u event => event.Awaited u)
      (Upload.start headers body acquired) u)
    (hFin : u.fin = true) {bytes : Octets} (hPut : u.put = some bytes) :
    OneRequest (requestHead headers) bytes (body.getD [] ++ u.chunks.flatten) ↔
      LeavesFraming headers (body.getD [] ++ u.chunks.flatten).length := by
  rw [put_eq hRun hFin hPut]
  exact oneRequest_iff headers (body.getD [] :: u.chunks)

/-- A request that announces chunks, its one chunk of data and its end. -/
theorem upload_oneRequest_iff_put :
    OneRequest (requestHead putRequest)
        (requestHead putRequest ++ (renderChunk (octets "abc") ++ lastChunk)) (octets "abc") ↔
      LeavesFraming putRequest 3 := by
  have hRun : Reached Upload.step (fun u event => event.Awaited u)
      (Upload.start putRequest none .backend) (runEvents Upload.step
        (Upload.start putRequest none .backend)
        [.data (octets "abc") false, .write 10, .data [] true]) :=
    Reached.run _ _ .start ⟨rfl, trivial, rfl, trivial⟩
  exact upload_oneRequest_iff hRun rfl (by decide +kernel)

/-- A method whose requests get no chunks. -/
def deleteRequest : List Header :=
  [(octets ":method", octets "DELETE"), (octets ":path", octets "/f"),
    (octets ":authority", octets "a")]

/-- The body of a request that announces none stands on the connection as the start of
the next request. -/
theorem not_oneRequest_delete :
    let events := [UploadEvent.data (octets "abc") true]
    let u := runEvents Upload.step (Upload.start deleteRequest none .backend) events
    Meets Upload.step (fun u event => event.Awaited u) (Upload.start deleteRequest none .backend)
      events ∧
    u.fin = true ∧ ∃ bytes, u.put = some bytes ∧
      ¬ OneRequest (requestHead deleteRequest) bytes (octets "abc") := by
  refine ⟨⟨rfl, trivial⟩, rfl, requestHead deleteRequest ++ octets "abc", by decide +kernel, ?_⟩
  rintro ⟨r, content, _, _, hParse, _⟩
  have hNone : parseRequests (requestHead deleteRequest ++ octets "abc") = none := by
    decide +kernel
  rw [hNone] at hParse
  cases hParse

end Http3

end PageCamel.Frontend

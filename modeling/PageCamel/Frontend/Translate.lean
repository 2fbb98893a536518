import PageCamel.Lib.Http1
import PageCamel.Http2.HeaderBlock

/-!
The HTTP/1.1 requests written to a backend for requests received over HTTP/2
(`translateRequest`, `translateWebsocketUpgrade` in `HTTP2Handler.pm`). Names and
values are joined to lines as they were decoded; a backend reads the request the
header list stands for only when they are free of the octets that end a line.
-/

namespace PageCamel.Frontend
open PageCamel.Lib PageCamel.Lib.Http1 PageCamel.Http2

/-- `$h{$name} // $default`: the last field of that name. -/
def headerOr (headers : List Header) (name : String) (fallback : String) : Octets :=
  (headers.reverse.lookup (octets name)).getD (octets fallback)

/-- `@orderHeaders`: the fields whose name does not start with a colon. -/
def orderHeaders (headers : List Header) : List Header := headers.filter fun h => ¬ isPseudo h.1

/-- The names `translateRequest` skips. -/
def isConnectionSpecific (name : Octets) : Bool :=
  lc name = octets "connection" ∨ lc name = octets "keep-alive" ∨
    lc name = octets "transfer-encoding" ∨ lc name = octets "upgrade"

def isHost (name : Octets) : Bool := lc name = octets "host"

def translateRequest (headers : List Header) (data : Option Octets) : Octets :=
  let method := headerOr headers ":method" "GET"
  let path := headerOr headers ":path" "/"
  let authority := headerOr headers ":authority" "localhost"
  let data := data.getD []
  let request := method ++ octets " " ++ path ++ octets " HTTP/1.1\r\n"
  let request := request ++ octets "Host: " ++ authority ++ octets "\r\n"
  let request := request ++ ((orderHeaders headers).filter fun h => ¬ isConnectionSpecific h.1).flatMap
    fun h => h.1 ++ octets ": " ++ h.2 ++ octets "\r\n"
  let request := request ++
    if data ≠ [] then octets "Content-Length: " ++ decimal data.length ++ octets "\r\n" else []
  request ++ octets "\r\n" ++ data

/-- The digits of base 64. -/
def base64Char (n : Nat) : UInt8 :=
  let n := n % 64
  UInt8.ofNat (if n < 26 then 0x41 + n else if n < 52 then 0x61 + (n - 26)
    else if n < 62 then 0x30 + (n - 52) else if n = 62 then 0x2B else 0x2F)

/-- `encode_base64($s, '')`. -/
def encodeBase64 : Octets → Octets
  | [] => []
  | [a] => [base64Char (a.toNat / 4), base64Char (a.toNat * 16), 0x3D, 0x3D]
  | [a, b] =>
      [base64Char (a.toNat / 4), base64Char (a.toNat * 16 + b.toNat / 16),
        base64Char (b.toNat * 4), 0x3D]
  | a :: b :: c :: s =>
      base64Char (a.toNat / 4) :: base64Char (a.toNat * 16 + b.toNat / 16) ::
        base64Char (b.toNat * 4 + c.toNat / 64) :: base64Char c.toNat :: encodeBase64 s

/-- `generateWebsocketKey`, given the random choices among the 64 characters. -/
def generateWebsocketKey (picks : List (Fin 64)) : Octets :=
  encodeBase64 (picks.map fun i => base64Char i.val)

def translateWebsocketUpgrade (picks : List (Fin 64)) (headers : List Header) : Octets :=
  let path := headerOr headers ":path" "/"
  let authority := headerOr headers ":authority" "localhost"
  let key := generateWebsocketKey picks
  let request := octets "GET " ++ path ++ octets " HTTP/1.1\r\n"
  let request := request ++ octets "Host: " ++ authority ++ octets "\r\n"
  let request := request ++ octets "Upgrade: websocket\r\n"
  let request := request ++ octets "Connection: Upgrade\r\n"
  let request := request ++ octets "Sec-WebSocket-Key: " ++ key ++ octets "\r\n"
  let request := request ++ octets "Sec-WebSocket-Version: 13\r\n"
  let request := request ++ ((orderHeaders headers).filter fun h => ¬ isHost h.1).flatMap
    fun h => h.1 ++ octets ": " ++ h.2 ++ octets "\r\n"
  request ++ octets "\r\n"

/-! ### The requests the header lists stand for -/

/-- The regular fields that are not hop-by-hop. -/
def endToEnd (headers : List Header) : List Header :=
  (orderHeaders headers).filter fun h => ¬ isConnectionSpecific h.1

/-- The field announcing a body that is not empty. -/
def lengthField (body : Octets) : List Field :=
  if body ≠ [] then [(octets "Content-Length", decimal body.length)] else []

/-- The request a header list and a body stand for. -/
def requestOf (headers : List Header) (data : Option Octets) : Request :=
  { method := headerOr headers ":method" "GET"
    target := headerOr headers ":path" "/"
    fields := (octets "Host", headerOr headers ":authority" "localhost") :: endToEnd headers ++
      lengthField (data.getD [])
    body := data.getD [] }

/-- The fields `translateWebsocketUpgrade` adds. -/
def upgradeFields (picks : List (Fin 64)) (headers : List Header) : List Field :=
  [(octets "Host", headerOr headers ":authority" "localhost"),
    (octets "Upgrade", octets "websocket"), (octets "Connection", octets "Upgrade"),
    (octets "Sec-WebSocket-Key", generateWebsocketKey picks),
    (octets "Sec-WebSocket-Version", octets "13")]

/-- The upgrade request an extended CONNECT stands for: HTTP/1.1 asks for the
upgrade with a GET. -/
def upgradeOf (picks : List (Fin 64)) (headers : List Header) : Request :=
  { method := octets "GET"
    target := headerOr headers ":path" "/"
    fields := upgradeFields picks headers ++ endToEnd headers
    body := [] }

/-- A backend that reads the octets from its connection reads the request and no
other one. -/
def CarriesExactly (bytes : Octets) (r : Request) : Prop := parseRequests bytes = some [r.trimmed]

/-! ### The octets written -/

theorem translateRequest_eq_render (headers : List Header) (data : Option Octets) :
    translateRequest headers data = (requestOf headers data).render := by
  have hVersion : octets " HTTP/1.1\r\n" = 0x20 :: octets "HTTP/1.1" ++ crlf := by decide
  have hHost : octets "Host: " = octets "Host" ++ octets ": " := by decide
  have hLength : octets "Content-Length: " = octets "Content-Length" ++ octets ": " := by decide
  have hCrlf : octets "\r\n" = crlf := by decide
  have hSpace : octets " " = [0x20] := by decide
  unfold translateRequest Request.render requestOf renderRequestLine renderFields endToEnd lengthField
  dsimp only
  rw [hVersion, hHost, hLength, hCrlf, hSpace]
  have hField : renderField = fun h => h.1 ++ (octets ": " ++ (h.2 ++ crlf)) := by
    funext h
    simp [renderField]
  split <;> simp [hField]

/-- The request whose octets `translateWebsocketUpgrade` writes. -/
def writtenUpgrade (picks : List (Fin 64)) (headers : List Header) : Request :=
  { upgradeOf picks headers with
    fields := upgradeFields picks headers ++ (orderHeaders headers).filter fun h => ¬ isHost h.1 }

theorem translateWebsocketUpgrade_eq_render (picks : List (Fin 64)) (headers : List Header) :
    translateWebsocketUpgrade picks headers = (writtenUpgrade picks headers).render := by
  have hGet : octets "GET " = octets "GET" ++ [0x20] := by decide
  have hVersion : octets " HTTP/1.1\r\n" = 0x20 :: octets "HTTP/1.1" ++ crlf := by decide
  have hHost : octets "Host: " = octets "Host" ++ octets ": " := by decide
  have hUpgrade : octets "Upgrade: websocket\r\n" =
      octets "Upgrade" ++ octets ": " ++ octets "websocket" ++ crlf := by decide
  have hConnection : octets "Connection: Upgrade\r\n" =
      octets "Connection" ++ octets ": " ++ octets "Upgrade" ++ crlf := by decide
  have hKey : octets "Sec-WebSocket-Key: " = octets "Sec-WebSocket-Key" ++ octets ": " := by decide
  have hWsVersion : octets "Sec-WebSocket-Version: 13\r\n" =
      octets "Sec-WebSocket-Version" ++ octets ": " ++ octets "13" ++ crlf := by decide
  have hCrlf : octets "\r\n" = crlf := by decide
  unfold translateWebsocketUpgrade writtenUpgrade upgradeOf Request.render renderRequestLine
    renderFields upgradeFields
  dsimp only
  have hField : renderField = fun h => h.1 ++ (octets ": " ++ (h.2 ++ crlf)) := by
    funext h
    simp [renderField]
  rw [hGet, hVersion, hHost, hUpgrade, hConnection, hKey, hWsVersion, hCrlf]
  simp [hField]

/-! ### When the octets carry the request -/

/-- The value of a content-length field, as a recipient reads it, is the length. -/
def Announces (n : Nat) (value : Octets) : Prop :=
  trimOws value ≠ [] ∧ (trimOws value).all isDigit ∧ digitsValue (trimOws value) = n

/-- Nothing in the header list ends the line it is written on, and the lengths it
announces are that of the body. -/
structure Delimited (headers : List Header) (n : Nat) : Prop where
  path : isTarget (headerOr headers ":path" "/")
  authority : (headerOr headers ":authority" "localhost").all isValueChar
  fields : ∀ h ∈ endToEnd headers, ValidField h
  lengths : ∀ h ∈ endToEnd headers, lc h.1 = octets "content-length" → Announces n h.2

theorem mem_fieldValues {name : Octets} {fields : List Field} {v : Octets} :
    v ∈ fieldValues name fields ↔ ∃ f ∈ fields, lc f.1 = name ∧ f.2 = v := by
  simp only [fieldValues, List.mem_map, List.mem_filter, decide_eq_true_eq]
  exact ⟨fun ⟨f, h, hv⟩ => ⟨f, h.1, h.2, hv⟩, fun ⟨f, hf, hName, hv⟩ => ⟨f, ⟨hf, hName⟩, hv⟩⟩

theorem fieldValues_trim (name : Octets) (fields : List Field) :
    fieldValues name (trimFields fields) = (fieldValues name fields).map trimOws := by
  simp only [fieldValues, trimFields, List.filter_map, List.map_map]
  rfl

theorem endToEnd_not_coding (headers : List Header) :
    fieldValues (octets "transfer-encoding") (endToEnd headers) = [] := by
  rw [List.eq_nil_iff_forall_not_mem]
  intro v hv
  obtain ⟨f, hf, hName, _⟩ := mem_fieldValues.mp hv
  have := (List.mem_filter.mp hf).2
  simp [isConnectionSpecific, hName] at this

theorem fieldValues_append (name : Octets) (fields fields' : List Field) :
    fieldValues name (fields ++ fields') = fieldValues name fields ++ fieldValues name fields' := by
  simp [fieldValues]

/-- The framing of a request whose fields are added ones and those of the list. -/
theorem framing_iff (headers : List Header) (added : List Field) (n : Nat)
    (hCoding : fieldValues (octets "transfer-encoding") added = [])
    (hAdded : ∀ v ∈ fieldValues (octets "content-length") added, Announces n v)
    (hNone : fieldValues (octets "content-length") added = [] → n = 0) (fields : List Field)
    (hPerm : fields.Perm (added ++ endToEnd headers)) :
    fieldFraming (.length 0) (trimFields fields) = some (.length n) ↔
      ∀ h ∈ endToEnd headers, lc h.1 = octets "content-length" → Announces n h.2 := by
  have hValues (name : Octets) : (fieldValues name fields).Perm
      (fieldValues name added ++ fieldValues name (endToEnd headers)) := by
    rw [← fieldValues_append]
    exact (hPerm.filter _).map _
  have hNoCoding : fieldValues (octets "transfer-encoding") fields = [] := by
    have := hValues (octets "transfer-encoding")
    rw [hCoding, endToEnd_not_coding] at this
    exact this.eq_nil
  have hLengths (v : Octets) : v ∈ fieldValues (octets "content-length") fields ↔
      v ∈ fieldValues (octets "content-length") added ∨
        v ∈ fieldValues (octets "content-length") (endToEnd headers) := by
    rw [(hValues _).mem_iff, List.mem_append]
  rw [fieldFraming_eq_length (by rw [fieldValues_trim, hNoCoding]; rfl)]
  · rw [fieldValues_trim]
    constructor
    · intro h f hf hName
      have hMem := (hLengths f.2).mpr (.inr (mem_fieldValues.mpr ⟨f, hf, hName, rfl⟩))
      exact h _ (List.mem_map_of_mem hMem)
    · intro h v hv
      obtain ⟨w, hw, rfl⟩ := List.mem_map.mp hv
      rcases (hLengths w).mp hw with hw | hw
      · exact hAdded w hw
      · obtain ⟨f, hf, hName, rfl⟩ := mem_fieldValues.mp hw
        exact h f hf hName
  · intro h
    rw [fieldValues_trim, List.map_eq_nil_iff] at h
    refine hNone (List.eq_nil_iff_forall_not_mem.mpr fun v hv => ?_)
    have := (hLengths v).mpr (.inl hv)
    rw [h] at this
    cases this

theorem isDigit_not_ows {b : UInt8} (h : isDigit b = true) : isOws b = false := by
  simp only [isDigit, decide_eq_true_eq, UInt8.le_iff_toNat_le] at h
  simp only [isOws, decide_eq_false_iff_not, not_or]
  constructor <;> rintro rfl <;> simp at h

theorem announces_decimal (n : Nat) : Announces n (decimal n) := by
  have hSpec := decimal_spec n
  have hTrim : trimOws (decimal n) = decimal n :=
    trimOws_eq_self fun b hb => isDigit_not_ows (List.all_eq_true.mp hSpec.2.1 b hb)
  rw [Announces, hTrim]
  exact hSpec

theorem isDigit_isValueChar {b : UInt8} (h : isDigit b = true) : isValueChar b = true := by
  simp only [isDigit, decide_eq_true_eq, UInt8.le_iff_toNat_le] at h
  simp only [isValueChar, decide_eq_true_eq, UInt8.le_iff_toNat_le]
  refine .inr ⟨?_, ?_⟩
  · have hLow : (0x20 : UInt8).toNat = 0x20 := rfl
    have hZero : (0x30 : UInt8).toNat = 0x30 := rfl
    omega
  · rintro rfl
    simp at h

theorem decimal_isValueChar (n : Nat) : (decimal n).all isValueChar = true := by
  rw [List.all_eq_true]
  intro b hb
  exact isDigit_isValueChar (List.all_eq_true.mp (decimal_spec n).2.1 b hb)

theorem base64Char_isValueChar (n : Nat) : isValueChar (base64Char n) = true := by
  have hAll : ∀ i : Fin 64, isValueChar (base64Char i.val) = true := by decide +kernel
  have hMod : base64Char n = base64Char (n % 64) := by rw [base64Char, base64Char, Nat.mod_mod]
  rw [hMod]
  exact hAll ⟨n % 64, Nat.mod_lt n (by omega)⟩

theorem encodeBase64_isValueChar (s : Octets) : (encodeBase64 s).all isValueChar = true := by
  have hPad : isValueChar 0x3D = true := by decide
  fun_induction encodeBase64 s with
  | case1 => rfl
  | case2 a => simp [base64Char_isValueChar, hPad]
  | case3 a b => simp [base64Char_isValueChar, hPad]
  | case4 a b c s ih => simp only [List.all_cons, base64Char_isValueChar, ih, Bool.and_self]

theorem requestOf_valid_iff (headers : List Header) (data : Option Octets) :
    (requestOf headers data).Valid ↔ isToken (headerOr headers ":method" "GET") ∧
      Delimited headers (data.getD []).length := by
  have hFraming := framing_iff headers
    ((octets "Host", headerOr headers ":authority" "localhost") :: lengthField (data.getD []))
    (data.getD []).length
    (by unfold lengthField; split <;> rfl)
    (by
      intro v hv
      obtain ⟨f, hf, hName, rfl⟩ := mem_fieldValues.mp hv
      rcases List.mem_cons.mp hf with rfl | hf
      · exact absurd hName (show lc (octets "Host") ≠ octets "content-length" by decide)
      · unfold lengthField at hf
        split at hf
        · rw [List.mem_singleton] at hf
          subst hf
          exact announces_decimal _
        · cases hf)
    (by
      intro hNone
      unfold lengthField at hNone
      split at hNone
      · cases hNone
      · next hEmpty => rw [not_not.mp hEmpty]; rfl)
    (requestOf headers data).fields
    (by
      refine List.Perm.cons _ ?_
      exact List.perm_append_comm)
  have hHost : isToken (octets "Host") = true := by decide
  have hLengthField : ∀ f ∈ lengthField (data.getD []), ValidField f := by
    intro f hf
    unfold lengthField at hf
    split at hf
    · rw [List.mem_singleton] at hf
      subst hf
      exact ⟨show isToken (octets "Content-Length") = true by decide, decimal_isValueChar _⟩
    · cases hf
  constructor
  · intro h
    have hFields := h.fields
    refine ⟨h.method, h.target, (hFields _ (List.mem_cons_self ..)).2, fun f hf => hFields f ?_,
      hFraming.mp h.framing⟩
    exact List.mem_cons_of_mem _ (List.mem_append_left _ hf)
  · rintro ⟨hMethod, hDelimited⟩
    refine ⟨hMethod, hDelimited.path, ?_, hFraming.mpr hDelimited.lengths⟩
    intro f hf
    rcases List.mem_cons.mp hf with rfl | hf
    · exact ⟨hHost, hDelimited.authority⟩
    · rcases List.mem_append.mp hf with hf | hf
      · exact hDelimited.fields f hf
      · exact hLengthField f hf

theorem upgradeFields_valid (picks : List (Fin 64)) (headers : List Header)
    (hAuthority : (headerOr headers ":authority" "localhost").all isValueChar = true) :
    ∀ f ∈ upgradeFields picks headers, ValidField f := by
  intro f hf
  simp only [upgradeFields, List.mem_cons, List.not_mem_nil, or_false] at hf
  rcases hf with rfl | rfl | rfl | rfl | rfl
  · exact ⟨show isToken (octets "Host") = true by decide, hAuthority⟩
  · exact ⟨by decide, by decide⟩
  · exact ⟨by decide, by decide⟩
  · exact ⟨show isToken (octets "Sec-WebSocket-Key") = true by decide, encodeBase64_isValueChar _⟩
  · exact ⟨by decide, by decide⟩

theorem upgradeOf_valid_iff (picks : List (Fin 64)) (headers : List Header) :
    (upgradeOf picks headers).Valid ↔ Delimited headers 0 := by
  have hFraming := framing_iff headers (upgradeFields picks headers) 0 rfl
    (by intro v hv; cases hv) (fun _ => rfl) (upgradeOf picks headers).fields (List.Perm.refl _)
  constructor
  · intro h
    have hFields := h.fields
    refine ⟨h.target, (hFields (octets "Host", _) ?_).2, fun f hf => hFields f ?_,
      hFraming.mp h.framing⟩
    · exact List.mem_append_left _ (List.mem_cons_self ..)
    · exact List.mem_append_right _ hf
  · intro h
    refine ⟨show isToken (octets "GET") = true by decide, h.path, ?_, hFraming.mpr h.lengths⟩
    intro f hf
    rcases List.mem_append.mp hf with hf | hf
    · exact upgradeFields_valid picks headers h.authority f hf
    · exact h.fields f hf

/-! ### Fields forwarded with an upgrade -/

theorem isTchar_of_lcOctet {b : UInt8} (h : isTchar (lcOctet b) = true) : isTchar b = true := by
  have hAll : ∀ i : Fin 256, isTchar (lcOctet (UInt8.ofNat i.val)) = true →
      isTchar (UInt8.ofNat i.val) = true := by decide +kernel
  have := hAll ⟨b.toNat, b.toNat_lt⟩
  rw [UInt8.ofNat_toNat] at this
  exact this h

theorem isToken_of_lc {s : Octets} (h : isToken (lc s) = true) : isToken s = true := by
  simp only [isToken, decide_eq_true_eq, lc, List.all_map, ne_eq, List.map_eq_nil_iff] at h ⊢
  refine ⟨h.1, List.all_eq_true.mpr fun b hb => ?_⟩
  exact isTchar_of_lcOctet (List.all_eq_true.mp h.2 b hb)

theorem isConnectionSpecific_isToken {name : Octets} (h : isConnectionSpecific name = true) :
    isToken name = true := by
  apply isToken_of_lc
  simp only [isConnectionSpecific, decide_eq_true_eq] at h
  rcases h with h | h | h | h <;> rw [h] <;> decide

theorem not_isHost_or (name : Octets) :
    (!isHost name) = true ∨ (!isConnectionSpecific name) = true := by
  by_cases h : lc name = octets "host"
  · right
    simp only [isConnectionSpecific, h]
    decide
  · left
    simp [isHost, h]

/-- Reading back the fields the upgrade should carry, a backend has been written
no field it should not carry and all it should. -/
theorem writtenUpgrade_fields (picks : List (Fin 64)) (headers : List Header)
    (h : CarriesExactly (writtenUpgrade picks headers).render (upgradeOf picks headers)) :
    ∀ f ∈ orderHeaders headers, isConnectionSpecific f.1 = false ∧ isHost f.1 = false := by
  rw [CarriesExactly, parseRequests_eq_singleton, parseRequest_eq_some] at h
  obtain ⟨line, head, tail, framing, hCut, hLine, hFields, _, _⟩ := h
  obtain ⟨hMethod, hTarget⟩ := parseRequestLine_valid hLine
  have hBytes : (writtenUpgrade picks headers).render =
      renderRequestLine (writtenUpgrade picks headers).method (writtenUpgrade picks headers).target ++
        (crlf ++ (renderFields (writtenUpgrade picks headers).fields ++ [])) := by
    simp [Request.render, writtenUpgrade, upgradeOf]
  rw [hBytes] at hCut
  cases hCut.symm.trans (cutAt_renderRequestLine hMethod hTarget _)
  have hValid := (validFields_trim _).mp (parseFields_valid _ _ _ _ hFields)
  obtain ⟨fuel, hRest⟩ := parseFields_append
    (fun f hf => hValid f (List.mem_append_left _ hf)) _ _ _ _ _ hFields
  have hEndToEnd : ∀ f ∈ orderHeaders headers, (!isConnectionSpecific f.1) = true →
      ValidField f := by
    intro f hf hKind
    exact hValid f (List.mem_append_right _ (List.mem_filter.mpr ⟨hf, by simpa using hKind⟩))
  have hTokens : ∀ f ∈ orderHeaders headers, isToken f.1 = true := by
    intro f hf
    cases hKind : isConnectionSpecific f.1 with
    | true => exact isConnectionSpecific_isToken hKind
    | false => exact (hEndToEnd f hf (by simp [hKind])).1
  have hAll := parseFields_filter not_isHost_or [] tail (orderHeaders headers) hTokens hEndToEnd
    fuel (by simpa [endToEnd] using hRest)
  intro f hf
  have := hAll f hf
  simpa [and_comm] using this

/-- The backend reads from a translated request exactly the request the header list
stands for when no element of the list ends its line and the announced lengths are
that of the body. `translateWebsocketUpgrade` must in addition meet no field that
is hop-by-hop, which it does not skip, and none named host, which it does. -/
theorem translate_carriesExactly_iff (picks : List (Fin 64)) (headers : List Header)
    (data : Option Octets) :
    (CarriesExactly (translateRequest headers data) (requestOf headers data) ↔
      isToken (headerOr headers ":method" "GET") ∧
        Delimited headers (data.getD []).length) ∧
    (CarriesExactly (translateWebsocketUpgrade picks headers) (upgradeOf picks headers) ↔
      Delimited headers 0 ∧
        ∀ f ∈ orderHeaders headers, isConnectionSpecific f.1 = false ∧ isHost f.1 = false) := by
  constructor
  · rw [CarriesExactly, translateRequest_eq_render, parseRequests_render_iff, requestOf_valid_iff]
  · rw [translateWebsocketUpgrade_eq_render]
    -- without such fields the written request is the upgrade itself
    have hWritten (hKinds : ∀ f ∈ orderHeaders headers,
        isConnectionSpecific f.1 = false ∧ isHost f.1 = false) :
        writtenUpgrade picks headers = upgradeOf picks headers := by
      have hHost : (orderHeaders headers).filter (fun h => ¬ isHost h.1) = orderHeaders headers :=
        List.filter_eq_self.mpr fun f hf => by simp [(hKinds f hf).2]
      have hEndToEnd : endToEnd headers = orderHeaders headers :=
        List.filter_eq_self.mpr fun f hf => by simp [(hKinds f hf).1]
      rw [writtenUpgrade, hHost, ← hEndToEnd]
      rfl
    constructor
    · intro h
      have hKinds := writtenUpgrade_fields picks headers h
      rw [hWritten hKinds, CarriesExactly, parseRequests_render_iff, upgradeOf_valid_iff] at h
      exact ⟨h, hKinds⟩
    · rintro ⟨hDelimited, hKinds⟩
      rw [hWritten hKinds, CarriesExactly, parseRequests_render_iff, upgradeOf_valid_iff]
      exact hDelimited

/-- The receive path passes the header list on: a block decodes to it and it passes
the checks on a request. -/
def Accepted (headers : List Header) : Prop :=
  ∃ block context, headersDecode {} block = (context, .done) ∧ context.emittedHeaders = headers ∧
    (validateList false true none headers).accepted

/-- A path that ends the request line, a request and the line of a second one. -/
def smuggledPath : Octets := octets "/ HTTP/1.1\r\nHost: a\r\n\r\nGET /admin"

def smuggledHeaders : List Header :=
  [(octets ":method", octets "GET"), (octets ":scheme", octets "https"),
    (octets ":authority", octets "a"), (octets ":path", smuggledPath)]

/-- The block of these headers: indexed fields and literals with an indexed name. -/
def smuggledBlock : Octets :=
  [0x82, 0x87, 0x01, 1] ++ octets "a" ++ [0x04, UInt8.ofNat smuggledPath.length] ++ smuggledPath

/-- The header list is accepted, and the backend reads two requests. -/
theorem translateRequest_smuggles :
    Accepted smuggledHeaders ∧
    (parseRequests (translateRequest smuggledHeaders none)).map List.length = some 2 ∧
    ¬ CarriesExactly (translateRequest smuggledHeaders none) (requestOf smuggledHeaders none) := by
  have hTwo : (parseRequests (translateRequest smuggledHeaders none)).map List.length = some 2 := by
    decide +kernel
  refine ⟨⟨smuggledBlock, (headersDecode {} smuggledBlock).1, ?_, ?_, ?_⟩, hTwo, ?_⟩
  · have hDone : (headersDecode {} smuggledBlock).2 = .done := by decide +kernel
    rw [← hDone]
  · decide +kernel
  · decide +kernel
  · intro h
    rw [h] at hTwo
    cases hTwo

end PageCamel.Frontend

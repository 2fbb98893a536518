import PageCamel.WebBase.ChunkedBody
import PageCamel.WebBase.ProcessRequest

/-!
The request line and the header lines of a request, as `process_request` takes them from the
socket: octet by octet up to the empty line.
-/

namespace PageCamel.WebBase
open PageCamel.Lib PageCamel.Lib.Http1

/-! ### Lines -/

/-- `s/[\r\n]+$//` for a line without its line feed. -/
def withoutLineEnd (line : Octets) : Octets := (line.reverse.dropWhile (· = 13)).reverse

/-- A line up to its line feed; nothing when the time is up before. -/
def readheader : Arrivals → Octets → Option Octets × Arrivals
  | [], _ => (none, [])
  | .timeUp :: socket, _ => (none, socket)
  | .octet b :: socket, line =>
      if b = 10 then (some (withoutLineEnd line), socket) else readheader socket (line ++ [b])

/-- The octets of the white space that the decoded line begins with; 0 when it does not. -/
def spaceLength : Octets → Nat
  | 0xC2 :: c :: _ => if c = 0x85 ∨ c = 0xA0 then 2 else 0
  | 0xE1 :: 0x9A :: 0x80 :: _ => 3
  | 0xE2 :: 0x80 :: c :: _ =>
      if (0x80 ≤ c ∧ c ≤ 0x8A) ∨ c = 0xA8 ∨ c = 0xA9 ∨ c = 0xAF then 3 else 0
  | 0xE2 :: 0x81 :: 0x9F :: _ => 3
  | 0xE3 :: 0x80 :: 0x80 :: _ => 3
  | b :: _ => if b = 0x20 ∨ (0x09 ≤ b ∧ b ≤ 0x0D) then 1 else 0
  | [] => 0

/-- `\s*` -/
def dropSpaces : Nat → Octets → Octets
  | 0, s => s
  | fuel + 1, s => if spaceLength s = 0 then s else dropSpaces fuel (s.drop (spaceLength s))

/-- `\S*` -/
def word : Octets → Octets
  | [] => []
  | b :: s => if spaceLength (b :: s) = 0 then b :: word s else []

/-- The letters outside of ASCII that match an ASCII letter when case does not count. -/
def foldCase : Octets → Octets
  | 0xE2 :: 0x84 :: 0xAA :: s => 0x6B :: foldCase s
  | 0xC5 :: 0xBF :: s => 0x73 :: foldCase s
  | b :: s => (if 0x41 ≤ b ∧ b ≤ 0x5A then b + 0x20 else b) :: foldCase s
  | [] => []

/-- `/needle/i` -/
def mentions (needle : String) (s : Octets) : Bool :=
  (indexOf (octets needle) (foldCase s)).isSome

/-! ### Header lines -/

/-- The names that are written in one way. -/
def httpheaders : List Octets :=
  [octets "Accept", octets "Accept-Charset", octets "Accept-Datetime", octets "Accept-Encoding",
    octets "Accept-Language", octets "Accept-Patch", octets "Accept-Ranges",
    octets "Access-Control-Allow-Origin", octets "Access-Control-Request-Method",
    octets "Access-Control-Allow-Methods", octets "Access-Control-Max-Age", octets "Age",
    octets "Allow", octets "Authorization", octets "Cache-Control", octets "Connection",
    octets "Content-Disposition", octets "Content-Encoding", octets "Content-Language",
    octets "Content-Length", octets "Content-Location", octets "Content-MD5",
    octets "Content-Range", octets "Content-Security-Policy", octets "Content-Type",
    octets "Cookie", octets "Date", octets "DNT", octets "ETag", octets "Expect",
    octets "Expires", octets "From", octets "Front-End-Https", octets "Host",
    octets "If-Match", octets "If-Modified-Since", octets "If-None-Match", octets "If-Range",
    octets "If-Unmodified-Since", octets "Last-Modified", octets "Link", octets "Location",
    octets "Max-Forwards", octets "Origin", octets "P3P", octets "Pragma",
    octets "Proxy-Authenticate", octets "Proxy-Authorization", octets "Proxy-Connection",
    octets "Public-Key-Pins", octets "Range", octets "Referer", octets "Refresh",
    octets "Retry-After", octets "Sec-WebSocket-Extensions", octets "Sec-WebSocket-Key",
    octets "Sec-WebSocket-Protocol", octets "Sec-WebSocket-Version", octets "Server",
    octets "Set-Cookie", octets "Status", octets "Strict-Transport-Security", octets "TE",
    octets "Trailer", octets "Transfer-Encoding", octets "Upgrade", octets "User-Agent",
    octets "Vary", octets "Via", octets "Warning", octets "WWW-Authenticate",
    octets "X-ATT-DeviceId", octets "X-Content-Duration", octets "X-Content-Type-Options",
    octets "X-Csrf-Token", octets "X-Forwarded-For", octets "X-Forwarded-Host",
    octets "X-Forwarded-Proto", octets "X-Frame-Options", octets "X-Http-Method-Override",
    octets "X-Powered-By", octets "X-Requested-With", octets "X-UA-Compatible",
    octets "X-UIDH", octets "X-Wap-Profile", octets "X-XSS-Protection",
    octets "X-Content-Security-Policy", octets "X-WebKit-CSP"]

def httpheadersmapping (name : Octets) : Octets :=
  (httpheaders.find? fun header => lc header = lc name).getD name

/-- `s/\:\d+$//` -/
def withoutPort (value : Octets) : Octets :=
  let digits := (value.reverse.takeWhile isDigit).length
  match value.reverse.drop digits with
  | 0x3A :: rest => if digits = 0 then value else rest.reverse
  | _ => value

/-- The name and the value of a header line. The name goes to the last colon in front of the
first white space. -/
def headerField (line : Octets) : Option Field :=
  let run := word line
  match run.reverse.dropWhile (· ≠ 0x3A) with
  | [] => none
  | _ :: reversed =>
      if reversed = [] then none
      else
        let name := httpheadersmapping reversed.reverse
        let rest := line.drop (reversed.length + 1)
        let value := dropSpaces rest.length rest
        some (name, if name = octets "Host" then withoutPort value else value)

/-- A header that comes again takes the place of the one before. -/
def Ua.setHeader (ua : Ua) (field : Field) : Ua :=
  { ua with headers := field :: ua.headers.filter fun header => header.1 ≠ field.1 }

/-- Cookies, and the list made of `Accept-Encoding`, are left out. -/
def parse_header_line (ua : Ua) (line : Octets) : Option Ua :=
  (headerField line).map ua.setHeader

/-! ### The request line -/

/-- The path in front of a query. -/
def withoutQuery (url : Octets) : Octets :=
  let url' := url.dropWhile (· = 0x3F)
  match url'.dropWhile (· ≠ 0x3F) with
  | _ :: _ :: _ => url'.takeWhile (· ≠ 0x3F)
  | _ => url

def parse_request_line (decode_uri_path : Octets → Octets) (line : Octets) : Option Ua :=
  let method := line.takeWhile fun b => 0x41 ≤ b ∧ b ≤ 0x5A
  match line.drop method.length with
  | 0x20 :: rest =>
      let target := word rest
      let version := rest.drop target.length
      if method ≠ [] ∧ target ≠ [] ∧ (octets " HTTP/").isPrefixOf version then
        some
          { url := decode_uri_path (withoutQuery target), method,
            httpversion := version.drop (octets " HTTP/").length }
      else none
  | _ => none

/-! ### The head -/

/-- A request without its body, and its header lines one by one. -/
structure RequestHead where
  ua : Ua
  fields : List Field := []
  deriving DecidableEq

/-- The loop over the header lines, at most 500 with the empty one. -/
def readHeaders : Nat → RequestHead → Arrivals → Option RequestHead × Arrivals
  | 0, _, socket => (none, socket)
  | fuel + 1, head, socket =>
      match readheader socket [] with
      | (none, socket) => (none, socket)
      | (some line, socket) =>
          if line = [] then (some head, socket)
          else
            match headerField line with
            | none => (none, socket)
            | some field =>
                readHeaders fuel
                  { ua := head.ua.setHeader field, fields := head.fields ++ [field] } socket

def readHead (decode_uri_path : Octets → Octets) (socket : Arrivals) :
    Option RequestHead × Arrivals :=
  match readheader socket [] with
  | (none, socket) => (none, socket)
  | (some line, socket) =>
      match parse_request_line decode_uri_path line with
      | none => (none, socket)
      | some ua => readHeaders 500 { ua } socket

/-- HTTP/1.1 connections stay open unless the client wants to close them, others only if it
wants to keep them. -/
def keepaliveOf (ua : Ua) : Bool :=
  match ua.header (octets "Connection") with
  | none => ua.httpversion = octets "1.1"
  | some connection =>
      if ua.httpversion = octets "1.1" then !mentions "close" connection
      else mentions "keep-alive" connection

/-! ### What the head takes from the socket -/

/-- A line with its line feed. -/
def IsLine (line : Octets) : Prop := ∃ text, line = text ++ [10] ∧ 10 ∉ text

/-- A request line, header lines, and an empty line. -/
def IsHead (head : Octets) : Prop :=
  ∃ (first : Octets) (lines : List Octets) (last : Octets),
    head = first ++ lines.flatten ++ last ∧ IsLine first ∧
    (∀ line ∈ lines, IsLine line ∧ withoutLineEnd line.dropLast ≠ []) ∧
    IsLine last ∧ withoutLineEnd last.dropLast = []

theorem readheader_some (socket after : Arrivals) (before line : Octets)
    (hRead : readheader socket before = (some line, after)) :
    ∃ text, socket = arriving (text ++ [10]) ++ after ∧ 10 ∉ text ∧
      line = withoutLineEnd (before ++ text) := by
  induction socket generalizing before with
  | nil => simp [readheader] at hRead
  | cons signal socket ih =>
      cases signal with
      | timeUp => simp [readheader] at hRead
      | octet b =>
          rw [readheader] at hRead
          split at hRead
          · next hEnd =>
              simp only [Prod.mk.injEq, Option.some.injEq] at hRead
              obtain ⟨rfl, rfl⟩ := hRead
              exact ⟨[], by simp [arriving, hEnd], List.not_mem_nil, by rw [List.append_nil]⟩
          · next hText =>
              obtain ⟨text, rfl, hNotMem, hLine⟩ := ih (before ++ [b]) hRead
              refine ⟨b :: text, rfl, ?_, ?_⟩
              · simp [hNotMem, Ne.symm hText]
              · rw [hLine, List.append_assoc, List.singleton_append]

/-- One line is read from one line. -/
theorem readheader_line (socket after : Arrivals) (line : Octets)
    (hRead : readheader socket [] = (some line, after)) :
    ∃ taken, socket = arriving taken ++ after ∧ IsLine taken ∧
      withoutLineEnd taken.dropLast = line := by
  obtain ⟨text, hSocket, hNotMem, hLine⟩ := readheader_some socket after [] line hRead
  refine ⟨text ++ [10], hSocket, ⟨text, rfl, hNotMem⟩, ?_⟩
  rw [List.dropLast_concat, hLine, List.nil_append]

theorem readHeaders_lines (fuel : Nat) (head found : RequestHead) (socket after : Arrivals)
    (hRead : readHeaders fuel head socket = (some found, after)) :
    ∃ (lines : List Octets) (last : Octets),
      socket = arriving (lines.flatten ++ last) ++ after ∧
      (∀ line ∈ lines, IsLine line ∧ withoutLineEnd line.dropLast ≠ []) ∧
      IsLine last ∧ withoutLineEnd last.dropLast = [] := by
  induction fuel generalizing head socket with
  | zero => simp [readHeaders] at hRead
  | succ fuel ih =>
      rw [readHeaders] at hRead
      split at hRead
      · simp at hRead
      · next line rest hLine =>
          obtain ⟨taken, hTaken, hIsLine, hText⟩ := readheader_line socket rest line hLine
          split at hRead
          · next hEmpty =>
              simp only [Prod.mk.injEq, Option.some.injEq] at hRead
              obtain ⟨-, rfl⟩ := hRead
              exact ⟨[], taken, hTaken, by simp, hIsLine, hText.trans hEmpty⟩
          · next hNotEmpty =>
              split at hRead
              · simp at hRead
              · next field hField =>
                  obtain ⟨lines, last, hRest, hLines, hLast⟩ := ih _ rest hRead
                  refine ⟨taken :: lines, last, ?_, ?_, hLast⟩
                  · simp [hTaken, hRest, arriving]
                  · intro other hOther
                    rcases List.mem_cons.mp hOther with rfl | hLater
                    · exact ⟨hIsLine, hText ▸ hNotEmpty⟩
                    · exact hLines other hLater

/-- The head takes its lines, and nothing else. -/
theorem readHead_takes (decode_uri_path : Octets → Octets) (socket after : Arrivals)
    (found : RequestHead) (hRead : readHead decode_uri_path socket = (some found, after)) :
    ∃ head, IsHead head ∧ socket = arriving head ++ after := by
  rw [readHead] at hRead
  split at hRead
  · simp at hRead
  · next line rest hLine =>
      obtain ⟨first, hTaken, hFirst, -⟩ := readheader_line socket rest line hLine
      split at hRead
      · simp at hRead
      · obtain ⟨lines, last, hRest, hLines, hLast, hEmpty⟩ :=
          readHeaders_lines 500 _ found rest after hRead
        refine ⟨first ++ lines.flatten ++ last, ⟨first, lines, last, rfl, hFirst, hLines, hLast,
          hEmpty⟩, ?_⟩
        simp [hTaken, hRest, arriving]

end PageCamel.WebBase

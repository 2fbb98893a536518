import PageCamel.Lib.Octets
import PageCamel.Lib.Runs
import Mathlib.Data.List.AList

/-!
The asynchronous user agent (`Helpers/AsyncUA.pm`): `finished` is called again and again, and every
call writes a part of the request or reads what has come of the response. The socket does not
block; what its calls return is chosen from outside.
-/

namespace PageCamel.Helpers.AsyncUA
open PageCamel.Lib (Octets octets decimal cutAt lc numify Meets runEvents)

/-! ### The socket -/

/-- What `$socket->error` and `$ERRNO` say after a call. A call that succeeds leaves `$ERRNO` as it
was; zero is the empty text. -/
structure Status where
  error : Option Octets
  errno : Nat
  deriving DecidableEq, Repr

def truthy (value : Option Octets) : Bool :=
  match value with
  | none => false
  | some text => text ≠ [] && text ≠ octets "0"

/-- `$socket->error || $ERRNO ne ''` -/
def Status.writeFailure (status : Status) : Bool := truthy status.error || status.errno ≠ 0

/-- `defined($errorstatus) || $ERRNO ne ''` -/
def Status.readFailure (status : Status) : Bool := status.error.isSome || status.errno ≠ 0

inductive Write where
  | dies
  /-- Nothing is returned: the call would block, or the connection is gone. -/
  | undef (fatal : Bool)
  | count (written : Nat) (status : Status)
  deriving DecidableEq, Repr

/-- Why a call reads nothing. -/
inductive Why where
  | wouldBlock
  | closed
  | fatal
  deriving DecidableEq, Repr

inductive Read where
  | octet (buf : UInt8) (status : Status)
  | nothing (why : Why) (status : Status)
  deriving DecidableEq, Repr

/-- What the socket does in one call of `finished`. Behind the reads it would block. -/
structure Call where
  write : Write
  reads : List Read
  deriving DecidableEq, Repr

/-! ### The user agent -/

/-- `$self->{state}` -/
inductive Phase where
  | ready
  | sending
  | readheaders
  | readbody
  | finished
  deriving DecidableEq, Repr

structure UserAgent where
  host : Octets
  ua : Octets
  state : Phase := .ready
  headers : List Octets := []
  parsedheaders : AList fun _ : Octets => Option Octets := ∅
  body : Octets := []
  returncode : Option Octets := some []
  outbox : Octets := []
  headerline : Octets := []

def request (self : UserAgent) (method path : Octets) (contenttype body : Option Octets) : Octets :=
  method ++ octets " " ++ path ++ octets " HTTP/1.1\r\n" ++
    octets "Host: " ++ self.host ++ octets "\r\n" ++
    octets "User-Agent: " ++ self.ua ++ octets "\r\n" ++
    (match contenttype with
      | some (c :: contenttype) => octets "Content-Type: " ++ c :: contenttype ++ octets "\r\n"
      | _ => []) ++
    (match body with
      | some (b :: body) => octets "Content-Length: " ++ decimal (b :: body).length ++ octets "\r\n"
      | _ => []) ++
    octets "\r\n" ++ body.getD []

/-- `connected` says whether there is a socket. -/
def startRequest (self : UserAgent) (connected : Bool) (method path : Octets)
    (contenttype body : Option Octets) : Bool × UserAgent :=
  if self.state ≠ .ready then (false, self)
  else
    let self : UserAgent :=
      { host := self.host, ua := self.ua
        outbox := request self method path contenttype body }
    if connected then (true, { self with state := .sending }) else (false, self)

/-- Whatever has not been written is tried again. -/
def sendData (self : UserAgent) : Write → UserAgent
  | .dies => { self with state := .finished, returncode := some (octets "599") }
  | .undef _ => if self.outbox = [] then { self with state := .readheaders } else self
  | .count written status =>
      if status.writeFailure then self
      else
        let self := { self with outbox := self.outbox.drop written }
        if self.outbox = [] then { self with state := .readheaders } else self

/-- The second of three fields of the status line. -/
def statusOf (statusline : Option Octets) : Option Octets :=
  statusline.bind fun statusline =>
    (cutAt (octets " ") statusline).map fun cut =>
      ((cutAt (octets " ") cut.2).map Prod.fst).getD cut.2

def parseHeader (parsedheaders : AList fun _ : Octets => Option Octets) (line : Octets) :
    AList fun _ : Octets => Option Octets :=
  match cutAt (octets ": ") line with
  | some (key, val) => parsedheaders.insert (lc key) (some val)
  | none => parsedheaders.insert (lc line) none

def parseHeaders (lines : List Octets) : AList fun _ : Octets => Option Octets :=
  lines.foldl parseHeader ∅

/-- The loop of `_readHeaders`, with the reads that it makes. -/
def headersLoop (self : UserAgent) : List Read → UserAgent × List Read
  | [] => (self, [])
  | .nothing why status :: _ => (self, [.nothing why status])
  | .octet buf status :: reads =>
      if status.readFailure then (self, [.octet buf status])
      else if buf = 13 then
        let (self, made) := headersLoop self reads
        (self, .octet buf status :: made)
      else if buf = 10 then
        if self.headerline = [] then ({ self with state := .readbody }, [.octet buf status])
        else
          let (self, made) := headersLoop
            { self with headers := self.headers ++ [self.headerline], headerline := [] } reads
          (self, .octet buf status :: made)
      else
        let (self, made) := headersLoop
          { self with headerline := self.headerline ++ [buf] } reads
        (self, .octet buf status :: made)

def readHeaders (self : UserAgent) (reads : List Read) : UserAgent × List Read :=
  let (self, made) := headersLoop self reads
  if self.state = .readbody then
    ({ self with
        headers := self.headers.tail
        returncode := statusOf self.headers.head?
        parsedheaders := self.headers.tail.foldl parseHeader self.parsedheaders }, made)
  else (self, made)

/-- `$self->{parsedheaders}->{'content-length'}`, if it is defined. -/
def contentLength (parsedheaders : AList fun _ : Octets => Option Octets) : Option Octets :=
  (parsedheaders.lookup (octets "content-length")).join

/-- The loop of `_readBody`, with the reads that it makes. -/
def bodyLoop (length : Octets) (self : UserAgent) : List Read → UserAgent × List Read
  | [] => (self, [])
  | .nothing why status :: _ => (self, [.nothing why status])
  | .octet buf status :: reads =>
      if status.readFailure then (self, [.octet buf status])
      else
        let self := { self with body := self.body ++ [buf] }
        if (self.body.length : Int) = numify length then
          ({ self with state := .finished }, [.octet buf status])
        else
          let (self, made) := bodyLoop length self reads
          (self, .octet buf status :: made)

def readBody (self : UserAgent) (reads : List Read) : UserAgent × List Read :=
  if truthy (contentLength self.parsedheaders) then
    bodyLoop ((contentLength self.parsedheaders).getD []) self reads
  else ({ self with state := .finished }, [])

/-- What the call returns, the user agent after it, and the reads it has made. -/
def finished (self : UserAgent) (call : Call) : Bool × UserAgent × List Read :=
  match self.state with
  | .ready => (false, self, [])
  | .sending => (false, sendData self call.write, [])
  | .readheaders => (false, readHeaders self call.reads)
  | .readbody => (false, readBody self call.reads)
  | .finished => (true, self, [])

def result (self : UserAgent) :
    (Option Octets × (AList fun _ : Octets => Option Octets) × Octets) × UserAgent :=
  ((self.returncode, self.parsedheaders, self.body), { self with state := .ready })

/-! ### What has been written and read -/

/-- The user agent with the history of its socket. `broken` says that the peer has closed the
connection, or that the socket has reported a fatal error. -/
structure Exchange where
  self : UserAgent
  wire : Octets := []
  received : Octets := []
  broken : Bool := false

def Write.taken : Write → Nat
  | .dies => 0
  | .undef _ => 0
  | .count written _ => written

def Write.ends : Write → Bool
  | .dies => true
  | .undef fatal => fatal
  | .count _ _ => false

def Read.ends : Read → Bool
  | .octet _ _ => false
  | .nothing why _ => why ≠ .wouldBlock

def octetsOf (made : List Read) : Octets :=
  made.filterMap fun
    | .octet buf _ => some buf
    | .nothing _ _ => none

/-- One call of `finished`. -/
def step (x : Exchange) (call : Call) : Exchange :=
  let (_, self, made) := finished x.self call
  let write := if x.self.state = .sending then call.write else .undef false
  { self
    wire := x.wire ++ x.self.outbox.take write.taken
    received := x.received ++ octetsOf made
    broken := x.broken || write.ends || made.any Read.ends }

/-- The lines of a head, up to the empty one, and what stands behind it. -/
def cutHead (lines : List Octets) (line : Octets) : Octets → Option (List Octets × Octets)
  | [] => none
  | b :: rest =>
      if b = 13 then cutHead lines line rest
      else if b = 10 then
        if line = [] then some (lines, rest) else cutHead (lines ++ [line]) [] rest
      else cutHead lines (line ++ [b]) rest

/-- A response with `Content-Length` has come completely. -/
def Complete (received : Octets) (lines : List Octets) (body : Octets) : Prop :=
  cutHead [] [] received = some (lines, body) ∧
    ∃ length, contentLength (parseHeaders lines.tail) = some length ∧
      (body.length : Int) = numify length

def Over (x : Exchange) : Prop := x.broken = true ∨ ∃ lines body, Complete x.received lines body

/-- The complete body, or a failure code. -/
def Answered (x : Exchange) : Prop :=
  x.self.returncode = some (octets "599") ∨
    ∃ lines body, Complete x.received lines body ∧ x.self.body = body ∧
      x.self.returncode = statusOf lines.head?

/-- Nothing is written twice or left out, and when it is over the second further call says so. -/
structure Holds (request : Octets) (x : Exchange) : Prop where
  wire : x.wire <+: request
  ended : Over x → ∀ call call', (finished (step x call).self call').1 = true ∧ Answered (step x call)

/-! ### Calls that go well -/

/-- A write that takes something leaves no error, also none from before. -/
def Write.Clean : Write → Prop
  | .dies => True
  | .undef fatal => fatal = false
  | .count written status => written = 0 ∨ status.writeFailure = false

/-- So does a read, and the connection lasts. -/
def Read.Clean : Read → Prop
  | .octet _ status => status.readFailure = false
  | .nothing why _ => why = .wouldBlock

/-- A length of zero is written as one digit or not at all. -/
def Spelled (received : Octets) : Prop :=
  ∀ cut ∈ cutHead [] [] received, ∀ length ∈ contentLength (parseHeaders cut.1.tail),
    numify length = 0 → truthy (some length) = false

def Clean (x : Exchange) (call : Call) : Prop :=
  (x.self.state = .sending → call.write.Clean) ∧
    (∀ read ∈ (finished x.self call).2.2, read.Clean) ∧
    Spelled (x.received ++ octetsOf (finished x.self call).2.2)

/-! ### The loops -/

section Loops
variable {self : UserAgent} {reads : List Read} {lines : List Octets} {line received more : Octets}

theorem any_ends_of_clean {made : List Read} (hClean : ∀ read ∈ made, read.Clean) :
    made.any Read.ends = false := by
  rw [List.any_eq_false]
  intro read hRead
  have hRead := hClean read hRead
  cases read with
  | octet buf status => exact Bool.false_ne_true
  | nothing why status =>
    rw [Read.Clean] at hRead
    simp [Read.ends, hRead]

theorem cutHead_append (hHead : cutHead lines line received = some (lines', body)) (more : Octets) :
    cutHead lines line (received ++ more) = some (lines', body ++ more) := by
  induction received generalizing lines line with
  | nil => cases hHead
  | cons b received ih =>
    rw [cutHead] at hHead
    rw [List.cons_append, cutHead]
    split_ifs at hHead ⊢ with hCr hLf hEmpty
    · exact ih hHead
    · cases hHead
      rfl
    · exact ih hHead
    · exact ih hHead

/-- After the reads of a call something of the head is still to come. -/
structure Continues (ua ua' : UserAgent) (made : List Read) : Prop where
  frame : ua' = { ua with headers := ua'.headers, headerline := ua'.headerline }
  head : ∀ more, cutHead ua.headers ua.headerline (octetsOf made ++ more) =
    cutHead ua'.headers ua'.headerline more

/-- The last read of a call is the end of the head. -/
structure Ends (ua ua' : UserAgent) (made : List Read) : Prop where
  frame : ua' = { ua with
    headers := ua'.headers, headerline := ua'.headerline, state := .readbody }
  head : cutHead ua.headers ua.headerline (octetsOf made) = some (ua'.headers, [])

/-- What one octet does comes before what the rest of the loop does. -/
theorem continues_or_ends_cons {ua mid ua' : UserAgent} {made : List Read} (buf : UInt8)
    (status : Status)
    (hMid : mid = { ua with headers := mid.headers, headerline := mid.headerline })
    (hHead : ∀ more, cutHead ua.headers ua.headerline (buf :: more) =
      cutHead mid.headers mid.headerline more)
    (hRest : Continues mid ua' made ∨ Ends mid ua' made) :
    Continues ua ua' (.octet buf status :: made) ∨ Ends ua ua' (.octet buf status :: made) := by
  have hOctets : octetsOf (.octet buf status :: made) = buf :: octetsOf made := rfl
  rcases hRest with hContinues | hEnds
  · refine .inl ⟨?_, fun more => ?_⟩
    · rw [hContinues.frame, hMid]
    · rw [hOctets, List.cons_append, hHead]
      exact hContinues.head more
  · refine .inr ⟨?_, ?_⟩
    · rw [hEnds.frame, hMid]
    · rw [hOctets, hHead]
      exact hEnds.head

theorem headersLoop_spec (hClean : ∀ read ∈ (headersLoop self reads).2, read.Clean) :
    Continues self (headersLoop self reads).1 (headersLoop self reads).2 ∨
      Ends self (headersLoop self reads).1 (headersLoop self reads).2 := by
  induction reads generalizing self with
  | nil => exact .inl ⟨rfl, fun _ => rfl⟩
  | cons read reads ih =>
    cases read with
    | nothing why status => exact .inl ⟨rfl, fun _ => rfl⟩
    | octet buf status =>
      have hStatus : status.readFailure = false := by
        refine hClean (.octet buf status) ?_
        unfold headersLoop
        split_ifs <;> exact List.mem_cons_self ..
      rw [headersLoop, if_neg (by rw [hStatus]; exact Bool.false_ne_true)] at hClean ⊢
      split_ifs at hClean ⊢ with hCr hLf hEmpty
      · refine continues_or_ends_cons buf status rfl (fun more => ?_)
          (ih fun read hRead => hClean read (List.mem_cons_of_mem _ hRead))
        rw [cutHead, if_pos hCr]
      · refine .inr ⟨rfl, ?_⟩
        change cutHead _ _ [buf] = _
        rw [cutHead, if_neg hCr, if_pos hLf, if_pos hEmpty]
      · refine continues_or_ends_cons buf status rfl (fun more => ?_)
          (ih fun read hRead => hClean read (List.mem_cons_of_mem _ hRead))
        rw [cutHead, if_neg hCr, if_pos hLf, if_neg hEmpty]
      · refine continues_or_ends_cons buf status rfl (fun more => ?_)
          (ih fun read hRead => hClean read (List.mem_cons_of_mem _ hRead))
        rw [cutHead, if_neg hCr, if_neg hLf]

/-- Behind the loop the lines are taken apart when the head is complete. -/
theorem readHeaders_spec (hState : self.state = .readheaders)
    (hClean : ∀ read ∈ (readHeaders self reads).2, read.Clean) :
    Continues self (readHeaders self reads).1 (readHeaders self reads).2 ∨
      ∃ ua, Ends self ua (readHeaders self reads).2 ∧
        (readHeaders self reads).1 = { ua with
          headers := ua.headers.tail
          returncode := statusOf ua.headers.head?
          parsedheaders := ua.headers.tail.foldl parseHeader ua.parsedheaders } := by
  have hMade : (readHeaders self reads).2 = (headersLoop self reads).2 := by
    unfold readHeaders
    dsimp only
    split_ifs
    · rfl
    · rfl
  rw [hMade] at hClean ⊢
  rcases headersLoop_spec hClean with hContinues | hEnds
  · have hStays : (headersLoop self reads).1.state ≠ .readbody := by
      rw [hContinues.frame, hState]
      decide
    have hSelf : (readHeaders self reads).1 = (headersLoop self reads).1 := by
      simp [readHeaders, hStays]
    rw [hSelf]
    exact .inl hContinues
  · have hEnd : (headersLoop self reads).1.state = .readbody := by
      rw [hEnds.frame]
    refine .inr ⟨(headersLoop self reads).1, hEnds, ?_⟩
    simp [readHeaders, hEnd]

/-- The loop keeps what it has read, and stops at the announced length. -/
structure Adds (length : Octets) (ua ua' : UserAgent) (made : List Read) : Prop where
  frame : ua' = { ua with body := ua.body ++ octetsOf made, state := ua'.state }
  stops : ua'.state = .finished ∧ (ua'.body.length : Int) = numify length ∨
    ua'.state = ua.state ∧
      ((ua.body.length : Int) ≠ numify length → (ua'.body.length : Int) ≠ numify length)

theorem bodyLoop_spec {length : Octets}
    (hClean : ∀ read ∈ (bodyLoop length self reads).2, read.Clean) :
    Adds length self (bodyLoop length self reads).1 (bodyLoop length self reads).2 := by
  induction reads generalizing self with
  | nil => exact ⟨by simp [bodyLoop, octetsOf], .inr ⟨rfl, id⟩⟩
  | cons read reads ih =>
    cases read with
    | nothing why status => exact ⟨by simp [bodyLoop, octetsOf], .inr ⟨rfl, id⟩⟩
    | octet buf status =>
      have hStatus : status.readFailure = false := by
        refine hClean (.octet buf status) ?_
        unfold bodyLoop
        dsimp only
        split_ifs
        · exact List.mem_cons_self ..
        · exact List.mem_cons_self ..
        · exact List.mem_cons_self ..
      rw [bodyLoop, if_neg (by rw [hStatus]; exact Bool.false_ne_true)] at hClean ⊢
      dsimp only at hClean ⊢
      split_ifs at hClean ⊢ with hLength
      · exact ⟨rfl, .inl ⟨rfl, hLength⟩⟩
      · have hRest := ih fun read hRead => hClean read (List.mem_cons_of_mem _ hRead)
        refine ⟨?_, hRest.stops.imp_right fun hGoes => ⟨hGoes.1, fun _ => hGoes.2 hLength⟩⟩
        rw [hRest.frame]
        simp [octetsOf]

end Loops

/-! ### What the calls leave, phase by phase -/

section Phases
variable {request : Octets} {x : Exchange} {call : Call}

structure Sending (request : Octets) (x : Exchange) : Prop where
  state : x.self.state = .sending
  wire : x.wire ++ x.self.outbox = request
  received : x.received = []
  broken : x.broken = false
  headers : x.self.headers = []
  headerline : x.self.headerline = []
  parsedheaders : x.self.parsedheaders = ∅
  body : x.self.body = []

structure ReadingHeaders (request : Octets) (x : Exchange) : Prop where
  state : x.self.state = .readheaders
  wire : x.wire = request
  broken : x.broken = false
  head : ∀ more, cutHead [] [] (x.received ++ more) =
    cutHead x.self.headers x.self.headerline more
  parsedheaders : x.self.parsedheaders = ∅
  body : x.self.body = []

/-- The head has been read, and the body as far as it has come. -/
structure HeadRead (x : Exchange) (lines : List Octets) : Prop where
  head : cutHead [] [] x.received = some (lines, x.self.body)
  returncode : x.self.returncode = statusOf lines.head?
  parsedheaders : x.self.parsedheaders = parseHeaders lines.tail

structure ReadingBody (request : Octets) (x : Exchange) : Prop where
  state : x.self.state = .readbody
  wire : x.wire = request
  broken : x.broken = false
  head : ∃ lines, HeadRead x lines
  short : ∀ length ∈ contentLength x.self.parsedheaders, truthy (some length) = true →
    (x.self.body.length : Int) ≠ numify length

structure Finished (request : Octets) (x : Exchange) : Prop where
  state : x.self.state = .finished
  wire : x.wire <+: request
  answer : x.self.returncode = some (octets "599") ∨ x.broken = false ∧ ∃ lines, HeadRead x lines

inductive Good (request : Octets) (x : Exchange) : Prop where
  | sending (h : Sending request x)
  | readheaders (h : ReadingHeaders request x)
  | readbody (h : ReadingBody request x)
  | finished (h : Finished request x)

theorem step_sending (hState : x.self.state = .sending) :
    step x call =
      { self := sendData x.self call.write
        wire := x.wire ++ x.self.outbox.take call.write.taken
        received := x.received
        broken := x.broken || call.write.ends } := by
  rw [step, finished, hState]
  simp [octetsOf]

/-- Behind the request nothing is written. -/
theorem step_reading (hState : x.self.state ≠ .sending) :
    step x call =
      { self := (finished x.self call).2.1
        wire := x.wire
        received := x.received ++ octetsOf (finished x.self call).2.2
        broken := x.broken || (finished x.self call).2.2.any Read.ends } := by
  rw [step]
  simp [hState, Write.taken, Write.ends]

/-- A write with nothing left over: the response can come. -/
theorem Sending.sent (h : Sending request x) {self : UserAgent} {wire : Octets}
    (hWire : wire ++ self.outbox = request) (hSelf : self = { x.self with outbox := self.outbox }) :
    Good request
      { self := if self.outbox = [] then { self with state := .readheaders } else self
        wire, received := x.received, broken := x.broken } := by
  split_ifs with hAll
  · refine .readheaders ⟨rfl, ?_, h.broken, fun more => ?_, ?_, ?_⟩
    · rw [hAll, List.append_nil] at hWire
      exact hWire
    · rw [hSelf, h.received, h.headers, h.headerline, List.nil_append]
    · rw [hSelf, h.parsedheaders]
    · rw [hSelf, h.body]
  · refine .sending ⟨?_, hWire, h.received, h.broken, ?_, ?_, ?_, ?_⟩
    · rw [hSelf, h.state]
    · rw [hSelf, h.headers]
    · rw [hSelf, h.headerline]
    · rw [hSelf, h.parsedheaders]
    · rw [hSelf, h.body]

theorem Sending.next (h : Sending request x) (hClean : call.write.Clean) :
    Good request (step x call) := by
  rw [step_sending h.state]
  cases hWrite : call.write with
  | dies =>
    refine .finished ⟨rfl, ?_, .inl rfl⟩
    rw [Write.taken, List.take_zero, List.append_nil, ← h.wire]
    exact List.prefix_append ..
  | undef fatal =>
    rw [hWrite] at hClean
    have hOpen : (x.broken || Write.ends (.undef fatal)) = x.broken := by
      rw [hClean, Write.ends, Bool.or_false]
    rw [hOpen, Write.taken, List.take_zero, List.append_nil, sendData]
    exact h.sent h.wire rfl
  | count written status =>
    rw [hWrite] at hClean
    rw [Write.ends, Bool.or_false, Write.taken, sendData]
    split_ifs with hFailure
    · have hNothing : written = 0 := hClean.resolve_right (by simp [hFailure])
      rw [hNothing, List.take_zero, List.append_nil]
      exact .sending h
    · refine h.sent ?_ rfl
      rw [List.append_assoc, List.take_append_drop, h.wire]

theorem ReadingHeaders.next (h : ReadingHeaders request x) (hClean : Clean x call) :
    Good request (step x call) := by
  obtain ⟨-, hReads, hSpelled⟩ := hClean
  have hFinished : (finished x.self call).2 = readHeaders x.self call.reads := by
    rw [finished, h.state]
  rw [hFinished] at hReads hSpelled
  rw [step_reading (by rw [h.state]; decide), hFinished, any_ends_of_clean hReads, h.broken]
  rcases readHeaders_spec h.state hReads with hContinues | ⟨ua, hEnds, hSelf⟩
  · refine .readheaders ⟨?_, h.wire, rfl, fun more => ?_, ?_, ?_⟩
    · rw [hContinues.frame, h.state]
    · rw [List.append_assoc, h.head, hContinues.head]
    · rw [hContinues.frame, h.parsedheaders]
    · rw [hContinues.frame, h.body]
  · have hBody : ua.body = [] := by
      rw [hEnds.frame, h.body]
    have hParsed : ua.parsedheaders = ∅ := by
      rw [hEnds.frame, h.parsedheaders]
    have hCut : cutHead [] [] (x.received ++ octetsOf (readHeaders x.self call.reads).2) =
        some (ua.headers, []) := by
      rw [h.head, hEnds.head]
    rw [hSelf]
    refine .readbody ⟨?_, h.wire, rfl, ⟨ua.headers, ?_, rfl, ?_⟩, fun length hLength hTruthy => ?_⟩
    · rw [hEnds.frame]
    · rw [hCut, hBody]
    · rw [hParsed]
      rfl
    · -- nothing has come yet, and a length of zero would not have been taken for one
      rw [hParsed] at hLength
      intro hZero
      rw [hBody] at hZero
      have hFalse := hSpelled _ hCut length hLength hZero.symm
      rw [hTruthy] at hFalse
      exact absurd hFalse Bool.true_eq_false.mp

theorem HeadRead.append {lines : List Octets} (h : HeadRead x lines) {ua : UserAgent}
    (more : Octets) (hSelf : ua = { x.self with body := x.self.body ++ more, state := ua.state })
    {wire : Octets} {broken : Bool} :
    HeadRead { self := ua, wire, received := x.received ++ more, broken } lines := by
  refine ⟨?_, ?_, ?_⟩
  · rw [cutHead_append h.head, hSelf]
  · rw [hSelf, h.returncode]
  · rw [hSelf, h.parsedheaders]

theorem ReadingBody.next (h : ReadingBody request x) (hClean : Clean x call) :
    Good request (step x call) := by
  obtain ⟨-, hReads, -⟩ := hClean
  obtain ⟨lines, hHead⟩ := h.head
  have hFinished : (finished x.self call).2 = readBody x.self call.reads := by
    rw [finished, h.state]
  rw [hFinished] at hReads
  rw [step_reading (by rw [h.state]; decide), hFinished, any_ends_of_clean hReads, h.broken]
  unfold readBody at hReads ⊢
  split_ifs at hReads ⊢ with hTruthy
  · obtain ⟨length, hLength⟩ : ∃ length, contentLength x.self.parsedheaders = some length := by
      cases hDefined : contentLength x.self.parsedheaders with
      | none =>
        rw [hDefined] at hTruthy
        exact absurd hTruthy Bool.false_ne_true
      | some length => exact ⟨length, rfl⟩
    rw [hLength] at hTruthy
    rw [hLength, Option.getD_some] at hReads ⊢
    have hAdds := bodyLoop_spec hReads
    rcases hAdds.stops with ⟨hState, -⟩ | ⟨hState, hShort⟩
    · refine .finished ⟨hState, ?_, .inr ⟨rfl, lines, hHead.append _ hAdds.frame⟩⟩
      rw [h.wire]
    · refine .readbody ⟨?_, h.wire, rfl, ⟨lines, hHead.append _ hAdds.frame⟩, ?_⟩
      · rw [hState, h.state]
      · rw [hAdds.frame, hLength]
        rintro _ ⟨⟩ -
        rw [← hAdds.frame]
        exact hShort (h.short length hLength hTruthy)
  · refine .finished ⟨rfl, ?_, .inr ⟨rfl, lines, ?_⟩⟩
    · rw [h.wire]
    · exact hHead.append [] (by rw [List.append_nil])

theorem Finished.step_eq (h : Finished request x) : step x call = x := by
  have hFinished : (finished x.self call).2 = (x.self, []) := by
    rw [finished, h.state]
  rw [step_reading (by rw [h.state]; decide), hFinished]
  simp [octetsOf]

theorem Good.next (hGood : Good request x) (hClean : Clean x call) :
    Good request (step x call) := by
  cases hGood with
  | sending h => exact h.next (hClean.1 h.state)
  | readheaders h => exact h.next hClean
  | readbody h => exact h.next hClean
  | finished h =>
    rw [h.step_eq]
    exact .finished h

/-! ### When the exchange is over -/

theorem Sending.not_over (h : Sending request x) : ¬ Over x := by
  rintro (hBroken | ⟨lines, body, hHead, -⟩)
  · rw [h.broken] at hBroken
    exact Bool.false_ne_true hBroken
  · rw [h.received] at hHead
    cases hHead

theorem ReadingHeaders.not_over (h : ReadingHeaders request x) : ¬ Over x := by
  rintro (hBroken | ⟨lines, body, hHead, -⟩)
  · rw [h.broken] at hBroken
    exact Bool.false_ne_true hBroken
  · have hOpen := h.head []
    rw [List.append_nil, hHead] at hOpen
    cases hOpen

/-- There is one head, and one body behind it. -/
theorem HeadRead.complete {lines lines' : List Octets} {body : Octets} (h : HeadRead x lines)
    (hComplete : Complete x.received lines' body) : lines' = lines ∧ body = x.self.body := by
  obtain ⟨hHead, -⟩ := hComplete
  rw [h.head] at hHead
  cases hHead
  exact ⟨rfl, rfl⟩

/-- Where the body is still read and the response is complete, no body was announced. -/
theorem ReadingBody.step_over (h : ReadingBody request x) (hOver : Over x) :
    step x call = { x with self := { x.self with state := .finished } } := by
  obtain ⟨lines, hHead⟩ := h.head
  rcases hOver with hBroken | ⟨lines', body, hComplete⟩
  · rw [h.broken] at hBroken
    exact absurd hBroken Bool.false_ne_true
  · obtain ⟨rfl, rfl⟩ := hHead.complete hComplete
    obtain ⟨-, length, hLength, hReached⟩ := hComplete
    rw [← hHead.parsedheaders] at hLength
    have hShort : ¬ truthy (contentLength x.self.parsedheaders) = true := by
      rw [hLength]
      exact fun hTruthy => h.short length hLength hTruthy hReached
    have hFinished : (finished x.self call).2 = ({ x.self with state := .finished }, []) := by
      rw [finished, h.state]
      dsimp only
      rw [readBody, if_neg hShort]
    rw [step_reading (by rw [h.state]; decide), hFinished]
    simp [octetsOf]

theorem ReadingBody.finishes (h : ReadingBody request x) :
    Finished request { x with self := { x.self with state := .finished } } := by
  obtain ⟨lines, hHead⟩ := h.head
  refine ⟨rfl, ?_, .inr ⟨h.broken, lines, hHead.head, hHead.returncode, hHead.parsedheaders⟩⟩
  rw [h.wire]

theorem Finished.answered (h : Finished request x) (hOver : Over x) : Answered x := by
  rcases h.answer with hFailed | ⟨hOpen, lines, hHead⟩
  · exact .inl hFailed
  · rcases hOver with hBroken | ⟨lines', body, hComplete⟩
    · rw [hOpen] at hBroken
      exact absurd hBroken Bool.false_ne_true
    · obtain ⟨rfl, rfl⟩ := hHead.complete hComplete
      exact .inr ⟨lines', x.self.body, hComplete, rfl, hHead.returncode⟩

theorem Good.holds (hGood : Good request x) : Holds request x := by
  cases hGood with
  | sending h =>
    refine ⟨?_, fun hOver => absurd hOver h.not_over⟩
    rw [← h.wire]
    exact List.prefix_append ..
  | readheaders h =>
    refine ⟨?_, fun hOver => absurd hOver h.not_over⟩
    rw [h.wire]
  | readbody h =>
    refine ⟨?_, fun hOver call call' => ?_⟩
    · rw [h.wire]
    · rw [h.step_over hOver]
      exact ⟨rfl, h.finishes.answered hOver⟩
  | finished h =>
    refine ⟨h.wire, fun hOver call call' => ?_⟩
    rw [h.step_eq]
    refine ⟨?_, h.answered hOver⟩
    rw [AsyncUA.finished, h.state]

end Phases

/-! ### A peer that has gone -/

/-- No read of the call brings anything. -/
def Call.Silent (call : Call) : Prop := ∃ why status reads, call.reads = .nothing why status :: reads

theorem finished_silent {self : UserAgent} {call : Call} (hSilent : call.Silent)
    (hReading : self.state = .readheaders ∨
      self.state = .readbody ∧ truthy (contentLength self.parsedheaders) = true) :
    (finished self call).1 = false ∧ (finished self call).2.1 = self := by
  obtain ⟨why, status, reads, hReads⟩ := hSilent
  unfold finished
  rcases hReading with hState | ⟨hState, hTruthy⟩
  · rw [hState, hReads]
    simp [readHeaders, headersLoop, hState]
  · rw [hState, hReads]
    simp [readBody, hTruthy, bodyLoop]

/-- A user agent that waits for its response waits for ever when the peer has closed. -/
theorem never_finished_silent {x : Exchange} {calls : List Call}
    (hReading : x.self.state = .readheaders ∨
      x.self.state = .readbody ∧ truthy (contentLength x.self.parsedheaders) = true)
    (hSilent : ∀ call ∈ calls, call.Silent) : (runEvents step x calls).self = x.self := by
  induction calls generalizing x with
  | nil => rfl
  | cons call calls ih =>
    have hSelf : (step x call).self = x.self :=
      (finished_silent (hSilent call (List.mem_cons_self ..)) hReading).2
    have hRest := ih (x := step x call) (by rw [hSelf]; exact hReading)
      fun call hCall => hSilent call (List.mem_cons_of_mem _ hCall)
    exact hRest.trans hSelf

/-! ### Whole requests -/

theorem startRequest_sending {ua self : UserAgent} {connected : Bool} {method path : Octets}
    {contenttype body : Option Octets}
    (hStart : startRequest ua connected method path contenttype body = (true, self)) :
    Sending (request ua method path contenttype body) { self } := by
  unfold startRequest at hStart
  dsimp only at hStart
  split_ifs at hStart with hReady hConnected
  · cases hStart
  · cases hStart
    exact ⟨rfl, rfl, rfl, rfl, rfl, rfl, rfl, rfl⟩
  · cases hStart

/-- As long as every call is clean, no octet of the request is written twice, and when the
exchange is over the caller hears of it. -/
theorem finished_after_over {ua self : UserAgent} {connected : Bool} {method path : Octets}
    {contenttype body : Option Octets} {calls : List Call}
    (hStart : startRequest ua connected method path contenttype body = (true, self))
    (hClean : Meets step Clean { self } calls) :
    ∀ seen, seen <+: calls →
      Holds (request ua method path contenttype body) (runEvents step { self } seen) := by
  rintro seen ⟨rest, rfl⟩
  have hGood : Good (request ua method path contenttype body) (runEvents step { self } seen) :=
    hClean.of_append.1.invariant (.sending (startRequest_sending hStart))
      fun x call hGood hCall => hGood.next hCall
  exact hGood.holds

instance : DecidablePred Write.Clean
  | .dies => inferInstanceAs (Decidable True)
  | .undef fatal => inferInstanceAs (Decidable (fatal = false))
  | .count written status => inferInstanceAs (Decidable (written = 0 ∨ status.writeFailure = false))

instance : DecidablePred Read.Clean
  | .octet _ status => inferInstanceAs (Decidable (status.readFailure = false))
  | .nothing why _ => inferInstanceAs (Decidable (why = .wouldBlock))

instance (received : Octets) : Decidable (Spelled received) :=
  inferInstanceAs (Decidable (∀ cut ∈ cutHead [] [] received,
    ∀ length ∈ contentLength (parseHeaders cut.1.tail), numify length = 0 → truthy length = false))

instance (x : Exchange) (call : Call) : Decidable (Clean x call) :=
  inferInstanceAs (Decidable (_ ∧ _ ∧ _))

def sampleUa : UserAgent := { host := octets "h", ua := octets "u" }

def sampleRequest : Octets := request sampleUa (octets "GET") (octets "/") none none

def sampleStarted : UserAgent :=
  (startRequest sampleUa true (octets "GET") (octets "/") none none).2

def sampleReads (text : String) : List Read :=
  (octets text).map fun buf => .octet buf ⟨none, 0⟩

def sampleCalls : List Call :=
  [⟨.undef false, []⟩, ⟨.count 5 ⟨none, 0⟩, []⟩, ⟨.count 37 ⟨none, 0⟩, []⟩,
    ⟨.undef false, sampleReads "HTTP/1.1 200 O" ++ [.nothing .wouldBlock ⟨none, 11⟩]⟩,
    ⟨.undef false, sampleReads "K\r\nContent-Length: 2\r\n\r\n"⟩,
    ⟨.undef false, sampleReads "o"⟩, ⟨.undef false, sampleReads "k"⟩]

theorem finished_after_over_sample :
    Holds sampleRequest (runEvents step { self := sampleStarted } sampleCalls) ∧
      (runEvents step { self := sampleStarted } sampleCalls).self.state = .finished := by
  have hStart : startRequest sampleUa true (octets "GET") (octets "/") none none =
      (true, sampleStarted) := rfl
  refine ⟨finished_after_over hStart ?_ sampleCalls List.prefix_rfl, by decide +kernel⟩
  exact ⟨by decide, by decide, by decide, by decide, by decide, by decide, by decide, trivial⟩

/-- An error from before makes a write be repeated; a peer that closes early is never noticed. -/
theorem not_holds_sample :
    startRequest sampleUa true (octets "GET") (octets "/") none none = (true, sampleStarted) ∧
      ¬ Holds sampleRequest (runEvents step { self := sampleStarted }
        [⟨.count 5 ⟨none, 11⟩, []⟩, ⟨.count 42 ⟨none, 0⟩, []⟩]) ∧
      ¬ Holds sampleRequest (runEvents step { self := sampleStarted }
        [⟨.count 42 ⟨none, 0⟩, []⟩, ⟨.undef false, [.nothing .closed ⟨none, 0⟩]⟩]) := by
  refine ⟨rfl, fun h => ?_, fun h => ?_⟩
  · have hWire := h.wire
    revert hWire
    decide +kernel
  · have hOver := h.ended (.inl (by decide +kernel))
      ⟨.undef false, [.nothing .closed ⟨none, 0⟩]⟩ ⟨.undef false, []⟩
    have hFinished := hOver.1
    revert hFinished
    decide +kernel

end PageCamel.Helpers.AsyncUA

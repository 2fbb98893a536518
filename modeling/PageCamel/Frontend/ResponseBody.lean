import PageCamel.Frontend.Upload
import PageCamel.Http3.SendBuffer

/-!
The body of a backend response on its way to an HTTP/3 stream, with a connection
that may refuse any piece of it. A refused piece is kept and sent again once the
response is being streamed; what is sent while the stream still waits for the
response is forgotten, or sent again with the head before it.
-/

namespace PageCamel.Frontend.Http3
open PageCamel.Lib PageCamel.Lib.Http1 PageCamel.Http2 PageCamel.Http3

/-! ### What the connection has taken -/

/-- The body data of a call. -/
def Call.body : Call → Octets
  | .sendResponse _ _ body => body
  | .sendResponseHeaders _ _ => []
  | .sendResponseBody data _ => data

/-- The call ends the response. -/
def Call.ends : Call → Bool
  | .sendResponse _ _ _ => true
  | .sendResponseHeaders _ _ => false
  | .sendResponseBody _ eof => eof

/-- The body data of the calls that were not refused. -/
def accepted (calls : List (Call × Bool)) : Octets :=
  calls.flatMap fun c => if c.2 then c.1.body else []

/-- A call that ends the response was not refused. -/
def ended (calls : List (Call × Bool)) : Bool := calls.any fun c => c.2 && c.1.ends

/-- What the connection does with a call, given the buffer of the stream. -/
def Call.perform (stream : Option StreamBuffer) : Call → Option StreamBuffer × H3Result
  | .sendResponse _ _ body => h3SendResponse stream body
  | .sendResponseHeaders _ _ => (some (stream.getD {}), .ok)
  | .sendResponseBody data eof => h3SendResponseBody stream data eof

/-- The results are those the connection gives one call after the other. -/
def Answered : Option StreamBuffer → List (Call × Bool) → Prop
  | _, [] => True
  | stream, (call, result) :: calls =>
      result = decide ((call.perform stream).2 = .ok) ∧ Answered (call.perform stream).1 calls

def performAll (stream : Option StreamBuffer) (calls : List (Call × Bool)) : Option StreamBuffer :=
  calls.foldl (fun stream c => (c.1.perform stream).1) stream

theorem accepted_append (calls calls' : List (Call × Bool)) :
    accepted (calls ++ calls') = accepted calls ++ accepted calls' := by
  simp [accepted]

theorem ended_append (calls calls' : List (Call × Bool)) :
    ended (calls ++ calls') = (ended calls || ended calls') := by
  simp [ended]

/-- A call adds its body data, unless it is refused. -/
theorem Call.perform_data (call : Call) (b : StreamBuffer) :
    ∃ b', (call.perform (some b)).1 = some b' ∧
      b'.data = b.data ++ if (call.perform (some b)).2 = .ok then call.body else [] := by
  have hSend (data : Octets) (eof : Bool) :
      ∃ b', (h3SendResponseBody (some b) data eof).1 = some b' ∧ b'.data = b.data ++
        if (h3SendResponseBody (some b) data eof).2 = .ok then data else [] := by
    rcases h3SendResponseBody_data b data eof with hEq | hEq
    · rw [hEq]
      exact ⟨b, rfl, (List.append_nil _).symm⟩
    · rw [hEq]
      exact ⟨_, rfl, rfl⟩
  cases call with
  | sendResponse status headers body =>
      by_cases hEmpty : body = []
      · subst hEmpty
        exact ⟨b, rfl, (List.append_nil _).symm⟩
      · rw [perform, h3SendResponse, if_pos hEmpty]
        exact hSend body true
  | sendResponseHeaders status headers => exact ⟨b, rfl, (List.append_nil _).symm⟩
  | sendResponseBody data eof => exact hSend data eof

/-- The buffer of the stream holds what the results say was accepted. -/
theorem performAll_data (calls : List (Call × Bool)) :
    ∀ b : StreamBuffer, Answered (some b) calls →
      (performAll (some b) calls).map StreamBuffer.data = some (b.data ++ accepted calls) := by
  induction calls with
  | nil => intro b _; simp [performAll, accepted]
  | cons c calls ih =>
      obtain ⟨call, result⟩ := c
      rintro b ⟨rfl, hRest⟩
      obtain ⟨b', hAfter, hData⟩ := call.perform_data b
      rw [hAfter] at hRest
      have hAll := ih b' hRest
      rw [← hAfter, hData] at hAll
      exact hAll.trans (by simp [accepted])

/-! ### Runs -/

/-- A stream whose request a backend answers: the octets read from the backend so
far, and the calls made. -/
structure Delivery where
  entry : StreamEntry
  backend : Bool := true
  received : Octets := []
  calls : List (Call × Bool) := []
  closed : Bool := false
  deriving DecidableEq, Repr

/-- How a stream waits for its response: for an ordinary request, for an upgrade, or
for an upgrade that was queued. -/
inductive Waiting where
  | request
  | upgrade
  | queuedUpgrade
  deriving DecidableEq, Repr

def Delivery.start (waiting : Waiting) (request : Octets) : Delivery :=
  { entry := {
      state := some (if waiting = .queuedUpgrade then .tunnelPending else .waitingResponse)
      tobackend := request, tunnelPending := waiting = .upgrade } }

inductive DeliveryEvent where
  | read (n : Nat) (accept : Bool)
  | backendClose (accept : Bool)
  | flush (accept : Bool)
  | writeError
  | streamClose
  deriving DecidableEq, Repr

def Delivery.apply (d : Delivery) (o : Outcome) : Delivery :=
  { d with entry := o.entry, backend := d.backend && o.release.isNone, calls := d.calls ++ o.calls }

/-- The most octets one `sysread` asks for. -/
def readSize : Nat := 65536

/-- The next octets of the response, of which `n` have arrived. -/
def Delivery.next (message : Octets) (d : Delivery) (n : Nat) : Octets :=
  (message.drop d.received.length).take (min n readSize)

def Delivery.receive (d : Delivery) (buf : Octets) : Delivery :=
  { d with received := d.received ++ buf }

/-- The backend sends the message and may close the connection after it. -/
def Delivery.step (message : Octets) (d : Delivery) : DeliveryEvent → Delivery
  | .read n accept =>
      let buf := d.next message n
      if d.backend = false ∨ d.entry.congestionBlocked = true ∨ buf = [] then d
      else (d.receive buf).apply (d.entry.handleBackendData (some buf) accept)
  | .backendClose accept =>
      if d.backend = false ∨ d.received ≠ message then d
      else d.apply (d.entry.handleBackendData none accept)
  | .flush accept => d.apply (d.entry.flushPending accept)
  | .writeError => if d.backend then { d with entry := d.entry.setDisconnected } else d
  | .streamClose => { d.apply d.entry.cleanupStream with closed := true }

/-! ### Faithful delivery -/

/-- The body data the handler still keeps. -/
def Delivery.kept (h : ResponseHead) (d : Delivery) : Octets :=
  match d.entry.state with
  | some .streaming | some .tunnelActive => d.entry.response
  | _ => d.entry.response.drop (headLength h)

/-- What was accepted is in order, nothing received is lost while the stream is open,
and the end is signalled only after everything. -/
structure Delivery.Faithful (h : ResponseHead) (body : Octets) (d : Delivery) : Prop where
  inOrder : accepted d.calls <+: body
  kept : d.closed = false → accepted d.calls ++ d.kept h = d.received.drop (headLength h)
  ended : ended d.calls = true → accepted d.calls = body

/-- Nothing sent while the stream waits for its response is refused, and no write to
the backend fails before the response has been read. -/
def DeliveryEvent.Unrefused (message : Octets) (d : Delivery) : DeliveryEvent → Prop
  | .read _ accept | .backendClose accept =>
      d.entry.state = some .waitingResponse → accept = true
  | .writeError => d.received = message
  | _ => True

/-- The response opens a tunnel. -/
def opensTunnel (waiting : Waiting) (h : ResponseHead) : Bool :=
  waiting = .upgrade ∨
    (digitsValue h.status = 101 ∧ h.fields.any fun f => lc f.1 = octets "upgrade")

/-- What follows the head is the body as it is: a tunnel, or a response whose body is
not chunked and is there as far as its length says. -/
def PlainBody (waiting : Waiting) (method : Octets) (h : ResponseHead) (body : Octets) : Prop :=
  opensTunnel waiting h = true ∨
    h.framing method = some .untilClose ∨ h.framing method = some (.length body.length)

/-! ### The head -/

theorem isSkipped_keepsLength : KeepsLength isSkipped := by
  intro name hName
  simp only [isSkipped, hName]
  decide

theorem statusOf_statusLine {h : ResponseHead} (hWell : h.WellFormed) :
    statusOf (statusLine h.status h.reason) = digitsValue h.status := by
  have hStart : statusLine h.status h.reason =
      octets "HTTP/" ++ (octets "1.1" ++ 0x20 :: (h.status ++ 0x20 :: h.reason)) := by
    rw [statusLine, ← List.append_assoc]
    rfl
  have hPrefix : (octets "HTTP/").isPrefixOf (statusLine h.status h.reason) = true := by
    rw [hStart, List.isPrefixOf_iff_prefix]
    exact List.prefix_append ..
  have hDrop : (statusLine h.status h.reason).drop 5 =
      octets "1.1" ++ 0x20 :: (h.status ++ 0x20 :: h.reason) := by
    rw [hStart]
    exact List.drop_left' rfl
  have hVersion : ∀ b ∈ octets "1.1", (decide ¬ isSpace b = true) = true := by decide +kernel
  have hDigits := List.all_eq_true.mp hWell.status.2
  obtain ⟨b, status, hCons⟩ : ∃ b status, h.status = b :: status := by
    cases hStatus : h.status with
    | nil => have := hWell.status.1; rw [hStatus] at this; cases this
    | cons b status => exact ⟨b, status, rfl⟩
  have hFirst : isSpace b = false :=
    isDigit_not_space (hDigits b (by rw [hCons]; exact List.mem_cons_self ..))
  have hTake : (octets "1.1" ++ 0x20 :: (h.status ++ 0x20 :: h.reason)).takeWhile
      (fun b => ¬ isSpace b) = octets "1.1" := by
    rw [takeWhile_append_of_all hVersion, List.takeWhile_cons_of_neg (by decide), List.append_nil]
  have hSpace : (0x20 :: (h.status ++ 0x20 :: h.reason)).dropWhile isSpace =
      h.status ++ 0x20 :: h.reason := by
    rw [List.dropWhile_cons_of_pos (by decide), hCons, List.cons_append,
      List.dropWhile_cons_of_neg (by simp [hFirst])]
  have hStatus : (h.status ++ 0x20 :: h.reason).takeWhile isDigit = h.status := by
    rw [takeWhile_append_of_all hDigits, List.takeWhile_cons_of_neg (by decide), List.append_nil]
  have hText : (0x0A : UInt8) ∉
      (((h.status ++ 0x20 :: h.reason).drop h.status.length).dropWhile isSpace).dropLast := by
    intro hMem
    rw [List.drop_left] at hMem
    have hReason := (List.dropWhile_sublist isSpace).mem (List.dropLast_subset _ hMem)
    rcases List.mem_cons.mp hReason with hEq | hReason
    · exact absurd hEq (by decide)
    · exact not_mem_of_all hWell.reason (by decide) hReason
  rw [statusOf, if_pos hPrefix]
  dsimp only
  rw [hDrop, hTake, List.drop_left, hSpace, hStatus, if_pos]
  exact ⟨by decide, List.cons_ne_nil _ _, by rw [hCons]; exact List.cons_ne_nil _ _, hText⟩

/-- The fields passed on from a well-formed head. -/
def passedFields (h : ResponseHead) : List Header :=
  responseFields isSkipped (h.fields.map fieldLine)

theorem any_upgrade_passedFields {h : ResponseHead} (hWell : h.WellFormed) :
    ((passedFields h).any fun f => f.1 = octets "upgrade") =
      h.fields.any fun f => lc f.1 = octets "upgrade" := by
  rw [passedFields, responseFields_fieldLine isSkipped hWell.fields, Bool.eq_iff_iff,
    List.any_eq_true, List.any_eq_true]
  simp only [List.mem_map, List.mem_filter, decide_eq_true_eq]
  constructor
  · rintro ⟨_, ⟨f, ⟨hf, _⟩, rfl⟩, hName⟩
    exact ⟨f, hf, hName⟩
  · rintro ⟨f, hf, hName⟩
    refine ⟨_, ⟨f, ⟨hf, ?_⟩, rfl⟩, hName⟩
    simp only [isSkipped, hName]
    decide

/-- What `processBackendResponse` does once the head is there. -/
theorem processHead_eq {h : ResponseHead} (hWell : h.WellFormed) {e : StreamEntry}
    {more wire : Octets} (hPrefix : e.response ++ more = h.message wire)
    (hLong : headLength h ≤ e.response.length) (accept : Bool) :
    e.processHead accept =
      let body := e.response.drop (headLength h)
      let status := digitsValue h.status
      let contentLength := contentLengthOf (passedFields h)
      if e.tunnelPending ∨ (status = 101 ∧ h.fields.any fun f => lc f.1 = octets "upgrade") then
        e.openTunnel (passedFields h) body accept
      else if shouldStream contentLength then
        e.startStreaming status (passedFields h) contentLength body accept
      else if e.disconnected then e.respond status (passedFields h) body accept
      else if reaches contentLength body.length then
        let length := (contentLength.map numify).getD 0
        let body := if length < 0 then body.take (body.length - length.natAbs)
          else body.take length.toNat
        e.respond status (passedFields h) body accept
      else { entry := e } := by
  have hLines : splitAll crlf h.text = statusLine h.status h.reason :: h.fields.map fieldLine :=
    splitAll_text hWell
  rw [StreamEntry.processHead, cutAt_headEnd hWell hPrefix hLong]
  dsimp only
  have hFields : responseFields isSkipped (h.fields.map fieldLine) = passedFields h := rfl
  rw [hLines]
  simp only [List.head?_cons, Option.getD_some, List.tail_cons, statusOf_statusLine hWell, hFields,
    any_upgrade_passedFields hWell]

theorem processHead_short {h : ResponseHead} (hWell : h.WellFormed) {e : StreamEntry}
    {more wire : Octets} (hPrefix : e.response ++ more = h.message wire)
    (hShort : e.response.length < headLength h) (accept : Bool) :
    e.processHead accept = { entry := e } := by
  have hIndex := indexOf_received hWell hPrefix
  rw [if_pos hShort] at hIndex
  rw [StreamEntry.processHead, cutAt, hIndex]
  rfl

/-! ### The invariant -/

/-- Where the delivery of the response stands. -/
inductive Delivery.Phase (waiting : Waiting) (h : ResponseHead) (body : Octets) (d : Delivery) : Prop
  | unsent (hState : d.entry.state = some .waitingResponse)
      (hResponse : d.entry.response = d.received) (hAccepted : accepted d.calls = [])
      (hEnded : ended d.calls = false)
      (hPending : d.entry.tunnelPending = decide (waiting = .upgrade))
  | sent (hState : d.entry.state = some .waitingResponse) (hResponse : d.entry.response = [])
      (hAccepted : accepted d.calls = body) (hReceived : d.received = h.message body)
  | ignored (hState : d.entry.state = some .tunnelPending)
      (hResponse : d.entry.response = d.received) (hAccepted : accepted d.calls = [])
      (hEnded : ended d.calls = false)
  | streaming (hState : d.entry.state = some .streaming)
      (hLong : headLength h ≤ d.received.length)
      (hAccepted : accepted d.calls ++ d.entry.response = d.received.drop (headLength h))
      (hSent : d.entry.bytesSent = (accepted d.calls).length)
      (hLength : d.entry.contentLength = contentLengthOf (passedFields h))
      (hPlain : opensTunnel waiting h = false) (hEnded : ended d.calls = false)
  | tunnel (hState : d.entry.state = some .tunnelActive)
      (hLong : headLength h ≤ d.received.length)
      (hAccepted : accepted d.calls ++ d.entry.response = d.received.drop (headLength h))
      (hEnded : ended d.calls = false)
  | done (hState : d.entry.state = none) (hResponse : d.entry.response = [])
      (hBackend : d.backend = false) (hInOrder : accepted d.calls <+: body)
      (hEnded : ended d.calls = true → accepted d.calls = body)
      (hOpen : d.closed = false → accepted d.calls = body ∧ d.received = h.message body)

structure Delivery.Inv (waiting : Waiting) (h : ResponseHead) (body : Octets) (d : Delivery) :
    Prop where
  received : d.received <+: h.message body
  disconnected : d.entry.disconnected = true → d.received = h.message body
  phase : d.Phase waiting h body

theorem drop_message (h : ResponseHead) (body : Octets) :
    (h.message body).drop (headLength h) = body := by
  rw [ResponseHead.message, headLength, ← List.length_append]
  exact List.drop_left

theorem drop_received {h : ResponseHead} {body received : Octets}
    (hPrefix : received <+: h.message body) : received.drop (headLength h) <+: body := by
  have := hPrefix.drop (headLength h)
  rwa [drop_message] at this

theorem received_next_prefix {message : Octets} {d : Delivery} (hReceived : d.received <+: message)
    (n : Nat) : d.received ++ d.next message n <+: message := by
  obtain ⟨more, hEq⟩ := hReceived
  rw [Delivery.next, ← hEq, List.drop_left]
  exact (List.prefix_append_right_inj _).mpr (List.take_prefix ..)

/-- All of the body has been received when all of the message has. -/
theorem received_of_drop {h : ResponseHead} {body received : Octets}
    (hPrefix : received <+: h.message body) (hLong : headLength h ≤ received.length)
    (hBody : received.drop (headLength h) = body) : received = h.message body := by
  apply hPrefix.eq_of_length
  have := congrArg List.length hBody
  rw [List.length_drop] at this
  rw [ResponseHead.message, List.length_append, List.length_append]
  rw [headLength] at this hLong
  omega

theorem Delivery.Phase.faithful {waiting : Waiting} {h : ResponseHead} {body : Octets}
    {d : Delivery} (hReceived : d.received <+: h.message body) (hPhase : d.Phase waiting h body) :
    d.Faithful h body := by
  have hBody := drop_received hReceived
  have hNever (hEnded : ended d.calls = false) : ended d.calls = true → accepted d.calls = body := by
    intro hYes
    rw [hEnded] at hYes
    cases hYes
  have hStarted (hLive : accepted d.calls ++ d.entry.response = d.received.drop (headLength h)) :
      accepted d.calls <+: body :=
    List.IsPrefix.trans ⟨_, hLive⟩ hBody
  cases hPhase with
  | unsent hState hResponse hAccepted hEnded _ =>
      refine ⟨by rw [hAccepted]; exact List.nil_prefix, fun _ => ?_, hNever hEnded⟩
      rw [hAccepted, Delivery.kept, hState, hResponse]
      rfl
  | sent hState hResponse hAccepted hAll =>
      refine ⟨by rw [hAccepted], fun _ => ?_, fun _ => hAccepted⟩
      rw [hAccepted, Delivery.kept, hState, hResponse, hAll, drop_message]
      simp
  | ignored hState hResponse hAccepted hEnded =>
      refine ⟨by rw [hAccepted]; exact List.nil_prefix, fun _ => ?_, hNever hEnded⟩
      rw [hAccepted, Delivery.kept, hState, hResponse]
      rfl
  | streaming hState _ hAccepted _ _ _ hEnded =>
      refine ⟨hStarted hAccepted, fun _ => ?_, hNever hEnded⟩
      rw [Delivery.kept, hState]
      exact hAccepted
  | tunnel hState _ hAccepted hEnded =>
      refine ⟨hStarted hAccepted, fun _ => ?_, hNever hEnded⟩
      rw [Delivery.kept, hState]
      exact hAccepted
  | done hState hResponse _ hInOrder hEnded hOpen =>
      refine ⟨hInOrder, fun hClosed => ?_, hEnded⟩
      obtain ⟨hAll, hMessage⟩ := hOpen hClosed
      rw [Delivery.kept, hState, hResponse, hAll, hMessage, drop_message]
      simp

theorem apply_after (d : Delivery) (o : Outcome) (calls : List (Call × Bool)) :
    d.apply (o.after calls) = ({ d with calls := d.calls ++ calls } : Delivery).apply o := by
  simp [Delivery.apply, Outcome.after]

/-- Cleaning up after the end mark. -/
theorem phase_finish {waiting : Waiting} {h : ResponseHead} {body : Octets} (d : Delivery)
    (e : StreamEntry) (hAccepted : accepted d.calls = body) (hReceived : d.received = h.message body) :
    (d.apply e.finish).Phase waiting h body := by
  have hSame : accepted (d.apply e.finish).calls = body := by
    rw [← hAccepted]
    simp [Delivery.apply, StreamEntry.finish, Outcome.after, StreamEntry.cleanupStream, accepted,
      Call.body]
  refine .done rfl rfl ?_ (by rw [hSame]) (fun _ => hSame) (fun _ => ⟨hSame, hReceived⟩)
  simp [Delivery.apply, StreamEntry.finish, Outcome.after, StreamEntry.cleanupStream]

/-- Counting octets finds the end of a body that is there as far as its length says. -/
theorem reaches_all {waiting : Waiting} {method : Octets} {h : ResponseHead} (hWell : h.WellFormed)
    {body part : Octets} (hBody : PlainBody waiting method h body)
    (hPlain : opensTunnel waiting h = false) (hPart : part <+: body)
    (hReaches : reaches (contentLengthOf (passedFields h)) part.length = true) :
    part = body ∧ ∀ n, h.announced = some (.length n) → part.take n = body := by
  obtain ⟨n, hAnnounced, hLe⟩ := (reaches_iff isSkipped_keepsLength hWell part.length).mp hReaches
  have hLength := hPart.length_le
  rcases hBody with hTunnel | hClose | hFraming
  · rw [hPlain] at hTunnel
    cases hTunnel
  · rw [ResponseHead.framing] at hClose
    split at hClose
    · cases hClose
    · rw [hAnnounced] at hClose
      cases hClose
  · rw [ResponseHead.framing] at hFraming
    have hAll : part = body := by
      apply hPart.eq_of_length
      split at hFraming
      · simp only [Option.some.injEq, Framing.length.injEq] at hFraming
        omega
      · rw [hAnnounced] at hFraming
        simp only [Option.some.injEq, Framing.length.injEq] at hFraming
        omega
    refine ⟨hAll, fun m hm => ?_⟩
    rw [hAnnounced] at hm
    cases hm
    rw [← hAll]
    apply List.take_of_length_le
    split at hFraming
    · simp only [Option.some.injEq, Framing.length.injEq] at hFraming
      omega
    · rw [hAnnounced] at hFraming
      simp only [Option.some.injEq, Framing.length.injEq] at hFraming
      omega

/-! ### Steps -/

theorem apply_same (d : Delivery) : d.apply { entry := d.entry } = d := by
  simp [Delivery.apply]

section
variable {waiting : Waiting} {method : Octets} {h : ResponseHead} {body : Octets}
variable (hWell : h.WellFormed) (hBody : PlainBody waiting method h body)
include hWell hBody

theorem inv_finishStreaming {d : Delivery} (hInv : d.Inv waiting h body)
    (hState : d.entry.state = some .streaming) :
    (d.apply d.entry.finishStreaming).Inv waiting h body := by
  rw [StreamEntry.finishStreaming]
  split
  · next hEnd =>
      obtain ⟨hEmpty, hWhy⟩ := hEnd
      refine ⟨hInv.received, (fun hEq => by cases hEq), ?_⟩
      cases hInv.phase with
      | streaming _ hLong hAccepted hSent hLength hPlain _ =>
          rw [hEmpty, List.append_nil] at hAccepted
          rcases hWhy with hClosed | hReaches
          · have hAll := hInv.disconnected hClosed
            rw [hAll, drop_message] at hAccepted
            exact phase_finish d d.entry hAccepted hAll
          · rw [hLength, hSent] at hReaches
            have hPart : accepted d.calls <+: body := by
              rw [hAccepted]
              exact drop_received hInv.received
            have hAll := (reaches_all hWell hBody hPlain hPart hReaches).1
            exact phase_finish d d.entry hAll
              (received_of_drop hInv.received hLong (hAccepted ▸ hAll))
      | _ hOther => rw [hState] at hOther; cases hOther
  · rw [apply_same]
    exact hInv

/-- The kept part of a streamed body is sent; a refused piece stays as it is. -/
theorem inv_sendStreaming {d : Delivery} (hInv : d.Inv waiting h body)
    (hState : d.entry.state = some .streaming) {e : StreamEntry} {accept : Bool}
    (hSame : e.state = d.entry.state ∧ e.contentLength = d.entry.contentLength ∧
      e.disconnected = d.entry.disconnected)
    (hSend : if accept then e.response = [] ∧
        e.bytesSent = d.entry.bytesSent + d.entry.response.length
      else e.response = d.entry.response ∧ e.bytesSent = d.entry.bytesSent) :
    (d.apply (e.finishStreaming.after
      [(.sendResponseBody d.entry.response false, accept)])).Inv waiting h body := by
  rw [apply_after]
  refine inv_finishStreaming hWell hBody
    (d := { d with entry := e, calls := d.calls ++ [(.sendResponseBody d.entry.response false, accept)] })
    ⟨hInv.received, fun hEq => hInv.disconnected (hSame.2.2 ▸ hEq), ?_⟩ (hSame.1.trans hState)
  cases hInv.phase with
  | streaming _ hLong hAccepted hSent hLength hPlain hEnded =>
      refine .streaming (hSame.1.trans hState) hLong ?_ ?_ (hSame.2.1.trans hLength) hPlain ?_
      · cases accept
        · simp only [Bool.false_eq_true, if_false] at hSend
          simpa [accepted_append, accepted, hSend.1] using hAccepted
        · simp only [if_true] at hSend
          simpa [accepted_append, accepted, hSend.1, Call.body] using hAccepted
      · cases accept
        · simp only [Bool.false_eq_true, if_false] at hSend
          simpa [accepted_append, accepted, hSend.2] using hSent
        · simp only [if_true] at hSend
          simp only [hSend.2, hSent, accepted_append, List.length_append]
          simp [accepted, Call.body]
      · rw [ended_append, hEnded]
        simp [ended, Call.ends]
  | _ hOther => rw [hState] at hOther; cases hOther

omit hWell hBody in
theorem inv_finishTunnel {d : Delivery} (hInv : d.Inv waiting h body)
    (hState : d.entry.state = some .tunnelActive) :
    (d.apply d.entry.finishTunnel).Inv waiting h body := by
  rw [StreamEntry.finishTunnel]
  split
  · next hEnd =>
      obtain ⟨hEmpty, hClosed⟩ := hEnd
      refine ⟨hInv.received, (fun hEq => by cases hEq), ?_⟩
      have hAll := hInv.disconnected hClosed
      cases hInv.phase with
      | tunnel _ hLong hAccepted _ =>
          rw [hEmpty, List.append_nil, hAll, drop_message] at hAccepted
          exact phase_finish d d.entry hAccepted hAll
      | _ hOther => rw [hState] at hOther; cases hOther
  · rw [apply_same]
    exact hInv

omit hWell hBody in
theorem inv_sendTunnel {d : Delivery} (hInv : d.Inv waiting h body)
    (hState : d.entry.state = some .tunnelActive) (accept : Bool) :
    (d.apply ((if accept then d.entry.sent else d.entry).finishTunnel.after
      [(.sendResponseBody d.entry.response false, accept)])).Inv waiting h body := by
  rw [apply_after]
  refine inv_finishTunnel
    (d := { d with
      entry := if accept then d.entry.sent else d.entry
      calls := d.calls ++ [(.sendResponseBody d.entry.response false, accept)] })
    ⟨hInv.received, fun hEq => hInv.disconnected ?_, ?_⟩ ?_
  · cases accept <;> exact hEq
  · cases hInv.phase with
    | tunnel _ hLong hAccepted hEnded =>
        refine .tunnel ?_ hLong ?_ ?_
        · cases accept <;> exact hState
        · cases accept
          · simpa [accepted_append, accepted] using hAccepted
          · simpa [accepted_append, accepted, StreamEntry.sent, Call.body] using hAccepted
        · rw [ended_append, hEnded]
          simp [ended, Call.ends]
    | _ hOther => rw [hState] at hOther; cases hOther
  · cases accept <;> exact hState

/-- The response is processed when its head is there. -/
theorem inv_processHead {d : Delivery} (hInv : d.Inv waiting h body)
    (hState : d.entry.state = some .waitingResponse)
    (hResponse : d.entry.response = d.received) (hAccepted : accepted d.calls = [])
    (hEnded : ended d.calls = false)
    (hPending : d.entry.tunnelPending = decide (waiting = .upgrade)) :
    (d.apply (d.entry.processHead true)).Inv waiting h body := by
  obtain ⟨more, hMore⟩ := hInv.received
  have hPrefix : d.entry.response ++ more = h.message body := by rw [hResponse, hMore]
  by_cases hLong : headLength h ≤ d.entry.response.length
  · have hLong' : headLength h ≤ d.received.length := hResponse ▸ hLong
    have hPart := drop_received hInv.received
    rw [processHead_eq hWell hPrefix hLong, hPending, hResponse]
    dsimp only
    have hTunnel : (decide (waiting = .upgrade) = true ∨ digitsValue h.status = 101 ∧
        (h.fields.any fun f => lc f.1 = octets "upgrade") = true) ↔ opensTunnel waiting h = true := by
      simp [opensTunnel]
    -- the calls made before have neither sent nor ended anything
    have hCalls (calls : List (Call × Bool)) :
        accepted (d.calls ++ calls) = accepted calls ∧ ended (d.calls ++ calls) = ended calls := by
      rw [accepted_append, ended_append, hAccepted, hEnded]
      exact ⟨rfl, rfl⟩
    split
    · refine ⟨hInv.received, hInv.disconnected, .tunnel rfl hLong' ?_ ?_⟩
      · rw [Delivery.apply, (hCalls _).1]
        simp only [StreamEntry.openTunnel, List.append_nil]
        split
        · simp [accepted, Call.body]
        · next hEmpty => rw [not_not.mp hEmpty]; simp [accepted, Call.body]
      · rw [Delivery.apply, (hCalls _).2]
        simp only [StreamEntry.openTunnel]
        split <;> simp [ended, Call.ends]
    · next hNot =>
        have hPlain : opensTunnel waiting h = false := by
          rw [hTunnel] at hNot
          simpa using hNot
        split
        · refine ⟨hInv.received, ?_, .streaming ?_ hLong' ?_ ?_ ?_ hPlain ?_⟩
          · intro hEq
            apply hInv.disconnected
            simp only [Delivery.apply, StreamEntry.startStreaming, if_true] at hEq
            split at hEq <;> exact hEq
          · simp only [Delivery.apply, StreamEntry.startStreaming, if_true]
            split <;> rfl
          · rw [Delivery.apply, (hCalls _).1]
            simp only [StreamEntry.startStreaming, if_true]
            split
            · simp [accepted, Call.body, StreamEntry.sent, StreamEntry.addSent]
            · next hEmpty =>
                rw [not_not.mp hEmpty]
                simp [accepted, Call.body, StreamEntry.sent]
          · rw [Delivery.apply, (hCalls _).1]
            simp only [StreamEntry.startStreaming, if_true]
            split
            · simp [accepted, Call.body, StreamEntry.sent, StreamEntry.addSent, StreamEntry.streamed]
            · simp [accepted, Call.body, StreamEntry.sent, StreamEntry.streamed]
          · simp only [Delivery.apply, StreamEntry.startStreaming, if_true]
            split <;> rfl
          · rw [Delivery.apply, (hCalls _).2]
            simp only [StreamEntry.startStreaming]
            split <;> simp [ended, Call.ends]
        · split
          · next hClosed =>
              have hAll := hInv.disconnected hClosed
              refine ⟨hInv.received, hInv.disconnected, .sent hState rfl ?_ hAll⟩
              rw [Delivery.apply, (hCalls _).1, hAll, drop_message]
              simp [StreamEntry.respond, accepted, Call.body]
          · split
            · next hReaches =>
                obtain ⟨hAll, hTake⟩ := reaches_all hWell hBody hPlain hPart hReaches
                obtain ⟨n, hAnnounced, _⟩ := (reaches_iff isSkipped_keepsLength hWell _).mp hReaches
                have hNumber : (contentLengthOf (passedFields h)).map numify = some (n : Int) := by
                  rw [passedFields, numify_contentLengthOf isSkipped_keepsLength hWell, hAnnounced]
                  rfl
                refine ⟨hInv.received, hInv.disconnected,
                  .sent hState rfl ?_ (received_of_drop hInv.received hLong' hAll)⟩
                rw [Delivery.apply, (hCalls _).1, hNumber]
                simp only [Option.getD_some, StreamEntry.respond]
                rw [if_neg (by omega), Int.toNat_natCast, hTake n hAnnounced]
                simp [accepted, Call.body]
            · rw [apply_same]
              exact hInv
  · rw [processHead_short hWell hPrefix (by omega), apply_same]
    exact hInv

/-- `processBackendResponse` keeps the invariant unless a send is refused while the
stream waits for its response. -/
theorem inv_process {d : Delivery} (hInv : d.Inv waiting h body) {accept : Bool}
    (hAccept : d.entry.state = some .waitingResponse → accept = true) :
    (d.apply (d.entry.processBackendResponse accept)).Inv waiting h body := by
  rw [StreamEntry.processBackendResponse]
  split
  · next hState =>
      rw [hAccept hState]
      cases hInv.phase with
      | unsent _ hResponse hAccepted hEnded hPending =>
          exact inv_processHead hWell hBody hInv hState hResponse hAccepted hEnded hPending
      | sent _ hResponse =>
          have hNone : d.entry.processHead true = { entry := d.entry } := by
            rw [StreamEntry.processHead, hResponse]
            rfl
          rw [hNone, apply_same]
          exact hInv
      | _ hOther => rw [hState] at hOther; cases hOther
  · next hState =>
      split
      · dsimp only
        cases accept
        · exact inv_sendStreaming hWell hBody hInv hState ⟨rfl, rfl, rfl⟩ ⟨rfl, rfl⟩
        · exact inv_sendStreaming hWell hBody hInv hState ⟨rfl, rfl, rfl⟩ ⟨rfl, rfl⟩
      · exact inv_finishStreaming hWell hBody hInv hState
  · next hState =>
      split
      · exact inv_sendTunnel hInv hState accept
      · exact inv_finishTunnel hInv hState
  · rw [apply_same]
    exact hInv

/-- Octets are read from the backend. -/
theorem inv_read {d : Delivery} (hInv : d.Inv waiting h body) {n : Nat} {accept : Bool}
    (hBackend : d.backend = true) (hOpen : d.entry.congestionBlocked = false)
    (hNext : d.next (h.message body) n ≠ [])
    (hAccept : d.entry.state = some .waitingResponse → accept = true) :
    ((d.receive (d.next (h.message body) n)).apply
      (d.entry.handleBackendData (some (d.next (h.message body) n)) accept)).Inv
        waiting h body := by
  have hMore : d.received ≠ h.message body := by
    intro hAll
    apply hNext
    rw [Delivery.next, hAll, List.drop_length, List.take_nil]
  have hReceived := received_next_prefix hInv.received n
  have hDrop (hLong : headLength h ≤ d.received.length) :
      (d.received ++ d.next (h.message body) n).drop (headLength h) =
        d.received.drop (headLength h) ++ d.next (h.message body) n :=
    List.drop_append_of_le_length hLong
  rw [StreamEntry.handleBackendData, hOpen]
  refine inv_process hWell hBody
    (d := { d.receive (d.next (h.message body) n) with
      entry := d.entry.appendResponse (d.next (h.message body) n) })
    ⟨hReceived, fun hEq => absurd (hInv.disconnected hEq) hMore, ?_⟩ hAccept
  cases hInv.phase with
  | unsent hState hResponse hAccepted hEnded hPending =>
      exact .unsent hState (congrArg (· ++ _) hResponse) hAccepted hEnded hPending
  | sent _ _ _ hAll => exact absurd hAll hMore
  | ignored hState hResponse hAccepted hEnded =>
      exact .ignored hState (congrArg (· ++ _) hResponse) hAccepted hEnded
  | streaming hState hLong hAccepted hSent hLength hPlain hEnded =>
      refine .streaming hState ?_ ?_ hSent hLength hPlain hEnded
      · exact hLong.trans (by simp [Delivery.receive])
      · exact (List.append_assoc ..).symm.trans ((congrArg (· ++ _) hAccepted).trans (hDrop hLong).symm)
  | tunnel hState hLong hAccepted hEnded =>
      refine .tunnel hState ?_ ?_ hEnded
      · exact hLong.trans (by simp [Delivery.receive])
      · exact (List.append_assoc ..).symm.trans ((congrArg (· ++ _) hAccepted).trans (hDrop hLong).symm)
  | done _ _ hNone =>
      rw [hNone] at hBackend
      cases hBackend

omit hWell hBody in
/-- The backend is marked as disconnected after its last octet. -/
theorem inv_setDisconnected {d : Delivery} (hInv : d.Inv waiting h body)
    (hAll : d.received = h.message body) :
    ({ d with entry := d.entry.setDisconnected } : Delivery).Inv waiting h body := by
  refine ⟨hInv.received, fun _ => hAll, ?_⟩
  cases hInv.phase with
  | unsent hState hResponse hAccepted hEnded hPending =>
      exact .unsent hState hResponse hAccepted hEnded hPending
  | sent hState hResponse hAccepted hReceived => exact .sent hState hResponse hAccepted hReceived
  | ignored hState hResponse hAccepted hEnded => exact .ignored hState hResponse hAccepted hEnded
  | streaming hState hLong hAccepted hSent hLength hPlain hEnded =>
      exact .streaming hState hLong hAccepted hSent hLength hPlain hEnded
  | tunnel hState hLong hAccepted hEnded => exact .tunnel hState hLong hAccepted hEnded
  | done hState hResponse hBackend hInOrder hEnded hOpen =>
      exact .done hState hResponse hBackend hInOrder hEnded hOpen

theorem inv_flush {d : Delivery} (hInv : d.Inv waiting h body) (accept : Bool) :
    (d.apply (d.entry.flushPending accept)).Inv waiting h body := by
  rw [StreamEntry.flushPending]
  split
  · rw [apply_same]
    exact hInv
  · split
    · next hState =>
        dsimp only
        cases accept
        · exact inv_sendStreaming hWell hBody hInv hState ⟨rfl, rfl, rfl⟩ ⟨rfl, rfl⟩
        · exact inv_sendStreaming hWell hBody hInv hState ⟨rfl, rfl, rfl⟩ ⟨rfl, rfl⟩
    · next hState => exact inv_sendTunnel hInv hState accept
    · rw [apply_same]
      exact hInv

omit hWell hBody in
theorem inv_streamClose {d : Delivery} (hInv : d.Inv waiting h body) :
    ({ d.apply d.entry.cleanupStream with closed := true } : Delivery).Inv waiting h body := by
  have hFaithful := hInv.phase.faithful hInv.received
  have hSame : (d.apply d.entry.cleanupStream).calls = d.calls := List.append_nil _
  refine ⟨hInv.received, (fun hEq => by cases hEq), .done rfl rfl ?_ ?_ ?_ (fun hEq => by cases hEq)⟩
  · simp [Delivery.apply, StreamEntry.cleanupStream]
  · exact hSame ▸ hFaithful.inOrder
  · exact hSame ▸ hFaithful.ended

/-- One event. -/
theorem Delivery.Inv.step {d : Delivery} (hInv : d.Inv waiting h body) (event : DeliveryEvent)
    (hUnrefused : event.Unrefused (h.message body) d) :
    (d.step (h.message body) event).Inv waiting h body := by
  cases event with
  | read n accept =>
      rw [Delivery.step]
      split
      · exact hInv
      · next hReads =>
          simp only [not_or, Bool.not_eq_false, Bool.not_eq_true] at hReads
          exact inv_read hWell hBody hInv hReads.1 hReads.2.1 hReads.2.2 hUnrefused
  | backendClose accept =>
      rw [Delivery.step]
      split
      · exact hInv
      · next hCloses =>
          simp only [not_or, not_not] at hCloses
          rw [StreamEntry.handleBackendData]
          split
          · rw [apply_same]
            exact hInv
          · exact inv_process hWell hBody
              (d := { d with entry := d.entry.setDisconnected })
              (inv_setDisconnected hInv hCloses.2) hUnrefused
  | flush accept => exact inv_flush hWell hBody hInv accept
  | writeError =>
      rw [Delivery.step]
      split
      · exact inv_setDisconnected hInv hUnrefused
      · exact hInv
  | streamClose => exact inv_streamClose hInv

end

theorem inv_startDelivery (waiting : Waiting) (h : ResponseHead) (request body : Octets) :
    (Delivery.start waiting request).Inv waiting h body := by
  refine ⟨List.nil_prefix, (fun hEq => by cases hEq), ?_⟩
  by_cases hQueued : waiting = .queuedUpgrade
  · exact .ignored (by simp [Delivery.start, hQueued]) rfl rfl rfl
  · exact .unsent (by simp [Delivery.start, hQueued]) rfl rfl rfl rfl

/-- In every run in which nothing sent while the stream waits for its response is
refused, the body is delivered faithfully in every state reached. -/
theorem delivery_faithful {waiting : Waiting} {method request : Octets} {h : ResponseHead}
    {body : Octets} {d : Delivery} (hWell : h.WellFormed)
    (hBody : PlainBody waiting method h body)
    (hRun : Reached (Delivery.step (h.message body))
      (fun d event => event.Unrefused (h.message body) d) (Delivery.start waiting request) d) :
    d.Faithful h body := by
  have hInv := hRun.invariant (inv_startDelivery waiting h request body)
    fun d event hInv hUnrefused => hInv.step hWell hBody event hUnrefused
  exact hInv.phase.faithful hInv.received

/-- A backend that takes over the connection. -/
def switchingHead : ResponseHead :=
  ⟨octets "101", octets "Switching Protocols", [(octets "Upgrade", octets " websocket")]⟩

/-- The data of a tunnel is refused at first and sent again. -/
theorem delivery_faithful_tunnel :
    (runEvents (Delivery.step (switchingHead.message (octets "hello")))
      (Delivery.start .upgrade []) [.read 60 true, .read 3 false, .flush true]).Faithful
        switchingHead (octets "hello") := by
  have hWell : switchingHead.WellFormed := ⟨by decide, by decide, by decide, by decide⟩
  have hBody : PlainBody .upgrade (octets "CONNECT") switchingHead (octets "hello") := .inl rfl
  refine @delivery_faithful .upgrade (octets "CONNECT") [] _ _ _ hWell hBody ?_
  refine .next (DeliveryEvent.flush true) (.next (DeliveryEvent.read 3 false)
    (.next (DeliveryEvent.read 60 true) .start fun _ => rfl) ?_) trivial
  intro hState
  revert hState
  decide +kernel

/-! ### A response that is refused as a whole -/

/-- The stream waits for the end of a response without a content-length. -/
def Delivery.gathered (request received : Octets) : Delivery :=
  { entry := { state := some .waitingResponse, response := received, tobackend := request }
    received }

theorem contentLengthOf_untilClose {h : ResponseHead} (hWell : h.WellFormed)
    (hAnnounced : h.announced = some .untilClose) : contentLengthOf (passedFields h) = none := by
  have hNumber := numify_contentLengthOf isSkipped_keepsLength hWell
  rw [hAnnounced] at hNumber
  exact Option.map_eq_none_iff.mp hNumber

/-- A response without a length, as long as the backend does not close. -/
theorem processHead_untilClose {h : ResponseHead} (hWell : h.WellFormed)
    (hAnnounced : h.announced = some .untilClose) (hPlain : opensTunnel .request h = false)
    {e : StreamEntry} {more body : Octets} (hPrefix : e.response ++ more = h.message body)
    (hPending : e.tunnelPending = false) (accept : Bool) :
    e.processHead accept =
      if e.disconnected ∧ headLength h ≤ e.response.length then
        e.respond (digitsValue h.status) (passedFields h) (e.response.drop (headLength h)) accept
      else { entry := e } := by
  by_cases hLong : headLength h ≤ e.response.length
  · have hNot : ¬ (e.tunnelPending = true ∨ digitsValue h.status = 101 ∧
        (h.fields.any fun f => lc f.1 = octets "upgrade") = true) := by
      simp only [opensTunnel, decide_eq_false_iff_not] at hPlain
      rw [hPending]
      rintro (hEq | hTunnel)
      · cases hEq
      · exact hPlain (.inr hTunnel)
    rw [processHead_eq hWell hPrefix hLong]
    dsimp only
    rw [if_neg hNot, contentLengthOf_untilClose hWell hAnnounced,
      if_neg (show ¬ shouldStream none = true by decide)]
    split
    · next hClosed => rw [if_pos ⟨hClosed, hLong⟩]
    · next hClosed =>
        rw [if_neg (show ¬ reaches none _ = true by simp [reaches]), if_neg fun hBoth => hClosed hBoth.1]
  · rw [processHead_short hWell hPrefix (by omega), if_neg fun hBoth => hLong hBoth.2]

section
variable {h : ResponseHead} (hWell : h.WellFormed) (hAnnounced : h.announced = some .untilClose)
variable (hPlain : opensTunnel .request h = false) (request : Octets)
include hWell hAnnounced hPlain

theorem gathered_read {body received : Octets} (hReceived : received <+: h.message body) (n : Nat)
    (accept : Bool) :
    (Delivery.gathered request received).step (h.message body) (.read n accept) =
      .gathered request
        (received ++ (Delivery.gathered request received).next (h.message body) n) := by
  rw [Delivery.step]
  split
  · next hNone =>
      rcases hNone with hNone | hNone | hNone
      · cases hNone
      · cases hNone
      · rw [hNone, List.append_nil]
  · obtain ⟨more, hEq⟩ := hReceived
    have hPrefix : (received ++ (Delivery.gathered request received).next (h.message body) n) ++
        more.drop (min n readSize) = h.message body := by
      rw [Delivery.next, ← hEq, Delivery.gathered, List.drop_left, List.append_assoc,
        List.take_append_drop]
    rw [StreamEntry.handleBackendData, Delivery.gathered]
    simp only [Bool.false_eq_true, if_false]
    rw [StreamEntry.processBackendResponse]
    dsimp only [StreamEntry.appendResponse]
    rw [processHead_untilClose hWell hAnnounced hPlain hPrefix rfl, if_neg (by simp)]
    rfl

/-- Reads collect the response. -/
theorem gathered_reads (body : Octets) (k : Nat) :
    runEvents (Delivery.step (h.message body)) (.start .request request)
        (List.replicate k (.read readSize true)) =
      .gathered request ((h.message body).take (k * readSize)) := by
  induction k with
  | zero => rw [Nat.zero_mul]; rfl
  | succ k ih =>
      rw [List.replicate_succ', runEvents_append, runEvents_singleton, ih]
      have hDrop : (h.message body).drop
          (Delivery.gathered request ((h.message body).take (k * readSize))).received.length =
          (h.message body).drop (k * readSize) := by
        rw [Delivery.gathered, List.length_take]
        rcases Nat.le_total (k * readSize) (h.message body).length with hLe | hLe
        · rw [Nat.min_eq_left hLe]
        · rw [Nat.min_eq_right hLe, List.drop_length, List.drop_of_length_le hLe]
      rw [gathered_read hWell hAnnounced hPlain request (List.take_prefix ..), Delivery.next,
        hDrop, Nat.min_self, ← List.take_add, Nat.succ_mul]

/-- A body that is too large for the buffer of the stream is discarded when the
backend closes after it. -/
theorem gathered_close {body : Octets} (hLarge : maxBufferSize < body.length) :
    let d := (Delivery.gathered request (h.message body)).step (h.message body) (.backendClose false)
    Answered none d.calls ∧ accepted d.calls = [] ∧ d.kept h = [] ∧ d.closed = false ∧
      d.received = h.message body := by
  have hLong := headLength_le_message h body
  have hStep : (Delivery.gathered request (h.message body)).step (h.message body)
      (.backendClose false) =
      { Delivery.gathered request (h.message body) with
        entry := { (Delivery.gathered request (h.message body)).entry.setDisconnected with
          pendingFlush := true, response := [] }
        calls := [(.sendResponse (digitsValue h.status) (passedFields h) body, false)] } := by
    rw [Delivery.step, if_neg (by simp [Delivery.gathered])]
    rw [StreamEntry.handleBackendData, if_neg (by simp [Delivery.gathered])]
    dsimp only
    rw [StreamEntry.processBackendResponse]
    dsimp only [StreamEntry.setDisconnected, Delivery.gathered]
    rw [processHead_untilClose hWell hAnnounced hPlain (List.append_nil _) rfl,
      if_pos ⟨rfl, hLong⟩, drop_message]
    rfl
  rw [hStep]
  refine ⟨⟨?_, trivial⟩, rfl, rfl, rfl, rfl⟩
  show false = decide ((h3SendResponse none body).2 = .ok)
  rw [h3SendResponse_refuses none hLarge]
  rfl

theorem not_faithful_of_large {body : Octets} (hLarge : maxBufferSize < body.length) {k : Nat}
    (hRead : (h.message body).length ≤ k * readSize) :
    let d := runEvents (Delivery.step (h.message body)) (.start .request request)
      (List.replicate k (.read readSize true) ++ [.backendClose false])
    Answered none d.calls ∧ ¬ d.Faithful h body := by
  obtain ⟨hAnswered, hAccepted, hKept, hOpen, hAll⟩ :=
    gathered_close hWell hAnnounced hPlain request hLarge
  rw [runEvents_append, gathered_reads hWell hAnnounced hPlain, List.take_of_length_le hRead,
    runEvents_singleton]
  refine ⟨hAnswered, fun hFaithful => ?_⟩
  have hLost := hFaithful.kept hOpen
  rw [hAll, drop_message, hAccepted, hKept] at hLost
  rw [← hLost] at hLarge
  exact absurd hLarge (Nat.not_lt_zero _)

end

/-- A response without a content-length. -/
def untilCloseHead : ResponseHead := ⟨octets "200", octets "OK", []⟩

theorem delivery_refused :
    let body : Octets := List.replicate (maxBufferSize + 1) 0x61
    let d := runEvents (Delivery.step (untilCloseHead.message body)) (.start .request [])
      (List.replicate 161 (.read readSize true) ++ [.backendClose false])
    untilCloseHead.WellFormed ∧ Answered none d.calls ∧ ¬ d.Faithful untilCloseHead body := by
  have hWell : untilCloseHead.WellFormed := ⟨by decide, by decide, by decide, by decide⟩
  have hLength : (List.replicate (maxBufferSize + 1) (0x61 : UInt8)).length = maxBufferSize + 1 :=
    List.length_replicate
  generalize List.replicate (maxBufferSize + 1) (0x61 : UInt8) = body at hLength
  have hRead : (untilCloseHead.message body).length ≤ 161 * readSize := by
    rw [ResponseHead.message, List.length_append, hLength]
    decide +kernel
  exact ⟨hWell, not_faithful_of_large hWell rfl rfl [] (by omega) hRead⟩

end PageCamel.Frontend.Http3

import PageCamel.Frontend.Http2Handler

/-!
A whole response relayed to an HTTP/2 stream, however its octets are cut into
reads. The relay counts octets towards the announced content-length and looks at
nothing else, so it is faithful only to responses whose fields announce how their
body really ends, and only when no read goes past that end.
-/

namespace PageCamel.Frontend.Http2
open PageCamel.Lib PageCamel.Lib.Http1

/-! ### Runs -/

/-- The relay of a response: the stream's entry, the calls made so far, and whether
the backend has been released. -/
structure Relay where
  entry : StreamEntry
  calls : List Call := []
  released : Bool := false
  deriving DecidableEq, Repr

/-- A stream whose request has been given to a backend. -/
def Relay.start (upgrade : Bool) (request : Octets) : Relay :=
  { entry := {
      state := some (if upgrade then .tunnelPending else .waitingResponse), tobackend := request } }

/-- One read from the backend. A released backend is not read for the stream. -/
def Relay.read (http3Port : Option Octets) (r : Relay) (buf : Option Octets) : Relay :=
  if r.released then r
  else
    let o := r.entry.handleBackendData http3Port buf
    { entry := o.entry, calls := r.calls ++ o.calls, released := o.release.isSome }

def Relay.reads (http3Port : Option Octets) (r : Relay) (bufs : List Octets) : Relay :=
  bufs.foldl (fun r buf => r.read http3Port (some buf)) r

/-- The DATA octets of a call. -/
def Call.payload : Call → Octets
  | .response _ _ data => data
  | .send data => data
  | _ => []

/-- The call sends END_STREAM. -/
def Call.ends : Call → Bool
  | .response .. => true
  | .close => true
  | _ => false

def Relay.payload (r : Relay) : Octets := r.calls.flatMap Call.payload

def Relay.ended (r : Relay) : Bool := r.calls.any Call.ends

/-! ### Faithfulness -/

/-- The stream has been ended exactly if the body is complete, and then with the
body as its DATA. -/
def Relay.Faithful (r : Relay) (body : Option Octets) : Prop :=
  match body with
  | none => r.ended = false
  | some body => r.ended = true ∧ r.payload = body

/-- The relay is faithful after every read, and after the backend has closed. -/
def RelaysFaithfully (http3Port : Option Octets) (upgrade : Bool) (request method : Octets)
    (h : ResponseHead) (bufs : List Octets) : Prop :=
  (∀ front, front <+: bufs →
    ((Relay.start upgrade request).reads http3Port front).Faithful
      (h.bodyOf method front.flatten false)) ∧
  (((Relay.start upgrade request).reads http3Port bufs).read http3Port none).Faithful
    (h.bodyOf method bufs.flatten true)

/-- Some read ends right where that many octets have been received. -/
def CutsAt (bufs : List Octets) (n : Nat) : Prop :=
  ∃ front, front <+: bufs ∧ front.flatten.length = n

/-- The read that completes the head ends right where that many octets have been
received. -/
def HeadReadEndsAt (h : ResponseHead) (bufs : List Octets) (n : Nat) : Prop :=
  ∃ front buf, front ++ [buf] <+: bufs ∧ front.flatten.length < headLength h ∧
    (front ++ [buf]).flatten.length = n

/-- What the relay needs of a response and of the way it is cut. -/
def Relayable (upgrade : Bool) (method : Octets) (h : ResponseHead) (bufs : List Octets) : Prop :=
  if upgrade then
    ∃ n, h.framing method = some (.length n) ∧ HeadReadEndsAt h bufs (headLength h + n)
  else
    h.announced = h.framing method ∧ h.framing method ≠ some .chunked ∧
      ∀ n, h.framing method = some (.length n) → CutsAt bufs (headLength h + n)

/-! ### What the relay has done after some reads -/

/-- The number of octets after the head at which the relay ends the stream. -/
def closesAt (upgrade : Bool) (h : ResponseHead) : Option Nat :=
  if upgrade then some 0
  else match h.announced with
    | some (.length n) => some n
    | _ => none

/-- Before the end: the octets received are kept up to the end of the head and
passed on from there. -/
structure Relay.Open (upgrade : Bool) (h : ResponseHead) (received : Octets) (r : Relay) : Prop where
  released : r.released = false
  ended : r.ended = false
  head : received.length < headLength h → r.payload = [] ∧ r.entry.response = received ∧
    r.entry.state = some (if upgrade then .tunnelPending else .waitingResponse)
  body : headLength h ≤ received.length → r.payload = received.drop (headLength h) ∧
    r.entry.state = some .streaming ∧ r.entry.stream = true ∧
    r.entry.bytesSent = received.length - headLength h ∧
    r.entry.contentLength = contentLengthOf (responseFields isConnectionSpecific (h.fields.map fieldLine))

/-- After the end: nothing changes any more. -/
structure Relay.Done (wire : Octets) (r : Relay) : Prop where
  released : r.released = true
  ended : r.ended = true
  payload : r.payload = wire

theorem Relay.Done.read {wire : Octets} {r : Relay} (h : r.Done wire) (http3Port : Option Octets)
    (buf : Option Octets) : (r.read http3Port buf).Done wire := by
  rw [Relay.read, if_pos h.released]
  exact h

theorem Relay.Done.reads {wire : Octets} {r : Relay} (h : r.Done wire) (http3Port : Option Octets)
    (bufs : List Octets) : (r.reads http3Port bufs).Done wire := by
  induction bufs generalizing r with
  | nil => exact h
  | cons buf bufs ih => exact ih (h.read http3Port (some buf))

theorem reads_append (http3Port : Option Octets) (r : Relay) (front : List Octets) (buf : Octets) :
    r.reads http3Port (front ++ [buf]) = (r.reads http3Port front).read http3Port (some buf) := by
  simp [Relay.reads]

theorem open_start (upgrade : Bool) (request : Octets) (h : ResponseHead) :
    (Relay.start upgrade request).Open upgrade h [] where
  released := rfl
  ended := rfl
  head _ := ⟨rfl, rfl, rfl⟩
  body hLong := by
    have := headLength_pos h
    simp only [List.length_nil] at hLong
    omega

/-- What the handler does with a response whose head has just been completed. -/
theorem processBackendResponse_eq {h : ResponseHead} (hWell : h.WellFormed)
    (http3Port : Option Octets) {e : StreamEntry} {more wire : Octets}
    (hPrefix : e.response ++ more = h.message wire) (hLong : headLength h ≤ e.response.length) :
    e.processBackendResponse http3Port =
      let fields := responseFields isConnectionSpecific (h.fields.map fieldLine)
      let headers := fields ++ altSvc http3Port
      let body := e.response.drop (headLength h)
      if e.state = some .tunnelPending then
        if h.status = octets "101" then e.openTunnel headers else e.respond h.status headers body
      else if reaches (contentLengthOf fields) body.length then e.respond h.status headers body
      else e.startStreaming h.status headers (contentLengthOf fields) body := by
  have hLines : splitAll crlf h.text = statusLine h.status h.reason :: h.fields.map fieldLine :=
    splitAll_text hWell
  rw [StreamEntry.processBackendResponse, cutAt_headEnd hWell hPrefix hLong]
  dsimp only
  rw [hLines]
  simp only [List.head?_cons, Option.getD_some, List.tail_cons, statusOf_statusLine hWell,
    Option.isSome_some, true_and]

theorem read_eq {r : Relay} (hOpen : r.released = false) (http3Port : Option Octets)
    (buf : Option Octets) {o : Outcome} (ho : r.entry.handleBackendData http3Port buf = o) :
    r.read http3Port buf = { entry := o.entry, calls := r.calls ++ o.calls, released := o.release.isSome } := by
  rw [Relay.read, if_neg (by simp [hOpen]), ho]

/-- The relay has received all it waits for. -/
def Closes (upgrade : Bool) (h : ResponseHead) (received : Nat) : Prop :=
  ∃ n, closesAt upgrade h = some n ∧ headLength h + n ≤ received

theorem reaches_iff_closes {h : ResponseHead} (hWell : h.WellFormed) {received : Nat}
    (hLong : headLength h ≤ received) :
    reaches (contentLengthOf (responseFields isConnectionSpecific (h.fields.map fieldLine))) (received - headLength h) =
      true ↔ Closes false h received := by
  rw [reaches_iff isConnectionSpecific_keepsLength hWell, Closes, closesAt]
  constructor
  · rintro ⟨n, hEq, hLe⟩
    exact ⟨n, by rw [hEq]; rfl, by omega⟩
  · rintro ⟨n, hEq, hLe⟩
    refine ⟨n, ?_, by omega⟩
    simp only [Bool.false_eq_true, if_false] at hEq
    split at hEq
    · next m hAnnounced => cases hEq; exact hAnnounced
    · cases hEq

/-- What a read before the end of the head does: the head is parsed once its end is there. -/
theorem handleBackendData_head {upgrade : Bool} {h : ResponseHead} (hWell : h.WellFormed)
    (http3Port : Option Octets) {e : StreamEntry} {received buf more wire : Octets}
    (hPrefix : received ++ more = h.message wire)
    (hResponse : (e.appendResponse buf).response = received)
    (hState : e.state = some (if upgrade then .tunnelPending else .waitingResponse)) :
    e.handleBackendData http3Port (some buf) =
      if received.length < headLength h then { entry := e.appendResponse buf }
      else (e.appendResponse buf).processBackendResponse http3Port := by
  have hIndex := indexOf_received hWell hPrefix
  rw [StreamEntry.handleBackendData]
  dsimp only
  rw [hState, hResponse, hIndex]
  by_cases hShort : received.length < headLength h
  · rw [if_pos hShort, if_pos hShort]
    cases upgrade <;> rfl
  · rw [if_neg hShort, if_neg hShort]
    cases upgrade <;> rfl

/-- A read short of the end of the head. -/
theorem Relay.Open.read_head {upgrade : Bool} {h : ResponseHead} (hWell : h.WellFormed)
    (http3Port : Option Octets) {received buf more wire : Octets} {r : Relay}
    (hPrefix : received ++ buf ++ more = h.message wire) (hOpen : r.Open upgrade h received)
    (hShort : (received ++ buf).length < headLength h) :
    (r.read http3Port (some buf)).Open upgrade h (received ++ buf) := by
  have hBefore : received.length < headLength h := by
    rw [List.length_append] at hShort
    omega
  obtain ⟨hPayload, hResponse, hState⟩ := hOpen.head hBefore
  have hSame : (r.entry.appendResponse buf).response = received ++ buf := by
    rw [StreamEntry.appendResponse, hResponse]
  have hRead := handleBackendData_head hWell http3Port hPrefix hSame hState
  rw [if_pos hShort] at hRead
  rw [read_eq hOpen.released http3Port (some buf) hRead]
  refine ⟨rfl, ?_, fun _ => ⟨?_, ?_, hState⟩, fun hLong => absurd hShort (by omega)⟩
  · simpa [Relay.ended] using hOpen.ended
  · simpa [Relay.payload] using hPayload
  · exact hSame

/-- The read that completes the head. -/
theorem Relay.Open.read_headEnd {upgrade : Bool} {h : ResponseHead} (hWell : h.WellFormed)
    (hUpgrade : upgrade = true → h.status ≠ octets "101")
    (http3Port : Option Octets) {received buf more wire : Octets} {r : Relay}
    (hPrefix : received ++ buf ++ more = h.message wire) (hOpen : r.Open upgrade h received)
    (hBefore : received.length < headLength h) (hLong : headLength h ≤ (received ++ buf).length) :
    (Closes upgrade h (received ++ buf).length →
      (r.read http3Port (some buf)).Done ((received ++ buf).drop (headLength h))) ∧
    (¬ Closes upgrade h (received ++ buf).length →
      (r.read http3Port (some buf)).Open upgrade h (received ++ buf)) := by
  obtain ⟨hPayload, hResponse, hState⟩ := hOpen.head hBefore
  have hSame : (r.entry.appendResponse buf).response = received ++ buf := by
    rw [StreamEntry.appendResponse, hResponse]
  have hRead := handleBackendData_head hWell http3Port hPrefix hSame hState
  rw [if_neg (Nat.not_lt_of_le hLong), processBackendResponse_eq hWell http3Port
    (by rw [hSame]; exact hPrefix) (by rw [hSame]; exact hLong), hSame] at hRead
  have hState' : (r.entry.appendResponse buf).state =
      some (if upgrade then .tunnelPending else .waitingResponse) := hState
  dsimp only at hRead
  rw [hState'] at hRead
  have hEnded := hOpen.ended
  rw [Relay.ended] at hEnded
  rw [Relay.payload] at hPayload
  cases upgrade with
  | true =>
      simp only [if_true, if_neg (hUpgrade rfl)] at hRead
      refine ⟨fun _ => ?_, fun hNot => absurd ⟨0, rfl, by omega⟩ hNot⟩
      rw [read_eq hOpen.released http3Port (some buf) hRead]
      refine ⟨rfl, ?_, ?_⟩
      · simp [Relay.ended, StreamEntry.respond, Outcome.after, Call.ends]
      · simp [Relay.payload, hPayload, StreamEntry.respond, Outcome.after,
          StreamEntry.cleanupStream, Call.payload]
  | false =>
      have hReaches := reaches_iff_closes hWell hLong
      rw [← List.length_drop] at hReaches
      simp only [Bool.false_eq_true, if_false, Option.some.injEq, reduceCtorEq] at hRead
      constructor
      · intro hCloses
        rw [if_pos (hReaches.mpr hCloses)] at hRead
        rw [read_eq hOpen.released http3Port (some buf) hRead]
        refine ⟨rfl, ?_, ?_⟩
        · simp [Relay.ended, StreamEntry.respond, Outcome.after, Call.ends]
        · simp [Relay.payload, hPayload, StreamEntry.respond, Outcome.after,
            StreamEntry.cleanupStream, Call.payload]
      · intro hNot
        rw [if_neg (mt hReaches.mp hNot)] at hRead
        rw [read_eq hOpen.released http3Port (some buf) hRead]
        refine ⟨rfl, ?_, fun hShort => absurd hShort (by omega), fun _ => ⟨?_, rfl, rfl, ?_, rfl⟩⟩
        · simp only [Relay.ended, List.any_append, hEnded, StreamEntry.startStreaming, Bool.false_or]
          split <;> rfl
        · simp only [Relay.payload, List.flatMap_append, hPayload, StreamEntry.startStreaming,
            List.nil_append]
          split
          · simp [Call.payload]
          · next hEmpty => rw [not_not.mp hEmpty]; rfl
        · exact List.length_drop

/-- A read in the middle of the body. -/
theorem Relay.Open.read_body {h : ResponseHead} (hWell : h.WellFormed)
    (http3Port : Option Octets) {received buf : Octets} {r : Relay}
    (hOpen : r.Open false h received) (hBefore : headLength h ≤ received.length) :
    (Closes false h (received ++ buf).length →
      (r.read http3Port (some buf)).Done ((received ++ buf).drop (headLength h))) ∧
    (¬ Closes false h (received ++ buf).length →
      (r.read http3Port (some buf)).Open false h (received ++ buf)) := by
  obtain ⟨hPayload, hState, hStream, hSent, hLength⟩ := hOpen.body hBefore
  have hLong : headLength h ≤ (received ++ buf).length := by
    rw [List.length_append]
    omega
  have hReaches := reaches_iff_closes hWell hLong
  have hSent' : (r.entry.addSent buf.length).bytesSent =
      (received ++ buf).length - headLength h := by
    show r.entry.bytesSent + buf.length = _
    rw [hSent, List.length_append]
    omega
  have hDrop : (received ++ buf).drop (headLength h) = received.drop (headLength h) ++ buf :=
    List.drop_append_of_le_length hBefore
  rw [← hLength, ← hSent'] at hReaches
  have hEnded := hOpen.ended
  rw [Relay.ended] at hEnded
  rw [Relay.payload] at hPayload
  constructor
  · intro hCloses
    have hRead : r.entry.handleBackendData http3Port (some buf) =
        ((r.entry.addSent buf.length).cleanupStream true).after [.send buf] := by
      rw [StreamEntry.handleBackendData]
      dsimp only
      rw [hState, Option.getD_some, if_pos hStream]
      dsimp only
      rw [if_pos (by exact hReaches.mpr hCloses)]
    have hStream' : (r.entry.addSent buf.length).stream = true := hStream
    rw [read_eq hOpen.released http3Port (some buf) hRead]
    refine ⟨rfl, ?_, ?_⟩
    · simp [Relay.ended, Outcome.after, StreamEntry.cleanupStream, hStream', Call.ends]
    · simp [Relay.payload, hPayload, Outcome.after, StreamEntry.cleanupStream, hStream',
        Call.payload, hDrop]
  · intro hNot
    have hRead : r.entry.handleBackendData http3Port (some buf) =
        { entry := r.entry.addSent buf.length, calls := [.send buf] } := by
      rw [StreamEntry.handleBackendData]
      dsimp only
      rw [hState, Option.getD_some, if_pos hStream]
      dsimp only
      rw [if_neg (by exact mt hReaches.mp hNot)]
      rfl
    rw [read_eq hOpen.released http3Port (some buf) hRead]
    refine ⟨rfl, ?_, fun hShort => absurd hShort (by omega), fun _ =>
      ⟨?_, hState, hStream, hSent', hLength⟩⟩
    · simp [Relay.ended, hEnded, Call.ends]
    · simp [Relay.payload, hPayload, Call.payload, hDrop]

/-- One read of a response that has not been ended. -/
theorem Relay.Open.read {upgrade : Bool} {h : ResponseHead} (hWell : h.WellFormed)
    (hUpgrade : upgrade = true → h.status ≠ octets "101")
    (http3Port : Option Octets) {received buf more wire : Octets} {r : Relay}
    (hPrefix : received ++ buf ++ more = h.message wire) (hOpen : r.Open upgrade h received)
    (hNotYet : ¬ Closes upgrade h received.length) :
    (Closes upgrade h (received ++ buf).length →
      (r.read http3Port (some buf)).Done ((received ++ buf).drop (headLength h))) ∧
    (¬ Closes upgrade h (received ++ buf).length →
      (r.read http3Port (some buf)).Open upgrade h (received ++ buf)) := by
  by_cases hBefore : received.length < headLength h
  · by_cases hLong : headLength h ≤ (received ++ buf).length
    · exact hOpen.read_headEnd hWell hUpgrade http3Port hPrefix hBefore hLong
    · refine ⟨fun hCloses => ?_, fun _ => hOpen.read_head hWell http3Port hPrefix (by omega)⟩
      obtain ⟨n, _, hLe⟩ := hCloses
      omega
  · cases upgrade with
    | true => exact absurd ⟨0, rfl, by omega⟩ hNotYet
    | false => exact hOpen.read_body hWell http3Port (by omega)

theorem Closes.mono {upgrade : Bool} {h : ResponseHead} {n m : Nat} (hCloses : Closes upgrade h n)
    (hLe : n ≤ m) : Closes upgrade h m := by
  obtain ⟨k, hAt, hBound⟩ := hCloses
  exact ⟨k, hAt, by omega⟩

/-- The relay as long as it waits for more. -/
theorem reads_open {upgrade : Bool} {h : ResponseHead} (hWell : h.WellFormed)
    (hUpgrade : upgrade = true → h.status ≠ octets "101") (http3Port : Option Octets)
    (request wire : Octets) (bufs : List Octets) :
    ∀ more, bufs.flatten ++ more = h.message wire → ¬ Closes upgrade h bufs.flatten.length →
      ((Relay.start upgrade request).reads http3Port bufs).Open upgrade h bufs.flatten := by
  induction bufs using List.reverseRecOn with
  | nil => exact fun _ _ _ => open_start upgrade request h
  | append_singleton front buf ih =>
      intro more hPrefix hNot
      rw [List.flatten_append, List.flatten_singleton] at hPrefix hNot ⊢
      have hNotYet : ¬ Closes upgrade h front.flatten.length := fun hCloses =>
        hNot (hCloses.mono (by rw [List.length_append]; omega))
      have hOpen := ih (buf ++ more) (by rw [← List.append_assoc]; exact hPrefix) hNotYet
      rw [reads_append]
      exact (hOpen.read hWell hUpgrade http3Port hPrefix hNotYet).2 hNot

/-- The relay from the read on in which it has received all it waits for. -/
theorem reads_done {upgrade : Bool} {h : ResponseHead} (hWell : h.WellFormed)
    (hUpgrade : upgrade = true → h.status ≠ octets "101") (http3Port : Option Octets)
    (request wire : Octets) (front rest : List Octets) (buf more : Octets)
    (hPrefix : (front ++ [buf]).flatten ++ more = h.message wire)
    (hNotYet : ¬ Closes upgrade h front.flatten.length)
    (hCloses : Closes upgrade h (front ++ [buf]).flatten.length) :
    ((Relay.start upgrade request).reads http3Port (front ++ [buf] ++ rest)).Done
      ((front ++ [buf]).flatten.drop (headLength h)) := by
  rw [List.flatten_append, List.flatten_singleton] at hPrefix hCloses ⊢
  have hOpen := reads_open hWell hUpgrade http3Port request wire front (buf ++ more)
    (by rw [← List.append_assoc]; exact hPrefix) hNotYet
  have hDone := (hOpen.read hWell hUpgrade http3Port hPrefix hNotYet).1 hCloses
  rw [← reads_append] at hDone
  rw [show (Relay.start upgrade request).reads http3Port (front ++ [buf] ++ rest) =
    ((Relay.start upgrade request).reads http3Port (front ++ [buf])).reads http3Port rest from
      List.foldl_append ..]
  exact hDone.reads http3Port rest

/-! ### Where the relay ends the stream -/

/-- The read in which the relay has received all it waits for. -/
structure LastRead (upgrade : Bool) (h : ResponseHead) (front : List Octets) (buf : Octets) :
    Prop where
  before : ¬ Closes upgrade h front.flatten.length
  closes : Closes upgrade h (front ++ [buf]).flatten.length

theorem not_closes_nil (upgrade : Bool) (h : ResponseHead) : ¬ Closes upgrade h 0 := by
  rintro ⟨n, _, hLe⟩
  have := headLength_pos h
  omega

theorem exists_lastRead {upgrade : Bool} {h : ResponseHead} (bufs : List Octets)
    (hCloses : Closes upgrade h bufs.flatten.length) :
    ∃ front buf, front ++ [buf] <+: bufs ∧ LastRead upgrade h front buf := by
  induction bufs using List.reverseRecOn with
  | nil => exact absurd hCloses (not_closes_nil upgrade h)
  | append_singleton bufs buf ih =>
      by_cases hBefore : Closes upgrade h bufs.flatten.length
      · obtain ⟨front, last, hPrefix, hLast⟩ := ih hBefore
        exact ⟨front, last, hPrefix.trans (List.prefix_append ..), hLast⟩
      · exact ⟨bufs, buf, List.prefix_rfl, hBefore, hCloses⟩

theorem flatten_length_le {front bufs : List Octets} (h : front <+: bufs) :
    front.flatten.length ≤ bufs.flatten.length := by
  obtain ⟨rest, rfl⟩ := h
  rw [List.flatten_append, List.length_append]
  omega

/-- The relay after any of the reads. -/
theorem reads_cases {upgrade : Bool} {h : ResponseHead} (hWell : h.WellFormed)
    (hUpgrade : upgrade = true → h.status ≠ octets "101") (http3Port : Option Octets)
    (request wire : Octets) {bufs read : List Octets} (hCut : bufs.flatten = h.message wire)
    (hRead : read <+: bufs) :
    (¬ Closes upgrade h read.flatten.length ∧
      ((Relay.start upgrade request).reads http3Port read).Open upgrade h read.flatten) ∨
    ∃ front buf, front ++ [buf] <+: read ∧ LastRead upgrade h front buf ∧
      ((Relay.start upgrade request).reads http3Port read).Done
        ((front ++ [buf]).flatten.drop (headLength h)) := by
  have hMessage {part : List Octets} (hPart : part <+: bufs) :
      ∃ more, part.flatten ++ more = h.message wire := by
    obtain ⟨rest, rfl⟩ := hPart
    exact ⟨rest.flatten, by rw [← hCut, List.flatten_append]⟩
  by_cases hCloses : Closes upgrade h read.flatten.length
  · right
    obtain ⟨front, buf, hFront, hLast⟩ := exists_lastRead read hCloses
    obtain ⟨more, hMore⟩ := hMessage (hFront.trans hRead)
    obtain ⟨rest, hRest⟩ := hFront
    refine ⟨front, buf, ⟨rest, hRest⟩, hLast, ?_⟩
    rw [← hRest]
    exact reads_done hWell hUpgrade http3Port request wire front rest buf more hMore hLast.before
      hLast.closes
  · left
    obtain ⟨more, hMore⟩ := hMessage hRead
    exact ⟨hCloses, reads_open hWell hUpgrade http3Port request wire read more hMore hCloses⟩

/-! ### When the body is complete -/

theorem bodyOf_length {method : Octets} {h : ResponseHead} {n : Nat}
    (hFraming : h.framing method = some (.length n)) (received : Octets) (closed : Bool) :
    h.bodyOf method received closed =
      if received.length < headLength h + n then none
      else some ((received.drop (headLength h)).take n) := by
  rw [ResponseHead.bodyOf, hFraming]
  by_cases hHead : received.length < headLength h
  · rw [if_pos hHead, if_pos (by omega)]
  · rw [if_neg hHead]
    simp only [Option.bind_some, receivedBody, readBody, List.length_drop]
    by_cases hBody : received.length < headLength h + n
    · rw [if_pos hBody, if_neg (by omega)]
      rfl
    · rw [if_neg hBody, if_pos (by omega)]
      rfl

theorem bodyOf_untilClose {method : Octets} {h : ResponseHead}
    (hFraming : h.framing method = some .untilClose) (received : Octets) :
    h.bodyOf method received false = none := by
  rw [ResponseHead.bodyOf, hFraming]
  split <;> rfl

/-- A chunked body is shorter than the octets that carry it. -/
theorem bodyOf_chunked_length {method : Octets} {h : ResponseHead}
    (hFraming : h.framing method = some .chunked) {received body : Octets} {closed : Bool}
    (hBody : h.bodyOf method received closed = some body) :
    body.length < (received.drop (headLength h)).length := by
  rw [ResponseHead.bodyOf, hFraming] at hBody
  split at hBody
  · cases hBody
  · simp only [Option.bind_some, receivedBody, readBody, Option.map_eq_some_iff] at hBody
    obtain ⟨⟨_, rest⟩, hRead, rfl⟩ := hBody
    exact readChunks_length _ _ _ rest hRead

theorem bodyOf_chunked_closed {method : Octets} {h : ResponseHead}
    (hFraming : h.framing method = some .chunked) (received : Octets) :
    h.bodyOf method received true = h.bodyOf method received false := by
  rw [ResponseHead.bodyOf, ResponseHead.bodyOf, hFraming]
  rfl

theorem framing_of_ne_length_zero {method : Octets} {h : ResponseHead}
    (hNot : h.framing method ≠ some (.length 0)) : h.framing method = h.announced := by
  rw [ResponseHead.framing] at hNot ⊢
  split at hNot
  · exact absurd rfl hNot
  · next hBody => rw [if_neg hBody]

theorem Relay.Open.not_faithful {upgrade : Bool} {h : ResponseHead} {received body : Octets}
    {r : Relay} (hOpen : r.Open upgrade h received) : ¬ r.Faithful (some body) := by
  intro hFaithful
  have hEnded := hOpen.ended
  rw [hFaithful.1] at hEnded
  cases hEnded

theorem Relay.Done.faithful_iff {wire : Octets} {r : Relay} (hDone : r.Done wire)
    (body : Option Octets) : r.Faithful body ↔ body = some wire := by
  cases body with
  | none => simp [Relay.Faithful, hDone.ended]
  | some body => simp [Relay.Faithful, hDone.ended, hDone.payload, eq_comm]

theorem closesAt_false_iff {h : ResponseHead} {n : Nat} :
    closesAt false h = some n ↔ h.announced = some (.length n) := by
  simp only [closesAt, Bool.false_eq_true, if_false]
  split
  · next m hAnnounced => simp [hAnnounced]
  · next hNot =>
      constructor
      · intro hEq; cases hEq
      · intro hEq; exact absurd hEq (hNot n)

/-- A faithful relay of a response that ends with a length has ended it in a read
that stops there. -/
theorem lastRead_of_faithful {upgrade : Bool} {method : Octets} {h : ResponseHead}
    (hWell : h.WellFormed) (hUpgrade : upgrade = true → h.status ≠ octets "101")
    {http3Port : Option Octets} {request wire : Octets} {bufs : List Octets} {n : Nat}
    (hCut : bufs.flatten = h.message wire) (hFraming : h.framing method = some (.length n))
    (hWhole : (h.bodyOf method bufs.flatten true).isSome)
    (hFaithful : RelaysFaithfully http3Port upgrade request method h bufs) :
    ∃ front buf, front ++ [buf] <+: bufs ∧ LastRead upgrade h front buf ∧
      (front ++ [buf]).flatten.length = headLength h + n := by
  have hLong : ¬ bufs.flatten.length < headLength h + n := by
    intro hShort
    rw [bodyOf_length hFraming, if_pos hShort] at hWhole
    cases hWhole
  have hAll := hFaithful.1 bufs List.prefix_rfl
  rw [bodyOf_length hFraming, if_neg hLong] at hAll
  rcases reads_cases hWell hUpgrade http3Port request wire hCut List.prefix_rfl with
    ⟨_, hOpen⟩ | ⟨front, buf, hFront, hLast, hDone⟩
  · exact absurd hAll hOpen.not_faithful
  · refine ⟨front, buf, hFront, hLast, ?_⟩
    have hPayload := (hDone.faithful_iff _).mp hAll
    have hLength := congrArg List.length (Option.some.inj hPayload)
    obtain ⟨m, _, hBound⟩ := hLast.closes
    rw [List.length_take, List.length_drop, List.length_drop] at hLength
    omega

/-- A relay that ends in a read which stops at the end of the body is faithful. -/
theorem faithful_of_lastRead {upgrade : Bool} {method : Octets} {h : ResponseHead}
    (hWell : h.WellFormed) (hUpgrade : upgrade = true → h.status ≠ octets "101")
    (http3Port : Option Octets) (request : Octets) {wire : Octets} {bufs : List Octets} {n : Nat}
    (hCut : bufs.flatten = h.message wire) (hFraming : h.framing method = some (.length n))
    (hWhole : (h.bodyOf method bufs.flatten true).isSome)
    (hEnd : ∀ front buf, front ++ [buf] <+: bufs → LastRead upgrade h front buf →
      (front ++ [buf]).flatten.length = headLength h + n)
    (hOnly : ∀ received, headLength h + n ≤ received → Closes upgrade h received) :
    RelaysFaithfully http3Port upgrade request method h bufs := by
  have hEach (read : List Octets) (hRead : read <+: bufs) (closed : Bool) :
      (¬ Closes upgrade h read.flatten.length ∧
        ((Relay.start upgrade request).reads http3Port read).Faithful
          (h.bodyOf method read.flatten closed)) ∨
      ∃ wire, ((Relay.start upgrade request).reads http3Port read).Done wire ∧
        h.bodyOf method read.flatten closed = some wire := by
    rw [bodyOf_length hFraming]
    rcases reads_cases hWell hUpgrade http3Port request wire hCut hRead with
      ⟨hNot, hOpen⟩ | ⟨front, buf, hFront, hLast, hDone⟩
    · left
      have hShort : read.flatten.length < headLength h + n := by
        by_contra hLong
        exact hNot (hOnly _ (by omega))
      rw [if_pos hShort]
      exact ⟨hNot, hOpen.ended⟩
    · right
      have hLength := hEnd front buf (hFront.trans hRead) hLast
      have hLe := flatten_length_le hFront
      refine ⟨_, hDone, ?_⟩
      rw [if_neg (by omega)]
      obtain ⟨rest, rfl⟩ := hFront
      rw [List.flatten_append, List.drop_append_of_le_length (by omega),
        List.take_left' (by rw [List.length_drop]; omega)]
  constructor
  · intro read hRead
    rcases hEach read hRead false with ⟨_, hFaithful⟩ | ⟨wire, hDone, hBody⟩
    · exact hFaithful
    · exact (hDone.faithful_iff _).mpr hBody
  · rcases hEach bufs List.prefix_rfl true with ⟨hNot, _⟩ | ⟨wire, hDone, hBody⟩
    · exfalso
      apply hNot
      apply hOnly
      by_contra hShort
      rw [bodyOf_length hFraming, if_pos (by omega)] at hWhole
      cases hWhole
    · exact ((hDone.read http3Port none).faithful_iff _).mpr hBody

/-- The end of the connection ends the stream with what has been received. -/
theorem Relay.Open.close {h : ResponseHead} {received : Octets} {r : Relay}
    (hOpen : r.Open false h received) (hLong : headLength h ≤ received.length)
    (http3Port : Option Octets) :
    (r.read http3Port none).Faithful (some (received.drop (headLength h))) := by
  obtain ⟨hPayload, _, hStream, _, _⟩ := hOpen.body hLong
  have hStream' : r.entry.setDisconnected.stream = true := hStream
  rw [Relay.payload] at hPayload
  rw [read_eq hOpen.released http3Port none rfl]
  constructor
  · simp [Relay.ended, StreamEntry.handleBackendData, StreamEntry.cleanupStream, hStream', Call.ends]
  · simp [Relay.payload, hPayload, StreamEntry.handleBackendData, StreamEntry.cleanupStream,
      hStream', Call.payload]

/-- Two prefixes of the reads of which each is longer than what comes before the
last read of the other. -/
theorem prefix_unique {bufs a b : List Octets} {x y : Octets} (ha : a ++ [x] <+: bufs)
    (hb : b ++ [y] <+: bufs) (hab : b.flatten.length < (a ++ [x]).flatten.length)
    (hba : a.flatten.length < (b ++ [y]).flatten.length) : a ++ [x] = b ++ [y] := by
  rcases List.prefix_or_prefix_of_prefix ha hb with hLe | hLe
  · rcases List.prefix_concat_iff.mp hLe with hEq | hShort
    · exact hEq
    · have := flatten_length_le hShort
      omega
  · rcases List.prefix_concat_iff.mp hLe with hEq | hShort
    · exact hEq.symm
    · have := flatten_length_le hShort
      omega

/-- The relay of a complete response is faithful, after every read and in the end,
exactly when the response and the way it is cut are such that counting octets
finds the end of its body. -/
theorem relaysFaithfully_iff (http3Port : Option Octets) (upgrade : Bool)
    (request method wire : Octets) (h : ResponseHead) (bufs : List Octets) (hWell : h.WellFormed)
    (hUpgrade : upgrade = true → h.status ≠ octets "101")
    (hCut : bufs.flatten = h.message wire) (hWhole : (h.bodyOf method bufs.flatten true).isSome) :
    RelaysFaithfully http3Port upgrade request method h bufs ↔
      Relayable upgrade method h bufs := by
  obtain ⟨framing, hFraming⟩ : ∃ framing, h.framing method = some framing := by
    rw [ResponseHead.bodyOf] at hWhole
    split at hWhole
    · cases hWhole
    · cases hEq : h.framing method with
      | none => rw [hEq] at hWhole; cases hWhole
      | some framing => exact ⟨framing, rfl⟩
  have hLong : headLength h ≤ bufs.flatten.length := by
    by_contra hShort
    rw [ResponseHead.bodyOf, if_pos (by omega)] at hWhole
    cases hWhole
  constructor
  · intro hFaithful
    cases framing with
    | length n =>
        obtain ⟨front, buf, hFront, hLast, hEnd⟩ :=
          lastRead_of_faithful hWell hUpgrade hCut hFraming hWhole hFaithful
        cases upgrade with
        | true =>
            refine ⟨n, hFraming, front, buf, hFront, ?_, hEnd⟩
            by_contra hHead
            exact hLast.before ⟨0, rfl, by omega⟩
        | false =>
            obtain ⟨m, hAt, hBound⟩ := hLast.closes
            rw [closesAt_false_iff] at hAt
            refine ⟨?_, by simp [hFraming], fun k hk => ⟨front ++ [buf], hFront, ?_⟩⟩
            · by_cases hZero : n = 0
              · have hm : m = 0 := by omega
                rw [hAt, hFraming, hZero, hm]
              · have hNe : h.framing method ≠ some (.length 0) := by simp [hFraming, hZero]
                rw [framing_of_ne_length_zero hNe]
            · rw [hFraming] at hk
              cases hk
              exact hEnd
    | chunked =>
        -- the octets of the chunks are taken for the body
        exfalso
        have hAll := hFaithful.1 bufs List.prefix_rfl
        rw [bodyOf_chunked_closed hFraming] at hWhole
        obtain ⟨body, hBody⟩ := Option.isSome_iff_exists.mp hWhole
        rcases reads_cases hWell hUpgrade http3Port request wire hCut List.prefix_rfl with
          ⟨_, hOpen⟩ | ⟨front, buf, hFront, hLast, _⟩
        · rw [hBody] at hAll
          exact hOpen.not_faithful hAll
        · have hThere := hFaithful.1 (front ++ [buf]) hFront
          obtain ⟨rest, hRest⟩ := hFront
          have hMore : (front ++ [buf]).flatten ++ rest.flatten = h.message wire := by
            rw [← hCut, ← hRest]
            exact List.flatten_append.symm
          have hDone := reads_done hWell hUpgrade http3Port request wire front [] buf rest.flatten
            hMore hLast.before hLast.closes
          rw [List.append_nil] at hDone
          exact Nat.lt_irrefl _
            (bodyOf_chunked_length hFraming ((hDone.faithful_iff _).mp hThere))
    | untilClose =>
        cases upgrade with
        | true =>
            exfalso
            have hAll := hFaithful.1 bufs List.prefix_rfl
            rw [bodyOf_untilClose hFraming] at hAll
            rcases reads_cases hWell hUpgrade http3Port request wire hCut List.prefix_rfl with
              ⟨hNot, _⟩ | ⟨_, _, _, _, hDone⟩
            · exact hNot ⟨0, rfl, hLong⟩
            · cases (hDone.faithful_iff _).mp hAll
        | false =>
            have hNe : h.framing method ≠ some (.length 0) := by simp [hFraming]
            refine ⟨(framing_of_ne_length_zero hNe).symm, by simp [hFraming], fun n hn => ?_⟩
            rw [hFraming] at hn
            cases hn
  · intro hRelayable
    cases upgrade with
    | true =>
        obtain ⟨n, hLength, front, buf, hFront, hHead, hEnd⟩ := hRelayable
        refine faithful_of_lastRead hWell hUpgrade http3Port request hCut hLength hWhole ?_
          fun received hReceived => ⟨0, rfl, by omega⟩
        intro front' buf' hFront' hLast
        obtain ⟨k, hAt, hBound⟩ := hLast.closes
        have hHead' : front'.flatten.length < headLength h := by
          by_contra hReached
          exact hLast.before ⟨0, rfl, by omega⟩
        rw [prefix_unique hFront' hFront (by omega) (by omega), hEnd]
    | false =>
        obtain ⟨hAnnounced, hChunked, hCuts⟩ := hRelayable
        rw [hFraming] at hAnnounced hChunked hCuts
        cases framing with
        | chunked => exact absurd rfl hChunked
        | length n =>
            refine faithful_of_lastRead hWell hUpgrade http3Port request hCut hFraming hWhole ?_
              fun received hReceived => ⟨n, closesAt_false_iff.mpr hAnnounced, hReceived⟩
            intro front buf hFront hLast
            obtain ⟨k, hAt, hBound⟩ := hLast.closes
            rw [closesAt_false_iff, hAnnounced] at hAt
            cases hAt
            have hBefore : front.flatten.length < headLength h + n := by
              by_contra hReached
              exact hLast.before ⟨n, closesAt_false_iff.mpr hAnnounced, by omega⟩
            obtain ⟨part, hPart, hEnd⟩ := hCuts n rfl
            rcases List.prefix_or_prefix_of_prefix hFront hPart with hLe | hLe
            · have := flatten_length_le hLe
              omega
            · rcases List.prefix_concat_iff.mp hLe with hEq | hShort
              · rw [← hEq, hEnd]
              · have := flatten_length_le hShort
                omega
        | untilClose =>
            have hNever (n : Nat) : ¬ Closes false h n := by
              rintro ⟨m, hAt, _⟩
              rw [closesAt_false_iff, hAnnounced] at hAt
              cases hAt
            have hOpen (read : List Octets) (hRead : read <+: bufs) :
                ((Relay.start false request).reads http3Port read).Open false h read.flatten := by
              rcases reads_cases hWell hUpgrade http3Port request wire hCut hRead with
                ⟨_, hOpen⟩ | ⟨_, _, _, hLast, _⟩
              · exact hOpen
              · exact absurd hLast.closes (hNever _)
            constructor
            · intro read hRead
              rw [bodyOf_untilClose hFraming]
              exact (hOpen read hRead).ended
            · have hBody : h.bodyOf method bufs.flatten true =
                  some (bufs.flatten.drop (headLength h)) := by
                rw [ResponseHead.bodyOf, hFraming, if_neg (by omega)]
                rfl
              rw [hBody]
              exact (hOpen bufs List.prefix_rfl).close hLong http3Port

/-- A response with a content-length, cut in the middle of its body. -/
def plainHead : ResponseHead := ⟨octets "200", octets "OK", [(octets "Content-Length", octets " 5")]⟩

theorem plainHead_wellFormed : plainHead.WellFormed where
  status := by decide
  reason := by decide
  fields := by decide
  announced := by decide

theorem relaysFaithfully_iff_plain :
    RelaysFaithfully none false [] (octets "GET") plainHead
        [plainHead.text ++ headEnd ++ octets "he", octets "llo"] ↔
      Relayable false (octets "GET") plainHead
        [plainHead.text ++ headEnd ++ octets "he", octets "llo"] :=
  relaysFaithfully_iff none false [] (octets "GET") (octets "hello") plainHead
    [plainHead.text ++ headEnd ++ octets "he", octets "llo"] plainHead_wellFormed
    (fun h => by cases h) (by decide +kernel) (by decide +kernel)

/-- A chunked response. -/
def chunkedHead : ResponseHead :=
  ⟨octets "200", octets "OK", [(octets "Transfer-Encoding", octets " chunked")]⟩

/-- Its chunks reach the client as they are, and the stream is not ended. -/
theorem relaysFaithfully_chunked :
    chunkedHead.WellFormed ∧
    chunkedHead.bodyOf (octets "GET") (chunkedHead.message (octets "5\r\nhello\r\n0\r\n\r\n")) false =
      some (octets "hello") ∧
    ¬ RelaysFaithfully none false [] (octets "GET") chunkedHead
        [chunkedHead.message (octets "5\r\nhello\r\n0\r\n\r\n")] := by
  have hWell : chunkedHead.WellFormed :=
    ⟨by decide, by decide, by decide, by decide⟩
  have hBody : chunkedHead.bodyOf (octets "GET")
      (chunkedHead.message (octets "5\r\nhello\r\n0\r\n\r\n")) false = some (octets "hello") := by
    decide +kernel
  have hEnded : ((Relay.start false []).reads none
      [chunkedHead.message (octets "5\r\nhello\r\n0\r\n\r\n")]).ended = false := by
    decide +kernel
  refine ⟨hWell, hBody, fun hFaithful => ?_⟩
  have := hFaithful.1 _ List.prefix_rfl
  rw [List.flatten_singleton, hBody] at this
  rw [this.1] at hEnded
  cases hEnded

end PageCamel.Frontend.Http2

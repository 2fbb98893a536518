import PageCamel.Http2.Frame
import PageCamel.Http2.StateMachine
import PageCamel.Lib.Runs

/-!
The two directions of a stream, each with a sequence of frames of its own, and the one state
that the connection keeps for both.
-/

namespace PageCamel.Http2
open PageCamel.Lib Connection

/-! ### A direction -/

/-- How far a direction of a stream is; in a header block that is not complete, whether
END_STREAM came with it. -/
inductive Phase
  | idle
  | reserved
  | block (endStream : Bool)
  | active
  | ended
  | reset
  deriving DecidableEq, Repr

namespace Phase

def inBlock : Phase → Bool
  | .block _ => true
  | _ => false

theorem ne_block {phase : Phase} (h : phase.inBlock = false) (last : Bool) :
    phase ≠ .block last := by
  rintro rfl
  cases h

/-- After a frame that may end the direction. -/
def complete (endStream : Bool) : Phase := if endStream then .ended else .active

/-- After HEADERS or PUSH_PROMISE. -/
def afterBlock (endStream endHeaders : Bool) : Phase :=
  if endHeaders then complete endStream else .block endStream

/-- After a frame of the direction, if the frame is legal there. -/
def next (phase : Phase) (type : FrameType) (endStream endHeaders : Bool) : Option Phase :=
  if endStream ∧ type ≠ .data ∧ type ≠ .headers then none
  else
    match phase, type with
    | .block last, .continuation => some (afterBlock last endHeaders)
    | .block _, _ => none
    | phase, .priority => some phase
    | .idle, .headers | .reserved, .headers | .active, .headers =>
        some (afterBlock endStream endHeaders)
    | .active, .data => some (complete endStream)
    | .active, .pushPromise => some (afterBlock false endHeaders)
    | .active, .windowUpdate | .ended, .windowUpdate => some phase
    | .reserved, .rstStream | .active, .rstStream | .ended, .rstStream => some .reset
    | _, _ => none

theorem complete_ne_block (endStream last : Bool) : complete endStream ≠ .block last := by
  cases endStream <;> simp [complete]

/-- The legal frames by the phase they come in. -/
inductive Advances : Phase → FrameType → Bool → Bool → Phase → Prop
  | headers {endStream endHeaders : Bool} :
      Advances .active .headers endStream endHeaders (afterBlock endStream endHeaders)
  | first {endStream endHeaders : Bool} :
      Advances .idle .headers endStream endHeaders (afterBlock endStream endHeaders)
  | promised {endStream endHeaders : Bool} :
      Advances .reserved .headers endStream endHeaders (afterBlock endStream endHeaders)
  | continuation {last endHeaders : Bool} :
      Advances (.block last) .continuation false endHeaders (afterBlock last endHeaders)
  | data {endStream endHeaders : Bool} :
      Advances .active .data endStream endHeaders (complete endStream)
  | promise {endHeaders : Bool} :
      Advances .active .pushPromise false endHeaders (afterBlock false endHeaders)
  | priority {phase : Phase} {endHeaders : Bool} : (∀ last, phase ≠ .block last) →
      Advances phase .priority false endHeaders phase
  | update {endHeaders : Bool} : Advances .active .windowUpdate false endHeaders .active
  | lateUpdate {endHeaders : Bool} : Advances .ended .windowUpdate false endHeaders .ended
  | reset {endHeaders : Bool} : Advances .active .rstStream false endHeaders .reset
  | lateReset {endHeaders : Bool} : Advances .ended .rstStream false endHeaders .reset
  | refuse {endHeaders : Bool} : Advances .reserved .rstStream false endHeaders .reset

theorem advances_of_next {phase after : Phase} {type : FrameType} {endStream endHeaders : Bool}
    (h : phase.next type endStream endHeaders = some after) :
    Advances phase type endStream endHeaders after := by
  simp only [next] at h
  split at h
  · cases h
  · next hFlag =>
      cases phase <;> cases type <;> cases endStream <;> simp at h hFlag
      all_goals
        subst h
        constructor
      all_goals simp

/-- The frames of a direction are frames of a stream. -/
theorem Advances.onStream {phase after : Phase} {type : FrameType} {endStream endHeaders : Bool}
    (h : Advances phase type endStream endHeaders after) : type ≠ .settings ∧ type ≠ .goaway := by
  cases h <;> simp

end Phase

/-! ### The state machine on one stream -/

/-- A state that is entered at once or with the end of the header block. -/
def enterBy (endHeaders : Bool) (state new : StreamState) : StreamState × Option StreamState :=
  if endHeaders then (new, none) else (state, some new)

@[simp] theorem enterBy_true (state new : StreamState) : enterBy true state new = (new, none) := rfl

/-- The state of a stream and the state to come after a frame other than PUSH_PROMISE; nothing
when the state machine raises an error. -/
def verdict (state : StreamState) (pending : Option StreamState) (trailer : Bool)
    (sender : Endpoint) (type : FrameType) (endStream endHeaders : Bool) :
    Option (StreamState × Option StreamState) :=
  match pending with
  | some new =>
      if type ≠ .continuation then none
      else some (if endHeaders then (new, none) else (state, some new))
  | none =>
      if type = .continuation then none
      else
        match state with
        | .idle =>
            if type = .headers ∧ sender = .client then
              some (enterBy endHeaders .idle (if endStream then .halfClosed else .opened))
            else if type = .priority then some (.idle, none)
            else none
        | .opened =>
            if endStream ∧ type = .headers then some (enterBy endHeaders .opened .halfClosed)
            else if endStream ∧ type = .data then some (.halfClosed, none)
            else if type = .rstStream then some (.closed, none)
            else if type = .headers ∧ endHeaders ∧ trailer then none
            else some (.opened, none)
        | .reserved =>
            if type = .rstStream then some (.closed, none)
            else if type = .headers ∧ sender = .server then
              some (enterBy endHeaders .reserved (if endStream then .closed else .halfClosed))
            else if type ≠ .priority ∧ sender = .client then none
            else some (.reserved, none)
        | .halfClosed =>
            if type = .rstStream then some (.closed, none)
            else if endStream ∧ sender = .server then
              some (enterBy (type ≠ .headers || endHeaders) .halfClosed .closed)
            else if type ≠ .windowUpdate ∧ type ≠ .priority ∧ sender = .client then none
            else some (.halfClosed, none)
        | .closed =>
            if type ≠ .priority ∧ type ≠ .windowUpdate ∧ sender = .client then none
            else some (.closed, none)

namespace Connection

variable {con : Connection} {sid : Nat}

/-- The stream is in this state, with this one pending, and promises nothing. -/
def Shows (con : Connection) (sid : Nat) (state : StreamState) (pending : Option StreamState) :
    Prop :=
  ∃ s, con.stream? sid = some s ∧ s.state = some state ∧ s.pendingState = pending ∧
    s.promisedSid = none

theorem shows_of_get {state : StreamState} {pending : Option StreamState}
    (hState : con.get sid Stream.state = some state)
    (hPending : con.get sid Stream.pendingState = pending)
    (hPromised : con.get sid Stream.promisedSid = none) : con.Shows sid state pending := by
  obtain ⟨s, hs, hState⟩ := Option.bind_eq_some_iff.mp hState
  rw [get_of_some hs] at hPending hPromised
  exact ⟨s, hs, hState, hPending, hPromised⟩

theorem Shows.get {state : StreamState} {pending : Option StreamState}
    (h : con.Shows sid state pending) :
    con.get sid Stream.state = some state ∧ con.get sid Stream.pendingState = pending ∧
      con.get sid Stream.promisedSid = none := by
  obtain ⟨s, hs, hState, hPending, hPromised⟩ := h
  exact ⟨(get_of_some hs _).trans hState, (get_of_some hs _).trans hPending,
    (get_of_some hs _).trans hPromised⟩

/-- The stream is as the verdict says; an error shuts the connection down. -/
def Follows (con con' : Connection) (sid : Nat) :
    Option (StreamState × Option StreamState) → Prop
  | some (state, pending) => Shows con' sid state pending ∧ con'.shutdown = con.shutdown
  | none => con'.shutdown = true

theorem shows_setState {state : StreamState} {pending : Option StreamState}
    (h : con.Shows sid state pending) (hPending : pending = none) (new : StreamState) :
    (con.setState sid new).Shows sid new none := by
  obtain ⟨s, hs, -, hNone, hPromised⟩ := h
  by_cases hNew : new = .closed
  · subst hNew
    refine ⟨Stream.cleaned { s with state := some .closed }, ?_, rfl, rfl, rfl⟩
    simp [setState, hs]
  · exact ⟨{ s with state := some new }, stream?_setState hs hNew, rfl, hNone.trans hPending,
      hPromised⟩

theorem shows_setPendingState {state : StreamState} {pending : Option StreamState}
    (h : con.Shows sid state pending) (new : Option StreamState) :
    (con.setPendingState sid new).Shows sid state new := by
  obtain ⟨s, hs, hState, -, hPromised⟩ := h
  exact ⟨s.setPending new, stream?_setPendingState hs new, hState, rfl, hPromised⟩

theorem follows_enter {state : StreamState} (h : con.Shows sid state none) (new : StreamState) :
    Follows con (con.setState sid new) sid (some (new, none)) :=
  ⟨shows_setState h rfl new, shutdown_setState con sid new⟩

theorem follows_by {state : StreamState} (h : con.Shows sid state none) (new : StreamState)
    (endHeaders : Bool) :
    Follows con (con.streamState sid new !endHeaders) sid (some (enterBy endHeaders state new)) := by
  cases endHeaders with
  | true => exact follows_enter h new
  | false => exact ⟨shows_setPendingState h (some new), shutdown_setPendingState con sid _⟩

theorem follows_stay {state : StreamState} {pending : Option StreamState}
    (h : con.Shows sid state pending) : Follows con con sid (some (state, pending)) := ⟨h, rfl⟩

theorem follows_fail (con : Connection) (sid : Nat) (code : ErrorCode) :
    Follows con (con.setError code) sid none := shutdown_setError con code

/-- Whether a party sends on its own connection. -/
def actOf (con : Connection) (sender : Endpoint) : Act := if con.type = sender then .send else .recv

theorem server_actOf (con : Connection) (sender : Endpoint) :
    (con.type = .server ↔ con.actOf sender = .send) ↔ sender = .server := by
  rw [actOf]
  cases con.type <;> cases sender <;> simp

/-- The state machine follows the verdict. -/
theorem follows_stateStep {state : StreamState} (hShows : con.Shows sid state none)
    (sender : Endpoint) {type : FrameType} (hContinuation : type ≠ .continuation)
    (hPush : type ≠ .pushPromise) (hIdle : state = .idle → type ≠ .rstStream) (flags : UInt8) :
    Follows con (con.stateStep (con.actOf sender) type flags sid none (some state)) sid
      (verdict state none (con.get sid Stream.trailer).isSome sender type
        (hasFlag flags Flag.endStream) (hasFlag flags Flag.endHeaders)) := by
  have hServer := server_actOf con sender
  generalize con.actOf sender = act at hServer
  generalize hEs : hasFlag flags Flag.endStream = endStream
  generalize hEh : hasFlag flags Flag.endHeaders = endHeaders
  simp only [stateStep, verdict, hServer, hEs, hEh, hContinuation, hPush, if_false, or_false]
  have hClient : (!decide (sender = .server)) = decide (sender = .client) := by
    cases sender <;> rfl
  simp only [hClient, decide_eq_true_eq]
  cases state with
  | idle =>
      have hNotReset := hIdle rfl
      by_cases hOpens : type = .headers ∧ sender = .client
      · obtain ⟨rfl, rfl⟩ := hOpens
        simpa using follows_by hShows _ endHeaders
      · by_cases hPriority : type = .priority
        · subst hPriority
          simpa using follows_stay hShows
        · simp only [hOpens, hPriority, hNotReset, ne_eq, not_false_eq_true, if_true, if_false,
            false_and]
          exact follows_fail con sid _
  | opened =>
      by_cases hHeaders : type = .headers
      · subst hHeaders
        cases endStream with
        | true => simpa using follows_by hShows .halfClosed endHeaders
        | false =>
            by_cases hTrailer : endHeaders = true ∧ (con.get sid Stream.trailer).isSome = true
            · simpa [hTrailer.1, hTrailer.2] using follows_fail con sid _
            · simpa [hTrailer] using follows_stay hShows
      · by_cases hData : endStream = true ∧ type = .data
        · obtain ⟨rfl, rfl⟩ := hData
          simpa using follows_by hShows .halfClosed true
        · by_cases hReset : type = .rstStream
          · subst hReset
            simpa using follows_enter hShows .closed
          · simpa [hHeaders, hData, hReset] using follows_stay hShows
  | reserved =>
      by_cases hReset : type = .rstStream
      · subst hReset
        simpa using follows_enter hShows .closed
      · by_cases hHeaders : type = .headers ∧ sender = .server
        · obtain ⟨rfl, rfl⟩ := hHeaders
          simpa using follows_by hShows _ endHeaders
        · by_cases hRefused : type ≠ .priority ∧ sender = .client
          · simpa [hReset, hHeaders, hRefused] using follows_fail con sid _
          · simpa [hReset, hHeaders, hRefused] using follows_stay hShows
  | halfClosed =>
      by_cases hReset : type = .rstStream
      · subst hReset
        simpa using follows_by hShows .closed true
      · by_cases hEnds : endStream = true ∧ sender = .server
        · obtain ⟨rfl, rfl⟩ := hEnds
          by_cases hHeaders : type = .headers
          · subst hHeaders
            simpa using follows_by hShows .closed endHeaders
          · simpa [hReset, hHeaders] using follows_by hShows .closed true
        · by_cases hRefused : type ≠ .windowUpdate ∧ type ≠ .priority ∧ sender = .client
          · simpa [hReset, hEnds, hRefused] using follows_fail con sid _
          · simpa [hReset, hEnds, hRefused] using follows_stay hShows
  | closed =>
      by_cases hRefused : type ≠ .priority ∧ type ≠ .windowUpdate ∧ sender = .client
      · simpa [hRefused] using follows_fail con sid _
      · simpa [hRefused] using follows_stay hShows

/-- The state machine follows the verdict. -/
theorem follows_stateMachine {state : StreamState} {pending : Option StreamState}
    (hShows : con.Shows sid state pending) (hSid : sid ≠ 0) (hPreface : con.preface = true)
    (sender : Endpoint) {type : FrameType} (hType : type ≠ .settings ∧ type ≠ .goaway)
    (hPush : type ≠ .pushPromise) (hIdle : state = .idle → pending = none → type ≠ .rstStream)
    (flags : UInt8) :
    Follows con (con.stateMachine (con.actOf sender) type flags sid) sid
      (verdict state pending (con.get sid Stream.trailer).isSome sender type
        (hasFlag flags Flag.endStream) (hasFlag flags Flag.endHeaders)) := by
  obtain ⟨s, hs, hState, hPending, hPromised⟩ := hShows
  have hShows : con.Shows sid state pending := ⟨s, hs, hState, hPending, hPromised⟩
  have hGoes : ¬ (sid = 0 ∨ type = .settings ∨ type = .goaway ∨ !con.preface) := by
    simp [hSid, hType, hPreface]
  have hPromised : con.get sid Stream.promisedSid = none := (get_of_some hs _).trans hPromised
  have hPrev : con.get sid Stream.state = some state := (get_of_some hs _).trans hState
  have hPending : con.get sid Stream.pendingState = pending := (get_of_some hs _).trans hPending
  rw [stateMachine, if_neg hGoes]
  simp only [hPromised, Option.getD_none, vivify_of_some hs, hPrev, hPending, reduceCtorEq,
    false_and, if_false, Option.isSome_none, Bool.false_eq_true]
  cases pending with
  | some new =>
      dsimp only [verdict]
      by_cases hContinuation : type = .continuation
      · subst hContinuation
        cases hasFlag flags Flag.endHeaders with
        | false => simpa using follows_stay hShows
        | true =>
            simp only [ne_eq, not_true_eq_false, if_false, if_true]
            refine ⟨shows_setState (shows_setPendingState hShows none) rfl new, ?_⟩
            rw [shutdown_setState, shutdown_setPendingState]
      · simpa [hContinuation] using follows_fail con sid _
  | none =>
      by_cases hContinuation : type = .continuation
      · simpa [hContinuation, verdict] using follows_fail con sid _
      · simpa [hContinuation] using
          follows_stateStep hShows sender hContinuation hPush (fun h => hIdle h rfl) flags

/-! ### A promise on the stream -/

/-- A complete promise makes the other stream reserved and leaves this one as it is. -/
theorem shows_promise {state : StreamState} {other : Nat} (hOther : other ≠ sid)
    (hState : con.get sid Stream.state = some state)
    (hPending : con.get sid Stream.pendingState = none)
    (hPromised : con.get sid Stream.promisedSid = some other)
    (hIdle : con.get other Stream.state = some .idle) (hSid : sid ≠ 0)
    (hPreface : con.preface = true) {flags : UInt8}
    (hEnd : hasFlag flags Flag.endHeaders = true) :
    (con.stateMachine (con.actOf .server) .pushPromise flags sid).Shows sid state none ∧
      (con.stateMachine (con.actOf .server) .pushPromise flags sid).shutdown = con.shutdown := by
  have hServer := (server_actOf con .server).mpr rfl
  have hMade : (con.stream? other).isSome := by
    cases hNone : con.stream? other with
    | none => simp [get, hNone] at hIdle
    | some t => rfl
  have hMachine : con.stateMachine (con.actOf .server) .pushPromise flags sid =
      (con.setState other .reserved).clearPromised sid := by
    have hVivify : con.vivify other = con := by simp [vivify, hMade]
    rw [stateMachine, if_neg (by simp [hSid, hPreface])]
    simp [hPromised, hVivify, hIdle, hPending, stateStep, hServer, hEnd, reserve, streamState]
  obtain ⟨s, hs, hState⟩ := Option.bind_eq_some_iff.mp hState
  rw [get_of_some hs] at hPending
  rw [hMachine]
  refine ⟨⟨{ s with promisedSid := none }, ?_, hState, hPending, rfl⟩, ?_⟩
  · rw [clearPromised, stream?_modifyStream_self, stream?_setState_of_ne (Ne.symm hOther), hs]
    rfl
  · rw [clearPromised, shutdown_modifyStream, shutdown_setState]

end Connection

/-! ### Frames of both directions -/

/-- A frame on the stream, and the connection as the state machine finds it. -/
structure StreamFrame where
  sender : Endpoint
  type : FrameType
  flags : UInt8
  con : Connection

namespace StreamFrame

def endStream (f : StreamFrame) : Bool := hasFlag f.flags Flag.endStream

def endHeaders (f : StreamFrame) : Bool := hasFlag f.flags Flag.endHeaders

end StreamFrame

def Endpoint.peer : Endpoint → Endpoint
  | .client => .server
  | .server => .client

/-- A stream, how far its directions are, and whether a frame raised an error. -/
structure Course where
  con : Connection
  client : Phase
  server : Phase
  raised : Bool := false

namespace Course

def phase (c : Course) : Endpoint → Phase
  | .client => c.client
  | .server => c.server

def next (c : Course) (f : StreamFrame) : Option Phase :=
  (c.phase f.sender).next f.type f.endStream f.endHeaders

def step (sid : Nat) (c : Course) (f : StreamFrame) : Course :=
  let con := f.con.stateMachine (f.con.actOf f.sender) f.type f.flags sid
  let phase := (c.next f).getD (c.phase f.sender)
  { con
    client := if f.sender = .client then phase else c.client
    server := if f.sender = .server then phase else c.server
    raised := c.raised || con.shutdown != f.con.shutdown }

/-- Between two frames the connection changes in any way that leaves the state of the stream
alone. Before PUSH_PROMISE the new stream is noted. -/
structure Undisturbed (sid : Nat) (c : Course) (f : StreamFrame) : Prop where
  preface : f.con.preface = true
  state : f.con.get sid Stream.state = c.con.get sid Stream.state
  pendingState : f.con.get sid Stream.pendingState = c.con.get sid Stream.pendingState
  promised : f.type ≠ .pushPromise →
    f.con.get sid Stream.promisedSid = c.con.get sid Stream.promisedSid
  promise : f.type = .pushPromise → ∃ other ≠ sid,
    f.con.get sid Stream.promisedSid = some other ∧ f.con.get other Stream.state = some .idle

/-- The frame is legal in its own direction; before the client opens the stream there is
nothing but PRIORITY, and only the server promises. -/
structure Legal (c : Course) (f : StreamFrame) : Prop where
  direction : (c.next f).isSome
  opened : c.client = .idle → f.sender = .client ∨ f.type = .priority
  promise : f.type = .pushPromise → f.sender = .server

/-- The stream is idle, or reserved by a promise. -/
structure Start (sid : Nat) (c : Course) : Prop where
  promised : c.con.get sid Stream.promisedSid = none
  pendingState : c.con.get sid Stream.pendingState = none
  raised : c.raised = false
  state : c.con.get sid Stream.state = some .idle ∧ c.client = .idle ∧ c.server = .active ∨
    c.con.get sid Stream.state = some .reserved ∧ c.client = .ended ∧ c.server = .reserved

/-- Both directions have ended, or one was reset. -/
def Over (c : Course) : Prop :=
  c.client = .ended ∧ c.server = .ended ∨ c.client = .reset ∨ c.server = .reset

/-- No frame raised an error, and the stream is closed when it is over. -/
structure Right (sid : Nat) (c : Course) : Prop where
  calm : c.raised = false
  closed : c.con.get sid Stream.state = some .closed ↔ c.Over

/-- What the one state has room for. -/
structure Fits (sid : Nat) (c : Course) (f : StreamFrame) : Prop where
  /-- The other direction is not in a header block. -/
  alone : (c.phase f.sender.peer).inBlock = false
  /-- Header blocks in more than one frame begin the stream, or end their direction. -/
  cut : f.type = .headers → f.endHeaders = false →
    c.client ≠ .reset ∧ (c.phase f.sender = .active → f.endStream = true)
  promise : f.type = .pushPromise → f.endHeaders = true
  /-- With trailers announced, header blocks on the open stream end their direction. -/
  trailer : f.type = .headers → f.endStream = false → c.client = .active → c.server = .active →
    f.con.get sid Stream.trailer = none
  /-- The client is done when the server is. -/
  late : f.sender = .client → c.server = .ended → f.type = .priority ∨ f.type = .windowUpdate ∨
    f.type = .rstStream ∧ c.client = .active
  lateReset : f.sender = .client → c.server = .reset → f.type = .priority ∨ f.type = .windowUpdate
  /-- The client sends no WINDOW_UPDATE before the promised response begins. -/
  early : f.sender = .client → c.server = .reserved → f.type ≠ .windowUpdate

end Course

/-! ### The state that both directions have in common -/

/-- The state of the stream when its directions are this far. -/
inductive Shared : Phase → Phase → StreamState → Option StreamState → Prop
  | idle : Shared .idle .active .idle none
  | opening (last : Bool) :
      Shared (.block last) .active .idle (some (if last then .halfClosed else .opened))
  | opened : Shared .active .active .opened none
  | trailing : Shared (.block true) .active .opened (some .halfClosed)
  | answering : Shared .active (.block true) .opened (some .halfClosed)
  | answered : Shared .active .ended .halfClosed none
  | requested : Shared .ended .active .halfClosed none
  | ending : Shared .ended (.block true) .halfClosed (some .closed)
  | done : Shared .ended .ended .closed none
  | clientReset {server : Phase} : (∀ last, server ≠ .block last) → Shared .reset server .closed none
  | serverReset {client : Phase} : client ≠ .idle → (∀ last, client ≠ .block last) →
      Shared client .reset .closed none
  | reserved : Shared .ended .reserved .reserved none
  | promised (last : Bool) :
      Shared .ended (.block last) .reserved (some (if last then .closed else .halfClosed))


section Frames
variable {client server after : Phase} {state : StreamState} {pending : Option StreamState}
  {trailer : Bool} {type : FrameType} {endStream endHeaders : Bool}

/-- A frame of the client. -/
theorem Shared.clientFrame (h : Shared client server state pending)
    (hNext : Phase.Advances client type endStream endHeaders after)
    (hPush : type ≠ .pushPromise) (hAlone : ∀ last, server ≠ .block last)
    (hCut : type = .headers → endHeaders = false → client = .active → endStream = true)
    (hTrailer : type = .headers → endStream = false → client = .active → server = .active →
      trailer = false)
    (hLate : server = .ended → type = .priority ∨ type = .windowUpdate ∨
      type = .rstStream ∧ client = .active)
    (hLateReset : server = .reset → type = .priority ∨ type = .windowUpdate)
    (hEarly : server = .reserved → type ≠ .windowUpdate) :
    ∃ shown, verdict state pending trailer .client type endStream endHeaders = some shown ∧
      Shared after server shown.1 shown.2 := by
  cases h with
  | idle =>
      cases hNext with
      | first =>
          cases endHeaders with
          | false => exact ⟨_, rfl, .opening endStream⟩
          | true =>
              cases endStream with
              | false => exact ⟨_, rfl, .opened⟩
              | true => exact ⟨_, rfl, .requested⟩
      | priority => exact ⟨_, rfl, .idle⟩
  | opening last =>
      cases hNext with
      | continuation =>
          cases endHeaders with
          | false => exact ⟨_, rfl, .opening last⟩
          | true =>
              cases last with
              | false => exact ⟨_, rfl, .opened⟩
              | true => exact ⟨_, rfl, .requested⟩
      | priority hBlock => exact absurd rfl (hBlock last)
  | opened =>
      cases hNext with
      | headers =>
          cases endStream with
          | true =>
              cases endHeaders with
              | false => exact ⟨_, rfl, .trailing⟩
              | true => exact ⟨_, rfl, .requested⟩
          | false =>
              cases endHeaders with
              | false => cases hCut rfl rfl rfl
              | true =>
                  obtain rfl := hTrailer rfl rfl rfl rfl
                  exact ⟨_, rfl, .opened⟩
      | data =>
          cases endStream with
          | false => exact ⟨_, rfl, .opened⟩
          | true => exact ⟨_, rfl, .requested⟩
      | promise => exact absurd rfl hPush
      | priority | update => exact ⟨_, rfl, .opened⟩
      | reset => exact ⟨_, rfl, .clientReset hAlone⟩
  | trailing =>
      cases hNext with
      | continuation =>
          cases endHeaders with
          | false => exact ⟨_, rfl, .trailing⟩
          | true => exact ⟨_, rfl, .requested⟩
      | priority hBlock => exact absurd rfl (hBlock true)
  | answering => exact absurd rfl (hAlone true)
  | answered =>
      cases hNext with
      | headers | data => simp at hLate
      | promise => exact absurd rfl hPush
      | priority | update => exact ⟨_, rfl, .answered⟩
      | reset => exact ⟨_, rfl, .clientReset hAlone⟩
  | requested =>
      cases hNext with
      | priority | lateUpdate => exact ⟨_, rfl, .requested⟩
      | lateReset => exact ⟨_, rfl, .clientReset hAlone⟩
  | ending => exact absurd rfl (hAlone true)
  | done =>
      cases hNext with
      | priority | lateUpdate => exact ⟨_, rfl, .done⟩
      | lateReset => simp at hLate
  | clientReset hServer =>
      cases hNext with
      | priority => exact ⟨_, rfl, .clientReset hServer⟩
  | serverReset hClient hBlock =>
      cases hNext with
      | headers | data | promised | reset | lateReset | refuse => simp at hLateReset
      | first => exact absurd rfl hClient
      | promise => exact absurd rfl hPush
      | continuation => exact absurd rfl (hBlock _)
      | priority | update | lateUpdate => exact ⟨_, rfl, .serverReset hClient hBlock⟩
  | reserved =>
      cases hNext with
      | priority => exact ⟨_, rfl, .reserved⟩
      | lateUpdate => exact absurd rfl (hEarly rfl)
      | lateReset => exact ⟨_, rfl, .clientReset hAlone⟩
  | promised last => exact absurd rfl (hAlone last)

/-- A frame of the server. -/
theorem Shared.serverFrame (h : Shared client server state pending)
    (hNext : Phase.Advances server type endStream endHeaders after)
    (hPush : type ≠ .pushPromise) (hOpened : client = .idle → type = .priority)
    (hAlone : ∀ last, client ≠ .block last)
    (hCut : type = .headers → endHeaders = false →
      client ≠ .reset ∧ (server = .active → endStream = true))
    (hTrailer : type = .headers → endStream = false → client = .active → server = .active →
      trailer = false) :
    ∃ shown, verdict state pending trailer .server type endStream endHeaders = some shown ∧
      Shared client after shown.1 shown.2 := by
  cases h with
  | idle =>
      cases hNext with
      | headers | data | update | reset => simp at hOpened
      | promise => exact absurd rfl hPush
      | priority => exact ⟨_, rfl, .idle⟩
  | opening last => exact absurd rfl (hAlone last)
  | opened =>
      cases hNext with
      | headers =>
          cases endStream with
          | true =>
              cases endHeaders with
              | false => exact ⟨_, rfl, .answering⟩
              | true => exact ⟨_, rfl, .answered⟩
          | false =>
              cases endHeaders with
              | false => cases (hCut rfl rfl).2 rfl
              | true =>
                  obtain rfl := hTrailer rfl rfl rfl rfl
                  exact ⟨_, rfl, .opened⟩
      | data =>
          cases endStream with
          | false => exact ⟨_, rfl, .opened⟩
          | true => exact ⟨_, rfl, .answered⟩
      | promise => exact absurd rfl hPush
      | priority | update => exact ⟨_, rfl, .opened⟩
      | reset => exact ⟨_, rfl, .serverReset (by simp) (by simp)⟩
  | trailing => exact absurd rfl (hAlone true)
  | answering =>
      cases hNext with
      | continuation =>
          cases endHeaders with
          | false => exact ⟨_, rfl, .answering⟩
          | true => exact ⟨_, rfl, .answered⟩
      | priority hBlock => exact absurd rfl (hBlock true)
  | answered =>
      cases hNext with
      | priority | lateUpdate => exact ⟨_, rfl, .answered⟩
      | lateReset => exact ⟨_, rfl, .serverReset (by simp) (by simp)⟩
  | requested =>
      cases hNext with
      | headers =>
          cases endStream with
          | true =>
              cases endHeaders with
              | false => exact ⟨_, rfl, .ending⟩
              | true => exact ⟨_, rfl, .done⟩
          | false =>
              cases endHeaders with
              | false => cases (hCut rfl rfl).2 rfl
              | true => exact ⟨_, rfl, .requested⟩
      | data =>
          cases endStream with
          | false => exact ⟨_, rfl, .requested⟩
          | true => exact ⟨_, rfl, .done⟩
      | promise => exact absurd rfl hPush
      | priority | update => exact ⟨_, rfl, .requested⟩
      | reset => exact ⟨_, rfl, .serverReset (by simp) (by simp)⟩
  | ending =>
      cases hNext with
      | continuation =>
          cases endHeaders with
          | false => exact ⟨_, rfl, .ending⟩
          | true => exact ⟨_, rfl, .done⟩
      | priority hBlock => exact absurd rfl (hBlock true)
  | done =>
      cases hNext with
      | priority | lateUpdate => exact ⟨_, rfl, .done⟩
      | lateReset => exact ⟨_, rfl, .serverReset (by simp) (by simp)⟩
  | clientReset hServer =>
      -- nothing that the server still sends opens the stream again
      refine ⟨(.closed, none), ?_, .clientReset ?_⟩
      · cases hNext with
        | continuation => exact absurd rfl (hServer _)
        | promise => exact absurd rfl hPush
        | headers | first | promised | data | priority | update | lateUpdate | reset | lateReset
        | refuse => rfl
      · cases hNext with
        | headers | first | promised =>
            cases endHeaders with
            | false => exact absurd rfl (hCut rfl rfl).1
            | true => exact Phase.complete_ne_block endStream
        | data => exact Phase.complete_ne_block endStream
        | promise => exact absurd rfl hPush
        | continuation => exact absurd rfl (hServer _)
        | priority | update | lateUpdate => exact hServer
        | reset | lateReset | refuse => simp
  | serverReset hClient hBlock =>
      cases hNext with
      | priority => exact ⟨_, rfl, .serverReset hClient hBlock⟩
  | reserved =>
      cases hNext with
      | promised =>
          cases endHeaders with
          | false => exact ⟨_, rfl, .promised endStream⟩
          | true =>
              cases endStream with
              | false => exact ⟨_, rfl, .requested⟩
              | true => exact ⟨_, rfl, .done⟩
      | priority => exact ⟨_, rfl, .reserved⟩
      | refuse => exact ⟨_, rfl, .serverReset (by simp) (by simp)⟩
  | promised last =>
      cases hNext with
      | continuation =>
          cases endHeaders with
          | false => exact ⟨_, rfl, .promised last⟩
          | true =>
              cases last with
              | false => exact ⟨_, rfl, .requested⟩
              | true => exact ⟨_, rfl, .done⟩
      | priority hBlock => exact absurd rfl (hBlock last)

end Frames

/-- The stream is closed when both directions have ended or one was reset. -/
theorem Shared.closed_iff {client server : Phase} {state : StreamState}
    {pending : Option StreamState} (h : Shared client server state pending) :
    state = .closed ↔
      client = .ended ∧ server = .ended ∨ client = .reset ∨ server = .reset := by
  cases h <;> simp

/-- Before the stream is opened, no RST_STREAM is legal. -/
theorem Shared.notReset {c : Course} {f : StreamFrame} {pending : Option StreamState}
    (h : Shared c.client c.server .idle pending) (hPending : pending = none) (hLegal : c.Legal f) :
    f.type ≠ .rstStream := by
  obtain ⟨con, client, server, raised⟩ := c
  obtain ⟨sender, type, flags, fcon⟩ := f
  obtain ⟨after, hNext⟩ := Option.isSome_iff_exists.mp hLegal.direction
  cases h with
  | opening last => cases hPending
  | idle =>
      rintro ⟨⟩
      rcases hLegal.opened rfl with hClient | hPriority
      · cases hClient
        cases Phase.advances_of_next hNext
      · cases hPriority

namespace Course

variable {sid : Nat} {c : Course} {f : StreamFrame}

/-- The stream is in the state that its directions share. -/
structure Sound (sid : Nat) (c : Course) : Prop where
  calm : c.raised = false
  shared : ∃ state pending, c.con.Shows sid state pending ∧ Shared c.client c.server state pending

theorem Start.sound (h : c.Start sid) : c.Sound sid where
  calm := h.raised
  shared := by
    rcases h.state with ⟨hState, hClient, hServer⟩ | ⟨hState, hClient, hServer⟩
    · exact ⟨_, _, shows_of_get hState h.pendingState h.promised,
        hClient ▸ hServer ▸ .idle⟩
    · exact ⟨_, _, shows_of_get hState h.pendingState h.promised,
        hClient ▸ hServer ▸ .reserved⟩

theorem Sound.right (h : c.Sound sid) : c.Right sid where
  calm := h.calm
  closed := by
    obtain ⟨state, pending, hShows, hShared⟩ := h.shared
    rw [hShows.get.1, Option.some.injEq]
    exact hShared.closed_iff

/-- The shared state after a frame that fits. -/
theorem shared_verdict {state : StreamState} {pending : Option StreamState}
    (hShared : Shared c.client c.server state pending) (hLegal : c.Legal f) (hFits : c.Fits sid f)
    (hPush : f.type ≠ .pushPromise) :
    ∃ shown, verdict state pending (f.con.get sid Stream.trailer).isSome f.sender f.type
        f.endStream f.endHeaders = some shown ∧
      Shared (c.step sid f).client (c.step sid f).server shown.1 shown.2 := by
  obtain ⟨after, hNext⟩ := Option.isSome_iff_exists.mp hLegal.direction
  have hAdvances := Phase.advances_of_next hNext
  have hTrailer : f.type = .headers → f.endStream = false → c.client = .active →
      c.server = .active → (f.con.get sid Stream.trailer).isSome = false := by
    intro hHeaders hOpen hClient hServer
    rw [hFits.trailer hHeaders hOpen hClient hServer]
    rfl
  have hAlone := Phase.ne_block hFits.alone
  have hCut := hFits.cut
  simp only [step, hNext, Option.getD_some]
  cases hSender : f.sender with
  | client =>
      rw [hSender] at hAdvances hAlone hCut
      simp only [if_true, reduceCtorEq, if_false]
      exact hShared.clientFrame hAdvances hPush hAlone (fun h h' => (hCut h h').2) hTrailer
        (hFits.late hSender) (hFits.lateReset hSender) (hFits.early hSender)
  | server =>
      rw [hSender] at hAdvances hAlone hCut
      simp only [if_true, reduceCtorEq, if_false]
      refine hShared.serverFrame hAdvances hPush (fun hIdle => ?_) hAlone hCut hTrailer
      exact (hLegal.opened hIdle).resolve_left (by simp [hSender])

/-- A promise leaves the shared state as it is. -/
theorem shared_promise {state : StreamState} {pending : Option StreamState}
    (hShared : Shared c.client c.server state pending) (hLegal : c.Legal f) (hFits : c.Fits sid f)
    (hPush : f.type = .pushPromise) :
    f.sender = .server ∧ pending = none ∧ (c.step sid f).client = c.client ∧
      (c.step sid f).server = c.server := by
  have hSender := hLegal.promise hPush
  obtain ⟨after, hNext⟩ := Option.isSome_iff_exists.mp hLegal.direction
  have hAdvances := Phase.advances_of_next hNext
  have hAlone := Phase.ne_block hFits.alone
  rw [hPush, hSender, hFits.promise hPush] at hAdvances
  rw [hSender] at hAlone
  have hActive : c.server = .active ∧ after = .active := by
    generalize hServer : c.phase .server = server at hAdvances
    generalize f.endStream = endStream at hAdvances
    cases hAdvances
    exact ⟨hServer, rfl⟩
  simp only [step, hNext, Option.getD_some, hSender, if_true, reduceCtorEq, if_false, hActive,
    true_and, and_true]
  rw [hActive.1] at hShared
  generalize hClient : c.client = client at hShared
  cases hShared with
  | opened | requested | clientReset => rfl
  | idle => exact absurd ((hLegal.opened hClient).resolve_left (by simp [hSender])) (by simp [hPush])
  | opening last => exact absurd hClient (hAlone last)
  | trailing => exact absurd hClient (hAlone true)

theorem Sound.step (hSid : sid ≠ 0) (h : c.Sound sid) (hBetween : c.Undisturbed sid f)
    (hLegal : c.Legal f) (hFits : c.Fits sid f) : (c.step sid f).Sound sid := by
  obtain ⟨state, pending, hShows, hShared⟩ := h.shared
  obtain ⟨hState, hPending, hPromised⟩ := hShows.get
  by_cases hPush : f.type = .pushPromise
  · obtain ⟨hSender, rfl, hClient, hServer⟩ := shared_promise hShared hLegal hFits hPush
    obtain ⟨other, hOther, hNoted, hIdle⟩ := hBetween.promise hPush
    obtain ⟨hAfter, hShutdown⟩ := shows_promise hOther (hBetween.state.trans hState)
      (hBetween.pendingState.trans hPending) hNoted hIdle hSid hBetween.preface (hFits.promise hPush)
    refine ⟨?_, state, none, ?_, hClient ▸ hServer ▸ hShared⟩
    · simp only [Course.step, h.calm, hSender, hPush, hShutdown]
      simp
    · simpa only [Course.step, hSender, hPush] using hAfter
  · have hHere : f.con.Shows sid state pending :=
      shows_of_get (hBetween.state.trans hState) (hBetween.pendingState.trans hPending)
        ((hBetween.promised hPush).trans hPromised)
    obtain ⟨shown, hVerdict, hAfter⟩ := shared_verdict hShared hLegal hFits hPush
    obtain ⟨after, hNext⟩ := Option.isSome_iff_exists.mp hLegal.direction
    have hType := (Phase.advances_of_next hNext).onStream
    have hFollows := follows_stateMachine hHere hSid hBetween.preface f.sender hType hPush
      (fun hIdle hNone => (hIdle ▸ hShared).notReset hNone hLegal) f.flags
    rw [← StreamFrame.endStream, ← StreamFrame.endHeaders, hVerdict] at hFollows
    refine ⟨?_, shown.1, shown.2, hFollows.1, hAfter⟩
    simp only [Course.step, h.calm, hFollows.2]
    simp

/-- In a run of legal frames that fit, no frame raises an error, and the stream is closed
exactly when both directions have ended or one was reset. -/
theorem right_of_fits (hSid : sid ≠ 0) (hStart : c.Start sid) {frames : List StreamFrame}
    (hRun : Meets (Course.step sid)
      (fun c f => c.Undisturbed sid f ∧ c.Legal f ∧ c.Fits sid f) c frames) :
    (runEvents (Course.step sid) c frames).Right sid :=
  (Meets.invariant hStart.sound (fun _ _ h hOk => h.step hSid hOk.1 hOk.2.1 hOk.2.2) hRun).right

/-! ### The frames of a connection -/

/-- A queued frame is a step on its stream. -/
theorem enqueue_step (hPreface : c.con.preface = true) {d : FrameData}
    (hPush : d.type ≠ .pushPromise) (flags : UInt8) :
    ∃ f : StreamFrame, f.sender = c.con.type ∧ f.type = d.type ∧ f.flags = flags ∧
      c.Undisturbed sid f ∧ (c.step sid f).con = c.con.enqueue d flags sid := by
  generalize hFrame : (c.con.frameEncode d flags sid).2 = frame
  refine ⟨⟨c.con.type, d.type, flags, (c.con.encodeEffect d sid).push frame⟩, rfl, rfl, rfl, ?_, ?_⟩
  · have hGet {α : Type} (field : Stream → Option α)
        (hField : ∀ code s, field (Stream.setReset code s) = field s) :
        ((c.con.encodeEffect d sid).push frame).get sid field = c.con.get sid field := by
      cases d with
      | rstStream code => exact get_modifyStream (hField code) c.con sid sid
      | data | headers | priority | settings | pushPromise | ping | goaway | windowUpdate
      | continuation => rfl
    refine ⟨?_, hGet _ (fun _ _ => rfl), hGet _ (fun _ _ => rfl), fun _ => hGet _ (fun _ _ => rfl),
      fun h => absurd h hPush⟩
    cases d with
    | rstStream code => exact (preface_modifyStream ..).trans hPreface
    | data | headers | priority | settings | pushPromise | ping | goaway | windowUpdate
    | continuation => exact hPreface
  · have hAct : ((c.con.encodeEffect d sid).push frame).actOf c.con.type = .send := by
      refine if_pos ?_
      cases d with
      | rstStream code => exact type_modifyStream ..
      | data | headers | priority | settings | pushPromise | ping | goaway | windowUpdate
      | continuation => rfl
    rw [step, hAct, Connection.enqueue, ← hFrame]
    rfl

/-- A received frame is a step on its stream, once its payload is decoded. -/
theorem frameReceive_step {ord : HashOrder} {fh : FrameHeader} {buf : Octets} {con : Connection}
    {len : Nat} (hDecode : c.con.payloadDecode ord fh buf = (con, some len))
    (hType : con.type = c.con.type) :
    (c.step fh.stream ⟨c.con.type.peer, fh.type, fh.flags, con⟩).con =
      (c.con.frameReceive ord fh buf).1 := by
  have hAct : con.actOf c.con.type.peer = .recv := by
    refine if_neg ?_
    rw [hType]
    cases c.con.type <;> simp [Endpoint.peer]
  rw [Connection.frameReceive, hDecode, step, hAct]

/-! ### Frames that follow each other at once -/

instance (c : Course) (f : StreamFrame) : Decidable (c.Legal f) :=
  decidable_of_iff ((c.next f).isSome ∧ (c.client = .idle → f.sender = .client ∨ f.type = .priority) ∧
    (f.type = .pushPromise → f.sender = .server))
    ⟨fun h => ⟨h.1, h.2.1, h.2.2⟩, fun h => ⟨h.direction, h.opened, h.promise⟩⟩

set_option synthInstance.maxSize 512 in
instance (sid : Nat) (c : Course) (f : StreamFrame) : Decidable (c.Fits sid f) :=
  decidable_of_iff ((c.phase f.sender.peer).inBlock = false ∧
    (f.type = .headers → f.endHeaders = false →
      c.client ≠ .reset ∧ (c.phase f.sender = .active → f.endStream = true)) ∧
    (f.type = .pushPromise → f.endHeaders = true) ∧
    (f.type = .headers → f.endStream = false → c.client = .active → c.server = .active →
      f.con.get sid Stream.trailer = none) ∧
    (f.sender = .client → c.server = .ended → f.type = .priority ∨ f.type = .windowUpdate ∨
      f.type = .rstStream ∧ c.client = .active) ∧
    (f.sender = .client → c.server = .reset → f.type = .priority ∨ f.type = .windowUpdate) ∧
    (f.sender = .client → c.server = .reserved → f.type ≠ .windowUpdate))
    ⟨fun ⟨h, h', h'', h₃, h₄, h₅, h₆⟩ => ⟨h, h', h'', h₃, h₄, h₅, h₆⟩,
      fun h => ⟨h.alone, h.cut, h.promise, h.trailer, h.late, h.lateReset, h.early⟩⟩

/-- The frames, with nothing between them. -/
def atOnce (sid : Nat) (c : Course) : List (Endpoint × FrameType × UInt8) → List StreamFrame
  | [] => []
  | (sender, type, flags) :: rest =>
      let f : StreamFrame := { sender, type, flags, con := c.con }
      f :: atOnce sid (c.step sid f) rest

theorem undisturbed_atOnce (sid : Nat) (hPreface : c.con.preface = true) (sender : Endpoint)
    {type : FrameType} (hPush : type ≠ .pushPromise) (flags : UInt8) :
    c.Undisturbed sid { sender, type, flags, con := c.con } where
  preface := hPreface
  state := rfl
  pendingState := rfl
  promised := fun _ => rfl
  promise := fun h => absurd h hPush

/-- A server that has just admitted the first stream of its client. -/
def firstStream : Course where
  con := { Connection.new .server defaultSettings with preface := true }.admitted 1
  client := .idle
  server := .active

theorem firstStream_start : firstStream.Start 1 where
  promised := rfl
  pendingState := rfl
  raised := rfl
  state := .inl ⟨rfl, rfl, rfl⟩

def getFrames : List StreamFrame :=
  atOnce 1 firstStream [(.client, .headers, 0x5), (.server, .headers, 0x4), (.server, .data, 0x1)]

/-- The response to a GET closes the stream. -/
theorem right_of_fits_get :
    (runEvents (Course.step 1) firstStream getFrames).Right 1 := by
  refine right_of_fits (by decide) firstStream_start ?_
  refine ⟨⟨undisturbed_atOnce 1 ?_ _ ?_ _, ?_, ?_⟩, ⟨undisturbed_atOnce 1 ?_ _ ?_ _, ?_, ?_⟩,
    ⟨undisturbed_atOnce 1 ?_ _ ?_ _, ?_, ?_⟩, trivial⟩
  all_goals decide +kernel

/-- The server has answered before the client is done, and the next DATA of the client is an
error. -/
theorem answered_early : ¬ ∀ (sid : Nat) (c : Course) (frames : List StreamFrame), sid ≠ 0 →
    c.Start sid → Meets (Course.step sid) (fun c f => c.Undisturbed sid f ∧ c.Legal f) c frames →
      (runEvents (Course.step sid) c frames).Right sid := by
  intro hAll
  have hRight := hAll 1 firstStream
    (atOnce 1 firstStream
      [(.client, .headers, 0x4), (.server, .headers, 0x5), (.client, .data, 0x1)])
    (by decide) firstStream_start
    ⟨⟨undisturbed_atOnce 1 (by decide +kernel) _ (by decide) _, by decide +kernel⟩,
      ⟨undisturbed_atOnce 1 (by decide +kernel) _ (by decide) _, by decide +kernel⟩,
      ⟨undisturbed_atOnce 1 (by decide +kernel) _ (by decide) _, by decide +kernel⟩, trivial⟩
  have hCalm := hRight.calm
  revert hCalm
  decide +kernel

end Course
end PageCamel.Http2

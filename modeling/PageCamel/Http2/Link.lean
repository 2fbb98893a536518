import PageCamel.Http2.ReceiveWindow
import PageCamel.Http2.WindowBalance

/-!
Two endpoints that talk to each other, in any order of steps: each takes frames from its queue and
is given, in order, the frames that the other has taken.
-/

namespace PageCamel.Http2
open PageCamel.Lib

/-! ### One side -/

/-- An endpoint, with the frames it was given. -/
structure Party where
  flow : Flow
  heard : List (FrameHeader × Octets) := []

/-- The frame that an event brings. -/
def Connection.hears (con : Connection) : SendEvent → List (FrameHeader × Octets)
  | .recv _ buf => (con.inTurn buf).toList.map fun turn => (turn.1, turn.2.take turn.1.length)
  | _ => []

namespace Party

/-- `new`, with the SETTINGS frame in the queue, once the preface is there. -/
def start (type : Endpoint) (given : Settings) : Party where
  flow := (Flow.begin type given).update ((Flow.begin type given).con.enqueue (.settings given) 0 0)

def step (p : Party) (event : SendEvent) : Party where
  flow := p.flow.proceed event
  heard := p.heard ++ p.flow.con.hears event

/-- The frames that were taken from the queue, and those that wait in it. -/
def frames (p : Party) : List Frame := p.flow.taken ++ p.flow.con.queue

/-- The windows of a connection, against the frames that were sent and given. -/
structure Books (p : Party) : Prop where
  booked : p.flow.Booked
  granted : p.flow.granted 0 ≤ credits p.heard
  received : (defaultInitialWindowSize : Int) + credits (p.frames.map Frame.shown) ≤
    p.flow.con.fcwRecv + debits p.heard

end Party

theorem unpack32_take (buf : Octets) : unpack32 (buf.take 4) = unpack32 buf := by
  rcases buf with _ | ⟨a, _ | ⟨b, _ | ⟨c, _ | ⟨d, rest⟩⟩⟩⟩ <;> rfl

theorem increments_le_credit (fh : FrameHeader) (payload : Octets) :
    (((incrementIn fh payload).filter fun i => i.1 = 0).map Prod.snd).sum ≤
      credit fh (payload.take fh.length) := by
  rw [incrementIn]
  split
  · next hIncrement =>
    by_cases hStream : fh.stream = 0
    · rw [credit, if_pos ⟨hIncrement.1, hStream⟩, hIncrement.2, unpack32_take]
      simp [hStream]
    · simp [hStream]
  · exact Nat.zero_le _

namespace Connection

theorem stream_inTurn {con : Connection} {buf payload : Octets} {fh : FrameHeader}
    (hTurn : con.inTurn buf = some (fh, payload)) : fh.stream < 2 ^ 31 := by
  rw [inTurn] at hTurn
  split at hTurn
  · cases hTurn
  · cases hTurn
    exact stream_frameHeaderDecode_lt buf

/-- A buffer that is read: the frame at its front is paid for. -/
theorem accounts_frameDecode (ord : HashOrder) (con : Connection) (buf : Octets) :
    Accounts (debits (con.hears (.recv ord buf))) con (con.frameDecode ord buf).1 := by
  rw [hears]
  cases hTurn : con.inTurn buf with
  | none =>
    rcases frameDecode_idle hTurn ord with hSame | ⟨code, hError⟩
    · rw [hSame]
      exact .refl con
    · rw [hError]
      exact accounts_setError con code
  | some turn =>
    have hDebit : debits [(turn.1, turn.2.take turn.1.length)] = debit turn.1 := Nat.add_zero _
    rw [Option.toList_some, List.map_singleton, hDebit]
    rcases frameDecode_inTurn hTurn ord with ⟨-, hSame⟩ | hAdmit
    · rw [hSame]
      exact (Accounts.refl con).weaken
    · rw [hAdmit]
      exact accounts_frameAdmit ord con (stream_inTurn hTurn) turn.2

end Connection

namespace Party

variable {p : Party}

theorem granted_proceed (f : Flow) (event : SendEvent) :
    (f.proceed event).granted 0 ≤ f.granted 0 + credits (f.con.hears event) := by
  cases event with
  | recv ord buf =>
    rw [Flow.proceed, Flow.step, Connection.hears]
    cases f.con.inTurn buf with
    | none => exact Nat.le_refl _
    | some turn =>
      have hIncrement := increments_le_credit turn.1 turn.2
      show (((f.increments ++ incrementIn turn.1 turn.2).filter _).map Prod.snd).sum ≤ _
      rw [List.filter_append, List.map_append, List.sum_append]
      exact Nat.add_le_add_left hIncrement _
  | _ => exact Nat.le_refl _

/-- A change of the connection that keeps its books. -/
theorem received_update {heard : List (FrameHeader × Octets)} {con : Connection}
    (h : (defaultInitialWindowSize : Int) + credits (p.frames.map Frame.shown) ≤
      p.flow.con.fcwRecv + debits p.heard)
    (hAccounts : Connection.Accounts (debits heard) p.flow.con con) :
    (defaultInitialWindowSize : Int) + credits ((p.flow.taken ++ con.queue).map Frame.shown) ≤
      con.fcwRecv + debits (p.heard ++ heard) := by
  rw [Connection.Accounts, Connection.recvBook, Connection.recvBook] at hAccounts
  rw [frames, List.map_append, credits_append] at h
  rw [List.map_append, credits_append, debits_append]
  push_cast at h ⊢
  omega

theorem Books.step (h : p.Books) (event : SendEvent) (hBalances : event.Balances p.flow) :
    (p.step event).Books := by
  have hRule := Connection.passesFree_accounts
  have hPush (con : Connection) (f : Frame) (hType : f.type ≠ .windowUpdate) :
      Connection.Accounts 0 con (con.push f) := con.accounts_push_plain hType
  refine ⟨h.booked.proceed event hBalances, ?_, ?_⟩
  · rw [Party.step, credits_append]
    exact (granted_proceed p.flow event).trans (Nat.add_le_add_right h.granted _)
  · cases event with
    | recv ord buf =>
      have hRead := received_update h.received (p.flow.con.accounts_frameDecode ord buf)
      rw [Party.step, Flow.proceed, Flow.step]
      cases hTurn : p.flow.con.inTurn buf <;> exact hRead
    | newStream => exact received_update h.received (Connection.accounts_newStream _)
    | sendHeaders sid headers ended =>
      exact received_update h.received (hRule.sendHeaders hPush _ sid headers ended)
    | sendPpHeaders sid promisedId headers =>
      exact received_update h.received (hRule.sendPpHeaders hPush _ sid promisedId headers)
    | sendData sid chunk ended =>
      exact received_update h.received ((hRule.uploads sid).sendData _ chunk ended)
    | sendPing payload => exact received_update h.received (hRule.sendPing _ payload)
    | dequeue =>
      -- a frame goes from the queue to those that were taken
      have hFrames : (p.step .dequeue).frames = p.frames := by
        show (p.flow.taken ++ p.flow.con.queue.take 1) ++ p.flow.con.queue.tail = _
        rw [List.append_assoc, ← List.drop_one, List.take_append_drop, frames]
      rw [hFrames]
      show _ ≤ p.flow.con.fcwRecv + debits (p.heard ++ [])
      rw [List.append_nil]
      exact h.received

theorem books_start (type : Endpoint) (given : Settings) : (start type given).Books := by
  refine ⟨(Flow.booked_begin type given).steady ?_, Nat.le_refl 0, ?_⟩
  · exact Connection.steady_enqueue _ (d := .settings given)
      (show FrameType.settings ≠ .data by decide) 0 0
  · have hFresh : (defaultInitialWindowSize : Int) ≤ (Flow.begin type given).con.recvBook := by
      show _ ≤ (defaultInitialWindowSize : Int) - ((0 : Nat) : Int)
      omega
    have hSettings : Connection.Accounts 0 (Flow.begin type given).con (start type given).flow.con :=
      Connection.passesFree_accounts.enqueue _ (d := .settings given)
        (by simp [FrameData.type, FrameType.Plain]) 0 0
    have hBook := hFresh.trans hSettings
    rw [Connection.recvBook] at hBook
    show (defaultInitialWindowSize : Int) +
      credits (([] ++ (start type given).flow.con.queue).map Frame.shown) ≤ _ + ((0 : Nat) : Int)
    rw [List.nil_append]
    omega

end Party

/-! ### Two sides -/

def Endpoint.other : Endpoint → Endpoint
  | .client => .server
  | .server => .client

@[simp] theorem other_other (e : Endpoint) : e.other.other = e := by cases e <;> rfl

theorem other_ne (e : Endpoint) : e.other ≠ e := by cases e <;> decide

theorem eq_or_eq_other (e e' : Endpoint) : e' = e ∨ e' = e.other := by
  cases e <;> cases e' <;> simp [Endpoint.other]

def Link := Endpoint → Party

/-- Something happens on one side. -/
structure LinkEvent where
  side : Endpoint
  event : SendEvent

namespace Link

def start (given : Endpoint → Settings) : Link := fun e => .start e (given e)

def step (l : Link) (event : LinkEvent) : Link :=
  Function.update l event.side ((l event.side).step event.event)

/-- What one side was given is what the other has taken from its queue, as far as it has come. -/
def InOrder (l : Link) (e : Endpoint) : Prop :=
  (l e).heard <+: (l e.other).flow.taken.map Frame.shown

/-- The frames that one side has taken from its queue and the other was not given yet. -/
def underWay (l : Link) (e : Endpoint) : List Frame := (l e).flow.taken.drop (l e.other).heard.length

end Link

/-- The frames come in order, and the step is one that keeps the books of the send windows. -/
def LinkEvent.Orderly (l : Link) (event : LinkEvent) : Prop :=
  (l.step event).InOrder event.side ∧ event.event.Balances (l event.side).flow

namespace Link

variable {l : Link}

theorem taken_proceed (f : Flow) (event : SendEvent) : f.taken <+: (f.proceed event).taken := by
  cases event with
  | recv ord buf =>
    rw [Flow.proceed, Flow.step]
    cases f.con.inTurn buf <;> exact List.prefix_refl _
  | dequeue => exact List.prefix_append _ _
  | _ => exact List.prefix_refl _

structure Inv (l : Link) : Prop where
  books : ∀ e, (l e).Books
  inOrder : ∀ e, l.InOrder e

theorem Inv.step (h : l.Inv) (event : LinkEvent) (hOrderly : event.Orderly l) :
    (l.step event).Inv := by
  obtain ⟨side, event⟩ := event
  obtain ⟨hInOrder, hBalances⟩ := hOrderly
  have hSelf : l.step ⟨side, event⟩ side = (l side).step event := Function.update_self ..
  have hOther : l.step ⟨side, event⟩ side.other = l side.other :=
    Function.update_of_ne (other_ne side) ..
  constructor
  · intro e
    rcases eq_or_eq_other side e with rfl | rfl
    · rw [hSelf]
      exact (h.books e).step event hBalances
    · rw [hOther]
      exact h.books side.other
  · intro e
    rcases eq_or_eq_other side e with rfl | rfl
    · exact hInOrder
    · have hBefore := h.inOrder side.other
      rw [InOrder, other_other] at hBefore ⊢
      rw [hOther, hSelf]
      exact hBefore.trans ((taken_proceed (l side).flow event).map Frame.shown)

theorem inv_start (given : Endpoint → Settings) : (start given).Inv :=
  ⟨fun e => Party.books_start e (given e), fun _ => List.nil_prefix⟩

/-- The frames that were taken are those that were given to the other side, and those under way. -/
theorem InOrder.shown {e : Endpoint} (h : l.InOrder e.other) :
    (l e).flow.taken.map Frame.shown = (l e.other).heard ++ (l.underWay e).map Frame.shown := by
  rw [InOrder, other_other] at h
  rw [underWay, List.map_drop]
  exact List.prefix_iff_eq_append.mp h |>.symm

end Link

/-- At every moment of every exchange, what a side may still send on the connection, the data it has
queued or sent and the increments that are queued or on the way back are within the receive window
of the other side, and the window of the sender is not negative. -/
theorem data_within_window {given : Endpoint → Settings} {l : Link}
    (hRun : Reached Link.step (fun l event => event.Orderly l) (Link.start given) l) (e : Endpoint) :
    0 ≤ (l e).flow.con.fcwSend ∧
      (l e).flow.con.fcwSend + dataOctets (fun _ => true) (l.underWay e ++ (l e).flow.con.queue) +
          credits ((l.underWay e.other ++ (l e.other).flow.con.queue).map Frame.shown) ≤
        (l e.other).flow.con.fcwRecv := by
  have hInv := hRun.invariant (Link.inv_start given) fun _ event h hOrderly => h.step event hOrderly
  have hSender := hInv.books e
  have hReceiver := hInv.books e.other
  have hForth := (hInv.inOrder e.other).shown
  have hBack : (l e.other).flow.taken.map Frame.shown =
      (l e).heard ++ (l.underWay e.other).map Frame.shown := by
    have hShown := @Link.InOrder.shown l e.other (by rw [other_other]; exact hInv.inOrder e)
    rwa [other_other] at hShown
  refine ⟨hSender.booked.room, ?_⟩
  have hSent := hSender.booked.connection
  have hReceived := hReceiver.received
  have hGranted := hSender.granted
  rw [Flow.sent, dataOctets_append, ← debits_shown, hForth, debits_append, debits_shown] at hSent
  rw [Party.frames, List.map_append, hBack, credits_append, credits_append] at hReceived
  rw [dataOctets_append, List.map_append, credits_append]
  push_cast at hSent hReceived ⊢
  omega

instance (l : Link) (event : LinkEvent) : Decidable (event.Orderly l) :=
  inferInstanceAs (Decidable (_ <+: _ ∧ _))

/-- A client sends a request with a body, and the server grants more when it has read it. -/
def upload : List LinkEvent :=
  [⟨.client, .newStream⟩,
    ⟨.client, .sendHeaders 1 [(octets ":method", octets "POST"), (octets ":scheme", octets "http"),
      (octets ":path", octets "/"), (octets ":authority", octets "a")] false⟩,
    ⟨.client, .sendData 1 (octets "0123456789") (some true)⟩,
    ⟨.client, .dequeue⟩, ⟨.client, .dequeue⟩, ⟨.client, .dequeue⟩,
    ⟨.server, .recv .kept [0, 0, 0, 4, 0, 0, 0, 0, 0]⟩,
    ⟨.server, .recv .kept [0, 0, 6, 1, 4, 0, 0, 0, 1, 0x83, 0x86, 0x84, 0x41, 0x01, 0x61]⟩,
    ⟨.server, .recv .kept ([0, 0, 10, 0, 1, 0, 0, 0, 1] ++ octets "0123456789")⟩,
    ⟨.server, .dequeue⟩, ⟨.server, .dequeue⟩, ⟨.server, .dequeue⟩,
    ⟨.client, .recv .kept [0, 0, 6, 4, 0, 0, 0, 0, 0, 0, 5, 0, 1, 0, 0]⟩,
    ⟨.client, .recv .kept [0, 0, 0, 4, 1, 0, 0, 0, 0]⟩,
    ⟨.client, .recv .kept [0, 0, 4, 8, 0, 0, 0, 0, 0, 0, 0, 0xff, 0xff]⟩]

/-- The server takes frames that are longer than its window. -/
def longFrames : Endpoint → Settings
  | .client => ∅
  | .server => (∅ : Settings).insert Setting.maxFrameSize 65536

theorem data_within_window_upload :
    let l := runEvents Link.step (Link.start longFrames) upload
    0 ≤ (l .client).flow.con.fcwSend ∧
    (l .client).flow.con.fcwSend +
          dataOctets (fun _ => true) (l.underWay .client ++ (l .client).flow.con.queue) +
          credits ((l.underWay .server ++ (l .server).flow.con.queue).map Frame.shown) ≤
        (l .server).flow.con.fcwRecv :=
  data_within_window (.run upload _ .start (by decide +kernel)) .client

end PageCamel.Http2

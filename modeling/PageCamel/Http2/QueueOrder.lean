import PageCamel.Http2.FrameRule
import PageCamel.Http2.SendHeaders
import PageCamel.Http2.StreamErrors

/-!
The order of the frames a connection gives out. PING acknowledgements jump the queue, behind the
CONTINUATION frames that head it; all other frames leave in the order they came in. What can part
a header block is the GOAWAY frame of an error its own frames raise.
-/

namespace PageCamel.Http2
open PageCamel.Lib Connection

/-! ### Header blocks in a sequence of frames -/

/-- The frame is the first of a header block. -/
def Frame.Leads (f : Frame) : Prop := f.type = .headers ∨ f.type = .pushPromise

/-- The frame is the first of a header block that does not end with it. -/
def Frame.Opens (f : Frame) : Prop := f.Leads ∧ hasFlag f.flags Flag.endHeaders = false

def Frame.isPingAck (f : Frame) : Bool := f.type = .ping ∧ hasFlag f.flags Flag.ack

/-- The frame `enqueue` queues. -/
def FrameData.frame (d : FrameData) (flags : UInt8) (sid : Nat) : Frame :=
  ⟨d.type, (d.encode flags).1, sid, (d.encode flags).2⟩

/-- The frames that are no PING acknowledgements. -/
def others (frames : List Frame) : List Frame := frames.filter fun f => !f.isPingAck

/-- Between a frame that opens a header block and a CONTINUATION frame of the block there is
nothing but CONTINUATION frames of the block. -/
def Whole (frames : List Frame) : Prop :=
  ∀ before lead between cont after, frames = before ++ lead :: (between ++ cont :: after) →
    lead.Opens → cont.type = .continuation → cont.streamId = lead.streamId →
    (∀ f ∈ between, f.streamId = lead.streamId → ¬ f.Leads) →
    ∀ f ∈ between, f.type = .continuation ∧ f.streamId = lead.streamId

theorem Frame.not_leads_of_continuation {f : Frame} (hType : f.type = .continuation) : ¬ f.Leads := by
  simp [Frame.Leads, hType]

theorem others_append (frames added : List Frame) : others (frames ++ added) = others frames ++ others added :=
  List.filter_append ..

variable {frames added out : List Frame}

theorem whole_nil : Whole [] := by
  intro before lead between cont after hFrames
  simp at hFrames

theorem Whole.of_append (h : Whole (frames ++ added)) : Whole frames := by
  intro before lead between cont after hFrames
  exact h before lead between cont (after ++ added) (by simp [hFrames])

/-- What is no CONTINUATION frame can follow. -/
theorem Whole.append (h : Whole frames) (hAdded : ∀ f ∈ added, f.type ≠ .continuation) :
    Whole (frames ++ added) := by
  intro before lead between cont after hFrames hOpens hCont
  have hSplit : frames ++ added = (before ++ lead :: between) ++ cont :: after := by simp [hFrames]
  obtain ⟨late, hBefore, hLate⟩ | ⟨rest, hInside, hRest⟩ := List.append_eq_append_iff.mp hSplit
  · exact absurd hCont (hAdded cont (by simp [hLate]))
  · cases rest with
    | nil =>
        have hMem : cont ∈ added := (show cont :: after = added from hRest) ▸ List.mem_cons_self
        exact absurd hCont (hAdded cont hMem)
    | cons f rest =>
        obtain ⟨rfl, -⟩ := List.cons.inj hRest
        exact h before lead between cont rest (by simp [hInside]) hOpens hCont

/-- So can a frame that neither leads a block nor continues one, where no CONTINUATION frame
comes next. -/
theorem Whole.insert (h : Whole (frames ++ added)) {f : Frame} (hLeads : ¬ f.Leads)
    (hType : f.type ≠ .continuation) (hNext : ∀ g ∈ added.head?, g.type ≠ .continuation) :
    Whole (frames ++ f :: added) := by
  intro before lead between cont after hFrames hOpens hCont hStream hBetween
  have hSplit : frames ++ f :: added = before ++ lead :: (between ++ cont :: after) := hFrames
  obtain ⟨late, hBefore, hLate⟩ | ⟨rest, hInside, hRest⟩ := List.append_eq_append_iff.mp hSplit
  · -- the block starts behind the frame
    cases late with
    | nil =>
        obtain ⟨rfl, -⟩ := List.cons.inj hLate
        exact absurd hOpens.1 hLeads
    | cons g late =>
        obtain ⟨rfl, hAdded⟩ := List.cons.inj hLate
        exact h (frames ++ late) lead between cont after (by simp [hAdded]) hOpens hCont hStream hBetween
  · cases rest with
    | nil =>
        obtain ⟨rfl, -⟩ := List.cons.inj hRest
        exact absurd hOpens.1 hLeads
    | cons g rest =>
        obtain ⟨rfl, hBehind⟩ := List.cons.inj hRest
        rw [List.append_eq, eq_comm] at hBehind
        obtain ⟨late, hRest', hLate⟩ | ⟨late, hBetween', hLate⟩ := List.append_eq_append_iff.mp hBehind
        · -- it stands between the two, and so does the frame that comes next
          cases late with
          | nil =>
              obtain ⟨rfl, -⟩ := List.cons.inj hLate
              exact absurd hCont hType
          | cons g late =>
              obtain ⟨rfl, hAdded⟩ := List.cons.inj hLate
              cases late with
              | nil => exact absurd hCont (hNext cont (by simp [hAdded]))
              | cons next late =>
                  have hParted := h before lead (rest ++ next :: late) cont after
                    (by simp [hInside, hAdded]) hOpens hCont hStream
                    (fun e he => hBetween e (by
                      rw [hRest']
                      simp only [List.mem_append, List.mem_cons] at he ⊢
                      tauto)) next (by simp)
                  exact absurd hParted.1 (hNext next (by simp [hAdded]))
        · -- the CONTINUATION frame comes first
          cases late with
          | nil =>
              obtain ⟨rfl, -⟩ := List.cons.inj hLate
              exact absurd hCont hType
          | cons g late =>
              obtain ⟨rfl, -⟩ := List.cons.inj hLate
              exact h before lead between cont (late ++ added) (by simp [hInside, hBetween']) hOpens
                hCont hStream hBetween

/-- A whole header block can follow, with what comes behind it. -/
theorem Whole.block (h : Whole frames) {lead : Frame} (hLead : lead.Leads) {behind : List Frame}
    (hStreams : ∀ f ∈ behind, f.type = .continuation → f.streamId = lead.streamId)
    (hLeads : ∀ f ∈ behind, ¬ f.Leads)
    (hParts : lead.Opens → ∃ conts rest, behind = conts ++ rest ∧
      (∀ f ∈ conts, f.type = .continuation) ∧ ∀ f ∈ rest, f.type ≠ .continuation) :
    Whole (frames ++ lead :: behind) := by
  intro before g between cont after hFrames hOpens hCont hStream hBetween
  have hType : lead.type ≠ .continuation := fun hType => Frame.not_leads_of_continuation hType hLead
  have hSplit : frames ++ lead :: behind = (before ++ g :: between) ++ cont :: after := by simp [hFrames]
  obtain ⟨late, hBefore, hLate⟩ | ⟨late, hInside, hLate⟩ := List.append_eq_append_iff.mp hSplit
  · cases late with
    | nil =>
        obtain ⟨rfl, -⟩ := List.cons.inj hLate
        exact absurd hCont hType
    | cons f late =>
        obtain ⟨rfl, rfl⟩ := List.cons.inj hLate
        -- the CONTINUATION frame is one of the block
        have hOn : g.streamId = lead.streamId := by
          rw [← hStream]
          exact hStreams cont (by simp) hCont
        have hOwn (hLate : late = between) (hg : lead = g) :
            ∀ f ∈ between, f.type = .continuation ∧ f.streamId = g.streamId := by
          obtain ⟨conts, rest, hBehind, hConts, hRest⟩ := hParts (hg ▸ hOpens)
          obtain ⟨more, hConts', -⟩ | ⟨more, -, hMore⟩ := List.append_eq_append_iff.mp hBehind
          · intro f hf
            have hMem : f ∈ conts := by simp [hConts', hLate, hf]
            exact ⟨hConts f hMem, hOn ▸ hStreams f (by simp [hLate, hf]) (hConts f hMem)⟩
          · exact absurd hCont (hRest cont (by simp [hMore]))
        obtain ⟨early, -, hEarly⟩ | ⟨early, -, hEarly⟩ := List.append_eq_append_iff.mp hBefore
        · cases early with
          | nil => exact hOwn (List.cons.inj hEarly).2.symm (List.cons.inj hEarly).1.symm
          | cons f' early =>
              have hMem : lead ∈ between := by simp [(List.cons.inj hEarly).2]
              exact absurd hLead (hBetween lead hMem hOn.symm)
        · cases early with
          | nil => exact hOwn (List.cons.inj hEarly).2 (List.cons.inj hEarly).1
          | cons f' early =>
              have hMem : g ∈ late := by simp [(List.cons.inj hEarly).2]
              exact absurd hOpens.1 (hLeads g (by simp [hMem]))
  · cases late with
    | nil =>
        obtain ⟨rfl, -⟩ := List.cons.inj hLate
        exact absurd hCont hType
    | cons f late =>
        obtain ⟨rfl, -⟩ := List.cons.inj hLate
        exact h before g between cont late (by simp [hInside]) hOpens hCont hStream hBetween

/-! ### Frames that join a queue -/

namespace Connection

variable {firm : Prop} {con con' con'' : Connection}

/-- Frames have joined the queue: among the frames that are no PING acknowledgements they are the
last, and a firm step parts no header block, whatever has been taken from the queue before. -/
structure Adds (firm : Prop) (con con' : Connection) : Prop where
  type : con'.type = con.type
  order : others con.queue <+: others con'.queue
  whole : firm → ∀ out, Whole (out ++ con.queue) → Whole (out ++ con'.queue)

theorem Adds.trans (h : Adds firm con con') (h' : Adds firm con' con'') : Adds firm con con'' :=
  ⟨h'.type.trans h.type, h.order.trans h'.order,
    fun hFirm out hWhole => h'.whole hFirm out (h.whole hFirm out hWhole)⟩

theorem adds_append (hType : con'.type = con.type) {added : List Frame}
    (hQueue : con'.queue = con.queue ++ added) (hAdded : firm → ∀ f ∈ added, f.type ≠ .continuation) :
    Adds firm con con' := by
  refine ⟨hType, ?_, fun hFirm out hWhole => ?_⟩
  · rw [hQueue, others_append]
    exact List.prefix_append ..
  · rw [hQueue, ← List.append_assoc]
    exact hWhole.append (hAdded hFirm)

/-- A step adds its frames whatever it is; that it is firm may take more. -/
theorem Adds.of_firm (h : Adds False con con') (hFirm : firm → Adds firm con con') : Adds firm con con' :=
  ⟨h.type, h.order, fun hYes => (hFirm hYes).whole hYes⟩

theorem adds_of_queue (hType : con'.type = con.type) (hQueue : con'.queue = con.queue) :
    Adds firm con con' :=
  adds_append hType (hQueue.trans (List.append_nil _).symm) (by simp)

theorem adds_push (con : Connection) (frame : Frame) : Adds False con (con.push frame) :=
  adds_append rfl rfl False.elim

theorem Quiet.adds (h : Quiet con con') : Adds firm con con' := by
  obtain ⟨goaways, hQueue, hGoaways⟩ := h.queue
  refine adds_append h.type hQueue fun _ f hf => ?_
  rw [hGoaways f hf]
  exact nofun

/-- The frame comes before one that is no CONTINUATION frame. -/
theorem queue_insert (con : Connection) (frame : Frame) : ∃ held rest, con.queue = held ++ rest ∧
    (con.insert frame).queue = held ++ frame :: rest ∧ ∀ f ∈ rest.head?, f.type ≠ .continuation := by
  let p : Frame → Bool := fun f => f.type = .continuation ∨ f.type = .ping
  have hQueue : con.queue.takeWhile p ++ con.queue.dropWhile p = con.queue := List.takeWhile_append_dropWhile
  have hRest : con.queue.drop (con.queue.takeWhile p).length = con.queue.dropWhile p :=
    List.append_cancel_left
      ((List.prefix_iff_eq_append.mp (List.takeWhile_prefix p)).trans hQueue.symm)
  refine ⟨_, _, hQueue.symm, ?_, fun f hf hCont => ?_⟩
  · rw [← hRest]
    rfl
  · have hNext := List.head?_dropWhile_not p con.queue
    rw [Option.mem_def.mp hf] at hNext
    simp [p, hCont] at hNext

theorem adds_insert (con : Connection) {frame : Frame} (hAck : frame.isPingAck = true) :
    Adds firm con (con.insert frame) := by
  have hType : frame.type = .ping := by simp_all [Frame.isPingAck]
  obtain ⟨held, rest, hQueue, hInsert, hNext⟩ := con.queue_insert frame
  refine ⟨rfl, ?_, fun _ out hWhole => ?_⟩
  · rw [hQueue, hInsert, others_append, others_append]
    simp [others, hAck]
  · rw [hQueue, ← List.append_assoc] at hWhole
    rw [hInsert, ← List.append_assoc]
    exact hWhole.insert (by simp [Frame.Leads, hType]) (by simp [hType]) hNext

theorem passes_adds : Passes True (Adds firm) where
  refl con := adds_of_queue rfl rfl
  trans := .trans
  stateMachine con act type flags sid := (quiet_stateMachine con act type flags sid).adds
  setError con code := (quiet_setError con code).adds
  vivify con sid := (quiet_vivify con sid).adds
  modify con sid _ _ := adds_of_queue (type_modifyStream con sid _) (queue_modifyStream con sid _)
  beside h := adds_of_queue h.type h.queue
  push con _ hPlain := adds_append rfl rfl fun _ f hf => by
    rw [List.mem_singleton.mp hf]
    exact hPlain.2.2
  ack con payload := adds_insert con (by
    have hAck : hasFlag Flag.ack Flag.ack = true := by decide
    simp [Frame.isPingAck, hAck])
  newPeer con sid _ _ _ := adds_of_queue rfl rfl
  promise _ con sid promised := adds_of_queue (type_modifyStream con sid _) (queue_modifyStream con sid _)

/-! ### Frames of a header block -/

/-- The state machine passes the frames of the stream by, or an error has no more to add. -/
def Unchecked (con : Connection) (sid : Nat) : Prop :=
  con.shutdown = true ∨ sid = 0 ∨ con.preface = false

variable {sid : Nat}

theorem queue_enqueue {con : Connection} {d : FrameData} (hEffect : con.encodeEffect d sid = con)
    (flags : UInt8) : ∃ goaways, (con.enqueue d flags sid).queue = con.queue ++ d.frame flags sid :: goaways ∧
      ∀ f ∈ goaways, f.type = .goaway := by
  obtain ⟨goaways, hQueue, hGoaways⟩ := (quiet_stateMachine
    ((con.encodeEffect d sid).push (d.frame flags sid)) .send d.type flags sid).queue
  refine ⟨goaways, hQueue.trans ?_, hGoaways⟩
  rw [hEffect, push, List.append_assoc, List.singleton_append]

theorem queue_enqueue_of_shutdown {con : Connection} {d : FrameData} {flags : UInt8}
    (hEffect : con.encodeEffect d sid = con)
    (hSame : (con.enqueue d flags sid).shutdown = con.shutdown) :
    (con.enqueue d flags sid).queue = con.queue ++ [d.frame flags sid] := by
  change (((con.encodeEffect d sid).push (d.frame flags sid)).stateMachine .send d.type flags sid).shutdown =
    _ at hSame
  change (((con.encodeEffect d sid).push (d.frame flags sid)).stateMachine .send d.type flags sid).queue = _
  rw [hEffect] at hSame ⊢
  exact queue_stateMachine hSame

theorem Unchecked.enqueue {con : Connection} (h : con.Unchecked sid) {d : FrameData}
    (hEffect : con.encodeEffect d sid = con) (flags : UInt8) : (con.enqueue d flags sid).Unchecked sid ∧
      (con.enqueue d flags sid).queue = con.queue ++ [d.frame flags sid] := by
  have hQuiet := quiet_stateMachine (con.push (d.frame flags sid)) .send d.type flags sid
  have hSame : (con.enqueue d flags sid).shutdown = con.shutdown := by
    change (((con.encodeEffect d sid).push (d.frame flags sid)).stateMachine .send d.type flags sid).shutdown = _
    rw [hEffect]
    rcases h with hDown | hRest
    · rw [hQuiet.shutdown hDown, hDown]
    · rw [stateMachine, if_pos]
      · rfl
      · rcases hRest with rfl | hPreface
        · exact .inl rfl
        · exact .inr (.inr (.inr (by simp [push, hPreface])))
  have hPreface : (con.enqueue d flags sid).preface = con.preface := by
    change (((con.encodeEffect d sid).push (d.frame flags sid)).stateMachine .send d.type flags sid).preface = _
    rw [hEffect]
    exact hQuiet.preface
  refine ⟨?_, queue_enqueue_of_shutdown hEffect hSame⟩
  rw [Unchecked, hSame, hPreface]
  exact h

/-- CONTINUATION frames of the stream have joined the queue, and maybe GOAWAY frames behind them. -/
def Continues (sid : Nat) (con con' : Connection) : Prop :=
  ∃ conts goaways, con'.queue = con.queue ++ (conts ++ goaways) ∧
    (∀ f ∈ conts, f.type = .continuation ∧ f.streamId = sid) ∧ ∀ f ∈ goaways, f.type = .goaway

theorem Continues.cons {con con' con'' : Connection} {payload : Octets} {flags : UInt8}
    (hQueue : con'.queue = con.queue ++ [⟨.continuation, flags, sid, payload⟩])
    (h : Continues sid con' con'') : Continues sid con con'' := by
  obtain ⟨conts, goaways, hQueue', hConts, hGoaways⟩ := h
  refine ⟨⟨.continuation, flags, sid, payload⟩ :: conts, goaways, ?_, fun f hf => ?_, hGoaways⟩
  · rw [hQueue', hQueue, List.append_assoc, List.singleton_append, List.cons_append]
  · rcases List.mem_cons.mp hf with rfl | hf
    · exact ⟨rfl, rfl⟩
    · exact hConts f hf

/-- Without errors nothing but CONTINUATION frames joins the queue. -/
theorem Unchecked.sendContinuations (maxSize fuel : Nat) :
    ∀ {con : Connection}, con.Unchecked sid → ∀ block,
      Continues sid con (sendContinuations maxSize sid fuel con block) := by
  induction fuel with
  | zero => exact fun {con} _ block => ⟨[], [], by simp [Connection.sendContinuations], by simp, by simp⟩
  | succ fuel ih =>
      intro con h block
      rw [Connection.sendContinuations]
      split
      · have hTurn := h.enqueue (d := .continuation (block.take maxSize)) rfl
        exact (ih (hTurn _).1 _).cons (hTurn _).2
      · exact ⟨[], [], by simp, by simp, by simp⟩

/-- An error of the last CONTINUATION frame comes behind it. -/
theorem continues_sendContinuations_last {maxSize : Nat} {block : Octets} (hSize : block.length ≤ maxSize)
    (fuel : Nat) (con : Connection) : Continues sid con (sendContinuations maxSize sid fuel con block) := by
  cases fuel with
  | zero => exact ⟨[], [], by simp [Connection.sendContinuations], by simp, by simp⟩
  | succ fuel =>
      have hNil (con : Connection) : sendContinuations maxSize sid fuel con (block.drop maxSize) = con := by
        rw [List.drop_eq_nil_of_le hSize]
        cases fuel <;> simp [Connection.sendContinuations]
      rw [Connection.sendContinuations, hNil, if_pos hSize]
      split
      · have hEffect : con.encodeEffect (.continuation (block.take maxSize)) sid = con := rfl
        obtain ⟨goaways, hQueue, hGoaways⟩ := queue_enqueue hEffect 0
        exact ⟨[FrameData.frame (.continuation (block.take maxSize)) 0 sid], goaways, hQueue,
          by simp [FrameData.frame, FrameData.type], hGoaways⟩
      · exact ⟨[], [], by simp, by simp, by simp⟩

/-- On a stream that waits for it, the CONTINUATION frame that ends a block raises no error. -/
theorem shutdown_stateMachine_continuation (con : Connection)
    (hPending : (con.get sid Stream.pendingState).isSome) :
    (con.stateMachine .send .continuation Flag.endHeaders sid).shutdown = con.shutdown := by
  obtain ⟨pending, hSome⟩ := Option.isSome_iff_exists.mp hPending
  rw [stateMachine]
  split
  · rfl
  · dsimp only
    rw [@get_vivify _ Stream.pendingState rfl, hSome]
    split
    · simp
    · have hEnds : hasFlag Flag.endHeaders Flag.endHeaders = true := by decide
      dsimp only
      rw [if_neg (not_not_intro rfl), if_pos hEnds, shutdown_setState, shutdown_setPendingState]
      split <;> simp [clearPromised]

theorem continues_sendContinuations_pending {con : Connection} {maxSize : Nat} {block : Octets}
    (hPending : (con.get sid Stream.pendingState).isSome) (hSize : block.length ≤ 2 * maxSize) (fuel : Nat) :
    Continues sid con (sendContinuations maxSize sid fuel con block) := by
  cases fuel with
  | zero => exact ⟨[], [], by simp [Connection.sendContinuations], by simp, by simp⟩
  | succ fuel =>
      by_cases hLast : block.length ≤ maxSize
      · exact continues_sendContinuations_last hLast ..
      · have hTurn := queue_enqueue_of_shutdown (d := .continuation (block.take maxSize)) rfl
          (shutdown_stateMachine_continuation (con.push _) hPending)
        rw [Connection.sendContinuations, if_pos (by omega), if_neg hLast]
        exact (continues_sendContinuations_last (by rw [List.length_drop]; omega) fuel _).cons hTurn

/-! ### Frames that lead a block -/

/-- The HEADERS frame is a step to a state that waits for the end of its block. -/
def Waits (con : Connection) (sid : Nat) (ended : Bool) : Prop :=
  con.standing sid = some .reserved ∨
    ended = true ∧ (con.standing sid = some .opened ∨ con.standing sid = some .halfClosed)

/-- The flags of a frame that leads a block and does not end it. -/
def leadFlags (ended : Bool) : UInt8 := if ended then Flag.endStream else 0

theorem hasFlag_leadFlags (ended : Bool) : hasFlag (leadFlags ended) Flag.endHeaders = false ∧
    hasFlag (leadFlags ended) Flag.endStream = ended := by
  cases ended <;> decide

/-- On a stream where no block is waited for, the state machine goes by its state. -/
theorem stateMachine_of_standing {con : Connection} {type : FrameType}
    (hType : type ≠ .continuation) (hPending : con.get sid Stream.pendingState = none) {state : StreamState}
    (hStanding : con.standing sid = some state) (act : Act) (flags : UInt8) :
    con.stateMachine act type flags sid =
      if sid = 0 ∨ type = .settings ∨ type = .goaway ∨ !con.preface then con
      else (con.vivify ((con.get sid Stream.promisedSid).getD sid)).stateStep act type flags sid
        (con.get sid Stream.promisedSid) (some state) := by
  rw [stateMachine]
  split
  · rfl
  · dsimp only
    rw [@get_vivify _ Stream.pendingState rfl, @get_vivify _ Stream.state rfl, hPending,
      show con.get _ Stream.state = some state from hStanding]
    simp only [reduceCtorEq, false_and, if_false]

theorem shutdown_stateMachine_headers (con : Connection) (hServer : con.type = .server)
    (hPending : con.get sid Stream.pendingState = none) {state : StreamState}
    (hStanding : con.standing sid = some state) (hState : state ≠ .idle) (ended : Bool) :
    (con.stateMachine .send .headers (leadFlags ended) sid).shutdown = con.shutdown := by
  have hServer' : (con.vivify ((con.get sid Stream.promisedSid).getD sid)).type = .server :=
    (quiet_vivify con _).type.trans hServer
  rw [stateMachine_of_standing (by decide) hPending hStanding]
  split
  · rfl
  · cases state with
    | idle => exact absurd rfl hState
    | opened | reserved | halfClosed | closed =>
        simp only [stateStep, hServer', hasFlag_leadFlags]
        repeat' split
        all_goals simp_all

theorem isSome_of_standing {con : Connection} {state : StreamState} (h : con.standing sid = some state) :
    (con.stream? sid).isSome := by
  cases hs : con.stream? sid with
  | some s => rfl
  | none =>
      rw [standing, get_of_none hs Stream.promisedSid, Option.getD_none, get_of_none hs] at h
      cases h

/-- A HEADERS frame that does not end its block is waited for where it changes the state. -/
theorem isSome_pending_stateMachine_headers (con : Connection) (hServer : con.type = .server)
    (hPreface : con.preface = true) (hSid : sid ≠ 0) (hPending : con.get sid Stream.pendingState = none)
    {ended : Bool} (hWaits : con.Waits sid ended) :
    ((con.stateMachine .send .headers (leadFlags ended) sid).get sid Stream.pendingState).isSome := by
  have hServer' : (con.vivify ((con.get sid Stream.promisedSid).getD sid)).type = .server :=
    (quiet_vivify con _).type.trans hServer
  have hSome : ((con.vivify ((con.get sid Stream.promisedSid).getD sid)).stream? sid).isSome := by
    refine (quiet_vivify con _).streams sid ?_
    rcases hWaits with hState | ⟨_, hState | hState⟩ <;> exact isSome_of_standing hState
  have hSet {con : Connection} (hSome : (con.stream? sid).isSome) (new : StreamState) :
      ((con.streamState sid new true).get sid Stream.pendingState).isSome := by
    obtain ⟨s, hs⟩ := Option.isSome_iff_exists.mp hSome
    exact congrArg Option.isSome
      (get_of_some (stream?_setPendingState hs (some new)) Stream.pendingState)
  obtain ⟨hHeaders, hEnds⟩ := hasFlag_leadFlags ended
  have hGoes : ¬ (sid = 0 ∨ FrameType.headers = .settings ∨ FrameType.headers = .goaway ∨ !con.preface) := by
    simp [hSid, hPreface]
  rcases hWaits with hState | ⟨rfl, hState | hState⟩
  all_goals rw [stateMachine_of_standing (by decide) hPending hState, if_neg hGoes, stateStep]
  · simp only [hServer', hHeaders]
    exact hSet hSome _
  · simp only [hEnds, hHeaders]
    exact hSet hSome _
  · simp only [hServer', hEnds, hHeaders]
    exact hSet hSome _

theorem shutdown_stateMachine_pushPromise (con : Connection) (hServer : con.type = .server)
    (hPending : con.get sid Stream.pendingState = none) (hStanding : con.standing sid ≠ none) :
    (con.stateMachine .send .pushPromise 0 sid).shutdown = con.shutdown := by
  have hServer' : (con.vivify ((con.get sid Stream.promisedSid).getD sid)).type = .server :=
    (quiet_vivify con _).type.trans hServer
  obtain ⟨state, hState⟩ := Option.ne_none_iff_exists'.mp hStanding
  rw [stateMachine_of_standing (by decide) hPending hState]
  split
  · rfl
  · cases state with
    | idle =>
        simp only [stateStep, hServer', reserve]
        repeat' split
        all_goals simp_all [clearPromised]
    | opened | reserved | halfClosed | closed =>
        simp only [stateStep, hServer']
        repeat' split
        all_goals simp_all

/-- The frames of a block have joined the queue. -/
theorem Continues.adds {con con' con'' : Connection} {lead : Frame} {goaways : List Frame}
    (h : Continues lead.streamId con' con'') (hType : con''.type = con.type) (hLead : lead.Leads)
    (hQueue : con'.queue = con.queue ++ lead :: goaways) (hGoaways : ∀ f ∈ goaways, f.type = .goaway)
    (hOpens : lead.Opens → goaways = []) : Adds firm con con'' := by
  obtain ⟨conts, goaways', hQueue', hConts, hGoaways'⟩ := h
  have hAll : con''.queue = con.queue ++ lead :: (goaways ++ (conts ++ goaways')) := by
    simp [hQueue', hQueue]
  have hBehind : ∀ f ∈ goaways ++ (conts ++ goaways'),
      (f.type = .continuation ∧ f.streamId = lead.streamId) ∨ f.type = .goaway := by
    simp only [List.mem_append]
    rintro f (hf | hf | hf)
    · exact .inr (hGoaways f hf)
    · exact .inl (hConts f hf)
    · exact .inr (hGoaways' f hf)
  refine ⟨hType, ?_, fun _ out hWhole => ?_⟩
  · rw [hAll, others_append]
    exact List.prefix_append ..
  · rw [hAll, ← List.append_assoc]
    refine hWhole.block hLead (fun f hf hCont => ?_) (fun f hf => ?_) fun hOpen => ?_
    · rcases hBehind f hf with hOn | hType
      · exact hOn.2
      · rw [hCont] at hType
        cases hType
    · rcases hBehind f hf with hOn | hType
      · exact Frame.not_leads_of_continuation hOn.1
      · simp [Frame.Leads, hType]
    · refine ⟨conts, goaways', by rw [hOpens hOpen, List.nil_append], fun f hf => (hConts f hf).1, fun f hf => ?_⟩
      rw [hGoaways' f hf]
      exact nofun

/-! ### The two senders -/

/-- No error of `send_headers` comes before its last frame: the block fits into one frame, errors
are not raised, or the CONTINUATION frame the state machine objects to is the last one. -/
def HeadersFit (con : Connection) (sid : Nat) (headers : List Header) (ended : Bool) : Prop :=
  let maxSize := con.encSetting Setting.maxFrameSize
  let size := (headerBlock con headers).length
  size ≤ maxSize ∨ con.Unchecked sid ∨
    con.get sid Stream.pendingState = none ∧ con.standing sid ≠ none ∧ con.standing sid ≠ some .idle ∧
      (size ≤ 2 * maxSize ∨ con.Waits sid ended ∧ size ≤ 3 * maxSize)

/-- The same for `send_pp_headers`, which sets four octets of the first frame aside. -/
def PromiseFits (con : Connection) (sid : Nat) (headers : List Header) : Prop :=
  let maxSize := con.encSetting Setting.maxFrameSize
  let size := (headerBlock con headers).length
  size ≤ maxSize ∨ con.Unchecked sid ∨
    con.get sid Stream.pendingState = none ∧ con.standing sid ≠ none ∧ size ≤ (maxSize - 4) + maxSize

/-- The frames of a block, where no error comes before the last of them. -/
theorem adds_block (con : Connection) {d : FrameData} {flags : UInt8} {maxSize : Nat} {rest : Octets}
    (hEffect : con.encodeEffect d sid = con) (hLead : (d.frame flags sid).Leads)
    (hFit : ¬ (d.frame flags sid).Opens ∧ rest.length ≤ maxSize ∨ con.Unchecked sid ∨
      (con.enqueue d flags sid).shutdown = con.shutdown ∧ (rest.length ≤ maxSize ∨
        ((con.enqueue d flags sid).get sid Stream.pendingState).isSome ∧ rest.length ≤ 2 * maxSize))
    (fuel : Nat) : Adds firm con (sendContinuations maxSize sid fuel (con.enqueue d flags sid) rest) := by
  have hType := ((passes_adds.enqueue_of_push con d flags sid fun con => adds_push con _).trans
    ((passes_adds.free.fragments sid fun con frame _ => adds_push con frame).sendContinuations
      maxSize fuel _ rest)).type
  rcases hFit with ⟨hEnds, hLast⟩ | hUnchecked | ⟨hSame, hRest⟩
  · obtain ⟨goaways, hQueue, hGoaways⟩ := queue_enqueue hEffect flags
    exact (continues_sendContinuations_last hLast fuel _).adds hType hLead hQueue hGoaways
      fun hOpens => absurd hOpens hEnds
  · obtain ⟨hStill, hQueue⟩ := hUnchecked.enqueue hEffect flags
    exact (hStill.sendContinuations maxSize fuel rest).adds hType hLead hQueue (by simp) fun _ => rfl
  · have hQueue := queue_enqueue_of_shutdown hEffect hSame
    rcases hRest with hLast | ⟨hPending, hSecond⟩
    · exact (continues_sendContinuations_last hLast fuel _).adds hType hLead hQueue (by simp) fun _ => rfl
    · exact (continues_sendContinuations_pending hPending hSecond fuel).adds hType hLead hQueue (by simp)
        fun _ => rfl

theorem adds_sendHeaders {con : Connection} (hServer : con.type = .server) {headers : List Header}
    {ended : Bool} (hFit : con.HeadersFit sid headers ended) :
    Adds firm con (con.sendHeaders sid headers ended) := by
  let con₁ : Connection := { con with encodeCtx := (headersEncode con.encodeCtx headers).1 }
  have hContext : Adds firm con con₁ := adds_of_queue rfl rfl
  refine hContext.trans ?_
  rw [HeadersFit] at hFit
  rw [Connection.sendHeaders]
  dsimp only [headerBlock] at hFit ⊢
  generalize con.encSetting Setting.maxFrameSize = maxSize at hFit ⊢
  generalize (headersEncode con.encodeCtx headers).2 = block at hFit ⊢
  refine adds_block con₁ rfl (.inl rfl) ?_ block.length
  rw [List.length_drop]
  by_cases hOne : block.length ≤ maxSize
  · refine .inl ⟨fun hOpens => ?_, by omega⟩
    have hFlag := hOpens.2
    rw [if_pos hOne] at hFlag
    have hEnds : hasFlag (leadFlags ended ||| Flag.endHeaders) Flag.endHeaders = true := by
      cases ended <;> decide
    cases hEnds.symm.trans hFlag
  · rw [if_neg hOne]
    rcases hFit with hFits | hUnchecked | ⟨hPending, hStanding, hIdle, hSize⟩
    · exact absurd hFits hOne
    · exact .inr (.inl hUnchecked)
    · by_cases hUnchecked : con₁.Unchecked sid
      · exact .inr (.inl hUnchecked)
      · obtain ⟨state, hState⟩ := Option.ne_none_iff_exists'.mp hStanding
        rw [Unchecked, not_or, not_or, Bool.not_eq_false] at hUnchecked
        refine .inr (.inr ⟨?_, ?_⟩)
        · exact shutdown_stateMachine_headers (con₁.push _) hServer hPending hState
            (fun hEq => hIdle (hEq ▸ hState)) ended
        · rcases hSize with hTwo | ⟨hWaits, hThree⟩
          · exact .inl (by omega)
          · exact .inr ⟨isSome_pending_stateMachine_headers (con₁.push _) hServer hUnchecked.2.2
              hUnchecked.2.1 hPending hWaits, by omega⟩

theorem adds_sendPpHeaders {con : Connection} (hServer : con.type = .server) {promisedId : Nat}
    {headers : List Header} (hFit : con.PromiseFits sid headers) :
    Adds firm con (con.sendPpHeaders sid promisedId headers) := by
  let con₁ : Connection := { con with encodeCtx := (headersEncode con.encodeCtx headers).1 }
  have hContext : Adds firm con con₁ := adds_of_queue rfl rfl
  refine hContext.trans ?_
  rw [PromiseFits] at hFit
  rw [Connection.sendPpHeaders]
  dsimp only [headerBlock] at hFit ⊢
  generalize con.encSetting Setting.maxFrameSize = maxSize at hFit ⊢
  generalize (headersEncode con.encodeCtx headers).2 = block at hFit ⊢
  refine adds_block con₁ rfl (.inr rfl) ?_ block.length
  rw [List.length_drop]
  by_cases hOne : block.length ≤ maxSize
  · refine .inl ⟨fun hOpens => ?_, by omega⟩
    have hFlag := hOpens.2
    rw [if_pos hOne] at hFlag
    have hEnds : hasFlag Flag.endHeaders Flag.endHeaders = true := by decide
    cases hEnds.symm.trans hFlag
  · rw [if_neg hOne]
    rcases hFit with hFits | hUnchecked | ⟨hPending, hStanding, hSize⟩
    · exact absurd hFits hOne
    · exact .inr (.inl hUnchecked)
    · exact .inr (.inr ⟨shutdown_stateMachine_pushPromise (con₁.push _) hServer hPending hStanding,
        .inl (by omega)⟩)

end Connection

/-! ### Runs -/

/-- What happens to a server: it is fed input, the application calls it, a frame is taken from
the queue. -/
inductive WireEvent where
  | feed (ord : HashOrder) (chunk : Octets)
  | newStream
  | sendHeaders (sid : Nat) (headers : List Header) (ended : Bool)
  | sendPpHeaders (sid promisedId : Nat) (headers : List Header)
  | sendData (sid : Nat) (chunk : Octets) (ended : Option Bool)
  | sendPing (payload : Octets)
  | ackPing (payload : Octets)
  | dequeue

/-- A server, the frames taken from its queue, and the frames that have joined the queue in the
order they came, but for PING acknowledgements. -/
structure Wire where
  server : Server
  taken : List Frame := []
  enqueued : List Frame

namespace Wire

def start (given : Settings) : Wire :=
  { server := Server.new given, enqueued := others (Server.new given).con.queue }

/-- The wire once the server has become another one. -/
def update (w : Wire) (server : Server) : Wire :=
  { w with
    server
    enqueued := w.enqueued ++ (others server.con.queue).drop (others w.server.con.queue).length }

def call (w : Wire) (con : Connection) : Wire := w.update { w.server with con }

def step (w : Wire) : WireEvent → Wire
  | .feed ord chunk => w.update (w.server.feed ord chunk)
  | .newStream => w.call w.server.con.newStream.1
  | .sendHeaders sid headers ended => w.call (w.server.con.sendHeaders sid headers ended)
  | .sendPpHeaders sid promisedId headers => w.call (w.server.con.sendPpHeaders sid promisedId headers)
  | .sendData sid chunk ended => w.call (w.server.con.sendData sid chunk ended)
  | .sendPing payload => w.call (w.server.con.sendPing payload)
  | .ackPing payload => w.call (w.server.con.ackPing payload)
  | .dequeue =>
      { w with
        server := { w.server with con := w.server.con.dequeue }
        taken := w.taken ++ w.server.con.queue.head?.toList }

/-- A header block that is sent raises no error before its last frame. -/
def Fits (w : Wire) : WireEvent → Prop
  | .sendHeaders sid headers ended => w.server.con.HeadersFit sid headers ended
  | .sendPpHeaders sid _ headers => w.server.con.PromiseFits sid headers
  | _ => True

/-- The frames that were taken are those that joined the queue first, and with those that are still
there, they are all of them. -/
def InOrder (w : Wire) : Prop := others w.taken ++ others w.server.con.queue = w.enqueued

/-- What holds after every step. -/
structure Sound (firm : Prop) (w : Wire) : Prop where
  type : w.server.con.type = .server
  order : w.InOrder
  whole : firm → Whole (w.taken ++ w.server.con.queue)

variable {firm : Prop} {w : Wire}

theorem Sound.update (h : w.Sound firm) {server : Server} (hAdds : w.server.con.Adds firm server.con) :
    (w.update server).Sound firm := by
  obtain ⟨added, hAdded⟩ := hAdds.order
  refine ⟨hAdds.type.trans h.type, ?_, fun hFirm => hAdds.whole hFirm _ (h.whole hFirm)⟩
  show others w.taken ++ others server.con.queue =
    w.enqueued ++ (others server.con.queue).drop (others w.server.con.queue).length
  rw [← hAdded, List.drop_left, ← h.order, List.append_assoc]

theorem Sound.dequeue (h : w.Sound firm) : (w.step .dequeue).Sound firm := by
  have hFrames : (w.taken ++ w.server.con.queue.head?.toList) ++ w.server.con.queue.tail =
      w.taken ++ w.server.con.queue := by
    cases w.server.con.queue <;> simp
  refine ⟨h.type, ?_, fun hFirm => ?_⟩
  · show others (w.taken ++ _) ++ others w.server.con.queue.tail = w.enqueued
    rw [← others_append, hFrames, others_append]
    exact h.order
  · show Whole ((w.taken ++ _) ++ w.server.con.queue.tail)
    rw [hFrames]
    exact h.whole hFirm

theorem Sound.step (h : w.Sound firm) (event : WireEvent) (hFits : firm → w.Fits event) :
    (w.step event).Sound firm := by
  have hRule := @passes_adds firm
  cases event with
  | feed ord chunk => exact h.update (hRule.feed trivial
      (fun _ => adds_of_queue rfl rfl) (fun _ => adds_of_queue rfl rfl) ord
      w.server chunk)
  | newStream =>
      have hType : w.server.con.newStream.1.type = w.server.con.type := by
        rw [Connection.newStream]
        split <;> rfl
      have hQueue : w.server.con.newStream.1.queue = w.server.con.queue := by
        rw [Connection.newStream]
        split <;> rfl
      exact h.update (adds_of_queue hType hQueue)
  | sendHeaders sid headers ended =>
      have hLoose := passes_adds.sendHeaders adds_push w.server.con sid headers ended
      exact h.update (hLoose.of_firm fun hFirm => adds_sendHeaders h.type (hFits hFirm))
  | sendPpHeaders sid promisedId headers =>
      have hLoose := passes_adds.sendPpHeaders adds_push w.server.con sid promisedId
        headers
      exact h.update (hLoose.of_firm fun hFirm => adds_sendPpHeaders h.type (hFits hFirm))
  | sendData sid chunk ended => exact h.update (hRule.sendData ..)
  | sendPing payload => exact h.update (hRule.sendPing ..)
  | ackPing payload => exact h.update (hRule.ackPing ..)
  | dequeue => exact h.dequeue

theorem sound_start (given : Settings) : (start given).Sound firm := by
  have hQueue : (Server.new given).con.queue = [(FrameData.settings (Server.settings given)).frame 0 0] := rfl
  refine ⟨rfl, rfl, fun _ => ?_⟩
  show Whole ([] ++ (Server.new given).con.queue)
  rw [hQueue]
  exact whole_nil.append (by simp [FrameData.frame, FrameData.type])

end Wire

/-- The frames of a server leave it in the order they were queued in, but for PING acknowledgements;
and as long as no header block raises an error before its last frame, nothing parts a block. -/
theorem frames_leave_inOrder (given : Settings) (events : List WireEvent) :
    (runEvents Wire.step (Wire.start given) events).InOrder ∧
      (Meets Wire.step Wire.Fits (Wire.start given) events →
        Whole (runEvents Wire.step (Wire.start given) events).taken) := by
  have hOrder : (runEvents Wire.step (Wire.start given) events).Sound False :=
    Meets.invariant (Wire.sound_start given) (fun _ event h _ => h.step event False.elim)
      (@Meets.of_forall _ _ _ (fun _ _ => True) (fun _ _ => trivial) events _)
  refine ⟨hOrder.order, fun hMeets => ?_⟩
  have hSound : (runEvents Wire.step (Wire.start given) events).Sound True :=
    Meets.invariant (Wire.sound_start given) (fun _ event h hFits => h.step event fun _ => hFits) hMeets
  exact (hSound.whole trivial).of_append

/-- A request is answered, and its PING acknowledged before the response is taken. -/
theorem frames_leave_inOrder_response :
    Whole (runEvents Wire.step (Wire.start ∅) [.feed .kept (preface ++ requestFrame),
      .sendHeaders 1 [(octets ":status", octets "200")] true, .ackPing (octets "12345678"),
      .dequeue, .dequeue, .dequeue]).taken :=
  (frames_leave_inOrder ∅ [.feed .kept (preface ++ requestFrame),
    .sendHeaders 1 [(octets ":status", octets "200")] true, .ackPing (octets "12345678"),
    .dequeue, .dequeue, .dequeue]).2
    ⟨trivial, .inl (by decide +kernel), trivial, trivial, trivial, trivial, trivial⟩

/-! ### A block that is parted -/

namespace Connection

theorem vivify_of_state {con : Connection} {sid : Nat} {state : StreamState}
    (hState : con.get sid Stream.state = some state) : con.vivify sid = con := by
  cases hs : con.stream? sid with
  | some s => exact vivify_of_some hs
  | none =>
      rw [get_of_none hs] at hState
      cases hState

/-- On a stream that waits for none, a CONTINUATION frame raises an error. -/
theorem stateMachine_unexpected {con : Connection} {sid : Nat} {state : StreamState}
    (hPreface : con.preface = true) (hSid : sid ≠ 0) (hPending : con.get sid Stream.pendingState = none)
    (hPromised : con.get sid Stream.promisedSid = none) (hState : con.get sid Stream.state = some state)
    (flags : UInt8) : con.stateMachine .send .continuation flags sid = con.setError .protocolError := by
  rw [stateMachine, if_neg (by simp [hSid, hPreface])]
  simp [hPromised, vivify_of_state hState, hPending, hState]

theorem stateMachine_headers_halfClosed {con : Connection} {sid : Nat} (hServer : con.type = .server)
    (hPending : con.get sid Stream.pendingState = none)
    (hPromised : con.get sid Stream.promisedSid = none) (hState : con.get sid Stream.state = some .halfClosed) :
    con.stateMachine .send .headers 0 sid = con := by
  have hEnds : hasFlag 0 Flag.endStream = false := by decide
  rw [stateMachine]
  split
  · rfl
  · simp [hPromised, vivify_of_state hState, hPending, hState, stateStep, hEnds, hServer]

theorem queue_setError {con : Connection} (hUp : con.shutdown = false) (code : ErrorCode) :
    ∃ goaway : Frame, (con.setError code).queue = con.queue ++ [goaway] ∧ goaway.type = .goaway := by
  rw [setError, if_neg (by simp [hUp]), finish, if_neg (by simp [hUp])]
  exact ⟨_, rfl, rfl⟩

theorem sendContinuations_succ {maxSize sid fuel : Nat} {con : Connection} {block : Octets}
    (hBlock : 0 < block.length) : sendContinuations maxSize sid (fuel + 1) con block =
      sendContinuations maxSize sid fuel (con.enqueue (.continuation (block.take maxSize))
        (if block.length ≤ maxSize then 0 else Flag.endHeaders) sid) (block.drop maxSize) := by
  rw [sendContinuations, if_pos hBlock]

theorem queue_sendContinuations_succ {maxSize sid fuel : Nat} {con : Connection} {block : Octets}
    (hBlock : 0 < block.length) : ∃ (cont : Frame) (rest : List Frame),
      (sendContinuations maxSize sid (fuel + 1) con block).queue = con.queue ++ cont :: rest ∧
        cont.type = .continuation ∧ cont.streamId = sid := by
  have hEffect : con.encodeEffect (.continuation (block.take maxSize)) sid = con := rfl
  obtain ⟨goaways, hQueue, -⟩ := queue_enqueue hEffect
    (if block.length ≤ maxSize then 0 else Flag.endHeaders)
  obtain ⟨added, hAdded, -⟩ := sendContinuations_sends maxSize sid fuel
    (con.enqueue (.continuation (block.take maxSize))
      (if block.length ≤ maxSize then 0 else Flag.endHeaders) sid) (block.drop maxSize)
  refine ⟨FrameData.frame (.continuation (block.take maxSize))
    (if block.length ≤ maxSize then 0 else Flag.endHeaders) sid, goaways ++ added, ?_, rfl, rfl⟩
  rw [sendContinuations_succ hBlock, hAdded, hQueue, List.append_assoc, List.cons_append]

/-- The first CONTINUATION frame of a response that is not the whole answer raises an error, and the
GOAWAY frame of the error comes before the second. -/
theorem queue_sendHeaders_parted {con : Connection} {sid : Nat} {headers : List Header}
    (hServer : con.type = .server) (hPreface : con.preface = true) (hUp : con.shutdown = false)
    (hSid : sid ≠ 0) (hPending : con.get sid Stream.pendingState = none)
    (hPromised : con.get sid Stream.promisedSid = none) (hState : con.get sid Stream.state = some .halfClosed)
    (hMax : 0 < con.encSetting Setting.maxFrameSize)
    (hSize : 2 * con.encSetting Setting.maxFrameSize < (headerBlock con headers).length) :
    ∃ (lead cont goaway cont' : Frame) (rest : List Frame), (con.sendHeaders sid headers false).queue =
        con.queue ++ lead :: ([cont, goaway] ++ cont' :: rest) ∧
      lead.Opens ∧ lead.streamId = sid ∧ cont.type = .continuation ∧ goaway.type = .goaway ∧
      cont'.type = .continuation ∧ cont'.streamId = sid := by
  let con₁ : Connection := { con with encodeCtx := (headersEncode con.encodeCtx headers).1 }
  rw [sendHeaders]
  dsimp only [headerBlock] at hSize ⊢
  generalize con.encSetting Setting.maxFrameSize = maxSize at hMax hSize ⊢
  generalize (headersEncode con.encodeCtx headers).2 = block at hSize ⊢
  obtain ⟨fuel, hFuel⟩ : ∃ fuel, block.length = fuel + 2 := ⟨block.length - 2, by omega⟩
  have hRest : (block.drop maxSize).length = block.length - maxSize := List.length_drop
  let lead := FrameData.frame (.headers { hblock := block.take maxSize }) 0 sid
  have hLead : con₁.enqueue (.headers { hblock := block.take maxSize }) 0 sid = con₁.push lead :=
    @stateMachine_headers_halfClosed (con₁.push lead) sid hServer hPending hPromised hState
  let cont := FrameData.frame (.continuation ((block.drop maxSize).take maxSize)) Flag.endHeaders sid
  let con₂ := (con₁.push lead).push cont
  have hCont : (con₁.push lead).enqueue (.continuation ((block.drop maxSize).take maxSize)) Flag.endHeaders sid =
      con₂.setError .protocolError :=
    @stateMachine_unexpected con₂ sid _ hPreface hSid hPending hPromised hState _
  obtain ⟨goaway, hError, hGoaway⟩ := @queue_setError con₂ hUp .protocolError
  obtain ⟨cont', rest, hQueue, hType, hStream⟩ := @queue_sendContinuations_succ maxSize sid fuel
    (con₂.setError .protocolError) ((block.drop maxSize).drop maxSize)
    (by simp only [List.length_drop]; omega)
  refine ⟨lead, cont, goaway, cont', rest, ?_, ⟨.inl rfl, (hasFlag_leadFlags false).1⟩, rfl, rfl, hGoaway, hType, hStream⟩
  rw [if_neg (by omega), if_neg Bool.false_ne_true, hFuel, hLead, sendContinuations_succ (by omega),
    if_neg (by omega), hCont, hQueue, hError]
  simp [con₂, con₁, push]

end Connection

/-- Five eighths of a long value are in the header block that carries it. -/
theorem length_headerBlock_of_long {con : Connection} (hTable : con.encodeCtx.headerTable = [])
    (name : Octets) {value : Octets} (hValue : 60 < value.length) :
    5 * value.length ≤ 8 * (headerBlock con [(name, value)]).length := by
  have hField (context : Context) (hTable : context.headerTable = []) :
      5 * value.length ≤ 8 * (encodeFields context [(name, value)]).2.length := by
    have hLong := length_encodeField_of_long context (lc name) hTable hValue
    simpa [encodeFields] using hLong
  simp only [headerBlock, headersEncode, reduceCtorEq, if_false]
  split
  · have hLong := hField { con.encodeCtx with
      maxHtSize := con.encodeCtx.settings.value Setting.headerTableSize } hTable
    dsimp only at hLong
    rw [List.length_append]
    omega
  · exact hField _ hTable

theorem Wire.taken_dequeues (n : Nat) : ∀ w : Wire,
    (runEvents Wire.step w (List.replicate n .dequeue)).taken = w.taken ++ w.server.con.queue.take n := by
  induction n with
  | zero => exact fun w => by simp [runEvents]
  | succ n ih =>
      intro w
      have hStep := ih (w.step .dequeue)
      rw [List.replicate_succ, runEvents, List.foldl_cons]
      refine hStep.trans ?_
      show (w.taken ++ w.server.con.queue.head?.toList) ++ w.server.con.queue.tail.take n = _
      cases w.server.con.queue <;> simp

/-- A response with one field of 60000 octets. -/
def wideFields : List Header := [(octets "x-wide", List.replicate 60000 0x61)]

/-- The head of a response with a body is so long that it takes two CONTINUATION frames. -/
theorem not_whole_wideFields :
    ¬ Whole (runEvents Wire.step (Wire.start ∅) ([.feed .kept (preface ++ requestFrame),
      .sendHeaders 1 wideFields false] ++ List.replicate 5 .dequeue)).taken := by
  let w := runEvents Wire.step (Wire.start ∅) [.feed .kept (preface ++ requestFrame)]
  have hTable : w.server.con.encodeCtx.headerTable = [] := by decide +kernel
  have hMax : w.server.con.encSetting Setting.maxFrameSize = 16384 := by decide +kernel
  have hLong : 5 * 60000 ≤ 8 * (headerBlock w.server.con wideFields).length := by
    have hValue : (List.replicate 60000 (0x61 : UInt8)).length = 60000 := List.length_replicate
    have hWide : 60 < (List.replicate 60000 (0x61 : UInt8)).length := by omega
    have hBlock := length_headerBlock_of_long hTable (octets "x-wide") hWide
    rw [hValue] at hBlock
    exact hBlock
  obtain ⟨lead, cont, goaway, cont', rest, hQueue, hOpens, hLead, hCont, hGoaway, hCont', hStream⟩ :=
    @queue_sendHeaders_parted w.server.con 1 wideFields (by decide +kernel) (by decide +kernel)
      (by decide +kernel) (by decide) (by decide +kernel) (by decide +kernel) (by decide +kernel) (by omega)
      (by omega)
  have hLength : w.server.con.queue.length = 1 := by decide +kernel
  have hTaken : (runEvents Wire.step (Wire.start ∅) ([.feed .kept (preface ++ requestFrame),
      .sendHeaders 1 wideFields false] ++ List.replicate 5 .dequeue)).taken =
        w.server.con.queue ++ lead :: ([cont, goaway] ++ [cont']) := by
    rw [runEvents, List.foldl_append]
    refine (Wire.taken_dequeues 5 (w.step (.sendHeaders 1 wideFields false))).trans ?_
    show [] ++ (w.server.con.sendHeaders 1 wideFields false).queue.take 5 = _
    rw [hQueue, List.nil_append, List.take_append, hLength, List.take_of_length_le (by omega)]
    rfl
  intro hWhole
  rw [hTaken] at hWhole
  have hParted := hWhole w.server.con.queue lead [cont, goaway] cont' [] rfl hOpens hCont'
    (hStream.trans hLead.symm) (by simp [Frame.Leads, hCont, hGoaway]) goaway (by simp)
  rw [hGoaway] at hParted
  exact absurd hParted.1 nofun

end PageCamel.Http2

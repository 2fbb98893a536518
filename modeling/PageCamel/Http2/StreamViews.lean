import Mathlib.Data.Set.Insert
import PageCamel.Http2.DecoderRule
import PageCamel.Http2.Server

/-!
What the connection shows of a stream: whether it is there, the fields that decide
when its request is dispatched, and the dispatches so far. The functions of the
connection change no more of this than the streams they are about.
-/

namespace PageCamel.Http2
open PageCamel.Lib

/-- The fields of a stream that have to do with its state and its request. -/
def Stream.shown (s : Stream) : Stream :=
  { state := s.state, pendingState := s.pendingState, headers := s.headers, trailer := s.trailer
    cb := s.cb, ended := s.ended, reset := s.reset, promisedSid := s.promisedSid }

/-- The stream has the callbacks of a request and promises nothing. -/
structure Stream.Plain (s : Stream) : Prop where
  promised : s.promisedSid = none
  cb : ∀ cb ∈ s.cb, cb = (.opened, .opened) ∨ cb = (.halfClosed, .halfClosed)

theorem Stream.Plain.congr {s s' : Stream} (h : s.Plain) (hShown : s'.shown = s.shown) : s'.Plain where
  promised := by
    have hPromised : s'.shown.promisedSid = s.shown.promisedSid := congrArg _ hShown
    exact hPromised.trans h.promised
  cb := by
    have hCb : s'.shown.cb = s.shown.cb := congrArg _ hShown
    change s'.cb = s.cb at hCb
    rw [hCb]
    exact h.cb

/-- The stream whose request an event dispatches. -/
def Event.dispatched? : Event → Option Nat
  | .request sid _ _ | .connectRequest sid _ _ => some sid
  | .streamData _ _ => none

/-- What the connection shows of a stream. -/
structure View where
  stream : Option Stream
  dispatches : List Event

namespace Connection

variable {con con' con'' : Connection} {touched : Set Nat}

def dispatches (con : Connection) (sid : Nat) : List Event :=
  con.events.filter fun e => e.dispatched? = some sid

def view (con : Connection) (sid : Nat) : View :=
  { stream := (con.stream? sid).map Stream.shown, dispatches := con.dispatches sid }

def Plain (con : Connection) : Prop := ∀ sid s, con.stream? sid = some s → s.Plain

theorem Plain.promised (h : con.Plain) (sid : Nat) : con.get sid Stream.promisedSid = none := by
  cases hs : con.stream? sid with
  | none => exact get_of_none hs _
  | some s => exact (get_of_some hs _).trans (h sid s hs).promised

/-- The stream has no callbacks: nothing on it is dispatched any more. -/
def Spent (con : Connection) (sid : Nat) : Prop := ∃ s, con.stream? sid = some s ∧ s.cb = []

theorem Spent.cb {sid : Nat} {s : Stream} (h : con.Spent sid) (hs : con.stream? sid = some s) :
    s.cb = [] := by
  obtain ⟨t, ht, hCb⟩ := h
  rw [hs] at ht
  cases ht
  exact hCb

/-- No stream and no queued frame goes away. -/
structure Keeps (con con' : Connection) : Prop where
  type : con'.type = con.type
  preface : con'.preface = con.preface
  streams : ∀ sid, (con.stream? sid).isSome → (con'.stream? sid).isSome
  queue : con.queue ⊆ con'.queue

theorem Keeps.trans (h : Keeps con con') (h' : Keeps con' con'') : Keeps con con'' :=
  ⟨h'.type.trans h.type, h'.preface.trans h.preface,
    fun sid hs => h'.streams sid (h.streams sid hs), fun _ hMem => h'.queue (h.queue hMem)⟩

/-- Of the streams not touched, the connection shows what it did; on none is a reset taken
back or, with no callbacks left, anything dispatched. -/
structure Touches (touched : Set Nat) (con con' : Connection) : Prop extends Keeps con con' where
  reset : ∀ sid, (con.get sid Stream.reset).isSome → (con'.get sid Stream.reset).isSome
  plain : con.Plain → con'.Plain
  apart : con.Plain → ∀ sid, sid ∉ touched → con'.view sid = con.view sid
  spent : con.Plain → ∀ sid, con.Spent sid → con'.Spent sid ∧ con'.dispatches sid = con.dispatches sid

theorem Touches.refl (touched : Set Nat) (con : Connection) : Touches touched con con :=
  ⟨⟨rfl, rfl, fun _ h => h, fun _ h => h⟩, fun _ h => h, id, fun _ _ _ => rfl,
    fun _ _ hSpent => ⟨hSpent, rfl⟩⟩

theorem Touches.trans (h : Touches touched con con') (h' : Touches touched con' con'') :
    Touches touched con con'' where
  toKeeps := h.toKeeps.trans h'.toKeeps
  reset sid hReset := h'.reset sid (h.reset sid hReset)
  plain hPlain := h'.plain (h.plain hPlain)
  apart hPlain sid hNot := (h'.apart (h.plain hPlain) sid hNot).trans (h.apart hPlain sid hNot)
  spent hPlain sid hSpent := by
    obtain ⟨hMid, hSame⟩ := h.spent hPlain sid hSpent
    obtain ⟨hLast, hSame'⟩ := h'.spent (h.plain hPlain) sid hMid
    exact ⟨hLast, hSame'.trans hSame⟩

theorem Touches.mono {more : Set Nat} (h : Touches touched con con') (hMore : touched ⊆ more) :
    Touches more con con' :=
  ⟨h.toKeeps, h.reset, h.plain, fun hPlain sid hNot => h.apart hPlain sid fun hMem => hNot (hMore hMem),
    h.spent⟩

theorem chains_touches : Chains (Touches touched) := ⟨.refl touched, .trans⟩

theorem touches_foldl {α : Type} {f : Connection → α → Connection}
    (hStep : ∀ con a, Touches touched con (f con a)) (l : List α) (con : Connection) :
    Touches touched con (l.foldl f con) := by
  induction l generalizing con with
  | nil => exact .refl touched con
  | cons a l ih => exact (hStep con a).trans (ih (f con a))

/-- A change beside the streams. -/
theorem touches_of_streams (hStreams : con'.streams = con.streams)
    (hEvents : ∀ sid, con'.dispatches sid = con.dispatches sid) (hType : con'.type = con.type)
    (hPreface : con'.preface = con.preface) (hQueue : con.queue ⊆ con'.queue) :
    Touches touched con con' := by
  have hStream (sid : Nat) : con'.stream? sid = con.stream? sid := by rw [stream?, hStreams, stream?]
  refine ⟨⟨hType, hPreface, fun sid hSome => ?_, hQueue⟩, fun sid hReset => ?_,
    fun hPlain sid s hs => ?_, fun _ sid _ => ?_, fun _ sid hSpent => ⟨?_, hEvents sid⟩⟩
  · rw [hStream]
    exact hSome
  · rw [get, hStream]
    exact hReset
  · rw [hStream] at hs
    exact hPlain sid s hs
  · rw [view, hStream, hEvents, view]
  · rw [Spent, hStream]
    exact hSpent

/-- A stream changes or is made. -/
theorem touches_setStream {sid : Nat} {s' : Stream} (hTouched : sid ∈ touched)
    (hReset : (con.get sid Stream.reset).isSome → s'.reset.isSome) (hPlain : con.Plain → s'.Plain)
    (hSpent : con.Spent sid → s'.cb = []) : Touches touched con (con.setStream sid s') := by
  refine ⟨⟨rfl, rfl, fun other hSome => ?_, fun _ hMem => hMem⟩, fun other hBefore => ?_,
    fun hAll other s hs => ?_, fun _ other hNot => ?_, fun _ other hBefore => ⟨?_, rfl⟩⟩
  · rw [stream?_setStream]
    split
    · rfl
    · exact hSome
  · rw [get, stream?_setStream]
    split
    · next hEq => exact hReset (hEq ▸ hBefore)
    · exact hBefore
  · rw [stream?_setStream] at hs
    split at hs
    · cases hs
      exact hPlain hAll
    · exact hAll other s hs
  · have hOther : other ≠ sid := fun hEq => hNot (hEq ▸ hTouched)
    rw [view, stream?_setStream_of_ne _ _ hOther]
    rfl
  · rw [Spent, stream?_setStream]
    split
    · next hEq => exact ⟨s', rfl, hSpent (hEq ▸ hBefore)⟩
    · exact hBefore

theorem touches_modifyStream {sid : Nat} {f : Stream → Stream} (hTouched : sid ∈ touched)
    (hReset : ∀ s, s.reset.isSome → (f s).reset.isSome) (hPlain : ∀ s, s.Plain → (f s).Plain)
    (hSpent : ∀ s, s.cb = [] → (f s).cb = []) (con : Connection) :
    Touches touched con (con.modifyStream sid f) := by
  unfold modifyStream
  split
  · exact .refl touched con
  · next s hs =>
      refine touches_setStream hTouched (fun hBefore => ?_) (fun hAll => hPlain s (hAll sid s hs)) ?_
      · rw [get_of_some hs] at hBefore
        exact hReset s hBefore
      · exact fun hBefore => hSpent s (hBefore.cb hs)

/-- A change of a stream that does not show. -/
theorem touches_modifyStream_shown {f : Stream → Stream} (hShown : ∀ s, (f s).shown = s.shown)
    (con : Connection) (sid : Nat) : Touches touched con (con.modifyStream sid f) := by
  have hChanges := touches_modifyStream (f := f) (Set.mem_univ sid)
    (fun s hReset => by
      have hSame : (f s).shown.reset = s.shown.reset := congrArg _ (hShown s)
      change (f s).reset = s.reset at hSame
      rwa [hSame])
    (fun s hPlain => hPlain.congr (hShown s))
    (fun s hCb => (congrArg Stream.cb (hShown s) :).trans hCb) con
  refine ⟨hChanges.toKeeps, hChanges.reset, hChanges.plain, fun _ other _ => ?_, hChanges.spent⟩
  have hStream : ((con.modifyStream sid f).stream? other).map Stream.shown =
      (con.stream? other).map Stream.shown := by
    rw [stream?_modifyStream]
    split
    · next hEq =>
        subst hEq
        rw [Option.map_map]
        exact congrArg (fun g => (con.stream? other).map g) (funext hShown)
    · rfl
  rw [view, hStream]
  unfold modifyStream
  split <;> rfl

theorem touches_vivify {sid : Nat} (hTouched : sid ∈ touched) (con : Connection) :
    Touches touched con (con.vivify sid) := by
  unfold vivify
  split
  · exact .refl touched con
  · next hNone =>
      refine touches_setStream hTouched (fun hReset => ?_) (fun _ => ⟨rfl, fun cb hMem => nomatch hMem⟩)
        fun _ => rfl
      rw [get_of_none (by simpa using hNone)] at hReset
      cases hReset

theorem touches_setError (con : Connection) (code : ErrorCode) :
    Touches touched con (con.setError code) := by
  refine touches_of_streams ?_ (fun sid => ?_) ?_ ?_ ?_
  all_goals unfold setError finish
  all_goals repeat' split
  all_goals first | rfl | exact fun _ h => h | exact fun _ h => List.mem_append_left _ h

/-! ### States of streams -/

theorem touches_runCallback {sid : Nat} (hTouched : sid ∈ touched) {cb : StreamState × Callback}
    (hCb : cb = (.opened, .opened) ∨ cb = (.halfClosed, .halfClosed)) (con : Connection) :
    con.Plain → (con.runCallback sid cb.2).Plain ∧
      ∀ other, other ∉ touched → (con.runCallback sid cb.2).view other = con.view other := by
  have hPush (con : Connection) (e : Event) (hEvent : e.dispatched? = some sid) (other : Nat)
      (hNot : other ∉ touched) : (con.pushEvent e).view other = con.view other := by
    have hOther : ¬ e.dispatched? = some other := by
      rw [hEvent]
      rintro ⟨⟩
      exact hNot hTouched
    rw [view, dispatches, pushEvent, List.filter_append, List.filter_cons_of_neg (by simpa using hOther)]
    simp [view, dispatches, stream?]
  intro hPlain
  refine ⟨fun other s hs => ?_, fun other hNot => ?_⟩
  · rw [stream?_runCallback] at hs
    exact hPlain other s hs
  · rcases hCb with rfl | rfl
    all_goals cases hHeaders : con.get sid Stream.headers with
    | none => simp only [runCallback, hHeaders]
    | some h =>
        simp only [runCallback, hHeaders]
        split
        all_goals first | rfl | exact hPush con _ rfl other hNot

theorem keeps_runCallbacks (con : Connection) (sid : Nat) (new : StreamState)
    (cbs : List (StreamState × Callback)) : Keeps con (con.runCallbacks sid new cbs) ∧
      ∀ other, (con.runCallbacks sid new cbs).get other Stream.reset = con.get other Stream.reset := by
  refine ⟨⟨(quiet_runCallbacks ..).type, (quiet_runCallbacks ..).preface,
    fun other hSome => by rwa [stream?_runCallbacks], fun f hMem => ?_⟩,
    fun other => by rw [get, stream?_runCallbacks, get]⟩
  obtain ⟨goaways, hQueue, -⟩ := (quiet_runCallbacks con sid new cbs).queue
  rw [hQueue]
  exact List.mem_append_left _ hMem

theorem touches_runCallbacks {sid : Nat} (hTouched : sid ∈ touched) (new : StreamState)
    {cbs : List (StreamState × Callback)} (hCbs : con.Plain → ∀ cb ∈ cbs,
      cb = (.opened, .opened) ∨ cb = (.halfClosed, .halfClosed))
    (hSpent : con.Spent sid → cbs = []) : Touches touched con (con.runCallbacks sid new cbs) := by
  obtain ⟨hKeeps, hReset⟩ := keeps_runCallbacks con sid new cbs
  have hApart (hPlain : con.Plain) : (con.runCallbacks sid new cbs).Plain ∧
      ∀ other, other ∉ ({sid} : Set Nat) →
        (con.runCallbacks sid new cbs).view other = con.view other := by
    have hEach : ∀ cb ∈ cbs.filter fun cb => cb.1 = new,
        cb = (.opened, .opened) ∨ cb = (.halfClosed, .halfClosed) :=
      fun cb hMem => hCbs hPlain cb (List.mem_of_mem_filter hMem)
    unfold runCallbacks
    clear hKeeps hReset hCbs hSpent
    generalize cbs.filter (fun cb => cb.1 = new) = cbs at hEach
    induction cbs generalizing con with
    | nil => exact ⟨hPlain, fun _ _ => rfl⟩
    | cons cb cbs ih =>
        obtain ⟨hNext, hSame⟩ := touches_runCallback (Set.mem_singleton sid)
          (hEach cb (List.mem_cons_self ..)) con hPlain
        obtain ⟨hLast, hRest⟩ := ih hNext fun cb hMem => hEach cb (List.mem_cons_of_mem _ hMem)
        exact ⟨hLast, fun other hNot => (hRest other hNot).trans (hSame other hNot)⟩
  refine ⟨hKeeps, fun other hBefore => (hReset other).symm ▸ hBefore, fun hPlain => (hApart hPlain).1,
    fun hPlain other hNot => (hApart hPlain).2 other ?_, fun hPlain other hBefore => ⟨?_, ?_⟩⟩
  · exact fun hMem => hNot (Set.mem_singleton_iff.mp hMem ▸ hTouched)
  · rw [Spent, stream?_runCallbacks]
    exact hBefore
  · by_cases hOther : other = sid
    · rw [hSpent (hOther ▸ hBefore)]
      rfl
    · exact congrArg View.dispatches ((hApart hPlain).2 other hOther)

theorem touches_countClosed (con : Connection) (sid : Nat) :
    Touches touched con (con.countClosed sid) := by
  unfold countClosed
  dsimp only
  split
  · exact touches_of_streams rfl (fun _ => rfl) rfl rfl fun _ h => h
  · exact .refl touched con

theorem touches_setPendingState {sid : Nat} (hTouched : sid ∈ touched) (con : Connection)
    (pending : Option StreamState) : Touches touched con (con.setPendingState sid pending) := by
  unfold setPendingState
  split
  · exact .refl touched con
  · next s hs =>
      refine Touches.trans (touches_setStream hTouched ?_ (fun hPlain => ?_) fun hSpent => ?_ :
        Touches touched con (con.setStream sid (s.setPending pending)))
        (touches_of_streams rfl (fun _ => rfl) rfl rfl fun _ h => h)
      · rw [get_of_some hs]
        exact id
      · exact ⟨(hPlain sid s hs).promised, (hPlain sid s hs).cb⟩
      · exact (hSpent.cb hs :)

theorem touches_setState {sid : Nat} (hTouched : sid ∈ touched) (con : Connection)
    (new : StreamState) : Touches touched con (con.setState sid new) := by
  unfold setState
  split
  · exact .refl touched con
  · next s hs =>
      have hSet : Touches touched con (con.setStream sid { s with state := some new }) := by
        refine touches_setStream hTouched ?_ (fun hPlain => ?_) fun hSpent => ?_
        · rw [get_of_some hs]
          exact id
        · exact ⟨(hPlain sid s hs).promised, (hPlain sid s hs).cb⟩
        · exact (hSpent.cb hs :)
      have hCalls := hSet.trans (touches_runCallbacks hTouched new
        (fun hPlain => (hPlain sid _ (stream?_setStream_self con sid _)).cb)
        fun hSpent => (hSpent.cb (stream?_setStream_self con sid { s with state := some new }) :))
      dsimp only
      split
      · refine (hCalls.trans (touches_countClosed _ sid)).trans ?_
        exact touches_modifyStream (f := Stream.cleaned) hTouched (fun _ => id)
          (fun _ _ => ⟨rfl, fun cb hMem => nomatch hMem⟩) (fun _ _ => rfl) _
      · exact hCalls

theorem touches_clearPromised {sid : Nat} (hTouched : sid ∈ touched) (con : Connection) :
    Touches touched con (con.clearPromised sid) :=
  touches_modifyStream (f := fun s => { s with promisedSid := none }) hTouched (fun _ => id)
    (fun _ hPlain => ⟨rfl, hPlain.cb⟩) (fun _ => id) con

theorem respects_touches : RespectsOn touched (Touches touched) where
  refl := .refl touched
  trans := .trans
  vivify con _ hTouched := touches_vivify hTouched con
  setState con _ hTouched := touches_setState hTouched con
  setPendingState con _ hTouched := touches_setPendingState hTouched con
  clearPromised con _ hTouched := touches_clearPromised hTouched con
  setError := touches_setError

theorem touches_stateMachine {sid : Nat} (hTouched : sid ∈ touched) (con : Connection) (act : Act)
    (type : FrameType) (flags : UInt8) : Touches touched con (con.stateMachine act type flags sid) := by
  have hAll : Touches Set.univ con (con.stateMachine act type flags sid) :=
    respects_touches.stateMachine (Set.mem_univ sid) (fun target _ => Set.mem_univ target) act type flags
  refine ⟨hAll.toKeeps, hAll.reset, hAll.plain, fun hPlain => ?_, hAll.spent⟩
  refine (respects_touches.stateMachine hTouched (fun target hTarget => ?_) act type flags).apart hPlain
  rw [hPlain.promised] at hTarget
  cases hTarget

/-! ### Sending -/

theorem touches_encodeEffect {sid : Nat} (hTouched : sid ∈ touched) (con : Connection)
    (d : FrameData) : Touches touched con (con.encodeEffect d sid) := by
  cases d with
  | rstStream code =>
      exact touches_modifyStream (f := Stream.setReset code) hTouched (fun _ _ => rfl)
        (fun _ hPlain => ⟨hPlain.promised, hPlain.cb⟩) (fun _ => id) con
  | goaway _ _ => exact touches_of_streams rfl (fun _ => rfl) rfl rfl fun _ h => h
  | _ => exact .refl touched con

theorem touches_push (con : Connection) (frame : Frame) : Touches touched con (con.push frame) :=
  touches_of_streams rfl (fun _ => rfl) rfl rfl fun _ h => List.mem_append_left _ h

theorem touches_enqueue {sid : Nat} (hTouched : sid ∈ touched) (con : Connection) (d : FrameData)
    (flags : UInt8) : Touches touched con (con.enqueue d flags sid) :=
  ((touches_encodeEffect hTouched con d).trans (touches_push ..)).trans
    (touches_stateMachine hTouched ..)

theorem touches_enqueueFirst {sid : Nat} (hTouched : sid ∈ touched) (con : Connection)
    (d : FrameData) (flags : UInt8) : Touches touched con (con.enqueueFirst d flags sid) := by
  have hInsert (con : Connection) (n : Nat) (held : List Frame) (frame : Frame)
      (hHeld : con.queue = held ++ con.queue.drop n) :
      Touches touched con { con with queue := held ++ frame :: con.queue.drop n } := by
    refine touches_of_streams rfl (fun _ => rfl) rfl rfl fun f hMem => ?_
    rw [hHeld, List.mem_append] at hMem
    exact List.mem_append.mpr (hMem.imp_right (List.mem_cons_of_mem _))
  refine ((touches_encodeEffect hTouched con d).trans (hInsert _ _ _ _ ?_)).trans
    (touches_stateMachine hTouched ..)
  exact (List.prefix_iff_eq_append.mp (List.takeWhile_prefix _)).symm

/-- Frames for the connection as a whole. -/
theorem touches_enqueue_zero (con : Connection) {d : FrameData} (hReset : d.type ≠ .rstStream)
    (flags : UInt8) : Touches touched con (con.enqueue d flags 0) := by
  have hMachine (con : Connection) (type : FrameType) (flags : UInt8) :
      con.stateMachine .send type flags 0 = con := if_pos (.inl rfl)
  have hEffect : Touches touched con (con.encodeEffect d 0) := by
    cases d with
    | rstStream code => exact absurd rfl hReset
    | goaway _ _ => exact touches_of_streams rfl (fun _ => rfl) rfl rfl fun _ h => h
    | _ => exact .refl touched con
  show Touches touched con (((con.encodeEffect d 0).push _).stateMachine .send d.type flags 0)
  rw [hMachine]
  exact hEffect.trans (touches_push ..)

theorem touches_streamError {sid : Nat} (hTouched : sid ∈ touched) (con : Connection)
    (code : ErrorCode) : Touches touched con (con.streamError sid code) :=
  touches_enqueue hTouched ..

theorem touches_setEncodeCtx (con : Connection) (encodeCtx : Context) :
    Touches touched con { con with encodeCtx } :=
  touches_of_streams rfl (fun _ => rfl) rfl rfl fun _ h => h

theorem touches_sendHeaders {sid : Nat} (hTouched : sid ∈ touched) (con : Connection)
    (headers : List Header) (ended : Bool) :
    Touches touched con (con.sendHeaders sid headers ended) :=
  Fragments.sendHeaders
    { toChains := chains_touches, encode := fun con _ => touches_setEncodeCtx con _
      continuation := fun con _ flags => touches_enqueue hTouched con _ flags }
    (fun con _ flags => touches_enqueue hTouched con _ flags) con headers ended

theorem touches_addFcwSend (con : Connection) (delta : Int) :
    Touches touched con (con.addFcwSend delta) :=
  touches_of_streams rfl (fun _ => rfl) rfl rfl fun _ h => h

theorem touches_addStreamFcwSend (con : Connection) (sid : Nat) (delta : Int) :
    Touches touched con (con.addStreamFcwSend sid delta) :=
  touches_modifyStream_shown (by exact fun _ => rfl) ..

theorem uploads_touches {sid : Nat} (hTouched : sid ∈ touched) : Uploads sid (Touches touched) where
  toChains := chains_touches
  addFcwSend := touches_addFcwSend
  addStreamFcwSend con delta := touches_addStreamFcwSend con sid delta
  data con _ flags := touches_enqueue hTouched con _ flags
  ended con ended := touches_modifyStream (f := fun s => { s with ended }) hTouched (fun _ => id)
    (fun _ hPlain => ⟨hPlain.promised, hPlain.cb⟩) (fun _ => id) con
  blocked con _ := touches_modifyStream_shown (by exact fun _ => rfl) con sid

theorem touches_sendData {sid : Nat} (hTouched : sid ∈ touched) (con : Connection) (chunk : Octets)
    (ended : Option Bool) : Touches touched con (con.sendData sid chunk ended) :=
  (uploads_touches hTouched).sendData con chunk ended

theorem touches_streamSendBlocked {sid : Nat} (hTouched : sid ∈ touched) (con : Connection) :
    Touches touched con (con.streamSendBlocked sid) := (uploads_touches hTouched).streamSendBlocked con

theorem touches_sendBlocked (ord : HashOrder) (con : Connection) :
    Touches Set.univ con (con.sendBlocked ord) :=
  touches_foldl (fun con sid => touches_streamSendBlocked (Set.mem_univ sid) con) _ con

/-! ### Receiving -/

theorem touches_addFcwRecv (con : Connection) (delta : Int) :
    Touches touched con (con.addFcwRecv delta) :=
  touches_of_streams rfl (fun _ => rfl) rfl rfl fun _ h => h

theorem touches_addStreamFcwRecv (con : Connection) (sid : Nat) (delta : Int) :
    Touches touched con (con.addStreamFcwRecv sid delta) :=
  touches_modifyStream_shown (by exact fun _ => rfl) ..

theorem touches_streamData (con : Connection) (sid : Nat) (data : Octets) :
    Touches touched con (con.streamData sid data) := by
  unfold streamData
  split
  · exact .refl touched con
  · next s hs =>
      split
      · refine touches_of_streams rfl (fun other => ?_) rfl rfl fun _ h => h
        simp [dispatches, pushEvent, Event.dispatched?]
      · have hChange : Touches touched con (con.modifyStream sid fun t =>
            { t with data := some (s.data.getD [] ++ data) }) :=
          touches_modifyStream_shown (by exact fun _ => rfl) ..
        rwa [modifyStream_of_some hs] at hChange

theorem touches_setDecodeCtx (con : Connection) (decodeCtx : DecodeContext) :
    Touches touched con (con.setDecodeCtx decodeCtx) :=
  touches_of_streams rfl (fun _ => rfl) rfl rfl fun _ h => h

theorem touches_announce {sid : Nat} (hTouched : sid ∈ touched) (con : Connection) (c : Validation) :
    Touches touched con (con.announce sid c) :=
  touches_modifyStream (f := Stream.announce c) hTouched (fun _ => id)
    (fun _ hPlain => ⟨hPlain.promised, hPlain.cb⟩) (fun _ => id) con

theorem touches_store {sid : Nat} (hTouched : sid ∈ touched) (con : Connection) (isTrailer : Bool)
    (eh : List Header) : Touches touched con (con.modifyStream sid (Stream.store isTrailer eh)) := by
  refine touches_modifyStream hTouched (fun s hReset => ?_) (fun s hPlain => ?_) (fun s hCb => ?_) con
  · cases isTrailer <;> exact hReset
  · cases isTrailer <;> exact ⟨hPlain.promised, hPlain.cb⟩
  · cases isTrailer <;> exact hCb

theorem touches_storeHeaders {sid : Nat} {promisedSid : Option Nat} (hTouched : sid ∈ touched)
    (hPromised : ∀ target ∈ promisedSid, target ∈ touched) (con : Connection) (isTrailer : Bool)
    (eh : List Header) : Touches touched con (con.storeHeaders sid promisedSid isTrailer eh) := by
  cases promisedSid with
  | none => exact touches_store hTouched ..
  | some promised =>
      exact (touches_vivify (hPromised promised rfl) con).trans
        (touches_modifyStream_shown (by exact fun _ => rfl) ..)

theorem touches_headersDecoded_promised {sid : Nat} (hTouched : sid ∈ touched) {con : Connection}
    (hPromised : ∀ target ∈ con.get sid Stream.promisedSid, target ∈ touched) :
    Touches touched con (con.headersDecoded sid).1 :=
  headersDecoded_rule (R := Touches touched) .trans (touches_announce hTouched)
    (fun con => touches_streamError hTouched con _) (fun con => touches_setDecodeCtx con _) con
    fun con' _ _ => touches_storeHeaders hTouched hPromised con' _ _

theorem touches_headersDecoded {sid : Nat} (hTouched : sid ∈ touched) (con : Connection) :
    Touches touched con (con.headersDecoded sid).1 := by
  have hAll : Touches Set.univ con (con.headersDecoded sid).1 :=
    touches_headersDecoded_promised (Set.mem_univ sid) fun target _ => Set.mem_univ target
  refine ⟨hAll.toKeeps, hAll.reset, hAll.plain, fun hPlain => ?_, hAll.spent⟩
  refine (touches_headersDecoded_promised hTouched fun target hTarget => ?_).apart hPlain
  rw [hPlain.promised] at hTarget
  cases hTarget

theorem touches_setHeaderBlock (con : Connection) (sid : Nat) (block : Octets) :
    Touches touched con (con.setHeaderBlock sid block) :=
  touches_modifyStream_shown (by exact fun _ => rfl) ..

theorem collects_touches {sid : Nat} (hTouched : sid ∈ touched) : Collects sid (Touches touched) where
  toChains := chains_touches
  setError := touches_setError
  streamError := touches_streamError hTouched
  fcwUpdate con := (touches_addFcwRecv con _).trans
    (touches_enqueue_zero _ (fun hEq => FrameType.noConfusion hEq) _)
  streamFcwUpdate _ con := (touches_addStreamFcwRecv con sid _).trans (touches_enqueue hTouched ..)
  streamData con data := touches_streamData con sid data

theorem touches_setReset {sid : Nat} (hTouched : sid ∈ touched) (con : Connection) (code : Nat) :
    Touches touched con (con.modifyStream sid (Stream.setReset code)) :=
  touches_modifyStream (f := Stream.setReset code) hTouched (fun _ _ => rfl)
    (fun _ hPlain => ⟨hPlain.promised, hPlain.cb⟩) (fun _ => id) con

theorem reorders_touches : Reorders (Touches touched) where
  toChains := chains_touches
  setWeight con sid _ := touches_modifyStream_shown (by exact fun _ => rfl) con sid
  setStreamDep con sid _ := touches_modifyStream_shown (by exact fun _ => rfl) con sid

theorem decodes_touches {sid : Nat} (hTouched : sid ∈ touched) : Decodes sid (Touches touched) where
  toReorders := reorders_touches
  setError := touches_setError
  streamError := touches_streamError hTouched
  setHeaderBlock con block := touches_setHeaderBlock con sid block
  headersDecode con _ := touches_setDecodeCtx con _
  headersDecoded := touches_headersDecoded hTouched

theorem touches_ackPing (con : Connection) (payload : Octets) :
    Touches touched con (con.ackPing payload) := by
  have hAll := touches_enqueueFirst (Set.mem_insert 0 touched) con (.ping payload) Flag.ack
  refine ⟨hAll.toKeeps, hAll.reset, hAll.plain, fun _ sid _ => ?_, hAll.spent⟩
  have hMachine (con : Connection) (flags : UInt8) :
      con.stateMachine .send .ping flags 0 = con := if_pos (.inl rfl)
  show (stateMachine _ .send .ping Flag.ack 0).view sid = _
  rw [hMachine]
  rfl

theorem manages_touches : Manages (Touches touched) where
  toChains := chains_touches
  setError := touches_setError
  ackPing := touches_ackPing
  goaway _ := touches_of_streams rfl (fun _ => rfl) rfl rfl fun _ h => h
  addStreamFcwSend := touches_addStreamFcwSend
  setSettings con _ := touches_setEncodeCtx con _
  acceptSettings con := touches_enqueue_zero con (fun hEq => FrameType.noConfusion hEq) _

theorem touches_windowUpdateDecode (ord : HashOrder) {fh : FrameHeader}
    (hTouched : fh.stream ∈ touched) (hAll : fh.stream = 0 → touched = Set.univ) (con : Connection)
    (buf : Octets) : Touches touched con (con.windowUpdateDecode ord fh buf).1 := by
  unfold windowUpdateDecode
  dsimp only
  split
  · exact touches_setError ..
  · split
    · exact touches_setError ..
    · split
      · next hZero =>
          rw [hAll hZero]
          split
          · exact (touches_addFcwSend ..).trans (touches_setError ..)
          · exact (touches_addFcwSend ..).trans (touches_sendBlocked ..)
      · split
        · exact .refl touched con
        · split
          · exact (touches_addStreamFcwSend ..).trans (touches_streamError hTouched ..)
          · exact (touches_addStreamFcwSend ..).trans (touches_streamSendBlocked hTouched _)

theorem touches_newPeerStream {sid : Nat} (hTouched : sid ∈ touched)
    (hNone : con.stream? sid = none) : Touches touched con (con.newPeerStream sid).1 := by
  unfold newPeerStream
  split
  · exact touches_setError ..
  · split
    · have hLast : Touches touched con (con.setLastPeerStream sid) :=
        touches_of_streams rfl (fun _ => rfl) rfl rfl fun _ h => h
      exact hLast.trans (touches_streamError hTouched ..)
    · refine Touches.trans (touches_setStream hTouched ?_ (fun _ => ⟨rfl, fun cb hMem => ?_⟩) ?_)
        (touches_of_streams rfl (fun _ => rfl) rfl rfl fun _ h => h)
      · rw [get_of_none hNone]
        intro hReset
        cases hReset
      · simpa using hMem
      · rintro ⟨s, hs, -⟩
        rw [hNone] at hs
        cases hs

/-- A frame of any type but PUSH_PROMISE, for a stream that is there. -/
theorem touches_payloadDecode (ord : HashOrder) {fh : FrameHeader} (hType : fh.type ≠ .pushPromise)
    (hTouched : fh.stream ∈ touched)
    (hAll : fh.type = .windowUpdate → fh.stream = 0 → touched = Set.univ) (con : Connection)
    (buf : Octets) : Touches touched con (con.payloadDecode ord fh buf).1 := by
  unfold payloadDecode
  cases hKind : fh.type with
  | data =>
      exact (collects_touches hTouched).dataDecode touches_addFcwRecv touches_addStreamFcwRecv con buf
  | headers => exact (decodes_touches hTouched).headersFrameDecode ..
  | priority => exact reorders_touches.priorityDecode touches_setError ..
  | rstStream => exact (decodes_touches hTouched).rstStreamDecode (touches_setReset hTouched) ..
  | settings => exact manages_touches.settingsDecode ..
  | pushPromise => exact absurd hKind hType
  | ping => exact manages_touches.pingDecode ..
  | goaway => exact manages_touches.goawayDecode ..
  | windowUpdate => exact touches_windowUpdateDecode ord hTouched (hAll hKind) ..
  | continuation => exact (decodes_touches hTouched).continuationDecode ..
  | unknown code => exact .refl touched con

/-! ### What is kept by every frame -/

theorem Keeps.refl (con : Connection) : Keeps con con := (Touches.refl Set.univ con).toKeeps

theorem keeps_setError (con : Connection) (code : ErrorCode) : Keeps con (con.setError code) :=
  Touches.toKeeps (touches_setError con code : Touches Set.univ con (con.setError code))

theorem keeps_newPeerStream (con : Connection) (sid : Nat) : Keeps con (con.newPeerStream sid).1 := by
  cases hs : con.stream? sid with
  | none => exact (touches_newPeerStream (Set.mem_univ sid) hs).toKeeps
  | some s =>
      unfold newPeerStream
      split
      · exact keeps_setError ..
      · split
        · have hError := touches_streamError (Set.mem_univ sid) (con.setLastPeerStream sid) .refusedStream
          exact ⟨hError.type, hError.preface, hError.streams, hError.queue⟩
        · refine ⟨rfl, rfl, fun other hSome => ?_, fun _ h => h⟩
          show ((con.setStream sid _).stream? other).isSome
          rw [stream?_setStream]
          split
          · rfl
          · exact hSome

theorem keeps_pushPromiseDecode (con : Connection) (fh : FrameHeader) (buf : Octets) :
    Keeps con (con.pushPromiseDecode fh buf).1 := by
  unfold pushPromiseDecode
  split
  · exact keeps_setError ..
  · split
    · exact keeps_setError ..
    · have hPeer := keeps_newPeerStream con (promisedId fh buf)
      generalize con.newPeerStream (promisedId fh buf) = r at *
      obtain ⟨con', ok⟩ := r
      cases ok with
      | false => exact hPeer
      | true =>
          have hPromised : Keeps con' (con'.setPromised fh.stream (promisedId fh buf)) := by
            refine ⟨type_modifyStream .., preface_modifyStream .., fun other hSome => ?_,
              fun f hMem => ?_⟩
            · rw [setPromised, isSome_stream?_modifyStream]
              exact hSome
            · rw [setPromised, queue_modifyStream]
              exact hMem
          exact (hPeer.trans hPromised).trans
            ((decodes_touches (Set.mem_univ fh.stream)).blockDecode ..).toKeeps

theorem keeps_frameReceive (ord : HashOrder) (con : Connection) (fh : FrameHeader) (buf : Octets) :
    Keeps con (con.frameReceive ord fh buf).1 := by
  have hPayload : Keeps con (con.payloadDecode ord fh buf).1 := by
    by_cases hType : fh.type = .pushPromise
    · have hPush := keeps_pushPromiseDecode con fh buf
      rw [payloadDecode, hType]
      exact hPush
    · exact (touches_payloadDecode ord hType (Set.mem_univ _) (fun _ _ => rfl) con buf).toKeeps
  unfold frameReceive
  generalize con.payloadDecode ord fh buf = r at *
  obtain ⟨con', _ | n⟩ := r
  · exact hPayload
  · exact hPayload.trans (touches_stateMachine (Set.mem_univ fh.stream) ..).toKeeps

theorem keeps_frameAdmit (ord : HashOrder) (con : Connection) (fh : FrameHeader) (buf : Octets) :
    Keeps con (con.frameAdmit ord fh buf).1 := by
  unfold frameAdmit
  split
  · have hPeer := keeps_newPeerStream con fh.stream
    generalize con.newPeerStream fh.stream = r at *
    obtain ⟨con', ok⟩ := r
    cases ok with
    | false => exact hPeer
    | true => exact hPeer.trans (keeps_frameReceive ..)
  · exact keeps_frameReceive ..

/-- One frame received. -/
theorem keeps_frameDecode (ord : HashOrder) (con : Connection) (buf : Octets) :
    Keeps con (con.frameDecode ord buf).1 := by
  unfold frameDecode frameApply
  dsimp only
  split
  · exact .refl con
  · split
    · exact keeps_setError ..
    · split
      · exact .refl con
      · split
        · exact keeps_setError ..
        · cases (frameHeaderDecode buf).type with
          | unknown code => exact .refl con
          | _ => exact keeps_frameAdmit ..

end Connection
end PageCamel.Http2

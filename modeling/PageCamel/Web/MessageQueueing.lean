import PageCamel.Lib.Runs
import Mathlib.Algebra.GroupWithZero.Nat
import Mathlib.Data.List.Perm.Basic

/-!
The message queue of `PCWebsocket`. Callbacks are called in the middle of its loops and may call
it again: what is left to do is kept as a stack, and what a callback does is chosen when it is
called. Which modules have registered what does not change.
-/

namespace PageCamel.Web.MessageQueueing
open PageCamel.Lib

abbrev Text := List Char

structure MessageListItem (κ : Type) where
  messagename : Text
  modulename : Text
  callbacks : List κ
  deriving DecidableEq, Repr

/-- `serial` numbers the messages. `inTurn` says that the message has its turn behind others: it
goes to the queue, or it comes without being queued while the queue is worked off. -/
structure Message where
  serial : Nat
  inTurn : Bool
  msgname : Text
  data : Text
  deriving DecidableEq, Repr

/-- What the page and its callbacks do. -/
inductive Action where
  | spoolincoming (msgname data : Text)
  | startMessageQueueing (whitelistedMessages : List Text)
  | stopMessageQueueing
  /-- Nobody catches it. -/
  | throws
  deriving DecidableEq, Repr

inductive Task (κ : Type) where
  | action (action : Action)
  /-- `_handleMsg` for these items of the list. -/
  | forEach (items : List (MessageListItem κ)) (m : Message)
  | call (cbfunction : κ) (m : Message)
  /-- `this._msgqueue = []`. -/
  | clear
  deriving DecidableEq, Repr

/-- `calls` and `arrived` are the history. -/
structure Queueing (κ : Type) where
  msgqueue : List Message := []
  msgqueueexcept : List Text := []
  msgqueueenabled : Bool := false
  tasks : List (Task κ) := []
  calls : List (κ × Message) := []
  arrived : List Message := []
  deriving DecidableEq, Repr

variable {κ : Type}

def Task.isClear : Task κ → Bool
  | .clear => true
  | _ => false

/-- The queue is being worked off. -/
def replaying (tasks : List (Task κ)) : Bool := tasks.any Task.isClear

/-- `_handleMsg` puts a message of this name into the queue. -/
def Queueing.queues (s : Queueing κ) (msgname : Text) : Bool :=
  s.msgqueueenabled && !s.msgqueueexcept.contains msgname

/-- `_handleMsg` for one item after the other, until callbacks have to be called. -/
def Queueing.handleMsg (m : Message) : List (MessageListItem κ) → Queueing κ → Queueing κ
  | [], s => s
  | item :: items, s =>
      if m.msgname = item.messagename then
        if s.queues m.msgname then handleMsg m items { s with msgqueue := s.msgqueue ++ [m] }
        else { s with tasks := item.callbacks.map (.call · m) ++ .forEach items m :: s.tasks }
      else handleMsg m items s

section Machine

variable (toUpperCase : Text → Text) (messageList : List (MessageListItem κ))

/-- The message that `spoolincoming` hands on. What `RECIEVED` does besides is about the outbox. -/
def Queueing.message (s : Queueing κ) (msgname data : Text) : Message where
  serial := s.arrived.length
  inTurn := s.queues (toUpperCase msgname) || (!s.msgqueueenabled && replaying s.tasks)
  msgname := toUpperCase msgname
  data := data

/-- `does` is what the callback does, if one is called. The queue that is worked off is the one
at the beginning, and `forEach` takes no notice of what is added to it. -/
def Queueing.run (does : List Action) (s : Queueing κ) : Task κ → Queueing κ
  | .action (.spoolincoming msgname data) =>
      let m := s.message toUpperCase msgname data
      { s with arrived := s.arrived ++ [m] }.handleMsg m messageList
  | .action (.startMessageQueueing whitelistedMessages) =>
      { s with msgqueueexcept := whitelistedMessages, msgqueueenabled := true }
  | .action .stopMessageQueueing =>
      { s with
        msgqueueenabled := false
        tasks := s.msgqueue.map (.forEach messageList) ++ .clear :: s.tasks }
  | .action .throws => { s with tasks := [] }
  | .forEach items m => s.handleMsg m items
  | .call cbfunction m =>
      { s with calls := s.calls ++ [(cbfunction, m)], tasks := does.map .action ++ s.tasks }
  | .clear => { s with msgqueue := [] }

/-- When nothing is left to do the page goes on. -/
def Queueing.step (s : Queueing κ) (does : List Action) : Queueing κ :=
  match s.tasks with
  | [] => { s with tasks := does.map .action }
  | task :: tasks => { s with tasks }.run toUpperCase messageList does task

/-! ### What the callbacks should get -/

/-- The calls for one message, of items of the list. -/
def deliver (items : List (MessageListItem κ)) (m : Message) : List (κ × Message) :=
  (items.filter (m.msgname = ·.messagename)).flatMap fun item => item.callbacks.map (·, m)

/-- The calls for the messages in the queue. -/
def Queueing.waiting (s : Queueing κ) : List (κ × Message) :=
  s.msgqueue.flatMap (deliver messageList)

/-- Every callback has been called once for every message, or will be when the queue is worked
off, in the order of the messages that have their turn. -/
structure Kept (s : Queueing κ) : Prop where
  once : (s.calls ++ s.waiting messageList).Perm (s.arrived.flatMap (deliver messageList))
  inOrder : (s.calls ++ s.waiting messageList).filter (·.2.inTurn) =
    (s.arrived.filter Message.inTurn).flatMap (deliver messageList)
  workedOff : s.msgqueueenabled = false → s.waiting messageList = []

/-! ### When they get it -/

/-- The calls that the tasks still make. -/
def pending (tasks : List (Task κ)) : List (κ × Message) :=
  tasks.flatMap fun task =>
    match task with
    | .forEach items m => deliver items m
    | .call cbfunction m => [(cbfunction, m)]
    | _ => []

def itemsFor (items : List (MessageListItem κ)) (m : Message) : Nat :=
  items.countP (m.msgname = ·.messagename)

/-- The next task does not spoil anything. -/
def Queueing.Fits (s : Queueing κ) : Prop :=
  match s.tasks with
  | .action (.spoolincoming msgname data) :: tasks =>
      let m := { s with tasks }.message toUpperCase msgname data
      deliver messageList m = [] ∨
        (s.queues m.msgname → itemsFor messageList m = 1 ∧ replaying tasks = false) ∧
          (s.msgqueueenabled = false → replaying tasks → (pending tasks).filter (·.2.inTurn) = [])
  | .action .stopMessageQueueing :: tasks => replaying tasks → s.waiting messageList = []
  | .action .throws :: tasks =>
      pending tasks = [] ∧ (replaying tasks → s.waiting messageList = [])
  | .forEach items m :: tasks =>
      s.queues m.msgname →
        itemsFor items m = 0 ∨
          deliver items m = [] ∧ (deliver messageList m = [] ∨ replaying tasks)
  | _ => True

end Machine

/-! ### Handling one message -/

variable {s : Queueing κ} {m : Message} {items : List (MessageListItem κ)}

theorem deliver_cons (item : MessageListItem κ) (items : List (MessageListItem κ)) (m : Message) :
    deliver (item :: items) m =
      (if m.msgname = item.messagename then item.callbacks.map (·, m) else []) ++
        deliver items m := by
  rw [deliver, deliver, List.filter_cons]
  by_cases hName : m.msgname = item.messagename
  · rw [if_pos hName, if_pos (decide_eq_true hName), List.flatMap_cons]
  · rw [if_neg hName, if_neg (by simpa using hName), List.nil_append]

theorem pending_append (tasks tasks' : List (Task κ)) :
    pending (tasks ++ tasks') = pending tasks ++ pending tasks' :=
  List.flatMap_append

theorem pending_actions (does : List Action) : pending (does.map Task.action : List (Task κ)) = [] := by
  induction does with
  | nil => rfl
  | cons action does ih => exact ih

theorem pending_calls (callbacks : List κ) (m : Message) :
    pending (callbacks.map (Task.call · m)) = callbacks.map (·, m) := by
  induction callbacks with
  | nil => rfl
  | cons cbfunction callbacks ih => exact congrArg _ ih

theorem replaying_append (tasks tasks' : List (Task κ)) :
    replaying (tasks ++ tasks') = (replaying tasks || replaying tasks') :=
  List.any_append

theorem replaying_actions (does : List Action) :
    replaying (does.map Task.action : List (Task κ)) = false := by
  induction does with
  | nil => rfl
  | cons action does ih => exact ih

theorem replaying_calls (callbacks : List κ) (m : Message) :
    replaying (callbacks.map (Task.call · m)) = false := by
  induction callbacks with
  | nil => rfl
  | cons cbfunction callbacks ih => exact ih

/-- While messages are queued nothing is called. -/
theorem handleMsg_queues (hQueues : s.queues m.msgname = true) :
    s.handleMsg m items = { s with msgqueue := s.msgqueue ++ List.replicate (itemsFor items m) m } := by
  induction items generalizing s with
  | nil => rw [Queueing.handleMsg, itemsFor, List.countP_nil, List.replicate_zero, List.append_nil]
  | cons item items ih =>
    rw [Queueing.handleMsg, itemsFor, List.countP_cons, ← itemsFor]
    by_cases hName : m.msgname = item.messagename
    · have hNext : Queueing.queues { s with msgqueue := s.msgqueue ++ [m] } m.msgname = true := hQueues
      rw [if_pos hName, if_pos hQueues, ih hNext, if_pos (decide_eq_true hName),
        List.replicate_succ, List.append_assoc]
      rfl
    · rw [if_neg hName, ih hQueues, if_neg (by simpa using hName)]
      rfl

/-- Otherwise the calls are still to be made. -/
theorem handleMsg_direct (hDirect : s.queues m.msgname = false) :
    ∃ tasks, s.handleMsg m items = { s with tasks := tasks ++ s.tasks } ∧
      pending tasks = deliver items m ∧ replaying tasks = false := by
  induction items with
  | nil => exact ⟨[], rfl, rfl, rfl⟩
  | cons item items ih =>
    rw [Queueing.handleMsg, deliver_cons]
    by_cases hName : m.msgname = item.messagename
    · rw [if_pos hName, if_neg (ne_true_of_eq_false hDirect), if_pos hName]
      refine ⟨item.callbacks.map (.call · m) ++ [.forEach items m], ?_, ?_, ?_⟩
      · rw [List.append_assoc]
        rfl
      · rw [pending_append, pending_calls]
        exact congrArg _ (List.append_nil _)
      · rw [replaying_append, replaying_calls]
        rfl
    · rw [if_neg hName, if_neg hName]
      exact ih

/-! ### What one task keeps -/

variable {messageList : List (MessageListItem κ)} {toUpperCase : Text → Text}

/-- What is called when the queue is worked off, if that is still to come. -/
def Queueing.ahead (messageList : List (MessageListItem κ)) (s : Queueing κ) : List (κ × Message) :=
  if replaying s.tasks then [] else s.waiting messageList

/-- All calls, those to come behind those made. -/
def Queueing.allCalls (messageList : List (MessageListItem κ)) (s : Queueing κ) :
    List (κ × Message) :=
  s.calls ++ (pending s.tasks ++ s.ahead messageList)

structure Good (messageList : List (MessageListItem κ)) (s : Queueing κ) : Prop where
  once : (s.allCalls messageList).Perm (s.arrived.flatMap (deliver messageList))
  inOrder : (s.allCalls messageList).filter (·.2.inTurn) =
    (s.arrived.filter Message.inTurn).flatMap (deliver messageList)
  workedOff : s.msgqueueenabled = false → s.ahead messageList = []
  /-- Calls in turn are made by the working off. -/
  behind : ∀ tasks, tasks <:+ s.tasks → replaying tasks = false →
    (pending tasks).filter (·.2.inTurn) = []

/-- A task that leaves the calls as they are. -/
theorem Good.of_allCalls {s' : Queueing κ} (hGood : Good messageList s)
    (hCalls : s'.allCalls messageList = s.allCalls messageList) (hArrived : s'.arrived = s.arrived)
    (hAhead : s'.msgqueueenabled = false → s'.ahead messageList = [])
    (hBehind : ∀ tasks, tasks <:+ s'.tasks → replaying tasks = false →
      (pending tasks).filter (·.2.inTurn) = []) : Good messageList s' :=
  ⟨by rw [hCalls, hArrived]; exact hGood.once, by rw [hCalls, hArrived]; exact hGood.inOrder,
    hAhead, hBehind⟩

theorem deliver_inTurn (items : List (MessageListItem κ)) (m : Message) :
    (deliver items m).filter (·.2.inTurn) = if m.inTurn then deliver items m else [] := by
  have hAll : ∀ call ∈ deliver items m, call.2 = m := by
    intro call hCall
    obtain ⟨item, -, hItem⟩ := List.mem_flatMap.mp hCall
    obtain ⟨cbfunction, -, rfl⟩ := List.mem_map.mp hItem
    rfl
  split
  · next hTurn => exact List.filter_eq_self.mpr fun call hCall => by rw [hAll call hCall, hTurn]
  · next hTurn => exact List.filter_eq_nil_iff.mpr fun call hCall => by rwa [hAll call hCall]

/-- Tasks put on the stack before those that stay. -/
theorem behind_append {before tasks : List (Task κ)}
    (hTasks : ∀ rest, rest <:+ tasks → replaying rest = false →
      (pending rest).filter (·.2.inTurn) = [])
    (hBefore : replaying tasks = false → ∀ rest, rest <:+ before → replaying rest = false →
      (pending rest).filter (·.2.inTurn) = []) :
    ∀ rest, rest <:+ before ++ tasks → replaying rest = false →
      (pending rest).filter (·.2.inTurn) = [] := by
  intro rest hRest hReplaying
  rcases List.suffix_or_suffix_of_suffix hRest (List.suffix_append before tasks) with
    hRest | ⟨rest, rfl⟩
  · exact hTasks rest hRest hReplaying
  · rw [List.suffix_append_self_iff] at hRest
    rw [replaying_append, Bool.or_eq_false_iff] at hReplaying
    rw [pending_append, List.filter_append, hBefore hReplaying.2 rest hRest hReplaying.1,
      hTasks tasks (List.suffix_refl tasks) hReplaying.2]
    rfl

theorem behind_nil (rest : List (Task κ)) (hRest : rest <:+ []) (_ : replaying rest = false) :
    (pending rest).filter (·.2.inTurn) = [] := by
  rw [List.suffix_nil.mp hRest]
  rfl

theorem behind_of_pending {before : List (Task κ)}
    (hCalls : (pending before).filter (·.2.inTurn) = []) :
    ∀ rest, rest <:+ before → replaying rest = false → (pending rest).filter (·.2.inTurn) = [] := by
  rintro rest ⟨first, rfl⟩ -
  rw [pending_append, List.filter_append] at hCalls
  exact (List.append_eq_nil_iff.mp hCalls).2

theorem Good.tail {task : Task κ} {tasks : List (Task κ)} (hGood : Good messageList s)
    (hTasks : s.tasks = task :: tasks) :
    ∀ rest, rest <:+ tasks → replaying rest = false → (pending rest).filter (·.2.inTurn) = [] :=
  fun rest hRest => hGood.behind rest (hTasks ▸ hRest.trans (List.suffix_cons task tasks))

/-- What a message that comes adds to the calls. -/
theorem Good.arrive {s' : Queueing κ} (hGood : Good messageList s)
    (hArrived : s'.arrived = s.arrived ++ [m])
    (hOnce : (s'.allCalls messageList).Perm (s.allCalls messageList ++ deliver messageList m))
    (hInOrder : (s'.allCalls messageList).filter (·.2.inTurn) =
      (s.allCalls messageList ++ deliver messageList m).filter (·.2.inTurn))
    (hAhead : s'.msgqueueenabled = false → s'.ahead messageList = [])
    (hBehind : ∀ tasks, tasks <:+ s'.tasks → replaying tasks = false →
      (pending tasks).filter (·.2.inTurn) = []) : Good messageList s' := by
  refine ⟨?_, ?_, hAhead, hBehind⟩
  · rw [hArrived, List.flatMap_append, List.flatMap_singleton]
    exact hOnce.trans (hGood.once.append_right _)
  · rw [hInOrder, hArrived, List.filter_append, hGood.inOrder, List.filter_append,
      List.flatMap_append, deliver_inTurn]
    congr 1
    cases hTurn : m.inTurn with
    | false => rw [List.filter_cons_of_neg (ne_true_of_eq_false hTurn)]; rfl
    | true =>
      rw [List.filter_cons_of_pos hTurn]
      exact (List.append_nil _).symm

variable {does : List Action} {tasks : List (Task κ)}

theorem ahead_of_replaying (hReplaying : replaying s.tasks = true) : s.ahead messageList = [] :=
  if_pos hReplaying

theorem ahead_of_not_replaying (hReplaying : replaying s.tasks = false) :
    s.ahead messageList = s.waiting messageList := if_neg (ne_true_of_eq_false hReplaying)

theorem flatMap_replicate_nil (k : Nat) (hNone : deliver messageList m = []) :
    (List.replicate k m).flatMap (deliver messageList) = [] := by
  refine List.flatMap_eq_nil_iff.mpr fun other hOther => ?_
  rw [List.eq_of_mem_replicate hOther, hNone]

/-- `spoolincoming` while messages are queued. -/
theorem good_queued {msgname data : Text} (hGood : Good messageList s)
    (hTasks : s.tasks = .action (.spoolincoming msgname data) :: tasks)
    (hQueues : s.queues m.msgname = true)
    (hFits : deliver messageList m = [] ∨ itemsFor messageList m = 1 ∧ replaying tasks = false) :
    Good messageList
      ({ s with tasks, arrived := s.arrived ++ [m] }.handleMsg m messageList) := by
  have hSame : replaying s.tasks = replaying tasks := by rw [hTasks]; rfl
  have hCalls : pending s.tasks = pending tasks := by rw [hTasks]; rfl
  have hNext : Queueing.queues { s with tasks, arrived := s.arrived ++ [m] } m.msgname = true := hQueues
  rw [handleMsg_queues hNext]
  have hAll : Queueing.allCalls messageList
      { s with
        msgqueue := s.msgqueue ++ List.replicate (itemsFor messageList m) m
        tasks
        arrived := s.arrived ++ [m] } = s.allCalls messageList ++ deliver messageList m := by
    rw [Queueing.allCalls, Queueing.allCalls, hCalls, Queueing.ahead, Queueing.ahead, hSame,
      Queueing.waiting, List.flatMap_append]
    rcases hFits with hNone | ⟨hOne, hReplaying⟩
    · rw [flatMap_replicate_nil _ hNone, hNone, List.append_nil, List.append_nil]
      rfl
    · rw [hOne, hReplaying, if_neg Bool.false_ne_true, if_neg Bool.false_ne_true,
        List.append_assoc, List.append_assoc]
      exact congrArg _ (congrArg _ (congrArg _ (List.append_nil _)))
  refine hGood.arrive rfl (hAll ▸ List.Perm.refl _) (by rw [hAll]) (fun hOff => ?_)
    (hGood.tail hTasks)
  rw [Queueing.queues, Bool.and_eq_true] at hQueues
  exact absurd hQueues.1 (ne_true_of_eq_false hOff)

/-- `spoolincoming` when the callbacks are called at once. -/
theorem good_direct {msgname data : Text} (hGood : Good messageList s)
    (hTasks : s.tasks = .action (.spoolincoming msgname data) :: tasks)
    (hDirect : s.queues m.msgname = false)
    (hTurn : m.inTurn = (!s.msgqueueenabled && replaying tasks))
    (hFits : m.inTurn = true →
      deliver messageList m = [] ∨ (pending tasks).filter (·.2.inTurn) = []) :
    Good messageList
      ({ s with tasks, arrived := s.arrived ++ [m] }.handleMsg m messageList) := by
  have hSame : replaying s.tasks = replaying tasks := by rw [hTasks]; rfl
  have hCalls : pending s.tasks = pending tasks := by rw [hTasks]; rfl
  have hNext : Queueing.queues { s with tasks, arrived := s.arrived ++ [m] } m.msgname = false := hDirect
  obtain ⟨before, hHandle, hPending, hBefore⟩ := @handleMsg_direct _ _ _ messageList hNext
  rw [hHandle]
  have hReplaying : replaying (before ++ tasks) = replaying tasks := by
    rw [replaying_append, hBefore, Bool.false_or]
  have hAhead : Queueing.ahead messageList
      { s with tasks := before ++ tasks, arrived := s.arrived ++ [m] } = s.ahead messageList := by
    rw [Queueing.ahead, Queueing.ahead, hSame, hReplaying]
    rfl
  have hAll : Queueing.allCalls messageList
      { s with tasks := before ++ tasks, arrived := s.arrived ++ [m] } =
        s.calls ++ (deliver messageList m ++ (pending tasks ++ s.ahead messageList)) := by
    rw [Queueing.allCalls, hAhead, pending_append, hPending, List.append_assoc]
  have hOld : s.allCalls messageList = s.calls ++ (pending tasks ++ s.ahead messageList) := by
    rw [Queueing.allCalls, hCalls]
  refine hGood.arrive rfl ?_ ?_ (fun hOff => ?_) (behind_append (hGood.tail hTasks) fun hNot => ?_)
  · rw [hAll, hOld, List.append_assoc]
    exact List.perm_append_comm.append_left _
  · rw [hAll, hOld]
    simp only [List.filter_append, deliver_inTurn]
    cases hTurn' : m.inTurn with
    | false =>
      rw [if_neg Bool.false_ne_true, List.nil_append, List.append_nil]
    | true =>
      rw [if_pos rfl]
      rcases hFits hTurn' with hNone | hNone
      · rw [hNone, List.nil_append, List.append_nil]
      · rw [hTurn, Bool.and_eq_true] at hTurn'
        rw [hNone, ahead_of_replaying (hSame.trans hTurn'.2), List.filter_nil, List.append_nil,
          List.append_nil, List.append_nil]
  · rw [hAhead]
    exact hGood.workedOff hOff
  · refine behind_of_pending ?_
    rw [hPending, deliver_inTurn, hTurn, hNot, Bool.and_false]
    rfl

theorem deliver_of_itemsFor (hNone : itemsFor items m = 0) : deliver items m = [] := by
  rw [itemsFor, List.countP_eq_zero] at hNone
  rw [deliver, List.filter_eq_nil_iff.mpr hNone, List.flatMap_nil]

/-- The rest of the list for a message, after callbacks have been called. -/
theorem good_forEach (hGood : Good messageList s) (hTasks : s.tasks = .forEach items m :: tasks)
    (hFits : s.queues m.msgname = true → itemsFor items m = 0 ∨
      deliver items m = [] ∧ (deliver messageList m = [] ∨ replaying tasks = true)) :
    Good messageList ({ s with tasks }.handleMsg m items) := by
  have hSame : replaying s.tasks = replaying tasks := by rw [hTasks]; rfl
  have hCalls : pending s.tasks = deliver items m ++ pending tasks := by rw [hTasks]; rfl
  cases hQueues : s.queues m.msgname with
  | true =>
    have hNext : Queueing.queues { s with tasks } m.msgname = true := hQueues
    have hNone : deliver items m = [] :=
      (hFits hQueues).elim deliver_of_itemsFor And.left
    have hQueued : replaying tasks = true ∨
        (List.replicate (itemsFor items m) m).flatMap (deliver messageList) = [] := by
      rcases hFits hQueues with hZero | ⟨-, hAll | hReplaying⟩
      · rw [hZero]
        exact .inr rfl
      · exact .inr (flatMap_replicate_nil _ hAll)
      · exact .inl hReplaying
    have hAhead : Queueing.ahead messageList
        { s with
          msgqueue := s.msgqueue ++ List.replicate (itemsFor items m) m
          tasks } = s.ahead messageList := by
      rw [Queueing.ahead, Queueing.ahead, hSame]
      rcases hQueued with hReplaying | hEmpty
      · rw [if_pos hReplaying, if_pos hReplaying]
      · rw [Queueing.waiting, List.flatMap_append, hEmpty, List.append_nil]
        rfl
    rw [handleMsg_queues hNext]
    refine hGood.of_allCalls ?_ rfl (fun hOff => ?_) (hGood.tail hTasks)
    · rw [Queueing.allCalls, Queueing.allCalls, hAhead, hCalls, hNone, List.nil_append]
    · rw [hAhead]
      exact hGood.workedOff hOff
  | false =>
    have hNext : Queueing.queues { s with tasks } m.msgname = false := hQueues
    obtain ⟨before, hHandle, hPending, hBefore⟩ := @handleMsg_direct _ _ _ items hNext
    rw [hHandle]
    have hAhead : Queueing.ahead messageList { s with tasks := before ++ tasks } =
        s.ahead messageList := by
      rw [Queueing.ahead, Queueing.ahead, hSame, replaying_append, hBefore, Bool.false_or]
      rfl
    refine hGood.of_allCalls ?_ rfl (fun hOff => ?_)
      (behind_append (hGood.tail hTasks) fun hNot => ?_)
    · rw [Queueing.allCalls, Queueing.allCalls, hAhead, hCalls, pending_append, hPending]
    · rw [hAhead]
      exact hGood.workedOff hOff
    · have hAll := hGood.behind s.tasks (List.suffix_refl _) (hSame.trans hNot)
      rw [hCalls, List.filter_append] at hAll
      rw [← hPending] at hAll
      exact behind_of_pending (List.append_eq_nil_iff.mp hAll).1

theorem good_call {cbfunction : κ} (hGood : Good messageList s)
    (hTasks : s.tasks = .call cbfunction m :: tasks) :
    Good messageList { s with
      calls := s.calls ++ [(cbfunction, m)]
      tasks := does.map .action ++ tasks } := by
  have hReplaying : replaying (does.map Task.action ++ tasks) = replaying s.tasks := by
    rw [replaying_append, replaying_actions, Bool.false_or, hTasks]
    rfl
  have hAhead : Queueing.ahead messageList
      { s with calls := s.calls ++ [(cbfunction, m)], tasks := does.map .action ++ tasks } =
        s.ahead messageList := by
    rw [Queueing.ahead, Queueing.ahead, hReplaying]
    rfl
  refine hGood.of_allCalls ?_ rfl (fun hOff => ?_) (behind_append (hGood.tail hTasks) fun _ => ?_)
  · rw [Queueing.allCalls, Queueing.allCalls, hAhead, hTasks, pending_append, pending_actions,
      List.append_assoc]
    rfl
  · rw [hAhead]
    exact hGood.workedOff hOff
  · refine behind_of_pending ?_
    rw [pending_actions]
    rfl

theorem pending_replay (queue : List Message) :
    pending (queue.map (Task.forEach messageList)) = queue.flatMap (deliver messageList) := by
  induction queue with
  | nil => rfl
  | cons m queue ih => exact congrArg _ ih

/-- The queue is worked off before the tasks that were left. -/
theorem good_stop (hGood : Good messageList s)
    (hTasks : s.tasks = .action .stopMessageQueueing :: tasks)
    (hFits : replaying tasks = true → s.waiting messageList = []) :
    Good messageList { s with
      msgqueueenabled := false
      tasks := s.msgqueue.map (.forEach messageList) ++ .clear :: tasks } := by
  have hSame : replaying s.tasks = replaying tasks := by rw [hTasks]; rfl
  have hCalls : pending s.tasks = pending tasks := by rw [hTasks]; rfl
  have hReplaying : replaying
      (s.msgqueue.map (Task.forEach messageList) ++ Task.clear :: tasks) = true := by
    rw [replaying_append]
    exact Bool.or_true _
  have hAhead : Queueing.ahead messageList
      { s with
        msgqueueenabled := false
        tasks := s.msgqueue.map (.forEach messageList) ++ .clear :: tasks } = [] := if_pos hReplaying
  have hAll : Queueing.allCalls messageList
      { s with
        msgqueueenabled := false
        tasks := s.msgqueue.map (.forEach messageList) ++ .clear :: tasks } =
        s.calls ++ (s.waiting messageList ++ pending tasks) := by
    rw [Queueing.allCalls, hAhead, pending_append, pending_replay, List.append_nil]
    rfl
  have hOld : s.allCalls messageList = s.calls ++ (pending tasks ++ s.ahead messageList) := by
    rw [Queueing.allCalls, hCalls]
  have hMoved : s.waiting messageList = [] ∨ s.ahead messageList = s.waiting messageList ∧
      (pending tasks).filter (·.2.inTurn) = [] := by
    cases hNested : replaying tasks with
    | true => exact .inl (hFits hNested)
    | false =>
      refine .inr ⟨ahead_of_not_replaying (hSame.trans hNested), ?_⟩
      exact hGood.tail hTasks tasks (List.suffix_refl _) hNested
  have hNone : s.waiting messageList = [] → s.ahead messageList = [] := by
    intro hNone
    rw [Queueing.ahead, hNone, ite_self]
  refine ⟨?_, ?_, fun _ => hAhead, ?_⟩
  · refine List.Perm.trans ?_ hGood.once
    rw [hAll, hOld]
    rcases hMoved with hEmpty | ⟨hWaiting, -⟩
    · rw [hEmpty, hNone hEmpty, List.append_nil, List.nil_append]
    · rw [hWaiting]
      exact List.perm_append_comm.append_left _
  · refine Eq.trans ?_ hGood.inOrder
    rw [hAll, hOld]
    rcases hMoved with hEmpty | ⟨hWaiting, hPending⟩
    · rw [hEmpty, hNone hEmpty, List.append_nil, List.nil_append]
    · rw [hWaiting]
      simp only [List.filter_append, hPending, List.append_nil, List.nil_append]
  · refine @behind_append _ _ (.clear :: tasks) ?_ ?_
    · intro rest hRest hNot
      rcases List.suffix_cons_iff.mp hRest with rfl | hRest
      · cases hNot
      · exact hGood.tail hTasks rest hRest hNot
    · intro hNot
      cases hNot

theorem good_throws (hGood : Good messageList s) (hTasks : s.tasks = .action .throws :: tasks)
    (hPending : pending tasks = []) (hFits : replaying tasks = true → s.waiting messageList = []) :
    Good messageList { s with tasks := [] } := by
  have hSame : replaying s.tasks = replaying tasks := by rw [hTasks]; rfl
  have hCalls : pending s.tasks = pending tasks := by rw [hTasks]; rfl
  have hAhead : Queueing.ahead messageList { s with tasks := [] } = s.ahead messageList := by
    rw [Queueing.ahead, Queueing.ahead, hSame]
    cases hReplaying : replaying tasks with
    | true => exact hFits hReplaying
    | false => rfl
  refine hGood.of_allCalls ?_ rfl (fun hOff => ?_) behind_nil
  · rw [Queueing.allCalls, Queueing.allCalls, hAhead, hCalls, hPending]
    rfl
  · rw [hAhead]
    exact hGood.workedOff hOff

theorem good_clear (hGood : Good messageList s) (hTasks : s.tasks = .clear :: tasks) :
    Good messageList { s with tasks, msgqueue := [] } := by
  have hReplaying : replaying s.tasks = true := by rw [hTasks]; rfl
  have hCalls : pending s.tasks = pending tasks := by rw [hTasks]; rfl
  have hAhead : Queueing.ahead messageList { s with tasks, msgqueue := [] } = [] := ite_self _
  refine hGood.of_allCalls ?_ rfl (fun _ => hAhead) (hGood.tail hTasks)
  rw [Queueing.allCalls, Queueing.allCalls, hAhead, ahead_of_replaying hReplaying, hCalls]

theorem good_step (hGood : Good messageList s) (does : List Action)
    (hFits : s.Fits toUpperCase messageList) :
    Good messageList (s.step toUpperCase messageList does) := by
  rw [Queueing.Fits] at hFits
  rw [Queueing.step]
  cases hTasks : s.tasks with
  | nil =>
    dsimp only
    have hReplaying : replaying s.tasks = false := by rw [hTasks]; rfl
    have hAhead : Queueing.ahead messageList { s with tasks := does.map .action } =
        s.ahead messageList := by
      rw [Queueing.ahead, Queueing.ahead, replaying_actions, hReplaying]
      rfl
    refine hGood.of_allCalls ?_ rfl (fun hOff => ?_) (behind_of_pending (by rw [pending_actions]; rfl))
    · rw [Queueing.allCalls, Queueing.allCalls, hAhead, pending_actions, hTasks]
      rfl
    · rw [hAhead]
      exact hGood.workedOff hOff
  | cons task tasks =>
    rw [hTasks] at hFits
    cases task with
    | action action =>
      cases action with
      | spoolincoming msgname data =>
        cases hQueues : s.queues (toUpperCase msgname) with
        | true =>
          refine good_queued (s := s) hGood hTasks hQueues (hFits.imp_right fun hAll => hAll.1 hQueues)
        | false =>
          have hTurn : (Queueing.message toUpperCase { s with tasks } msgname data).inTurn =
              (!s.msgqueueenabled && replaying tasks) := by
            have hSame : Queueing.queues { s with tasks } (toUpperCase msgname) = false := hQueues
            rw [Queueing.message, hSame, Bool.false_or]
          refine good_direct (s := s) hGood hTasks hQueues hTurn fun hIn => hFits.imp_right fun hAll => ?_
          rw [hTurn, Bool.and_eq_true, Bool.not_eq_true'] at hIn
          exact hAll.2 hIn.1 hIn.2
      | startMessageQueueing whitelistedMessages =>
        have hAhead : Queueing.ahead messageList
            { s with
              tasks
              msgqueueexcept := whitelistedMessages
              msgqueueenabled := true } = s.ahead messageList := by
          rw [Queueing.ahead, Queueing.ahead, hTasks]
          rfl
        refine hGood.of_allCalls ?_ rfl nofun (hGood.tail hTasks)
        rw [Queueing.allCalls, Queueing.allCalls, hTasks]
        exact congrArg _ (congrArg _ hAhead)
      | stopMessageQueueing => exact good_stop (s := s) hGood hTasks hFits
      | throws => exact good_throws (s := s) hGood hTasks hFits.1 hFits.2
    | forEach items m => exact good_forEach (s := s) hGood hTasks hFits
    | call cbfunction m => exact good_call (s := s) hGood hTasks
    | clear => exact good_clear (s := s) hGood hTasks

theorem good_start : Good messageList ({} : Queueing κ) :=
  ⟨List.Perm.refl _, rfl, fun _ => rfl, behind_nil⟩

theorem Good.kept (hGood : Good messageList s) (hTasks : s.tasks = []) : Kept messageList s := by
  have hAhead : s.ahead messageList = s.waiting messageList := by
    rw [Queueing.ahead, hTasks]
    rfl
  have hAll : s.allCalls messageList = s.calls ++ s.waiting messageList := by
    rw [Queueing.allCalls, hAhead, hTasks]
    rfl
  exact ⟨hAll ▸ hGood.once, hAll ▸ hGood.inOrder, fun hOff => hAhead ▸ hGood.workedOff hOff⟩

/-! ### The calls come to an end -/

/-- The actions that wait, of the page and of callbacks. -/
def actions (tasks : List (Task κ)) : Nat :=
  tasks.countP fun task =>
    match task with
    | .action _ => true
    | _ => false

def itemsSize (items : List (MessageListItem κ)) : Nat :=
  (items.map fun item => item.callbacks.length + 1).sum

def size (tasks : List (Task κ)) : Nat :=
  (tasks.map fun task =>
    match task with
    | .forEach items _ => itemsSize items + 1
    | _ => 1).sum

theorem size_append (tasks tasks' : List (Task κ)) : size (tasks ++ tasks') = size tasks + size tasks' := by
  rw [size, List.map_append, List.sum_append]
  rfl

theorem actions_append (tasks tasks' : List (Task κ)) :
    actions (tasks ++ tasks') = actions tasks + actions tasks' := List.countP_append

theorem size_calls (callbacks : List κ) (m : Message) :
    size (callbacks.map (Task.call · m)) = callbacks.length := by
  induction callbacks with
  | nil => rfl
  | cons cbfunction callbacks ih =>
    rw [List.length_cons, ← ih, Nat.add_comm]
    rfl

theorem actions_calls (callbacks : List κ) (m : Message) :
    actions (callbacks.map (Task.call · m)) = 0 := by
  induction callbacks with
  | nil => rfl
  | cons cbfunction callbacks ih => exact ih

theorem handleMsg_tasks (items : List (MessageListItem κ)) (m : Message) (s : Queueing κ) :
    ∃ before, (s.handleMsg m items).tasks = before ++ s.tasks ∧ actions before = 0 ∧
      size before ≤ itemsSize items := by
  induction items generalizing s with
  | nil => exact ⟨[], rfl, rfl, Nat.le_refl 0⟩
  | cons item items ih =>
    have hItems : itemsSize (item :: items) = item.callbacks.length + 1 + itemsSize items :=
      List.sum_cons
    rw [Queueing.handleMsg]
    split
    · split
      · obtain ⟨before, hTasks, hActions, hSize⟩ := ih { s with msgqueue := s.msgqueue ++ [m] }
        exact ⟨before, hTasks, hActions, by omega⟩
      · refine ⟨item.callbacks.map (.call · m) ++ [.forEach items m], ?_, ?_, ?_⟩
        · rw [List.append_assoc]
          rfl
        · rw [actions_append, actions_calls]
          rfl
        · have hLast : size [Task.forEach items m] = itemsSize items + 1 := rfl
          rw [size_append, size_calls, hLast]
          omega
    · obtain ⟨before, hTasks, hActions, hSize⟩ := ih s
      exact ⟨before, hTasks, hActions, by omega⟩

theorem actions_replay (queue : List Message) :
    actions (queue.map (Task.forEach messageList)) = 0 := by
  induction queue with
  | nil => rfl
  | cons m queue ih => exact ih

/-- A task whose callback does nothing leaves fewer actions, or as many and less besides. -/
theorem step_smaller {task : Task κ} (hTasks : s.tasks = task :: tasks) :
    actions (s.step toUpperCase messageList []).tasks < actions s.tasks ∨
      actions (s.step toUpperCase messageList []).tasks = actions s.tasks ∧
        size (s.step toUpperCase messageList []).tasks < size s.tasks := by
  rw [Queueing.step, hTasks]
  dsimp only
  cases task with
  | action action =>
    have hOne : actions (.action action :: tasks) = actions tasks + 1 := List.countP_cons
    left
    rw [hOne]
    cases action with
    | spoolincoming msgname data =>
      obtain ⟨before, hBefore, hActions, -⟩ := handleMsg_tasks messageList
        (Queueing.message toUpperCase { s with tasks } msgname data)
        { s with
          tasks
          arrived := s.arrived ++ [Queueing.message toUpperCase { s with tasks } msgname data] }
      refine Nat.lt_succ_of_le (Nat.le_of_eq ?_)
      refine (congrArg actions hBefore).trans ?_
      rw [actions_append, hActions, Nat.zero_add]
    | startMessageQueueing whitelistedMessages => exact Nat.lt_succ_self _
    | stopMessageQueueing =>
      refine Nat.lt_succ_of_le (Nat.le_of_eq ?_)
      refine (actions_append _ _).trans ?_
      rw [actions_replay, Nat.zero_add]
      rfl
    | throws => exact Nat.succ_pos _
  | forEach items m =>
    right
    obtain ⟨before, hBefore, hActions, hSize⟩ := handleMsg_tasks items m { s with tasks }
    have hTasks : (Queueing.run toUpperCase messageList [] { s with tasks }
        (.forEach items m)).tasks = before ++ tasks := hBefore
    have hMore : size (.forEach items m :: tasks) = itemsSize items + 1 + size tasks := List.sum_cons
    rw [hTasks, actions_append, size_append, hActions, Nat.zero_add, hMore]
    exact ⟨rfl, by omega⟩
  | call cbfunction m =>
    have hMore : size (.call cbfunction m :: tasks) = 1 + size tasks := List.sum_cons
    refine .inr ⟨rfl, ?_⟩
    rw [hMore, Nat.add_comm]
    exact Nat.lt_succ_self _
  | clear =>
    have hMore : size (.clear :: tasks) = 1 + size tasks := List.sum_cons
    refine .inr ⟨rfl, ?_⟩
    rw [hMore, Nat.add_comm]
    exact Nat.lt_succ_self _

theorem comes_to_end (toUpperCase : Text → Text) (messageList : List (MessageListItem κ))
    (s : Queueing κ) :
    ∃ n, (runEvents (Queueing.step toUpperCase messageList) s (List.replicate n [])).tasks = [] := by
  obtain ⟨waits, hWaits⟩ : ∃ waits, actions s.tasks = waits := ⟨_, rfl⟩
  induction waits using Nat.strongRecOn generalizing s with
  | _ waits ih =>
    obtain ⟨rest, hRest⟩ : ∃ rest, size s.tasks = rest := ⟨_, rfl⟩
    induction rest using Nat.strongRecOn generalizing s with
    | _ rest ih' =>
      cases hTasks : s.tasks with
      | nil => exact ⟨0, hTasks⟩
      | cons task tasks =>
        have hNext : ∃ n, (runEvents (Queueing.step toUpperCase messageList)
            (s.step toUpperCase messageList []) (List.replicate n [])).tasks = [] := by
          rcases @step_smaller _ s messageList toUpperCase tasks task hTasks with
            hFewer | ⟨hSame, hLess⟩
          · exact ih _ (hWaits ▸ hFewer) _ rfl
          · exact ih' _ (hRest ▸ hLess) _ (hSame.trans hWaits) rfl
        obtain ⟨n, hn⟩ := hNext
        exact ⟨n + 1, hn⟩

/-- In a run all of whose tasks fit, whenever nothing is left to do every callback has got its
messages; and nothing is left to do when the callbacks stop calling. -/
theorem run_kept (toUpperCase : Text → Text) (messageList : List (MessageListItem κ))
    {run : List (List Action)}
    (hRun : Meets (Queueing.step toUpperCase messageList)
      (fun s _ => s.Fits toUpperCase messageList) {} run) :
    ((runEvents (Queueing.step toUpperCase messageList) {} run).tasks = [] →
      Kept messageList (runEvents (Queueing.step toUpperCase messageList) {} run)) ∧
      ∃ n, (runEvents (Queueing.step toUpperCase messageList) {}
        (run ++ List.replicate n [])).tasks = [] := by
  constructor
  · exact Good.kept
      (hRun.invariant good_start fun _ does hGood hFits => good_step hGood does hFits)
  · obtain ⟨n, hn⟩ := comes_to_end toUpperCase messageList
      (runEvents (Queueing.step toUpperCase messageList) {} run)
    exact ⟨n, by rw [runEvents_append]; exact hn⟩

/-! ### Runs -/

/-- `toUpperCase`, as far as the name below needs it. -/
def upper (name : Text) : Text := name.map Char.toUpper

def oneModule : List (MessageListItem Nat) := [⟨['N'], ['m'], [0, 1]⟩]

/-- The page queues a message and has it worked off; then the tasks are run. -/
def queueOne (tasks : Nat) : List (List Action) :=
  [.startMessageQueueing [], .spoolincoming ['n'] ['d'], .stopMessageQueueing] ::
    List.replicate tasks []

theorem run_kept_oneModule :
    Meets (Queueing.step upper oneModule) (fun s _ => s.Fits upper oneModule) {} (queueOne 8) ∧
      (runEvents (Queueing.step upper oneModule) {} (queueOne 8)).tasks = [] ∧
      Kept oneModule (runEvents (Queueing.step upper oneModule) {} (queueOne 8)) := by
  have hDone : (runEvents (Queueing.step upper oneModule) {} (queueOne 8)).tasks = [] := by decide
  have hRun : Meets (Queueing.step upper oneModule) (fun s _ => s.Fits upper oneModule) {}
      (queueOne 8) := by
    refine ⟨trivial, trivial, .inr ⟨fun _ => ⟨by decide, by decide⟩, fun hOff => ?_⟩, ?_⟩
    · exact absurd hOff (by decide)
    · refine ⟨fun hReplaying => absurd hReplaying (by decide), fun hQueues => ?_, trivial, trivial,
        fun hQueues => ?_, trivial, trivial⟩
      · exact absurd hQueues (by decide)
      · exact absurd hQueues (by decide)
  exact ⟨hRun, hDone, (run_kept upper oneModule hRun).1 hDone⟩

def twoModules : List (MessageListItem Nat) := [⟨['N'], ['m'], [0]⟩, ⟨['N'], ['n'], [1]⟩]

/-- The message is in the queue for each module, and goes to both modules each time. -/
theorem not_run_kept_twoModules :
    ¬((runEvents (Queueing.step upper twoModules) {} (queueOne 14)).tasks = [] →
      Kept twoModules (runEvents (Queueing.step upper twoModules) {} (queueOne 14))) :=
  fun hKept => absurd (hKept (by decide)).once.length_eq (by decide)

end PageCamel.Web.MessageQueueing

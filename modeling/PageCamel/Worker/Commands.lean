import PageCamel.Lib.Octets
import PageCamel.Lib.Runs
import Mathlib.Data.List.Nodup
import Mathlib.Logic.Function.Basic

/-!
The command queue of `Worker/Commands.pm`: worker processes that share one table,
each statement of which is atomic. A worker locks the row it selects, gives the lock
up again with a rollback, marks the row as its own, runs the command and deletes the
row; other workers run between any two of these statements.
-/

namespace PageCamel.Worker
open PageCamel.Lib

/-! ### The table -/

/-- A row of `commandqueue`: the columns as they have been committed, and the process
whose transaction holds the lock on the row. -/
structure CommandRow where
  id : Nat
  command : Octets
  arguments : Option (List Octets) := none
  starttime : Nat := 0
  currentWorker : Option Octets := none
  lockedBy : Option Nat := none
  deriving DecidableEq, Repr

/-- `ORDER BY starttime, id`. -/
def CommandRow.before (a b : CommandRow) : Bool :=
  a.starttime < b.starttime ∨ (a.starttime = b.starttime ∧ a.id < b.id)

/-- The first row in the order of the query. -/
def firstRow : List CommandRow → Option CommandRow
  | [] => none
  | row :: rows =>
      match firstRow rows with
      | none => some row
      | some other => if other.before row then some other else some row

/-- A worker process: its `APPNAME`, and the commands modules have registered with
`register_extcommand`. -/
structure Process where
  name : Octets
  extcommand : List Octets
  deriving DecidableEq, Repr

/-- The commands the worker asks the table for. -/
def Process.commandlist (w : Process) : List Octets :=
  if w.extcommand = [] then [] else w.extcommand ++ [octets "NOP_OK", octets "NOP_FAIL"]

/-! ### Processes -/

/-- Where a process is in `work`. -/
inductive Phase where
  | dead
  | idle
  /-- The rows of the locking `SELECT` have been fetched. -/
  | selected (row : Option CommandRow)
  /-- The transaction of the `SELECT` has been rolled back. -/
  | fetched (row : CommandRow)
  /-- The `UPDATE` that claims the row has not been committed. -/
  | claiming (row : CommandRow)
  | claimed (row : CommandRow)
  | executed (row : CommandRow)
  /-- The `DELETE` has not been committed. -/
  | deleting (row : CommandRow)
  deriving DecidableEq, Repr

/-- The command the process is going to execute. -/
def Phase.pending? : Phase → Option Nat
  | .selected (some row) | .fetched row | .claiming row | .claimed row => some row.id
  | _ => none

/-- The shared table, the processes, and the commands that have been executed, by whom. -/
@[ext] structure Queue where
  rows : List CommandRow := []
  nextId : Nat := 0
  phase : Nat → Phase := fun _ => .dead
  executed : List (Nat × Nat) := []

def Queue.setPhase (q : Queue) (p : Nat) (phase : Phase) : Queue :=
  { q with phase := Function.update q.phase p phase }

def Queue.mapRows (q : Queue) (f : CommandRow → CommandRow) : Queue := { q with rows := q.rows.map f }

/-- The locks of a process are given up at the end of its transaction. -/
def Queue.unlock (q : Queue) (p : Nat) : Queue :=
  q.mapRows fun row => if row.lockedBy = some p then { row with lockedBy := none } else row

/-- Another transaction holds the lock on a row with that id: a statement that changes
it waits. -/
def Queue.waits (q : Queue) (p id : Nat) : Bool :=
  q.rows.any fun row => row.id = id ∧ row.lockedBy ≠ none ∧ row.lockedBy ≠ some p

/-- A statement that changes the row has taken the lock. -/
def Queue.lock (q : Queue) (p id : Nat) : Queue :=
  q.mapRows fun row => if row.id = id then { row with lockedBy := some p } else row

/-- The row carries the name of the worker that has claimed it. -/
def Queue.mark (q : Queue) (id : Nat) (name : Octets) : Queue :=
  q.mapRows fun row => if row.id = id then { row with currentWorker := some name } else row

def Queue.remove (q : Queue) (id : Nat) : Queue :=
  { q with rows := q.rows.filter fun row => row.id ≠ id }

/-- `reload`: the entries of the worker are reset. -/
def Queue.reload (q : Queue) (name : Octets) : Queue :=
  q.mapRows fun row => if row.currentWorker = some name then { row with currentWorker := none } else row

/-- The row the locking `SELECT` of a worker finds first. -/
def Queue.candidate (q : Queue) (w : Process) (now : Nat) : Option CommandRow :=
  firstRow (q.rows.filter fun row =>
    row.starttime ≤ now ∧ row.command ∈ w.commandlist ∧ row.currentWorker = none)

/-- A backup is put off in the first ten minutes unless it is forced. -/
def postponed (early : Bool) (row : CommandRow) : Bool :=
  early && row.command = octets "BACKUP" &&
    match row.arguments with
    | none => false
    | some arguments => (arguments[1]?).getD [] ∈ [[], octets "0"]

inductive Event where
  /-- Somebody puts a command into the queue. -/
  | insert (command : Octets) (arguments : Option (List Octets)) (starttime : Nat)
  | start (p : Nat)
  | stop (p : Nat)
  | select (p now : Nat)
  | rollback (p : Nat)
  | claim (p : Nat) (early ok : Bool)
  | commitClaim (p : Nat)
  | execute (p : Nat)
  | delete (p : Nat)
  | commitDelete (p : Nat)
  deriving DecidableEq, Repr

/-- One statement, or one run of a command. A statement that would have to wait for a
lock does nothing yet. -/
def Queue.step (workers : Nat → Process) (q : Queue) : Event → Queue
  | .insert command arguments starttime =>
      { q with
        rows := q.rows ++ [{ id := q.nextId, command, arguments, starttime }]
        nextId := q.nextId + 1 }
  | .start p =>
      if q.phase p = .dead then (q.reload (workers p).name).setPhase p .idle else q
  | .stop p => (q.unlock p).setPhase p .dead
  | .select p now =>
      if q.phase p ≠ .idle ∨ (workers p).commandlist = [] then q
      else
        match q.candidate (workers p) now with
        | none => q.setPhase p (.selected none)
        | some row =>
            -- NOWAIT: a locked row is an error, which ends the process
            if row.lockedBy ≠ none then q.setPhase p .dead
            else (q.lock p row.id).setPhase p (.selected (some row))
  | .rollback p =>
      match q.phase p with
      | .selected none => q.setPhase p .idle
      | .selected (some row) => (q.unlock p).setPhase p (.fetched row)
      | _ => q
  | .claim p early ok =>
      match q.phase p with
      | .fetched row =>
          if postponed early row ∨ ok = false then q.setPhase p .idle
          else if q.waits p row.id then q
          else (q.lock p row.id).setPhase p (.claiming row)
      | _ => q
  | .commitClaim p =>
      match q.phase p with
      | .claiming row =>
          ((q.mark row.id (workers p).name).unlock p).setPhase p (.claimed row)
      | _ => q
  | .execute p =>
      match q.phase p with
      | .claimed row =>
          let q := q.setPhase p (.executed row)
          if row.command ∈ (workers p).extcommand then
            { q with executed := q.executed ++ [(p, row.id)] }
          else q
      | _ => q
  | .delete p =>
      match q.phase p with
      | .executed row =>
          if q.waits p row.id then q else (q.lock p row.id).setPhase p (.deleting row)
      | _ => q
  | .commitDelete p =>
      match q.phase p with
      | .deleting row =>
          ((q.remove row.id).unlock p).setPhase p .idle
      | _ => q

/-- Every command has been executed at most once, and so by at most one worker. -/
def Queue.ExecutedOnce (q : Queue) : Prop := (q.executed.map Prod.snd).Nodup

/-- No worker starts while a row carries its name, and no select finds a row that
another worker has fetched without having claimed it. -/
def Event.Claims (workers : Nat → Process) (q : Queue) : Event → Prop
  | .start p => ∀ row ∈ q.rows, row.currentWorker ≠ some (workers p).name
  | .select p now => ∀ row other row', q.candidate (workers p) now = some row →
      q.phase other = .fetched row' → row'.id ≠ row.id
  | _ => True

/-! ### The invariant -/

/-- A command nobody is going to execute any more: its row, if there is one, is marked,
and no process has it in hand. -/
structure Queue.Spent (q : Queue) (id : Nat) : Prop where
  marked : ∀ row ∈ q.rows, row.id = id → row.currentWorker ≠ none
  unheld : ∀ p, (q.phase p).pending? ≠ some id

/-- The process has the lock on the row it is working on. -/
def Phase.locks : Phase → Option Nat
  | .selected (some row) | .claiming row => some row.id
  | _ => none

structure Queue.Inv (q : Queue) : Prop where
  rowIds : ∀ row ∈ q.rows, row.id < q.nextId
  pendingIds : ∀ p id, (q.phase p).pending? = some id → id < q.nextId
  executedIds : ∀ e ∈ q.executed, e.2 < q.nextId
  locked : ∀ p id, (q.phase p).locks = some id →
    ∀ row ∈ q.rows, row.id = id → row.lockedBy = some p
  claimed : ∀ p row', q.phase p = .claimed row' →
    ∀ row ∈ q.rows, row.id = row'.id → row.currentWorker ≠ none
  alone : ∀ p p' id, (q.phase p).pending? = some id → (q.phase p').pending? = some id → p = p'
  spent : ∀ e ∈ q.executed, q.Spent e.2
  once : q.ExecutedOnce

theorem firstRow_mem {rows : List CommandRow} {row : CommandRow} (h : firstRow rows = some row) :
    row ∈ rows := by
  induction rows generalizing row with
  | nil => cases h
  | cons first rows ih =>
      rw [firstRow] at h
      split at h
      · cases h
        exact List.mem_cons_self ..
      · next other hOther =>
          split at h
          · cases h
            exact List.mem_cons_of_mem _ (ih hOther)
          · cases h
            exact List.mem_cons_self ..

theorem candidate_free {q : Queue} {w : Process} {now : Nat} {row : CommandRow}
    (h : q.candidate w now = some row) : row ∈ q.rows ∧ row.currentWorker = none := by
  obtain ⟨hMem, hFree⟩ := List.mem_filter.mp (firstRow_mem h)
  simp only [Bool.decide_and, Bool.and_eq_true, decide_eq_true_eq] at hFree
  exact ⟨hMem, hFree.2.2⟩

theorem pending_of_locks {phase : Phase} {id : Nat} (h : phase.locks = some id) :
    phase.pending? = some id := by
  cases phase with
  | selected row => cases row with
    | none => cases h
    | some row => exact h
  | claiming row => exact h
  | _ => cases h

@[simp] theorem phase_setPhase_self (q : Queue) (p : Nat) (phase : Phase) :
    (q.setPhase p phase).phase p = phase := Function.update_self ..

theorem phase_setPhase_of_ne {q : Queue} {p r : Nat} (h : r ≠ p) (phase : Phase) :
    (q.setPhase p phase).phase r = q.phase r := Function.update_of_ne h ..

/-- What a statement of process `p` may do to the rows: some may go, marks stay, and so do
the locks of other processes. -/
def Queue.Keeps (q : Queue) (p : Nat) (rows : List CommandRow) : Prop :=
  ∀ row' ∈ rows, ∃ row ∈ q.rows, row.id = row'.id ∧
    (row.currentWorker ≠ none → row'.currentWorker ≠ none) ∧
    ∀ r, r ≠ p → row.lockedBy = some r → row'.lockedBy = some r

theorem keeps_same (q : Queue) (p : Nat) : q.Keeps p q.rows :=
  fun row hRow => ⟨row, hRow, rfl, id, fun _ _ hLock => hLock⟩

theorem keeps_unlock (q : Queue) (p : Nat) : q.Keeps p (q.unlock p).rows := by
  intro row' hRow
  obtain ⟨row, hMem, rfl⟩ := List.mem_map.mp hRow
  refine ⟨row, hMem, ?_⟩
  split
  · next hOwn =>
      refine ⟨rfl, id, fun r hNe hLock => ?_⟩
      rw [hOwn] at hLock
      exact absurd (Option.some.inj hLock).symm hNe
  · exact ⟨rfl, id, fun _ _ hLock => hLock⟩

/-- A step that takes nothing new in hand and executes nothing. -/
theorem Queue.Inv.keep {q q' : Queue} {p : Nat} (hInv : q.Inv) (hNext : q'.nextId = q.nextId)
    (hExecuted : q'.executed = q.executed) (hOther : ∀ r, r ≠ p → q'.phase r = q.phase r)
    (hRows : q.Keeps p q'.rows)
    (hPending : ∀ id, (q'.phase p).pending? = some id → (q.phase p).pending? = some id)
    (hLocks : ∀ id, (q'.phase p).locks = some id →
      ∀ row ∈ q'.rows, row.id = id → row.lockedBy = some p)
    (hClaimed : ∀ row, q'.phase p = .claimed row →
      ∀ row' ∈ q'.rows, row'.id = row.id → row'.currentWorker ≠ none) : q'.Inv := by
  have hPending' (r id : Nat) (hHeld : (q'.phase r).pending? = some id) :
      (q.phase r).pending? = some id := by
    by_cases hr : r = p
    · subst hr
      exact hPending id hHeld
    · rwa [hOther r hr] at hHeld
  refine ⟨?_, ?_, ?_, ?_, ?_, ?_, ?_, ?_⟩
  · intro row' hRow
    obtain ⟨row, hMem, hId, _⟩ := hRows row' hRow
    rw [hNext, ← hId]
    exact hInv.rowIds row hMem
  · intro r id hHeld
    rw [hNext]
    exact hInv.pendingIds r id (hPending' r id hHeld)
  · intro e hMem
    rw [hExecuted] at hMem
    rw [hNext]
    exact hInv.executedIds e hMem
  · intro r id hHeld row' hRow hId'
    by_cases hr : r = p
    · subst hr
      exact hLocks id hHeld row' hRow hId'
    · rw [hOther r hr] at hHeld
      obtain ⟨row, hMem, hId, _, hKept⟩ := hRows row' hRow
      exact hKept r hr (hInv.locked r id hHeld row hMem (hId.trans hId'))
  · intro r row hPhase row' hRow hId'
    by_cases hr : r = p
    · subst hr
      exact hClaimed row hPhase row' hRow hId'
    · rw [hOther r hr] at hPhase
      obtain ⟨old, hMem, hId, hMarked, _⟩ := hRows row' hRow
      exact hMarked (hInv.claimed r row hPhase old hMem (hId.trans hId'))
  · intro r r' id hHeld hHeld'
    exact hInv.alone r r' id (hPending' r id hHeld) (hPending' r' id hHeld')
  · intro e hMem
    rw [hExecuted] at hMem
    have hSpent := hInv.spent e hMem
    refine ⟨fun row' hRow hId' => ?_, fun r hHeld => hSpent.unheld r (hPending' r e.2 hHeld)⟩
    obtain ⟨row, hOld, hId, hMarked, _⟩ := hRows row' hRow
    exact hMarked (hSpent.marked row hOld (hId.trans hId'))
  · rw [Queue.ExecutedOnce, hExecuted]
    exact hInv.once

theorem keeps_lock {q : Queue} {p id : Nat} (hFree : q.waits p id = false) :
    q.Keeps p (q.lock p id).rows := by
  intro row' hRow
  obtain ⟨row, hMem, rfl⟩ := List.mem_map.mp hRow
  refine ⟨row, hMem, ?_⟩
  split
  · next hId =>
      refine ⟨rfl, fun hMarked => hMarked, fun r hNe hLock => ?_⟩
      have hOwn := List.any_eq_false.mp hFree row hMem
      simp [hId, hLock, hNe] at hOwn
  · exact ⟨rfl, fun hMarked => hMarked, fun _ _ hLock => hLock⟩

theorem lockedBy_lock {q : Queue} {p id : Nat} {row : CommandRow} (hRow : row ∈ (q.lock p id).rows)
    (hId : row.id = id) : row.lockedBy = some p := by
  obtain ⟨old, _, rfl⟩ := List.mem_map.mp hRow
  split
  · rfl
  · next hOther =>
      rw [if_neg hOther] at hId
      exact absurd hId hOther

theorem keeps_mark (q : Queue) (p id : Nat) (name : Octets) : q.Keeps p (q.mark id name).rows := by
  intro row' hRow
  obtain ⟨row, hMem, rfl⟩ := List.mem_map.mp hRow
  refine ⟨row, hMem, ?_⟩
  split
  · exact ⟨rfl, fun _ => Option.some_ne_none _, fun _ _ hLock => hLock⟩
  · exact ⟨rfl, fun hMark => hMark, fun _ _ hLock => hLock⟩

theorem currentWorker_mark {q : Queue} {id : Nat} {name : Octets} {row : CommandRow}
    (hRow : row ∈ (q.mark id name).rows) (hId : row.id = id) : row.currentWorker ≠ none := by
  obtain ⟨old, _, rfl⟩ := List.mem_map.mp hRow
  split
  · exact Option.some_ne_none _
  · next hOther =>
      rw [if_neg hOther] at hId
      exact absurd hId hOther

theorem Queue.Keeps.trans {q q' : Queue} {p : Nat} {rows : List CommandRow}
    (h : q.Keeps p q'.rows) (h' : q'.Keeps p rows) : q.Keeps p rows := by
  intro row'' hRow
  obtain ⟨row', hMem', hId', hMarked', hKept'⟩ := h' row'' hRow
  obtain ⟨row, hMem, hId, hMarked, hKept⟩ := h row' hMem'
  exact ⟨row, hMem, hId.trans hId', fun hMark => hMarked' (hMarked hMark),
    fun r hNe hLock => hKept' r hNe (hKept r hNe hLock)⟩

theorem reload_of_unmarked {q : Queue} {name : Octets}
    (h : ∀ row ∈ q.rows, row.currentWorker ≠ some name) : q.reload name = q := by
  have hRows : (q.reload name).rows = q.rows := by
    refine (List.map_congr_left fun row hRow => ?_).trans (List.map_id _)
    exact if_neg (h row hRow)
  exact Queue.ext hRows rfl rfl rfl

/-- The row that is selected is in nobody's hand. -/
theorem Queue.Inv.select {q : Queue} (hInv : q.Inv) {p : Nat} {row : CommandRow}
    (hIdle : q.phase p = .idle) (hMem : row ∈ q.rows) (hMark : row.currentWorker = none)
    (hLock : row.lockedBy = none)
    (hFetched : ∀ other row', q.phase other = .fetched row' → row'.id ≠ row.id) :
    ((q.lock p row.id).setPhase p (.selected (some row))).Inv := by
  have hFree (r : Nat) : (q.phase r).pending? ≠ some row.id := by
    intro hHeld
    cases hPhase : q.phase r with
    | fetched row' =>
        rw [hPhase] at hHeld
        exact hFetched r row' hPhase (Option.some.inj hHeld)
    | claimed row' =>
        rw [hPhase] at hHeld
        exact hInv.claimed r row' hPhase row hMem (Option.some.inj hHeld).symm hMark
    | selected row' =>
        cases row' with
        | none => rw [hPhase] at hHeld; cases hHeld
        | some row' =>
            rw [hPhase] at hHeld
            have hTaken := hInv.locked r row.id (by rw [hPhase]; exact hHeld) row hMem rfl
            exact absurd (hLock.symm.trans hTaken) (by simp)
    | claiming row' =>
        rw [hPhase] at hHeld
        have hTaken := hInv.locked r row.id (by rw [hPhase]; exact hHeld) row hMem rfl
        exact absurd (hLock.symm.trans hTaken) (by simp)
    | dead => rw [hPhase] at hHeld; cases hHeld
    | idle => rw [hPhase] at hHeld; cases hHeld
    | executed row' => rw [hPhase] at hHeld; cases hHeld
    | deleting row' => rw [hPhase] at hHeld; cases hHeld
  have hId := hInv.rowIds row hMem
  have hOld (row' : CommandRow) (hRow : row' ∈ (q.lock p row.id).rows) : ∃ old ∈ q.rows,
      old.id = row'.id ∧ old.currentWorker = row'.currentWorker ∧
        (row'.id ≠ row.id → old.lockedBy = row'.lockedBy) := by
    obtain ⟨old, hOld, rfl⟩ := List.mem_map.mp hRow
    refine ⟨old, hOld, ?_⟩
    split
    · next hSame => exact ⟨rfl, rfl, fun hNe => absurd hSame hNe⟩
    · exact ⟨rfl, rfl, fun _ => rfl⟩
  have hOther {r : Nat} (hr : r ≠ p) :=
    phase_setPhase_of_ne (q := q.lock p row.id) hr (.selected (some row))
  have hPending (r id : Nat)
      (hHeld : (((q.lock p row.id).setPhase p (.selected (some row))).phase r).pending? = some id) :
      r = p ∧ row.id = id ∨ r ≠ p ∧ (q.phase r).pending? = some id := by
    by_cases hr : r = p
    · subst hr
      rw [phase_setPhase_self] at hHeld
      exact .inl ⟨rfl, Option.some.inj hHeld⟩
    · rw [hOther hr] at hHeld
      exact .inr ⟨hr, hHeld⟩
  refine ⟨?_, ?_, hInv.executedIds, ?_, ?_, ?_, ?_, hInv.once⟩
  · intro row' hRow
    obtain ⟨old, hMem', hSame, _⟩ := hOld row' hRow
    exact hSame ▸ hInv.rowIds old hMem'
  · intro r id hHeld
    rcases hPending r id hHeld with ⟨_, rfl⟩ | ⟨_, hHeld'⟩
    · exact hId
    · exact hInv.pendingIds r id hHeld'
  · intro r id hHeld row' hRow hRowId
    by_cases hr : r = p
    · subst hr
      rw [phase_setPhase_self] at hHeld
      exact lockedBy_lock hRow (hRowId.trans (Option.some.inj hHeld).symm)
    · rw [hOther hr] at hHeld
      obtain ⟨old, hMem', hSame, _, hLocked⟩ := hOld row' hRow
      have hNe : row'.id ≠ row.id := by
        intro hEq
        exact hFree r (hEq ▸ hRowId ▸ pending_of_locks hHeld)
      rw [← hLocked hNe]
      exact hInv.locked r id hHeld old hMem' (hSame.trans hRowId)
  · intro r row' hPhase row'' hRow hRowId
    by_cases hr : r = p
    · subst hr
      rw [phase_setPhase_self] at hPhase
      cases hPhase
    · rw [hOther hr] at hPhase
      obtain ⟨old, hMem', hSame, hMarked, _⟩ := hOld row'' hRow
      rw [← hMarked]
      exact hInv.claimed r row' hPhase old hMem' (hSame.trans hRowId)
  · intro r r' id hHeld hHeld'
    rcases hPending r id hHeld with ⟨hr, rfl⟩ | ⟨hr, hHeld⟩
    · rcases hPending r' row.id hHeld' with ⟨hr', _⟩ | ⟨_, hHeld'⟩
      · exact hr.trans hr'.symm
      · exact absurd hHeld' (hFree r')
    · rcases hPending r' id hHeld' with ⟨_, rfl⟩ | ⟨_, hHeld'⟩
      · exact absurd hHeld (hFree r)
      · exact hInv.alone r r' id hHeld hHeld'
  · intro e hMemE
    have hSpent := hInv.spent e hMemE
    refine ⟨fun row' hRow hRowId => ?_, fun r hHeld => ?_⟩
    · obtain ⟨old, hMem', hSame, hMarked, _⟩ := hOld row' hRow
      rw [← hMarked]
      exact hSpent.marked old hMem' (hSame.trans hRowId)
    · rcases hPending r e.2 hHeld with ⟨_, hEq⟩ | ⟨_, hHeld'⟩
      · exact hSpent.marked row hMem hEq hMark
      · exact hSpent.unheld r hHeld'

/-- A process that has nothing in hand any more. -/
theorem Queue.Inv.letGo {q : Queue} (hInv : q.Inv) {p : Nat} {rows : List CommandRow}
    (hRows : q.Keeps p rows) {phase : Phase} (hNone : phase.pending? = none) :
    ({ q with rows } : Queue).setPhase p phase |>.Inv := by
  have hSame := phase_setPhase_self { q with rows } p phase
  refine hInv.keep (p := p) rfl rfl (fun r hr => phase_setPhase_of_ne hr _) hRows ?_ ?_ ?_
  · intro id hHeld
    rw [hSame, hNone] at hHeld
    cases hHeld
  · intro id hHeld
    rw [hSame] at hHeld
    rw [pending_of_locks hHeld] at hNone
    cases hNone
  · intro row hPhase
    rw [hSame] at hPhase
    rw [hPhase] at hNone
    cases hNone

/-- A process that goes on with the command it has in hand, holding its lock or having
marked its row. -/
theorem Queue.Inv.goOn {q : Queue} (hInv : q.Inv) {p : Nat} {rows : List CommandRow}
    (hRows : q.Keeps p rows) {phase : Phase} {id : Nat} (hBefore : (q.phase p).pending? = some id)
    (hAfter : phase.pending? = some id)
    (hLocks : phase.locks = some id → ∀ row ∈ rows, row.id = id → row.lockedBy = some p)
    (hClaimed : ∀ row, phase = .claimed row →
      ∀ row' ∈ rows, row'.id = row.id → row'.currentWorker ≠ none) :
    ({ q with rows } : Queue).setPhase p phase |>.Inv := by
  have hSame := phase_setPhase_self { q with rows } p phase
  refine hInv.keep (p := p) rfl rfl (fun r hr => phase_setPhase_of_ne hr _) hRows ?_ ?_ ?_
  · intro id' hHeld
    rw [hSame, hAfter] at hHeld
    rw [hBefore, hHeld]
  · intro id' hHeld
    rw [hSame] at hHeld
    have hId := (pending_of_locks hHeld).symm.trans hAfter
    cases hId
    exact hLocks hHeld
  · intro row hPhase
    rw [hSame] at hPhase
    exact hClaimed row hPhase

theorem Queue.Inv.insert {q : Queue} (hInv : q.Inv) {row : CommandRow} (hId : row.id = q.nextId) :
    ({ q with rows := q.rows ++ [row], nextId := q.nextId + 1 } : Queue).Inv := by
  have hOld {id : Nat} (hLt : id < q.nextId) {row' : CommandRow} (hRow : row' ∈ q.rows ++ [row])
      (hSame : row'.id = id) : row' ∈ q.rows := by
    rcases List.mem_append.mp hRow with hMem | hNew
    · exact hMem
    · rw [List.mem_singleton.mp hNew] at hSame
      omega
  refine ⟨?_, ?_, ?_, ?_, ?_, hInv.alone, ?_, hInv.once⟩
  · intro row' hRow
    show row'.id < q.nextId + 1
    rcases List.mem_append.mp hRow with hMem | hNew
    · have := hInv.rowIds row' hMem
      omega
    · rw [List.mem_singleton.mp hNew, hId]
      omega
  · intro p id hHeld
    exact Nat.lt_succ_of_lt (hInv.pendingIds p id hHeld)
  · intro e hMem
    exact Nat.lt_succ_of_lt (hInv.executedIds e hMem)
  · intro p id hHeld row' hRow hSame
    have hLt := hInv.pendingIds p id (pending_of_locks hHeld)
    exact hInv.locked p id hHeld row' (hOld hLt hRow hSame) hSame
  · intro p row' hPhase row'' hRow hSame
    have hLt := hInv.pendingIds p row'.id (by rw [hPhase]; rfl)
    exact hInv.claimed p row' hPhase row'' (hOld hLt hRow hSame) hSame
  · intro e hMem
    have hSpent := hInv.spent e hMem
    refine ⟨fun row' hRow hSame => ?_, hSpent.unheld⟩
    exact hSpent.marked row' (hOld (hInv.executedIds e hMem) hRow hSame) hSame

/-- A claimed command is executed; from then on it is spent. -/
theorem Queue.Inv.execute {q : Queue} (hInv : q.Inv) {p : Nat} {row : CommandRow}
    (hPhase : q.phase p = .claimed row) :
    ({ q.setPhase p (.executed row) with executed := q.executed ++ [(p, row.id)] } : Queue).Inv := by
  have hPending : (q.phase p).pending? = some row.id := by rw [hPhase]; rfl
  have hAfter : (q.setPhase p (.executed row)).Inv := hInv.letGo (keeps_same q p) rfl
  have hSpent : (q.setPhase p (.executed row)).Spent row.id := by
    refine ⟨hInv.claimed p row hPhase, fun r hHeld => ?_⟩
    by_cases hr : r = p
    · subst hr
      rw [phase_setPhase_self] at hHeld
      cases hHeld
    · rw [phase_setPhase_of_ne hr] at hHeld
      exact hr (hInv.alone r p row.id hHeld hPending)
  have hFresh : row.id ∉ q.executed.map Prod.snd := by
    intro hMem
    obtain ⟨e, hE, hEq⟩ := List.mem_map.mp hMem
    exact (hInv.spent e hE).unheld p (hEq ▸ hPending)
  refine ⟨hAfter.rowIds, hAfter.pendingIds, ?_, hAfter.locked, hAfter.claimed, hAfter.alone, ?_, ?_⟩
  · intro e hMem
    rcases List.mem_append.mp hMem with hOld | hNew
    · exact hInv.executedIds e hOld
    · rw [List.mem_singleton.mp hNew]
      exact hInv.pendingIds p row.id hPending
  · intro e hMem
    rcases List.mem_append.mp hMem with hOld | hNew
    · exact ⟨(hAfter.spent e hOld).marked, (hAfter.spent e hOld).unheld⟩
    · rw [List.mem_singleton.mp hNew]
      exact ⟨hSpent.marked, hSpent.unheld⟩
  · have hOnce := hInv.once
    simp only [Queue.ExecutedOnce, List.map_append, List.map_cons, List.map_nil] at hOnce ⊢
    rw [List.nodup_append]
    exact ⟨hOnce, List.nodup_singleton _, fun id hMem id' hNew hEq => by
      rw [List.mem_singleton.mp hNew] at hEq
      exact hFresh (hEq ▸ hMem)⟩

theorem Queue.Inv.step {workers : Nat → Process} {q : Queue} (hInv : q.Inv) (event : Event)
    (hClaims : event.Claims workers q) : (q.step workers event).Inv := by
  cases event with
  | insert command arguments starttime => exact hInv.insert rfl
  | start p =>
      rw [Queue.step]
      split
      · rw [reload_of_unmarked hClaims]
        exact hInv.letGo (keeps_same q p) rfl
      · exact hInv
  | stop p => exact hInv.letGo (keeps_unlock q p) rfl
  | select p now =>
      rw [Queue.step]
      split
      · exact hInv
      · next hReady =>
          simp only [not_or, not_not] at hReady
          split
          · exact hInv.letGo (keeps_same q p) rfl
          · next row hRow =>
              split
              · exact hInv.letGo (keeps_same q p) rfl
              · next hLock =>
                  obtain ⟨hMem, hMark⟩ := candidate_free hRow
                  exact hInv.select hReady.1 hMem hMark (not_not.mp hLock)
                    fun other row' => hClaims row other row' hRow
  | rollback p =>
      rw [Queue.step]
      split
      · exact hInv.letGo (keeps_same q p) rfl
      · next row hPhase =>
          have hHeld : (q.phase p).pending? = some row.id := by rw [hPhase]; rfl
          refine hInv.goOn (keeps_unlock q p) hHeld rfl ?_ ?_
          · intro hLocks
            cases hLocks
          · intro row' hClaimed
            cases hClaimed
      · exact hInv
  | claim p early ok =>
      rw [Queue.step]
      split
      · next row hPhase =>
          split
          · exact hInv.letGo (keeps_same q p) rfl
          · split
            · exact hInv
            · next hWaits =>
                simp only [Bool.not_eq_true] at hWaits
                have hHeld : (q.phase p).pending? = some row.id := by rw [hPhase]; rfl
                refine hInv.goOn (keeps_lock hWaits) hHeld rfl ?_ ?_
                · exact fun _ row' hRow hSame => lockedBy_lock hRow hSame
                · intro row' hClaimed
                  cases hClaimed
      · exact hInv
  | commitClaim p =>
      rw [Queue.step]
      split
      · next row hPhase =>
          have hHeld : (q.phase p).pending? = some row.id := by rw [hPhase]; rfl
          have hKeeps := (keeps_mark q p row.id (workers p).name).trans (keeps_unlock _ p)
          refine hInv.goOn hKeeps hHeld rfl ?_ ?_
          · intro hLocks
            cases hLocks
          · intro row' hClaimed row'' hRow hSame
            cases hClaimed
            obtain ⟨marked, hMarked, hId, hStays, _⟩ := keeps_unlock _ p row'' hRow
            exact hStays (currentWorker_mark hMarked (hId.trans hSame))
      · exact hInv
  | execute p =>
      rw [Queue.step]
      split
      · next row hPhase =>
          split
          · exact hInv.execute hPhase
          · exact hInv.letGo (keeps_same q p) rfl
      · exact hInv
  | delete p =>
      rw [Queue.step]
      split
      · next row hPhase =>
          split
          · exact hInv
          · next hWaits =>
              simp only [Bool.not_eq_true] at hWaits
              exact hInv.letGo (keeps_lock hWaits) rfl
      · exact hInv
  | commitDelete p =>
      rw [Queue.step]
      split
      · next row hPhase =>
          have hFewer : q.Keeps p (q.remove row.id).rows :=
            fun row' hRow => keeps_same q p row' (List.mem_of_mem_filter hRow)
          exact hInv.letGo (hFewer.trans (keeps_unlock _ p)) rfl
      · exact hInv

theorem inv_empty : ({} : Queue).Inv where
  rowIds row hRow := by cases hRow
  pendingIds p id hHeld := by cases hHeld
  executedIds e hMem := by cases hMem
  locked p id hHeld := by cases hHeld
  claimed p row' hPhase := by cases hPhase
  alone p p' id hHeld := by cases hHeld
  spent e hMem := by cases hMem
  once := List.nodup_nil

/-- In every run in which no worker starts while a row carries its name, and no select
finds a row that another worker has fetched without having claimed it, every command is
executed at most once. -/
theorem commands_executed_once (workers : Nat → Process) {q : Queue}
    (hRun : Reached (Queue.step workers) (fun q event => event.Claims workers q) {} q) :
    q.ExecutedOnce :=
  (hRun.invariant inv_empty fun _ event hInv hClaims => hInv.step event hClaims).once

/-- Two workers that run the same command. -/
def backupWorkers (p : Nat) : Process :=
  ⟨if p = 0 then octets "first" else octets "second", [octets "VACUUM_ANALYZE"]⟩

/-- One worker after the other asks for work. -/
theorem commands_executed_once_inTurn :
    (runEvents (Queue.step backupWorkers) {}
      [.insert (octets "VACUUM_ANALYZE") none 0, .start 0, .start 1, .select 0 0, .rollback 0,
        .claim 0 false true, .commitClaim 0, .select 1 0, .execute 0]).ExecutedOnce := by
  refine commands_executed_once backupWorkers (Reached.run _ _ .start ?_)
  have hStart (q : Queue) (p : Nat) (h : ∀ row ∈ q.rows, row.currentWorker = none) :
      Event.Claims backupWorkers q (.start p) := by
    intro row hRow hName
    rw [h row hRow] at hName
    cases hName
  refine ⟨trivial, hStart _ _ (by decide), hStart _ _ (by decide), ?_, trivial, trivial, trivial,
    ?_, trivial, trivial⟩
  · intro row other row' _ hPhase
    -- both workers are idle, and there are no others
    rcases other with _ | _ | other <;> cases hPhase
  · intro row other row' hRow
    have hNone : (runEvents (Queue.step backupWorkers) {}
        [.insert (octets "VACUUM_ANALYZE") none 0, .start 0, .start 1, .select 0 0, .rollback 0,
          .claim 0 false true, .commitClaim 0]).candidate (backupWorkers 1) 0 = none := by
      decide +kernel
    exact absurd (hNone.symm.trans hRow) (by simp)

/-- Both workers fetch the command before either of them claims it. -/
theorem command_executed_twice :
    let q := runEvents (Queue.step backupWorkers) {}
      [.insert (octets "VACUUM_ANALYZE") none 0, .start 0, .start 1, .select 0 0, .rollback 0,
        .select 1 0, .rollback 1, .claim 0 false true, .commitClaim 0, .claim 1 false true,
        .commitClaim 1, .execute 0, .execute 1]
    q.executed = [(0, 0), (1, 0)] ∧ ¬ q.ExecutedOnce := by
  have hExecuted : (runEvents (Queue.step backupWorkers) {}
      [.insert (octets "VACUUM_ANALYZE") none 0, .start 0, .start 1, .select 0 0, .rollback 0,
        .select 1 0, .rollback 1, .claim 0 false true, .commitClaim 0, .claim 1 false true,
        .commitClaim 1, .execute 0, .execute 1]).executed = [(0, 0), (1, 0)] := by
    decide +kernel
  refine ⟨hExecuted, fun hOnce => ?_⟩
  rw [Queue.ExecutedOnce, hExecuted] at hOnce
  revert hOnce
  decide

end PageCamel.Worker

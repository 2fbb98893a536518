import PageCamel.Lib.Drain
import PageCamel.Worker.Commands

/-!
The loop of `Worker/Commands.pm`, for one worker without others in between: every pass is a
row of statements of the command queue, and the loop goes on as long as a pass has fetched
something, also when the command stays in the queue as it is.
-/

namespace PageCamel.Worker
open PageCamel.Lib

/-- What a pass meets: the time, whether the worker started less than ten minutes ago, and
whether the `UPDATE` that claims the row succeeds. -/
structure Pass where
  now : Nat
  early : Bool
  ok : Bool
  deriving DecidableEq, Repr

/-- The statements of a pass. Those after a claim that was not made do nothing. -/
def Pass.events (pass : Pass) (p : Nat) : List Event :=
  [.select p pass.now, .rollback p, .claim p pass.early pass.ok, .commitClaim p, .execute p,
    .delete p, .commitDelete p]

/-- The loop of `work`. -/
def Queue.work (workers : Nat → Process) (p : Nat) : Drain Queue Pass CommandRow where
  fetch pass q := q.candidate (workers p) pass.now
  handle pass _ q := some (runEvents (Queue.step workers) q (pass.events p))

/-- Worker `p` is about to begin a pass, and no transaction is open. -/
structure Queue.Quiet (p : Nat) (q : Queue) : Prop where
  idle : q.phase p = .idle
  unlocked : ∀ row ∈ q.rows, row.lockedBy = none
  /-- The primary key. -/
  distinct : (q.rows.map CommandRow.id).Nodup

/-- The rows that the worker may fetch, now or later. -/
def Queue.selectable (w : Process) (q : Queue) : Nat :=
  q.rows.countP fun row => row.command ∈ w.commandlist ∧ row.currentWorker = none

/-- The queue after a command has been executed and deleted. -/
def Queue.done (q : Queue) (w : Process) (p : Nat) (row : CommandRow) : Queue :=
  { q.remove row.id with
    executed := if row.command ∈ w.extcommand then q.executed ++ [(p, row.id)] else q.executed }

/-! ### One pass -/

variable {workers : Nat → Process} {p : Nat} {pass : Pass} {row : CommandRow} {q : Queue}

theorem setPhase_setPhase (q : Queue) (phase phase' : Phase) :
    (q.setPhase p phase).setPhase p phase' = q.setPhase p phase' := by
  refine Queue.ext rfl rfl ?_ rfl
  exact Function.update_idem _ _ _

theorem Queue.Quiet.setPhase_idle (hQuiet : q.Quiet p) : q.setPhase p .idle = q := by
  refine Queue.ext rfl rfl ?_ rfl
  rw [← hQuiet.idle]
  exact Function.update_eq_self p q.phase

/-- Nothing is left of a lock. -/
theorem unlock_lock (hUnlocked : ∀ row ∈ q.rows, row.lockedBy = none) (p id : Nat) :
    (q.lock p id).unlock p = q := by
  refine Queue.ext ?_ rfl rfl rfl
  refine (List.map_map ..).trans ((List.map_congr_left fun row hRow => ?_).trans (List.map_id _))
  have hFree := hUnlocked row hRow
  cases row
  cases hFree
  rw [Function.comp_apply]
  split <;> simp

theorem waits_of_unlocked (hUnlocked : ∀ row ∈ q.rows, row.lockedBy = none) (p id : Nat) :
    q.waits p id = false := by
  refine List.any_eq_false.mpr fun row hRow => ?_
  simp [hUnlocked row hRow]

theorem unlocked_mark (hUnlocked : ∀ row ∈ q.rows, row.lockedBy = none) (id : Nat) (name : Octets) :
    ∀ row ∈ (q.mark id name).rows, row.lockedBy = none := by
  intro row hRow
  obtain ⟨old, hOld, rfl⟩ := List.mem_map.mp hRow
  split
  · exact hUnlocked old hOld
  · exact hUnlocked old hOld

theorem mark_lock (q : Queue) (p id : Nat) (name : Octets) :
    (q.lock p id).mark id name = (q.mark id name).lock p id := by
  refine Queue.ext ?_ rfl rfl rfl
  refine (List.map_map ..).trans (Eq.trans (List.map_congr_left fun row _ => ?_) (List.map_map ..).symm)
  rw [Function.comp_apply, Function.comp_apply]
  by_cases hId : row.id = id
  · simp [hId]
  · simp [hId]

theorem remove_mark (q : Queue) (id : Nat) (name : Octets) :
    (q.mark id name).remove id = q.remove id := by
  refine Queue.ext ?_ rfl rfl rfl
  show List.filter _ (List.map _ q.rows) = List.filter _ q.rows
  induction q.rows with
  | nil => rfl
  | cons row rows ih =>
      by_cases hId : row.id = id
      · simp [hId] at ih ⊢
        exact ih
      · simp [hId] at ih ⊢
        exact ih

/-- What the first statements of a pass come to. -/
theorem run_fetched (hQuiet : q.Quiet p) (hRow : q.candidate (workers p) pass.now = some row) :
    runEvents (Queue.step workers) q [.select p pass.now, .rollback p] =
      q.setPhase p (.fetched row) := by
  have hMem := firstRow_mem hRow
  rw [List.mem_filter, decide_eq_true_eq] at hMem
  have hList : (workers p).commandlist ≠ [] := List.ne_nil_of_mem hMem.2.2.1
  have hSelect : q.step workers (.select p pass.now) =
      (q.lock p row.id).setPhase p (.selected (some row)) := by
    rw [Queue.step, if_neg (by simp [hQuiet.idle, hList]), hRow]
    exact if_neg (not_not.mpr (hQuiet.unlocked row hMem.1))
  show (q.step workers (.select p pass.now)).step workers (.rollback p) = _
  rw [hSelect, Queue.step, phase_setPhase_self]
  show (((q.lock p row.id).unlock p).setPhase p _).setPhase p _ = _
  rw [unlock_lock hQuiet.unlocked, setPhase_setPhase]

/-- A command that is put off or cannot be claimed is left as it was. -/
theorem run_left (hQuiet : q.Quiet p) (hLeft : postponed pass.early row = true ∨ pass.ok = false) :
    runEvents (Queue.step workers) (q.setPhase p (.fetched row))
      [.claim p pass.early pass.ok, .commitClaim p, .execute p, .delete p, .commitDelete p] = q := by
  have hClaim : (q.setPhase p (.fetched row)).step workers (.claim p pass.early pass.ok) = q := by
    rw [Queue.step, phase_setPhase_self]
    dsimp only
    rw [if_pos hLeft, setPhase_setPhase, hQuiet.setPhase_idle]
  show ((((Queue.step workers _ _).step workers (.commitClaim p)).step workers (.execute p)).step workers
    (.delete p)).step workers (.commitDelete p) = q
  rw [hClaim]
  simp [Queue.step, hQuiet.idle]

theorem unlock_remove (q : Queue) (p id : Nat) :
    (q.remove id).unlock p = (q.unlock p).remove id := by
  refine Queue.ext ?_ rfl rfl rfl
  show List.map _ (List.filter _ q.rows) = List.filter _ (List.map _ q.rows)
  rw [List.filter_map]
  congr 1
  refine List.filter_congr fun row _ => ?_
  rw [Function.comp_apply]
  split <;> rfl

/-- The claimed command has been executed, if a module is there for it. -/
def Queue.ran (q : Queue) (w : Process) (p : Nat) (row : CommandRow) : Queue :=
  { q.mark row.id w.name with executed := (q.done w p row).executed }

theorem step_claim (hQuiet : q.Quiet p)
    (hClaim : ¬ (postponed pass.early row = true ∨ pass.ok = false)) :
    (q.setPhase p (.fetched row)).step workers (.claim p pass.early pass.ok) =
      (q.lock p row.id).setPhase p (.claiming row) := by
  rw [Queue.step, phase_setPhase_self]
  dsimp only
  rw [if_neg hClaim]
  show (if q.waits p row.id = true then _ else ((q.lock p row.id).setPhase p _).setPhase p _) = _
  rw [waits_of_unlocked hQuiet.unlocked, if_neg Bool.false_ne_true, setPhase_setPhase]

theorem step_commitClaim (hQuiet : q.Quiet p) :
    ((q.lock p row.id).setPhase p (.claiming row)).step workers (.commitClaim p) =
      (q.mark row.id (workers p).name).setPhase p (.claimed row) := by
  rw [Queue.step, phase_setPhase_self]
  show ((((q.lock p row.id).mark row.id (workers p).name).unlock p).setPhase p _).setPhase p _ = _
  rw [mark_lock, unlock_lock (unlocked_mark hQuiet.unlocked _ _), setPhase_setPhase]

theorem step_execute : ((q.mark row.id (workers p).name).setPhase p (.claimed row)).step workers
    (.execute p) = (q.ran (workers p) p row).setPhase p (.executed row) := by
  rw [Queue.step, phase_setPhase_self, Queue.ran, Queue.done]
  dsimp only
  rw [setPhase_setPhase]
  split <;> rfl

theorem unlocked_ran (hQuiet : q.Quiet p) :
    ∀ other ∈ (q.ran (workers p) p row).rows, other.lockedBy = none :=
  unlocked_mark hQuiet.unlocked row.id (workers p).name

theorem step_delete (hQuiet : q.Quiet p) :
    ((q.ran (workers p) p row).setPhase p (.executed row)).step workers (.delete p) =
      ((q.ran (workers p) p row).lock p row.id).setPhase p (.deleting row) := by
  rw [Queue.step, phase_setPhase_self]
  show (if (q.ran (workers p) p row).waits p row.id = true then _ else
    (((q.ran (workers p) p row).lock p row.id).setPhase p _).setPhase p _) = _
  rw [waits_of_unlocked (unlocked_ran hQuiet), if_neg Bool.false_ne_true, setPhase_setPhase]

theorem step_commitDelete (hQuiet : q.Quiet p) :
    (((q.ran (workers p) p row).lock p row.id).setPhase p (.deleting row)).step workers
      (.commitDelete p) = q.done (workers p) p row := by
  rw [Queue.step, phase_setPhase_self]
  show (((((q.ran (workers p) p row).lock p row.id).remove row.id).unlock p).setPhase p _).setPhase p _ = _
  rw [setPhase_setPhase, unlock_remove, unlock_lock (unlocked_ran hQuiet)]
  have hRows := congrArg Queue.rows (remove_mark q row.id (workers p).name)
  have hPhase := congrArg Queue.phase hQuiet.setPhase_idle
  exact Queue.ext hRows rfl hPhase rfl

/-- Any other command is executed and deleted. -/
theorem run_done (hQuiet : q.Quiet p) (hClaim : ¬ (postponed pass.early row = true ∨ pass.ok = false)) :
    runEvents (Queue.step workers) (q.setPhase p (.fetched row))
      [.claim p pass.early pass.ok, .commitClaim p, .execute p, .delete p, .commitDelete p] =
        q.done (workers p) p row := by
  show ((((Queue.step workers _ _).step workers (.commitClaim p)).step workers (.execute p)).step workers
    (.delete p)).step workers (.commitDelete p) = _
  rw [step_claim hQuiet hClaim, step_commitClaim hQuiet, step_execute, step_delete hQuiet,
    step_commitDelete hQuiet]

theorem pass_spec (hQuiet : q.Quiet p) (hRow : q.candidate (workers p) pass.now = some row) :
    runEvents (Queue.step workers) q (pass.events p) =
      if postponed pass.early row = true ∨ pass.ok = false then q else q.done (workers p) p row := by
  have hFetched := run_fetched hQuiet hRow
  rw [show pass.events p = [.select p pass.now, .rollback p] ++ [.claim p pass.early pass.ok,
    .commitClaim p, .execute p, .delete p, .commitDelete p] from rfl, runEvents_append, hFetched]
  split
  · next hLeft => exact run_left hQuiet hLeft
  · next hClaim => exact run_done hQuiet hClaim

/-! ### The loop -/

/-- The command is claimed or gone after the pass. -/
def TakenOut (workers : Nat → Process) (p : Nat) (pass : Pass) (row : CommandRow) (q : Queue) : Prop :=
  ∀ other ∈ (runEvents (Queue.step workers) q (pass.events p)).rows, other.id = row.id →
    other.currentWorker ≠ none

/-- The command is not put off, and its claim succeeds. -/
def Claimable (pass : Pass) (row : CommandRow) (_ : Queue) : Prop :=
  postponed pass.early row = false ∧ pass.ok = true

theorem takenOut_iff (hQuiet : q.Quiet p) (hRow : q.candidate (workers p) pass.now = some row) :
    TakenOut workers p pass row q ↔ Claimable pass row q := by
  obtain ⟨hMem, hFree⟩ := candidate_free hRow
  rw [TakenOut, Claimable, pass_spec hQuiet hRow]
  constructor
  · intro hTaken
    by_contra hLeft
    rw [not_and_or, Bool.not_eq_false, Bool.not_eq_true] at hLeft
    rw [if_pos hLeft] at hTaken
    exact hTaken row hMem rfl hFree
  · rintro ⟨hNow, hOk⟩ other hOther hId
    rw [if_neg (by simp [hNow, hOk])] at hOther
    exact absurd hId (by simpa using List.of_mem_filter hOther)

theorem quiet_done (hQuiet : q.Quiet p) : (q.done (workers p) p row).Quiet p where
  idle := hQuiet.idle
  unlocked := fun other hOther => hQuiet.unlocked other (List.mem_of_mem_filter hOther)
  distinct := hQuiet.distinct.sublist (List.filter_sublist.map _)

theorem quiet_pass (hQuiet : q.Quiet p) (hRow : q.candidate (workers p) pass.now = some row) :
    (runEvents (Queue.step workers) q (pass.events p)).Quiet p := by
  rw [pass_spec hQuiet hRow]
  split
  · exact hQuiet
  · exact quiet_done hQuiet

theorem firstRow_eq_none {rows : List CommandRow} : firstRow rows = none ↔ rows = [] := by
  cases rows with
  | nil => exact ⟨fun _ => rfl, fun _ => rfl⟩
  | cons row rows =>
      refine iff_of_false (fun hNone => ?_) (List.cons_ne_nil row rows)
      rw [firstRow] at hNone
      split at hNone
      · cases hNone
      · split at hNone
        · cases hNone
        · cases hNone

theorem selectable_done_lt {now : Nat} (hRow : q.candidate (workers p) now = some row) :
    (q.done (workers p) p row).selectable (workers p) < q.selectable (workers p) := by
  have hMem := firstRow_mem hRow
  rw [List.mem_filter, decide_eq_true_eq] at hMem
  exact countP_filter_lt hMem.1 (decide_eq_true hMem.2.2) (decide_eq_false (not_not.mpr rfl))

/-- The commands of a queue are still there, or they have been executed. -/
def Queue.Handled (q₀ : Queue) (w : Process) (p : Nat) (q : Queue) : Prop :=
  ∀ row ∈ q₀.rows, row.command ∈ w.extcommand → row ∈ q.rows ∨ (p, row.id) ∈ q.executed

theorem handled_pass {q₀ : Queue} (hHandled : q₀.Handled (workers p) p q) (hQuiet : q.Quiet p)
    (hRow : q.candidate (workers p) pass.now = some row) :
    q₀.Handled (workers p) p (runEvents (Queue.step workers) q (pass.events p)) := by
  rw [pass_spec hQuiet hRow]
  split
  · exact hHandled
  · intro other hOther hModule
    rw [Queue.done]
    rcases hHandled other hOther hModule with hThere | hExecuted
    · by_cases hId : other.id = row.id
      · obtain rfl := List.inj_on_of_nodup_map hQuiet.distinct hThere (candidate_free hRow).1 hId
        rw [if_pos hModule]
        exact .inr (List.mem_append_right _ List.mem_cons_self)
      · exact .inl (List.mem_filter.mpr ⟨hThere, decide_eq_true hId⟩)
    · right
      dsimp only
      split
      · exact List.mem_append_left _ hExecuted
      · exact hExecuted

/-- Every pass takes out what it has fetched, and so the loop ends and no command is kept
waiting, just when no command is put off and every claim succeeds. -/
theorem work_takes_out_iff (workers : Nat → Process) (p : Nat) (passes : Nat → Pass) (q : Queue)
    (hQuiet : q.Quiet p) :
    ((Queue.work workers p).Always passes q (TakenOut workers p) ∧
      ∃ n last, n ≤ q.selectable (workers p) ∧ (Queue.work workers p).Ends passes q n last ∧
        ∀ row ∈ q.rows, row.command ∈ (workers p).extcommand → row.currentWorker = none →
          row.starttime ≤ (passes n).now → (p, row.id) ∈ last.executed) ↔
      (Queue.work workers p).Always passes q Claimable := by
  have hRun : ∀ k s, (Queue.work workers p).before passes q k = some s →
      s.Quiet p ∧ q.Handled (workers p) p s := by
    have hStart : q.Quiet p ∧ q.Handled (workers p) p q := ⟨hQuiet, fun row hRow _ => .inl hRow⟩
    refine Drain.before_invariant hStart ?_
    rintro k row s _ ⟨hQuiet, hHandled⟩ hFetch ⟨⟩
    exact ⟨quiet_pass hQuiet hFetch, handled_pass hHandled hQuiet hFetch⟩
  have hStep : (Queue.work workers p).Always passes q (TakenOut workers p) ↔
      (Queue.work workers p).Always passes q Claimable :=
    Drain.Always.congr fun k s row hBefore hFetch => takenOut_iff (hRun k s hBefore).1 hFetch
  rw [hStep]
  refine and_iff_left_of_imp fun hClaimable => ?_
  have hLess : (Queue.work workers p).Always passes q fun pass _ s =>
      ∃ s', some (runEvents (Queue.step workers) s (pass.events p)) = some s' ∧
        s'.selectable (workers p) < s.selectable (workers p) := by
    intro k s row hBefore hFetch
    obtain ⟨hNow, hOk⟩ := hClaimable k s row hBefore hFetch
    refine ⟨_, rfl, ?_⟩
    rw [pass_spec (hRun k s hBefore).1 hFetch, if_neg (by simp [hNow, hOk])]
    exact selectable_done_lt hFetch
  obtain ⟨n, last, hn, hBefore, hEnd⟩ := Drain.exists_ends (Queue.selectable (workers p)) hLess
  refine ⟨n, last, hn, ⟨hBefore, hEnd⟩, fun row hRow hModule hFree hStart => ?_⟩
  refine ((hRun n last hBefore).2 row hRow hModule).resolve_left fun hThere => ?_
  have hNone := List.filter_eq_nil_iff.mp (firstRow_eq_none.mp hEnd) row hThere
  have hList : row.command ∈ (workers p).commandlist := by
    rw [Process.commandlist, if_neg (List.ne_nil_of_mem hModule)]
    exact List.mem_append_left _ hModule
  exact hNone (decide_eq_true ⟨hStart, hList, hFree⟩)

/-- A backup before another command. -/
def backupFirst : Queue where
  rows := [{ id := 0, command := octets "BACKUP", arguments := some [octets "daily"] },
    { id := 1, command := octets "VACUUM_ANALYZE" }]
  nextId := 2
  phase _ := .idle

def bothCommands (_ : Nat) : Process := ⟨octets "worker", [octets "BACKUP", octets "VACUUM_ANALYZE"]⟩

theorem quiet_backupFirst : backupFirst.Quiet 0 := ⟨rfl, by decide, by decide⟩

/-- Ten minutes after the start of the worker. -/
theorem work_takes_out_late :
    (Queue.work bothCommands 0).Always (fun _ => ⟨0, false, true⟩) backupFirst
        (TakenOut bothCommands 0) ∧
      ∃ n last, n ≤ backupFirst.selectable (bothCommands 0) ∧
        (Queue.work bothCommands 0).Ends (fun _ => ⟨0, false, true⟩) backupFirst n last ∧
        ∀ row ∈ backupFirst.rows, row.command ∈ (bothCommands 0).extcommand →
          row.currentWorker = none → row.starttime ≤ 0 → (0, row.id) ∈ last.executed :=
  (work_takes_out_iff bothCommands 0 (fun _ => ⟨0, false, true⟩) backupFirst quiet_backupFirst).mpr
    fun _ _ _ _ _ => ⟨rfl, rfl⟩

/-- As long as the first command is put off every pass fetches it again. -/
theorem before_postponed {passes : Nat → Pass} (hQuiet : q.Quiet p)
    (hRow : ∀ k, q.candidate (workers p) (passes k).now = some row)
    (hLeft : ∀ k, postponed (passes k).early row = true) (k : Nat) :
    (Queue.work workers p).before passes q k = some q := by
  induction k with
  | zero => rfl
  | succ k ih =>
      rw [Drain.before_add_one ih (hRow k)]
      show some (runEvents _ q _) = some q
      rw [pass_spec hQuiet (hRow k), if_pos (.inl (hLeft k))]

/-- In the first ten minutes the backup is fetched over and over, and the other command is not
executed. -/
theorem not_takes_out_early :
    ¬ (∃ n last, (Queue.work bothCommands 0).Ends (fun _ => ⟨0, true, true⟩) backupFirst n last) ∧
      ∀ n last, (Queue.work bothCommands 0).before (fun _ => ⟨0, true, true⟩) backupFirst n =
        some last → (0, 1) ∉ last.executed := by
  have hRow : backupFirst.candidate (bothCommands 0) 0 =
      some { id := 0, command := octets "BACKUP", arguments := some [octets "daily"] } := by
    decide +kernel
  have hStays : ∀ n, (Queue.work bothCommands 0).before (fun _ => ⟨0, true, true⟩) backupFirst n =
      some backupFirst :=
    before_postponed quiet_backupFirst (fun _ => hRow) (fun _ => by decide +kernel)
  constructor
  · rintro ⟨n, last, hBefore, hEnd⟩
    cases (hStays n).symm.trans hBefore
    cases hRow.symm.trans hEnd
  · intro n last hBefore
    cases (hStays n).symm.trans hBefore
    exact List.not_mem_nil

end PageCamel.Worker

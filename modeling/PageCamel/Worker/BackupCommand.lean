import PageCamel.Lib.Octets
import PageCamel.Lib.Runs

/-!
The command `BACKUP` (`Worker/BackupCommand.pm`): a dump into a directory, the removal of old
files there and in a second directory, and a copy to the latter. The first directory is
cleaned whether the dump has succeeded or not.
-/

namespace PageCamel.Worker
open PageCamel.Lib

/-! ### Files -/

structure BackupFile where
  name : Octets
  /-- A whole dump, or a copy of one. -/
  complete : Bool
  mtime : Int
  size : Nat
  /-- The test `-f`. -/
  regular : Bool := true
  deriving DecidableEq, Repr

/-- The contents of `backup_directory` and of `external_backup_directory`, two different ones. -/
structure BackupDirs where
  main : List BackupFile
  external : List BackupFile
  deriving DecidableEq, Repr

/-- A file is written, over one of the same name if there is one. -/
def writeFile (file : BackupFile) (files : List BackupFile) : List BackupFile :=
  files.filter (·.name ≠ file.name) ++ [file]

/-- What the cleaning of a directory meets: the time, whether the directory can be opened, and
which files can be removed. -/
structure Scan where
  now : Int
  readable : Bool
  unlinks : Octets → Bool

structure Cleaned where
  ok : Bool
  deleted : List BackupFile
  files : List BackupFile
  deriving DecidableEq, Repr

/-- Older than the maximum, in days. -/
def tooOld (maxagedays : Nat) (now : Int) (file : BackupFile) : Bool :=
  file.regular && decide ((maxagedays * 3600 * 24 : Int) < now - file.mtime)

def dircleaner (maxagedays : Nat) (scan : Scan) (files : List BackupFile) : Cleaned :=
  if scan.readable then
    let todelete := files.filter (tooOld maxagedays scan.now)
    { ok := todelete.all fun file => scan.unlinks file.name
      deleted := todelete.filter fun file => scan.unlinks file.name
      files := files.filter fun file => !(tooOld maxagedays scan.now file && scan.unlinks file.name) }
  else { ok := false, deleted := [], files }

/-! ### The copy -/

inductive Copied where
  | done
  /-- The copy broke off. -/
  | broken
  | notOpened
  deriving DecidableEq, Repr

/-- What the copy meets: whether both directories are there, the calendar, and how it goes with
each file. -/
structure Sync where
  directories : Bool
  today : Int
  localday : Int → Int
  now : Int
  copy : Octets → Copied

/-- A file is copied if it is young enough and its copy is missing, older or of another size. -/
def needsCopy (maxage : Nat) (sync : Sync) (dest : List BackupFile) (file : BackupFile) : Bool :=
  file.name.head? ≠ some 0x2e && file.regular &&
    !(decide (0 < maxage) && decide ((maxage : Int) < sync.today - sync.localday file.mtime)) &&
    match dest.find? fun copy => copy.regular && copy.name = file.name with
    | none => true
    | some copy => decide (copy.mtime < file.mtime) || file.size ≠ copy.size

def copyFile (sync : Sync) (dest : List BackupFile) (file : BackupFile) : List BackupFile :=
  match sync.copy file.name with
  | .done => writeFile { file with mtime := sync.now } dest
  | .broken => writeFile { file with mtime := sync.now, complete := false } dest
  | .notOpened => dest

def dirsync (maxage : Nat) (sync : Sync) (dirs : BackupDirs) : Bool × BackupDirs :=
  if sync.directories then
    let files := dirs.main.filter (needsCopy maxage sync dirs.external)
    (files.all fun file => sync.copy file.name = .done,
      { dirs with external := files.foldl (copyFile sync) dirs.external })
  else (false, dirs)

/-! ### The command -/

/-- What `pg_dump` leaves behind. -/
inductive Dump where
  | complete (mtime : Int) (size : Nat)
  /-- The dump broke off. -/
  | broken (mtime : Int) (size : Nat)
  | nothing
  deriving DecidableEq, Repr

def Dump.ok : Dump → Bool
  | complete _ _ => true
  | _ => false

def Dump.write (dump : Dump) (name : Octets) (files : List BackupFile) : List BackupFile :=
  match dump with
  | complete mtime size => writeFile { name, complete := true, mtime, size } files
  | broken mtime size => writeFile { name, complete := false, mtime, size } files
  | nothing => files

/-- The second directory of a schedule. -/
structure External where
  maxAgeDays : Nat
  scan : Scan
  sync : Sync

/-- A schedule and what its run meets. The name of the file has the time in it. -/
structure Schedule where
  fname : Octets
  dump : Dump
  maxAgeDays : Nat
  scan : Scan
  /-- None when the field is empty; then the copy counts as done when that can be logged. -/
  external : Option External
  logged : Bool

structure BackupResult where
  ok : Bool
  deleted : List BackupFile
  dirs : BackupDirs
  deriving DecidableEq, Repr

/-- A run of `do_backup`; without a schedule of that name nothing happens. -/
def doBackup (backupdata : Option Schedule) (dirs : BackupDirs) : BackupResult :=
  match backupdata with
  | none => { ok := false, deleted := [], dirs }
  | some schedule =>
      let cleaned := dircleaner schedule.maxAgeDays schedule.scan
        (schedule.dump.write schedule.fname dirs.main)
      let ok := schedule.dump.ok && cleaned.ok
      let dirs := { dirs with main := cleaned.files }
      match schedule.external with
      | none => { ok := ok && schedule.logged, deleted := cleaned.deleted, dirs }
      | some external =>
          if ok then
            let cleaned' := dircleaner external.maxAgeDays external.scan dirs.external
            let dirs := { dirs with external := cleaned'.files }
            if cleaned'.ok then
              let (ok, dirs) := dirsync external.maxAgeDays external.sync dirs
              { ok, deleted := cleaned.deleted ++ cleaned'.deleted, dirs }
            else { ok := false, deleted := cleaned.deleted ++ cleaned'.deleted, dirs }
          else { ok := false, deleted := cleaned.deleted, dirs }

/-- The dump of the run succeeded. -/
def Succeeds (backupdata : Option Schedule) : Prop := ∃ schedule ∈ backupdata, schedule.dump.ok = true

/-- The directories after one more run. -/
def backupStep (dirs : BackupDirs) (backupdata : Option Schedule) : BackupDirs :=
  (doBackup backupdata dirs).dirs

/-! ### What a run removes -/

variable {schedule : Schedule} {dirs : BackupDirs} {backupdata : Option Schedule}

/-- The files that the first cleaning finds. -/
def Schedule.found (schedule : Schedule) (dirs : BackupDirs) : List BackupFile :=
  schedule.dump.write schedule.fname dirs.main

/-- The run removes no files unless its dump has succeeded. -/
def SparesFiles (dirs : BackupDirs) (backupdata : Option Schedule) : Prop :=
  (doBackup backupdata dirs).deleted ≠ [] → Succeeds backupdata

/-- A dump that fails finds no file that is old enough and can be removed. -/
def NothingOld (dirs : BackupDirs) (backupdata : Option Schedule) : Prop :=
  ∀ schedule ∈ backupdata, schedule.dump.ok = false → schedule.scan.readable = true →
    ∀ file ∈ schedule.found dirs, tooOld schedule.maxAgeDays schedule.scan.now file = true →
      schedule.scan.unlinks file.name = false

/-- A dump that succeeds is young when the directory is cleaned, and one that fails does not write
over a whole one. -/
def KeepsNewest (dirs : BackupDirs) (backupdata : Option Schedule) : Prop :=
  ∀ schedule ∈ backupdata, match schedule.dump with
    | .complete mtime _ => schedule.scan.now - mtime ≤ schedule.maxAgeDays * 3600 * 24
    | .broken _ _ => ∀ file ∈ dirs.main, file.complete = true → file.name ≠ schedule.fname
    | .nothing => True

theorem dircleaner_deleted_eq_nil {maxagedays : Nat} {scan : Scan} {files : List BackupFile} :
    (dircleaner maxagedays scan files).deleted = [] ↔ (scan.readable = true →
      ∀ file ∈ files, tooOld maxagedays scan.now file = true → scan.unlinks file.name = false) := by
  rw [dircleaner]
  split
  · next hReadable =>
    rw [forall_prop_of_true hReadable, List.filter_eq_nil_iff]
    constructor
    · intro hNone file hFile hOld
      exact eq_false_of_ne_true (hNone file (List.mem_filter.mpr ⟨hFile, hOld⟩))
    · intro hKept file hFile
      obtain ⟨hFile, hOld⟩ := List.mem_filter.mp hFile
      exact ne_true_of_eq_false (hKept file hFile hOld)
  · next hClosed => exact iff_of_true rfl fun hReadable => absurd hReadable hClosed

/-- The first directory is what its cleaning leaves. -/
theorem doBackup_main (schedule : Schedule) (dirs : BackupDirs) :
    (doBackup (some schedule) dirs).dirs.main =
      (dircleaner schedule.maxAgeDays schedule.scan (schedule.found dirs)).files := by
  rw [doBackup]
  dsimp only
  split
  · rfl
  · split
    · split
      · rw [dirsync]
        split <;> rfl
      · rfl
    · rfl

theorem doBackup_deleted (hFailed : schedule.dump.ok = false) :
    (doBackup (some schedule) dirs).deleted =
      (dircleaner schedule.maxAgeDays schedule.scan (schedule.found dirs)).deleted := by
  rw [doBackup]
  dsimp only
  rw [hFailed, Bool.false_and]
  split <;> rfl

theorem sparesFiles_iff (dirs : BackupDirs) (backupdata : Option Schedule) :
    SparesFiles dirs backupdata ↔ NothingOld dirs backupdata := by
  rw [SparesFiles, NothingOld]
  cases backupdata with
  | none =>
      exact iff_of_true (fun hDeleted => absurd rfl hDeleted)
        fun schedule hNone => absurd hNone (Option.not_mem_none schedule)
  | some schedule =>
      constructor
      · rintro hSpares _ ⟨⟩ hFailed
        refine dircleaner_deleted_eq_nil.mp ?_
        by_contra hDeleted
        rw [← doBackup_deleted hFailed] at hDeleted
        obtain ⟨_, ⟨⟩, hOk⟩ := hSpares hDeleted
        exact absurd hOk (ne_true_of_eq_false hFailed)
      · intro hNothing hDeleted
        refine ⟨schedule, rfl, ?_⟩
        by_contra hFailed
        rw [Bool.not_eq_true] at hFailed
        rw [doBackup_deleted hFailed] at hDeleted
        exact hDeleted (dircleaner_deleted_eq_nil.mpr (hNothing schedule rfl hFailed))

/-! ### What is left -/

/-- There is a complete backup. -/
def HasBackup (dirs : BackupDirs) : Prop := ∃ file ∈ dirs.main, file.complete = true

theorem mem_dircleaner {maxagedays : Nat} {scan : Scan} {files : List BackupFile} {file : BackupFile}
    (hFile : file ∈ files) (hKept : scan.readable = true → tooOld maxagedays scan.now file = true →
      scan.unlinks file.name = false) : file ∈ (dircleaner maxagedays scan files).files := by
  rw [dircleaner]
  split
  · next hReadable =>
    refine List.mem_filter.mpr ⟨hFile, ?_⟩
    cases hOld : tooOld maxagedays scan.now file with
    | false => rfl
    | true => rw [hKept hReadable hOld]; rfl
  · exact hFile

theorem mem_writeFile {file other : BackupFile} {files : List BackupFile} (hOther : other ∈ files)
    (hName : other.name ≠ file.name) : other ∈ writeFile file files :=
  List.mem_append_left _ (List.mem_filter.mpr ⟨hOther, decide_eq_true hName⟩)

/-- A whole dump is still there after a dump that has failed. -/
theorem mem_found {file : BackupFile} (hNewest : KeepsNewest dirs (some schedule))
    (hFailed : schedule.dump.ok = false) (hFile : file ∈ dirs.main) (hComplete : file.complete = true) :
    file ∈ schedule.found dirs := by
  have hName := hNewest schedule rfl
  rw [Schedule.found]
  cases hDump : schedule.dump with
  | complete mtime size =>
      rw [hDump] at hFailed
      cases hFailed
  | broken mtime size =>
      rw [hDump] at hName
      exact mem_writeFile hFile (hName file hFile hComplete)
  | nothing => exact hFile

theorem hasBackup_step (hNothing : NothingOld dirs backupdata) (hNewest : KeepsNewest dirs backupdata)
    (hBefore : HasBackup dirs ∨ Succeeds backupdata) : HasBackup (backupStep dirs backupdata) := by
  cases backupdata with
  | none =>
      refine hBefore.resolve_right ?_
      rintro ⟨_, ⟨⟩, _⟩
  | some schedule =>
      rw [HasBackup, backupStep, doBackup_main]
      cases hOk : schedule.dump.ok with
      | true =>
          have hYoung := hNewest schedule rfl
          rw [Schedule.found]
          cases hDump : schedule.dump with
          | complete mtime size =>
              rw [hDump] at hYoung
              refine ⟨⟨schedule.fname, true, mtime, size, true⟩, ?_, rfl⟩
              refine mem_dircleaner (List.mem_append_right _ List.mem_cons_self) fun _ hOld => ?_
              rw [tooOld, Bool.and_eq_true, decide_eq_true_eq] at hOld
              exact absurd hYoung (not_le_of_gt hOld.2)
          | broken _ _ | nothing =>
              rw [hDump] at hOk
              cases hOk
      | false =>
          have hFailed : ¬ Succeeds (some schedule) := by
            rintro ⟨_, ⟨⟩, hSome⟩
            exact absurd hSome (ne_true_of_eq_false hOk)
          obtain ⟨file, hFile, hComplete⟩ := hBefore.resolve_right hFailed
          have hFound := mem_found hNewest hOk hFile hComplete
          refine ⟨file, mem_dircleaner hFound fun hReadable => ?_, hComplete⟩
          exact hNothing schedule rfl hOk hReadable file hFound

theorem hasBackup_run {runs : List (Option Schedule)} (hNothing : Meets backupStep NothingOld dirs runs)
    (hNewest : Meets backupStep KeepsNewest dirs runs)
    (hBefore : HasBackup dirs ∨ ∃ run ∈ runs, Succeeds run) :
    HasBackup (runEvents backupStep dirs runs) := by
  induction runs generalizing dirs with
  | nil => exact hBefore.resolve_right fun ⟨_, hRun, _⟩ => List.not_mem_nil hRun
  | cons run runs ih =>
      refine ih hNothing.2 hNewest.2 ?_
      rw [List.exists_mem_cons_iff, ← or_assoc] at hBefore
      exact hBefore.imp_left (hasBackup_step hNothing.1 hNewest.1)

/-- Runs spare the files just when dumps that fail find nothing old; then there is always a
complete backup after the first dump that has succeeded, if the newest files are kept. -/
theorem backups_kept (dirs : BackupDirs) (runs : List (Option Schedule)) :
    (Meets backupStep SparesFiles dirs runs ↔ Meets backupStep NothingOld dirs runs) ∧
      (Meets backupStep NothingOld dirs runs → Meets backupStep KeepsNewest dirs runs →
        ∀ seen, seen <+: runs → (∃ run ∈ seen, Succeeds run) →
          HasBackup (runEvents backupStep dirs seen)) := by
  constructor
  · constructor
    · exact Meets.mono fun dirs run => (sparesFiles_iff dirs run).mp
    · exact Meets.mono fun dirs run => (sparesFiles_iff dirs run).mpr
  · rintro hNothing hNewest seen ⟨rest, rfl⟩ hSome
    exact hasBackup_run hNothing.of_append.1 hNewest.of_append.1 (.inr hSome)

/-- A run that keeps files for seven days. -/
def weekly (fname : Octets) (dump : Dump) (now : Int) : Option Schedule :=
  some ⟨fname, dump, 7, ⟨now, true, fun _ => true⟩, none, true⟩

/-- The dump of the second run fails, eight days after the first one, and the only backup is
removed. -/
theorem not_backups_kept :
    ¬ Meets backupStep SparesFiles ⟨[], []⟩
        [weekly [1] (.complete 0 5) 0, weekly [2] .nothing (8 * 3600 * 24)] ∧
      ¬ HasBackup (runEvents backupStep ⟨[], []⟩
        [weekly [1] (.complete 0 5) 0, weekly [2] .nothing (8 * 3600 * 24)]) := by
  constructor
  · intro hMeets
    have hSpares : SparesFiles (backupStep ⟨[], []⟩ (weekly [1] (.complete 0 5) 0))
        (weekly [2] .nothing (8 * 3600 * 24)) := hMeets.2.1
    obtain ⟨_, ⟨⟩, hOk⟩ := hSpares (by decide)
    cases hOk
  · rintro ⟨file, hFile, _⟩
    have hNone : (runEvents backupStep ⟨[], []⟩
        [weekly [1] (.complete 0 5) 0, weekly [2] .nothing (8 * 3600 * 24)]).main = [] := by decide
    rw [hNone] at hFile
    exact List.not_mem_nil hFile

end PageCamel.Worker

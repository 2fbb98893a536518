import PageCamel.Lib.Passes
import PageCamel.Lib.PerlSort
import Mathlib.Data.List.AList
import Mathlib.Data.List.Induction
import Mathlib.Data.Nat.Digits.Defs

/-!
The command `DYNAMICEXTERNALFILES_UPDATE_DATABASE` (`Worker/DynamicFiles/External.pm`): a directory
is scanned, and the rows of its module are deleted, inserted and updated to match the files.
-/

namespace PageCamel.Worker.DynamicFiles
open PageCamel.Lib

abbrev Text := List Char

/-! ### Scanning -/

mutual

/-- What stands under a name of a directory. -/
inductive Node where
  | file (size : Nat) (mtime : Int)
  /-- `opened` says whether `opendir` succeeds. -/
  | dir (opened : Bool) (entries : Entries)
  /-- Neither a directory nor a regular file. -/
  | other

/-- A directory in the order of `readdir`, without `.` and `..`. -/
inductive Entries where
  | nil
  | cons (fname : Text) (node : Node) (rest : Entries)

end

structure FileStats where
  basename : Text
  size : Text
  virtdir : Text
  fullname : Text
  lastmodified : Text
  etag : Text
  deriving DecidableEq, Repr

/-- What the system and Digest::SHA1 compute. -/
structure Host where
  ctime : Int → Text
  sha1Hex : Text → Text

abbrev Files := AList fun _ : Text => FileStats

/-- `-s` of an empty file is the empty string. -/
def sizeText (size : Nat) : Text := if size = 0 then [] else Nat.toDigits 10 size

section Scan
variable (host : Host)

def filestats (realdir virtdir fname : Text) (size : Nat) (mtime : Int) : FileStats :=
  let fullname := realdir ++ '/' :: fname
  { basename := fname
    size := sizeText size
    virtdir := virtdir
    fullname := fullname
    lastmodified := host.ctime mtime
    etag := host.sha1Hex (fullname ++ sizeText size ++ host.ctime mtime) }

/-- The loop of `find_files` over one directory, as far as it puts files into `%files`. -/
def scanFiles (realdir virtdir : Text) : Entries → Files → Files
  | .nil, files => files
  | .cons fname (.file size mtime) rest, files =>
      scanFiles realdir virtdir rest
        (files.insert (virtdir ++ fname) (filestats host realdir virtdir fname size mtime))
  | .cons _ _ rest, files => scanFiles realdir virtdir rest files

/-- `@files{keys %newfiles} = values %newfiles` -/
def merge (files newfiles : Files) : Files :=
  newfiles.entries.foldl (fun files entry => files.insert entry.1 entry.2) files

/-- The results of the subdirectories, in the order of their full names. -/
def mergeSorted (files : Files) (dirs : AList fun _ : Text => Files) : Files :=
  (sorted dirs.keys).foldl (fun files fullname => merge files ((dirs.lookup fullname).getD ∅)) files

mutual

def findFiles (realdir virtdir : Text) : Node → Option Files
  | .dir true entries =>
      (scanDirs realdir virtdir entries ∅).map
        (mergeSorted (scanFiles host realdir virtdir entries ∅))
  | _ => none

/-- The subdirectories that the loop puts into `%dirs`, each with what is found there. -/
def scanDirs (realdir virtdir : Text) :
    Entries → (AList fun _ : Text => Files) → Option (AList fun _ : Text => Files)
  | .nil, dirs => some dirs
  | .cons fname node rest, dirs =>
      match node with
      | .dir _ _ =>
          (findFiles (realdir ++ '/' :: fname) (virtdir ++ fname ++ ['/']) node).bind fun newfiles =>
            scanDirs realdir virtdir rest (dirs.insert (realdir ++ '/' :: fname) newfiles)
      | _ => scanDirs realdir virtdir rest dirs

end

end Scan

/-! ### The table -/

structure Row where
  module : Text
  filename : Text
  basepath : Text
  basefilename : Text
  realfilename : Text
  etag : Text
  datalength : Text
  lastmodified : Text
  isLazymetadata : Text
  deriving DecidableEq, Repr

/-- `module = ? AND filename = ?` -/
def Row.isFor (dbmodule fname : Text) (row : Row) : Bool :=
  row.module = dbmodule && row.filename = fname

def deleteRows (dbmodule fname : Text) (table : List Row) : List Row :=
  table.filter fun row => !row.isFor dbmodule fname

def newRow (dbmodule lazymetadata fname : Text) (file : FileStats) : Row where
  module := dbmodule
  filename := fname
  basepath := file.virtdir
  basefilename := file.basename
  realfilename := file.fullname
  etag := file.etag
  datalength := file.size
  lastmodified := file.lastmodified
  isLazymetadata := lazymetadata

def Row.updated (lazymetadata : Text) (file : FileStats) (row : Row) : Row :=
  { row with
    etag := file.etag
    datalength := file.size
    lastmodified := file.lastmodified
    isLazymetadata := lazymetadata
    realfilename := file.fullname }

def updateRows (dbmodule lazymetadata fname : Text) (file : FileStats) (table : List Row) :
    List Row :=
  table.map fun row => if row.isFor dbmodule fname then row.updated lazymetadata file else row

abbrev Blobs := AList fun _ : Text => Row

/-- Of several rows for one name the last one stays. -/
def readBlobs (dbmodule : Text) (table : List Row) : Blobs :=
  (table.filter fun row => row.module = dbmodule).foldl
    (fun blobs blob => blobs.insert blob.filename blob) ∅

/-! ### The passes -/

section Passes
variable (dbmodule lazymetadata : Text)

def deleteStale (files : Files) (s : List Row × Blobs) (fname : Text) : List Row × Blobs :=
  if fname ∈ files then s else (deleteRows dbmodule fname s.1, s.2.erase fname)

def insertNew (blobs : Blobs) (s : List Row × Files) (fname : Text) : List Row × Files :=
  if fname ∈ blobs then s
  else
    match s.2.lookup fname with
    | some file => (s.1 ++ [newRow dbmodule lazymetadata fname file], s.2.erase fname)
    | none => s

/-- Only these two columns are compared. -/
def isSame (blob : Row) (file : FileStats) : Bool :=
  blob.etag = file.etag && blob.realfilename = file.fullname

def updateChanged (blobs : Blobs) (s : List Row × Files) (fname : Text) : List Row × Files :=
  match blobs.lookup fname, s.2.lookup fname with
  | some blob, some file =>
      if isSame blob file then s
      else (updateRows dbmodule lazymetadata fname file s.1, s.2.erase fname)
  | _, _ => s

def reconcile (filesdontchange : Bool) (table : List Row) (files : Files) : List Row :=
  let blobs := readBlobs dbmodule table
  let (table, blobs) := (sorted blobs.keys).foldl (deleteStale dbmodule files) (table, blobs)
  let (table, files) :=
    (sorted files.keys).foldl (insertNew dbmodule lazymetadata blobs) (table, files)
  if filesdontchange then table
  else ((sorted files.keys).foldl (updateChanged dbmodule lazymetadata blobs) (table, files)).1

end Passes

/-- `$arguments`, the last two with their defaults. Nothing is left of a scan that dies. -/
def updateDatabase (host : Host) (dbmodule localdir : Text) (filesdontchange : Option Bool)
    (lazymetadata : Option Text) (root : Node) (table : List Row) : Option (List Row) :=
  (findFiles host localdir ['/'] root).map fun files =>
    reconcile dbmodule (lazymetadata.getD ['0']) (filesdontchange.getD false) table files

/-! ### The rows for one name -/

def rows (dbmodule fname : Text) (table : List Row) : List Row :=
  table.filter (Row.isFor dbmodule fname)

def otherModules (dbmodule : Text) (table : List Row) : List Row :=
  table.filter fun row => row.module ≠ dbmodule

section Rows
variable {dbmodule lazymetadata fname other : Text} {file : FileStats} {table : List Row}

theorem isFor_iff {row : Row} :
    row.isFor dbmodule fname = true ↔ row.module = dbmodule ∧ row.filename = fname := by
  simp [Row.isFor]

theorem rows_deleteRows : rows dbmodule fname (deleteRows dbmodule fname table) = [] := by
  rw [rows, deleteRows, List.filter_filter, List.filter_eq_nil_iff]
  intro row _ hBoth
  simp at hBoth

theorem rows_deleteRows_ne (hOther : other ≠ fname) :
    rows dbmodule other (deleteRows dbmodule fname table) = rows dbmodule other table := by
  rw [rows, deleteRows, List.filter_filter]
  refine List.filter_congr fun row _ => ?_
  cases hFor : row.isFor dbmodule other with
  | false => rfl
  | true =>
    have hNot : row.isFor dbmodule fname = false := by
      by_contra hSame
      exact hOther ((isFor_iff.mp hFor).2.symm.trans (isFor_iff.mp (eq_true_of_ne_false hSame)).2)
    rw [hNot]
    rfl

theorem rows_append (row : Row) :
    rows dbmodule fname (table ++ [row]) =
      rows dbmodule fname table ++ if row.isFor dbmodule fname then [row] else [] := by
  rw [rows, List.filter_append, rows, List.filter_cons, List.filter_nil]

theorem isFor_updateRow {row : Row} :
    (if row.isFor dbmodule fname then row.updated lazymetadata file else row).isFor dbmodule other =
      row.isFor dbmodule other := by
  split
  · rfl
  · rfl

theorem rows_updateRows :
    rows dbmodule fname (updateRows dbmodule lazymetadata fname file table) =
      (rows dbmodule fname table).map (Row.updated lazymetadata file) := by
  induction table with
  | nil => rfl
  | cons row table ih =>
    rw [rows, updateRows, List.map_cons, List.filter_cons, isFor_updateRow, rows, List.filter_cons]
    split
    · exact congrArg (_ :: ·) ih
    · exact ih

theorem rows_updateRows_ne (hOther : other ≠ fname) :
    rows dbmodule other (updateRows dbmodule lazymetadata fname file table) =
      rows dbmodule other table := by
  induction table with
  | nil => rfl
  | cons row table ih =>
    rw [rows, updateRows, List.map_cons, List.filter_cons, isFor_updateRow, rows, List.filter_cons]
    split
    · next hFor =>
      have hNot : ¬ row.isFor dbmodule fname = true := fun hSame =>
        hOther ((isFor_iff.mp hFor).2.symm.trans (isFor_iff.mp hSame).2)
      rw [if_neg hNot]
      exact congrArg (row :: ·) ih
    · exact ih

/-- The row that `%blobs` has for a name. -/
theorem lookup_readBlobs :
    (readBlobs dbmodule table).lookup fname = (rows dbmodule fname table).getLast? := by
  induction table using List.reverseRecOn with
  | nil => exact AList.lookup_empty fname
  | append_singleton table row ih =>
    rw [rows_append, readBlobs, List.filter_append, List.foldl_append, ← readBlobs]
    by_cases hModule : row.module = dbmodule
    · rw [List.filter_cons_of_pos (by simpa using hModule), List.filter_nil, List.foldl_cons,
        List.foldl_nil]
      by_cases hName : fname = row.filename
      · rw [if_pos (isFor_iff.mpr ⟨hModule, hName.symm⟩), List.getLast?_concat, hName,
          AList.lookup_insert]
      · have hNot : ¬ row.isFor dbmodule fname = true := fun hFor =>
          hName (isFor_iff.mp hFor).2.symm
        rw [if_neg hNot, List.append_nil, AList.lookup_insert_ne hName, ih]
    · have hNot : ¬ row.isFor dbmodule fname = true := fun hFor => hModule (isFor_iff.mp hFor).1
      rw [if_neg hNot, List.append_nil, List.filter_cons_of_neg (by simpa using hModule),
        List.filter_nil, List.foldl_nil, ih]

end Rows

/-! ### What a turn does to the rows and the entry of a name -/

section Turns
variable {dbmodule lazymetadata fname other : Text} {files : Files} {blobs : Blobs}

def rowsAndBlob (dbmodule fname : Text) (s : List Row × Blobs) : List Row × Option Row :=
  (rows dbmodule fname s.1, s.2.lookup fname)

def rowsAndFile (dbmodule fname : Text) (s : List Row × Files) : List Row × Option FileStats :=
  (rows dbmodule fname s.1, s.2.lookup fname)

theorem rowsAndBlob_deleteStale (fname : Text) (s : List Row × Blobs) :
    rowsAndBlob dbmodule fname (deleteStale dbmodule files s fname) =
      if fname ∈ files then rowsAndBlob dbmodule fname s else ([], none) := by
  rw [deleteStale]
  split
  · rfl
  · rw [rowsAndBlob, rows_deleteRows, AList.lookup_erase]

theorem rowsAndBlob_deleteStale_ne (other fname : Text) (s : List Row × Blobs)
    (hOther : other ≠ fname) :
    rowsAndBlob dbmodule other (deleteStale dbmodule files s fname) =
      rowsAndBlob dbmodule other s := by
  rw [deleteStale]
  split
  · rfl
  · rw [rowsAndBlob, rows_deleteRows_ne hOther, AList.lookup_erase_ne hOther, rowsAndBlob]

/-- The turn of `insertNew` for a name, given its rows and its file. -/
def inserted (dbmodule lazymetadata : Text) (blobs : Blobs) (fname : Text) :
    List Row × Option FileStats → List Row × Option FileStats
  | (old, some file) =>
      if fname ∈ blobs then (old, some file)
      else (old ++ [newRow dbmodule lazymetadata fname file], none)
  | (old, none) => (old, none)

theorem isFor_newRow {file : FileStats} :
    (newRow dbmodule lazymetadata fname file).isFor dbmodule other = decide (fname = other) := by
  rw [Row.isFor, newRow]
  simp

theorem rowsAndFile_insertNew (fname : Text) (s : List Row × Files) :
    rowsAndFile dbmodule fname (insertNew dbmodule lazymetadata blobs s fname) =
      inserted dbmodule lazymetadata blobs fname (rowsAndFile dbmodule fname s) := by
  rw [insertNew, rowsAndFile, rowsAndFile]
  cases hFile : s.2.lookup fname with
  | none =>
    rw [ite_self, hFile]
    rfl
  | some file =>
    rw [inserted]
    split
    · rw [hFile]
    · rw [rows_append, isFor_newRow, if_pos (decide_eq_true rfl), AList.lookup_erase]

theorem rowsAndFile_insertNew_ne (other fname : Text) (s : List Row × Files)
    (hOther : other ≠ fname) :
    rowsAndFile dbmodule other (insertNew dbmodule lazymetadata blobs s fname) =
      rowsAndFile dbmodule other s := by
  rw [insertNew]
  split
  · rfl
  · split
    · have hNot : ¬ decide (fname = other) = true := fun hSame =>
        hOther (of_decide_eq_true hSame).symm
      rw [rowsAndFile, rows_append, isFor_newRow, if_neg hNot, List.append_nil,
        AList.lookup_erase_ne hOther, rowsAndFile]
    · rfl

/-- The turn of `updateChanged` for a name. -/
def changed (lazymetadata : Text) (blobs : Blobs) (fname : Text) :
    List Row × Option FileStats → List Row × Option FileStats
  | (old, some file) =>
      match blobs.lookup fname with
      | some blob =>
          if isSame blob file then (old, some file)
          else (old.map (Row.updated lazymetadata file), none)
      | none => (old, some file)
  | (old, none) => (old, none)

theorem rowsAndFile_updateChanged (fname : Text) (s : List Row × Files) :
    rowsAndFile dbmodule fname (updateChanged dbmodule lazymetadata blobs s fname) =
      changed lazymetadata blobs fname (rowsAndFile dbmodule fname s) := by
  rw [updateChanged, rowsAndFile, rowsAndFile]
  cases hFile : s.2.lookup fname with
  | none =>
    rw [changed]
    cases blobs.lookup fname with
    | none => rw [hFile]
    | some blob => rw [hFile]
  | some file =>
    rw [changed]
    cases blobs.lookup fname with
    | none => rw [hFile]
    | some blob =>
      dsimp only
      split
      · rw [hFile]
      · rw [rows_updateRows, AList.lookup_erase]

theorem rowsAndFile_updateChanged_ne (other fname : Text) (s : List Row × Files)
    (hOther : other ≠ fname) :
    rowsAndFile dbmodule other (updateChanged dbmodule lazymetadata blobs s fname) =
      rowsAndFile dbmodule other s := by
  rw [updateChanged]
  split
  · split
    · rfl
    · rw [rowsAndFile, rows_updateRows_ne hOther, AList.lookup_erase_ne hOther, rowsAndFile]
  · rfl

end Turns

/-! ### The passes together -/

section Reconcile
variable {dbmodule lazymetadata fname : Text} {table : List Row} {files : Files}

/-- The rows for a name afterwards, from the rows before and what has been found. -/
def reconciled (dbmodule lazymetadata fname : Text) (old : List Row) :
    Option FileStats → List Row
  | none => []
  | some file =>
      match old.getLast? with
      | none => [newRow dbmodule lazymetadata fname file]
      | some blob => if isSame blob file then old else old.map (Row.updated lazymetadata file)

variable (dbmodule table files) in
theorem deleteStale_pass :
    rowsAndBlob dbmodule fname ((sorted (readBlobs dbmodule table).keys).foldl
        (deleteStale dbmodule files) (table, readBlobs dbmodule table)) =
      if fname ∈ files then
        (rows dbmodule fname table, (rows dbmodule fname table).getLast?)
      else ([], none) := by
  have hStart : rowsAndBlob dbmodule fname (table, readBlobs dbmodule table) =
      (rows dbmodule fname table, (rows dbmodule fname table).getLast?) := by
    rw [rowsAndBlob, lookup_readBlobs]
  by_cases hBlob : fname ∈ readBlobs dbmodule table
  · rw [Passes.foldl_own (rowsAndBlob dbmodule) (fun fname o =>
        if fname ∈ files then o else ([], none)) rowsAndBlob_deleteStale
      rowsAndBlob_deleteStale_ne (nodup_sorted (AList.keys_nodup _))
      (mem_sorted.mpr hBlob), hStart]
  · rw [Passes.foldl_other (rowsAndBlob dbmodule) rowsAndBlob_deleteStale_ne
      (mt mem_sorted.mp hBlob), hStart]
    have hNone : (rows dbmodule fname table).getLast? = none := by
      rw [← lookup_readBlobs]
      exact AList.lookup_eq_none.mpr hBlob
    rw [List.getLast?_eq_none_iff.mp hNone]
    exact (ite_self _).symm

theorem insertNew_pass {blobs : Blobs} (s : List Row) :
    rowsAndFile dbmodule fname ((sorted files.keys).foldl
        (insertNew dbmodule lazymetadata blobs) (s, files)) =
      inserted dbmodule lazymetadata blobs fname (rows dbmodule fname s, files.lookup fname) := by
  by_cases hFile : fname ∈ files
  · rw [Passes.foldl_own (rowsAndFile dbmodule) _ rowsAndFile_insertNew
      rowsAndFile_insertNew_ne (nodup_sorted (AList.keys_nodup _)) (mem_sorted.mpr hFile)]
    rfl
  · rw [Passes.foldl_other (rowsAndFile dbmodule) rowsAndFile_insertNew_ne
      (mt mem_sorted.mp hFile), rowsAndFile, AList.lookup_eq_none.mpr hFile]
    rfl

theorem updateChanged_pass {blobs : Blobs} (s : List Row) :
    rowsAndFile dbmodule fname ((sorted files.keys).foldl
        (updateChanged dbmodule lazymetadata blobs) (s, files)) =
      changed lazymetadata blobs fname (rows dbmodule fname s, files.lookup fname) := by
  by_cases hFile : fname ∈ files
  · rw [Passes.foldl_own (rowsAndFile dbmodule) _ rowsAndFile_updateChanged
      rowsAndFile_updateChanged_ne (nodup_sorted (AList.keys_nodup _)) (mem_sorted.mpr hFile)]
    rfl
  · rw [Passes.foldl_other (rowsAndFile dbmodule) rowsAndFile_updateChanged_ne
      (mt mem_sorted.mp hFile), rowsAndFile, AList.lookup_eq_none.mpr hFile]
    rfl

variable (lazymetadata) in
/-- What the second and the third pass do with the rows and the entry that the first one left. -/
theorem changed_inserted {blobs : Blobs} {old : List Row}
    (hOld : rowsAndBlob dbmodule fname (table, blobs) =
      if fname ∈ files then (old, old.getLast?) else ([], none)) :
    (changed lazymetadata blobs fname (inserted dbmodule lazymetadata blobs fname
        (rows dbmodule fname table, files.lookup fname))).1 =
      reconciled dbmodule lazymetadata fname old (files.lookup fname) := by
  cases hFile : files.lookup fname with
  | none =>
    rw [if_neg (AList.lookup_eq_none.mp hFile)] at hOld
    exact congrArg Prod.fst hOld
  | some file =>
    have hFound : fname ∈ files := AList.lookup_isSome.mp (hFile ▸ rfl)
    rw [if_pos hFound] at hOld
    have hRows : rows dbmodule fname table = old := congrArg Prod.fst hOld
    have hBlob : blobs.lookup fname = old.getLast? := congrArg Prod.snd hOld
    rw [hRows, inserted, reconciled]
    cases hLast : old.getLast? with
    | none =>
      have hNew : fname ∉ blobs := AList.lookup_eq_none.mp (hBlob.trans hLast)
      rw [if_neg hNew, changed, List.getLast?_eq_none_iff.mp hLast, List.nil_append]
    | some blob =>
      have hThere : fname ∈ blobs := AList.lookup_isSome.mp (by rw [hBlob, hLast]; rfl)
      rw [if_pos hThere, changed, hBlob, hLast]
      dsimp only
      split
      · rfl
      · rfl

theorem rows_reconcile :
    rows dbmodule fname (reconcile dbmodule lazymetadata false table files) =
      reconciled dbmodule lazymetadata fname (rows dbmodule fname table) (files.lookup fname) := by
  rw [← changed_inserted lazymetadata (deleteStale_pass dbmodule table files), ← insertNew_pass]
  exact congrArg Prod.fst (updateChanged_pass _)

theorem otherModules_filter_not {p : Row → Bool}
    (hOther : ∀ row : Row, row.module ≠ dbmodule → p row = true) :
    otherModules dbmodule (table.filter p) = otherModules dbmodule table := by
  rw [otherModules, List.filter_filter]
  refine List.filter_congr fun row _ => ?_
  by_cases hModule : row.module = dbmodule
  · simp [hModule]
  · simp [hModule, hOther row hModule]

theorem otherModules_deleteStale (s : List Row × Blobs) (fname : Text) :
    otherModules dbmodule (deleteStale dbmodule files s fname).1 = otherModules dbmodule s.1 := by
  rw [deleteStale]
  split
  · rfl
  · refine otherModules_filter_not fun row hOther => ?_
    simp [Row.isFor, hOther]

theorem otherModules_insertNew {blobs : Blobs} (s : List Row × Files) (fname : Text) :
    otherModules dbmodule (insertNew dbmodule lazymetadata blobs s fname).1 =
      otherModules dbmodule s.1 := by
  rw [insertNew]
  split
  · rfl
  · split
    · rw [otherModules, List.filter_append, List.filter_cons_of_neg (by simp [newRow]),
        List.filter_nil, List.append_nil, otherModules]
    · rfl

theorem otherModules_updateRows {file : FileStats} :
    otherModules dbmodule (updateRows dbmodule lazymetadata fname file table) =
      otherModules dbmodule table := by
  induction table with
  | nil => rfl
  | cons row table ih =>
    have hModule : (if row.isFor dbmodule fname then row.updated lazymetadata file
        else row).module = row.module := by
      split
      · rfl
      · rfl
    rw [otherModules, updateRows, List.map_cons, List.filter_cons, hModule, otherModules,
      List.filter_cons]
    split
    · next hOther =>
      have hNot : ¬ row.isFor dbmodule fname = true := fun hFor =>
        of_decide_eq_true hOther (isFor_iff.mp hFor).1
      rw [if_neg hNot]
      exact congrArg (row :: ·) ih
    · exact ih

theorem otherModules_updateChanged {blobs : Blobs} (s : List Row × Files) (fname : Text) :
    otherModules dbmodule (updateChanged dbmodule lazymetadata blobs s fname).1 =
      otherModules dbmodule s.1 := by
  rw [updateChanged]
  split
  · split
    · rfl
    · exact otherModules_updateRows
  · rfl

theorem otherModules_reconcile (filesdontchange : Bool) :
    otherModules dbmodule (reconcile dbmodule lazymetadata filesdontchange table files) =
      otherModules dbmodule table := by
  have hDeleted := Passes.foldl_kept (deleteStale dbmodule files)
    (fun s : List Row × Blobs => otherModules dbmodule s.1) otherModules_deleteStale
    (sorted (readBlobs dbmodule table).keys) (table, readBlobs dbmodule table)
  have hInserted (blobs : Blobs) := Passes.foldl_kept (insertNew dbmodule lazymetadata blobs)
    (fun s : List Row × Files => otherModules dbmodule s.1) otherModules_insertNew
  have hChanged (blobs : Blobs) := Passes.foldl_kept (updateChanged dbmodule lazymetadata blobs)
    (fun s : List Row × Files => otherModules dbmodule s.1) otherModules_updateChanged
  cases filesdontchange with
  | true => exact (hInserted _ _ _).trans hDeleted
  | false => exact (hChanged _ _ _).trans ((hInserted _ _ _).trans hDeleted)

/-! ### The rows match the files -/

/-- What a row says about its file. -/
structure Shown where
  realfilename : Text
  datalength : Text
  lastmodified : Text
  etag : Text
  isLazymetadata : Text
  deriving DecidableEq, Repr

def Row.shown (row : Row) : Shown :=
  ⟨row.realfilename, row.datalength, row.lastmodified, row.etag, row.isLazymetadata⟩

def FileStats.shown (lazymetadata : Text) (file : FileStats) : Shown :=
  ⟨file.fullname, file.size, file.lastmodified, file.etag, lazymetadata⟩

/-- Each file has one row, which says what has been found; the module has no other rows, and other
modules keep theirs. -/
structure Matches (dbmodule lazymetadata : Text) (files : Files) (before after : List Row) :
    Prop where
  rows : ∀ fname, (rows dbmodule fname after).map Row.shown =
    (files.lookup fname).toList.map (FileStats.shown lazymetadata)
  others : otherModules dbmodule after = otherModules dbmodule before

/-- The rows that are there for a file that is found: one at most, and if it has the ETag and the
name of the file it says the rest as well. -/
def Fits (lazymetadata : Text) (file : FileStats) (old : List Row) : Prop :=
  old.length ≤ 1 ∧ ∀ row ∈ old, isSame row file = true → row.shown = file.shown lazymetadata

theorem shown_reconciled_iff {old : List Row} {file : FileStats} :
    (reconciled dbmodule lazymetadata fname old (some file)).map Row.shown =
      [file.shown lazymetadata] ↔ Fits lazymetadata file old := by
  rw [reconciled]
  rcases List.eq_nil_or_concat old with rfl | ⟨front, blob, rfl⟩
  · exact ⟨fun _ => ⟨Nat.zero_le 1, by simp⟩, fun _ => rfl⟩
  · rw [List.concat_eq_append, List.getLast?_concat]
    dsimp only
    constructor
    · intro hShown
      have hLength := congrArg List.length hShown
      rw [List.length_map] at hLength
      have hFront : front = [] := by
        split at hLength
        · simpa using hLength
        · simpa using hLength
      rw [hFront, List.nil_append] at hShown ⊢
      refine ⟨Nat.le_refl 1, fun row hRow hSame => ?_⟩
      rw [List.mem_singleton.mp hRow] at hSame ⊢
      rw [if_pos hSame] at hShown
      exact List.singleton_inj.mp hShown
    · rintro ⟨hLength, hFits⟩
      have hFront : front = [] := by
        rw [List.length_append, List.length_singleton] at hLength
        exact List.length_eq_zero_iff.mp (by omega)
      rw [hFront, List.nil_append] at hFits ⊢
      split
      · next hSame => exact congrArg ([·]) (hFits blob List.mem_cons_self hSame)
      · rfl

theorem reconcile_matches_iff :
    Matches dbmodule lazymetadata files table
        (reconcile dbmodule lazymetadata false table files) ↔
      ∀ fname file, files.lookup fname = some file →
        Fits lazymetadata file (rows dbmodule fname table) := by
  constructor
  · intro hMatches fname file hFile
    have hRows := hMatches.rows fname
    rw [rows_reconcile, hFile] at hRows
    exact shown_reconciled_iff.mp hRows
  · intro hFits
    refine ⟨fun fname => ?_, otherModules_reconcile false⟩
    rw [rows_reconcile]
    cases hFile : files.lookup fname with
    | none => rfl
    | some file => exact shown_reconciled_iff.mpr (hFits fname file hFile)

/-- After the command the rows of the module match what `find_files` has found, exactly if no file
has several rows, and a row with the ETag and the name of its file has its size and time, and the
flag that is given. -/
theorem updateDatabase_matches_iff {host : Host} {localdir : Text} {root : Node}
    (hFound : findFiles host localdir ['/'] root = some files) (dbmodule : Text)
    {filesdontchange : Option Bool} (hOff : filesdontchange ≠ some true)
    (lazymetadata : Option Text) (table : List Row) :
    ∃ after, updateDatabase host dbmodule localdir filesdontchange lazymetadata root table =
        some after ∧
      (Matches dbmodule (lazymetadata.getD ['0']) files table after ↔
        ∀ fname file, files.lookup fname = some file →
          Fits (lazymetadata.getD ['0']) file (rows dbmodule fname table)) := by
  have hFalse : filesdontchange.getD false = false := by
    cases filesdontchange with
    | none => rfl
    | some value =>
      cases value with
      | false => rfl
      | true => exact absurd rfl hOff
  refine ⟨_, by rw [updateDatabase, hFound]; rfl, ?_⟩
  rw [hFalse]
  exact reconcile_matches_iff

end Reconcile

/-! ### One file -/

section OneFile

/-- The clock in UTC, and the digest of the one file. -/
def oneHost : Host where
  ctime mtime := if mtime = 0 then "Thu Jan  1 00:00:00 1970".toList else []
  sha1Hex text :=
    if text = "/srv/files/a.txt5Thu Jan  1 00:00:00 1970".toList then
      "38ae6a28453d13b2847c67b1b4bf8cba9dfd03fd".toList
    else text

def oneRoot : Node := .dir true (.cons "a.txt".toList (.file 5 0) .nil)

def oneFile : FileStats := filestats oneHost "/srv/files".toList ['/'] "a.txt".toList 5 0

def oneFiles : Files := AList.insert "/a.txt".toList oneFile ∅

theorem findFiles_one : findFiles oneHost "/srv/files".toList ['/'] oneRoot = some oneFiles := rfl

theorem fits_oneFiles {lazymetadata dbmodule : Text} {table : List Row}
    (hFits : Fits lazymetadata oneFile (rows dbmodule "/a.txt".toList table)) (fname : Text)
    (file : FileStats) (hFile : oneFiles.lookup fname = some file) :
    Fits lazymetadata file (rows dbmodule fname table) := by
  by_cases hName : fname = "/a.txt".toList
  · rw [hName, oneFiles, AList.lookup_insert] at hFile
    cases hFile
    rwa [hName]
  · rw [oneFiles, AList.lookup_insert_ne hName, AList.lookup_empty] at hFile
    cases hFile

/-- The file has grown since the row was written, and another file is gone. -/
theorem updateDatabase_one :
    ∃ after, updateDatabase oneHost "docs".toList "/srv/files".toList none none oneRoot
        [newRow "docs".toList ['0'] "/a.txt".toList { oneFile with size := ['4'], etag := ['e'] },
          newRow "docs".toList ['0'] "/b.txt".toList oneFile] = some after ∧
      Matches "docs".toList ['0'] oneFiles
        [newRow "docs".toList ['0'] "/a.txt".toList { oneFile with size := ['4'], etag := ['e'] },
          newRow "docs".toList ['0'] "/b.txt".toList oneFile] after := by
  have hOff : (none : Option Bool) ≠ some true := by decide
  obtain ⟨after, hAfter, hMatches⟩ := updateDatabase_matches_iff findFiles_one "docs".toList
    hOff none
    [newRow "docs".toList ['0'] "/a.txt".toList { oneFile with size := ['4'], etag := ['e'] },
      newRow "docs".toList ['0'] "/b.txt".toList oneFile]
  refine ⟨after, hAfter, hMatches.mpr (fits_oneFiles ⟨by decide, ?_⟩)⟩
  intro row hRow hSame
  have hOld := List.mem_filter.mp hRow
  simp only [List.mem_cons, List.not_mem_nil, or_false] at hOld
  rcases hOld with ⟨rfl | rfl, hFor⟩
  · revert hSame
    decide
  · revert hFor
    decide

/-- The file has not changed, but the flag that is given has. -/
theorem updateDatabase_keeps_flag :
    updateDatabase oneHost "docs".toList "/srv/files".toList (some false) (some ['1']) oneRoot
        [newRow "docs".toList ['0'] "/a.txt".toList oneFile] =
      some [newRow "docs".toList ['0'] "/a.txt".toList oneFile] ∧
    ¬ Matches "docs".toList ['1'] oneFiles [newRow "docs".toList ['0'] "/a.txt".toList oneFile]
        [newRow "docs".toList ['0'] "/a.txt".toList oneFile] := by
  refine ⟨by decide, fun hMatches => ?_⟩
  have hRows := hMatches.rows "/a.txt".toList
  revert hRows
  decide

end OneFile

end PageCamel.Worker.DynamicFiles

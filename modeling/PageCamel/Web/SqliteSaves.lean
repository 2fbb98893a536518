import PageCamel.Lib.FileChunks
import PageCamel.Lib.Octets
import PageCamel.Lib.Runs
import Mathlib.Data.List.Pairwise

/-!
Saving of the database in `PCSqlite`: an export goes to the worker `SQLtoBinWorker`, comes back
as text and is written to IndexedDB. Messages arrive in the order in which they are posted;
openings of the store, and transactions on it, are carried out in the order of their requests.
-/

namespace PageCamel.Web.SqliteSaves
open PageCamel.Lib

abbrev Text := List Char

/-- `SQLTOSTRING`. Without a database there is no export. -/
structure SaveRequest where
  id : Nat
  exported : Option Octets
  deriving DecidableEq, Repr

/-- `SAVEDB`, and what is put into the store. The number goes with it for the history. -/
structure Save where
  id : Nat
  data : Text
  deriving DecidableEq, Repr

/-- `nextSave` is there while `hasnextSave` is set. `exports` and `completed` are the history:
what was exported by the calls of `save`, and the numbers of the writes that have completed. -/
structure PCSqlite where
  currentSaveID : Nat := 0
  seenSaveID : Nat := 0
  toWorker : List SaveRequest := []
  nextSave : Option SaveRequest := none
  toPage : List Save := []
  opening : List Save := []
  transactions : List Save := []
  stored : Option Save := none
  exports : List (Option Octets) := []
  completed : List Nat := []
  deriving DecidableEq, Repr

/-- How `indexedDB.open` ends. -/
inductive Opening where
  | success
  /-- `onupgradeneeded` makes a new store before the success. -/
  | upgraded
  /-- The database has no store of the name and is deleted. -/
  | noStore
  | error
  deriving DecidableEq, Repr

inductive Event where
  | save (exported : Option Octets)
  | reset (hasSQL : Bool) (exported : Octets)
  /-- The worker's `onmessage`. -/
  | workerMessage
  | dataConverter
  /-- `onmessage` of the page. -/
  | pageMessage
  | opened (opening : Opening)
  | written (complete : Bool)
  deriving DecidableEq, Repr

def gzip : Text := ['G', 'Z', 'I', 'P', ':']

/-- `String.fromCharCode`. -/
def fromCharCode (octet : UInt8) : Char := Char.ofNat octet.toNat

section Machine

variable (deflate : Octets → Octets)

/-- The text that the worker makes, in chunks. -/
def toText (exported : Option Octets) : Text :=
  let compressed := deflate (exported.getD [])
  gzip ++ ((readChunks 0xff compressed.length compressed).map (·.map fromCharCode)).flatten

def SaveRequest.toSave (request : SaveRequest) : Save where
  id := request.id
  data := toText deflate request.exported

def PCSqlite.save (s : PCSqlite) (exported : Option Octets) : PCSqlite :=
  { s with
    currentSaveID := s.currentSaveID + 1
    toWorker := s.toWorker ++ [⟨s.currentSaveID + 1, exported⟩]
    exports := s.exports ++ [exported] }

def PCSqlite.step (s : PCSqlite) : Event → PCSqlite
  | .save exported => s.save exported
  | .reset hasSQL exported => if hasSQL then s.save (some exported) else s
  | .workerMessage =>
      match s.toWorker with
      | [] => s
      | request :: toWorker => { s with toWorker, nextSave := some request }
  | .dataConverter =>
      match s.nextSave with
      | none => s
      | some request => { s with nextSave := none, toPage := s.toPage ++ [request.toSave deflate] }
  | .pageMessage =>
      match s.toPage with
      | [] => s
      | save :: toPage => { s with seenSaveID := save.id, toPage, opening := s.opening ++ [save] }
  | .opened outcome =>
      match s.opening with
      | [] => s
      | save :: opening =>
          match outcome with
          | .success => { s with opening, transactions := s.transactions ++ [save] }
          | .upgraded =>
              { s with opening, transactions := s.transactions ++ [save], stored := none }
          | .noStore => { s with opening, stored := none }
          | .error => { s with opening }
  | .written complete =>
      match s.transactions with
      | [] => s
      | save :: transactions =>
          if complete then
            { s with transactions, stored := some save, completed := s.completed ++ [save.id] }
          else { s with transactions }

end Machine

def PCSqlite.isAllSaved (s : PCSqlite) : Bool := s.currentSaveID == s.seenSaveID

/-- What is in the store when the page is opened. -/
def start (data : Option Text) : PCSqlite := { stored := data.map fun data => ⟨0, data⟩ }

/-! ### What is stored -/

/-- What the page would inflate when it loads the text (in the format of `toText`). -/
def compressedIn (data : Text) : Option Octets :=
  if gzip <+: data then some ((data.drop 5).map fun c => UInt8.ofNat c.toNat) else none

/-- The store has the database that the latest call of `save` has exported. -/
def PCSqlite.HasLatest (deflate : Octets → Octets) (s : PCSqlite) : Prop :=
  ∀ exported ∈ s.exports.getLast?, ∃ save ∈ s.stored, save.id = s.exports.length ∧
    compressedIn save.data = some (deflate (exported.getD []))

/-- The write that the last message has started is completed, when it was for the latest call of
`save`. -/
def PCSqlite.Settled (s : PCSqlite) : Prop :=
  s.exports ≠ [] → s.seenSaveID = s.currentSaveID → s.seenSaveID ∈ s.completed

/-! ### The text -/

theorem toNat_fromCharCode (octet : UInt8) : UInt8.ofNat (fromCharCode octet).toNat = octet := by
  have hValid : octet.toNat.isValidChar := .inl (Nat.lt_trans octet.toNat_lt (by decide))
  have hNat : (fromCharCode octet).toNat = octet.toNat := by
    rw [fromCharCode, Char.ofNat, dif_pos hValid]
    rfl
  rw [hNat, UInt8.ofNat_toNat]

/-- Nothing is lost by the text. -/
theorem compressedIn_toText (deflate : Octets → Octets) (exported : Option Octets) :
    compressedIn (toText deflate exported) = some (deflate (exported.getD [])) := by
  have hText : toText deflate exported =
      gzip ++ (deflate (exported.getD [])).map fromCharCode := by
    rw [toText, ← List.map_flatten, flatten_readChunks (by decide) (Nat.le_refl _)]
  have hDrop : (toText deflate exported).drop 5 = (deflate (exported.getD [])).map fromCharCode := by
    rw [hText]
    rfl
  rw [compressedIn, hDrop, if_pos (hText ▸ List.prefix_append _ _), List.map_map]
  congr 1
  exact List.map_id'' toNat_fromCharCode _

/-! ### The order of the saves -/

variable {deflate : Octets → Octets} {s : PCSqlite}

/-- The saves on their way to the page. -/
def PCSqlite.underWay (deflate : Octets → Octets) (s : PCSqlite) : List Save :=
  s.toPage ++ (s.nextSave.toList ++ s.toWorker).map (SaveRequest.toSave deflate)

/-- The text is that of the call with this number. -/
def Genuine (deflate : Octets → Octets) (exports : List (Option Octets)) (save : Save) : Prop :=
  save.id ≠ 0 → ∃ exported, exports[save.id - 1]? = some exported ∧ save.data = toText deflate exported

structure Good (deflate : Octets → Octets) (s : PCSqlite) : Prop where
  count : s.currentSaveID = s.exports.length
  coming : ∀ save ∈ s.underWay deflate, save.id ≤ s.currentSaveID ∧ Genuine deflate s.exports save
  writing : ∀ save ∈ s.transactions ++ s.opening,
    save.id ≤ s.seenSaveID ∧ Genuine deflate s.exports save
  stored : ∀ save ∈ s.stored, Genuine deflate s.exports save ∧ (save.id ≠ 0 → save.id ∈ s.completed)
  seen : s.seenSaveID ≤ s.currentSaveID
  ordered : (s.seenSaveID :: (s.underWay deflate).map Save.id).Pairwise (· < ·)
  inTurn : ((s.transactions ++ s.opening).map Save.id).Pairwise (· < ·)
  completed : ∀ id ∈ s.completed, id ≤ s.seenSaveID
  /-- After the write for the last message there is no other. -/
  last : s.seenSaveID ∈ s.completed →
    s.transactions ++ s.opening = [] ∧ ∃ save ∈ s.stored, save.id = s.seenSaveID

theorem good_start (data : Option Text) : Good deflate (start data) := by
  refine ⟨rfl, nofun, nofun, fun save hSave => ?_, Nat.le_refl 0, List.pairwise_singleton _ _, .nil,
    nofun, nofun⟩
  obtain ⟨text, -, rfl⟩ := Option.map_eq_some_iff.mp hSave
  exact ⟨fun hSome => absurd rfl hSome, fun hSome => absurd rfl hSome⟩

theorem Genuine.append {exports : List (Option Octets)} {save : Save} (exported : Option Octets)
    (hGenuine : Genuine deflate exports save) : Genuine deflate (exports ++ [exported]) save := by
  intro hSome
  obtain ⟨found, hFound, hData⟩ := hGenuine hSome
  refine ⟨found, ?_, hData⟩
  rw [List.getElem?_append_left (List.getElem?_eq_some_iff.mp hFound).1, hFound]

theorem good_save (hGood : Good deflate s) (exported : Option Octets) :
    Good deflate (s.save exported) := by
  have hUnderWay : (s.save exported).underWay deflate =
      s.underWay deflate ++ [⟨s.currentSaveID + 1, toText deflate exported⟩] := by
    rw [PCSqlite.underWay, PCSqlite.underWay, List.append_assoc, PCSqlite.save, ← List.append_assoc,
      List.map_append]
    rfl
  refine ⟨?_, ?_, ?_, ?_, Nat.le_succ_of_le hGood.seen, ?_, hGood.inTurn, hGood.completed, hGood.last⟩
  · rw [PCSqlite.save, List.length_append, hGood.count]
    rfl
  · rw [hUnderWay, List.forall_mem_append, List.forall_mem_singleton]
    refine ⟨fun save hSave => ?_, Nat.le_refl _, fun _ => ⟨exported, ?_, rfl⟩⟩
    · exact ⟨Nat.le_succ_of_le (hGood.coming save hSave).1, (hGood.coming save hSave).2.append exported⟩
    · rw [PCSqlite.save, hGood.count, Nat.add_sub_cancel, List.getElem?_concat_length]
  · exact fun save hSave => ⟨(hGood.writing save hSave).1, (hGood.writing save hSave).2.append exported⟩
  · exact fun save hSave => ⟨(hGood.stored save hSave).1.append exported, (hGood.stored save hSave).2⟩
  · rw [hUnderWay, List.map_append, ← List.cons_append, List.pairwise_append]
    refine ⟨hGood.ordered, List.pairwise_singleton _ _, fun id hid other hOther => ?_⟩
    obtain rfl := List.mem_singleton.mp hOther
    refine Nat.lt_succ_of_le ?_
    rcases List.mem_cons.mp hid with rfl | hid
    · exact hGood.seen
    · obtain ⟨save, hSave, rfl⟩ := List.mem_map.mp hid
      exact (hGood.coming save hSave).1

/-- Saves that go on, or are dropped, in the order they have. -/
theorem Good.of_underWay {s' : PCSqlite} (hGood : Good deflate s)
    (hSub : (s'.underWay deflate).Sublist (s.underWay deflate))
    (hSame : s' = { s with
      toPage := s'.toPage
      nextSave := s'.nextSave
      toWorker := s'.toWorker }) : Good deflate s' := by
  rw [hSame]
  rw [hSame] at hSub
  refine ⟨hGood.count, fun save hSave => hGood.coming save (hSub.subset hSave), hGood.writing,
    hGood.stored, hGood.seen, ?_, hGood.inTurn, hGood.completed, hGood.last⟩
  exact List.Pairwise.sublist ((hSub.map Save.id).cons_cons _) hGood.ordered

theorem good_pageMessage {save : Save} {toPage : List Save} (hGood : Good deflate s)
    (hPage : s.toPage = save :: toPage) :
    Good deflate { s with seenSaveID := save.id, toPage, opening := s.opening ++ [save] } := by
  have hUnderWay : s.underWay deflate =
      save :: PCSqlite.underWay deflate
        { s with seenSaveID := save.id, toPage, opening := s.opening ++ [save] } := by
    rw [PCSqlite.underWay, PCSqlite.underWay, hPage]
    rfl
  have hComing := hGood.coming
  have hOrdered := hGood.ordered
  rw [hUnderWay, List.forall_mem_cons] at hComing
  rw [hUnderWay, List.map_cons, List.pairwise_cons] at hOrdered
  have hLess : s.seenSaveID < save.id := hOrdered.1 _ List.mem_cons_self
  refine ⟨hGood.count, hComing.2, ?_, hGood.stored, hComing.1.1, hOrdered.2, ?_, ?_, ?_⟩
  · rw [← List.append_assoc, List.forall_mem_append, List.forall_mem_singleton]
    refine ⟨fun other hOther => ?_, Nat.le_refl _, hComing.1.2⟩
    exact ⟨Nat.le_of_lt (Nat.lt_of_le_of_lt (hGood.writing other hOther).1 hLess),
      (hGood.writing other hOther).2⟩
  · rw [← List.append_assoc, List.map_append, List.pairwise_append]
    refine ⟨hGood.inTurn, List.pairwise_singleton _ _, fun id hid other hOther => ?_⟩
    obtain rfl := List.mem_singleton.mp hOther
    obtain ⟨old, hOld, rfl⟩ := List.mem_map.mp hid
    exact Nat.lt_of_le_of_lt (hGood.writing old hOld).1 hLess
  · exact fun id hid => Nat.le_of_lt (Nat.lt_of_le_of_lt (hGood.completed id hid) hLess)
  · exact fun hDone => absurd (hGood.completed _ hDone) (Nat.not_le_of_lt hLess)

/-- A write that is opened, or given up. -/
theorem Good.of_opening {s' : PCSqlite} (hGood : Good deflate s) (hOpening : s.opening ≠ [])
    (hSub : (s'.transactions ++ s'.opening).Sublist (s.transactions ++ s.opening))
    (hStored : ∀ save ∈ s'.stored, save ∈ s.stored)
    (hSame : s' = { s with
      opening := s'.opening
      transactions := s'.transactions
      stored := s'.stored }) : Good deflate s' := by
  rw [hSame]
  rw [hSame] at hSub hStored
  refine ⟨hGood.count, hGood.coming, fun save hSave => hGood.writing save (hSub.subset hSave),
    fun save hSave => hGood.stored save (hStored save hSave), hGood.seen, hGood.ordered,
    hGood.inTurn.sublist (hSub.map Save.id), hGood.completed, fun hDone => ?_⟩
  exact absurd (List.append_eq_nil_iff.mp (hGood.last hDone).1).2 hOpening

theorem good_written {save : Save} {transactions : List Save} (hGood : Good deflate s)
    (hWriting : s.transactions = save :: transactions) :
    Good deflate
        { s with transactions, stored := some save, completed := s.completed ++ [save.id] } ∧
      Good deflate { s with transactions } := by
  have hAll := hGood.writing
  have hInTurn := hGood.inTurn
  rw [hWriting, List.cons_append, List.forall_mem_cons] at hAll
  rw [hWriting, List.cons_append, List.map_cons, List.pairwise_cons] at hInTurn
  have hNotLast : s.seenSaveID ∉ s.completed := by
    intro hDone
    have hNone := (hGood.last hDone).1
    rw [hWriting] at hNone
    cases hNone
  constructor
  · refine ⟨hGood.count, hGood.coming, hAll.2, ?_, hGood.seen, hGood.ordered, hInTurn.2, ?_, ?_⟩
    · intro other hOther
      cases hOther
      exact ⟨hAll.1.2, fun _ => List.mem_append_right _ (List.mem_singleton.mpr rfl)⟩
    · rw [List.forall_mem_append, List.forall_mem_singleton]
      exact ⟨hGood.completed, hAll.1.1⟩
    · intro hDone
      have hSeen : s.seenSaveID = save.id :=
        List.mem_singleton.mp ((List.mem_append.mp hDone).resolve_left hNotLast)
      refine ⟨List.eq_nil_iff_forall_not_mem.mpr fun other hOther => ?_, save, rfl, hSeen.symm⟩
      have hAfter := hInTurn.1 _ (List.mem_map_of_mem hOther)
      have hBefore := (hAll.2 other hOther).1
      omega
  · exact ⟨hGood.count, hGood.coming, hAll.2, hGood.stored, hGood.seen, hGood.ordered, hInTurn.2,
      hGood.completed, fun hDone => absurd hDone hNotLast⟩

theorem good_step (hGood : Good deflate s) (event : Event) : Good deflate (s.step deflate event) := by
  cases event with
  | save exported => exact good_save hGood exported
  | reset hasSQL exported =>
    cases hasSQL with
    | false => exact hGood
    | true => exact good_save hGood (some exported)
  | workerMessage =>
    rw [PCSqlite.step]
    cases hWorker : s.toWorker with
    | nil => exact hGood
    | cons request toWorker =>
      refine hGood.of_underWay ?_ rfl
      rw [PCSqlite.underWay, PCSqlite.underWay, hWorker]
      exact ((List.sublist_append_right s.nextSave.toList _).map _).append_left s.toPage
  | dataConverter =>
    rw [PCSqlite.step]
    cases hNext : s.nextSave with
    | none => exact hGood
    | some request =>
      refine hGood.of_underWay ?_ rfl
      rw [PCSqlite.underWay, PCSqlite.underWay, hNext, List.append_assoc]
      exact List.Sublist.refl _
  | pageMessage =>
    rw [PCSqlite.step]
    cases hPage : s.toPage with
    | nil => exact hGood
    | cons save toPage => exact good_pageMessage hGood hPage
  | opened outcome =>
    rw [PCSqlite.step]
    cases hOpening : s.opening with
    | nil => exact hGood
    | cons save opening =>
      have hSome : s.opening ≠ [] := hOpening ▸ List.cons_ne_nil save opening
      have hMoved : ((s.transactions ++ [save]) ++ opening).Sublist (s.transactions ++ s.opening) := by
        rw [hOpening, List.append_assoc]
        exact List.Sublist.refl _
      have hDropped : (s.transactions ++ opening).Sublist (s.transactions ++ s.opening) := by
        rw [hOpening]
        exact (List.sublist_cons_self save opening).append_left s.transactions
      cases outcome with
      | success => exact hGood.of_opening hSome hMoved (fun _ hStored => hStored) rfl
      | upgraded => exact hGood.of_opening hSome hMoved nofun rfl
      | noStore => exact hGood.of_opening hSome hDropped nofun rfl
      | error => exact hGood.of_opening hSome hDropped (fun _ hStored => hStored) rfl
  | written complete =>
    rw [PCSqlite.step]
    cases hWriting : s.transactions with
    | nil => exact hGood
    | cons save transactions =>
      cases complete with
      | true => exact (good_written hGood hWriting).1
      | false => exact (good_written hGood hWriting).2

theorem good_run (deflate : Octets → Octets) (data : Option Text) (events : List Event) :
    Good deflate (runEvents (PCSqlite.step deflate) (start data) events) :=
  (Meets.of_forall (fun _ _ => trivial) events (start data)).invariant (good_start data)
    fun _ event hGood _ => good_step hGood event

/-! ### What `isAllSaved` says -/

theorem Good.hasLatest_iff (hGood : Good deflate s) (hSaved : s.isAllSaved = true)
    (hSome : s.exports ≠ []) : s.HasLatest deflate ↔ s.seenSaveID ∈ s.completed := by
  have hSeen : s.seenSaveID = s.exports.length := by
    rw [PCSqlite.isAllSaved, beq_iff_eq] at hSaved
    rw [← hSaved, hGood.count]
  have hPos : s.exports.length ≠ 0 := fun hNone => hSome (List.length_eq_zero_iff.mp hNone)
  constructor
  · intro hLatest
    obtain ⟨save, hStored, hId, -⟩ := hLatest _ (List.getLast?_eq_some_getLast hSome)
    rw [hSeen, ← hId]
    exact (hGood.stored save hStored).2 (hId ▸ hPos)
  · intro hDone exported hExported
    obtain ⟨-, save, hStored, hId⟩ := hGood.last hDone
    obtain ⟨found, hFound, hData⟩ := (hGood.stored save hStored).1 (by rw [hId, hSeen]; exact hPos)
    rw [hId, hSeen, ← List.getLast?_eq_getElem?] at hFound
    obtain rfl := Option.some.inj (hFound.symm.trans hExported)
    exact ⟨save, hStored, hId.trans hSeen, hData ▸ compressedIn_toText deflate found⟩

/-- In every state of every run the answer can be relied on exactly if the last write is completed. -/
theorem isAllSaved_iff (deflate : Octets → Octets) (data : Option Text) (events : List Event) :
    ((runEvents (PCSqlite.step deflate) (start data) events).isAllSaved = true →
      (runEvents (PCSqlite.step deflate) (start data) events).HasLatest deflate) ↔
      (runEvents (PCSqlite.step deflate) (start data) events).Settled := by
  have hGood := good_run deflate data events
  generalize runEvents (PCSqlite.step deflate) (start data) events = s at hGood
  constructor
  · intro hReliable hSome hSeen
    have hSaved : s.isAllSaved = true := beq_iff_eq.mpr hSeen.symm
    exact (hGood.hasLatest_iff hSaved hSome).mp (hReliable hSaved)
  · intro hSettled hSaved
    by_cases hNone : s.exports = []
    · intro exported hExported
      rw [hNone] at hExported
      cases hExported
    · exact (hGood.hasLatest_iff hSaved hNone).mpr (hSettled hNone (beq_iff_eq.mp hSaved).symm)

/-- The message has come back, and nothing is written yet. -/
theorem not_isAllSaved_opening : ¬((runEvents (PCSqlite.step id) (start none)
      [.save (some [1]), .workerMessage, .dataConverter, .pageMessage]).isAllSaved = true →
    (runEvents (PCSqlite.step id) (start none)
      [.save (some [1]), .workerMessage, .dataConverter, .pageMessage]).HasLatest id) := by
  intro hReliable
  obtain ⟨save, hStored, -⟩ := hReliable (by decide) (some [1]) rfl
  cases hStored

end PageCamel.Web.SqliteSaves

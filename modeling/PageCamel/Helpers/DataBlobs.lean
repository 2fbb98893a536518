import PageCamel.Lib.FileChunks
import PageCamel.Lib.Octets

/-!
Blobs in the database (`Helpers/DataBlobs.pm`): a large object beside a row of `datablobs`
with its length and its tag, which are written when the handle is closed. The large object is
a file of octets with an offset.
-/

namespace PageCamel.Helpers.DataBlobs

open Lib

structure LargeObject where
  content : Octets
  position : Nat

def LargeObject.lseek (object : LargeObject) (offset : Nat) : LargeObject :=
  { object with position := offset }

def LargeObject.write (object : LargeObject) (data : Octets) : LargeObject where
  content := writeAt 0 object.content object.position data
  position := object.position + data.length

def LargeObject.read (object : LargeObject) (len : Nat) : LargeObject × Octets :=
  let data := (object.content.drop object.position).take len
  ({ object with position := object.position + data.length }, data)

structure Row where
  datalength : Nat
  etag : Option String

/-- A handle, with the row and the large object that it is for. -/
structure Blob where
  row : Row
  object : LargeObject
  metaonly : Bool
  blobfd : Bool := false
  datalength : Nat := 0
  etag : Option String := none
  haswritten : Bool := false
  mustupdateetag : Bool := false

/-- The argument that should be a reference to a buffer. -/
inductive Data
  | undefined
  | value
  | reference (buffer : Octets)

namespace Blob

/-- `blobOpen` where there is no file descriptor yet. -/
def openFd (s : Blob) : Blob :=
  let s := { s with datalength := s.row.datalength, etag := s.row.etag, blobfd := true }
  if s.metaonly then s
  else { s with object := s.object.lseek 0, haswritten := false, mustupdateetag := false }

def ensureOpen (s : Blob) : Blob := if s.blobfd then s else s.openFd

/-- `none` for the results 0; `len` may be left out. -/
def blobRead (s : Blob) (data : Data) (offset : Nat) (len : Option Nat) :
    Blob × Except String (Option Octets) :=
  if s.metaonly then (s, throw "Can't read from metaonly blob fh!") else
  let s := s.ensureOpen
  match data with
  | .undefined => (s, throw "Require data buffer argument!")
  | .value => (s, throw "Data buffer is not a reference!")
  | .reference _ =>
    let len := len.getD (s.datalength - offset)
    if s.datalength < offset then (s, return none)
    else if s.datalength < offset + len then (s, return none)
    else
      let (object, data) := (s.object.lseek offset).read len
      ({ s with object := object }, return if len ≠ data.length then none else some data)

/-- An offset that is given but not defined is seen after the seek only. -/
def blobWrite (s : Blob) (data : Data) (offset : Option Nat) : Blob × Except String Bool :=
  if s.metaonly then (s, throw "Can't write to metaonly blob fh!") else
  let s := s.ensureOpen
  match data with
  | .undefined => (s, throw "Require data buffer argument!")
  | .value => (s, throw "Data buffer is not a reference!")
  | .reference data =>
    if s.datalength < offset.getD 0 then (s, return false) else
    match offset with
    | none => ({ s with object := s.object.lseek 0 }, return false)
    | some offset =>
      ({ s with
          object := (s.object.lseek offset).write data
          datalength := if s.datalength < offset + data.length then offset + data.length
            else s.datalength
          haswritten := true
          mustupdateetag := true }, return true)

section
variable (sha1_hex : Octets → String)

def emptyTag : String := "00EMPTY00EMPTY00"

def blobUpdateETag (s : Blob) : Blob :=
  if s.metaonly then s else
  let s := s.ensureOpen
  if !s.mustupdateetag then s
  else if !s.haswritten then s
  else if s.datalength = 0 then { s with etag := some emptyTag, mustupdateetag := false }
  else
    let (s, read) := s.blobRead (.reference []) 0 none
    let data := match read with
      | .ok (some data) => data
      | _ => []
    { s with etag := some (sha1_hex data), mustupdateetag := false }

def blobClose (s : Blob) : Blob × Bool :=
  if s.metaonly then ({ s with blobfd := false }, true)
  else if !s.blobfd then (s, false)
  else if s.haswritten then
    let s := s.blobUpdateETag sha1_hex
    ({ s with row := { datalength := s.datalength, etag := s.etag }, blobfd := false }, true)
  else ({ s with blobfd := false }, true)

def blobOpen (s : Blob) : Blob × Bool :=
  if s.blobfd then
    let (s, closed) := s.blobClose sha1_hex
    if !closed then (s, false) else (s.openFd, true)
  else (s.openFd, true)

def getETag (s : Blob) : Blob × Option String :=
  let s := s.ensureOpen.blobUpdateETag sha1_hex
  (s, s.etag)

end
end Blob

inductive Call
  | blobOpen
  | blobWrite (data : Data) (offset : Option Nat)
  | blobRead (data : Data) (offset : Nat) (len : Option Nat)
  | getETag
  | blobClose

section
variable (sha1_hex : Octets → String)

/-- What a call leaves, also where it dies. -/
def Blob.step (s : Blob) : Call → Blob
  | .blobOpen => (s.blobOpen sha1_hex).1
  | .blobWrite data offset => (s.blobWrite data offset).1
  | .blobRead data offset len => (s.blobRead data offset len).1
  | .getETag => (s.getETag sha1_hex).1
  | .blobClose => (s.blobClose sha1_hex).1

def Blob.run (s : Blob) (calls : List Call) : Blob := calls.foldl (Blob.step sha1_hex) s

/-- The call is a `blobWrite` that returns 1. -/
def Blob.Writes (s : Blob) : Call → Prop
  | .blobWrite data offset => (s.blobWrite data offset).2 = .ok true
  | _ => False

def Blob.Wrote (s : Blob) : List Call → Prop
  | [] => False
  | call :: calls => s.Writes call ∨ Blob.Wrote (s.step sha1_hex call) calls

/-- The row is right: the length and the digest of the content, or the marker for an empty blob
that was written. The tag of a blob that was not written stays. -/
structure Stored (start : Row) (written : Prop) (s : Blob) : Prop where
  length : s.row.datalength = s.object.content.length
  digest : s.object.content ≠ [] → s.row.etag = some (sha1_hex s.object.content)
  marker : s.object.content = [] → written → s.row.etag = some Blob.emptyTag
  unwritten : ¬ written → s.row.etag = start.etag

/-- A new handle, for a new blob or for one whose row is right. -/
structure Started (s : Blob) : Prop where
  closed : s.blobfd = false
  length : s.row.datalength = s.object.content.length
  digest : s.object.content ≠ [] → s.row.etag = some (sha1_hex s.object.content)

/-! ### The invariant -/

def tag (content : Octets) : String := if content = [] then Blob.emptyTag else sha1_hex content

/-- A descriptor of the large object is held. -/
def Blob.Live (s : Blob) : Prop := s.blobfd = true ∧ s.metaonly = false

structure Inv (start : Row) (written : Prop) (s : Blob) : Prop where
  stored : (s.Live → s.haswritten = false) → Stored sha1_hex start written s
  length : s.Live → s.datalength = s.object.content.length
  digest : s.Live → s.haswritten = true → s.mustupdateetag = false →
    s.etag = some (tag sha1_hex s.object.content)
  clean : s.Live → s.haswritten = false → s.mustupdateetag = false
  wrote : s.Live → s.haswritten = true → written

end

variable {sha1_hex : Octets → String} {start : Row} {written : Prop} {s : Blob}

theorem Stored.congr {s' : Blob} (hRow : s'.row = s.row)
    (hContent : s'.object.content = s.object.content) (h : Stored sha1_hex start written s) :
    Stored sha1_hex start written s' := by
  obtain ⟨hLength, hDigest, hMarker, hUnwritten⟩ := h
  rw [← hRow, ← hContent] at hLength hDigest hMarker
  rw [← hRow] at hUnwritten
  exact ⟨hLength, hDigest, hMarker, hUnwritten⟩

/-- The offset of the large object does not matter. -/
theorem Inv.lseek {object : LargeObject} (hContent : object.content = s.object.content)
    (h : Inv sha1_hex start written s) : Inv sha1_hex start written { s with object := object } := by
  refine ⟨?_, ?_, ?_, h.clean, h.wrote⟩
  · exact fun hSettled => Stored.congr (s := s) rfl hContent (h.stored hSettled)
  · intro hLive
    rw [hContent]
    exact h.length hLive
  · intro hLive
    rw [hContent]
    exact h.digest hLive

theorem Inv.openFd (hClosed : s.blobfd = false) (h : Inv sha1_hex start written s) :
    Inv sha1_hex start written s.openFd := by
  have hStored := h.stored fun hLive => absurd hLive.1 (by simp [hClosed])
  cases hMeta : s.metaonly with
  | true =>
    have hDead : ¬ s.openFd.Live := by simp [Blob.Live, Blob.openFd, hMeta]
    refine ⟨fun _ => ?_, ?_, ?_, ?_, ?_⟩
    · exact Stored.congr (by simp [Blob.openFd, hMeta]) (by simp [Blob.openFd, hMeta]) hStored
    all_goals exact fun hLive => absurd hLive hDead
  | false =>
    have hWritten : s.openFd.haswritten = false := by simp [Blob.openFd, hMeta]
    refine ⟨fun _ => ?_, fun _ => ?_, ?_, ?_, ?_⟩
    · exact Stored.congr (by simp [Blob.openFd, hMeta]) (by simp [Blob.openFd, hMeta, LargeObject.lseek])
        hStored
    · simp [Blob.openFd, hMeta, LargeObject.lseek, hStored.length]
    · simp [hWritten]
    · simp [Blob.openFd, hMeta]
    · simp [hWritten]

theorem Inv.ensureOpen (h : Inv sha1_hex start written s) :
    Inv sha1_hex start written s.ensureOpen := by
  rw [Blob.ensureOpen]
  split
  · exact h
  · next hClosed => exact h.openFd (eq_false_of_ne_true hClosed)

@[simp] theorem metaonly_ensureOpen (s : Blob) : s.ensureOpen.metaonly = s.metaonly := by
  simp only [Blob.ensureOpen, Blob.openFd]
  split_ifs <;> rfl

theorem live_ensureOpen (hMeta : s.metaonly = false) : s.ensureOpen.Live := by
  refine ⟨?_, by simp [hMeta]⟩
  rw [Blob.ensureOpen]
  split
  · assumption
  · simp [Blob.openFd, hMeta]

theorem ensureOpen_live (hLive : s.Live) : s.ensureOpen = s := by
  rw [Blob.ensureOpen, if_pos hLive.1]

theorem Inv.of_iff {written' : Prop} (hIff : written' ↔ written) (h : Inv sha1_hex start written s) :
    Inv sha1_hex start written' s := by
  rw [propext hIff]
  exact h

theorem Inv.blobRead (data : Data) (offset : Nat) (len : Option Nat)
    (h : Inv sha1_hex start written s) : Inv sha1_hex start written (s.blobRead data offset len).1 := by
  rw [Blob.blobRead]
  split
  · exact h
  · cases data with
    | undefined => exact h.ensureOpen
    | value => exact h.ensureOpen
    | reference buffer =>
      dsimp only
      split
      · exact h.ensureOpen
      · split
        · exact h.ensureOpen
        · exact h.ensureOpen.lseek rfl

theorem Inv.blobWrite (data : Data) (offset : Option Nat) (h : Inv sha1_hex start written s) :
    Inv sha1_hex start (written ∨ (s.blobWrite data offset).2 = .ok true)
      (s.blobWrite data offset).1 := by
  have hFailed : ∀ {s : Blob} {result : Except String Bool}, result ≠ .ok true →
      Inv sha1_hex start written s → Inv sha1_hex start (written ∨ result = .ok true) s :=
    fun hResult hInv => hInv.of_iff (or_iff_left hResult)
  rw [Blob.blobWrite]
  split
  · exact hFailed nofun h
  · next hMeta =>
    have hOpen := h.ensureOpen
    have hLive := live_ensureOpen (eq_false_of_ne_true hMeta)
    cases data with
    | undefined => exact hFailed nofun hOpen
    | value => exact hFailed nofun hOpen
    | reference data =>
      dsimp only
      split
      · exact hFailed nofun hOpen
      · next hOffset =>
        cases offset with
        | none => exact hFailed nofun (hOpen.lseek rfl)
        | some offset =>
          refine ⟨fun hSettled => absurd (hSettled hLive) (by simp), fun _ => ?_, ?_, ?_, ?_⟩
          · have hLength := hOpen.length hLive
            rw [Option.getD_some, hLength] at hOffset
            simp only [LargeObject.write, LargeObject.lseek,
              length_writeAt 0 (Nat.le_of_not_lt hOffset), hLength]
            split_ifs <;> omega
          · exact fun _ _ hUpdated => absurd hUpdated (by simp)
          · exact fun _ hClean => absurd hClean (by simp)
          · exact fun _ _ => .inr rfl

/-- Reading the whole blob gives its content. -/
theorem blobRead_whole (hLive : s.Live) (hLength : s.datalength = s.object.content.length) :
    s.blobRead (.reference []) 0 none =
      ({ s with object := ((s.object.lseek 0).read s.object.content.length).1 },
        .ok (some s.object.content)) := by
  have hMeta : ¬ s.metaonly = true := by simp [hLive.2]
  have hWhole : s.datalength ≤ s.object.content.length := Nat.le_of_eq hLength
  simp only [Blob.blobRead, if_neg hMeta, ensureOpen_live hLive, Option.getD_none, Nat.sub_zero,
    Nat.zero_add, Nat.not_lt_zero, Nat.lt_irrefl, if_false]
  rw [hLength]
  simp [LargeObject.read, LargeObject.lseek]
  rfl

/-- The tag in the handle is brought up to date. -/
theorem blobUpdateETag_written (h : Inv sha1_hex start written s) (hLive : s.Live)
    (hWritten : s.haswritten = true) : ∃ object : LargeObject, object.content = s.object.content ∧
      s.blobUpdateETag sha1_hex =
        { s with object := object, etag := some (tag sha1_hex s.object.content), mustupdateetag := false } := by
  have hLength := h.length hLive
  have hDigest := h.digest hLive hWritten
  have hMeta : ¬ s.metaonly = true := by simp [hLive.2]
  simp only [Blob.blobUpdateETag, if_neg hMeta, ensureOpen_live hLive]
  by_cases hUpdate : s.mustupdateetag = true
  · rw [if_neg (by simp [hUpdate]), if_neg (by simp [hWritten])]
    by_cases hEmpty : s.object.content = []
    · refine ⟨s.object, rfl, ?_⟩
      rw [if_pos (by simp [hLength, hEmpty]), tag, if_pos hEmpty]
    · have hSome : s.datalength ≠ 0 := by
        rw [hLength]
        exact fun hNone => hEmpty (List.length_eq_zero_iff.mp hNone)
      refine ⟨((s.object.lseek 0).read s.object.content.length).1, rfl, ?_⟩
      rw [if_neg hSome, blobRead_whole hLive hLength, tag, if_neg hEmpty]
  · have hUpdated := eq_false_of_ne_true hUpdate
    refine ⟨s.object, rfl, ?_⟩
    rw [if_pos (by simp [hUpdated]), ← hDigest hUpdated, ← hUpdated]

theorem blobUpdateETag_ensureOpen (hMeta : s.metaonly = false) :
    s.blobUpdateETag sha1_hex = s.ensureOpen.blobUpdateETag sha1_hex := by
  have hOwn : ¬ s.metaonly = true := by simp [hMeta]
  simp only [Blob.blobUpdateETag, metaonly_ensureOpen, ensureOpen_live (live_ensureOpen hMeta),
    if_neg hOwn]

theorem Inv.blobUpdateETag (h : Inv sha1_hex start written s) :
    Inv sha1_hex start written (s.blobUpdateETag sha1_hex) := by
  cases hMeta : s.metaonly with
  | true =>
    rw [Blob.blobUpdateETag, if_pos hMeta]
    exact h
  | false =>
    have hOpen := h.ensureOpen
    have hLive := live_ensureOpen hMeta
    rw [blobUpdateETag_ensureOpen hMeta]
    cases hWritten : s.ensureOpen.haswritten with
    | false =>
      have hClean := hOpen.clean hLive hWritten
      simp only [Blob.blobUpdateETag, ensureOpen_live hLive]
      rw [if_neg (by simp [hMeta]), if_pos (by simp [hClean])]
      exact hOpen
    | true =>
      obtain ⟨object, hContent, hUpdated⟩ := blobUpdateETag_written hOpen hLive hWritten
      rw [hUpdated]
      refine ⟨fun hSettled => ?_, fun _ => ?_, fun _ _ _ => ?_, fun _ _ => rfl, fun _ _ => ?_⟩
      · exact absurd (hSettled hLive) (by simp [hWritten])
      · exact (hOpen.length hLive).trans (congrArg _ hContent.symm)
      · rw [hContent]
      · exact hOpen.wrote hLive hWritten

theorem Inv.of_closed (hClosed : s.blobfd = false) (hStored : Stored sha1_hex start written s) :
    Inv sha1_hex start written s := by
  have hDead : ¬ s.Live := fun hLive => absurd hLive.1 (by simp [hClosed])
  refine ⟨fun _ => hStored, ?_, ?_, ?_, ?_⟩
  all_goals exact fun hLive => absurd hLive hDead

/-- Closing writes the row where something was written. -/
theorem Inv.blobClose (h : Inv sha1_hex start written s) :
    (s.blobClose sha1_hex).1.blobfd = false ∧
      Stored sha1_hex start written (s.blobClose sha1_hex).1 := by
  rw [Blob.blobClose]
  split
  · next hMeta =>
    refine ⟨rfl, Stored.congr (s := s) rfl rfl (h.stored fun hLive => ?_)⟩
    exact absurd hMeta (by simp [hLive.2])
  · next hMeta =>
    split
    · next hClosed =>
      rw [Bool.not_eq_true'] at hClosed
      exact ⟨hClosed, h.stored fun hLive => absurd hLive.1 (by simp [hClosed])⟩
    · next hOpen =>
      have hLive : s.Live := ⟨by simpa using hOpen, eq_false_of_ne_true hMeta⟩
      split
      · next hWritten =>
        obtain ⟨object, hContent, hUpdated⟩ := blobUpdateETag_written h hLive hWritten
        rw [hUpdated]
        refine ⟨rfl, ?_, ?_, ?_, ?_⟩
        · exact (h.length hLive).trans (congrArg _ hContent.symm)
        · intro hSome
          rw [hContent] at hSome ⊢
          rw [tag, if_neg hSome]
        · intro hEmpty _
          rw [hContent] at hEmpty
          rw [tag, if_pos hEmpty]
        · exact fun hNever => absurd (h.wrote hLive hWritten) hNever
      · next hClean =>
        exact ⟨rfl, Stored.congr (s := s) rfl rfl (h.stored fun _ => eq_false_of_ne_true hClean)⟩

theorem Inv.blobOpen (h : Inv sha1_hex start written s) :
    Inv sha1_hex start written (s.blobOpen sha1_hex).1 := by
  rw [Blob.blobOpen]
  split
  · obtain ⟨hClosed, hStored⟩ := h.blobClose
    dsimp only
    split
    · exact .of_closed hClosed hStored
    · exact (Inv.of_closed hClosed hStored).openFd hClosed
  · next hClosed => exact h.openFd (eq_false_of_ne_true hClosed)

theorem Inv.step (call : Call) (h : Inv sha1_hex start written s) :
    Inv sha1_hex start (written ∨ s.Writes call) (s.step sha1_hex call) := by
  cases call with
  | blobOpen => exact h.blobOpen.of_iff (or_iff_left not_false)
  | blobWrite data offset => exact h.blobWrite data offset
  | blobRead data offset len => exact (h.blobRead data offset len).of_iff (or_iff_left not_false)
  | getETag => exact h.ensureOpen.blobUpdateETag.of_iff (or_iff_left not_false)
  | blobClose => exact (Inv.of_closed h.blobClose.1 h.blobClose.2).of_iff (or_iff_left not_false)

theorem Inv.run (calls : List Call) (h : Inv sha1_hex start written s) :
    Inv sha1_hex start (written ∨ s.Wrote sha1_hex calls) (s.run sha1_hex calls) := by
  induction calls generalizing s written with
  | nil => exact h.of_iff (or_iff_left not_false)
  | cons call calls ih => exact (ih (h.step call)).of_iff or_assoc.symm

theorem Started.inv (h : Started sha1_hex s) : Inv sha1_hex s.row False s :=
  .of_closed h.closed ⟨h.length, h.digest, fun _ => False.elim, fun _ => rfl⟩

/-- After every `blobClose` the row has the length and the digest of the content. Only the tag
of an empty blob is another one: a marker, or what it was before anything was written. -/
theorem blobClose_stored (sha1_hex : Octets → String) (s : Blob) (hStart : Started sha1_hex s)
    (calls : List Call) :
    Stored sha1_hex s.row (s.Wrote sha1_hex calls) ((s.run sha1_hex calls).blobClose sha1_hex).1 := by
  have hRun := (hStart.inv.run calls).of_iff (or_iff_right not_false).symm
  exact hRun.blobClose.2

/-- What `new` makes without a blob to open. -/
def created : Blob where
  row := { datalength := 0, etag := none }
  object := { content := [], position := 0 }
  metaonly := false

theorem created_started (sha1_hex : Octets → String) : Started sha1_hex created :=
  ⟨rfl, rfl, fun hSome => absurd rfl hSome⟩

/-- The three letters `abc` and their digest. -/
theorem blobClose_stored_abc :
    ((created.run (fun _ => "a9993e364706816aba3e25717850c26c9cd0d89d")
      [.blobWrite (.reference [97, 98, 99]) (some 0)]).blobClose
        fun _ => "a9993e364706816aba3e25717850c26c9cd0d89d").1.row.etag =
      some "a9993e364706816aba3e25717850c26c9cd0d89d" :=
  (blobClose_stored _ created (created_started _)
    [.blobWrite (.reference [97, 98, 99]) (some 0)]).digest (by decide)

/-- A blob that is written with nothing gets the marker. -/
theorem blobClose_empty : ¬ ∀ sha1_hex : Octets → String,
    sha1_hex [] = "da39a3ee5e6b4b0d3255bfef95601890afd80709" → ∀ s, Started sha1_hex s →
      ∀ calls, let closed := ((s.run sha1_hex calls).blobClose sha1_hex).1
        closed.row.datalength = closed.object.content.length ∧
          closed.row.etag = some (sha1_hex closed.object.content) := by
  intro hAll
  have hTag := (hAll (fun _ => "da39a3ee5e6b4b0d3255bfef95601890afd80709") rfl created
    (created_started _) [.blobWrite (.reference []) (some 0)]).2
  exact absurd hTag (by decide)

end PageCamel.Helpers.DataBlobs

import PageCamel.Helpers.DataBlobs

/-!
What the users of a blob see (`Helpers/DataBlobs.pm`): one handle after the other is made for
it, also handles for the row only, and every call gets the answer that a file of octets with a
tag would give. Nothing closes a handle but its user, so a user who has written must.
-/

namespace PageCamel.Helpers.DataBlobs

open Lib

inductive Request
  | call (call : Call)
  | getLength

inductive Answer
  | died (message : String)
  | returned (result : Bool)
  | data (read : Option Octets)
  | etag (etag : Option String)
  | length (length : Nat)

def Answer.of {α : Type} (answer : α → Answer) : Except String α → Answer
  | .ok result => answer result
  | .error message => .died message

/-- Only a close, which `blobOpen` makes of an open handle too, brings what is written to the row. -/
def Request.saves (saved : Bool) : Request → Bool
  | .call (.blobWrite _ _) => false
  | .call .blobClose | .call .blobOpen => true
  | _ => saved

/-- The calls on one handle. It may be left open, but not with a write that is not in the row. -/
structure Session where
  metaonly : Bool
  requests : List Request
  saved : requests.foldl Request.saves true = true

section
variable (sha1_hex : Octets → String)

namespace Blob

def getLength (s : Blob) : Blob × Nat := (s.ensureOpen, s.ensureOpen.datalength)

def serve (s : Blob) : Request → Blob × Answer
  | .call .blobOpen => ((s.blobOpen sha1_hex).1, .returned (s.blobOpen sha1_hex).2)
  | .call (.blobWrite data offset) =>
    ((s.blobWrite data offset).1, .of .returned (s.blobWrite data offset).2)
  | .call (.blobRead data offset len) =>
    ((s.blobRead data offset len).1, .of .data (s.blobRead data offset len).2)
  | .call .getETag => ((s.getETag sha1_hex).1, .etag (s.getETag sha1_hex).2)
  | .call .blobClose => ((s.blobClose sha1_hex).1, .returned (s.blobClose sha1_hex).2)
  | .getLength => (s.getLength.1, .length s.getLength.2)

def answers (s : Blob) : List Request → Blob × List Answer
  | [] => (s, [])
  | request :: requests =>
    let (s, answer) := s.serve sha1_hex request
    let (s, rest) := s.answers requests
    (s, answer :: rest)

/-- `new` for a blob that is there. -/
def reopened (s : Blob) (metaonly : Bool) : Blob where
  row := s.row
  object := s.object.lseek 0
  metaonly := metaonly

def sessions (s : Blob) : List Session → Blob × List (List Answer)
  | [] => (s, [])
  | session :: rest =>
    let (s, answers) := (s.reopened session.metaonly).answers sha1_hex session.requests
    let (s, later) := s.sessions rest
    (s, answers :: later)

end Blob

/-! ### The file -/

structure File where
  content : Octets
  etag : Option String

namespace File

def buffer : Data → Except String Octets
  | .undefined => throw "Require data buffer argument!"
  | .value => throw "Data buffer is not a reference!"
  | .reference data => return data

/-- A write that is done gives the new content its tag. -/
def write (file : File) (data : Octets) : Option Nat → File × Bool
  | none => (file, false)
  | some offset =>
    if offset ≤ file.content.length then
      let content := writeAt 0 file.content offset data
      ({ content := content, etag := some (tag sha1_hex content) }, true)
    else (file, false)

/-- The octets from an offset on, where they are all there. -/
def read (file : File) (offset : Nat) (len : Option Nat) : Option Octets :=
  let len := len.getD (file.content.length - offset)
  if offset ≤ file.content.length ∧ offset + len ≤ file.content.length then
    some ((file.content.drop offset).take len)
  else none

/-- A file that may be open, and the call. -/
def serve (metaonly : Bool) (file : File) (opened : Bool) : Request → File × Bool × Answer
  | .call .blobOpen => (file, true, .returned true)
  | .call (.blobWrite data offset) =>
    if metaonly then (file, opened, .died "Can't write to metaonly blob fh!") else
    match buffer data with
    | .error message => (file, true, .died message)
    | .ok data => ((file.write sha1_hex data offset).1, true,
        .returned (file.write sha1_hex data offset).2)
  | .call (.blobRead data offset len) =>
    if metaonly then (file, opened, .died "Can't read from metaonly blob fh!") else
    (file, true, .of .data ((buffer data).map fun _ => file.read offset len))
  | .call .getETag => (file, true, .etag file.etag)
  | .call .blobClose => (file, false, .returned (metaonly || opened))
  | .getLength => (file, true, .length file.content.length)

def answers (metaonly : Bool) (file : File) (opened : Bool) : List Request → File × List Answer
  | [] => (file, [])
  | request :: requests =>
    let (file, opened, answer) := file.serve sha1_hex metaonly opened request
    let (file, rest) := answers metaonly file opened requests
    (file, answer :: rest)

def sessions (file : File) : List Session → File × List (List Answer)
  | [] => (file, [])
  | session :: rest =>
    let (file, answers) := file.answers sha1_hex session.metaonly false session.requests
    let (file, later) := file.sessions rest
    (file, answers :: later)

end File

/-! ### The blob is the file -/

/-- While a write is not in the row yet, the content has its tag already. -/
structure Refines (metaonly : Bool) (s : Blob) (file : File) (opened : Bool) : Prop where
  kind : s.metaonly = metaonly
  blobfd : s.blobfd = opened
  content : s.object.content = file.content
  row : (s.blobfd = true → s.haswritten = false) →
    s.row = { datalength := file.content.length, etag := file.etag }
  datalength : s.blobfd = true → s.datalength = file.content.length
  etag : s.blobfd = true → s.mustupdateetag = false → s.etag = file.etag
  dirty : s.blobfd = true → s.mustupdateetag = true → s.haswritten = true
  written : s.blobfd = true → s.haswritten = true →
    file.etag = some (tag sha1_hex file.content)
  readonly : s.metaonly = true → s.haswritten = false ∧ s.mustupdateetag = false

end

variable {sha1_hex : Octets → String} {s : Blob} {file : File} {metaonly opened : Bool}

theorem Refines.openFd (h : Refines sha1_hex metaonly s file opened) (hClosed : s.blobfd = false) :
    Refines sha1_hex metaonly s.openFd file true := by
  have hRow := h.row fun hOpen => absurd hOpen (by simp [hClosed])
  obtain rfl := h.kind
  cases hMeta : s.metaonly with
  | true =>
    obtain ⟨hUnwritten, hClean⟩ := h.readonly hMeta
    constructor <;> simp [Blob.openFd, hMeta, hRow, hUnwritten, hClean, h.content]
  | false => constructor <;> simp [Blob.openFd, hMeta, hRow, LargeObject.lseek, h.content]

theorem Refines.ensureOpen (h : Refines sha1_hex metaonly s file opened) :
    Refines sha1_hex metaonly s.ensureOpen file true := by
  rw [Blob.ensureOpen]
  split
  · next hOpen =>
    obtain rfl : opened = true := h.blobfd.symm.trans hOpen
    exact h
  · next hClosed => exact h.openFd (eq_false_of_ne_true hClosed)

theorem Refines.blobRead (data : Data) (offset : Nat) (len : Option Nat)
    (h : Refines sha1_hex false s file opened) :
    Refines sha1_hex false (s.blobRead data offset len).1 file true ∧
      (s.blobRead data offset len).2 = (File.buffer data).map fun _ => file.read offset len := by
  have hOpen := h.ensureOpen
  rw [Blob.blobRead, if_neg (by simp [h.kind])]
  cases data with
  | undefined | value => exact ⟨hOpen, rfl⟩
  | reference buffer =>
    have hLength := hOpen.datalength hOpen.blobfd
    dsimp only [File.buffer]
    rw [hLength, File.read]
    generalize len.getD (file.content.length - offset) = len
    split
    · next hBehind => exact ⟨hOpen, by rw [if_neg (by omega)]; rfl⟩
    · next hStart =>
      split
      · next hBehind => exact ⟨hOpen, by rw [if_neg (by omega)]; rfl⟩
      · next hEnd =>
        refine ⟨by rw [← hLength]; exact { hOpen with }, ?_⟩
        have hRead : len = ((file.content.drop offset).take len).length := by
          rw [List.length_take, List.length_drop]
          omega
        simp only [LargeObject.read, LargeObject.lseek, hOpen.content]
        rw [if_neg (not_not.mpr hRead), if_pos ⟨Nat.le_of_not_lt hStart, Nat.le_of_not_lt hEnd⟩]
        rfl

theorem Refines.write (data : Octets) (offset : Option Nat) (h : Refines sha1_hex false s file opened) :
    Refines sha1_hex false (s.blobWrite (.reference data) offset).1 (file.write sha1_hex data offset).1
        true ∧
      (s.blobWrite (.reference data) offset).2 = .ok (file.write sha1_hex data offset).2 := by
  have hOpen := h.ensureOpen
  have hLength := hOpen.datalength hOpen.blobfd
  rw [Blob.blobWrite, if_neg (by simp [h.kind])]
  cases offset with
  | none =>
    dsimp only [File.write, Option.getD_none]
    rw [if_neg (Nat.not_lt_zero _)]
    exact ⟨{ hOpen with }, rfl⟩
  | some offset =>
    dsimp only [File.write, Option.getD_some]
    by_cases hFits : offset ≤ file.content.length
    · rw [hLength, if_neg (Nat.not_lt.mpr hFits), if_pos hFits]
      refine ⟨?_, rfl⟩
      constructor
      all_goals simp [hOpen.blobfd, LargeObject.write, LargeObject.lseek, hOpen.content,
        length_writeAt 0 hFits, h.kind]
      split_ifs <;> omega
    · rw [if_pos (by omega), if_neg hFits]
      exact ⟨hOpen, rfl⟩

/-- Where the tag in the handle is not the one of the file, the content is read again. -/
theorem Refines.blobUpdateETag (h : Refines sha1_hex metaonly s file true) :
    Refines sha1_hex metaonly (s.blobUpdateETag sha1_hex) file true ∧
      (s.blobUpdateETag sha1_hex).etag = file.etag := by
  have hOpened : s.ensureOpen = s := by rw [Blob.ensureOpen, if_pos h.blobfd]
  rw [Blob.blobUpdateETag]
  split
  · next hMeta => exact ⟨h, h.etag h.blobfd (h.readonly hMeta).2⟩
  · next hMeta =>
    rw [hOpened]
    by_cases hUpdate : s.mustupdateetag = true
    · have hWritten := h.dirty h.blobfd hUpdate
      have hTag := h.written h.blobfd hWritten
      have hLength := h.datalength h.blobfd
      dsimp only
      rw [if_neg (by simp [hUpdate]), if_neg (by simp [hWritten])]
      have hDone : ∀ {object : LargeObject} {digest : String}, object.content = s.object.content →
          digest = tag sha1_hex file.content →
          Refines sha1_hex metaonly { s with object := object, etag := some digest, mustupdateetag := false }
            file true := by
        rintro object digest hContent rfl
        constructor
        all_goals simp [h.kind, h.blobfd, hContent, h.content, hLength, hWritten, hTag]
        simpa [h.kind] using hMeta
      split
      · next hEmpty =>
        have hNone : file.content = [] := List.eq_nil_of_length_eq_zero (hLength.symm.trans hEmpty)
        have hMarker : Blob.emptyTag = tag sha1_hex file.content := by rw [tag, if_pos hNone]
        exact ⟨hDone rfl hMarker, by rw [hTag, hMarker]⟩
      · next hSome =>
        have hLive : s.Live := ⟨h.blobfd, eq_false_of_ne_true hMeta⟩
        have hDigest : sha1_hex s.object.content = tag sha1_hex file.content := by
          rw [h.content, tag, if_neg]
          rintro hNone
          exact hSome (by rw [hLength, hNone]; rfl)
        rw [blobRead_whole hLive (by rw [hLength, h.content])]
        exact ⟨hDone rfl hDigest, by rw [hTag]; exact congrArg some hDigest⟩
    · have hClean := eq_false_of_ne_true hUpdate
      rw [if_pos (by simp [hClean])]
      exact ⟨h, h.etag h.blobfd hClean⟩

theorem Refines.blobClose (h : Refines sha1_hex metaonly s file opened) :
    Refines sha1_hex metaonly (s.blobClose sha1_hex).1 file false ∧
      (s.blobClose sha1_hex).2 = (metaonly || opened) := by
  obtain rfl := h.kind
  rw [Blob.blobClose]
  split
  · next hMeta =>
    have hRow := h.row fun _ => (h.readonly hMeta).1
    refine ⟨?_, by rw [hMeta]; rfl⟩
    constructor <;> simp [h.content, hRow, h.readonly hMeta]
  · next hMeta =>
    split
    · next hClosed =>
      obtain rfl : opened = false := h.blobfd.symm.trans (by simpa using hClosed)
      exact ⟨h, by simp [hMeta]⟩
    · next hOpen =>
      obtain rfl : opened = true := h.blobfd.symm.trans (by simpa using hOpen)
      refine ⟨?_, by split <;> simp⟩
      split
      · next hWritten =>
        obtain ⟨hUpdated, hTag⟩ := h.blobUpdateETag
        have hLength := hUpdated.datalength hUpdated.blobfd
        constructor
        all_goals simp [hUpdated.kind, hUpdated.content, hLength, hTag, hMeta]
      · next hClean =>
        have hRow := h.row fun _ => eq_false_of_ne_true hClean
        constructor <;> simp [h.content, hRow, hMeta]

theorem Refines.blobOpen (h : Refines sha1_hex metaonly s file opened) :
    Refines sha1_hex metaonly (s.blobOpen sha1_hex).1 file true ∧ (s.blobOpen sha1_hex).2 = true := by
  rw [Blob.blobOpen]
  split
  · next hOpen =>
    obtain rfl : opened = true := h.blobfd.symm.trans hOpen
    obtain ⟨hClosed, hResult⟩ := h.blobClose
    rw [Bool.or_true] at hResult
    dsimp only
    rw [hResult, Bool.not_true, if_neg Bool.false_ne_true]
    exact ⟨hClosed.openFd hClosed.blobfd, rfl⟩
  · next hClosed => exact ⟨h.openFd (eq_false_of_ne_true hClosed), rfl⟩

/-- One call: the answer of the file, and the handle is still the file. -/
theorem Refines.serve (request : Request) (h : Refines sha1_hex metaonly s file opened) :
    let (after, opened, answer) := file.serve sha1_hex metaonly opened request
    Refines sha1_hex metaonly (s.serve sha1_hex request).1 after opened ∧
      (s.serve sha1_hex request).2 = answer := by
  have hOpen := h.ensureOpen
  cases request with
  | getLength => exact ⟨hOpen, congrArg Answer.length (hOpen.datalength hOpen.blobfd)⟩
  | call call =>
    cases call with
    | blobOpen => exact ⟨h.blobOpen.1, congrArg Answer.returned h.blobOpen.2⟩
    | getETag => exact ⟨hOpen.blobUpdateETag.1, congrArg Answer.etag hOpen.blobUpdateETag.2⟩
    | blobClose => exact ⟨h.blobClose.1, congrArg Answer.returned h.blobClose.2⟩
    | blobRead data offset len =>
      cases metaonly with
      | true =>
        rw [Blob.serve, Blob.blobRead, if_pos h.kind]
        exact ⟨h, rfl⟩
      | false =>
        obtain ⟨hAfter, hRead⟩ := h.blobRead data offset len
        exact ⟨hAfter, congrArg (Answer.of .data) hRead⟩
    | blobWrite data offset =>
      cases metaonly with
      | true =>
        rw [Blob.serve, Blob.blobWrite, if_pos h.kind]
        exact ⟨h, rfl⟩
      | false =>
        cases data with
        | undefined | value =>
          rw [Blob.serve, Blob.blobWrite, if_neg (by simp [h.kind])]
          exact ⟨hOpen, rfl⟩
        | reference data =>
          obtain ⟨hAfter, hWrite⟩ := h.write data offset
          exact ⟨hAfter, congrArg (Answer.of .returned) hWrite⟩

/-- Nothing is written that is not in the row. -/
def Blob.Clean (s : Blob) : Prop := s.blobfd = true → s.haswritten = false

theorem haswritten_openFd (hReadonly : s.metaonly = true → s.haswritten = false) :
    s.openFd.haswritten = false := by
  rw [Blob.openFd]
  split
  · next hMeta => exact hReadonly hMeta
  · rfl

theorem Refines.haswritten_ensureOpen (h : Refines sha1_hex metaonly s file opened)
    (hClean : s.Clean) : s.ensureOpen.haswritten = false := by
  rw [Blob.ensureOpen]
  split
  · next hOpen => exact hClean hOpen
  · exact haswritten_openFd fun hMeta => (h.readonly hMeta).1

theorem haswritten_blobRead (hMeta : s.metaonly = false) (data : Data) (offset : Nat)
    (len : Option Nat) : (s.blobRead data offset len).1.haswritten = s.ensureOpen.haswritten := by
  rw [Blob.blobRead, if_neg (by simp [hMeta])]
  cases data with
  | undefined | value => rfl
  | reference _ =>
    dsimp only
    split_ifs <;> rfl

theorem haswritten_blobUpdateETag (s : Blob) :
    (s.ensureOpen.blobUpdateETag sha1_hex).haswritten = s.ensureOpen.haswritten := by
  have hOpened : s.ensureOpen.ensureOpen = s.ensureOpen := by
    rw [Blob.ensureOpen, if_pos]
    rw [Blob.ensureOpen]
    split
    · assumption
    · rw [Blob.openFd]
      split <;> rfl
  rw [Blob.blobUpdateETag]
  split
  · rfl
  · next hMeta =>
    have hRead := haswritten_blobRead (eq_false_of_ne_true hMeta) (.reference []) 0 none
    rw [hOpened] at hRead ⊢
    dsimp only
    split_ifs
    · rfl
    · rfl
    · rfl
    · exact hRead

/-- After each call all is saved, if the request saves it or it has been before. -/
theorem Refines.clean_serve {request : Request} (h : Refines sha1_hex metaonly s file opened)
    {saved : Bool} (hClean : saved = true → s.Clean) (hSaves : request.saves saved = true) :
    (s.serve sha1_hex request).1.Clean := by
  cases request with
  | getLength => exact fun _ => h.haswritten_ensureOpen (hClean hSaves)
  | call call =>
    cases call with
    | blobWrite data offset => cases hSaves
    | getETag =>
      exact fun _ => (haswritten_blobUpdateETag s).trans (h.haswritten_ensureOpen (hClean hSaves))
    | blobRead data offset len =>
      cases hMeta : s.metaonly with
      | true =>
        rw [Blob.serve, Blob.blobRead, if_pos hMeta]
        exact hClean hSaves
      | false =>
        exact fun _ => (haswritten_blobRead hMeta data offset len).trans
          (h.haswritten_ensureOpen (hClean hSaves))
    | blobClose => exact fun hOpen => absurd (h.blobClose.1.blobfd.symm.trans hOpen) Bool.false_ne_true
    | blobOpen =>
      rw [Blob.serve, Blob.blobOpen]
      split
      · next hOpen =>
        obtain rfl : opened = true := h.blobfd.symm.trans hOpen
        obtain ⟨hAfter, hResult⟩ := h.blobClose
        rw [Bool.or_true] at hResult
        dsimp only
        rw [hResult, Bool.not_true, if_neg Bool.false_ne_true]
        exact fun _ => haswritten_openFd fun hMeta => (hAfter.readonly hMeta).1
      · exact fun _ => haswritten_openFd fun hMeta => (h.readonly hMeta).1

theorem Refines.answers (requests : List Request) (h : Refines sha1_hex metaonly s file opened)
    {saved : Bool} (hClean : saved = true → s.Clean)
    (hSaved : requests.foldl Request.saves saved = true) :
    (∃ open', Refines sha1_hex metaonly (s.answers sha1_hex requests).1
        (file.answers sha1_hex metaonly opened requests).1 open') ∧
      (s.answers sha1_hex requests).1.Clean ∧
      (s.answers sha1_hex requests).2 = (file.answers sha1_hex metaonly opened requests).2 := by
  induction requests generalizing s file opened saved with
  | nil => exact ⟨⟨opened, h⟩, hClean hSaved, rfl⟩
  | cons request requests ih =>
    obtain ⟨hAfter, hAnswer⟩ := h.serve request
    obtain ⟨hEnd, hStill, hRest⟩ := ih hAfter (fun hSaves => h.clean_serve hClean hSaves) hSaved
    exact ⟨hEnd, hStill, congrArg₂ List.cons hAnswer hRest⟩

/-- A new handle only looks at the row and at the content. -/
theorem refines_reopened (metaonly : Bool) (hContent : s.object.content = file.content)
    (hRow : s.row = { datalength := file.content.length, etag := file.etag }) :
    Refines sha1_hex metaonly (s.reopened metaonly) file false := by
  constructor <;> simp [Blob.reopened, LargeObject.lseek, hContent, hRow]

theorem sessions_eq (sessions : List Session) (hContent : s.object.content = file.content)
    (hRow : s.row = { datalength := file.content.length, etag := file.etag }) :
    (s.sessions sha1_hex sessions).2 = (file.sessions sha1_hex sessions).2 := by
  induction sessions generalizing s file with
  | nil => rfl
  | cons session rest ih =>
    have hStart : Refines sha1_hex session.metaonly (s.reopened session.metaonly) file false :=
      refines_reopened session.metaonly hContent hRow
    have hNew : true = true → (s.reopened session.metaonly).Clean := fun _ _ => rfl
    obtain ⟨⟨_, hEnd⟩, hClean, hAnswers⟩ := hStart.answers session.requests hNew session.saved
    exact congrArg₂ List.cons hAnswers (ih hEnd.content (hEnd.row hClean))

/-- Handles that are made for a blob one after the other, whatever is called on them, give the
answers of a file of octets: what is read is what was written, across handles, and the length and
the tag are those of the content. -/
theorem sessions_answers (sha1_hex : Octets → String) (s : Blob)
    (hLength : s.row.datalength = s.object.content.length) (sessions : List Session) :
    (s.sessions sha1_hex sessions).2 =
      (File.sessions sha1_hex { content := s.object.content, etag := s.row.etag } sessions).2 :=
  sessions_eq sessions rfl (by rw [← hLength])

/-- A second handle reads the end of what the first one wrote and closed, and is left open; a third
one sees the row only. -/
theorem sessions_answers_abc :
    (created.sessions (fun _ => "a9993e364706816aba3e25717850c26c9cd0d89d")
      [⟨false, [.call (.blobWrite (.reference [97, 98]) (some 0)),
          .call (.blobWrite (.reference [99]) (some 3)),
          .call (.blobWrite (.reference [99]) (some 2)), .call .blobClose], rfl⟩,
        ⟨false, [.call (.blobRead (.reference []) 1 none)], rfl⟩,
        ⟨true, [.getLength, .call .getETag], rfl⟩]).2 =
      [[.returned true, .returned false, .returned true, .returned true], [.data (some [98, 99])],
        [.length 3, .etag (some "a9993e364706816aba3e25717850c26c9cd0d89d")]] :=
  sessions_answers (fun _ => "a9993e364706816aba3e25717850c26c9cd0d89d") created rfl _

end PageCamel.Helpers.DataBlobs

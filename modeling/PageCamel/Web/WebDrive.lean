import PageCamel.Lib.FileChunks
import PageCamel.Lib.Octets
import PageCamel.Lib.Runs
import Mathlib.Data.List.Chain
import Mathlib.Data.List.DropRight
import Mathlib.Logic.Function.Basic

/-!
Uploads of one `WebDrive` connection: a request lists the hashes of the chunks of a file, the
server works out which of them the local file lacks, and the client sends these one by one.
-/

namespace PageCamel.Web
open PageCamel.Lib

abbrev Text := List Char

/-! ### Requests -/

/-- The setting `chunk_size` has a minimum; `sha256_hex` is another package's; `directory` says
which names in the base path cannot be opened as files. -/
structure DriveSettings where
  chunkSize : Nat
  chunkSize_pos : 0 < chunkSize
  sha256Hex : Octets → Text
  directory : Text → Bool

structure Upfile where
  remotename : Text
  remotesize : Nat
  /-- The name below the base path. -/
  localname : Text
  remotehashes : List Text
  missingchunks : List Nat
  deriving DecidableEq, Repr

/-- `clean_fname`: the part after the last slash or backslash, without unsafe characters. -/
def cleanFname (filename : Text) : Text :=
  let slashed := filename.map fun c => if c = Char.ofNat 92 then '/' else c
  let name := (slashed.reverse.takeWhile (· ≠ '/')).reverse
  (name.map fun c => if c = ' ' then '_' else c).filter fun c =>
    c.isAlphanum || c = '_' || c = '.' || c = '-'

/-- `split/\,/`: empty fields at the end are dropped. -/
def splitHashes (hashes : Text) : List Text := (hashes.splitOn ',').rdropWhile List.isEmpty

/-- The hashes of the chunks of a local file, if there is one. -/
def localHashes (cfg : DriveSettings) (file : Option Octets) : List Text :=
  match file with
  | none => []
  | some content => (readChunks cfg.chunkSize content.length content).map cfg.sha256Hex

/-- The local file, cut off at the announced size. -/
def truncated (filesize : Nat) (file : Option Octets) : Option Octets := file.map (List.take filesize)

/-- `%updata`, for the local files as they are. -/
def updata (cfg : DriveSettings) (files : Text → Option Octets) (filename : Text) (filesize : Nat)
    (hashes : Text) : Upfile :=
  let localname := cleanFname filename
  let remotehashes := splitHashes hashes
  let localhashes := localHashes cfg (truncated filesize (files localname))
  { remotename := filename, remotesize := filesize, localname, remotehashes,
    missingchunks := (List.range remotehashes.length).filter fun k =>
      localhashes[k]? ≠ remotehashes[k]? }

/-! ### The connection -/

/-- `done` is the history of the `FILEDONE` messages: what was requested, and the local file
at that moment. -/
structure WebDrive where
  files : Text → Option Octets
  upfiles : List Upfile := []
  waitingforchunk : Bool := false
  closed : Bool := false
  done : List (Upfile × Option Octets) := []

inductive DriveEvent where
  | uploadRequest (filename : Text) (filesize : Nat) (hashes : Text)
  /-- The binary message `[chunk_num:4][fname_len:2][fname:N][data:...]`. -/
  | chunk (chunkNum : Nat) (filename chunkdata : Octets)
  | deleteFile (filename : Text)
  | cyclic
  deriving DecidableEq, Repr

/-- A handler that returns 0 or croaks. -/
def WebDrive.close (s : WebDrive) : WebDrive := { s with upfiles := [], closed := true }

def WebDrive.uploadRequest (cfg : DriveSettings) (s : WebDrive) (filename : Text) (filesize : Nat)
    (hashes : Text) : WebDrive :=
  let upfile := updata cfg s.files filename filesize hashes
  let file := truncated filesize (s.files upfile.localname)
  let s := { s with files := Function.update s.files upfile.localname file }
  if upfile.missingchunks ≠ [] then { s with upfiles := s.upfiles ++ [upfile] }
  else { s with done := s.done ++ [(upfile, file)] }

/-- The file after `seek` and `print`: only data that is written moves its end. -/
def putChunk (content : Octets) (seekto : Nat) (chunkdata : Octets) : Octets :=
  if chunkdata = [] then content else writeAt 0 content seekto chunkdata

/-- The write, and what follows it. -/
def WebDrive.store (cfg : DriveSettings) (s : WebDrive) (upfile : Upfile) (rest : List Upfile)
    (chunkNum : Nat) (content chunkdata : Octets) : WebDrive :=
  let file := some (putChunk content (chunkNum * cfg.chunkSize) chunkdata)
  let upfile := { upfile with missingchunks := upfile.missingchunks.tail }
  let s := { s with
    files := Function.update s.files upfile.localname file, waitingforchunk := false }
  if upfile.missingchunks = [] then { s with upfiles := rest, done := s.done ++ [(upfile, file)] }
  else { s with upfiles := upfile :: rest }

/-- The message is for the first missing chunk of the first upload. -/
def Upfile.Expects (upfile : Upfile) (chunkNum : Nat) (filename : Octets) : Prop :=
  filename.map (fun b => Char.ofNat b.toNat) = upfile.remotename ∧
    upfile.missingchunks.head? = some chunkNum

instance (upfile : Upfile) (chunkNum : Nat) (filename : Octets) :
    Decidable (upfile.Expects chunkNum filename) := instDecidableAnd

/-- `wshandlebinarymessage`. -/
def WebDrive.binaryMessage (cfg : DriveSettings) (s : WebDrive) (chunkNum : Nat)
    (filename chunkdata : Octets) : WebDrive :=
  match s.upfiles with
  | [] => s.close
  | upfile :: rest =>
      if upfile.Expects chunkNum filename then
        match s.files upfile.localname with
        | some content => s.store cfg upfile rest chunkNum content chunkdata
        | none =>
            -- A new file must begin with the first chunk.
            if chunkNum * cfg.chunkSize ≠ 0 ∨ cfg.directory upfile.localname then s.close
            else s.store cfg upfile rest chunkNum [] chunkdata
      else s.close

def WebDrive.step (cfg : DriveSettings) (s : WebDrive) (event : DriveEvent) : WebDrive :=
  if s.closed then s
  else
    match event with
    | .uploadRequest filename filesize hashes => s.uploadRequest cfg filename filesize hashes
    | .chunk chunkNum filename chunkdata => s.binaryMessage cfg chunkNum filename chunkdata
    | .deleteFile filename => { s with files := Function.update s.files filename none }
    | .cyclic => if s.upfiles = [] then s else { s with waitingforchunk := true }

/-! ### What a finished upload promises -/

/-- The local file has the announced size, and each of its chunks the announced hash. -/
def Upfile.Complete (cfg : DriveSettings) (upfile : Upfile) (file : Option Octets) : Prop :=
  ∃ content, file = some content ∧ content.length = upfile.remotesize ∧
    ∀ k, k * cfg.chunkSize < content.length →
      upfile.remotehashes[k]? = some (cfg.sha256Hex (fileChunk cfg.chunkSize content k))

/-- The uploads in the queue that go to one local file. -/
def WebDrive.queue (s : WebDrive) (localname : Text) : List Upfile :=
  s.upfiles.filter fun upfile => upfile.localname = localname

/-- The chunks the upload counts as present. -/
def Upfile.Has (upfile : Upfile) (k : Nat) : Prop :=
  k < upfile.remotehashes.length ∧ k ∉ upfile.missingchunks

/-- The later upload is at least as long, and the chunks it counts as present are chunks of
the earlier one. -/
structure Upfile.Follows (cfg : DriveSettings) (earlier later : Upfile) : Prop where
  size : earlier.remotesize ≤ later.remotesize
  hash : ∀ k, later.Has k → earlier.remotehashes[k]? = later.remotehashes[k]?
  length : ∀ k, later.Has k → chunkLength cfg.chunkSize earlier.remotesize k =
    chunkLength cfg.chunkSize later.remotesize k

/-- The data of a chunk has the hash that was announced for it. -/
def DriveEvent.Genuine (cfg : DriveSettings) (s : WebDrive) : DriveEvent → Prop
  | .chunk chunkNum filename chunkdata =>
      ∀ upfile ∈ s.upfiles.head?, upfile.Expects chunkNum filename →
        upfile.remotehashes[chunkNum]? = some (cfg.sha256Hex chunkdata)
  | _ => True

/-- A request announces at least as many hashes as a file of its size has chunks, and a local
chunk with an announced hash has the length of the chunk. A request that is done at once has a
local file, and does not cut off what a queued upload of that file has. A request that is queued
follows the last one for the same local file. A chunk has the length of its place, which is
nothing where the file has ended. A local file is not deleted when a queued upload has chunks of
it. -/
def DriveEvent.Undisturbed (cfg : DriveSettings) (s : WebDrive) : DriveEvent → Prop
  | .uploadRequest filename filesize hashes =>
      let upfile := updata cfg s.files filename filesize hashes
      let file := s.files upfile.localname
      filesize ≤ upfile.remotehashes.length * cfg.chunkSize ∧
      (∀ k, upfile.Has k → ∀ content ∈ truncated filesize file,
        (fileChunk cfg.chunkSize content k).length = chunkLength cfg.chunkSize filesize k) ∧
      (upfile.missingchunks = [] → (filesize = 0 → file ≠ none) ∧
        ∀ first ∈ (s.queue upfile.localname).head?, ∀ k, first.Has k → ∀ content ∈ file,
          fileChunk cfg.chunkSize (content.take filesize) k = fileChunk cfg.chunkSize content k) ∧
      (upfile.missingchunks ≠ [] →
        ∀ last ∈ (s.queue upfile.localname).getLast?, last.Follows cfg upfile)
  | .chunk chunkNum filename chunkdata =>
      ∀ upfile ∈ s.upfiles.head?, upfile.Expects chunkNum filename →
        chunkdata.length = chunkLength cfg.chunkSize upfile.remotesize chunkNum
  | .deleteFile filename =>
      s.files filename ≠ none → ∀ first ∈ (s.queue filename).head?, ∀ k, ¬ first.Has k
  | .cyclic => True

/-- A chunk that is there as announced. -/
def Upfile.ChunkRight (cfg : DriveSettings) (upfile : Upfile) (content : Octets) (k : Nat) : Prop :=
  upfile.remotehashes[k]? = some (cfg.sha256Hex (fileChunk cfg.chunkSize content k)) ∧
    (fileChunk cfg.chunkSize content k).length = chunkLength cfg.chunkSize upfile.remotesize k

/-- The local file has the chunks that the upload counts as present, and is not too long. -/
structure Upfile.Ready (cfg : DriveSettings) (upfile : Upfile) (file : Option Octets) : Prop where
  present : ∀ k, upfile.Has k → ∃ content, file = some content ∧ upfile.ChunkRight cfg content k
  short : ∀ content ∈ file, content.length ≤ upfile.remotesize

structure Upfile.Sound (cfg : DriveSettings) (upfile : Upfile) : Prop where
  count : upfile.remotesize ≤ upfile.remotehashes.length * cfg.chunkSize
  missing : upfile.missingchunks ≠ []
  ascending : upfile.missingchunks.Pairwise (· < ·)
  bounded : ∀ k ∈ upfile.missingchunks, k < upfile.remotehashes.length

structure WebDrive.Inv (cfg : DriveSettings) (s : WebDrive) : Prop where
  sound : ∀ upfile ∈ s.upfiles, upfile.Sound cfg
  ready : ∀ localname, ∀ first ∈ (s.queue localname).head?, first.Ready cfg (s.files localname)
  chain : ∀ localname, (s.queue localname).IsChain (Upfile.Follows cfg)
  done : ∀ entry ∈ s.done, entry.1.Complete cfg entry.2

variable {cfg : DriveSettings} {s : WebDrive}

/-! ### Local files -/

theorem getElem?_localHashes (content : Octets) (k : Nat) :
    (localHashes cfg (some content))[k]? = if k * cfg.chunkSize < content.length then
      some (cfg.sha256Hex (fileChunk cfg.chunkSize content k)) else none := by
  rw [localHashes, List.getElem?_map,
    getElem?_readChunks cfg.chunkSize_pos k _ content (Nat.le_refl _)]
  split <;> rfl

theorem localHashes_prefix {content : Octets} {hashes : List Text} :
    localHashes cfg (some content) <+: hashes ↔ ∀ k, k * cfg.chunkSize < content.length →
      hashes[k]? = some (cfg.sha256Hex (fileChunk cfg.chunkSize content k)) := by
  rw [List.prefix_iff_getElem?]
  constructor
  · intro hPrefix k hIn
    have hHash := @getElem?_localHashes cfg content k
    rw [if_pos hIn] at hHash
    obtain ⟨hk, hGet⟩ := List.getElem?_eq_some_iff.mp hHash
    rw [hPrefix k hk, hGet]
  · intro hAll k hk
    have hHash := (List.getElem?_eq_getElem hk).symm.trans (getElem?_localHashes content k)
    split at hHash
    · next hIn => rw [hAll k hIn, Option.some.inj hHash]
    · cases hHash

/-- A file with all chunks as announced and no more is the announced file. -/
theorem complete_of_chunks {upfile : Upfile} {content : Octets}
    (hCount : upfile.remotesize ≤ upfile.remotehashes.length * cfg.chunkSize)
    (hShort : content.length ≤ upfile.remotesize)
    (hRight : ∀ k < upfile.remotehashes.length, upfile.ChunkRight cfg content k) :
    upfile.Complete cfg (some content) := by
  refine ⟨content, rfl, length_of_chunks hCount hShort fun k hk => (hRight k hk).2, fun k hIn => ?_⟩
  have hk : k < upfile.remotehashes.length := by
    by_contra hOut
    have hPast := Nat.mul_le_mul_right cfg.chunkSize (Nat.le_of_not_lt hOut)
    omega
  exact (hRight k hk).1

/-- What a request counts as present has the announced hash. -/
theorem updata_has {files : Text → Option Octets} {filename : Text} {filesize : Nat}
    {hashes : Text} {k : Nat} (hHas : (updata cfg files filename filesize hashes).Has k) :
    ∃ content, truncated filesize (files (cleanFname filename)) = some content ∧
      (updata cfg files filename filesize hashes).remotehashes[k]? =
        some (cfg.sha256Hex (fileChunk cfg.chunkSize content k)) := by
  obtain ⟨hk, hPresent⟩ := hHas
  have hSame : (localHashes cfg (truncated filesize (files (cleanFname filename))))[k]? =
      (updata cfg files filename filesize hashes).remotehashes[k]? := by
    by_contra hNe
    exact hPresent (List.mem_filter.mpr ⟨List.mem_range.mpr hk, decide_eq_true hNe⟩)
  have hSome := List.getElem?_eq_getElem hk
  cases hFile : truncated filesize (files (cleanFname filename)) with
  | none =>
      rw [hFile, hSome] at hSame
      cases hSame
  | some content =>
      refine ⟨content, rfl, ?_⟩
      rw [hFile, getElem?_localHashes] at hSame
      split at hSame
      · exact hSame.symm
      · rw [hSome] at hSame
        cases hSame

theorem updata_missing (files : Text → Option Octets) (filename : Text) (filesize : Nat)
    (hashes : Text) :
    (updata cfg files filename filesize hashes).missingchunks.Pairwise (· < ·) ∧
      ∀ k ∈ (updata cfg files filename filesize hashes).missingchunks,
        k < (updata cfg files filename filesize hashes).remotehashes.length :=
  ⟨List.Pairwise.filter _ List.pairwise_lt_range,
    fun _ hk => List.mem_range.mp (List.mem_filter.mp hk).1⟩

/-! ### The queue of one local file -/

theorem queue_append (s : WebDrive) (upfile : Upfile) (localname : Text) :
    WebDrive.queue { s with upfiles := s.upfiles ++ [upfile] } localname =
      s.queue localname ++ if upfile.localname = localname then [upfile] else [] := by
  simp only [WebDrive.queue, List.filter_append, List.filter_singleton]
  split <;> simp_all

/-- Sizes do not go down along the queue of a local file. -/
theorem first_size_le_last {upfiles : List Upfile} (hChain : upfiles.IsChain (Upfile.Follows cfg))
    {last : Upfile} (hLast : last ∈ upfiles.getLast?) :
    ∀ first ∈ upfiles.head?, first.remotesize ≤ last.remotesize := by
  induction upfiles with
  | nil => exact fun _ hFirst => by cases hFirst
  | cons upfile upfiles ih =>
      intro first hFirst
      obtain rfl : upfile = first := by simpa using hFirst
      cases upfiles with
      | nil =>
          obtain rfl : upfile = last := by simpa using hLast
          exact Nat.le_refl _
      | cons next upfiles =>
          have hNext := List.isChain_cons_cons.mp hChain
          exact Nat.le_trans hNext.1.size (ih hNext.2 (by simpa using hLast) next rfl)

/-- A chunk that an upload has is right, for the announcement of a request. -/
theorem updata_right {files : Text → Option Octets} {filename : Text} {filesize : Nat}
    {hashes : Text} {k : Nat} (hHas : (updata cfg files filename filesize hashes).Has k)
    (hLength : ∀ content ∈ truncated filesize (files (cleanFname filename)),
      (fileChunk cfg.chunkSize content k).length = chunkLength cfg.chunkSize filesize k) :
    ∃ content, truncated filesize (files (cleanFname filename)) = some content ∧
      (updata cfg files filename filesize hashes).ChunkRight cfg content k := by
  obtain ⟨content, hFile, hHash⟩ := updata_has hHas
  exact ⟨content, hFile, hHash, hLength content hFile⟩

theorem truncated_short {filesize : Nat} {file : Option Octets} :
    ∀ content ∈ truncated filesize file, content.length ≤ filesize := by
  intro content hMem
  obtain ⟨whole, _, rfl⟩ := Option.map_eq_some_iff.mp hMem
  exact List.length_take_le _ _

/-- A request whose chunks are all there is for a complete file. -/
theorem updata_complete {files : Text → Option Octets} {filename : Text} {filesize : Nat}
    {hashes : Text}
    (hCount : filesize ≤
      (updata cfg files filename filesize hashes).remotehashes.length * cfg.chunkSize)
    (hLength : ∀ k, (updata cfg files filename filesize hashes).Has k →
      ∀ content ∈ truncated filesize (files (cleanFname filename)),
        (fileChunk cfg.chunkSize content k).length = chunkLength cfg.chunkSize filesize k)
    (hNone : (updata cfg files filename filesize hashes).missingchunks = [])
    (hExists : filesize = 0 → files (cleanFname filename) ≠ none) :
    (updata cfg files filename filesize hashes).Complete cfg
      (truncated filesize (files (cleanFname filename))) := by
  have hHas (k : Nat) (hk : k < (updata cfg files filename filesize hashes).remotehashes.length) :
      (updata cfg files filename filesize hashes).Has k := ⟨hk, hNone ▸ List.not_mem_nil⟩
  cases hFile : truncated filesize (files (cleanFname filename)) with
  | none =>
      have hMissing : files (cleanFname filename) = none := Option.map_eq_none_iff.mp hFile
      have hPositive : filesize ≠ 0 := fun hZero => hExists hZero hMissing
      have hSome : 0 < (updata cfg files filename filesize hashes).remotehashes.length := by
        refine Nat.pos_of_ne_zero fun hZero => hPositive ?_
        rw [hZero] at hCount
        omega
      obtain ⟨content, hContent, _⟩ := updata_has (hHas 0 hSome)
      rw [hFile] at hContent
      cases hContent
  | some content =>
      refine complete_of_chunks hCount (truncated_short content hFile) fun k hk => ?_
      obtain ⟨content', hContent, hRight⟩ := updata_right (hHas k hk) (hLength k (hHas k hk))
      obtain rfl : content = content' := Option.some.inj (hFile.symm.trans hContent)
      exact hRight

/-- Cutting a file off behind the chunks that an upload has. -/
theorem Upfile.Ready.truncated {upfile : Upfile} {file : Option Octets} {filesize : Nat}
    (hReady : upfile.Ready cfg file) (hKeeps : ∀ k, upfile.Has k → ∀ content ∈ file,
      fileChunk cfg.chunkSize (content.take filesize) k = fileChunk cfg.chunkSize content k) :
    upfile.Ready cfg (truncated filesize file) where
  present k hHas := by
    obtain ⟨content, rfl, hRight⟩ := hReady.present k hHas
    refine ⟨content.take filesize, rfl, ?_⟩
    rw [Upfile.ChunkRight, hKeeps k hHas content rfl]
    exact hRight
  short content hMem := by
    obtain ⟨whole, hWhole, rfl⟩ := Option.map_eq_some_iff.mp hMem
    exact Nat.le_trans (List.length_take_le' _ _) (hReady.short whole hWhole)

/-- Behind other uploads of its local file, a request cuts nothing off. -/
theorem WebDrive.Inv.request_keeps (hInv : s.Inv cfg) {localname : Text} {upfile last first : Upfile}
    (hLast : last ∈ (s.queue localname).getLast?) (hFollows : last.Follows cfg upfile)
    (hFirst : first ∈ (s.queue localname).head?) :
    ∀ content ∈ s.files localname, content.take upfile.remotesize = content := by
  intro content hContent
  have hShort := (hInv.ready localname first hFirst).short content hContent
  have hGrow := first_size_le_last (hInv.chain localname) hLast first hFirst
  exact List.take_of_length_le (Nat.le_trans hShort (Nat.le_trans hGrow hFollows.size))

theorem WebDrive.Inv.uploadRequest (hInv : s.Inv cfg) {filename : Text} {filesize : Nat}
    {hashes : Text} (hOk : DriveEvent.Undisturbed cfg s (.uploadRequest filename filesize hashes)) :
    (s.uploadRequest cfg filename filesize hashes).Inv cfg := by
  obtain ⟨hCount, hLength, hDone, hQueued⟩ := hOk
  have hRight (k : Nat) (hHas : (updata cfg s.files filename filesize hashes).Has k) :=
    updata_right hHas (hLength k hHas)
  have hComplete := updata_complete hCount hLength
  have hMissing := @updata_missing cfg s.files filename filesize hashes
  have hName : (updata cfg s.files filename filesize hashes).localname = cleanFname filename := rfl
  have hSize : (updata cfg s.files filename filesize hashes).remotesize = filesize := rfl
  rw [WebDrive.uploadRequest]
  generalize updata cfg s.files filename filesize hashes = upfile at *
  rw [← hName] at hRight hComplete
  subst hSize
  dsimp only
  split
  · next hSome =>
      have hReady : ∀ first ∈ (s.queue upfile.localname).head?,
          first.Ready cfg (PageCamel.Web.truncated upfile.remotesize (s.files upfile.localname)) := by
        intro first hFirst
        refine (hInv.ready upfile.localname first hFirst).truncated fun k _ content hContent => ?_
        cases hLast : (s.queue upfile.localname).getLast? with
        | none =>
            rw [List.getLast?_eq_none_iff.mp hLast] at hFirst
            cases hFirst
        | some last =>
            rw [hInv.request_keeps hLast (hQueued hSome last hLast) hFirst content hContent]
      refine ⟨?_, ?_, ?_, hInv.done⟩
      · intro upfile' hMem
        rcases List.mem_append.mp hMem with hOld | hNew
        · exact hInv.sound upfile' hOld
        · obtain rfl := List.mem_singleton.mp hNew
          exact ⟨hCount, hSome, hMissing.1, hMissing.2⟩
      · intro localname first hFirst
        have hQueue := (queue_append s upfile localname).symm ▸ hFirst
        by_cases hSame : upfile.localname = localname
        · subst hSame
          rw [if_pos rfl] at hQueue
          dsimp only
          rw [Function.update_self]
          cases hOthers : s.queue upfile.localname with
          | nil =>
              rw [hOthers] at hQueue
              obtain rfl : upfile = first := by simpa using hQueue
              exact ⟨hRight, truncated_short⟩
          | cons other others =>
              rw [hOthers] at hQueue hReady
              exact hReady first (by simpa using hQueue)
        · rw [if_neg hSame, List.append_nil] at hQueue
          dsimp only
          rw [Function.update_of_ne (Ne.symm hSame)]
          exact hInv.ready localname first hQueue
      · intro localname
        refine (queue_append s upfile localname).symm ▸ ?_
        refine List.isChain_append.mpr ⟨hInv.chain localname, ?_, ?_⟩
        · split <;> simp
        · intro last hLast next hNext
          split at hNext
          · next hSame =>
              subst hSame
              obtain rfl : upfile = next := by simpa using hNext
              exact hQueued hSome last hLast
          · cases hNext
  · next hNone =>
      have hNone := not_not.mp hNone
      refine ⟨hInv.sound, ?_, hInv.chain, ?_⟩
      · intro localname first hFirst
        have hReady := hInv.ready localname first hFirst
        by_cases hSame : upfile.localname = localname
        · subst hSame
          dsimp only
          rw [Function.update_self]
          exact hReady.truncated ((hDone hNone).2 first hFirst)
        · dsimp only
          rw [Function.update_of_ne (Ne.symm hSame)]
          exact hReady
      · intro entry hEntry
        rcases List.mem_append.mp hEntry with hOld | hNew
        · exact hInv.done entry hOld
        · obtain rfl := List.mem_singleton.mp hNew
          exact hComplete hNone (hDone hNone).1

/-! ### Chunks -/

/-- The upload after its first missing chunk. -/
def Upfile.next (upfile : Upfile) : Upfile :=
  { upfile with missingchunks := upfile.missingchunks.tail }

theorem has_next {upfile : Upfile} {chunkNum k : Nat} (hSound : upfile.Sound cfg)
    (hHead : upfile.missingchunks.head? = some chunkNum) :
    upfile.next.Has k ↔ upfile.Has k ∨ k = chunkNum := by
  obtain ⟨rest, hMissing⟩ := List.head?_eq_some_iff.mp hHead
  have hAscending := hSound.ascending
  have hBound := hSound.bounded chunkNum (List.mem_of_mem_head? hHead)
  rw [hMissing] at hAscending
  have hNot : chunkNum ∉ rest := fun hMem =>
    Nat.lt_irrefl _ (List.rel_of_pairwise_cons hAscending hMem)
  simp only [Upfile.Has, Upfile.next, hMissing, List.tail_cons, List.mem_cons, not_or]
  grind

/-- The chunks in front of the first missing one are there. -/
theorem has_of_lt {upfile : Upfile} {chunkNum j : Nat} (hSound : upfile.Sound cfg)
    (hHead : upfile.missingchunks.head? = some chunkNum) (hLess : j < chunkNum) : upfile.Has j := by
  obtain ⟨rest, hMissing⟩ := List.head?_eq_some_iff.mp hHead
  have hAscending := hSound.ascending
  have hBound := hSound.bounded chunkNum (List.mem_of_mem_head? hHead)
  rw [hMissing] at hAscending
  refine ⟨Nat.lt_trans hLess hBound, fun hMem => ?_⟩
  rw [hMissing] at hMem
  rcases List.mem_cons.mp hMem with rfl | hRest
  · exact Nat.lt_irrefl _ hLess
  · exact Nat.lt_asymm hLess (List.rel_of_pairwise_cons hAscending hRest)

/-- The file reaches up to the place of the first missing chunk, where that is part of it. -/
theorem Upfile.Ready.reaches {upfile : Upfile} {file : Option Octets} {chunkNum : Nat}
    (hReady : upfile.Ready cfg file) (hSound : upfile.Sound cfg)
    (hHead : upfile.missingchunks.head? = some chunkNum)
    (hIn : chunkNum * cfg.chunkSize < upfile.remotesize) :
    chunkNum * cfg.chunkSize ≤ (file.getD []).length := by
  cases chunkNum with
  | zero => omega
  | succ k =>
      obtain ⟨content, rfl, hRight⟩ :=
        hReady.present k (has_of_lt hSound hHead (Nat.lt_succ_self k))
      have hFull := hRight.2
      have hPositive := cfg.chunkSize_pos
      rw [chunkLength_of_lt (Nat.lt_succ_self k) hIn, length_fileChunk, chunkLength] at hFull
      rw [Nat.succ_mul, Option.getD_some]
      omega

/-- A chunk that is written at its place is there, and the other chunks stay. -/
theorem putChunk_place {content chunkdata : Octets} {size chunkNum : Nat}
    (hPos : chunkdata ≠ [] → chunkNum * size ≤ content.length) (hFits : chunkdata.length ≤ size) :
    (∀ k ≠ chunkNum, fileChunk size (putChunk content (chunkNum * size) chunkdata) k =
      fileChunk size content k) ∧
    (content.length ≤ chunkNum * size + chunkdata.length ∨ chunkdata.length = size →
      fileChunk size (putChunk content (chunkNum * size) chunkdata) chunkNum = chunkdata) ∧
    (putChunk content (chunkNum * size) chunkdata).length ≤
      max content.length (chunkNum * size + chunkdata.length) := by
  rw [putChunk]
  split
  · next hNone =>
      subst hNone
      refine ⟨fun _ _ => rfl, fun hEnd => ?_, Nat.le_max_left ..⟩
      refine List.eq_nil_of_length_eq_zero ?_
      rw [length_fileChunk, chunkLength]
      simp only [List.length_nil] at hEnd
      omega
  · next hSome =>
      refine ⟨fun k hNe => fileChunk_writeAt_ne 0 hNe (hPos hSome) hFits, fun hEnd => ?_, ?_⟩
      · exact fileChunk_writeAt_self 0 (hPos hSome) hFits hEnd.symm
      · exact Nat.le_of_eq (length_writeAt 0 (hPos hSome) chunkdata)

/-- A chunk as announced brings the upload one chunk further. -/
theorem Upfile.Ready.write {upfile : Upfile} {file : Option Octets} {chunkNum : Nat}
    {chunkdata : Octets} (hReady : upfile.Ready cfg file) (hSound : upfile.Sound cfg)
    (hHead : upfile.missingchunks.head? = some chunkNum)
    (hHash : upfile.remotehashes[chunkNum]? = some (cfg.sha256Hex chunkdata))
    (hLength : chunkdata.length = chunkLength cfg.chunkSize upfile.remotesize chunkNum) :
    upfile.next.Ready cfg
      (some (putChunk (file.getD []) (chunkNum * cfg.chunkSize) chunkdata)) := by
  have hShort : (file.getD []).length ≤ upfile.remotesize := by
    cases file with
    | none => exact Nat.zero_le _
    | some content => exact hReady.short content rfl
  have hPlace := hLength
  rw [chunkLength] at hPlace
  have hPos : chunkdata ≠ [] → chunkNum * cfg.chunkSize ≤ (file.getD []).length := fun hSome => by
    have hLong := List.length_pos_iff.mpr hSome
    exact hReady.reaches hSound hHead (by omega)
  obtain ⟨hOthers, hHere, hEnd⟩ :=
    @putChunk_place _ _ cfg.chunkSize chunkNum hPos (by omega)
  constructor
  · intro k hHas
    refine ⟨_, rfl, ?_⟩
    rw [Upfile.ChunkRight]
    rcases (has_next hSound hHead).mp hHas with hOld | rfl
    · have hNe : k ≠ chunkNum := fun hSame =>
        absurd (hSame ▸ List.mem_of_mem_head? hHead) hOld.2
      rw [hOthers k hNe]
      obtain ⟨content, rfl, hRight⟩ := hReady.present k hOld
      exact hRight
    · rw [hHere (by omega)]
      exact ⟨hHash, hLength⟩
  · intro content hContent
    obtain rfl := Option.some.inj hContent
    have hSize : upfile.next.remotesize = upfile.remotesize := rfl
    rw [hSize]
    by_cases hNone : chunkdata = []
    · rw [putChunk, if_pos hNone]
      exact hShort
    · have hLong := List.length_pos_iff.mpr hNone
      omega

/-- An upload with nothing missing is complete. -/
theorem Upfile.Ready.complete {upfile : Upfile} {content : Octets}
    (hReady : upfile.Ready cfg (some content))
    (hCount : upfile.remotesize ≤ upfile.remotehashes.length * cfg.chunkSize)
    (hNone : upfile.missingchunks = []) : upfile.Complete cfg (some content) := by
  refine complete_of_chunks hCount (hReady.short content rfl) fun k hk => ?_
  obtain ⟨content', hContent, hRight⟩ := hReady.present k ⟨hk, hNone ▸ List.not_mem_nil⟩
  exact Option.some.inj hContent ▸ hRight

/-- When an upload is complete, the next one for the same local file has what it counted on. -/
theorem Upfile.Ready.follow {earlier later : Upfile} {file : Option Octets}
    (hReady : earlier.Ready cfg file) (hNone : earlier.missingchunks = [])
    (hFollows : earlier.Follows cfg later) : later.Ready cfg file := by
  constructor
  · intro k hHas
    have hHash := hFollows.hash k hHas
    have hIn : k < earlier.remotehashes.length := by
      by_contra hOut
      rw [List.getElem?_eq_none (Nat.le_of_not_lt hOut), List.getElem?_eq_getElem hHas.1] at hHash
      cases hHash
    obtain ⟨content, hContent, hRight⟩ := hReady.present k ⟨hIn, hNone ▸ List.not_mem_nil⟩
    refine ⟨content, hContent, ?_⟩
    rw [Upfile.ChunkRight, ← hHash, ← hFollows.length k hHas]
    exact hRight
  · exact fun content hContent => Nat.le_trans (hReady.short content hContent) hFollows.size

theorem queue_cons {upfile : Upfile} {rest : List Upfile} (hUpfiles : s.upfiles = upfile :: rest)
    (localname : Text) : s.queue localname = (if upfile.localname = localname then [upfile] else []) ++
      rest.filter fun other => other.localname = localname := by
  rw [WebDrive.queue, hUpfiles, List.filter_cons]
  split <;> simp_all

theorem WebDrive.Inv.store (hInv : s.Inv cfg) {upfile : Upfile} {rest : List Upfile}
    (hUpfiles : s.upfiles = upfile :: rest) {chunkNum : Nat} {content chunkdata : Octets}
    (hHead : upfile.missingchunks.head? = some chunkNum)
    (hContent : (s.files upfile.localname).getD [] = content)
    (hHash : upfile.remotehashes[chunkNum]? = some (cfg.sha256Hex chunkdata))
    (hLength : chunkdata.length = chunkLength cfg.chunkSize upfile.remotesize chunkNum) :
    (s.store cfg upfile rest chunkNum content chunkdata).Inv cfg := by
  have hSound := hInv.sound upfile (hUpfiles ▸ List.mem_cons_self)
  have hQueue := queue_cons hUpfiles upfile.localname
  rw [if_pos rfl, List.singleton_append] at hQueue
  have hFirst : upfile ∈ (s.queue upfile.localname).head? := by rw [hQueue]; rfl
  have hReady := (hInv.ready upfile.localname upfile hFirst).write hSound hHead hHash hLength
  rw [hContent] at hReady
  have hChain := hInv.chain upfile.localname
  rw [hQueue] at hChain
  have hFollows : ∀ later ∈ (rest.filter fun other => other.localname = upfile.localname).head?,
      upfile.next.Follows cfg later := fun later hLater =>
    let hOld := (List.isChain_cons.mp hChain).1 later hLater
    ⟨hOld.size, hOld.hash, hOld.length⟩
  have hOthers {localname : Text} (hNe : upfile.localname ≠ localname) :
      s.queue localname = rest.filter fun other => other.localname = localname := by
    rw [queue_cons hUpfiles, if_neg hNe, List.nil_append]
  rw [WebDrive.store]
  dsimp only
  split
  · next hNone =>
      refine ⟨fun other hOther => hInv.sound other (hUpfiles ▸ List.mem_cons_of_mem _ hOther),
        ?_, ?_, ?_⟩
      · intro localname first hHere
        by_cases hSame : upfile.localname = localname
        · subst hSame
          dsimp only
          rw [Function.update_self]
          exact hReady.follow hNone (hFollows first hHere)
        · dsimp only
          rw [Function.update_of_ne (Ne.symm hSame)]
          exact hInv.ready localname first (hOthers hSame ▸ hHere)
      · intro localname
        by_cases hSame : upfile.localname = localname
        · exact hSame ▸ (List.isChain_cons.mp hChain).2
        · have hOther := hInv.chain localname
          rw [hOthers hSame] at hOther
          exact hOther
      · intro entry hEntry
        rcases List.mem_append.mp hEntry with hOld | hNew
        · exact hInv.done entry hOld
        · obtain rfl := List.mem_singleton.mp hNew
          exact hReady.complete hSound.count hNone
  · next hSome =>
      have hNext (localname : Text) := queue_cons
        (s := { s with upfiles := upfile.next :: rest }) rfl localname
      refine ⟨?_, ?_, ?_, hInv.done⟩
      · intro other hOther
        rcases List.mem_cons.mp hOther with rfl | hRest
        · refine ⟨hSound.count, hSome, hSound.ascending.tail, fun k hk => ?_⟩
          exact hSound.bounded k (List.mem_of_mem_tail hk)
        · exact hInv.sound other (hUpfiles ▸ List.mem_cons_of_mem _ hRest)
      · intro localname first hHere
        have hHere := hNext localname ▸ hHere
        by_cases hSame : upfile.localname = localname
        · subst hSame
          obtain rfl : upfile.next = first := by simpa [Upfile.next] using hHere
          dsimp only
          rw [Function.update_self]
          exact hReady
        · have hSame' : upfile.next.localname ≠ localname := hSame
          rw [if_neg hSame', List.nil_append, ← hOthers hSame] at hHere
          dsimp only
          rw [Function.update_of_ne (Ne.symm hSame)]
          exact hInv.ready localname first hHere
      · intro localname
        refine (hNext localname).symm ▸ ?_
        by_cases hSame : upfile.next.localname = localname
        · subst hSame
          rw [if_pos rfl]
          exact List.isChain_cons.mpr ⟨hFollows, (List.isChain_cons.mp hChain).2⟩
        · rw [if_neg hSame, List.nil_append, ← hOthers hSame]
          exact hInv.chain localname

theorem WebDrive.Inv.close (hInv : s.Inv cfg) : s.close.Inv cfg :=
  ⟨by simp [WebDrive.close], by simp [WebDrive.close, WebDrive.queue],
    by simp [WebDrive.close, WebDrive.queue], hInv.done⟩

theorem WebDrive.Inv.binaryMessage (hInv : s.Inv cfg) {chunkNum : Nat}
    {filename chunkdata : Octets}
    (hGenuine : DriveEvent.Genuine cfg s (.chunk chunkNum filename chunkdata))
    (hOk : DriveEvent.Undisturbed cfg s (.chunk chunkNum filename chunkdata)) :
    (s.binaryMessage cfg chunkNum filename chunkdata).Inv cfg := by
  rw [WebDrive.binaryMessage]
  split
  · exact hInv.close
  · next upfile rest hUpfiles =>
      have hHead : upfile ∈ s.upfiles.head? := by rw [hUpfiles]; rfl
      split
      · next hExpects =>
          have hHash := hGenuine upfile hHead hExpects
          have hLength := hOk upfile hHead hExpects
          split
          · next content hFile =>
              exact hInv.store hUpfiles hExpects.2 (by rw [hFile]; rfl) hHash hLength
          · next hFile =>
              split
              · exact hInv.close
              · exact hInv.store hUpfiles hExpects.2 (by rw [hFile]; rfl) hHash hLength
      · exact hInv.close

theorem WebDrive.Inv.deleteFile (hInv : s.Inv cfg) {filename : Text}
    (hOk : DriveEvent.Undisturbed cfg s (.deleteFile filename)) :
    WebDrive.Inv cfg { s with files := Function.update s.files filename none } := by
  refine ⟨hInv.sound, ?_, hInv.chain, hInv.done⟩
  intro localname first hFirst
  have hReady := hInv.ready localname first hFirst
  dsimp only
  by_cases hSame : filename = localname
  · subst hSame
    rw [Function.update_self]
    by_cases hFile : s.files filename = none
    · exact hFile ▸ hReady
    · exact ⟨fun k hHas => absurd hHas (hOk hFile first hFirst k), by simp⟩
  · rw [Function.update_of_ne (Ne.symm hSame)]
    exact hReady

theorem WebDrive.Inv.step (hInv : s.Inv cfg) (event : DriveEvent)
    (hGenuine : event.Genuine cfg s) (hOk : event.Undisturbed cfg s) :
    (s.step cfg event).Inv cfg := by
  unfold WebDrive.step
  split
  · exact hInv
  · cases event with
    | uploadRequest filename filesize hashes => exact hInv.uploadRequest hOk
    | chunk chunkNum filename chunkdata => exact hInv.binaryMessage hGenuine hOk
    | deleteFile filename => exact hInv.deleteFile hOk
    | cyclic =>
        dsimp only
        split
        · exact hInv
        · exact ⟨hInv.sound, hInv.ready, hInv.chain, hInv.done⟩

/-- In every run whose chunks are genuine and whose steps meet the condition, every `FILEDONE`
was sent for a complete file. -/
theorem uploads_complete (cfg : DriveSettings) (files : Text → Option Octets) {s : WebDrive}
    (hRun : Reached (WebDrive.step cfg)
      (fun s event => event.Genuine cfg s ∧ event.Undisturbed cfg s) { files } s) :
    ∀ entry ∈ s.done, entry.1.Complete cfg entry.2 := by
  have hStart : WebDrive.Inv cfg { files } :=
    ⟨by simp, by simp [WebDrive.queue], by simp [WebDrive.queue], by simp⟩
  have hInv := hRun.invariant hStart fun _ event hInv hOk => hInv.step event hOk.1 hOk.2
  exact hInv.done

/-! ### Runs -/

instance (cfg : DriveSettings) (upfile : Upfile) (file : Option Octets) :
    Decidable (upfile.Complete cfg file) :=
  match file with
  | none => isFalse fun ⟨_, hFile, _⟩ => by cases hFile
  | some content =>
      decidable_of_iff (content.length = upfile.remotesize ∧
          localHashes cfg (some content) <+: upfile.remotehashes)
        ⟨fun h => ⟨content, rfl, h.1, localHashes_prefix.mp h.2⟩,
          fun ⟨_, hFile, h⟩ => Option.some.inj hFile ▸ ⟨h.1, localHashes_prefix.mpr h.2⟩⟩

instance (cfg : DriveSettings) (s : WebDrive) (event : DriveEvent) : Decidable (event.Genuine cfg s) :=
  match event with
  | .chunk chunkNum filename chunkdata =>
      inferInstanceAs (Decidable (∀ upfile ∈ s.upfiles.head?, upfile.Expects chunkNum filename →
        upfile.remotehashes[chunkNum]? = some (cfg.sha256Hex chunkdata)))
  | .uploadRequest .. | .deleteFile _ | .cyclic => instDecidableTrue

/-- A hash that tells all chunks apart. -/
def plainDrive : DriveSettings where
  chunkSize := 100
  chunkSize_pos := by decide
  sha256Hex chunk := '#' :: chunk.map fun b => Char.ofNat b.toNat
  directory name := name = [] || name = ['.'] || name = ['.', '.']

/-- A chunk of one letter, and a list of hashes. -/
def letters (count : Nat) (c : Char) : Octets := List.replicate count c.val.toUInt8

def hashList (chunks : List Octets) : Text :=
  List.intercalate [','] (chunks.map plainDrive.sha256Hex)

/-- A new file of two chunks, announced with the empty one behind them. -/
def newFile : List DriveEvent :=
  [.uploadRequest ['a', ' ', 'b'] 200 (hashList [letters 100 'P', letters 100 'Q', []]),
    .chunk 0 (octets "a b") (letters 100 'P'), .cyclic, .chunk 1 (octets "a b") (letters 100 'Q'),
    .chunk 2 (octets "a b") []]

theorem uploads_complete_newFile :
    (runEvents (WebDrive.step plainDrive) { files := fun _ => none } newFile).done.length = 1 ∧
    ∀ entry ∈ (runEvents (WebDrive.step plainDrive) { files := fun _ => none } newFile).done,
      entry.1.Complete plainDrive entry.2 := by
  refine ⟨by decide +kernel, uploads_complete plainDrive _ (Reached.run _ _ .start ?_)⟩
  refine ⟨⟨trivial, ?_⟩, ⟨by decide +kernel, ?_⟩, ⟨trivial, trivial⟩, ⟨by decide +kernel, ?_⟩,
    ⟨by decide +kernel, ?_⟩, trivial⟩
  · refine ⟨?_, fun _ _ content hContent => ?_, fun hNone => ?_, fun _ last hLast => ?_⟩
    · decide +kernel
    · cases hContent
    · exact absurd hNone (by decide +kernel)
    · cases hLast
  all_goals
    rw [DriveEvent.Undisturbed]
    decide +kernel

/-- Two requests that go to one local file, which has the chunks `P` and `Q`: the second one
counts on `P`, which the upload of the first one overwrites. -/
def sameLocalFile : List DriveEvent :=
  [.uploadRequest ['a', ' ', 'b'] 150 (hashList [letters 100 'R', letters 50 'T']),
    .uploadRequest ['a', '_', 'b'] 150 (hashList [letters 100 'P', letters 50 'S']),
    .chunk 0 (octets "a b") (letters 100 'R'), .chunk 1 (octets "a b") (letters 50 'T'),
    .chunk 1 (octets "a_b") (letters 50 'S')]

def localFiles : Text → Option Octets := fun name =>
  if name = ['a', '_', 'b'] then some (letters 100 'P' ++ letters 50 'Q') else none

/-- An empty file that is not there, and two names for one local file. -/
theorem uploads_incomplete :
    (∃ entry ∈ (runEvents (WebDrive.step plainDrive) { files := fun _ => none }
        [.uploadRequest ['a'] 0 []]).done, ¬ entry.1.Complete plainDrive entry.2) ∧
    Meets (WebDrive.step plainDrive) (fun s event => event.Genuine plainDrive s)
      { files := localFiles } sameLocalFile ∧
    ∃ entry ∈ (runEvents (WebDrive.step plainDrive) { files := localFiles } sameLocalFile).done,
      entry.1.remotename = ['a', '_', 'b'] ∧ ¬ entry.1.Complete plainDrive entry.2 := by
  refine ⟨by decide +kernel, ?_, by decide +kernel⟩
  exact ⟨trivial, trivial, by decide +kernel, by decide +kernel, by decide +kernel, trivial⟩

end PageCamel.Web

import PageCamel.Helpers.UTF
import PageCamel.Lib.PerlSort
import PageCamel.Lib.Runs
import Mathlib.Data.List.AList
import Mathlib.Data.List.Perm.Basic
import Mathlib.Logic.Function.Basic

/-!
The translations (`Helpers/Translator.pm`) as every process caches them. A checksum in the shared
memory tells the processes when another of them has loaded something else.
-/

namespace PageCamel.Helpers.Translator
open PageCamel.Helpers.URI (Text encodeUtf8)
open PageCamel.Lib (Meets sorted)

abbrev Hash (α : Type) := AList fun _ : Text => α

/-- `$localcache` -/
structure Cache where
  langs : List Text
  keys : List Text
  lang : Hash (Hash Text)

namespace Cache

def text (cache : Cache) (lang key : Text) : Option Text :=
  (cache.lang.lookup lang).bind (·.lookup key)

/-- The rows of the tables have no order. -/
structure Same (a b : Cache) : Prop where
  langs : a.langs.Perm b.langs
  keys : a.keys.Perm b.keys
  text : ∀ lang key, a.text lang key = b.text lang key

end Cache

/-! ### Loading -/

/-- What the statements of `tr_reload` return, the last of them for each language. Others may
write between one statement and the next. -/
structure Reads where
  langs : List Text
  keys : List Text
  lines : Text → List (Text × Text)

def loadLang (lines : List (Text × Text)) : Hash Text :=
  lines.foldl (fun trans line => trans.insert line.1 line.2) ∅

def Reads.translate (reads : Reads) : Cache where
  langs := reads.langs
  keys := reads.keys
  lang := reads.langs.foldl (fun langs lang => langs.insert lang (loadLang (reads.lines lang))) ∅

def cachestring (cache : Cache) : Text :=
  (sorted cache.keys).flatten ++ (sorted cache.lang.keys).flatMap fun lang =>
    let trans := (cache.lang.lookup lang).getD ∅
    lang ++ (sorted trans.keys).flatMap fun key => key ++ (trans.lookup key).getD []

/-- `sha1_hex`, taken to be without collisions. -/
structure Sha1 where
  hex : Text → Text
  injective : Function.Injective hex
  ne_dashes : ∀ octets, hex octets ≠ "--------".toList

def makeCacheChecksum (sha1 : Sha1) (cache : Cache) : Text :=
  sha1.hex (encodeUtf8 (cachestring cache))

inductive Phase where
  | idle
  | reloading
  /-- Loaded, but not in the shared memory yet. -/
  | storing
  deriving DecidableEq, Repr

structure Process where
  localcache : Option Cache := none
  cachechecksum : Text := "--------".toList
  phase : Phase := .idle

/-- `LanguageCache` goes with the cache that its process had when it stored it. -/
structure World where
  processes : Nat → Process := fun _ => {}
  languageCache : Option (Text × Option Cache) := none

inductive TrEvent where
  | load (p : Nat) (reads : Reads)
  | store (p : Nat)
  /-- The shared memory does not take the value. -/
  | lost (p : Nat)
  | checkreload (p : Nat)
  | forget

section Step
variable (sha1 : Sha1)

def World.set (s : World) (p : Nat) (process : Process) : World :=
  { s with processes := Function.update s.processes p process }

def load (s : World) (p : Nat) (reads : Reads) : World :=
  if (s.processes p).phase = .storing then s
  else
    s.set p
      { localcache := some reads.translate
        cachechecksum := makeCacheChecksum sha1 reads.translate
        phase := .storing }

def store (s : World) (p : Nat) : World :=
  let process := s.processes p
  if process.phase = .storing then
    { s.set p { process with phase := .idle } with
      languageCache := some (process.cachechecksum, process.localcache) }
  else s

def lost (s : World) (p : Nat) : World :=
  let process := s.processes p
  if process.phase = .storing then s.set p { process with phase := .idle } else s

/-- `tr_checkreload` goes on to `tr_reload` unless the checksums are equal. -/
def checkreload (s : World) (p : Nat) : World :=
  let process := s.processes p
  if process.phase = .idle ∧ s.languageCache.map Prod.fst ≠ some process.cachechecksum then
    s.set p { process with phase := .reloading }
  else s

def step (s : World) : TrEvent → World
  | .load p reads => load sha1 s p reads
  | .store p => store s p
  | .lost p => lost s p
  | .checkreload p => checkreload s p
  | .forget => { s with languageCache := none }

end Step

/-- Where `tr_checkreload` returns without reloading, the process has what the other had that
stored the checksum. -/
def Agrees (s : World) : TrEvent → Prop
  | .checkreload p =>
      (s.processes p).phase = .idle → ∀ remotechecksum stored,
        s.languageCache = some (remotechecksum, stored) →
        remotechecksum = (s.processes p).cachechecksum →
        ∃ cache other, (s.processes p).localcache = some cache ∧ stored = some other ∧
          cache.Same other
  | _ => True

/-! ### Checksums of what is loaded -/

def Loads (possible : Reads → Prop) : TrEvent → Prop
  | .load _ reads => possible reads
  | _ => True

section Invariant
variable {sha1 : Sha1} {possible : Reads → Prop} {s : World} {p : Nat}

/-- A checksum goes with a cache that has been loaded. -/
def Known (sha1 : Sha1) (possible : Reads → Prop) (checksum : Text) (cache : Option Cache) : Prop :=
  ∃ reads, possible reads ∧ cache = some reads.translate ∧
    checksum = makeCacheChecksum sha1 reads.translate

structure Process.Good (sha1 : Sha1) (possible : Reads → Prop) (process : Process) : Prop where
  loaded : process.cachechecksum = "--------".toList ∨
    Known sha1 possible process.cachechecksum process.localcache
  storing : process.phase = .storing →
    Known sha1 possible process.cachechecksum process.localcache

structure Good (sha1 : Sha1) (possible : Reads → Prop) (s : World) : Prop where
  process : ∀ p, (s.processes p).Good sha1 possible
  stored : ∀ remotechecksum stored, s.languageCache = some (remotechecksum, stored) →
    Known sha1 possible remotechecksum stored

theorem good_start : Good sha1 possible {} := by
  refine ⟨fun p => ⟨.inl rfl, ?_⟩, ?_⟩
  · intro hPhase
    cases hPhase
  · intro remotechecksum stored hStored
    cases hStored

theorem Good.set (hGood : Good sha1 possible s) {process : Process}
    (hProcess : process.Good sha1 possible) : Good sha1 possible (s.set p process) := by
  refine ⟨fun q => ?_, hGood.stored⟩
  show (Function.update s.processes p process q).Good sha1 possible
  by_cases hSame : q = p
  · rw [hSame, Function.update_self]
    exact hProcess
  · rw [Function.update_of_ne hSame]
    exact hGood.process q

theorem Process.Good.phase {process : Process} (hGood : process.Good sha1 possible) {phase : Phase}
    (hPhase : phase ≠ .storing) : Process.Good sha1 possible { process with phase } :=
  ⟨hGood.loaded, fun hStoring => absurd hStoring hPhase⟩

theorem good_load (hGood : Good sha1 possible s) {reads : Reads} (hPossible : possible reads) :
    Good sha1 possible (load sha1 s p reads) := by
  rw [load]
  split
  · exact hGood
  · have hKnown : Known sha1 possible (makeCacheChecksum sha1 reads.translate)
        (some reads.translate) := ⟨reads, hPossible, rfl, rfl⟩
    exact hGood.set ⟨.inr hKnown, fun _ => hKnown⟩

theorem good_store (hGood : Good sha1 possible s) : Good sha1 possible (store s p) := by
  have hProcess := hGood.process p
  rw [store]
  split
  · next hStoring =>
    have hIdle : Phase.idle ≠ .storing := by decide
    refine ⟨(hGood.set (hProcess.phase hIdle)).process, ?_⟩
    intro remotechecksum stored hStored
    cases hStored
    exact hProcess.storing hStoring
  · exact hGood

theorem good_step {e : TrEvent} (hGood : Good sha1 possible s) (hLoads : Loads possible e) :
    Good sha1 possible (step sha1 s e) := by
  cases e with
  | load p reads => exact good_load hGood hLoads
  | store p => exact good_store hGood
  | lost p =>
    rw [step, lost]
    split
    · exact hGood.set ((hGood.process p).phase (by decide))
    · exact hGood
  | checkreload p =>
    rw [step, checkreload]
    split
    · exact hGood.set ((hGood.process p).phase (by decide))
    · exact hGood
  | forget =>
    refine ⟨hGood.process, ?_⟩
    intro remotechecksum stored hStored
    cases hStored

theorem Known.ne_dashes {checksum : Text} {cache : Option Cache}
    (hKnown : Known sha1 possible checksum cache) : checksum ≠ "--------".toList := by
  obtain ⟨reads, -, -, rfl⟩ := hKnown
  exact sha1.ne_dashes _

/-- The texts of a state: its keys, and its languages, each with its keys and their texts. -/
def pieces (cache : Cache) : List Text :=
  sorted cache.keys ++ (sorted cache.lang.keys).flatMap fun lang =>
    let trans := (cache.lang.lookup lang).getD ∅
    lang :: (sorted trans.keys).flatMap fun key => [key, (trans.lookup key).getD []]

/-- Two rows of texts laid next to each other: of two texts one is the beginning of the other, the
rest of which comes next to the text that follows, until both rows are at their end. -/
inductive Overlap : List Text → List Text → Prop
  | done : Overlap [] []
  | blankLeft {xs ys : List Text} (h : Overlap xs ys) : Overlap ([] :: xs) ys
  | blankRight {xs ys : List Text} (h : Overlap xs ys) : Overlap xs ([] :: ys)
  | shorter {x rest : Text} {xs ys : List Text} (h : Overlap xs (rest :: ys)) :
      Overlap (x :: xs) ((x ++ rest) :: ys)
  | longer {y rest : Text} {xs ys : List Text} (h : Overlap (rest :: xs) ys) :
      Overlap ((y ++ rest) :: xs) (y :: ys)

/-- No two states that can be loaded are different and have texts that overlap to the end. -/
def Apart (possible : Reads → Prop) : Prop :=
  ∀ a b, possible a → possible b → Overlap (pieces a.translate) (pieces b.translate) →
    a.translate.Same b.translate

end Invariant

end PageCamel.Helpers.Translator

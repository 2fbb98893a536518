import PageCamel.Lib.Drain
import PageCamel.Lib.Octets
import Mathlib.Data.List.MinMax
import Mathlib.Data.List.Nodup

/-!
Blocks of whole networks after a WHOIS search (`Worker/Firewall/BlockCIDRWhois.pm`): each pass
of the loop fetches one candidate. A candidate whose network gets blocked is marked as one of
the addresses in that network, which is what somebody else's WHOIS server says.
-/

namespace PageCamel.Worker
open PageCamel.Lib

/-! ### Networks -/

/-- A value of PostgreSQL's `inet`: an address, and the length of its network part. -/
structure Inet where
  v6 : Bool
  address : Nat
  masklen : Nat
  deriving DecidableEq, Repr

namespace Inet

def width (net : Inet) : Nat := if net.v6 then 128 else 32

/-- The network part of the address, `masklen` bits of it. -/
def networkBits (net : Inet) (masklen : Nat) : Nat := net.address >>> (net.width - masklen)

/-- The operator `<<=`. -/
def Within (inner outer : Inet) : Prop :=
  inner.v6 = outer.v6 ∧ outer.masklen ≤ inner.masklen ∧
    inner.networkBits outer.masklen = outer.networkBits outer.masklen

instance : DecidableRel Within := fun _ _ => inferInstanceAs (Decidable (_ ∧ _ ∧ _))

end Inet

/-! ### Tables -/

structure Candidate where
  candidateId : Nat
  ipAddress : Inet
  whoisMustMatch : Octets
  logtime : Nat
  isProcessed : Bool := false
  blockCidr : Option Inet := none
  deriving DecidableEq, Repr

structure Block where
  blockedNetwork : Inet
  networkOwnerWhois : Octets
  isAutoblocked : Bool
  seenFirst : Nat
  deriving DecidableEq, Repr

structure CachedWhois where
  networkCidr : Inet
  whoisRaw : Octets
  logtime : Nat
  deriving DecidableEq, Repr

structure Firewall where
  candidates : List Candidate
  blocks : List Block
  cache : List CachedWhois
  /-- The primary key. -/
  distinct : (candidates.map Candidate.candidateId).Nodup

/-- The networks that a WHOIS record names: one, or a list. -/
inductive Cidr where
  | single (net : Inet)
  | list (nets : List Inet)
  deriving DecidableEq, Repr

/-- The fields of a parsed record that the worker looks at, and the record as JSON. -/
structure Whois where
  cidr : Option Cidr
  inet6num : Option Cidr
  json : Octets
  deriving DecidableEq, Repr

/-- The parser of WHOIS answers, and the match of a pattern against a text. -/
structure WhoisTools where
  parseWhois : Octets → Option Whois
  matchesPattern : Octets → Octets → Bool

/-- What an iteration meets: the rows the database picks where several fit a query, the time,
and the answer of the WHOIS server. -/
structure Lookup where
  pick : Nat
  pickBlock : Nat
  pickCache : Nat
  now : Nat
  whois : Inet → Option Octets

/-- `LIMIT 1`: some row, if there is one. -/
def limitOne {α : Type} (pick : Nat) (rows : List α) : Option α := rows[pick % rows.length]?

theorem limitOne_eq_none {α : Type} {pick : Nat} {rows : List α} :
    limitOne pick rows = none ↔ rows = [] := by
  cases rows with
  | nil => exact ⟨fun _ => rfl, fun _ => rfl⟩
  | cons row rows =>
      have hLess : pick % (row :: rows).length < (row :: rows).length :=
        Nat.mod_lt _ (Nat.succ_pos _)
      rw [limitOne, List.getElem?_eq_getElem hLess]
      exact ⟨nofun, nofun⟩

theorem mem_of_limitOne {α : Type} {pick : Nat} {rows : List α} {row : α}
    (hRow : limitOne pick rows = some row) : row ∈ rows := List.mem_of_getElem? hRow

namespace Firewall

/-- An `UPDATE` that marks candidates as processed. -/
def mark (fw : Firewall) (rows : Candidate → Bool) (block : Option Inet) : Firewall :=
  { fw with
    candidates := fw.candidates.map fun row =>
      if rows row then { row with isProcessed := true, blockCidr := block.or row.blockCidr } else row
    distinct := by
      have hIds : (Candidate.candidateId ∘ fun row => if rows row then
          { row with isProcessed := true, blockCidr := block.or row.blockCidr } else row) =
          Candidate.candidateId := by
        funext row
        rw [Function.comp_apply]
        split <;> rfl
      rw [List.map_map, hIds]
      exact fw.distinct }

def upno (fw : Firewall) (candidateId : Nat) : Firewall :=
  fw.mark (fun row => row.candidateId = candidateId) none

def upyes (fw : Firewall) (net : Inet) : Firewall :=
  fw.mark (fun row => row.ipAddress.Within net ∧ row.isProcessed = false) (some net)

/-- The oldest candidates that have not been processed. -/
def oldest (fw : Firewall) : List Candidate :=
  fw.candidates.filter fun row => row.isProcessed = false ∧
    ∀ other ∈ fw.candidates, other.isProcessed = false → row.logtime ≤ other.logtime

def cidrmatch (fw : Firewall) (lookup : Lookup) (ip : Inet) : Option Block :=
  limitOne lookup.pickBlock (fw.blocks.filter fun block => ip.Within block.blockedNetwork)

def cachedata (fw : Firewall) (lookup : Lookup) (ip : Inet) : Option CachedWhois :=
  limitOne lookup.pickCache (fw.cache.filter fun row => ip.Within row.networkCidr)

/-- The record for an address, from the cache or else from the server. -/
def whoisraw (fw : Firewall) (lookup : Lookup) (ip : Inet) : Option Octets :=
  match fw.cachedata lookup ip with
  | some row => some row.whoisRaw
  | none => lookup.whois ip

def addToCache (fw : Firewall) (now : Nat) (raw : Octets) : Cidr → Firewall
  | .single net => { fw with cache := fw.cache ++ [CachedWhois.mk net raw now] }
  | .list nets => { fw with cache := fw.cache ++ nets.map fun net => CachedWhois.mk net raw now }

def addBlock (fw : Firewall) (block : Block) : Firewall := { fw with blocks := fw.blocks ++ [block] }

end Firewall

/-- Without a network in the record the address itself is taken. -/
def Whois.destcidr (whois : Whois) (ip : Inet) : Cidr :=
  match whois.cidr, whois.inet6num with
  | some cidr, _ => cidr
  | none, some cidr => cidr
  | none, none => .single ip

namespace Firewall

/-- The loop's body for a candidate. An array reference is no network, and the `INSERT` with
one is an error of the database. -/
def processCandidate (tools : WhoisTools) (lookup : Lookup) (candidate : Candidate)
    (fw : Firewall) : Option Firewall :=
  match fw.cidrmatch lookup candidate.ipAddress with
  | some block => some (fw.upyes block.blockedNetwork)
  | none =>
      match fw.whoisraw lookup candidate.ipAddress with
      | none => some (fw.upno candidate.candidateId)
      | some raw =>
          match tools.parseWhois raw with
          | none => some (fw.upno candidate.candidateId)
          | some whois =>
              let destcidr := whois.destcidr candidate.ipAddress
              let fw := if (fw.cachedata lookup candidate.ipAddress).isSome then fw
                else fw.addToCache lookup.now raw destcidr
              if tools.matchesPattern whois.json candidate.whoisMustMatch then
                match destcidr with
                | .single net =>
                    some ((fw.addBlock ⟨net, candidate.whoisMustMatch, true, lookup.now⟩).upyes net)
                | .list _ => none
              else some (fw.upno candidate.candidateId)

/-- The loop of `work`. -/
def loop (tools : WhoisTools) : Drain Firewall Lookup Candidate where
  fetch lookup fw := limitOne lookup.pick fw.oldest
  handle := processCandidate tools

/-- The number of candidates that have not been processed. -/
def unprocessed (fw : Firewall) : Nat := fw.candidates.countP fun row => !row.isProcessed

/-! ### One candidate -/

/-- The candidate's row is processed after its iteration, which does not die. -/
def Marks (tools : WhoisTools) (lookup : Lookup) (candidate : Candidate) (fw : Firewall) : Prop :=
  ∃ fw', fw.processCandidate tools lookup candidate = some fw' ∧
    ∀ row ∈ fw'.candidates, row.candidateId = candidate.candidateId → row.isProcessed = true

/-- A network that is going to be blocked for a candidate is a single one and has the
candidate's address in it. -/
def InNetwork (tools : WhoisTools) (lookup : Lookup) (candidate : Candidate) (fw : Firewall) :
    Prop :=
  fw.cidrmatch lookup candidate.ipAddress = none →
    ∀ raw whois, fw.whoisraw lookup candidate.ipAddress = some raw →
      tools.parseWhois raw = some whois →
      tools.matchesPattern whois.json candidate.whoisMustMatch = true →
      ∃ net, whois.destcidr candidate.ipAddress = .single net ∧ candidate.ipAddress.Within net

variable {fw : Firewall} {candidate : Candidate}

theorem eq_of_candidateId {row : Candidate} (hRow : row ∈ fw.candidates)
    (hCandidate : candidate ∈ fw.candidates) (hId : row.candidateId = candidate.candidateId) :
    row = candidate := List.inj_on_of_nodup_map fw.distinct hRow hCandidate hId

/-- An update marks the candidate when its row is among those it is for. -/
theorem mark_candidate_iff {rows : Candidate → Bool} {block : Option Inet}
    (hCandidate : candidate ∈ fw.candidates) (hOpen : candidate.isProcessed = false) :
    (∀ row ∈ (fw.mark rows block).candidates, row.candidateId = candidate.candidateId →
      row.isProcessed = true) ↔ rows candidate = true := by
  constructor
  · intro hAll
    by_contra hOther
    have hMem : candidate ∈ (fw.mark rows block).candidates :=
      List.mem_map.mpr ⟨candidate, hCandidate, if_neg hOther⟩
    rw [hAll candidate hMem rfl] at hOpen
    cases hOpen
  · intro hRows row hRow hId
    obtain ⟨old, hOld, rfl⟩ := List.mem_map.mp hRow
    have hSame : old = candidate := by
      refine eq_of_candidateId hOld hCandidate ?_
      rw [← hId]
      split <;> rfl
    rw [hSame, if_pos hRows]

theorem upno_marks (hCandidate : candidate ∈ fw.candidates) (hOpen : candidate.isProcessed = false) :
    ∀ row ∈ (fw.upno candidate.candidateId).candidates,
      row.candidateId = candidate.candidateId → row.isProcessed = true :=
  (mark_candidate_iff hCandidate hOpen).mpr (decide_eq_true rfl)

theorem upyes_marks_iff {net : Inet} (hCandidate : candidate ∈ fw.candidates)
    (hOpen : candidate.isProcessed = false) :
    (∀ row ∈ (fw.upyes net).candidates, row.candidateId = candidate.candidateId →
      row.isProcessed = true) ↔ candidate.ipAddress.Within net := by
  rw [upyes, mark_candidate_iff hCandidate hOpen, decide_eq_true_eq]
  exact and_iff_left hOpen

theorem cidrmatch_within {lookup : Lookup} {ip : Inet} {block : Block}
    (hMatch : fw.cidrmatch lookup ip = some block) : ip.Within block.blockedNetwork := by
  simpa using List.of_mem_filter (mem_of_limitOne hMatch)

theorem addToCache_candidates {now : Nat} {raw : Octets} {dest : Cidr} {cached : Bool} :
    (if cached then fw else fw.addToCache now raw dest).candidates = fw.candidates := by
  cases cached with
  | true => rfl
  | false => cases dest <;> rfl

theorem marks_iff (tools : WhoisTools) (lookup : Lookup) (hCandidate : candidate ∈ fw.candidates)
    (hOpen : candidate.isProcessed = false) :
    fw.Marks tools lookup candidate ↔ fw.InNetwork tools lookup candidate := by
  rw [Marks, InNetwork, processCandidate]
  cases hMatch : fw.cidrmatch lookup candidate.ipAddress with
  | some block =>
      refine iff_of_true ⟨_, rfl, ?_⟩ nofun
      exact (upyes_marks_iff hCandidate hOpen).mpr (cidrmatch_within hMatch)
  | none =>
      cases hRaw : fw.whoisraw lookup candidate.ipAddress with
      | none => exact iff_of_true ⟨_, rfl, upno_marks hCandidate hOpen⟩ nofun
      | some raw =>
          dsimp only
          cases hParse : tools.parseWhois raw with
          | none =>
              refine iff_of_true ⟨_, rfl, upno_marks hCandidate hOpen⟩ fun _ => ?_
              rintro _ whois ⟨⟩ hSome
              exact absurd (hParse.symm.trans hSome) nofun
          | some whois =>
              dsimp only
              generalize hCached : (if (fw.cachedata lookup candidate.ipAddress).isSome = true then fw
                else fw.addToCache lookup.now raw (whois.destcidr candidate.ipAddress)) = fw'
              have hCandidate' : candidate ∈ fw'.candidates := by
                rw [← hCached, addToCache_candidates]
                exact hCandidate
              by_cases hPattern : tools.matchesPattern whois.json candidate.whoisMustMatch = true
              · rw [if_pos hPattern]
                constructor
                · rintro ⟨last, hSome, hMarks⟩ _ _ _ ⟨⟩ hWhois _
                  cases hParse.symm.trans hWhois
                  cases hDest : whois.destcidr candidate.ipAddress with
                  | list nets => exact absurd (hDest ▸ hSome) nofun
                  | single net =>
                      rw [hDest] at hSome
                      cases hSome
                      exact ⟨net, rfl, (upyes_marks_iff hCandidate' hOpen).mp hMarks⟩
                · intro hIn
                  obtain ⟨net, hDest, hWithin⟩ := hIn rfl raw whois rfl hParse hPattern
                  rw [hDest]
                  exact ⟨_, rfl, (upyes_marks_iff hCandidate' hOpen).mpr hWithin⟩
              · rw [if_neg hPattern]
                refine iff_of_true ⟨_, rfl, upno_marks hCandidate' hOpen⟩ fun _ => ?_
                rintro _ _ ⟨⟩ hWhois hMatches
                cases hParse.symm.trans hWhois
                exact absurd hMatches hPattern

/-! ### The loop -/

/-- All that an iteration does to the candidates is one update. -/
theorem processCandidate_candidates {tools : WhoisTools} {lookup : Lookup} {fw' : Firewall}
    (hStep : fw.processCandidate tools lookup candidate = some fw') :
    ∃ rows block, fw'.candidates = (fw.mark rows block).candidates := by
  rw [processCandidate] at hStep
  split at hStep
  · cases hStep
    exact ⟨_, _, rfl⟩
  · split at hStep
    · cases hStep
      exact ⟨_, _, rfl⟩
    · split at hStep
      · cases hStep
        exact ⟨_, _, rfl⟩
      · dsimp only at hStep
        have hMark : ∀ {fw₁ : Firewall} (rows : Candidate → Bool) (block : Option Inet),
            fw₁.candidates = fw.candidates →
            (fw₁.mark rows block).candidates = (fw.mark rows block).candidates :=
          fun rows block hSame => congrArg (List.map _) hSame
        split at hStep
        · split at hStep
          · cases hStep
            exact ⟨_, _, congrArg (List.map _) addToCache_candidates⟩
          · cases hStep
        · cases hStep
          exact ⟨_, _, congrArg (List.map _) addToCache_candidates⟩

theorem unprocessed_lt {tools : WhoisTools} {lookup : Lookup} {fw' : Firewall}
    (hCandidate : candidate ∈ fw.candidates) (hOpen : candidate.isProcessed = false)
    (hStep : fw.processCandidate tools lookup candidate = some fw')
    (hMarks : ∀ row ∈ fw'.candidates, row.candidateId = candidate.candidateId →
      row.isProcessed = true) : fw'.unprocessed < fw.unprocessed := by
  obtain ⟨rows, block, hRows⟩ := processCandidate_candidates hStep
  have hSettled : rows candidate = true := by
    rw [hRows] at hMarks
    exact (mark_candidate_iff hCandidate hOpen).mp hMarks
  rw [unprocessed, unprocessed, hRows]
  refine countP_map_lt ?_ hCandidate (by rw [hOpen]; rfl) (by rw [if_pos hSettled]; rfl)
  intro row _ hWaits
  split at hWaits
  · cases hWaits
  · exact hWaits

theorem oldest_eq_nil : fw.oldest = [] ↔ ∀ row ∈ fw.candidates, row.isProcessed = true := by
  constructor
  · intro hNone
    by_contra hSome
    have hOpen : fw.candidates.filter (·.isProcessed = false) ≠ [] := by
      intro hFilter
      refine hSome fun row hRow => ?_
      simpa using List.filter_eq_nil_iff.mp hFilter row hRow
    have hArgmin : (fw.candidates.filter (·.isProcessed = false)).argmin Candidate.logtime ≠ none :=
      mt List.argmin_eq_none.mp hOpen
    obtain ⟨row, hRow⟩ := Option.ne_none_iff_exists'.mp hArgmin
    have hMem := List.argmin_mem hRow
    refine List.filter_eq_nil_iff.mp hNone row (List.mem_of_mem_filter hMem) ?_
    have hWaits := (List.mem_filter.mp hMem).2
    refine decide_eq_true ⟨of_decide_eq_true hWaits, fun other hOther hWaits => ?_⟩
    exact List.le_of_mem_argmin (List.mem_filter.mpr ⟨hOther, decide_eq_true hWaits⟩) hRow
  · intro hAll
    refine List.filter_eq_nil_iff.mpr fun row hRow => ?_
    simp [hAll row hRow]

theorem mem_oldest (hCandidate : candidate ∈ fw.oldest) :
    candidate ∈ fw.candidates ∧ candidate.isProcessed = false := by
  have hRow := List.of_mem_filter hCandidate
  rw [decide_eq_true_eq] at hRow
  exact ⟨List.mem_of_mem_filter hCandidate, hRow.1⟩

/-- Every iteration marks its candidate, and so the loop ends, just when every network that is
blocked has the address in it that it is blocked for. -/
theorem loop_marks_iff (tools : WhoisTools) (lookups : Nat → Lookup) (fw : Firewall) :
    ((loop tools).Always lookups fw (Marks tools) ∧
      ∃ n last, n ≤ fw.unprocessed ∧ (loop tools).Ends lookups fw n last ∧
        ∀ row ∈ last.candidates, row.isProcessed = true) ↔
      (loop tools).Always lookups fw (InNetwork tools) := by
  have hStep : (loop tools).Always lookups fw (Marks tools) ↔
      (loop tools).Always lookups fw (InNetwork tools) := by
    refine Drain.Always.congr fun k fw candidate _ hFetch => ?_
    obtain ⟨hCandidate, hOpen⟩ := mem_oldest (mem_of_limitOne hFetch)
    exact marks_iff tools (lookups k) hCandidate hOpen
  rw [← hStep]
  refine and_iff_left_of_imp fun hMarks => ?_
  have hLess : (loop tools).Always lookups fw fun lookup candidate fw =>
      ∃ fw', fw.processCandidate tools lookup candidate = some fw' ∧
        fw'.unprocessed < fw.unprocessed := by
    intro k fw candidate hBefore hFetch
    obtain ⟨hCandidate, hOpen⟩ := mem_oldest (mem_of_limitOne hFetch)
    obtain ⟨fw', hHandle, hSettled⟩ := hMarks k fw candidate hBefore hFetch
    exact ⟨fw', hHandle, unprocessed_lt hCandidate hOpen hHandle hSettled⟩
  obtain ⟨n, last, hn, hBefore, hEnd⟩ := Drain.exists_ends unprocessed hLess
  exact ⟨n, last, hn, ⟨hBefore, hEnd⟩, oldest_eq_nil.mp (limitOne_eq_none.mp hEnd)⟩

/-- The candidate is the only one, and no network of the tables has its address in it. -/
structure Foreign (candidate : Candidate) (fw : Firewall) : Prop where
  only : fw.candidates = [candidate]
  blocks : ∀ block ∈ fw.blocks, ¬ candidate.ipAddress.Within block.blockedNetwork
  cache : ∀ row ∈ fw.cache, ¬ candidate.ipAddress.Within row.networkCidr

/-- It stays so when the network that gets blocked is another one. -/
theorem Foreign.processCandidate {tools : WhoisTools} {lookup : Lookup} {raw : Octets}
    {whois : Whois} {net : Inet} {fw' : Firewall} (hForeign : Foreign candidate fw)
    (hServer : lookup.whois candidate.ipAddress = some raw)
    (hParse : tools.parseWhois raw = some whois)
    (hPattern : tools.matchesPattern whois.json candidate.whoisMustMatch = true)
    (hDest : whois.destcidr candidate.ipAddress = .single net)
    (hOther : ¬ candidate.ipAddress.Within net)
    (hStep : fw.processCandidate tools lookup candidate = some fw') : Foreign candidate fw' := by
  have hMatch : fw.cidrmatch lookup candidate.ipAddress = none := by
    refine limitOne_eq_none.mpr (List.filter_eq_nil_iff.mpr fun block hBlock => ?_)
    simpa using hForeign.blocks block hBlock
  have hCached : fw.cachedata lookup candidate.ipAddress = none := by
    refine limitOne_eq_none.mpr (List.filter_eq_nil_iff.mpr fun row hRow => ?_)
    simpa using hForeign.cache row hRow
  have hRaw : fw.whoisraw lookup candidate.ipAddress = some raw := by
    rw [whoisraw, hCached]
    exact hServer
  simp only [Firewall.processCandidate, hMatch, hRaw, hParse, hDest, hCached, hPattern, if_true,
    Option.some.injEq] at hStep
  subst hStep
  refine ⟨?_, ?_, ?_⟩
  · have hRows : decide (candidate.ipAddress.Within net ∧ candidate.isProcessed = false) = false :=
      decide_eq_false fun hBoth => hOther hBoth.1
    show List.map _ fw.candidates = [candidate]
    rw [hForeign.only, List.map_singleton]
    exact congrArg (fun row => [row]) (if_neg (ne_true_of_eq_false hRows))
  · show ∀ block ∈ fw.blocks ++ [_], _
    rw [List.forall_mem_append, List.forall_mem_singleton]
    exact ⟨hForeign.blocks, hOther⟩
  · show ∀ row ∈ fw.cache ++ [_], _
    rw [List.forall_mem_append, List.forall_mem_singleton]
    exact ⟨hForeign.cache, hOther⟩

/-- A candidate is fetched over and over when the server names a network without it. -/
theorem not_ends_of_foreign {tools : WhoisTools} {lookups : Nat → Lookup} {raw : Octets}
    {whois : Whois} {net : Inet} (hForeign : Foreign candidate fw)
    (hOpen : candidate.isProcessed = false)
    (hServer : ∀ k, (lookups k).whois candidate.ipAddress = some raw)
    (hParse : tools.parseWhois raw = some whois)
    (hPattern : tools.matchesPattern whois.json candidate.whoisMustMatch = true)
    (hDest : whois.destcidr candidate.ipAddress = .single net)
    (hOther : ¬ candidate.ipAddress.Within net) (n : Nat) (last : Firewall) :
    ¬ (loop tools).Ends lookups fw n last := by
  rintro ⟨hBefore, hEnd⟩
  have hLast : Foreign candidate last := by
    refine Drain.before_invariant hForeign (fun k row fw fw' hFw hFetch hStep => ?_) n last hBefore
    have hRow := (mem_oldest (mem_of_limitOne hFetch)).1
    rw [hFw.only, List.mem_singleton] at hRow
    exact hFw.processCandidate (hServer k) hParse hPattern hDest hOther (hRow ▸ hStep)
  have hAll := oldest_eq_nil.mp (limitOne_eq_none.mp hEnd) candidate
  rw [hLast.only] at hAll
  exact absurd (hAll List.mem_cons_self) (ne_true_of_eq_false hOpen)

def foreignTools : WhoisTools where
  parseWhois _ := some ⟨some (.single ⟨false, 10 * 2 ^ 24, 8⟩), none, []⟩
  matchesPattern _ _ := true

def foreignCandidate : Candidate where
  candidateId := 1
  ipAddress := ⟨false, 192 * 2 ^ 24 + 168 * 2 ^ 16 + 1, 32⟩
  whoisMustMatch := []
  logtime := 0

/-- The server names `10.0.0.0/8` for the address `192.168.0.1`. -/
theorem not_ends_foreign : ¬ ∃ n last, (loop foreignTools).Ends
    (fun _ => ⟨0, 0, 0, 0, fun _ => some []⟩) ⟨[foreignCandidate], [], [], by decide⟩ n last := by
  rintro ⟨n, last, hEnds⟩
  have hForeign : Foreign foreignCandidate ⟨[foreignCandidate], [], [], by decide⟩ :=
    ⟨rfl, fun _ hBlock => (List.not_mem_nil hBlock).elim, fun _ hRow => (List.not_mem_nil hRow).elim⟩
  exact not_ends_of_foreign hForeign rfl (fun _ => rfl) rfl rfl rfl (by decide) n last hEnds

end Firewall

end PageCamel.Worker

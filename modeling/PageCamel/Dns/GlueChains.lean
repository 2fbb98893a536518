import PageCamel.Dns.CompileReply
import PageCamel.Lib.Chains

/-!
When `compile_reply` comes to an end. It asks itself for the addresses of every name a
CNAME, MX or NS record points to, without a bound on the depth and without a list of the
names it has passed; and it looks for one of our domains above a name by taking off one
label after the other, which a newline before the first dot prevents.
-/

namespace PageCamel.Dns.Server
open PageCamel.Lib Relation

variable {ρ : Type} (s : Server ρ)

/-! ### What a question depends on -/

/-- The rows the loop goes through. -/
def rows (q : Question) : List Entry :=
  match s.plan q with
  | .lines lines => lines
  | _ => []

/-- The second question is asked while the first one is answered. -/
def Asks (q g : Question) : Prop := ∃ line ∈ s.rows q, g ∈ glue q line

/-- `Net::DNS::RR->new` takes every text the question gives it. -/
def Parses (q : Question) : Prop :=
  match s.plan q with
  | .ptr text => (s.newRecord text).isSome
  | .lines lines => ∀ line ∈ lines, ∀ text ∈ s.texts q line, (s.newRecord text).isSome
  | _ => True

/-- The code at the label `dnsreply`. -/
def rcodeOf (q : Question) : Option Octets :=
  match s.plan q with
  | .noReply => none
  | .code rcode => some rcode
  | .ptr _ => some (octets "NOERROR")
  | .lines lines => some (if lines = [] then octets "NXDOMAIN" else octets "NOERROR")

/-- A newline stands before a dot of the name, and none of the names from there on up is one
of our domains. -/
inductive Stuck : Octets → Prop
  | newline {name : Octets} (hDot : 0x2E ∈ name) (hOwn : s.checkDomain name = false)
      (hNewline : 0x0A ∈ name.takeWhile (· ≠ 0x2E)) : Stuck name
  | label {name : Octets} (hDot : 0x2E ∈ name) (hOwn : s.checkDomain name = false)
      (hLabel : 0x0A ∉ name.takeWhile (· ≠ 0x2E)) (hRest : Stuck (dropLabel name)) : Stuck name

/-- The name is looked up elsewhere, and looking for our domains above it does not end. -/
def Hangs (q : Question) : Prop :=
  s.rcodeOf q = some (octets "NXDOMAIN") ∧ s.domainExists q.qname = false ∧
    s.config.remoteLookup = true ∧ s.Stuck q.qname

/-- The question is answered when all questions it asks are. -/
inductive Settled : Question → Prop
  | intro {q : Question} (hParses : s.Parses q) (hEnds : ¬ s.Hangs q)
      (hAsked : ∀ g, s.Asks q g → Settled g) : Settled q

theorem settled_iff (q : Question) :
    s.Settled q ↔ Acc (flip s.Asks) q ∧
      ∀ q', ReflTransGen s.Asks q q' → s.Parses q' ∧ ¬ s.Hangs q' := by
  constructor
  · intro h
    induction h with
    | intro hParses hEnds _ ih =>
        refine ⟨⟨_, fun g hAsks => (ih g hAsks).1⟩, ?_⟩
        intro q' hReach
        rcases hReach.cases_head with rfl | ⟨g, hAsks, hRest⟩
        · exact ⟨hParses, hEnds⟩
        · exact (ih g hAsks).2 q' hRest
  · rintro ⟨hAcc, hAll⟩
    induction hAcc with
    | intro q _ ih =>
        obtain ⟨hParses, hEnds⟩ := hAll q .refl
        apply Settled.intro hParses hEnds
        intro g hAsks
        exact ih g hAsks fun q' hReach => hAll q' (.head hAsks hReach)

/-! ### The loop over the labels of a name -/

theorem findOwndomain_mono {fuel fuel' : Nat} (hLe : fuel ≤ fuel') {name : Octets} {found : Bool}
    (h : s.findOwndomain fuel name = some found) : s.findOwndomain fuel' name = some found := by
  induction fuel generalizing fuel' name with
  | zero => cases h
  | succ fuel ih =>
      obtain ⟨fuel', rfl⟩ : ∃ n, fuel' = n + 1 := ⟨fuel' - 1, by omega⟩
      rw [findOwndomain] at h ⊢
      split
      · next hDot => rwa [if_pos hDot] at h
      · next hDot =>
          rw [if_neg hDot] at h
          split
          · next hOwn => rwa [if_pos hOwn] at h
          · next hOwn =>
              rw [if_neg hOwn] at h
              exact ih (by omega) h

theorem findOwndomain_stuck {name : Octets} (h : s.Stuck name) (fuel : Nat) :
    s.findOwndomain fuel name = none := by
  induction fuel generalizing name with
  | zero => rfl
  | succ fuel ih =>
      rw [findOwndomain]
      cases h with
      | newline hDot hOwn hNewline =>
          have hSame : dropLabel name = name := if_pos hNewline
          rw [if_neg (not_not.mpr hDot), hOwn, if_neg Bool.false_ne_true, hSame]
          exact ih (.newline hDot hOwn hNewline)
      | label hDot hOwn _ hRest =>
          rw [if_neg (not_not.mpr hDot), hOwn, if_neg Bool.false_ne_true]
          exact ih hRest

theorem length_dropLabel {name : Octets} (hDot : 0x2E ∈ name)
    (hLabel : 0x0A ∉ name.takeWhile (· ≠ 0x2E)) : (dropLabel name).length < name.length := by
  have hPositive := List.length_pos_of_mem hDot
  rw [dropLabel]
  simp only [if_neg hLabel, List.length_drop]
  omega

theorem findOwndomain_ends {name : Octets} (h : ¬ s.Stuck name) :
    ∃ fuel found, s.findOwndomain fuel name = some found := by
  by_cases hDot : 0x2E ∈ name
  · cases hOwn : s.checkDomain name with
    | true => exact ⟨1, true, by rw [findOwndomain, if_neg (not_not.mpr hDot), if_pos hOwn]⟩
    | false =>
        by_cases hLabel : 0x0A ∈ name.takeWhile (· ≠ 0x2E)
        · exact absurd (.newline hDot hOwn hLabel) h
        · have hShorter := length_dropLabel hDot hLabel
          have hRest : ¬ s.Stuck (dropLabel name) := fun hRest =>
            h (.label hDot hOwn hLabel hRest)
          obtain ⟨fuel, found, hFound⟩ := findOwndomain_ends hRest
          refine ⟨fuel + 1, found, ?_⟩
          rw [findOwndomain, if_neg (not_not.mpr hDot), hOwn, if_neg Bool.false_ne_true, hFound]
  · exact ⟨1, false, by rw [findOwndomain, if_pos hDot]⟩
termination_by name.length

/-! ### From the label `dnsreply` on -/

theorem isReply_lookUpExtern (q : Question) (sections : Sections ρ) :
    (s.lookUpExtern q sections).isReply = true := by
  rw [lookUpExtern]
  repeat' split
  all_goals rfl

theorem finish_isReply {fuel : Nat} {q : Question} {rcode : Octets} {sections : Sections ρ}
    {o : Outcome ρ} (h : s.finish fuel q rcode sections = some o) : o.isReply = true := by
  unfold finish at h
  split at h
  · split at h
    · cases h; rfl
    · split at h
      · cases hFound : s.findOwndomain fuel q.qname with
        | none => rw [hFound] at h; cases h
        | some found =>
            rw [hFound] at h
            cases found with
            | true => cases h; rfl
            | false => cases h; exact s.isReply_lookUpExtern q sections
      · cases h; rfl
  · split at h <;> cases h <;> rfl

/-- Only the search for one of our domains needs fuel. -/
theorem finish_eq_none_iff (fuel : Nat) (q : Question) (rcode : Octets) (sections : Sections ρ) :
    s.finish fuel q rcode sections = none ↔
      rcode = octets "NXDOMAIN" ∧ s.domainExists q.qname = false ∧
        s.config.remoteLookup = true ∧ s.findOwndomain fuel q.qname = none := by
  unfold finish
  by_cases hCode : rcode = octets "NXDOMAIN"
  · cases hExists : s.domainExists q.qname with
    | true => simp [hCode]
    | false =>
        cases hRemote : s.config.remoteLookup with
        | false => simp [hCode]
        | true =>
            cases hFound : s.findOwndomain fuel q.qname with
            | none => simp [hCode]
            | some found => cases found <;> simp [hCode]
  · simp only [if_neg hCode]
    split <;> simp [hCode]

theorem finish_mono {fuel fuel' : Nat} (hLe : fuel ≤ fuel') {q : Question} {rcode : Octets}
    {sections : Sections ρ} {o : Outcome ρ} (h : s.finish fuel q rcode sections = some o) :
    s.finish fuel' q rcode sections = some o := by
  rw [← h]
  have hSome : s.finish fuel q rcode sections ≠ none := by
    rw [h]
    simp
  unfold finish at hSome ⊢
  by_cases hCode : rcode = octets "NXDOMAIN"
  · simp only [if_pos hCode] at hSome ⊢
    cases hExists : s.domainExists q.qname with
    | true => rfl
    | false =>
        cases hRemote : s.config.remoteLookup with
        | false => rfl
        | true =>
            cases hFound : s.findOwndomain fuel q.qname with
            | none => simp [hExists, hRemote, hFound] at hSome
            | some found => rw [s.findOwndomain_mono hLe hFound]
  · simp only [if_neg hCode]


/-! ### The loop over the rows -/

theorem mapM_eq_none_iff {texts : List Octets} :
    texts.mapM s.newRecord = none ↔ ∃ text ∈ texts, s.newRecord text = none := by
  induction texts with
  | nil => simp
  | cons text texts ih =>
      rw [List.mapM_cons]
      cases hText : s.newRecord text with
      | none => simp [hText]
      | some record =>
          cases hRest : texts.mapM s.newRecord with
          | none => simpa [hText, hRest] using ih
          | some records => simpa [hText, hRest] using ih

section
variable (ask : Question → Option (Outcome ρ)) (q : Question)

/-- Glue is asked for until a question has no outcome, or one that is not a reply. -/
theorem askGlue_spec (line : Entry) (gs : List Question) (sections : Sections ρ) :
    match askGlue ask q line gs sections with
    | none => ∃ g ∈ gs, ask g = none
    | some (.ok _) => ∀ g ∈ gs, ∃ o, ask g = some o ∧ o.isReply = true
    | some (.error final) => ∃ g ∈ gs, ask g = some final ∧ final.isReply = false := by
  induction gs generalizing sections with
  | nil => exact fun g hMem => absurd hMem List.not_mem_nil
  | cons g gs ih =>
      rw [askGlue]
      cases hAsk : ask g with
      | none => exact ⟨g, List.mem_cons_self, hAsk⟩
      | some o =>
          cases o with
          | noReply => exact ⟨g, List.mem_cons_self, hAsk, rfl⟩
          | died => exact ⟨g, List.mem_cons_self, hAsk, rfl⟩
          | reply rcode glueAns auth add remotelookup =>
              have hRest := ih (addGlue q line glueAns sections)
              dsimp only
              generalize askGlue ask q line gs (addGlue q line glueAns sections) = r at hRest
              rcases r with _ | final | sections'
              · obtain ⟨g', hMem, hNone⟩ := hRest
                exact ⟨g', List.mem_cons_of_mem g hMem, hNone⟩
              · obtain ⟨g', hMem, hFinal⟩ := hRest
                exact ⟨g', List.mem_cons_of_mem g hMem, hFinal⟩
              · intro g' hMem
                rcases List.mem_cons.mp hMem with rfl | hMem
                · exact ⟨_, hAsk, rfl⟩
                · exact hRest g' hMem

/-- The loop ends early at a text that is not taken, or with an outcome of a question. -/
theorem answerLines_spec (lines : List Entry) (sections : Sections ρ) :
    match s.answerLines ask q lines sections with
    | none => ∃ line ∈ lines, ∃ g ∈ glue q line, ask g = none
    | some (.ok _) => ∀ line ∈ lines, (∀ text ∈ s.texts q line, (s.newRecord text).isSome) ∧
        ∀ g ∈ glue q line, ∃ o, ask g = some o ∧ o.isReply = true
    | some (.error final) => final.isReply = false ∧
        ((final = .died ∧ ∃ line ∈ lines, ∃ text ∈ s.texts q line, s.newRecord text = none) ∨
          ∃ line ∈ lines, ∃ g ∈ glue q line, ask g = some final) := by
  induction lines generalizing sections with
  | nil => exact fun line hMem => absurd hMem List.not_mem_nil
  | cons line lines ih =>
      rw [answerLines]
      cases hRecords : (s.texts q line).mapM s.newRecord with
      | none =>
          have hText := s.mapM_eq_none_iff.mp hRecords
          exact ⟨rfl, .inl ⟨rfl, line, List.mem_cons_self, hText⟩⟩
      | some records =>
          have hGlue := askGlue_spec ask q line (glue q line)
            { sections with ans := sections.ans ++ records }
          dsimp only
          generalize askGlue ask q line (glue q line)
            { sections with ans := sections.ans ++ records } = r at hGlue
          rcases r with _ | final | sections'
          · exact ⟨line, List.mem_cons_self, hGlue⟩
          · obtain ⟨g, hMem, hAsk, hFinal⟩ := hGlue
            exact ⟨hFinal, .inr ⟨line, List.mem_cons_self, g, hMem, hAsk⟩⟩
          · have hRest := ih sections'
            dsimp only
            generalize s.answerLines ask q lines sections' = r at hRest
            rcases r with _ | final | sections''
            · obtain ⟨line', hMem, hNone⟩ := hRest
              exact ⟨line', List.mem_cons_of_mem line hMem, hNone⟩
            · obtain ⟨hFinal, ⟨hDied, line', hMem, hText⟩ | ⟨line', hMem, hAsk⟩⟩ := hRest
              · exact ⟨hFinal, .inl ⟨hDied, line', List.mem_cons_of_mem line hMem, hText⟩⟩
              · exact ⟨hFinal, .inr ⟨line', List.mem_cons_of_mem line hMem, hAsk⟩⟩
            · intro line' hMem
              rcases List.mem_cons.mp hMem with rfl | hMem
              · refine ⟨fun text hText => ?_, hGlue⟩
                rw [Option.isSome_iff_ne_none]
                intro hNone
                rw [s.mapM_eq_none_iff.mpr ⟨text, hText, hNone⟩] at hRecords
                cases hRecords
              · exact hRest line' hMem

end

section
variable {ask ask' : Question → Option (Outcome ρ)}
variable (hMore : ∀ g o, ask g = some o → ask' g = some o) {q : Question}
include hMore

theorem askGlue_mono {line : Entry} {gs : List Question} {sections : Sections ρ}
    {r : Except (Outcome ρ) (Sections ρ)} (h : askGlue ask q line gs sections = some r) :
    askGlue ask' q line gs sections = some r := by
  induction gs generalizing sections with
  | nil => exact h
  | cons g gs ih =>
      rw [askGlue] at h ⊢
      cases hAsk : ask g with
      | none => rw [hAsk] at h; cases h
      | some o =>
          rw [hAsk] at h
          rw [hMore g o hAsk]
          cases o with
          | noReply | died => exact h
          | reply rcode glueAns auth add remotelookup => exact ih h

theorem answerLines_mono {lines : List Entry} {sections : Sections ρ}
    {r : Except (Outcome ρ) (Sections ρ)} (h : s.answerLines ask q lines sections = some r) :
    s.answerLines ask' q lines sections = some r := by
  induction lines generalizing sections with
  | nil => exact h
  | cons line lines ih =>
      rw [answerLines] at h ⊢
      cases hRecords : (s.texts q line).mapM s.newRecord with
      | none => rwa [hRecords] at h
      | some records =>
          rw [hRecords] at h
          dsimp only at h ⊢
          cases hGlue : askGlue ask q line (glue q line)
              { sections with ans := sections.ans ++ records } with
          | none => rw [hGlue] at h; cases h
          | some r' =>
              rw [hGlue] at h
              rw [askGlue_mono hMore hGlue]
              cases r' with
              | error final => exact h
              | ok sections' => exact ih h

end

theorem compileReply_mono {fuel fuel' : Nat} (hLe : fuel ≤ fuel') {q : Question} {o : Outcome ρ}
    (h : s.compileReply fuel q = some o) : s.compileReply fuel' q = some o := by
  induction fuel generalizing fuel' q o with
  | zero => cases h
  | succ fuel ih =>
      obtain ⟨fuel', rfl⟩ : ∃ n, fuel' = n + 1 := ⟨fuel' - 1, by omega⟩
      have hLe' : fuel ≤ fuel' := by omega
      rw [compileReply] at h ⊢
      cases hPlan : s.plan q with
      | noReply => rwa [hPlan] at h
      | code rcode =>
          rw [hPlan] at h
          exact s.finish_mono hLe' h
      | ptr text =>
          rw [hPlan] at h
          dsimp only at h ⊢
          cases hRecord : s.newRecord text with
          | none => rwa [hRecord] at h
          | some record =>
              rw [hRecord] at h
              exact s.finish_mono hLe' h
      | lines lines =>
          rw [hPlan] at h
          dsimp only at h ⊢
          cases hLines : s.answerLines (s.compileReply fuel) q lines {} with
          | none => rw [hLines] at h; cases h
          | some r =>
              rw [hLines] at h
              rw [s.answerLines_mono (fun g o hAsk => ih hLe' hAsk) hLines]
              cases r with
              | error final => exact h
              | ok sections => exact s.finish_mono hLe' h

/-! ### Questions for glue are never refused -/

theorem isownip_recursiveLookup : s.isownip recursiveLookup = true := by
  have hSame : dropMask recursiveLookup = recursiveLookup := by decide +kernel
  simp [isownip, hSame]

/-- The server asks it itself. -/
def Recursive (g : Question) : Prop := g.peerhost = recursiveLookup ∧ g.qname ≠ octets "sl"

theorem fixDestination_ne_sl (domain host : Octets) : fixDestination domain host ≠ octets "sl" := by
  intro hEq
  have hPlain : 0x2E ∉ octets "sl" ∧ 0x3A ∉ octets "sl" := by decide
  unfold fixDestination at hEq
  split at hEq
  · next hDot =>
      rw [hEq] at hDot
      exact hDot.elim hPlain.1 hPlain.2
  · have hMem : (0x2E : UInt8) ∈ host ++ [0x2E] ++ domain := by simp
    rw [hEq] at hMem
    exact hPlain.1 hMem

/-- A question for glue is about the name some record points to. -/
theorem mem_glue {q g : Question} {line : Entry} (h : g ∈ glue q line) :
    (line.recordType = .cname ∨ line.recordType = .mx ∨ line.recordType = .ns) ∧
      ∃ dest, destination line = some dest ∧ ∃ gluetype ∈ glueTypes q.qtype,
        g = { q with qname := dest, qtype := gluetype, peerhost := recursiveLookup } := by
  rw [glue] at h
  split at h
  · next hType =>
      obtain ⟨dest, hDest, hMap⟩ := List.mem_flatMap.mp h
      obtain ⟨gluetype, hGlue, rfl⟩ := List.mem_map.mp hMap
      exact ⟨hType, dest, Option.mem_toList.mp hDest, gluetype, hGlue, rfl⟩
  · cases h

theorem recursive_of_mem_glue {q g : Question} {line : Entry} (h : g ∈ glue q line) :
    Recursive g := by
  obtain ⟨_, dest, hDest, gluetype, _, rfl⟩ := mem_glue h
  refine ⟨rfl, ?_⟩
  rw [destination] at hDest
  obtain ⟨name, _, rfl⟩ := Option.map_eq_some_iff.mp hDest
  exact fixDestination_ne_sl line.domainFqdn name

theorem plan_recursive {g : Question} (h : Recursive g) : s.plan g ≠ .noReply := by
  obtain ⟨hPeer, hName⟩ := h
  rw [plan, if_neg hName, hPeer, isownip_recursiveLookup]
  simp only [Bool.not_true, Bool.and_false, Bool.false_and, Bool.false_eq_true, if_false]
  repeat' split
  all_goals simp

/-- How an outcome comes about. -/
inductive CameAbout (fuel : Nat) (q : Question) (o : Outcome ρ) : Prop
  /-- The question is refused before anything is looked up. -/
  | refused (hPlan : s.plan q = .noReply) (hOutcome : o = .noReply)
  /-- All that it asked was answered, and the label `dnsreply` was reached. -/
  | finished (rcode : Octets) (sections : Sections ρ) (hCode : s.rcodeOf q = some rcode)
      (hFinish : s.finish fuel q rcode sections = some o) (hParses : s.Parses q)
      (hAsked : ∀ g, s.Asks q g → ∃ o', s.compileReply fuel g = some o' ∧ o'.isReply = true)
  | exception (hOutcome : o = .died) (hParses : ¬ s.Parses q)
  /-- A question it asked had no reply, and neither has this one. -/
  | passedOn (g : Question) (hAsks : s.Asks q g) (hOutcome : s.compileReply fuel g = some o)
      (hFinal : o.isReply = false)

theorem not_asks {q : Question} (h : s.rows q = []) (g : Question) : ¬ s.Asks q g := by
  rintro ⟨line, hMem, _⟩
  rw [h] at hMem
  cases hMem

/-- What is said of a question whose plan is to go through rows. -/
theorem facts_of_lines {q : Question} {lines : List Entry} (hPlan : s.plan q = .lines lines) :
    s.rows q = lines ∧
      s.rcodeOf q = some (if lines = [] then octets "NXDOMAIN" else octets "NOERROR") ∧
      (s.Parses q ↔ ∀ line ∈ lines, ∀ text ∈ s.texts q line, (s.newRecord text).isSome) := by
  rw [rows, rcodeOf, Parses, hPlan]
  exact ⟨rfl, rfl, Iff.rfl⟩

theorem cameAbout {fuel : Nat} {q : Question} {o : Outcome ρ}
    (h : s.compileReply (fuel + 1) q = some o) : s.CameAbout fuel q o := by
  rw [compileReply] at h
  cases hPlan : s.plan q with
  | noReply =>
      rw [hPlan] at h
      exact .refused hPlan (Option.some.inj h).symm
  | code rcode =>
      rw [hPlan] at h
      have hRows : s.rows q = [] := by rw [rows, hPlan]
      exact .finished rcode {} (by rw [rcodeOf, hPlan]) h (by rw [Parses, hPlan]; trivial)
        fun g hAsks => absurd hAsks (s.not_asks hRows g)
  | ptr text =>
      rw [hPlan] at h
      dsimp only at h
      have hRows : s.rows q = [] := by rw [rows, hPlan]
      cases hRecord : s.newRecord text with
      | none =>
          rw [hRecord] at h
          refine .exception (Option.some.inj h).symm ?_
          rw [Parses, hPlan]
          simp [hRecord]
      | some record =>
          rw [hRecord] at h
          exact .finished (octets "NOERROR") { ans := [record] } (by rw [rcodeOf, hPlan]) h
            (by rw [Parses, hPlan]; simp [hRecord])
            fun g hAsks => absurd hAsks (s.not_asks hRows g)
  | lines lines =>
      rw [hPlan] at h
      dsimp only at h
      obtain ⟨hRows, hCode, hTexts⟩ := s.facts_of_lines hPlan
      have hSpec := s.answerLines_spec (s.compileReply fuel) q lines {}
      generalize s.answerLines (s.compileReply fuel) q lines {} = r at h hSpec
      rcases r with _ | final | sections
      · cases h
      · cases h
        obtain ⟨hFinal, ⟨hDied, line, hLine, text, hText, hNone⟩ | ⟨line, hLine, g, hGlue, hAsk⟩⟩ :=
          hSpec
        · refine .exception hDied fun hParses => ?_
          have hTaken := hTexts.mp hParses line hLine text hText
          rw [hNone] at hTaken
          cases hTaken
        · exact .passedOn g ⟨line, hRows ▸ hLine, hGlue⟩ hAsk hFinal
      · refine .finished _ sections hCode h ?_ ?_
        · exact hTexts.mpr fun line hLine => (hSpec line hLine).1
        · rintro g ⟨line, hLine, hGlue⟩
          rw [hRows] at hLine
          exact (hSpec line hLine).2 g hGlue

theorem compileReply_recursive (fuel : Nat) {g : Question} (h : Recursive g) :
    s.compileReply fuel g ≠ some .noReply := by
  induction fuel generalizing g with
  | zero => simp [compileReply]
  | succ fuel ih =>
      intro hNone
      cases s.cameAbout hNone with
      | refused hPlan => exact s.plan_recursive h hPlan
      | finished _ _ _ hFinish => cases s.finish_isReply hFinish
      | exception hOutcome => cases hOutcome
      | passedOn g' hAsks hOutcome =>
          obtain ⟨line, _, hGlue⟩ := hAsks
          exact ih (recursive_of_mem_glue hGlue) hOutcome

/-! ### Ends and answers -/

/-- Some amount of fuel suffices. -/
def Ends (q : Question) : Prop := ∃ fuel o, s.compileReply fuel q = some o

/-- It ends with a reply, or by sending none on purpose. -/
def Answers (q : Question) : Prop := ∃ fuel o, s.compileReply fuel q = some o ∧ o ≠ .died

theorem finish_ends {q : Question} (hEnds : ¬ s.Hangs q) {rcode : Octets}
    (hCode : s.rcodeOf q = some rcode) (sections : Sections ρ) :
    ∃ fuel o, s.finish fuel q rcode sections = some o := by
  by_contra hNot
  have hNone : ∀ fuel, s.finish fuel q rcode sections = none := by
    intro fuel
    cases hFinish : s.finish fuel q rcode sections with
    | none => rfl
    | some o => exact absurd ⟨fuel, o, hFinish⟩ hNot
  obtain ⟨hNx, hExists, hRemote, _⟩ := (s.finish_eq_none_iff 0 q rcode sections).mp (hNone 0)
  refine hEnds ⟨hNx ▸ hCode, hExists, hRemote, ?_⟩
  by_contra hFree
  obtain ⟨fuel, found, hFound⟩ := s.findOwndomain_ends hFree
  have hStill := ((s.finish_eq_none_iff fuel q rcode sections).mp (hNone fuel)).2.2.2
  rw [hFound] at hStill
  cases hStill

theorem not_hangs_of_finish {fuel : Nat} {q : Question} {rcode : Octets} {sections : Sections ρ}
    {o : Outcome ρ} (hCode : s.rcodeOf q = some rcode)
    (h : s.finish fuel q rcode sections = some o) : ¬ s.Hangs q := by
  rintro ⟨hNx, hExists, hRemote, hStuck⟩
  rw [hCode, Option.some.injEq] at hNx
  rw [(s.finish_eq_none_iff fuel q rcode sections).mpr
    ⟨hNx, hExists, hRemote, s.findOwndomain_stuck hStuck fuel⟩] at h
  cases h

theorem common_fuel (gs : List Question) (h : ∀ g ∈ gs, s.Ends g) :
    ∃ fuel, ∀ g ∈ gs, ∃ o, s.compileReply fuel g = some o := by
  induction gs with
  | nil => exact ⟨0, fun g hMem => absurd hMem List.not_mem_nil⟩
  | cons g gs ih =>
      obtain ⟨fuel, o, hOutcome⟩ := h g List.mem_cons_self
      obtain ⟨fuel', hAll⟩ := ih fun g' hMem => h g' (List.mem_cons_of_mem g hMem)
      refine ⟨max fuel fuel', fun g' hMem => ?_⟩
      rcases List.mem_cons.mp hMem with rfl | hMem
      · exact ⟨o, s.compileReply_mono (Nat.le_max_left fuel fuel') hOutcome⟩
      · obtain ⟨o', hOutcome'⟩ := hAll g' hMem
        exact ⟨o', s.compileReply_mono (Nat.le_max_right fuel fuel') hOutcome'⟩

/-- From the end of the loop over the rows. -/
theorem ends_of_finish {q : Question} (hEnds : ¬ s.Hangs q) {rcode : Octets}
    (hCode : s.rcodeOf q = some rcode) (sections : Sections ρ) (fuel : Nat)
    (hStep : ∀ fuel', fuel ≤ fuel' →
      s.compileReply (fuel' + 1) q = s.finish fuel' q rcode sections) : s.Ends q := by
  obtain ⟨fuel', o, hFinish⟩ := s.finish_ends hEnds hCode sections
  refine ⟨max fuel fuel' + 1, o, ?_⟩
  rw [hStep _ (Nat.le_max_left fuel fuel')]
  exact s.finish_mono (Nat.le_max_right fuel fuel') hFinish

theorem ends_of_settled {q : Question} (h : s.Settled q) : s.Ends q := by
  induction h with
  | @intro q hParses hEnds _ ih =>
      cases hPlan : s.plan q with
      | noReply => exact ⟨1, .noReply, by rw [compileReply, hPlan]⟩
      | code rcode =>
          have hCode : s.rcodeOf q = some rcode := by rw [rcodeOf, hPlan]
          apply s.ends_of_finish hEnds hCode {} 0
          intro fuel _
          rw [compileReply, hPlan]
      | ptr text =>
          have hCode : s.rcodeOf q = some (octets "NOERROR") := by rw [rcodeOf, hPlan]
          rw [Parses, hPlan] at hParses
          obtain ⟨record, hRecord⟩ := Option.isSome_iff_exists.mp hParses
          apply s.ends_of_finish hEnds hCode { ans := [record] } 0
          intro fuel _
          rw [compileReply, hPlan]
          dsimp only
          rw [hRecord]
      | lines lines =>
          obtain ⟨hRows, hCode, _⟩ := s.facts_of_lines hPlan
          have hAsked : ∀ g ∈ lines.flatMap (glue q), s.Ends g := by
            intro g hMem
            obtain ⟨line, hLine, hGlue⟩ := List.mem_flatMap.mp hMem
            exact ih g ⟨line, hRows ▸ hLine, hGlue⟩
          obtain ⟨fuel, hFuel⟩ := s.common_fuel _ hAsked
          have hSpec := s.answerLines_spec (s.compileReply fuel) q lines {}
          cases hLines : s.answerLines (s.compileReply fuel) q lines {} with
          | none =>
              rw [hLines] at hSpec
              obtain ⟨line, hLine, g, hGlue, hNone⟩ := hSpec
              obtain ⟨o, hSome⟩ := hFuel g (List.mem_flatMap.mpr ⟨line, hLine, hGlue⟩)
              rw [hNone] at hSome
              cases hSome
          | some r =>
              cases r with
              | error final =>
                  refine ⟨fuel + 1, final, ?_⟩
                  rw [compileReply, hPlan]
                  dsimp only
                  rw [hLines]
              | ok sections =>
                  apply s.ends_of_finish hEnds hCode sections fuel
                  intro fuel' hLe
                  have hMore := s.answerLines_mono (fun g o => s.compileReply_mono hLe) hLines
                  rw [compileReply, hPlan]
                  dsimp only
                  rw [hMore]

/-- An exception comes from a text that is not taken. -/
theorem not_parses_of_died {fuel : Nat} {q : Question}
    (h : s.compileReply fuel q = some .died) :
    ∃ q', ReflTransGen s.Asks q q' ∧ ¬ s.Parses q' := by
  induction fuel generalizing q with
  | zero => cases h
  | succ fuel ih =>
      cases s.cameAbout h with
      | refused _ hOutcome => cases hOutcome
      | finished _ _ _ hFinish => cases s.finish_isReply hFinish
      | exception _ hParses => exact ⟨q, .refl, hParses⟩
      | passedOn g hAsks hOutcome =>
          obtain ⟨q', hReach, hNot⟩ := ih hOutcome
          exact ⟨q', .head hAsks hReach, hNot⟩

/-- Where no text makes an exception, it ends only with an answer. -/
theorem answers_of_ends {q : Question} (hParses : ∀ q', ReflTransGen s.Asks q q' → s.Parses q')
    (h : s.Ends q) : s.Answers q := by
  obtain ⟨fuel, o, hOutcome⟩ := h
  refine ⟨fuel, o, hOutcome, ?_⟩
  rintro rfl
  obtain ⟨q', hReach, hNot⟩ := s.not_parses_of_died hOutcome
  exact hNot (hParses q' hReach)

/-- Every outcome but an exception has been reached through the outcomes of all the
questions that were asked, each of which was a reply. -/
theorem settled_of_compileReply {fuel : Nat} {q : Question} {o : Outcome ρ}
    (h : s.compileReply fuel q = some o) (hDied : o ≠ .died) : s.Settled q := by
  induction fuel generalizing q o with
  | zero => cases h
  | succ fuel ih =>
      cases s.cameAbout h with
      | refused hPlan =>
          have hRows : s.rows q = [] := by rw [rows, hPlan]
          refine .intro (by rw [Parses, hPlan]; trivial) ?_ fun g hAsks =>
            absurd hAsks (s.not_asks hRows g)
          rintro ⟨hCode, _⟩
          rw [rcodeOf, hPlan] at hCode
          cases hCode
      | finished rcode sections hCode hFinish hParses hAsked =>
          refine .intro hParses (s.not_hangs_of_finish hCode hFinish) fun g hAsks => ?_
          obtain ⟨o', hOutcome, hReply⟩ := hAsked g hAsks
          apply ih hOutcome
          rintro rfl
          cases hReply
      | exception hOutcome => exact absurd hOutcome hDied
      | passedOn g hAsks hOutcome hFinal =>
          -- a question for glue is not refused
          obtain ⟨line, _, hGlue⟩ := hAsks
          cases o with
          | noReply =>
              exact absurd hOutcome (s.compileReply_recursive fuel (recursive_of_mem_glue hGlue))
          | died => exact absurd rfl hDied
          | reply => cases hFinal

theorem answers_iff_settled (q : Question) : s.Answers q ↔ s.Settled q := by
  constructor
  · rintro ⟨fuel, o, hOutcome, hDied⟩
    exact s.settled_of_compileReply hOutcome hDied
  · intro hSettled
    apply s.answers_of_ends _ (s.ends_of_settled hSettled)
    intro q' hReach
    exact (((s.settled_iff q).mp hSettled).2 q' hReach).1

/-! ### Finitely many questions -/

/-- The rows with targets are rows of the table. -/
theorem mem_entries_of_mem_selectLines {qtype : RecordType} {qname : Octets} {line : Entry}
    (h : line ∈ s.selectLines qtype qname)
    (hType : line.recordType = .cname ∨ line.recordType = .mx ∨ line.recordType = .ns) :
    line ∈ s.db.entries := by
  have hSelected (types : List RecordType) (hMem : line ∈ types.flatMap fun type =>
      (((s.db.entries.filter fun line => ¬ line.isDisabled).filter fun line =>
        line.hostFqdn = qname).filter fun line => line.recordType = type).mergeSort
          s.db.byPriority) : line ∈ s.db.entries := by
    obtain ⟨type, _, hSort⟩ := List.mem_flatMap.mp hMem
    rw [List.mem_mergeSort] at hSort
    exact List.mem_of_mem_filter (List.mem_of_mem_filter (List.mem_of_mem_filter hSort))
  unfold selectLines at h
  cases qtype with
  | any =>
      rw [List.mem_mergeSort] at h
      exact List.mem_of_mem_filter (List.mem_of_mem_filter (List.mem_of_mem_filter h))
  | axfr =>
      have hZone : ∀ line' ∈ ((s.db.entries.filter fun line => ¬ line.isDisabled).filter
          fun line => line.domainFqdn = qname ∧ line.recordType ∈ listedTypes).mergeSort
            s.db.byType, line' ∈ s.db.entries := by
        intro line' hMem
        rw [List.mem_mergeSort] at hMem
        exact List.mem_of_mem_filter (List.mem_of_mem_filter hMem)
      dsimp only at h
      generalize ((s.db.entries.filter fun line => ¬ line.isDisabled).filter
          fun line => line.domainFqdn = qname ∧ line.recordType ∈ listedTypes).mergeSort
            s.db.byType = zone at h hZone
      rcases List.mem_append.mp h with hMem | hLast
      · exact hZone line hMem
      · rw [List.mem_singleton] at hLast
        cases zone with
        | nil =>
            -- the empty record has no target
            rw [hLast] at hType
            rcases hType with hOther | hOther | hOther <;> cases hOther
        | cons first rest =>
            rw [hLast]
            exact hZone first List.mem_cons_self
  | soa => exact List.mem_of_mem_filter (List.mem_of_mem_filter (List.mem_of_mem_filter h))
  | spf =>
      obtain ⟨line', _, rfl⟩ := List.mem_map.mp h
      rcases hType with hOther | hOther | hOther <;> cases hOther
  | caa =>
      rw [List.mem_mergeSort] at h
      exact List.mem_of_mem_filter (List.mem_of_mem_filter (List.mem_of_mem_filter h))
  | a | txt | mx | cname | ns | srv | aaaa | ptr | loc | sshfp | https | other => exact hSelected _ h

/-- The questions there are for the names the table points to. -/
def glueQuestions (q : Question) : List Question :=
  s.db.entries.flatMap fun line => (destination line).toList.flatMap fun dest =>
    [RecordType.a, .aaaa].map fun gluetype =>
      { q with qname := dest, qtype := gluetype, peerhost := recursiveLookup }

theorem mem_rows {q : Question} {line : Entry} (h : line ∈ s.rows q) :
    line ∈ s.selectLines q.qtype q.qname := by
  rw [rows] at h
  split at h
  · next lines hPlan =>
      unfold plan at hPlan
      simp only at hPlan
      repeat' split at hPlan
      all_goals cases hPlan
      exact h
  · cases h

theorem mem_glueQuestions {q g : Question} (h : s.Asks q g) : g ∈ s.glueQuestions q := by
  obtain ⟨line, hRow, hGlue⟩ := h
  obtain ⟨hType, dest, hDest, gluetype, hGluetype, rfl⟩ := mem_glue hGlue
  have hEntry := s.mem_entries_of_mem_selectLines (s.mem_rows hRow) hType
  refine List.mem_flatMap.mpr ⟨line, hEntry, List.mem_flatMap.mpr ⟨dest, ?_, ?_⟩⟩
  · exact Option.mem_toList.mpr hDest
  · exact List.mem_map.mpr ⟨gluetype, List.mem_of_mem_filter hGluetype, rfl⟩

/-- They do not depend on what was asked before. -/
theorem glueQuestions_eq {q g : Question} (h : g ∈ s.glueQuestions q) :
    s.glueQuestions g = s.glueQuestions q := by
  obtain ⟨_, _, hDest⟩ := List.mem_flatMap.mp h
  obtain ⟨_, _, hMap⟩ := List.mem_flatMap.mp hDest
  obtain ⟨_, _, rfl⟩ := List.mem_map.mp hMap
  rfl

theorem finite_reach (q : Question) : {q' | ReflTransGen s.Asks q q'}.Finite := by
  apply (List.finite_toSet (q :: s.glueQuestions q)).subset
  intro q' hReach
  induction hReach with
  | refl => exact List.mem_cons_self
  | @tail g g' _ hAsks ih =>
      apply List.mem_cons_of_mem
      have hMem := s.mem_glueQuestions hAsks
      rcases List.mem_cons.mp ih with rfl | hGlue
      · exact hMem
      · rwa [s.glueQuestions_eq hGlue] at hMem

/-! ### The chains -/

/-- Some chain of questions from this one comes back to a question it has passed. -/
def Returns (q : Question) : Prop :=
  ∃ q', ReflTransGen s.Asks q q' ∧ TransGen s.Asks q' q'

theorem acc_iff_not_returns (q : Question) : Acc (flip s.Asks) q ↔ ¬ s.Returns q := by
  rw [acc_iff_no_return (s.finite_reach q), Returns]
  push Not
  rfl

theorem answers_iff (q : Question) :
    s.Answers q ↔ ¬ s.Returns q ∧
      ∀ q', ReflTransGen s.Asks q q' → s.Parses q' ∧ ¬ s.Hangs q' := by
  rw [s.answers_iff_settled, s.settled_iff, s.acc_iff_not_returns]

/-- `compile_reply` ends with an answer exactly when no chain of questions returns, every
text is taken for a record, and no name is looked up elsewhere for which the search for our
domains does not end. Where every text is taken, it ends at all exactly then. -/
theorem compileReply_answers_iff (q : Question) :
    (s.Answers q ↔ ¬ s.Returns q ∧
      ∀ q', ReflTransGen s.Asks q q' → s.Parses q' ∧ ¬ s.Hangs q') ∧
    ((∀ q', ReflTransGen s.Asks q q' → s.Parses q') →
      (s.Ends q ↔ ¬ s.Returns q ∧ ∀ q', ReflTransGen s.Asks q q' → ¬ s.Hangs q')) := by
  refine ⟨s.answers_iff q, fun hParses => ?_⟩
  constructor
  · intro hEnds
    obtain ⟨hReturns, hAll⟩ := (s.answers_iff q).mp (s.answers_of_ends hParses hEnds)
    exact ⟨hReturns, fun q' hReach => (hAll q' hReach).2⟩
  · rintro ⟨hReturns, hHangs⟩
    obtain ⟨fuel, o, hOutcome, _⟩ := (s.answers_iff q).mpr
      ⟨hReturns, fun q' hReach => ⟨hParses q' hReach, hHangs q' hReach⟩⟩
    exact ⟨fuel, o, hOutcome⟩

/-! ### An alias of itself -/

/-- A server with these records that takes every text. -/
def ofEntries (entries : List Entry) : Server Octets where
  config := {}
  db := { entries }
  newRecord := some

/-- `www.example.com` is an alias of `www.example.com`. -/
def selfAlias : Entry where
  hostFqdn := octets "www.example.com"
  domainFqdn := octets "example.com"
  recordType := .cname
  textrecord := octets "www.example.com"
  ttlTime := octets "3600"

/-- The question for its address. -/
def selfQuestion (peerhost : Octets) : Question :=
  ⟨octets "www.example.com", octets "IN", .a, peerhost, .udp⟩

/-- The question of a client leads to one that asks itself. -/
theorem compileReply_selfAlias :
    ¬ ∀ (entries : List Entry) (q : Question), (ofEntries entries).Ends q := by
  intro hAll
  let s := ofEntries [selfAlias]
  let q := selfQuestion (octets "192.0.2.7")
  let g := selfQuestion recursiveLookup
  have hAsked : s.Asks q g := by
    have hRows : s.rows q = [selfAlias] := by decide +kernel
    exact ⟨selfAlias, by rw [hRows]; exact List.mem_cons_self, by decide +kernel⟩
  have hAsks : s.Asks g g := by
    have hRows : s.rows g = [selfAlias] := by decide +kernel
    exact ⟨selfAlias, by rw [hRows]; exact List.mem_cons_self, by decide +kernel⟩
  have hParses : ∀ q', ReflTransGen s.Asks q q' → s.Parses q' := by
    intro q' _
    rw [Parses]
    split
    · rfl
    · exact fun _ _ _ _ => rfl
    · trivial
  have hAnswers := s.answers_of_ends hParses (hAll [selfAlias] q)
  exact ((s.answers_iff q).mp hAnswers).1 ⟨g, .single hAsked, .single hAsks⟩

end PageCamel.Dns.Server

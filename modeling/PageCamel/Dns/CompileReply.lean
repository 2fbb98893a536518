import PageCamel.Lib.Octets
import Mathlib.Data.List.Basic

/-!
How the nameserver makes an answer (`compile_reply` in `DNS.pm`). The statements of the
database succeed, and what is only logged or counted is left out. What `Net::DNS::RR->new`
makes of a text and what `resolve_extern` finds are parameters, as are functions of the
database itself. The function calls itself for the names it finds, so it is given fuel.
-/

namespace PageCamel.Dns
open PageCamel.Lib

/-! ### The database and the question -/

/-- Types of questions and records; `other` for a type that is not implemented. -/
inductive RecordType
  | any | a | txt | mx | cname | ns | soa | spf | srv | aaaa | caa | axfr | ptr | loc | sshfp | https
  | other
  deriving DecidableEq, Repr

inductive Proto
  | udp
  | tcp
  deriving DecidableEq, Repr

structure Question where
  qname : Octets
  qclass : Octets
  qtype : RecordType
  peerhost : Octets
  proto : Proto
  deriving DecidableEq

/-- A row of `nameserver_domain_entry`; an empty text for NULL. -/
structure Entry where
  hostFqdn : Octets := []
  domainFqdn : Octets := []
  recordType : RecordType := .other
  textrecord : Octets := []
  mxpriority : Octets := []
  ttlTime : Octets := []
  computerName : Option Octets := none
  isDisabled : Bool := false
  deriving DecidableEq

/-- A row of `nameserver_domain`. -/
structure Domain where
  domainFqdn : Octets := []
  primaryNameserver : Octets := []
  soaAdmin : Octets := []
  soaSerial : Octets := []
  refreshTime : Octets := []
  retryTime : Octets := []
  expireTime : Octets := []
  ttlTime : Octets := []
  isAxfrMaster : Bool := false
  axfrSlave : Octets := []
  deriving DecidableEq

/-- A row of `computers`, with the columns that are not NULL. -/
structure Computer where
  computerName : Octets
  columns : List (Octets × Octets)
  deriving DecidableEq

structure ReverseLookup where
  ttlTime : Octets
  hostname : Octets
  deriving DecidableEq

structure Database where
  entries : List Entry
  domains : List Domain := []
  computers : List Computer := []
  blockedIps : List Octets := []
  blockedHosts : List Octets := []
  /-- `nameserver_reverselookup` by address. -/
  reverseLookup : Octets → Option ReverseLookup := fun _ => none
  /-- `nameserver_isforcenx`. -/
  isForceNx : Octets → Bool := fun _ => false
  /-- `LIKE`: a text and a pattern. -/
  like : Octets → Octets → Bool := fun text pattern => text = pattern
  /-- `ORDER BY record_type, mxpriority`. -/
  byPriority : Entry → Entry → Bool := fun _ _ => true
  /-- `ORDER BY decode_nameserver_record_type(record_type), record_type, mxpriority`. -/
  byType : Entry → Entry → Bool := fun _ _ => true

structure Config where
  bindAddresses : List Octets := []
  safeAddresses : List Octets := []
  publicServer : Bool := false
  remoteLookup : Bool := false
  columnPrefix : Option (List Octets) := none
  deriving DecidableEq

/-- A reply of the resolver; the records of its sections with their types. -/
structure ExternReply (ρ : Type) where
  answer : List (RecordType × ρ)
  authority : List ρ
  additional : List (RecordType × ρ)

structure Server (ρ : Type) where
  config : Config
  db : Database
  /-- `Net::DNS::RR->new`; `none` for an exception. -/
  newRecord : Octets → Option ρ
  /-- `resolve_extern`: a reply and an error. -/
  resolveExtern : Octets → RecordType → Option (ExternReply ρ) × Option Octets :=
    fun _ _ => (none, none)
  isoDate : Octets := []

def recursiveLookup : Octets := octets "999.999.999.999"

/-! ### Texts -/

/-- `s/\/.*//`. -/
def dropMask (ip : Octets) : Octets :=
  match cutAt [0x2F] ip with
  | none => ip
  | some (front, rest) => front ++ rest.dropWhile (· ≠ 0x0A)

/-- `s/\[//; s/\]//`. -/
def dropBrackets (ip : Octets) : Octets := (ip.erase 0x5B).erase 0x5D

/-- `s/\-.*//g`. -/
def dropDashes : Bool → Octets → Octets
  | _, [] => []
  | skip, b :: text =>
      if b = 0x0A then b :: dropDashes false text
      else if skip || b = 0x2D then dropDashes true text
      else b :: dropDashes false text

/-- The text before the ending, as `/^(.*)ending$/` finds it. -/
def beforeEnding (ending text : Octets) : Option Octets :=
  let text := if text.getLast? = some 0x0A then text.dropLast else text
  let front := text.take (text.length - ending.length)
  if ending.isSuffixOf text ∧ 0x0A ∉ front then some front else none

/-- `s/key/val/g` for a literal key. -/
def substitute (key val text : Octets) : Octets := List.intercalate val (pieces key text.length text)

/-- `/^(.*)\:(\d+)/`: the last colon of the first line with a digit behind it. -/
def hostAndPort (text : Octets) : Option (Octets × Octets) :=
  ((List.range text.length).reverse.find? fun i =>
    text[i]? = some 0x3A ∧ (text[i + 1]?.any isDigit) ∧ 0x0A ∉ text.take i).map fun i =>
      (text.take i, (text.drop (i + 1)).takeWhile isDigit)

/-- `split/\ /, $text, 3`, with empty texts for missing fields. -/
def splitThree (text : Octets) : Octets × Octets × Octets :=
  match cutAt [0x20] text with
  | none => (text, [], [])
  | some (first, rest) =>
      match cutAt [0x20] rest with
      | none => (first, rest, [])
      | some (second, third) => (first, second, third)

def fixDestination (domain host : Octets) : Octets :=
  if 0x2E ∈ host ∨ 0x3A ∈ host then host else host ++ [0x2E] ++ domain

/-- `s/^.*?\.//`. -/
def dropLabel (lookupname : Octets) : Octets :=
  let label := lookupname.takeWhile (· ≠ 0x2E)
  if 0x0A ∈ label then lookupname else lookupname.drop (label.length + 1)

namespace Server
variable {ρ : Type} (s : Server ρ)

def isownip (ip : Octets) : Bool :=
  let ip := dropMask ip
  let checkcols := (s.config.columnPrefix.getD []).flatMap fun column =>
    [column ++ octets "_ipv4", column ++ octets "_ipv6"]
  ip = recursiveLookup ∨ ip ∈ s.config.bindAddresses.map dropBrackets ∨
    ip ∈ s.config.safeAddresses.map dropBrackets ∨
    s.db.computers.any fun line => checkcols.any fun colname =>
      line.columns.lookup colname = some ip

def isowndomain (qtype : RecordType) (qname : Octets) : Bool :=
  qtype = .ptr ∨ s.db.entries.any fun line => line.hostFqdn = qname ∧ ¬ line.isDisabled

/-! ### The rows that are selected -/

def domain? (qname : Octets) : Option Domain :=
  s.db.domains.find? fun line => line.domainFqdn = qname

def hostDomains (qname : Octets) : List Octets :=
  (s.db.entries.filter fun line => line.hostFqdn = qname).map Entry.domainFqdn

/-- The types that questions for all records and zone transfers select. -/
def listedTypes : List RecordType :=
  [.ns, .mx, .a, .aaaa, .txt, .cname, .soa, .loc, .sshfp, .https]

/-- `@types` for the types that have no statement of their own. -/
def selectedTypes (qtype : RecordType) : List RecordType :=
  if qtype = .a ∨ qtype = .aaaa then [qtype, .cname] else [qtype]

/-- `@lines`. -/
def selectLines (qtype : RecordType) (qname : Octets) : List Entry :=
  let enabled := s.db.entries.filter fun line => ¬ line.isDisabled
  let ofHost := enabled.filter fun line => line.hostFqdn = qname
  let ofDomains := enabled.filter fun line => line.domainFqdn ∈ s.hostDomains qname
  match qtype with
  | .any => (ofHost.filter fun line => line.recordType ∈ listedTypes).mergeSort s.db.byType
  | .axfr =>
      let lines := (enabled.filter fun line =>
        line.domainFqdn = qname ∧ line.recordType ∈ listedTypes).mergeSort s.db.byType
      -- the first record is sent again as the last one, an empty one if there is none
      lines ++ [lines.headD {}]
  | .soa => ofDomains.filter fun line => line.recordType = .soa
  | .spf =>
      ((ofHost.filter fun line =>
          line.recordType = .txt ∧ s.db.like line.textrecord (octets "v=spf%")).mergeSort
        s.db.byPriority).map fun line => { line with recordType := .spf }
  | .caa => (ofDomains.filter fun line => line.recordType = .caa).mergeSort s.db.byPriority
  | qtype =>
      (selectedTypes qtype).flatMap fun type =>
        (ofHost.filter fun line => line.recordType = type).mergeSort s.db.byPriority

/-! ### Before the records -/

/-- The peer may have the zone. -/
def axfrAllowed (qname peerhost : Octets) : Bool :=
  match s.domain? qname with
  | none => false
  | some line =>
      let slaves := line.axfrSlave.filter (· ≠ 0x20)
      line.isAxfrMaster && peerhost ∈ splitAll [0x2C] slaves

/-- The address in a question for PTR records. -/
def realip (qname : Octets) : Option Octets :=
  match beforeEnding (octets ".in-addr.arpa") qname with
  | some reverseip =>
      some (dropDashes false (List.intercalate [0x2E] (splitAll [0x2E] reverseip).reverse))
  | none =>
      (beforeEnding (octets ".ip6.arpa") qname).map fun reverseip =>
        List.intercalate [0x3A] ((splitAll [0x2E] reverseip).reverse.flatten.toChunks 4)

/-- What is to be done for a question: nothing at all, an answer with a code alone or
with a PTR record, or an answer from rows. -/
inductive Plan
  | noReply
  | code (rcode : Octets)
  | ptr (text : Octets)
  | lines (lines : List Entry)
  deriving DecidableEq

def plan (q : Question) : Plan :=
  if q.qname = octets "sl" then .noReply
  else
    let ownip := s.isownip q.peerhost
    let owndomain := s.isowndomain q.qtype q.qname
    if !s.config.publicServer && !ownip && !owndomain then .noReply
    else if !ownip && q.peerhost ≠ recursiveLookup &&
        (q.peerhost ∈ s.db.blockedIps || q.qname ∈ s.db.blockedHosts) then .noReply
    else if 0x2E ∉ q.qname then .code (octets "INVALID")
    else if q.qtype = .other then .code (octets "NOTIMP")
    else if q.qtype = .axfr ∧ (q.proto ≠ .tcp ∨ ¬ s.axfrAllowed q.qname q.peerhost) then
      .code (octets "REFUSED")
    else if q.qtype = .ptr then
      match (realip q.qname).bind s.db.reverseLookup with
      | none => .code (octets "NXDOMAIN")
      | some ptrdata =>
          .ptr (q.qname ++ octets " " ++ ptrdata.ttlTime ++ octets " " ++ q.qclass ++
            octets " PTR " ++ ptrdata.hostname)
    else .lines (s.selectLines q.qtype q.qname)

/-! ### One record -/

/-- The start of the text of a record. -/
def origin (q : Question) (line : Entry) : Octets :=
  line.hostFqdn ++ octets " " ++ line.ttlTime ++ octets " " ++ q.qclass

/-- The name a CNAME, MX or NS record points to. -/
def destination (line : Entry) : Option Octets :=
  let name :=
    match line.computerName with
    | some computer => some computer
    | none => if line.textrecord ≠ [] then some line.textrecord else none
  name.map (fixDestination line.domainFqdn)

/-- The texts of A or AAAA records: of the columns of the computer, or else of the text. -/
def addressTexts (suffix type : Octets) (q : Question) (line : Entry) : List Octets :=
  let text (value : Octets) := origin q line ++ type ++ fixDestination line.domainFqdn value
  let computer := line.computerName.bind fun name =>
    s.db.computers.find? fun computer => computer.computerName = name
  let columns : List Octets :=
    match computer, s.config.columnPrefix with
    | some computer, some prefixes =>
        prefixes.filterMap fun column =>
          (computer.columns.lookup (column ++ suffix)).filter fun value =>
            value ≠ [] ∧ value ≠ octets "0"
    | _, _ => []
  if columns ≠ [] then columns.map text
  else if line.textrecord ≠ [] then [text line.textrecord]
  else []

/-- The texts of the records made for a row. -/
def texts (q : Question) (line : Entry) : List Octets :=
  match line.recordType with
  | .soa =>
      let times := (s.domain? line.domainFqdn).getD {}
      [origin q line ++ octets " SOA " ++ List.intercalate (octets " ")
        [times.primaryNameserver, times.soaAdmin, times.soaSerial, times.refreshTime,
          times.retryTime, times.expireTime, times.ttlTime]]
  | .a => s.addressTexts (octets "_ipv4") (octets " A ") q line
  | .aaaa => s.addressTexts (octets "_ipv6") (octets " AAAA ") q line
  | .srv =>
      match hostAndPort line.textrecord with
      | none => []
      | some (desthost, destport) =>
          [origin q line ++ octets " SRV " ++ line.mxpriority ++ octets " 1 " ++ destport ++
            octets " " ++ desthost]
  | .spf =>
      if line.textrecord = [] then []
      else [origin q line ++ octets " SPF \"" ++ line.textrecord ++ octets "\""]
  | .caa =>
      if line.textrecord = [] then []
      else
        let (caaflags, caatype, caatext) := splitThree line.textrecord
        [origin q line ++ octets " CAA " ++ caaflags ++ octets " " ++ caatype ++ octets " " ++
          caatext]
  | .txt =>
      if line.textrecord = [] then []
      else
        let text := octets "\"" ++ line.textrecord ++ octets "\""
        let text := substitute (octets "PEERHOST") q.peerhost text
        let text := substitute (octets "SERVERTIME") s.isoDate text
        [origin q line ++ octets " TXT " ++ text]
  | .https =>
      if line.textrecord = [] then []
      else
        [line.hostFqdn ++ octets " " ++ line.ttlTime ++ octets " HTTPS 1 . " ++ line.textrecord]
  | .cname => (destination line).toList.map fun dest => origin q line ++ octets " CNAME " ++ dest
  | .loc => [origin q line ++ octets " LOC " ++ line.textrecord]
  | .sshfp => [origin q line ++ octets " SSHFP " ++ line.textrecord]
  | .mx =>
      (destination line).toList.map fun dest =>
        origin q line ++ octets " MX " ++ line.mxpriority ++ octets " " ++ dest
  | .ns => (destination line).toList.map fun dest => origin q line ++ octets " NS " ++ dest
  | .any | .axfr | .ptr | .other => []

/-- `qw[A AAAA]` without the type that was not asked for. -/
def glueTypes (qtype : RecordType) : List RecordType :=
  [RecordType.a, .aaaa].filter fun gluetype =>
    ¬ (gluetype = .a ∧ qtype = .aaaa) ∧ ¬ (gluetype = .aaaa ∧ qtype = .a)

/-- The questions asked for the name a record points to. -/
def glue (q : Question) (line : Entry) : List Question :=
  if line.recordType = .cname ∨ line.recordType = .mx ∨ line.recordType = .ns then
    (destination line).toList.flatMap fun dest =>
      (glueTypes q.qtype).map fun gluetype =>
        { q with qname := dest, qtype := gluetype, peerhost := recursiveLookup }
  else []

end Server

/-! ### The reply -/

/-- What comes of a question: nothing is sent, an exception, or a reply. -/
inductive Outcome (ρ : Type)
  | noReply
  | died
  | reply (rcode : Octets) (ans auth add : List ρ) (remotelookup : Bool)

def Outcome.isReply {ρ : Type} : Outcome ρ → Bool
  | .reply _ _ _ _ _ => true
  | _ => false

/-- `@ans` and `@add`. -/
structure Sections (ρ : Type) where
  ans : List ρ := []
  add : List ρ := []

namespace Server
variable {ρ : Type} (s : Server ρ)

/-- Glue goes to the answers, but with the other records of a zone transfer. -/
def addGlue (q : Question) (line : Entry) (glueAns : List ρ) (sections : Sections ρ) :
    Sections ρ :=
  if q.qtype ≠ .axfr ∨ line.recordType = .ns then
    { sections with ans := sections.ans ++ glueAns }
  else { sections with add := sections.add ++ glueAns }

/-- The questions for one record, one after the other; an outcome without a reply is final. -/
def askGlue (ask : Question → Option (Outcome ρ)) (q : Question) (line : Entry) :
    List Question → Sections ρ → Option (Except (Outcome ρ) (Sections ρ))
  | [], sections => some (.ok sections)
  | g :: gs, sections =>
      match ask g with
      | none => none
      | some (.reply _ glueAns _ _ _) => askGlue ask q line gs (addGlue q line glueAns sections)
      | some final => some (.error final)

/-- The loop over the rows. -/
def answerLines (ask : Question → Option (Outcome ρ)) (q : Question) :
    List Entry → Sections ρ → Option (Except (Outcome ρ) (Sections ρ))
  | [], sections => some (.ok sections)
  | line :: lines, sections =>
      match (s.texts q line).mapM s.newRecord with
      | none => some (.error .died)
      | some records =>
          match askGlue ask q line (glue q line)
              { sections with ans := sections.ans ++ records } with
          | none => none
          | some (.error final) => some (.error final)
          | some (.ok sections) => answerLines ask q lines sections

/-- One of our domains is like the name. -/
def checkDomain (lookupname : Octets) : Bool :=
  s.db.domains.any fun line => s.db.like line.domainFqdn lookupname

/-- The loop that looks for one of our domains above a name. -/
def findOwndomain : Nat → Octets → Option Bool
  | 0, _ => none
  | fuel + 1, lookupname =>
      if 0x2E ∉ lookupname then some false
      else if s.checkDomain lookupname then some true
      else findOwndomain fuel (dropLabel lookupname)

def domainExists (qname : Octets) : Bool :=
  s.db.entries.any fun line =>
    (line.hostFqdn = qname ∨ line.domainFqdn = qname) ∧ ¬ line.isDisabled

/-- The lookup of a name that is not ours. -/
def lookUpExtern (q : Question) (sections : Sections ρ) : Outcome ρ :=
  if s.db.isForceNx q.qname then .reply (octets "NXDOMAIN") sections.ans [] sections.add false
  else
    let passed (records : List (RecordType × ρ)) : List ρ :=
      (records.filter fun record => record.1 ≠ .other).map Prod.snd
    match s.resolveExtern q.qname q.qtype with
    | (some reply, _) =>
        .reply (octets "NOERROR") (sections.ans ++ passed reply.answer) reply.authority
          (sections.add ++ passed reply.additional) true
    | (none, some error) =>
        let rcode :=
          if error = octets "FORCENX" ∨ error = octets "INVALID" then octets "NXDOMAIN" else error
        .reply rcode sections.ans [] sections.add true
    | (none, none) =>
        if q.qtype ≠ .any ∧ q.qtype ≠ .soa ∧ (s.resolveExtern q.qname .any).1.isSome then
          .reply (octets "NOERROR") sections.ans [] sections.add true
        else .reply (octets "NXDOMAIN") sections.ans [] sections.add true

/-- From the label `dnsreply` on. -/
def finish (fuel : Nat) (q : Question) (rcode : Octets) (sections : Sections ρ) :
    Option (Outcome ρ) :=
  let reply (rcode : Octets) : Outcome ρ := .reply rcode sections.ans [] sections.add false
  if rcode = octets "NXDOMAIN" then
    if s.domainExists q.qname then some (reply (octets "NOERROR"))
    else if s.config.remoteLookup then
      match s.findOwndomain fuel q.qname with
      | none => none
      | some true => some (reply (octets "NXDOMAIN"))
      | some false => some (s.lookUpExtern q sections)
    else some (reply (octets "NXDOMAIN"))
  else if rcode = octets "INVALID" then some (reply (octets "NXDOMAIN"))
  else some (reply rcode)

/-- `compile_reply`; `none` when the fuel does not suffice. -/
def compileReply : Nat → Question → Option (Outcome ρ)
  | 0, _ => none
  | fuel + 1, q =>
      match s.plan q with
      | .noReply => some .noReply
      | .code rcode => s.finish fuel q rcode {}
      | .ptr text =>
          match s.newRecord text with
          | none => some .died
          | some record => s.finish fuel q (octets "NOERROR") { ans := [record] }
      | .lines lines =>
          match s.answerLines (compileReply fuel) q lines {} with
          | none => none
          | some (.error final) => some final
          | some (.ok sections) =>
              s.finish fuel q (if lines = [] then octets "NXDOMAIN" else octets "NOERROR") sections

end Server

end PageCamel.Dns

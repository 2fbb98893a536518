import PageCamel.Helpers.Base64
import PageCamel.Lib.HeadLines
import PageCamel.Lib.Runs
import PageCamel.Web.Authcheck
import Mathlib.Data.List.DropRight

/-!
Basic authentication over histories in which passwords change and accounts are locked: the cache of
earlier successes is asked before the password.
-/

namespace PageCamel.Web
open PageCamel.Lib PageCamel.Helpers

/-! ### Passwords and locks -/

/-- What `update_password` draws and looks up before it writes. -/
structure NewSalts where
  presalt : Octets
  postsalt : Octets
  bsalt : Octets
  cost : Nat
  deriving DecidableEq, Repr

/-- A change to the rows of one name that keeps the name. -/
def changeUser (username : Octets) (change : UserRow → UserRow)
    (hName : ∀ row, (change row).username = row.username) (users : Users) : Users where
  rows := users.rows.map fun row => if row.username = username then change row else row
  usernameUnique := by
    have hNames : (fun row : UserRow => row.username) ∘
        (fun row => if row.username = username then change row else row) =
          fun row => row.username := by
      funext row
      simp only [Function.comp_apply]
      split
      · exact hName row
      · rfl
    rw [List.map_map, hNames]
    exact users.usernameUnique

def updatePassword (digests : Digests) (username password : Octets) (salts : NewSalts) :
    Users → Users :=
  changeUser username
    (fun row => { row with
      passwordPrefix := salts.presalt
      passwordPostfix := salts.postsalt
      passwordBcryptHash := digests.bcrypt salts.cost (digests.decodeBase64 salts.bsalt)
        (salts.presalt ++ password ++ salts.postsalt)
      passwordBcryptSalt := salts.bsalt
      passwordBcryptCost := salts.cost
      forcePasswordChange := false })
    fun _ => rfl

def setLocked (username : Octets) (locked : Bool) : Users → Users :=
  changeUser username (fun row => { row with accountLocked := locked }) fun _ => rfl

theorem selectPassword_changeUser {username other : Octets} {change : UserRow → UserRow}
    (hName : ∀ row, (change row).username = row.username) (hOther : other ≠ username)
    (users : Users) :
    (changeUser username change hName users).selectPassword other =
      users.selectPassword other := by
  rw [Users.selectPassword, Users.selectPassword]
  show List.find? _ (users.rows.map fun row =>
    if row.username = username then change row else row) = _
  induction users.rows with
  | nil => rfl
  | cons row rows ih =>
    rw [List.map_cons, List.find?_cons, List.find?_cons]
    by_cases hRow : row.username = username
    · have hHere : row.username ≠ other := fun hSame => hOther (hSame.symm.trans hRow)
      rw [if_pos hRow, hName]
      simp only [hHere, false_and, decide_false]
      exact ih
    · rw [if_neg hRow]
      split
      · rfl
      · exact ih

theorem verifyPassword_changeUser {username other : Octets} {change : UserRow → UserRow}
    (hName : ∀ row, (change row).username = row.username) (hOther : other ≠ username)
    (digests : Digests) (users : Users) (password : Octets) :
    verifyPassword digests (changeUser username change hName users) other password =
      verifyPassword digests users other password := by
  rw [verifyPassword, verifyPassword, selectPassword_changeUser hName hOther]

/-! ### Credentials -/

theorem pieces_of_not_mem {b : UInt8} {text : Octets} (hFree : b ∉ text) (fuel : Nat) :
    pieces [b] fuel text = [text] := by
  cases fuel with
  | zero => rfl
  | succ fuel => rw [pieces, cutAt, Http1.indexOf_eq_none hFree, Option.map_none]

theorem splitAll_prefix (sep text : Octets) :
    splitAll sep text <+: pieces sep text.length text := List.rdropWhile_prefix _ _

/-- The first two fields, and the cut at the first separator. -/
theorem cutAt_of_splitAll {b : UInt8} {text first second : Octets} {fields : List Octets}
    (hFields : splitAll [b] text = first :: second :: fields) :
    b ∉ first ∧ ∃ rest, cutAt [b] text = some (first, rest) ∧ (b ∉ rest → second = rest) := by
  have hPrefix := splitAll_prefix [b] text
  rw [hFields] at hPrefix
  by_cases hMem : b ∈ text
  · obtain ⟨front, rest, rfl, hFree⟩ := List.eq_append_cons_of_mem hMem
    have hCut : cutAt [b] (front ++ b :: rest) = some (front, rest) :=
      Http1.cutAt_append b [] front rest hFree
    have hPieces : pieces [b] (front ++ b :: rest).length (front ++ b :: rest) =
        front :: pieces [b] (front ++ rest).length rest := by
      rw [List.length_append, List.length_cons, ← Nat.add_assoc, pieces, hCut, List.length_append]
    rw [hPieces] at hPrefix
    obtain ⟨rfl, hRest⟩ := List.cons_prefix_cons.mp hPrefix
    refine ⟨hFree, rest, hCut, fun hLast => ?_⟩
    rw [pieces_of_not_mem hLast] at hRest
    exact (List.cons_prefix_cons.mp hRest).1
  · rw [pieces_of_not_mem hMem] at hPrefix
    have hLength := hPrefix.length_le
    simp at hLength

section Module
variable (site : Site)

/-- The user name before the first colon, and all that stands behind it. -/
def completeCredentials (ua : UserAgent) : Option (Octets × Octets) :=
  match ua.authorization with
  | none => none
  | some enc =>
      if (octets "Basic ").isPrefixOf enc then
        cutAt (octets ":") (site.decodeBase64 (enc.drop (octets "Basic ").length))
      else none

/-- Credentials that the header can carry as they are. -/
structure Plain (user pass : Octets) : Prop where
  user : user ≠ [] ∧ 58 ∉ user
  pass : pass ≠ [] ∧ 58 ∉ pass

theorem basicCredentials_complete {ua : UserAgent} {dynuser dynpass : Octets}
    (hSent : basicCredentials site ua = some (dynuser, dynpass)) :
    ∃ pass, completeCredentials site ua = some (dynuser, pass) ∧
      (58 ∉ pass → dynpass = pass ∧ Plain dynuser pass) := by
  rw [basicCredentials] at hSent
  rw [completeCredentials]
  cases hHeader : ua.authorization with
  | none => simp [hHeader] at hSent
  | some enc =>
    simp only [hHeader] at hSent ⊢
    split at hSent
    · next hBasic =>
      rw [if_pos hBasic]
      split at hSent
      · next user pass fields hFields =>
        split at hSent
        · cases hSent
        · next hSome =>
          cases hSent
          rw [not_or] at hSome
          obtain ⟨hUser, rest, hCut, hRest⟩ := cutAt_of_splitAll hFields
          refine ⟨rest, hCut, fun hFree => ?_⟩
          cases hRest hFree
          exact ⟨rfl, ⟨hSome.1, hUser⟩, ⟨hSome.2, hFree⟩⟩
      · cases hSent
    · cases hSent

/-! ### Histories -/

structure AuthWorld where
  store : Store
  now : Nat

/-- The clock stands still while a request is handled. -/
inductive AuthEvent where
  | tick (elapsed : Nat)
  | request (m : Moment) (ua : UserAgent) (realm : Octets)
  | updatePassword (username password : Octets) (salts : NewSalts)
  | setLocked (username : Octets) (locked : Bool)
  /-- The cache expiry in `work` of `SerialCommands.pm`. -/
  | work
  | setPermissions (permissions : PermissionTables)

def AuthWorld.mapDb (s : AuthWorld) (f : Database → Database) : AuthWorld :=
  { s with store := { s.store with db := f s.store.db } }

def authStep (s : AuthWorld) : AuthEvent → AuthWorld
  | .tick elapsed => { s with now := s.now + elapsed }
  | .request m ua realm =>
      { s with store := (doBasicAuth site { m with now := s.now } s.store ua realm).2 }
  | .updatePassword username password salts =>
      s.mapDb fun db => { db with
        users := updatePassword site.toDigests username password salts db.users }
  | .setLocked username locked =>
      s.mapDb fun db => { db with users := setLocked username locked db.users }
  | .work =>
      s.mapDb fun db => { db with
        usersBasicauthcache := db.usersBasicauthcache.filter fun entry => s.now ≤ entry.2 }
  | .setPermissions permissions => s.mapDb fun db => { db with permissions }

/-- Whoever passes has sent a password that is right at that moment, and may see the page. -/
def PassesRightly (s : AuthWorld) : AuthEvent → Prop
  | .request m ua realm =>
      (doBasicAuth site { m with now := s.now } s.store ua realm).1 = .noResult →
        ∃ user pass, completeCredentials site ua = some (user, pass) ∧
          verifyPassword site.toDigests s.store.db.users user pass = true ∧
          checkAccessForUser site s.store.db ua.url user = true
  | _ => True

/-- An entry of the cache that has not expired lets the credentials pass. -/
def Cached (s : AuthWorld) (user pass : Octets) : Prop :=
  ∃ entry ∈ s.store.db.usersBasicauthcache,
    entry.1 = authcookie site user pass ∧ s.now ≤ entry.2

/-- The text under which credentials are cached. -/
def cookieText (user pass : Octets) : Octets :=
  site.basicauthPrefixSalt ++ user ++ site.basicauthMiddleSalt ++ pass ++ site.basicauthPostfixSalt

/-- What the user has in the cache is right for these tables. -/
def StillRight (s : AuthWorld) (username : Octets) (users : Users) : Prop :=
  ∀ pass, Plain username pass → Cached site s username pass →
    verifyPassword site.toDigests users username pass = true

/-- A password has no colon, and right credentials are cached under a text that only right
credentials have. A password is changed, or an account locked, when the cache has nothing of the
user that this makes wrong. -/
def Careful (s : AuthWorld) : AuthEvent → Prop
  | .request m ua _ =>
      ∀ user pass, completeCredentials site ua = some (user, pass) →
        58 ∉ pass ∧
        (m.insertAuthcookie = true →
          verifyPassword site.toDigests s.store.db.users user pass = true →
          ∀ user' pass', Plain user' pass' → cookieText site user' pass' = cookieText site user pass →
            verifyPassword site.toDigests s.store.db.users user' pass' = true)
  | .updatePassword username password salts =>
      StillRight site s username
        (updatePassword site.toDigests username password salts s.store.db.users)
  | .setLocked username locked =>
      StillRight site s username (setLocked username locked s.store.db.users)
  | _ => True

/-- What is cached is right. -/
def CacheRight (s : AuthWorld) : Prop :=
  ∀ user pass, Plain user pass → Cached site s user pass →
    verifyPassword site.toDigests s.store.db.users user pass = true

section Step
variable {site} {s : AuthWorld}

variable (site) in
theorem authcookieCached_iff (m : Moment) (user pass : Octets) :
    authcookieCached site { m with now := s.now } s.store.db user pass = true ↔
      Cached site s user pass := by
  simp [authcookieCached, Cached]

theorem cacheRight_changeUser {username : Octets} {change : UserRow → UserRow}
    {hName : ∀ row, (change row).username = row.username} (hRight : CacheRight site s)
    (hStill : StillRight site s username (changeUser username change hName s.store.db.users)) :
    CacheRight site (s.mapDb fun db =>
      { db with users := changeUser username change hName db.users }) := by
  intro user pass hPlain hCached
  by_cases hUser : user = username
  · rw [hUser] at hPlain hCached ⊢
    exact hStill pass hPlain hCached
  · exact (verifyPassword_changeUser hName hUser _ _ _).trans
      (hRight user pass hPlain hCached)

variable (site) in
/-- The cache and the users after `do_basic_auth`. -/
theorem doBasicAuth_cases (m : Moment) (store : Store) (ua : UserAgent) (realm : Octets) :
    (doBasicAuth site m store ua realm).2 = store ∨
      ∃ dynuser dynpass, basicCredentials site ua = some (dynuser, dynpass) ∧
        verifyPassword site.toDigests store.db.users dynuser dynpass = true ∧
        m.insertAuthcookie = true ∧
        (doBasicAuth site m store ua realm).2 = { store with
          db := { store.db with
            usersBasicauthcache := store.db.usersBasicauthcache ++
              [(authcookie site dynuser dynpass, m.authcookieValidUntil)] } } := by
  rw [doBasicAuth]
  cases hSent : basicCredentials site ua with
  | none => exact .inl rfl
  | some sent =>
    obtain ⟨dynuser, dynpass⟩ := sent
    have hStore : ∀ checked : Bool × Database,
        (if !checked.1 then
            (Answer.result (genBasicAuthRequest realm), { store with db := checked.2 })
          else if !checkAccessForUser site checked.2 ua.url dynuser then
            (.result (genBasicAuthRequest realm), { store with db := checked.2 })
          else (.noResult, { store with db := checked.2 })).2 = { store with db := checked.2 } := by
      intro checked
      split
      · rfl
      · split
        · rfl
        · rfl
    refine (hStore (checkBasicAuth site m store.db dynuser dynpass)).symm ▸ ?_
    rw [checkBasicAuth]
    split
    · exact .inl rfl
    · split
      · next hRight =>
        split
        · next hInsert => exact .inr ⟨dynuser, dynpass, rfl, hRight, hInsert, rfl⟩
        · exact .inl rfl
      · exact .inl rfl

theorem cacheRight_request (hSha : Function.Injective site.sha256Hex) (hRight : CacheRight site s)
    {m : Moment} {ua : UserAgent} {realm : Octets} (hCareful : Careful site s (.request m ua realm)) :
    CacheRight site (authStep site s (.request m ua realm)) := by
  rw [authStep]
  rcases doBasicAuth_cases site { m with now := s.now } s.store ua realm with
    hSame | ⟨dynuser, dynpass, hSent, hVerified, hInsert, hStore⟩
  · rw [hSame]
    exact hRight
  · rw [hStore]
    obtain ⟨pass, hComplete, hPass⟩ := basicCredentials_complete site hSent
    obtain ⟨hColon, hAlone⟩ := hCareful dynuser pass hComplete
    obtain ⟨rfl, -⟩ := hPass hColon
    intro user' pass' hPlain hCached
    obtain ⟨entry, hEntry, hCookie, hValid⟩ := hCached
    rcases List.mem_append.mp hEntry with hOld | hNew
    · exact hRight user' pass' hPlain ⟨entry, hOld, hCookie, hValid⟩
    · rw [List.mem_singleton.mp hNew] at hCookie
      exact hAlone hInsert hVerified user' pass' hPlain (hSha hCookie).symm

theorem cacheRight_step (hSha : Function.Injective site.sha256Hex) {e : AuthEvent}
    (hRight : CacheRight site s) (hCareful : Careful site s e) :
    CacheRight site (authStep site s e) := by
  cases e with
  | tick elapsed =>
    rintro user pass hPlain ⟨entry, hEntry, hCookie, hValid⟩
    exact hRight user pass hPlain ⟨entry, hEntry, hCookie, Nat.le_of_add_right_le hValid⟩
  | request m ua realm => exact cacheRight_request hSha hRight hCareful
  | updatePassword username password salts => exact cacheRight_changeUser hRight hCareful
  | setLocked username locked => exact cacheRight_changeUser hRight hCareful
  | work =>
    rintro user pass hPlain ⟨entry, hEntry, hBoth⟩
    exact hRight user pass hPlain ⟨entry, (List.mem_filter.mp hEntry).1, hBoth⟩
  | setPermissions permissions => exact hRight

theorem passesRightly_of_cacheRight {e : AuthEvent} (hRight : CacheRight site s)
    (hCareful : Careful site s e) : PassesRightly site s e := by
  cases e with
  | request m ua realm =>
    intro hPass
    obtain ⟨dynuser, dynpass, hSent, hChecked, hAccess⟩ :=
      doBasicAuth_noResult site _ s.store ua realm hPass
    obtain ⟨pass, hComplete, hWhole⟩ := basicCredentials_complete site hSent
    obtain ⟨rfl, hPlain⟩ := hWhole (hCareful dynuser pass hComplete).1
    refine ⟨dynuser, dynpass, hComplete, ?_, hAccess⟩
    rcases hChecked with hCached | hVerified
    · exact hRight dynuser dynpass hPlain ((authcookieCached_iff site m dynuser dynpass).mp hCached)
    · exact hVerified
  | tick | updatePassword | setLocked | work | setPermissions => trivial

end Step

/-- Credentials that are cached and wrong pass. -/
theorem not_passesRightly {s : AuthWorld} {m : Moment} {ua : UserAgent} {realm : Octets}
    {user pass : Octets} (hSent : basicCredentials site ua = some (user, pass))
    (hCached : Cached site s user pass)
    (hAccess : checkAccessForUser site s.store.db ua.url user = true)
    (hWrong : ∀ whole, completeCredentials site ua = some (user, whole) →
      verifyPassword site.toDigests s.store.db.users user whole = false) :
    ¬ PassesRightly site s (.request m ua realm) := by
  intro hRightly
  have hPass : (doBasicAuth site { m with now := s.now } s.store ua realm).1 = .noResult := by
    have hHit := (authcookieCached_iff site m user pass).mpr hCached
    simp [doBasicAuth, hSent, checkBasicAuth, hHit, hAccess]
  obtain ⟨user', whole, hComplete, hVerified, -⟩ := hRightly hPass
  obtain ⟨whole', hComplete', -⟩ := basicCredentials_complete site hSent
  cases hComplete.symm.trans hComplete'
  rw [hWrong whole hComplete] at hVerified
  cases hVerified

/-- Credentials without the first octet of the middle salt have a text of their own. -/
theorem cookieText_alone {b : UInt8} {salt user pass user' pass' : Octets}
    (hSalt : site.basicauthMiddleSalt = b :: salt) (hUser : b ∉ user) (hPass : b ∉ pass)
    (hText : cookieText site user' pass' = cookieText site user pass) :
    user' = user ∧ pass' = pass := by
  simp only [cookieText, hSalt, List.append_assoc, List.append_cancel_left_eq] at hText
  have hCount := congrArg (List.count b) hText
  simp only [List.count_append, List.count_cons_self, List.cons_append] at hCount
  rw [List.count_eq_zero.mpr hUser, List.count_eq_zero.mpr hPass] at hCount
  have hUser' : b ∉ user' := List.count_eq_zero.mp (by omega)
  have hFirst : ∀ {text : Octets}, b ∉ text → ∀ rest,
      (text ++ b :: rest).takeWhile (· ≠ b) = text := by
    intro text hFree rest
    rw [takeWhile_append_of_all, List.takeWhile_cons_of_neg (by simp), List.append_nil]
    exact fun c hMem => decide_eq_true fun hSame => hFree (hSame ▸ hMem)
  have hFront := congrArg (List.takeWhile (· ≠ b)) hText
  simp only [List.cons_append] at hFront
  rw [hFirst hUser', hFirst hUser] at hFront
  rw [hFront] at hText
  simpa using And.intro hFront hText

/-- In every history of careful steps basic authentication lets pass only who has sent the right
password for a page that he may see. -/
theorem basicAuth_passes_rightly (hSha : Function.Injective site.sha256Hex) {s : AuthWorld}
    (hStart : CacheRight site s) {events : List AuthEvent}
    (hCareful : Meets (authStep site) (Careful site) s events) :
    Meets (authStep site) (PassesRightly site) s events := by
  induction events generalizing s with
  | nil => trivial
  | cons e events ih =>
    exact ⟨passesRightly_of_cacheRight hStart hCareful.1,
      ih (cacheRight_step hSha hStart hCareful.1) hCareful.2⟩

end Module

/-! ### A password that changes -/

def davText (password : String) : Octets :=
  List.replicate 20 97 ++ octets password ++ List.replicate 20 98

/-- The digests of the two passwords, and of the one that comes to be cached first. -/
def davSite : Site :=
  { staffSite with
    bcrypt := fun _ _ text =>
      if text = davText "old" then octets "X6mW5u0dz27w91mpiXCF/eMw/erMqfU"
      else if text = davText "new" then octets "sUwrKuB7osUoEYzv+yF0HfuxSqgVUvI"
      else []
    decodeBase64 := Base64.decodeBase64
    sha256Hex := fun text =>
      if text = List.replicate 20 112 ++ octets "ann" ++ List.replicate 20 109 ++ octets "old" ++
          List.replicate 20 113 then
        octets "2a6cc07a27af96807d27fe6a6675a19b9e46d4b0ea0dec9681182d667022fdf5"
      else 120 :: text
    basicauthPrefixSalt := List.replicate 20 112
    basicauthMiddleSalt := List.replicate 20 109
    basicauthPostfixSalt := List.replicate 20 113 }

def davSalts : NewSalts where
  presalt := List.replicate 20 97
  postsalt := List.replicate 20 98
  bsalt := octets "cdefghijklmnopqrstuvww=="
  cost := 4

def davUser : UserRow where
  username := octets "ann"
  emailAddr := []
  firstName := []
  lastName := []
  nameInitials := []
  organisation := []
  userId := octets "1"
  accountLocked := false
  passwordPrefix := davSalts.presalt
  passwordPostfix := davSalts.postsalt
  passwordBcryptHash := octets "X6mW5u0dz27w91mpiXCF/eMw/erMqfU"
  passwordBcryptSalt := davSalts.bsalt
  passwordBcryptCost := davSalts.cost
  forcePasswordChange := false
  appkey := []
  hardwareFob := []
  applogin_usercode := []

def davWorld : AuthWorld where
  store := { staffSystem.store with
    db := { staffSystem.store.db with
      users := { rows := [davUser], usernameUnique := List.nodup_singleton _ } } }
  now := 100

/-- A page for which nobody needs a right, with the password `old` or `new` in the header. -/
def davRequest (authorization : String) : AuthEvent :=
  .request quietMoment
    { url := octets "/dav/a.txt", remoteAddr := octets "10.0.0.1",
      authorization := some (octets authorization) } (octets "dav")

theorem injective_one {known digest : Octets} {c : UInt8} (hOther : ∀ text, c :: text ≠ digest) :
    Function.Injective fun text => if text = known then digest else c :: text := by
  intro text text' hSame
  dsimp only at hSame
  by_cases hKnown : text = known
  · by_cases hKnown' : text' = known
    · rw [hKnown, hKnown']
    · rw [if_pos hKnown, if_neg hKnown'] at hSame
      exact absurd hSame.symm (hOther text')
  · by_cases hKnown' : text' = known
    · rw [if_neg hKnown, if_pos hKnown'] at hSame
      exact absurd hSame (hOther text)
    · rw [if_neg hKnown, if_neg hKnown'] at hSame
      exact (List.cons.inj hSame).2

theorem davSite_injective : Function.Injective davSite.sha256Hex :=
  injective_one fun text hSame => absurd (List.cons.inj hSame).1 (by decide)

theorem davCareful {s : AuthWorld} {authorization : String} (pass : String)
    (hSent : completeCredentials davSite
      { url := octets "/dav/a.txt", remoteAddr := octets "10.0.0.1",
        authorization := some (octets authorization) } = some (octets "ann", octets pass))
    (hColon : 58 ∉ octets pass) (hSalt : 109 ∉ octets pass) :
    Careful davSite s (davRequest authorization) := by
  intro user whole hComplete
  cases hSent.symm.trans hComplete
  refine ⟨hColon, fun _ hRight user' pass' _ hText => ?_⟩
  obtain ⟨rfl, rfl⟩ := cookieText_alone davSite (b := 109) rfl (by decide) hSalt hText
  exact hRight

/-- The password is changed when the cache has expired. -/
theorem basicAuth_passes_ann :
    Meets (authStep davSite) (PassesRightly davSite) davWorld
      [davRequest "Basic YW5uOm9sZA==", .tick 700, .work,
        .updatePassword (octets "ann") (octets "new") davSalts,
        davRequest "Basic YW5uOm5ldw=="] := by
  have hEmpty : ∀ user pass, ¬ Cached davSite davWorld user pass := by
    rintro user pass ⟨entry, hEntry, -⟩
    exact List.not_mem_nil hEntry
  refine basicAuth_passes_rightly davSite davSite_injective
    (fun user pass _ hCached => absurd hCached (hEmpty user pass))
    ⟨davCareful "old" (by decide) (by decide) (by decide), trivial, trivial, ?_,
      davCareful "new" (by decide) (by decide) (by decide), trivial⟩
  rintro pass - ⟨entry, hEntry, -⟩
  have hExpired : (authStep davSite (authStep davSite (authStep davSite davWorld
      (davRequest "Basic YW5uOm9sZA==")) (.tick 700)) .work).store.db.usersBasicauthcache = [] := by
    decide
  rw [hExpired] at hEntry
  exact absurd hEntry List.not_mem_nil

/-- The old password still passes when it has been changed. -/
theorem basicAuth_passes_old :
    ¬ Meets (authStep davSite) (PassesRightly davSite) davWorld
      [davRequest "Basic YW5uOm9sZA==", .updatePassword (octets "ann") (octets "new") davSalts,
        davRequest "Basic YW5uOm9sZA=="] := by
  rintro ⟨-, -, hAgain, -⟩
  have hSent : basicCredentials davSite
      { url := octets "/dav/a.txt", remoteAddr := octets "10.0.0.1",
        authorization := some (octets "Basic YW5uOm9sZA==") } =
      some (octets "ann", octets "old") := by decide
  refine not_passesRightly davSite hSent ?_ (by decide) ?_ hAgain
  · exact ⟨(authcookie davSite (octets "ann") (octets "old"), 700), by decide, rfl, by decide⟩
  · intro whole hComplete
    have hSent : completeCredentials davSite
        { url := octets "/dav/a.txt", remoteAddr := octets "10.0.0.1",
          authorization := some (octets "Basic YW5uOm9sZA==") } =
        some (octets "ann", octets "old") := by decide
    cases hSent.symm.trans hComplete
    decide

end PageCamel.Web

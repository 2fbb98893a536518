import PageCamel.Web.Login

/-!
What `authcheck` lets through, over all histories of requests: a session of the client with a
cached user who may see the page, or basic authentication.
-/

namespace PageCamel.Web
open PageCamel.Lib PageCamel.Helpers

section Module
variable (site : Site)

/-! ### Sessions that count -/

/-- The session is in the table for the client. -/
def HasSession (db : Database) (session remoteAddr : Octets) : Prop :=
  ∃ row ∈ db.sessions, row.sid = session ∧ row.clientIp = remoteAddr

/-- The session lets the client see the page. -/
structure SessionGrants (store : Store) (ua : UserAgent) (session : Octets) : Prop where
  inTable : HasSession store.db session ua.remoteAddr
  allowed : ∃ user, store.memcache session = some user ∧
    checkAccess site ua.url user.rights = true

theorem hasSession_of_countP (db : Database) (session remoteAddr : Octets)
    (hOne : (db.sessions.countP fun row => row.sid = session ∧ row.clientIp = remoteAddr) = 1) :
    HasSession db session remoteAddr := by
  have hPos : 0 < db.sessions.countP fun row => row.sid = session ∧ row.clientIp = remoteAddr := by
    omega
  obtain ⟨row, hRow, hBoth⟩ := List.countP_pos_iff.mp hPos
  exact ⟨row, hRow, by simpa using hBoth⟩

/-- A valid session is in the table, and the check only tells the workers about it. -/
theorem validateSession_true (hIp : site.calyxAllowInvalidIpAdressesInCookies = false)
    (store after : Store) (ua : UserAgent) (session : Octets)
    (hValid : validateSession site store ua (some session) = (true, after)) :
    HasSession store.db session ua.remoteAddr ∧ after = refreshSession store session := by
  simp only [validateSession, hIp, Bool.false_eq_true, if_false] at hValid
  split at hValid
  · simp at hValid
  · split at hValid
    · rename_i hOne
      have hAfter : refreshSession store session = after := by simpa using hValid
      exact ⟨hasSession_of_countP store.db session ua.remoteAddr hOne, hAfter.symm⟩
    · simp at hValid

theorem validateSession_none (store : Store) (ua : UserAgent) :
    validateSession site store ua none = (false, store) := by
  simp [validateSession, validateSessionINSECURE]

/-! ### The branches of `authcheck` -/

theorem authcheckCookie_store (self : LoginModule) (store : Store) (ua : UserAgent)
    (session : Option Octets) (user : Option CachedUser) :
    (authcheckCookie site self store ua session user).2.store = store := by
  simp only [authcheckCookie]
  split_ifs <;> rfl

/-- Without a cookie nobody passes, except to a public page. -/
theorem authcheckCookie_noCookie (self : LoginModule) (store : Store) (ua : UserAgent)
    (session : Option Octets) (user : Option CachedUser) (hPrivate : self.isPublicUrl = false)
    (hCookie : self.cookie = none) :
    (authcheckCookie site self store ua session user).1 ≠ .noResult := by
  unfold authcheckCookie
  simp only [hPrivate, hCookie, Bool.false_eq_true, Option.isSome_none, if_false]
  split_ifs <;> simp

/-- Whoever comes in without the cookie field set passes only by the session. -/
theorem authcheckSession_noResult (hIp : site.calyxAllowInvalidIpAdressesInCookies = false)
    (self : LoginModule) (store : Store) (ua : UserAgent) (session : Option Octets)
    (hPrivate : self.isPublicUrl = false) (hCookie : self.cookie = none)
    (hPass : (authcheckSession site self store ua session).1 = .noResult) :
    ∃ sid, session = some sid ∧
      SessionGrants site (authcheckSession site self store ua session).2.store ua sid := by
  have hRefused := fun after =>
    authcheckCookie_noCookie site self after ua session none hPrivate hCookie
  cases session with
  | none =>
    simp only [authcheckSession, validateSession_none] at hPass
    exact absurd hPass (hRefused store)
  | some sid =>
    unfold authcheckSession at hPass ⊢
    cases hValidated : validateSession site store ua (some sid) with
    | mk valid after =>
      cases valid with
      | false =>
        rw [hValidated] at hPass
        exact absurd hPass (hRefused after)
      | true =>
        obtain ⟨hIn, hAfter⟩ := validateSession_true site hIp store after ua sid hValidated
        have hInAfter : HasSession after.db sid ua.remoteAddr := hAfter ▸ hIn
        rw [hValidated] at hPass
        cases hUser : after.memcache sid with
        | none =>
          simp only [hUser] at hPass
          exact absurd hPass (hRefused after)
        | some user =>
          cases hAccess : checkAccess site ua.url user.rights with
          | false => simp [hUser, hPrivate, hAccess] at hPass
          | true =>
            refine ⟨sid, rfl, ?_⟩
            cases hMade : createCookie site sid user.expires with
            | none => simp [hUser, hPrivate, hAccess, hMade] at hPass
            | some cookie =>
              simp only [hUser, hPrivate, hAccess, hMade, Bool.not_false, Bool.not_true,
                Bool.and_false, Bool.false_eq_true, if_false, authcheckCookie_store]
              exact ⟨hInAfter, user, hUser, hAccess⟩

theorem classifyUrl_cookie (self : LoginModule) (webpath : Octets) :
    (classifyUrl site self webpath).cookie = self.cookie := by
  unfold classifyUrl
  grind

theorem classifyUrl_isPublicUrl (self : LoginModule) (webpath : Octets) :
    (classifyUrl site self webpath).isPublicUrl = (isPublic site webpath || self.isPublicUrl) := by
  unfold classifyUrl
  grind

theorem createSession_login (m : Moment) (self : LoginModule) (store : Store) (remoteAddr : Octets)
    (username : Option Octets) (hasDeveloper hasAdmin keeploggedin : Bool) :
    ∃ current, (createSession site m self store remoteAddr username hasDeveloper hasAdmin
      keeploggedin).2.1 = { self with currentSessionID := current } := by
  simp only [createSession]
  cases m.insertSession (newSessionRow site m remoteAddr username hasDeveloper hasAdmin
    keeploggedin) with
  | errstr dberr => exact ⟨self.currentSessionID, rfl⟩
  | ok => exact ⟨some (sessionId site m remoteAddr), rfl⟩

/-- Autologin sets no field that the decision is taken from. -/
theorem getAutologin_login (m : Moment) (self : LoginModule) (store : Store) (ua : UserAgent)
    (username keyfobid : Octets) :
    ∃ current, (getAutologin site m self store ua username keyfobid).2.1 =
      { self with currentSessionID := current } := by
  unfold getAutologin
  generalize hLine : (selectUser (deleteOldSession m store ua).db.users username).map
    (fun row => row.toUserLine) = line
  cases hRights : lineRights site (autologinRights site (deleteOldSession m store ua).db) line with
  | none => exact ⟨self.currentSessionID, by simp [hLine, hRights]⟩
  | some rights =>
    obtain ⟨current, hCurrent⟩ := createSession_login site m self (deleteOldSession m store ua)
      ua.remoteAddr (line.map fun line => line.username) (octets "has_developer" ∈ rights)
      (octets "has_admin" ∈ rights) false
    refine ⟨current, ?_⟩
    simp only [hLine, hRights]
    split_ifs <;> exact hCurrent

/-- The session that `authcheck` makes for the client, if it tries to. -/
def autologinSession (m : Moment) (sys : System) (ua : UserAgent) : Option Octets :=
  let self := classifyUrl site sys.login ua.url
  match needsAutologin site self sys.store ua with
  | (false, _) => none
  | (true, store) =>
      if self.hasBasicAuth then none
      else
        (getAutologin site m self store ua (site.autologin.getD []) []).1.map fun created =>
          created.1

/-- The answer of `do_basic_auth`, if `authcheck` calls it. -/
def basicAuthAnswer (m : Moment) (sys : System) (ua : UserAgent) : Option Answer :=
  let self := classifyUrl site sys.login ua.url
  match needsAutologin site self sys.store ua with
  | (false, _) => none
  | (true, store) =>
      if self.hasBasicAuth then some (doBasicAuth site m store ua self.basicAuthRealm).1 else none

/-- Why a request was let through, judged when `authcheck` was done. -/
def Admitted (m : Moment) (sys : System) (ua : UserAgent) (after : Store) : Prop :=
  (∃ session, (ua.session = some session ∨ autologinSession site m sys ua = some session) ∧
    SessionGrants site after ua session) ∨
  basicAuthAnswer site m sys ua = some .noResult

theorem authcheck_noResult (hIp : site.calyxAllowInvalidIpAdressesInCookies = false)
    (m : Moment) (sys : System) (ua : UserAgent) (hUrl : isPublic site ua.url = false)
    (hPrivate : sys.login.isPublicUrl = false) (hCookie : sys.login.cookie = none)
    (hPass : (authcheck site m sys ua).1 = .noResult) :
    Admitted site m sys ua (authcheck site m sys ua).2.store := by
  have hPrivate' : (classifyUrl site sys.login ua.url).isPublicUrl = false := by
    rw [classifyUrl_isPublicUrl, hUrl, hPrivate]
    rfl
  have hCookie' : (classifyUrl site sys.login ua.url).cookie = none := by
    rw [classifyUrl_cookie, hCookie]
  unfold Admitted autologinSession basicAuthAnswer
  simp only [authcheck] at hPass ⊢
  generalize classifyUrl site sys.login ua.url = self at hPass hPrivate' hCookie' ⊢
  generalize needsAutologin site self sys.store ua = needs at hPass ⊢
  obtain ⟨needed, store⟩ := needs
  cases needed with
  | false =>
    obtain ⟨session, hSession, hGrants⟩ :=
      authcheckSession_noResult site hIp self store ua ua.session hPrivate' hCookie' hPass
    exact .inl ⟨session, .inl hSession, hGrants⟩
  | true =>
    cases hBasic : self.hasBasicAuth with
    | true =>
      simp only [hBasic, if_true] at hPass ⊢
      exact .inr (congrArg some hPass)
    | false =>
      simp only [hBasic, Bool.false_eq_true, if_false] at hPass ⊢
      obtain ⟨current, hLogin⟩ :=
        getAutologin_login site m self store ua (site.autologin.getD []) []
      generalize getAutologin site m self store ua (site.autologin.getD []) [] = made
        at hPass hLogin ⊢
      obtain ⟨created, login, made⟩ := made
      obtain rfl : login = { self with currentSessionID := current } := hLogin
      cases created with
      | none => simp at hPass
      | some created =>
        simp only at hPass ⊢
        split_ifs at hPass ⊢ with hEmpty hPoints hInvalid
        obtain ⟨session, hSession, hGrants⟩ :=
          authcheckSession_noResult site hIp { self with currentSessionID := current } made ua
            (some created.1) hPrivate' hCookie' hPass
        exact .inl ⟨session, .inr hSession, hGrants⟩

/-! ### Histories -/

/-- What happens in one process. Between two requests pages, workers and other processes leave
the fields, the tables and the cache in any state. -/
inductive RequestEvent where
  | request (m : Moment) (ua : UserAgent)
  | between (sys : System)

/-- A request with the states around it. -/
structure Guarded where
  m : Moment
  ua : UserAgent
  before : System
  answer : Answer
  after : System

/-- The requests of a history. -/
def guardRequests : System → List RequestEvent → List Guarded
  | _, [] => []
  | sys, .request m ua :: events =>
      let (answer, after) := guardRequest site m sys ua
      { m, ua, before := sys, answer, after } :: guardRequests after events
  | _, .between sys :: events => guardRequests sys events

theorem guardRequest_of_mem (events : List RequestEvent) (sys : System) (request : Guarded)
    (hMem : request ∈ guardRequests site sys events) :
    guardRequest site request.m request.before request.ua = (request.answer, request.after) := by
  induction events generalizing sys with
  | nil => simp [guardRequests] at hMem
  | cons event events ih =>
    cases event with
    | request m ua =>
      rcases List.mem_cons.mp hMem with rfl | hLater
      · rfl
      · exact ih _ hLater
    | between sys => exact ih sys hMem

/-- Nothing that the request before left in the module is left after the cleanup. -/
theorem preauthcleanup_forgets (m : Moment) (store : Store) (login login' : LoginModule) :
    preauthcleanup m { login, store } = preauthcleanup m { login := login', store } := rfl

/-- In every history a page that is not public is shown only to a client with a session that
grants it, or after basic authentication; the fields left by earlier requests never decide. -/
theorem authcheck_guards (hIp : site.calyxAllowInvalidIpAdressesInCookies = false)
    (sys : System) (events : List RequestEvent) (request : Guarded)
    (hMem : request ∈ guardRequests site sys events) :
    (request.answer = .noResult → isPublic site request.ua.url = false →
      Admitted site request.m (preauthcleanup request.m request.before) request.ua
        request.after.store) ∧
    ∀ leftover : LoginModule,
      guardRequest site request.m { request.before with login := leftover } request.ua =
        (request.answer, request.after) := by
  have hServed := guardRequest_of_mem site events sys request hMem
  refine ⟨?_, ?_⟩
  · intro hAnswer hUrl
    rw [guardRequest] at hServed
    have hPass : (authcheck site request.m (preauthcleanup request.m request.before)
        request.ua).1 = .noResult := by
      rw [hServed]
      exact hAnswer
    have hAdmitted := authcheck_noResult site hIp request.m
      (preauthcleanup request.m request.before) request.ua hUrl rfl rfl hPass
    rw [hServed] at hAdmitted
    exact hAdmitted
  · intro leftover
    rw [← hServed, guardRequest, guardRequest]
    exact congrArg (authcheck site request.m · request.ua)
      (preauthcleanup_forgets request.m request.before.store leftover request.before.login)

theorem checkBasicAuth_permissions (m : Moment) (db : Database) (dynuser dynpass : Octets) :
    (checkBasicAuth site m db dynuser dynpass).2.permissions = db.permissions := by
  unfold checkBasicAuth
  split_ifs <;> rfl

theorem checkBasicAuth_iff (m : Moment) (db : Database) (dynuser dynpass : Octets) :
    (checkBasicAuth site m db dynuser dynpass).1 = true ↔
      authcookieCached site m db dynuser dynpass = true ∨
        verifyPassword site.toDigests db.users dynuser dynpass = true := by
  unfold checkBasicAuth
  split_ifs with hCached hVerified <;> simp [*]

/-- Basic authentication needs the right to see the page, and a password that is right or was
right a short time ago. -/
theorem doBasicAuth_noResult (m : Moment) (store : Store) (ua : UserAgent) (realm : Octets)
    (hPass : (doBasicAuth site m store ua realm).1 = .noResult) :
    ∃ dynuser dynpass, basicCredentials site ua = some (dynuser, dynpass) ∧
      (authcookieCached site m store.db dynuser dynpass = true ∨
        verifyPassword site.toDigests store.db.users dynuser dynpass = true) ∧
      checkAccessForUser site store.db ua.url dynuser = true := by
  cases hSent : basicCredentials site ua with
  | none => simp [doBasicAuth, hSent] at hPass
  | some sent =>
    obtain ⟨dynuser, dynpass⟩ := sent
    simp only [doBasicAuth, hSent] at hPass
    split_ifs at hPass with hWrong hDenied
    refine ⟨dynuser, dynpass, rfl, ?_, ?_⟩
    · rw [← checkBasicAuth_iff]
      simpa using hWrong
    · have hAllowed : checkAccessForUser site
          (checkBasicAuth site m store.db dynuser dynpass).2 ua.url dynuser = true := by
        simpa using hDenied
      rw [checkAccessForUser, permissionsOf, checkBasicAuth_permissions] at hAllowed
      exact hAllowed

end Module

/-! ### A member of the staff -/

def staffSite : Site where
  bcrypt _ salt text := salt ++ text
  decodeBase64 text := text
  sha256Hex text := text
  matchesStart pattern webpath := pattern.isPrefixOf webpath
  collate _ _ := true
  webdate _ := octets "Thu, 01 Jan 2026 00:10:00 GMT"
  userlevels := [{ db := octets "staff", webpaths := some [octets "/staff"] }]
  publicUrls := [octets "/user/login"]
  basicAuths := []
  autologin := none
  applogin := none
  login := octets "/user/login"
  pwchange := octets "/user/pwchange"
  sessionrefresh := octets "/user/sessionrefresh"
  httpsonlycookies := true
  calyxAllowInvalidIpAdressesInCookies := false
  basicauthPrefixSalt := []
  basicauthMiddleSalt := []
  basicauthPostfixSalt := []

def quietMoment : Moment where
  now := 100
  randchars := octets "r"
  settings :=
    { allowKeepLoggedIn := false, standardValidTime := octets "10 minutes",
      keeploggedinValidTime := octets "90 days", standardValidTimeExpires := some (octets "+600s"),
      keeploggedinValidTimeExpires := some (octets "+7776000s") }
  validUntil _ := 700
  insertSession _ := .ok
  deleteSession _ := true
  insertAuthcookie := true
  authcookieValidUntil := 700

def staffUser : CachedUser where
  line := none
  html5 := []
  rights := [octets "staff"]
  expires := some (octets "+600s")
  keyfobLogout := false
  keyfobId := []
  appuserlogin := some false
  appkeylogin := some false
  fullappkey := some []

def staffSession : SessionRow where
  sid := octets "3SESSION1"
  username := some (octets "ann")
  clientIp := octets "10.0.0.1"
  hasDeveloper := false
  hasAdmin := false
  validUntil := 700
  validInterval := octets "10 minutes"

def staffSystem : System where
  login := {}
  store :=
    { db :=
        { users := { rows := [], usernameUnique := List.nodup_nil },
          permissions := { permissiongroupentries := [], usersPermissiongroups := [] },
          sessions := [staffSession],
          usersBasicauthcache := [] },
      memcache := fun key => if key = octets "3SESSION1" then some staffUser else none,
      sessionrefreshes := [] }

/-- The page, the same page from another address, and a page for all. -/
def staffRequests : List RequestEvent :=
  let ua : UserAgent :=
    { url := octets "/staff/list", remoteAddr := octets "10.0.0.1",
      session := some (octets "3SESSION1") }
  [.request quietMoment ua, .request quietMoment { ua with remoteAddr := octets "10.0.0.2" },
    .request quietMoment { url := octets "/public/a.css", remoteAddr := octets "10.0.0.2" }]

theorem authcheck_guards_staff :
    (guardRequests staffSite staffSystem staffRequests).map (fun request => request.answer) =
      [.noResult, .result (redirection 303 (octets "Please login") (octets "/user/login")),
        .noResult] ∧
    ∀ request ∈ guardRequests staffSite staffSystem staffRequests,
      (request.answer = .noResult → isPublic staffSite request.ua.url = false →
        Admitted staffSite request.m (preauthcleanup request.m request.before) request.ua
          request.after.store) ∧
      ∀ leftover : LoginModule,
        guardRequest staffSite request.m { request.before with login := leftover } request.ua =
          (request.answer, request.after) :=
  ⟨by decide +kernel, fun request hMem =>
    authcheck_guards staffSite rfl staffSystem staffRequests request hMem⟩

end PageCamel.Web

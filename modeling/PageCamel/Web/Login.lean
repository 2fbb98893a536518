import PageCamel.Helpers.Passwords
import PageCamel.Helpers.Userlevels

/-!
The login module in front of every request: `preauthcleanup` forgets the request before, then
`authcheck` decides whether the page is shown. The decision is taken from fields of the module
that outlive the request.
-/

namespace PageCamel.Web
open PageCamel.Lib PageCamel.Helpers

/-! ### Tables, cache and configuration -/

/-- A row of `sessions`. -/
structure SessionRow where
  sid : Octets
  username : Option Octets
  clientIp : Octets
  hasDeveloper : Bool
  hasAdmin : Bool
  validUntil : Nat
  validInterval : Octets
  deriving DecidableEq, Repr

structure Database where
  users : Users
  permissions : PermissionTables
  sessions : List SessionRow
  /-- Pairs of `authcookie` and `valid_until`. -/
  usersBasicauthcache : List (Octets × Nat)

/-- What the cache holds for a session. There is no line when the user was not found. -/
structure CachedUser where
  line : Option UserLine
  html5 : List (Octets × Octets)
  rights : List Octets
  requirePasswordChange : Bool := false
  expires : Option Octets
  keyfobLogout : Bool
  keyfobId : Octets
  appuserlogin : Option Bool
  appkeylogin : Option Bool
  fullappkey : Option Octets
  /-- `realuser` is set: somebody works under the name of this user. -/
  hasrealuser : Bool := false
  deriving DecidableEq, Repr

/-- What the processes share. -/
structure Store where
  db : Database
  memcache : Octets → Option CachedUser
  /-- The values sent to the workers as `Login::Sessionrefresh`. -/
  sessionrefreshes : List Octets

/-- A level with the paths that need its permission. -/
structure WebUserlevel extends Userlevel where
  webpaths : Option (List Octets) := none
  deriving DecidableEq, Repr

/-- The configuration, and the functions of other packages. -/
structure Site extends Digests where
  /-- The match of a path with `/^$pattern/`. -/
  matchesStart : Octets → Octets → Bool
  collate : Octets → Octets → Bool
  /-- `getWebdate`, of a time to come or of now. -/
  webdate : Option Octets → Octets
  userlevels : List WebUserlevel
  publicUrls : List Octets
  /-- Patterns and realms, in the order of `keys`. -/
  basicAuths : List (Octets × Octets)
  autologin : Option Octets
  applogin : Option Octets
  login : Octets
  pwchange : Octets
  sessionrefresh : Octets
  httpsonlycookies : Bool
  calyxAllowInvalidIpAdressesInCookies : Bool
  basicauthPrefixSalt : Octets
  basicauthMiddleSalt : Octets
  basicauthPostfixSalt : Octets

structure LoginSettings where
  allowKeepLoggedIn : Bool
  standardValidTime : Octets
  keeploggedinValidTime : Octets
  standardValidTimeExpires : Option Octets
  keeploggedinValidTimeExpires : Option Octets

inductive Inserted where
  | ok
  | errstr (message : Octets)
  deriving DecidableEq, Repr

/-- What the clock, the random numbers and the database answer while a request is handled. -/
structure Moment where
  now : Nat
  randchars : Octets
  settings : LoginSettings
  /-- `now() + ?::interval`. -/
  validUntil : Octets → Nat
  insertSession : SessionRow → Inserted
  deleteSession : Octets → Bool
  insertAuthcookie : Bool
  authcookieValidUntil : Nat

structure UserAgent where
  url : Octets
  remoteAddr : Octets
  /-- The cookie `pagecamel-session`. -/
  session : Option Octets := none
  authorization : Option Octets := none
  deriving DecidableEq, Repr

/-- `currentData`: the user of the request. -/
structure CurrentData where
  sessionid : Octets
  line : Option UserLine
  html5 : List (Octets × Octets)
  rights : List Octets
  activeurl : Octets
  requirePasswordChange : Bool
  expires : Option Octets
  keyfobLogout : Bool
  keyfobId : Octets
  appuserlogin : Bool
  appkeylogin : Bool
  fullappkey : Octets
  hasrealuser : Bool
  deriving DecidableEq, Repr

/-- The fields of the module that stay from one request to the next. -/
structure LoginModule where
  cookie : Option Octets := none
  currentData : Option CurrentData := none
  currentSessionID : Option Octets := none
  isPublicUrl : Bool := false
  hasBasicAuth : Bool := false
  basicAuthRealm : Octets := []
  deriving DecidableEq, Repr

structure WebResult where
  status : Nat
  location : Option Octets := none
  type : Option Octets := none
  data : Option Octets := none
  wwwAuthenticate : Option Octets := none
  deriving DecidableEq, Repr

inductive Answer where
  /-- The empty list: the request goes on to the page. -/
  | noResult
  | result (r : WebResult)
  | died
  deriving DecidableEq, Repr

/-! ### Sessions -/

section Module
variable (site : Site)

def licensePointsError : Octets := octets "LICENSEPOINTSERROR"
def licenseInvalidError : Octets := octets "LICENSEINVALIDERROR"

/-- What `createSession` returns in place of a session. -/
def licenseError (dberr : Octets) : Octets :=
  if (indexOf (octets "not enough license points") (lc dberr)).isSome then licensePointsError
  else if (indexOf (octets "no valid license") (lc dberr)).isSome then licenseInvalidError
  else []

def sessionId (m : Moment) (hostAddr : Octets) : Octets :=
  octets "3SESSION" ++ site.sha256Hex (decimal m.now ++ m.randchars ++ hostAddr) ++
    site.sha256Hex hostAddr

structure SessionTimes where
  validinterval : Octets
  expires : Option Octets

def LoginSettings.times (settings : LoginSettings) (keeploggedin : Bool) : SessionTimes :=
  if settings.allowKeepLoggedIn && keeploggedin then
    { validinterval := settings.keeploggedinValidTime,
      expires := settings.keeploggedinValidTimeExpires }
  else
    { validinterval := settings.standardValidTime, expires := settings.standardValidTimeExpires }

/-- The row that `createSession` inserts. -/
def newSessionRow (m : Moment) (remoteAddr : Octets) (username : Option Octets)
    (hasDeveloper hasAdmin keeploggedin : Bool) : SessionRow :=
  let validinterval := (m.settings.times keeploggedin).validinterval
  { sid := sessionId site m remoteAddr, username, clientIp := remoteAddr, hasDeveloper, hasAdmin,
    validUntil := m.validUntil validinterval, validInterval := validinterval }

/-- The session and its `expires`; the session is the name of the error when there is none. -/
def createSession (m : Moment) (self : LoginModule) (store : Store) (remoteAddr : Octets)
    (username : Option Octets) (hasDeveloper hasAdmin keeploggedin : Bool) :
    (Octets × Option Octets) × LoginModule × Store :=
  let row := newSessionRow site m remoteAddr username hasDeveloper hasAdmin keeploggedin
  match m.insertSession row with
  | .errstr dberr => ((licenseError dberr, none), self, store)
  | .ok =>
      ((row.sid, (m.settings.times keeploggedin).expires),
        { self with currentSessionID := some row.sid },
        { store with db := { store.db with sessions := store.db.sessions ++ [row] } })

/-- The cache forgets the session also when the `DELETE` fails. -/
def deleteSession (m : Moment) (store : Store) (session : Octets) : Store :=
  let sessions :=
    if m.deleteSession session then store.db.sessions.filter fun row => row.sid ≠ session
    else store.db.sessions
  { store with
    db := { store.db with sessions },
    memcache := fun key => if key = session then none else store.memcache key }

def deleteStaleSessions (m : Moment) (store : Store) : Store :=
  let stales := (store.db.sessions.filter fun row => row.validUntil < m.now).map fun row => row.sid
  stales.foldl (deleteSession m) store

def refreshSession (store : Store) (session : Octets) : Store :=
  { store with sessionrefreshes := store.sessionrefreshes ++ [session] }

def validateSessionINSECURE (store : Store) (session : Option Octets) : Bool × Store :=
  match session with
  | none => (false, store)
  | some session =>
      if session = octets "NONE" then (false, store)
      else if (store.db.sessions.countP fun row => row.sid = session) = 1 then
        (true, refreshSession store session)
      else (false, store)

def validateSession (store : Store) (ua : UserAgent) (session : Option Octets) : Bool × Store :=
  if site.calyxAllowInvalidIpAdressesInCookies then validateSessionINSECURE store session
  else
    match session with
    | none => (false, store)
    | some session =>
        if session = octets "NONE" then (false, store)
        else if (store.db.sessions.countP fun row =>
            row.sid = session ∧ row.clientIp = ua.remoteAddr) = 1 then
          (true, refreshSession store session)
        else (false, store)

/-! ### Permissions -/

def checkAccess (uri : Octets) (permissions : List Octets) : Bool :=
  site.userlevels.all fun level =>
    match level.webpaths with
    | none => true
    | some webpaths => webpaths.all fun webpath =>
        uri.take webpath.length ≠ webpath || level.db ∈ permissions

def permissionsOf (db : Database) (username : Octets) : List Octets :=
  getPermissionForUser site.collate (site.userlevels.map fun level => level.toUserlevel)
    db.permissions username

def checkAccessForUser (db : Database) (uri username : Octets) : Bool :=
  checkAccess site uri (permissionsOf site db username)

/-! ### Autologin -/

def selectUser (users : Users) (username : Octets) : Option UserRow :=
  users.rows.find? fun row => row.username = username

/-- `@dbRights`: restricted levels count only for the users they are restricted to. -/
def autologinRights (db : Database) (username : Octets) : List Octets :=
  ((permissionsOf site db username).filter fun right =>
      !site.userlevels.any fun ur => ur.restrict.isSome && right = ur.db) ++
    site.userlevels.filterMap fun ur =>
      match ur.restrict with
      | none => none
      | some usernames => if username ∈ usernames then some ur.db else none

/-- The rights of the line that was read. Without a line `contains` is given an undefined name,
and croaks when there is a restricted level. -/
def lineRights (rightsOf : Octets → List Octets) (line : Option UserLine) :
    Option (List Octets) :=
  match line with
  | some line => some (rightsOf line.username)
  | none => if site.userlevels.any fun ur => ur.restrict.isSome then none else some []

def html5Features : List Octets :=
  [octets "canvas", octets "websockets", octets "localstorage", octets "sessionstorage",
    octets "sessionhistory", octets "webworkers", octets "sharedworkers", octets "draganddrop",
    octets "xmlhttprequest", octets "websql"]

/-- The record of a user who did not show a password. -/
def autologinUser (self : LoginModule) (username keyfobid : Octets) (line : Option UserLine)
    (rights : List Octets) (expires : Option Octets) : CachedUser :=
  let appuserlogin := (self.currentData.map fun data => data.appuserlogin).getD false
  let appkeylogin := (self.currentData.map fun data => data.appkeylogin).getD false
  let fullappkey := (self.currentData.map fun data => data.fullappkey).getD []
  let isGuestUser := site.autologin = some username
  { line, rights, expires,
    html5 := html5Features.map fun feature => (feature, octets "-1"),
    keyfobLogout := !(isGuestUser || appuserlogin || appkeylogin),
    keyfobId := if appuserlogin || appkeylogin then [] else keyfobid,
    appuserlogin := some appuserlogin, appkeylogin := some appkeylogin,
    fullappkey := some fullappkey }

def deleteOldSession (m : Moment) (store : Store) (ua : UserAgent) : Store :=
  match ua.session with
  | none => store
  | some oldsession =>
      if (octets "3SESSION").isPrefixOf oldsession then deleteSession m store oldsession else store

/-- The session and its `expires`, or the error of `createSession`; nothing when it dies. -/
def getAutologin (m : Moment) (self : LoginModule) (store : Store) (ua : UserAgent)
    (username keyfobid : Octets) :
    Option (Octets × Option Octets) × LoginModule × Store :=
  let store := deleteOldSession m store ua
  let line := (selectUser store.db.users username).map fun row => row.toUserLine
  match lineRights site (autologinRights site store.db) line with
  | none => (none, self, store)
  | some rights =>
      let hasDeveloper := octets "has_developer" ∈ rights
      let hasAdmin := octets "has_admin" ∈ rights
      let ((session, expires), created, store) :=
        createSession site m self store ua.remoteAddr (line.map fun line => line.username)
          hasDeveloper hasAdmin false
      if session = [] ∨ session = licensePointsError ∨ session = licenseInvalidError then
        (some (session, none), created, store)
      else
        let user := autologinUser site self username keyfobid line rights expires
        let memcache := fun key => if key = session then some user else store.memcache key
        (some (session, expires), created, { store with memcache })

/-! ### Basic authentication -/

def genBasicAuthRequest (realm : Octets) : WebResult :=
  { status := 401, wwwAuthenticate := some (octets "Basic realm=\"" ++ realm ++ octets "\"") }

/-- The user and the password of the `Authorization` header. -/
def basicCredentials (ua : UserAgent) : Option (Octets × Octets) :=
  match ua.authorization with
  | none => none
  | some enc =>
      if (octets "Basic ").isPrefixOf enc then
        match splitAll (octets ":") (site.decodeBase64 (enc.drop (octets "Basic ").length)) with
        | dynuser :: dynpass :: _ =>
            if dynuser = [] ∨ dynpass = [] then none else some (dynuser, dynpass)
        | _ => none
      else none

def authcookie (dynuser dynpass : Octets) : Octets :=
  site.sha256Hex (site.basicauthPrefixSalt ++ dynuser ++ site.basicauthMiddleSalt ++ dynpass ++
    site.basicauthPostfixSalt)

/-- The credentials are in the cache of the database. -/
def authcookieCached (m : Moment) (db : Database) (dynuser dynpass : Octets) : Bool :=
  db.usersBasicauthcache.any fun entry =>
    entry.1 = authcookie site dynuser dynpass ∧ m.now ≤ entry.2

/-- Whether the credentials are right, and the database with them in its cache. -/
def checkBasicAuth (m : Moment) (db : Database) (dynuser dynpass : Octets) : Bool × Database :=
  if authcookieCached site m db dynuser dynpass then (true, db)
  else if verifyPassword site.toDigests db.users dynuser dynpass then
    if m.insertAuthcookie then
      (true, { db with usersBasicauthcache := db.usersBasicauthcache ++
        [(authcookie site dynuser dynpass, m.authcookieValidUntil)] })
    else (true, db)
  else (false, db)

def doBasicAuth (m : Moment) (store : Store) (ua : UserAgent) (realm : Octets) : Answer × Store :=
  match basicCredentials site ua with
  | none => (.result (genBasicAuthRequest realm), store)
  | some (dynuser, dynpass) =>
      let (pwok, db) := checkBasicAuth site m store.db dynuser dynpass
      let store := { store with db }
      if !pwok then (.result (genBasicAuthRequest realm), store)
      else if !checkAccessForUser site db ua.url dynuser then
        (.result (genBasicAuthRequest realm), store)
      else (.noResult, store)

/-! ### `preauthcleanup` and `authcheck` -/

/-- The module, and what it shares with the others. -/
structure System where
  login : LoginModule
  store : Store

def preauthcleanup (m : Moment) (sys : System) : System :=
  { login := { sys.login with
      cookie := none, currentData := none, currentSessionID := none, isPublicUrl := false,
      hasBasicAuth := false, basicAuthRealm := [] }
    store := deleteStaleSessions m sys.store }

/-- The URL is public. -/
def isPublic (webpath : Octets) : Bool :=
  (site.publicUrls.any fun publicurl => site.matchesStart publicurl webpath) ||
    (octets "/public/").isPrefixOf webpath || site.applogin = some webpath

/-- The fields that are set from the URL. None of them is reset here. -/
def classifyUrl (self : LoginModule) (webpath : Octets) : LoginModule :=
  let self := if isPublic site webpath then { self with isPublicUrl := true } else self
  if self.isPublicUrl then self
  else
    match site.basicAuths.find? fun bauth => site.matchesStart bauth.1 webpath with
    | none => self
    | some bauth => { self with hasBasicAuth := true, basicAuthRealm := bauth.2 }

/-- The client has no valid session, and one may be made for it. -/
def needsAutologin (self : LoginModule) (store : Store) (ua : UserAgent) : Bool × Store :=
  if !self.isPublicUrl && site.autologin.isSome && site.autologin ≠ some [] then
    match ua.session with
    | none => (true, store)
    | some _ =>
        let (valid, store) := validateSession site store ua ua.session
        (!valid, store)
  else (false, store)

def htmlPage (title location : Octets) : Octets :=
  octets "<html><body><h1>" ++ title ++ octets "</h1><br>" ++
    octets "If you are not automatically redirected, click " ++
    octets "<a href=\"" ++ location ++ octets "\">here</a>.</body></html>"

def redirection (status : Nat) (title location : Octets) : WebResult :=
  { status, location := some location, type := some (octets "text/html"),
    data := some (htmlPage title location) }

def plainText (status : Nat) (data : Octets) : WebResult :=
  { status, type := some (octets "text/plain"), data := some data }

/-- `create_cookie` for the session. It croaks on an empty value. -/
def createCookie (value : Octets) (expires : Option Octets) : Option Octets :=
  if value = [] then none
  else
    let expires := if expires = some [] then none else expires
    some (octets "pagecamel-session=" ++ value ++ octets "; path=/" ++ octets "; expires=" ++
      site.webdate expires ++ octets "; HttpOnly" ++
      (if site.httpsonlycookies then octets "; Secure" else []) ++ octets "; SameSite=Strict")

def currentDataOf (session webpath : Octets) (user : CachedUser) : CurrentData :=
  { sessionid := session, line := user.line, html5 := user.html5, rights := user.rights,
    activeurl := webpath, requirePasswordChange := user.requirePasswordChange,
    expires := user.expires, keyfobLogout := user.keyfobLogout, keyfobId := user.keyfobId,
    appuserlogin := user.appuserlogin.getD false, appkeylogin := user.appkeylogin.getD false,
    fullappkey := user.fullappkey.getD (octets "0"), hasrealuser := user.hasrealuser }

/-- The end of `authcheck`: only the cookie that is set by now counts. No module has registered a
callback for `sessionrefresh`. -/
def authcheckCookie (self : LoginModule) (store : Store) (ua : UserAgent)
    (session : Option Octets) (user : Option CachedUser) : Answer × System :=
  if self.isPublicUrl then (.noResult, ⟨self, store⟩)
  else if self.cookie.isSome then
    let self := { self with currentSessionID := session }
    let requirePasswordChange := (user.map fun user => user.requirePasswordChange).getD false
    if requirePasswordChange && ua.url ≠ site.pwchange && ua.url ≠ site.sessionrefresh then
      (.result (redirection 303 (octets "Please change your password") site.pwchange),
        ⟨self, store⟩)
    else (.noResult, ⟨self, store⟩)
  else if ua.url ≠ site.sessionrefresh then
    (.result (redirection 303 (octets "Please login") site.login), ⟨self, store⟩)
  else (.result (plainText 200 (octets "INVALID_SESSION")), ⟨self, store⟩)

/-- The part of `authcheck` that looks at the session, after autologin. -/
def authcheckSession (self : LoginModule) (store : Store) (ua : UserAgent)
    (session : Option Octets) : Answer × System :=
  match session, validateSession site store ua session with
  | some sid, (true, store) =>
      match store.memcache sid with
      | none => authcheckCookie site self store ua session none
      | some user =>
          if !self.isPublicUrl && !checkAccess site ua.url user.rights then
            (.result (redirection 307 (octets "Permission denied.") site.login), ⟨self, store⟩)
          else
            match createCookie site sid user.expires with
            | none => (.died, ⟨self, store⟩)
            | some cookie =>
                let currentData := currentDataOf sid ua.url user
                let self := { self with cookie := some cookie, currentData := some currentData }
                authcheckCookie site self store ua session (some user)
  | _, (_, store) => authcheckCookie site self store ua session none

def authcheck (m : Moment) (sys : System) (ua : UserAgent) : Answer × System :=
  let self := classifyUrl site sys.login ua.url
  match needsAutologin site self sys.store ua with
  | (false, store) => authcheckSession site self store ua ua.session
  | (true, store) =>
      if self.hasBasicAuth then
        let (answer, store) := doBasicAuth site m store ua self.basicAuthRealm
        (answer, ⟨self, store⟩)
      else
        match getAutologin site m self store ua (site.autologin.getD []) [] with
        | (none, self, store) => (.died, ⟨self, store⟩)
        | (some (session, _), self, store) =>
            if session = [] then
              (.result (plainText 500 (octets "Internal Server error")), ⟨self, store⟩)
            else if session = licensePointsError then
              (.result (plainText 503
                (octets "Service temporarily unavailable: Not enough license points")),
                ⟨self, store⟩)
            else if session = licenseInvalidError then
              (.result (plainText 503 (octets "Service unavailable: No valid license")),
                ⟨self, store⟩)
            else authcheckSession site self store ua (some session)

/-- What every request runs before its page. -/
def guardRequest (m : Moment) (sys : System) (ua : UserAgent) : Answer × System :=
  authcheck site m (preauthcleanup m sys) ua

end Module

end PageCamel.Web

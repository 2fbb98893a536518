import PageCamel.Web.Authcheck
import PageCamel.Lib.Runs

/-!
The five ways to a session: password, key of an app, key fob, code of an app user, autologin.
Each looks at the table of users when it begins, reads the line of the user later, and inserts
the session last; accounts can change in between. Only the first two look at the lock.
-/

namespace PageCamel.Web
open PageCamel.Lib PageCamel.Helpers

/-! ### What a request shows -/

structure LoginSite extends Site where
  /-- `s/^$remove//` with the path of the login page. -/
  cutWebpath : Octets → Octets
  forcelowercase : Bool

/-- The login page, as it was posted. -/
structure LoginForm where
  url : Octets
  username : Octets
  password : Octets
  keepLoggedIn : Bool

inductive LoginRequest where
  | login (form : LoginForm)
  | keyfob (fobid : Octets)
  | appuser (userid : Octets)
  | autologin

inductive Credentials where
  | password (username password : Octets)
  | appkey (username appkey : Octets)
  | keyfob (keyfobid : Octets)
  | appuser (userid : Octets)
  | autologin (username : Octets)
  deriving DecidableEq, Repr

/-- `$param || ''`. -/
def orEmpty (param : Octets) : Octets := if param = octets "0" then [] else param

/-- `s/^\\///` and `s/\\/$//`; the end may be in front of a last line feed. -/
def trimSlashes (s : Octets) : Octets :=
  let s := match s with
    | 47 :: rest => rest
    | s => s
  match s.reverse with
  | 47 :: rest => rest.reverse
  | 10 :: 47 :: rest => (10 :: rest).reverse
  | _ => s

section Module
variable (site : LoginSite)

/-- The user and the key at the end of the URL. -/
def appkeyParts (url : Octets) : Option (Octets × Octets) :=
  match splitAll (octets "+") (trimSlashes (site.cutWebpath url)) with
  | [username, appkey] => some (username, appkey)
  | _ => none

def getLogin (form : LoginForm) : Option Credentials :=
  let username := orEmpty form.username
  let username := if site.forcelowercase then lc username else username
  let (username, appkey) := (appkeyParts site form.url).getD (username, [])
  let password := orEmpty form.password
  if username ≠ [] ∧ (password ≠ [] ∨ appkey ≠ []) then
    if appkey ≠ [] then some (.appkey username appkey) else some (.password username password)
  else none

def LoginRequest.credentials : LoginRequest → Option Credentials
  | .login form => getLogin site form
  | .keyfob fobid => if orEmpty fobid = [] then none else some (.keyfob (orEmpty fobid))
  | .appuser userid => if orEmpty userid = [] then none else some (.appuser (orEmpty userid))
  | .autologin =>
      match site.autologin with
      | none => none
      | some username => if username = [] then none else some (.autologin username)

/-- An app stays logged in. -/
def LoginRequest.keeploggedin (credentials : Credentials) : LoginRequest → Bool
  | .login form =>
      match credentials with
      | .appkey _ _ => true
      | _ => form.keepLoggedIn
  | _ => false

/-! ### The steps of a login -/

/-- `ORDER BY username LIMIT 1`. -/
def selectKeyfob (users : Users) (keyfobid : Octets) : Option UserRow :=
  ((users.rows.filter fun row => row.hardwareFob = keyfobid).insertionSort fun a b =>
    site.collate a.username b.username).head?

def selectAppuser (users : Users) (userid : Octets) : Option UserRow :=
  users.rows.find? fun row => row.applogin_usercode = userid

/-- The user that the login goes on with. -/
def Credentials.admits (users : Users) : Credentials → Option Octets
  | .password name secret =>
      if verifyPassword site.toDigests users name secret then some name else none
  | .appkey name key => if verifyAppkey users name key then some name else none
  | .keyfob keyfobid => (selectKeyfob site users keyfobid).map fun row => row.username
  | .appuser userid => (selectAppuser users userid).map fun row => row.username
  | .autologin name => some name

/-- `get_login` takes the permissions as they are, `getAutologin` filters them. -/
def Credentials.rights (db : Database) (line : Option UserLine) :
    Credentials → Option (List Octets)
  | .password _ _ | .appkey _ _ => lineRights site.toSite (permissionsOf site.toSite db) line
  | .keyfob _ | .appuser _ | .autologin _ =>
      lineRights site.toSite (autologinRights site.toSite db) line

/-- A login whose session is not inserted yet. -/
structure PendingLogin where
  credentials : Credentials
  remoteAddr : Octets
  keeploggedin : Bool
  username : Octets
  /-- The line of the user and the rights, once they are read. -/
  read : Option (Option UserLine × List Octets) := none

/-- The user of the session to come. -/
def PendingLogin.name (login : PendingLogin) : Option Octets :=
  match login.read with
  | none => some login.username
  | some (line, _) => line.map fun line => line.username

def PendingLogin.readLine (db : Database) (login : PendingLogin) : Option PendingLogin :=
  let line := (selectUser db.users login.username).map fun row => row.toUserLine
  (login.credentials.rights site db line).map fun rights => { login with read := some (line, rights) }

/-- The row of `createSession` for this login. -/
def PendingLogin.row (m : Moment) (login : PendingLogin) (rights : List Octets) : SessionRow :=
  newSessionRow site.toSite m login.remoteAddr login.name (octets "has_developer" ∈ rights)
    (octets "has_admin" ∈ rights) login.keeploggedin

/-- A session, and whether the account of its user was locked when it was inserted. -/
structure CreatedSession where
  row : SessionRow
  locked : Bool
  deriving DecidableEq, Repr

/-- The logins of all processes, and what they share. -/
structure LoginSystem where
  store : Store
  logins : List PendingLogin := []
  created : List CreatedSession := []

inductive LoginEvent where
  /-- A request shows its credentials. -/
  | request (r : LoginRequest) (remoteAddr : Octets)
  /-- A login reads the line of its user. -/
  | read (i : Nat)
  | create (i : Nat) (m : Moment)
  /-- The mouse check, the firewall, the license or an error ends a login. -/
  | abandon (i : Nat)
  /-- Accounts, permissions, sessions or the cache change. -/
  | elsewhere (store : Store)

def LoginSystem.request (sys : LoginSystem) (r : LoginRequest) (remoteAddr : Octets) :
    LoginSystem :=
  match r.credentials site with
  | none => sys
  | some credentials =>
      match credentials.admits site sys.store.db.users with
      | none => sys
      | some username =>
          let keeploggedin := r.keeploggedin credentials
          let login : PendingLogin := { credentials, remoteAddr, keeploggedin, username }
          { sys with logins := sys.logins ++ [login] }

def LoginSystem.read (sys : LoginSystem) (i : Nat) (login : PendingLogin) : LoginSystem :=
  match login.read with
  | some _ => sys
  | none =>
      match login.readLine site sys.store.db with
      | none => { sys with logins := sys.logins.eraseIdx i }
      | some login => { sys with logins := sys.logins.set i login }

def LoginSystem.isLocked (sys : LoginSystem) (login : PendingLogin) : Bool :=
  login.name.any fun username => sys.store.db.users.Locked username

def LoginSystem.create (sys : LoginSystem) (i : Nat) (m : Moment) (login : PendingLogin) :
    LoginSystem :=
  match login.read with
  | none => sys
  | some (_, rights) =>
      let (_, _, store) := createSession site.toSite m {} sys.store login.remoteAddr login.name
        (octets "has_developer" ∈ rights) (octets "has_admin" ∈ rights) login.keeploggedin
      let row := login.row site m rights
      let created :=
        match m.insertSession row with
        | .errstr _ => sys.created
        | .ok => sys.created ++ [{ row, locked := sys.isLocked login }]
      { store, logins := sys.logins.eraseIdx i, created }

def LoginSystem.step (sys : LoginSystem) : LoginEvent → LoginSystem
  | .request r remoteAddr => sys.request site r remoteAddr
  | .read i =>
      match sys.logins[i]? with
      | none => sys
      | some login => sys.read site i login
  | .create i m =>
      match sys.logins[i]? with
      | none => sys
      | some login => sys.create site i m login
  | .abandon i => { sys with logins := sys.logins.eraseIdx i }
  | .elsewhere store => { sys with store }

def LoginSystem.run (sys : LoginSystem) (events : List LoginEvent) : LoginSystem :=
  runEvents (LoginSystem.step site) sys events

theorem createSession_db (m : Moment) (self self' : LoginModule) (store : Store)
    (remoteAddr : Octets) (username : Option Octets)
    (hasDeveloper hasAdmin keeploggedin : Bool) :
    (createSession site.toSite m self store remoteAddr username hasDeveloper hasAdmin
      keeploggedin).2.2.db = (createSession site.toSite m self' store remoteAddr username
        hasDeveloper hasAdmin keeploggedin).2.2.db := by
  simp only [createSession]
  cases m.insertSession (newSessionRow site.toSite m remoteAddr username hasDeveloper hasAdmin
    keeploggedin) <;> rfl

/-- `getAutologin` makes the two steps one right after the other. -/
theorem getAutologin_steps (m : Moment) (self : LoginModule) (store : Store) (ua : UserAgent)
    (username keyfobid : Octets) (credentials : Credentials)
    (hRights : ∀ db line, credentials.rights site db line =
      lineRights site.toSite (autologinRights site.toSite db) line) :
    (getAutologin site.toSite m self store ua username keyfobid).2.2.db =
      (LoginSystem.run site
        { store := deleteOldSession m store ua,
          logins := [{ credentials, remoteAddr := ua.remoteAddr, keeploggedin := false, username }] }
        [.read 0, .create 0 m]).store.db := by
  simp only [LoginSystem.run, runEvents, List.foldl_cons, List.foldl_nil, LoginSystem.step,
    List.getElem?_cons_zero, LoginSystem.read, PendingLogin.readLine, hRights, getAutologin]
  generalize (selectUser (deleteOldSession m store ua).db.users username).map
    (fun row => row.toUserLine) = line
  cases lineRights site.toSite (autologinRights site.toSite (deleteOldSession m store ua).db)
    line with
  | none => rfl
  | some rights =>
    simp only [Option.map_some, List.set_cons_zero, List.getElem?_cons_zero, LoginSystem.create]
    split_ifs <;> exact createSession_db site m self {} (deleteOldSession m store ua)
      ua.remoteAddr _ _ _ _

/-! ### Which logins heed the lock -/

/-- The credentials are checked together with the lock. -/
def Credentials.checksLock : Credentials → Bool
  | .password _ _ | .appkey _ _ => true
  | .keyfob _ | .appuser _ | .autologin _ => false

theorem Credentials.admits_not_locked (users : Users) (credentials : Credentials)
    (username : Octets) (hChecks : credentials.checksLock = true)
    (hAdmits : credentials.admits site users = some username) : ¬ users.Locked username := by
  cases credentials with
  | password name secret =>
    simp only [Credentials.admits, Option.ite_none_right_eq_some, Option.some.injEq] at hAdmits
    obtain ⟨hOk, rfl⟩ := hAdmits
    exact verifyPassword_not_locked site.toDigests users name secret hOk
  | appkey name key =>
    simp only [Credentials.admits, Option.ite_none_right_eq_some, Option.some.injEq] at hAdmits
    obtain ⟨hOk, rfl⟩ := hAdmits
    exact verifyAppkey_not_locked users name key hOk
  | keyfob keyfobid => exact absurd hChecks Bool.false_ne_true
  | appuser userid => exact absurd hChecks Bool.false_ne_true
  | autologin name => exact absurd hChecks Bool.false_ne_true

/-- No account of a login under way is locked by the event, and a login that does not look at
the lock begins only for a user who is not locked. -/
def LoginSystem.LockHeeded (sys : LoginSystem) : LoginEvent → Prop
  | .request r _ => ∀ credentials, r.credentials site = some credentials →
      credentials.checksLock = false → ∀ username,
        credentials.admits site sys.store.db.users = some username →
          ¬ sys.store.db.users.Locked username
  | .elsewhere store => ∀ login ∈ sys.logins, ∀ username, login.name = some username →
      ¬ store.db.users.Locked username
  | .read _ | .create _ _ | .abandon _ => True

/-- All events of a run heed the lock. -/
def LoginSystem.LocksHeeded (sys : LoginSystem) (events : List LoginEvent) : Prop :=
  Meets (LoginSystem.step site) (LoginSystem.LockHeeded site) sys events

/-- No login under way is for a locked account, and no session was created for one. -/
structure LoginSystem.Inv (sys : LoginSystem) : Prop where
  logins : ∀ login ∈ sys.logins, ∀ username, login.name = some username →
    ¬ sys.store.db.users.Locked username
  created : ∀ session ∈ sys.created, session.locked = false

theorem selectUser_username (users : Users) (username : Octets) (row : UserRow)
    (hFound : selectUser users username = some row) : row.username = username := by
  have hSelected := List.find?_some hFound
  simpa using hSelected

/-- The line is of the user the login was admitted for. -/
theorem PendingLogin.readLine_name (db : Database) (login after : PendingLogin)
    (username : Octets) (hUnread : login.read = none)
    (hRead : login.readLine site db = some after) (hName : after.name = some username) :
    login.name = some username := by
  obtain ⟨rights, -, rfl⟩ := Option.map_eq_some_iff.mp hRead
  obtain ⟨line, hLine, hUser⟩ := Option.map_eq_some_iff.mp hName
  obtain ⟨row, hRow, rfl⟩ := Option.map_eq_some_iff.mp hLine
  rw [PendingLogin.name, hUnread, ← hUser]
  exact congrArg some (selectUser_username db.users login.username row hRow).symm

theorem createSession_users (m : Moment) (self : LoginModule) (store : Store)
    (remoteAddr : Octets) (username : Option Octets)
    (hasDeveloper hasAdmin keeploggedin : Bool) :
    (createSession site.toSite m self store remoteAddr username hasDeveloper hasAdmin
      keeploggedin).2.2.db.users = store.db.users := by
  simp only [createSession]
  cases m.insertSession (newSessionRow site.toSite m remoteAddr username hasDeveloper hasAdmin
    keeploggedin) <;> rfl

theorem LoginSystem.Inv.isLocked {sys : LoginSystem} (hInv : sys.Inv) {login : PendingLogin}
    (hLogin : login ∈ sys.logins) : sys.isLocked login = false := by
  unfold LoginSystem.isLocked
  cases hName : login.name with
  | none => rfl
  | some username => simpa using hInv.logins login hLogin username hName

theorem LoginSystem.Inv.erase {sys : LoginSystem} (hInv : sys.Inv) (i : Nat) :
    LoginSystem.Inv { sys with logins := sys.logins.eraseIdx i } where
  logins := fun login hLogin => hInv.logins login (List.mem_of_mem_eraseIdx hLogin)
  created := hInv.created

theorem LoginSystem.Inv.request {sys : LoginSystem} (hInv : sys.Inv) (r : LoginRequest)
    (remoteAddr : Octets) (hHeeded : sys.LockHeeded site (.request r remoteAddr)) :
    (sys.request site r remoteAddr).Inv := by
  unfold LoginSystem.request
  cases hShown : r.credentials site with
  | none => exact hInv
  | some credentials =>
    cases hAdmits : credentials.admits site sys.store.db.users with
    | none => simpa only [hAdmits] using hInv
    | some admitted =>
      simp only [hAdmits]
      refine ⟨?_, hInv.created⟩
      intro login hLogin username hName
      rcases List.mem_append.mp hLogin with hOld | hNew
      · exact hInv.logins login hOld username hName
      · obtain rfl := List.mem_singleton.mp hNew
        obtain rfl : admitted = username := by simpa [PendingLogin.name] using hName
        cases hChecks : credentials.checksLock with
        | true => exact credentials.admits_not_locked site _ admitted hChecks hAdmits
        | false => exact hHeeded credentials hShown hChecks admitted hAdmits

theorem LoginSystem.Inv.read {sys : LoginSystem} (hInv : sys.Inv) (i : Nat)
    {login : PendingLogin} (hLogin : login ∈ sys.logins) : (sys.read site i login).Inv := by
  unfold LoginSystem.read
  cases hUnread : login.read with
  | some _ => exact hInv
  | none =>
    cases hRead : login.readLine site sys.store.db with
    | none => exact hInv.erase i
    | some after =>
      refine ⟨?_, hInv.created⟩
      intro other hOther username hName
      rcases List.mem_or_eq_of_mem_set hOther with hOld | rfl
      · exact hInv.logins other hOld username hName
      · have hBefore := login.readLine_name site _ other username hUnread hRead hName
        exact hInv.logins login hLogin username hBefore

theorem LoginSystem.Inv.create {sys : LoginSystem} (hInv : sys.Inv) (i : Nat) (m : Moment)
    {login : PendingLogin} (hLogin : login ∈ sys.logins) : (sys.create site i m login).Inv := by
  unfold LoginSystem.create
  cases hRead : login.read with
  | none => exact hInv
  | some read =>
    refine ⟨?_, ?_⟩
    · intro other hOther username hName
      rw [createSession_users]
      exact hInv.logins other (List.mem_of_mem_eraseIdx hOther) username hName
    · intro session hSession
      simp only at hSession
      cases hInserted : m.insertSession (login.row site m read.2) with
      | errstr dberr =>
        rw [hInserted] at hSession
        exact hInv.created session hSession
      | ok =>
        rw [hInserted] at hSession
        rcases List.mem_append.mp hSession with hOld | hNew
        · exact hInv.created session hOld
        · obtain rfl := List.mem_singleton.mp hNew
          exact hInv.isLocked hLogin

theorem LoginSystem.Inv.step {sys : LoginSystem} (hInv : sys.Inv) (event : LoginEvent)
    (hHeeded : sys.LockHeeded site event) : (sys.step site event).Inv := by
  cases event with
  | request r remoteAddr => exact hInv.request site r remoteAddr hHeeded
  | read i =>
    simp only [LoginSystem.step]
    cases hLogin : sys.logins[i]? with
    | none => exact hInv
    | some login => exact hInv.read site i (List.mem_of_getElem? hLogin)
  | create i m =>
    simp only [LoginSystem.step]
    cases hLogin : sys.logins[i]? with
    | none => exact hInv
    | some login => exact hInv.create site i m (List.mem_of_getElem? hLogin)
  | abandon i => exact hInv.erase i
  | elsewhere store => exact ⟨hHeeded, hInv.created⟩

theorem LoginSystem.Inv.run {sys : LoginSystem} (hInv : sys.Inv) (events : List LoginEvent)
    (hHeeded : sys.LocksHeeded site events) : (sys.run site events).Inv :=
  Meets.invariant hInv (fun _ event hBefore hHeeds => hBefore.step site event hHeeds) hHeeded

/-! ### Where the lock is not heeded -/

/-- A login that has read the line of a locked user makes a session for that user. -/
theorem LoginSystem.create_locked (sys : LoginSystem) (i : Nat) (m : Moment)
    (login : PendingLogin) (username : Octets) (hIndex : sys.logins[i]? = some login)
    (hRead : login.read.isSome = true) (hName : login.name = some username)
    (hLocked : sys.store.db.users.Locked username) (hInserts : ∀ row, m.insertSession row = .ok) :
    ∃ session ∈ (sys.run site [.create i m]).created, session.locked = true := by
  obtain ⟨read, hRead⟩ := Option.isSome_iff_exists.mp hRead
  have hIsLocked : sys.isLocked login = true := by
    simpa [LoginSystem.isLocked, hName] using hLocked
  refine ⟨{ row := login.row site m read.2, locked := true }, ?_, rfl⟩
  simp only [LoginSystem.run, runEvents, LoginSystem.step, List.foldl_cons, List.foldl_nil, hIndex,
    LoginSystem.create, hRead, hInserts, hIsLocked]
  exact List.mem_append_right _ (List.mem_singleton_self _)

theorem selectUser_of_locked {users : Users} {username : Octets}
    (hLocked : users.Locked username) :
    ∃ row, selectUser users username = some row ∧ row.username = username := by
  obtain ⟨row, hRow, hName, -⟩ := hLocked
  have hSome : (selectUser users username).isSome = true := by
    rw [selectUser, List.find?_isSome]
    exact ⟨row, hRow, by simpa using hName⟩
  obtain ⟨found, hFound⟩ := Option.isSome_iff_exists.mp hSome
  exact ⟨found, hFound, selectUser_username users username found hFound⟩

theorem Credentials.rights_some (db : Database) (line : UserLine) (credentials : Credentials) :
    ∃ rights, credentials.rights site db (some line) = some rights := by
  cases credentials <;> exact ⟨_, rfl⟩

/-- A login under way for a locked account can go on to a session. -/
theorem LoginSystem.exists_locked_session (sys : LoginSystem) (login : PendingLogin)
    (username : Octets) (m : Moment) (hLogin : login ∈ sys.logins)
    (hName : login.name = some username) (hLocked : sys.store.db.users.Locked username)
    (hInserts : ∀ row, m.insertSession row = .ok) :
    ∃ later, ∃ session ∈ (sys.run site later).created, session.locked = true := by
  obtain ⟨i, hIndex⟩ := List.mem_iff_getElem?.mp hLogin
  cases hRead : login.read with
  | some read =>
    exact ⟨[.create i m], sys.create_locked site i m login username hIndex (by simp [hRead])
      hName hLocked hInserts⟩
  | none =>
    obtain rfl : login.username = username := by simpa [PendingLogin.name, hRead] using hName
    obtain ⟨row, hRow, hRowName⟩ := selectUser_of_locked hLocked
    obtain ⟨rights, hRights⟩ :=
      login.credentials.rights_some site sys.store.db row.toUserLine
    let after : PendingLogin := { login with read := some (some row.toUserLine, rights) }
    have hLine : login.readLine site sys.store.db = some after := by
      simp [PendingLogin.readLine, hRow, hRights, after]
    have hStep : sys.step site (.read i) = { sys with logins := sys.logins.set i after } := by
      simp only [LoginSystem.step, hIndex, LoginSystem.read, hRead, hLine]
    have hBound : i < sys.logins.length := (List.getElem?_eq_some_iff.mp hIndex).1
    have hCreated := (sys.step site (.read i)).create_locked site i m after login.username
      (by rw [hStep]; simp [hBound]) rfl (congrArg some hRowName) (by rw [hStep]; exact hLocked)
      hInserts
    exact ⟨[.read i, .create i m], hCreated⟩

/-- An event that does not heed the lock opens a way to a session for a locked user. -/
theorem LoginSystem.not_lockHeeded (sys : LoginSystem) (event : LoginEvent) (m : Moment)
    (hInserts : ∀ row, m.insertSession row = .ok) (hIgnored : ¬ sys.LockHeeded site event) :
    ∃ later, ∃ session ∈ (sys.run site (event :: later)).created, session.locked = true := by
  cases event with
  | request r remoteAddr =>
    simp only [LoginSystem.LockHeeded, not_forall, not_not] at hIgnored
    obtain ⟨credentials, hShown, -, username, hAdmits, hLocked⟩ := hIgnored
    let login : PendingLogin :=
      { credentials, remoteAddr, keeploggedin := r.keeploggedin credentials, username }
    have hStep : sys.step site (.request r remoteAddr) =
        { sys with logins := sys.logins ++ [login] } := by
      simp only [LoginSystem.step, LoginSystem.request, hShown, hAdmits, login]
    exact (sys.step site (.request r remoteAddr)).exists_locked_session site login username m
      (by rw [hStep]; simp) rfl (by rw [hStep]; exact hLocked) hInserts
  | elsewhere store =>
    simp only [LoginSystem.LockHeeded, not_forall, not_not] at hIgnored
    obtain ⟨login, hLogin, username, hName, hLocked⟩ := hIgnored
    exact (sys.step site (.elsewhere store)).exists_locked_session site login username m hLogin
      hName hLocked hInserts
  | read i => exact absurd trivial hIgnored
  | create i m => exact absurd trivial hIgnored
  | abandon i => exact absurd trivial hIgnored

/-- In a run whose events heed the lock no session is created for a locked user, and any other
event can be followed by one that is. -/
theorem locked_users_stay_out :
    (∀ (sys : LoginSystem) (events : List LoginEvent), sys.logins = [] → sys.created = [] →
      sys.LocksHeeded site events →
        ∀ session ∈ (sys.run site events).created, session.locked = false) ∧
    ∀ (sys : LoginSystem) (event : LoginEvent), ¬ sys.LockHeeded site event →
      ∃ later, ∃ session ∈ (sys.run site (event :: later)).created, session.locked = true := by
  refine ⟨?_, ?_⟩
  · intro sys events hLogins hCreated hHeeded
    have hInv : sys.Inv := ⟨by simp [hLogins], by simp [hCreated]⟩
    exact (hInv.run site events hHeeded).created
  · intro sys event hIgnored
    exact sys.not_lockHeeded site event quietMoment (fun _ => rfl) hIgnored

end Module

/-! ### Ann -/

def annSite : LoginSite where
  toSite := staffSite
  cutWebpath url := url.drop (octets "/user/login").length
  forcelowercase := true

def annRow (accountLocked : Bool) : UserRow where
  username := octets "ann"
  emailAddr := octets "ann@localhost"
  firstName := octets "Ann"
  lastName := octets "Other"
  nameInitials := octets "AO"
  organisation := octets "none"
  userId := octets "1"
  accountLocked := accountLocked
  passwordPrefix := []
  passwordPostfix := []
  passwordBcryptHash := []
  passwordBcryptSalt := []
  passwordBcryptCost := 5
  forcePasswordChange := false
  appkey := octets "K1"
  hardwareFob := octets "F1"
  applogin_usercode := octets "U1"

def annSystem (accountLocked : Bool) : LoginSystem where
  store :=
    { db :=
        { users := { rows := [annRow accountLocked], usernameUnique := List.nodup_singleton _ },
          permissions := { permissiongroupentries := [], usersPermissiongroups := [] },
          sessions := [], usersBasicauthcache := [] },
      memcache := fun _ => none, sessionrefreshes := [] }

def annLogin (r : LoginRequest) : List LoginEvent :=
  [.request r (octets "10.0.0.1"), .read 0, .create 0 quietMoment]

def annAppkey : LoginRequest :=
  .login { url := octets "/user/login/ann+K1", username := [], password := [],
           keepLoggedIn := false }

theorem locked_users_stay_out_appkey :
    ((annSystem false).run annSite (annLogin annAppkey)).created.length = 1 ∧
    (∀ session ∈ ((annSystem false).run annSite (annLogin annAppkey)).created,
      session.locked = false) ∧
    ∃ later, ∃ session ∈ ((annSystem true).run annSite
      (.request (.keyfob (octets "F1")) (octets "10.0.0.1") :: later)).created,
        session.locked = true := by
  have hShown : annAppkey.credentials annSite = some (.appkey (octets "ann") (octets "K1")) := by
    decide +kernel
  refine ⟨by decide +kernel, ?_, ?_⟩
  · refine (locked_users_stay_out annSite).1 (annSystem false) (annLogin annAppkey) rfl rfl
      ⟨?_, trivial, trivial, trivial⟩
    intro credentials hCredentials hUnchecked
    obtain rfl : Credentials.appkey (octets "ann") (octets "K1") = credentials :=
      Option.some.inj (hShown.symm.trans hCredentials)
    simp [Credentials.checksLock] at hUnchecked
  · refine (locked_users_stay_out annSite).2 (annSystem true) _ ?_
    intro hHeeded
    have hFob : (Credentials.keyfob (octets "F1")).admits annSite
        (annSystem true).store.db.users = some (octets "ann") := by
      decide +kernel
    exact hHeeded (.keyfob (octets "F1")) (by decide +kernel) rfl (octets "ann") hFob
      (by decide +kernel)

/-- The fob of a locked user opens a session. -/
theorem locked_users_come_in :
    ¬ ∀ (site : LoginSite) (sys : LoginSystem) (events : List LoginEvent), sys.logins = [] →
      sys.created = [] → ∀ session ∈ (sys.run site events).created, session.locked = false := by
  intro hStayOut
  have hLocked : ((annSystem true).run annSite
      (annLogin (.keyfob (octets "F1")))).created.all (fun session => !session.locked) = false := by
    decide +kernel
  have hUnlocked := hStayOut annSite (annSystem true) (annLogin (.keyfob (octets "F1"))) rfl rfl
  rw [List.all_eq_false] at hLocked
  obtain ⟨session, hSession, hFound⟩ := hLocked
  exact hFound (by simp [hUnlocked session hSession])

end PageCamel.Web

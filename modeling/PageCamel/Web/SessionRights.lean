import PageCamel.Web.LoginPaths

/-!
The rights in the record of a session. Three functions write the line of a user there: `get_login`
takes the answer of `getPermissionForUser` as it is, `getAutologin` and `adminSwitchToUser` filter
it and add the levels whose `restrict` names the user.
-/

namespace PageCamel.Web
open PageCamel.Lib PageCamel.Helpers

/-! ### What the groups of a user give -/

/-- The groups give the permission, and no level that leaves the user out stands in the way. -/
def Gives (tables : PermissionTables) (levels : List Userlevel) (username name : Octets) : Prop :=
  ¬ Restricted levels username name ∧
    if slash ∈ name then
      ¬ Restricted levels username (rootname name) ∧
        ∃ group other, tables.Member username group ∧ tables.Member username other ∧
          (tables.Entry group (rootname name) .all ∧ (∃ level, tables.Entry other name level) ∨
            tables.Entry group (rootname name) .selective ∧ tables.Entry other name .all)
    else ∃ group, tables.Member username group ∧
      (tables.Entry group name .all ∨ tables.Entry group name .selective)

theorem mem_getPermissionForUser (collate : Octets → Octets → Bool) (levels : List Userlevel)
    (tables : PermissionTables) (username name : Octets) :
    name ∈ getPermissionForUser collate levels tables username ↔
      Gives tables levels username name := by
  rw [Gives]
  split
  · next hSlash => exact grants_below collate levels tables username hSlash
  · next hRoot => exact grants_root collate levels tables username hRoot

/-- The level is restricted to some users, and this is one of them. -/
def WebUserlevel.Names (level : WebUserlevel) (username : Octets) : Prop :=
  ∃ usernames, level.restrict = some usernames ∧ username ∈ usernames

/-- Both lists of tables are what the logins read. -/
def Database.SameAccounts (db db' : Database) : Prop :=
  db.users = db'.users ∧ db.permissions = db'.permissions

section Rights
variable (site : Site)

def Site.levels : List Userlevel := site.userlevels.map fun level => level.toUserlevel

theorem Database.SameAccounts.permissionsOf {db db' : Database} (h : db.SameAccounts db') :
    permissionsOf site db = permissionsOf site db' := by
  funext username
  rw [Web.permissionsOf, h.2]
  rfl

theorem Database.SameAccounts.autologinRights {db db' : Database} (h : db.SameAccounts db') :
    autologinRights site db = autologinRights site db' := by
  funext username
  rw [Web.autologinRights, h.permissionsOf]
  rfl

theorem mem_permissionsOf (db : Database) (username right : Octets) :
    right ∈ permissionsOf site db username ↔ Gives db.permissions site.levels username right :=
  mem_getPermissionForUser ..

/-- The level that filters a right of the user out names the user. -/
theorem filtered_named (db : Database) (username : Octets) {right : Octets}
    (hGiven : right ∈ permissionsOf site db username)
    (hAny : (site.userlevels.any fun ur => ur.restrict.isSome && right = ur.db) = true) :
    ∃ level ∈ site.userlevels, level.Names username ∧ level.db = right := by
  obtain ⟨level, hLevel, hFilter⟩ := List.any_eq_true.mp hAny
  obtain ⟨hSome, hSame⟩ := Bool.and_eq_true_iff.mp hFilter
  obtain ⟨usernames, hRestrict⟩ := Option.isSome_iff_exists.mp hSome
  have hDb : right = level.db := of_decide_eq_true hSame
  refine ⟨level, hLevel, ⟨usernames, hRestrict, ?_⟩, hDb.symm⟩
  by_contra hOut
  refine ((mem_permissionsOf site db username right).mp hGiven).1 ?_
  exact ⟨level.toUserlevel, List.mem_map_of_mem hLevel, hDb.symm, usernames, hRestrict, hOut⟩

/-- Filtering takes away nothing that the loop behind it does not add again. -/
theorem mem_autologinRights (db : Database) (username right : Octets) :
    right ∈ autologinRights site db username ↔ right ∈ permissionsOf site db username ∨
      ∃ level ∈ site.userlevels, level.Names username ∧ level.db = right := by
  rw [autologinRights, List.mem_append, List.mem_filter, List.mem_filterMap]
  calc
    _ ↔ (right ∈ permissionsOf site db username ∧
          (!site.userlevels.any fun ur => ur.restrict.isSome && right = ur.db) = true) ∨
        ∃ level ∈ site.userlevels, level.Names username ∧ level.db = right := by
      refine or_congr_right (exists_congr fun level => and_congr_right fun _ => ?_)
      cases hRestrict : level.restrict with
      | none => simp [WebUserlevel.Names, hRestrict]
      | some usernames => simp [WebUserlevel.Names, hRestrict]
    _ ↔ _ := by
      refine ⟨Or.imp_left And.left, ?_⟩
      rintro (hGiven | hLevel)
      · by_cases hAny : (site.userlevels.any fun ur => ur.restrict.isSome && right = ur.db) = true
        · exact .inr (filtered_named site db username hGiven hAny)
        · exact .inl ⟨hGiven, by simpa using hAny⟩
      · exact .inr hLevel

/-- A level that names the user is not given by the groups. -/
theorem mem_autologinRights_iff (db : Database) (username : Octets) :
    (∀ right, right ∈ autologinRights site db username ↔ right ∈ permissionsOf site db username) ↔
      ∀ level ∈ site.userlevels, level.Names username →
        Gives db.permissions site.levels username level.db := by
  constructor
  · intro hSame level hLevel hNames
    rw [← mem_permissionsOf, ← hSame, mem_autologinRights]
    exact .inr ⟨level, hLevel, hNames, rfl⟩
  · intro hGiven right
    rw [mem_autologinRights]
    refine or_iff_left_of_imp ?_
    rintro ⟨level, hLevel, hNames, rfl⟩
    exact (mem_permissionsOf site db username level.db).mpr (hGiven level hLevel hNames)

end Rights

/-! ### `get_login` and `adminSwitchToUser` -/

/-- The record of a user who showed a password or a key; `html5Param` are the parameters
`html5_canvas` and so on. -/
def loginUser (site : LoginSite) (form : LoginForm) (html5Param : Octets → Option Octets)
    (credentials : Credentials) (row : Option UserRow) (rights : List Octets)
    (expires : Option Octets) : CachedUser :=
  let username := row.map fun row => row.username
  let appkeylogin :=
    match credentials with
    | .appkey _ _ => true
    | _ => false
  { line := row.map fun row => row.toUserLine, rights, expires,
    html5 := html5Features.map fun feature =>
      (feature, (html5Param feature).getD (octets "-1")),
    requirePasswordChange := (row.map fun row => row.forcePasswordChange).getD false,
    keyfobLogout := false, keyfobId := [],
    appuserlogin := some (username = some (octets "applogin") && site.applogin.isSome),
    appkeylogin := some appkeylogin,
    fullappkey := some (trimSlashes (site.cutWebpath form.url)) }

/-- The part of `get_login` behind the checks of the credentials, with the answer of
`checkLicenseStatus`. There is no session when it dies. -/
def getLoginSession (site : LoginSite) (m : Moment) (self : LoginModule) (store : Store)
    (ua : UserAgent) (form : LoginForm) (html5Param : Octets → Option Octets)
    (credentials : Credentials) (username : Octets) (licensed : Bool) :
    Option Octets × LoginModule × Store :=
  let store := deleteOldSession m store ua
  let row := selectUser store.db.users username
  match lineRights site.toSite (permissionsOf site.toSite store.db)
      (row.map fun row => row.toUserLine) with
  | none => (none, self, store)
  | some rights =>
      if !licensed then (none, self, store)
      else
        let hasDeveloper := octets "has_developer" ∈ rights
        let hasAdmin := octets "has_admin" ∈ rights
        let ((session, expires), self, store) :=
          createSession site.toSite m self store ua.remoteAddr (row.map fun row => row.username)
            hasDeveloper hasAdmin ((LoginRequest.login form).keeploggedin credentials)
        if session = [] ∨ session = licensePointsError ∨ session = licenseInvalidError then
          (none, self, store)
        else
          let user := loginUser site form html5Param credentials row rights expires
          let memcache := fun key => if key = session then some user else store.memcache key
          let cookie := createCookie site.toSite session expires
          (some session, { self with cookie, currentSessionID := some session },
            { store with memcache })

/-- `UPDATE sessions`; nothing is changed when it fails. -/
def updateSessionUsername (store : Store) (session username : Octets) (executed : Bool) : Store :=
  if executed then
    let sessions := store.db.sessions.map fun row =>
      if row.sid = session then { row with username := some username } else row
    { store with db := { store.db with sessions } }
  else store

/-- The rights that the start page is chosen by; nothing when it dies. The columns of a user who
is not found stay as they are. -/
def adminSwitchToUser (site : Site) (store : Store) (username : Octets) (ua : UserAgent)
    (executed : Bool) : Option (List Octets) × Store :=
  match ua.session with
  | none => (none, store)
  | some session =>
      let store := updateSessionUsername store session username executed
      match store.memcache session with
      | none => (none, store)
      | some user =>
          let found := (selectUser store.db.users username).map fun row => row.toUserLine
          let line := found.or user.line
          match lineRights site (autologinRights site store.db) line with
          | none => (none, store)
          | some rights =>
              let requirePasswordChange := found.isNone && user.requirePasswordChange
              let user := { user with line, rights, requirePasswordChange, hasrealuser := true }
              let memcache := fun key => if key = session then some user else store.memcache key
              (some rights, { store with memcache })

/-! ### The ways to an identity -/

section Identity
variable (site : LoginSite)

/-- What `createSession` returns in place of a session. -/
def NoSession (session : Octets) : Prop :=
  session = [] ∨ session = licensePointsError ∨ session = licenseInvalidError

/-- The record that one of the three functions leaves for a session, while the accounts are
those of `db`. The logins begin with the check of what was shown. -/
inductive Identified (db : Database) : CachedUser → Prop
  | login {store : Store} {form : LoginForm} {credentials : Credentials} {username : Octets}
      {m : Moment} {self self' : LoginModule} {ua : UserAgent} {html5Param : Octets → Option Octets}
      {licensed : Bool} {session : Octets} {store' : Store} {user : CachedUser}
      (hAccounts : store.db.SameAccounts db)
      (hShown : (LoginRequest.login form).credentials site = some credentials)
      (hAdmits : credentials.admits site store.db.users = some username)
      (hLogin : getLoginSession site m self store ua form html5Param credentials username licensed =
        (some session, self', store'))
      (hUser : store'.memcache session = some user) : Identified db user
  | autologin {store : Store} {request : LoginRequest} {credentials : Credentials}
      {username : Octets} {m : Moment} {self self' : LoginModule} {ua : UserAgent}
      {keyfobid session : Octets} {expires : Option Octets} {store' : Store} {user : CachedUser}
      (hAccounts : store.db.SameAccounts db)
      (hShown : request.credentials site = some credentials)
      (hUnchecked : credentials.checksLock = false)
      (hAdmits : credentials.admits site store.db.users = some username)
      (hLogin : getAutologin site.toSite m self store ua username keyfobid =
        (some (session, expires), self', store'))
      (hSession : ¬ NoSession session)
      (hUser : store'.memcache session = some user) : Identified db user
  | switch {store : Store} {username : Octets} {ua : UserAgent} {executed : Bool}
      {rights : List Octets} {session : Octets} {store' : Store} {user : CachedUser}
      (hAccounts : store.db.SameAccounts db) (hSession : ua.session = some session)
      (hSwitch : adminSwitchToUser site.toSite store username ua executed = (some rights, store'))
      (hUser : store'.memcache session = some user) : Identified db user

/-- The user the session is of. -/
def CachedUser.username (user : CachedUser) : Option Octets :=
  user.line.map fun line => line.username

/-! ### The rights each way stores -/

theorem lineRights_of_username {rightsOf : Octets → List Octets} {line : Option UserLine}
    {rights : List Octets} {username : Octets}
    (hRights : lineRights site.toSite rightsOf line = some rights)
    (hName : line.map (fun line => line.username) = some username) : rights = rightsOf username := by
  cases line with
  | none => cases hName
  | some line =>
    obtain rfl : line.username = username := Option.some.inj hName
    exact (Option.some.inj hRights).symm

theorem deleteOldSession_accounts (m : Moment) (store : Store) (ua : UserAgent) :
    (deleteOldSession m store ua).db.SameAccounts store.db := by
  rw [deleteOldSession]
  cases ua.session with
  | none => exact ⟨rfl, rfl⟩
  | some oldsession =>
    simp only
    split
    · exact ⟨rfl, rfl⟩
    · exact ⟨rfl, rfl⟩

theorem updateSessionUsername_accounts (store : Store) (session username : Octets)
    (executed : Bool) :
    (updateSessionUsername store session username executed).db.SameAccounts store.db := by
  cases executed with
  | false => exact ⟨rfl, rfl⟩
  | true => exact ⟨rfl, rfl⟩

theorem getLoginSession_rights {m : Moment} {self self' : LoginModule} {store store' : Store}
    {ua : UserAgent} {form : LoginForm} {html5Param : Octets → Option Octets}
    {credentials : Credentials} {username session name : Octets} {licensed : Bool}
    {user : CachedUser}
    (hLogin : getLoginSession site m self store ua form html5Param credentials username licensed =
      (some session, self', store'))
    (hUser : store'.memcache session = some user) (hName : user.username = some name) :
    name = username ∧ user.rights = permissionsOf site.toSite store.db name := by
  rw [← (deleteOldSession_accounts m store ua).permissionsOf site.toSite]
  rw [getLoginSession] at hLogin
  split at hLogin
  · cases hLogin
  · next rights hRights =>
    split at hLogin
    · cases hLogin
    · simp only at hLogin
      split at hLogin
      · cases hLogin
      · cases hLogin
        simp only [if_true, Option.some.injEq] at hUser
        subst hUser
        refine ⟨?_, lineRights_of_username site hRights hName⟩
        obtain ⟨line, hLine, rfl⟩ := Option.map_eq_some_iff.mp hName
        obtain ⟨row, hRow, rfl⟩ := Option.map_eq_some_iff.mp hLine
        exact selectUser_username _ _ row hRow

theorem getAutologin_rights {m : Moment} {self self' : LoginModule} {store store' : Store}
    {ua : UserAgent} {username keyfobid session name : Octets} {expires : Option Octets}
    {user : CachedUser}
    (hLogin : getAutologin site.toSite m self store ua username keyfobid =
      (some (session, expires), self', store')) (hSession : ¬ NoSession session)
    (hUser : store'.memcache session = some user) (hName : user.username = some name) :
    user.rights = autologinRights site.toSite store.db name := by
  rw [← (deleteOldSession_accounts m store ua).autologinRights site.toSite]
  rw [getAutologin] at hLogin
  split at hLogin
  · cases hLogin
  · next rights hRights =>
    simp only at hLogin
    split at hLogin
    · next hNone =>
      cases hLogin
      exact absurd hNone hSession
    · cases hLogin
      simp only [if_true, Option.some.injEq] at hUser
      subst hUser
      exact lineRights_of_username site hRights hName

theorem adminSwitchToUser_rights {store store' : Store} {username session name : Octets}
    {ua : UserAgent} {executed : Bool} {rights : List Octets} {user : CachedUser}
    (hSession : ua.session = some session)
    (hSwitch : adminSwitchToUser site.toSite store username ua executed = (some rights, store'))
    (hUser : store'.memcache session = some user) (hName : user.username = some name) :
    user.rights = autologinRights site.toSite store.db name := by
  rw [← (updateSessionUsername_accounts store session username executed).autologinRights
    site.toSite]
  rw [adminSwitchToUser, hSession] at hSwitch
  simp only at hSwitch
  split at hSwitch
  · cases hSwitch
  · split at hSwitch
    · cases hSwitch
    · next rights hRights =>
      cases hSwitch
      simp only [if_true, Option.some.injEq] at hUser
      subst hUser
      exact lineRights_of_username site hRights hName

/-- Some password or key of this user opens `get_login`. -/
def CanLogin (users : Users) (username : Octets) : Prop :=
  ∃ form credentials, (LoginRequest.login form).credentials site = some credentials ∧
    credentials.admits site users = some username

/-- The rights are those of the groups after `get_login`, and those with the named levels added
after the other two. -/
theorem Identified.rights {db : Database} {user : CachedUser} (h : Identified site db user)
    {name : Octets} (hName : user.username = some name) :
    CanLogin site db.users name ∧ user.rights = permissionsOf site.toSite db name ∨
      user.rights = autologinRights site.toSite db name := by
  cases h with
  | @login _ form credentials _ _ _ _ _ _ _ _ _ _ hAccounts hShown hAdmits hLogin hUser =>
      obtain ⟨rfl, hRights⟩ := getLoginSession_rights site hLogin hUser hName
      rw [hAccounts.1] at hAdmits
      rw [hAccounts.permissionsOf] at hRights
      exact .inl ⟨⟨form, credentials, hShown, hAdmits⟩, hRights⟩
  | autologin hAccounts _ _ _ hLogin hSession hUser =>
      rw [← hAccounts.autologinRights]
      exact .inr (getAutologin_rights site hLogin hSession hUser hName)
  | switch hAccounts hSession hSwitch hUser =>
      rw [← hAccounts.autologinRights]
      exact .inr (adminSwitchToUser_rights site hSession hSwitch hUser hName)

/-! ### Both ways are open -/

theorem selectUser_of_mem {users : Users} {row : UserRow} (hRow : row ∈ users.rows) :
    ∃ found, selectUser users row.username = some found := by
  refine Option.isSome_iff_exists.mp ?_
  rw [selectUser, List.find?_isSome]
  exact ⟨row, hRow, by simp⟩

theorem verifyPassword_found {users : Users} {username password : Octets}
    (hOk : verifyPassword site.toDigests users username password = true) :
    ∃ row, selectUser users username = some row := by
  rw [verifyPassword] at hOk
  split at hOk
  · cases hOk
  · next row hRow =>
    have hName := List.find?_some hRow
    simp only [decide_eq_true_eq] at hName
    rw [← hName.1]
    exact selectUser_of_mem (List.mem_of_find?_eq_some hRow)

theorem verifyAppkey_found {users : Users} {username appkey : Octets}
    (hOk : verifyAppkey users username appkey = true) :
    ∃ row, selectUser users username = some row := by
  rw [verifyAppkey] at hOk
  split at hOk
  · cases hOk
  · next row hRow =>
    have hName := List.find?_some hRow
    simp only [decide_eq_true_eq] at hName
    rw [← hName.1]
    exact selectUser_of_mem (List.mem_of_find?_eq_some hRow)

/-- The login page knows passwords and keys. -/
theorem login_checksLock {form : LoginForm} {credentials : Credentials}
    (hShown : (LoginRequest.login form).credentials site = some credentials) :
    credentials.checksLock = true := by
  simp only [LoginRequest.credentials, getLogin] at hShown
  generalize (appkeyParts site form.url).getD _ = parts at hShown
  simp only [Option.ite_none_right_eq_some] at hShown
  have hCredentials := hShown.2
  by_cases hKey : parts.2 ≠ []
  · rw [if_pos hKey] at hCredentials
    cases hCredentials
    rfl
  · rw [if_neg hKey] at hCredentials
    cases hCredentials
    rfl

theorem CanLogin.found {users : Users} {username : Octets} (h : CanLogin site users username) :
    ∃ row, selectUser users username = some row := by
  obtain ⟨form, credentials, hShown, hAdmits⟩ := h
  have hChecks := login_checksLock site hShown
  cases credentials with
  | password name secret =>
    simp only [Credentials.admits, Option.ite_none_right_eq_some, Option.some.injEq] at hAdmits
    obtain ⟨hOk, rfl⟩ := hAdmits
    exact verifyPassword_found site hOk
  | appkey name key =>
    simp only [Credentials.admits, Option.ite_none_right_eq_some, Option.some.injEq] at hAdmits
    obtain ⟨hOk, rfl⟩ := hAdmits
    exact verifyAppkey_found hOk
  | keyfob _ | appuser _ | autologin _ => cases hChecks

theorem sessionId_session (m : Moment) (hostAddr : Octets) :
    ¬ NoSession (sessionId site.toSite m hostAddr) := by
  have hHead : (sessionId site.toSite m hostAddr).head? = some 51 := rfl
  rintro (hNone | hNone | hNone)
  · rw [hNone] at hHead
    cases hHead
  · rw [hNone] at hHead
    exact absurd hHead (by decide)
  · rw [hNone] at hHead
    exact absurd hHead (by decide)

/-- Nobody has a session yet. -/
def Store.fresh (db : Database) : Store :=
  { db, memcache := fun _ => none, sessionrefreshes := [] }

/-- A request without a cookie. -/
def newcomer : UserAgent := { url := [], remoteAddr := [] }

/-- A user who is found gets a session when it can be inserted. -/
theorem getLoginSession_of_found {db : Database} {username : Octets} {row : UserRow}
    (hRow : selectUser db.users username = some row) (form : LoginForm)
    (credentials : Credentials) : ∃ self' store' user,
      getLoginSession site quietMoment {} (Store.fresh db) newcomer form (fun _ => none) credentials
        username true = (some (sessionId site.toSite quietMoment []), self', store') ∧
      store'.memcache (sessionId site.toSite quietMoment []) = some user ∧
      user.username = some row.username ∧
      user.rights = permissionsOf site.toSite db row.username := by
  have hSession := sessionId_session site quietMoment []
  rw [NoSession] at hSession
  have hInserts (row : SessionRow) : quietMoment.insertSession row = .ok := rfl
  simp only [getLoginSession, deleteOldSession, newcomer, Store.fresh, hRow, Option.map_some,
    lineRights, createSession, hInserts, newSessionRow, if_neg hSession, Bool.not_true,
    Bool.false_eq_true, if_false]
  exact ⟨_, _, _, rfl, if_pos rfl, rfl, rfl⟩

theorem exists_login {db : Database} {username : Octets} (h : CanLogin site db.users username) :
    ∃ user, Identified site db user ∧ user.username = some username ∧
      user.rights = permissionsOf site.toSite db username := by
  obtain ⟨row, hRow⟩ := h.found
  obtain ⟨form, credentials, hShown, hAdmits⟩ := h
  obtain rfl := selectUser_username db.users username row hRow
  obtain ⟨_, _, user, hLogin, hUser, hName, hRights⟩ :=
    getLoginSession_of_found site hRow form credentials
  exact ⟨user, .login ⟨rfl, rfl⟩ hShown hAdmits hLogin hUser, hName, hRights⟩

/-- A session of somebody. -/
def somebody : CachedUser where
  line := none
  html5 := []
  rights := []
  expires := none
  keyfobLogout := false
  keyfobId := []
  appuserlogin := none
  appkeylogin := none
  fullappkey := none

theorem exists_switch {db : Database} {username : Octets} {row : UserRow}
    (hRow : selectUser db.users username = some row) :
    ∃ user, Identified site db user ∧ user.username = some username ∧
      user.rights = autologinRights site.toSite db username := by
  obtain rfl := selectUser_username db.users username row hRow
  let store : Store := { Store.fresh db with memcache := fun _ => some somebody }
  obtain ⟨rights, store', user, hSwitch, hUser, hName, hRights⟩ : ∃ rights store' user,
      adminSwitchToUser site.toSite store row.username { newcomer with session := some [] } false =
        (some rights, store') ∧ store'.memcache [] = some user ∧
      user.username = some row.username ∧
      user.rights = autologinRights site.toSite db row.username := by
    simp only [adminSwitchToUser, updateSessionUsername, store, Store.fresh, hRow, Option.map_some,
      lineRights, Option.some_or, Bool.false_eq_true, if_false]
    exact ⟨_, _, _, rfl, rfl, rfl, rfl⟩
  exact ⟨user, .switch ⟨rfl, rfl⟩ rfl hSwitch hUser, hName, hRights⟩

/-- The records of a user have the same rights, however they were made, if and only if the
groups give each level that names the user, or there is no way through `get_login`. -/
theorem identified_rights_iff (db : Database) (username : Octets) :
    (∀ user user', Identified site db user → Identified site db user' →
      user.username = some username → user'.username = some username →
        ∀ right, right ∈ user.rights ↔ right ∈ user'.rights) ↔
      (CanLogin site db.users username → ∀ level ∈ site.userlevels, level.Names username →
        Gives db.permissions site.levels username level.db) := by
  constructor
  · intro hSame hCan
    obtain ⟨row, hRow⟩ := hCan.found
    obtain ⟨user, hUser, hName, hRights⟩ := exists_login site hCan
    obtain ⟨user', hUser', hName', hRights'⟩ := exists_switch site hRow
    refine (mem_autologinRights_iff site.toSite db username).mp fun right => ?_
    rw [← hRights, ← hRights']
    exact hSame user' user hUser' hUser hName' hName right
  · intro hGiven
    have hAutologin {user : CachedUser} (hUser : Identified site db user)
        (hName : user.username = some username) (right : Octets) :
        right ∈ user.rights ↔ right ∈ autologinRights site.toSite db username := by
      rcases hUser.rights site hName with ⟨hCan, hRights⟩ | hRights
      · rw [hRights]
        exact ((mem_autologinRights_iff site.toSite db username).mpr (hGiven hCan) right).symm
      · rw [hRights]
    intro user user' hUser hUser' hName hName' right
    exact (hAutologin hUser hName right).trans (hAutologin hUser' hName' right).symm

end Identity

/-- Ann is in no group, and the only one the vault is open to. -/
def vaultSite : LoginSite :=
  { annSite with userlevels := [{ db := octets "vault", restrict := some [octets "ann"] }] }

/-- With her key Ann has no right, and after a switch to her name there is the vault. -/
theorem identified_rights_differ :
    ¬ ∀ (site : LoginSite) (db : Database) (username : Octets) (user user' : CachedUser),
      Identified site db user → Identified site db user' →
        user.username = some username → user'.username = some username →
          ∀ right, right ∈ user.rights ↔ right ∈ user'.rights := by
  intro hSame
  have hCan : CanLogin vaultSite (annSystem false).store.db.users (octets "ann") :=
    ⟨{ url := octets "/user/login/ann+K1", username := [], password := [], keepLoggedIn := false },
      .appkey (octets "ann") (octets "K1"), by decide +kernel, by decide +kernel⟩
  obtain ⟨row, hRow⟩ := hCan.found
  obtain ⟨user, hUser, hName, hRights⟩ := exists_login vaultSite hCan
  obtain ⟨user', hUser', hName', hRights'⟩ := exists_switch vaultSite hRow
  have hVault : octets "vault" ∈ user'.rights := by
    rw [hRights']
    decide +kernel
  have hNone : octets "vault" ∉ user.rights := by
    rw [hRights]
    decide +kernel
  exact hNone ((hSame vaultSite _ _ user user' hUser hUser' hName hName' _).mpr hVault)

end PageCamel.Web

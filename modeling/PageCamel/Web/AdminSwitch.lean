import PageCamel.Lib.Runs
import PageCamel.Web.SessionRights

/-!
Working under another name (`adminSwitchToUser` and `adminSwitchFromUser` of
`Web/Users/Login.pm`). The name in the table of sessions is set before the user is looked up,
and each switch saves the identity of the moment, over one that is saved already.
-/

namespace PageCamel.Web
open PageCamel.Lib PageCamel.Helpers

/-- The record `realuser`: the columns of the user, the key fob and the rights. -/
structure RealUser where
  line : Option UserLine
  keyfobId : Octets
  keyfobLogout : Bool
  rights : List Octets
  deriving DecidableEq, Repr

def RealUser.username (real : RealUser) : Option Octets := real.line.map fun line => line.username

def CachedUser.identity (user : CachedUser) : RealUser :=
  { line := user.line, keyfobId := user.keyfobId, keyfobLogout := user.keyfobLogout,
    rights := user.rights }

/-- The store with the field `realuser` of the cached records. -/
structure SwitchStore extends Store where
  realuser : Octets → Option RealUser

/-- `updateSessionUsername` with a name that may be undefined. -/
def setSessionUsername (store : Store) (session : Octets) (username : Option Octets)
    (executed : Bool) : Store :=
  if executed then
    let sessions := store.db.sessions.map fun row =>
      if row.sid = session then { row with username } else row
    { store with db := { store.db with sessions } }
  else store

/-- `adminSwitchToUser` with what it saves. -/
def switchToUser (site : Site) (st : SwitchStore) (username : Octets) (ua : UserAgent)
    (executed : Bool) : Option (List Octets) × SwitchStore :=
  match adminSwitchToUser site st.toStore username ua executed with
  | (none, store) => (none, { st with toStore := store })
  | (some rights, store) =>
      let realuser := fun key =>
        if ua.session = some key then (st.memcache key).map fun user => user.identity
        else st.realuser key
      (some rights, { toStore := store, realuser })

/-- The rights that the start page is chosen by; nothing without a saved identity. -/
def adminSwitchFromUser (st : SwitchStore) (ua : UserAgent) (executed : Bool) :
    Option (List Octets) × SwitchStore :=
  match ua.session with
  | none => (none, st)
  | some session =>
      match st.memcache session, st.realuser session with
      | some user, some real =>
          let store := setSessionUsername st.toStore session real.username executed
          let user := { user with
            line := real.line, keyfobId := real.keyfobId, keyfobLogout := real.keyfobLogout,
            rights := real.rights, hasrealuser := false }
          let memcache := fun key => if key = session then some user else store.memcache key
          let realuser := fun key => if key = session then none else st.realuser key
          (some real.rights, { store with memcache, realuser })
      | _, _ => (none, st)

/-! ### Sequences of calls -/

inductive SwitchCall
  | toUser (username : Octets) (executed : Bool)
  | fromUser (executed : Bool)

section Calls
variable (site : Site) (ua : UserAgent) (session : Octets)

def SwitchStore.step (st : SwitchStore) : SwitchCall → SwitchStore
  | .toUser username executed => (switchToUser site st username ua executed).2
  | .fromUser executed => (adminSwitchFromUser st ua executed).2

def SwitchStore.Survives (st : SwitchStore) : SwitchCall → Prop
  | .toUser username executed => (switchToUser site st username ua executed).1 ≠ none
  | .fromUser _ => True

instance (st : SwitchStore) (call : SwitchCall) : Decidable (st.Survives site ua call) :=
  match call with
  | .toUser _ _ => inferInstanceAs (Decidable (_ ≠ none))
  | .fromUser _ => .isTrue trivial

/-- The table of sessions names the user of the cached record. -/
def TableAgrees (st : SwitchStore) : Prop :=
  ∀ user, st.memcache session = some user →
    ∀ row ∈ st.db.sessions, row.sid = session → row.username = user.username

/-- Switching back now would leave the session with this identity. -/
def Restores (identity : RealUser) (st : SwitchStore) : Prop :=
  ∀ executed, (((adminSwitchFromUser st ua executed).2.memcache session).map
    fun user => user.identity) = some identity

structure Kept (identity : RealUser) (st : SwitchStore) : Prop where
  table : TableAgrees session st
  restores : Restores ua session identity st

/-- The session is cached and has a row in the table. -/
structure InUse (st : SwitchStore) : Prop where
  cached : ∃ user, st.memcache session = some user
  row : ∃ row ∈ st.db.sessions, row.sid = session

/-- A session in use that nobody has switched yet. -/
structure LoggedIn (identity : RealUser) (st : SwitchStore) : Prop extends InUse session st where
  identity : ∀ user, st.memcache session = some user → user.identity = identity
  unswitched : st.realuser session = none
  table : TableAgrees session st

def SwitchStore.username (st : SwitchStore) : Option Octets :=
  (st.memcache session).bind fun user => user.username

/-- A switch to a user who exists, from the identity of the login, with the table updated. The
update makes no difference where the name stays, and it must fail for a user who does not
exist. -/
def SwitchStore.Sound (identity : RealUser) (st : SwitchStore) : SwitchCall → Prop
  | .toUser username executed =>
      ((st.memcache session).map fun user => user.identity) = some identity ∧
        ((selectUser st.db.users username).isSome = executed ∨ st.username session = some username)
  | .fromUser executed =>
      executed = true ∨
        ∀ real, st.realuser session = some real → real.username = st.username session

end Calls

/-! ### One call -/

section Session
variable {site : Site} {ua : UserAgent} {session : Octets} {st : SwitchStore} {identity : RealUser}
  {user : CachedUser}

/-- The rows of the session after a table update. -/
theorem row_setSessionUsername {store : Store} {username : Option Octets} {executed : Bool}
    (hRow : ∃ row ∈ store.db.sessions, row.sid = session) (old : Option Octets)
    (hOld : ∀ row ∈ store.db.sessions, row.sid = session → row.username = old)
    (new : Option Octets) :
    (∀ row ∈ (setSessionUsername store session username executed).db.sessions,
      row.sid = session → row.username = new) ↔
      (if executed then username else old) = new := by
  obtain ⟨own, hOwn, hSid⟩ := hRow
  rw [setSessionUsername]
  cases executed with
  | false =>
    constructor
    · intro hAll
      exact (hOld own hOwn hSid).symm.trans (hAll own hOwn hSid)
    · intro hNew row hMem hRowSid
      exact (hOld row hMem hRowSid).trans hNew
  | true =>
    constructor
    · intro hAll
      refine hAll _ (List.mem_map.mpr ⟨own, hOwn, rfl⟩) ?_ ▸ ?_
      · simp [hSid]
      · simp [hSid]
    · intro hNew row hMem hRowSid
      obtain ⟨before, -, rfl⟩ := List.mem_map.mp hMem
      by_cases hSame : before.sid = session
      · rw [if_pos hSame]
        exact hNew
      · rw [if_neg hSame] at hRowSid
        exact absurd hRowSid hSame

/-- Only a name is changed in the table. -/
theorem exists_setSessionUsername {store : Store} (username : Option Octets) (executed : Bool)
    (hRow : ∃ row ∈ store.db.sessions, row.sid = session) :
    ∃ row ∈ (setSessionUsername store session username executed).db.sessions, row.sid = session := by
  rw [setSessionUsername]
  split
  · obtain ⟨own, hOwn, hSid⟩ := hRow
    exact ⟨_, List.mem_map.mpr ⟨own, hOwn, rfl⟩, by simp [hSid]⟩
  · exact hRow

/-- What a switch that does not die leaves. -/
theorem switchToUser_survives (hSession : ua.session = some session)
    (hUser : st.memcache session = some user) {username : Octets} {executed : Bool}
    (hSurvives : (switchToUser site st username ua executed).1 ≠ none) :
    ∃ user', (switchToUser site st username ua executed).2.memcache session = some user' ∧
      user'.line = ((selectUser st.db.users username).map fun row => row.toUserLine).or user.line ∧
      (switchToUser site st username ua executed).2.realuser session = some user.identity ∧
      (switchToUser site st username ua executed).2.db.sessions =
        (setSessionUsername st.toStore session (some username) executed).db.sessions := by
  have hAccounts := updateSessionUsername_accounts st.toStore session username executed
  have hCached : (updateSessionUsername st.toStore session username executed).memcache session =
      some user := by
    rw [updateSessionUsername]
    split
    · exact hUser
    · exact hUser
  simp only [switchToUser, adminSwitchToUser, hSession, hCached, hAccounts.1] at hSurvives ⊢
  cases hRights : lineRights site (autologinRights site
      (updateSessionUsername st.toStore session username executed).db)
      (((selectUser st.db.users username).map fun row => row.toUserLine).or user.line) with
  | none =>
    rw [hRights] at hSurvives
    exact absurd rfl hSurvives
  | some rights =>
    refine ⟨_, if_pos rfl, rfl, ?_, rfl⟩
    show (if some session = some session then _ else _) = _
    rw [if_pos rfl, hUser]
    rfl

/-- What switching back leaves where somebody had switched. -/
theorem fromUser_switched (hSession : ua.session = some session)
    (hUser : st.memcache session = some user) {real : RealUser}
    (hReal : st.realuser session = some real) (executed : Bool) :
    ∃ user', (adminSwitchFromUser st ua executed).2.memcache session = some user' ∧
      user'.identity = real ∧ (adminSwitchFromUser st ua executed).2.realuser session = none ∧
      (adminSwitchFromUser st ua executed).2.db.sessions =
        (setSessionUsername st.toStore session real.username executed).db.sessions := by
  simp only [adminSwitchFromUser, hSession, hUser, hReal]
  exact ⟨_, if_pos trivial, rfl, if_pos trivial, trivial⟩

theorem fromUser_unswitched (hSession : ua.session = some session)
    (hReal : st.realuser session = none) (executed : Bool) :
    (adminSwitchFromUser st ua executed).2 = st := by
  simp only [adminSwitchFromUser, hSession, hReal]
  cases st.memcache session with
  | none => rfl
  | some user => rfl

theorem restores_iff (hSession : ua.session = some session)
    (hUser : st.memcache session = some user) :
    Restores ua session identity st ↔
      (st.realuser session).getD user.identity = identity := by
  cases hReal : st.realuser session with
  | none =>
    constructor
    · intro hRestores
      have hNow := hRestores true
      rw [fromUser_unswitched hSession hReal, hUser] at hNow
      exact Option.some.inj hNow
    · intro hSame executed
      rw [fromUser_unswitched hSession hReal, hUser]
      exact congrArg some hSame
  | some real =>
    constructor
    · intro hRestores
      obtain ⟨user', hUser', rfl, -⟩ := fromUser_switched hSession hUser hReal true
      have hNow := hRestores true
      rw [hUser'] at hNow
      exact Option.some.inj hNow
    · rintro rfl executed
      obtain ⟨user', hUser', hSame, -⟩ := fromUser_switched hSession hUser hReal executed
      rw [hUser']
      exact congrArg some hSame

/-- Whether the table agrees again after an update. -/
theorem tableAgrees_iff {st' : SwitchStore} {user' : CachedUser} {username : Option Octets}
    {executed : Bool} (hUse : InUse session st) (hUser : st.memcache session = some user)
    (hTable : TableAgrees session st) (hUser' : st'.memcache session = some user')
    (hSessions : st'.db.sessions =
      (setSessionUsername st.toStore session username executed).db.sessions) :
    TableAgrees session st' ↔ (if executed then username else user.username) = user'.username := by
  rw [← row_setSessionUsername hUse.row user.username (hTable user hUser), ← hSessions]
  constructor
  · exact fun hAgrees => hAgrees user' hUser'
  · intro hRows other hOther
    obtain rfl := Option.some.inj (hUser'.symm.trans hOther)
    exact hRows

theorem inUse_step (hSession : ua.session = some session) (hUse : InUse session st)
    {call : SwitchCall} (hSurvives : st.Survives site ua call) :
    InUse session (st.step site ua call) := by
  obtain ⟨⟨user, hUser⟩, hRow⟩ := hUse
  cases call with
  | toUser username executed =>
    obtain ⟨user', hUser', -, -, hSessions⟩ := switchToUser_survives hSession hUser hSurvives
    refine ⟨⟨user', hUser'⟩, ?_⟩
    rw [SwitchStore.step, hSessions]
    exact exists_setSessionUsername _ _ hRow
  | fromUser executed =>
    rw [SwitchStore.step]
    cases hReal : st.realuser session with
    | none =>
      rw [fromUser_unswitched hSession hReal]
      exact ⟨⟨user, hUser⟩, hRow⟩
    | some real =>
      obtain ⟨user', hUser', -, -, hSessions⟩ := fromUser_switched hSession hUser hReal executed
      refine ⟨⟨user', hUser'⟩, ?_⟩
      rw [hSessions]
      exact exists_setSessionUsername _ _ hRow

/-- A user who is found has the name that was asked for. -/
theorem switched_username_iff (username : Octets) (executed : Bool) (old : Option UserLine)
    (users : Users) :
    (if executed then some username else old.map fun line => line.username) =
        ((((selectUser users username).map fun row => row.toUserLine).or old).map
          fun line => line.username) ↔
      (selectUser users username).isSome = executed ∨
        (old.map fun line => line.username) = some username := by
  cases hFound : selectUser users username with
  | none =>
    cases executed with
    | false => simp
    | true => simp [eq_comm]
  | some row =>
    have hName := selectUser_username users username row hFound
    cases executed with
    | false => simp [hName]
    | true => simp [hName]

theorem kept_toUser_iff (hSession : ua.session = some session) (hUse : InUse session st)
    (hUser : st.memcache session = some user) (hTable : TableAgrees session st) {username : Octets}
    {executed : Bool} (hSurvives : st.Survives site ua (.toUser username executed)) :
    Kept ua session identity (st.step site ua (.toUser username executed)) ↔
      user.identity = identity ∧
        ((selectUser st.db.users username).isSome = executed ∨ user.username = some username) := by
  obtain ⟨user', hUser', hLine, hReal, hSessions⟩ :=
    switchToUser_survives hSession hUser hSurvives
  have hTable' := tableAgrees_iff hUse hUser hTable hUser' hSessions
  rw [CachedUser.username, CachedUser.username, hLine, switched_username_iff,
    ← CachedUser.username] at hTable'
  have hRestores' := @restores_iff _ _ _ identity _ hSession hUser'
  rw [hReal, Option.getD_some] at hRestores'
  constructor
  · intro hKept
    exact ⟨hRestores'.mp hKept.restores, hTable'.mp hKept.table⟩
  · rintro ⟨hSame, hName⟩
    exact ⟨hTable'.mpr hName, hRestores'.mpr hSame⟩

theorem kept_fromUser_iff (hSession : ua.session = some session) (hUse : InUse session st)
    (hUser : st.memcache session = some user) (hKept : Kept ua session identity st)
    (executed : Bool) :
    Kept ua session identity (st.step site ua (.fromUser executed)) ↔ executed = true ∨
      ∀ real, st.realuser session = some real → real.username = user.username := by
  rw [SwitchStore.step]
  cases hReal : st.realuser session with
  | none =>
    rw [fromUser_unswitched hSession hReal]
    exact ⟨fun _ => .inr nofun, fun _ => hKept⟩
  | some real =>
    obtain ⟨user', hUser', rfl, hNone, hSessions⟩ := fromUser_switched hSession hUser hReal executed
    have hTable' := tableAgrees_iff hUse hUser hKept.table hUser' hSessions
    have hSame := (restores_iff hSession hUser).mp hKept.restores
    rw [hReal, Option.getD_some] at hSame
    have hRestores' : Restores ua session identity (adminSwitchFromUser st ua executed).2 := by
      rw [restores_iff hSession hUser', hNone]
      exact hSame
    have hName : user'.identity.username = user'.username := rfl
    constructor
    · intro hAfter
      have hAgrees := hTable'.mp hAfter.table
      cases executed with
      | true => exact .inl rfl
      | false =>
        right
        rintro _ ⟨⟩
        exact hAgrees.symm
    · intro hWhen
      refine ⟨hTable'.mpr ?_, hRestores'⟩
      rcases hWhen with rfl | hStays
      · exact hName
      · rw [hStays _ rfl, ite_self]
        exact (hStays _ rfl).symm

/-- A call keeps both halves just when it is sound. -/
theorem kept_step_iff (hSession : ua.session = some session) (hUse : InUse session st)
    {call : SwitchCall} (hSurvives : st.Survives site ua call)
    (hKept : Kept ua session identity st) :
    Kept ua session identity (st.step site ua call) ↔ st.Sound session identity call := by
  obtain ⟨user, hUser⟩ := hUse.cached
  have hName : st.username session = user.username := by
    rw [SwitchStore.username, hUser, Option.bind_some]
  cases call with
  | toUser username executed =>
    rw [kept_toUser_iff hSession hUse hUser hKept.table hSurvives, SwitchStore.Sound, hUser, hName,
      Option.map_some, Option.some.injEq]
  | fromUser executed =>
    rw [kept_fromUser_iff hSession hUse hUser hKept, SwitchStore.Sound, hName]

theorem LoggedIn.kept (hSession : ua.session = some session) (h : LoggedIn session identity st) :
    Kept ua session identity st := by
  obtain ⟨user, hUser⟩ := h.cached
  refine ⟨h.table, (restores_iff hSession hUser).mpr ?_⟩
  rw [h.unswitched]
  exact h.identity user hUser

end Session

/-- In every run of calls that do not die: the table names the cached user and switching back
gives the identity of the login, in every state, if and only if every call is sound. -/
theorem switches_kept_iff (site : Site) (ua : UserAgent) (session : Octets) (st : SwitchStore)
    (identity : RealUser) (calls : List SwitchCall) (hSession : ua.session = some session)
    (hLogin : LoggedIn session identity st)
    (hSurvive : Meets (SwitchStore.step site ua) (SwitchStore.Survives site ua) st calls) :
    (∀ seen, seen <+: calls →
        Kept ua session identity (runEvents (SwitchStore.step site ua) st seen)) ↔
      Meets (SwitchStore.step site ua) (SwitchStore.Sound session identity) st calls :=
  Meets.iff_always_of_valid (InUse session)
    (fun _ _ hUse hSurvives _ => inUse_step hSession hUse hSurvives)
    (fun _ _ hUse hSurvives hKept => kept_step_iff hSession hUse hSurvives hKept) calls
    hLogin.toInUse (hLogin.kept hSession) hSurvive

/-! ### Two users -/

/-- The users `a` and `b`. -/
def twoUsers : Users where
  rows := [{ annRow false with username := [97] }, { annRow false with username := [98] }]
  usernameUnique := by decide

/-- User `a` is logged in with the session `s`. -/
def switchStore : SwitchStore where
  db :=
    { users := twoUsers, permissions := { permissiongroupentries := [], usersPermissiongroups := [] },
      sessions := [{ staffSession with sid := [115], username := some [97] }],
      usersBasicauthcache := [] }
  memcache := fun key =>
    if key = [115] then
      some { staffUser with line := some { annRow false with username := [97] }.toUserLine }
    else none
  sessionrefreshes := []
  realuser := fun _ => none

def switchIdentity : RealUser where
  line := some { annRow false with username := [97] }.toUserLine
  keyfobId := []
  keyfobLogout := false
  rights := [octets "staff"]

def switchAgent : UserAgent := { url := [], remoteAddr := [], session := some [115] }

theorem switchStore_loggedIn : LoggedIn [115] switchIdentity switchStore where
  cached := ⟨_, rfl⟩
  row := ⟨_, List.mem_cons_self, rfl⟩
  identity := by
    rintro _ ⟨⟩
    rfl
  unswitched := rfl
  table := by
    rintro _ ⟨⟩ row hRow -
    rw [List.mem_singleton.mp hRow]
    rfl

theorem switches_kept_back :
    Kept switchAgent [115] switchIdentity
      (runEvents (SwitchStore.step staffSite switchAgent) switchStore
        [.toUser [98] true, .fromUser true]) :=
  (switches_kept_iff staffSite switchAgent [115] switchStore switchIdentity
    [.toUser [98] true, .fromUser true] rfl switchStore_loggedIn
    ⟨by decide +kernel, trivial, trivial⟩).mpr
    ⟨⟨rfl, .inl (by decide +kernel)⟩, .inl rfl, trivial⟩ _ List.prefix_rfl

/-- A second switch forgets the login, and a switch to nobody leaves another name in the
table. -/
theorem switches_not_kept :
    ¬ (∀ (site : Site) (ua : UserAgent) (session : Octets) (st : SwitchStore) (identity : RealUser)
        (calls : List SwitchCall), ua.session = some session → LoggedIn session identity st →
        Meets (SwitchStore.step site ua) (SwitchStore.Survives site ua) st calls →
          Restores ua session identity (runEvents (SwitchStore.step site ua) st calls)) ∧
      ¬ ∀ (site : Site) (ua : UserAgent) (session : Octets) (st : SwitchStore) (identity : RealUser)
        (calls : List SwitchCall), ua.session = some session → LoggedIn session identity st →
        Meets (SwitchStore.step site ua) (SwitchStore.Survives site ua) st calls →
          TableAgrees session (runEvents (SwitchStore.step site ua) st calls) := by
  constructor
  · intro hAll
    have hRestores := hAll staffSite switchAgent [115] switchStore switchIdentity
      [.toUser [98] true, .toUser [97] true] rfl switchStore_loggedIn
      ⟨by decide +kernel, by decide +kernel, trivial⟩ true
    exact absurd hRestores (by decide +kernel)
  · intro hAll
    have hTable := hAll staffSite switchAgent [115] switchStore switchIdentity
      [.toUser [99] true] rfl switchStore_loggedIn ⟨by decide +kernel, trivial⟩
    have hName := hTable _ rfl _ List.mem_cons_self rfl
    exact absurd hName (by decide +kernel)

end PageCamel.Web

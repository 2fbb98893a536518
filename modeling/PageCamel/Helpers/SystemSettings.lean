import PageCamel.Lib.Octets
import PageCamel.Lib.Runs
import Mathlib.Logic.Function.Basic

/-!
One setting of `SystemSettings.pm`, shared by processes that read and write it through a
cache: every call is a sequence of database statements and cache operations, each of
which is atomic, and other processes run between any two of them.
-/

namespace PageCamel.Helpers
open PageCamel.Lib

/-! ### The setting -/

/-- The columns of the row that calls change. -/
structure SettingRow where
  settingvalue : Octets
  valueMin : Octets := []
  valueMax : Octets := []
  enumValues : Octets := []
  processinghints : Octets := []
  deriving DecidableEq, Repr

/-- What the database does in functions and with types that are its own: the function
`merge_system_settings`, and the two updates that bring a number between its bounds. -/
structure SettingsDB where
  mergeSystemSettings : Option SettingRow → Octets → SettingRow
  clamp : SettingRow → SettingRow

/-- The calls, with what they are given: `get` and `set` with `$forcedb`, and the value of
`set` as `encode_utf8` makes it. -/
inductive SettingCall where
  | get (forcedb : Bool)
  | set (value : Octets) (forcedb : Bool)
  | delete
  | updateProcessinghints (hints : Octets)
  | updateEnumValues (values : Octets)
  | updateMinMax (min max : Octets)
  deriving DecidableEq, Repr

/-! ### Processes -/

/-- The next thing a process does for the call in progress. -/
inductive SettingPhase where
  | idle
  | getCached
  | getSelect
  | getStore (row : SettingRow)
  | setCached (value : Octets)
  | setMerge (value : Octets) (retrycount : Nat)
  | update (call : SettingCall)
  | clamp
  | reload
  | reloadStore (row : SettingRow)
  | deleteCached
  | deleteRow
  deriving DecidableEq, Repr

structure Settings where
  row : Option SettingRow
  cache : Option SettingRow := none
  phase : Nat → SettingPhase := fun _ => .idle

def Settings.setPhase (s : Settings) (p : Nat) (phase : SettingPhase) : Settings :=
  { s with phase := Function.update s.phase p phase }

/-- A set that is not forced looks into the cache first. -/
def SettingCall.firstPhase (softUpdates : Bool) : SettingCall → SettingPhase
  | .get forcedb => if forcedb then .getSelect else .getCached
  | .set value forcedb => if !forcedb || softUpdates then .setCached value else .setMerge value 10
  | .delete => .deleteCached
  | call => .update call

/-- The columns an update sets. -/
def SettingCall.change : SettingCall → SettingRow → SettingRow
  | .updateProcessinghints hints, row => { row with processinghints := hints }
  | .updateEnumValues values, row => { row with enumValues := values }
  | .updateMinMax min max, row => { row with valueMin := min, valueMax := max }
  | _, row => row

/-- What comes after the first update of a call. -/
def SettingCall.afterUpdate : SettingCall → SettingPhase
  | .updateMinMax .. => .clamp
  | _ => .reload

/-- One database statement with its commit or rollback, or one cache operation; `ok` says
whether a database statement succeeds. -/
def Settings.run (db : SettingsDB) (s : Settings) (p : Nat) (ok : Bool) : Settings :=
  match s.phase p with
  | .idle => s
  | .getCached => s.setPhase p (if s.cache.isSome then .idle else .getSelect)
  | .getSelect =>
      match s.row with
      | some row => s.setPhase p (if ok then .getStore row else .idle)
      | none => s.setPhase p .idle
  | .getStore row => { s with cache := some row }.setPhase p .idle
  | .setCached value =>
      s.setPhase p (if s.cache.map SettingRow.settingvalue = some value then .idle
        else .setMerge value 10)
  | .setMerge value retrycount =>
      if ok then { s with row := some (db.mergeSystemSettings s.row value) }.setPhase p .reload
      else s.setPhase p (if retrycount ≤ 1 then .idle else .setMerge value (retrycount - 1))
  | .update call =>
      if ok then { s with row := s.row.map call.change }.setPhase p call.afterUpdate
      else s.setPhase p .idle
  | .clamp =>
      if ok then { s with row := s.row.map db.clamp }.setPhase p .reload else s.setPhase p .idle
  | .reload =>
      match s.row with
      | some row => s.setPhase p (if ok then .reloadStore row else .idle)
      | none => s.setPhase p .idle
  | .reloadStore row => { s with cache := some row }.setPhase p .idle
  | .deleteCached => { s with cache := none }.setPhase p .deleteRow
  | .deleteRow => (if ok then { s with row := none } else s).setPhase p .idle

inductive SettingEvent where
  | call (p : Nat) (call : SettingCall) (softUpdates : Bool)
  | run (p : Nat) (ok : Bool)
  /-- The cache server drops the entry. -/
  | evict
  deriving DecidableEq, Repr

def Settings.step (db : SettingsDB) (s : Settings) : SettingEvent → Settings
  | .call p call softUpdates =>
      if s.phase p = .idle then s.setPhase p (call.firstPhase softUpdates) else s
  | .run p ok => s.run db p ok
  | .evict => { s with cache := none }

/-! ### Consistency -/

/-- The cached entry, if there is one, is the row. -/
def Settings.Consistent (s : Settings) : Prop := s.cache ≠ none → s.cache = s.row

/-- No call is in progress. -/
def Settings.Quiet (s : Settings) : Prop := ∀ p, s.phase p = .idle

/-- The process has still to store the row in the cache, and will store it as it is now. -/
def Settings.Refreshes (s : Settings) (p : Nat) : Prop :=
  match s.phase p with
  | .clamp | .reload => s.row ≠ none
  | .getStore row | .reloadStore row => s.row = some row
  | _ => False

/-- A process that stores something, or that leaves a write without storing it, leaves the
cache with the row in it or another process that is going to put it there; and a row is
deleted only when nobody has filled the cache again. -/
def SettingEvent.Refreshing (s : Settings) : SettingEvent → Prop
  | .run p ok =>
      match s.phase p with
      | .getStore row | .reloadStore row =>
          s.row = some row ∨ s.row ≠ none ∧ ∃ other, other ≠ p ∧ s.Refreshes other
      | .clamp | .reload => ok = true ∨ s.Consistent ∨ ∃ other, other ≠ p ∧ s.Refreshes other
      | .deleteRow => ok = true → s.cache = none
      | _ => True
  | _ => True

structure Settings.Inv (s : Settings) : Prop where
  empty : s.row = none → s.cache = none
  fresh : s.Consistent ∨ ∃ p, s.Refreshes p

theorem Settings.Inv.consistent {s : Settings} (hInv : s.Inv) (hQuiet : s.Quiet) : s.Consistent := by
  rcases hInv.fresh with hFresh | ⟨p, hRefreshes⟩
  · exact hFresh
  · rw [Settings.Refreshes, hQuiet p] at hRefreshes
    cases hRefreshes

@[simp] theorem setting_phase_self (s : Settings) (p : Nat) (phase : SettingPhase) :
    (s.setPhase p phase).phase p = phase := Function.update_self ..

/-- Another process goes on as before when the row is the same. -/
theorem refreshes_setPhase {s : Settings} {p other : Nat} (hNe : other ≠ p)
    (hRefreshes : s.Refreshes other) (phase : SettingPhase) :
    (s.setPhase p phase).Refreshes other := by
  have hSame : (s.setPhase p phase).phase other = s.phase other := Function.update_of_ne hNe ..
  rw [Settings.Refreshes, hSame]
  exact hRefreshes

/-- A step that leaves row and cache alone, by a process that was not about to refresh. -/
theorem Settings.Inv.pass {s : Settings} (hInv : s.Inv) {p : Nat} (hNot : ¬ s.Refreshes p)
    (phase : SettingPhase) : (s.setPhase p phase).Inv := by
  refine ⟨hInv.empty, ?_⟩
  rcases hInv.fresh with hFresh | ⟨other, hRefreshes⟩
  · exact .inl hFresh
  · have hNe : other ≠ p := fun hEq => hNot (hEq ▸ hRefreshes)
    exact .inr ⟨other, refreshes_setPhase hNe hRefreshes phase⟩

/-- A write by a process that will store what it has written. -/
theorem Settings.Inv.write {s : Settings} (hInv : s.Inv) {p : Nat} {row : Option SettingRow}
    (hRow : row = none → s.row = none) {phase : SettingPhase}
    (hPhase : phase = .clamp ∨ phase = .reload) :
    (({ s with row } : Settings).setPhase p phase).Inv := by
  have hRefreshes (hSome : row ≠ none) :
      (({ s with row } : Settings).setPhase p phase).Refreshes p := by
    rw [Settings.Refreshes, setting_phase_self]
    rcases hPhase with rfl | rfl <;> exact hSome
  refine ⟨fun hNone => hInv.empty (hRow hNone), ?_⟩
  by_cases hSome : row = none
  · exact .inl fun hCached => absurd (hInv.empty (hRow hSome)) hCached
  · exact .inr ⟨p, hRefreshes hSome⟩

/-- A store by a process whose row is the present one, or which another process corrects. -/
theorem inv_store {s : Settings} {p : Nat} {row : SettingRow}
    (hFresh : s.row = some row ∨ s.row ≠ none ∧ ∃ other, other ≠ p ∧ s.Refreshes other) :
    (({ s with cache := some row } : Settings).setPhase p .idle).Inv := by
  rcases hFresh with hRow | ⟨hSome, other, hNe, hRefreshes⟩
  · refine ⟨fun hNone => ?_, .inl fun _ => hRow.symm⟩
    exact absurd (hRow.symm.trans hNone) (by simp)
  · refine ⟨fun hNone => absurd hNone hSome, .inr ⟨other, ?_⟩⟩
    exact refreshes_setPhase (s := { s with cache := some row }) hNe hRefreshes .idle

/-- A process that leaves its write without storing it. -/
theorem Settings.Inv.giveUp {s : Settings} (hInv : s.Inv) {p : Nat}
    (hFresh : s.Consistent ∨ ∃ other, other ≠ p ∧ s.Refreshes other) :
    (s.setPhase p .idle).Inv := by
  refine ⟨hInv.empty, ?_⟩
  rcases hFresh with hFresh | ⟨other, hNe, hRefreshes⟩
  · exact .inl hFresh
  · exact .inr ⟨other, refreshes_setPhase hNe hRefreshes .idle⟩

/-- A process that has fetched the row as it is. -/
theorem Settings.Inv.fetch {s : Settings} (hInv : s.Inv) {p : Nat} {row : SettingRow}
    (hRow : s.row = some row) {phase : SettingPhase}
    (hPhase : phase = .getStore row ∨ phase = .reloadStore row) : (s.setPhase p phase).Inv := by
  refine ⟨hInv.empty, .inr ⟨p, ?_⟩⟩
  rw [Settings.Refreshes, setting_phase_self]
  rcases hPhase with rfl | rfl <;> exact hRow

theorem Settings.Inv.run {db : SettingsDB} {s : Settings} (hInv : s.Inv) {p : Nat} {ok : Bool}
    (hRefreshing : SettingEvent.Refreshing s (.run p ok)) : (s.run db p ok).Inv := by
  have hNot (hPhase : ∀ row, s.phase p ≠ .getStore row ∧ s.phase p ≠ .reloadStore row)
      (hWrites : s.phase p ≠ .clamp ∧ s.phase p ≠ .reload) : ¬ s.Refreshes p := by
    intro hRefreshes
    rw [Settings.Refreshes] at hRefreshes
    split at hRefreshes
    · next hEq => exact hWrites.1 hEq
    · next hEq => exact hWrites.2 hEq
    · next row hEq => exact (hPhase row).1 hEq
    · next row hEq => exact (hPhase row).2 hEq
    · exact hRefreshes
  rw [SettingEvent.Refreshing] at hRefreshing
  rw [Settings.run]
  cases hPhase : s.phase p with
  | idle => exact hInv
  | getCached => exact hInv.pass (hNot (by simp [hPhase]) (by simp [hPhase])) _
  | getSelect =>
      dsimp only
      split
      · next row hRow =>
          split
          · exact hInv.fetch hRow (.inl rfl)
          · exact hInv.pass (hNot (by simp [hPhase]) (by simp [hPhase])) _
      · exact hInv.pass (hNot (by simp [hPhase]) (by simp [hPhase])) _
  | getStore row =>
      rw [hPhase] at hRefreshing
      exact inv_store hRefreshing
  | setCached value => exact hInv.pass (hNot (by simp [hPhase]) (by simp [hPhase])) _
  | setMerge value retrycount =>
      dsimp only
      split
      · exact hInv.write (by simp) (.inr rfl)
      · exact hInv.pass (hNot (by simp [hPhase]) (by simp [hPhase])) _
  | update call =>
      dsimp only
      split
      · refine hInv.write (fun hNone => Option.map_eq_none_iff.mp hNone) ?_
        cases call <;> simp [SettingCall.afterUpdate]
      · exact hInv.pass (hNot (by simp [hPhase]) (by simp [hPhase])) _
  | clamp =>
      rw [hPhase] at hRefreshing
      dsimp only
      split
      · exact hInv.write (fun hNone => Option.map_eq_none_iff.mp hNone) (.inr rfl)
      · next hFails => exact hInv.giveUp (hRefreshing.resolve_left hFails)
  | reload =>
      rw [hPhase] at hRefreshing
      dsimp only
      split
      · next row hRow =>
          split
          · exact hInv.fetch hRow (.inr rfl)
          · next hFails => exact hInv.giveUp (hRefreshing.resolve_left hFails)
      · next hNone =>
          exact hInv.giveUp (.inl fun hCached => absurd (hInv.empty hNone) hCached)
  | reloadStore row =>
      rw [hPhase] at hRefreshing
      exact inv_store hRefreshing
  | deleteCached => exact ⟨fun _ => rfl, .inl fun hCached => absurd rfl hCached⟩
  | deleteRow =>
      rw [hPhase] at hRefreshing
      dsimp only
      split
      · next hOk =>
          have hCache := hRefreshing hOk
          exact ⟨fun _ => hCache, .inl fun hCached => absurd hCache hCached⟩
      · exact hInv.pass (hNot (by simp [hPhase]) (by simp [hPhase])) _

theorem Settings.Inv.step {db : SettingsDB} {s : Settings} (hInv : s.Inv) (event : SettingEvent)
    (hRefreshing : event.Refreshing s) : (s.step db event).Inv := by
  cases event with
  | call p call softUpdates =>
      rw [Settings.step]
      split
      · next hIdle =>
          refine hInv.pass (fun hRefreshes => ?_) _
          rw [Settings.Refreshes, hIdle] at hRefreshes
          cases hRefreshes
      · exact hInv
  | run p ok => exact hInv.run hRefreshing
  | evict => exact ⟨fun _ => rfl, .inl fun hCached => absurd rfl hCached⟩

/-- In every run whose steps meet the condition, the cached entry is the row whenever no
call is in progress. -/
theorem settings_consistent (db : SettingsDB) (row : Option SettingRow) {s : Settings}
    (hRun : Reached (Settings.step db) (fun s event => event.Refreshing s) { row } s)
    (hQuiet : s.Quiet) : s.Consistent := by
  have hStart : Settings.Inv { row } := ⟨fun _ => rfl, .inl fun hCached => absurd rfl hCached⟩
  have hInv := hRun.invariant hStart fun _ event hInv hRefreshing => hInv.step event hRefreshing
  exact hInv.consistent hQuiet

/-- A database in which a merge sets the value. -/
def plainDB : SettingsDB where
  mergeSystemSettings row value := { row.getD ⟨value, [], [], [], []⟩ with settingvalue := value }
  clamp row := row

/-- One call after the other. -/
def getThenSet : List SettingEvent :=
  [.call 0 (.get false) false, .run 0 true, .run 0 true, .run 0 true,
    .call 1 (.set (octets "new") true) false, .run 1 true, .run 1 true, .run 1 true]

theorem settings_consistent_inTurn :
    (runEvents (Settings.step plainDB) { row := some ⟨octets "old", [], [], [], []⟩ }
      getThenSet).Consistent := by
  refine settings_consistent plainDB _ (Reached.run _ _ .start ?_) ?_
  · exact ⟨trivial, trivial, trivial, .inl rfl, trivial, trivial, .inl rfl, .inl rfl, trivial⟩
  · intro p
    rcases p with _ | _ | p <;> rfl

/-- A reader is held up between its select and its store, and a set comes and goes. -/
theorem settings_stale :
    let s := runEvents (Settings.step plainDB) { row := some ⟨octets "old", [], [], [], []⟩ }
      [.call 0 (.get false) false, .run 0 true, .run 0 true,
        .call 1 (.set (octets "new") true) false, .run 1 true, .run 1 true, .run 1 true, .run 0 true]
    s.Quiet ∧ s.row = some ⟨octets "new", [], [], [], []⟩ ∧
      s.cache = some ⟨octets "old", [], [], [], []⟩ ∧ ¬ s.Consistent := by
  refine ⟨?_, by decide +kernel, by decide +kernel, fun hConsistent => ?_⟩
  · intro p
    rcases p with _ | _ | p <;> rfl
  · have hSame := hConsistent (by decide +kernel)
    revert hSame
    decide +kernel

end PageCamel.Helpers

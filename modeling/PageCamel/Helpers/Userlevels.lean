import PageCamel.Lib.Octets
import Mathlib.Data.List.Nodup
import Mathlib.Data.List.Sort
import Mathlib.Data.List.TakeWhile

/-!
`getPermissionForUser`: the entries of all groups a user is in are read in one query and
combined into the list of permissions of the user.
-/

namespace PageCamel.Helpers
open PageCamel.Lib

/-! ### Tables and configuration -/

/-- The values of `enum_permissions_tristate`. -/
inductive Tristate where
  | none
  | all
  | selective
  deriving DecidableEq, Repr

/-- A row of `permissiongroupentries`. -/
structure PermissionEntry where
  groupname : Octets
  permissionName : Octets
  subpermissions : Tristate
  deriving DecidableEq, Repr

/-- A configured or registered level; `db` is the name of its permission. -/
structure Userlevel where
  db : Octets
  restrict : Option (List Octets) := none
  deriving DecidableEq, Repr

structure PermissionTables where
  permissiongroupentries : List PermissionEntry
  /-- Pairs of a user name and a group name. -/
  usersPermissiongroups : List (Octets × Octets)

def slash : UInt8 := 47

/-- The first field of `split/\//`. -/
def rootname (name : Octets) : Octets := name.takeWhile (· ≠ slash)

/-- `@restricted`. -/
def restrictedLevels (levels : List Userlevel) (username : Octets) : List Octets :=
  levels.filterMap fun level =>
    match level.restrict with
    | none => none
    | some usernames => if username ∈ usernames then none else some level.db

/-! ### The query and the loops over its rows -/

/-- The rows of the join. -/
def PermissionTables.join (tables : PermissionTables) (username : Octets) : List PermissionEntry :=
  tables.permissiongroupentries.flatMap fun pe =>
    (tables.usersPermissiongroups.filter fun up => up = (username, pe.groupname)).map fun _ => pe

/-- The rows in the order of the names; `collate` is the collation of the database. -/
def PermissionTables.select (collate : Octets → Octets → Bool) (tables : PermissionTables)
    (username : Octets) : List PermissionEntry :=
  (tables.join username).insertionSort fun a b => collate a.permissionName b.permissionName

structure ReadPermissions where
  permissions : List Octets := []
  subpermissions : List PermissionEntry := []
  selectives : List Octets := []
  deriving DecidableEq, Repr

/-- One turn of the loop that fetches the rows. -/
def ReadPermissions.fetch (restricted : List Octets) (s : ReadPermissions)
    (line : PermissionEntry) : ReadPermissions :=
  if line.permissionName ∈ restricted then s
  else if slash ∈ line.permissionName then
    { s with subpermissions := s.subpermissions ++ [line] }
  else
    match line.subpermissions with
    | .none => s
    | .selective => { s with selectives := s.selectives ++ [line.permissionName] }
    | .all =>
        if line.permissionName ∈ s.permissions then s
        else { s with permissions := s.permissions ++ [line.permissionName] }

/-- One turn of the loop over `@subpermissions`. The first push does not look for the name. -/
def pushSubpermission (selectives permissions : List Octets) (line : PermissionEntry) :
    List Octets :=
  let permissions :=
    if rootname line.permissionName ∈ permissions then permissions ++ [line.permissionName]
    else permissions
  if line.subpermissions ≠ .all then permissions
  else if rootname line.permissionName ∈ selectives ∧ line.permissionName ∉ permissions then
    permissions ++ [line.permissionName]
  else permissions

/-- One turn of the loop over `@selectives`. -/
def pushSelective (permissions : List Octets) (name : Octets) : List Octets :=
  if name ∈ permissions then permissions else permissions ++ [name]

/-- What the loops make of the rows. -/
def permissionsOfRows (restricted : List Octets) (rows : List PermissionEntry) : List Octets :=
  let read := rows.foldl (ReadPermissions.fetch restricted) {}
  let permissions := read.subpermissions.foldl (pushSubpermission read.selectives) read.permissions
  read.selectives.foldl pushSelective permissions

def getPermissionForUser (collate : Octets → Octets → Bool) (levels : List Userlevel)
    (tables : PermissionTables) (username : Octets) : List Octets :=
  permissionsOfRows (restrictedLevels levels username) (tables.select collate username)

/-! ### What the loops grant -/

/-- The rows have an unrestricted entry with this value. -/
def Lists (restricted : List Octets) (rows : List PermissionEntry) (name : Octets)
    (level : Tristate) : Prop :=
  name ∉ restricted ∧ ∃ line ∈ rows, line.permissionName = name ∧ line.subpermissions = level

/-- A root is granted by `ALL` or `SELECTIVE`; a level below it by any entry when the root
has `ALL`, and by its own `ALL` when the root has `SELECTIVE`. -/
def Grants (restricted : List Octets) (rows : List PermissionEntry) (name : Octets) : Prop :=
  if slash ∈ name then
    Lists restricted rows (rootname name) .all ∧ (∃ level, Lists restricted rows name level) ∨
      Lists restricted rows (rootname name) .selective ∧ Lists restricted rows name .all
  else Lists restricted rows name .all ∨ Lists restricted rows name .selective

theorem slash_not_mem_rootname (name : Octets) : slash ∉ rootname name := by
  intro hMem
  have hNe := List.mem_takeWhile_imp hMem
  simp at hNe

/-- What the first loop has in its lists after the rows, from the lists before them. -/
structure ReadPermissions.After (restricted : List Octets) (s : ReadPermissions)
    (rows : List PermissionEntry) (after : ReadPermissions) : Prop where
  permissions : ∀ name, name ∈ after.permissions ↔
    name ∈ s.permissions ∨ slash ∉ name ∧ Lists restricted rows name .all
  selectives : ∀ name, name ∈ after.selectives ↔
    name ∈ s.selectives ∨ slash ∉ name ∧ Lists restricted rows name .selective
  subpermissions : ∀ line, line ∈ after.subpermissions ↔ line ∈ s.subpermissions ∨
    line ∈ rows ∧ slash ∈ line.permissionName ∧ line.permissionName ∉ restricted
  nodup : s.permissions.Nodup → after.permissions.Nodup

theorem lists_singleton (restricted : List Octets) (line : PermissionEntry) (name : Octets)
    (level : Tristate) : Lists restricted [line] name level ↔
      name ∉ restricted ∧ line.permissionName = name ∧ line.subpermissions = level := by
  simp [Lists]

theorem lists_cons (restricted : List Octets) (line : PermissionEntry)
    (rows : List PermissionEntry) (name : Octets) (level : Tristate) :
    Lists restricted (line :: rows) name level ↔
      Lists restricted [line] name level ∨ Lists restricted rows name level := by
  simp only [Lists, List.exists_mem_cons_iff, List.not_mem_nil, false_and, exists_false, or_false]
  exact and_or_left

/-- What one row adds to each of the lists. -/
theorem fetch_after (restricted : List Octets) (s : ReadPermissions) (line : PermissionEntry) :
    ReadPermissions.After restricted s [line] (s.fetch restricted line) where
  permissions name := by
    rw [lists_singleton, ReadPermissions.fetch]
    split_ifs <;> cases hLevel : line.subpermissions <;> grind
  selectives name := by
    rw [lists_singleton, ReadPermissions.fetch]
    split_ifs <;> cases hLevel : line.subpermissions <;> grind
  subpermissions line' := by
    rw [List.mem_singleton, ReadPermissions.fetch]
    split_ifs <;> cases hLevel : line.subpermissions <;> grind
  nodup hNodup := by
    have hPush (hNew : line.permissionName ∉ s.permissions) :
        (s.permissions ++ [line.permissionName]).Nodup :=
      List.nodup_append.mpr ⟨hNodup, List.nodup_singleton _, by grind⟩
    rw [ReadPermissions.fetch]
    split_ifs <;> cases hLevel : line.subpermissions <;> grind

theorem ReadPermissions.After.cons {restricted : List Octets} {s mid after : ReadPermissions}
    {line : PermissionEntry} {rows : List PermissionEntry}
    (hHead : ReadPermissions.After restricted s [line] mid)
    (hTail : ReadPermissions.After restricted mid rows after) :
    ReadPermissions.After restricted s (line :: rows) after where
  permissions name := by
    rw [hTail.permissions, hHead.permissions, lists_cons restricted line rows, and_or_left, or_assoc]
  selectives name := by
    rw [hTail.selectives, hHead.selectives, lists_cons restricted line rows, and_or_left, or_assoc]
  subpermissions line' := by
    rw [hTail.subpermissions, hHead.subpermissions, List.mem_cons (l := rows), List.mem_singleton,
      or_and_right, or_assoc]
  nodup hNodup := hTail.nodup (hHead.nodup hNodup)

theorem fetchAll_after (restricted : List Octets) (rows : List PermissionEntry) :
    ∀ s, ReadPermissions.After restricted s rows (rows.foldl (ReadPermissions.fetch restricted) s) := by
  induction rows with
  | nil => exact fun s => ⟨by simp [Lists], by simp [Lists], by simp, id⟩
  | cons line rows ih => exact fun s => (fetch_after restricted s line).cons (ih _)

theorem mem_pushSubpermission (selectives permissions : List Octets) (line : PermissionEntry)
    (name : Octets) : name ∈ pushSubpermission selectives permissions line ↔
      name ∈ permissions ∨ line.permissionName = name ∧ (rootname name ∈ permissions ∨
        line.subpermissions = .all ∧ rootname name ∈ selectives) := by
  have hRoot : rootname line.permissionName ≠ line.permissionName ∨
      rootname line.permissionName = line.permissionName := ne_or_eq _ _
  simp only [pushSubpermission]
  split <;> split <;> (try split) <;> grind

theorem count_pushSubpermission (selectives permissions : List Octets) (line : PermissionEntry)
    {name : Octets} (hRoot : line.permissionName = name → rootname name ∉ permissions)
    (hCount : permissions.count name ≤ 1) :
    (pushSubpermission selectives permissions line).count name ≤ 1 := by
  by_cases hName : line.permissionName = name
  · have hZero : name ∉ permissions → permissions.count name = 0 := List.count_eq_zero_of_not_mem
    simp only [pushSubpermission, hName, if_neg (hRoot hName)]
    split
    · exact hCount
    · split
      · next hNew => simp [hZero hNew.2]
      · exact hCount
  · have hOther (xs : List Octets) : (xs ++ [line.permissionName]).count name = xs.count name := by
      simp [hName]
    simp only [pushSubpermission]
    split <;> split <;> (try split) <;> simp only [hOther, hCount]

/-- The second loop. It only adds levels below a root, so the roots it looks for are those it
starts with. -/
theorem mem_pushSubpermissions (selectives : List Octets) {lines : List PermissionEntry}
    (hSlash : ∀ line ∈ lines, slash ∈ line.permissionName) (name : Octets) :
    ∀ permissions, name ∈ lines.foldl (pushSubpermission selectives) permissions ↔
      name ∈ permissions ∨ ∃ line ∈ lines, line.permissionName = name ∧
        (rootname name ∈ permissions ∨
          line.subpermissions = .all ∧ rootname name ∈ selectives) := by
  induction lines with
  | nil => simp
  | cons line lines ih =>
      intro permissions
      have hRoots : rootname name ∈ pushSubpermission selectives permissions line ↔
          rootname name ∈ permissions := by
        have hNe : line.permissionName ≠ rootname name := fun hEq =>
          slash_not_mem_rootname name (hEq ▸ hSlash line List.mem_cons_self)
        rw [mem_pushSubpermission]
        simp only [hNe, false_and, or_false]
      rw [List.foldl_cons, ih (fun line' hMem => hSlash line' (List.mem_cons_of_mem _ hMem)), hRoots,
        mem_pushSubpermission, List.exists_mem_cons_iff, or_assoc]

theorem count_pushSubpermissions (selectives : List Octets) {lines : List PermissionEntry}
    (hSlash : ∀ line ∈ lines, slash ∈ line.permissionName) {name : Octets} :
    ∀ permissions, (slash ∈ name → rootname name ∉ permissions) → permissions.count name ≤ 1 →
      (lines.foldl (pushSubpermission selectives) permissions).count name ≤ 1 := by
  induction lines with
  | nil => exact fun _ _ hCount => hCount
  | cons line lines ih =>
      intro permissions hRoot hCount
      have hNe : line.permissionName ≠ rootname name := fun hEq =>
        slash_not_mem_rootname name (hEq ▸ hSlash line List.mem_cons_self)
      have hHere (hName : line.permissionName = name) : rootname name ∉ permissions :=
        hRoot (hName ▸ hSlash line List.mem_cons_self)
      refine ih (fun line' hMem => hSlash line' (List.mem_cons_of_mem _ hMem)) _ ?_
        (count_pushSubpermission selectives permissions line hHere hCount)
      rw [mem_pushSubpermission]
      simpa only [hNe, false_and, or_false] using hRoot

/-- What grows by one at most with each line of a kind. -/
theorem foldl_le_countP {σ : Type} {f : σ → PermissionEntry → σ} (size : σ → Nat)
    (p : PermissionEntry → Bool) (hStep : ∀ s line, size (f s line) ≤ size s + [line].countP p)
    (lines : List PermissionEntry) :
    ∀ s, size (lines.foldl f s) ≤ size s + lines.countP p := by
  induction lines with
  | nil => exact fun _ => Nat.le_refl _
  | cons line lines ih =>
      intro s
      have hHere := hStep s line
      have hLater := ih (f s line)
      rw [← List.singleton_append, List.countP_append, List.foldl_append]
      exact hLater.trans (by omega)

theorem mem_pushSelectives (selectives : List Octets) (name : Octets) :
    ∀ permissions, name ∈ selectives.foldl pushSelective permissions ↔
      name ∈ permissions ∨ name ∈ selectives := by
  induction selectives with
  | nil => simp
  | cons selective selectives ih =>
      intro permissions
      have hPush : name ∈ pushSelective permissions selective ↔
          name ∈ permissions ∨ name = selective := by
        rw [pushSelective]
        grind
      rw [List.foldl_cons, ih, hPush, List.mem_cons, or_assoc]

theorem count_pushSelectives (selectives : List Octets) (name : Octets) :
    ∀ permissions : List Octets, permissions.count name ≤ 1 →
      (selectives.foldl pushSelective permissions).count name ≤ 1 := by
  induction selectives with
  | nil => exact fun _ hCount => hCount
  | cons selective selectives ih =>
      intro permissions hCount
      refine ih _ ?_
      rw [pushSelective]
      split
      · exact hCount
      · next hNew =>
          by_cases hName : selective = name
          · subst hName
            simp [List.count_eq_zero_of_not_mem hNew]
          · simpa [List.count_cons, hName] using hCount

/-- The loops grant what the rows say. -/
theorem mem_permissionsOfRows (restricted : List Octets) (rows : List PermissionEntry)
    (name : Octets) : name ∈ permissionsOfRows restricted rows ↔ Grants restricted rows name := by
  have hRead := fetchAll_after restricted rows {}
  have hSlash : ∀ line ∈ (rows.foldl (ReadPermissions.fetch restricted) {}).subpermissions,
      slash ∈ line.permissionName := by
    intro line hLine
    have hRow := (hRead.subpermissions line).mp hLine
    simp only [List.not_mem_nil, false_or] at hRow
    exact hRow.2.1
  rw [permissionsOfRows, mem_pushSelectives, mem_pushSubpermissions _ hSlash, hRead.permissions,
    hRead.permissions, hRead.selectives, hRead.selectives, Grants]
  simp only [hRead.subpermissions, List.not_mem_nil, false_or, slash_not_mem_rootname,
    not_false_eq_true, true_and]
  split
  · next hIn =>
      simp only [hIn, not_true_eq_false, false_and, or_false, false_or]
      simp only [Lists]
      grind
  · next hOut =>
      simp only [hOut, not_false_eq_true, true_and]
      simp only [Lists]
      grind

/-- Only a level below a root with `ALL` can come twice, and only if two rows list it. -/
theorem count_permissionsOfRows (restricted : List Octets) (rows : List PermissionEntry)
    {name : Octets} (hOnce : (slash ∈ name → ¬ Lists restricted rows (rootname name) .all) ∨
      rows.countP (·.permissionName = name) ≤ 1) :
    (permissionsOfRows restricted rows).count name ≤ 1 := by
  have hRead := fetchAll_after restricted rows {}
  refine count_pushSelectives _ _ _ ?_
  by_cases hBelow : slash ∈ name → ¬ Lists restricted rows (rootname name) .all
  · refine count_pushSubpermissions _ ?_ _ ?_ ?_
    · intro line hLine
      have hRow := (hRead.subpermissions line).mp hLine
      simp only [List.not_mem_nil, false_or] at hRow
      exact hRow.2.1
    · intro hSlash hMem
      rw [hRead.permissions] at hMem
      simp only [List.not_mem_nil, false_or] at hMem
      exact hBelow hSlash hMem.2
    · exact List.nodup_iff_count_le_one.mp (hRead.nodup List.nodup_nil) name
  · have hSlash : slash ∈ name := (Classical.not_imp.mp hBelow).1
    have hNone : name ∉ (rows.foldl (ReadPermissions.fetch restricted) {}).permissions := by
      rw [hRead.permissions]
      simp [hSlash]
    let named (line : PermissionEntry) : Bool := line.permissionName = name
    have hRows := foldl_le_countP (f := ReadPermissions.fetch restricted)
      (fun s => s.subpermissions.countP named) named (fun s line => by
        rw [ReadPermissions.fetch]
        split_ifs <;> cases line.subpermissions <;> grind) rows {}
    refine (foldl_le_countP (List.count name) named (fun s line => ?_) _ _).trans ?_
    · simp only [pushSubpermission]
      split <;> split <;> (try split) <;> grind
    · rw [List.count_eq_zero_of_not_mem hNone]
      exact (Nat.zero_add _).trans_le (hRows.trans (by simpa using hOnce.resolve_left hBelow))

/-! ### Groups -/

/-- Some level of this name has a `restrict` that leaves the user out. -/
def Restricted (levels : List Userlevel) (username name : Octets) : Prop :=
  ∃ level ∈ levels, level.db = name ∧ ∃ usernames, level.restrict = some usernames ∧
    username ∉ usernames

def PermissionTables.Member (tables : PermissionTables) (username group : Octets) : Prop :=
  (username, group) ∈ tables.usersPermissiongroups

def PermissionTables.Entry (tables : PermissionTables) (group name : Octets) (level : Tristate) :
    Prop := ⟨group, name, level⟩ ∈ tables.permissiongroupentries

/-- The same groups, and the user in only one of them. -/
def PermissionTables.alone (tables : PermissionTables) (username group : Octets) :
    PermissionTables := { tables with usersPermissiongroups := [(username, group)] }

/-- One group gives the root and another one the level below it. -/
def PermissionTables.CrossGranted (tables : PermissionTables) (levels : List Userlevel)
    (username name : Octets) : Prop :=
  slash ∈ name ∧ ¬ Restricted levels username name ∧ ¬ Restricted levels username (rootname name) ∧
    ∃ group other, group ≠ other ∧ tables.Member username group ∧ tables.Member username other ∧
      (tables.Entry group (rootname name) .all ∧ (∃ level, tables.Entry other name level) ∨
        tables.Entry group (rootname name) .selective ∧ tables.Entry other name .all)

theorem mem_restrictedLevels (levels : List Userlevel) (username name : Octets) :
    name ∈ restrictedLevels levels username ↔ Restricted levels username name := by
  simp only [restrictedLevels, Restricted, List.mem_filterMap]
  refine exists_congr fun level => and_congr_right fun _ => ?_
  cases level.restrict with
  | none => simp
  | some usernames =>
      by_cases hIn : username ∈ usernames
      · simp [hIn]
      · simp [hIn]

theorem mem_select (collate : Octets → Octets → Bool) (tables : PermissionTables)
    (username : Octets) (line : PermissionEntry) : line ∈ tables.select collate username ↔
      line ∈ tables.permissiongroupentries ∧ tables.Member username line.groupname := by
  simp only [PermissionTables.select, List.mem_insertionSort, PermissionTables.join, List.mem_flatMap,
    List.mem_map, List.mem_filter, decide_eq_true_eq, PermissionTables.Member]
  grind

/-- A user's rows have what the rows of one of the groups have. -/
theorem lists_select (collate : Octets → Octets → Bool) (tables : PermissionTables)
    (username : Octets) (restricted : List Octets) (name : Octets) (level : Tristate) :
    Lists restricted (tables.select collate username) name level ↔
      name ∉ restricted ∧ ∃ group, tables.Member username group ∧ tables.Entry group name level := by
  simp only [Lists, mem_select, PermissionTables.Entry]
  refine and_congr_right fun _ => ⟨?_, ?_⟩
  · rintro ⟨⟨group, name, level⟩, ⟨hRow, hMember⟩, rfl, rfl⟩
    exact ⟨group, hMember, hRow⟩
  · rintro ⟨group, hMember, hRow⟩
    exact ⟨⟨group, name, level⟩, ⟨hRow, hMember⟩, rfl, rfl⟩

/-- A permission without a slash: one of the groups gives it. -/
theorem grants_root (collate : Octets → Octets → Bool) (levels : List Userlevel)
    (tables : PermissionTables) (username : Octets) {name : Octets} (hSlash : slash ∉ name) :
    name ∈ getPermissionForUser collate levels tables username ↔
      ¬ Restricted levels username name ∧ ∃ group, tables.Member username group ∧
        (tables.Entry group name .all ∨ tables.Entry group name .selective) := by
  rw [getPermissionForUser, mem_permissionsOfRows, Grants, if_neg hSlash]
  simp only [lists_select, mem_restrictedLevels]
  grind

/-- A permission below a root: some group gives the root, and some group has the entry that the
root asks for. -/
theorem grants_below (collate : Octets → Octets → Bool) (levels : List Userlevel)
    (tables : PermissionTables) (username : Octets) {name : Octets} (hSlash : slash ∈ name) :
    name ∈ getPermissionForUser collate levels tables username ↔
      ¬ Restricted levels username name ∧ ¬ Restricted levels username (rootname name) ∧
      ∃ group other, tables.Member username group ∧ tables.Member username other ∧
        (tables.Entry group (rootname name) .all ∧ (∃ level, tables.Entry other name level) ∨
          tables.Entry group (rootname name) .selective ∧ tables.Entry other name .all) := by
  rw [getPermissionForUser, mem_permissionsOfRows, Grants, if_pos hSlash]
  simp only [lists_select, mem_restrictedLevels]
  grind

theorem alone_member {tables : PermissionTables} {username group other : Octets} :
    (tables.alone username group).Member username other ↔ other = group := by
  simp [PermissionTables.alone, PermissionTables.Member]

/-- Merging the groups grants what one of them grants alone, and the levels whose root comes
from one group and whose own entry comes from another. -/
theorem grants_groups (collate : Octets → Octets → Bool) (levels : List Userlevel)
    (tables : PermissionTables) (username name : Octets) :
    name ∈ getPermissionForUser collate levels tables username ↔
      (∃ group, tables.Member username group ∧
        name ∈ getPermissionForUser collate levels (tables.alone username group) username) ∨
      tables.CrossGranted levels username name := by
  have hEntry (group other name : Octets) (level : Tristate) :
      (tables.alone username group).Entry other name level ↔ tables.Entry other name level := Iff.rfl
  by_cases hSlash : slash ∈ name
  · simp only [grants_below collate levels _ username hSlash, alone_member, hEntry,
      PermissionTables.CrossGranted]
    constructor
    · rintro ⟨hName, hRoot, group, other, hGroup, hOther, hEntries⟩
      by_cases hSame : group = other
      · subst hSame
        exact .inl ⟨group, hGroup, hName, hRoot, group, group, rfl, rfl, hEntries⟩
      · exact .inr ⟨hSlash, hName, hRoot, group, other, hSame, hGroup, hOther, hEntries⟩
    · rintro (⟨group, hGroup, hName, hRoot, _, _, rfl, rfl, hEntries⟩ |
        ⟨_, hName, hRoot, group, other, _, hGroup, hOther, hEntries⟩)
      · exact ⟨hName, hRoot, _, _, hGroup, hGroup, hEntries⟩
      · exact ⟨hName, hRoot, group, other, hGroup, hOther, hEntries⟩
  · have hNot : ¬ tables.CrossGranted levels username name := fun hCross => hSlash hCross.1
    simp only [grants_root collate levels _ username hSlash, alone_member, hEntry, hNot, or_false,
      exists_eq_left]
    constructor
    · rintro ⟨hName, group, hGroup, hEntries⟩
      exact ⟨group, hGroup, hName, hEntries⟩
    · rintro ⟨group, hGroup, hName, hEntries⟩
      exact ⟨hName, group, hGroup, hEntries⟩

/-- What is granted to a user in any number of groups: the union of what each group grants,
and what two groups grant together; a permission that is not below a root with `ALL`, or that
one group lists, comes once; and neither it nor its root is restricted. -/
theorem permissions_of_groups (collate : Octets → Octets → Bool) (levels : List Userlevel)
    (tables : PermissionTables) (username name : Octets) :
    (name ∈ getPermissionForUser collate levels tables username ↔
      (∃ group, tables.Member username group ∧
        name ∈ getPermissionForUser collate levels (tables.alone username group) username) ∨
      tables.CrossGranted levels username name) ∧
    ((slash ∈ name → ∀ group, tables.Member username group →
        ¬ tables.Entry group (rootname name) .all) ∨
        (tables.join username).countP (·.permissionName = name) ≤ 1 →
      (getPermissionForUser collate levels tables username).count name ≤ 1) ∧
    (name ∈ getPermissionForUser collate levels tables username →
      ¬ Restricted levels username name ∧ ¬ Restricted levels username (rootname name)) := by
  refine ⟨grants_groups collate levels tables username name, fun hOnce => ?_, fun hMem => ?_⟩
  · refine count_permissionsOfRows _ _ (hOnce.imp (fun hRoot hSlash hLists => ?_) fun hOne => ?_)
    · obtain ⟨_, group, hMember, hEntry⟩ := (lists_select ..).mp hLists
      exact hRoot hSlash group hMember hEntry
    · rwa [PermissionTables.select, (List.perm_insertionSort _ _).countP_eq]
  · by_cases hSlash : slash ∈ name
    · have hGranted := (grants_below collate levels tables username hSlash).mp hMem
      exact ⟨hGranted.1, hGranted.2.1⟩
    · have hGranted := (grants_root collate levels tables username hSlash).mp hMem
      have hOwn : rootname name = name := List.takeWhile_eq_self_iff.mpr fun c hC => by
        simpa using fun hEq : c = slash => hSlash (hEq ▸ hC)
      exact ⟨hGranted.1, hOwn.symm ▸ hGranted.1⟩

/-- One group has the root as `SELECTIVE`, the other one the level below it. -/
def twoGroups : PermissionTables where
  permissiongroupentries :=
    [⟨octets "a", octets "r", .selective⟩, ⟨octets "a", octets "r/x", .none⟩,
      ⟨octets "b", octets "r", .none⟩, ⟨octets "b", octets "r/x", .all⟩]
  usersPermissiongroups := [(octets "u", octets "a"), (octets "u", octets "b")]

/-- Both groups have everything. -/
def sameGroups : PermissionTables where
  permissiongroupentries :=
    [⟨octets "a", octets "r", .all⟩, ⟨octets "a", octets "r/x", .all⟩,
      ⟨octets "b", octets "r", .all⟩, ⟨octets "b", octets "r/x", .all⟩]
  usersPermissiongroups := [(octets "u", octets "a"), (octets "u", octets "b")]

/-- A level that neither group grants, and one that is listed twice. -/
theorem permissions_not_union :
    (octets "r/x" ∈ getPermissionForUser (fun a b => decide (a ≤ b)) [] twoGroups (octets "u") ∧
      ∀ group, octets "r/x" ∉ getPermissionForUser (fun a b => decide (a ≤ b)) []
        (twoGroups.alone (octets "u") group) (octets "u")) ∧
    getPermissionForUser (fun a b => decide (a ≤ b)) [] sameGroups (octets "u") =
      [octets "r", octets "r/x", octets "r/x"] := by
  refine ⟨⟨by decide +kernel, fun group hMem => ?_⟩, by decide +kernel⟩
  rw [grants_below _ _ _ _ (by decide)] at hMem
  obtain ⟨_, _, other, another, hOther, hAnother, hEntries⟩ := hMem
  rw [alone_member] at hOther hAnother
  subst hOther hAnother
  have hRootname : rootname (octets "r/x") = octets "r" := by decide
  rw [hRootname] at hEntries
  simp only [PermissionTables.Entry, PermissionTables.alone, twoGroups, List.mem_cons,
    PermissionEntry.mk.injEq, List.not_mem_nil, reduceCtorEq, and_false, or_false, and_true,
    false_or] at hEntries
  rcases hEntries with ⟨⟨_, hName⟩, _⟩ | ⟨hGroup, hOther⟩
  · exact absurd hName (by decide)
  · exact absurd (hGroup.symm.trans hOther) (by decide)

end PageCamel.Helpers

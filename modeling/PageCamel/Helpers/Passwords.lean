import PageCamel.Lib.Octets
import Mathlib.Data.List.Nodup

/-!
The `users` table and the two checks of credentials that read it. Both look at the lock of
the account.
-/

namespace PageCamel.Helpers
open PageCamel.Lib

/-! ### The table of users -/

/-- The columns that a login copies into the record of the session. -/
structure UserLine where
  username : Octets
  emailAddr : Octets
  firstName : Octets
  lastName : Octets
  nameInitials : Octets
  organisation : Octets
  userId : Octets
  deriving DecidableEq, Repr

structure UserRow extends UserLine where
  accountLocked : Bool
  passwordPrefix : Octets
  passwordPostfix : Octets
  passwordBcryptHash : Octets
  passwordBcryptSalt : Octets
  passwordBcryptCost : Nat
  forcePasswordChange : Bool
  appkey : Octets
  hardwareFob : Octets
  applogin_usercode : Octets
  deriving DecidableEq, Repr

/-- The table `users`. Other tables refer to its rows by the name, which is therefore unique. -/
structure Users where
  rows : List UserRow
  usernameUnique : (rows.map fun row => row.username).Nodup

/-- `account_locked` is set for this name. -/
def Users.Locked (users : Users) (username : Octets) : Prop :=
  ∃ row ∈ users.rows, row.username = username ∧ row.accountLocked = true

instance (users : Users) (username : Octets) : Decidable (users.Locked username) :=
  inferInstanceAs (Decidable (∃ row ∈ users.rows, row.username = username ∧ row.accountLocked = true))

theorem Users.eq_of_username (users : Users) {row row' : UserRow} (hRow : row ∈ users.rows)
    (hRow' : row' ∈ users.rows) (hName : row.username = row'.username) : row = row' :=
  List.inj_on_of_nodup_map users.usernameUnique hRow hRow' hName

/-- One row without the lock is enough, since there is no other row of that name. -/
theorem Users.not_locked_of_mem (users : Users) {row : UserRow} (hRow : row ∈ users.rows)
    (hUnlocked : row.accountLocked = false) : ¬ users.Locked row.username := by
  rintro ⟨row', hRow', hName, hLocked⟩
  have hSame := users.eq_of_username hRow' hRow hName
  rw [hSame, hUnlocked] at hLocked
  exact Bool.false_ne_true hLocked

/-! ### `verify_password` and `verify_appkey` -/

/-- The functions of other packages that the checks call. -/
structure Digests where
  /-- `Digest::Bcrypt` in base 64, from the cost, the salt and the text. -/
  bcrypt : Nat → Octets → Octets → Octets
  decodeBase64 : Octets → Octets
  sha256Hex : Octets → Octets

/-- The row that the `SELECT` of `verify_password` finds. -/
def Users.selectPassword (users : Users) (username : Octets) : Option UserRow :=
  users.rows.find? fun row => row.username = username ∧ row.passwordPrefix ≠ [] ∧
    row.passwordPostfix ≠ [] ∧ row.passwordBcryptHash ≠ [] ∧ row.passwordBcryptSalt ≠ []

/-- An unknown user costs as much time as a known one; the digest of the random salts is then
thrown away. -/
def verifyPassword (digests : Digests) (users : Users) (username password : Octets) : Bool :=
  match users.selectPassword username with
  | none => false
  | some row =>
      let pwsalted := digests.bcrypt row.passwordBcryptCost
        (digests.decodeBase64 row.passwordBcryptSalt)
        (row.passwordPrefix ++ password ++ row.passwordPostfix)
      !(row.accountLocked || pwsalted ≠ row.passwordBcryptHash)

def Users.selectAppkey (users : Users) (username appkey : Octets) : Option UserRow :=
  users.rows.find? fun row => row.username = username ∧ row.appkey = appkey

def verifyAppkey (users : Users) (username appkey : Octets) : Bool :=
  match users.selectAppkey username appkey with
  | none => false
  | some row => !row.accountLocked

theorem verifyPassword_not_locked (digests : Digests) (users : Users)
    (username password : Octets) (hOk : verifyPassword digests users username password = true) :
    ¬ users.Locked username := by
  unfold verifyPassword at hOk
  cases hFound : users.selectPassword username with
  | none => simp [hFound] at hOk
  | some row =>
    have hUnlocked : row.accountLocked = false := by
      simp only [hFound, Bool.not_or, Bool.and_eq_true, Bool.not_eq_true'] at hOk
      exact hOk.1
    have hName : row.username = username := by
      have hSelected := List.find?_some hFound
      simp only [decide_eq_true_eq] at hSelected
      exact hSelected.1
    rw [← hName]
    exact users.not_locked_of_mem (List.mem_of_find?_eq_some hFound) hUnlocked

theorem verifyAppkey_not_locked (users : Users) (username appkey : Octets)
    (hOk : verifyAppkey users username appkey = true) : ¬ users.Locked username := by
  unfold verifyAppkey at hOk
  cases hFound : users.selectAppkey username appkey with
  | none => simp [hFound] at hOk
  | some row =>
    have hUnlocked : row.accountLocked = false := by simpa [hFound] using hOk
    have hName : row.username = username := by
      have hSelected := List.find?_some hFound
      simp only [decide_eq_true_eq] at hSelected
      exact hSelected.1
    rw [← hName]
    exact users.not_locked_of_mem (List.mem_of_find?_eq_some hFound) hUnlocked

end PageCamel.Helpers

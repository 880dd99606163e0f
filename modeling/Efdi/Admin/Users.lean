import Efdi.Base.PyDict
import Efdi.Base.PyStr

/-!
# The accounts of the panel

A row of `admin_users`, what a session writes of a row that it changed, and the
table with its unique columns.

A session writes the columns whose values differ from those it loaded
(`UserUpdate.between`), so a transaction that read a row early overwrites the
columns that it changed and no others (`UserUpdate.apply`).
-/

namespace Efdi.Admin

/-- `VALID_ROLES`. -/
inductive Role where
  | superadmin
  | admin
  | readonly
deriving DecidableEq, Repr

/-- `role in VALID_ROLES`. -/
def Role.ofString? : String → Option Role
  | "superadmin" => some .superadmin
  | "admin" => some .admin
  | "readonly" => some .readonly
  | _ => none

/-- `auth_provider`: the account has a password or belongs to an OIDC subject. -/
inductive AuthProvider where
  /-- `"local"`. -/
  | password
  /-- `"oidc"`. -/
  | oidc
deriving DecidableEq, Repr

/-- A row of `admin_users`, without its id.  Times are microseconds. -/
structure AdminUser where
  username : String
  passwordHash : String
  role : Role
  createdBy : Option String
  isActive : Bool
  failedLogins : Nat
  lockedUntil : Option Nat
  authProvider : AuthProvider
  oidcSubject : Option String
deriving DecidableEq

/-- `pwd_ctx`.  A hash is made with a salt. -/
structure PwdCtx where
  hash : String → Nat → String
  verify : String → String → Bool

/-! ## What a session writes -/

/-- The columns of an `UPDATE` of a row, `none` for a column that is left out. -/
structure UserUpdate where
  username : Option String
  passwordHash : Option String
  role : Option Role
  isActive : Option Bool
  failedLogins : Option Nat
  lockedUntil : Option (Option Nat)
deriving DecidableEq

/-- The new value of a column that was changed. -/
def changed {α : Type} [DecidableEq α] (loaded new : α) : Option α :=
  if new = loaded then none else some new

/-- What is written of a loaded row that was changed in memory. -/
def UserUpdate.between (loaded new : AdminUser) : UserUpdate where
  username := changed loaded.username new.username
  passwordHash := changed loaded.passwordHash new.passwordHash
  role := changed loaded.role new.role
  isActive := changed loaded.isActive new.isActive
  failedLogins := changed loaded.failedLogins new.failedLogins
  lockedUntil := changed loaded.lockedUntil new.lockedUntil

/-- Nothing is written. -/
def UserUpdate.nothing : UserUpdate := ⟨none, none, none, none, none, none⟩

/-- The `UPDATE` of the row as it is now. -/
def UserUpdate.apply (update : UserUpdate) (user : AdminUser) : AdminUser :=
  { user with
    username := update.username.getD user.username
    passwordHash := update.passwordHash.getD user.passwordHash
    role := update.role.getD user.role
    isActive := update.isActive.getD user.isActive
    failedLogins := update.failedLogins.getD user.failedLogins
    lockedUntil := update.lockedUntil.getD user.lockedUntil }

section

variable {α : Type} [DecidableEq α] {loaded new : α}

@[simp] theorem changed_self : changed loaded loaded = none := by simp [changed]

theorem changed_of_ne (h : new ≠ loaded) : changed loaded new = some new := by
  simp [changed, h]

end

section

variable (update : UserUpdate) (user : AdminUser)

@[simp] theorem apply_authProvider : (update.apply user).authProvider = user.authProvider := rfl

@[simp] theorem apply_nothing : UserUpdate.nothing.apply user = user := rfl

end

/-! ## Login -/

/-- `LOCKOUT_ATTEMPTS`. -/
def lockoutAttempts : Nat := 5

/-- `timedelta(minutes=LOCKOUT_MINUTES)`. -/
def lockoutTime : Nat := 15 * 60 * 1000000

/-- `user.locked_until and user.locked_until > now`. -/
def AdminUser.lockedAt (user : AdminUser) (now : Nat) : Bool :=
  match user.lockedUntil with
  | none => false
  | some lockedUntil => now < lockedUntil

/-- The row after a wrong password. -/
def AdminUser.failed (user : AdminUser) (now : Nat) : AdminUser :=
  if lockoutAttempts ≤ user.failedLogins + 1 then
    { user with failedLogins := 0, lockedUntil := some (now + lockoutTime) }
  else { user with failedLogins := user.failedLogins + 1 }

/-- The row after the right password. -/
def AdminUser.passed (user : AdminUser) : AdminUser :=
  { user with failedLogins := 0, lockedUntil := none }

/-- What `login` makes of the row that it read. -/
inductive LoginCheck where
  | locked
  | invalid
  | passed
deriving DecidableEq

/-- The checks of `login`. -/
def loginCheck (pwd : PwdCtx) (now : Nat) (password : String) (user : AdminUser) : LoginCheck :=
  if user.lockedAt now then .locked
  else if pwd.verify password user.passwordHash then .passed
  else .invalid

section

variable {pwd : PwdCtx} {now : Nat} {password : String} {user : AdminUser}

theorem loginCheck_eq_passed : loginCheck pwd now password user = .passed ↔
    user.lockedAt now = false ∧ pwd.verify password user.passwordHash = true := by
  rw [loginCheck]
  split
  next h => simp [h]
  next h =>
    split
    next hpassword => simp [h, hpassword]
    next hpassword => simp [hpassword]

theorem loginCheck_eq_invalid : loginCheck pwd now password user = .invalid ↔
    user.lockedAt now = false ∧ pwd.verify password user.passwordHash = false := by
  rw [loginCheck]
  split
  next h => simp [h]
  next h =>
    split
    next hpassword => simp [hpassword]
    next hpassword => simp [h, hpassword]

end

end Efdi.Admin

import Efdi.Admin.Users
import Efdi.Base.Interleaving
import Efdi.Base.PyJson

/-!
# Requests that change accounts

The endpoints of `admin_users.py`, the password login and the callback of the
identity provider, as threads over the table of the accounts.  Each `SELECT`
reads the committed table, and a change is written when its transaction commits;
between two such steps of a request any others may run.

What a request may find out is in the table it reads; what it draws or is told
from outside (the time, ids, salts, secrets, whether other tables refer to an
account) comes with the step.
-/

namespace Efdi.Admin

open Interleaving

/-! ## The table -/

/-- A transaction is made up of one write to the table. -/
inductive Write where
  | insert (id : String) (user : AdminUser)
  | update (id : String) (columns : UserUpdate)
  | delete (id : String)

/-- How a commit fails. -/
inductive CommitError where
  | integrity
  | stale
deriving DecidableEq

/-- What was done on behalf of whom. -/
inductive Entry where
  /-- `login` returned a token for the account. -/
  | token (id : String) (provider : AuthProvider)
  /-- `_provision_user` returned the account for a subject. -/
  | provisioned (subject id : String) (user : AdminUser)
  /-- The callback made a session. -/
  | session (subject id : String)
deriving DecidableEq

/-- The accounts by id, the ids that were given out (no `uuid4` is drawn twice), and the log. -/
structure Database where
  users : PyDict String AdminUser
  issued : List String
  log : List Entry

/-- Another row has the user name or the subject. -/
def Database.conflicts (db : Database) (id : String) (user : AdminUser) : Bool :=
  db.users.entries.any fun entry =>
    entry.1 ≠ id ∧ (entry.2.username = user.username ∨
      (user.oidcSubject ≠ none ∧ entry.2.oidcSubject = user.oidcSubject))

/-- `commit`.  `owned` says that rows of other tables refer to the account. -/
def Database.commit (db : Database) (owned : Bool) : Write → Except CommitError Database
  | .insert id user =>
    if db.issued.contains id || db.users.contains id || db.conflicts id user then
      .error .integrity
    else .ok { db with users := db.users.set id user, issued := id :: db.issued }
  | .update id columns =>
    if columns = .nothing then .ok db
    else
    match db.users.get? id with
    | none => .error .stale
    | some user =>
      if db.conflicts id (columns.apply user) then .error .integrity
      else .ok { db with users := db.users.set id (columns.apply user) }
  | .delete id =>
    if owned then .error .integrity else .ok { db with users := db.users.pop id }

/-- The id and the row of the first account that passes a test. -/
def Database.find? (db : Database) (p : AdminUser → Bool) : Option (String × AdminUser) :=
  db.users.entries.find? fun entry => p entry.2

/-! ## The requests -/

inductive Request where
  | createUser (actor username password role : String)
  | patchUser (actor target : String) (role password : Option String) (isActive : Option Bool)
  | deleteUser (actor target : String)
  | changePassword (actor current new : String)
  | changeUsername (actor current new : String)
  | login (username password : String)
  /-- The claims of the token and of the user info. -/
  | callback (claims : PyJson)

/-- What comes from outside with a step. -/
structure Input where
  now : Nat
  id : String
  salt : Nat
  secret : String
  owned : Bool

/-- The settings of the panel, and the libraries that it calls. -/
structure Panel where
  pwd : PwdCtx
  /-- `_ROLE_MAP`. -/
  roleMap : PyDict String Role
  /-- `OIDC_DEFAULT_ROLE`, when it is valid. -/
  defaultRole : Role
  /-- `OIDC_GROUPS_CLAIM`. -/
  groupsClaim : String
  /-- `hashlib.sha256(...).hexdigest()`. -/
  digest : String → String
  /-- `str` of a value that is not a string. -/
  str : PyJson → String

/-- The answer to a request. -/
inductive Answer where
  | ok
  | token
  | session
  | refused (status : Nat)
deriving DecidableEq

/-- Why a transaction is made. -/
inductive Purpose where
  /-- A request of a signed-in actor. -/
  | change (actor : String)
  | wrongPassword
  | rightPassword (user : AdminUser)
  | provisioning (subject : String)

/-- Whom a refresh token is made for. -/
inductive Grant where
  | login (user : AdminUser)
  | callback (subject : String)

/-- How far a request is. -/
inductive Thread where
  | arrived (request : Request)
  /-- `get_current_user` returned the actor. -/
  | authorized (actor : String) (loaded : AdminUser) (request : Request)
  /-- The changes are made in memory; the next step commits. -/
  | committing (write : Write) (purpose : Purpose)
  /-- The subject has no account, and the user name is looked up. -/
  | naming (subject username : String) (role : Role)
  /-- The commit failed, and the subject is looked up again. -/
  | refetching (subject : String)
  /-- The row is read again before the account is returned. -/
  | refreshing (subject id : String)
  /-- The refresh token is inserted. -/
  | granting (id : String) (grant : Grant)
  | answered (answer : Answer)

/-! ### Checks -/

/-- `[a-zA-Z0-9_.-]`. -/
def usernameChar (c : Char) : Bool := c.isAlphanum || c == '_' || c == '.' || c == '-'

/-- `_check_username`. -/
def checkUsername (username : String) : Bool := PyStr.classMatch usernameChar 1 64 username

/-- `_check_password`. -/
def checkPassword (password : String) : Bool := 12 ≤ PyStr.len password

/-- `value or None`, for a string. -/
def nonEmpty (value : Option String) : Option String := value.filter fun s => s ≠ ""

/-- `re.sub` of the characters that are not `usernameChar`: each run of them becomes a dash. -/
def dashes : Bool → List Char → List Char
  | _, [] => []
  | inRun, c :: cs =>
    if usernameChar c then c :: dashes false cs
    else if inRun then dashes true cs
    else '-' :: dashes true cs

/-- `str(value)`. -/
def Panel.text (panel : Panel) (value : PyJson) : String :=
  match value with
  | .str s => s
  | value => panel.str value

/-- `claims.get(first) or claims.get(second) or default`, as text. -/
def Panel.rawUsername (panel : Panel) (claims : PyJson) : String :=
  let preferred := claims.getD "preferred_username" .null
  let email := claims.getD "email" .null
  panel.text (if preferred.truthy then preferred else if email.truthy then email
    else .str "oidc-user")

/-- The user name of an account that is provisioned, before its suffix. -/
def cleanUsername (raw : String) : String :=
  let stripped := PyStr.stripList (fun c => c == '.' || c == '-') (dashes false raw.toList)
  PyStr.take 64 (if stripped.isEmpty then "oidc-user" else String.ofList stripped)

/-- `_ROLE_PRIORITY`. -/
def Role.priority : Role → Nat
  | .superadmin => 2
  | .admin => 1
  | .readonly => 0

/-- `max(roles, key=...)`: the first of the highest. -/
def highestRole : List Role → Option Role
  | [] => none
  | role :: roles =>
    match highestRole roles with
    | none => some role
    | some other => if role.priority < other.priority then some other else some role

/-- `_role_for_groups`, of the groups in the claims. -/
def Panel.roleOf (panel : Panel) (claims : PyJson) : Role :=
  let value := claims.getD panel.groupsClaim .null
  let groups := if value.truthy then value.list?.getD [value] else []
  (highestRole (groups.filterMap fun group => panel.roleMap.get? (panel.text group))).getD
    panel.defaultRole

/-- The subject of the claims. -/
def subjectOf (claims : PyJson) : Option String :=
  ((claims.getD "sub" .null).str?).filter fun subject => subject ≠ "" ∧ PyStr.len subject ≤ 255

/-- `f"{username[:48]}-oidc-{suffix}"`. -/
def Panel.suffixed (panel : Panel) (subject username : String) : String :=
  PyStr.take 48 username ++ "-oidc-" ++ PyStr.take 10 (panel.digest subject)

/-! ### Steps -/

section

variable (panel : Panel) (input : Input) (db : Database)

/-- The row of an actor whose access token names the id. -/
def Database.active? (id : String) : Option AdminUser :=
  (db.users.get? id).filter fun user => user.isActive

variable (actor : String)

/-- `get_current_user`, and `require_role("superadmin")` where it is asked for. -/
def authorize (superadmin : Bool) (request : Request) : Thread :=
  match db.active? actor with
  | none => .answered (.refused 401)
  | some user =>
    if superadmin && user.role != .superadmin then .answered (.refused 403)
    else .authorized actor user request

/-- `create_user`. -/
def createUser (loaded : AdminUser) (username password role : String) : Thread :=
  match Role.ofString? role with
  | none => .answered (.refused 400)
  | some role =>
    if !checkUsername username then .answered (.refused 400)
    else if (db.find? fun user => user.username = username).isSome then .answered (.refused 409)
    else if !checkPassword password then .answered (.refused 400)
    else
      .committing (.insert input.id
        { username
          passwordHash := panel.pwd.hash password input.salt
          role
          createdBy := some loaded.username
          isActive := true
          failedLogins := 0
          lockedUntil := none
          authProvider := .password
          oidcSubject := none }) (.change actor)

/-- `patch_user`.  The session has one object for a row, so an actor who is the target sees the row
as `get_current_user` loaded it. -/
def patchUser (loaded : AdminUser) (target : String) (role password : Option String)
    (isActive : Option Bool) : Thread :=
  match db.users.get? target with
  | none => .answered (.refused 404)
  | some row =>
    let user := if target = actor then loaded else row
    match (nonEmpty role).map Role.ofString? with
    | some none => .answered (.refused 400)
    | some (some role) =>
      if role ≠ user.role ∧ target = actor then .answered (.refused 400)
      else rest user { user with role }
    | none => rest user user
where
  /-- The password and the activity, after the role. -/
  rest (user new : AdminUser) : Thread :=
    let activity := fun new : AdminUser => { new with isActive := isActive.getD new.isActive }
    match nonEmpty password with
    | none => .committing (.update target (UserUpdate.between user (activity new))) (.change actor)
    | some password =>
      if !checkPassword password then .answered (.refused 400)
      else
        .committing (.update target (UserUpdate.between user
          (activity { new with passwordHash := panel.pwd.hash password input.salt })))
          (.change actor)

/-- `delete_user`. -/
def deleteUser (actor target : String) : Thread :=
  match db.users.get? target with
  | none => .answered (.refused 404)
  | some _ =>
    if target = actor then .answered (.refused 400)
    else .committing (.delete target) (.change actor)

/-- `change_own_password`. -/
def changePassword (loaded : AdminUser) (current new : String) : Thread :=
  if !panel.pwd.verify current loaded.passwordHash then .answered (.refused 400)
  else if !checkPassword new then .answered (.refused 400)
  else
    .committing (.update actor (UserUpdate.between loaded
      { loaded with passwordHash := panel.pwd.hash new input.salt })) (.change actor)

/-- `change_own_username`. -/
def changeUsername (loaded : AdminUser) (current new : String) : Thread :=
  if !panel.pwd.verify current loaded.passwordHash then .answered (.refused 400)
  else if !checkUsername new then .answered (.refused 400)
  else .committing (.update actor (UserUpdate.between loaded { loaded with username := new }))
    (.change actor)

/-- `login`, up to its first commit. -/
def login (username password : String) : Thread :=
  match db.find? fun user => user.username = username ∧ user.isActive with
  | none => .answered (.refused 401)
  | some (id, user) =>
    match loginCheck panel.pwd input.now password user with
    | .locked => .answered (.refused 429)
    | .invalid =>
      .committing (.update id (UserUpdate.between user (user.failed input.now)))
        .wrongPassword
    | .passed =>
      .committing (.update id (UserUpdate.between user user.passed)) (.rightPassword user)

/-- `_provision_user`, up to its first commit or to the lookup of the user name. -/
def provision (claims : PyJson) : Thread :=
  match subjectOf claims with
  | none => .answered (.refused 400)
  | some subject =>
    match db.find? fun user => user.oidcSubject = some subject with
    | none =>
      .naming subject (cleanUsername (panel.rawUsername claims)) (panel.roleOf claims)
    | some (id, user) =>
      if !user.isActive then .answered (.refused 403)
      else
        .committing (.update id (UserUpdate.between user
          { user with role := panel.roleOf claims })) (.provisioning subject)

/-- The first step of a request. -/
def arrive (request : Request) : Thread :=
  match request with
  | .createUser actor _ _ _ => authorize db actor true request
  | .patchUser actor _ _ _ _ => authorize db actor true request
  | .deleteUser actor _ => authorize db actor true request
  | .changePassword actor _ _ => authorize db actor false request
  | .changeUsername actor _ _ => authorize db actor false request
  | .login username password => login panel input db username password
  | .callback claims => provision panel db claims

/-- The step of a request after its actor was read. -/
def act (loaded : AdminUser) (request : Request) : Thread :=
  match request with
  | .createUser _ username password role =>
    createUser panel input db actor loaded username password role
  | .patchUser _ target role password isActive =>
    patchUser panel input db actor loaded target role password isActive
  | .deleteUser _ target => deleteUser db actor target
  | .changePassword _ current new => changePassword panel input actor loaded current new
  | .changeUsername _ current new => changeUsername panel actor loaded current new
  | .login _ _ => .answered (.refused 401)
  | .callback _ => .answered (.refused 401)

/-- The row of a new account of a subject. -/
def newAccount (subject username : String) (role : Role) : AdminUser where
  username :=
    if (db.find? fun user => user.username = username).isSome then
      panel.suffixed subject username
    else username
  passwordHash := panel.pwd.hash input.secret input.salt
  role
  createdBy := some "oidc"
  isActive := true
  failedLogins := 0
  lockedUntil := none
  authProvider := .oidc
  oidcSubject := some subject

/-- The account that a write is about. -/
def Write.id : Write → String
  | .insert id _ => id
  | .update id _ => id
  | .delete id => id

/-- Where a request is after its commit. -/
def committed (write : Write) : Purpose → Thread
  | .change _ => .answered .ok
  | .wrongPassword => .answered (.refused 401)
  | .rightPassword user => .granting write.id (.login user)
  | .provisioning subject => .refreshing subject write.id

/-- Where a request is after its commit failed. -/
def uncommitted (error : CommitError) : Purpose → Thread
  | .provisioning subject =>
    match error with
    | .integrity => .refetching subject
    | .stale => .answered (.refused 500)
  | _ => .answered (.refused (if error = .integrity then 409 else 500))

/-- A step of a request. -/
def step (thread : Thread) : Database × Thread :=
  match thread with
  | .arrived request => (db, arrive panel input db request)
  | .authorized actor loaded request => (db, act panel input db actor loaded request)
  | .committing write purpose =>
    match db.commit input.owned write with
    | .ok db' => (db', committed write purpose)
    | .error error => (db, uncommitted error purpose)
  | .naming subject username role =>
    (db, .committing (.insert input.id (newAccount panel input db subject username role))
      (.provisioning subject))
  | .refetching subject =>
    match db.find? fun user => user.oidcSubject = some subject with
    | none => (db, .answered (.refused 409))
    | some (id, _) => (db, .refreshing subject id)
  | .refreshing subject id =>
    match db.users.get? id with
    | none => (db, .answered (.refused 500))
    | some user =>
      ({ db with log := .provisioned subject id user :: db.log },
        .granting id (.callback subject))
  | .granting id grant =>
    match db.users.get? id with
    | none => (db, .answered (.refused 500))
    | some _ =>
      match grant with
      | .login user =>
        ({ db with log := .token id user.authProvider :: db.log }, .answered .token)
      | .callback subject =>
        ({ db with log := .session subject id :: db.log }, .answered .session)
  | .answered answer => (db, .answered answer)

end

/-- The requests as threads. -/
def requests (panel : Panel) : Program Database Thread Request Input where
  start := .arrived
  step := step panel

/-- No request has been made yet. -/
def opened (db : Database) : Pool Database Thread := ⟨db, fun _ => none⟩

/-! ## What a commit does -/

section

variable {db db' : Database} {owned : Bool} {write : Write} {id : String} {user : AdminUser}
  {columns : UserUpdate}

theorem commit_insert (h : db.commit owned (.insert id user) = .ok db') :
    id ∉ db.issued ∧ db.users.get? id = none ∧ db.conflicts id user = false ∧
      db' = { db with users := db.users.set id user, issued := id :: db.issued } := by
  rw [Database.commit] at h
  split at h
  next => cases h
  next hfree =>
    simp only [Bool.or_eq_true, not_or, List.contains_iff_mem, PyDict.contains,
      Bool.not_eq_true, Option.isSome_eq_false_iff, Option.isNone_iff_eq_none] at hfree
    exact ⟨hfree.1.1, hfree.1.2, hfree.2, (Except.ok.inj h).symm⟩

theorem commit_update (h : db.commit owned (.update id columns) = .ok db') :
    (columns = .nothing ∧ db' = db) ∨
      ∃ user, db.users.get? id = some user ∧ db.conflicts id (columns.apply user) = false ∧
        db' = { db with users := db.users.set id (columns.apply user) } := by
  rw [Database.commit] at h
  split at h
  next hnothing => exact .inl ⟨hnothing, (Except.ok.inj h).symm⟩
  next =>
    split at h
    next => cases h
    next user hrow =>
      split at h
      next => cases h
      next hfree => exact .inr ⟨user, hrow, by simpa using hfree, (Except.ok.inj h).symm⟩

theorem commit_delete (h : db.commit owned (.delete id) = .ok db') :
    owned = false ∧ db' = { db with users := db.users.pop id } := by
  rw [Database.commit] at h
  split at h
  next => cases h
  next howned => exact ⟨by simpa using howned, (Except.ok.inj h).symm⟩

/-- A commit changes the row that it is about and no other. -/
theorem get?_commit_of_ne (h : db.commit owned write = .ok db') {other : String}
    (hne : other ≠ write.id) : db'.users.get? other = db.users.get? other := by
  cases write with
  | insert id user =>
    obtain ⟨-, -, -, rfl⟩ := commit_insert h
    exact PyDict.get?_set_of_ne _ hne _
  | update id columns =>
    rcases commit_update h with ⟨-, rfl⟩ | ⟨user, -, -, rfl⟩
    · rfl
    · exact PyDict.get?_set_of_ne _ hne _
  | delete id =>
    obtain ⟨-, rfl⟩ := commit_delete h
    exact PyDict.get?_pop_of_ne _ hne

theorem get?_commit_insert (h : db.commit owned (.insert id user) = .ok db') :
    db'.users.get? id = some user := by
  obtain ⟨-, -, -, rfl⟩ := commit_insert h
  exact PyDict.get?_set_self _ _ _

theorem get?_commit_update (h : db.commit owned (.update id columns) = .ok db') :
    db'.users.get? id = (db.users.get? id).map columns.apply := by
  rcases commit_update h with ⟨rfl, rfl⟩ | ⟨user, hrow, -, rfl⟩
  · cases db'.users.get? id <;> simp
  · simp [hrow]

theorem get?_commit_delete (h : db.commit owned (.delete id) = .ok db') :
    db'.users.get? id = none := by
  obtain ⟨-, rfl⟩ := commit_delete h
  exact PyDict.get?_pop_self _ _

/-- What a step of a request does to the table. -/
theorem step_users (panel : Panel) (input : Input) (db : Database) (t : Thread) :
    (∃ write purpose db', t = .committing write purpose ∧
        db.commit input.owned write = .ok db' ∧ (step panel input db t).1 = db') ∨
      ((step panel input db t).1.users = db.users ∧
        (step panel input db t).1.issued = db.issued ∧
        ∀ write purpose, t = .committing write purpose →
          ∃ error, db.commit input.owned write = .error error) := by
  cases t with
  | committing write purpose =>
    cases hcommit : db.commit input.owned write with
    | ok db' => exact .inl ⟨write, purpose, db', rfl, hcommit, by simp only [step, hcommit]⟩
    | error error =>
      refine .inr ⟨by simp only [step, hcommit], by simp only [step, hcommit], ?_⟩
      intro write' purpose' heq
      obtain ⟨rfl, -⟩ := Thread.committing.inj heq
      exact ⟨error, hcommit⟩
  | arrived request => exact .inr ⟨rfl, rfl, by simp⟩
  | authorized actor loaded request => exact .inr ⟨rfl, rfl, by simp⟩
  | naming subject username role => exact .inr ⟨rfl, rfl, by simp⟩
  | refetching subject =>
    simp only [step]
    split <;> exact .inr ⟨rfl, rfl, by simp⟩
  | refreshing subject id =>
    simp only [step]
    split <;> exact .inr ⟨rfl, rfl, by simp⟩
  | granting id grant =>
    simp only [step]
    split
    next => exact .inr ⟨rfl, rfl, by simp⟩
    next => cases grant <;> exact .inr ⟨rfl, rfl, by simp⟩
  | answered answer => exact .inr ⟨rfl, rfl, by simp⟩

/-! ### What `patch_user` asks for -/

theorem patchUser_cases (panel : Panel) (input : Input) (db : Database) (actor : String)
    (loaded : AdminUser) (target : String) (role password : Option String)
    (isActive : Option Bool) :
    (∃ answer,
      patchUser panel input db actor loaded target role password isActive = .answered answer) ∨
    ∃ row user new, db.users.get? target = some row ∧
      user = (if target = actor then loaded else row) ∧
      patchUser panel input db actor loaded target role password isActive =
        .committing (.update target (.between user new)) (.change actor) ∧
      (target = actor → new.role = user.role) ∧
      (nonEmpty password = none → new.passwordHash = user.passwordHash) := by
  have hrest : ∀ user new : AdminUser, new.passwordHash = user.passwordHash →
      (∃ answer, patchUser.rest panel input actor target password isActive user new =
        .answered answer) ∨
      ∃ new', patchUser.rest panel input actor target password isActive user new =
          .committing (.update target (.between user new')) (.change actor) ∧
        new'.role = new.role ∧
        (nonEmpty password = none → new'.passwordHash = user.passwordHash) := by
    intro user new hhash
    rw [patchUser.rest]
    split
    next => exact .inr ⟨_, rfl, rfl, fun _ => hhash⟩
    next hpassword =>
      split
      next => exact .inl ⟨_, rfl⟩
      next => exact .inr ⟨_, rfl, rfl, fun hnone => by simp [hnone] at hpassword⟩
  rw [patchUser]
  split
  next => exact .inl ⟨_, rfl⟩
  next row hrow =>
    dsimp only
    generalize hloaded : (if target = actor then loaded else row) = user
    split
    next => exact .inl ⟨_, rfl⟩
    next role hparsed =>
      split
      next => exact .inl ⟨_, rfl⟩
      next hallowed =>
        rcases hrest user { user with role } rfl with hanswer | ⟨new, heq, hrole, hhash⟩
        · exact .inl hanswer
        · refine .inr ⟨row, user, new, hrow, hloaded.symm, heq, fun hown => ?_, hhash⟩
          rw [hrole]
          by_contra hne
          exact hallowed ⟨hne, hown⟩
    next =>
      rcases hrest user user rfl with hanswer | ⟨new, heq, hrole, hhash⟩
      · exact .inl hanswer
      · exact .inr ⟨row, user, new, hrow, hloaded.symm, heq, fun _ => hrole, hhash⟩

end

end Efdi.Admin

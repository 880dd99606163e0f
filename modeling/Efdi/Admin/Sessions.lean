import Efdi.Admin.Requests

/-!
# Sessions and password changes

`login`, `refresh`, `logout`, `change_own_password` and `patch_user`, one step for
each statement and each commit, over the committed rows of `admin_users` and
`refresh_tokens` and the rows that open transactions have locked.

A statement that meets a locked row waits and then reads the row again.  The
`UPDATE` of `refresh_tokens` works through the rows that were committed when it
started; a row that is committed after that is not among them.

A token carries with it how often the password had been changed when the login
read it that the token comes from.
-/

namespace Efdi.Admin.Sessions

open Interleaving

/-! ## The tables -/

/-- A row of `refresh_tokens`, without its hash. -/
structure RefreshToken where
  userId : String
  expiresAt : Nat
  revoked : Bool
  /-- How often the password had been changed when the login read it from which the token comes. -/
  verified : Nat
deriving DecidableEq

/-- What was done with a token, by its hash. -/
inductive Entry where
  /-- `refresh` committed; the account had changed its password `changes` times. -/
  | exchanged (hash : String) (verified changes : Nat)
  /-- `logout` committed. -/
  | loggedOut (hash : String)
deriving DecidableEq

/-- The committed rows, and those that a transaction has locked. -/
structure Store where
  users : PyDict String AdminUser
  /-- How many password changes of an account were committed. -/
  changes : String → Nat
  lockedUsers : List String
  tokens : PyDict String RefreshToken
  lockedTokens : List String
  log : List Entry

/-- `UPDATE refresh_tokens SET revoked = true` of a row. -/
def revoke (hash : String) (tokens : PyDict String RefreshToken) : PyDict String RefreshToken :=
  match tokens.get? hash with
  | none => tokens
  | some token => tokens.set hash { token with revoked := true }

/-- The same of several rows. -/
def revokeAll (hashes : List String) (tokens : PyDict String RefreshToken) :
    PyDict String RefreshToken :=
  hashes.foldr revoke tokens

/-- The `UPDATE` of a row of `admin_users`. -/
def updateUser (id : String) (columns : UserUpdate) (users : PyDict String AdminUser) :
    PyDict String AdminUser :=
  match users.get? id with
  | none => users
  | some user => users.set id (columns.apply user)

/-! ## The requests -/

inductive Request where
  | login (username password : String)
  /-- With the cookie. -/
  | refresh (cookie : Option String)
  | logout (cookie : Option String)
  | changePassword (actor current new : String)
  | patchUser (actor target : String) (role password : Option String) (isActive : Option Bool)

/-- How far a request is. -/
inductive Thread where
  | arrived (request : Request)
  /-- The password was compared, and the counters are to be written.  With the right password a
  token will be made. -/
  | compared (id : String) (columns : UserUpdate) (verified : Option Nat)
  | counted (id : String) (columns : UserUpdate) (verified : Option Nat)
  | granting (id : String) (verified : Nat)
  | granted (hash : String) (row : RefreshToken)
  /-- `refresh` has locked a token that it refuses. -/
  | rejecting (hash : String)
  /-- `refresh` has locked a token, and the account is to be read. -/
  | locked (hash : String) (token : RefreshToken)
  | disabling (hash : String) (token : RefreshToken)
  | rotating (hash : String) (token : RefreshToken)
  | rotated (hash : String) (token : RefreshToken) (newHash : String) (row : RefreshToken)
  /-- `logout` has read a token. -/
  | leaving (hash : String) (token : RefreshToken)
  | left (hash : String) (updated : Bool)
  /-- The actor of `patch_user` was read. -/
  | authorized (actor : String) (loaded : AdminUser) (request : Request)
  /-- The account is to be written; `revokes` says that its tokens are to be revoked too. -/
  | changing (id : String) (columns : UserUpdate) (revokes : Bool)
  | changed (id : String) (columns : UserUpdate) (revokes : Bool)
  /-- The `UPDATE` of the tokens has `rows` before it, and has locked `marked`. -/
  | revoking (id : String) (columns : UserUpdate) (rows marked : List String)
  | answered (answer : Answer)

/-- `timedelta(days=REFRESH_TOKEN_EXPIRE_DAYS)`. -/
def refreshTokenTime : Nat := 7 * 24 * 3600 * 1000000

/-- `create_refresh_token`. -/
def createRefreshToken (input : Input) (userId : String) (verified : Nat) : RefreshToken where
  userId
  expiresAt := input.now + refreshTokenTime
  revoked := false
  verified

section

variable (panel : Panel) (input : Input) (store : Store)

/-- The table of the accounts as the other requests know it. -/
def Store.accounts : Database := ⟨store.users, [], []⟩

/-- The first statement of `login`, and its checks. -/
def login (username password : String) : Thread :=
  match store.accounts.find? fun user => user.username = username ∧ user.isActive with
  | none => .answered (.refused 401)
  | some (id, user) =>
    match loginCheck panel.pwd input.now password user with
    | .locked => .answered (.refused 429)
    | .invalid => .compared id (UserUpdate.between user (user.failed input.now)) none
    | .passed =>
      .compared id (UserUpdate.between user user.passed) (some (store.changes id))

/-- `SELECT ... FOR UPDATE`.  A token that is locked is waited for. -/
def refresh (hash : String) (waiting : Thread) : Store × Thread :=
  match store.tokens.get? hash with
  | none => (store, .answered (.refused 401))
  | some token =>
    if store.lockedTokens.contains hash then (store, waiting)
    else
      ({ store with lockedTokens := hash :: store.lockedTokens },
        if token.revoked || token.expiresAt ≤ input.now then .rejecting hash
        else .locked hash token)

/-- The first statement of a request. -/
def arrive (request : Request) : Store × Thread :=
  match request with
  | .login username password => (store, login panel input store username password)
  | .refresh none => (store, .answered (.refused 401))
  | .refresh (some cookie) =>
    refresh input store (panel.digest cookie) (.arrived (.refresh (some cookie)))
  | .logout none => (store, .answered .ok)
  | .logout (some cookie) =>
    match store.tokens.get? (panel.digest cookie) with
    | none => (store, .answered .ok)
    | some token => (store, .leaving (panel.digest cookie) token)
  | .changePassword actor current new =>
    match store.accounts.active? actor with
    | none => (store, .answered (.refused 401))
    | some loaded =>
      match Admin.changePassword panel input actor loaded current new with
      | .committing (.update id columns) _ => (store, .changing id columns true)
      | .answered answer => (store, .answered answer)
      | _ => (store, .answered .ok)
  | .patchUser actor _ _ _ _ =>
    match store.accounts.active? actor with
    | none => (store, .answered (.refused 401))
    | some loaded =>
      if loaded.role ≠ .superadmin then (store, .answered (.refused 403))
      else (store, .authorized actor loaded request)

/-- The second statement of `patch_user`. -/
def patch (actor : String) (loaded : AdminUser) : Request → Thread
  | .patchUser _ target role password isActive =>
    match Admin.patchUser panel input store.accounts actor loaded target role password
        isActive with
    | .committing (.update id columns) _ =>
      .changing id columns (nonEmpty password).isSome
    | .answered answer => .answered answer
    | _ => .answered .ok
  | _ => .answered .ok

/-- The `UPDATE` of an account.  A row that is locked is waited for; without changes nothing is
sent. -/
def writeUser (id : String) (columns : UserUpdate) (waiting next : Thread) : Store × Thread :=
  if columns = .nothing then (store, next)
  else
  match store.users.get? id with
  | none => (store, .answered (.refused 500))
  | some _ =>
    if store.lockedUsers.contains id then (store, waiting)
    else ({ store with lockedUsers := id :: store.lockedUsers }, next)

/-- The account is committed, and its lock is given back. -/
def Store.commitUser (id : String) (columns : UserUpdate) : Store :=
  if columns = .nothing then store
  else
    { store with
      users := updateUser id columns store.users
      lockedUsers := store.lockedUsers.filter fun other => other ≠ id }

/-- The locks of a transaction are given back. -/
def Store.release (hashes : List String) : Store :=
  { store with lockedTokens := store.lockedTokens.filter fun hash => hash ∉ hashes }

/-- `INSERT INTO refresh_tokens`, of a hash that is unique. -/
def insertToken (hash : String) (next : Thread) (failed : Store) : Store × Thread :=
  if store.tokens.contains hash || store.lockedTokens.contains hash then
    (failed, .answered (.refused 500))
  else ({ store with lockedTokens := hash :: store.lockedTokens }, next)

/-- The rows of an account that are committed. -/
def Store.tokensOf (id : String) : List String :=
  (store.tokens.entries.filter fun entry => entry.2.userId = id).map Prod.fst

/-- A step of a request. -/
def step (thread : Thread) : Store × Thread :=
  match thread with
  | .arrived request => arrive panel input store request
  | .compared id columns verified =>
    writeUser store id columns thread (.counted id columns verified)
  | .counted id columns verified =>
    (store.commitUser id columns,
      match verified with
      | none => .answered (.refused 401)
      | some verified => .granting id verified)
  | .granting id verified =>
    let hash := panel.digest input.secret
    insertToken store hash (.granted hash (createRefreshToken input id verified)) store
  | .granted hash row =>
    ({ store with tokens := store.tokens.set hash row }.release [hash], .answered .token)
  | .rejecting hash => (store.release [hash], .answered (.refused 401))
  | .locked hash token =>
    match store.accounts.active? token.userId with
    | none => (store, .disabling hash token)
    | some _ => (store, .rotating hash token)
  | .disabling hash _ =>
    ({ store with tokens := revoke hash store.tokens }.release [hash],
      .answered (.refused 401))
  | .rotating hash token =>
    -- The row of `hash` is locked already, so its `UPDATE` does not wait.
    let newHash := panel.digest input.secret
    insertToken store newHash
      (.rotated hash token newHash (createRefreshToken input token.userId token.verified))
      (store.release [hash])
  | .rotated hash token newHash row =>
    ({ store with
        tokens := (revoke hash store.tokens).set newHash row
        log := .exchanged hash token.verified (store.changes token.userId) :: store.log
      }.release [hash, newHash], .answered .token)
  | .leaving hash token =>
    if token.revoked then (store, .left hash false)
    else if store.lockedTokens.contains hash then (store, thread)
    else ({ store with lockedTokens := hash :: store.lockedTokens }, .left hash true)
  | .left hash updated =>
    (if updated then
      { store with
        tokens := revoke hash store.tokens
        log := .loggedOut hash :: store.log }.release [hash]
    else { store with log := .loggedOut hash :: store.log }, .answered .ok)
  | .authorized actor loaded request => (store, patch panel input store actor loaded request)
  | .changing id columns revokes =>
    writeUser store id columns thread (.changed id columns revokes)
  | .changed id columns true => (store, .revoking id columns (store.tokensOf id) [])
  | .changed id columns false => (store.commitUser id columns, .answered .ok)
  | .revoking id columns (hash :: rows) marked =>
    if store.lockedTokens.contains hash then (store, thread)
    else
      ({ store with lockedTokens := hash :: store.lockedTokens },
        .revoking id columns rows (hash :: marked))
  | .revoking id columns [] marked =>
    ({ store.commitUser id columns with
        tokens := revokeAll marked store.tokens
        changes := Function.update store.changes id (store.changes id + 1)
      }.release marked, .answered .ok)
  | .answered answer => (store, .answered answer)

end

/-- The requests as threads. -/
def sessions (panel : Panel) : Program Store Thread Request Input where
  start := .arrived
  step := step panel

/-- No request has been made yet. -/
def opened (store : Store) : Pool Store Thread := ⟨store, fun _ => none⟩

end Efdi.Admin.Sessions

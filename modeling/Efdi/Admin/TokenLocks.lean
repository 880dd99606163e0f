import Efdi.Admin.Sessions

/-!
# Locks on refresh tokens

What a transaction has locked no other one writes, so what a request read of a
token that it holds stays true until its commit.  A token that was exchanged or
logged out is revoked, and a revoked token is never locked for an exchange: each
token is exchanged once at most, and not after its logout (`locking_kept`).
-/

namespace Efdi.Admin.Sessions

open Runs Interleaving List PyDict

/-! ## Rows and locks -/

section

variable {store : Store} {tokens : PyDict String RefreshToken} {hash other id : String}
  {columns : UserUpdate}

theorem get?_revoke_self : (revoke hash tokens).get? hash =
    (tokens.get? hash).map fun token => { token with revoked := true } := by
  rw [revoke]
  cases hrow : tokens.get? hash with
  | none => simpa using hrow
  | some token => exact get?_set_self _ _ _

theorem get?_revoke_of_ne (h : other ≠ hash) :
    (revoke hash tokens).get? other = tokens.get? other := by
  rw [revoke]
  cases tokens.get? hash with
  | none => rfl
  | some token => exact get?_set_of_ne _ h _

theorem get?_revokeAll_of_notMem {hashes : List String} (h : other ∉ hashes) :
    (revokeAll hashes tokens).get? other = tokens.get? other := by
  induction hashes with
  | nil => rfl
  | cons hash hashes ih =>
    rw [mem_cons, not_or] at h
    rw [revokeAll, foldr_cons, get?_revoke_of_ne h.1]
    exact ih h.2

theorem get?_revokeAll_of_mem {hashes : List String} (h : other ∈ hashes) :
    (revokeAll hashes tokens).get? other =
      (tokens.get? other).map fun token => { token with revoked := true } := by
  induction hashes with
  | nil => cases h
  | cons hash hashes ih =>
    rw [revokeAll, foldr_cons]
    by_cases hself : other = hash
    · subst hself
      rw [get?_revoke_self]
      by_cases hmem : other ∈ hashes
      · rw [← revokeAll, ih hmem, Option.map_map]
        rfl
      · rw [← revokeAll, get?_revokeAll_of_notMem hmem]
    · rw [get?_revoke_of_ne hself]
      exact ih ((mem_cons.mp h).resolve_left hself)

@[simp] theorem commitUser_tokens : (store.commitUser id columns).tokens = store.tokens := by
  rw [Store.commitUser]
  split <;> rfl

@[simp] theorem commitUser_lockedTokens :
    (store.commitUser id columns).lockedTokens = store.lockedTokens := by
  rw [Store.commitUser]
  split <;> rfl

@[simp] theorem commitUser_changes : (store.commitUser id columns).changes = store.changes := by
  rw [Store.commitUser]
  split <;> rfl

@[simp] theorem commitUser_log : (store.commitUser id columns).log = store.log := by
  rw [Store.commitUser]
  split <;> rfl

@[simp] theorem release_tokens (hashes : List String) :
    (store.release hashes).tokens = store.tokens := rfl

@[simp] theorem release_changes (hashes : List String) :
    (store.release hashes).changes = store.changes := rfl

@[simp] theorem release_log (hashes : List String) : (store.release hashes).log = store.log := rfl

theorem mem_release {hashes : List String} :
    hash ∈ (store.release hashes).lockedTokens ↔ hash ∈ store.lockedTokens ∧ hash ∉ hashes := by
  simp [Store.release]

end

/-- The tokens that the transaction of a request has locked. -/
def held : Thread → List String
  | .granted hash _ => [hash]
  | .rejecting hash => [hash]
  | .locked hash _ => [hash]
  | .disabling hash _ => [hash]
  | .rotating hash _ => [hash]
  | .rotated hash _ newHash _ => [hash, newHash]
  | .left hash true => [hash]
  | .revoking _ _ _ marked => marked
  | _ => []

/-- The committed row of a token, that is not revoked. -/
def Spendable (store : Store) (hash : String) (token : RefreshToken) : Prop :=
  store.tokens.get? hash = some token ∧ token.revoked = false

/-- The committed row of a token is revoked. -/
def Spent (store : Store) (hash : String) : Prop :=
  ∃ token, store.tokens.get? hash = some token ∧ token.revoked = true

/-- What a request knows of the committed tokens. -/
def Knows (store : Store) : Thread → Prop
  | .granted hash _ => store.tokens.get? hash = none
  | .locked hash token => Spendable store hash token
  | .disabling hash token => Spendable store hash token
  | .rotating hash token => Spendable store hash token
  | .rotated hash token newHash _ =>
    Spendable store hash token ∧ store.tokens.get? newHash = none
  | .leaving hash token =>
    (∃ now, store.tokens.get? hash = some now) ∧ (token.revoked = true → Spent store hash)
  | .left hash updated =>
    (∃ now, store.tokens.get? hash = some now) ∧ (updated = false → Spent store hash)
  | _ => True

/-- A request has locked the tokens that it holds, and what it knows of the tokens is so. -/
structure Tied (store : Store) (t : Thread) : Prop where
  locked : ∀ hash ∈ held t, hash ∈ store.lockedTokens
  knows : Knows store t

/-- No two transactions hold one token. -/
def Disjoint (t u : Thread) : Prop := ∀ hash ∈ held t, hash ∉ held u

/-- What a step of a request leaves to the others. -/
structure Frame (store store' : Store) (t t' : Thread) : Prop where
  rows : ∀ hash, hash ∉ held t → store'.tokens.get? hash = store.tokens.get? hash
  locks : ∀ hash ∈ store.lockedTokens, hash ∉ held t → hash ∈ store'.lockedTokens
  taken : ∀ hash ∈ held t', hash ∈ held t ∨ hash ∉ store.lockedTokens
  grows : ∀ hash token, store.tokens.get? hash = some token →
    ∃ token', store'.tokens.get? hash = some token' ∧
      (token.revoked = true → token'.revoked = true)

/-- The token of an entry. -/
def Entry.hash : Entry → String
  | .exchanged hash _ _ => hash
  | .loggedOut hash => hash

/-- No token is exchanged after it was exchanged or logged out. -/
def Once : List Entry → Prop
  | [] => True
  | .exchanged hash _ _ :: log => (∀ entry ∈ log, entry.hash ≠ hash) ∧ Once log
  | .loggedOut _ :: log => Once log

/-- The tokens of the log are revoked, and each was exchanged once at most. -/
def Recorded (store : Store) : Prop :=
  (∀ entry ∈ store.log, Spent store entry.hash) ∧ Once store.log

/-- The step commits tokens, or that they were exchanged, logged out or revoked. -/
def commits : Thread → Bool
  | .granted _ _ => true
  | .disabling _ _ => true
  | .rotated _ _ _ _ => true
  | .left _ _ => true
  | .revoking _ _ [] _ => true
  | _ => false

/-- The tokens, the password changes and the log are as they were. -/
structure Quiet (store store' : Store) : Prop where
  tokens : store'.tokens = store.tokens
  changes : store'.changes = store.changes
  log : store'.log = store.log

section

variable {panel : Panel} {input : Input} {store store' : Store} {t t' u waiting next : Thread}
  {hash other id : String} {columns : UserUpdate}

theorem Frame.of_same (htokens : store'.tokens = store.tokens)
    (hlocked : store'.lockedTokens = store.lockedTokens) (hheld : ∀ h ∈ held t', h ∈ held t) :
    Frame store store' t t' where
  rows hash _ := by rw [htokens]
  locks hash hmem _ := by rwa [hlocked]
  taken hash hmem := .inl (hheld hash hmem)
  grows hash token hrow := ⟨token, by rwa [htokens], id⟩

theorem Frame.of_lock (htokens : store'.tokens = store.tokens)
    (hlocked : store'.lockedTokens = hash :: store.lockedTokens)
    (hfree : hash ∉ store.lockedTokens) (hheld : ∀ h ∈ held t', h = hash ∨ h ∈ held t) :
    Frame store store' t t' where
  rows hash _ := by rw [htokens]
  locks hash hmem _ := by
    rw [hlocked]
    exact .tail _ hmem
  taken other hmem := by
    rcases hheld other hmem with rfl | hold
    · exact .inr hfree
    · exact .inl hold
  grows hash token hrow := ⟨token, by rwa [htokens], id⟩

/-- A commit writes and gives back tokens that the transaction holds. -/
theorem Frame.of_commit {tokens : PyDict String RefreshToken} {store₀ : Store}
    {hashes : List String} (htokens : store₀.tokens = tokens)
    (hlocked : store₀.lockedTokens = store.lockedTokens) (hhashes : ∀ h ∈ hashes, h ∈ held t)
    (hheld : held t' = [])
    (hrows : ∀ hash, hash ∉ held t → tokens.get? hash = store.tokens.get? hash)
    (hgrows : ∀ hash token, store.tokens.get? hash = some token →
      ∃ token', tokens.get? hash = some token' ∧
        (token.revoked = true → token'.revoked = true)) :
    Frame store (store₀.release hashes) t t' where
  rows hash hmem := by
    rw [release_tokens, htokens]
    exact hrows hash hmem
  locks hash hmem hnot := by
    rw [mem_release, hlocked]
    exact ⟨hmem, fun hback => hnot (hhashes hash hback)⟩
  taken hash hmem := by
    rw [hheld] at hmem
    cases hmem
  grows hash token hrow := by
    rw [release_tokens, htokens]
    exact hgrows hash token hrow

theorem grows_revokeAll (hashes : List String) {hash : String} {token : RefreshToken}
    (h : store.tokens.get? hash = some token) :
    ∃ token', (revokeAll hashes store.tokens).get? hash = some token' ∧
      (token.revoked = true → token'.revoked = true) := by
  by_cases hmem : hash ∈ hashes
  · exact ⟨{ token with revoked := true }, by rw [get?_revokeAll_of_mem hmem, h]; rfl,
      fun _ => rfl⟩
  · exact ⟨token, by rw [get?_revokeAll_of_notMem hmem, h], id⟩

theorem Frame.of_writeUser (hwait : held waiting = held t) (hnext : held next = held t) :
    Frame store (writeUser store id columns waiting next).1 t
      (writeUser store id columns waiting next).2 := by
  rw [writeUser]
  split
  · exact .of_same rfl rfl fun h hmem => hnext ▸ hmem
  · split
    · exact .of_same rfl rfl fun h hmem => by cases hmem
    · split
      · exact .of_same rfl rfl fun h hmem => hwait ▸ hmem
      · exact .of_same rfl rfl fun h hmem => hnext ▸ hmem

theorem held_patch (actor : String) (loaded : AdminUser) (request : Request) :
    held (patch panel input store actor loaded request) = [] := by
  cases request with
  | patchUser actor' target role password isActive =>
    simp only [patch]
    split <;> rfl
  | login username password => rfl
  | refresh cookie => rfl
  | logout cookie => rfl
  | changePassword actor current new => rfl

theorem held_login (username password : String) :
    held (login panel input store username password) = [] := by
  rw [login]
  split
  next => rfl
  next => split <;> rfl

theorem frame_arrive (request : Request) :
    Frame store (arrive panel input store request).1 (.arrived request)
      (arrive panel input store request).2 := by
  cases request with
  | login username password =>
    exact .of_same rfl rfl fun h hmem => by simp [arrive, held_login] at hmem
  | refresh cookie =>
    cases cookie with
    | none => exact .of_same rfl rfl fun h hmem => hmem
    | some cookie =>
      simp only [arrive, refresh]
      split
      next => exact .of_same rfl rfl fun h hmem => hmem
      next token hrow =>
        split
        next => exact .of_same rfl rfl fun h hmem => hmem
        next hfree =>
          refine .of_lock rfl rfl (by simpa using hfree) fun h hmem => .inl ?_
          split at hmem <;> exact mem_singleton.mp hmem
  | logout cookie =>
    cases cookie with
    | none => exact .of_same rfl rfl fun h hmem => hmem
    | some cookie =>
      simp only [arrive]
      split <;> exact .of_same rfl rfl fun h hmem => hmem
  | changePassword actor current new =>
    simp only [arrive]
    split
    next => exact .of_same rfl rfl fun h hmem => hmem
    next => split <;> exact .of_same rfl rfl fun h hmem => hmem
  | patchUser actor target role password isActive =>
    simp only [arrive]
    split
    next => exact .of_same rfl rfl fun h hmem => hmem
    next => split <;> exact .of_same rfl rfl fun h hmem => hmem

theorem Frame.of_insertToken {failed : Store}
    (hfailed : Frame store failed t (.answered (.refused 500)))
    (hheld : ∀ h ∈ held next, h = hash ∨ h ∈ held t) :
    Frame store (insertToken store hash next failed).1 t
      (insertToken store hash next failed).2 := by
  rw [insertToken]
  split
  next => exact hfailed
  next hfree =>
    simp only [Bool.or_eq_true, not_or, contains_iff_mem] at hfree
    exact .of_lock rfl rfl hfree.2 hheld

/-- What a step of a request leaves to the others. -/
theorem frame_step (panel : Panel) (input : Input) (h : Tied store t) :
    Frame store (step panel input store t).1 t (step panel input store t).2 := by
  cases t with
  | arrived request => exact frame_arrive request
  | compared id columns verified => exact .of_writeUser rfl rfl
  | counted id columns verified =>
    refine .of_same (by simp [step]) (by simp [step]) fun h hmem => ?_
    cases verified <;> exact hmem
  | granting id verified =>
    refine .of_insertToken (.of_same rfl rfl fun h hmem => hmem) fun h hmem => .inl ?_
    exact mem_singleton.mp hmem
  | granted hash row =>
    refine .of_commit rfl rfl (fun h hmem => hmem) rfl ?_ ?_
    · intro other hother
      exact get?_set_of_ne _ (fun heq => hother (by simp [held, heq])) _
    · intro other token hrow
      have hne : other ≠ hash := by
        rintro rfl
        have hnone : store.tokens.get? other = none := h.knows
        rw [hnone] at hrow
        cases hrow
      exact ⟨token, by rw [get?_set_of_ne _ hne, hrow], id⟩
  | rejecting hash =>
    exact .of_commit rfl rfl (fun h hmem => hmem) rfl (fun _ _ => rfl)
      fun other token hrow => ⟨token, hrow, id⟩
  | locked hash token =>
    simp only [step]
    split <;> exact .of_same rfl rfl fun h hmem => hmem
  | disabling hash token =>
    refine .of_commit rfl rfl (fun h hmem => hmem) rfl ?_ ?_
    · intro other hother
      exact get?_revoke_of_ne fun heq => hother (by simp [held, heq])
    · exact fun other token hrow => grows_revokeAll [hash] hrow
  | rotating hash token =>
    refine .of_insertToken ?_ fun h hmem => ?_
    · exact .of_commit rfl rfl (fun h hmem => hmem) rfl (fun _ _ => rfl)
        fun other token hrow => ⟨token, hrow, id⟩
    · simpa [held, or_comm] using hmem
  | rotated hash token newHash row =>
    obtain ⟨hspendable, hnone⟩ := h.knows
    refine .of_commit rfl rfl (fun h hmem => hmem) rfl ?_ ?_
    · intro other hother
      simp only [held, mem_cons, not_or] at hother
      rw [get?_set_of_ne _ hother.2.1, get?_revoke_of_ne hother.1]
    · intro other token' hrow
      have hne : other ≠ newHash := by
        rintro rfl
        rw [hnone] at hrow
        cases hrow
      rw [get?_set_of_ne _ hne]
      exact grows_revokeAll [hash] hrow
  | leaving hash token =>
    simp only [step]
    split
    next => exact .of_same rfl rfl fun h hmem => hmem
    next =>
      split
      next => exact .of_same rfl rfl fun h hmem => hmem
      next hfree =>
        exact .of_lock rfl rfl (by simpa using hfree) fun h hmem =>
          .inl (mem_singleton.mp hmem)
  | left hash updated =>
    cases updated with
    | false => exact .of_same rfl rfl fun h hmem => hmem
    | true =>
      refine .of_commit rfl rfl (fun h hmem => hmem) rfl ?_ ?_
      · intro other hother
        exact get?_revoke_of_ne fun heq => hother (by simp [held, heq])
      · exact fun other token hrow => grows_revokeAll [hash] hrow
  | authorized actor loaded request =>
    exact .of_same rfl rfl fun h hmem => by simp [step, held_patch] at hmem
  | changing id columns revokes => exact .of_writeUser rfl rfl
  | changed id columns revokes =>
    cases revokes with
    | true => exact .of_same rfl rfl fun h hmem => hmem
    | false => exact .of_same (by simp [step]) (by simp [step]) fun h hmem => hmem
  | revoking id columns rows marked =>
    cases rows with
    | nil =>
      refine .of_commit rfl (by simp) (fun h hmem => hmem) rfl ?_ ?_
      · exact fun other hother => get?_revokeAll_of_notMem hother
      · exact fun other token hrow => grows_revokeAll marked hrow
    | cons hash rows =>
      simp only [step]
      split
      next => exact .of_same rfl rfl fun h hmem => hmem
      next hfree =>
        exact .of_lock rfl rfl (by simpa using hfree) fun h hmem => mem_cons.mp hmem
  | answered answer => exact .of_same rfl rfl fun h hmem => hmem

/-! ### The other requests -/

theorem Spent.mono (h : Spent store hash) (hframe : Frame store store' t t') :
    Spent store' hash := by
  obtain ⟨token, hrow, hrevoked⟩ := h
  obtain ⟨token', hrow', hgrows⟩ := hframe.grows hash token hrow
  exact ⟨token', hrow', hgrows hrevoked⟩

theorem Spendable.mono {token : RefreshToken} (h : Spendable store hash token)
    (hframe : Frame store store' t t') (hfree : hash ∉ held t) :
    Spendable store' hash token :=
  ⟨by rw [hframe.rows hash hfree, h.1], h.2⟩

/-- A step of one request keeps what the others know and hold. -/
theorem Tied.mono (h : Tied store u) (hframe : Frame store store' t t')
    (hdisjoint : Disjoint u t) : Tied store' u := by
  refine ⟨fun hash hmem => hframe.locks hash (h.locked hash hmem) (hdisjoint hash hmem), ?_⟩
  have hknows := h.knows
  cases u with
  | granted hash row =>
    exact (hframe.rows hash (hdisjoint hash (by simp [held]))).trans hknows
  | locked hash token => exact Spendable.mono hknows hframe (hdisjoint hash (by simp [held]))
  | disabling hash token => exact Spendable.mono hknows hframe (hdisjoint hash (by simp [held]))
  | rotating hash token => exact Spendable.mono hknows hframe (hdisjoint hash (by simp [held]))
  | rotated hash token newHash row =>
    refine ⟨hknows.1.mono hframe (hdisjoint hash (by simp [held])), ?_⟩
    exact (hframe.rows newHash (hdisjoint newHash (by simp [held]))).trans hknows.2
  | leaving hash token =>
    obtain ⟨⟨now, hrow⟩, hspent⟩ := hknows
    obtain ⟨now', hrow', -⟩ := hframe.grows hash now hrow
    exact ⟨⟨now', hrow'⟩, fun hrevoked => (hspent hrevoked).mono hframe⟩
  | left hash updated =>
    obtain ⟨⟨now, hrow⟩, hspent⟩ := hknows
    obtain ⟨now', hrow', -⟩ := hframe.grows hash now hrow
    exact ⟨⟨now', hrow'⟩, fun hupdated => (hspent hupdated).mono hframe⟩
  | arrived request => trivial
  | compared id columns verified => trivial
  | counted id columns verified => trivial
  | granting id verified => trivial
  | rejecting hash => trivial
  | authorized actor loaded request => trivial
  | changing id columns revokes => trivial
  | changed id columns revokes => trivial
  | revoking id columns rows marked => trivial
  | answered answer => trivial

/-- A token that a request takes was not held by another. -/
theorem Disjoint.step (h : Tied store u) (hdisjoint : Disjoint t u)
    (hframe : Frame store store' t t') : Disjoint t' u := by
  intro hash hmem hother
  rcases hframe.taken hash hmem with hold | hfree
  · exact hdisjoint hash hold hother
  · exact hfree (h.locked hash hother)

theorem Disjoint.symm (h : Disjoint t u) : Disjoint u t :=
  fun hash hu ht => h hash ht hu

/-! ### The request itself -/

theorem Tied.of_none (hheld : held t = []) (hknows : Knows store t) : Tied store t :=
  ⟨fun _ hmem => absurd (hheld ▸ hmem) not_mem_nil, hknows⟩

theorem knows_login (username password : String) :
    Knows store (login panel input store username password) := by
  rw [login]
  split
  next => trivial
  next => split <;> trivial

theorem knows_patch (actor : String) (loaded : AdminUser) (request : Request) :
    Knows store (patch panel input store actor loaded request) := by
  cases request with
  | patchUser actor' target role password isActive =>
    simp only [patch]
    split <;> trivial
  | login username password => trivial
  | refresh cookie => trivial
  | logout cookie => trivial
  | changePassword actor current new => trivial

theorem tied_writeUser (hwait : Tied store waiting) (hnext : held next = [])
    (hknows : ∀ store, Knows store next) :
    Tied (writeUser store id columns waiting next).1
      (writeUser store id columns waiting next).2 := by
  rw [writeUser]
  split
  · exact .of_none hnext (hknows _)
  · split
    · exact .of_none rfl trivial
    · split
      · exact hwait
      · exact .of_none hnext (hknows _)

theorem tied_arrive (request : Request) :
    Tied (arrive panel input store request).1 (arrive panel input store request).2 := by
  cases request with
  | login username password =>
    exact .of_none (held_login username password) (knows_login username password)
  | refresh cookie =>
    cases cookie with
    | none => exact .of_none rfl trivial
    | some cookie =>
      simp only [arrive, refresh]
      split
      next => exact .of_none rfl trivial
      next token hrow =>
        split
        next => exact .of_none rfl trivial
        next =>
          split
          next => exact ⟨fun h hmem => by simp_all [held], trivial⟩
          next hvalid =>
            simp only [Bool.or_eq_true, not_or, Bool.not_eq_true] at hvalid
            exact ⟨fun h hmem => by simp_all [held], hrow, hvalid.1⟩
  | logout cookie =>
    cases cookie with
    | none => exact .of_none rfl trivial
    | some cookie =>
      simp only [arrive]
      split
      next => exact .of_none rfl trivial
      next token hrow =>
        exact .of_none rfl ⟨⟨token, hrow⟩, fun hrevoked => ⟨token, hrow, hrevoked⟩⟩
  | changePassword actor current new =>
    simp only [arrive]
    split
    next => exact .of_none rfl trivial
    next => split <;> exact .of_none rfl trivial
  | patchUser actor target role password isActive =>
    simp only [arrive]
    split
    next => exact .of_none rfl trivial
    next => split <;> exact .of_none rfl trivial

theorem spent_revoke (h : ∃ now, store.tokens.get? hash = some now) :
    ∃ token, (revoke hash store.tokens).get? hash = some token ∧ token.revoked = true := by
  obtain ⟨now, hrow⟩ := h
  exact ⟨{ now with revoked := true }, by rw [get?_revoke_self, hrow]; rfl, rfl⟩

theorem tied_step (h : Tied store t) :
    Tied (step panel input store t).1 (step panel input store t).2 := by
  cases t with
  | arrived request => exact tied_arrive request
  | compared id columns verified =>
    exact tied_writeUser h rfl fun _ => trivial
  | counted id columns verified =>
    cases verified with
    | none => exact .of_none rfl trivial
    | some verified => exact .of_none rfl trivial
  | granting id verified =>
    simp only [step, insertToken]
    split
    next => exact .of_none rfl trivial
    next hfree =>
      simp only [Bool.or_eq_true, not_or, PyDict.contains, Bool.not_eq_true,
        Option.isSome_eq_false_iff, Option.isNone_iff_eq_none] at hfree
      exact ⟨fun h hmem => by simp_all [held], hfree.1⟩
  | granted hash row => exact .of_none rfl trivial
  | rejecting hash => exact .of_none rfl trivial
  | locked hash token =>
    simp only [step]
    split
    next => exact ⟨h.locked, h.knows⟩
    next => exact ⟨h.locked, h.knows⟩
  | disabling hash token => exact .of_none rfl trivial
  | rotating hash token =>
    simp only [step, insertToken]
    split
    next => exact .of_none rfl trivial
    next hfree =>
      simp only [Bool.or_eq_true, not_or, PyDict.contains, Bool.not_eq_true,
        Option.isSome_eq_false_iff, Option.isNone_iff_eq_none] at hfree
      refine ⟨fun other hmem => ?_, h.knows, hfree.1⟩
      simp only [held, mem_cons, not_mem_nil, or_false] at hmem
      rcases hmem with rfl | rfl
      · exact .tail _ (h.locked other (by simp [held]))
      · exact mem_cons_self
  | rotated hash token newHash row => exact .of_none rfl trivial
  | leaving hash token =>
    obtain ⟨hrow, hspent⟩ := h.knows
    simp only [step]
    split
    next hrevoked => exact .of_none rfl ⟨hrow, fun _ => hspent hrevoked⟩
    next =>
      split
      next => exact h
      next => exact ⟨fun h hmem => by simp_all [held], hrow, fun hfalse => by cases hfalse⟩
  | left hash updated => exact .of_none rfl trivial
  | authorized actor loaded request =>
    exact .of_none (held_patch actor loaded request) (knows_patch actor loaded request)
  | changing id columns revokes => exact tied_writeUser h rfl fun _ => trivial
  | changed id columns revokes =>
    cases revokes with
    | true => exact .of_none rfl trivial
    | false => exact .of_none rfl trivial
  | revoking id columns rows marked =>
    cases rows with
    | nil => exact .of_none rfl trivial
    | cons hash rows =>
      simp only [step]
      split
      next => exact h
      next =>
        refine ⟨fun other hmem => ?_, trivial⟩
        rcases mem_cons.mp hmem with rfl | hold
        · exact mem_cons_self
        · exact .tail _ (h.locked other hold)
  | answered answer => exact .of_none rfl trivial

/-! ## Tokens are exchanged once -/

/-! ### What is not a commit of tokens -/

theorem Quiet.refl : Quiet store store := ⟨rfl, rfl, rfl⟩

theorem quiet_writeUser : Quiet store (writeUser store id columns waiting next).1 := by
  rw [writeUser]
  split
  · exact .refl
  · split
    · exact .refl
    · split <;> exact ⟨rfl, rfl, rfl⟩

theorem quiet_commitUser : Quiet store (store.commitUser id columns) :=
  ⟨commitUser_tokens, commitUser_changes, commitUser_log⟩

theorem quiet_insertToken {failed : Store} (hfailed : Quiet store failed) :
    Quiet store (insertToken store hash next failed).1 := by
  rw [insertToken]
  split
  · exact hfailed
  · exact ⟨rfl, rfl, rfl⟩

theorem quiet_arrive (request : Request) : Quiet store (arrive panel input store request).1 := by
  cases request with
  | login username password => exact .refl
  | refresh cookie =>
    cases cookie with
    | none => exact .refl
    | some cookie =>
      simp only [arrive, refresh]
      split
      next => exact .refl
      next => split <;> exact ⟨rfl, rfl, rfl⟩
  | logout cookie =>
    cases cookie with
    | none => exact .refl
    | some cookie =>
      simp only [arrive]
      split <;> exact .refl
  | changePassword actor current new =>
    simp only [arrive]
    split
    next => exact .refl
    next => split <;> exact .refl
  | patchUser actor target role password isActive =>
    simp only [arrive]
    split
    next => exact .refl
    next => split <;> exact .refl

theorem quiet_step (h : commits t = false) : Quiet store (step panel input store t).1 := by
  cases t with
  | arrived request => exact quiet_arrive request
  | compared id columns verified => exact quiet_writeUser
  | counted id columns verified => exact quiet_commitUser
  | granting id verified => exact quiet_insertToken .refl
  | granted hash row => cases h
  | rejecting hash => exact ⟨rfl, rfl, rfl⟩
  | locked hash token =>
    simp only [step]
    split <;> exact .refl
  | disabling hash token => cases h
  | rotating hash token => exact quiet_insertToken ⟨rfl, rfl, rfl⟩
  | rotated hash token newHash row => cases h
  | leaving hash token =>
    simp only [step]
    split
    next => exact .refl
    next => split <;> exact ⟨rfl, rfl, rfl⟩
  | left hash updated => cases h
  | authorized actor loaded request => exact .refl
  | changing id columns revokes => exact quiet_writeUser
  | changed id columns revokes =>
    cases revokes with
    | true => exact .refl
    | false => exact quiet_commitUser
  | revoking id columns rows marked =>
    cases rows with
    | nil => cases h
    | cons hash rows =>
      simp only [step]
      split <;> exact ⟨rfl, rfl, rfl⟩
  | answered answer => exact .refl

/-- The log grows with the commits of `refresh` and `logout` only. -/
theorem log_step (panel : Panel) (input : Input) (store : Store) (t : Thread) :
    (step panel input store t).1.log = store.log ∨
    (∃ hash token newHash row, t = .rotated hash token newHash row ∧
      (step panel input store t).1.log =
        .exchanged hash token.verified (store.changes token.userId) :: store.log) ∨
    ∃ hash updated, t = .left hash updated ∧
      (step panel input store t).1.log = .loggedOut hash :: store.log := by
  cases hcommits : commits t with
  | false => exact .inl (quiet_step hcommits).log
  | true =>
    cases t with
    | rotated hash token newHash row => exact .inr (.inl ⟨hash, token, newHash, row, rfl, rfl⟩)
    | left hash updated =>
      cases updated with
      | false => exact .inr (.inr ⟨hash, false, rfl, rfl⟩)
      | true => exact .inr (.inr ⟨hash, true, rfl, rfl⟩)
    | revoking id columns rows marked =>
      cases rows with
      | nil => exact .inl (by simp [step])
      | cons hash rows => cases hcommits
    | granted hash row => exact .inl rfl
    | disabling hash token => exact .inl rfl
    | _ => cases hcommits

/-- After its exchange or its logout a token is revoked. -/
theorem spent_rotated {token row : RefreshToken} {newHash : String}
    (h : Tied store (.rotated hash token newHash row)) :
    Spent (step panel input store (.rotated hash token newHash row)).1 hash := by
  obtain ⟨hspendable, hnone⟩ := h.knows
  have hne : hash ≠ newHash := by
    rintro rfl
    rw [hspendable.1] at hnone
    cases hnone
  obtain ⟨token', hrow, hrevoked⟩ := spent_revoke ⟨token, hspendable.1⟩
  exact ⟨token', by simp only [step, release_tokens, get?_set_of_ne _ hne, hrow], hrevoked⟩

theorem spent_left {updated : Bool} (h : Tied store (.left hash updated)) :
    Spent (step panel input store (.left hash updated)).1 hash := by
  obtain ⟨hrow, hspent⟩ := h.knows
  cases updated with
  | false => exact hspent rfl
  | true => exact spent_revoke hrow

theorem recorded_step (h : Recorded store) (ht : Tied store t) :
    Recorded (step panel input store t).1 := by
  have hold : ∀ entry ∈ store.log, Spent (step panel input store t).1 entry.hash :=
    fun entry hentry => (h.1 entry hentry).mono (frame_step panel input ht)
  rcases log_step panel input store t with
    hlog | ⟨hash, token, newHash, row, rfl, hlog⟩ | ⟨hash, updated, rfl, hlog⟩
  · exact ⟨by rwa [hlog], by rw [hlog]; exact h.2⟩
  · refine ⟨fun entry hentry => ?_, ?_⟩
    · rw [hlog] at hentry
      rcases mem_cons.mp hentry with rfl | hmem
      · exact spent_rotated ht
      · exact hold entry hmem
    · rw [hlog]
      refine ⟨fun entry hentry heq => ?_, h.2⟩
      -- A token of the log is revoked, and this one is not.
      obtain ⟨token', hrow, hrevoked⟩ := h.1 entry hentry
      obtain ⟨hspendable, hfresh⟩ := ht.knows.1
      rw [heq, hspendable] at hrow
      obtain rfl := Option.some.inj hrow
      rw [hfresh] at hrevoked
      cases hrevoked
  · refine ⟨fun entry hentry => ?_, ?_⟩
    · rw [hlog] at hentry
      rcases mem_cons.mp hentry with rfl | hmem
      · exact spent_left ht
      · exact hold entry hmem
    · rw [hlog]
      exact h.2

end

/-- The state of the tokens, the requests, and pairs of them. -/
def Locking (p : Pool Store Thread) : Prop := Holds Recorded Tied p ∧ Apart Disjoint p

theorem locking_kept (panel : Panel) {store : Store} (hlog : store.log = [])
    (events : List (Event Request Input)) :
    Always (sessions panel).next Locking (opened store) events := by
  refine always_of_apart (G := fun _ _ => True) (fun t u h => h.symm) ?_ ?_ ?_ ?_
    ⟨⟨?_, ?_⟩, ?_⟩ ?_ (guarded_iff.mpr fun _ _ _ _ => trivial)
  · intro p i request _ _
    exact .of_none rfl trivial
  · intro request u hash hmem
    cases hmem
  · intro p i input t hp _ _ ht
    exact ⟨recorded_step hp.1 (hp.2 i t ht), tied_step (hp.2 i t ht)⟩
  · intro p i input t j u hp hapart _ ht hij hu
    have hframe := frame_step panel input (hp.2 i t ht)
    exact ⟨(hp.2 j u hu).mono hframe (hapart j i u t (Ne.symm hij) hu ht),
      Disjoint.step (hp.2 j u hu) (hapart i j t u hij ht hu) hframe⟩
  · intro entry hentry
    simp [opened, hlog] at hentry
  · simp [opened, hlog, Once]
  · intro i t ht
    simp [opened] at ht
  · intro i j t u _ ht
    simp [opened] at ht

end Efdi.Admin.Sessions

import Efdi.Admin.Superadmins

/-!
# Accounts of subjects and accounts with passwords

An account belongs to a subject of the identity provider or has a password.  The
callback finds its account by the subject alone, and the unique index on the
subject closes the race of two first logins.  So in every run a subject has at
most one account, the callback returns no other, and it leaves the accounts with
passwords alone.

An account of a subject gets the hash of a secret that nobody knows.  `patch_user`
may write another one over it, and `login` does not look at the provider: no
account of a subject is given a token by `login` as long as no password is set on
one (`accounts_apart`).
-/

namespace Efdi.Admin

open Runs Interleaving List Option

/-! ## Invariants -/

/-- The table is well formed: ids were issued, the accounts of the provider are those with a
subject, and a subject has one account. -/
structure Database.Sound (db : Database) : Prop where
  issued : ∀ id user, db.users.get? id = some user → id ∈ db.issued
  provider : ∀ id user, db.users.get? id = some user →
    (user.authProvider = .oidc ↔ user.oidcSubject ≠ none)
  unique : ∀ id id' user user' subject, db.users.get? id = some user →
    db.users.get? id' = some user' → user.oidcSubject = some subject →
    user'.oidcSubject = some subject → id = id'

/-- `_provision_user` returned accounts of their subjects only. -/
def Database.Returned (db : Database) : Prop :=
  ∀ subject id user, .provisioned subject id user ∈ db.log →
    user.oidcSubject = some subject ∧ user.authProvider = .oidc

/-- The account, when it is there, belongs to the subject. -/
def Database.Belongs (db : Database) (id subject : String) : Prop :=
  id ∈ db.issued ∧ ∀ user, db.users.get? id = some user → user.oidcSubject = some subject

/-- The account, when it is there, has the provider and the subject of the row that was
loaded. -/
def Database.Loaded (db : Database) (id : String) (loaded : AdminUser) : Prop :=
  id ∈ db.issued ∧ ∀ user, db.users.get? id = some user →
    user.authProvider = loaded.authProvider ∧ user.oidcSubject = loaded.oidcSubject

/-- What a request knows of the account that it is about. -/
def Tied (db : Database) : Thread → Prop
  | .authorized actor loaded _ => db.Loaded actor loaded
  | .committing (.insert _ user) (.provisioning subject) =>
    user.oidcSubject = some subject ∧ user.authProvider = .oidc
  | .committing (.insert _ user) (.change _) =>
    user.oidcSubject = none ∧ user.authProvider = .password
  | .committing (.insert _ _) _ => False
  | .committing (.update id _) (.provisioning subject) => db.Belongs id subject
  | .committing (.update id _) (.rightPassword user) => db.Loaded id user
  | .committing (.update id _) _ => id ∈ db.issued
  | .committing (.delete _) (.change _) => True
  | .committing (.delete _) _ => False
  | .refreshing subject id => db.Belongs id subject
  | .granting id (.login user) => db.Loaded id user
  | .granting id (.callback subject) => db.Belongs id subject
  | _ => True

/-! ### Rows stay what they are -/

/-- Ids stay issued, and no row of an issued id changes its provider or its subject. -/
structure Follows (db db' : Database) : Prop where
  issued : ∀ id ∈ db.issued, id ∈ db'.issued
  rows : ∀ id ∈ db.issued, ∀ user, db'.users.get? id = some user →
    ∃ old, db.users.get? id = some old ∧ user.authProvider = old.authProvider ∧
      user.oidcSubject = old.oidcSubject

section

variable {panel : Panel} {input : Input} {db db' : Database} {owned : Bool} {write : Write}
  {id subject : String} {loaded user : AdminUser} {t u : Thread}

theorem follows_commit (h : db.commit owned write = .ok db') : Follows db db' := by
  have hissued : ∀ id ∈ db.issued, id ∈ db'.issued := by
    cases write with
    | insert id user =>
      obtain ⟨-, -, -, rfl⟩ := commit_insert h
      exact fun id hid => .tail _ hid
    | update id columns =>
      rcases commit_update h with ⟨-, rfl⟩ | ⟨user, -, -, rfl⟩
      · exact fun id hid => hid
      · exact fun id hid => hid
    | delete id =>
      obtain ⟨-, rfl⟩ := commit_delete h
      exact fun id hid => hid
  refine ⟨hissued, fun other hother user hrow => ?_⟩
  by_cases hne : other = write.id
  · subst hne
    cases write with
    | insert id new => exact absurd hother (commit_insert h).1
    | update id columns =>
      rw [Write.id, get?_commit_update h, map_eq_some_iff] at hrow
      obtain ⟨old, hold, rfl⟩ := hrow
      exact ⟨old, hold, rfl, rfl⟩
    | delete id =>
      rw [Write.id, get?_commit_delete h] at hrow
      cases hrow
  · rw [get?_commit_of_ne h hne] at hrow
    exact ⟨user, hrow, rfl, rfl⟩

theorem follows_step (panel : Panel) (input : Input) (db : Database) (t : Thread) :
    Follows db (step panel input db t).1 := by
  rcases step_users panel input db t with ⟨write, purpose, db', -, hcommit, hstep⟩ |
    ⟨husers, hissued, -⟩
  · rw [hstep]
    exact follows_commit hcommit
  · refine ⟨fun id hid => by rw [hissued]; exact hid, fun id _ user hrow => ?_⟩
    rw [husers] at hrow
    exact ⟨user, hrow, rfl, rfl⟩

theorem Database.Belongs.mono (h : db.Belongs id subject) (hdb : Follows db db') :
    db'.Belongs id subject := by
  refine ⟨hdb.issued id h.1, fun user hrow => ?_⟩
  obtain ⟨old, hold, -, hsubject⟩ := hdb.rows id h.1 user hrow
  rw [hsubject]
  exact h.2 old hold

theorem Database.Loaded.mono (h : db.Loaded id loaded) (hdb : Follows db db') :
    db'.Loaded id loaded := by
  refine ⟨hdb.issued id h.1, fun user hrow => ?_⟩
  obtain ⟨old, hold, hprovider, hsubject⟩ := hdb.rows id h.1 user hrow
  rw [hprovider, hsubject]
  exact h.2 old hold

/-- Steps of other requests keep what a request knows. -/
theorem Tied.mono (h : Tied db t) (hdb : Follows db db') : Tied db' t := by
  cases t with
  | authorized actor loaded request => exact Database.Loaded.mono h hdb
  | committing write purpose =>
    cases write with
    | insert id user => cases purpose <;> exact h
    | update id columns =>
      cases purpose with
      | change actor => exact hdb.issued id h
      | wrongPassword => exact hdb.issued id h
      | rightPassword user => exact Database.Loaded.mono h hdb
      | provisioning subject => exact Database.Belongs.mono h hdb
    | delete id => cases purpose <;> exact h
  | refreshing subject id => exact Database.Belongs.mono h hdb
  | granting id grant =>
    cases grant with
    | login user => exact Database.Loaded.mono h hdb
    | callback subject => exact Database.Belongs.mono h hdb
  | arrived request => trivial
  | naming subject username role => trivial
  | refetching subject => trivial
  | answered answer => trivial

/-! ### Lookups -/

theorem find?_eq_some {p : AdminUser → Bool} (h : db.find? p = some (id, user)) :
    db.users.get? id = some user ∧ p user = true := by
  have hmem := mem_of_find?_eq_some h
  exact ⟨PyDict.get?_eq_some_iff.mpr hmem,
    find?_some (p := fun entry : String × AdminUser => p entry.2) h⟩

theorem loaded_of_row (h : db.Sound) (hrow : db.users.get? id = some user) :
    db.Loaded id user := by
  refine ⟨h.issued id user hrow, fun user' hrow' => ?_⟩
  obtain rfl := some.inj (hrow.symm.trans hrow')
  exact ⟨rfl, rfl⟩

theorem belongs_of_row (h : db.Sound) (hrow : db.users.get? id = some user)
    (hsubject : user.oidcSubject = some subject) : db.Belongs id subject := by
  refine ⟨h.issued id user hrow, fun user' hrow' => ?_⟩
  obtain rfl := some.inj (hrow.symm.trans hrow')
  exact hsubject

/-- Without a conflict no other row has the subject. -/
theorem ne_of_conflicts (h : db.conflicts id user = false)
    (hsubject : user.oidcSubject = some subject) {other : String} {row : AdminUser}
    (hrow : db.users.get? other = some row) (hrow' : row.oidcSubject = some subject) :
    other = id := by
  by_contra hne
  have hmem := PyDict.get?_eq_some_iff.mp hrow
  have hfree := any_eq_false.mp h _ hmem
  exact hfree (by simp [hne, hsubject, hrow'])

/-- Without new ids the table stays well formed. -/
theorem Database.Sound.of_follows (h : db.Sound) (hdb : Follows db db')
    (hrows : ∀ id user, db'.users.get? id = some user → id ∈ db.issued) : db'.Sound := by
  constructor
  · intro id user hrow
    exact hdb.issued id (hrows id user hrow)
  · intro id user hrow
    obtain ⟨old, hold, hprovider, hsubject⟩ := hdb.rows id (hrows id user hrow) user hrow
    rw [hprovider, hsubject]
    exact h.provider id old hold
  · intro id id' user user' subject hrow hrow' hsubject hsubject'
    obtain ⟨old, hold, -, heq⟩ := hdb.rows id (hrows id user hrow) user hrow
    obtain ⟨old', hold', -, heq'⟩ := hdb.rows id' (hrows id' user' hrow') user' hrow'
    exact h.unique id id' old old' subject hold hold' (heq ▸ hsubject) (heq' ▸ hsubject')

/-! ### A step of the request itself -/

theorem tied_authorize (h : db.Sound) (actor : String) (superadmin : Bool) (request : Request) :
    Tied db (authorize db actor superadmin request) := by
  rw [authorize]
  split
  next => trivial
  next user hactive =>
    have hrow : db.users.get? actor = some user :=
      (filter_eq_some_iff.mp hactive).1
    split
    · trivial
    · exact loaded_of_row h hrow

theorem tied_login (h : db.Sound) (username password : String) :
    Tied db (login panel input db username password) := by
  rw [login]
  split
  next => trivial
  next id user hfind =>
    have hrow := (find?_eq_some hfind).1
    cases loginCheck panel.pwd input.now password user with
    | locked => trivial
    | invalid => exact h.issued id user hrow
    | passed => exact loaded_of_row h hrow

theorem tied_provision (h : db.Sound) (claims : PyJson) :
    Tied db (provision panel db claims) := by
  rw [provision]
  split
  next => trivial
  next subject hsubject =>
    split
    next => trivial
    next id user hfind =>
      obtain ⟨hrow, hmatch⟩ := find?_eq_some hfind
      split
      · trivial
      · exact belongs_of_row h hrow (by simpa using hmatch)

theorem tied_arrive (h : db.Sound) (request : Request) :
    Tied db (arrive panel input db request) := by
  cases request with
  | createUser actor username password role => exact tied_authorize h actor _ _
  | patchUser actor target role password isActive => exact tied_authorize h actor _ _
  | deleteUser actor target => exact tied_authorize h actor _ _
  | changePassword actor current new => exact tied_authorize h actor _ _
  | changeUsername actor current new => exact tied_authorize h actor _ _
  | login username password => exact tied_login h username password
  | callback claims => exact tied_provision h claims

theorem tied_patchUser (h : db.Sound) (actor : String) (loaded : AdminUser) (target : String)
    (role password : Option String) (isActive : Option Bool) :
    Tied db (patchUser panel input db actor loaded target role password isActive) := by
  rcases patchUser_cases panel input db actor loaded target role password isActive with
    ⟨answer, heq⟩ | ⟨row, user, new, hrow, -, heq, -, -⟩
  · rw [heq]
    trivial
  · rw [heq]
    exact h.issued target row hrow

theorem tied_act (h : db.Sound) {actor : String} (hactor : db.Loaded actor loaded)
    (request : Request) : Tied db (act panel input db actor loaded request) := by
  cases request with
  | createUser actor' username password role =>
    simp only [act, createUser]
    repeat' split
    all_goals trivial
  | patchUser actor' target role password isActive =>
    exact tied_patchUser h actor loaded target role password isActive
  | deleteUser actor' target =>
    simp only [act, deleteUser]
    repeat' split
    all_goals trivial
  | changePassword actor' current new =>
    simp only [act, changePassword]
    repeat' split
    all_goals first | trivial | exact hactor.1
  | changeUsername actor' current new =>
    simp only [act, changeUsername]
    repeat' split
    all_goals first | trivial | exact hactor.1
  | login username password => trivial
  | callback claims => trivial

theorem tied_committed {purpose : Purpose} (ht : Tied db (.committing write purpose))
    (hcommit : db.commit owned write = .ok db') : Tied db' (committed write purpose) := by
  have hfollows := follows_commit hcommit
  cases purpose with
  | change actor => trivial
  | wrongPassword => trivial
  | rightPassword user =>
    cases write with
    | insert id new => exact ht.elim
    | update id columns => exact Database.Loaded.mono ht hfollows
    | delete id => exact ht.elim
  | provisioning subject =>
    cases write with
    | insert id new =>
      refine ⟨?_, fun user hrow => ?_⟩
      · obtain ⟨-, -, -, rfl⟩ := commit_insert hcommit
        exact mem_cons_self
      · rw [Write.id, get?_commit_insert hcommit] at hrow
        obtain rfl := some.inj hrow
        exact ht.1
    | update id columns => exact Database.Belongs.mono ht hfollows
    | delete id => exact ht.elim

theorem tied_step (h : db.Sound) (ht : Tied db t) :
    Tied (step panel input db t).1 (step panel input db t).2 := by
  cases t with
  | arrived request => exact tied_arrive h request
  | authorized actor loaded request => exact tied_act h ht request
  | committing write purpose =>
    cases hcommit : db.commit input.owned write with
    | ok db' =>
      simp only [step, hcommit]
      exact tied_committed ht hcommit
    | error error =>
      simp only [step, hcommit]
      cases purpose with
      | provisioning subject => cases error <;> trivial
      | change actor => trivial
      | wrongPassword => trivial
      | rightPassword user => trivial
  | naming subject username role => exact ⟨rfl, rfl⟩
  | refetching subject =>
    simp only [step]
    split
    next => trivial
    next id user hfind =>
      obtain ⟨hrow, hmatch⟩ := find?_eq_some hfind
      exact belongs_of_row h hrow (by simpa using hmatch)
  | refreshing subject id =>
    simp only [step]
    split
    next => trivial
    next user hrow => exact ht
  | granting id grant =>
    simp only [step]
    split
    next => trivial
    next => cases grant <;> trivial
  | answered answer => trivial

/-! ### The table stays well formed -/

theorem sound_commit {purpose : Purpose} (h : db.Sound)
    (ht : Tied db (.committing write purpose)) (hcommit : db.commit owned write = .ok db') :
    db'.Sound := by
  have hfollows := follows_commit hcommit
  cases write with
  | insert id user =>
    have hself := get?_commit_insert hcommit
    have hother : ∀ other, other ≠ id → db'.users.get? other = db.users.get? other :=
      fun other hne => get?_commit_of_ne hcommit hne
    obtain ⟨hfresh, hnone, hfree, hdb'⟩ := commit_insert hcommit
    have hprovider : user.authProvider = .oidc ↔ user.oidcSubject ≠ none := by
      cases purpose with
      | provisioning subject => simp [ht.1, ht.2]
      | change actor => simp [ht.1, ht.2]
      | wrongPassword => exact ht.elim
      | rightPassword user => exact ht.elim
    constructor
    · intro other row hrow
      by_cases hne : other = id
      · rw [hdb', hne]
        exact mem_cons_self
      · rw [hother other hne] at hrow
        exact hfollows.issued other (h.issued other row hrow)
    · intro other row hrow
      by_cases hne : other = id
      · rw [hne, hself] at hrow
        obtain rfl := some.inj hrow
        exact hprovider
      · rw [hother other hne] at hrow
        exact h.provider other row hrow
    · intro id₁ id₂ user₁ user₂ subject hrow₁ hrow₂ hsubject₁ hsubject₂
      by_cases hne₁ : id₁ = id
      · rw [hne₁, hself] at hrow₁
        obtain rfl := some.inj hrow₁
        by_cases hne₂ : id₂ = id
        · rw [hne₁, hne₂]
        · rw [hother id₂ hne₂] at hrow₂
          rw [hne₁, ne_of_conflicts hfree hsubject₁ hrow₂ hsubject₂]
      · rw [hother id₁ hne₁] at hrow₁
        by_cases hne₂ : id₂ = id
        · rw [hne₂, hself] at hrow₂
          obtain rfl := some.inj hrow₂
          rw [hne₂, ne_of_conflicts hfree hsubject₂ hrow₁ hsubject₁]
        · rw [hother id₂ hne₂] at hrow₂
          exact h.unique id₁ id₂ user₁ user₂ subject hrow₁ hrow₂ hsubject₁ hsubject₂
  | update id columns =>
    refine h.of_follows hfollows fun other row hrow => ?_
    by_cases hne : other = id
    · rw [hne, get?_commit_update hcommit, map_eq_some_iff] at hrow
      obtain ⟨old, hold, -⟩ := hrow
      rw [hne]
      exact h.issued id old hold
    · rw [get?_commit_of_ne hcommit hne] at hrow
      exact h.issued other row hrow
  | delete id =>
    refine h.of_follows hfollows fun other row hrow => ?_
    by_cases hne : other = id
    · rw [hne, get?_commit_delete hcommit] at hrow
      cases hrow
    · rw [get?_commit_of_ne hcommit hne] at hrow
      exact h.issued other row hrow

theorem sound_step (h : db.Sound) (ht : Tied db t) : (step panel input db t).1.Sound := by
  rcases step_users panel input db t with ⟨write, purpose, db', rfl, hcommit, hstep⟩ |
    ⟨husers, hissued, -⟩
  · rw [hstep]
    exact sound_commit h ht hcommit
  · refine h.of_follows (follows_step panel input db t) fun id user hrow => ?_
    rw [husers] at hrow
    exact h.issued id user hrow

/-! ### What is written to the log -/

theorem log_commit (h : db.commit owned write = .ok db') : db'.log = db.log := by
  cases write with
  | insert id user =>
    obtain ⟨-, -, -, rfl⟩ := commit_insert h
    rfl
  | update id columns =>
    rcases commit_update h with ⟨-, rfl⟩ | ⟨user, -, -, rfl⟩
    · rfl
    · rfl
  | delete id =>
    obtain ⟨-, rfl⟩ := commit_delete h
    rfl

/-- What stands in the log after a step stood there before, or is about the request of the
step. -/
theorem mem_log_step {entry : Entry} (h : entry ∈ (step panel input db t).1.log) :
    entry ∈ db.log ∨
      (∃ subject id user, t = .refreshing subject id ∧ db.users.get? id = some user ∧
        entry = .provisioned subject id user) ∨
      (∃ id user, t = .granting id (.login user) ∧ entry = .token id user.authProvider) ∨
      ∃ id subject, t = .granting id (.callback subject) ∧ entry = .session subject id := by
  cases t with
  | arrived request => exact .inl h
  | authorized actor loaded request => exact .inl h
  | committing write purpose =>
    cases hcommit : db.commit input.owned write with
    | ok db' =>
      simp only [step, hcommit, log_commit hcommit] at h
      exact .inl h
    | error error =>
      simp only [step, hcommit] at h
      exact .inl h
  | naming subject username role => exact .inl h
  | refetching subject =>
    simp only [step] at h
    split at h <;> exact .inl h
  | refreshing subject id =>
    simp only [step] at h
    split at h
    next => exact .inl h
    next user hrow =>
      rcases mem_cons.mp h with hentry | hold
      · exact .inr (.inl ⟨subject, id, user, rfl, hrow, hentry⟩)
      · exact .inl hold
  | granting id grant =>
    simp only [step] at h
    split at h
    next => exact .inl h
    next =>
      cases grant with
      | login user =>
        rcases mem_cons.mp h with hentry | hold
        · exact .inr (.inr (.inl ⟨id, user, rfl, hentry⟩))
        · exact .inl hold
      | callback subject =>
        rcases mem_cons.mp h with hentry | hold
        · exact .inr (.inr (.inr ⟨id, subject, rfl, hentry⟩))
        · exact .inl hold
  | answered answer => exact .inl h

theorem returned_step (h : db.Sound) (ht : Tied db t) (hreturned : db.Returned) :
    (step panel input db t).1.Returned := by
  intro subject id user hentry
  rcases mem_log_step hentry with hold | ⟨subject', id', user', rfl, hrow, heq⟩ |
    ⟨id', user', rfl, heq⟩ | ⟨id', subject', rfl, heq⟩
  · exact hreturned subject id user hold
  · obtain ⟨rfl, rfl, rfl⟩ := Entry.provisioned.inj heq
    have hsubject : user.oidcSubject = some subject := ht.2 user hrow
    exact ⟨hsubject, (h.provider id user hrow).mpr (by simp [hsubject])⟩
  · cases heq
  · cases heq

/-! ### Callbacks leave accounts with passwords alone -/

/-- The request is a callback. -/
def Thread.ofCallback : Thread → Prop
  | .arrived (.callback _) => True
  | .committing _ (.provisioning _) => True
  | .naming _ _ _ => True
  | .refetching _ => True
  | .refreshing _ _ => True
  | .granting _ (.callback _) => True
  | _ => False

theorem kept_by_callback (h : db.Sound) (ht : Tied db t) (hcallback : t.ofCallback)
    (hrow : db.users.get? id = some user) (hprovider : user.authProvider = .password) :
    (step panel input db t).1.users.get? id = some user := by
  rcases step_users panel input db t with ⟨write, purpose, db', rfl, hcommit, hstep⟩ |
    ⟨husers, -, -⟩
  · rw [hstep]
    -- The row that is written belongs to a subject, so it is another one.
    have hne : id ≠ write.id := by
      rintro rfl
      cases purpose with
      | provisioning subject =>
        cases write with
        | insert id new => simp [Write.id, (commit_insert hcommit).2.1] at hrow
        | update id columns =>
          have hoidc := (h.provider id user hrow).mpr (by simp [ht.2 user hrow])
          rw [hprovider] at hoidc
          cases hoidc
        | delete id => exact ht.elim
      | change actor => exact hcallback.elim
      | wrongPassword => exact hcallback.elim
      | rightPassword user => exact hcallback.elim
    rw [get?_commit_of_ne hcommit hne]
    exact hrow
  · rw [husers]
    exact hrow

end

/-- The table is well formed all along, and every request knows its account. -/
theorem tied_kept (panel : Panel) {db : Database} (h : db.Sound) (hlog : db.log = [])
    (events : List (Event Request Input)) :
    Always (requests panel).next (Holds (fun db => db.Sound ∧ db.Returned) Tied) (opened db)
      events := by
  refine always_of_threads (G := fun _ _ => True) ?_ ?_ ?_ ⟨⟨h, ?_⟩, ?_⟩
    (guarded_iff.mpr fun _ _ _ _ => trivial)
  · intro p i request _ _
    trivial
  · intro p i input t hp _ ht
    have htied := hp.2 i t ht
    exact ⟨⟨sound_step hp.1.1 htied, returned_step hp.1.1 htied hp.1.2⟩,
      tied_step hp.1.1 htied⟩
  · intro p i input t j u hp _ _ _ hu
    exact (hp.2 j u hu).mono (follows_step panel input p.shared t)
  · intro subject id user hentry
    simp [opened, hlog] at hentry
  · intro i t ht
    simp [opened] at ht

/-! ## Disabled accounts -/

/-- The subject has an account, and it is disabled. -/
def Database.Disabled (db : Database) (subject : String) : Prop :=
  ∃ id user, db.users.get? id = some user ∧ user.oidcSubject = some subject ∧
    user.isActive = false

theorem provision_disabled {panel : Panel} {db : Database} {claims : PyJson} {subject : String}
    (h : db.Sound) (hsubject : subjectOf claims = some subject) (hdisabled : db.Disabled subject) :
    provision panel db claims = .answered (.refused 403) := by
  obtain ⟨id, user, hrow, hown, hinactive⟩ := hdisabled
  simp only [provision, hsubject]
  split
  next hnone =>
    have hmem := PyDict.get?_eq_some_iff.mp hrow
    have hmiss := find?_eq_none.mp hnone _ hmem
    simp [hown] at hmiss
  next id' user' hfind =>
    obtain ⟨hrow', hown'⟩ := find?_eq_some hfind
    obtain rfl := h.unique id id' user user' subject hrow hrow' hown (by simpa using hown')
    obtain rfl := some.inj (hrow.symm.trans hrow')
    simp [hinactive]

/-- The callback waits for its first step or was refused. -/
def Refused (i : Nat) (claims : PyJson) (p : Pool Database Thread) : Prop :=
  p.thread i = some (.arrived (.callback claims)) ∨
    p.thread i = some (.answered (.refused 403))

theorem refused_next {panel : Panel} {p : Pool Database Thread} {i : Nat} {claims : PyJson}
    {subject : String} (hp : Holds (fun db => db.Sound ∧ db.Returned) Tied p)
    (hsubject : subjectOf claims = some subject) (hdisabled : p.shared.Disabled subject)
    (h : Refused i claims p) (event : Event Request Input) :
    Refused i claims ((requests panel).next p event) := by
  cases event with
  | start j request =>
    cases hthread : p.thread j with
    | some t =>
      rw [next_start_of_some hthread]
      exact h
    | none =>
      rw [next_start hthread]
      have hne : i ≠ j := by
        rintro rfl
        simp [Refused, hthread] at h
      simpa only [Refused, Function.update_of_ne hne] using h
  | step j input =>
    cases hthread : p.thread j with
    | none =>
      rw [next_step_of_none hthread]
      exact h
    | some t =>
      rw [next_step hthread]
      by_cases hne : i = j
      · subst hne
        refine .inr ?_
        rcases h with harrived | hanswered
        · obtain rfl := some.inj (hthread.symm.trans harrived)
          simp [requests, step, arrive, provision_disabled hp.1.1 hsubject hdisabled]
        · obtain rfl := some.inj (hthread.symm.trans hanswered)
          simp [requests, step]
      · simpa only [Refused, Function.update_of_ne hne] using h

/-- A callback whose account is disabled throughout gets no session. -/
theorem refused_kept (panel : Panel) {subject : String} {claims : PyJson} {i : Nat}
    (hsubject : subjectOf claims = some subject) :
    ∀ {p : Pool Database Thread} {events : List (Event Request Input)},
      Always (requests panel).next (Holds (fun db => db.Sound ∧ db.Returned) Tied) p events →
      Always (requests panel).next (fun p => p.shared.Disabled subject) p events →
      Refused i claims p → Always (requests panel).next (Refused i claims) p events
  | _, [], _, _, h => h
  | _, event :: _, hp, hdisabled, h =>
    ⟨h, refused_kept panel hsubject hp.2 hdisabled.2
      (refused_next hp.head hsubject hdisabled.head h event)⟩

/-! ## Tokens -/

/-- None of the passwords fits the hash. -/
def Unknown (panel : Panel) (known : Set String) (hash : String) : Prop :=
  ∀ password ∈ known, panel.pwd.verify password hash = false

/-- The password that a request has checked. -/
def Request.presents : Request → Option String
  | .login _ password => some password
  | .changePassword _ current _ => some current
  | .changeUsername _ current _ => some current
  | _ => none

/-- Requests present known passwords, and none of these fits the hash of a secret that is
drawn. -/
def Unguessed (panel : Panel) (known : Set String) (p : Pool Database Thread) :
    Event Request Input → Prop
  | .start _ request => ∀ password, request.presents = some password → password ∈ known
  | .step i input => ∀ subject username role,
      p.thread i = some (.naming subject username role) →
        Unknown panel known (panel.pwd.hash input.secret input.salt)

/-- No change writes the password of an account of a subject. -/
def NotPatched (p : Pool Database Thread) : Event Request Input → Prop
  | .start _ _ => True
  | .step i _ => ∀ id columns actor,
      p.thread i = some (.committing (.update id columns) (.change actor)) →
        columns.passwordHash ≠ none →
        ∀ user, p.shared.users.get? id = some user → user.authProvider = .password

/-- No known password opens an account of a subject. -/
def Database.Unguessable (panel : Panel) (known : Set String) (db : Database) : Prop :=
  ∀ id user, db.users.get? id = some user → user.authProvider = .oidc →
    Unknown panel known user.passwordHash

/-- `login` gave tokens to accounts with passwords only. -/
def Database.LocalTokens (db : Database) : Prop :=
  ∀ id provider, .token id provider ∈ db.log → provider = .password

/-- A request is not about to give a token to the account of a subject, or to write its
password. -/
def Sealed (panel : Panel) (known : Set String) : Thread → Prop
  | .arrived request => ∀ password, request.presents = some password → password ∈ known
  | .authorized _ loaded request =>
    (∀ password, request.presents = some password → password ∈ known) ∧
      (loaded.authProvider = .oidc → Unknown panel known loaded.passwordHash)
  | .committing write (.rightPassword user) =>
    (∃ id columns, write = .update id columns ∧ columns.passwordHash = none) ∧
      user.authProvider = .password
  | .committing (.insert _ user) _ =>
    user.authProvider = .oidc → Unknown panel known user.passwordHash
  | .committing (.update _ _) (.change _) => True
  | .committing (.update _ columns) _ => columns.passwordHash = none
  | .granting _ (.login user) => user.authProvider = .password
  | _ => True

section

variable {panel : Panel} {known : Set String} {input : Input} {db db' : Database} {owned : Bool}
  {write : Write} {id : String} {user : AdminUser} {t : Thread}

/-- An account that a known password opens has no subject. -/
theorem password_of_verify (h : db.Unguessable panel known)
    (hrow : db.users.get? id = some user) {password : String} (hknown : password ∈ known)
    (hverify : panel.pwd.verify password user.passwordHash = true) :
    user.authProvider = .password := by
  cases hprovider : user.authProvider with
  | password => rfl
  | oidc =>
    have hunknown := h id user hrow hprovider password hknown
    rw [hverify] at hunknown
    cases hunknown

theorem sealed_authorize (h : db.Unguessable panel known) (actor : String) (superadmin : Bool)
    {request : Request} (hrequest : ∀ password, request.presents = some password →
      password ∈ known) :
    Sealed panel known (authorize db actor superadmin request) := by
  rw [authorize]
  split
  next => trivial
  next user hactive =>
    have hrow : db.users.get? actor = some user := (filter_eq_some_iff.mp hactive).1
    split
    · trivial
    · exact ⟨hrequest, h actor user hrow⟩

theorem sealed_login (h : db.Unguessable panel known) (username : String) {password : String}
    (hknown : password ∈ known) :
    Sealed panel known (login panel input db username password) := by
  rw [login]
  split
  next => trivial
  next id user hfind =>
    have hrow := (find?_eq_some hfind).1
    cases hcheck : loginCheck panel.pwd input.now password user with
    | locked => trivial
    | invalid =>
      have hhash : (user.failed input.now).passwordHash = user.passwordHash := by
        rw [AdminUser.failed]
        split <;> rfl
      simp [Sealed, UserUpdate.between, hhash]
    | passed =>
      have hverify := (loginCheck_eq_passed.mp hcheck).2
      refine ⟨⟨id, _, rfl, ?_⟩, password_of_verify h hrow hknown hverify⟩
      simp [UserUpdate.between, AdminUser.passed]

theorem sealed_provision (claims : PyJson) :
    Sealed panel known (provision panel db claims) := by
  rw [provision]
  split
  next => trivial
  next subject hsubject =>
    split
    next => trivial
    next id user hfind =>
      split
      · trivial
      · simp [Sealed, UserUpdate.between]

theorem sealed_arrive (h : db.Unguessable panel known) {request : Request}
    (hrequest : ∀ password, request.presents = some password → password ∈ known) :
    Sealed panel known (arrive panel input db request) := by
  cases request with
  | createUser actor username password role => exact sealed_authorize h actor _ hrequest
  | patchUser actor target role password isActive => exact sealed_authorize h actor _ hrequest
  | deleteUser actor target => exact sealed_authorize h actor _ hrequest
  | changePassword actor current new => exact sealed_authorize h actor _ hrequest
  | changeUsername actor current new => exact sealed_authorize h actor _ hrequest
  | login username password => exact sealed_login h username (hrequest password rfl)
  | callback claims => exact sealed_provision claims

theorem sealed_act (actor : String) (loaded : AdminUser) (request : Request) :
    Sealed panel known (act panel input db actor loaded request) := by
  cases request with
  | createUser actor' username password role =>
    simp only [act, createUser]
    repeat' split
    all_goals first | trivial | exact fun hoidc => nomatch hoidc
  | patchUser actor' target role password isActive =>
    rcases patchUser_cases panel input db actor loaded target role password isActive with
      ⟨answer, heq⟩ | ⟨row, user, new, -, -, heq, -, -⟩
    · simp [act, heq, Sealed]
    · simp [act, heq, Sealed]
  | deleteUser actor' target =>
    simp only [act, deleteUser]
    repeat' split
    all_goals trivial
  | changePassword actor' current new =>
    simp only [act, changePassword]
    repeat' split
    all_goals trivial
  | changeUsername actor' current new =>
    simp only [act, changeUsername]
    repeat' split
    all_goals trivial
  | login username password => trivial
  | callback claims => trivial

/-- A step of a request keeps it sealed; the secret of a new account is drawn in it. -/
theorem sealed_step (h : db.Unguessable panel known) (ht : Sealed panel known t)
    (hdrawn : ∀ subject username role, t = .naming subject username role →
      Unknown panel known (panel.pwd.hash input.secret input.salt)) :
    Sealed panel known (step panel input db t).2 := by
  cases t with
  | arrived request => exact sealed_arrive h ht
  | authorized actor loaded request => exact sealed_act actor loaded request
  | committing write purpose =>
    cases hcommit : db.commit input.owned write with
    | ok db' =>
      simp only [step, hcommit]
      cases purpose with
      | rightPassword user => exact ht.2
      | change actor => trivial
      | wrongPassword => trivial
      | provisioning subject => trivial
    | error error =>
      simp only [step, hcommit]
      cases purpose with
      | provisioning subject => cases error <;> trivial
      | change actor => trivial
      | wrongPassword => trivial
      | rightPassword user => trivial
  | naming subject username role => exact fun _ => hdrawn subject username role rfl
  | refetching subject =>
    simp only [step]
    split <;> trivial
  | refreshing subject id =>
    simp only [step]
    split <;> trivial
  | granting id grant =>
    simp only [step]
    split
    next => trivial
    next => cases grant <;> trivial
  | answered answer => trivial

/-- A commit that is not a change writes no password over an old one. -/
theorem passwordHash_of_sealed {purpose : Purpose} {columns : UserUpdate}
    (ht : Sealed panel known (.committing (.update id columns) purpose))
    (hpurpose : ∀ actor, purpose ≠ .change actor) : columns.passwordHash = none := by
  cases purpose with
  | change actor => exact absurd rfl (hpurpose actor)
  | wrongPassword => exact ht
  | provisioning subject => exact ht
  | rightPassword user =>
    obtain ⟨⟨id', columns', heq, hhash⟩, -⟩ := ht
    obtain ⟨-, rfl⟩ := Write.update.inj heq
    exact hhash

theorem unguessable_commit {purpose : Purpose} (h : db.Unguessable panel known)
    (ht : Sealed panel known (.committing write purpose))
    (hpatched : ∀ id columns actor, write = .update id columns → purpose = .change actor →
      columns.passwordHash ≠ none →
      ∀ user, db.users.get? id = some user → user.authProvider = .password)
    (hcommit : db.commit owned write = .ok db') : db'.Unguessable panel known := by
  intro other user hrow hoidc
  by_cases hne : other = write.id
  · subst hne
    cases write with
    | insert id new =>
      rw [Write.id, get?_commit_insert hcommit] at hrow
      obtain rfl := some.inj hrow
      cases purpose with
      | rightPassword loaded =>
        obtain ⟨⟨id', columns, heq, -⟩, -⟩ := ht
        cases heq
      | change actor => exact ht hoidc
      | wrongPassword => exact ht hoidc
      | provisioning subject => exact ht hoidc
    | update id columns =>
      rw [Write.id, get?_commit_update hcommit, map_eq_some_iff] at hrow
      obtain ⟨old, hold, rfl⟩ := hrow
      have hhash : columns.passwordHash = none := by
        by_contra hsome
        by_cases hpurpose : ∃ actor, purpose = .change actor
        · obtain ⟨actor, rfl⟩ := hpurpose
          have hlocal := hpatched id columns actor rfl rfl hsome old hold
          rw [apply_authProvider, hlocal] at hoidc
          cases hoidc
        · exact hsome (passwordHash_of_sealed ht fun actor heq => hpurpose ⟨actor, heq⟩)
      have hsame : (columns.apply old).passwordHash = old.passwordHash := by
        simp [UserUpdate.apply, hhash]
      rw [hsame]
      exact h id old hold hoidc
    | delete id =>
      rw [Write.id, get?_commit_delete hcommit] at hrow
      cases hrow
  · rw [get?_commit_of_ne hcommit hne] at hrow
    exact h other user hrow hoidc

theorem unguessable_step (h : db.Unguessable panel known) (ht : Sealed panel known t)
    (hpatched : ∀ id columns actor, t = .committing (.update id columns) (.change actor) →
      columns.passwordHash ≠ none →
      ∀ user, db.users.get? id = some user → user.authProvider = .password) :
    (step panel input db t).1.Unguessable panel known := by
  rcases step_users panel input db t with ⟨write, purpose, db', rfl, hcommit, hstep⟩ |
    ⟨husers, -, -⟩
  · rw [hstep]
    refine unguessable_commit h ht (fun id columns actor hwrite hpurpose => ?_) hcommit
    exact hpatched id columns actor (by rw [hwrite, hpurpose])
  · intro id user hrow
    rw [husers] at hrow
    exact h id user hrow

theorem localTokens_step (h : db.LocalTokens) (ht : Sealed panel known t) :
    (step panel input db t).1.LocalTokens := by
  intro id provider hentry
  rcases mem_log_step hentry with hold | ⟨subject, id', user, rfl, hrow, heq⟩ |
    ⟨id', user, rfl, heq⟩ | ⟨id', subject, rfl, heq⟩
  · exact h id provider hold
  · cases heq
  · obtain ⟨rfl, rfl⟩ := Entry.token.inj heq
    exact ht
  · cases heq

end

/-- Unless a password is set on an account of a subject, `login` gives tokens to accounts with
passwords only. -/
theorem localTokens_kept {panel : Panel} {known : Set String} {db : Database}
    (h : db.Unguessable panel known) (hlog : db.log = []) {events : List (Event Request Input)}
    (hguessed : Guarded (requests panel).next (Unguessed panel known) (opened db) events)
    (hpatched : Guarded (requests panel).next NotPatched (opened db) events) :
    Always (requests panel).next (fun p => p.shared.LocalTokens) (opened db) events := by
  have hboth := guarded_and.mp ⟨hguessed, hpatched⟩
  have hholds : Always (requests panel).next
      (Holds (fun db => db.Unguessable panel known ∧ db.LocalTokens)
        fun _ => Sealed panel known) (opened db) events := by
    refine always_of_threads ?_ ?_ ?_ ⟨⟨h, ?_⟩, ?_⟩ hboth
    · intro p i request _ hguard
      exact hguard.1
    · intro p i input t hp hguard ht
      have hsealed := hp.2 i t ht
      refine ⟨⟨unguessable_step hp.1.1 hsealed ?_, localTokens_step hp.1.2 hsealed⟩,
        sealed_step hp.1.1 hsealed ?_⟩
      · intro id columns actor heq
        exact hguard.2 id columns actor (by rw [ht, heq])
      · intro subject username role heq
        exact hguard.1 subject username role (by rw [ht, heq])
    · intro p i input t j u hp _ _ _ hu
      exact hp.2 j u hu
    · intro id provider hentry
      simp [opened, hlog] at hentry
    · intro i t ht
      simp [opened] at ht
  exact hholds.imp fun p hp => hp.1.2

/-! ## The claim -/

/-- A subject has one account at most. -/
def Database.OneAccount (db : Database) : Prop :=
  ∀ id id' user user' subject, db.users.get? id = some user → db.users.get? id' = some user' →
    user.oidcSubject = some subject → user'.oidcSubject = some subject → id = id'

/-- A step of a callback leaves every account with a password as it is. -/
def CallbacksLeave (panel : Panel) (p : Pool Database Thread) (event : Event Request Input) :
    Prop :=
  ∀ i input t, event = .step i input → p.thread i = some t → t.ofCallback →
    ∀ id user, p.shared.users.get? id = some user → user.authProvider = .password →
      ((requests panel).next p event).shared.users.get? id = some user

/-- In every run a subject has one account at most, `_provision_user` returns accounts of their
subjects only, callbacks leave accounts with passwords alone, and a callback whose account is
disabled throughout is refused.  When no password is set on an account of a subject, `login`
gives no such account a token. -/
theorem accounts_apart (panel : Panel) (db : Database) (h : db.Sound) (hlog : db.log = [])
    (events : List (Event Request Input)) :
    Always (requests panel).next (fun p => p.shared.OneAccount ∧ p.shared.Returned) (opened db)
        events ∧
      Guarded (requests panel).next (CallbacksLeave panel) (opened db) events ∧
      (∀ before after i claims subject, events = before ++ after →
        (final (requests panel).next (opened db) before).thread i =
          some (.arrived (.callback claims)) →
        subjectOf claims = some subject →
        Always (requests panel).next (fun p => p.shared.Disabled subject)
          (final (requests panel).next (opened db) before) after →
        Always (requests panel).next (Refused i claims)
          (final (requests panel).next (opened db) before) after) ∧
      ∀ known, db.Unguessable panel known →
        Guarded (requests panel).next (Unguessed panel known) (opened db) events →
        Guarded (requests panel).next NotPatched (opened db) events →
        Always (requests panel).next (fun p => p.shared.LocalTokens) (opened db) events := by
  have hkept := tied_kept panel h hlog events
  refine ⟨hkept.imp fun p hp => ⟨hp.1.1.unique, hp.1.2⟩, ?_, ?_, ?_⟩
  · refine guarded_iff.mpr fun before event after hevents => ?_
    rintro i input t rfl ht hcallback id user hrow hprovider
    have hp := always_iff.mp hkept before (.step i input :: after) hevents
    rw [next_step ht]
    exact kept_by_callback hp.1.1 (hp.2 i t ht) hcallback hrow hprovider
  · rintro before after i claims subject rfl hthread hsubject hdisabled
    exact refused_kept panel hsubject hkept.rest hdisabled (.inl hthread)
  · intro known hunguessable hguessed hpatched
    exact localTokens_kept hunguessable hlog hguessed hpatched

/-- The claims of a first login. -/
def newSubject : PyJson := .dict [("sub", .str "s-1")]

/-- A first login of a subject. -/
def firstLogin : List (Event Request Input) :=
  .start 0 (.callback newSubject) :: List.replicate 5 (.step 0 plainInput)

/-- The superadmin sets a password on the new account, and somebody logs in with it. -/
def patchedLogin : List (Event Request Input) :=
  firstLogin ++
    .start 1 (.patchUser "id-1" "id-2" none (some "new-password-1") none) ::
    List.replicate 3 (.step 1 plainInput) ++
    .start 2 (.login "oidc-user" "new-password-1") :: List.replicate 3 (.step 2 plainInput)

theorem installed_row {id : String} {user : AdminUser}
    (h : installed.users.get? id = some user) : id = "id-1" ∧ user = firstUser := by
  have hmem := PyDict.get?_eq_some_iff.mp h
  simpa [installed, PyDict.set, PyDict.empty, PyDict.insert] using hmem

theorem sound_installed : installed.Sound := by
  constructor
  · intro id user hrow
    rw [(installed_row hrow).1]
    decide
  · intro id user hrow
    rw [(installed_row hrow).2]
    decide
  · intro id id' user user' subject hrow hrow' _ _
    rw [(installed_row hrow).1, (installed_row hrow').1]

theorem unguessable_installed (known : Set String) : installed.Unguessable plainPanel known := by
  intro id user hrow hoidc
  rw [(installed_row hrow).2] at hoidc
  cases hoidc

/-- Requests whose passwords are known, and steps in which the same secret is drawn. -/
theorem unguessed_plain {known : Set String} {events : List (Event Request Input)} {db : Database}
    (hdrawn : Unknown plainPanel known "$2b$drawn")
    (hevents : ∀ event ∈ events, match event with
      | .start _ request => ∀ password, request.presents = some password → password ∈ known
      | .step _ input => input = plainInput) :
    Guarded (requests plainPanel).next (Unguessed plainPanel known) (opened db) events := by
  refine guarded_iff.mpr fun before event after heq => ?_
  have hevent := hevents event (by simp [heq])
  cases event with
  | start i request => exact hevent
  | step i input =>
    simp only at hevent
    rw [hevent]
    exact fun _ _ _ _ => hdrawn

/-- Somebody guesses at the password of the new account. -/
theorem accounts_apart_firstLogin :
    Always (requests plainPanel).next (fun p => p.shared.OneAccount ∧ p.shared.Returned)
        (opened installed) firstLogin ∧
      Always (requests plainPanel).next (fun p => p.shared.LocalTokens) (opened installed)
        firstLogin := by
  obtain ⟨hsound, -, -, htokens⟩ :=
    accounts_apart plainPanel installed sound_installed rfl firstLogin
  refine ⟨hsound, htokens {"guess"} (unguessable_installed _) (unguessed_plain ?_ ?_) ?_⟩
  · rintro password rfl
    decide
  · simp [firstLogin, Request.presents]
  · refine ⟨trivial, ?_, ?_, ?_, ?_, ?_, trivial⟩
    all_goals
      intro id columns actor hthread
      exact nomatch hthread

/-- A superadmin sets the password of an account of a subject, and `login` gives it a token. -/
theorem patched_account_logs_in :
    ¬∀ (panel : Panel) (db : Database) (known : Set String), db.Sound → db.log = [] →
      db.Unguessable panel known → ∀ events,
        Guarded (requests panel).next (Unguessed panel known) (opened db) events →
        Always (requests panel).next (fun p => p.shared.LocalTokens) (opened db) events := by
  intro hall
  have hguessed : Guarded (requests plainPanel).next (Unguessed plainPanel {"new-password-1"})
      (opened installed) patchedLogin := by
    refine unguessed_plain ?_ ?_
    · rintro password rfl
      decide
    · have hpassword : "new-password-1" ∈ ({"new-password-1"} : Set String) := rfl
      simp [patchedLogin, firstLogin, Request.presents, hpassword]
  have hlast := (hall plainPanel installed {"new-password-1"} sound_installed rfl
    (unguessable_installed _) patchedLogin hguessed).last
  have htoken : .token "id-2" .oidc ∈ (final (requests plainPanel).next (opened installed)
      patchedLogin).shared.log := by decide +kernel
  cases hlast "id-2" .oidc htoken

end Efdi.Admin

import Efdi.Admin.Requests

/-!
# The last superadmin

No request may leave the panel without an active superadmin.  The endpoints
compare the target of a change with its actor: a role of one's own is not
changed and one's own account is not deleted.  Neither covers
the activity of the account, and neither looks at the table when the change
commits.

A superadmin is left after every commit exactly when each commit that takes the
role or the activity from a superadmin, or the account, leaves another one
(`superadmin_kept_iff`).
-/

namespace Efdi.Admin

open Runs Interleaving

/-- An active account with the role. -/
def AdminUser.isSuperadmin (user : AdminUser) : Bool := user.isActive && user.role == .superadmin

/-- The account is an active superadmin. -/
def Database.superadmin (db : Database) (id : String) : Prop :=
  ∃ user, db.users.get? id = some user ∧ user.isSuperadmin = true

/-- There is an active superadmin. -/
def HasSuperadmin (p : Pool Database Thread) : Prop := ∃ id, p.shared.superadmin id

/-- The commit of a write takes the role, the activity or the account from a superadmin. -/
def Deposes (db : Database) (owned : Bool) : Write → Prop
  | .insert _ _ => False
  | .update id columns =>
    ∃ user, db.users.get? id = some user ∧ user.isSuperadmin = true ∧
      (columns.apply user).isSuperadmin = false ∧ db.conflicts id (columns.apply user) = false
  | .delete id => owned = false ∧ db.superadmin id

/-- The condition of a step: when a commit deposes a superadmin, there is another one. -/
def Spared (p : Pool Database Thread) : Event Request Input → Prop
  | .start _ _ => True
  | .step i input => ∀ write purpose, p.thread i = some (.committing write purpose) →
      Deposes p.shared input.owned write → ∃ other, other ≠ write.id ∧ p.shared.superadmin other

/-- A superadmin is deposed by another one who still is a superadmin at that moment. -/
def ByAnother (p : Pool Database Thread) : Event Request Input → Prop
  | .start _ _ => True
  | .step i input => ∀ write purpose, p.thread i = some (.committing write purpose) →
      Deposes p.shared input.owned write →
      ∃ actor, purpose = .change actor ∧ actor ≠ write.id ∧ p.shared.superadmin actor

section

variable {panel : Panel} {db db' : Database} {owned : Bool} {write : Write} {id : String}
  {p : Pool Database Thread} {event : Event Request Input}

theorem Spared.of_byAnother (h : ByAnother p event) : Spared p event := by
  cases event with
  | start i request => trivial
  | step i input =>
    intro write purpose hthread hdeposes
    obtain ⟨actor, -, hne, hactor⟩ := h write purpose hthread hdeposes
    exact ⟨actor, hne, hactor⟩

theorem superadmin_commit_of_ne (h : db.commit owned write = .ok db') {other : String}
    (hne : other ≠ write.id) : db'.superadmin other ↔ db.superadmin other := by
  rw [Database.superadmin, Database.superadmin, get?_commit_of_ne h hne]

/-- The account that a commit is about is a superadmin afterwards if it was and is not
deposed. -/
theorem superadmin_commit_self (h : db.commit owned write = .ok db')
    (hbefore : db.superadmin write.id) :
    db'.superadmin write.id ↔ ¬Deposes db owned write := by
  obtain ⟨user, hrow, hsuper⟩ := hbefore
  cases write with
  | insert id new =>
    have hnone := (commit_insert h).2.1
    rw [Write.id, hnone] at hrow
    cases hrow
  | update id columns =>
    simp only [Write.id] at hrow ⊢
    have hafter := get?_commit_update h
    rw [hrow, Option.map_some] at hafter
    rw [Database.superadmin, hafter]
    constructor
    · rintro ⟨new, hnew, hstill⟩ ⟨old, hold, -, hgone, -⟩
      obtain rfl := Option.some.inj hnew
      obtain rfl := Option.some.inj (hrow.symm.trans hold)
      rw [hstill] at hgone
      cases hgone
    · intro hkept
      refine ⟨_, rfl, ?_⟩
      by_contra hgone
      have hgone' := Bool.eq_false_iff.mpr hgone
      rcases commit_update h with ⟨rfl, -⟩ | ⟨old, hold, hfree, -⟩
      · rw [apply_nothing, hsuper] at hgone'
        cases hgone'
      · obtain rfl := Option.some.inj (hrow.symm.trans hold)
        exact hkept ⟨user, hrow, hsuper, hgone', hfree⟩
  | delete id =>
    simp only [Write.id] at hrow ⊢
    rw [Database.superadmin, get?_commit_delete h]
    constructor
    · rintro ⟨new, hnew, -⟩
      cases hnew
    · intro hkept
      exact absurd ⟨(commit_delete h).1, user, hrow, hsuper⟩ hkept

/-- A commit that fails deposes nobody. -/
theorem not_deposes_of_error {error : CommitError} (h : db.commit owned write = .error error) :
    ¬Deposes db owned write := by
  cases write with
  | insert id user => exact fun hdeposes => hdeposes
  | update id columns =>
    rintro ⟨user, hrow, hsuper, hgone, hfree⟩
    have hchanged : columns ≠ .nothing := by
      rintro rfl
      rw [apply_nothing, hsuper] at hgone
      cases hgone
    simp [Database.commit, if_neg hchanged, hrow, hfree] at h
  | delete id =>
    rintro ⟨howned, -⟩
    simp [Database.commit, howned] at h

/-- A commit leaves a superadmin exactly when it deposes nobody or another one is there. -/
theorem exists_superadmin_commit (h : db.commit owned write = .ok db')
    (hbefore : ∃ id, db.superadmin id) :
    (∃ id, db'.superadmin id) ↔
      (Deposes db owned write → ∃ other, other ≠ write.id ∧ db.superadmin other) := by
  constructor
  · rintro ⟨id, hid⟩ hdeposes
    have hne : id ≠ write.id := by
      rintro rfl
      have hself : db.superadmin write.id := by
        cases write with
        | insert id user => exact hdeposes.elim
        | update id columns =>
          obtain ⟨user, hrow, hsuper, -⟩ := hdeposes
          exact ⟨user, hrow, hsuper⟩
        | delete id => exact hdeposes.2
      exact (superadmin_commit_self h hself).mp hid hdeposes
    exact ⟨id, hne, (superadmin_commit_of_ne h hne).mp hid⟩
  · intro hspared
    by_cases hdeposes : Deposes db owned write
    · obtain ⟨other, hne, hother⟩ := hspared hdeposes
      exact ⟨other, (superadmin_commit_of_ne h hne).mpr hother⟩
    · obtain ⟨id, hid⟩ := hbefore
      by_cases hne : id = write.id
      · subst hne
        exact ⟨write.id, (superadmin_commit_self h hid).mpr hdeposes⟩
      · exact ⟨id, (superadmin_commit_of_ne h hne).mpr hid⟩

/-- One step. -/
theorem hasSuperadmin_next_iff (h : HasSuperadmin p) :
    HasSuperadmin ((requests panel).next p event) ↔ Spared p event := by
  cases event with
  | start i request =>
    cases ht : p.thread i with
    | some t => simpa [next_start_of_some ht, Spared] using h
    | none => simpa [next_start ht, Spared, HasSuperadmin] using h
  | step i input =>
    cases ht : p.thread i with
    | none =>
      rw [next_step_of_none ht]
      refine ⟨fun _ write purpose hthread => ?_, fun _ => h⟩
      rw [ht] at hthread
      cases hthread
    | some t =>
      rw [next_step ht]
      show (∃ id, (step panel input p.shared t).1.superadmin id) ↔ _
      rcases step_users panel input p.shared t with
        ⟨write, purpose, db', rfl, hcommit, hstep⟩ | ⟨husers, -, hfail⟩
      · rw [hstep, exists_superadmin_commit hcommit h]
        constructor
        · intro hspared write' purpose' hthread
          obtain ⟨rfl, -⟩ := Thread.committing.inj (Option.some.inj (ht.symm.trans hthread))
          exact hspared
        · intro hspared
          exact hspared write purpose ht
      · have hsame : (∃ id, (step panel input p.shared t).1.superadmin id) ↔
            ∃ id, p.shared.superadmin id := by
          simp only [Database.superadmin, husers]
        rw [hsame]
        constructor
        · intro _ write purpose hthread hdeposes
          obtain ⟨error, herror⟩ := hfail write purpose
            (Option.some.inj (ht.symm.trans hthread))
          exact absurd hdeposes (not_deposes_of_error herror)
        · exact fun _ => h

end

/-! ## The claim -/

/-- From a table with an active superadmin, there is one after every commit exactly when every
commit that deposes a superadmin leaves another one.  It does so when the actor of the change is
not its target and still is a superadmin when the change commits. -/
theorem superadmin_kept_iff (panel : Panel) (db : Database) (h : ∃ id, db.superadmin id)
    (events : List (Event Request Input)) :
    (Always (requests panel).next HasSuperadmin (opened db) events ↔
      Guarded (requests panel).next Spared (opened db) events) ∧
    (Guarded (requests panel).next ByAnother (opened db) events →
      Always (requests panel).next HasSuperadmin (opened db) events) := by
  have hiff : Always (requests panel).next HasSuperadmin (opened db) events ↔
      Guarded (requests panel).next Spared (opened db) events := by
    rw [always_iff_guarded]
    have hstart : HasSuperadmin (opened db) := h
    have hall : Guarded (requests panel).next (fun _ _ => True) (opened db) events :=
      guarded_iff.mpr fun _ _ _ _ => trivial
    have hcongr : Guarded (requests panel).next
        (fun p event => HasSuperadmin ((requests panel).next p event)) (opened db) events ↔
        Guarded (requests panel).next Spared (opened db) events :=
      guarded_congr_of (P := HasSuperadmin) (fun p event hp _ => hasSuperadmin_next_iff hp)
        (fun p event hp _ hspared => (hasSuperadmin_next_iff hp).mpr hspared) hstart hall
    exact ⟨fun hboth => hcongr.mp hboth.2, fun hspared => ⟨hstart, hcongr.mpr hspared⟩⟩
  exact ⟨hiff, fun hanother => hiff.mpr (hanother.imp fun _ _ => Spared.of_byAnother)⟩

/-- The first account of an installation. -/
def firstUser : AdminUser where
  username := "admin"
  passwordHash := "$2b$secret"
  role := .superadmin
  createdBy := some "install"
  isActive := true
  failedLogins := 0
  lockedUntil := none
  authProvider := .password
  oidcSubject := none

/-- A panel after its installation. -/
def installed : Database where
  users := PyDict.empty.set "id-1" firstUser
  issued := ["id-1"]
  log := []

def plainPanel : Panel where
  pwd := ⟨fun password _ => "$2b$" ++ password, fun password hash => hash == "$2b$" ++ password⟩
  roleMap := PyDict.empty
  defaultRole := .readonly
  groupsClaim := "groups"
  digest := fun _ => "0123456789abcdef"
  str := fun _ => ""

def plainInput : Input := ⟨0, "id-2", 0, "drawn", false⟩

/-- A request and its steps. -/
def alone (request : Request) : List (Event Request Input) :=
  .start 0 request :: List.replicate 3 (.step 0 plainInput)

/-- A panel with a second superadmin. -/
def twoSuperadmins : Database :=
  { installed with users := installed.users.set "id-2" { firstUser with username := "deputy" } }

/-- One of two superadmins deactivates the other. -/
theorem superadmin_kept_iff_deputy :
    Always (requests plainPanel).next HasSuperadmin (opened twoSuperadmins)
      (alone (.patchUser "id-1" "id-2" none none (some false))) := by
  refine (superadmin_kept_iff plainPanel twoSuperadmins
    ⟨"id-1", firstUser, by decide, by decide⟩ _).2 ⟨trivial, ?_, ?_, ?_, trivial⟩
  · intro write purpose hthread
    simp [Program.next, opened, requests] at hthread
  · intro write purpose hthread
    simp only [Program.next, opened, requests, step, arrive, authorize,
      Function.update_self, Option.some.injEq] at hthread
    split at hthread
    · cases hthread
    · split at hthread <;> cases hthread
  · intro write purpose hthread _
    have hcommitting : (final (requests plainPanel).next (opened twoSuperadmins)
        [.start 0 (.patchUser "id-1" "id-2" none none (some false)), .step 0 plainInput,
          .step 0 plainInput]).thread 0 =
        some (.committing (.update "id-2" { UserUpdate.nothing with isActive := some false })
          (.change "id-1")) := rfl
    obtain ⟨rfl, rfl⟩ := Thread.committing.inj (Option.some.inj (hcommitting.symm.trans hthread))
    exact ⟨"id-1", rfl, by decide, firstUser, by decide, by decide⟩

/-- The only superadmin deactivates its own account. -/
theorem own_account_deactivated :
    ¬∀ (panel : Panel) (db : Database), (∃ id, db.superadmin id) →
      ∀ events, Always (requests panel).next HasSuperadmin (opened db) events := by
  intro hall
  have hlast := (hall plainPanel installed ⟨"id-1", firstUser, by decide, by decide⟩
    (alone (.patchUser "id-1" "id-1" none none (some false)))).last
  obtain ⟨id, user, hrow, hsuper⟩ := hlast
  have hentries : (final (requests plainPanel).next (opened installed)
      (alone (.patchUser "id-1" "id-1" none none (some false)))).shared.users =
        PyDict.empty.set "id-1" { firstUser with isActive := false } := by decide +kernel
  rw [hentries] at hrow
  by_cases hid : id = "id-1"
  · subst hid
    rw [PyDict.get?_set_self] at hrow
    obtain rfl := Option.some.inj hrow
    exact absurd hsuper (by decide)
  · rw [PyDict.get?_set_of_ne _ hid] at hrow
    cases hrow

end Efdi.Admin

import Efdi.Admin.Superadmins
import Efdi.Admin.TokenLocks

/-!
# Password changes end sessions

The `UPDATE` of a password change works through the tokens that were committed
when it started.  It misses the tokens that are committed between its start and
the commit, and the token of a login that compared the old password and commits
after it.  Where no such token is committed (`InTime`), the tokens that are not
revoked all come from logins with the current password (`Current`), and so do
those that are exchanged (`sessions_ended`).
-/

namespace Efdi.Admin.Sessions

open Runs Interleaving

/-! ## Password changes -/

/-- The tokens that are not revoked come from logins with the current passwords. -/
def Current (store : Store) : Prop :=
  ∀ hash token, store.tokens.get? hash = some token → token.revoked = false →
    token.verified = store.changes token.userId

/-- Every exchange so far was of a token from a login with the password of then. -/
def Ended (store : Store) : Prop :=
  ∀ hash verified changes, .exchanged hash verified changes ∈ store.log → verified = changes

/-- The `UPDATE` of a password change has or will have all tokens of its account, and a rotation
makes a token of the same account and login. -/
def Covers (store : Store) : Thread → Prop
  | .revoking id _ rows marked => ∀ hash token, store.tokens.get? hash = some token →
      token.userId = id → token.revoked = false → hash ∈ rows ∨ hash ∈ marked
  | .rotated _ token _ row => row.userId = token.userId ∧ row.verified = token.verified
  | _ => True

/-- No password change of the account is at its `UPDATE` of the tokens. -/
def NoneRevoking (p : Pool Store Thread) (id : String) : Prop :=
  ∀ j columns rows marked, p.thread j ≠ some (.revoking id columns rows marked)

/-- A token is committed only while no password change of its account is between the start of its
`UPDATE` of the tokens and its commit, and by a login only if none was committed since it read
the account. -/
def InTime (p : Pool Store Thread) : Event Request Input → Prop
  | .start _ _ => True
  | .step i _ =>
    (∀ hash row, p.thread i = some (.granted hash row) →
      row.verified = p.shared.changes row.userId ∧ NoneRevoking p row.userId) ∧
    ∀ hash token newHash row, p.thread i = some (.rotated hash token newHash row) →
      NoneRevoking p token.userId

section

variable {panel : Panel} {input : Input} {store store' : Store} {t t' u waiting next : Thread}
  {hash other id : String} {columns : UserUpdate} {token : RefreshToken}

theorem unrevoked_of_revokeAll (hashes : List String) {tokens : PyDict String RefreshToken}
    (h : (revokeAll hashes tokens).get? hash = some token) (hfresh : token.revoked = false) :
    hash ∉ hashes ∧ tokens.get? hash = some token := by
  by_cases hmem : hash ∈ hashes
  · rw [get?_revokeAll_of_mem hmem, Option.map_eq_some_iff] at h
    obtain ⟨old, -, rfl⟩ := h
    cases hfresh
  · rw [get?_revokeAll_of_notMem hmem] at h
    exact ⟨hmem, h⟩

/-- A token that is not revoked after a step was so before, or was committed by the step. -/
theorem unrevoked_step (t : Thread)
    (h : (step panel input store t).1.tokens.get? hash = some token)
    (hfresh : token.revoked = false) :
    (store.tokens.get? hash = some token ∧
        ∀ id columns marked, t = .revoking id columns [] marked → hash ∉ marked) ∨
      t = .granted hash token ∨ ∃ old oldToken, t = .rotated old oldToken hash token := by
  cases hcommits : commits t with
  | false =>
    rw [(quiet_step hcommits).tokens] at h
    refine .inl ⟨h, fun id columns marked heq => ?_⟩
    rw [heq] at hcommits
    cases hcommits
  | true =>
    cases t with
    | granted new row =>
      by_cases hne : hash = new
      · subst hne
        rw [step, release_tokens, PyDict.get?_set_self] at h
        exact .inr (.inl (by rw [Option.some.inj h]))
      · rw [step, release_tokens, PyDict.get?_set_of_ne _ hne] at h
        exact .inl ⟨h, by simp⟩
    | disabling old oldToken =>
      rw [step, release_tokens] at h
      exact .inl ⟨(unrevoked_of_revokeAll [old] h hfresh).2, by simp⟩
    | rotated old oldToken new row =>
      by_cases hne : hash = new
      · subst hne
        rw [step, release_tokens, PyDict.get?_set_self] at h
        exact .inr (.inr ⟨old, oldToken, by rw [Option.some.inj h]⟩)
      · rw [step, release_tokens, PyDict.get?_set_of_ne _ hne] at h
        exact .inl ⟨(unrevoked_of_revokeAll [old] h hfresh).2, by simp⟩
    | left old updated =>
      cases updated with
      | false => exact .inl ⟨h, by simp⟩
      | true => exact .inl ⟨(unrevoked_of_revokeAll [old] h hfresh).2, by simp⟩
    | revoking id columns rows marked =>
      cases rows with
      | nil =>
        obtain ⟨hmem, hrow⟩ := unrevoked_of_revokeAll marked h hfresh
        refine .inl ⟨hrow, ?_⟩
        rintro id' columns' marked' heq
        obtain ⟨-, -, -, rfl⟩ := Thread.revoking.inj heq
        exact hmem
      | cons next rows => cases hcommits
    | _ => cases hcommits

/-- The count of password changes grows with the commits of password changes only. -/
theorem changes_step (panel : Panel) (input : Input) (store : Store) (t : Thread) :
    (step panel input store t).1.changes = store.changes ∨
      ∃ id columns marked, t = .revoking id columns [] marked ∧
        (step panel input store t).1.changes =
          Function.update store.changes id (store.changes id + 1) := by
  cases hcommits : commits t with
  | false => exact .inl (quiet_step hcommits).changes
  | true =>
    cases t with
    | revoking id columns rows marked =>
      cases rows with
      | nil => exact .inr ⟨id, columns, marked, rfl, rfl⟩
      | cons next rows => cases hcommits
    | left hash updated => cases updated <;> exact .inl rfl
    | granted hash row => exact .inl rfl
    | disabling hash token => exact .inl rfl
    | rotated hash token newHash row => exact .inl rfl
    | _ => cases hcommits

theorem current_step (h : Current store) (ht : Tied store t) (hcovers : Covers store t)
    (hgranted : ∀ hash row, t = .granted hash row → row.verified = store.changes row.userId) :
    Current (step panel input store t).1 := by
  intro hash token hrow hfresh
  rcases unrevoked_step t hrow hfresh with ⟨hold, hmissed⟩ | rfl | ⟨old, oldToken, rfl⟩
  · rcases changes_step panel input store t with hsame | ⟨id, columns, marked, rfl, hcount⟩
    · rw [hsame]
      exact h hash token hold hfresh
    · -- The tokens of the account were locked, and are revoked now.
      have hne : token.userId ≠ id := by
        intro heq
        rcases hcovers hash token hold heq hfresh with hrest | hmarked
        · cases hrest
        · exact hmissed id columns marked rfl hmarked
      rw [hcount, Function.update_of_ne hne]
      exact h hash token hold hfresh
  · exact hgranted hash token rfl
  · obtain ⟨⟨hspendable, hunspent⟩, -⟩ := ht.knows
    have hverified := h old oldToken hspendable hunspent
    rw [hcovers.2, hcovers.1]
    exact hverified

theorem ended_step (h : Ended store) (hcurrent : Current store) (ht : Tied store t) :
    Ended (step panel input store t).1 := by
  intro hash verified changes hentry
  rcases log_step panel input store t with hlog | ⟨old, token, newHash, row, rfl, hlog⟩ |
    ⟨old, updated, rfl, hlog⟩
  · rw [hlog] at hentry
    exact h hash verified changes hentry
  · rw [hlog] at hentry
    rcases List.mem_cons.mp hentry with heq | hmem
    · obtain ⟨rfl, rfl, rfl⟩ := Entry.exchanged.inj heq
      obtain ⟨⟨hspendable, hunspent⟩, -⟩ := ht.knows
      exact hcurrent hash token hspendable hunspent
    · exact h hash verified changes hmem
  · rw [hlog] at hentry
    rcases List.mem_cons.mp hentry with heq | hmem
    · cases heq
    · exact h hash verified changes hmem

theorem mem_tokensOf (h : store.tokens.get? hash = some token) :
    hash ∈ store.tokensOf token.userId := by
  refine List.mem_map.mpr ⟨(hash, token), List.mem_filter.mpr ⟨?_, by simp⟩, rfl⟩
  exact PyDict.get?_eq_some_iff.mp h

theorem covers_writeUser (hwait : ∀ store, Covers store waiting)
    (hnext : ∀ store, Covers store next) :
    Covers (writeUser store id columns waiting next).1
      (writeUser store id columns waiting next).2 := by
  rw [writeUser]
  split
  · exact hnext _
  · split
    · trivial
    · split
      · exact hwait _
      · exact hnext _

theorem covers_arrive (request : Request) :
    Covers (arrive panel input store request).1 (arrive panel input store request).2 := by
  cases request with
  | login username password =>
    simp only [arrive, login]
    split
    next => trivial
    next => split <;> trivial
  | refresh cookie =>
    cases cookie with
    | none => trivial
    | some cookie =>
      simp only [arrive, refresh]
      split
      next => trivial
      next =>
        split
        next => trivial
        next => split <;> trivial
  | logout cookie =>
    cases cookie with
    | none => trivial
    | some cookie =>
      simp only [arrive]
      split <;> trivial
  | changePassword actor current new =>
    simp only [arrive]
    split
    next => trivial
    next => split <;> trivial
  | patchUser actor target role password isActive =>
    simp only [arrive]
    split
    next => trivial
    next => split <;> trivial

theorem covers_patch (actor : String) (loaded : AdminUser) (request : Request) :
    Covers store (patch panel input store actor loaded request) := by
  cases request with
  | patchUser actor' target role password isActive =>
    simp only [patch]
    split <;> trivial
  | _ => trivial

/-- The `UPDATE` starts with all tokens of its account, and a row that it locks stays one that it
has. -/
theorem covers_step (h : Covers store t) :
    Covers (step panel input store t).1 (step panel input store t).2 := by
  cases t with
  | arrived request => exact covers_arrive request
  | compared id columns verified => exact covers_writeUser (fun _ => trivial) fun _ => trivial
  | counted id columns verified => cases verified <;> trivial
  | granting id verified =>
    simp only [step, insertToken]
    split <;> trivial
  | granted hash row => trivial
  | rejecting hash => trivial
  | locked hash token =>
    simp only [step]
    split <;> trivial
  | disabling hash token => trivial
  | rotating hash token =>
    simp only [step, insertToken]
    split
    · trivial
    · exact ⟨rfl, rfl⟩
  | rotated hash token newHash row => trivial
  | leaving hash token =>
    simp only [step]
    split
    next => trivial
    next => split <;> trivial
  | left hash updated => trivial
  | authorized actor loaded request => exact covers_patch actor loaded request
  | changing id columns revokes => exact covers_writeUser (fun _ => trivial) fun _ => trivial
  | changed id columns revokes =>
    cases revokes with
    | false => trivial
    | true =>
      rintro hash token hrow rfl _
      exact .inl (mem_tokensOf hrow)
  | revoking id columns rows marked =>
    cases rows with
    | nil => trivial
    | cons next rows =>
      simp only [step]
      split
      next => exact h
      next =>
        intro hash token hrow hown hfresh
        rcases h hash token hrow hown hfresh with hrest | hmarked
        · rcases List.mem_cons.mp hrest with rfl | hrows
          · exact .inr List.mem_cons_self
          · exact .inl hrows
        · exact .inr (.tail _ hmarked)
  | answered answer => trivial

/-- Nothing that the step commits is missed by the `UPDATE` of another request. -/
theorem Covers.mono (h : Covers store u)
    (hgranted : ∀ hash row, t = .granted hash row →
      ∀ columns rows marked, u ≠ .revoking row.userId columns rows marked)
    (hrotated : ∀ hash token newHash row, t = .rotated hash token newHash row →
      row.userId = token.userId ∧
        ∀ columns rows marked, u ≠ .revoking token.userId columns rows marked) :
    Covers (step panel input store t).1 u := by
  cases u with
  | revoking id columns rows marked =>
    intro hash token hrow hown hfresh
    rcases unrevoked_step t hrow hfresh with ⟨hold, -⟩ | heq | ⟨old, oldToken, heq⟩
    · exact h hash token hold hown hfresh
    · exact absurd (by rw [hown]) (hgranted hash token heq columns rows marked)
    · obtain ⟨hsame, hnone⟩ := hrotated old oldToken hash token heq
      exact absurd (by rw [← hsame, hown]) (hnone columns rows marked)
  | rotated hash token newHash row => exact h
  | _ => trivial

end

/-! ## The claim -/

/-- In every run a refresh token is exchanged once at most and never after its logout.  When all
tokens are committed in time, every token that is exchanged comes from a login with the password
of then. -/
theorem sessions_ended (panel : Panel) (store : Store) (hlog : store.log = [])
    (events : List (Event Request Input)) :
    Always (sessions panel).next (fun p => Once p.shared.log) (opened store) events ∧
      (Current store → Guarded (sessions panel).next InTime (opened store) events →
        Always (sessions panel).next (fun p => Ended p.shared) (opened store) events) := by
  have hlocking := locking_kept panel hlog events
  refine ⟨hlocking.imp fun p hp => hp.1.1.2, fun hcurrent hguard => ?_⟩
  have hboth : Guarded (sessions panel).next (fun p event => Locking p ∧ InTime p event)
      (opened store) events := by
    refine guarded_iff.mpr fun before event after hevents => ⟨?_, ?_⟩
    · exact always_iff.mp hlocking before (event :: after) hevents
    · exact guarded_iff.mp hguard before event after hevents
  have hholds : Always (sessions panel).next
      (Holds (fun store => Current store ∧ Ended store) Covers) (opened store) events := by
    refine always_of_threads ?_ ?_ ?_ ⟨⟨hcurrent, ?_⟩, ?_⟩ hboth
    · intro p i request _ _
      trivial
    · intro p i input t hp hstep ht
      obtain ⟨hlocks, hguard⟩ := hstep
      have htied := hlocks.1.2 i t ht
      refine ⟨⟨current_step hp.1.1 htied (hp.2 i t ht) ?_, ended_step hp.1.2 hp.1.1 htied⟩,
        covers_step (hp.2 i t ht)⟩
      intro hash row heq
      exact (hguard.1 hash row (by rw [ht, heq])).1
    · intro p i input t j u hp hstep ht hij hu
      refine (hp.2 j u hu).mono ?_ ?_
      · intro hash row heq columns rows marked hrevoking
        exact (hstep.2.1 hash row (by rw [ht, heq])).2 j columns rows marked (by rw [hu, hrevoking])
      · intro hash token newHash row heq
        have hcovers := hp.2 i t ht
        rw [heq] at hcovers
        refine ⟨hcovers.1, fun columns rows marked hrevoking => ?_⟩
        exact hstep.2.2 hash token newHash row (by rw [ht, heq]) j columns rows marked
          (by rw [hu, hrevoking])
    · intro hash verified changes hentry
      simp [opened, hlog] at hentry
    · intro i t ht
      simp [opened] at ht
  exact hholds.imp fun p hp => hp.1.2

/-- A panel whose tokens are their own hashes. -/
def rawPanel : Panel := { plainPanel with digest := fun raw => raw }

/-- A panel after its installation, without sessions. -/
def installed : Store where
  users := PyDict.empty.set "id-1" firstUser
  changes := fun _ => 0
  lockedUsers := []
  tokens := PyDict.empty
  lockedTokens := []
  log := []

def drawing (secret : String) : Input := { plainInput with secret }

/-- A login. -/
def loginAlone : List (Event Request Input) :=
  .start 0 (.login "admin" "secret") :: List.replicate 5 (.step 0 (drawing "t-1"))

theorem current_installed : Current installed := by
  intro hash token hrow
  cases hrow

/-- A login without password changes. -/
theorem sessions_ended_login :
    Always (sessions rawPanel).next (fun p => Ended p.shared) (opened installed) loginAlone := by
  refine (sessions_ended rawPanel installed rfl loginAlone).2 current_installed
    ⟨trivial, ?_, ?_, ?_, ?_, ?_, trivial⟩
  · exact ⟨fun _ _ h => (nomatch h), fun _ _ _ _ h => (nomatch h)⟩
  · exact ⟨fun _ _ h => (nomatch h), fun _ _ _ _ h => (nomatch h)⟩
  · exact ⟨fun _ _ h => (nomatch h), fun _ _ _ _ h => (nomatch h)⟩
  · exact ⟨fun _ _ h => (nomatch h), fun _ _ _ _ h => (nomatch h)⟩
  · refine ⟨fun hash row h => ?_, fun _ _ _ _ h => (nomatch h)⟩
    obtain ⟨-, rfl⟩ := Thread.granted.inj (Option.some.inj h)
    refine ⟨rfl, fun j columns rows marked hrevoking => ?_⟩
    match j with
    | 0 => exact nomatch hrevoking
    | j + 1 => exact nomatch hrevoking

/-- A login verifies the password, the password is changed, and only then does the login insert
its token, which is exchanged. -/
def overtakenLogin : List (Event Request Input) :=
  [.start 0 (.login "admin" "secret"), .step 0 (drawing "t-1"),
    .start 1 (.changePassword "id-1" "secret" "new-password-1")] ++
  List.replicate 4 (.step 1 (drawing "t-1")) ++ List.replicate 4 (.step 0 (drawing "t-1")) ++
  .start 2 (.refresh (some "t-1")) :: List.replicate 4 (.step 2 (drawing "t-2"))

/-- The token of a login with the old password is exchanged after the change. -/
theorem old_session_continues :
    ¬∀ (panel : Panel) (store : Store), store.log = [] → Current store → ∀ events,
      Always (sessions panel).next (fun p => Once p.shared.log ∧ Ended p.shared) (opened store)
        events := by
  intro hall
  have hlast := (hall rawPanel installed rfl current_installed overtakenLogin).last.2
  have hentry : .exchanged "t-1" 0 1 ∈ (final (sessions rawPanel).next (opened installed)
      overtakenLogin).shared.log := by decide +kernel
  cases hlast "t-1" 0 1 hentry

end Efdi.Admin.Sessions

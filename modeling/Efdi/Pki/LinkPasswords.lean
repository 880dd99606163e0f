import Efdi.Pki.Decommission

/-!
# Link passwords and their hashes

The password of a child stands in the file and its hash in a row.  `enroll_router` and
`rotate_link_credential` write the file first and commit then.  When the commit fails,
`enroll_router` takes the password out again, of an authority that no row is about.
`rotate_link_credential` does not, so the file has a password that the row does not know
(`rotated_alone`).

The two stay together in every run in which the rotations that are written are committed
(`passwords_match`).
-/

namespace Efdi.Pki

open Checks List PyDict
open Runs (final Always Guarded)
open Trust

variable {S : Setting} {host : Host S.libs}

/-- The password in the file of every child with an active link credential is the one whose hash the
credential has. -/
def PasswordsMatch (S : Setting) (s : State) : Prop :=
  ∀ c ∈ s.db.credentials, c.state = .active → ∃ secret salt,
    s.secrets.get? c.authorityId = some secret ∧
      c.passwordHash = S.pwdCtx.hash secret.password salt

/-- Credentials are unique, one to an authority that was there, and their passwords match. -/
structure Paired (S : Setting) (s : State) : Prop where
  ids : ∀ c ∈ s.db.credentials, c.id < s.db.nextId ∧ c.authorityId < s.db.nextId
  distinct : ∀ c ∈ s.db.credentials, ∀ c' ∈ s.db.credentials, c.id = c'.id → c = c'
  single : ∀ c ∈ s.db.credentials, ∀ c' ∈ s.db.credentials, c.authorityId = c'.authorityId → c = c'
  matching : PasswordsMatch S s

/-! ## Changes that leave the credentials -/

variable {db : Db} {s : State}

theorem Bootstraps.credentials {L : Libs} {db' : Db} (h : Bootstraps L db db') :
    db'.credentials = db.credentials ∧ db.nextId ≤ db'.nextId := by
  induction h with
  | same => exact ⟨rfl, le_rfl⟩
  | root => exact ⟨rfl, Nat.le_succ _⟩
  | renamed => exact ⟨rfl, le_rfl⟩
  | accepted haccepted =>
    rw [haccepted.db_eq]
    exact ⟨rfl, Nat.le_add_right _ _⟩
  | trans _ _ ih₁ ih₂ => exact ⟨ih₂.1.trans ih₁.1, ih₁.2.trans ih₂.2⟩

/-- The tables change beside the credentials, and the file beside their authorities. -/
theorem Paired.frame {s s' : State} (h : Paired S s)
    (hcredentials : s'.db.credentials = s.db.credentials) (hnext : s.db.nextId ≤ s'.db.nextId)
    (hsecrets : ∀ id < s.db.nextId, s'.secrets.get? id = s.secrets.get? id) : Paired S s' := by
  have hmatching : PasswordsMatch S s' := by
    intro c hc hstate
    rw [hcredentials] at hc
    rw [hsecrets _ (h.ids c hc).2]
    exact h.matching c hc hstate
  constructor
  case ids =>
    intro c hc
    rw [hcredentials] at hc
    have hlt := h.ids c hc
    omega
  case distinct =>
    rw [hcredentials]
    exact h.distinct
  case single =>
    rw [hcredentials]
    exact h.single
  case matching => exact hmatching

theorem Paired.ensured (h : Paired S s) {own : TrustAuthority}
    (hlocal : ensureLocalAuthority S.libs S.env host s.db = .ok (db, own)) :
    Paired S { s with db := db } :=
  have hdb := (bootstraps_ensureLocalAuthority hlocal).credentials
  h.frame hdb.1 hdb.2 fun _ _ => rfl

/-- Changing the states of credentials that are not made active. -/
theorem Paired.revoke (h : Paired S s) (hnext : s.db.nextId ≤ db.nextId)
    {f : LinkCredential → LinkCredential} (hdb : db.credentials = s.db.credentials.map f)
    (hf : ∀ c, f c = c ∨ f c = { c with state := .revoked }) : Paired S { s with db := db } := by
  have hsame : ∀ c, (f c).id = c.id ∧ (f c).authorityId = c.authorityId := by
    intro c
    rcases hf c with heq | heq <;> rw [heq] <;> exact ⟨rfl, rfl⟩
  have hmem : ∀ c ∈ db.credentials, ∃ old ∈ s.db.credentials, f old = c := by
    intro c hc
    rw [hdb] at hc
    exact mem_map.mp hc
  constructor
  case ids =>
    intro c hc
    obtain ⟨old, hold, rfl⟩ := hmem c hc
    rw [(hsame old).1, (hsame old).2]
    have hlt := h.ids old hold
    exact ⟨lt_of_lt_of_le hlt.1 hnext, lt_of_lt_of_le hlt.2 hnext⟩
  case distinct =>
    intro c hc c' hc' hid
    obtain ⟨old, hold, rfl⟩ := hmem c hc
    obtain ⟨old', hold', rfl⟩ := hmem c' hc'
    rw [(hsame old).1, (hsame old').1] at hid
    rw [h.distinct old hold old' hold' hid]
  case single =>
    intro c hc c' hc' hid
    obtain ⟨old, hold, rfl⟩ := hmem c hc
    obtain ⟨old', hold', rfl⟩ := hmem c' hc'
    rw [(hsame old).2, (hsame old').2] at hid
    rw [h.single old hold old' hold' hid]
  case matching =>
    intro c hc hstate
    obtain ⟨old, hold, rfl⟩ := hmem c hc
    rcases hf old with heq | heq
    · rw [heq] at hstate ⊢
      exact h.matching old hold hstate
    · rw [heq] at hstate
      cases hstate

/-! ## Enrolling -/

theorem unique_append {α : Type} {key : α → Nat} {rows : List α} {row : α}
    (h : ∀ a ∈ rows, ∀ b ∈ rows, key a = key b → a = b) (hlt : ∀ a ∈ rows, key a < key row) :
    ∀ a ∈ rows ++ [row], ∀ b ∈ rows ++ [row], key a = key b → a = b := by
  intro a ha b hb heq
  rcases mem_append.mp ha with haold | hanew
  · rcases mem_append.mp hb with hbold | hbnew
    · exact h a haold b hbold heq
    · rw [mem_singleton.mp hbnew] at heq
      exact absurd heq (Nat.ne_of_lt (hlt a haold))
  · rw [mem_singleton.mp hanew] at heq ⊢
    rcases mem_append.mp hb with hbold | hbnew
    · exact absurd heq.symm (Nat.ne_of_lt (hlt b hbold))
    · exact (mem_singleton.mp hbnew).symm

theorem Paired.enrolled (h : Paired S s) {draws : Draws} {request : EnrollmentIn}
    {issuer : TrustAuthority} {invitation : PkiInvitation} {p : Prepared}
    (hprepare : prepare S host draws request issuer invitation s.db = .ok p)
    {result : State × Except Failure Bundle} (hresult : Finished S host p s result) :
    Paired S result.1 := by
  obtain ⟨db', _, _, _, credential, _, _, hok⟩ := prepare_ok hprepare
  have hnew : p.authority.id = s.db.nextId := hok.accepted.authority_id
  have hnext : db'.nextId = s.db.nextId + 2 := by rw [hok.accepted.db_eq]
  have hrows : p.db.credentials = s.db.credentials ++ [credential] := by
    rw [hok.db_eq, hok.accepted.db_eq]
    rfl
  have hlast : p.db.nextId = s.db.nextId + 6 := by
    rw [hok.db_eq]
    show db'.nextId + 4 = s.db.nextId + 6
    omega
  have hbeside : ∀ id < s.db.nextId, id ≠ p.authority.id := fun id hlt => by omega
  cases hresult with
  | notWritten =>
    exact h.frame rfl (show s.db.nextId ≤ p.db.nextId by omega) fun _ _ => rfl
  | notCommitted =>
    refine h.frame rfl (show s.db.nextId ≤ p.db.nextId by omega) fun id hlt => ?_
    dsimp only
    split
    · rw [get?_pop_of_ne _ (hbeside id hlt), get?_set_of_ne _ (hbeside id hlt)]
    · rw [get?_set_of_ne _ (hbeside id hlt)]
  | committed _ _ _ heq =>
    subst heq
    have hids := h.ids
    have hid := hok.credential_id
    have howner := hok.credential_owner
    constructor
    case ids =>
      intro c hc
      show c.id < p.db.nextId ∧ c.authorityId < p.db.nextId
      rcases mem_append.mp (hrows ▸ hc) with hc | hc
      · have hlt := hids c hc
        omega
      · obtain rfl := mem_singleton.mp hc
        omega
    case distinct =>
      show ∀ c ∈ p.db.credentials, ∀ c' ∈ p.db.credentials, c.id = c'.id → c = c'
      rw [hrows]
      refine unique_append h.distinct fun c hc => ?_
      have hlt := hids c hc
      omega
    case single =>
      show ∀ c ∈ p.db.credentials, ∀ c' ∈ p.db.credentials, c.authorityId = c'.authorityId → c = c'
      rw [hrows]
      refine unique_append h.single fun c hc => ?_
      have hlt := hids c hc
      omega
    case matching =>
      intro c hc hstate
      rcases mem_append.mp (hrows ▸ hc) with hc | hc
      · have hsame := get?_set_of_ne s.secrets (hbeside _ (hids c hc).2) p.secret
        rw [hsame]
        exact h.matching c hc hstate
      · obtain rfl := mem_singleton.mp hc
        refine ⟨p.secret, draws.credentialSalt, ?_, hok.credential_hash⟩
        rw [howner, get?_set_self]

theorem paired_enrollRouter (h : Paired S s) (draws : Draws) (request : EnrollmentIn) :
    Paired S (enrollRouter S host draws request s).1 := by
  have hcases : Enrolled S host draws request s _ := enrollRouter_enrolled draws request s
  generalize enrollRouter S host draws request s = result at hcases ⊢
  cases hcases with
  | noAuthority => exact h
  | unknown hlocal => exact h.ensured hlocal
  | repeated hlocal => exact h.ensured hlocal
  | otherKeys hlocal => exact h.ensured hlocal
  | refused hlocal => exact h.ensured hlocal
  | finished hlocal _ _ hprepare hfinished =>
    exact (h.ensured hlocal).enrolled hprepare hfinished

/-! ## Rotating -/

/-- The rotation passes every check, so that it writes. -/
def rotationWrites (S : Setting) (s : State) (event : Event S) : Bool :=
  match event.operation with
  | .rotateLink authorityId _ =>
    match ensureLocalAuthority S.libs S.env event.host s.db with
    | .error _ => false
    | .ok (db, own) =>
      match rotationTarget { s with db := db } own.id authorityId with
      | .error _ => false
      | .ok _ => event.host.writes.put
  | _ => false

/-- A rotation that writes the file is committed. -/
def RotationCommits (S : Setting) (s : State) (event : Event S) : Prop :=
  rotationWrites S s event = true → event.host.writes.commit = true

instance (S : Setting) (s : State) (event : Event S) : Decidable (RotationCommits S s event) :=
  inferInstanceAs (Decidable (_ → _))

/-- A rotation that is committed changes the credential of an authority and its password. -/
theorem Paired.rotate (h : Paired S s) {authority : TrustAuthority} {credential : LinkCredential}
    (hmem : credential ∈ s.db.credentials) (howner : credential.authorityId = authority.id)
    (draws : Draws) :
    Paired S { s with
      db := { s.db with credentials := s.db.credentials.map fun c =>
        if c.id = credential.id then rotatedCredential S host authority credential draws else c }
      secrets := s.secrets.set authority.id ⟨credential.username, draws.password⟩ } := by
  have hrow : ∀ c ∈ s.db.credentials.map (fun c =>
      if c.id = credential.id then rotatedCredential S host authority credential draws else c),
      ∃ old ∈ s.db.credentials, c.id = old.id ∧ c.authorityId = old.authorityId ∧
        (old = credential ∧ c = rotatedCredential S host authority credential draws ∨
          old ≠ credential ∧ c = old) := by
    intro c hc
    obtain ⟨old, hold, rfl⟩ := mem_map.mp hc
    refine ⟨old, hold, ?_⟩
    split
    next hid =>
      obtain rfl := h.distinct old hold credential hmem hid
      exact ⟨rfl, rfl, .inl ⟨rfl, rfl⟩⟩
    next hid =>
      refine ⟨rfl, rfl, .inr ⟨?_, rfl⟩⟩
      rintro rfl
      exact hid rfl
  have hsame : ∀ {c c' old old' : LinkCredential}, old = old' →
      (old = credential ∧ c = rotatedCredential S host authority credential draws ∨
        old ≠ credential ∧ c = old) →
      (old' = credential ∧ c' = rotatedCredential S host authority credential draws ∨
        old' ≠ credential ∧ c' = old') → c = c' := by
    rintro c c' old _ rfl (⟨hold, hc⟩ | ⟨hold, hc⟩) (⟨hold', hc'⟩ | ⟨hold', hc'⟩)
    · rw [hc, hc']
    · exact absurd hold hold'
    · exact absurd hold' hold
    · rw [hc, hc']
  constructor
  case ids =>
    intro c hc
    obtain ⟨old, hold, hid, hauthority, -⟩ := hrow c hc
    rw [hid, hauthority]
    exact h.ids old hold
  case distinct =>
    intro c hc c' hc' heq
    obtain ⟨old, hold, hid, -, hwhich⟩ := hrow c hc
    obtain ⟨old', hold', hid', -, hwhich'⟩ := hrow c' hc'
    rw [hid, hid'] at heq
    exact hsame (h.distinct old hold old' hold' heq) hwhich hwhich'
  case single =>
    intro c hc c' hc' heq
    obtain ⟨old, hold, -, hauthority, hwhich⟩ := hrow c hc
    obtain ⟨old', hold', -, hauthority', hwhich'⟩ := hrow c' hc'
    rw [hauthority, hauthority'] at heq
    exact hsame (h.single old hold old' hold' heq) hwhich hwhich'
  case matching =>
    intro c hc hstate
    obtain ⟨old, hold, -, hauthority, ⟨-, hc⟩ | ⟨hne, hc⟩⟩ := hrow c hc
    · rw [hc]
      refine ⟨⟨credential.username, draws.password⟩, draws.credentialSalt, ?_, rfl⟩
      show (s.secrets.set authority.id _).get? credential.authorityId = _
      rw [howner, get?_set_self]
    · rw [hc] at hstate ⊢
      have hother : old.authorityId ≠ authority.id := fun heq =>
        hne (h.single old hold credential hmem (heq.trans howner.symm))
      show ∃ secret salt, (s.secrets.set authority.id _).get? old.authorityId = some secret ∧ _
      rw [get?_set_of_ne _ hother]
      exact h.matching old hold hstate

theorem paired_rotateLinkCredential (h : Paired S s) (authorityId : Nat) (draws : Draws)
    (hcommits : RotationCommits S s ⟨host, .rotateLink authorityId draws⟩) :
    Paired S (rotateLinkCredential S host authorityId draws s).1 := by
  unfold RotationCommits rotationWrites at hcommits
  unfold rotateLinkCredential
  cases hlocal : ensureLocalAuthority S.libs S.env host s.db with
  | error e => exact h
  | ok result =>
    obtain ⟨db, own⟩ := result
    have hensured := h.ensured hlocal
    simp only [hlocal] at hcommits
    dsimp only
    cases htarget : rotationTarget { s with db := db } own.id authorityId with
    | error e => exact hensured
    | ok target =>
      obtain ⟨authority, credential⟩ := target
      obtain ⟨hmem, howner⟩ := rotationTarget_ok htarget
      simp only [htarget] at hcommits
      dsimp only
      unfold rotateCredential
      cases hput : host.writes.put with
      | false => exact hensured
      | true =>
        rw [hput] at hcommits
        rw [hcommits rfl]
        exact hensured.rotate hmem howner draws

/-! ## Runs -/

theorem paired_manage (h : Paired S s) {op : Db → Nat → Except LifecycleError Db}
    (hop : ∀ {db localId db'}, op db localId = .ok db' → db.nextId ≤ db'.nextId ∧
      ∃ f : LinkCredential → LinkCredential, db'.credentials = db.credentials.map f ∧
        ∀ c, f c = c ∨ f c = { c with state := .revoked }) :
    Paired S (manage S host op s).1 := by
  unfold manage
  cases hlocal : ensureLocalAuthority S.libs S.env host s.db with
  | error e => exact h
  | ok result =>
    obtain ⟨db, own⟩ := result
    have hensured := h.ensured hlocal
    dsimp only
    cases hresult : op db own.id with
    | error e => exact hensured
    | ok db' =>
      obtain ⟨hnext, f, hmap, hf⟩ := hop hresult
      cases host.writes.commit with
      | true => exact hensured.revoke hnext hmap hf
      | false => exact hensured.frame rfl hnext fun _ _ => rfl

theorem paired_createInvitation (h : Paired S s) (request : InvitationIn) (token : String) :
    Paired S (createInvitation S host request token s).1 := by
  unfold createInvitation
  cases hlocal : ensureLocalAuthority S.libs S.env host s.db with
  | error e => exact h
  | ok result =>
    obtain ⟨db, issuer⟩ := result
    have hensured := h.ensured hlocal
    dsimp only
    cases invitedNamespace S host request issuer db with
    | error e => exact hensured
    | ok namespace_ =>
      dsimp only
      cases host.writes.commit with
      | true => exact hensured.frame rfl (Nat.le_succ _) fun _ _ => rfl
      | false => exact hensured.frame rfl (Nat.le_succ _) fun _ _ => rfl

theorem map_self {α : Type} (rows : List α) : rows = rows.map fun a => a := (map_id' rows).symm

theorem paired_step (h : Paired S s) (event : Event S) (hcommits : RotationCommits S s event) :
    Paired S (step S s event) := by
  obtain ⟨host, operation⟩ := event
  cases operation with simp only [step]
  | createInvitation request token => exact paired_createInvitation h request token
  | enroll draws request => exact paired_enrollRouter h draws request
  | quarantine id =>
    refine paired_manage h fun hresult => ?_
    obtain ⟨_, _, _, rfl⟩ := quarantineAuthority_ok hresult
    exact ⟨le_rfl, fun c => c, map_self _, fun _ => .inl rfl⟩
  | restore id =>
    refine paired_manage h fun hresult => ?_
    obtain ⟨_, _, _, rfl⟩ := restoreAuthority_ok hresult
    exact ⟨le_rfl, fun c => c, map_self _, fun _ => .inl rfl⟩
  | decommission id reason =>
    refine paired_manage h fun hresult => ?_
    obtain ⟨authority, _, hdone⟩ := decommissionAuthority_ok hresult
    refine ⟨hdone.nextId ▸ Nat.le_succ _, _, hdone.credentials, fun c => ?_⟩
    split
    next => exact .inr rfl
    next => exact .inl rfl
  | rotateLink id draws => exact paired_rotateLinkCredential h id draws hcommits

/-- In every run from a store without link credentials, in which every rotation that writes the file
is committed, the passwords in the file match the hashes in the rows after every operation. -/
theorem passwords_match (S : Setting) (start : State) (hstart : start.db.credentials = [])
    (events : List (Event S)) (hcommits : Guarded (step S) (RotationCommits S) start events) :
    Always (step S) (PasswordsMatch S) start events := by
  have hnone : ∀ c, c ∉ start.db.credentials := by simp [hstart]
  have hpaired : Paired S start :=
    ⟨fun c hc => absurd hc (hnone c), fun c hc => absurd hc (hnone c),
      fun c hc => absurd hc (hnone c), fun c hc => absurd hc (hnone c)⟩
  exact (Runs.always_of_guarded (P := Paired S) (fun _ event h hc => paired_step h event hc) hpaired
    hcommits).imp fun _ h => h.matching

/-! ## A rotation -/

namespace Family

/-- The child is enrolled, and its password is rotated. -/
def rotation (writes : Writes) : List (Event setting) :=
  [⟨hostWith written, .createInvitation invitation (token 'a')⟩,
    ⟨hostWith written, .enroll (draws "old") (enrolment (token 'a') len_token)⟩,
    ⟨hostWith writes, .rotateLink 2 (draws "new")⟩]

theorem rotation_matches :
    ((final (step setting) start (rotation written)).secrets.get? 2).map (·.password) =
        some "new" ∧
      Always (step setting) (PasswordsMatch setting) start (rotation written) := by
  have hrun : ((final (step setting) start (rotation written)).secrets.get? 2).map (·.password) =
        some "new" ∧
      Guarded (step setting) (RotationCommits setting) start (rotation written) := by
    decide +kernel
  exact ⟨hrun.1, passwords_match setting start rfl (rotation written) hrun.2⟩

/-- A rotation whose commit fails leaves the new password in the file and the old hash in the row. -/
theorem rotated_alone :
    ¬PasswordsMatch setting (final (step setting) start (rotation uncommitted)) := by
  intro h
  have hrow : ∃ c ∈ (final (step setting) start (rotation uncommitted)).db.credentials,
      c.state = .active ∧ c.passwordHash = "old$0" ∧
        ((final (step setting) start (rotation uncommitted)).secrets.get? c.authorityId).map
          (·.password) = some "new" := by
    decide +kernel
  obtain ⟨c, hc, hstate, hhash, hfile⟩ := hrow
  obtain ⟨secret, salt, hsecret, hmatch⟩ := h c hc hstate
  rw [hsecret] at hfile
  have hpassword : secret.password = "new" := Option.some.inj hfile
  rw [hhash, hpassword] at hmatch
  have hfirst := congrArg (fun text => text.toList.head?) hmatch
  revert hfirst
  simp [setting]

end Family

end Efdi.Pki

import Efdi.Pki.Enrolment

/-!
# Decommissioning is irreversible

Every operation but decommissioning only adds rows of authorities that were not there, and changes
rows of authorities that are not decommissioned (`Grows`).  `accept_delegation` refuses an identity
that is there whatever its state is, so an older invitation does not bring it back.  Decommissioning
revokes what is there.  So a decommissioned authority stays as it is (`decommissioned_stays`).
-/

namespace Efdi.Pki

open Checks List
open Runs (final)
open Trust

/-! ## The invariant -/

/-- The identity of an authority is revoked, and nothing of it is active. -/
structure Retired (db : Db) (a : TrustAuthority) : Prop where
  revoked : ∃ r ∈ db.revocations, r.targetType = "authority" ∧
    r.targetReference = a.identityUri ∧ r.state = .active
  delegations : ∀ d ∈ db.delegations, d.subjectAuthorityId = a.id → d.state ≠ .active
  identities : ∀ i ∈ db.identities, i.authorityId = a.id → i.state ≠ .active
  credentials : ∀ c ∈ db.credentials, c.authorityId = a.id → c.state ≠ .active

/-- Identifiers are unique, and rows refer to authorities that were there. -/
structure Numbered (db : Db) : Prop where
  ids : ∀ a ∈ db.authorities, a.id < db.nextId
  distinct : (db.authorities.map (·.id)).Nodup
  delegations : ∀ d ∈ db.delegations, d.subjectAuthorityId < db.nextId
  identities : ∀ i ∈ db.identities, i.authorityId < db.nextId
  credentials : ∀ c ∈ db.credentials, c.authorityId < db.nextId

theorem Numbered.eq_of_id {db : Db} (h : Numbered db) {a b : TrustAuthority}
    (ha : a ∈ db.authorities) (hb : b ∈ db.authorities) (hid : a.id = b.id) : a = b :=
  inj_on_of_nodup_map h.distinct ha hb hid

/-- Every decommissioned authority is a child and is retired. -/
structure DecommissionedRetired (db : Db) : Prop where
  numbered : Numbered db
  child : ∀ a ∈ db.authorities, a.state = .decommissioned → a.parentId ≠ none
  retired : ∀ a ∈ db.authorities, a.state = .decommissioned → Retired db a

/-- A change keeps the invariant and the rows of decommissioned authorities. -/
def Carries (db db' : Db) : Prop :=
  DecommissionedRetired db → DecommissionedRetired db' ∧
    ∀ a ∈ db.authorities, a.state = .decommissioned → a ∈ db'.authorities

variable {db db₁ db₂ db' : Db}

theorem Carries.refl (db : Db) : Carries db db := fun h => ⟨h, fun _ ha _ => ha⟩

theorem Carries.trans (h₁ : Carries db db₁) (h₂ : Carries db₁ db₂) : Carries db db₂ := by
  intro h
  obtain ⟨hinv₁, hkept₁⟩ := h₁ h
  obtain ⟨hinv₂, hkept₂⟩ := h₂ hinv₁
  exact ⟨hinv₂, fun a ha hstate => hkept₂ a (hkept₁ a ha hstate) hstate⟩

/-! ## Growth -/

/-- A row that belongs to an authority: one that is new, or one of a row that was there with the same
state. -/
def RowFrom {α : Type} (owner : α → Nat) (state : α → RecordState) (rows : List α) (lo hi : Nat)
    (row : α) : Prop :=
  (∃ old ∈ rows, owner old = owner row ∧ state old = state row) ∨ (lo ≤ owner row ∧ owner row < hi)

/-- Rows of new authorities are added, and of the authorities that are there only those that are not
decommissioned are changed. -/
structure Grows (db db' : Db) : Prop where
  nextId : db.nextId ≤ db'.nextId
  kept : ∀ a ∈ db.authorities, a.state = .decommissioned → a ∈ db'.authorities
  authorities : ∀ a ∈ db'.authorities, a.id < db'.nextId ∧
    (a.state = .decommissioned → a ∈ db.authorities)
  distinct : (db'.authorities.map (·.id)).Nodup
  revocations : db'.revocations = db.revocations
  delegations : ∀ d ∈ db'.delegations,
    RowFrom (·.subjectAuthorityId) (·.state) db.delegations db.nextId db'.nextId d
  identities : ∀ i ∈ db'.identities,
    RowFrom (·.authorityId) (·.state) db.identities db.nextId db'.nextId i
  credentials : ∀ c ∈ db'.credentials,
    RowFrom (·.authorityId) (·.state) db.credentials db.nextId db'.nextId c

section RowFrom

variable {α : Type} {owner : α → Nat} {state : α → RecordState} {rows : List α} {lo hi : Nat}
  {row : α}

theorem RowFrom.of_mem (h : row ∈ rows) : RowFrom owner state rows lo hi row :=
  .inl ⟨row, h, rfl, rfl⟩

theorem RowFrom.mono {hi' : Nat} (h : RowFrom owner state rows lo hi row) (hle : hi ≤ hi') :
    RowFrom owner state rows lo hi' row := by
  rcases h with hold | ⟨hge, hlt⟩
  · exact .inl hold
  · exact .inr ⟨hge, lt_of_lt_of_le hlt hle⟩

theorem RowFrom.lt (h : RowFrom owner state rows lo hi row) (hrows : ∀ old ∈ rows, owner old < lo)
    (hle : lo ≤ hi) : owner row < hi := by
  rcases h with ⟨old, hold, howner, -⟩ | ⟨-, hlt⟩
  · have hlt := hrows old hold
    omega
  · exact hlt

theorem RowFrom.notActive (h : RowFrom owner state rows lo hi row) {id : Nat} (hid : id < lo)
    (howner : owner row = id) (hrows : ∀ old ∈ rows, owner old = id → state old ≠ .active) :
    state row ≠ .active := by
  rcases h with ⟨old, hold, hsame, hstate⟩ | ⟨hge, -⟩
  · rw [← hstate]
    exact hrows old hold (hsame.trans howner)
  · omega

end RowFrom

theorem Grows.carries (h : Grows db db') : Carries db db' := by
  intro hinv
  have hn := hinv.numbered
  refine ⟨⟨⟨fun a ha => (h.authorities a ha).1, h.distinct, ?_, ?_, ?_⟩, ?_, ?_⟩, h.kept⟩
  · exact fun d hd => (h.delegations d hd).lt hn.delegations h.nextId
  · exact fun i hi => (h.identities i hi).lt hn.identities h.nextId
  · exact fun c hc => (h.credentials c hc).lt hn.credentials h.nextId
  · exact fun a ha hstate => hinv.child a ((h.authorities a ha).2 hstate) hstate
  · intro a ha hstate
    have hold := (h.authorities a ha).2 hstate
    have hid := hn.ids a hold
    have hretired := hinv.retired a hold hstate
    refine ⟨?_, ?_, ?_, ?_⟩
    · rw [h.revocations]
      exact hretired.revoked
    · exact fun d hd howner =>
        (h.delegations d hd).notActive hid howner hretired.delegations
    · exact fun i hi howner => (h.identities i hi).notActive hid howner hretired.identities
    · exact fun c hc howner => (h.credentials c hc).notActive hid howner hretired.credentials

/-! ## Changes of rows -/

theorem Numbered.carries_rollback (hn : Numbered db) (h : db.nextId ≤ db₁.nextId) :
    Carries db (rollback db db₁) := by
  refine Grows.carries ?_
  exact
    { nextId := h
      kept := fun _ ha _ => ha
      authorities := fun a ha => ⟨lt_of_lt_of_le (hn.ids a ha) h, fun _ => ha⟩
      distinct := hn.distinct
      revocations := rfl
      delegations := fun _ hd => .of_mem hd
      identities := fun _ hi => .of_mem hi
      credentials := fun _ hc => .of_mem hc }

/-- The rows of authorities that are not decommissioned are changed. -/
theorem Numbered.grows_map (hn : Numbered db) {f : TrustAuthority → TrustAuthority}
    (hid : ∀ a, (f a).id = a.id) (hchange : ∀ a ∈ db.authorities, f a = a ∨
      (a.state ≠ .decommissioned ∧ (f a).state ≠ .decommissioned)) :
    Grows db { db with authorities := db.authorities.map f } where
  nextId := le_rfl
  kept := by
    intro a ha hstate
    rcases hchange a ha with hsame | ⟨hnot, -⟩
    · exact mem_map.mpr ⟨a, ha, hsame⟩
    · exact absurd hstate hnot
  authorities := by
    intro a ha
    obtain ⟨old, hold, rfl⟩ := mem_map.mp ha
    rw [hid]
    refine ⟨hn.ids old hold, fun hstate => ?_⟩
    rcases hchange old hold with hsame | ⟨-, hnot⟩
    · rwa [hsame]
    · exact absurd hstate hnot
  distinct := by
    have hsame : (db.authorities.map f).map (·.id) = db.authorities.map (·.id) := by
      rw [map_map]
      exact map_congr_left fun a _ => hid a
    rw [hsame]
    exact hn.distinct
  revocations := rfl
  delegations := fun _ hd => .of_mem hd
  identities := fun _ hi => .of_mem hi
  credentials := fun _ hc => .of_mem hc

theorem Numbered.nodup_append (hn : Numbered db) {row : TrustAuthority} (hid : row.id = db.nextId) :
    ((db.authorities ++ [row]).map (·.id)).Nodup := by
  rw [List.map_append, List.nodup_append]
  refine ⟨hn.distinct, by simp, ?_⟩
  intro id hmem id' hmem' heq
  obtain ⟨a, ha, rfl⟩ := List.mem_map.mp hmem
  rw [List.map_singleton, List.mem_singleton] at hmem'
  have hlt := hn.ids a ha
  omega

/-- A delegation that is accepted adds an authority that was not there. -/
theorem Numbered.grows_accepted {L : Libs} (hn : Numbered db) {envelope : PyJson} {caPem : String}
    {policyPem : Option String} {now : Int} {authority issuer : TrustAuthority}
    {delegation : Delegation} {grant : DelegationGrant}
    (h : Accepted L db envelope caPem policyPem now db' authority delegation grant issuer) :
    Grows db db' := by
  rw [h.db_eq]
  exact
    { nextId := Nat.le_add_right _ _
      kept := fun _ ha _ => mem_append_left _ ha
      authorities := by
        intro a ha
        rcases mem_append.mp ha with ha | ha
        · exact ⟨Nat.lt_add_right 2 (hn.ids a ha), fun _ => ha⟩
        · obtain rfl := mem_singleton.mp ha
          refine ⟨h.authority_id ▸ Nat.lt_add_of_pos_right (by decide), fun hdone => ?_⟩
          rw [h.authority_state] at hdone
          cases hdone
      distinct := hn.nodup_append h.authority_id
      revocations := rfl
      delegations := by
        intro d hd
        rcases mem_append.mp hd with hd | hd
        · exact .of_mem hd
        · obtain rfl := mem_singleton.mp hd
          rw [RowFrom, h.delegation_subject, h.authority_id]
          exact .inr ⟨le_rfl, Nat.lt_add_of_pos_right (by decide)⟩
      identities := fun _ hi => .of_mem hi
      credentials := fun _ hc => .of_mem hc }

variable {credential : LinkCredential} {localId authorityId : Nat}

/-- Rows of an authority that was not there are added. -/
theorem Grows.withRows (h : Grows db db') {identities : List IssuedIdentity}
    {child : FederatedChild} {used : PkiInvitation} {id : Nat}
    (hid : db.nextId ≤ id ∧ id < db'.nextId) (hcredential : credential.authorityId = id)
    (hidentities : ∀ i ∈ identities, i.authorityId = id) :
    Grows db (withRows db' credential identities child used) where
  nextId := h.nextId.trans (Nat.le_add_right _ _)
  kept := h.kept
  authorities a ha := ⟨Nat.lt_add_right 4 (h.authorities a ha).1, (h.authorities a ha).2⟩
  distinct := h.distinct
  revocations := h.revocations
  delegations d hd := (h.delegations d hd).mono (Nat.le_add_right _ _)
  identities := by
    intro i hi
    rcases mem_append.mp hi with hi | hi
    · exact (h.identities i hi).mono (Nat.le_add_right _ _)
    · have howner := hidentities i hi
      refine .inr ?_
      show db.nextId ≤ i.authorityId ∧ i.authorityId < db'.nextId + 4
      omega
  credentials := by
    intro c hc
    rcases mem_append.mp hc with hc | hc
    · exact (h.credentials c hc).mono (Nat.le_add_right _ _)
    · obtain rfl := mem_singleton.mp hc
      refine .inr ?_
      show db.nextId ≤ c.authorityId ∧ c.authorityId < db'.nextId + 4
      omega

theorem carries_of_bootstraps {L : Libs} (h : Bootstraps L db db') : Carries db db' := by
  induction h with
  | same db => exact .refl db
  | @root db row hid _ hstate =>
    intro hinv
    have hn := hinv.numbered
    refine Grows.carries ?_ hinv
    exact
      { nextId := Nat.le_succ _
        kept := fun _ ha _ => mem_append_left _ ha
        authorities := by
          intro a ha
          rcases mem_append.mp ha with ha | ha
          · exact ⟨Nat.lt_succ_of_lt (hn.ids a ha), fun _ => ha⟩
          · obtain rfl := mem_singleton.mp ha
            refine ⟨hid ▸ Nat.lt_succ_self _, fun hdone => ?_⟩
            rw [hstate] at hdone
            cases hdone
        distinct := hn.nodup_append hid
        revocations := rfl
        delegations := fun _ hd => .of_mem hd
        identities := fun _ hi => .of_mem hi
        credentials := fun _ hc => .of_mem hc }
  | @renamed db previous row hmem hroot hid _ hstate =>
    intro hinv
    refine Grows.carries (hinv.numbered.grows_map ?_ ?_) hinv
    · intro a
      split
      next heq => exact heq.symm
      next => rfl
    · intro a ha
      split
      next heq =>
        -- the row that is renamed is a root
        obtain rfl := hinv.numbered.eq_of_id ha hmem (heq.trans hid)
        refine .inr ⟨fun hdone => hinv.child a ha hdone hroot, fun hdone => ?_⟩
        rw [hstate] at hdone
        cases hdone
      next => exact .inl rfl
  | accepted haccepted => exact fun hinv => (hinv.numbered.grows_accepted haccepted).carries hinv
  | trans _ _ ih₁ ih₂ => exact ih₁.trans ih₂

theorem Numbered.carries_setState (hn : Numbered db) {a : TrustAuthority} (ha : a ∈ db.authorities)
    (hold : a.state ≠ .decommissioned) {state : AuthorityState} (hnew : state ≠ .decommissioned) :
    Carries db (setAuthorityState db a.id state) := by
  refine Grows.carries (hn.grows_map ?_ ?_)
  · intro b
    split <;> rfl
  · intro b hb
    split
    next hid =>
      obtain rfl := hn.eq_of_id hb ha hid
      exact .inr ⟨hold, hnew⟩
    next => exact .inl rfl

/-- A row after the rows of an authority were revoked: one that was there, which is active when it was
active and belongs to another authority. -/
def RowLeft {α : Type} (owner : α → Nat) (state : α → RecordState) (rows : List α) (id : Nat)
    (row : α) : Prop :=
  ∃ old ∈ rows, owner old = owner row ∧
    (state row = .active → state old = .active ∧ owner old ≠ id)

section RowLeft

variable {α : Type} {owner : α → Nat} {state : α → RecordState} {rows : List α} {id : Nat}
  {row : α}

theorem rowLeft_of_mem {revoke : α → α}
    (h : row ∈ rows.map fun r => if owner r = id then revoke r else r)
    (howner : ∀ r, owner (revoke r) = owner r) (hstate : ∀ r, state (revoke r) = .revoked) :
    RowLeft owner state rows id row := by
  obtain ⟨old, hold, rfl⟩ := mem_map.mp h
  refine ⟨old, hold, ?_⟩
  split
  next =>
    refine ⟨(howner old).symm, fun hactive => ?_⟩
    rw [hstate] at hactive
    cases hactive
  next hne => exact ⟨rfl, fun hactive => ⟨hactive, hne⟩⟩

theorem RowLeft.lt (h : RowLeft owner state rows id row) {lo hi : Nat}
    (hrows : ∀ old ∈ rows, owner old < lo) (hle : lo ≤ hi) : owner row < hi := by
  obtain ⟨old, hold, howner, -⟩ := h
  have hlt := hrows old hold
  omega

/-- The rows of an authority are not active when it was the one, or had no active row. -/
theorem RowLeft.notActive (h : RowLeft owner state rows id row) {a : Nat} (howner : owner row = a)
    (hrows : a ≠ id → ∀ old ∈ rows, owner old = a → state old ≠ .active) :
    state row ≠ .active := by
  intro hactive
  obtain ⟨old, hold, hsame, hwas⟩ := h
  obtain ⟨hactive', hne⟩ := hwas hactive
  have ha : owner old = a := hsame.trans howner
  exact hrows (ha ▸ hne) old hold ha hactive'

end RowLeft

/-- Decommissioning retires the authority, and leaves those that are retired. -/
theorem carries_decommissioned {authority : TrustAuthority} {reason : String}
    (hmem : authority ∈ db.authorities) (hparent : authority.parentId ≠ none)
    (h : Decommissioned db authority reason db') : Carries db db' := by
  intro hinv
  have hn := hinv.numbered
  have hmapped : ∀ a ∈ db'.authorities, ∃ old ∈ db.authorities, a.id = old.id ∧
      a.parentId = old.parentId ∧ a.identityUri = old.identityUri ∧
      (a.state = .decommissioned → old.id = authority.id ∨ old.state = .decommissioned) := by
    intro a ha
    rw [h.authorities] at ha
    obtain ⟨old, hold, rfl⟩ := mem_map.mp ha
    refine ⟨old, hold, ?_⟩
    split
    next hid => exact ⟨rfl, rfl, rfl, fun _ => .inl hid⟩
    next => exact ⟨rfl, rfl, rfl, fun hdone => .inr hdone⟩
  have hdelegations : ∀ d ∈ db'.delegations,
      RowLeft (·.subjectAuthorityId) (·.state) db.delegations authority.id d := by
    intro d hd
    rw [h.delegations] at hd
    exact rowLeft_of_mem hd (fun _ => rfl) fun _ => rfl
  have hidentities : ∀ i ∈ db'.identities,
      RowLeft (·.authorityId) (·.state) db.identities authority.id i := by
    intro i hi
    rw [h.identities] at hi
    exact rowLeft_of_mem hi (fun _ => rfl) fun _ => rfl
  have hcredentials : ∀ c ∈ db'.credentials,
      RowLeft (·.authorityId) (·.state) db.credentials authority.id c := by
    intro c hc
    rw [h.credentials] at hc
    exact rowLeft_of_mem hc (fun _ => rfl) fun _ => rfl
  have hnext : db.nextId ≤ db'.nextId := h.nextId ▸ Nat.le_succ _
  refine ⟨⟨⟨?_, ?_, ?_, ?_, ?_⟩, ?_, ?_⟩, ?_⟩
  · intro a ha
    obtain ⟨old, hold, hid, -⟩ := hmapped a ha
    have hlt := hn.ids old hold
    omega
  · rw [h.authorities, setAuthorityState, map_map]
    refine (map_congr_left fun a _ => ?_).subst (motive := List.Nodup) hn.distinct
    simp only [Function.comp_apply]
    split <;> rfl
  · exact fun d hd => (hdelegations d hd).lt hn.delegations hnext
  · exact fun i hi => (hidentities i hi).lt hn.identities hnext
  · exact fun c hc => (hcredentials c hc).lt hn.credentials hnext
  · intro a ha hdone
    obtain ⟨old, hold, -, hsame, -, hwhich⟩ := hmapped a ha
    rw [hsame]
    rcases hwhich hdone with hid | hstate
    · rwa [hn.eq_of_id hold hmem hid]
    · exact hinv.child old hold hstate
  · intro a ha hdone
    obtain ⟨old, hold, hid, -, hidentity, hwhich⟩ := hmapped a ha
    have hwas : a.id ≠ authority.id → Retired db old := fun hne =>
      hinv.retired old hold ((hwhich hdone).resolve_left fun heq => hne (hid.trans heq))
    refine ⟨?_, ?_, ?_, ?_⟩
    · rw [h.revocations, hidentity]
      rcases hwhich hdone with heq | hstate
      · rw [hn.eq_of_id hold hmem heq]
        exact ⟨_, mem_append_right _ (mem_singleton.mpr rfl), rfl, rfl, rfl⟩
      · obtain ⟨r, hr, hrest⟩ := (hinv.retired old hold hstate).revoked
        exact ⟨r, mem_append_left _ hr, hrest⟩
    · exact fun d hd howner => (hdelegations d hd).notActive howner fun hne row hrow hrowOwner =>
        (hwas hne).delegations row hrow (hrowOwner.trans hid)
    · exact fun i hi howner => (hidentities i hi).notActive howner fun hne row hrow hrowOwner =>
        (hwas hne).identities row hrow (hrowOwner.trans hid)
    · exact fun c hc howner => (hcredentials c hc).notActive howner fun hne row hrow hrowOwner =>
        (hwas hne).credentials row hrow (hrowOwner.trans hid)
  · intro a ha hdone
    rw [h.authorities]
    refine mem_map.mpr ⟨a, ha, if_neg ?_⟩
    intro hid
    rw [hn.eq_of_id ha hmem hid] at hdone
    exact h.state hdone

/-! ## Steps -/

variable {S : Setting} {host : Host S.libs}

theorem carries_ensureLocalAuthority {own : TrustAuthority}
    (h : ensureLocalAuthority S.libs S.env host db = .ok (db', own)) : Carries db db' :=
  carries_of_bootstraps (bootstraps_ensureLocalAuthority h)

theorem PrepareOk.grows {draws : Draws} {request : EnrollmentIn} {issuer : TrustAuthority}
    {invitation : PkiInvitation} {p : Prepared} {delegation : Delegation} {grant : DelegationGrant}
    {parent : TrustAuthority} {identities : List IssuedIdentity} {child : FederatedChild}
    (h : PrepareOk S host draws request issuer invitation db p db' delegation grant parent credential
      identities child) (hn : Numbered db) : Grows db p.db := by
  have hnext : db'.nextId = db.nextId + 2 := by rw [h.accepted.db_eq]
  have hid := h.accepted.authority_id
  rw [h.db_eq]
  exact (hn.grows_accepted h.accepted).withRows (by omega) h.credential_owner h.identities_owner

theorem Finished.carries {p : Prepared} {s : State} {result : State × Except Failure Bundle}
    (h : Finished S host p s result) (hn : Numbered s.db) (hgrows : Grows s.db p.db) :
    Carries s.db result.1.db := by
  cases h with
  | notWritten => exact hn.carries_rollback hgrows.nextId
  | notCommitted => exact hn.carries_rollback hgrows.nextId
  | committed _ _ _ heq =>
    subst heq
    exact hgrows.carries

theorem carries_enrollRouter (draws : Draws) (request : EnrollmentIn) (s : State) :
    Carries s.db (enrollRouter S host draws request s).1.db := by
  have h : Enrolled S host draws request s _ := enrollRouter_enrolled draws request s
  generalize enrollRouter S host draws request s = result at h ⊢
  cases h with
  | noAuthority => exact .refl _
  | unknown hlocal => exact carries_ensureLocalAuthority hlocal
  | repeated hlocal => exact carries_ensureLocalAuthority hlocal
  | otherKeys hlocal => exact carries_ensureLocalAuthority hlocal
  | refused hlocal => exact carries_ensureLocalAuthority hlocal
  | finished hlocal _ _ hprepare hfinished =>
    refine (carries_ensureLocalAuthority hlocal).trans fun hinv => ?_
    obtain ⟨_, _, _, _, _, _, _, hok⟩ := prepare_ok hprepare
    exact hfinished.carries hinv.numbered (hok.grows hinv.numbered) hinv

theorem Numbered.grows_invitations (hn : Numbered db) (invitations : List PkiInvitation) :
    Grows db { db with invitations := invitations, nextId := db.nextId + 1 } where
  nextId := Nat.le_succ _
  kept := fun _ ha _ => ha
  authorities := fun a ha => ⟨Nat.lt_succ_of_lt (hn.ids a ha), fun _ => ha⟩
  distinct := hn.distinct
  revocations := rfl
  delegations := fun _ hd => .of_mem hd
  identities := fun _ hi => .of_mem hi
  credentials := fun _ hc => .of_mem hc

theorem carries_createInvitation (request : InvitationIn) (token : String) (s : State) :
    Carries s.db (createInvitation S host request token s).1.db := by
  unfold createInvitation
  cases hlocal : ensureLocalAuthority S.libs S.env host s.db with
  | error e => exact .refl _
  | ok result =>
    obtain ⟨db, issuer⟩ := result
    refine (carries_ensureLocalAuthority hlocal).trans ?_
    dsimp only
    cases invitedNamespace S host request issuer db with
    | error e => exact .refl _
    | ok namespace_ =>
      dsimp only
      cases host.writes.commit with
      | true => exact fun hinv => (hinv.numbered.grows_invitations _).carries hinv
      | false => exact fun hinv => hinv.numbered.carries_rollback (Nat.le_succ _) hinv

theorem carries_manage {op : Db → Nat → Except LifecycleError Db} (s : State)
    (hop : ∀ db localId db', op db localId = .ok db' → Carries db db' ∧ db.nextId ≤ db'.nextId) :
    Carries s.db (manage S host op s).1.db := by
  unfold manage
  cases hlocal : ensureLocalAuthority S.libs S.env host s.db with
  | error e => exact .refl _
  | ok result =>
    obtain ⟨db, own⟩ := result
    refine (carries_ensureLocalAuthority hlocal).trans ?_
    dsimp only
    cases hresult : op db own.id with
    | error e => exact .refl _
    | ok db' =>
      obtain ⟨hcarries, hnext⟩ := hop db own.id db' hresult
      cases host.writes.commit with
      | true => exact hcarries
      | false => exact fun hinv => hinv.numbered.carries_rollback hnext hinv

theorem carries_quarantine (h : quarantineAuthority db localId authorityId = .ok db') :
    Carries db db' ∧ db.nextId ≤ db'.nextId := by
  obtain ⟨authority, hchild, hstate, rfl⟩ := quarantineAuthority_ok h
  obtain ⟨hmem, rfl, -⟩ := directChild_ok hchild
  exact ⟨fun hinv => hinv.numbered.carries_setState hmem hstate (by decide) hinv, le_rfl⟩

theorem carries_restore (h : restoreAuthority db localId authorityId = .ok db') :
    Carries db db' ∧ db.nextId ≤ db'.nextId := by
  obtain ⟨authority, hchild, hstate, rfl⟩ := restoreAuthority_ok h
  obtain ⟨hmem, rfl, -⟩ := directChild_ok hchild
  have hold : authority.state ≠ .decommissioned := by
    rw [hstate]
    decide
  exact ⟨fun hinv => hinv.numbered.carries_setState hmem hold (by decide) hinv, le_rfl⟩

theorem carries_decommission {reason : String}
    (h : decommissionAuthority db localId authorityId reason = .ok db') :
    Carries db db' ∧ db.nextId ≤ db'.nextId := by
  obtain ⟨authority, hchild, hdone⟩ := decommissionAuthority_ok h
  obtain ⟨hmem, -, hparent⟩ := directChild_ok hchild
  refine ⟨carries_decommissioned hmem ?_ hdone, hdone.nextId ▸ Nat.le_succ _⟩
  rw [hparent]
  exact Option.some_ne_none _

/-- A credential is changed, and keeps its owner and its state. -/
theorem Numbered.grows_credential (hn : Numbered db) {rotated : LinkCredential}
    (hmem : credential ∈ db.credentials) (howner : credential.authorityId = rotated.authorityId)
    (hstate : credential.state = rotated.state) :
    Grows db { db with credentials :=
      db.credentials.map fun c => if c.id = credential.id then rotated else c } where
  nextId := le_rfl
  kept := fun _ ha _ => ha
  authorities := fun a ha => ⟨hn.ids a ha, fun _ => ha⟩
  distinct := hn.distinct
  revocations := rfl
  delegations := fun _ hd => .of_mem hd
  identities := fun _ hi => .of_mem hi
  credentials := by
    intro c hc
    obtain ⟨old, hold, rfl⟩ := mem_map.mp hc
    split
    next => exact .inl ⟨credential, hmem, howner, hstate⟩
    next => exact .of_mem hold

theorem carries_rotateLinkCredential (authorityId : Nat) (draws : Draws) (s : State) :
    Carries s.db (rotateLinkCredential S host authorityId draws s).1.db := by
  unfold rotateLinkCredential
  cases hlocal : ensureLocalAuthority S.libs S.env host s.db with
  | error e => exact .refl _
  | ok result =>
    obtain ⟨db, own⟩ := result
    refine (carries_ensureLocalAuthority hlocal).trans ?_
    dsimp only
    cases htarget : rotationTarget { s with db := db } own.id authorityId with
    | error e => exact .refl _
    | ok target =>
      obtain ⟨authority, credential⟩ := target
      dsimp only
      unfold rotateCredential
      cases host.writes.put with
      | false => exact .refl _
      | true =>
        cases host.writes.commit with
        | false => exact .refl _
        | true =>
          intro hinv
          refine Grows.carries ?_ hinv
          exact hinv.numbered.grows_credential (rotationTarget_ok htarget).1 rfl rfl

theorem carries_step (s : State) (event : Event S) : Carries s.db (step S s event).db := by
  obtain ⟨host, operation⟩ := event
  cases operation with simp only [step]
  | createInvitation request token => exact carries_createInvitation request token s
  | enroll draws request => exact carries_enrollRouter draws request s
  | quarantine id => exact carries_manage s fun _ _ _ => carries_quarantine
  | restore id => exact carries_manage s fun _ _ _ => carries_restore
  | decommission id reason => exact carries_manage s fun _ _ _ => carries_decommission
  | rotateLink id draws => exact carries_rotateLinkCredential id draws s

/-! ## Runs -/

theorem carries_final (s : State) (events : List (Event S)) :
    Carries s.db (final (step S) s events).db := by
  induction events generalizing s with
  | nil => exact .refl _
  | cons event events ih => exact (carries_step s event).trans (ih _)

/-- An authority that is decommissioned stays in its state, with its identity revoked and nothing of
it active, whatever operations follow. -/
theorem decommissioned_stays (S : Setting) (start : State) (hnumbered : Numbered start.db)
    (hstart : ∀ a ∈ start.db.authorities, a.state ≠ .decommissioned)
    (earlier later : List (Event S)) (a : TrustAuthority)
    (ha : a ∈ (final (step S) start earlier).db.authorities) (hstate : a.state = .decommissioned) :
    (∀ b ∈ (final (step S) start (earlier ++ later)).db.authorities, b.id = a.id → b = a) ∧
      a ∈ (final (step S) start (earlier ++ later)).db.authorities ∧
      Retired (final (step S) start (earlier ++ later)).db a := by
  have hinv : DecommissionedRetired start.db :=
    ⟨hnumbered, fun b hb hdone => absurd hdone (hstart b hb),
      fun b hb hdone => absurd hdone (hstart b hb)⟩
  have hmid := (carries_final start earlier hinv).1
  have hend := carries_final (final (step S) start earlier) later hmid
  rw [Runs.final_append]
  have hmem := hend.2 a ha hstate
  exact ⟨fun b hb hid => hend.1.numbered.eq_of_id hb hmem hid, hmem,
    hend.1.retired a hmem hstate⟩

namespace Family

/-- Two invitations for the child.  It is enrolled with the first, and decommissioned. -/
def lost : List (Event setting) :=
  [⟨hostWith written, .createInvitation invitation (token 'a')⟩,
    ⟨hostWith written, .createInvitation invitation (token 'b')⟩,
    ⟨hostWith written, .enroll (draws "pw") (enrolment (token 'a') len_token)⟩,
    ⟨hostWith written, .decommission 3 "lost"⟩]

/-- The second invitation, and operations on the child. -/
def attempts : List (Event setting) :=
  [⟨hostWith written, .enroll (draws "pw2") (enrolment (token 'b') (by decide))⟩,
    ⟨hostWith written, .restore 3⟩, ⟨hostWith written, .quarantine 3⟩,
    ⟨hostWith written, .rotateLink 3 (draws "pw3")⟩]

theorem lost_stays : ∃ a ∈ (final (step setting) start lost).db.authorities,
    a.state = .decommissioned ∧
      (∀ b ∈ (final (step setting) start (lost ++ attempts)).db.authorities, b.id = a.id → b = a) ∧
      a ∈ (final (step setting) start (lost ++ attempts)).db.authorities ∧
      Retired (final (step setting) start (lost ++ attempts)).db a := by
  have hnumbered : Numbered start.db :=
    ⟨by decide, by decide, by decide, by decide, by decide⟩
  have hlost : ∃ a ∈ (final (step setting) start lost).db.authorities,
      a.state = .decommissioned := by
    decide +kernel
  obtain ⟨a, hmem, hstate⟩ := hlost
  exact ⟨a, hmem, hstate,
    decommissioned_stays setting start hnumbered (by decide) lost attempts a hmem hstate⟩

end Family

end Efdi.Pki

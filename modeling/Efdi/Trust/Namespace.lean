import Efdi.Trust.ChainSound
import Efdi.Trust.Store
import Mathlib.Data.List.Nodup

/-!
# Delegation and the namespace of the root

A grant below another grant stays inside its namespace: both `verifyTrustChain` and
`acceptDelegation` compare it with `grantIsSubset`.  The first grant below an anchor
or a root authority takes another branch, which compares the depth alone.  So the
grants of a chain stay inside the namespace scope of the root exactly when the first
one does.

For a store this is a statement about runs.  `Within` says that every delegation of
the store is inside the scope of the authority at the top of its chain, and
`RootBounded` is the condition on one step that the source does not check.
-/

namespace Efdi.Trust

open Checks List
open Runs (Always Guarded)

variable {L : Libs}

/-- The namespace and every publish scope of a grant lie in a scope. -/
def GrantWithin (scope : String) (g : DelegationGrant) : Prop :=
  ScopeWithin scope g.namespace_ ∧ ∀ e ∈ g.publish, ScopeWithin scope e

variable {scope : String} {f : TrustAuthority → TrustAuthority} {localId : Nat}

/-- The publish scopes of a valid grant follow its namespace. -/
theorem grantWithin_iff {g : DelegationGrant} :
    GrantWithin scope g ↔ ScopeWithin scope g.namespace_ := by
  constructor
  · intro h
    exact h.1
  · intro h
    exact ⟨h, g.publish_within_of_namespace h⟩

theorem GrantWithin.narrower {parent child : DelegationGrant} (h : GrantWithin scope parent)
    (hn : Narrower child parent) : GrantWithin scope child :=
  grantWithin_iff.mpr (h.1.trans hn.namespace_within)

/-! ## Proofs -/

/-- The grants the steps of a proof parse to. -/
def proofGrants (L : Libs) (proof : PyJson) : List DelegationGrant :=
  ((proofSteps proof).getD []).filterMap fun step =>
    envelopeGrant L (step.getD "delegation_envelope" .null)

/-- The links of a chain carry the grants of its steps. -/
theorem ChainOk.grants {revoked : List String} {now : Int} {issuer last : VerifiedAuthority}
    {steps : List PyJson} {links : List (Link L)}
    (h : ChainOk revoked now issuer steps links last) :
    steps.filterMap (fun step => envelopeGrant L (step.getD "delegation_envelope" .null)) =
      links.map Link.grant := by
  induction h with
  | nil => rfl
  | cons hstep _ ih =>
    rw [filterMap_cons, envelopeGrant_of_verify hstep.envelope, ih, map_cons]

/-- The grants of a chain stay in a scope when the first one does. -/
theorem within_of_pairwise {g : DelegationGrant} {gs : List DelegationGrant}
    (h : (g :: gs).Pairwise fun earlier later => Narrower later earlier)
    (hg : ScopeWithin scope g.namespace_) : ∀ g' ∈ g :: gs, GrantWithin scope g' := by
  intro g' hg'
  rcases mem_cons.mp hg' with rfl | hmem
  · exact grantWithin_iff.mpr hg
  · exact (grantWithin_iff.mpr hg).narrower ((pairwise_cons.mp h).1 g' hmem)

/-- The grants of a proof that verifies lie in the scope of the anchor exactly when the
first one does. -/
theorem proof_within_iff {proof : PyJson} {trusted : TrustAuthority} {revoked : List String}
    {now : Int} {last : VerifiedAuthority}
    (h : verifyTrustChain L proof trusted revoked now = .ok last) :
    (∀ g ∈ proofGrants L proof, GrantWithin trusted.namespaceScope g) ↔
      ∀ g, (proofGrants L proof).head? = some g →
        ScopeWithin trusted.namespaceScope g.namespace_ := by
  obtain ⟨steps, links, root, hproof⟩ := verifyTrustChain_iff.mp h
  have hgrants : proofGrants L proof = links.map Link.grant := by
    rw [proofGrants, hproof.listed]
    exact hproof.chain.grants
  have hnarrow := hproof.chain.narrower
  rw [hgrants]
  cases hlinks : links.map Link.grant with
  | nil => simp
  | cons g gs =>
    rw [hlinks] at hnarrow
    constructor
    · rintro hall _ ⟨⟩
      exact (hall g mem_cons_self).1
    · intro hhead
      exact within_of_pairwise hnarrow (hhead g rfl)

/-! ## Stores -/

/-- The namespace scope of the authority at the top of a chain of parents. -/
inductive TopScope (authorities : List TrustAuthority) : TrustAuthority → String → Prop where
  | root {a : TrustAuthority} : a.parentId = none → TopScope authorities a a.namespaceScope
  | child {a parent : TrustAuthority} {scope : String} : parent ∈ authorities →
      a.parentId = some parent.id → TopScope authorities parent scope →
      TopScope authorities a scope

/-- Every delegation of the store lies in the scope at the top of its chain. -/
def Within (L : Libs) (db : Db) : Prop :=
  ∀ d ∈ db.delegations, ∀ a ∈ db.authorities, a.id = d.subjectAuthorityId →
    ∀ g, envelopeGrant L d.envelopeJson = some g →
      ∀ scope, TopScope db.authorities a scope → GrantWithin scope g

/-- A store that holds root authorities only. -/
structure RootStore (db : Db) : Prop where
  roots : ∀ a ∈ db.authorities, a.parentId = none
  ids : ∀ a ∈ db.authorities, a.id < db.nextId
  distinct : (db.authorities.map (·.id)).Nodup
  delegations : db.delegations = []

/-- A change of the trust store. -/
inductive StoreEvent where
  | accept (envelope : PyJson) (subjectCaPem : String) (subjectPolicySignerPem : Option String)
      (now : Int)
  | quarantine (authorityId : Nat)
  | restore (authorityId : Nat)
  | decommission (authorityId : Nat) (reason : String)

/-- The store after a request.  One that fails changes nothing. -/
def storeStep (L : Libs) (localId : Nat) (db : Db) : StoreEvent → Db
  | .accept envelope caPem policyPem now =>
    match acceptDelegation L db envelope caPem policyPem now with
    | .ok (db', _, _) => db'
    | .error _ => db
  | .quarantine id => (quarantineAuthority db localId id).toOption.getD db
  | .restore id => (restoreAuthority db localId id).toOption.getD db
  | .decommission id reason => (decommissionAuthority db localId id reason).toOption.getD db

/-- The event is a delegation that the store accepts. -/
def Accepts (L : Libs) (db : Db) : StoreEvent → Prop
  | .accept envelope caPem policyPem now =>
    ∃ result, acceptDelegation L db envelope caPem policyPem now = .ok result
  | _ => False

/-- A delegation made by a root authority is inside the scope of that authority. -/
def RootBounded (L : Libs) (db : Db) : StoreEvent → Prop
  | .accept envelope _ _ _ => ∀ g issuer, envelopeGrant L envelope = some g →
      authorityByIdentity db g.issuerIdentity = some issuer → issuer.parentId = none →
      ScopeWithin issuer.namespaceScope g.namespace_
  | _ => True

/-- What the operations keep: identifiers are fresh and unique, parents exist, each
delegation belongs to a child with the namespace of its grant, and a child that is not
decommissioned has an active delegation. -/
structure StoreInv (L : Libs) (db : Db) : Prop where
  ids : ∀ a ∈ db.authorities, a.id < db.nextId
  distinct : (db.authorities.map (·.id)).Nodup
  parents : ∀ a ∈ db.authorities, ∀ id, a.parentId = some id →
    ∃ parent ∈ db.authorities, parent.id = id
  delegated : ∀ d ∈ db.delegations, ∃ a ∈ db.authorities, a.id = d.subjectAuthorityId ∧
    a.parentId ≠ none ∧ ∃ g, envelopeGrant L d.envelopeJson = some g
  active : ∀ a ∈ db.authorities, a.parentId ≠ none → a.state ≠ .decommissioned →
    ∃ d ∈ db.delegations, d.subjectAuthorityId = a.id ∧ d.state = .active

theorem RootStore.storeInv {db : Db} (h : RootStore db) : StoreInv L db where
  ids := h.ids
  distinct := h.distinct
  parents := by
    intro a ha id hid
    rw [h.roots a ha] at hid
    cases hid
  delegated := by simp [h.delegations]
  active := by
    intro a ha hparent
    exact absurd (h.roots a ha) hparent

theorem RootStore.within {db : Db} (h : RootStore db) : Within L db := by
  intro d hd
  simp [h.delegations] at hd

/-! ## The lifecycle keeps the invariant -/

theorem eq_of_id {db : Db} (h : StoreInv L db) {a b : TrustAuthority}
    (ha : a ∈ db.authorities) (hb : b ∈ db.authorities) (hid : a.id = b.id) : a = b :=
  inj_on_of_nodup_map h.distinct ha hb hid

/-- Rows changed in their state only have the same top. -/
theorem TopScope.of_map {as : List TrustAuthority} (hid : ∀ a, (f a).id = a.id)
    (hparent : ∀ a, (f a).parentId = a.parentId)
    (hscope : ∀ a, (f a).namespaceScope = a.namespaceScope) {b : TrustAuthority}
    (h : TopScope (as.map f) b scope) : ∀ a, f a = b → TopScope as a scope := by
  induction h with
  | root hroot =>
    rintro a rfl
    rw [hscope]
    exact .root (hparent a ▸ hroot)
  | child hmem hchild _ ih =>
    rintro a rfl
    obtain ⟨p, hp, rfl⟩ := mem_map.mp hmem
    exact .child hp (by rw [← hparent a, hchild, hid]) (ih p rfl)

/-- A step that rewrites states only.  A child that stays in service keeps its active
delegations. -/
structure StateChange (db db' : Db) (f : TrustAuthority → TrustAuthority)
    (k : Delegation → Delegation) : Prop where
  authorities : db'.authorities = db.authorities.map f
  delegations : db'.delegations = db.delegations.map k
  nextId : db.nextId ≤ db'.nextId
  id : ∀ a, (f a).id = a.id
  parentId : ∀ a, (f a).parentId = a.parentId
  scope : ∀ a, (f a).namespaceScope = a.namespaceScope
  subject : ∀ d, (k d).subjectAuthorityId = d.subjectAuthorityId
  envelope : ∀ d, (k d).envelopeJson = d.envelopeJson
  kept : ∀ a ∈ db.authorities, (f a).state ≠ .decommissioned → a.state ≠ .decommissioned ∧
    ∀ d, d.subjectAuthorityId = a.id → d.state = .active → (k d).state = .active

theorem StateChange.storeInv {db db' : Db} {k : Delegation → Delegation}
    (hc : StateChange db db' f k) (h : StoreInv L db) :
    StoreInv L db' where
  ids := by
    intro a ha
    rw [hc.authorities] at ha
    obtain ⟨b, hb, rfl⟩ := mem_map.mp ha
    rw [hc.id]
    exact lt_of_lt_of_le (h.ids b hb) hc.nextId
  distinct := by
    have hids : db.authorities.map ((·.id) ∘ f) = db.authorities.map (·.id) :=
      map_congr_left fun a _ => hc.id a
    rw [hc.authorities, map_map, hids]
    exact h.distinct
  parents := by
    intro a ha id hid
    rw [hc.authorities] at ha ⊢
    obtain ⟨b, hb, rfl⟩ := mem_map.mp ha
    rw [hc.parentId] at hid
    obtain ⟨p, hp, hpid⟩ := h.parents b hb id hid
    exact ⟨f p, mem_map_of_mem hp, by rw [hc.id, hpid]⟩
  delegated := by
    intro d hd
    rw [hc.delegations] at hd
    obtain ⟨e, he, rfl⟩ := mem_map.mp hd
    obtain ⟨a, ha, hid, hparent, hgrant⟩ := h.delegated e he
    rw [hc.authorities, hc.subject, hc.envelope]
    exact ⟨f a, mem_map_of_mem ha, by rw [hc.id, hid], by rwa [hc.parentId], hgrant⟩
  active := by
    intro a ha hparent hstate
    rw [hc.authorities] at ha
    obtain ⟨b, hb, rfl⟩ := mem_map.mp ha
    rw [hc.parentId] at hparent
    obtain ⟨hstate', hkept⟩ := hc.kept b hb hstate
    obtain ⟨d, hd, hsub, hactive⟩ := h.active b hb hparent hstate'
    rw [hc.delegations, hc.id]
    exact ⟨k d, mem_map_of_mem hd, by rw [hc.subject, hsub], hkept d hsub hactive⟩

theorem StateChange.within {db db' : Db} {k : Delegation → Delegation} (hc : StateChange db db' f k)
    (h : Within L db) :
    Within L db' := by
  intro d hd a ha hid g hg scope htop
  rw [hc.delegations] at hd
  rw [hc.authorities] at ha htop
  obtain ⟨e, he, rfl⟩ := mem_map.mp hd
  obtain ⟨b, hb, rfl⟩ := mem_map.mp ha
  rw [hc.id, hc.subject] at hid
  rw [hc.envelope] at hg
  exact h e he b hb hid g hg scope (htop.of_map hc.id hc.parentId hc.scope b rfl)

/-- Writing a state column that is not the final one is a state change. -/
theorem stateChange_setAuthorityState {db : Db} {id : Nat} {state : AuthorityState}
    (hstate : ∀ a ∈ db.authorities, a.id = id → a.state ≠ .decommissioned) :
    StateChange db (setAuthorityState db id state)
      (fun a => if a.id = id then { a with state := state } else a) (fun d => d) where
  authorities := rfl
  delegations := (map_id _).symm
  nextId := le_rfl
  id := by intro a; split <;> rfl
  parentId := by intro a; split <;> rfl
  scope := by intro a; split <;> rfl
  subject := fun _ => rfl
  envelope := fun _ => rfl
  kept := by
    intro a ha hnew
    refine ⟨?_, fun _ _ hd => hd⟩
    by_cases hid : a.id = id
    · exact hstate a ha hid
    · simpa [hid] using hnew

theorem Decommissioned.stateChange {db db' : Db} {authority : TrustAuthority} {reason : String}
    (h : Decommissioned db authority reason db') :
    StateChange db db'
      (fun a => if a.id = authority.id then { a with state := .decommissioned } else a)
      (fun d => if d.subjectAuthorityId = authority.id then { d with state := .revoked }
        else d) where
  authorities := h.authorities
  delegations := h.delegations
  nextId := by rw [h.nextId]; omega
  id := by intro a; split <;> rfl
  parentId := by intro a; split <;> rfl
  scope := by intro a; split <;> rfl
  subject := by intro d; split <;> rfl
  envelope := by intro d; split <;> rfl
  kept := by
    intro a _ hnew
    by_cases hid : a.id = authority.id
    · simp [hid] at hnew
    · refine ⟨by simpa [hid] using hnew, ?_⟩
      intro d hsub hactive
      rwa [if_neg (by rwa [hsub])]

theorem StateChange.refl (db : Db) : StateChange db db (fun a => a) (fun d => d) where
  authorities := (map_id _).symm
  delegations := (map_id _).symm
  nextId := le_rfl
  id := fun _ => rfl
  parentId := fun _ => rfl
  scope := fun _ => rfl
  subject := fun _ => rfl
  envelope := fun _ => rfl
  kept := fun _ _ hstate => ⟨hstate, fun _ _ hd => hd⟩

/-- A step accepts a delegation, or it changes states only. -/
theorem storeStep_cases {db : Db} (h : StoreInv L db) (localId : Nat) (event : StoreEvent) :
    (∃ envelope caPem policyPem now authority delegation grant issuer,
      event = .accept envelope caPem policyPem now ∧
      Accepted L db envelope caPem policyPem now (storeStep L localId db event) authority
        delegation grant issuer) ∨
    ∃ f k, StateChange db (storeStep L localId db event) f k := by
  cases event with
  | accept envelope caPem policyPem now =>
    cases hres : acceptDelegation L db envelope caPem policyPem now with
    | error e =>
      rw [storeStep, hres]
      exact Or.inr ⟨_, _, .refl db⟩
    | ok result =>
      obtain ⟨db', authority, delegation⟩ := result
      obtain ⟨grant, issuer, ha⟩ := acceptDelegation_ok hres
      rw [storeStep, hres]
      exact Or.inl ⟨envelope, caPem, policyPem, now, authority, delegation, grant, issuer,
        rfl, ha⟩
  | quarantine id =>
    cases hres : quarantineAuthority db localId id with
    | error e =>
      rw [storeStep, hres]
      exact Or.inr ⟨_, _, .refl db⟩
    | ok db' =>
      obtain ⟨authority, hchild, hstate, rfl⟩ := quarantineAuthority_ok hres
      obtain ⟨hmem, hid, _⟩ := directChild_ok hchild
      rw [storeStep, hres]
      refine Or.inr ⟨_, _, stateChange_setAuthorityState ?_⟩
      intro a ha haid
      rwa [eq_of_id h ha hmem (haid.trans hid.symm)]
  | restore id =>
    cases hres : restoreAuthority db localId id with
    | error e =>
      rw [storeStep, hres]
      exact Or.inr ⟨_, _, .refl db⟩
    | ok db' =>
      obtain ⟨authority, hchild, hstate, rfl⟩ := restoreAuthority_ok hres
      obtain ⟨hmem, hid, _⟩ := directChild_ok hchild
      rw [storeStep, hres]
      refine Or.inr ⟨_, _, stateChange_setAuthorityState ?_⟩
      intro a ha haid
      rw [eq_of_id h ha hmem (haid.trans hid.symm), hstate]
      decide
  | decommission id reason =>
    cases hres : decommissionAuthority db localId id reason with
    | error e =>
      rw [storeStep, hres]
      exact Or.inr ⟨_, _, .refl db⟩
    | ok db' =>
      obtain ⟨authority, _, hdone⟩ := decommissionAuthority_ok hres
      rw [storeStep, hres]
      exact Or.inr ⟨_, _, hdone.stateChange⟩

/-! ## Accepting a delegation -/

/-- A new row at the end does not change the top of an old one. -/
theorem TopScope.of_append {db : Db} (h : StoreInv L db) {new a : TrustAuthority}
    (hnew : new.id = db.nextId) (htop : TopScope (db.authorities ++ [new]) a scope)
    (ha : a ∈ db.authorities) :
    TopScope db.authorities a scope := by
  induction htop with
  | root hroot => exact .root hroot
  | @child a parent scope hmem hchild _ ih =>
    have hold : parent ∈ db.authorities := by
      rcases mem_append.mp hmem with hmem | hmem
      · exact hmem
      · -- the parent of an old row is old, and the new identifier is fresh
        obtain rfl := mem_singleton.mp hmem
        obtain ⟨p, hp, hpid⟩ := h.parents a ha _ hchild
        have hlt := h.ids p hp
        omega
    exact .child hold hchild (ih hold)

/-- The new row is a child of its issuer, so it has the top of its issuer. -/
theorem TopScope.issuer {db : Db} (h : StoreInv L db) {new issuer : TrustAuthority}
    (hnew : new.id = db.nextId) (hissuer : issuer ∈ db.authorities)
    (hparent : new.parentId = some issuer.id)
    (htop : TopScope (db.authorities ++ [new]) new scope) :
    TopScope db.authorities issuer scope := by
  cases htop with
  | root hroot => rw [hparent] at hroot; cases hroot
  | @child _ parent _ hmem hchild hrest =>
    have hid : parent.id = issuer.id := Option.some.inj (hchild.symm.trans hparent)
    have hlt := h.ids issuer hissuer
    have hold : parent ∈ db.authorities := by
      rcases mem_append.mp hmem with hmem | hmem
      · exact hmem
      · obtain rfl := mem_singleton.mp hmem
        omega
    obtain rfl := eq_of_id h hold hissuer hid
    exact hrest.of_append h hnew hold

section Accept

variable {db db' : Db} {envelope : PyJson} {caPem : String} {policyPem : Option String}
  {now : Int} {authority issuer : TrustAuthority} {delegation : Delegation}
  {grant : DelegationGrant}

theorem Accepted.issuer_mem (ha : Accepted L db envelope caPem policyPem now db' authority
    delegation grant issuer) : issuer ∈ db.authorities :=
  mem_of_find?_eq_some ha.issuer_eq

theorem Accepted.envelopeGrant_eq (ha : Accepted L db envelope caPem policyPem now db'
    authority delegation grant issuer) : envelopeGrant L envelope = some grant := by
  obtain ⟨_, _, _, hver⟩ := ha.verified
  exact envelopeGrant_of_verify hver

/-- An accepted delegation keeps the invariant. -/
theorem Accepted.storeInv (ha : Accepted L db envelope caPem policyPem now db' authority
    delegation grant issuer) (h : StoreInv L db) : StoreInv L db' := by
  have hdb := ha.db_eq
  subst hdb
  exact
    { ids := by
        intro a hmem
        rcases mem_append.mp hmem with hmem | hmem
        · have hlt := h.ids a hmem
          show a.id < db.nextId + 2
          omega
        · obtain rfl := mem_singleton.mp hmem
          show a.id < db.nextId + 2
          rw [ha.authority_id]
          omega
      distinct := by
        show ((db.authorities ++ [authority]).map (·.id)).Nodup
        rw [map_append, map_singleton]
        refine nodup_append.mpr ⟨h.distinct, nodup_singleton _, ?_⟩
        intro i hi j hj
        obtain ⟨a, hmem, rfl⟩ := mem_map.mp hi
        obtain rfl := mem_singleton.mp hj
        have hlt := h.ids a hmem
        rw [ha.authority_id]
        omega
      parents := by
        intro a hmem id hid
        rcases mem_append.mp hmem with hmem | hmem
        · obtain ⟨p, hp, hpid⟩ := h.parents a hmem id hid
          exact ⟨p, mem_append_left _ hp, hpid⟩
        · obtain rfl := mem_singleton.mp hmem
          rw [ha.authority_parent] at hid
          cases hid
          exact ⟨issuer, mem_append_left _ ha.issuer_mem, rfl⟩
      delegated := by
        intro d hmem
        rcases mem_append.mp hmem with hmem | hmem
        · obtain ⟨a, hmem', hrest⟩ := h.delegated d hmem
          exact ⟨a, mem_append_left _ hmem', hrest⟩
        · obtain rfl := mem_singleton.mp hmem
          refine ⟨authority, mem_append_right _ mem_cons_self,
            ha.delegation_subject.symm, by simp [ha.authority_parent], grant, ?_⟩
          rw [ha.delegation_envelope]
          exact ha.envelopeGrant_eq
      active := by
        intro a hmem hparent hstate
        rcases mem_append.mp hmem with hmem | hmem
        · obtain ⟨d, hd, hrest⟩ := h.active a hmem hparent hstate
          exact ⟨d, mem_append_left _ hd, hrest⟩
        · obtain rfl := mem_singleton.mp hmem
          exact ⟨delegation, mem_append_right _ mem_cons_self, ha.delegation_subject,
            ha.delegation_state⟩ }

/-- The grant of an issuer that is not a root bounds the new one. -/
theorem Accepted.within_of_parent (ha : Accepted L db envelope caPem policyPem now db' authority
    delegation grant issuer) (h : StoreInv L db) (hw : Within L db)
    (hparent : issuer.parentId ≠ none) {scope : String}
    (htop : TopScope db.authorities issuer scope) : GrantWithin scope grant := by
  have hstate : issuer.state ≠ .decommissioned := by
    rw [ha.issuer_active]
    decide
  obtain ⟨d, hd, hsub, hactive⟩ := h.active issuer ha.issuer_mem hparent hstate
  have hmem : d ∈ db.delegations.filter fun d =>
      d.subjectAuthorityId == issuer.id && d.state == .active :=
    mem_filter.mpr ⟨hd, by simp [hsub, hactive]⟩
  obtain ⟨latest, hlatest⟩ : ∃ latest, activeDelegation db issuer.id = some latest :=
    latestBy_isSome hmem
  obtain ⟨parentGrant, hgrant, hsubset⟩ := ha.narrowing latest hlatest
  have hlast := mem_filter.mp (latestBy_mem hlatest)
  have hsame : issuer.id = latest.subjectAuthorityId := by
    have hcond := hlast.2
    simp only [Bool.and_eq_true, beq_iff_eq] at hcond
    exact hcond.1.symm
  have hbound := hw latest hlast.1 issuer ha.issuer_mem hsame parentGrant hgrant scope htop
  exact hbound.narrower (grantIsSubset_iff.mp hsubset).2.2

/-- An accepted delegation stays inside when the delegations of root authorities do. -/
theorem Accepted.within (ha : Accepted L db envelope caPem policyPem now db' authority
    delegation grant issuer) (h : StoreInv L db) (hw : Within L db)
    (hroot : RootBounded L db (.accept envelope caPem policyPem now)) : Within L db' := by
  have hdb := ha.db_eq
  subst hdb
  intro d hd a hmem hid g hg scope htop
  rcases mem_append.mp hd with hd | hd
  · obtain ⟨b, hb, hbid, _⟩ := h.delegated d hd
    have hold : a ∈ db.authorities := by
      rcases mem_append.mp hmem with hmem | hmem
      · exact hmem
      · obtain rfl := mem_singleton.mp hmem
        have hlt := h.ids b hb
        rw [hbid, ← hid, ha.authority_id] at hlt
        omega
    exact hw d hd a hold hid g hg scope (htop.of_append h ha.authority_id hold)
  · obtain rfl := mem_singleton.mp hd
    have hnew : a = authority := by
      rcases mem_append.mp hmem with hmem | hmem
      · have hlt := h.ids a hmem
        rw [hid, ha.delegation_subject, ha.authority_id] at hlt
        omega
      · exact mem_singleton.mp hmem
    subst hnew
    rw [ha.delegation_envelope, ha.envelopeGrant_eq] at hg
    cases hg
    have htop' := htop.issuer h ha.authority_id ha.issuer_mem ha.authority_parent
    by_cases hparent : issuer.parentId = none
    · cases htop' with
      | root _ =>
        exact grantWithin_iff.mpr
          (hroot grant issuer ha.envelopeGrant_eq ha.issuer_eq hparent)
      | child _ hchild _ =>
        rw [hparent] at hchild
        cases hchild
    · exact ha.within_of_parent h hw hparent htop'

/-- When the new delegation is inside, it was bounded by its root. -/
theorem Accepted.rootBounded (ha : Accepted L db envelope caPem policyPem now db' authority
    delegation grant issuer) (hw : Within L db') :
    RootBounded L db (.accept envelope caPem policyPem now) := by
  have hdb := ha.db_eq
  subst hdb
  intro g found hg hfound hparent
  rw [ha.envelopeGrant_eq] at hg
  cases hg
  rw [ha.issuer_eq] at hfound
  cases hfound
  have htop : TopScope (db.authorities ++ [authority]) authority issuer.namespaceScope :=
    .child (mem_append_left _ ha.issuer_mem) ha.authority_parent (.root hparent)
  refine (hw delegation (mem_append_right _ mem_cons_self) authority
    (mem_append_right _ mem_cons_self) ha.delegation_subject.symm grant ?_ _ htop).1
  rw [ha.delegation_envelope]
  exact ha.envelopeGrant_eq

end Accept

/-! ## Runs -/

/-- Every step keeps the invariant. -/
theorem storeInv_step {db : Db} (h : StoreInv L db) (event : StoreEvent) :
    StoreInv L (storeStep L localId db event) := by
  rcases storeStep_cases h localId event with ⟨_, _, _, _, _, _, _, _, _, ha⟩ | ⟨_, _, hc⟩
  · exact ha.storeInv h
  · exact hc.storeInv h

/-- Every step whose root delegations are bounded keeps the store inside. -/
theorem within_step {db : Db} (h : StoreInv L db) (hw : Within L db) (event : StoreEvent)
    (hroot : RootBounded L db event) :
    Within L (storeStep L localId db event) := by
  rcases storeStep_cases h localId event with ⟨_, _, _, _, _, _, _, _, rfl, ha⟩ | ⟨_, _, hc⟩
  · exact ha.within h hw hroot
  · exact hc.within hw

/-- A step after which the store is inside accepted no delegation that escapes its root. -/
theorem rootBounded_of_within {db : Db} {event : StoreEvent}
    (hw : Within L (storeStep L localId db event)) (hacc : Accepts L db event) :
    RootBounded L db event := by
  cases event with
  | accept envelope caPem policyPem now =>
    obtain ⟨⟨db', authority, delegation⟩, hres⟩ := hacc
    rw [storeStep, hres] at hw
    obtain ⟨grant, issuer, ha⟩ := acceptDelegation_ok hres
    exact ha.rootBounded hw
  | quarantine _ | restore _ | decommission _ _ => exact hacc.elim

/-- Delegation stays inside the scope of the root exactly when the delegations made by
the root itself do: for the proofs that verify, and for the runs of a trust store. -/
theorem delegation_within_root (L : Libs) :
    (∀ proof trusted revoked now last,
      verifyTrustChain L proof trusted revoked now = .ok last →
      ((∀ g ∈ proofGrants L proof, GrantWithin trusted.namespaceScope g) ↔
        ∀ g, (proofGrants L proof).head? = some g →
          ScopeWithin trusted.namespaceScope g.namespace_)) ∧
    (∀ localId db events, RootStore db →
      (Guarded (storeStep L localId) (RootBounded L) db events →
        Always (storeStep L localId) (Within L) db events) ∧
      (Always (storeStep L localId) (Within L) db events →
        Guarded (storeStep L localId) (fun s e => Accepts L s e → RootBounded L s e) db
          events)) := by
  refine ⟨fun proof trusted revoked now last h => proof_within_iff h, ?_⟩
  intro localId db events hstore
  refine ⟨?_, ?_⟩
  · intro hguard
    have hboth := Runs.always_of_guarded (P := fun s => StoreInv L s ∧ Within L s)
      (fun s e hs he => ⟨storeInv_step hs.1 e, within_step hs.1 hs.2 e he⟩)
      ⟨hstore.storeInv, hstore.within⟩ hguard
    exact hboth.imp fun _ hs => hs.2
  · intro hall
    refine Runs.guarded_iff.mpr ?_
    intro as e bs hes hacc
    have hnext : Within L (storeStep L localId (Runs.final (storeStep L localId) db as) e) := by
      simpa using Runs.always_iff.mp hall (as ++ [e]) bs (by rw [hes]; simp)
    exact rootBounded_of_within hnext hacc

open Registry in
/-- A root with the scope `LTU/**` delegates `EST/**`.  The proof verifies, and the store
accepts the delegation. -/
theorem delegation_leaves_root :
    (∃ last, verifyTrustChain (family outsideGrant).libs (familyProof outsideGrant) familyRoot
      [] 5 = .ok last) ∧
    (∃ g ∈ proofGrants (family outsideGrant).libs (familyProof outsideGrant),
      ¬GrantWithin familyRoot.namespaceScope g) ∧
    RootStore familyStore ∧
    ¬Within (family outsideGrant).libs (storeStep (family outsideGrant).libs 0 familyStore
      (.accept (familyEnvelope outsideGrant) (digest 2) (some (digest 3)) 5)) := by
  have hproof : (verifyTrustChain (family outsideGrant).libs (familyProof outsideGrant)
      familyRoot [] 5).isOk = true := by
    decide +kernel
  have haccept : (acceptDelegation (family outsideGrant).libs familyStore
      (familyEnvelope outsideGrant) (digest 2) (some (digest 3)) 5).isOk = true := by
    decide +kernel
  have hgrant : envelopeGrant (family outsideGrant).libs (familyEnvelope outsideGrant) =
      some outsideGrant := by
    decide +kernel
  have houtside : ¬ScopeWithin familyRoot.namespaceScope outsideGrant.namespace_ := by
    decide +kernel
  have hmem : outsideGrant ∈ proofGrants (family outsideGrant).libs
      (familyProof outsideGrant) := by
    refine List.mem_filterMap.mpr ⟨_, .head _, ?_⟩
    exact hgrant
  refine ⟨exists_of_isOk hproof, ⟨outsideGrant, hmem, fun h => houtside h.1⟩, ?_, ?_⟩
  · exact
      { roots := by decide
        ids := by decide
        distinct := by decide
        delegations := rfl }
  · intro hw
    exact houtside (rootBounded_of_within hw (exists_of_isOk haccept) outsideGrant familyRoot
      hgrant (by decide +kernel) rfl)

open Registry in
/-- Delegations inside the scope of the root stay there. -/
theorem delegation_within_root_family :
    (∀ g ∈ proofGrants (family insideGrant).libs (familyProof insideGrant),
      GrantWithin familyRoot.namespaceScope g) ∧
    Always (storeStep (family insideGrant).libs 0) (Within (family insideGrant).libs)
      familyStore
      [.accept (familyEnvelope insideGrant) (digest 2) (some (digest 3)) 5,
        .quarantine 1, .decommission 1 "lost"] := by
  have hgrant : envelopeGrant (family insideGrant).libs (familyEnvelope insideGrant) =
      some insideGrant := by
    decide +kernel
  have hinside : ScopeWithin familyRoot.namespaceScope insideGrant.namespace_ := by
    decide +kernel
  have hstore : RootStore familyStore :=
    { roots := by decide, ids := by decide, distinct := by decide, delegations := rfl }
  obtain ⟨last, hlast⟩ := exists_of_isOk familyProof_verifies
  have hgrants : proofGrants (family insideGrant).libs (familyProof insideGrant) =
      [insideGrant] :=
    List.filterMap_cons_some hgrant
  refine ⟨((delegation_within_root _).1 _ _ _ _ _ hlast).mpr ?_,
    ((delegation_within_root _).2 0 _ _ hstore).1 ⟨?_, trivial, trivial, trivial⟩⟩
  · intro g hg
    rw [hgrants] at hg
    cases hg
    exact hinside
  · intro g issuer hg hissuer _
    rw [hgrant] at hg
    cases hg
    have hroot : authorityByIdentity familyStore insideGrant.issuerIdentity =
        some familyRoot := by
      decide +kernel
    rw [hroot] at hissuer
    cases hissuer
    exact hinside

end Efdi.Trust

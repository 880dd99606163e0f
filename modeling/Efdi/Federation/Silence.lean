import Efdi.Federation.Topology
import Efdi.Trust.Namespace

/-!
# Children out of service

What a quarantined or decommissioned child can still make its parent record.  The
enrolment path reads the state of the authority row, so it is closed for both.  A chain
that the envelope attaches is verified against the active revocations only, and the
authority it proves has no state.  Decommissioning adds a revocation of the identity,
quarantine adds none.

So such a child is silenced exactly when no attached chain proves it
(`silenced_iff_not_proven`), and every decommissioned child is.
-/

namespace Efdi.Federation

open Checks List
open Trust (Libs VerifiedAuthority ControlAction verifyTrustChain verifyTrustChain_iff
  RootStore StoreInv StoreEvent storeStep authorityById)

variable {L : Libs} {P : Leaves} {env : Env}

/-! ## What a chain proves -/

theorem effectiveGrant_of_verify {proof : PyJson} {anchor : TrustAuthority}
    {revoked : List String} {now : Int} {last : VerifiedAuthority}
    (h : verifyTrustChain L proof anchor revoked now = .ok last) :
    (∃ grant, last.effectiveGrant = some grant) ∧ last.identityUri ∉ revoked := by
  obtain ⟨steps, links, root, hproof⟩ := verifyTrustChain_iff.mp h
  have hlast := hproof.chain.last_eq
  have hlen := hproof.chain.length
  have hbound := hproof.bounded
  cases hl : links.getLast? with
  | none =>
    rw [getLast?_eq_none_iff.mp hl, length_nil] at hlen
    omega
  | some link =>
    rw [hl] at hlast
    obtain ⟨_, _, hstep⟩ := hproof.chain.forall_link link (mem_of_getLast? hl)
    rw [hlast]
    exact ⟨⟨link.grant, rfl⟩, hstep.notRevoked.1⟩

/-- The chain an envelope attaches proves the router of a namespace, with an action among
those it was granted. -/
structure ProvenBy (L : Libs) (env : Env) (db : Db) (namespace_ : String) (envelope : PyJson)
    (now : Int) (action : ControlAction) (authority : VerifiedAuthority) : Prop where
  chain : ∃ proof anchor, attachedChain envelope = some proof ∧ anchorOf db proof = some anchor ∧
    verifyTrustChain L proof anchor (revokedReferences db) now = .ok authority
  identity : env.identity namespace_ = .ok authority.identityUri
  granted : ∃ grant, authority.effectiveGrant = some grant ∧ action ∈ grant.control

/-- An attached chain proves the sender of a status report, which it signed. -/
def ProvenStatus (L : Libs) (env : Env) (db : Db) (namespace_ : String) (envelope : PyJson)
    (now : Int) (report : StatusReport) : Prop :=
  ∃ authority body, ProvenBy L env db namespace_ envelope now .status authority ∧
    authority.policySignerCertPem ≠ "" ∧
    verifyEnvelope L envelope authority.policySignerCertPem none .status now = .ok body ∧
    statusReport body = some report

/-- An attached chain proves the sender of a topology fact, which it signed. -/
def ProvenTopology (L : Libs) (P : Leaves) (env : Env) (db : Db) (namespace_ : String)
    (envelope : PyJson) (now : Int) (fact : Fact) : Prop :=
  ∃ authority body, ProvenBy L env db namespace_ envelope now .topology authority ∧
    verifyEnvelope L envelope authority.policySignerCertPem none .topology now = .ok body ∧
    normalizeFact P body = some fact ∧ fact.namespace_ = namespace_

/-- A revoked identity is proved by no chain. -/
theorem not_provenBy_of_revoked {db : Db} {namespace_ identity : String}
    (hid : env.identity namespace_ = .ok identity) (hrev : identity ∈ revokedReferences db)
    {envelope : PyJson} {now : Int} {action : ControlAction} {authority : VerifiedAuthority} :
    ¬ProvenBy L env db namespace_ envelope now action authority := by
  intro h
  obtain ⟨_, _, _, _, hver⟩ := h.chain
  have hsame : identity = authority.identityUri := Except.ok.inj (hid.symm.trans h.identity)
  exact (effectiveGrant_of_verify hver).2 (hsame ▸ hrev)

/-! ## Children of the local authority -/

/-- A direct child of the local authority that is out of service, with its namespace. -/
structure OutOfService (env : Env) (db : Db) (localAuthority child : TrustAuthority)
    (namespace_ : String) : Prop where
  localMem : localAuthority ∈ db.authorities
  localIdentity : env.identity env.ownNamespace = .ok localAuthority.identityUri
  childMem : child ∈ db.authorities
  childIdentity : env.identity namespace_ = .ok child.identityUri
  direct : child.parentId = some localAuthority.id ∧ child ≠ localAuthority
  unique : ∀ a ∈ db.authorities, ∀ b ∈ db.authorities, a.identityUri = b.identityUri → a = b
  state : child.state = .quarantined ∨ child.state = .decommissioned

section OutOfService

variable {db : Db} {localAuthority child : TrustAuthority} {namespace_ : String}

/-- The topic of a child is not the own topic. -/
theorem OutOfService.namespace_ne (h : OutOfService env db localAuthority child namespace_) :
    namespace_ ≠ env.ownNamespace := by
  rintro rfl
  have hsame := Except.ok.inj (h.childIdentity.symm.trans h.localIdentity)
  exact h.direct.2 (h.unique child h.childMem localAuthority h.localMem hsame)

/-- The enrolment path is closed for a child out of service. -/
theorem OutOfService.not_enrolled (h : OutOfService env db localAuthority child namespace_)
    {row : TrustAuthority} (hmem : row ∈ db.authorities) {pem : String} :
    statusSigner env db namespace_ (.enrolled row) ≠ some pem := by
  intro hpem
  obtain ⟨_, _, hid, _, hactive, _⟩ := statusSigner_eq_some_iff.mp hpem
  have hsame : row = child :=
    h.unique row hmem child h.childMem (Except.ok.inj (hid.symm.trans h.childIdentity))
  have hstate : child.state = .active := hsame ▸ hactive
  rcases h.state with hq | hd
  · rw [hq] at hstate
    cases hstate
  · rw [hd] at hstate
    cases hstate

variable {envelope : PyJson} {now : Int}

/-- A status of a child out of service is accepted exactly when a chain proves it. -/
theorem OutOfService.acceptedStatus_iff (h : OutOfService env db localAuthority child namespace_)
    {report : StatusReport} :
    acceptedStatus L env db namespace_ envelope now = some report ↔
      ProvenStatus L env db namespace_ envelope now report := by
  rw [acceptedStatus_eq_some_iff]
  constructor
  · rintro (⟨authority, hproven, hsigned⟩ | ⟨_, row, hrow, hsigned⟩)
    · obtain ⟨proof, anchor, hproof, hanchor, hver⟩ := provenAuthority_eq_some_iff.mp hproven
      obtain ⟨pem, body, hpem, hbody, hreport⟩ := signedReport_eq_some_iff.mp hsigned
      obtain ⟨hcert, hne, hid, hctl, _, _⟩ := statusSigner_eq_some_iff.mp hpem
      obtain ⟨grant, hgrant⟩ := (effectiveGrant_of_verify hver).1
      obtain rfl : authority.policySignerCertPem = pem := Option.some.inj hcert
      exact ⟨authority, body, ⟨⟨proof, anchor, hproof, hanchor, hver⟩, hid, grant, hgrant,
        hctl grant hgrant⟩, hne, hbody, hreport⟩
    · -- the fallback finds a row of the store, and no row may send
      obtain ⟨pem, _, hpem, _, _⟩ := signedReport_eq_some_iff.mp hsigned
      obtain ⟨id, _, hfound⟩ := Option.bind_eq_some_iff.mp hrow
      exact absurd hpem (h.not_enrolled (mem_of_find?_eq_some hfound))
  · rintro ⟨authority, body, hby, hne, hver, hreport⟩
    obtain ⟨grant, hgrant, hcontrol⟩ := hby.granted
    refine Or.inl ⟨authority, provenAuthority_eq_some_iff.mpr hby.chain,
      signedReport_eq_some_iff.mpr ⟨_, body, statusSigner_eq_some_iff.mpr
        ⟨rfl, hne, hby.identity, ?_, rfl, rfl⟩, hver, hreport⟩⟩
    intro g hg
    obtain rfl := Option.some.inj (hgrant.symm.trans hg)
    exact hcontrol

/-- A fact of a child is accepted exactly when a chain proves it. -/
theorem OutOfService.acceptedFact_iff (h : OutOfService env db localAuthority child namespace_)
    {ownPolicyCert : Option String} {fact : Fact} :
    acceptedFact L P env db ownPolicyCert namespace_ envelope now = some fact ↔
      ProvenTopology L P env db namespace_ envelope now fact := by
  rw [acceptedFact_eq_some_iff h.namespace_ne]
  constructor
  · rintro ⟨pem, body, hpem, hbody, hfact, hns⟩
    obtain ⟨authority, hproven, hid, hctl, rfl⟩ := topologySigner_eq_some_iff.mp hpem
    exact ⟨authority, body, ⟨provenAuthority_eq_some_iff.mp hproven, hid, hctl⟩, hbody, hfact,
      hns⟩
  · rintro ⟨authority, body, hby, hver, hfact, hns⟩
    exact ⟨_, body, topologySigner_eq_some_iff.mpr ⟨authority,
      provenAuthority_eq_some_iff.mpr hby.chain, hby.identity, hby.granted, rfl⟩, hver, hfact,
      hns⟩

/-! ## What is recorded -/

/-- The database with other children and revisions.  The trust tables stay. -/
def withRecords (db : Db) (children : List FederatedChild) (revisions : List ConfigRevision) :
    Db :=
  { db with children, revisions }

/-- The status of a child changes no row, whatever the children and revisions are. -/
def StatusSilent (L : Libs) (env : Env) (db : Db) (namespace_ : String) (envelope : PyJson)
    (now : Int) : Prop :=
  ∀ children revisions,
    verifyAndRecordStatus L env (withRecords db children revisions) namespace_ envelope now =
      withRecords db children revisions

/-- The fact of a child changes no entry, whatever the store holds. -/
def TopologySilent (L : Libs) (P : Leaves) (env : Env) (db : Db) (namespace_ : String)
    (envelope : PyJson) (now : Int) : Prop :=
  ∀ ownPolicyCert t monotonic,
    verifyAndRecordTopology L P env db ownPolicyCert t namespace_ envelope now monotonic = t

/-- A row without a status. -/
def unreportedChild (namespace_ : String) : FederatedChild where
  id := 0
  name := namespace_
  namespace_
  lastStatus := none
  lastStatusVersion := none
  lastStatusAt := none
  lastStatusError := none
  certSha256 := none
  maxDelegationDepth := 0

theorem statusSilent_iff :
    StatusSilent L env db namespace_ envelope now ↔
      acceptedStatus L env db namespace_ envelope now = none := by
  have hsame : ∀ children revisions,
      acceptedStatus L env (withRecords db children revisions) namespace_ envelope now =
        acceptedStatus L env db namespace_ envelope now := fun _ _ => rfl
  constructor
  · intro h
    cases hacc : acceptedStatus L env db namespace_ envelope now with
    | none => rfl
    | some report =>
      -- a row of the child without a status gets the version of the report
      have hrow := h [unreportedChild namespace_] []
      rw [verifyAndRecordStatus, hsame, hacc] at hrow
      have hcols := congrArg (statusColumns · namespace_) hrow
      simp only [statusColumns_recordStatus] at hcols
      simp [statusColumns, childRow, withRecords, unreportedChild,
        StatusReport.columns] at hcols
  · intro h children revisions
    rw [verifyAndRecordStatus, hsame, h]

theorem topologySilent_iff :
    TopologySilent L P env db namespace_ envelope now ↔
      ∀ ownPolicyCert, acceptedFact L P env db ownPolicyCert namespace_ envelope now = none := by
  constructor
  · intro h ownPolicyCert
    cases hacc : acceptedFact L P env db ownPolicyCert namespace_ envelope now with
    | none => rfl
    | some fact =>
      have hstore := h ownPolicyCert PyDict.empty 0
      rw [verifyAndRecordTopology, hacc] at hstore
      have hget := congrArg (·.get? fact.namespace_) hstore
      simp only [Topology.get?_recordFact_self] at hget
      cases hget
  · intro h ownPolicyCert t monotonic
    rw [verifyAndRecordTopology, h]

/-- A child out of service records nothing exactly when no attached chain proves it. -/
theorem OutOfService.silent_iff (h : OutOfService env db localAuthority child namespace_) :
    (StatusSilent L env db namespace_ envelope now ∧
        TopologySilent L P env db namespace_ envelope now) ↔
      (∀ report, ¬ProvenStatus L env db namespace_ envelope now report) ∧
        ∀ fact, ¬ProvenTopology L P env db namespace_ envelope now fact := by
  rw [statusSilent_iff, topologySilent_iff, Option.eq_none_iff_forall_ne_some]
  refine and_congr ?_ ?_
  · exact forall_congr' fun report => not_congr h.acceptedStatus_iff
  · constructor
    · intro hnone fact hproven
      have hsome : acceptedFact L P env db none namespace_ envelope now = some fact :=
        h.acceptedFact_iff.mpr hproven
      rw [hnone none] at hsome
      cases hsome
    · intro hnot ownPolicyCert
      refine Option.eq_none_iff_forall_ne_some.mpr ?_
      intro fact hsome
      exact hnot fact (h.acceptedFact_iff.mp hsome)

end OutOfService

/-! ## Decommissioned children -/

/-- The identity of every decommissioned authority is revoked. -/
def DecommissionedRevoked (db : Db) : Prop :=
  ∀ a ∈ db.authorities, a.state = .decommissioned → a.identityUri ∈ revokedReferences db

/-- Writing a state other than the final one revokes nothing and needs no revocation. -/
theorem DecommissionedRevoked.setState {db : Db} (h : DecommissionedRevoked db) {id : Nat}
    {state : AuthorityState} (hstate : state ≠ .decommissioned) :
    DecommissionedRevoked (Trust.setAuthorityState db id state) := by
  intro a ha hdone
  obtain ⟨b, hb, rfl⟩ := mem_map.mp ha
  by_cases hid : b.id = id
  · rw [if_pos hid] at hdone
    exact absurd hdone hstate
  · rw [if_neg hid] at hdone ⊢
    exact h b hb hdone

/-- Decommissioning revokes the identity. -/
theorem DecommissionedRevoked.decommission {db db' : Db} (h : DecommissionedRevoked db)
    (hinv : StoreInv L db) {authority : TrustAuthority} (hmem : authority ∈ db.authorities)
    {reason : String} (hdone : Trust.Decommissioned db authority reason db') :
    DecommissionedRevoked db' := by
  intro a ha hstate
  rw [revokedReferences, hdone.revocations, filter_append, map_append]
  rw [hdone.authorities] at ha
  obtain ⟨b, hb, rfl⟩ := mem_map.mp ha
  by_cases hid : b.id = authority.id
  · obtain rfl := Trust.eq_of_id hinv hb hmem hid
    rw [if_pos rfl]
    exact mem_append_right _ (by simp)
  · rw [if_neg hid] at hstate ⊢
    exact mem_append_left _ (h b hb hstate)

theorem decommissionedRevoked_step {localId : Nat} {db : Db} (hinv : StoreInv L db)
    (h : DecommissionedRevoked db) (event : StoreEvent) :
    DecommissionedRevoked (storeStep L localId db event) := by
  cases event with
  | accept envelope caPem policyPem now =>
    rw [storeStep]
    split
    next db' authority delegation hres =>
      obtain ⟨grant, issuer, hacc⟩ := Trust.acceptDelegation_ok hres
      rw [hacc.db_eq]
      intro a ha hstate
      rcases mem_append.mp ha with ha | ha
      · exact h a ha hstate
      · obtain rfl := mem_singleton.mp ha
        rw [hacc.authority_state] at hstate
        cases hstate
    next => exact h
  | quarantine id =>
    rw [storeStep]
    cases hres : Trust.quarantineAuthority db localId id with
    | error e => exact h
    | ok db' =>
      obtain ⟨_, _, _, rfl⟩ := Trust.quarantineAuthority_ok hres
      exact h.setState (by decide)
  | restore id =>
    rw [storeStep]
    cases hres : Trust.restoreAuthority db localId id with
    | error e => exact h
    | ok db' =>
      obtain ⟨_, _, _, rfl⟩ := Trust.restoreAuthority_ok hres
      exact h.setState (by decide)
  | decommission id reason =>
    rw [storeStep]
    cases hres : Trust.decommissionAuthority db localId id reason with
    | error e => exact h
    | ok db' =>
      obtain ⟨authority, hchild, hdone⟩ := Trust.decommissionAuthority_ok hres
      exact h.decommission hinv (Trust.directChild_ok hchild).1 hdone

/-- A child out of service records nothing exactly when no chain it attaches proves it.
In every run of a trust store a decommissioned child is proved by no chain. -/
theorem silenced_iff_not_proven (L : Libs) (P : Leaves) (env : Env) :
    (∀ db localAuthority child namespace_, OutOfService env db localAuthority child namespace_ →
      ∀ envelope now,
        ((StatusSilent L env db namespace_ envelope now ∧
            TopologySilent L P env db namespace_ envelope now) ↔
          (∀ report, ¬ProvenStatus L env db namespace_ envelope now report) ∧
            ∀ fact, ¬ProvenTopology L P env db namespace_ envelope now fact)) ∧
    (∀ localId start events, RootStore start →
      (∀ a ∈ start.authorities, a.state ≠ .decommissioned) →
      ∀ child ∈ (Runs.final (storeStep L localId) start events).authorities,
        child.state = .decommissioned →
        ∀ namespace_, env.identity namespace_ = .ok child.identityUri → ∀ envelope now,
          (∀ report, ¬ProvenStatus L env (Runs.final (storeStep L localId) start events)
            namespace_ envelope now report) ∧
          ∀ fact, ¬ProvenTopology L P env (Runs.final (storeStep L localId) start events)
            namespace_ envelope now fact) := by
  refine ⟨fun db localAuthority child namespace_ h envelope now => h.silent_iff, ?_⟩
  intro localId start events hroot hstart child hchild hstate namespace_ hid envelope now
  have hkept : ∀ db event, StoreInv L db ∧ DecommissionedRevoked db →
      StoreInv L (storeStep L localId db event) ∧
        DecommissionedRevoked (storeStep L localId db event) :=
    fun db event h => ⟨Trust.storeInv_step h.1 event, decommissionedRevoked_step h.1 h.2 event⟩
  have hrevoked : StoreInv L (Runs.final (storeStep L localId) start events) ∧
      DecommissionedRevoked (Runs.final (storeStep L localId) start events) :=
    Runs.final_of_step hkept
      ⟨hroot.storeInv, fun a ha hdone => absurd hdone (hstart a ha)⟩
  have hmem := hrevoked.2 child hchild hstate
  refine ⟨?_, ?_⟩
  · rintro report ⟨_, _, hby, _⟩
    exact not_provenBy_of_revoked hid hmem hby
  · rintro fact ⟨_, _, hby, _⟩
    exact not_provenBy_of_revoked hid hmem hby

/-! ## A quarantined child with its chain -/

/-- The enrolled child, quarantined. -/
def quarantinedStore : Db := Trust.setAuthorityState Trust.Registry.enrolledStore 1 .quarantined

def quarantinedChild : TrustAuthority :=
  { Trust.Registry.familyChild with state := .quarantined }

theorem outOfService_quarantined : OutOfService familyEnv quarantinedStore
    Trust.Registry.familyRoot quarantinedChild "hq/c" where
  localMem := by decide +kernel
  localIdentity := by decide +kernel
  childMem := by decide +kernel
  childIdentity := by decide +kernel
  direct := ⟨rfl, by decide +kernel⟩
  unique := by decide +kernel
  state := Or.inl rfl

/-- A report with the chain of the child. -/
def chainPayload : PyJson :=
  .dict [("version", .int 1), ("health", .str "ok"),
    ("trust_chain", Trust.Registry.familyProof Trust.Registry.insideGrant)]

def chainEnvelope : PyJson :=
  .dict [("payload", chainPayload), ("signature", .str "Y2hhaW4=")]

/-- The child of the family signed the report with its chain. -/
def chainFamily : Trust.Registry :=
  (Trust.Registry.family Trust.Registry.insideGrant).sign
    [("Y2hhaW4=", 3, signedBytes .status chainPayload)]

/-- A quarantined child attaches the chain it got while it was active, and its status is
recorded. -/
theorem quarantined_not_silent :
    OutOfService familyEnv quarantinedStore Trust.Registry.familyRoot quarantinedChild "hq/c" ∧
      verifyAndRecordStatus chainFamily.libs familyEnv quarantinedStore "hq/c" chainEnvelope
        10 ≠ quarantinedStore := by
  refine ⟨outOfService_quarantined, ?_⟩
  intro hsame
  have hcols := congrArg (storedVersion · "hq/c") hsame
  revert hcols
  decide +kernel

/-- Without a chain the quarantined child is silent, and once it is decommissioned no
chain proves it. -/
theorem silenced_family :
    (StatusSilent reportingFamily.libs familyEnv quarantinedStore "hq/c" okStatus1.envelope 10 ∧
      TopologySilent reportingFamily.libs ⟨fun _ => none, fun _ => none, fun _ => none⟩ familyEnv
        quarantinedStore "hq/c" okStatus1.envelope 10) ∧
    ∀ envelope now report, ¬ProvenStatus (Trust.Registry.family Trust.Registry.insideGrant).libs
      familyEnv (Runs.final
        (storeStep (Trust.Registry.family Trust.Registry.insideGrant).libs 0)
        Trust.Registry.familyStore
        [.accept (Trust.Registry.familyEnvelope Trust.Registry.insideGrant)
          (Trust.Registry.digest 2) (some (Trust.Registry.digest 3)) 5,
          .decommission 1 "lost"]) "hq/c" envelope now report := by
  have hnone : attachedChain okStatus1.envelope = none := by decide +kernel
  refine ⟨((silenced_iff_not_proven _ _ _).1 _ _ _ _ outOfService_quarantined _ _).mpr
    ⟨?_, ?_⟩, ?_⟩
  · rintro report ⟨_, _, hby, _⟩
    obtain ⟨_, _, hchain, _⟩ := hby.chain
    rw [hnone] at hchain
    cases hchain
  · rintro fact ⟨_, _, hby, _⟩
    obtain ⟨_, _, hchain, _⟩ := hby.chain
    rw [hnone] at hchain
    cases hchain
  · intro envelope now report
    have hstore : RootStore Trust.Registry.familyStore :=
      { roots := by decide, ids := by decide, distinct := by decide, delegations := rfl }
    have hchild : ∃ child ∈ (Runs.final
        (storeStep (Trust.Registry.family Trust.Registry.insideGrant).libs 0)
        Trust.Registry.familyStore
        [.accept (Trust.Registry.familyEnvelope Trust.Registry.insideGrant)
          (Trust.Registry.digest 2) (some (Trust.Registry.digest 3)) 5,
          .decommission 1 "lost"]).authorities,
        child.state = .decommissioned ∧ child.identityUri = Trust.Registry.childIdentity := by
      decide +kernel
    obtain ⟨child, hmem, hstate, hid⟩ := hchild
    exact ((silenced_iff_not_proven _ ⟨fun _ => none, fun _ => none, fun _ => none⟩ familyEnv).2
      0 _ _ hstore (by decide) child hmem hstate "hq/c" (by rw [hid]; decide +kernel) envelope
      now).1 report

end Efdi.Federation

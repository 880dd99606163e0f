import Efdi.Trust.Namespace

/-!
# Exporting a trust chain

`export_trust_chain` of `trust_store.py`: the proof of an authority, from the rows of the
store.  A store that grew from a root by accepted delegations keeps for each authority what
`verify_trust_chain` will check (`Persisted`), so the exported proof of an authority
verifies and gives the authority back.

Two limits of the verification are not limits of the acceptance: the number of steps, and
the size of a certificate text.
-/

namespace Efdi.Trust

open Checks List

variable (L : Libs)

/-! ## The export -/

/-- The anchor above an authority and the authorities below the anchor, with room for a number
of them. -/
def lineage (db : Db) :
    Nat → TrustAuthority → Except TrustError (TrustAuthority × List TrustAuthority)
  | 0, current =>
    match current.parentId with
    | none => .ok (current, [])
    | some _ => .error (.trustStore "trust chain exceeds the supported depth")
  | room + 1, current =>
    match current.parentId with
    | none => .ok (current, [])
    | some parentId =>
      match authorityById db parentId with
      | none => .error (.trustStore "trust chain contains a missing parent authority")
      | some parent => do
          let (anchor, below) ← lineage db room parent
          return (anchor, below ++ [current])

/-- The step of a subject in a proof. -/
def proofStep (envelope : PyJson) (subject : TrustAuthority) : PyJson :=
  .dict [("delegation_envelope", envelope), ("subject_ca_certificate", .str subject.caCertPem),
    ("subject_policy_signer_certificate", optStr subject.policySignerCertPem)]

/-- The step of a subject, from its latest active delegation. -/
def exportStep (db : Db) (subject : TrustAuthority) : Except TrustError PyJson :=
  match activeDelegation db subject.id with
  | none =>
    .error (.trustStore "trust chain contains an authority without an active delegation")
  | some delegation => .ok (proofStep delegation.envelopeJson subject)

/-- The steps of the subjects below an anchor. -/
def exportSteps (db : Db) : List TrustAuthority → Except TrustError (List PyJson)
  | [] => .ok []
  | subject :: subjects => do
      let step ← exportStep db subject
      let steps ← exportSteps db subjects
      return step :: steps

/-- The anchor of a proof. -/
def exportAnchor (anchor : TrustAuthority) : PyJson :=
  .dict [("identity_uri", .str anchor.identityUri),
    ("namespace_scope", .str anchor.namespaceScope),
    ("ca_sha256", .str anchor.caFingerprint),
    ("ca_certificate", .str anchor.caCertPem),
    ("policy_signer_sha256", optStr anchor.policySignerFingerprint),
    ("policy_signer_certificate", optStr anchor.policySignerCertPem),
    ("max_delegation_depth", .int anchor.maxDelegationDepth),
    ("not_after", .str (L.isoformat anchor.notAfter))]

/-- The document of a proof. -/
def proofDocument (anchor : TrustAuthority) (steps : List PyJson) : PyJson :=
  .dict [("schema", .str "efdi.trust-chain/v1"), ("anchor", exportAnchor L anchor),
    ("steps", .list steps)]

/-- Export the bounded public proof from a local trust anchor to an authority. -/
def exportTrustChain (db : Db) (authority : TrustAuthority) : Except TrustError PyJson := do
  let (anchor, below) ← lineage db (maxTrustChainDepth - 1) authority
  let steps ← exportSteps db below
  return proofDocument L anchor steps

variable {L}

/-! ## Lineages -/

/-- The authorities from below a root down to an authority. -/
inductive Ancestry (authorities : List TrustAuthority) (root : TrustAuthority) :
    TrustAuthority → List TrustAuthority → Prop where
  | root : Ancestry authorities root root []
  | child {a parent : TrustAuthority} {path : List TrustAuthority} :
      parent ∈ authorities → a ∈ authorities → a.parentId = some parent.id →
      Ancestry authorities root parent path → Ancestry authorities root a (path ++ [a])

variable {db db' : Db} {a root issuer authority : TrustAuthority} {grant : DelegationGrant}
  {caPem policyPem : String} {now : Int} {envelope : PyJson} {delegation : Delegation}

theorem authorityById_eq (hdistinct : (db.authorities.map (·.id)).Nodup) (ha : a ∈ db.authorities) :
    authorityById db a.id = some a := by
  rw [authorityById]
  cases hfound : db.authorities.find? (·.id == a.id) with
  | none => exact absurd (find?_eq_none.mp hfound a ha) (by simp)
  | some b =>
    have hid : b.id = a.id := by simpa using find?_some hfound
    rw [inj_on_of_nodup_map hdistinct (mem_of_find?_eq_some hfound) ha hid]

/-- The lineage of an authority is found when there is room for it, and only then. -/
theorem lineage_of_ancestry (hdistinct : (db.authorities.map (·.id)).Nodup)
    {path : List TrustAuthority} (hroot : root.parentId = none)
    (h : Ancestry db.authorities root a path) :
    ∀ room, (path.length ≤ room → lineage db room a = .ok (root, path)) ∧
      (room < path.length → ∃ e, lineage db room a = .error e) := by
  induction h with
  | root =>
    intro room
    refine ⟨fun _ => ?_, fun hroom => absurd hroom (Nat.not_lt_zero _)⟩
    cases room with
    | zero => rw [lineage, hroot]
    | succ room => rw [lineage, hroot]
  | @child a parent path hparent _ hchild _ ih =>
    intro room
    rw [length_append, length_singleton]
    cases room with
    | zero =>
      refine ⟨fun hroom => absurd hroom (by omega), fun _ => ?_⟩
      rw [lineage, hchild]
      exact ⟨_, rfl⟩
    | succ room =>
      obtain ⟨hfits, hfull⟩ := ih room
      rw [lineage, hchild]
      simp only [authorityById_eq hdistinct hparent]
      refine ⟨fun hroom => ?_, fun hroom => ?_⟩
      · rw [hfits (by omega)]
        rfl
      · obtain ⟨e, he⟩ := hfull (by omega)
        rw [he]
        exact ⟨e, rfl⟩

/-! ## What the store keeps -/

/-- What the store keeps of an accepted authority, below its parent: the delegation and all
that was checked of it and of the two certificates. -/
structure Persisted (db : Db) (a parent : TrustAuthority) (d : Delegation) (link : Link L) :
    Prop where
  parent_mem : parent ∈ db.authorities
  parentId : a.parentId = some parent.id
  order : parent.id < a.id
  state : a.state = .active
  delegation : d ∈ db.delegations ∧ d.subjectAuthorityId = a.id ∧ d.state = .active
  only : ∀ d' ∈ db.delegations, d'.subjectAuthorityId = a.id → d' = d
  envelope : ∃ fingerprint t, parent.policySignerFingerprint = some fingerprint ∧
    verifyGrantEnvelope L d.envelopeJson (some fingerprint) t = .ok (link.grant, link.signer)
  window : d.notBefore = link.grant.notBefore ∧ d.notAfter = link.grant.notAfter
  linked : link.grant.issuerIdentity = parent.identityUri
  narrowing : ∀ d' ∈ db.delegations, d'.subjectAuthorityId = parent.id →
    ∃ grant, envelopeGrant L d'.envelopeJson = some grant ∧ grantIsSubset link.grant grant = true
  depth : parent.parentId = none → link.grant.maxDelegationDepth < parent.maxDelegationDepth
  ca : a.caCertPem = link.caPem ∧ L.loadPem link.caPem = some link.ca
  policy : a.policySignerCertPem = some link.policyPem ∧ L.loadPem link.policyPem = some link.policy
  issued : ∃ issuerCa, L.loadPem parent.caCertPem = some issuerCa ∧ IssuedBy link.ca issuerCa ∧
    IssuedBy link.policy issuerCa
  caProfile : verifyCaProfile L link.ca = .ok ()
  policyProfile : verifyPolicyProfile L link.policy link.grant.subjectIdentity = .ok ()
  caMatches : L.certificateSha256 link.ca = link.grant.subjectCaSha256
  identity : a.identityUri = link.grant.subjectIdentity
  scope : a.namespaceScope = link.grant.namespace_
  caFingerprint : a.caFingerprint = L.certificateSha256 link.ca
  policyFingerprint : a.policySignerFingerprint = some (L.certificateSha256 link.policy)
  maxDepth : a.maxDelegationDepth = link.grant.maxDelegationDepth

/-- A store that grew from a root. -/
structure GrownFrom (L : Libs) (root : TrustAuthority) (db : Db) : Prop where
  ids : ∀ a ∈ db.authorities, a.id < db.nextId
  distinct : (db.authorities.map (·.id)).Nodup
  root_mem : root ∈ db.authorities
  subjects : ∀ d ∈ db.delegations, d.subjectAuthorityId < db.nextId ∧
    d.subjectAuthorityId ≠ root.id
  persisted : ∀ a ∈ db.authorities, a = root ∨
    ∃ parent d, ∃ link : Link L, Persisted db a parent d link

theorem acceptedCa_ok {ca issuerCa : L.Cert}
    (h : acceptedCa L issuer grant caPem now = .ok (ca, issuerCa)) :
    L.loadPem caPem = some ca ∧ L.loadPem issuer.caCertPem = some issuerCa ∧
      IssuedBy ca issuerCa ∧ verifyCaProfile L ca = .ok () ∧
      L.certificateSha256 ca = grant.subjectCaSha256 := by
  rw [acceptedCa] at h
  split at h
  next ca' issuerCa' hca hissuerCa =>
    simp only [bind_eq_ok, rejectIf_eq_ok, pure_eq_ok] at h
    obtain ⟨_, hissued, _, hprofile, _, _, _, hmatches, hres⟩ := h
    obtain ⟨rfl, rfl⟩ := Prod.mk.inj hres
    exact ⟨hca, hissuerCa, verifyIssuedBy_iff.mp hissued, hprofile, by simpa using hmatches⟩
  · cases h

theorem acceptedPolicy_ok {issuerCa : L.Cert} (hpem : policyPem ≠ "") {fingerprint : Option String}
    (h : acceptedPolicy L issuerCa grant (some policyPem) now = .ok fingerprint) :
    ∃ policy, L.loadPem policyPem = some policy ∧ IssuedBy policy issuerCa ∧
      verifyPolicyProfile L policy grant.subjectIdentity = .ok () ∧
      fingerprint = some (L.certificateSha256 policy) := by
  rw [acceptedPolicy, Option.filter_some, if_pos (by simpa using hpem)] at h
  dsimp only at h
  split at h
  · cases h
  next policy hpolicy =>
    simp only [bind_eq_ok, rejectIf_eq_ok, pure_eq_ok] at h
    obtain ⟨_, hissued, _, hprofile, _, _, rfl⟩ := h
    exact ⟨policy, hpolicy, verifyIssuedBy_iff.mp hissued, hprofile, rfl⟩

/-- A row of the store keeps what it had when a row is added. -/
theorem Persisted.append {db : Db} {a parent : TrustAuthority} {d : Delegation} {link : Link L}
    (h : Persisted db a parent d link) (ha : a.id < db.nextId) {new : TrustAuthority}
    {delegation : Delegation} (hsubject : delegation.subjectAuthorityId = db.nextId)
    (nextId : Nat) :
    Persisted { db with
      authorities := db.authorities ++ [new]
      delegations := db.delegations ++ [delegation]
      nextId } a parent d link :=
  { h with
    parent_mem := mem_append_left _ h.parent_mem
    delegation := ⟨mem_append_left _ h.delegation.1, h.delegation.2⟩
    only := by
      intro d' hd' hid
      rcases mem_append.mp hd' with hd' | hd'
      · exact h.only d' hd' hid
      · obtain rfl := mem_singleton.mp hd'
        omega
    narrowing := by
      intro d' hd' hid
      rcases mem_append.mp hd' with hd' | hd'
      · exact h.narrowing d' hd' hid
      · obtain rfl := mem_singleton.mp hd'
        have horder := h.order
        omega }

/-! ## The store grows by accepted delegations -/

/-- A call of `accept_delegation` that supplies a policy signer certificate. -/
structure Acceptance where
  envelope : PyJson
  subjectCaPem : String
  subjectPolicySignerPem : String
  now : Int
  supplied : subjectPolicySignerPem ≠ ""

/-- The store after a call.  One that fails changes nothing. -/
def acceptStep (L : Libs) (db : Db) (call : Acceptance) : Db :=
  match acceptDelegation L db call.envelope call.subjectCaPem (some call.subjectPolicySignerPem)
      call.now with
  | .ok (db', _, _) => db'
  | .error _ => db

theorem acceptStep_of_ok {call : Acceptance} {rows : TrustAuthority × Delegation}
    (h : acceptDelegation L db call.envelope call.subjectCaPem (some call.subjectPolicySignerPem)
      call.now = .ok (db', rows)) : acceptStep L db call = db' := by
  rw [acceptStep, h]

/-- A store with one active root authority, which has a policy signer, and no delegation. -/
structure RootOnly (root : TrustAuthority) (db : Db) : Prop where
  authorities : db.authorities = [root]
  delegations : db.delegations = []
  fresh : root.id < db.nextId
  parentId : root.parentId = none
  active : root.state = .active
  policySigner : ∃ fingerprint pem, root.policySignerFingerprint = some fingerprint ∧
    root.policySignerCertPem = some pem ∧ fingerprint ≠ "" ∧ pem ≠ ""

theorem RootOnly.grownFrom (h : RootOnly root db) :
    GrownFrom L root db where
  ids := by
    intro a ha
    rw [h.authorities] at ha
    rw [mem_singleton.mp ha]
    exact h.fresh
  distinct := by simp [h.authorities]
  root_mem := by simp [h.authorities]
  subjects := by simp [h.delegations]
  persisted := by
    intro a ha
    rw [h.authorities] at ha
    exact Or.inl (mem_singleton.mp ha)

/-- The only delegation of an authority is its active one. -/
theorem Persisted.activeDelegation_eq {parent : TrustAuthority} {d : Delegation} {link : Link L}
    (h : Persisted db a parent d link) : activeDelegation db a.id = some d := by
  have hd : d ∈ db.delegations.filter fun d =>
      d.subjectAuthorityId == a.id && d.state == .active :=
    mem_filter.mpr ⟨h.delegation.1, by simp [h.delegation.2.1, h.delegation.2.2]⟩
  obtain ⟨b, hb⟩ : ∃ b, activeDelegation db a.id = some b := latestBy_isSome hd
  have hmem := mem_filter.mp (latestBy_mem hb)
  have hsubject : b.subjectAuthorityId = a.id := by
    simp only [Bool.and_eq_true, beq_iff_eq] at hmem
    exact hmem.2.1
  rw [hb, h.only b hmem.1 hsubject]

theorem GrownFrom.activeDelegation_root (h : GrownFrom L root db) :
    activeDelegation db root.id = none := by
  rw [activeDelegation, latestBy_eq_none, filter_eq_nil_iff]
  intro d hd
  simp [(h.subjects d hd).2]

/-- What the acceptance compared a new grant with is what the store keeps for its issuer. -/
theorem GrownFrom.narrowing (h : GrownFrom L root db) {policyPem : Option String}
    (ha : Accepted L db envelope caPem policyPem now db' authority delegation grant issuer)
    (hissuer : issuer ∈ db.authorities) :
    (∀ d ∈ db.delegations, d.subjectAuthorityId = issuer.id → ∃ parentGrant,
      envelopeGrant L d.envelopeJson = some parentGrant ∧
        grantIsSubset grant parentGrant = true) ∧
    (issuer.parentId = none → grant.maxDelegationDepth < issuer.maxDelegationDepth) := by
  rcases h.persisted issuer hissuer with rfl | ⟨parent, d, link, hp⟩
  · refine ⟨?_, fun _ => ha.depth h.activeDelegation_root⟩
    intro d hd hsubject
    exact absurd hsubject (h.subjects d hd).2
  · refine ⟨?_, fun hnone => ?_⟩
    · intro d' hd' hsubject
      rw [hp.only d' hd' hsubject]
      exact ha.narrowing d hp.activeDelegation_eq
    · rw [hp.parentId] at hnone
      cases hnone

/-- The row that a call adds keeps what was checked. -/
theorem GrownFrom.persisted_new (h : GrownFrom L root db) (hpem : policyPem ≠ "")
    (ha : Accepted L db envelope caPem (some policyPem) now db' authority delegation grant
      issuer) :
    ∃ link : Link L, Persisted db' authority issuer delegation link := by
  have hmem : issuer ∈ db.authorities := mem_of_find?_eq_some ha.issuer_eq
  have hidentity : issuer.identityUri = grant.issuerIdentity := by
    simpa using find?_some ha.issuer_eq
  have hfresh : issuer.id < db.nextId := h.ids issuer hmem
  obtain ⟨fingerprint, signer, hfingerprint, hsigned⟩ := ha.verified
  obtain ⟨ca, issuerCa, hca, hcaFp, -, hpolicy⟩ := ha.ca
  obtain ⟨hcaLoad, hissuerLoad, hcaIssued, hcaProfile, hcaMatches⟩ := acceptedCa_ok hca
  obtain ⟨policy, hpolicyLoad, hpolicyIssued, hpolicyProfile, hpolicyFp⟩ :=
    acceptedPolicy_ok hpem hpolicy
  obtain ⟨hnarrowing, hdepth⟩ := h.narrowing ha hmem
  have hdelegations : db'.delegations = db.delegations ++ [delegation] := by rw [ha.db_eq]
  refine ⟨⟨grant, signer, ca, policy, caPem, policyPem⟩, ?_⟩
  exact
    { parent_mem := by
        rw [ha.db_eq]
        exact mem_append_left _ hmem
      parentId := ha.authority_parent
      order := by rwa [ha.authority_id]
      state := ha.authority_state
      delegation := by
        rw [hdelegations]
        exact ⟨mem_append_right _ (mem_singleton.mpr rfl), ha.delegation_subject,
          ha.delegation_state⟩
      only := by
        intro d' hd' hid
        rw [hdelegations] at hd'
        rcases mem_append.mp hd' with hd' | hd'
        · rw [ha.authority_id] at hid
          exact absurd hid (Nat.ne_of_lt (h.subjects d' hd').1)
        · exact mem_singleton.mp hd'
      envelope := by
        rw [ha.delegation_envelope]
        exact ⟨fingerprint, now, hfingerprint, hsigned⟩
      window := ha.delegation_window
      linked := hidentity.symm
      narrowing := by
        intro d' hd' hid
        rw [hdelegations] at hd'
        rcases mem_append.mp hd' with hd' | hd'
        · exact hnarrowing d' hd' hid
        · rw [mem_singleton.mp hd', ha.delegation_subject, ha.authority_id] at hid
          exact absurd hid (Nat.ne_of_gt hfresh)
      depth := hdepth
      ca := ⟨ha.authority_certificates.1, hcaLoad⟩
      policy := ⟨ha.authority_certificates.2, hpolicyLoad⟩
      issued := ⟨issuerCa, hissuerLoad, hcaIssued, hpolicyIssued⟩
      caProfile := hcaProfile
      policyProfile := hpolicyProfile
      caMatches := hcaMatches
      identity := ha.authority_identity
      scope := ha.authority_scope
      caFingerprint := hcaFp
      policyFingerprint := hpolicyFp
      maxDepth := ha.authority_depth }

/-- A call that succeeds keeps the store grown from its root. -/
theorem GrownFrom.accept (h : GrownFrom L root db) (hpem : policyPem ≠ "")
    (ha : Accepted L db envelope caPem (some policyPem) now db' authority delegation grant
      issuer) :
    GrownFrom L root db' := by
  obtain ⟨link, hnew⟩ := h.persisted_new hpem ha
  have hauthorities : db'.authorities = db.authorities ++ [authority] := by rw [ha.db_eq]
  have hnext : db'.nextId = db.nextId + 2 := by rw [ha.db_eq]
  exact
    { ids := by
        intro a ha'
        rw [hauthorities] at ha'
        rw [hnext]
        rcases mem_append.mp ha' with ha' | ha'
        · exact Nat.lt_add_right 2 (h.ids a ha')
        · rw [mem_singleton.mp ha', ha.authority_id]
          exact Nat.lt_add_of_pos_right (by decide)
      distinct := by
        rw [hauthorities, map_append, nodup_append]
        refine ⟨h.distinct, by simp, ?_⟩
        intro id hid id' hid' heq
        obtain ⟨a, ha', rfl⟩ := mem_map.mp hid
        rw [map_singleton, mem_singleton, ha.authority_id] at hid'
        exact absurd (h.ids a ha') (by rw [heq, hid']; exact Nat.lt_irrefl _)
      root_mem := by
        rw [hauthorities]
        exact mem_append_left _ h.root_mem
      subjects := by
        intro d hd
        rw [ha.db_eq] at hd
        rw [hnext]
        rcases mem_append.mp hd with hd | hd
        · exact ⟨Nat.lt_add_right 2 (h.subjects d hd).1, (h.subjects d hd).2⟩
        · rw [mem_singleton.mp hd, ha.delegation_subject, ha.authority_id]
          exact ⟨Nat.lt_add_of_pos_right (by decide), Nat.ne_of_gt (h.ids root h.root_mem)⟩
      persisted := by
        intro a ha'
        rw [hauthorities] at ha'
        rcases mem_append.mp ha' with ha' | ha'
        · rcases h.persisted a ha' with rfl | ⟨parent, d, link, hp⟩
          · exact Or.inl rfl
          · rw [ha.db_eq]
            exact Or.inr ⟨parent, d, link, hp.append (h.ids a ha')
              (ha.delegation_subject.trans ha.authority_id) _⟩
        · rw [mem_singleton.mp ha']
          exact Or.inr ⟨issuer, delegation, link, hnew⟩ }

theorem GrownFrom.acceptStep (h : GrownFrom L root db) (call : Acceptance) :
    GrownFrom L root (acceptStep L db call) := by
  rw [Trust.acceptStep]
  split
  next hacc =>
    obtain ⟨grant, issuer, ha⟩ := acceptDelegation_ok hacc
    exact h.accept call.supplied ha
  · exact h

/-- Each run of calls from a root leaves a store that grew from it. -/
theorem RootOnly.grownFrom_final (h : RootOnly root db) (calls : List Acceptance) :
    GrownFrom L root (Runs.final (Trust.acceptStep L) db calls) :=
  Runs.final_of_step (P := GrownFrom L root) (fun _ call hs => GrownFrom.acceptStep hs call) h.grownFrom

end Efdi.Trust

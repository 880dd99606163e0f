import Efdi.Trust.Chain

/-!
# The trust store

`acceptDelegation` of `trust_store.py` and the lifecycle operations of
`trust_api.py`.  `acceptDelegation` verifies an envelope against the row of its
issuer and against the grant that row was itself given, and adds one authority and
one delegation.

`Accepted` is what a call that succeeds saw and did.  The lifecycle operations only
change the `state` columns of rows and add a revocation.
-/

namespace Efdi.Trust

open Checks

/-! ## Queries -/

/-- `authority_by_identity`. -/
def authorityByIdentity (db : Db) (identityUri : String) : Option TrustAuthority :=
  db.authorities.find? (·.identityUri == identityUri)

/-- `authority_is_revoked`. -/
def authorityIsRevoked (db : Db) (authority : TrustAuthority) : Bool :=
  db.revocations.any fun r => r.state == .active &&
    [authority.caFingerprint, authority.identityUri].contains r.targetReference

/-- `db.get(TrustAuthority, id)`. -/
def authorityById (db : Db) (id : Nat) : Option TrustAuthority :=
  db.authorities.find? (·.id == id)

/-- The active delegation of a subject with the greatest sequence. -/
def activeDelegation (db : Db) (subjectId : Nat) : Option Delegation :=
  latestBy (·.sequence)
    (db.delegations.filter fun d => d.subjectAuthorityId == subjectId && d.state == .active)

/-- `max(Delegation.sequence)` over the delegations of an issuer. -/
def highestSequence (db : Db) (issuerId : Nat) : Option Int :=
  ((db.delegations.filter (·.issuerAuthorityId == issuerId)).map (·.sequence)).max?

/-! ## Accepting a delegation -/

section Accept

variable (L : Libs)

/-- The signed grant of an envelope and the fingerprint of its signer. -/
def acceptedGrant (envelope : PyJson) (now : Int) :
    Except TrustError (DelegationGrant × String) :=
  match (envelope.get? "signer_certificate").bind PyJson.str? with
  | none => .error (.trustStore "delegation envelope has no signer certificate")
  | some rawSigner =>
    match L.loadPem rawSigner with
    | none => .error (.valueError "Unable to load PEM file")
    | some signer => do
        let signerFp := L.certificateSha256 signer
        let (grant, _) ← verifyGrantEnvelope L envelope (some signerFp) now
        return (grant, signerFp)

/-- The trusted authority that issued a grant. -/
def acceptedIssuer (db : Db) (grant : DelegationGrant) (signerFp : String) :
    Except TrustError TrustAuthority :=
  match authorityByIdentity db grant.issuerIdentity with
  | none => .error (.trustStore "delegation issuer is not an active trusted authority")
  | some issuer => do
      rejectIf (issuer.state != .active || authorityIsRevoked db issuer)
        (.trustStore "delegation issuer is not an active trusted authority")
      rejectIf (issuer.policySignerFingerprint != some signerFp)
        (.trustStore "delegation signer is not the issuer's active policy signer")
      return issuer

/-- Compare a grant with the grant of its issuer.  An issuer without an active delegation
is a root authority, and only its depth is compared. -/
def acceptedNarrowing (db : Db) (issuer : TrustAuthority) (grant : DelegationGrant)
    (now : Int) : Except TrustError Unit :=
  match activeDelegation db issuer.id with
  | some parentRecord =>
    match (parentRecord.envelopeJson.get? "signer_sha256").bind PyJson.str? with
    | none => .error (.valueError "signer_sha256")
    | some parentSigner => do
        let (parentGrant, _) ←
          verifyGrantEnvelope L parentRecord.envelopeJson (some parentSigner) now
        rejectIf (!grantIsSubset grant parentGrant)
          (.trustStore "delegation exceeds the issuer's effective grant")
  | none =>
    rejectIf (grant.maxDelegationDepth ≥ issuer.maxDelegationDepth)
      (.trustStore "delegation depth is not lower than the root authority")

/-- The CA certificate of the subject and the CA certificate of its issuer. -/
def acceptedCa (issuer : TrustAuthority) (grant : DelegationGrant) (subjectCaPem : String)
    (now : Int) : Except TrustError (L.Cert × L.Cert) :=
  match L.loadPem subjectCaPem, L.loadPem issuer.caCertPem with
  | some caCert, some issuerCa => do
      verifyIssuedBy L caCert issuerCa
      verifyCaProfile L caCert
      rejectIf (now < L.notValidBefore caCert || now ≥ L.notValidAfter caCert)
        (.trustStore "subject CA certificate is not currently valid")
      rejectIf (L.certificateSha256 caCert != grant.subjectCaSha256)
        (.trustStore "subject CA fingerprint does not match the signed grant")
      return (caCert, issuerCa)
  | _, _ => .error (.valueError "Unable to load PEM file")

/-- The fingerprint of the policy signer of the subject, when one is given. -/
def acceptedPolicy (issuerCa : L.Cert) (grant : DelegationGrant)
    (subjectPolicySignerPem : Option String) (now : Int) : Except TrustError (Option String) :=
  match subjectPolicySignerPem.filter (· != "") with
  | none => .ok none
  | some pem =>
    match L.loadPem pem with
    | none => .error (.valueError "Unable to load PEM file")
    | some policyCert => do
        verifyIssuedBy L policyCert issuerCa
        verifyPolicyProfile L policyCert grant.subjectIdentity
        rejectIf (now < L.notValidBefore policyCert || now ≥ L.notValidAfter policyCert)
          (.trustStore "subject policy signer certificate is not currently valid")
        return some (L.certificateSha256 policyCert)

/-- A row of `trust_authorities` meets the unique columns of the table. -/
def authorityUnique (db : Db) (authority : TrustAuthority) : Bool :=
  db.authorities.all fun a => a.identityUri != authority.identityUri &&
    a.caFingerprint != authority.caFingerprint &&
    (authority.policySignerFingerprint.isNone ||
      a.policySignerFingerprint != authority.policySignerFingerprint)

/-- A row of `delegations` meets the unique columns of the table. -/
def delegationUnique (db : Db) (delegation : Delegation) : Bool :=
  db.delegations.all fun d => d.grantId != delegation.grantId &&
    d.grantSha256 != delegation.grantSha256 &&
    !(d.issuerAuthorityId == delegation.issuerAuthorityId && d.sequence == delegation.sequence)

/-- Verify and atomically persist a strictly narrower child authority. -/
def acceptDelegation (db : Db) (envelope : PyJson) (subjectCaPem : String)
    (subjectPolicySignerPem : Option String) (now : Int) :
    Except TrustError (Db × TrustAuthority × Delegation) := do
  let (grant, signerFp) ← acceptedGrant L envelope now
  let issuer ← acceptedIssuer db grant signerFp
  acceptedNarrowing L db issuer grant now
  rejectIf ((highestSequence db issuer.id).any fun highest => grant.sequence ≤ highest)
    (.trustStore "delegation sequence is stale or replayed")
  let (caCert, issuerCa) ← acceptedCa L issuer grant subjectCaPem now
  let policyFp ← acceptedPolicy L issuerCa grant subjectPolicySignerPem now
  rejectIf (authorityByIdentity db grant.subjectIdentity).isSome
    (.trustStore "subject authority identity already exists")
  let authority : TrustAuthority :=
    { id := db.nextId
      identityUri := grant.subjectIdentity
      namespaceScope := grant.namespace_
      caFingerprint := L.certificateSha256 caCert
      caCertPem := subjectCaPem
      policySignerFingerprint := policyFp
      policySignerCertPem := subjectPolicySignerPem
      parentId := some issuer.id
      maxDelegationDepth := grant.maxDelegationDepth
      state := .active
      notAfter := min grant.notAfter (L.notValidAfter caCert) }
  rejectIf (!authorityUnique db authority) (.integrity "trust_authorities")
  let delegation : Delegation :=
    { id := db.nextId + 1
      grantId := grant.id
      issuerAuthorityId := issuer.id
      subjectAuthorityId := authority.id
      sequence := grant.sequence
      envelopeJson := envelope
      grantSha256 := L.sha256 (canonicalGrant L grant)
      state := .active
      notBefore := grant.notBefore
      notAfter := grant.notAfter }
  rejectIf (!delegationUnique db delegation) (.integrity "delegations")
  return ({ db with
    authorities := db.authorities ++ [authority]
    delegations := db.delegations ++ [delegation]
    nextId := db.nextId + 2 }, authority, delegation)

/-- What a call of `acceptDelegation` that succeeds saw and did. -/
structure Accepted (db : Db) (envelope : PyJson) (subjectCaPem : String)
    (subjectPolicySignerPem : Option String) (now : Int) (db' : Db) (authority : TrustAuthority)
    (delegation : Delegation) (grant : DelegationGrant) (issuer : TrustAuthority) : Prop where
  verified : ∃ fingerprint signer, issuer.policySignerFingerprint = some fingerprint ∧
    verifyGrantEnvelope L envelope (some fingerprint) now = .ok (grant, signer)
  issuer_eq : authorityByIdentity db grant.issuerIdentity = some issuer
  issuer_active : issuer.state = .active
  issuer_notRevoked : authorityIsRevoked db issuer = false
  narrowing : ∀ parent, activeDelegation db issuer.id = some parent →
    ∃ parentGrant, envelopeGrant L parent.envelopeJson = some parentGrant ∧
      grantIsSubset grant parentGrant = true
  depth : activeDelegation db issuer.id = none →
    grant.maxDelegationDepth < issuer.maxDelegationDepth
  ca : ∃ caCert issuerCa, acceptedCa L issuer grant subjectCaPem now = .ok (caCert, issuerCa) ∧
    authority.caFingerprint = L.certificateSha256 caCert ∧
    authority.notAfter = min grant.notAfter (L.notValidAfter caCert) ∧
    acceptedPolicy L issuerCa grant subjectPolicySignerPem now =
      .ok authority.policySignerFingerprint
  fresh : authorityByIdentity db grant.subjectIdentity = none
  unique : authorityUnique db authority = true ∧ delegationUnique db delegation = true
  authority_id : authority.id = db.nextId
  authority_identity : authority.identityUri = grant.subjectIdentity
  authority_scope : authority.namespaceScope = grant.namespace_
  authority_certificates : authority.caCertPem = subjectCaPem ∧
    authority.policySignerCertPem = subjectPolicySignerPem
  authority_depth : authority.maxDelegationDepth = grant.maxDelegationDepth
  authority_parent : authority.parentId = some issuer.id
  authority_state : authority.state = .active
  delegation_issuer : delegation.issuerAuthorityId = issuer.id
  delegation_subject : delegation.subjectAuthorityId = authority.id
  delegation_envelope : delegation.envelopeJson = envelope
  delegation_state : delegation.state = .active
  delegation_window :
    delegation.notBefore = grant.notBefore ∧ delegation.notAfter = grant.notAfter
  db_eq : db' = { db with
    authorities := db.authorities ++ [authority]
    delegations := db.delegations ++ [delegation]
    nextId := db.nextId + 2 }

variable {L}

variable {now : Int} {grant : DelegationGrant} {db : Db}

theorem acceptedGrant_ok {envelope : PyJson} {signerFp : String}
    (h : acceptedGrant L envelope now = .ok (grant, signerFp)) :
    ∃ signer, verifyGrantEnvelope L envelope (some signerFp) now = .ok (grant, signer) := by
  rw [acceptedGrant] at h
  split at h
  · cases h
  · split at h
    · cases h
    · simp only [bind_eq_ok, pure_eq_ok] at h
      obtain ⟨⟨g, signer⟩, hver, hres⟩ := h
      obtain ⟨rfl, rfl⟩ := Prod.mk.inj hres
      exact ⟨signer, hver⟩

theorem acceptedIssuer_ok {signerFp : String} {issuer : TrustAuthority}
    (h : acceptedIssuer db grant signerFp = .ok issuer) :
    authorityByIdentity db grant.issuerIdentity = some issuer ∧ issuer.state = .active ∧
      authorityIsRevoked db issuer = false ∧ issuer.policySignerFingerprint = some signerFp := by
  rw [acceptedIssuer] at h
  split at h
  · cases h
  next found hfound =>
    simp only [bind_eq_ok, rejectIf_eq_ok, pure_eq_ok] at h
    obtain ⟨_, hstate, _, hsigner, rfl⟩ := h
    simp only [Bool.or_eq_false_iff] at hstate
    exact ⟨hfound, by simpa using hstate.1, hstate.2, by simpa using hsigner⟩

theorem acceptedNarrowing_ok {issuer : TrustAuthority}
    (h : acceptedNarrowing L db issuer grant now = .ok ()) :
    (∀ parent, activeDelegation db issuer.id = some parent →
      ∃ parentGrant, envelopeGrant L parent.envelopeJson = some parentGrant ∧
        grantIsSubset grant parentGrant = true) ∧
    (activeDelegation db issuer.id = none →
      grant.maxDelegationDepth < issuer.maxDelegationDepth) := by
  rw [acceptedNarrowing] at h
  cases hparent : activeDelegation db issuer.id with
  | none => simpa [hparent] using h
  | some parent =>
    rw [hparent] at h
    refine ⟨?_, by simp⟩
    rintro _ ⟨⟩
    dsimp only at h
    split at h
    · cases h
    · simp only [bind_eq_ok, rejectIf_eq_ok] at h
      obtain ⟨⟨parentGrant, _⟩, hver, hsub⟩ := h
      exact ⟨parentGrant, envelopeGrant_of_verify hver, by simpa using hsub⟩

/-- A call that succeeds passed every check, and added one authority and one delegation. -/
theorem acceptDelegation_ok {db' : Db} {envelope : PyJson} {subjectCaPem : String}
    {subjectPolicySignerPem : Option String} {authority : TrustAuthority} {delegation : Delegation}
    (h : acceptDelegation L db envelope subjectCaPem subjectPolicySignerPem now =
      .ok (db', authority, delegation)) :
    ∃ grant issuer, Accepted L db envelope subjectCaPem subjectPolicySignerPem now db'
      authority delegation grant issuer := by
  simp only [acceptDelegation, bind_eq_ok, rejectIf_eq_ok, pure_eq_ok] at h
  obtain ⟨⟨grant, signerFp⟩, hgrant, issuer, hissuer, _, hnarrow, _, _, ⟨caCert, issuerCa⟩, hca,
    policyFp, hpolicy, _, hfresh, _, huniqueA, _, huniqueD, hres⟩ := h
  obtain ⟨hdb, hrows⟩ := Prod.mk.inj hres
  obtain ⟨rfl, rfl⟩ := Prod.mk.inj hrows
  subst hdb
  obtain ⟨signer, hsigned⟩ := acceptedGrant_ok hgrant
  obtain ⟨hfound, hactive, hlive, hsigner⟩ := acceptedIssuer_ok hissuer
  obtain ⟨hsub, hdepth⟩ := acceptedNarrowing_ok hnarrow
  refine ⟨grant, issuer, ?_⟩
  exact
    { verified := ⟨signerFp, signer, hsigner, hsigned⟩
      issuer_eq := hfound
      issuer_active := hactive
      issuer_notRevoked := hlive
      narrowing := hsub
      depth := hdepth
      ca := ⟨caCert, issuerCa, hca, rfl, rfl, hpolicy⟩
      fresh := by simpa using hfresh
      unique := ⟨by simpa using huniqueA, by simpa using huniqueD⟩
      authority_id := rfl
      authority_identity := rfl
      authority_scope := rfl
      authority_certificates := ⟨rfl, rfl⟩
      authority_depth := rfl
      authority_parent := rfl
      authority_state := rfl
      delegation_issuer := rfl
      delegation_subject := rfl
      delegation_envelope := rfl
      delegation_state := rfl
      delegation_window := ⟨rfl, rfl⟩
      db_eq := rfl }

end Accept

/-! ## Lifecycle -/

/-- The errors of the lifecycle operations, by status code and detail. -/
inductive LifecycleError where
  | http (statusCode : Nat) (detail : String)
deriving DecidableEq

/-- `_direct_child`, with the local authority already at hand. -/
def directChild (db : Db) (localId authorityId : Nat) : Except LifecycleError TrustAuthority :=
  match authorityById db authorityId with
  | none => .error (.http 404 "managed authority not found")
  | some authority =>
    if authority.parentId = some localId then .ok authority
    else .error (.http 403 "only a direct child can be changed here")

/-- Write the state column of one authority. -/
def setAuthorityState (db : Db) (id : Nat) (state : AuthorityState) : Db :=
  { db with authorities :=
      db.authorities.map fun a => if a.id = id then { a with state := state } else a }

/-- `quarantine_authority`. -/
def quarantineAuthority (db : Db) (localId authorityId : Nat) : Except LifecycleError Db := do
  let authority ← directChild db localId authorityId
  rejectIf (authority.state == .decommissioned) (.http 409 "decommissioning is irreversible")
  return setAuthorityState db authority.id .quarantined

/-- `restore_authority`. -/
def restoreAuthority (db : Db) (localId authorityId : Nat) : Except LifecycleError Db := do
  let authority ← directChild db localId authorityId
  rejectIf (authority.state != .quarantined)
    (.http 409 "only a quarantined authority can be restored")
  return setAuthorityState db authority.id .active

/-- The sequence of the next revocation. -/
def nextRevocationSequence (db : Db) : Int :=
  ((db.revocations.map (·.sequence)).max?.getD 0) + 1

/-- `decommission_authority`. -/
def decommissionAuthority (db : Db) (localId authorityId : Nat) (reason : String) :
    Except LifecycleError Db := do
  let authority ← directChild db localId authorityId
  rejectIf (authority.state == .decommissioned)
    (.http 409 "authority is already decommissioned")
  let db' := setAuthorityState db authority.id .decommissioned
  return { db' with
    delegations := db.delegations.map fun d =>
      if d.subjectAuthorityId = authority.id then { d with state := .revoked } else d
    identities := db.identities.map fun i =>
      if i.authorityId = authority.id then { i with state := .revoked } else i
    credentials := db.credentials.map fun c =>
      if c.authorityId = authority.id then { c with state := .revoked } else c
    revocations := db.revocations ++
      [{ id := db.nextId
         targetType := "authority"
         targetReference := authority.identityUri
         reason
         sequence := nextRevocationSequence db
         state := .active }]
    nextId := db.nextId + 1 }

variable {db db' : Db} {localId authorityId : Nat}

theorem directChild_ok {authority : TrustAuthority}
    (h : directChild db localId authorityId = .ok authority) :
    authority ∈ db.authorities ∧ authority.id = authorityId ∧
      authority.parentId = some localId := by
  rw [directChild] at h
  split at h
  · cases h
  next found hfound =>
    split at h
    next hparent =>
      cases h
      exact ⟨List.mem_of_find?_eq_some hfound, by simpa using List.find?_some hfound, hparent⟩
    · cases h

theorem quarantineAuthority_ok (h : quarantineAuthority db localId authorityId = .ok db') :
    ∃ authority, directChild db localId authorityId = .ok authority ∧
      authority.state ≠ .decommissioned ∧
      db' = setAuthorityState db authorityId .quarantined := by
  simp only [quarantineAuthority, bind_eq_ok, rejectIf_eq_ok, pure_eq_ok] at h
  obtain ⟨authority, hchild, _, hstate, rfl⟩ := h
  rw [(directChild_ok hchild).2.1]
  exact ⟨authority, hchild, by simpa using hstate, rfl⟩

theorem restoreAuthority_ok (h : restoreAuthority db localId authorityId = .ok db') :
    ∃ authority, directChild db localId authorityId = .ok authority ∧
      authority.state = .quarantined ∧ db' = setAuthorityState db authorityId .active := by
  simp only [restoreAuthority, bind_eq_ok, rejectIf_eq_ok, pure_eq_ok] at h
  obtain ⟨authority, hchild, _, hstate, rfl⟩ := h
  rw [(directChild_ok hchild).2.1]
  exact ⟨authority, hchild, by simpa using hstate, rfl⟩

/-- What a decommissioning that succeeds did. -/
structure Decommissioned (db : Db) (authority : TrustAuthority) (reason : String) (db' : Db) :
    Prop where
  state : authority.state ≠ .decommissioned
  authorities : db'.authorities =
    (setAuthorityState db authority.id .decommissioned).authorities
  delegations : db'.delegations = db.delegations.map fun d =>
    if d.subjectAuthorityId = authority.id then { d with state := .revoked } else d
  identities : db'.identities = db.identities.map fun i =>
    if i.authorityId = authority.id then { i with state := .revoked } else i
  credentials : db'.credentials = db.credentials.map fun c =>
    if c.authorityId = authority.id then { c with state := .revoked } else c
  revocations : db'.revocations = db.revocations ++
    [{ id := db.nextId
       targetType := "authority"
       targetReference := authority.identityUri
       reason
       sequence := nextRevocationSequence db
       state := .active }]
  nextId : db'.nextId = db.nextId + 1
  others : db'.invitations = db.invitations ∧ db'.children = db.children ∧
    db'.revisions = db.revisions

theorem decommissionAuthority_ok {reason : String}
    (h : decommissionAuthority db localId authorityId reason = .ok db') :
    ∃ authority, directChild db localId authorityId = .ok authority ∧
      Decommissioned db authority reason db' := by
  simp only [decommissionAuthority, bind_eq_ok, rejectIf_eq_ok, pure_eq_ok] at h
  obtain ⟨authority, hchild, _, hstate, rfl⟩ := h
  exact ⟨authority, hchild, by simpa using hstate, rfl, rfl, rfl, rfl, rfl, rfl, rfl, rfl, rfl⟩

end Efdi.Trust

import Efdi.Trust.Crypto
import Mathlib.Order.MinMax

/-!
# Verifying a trust chain

`verifyTrustChain` of `trust_store.py`.  A proof names an anchor and a list of
steps.  The anchor must equal a trusted authority field by field.  Each step then
delegates from the authority the previous step established, and the issuer is
rebuilt from the data just checked.

A `Link` is what a step that passes was read as: the grant, the certificate that
signed it and the two certificates of the subject.  `StepOk` is the conjunction of
the checks of one step, and `ChainOk` follows the loop.  `verifyTrustChain_ok`
opens the whole verification into these.
-/

namespace Efdi.Trust

open Checks

/-- An authority a verification established. -/
structure VerifiedAuthority where
  identityUri : String
  namespaceScope : String
  caFingerprint : String
  caCertPem : String
  policySignerFingerprint : String
  policySignerCertPem : String
  maxDelegationDepth : Int
  notAfter : Int
  effectiveGrant : Option DelegationGrant
deriving DecidableEq

def maxTrustChainDepth : Nat := 33

def maxCertificateBytes : Nat := 64 * 1024

/-- `_POLICY_SIGNER_EKU`. -/
def policySignerEku : String := "1.3.6.1.4.1.55555.1.1"

variable (L : Libs)

/-! ## Certificate profiles -/

/-- `_verify_issued_by`. -/
def verifyIssuedBy (certificate issuer : L.Cert) : Except TrustError Unit := do
  rejectIf (!L.isEc (L.publicKey issuer))
    (.trustStore "managed router issuers must use ECDSA keys")
  rejectIf (L.issuer certificate != L.subject issuer)
    (.trustStore "certificate issuer does not match the trusted authority")
  rejectIf (!L.certSignedBy certificate (L.publicKey issuer))
    (.trustStore "certificate signature is not valid for the trusted authority")

/-- `_verify_ca_profile`. -/
def verifyCaProfile (certificate : L.Cert) : Except TrustError Unit :=
  match L.basicConstraints certificate, L.keyUsage certificate with
  | some constraints, some usage => do
      rejectIf (!constraints.ca || constraints.pathLength.isNone || !usage.keyCertSign)
        (.trustStore "managed router CA profile is invalid")
      rejectIf (!L.isEcdsaP256 (L.publicKey certificate))
        (.trustStore "managed router CA must use ECDSA P-256")
  | _, _ => .error (.trustStore "managed router CA is missing required constraints")

/-- `_verify_policy_profile`. -/
def verifyPolicyProfile (certificate : L.Cert) (identity : String) : Except TrustError Unit :=
  match L.basicConstraints certificate, L.keyUsage certificate,
    L.extendedKeyUsage certificate with
  | some constraints, some usage, some extended => do
      rejectIf (constraints.ca || !usage.digitalSignature || !extended.contains policySignerEku)
        (.trustStore "policy signer certificate profile is invalid")
      let actual ← certificateRouterIdentity L certificate
      rejectIf (actual != identity)
        (.trustStore "policy signer identity does not match the delegated authority")
      rejectIf (!L.isEcdsaP256 (L.publicKey certificate))
        (.trustStore "policy signer must use ECDSA P-256")
  | _, _, _ =>
    .error (.trustStore "policy signer is missing required certificate constraints")

/-- `_authority_record`. -/
def authorityRecord (authority : TrustAuthority) (grant : Option DelegationGrant) :
    Except TrustError VerifiedAuthority :=
  match authority.policySignerFingerprint, authority.policySignerCertPem with
  | some fingerprint, some pem =>
    if fingerprint = "" ∨ pem = "" then
      .error (.trustStore "trusted authority has no active policy signer")
    else .ok
      { identityUri := authority.identityUri
        namespaceScope := authority.namespaceScope
        caFingerprint := authority.caFingerprint
        caCertPem := authority.caCertPem
        policySignerFingerprint := fingerprint
        policySignerCertPem := pem
        maxDelegationDepth := authority.maxDelegationDepth
        notAfter := authority.notAfter
        effectiveGrant := grant }
  | _, _ => .error (.trustStore "trusted authority has no active policy signer")

/-! ## The anchor -/

/-- A nullable column as a JSON value. -/
def optStr : Option String → PyJson
  | some s => .str s
  | none => .null

def anchorKeys : List String :=
  ["identity_uri", "namespace_scope", "ca_sha256", "ca_certificate", "policy_signer_sha256",
    "policy_signer_certificate", "max_delegation_depth", "not_after"]

/-- The comparison of the anchor with the trusted authority. -/
def verifyAnchor (anchor : PyJson) (trusted : TrustAuthority) : Except TrustError Unit := do
  let field (key : String) (value : PyJson) (message : String) : Except TrustError Unit :=
    rejectIf (!decide (anchor.get? key = some value)) (.trustStore message)
  rejectIf (!anchor.hasKeys anchorKeys) (.trustStore "trust chain anchor has an invalid shape")
  field "identity_uri" (.str trusted.identityUri) "trust chain anchor identity is not trusted"
  field "ca_sha256" (.str trusted.caFingerprint) "trust chain anchor fingerprint is not trusted"
  field "ca_certificate" (.str trusted.caCertPem) "trust chain anchor certificate is not trusted"
  field "policy_signer_sha256" (optStr trusted.policySignerFingerprint)
    "trust chain anchor policy signer is not trusted"
  field "policy_signer_certificate" (optStr trusted.policySignerCertPem)
    "trust chain anchor policy certificate is not trusted"
  field "namespace_scope" (.str trusted.namespaceScope)
    "trust chain anchor namespace is not trusted"
  rejectIf (!(anchor.get? "max_delegation_depth").any (·.eqInt trusted.maxDelegationDepth))
    (.trustStore "trust chain anchor depth is not trusted")
  field "not_after" (.str (L.isoformat trusted.notAfter))
    "trust chain anchor lifetime is not trusted"

/-- The anchor of a proof equals a trusted authority field by field.  The depth is
compared as Python compares numbers. -/
structure AnchorMatches (anchor : PyJson) (trusted : TrustAuthority) : Prop where
  keys : anchor.hasKeys anchorKeys = true
  identity : anchor.get? "identity_uri" = some (.str trusted.identityUri)
  caFingerprint : anchor.get? "ca_sha256" = some (.str trusted.caFingerprint)
  caCertificate : anchor.get? "ca_certificate" = some (.str trusted.caCertPem)
  policySigner :
    anchor.get? "policy_signer_sha256" = some (optStr trusted.policySignerFingerprint)
  policyCertificate :
    anchor.get? "policy_signer_certificate" = some (optStr trusted.policySignerCertPem)
  namespaceScope : anchor.get? "namespace_scope" = some (.str trusted.namespaceScope)
  depth : (anchor.get? "max_delegation_depth").any (·.eqInt trusted.maxDelegationDepth) = true
  notAfter : anchor.get? "not_after" = some (.str (L.isoformat trusted.notAfter))

variable {trusted : TrustAuthority} {issuer : VerifiedAuthority} {revoked : List String} {now : Int}

theorem verifyAnchor_iff {anchor : PyJson} :
    verifyAnchor L anchor trusted = .ok () ↔ AnchorMatches L anchor trusted := by
  simp only [verifyAnchor, bind_eq_ok, rejectIf_eq_ok, Bool.not_eq_false', decide_eq_true_eq]
  constructor
  · rintro ⟨_, h1, _, h2, _, h3, _, h4, _, h5, _, h6, _, h7, _, h8, h9⟩
    exact ⟨h1, h2, h3, h4, h5, h6, h7, h8, h9⟩
  · rintro ⟨h1, h2, h3, h4, h5, h6, h7, h8, h9⟩
    exact ⟨(), h1, (), h2, (), h3, (), h4, (), h5, (), h6, (), h7, (), h8, h9⟩

/-! ## One step -/

def stepKeys : List String :=
  ["delegation_envelope", "subject_ca_certificate", "subject_policy_signer_certificate"]

/-- The text of a certificate in a step. -/
def stepCertificate (step : PyJson) (key : String) : Option String :=
  ((step.get? key).bind PyJson.str?).filter fun pem => pem.utf8ByteSize ≤ maxCertificateBytes

/-- The end of the authority a step establishes. -/
def stepNotAfter (grant : DelegationGrant) (ca policy : L.Cert) : Int :=
  min grant.notAfter (min (L.notValidAfter ca) (L.notValidAfter policy))

/-- The narrowing check of a step.  A step below the anchor is only compared by depth. -/
def verifyNarrowing (issuer : VerifiedAuthority) (grant : DelegationGrant) (index : Nat) :
    Except TrustError Unit :=
  match issuer.effectiveGrant with
  | some parent =>
    rejectIf (!grantIsSubset grant parent)
      (.trustStore s!"trust chain step {index} widens its parent delegation")
  | none =>
    rejectIf (grant.maxDelegationDepth ≥ issuer.maxDelegationDepth)
      (.trustStore s!"trust chain step {index} does not reduce delegation depth")

/-- The body of the loop of `verify_trust_chain`. -/
def verifyStep (revoked : List String) (now : Int) (issuer : VerifiedAuthority) (index : Nat)
    (step : PyJson) : Except TrustError VerifiedAuthority := do
  rejectIf (!step.hasKeys stepKeys)
    (.trustStore s!"trust chain step {index} has an invalid shape")
  match stepCertificate step "subject_ca_certificate",
    stepCertificate step "subject_policy_signer_certificate" with
  | some caPem, some policyPem => do
      let (grant, _) ← verifyGrantEnvelope L (step.getD "delegation_envelope" .null)
        (some issuer.policySignerFingerprint) now
      rejectIf (grant.issuerIdentity != issuer.identityUri)
        (.trustStore s!"trust chain step {index} has the wrong issuer")
      verifyNarrowing issuer grant index
      match L.loadPem caPem, L.loadPem policyPem, L.loadPem issuer.caCertPem with
      | some ca, some policy, some issuerCa => do
          verifyIssuedBy L ca issuerCa
          verifyIssuedBy L policy issuerCa
          verifyCaProfile L ca
          verifyPolicyProfile L policy grant.subjectIdentity
          let caFingerprint := L.certificateSha256 ca
          let policyFingerprint := L.certificateSha256 policy
          rejectIf (caFingerprint != grant.subjectCaSha256)
            (.trustStore s!"trust chain step {index} CA does not match its grant")
          rejectIf (revoked.contains grant.subjectIdentity || revoked.contains caFingerprint ||
              revoked.contains policyFingerprint)
            (.trustStore s!"trust chain step {index} is revoked")
          rejectIf (now < L.notValidBefore ca || now < L.notValidBefore policy)
            (.trustStore s!"trust chain step {index} is not valid yet")
          rejectIf (stepNotAfter L grant ca policy ≤ now)
            (.trustStore s!"trust chain step {index} is expired")
          return {
            identityUri := grant.subjectIdentity
            namespaceScope := grant.namespace_
            caFingerprint
            caCertPem := caPem
            policySignerFingerprint := policyFingerprint
            policySignerCertPem := policyPem
            maxDelegationDepth := grant.maxDelegationDepth
            notAfter := stepNotAfter L grant ca policy
            effectiveGrant := some grant }
      | _, _, _ =>
        .error (.trustStore s!"trust chain step {index} contains malformed certificates")
  | _, _ => .error (.trustStore s!"trust chain step {index} contains an invalid certificate")

/-- The loop over the steps, with the issuer and the index it carries. -/
def verifySteps (revoked : List String) (now : Int) :
    VerifiedAuthority → Nat → List PyJson → Except TrustError VerifiedAuthority
  | issuer, _, [] => .ok issuer
  | issuer, index, step :: steps => do
      let next ← verifyStep L revoked now issuer index step
      verifySteps revoked now next (index + 1) steps

/-- The steps of a proof. -/
def proofSteps (proof : PyJson) : Option (List PyJson) := (proof.get? "steps").bind PyJson.list?

/-- The trusted anchor can be used now. -/
def anchorUsable (trusted : TrustAuthority) (revoked : List String) (now : Int) : Bool :=
  trusted.state == .active && !revoked.contains trusted.identityUri &&
    !revoked.contains trusted.caFingerprint && decide (now < trusted.notAfter)

/-- Verify every CA, policy signer, grant, and narrowing step in a proof. -/
def verifyTrustChain (proof : PyJson) (trusted : TrustAuthority) (revoked : List String)
    (now : Int) : Except TrustError VerifiedAuthority := do
  rejectIf (!proof.hasKeys ["schema", "anchor", "steps"])
    (.trustStore "trust chain has an invalid shape")
  rejectIf (!decide (proof.get? "schema" = some (.str "efdi.trust-chain/v1")))
    (.trustStore "unsupported trust chain schema")
  verifyAnchor L (proof.getD "anchor" .null) trusted
  match (proofSteps proof).filter fun steps =>
    decide (1 ≤ steps.length ∧ steps.length < maxTrustChainDepth) with
  | none => .error (.trustStore "trust chain must contain a bounded delegation path")
  | some steps => do
      rejectIf (!anchorUsable trusted revoked now)
        (.trustStore "trust chain anchor is not active")
      let issuer ← authorityRecord trusted none
      verifySteps L revoked now issuer 0 steps

/-! ## What a verification saw -/

/-- What a step that passes is read as. -/
structure Link where
  /-- The delegated grant. -/
  grant : DelegationGrant
  /-- The certificate that signed the grant. -/
  signer : L.Cert
  /-- The CA certificate of the subject. -/
  ca : L.Cert
  /-- The policy signer certificate of the subject. -/
  policy : L.Cert
  caPem : String
  policyPem : String

variable {L}

/-- The authority a link establishes. -/
def Link.authority (link : Link L) : VerifiedAuthority where
  identityUri := link.grant.subjectIdentity
  namespaceScope := link.grant.namespace_
  caFingerprint := L.certificateSha256 link.ca
  caCertPem := link.caPem
  policySignerFingerprint := L.certificateSha256 link.policy
  policySignerCertPem := link.policyPem
  maxDelegationDepth := link.grant.maxDelegationDepth
  notAfter := stepNotAfter L link.grant link.ca link.policy
  effectiveGrant := some link.grant

/-- A certificate is signed by the key of a CA and names it as its issuer. -/
structure IssuedBy (certificate ca : L.Cert) : Prop where
  name : L.issuer certificate = L.subject ca
  signature : L.certSignedBy certificate (L.publicKey ca) = true
  ec : L.isEc (L.publicKey ca) = true

theorem verifyIssuedBy_iff {certificate ca : L.Cert} :
    verifyIssuedBy L certificate ca = .ok () ↔ IssuedBy certificate ca := by
  simp only [verifyIssuedBy, bind_eq_ok, rejectIf_eq_ok]
  constructor
  · rintro ⟨_, h1, _, h2, h3⟩
    exact ⟨by simpa using h2, by simpa using h3, by simpa using h1⟩
  · rintro ⟨h1, h2, h3⟩
    exact ⟨(), by simpa using h3, (), by simpa using h1, by simpa using h2⟩

/-- The checks of one step. -/
structure StepOk (revoked : List String) (now : Int) (issuer : VerifiedAuthority)
    (step : PyJson) (link : Link L) : Prop where
  keys : step.hasKeys stepKeys = true
  caPem : stepCertificate step "subject_ca_certificate" = some link.caPem
  policyPem : stepCertificate step "subject_policy_signer_certificate" = some link.policyPem
  envelope : verifyGrantEnvelope L (step.getD "delegation_envelope" .null)
    (some issuer.policySignerFingerprint) now = .ok (link.grant, link.signer)
  linked : link.grant.issuerIdentity = issuer.identityUri
  narrowing : ∀ parent, issuer.effectiveGrant = some parent →
    grantIsSubset link.grant parent = true
  depth : issuer.effectiveGrant = none →
    link.grant.maxDelegationDepth < issuer.maxDelegationDepth
  ca : L.loadPem link.caPem = some link.ca
  policy : L.loadPem link.policyPem = some link.policy
  issued : ∃ issuerCa, L.loadPem issuer.caCertPem = some issuerCa ∧
    IssuedBy link.ca issuerCa ∧ IssuedBy link.policy issuerCa
  caProfile : verifyCaProfile L link.ca = .ok ()
  policyProfile : verifyPolicyProfile L link.policy link.grant.subjectIdentity = .ok ()
  caMatches : L.certificateSha256 link.ca = link.grant.subjectCaSha256
  notRevoked : link.grant.subjectIdentity ∉ revoked ∧ L.certificateSha256 link.ca ∉ revoked ∧
    L.certificateSha256 link.policy ∉ revoked
  caWindow : L.notValidBefore link.ca ≤ now ∧ now < L.notValidAfter link.ca
  policyWindow : L.notValidBefore link.policy ≤ now ∧ now < L.notValidAfter link.policy

theorem verifyNarrowing_iff {grant : DelegationGrant} {index : Nat} :
    verifyNarrowing issuer grant index = .ok () ↔
      (∀ parent, issuer.effectiveGrant = some parent → grantIsSubset grant parent = true) ∧
      (issuer.effectiveGrant = none → grant.maxDelegationDepth < issuer.maxDelegationDepth) := by
  cases h : issuer.effectiveGrant with
  | none => simp [verifyNarrowing, h]
  | some parent => simp [verifyNarrowing, h]

/-- A step passes exactly when it is read as a link whose checks hold. -/
theorem verifyStep_iff {next : VerifiedAuthority} {index : Nat} {step : PyJson} :
    verifyStep L revoked now issuer index step = .ok next ↔
      ∃ link : Link L, StepOk revoked now issuer step link ∧ next = link.authority := by
  constructor
  · intro h
    rw [verifyStep, bind_eq_ok] at h
    obtain ⟨_, hkeys, h⟩ := h
    split at h
    next caPem policyPem hcaPem hpolicyPem =>
      simp only [bind_eq_ok, rejectIf_eq_ok] at h
      obtain ⟨⟨grant, signer⟩, henv, _, hissuer, _, hnarrow, h⟩ := h
      split at h
      next ca policy issuerCa hca hpolicy hissuerCa =>
        simp only [bind_eq_ok, rejectIf_eq_ok, pure_eq_ok] at h
        obtain ⟨_, hi1, _, hi2, _, hcap, _, hpp, _, hmatch, _, hrev, _, hyet, _, hexp, rfl⟩ := h
        dsimp only at henv hissuer hnarrow hpp hmatch hrev hyet hexp
        rw [verifyNarrowing_iff] at hnarrow
        have hlive : now < stepNotAfter L grant ca policy := by simpa using hexp
        rw [stepNotAfter, lt_min_iff, lt_min_iff] at hlive
        simp only [Bool.or_eq_false_iff, decide_eq_false_iff_not, not_lt] at hyet
        refine ⟨⟨grant, signer, ca, policy, caPem, policyPem⟩, ?_, rfl⟩
        exact
          { keys := by simpa using hkeys
            caPem := hcaPem
            policyPem := hpolicyPem
            envelope := henv
            linked := by simpa using hissuer
            narrowing := hnarrow.1
            depth := hnarrow.2
            ca := hca
            policy := hpolicy
            issued := ⟨issuerCa, hissuerCa, verifyIssuedBy_iff.mp hi1, verifyIssuedBy_iff.mp hi2⟩
            caProfile := hcap
            policyProfile := hpp
            caMatches := by simpa using hmatch
            notRevoked := by simpa [and_assoc] using hrev
            caWindow := ⟨hyet.1, hlive.2.1⟩
            policyWindow := ⟨hyet.2, hlive.2.2⟩ }
      · cases h
    · cases h
  · rintro ⟨link, hok, rfl⟩
    obtain ⟨issuerCa, hissuerCa, hi1, hi2⟩ := hok.issued
    have hgrant := (verifyGrantEnvelope_ok hok.envelope).window
    simp only [verifyStep, bind_eq_ok, rejectIf_eq_ok, hok.caPem, hok.policyPem, hok.envelope,
      hok.ca, hok.policy, hissuerCa, hok.caProfile, pure_eq_ok]
    refine ⟨(), by simpa using hok.keys, _, rfl, (), by simpa using hok.linked, (),
      verifyNarrowing_iff.mpr ⟨hok.narrowing, hok.depth⟩, (), verifyIssuedBy_iff.mpr hi1, (),
      verifyIssuedBy_iff.mpr hi2, (), trivial, (), hok.policyProfile, (), by simpa using hok.caMatches, (), ?_, (),
      ?_, (), ?_, rfl⟩
    · simpa [and_assoc] using hok.notRevoked
    · simpa using ⟨hok.caWindow.1, hok.policyWindow.1⟩
    · simpa [stepNotAfter] using ⟨hgrant.2, hok.caWindow.2, hok.policyWindow.2⟩

/-- The links of a list of steps, from an issuer to the last authority. -/
inductive ChainOk (revoked : List String) (now : Int) :
    VerifiedAuthority → List PyJson → List (Link L) → VerifiedAuthority → Prop where
  | nil {issuer : VerifiedAuthority} : ChainOk revoked now issuer [] [] issuer
  | cons {issuer last : VerifiedAuthority} {step : PyJson} {steps : List PyJson}
      {link : Link L} {links : List (Link L)} :
      StepOk revoked now issuer step link →
      ChainOk revoked now link.authority steps links last →
      ChainOk revoked now issuer (step :: steps) (link :: links) last

/-- A chain goes on with a step from the authority it ends in. -/
theorem ChainOk.snoc {last : VerifiedAuthority} {steps : List PyJson} {links : List (Link L)}
    {step : PyJson} {link : Link L} (h : ChainOk revoked now issuer steps links last)
    (hstep : StepOk revoked now last step link) :
    ChainOk revoked now issuer (steps ++ [step]) (links ++ [link]) link.authority := by
  induction h with
  | nil => exact .cons hstep .nil
  | cons hfirst _ ih => exact .cons hfirst (ih hstep)

theorem verifySteps_iff :
    ∀ {steps : List PyJson} {issuer last : VerifiedAuthority} {index : Nat},
      verifySteps L revoked now issuer index steps = .ok last ↔
        ∃ links : List (Link L), ChainOk revoked now issuer steps links last
  | [], issuer, last, index => by
    simp only [verifySteps, Except.ok.injEq]
    constructor
    · rintro rfl
      exact ⟨[], .nil⟩
    · rintro ⟨links, h⟩
      cases h
      rfl
  | step :: steps, issuer, last, index => by
    simp only [verifySteps, bind_eq_ok, verifyStep_iff]
    constructor
    · rintro ⟨_, ⟨link, hlink, rfl⟩, hrest⟩
      obtain ⟨links, hlinks⟩ := verifySteps_iff.mp hrest
      exact ⟨link :: links, .cons hlink hlinks⟩
    · rintro ⟨links, h⟩
      cases h with
      | cons hlink hlinks =>
        exact ⟨_, ⟨_, hlink, rfl⟩, verifySteps_iff.mpr ⟨_, hlinks⟩⟩

/-- The trusted anchor, as the verification uses it. -/
structure AnchorOk (trusted : TrustAuthority) (revoked : List String) (now : Int) : Prop where
  active : trusted.state = .active
  identity : trusted.identityUri ∉ revoked
  caFingerprint : trusted.caFingerprint ∉ revoked
  notAfter : now < trusted.notAfter

theorem anchorUsable_iff :
    anchorUsable trusted revoked now = true ↔ AnchorOk trusted revoked now := by
  simp only [anchorUsable, Bool.and_eq_true, beq_iff_eq, decide_eq_true_eq]
  constructor
  · rintro ⟨⟨⟨h1, h2⟩, h3⟩, h4⟩
    exact ⟨h1, by simpa using h2, by simpa using h3, h4⟩
  · rintro ⟨h1, h2, h3, h4⟩
    exact ⟨⟨⟨h1, by simpa using h2⟩, by simpa using h3⟩, h4⟩

/-- A proof that verifies has an anchor that matches, and a chain of links from it. -/
structure ProofOk (proof : PyJson) (trusted : TrustAuthority) (revoked : List String)
    (now : Int) (steps : List PyJson) (links : List (Link L)) (root last : VerifiedAuthority) :
    Prop where
  keys : proof.hasKeys ["schema", "anchor", "steps"] = true
  schema : proof.get? "schema" = some (.str "efdi.trust-chain/v1")
  anchor : AnchorMatches L (proof.getD "anchor" .null) trusted
  listed : proofSteps proof = some steps
  bounded : 1 ≤ steps.length ∧ steps.length < maxTrustChainDepth
  usable : AnchorOk trusted revoked now
  record : authorityRecord trusted none = .ok root
  chain : ChainOk revoked now root steps links last

theorem verifyTrustChain_iff {proof : PyJson} {last : VerifiedAuthority} :
    verifyTrustChain L proof trusted revoked now = .ok last ↔
      ∃ steps links root, ProofOk (L := L) proof trusted revoked now steps links root last := by
  constructor
  · intro h
    simp only [verifyTrustChain, bind_eq_ok, rejectIf_eq_ok] at h
    obtain ⟨_, hkeys, _, hschema, _, hanchor, h⟩ := h
    split at h
    · cases h
    next steps hsteps =>
      rw [Option.filter_eq_some_iff] at hsteps
      simp only [bind_eq_ok, rejectIf_eq_ok] at h
      obtain ⟨_, husable, root, hroot, hchain⟩ := h
      obtain ⟨links, hlinks⟩ := verifySteps_iff.mp hchain
      exact ⟨steps, links, root,
        { keys := by simpa using hkeys
          schema := by simpa using hschema
          anchor := (verifyAnchor_iff L).mp hanchor
          listed := hsteps.1
          bounded := by simpa using hsteps.2
          usable := anchorUsable_iff.mp (by simpa using husable)
          record := hroot
          chain := hlinks }⟩
  · rintro ⟨steps, links, root, h⟩
    have hsteps : ((proofSteps proof).filter fun steps =>
        decide (1 ≤ steps.length ∧ steps.length < maxTrustChainDepth)) = some steps :=
      Option.filter_eq_some_iff.mpr ⟨h.listed, by simpa using h.bounded⟩
    simp only [verifyTrustChain, bind_eq_ok, rejectIf_eq_ok, hsteps]
    exact ⟨(), by simpa using h.keys, (), by simpa using h.schema, (),
      (verifyAnchor_iff L).mpr h.anchor, (), by simpa using anchorUsable_iff.mpr h.usable, root,
      h.record, verifySteps_iff.mpr ⟨links, h.chain⟩⟩

end Efdi.Trust

import Efdi.Trust.Chain

/-!
# Exceptions that escape

A caller of `verify_trust_chain` catches `TrustStoreError`.  The envelope of a grant and
the identity of a certificate are checked by `trust_crypto.py`, which raises
`TrustVerifyError`, and nothing turns one into the other.

`Escapes` says that a computation ends in an exception of another class.  The lemmas
follow the sequence of checks, so a proof escapes exactly where one of these two checks
fails: `escapes_verifyTrustChain`.
-/

namespace Efdi.Trust

open Checks

/-- The computation raises an exception that is not a `TrustStoreError`. -/
def Escapes {α : Type} (x : Except TrustError α) : Prop :=
  ∃ e, x = .error e ∧ ∀ message, e ≠ .trustStore message

/-- The computation raises. -/
def Fails {α : Type} (x : Except TrustError α) : Prop := ∃ e, x = .error e

section Rules

variable {α β : Type}

@[simp] theorem escapes_ok (a : α) : ¬Escapes (.ok a : Except TrustError α) := by
  rintro ⟨_, h, _⟩
  cases h

@[simp] theorem escapes_trustStore (message : String) :
    ¬Escapes (.error (.trustStore message) : Except TrustError α) := by
  rintro ⟨_, h, hne⟩
  cases h
  exact hne message rfl

@[simp] theorem escapes_trustVerify (message : String) :
    Escapes (.error (.trustVerify message) : Except TrustError α) :=
  ⟨_, rfl, fun _ => nofun⟩

variable {x : Except TrustError α} {f : α → Except TrustError β}

/-- A sequence escapes in its first part or, when that succeeds, in its second. -/
theorem escapes_bind :
    Escapes (x >>= f) ↔ Escapes x ∨ ∃ a, x = .ok a ∧ Escapes (f a) := by
  cases x with
  | error e =>
    rw [error_bind]
    constructor
    · rintro ⟨_, h, hne⟩
      cases h
      exact .inl ⟨e, rfl, hne⟩
    · rintro (⟨_, h, hne⟩ | ⟨_, h, _⟩)
      · cases h
        exact ⟨e, rfl, hne⟩
      · cases h
  | ok a => simp [ok_bind]

@[simp] theorem escapes_rejectIf_trustStore (bad : Bool) (message : String) :
    ¬Escapes (rejectIf bad (.trustStore message)) := by
  cases bad <;> simp

theorem Escapes.fails (h : Escapes x) : Fails x := ⟨_, h.choose_spec.1⟩

theorem fails_bind :
    Fails (x >>= f) ↔ Fails x ∨ ∃ a, x = .ok a ∧ Fails (f a) := by
  cases x with
  | error e => simp [Fails, error_bind]
  | ok a => simp [Fails, ok_bind]

/-- A sequence whose parts all escape when they fail does so too. -/
theorem escapes_bind_of_fails (hx : Fails x → Escapes x) (hf : ∀ a, Fails (f a) → Escapes (f a)) :
    Fails (x >>= f) → Escapes (x >>= f) := by
  rw [fails_bind, escapes_bind]
  rintro (h | ⟨a, ha, h⟩)
  · exact .inl (hx h)
  · exact .inr ⟨a, ha, hf a h⟩

theorem escapes_of_fails_rejectIf {bad : Bool} {message : String}
    (h : Fails (rejectIf bad (.trustVerify message))) :
    Escapes (rejectIf bad (.trustVerify message)) := by
  obtain ⟨e, he⟩ := h
  cases bad with
  | false => cases he
  | true => exact escapes_trustVerify message

theorem not_fails_ok (a : α) : ¬Fails (.ok a : Except TrustError α) := by
  rintro ⟨_, h⟩
  cases h

end Rules

variable {L : Libs}

/-! ## The checks of `trust_crypto.py` -/

variable {certificate : L.Cert} {now : Int} {revoked : List String}

theorem escapes_certificateRouterIdentity :
    Fails (certificateRouterIdentity L certificate) →
      Escapes (certificateRouterIdentity L certificate) := by
  rintro ⟨e, h⟩
  rw [certificateRouterIdentity] at h ⊢
  split at h
  · exact escapes_trustVerify _
  · split at h
    · cases h
    next hstarts =>
      rw [if_neg hstarts]
      exact escapes_trustVerify _
  · exact escapes_trustVerify _

theorem escapes_envelopeDocument {raw : PyJson} :
    Fails (envelopeDocument L raw) → Escapes (envelopeDocument L raw) := by
  cases raw with
  | str text =>
    rw [envelopeDocument]
    cases L.strictJsonLoads text with
    | some document => exact fun h => absurd h (not_fails_ok _)
    | none => exact fun _ => escapes_trustVerify _
  | _ => exact fun h => absurd h (not_fails_ok _)

theorem escapes_parseGrantEnvelope {document : PyJson} :
    Fails (parseGrantEnvelope L document) → Escapes (parseGrantEnvelope L document) := by
  rw [parseGrantEnvelope]
  cases envelopeModelValidate document with
  | none => exact fun _ => escapes_trustVerify _
  | some envelope =>
    cases hgrant : grantModelValidate L envelope.payload with
    | none => exact fun _ => by simp [hgrant]
    | some grant =>
      cases hcert : L.loadPem envelope.signerCertificate with
      | none => exact fun _ => by simp [hgrant, hcert]
      | some certificate =>
        simp only [hgrant, hcert]
        exact fun h => absurd h (not_fails_ok _)

/-- Whatever is wrong with an envelope escapes. -/
theorem escapes_verifyGrantEnvelope {raw : PyJson} {expected : Option String} :
    Escapes (verifyGrantEnvelope L raw expected now) ↔
      Fails (verifyGrantEnvelope L raw expected now) := by
  refine ⟨Escapes.fails, ?_⟩
  rw [verifyGrantEnvelope]
  refine escapes_bind_of_fails escapes_envelopeDocument fun document => ?_
  refine escapes_bind_of_fails escapes_parseGrantEnvelope ?_
  rintro ⟨envelope, grant, certificate⟩
  refine escapes_bind_of_fails escapes_of_fails_rejectIf fun _ => ?_
  refine escapes_bind_of_fails escapes_of_fails_rejectIf fun _ => ?_
  refine escapes_bind_of_fails escapes_certificateRouterIdentity fun identity => ?_
  refine escapes_bind_of_fails escapes_of_fails_rejectIf fun _ => ?_
  refine escapes_bind_of_fails escapes_of_fails_rejectIf fun _ => ?_
  refine escapes_bind_of_fails escapes_of_fails_rejectIf fun _ => ?_
  refine escapes_bind_of_fails escapes_of_fails_rejectIf fun _ => ?_
  refine escapes_bind_of_fails escapes_of_fails_rejectIf fun _ => ?_
  exact fun h => absurd h (not_fails_ok _)

/-! ## The checks of `trust_store.py` -/

theorem not_escapes_verifyIssuedBy {issuer : L.Cert} :
    ¬Escapes (verifyIssuedBy L certificate issuer) := by
  simp [verifyIssuedBy, escapes_bind, escapes_rejectIf_trustStore]

theorem not_escapes_verifyCaProfile :
    ¬Escapes (verifyCaProfile L certificate) := by
  rw [verifyCaProfile]
  split
  · simp [escapes_bind, escapes_rejectIf_trustStore]
  · exact escapes_trustStore _

theorem not_escapes_verifyNarrowing {issuer : VerifiedAuthority} {grant : DelegationGrant}
    {index : Nat} : ¬Escapes (verifyNarrowing issuer grant index) := by
  rw [verifyNarrowing]
  split <;> exact escapes_rejectIf_trustStore _ _

theorem not_escapes_verifyAnchor {anchor : PyJson} {trusted : TrustAuthority} :
    ¬Escapes (verifyAnchor L anchor trusted) := by
  simp [verifyAnchor, escapes_bind, escapes_rejectIf_trustStore]

theorem not_escapes_authorityRecord {authority : TrustAuthority} {grant : Option DelegationGrant} :
    ¬Escapes (authorityRecord authority grant) := by
  rw [authorityRecord]
  split
  · split
    · exact escapes_trustStore _
    · exact escapes_ok _
  · exact escapes_trustStore _

/-- A certificate with the constraints of a policy signer. -/
def PolicyConstraints (certificate : L.Cert) : Prop :=
  ∃ constraints usage extended, L.basicConstraints certificate = some constraints ∧
    L.keyUsage certificate = some usage ∧ L.extendedKeyUsage certificate = some extended ∧
    constraints.ca = false ∧ usage.digitalSignature = true ∧ policySignerEku ∈ extended

/-- The profile of a policy signer escapes where its identity is read. -/
theorem escapes_verifyPolicyProfile {identity : String} :
    Escapes (verifyPolicyProfile L certificate identity) ↔
      PolicyConstraints certificate ∧ Fails (certificateRouterIdentity L certificate) := by
  have hidentity : Escapes (certificateRouterIdentity L certificate) ↔
      Fails (certificateRouterIdentity L certificate) :=
    ⟨Escapes.fails, escapes_certificateRouterIdentity⟩
  rw [verifyPolicyProfile]
  split
  next constraints usage extended hconstraints husage hextended =>
    simp only [escapes_bind, escapes_rejectIf_trustStore, rejectIf_eq_ok, hidentity, false_or,
      and_false, exists_false, or_false]
    constructor
    · rintro ⟨_, hok, hfails⟩
      simp only [Bool.or_eq_false_iff, Bool.not_eq_false', List.contains_iff_mem] at hok
      exact ⟨⟨constraints, usage, extended, hconstraints, husage, hextended, hok.1.1, hok.1.2,
        hok.2⟩, hfails⟩
    · rintro ⟨⟨constraints', usage', extended', h₁, h₂, h₃, hca, hsignature, heku⟩, hfails⟩
      obtain rfl := Option.some.inj (hconstraints.symm.trans h₁)
      obtain rfl := Option.some.inj (husage.symm.trans h₂)
      obtain rfl := Option.some.inj (hextended.symm.trans h₃)
      refine ⟨(), ?_, hfails⟩
      simp only [Bool.or_eq_false_iff, Bool.not_eq_false', List.contains_iff_mem]
      exact ⟨⟨hca, hsignature⟩, heku⟩
  next hnone =>
    refine ⟨fun h => absurd h (escapes_trustStore _), ?_⟩
    rintro ⟨⟨constraints, usage, extended, h₁, h₂, h₃, -⟩, -⟩
    exact (hnone constraints usage extended h₁ h₂ h₃).elim

/-! ## Steps and proofs -/

/-- The parts of a step that are read before its envelope. -/
def StepRead (step : PyJson) (caPem policyPem : String) : Prop :=
  step.hasKeys stepKeys = true ∧ stepCertificate step "subject_ca_certificate" = some caPem ∧
    stepCertificate step "subject_policy_signer_certificate" = some policyPem

/-- A step with an envelope that is rejected, or with a policy signer, otherwise in order, that
names no router. -/
inductive StepEscapes (L : Libs) (now : Int) (issuer : VerifiedAuthority) (step : PyJson) :
    Prop where
  | envelope {caPem policyPem : String} (read : StepRead step caPem policyPem)
      (rejected : Fails (verifyGrantEnvelope L (step.getD "delegation_envelope" .null)
        (some issuer.policySignerFingerprint) now)) : StepEscapes L now issuer step
  | identity {caPem policyPem : String} {grant : DelegationGrant}
      {signer ca policy issuerCa : L.Cert} (read : StepRead step caPem policyPem)
      (envelope : verifyGrantEnvelope L (step.getD "delegation_envelope" .null)
        (some issuer.policySignerFingerprint) now = .ok (grant, signer))
      (linked : grant.issuerIdentity = issuer.identityUri)
      (narrowing : ∀ parent, issuer.effectiveGrant = some parent →
        grantIsSubset grant parent = true)
      (depth : issuer.effectiveGrant = none →
        grant.maxDelegationDepth < issuer.maxDelegationDepth)
      (loads : L.loadPem caPem = some ca ∧ L.loadPem policyPem = some policy ∧
        L.loadPem issuer.caCertPem = some issuerCa)
      (issued : IssuedBy ca issuerCa ∧ IssuedBy policy issuerCa)
      (caProfile : verifyCaProfile L ca = .ok ())
      (constraints : PolicyConstraints policy)
      (unnamed : Fails (certificateRouterIdentity L policy)) : StepEscapes L now issuer step

theorem escapes_verifyStep {issuer : VerifiedAuthority} {index : Nat} {step : PyJson} :
    Escapes (verifyStep L revoked now issuer index step) ↔ StepEscapes L now issuer step := by
  rw [verifyStep, escapes_bind]
  simp only [escapes_rejectIf_trustStore, rejectIf_eq_ok, false_or, Bool.not_eq_false']
  constructor
  · rintro ⟨_, hkeys, h⟩
    split at h
    next caPem policyPem hcaPem hpolicyPem =>
      have hread : StepRead step caPem policyPem := ⟨hkeys, hcaPem, hpolicyPem⟩
      rw [escapes_bind, escapes_verifyGrantEnvelope] at h
      rcases h with hrejected | ⟨⟨grant, signer⟩, henvelope, h⟩
      · exact .envelope hread hrejected
      simp only [escapes_bind, escapes_rejectIf_trustStore, rejectIf_eq_ok, false_or,
        not_escapes_verifyNarrowing] at h
      obtain ⟨_, hlinked, _, hnarrows, h⟩ := h
      obtain ⟨hnarrowing, hdepth⟩ := verifyNarrowing_iff.mp hnarrows
      split at h
      next ca policy issuerCa hca hpolicy hissuerCa =>
        simp only [escapes_bind, escapes_rejectIf_trustStore, rejectIf_eq_ok, false_or,
          not_escapes_verifyIssuedBy, not_escapes_verifyCaProfile,
          escapes_verifyPolicyProfile] at h
        obtain ⟨_, hissued₁, _, hissued₂, _, hprofile, h⟩ := h
        rcases h with hidentity | ⟨_, _, _, _, _, _, _, _, _, _, h⟩
        · exact .identity hread henvelope (by simpa using hlinked) hnarrowing hdepth
            ⟨hca, hpolicy, hissuerCa⟩
            ⟨verifyIssuedBy_iff.mp hissued₁, verifyIssuedBy_iff.mp hissued₂⟩ hprofile
            hidentity.1 hidentity.2
        · exact absurd h (escapes_ok _)
      · exact absurd h (escapes_trustStore _)
    · exact absurd h (escapes_trustStore _)
  · intro h
    cases h with
    | envelope hread hrejected =>
      refine ⟨(), hread.1, ?_⟩
      simp only [hread.2.1, hread.2.2]
      exact escapes_bind.mpr (.inl (escapes_verifyGrantEnvelope.mpr hrejected))
    | identity hread henvelope hlinked hnarrowing hdepth hloads hissued hprofile hconstraints
        hunnamed =>
        refine ⟨(), hread.1, ?_⟩
        simp only [hread.2.1, hread.2.2, henvelope, ok_bind, hloads.1, hloads.2.1, hloads.2.2]
        refine escapes_bind.mpr (.inr ⟨(), by simpa using hlinked, ?_⟩)
        refine escapes_bind.mpr (.inr ⟨(), verifyNarrowing_iff.mpr ⟨hnarrowing, hdepth⟩, ?_⟩)
        refine escapes_bind.mpr (.inr ⟨(), verifyIssuedBy_iff.mpr hissued.1, ?_⟩)
        refine escapes_bind.mpr (.inr ⟨(), verifyIssuedBy_iff.mpr hissued.2, ?_⟩)
        refine escapes_bind.mpr (.inr ⟨(), hprofile, ?_⟩)
        exact escapes_bind.mpr (.inl (escapes_verifyPolicyProfile.mpr ⟨hconstraints, hunnamed⟩))

/-- A list of steps one of which escapes, after steps that pass. -/
inductive StepsEscape (L : Libs) (revoked : List String) (now : Int) :
    VerifiedAuthority → List PyJson → Prop where
  | here {issuer : VerifiedAuthority} {step : PyJson} {steps : List PyJson} :
      StepEscapes L now issuer step → StepsEscape L revoked now issuer (step :: steps)
  | later {issuer : VerifiedAuthority} {step : PyJson} {steps : List PyJson} {link : Link L} :
      StepOk revoked now issuer step link → StepsEscape L revoked now link.authority steps →
      StepsEscape L revoked now issuer (step :: steps)

theorem escapes_verifySteps :
    ∀ {steps : List PyJson} {issuer : VerifiedAuthority} {index : Nat},
      Escapes (verifySteps L revoked now issuer index steps) ↔
        StepsEscape L revoked now issuer steps
  | [], issuer, index => by
    rw [verifySteps]
    exact ⟨fun h => absurd h (escapes_ok _), fun h => by cases h⟩
  | step :: steps, issuer, index => by
    rw [verifySteps, escapes_bind, escapes_verifyStep]
    constructor
    · rintro (h | ⟨next, hnext, h⟩)
      · exact .here h
      · obtain ⟨link, hlink, rfl⟩ := verifyStep_iff.mp hnext
        exact .later hlink (escapes_verifySteps.mp h)
    · intro h
      cases h with
      | here h => exact .inl h
      | later hlink h =>
        exact .inr ⟨_, verifyStep_iff.mpr ⟨_, hlink, rfl⟩, escapes_verifySteps.mpr h⟩

/-- A proof that is in order up to a step that escapes. -/
structure ProofEscapes (L : Libs) (proof : PyJson) (trusted : TrustAuthority)
    (revoked : List String) (now : Int) (steps : List PyJson) (root : VerifiedAuthority) :
    Prop where
  keys : proof.hasKeys ["schema", "anchor", "steps"] = true
  schema : proof.get? "schema" = some (.str "efdi.trust-chain/v1")
  anchor : AnchorMatches L (proof.getD "anchor" .null) trusted
  listed : proofSteps proof = some steps
  bounded : 1 ≤ steps.length ∧ steps.length < maxTrustChainDepth
  usable : AnchorOk trusted revoked now
  record : authorityRecord trusted none = .ok root
  escapes : StepsEscape L revoked now root steps

/-- A verification escapes exactly at the envelope of a step or at the identity of its policy
signer. -/
theorem escapes_verifyTrustChain {proof : PyJson} {trusted : TrustAuthority} :
    Escapes (verifyTrustChain L proof trusted revoked now) ↔
      ∃ steps root, ProofEscapes L proof trusted revoked now steps root := by
  rw [verifyTrustChain]
  simp only [escapes_bind, escapes_rejectIf_trustStore, rejectIf_eq_ok, false_or,
    not_escapes_verifyAnchor, Bool.not_eq_false', decide_eq_true_eq]
  constructor
  · rintro ⟨_, hkeys, _, hschema, _, hanchor, h⟩
    split at h
    · exact absurd h (escapes_trustStore _)
    next steps hsteps =>
      rw [Option.filter_eq_some_iff] at hsteps
      simp only [escapes_bind, escapes_rejectIf_trustStore, rejectIf_eq_ok, false_or,
        not_escapes_authorityRecord, escapes_verifySteps, Bool.not_eq_false'] at h
      obtain ⟨_, husable, root, hrecord, hescapes⟩ := h
      exact ⟨steps, root,
        { keys := hkeys
          schema := hschema
          anchor := (verifyAnchor_iff L).mp hanchor
          listed := hsteps.1
          bounded := by simpa using hsteps.2
          usable := anchorUsable_iff.mp husable
          record := hrecord
          escapes := hescapes }⟩
  · rintro ⟨steps, root, h⟩
    have hsteps : ((proofSteps proof).filter fun steps =>
        decide (1 ≤ steps.length ∧ steps.length < maxTrustChainDepth)) = some steps :=
      Option.filter_eq_some_iff.mpr ⟨h.listed, by simpa using h.bounded⟩
    refine ⟨(), h.keys, (), h.schema, (), (verifyAnchor_iff L).mpr h.anchor, ?_⟩
    simp only [hsteps, escapes_bind, escapes_rejectIf_trustStore, rejectIf_eq_ok, false_or,
      not_escapes_authorityRecord, escapes_verifySteps, Bool.not_eq_false']
    exact ⟨(), anchorUsable_iff.mpr h.usable, root, h.record, h.escapes⟩

end Efdi.Trust

import Efdi.Base.Runs
import Efdi.Trust.Symbolic
import Mathlib.Data.List.Forall2

/-!
# Soundness of chain verification

What a successful `verifyTrustChain` proves about the proof it was given.  The
cryptography is abstract: fingerprints are injective digests, and a signature that
verifies was made by the holder of the key (`Libs.Abstract`).

The issuer of a step is what the previous step established.  So "the signer of each
step is the previous policy signer" is a condition on the steps of a run whose state
is that signer, and `Runs.Guarded` states it.  The same holds for the issuing CA and
for the identities.  Containment of grants is checked between neighbours only; it
holds between any two grants of the chain because narrowing is transitive.
-/

namespace Efdi.Trust

open List
open Checks (exists_of_isOk)
open Runs (Guarded)

variable {L : Libs}

/-! ## Following the loop -/

variable {revoked : List String} {now : Int} {issuer last : VerifiedAuthority} {steps : List PyJson}
  {links : List (Link L)} {step : PyJson} {link : Link L}

theorem ChainOk.length (h : ChainOk revoked now issuer steps links last) :
    links.length = steps.length := by
  induction h with
  | nil => rfl
  | cons _ _ ih => simp [ih]

/-- The last link of a chain established the authority that is returned. -/
theorem ChainOk.last_eq (h : ChainOk revoked now issuer steps links last) :
    last = (links.getLast?.map Link.authority).getD issuer := by
  induction h with
  | nil => rfl
  | @cons issuer last step steps link links _ hrest ih =>
    cases links with
    | nil => simpa using ih
    | cons link' links =>
      rw [getLast?_cons_cons]
      rw [ih]
      cases hl : (link' :: links).getLast? with
      | none => simp at hl
      | some l => rfl

/-- Every link of a chain passed the checks of its step, under some issuer. -/
theorem ChainOk.stepOk (h : ChainOk revoked now issuer steps links last) :
    List.Forall₂ (fun step link => ∃ a, StepOk revoked now a step link) steps links := by
  induction h with
  | nil => exact .nil
  | cons hstep _ ih => exact .cons ⟨_, hstep⟩ ih

theorem ChainOk.forall_link (h : ChainOk revoked now issuer steps links last) :
    ∀ link ∈ links, ∃ a step, StepOk revoked now a step link := by
  induction h with
  | nil => simp
  | cons hstep _ ih =>
    intro link hl
    rcases mem_cons.mp hl with rfl | hl
    · exact ⟨_, _, hstep⟩
    · exact ih link hl

theorem ChainOk.forall_step (h : ChainOk revoked now issuer steps links last) :
    ∀ step ∈ steps, ∃ a, ∃ link : Link L, StepOk revoked now a step link := by
  induction h with
  | nil => simp
  | cons hstep _ ih =>
    intro step hs
    rcases mem_cons.mp hs with rfl | hs
    · exact ⟨_, _, hstep⟩
    · exact ih step hs

/-- Each grant names the identity the previous step established as its issuer. -/
theorem ChainOk.identities (h : ChainOk revoked now issuer steps links last) :
    Guarded (fun _ link => link.grant.subjectIdentity)
      (fun identity link => link.grant.issuerIdentity = identity) issuer.identityUri links := by
  induction h with
  | nil => trivial
  | cons hstep _ ih => exact ⟨hstep.linked, ih⟩

/-- Both certificates of each link are issued by the CA of the previous one. -/
theorem ChainOk.issued (h : ChainOk revoked now issuer steps links last) {issuerCa : L.Cert}
    (hca : L.loadPem issuer.caCertPem = some issuerCa) :
    Guarded (fun _ link => link.ca)
      (fun ca link => IssuedBy link.ca ca ∧ IssuedBy link.policy ca) issuerCa links := by
  induction h generalizing issuerCa with
  | nil => trivial
  | cons hstep _ ih =>
    obtain ⟨ca, hload, h1, h2⟩ := hstep.issued
    obtain rfl : issuerCa = ca := Option.some.inj (hca.symm.trans hload)
    exact ⟨⟨h1, h2⟩, ih hstep.ca⟩

/-- The signer of each grant is the policy signer of the previous link. -/
theorem ChainOk.signed {signed : L.Key → SignedBytes → Prop} (hL : L.Abstract signed)
    (h : ChainOk revoked now issuer steps links last) (hne : issuer.policySignerFingerprint ≠ "")
    {signer : L.Cert}
    (hsigner : L.certificateSha256 signer = PyStr.lower issuer.policySignerFingerprint) :
    Guarded (fun _ link => link.policy)
      (fun signer link => link.signer = signer ∧
        signed (L.publicKey signer) (grantBytes L link.grant)) signer links := by
  induction h generalizing signer with
  | nil => trivial
  | @cons issuer last step steps link links hstep _ ih =>
    have henv := verifyGrantEnvelope_ok hstep.envelope
    have hsame : link.signer = signer :=
      hL.fingerprint_inj ((henv.signer _ rfl hne).trans hsigner.symm)
    obtain ⟨signature, hver⟩ := henv.signed
    refine ⟨⟨hsame, hL.unforgeable _ signature _ (hsame ▸ hver)⟩, ?_⟩
    have hhex := hL.fingerprint_hex link.policy
    exact ih (ne_empty_of_fingerprintOk hhex) (lower_of_fingerprintOk hhex).symm

/-- Below a grant, every grant of the chain is narrower and has less depth. -/
theorem ChainOk.narrower_below (h : ChainOk revoked now issuer steps links last)
    {parent : DelegationGrant} (hparent : issuer.effectiveGrant = some parent) :
    (∀ link ∈ links, Narrower link.grant parent) ∧
      (links.map Link.grant).Pairwise (fun earlier later => Narrower later earlier) := by
  induction h generalizing parent with
  | nil => exact ⟨by simp, .nil⟩
  | @cons issuer last step steps link links hstep _ ih =>
    have hlink := (grantIsSubset_iff.mp (hstep.narrowing parent hparent)).2.2
    obtain ⟨hbelow, hpairs⟩ := ih (show _ = some link.grant from rfl)
    refine ⟨?_, ?_⟩
    · intro l hl
      rcases mem_cons.mp hl with rfl | hl
      · exact hlink
      · exact hlink.trans (hbelow l hl)
    · rw [map_cons, pairwise_cons]
      refine ⟨?_, hpairs⟩
      intro g hg
      obtain ⟨l, hl, rfl⟩ := mem_map.mp hg
      exact hbelow l hl

/-- Any two grants of a chain are ordered by narrowing. -/
theorem ChainOk.narrower (h : ChainOk revoked now issuer steps links last) :
    (links.map Link.grant).Pairwise (fun earlier later => Narrower later earlier) := by
  cases h with
  | nil => exact .nil
  | @cons _ _ _ _ link links _ hrest =>
    obtain ⟨hbelow, hpairs⟩ := hrest.narrower_below (show _ = some link.grant from rfl)
    rw [map_cons, pairwise_cons]
    refine ⟨?_, hpairs⟩
    intro g hg
    obtain ⟨l, hl, rfl⟩ := mem_map.mp hg
    exact hbelow l hl

/-- Every step has less delegation depth than the authority it starts from. -/
theorem StepOk.depth_lt (h : StepOk revoked now issuer step link)
    (hgrant : ∀ g, issuer.effectiveGrant = some g →
      g.maxDelegationDepth = issuer.maxDelegationDepth) :
    link.grant.maxDelegationDepth < issuer.maxDelegationDepth := by
  cases hg : issuer.effectiveGrant with
  | none => exact h.depth hg
  | some parent =>
    have hlt := (grantIsSubset_iff.mp (h.narrowing parent hg)).2.1
    exact hgrant parent hg ▸ hlt

theorem ChainOk.depths (h : ChainOk revoked now issuer steps links last)
    (hgrant : ∀ g, issuer.effectiveGrant = some g →
      g.maxDelegationDepth = issuer.maxDelegationDepth) :
    Guarded (fun _ link => link.grant.maxDelegationDepth)
      (fun depth link => link.grant.maxDelegationDepth < depth) issuer.maxDelegationDepth links := by
  induction h with
  | nil => trivial
  | @cons issuer last step steps link links hstep _ ih =>
    refine ⟨hstep.depth_lt hgrant, ih ?_⟩
    rintro g ⟨⟩
    rfl

/-- A chain of decreasing depths, none of them negative, is no longer than its start. -/
theorem length_le_of_depths : ∀ {links : List (Link L)} {depth : Int},
    Guarded (fun _ link => link.grant.maxDelegationDepth)
      (fun depth link => link.grant.maxDelegationDepth < depth) depth links →
    0 ≤ depth → (links.length : Int) ≤ depth
  | [], _, _, hd => by simpa using hd
  | link :: links, depth, h, _ => by
    have hrest : (links.length : Int) ≤ link.grant.maxDelegationDepth :=
      length_le_of_depths h.2 link.grant.depth_nonneg
    have hlt : link.grant.maxDelegationDepth < depth := h.1
    simp only [length_cons]
    push_cast
    omega

/-! ## Soundness -/

/-- The windows a link was checked against. -/
structure Link.InWindow (link : Link L) (now : Int) : Prop where
  grant : link.grant.notBefore ≤ now ∧ now < link.grant.notAfter
  signer : L.notValidBefore link.signer ≤ now ∧ now < L.notValidAfter link.signer
  ca : L.notValidBefore link.ca ≤ now ∧ now < L.notValidAfter link.ca
  policy : L.notValidBefore link.policy ≤ now ∧ now < L.notValidAfter link.policy

/-- The identity, the CA and the policy signer of a link are not revoked. -/
structure Link.NotRevoked (link : Link L) (revoked : List String) : Prop where
  identity : link.grant.subjectIdentity ∉ revoked
  ca : L.certificateSha256 link.ca ∉ revoked
  policy : L.certificateSha256 link.policy ∉ revoked

/-- A step of a proof is read as a link: its envelope verifies to the grant and the
signer, and its texts load to the two certificates. -/
structure Link.ReadFrom (link : Link L) (step : PyJson) (now : Int) : Prop where
  envelope : ∃ expected, verifyGrantEnvelope L (step.getD "delegation_envelope" .null)
    expected now = .ok (link.grant, link.signer)
  caPem : step.get? "subject_ca_certificate" = some (.str link.caPem)
  policyPem : step.get? "subject_policy_signer_certificate" = some (.str link.policyPem)
  ca : L.loadPem link.caPem = some link.ca
  policy : L.loadPem link.policyPem = some link.policy

/-- What a verified chain is. -/
structure ChainSound (signed : L.Key → SignedBytes → Prop) (proof : PyJson)
    (trusted : TrustAuthority) (revoked : List String) (now : Int) (last : VerifiedAuthority)
    (links : List (Link L)) : Prop where
  /-- The anchor of the proof is the trusted anchor. -/
  anchor : AnchorMatches L (proof.getD "anchor" .null) trusted
  /-- The trusted anchor is active, not revoked and not expired. -/
  usable : AnchorOk trusted revoked now
  /-- The links are the steps of the proof, in order, and there is at least one. -/
  steps : ∃ steps, proofSteps proof = some steps ∧
    List.Forall₂ (fun step link => Link.ReadFrom link step now) steps links
  nonempty : links ≠ []
  /-- Every grant is signed by the policy signer the previous step established. -/
  signed : ∃ fingerprint signer, trusted.policySignerFingerprint = some fingerprint ∧
    L.certificateSha256 signer = PyStr.lower fingerprint ∧
    Guarded (fun _ link => link.policy)
      (fun signer link => link.signer = signer ∧
        signed (L.publicKey signer) (grantBytes L link.grant)) signer links
  /-- Every grant names the identity the previous step established as its issuer. -/
  identities : Guarded (fun _ link => link.grant.subjectIdentity)
    (fun identity link => link.grant.issuerIdentity = identity) trusted.identityUri links
  /-- Both certificates of every step are issued by the previous CA. -/
  issued : ∃ anchorCa, L.loadPem trusted.caCertPem = some anchorCa ∧
    Guarded (fun _ link => link.ca)
      (fun ca link => IssuedBy link.ca ca ∧ IssuedBy link.policy ca) anchorCa links
  notRevoked : ∀ link ∈ links, link.NotRevoked revoked
  inWindow : ∀ link ∈ links, link.InWindow now
  /-- The depths decrease strictly from the anchor. -/
  depths : Guarded (fun _ link => link.grant.maxDelegationDepth)
    (fun depth link => link.grant.maxDelegationDepth < depth) trusted.maxDelegationDepth links
  length_le : (links.length : Int) ≤ trusted.maxDelegationDepth
  /-- Every grant is contained in every earlier one, in a smaller namespace. -/
  narrower : (links.map Link.grant).Pairwise fun earlier later => Narrower later earlier
  /-- The authority that is returned is the one the last step established. -/
  last_eq : links.getLast?.map Link.authority = some last

theorem readFrom_of_stepOk (h : StepOk revoked now issuer step link) :
    Link.ReadFrom link step now where
  envelope := ⟨_, h.envelope⟩
  caPem := by
    have hread := (Option.filter_eq_some_iff.mp h.caPem).1
    cases hget : step.get? "subject_ca_certificate" with
    | none => simp [hget] at hread
    | some v => cases v <;> simp_all [PyJson.str?]
  policyPem := by
    have hread := (Option.filter_eq_some_iff.mp h.policyPem).1
    cases hget : step.get? "subject_policy_signer_certificate" with
    | none => simp [hget] at hread
    | some v => cases v <;> simp_all [PyJson.str?]
  ca := h.ca
  policy := h.policy

theorem inWindow_of_stepOk (h : StepOk revoked now issuer step link) :
    link.InWindow now where
  grant := (verifyGrantEnvelope_ok h.envelope).window
  signer := (verifyGrantEnvelope_ok h.envelope).certWindow
  ca := h.caWindow
  policy := h.policyWindow

/-- What `_authority_record` copies from a trusted authority. -/
theorem authorityRecord_eq {trusted : TrustAuthority} {root : VerifiedAuthority}
    (h : authorityRecord trusted none = .ok root) :
    trusted.policySignerFingerprint = some root.policySignerFingerprint ∧
      root.policySignerFingerprint ≠ "" ∧ root.identityUri = trusted.identityUri ∧
      root.caCertPem = trusted.caCertPem ∧ root.namespaceScope = trusted.namespaceScope ∧
      root.maxDelegationDepth = trusted.maxDelegationDepth ∧ root.effectiveGrant = none := by
  rw [authorityRecord] at h
  split at h
  next fingerprint pem hfp hpem =>
    split at h
    · cases h
    next hne =>
      cases h
      exact ⟨hfp, fun he => hne (Or.inl he), rfl, rfl, rfl, rfl, rfl⟩
  · cases h

/-- A proof that verifies is a sound chain from the trusted anchor. -/
theorem verifyTrustChain_sound {signed : L.Key → SignedBytes → Prop} (hL : L.Abstract signed)
    {proof : PyJson} {trusted : TrustAuthority} {revoked : List String} {now : Int}
    {last : VerifiedAuthority}
    (h : verifyTrustChain L proof trusted revoked now = .ok last) :
    ∃ links : List (Link L), ChainSound signed proof trusted revoked now last links := by
  obtain ⟨steps, links, root, hproof⟩ := verifyTrustChain_iff.mp h
  have hchain := hproof.chain
  obtain ⟨hfp, hne, hid, hca, _, hdepth, hgrant⟩ := authorityRecord_eq hproof.record
  have hlen := hchain.length
  have hbound := hproof.bounded
  obtain ⟨first, rest, rfl⟩ : ∃ first rest, links = first :: rest := by
    cases links with
    | nil => simp at hlen; omega
    | cons first rest => exact ⟨first, rest, rfl⟩
  have hdepths : Guarded (fun _ link => link.grant.maxDelegationDepth)
      (fun depth link => link.grant.maxDelegationDepth < depth) trusted.maxDelegationDepth
      (first :: rest) := by
    have hd := hchain.depths (by simp [hgrant])
    rwa [hdepth] at hd
  refine ⟨first :: rest, ?_⟩
  exact
    { anchor := hproof.anchor
      usable := hproof.usable
      steps := by
        refine ⟨steps, hproof.listed, hchain.stepOk.imp ?_⟩
        rintro step link ⟨a, ha⟩
        exact readFrom_of_stepOk ha
      nonempty := by simp
      signed := by
        -- the certificate that signed the first grant has the fingerprint of the anchor's signer
        cases hchain with
        | @cons _ _ step _ _ _ hstep hrest =>
          have hsigner := (verifyGrantEnvelope_ok hstep.envelope).signer _ rfl hne
          exact ⟨_, first.signer, hfp, hsigner, (ChainOk.cons hstep hrest).signed hL hne hsigner⟩
      identities := hid ▸ hchain.identities
      issued := by
        cases hchain with
        | cons hstep hrest =>
          obtain ⟨issuerCa, hload, _, _⟩ := hstep.issued
          exact ⟨issuerCa, hca ▸ hload, (ChainOk.cons hstep hrest).issued hload⟩
      notRevoked := by
        intro link hl
        obtain ⟨a, step, hstep⟩ := hchain.forall_link link hl
        exact ⟨hstep.notRevoked.1, hstep.notRevoked.2.1, hstep.notRevoked.2.2⟩
      inWindow := by
        intro link hl
        obtain ⟨a, step, hstep⟩ := hchain.forall_link link hl
        exact inWindow_of_stepOk hstep
      depths := hdepths
      length_le := by
        refine length_le_of_depths hdepths ?_
        have hfirst : first.grant.maxDelegationDepth < trusted.maxDelegationDepth := hdepths.1
        have hnonneg := first.grant.depth_nonneg
        omega
      narrower := hchain.narrower
      last_eq := by
        have hlast := hchain.last_eq
        cases hl : (first :: rest).getLast? with
        | none => simp at hl
        | some l => simp [hlast, hl] }

open Registry in
/-- The proof of a child inside the scope of its root is sound. -/
theorem verifyTrustChain_sound_family :
    ∃ last, verifyTrustChain (family insideGrant).libs (familyProof insideGrant) familyRoot []
        5 = .ok last ∧
      ∃ links, ChainSound (family insideGrant).Signed (familyProof insideGrant) familyRoot [] 5
        last links := by
  obtain ⟨last, hlast⟩ := exists_of_isOk familyProof_verifies
  exact ⟨last, hlast, verifyTrustChain_sound (libs_abstract _) hlast⟩

end Efdi.Trust

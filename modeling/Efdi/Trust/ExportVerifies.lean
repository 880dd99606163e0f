import Efdi.Trust.Export

/-!
# The exported proof of an authority verifies

In a store that grew from a root, the proof that `export_trust_chain` builds for an
authority is read by `verify_trust_chain` as the row of that authority, at every time inside
the windows of the store.  The induction is on the path from the root: what the verification
has established after the steps of a parent is the row of the parent (`Represents`), and
that is what the acceptance of the child was checked against.

The acceptance has no limit on the number of steps and none on the size of a certificate
text, so both limits stay as conditions (`Exportable`), and they are the only ones.
-/

namespace Efdi.Trust

open Checks List

variable {L : Libs}

/-! ## Documents -/

variable (envelope : PyJson)

theorem proofStep_keys (subject : TrustAuthority) :
    (proofStep envelope subject).hasKeys stepKeys = true := rfl

theorem proofStep_envelope (subject : TrustAuthority) :
    (proofStep envelope subject).getD "delegation_envelope" .null = envelope := rfl

theorem proofStep_ca (subject : TrustAuthority) :
    stepCertificate (proofStep envelope subject) "subject_ca_certificate" =
      (some subject.caCertPem).filter fun pem => pem.utf8ByteSize ≤ maxCertificateBytes := rfl

theorem proofStep_policy (subject : TrustAuthority) :
    stepCertificate (proofStep envelope subject) "subject_policy_signer_certificate" =
      subject.policySignerCertPem.filter fun pem => pem.utf8ByteSize ≤ maxCertificateBytes := by
  have hget : (proofStep envelope subject).get? "subject_policy_signer_certificate" =
      some (optStr subject.policySignerCertPem) := rfl
  rw [stepCertificate, hget]
  cases subject.policySignerCertPem <;> rfl

theorem exportAnchor_matches (root : TrustAuthority) :
    AnchorMatches L (exportAnchor L root) root where
  keys := rfl
  identity := rfl
  caFingerprint := rfl
  caCertificate := rfl
  policySigner := rfl
  policyCertificate := rfl
  namespaceScope := rfl
  depth := by
    have hget : (exportAnchor L root).get? "max_delegation_depth" =
        some (.int root.maxDelegationDepth) := rfl
    rw [hget]
    simp [PyJson.eqInt]
  notAfter := rfl

variable {db : Db} {a parent root : TrustAuthority} {now : Int}

theorem exportSteps_append {step : PyJson} (ha : exportStep db a = .ok step) :
    ∀ {path : List TrustAuthority} {steps : List PyJson},
      exportSteps db path = .ok steps → exportSteps db (path ++ [a]) = .ok (steps ++ [step])
  | [], steps, h => by
    cases h
    rw [List.nil_append, exportSteps, ha]
    rfl
  | b :: path, steps, h => by
    simp only [exportSteps, bind_eq_ok, pure_eq_ok] at h
    obtain ⟨first, hfirst, rest, hrest, rfl⟩ := h
    rw [cons_append, exportSteps, hfirst, exportSteps_append ha hrest]
    rfl

/-- The step of each subject is in the proof. -/
theorem mem_exportSteps : ∀ {path : List TrustAuthority} {steps : List PyJson},
    exportSteps db path = .ok steps →
      ∀ a ∈ path, ∃ envelope, proofStep envelope a ∈ steps
  | [], _, _, a, ha => absurd ha List.not_mem_nil
  | b :: path, steps, h, a, ha => by
    simp only [exportSteps, bind_eq_ok, pure_eq_ok] at h
    obtain ⟨first, hfirst, rest, hrest, rfl⟩ := h
    rcases mem_cons.mp ha with rfl | ha
    · rw [exportStep] at hfirst
      split at hfirst
      · cases hfirst
      · cases hfirst
        exact ⟨_, .head _⟩
    · obtain ⟨envelope, henvelope⟩ := mem_exportSteps hrest a ha
      exact ⟨envelope, .tail _ henvelope⟩

/-! ## What the verification establishes -/

/-- A certificate is valid at a time. -/
def Libs.ValidAt (L : Libs) (certificate : L.Cert) (now : Int) : Prop :=
  L.notValidBefore certificate ≤ now ∧ now < L.notValidAfter certificate

/-- A time inside every window of the store. -/
structure InsideWindows (L : Libs) (db : Db) (now : Int) : Prop where
  authorities : ∀ a ∈ db.authorities, now < a.notAfter
  grants : ∀ d ∈ db.delegations, d.notBefore ≤ now ∧ now < d.notAfter
  signers : ∀ d ∈ db.delegations, ∀ c, envelopeSigner L d.envelopeJson = some c →
    L.ValidAt c now
  cas : ∀ a ∈ db.authorities, ∀ c, L.loadPem a.caCertPem = some c → L.ValidAt c now
  policySigners : ∀ a ∈ db.authorities, ∀ pem c, a.policySignerCertPem = some pem →
    L.loadPem pem = some c → L.ValidAt c now

/-- What a verification returns is what the row of an authority says. -/
structure Gives (a : TrustAuthority) (v : VerifiedAuthority) : Prop where
  identity : v.identityUri = a.identityUri
  scope : v.namespaceScope = a.namespaceScope
  caFingerprint : v.caFingerprint = a.caFingerprint
  policySigner : a.policySignerFingerprint = some v.policySignerFingerprint
  depth : v.maxDelegationDepth = a.maxDelegationDepth

/-- The authority that the loop carries after the steps of a row. -/
structure Represents (L : Libs) (db : Db) (a : TrustAuthority) (v : VerifiedAuthority) : Prop
    extends Gives a v where
  caCertPem : v.caCertPem = a.caCertPem
  grant : ∀ grant, v.effectiveGrant = some grant → ∃ d ∈ db.delegations,
    d.subjectAuthorityId = a.id ∧ envelopeGrant L d.envelopeJson = some grant
  ungranted : v.effectiveGrant = none → a.parentId = none

/-- The certificate texts of a row are not longer than a verification allows. -/
structure CertificatesFit (a : TrustAuthority) : Prop where
  ca : a.caCertPem.utf8ByteSize ≤ maxCertificateBytes
  policySigner : ∀ pem, a.policySignerCertPem = some pem →
    pem.utf8ByteSize ≤ maxCertificateBytes

/-- The step of an accepted authority passes, after its parent. -/
theorem Persisted.stepOk {d : Delegation} {link : Link L} (hp : Persisted db a parent d link)
    (ha : a ∈ db.authorities) (hw : InsideWindows L db now) (hfits : CertificatesFit a)
    {v : VerifiedAuthority} (hv : Represents L db parent v) :
    StepOk [] now v (proofStep d.envelopeJson a) link := by
  obtain ⟨fingerprint, t, hfingerprint, hsigned⟩ := hp.envelope
  obtain ⟨issuerCa, hissuerCa, hca, hpolicy⟩ := hp.issued
  have hwindow : link.grant.notBefore ≤ now ∧ now < link.grant.notAfter := by
    rw [← hp.window.1, ← hp.window.2]
    exact hw.grants d hp.delegation.1
  have hsigner : L.ValidAt link.signer now :=
    hw.signers d hp.delegation.1 _ (envelopeSigner_of_verify hsigned)
  have hexpected : v.policySignerFingerprint = fingerprint :=
    Option.some.inj (hv.policySigner.symm.trans hfingerprint)
  exact
    { keys := proofStep_keys _ _
      caPem := by
        rw [proofStep_ca, Option.filter_some, if_pos (by simpa using hfits.ca), hp.ca.1]
      policyPem := by
        rw [proofStep_policy, hp.policy.1, Option.filter_some,
          if_pos (by simpa using hfits.policySigner _ hp.policy.1)]
      envelope := by
        rw [proofStep_envelope, hexpected]
        exact verifyGrantEnvelope_at hsigned hwindow hsigner
      linked := hp.linked.trans hv.identity.symm
      narrowing := by
        intro grant hgrant
        obtain ⟨d', hd', hsubject, henvelope⟩ := hv.grant grant hgrant
        obtain ⟨grant', hgrant', hsub⟩ := hp.narrowing d' hd' hsubject
        rw [henvelope] at hgrant'
        exact Option.some.inj hgrant' ▸ hsub
      depth := by
        intro hnone
        rw [hv.depth]
        exact hp.depth (hv.ungranted hnone)
      ca := hp.ca.2
      policy := hp.policy.2
      issued := ⟨issuerCa, by rw [hv.caCertPem, hissuerCa], hca, hpolicy⟩
      caProfile := hp.caProfile
      policyProfile := hp.policyProfile
      caMatches := hp.caMatches
      notRevoked := by simp
      caWindow := hw.cas a ha _ (hp.ca.1 ▸ hp.ca.2)
      policyWindow := hw.policySigners a ha _ _ hp.policy.1 hp.policy.2 }

/-- The step of an accepted authority establishes its row. -/
theorem Persisted.represents {d : Delegation} {link : Link L} (hp : Persisted db a parent d link) :
    Represents L db a link.authority where
  identity := hp.identity.symm
  scope := hp.scope.symm
  caFingerprint := hp.caFingerprint.symm
  policySigner := hp.policyFingerprint
  depth := hp.maxDepth.symm
  caCertPem := hp.ca.1.symm
  grant := by
    rintro _ ⟨⟩
    obtain ⟨_, _, _, hsigned⟩ := hp.envelope
    exact ⟨d, hp.delegation.1, hp.delegation.2.1, envelopeGrant_of_verify hsigned⟩
  ungranted := nofun

/-- The row above an authority is the one it was accepted under. -/
theorem GrownFrom.persisted_child (h : GrownFrom L root db) (hroot : root.parentId = none)
    (ha : a ∈ db.authorities) (hparent : parent ∈ db.authorities)
    (hchild : a.parentId = some parent.id) :
    ∃ d, ∃ link : Link L, Persisted db a parent d link := by
  rcases h.persisted a ha with rfl | ⟨parent', d, link, hp⟩
  · rw [hroot] at hchild
    cases hchild
  · have hid : parent'.id = parent.id := Option.some.inj (hp.parentId.symm.trans hchild)
    rw [inj_on_of_nodup_map h.distinct hp.parent_mem hparent hid] at hp
    exact ⟨d, link, hp⟩

/-- The steps of a path lead from the record of the root to the row at its end. -/
theorem GrownFrom.chainOk (h : GrownFrom L root db) (hroot : root.parentId = none)
    (hw : InsideWindows L db now) {record : VerifiedAuthority}
    (hrecord : Represents L db root record) {path : List TrustAuthority}
    (hpath : Ancestry db.authorities root a path) (hfits : ∀ b ∈ path, CertificatesFit b) :
    ∃ steps links last, exportSteps db path = .ok steps ∧ steps.length = path.length ∧
      ChainOk (L := L) [] now record steps links last ∧ Represents L db a last := by
  induction hpath with
  | root => exact ⟨[], [], record, rfl, rfl, .nil, hrecord⟩
  | @child a parent path hparent ha hchild _ ih =>
    obtain ⟨steps, links, v, hsteps, hlength, hchain, hv⟩ :=
      ih fun b hb => hfits b (mem_append_left _ hb)
    obtain ⟨d, link, hp⟩ := h.persisted_child hroot ha hparent hchild
    have hstep : exportStep db a = .ok (proofStep d.envelopeJson a) := by
      rw [exportStep, hp.activeDelegation_eq]
    have hok := hp.stepOk ha hw
      (hfits a (mem_append_right _ (mem_singleton.mpr rfl))) hv
    exact ⟨_, _, _, exportSteps_append hstep hsteps, by simp [hlength], hchain.snoc hok,
      hp.represents⟩

/-! ## The round trip -/

/-- The proof of an authority is exported, and it verifies to what its row says. -/
def RoundTrips (L : Libs) (db : Db) (root a : TrustAuthority) (now : Int) : Prop :=
  ∃ proof v, exportTrustChain L db a = .ok proof ∧
    verifyTrustChain L proof root [] now = .ok v ∧ Gives a v

/-- The path to an authority is within the limits of a verification. -/
def Exportable (db : Db) (root a : TrustAuthority) : Prop :=
  ∃ path, Ancestry db.authorities root a path ∧ path.length < maxTrustChainDepth ∧
    ∀ b ∈ path, CertificatesFit b

/-- Every authority of a grown store has a path from the root. -/
theorem GrownFrom.exists_ancestry (h : GrownFrom L root db) :
    ∀ (n : Nat) (a : TrustAuthority), a.id < n → a ∈ db.authorities →
      ∃ path, Ancestry db.authorities root a path
  | 0, a, hn, _ => absurd hn (Nat.not_lt_zero _)
  | n + 1, a, hn, ha => by
    rcases h.persisted a ha with rfl | ⟨parent, d, link, hp⟩
    · exact ⟨[], .root⟩
    · have horder := hp.order
      obtain ⟨path, hpath⟩ := h.exists_ancestry n parent (by omega) hp.parent_mem
      exact ⟨_, .child hp.parent_mem ha hp.parentId hpath⟩

/-- The path to an authority below the root ends in it. -/
theorem Ancestry.mem {authorities : List TrustAuthority} {path : List TrustAuthority}
    (h : Ancestry authorities root a path) (hne : a ≠ root) :
    a ∈ path := by
  cases h with
  | root => exact absurd rfl hne
  | child _ _ _ _ => exact mem_append_right _ (mem_singleton.mpr rfl)

/-- The record of a root with a policy signer. -/
def rootRecord (root : TrustAuthority) (fingerprint pem : String) : VerifiedAuthority where
  identityUri := root.identityUri
  namespaceScope := root.namespaceScope
  caFingerprint := root.caFingerprint
  caCertPem := root.caCertPem
  policySignerFingerprint := fingerprint
  policySignerCertPem := pem
  maxDelegationDepth := root.maxDelegationDepth
  notAfter := root.notAfter
  effectiveGrant := none

theorem RootOnly.record {start : Db} (h : RootOnly root start) (db : Db) :
    ∃ record, authorityRecord root none = .ok record ∧
      Represents L db root record := by
  obtain ⟨fingerprint, pem, hfingerprint, hpem, hne, hne'⟩ := h.policySigner
  have hrecord : authorityRecord root none = .ok (rootRecord root fingerprint pem) := by
    simp only [authorityRecord, hfingerprint, hpem]
    exact if_neg (not_or.mpr ⟨hne, hne'⟩)
  refine ⟨rootRecord root fingerprint pem, hrecord, ?_⟩
  exact
    { identity := rfl
      scope := rfl
      caFingerprint := rfl
      policySigner := hfingerprint
      depth := rfl
      caCertPem := rfl
      grant := by
        intro grant hgrant
        exact absurd hgrant (Option.some_ne_none grant).symm
      ungranted := fun _ => h.parentId }

/-- In a store that grew from a root, a proof of an authority below it round trips exactly
when its path is within the limits. -/
theorem GrownFrom.roundTrips_iff {start : Db} (h : GrownFrom L root db)
    (hroot : RootOnly root start) (ha : a ∈ db.authorities) (hne : a ≠ root)
    (hw : InsideWindows L db now) :
    RoundTrips L db root a now ↔ Exportable db root a := by
  constructor
  · rintro ⟨proof, v, hexport, hverify, -⟩
    obtain ⟨path, hpath⟩ := h.exists_ancestry (a.id + 1) a (Nat.lt_succ_self _) ha
    obtain ⟨hfits, hfull⟩ := lineage_of_ancestry h.distinct hroot.parentId hpath
      (maxTrustChainDepth - 1)
    simp only [exportTrustChain, bind_eq_ok, pure_eq_ok] at hexport
    obtain ⟨⟨anchor, below⟩, hlineage, steps, hsteps, rfl⟩ := hexport
    have hroom : path.length ≤ maxTrustChainDepth - 1 := by
      by_contra hlong
      obtain ⟨e, he⟩ := hfull (by omega)
      rw [hlineage] at he
      cases he
    rw [hfits hroom] at hlineage
    cases hlineage
    refine ⟨path, hpath, Nat.lt_of_le_of_lt hroom (by decide), ?_⟩
    obtain ⟨steps', links, record, hproof⟩ := verifyTrustChain_iff.mp hverify
    have hlisted : steps' = steps := (Option.some.inj hproof.listed).symm
    intro b hb
    obtain ⟨envelope, hstep⟩ := mem_exportSteps hsteps b hb
    obtain ⟨previous, link, hok⟩ := hproof.chain.forall_step _ (hlisted ▸ hstep)
    have hca := hok.caPem
    have hpolicy := hok.policyPem
    rw [proofStep_ca, Option.filter_eq_some_iff] at hca
    rw [proofStep_policy, Option.filter_eq_some_iff] at hpolicy
    refine ⟨?_, ?_⟩
    · rw [Option.some.inj hca.1]
      simpa using hca.2
    · intro pem hpem
      rw [Option.some.inj (hpem.symm.trans hpolicy.1)]
      simpa using hpolicy.2
  · rintro ⟨path, hpath, hlength, hfits⟩
    obtain ⟨record, hrecord, hrepresents⟩ := hroot.record (L := L) db
    obtain ⟨steps, links, v, hsteps, hlen, hchain, hv⟩ :=
      h.chainOk hroot.parentId hw hrepresents hpath hfits
    have hlineage : lineage db (maxTrustChainDepth - 1) a = .ok (root, path) :=
      (lineage_of_ancestry h.distinct hroot.parentId hpath _).1 (by omega)
    have hpos : 1 ≤ steps.length := by
      rw [hlen]
      exact length_pos_of_mem (hpath.mem hne)
    refine ⟨proofDocument L root steps, v, ?_, ?_, hv.toGives⟩
    · rw [exportTrustChain, hlineage]
      dsimp only [bind, Except.bind]
      rw [hsteps]
      rfl
    · exact verifyTrustChain_iff.mpr ⟨steps, links, record,
        { keys := rfl
          schema := rfl
          anchor := exportAnchor_matches root
          listed := rfl
          bounded := ⟨hpos, hlen ▸ hlength⟩
          usable :=
            { active := hroot.active
              identity := by simp
              caFingerprint := by simp
              notAfter := hw.authorities root h.root_mem }
          record := hrecord
          chain := hchain }⟩

/-! ## A certificate text with more than the certificate -/

namespace Registry

/-- A registry whose parser of PEM text ignores what follows the certificate. -/
def paddedLibs (R : Registry) : Libs :=
  { R.libs with loadPem := fun pem => R.libs.loadPem (PyStr.take 64 pem) }

theorem loadPem_padded (R : Registry) (pem : String) :
    R.paddedLibs.loadPem pem = R.libs.loadPem (PyStr.take 64 pem) := rfl

theorem take_digest (n : Nat) (padding : String) :
    PyStr.take 64 (digest n ++ padding) = digest n := by
  rw [PyStr.take, String.toList_append, take_left' (by rw [digest, String.toList_ofList]; rfl),
    String.ofList_toList]

variable (padding : String)

/-- The child as it is accepted with a padded certificate text. -/
def paddedChild : TrustAuthority :=
  { familyChild with caCertPem := digest 2 ++ padding }

/-- The delegation of the child. -/
def familyDelegation : Delegation where
  id := 2
  grantId := "00000000-0000-4000-8000-000000000001"
  issuerAuthorityId := 0
  subjectAuthorityId := 1
  sequence := 1
  envelopeJson := familyEnvelope insideGrant
  grantSha256 := digest 0
  state := .active
  notBefore := 0
  notAfter := 40

/-- The store of the root after it accepted the child. -/
def paddedStore : Db :=
  { familyStore with
    authorities := [familyRoot, paddedChild padding]
    delegations := [familyDelegation]
    nextId := 3 }

/-- The call that accepts the child. -/
def paddedCall : Acceptance where
  envelope := familyEnvelope insideGrant
  subjectCaPem := digest 2 ++ padding
  subjectPolicySignerPem := digest 3
  now := 5
  supplied := by decide +kernel

/-- The libraries of the family. -/
abbrev familyLibs : Libs := (family insideGrant).paddedLibs

theorem acceptStep_padded :
    acceptStep familyLibs familyStore (paddedCall padding) = paddedStore padding := by
  have hgrant : acceptedGrant familyLibs (familyEnvelope insideGrant) 5 =
      .ok (insideGrant, digest 1) := by
    decide +kernel
  have hissuer : acceptedIssuer familyStore insideGrant (digest 1) = .ok familyRoot := by
    decide +kernel
  have hnarrow : acceptedNarrowing familyLibs familyStore familyRoot insideGrant 5 = .ok () := by
    decide +kernel
  have hload : familyLibs.loadPem (digest 2 ++ padding) = familyLibs.loadPem (digest 2) := by
    have hshort := take_digest 2 ""
    rw [String.append_empty] at hshort
    rw [loadPem_padded, loadPem_padded, take_digest, hshort]
  have hca : acceptedCa familyLibs familyRoot insideGrant (digest 2 ++ padding) 5 =
      acceptedCa familyLibs familyRoot insideGrant (digest 2) 5 := by
    rw [acceptedCa, hload, acceptedCa]
  have hok : acceptedCa familyLibs familyRoot insideGrant (digest 2) 5 =
      .ok ((2 : Fin 4), (0 : Fin 4)) := by
    rfl
  have hpolicy : acceptedPolicy familyLibs (0 : Fin 4) insideGrant (some (digest 3)) 5 =
      .ok (some (digest 3)) := by
    decide +kernel
  have hunique : authorityUnique familyStore (paddedChild padding) = true := by rfl
  have hresult : acceptDelegation familyLibs familyStore (familyEnvelope insideGrant)
      (digest 2 ++ padding) (some (digest 3)) 5 =
        .ok (paddedStore padding, paddedChild padding, familyDelegation) := by
    simp only [acceptDelegation, bind_eq_ok, rejectIf_eq_ok, pure_eq_ok]
    exact ⟨(insideGrant, digest 1), hgrant, familyRoot, hissuer, (), hnarrow, (),
      by decide +kernel, ((2 : Fin 4), (0 : Fin 4)), hca.trans hok, some (digest 3), hpolicy, (),
      by decide +kernel, (), congrArg not hunique, (), rfl, rfl⟩
  exact acceptStep_of_ok hresult

/-- A number of blanks. -/
def blanks : Nat → String
  | 0 => ""
  | n + 1 => blanks n ++ " "

theorem blanks_size (n : Nat) : (blanks n).utf8ByteSize = n := by
  induction n with
  | zero => rfl
  | succ n ih =>
    rw [blanks, String.utf8ByteSize_append, ih]
    rfl

/-- Every certificate of the family is valid at the time of the call. -/
theorem family_validAt (c : familyLibs.Cert) : familyLibs.ValidAt c 5 := by
  have hall : ∀ i : Fin familyCerts.length,
      (familyCerts.get i).notBefore ≤ 5 ∧ 5 < (familyCerts.get i).notAfter := by
    decide
  exact hall c

theorem paddedStore_insideWindows :
    InsideWindows familyLibs (paddedStore padding) 5 where
  authorities := by
    intro a ha
    rcases mem_pair.mp ha with rfl | rfl
    · exact (by decide : (5 : Int) < 50)
    · exact (by decide : (5 : Int) < 40)
  grants := by
    intro d hd
    rw [mem_singleton.mp hd]
    exact ⟨by decide, by decide⟩
  signers _ _ c _ := family_validAt c
  cas _ _ c _ := family_validAt c
  policySigners _ _ _ c _ _ := family_validAt c

theorem familyStore_rootOnly : RootOnly familyRoot familyStore where
  authorities := rfl
  delegations := rfl
  fresh := by decide
  parentId := rfl
  active := rfl
  policySigner := ⟨digest 1, digest 1, rfl, rfl, by decide +kernel, by decide +kernel⟩

theorem paddedChild_ne : paddedChild padding ≠ familyRoot := by
  intro h
  exact Nat.one_ne_zero (congrArg TrustAuthority.id h)

end Registry

/-- After any calls from a root, at any time inside the windows of the store, the proof of an
authority round trips exactly when its path is within the limits of a verification. -/
theorem export_verifies_iff (L : Libs) {root : TrustAuthority} {start : Db}
    (hroot : RootOnly root start) (calls : List Acceptance) {a : TrustAuthority}
    (ha : a ∈ (Runs.final (acceptStep L) start calls).authorities) (hne : a ≠ root) {now : Int}
    (hw : InsideWindows L (Runs.final (acceptStep L) start calls) now) :
    RoundTrips L (Runs.final (acceptStep L) start calls) root a now ↔
      Exportable (Runs.final (acceptStep L) start calls) root a :=
  (hroot.grownFrom_final calls).roundTrips_iff hroot ha hne hw

open Registry in
/-- The proof of the child of a root round trips. -/
theorem export_verifies_family :
    RoundTrips familyLibs
      (Runs.final (acceptStep familyLibs) familyStore [paddedCall ""]) familyRoot
      (paddedChild "") 5 := by
  have hfinal : Runs.final (acceptStep familyLibs) familyStore [paddedCall ""] =
      paddedStore "" := by
    rw [Runs.final_cons, acceptStep_padded, Runs.final_nil]
  have hmem : paddedChild "" ∈ (paddedStore "").authorities :=
    .tail _ List.mem_cons_self
  refine (export_verifies_iff familyLibs familyStore_rootOnly [paddedCall ""] (hfinal ▸ hmem)
    (paddedChild_ne "") (hfinal ▸ paddedStore_insideWindows "")).mpr ?_
  rw [hfinal]
  refine ⟨[paddedChild ""], .child List.mem_cons_self hmem rfl .root, by decide, ?_⟩
  intro b hb
  rw [List.mem_singleton.mp hb]
  refine ⟨by decide +kernel, ?_⟩
  rintro _ ⟨⟩
  decide +kernel

open Registry in
/-- A child whose certificate text goes on after the certificate is accepted, and its proof
does not round trip. -/
theorem export_long_certificate :
    RootOnly familyRoot familyStore ∧
    ∃ call a, a ∈ (acceptStep familyLibs familyStore call).authorities ∧ a ≠ familyRoot ∧
      a.state = .active ∧ InsideWindows familyLibs (acceptStep familyLibs familyStore call) 5 ∧
      (acceptStep familyLibs familyStore call).revocations = [] ∧
      ¬RoundTrips familyLibs (acceptStep familyLibs familyStore call) familyRoot a 5 := by
  refine ⟨familyStore_rootOnly, paddedCall (blanks maxCertificateBytes),
    paddedChild (blanks maxCertificateBytes), ?_⟩
  have hgrown := familyStore_rootOnly.grownFrom_final (L := familyLibs)
    [paddedCall (blanks maxCertificateBytes)]
  rw [Runs.final_cons, acceptStep_padded, Runs.final_nil] at hgrown
  rw [acceptStep_padded]
  have hmem : paddedChild (blanks maxCertificateBytes) ∈
      (paddedStore (blanks maxCertificateBytes)).authorities :=
    .tail _ List.mem_cons_self
  refine ⟨hmem, paddedChild_ne _, rfl, paddedStore_insideWindows _, rfl, fun h => ?_⟩
  obtain ⟨path, hpath, -, hfits⟩ := (hgrown.roundTrips_iff familyStore_rootOnly hmem
    (paddedChild_ne _) (paddedStore_insideWindows _)).mp h
  have hsize := (hfits _ (hpath.mem (paddedChild_ne _))).ca
  have hpem : (digest 2).utf8ByteSize = 64 := by decide +kernel
  have hlong : (digest 2 ++ blanks maxCertificateBytes).utf8ByteSize ≤ maxCertificateBytes :=
    hsize
  rw [String.utf8ByteSize_append, hpem, blanks_size] at hlong
  omega

end Efdi.Trust

import Efdi.Pki.Decommission
import Efdi.Trust.ExportVerifies

/-!
# An invitation is used once

A request of `enroll_router` finds its invitation unused, or used with the digests of three CSRs.
Until one succeeds the rows stay as they are, and after it every request leaves all as it is: with
the same CSRs it gets the bundle again, with others it is refused.

Three things are not undone.  The audit is committed after the rows, the bundle is made after the
rows, and the password is taken out of the file before the rows are rolled back.  In runs in which
none of them fails, a failed request leaves nothing (`invitation_single_use`).
-/

namespace Efdi.Pki

open Checks List PyDict Prod
open Federation (Env)
open Runs (final Always Guarded)
open Trust

section Requests

/-- A request with the token of an invitation, and the host it meets. -/
structure Attempt (S : Setting) (token : String) where
  host : Host S.libs
  draws : Draws
  request : EnrollmentIn
  token_eq : request.token = token

variable {S : Setting} {token : String}

/-- The state after a request and its answer. -/
def Attempt.result (a : Attempt S token) (s : State) : State × Except Failure Bundle :=
  enrollRouter S a.host a.draws a.request s

/-- The state after a request. -/
def next (s : State) (a : Attempt S token) : State := (a.result s).1

/-- The digests of the CSRs of a request, which tell its keys from those of another. -/
def Attempt.digests (a : Attempt S token) : String × String × String :=
  (S.sha256 a.request.routerCaCsr, S.sha256 a.request.transportCsr,
    S.sha256 a.request.policySignerCsr)

/-! ## What is left -/

/-- The rows are the same. -/
def SameRows (s s' : State) : Prop := s'.db = rollback s.db s'.db ∧ s'.issued = s.issued

/-- Every password in the file is of an authority that is stored. -/
def NoOrphan (s : State) : Prop :=
  ∀ id secret, s.secrets.get? id = some secret → ∃ a ∈ s.db.authorities, a.id = id

/-- At most one row was added. -/
def AtMostOne {α : Type} (rows rows' : List α) : Prop := rows' = rows ∨ ∃ row, rows' = rows ++ [row]

/-- At most one authority, delegation, child and credential were added. -/
def OneChild (db db' : Db) : Prop :=
  AtMostOne db.authorities db'.authorities ∧ AtMostOne db.delegations db'.delegations ∧
    AtMostOne db.children db'.children ∧ AtMostOne db.credentials db'.credentials

/-- The same bundle, up to the certificates of the parent, which are read from files. -/
def Bundle.Same (b b' : Bundle) : Prop :=
  b' = { b with
    parentTransportCertificate := b'.parentTransportCertificate
    parentPolicySignerCertificate := b'.parentPolicySignerCertificate }

/-- An invitation that was created and not used, with its token.  Creating it stored the local
authority. -/
structure Invited (S : Setting) (token : String) (s : State) (invitation : PkiInvitation)
    (issuer : TrustAuthority) : Prop where
  numbered : Numbered s.db
  stored : ∃ identity, identityOf S.env S.env.ownNamespace = .ok identity ∧
    authorityByIdentity s.db identity = some issuer
  found : invitationOf S s.db token = some invitation
  distinct : (s.db.invitations.map (·.id)).Nodup
  unused : invitation.usedAt = none
  noOrphan : NoOrphan s

/-! ## The condition -/

/-- The chain of an authority can be exported, with room for a child. -/
def exportable (db : Db) (issuer : TrustAuthority) : Bool :=
  (lineage db (maxTrustChainDepth - 2) issuer >>= fun chain => exportSteps db chain.2).isOk

/-- The writes of a request end in order, given that it makes them: when the rows are committed, the
audit is committed too and the bundle can be made, and when they are not, the password is taken
out. -/
def endsInOrder (host : Host S.libs) (issuer : TrustAuthority) (db : Db) (p : Prepared) : Bool :=
  !host.writes.put ||
    if host.writes.commit && p.unique then host.writes.audit && exportable db issuer
    else host.writes.remove

/-- The writes of a request end in order, if it makes any. -/
def inOrder (s : State) (a : Attempt S token) : Bool :=
  match ensureLocalAuthority S.libs S.env a.host s.db with
  | .error _ => true
  | .ok (db, issuer) =>
    match invitationOf S db a.request.token with
    | none => true
    | some invitation =>
      invitation.usedAt.isSome ||
        match prepare S a.host a.draws a.request issuer invitation db with
        | .error _ => true
        | .ok p => endsInOrder a.host issuer db p

/-! ## The bundle of a new child -/

theorem exportStep_of_active {db db' : Db} {subject : TrustAuthority}
    (h : activeDelegation db' subject.id = activeDelegation db subject.id) :
    exportStep db' subject = exportStep db subject := by
  rw [exportStep, exportStep, h]

theorem exportSteps_congr {db db' : Db} {subjects : List TrustAuthority}
    (h : ∀ a ∈ subjects, activeDelegation db' a.id = activeDelegation db a.id) :
    exportSteps db' subjects = exportSteps db subjects := by
  induction subjects with
  | nil => rfl
  | cons a subjects ih =>
    rw [exportSteps, exportSteps, exportStep_of_active (h a mem_cons_self),
      ih fun b hb => h b (mem_cons_of_mem _ hb)]

/-- A lineage that is found is found among more authorities, and it lies in those that are there. -/
theorem lineage_mono {db db' : Db}
    (hfind : ∀ id a, authorityById db id = some a → authorityById db' id = some a) (room : Nat)
    (a : TrustAuthority) {anchor : TrustAuthority} {below : List TrustAuthority}
    (h : lineage db room a = .ok (anchor, below)) :
    lineage db' room a = .ok (anchor, below) ∧ ∀ b ∈ below, b = a ∨ b ∈ db.authorities := by
  induction room generalizing a below with
  | zero =>
    rw [lineage] at h ⊢
    cases hparent : a.parentId with
    | none =>
      rw [hparent] at h
      cases h
      exact ⟨rfl, fun b hb => by cases hb⟩
    | some parentId =>
      rw [hparent] at h
      cases h
  | succ room ih =>
    rw [lineage] at h ⊢
    cases hparent : a.parentId with
    | none =>
      rw [hparent] at h
      cases h
      exact ⟨rfl, fun b hb => by cases hb⟩
    | some parentId =>
      rw [hparent] at h
      dsimp only at h ⊢
      cases hfound : authorityById db parentId with
      | none =>
        rw [hfound] at h
        cases h
      | some parent =>
        rw [hfound] at h
        simp only [bind_eq_ok, pure_eq_ok] at h
        obtain ⟨⟨anchor', below'⟩, hlineage, heq⟩ := h
        cases heq
        obtain ⟨hmore, hbelow⟩ := ih parent hlineage
        rw [hfind _ _ hfound]
        dsimp only
        rw [hmore]
        refine ⟨rfl, fun b hb => ?_⟩
        rcases mem_append.mp hb with hb | hb
        · rcases hbelow b hb with rfl | hmem
          · exact .inr (mem_of_find?_eq_some hfound)
          · exact .inr hmem
        · exact .inl (mem_singleton.mp hb)

section Prepared

variable {host : Host S.libs} {draws : Draws} {request : EnrollmentIn} {issuer : TrustAuthority}
  {invitation : PkiInvitation} {db db' : Db} {p : Prepared} {delegation : Delegation}
  {grant : DelegationGrant} {parent : TrustAuthority} {credential : LinkCredential}
  {identities : List IssuedIdentity} {child : FederatedChild}

/-- The tables with an accepted delegation and the rows of its child. -/
theorem PrepareOk.tables
    (h : PrepareOk S host draws request issuer invitation db p db' delegation grant parent credential
      identities child) :
    p.db.authorities = db.authorities ++ [p.authority] ∧
      p.db.delegations = db.delegations ++ [delegation] ∧
      p.db.children = db.children ++ [child] ∧
      p.db.credentials = db.credentials ++ [credential] ∧
      p.db.invitations =
        db.invitations.map fun i => if i.id = p.invitation.id then p.invitation else i := by
  rw [h.db_eq, h.accepted.db_eq]
  exact ⟨rfl, rfl, rfl, rfl, rfl⟩

/-- An authority that is found is found beside the new one. -/
theorem PrepareOk.authorityById
    (h : PrepareOk S host draws request issuer invitation db p db' delegation grant parent credential
      identities child) {id : Nat} {a : TrustAuthority} (ha : authorityById db id = some a) :
    Trust.authorityById p.db id = some a := by
  rw [Trust.authorityById, h.tables.1, find?_append]
  rw [Trust.authorityById] at ha
  rw [ha]
  rfl

/-- The authorities that were there keep their delegations. -/
theorem PrepareOk.activeDelegation
    (h : PrepareOk S host draws request issuer invitation db p db' delegation grant parent credential
      identities child) {id : Nat} (hid : id < db.nextId) :
    activeDelegation p.db id = activeDelegation db id := by
  have hother : delegation.subjectAuthorityId ≠ id := by
    rw [h.accepted.delegation_subject, h.accepted.authority_id]
    exact Nat.ne_of_gt hid
  rw [Trust.activeDelegation, Trust.activeDelegation, h.tables.2.1, filter_append,
    filter_cons_of_neg (by simp [hother]), filter_nil, append_nil]

/-- The new authority has its delegation. -/
theorem PrepareOk.exportStep
    (h : PrepareOk S host draws request issuer invitation db p db' delegation grant parent credential
      identities child) : ∃ step, exportStep p.db p.authority = .ok step := by
  have hmem : delegation ∈ p.db.delegations.filter fun d =>
      d.subjectAuthorityId == p.authority.id && d.state == .active := by
    rw [h.tables.2.1, mem_filter, h.accepted.delegation_subject, h.accepted.delegation_state]
    exact ⟨mem_append_right _ (mem_singleton.mpr rfl), by simp⟩
  obtain ⟨last, hlast⟩ := @latestBy_isSome _ Delegation.sequence _ _ hmem
  rw [Trust.exportStep, Trust.activeDelegation, hlast]
  exact ⟨_, rfl⟩

/-- The parent of a new child is the local authority. -/
theorem PrepareOk.parent_eq
    (h : PrepareOk S host draws request issuer invitation db p db' delegation grant parent credential
      identities child) {identity : String}
    (hstored : authorityByIdentity db identity = some issuer) : parent = issuer := by
  have hidentity : issuer.identityUri = identity := by simpa using find?_some hstored
  have hparent := h.accepted.issuer_eq
  rw [h.issuer_eq, hidentity, hstored] at hparent
  exact (Option.some.inj hparent).symm

/-- The chain of a new child can be exported when that of the local authority can. -/
theorem PrepareOk.exportTrustChain
    (h : PrepareOk S host draws request issuer invitation db p db' delegation grant parent credential
      identities child) (hn : Numbered db) (hparent : p.authority.parentId = some issuer.id)
    (hissuer : Trust.authorityById db issuer.id = some issuer)
    (hexportable : exportable db issuer = true) :
    ∃ chain, exportTrustChain S.libs p.db p.authority = .ok chain := by
  obtain ⟨⟨anchor, below⟩, hlineage, hsteps⟩ := isOk_bind.mp hexportable
  obtain ⟨steps, hsteps⟩ := exists_of_isOk hsteps
  obtain ⟨hlineage', hbelow⟩ := lineage_mono (fun _ _ => h.authorityById) _ issuer hlineage
  have hkept : exportSteps p.db below = .ok steps := by
    rw [exportSteps_congr fun a ha => h.activeDelegation ?_]
    · exact hsteps
    · rcases hbelow a ha with rfl | hmem
      · exact hn.ids _ (mem_of_find?_eq_some hissuer)
      · exact hn.ids a hmem
  obtain ⟨last, hlast⟩ := h.exportStep
  have hall : lineage p.db (maxTrustChainDepth - 1) p.authority =
      .ok (anchor, below ++ [p.authority]) := by
    show lineage p.db ((maxTrustChainDepth - 2) + 1) p.authority = _
    rw [lineage, hparent]
    simp only [h.authorityById hissuer, hlineage', ok_bind]
    rfl
  rw [Trust.exportTrustChain, hall, ok_bind]
  dsimp only
  rw [exportSteps_append hlast hkept]
  exact ⟨_, rfl⟩

end Prepared

variable {s s' start : State} {b : Bundle} {digests : String × String × String}

/-- The hosts of a router make the same bundle, up to the certificates of the parent. -/
theorem bundle_same {host : Host S.libs} {invitation : PkiInvitation}
    (h : bundle S host invitation s = .ok b) (host' : Host S.libs) :
    ∃ b', bundle S host' invitation s = .ok b' ∧ b.Same b' := by
  unfold bundle at h ⊢
  cases howner : invitation.authorityId with
  | none =>
    rw [howner] at h
    cases h
  | some authorityId =>
    simp only [howner] at h ⊢
    cases hsecret : s.secrets.get? authorityId with
    | none =>
      rw [hsecret] at h
      cases h
    | some secret =>
      simp only [hsecret] at h ⊢
      cases hchild : authorityById s.db authorityId with
      | none =>
        rw [hchild] at h
        cases h
      | some child =>
        simp only [hchild] at h ⊢
        cases hparent : child.parentId.bind (authorityById s.db) with
        | none =>
          rw [hparent] at h
          cases h
        | some parent =>
          simp only [hparent] at h ⊢
          cases hchain : exportTrustChain S.libs s.db child with
          | error e =>
            rw [hchain] at h
            cases h
          | ok chain =>
            simp only [hchain] at h ⊢
            cases h
            exact ⟨_, rfl, rfl⟩

/-- The bundle of a child that is stored with its password, under a parent that is stored. -/
theorem bundle_ok (host : Host S.libs) {invitation : PkiInvitation} {id : Nat} {secret : Secret}
    {child parent : TrustAuthority} {chain : PyJson} (howner : invitation.authorityId = some id)
    (hsecret : s.secrets.get? id = some secret) (hchild : authorityById s.db id = some child)
    (hparent : child.parentId.bind (authorityById s.db) = some parent)
    (hchain : exportTrustChain S.libs s.db child = .ok chain) :
    ∃ b, bundle S host invitation s = .ok b := by
  unfold bundle
  simp only [howner, hsecret, hchild, hparent, hchain]
  exact ⟨_, rfl⟩

/-! ## A used invitation -/

/-- An invitation that was used: with the digests of three CSRs, and with the bundle that they
get. -/
structure UsedWith (S : Setting) (token : String) (s : State) (invitation : PkiInvitation)
    (digests : String × String × String) (b : Bundle) : Prop where
  stored : ∃ identity issuer, identityOf S.env S.env.ownNamespace = .ok identity ∧
    authorityByIdentity s.db identity = some issuer
  found : invitationOf S s.db token = some invitation
  used : invitation.usedAt.isSome = true
  digests_eq : (invitation.caCsrSha256, invitation.transportCsrSha256, invitation.policyCsrSha256) =
    (some digests.1, some digests.2.1, some digests.2.2)
  answer : ∀ host : Host S.libs, ∃ b', bundle S host invitation s = .ok b' ∧ b.Same b'

/-- How a request ends after the invitation was used: it leaves all as it is, and it gets the bundle
with the same CSRs and is refused with others. -/
structure Repeats (t : State) (again : Attempt S token) (digests : String × String × String)
    (b : Bundle) : Prop where
  unchanged : next t again = t
  sameKeys : again.digests = digests → ∃ b', (again.result t).2 = .ok b' ∧ b.Same b'
  otherKeys : again.digests ≠ digests → (again.result t).2 =
    .error (.http 410 "invitation was already used with different keys")

theorem sameCsrs_iff {invitation : PkiInvitation} (h : UsedWith S token s invitation digests b)
    (a : Attempt S token) :
    sameCsrs S a.request invitation = true ↔ a.digests = digests := by
  obtain ⟨hca, hrest⟩ := Prod.mk.inj h.digests_eq
  obtain ⟨htransport, hpolicy⟩ := Prod.mk.inj hrest
  obtain ⟨ca, transport, policy⟩ := digests
  rw [sameCsrs, hca, htransport, hpolicy, Attempt.digests, Prod.mk.injEq, Prod.mk.injEq]
  simp only [Bool.and_eq_true, beq_iff_eq, Option.some.injEq, and_assoc]
  exact and_congr eq_comm (and_congr eq_comm eq_comm)

theorem UsedWith.again {invitation : PkiInvitation} (h : UsedWith S token s invitation digests b)
    (a : Attempt S token) : Repeats s a digests b := by
  obtain ⟨identity, issuer, hidentity, hissuer⟩ := h.stored
  have hlocal := ensureLocalAuthority_of_stored a.host hidentity hissuer
  have hfound := h.found
  rw [← a.token_eq] at hfound
  have hresult : a.result s =
      if sameCsrs S a.request invitation then (s, bundle S a.host invitation s)
      else (s, .error (.http 410 "invitation was already used with different keys")) := by
    unfold Attempt.result enrollRouter
    simp [hlocal, hfound, h.used]
  have hiff := sameCsrs_iff h a
  cases hsame : sameCsrs S a.request invitation with
  | true =>
    have heq : a.digests = digests := hiff.mp hsame
    rw [hsame, if_pos rfl] at hresult
    constructor
    case unchanged => rw [next, hresult]
    case sameKeys =>
      intro _
      rw [hresult]
      exact h.answer a.host
    case otherKeys => exact fun hne => absurd heq hne
  | false =>
    have hne : a.digests ≠ digests := fun heq => by
      rw [hiff.mpr heq] at hsame
      cases hsame
    rw [hsame, if_neg Bool.false_ne_true] at hresult
    constructor
    case unchanged => rw [next, hresult]
    case sameKeys => exact fun heq => absurd heq hne
    case otherKeys => exact fun _ => by rw [hresult]

/-! ## The first success -/

/-- An invitation is found by its token after it is used. -/
theorem invitationOf_used {db db' : Db} {invitation used : PkiInvitation}
    (hdistinct : (db.invitations.map (·.id)).Nodup)
    (hfound : invitationOf S db token = some invitation) (hid : used.id = invitation.id)
    (hhash : used.tokenHash = invitation.tokenHash)
    (hrows : db'.invitations = db.invitations.map fun i => if i.id = used.id then used else i) :
    invitationOf S db' token = some used := by
  have hmem := mem_of_find?_eq_some hfound
  -- the row with the id is the invitation, so that the rows keep their digests
  have hrow : db'.invitations = db.invitations.map fun i => if i = invitation then used else i := by
    rw [hrows]
    refine map_congr_left fun i hi => ?_
    rw [hid]
    by_cases heq : i = invitation
    · rw [if_pos (congrArg (·.id) heq), if_pos heq]
    · rw [if_neg fun h => heq (inj_on_of_nodup_map hdistinct hi hmem h), if_neg heq]
  have hkey : ∀ i, (if i = invitation then used else i).tokenHash = i.tokenHash := by
    intro i
    split
    next heq => rw [heq, hhash]
    next => rfl
  have hfind := @find?_map_of_key _ _ _ PkiInvitation.tokenHash _ hkey db.invitations
    (S.sha256 token)
  rw [invitationOf] at hfound
  rw [hfound, Option.map_some, if_pos rfl] at hfind
  rw [invitationOf, hrow]
  exact hfind

/-- What a request leaves when its rows are committed. -/
theorem Invited.committed {invitation : PkiInvitation} {issuer : TrustAuthority}
    (h : Invited S token s invitation issuer) (a : Attempt S token) {p : Prepared}
    (hprepare : prepare S a.host a.draws a.request issuer invitation s.db = .ok p)
    (hexportable : exportable s.db issuer = true)
    (hs' : s' = ⟨p.db, s.issued.set p.invitation.id p.issued,
      s.secrets.set p.authority.id p.secret⟩) :
    (∃ b, bundle S a.host p.invitation s' = .ok b ∧ UsedWith S token s' p.invitation a.digests b) ∧
      OneChild s.db s'.db ∧ NoOrphan s' := by
  obtain ⟨db', delegation, _, parent, credential, identities, child, hok⟩ := prepare_ok hprepare
  obtain ⟨identity, hidentity, hstored⟩ := h.stored
  obtain ⟨hauthorities, hdelegations, hchildren, hcredentials, hinvitations⟩ := hok.tables
  have hissuer : authorityById s.db issuer.id = some issuer :=
    authorityById_eq h.numbered.distinct (mem_of_find?_eq_some hstored)
  have hdistinct : (p.db.authorities.map (·.id)).Nodup := (hok.grows h.numbered).distinct
  have hnew : p.authority ∈ p.db.authorities := by
    rw [hauthorities]
    exact mem_append_right _ (mem_singleton.mpr rfl)
  have hparent : p.authority.parentId = some issuer.id := by
    rw [hok.accepted.authority_parent, hok.parent_eq hstored]
  obtain ⟨chain, hchain⟩ := hok.exportTrustChain h.numbered hparent hissuer hexportable
  have howner : p.invitation.authorityId = some p.authority.id := by rw [hok.invitation_eq]; rfl
  have hfoundParent : p.authority.parentId.bind (authorityById p.db) = some issuer := by
    rw [hparent]
    exact hok.authorityById hissuer
  have hsecret : s'.secrets.get? p.authority.id = some p.secret := by
    rw [hs', get?_set_self]
  have hdb : s'.db = p.db := by rw [hs']
  rw [← hdb] at hfoundParent hchain hdistinct hnew
  rw [← hdb] at hauthorities hdelegations hchildren hcredentials hinvitations
  obtain ⟨b, hb⟩ := bundle_ok a.host howner hsecret (authorityById_eq hdistinct hnew) hfoundParent
    hchain
  refine ⟨⟨b, hb, ?_⟩, ?_, ?_⟩
  · exact
      { stored := by
          refine ⟨identity, issuer, hidentity, ?_⟩
          rw [authorityByIdentity] at hstored ⊢
          rw [hauthorities, find?_append, hstored]
          rfl
        found := invitationOf_used h.distinct h.found (by rw [hok.invitation_eq]; rfl)
          (by rw [hok.invitation_eq]; rfl) hinvitations
        used := by rw [hok.invitation_eq]; rfl
        digests_eq := by rw [hok.invitation_eq]; rfl
        answer := bundle_same hb }
  · exact ⟨.inr ⟨_, hauthorities⟩, .inr ⟨_, hdelegations⟩, .inr ⟨_, hchildren⟩,
      .inr ⟨_, hcredentials⟩⟩
  · intro id secret hget
    by_cases hid : id = p.authority.id
    · exact ⟨p.authority, hnew, hid.symm⟩
    · rw [hs', get?_set_of_ne _ hid] at hget
      obtain ⟨old, hold, heq⟩ := h.noOrphan id secret hget
      rw [hauthorities]
      exact ⟨old, mem_append_left _ hold, heq⟩

/-- A request that leaves the rows leaves the invitation. -/
theorem Invited.left {invitation : PkiInvitation} {issuer : TrustAuthority}
    (h : Invited S token s invitation issuer) (hrows : SameRows s s')
    (hnext : s.db.nextId ≤ s'.db.nextId) (hnoOrphan : NoOrphan s') :
    Invited S token s' invitation issuer := by
  obtain ⟨hids, hdistinct, hdelegations, hidentities, hcredentials⟩ := h.numbered
  have hdb := hrows.1
  refine ⟨⟨?_, ?_, ?_, ?_, ?_⟩, ?_, ?_, ?_, h.unused, hnoOrphan⟩
  · intro a ha
    rw [hdb] at ha
    exact lt_of_lt_of_le (hids a ha) hnext
  · rw [hdb]
    exact hdistinct
  · intro d hd
    rw [hdb] at hd
    exact lt_of_lt_of_le (hdelegations d hd) hnext
  · intro i hi
    rw [hdb] at hi
    exact lt_of_lt_of_le (hidentities i hi) hnext
  · intro c hc
    rw [hdb] at hc
    exact lt_of_lt_of_le (hcredentials c hc) hnext
  · rw [hdb]
    exact h.stored
  · rw [hdb]
    exact h.found
  · rw [hdb]
    exact h.distinct

/-- How a request for an invitation that is not used ends: it fails and leaves nothing, or it is the
one that uses the invitation. -/
inductive Settled (S : Setting) (token : String) (invitation : PkiInvitation)
    (issuer : TrustAuthority) (s : State) (digests : String × String × String) :
    State × Except Failure Bundle → Prop where
  | failed {s' : State} {e : Failure} : SameRows s s' → Invited S token s' invitation issuer →
      Settled S token invitation issuer s digests (s', .error e)
  | succeeded {s' : State} {b : Bundle} {used : PkiInvitation} :
      UsedWith S token s' used digests b → OneChild s.db s'.db → NoOrphan s' →
      Settled S token invitation issuer s digests (s', .ok b)

theorem Invited.finished {s : State} {invitation : PkiInvitation} {issuer : TrustAuthority}
    (h : Invited S token s invitation issuer) (a : Attempt S token) {p : Prepared}
    (hprepare : prepare S a.host a.draws a.request issuer invitation s.db = .ok p)
    (horder : endsInOrder a.host issuer s.db p = true) {result : State × Except Failure Bundle}
    (hresult : Finished S a.host p s result) :
    Settled S token invitation issuer s a.digests result := by
  obtain ⟨_, _, _, _, _, _, _, hok⟩ := prepare_ok hprepare
  have hnext : s.db.nextId ≤ p.db.nextId := (hok.grows h.numbered).nextId
  rw [endsInOrder] at horder
  cases hresult with
  | notWritten =>
    have hrows : SameRows s { s with db := rollback s.db p.db } := ⟨rfl, rfl⟩
    exact .failed hrows (h.left hrows hnext h.noOrphan)
  | notCommitted hput hcommit =>
    have hunsettled : (a.host.writes.commit && p.unique) = false := by
      rw [Bool.and_eq_false_iff]
      exact hcommit
    have hremove : a.host.writes.remove = true := by
      simpa [hput, hunsettled] using horder
    rw [if_pos hremove]
    refine .failed ⟨rfl, rfl⟩ (h.left ⟨rfl, rfl⟩ hnext fun id secret hget => ?_)
    -- the password is taken out again
    by_cases hid : id = p.authority.id
    · subst hid
      rw [get?_pop_self] at hget
      cases hget
    · rw [get?_pop_of_ne _ hid, get?_set_of_ne _ hid] at hget
      exact h.noOrphan id secret hget
  | committed hput hcommit hunique heq _ haudited =>
    obtain ⟨haudit, hexportable⟩ : a.host.writes.audit = true ∧ exportable s.db issuer = true := by
      simpa [hput, hcommit, hunique] using horder
    obtain ⟨⟨b, hb, hused⟩, hone, hnoOrphan⟩ := h.committed a hprepare hexportable heq
    rw [haudited haudit, hb]
    exact .succeeded hused hone hnoOrphan

theorem Invited.settled {invitation : PkiInvitation} {issuer : TrustAuthority}
    (h : Invited S token s invitation issuer) (a : Attempt S token) (horder : inOrder s a = true) :
    Settled S token invitation issuer s a.digests (a.result s) := by
  obtain ⟨identity, hidentity, hstored⟩ := h.stored
  have hlocal' := ensureLocalAuthority_of_stored a.host hidentity hstored
  have hfound' := h.found
  rw [← a.token_eq] at hfound'
  have hsame : SameRows s s := ⟨rfl, rfl⟩
  have hcases : Enrolled S a.host a.draws a.request s (a.result s) :=
    enrollRouter_enrolled a.draws a.request s
  generalize a.result s = result at hcases ⊢
  cases hcases with
  | noAuthority hlocal =>
    rw [hlocal'] at hlocal
    cases hlocal
  | unknown hlocal hfound =>
    obtain ⟨rfl, rfl⟩ := mk.inj (Except.ok.inj (hlocal'.symm.trans hlocal))
    rw [hfound'] at hfound
    cases hfound
  | repeated hlocal hfound hused =>
    obtain ⟨rfl, rfl⟩ := mk.inj (Except.ok.inj (hlocal'.symm.trans hlocal))
    obtain rfl := Option.some.inj (hfound'.symm.trans hfound)
    rw [h.unused] at hused
    cases hused
  | otherKeys hlocal hfound hused =>
    obtain ⟨rfl, rfl⟩ := mk.inj (Except.ok.inj (hlocal'.symm.trans hlocal))
    obtain rfl := Option.some.inj (hfound'.symm.trans hfound)
    rw [h.unused] at hused
    cases hused
  | refused hlocal hfound =>
    obtain ⟨rfl, rfl⟩ := mk.inj (Except.ok.inj (hlocal'.symm.trans hlocal))
    exact .failed hsame h
  | @finished _ _ _ p _ hlocal hfound _ hprepare hfinished =>
    obtain ⟨rfl, rfl⟩ := mk.inj (Except.ok.inj (hlocal'.symm.trans hlocal))
    obtain rfl := Option.some.inj (hfound'.symm.trans hfound)
    unfold inOrder at horder
    rw [hlocal] at horder
    dsimp only at horder
    rw [hfound] at horder
    dsimp only at horder
    rw [h.unused, Option.isSome_none, Bool.false_or, hprepare] at horder
    exact h.finished a hprepare horder hfinished

/-- The request fails and leaves a child or a password. -/
def Attempt.Leaves (a : Attempt S token) (s : State) : Prop :=
  (∃ e, (a.result s).2 = .error e) ∧ ¬(SameRows s (next s a) ∧ NoOrphan (next s a))

/-- The condition is exact where the chain of the local authority can be exported: when the writes of
a request do not end in order, the request fails and leaves a child or a password. -/
theorem Invited.disordered {invitation : PkiInvitation} {issuer : TrustAuthority}
    (h : Invited S token s invitation issuer) (hexportable : exportable s.db issuer = true)
    (a : Attempt S token) (horder : inOrder s a = false) : a.Leaves s := by
  obtain ⟨identity, hidentity, hstored⟩ := h.stored
  have hlocal := ensureLocalAuthority_of_stored a.host hidentity hstored
  have hfound := h.found
  rw [← a.token_eq] at hfound
  unfold inOrder at horder
  rw [hlocal] at horder
  dsimp only at horder
  rw [hfound] at horder
  dsimp only at horder
  rw [h.unused, Option.isSome_none, Bool.false_or] at horder
  cases hprepare : prepare S a.host a.draws a.request issuer invitation s.db with
  | error e =>
    rw [hprepare] at horder
    cases horder
  | ok p =>
    rw [hprepare] at horder
    dsimp only at horder
    rw [endsInOrder] at horder
    obtain ⟨_, _, _, _, _, _, child, hok⟩ := prepare_ok hprepare
    have hresult : a.result s = finish S a.host p s := by
      unfold Attempt.result enrollRouter
      rw [hlocal]
      dsimp only
      rw [hfound]
      dsimp only
      rw [h.unused, if_neg (by simp), hprepare]
    have hfinished : Finished S a.host p s (a.result s) := hresult ▸ finish_finished p s
    rw [Attempt.Leaves, next]
    generalize a.result s = result at hfinished
    cases hfinished with
    | notWritten hput => simp [hput] at horder
    | notCommitted hput hcommit =>
      have hunsettled : (a.host.writes.commit && p.unique) = false := by
        rw [Bool.and_eq_false_iff]
        exact hcommit
      have hremove : a.host.writes.remove = false := by
        simpa [hput, hunsettled] using horder
      refine ⟨⟨_, rfl⟩, fun hleft => ?_⟩
      -- the password that stays is of the child that was not stored
      obtain ⟨old, hold, hid⟩ := hleft.2 p.authority.id p.secret (by
        rw [hremove]
        exact get?_set_self _ _ _)
      have hlt := h.numbered.ids old hold
      rw [hid, hok.accepted.authority_id] at hlt
      exact absurd hlt (lt_irrefl _)
    | committed hput hcommit hunique heq hunaudited _ =>
      have haudit : a.host.writes.audit = false := by
        simpa [hput, hcommit, hunique, hexportable] using horder
      rw [hunaudited haudit, heq]
      refine ⟨⟨_, rfl⟩, fun hleft => ?_⟩
      have hchildren : p.db.children = s.db.children := by
        rw [show p.db = rollback s.db p.db from hleft.1.1]
        rfl
      rw [hok.tables.2.2.1] at hchildren
      simp at hchildren

/-! ## Runs -/

theorem Bundle.Same.of_common {b' b'' : Bundle} (h' : b.Same b') (h'' : b.Same b'') :
    b'.Same b'' := by
  rw [Bundle.Same] at h' h'' ⊢
  rw [h', h'']

theorem SameRows.oneChild {s'' : State} (h : SameRows s s') (h' : OneChild s'.db s''.db) :
    OneChild s.db s''.db := by
  rw [OneChild, h.1] at h'
  exact h'

theorem SameRows.trans {s'' : State} (h : SameRows s s') (h' : SameRows s' s'') :
    SameRows s s'' := by
  refine ⟨?_, h'.2.trans h.2⟩
  have hdb := h'.1
  rw [h.1] at hdb
  exact hdb

/-- The invitation is not used and no row was added, or it was used and one child was added. -/
inductive Stage (S : Setting) (token : String) (start : State) (invitation : PkiInvitation)
    (issuer : TrustAuthority) (s : State) : Prop where
  | unused : Invited S token s invitation issuer → SameRows start s →
      Stage S token start invitation issuer s
  | used {row : PkiInvitation} {digests : String × String × String} {b : Bundle} :
      UsedWith S token s row digests b → OneChild start.db s.db → NoOrphan s →
      Stage S token start invitation issuer s

theorem Stage.step {start s : State} {invitation : PkiInvitation} {issuer : TrustAuthority}
    (h : Stage S token start invitation issuer s) (a : Attempt S token)
    (horder : inOrder s a = true) : Stage S token start invitation issuer (next s a) := by
  cases h with
  | unused hinvited hrows =>
    have hsettled := hinvited.settled a horder
    rw [next]
    generalize a.result s = result at hsettled ⊢
    cases hsettled with
    | failed hleft hinvited' => exact .unused hinvited' (hrows.trans hleft)
    | succeeded hused hone hnoOrphan => exact .used hused (hrows.oneChild hone) hnoOrphan
  | used hused hone hnoOrphan =>
    rw [(hused.again a).unchanged]
    exact .used hused hone hnoOrphan

theorem Stage.oneChild {invitation : PkiInvitation} {issuer : TrustAuthority}
    (h : Stage S token start invitation issuer s) : OneChild start.db s.db ∧ NoOrphan s := by
  cases h with
  | unused hinvited hrows =>
    rw [hrows.1]
    exact ⟨⟨.inl rfl, .inl rfl, .inl rfl, .inl rfl⟩, hinvited.noOrphan⟩
  | used _ hone hnoOrphan => exact ⟨hone, hnoOrphan⟩

/-- A request that fails leaves the rows. -/
theorem Stage.failed {invitation : PkiInvitation} {issuer : TrustAuthority}
    (h : Stage S token start invitation issuer s) (a : Attempt S token)
    (horder : inOrder s a = true) {e : Failure} (herror : (a.result s).2 = .error e) :
    SameRows s (next s a) := by
  cases h with
  | unused hinvited _ =>
    have hsettled := hinvited.settled a horder
    rw [next]
    generalize a.result s = result at hsettled herror ⊢
    cases hsettled with
    | failed hleft _ => exact hleft
    | succeeded => cases herror
  | used hused _ _ =>
    rw [(hused.again a).unchanged]
    exact ⟨rfl, rfl⟩

/-- A request that succeeds leaves a used invitation. -/
theorem Stage.succeeded {invitation : PkiInvitation} {issuer : TrustAuthority}
    (h : Stage S token start invitation issuer s) (a : Attempt S token)
    (horder : inOrder s a = true) (hok : (a.result s).2 = .ok b) :
    ∃ row first, UsedWith S token (next s a) row a.digests first ∧ first.Same b := by
  cases h with
  | unused hinvited _ =>
    have hsettled := hinvited.settled a horder
    rw [next]
    generalize a.result s = result at hsettled hok ⊢
    cases hsettled with
    | failed => cases hok
    | succeeded hused _ _ =>
      cases hok
      exact ⟨_, _, hused, rfl⟩
  | @used row digests first hused _ _ =>
    have hrepeats := hused.again a
    rw [hrepeats.unchanged]
    by_cases hsame : a.digests = digests
    · obtain ⟨b', hb', hsameBundle⟩ := hrepeats.sameKeys hsame
      rw [hok] at hb'
      cases hb'
      rw [hsame]
      exact ⟨row, first, hused, hsameBundle⟩
    · rw [hrepeats.otherKeys hsame] at hok
      cases hok

theorem UsedWith.final_eq {row : PkiInvitation} (h : UsedWith S token s row digests b)
    (attempts : List (Attempt S token)) :
    final next s attempts = s := by
  induction attempts with
  | nil => rfl
  | cons a attempts ih => rw [Runs.final_cons, (h.again a).unchanged, ih]

theorem Stage.stored {invitation : PkiInvitation} {issuer : TrustAuthority}
    (h : Stage S token start invitation issuer s) :
    ∃ identity own, identityOf S.env S.env.ownNamespace = .ok identity ∧
      authorityByIdentity s.db identity = some own := by
  cases h with
  | unused hinvited _ =>
    obtain ⟨identity, hidentity, hstored⟩ := hinvited.stored
    exact ⟨identity, issuer, hidentity, hstored⟩
  | used hused _ _ => exact hused.stored

/-- An invitation that expired before it was used is refused. -/
theorem Stage.expired {invitation row : PkiInvitation} {issuer : TrustAuthority}
    (h : Stage S token start invitation issuer s) (a : Attempt S token)
    (hfound : invitationOf S s.db token = some row) (hunused : row.usedAt = none)
    (hexpired : row.expiresAt ≤ a.host.now) :
    (a.result s).2 = .error (.http 410 "invitation expired") := by
  obtain ⟨identity, own, hidentity, hstored⟩ := h.stored
  have hlocal := ensureLocalAuthority_of_stored a.host hidentity hstored
  rw [← a.token_eq] at hfound
  have hrefused : prepare S a.host a.draws a.request own row s.db =
      .error (.http 410 "invitation expired") := by
    rw [prepare, rejectIf, decide_eq_true hexpired]
    rfl
  unfold Attempt.result enrollRouter
  rw [hlocal]
  dsimp only
  rw [hfound]
  dsimp only
  rw [hunused, if_neg (by simp), hrefused]

/-- What a request of a run does, with those that come later. -/
structure Served (s : State) (a : Attempt S token) (later : List (Attempt S token)) : Prop where
  failed : ∀ e, (a.result s).2 = .error e → SameRows s (next s a)
  expired : ∀ row, invitationOf S s.db token = some row → row.usedAt = none →
    row.expiresAt ≤ a.host.now → (a.result s).2 = .error (.http 410 "invitation expired")
  repeated : ∀ b, (a.result s).2 = .ok b → ∀ between again rest, later = between ++ again :: rest →
    Repeats (final next (next s a) between) again a.digests b

/-- In every run of requests for an invitation, in which what a request writes is committed with its
audit and can be exported, or is undone: at most one child is stored and every password is of an
authority that is stored, a request that fails leaves the rows, one that comes after the expiry of an
unused invitation is refused, and after one that succeeds the same CSRs get the bundle again and
others are refused. -/
theorem invitation_single_use (S : Setting) (token : String) (start : State)
    (invitation : PkiInvitation) (issuer : TrustAuthority)
    (hstart : Invited S token start invitation issuer) (attempts : List (Attempt S token))
    (horder : Guarded next (fun s a => inOrder s a = true) start attempts) :
    Always next (fun s => OneChild start.db s.db ∧ NoOrphan s) start attempts ∧
      ∀ earlier a later, attempts = earlier ++ a :: later →
        Served (final next start earlier) a later := by
  have hbegin : Stage S token start invitation issuer start := .unused hstart ⟨rfl, rfl⟩
  have hstages : Always next (Stage S token start invitation issuer) start attempts :=
    Runs.always_of_guarded (fun _ a hs ha => hs.step a ha) hbegin horder
  refine ⟨hstages.imp fun _ h => h.oneChild, fun earlier a later heq => ?_⟩
  have hstage := Runs.always_iff.mp hstages earlier (a :: later) heq
  have ha := Runs.guarded_iff.mp horder earlier a later heq
  constructor
  case failed => exact fun e herror => hstage.failed a ha herror
  case expired => exact fun row hfound hunused => hstage.expired a hfound hunused
  case repeated =>
    intro b hok between again rest _
    obtain ⟨row, first, hused, hfirst⟩ := hstage.succeeded a ha hok
    have hagain := hused.again again
    rw [hused.final_eq]
    constructor
    case unchanged => exact hagain.unchanged
    case otherKeys => exact hagain.otherKeys
    case sameKeys =>
      intro hsame
      obtain ⟨b', hb', hbundle⟩ := hagain.sameKeys hsame
      exact ⟨b', hb', hfirst.of_common hbundle⟩

end Requests

/-! ## A child that enrols -/

namespace Family

/-- The root, with an invitation for the child. -/
def invited : State := step setting start ⟨hostWith written, .createInvitation invitation (token 'a')⟩

/-- The child with a CSR. -/
def attempt (writes : Writes) (csr : String) (h : csrOk csr) : Attempt setting (token 'a') where
  host := hostWith writes
  draws := draws "pw"
  request := ⟨token 'a', csr, csr, csr, by decide, h, h, h⟩
  token_eq := rfl

/-- Two CSRs. -/
def csrOf (c : Char) : String := String.ofList (List.replicate 64 c)

theorem csrOk_csrOf (c : Char) : csrOk (csrOf c) := by
  simp [csrOk, csrOf, PyStr.len]

/-- A request that succeeds, the same again and one with another CSR. -/
def requests : List (Attempt setting (token 'a')) :=
  [attempt written (csrOf 'a') (csrOk_csrOf 'a'), attempt written (csrOf 'a') (csrOk_csrOf 'a'),
    attempt written (csrOf 'b') (csrOk_csrOf 'b')]

/-- The rows of the root with an invitation. -/
theorem invited_rows : ∃ row issuer, Invited setting (token 'a') invited row issuer ∧
    exportable invited.db issuer = true := by
  have hrows : ∃ row ∈ invited.db.invitations,
      invitationOf setting invited.db (token 'a') = some row ∧ row.usedAt = none ∧
        (invited.db.invitations.map (·.id)).Nodup := by
    decide +kernel
  have hlocal : ∃ issuer ∈ invited.db.authorities,
      authorityByIdentity invited.db Registry.rootIdentity = some issuer ∧
        exportable invited.db issuer = true := by
    decide +kernel
  obtain ⟨row, _, hfound, hunused, hdistinct⟩ := hrows
  obtain ⟨issuer, _, hissuer, hexportable⟩ := hlocal
  refine ⟨row, issuer, ?_, hexportable⟩
  exact
    { numbered := ⟨by decide +kernel, by decide +kernel, by decide +kernel, by decide +kernel,
        by decide +kernel⟩
      stored := ⟨Registry.rootIdentity, by decide +kernel, hissuer⟩
      found := hfound
      distinct := hdistinct
      unused := hunused
      noOrphan := fun id secret hget => by cases hget }

theorem requests_single_use :
    Always next (fun s => OneChild invited.db s.db ∧ NoOrphan s) invited requests ∧
      ∀ earlier a later, requests = earlier ++ a :: later →
        Served (final next invited earlier) a later := by
  obtain ⟨row, issuer, h, _⟩ := invited_rows
  exact invitation_single_use setting (token 'a') invited row issuer h requests (by decide +kernel)

/-- A request whose audit is not committed. -/
def unaudited : Attempt setting (token 'a') :=
  attempt { written with audit := false } (csrOf 'a') (csrOk_csrOf 'a')

/-- A request whose rows are not committed and whose password is not removed. -/
def unremoved : Attempt setting (token 'a') :=
  attempt { uncommitted with remove := false } (csrOf 'a') (csrOk_csrOf 'a')

/-- The first fails with the child stored, and the second with a password that has no child. -/
theorem disordered_left : unaudited.Leaves invited ∧ unremoved.Leaves invited := by
  obtain ⟨row, issuer, h, hexportable⟩ := invited_rows
  have horder : inOrder invited unaudited = false ∧ inOrder invited unremoved = false := by
    decide +kernel
  exact ⟨h.disordered hexportable unaudited horder.1, h.disordered hexportable unremoved horder.2⟩

end Family

end Efdi.Pki

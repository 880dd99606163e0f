import Efdi.Federation.Crypto
import Efdi.Trust.Export

/-!
# The local authority

`ensure_local_authority` of `pki.py`, which every managed operation calls first.  It returns the
authority with the identity of this router, and stores it when it is not there: from the trust
chain of a bootstrap document, as a root that has a new name, or as a new root.

`Bootstraps` is what it may do to the tables.  It leaves all but the authorities and delegations,
and of the authorities it changes roots only.
-/

namespace Efdi.Pki

open Checks Prod
open Federation (Env normalizePath routerIdentity)
open Trust

/-- How a request fails: with a status code and a detail, or with another exception. -/
inductive Failure where
  | http (statusCode : Nat) (detail : String)
  | raised
deriving DecidableEq

/-! ## Names -/

/-- `_full_namespace`. -/
def fullNamespace (env : Env) (partner : String) : String :=
  PyStr.join "/" ([env.namespacePrefix, PyStr.stripChar '/' partner].filter (· ≠ ""))

/-- `child_namespace`. -/
def childNamespace (parentPath requested : String) : Except String String := do
  let parent ← normalizePath parentPath
  let candidate ← normalizePath requested
  if PyStr.startsWith candidate (parent ++ "/") then return candidate
  rejectIf (PyStr.contains "/" candidate)
    "child namespace must be a leaf or an explicit strict descendant"
  return parent ++ "/" ++ candidate

/-- `router_identity` of a namespace below the prefix.  A `ValueError` is not caught. -/
def identityOf (env : Env) (partner : String) : Except Failure String :=
  (routerIdentity env.trustDomain (fullNamespace env partner)).mapError fun _ => .raised

/-! ## The host -/

/-- What is asked of the control agent. -/
structure SignRequest where
  csr : String
  commonName : String
  profile : String
  pathLength : Int
  days : Int
  identityUri : String

/-- A certificate that the control agent signed. -/
structure Signed where
  certificate : String
  serial : String
  chain : Option String

/-- How the control agent answers. -/
inductive SignReply where
  | raises (statusCode : Nat) (detail : String)
  | refused (output : Option String)
  | signed (result : Signed)

/-- The private key of the policy signer. -/
structure PolicyKey (L : Libs) where
  key : L.Key
  /-- The certificate is over the public half. -/
  isOf : L.Cert → Bool
  /-- The signature in base64. -/
  sign : SignedBytes → String

/-- The writes of a request that succeed, as far as they are reached. -/
structure Writes where
  /-- The commit of `ensure_local_authority`. -/
  local_ : Bool
  /-- `put_child_secret`. -/
  put : Bool
  /-- The commit of the operation. -/
  commit : Bool
  /-- `remove_child_secret`. -/
  remove : Bool
  /-- The commit of `write_audit`. -/
  audit : Bool
deriving DecidableEq

/-- What a request reads outside of the database, and how its writes end. -/
structure Host (L : Libs) where
  now : Int
  /-- The text of `_ROUTER_CA_CERT`. -/
  routerCa : Option String
  /-- The text of `_POLICY_CERT`. -/
  policyCert : Option String
  policyKey : Option (PolicyKey L)
  /-- The text of the transport certificate of this router. -/
  transportCert : Option String
  /-- Whether `_TRUST_BOOTSTRAP` is a file, and then its document. -/
  bootstrap : Option (Option PyJson)
  signCsr : SignRequest → SignReply
  writes : Writes

/-! ## Storing the local authority -/

variable (L : Libs) (env : Env) (host : Host L)

/-- `_load_certificate`. -/
def loadCertificate (text : Option String) (label : String) : Except Failure L.Cert :=
  match text.bind L.loadPem with
  | none => .error (.http 503 ("local " ++ label ++ " is unavailable"))
  | some certificate => .ok certificate

/-- `_verify_direct_signature`. -/
def verifyDirectSignature (certificate issuer : L.Cert) : Except Failure Unit := do
  rejectIf (!L.isEc (L.publicKey issuer) || L.issuer certificate != L.subject issuer)
    (.http 503 "local policy signer is not issued by the router CA")
  rejectIf (!L.certSignedBy certificate (L.publicKey issuer))
    (.http 503 "local policy signer signature is invalid")

/-- The mounted identity of this router. -/
structure LocalIdentity where
  ca : L.Cert
  policy : L.Cert
  caPem : String
  policyPem : String
  pathLength : Nat

/-- The certificates of this router, checked. -/
def loadLocalIdentity (identity : String) : Except Failure (LocalIdentity L) := do
  let ca ← loadCertificate L host.routerCa "router CA certificate"
  let policy ← loadCertificate L host.policyCert "policy signer certificate"
  match certificateRouterIdentity L policy with
  | .error _ => .error .raised
  | .ok actual =>
    rejectIf (actual != identity)
      (.http 503 "local policy signer has the wrong router identity")
  verifyDirectSignature L policy ca
  match L.basicConstraints ca with
  | none => .error (.http 503 "local router CA has no basic constraints")
  | some constraints =>
    match constraints.ca, constraints.pathLength with
    | true, some pathLength =>
      return ⟨ca, policy, host.routerCa.getD "", host.policyCert.getD "", pathLength⟩
    | _, _ => .error (.http 503 "local router CA cannot delegate managed children")

/-- The row of the local authority as a root. -/
def localRow (id : Nat) (identity : String) (own : LocalIdentity L) : TrustAuthority where
  id := id
  identityUri := identity
  namespaceScope := fullNamespace env env.ownNamespace ++ "/**"
  caFingerprint := L.certificateSha256 own.ca
  caCertPem := own.caPem
  policySignerFingerprint := some (L.certificateSha256 own.policy)
  policySignerCertPem := some own.policyPem
  parentId := none
  maxDelegationDepth := own.pathLength
  state := .active
  notAfter := min (L.notValidAfter own.ca) (L.notValidAfter own.policy)

/-- `previous_local`: the root with the same CA. -/
def previousLocal (db : Db) (own : LocalIdentity L) : Option TrustAuthority :=
  db.authorities.find? fun a =>
    a.caFingerprint == L.certificateSha256 own.ca && a.parentId.isNone

/-- Write a row of the authorities. -/
def updateAuthority (db : Db) (row : TrustAuthority) : Db :=
  { db with authorities := db.authorities.map fun a => if a.id = row.id then row else a }

/-- Add a row to the authorities. -/
def addAuthority (db : Db) (row : TrustAuthority) : Db :=
  { db with authorities := db.authorities ++ [row], nextId := db.nextId + 1 }

/-! ### From a bootstrap document -/

/-- The chain of a bootstrap document.  An older document has its parts. -/
def bootstrapChain (bootstrap : PyJson) (own : LocalIdentity L) : Option PyJson :=
  match bootstrap.get? "trust_chain" with
  | some .null | none => do
      let parent ← bootstrap.get? "parent_authority"
      let caPem ← (parent.get? "ca_certificate").bind PyJson.str?
      let policyPem ← (parent.get? "policy_signer_certificate").bind PyJson.str?
      let ca ← L.loadPem caPem
      let policy ← L.loadPem policyPem
      let identity ← parent.get? "identity_uri"
      let scope ← parent.get? "namespace_scope"
      let depth ← parent.get? "max_delegation_depth"
      let envelope ← bootstrap.get? "delegation_envelope"
      return .dict [("schema", .str "efdi.trust-chain/v1"),
        ("anchor", .dict [("identity_uri", identity), ("namespace_scope", scope),
          ("ca_sha256", .str (L.certificateSha256 ca)), ("ca_certificate", .str caPem),
          ("policy_signer_sha256", .str (L.certificateSha256 policy)),
          ("policy_signer_certificate", .str policyPem), ("max_delegation_depth", depth),
          ("not_after",
            .str (L.isoformat (min (L.notValidAfter ca) (L.notValidAfter policy))))]),
        ("steps", .list [.dict [("delegation_envelope", envelope),
          ("subject_ca_certificate", .str own.caPem),
          ("subject_policy_signer_certificate", .str own.policyPem)]])]
  | some chain => some chain

/-- What is wrong with a bootstrap document. -/
def invalidBootstrap (reason : String) : Failure :=
  .http 503 ("managed trust bootstrap is invalid: " ++ reason)

/-- An exception of the trust modules while the bootstrap document is read.  The database raises one
of another class. -/
def bootstrapFailure : TrustError → Failure
  | .trustStore message | .trustVerify message | .valueError message => invalidBootstrap message
  | .integrity _ => .raised

/-- `int(value)`, of what can equal a depth. -/
def intOf : PyJson → Option Int
  | .int n => some n
  | .bool b => some (if b then 1 else 0)
  | .float (.finite q) => some (q.num.tdiv q.den)
  | _ => none

/-- A part of a bootstrap document, which raises when it is not there. -/
def part {α : Type} (value : Option α) (key : String) : Except Failure α :=
  match value with
  | some a => .ok a
  | none => .error (invalidBootstrap key)

/-- The anchor of a chain, stored when it is not there. -/
def ensureAnchor (db : Db) (anchor : PyJson) : Except Failure (Db × TrustAuthority) := do
  let caPem ← part ((anchor.get? "ca_certificate").bind PyJson.str?) "ca_certificate"
  let policyPem ← part ((anchor.get? "policy_signer_certificate").bind PyJson.str?)
    "policy_signer_certificate"
  let ca ← part (L.loadPem caPem) "ca_certificate"
  let policy ← part (L.loadPem policyPem) "policy_signer_certificate"
  let identity ← part ((anchor.get? "identity_uri").bind PyJson.str?) "identity_uri"
  let actual ← part (certificateRouterIdentity L policy).toOption "policy_signer_certificate"
  rejectIf (actual != identity)
    (invalidBootstrap "trust anchor policy identity does not match bootstrap")
  verifyDirectSignature L policy ca
  match authorityByIdentity db identity with
  | some existing => return (db, existing)
  | none =>
    let scope ← part ((anchor.get? "namespace_scope").bind PyJson.str?) "namespace_scope"
    let depth ← part ((anchor.get? "max_delegation_depth").bind intOf) "max_delegation_depth"
    let row : TrustAuthority :=
      { id := db.nextId, identityUri := identity, namespaceScope := scope,
        caFingerprint := L.certificateSha256 ca, caCertPem := caPem,
        policySignerFingerprint := some (L.certificateSha256 policy),
        policySignerCertPem := some policyPem, parentId := none, maxDelegationDepth := depth,
        state := .active, notAfter := min (L.notValidAfter ca) (L.notValidAfter policy) }
    rejectIf (!authorityUnique db row) .raised
    return (addAuthority db row, row)

/-- The steps of a chain, each stored when its subject is not there, and the last subject. -/
def acceptSteps (now : Int) : Db → Option TrustAuthority → List PyJson →
    Except Failure (Db × Option TrustAuthority)
  | db, last, [] => .ok (db, last)
  | db, _, step :: steps =>
    let envelope := step.getD "delegation_envelope" .null
    match grantModelValidate L (envelope.getD "payload" .null) with
    | none => .error (invalidBootstrap "payload")
    | some grant =>
      match authorityByIdentity db grant.subjectIdentity with
      | some authority => acceptSteps now db (some authority) steps
      | none =>
        match acceptDelegation L db envelope
          ((stepCertificate step "subject_ca_certificate").getD "")
          (stepCertificate step "subject_policy_signer_certificate") now with
        | .error e => .error (bootstrapFailure e)
        | .ok (db', authority, _) => acceptSteps now db' (some authority) steps

/-- Store the chain of a bootstrap document. -/
def acceptBootstrap (identity : String) (db : Db) (document : Option PyJson)
    (own : LocalIdentity L) : Except Failure (Db × TrustAuthority) :=
  match document.bind fun document => bootstrapChain L document own with
  | none => .error (invalidBootstrap "document")
  | some chain => do
      let (db₁, anchor) ← ensureAnchor L db (chain.getD "anchor" .null)
      match verifyTrustChain L chain anchor [] host.now with
      | .error e => .error (bootstrapFailure e)
      | .ok verified =>
        let (db₂, last) ← acceptSteps L host.now db₁ none ((proofSteps chain).getD [])
        match last with
        | some authority =>
          rejectIf (verified.identityUri != identity || authority.identityUri != identity)
            (invalidBootstrap "bootstrap delegation chain does not identify this router")
          return (db₂, authority)
        | none => .error (invalidBootstrap "steps")

/-- What `ensure_local_authority` stores for an identity that is not there. -/
def bootstrapLocal (identity : String) (db : Db) : Except Failure (Db × TrustAuthority) := do
  let own ← loadLocalIdentity L host identity
  match host.bootstrap with
  | some document => acceptBootstrap L host identity db document own
  | none =>
    match previousLocal L db own with
    | some previous =>
      let row := localRow L env previous.id identity own
      let others := db.authorities.filter fun a => a.id != row.id
      rejectIf (!authorityUnique { db with authorities := others } row) .raised
      return (updateAuthority db row, row)
    | none =>
      let row := localRow L env db.nextId identity own
      rejectIf (!authorityUnique db row) .raised
      return (addAuthority db row, row)

/-- `ensure_local_authority`. -/
def ensureLocalAuthority (db : Db) : Except Failure (Db × TrustAuthority) := do
  let identity ← identityOf env env.ownNamespace
  match authorityByIdentity db identity with
  | some existing => return (db, existing)
  | none =>
    let stored ← bootstrapLocal L env host identity db
    rejectIf (!host.writes.local_) .raised
    return stored

/-! ## What it does to the tables -/

variable {L}

/-- The tables after the local authority was stored. -/
inductive Bootstraps (L : Libs) : Db → Db → Prop where
  | same (db : Db) : Bootstraps L db db
  | root {db : Db} {row : TrustAuthority} : row.id = db.nextId → row.parentId = none →
      row.state = .active → Bootstraps L db (addAuthority db row)
  | renamed {db : Db} {previous row : TrustAuthority} : previous ∈ db.authorities →
      previous.parentId = none → row.id = previous.id → row.parentId = none →
      row.state = .active → Bootstraps L db (updateAuthority db row)
  | accepted {db db' : Db} {envelope : PyJson} {caPem : String} {policyPem : Option String}
      {now : Int} {authority issuer : TrustAuthority} {delegation : Delegation}
      {grant : DelegationGrant} : Accepted L db envelope caPem policyPem now db' authority
        delegation grant issuer → Bootstraps L db db'
  | trans {db db₁ db₂ : Db} : Bootstraps L db db₁ → Bootstraps L db₁ db₂ → Bootstraps L db db₂

variable {db db' : Db} {identity : String} {authority : TrustAuthority}

theorem bootstraps_ensureAnchor {anchor : PyJson} {row : TrustAuthority}
    (h : ensureAnchor L db anchor = .ok (db', row)) : Bootstraps L db db' := by
  simp only [ensureAnchor, bind_eq_ok] at h
  obtain ⟨_, -, _, -, _, -, _, -, _, -, _, -, _, -, _, -, h⟩ := h
  split at h
  next =>
    obtain ⟨rfl, rfl⟩ := mk.inj (pure_eq_ok.mp h)
    exact .same _
  next =>
    simp only [bind_eq_ok, pure_eq_ok] at h
    obtain ⟨_, -, _, -, _, -, h⟩ := h
    obtain ⟨rfl, rfl⟩ := mk.inj h
    exact .root rfl rfl rfl

theorem bootstraps_acceptSteps {now : Int} {last last' : Option TrustAuthority}
    {steps : List PyJson} (h : acceptSteps L now db last steps = .ok (db', last')) :
    Bootstraps L db db' := by
  induction steps generalizing db last with
  | nil =>
    obtain ⟨rfl, rfl⟩ := mk.inj (Except.ok.inj h)
    exact .same _
  | cons step steps ih =>
    rw [acceptSteps] at h
    split at h
    next => cases h
    next grant _ =>
      split at h
      next => exact ih h
      next =>
        split at h
        next => cases h
        next db₁ authority delegation haccept =>
          obtain ⟨_, _, haccepted⟩ := acceptDelegation_ok haccept
          exact .trans (.accepted haccepted) (ih h)

theorem bootstraps_acceptBootstrap {host : Host L} {document : Option PyJson}
    {own : LocalIdentity L}
    (h : acceptBootstrap L host identity db document own = .ok (db', authority)) :
    Bootstraps L db db' := by
  rw [acceptBootstrap] at h
  split at h
  next => cases h
  next chain _ =>
    rw [bind_eq_ok] at h
    obtain ⟨⟨db₁, anchor⟩, hanchor, h⟩ := h
    dsimp only at h
    split at h
    next => cases h
    next verified _ =>
      rw [bind_eq_ok] at h
      obtain ⟨⟨db₂, last⟩, hsteps, h⟩ := h
      refine .trans (bootstraps_ensureAnchor hanchor) ?_
      dsimp only at h
      split at h
      next =>
        simp only [bind_eq_ok, pure_eq_ok] at h
        obtain ⟨_, -, h⟩ := h
        obtain ⟨rfl, -⟩ := mk.inj h
        exact bootstraps_acceptSteps hsteps
      next => cases h

theorem bootstraps_bootstrapLocal {env : Env} {host : Host L}
    (h : bootstrapLocal L env host identity db = .ok (db', authority)) : Bootstraps L db db' := by
  rw [bootstrapLocal, bind_eq_ok] at h
  obtain ⟨own, -, h⟩ := h
  split at h
  next => exact bootstraps_acceptBootstrap h
  next =>
    split at h
    next previous hprevious =>
      simp only [bind_eq_ok, pure_eq_ok] at h
      obtain ⟨_, -, h⟩ := h
      obtain ⟨rfl, -⟩ := mk.inj h
      have hroot := List.find?_some hprevious
      rw [Bool.and_eq_true, Option.isNone_iff_eq_none] at hroot
      exact .renamed (List.mem_of_find?_eq_some hprevious) hroot.2 rfl rfl rfl
    next =>
      simp only [bind_eq_ok, pure_eq_ok] at h
      obtain ⟨_, -, h⟩ := h
      obtain ⟨rfl, -⟩ := mk.inj h
      exact .root rfl rfl rfl

theorem bootstraps_ensureLocalAuthority {env : Env} {host : Host L}
    (h : ensureLocalAuthority L env host db = .ok (db', authority)) : Bootstraps L db db' := by
  rw [ensureLocalAuthority, bind_eq_ok] at h
  obtain ⟨identity, -, h⟩ := h
  split at h
  next =>
    obtain ⟨rfl, -⟩ := mk.inj (pure_eq_ok.mp h)
    exact .same _
  next =>
    simp only [bind_eq_ok, pure_eq_ok] at h
    obtain ⟨stored, hstored, _, -, rfl⟩ := h
    exact bootstraps_bootstrapLocal hstored

/-- A local authority that is there is returned, and nothing is stored. -/
theorem ensureLocalAuthority_of_stored {env : Env} (host : Host L)
    (hidentity : identityOf env env.ownNamespace = .ok identity)
    (hstored : authorityByIdentity db identity = some authority) :
    ensureLocalAuthority L env host db = .ok (db, authority) := by
  simp only [ensureLocalAuthority, hidentity, ok_bind, hstored]
  rfl

end Efdi.Pki

import Efdi.Admin.Users
import Efdi.Pki.LocalAuthority

/-!
# Enrolling and managing children

`create_invitation` and `enroll_router` of `pki.py`, the lifecycle operations of `trust_api.py` with
`rotate_link_credential`, and the link passwords of `link_secrets.py`, which stand in a file outside
of the database.

An operation reads, changes rows in its session and commits.  What it does between is in the order of
the source: `enroll_router` and `rotate_link_credential` write the file before they commit.  A
rollback restores the rows, and the identifiers that were drawn are not drawn again.
-/

namespace Efdi.Pki

open Admin (PwdCtx)
open Checks Option
open Federation (Env)
open Trust

/-! ## State -/

/-- The columns of an invitation that its use fills, besides those of `PkiInvitation`. -/
structure Issued where
  caCertPem : String
  transportCertPem : String
  policyCertPem : String
  chainPem : String
  transportChainPem : String
  grantEnvelope : PyJson
  linkUsername : String
  linkPasswordHash : String
  issuedSerials : String
deriving DecidableEq

/-- An entry of `children` in the file of link passwords. -/
structure Secret where
  username : String
  password : String
deriving DecidableEq

/-- The database and the file of link passwords. -/
structure State where
  db : Db
  /-- The issued columns of `pki_invitations`, by the id of the row. -/
  issued : PyDict Nat Issued
  /-- The passwords of the children, by the id of their authority. -/
  secrets : PyDict Nat Secret

/-- The rows of a database that is rolled back from another. -/
def rollback (before after : Db) : Db := { before with nextId := after.nextId }

/-! ## Requests -/

/-- `InvitationIn`. -/
structure InvitationIn where
  childName : String
  namespace_ : String
  maxDelegationDepth : Int
  expiresInHours : Int
  bounds : (1 ≤ PyStr.len childName ∧ PyStr.len childName ≤ 64) ∧
    (1 ≤ PyStr.len namespace_ ∧ PyStr.len namespace_ ≤ 512) ∧
    (0 ≤ maxDelegationDepth ∧ maxDelegationDepth ≤ 8) ∧
    1 ≤ expiresInHours ∧ expiresInHours ≤ 168

/-- A text of 64 to 65536 characters. -/
def csrOk (csr : String) : Prop := 64 ≤ PyStr.len csr ∧ PyStr.len csr ≤ 65536

/-- `EnrollmentIn`. -/
structure EnrollmentIn where
  token : String
  routerCaCsr : String
  transportCsr : String
  policySignerCsr : String
  bounds : (32 ≤ PyStr.len token ∧ PyStr.len token ≤ 256) ∧ csrOk routerCaCsr ∧
    csrOk transportCsr ∧ csrOk policySignerCsr

/-- What an operation draws at random. -/
structure Draws where
  grantId : String
  password : String
  /-- The salts of `pwd_ctx.hash`. -/
  credentialSalt : Nat
  invitationSalt : Nat

/-- The libraries an operation calls, and the settings of this router. -/
structure Setting where
  libs : Libs
  env : Env
  pwdCtx : PwdCtx
  /-- `hashlib.sha256(text.encode()).hexdigest()`. -/
  sha256 : String → String

variable (S : Setting) (host : Host S.libs)

/-! ## The bundle -/

/-- The part of a bundle about the parent. -/
structure ParentAuthority where
  identityUri : String
  namespaceScope : String
  maxDelegationDepth : Int
  caCertificate : String
  policySignerCertificate : Option String
deriving DecidableEq

/-- What an enrolled router gets. -/
structure Bundle where
  namespace_ : String
  parentNamespace : Option String
  maxDelegationDepth : Int
  routerCaCertificate : Option String
  transportCertificate : Option String
  policySignerCertificate : Option String
  issuerChain : Option String
  transportIssuerChain : Option String
  parentTransportCertificate : Option String
  parentPolicySignerCertificate : Option String
  parentAuthority : ParentAuthority
  delegationEnvelope : Option PyJson
  trustChain : PyJson
  linkCredential : Secret
  issuedSerials : Option String

/-- The text of an exception of the trust modules. -/
def errorText : TrustError → String
  | .trustStore message | .trustVerify message | .valueError message | .integrity message =>
    message

/-- `_bundle`. -/
def bundle (invitation : PkiInvitation) (s : State) : Except Failure Bundle :=
  match invitation.authorityId with
  | none => .error (.http 409 "enrollment has no managed authority record")
  | some authorityId =>
    match s.secrets.get? authorityId with
    | none =>
      .error (.http 409
        "link secret is unavailable; rotate the child link credential instead of reissuing it")
    | some secret =>
      match authorityById s.db authorityId with
      | none => .error (.http 409 "enrollment parent authority is unavailable")
      | some child =>
        match child.parentId.bind (authorityById s.db) with
        | none => .error (.http 409 "enrollment parent authority is unavailable")
        | some parent =>
          match exportTrustChain S.libs s.db child with
          | .error e =>
            .error (.http 409
              ("enrollment trust chain is unavailable: " ++ errorText e))
          | .ok trustChain =>
            let issued := s.issued.get? invitation.id
            .ok
              { namespace_ := invitation.namespace_
                parentNamespace := some S.env.ownNamespace |>.filter (· ≠ "")
                maxDelegationDepth := invitation.maxDelegationDepth
                routerCaCertificate := issued.map (·.caCertPem)
                transportCertificate := issued.map (·.transportCertPem)
                policySignerCertificate := issued.map (·.policyCertPem)
                issuerChain := issued.map (·.chainPem)
                transportIssuerChain := issued.map fun i =>
                  if i.transportChainPem = "" then i.chainPem else i.transportChainPem
                parentTransportCertificate := host.transportCert
                parentPolicySignerCertificate := host.policyCert
                parentAuthority :=
                  { identityUri := parent.identityUri
                    namespaceScope := parent.namespaceScope
                    maxDelegationDepth := parent.maxDelegationDepth
                    caCertificate := parent.caCertPem
                    policySignerCertificate := parent.policySignerCertPem }
                delegationEnvelope := issued.map (·.grantEnvelope)
                trustChain := trustChain
                linkCredential := secret
                issuedSerials := issued.map (·.issuedSerials) }

/-! ## Enrolling -/

/-- `bounded_common_name`. -/
def boundedCommonName (profile identityUri : String) : String :=
  "efdi-" ++ profile ++ "-" ++ PyStr.take 32 (S.sha256 identityUri)

/-- What is asked of the control agent for a request. -/
def signingRequests (request : EnrollmentIn) (identity : String) (depth : Int) :
    SignRequest × SignRequest × SignRequest :=
  (⟨request.routerCaCsr, boundedCommonName S "ca" identity, "router-ca", depth, 365, identity⟩,
    ⟨request.transportCsr, boundedCommonName S "router" identity, "transport", 0, 3, identity⟩,
    ⟨request.policySignerCsr, boundedCommonName S "policy" identity, "policy-signer", 0, 30,
      identity⟩)

/-- A call of the control agent that returns. -/
def answered : SignReply → Except Failure Unit
  | .raises statusCode detail => .error (.http statusCode detail)
  | .refused _ | .signed _ => .ok ()

/-- An answer with a certificate. -/
def signedResult : SignReply → Except Failure Signed
  | .raises statusCode detail => .error (.http statusCode detail)
  | .refused output =>
    .error (.http 502 ((output.filter (· ≠ "")).getD "router signing failed"))
  | .signed result => .ok result

/-- The certificates of the three requests, when each is signed. -/
def signAll (requests : SignRequest × SignRequest × SignRequest) :
    Except Failure (Signed × Signed × Signed) := do
  let ca := host.signCsr requests.1
  let transport := host.signCsr requests.2.1
  let policy := host.signCsr requests.2.2
  answered ca
  answered transport
  answered policy
  return (← signedResult ca, ← signedResult transport, ← signedResult policy)

/-- A certificate that is read outside of the `try` of the delegation. -/
def readCertificate (pem : String) : Except Failure S.libs.Cert :=
  match S.libs.loadPem pem with
  | some certificate => .ok certificate
  | none => .error .raised

/-- The fields of the grant of a child. -/
def grantFields (issuer : TrustAuthority) (invitation : PkiInvitation) (childFull identity : String)
    (ca policy : S.libs.Cert) (db : Db) (grantId : String) : GrantFields where
  id := grantId
  issuerIdentity := issuer.identityUri
  subjectCaSha256 := PyStr.lower (S.libs.certificateSha256 ca)
  subjectIdentity := identity
  namespace_ := childFull ++ "/**"
  roles := [.routerCa, .router, .workloadIssuer]
  publish := [childFull ++ "/**"]
  subscribe := [issuer.namespaceScope]
  control := [.topology, .status, .configFromParent, .manageChildren]
  maxDelegationDepth := invitation.maxDelegationDepth
  sequence := (highestSequence db issuer.id).getD 0 + 1
  notBefore := host.now - 120
  notAfter := min (S.libs.notValidAfter ca) (min (S.libs.notValidAfter policy) issuer.notAfter)

/-- `sign_grant`, with the key and the certificate of the policy signer. -/
def signGrant (grant : DelegationGrant) (key : PolicyKey S.libs) (certificatePem : String) :
    Except TrustError PyJson := do
  rejectIf (!S.libs.isEcdsaP256 key.key) (.trustVerify "policy signer must use ECDSA P-256")
  match S.libs.loadPem certificatePem with
  | none => .error (.valueError "Unable to load PEM file")
  | some certificate => do
      rejectIf (!key.isOf certificate)
        (.trustVerify "policy signer certificate and private key do not match")
      let identity ← certificateRouterIdentity S.libs certificate
      rejectIf (identity != grant.issuerIdentity)
        (.trustVerify "policy signer identity does not match grant issuer")
      return .dict [("schema", .str "efdi.delegation-envelope/v1"),
        ("payload", canonicalGrant S.libs grant),
        ("signature", .str (key.sign (grantBytes S.libs grant))),
        ("signer_certificate", .str certificatePem),
        ("signer_sha256", .str (S.libs.certificateSha256 certificate))]

/-- An exception while the grant is signed and accepted.  The database raises one of another
class. -/
def delegationFailure : TrustError → Failure
  | .integrity _ => .raised
  | e => .http 503 ("managed delegation failed: " ++ errorText e)

/-- The delegation of a child: the envelope, and what `accept_delegation` adds. -/
def delegate (db : Db) (grant : DelegationGrant) (caPem policyPem : String) :
    Except Failure (PyJson × Db × TrustAuthority) :=
  match host.policyKey, host.policyCert with
  | some key, some certificatePem =>
    let result : Except TrustError (PyJson × Db × TrustAuthority) := do
      let envelope ← signGrant S grant key certificatePem
      let (db', authority, _) ←
        acceptDelegation S.libs db envelope caPem (some policyPem) host.now
      return (envelope, db', authority)
    result.mapError delegationFailure
  | _, _ => .error (.http 503 "managed delegation failed")

/-- What a session is about to write. -/
structure Prepared where
  /-- The tables with the rows of the session. -/
  db : Db
  authority : TrustAuthority
  secret : Secret
  invitation : PkiInvitation
  issued : Issued
  /-- The rows of the session meet the unique columns. -/
  unique : Bool

/-- The rows of a session meet the unique columns of the tables. -/
def rowsUnique (db : Db) (credential : LinkCredential) (identities : List IssuedIdentity)
    (child : FederatedChild) : Bool :=
  db.credentials.all (·.username != credential.username) &&
    identities.all (fun i => db.identities.all fun old =>
      old.serial != i.serial && old.certSha256 != i.certSha256) &&
    decide ((identities.map (·.serial)).Nodup ∧ (identities.map (·.certSha256)).Nodup) &&
    db.children.all (·.namespace_ != child.namespace_)

/-- The link credential of a child that is enrolled. -/
def credentialRow (draws : Draws) (id : Nat) (authority : TrustAuthority) (username : String)
    (expiresAt : Int) : LinkCredential where
  id := id
  authorityId := authority.id
  username := username
  passwordHash := S.pwdCtx.hash draws.password draws.credentialSalt
  state := .active
  createdAt := host.now
  expiresAt := expiresAt
  rotatedAt := none

/-- The issued identity of a child that is enrolled. -/
def identityRow (id : Nat) (authority : TrustAuthority) (identity : String)
    (profile : IdentityProfile) (result : Signed) (certificate : S.libs.Cert) :
    IssuedIdentity where
  id := id
  authorityId := authority.id
  identityUri := identity
  profile := profile
  serial := result.serial
  certSha256 := S.libs.certificateSha256 certificate
  certificatePem := result.certificate
  state := .active
  issuedAt := host.now
  notAfter := S.libs.notValidAfter certificate

/-- The row of a child that is enrolled. -/
def childRow (id : Nat) (invitation : PkiInvitation) (transport : S.libs.Cert) :
    FederatedChild where
  id := id
  name := invitation.childName
  namespace_ := invitation.namespace_
  lastStatus := none
  lastStatusVersion := none
  lastStatusAt := none
  lastStatusError := none
  certSha256 := some (S.libs.certificateSha256 transport)
  maxDelegationDepth := invitation.maxDelegationDepth

/-- The row of an invitation that is used. -/
def usedInvitation (request : EnrollmentIn) (authority : TrustAuthority)
    (invitation : PkiInvitation) : PkiInvitation :=
  { invitation with
    usedAt := some host.now
    authorityId := some authority.id
    caCsrSha256 := some (S.sha256 request.routerCaCsr)
    transportCsrSha256 := some (S.sha256 request.transportCsr)
    policyCsrSha256 := some (S.sha256 request.policySignerCsr) }

/-- The tables with the rows of a child that is enrolled. -/
def withRows (db : Db) (credential : LinkCredential) (identities : List IssuedIdentity)
    (child : FederatedChild) (used : PkiInvitation) : Db :=
  { db with
    credentials := db.credentials ++ [credential]
    identities := db.identities ++ identities
    children := db.children ++ [child]
    invitations := db.invitations.map fun i => if i.id = used.id then used else i
    nextId := db.nextId + 4 }

/-- What `enroll_router` does for an invitation that is not used, up to its first write. -/
def prepare (draws : Draws) (request : EnrollmentIn) (issuer : TrustAuthority)
    (invitation : PkiInvitation) (db : Db) : Except Failure Prepared := do
  rejectIf (decide (invitation.expiresAt ≤ host.now)) (.http 410 "invitation expired")
  let childFull := fullNamespace S.env invitation.namespace_
  let identity ← identityOf S.env invitation.namespace_
  let (ca, transport, policy) ← signAll S host
    (signingRequests S request identity invitation.maxDelegationDepth)
  let caCert ← readCertificate S ca.certificate
  let transportCert ← readCertificate S transport.certificate
  let policyCert ← readCertificate S policy.certificate
  match (grantFields S host issuer invitation childFull identity caCert policyCert db
      draws.grantId).validate with
  | .error _ => .error .raised
  | .ok grant =>
    let (envelope, db', authority) ← delegate S host db grant ca.certificate policy.certificate
    match ca.chain with
    | none => .error .raised
    | some chain =>
      let username := "link-" ++ PyStr.take 24 (S.sha256 identity)
      let credential := credentialRow S host draws db'.nextId authority username
        (min (S.libs.notValidAfter transportCert) grant.notAfter)
      let identities :=
        [identityRow S host (db'.nextId + 1) authority identity .transport transport
            transportCert,
          identityRow S host (db'.nextId + 2) authority identity .policySigner policy
            policyCert]
      let child := childRow S (db'.nextId + 3) invitation transportCert
      let used := usedInvitation S host request authority invitation
      return {
        db := withRows db' credential identities child used
        authority := authority
        secret := ⟨username, draws.password⟩
        invitation := used
        issued :=
          { caCertPem := ca.certificate
            transportCertPem := transport.certificate
            policyCertPem := policy.certificate
            chainPem := chain
            transportChainPem := (transport.chain.filter (· ≠ "")).getD chain
            grantEnvelope := envelope
            linkUsername := username
            linkPasswordHash := S.pwdCtx.hash draws.password draws.invitationSalt
            issuedSerials := "ca=" ++ ca.serial ++ ",transport=" ++ transport.serial ++
              ",policy=" ++ policy.serial }
        unique := rowsUnique db' credential identities child }

/-- What `enroll_router` writes: the secret, the rows and the audit. -/
def finish (p : Prepared) (s : State) : State × Except Failure Bundle :=
  if host.writes.put = false then ({ s with db := rollback s.db p.db }, .error .raised)
  else
    let secrets := s.secrets.set p.authority.id p.secret
    if host.writes.commit = false ∨ p.unique = false then
      -- an exception of `remove_child_secret` replaces that of the commit
      ({ s with
          db := rollback s.db p.db
          secrets := if host.writes.remove then secrets.pop p.authority.id else secrets },
        .error .raised)
    else
      let s' : State :=
        { db := p.db, issued := s.issued.set p.invitation.id p.issued, secrets := secrets }
      if host.writes.audit = false then (s', .error .raised)
      else (s', bundle S host p.invitation s')

/-- The invitation of a token. -/
def invitationOf (db : Db) (token : String) : Option PkiInvitation :=
  db.invitations.find? (·.tokenHash == S.sha256 token)

/-- The CSRs of a request are those that an invitation was used with. -/
def sameCsrs (request : EnrollmentIn) (invitation : PkiInvitation) : Bool :=
  invitation.caCsrSha256 == some (S.sha256 request.routerCaCsr) &&
    invitation.transportCsrSha256 == some (S.sha256 request.transportCsr) &&
    invitation.policyCsrSha256 == some (S.sha256 request.policySignerCsr)

/-- `enroll_router`. -/
def enrollRouter (draws : Draws) (request : EnrollmentIn) (s : State) :
    State × Except Failure Bundle :=
  match ensureLocalAuthority S.libs S.env host s.db with
  | .error e => (s, .error e)
  | .ok (db, issuer) =>
    let s := { s with db := db }
    match invitationOf S db request.token with
    | none => (s, .error (.http 410 "invitation is invalid"))
    | some invitation =>
      if invitation.usedAt.isSome then
        if sameCsrs S request invitation then (s, bundle S host invitation s)
        else (s, .error (.http 410 "invitation was already used with different keys"))
      else
        match prepare S host draws request issuer invitation db with
        | .error e => (s, .error e)
        | .ok p => finish S host p s

/-! ## Other operations -/

/-- `child_full.removeprefix(_prefix() + "/")`. -/
def childPartner (childFull : String) : String :=
  if PyStr.startsWith childFull (S.env.namespacePrefix ++ "/") then
    PyStr.drop (PyStr.len (S.env.namespacePrefix ++ "/")) childFull
  else childFull

/-- The row of an invitation. -/
def invitationRow (id : Nat) (request : InvitationIn) (token namespace_ : String)
    (issuer : TrustAuthority) : PkiInvitation where
  id := id
  tokenHash := S.sha256 token
  childName := PyStr.strip request.childName
  namespace_ := namespace_
  maxDelegationDepth := request.maxDelegationDepth
  expiresAt := min (host.now + 3600 * request.expiresInHours) issuer.notAfter
  usedAt := none
  caCsrSha256 := none
  transportCsrSha256 := none
  policyCsrSha256 := none
  authorityId := none

/-- The namespace that an invitation is for, when it can be made. -/
def invitedNamespace (request : InvitationIn) (issuer : TrustAuthority) (db : Db) :
    Except Failure String := do
  rejectIf (issuer.state != .active || decide (issuer.notAfter ≤ host.now))
    (.http 409 "the local trust authority is not active")
  let childFull ← (childNamespace (fullNamespace S.env S.env.ownNamespace)
    (PyStr.stripChar '/' request.namespace_)).mapError fun _ => .raised
  rejectIf (decide (issuer.maxDelegationDepth ≤ request.maxDelegationDepth))
    (.http 422 ("delegation depth must be at most " ++
      toString (issuer.maxDelegationDepth - 1) ++ " for this issuer"))
  rejectIf (db.children.any (·.namespace_ == childPartner S childFull))
    (.http 409 "that namespace is already a direct child")
  return childPartner S childFull

/-- The answer of an operation that was committed, after its audit. -/
def audited {α : Type} (answer : α) : Except Failure α :=
  if host.writes.audit then .ok answer else .error .raised

/-- `create_invitation`, with the token that is drawn. -/
def createInvitation (request : InvitationIn) (token : String) (s : State) :
    State × Except Failure PkiInvitation :=
  match ensureLocalAuthority S.libs S.env host s.db with
  | .error e => (s, .error e)
  | .ok (db, issuer) =>
    match invitedNamespace S host request issuer db with
    | .error e => ({ s with db := db }, .error e)
    | .ok namespace_ =>
      let row := invitationRow S host db.nextId request token namespace_ issuer
      let db' : Db :=
        { db with invitations := db.invitations ++ [row], nextId := db.nextId + 1 }
      if host.writes.commit then ({ s with db := db' }, audited S host row)
      else ({ s with db := rollback db db' }, .error .raised)

/-- The answer to a lifecycle operation that is refused. -/
def lifecycleFailure : LifecycleError → Failure
  | .http statusCode detail => .http statusCode detail

/-- A lifecycle operation, which changes rows of a direct child of the local authority. -/
def manage (op : Db → Nat → Except LifecycleError Db) (s : State) : State × Except Failure Unit :=
  match ensureLocalAuthority S.libs S.env host s.db with
  | .error e => (s, .error e)
  | .ok (db, own) =>
    match op db own.id with
    | .error e => ({ s with db := db }, .error (lifecycleFailure e))
    | .ok db' =>
      if host.writes.commit then ({ s with db := db' }, audited S host ())
      else ({ s with db := rollback db db' }, .error .raised)

/-- The link credential that a rotation changes. -/
def currentCredential (db : Db) (authorityId : Nat) : Option LinkCredential :=
  latestBy (·.createdAt) (db.credentials.filter fun c =>
    c.authorityId == authorityId && c.state == .active)

/-- The child and the credential of a rotation, when it can be made. -/
def rotationTarget (s : State) (localId authorityId : Nat) :
    Except LifecycleError (TrustAuthority × LinkCredential) := do
  let authority ← directChild s.db localId authorityId
  rejectIf (authority.state != .active)
    (.http 409 "link credentials can rotate only for an active child")
  rejectIf (s.secrets.get? authority.id).isNone
    (.http 409 "current child link secret is unavailable")
  match currentCredential s.db authority.id with
  | none => .error (.http 409 "active child link credential is unavailable")
  | some credential => return (authority, credential)

/-- A credential with a new password. -/
def rotatedCredential (authority : TrustAuthority) (credential : LinkCredential) (draws : Draws) :
    LinkCredential :=
  { credential with
    passwordHash := S.pwdCtx.hash draws.password draws.credentialSalt
    rotatedAt := some host.now
    expiresAt := min authority.notAfter (host.now + 30 * 86400) }

/-- What a rotation writes: first the file, and then the row. -/
def rotateCredential (authority : TrustAuthority) (credential : LinkCredential) (draws : Draws)
    (s : State) : State × Except Failure Secret :=
  let secret : Secret := ⟨credential.username, draws.password⟩
  if host.writes.put = false then (s, .error .raised)
  else if host.writes.commit = false then
    ({ s with secrets := s.secrets.set authority.id secret }, .error .raised)
  else
    ({ s with
        db := { s.db with credentials := s.db.credentials.map fun c =>
          if c.id = credential.id then rotatedCredential S host authority credential draws else c }
        secrets := s.secrets.set authority.id secret },
      audited S host secret)

/-- `rotate_link_credential`. -/
def rotateLinkCredential (authorityId : Nat) (draws : Draws) (s : State) :
    State × Except Failure Secret :=
  match ensureLocalAuthority S.libs S.env host s.db with
  | .error e => (s, .error e)
  | .ok (db, own) =>
    match rotationTarget { s with db := db } own.id authorityId with
    | .error e => ({ s with db := db }, .error (lifecycleFailure e))
    | .ok (authority, credential) =>
      rotateCredential S host authority credential draws { s with db := db }

/-! ## Steps -/

/-- An operation on the managed authorities. -/
inductive Operation where
  | createInvitation (request : InvitationIn) (token : String)
  | enroll (draws : Draws) (request : EnrollmentIn)
  | quarantine (authorityId : Nat)
  | restore (authorityId : Nat)
  | decommission (authorityId : Nat) (reason : String)
  | rotateLink (authorityId : Nat) (draws : Draws)

/-- An operation and the host it meets. -/
structure Event where
  host : Host S.libs
  operation : Operation

/-- The state after an operation. -/
def step (s : State) (event : Event S) : State :=
  match event.operation with
  | .createInvitation request token => (createInvitation S event.host request token s).1
  | .enroll draws request => (enrollRouter S event.host draws request s).1
  | .quarantine id =>
    (manage S event.host (fun db localId => quarantineAuthority db localId id) s).1
  | .restore id => (manage S event.host (fun db localId => restoreAuthority db localId id) s).1
  | .decommission id reason =>
    (manage S event.host (fun db localId => decommissionAuthority db localId id reason) s).1
  | .rotateLink id draws => (rotateLinkCredential S event.host id draws s).1

/-! ## What a session holds -/

/-- What `prepare` saw and holds when it succeeds. -/
structure PrepareOk (draws : Draws) (request : EnrollmentIn) (issuer : TrustAuthority)
    (invitation : PkiInvitation) (db : Db) (p : Prepared) (db' : Db) (delegation : Delegation)
    (grant : DelegationGrant) (parent : TrustAuthority) (credential : LinkCredential)
    (identities : List IssuedIdentity) (child : FederatedChild) : Prop where
  notExpired : host.now < invitation.expiresAt
  accepted : Accepted S.libs db p.issued.grantEnvelope p.issued.caCertPem
    (some p.issued.policyCertPem) host.now db' p.authority delegation grant parent
  issuer_eq : grant.issuerIdentity = issuer.identityUri
  db_eq : p.db = withRows db' credential identities child p.invitation
  credential_id : credential.id = db'.nextId
  credential_owner : credential.authorityId = p.authority.id
  credential_username : credential.username = p.secret.username
  credential_hash : credential.passwordHash =
    S.pwdCtx.hash p.secret.password draws.credentialSalt
  identities_owner : ∀ i ∈ identities, i.authorityId = p.authority.id
  invitation_eq : p.invitation = usedInvitation S host request p.authority invitation

variable {S host}

theorem mapError_ok {ε δ α : Type} {x : Except ε α} {f : ε → δ} {a : α}
    (h : x.mapError f = .ok a) : x = .ok a := by
  cases x with
  | error e => cases h
  | ok b =>
    cases h
    rfl

/-- The envelope that is signed names the certificate of the policy signer. -/
theorem signGrant_ok {grant : DelegationGrant} {key : PolicyKey S.libs} {certificatePem : String}
    {envelope : PyJson} (h : signGrant S grant key certificatePem = .ok envelope) :
    ∃ certificate, S.libs.loadPem certificatePem = some certificate ∧
      certificateRouterIdentity S.libs certificate = .ok grant.issuerIdentity ∧
      envelope.isDict = true ∧ envelope.get? "signer_certificate" = some (.str certificatePem) := by
  rw [signGrant, bind_eq_ok] at h
  obtain ⟨_, -, h⟩ := h
  split at h
  next => cases h
  next certificate hcertificate =>
    simp only [bind_eq_ok, rejectIf_eq_ok, pure_eq_ok] at h
    obtain ⟨_, -, identity, hidentity, _, hsame, rfl⟩ := h
    refine ⟨certificate, hcertificate, ?_, rfl, rfl⟩
    have heq : identity = grant.issuerIdentity := by simpa using hsame
    rw [hidentity, heq]

/-- An envelope that verifies is of the issuer that the named certificate is of. -/
theorem issuerIdentity_of_verify {L : Libs} {envelope : PyJson} {expected : Option String}
    {now : Int} {grant : DelegationGrant} {signer certificate : L.Cert} {certificatePem : String}
    (h : verifyGrantEnvelope L envelope expected now = .ok (grant, signer))
    (hdict : envelope.isDict = true)
    (hnamed : envelope.get? "signer_certificate" = some (.str certificatePem))
    (hload : L.loadPem certificatePem = some certificate) :
    certificateRouterIdentity L certificate = .ok grant.issuerIdentity := by
  have hdocument : envelopeDocument L envelope = .ok envelope := by
    cases envelope with
    | dict items => rfl
    | _ => cases hdict
  have hverified := verifyGrantEnvelope_ok h
  have hsigner := envelopeSigner_of_verify h
  simp only [envelopeSigner, hdocument, Except.toOption, bind_eq_bind,
    bind_some] at hsigner
  rw [parseGrantEnvelope] at hsigner
  cases henvelope : envelopeModelValidate envelope with
  | none => simp [henvelope] at hsigner
  | some decoded =>
    have hpem : decoded.signerCertificate = certificatePem := by
      simp only [envelopeModelValidate, bind_eq_bind, bind_eq_some_iff,
        require_eq_some, pure_def, some.injEq] at henvelope
      obtain ⟨_, _, _, _, _, _, _, _, _, _, _, _, pem, hpem, _, _, _, _, rfl⟩ := henvelope
      obtain ⟨value, hvalue, hbounded⟩ := hpem
      rw [hnamed] at hvalue
      cases hvalue
      rw [decodeBoundedStr] at hbounded
      simp only [PyJson.str?, bind_some] at hbounded
      split at hbounded
      · exact (some.inj hbounded).symm
      · cases hbounded
    simp only [henvelope, hpem, hload] at hsigner
    cases hgrant : grantModelValidate L decoded.payload with
    | none => simp [hgrant] at hsigner
    | some grant' =>
      simp only [hgrant, pure_def, bind_some, some.injEq] at hsigner
      rw [hsigner]
      exact hverified.identity

theorem delegate_ok {db db' : Db} {grant : DelegationGrant} {caPem policyPem : String}
    {envelope : PyJson} {authority : TrustAuthority}
    (h : delegate S host db grant caPem policyPem = .ok (envelope, db', authority)) :
    ∃ delegation accepted parent, Accepted S.libs db envelope caPem (some policyPem) host.now db'
      authority delegation accepted parent ∧ accepted.issuerIdentity = grant.issuerIdentity := by
  rw [delegate] at h
  split at h
  next key certificatePem _ _ =>
    have hok := mapError_ok h
    simp only [bind_eq_ok, pure_eq_ok] at hok
    obtain ⟨signed, hsigned, ⟨db₁, authority₁, delegation⟩, haccept, heq⟩ := hok
    cases heq
    obtain ⟨accepted, parent, haccepted⟩ := acceptDelegation_ok haccept
    refine ⟨delegation, accepted, parent, haccepted, ?_⟩
    obtain ⟨certificate, hload, hidentity, hdict, hnamed⟩ := signGrant_ok hsigned
    obtain ⟨_, _, -, hverify⟩ := haccepted.verified
    have hother := issuerIdentity_of_verify hverify hdict hnamed hload
    exact Except.ok.inj (hother.symm.trans hidentity)
  next => cases h

theorem validate_ok {fields : GrantFields} {grant : DelegationGrant}
    (h : fields.validate = .ok grant) : grant.toGrantFields = fields := by
  rw [GrantFields.validate] at h
  split at h
  · cases h
    rfl
  · cases h

theorem prepare_ok {draws : Draws} {request : EnrollmentIn} {issuer : TrustAuthority}
    {invitation : PkiInvitation} {db : Db} {p : Prepared}
    (h : prepare S host draws request issuer invitation db = .ok p) :
    ∃ db' delegation grant parent credential identities child, PrepareOk S host draws request
      issuer invitation db p db' delegation grant parent credential identities child := by
  simp only [prepare, bind_eq_ok, rejectIf_eq_ok] at h
  obtain ⟨_, hexpired, identity, hidentity, ⟨ca, transport, policy⟩, -, caCert, -, transportCert, -,
    policyCert, -, h⟩ := h
  dsimp only at h
  split at h
  next => cases h
  next signed hsigned =>
    rw [bind_eq_ok] at h
    obtain ⟨⟨envelope, db', authority⟩, hdelegate, h⟩ := h
    dsimp only at h
    split at h
    next => cases h
    next chain hchain =>
      obtain ⟨delegation, grant, parent, haccepted, hissuer⟩ := delegate_ok hdelegate
      cases h
      exact ⟨db', delegation, grant, parent, _, _, _,
        { notExpired := by simpa using hexpired
          accepted := haccepted
          issuer_eq := by
            rw [hissuer, validate_ok hsigned]
            rfl
          db_eq := rfl
          credential_id := rfl
          credential_owner := rfl
          credential_username := rfl
          credential_hash := rfl
          identities_owner := by
            intro i hi
            simp only [List.mem_cons, List.not_mem_nil, or_false] at hi
            rcases hi with rfl | rfl <;> rfl
          invitation_eq := rfl }⟩

theorem rotationTarget_ok {s : State} {localId authorityId : Nat} {authority : TrustAuthority}
    {credential : LinkCredential}
    (h : rotationTarget s localId authorityId = .ok (authority, credential)) :
    credential ∈ s.db.credentials ∧ credential.authorityId = authority.id := by
  simp only [rotationTarget, bind_eq_ok] at h
  obtain ⟨found, -, _, -, _, -, h⟩ := h
  split at h
  next => cases h
  next current hcurrent =>
    obtain ⟨rfl, rfl⟩ := Prod.mk.inj (pure_eq_ok.mp h)
    have hmem := List.mem_filter.mp (latestBy_mem hcurrent)
    exact ⟨hmem.1, by simpa using (Bool.and_eq_true_iff.mp hmem.2).1⟩

/-! ## How a request ends -/

/-- How the writes of `enroll_router` end: with the state after them and the answer. -/
inductive Finished (S : Setting) (host : Host S.libs) (p : Prepared) (s : State) :
    State × Except Failure Bundle → Prop where
  | notWritten : host.writes.put = false →
      Finished S host p s ({ s with db := rollback s.db p.db }, .error .raised)
  | notCommitted : host.writes.put = true → host.writes.commit = false ∨ p.unique = false →
      Finished S host p s
        ({ s with
            db := rollback s.db p.db
            secrets :=
              if host.writes.remove then
                (s.secrets.set p.authority.id p.secret).pop p.authority.id
              else s.secrets.set p.authority.id p.secret },
          .error .raised)
  | committed {answer : Except Failure Bundle} {s' : State} : host.writes.put = true →
      host.writes.commit = true → p.unique = true →
      s' = ⟨p.db, s.issued.set p.invitation.id p.issued,
        s.secrets.set p.authority.id p.secret⟩ →
      (host.writes.audit = false → answer = .error .raised) →
      (host.writes.audit = true → answer = bundle S host p.invitation s') →
      Finished S host p s (s', answer)

theorem finish_finished (p : Prepared) (s : State) : Finished S host p s (finish S host p s) := by
  unfold finish
  by_cases hput : host.writes.put = false
  · rw [if_pos hput]
    exact .notWritten hput
  · rw [if_neg hput]
    have hput := Bool.eq_true_of_not_eq_false hput
    dsimp only
    by_cases hcommit : host.writes.commit = false ∨ p.unique = false
    · rw [if_pos hcommit]
      exact .notCommitted hput hcommit
    · rw [if_neg hcommit]
      obtain ⟨hcommitted, hunique⟩ := not_or.mp hcommit
      cases haudit : host.writes.audit with
      | false =>
        exact .committed hput (Bool.eq_true_of_not_eq_false hcommitted)
          (Bool.eq_true_of_not_eq_false hunique) rfl (fun _ => rfl) fun h => by
            rw [haudit] at h
            cases h
      | true =>
        exact .committed hput (Bool.eq_true_of_not_eq_false hcommitted)
          (Bool.eq_true_of_not_eq_false hunique) rfl (fun h => by
            rw [haudit] at h
            cases h) fun _ => rfl

/-- How a request of `enroll_router` ends. -/
inductive Enrolled (S : Setting) (host : Host S.libs) (draws : Draws) (request : EnrollmentIn)
    (s : State) : State × Except Failure Bundle → Prop where
  | noAuthority {e : Failure} : ensureLocalAuthority S.libs S.env host s.db = .error e →
      Enrolled S host draws request s (s, .error e)
  | unknown {db : Db} {issuer : TrustAuthority} :
      ensureLocalAuthority S.libs S.env host s.db = .ok (db, issuer) →
      invitationOf S db request.token = none →
      Enrolled S host draws request s
        ({ s with db := db }, .error (.http 410 "invitation is invalid"))
  | repeated {db : Db} {issuer : TrustAuthority} {invitation : PkiInvitation} :
      ensureLocalAuthority S.libs S.env host s.db = .ok (db, issuer) →
      invitationOf S db request.token = some invitation → invitation.usedAt.isSome = true →
      sameCsrs S request invitation = true →
      Enrolled S host draws request s
        ({ s with db := db }, bundle S host invitation { s with db := db })
  | otherKeys {db : Db} {issuer : TrustAuthority} {invitation : PkiInvitation} :
      ensureLocalAuthority S.libs S.env host s.db = .ok (db, issuer) →
      invitationOf S db request.token = some invitation → invitation.usedAt.isSome = true →
      sameCsrs S request invitation = false →
      Enrolled S host draws request s
        ({ s with db := db },
          .error (.http 410 "invitation was already used with different keys"))
  | refused {db : Db} {issuer : TrustAuthority} {invitation : PkiInvitation} {e : Failure} :
      ensureLocalAuthority S.libs S.env host s.db = .ok (db, issuer) →
      invitationOf S db request.token = some invitation → invitation.usedAt = none →
      prepare S host draws request issuer invitation db = .error e →
      Enrolled S host draws request s ({ s with db := db }, .error e)
  | finished {db : Db} {issuer : TrustAuthority} {invitation : PkiInvitation} {p : Prepared}
      {result : State × Except Failure Bundle} :
      ensureLocalAuthority S.libs S.env host s.db = .ok (db, issuer) →
      invitationOf S db request.token = some invitation → invitation.usedAt = none →
      prepare S host draws request issuer invitation db = .ok p →
      Finished S host p { s with db := db } result →
      Enrolled S host draws request s result

theorem enrollRouter_enrolled (draws : Draws) (request : EnrollmentIn) (s : State) :
    Enrolled S host draws request s (enrollRouter S host draws request s) := by
  unfold enrollRouter
  cases hlocal : ensureLocalAuthority S.libs S.env host s.db with
  | error e => exact .noAuthority hlocal
  | ok result =>
    obtain ⟨db, issuer⟩ := result
    dsimp only
    cases hinvitation : invitationOf S db request.token with
    | none => exact .unknown hlocal hinvitation
    | some invitation =>
      dsimp only
      cases hused : invitation.usedAt with
      | some t =>
        have hsome : invitation.usedAt.isSome = true := by rw [hused]; rfl
        rw [if_pos isSome_some]
        cases hsame : sameCsrs S request invitation with
        | true => exact .repeated hlocal hinvitation hsome hsame
        | false => exact .otherKeys hlocal hinvitation hsome hsame
      | none =>
        rw [if_neg (by simp)]
        cases hprepare : prepare S host draws request issuer invitation db with
        | error e => exact .refused hlocal hinvitation hused hprepare
        | ok p => exact .finished hlocal hinvitation hused hprepare (finish_finished p _)

/-! ## A root that enrols a child -/

namespace Family

open Registry (digest familyCerts rootIdentity childIdentity familyRoot)

/-- The certificates of the family, and the transport certificate of the child. -/
def certs : List CertInfo :=
  (familyCerts.map fun c => { c with notAfter := 500 }) ++
    [{ subject := "ct", issuer := "r", key := 4, signedBy := 0, isCa := false,
       identity := childIdentity, notBefore := 0, notAfter := 450 }]

/-- The registry with a list of signatures, and texts of the times that the family uses. -/
def libsOf (signatures : List (String × Nat × SignedBytes)) : Libs :=
  let registry : Registry := ⟨certs, signatures, by decide⟩
  let text (t : Int) : String := "t" ++ toString t
  { registry.libs with
    dumpTime := text
    parseDatetime := fun v =>
      ([10, 400].find? fun t : Int => v.str? == some (text t)).map fun t => ⟨t, true⟩ }

/-- The grant of the child. -/
def grant : DelegationGrant where
  id := "00000000-0000-4000-8000-000000000001"
  issuerIdentity := rootIdentity
  subjectCaSha256 := digest 2
  subjectIdentity := childIdentity
  namespace_ := "r/hq/c/**"
  roles := [.routerCa, .router, .workloadIssuer]
  publish := ["r/hq/c/**"]
  subscribe := ["LTU/**"]
  control := [.topology, .status, .configFromParent, .manageChildren]
  maxDelegationDepth := 1
  sequence := 1
  notBefore := 10
  notAfter := 400
  valid := by decide +kernel

/-- The root signs the grant of the child.  A hash is the password and the salt, and a digest is the
text. -/
def setting : Setting where
  libs := libsOf [("c2lnbmF0dXJl", 1, grantBytes (libsOf []) grant)]
  env := ⟨"efdi", "r", "hq"⟩
  pwdCtx := ⟨fun password salt => password ++ "$" ++ toString salt,
    fun password hash => PyStr.startsWith hash (password ++ "$")⟩
  sha256 := id

/-- The host of the root. -/
def hostWith (writes : Writes) : Host setting.libs where
  now := 130
  routerCa := some (digest 0)
  policyCert := some (digest 1)
  policyKey := some ⟨show Nat from 1, fun _ => true, fun _ => "c2lnbmF0dXJl"⟩
  transportCert := none
  bootstrap := none
  signCsr := fun request =>
    if request.profile = "router-ca" then .signed ⟨digest 2, "11", some "chain"⟩
    else if request.profile = "transport" then .signed ⟨digest 4, "12", some "chain"⟩
    else .signed ⟨digest 3, "13", some "chain"⟩
  writes := writes

/-- Every write succeeds. -/
def written : Writes := ⟨true, true, true, true, true⟩

/-- The commit of the operation fails. -/
def uncommitted : Writes := { written with commit := false }

/-- The root, before it has a child. -/
def start : State where
  db := { Db.empty with authorities := [{ familyRoot with notAfter := 400 }], nextId := 1 }
  issued := PyDict.empty
  secrets := PyDict.empty

def invitation : InvitationIn := ⟨"c", "c", 1, 24, by decide⟩

def csr : String := String.ofList (List.replicate 64 'a')

/-- The request of the child with a token. -/
def enrolment (token : String) (bounds : 32 ≤ PyStr.len token ∧ PyStr.len token ≤ 256) :
    EnrollmentIn :=
  ⟨token, csr, csr, csr, bounds, by unfold csrOk; decide, by unfold csrOk; decide,
    by unfold csrOk; decide⟩

/-- Two tokens. -/
def token (c : Char) : String := String.ofList (List.replicate 32 c)

theorem len_token : 32 ≤ PyStr.len (token 'a') ∧ PyStr.len (token 'a') ≤ 256 := by decide

def draws (password : String) : Draws :=
  ⟨"00000000-0000-4000-8000-000000000001", password, 0, 1⟩

end Family

end Efdi.Pki

import Efdi.Federation.Crypto
import Efdi.Trust.Store
import Efdi.Trust.Symbolic
import Efdi.Base.Runs

/-!
# Status reports

`federation_status.py`.  A child reports the outcome of a config push in a signed
envelope.  The authority behind the signature is found in one of two ways: from a
trust chain the payload attaches, or else from the last used invitation of the
namespace.  `acceptedStatus` is the whole of `_verify_and_record_status` up to the
write, and `recordStatus` is the write.

The write has no memory of the version it replaces.  `statusVersion_nondecreasing_iff`
says that the stored version never decreases exactly when the reports are delivered
in the order of their versions.
-/

namespace Efdi.Federation

open Checks Option Except
open Runs (Always Guarded)
open Trust (Libs TrustError VerifiedAuthority DelegationGrant ControlAction verifyTrustChain
  authorityById authorityIsRevoked)

/-! ## Recording -/

/-- A status report: a config version, its outcome and the error of the outcome. -/
structure StatusReport where
  version : Int
  health : Health
  error : Option String
deriving DecidableEq

/-- The newest revision of a target with a version. -/
def latestRevision (db : Db) (namespace_ : String) (version : Int) : Option ConfigRevision :=
  latestBy (·.createdAt)
    (db.revisions.filter fun r => r.targetNamespace == namespace_ && r.version == version)

/-- The row of a directly enrolled child. -/
def childRow (db : Db) (namespace_ : String) : Option FederatedChild :=
  db.children.find? (·.namespace_ == namespace_)

/-- What a report writes to a revision. -/
def reportRevision (report : StatusReport) (now : Int) (r : ConfigRevision) : ConfigRevision :=
  { r with
    state := report.health.revisionState
    detail := clip 1000 report.error
    completedAt := some now }

/-- What a report writes to the row of a child. -/
def reportChild (report : StatusReport) (now : Int) (c : FederatedChild) : FederatedChild :=
  { c with
    lastStatus := some report.health
    lastStatusVersion := some report.version
    lastStatusAt := some now
    lastStatusError := report.error }

/-- `_record_status`: write the newest matching revision and the row of the child. -/
def recordStatus (db : Db) (namespace_ : String) (report : StatusReport) (now : Int) : Db :=
  { db with
    revisions :=
      match latestRevision db namespace_ report.version with
      | some found =>
        db.revisions.map fun r => if r.id = found.id then reportRevision report now r else r
      | none => db.revisions
    children :=
      db.children.map fun c => if c.namespace_ = namespace_ then reportChild report now c else c }

/-! ## Verifying -/

/-- The authority behind a status: proved by a chain, or found in the store. -/
inductive StatusAuthority where
  | proven (authority : VerifiedAuthority)
  | enrolled (authority : TrustAuthority)

namespace StatusAuthority

def identityUri : StatusAuthority → String
  | .proven a => a.identityUri
  | .enrolled a => a.identityUri

def policySignerCertPem : StatusAuthority → Option String
  | .proven a => some a.policySignerCertPem
  | .enrolled a => a.policySignerCertPem

/-- `getattr(authority, "effective_grant", None)`: a row has none. -/
def effectiveGrant : StatusAuthority → Option DelegationGrant
  | .proven a => a.effectiveGrant
  | .enrolled _ => none

/-- `getattr(authority, "state", "active")`: a proven authority has none. -/
def state : StatusAuthority → AuthorityState
  | .proven _ => .active
  | .enrolled a => a.state

/-- An enrolled authority is revoked.  A chain was already checked for it. -/
def isRevoked (db : Db) : StatusAuthority → Bool
  | .proven _ => false
  | .enrolled a => authorityIsRevoked db a

end StatusAuthority

/-- The trust chain a payload attaches. -/
def attachedChain (envelope : PyJson) : Option PyJson :=
  ((envelope.get? "payload").bind (·.get? "trust_chain")).filter PyJson.isDict

/-- The root authority of the store that a chain names as its anchor. -/
def anchorOf (db : Db) (proof : PyJson) : Option TrustAuthority :=
  (((proof.get? "anchor").bind (·.get? "identity_uri")).bind PyJson.str?).bind fun identity =>
    db.authorities.find? fun a => a.identityUri == identity && a.parentId.isNone

/-- The references of the active revocations. -/
def revokedReferences (db : Db) : List String :=
  (db.revocations.filter (·.state == .active)).map (·.targetReference)

/-- The last used invitation for a namespace. -/
def usedInvitation (db : Db) (namespace_ : String) : Option PkiInvitation :=
  latestBy (fun i => i.usedAt.getD 0)
    (db.invitations.filter fun i => i.namespace_ == namespace_ && i.usedAt.isSome)

section Verify

variable (L : Libs) (env : Env)

/-- The authority of an attached chain.  A chain that fails as a `TrustStoreError` counts
as absent; any other error ends the request. -/
def provenAuthority (db : Db) (envelope : PyJson) (now : Int) :
    Except TrustError (Option VerifiedAuthority) :=
  match attachedChain envelope with
  | none => .ok none
  | some proof =>
    match anchorOf db proof with
    | none => .ok none
    | some anchor =>
      match verifyTrustChain L proof anchor (revokedReferences db) now with
      | .ok authority => .ok (some authority)
      | .error (.trustStore _) => .ok none
      | .error e => .error e

/-- The row that the namespace was enrolled as. -/
def enrolledAuthority (db : Db) (namespace_ : String) : Option TrustAuthority :=
  ((usedInvitation db namespace_).bind (·.authorityId)).bind (authorityById db)

/-- The authority of a status: the proven one, or the one the namespace was enrolled as. -/
def statusAuthority (db : Db) (namespace_ : String) (envelope : PyJson) (now : Int) :
    Except TrustError (Option StatusAuthority) := do
  match ← provenAuthority L db envelope now with
  | some authority => return some (.proven authority)
  | none => return (enrolledAuthority db namespace_).map .enrolled

/-- The certificate that must have signed a status of a namespace, when the authority may
send one. -/
def statusSigner (db : Db) (namespace_ : String) (authority : StatusAuthority) :
    Option String := do
  let pem ← authority.policySignerCertPem
  require (pem != "")
  let identity ← (env.identity namespace_).toOption
  require (authority.identityUri == identity)
  require (authority.effectiveGrant.all (·.control.contains .status))
  require (authority.state == .active)
  require (!authority.isRevoked db)
  return pem

/-- The report of a verified payload. -/
def statusReport (body : PyJson) : Option StatusReport := do
  let version ← (body.getD "version" (.int (-1))).int?
  let health ← (body.getD "health" (.str "unknown")).str?.bind Health.ofValue
  let error ←
    match body.getD "error" .null with
    | .null => some none
    | .str text => some (some (PyStr.take 512 text))
    | _ => none
  return ⟨version, health, error⟩

/-- The report of an envelope that an authority may send and did sign. -/
def signedReport (db : Db) (namespace_ : String) (authority : StatusAuthority)
    (envelope : PyJson) (now : Int) : Option StatusReport := do
  let pem ← statusSigner env db namespace_ authority
  let body ← (verifyEnvelope L envelope pem none .status now).toOption
  statusReport body

/-- The report that `_verify_and_record_status` records, if any. -/
def acceptedStatus (db : Db) (namespace_ : String) (envelope : PyJson) (now : Int) :
    Option StatusReport := do
  let found ← (statusAuthority L db namespace_ envelope now).toOption
  let authority ← found
  signedReport L env db namespace_ authority envelope now

/-- `_verify_and_record_status`. -/
def verifyAndRecordStatus (db : Db) (namespace_ : String) (envelope : PyJson) (now : Int) : Db :=
  match acceptedStatus L env db namespace_ envelope now with
  | some report => recordStatus db namespace_ report now
  | none => db

end Verify

variable {L : Libs} {env : Env}

/-! ## What is accepted -/

section Accepted

variable {db : Db} {namespace_ : String} {envelope : PyJson} {now : Int}

theorem provenAuthority_eq_some_iff {authority : VerifiedAuthority} :
    provenAuthority L db envelope now = .ok (some authority) ↔
      ∃ proof anchor, attachedChain envelope = some proof ∧ anchorOf db proof = some anchor ∧
        verifyTrustChain L proof anchor (revokedReferences db) now = .ok authority := by
  constructor
  · intro h
    rw [provenAuthority] at h
    split at h
    · cases h
    next proof hproof =>
      split at h
      · cases h
      next anchor hanchor =>
        split at h
        next a hver =>
          cases h
          exact ⟨proof, anchor, hproof, hanchor, hver⟩
        · cases h
        · cases h
  · rintro ⟨proof, anchor, hproof, hanchor, hver⟩
    simp only [provenAuthority, hproof, hanchor, hver]

theorem statusSigner_eq_some_iff {authority : StatusAuthority} {pem : String} :
    statusSigner env db namespace_ authority = some pem ↔
      authority.policySignerCertPem = some pem ∧ pem ≠ "" ∧
        env.identity namespace_ = .ok authority.identityUri ∧
        (∀ grant, authority.effectiveGrant = some grant →
          ControlAction.status ∈ grant.control) ∧
        authority.state = .active ∧ authority.isRevoked db = false := by
  simp only [statusSigner, bind_eq_bind, bind_eq_some_iff, require_eq_some,
    toOption_eq_some_iff, pure_def, some.injEq, bne_iff_ne, beq_iff_eq,
    Bool.not_eq_true', all_eq_true, List.contains_iff_mem]
  constructor
  · rintro ⟨p, hpem, _, hne, identity, hid, _, heq, _, hctl, _, hstate, _, hlive, rfl⟩
    exact ⟨hpem, hne, heq ▸ hid, hctl, hstate, hlive⟩
  · rintro ⟨hpem, hne, hid, hctl, hstate, hlive⟩
    exact ⟨pem, hpem, (), hne, _, hid, (), rfl, (), hctl, (), hstate, (), hlive, rfl⟩

theorem signedReport_eq_some_iff {authority : StatusAuthority} {report : StatusReport} :
    signedReport L env db namespace_ authority envelope now = some report ↔
      ∃ pem body, statusSigner env db namespace_ authority = some pem ∧
        verifyEnvelope L envelope pem none .status now = .ok body ∧
        statusReport body = some report := by
  simp only [signedReport, bind_eq_bind, bind_eq_some_iff, toOption_eq_some_iff]
  constructor
  · rintro ⟨pem, hpem, body, hbody, hreport⟩
    exact ⟨pem, body, hpem, hbody, hreport⟩
  · rintro ⟨pem, body, hpem, hbody, hreport⟩
    exact ⟨pem, hpem, body, hbody, hreport⟩

/-- A report is accepted from a proven authority, or without one from the enrolled row. -/
theorem acceptedStatus_eq_some_iff {report : StatusReport} :
    acceptedStatus L env db namespace_ envelope now = some report ↔
      (∃ authority, provenAuthority L db envelope now = .ok (some authority) ∧
        signedReport L env db namespace_ (.proven authority) envelope now = some report) ∨
      (provenAuthority L db envelope now = .ok none ∧
        ∃ row, enrolledAuthority db namespace_ = some row ∧
          signedReport L env db namespace_ (.enrolled row) envelope now = some report) := by
  rw [acceptedStatus, statusAuthority]
  cases hproven : provenAuthority L db envelope now with
  | error e => simp [error_bind, Except.toOption]
  | ok result =>
    cases result with
    | some authority => simp [ok_bind, Except.toOption, pure, Except.pure]
    | none =>
      cases hrow : enrolledAuthority db namespace_ with
      | none => simp [ok_bind, Except.toOption, pure, Except.pure]
      | some row => simp [ok_bind, Except.toOption, pure, Except.pure]

end Accepted

/-! ## The row of a child -/

/-- The status columns of a child. -/
structure StatusColumns where
  version : Option Int
  health : Option Health
  error : Option String
deriving DecidableEq

/-- The columns a report is stored as. -/
def StatusReport.columns (report : StatusReport) : StatusColumns :=
  ⟨some report.version, some report.health, report.error⟩

/-- The status columns of the row of a namespace. -/
def statusColumns (db : Db) (namespace_ : String) : Option StatusColumns :=
  (childRow db namespace_).map fun c => ⟨c.lastStatusVersion, c.lastStatus, c.lastStatusError⟩

/-- The stored version of a child. -/
def storedVersion (db : Db) (namespace_ : String) : Option Int :=
  (statusColumns db namespace_).bind (·.version)

theorem childRow_recordStatus (db : Db) (namespace_ : String) (report : StatusReport)
    (now : Int) :
    childRow (recordStatus db namespace_ report now) namespace_ =
      (childRow db namespace_).map (reportChild report now) := by
  have hrow := @find?_map_ite _ _ _ FederatedChild.namespace_ (reportChild report now)
    (fun _ => rfl) db.children namespace_ namespace_
  simp only [if_true] at hrow
  exact hrow

/-- A report replaces the status columns of the row, when there is one. -/
theorem statusColumns_recordStatus (db : Db) (namespace_ : String) (report : StatusReport)
    (now : Int) :
    statusColumns (recordStatus db namespace_ report now) namespace_ =
      (statusColumns db namespace_).map fun _ => report.columns := by
  rw [statusColumns, childRow_recordStatus, statusColumns]
  cases childRow db namespace_ with
  | none => rfl
  | some c => rfl

/-! ## Runs of deliveries -/

/-- A delivery of a status envelope. -/
structure StatusDelivery where
  envelope : PyJson
  now : Int

/-- The database after a delivery on the topic of a namespace. -/
def statusStep (L : Libs) (env : Env) (namespace_ : String) (db : Db) (d : StatusDelivery) : Db :=
  verifyAndRecordStatus L env db namespace_ d.envelope d.now

/-- The envelope is genuine: the active policy signer of the namespace signed a report. -/
def Genuine (L : Libs) (env : Env) (namespace_ : String) (db : Db) (d : StatusDelivery) : Prop :=
  ∃ report, acceptedStatus L env db namespace_ d.envelope d.now = some report

/-- The report an envelope carries, whether it is genuine or not. -/
def carriedReport (d : StatusDelivery) : Option StatusReport :=
  (d.envelope.get? "payload").bind statusReport

/-- The order of versions, where no version is below every other. -/
def VersionLe : Option Int → Option Int → Prop
  | none, _ => True
  | some a, some b => a ≤ b
  | some _, none => False

/-- The version an envelope carries is not below the one stored for its child. -/
def InOrder (namespace_ : String) (db : Db) (d : StatusDelivery) : Prop :=
  ∀ report, carriedReport d = some report →
    VersionLe (storedVersion db namespace_) (some report.version)

/-- The status columns are those of one delivered report, or still those of the start. -/
def ColumnsOf (namespace_ : String) (start : Option StatusColumns)
    (deliveries : List StatusDelivery) (db : Db) : Prop :=
  statusColumns db namespace_ = start ∨
    ∃ d ∈ deliveries, ∃ report, carriedReport d = some report ∧
      statusColumns db namespace_ = some report.columns

/-- The report that is recorded is the one the envelope carries. -/
theorem carriedReport_of_accepted {db : Db} {namespace_ : String} {d : StatusDelivery}
    {report : StatusReport}
    (h : acceptedStatus L env db namespace_ d.envelope d.now = some report) :
    carriedReport d = some report := by
  have hsigned : ∃ authority,
      signedReport L env db namespace_ authority d.envelope d.now = some report := by
    rcases acceptedStatus_eq_some_iff.mp h with ⟨_, _, hs⟩ | ⟨_, _, _, hs⟩
    · exact ⟨_, hs⟩
    · exact ⟨_, hs⟩
  obtain ⟨authority, hs⟩ := hsigned
  obtain ⟨_, body, _, hbody, hreport⟩ := signedReport_eq_some_iff.mp hs
  obtain ⟨_, _, _, hok⟩ := verifyEnvelope_ok hbody
  rw [carriedReport, hok.body]
  exact hreport

/-- A genuine delivery writes the report it carries. -/
theorem statusColumns_statusStep {db : Db} {namespace_ : String} {d : StatusDelivery}
    (h : Genuine L env namespace_ db d) :
    ∃ report, carriedReport d = some report ∧
      statusColumns (statusStep L env namespace_ db d) namespace_ =
        (statusColumns db namespace_).map fun _ => report.columns := by
  obtain ⟨report, hreport⟩ := h
  refine ⟨report, carriedReport_of_accepted hreport, ?_⟩
  rw [statusStep, verifyAndRecordStatus, hreport]
  exact statusColumns_recordStatus db namespace_ report d.now

/-- A genuine delivery keeps the order exactly when its version is not below the stored
one. -/
theorem versionLe_step_iff {db : Db} {namespace_ : String} {d : StatusDelivery}
    (h : Genuine L env namespace_ db d) :
    VersionLe (storedVersion db namespace_)
        (storedVersion (statusStep L env namespace_ db d) namespace_) ↔
      InOrder namespace_ db d := by
  obtain ⟨report, hcarried, hcols⟩ := statusColumns_statusStep h
  have hrow : InOrder namespace_ db d ↔
      VersionLe (storedVersion db namespace_) (some report.version) := by
    simp [InOrder, hcarried]
  rw [hrow, storedVersion, storedVersion, hcols]
  cases statusColumns db namespace_ with
  | none => simp [VersionLe]
  | some columns => rfl

/-- Along a run of deliveries the columns are those of one delivered report. -/
theorem columnsOf_run {namespace_ : String} {start : Option StatusColumns} :
    ∀ {deliveries all : List StatusDelivery} {db : Db}, deliveries ⊆ all →
      ColumnsOf namespace_ start all db → Guarded (statusStep L env namespace_)
        (Genuine L env namespace_) db deliveries →
      Always (statusStep L env namespace_) (ColumnsOf namespace_ start all) db deliveries
  | [], _, _, _, hcols, _ => hcols
  | d :: deliveries, all, db, hsub, hcols, hgen => by
    refine ⟨hcols, columnsOf_run (fun x hx => hsub (List.mem_cons_of_mem d hx)) ?_ hgen.2⟩
    obtain ⟨report, hcarried, hnew⟩ := statusColumns_statusStep hgen.1
    cases hold : statusColumns db namespace_ with
    | none =>
      rw [hold, map_none] at hnew
      rcases hcols with hstart | ⟨_, _, _, _, hsome⟩
      · exact Or.inl (by rw [hnew, ← hstart, hold])
      · rw [hold] at hsome
        cases hsome
    | some columns =>
      rw [hold, map_some] at hnew
      exact Or.inr ⟨d, hsub List.mem_cons_self, report, hcarried, hnew⟩

/-- For every run of genuine deliveries the health and the error belong to the version
beside them.  The stored version never decreases exactly when every delivery carries a
version that is not below the stored one. -/
theorem statusVersion_nondecreasing_iff (L : Libs) (env : Env) (namespace_ : String) (db : Db)
    (deliveries : List StatusDelivery)
    (hgen : Guarded (statusStep L env namespace_) (Genuine L env namespace_) db deliveries) :
    Always (statusStep L env namespace_)
        (ColumnsOf namespace_ (statusColumns db namespace_) deliveries) db deliveries ∧
      (Guarded (statusStep L env namespace_)
          (fun s d => VersionLe (storedVersion s namespace_)
            (storedVersion (statusStep L env namespace_ s d) namespace_)) db deliveries ↔
        Guarded (statusStep L env namespace_) (InOrder namespace_) db deliveries) := by
  refine ⟨columnsOf_run (fun _ h => h) (Or.inl rfl) hgen, ?_⟩
  rw [Runs.guarded_iff, Runs.guarded_iff]
  rw [Runs.guarded_iff] at hgen
  constructor
  · intro h as d bs hes
    exact (versionLe_step_iff (hgen as d bs hes)).mp (h as d bs hes)
  · intro h as d bs hes
    exact (versionLe_step_iff (hgen as d bs hes)).mpr (h as d bs hes)

/-! ## A child that reports two versions -/

/-- The router the reports of the child go to. -/
def familyEnv : Env := ⟨"efdi", "r", "hq"⟩

/-- The payload of a report without an error. -/
def okPayload (version : Int) : PyJson :=
  .dict [("version", .int version), ("health", .str "ok")]

/-- The child of the family signed the reports of the versions 1 and 2. -/
def reportingFamily : Trust.Registry :=
  (Trust.Registry.family Trust.Registry.insideGrant).sign
    [("c3RhdHVzMQ==", 3, signedBytes .status (okPayload 1)),
     ("c3RhdHVzMg==", 3, signedBytes .status (okPayload 2))]

def okStatus1 : StatusDelivery :=
  ⟨.dict [("payload", okPayload 1), ("signature", .str "c3RhdHVzMQ==")], 10⟩

def okStatus2 : StatusDelivery :=
  ⟨.dict [("payload", okPayload 2), ("signature", .str "c3RhdHVzMg==")], 9⟩

theorem genuine_okStatus2 : Genuine reportingFamily.libs familyEnv "hq/c"
    Trust.Registry.enrolledStore okStatus2 :=
  ⟨⟨2, .ok, none⟩, by decide +kernel⟩

/-- The store after the report of version 2. -/
theorem genuine_okStatus1 : Genuine reportingFamily.libs familyEnv "hq/c"
    (statusStep reportingFamily.libs familyEnv "hq/c" Trust.Registry.enrolledStore okStatus2)
    okStatus1 :=
  ⟨⟨1, .ok, none⟩, by decide +kernel⟩

/-- The report of version 1 is delivered after that of version 2, and the stored version
goes from 2 to 1. -/
theorem statusVersion_decreases :
    Guarded (statusStep reportingFamily.libs familyEnv "hq/c")
        (Genuine reportingFamily.libs familyEnv "hq/c") Trust.Registry.enrolledStore
        [okStatus2, okStatus1] ∧
      ¬Guarded (statusStep reportingFamily.libs familyEnv "hq/c")
        (fun s d => VersionLe (storedVersion s "hq/c")
          (storedVersion (statusStep reportingFamily.libs familyEnv "hq/c" s d) "hq/c"))
        Trust.Registry.enrolledStore [okStatus2, okStatus1] := by
  refine ⟨⟨genuine_okStatus2, genuine_okStatus1, trivial⟩, ?_⟩
  rintro ⟨_, hle, _⟩
  have horder := (versionLe_step_iff genuine_okStatus1).mp hle ⟨1, .ok, none⟩ (by decide +kernel)
  have hstored : storedVersion (statusStep reportingFamily.libs familyEnv "hq/c"
      Trust.Registry.enrolledStore okStatus2) "hq/c" = some 2 := by
    decide +kernel
  rw [hstored] at horder
  have hle' : (2 : Int) ≤ 1 := horder
  omega

/-- A first report keeps the order, and its columns are stored. -/
theorem statusVersion_nondecreasing_family :
    Always (statusStep reportingFamily.libs familyEnv "hq/c")
        (ColumnsOf "hq/c" (statusColumns Trust.Registry.enrolledStore "hq/c") [okStatus2])
        Trust.Registry.enrolledStore [okStatus2] ∧
      Guarded (statusStep reportingFamily.libs familyEnv "hq/c")
        (fun s d => VersionLe (storedVersion s "hq/c")
          (storedVersion (statusStep reportingFamily.libs familyEnv "hq/c" s d) "hq/c"))
        Trust.Registry.enrolledStore [okStatus2] := by
  have h := statusVersion_nondecreasing_iff reportingFamily.libs familyEnv "hq/c"
    Trust.Registry.enrolledStore [okStatus2] ⟨genuine_okStatus2, trivial⟩
  refine ⟨h.1, h.2.mpr ⟨?_, trivial⟩⟩
  intro report _
  have hnone : storedVersion Trust.Registry.enrolledStore "hq/c" = none := by decide +kernel
  rw [hnone]
  trivial

end Efdi.Federation

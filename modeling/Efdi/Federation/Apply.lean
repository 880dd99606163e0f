import Efdi.Config.AllOrNothing
import Efdi.Federation.Status

/-!
# Config pushes at a child

`federation_apply.py`.  A router takes a config push from its trusted parent only, and a version
only once.  `judgePush` is everything before `apply_rendered_config`, and `handlePush` is the
handler with the status it publishes.

The version is written before the config is looked at, so a push that is refused later counts as
seen (`judgePush_accepted`).
-/

namespace Efdi.Federation

open Checks
open Trust (Libs)

/-- The files of a router that a push reads and writes. -/
structure Router where
  disk : ConfigDisk
  /-- What `_read_last_seen_version` reads. -/
  lastSeen : Int

/-- What the host answers while a push is handled. -/
structure PushHost where
  /-- The time of the verification. -/
  now : Int
  /-- The certificate of the trusted parent: `none` when none is configured, and the text of the
  exception when it cannot be read. -/
  trustedParent : Option (Except String String)
  /-- `_write_last_seen_version` succeeds. -/
  writesLastSeen : Bool
  /-- The text of the exception of a parser. -/
  exception : String
  activation : Activation

/-- What becomes of a push before `apply_rendered_config`. -/
inductive Judgement where
  /-- There is no trusted parent. -/
  | ignored
  | rejected (version : PyJson) (error : String)
  /-- An exception leaves the handler. -/
  | raised
  | accepted (version : Int) (rendered : String) (fields : ConfigFields)

/-- `_payload_version`. -/
def payloadVersion (envelope : PyJson) : PyJson :=
  match envelope.get? "payload" with
  | some (.dict items) => (PyJson.lookup "version" items).getD (.int (-1))
  | _ => .int (-1)

/-- A version is an integer that is not negative. -/
def signedVersion (payload : PyJson) : Option Int :=
  match payload.get? "version" with
  | some (.int version) => if 0 ≤ version then some version else none
  | _ => none

/-- The settings that a parent cannot change: the label, and whether they agree. -/
def protectedSettings (candidate active : ConfigFields) : List (String × Bool) :=
  [("organization namespace prefix", candidate.namespacePrefix == active.namespacePrefix),
    ("local mTLS listener port", candidate.mtlsPort == active.mtlsPort),
    ("local management listener port", candidate.localTcpPort == active.localTcpPort),
    ("fabric TLS identity profile", candidate.fabricTlsProfile == active.fabricTlsProfile),
    ("fabric certificate-name verification policy",
      candidate.verifyNameOnConnect == active.verifyNameOnConnect)]

/-- The candidate has one of the active endpoints, when there are some. -/
def keepsEndpoint (candidate active : List String) : Bool :=
  active.isEmpty || active.any candidate.contains

/-- The refusal of a candidate by the settings that are active. -/
def protectedError (fields current : ConfigFields) : Option String :=
  match (protectedSettings fields current).find? fun setting => !setting.2 with
  | some (label, _) => some (label ++ " is local-only and cannot be changed by a parent push")
  | none =>
    if keepsEndpoint fields.fabricEndpoints current.fabricEndpoints then none
    else some ("fabric endpoint replacement must be staged: add the new endpoint while " ++
      "retaining an active endpoint, verify it, then remove the old endpoint")

/-- `_federated_candidate_error`. -/
def federatedCandidateError (J : Json5.Library) (own exception : String) (files : ConfigFiles)
    (fields : ConfigFields) : Except PyError (Option String) :=
  if fields.partnerNamespace != own then
    .ok (some "signed config cannot change this router's partner namespace")
  else
    let unreadable := "could not read current protected settings: " ++ exception
    match files.config with
    | none => .ok (some unreadable)
    | some raw =>
      match extractFields J files raw with
      | .error e => if e.caught then .ok (some unreadable) else .error e
      | .ok current => .ok (protectedError fields current)

variable (J : Json5.Library) (L : Libs) (own : String)

/-- The judgement of a text that a trusted parent signed as a fresh version. -/
def judgeCandidate (host : PushHost) (files : ConfigFiles) (version : Int) (rendered : String) :
    Judgement :=
  match extractFields J files rendered with
  | .error e =>
    if e.caught then .rejected (.int version) ("invalid config shape: " ++ host.exception)
    else .raised
  | .ok fields =>
    match federatedCandidateError J own host.exception files fields with
    | .error _ => .raised
    | .ok (some error) => .rejected (.int version) error
    | .ok none => .accepted version rendered fields

/-- The judgement of a payload that a trusted parent signed. -/
def judgePayload (router : Router) (host : PushHost) (payload : PyJson) : Router × Judgement :=
  match signedVersion payload with
  | none => (router, .rejected (.int (-1)) "signed payload has invalid version")
  | some version =>
    match (payload.get? "config").bind PyJson.str? with
    | none => (router, .rejected (.int version) "signed payload config is not text")
    | some rendered =>
      if version ≤ router.lastSeen then
        (router, .rejected (.int version) ("replay rejected: version " ++ toString version ++
          " <= last seen " ++ toString router.lastSeen))
      else if host.writesLastSeen then
        ({ router with lastSeen := version },
          judgeCandidate J own host router.disk.files version rendered)
      else (router, .raised)

/-- `_handle_config_push` up to `apply_rendered_config`.  The envelope is `none` when the bytes
are not JSON. -/
def judgePush (router : Router) (host : PushHost) (envelope : Option PyJson) :
    Router × Judgement :=
  match envelope with
  | none => (router, .rejected (.int (-1)) ("malformed envelope: " ++ host.exception))
  | some envelope =>
    match host.trustedParent with
    | none => (router, .ignored)
    | some parent =>
      let verified := parent.bind fun pem =>
        verifyEnvelope L envelope pem none .config host.now
      match verified with
      | .error e =>
        (router, .rejected (payloadVersion envelope)
          ("trusted parent verification failed: " ++ e))
      | .ok payload => judgePayload J own router host payload

/-- A status that a router publishes. -/
structure Answer where
  version : PyJson
  health : Health
  error : Option String

/-- The text of a status of a result. -/
def applyStatusValue : ApplyStatus → String
  | .applied => "applied"
  | .rejected => "rejected"
  | .rolledBack => "rolled_back"
  | .failed => "failed"

/-- The status that is published for a result. -/
def resultAnswer (version : Int) (result : ApplyResult) : Answer :=
  if result.status = .applied then ⟨.int version, .ok, none⟩
  else
    ⟨.int version, if result.status = .rolledBack then .rolledBack else .rejected,
      some (orText result.error (applyStatusValue result.status))⟩

/-- What handling a push leaves behind. -/
structure Handled where
  router : Router
  /-- The status that is published. -/
  answer : Option Answer
  /-- The call of `apply_rendered_config`. -/
  applied : Option (Int × String × Except String ApplyResult)

/-- `_handle_config_push`. -/
def handlePush (router : Router) (host : PushHost) (envelope : Option PyJson) : Handled :=
  let judged := judgePush J L own router host envelope
  match judged.2 with
  | .ignored => ⟨judged.1, none, none⟩
  | .rejected version error => ⟨judged.1, some ⟨version, .rejected, some error⟩, none⟩
  | .raised => ⟨judged.1, none, none⟩
  | .accepted version rendered fields =>
    let out := applyRenderedConfig host.activation rendered fields true true judged.1.disk
    ⟨{ judged.1 with disk := out.1 }, out.2.toOption.map (resultAnswer version),
      some (version, rendered, out.2)⟩

/-! ## What an accepted push says -/

variable {J L own}

variable {payload : PyJson} {version : Int} {host : PushHost} {rendered : String}
  {fields : ConfigFields}

theorem signedVersion_eq_some (h : signedVersion payload = some version) :
    payload.get? "version" = some (.int version) ∧ 0 ≤ version := by
  rw [signedVersion] at h
  split at h
  next version' hget =>
    split at h
    next hpos =>
      obtain rfl := Option.some.inj h
      exact ⟨hget, hpos⟩
    next => cases h
  next => cases h

/-- A push that gets to `apply_rendered_config`: the parent signed it, its version is fresh and is
written, and the candidate passes the protection. -/
structure Accepted (J : Json5.Library) (L : Libs) (own : String) (router : Router)
    (host : PushHost) (envelope : PyJson) (version : Int) (rendered : String)
    (fields : ConfigFields) : Prop where
  signed : ∃ pem payload, host.trustedParent = some (.ok pem) ∧
    verifyEnvelope L envelope pem none .config host.now = .ok payload ∧
    payload.get? "version" = some (.int version) ∧
    payload.get? "config" = some (.str rendered)
  fresh : router.lastSeen < version
  read : extractFields J router.disk.files rendered = .ok fields
  allowed : federatedCandidateError J own host.exception router.disk.files fields = .ok none

theorem judgeCandidate_accepted {files : ConfigFiles} {version' : Int} {rendered' : String}
    (h : judgeCandidate J own host files version rendered = .accepted version' rendered' fields) :
    version' = version ∧ rendered' = rendered ∧ extractFields J files rendered = .ok fields ∧
      federatedCandidateError J own host.exception files fields = .ok none := by
  rw [judgeCandidate] at h
  split at h
  next =>
    split at h
    · cases h
    · cases h
  next found hread =>
    split at h
    next => cases h
    next => cases h
    next hallowed =>
      cases h
      exact ⟨rfl, rfl, hread, hallowed⟩

theorem judgePush_accepted {router router' : Router} {envelope : Option PyJson}
    (h : judgePush J L own router host envelope =
      (router', .accepted version rendered fields)) :
    ∃ e, envelope = some e ∧ Accepted J L own router host e version rendered fields ∧
      router' = { router with lastSeen := version } := by
  unfold judgePush at h
  split at h
  next => cases h
  next e =>
    refine ⟨e, rfl, ?_⟩
    split at h
    next => cases h
    next parent hparent =>
      simp only at h
      split at h
      next => cases h
      next payload hverified =>
        obtain ⟨pem, hpem, hverify⟩ := bind_eq_ok.mp hverified
        rw [judgePayload] at h
        split at h
        next => cases h
        next signed hversion =>
          split at h
          next => cases h
          next text hconfig =>
            obtain ⟨value, hvalue, htext⟩ := Option.bind_eq_some_iff.mp hconfig
            split at h
            next => cases h
            next hfresh =>
              split at h
              next =>
                obtain ⟨rfl, hjudged⟩ := Prod.mk.inj h
                obtain ⟨hversion', htext', hread, hallowed⟩ := judgeCandidate_accepted hjudged
                subst hversion' htext'
                have hvalue' : payload.get? "config" = some (.str rendered) := by
                  rw [hvalue, PyJson.eq_str htext]
                exact ⟨{ signed := ⟨pem, payload, hparent.trans (congrArg some hpem), hverify,
                           (signedVersion_eq_some hversion).1, hvalue'⟩
                         fresh := by omega
                         read := hread
                         allowed := hallowed }, rfl⟩
              next => cases h

/-- A fresh version whose candidate passes the protection is accepted. -/
theorem judgePayload_of_allowed {router : Router} (hversion : signedVersion payload = some version)
    (hconfig : payload.get? "config" = some (.str rendered)) (hfresh : router.lastSeen < version)
    (hwrites : host.writesLastSeen = true)
    (hread : extractFields J router.disk.files rendered = .ok fields)
    (hallowed : federatedCandidateError J own host.exception router.disk.files fields =
      .ok none) :
    judgePayload J own router host payload =
      ({ router with lastSeen := version }, .accepted version rendered fields) := by
  have hnot : ¬ version ≤ router.lastSeen := by omega
  simp only [judgePayload, hversion, hconfig, Option.bind_some, PyJson.str?, if_neg hnot, hwrites,
    if_true, judgeCandidate, hread, hallowed]

/-! ## A version only once -/

theorem lastSeen_handlePush (router : Router) (envelope : Option PyJson) :
    router.lastSeen ≤ (handlePush J L own router host envelope).router.lastSeen := by
  have hjudged : router.lastSeen ≤ (judgePush J L own router host envelope).1.lastSeen := by
    dsimp only [judgePush, judgePayload]
    repeat' split
    all_goals dsimp only; omega
  rw [handlePush]
  dsimp only
  split <;> exact hjudged

/-- The trusted parent signed a version of a config. -/
def Signs (L : Libs) (version : Int) (push : PushHost × Option PyJson) : Prop :=
  ∃ envelope pem payload, push.2 = some envelope ∧ push.1.trustedParent = some (.ok pem) ∧
    verifyEnvelope L envelope pem none .config push.1.now = .ok payload ∧
      payload.get? "version" = some (.int version)

/-- A push that is applied was signed, and its version is above those that were seen. -/
theorem handlePush_applied {router : Router} {envelope : Option PyJson}
    {call : Int × String × Except String ApplyResult}
    (h : (handlePush J L own router host envelope).applied = some call) :
    router.lastSeen < call.1 ∧ Signs L call.1 (host, envelope) ∧
      (handlePush J L own router host envelope).router.lastSeen = call.1 := by
  rw [handlePush] at h ⊢
  cases hjudged : judgePush J L own router host envelope with
  | mk router' judgement =>
    rw [hjudged] at h
    cases judgement with
    | accepted version rendered fields =>
      obtain ⟨e, rfl, haccepted, rfl⟩ := judgePush_accepted hjudged
      obtain ⟨pem, payload, hparent, hverify, hversion, -⟩ := haccepted.signed
      cases h
      exact ⟨haccepted.fresh, ⟨e, pem, payload, rfl, hparent, hverify, hversion⟩, rfl⟩
    | _ => cases h

variable (J L own) in
/-- The versions that a run of pushes brings to `apply_rendered_config`. -/
def appliedVersions : Router → List (PushHost × Option PyJson) → List Int
  | _, [] => []
  | router, (host, envelope) :: pushes =>
    let handled := handlePush J L own router host envelope
    (handled.applied.map Prod.fst).toList ++ appliedVersions handled.router pushes

/-- The versions that a run of pushes applies grow, and the trusted parent signed each. -/
theorem appliedVersions_increase (router : Router) (pushes : List (PushHost × Option PyJson)) :
    (router.lastSeen :: appliedVersions J L own router pushes).Pairwise (· < ·) ∧
      ∀ version ∈ appliedVersions J L own router pushes, ∃ push ∈ pushes, Signs L version push := by
  induction pushes generalizing router with
  | nil => exact ⟨List.pairwise_singleton _ _, nofun⟩
  | cons push pushes ih =>
    obtain ⟨host, envelope⟩ := push
    obtain ⟨hgrow, hsigned⟩ := ih (handlePush J L own router host envelope).router
    have hlater := fun v hv => (hsigned v hv).imp fun push hpush =>
      And.imp_left (List.mem_cons_of_mem (host, envelope)) hpush
    rw [appliedVersions]
    cases happlied : (handlePush J L own router host envelope).applied with
    | none =>
      refine ⟨List.pairwise_cons.mpr ⟨fun v hv => ?_, hgrow.of_cons⟩, hlater⟩
      exact (lastSeen_handlePush router envelope).trans_lt (List.rel_of_pairwise_cons hgrow hv)
    | some call =>
      obtain ⟨hfresh, hsigns, hseen⟩ := handlePush_applied happlied
      rw [hseen] at hgrow
      show (_ :: call.1 :: _).Pairwise _ ∧ ∀ v ∈ call.1 :: _, _
      refine ⟨List.pairwise_cons.mpr ⟨?_, hgrow⟩, ?_⟩
      · refine List.forall_mem_cons.mpr ⟨hfresh, fun v hv => ?_⟩
        exact hfresh.trans (List.rel_of_pairwise_cons hgrow hv)
      · exact List.forall_mem_cons.mpr ⟨⟨_, .head _, hsigns⟩, hlater⟩

/-! ## A genuine push -/

/-- A genuine envelope verifies. -/
theorem verifyEnvelope_of_signed {envelope : PyJson} {signature : L.Sig} {pem : String}
    {certificate : L.Cert} {purpose : Purpose} {now : Int}
    (hparts : envelopeParts L envelope = .ok (payload, signature))
    (hpem : L.loadPem pem = some certificate)
    (hkey : L.isEcdsaP256 (L.publicKey certificate) = true)
    (hwindow : L.notValidBefore certificate ≤ now ∧ now < L.notValidAfter certificate)
    (hdict : payload.isDict = true)
    (hverify : L.verify (L.publicKey certificate) signature (signedBytes purpose payload) = true) :
    verifyEnvelope L envelope pem none purpose now = .ok payload := by
  have hvalid : (decide (now < L.notValidBefore certificate) ||
      decide (now ≥ L.notValidAfter certificate)) = false := by
    rw [Bool.or_eq_false_iff, decide_eq_false_iff_not, decide_eq_false_iff_not]
    omega
  simp only [verifyEnvelope, hparts, ok_bind, hpem, commonNameMismatch, Option.any_none, hkey,
    Bool.not_true, hvalid, canonicalize, if_pos hdict, hverify]
  rfl

/-- A router that signed one payload, with the policy certificate `Trust.Registry.digest 1`. -/
def parentOf (payload : PyJson) : Trust.Registry :=
  ⟨Trust.Registry.familyCerts, [("cHVzaA==", 1, signedBytes .config payload)],
    Trust.Registry.length_familyCerts⟩

/-- The envelope of the payload. -/
def pushed (payload : PyJson) : PyJson :=
  .dict [("payload", payload), ("signature", .str "cHVzaA==")]

/-- A host on which a push of that parent is handled, with a router that becomes healthy or does
not. -/
def pushHost (health : Bool) : PushHost where
  now := 10
  trustedParent := some (.ok (Trust.Registry.digest 1))
  writesLastSeen := true
  exception := ""
  activation := podHost health

theorem verifyEnvelope_pushed (h : payload.isDict = true) :
    verifyEnvelope (parentOf payload).libs (pushed payload) (Trust.Registry.digest 1) none .config
      10 = .ok payload := by
  have hparts : envelopeParts (parentOf payload).libs (pushed payload) =
      .ok (payload, "cHVzaA==") := rfl
  have hpem : (List.finRange Trust.Registry.familyCerts.length).find?
      (fun c : Fin Trust.Registry.familyCerts.length =>
        Trust.Registry.digest c == Trust.Registry.digest 1) = some ⟨1, by decide⟩ := by
    decide +kernel
  have hwindow : (0 : Int) ≤ 10 ∧ (10 : Int) < 50 := by decide
  exact verifyEnvelope_of_signed hparts hpem rfl hwindow h
    (decide_eq_true (List.mem_singleton.mpr rfl))

/-- A genuine push is judged by its payload. -/
theorem judgePush_pushed (h : payload.isDict = true) (router : Router) (health : Bool) :
    judgePush J (parentOf payload).libs own router (pushHost health) (some (pushed payload)) =
      judgePayload J own router (pushHost health) payload := by
  have hverify := verifyEnvelope_pushed h
  simp only [judgePush, pushHost, Except.bind, hverify]

end Efdi.Federation

import Efdi.Federation.Apply

/-!
# Protected settings

What a parent push cannot change.  The guard compares a candidate as the child reads it back
with the active config as the child reads it back.  The ports, the TLS profile, the name
verification and the endpoints come back from the text as they were rendered, so the guard sees
them.  The namespace prefix comes from the prefix file of the child on both sides, so the guard
compares it with itself, and the partner namespace is the one that the child makes of the data
root with its own data prefix.

`protected_iff` says that a push that gets to `apply_rendered_config` agrees with what is
active in all other settings, and when it agrees in these two.
-/

namespace Efdi.Federation

open Checks
open Trust (Libs)

/-- A candidate agrees with the settings of a child: its namespace, the active config in the
protected settings, and one of the active endpoints is kept. -/
structure AgreesOnProtected (own : String) (f current : ConfigFields) : Prop where
  partnerNamespace : f.partnerNamespace = own
  namespacePrefix : f.namespacePrefix = current.namespacePrefix
  mtlsPort : f.mtlsPort = current.mtlsPort
  localTcpPort : f.localTcpPort = current.localTcpPort
  fabricTlsProfile : f.fabricTlsProfile = current.fabricTlsProfile
  verifyNameOnConnect : f.verifyNameOnConnect = current.verifyNameOnConnect
  endpoints : current.fabricEndpoints ≠ [] → ∃ e ∈ current.fabricEndpoints, e ∈ f.endpoints

variable {J : Json5.Library} {L : Libs} {own : String}

/-! ## Reading back -/

theorem orRaise_eq_ok {α : Type} {e : PyError} {o : Option α} {a : α} :
    orRaise e o = .ok a ↔ o = some a := by
  cases o with
  | none => exact ⟨fun h => (by cases h), fun h => (by cases h)⟩
  | some b => exact ⟨fun h => congrArg some (Except.ok.inj h), fun h => congrArg _ (Option.some.inj h)⟩

/-- The validators raise or give fields with these values. -/
theorem validated_eq_ok {v : ConfigValues} {g : ConfigFields} :
    orRaise .value v.validate.toOption = .ok g ↔
      g.toConfigValues = { v with publishPrefix := PyStr.stripChar '/' v.publishPrefix } := by
  rw [orRaise_eq_ok, ← ConfigValues.validate_eq_ok]
  cases v.validate with
  | error e => exact ⟨fun h => (by cases h), fun h => (by cases h)⟩
  | ok g' => exact ⟨fun h => congrArg _ (Option.some.inj h), fun h => congrArg _ (Except.ok.inj h)⟩

/-- The namespace prefix of a config is that of the prefix file, whatever the text is. -/
theorem namespacePrefix_extractFields {files : ConfigFiles} {raw : String} {g : ConfigFields}
    (h : extractFields J files raw = .ok g) : g.namespacePrefix = files.namespacePrefix := by
  simp only [extractFields, bind_eq_ok] at h
  obtain ⟨_, -, _, -, _, -, _, -, _, -, _, -, _, -, _, -, _, -, _, -, _, -, _, -, _, -, _, -,
    _, -, _, -, _, -, ⟨_, _⟩, -, _, -, _, -, _, -, _, -, _, -, _, -, _, -, _, -, _, -, _, -, h⟩ := h
  exact congrArg ConfigValues.namespacePrefix (validated_eq_ok.mp h)

/-! ## The guard -/

/-- What the guard lets through. -/
structure LetThrough (J : Json5.Library) (own : String) (files : ConfigFiles)
    (fields : ConfigFields) (current : ConfigFields) : Prop where
  active : ∃ raw, files.config = some raw ∧ extractFields J files raw = .ok current
  partnerNamespace : fields.partnerNamespace = own
  agrees : ∀ setting ∈ protectedSettings fields current, setting.2 = true
  endpoint : keepsEndpoint fields.fabricEndpoints current.fabricEndpoints = true

theorem letThrough_of_allowed {exception : String} {files : ConfigFiles} {fields : ConfigFields}
    (h : federatedCandidateError J own exception files fields = .ok none) :
    ∃ current, LetThrough J own files fields current := by
  rw [federatedCandidateError] at h
  split at h
  next => cases h
  next hpartner =>
    dsimp only at h
    split at h
    next => cases h
    next raw hraw =>
      split at h
      next =>
        split at h
        · cases h
        · cases h
      next current hcurrent =>
        have hnone : protectedError fields current = none := Except.ok.inj h
        rw [protectedError] at hnone
        split at hnone
        next => cases hnone
        next hfind =>
          split at hnone
          next hendpoint =>
            refine ⟨current, ⟨raw, hraw, hcurrent⟩, ?_, ?_, hendpoint⟩
            · simpa using hpartner
            · intro setting hsetting
              simpa using List.find?_eq_none.mp hfind setting hsetting
          next => cases hnone

/-- One of the active endpoints is kept, when there are some. -/
theorem mem_of_keepsEndpoint {candidate active : List String}
    (h : keepsEndpoint candidate active = true) (hne : active ≠ []) :
    ∃ e ∈ active, e ∈ candidate := by
  rw [keepsEndpoint, Bool.or_eq_true, List.isEmpty_iff] at h
  obtain ⟨e, he, hcontains⟩ := List.any_eq_true.mp (h.resolve_left hne)
  exact ⟨e, he, List.contains_iff_mem.mp hcontains⟩

/-- A push that gets to `apply_rendered_config` agrees on everything protected exactly when the
fields that the parent rendered have the namespace prefix of the child, and their partner
namespace is read back by the child as it is. -/
theorem protected_iff (hJ : J.Lawful) {f : ConfigFields} {rendered : String}
    (hrender : renderConfig J f = .ok rendered) {router router' : Router} {host : PushHost}
    {envelope : Option PyJson} {version : Int} {fields : ConfigFields}
    (h : judgePush J L own router host envelope = (router', .accepted version rendered fields)) :
    ∃ raw current, router.disk.files.config = some raw ∧
      extractFields J router.disk.files raw = .ok current ∧
      (AgreesOnProtected own f current ↔
        f.namespacePrefix = router.disk.files.namespacePrefix ∧
          readBack router.disk.files.dataPrefix
            (dataTopicRoot f.publishPrefix f.partnerNamespace) = f.partnerNamespace) := by
  obtain ⟨e, rfl, haccepted, -⟩ := judgePush_accepted h
  obtain ⟨current, hguard⟩ := letThrough_of_allowed haccepted.allowed
  obtain ⟨raw, hraw, hcurrent⟩ := hguard.active
  obtain ⟨hline, rfl⟩ := (renderConfig_ok_iff hJ).mp hrender
  have hread := haccepted.read
  rw [extractFields_renderedText hJ _ hline, validated_eq_ok] at hread
  have hprefix := namespacePrefix_extractFields hcurrent
  have hpartner : readBack router.disk.files.dataPrefix
      (dataTopicRoot f.publishPrefix f.partnerNamespace) = own := by
    rw [← hguard.partnerNamespace, congrArg ConfigValues.partnerNamespace hread]
    rfl
  refine ⟨raw, current, hraw, hcurrent, ?_⟩
  constructor
  · intro hagrees
    exact ⟨hagrees.namespacePrefix.trans hprefix, hpartner.trans hagrees.partnerNamespace.symm⟩
  · rintro ⟨hfile, hkept⟩
    have hagrees := hguard.agrees
    simp only [protectedSettings, List.forall_mem_cons, beq_iff_eq] at hagrees
    obtain ⟨-, hmtls, hlocal, hprofile, hverify, -⟩ := hagrees
    constructor
    case partnerNamespace => exact hkept.symm.trans hpartner
    case namespacePrefix => exact hfile.trans hprefix.symm
    case mtlsPort => exact (congrArg ConfigValues.mtlsPort hread).symm.trans hmtls
    case localTcpPort => exact (congrArg ConfigValues.localTcpPort hread).symm.trans hlocal
    case fabricTlsProfile =>
      exact (congrArg ConfigValues.fabricTlsProfile hread).symm.trans hprofile
    case verifyNameOnConnect =>
      exact (congrArg ConfigValues.verifyNameOnConnect hread).symm.trans hverify
    case endpoints =>
      intro hne
      obtain ⟨endpoint, hactive, hcandidate⟩ := mem_of_keepsEndpoint hguard.endpoint hne
      rw [congrArg ConfigValues.fabricEndpoints hread] at hcandidate
      exact ⟨endpoint, hactive, hcandidate⟩

/-! ## A push with another prefix -/

/-- Fields of a pod under a prefix. -/
def prefixedFields (namespacePrefix : String)
    (h : safeMatch namespaceChar namespacePrefix = true) : ConfigFields where
  toConfigValues := { (podFields "pod1" pod1_named).toConfigValues with namespacePrefix }
  valid := ConfigFields.errors_eq_nil.mpr
    { (podFields "pod1" pod1_named).ok with namespacePrefix := h }
  stripped := rfl

theorem efdi_named : safeMatch namespaceChar "EFDI" = true := by decide

/-- The config text of a pod under a prefix. -/
def prefixedText (namespacePrefix : String)
    (h : safeMatch namespaceChar namespacePrefix = true) : String :=
  renderedText Json5.reader (prefixedFields namespacePrefix h)

theorem oneLine_prefixedFields {namespacePrefix : String}
    (h : safeMatch namespaceChar namespacePrefix = true) (hline : '\n' ∉ namespacePrefix.toList) :
    (prefixedFields namespacePrefix h).OneLine := by
  refine ⟨?_, ?_, hline⟩
  · show '\n' ∉ "pod1".toList
    decide
  · show '\n' ∉ "EFDI/in".toList
    decide

/-- A pod that runs on a config under the prefix `EFDI`. -/
def prefixedRouter : Router where
  disk :=
    { config := some (prefixedText "EFDI" efdi_named)
      lastKnownGood := none
      prefixFile := some "EFDI\n"
      dataPrefixFile := some "\n"
      prefixEnv := "EFDI"
      dataPrefixEnv := none }
  lastSeen := -1

set_option maxRecDepth 20000 in
theorem return_notMem_routerTemplate : '\r' ∉ routerTemplate.toList := by
  have hchars : ∃ cs, routerTemplate = String.ofList cs ∧ '\r' ∉ cs := ⟨_, rfl, by decide +kernel⟩
  obtain ⟨cs, hcs, hnot⟩ := hchars
  rw [hcs, String.toList_ofList]
  exact hnot

theorem newlines_prefixedText :
    PyStr.newlines (prefixedText "EFDI" (by decide)) = prefixedText "EFDI" (by decide) := by
  refine PyStr.newlines_of_notMem fun h => ?_
  have hvalues : ∀ kv ∈ (prefixedFields "EFDI" (by decide)).substitutions Json5.reader,
      '\r' ∉ kv.2.toList := by decide +kernel
  rcases Template.mem_replaceAll h with ⟨kv, hmem, hvalue⟩ | htemplate
  · exact hvalues kv hmem hvalue
  · exact return_notMem_routerTemplate htemplate

/-- What the pod runs on. -/
def prefixedCurrent : ConfigFields := (prefixedFields "EFDI" (by decide)).normalised

theorem extractFields_prefixedText {namespacePrefix : String}
    (h : safeMatch namespaceChar namespacePrefix = true) (hline : '\n' ∉ namespacePrefix.toList) :
    extractFields Json5.reader prefixedRouter.disk.files (prefixedText namespacePrefix h) =
      .ok prefixedCurrent := by
  have hvalues : (prefixedFields namespacePrefix h).readValues prefixedRouter.disk.files =
      (prefixedFields "EFDI" (by decide)).readValues prefixedRouter.disk.files := rfl
  have hown : extractFields Json5.reader prefixedRouter.disk.files
      (prefixedText "EFDI" (by decide)) = .ok prefixedCurrent :=
    (extractFields_renderedText_iff Json5.reader_lawful
      (oneLine_prefixedFields (by decide) (by decide)) ⟨"EFDI\n", by decide, by decide⟩
      ⟨"\n", by decide, by decide⟩).mpr ⟨by decide, fun _ => by decide⟩
  rw [prefixedText, extractFields_renderedText Json5.reader_lawful _
    (oneLine_prefixedFields (by decide) (by decide))] at hown
  rw [prefixedText, extractFields_renderedText Json5.reader_lawful _
    (oneLine_prefixedFields h hline), hvalues]
  exact hown

/-- A candidate that is what is active is let through. -/
theorem protectedError_self (g : ConfigFields) : protectedError g g = none := by
  have hsettings : (protectedSettings g g).find? (fun setting => !setting.2) = none := by
    simp [protectedSettings]
  have hendpoint : keepsEndpoint g.fabricEndpoints g.fabricEndpoints = true := by
    rw [keepsEndpoint, Bool.or_eq_true]
    cases g.fabricEndpoints with
    | nil => exact Or.inl rfl
    | cons e es => exact Or.inr (by simp)
  rw [protectedError, hsettings]
  exact if_pos hendpoint

/-- What is active is let through at its own router. -/
theorem federatedCandidateError_self {exception raw : String} {files : ConfigFiles}
    {current : ConfigFields} (hraw : files.config = some raw)
    (hcurrent : extractFields J files raw = .ok current) (hown : current.partnerNamespace = own) :
    federatedCandidateError J own exception files current = .ok none := by
  have hpartner : (current.partnerNamespace != own) = false := by rw [hown, bne_self_eq_false]
  simp [federatedCandidateError, hpartner, hraw, hcurrent, protectedError_self]

/-- A payload with the config of a pod under another prefix. -/
def prefixPayload : PyJson :=
  .dict [("version", .int 1), ("config", .str (prefixedText "OTHER" (by decide)))]

theorem config_prefixedRouter :
    prefixedRouter.disk.files.config = some (prefixedText "EFDI" (by decide)) :=
  congrArg some newlines_prefixedText

theorem judgePush_prefixPayload :
    judgePush Json5.reader (parentOf prefixPayload).libs "pod1" prefixedRouter (pushHost true)
        (some (pushed prefixPayload)) =
      ({ prefixedRouter with lastSeen := 1 },
        .accepted 1 (prefixedText "OTHER" (by decide)) prefixedCurrent) :=
  (judgePush_pushed rfl prefixedRouter true).trans
    (judgePayload_of_allowed rfl rfl (by decide) rfl
      (extractFields_prefixedText (by decide) (by decide))
      (federatedCandidateError_self config_prefixedRouter
        (extractFields_prefixedText (by decide) (by decide)) rfl))

/-- The statement about protected settings, for a push with another prefix. -/
theorem protected_iff_prefix :
    ∃ raw current, prefixedRouter.disk.files.config = some raw ∧
      extractFields Json5.reader prefixedRouter.disk.files raw = .ok current ∧
      (AgreesOnProtected "pod1" (prefixedFields "OTHER" (by decide)) current ↔
        "OTHER" = prefixedRouter.disk.files.namespacePrefix ∧
          readBack prefixedRouter.disk.files.dataPrefix (dataTopicRoot "" "pod1") = "pod1") :=
  protected_iff Json5.reader_lawful
    ((renderConfig_ok_iff Json5.reader_lawful).mpr
      ⟨oneLine_prefixedFields (by decide) (by decide), rfl⟩)
    judgePush_prefixPayload

/-- A push with another prefix gets to `apply_rendered_config`. -/
theorem prefix_not_protected :
    renderConfig Json5.reader (prefixedFields "OTHER" (by decide)) =
        .ok (prefixedText "OTHER" (by decide)) ∧
      judgePush Json5.reader (parentOf prefixPayload).libs "pod1" prefixedRouter (pushHost true)
          (some (pushed prefixPayload)) =
        ({ prefixedRouter with lastSeen := 1 },
          .accepted 1 (prefixedText "OTHER" (by decide)) prefixedCurrent) ∧
      prefixedRouter.disk.files.config = some (prefixedText "EFDI" (by decide)) ∧
      extractFields Json5.reader prefixedRouter.disk.files (prefixedText "EFDI" (by decide)) =
        .ok prefixedCurrent ∧
      ¬ AgreesOnProtected "pod1" (prefixedFields "OTHER" (by decide)) prefixedCurrent := by
  refine ⟨(renderConfig_ok_iff Json5.reader_lawful).mpr
      ⟨oneLine_prefixedFields (by decide) (by decide), rfl⟩, judgePush_prefixPayload,
    config_prefixedRouter, extractFields_prefixedText (by decide) (by decide),
    fun h => ?_⟩
  have hprefix : "OTHER" = prefixedCurrent.namespacePrefix := h.namespacePrefix
  exact absurd hprefix (by decide)

end Efdi.Federation

import Efdi.Admin.UploadEffects

/-!
# Uploads that fail

The source writes the certificates, then `.env`, and then activates a config, which alone is
rolled back when it fails.  So an upload that fails later than its first write leaves what it
has written.

For either request, whatever fails, the condition says exactly when a request that is not applied
changes nothing: `Bootstrap.failsClean_iff` and `Backbone.failsClean_iff`.  Along runs of uploads
and of services that start, `Sound` keeps each certificate with its key, and the router and the
native services under one namespace.
-/

namespace Efdi.Admin.Identities

open Checks List Except
open Control (Settings.readEnv Settings.writeEnv)
open Overwrites (made perform put writesOf)
open Runs

/-- The settings that name the namespace. -/
def namespaceKeys : List String := ["PARTNER_NAMESPACE", "NAMESPACE_PREFIX"]

/-- The certificate files, the config of the backbone router and the namespace are as before. -/
structure Unchanged (before after : Pod) : Prop where
  files : ∀ path, after.files.get? path = before.files.get? path
  backboneConfig : after.backboneConfig = before.backboneConfig
  env : ∀ key ∈ namespaceKeys,
    (Settings.readEnv after.env).get? key = (Settings.readEnv before.env).get? key

/-- A request that is not applied changes nothing. -/
def FailsClean {α : Type} (before : Pod) (out : Pod × Except UploadError α) : Prop :=
  out.2.isOk = false → Unchanged before out.1

/-! ## The first identity -/

namespace Bootstrap

variable (P : Panel) (faults : BootstrapFaults) (upload : BootstrapUpload)

/-- The writes to the certificate files that are made. -/
def madeWrites : List (String × Pem) :=
  if (upload.check P).isOk then made faults.disk (bootstrapCalls P upload) else []

/-- The certificate files are written as a whole. -/
def staged : Bool :=
  (upload.check P).isOk &&
    (bootstrapCalls P upload).all fun call => (faults.disk call.name).isNone

/-- The settings that are saved. -/
def savedSettings : Option (PyDict String String) :=
  if staged P faults upload && (bootstrapConfig P faults.templateFound upload).isOk then
    savedUpdates P faults.envUpdate (bootstrapSettings upload)
  else none

/-- The request gets to the activation of a config. -/
def Activates (fields : ConfigFields) (rendered : String) : Prop :=
  staged P faults upload = true ∧
    bootstrapConfig P faults.templateFound upload = .ok (fields, rendered) ∧
      Answered P faults.envUpdate (bootstrapSettings upload)

variable (pod : Pod)

/-- Nothing fails, and the router accepts the config. -/
def Completes : Prop :=
  ∃ fields rendered, Activates P faults upload fields rendered ∧
    ReachesWrites faults.host fields pod.disk ∧ Accepts faults.host false

/-- What was written was there. -/
structure Harmless (pod : Pod) : Prop where
  files : ∀ w ∈ madeWrites P faults upload, pod.files.get? w.1 = some w.2
  env : savedSettings P faults upload ≠ none →
    ∀ entry ∈ bootstrapSettings upload,
      (Settings.readEnv pod.env).get? entry.1 = some entry.2

variable {P faults upload}

/-- The pod behind the writes that were made and the settings that were saved. -/
def written (P : Panel) (faults : BootstrapFaults) (upload : BootstrapUpload)
    (prefixFile : Option String) (pod : Pod) : Pod :=
  { pod with
    files := put (madeWrites P faults upload) pod.files
    env := (savedSettings P faults upload).elim pod.env (Settings.writeEnv pod.env)
    disk := { pod.disk with prefixFile } }

theorem staged_iff : staged P faults upload = true ↔
    (upload.check P).isOk = true ∧
      ∀ call ∈ bootstrapCalls P upload, faults.disk call.name = none := by
  simp [staged]

/-- A request that does not get behind its files. -/
theorem upload_of_not_staged (h : staged P faults upload = false) (pod : Pod) :
    ∃ e, uploadBootstrapIdentity P faults upload pod =
      (written P faults upload pod.disk.prefixFile pod, .error e) := by
  have hsettings : savedSettings P faults upload = none := by
    rw [savedSettings, h]
    rfl
  rw [written, hsettings, uploadBootstrapIdentity, madeWrites]
  cases hcheck : upload.check P with
  | error e =>
    have hmade : (if (error e : Except UploadError Unit).isOk then
        made faults.disk (bootstrapCalls P upload) else []) = [] := rfl
    rw [hmade, Overwrites.put_nil]
    exact ⟨e, rfl⟩
  | ok u =>
    cases hraises : (perform faults.disk (bootstrapCalls P upload) pod.files).2 with
    | some e =>
      refine ⟨bootstrapWriteError P e, ?_⟩
      simp only [hraises, Overwrites.perform_fst]
      rfl
    | none =>
      have hstaged := staged_iff.mpr
        ⟨by rw [hcheck]; rfl, Overwrites.perform_snd_eq_none_iff.mp hraises⟩
      rw [h] at hstaged
      cases hstaged

/-- A request that gets behind its files. -/
theorem upload_of_staged (h : staged P faults upload = true) (pod : Pod) :
    uploadBootstrapIdentity P faults upload pod =
      switchRouter P faults upload
        { pod with files := put (madeWrites P faults upload) pod.files } := by
  obtain ⟨hcheck, hcalls⟩ := staged_iff.mp h
  obtain ⟨u, hu⟩ := isOk_iff.mp hcheck
  have hraises : (perform faults.disk (bootstrapCalls P upload) pod.files).2 = none :=
    Overwrites.perform_snd_eq_none_iff.mpr hcalls
  rw [uploadBootstrapIdentity, madeWrites, hcheck, hu]
  simp only [hraises, Overwrites.perform_fst]
  rfl

/-- `.env` behind a `PUT` of settings. -/
theorem savedEnv_eq (hstaged : staged P faults upload = true)
    (hconfig : (bootstrapConfig P faults.templateFound upload).isOk = true) (env : Option String) :
    savedEnv P faults.envUpdate (bootstrapSettings upload) env =
      (savedSettings P faults upload).elim env (Settings.writeEnv env) := by
  rw [savedEnv, savedSettings, hstaged, hconfig]
  cases savedUpdates P faults.envUpdate (bootstrapSettings upload) <;> rfl

/-- A request that does not get to the activation fails, and has made its writes. -/
theorem upload_of_not_activates
    (h : ¬∃ fields rendered, Activates P faults upload fields rendered) (pod : Pod) :
    ∃ e prefixFile, uploadBootstrapIdentity P faults upload pod =
      (written P faults upload prefixFile pod, .error e) := by
  cases hstaged : staged P faults upload with
  | false =>
    obtain ⟨e, heq⟩ := upload_of_not_staged hstaged pod
    exact ⟨e, pod.disk.prefixFile, heq⟩
  | true =>
    rw [upload_of_staged hstaged, switchRouter]
    cases hconfig : bootstrapConfig P faults.templateFound upload with
    | error e =>
      have hsettings : savedSettings P faults upload = none := by
        rw [savedSettings, hconfig, hstaged]
        rfl
      refine ⟨e, pod.disk.prefixFile, ?_⟩
      rw [written, hsettings]
      rfl
    | ok config =>
      have hok : (bootstrapConfig P faults.templateFound upload).isOk = true := by
        rw [hconfig]
        rfl
      obtain ⟨prefixFile, hfst⟩ := controlEnvUpdate_fst (P := P) faults.envUpdate
        (bootstrapSettings upload)
        { pod with files := put (madeWrites P faults upload) pod.files }
      cases hsnd : (controlEnvUpdate P faults.envUpdate (bootstrapSettings upload)
          { pod with files := put (madeWrites P faults upload) pod.files }).2 with
      | none =>
        exact absurd ⟨config.1, config.2, hstaged, hconfig,
          (controlEnvUpdate_snd _ _ _).mp hsnd⟩ h
      | some e =>
        simp only [hsnd]
        refine ⟨_, prefixFile, Prod.ext ?_ rfl⟩
        rw [hfst, written, savedEnv_eq hstaged hok]

/-- A request that gets to the activation is applied when the activation is. -/
theorem upload_of_activates {fields : ConfigFields} {rendered : String}
    (h : Activates P faults upload fields rendered) (pod : Pod) :
    ∃ prefixFile,
      (uploadBootstrapIdentity P faults upload pod).1 =
        ((written P faults upload prefixFile pod).activate faults.host rendered fields
          faults.restarts).1 ∧
      ((uploadBootstrapIdentity P faults upload pod).2.isOk = true ↔
        ReachesWrites faults.host fields pod.disk ∧ Accepts faults.host false) := by
  obtain ⟨hstaged, hconfig, hanswered⟩ := h
  have hok : (bootstrapConfig P faults.templateFound upload).isOk = true := by
    rw [hconfig]
    rfl
  obtain ⟨prefixFile, hfst⟩ := controlEnvUpdate_fst (P := P) faults.envUpdate
    (bootstrapSettings upload) { pod with files := put (madeWrites P faults upload) pod.files }
  have hsnd := (controlEnvUpdate_snd (P := P) faults.envUpdate (bootstrapSettings upload)
    { pod with files := put (madeWrites P faults upload) pod.files }).mpr hanswered
  have hwritten : (controlEnvUpdate P faults.envUpdate (bootstrapSettings upload)
      { pod with files := put (madeWrites P faults upload) pod.files }).1 =
        written P faults upload prefixFile pod := by
    rw [hfst, written, savedEnv_eq hstaged hok]
  have happlied := @isApplied_applyRenderedConfig faults.host rendered fields true false
    (written P faults upload prefixFile pod).disk
  have hreaches : ReachesWrites faults.host fields (written P faults upload prefixFile pod).disk ↔
      ReachesWrites faults.host fields pod.disk := Iff.rfl
  refine ⟨prefixFile, ?_⟩
  rw [upload_of_staged hstaged, switchRouter, hconfig]
  simp only [hsnd, hwritten]
  rw [← hreaches, ← happlied]
  have hsame : ((written P faults upload prefixFile pod).activate faults.host rendered fields
      faults.restarts).2 = (applyRenderedConfig faults.host rendered fields true false
        (written P faults upload prefixFile pod).disk).2 := by
    rw [Pod.activate]
    cases (applyRenderedConfig faults.host rendered fields true false
      (written P faults upload prefixFile pod).disk).2 <;> rfl
  rw [← hsame]
  cases hout : ((written P faults upload prefixFile pod).activate faults.host rendered fields
      faults.restarts).2 with
  | error e => exact ⟨rfl, Iff.rfl⟩
  | ok result =>
    by_cases hstatus : result.status = .applied
    · simp only [hstatus, ne_eq, not_true_eq_false, if_false]
      refine ⟨trivial, ?_⟩
      simp [isApplied, hstatus, Except.isOk, Except.toBool]
    · simp only [hstatus, ne_eq, not_false_eq_true, if_true]
      refine ⟨trivial, ?_⟩
      simp [isApplied, hstatus, Except.isOk, Except.toBool]

/-- What a request leaves in the stores, wherever it ends. -/
theorem upload_frame :
    (uploadBootstrapIdentity P faults upload pod).1.files =
        put (madeWrites P faults upload) pod.files ∧
      (uploadBootstrapIdentity P faults upload pod).1.env =
          (savedSettings P faults upload).elim pod.env (Settings.writeEnv pod.env) ∧
        (uploadBootstrapIdentity P faults upload pod).1.backboneConfig = pod.backboneConfig := by
  by_cases hactivates : ∃ fields rendered, Activates P faults upload fields rendered
  · obtain ⟨fields, rendered, h⟩ := hactivates
    obtain ⟨prefixFile, hfst, -⟩ := upload_of_activates h pod
    obtain ⟨hfiles, henv, hconfig⟩ := activate_frame (written P faults upload prefixFile pod)
      faults.host rendered fields faults.restarts
    rw [hfst]
    exact ⟨hfiles, henv, hconfig⟩
  · obtain ⟨e, prefixFile, heq⟩ := upload_of_not_activates hactivates pod
    rw [heq]
    exact ⟨rfl, rfl, rfl⟩

theorem applied_iff :
    (uploadBootstrapIdentity P faults upload pod).2.isOk = true ↔
      Completes P faults upload pod := by
  constructor
  · intro hok
    by_cases hactivates : ∃ fields rendered, Activates P faults upload fields rendered
    · obtain ⟨fields, rendered, h⟩ := hactivates
      obtain ⟨-, -, happlied⟩ := upload_of_activates h pod
      exact ⟨fields, rendered, h, happlied.mp hok⟩
    · obtain ⟨e, prefixFile, heq⟩ := upload_of_not_activates hactivates pod
      rw [heq] at hok
      cases hok
  · rintro ⟨fields, rendered, h, haccepts⟩
    obtain ⟨-, -, happlied⟩ := upload_of_activates h pod
    exact happlied.mpr haccepts

theorem agree_madeWrites : Overwrites.Agree (madeWrites P faults upload) := by
  rw [madeWrites]
  split
  · refine Overwrites.Agree.made ?_ faults.disk
    rw [writesOf_bootstrapCalls]
    exact agree_identityWrites
  · intro v hv
    cases hv

/-- The settings that are saved hold the namespaces of the upload. -/
theorem get?_savedSettings {updates : PyDict String String}
    (h : savedSettings P faults upload = some updates) :
    ∀ entry ∈ bootstrapSettings upload, updates.get? entry.1 = some entry.2 := by
  have hsaved : savedUpdates P faults.envUpdate (bootstrapSettings upload) = some updates := by
    rw [savedSettings] at h
    split at h
    · exact h
    · cases h
  rw [accept_settingsBody (savedUpdates_eq_some_iff.mp hsaved).1]
  intro entry hentry
  refine Overwrites.get?_put_of_mem ?_ hentry
  intro v hv w hw hkey
  simp only [bootstrapSettings, mem_cons, not_mem_nil, or_false] at hv hw
  rcases hv with rfl | rfl
  · rcases hw with rfl | rfl
    · rfl
    · exact absurd hkey (by simp)
  · rcases hw with rfl | rfl
    · exact absurd hkey (by simp)
    · rfl

/-- A setting that is saved is read as it is in the upload. -/
theorem readEnv_savedSettings {updates : PyDict String String}
    (h : savedSettings P faults upload = some updates) (env : Option String) :
    ∀ entry ∈ bootstrapSettings upload,
      (Settings.readEnv (Settings.writeEnv env updates)).get? entry.1 = some entry.2 := by
  intro entry hentry
  have hsaved : savedUpdates P faults.envUpdate (bootstrapSettings upload) = some updates := by
    rw [savedSettings] at h
    split at h
    · exact h
    · cases h
  rw [readEnv_saved hsaved, get?_savedSettings h entry hentry]

/-- A request leaves everything as it was exactly when what it wrote was there. -/
theorem unchanged_iff :
    Unchanged pod (uploadBootstrapIdentity P faults upload pod).1 ↔
      Harmless P faults upload pod := by
  obtain ⟨hfiles, henv, hconfig⟩ := upload_frame (P := P) pod
  have hwrites : (∀ path, (put (madeWrites P faults upload) pod.files).get? path =
      pod.files.get? path) ↔
      ∀ w ∈ madeWrites P faults upload, pod.files.get? w.1 = some w.2 :=
    Overwrites.put_unchanged_iff agree_madeWrites
  have hkeys : (∀ key ∈ namespaceKeys,
      (Settings.readEnv (uploadBootstrapIdentity P faults upload pod).1.env).get? key =
        (Settings.readEnv pod.env).get? key) ↔
      (savedSettings P faults upload ≠ none → ∀ entry ∈ bootstrapSettings upload,
        (Settings.readEnv pod.env).get? entry.1 = some entry.2) := by
    rw [henv]
    cases hsettings : savedSettings P faults upload with
    | none => simp
    | some updates =>
      have hread := readEnv_savedSettings hsettings pod.env
      simp only [bootstrapSettings, namespaceKeys, forall_mem_cons, not_mem_nil,
        false_imp_iff, implies_true, and_true, Option.elim_some, ne_eq, reduceCtorEq,
        not_false_eq_true, forall_const] at hread ⊢
      rw [hread.1, hread.2]
      exact ⟨fun h => ⟨h.1.symm, h.2.symm⟩, fun h => ⟨h.1.symm, h.2.symm⟩⟩
  constructor
  · intro h
    refine ⟨hwrites.mp fun path => ?_, hkeys.mp h.env⟩
    rw [← hfiles]
    exact h.files path
  · intro h
    refine ⟨fun path => ?_, hconfig, hkeys.mpr h.env⟩
    rw [hfiles]
    exact hwrites.mpr h.files path

/-- A request that is not applied changes nothing exactly when it completes or what it wrote was
there. -/
theorem failsClean_iff :
    FailsClean pod (uploadBootstrapIdentity P faults upload pod) ↔
      Completes P faults upload pod ∨ Harmless P faults upload pod := by
  rw [FailsClean, unchanged_iff, ← applied_iff, ← Bool.not_eq_true]
  exact Classical.or_iff_not_imp_left.symm

end Bootstrap

/-! ## The identity of the backbone router -/

/-- The text that an attempt to write a config leaves in the file, if it opens it. -/
def ConfigWrite.leaves (rendered : String) : ConfigWrite → Option String
  | .done => some rendered
  | .notOpened _ => none
  | .cut _ text => some text

namespace Backbone

variable (P : Panel) (faults : BackboneFaults) (upload : BackboneUpload)

/-- The endpoints of a request that gets behind its checks. -/
def checked : Option (List String) :=
  match parseBackboneEndpoint P upload.backboneEndpoint, upload.check P.x509 with
  | .ok endpoints, .ok () => some endpoints
  | _, _ => none

/-- The settings that are saved. -/
def savedSettings : Option (PyDict String String) :=
  (checked P upload).bind fun endpoints =>
    savedUpdates P faults.envUpdate (backboneSettings P endpoints)

/-- The writes to the certificate files that are made. -/
def madeWrites : List (String × Pem) :=
  if (checked P upload).isSome then made faults.disk (backboneCalls P upload.toIdentityFiles)
  else []

/-- The certificate files are written as a whole. -/
def staged : Bool :=
  (backboneCalls P upload.toIdentityFiles).all fun call => (faults.disk call.name).isNone

/-- The text that the config of the backbone router is left with, when it is written. -/
def configText : Option String := do
  let endpoints ← checked P upload
  require (staged P faults upload)
  let rendered ← (renderBackboneConfig P faults.template endpoints).toOption
  require (faults.disk (.makeDirs P.backboneConfigDir)).isNone
  faults.configWrite.leaves rendered

/-- Nothing fails but the saving of the settings, and the router starts. -/
def Completes : Prop :=
  (checked P upload).isSome = true ∧ staged P faults upload = true ∧ faults.template ≠ none ∧
    faults.disk (.makeDirs P.backboneConfigDir) = none ∧ faults.configWrite = .done ∧
      ∃ output, faults.start = .ok (true, output)

/-- `.env` is cut in the same lines by who writes it and by who reads it, as far as the namespace
goes. -/
def CutsAgree (env : Option String) : Prop :=
  ∀ key ∈ namespaceKeys,
    (Control.Settings.settings (Control.Settings.cutLines env)).get? key =
      (Settings.readEnv env).get? key

/-- What was written was there. -/
structure Harmless (pod : Pod) : Prop where
  files : ∀ w ∈ madeWrites P faults upload, pod.files.get? w.1 = some w.2
  env : savedSettings P faults upload ≠ none → CutsAgree pod.env
  backboneConfig : ∀ text, configText P faults upload = some text →
    pod.backboneConfig = some text

variable {P faults upload}

/-- The pod behind what was written, before services are started. -/
def written (P : Panel) (faults : BackboneFaults) (upload : BackboneUpload)
    (prefixFile : Option String) (pod : Pod) : Pod :=
  { pod with
    files := put (madeWrites P faults upload) pod.files
    env := (savedSettings P faults upload).elim pod.env (Settings.writeEnv pod.env)
    disk := { pod.disk with prefixFile }
    backboneConfig := (configText P faults upload).or pod.backboneConfig }

theorem staged_iff : staged P faults upload = true ↔
    ∀ call ∈ backboneCalls P upload.toIdentityFiles, faults.disk call.name = none := by
  simp [staged]

variable (pod : Pod)

theorem startServices_none : pod.startServices (fun _ => false) = pod := rfl

/-- The config of the backbone router is written behind the certificates. -/
theorem configureBackbone_eq {endpoints : List String}
    (hchecked : checked P upload = some endpoints) (hstaged : staged P faults upload = true) :
    (configureBackbone P faults endpoints pod).1 =
        { pod with backboneConfig := (configText P faults upload).or pod.backboneConfig } ∧
      ((configureBackbone P faults endpoints pod).2 = .ok () ↔
        faults.template ≠ none ∧ faults.disk (.makeDirs P.backboneConfigDir) = none ∧
          faults.configWrite = .done) := by
  have htext : configText P faults upload =
      (renderBackboneConfig P faults.template endpoints).toOption.bind fun rendered =>
        (require (faults.disk (.makeDirs P.backboneConfigDir)).isNone).bind fun _ =>
          faults.configWrite.leaves rendered := by
    rw [configText, hchecked, hstaged]
    rfl
  rw [htext, configureBackbone]
  cases faults.template with
  | none => exact ⟨rfl, by simp [renderBackboneConfig]⟩
  | some template =>
    cases faults.disk (.makeDirs P.backboneConfigDir) with
    | some e => exact ⟨rfl, by simp [renderBackboneConfig]⟩
    | none =>
      cases faults.configWrite with
      | done => exact ⟨rfl, by simp [renderBackboneConfig]⟩
      | notOpened e => exact ⟨rfl, by simp [renderBackboneConfig]⟩
      | cut e text => exact ⟨rfl, by simp [renderBackboneConfig]⟩

/-- What a request leaves in the stores, wherever it ends, and when it is applied. -/
theorem upload_eq (P : Panel) (faults : BackboneFaults) (upload : BackboneUpload) (pod : Pod) :
    ∃ prefixFile starts,
      (uploadBackboneIdentity P faults upload pod).1 =
        (written P faults upload prefixFile pod).startServices starts ∧
      ((uploadBackboneIdentity P faults upload pod).2.isOk = true ↔
        Completes P faults upload) := by
  cases hchecked : checked P upload with
  | none =>
    have hrefused : ∃ e, uploadBackboneIdentity P faults upload pod = (pod, .error e) := by
      rw [checked] at hchecked
      rw [uploadBackboneIdentity]
      cases hparse : parseBackboneEndpoint P upload.backboneEndpoint with
      | error e => exact ⟨e, rfl⟩
      | ok endpoints =>
        cases hcheck : upload.check P.x509 with
        | error e => exact ⟨e, rfl⟩
        | ok u =>
          rw [hparse, hcheck] at hchecked
          cases hchecked
    obtain ⟨e, heq⟩ := hrefused
    refine ⟨pod.disk.prefixFile, fun _ => false, ?_⟩
    have hmade : madeWrites P faults upload = [] := by
      rw [madeWrites, hchecked]
      rfl
    rw [heq, startServices_none, written, hmade, Overwrites.put_nil, savedSettings, configText,
      Completes, hchecked]
    exact ⟨rfl, by simp [Except.isOk, Except.toBool]⟩
  | some endpoints =>
    obtain ⟨hparse, hcheck⟩ : parseBackboneEndpoint P upload.backboneEndpoint = .ok endpoints ∧
        upload.check P.x509 = .ok () := by
      rw [checked] at hchecked
      cases hparse : parseBackboneEndpoint P upload.backboneEndpoint with
      | error e =>
        rw [hparse] at hchecked
        cases hchecked
      | ok parsed =>
        cases hcheck : upload.check P.x509 with
        | error e =>
          rw [hparse, hcheck] at hchecked
          cases hchecked
        | ok u =>
          rw [hparse, hcheck] at hchecked
          exact ⟨congrArg Except.ok (Option.some.inj hchecked), rfl⟩
    obtain ⟨prefixFile, hfst⟩ := controlEnvUpdate_fst (P := P) faults.envUpdate
      (backboneSettings P endpoints) pod
    have henv : savedEnv P faults.envUpdate (backboneSettings P endpoints) pod.env =
        (savedSettings P faults upload).elim pod.env (Settings.writeEnv pod.env) := by
      rw [savedEnv, savedSettings, hchecked, Option.bind_some]
      cases savedUpdates P faults.envUpdate (backboneSettings P endpoints) <;> rfl
    have hmade : madeWrites P faults upload =
        made faults.disk (backboneCalls P upload.toIdentityFiles) := by
      rw [madeWrites, hchecked]
      rfl
    rw [uploadBackboneIdentity, hparse, hcheck]
    simp only [hfst, henv, Overwrites.perform_fst, ← hmade]
    cases hstaged : staged P faults upload with
    | false =>
      have hconfig : configText P faults upload = none := by
        rw [configText, hchecked, hstaged]
        rfl
      have hraises : (perform faults.disk (backboneCalls P upload.toIdentityFiles)
          pod.files).2 ≠ none := by
        rw [Ne, Overwrites.perform_snd_eq_none_iff, ← staged_iff, hstaged]
        exact Bool.false_ne_true
      obtain ⟨e, he⟩ := Option.ne_none_iff_exists'.mp hraises
      refine ⟨prefixFile, fun _ => false, ?_⟩
      rw [startServices_none, written, hconfig, Completes, hstaged]
      simp only [he]
      exact ⟨rfl, by simp [Except.isOk, Except.toBool]⟩
    | true =>
      have hraises : (perform faults.disk (backboneCalls P upload.toIdentityFiles)
          pod.files).2 = none :=
        Overwrites.perform_snd_eq_none_iff.mpr (staged_iff.mp hstaged)
      obtain ⟨hconfigured, hok⟩ := configureBackbone_eq
        { written P faults upload prefixFile pod with backboneConfig := pod.backboneConfig }
        hchecked hstaged
      simp only [hraises]
      cases hsnd : (configureBackbone P faults endpoints
          { written P faults upload prefixFile pod with
            backboneConfig := pod.backboneConfig }).2 with
      | error e =>
        have hnot : ¬Completes P faults upload := fun h => by
          rw [hok.mpr ⟨h.2.2.1, h.2.2.2.1, h.2.2.2.2.1⟩] at hsnd
          cases hsnd
        refine ⟨prefixFile, fun _ => false, ?_⟩
        rw [startServices_none]
        rw [written] at hsnd hconfigured ⊢
        simp only [hsnd]
        exact ⟨hconfigured, by simp [hnot, Except.isOk, Except.toBool]⟩
      | ok u =>
        obtain ⟨htemplate, hdir, hwrite⟩ := hok.mp hsnd
        rw [written] at hsnd hconfigured
        simp only [hsnd, hconfigured, startBackbone]
        rw [Completes, hchecked, hstaged, hdir, hwrite]
        cases hstart : faults.start with
        | error e =>
          refine ⟨prefixFile, fun _ => false, ?_⟩
          rw [startServices_none]
          exact ⟨rfl, by simp [Except.isOk, Except.toBool]⟩
        | ok start =>
          obtain ⟨ok, output⟩ := start
          cases ok with
          | false =>
            refine ⟨prefixFile, fun _ => false, ?_⟩
            rw [startServices_none]
            exact ⟨rfl, by simp [Except.isOk, Except.toBool]⟩
          | true =>
            refine ⟨prefixFile, faults.starts, ?_, ?_⟩
            · rw [written]
              rfl
            · simp [htemplate, Except.isOk, Except.toBool]

theorem agree_madeWrites : Overwrites.Agree (madeWrites P faults upload) := by
  rw [madeWrites]
  split
  · refine Overwrites.Agree.made ?_ faults.disk
    rw [writesOf_backboneCalls]
    exact agree_identityWrites
  · intro v hv
    cases hv

/-- The namespace is not among the settings that are saved. -/
theorem readEnv_savedSettings {updates : PyDict String String}
    (h : savedSettings P faults upload = some updates) (env : Option String) :
    ∀ key ∈ namespaceKeys, (Settings.readEnv (Settings.writeEnv env updates)).get? key =
      (Control.Settings.settings (Control.Settings.cutLines env)).get? key := by
  intro key hkey
  obtain ⟨endpoints, -, hsaved⟩ := Option.bind_eq_some_iff.mp h
  have hnone : updates.get? key = none := by
    rw [accept_settingsBody (savedUpdates_eq_some_iff.mp hsaved).1]
    refine Overwrites.get?_put_of_notMem fun w hw => ?_
    simp only [backboneSettings, mem_cons, not_mem_nil, or_false] at hw
    simp only [namespaceKeys, mem_cons, not_mem_nil, or_false] at hkey
    rcases hw with rfl | rfl
    · rcases hkey with rfl | rfl <;> simp
    · rcases hkey with rfl | rfl <;> simp
  rw [readEnv_saved hsaved, hnone]

theorem upload_frame (P : Panel) (faults : BackboneFaults) (upload : BackboneUpload) (pod : Pod) :
    (uploadBackboneIdentity P faults upload pod).1.files =
        put (madeWrites P faults upload) pod.files ∧
      (uploadBackboneIdentity P faults upload pod).1.env =
          (savedSettings P faults upload).elim pod.env (Settings.writeEnv pod.env) ∧
        (uploadBackboneIdentity P faults upload pod).1.backboneConfig =
          (configText P faults upload).or pod.backboneConfig := by
  obtain ⟨prefixFile, starts, heq, -⟩ := upload_eq P faults upload pod
  obtain ⟨natives, hstarted, -⟩ := foldl_startNative (backboneServices.filter starts)
    (written P faults upload prefixFile pod)
  rw [heq, Pod.startServices, hstarted, written]
  exact ⟨rfl, rfl, rfl⟩

/-- A request leaves everything as it was exactly when what it wrote was there. -/
theorem unchanged_iff :
    Unchanged pod (uploadBackboneIdentity P faults upload pod).1 ↔
      Harmless P faults upload pod := by
  obtain ⟨hfiles, henv, hconfig⟩ := upload_frame P faults upload pod
  have hwrites : (∀ path, (put (madeWrites P faults upload) pod.files).get? path =
      pod.files.get? path) ↔
      ∀ w ∈ madeWrites P faults upload, pod.files.get? w.1 = some w.2 :=
    Overwrites.put_unchanged_iff agree_madeWrites
  have htext : (configText P faults upload).or pod.backboneConfig = pod.backboneConfig ↔
      ∀ text, configText P faults upload = some text → pod.backboneConfig = some text := by
    cases configText P faults upload with
    | none => simp
    | some text => simp [eq_comm]
  have hkeys : (∀ key ∈ namespaceKeys,
      (Settings.readEnv (uploadBackboneIdentity P faults upload pod).1.env).get? key =
        (Settings.readEnv pod.env).get? key) ↔
      (savedSettings P faults upload ≠ none → CutsAgree pod.env) := by
    rw [henv]
    cases hsettings : savedSettings P faults upload with
    | none => simp
    | some updates =>
      have hread := readEnv_savedSettings hsettings pod.env
      constructor
      · intro h _ key hkey
        exact (hread key hkey).symm.trans (h key hkey)
      · intro h key hkey
        exact (hread key hkey).trans (h (by simp) key hkey)
  constructor
  · intro h
    refine ⟨hwrites.mp fun path => ?_, hkeys.mp h.env, htext.mp ?_⟩
    · rw [← hfiles]
      exact h.files path
    · rw [← hconfig]
      exact h.backboneConfig
  · intro h
    refine ⟨fun path => ?_, ?_, hkeys.mpr h.env⟩
    · rw [hfiles]
      exact hwrites.mpr h.files path
    · rw [hconfig]
      exact htext.mpr h.backboneConfig

/-- A request that is not applied changes nothing exactly when it completes or what it wrote was
there. -/
theorem failsClean_iff :
    FailsClean pod (uploadBackboneIdentity P faults upload pod) ↔
      Completes P faults upload ∨ Harmless P faults upload pod := by
  obtain ⟨prefixFile, starts, -, happlied⟩ := upload_eq P faults upload pod
  rw [FailsClean, unchanged_iff, ← happlied, ← Bool.not_eq_true]
  exact Classical.or_iff_not_imp_left.symm

end Backbone

end Efdi.Admin.Identities

import Efdi.Admin.IdentityUploads

/-!
# What an upload leaves behind

The writes of the two requests, and what a request that ends anywhere leaves in each store.

A certificate slot is named by what its two paths share: `certPath base` and `keyPath base`.  The
writes of a request go to a few slots, and each slot that is written gets a certificate and its
key (`matched_identityWrites`).
-/

namespace Efdi.Admin.Identities

open Checks List String
open Overwrites (Agree Call made perform put writesOf)
open Control (Settings.accept Settings.readEnv Settings.writeEnv)

/-! ## Paths -/

theorem joinPath_eq (directory name : String) : ∃ base, joinPath directory name = base ++ name := by
  rw [joinPath]
  split
  · exact ⟨"", empty_append.symm⟩
  · split
    · exact ⟨directory, rfl⟩
    · exact ⟨directory ++ "/", rfl⟩

variable {name : String} {floatStr : PyFloat → String} {values : List (String × String)}
  {updates : PyDict String String}

/-- What is behind the first character of a name does not matter. -/
theorem joinPath_append (directory : String) (h : name ≠ "") (rest : String) :
    joinPath directory (name ++ rest) = joinPath directory name ++ rest := by
  have hstarts : PyStr.startsWith (name ++ rest) "/" = PyStr.startsWith name "/" := by
    cases hname : name.toList with
    | nil => exact absurd (String.toList_inj.mp hname) h
    | cons c cs =>
      rw [PyStr.startsWith, PyStr.startsWith, String.toList_append, hname]
      simp [List.isPrefixOf]
  rw [joinPath, joinPath, hstarts]
  split
  · rfl
  · split
    · rw [String.append_assoc]
    · rw [String.append_assoc, String.append_assoc, String.append_assoc]

theorem endsWith_append (base : String) {ending : String}
    (h : ending.toList.length ≤ name.toList.length) :
    PyStr.endsWith (base ++ name) ending = PyStr.endsWith name ending := by
  rw [PyStr.endsWith, PyStr.endsWith, Bool.eq_iff_iff, isSuffixOf_iff_suffix,
    isSuffixOf_iff_suffix, toList_append]
  constructor
  · intro hsuffix
    exact suffix_of_suffix_length_le hsuffix (suffix_append _ _) h
  · intro hsuffix
    exact hsuffix.trans (suffix_append _ _)

/-- The certificate of a slot. -/
def certPath (base : String) : String := base ++ "cert.pem"

/-- The key of a slot. -/
def keyPath (base : String) : String := base ++ "key.pem"

/-- A path that is in no slot. -/
def IsRoot (path : String) : Prop :=
  PyStr.endsWith path "cert.pem" = false ∧ PyStr.endsWith path "key.pem" = false

theorem endsWith_certPath (base : String) : PyStr.endsWith (certPath base) "cert.pem" = true := by
  rw [certPath, endsWith_append base (by decide)]
  decide

theorem endsWith_keyPath (base : String) :
    PyStr.endsWith (keyPath base) "key.pem" = true ∧
      PyStr.endsWith (keyPath base) "cert.pem" = false := by
  rw [keyPath, endsWith_append base (by decide)]
  refine ⟨by decide, ?_⟩
  rw [PyStr.endsWith, ← Bool.not_eq_true, isSuffixOf_iff_suffix, toList_append]
  intro hsuffix
  have hcert : "ert.pem".toList <:+ base.toList ++ "key.pem".toList :=
    List.IsSuffix.trans (by decide) hsuffix
  have hkey : "ert.pem".toList <:+ "key.pem".toList :=
    suffix_of_suffix_length_le hcert (suffix_append _ _) (by decide)
  exact absurd hkey (by decide)

theorem certPath_inj {base base' : String} (h : certPath base = certPath base') : base = base' := by
  have hlist := congrArg toList h
  rw [certPath, certPath, toList_append, toList_append] at hlist
  exact toList_inj.mp (append_cancel_right hlist)

theorem keyPath_inj {base base' : String} (h : keyPath base = keyPath base') : base = base' := by
  have hlist := congrArg toList h
  rw [keyPath, keyPath, toList_append, toList_append] at hlist
  exact toList_inj.mp (append_cancel_right hlist)

theorem isRoot_joinPath (directory : String) (hlength : 8 ≤ name.toList.length) (h : IsRoot name) :
    IsRoot (joinPath directory name) := by
  obtain ⟨base, hbase⟩ := joinPath_eq directory name
  have hcert : "cert.pem".toList.length ≤ name.toList.length := hlength
  have hkey : "key.pem".toList.length ≤ name.toList.length := by
    show 7 ≤ name.toList.length
    omega
  rw [IsRoot, hbase, endsWith_append base hcert, endsWith_append base hkey]
  exact h

/-! ## The writes of an identity -/

/-- A CA file, and the slot beside it. -/
structure Place where
  root : String
  base : String
  apart : IsRoot root

/-- An identity is written to some places. -/
def identityWrites (files : IdentityFiles) (places : List Place) : List (String × Pem) :=
  places.flatMap fun place =>
    [(place.root, files.caPem), (certPath place.base, files.certPem),
      (keyPath place.base, files.keyPem)]

section Writes

variable {files : IdentityFiles} {places : List Place}

/-- The file that is written to a path. -/
def IdentityFiles.at (files : IdentityFiles) (path : String) : Pem :=
  if PyStr.endsWith path "cert.pem" then files.certPem
  else if PyStr.endsWith path "key.pem" then files.keyPem
  else files.caPem

theorem eq_at_of_mem {w : String × Pem} (h : w ∈ identityWrites files places) :
    w.2 = files.at w.1 := by
  obtain ⟨place, -, hw⟩ := mem_flatMap.mp h
  simp only [mem_cons, not_mem_nil, or_false] at hw
  rcases hw with rfl | rfl | rfl
  · rw [IdentityFiles.at, place.apart.1, place.apart.2]
    rfl
  · rw [IdentityFiles.at, endsWith_certPath]
    rfl
  · rw [IdentityFiles.at, (endsWith_keyPath place.base).1, (endsWith_keyPath place.base).2]
    rfl

theorem agree_identityWrites : Agree (identityWrites files places) := by
  intro v hv w hw hpath
  rw [eq_at_of_mem hv, eq_at_of_mem hw, hpath]

/-- A CA file is no part of a slot. -/
theorem Place.ne_root (place : Place) (base : String) :
    certPath base ≠ place.root ∧ keyPath base ≠ place.root := by
  constructor
  · intro hroot
    have hcert := place.apart.1
    rw [← hroot, endsWith_certPath] at hcert
    cases hcert
  · intro hroot
    have hkey := place.apart.2
    rw [← hroot, (endsWith_keyPath base).1] at hkey
    cases hkey

theorem certPath_ne_keyPath (base other : String) : certPath base ≠ keyPath other := by
  intro hpath
  have hkey := (endsWith_keyPath other).2
  rw [← hpath, endsWith_certPath] at hkey
  cases hkey

/-- A certificate is written together with its key. -/
theorem certPath_mem_iff {base : String} :
    (∃ pem, (certPath base, pem) ∈ identityWrites files places) ↔
      ∃ place ∈ places, place.base = base := by
  have hinj : ∀ other, certPath base = certPath other ↔ other = base :=
    fun other => ⟨fun h => (certPath_inj h).symm, fun h => h ▸ rfl⟩
  simp [identityWrites, (Place.ne_root _ _).1, certPath_ne_keyPath, hinj]

theorem keyPath_mem_iff {base : String} :
    (∃ pem, (keyPath base, pem) ∈ identityWrites files places) ↔
      ∃ place ∈ places, place.base = base := by
  have hinj : ∀ other, keyPath base = keyPath other ↔ other = base :=
    fun other => ⟨fun h => (keyPath_inj h).symm, fun h => h ▸ rfl⟩
  simp [identityWrites, (Place.ne_root _ _).2, (certPath_ne_keyPath _ _).symm, hinj]

end Writes

/-- A slot holds no certificate, or one with its key. -/
def Matched (X : X509) (files : PyDict String Pem) (base : String) : Prop :=
  ∀ certPem, files.get? (certPath base) = some certPem →
    ∃ keyPem, files.get? (keyPath base) = some keyPem ∧ X.Matches certPem keyPem

/-- What passes the checks of an upload is a certificate with its key. -/
theorem matches_of_check {X : X509} {files : IdentityFiles} (h : files.check X = .ok ()) :
    X.Matches files.certPem files.keyPem := by
  simp only [IdentityFiles.check, bind_eq_ok] at h
  obtain ⟨-, -, -, -, -, -, hload⟩ := h
  rw [loadIdentity] at hload
  cases hca : X.loadCertificate files.caPem with
  | error e =>
    rw [hca] at hload
    cases hload
  | ok caCert =>
    cases hcert : X.loadCertificate files.certPem with
    | error e =>
      rw [hca, hcert] at hload
      cases hload
    | ok leafCert =>
      cases hkey : X.loadPrivateKey files.keyPem with
      | error e =>
        rw [hca, hcert, hkey] at hload
        cases hload
      | ok privateKey =>
        rw [hca, hcert, hkey] at hload
        refine ⟨leafCert, privateKey, hcert, hkey, ?_⟩
        by_contra hne
        have hraise : (X.leafPubDer leafCert != X.keyPubDer privateKey) = true := by
          simpa using hne
        simp only [Except.mapError, ok_bind, hraise, rejectIf, if_true, error_bind] at hload
        cases hload

/-- An identity that is written as a whole leaves every slot that was matched so. -/
theorem matched_identityWrites {X : X509} {files : IdentityFiles} {places : List Place}
    {store : PyDict String Pem} (hfiles : X.Matches files.certPem files.keyPem) {base : String}
    (h : Matched X store base) : Matched X (put (identityWrites files places) store) base := by
  intro certPem hcert
  by_cases hplace : ∃ place ∈ places, place.base = base
  · obtain ⟨pem, hmem⟩ : ∃ pem, (certPath base, pem) ∈ identityWrites files places :=
      certPath_mem_iff.mpr hplace
    obtain ⟨pem', hmem'⟩ : ∃ pem, (keyPath base, pem) ∈ identityWrites files places :=
      keyPath_mem_iff.mpr hplace
    have hpem : pem = files.certPem := by
      have heq := eq_at_of_mem hmem
      rwa [IdentityFiles.at, endsWith_certPath] at heq
    have hpem' : pem' = files.keyPem := by
      have heq := eq_at_of_mem hmem'
      rwa [IdentityFiles.at, (endsWith_keyPath base).1, (endsWith_keyPath base).2] at heq
    rw [Overwrites.get?_put_of_mem agree_identityWrites hmem] at hcert
    refine ⟨pem', Overwrites.get?_put_of_mem agree_identityWrites hmem', ?_⟩
    rw [← Option.some.inj hcert, hpem, hpem']
    exact hfiles
  · have hnone : ∀ w ∈ identityWrites files places, w.1 ≠ certPath base := fun w hw hpath =>
      hplace (certPath_mem_iff.mp ⟨w.2, by rw [← hpath]; exact hw⟩)
    have hnone' : ∀ w ∈ identityWrites files places, w.1 ≠ keyPath base := fun w hw hpath =>
      hplace (keyPath_mem_iff.mp ⟨w.2, by rw [← hpath]; exact hw⟩)
    rw [Overwrites.get?_put_of_notMem hnone] at hcert
    rw [Overwrites.get?_put_of_notMem hnone']
    exact h certPem hcert

/-! ## The writes of the two requests -/

/-- The certificate slots of a pod. -/
inductive Slot where
  | router
  | own (partnerNamespace : String)
  | backbone
  | primaryBackbone

def Slot.base (P : Panel) : Slot → String
  | .router => joinPath P.routerTlsDir "pod-"
  | .own partnerNamespace => joinPath P.ownCertDir (partnerNamespace ++ "-")
  | .backbone => joinPath P.backboneTlsDir ""
  | .primaryBackbone => joinPath P.primaryBackboneDir ""

theorem joinPath_empty (h : PyStr.startsWith name "/" = false) (directory : String) :
    joinPath directory name = joinPath directory "" ++ name := by
  have hempty : ¬PyStr.startsWith "" "/" = true := by decide
  rw [joinPath, joinPath, if_neg (by rw [h]; exact Bool.false_ne_true), if_neg hempty]
  split
  · rw [append_empty]
  · rw [append_empty]

variable (P : Panel)

/-- Where the first identity is written. -/
def bootstrapPlaces (partnerNamespace : String) : List Place :=
  [⟨joinPath P.routerTlsDir "ca-roots.pem", Slot.router.base P,
      isRoot_joinPath _ (by decide) ⟨by decide, by decide⟩⟩,
    ⟨joinPath P.ownCertDir "efdi-ca-root.pem", (Slot.own partnerNamespace).base P,
      isRoot_joinPath _ (by decide) ⟨by decide, by decide⟩⟩]

/-- Where the identity of the backbone router is written. -/
def backbonePlaces : List Place :=
  [⟨joinPath P.backboneTlsDir "ca-roots.pem", Slot.backbone.base P,
      isRoot_joinPath _ (by decide) ⟨by decide, by decide⟩⟩,
    ⟨joinPath P.primaryBackboneDir "ca-roots.pem", Slot.primaryBackbone.base P,
      isRoot_joinPath _ (by decide) ⟨by decide, by decide⟩⟩]

theorem writesOf_bootstrapCalls (upload : BootstrapUpload) :
    writesOf (bootstrapCalls P upload) =
      identityWrites upload.toIdentityFiles (bootstrapPlaces P upload.partnerNamespace) := by
  have hname : upload.partnerNamespace ++ "-" ≠ "" := by
    intro hempty
    have hlength := congrArg (fun s => s.toList.length) hempty
    simp at hlength
  have hrouter : ∀ rest, joinPath P.routerTlsDir ("pod-" ++ rest) = Slot.router.base P ++ rest :=
    joinPath_append P.routerTlsDir (by decide)
  have hown : ∀ rest, joinPath P.ownCertDir (upload.partnerNamespace ++ "-" ++ rest) =
      (Slot.own upload.partnerNamespace).base P ++ rest := joinPath_append P.ownCertDir hname
  have hcert : upload.partnerNamespace ++ "-cert.pem" =
      upload.partnerNamespace ++ "-" ++ "cert.pem" := by rw [String.append_assoc]; rfl
  have hkey : upload.partnerNamespace ++ "-key.pem" =
      upload.partnerNamespace ++ "-" ++ "key.pem" := by rw [String.append_assoc]; rfl
  rw [bootstrapCalls, hcert, hkey, hown, hown, show "pod-cert.pem" = "pod-" ++ "cert.pem" from rfl,
    show "pod-key.pem" = "pod-" ++ "key.pem" from rfl, hrouter, hrouter]
  rfl

theorem writesOf_backboneCalls (files : IdentityFiles) :
    writesOf (backboneCalls P files) = identityWrites files (backbonePlaces P) := by
  have hcert : PyStr.startsWith "cert.pem" "/" = false := by decide
  have hkey : PyStr.startsWith "key.pem" "/" = false := by decide
  rw [backboneCalls, joinPath_empty hcert, joinPath_empty hkey, joinPath_empty hcert,
    joinPath_empty hkey]
  rfl

/-! ## Settings -/

variable {P}

theorem checkEntry_str {key value text : String}
    (h : Control.Settings.checkEntry floatStr key (.str value) = .ok text) : text = value := by
  rw [Control.Settings.checkEntry] at h
  split at h
  · cases h
  · change (if '\r' ∈ value.toList ∨ '\n' ∈ value.toList then _ else _) = _ at h
    split at h
    · cases h
    · change (if _ then _ else _) = _ at h
      split at h
      · cases h
      · exact (Except.ok.inj h).symm

theorem collect_str {result : PyDict String String} (h : Control.Settings.collect floatStr updates
      (values.map fun entry => (entry.1, .str entry.2)) = .ok result) :
    result = values.foldl (fun updates entry => updates.set entry.1 entry.2) updates := by
  induction values generalizing updates with
  | nil => exact (Except.ok.inj h).symm
  | cons entry values ih =>
    rw [map_cons, Control.Settings.collect] at h
    cases htext : Control.Settings.checkEntry floatStr entry.1 (.str entry.2) with
    | error e =>
      rw [htext] at h
      cases h
    | ok text =>
      rw [htext] at h
      rw [foldl_cons, ← checkEntry_str htext]
      exact ih h

/-- The updates of a `PUT` of texts are the texts. -/
theorem accept_settingsBody (h : Settings.accept floatStr (settingsBody values) = .ok updates) :
    updates = put values PyDict.empty := by
  rw [put]
  rw [settingsBody, Settings.accept] at h
  change (if _ then _ else _) = _ at h
  split at h
  · cases h
  · exact collect_str h

/-- The update gets to the file. -/
def EnvUpdate.saves : EnvUpdate → Bool
  | .refused _ => false
  | _ => true

/-- What a `PUT` of settings saves, when it gets to the file. -/
def savedUpdates (P : Panel) (outcome : EnvUpdate) (values : List (String × String)) :
    Option (PyDict String String) :=
  if outcome.saves then (Settings.accept P.floatStr (settingsBody values)).toOption else none

theorem savedUpdates_eq_some_iff {outcome : EnvUpdate} :
    savedUpdates P outcome values = some updates ↔
      Settings.accept P.floatStr (settingsBody values) = .ok updates ∧ outcome.saves = true := by
  rw [savedUpdates]
  cases outcome.saves with
  | false => simp
  | true =>
    cases Settings.accept P.floatStr (settingsBody values) with
    | error e => simp [Except.toOption]
    | ok saved => simp [Except.toOption]

/-- The setting of a key that is saved, or that is not. -/
theorem readEnv_saved {outcome : EnvUpdate} (h : savedUpdates P outcome values = some updates)
    (env : Option String) (key : String) :
    (Settings.readEnv (Settings.writeEnv env updates)).get? key =
      match updates.get? key with
      | some value => some value
      | none => (Control.Settings.settings (Control.Settings.cutLines env)).get? key := by
  have hclean : Control.Settings.Clean updates := by
    obtain ⟨haccept, -⟩ := savedUpdates_eq_some_iff.mp h
    exact Control.Settings.clean_of_accept haccept
  rw [Control.Settings.readEnv_writeEnv hclean]
  exact Control.Settings.get?_outputLines hclean _ key

/-- `.env` after a `PUT` of settings. -/
def savedEnv (P : Panel) (outcome : EnvUpdate) (values : List (String × String))
    (env : Option String) : Option String :=
  match savedUpdates P outcome values with
  | some updates => Settings.writeEnv env updates
  | none => env

theorem writeSettings_eq (pod : Pod) (updates : PyDict String String) :
    ∃ prefixFile, pod.writeSettings updates =
      { pod with
        env := Settings.writeEnv pod.env updates
        disk := { pod.disk with prefixFile } } := by
  rw [Pod.writeSettings]
  cases updates.get? "NAMESPACE_PREFIX" with
  | none => exact ⟨pod.disk.prefixFile, rfl⟩
  | some value =>
    by_cases hvalue : value = ""
    · exact ⟨pod.disk.prefixFile, if_pos hvalue⟩
    · exact ⟨some (value ++ "\n"), if_neg hvalue⟩

/-- A `PUT` of settings changes `.env` and the prefix file. -/
theorem controlEnvUpdate_fst (outcome : EnvUpdate) (values : List (String × String)) (pod : Pod) :
    ∃ prefixFile, (controlEnvUpdate P outcome values pod).1 =
      { pod with
        env := savedEnv P outcome values pod.env
        disk := { pod.disk with prefixFile } } := by
  rw [controlEnvUpdate, savedEnv]
  cases haccept : Settings.accept P.floatStr (settingsBody values) with
  | error e =>
    have hnone : savedUpdates P outcome values = none := by
      rw [savedUpdates, haccept]
      split <;> rfl
    rw [hnone]
    exact ⟨pod.disk.prefixFile, rfl⟩
  | ok updates =>
    have hsome : savedUpdates P outcome values =
        if outcome.saves then some updates else none := by
      rw [savedUpdates, haccept]
      rfl
    rw [hsome]
    cases outcome with
    | refused e => exact ⟨pod.disk.prefixFile, rfl⟩
    | envOnly e => exact ⟨pod.disk.prefixFile, rfl⟩
    | unanswered e => exact writeSettings_eq pod updates
    | answered => exact writeSettings_eq pod updates

/-- A `PUT` of settings is answered. -/
def Answered (P : Panel) (outcome : EnvUpdate) (values : List (String × String)) : Prop :=
  (∃ updates, Settings.accept P.floatStr (settingsBody values) = .ok updates) ∧
    outcome = .answered

theorem controlEnvUpdate_snd (outcome : EnvUpdate) (values : List (String × String)) (pod : Pod) :
    (controlEnvUpdate P outcome values pod).2 = none ↔ Answered P outcome values := by
  rw [controlEnvUpdate, Answered]
  cases Settings.accept P.floatStr (settingsBody values) with
  | error e => simp
  | ok updates => cases outcome <;> simp

/-! ## Activation -/

/-- An activation leaves the certificates and `.env` alone. -/
theorem activate_frame (pod : Pod) (host : Activation) (rendered : String) (fields : ConfigFields)
    (restarts : String → Bool) :
    (pod.activate host rendered fields restarts).1.files = pod.files ∧
      (pod.activate host rendered fields restarts).1.env = pod.env ∧
        (pod.activate host rendered fields restarts).1.backboneConfig = pod.backboneConfig := by
  rw [Pod.activate]
  split
  · exact ⟨rfl, rfl, rfl⟩
  · split
    · exact ⟨rfl, rfl, rfl⟩
    · exact ⟨rfl, rfl, rfl⟩

section Activate

variable {pod : Pod} {host : Activation} {rendered : String} {fields : ConfigFields}
  {restarts : String → Bool}

/-- An activation that is not applied restarts no native service. -/
theorem activate_of_not_applied
    (h : isApplied (applyRenderedConfig host rendered fields true false pod.disk).2 = false) :
    (pod.activate host rendered fields restarts).1 =
      { pod with
        disk := (applyRenderedConfig host rendered fields true false pod.disk).1
        router := if restartsRouter host fields pod.disk then
            routerAfter host rendered false
              (applyRenderedConfig host rendered fields true false pod.disk).1 pod.router
          else pod.router } := by
  rw [Pod.activate]
  cases hout : (applyRenderedConfig host rendered fields true false pod.disk).2 with
  | error e => rfl
  | ok result =>
    rw [hout] at h
    simp [h]

theorem restartsRouter_iff :
    restartsRouter host fields pod.disk = true ↔
      ReachesWrites host fields pod.disk ∧ host.candidate.Succeed := by
  simp [restartsRouter, ReachesWrites, Option.isSome_iff_ne_none, and_assoc]

/-- An activation that is applied leaves the router on the candidate, and restarts the native
services when a prefix changes. -/
theorem activate_of_accepts (hreaches : ReachesWrites host fields pod.disk)
    (haccepts : Accepts host false) :
    ∃ lastKnownGood, (pod.activate host rendered fields restarts).1 =
      if restartRequired fields pod.disk then
        ({ pod with
            disk := { pod.disk with lastKnownGood }.holding rendered fields.namespacePrefix
              fields.publishPrefix
            router := some rendered } : Pod).restartNatives restarts
      else
        { pod with
          disk := { pod.disk with lastKnownGood }.holding rendered fields.namespacePrefix
            fields.publishPrefix
          router := some rendered } := by
  obtain ⟨config, -, hyes, -⟩ := @applyRenderedConfig_reaches host rendered fields true false
    pod.disk hreaches
  obtain ⟨hdisk, happlied⟩ := hyes haccepts
  obtain ⟨result, hresult, -, hrequired⟩ := @applyRenderedConfig_accepts host rendered fields true
    false pod.disk hreaches haccepts
  have hrouter : routerAfter host rendered false
      (applyRenderedConfig host rendered fields true false pod.disk).1 pod.router =
        some rendered := by
    have hrestart : host.restart.1 = true := by
      have hhealthy := haccepts.2.1
      rw [Activation.healthy, Bool.and_eq_true] at hhealthy
      exact hhealthy.1
    rw [routerAfter, haccepts.2.1, haccepts.2.2, hrestart]
    rfl
  refine ⟨some (PyStr.newlines config), ?_⟩
  rw [hresult] at happlied
  rw [hdisk] at hrouter
  rw [Pod.activate]
  simp [hresult, happlied, hrequired, hrouter, hdisk, restartsRouter_iff.mpr ⟨hreaches, haccepts.1⟩]

end Activate

/-! ## Native services -/

/-- Services that start work under the topic root of the pod, and change nothing else. -/
theorem foldl_startNative (names : List String) (pod : Pod) :
    ∃ natives, names.foldl Pod.startNative pod = { pod with natives } ∧
      ∀ native ∈ natives, native ∈ pod.natives ∨ native.topicRoot = pod.topicRoot := by
  induction names generalizing pod with
  | nil => exact ⟨pod.natives, rfl, fun native hnative => Or.inl hnative⟩
  | cons name names ih =>
    obtain ⟨natives, heq, hnatives⟩ := ih (pod.startNative name)
    refine ⟨natives, heq, fun native hnative => ?_⟩
    rcases hnatives native hnative with hmem | hroot
    · rcases mem_append.mp hmem with hkept | hnew
      · exact Or.inl (mem_of_mem_filter hkept)
      · rw [mem_singleton.mp hnew]
        exact Or.inr rfl
    · exact Or.inr hroot

end Efdi.Admin.Identities

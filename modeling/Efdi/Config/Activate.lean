import Efdi.Config.Extract

/-!
# Activating a config

`apply_rendered_config` of `config.py`, the one path on which a candidate becomes the
active config: preflight, three files written, restart, health and management link, and
the previous values written back when one of these fails.

What the host answers during a call is an `Activation`.  A write replaces a file or
raises and leaves it as it was.

A call that does not get to the writes changes nothing
(`applyRenderedConfig_refused`).  One that does ends with the three files written by the
candidate or written back (`applyRenderedConfig_reaches`).
-/

namespace Efdi

/-! ## The files -/

/-- The texts of the state files on the disk, `none` for a file that cannot be opened. -/
structure ConfigDisk where
  /-- `CONFIG_PATH`. -/
  config : Option String
  /-- `_LAST_KNOWN_GOOD_PATH`. -/
  lastKnownGood : Option String
  /-- `_PREFIX_FILE`. -/
  prefixFile : Option String
  /-- `_DATA_PREFIX_FILE`. -/
  dataPrefixFile : Option String
  prefixEnv : String
  dataPrefixEnv : Option String
deriving DecidableEq

/-- What reading the files gives. -/
def ConfigDisk.files (disk : ConfigDisk) : ConfigFiles where
  config := disk.config.map PyStr.newlines
  prefixFile := disk.prefixFile.map PyStr.newlines
  dataPrefixFile := disk.dataPrefixFile.map PyStr.newlines
  prefixEnv := disk.prefixEnv
  dataPrefixEnv := disk.dataPrefixEnv

/-- The texts of the exceptions of three writes, `none` for a write that succeeds. -/
structure Writes where
  config : Option String
  prefixFile : Option String
  dataPrefixFile : Option String

/-- All three writes succeed. -/
def Writes.Succeed (w : Writes) : Prop :=
  w.config = none ∧ w.prefixFile = none ∧ w.dataPrefixFile = none

instance (w : Writes) : Decidable w.Succeed := by
  unfold Writes.Succeed
  infer_instance

/-- `write_config_to_disk`, `_write_prefix_file` and `_write_data_prefix_file`, up to the first
that raises. -/
def ConfigDisk.writeAll (disk : ConfigDisk) (w : Writes)
    (config namespacePrefix dataPrefix : String) : ConfigDisk × Option String :=
  match w.config with
  | some e => (disk, some e)
  | none =>
    let disk := { disk with config := some config }
    match w.prefixFile with
    | some e => (disk, some e)
    | none =>
      let disk := { disk with prefixFile := some (namespacePrefix ++ "\n") }
      match w.dataPrefixFile with
      | some e => (disk, some e)
      | none => ({ disk with dataPrefixFile := some (dataPrefix ++ "\n") }, none)

/-! ## One call -/

/-- `status` of a result. -/
inductive ApplyStatus where
  | applied
  | rejected
  | rolledBack
  | failed
deriving DecidableEq, Repr

/-- The result of a call. -/
structure ApplyResult where
  status : ApplyStatus
  restarted : Bool
  rolledBack : Bool
  error : Option String
  validation : Option String
  nativeProcessRestartRequired : Bool
  nativeProcessRestartFailures : List String
deriving DecidableEq

/-- A result without a restart. -/
def ApplyResult.unchanged (status : ApplyStatus) (rolledBack : Bool) (error : String) :
    ApplyResult where
  status
  restarted := false
  rolledBack
  error := some error
  validation := none
  nativeProcessRestartRequired := false
  nativeProcessRestartFailures := []

/-- What the host answers during a call, in the order of the questions. -/
structure Activation where
  /-- `validate_rendered_config`. -/
  preflight : Bool × String
  /-- The exception when the config cannot be opened. -/
  readError : String
  lastKnownGood : Option String
  candidate : Writes
  /-- `restart_router_container`. -/
  restart : Bool × Option String
  /-- `wait_for_router_health`. -/
  health : Bool
  /-- `wait_for_remote_router_link`. -/
  link : Bool
  restore : Writes
  rollbackRestart : Bool × Option String
  rollbackHealth : Bool
  /-- `restart_native_processes`. -/
  nativeFailures : List String

/-- `text or default`. -/
def orText (text : Option String) (default : String) : String :=
  match text with
  | some s => if s = "" then default else s
  | none => default

/-- The refusal of the backbone profile. -/
def backboneRefusal : String :=
  "the \"backbone\" TLS profile cannot be applied to this pod's " ++
  "primary router — it needs its own EFDI identity for " ++
  "zenoh1/zenoh2. Configure the backbone connection on the " ++
  "Certificates page instead (dedicated router, separate identity)."

namespace Activation

/-- `healthy`. -/
def healthy (host : Activation) : Bool := host.restart.1 && host.health

/-- `management_connected`. -/
def connected (host : Activation) (preserveManagement : Bool) : Bool :=
  !preserveManagement || (host.healthy && host.link)

/-- The reason of a rollback. -/
def reason (host : Activation) (preserveManagement : Bool) : String :=
  let reason := orText host.restart.2
    (if host.healthy && !host.connected preserveManagement then
      "router did not re-establish a remote management link after restart"
    else "router did not become healthy after restart")
  if host.rollbackRestart.1 && host.rollbackHealth then reason
  else reason ++ "; rollback restart failed: " ++ orText host.rollbackRestart.2 "router unhealthy"

end Activation

/-- `apply_rendered_config`: the files afterwards, and the result or the text of the
exception. -/
def applyRenderedConfig (host : Activation) (rendered : String) (fields : ConfigFields)
    (restartNative preserveManagement : Bool) (disk : ConfigDisk) :
    ConfigDisk × Except String ApplyResult :=
  if fields.fabricTlsProfile = .backbone then
    (disk, .ok (.unchanged .rejected false backboneRefusal))
  else if !host.preflight.1 then
    (disk, .ok (.unchanged .rejected false host.preflight.2))
  else
    match disk.files.config with
    | none =>
      (disk, .ok (.unchanged .rejected false
        ("could not read current config: " ++ host.readError)))
    | some previousConfig =>
      let previousPrefix := disk.files.namespacePrefix
      let previousPublishPrefix := disk.files.dataPrefix
      let nativeRestartRequired :=
        fields.namespacePrefix != previousPrefix || fields.publishPrefix != previousPublishPrefix
      match host.lastKnownGood with
      | some e => (disk, .error e)
      | none =>
        let written := { disk with lastKnownGood := some previousConfig }.writeAll
          host.candidate rendered fields.namespacePrefix fields.publishPrefix
        let restored := written.1.writeAll host.restore previousConfig previousPrefix
          previousPublishPrefix
        match written.2 with
        | some e =>
          match restored.2 with
          | some e' => (restored.1, .error e')
          | none =>
            (restored.1, .ok (.unchanged .rejected true ("candidate write failed: " ++ e)))
        | none =>
          if !host.healthy || !host.connected preserveManagement then
            match restored.2 with
            | some e => (restored.1, .error e)
            | none =>
              let rollbackHealthy := host.rollbackRestart.1 && host.rollbackHealth
              (restored.1, .ok (.unchanged (if rollbackHealthy then .rolledBack else .failed)
                rollbackHealthy (host.reason preserveManagement)))
          else
            (written.1, .ok
              { status := .applied
                restarted := true
                rolledBack := false
                error := none
                validation := some host.preflight.2
                nativeProcessRestartRequired := nativeRestartRequired
                nativeProcessRestartFailures :=
                  if restartNative && nativeRestartRequired then host.nativeFailures
                  else [] })

/-! ## The active config -/

/-- What the router and the bridges run on. -/
structure ActiveConfig where
  config : Option String
  namespacePrefix : String
  dataPrefix : String
deriving DecidableEq

/-- The config file, and the prefixes as they are read. -/
def ConfigDisk.active (disk : ConfigDisk) : ActiveConfig where
  config := disk.config
  namespacePrefix := disk.files.namespacePrefix
  dataPrefix := disk.files.dataPrefix

/-- The active config that a candidate asks for. -/
def candidateConfig (rendered : String) (fields : ConfigFields) : ActiveConfig where
  config := some rendered
  namespacePrefix := fields.namespacePrefix
  dataPrefix := fields.publishPrefix

/-- A call returned `applied`. -/
def isApplied : Except String ApplyResult → Bool
  | .ok result => result.status == .applied
  | .error _ => false

/-- A call that is applied makes the candidate the active config and keeps the previous one as
the last known good; any other call leaves the active config as it was. -/
def AllOrNothing (disk : ConfigDisk) (rendered : String) (fields : ConfigFields)
    (out : ConfigDisk × Except String ApplyResult) : Prop :=
  if isApplied out.2 then
    out.1.active = candidateConfig rendered fields ∧ out.1.lastKnownGood = disk.config
  else out.1.active = disk.active

/-! ## The three ways a call goes -/

section Cases

variable {disk : ConfigDisk} {w w' : Writes} {config namespacePrefix dataPrefix : String}

/-- The files after three writes. -/
def ConfigDisk.holding (disk : ConfigDisk) (config namespacePrefix dataPrefix : String) :
    ConfigDisk :=
  { disk with
    config := some config
    prefixFile := some (namespacePrefix ++ "\n")
    dataPrefixFile := some (dataPrefix ++ "\n") }

theorem writeAll_succeed (h : w.Succeed) :
    disk.writeAll w config namespacePrefix dataPrefix =
      (disk.holding config namespacePrefix dataPrefix, none) := by
  obtain ⟨hconfig, hprefix, hdata⟩ := h
  rw [ConfigDisk.writeAll, hconfig, hprefix, hdata]
  rfl

theorem writeAll_eq_none_iff :
    (disk.writeAll w config namespacePrefix dataPrefix).2 = none ↔ w.Succeed := by
  rw [ConfigDisk.writeAll, Writes.Succeed]
  cases w.config with
  | some e => simp
  | none =>
    cases w.prefixFile with
    | some e => simp
    | none => cases w.dataPrefixFile <;> simp

/-- Writing everything back undoes writes that were only partly made. -/
theorem writeAll_writeAll (h : w'.Succeed) (config' namespacePrefix' dataPrefix' : String) :
    (disk.writeAll w config' namespacePrefix' dataPrefix').1.writeAll w' config namespacePrefix
        dataPrefix = (disk.holding config namespacePrefix dataPrefix, none) := by
  rw [writeAll_succeed h, ConfigDisk.writeAll]
  cases w.config with
  | some e => rfl
  | none =>
    cases w.prefixFile with
    | some e => rfl
    | none => cases w.dataPrefixFile <;> rfl

end Cases

section Call

variable (host : Activation) (rendered : String) (fields : ConfigFields)
  (restartNative preserveManagement : Bool) (disk : ConfigDisk)

/-- A call gets to its first candidate write. -/
def ReachesWrites : Prop :=
  fields.fabricTlsProfile ≠ .backbone ∧ host.preflight.1 = true ∧ disk.config ≠ none ∧
    host.lastKnownGood = none

/-- The candidate is written and the router accepts it. -/
def Accepts : Prop :=
  host.candidate.Succeed ∧ host.healthy = true ∧ host.connected preserveManagement = true

variable {host rendered fields restartNative preserveManagement disk}

theorem applyRenderedConfig_refused (h : ¬ReachesWrites host fields disk) :
    (applyRenderedConfig host rendered fields restartNative preserveManagement disk).1 = disk ∧
      isApplied (applyRenderedConfig host rendered fields restartNative preserveManagement
        disk).2 = false := by
  rw [applyRenderedConfig]
  by_cases hprofile : fields.fabricTlsProfile = .backbone
  · rw [if_pos hprofile]
    exact ⟨rfl, rfl⟩
  rw [if_neg hprofile]
  by_cases hvalid : host.preflight.1 = true
  swap
  · rw [if_pos (by simpa using hvalid)]
    exact ⟨rfl, rfl⟩
  rw [if_neg (by simpa using hvalid)]
  cases hconfig : disk.config with
  | none =>
    have hread : disk.files.config = none := by
      rw [ConfigDisk.files, hconfig]
      rfl
    rw [hread]
    exact ⟨rfl, rfl⟩
  | some config =>
    have hread : disk.files.config = some (PyStr.newlines config) := by
      rw [ConfigDisk.files, hconfig]
      rfl
    rw [hread]
    cases hgood : host.lastKnownGood with
    | some e => exact ⟨rfl, rfl⟩
    | none => exact absurd ⟨hprofile, hvalid, by rw [hconfig]; simp, hgood⟩ h

/-- A call that gets to the writes reads the previous values and then writes. -/
theorem applyRenderedConfig_reaches (h : ReachesWrites host fields disk) :
    ∃ config, disk.config = some config ∧
      (Accepts host preserveManagement →
        (applyRenderedConfig host rendered fields restartNative preserveManagement disk).1 =
            { disk with lastKnownGood := some (PyStr.newlines config) }.holding rendered
              fields.namespacePrefix fields.publishPrefix ∧
          isApplied (applyRenderedConfig host rendered fields restartNative preserveManagement
            disk).2 = true) ∧
      (host.restore.Succeed → ¬Accepts host preserveManagement →
        (applyRenderedConfig host rendered fields restartNative preserveManagement disk).1 =
            { disk with lastKnownGood := some (PyStr.newlines config) }.holding
              (PyStr.newlines config) disk.files.namespacePrefix disk.files.dataPrefix ∧
          isApplied (applyRenderedConfig host rendered fields restartNative preserveManagement
            disk).2 = false) := by
  obtain ⟨hprofile, hvalid, hsome, hgood⟩ := h
  obtain ⟨config, hconfig⟩ := Option.ne_none_iff_exists'.mp hsome
  have hread : disk.files.config = some (PyStr.newlines config) := by
    rw [ConfigDisk.files, hconfig]
    rfl
  refine ⟨config, hconfig, fun haccepts => ?_, fun hrestore haccepts => ?_⟩
  · obtain ⟨hcandidate, hhealthy, hconnected⟩ := haccepts
    rw [applyRenderedConfig, if_neg hprofile, if_neg (by simpa using hvalid), hread]
    simp only [hgood, writeAll_succeed hcandidate, hhealthy, hconnected, Bool.not_true,
      Bool.or_self, Bool.false_eq_true, if_false]
    exact ⟨trivial, rfl⟩
  · rw [applyRenderedConfig, if_neg hprofile, if_neg (by simpa using hvalid), hread]
    simp only [hgood, writeAll_writeAll hrestore]
    split
    · exact ⟨rfl, rfl⟩
    · next hwritten =>
        have hfails : (!host.healthy || !host.connected preserveManagement) = true := by
          have hcandidate := writeAll_eq_none_iff.mp hwritten
          cases hhealthy : host.healthy with
          | false => rfl
          | true =>
            cases hconnected : host.connected preserveManagement with
            | false => rfl
            | true => exact absurd ⟨hcandidate, hhealthy, hconnected⟩ haccepts
        rw [if_pos hfails]
        refine ⟨rfl, ?_⟩
        cases host.rollbackRestart.1 && host.rollbackHealth <;> rfl

/-- A call is applied when it gets to its writes and the router accepts the candidate. -/
theorem isApplied_applyRenderedConfig :
    isApplied (applyRenderedConfig host rendered fields restartNative preserveManagement
      disk).2 = true ↔ ReachesWrites host fields disk ∧ Accepts host preserveManagement := by
  constructor
  · intro happlied
    have hreaches : ReachesWrites host fields disk := by
      by_contra hreaches
      rw [(applyRenderedConfig_refused hreaches).2] at happlied
      cases happlied
    refine ⟨hreaches, ?_⟩
    obtain ⟨hprofile, hvalid, hsome, hgood⟩ := hreaches
    obtain ⟨config, hconfig⟩ := Option.ne_none_iff_exists'.mp hsome
    have hread : disk.files.config = some (PyStr.newlines config) := by
      rw [ConfigDisk.files, hconfig]
      rfl
    rw [applyRenderedConfig, if_neg hprofile, if_neg (by simpa using hvalid), hread] at happlied
    simp only [hgood] at happlied
    split at happlied
    · split at happlied <;> cases happlied
    · next hwritten =>
        split at happlied
        · split at happlied
          · cases happlied
          · cases hrollback : host.rollbackRestart.1 && host.rollbackHealth with
            | false =>
              rw [hrollback] at happlied
              cases happlied
            | true =>
              rw [hrollback] at happlied
              cases happlied
        · next haccepts =>
            simp only [Bool.or_eq_true, Bool.not_eq_true', not_or, Bool.not_eq_false] at haccepts
            exact ⟨writeAll_eq_none_iff.mp hwritten, haccepts⟩
  · rintro ⟨hreaches, haccepts⟩
    obtain ⟨config, -, hyes, -⟩ := @applyRenderedConfig_reaches host rendered fields restartNative
      preserveManagement disk hreaches
    exact (hyes haccepts).2

/-- The native processes are to be restarted when a prefix changes. -/
def restartRequired (fields : ConfigFields) (disk : ConfigDisk) : Bool :=
  fields.namespacePrefix != disk.files.namespacePrefix ||
    fields.publishPrefix != disk.files.dataPrefix

/-- A call that is applied says whether the native processes were to be restarted. -/
theorem applyRenderedConfig_accepts (h : ReachesWrites host fields disk)
    (haccepts : Accepts host preserveManagement) :
    ∃ result,
      (applyRenderedConfig host rendered fields restartNative preserveManagement disk).2 =
        .ok result ∧
      result.status = .applied ∧
        result.nativeProcessRestartRequired = restartRequired fields disk := by
  obtain ⟨hprofile, hvalid, hsome, hgood⟩ := h
  obtain ⟨hcandidate, hhealthy, hconnected⟩ := haccepts
  obtain ⟨config, hconfig⟩ := Option.ne_none_iff_exists'.mp hsome
  have hread : disk.files.config = some (PyStr.newlines config) := by
    rw [ConfigDisk.files, hconfig]
    rfl
  rw [applyRenderedConfig, if_neg hprofile, if_neg (by simpa using hvalid), hread]
  simp only [hgood, writeAll_succeed hcandidate, hhealthy, hconnected, Bool.not_true,
    Bool.or_self, Bool.false_eq_true, if_false]
  exact ⟨_, rfl, rfl, rfl⟩

end Call

end Efdi

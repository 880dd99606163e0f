import Efdi.Sapient.Positions

/-!
# What the SAPIENT decoder keeps

`SapientDecoder` keeps what it knows of each node and the last report of each object.

`_registration` writes the node as it reads, so it gives the node as it leaves it together with
what it raises.
-/

namespace Efdi.Sapient

open Checks Except

/-! ## Tables -/

/-- The values of `_CONTENT_FIELDS`. -/
inductive Kind where
  | registration
  | registrationAck
  | statusReport
  | detectionReport
  | task
  | taskAck
  | alert
  | alertAck
  | error
deriving DecidableEq, Repr

/-- `_CONTENT_FIELDS`. -/
def contentFields : List (Nat × Kind) :=
  [(4, .registration), (5, .registrationAck), (6, .statusReport), (7, .detectionReport),
    (8, .task), (9, .taskAck), (10, .alert), (11, .alertAck), (12, .error)]

/-- `_NODE_TYPES`. -/
def nodeTypeNames : List (Nat × String) :=
  [(1, "other"), (2, "radar"), (3, "lidar"), (4, "camera"), (5, "seismic"), (6, "acoustic"),
    (7, "proximity_sensor"), (8, "passive_rf"), (9, "human"), (10, "chemical"),
    (11, "biological"), (12, "radiation"), (13, "kinetic"), (14, "jammer"), (15, "cyber"),
    (16, "ldew"), (17, "rfdew"), (18, "mobile_node"), (19, "pointable_node"), (20, "fusion_node")]

/-- `_SYSTEM_STATES`. -/
def systemStates : List (Nat × String) :=
  [(0, "unspecified"), (1, "ok"), (2, "warning"), (3, "error"), (5, "goodbye")]

/-- `_ALERT_TYPES`. -/
def alertTypes : List (Nat × String) :=
  [(0, "unspecified"), (1, "information"), (2, "warning"), (3, "critical"), (4, "error"),
    (5, "fatal"), (6, "mode_change")]

/-- `_ALERT_STATUS`. -/
def alertStatus : List (Nat × String) :=
  [(0, "unspecified"), (1, "active"), (2, "acknowledge"), (3, "reject"), (4, "ignore"),
    (5, "clear")]

/-- `_ALERT_PRIORITY`. -/
def alertPriority : List (Nat × String) :=
  [(0, "unspecified"), (1, "low"), (2, "medium"), (3, "high")]

/-- `_SAPIENT_INFO`. -/
def sapientInfo : List (Nat × String) := [(0, "unspecified"), (1, "new"), (2, "unchanged")]

/-- `_POWER_SOURCES`. -/
def powerSources : List (Nat × String) :=
  [(0, "unspecified"), (1, "other"), (2, "mains"), (3, "internal_battery"),
    (4, "external_battery"), (5, "generator"), (6, "solar_pv"), (7, "wind_turbine"),
    (8, "fuel_cell")]

/-- `_POWER_STATUS`. -/
def powerStatus : List (Nat × String) := [(0, "unspecified"), (1, "ok"), (2, "fault")]

/-- `_STATUS_LEVELS`. -/
def statusLevels : List (Nat × String) :=
  [(0, "unspecified"), (2, "information"), (3, "warning"), (4, "error")]

/-- `_STATUS_TYPES`. -/
def statusTypes : List (Nat × String) :=
  [(0, "unspecified"), (1, "internal_fault"), (2, "external_fault"), (3, "illumination"),
    (4, "weather"), (5, "clutter"), (6, "exposure"), (7, "motion_sensitivity"), (8, "ptz_status"),
    (9, "pd"), (10, "far"), (11, "not_detecting"), (12, "platform"), (13, "other")]

/-- `_TASK_STATUS`. -/
def taskStatus : List (Nat × String) :=
  [(0, "unspecified"), (1, "accepted"), (2, "rejected"), (3, "completed"), (4, "failed")]

/-- `_ALERT_ACK_STATUS`. -/
def alertAckStatus : List (Nat × String) :=
  [(0, "unspecified"), (1, "accepted"), (2, "rejected"), (3, "cancelled")]

/-- `_TASK_CONTROL`. -/
def taskControl : List (Nat × String) :=
  [(0, "unspecified"), (1, "start"), (2, "stop"), (3, "pause")]

/-- `_DELETE_STATES`. -/
def deleteStates : List String :=
  ["clear", "closed", "delete", "deleted", "end", "ended", "lost", "removed", "terminated"]

/-- `MAX_OBJECTS`. -/
def maxObjects : Nat := 20000

/-! ## State -/

/-- `NodeState`. -/
structure NodeState where
  name : Option String
  icdVersion : Option String
  nodeTypes : List String
  latitude : Option PyFloat
  longitude : Option PyFloat
  altitudeM : Option PyFloat
  horizontalSpeedUnits : Option Nat
  verticalSpeedUnits : Option Nat
  capabilities : List PyJson
  statusIntervalS : Option PyFloat
  dependentNodes : List String
  reportingRegionCount : Nat
  configData : List PyJson
deriving DecidableEq

/-- `NodeState()`. -/
def NodeState.new : NodeState where
  name := none
  icdVersion := none
  nodeTypes := []
  latitude := none
  longitude := none
  altitudeM := none
  horizontalSpeedUnits := none
  verticalSpeedUnits := none
  capabilities := []
  statusIntervalS := none
  dependentNodes := []
  reportingRegionCount := 0
  configData := []

def NodeState.origin (node : NodeState) : Origin := ⟨node.latitude, node.longitude, node.altitudeM⟩

/-- A track dict.  The entries that the decoder reads back have fields of their own: `_ts`,
`lat_deg`, `lon_deg`, `geo_alt_m` and `_delete`. -/
structure SapientTrack where
  ts : Moment
  lat : PyFloat
  lon : PyFloat
  altitude : Option PyFloat
  delete : Bool
  fields : List (String × PyJson)
deriving DecidableEq

/-- `SapientEvent`. -/
structure SapientEvent where
  kind : Kind
  nodeId : String
  timestamp : Moment
  track : Option SapientTrack
  warning : Option String
deriving DecidableEq

/-- `SapientDecoder`. -/
structure Decoder where
  nodes : PyDict String NodeState
  objects : PyDict (String × String) SapientTrack
deriving DecidableEq

/-- `SapientDecoder()`. -/
def Decoder.new : Decoder := ⟨PyDict.empty, PyDict.empty⟩

variable (py : Python)

/-! ## Registrations -/

/-- The version and the names that a registration carries. -/
def identified (node : NodeState) (fields : List WireField) : NodeState :=
  { node with
    icdVersion := text (firstBytes fields 2) <|> node.icdVersion
    name := text (firstBytes fields 4) <|> text (firstBytes fields 3) <|> node.name }

/-- The node types that a registration declares. -/
def declaredTypes (fields : List WireField) : Except String (List String) := do
  let definitions ← submessages fields 1 16
  return definitions.filterMap fun definition =>
    (firstVarint definition 1).map (nameOf nodeTypeNames "type_")

/-- The horizontal and the vertical unit of one detection definition. -/
def definitionUnits (definition : Bytes) : Except String (Option Nat × Option Nat) := do
  let fields ← fieldList definition
  match firstBytes fields 6 with
  | none => return (none, none)
  | some velocityType =>
    let velocityFields ← fieldList velocityType
    match firstBytes velocityFields 4 with
    | none => return (none, none)
    | some enuUnits =>
      let unitsFields ← fieldList enuUnits
      return (firstVarint unitsFields 1, firstVarint unitsFields 2)

/-- The unit that all definitions agree on. -/
def theUnit (units : List Nat) : Option Nat :=
  match (units.filter fun unit => unit = 1 ∨ unit = 2).dedup with
  | [unit] => some unit
  | _ => none

/-- The speed units that a registration declares. -/
def speedUnits (fields : List WireField) : Except String (Option Nat × Option Nat) := do
  let modes ← ((allBytes fields 7).take 32).mapM fun mode => do
    let modeFields ← fieldList mode
    ((allBytes modeFields 10).take 32).mapM definitionUnits
  let units := modes.flatten
  return (theUnit (units.filterMap Prod.fst), theUnit (units.filterMap Prod.snd))

/-- A loop that appends what it makes of each value: what it has appended when it ends, and the
error that ended it. -/
def appendEach (entry : Bytes → Except String (Option PyJson)) :
    List Bytes → List PyJson × Option String
  | [] => ([], none)
  | value :: values =>
    match entry value with
    | .error raised => ([], some raised)
    | .ok found =>
      let later := appendEach entry values
      (found.toList ++ later.1, later.2)

/-- An entry of `capabilities`. -/
def capability (value : Bytes) : Except String (Option PyJson) := do
  let fields ← fieldList value
  match text (firstBytes fields 1), text (firstBytes fields 2) with
  | some category, some type =>
    return some (.dict (entries
      [("category", some (.str category)), ("type", some (.str type)),
        ("value", textEntry (text (firstBytes fields 3))),
        ("units", textEntry (text (firstBytes fields 4)))]))
  | _, _ => return none

/-- An entry of `config_data`. -/
def configuration (value : Bytes) : Except String (Option PyJson) := do
  let fields ← fieldList value
  match text (firstBytes fields 1), text (firstBytes fields 2) with
  | some manufacturer, some model =>
    return some (.dict (entries
      [("manufacturer", some (.str manufacturer)), ("model", some (.str model)),
        ("serial_number", textEntry (text (firstBytes fields 3))),
        ("hardware_version", textEntry (text (firstBytes fields 4))),
        ("software_version", textEntry (text (firstBytes fields 5)))]))
  | _, _ => return none

/-- The `status_interval_s` that a registration leaves, and what reading it raises.  A definition
that is read sets it to `None` before the interval is read. -/
def statusInterval (fields : List WireField) (before : Option PyFloat) :
    Option PyFloat × Option String :=
  match firstBytes fields 6 with
  | none => (before, none)
  | some definition =>
    match fieldList definition with
    | .error raised => (before, some raised)
    | .ok definitionFields =>
      match firstBytes definitionFields 1 with
      | none => (none, none)
      | some interval =>
        match fieldList interval with
        | .error raised => (none, some raised)
        | .ok duration =>
          (durationSeconds py (firstVarint duration 1) (single (firstFixed32 duration 3)),
            none)

/-- The part of `_registration` after the capabilities. -/
def registrationTail (node : NodeState) (fields : List WireField) : NodeState × Option String :=
  let interval := statusInterval py fields node.statusIntervalS
  let node := { node with statusIntervalS := interval.1 }
  match interval.2 with
  | some raised => (node, some raised)
  | none =>
    let configured := appendEach configuration ((allBytes fields 10).take 16)
    ({ node with
        dependentNodes := ((allBytes fields 8).take 64).filterMap fun value => text (some value)
        reportingRegionCount := (allBytes fields 9).length
        configData := configured.1 },
      configured.2)

/-- `_registration`: the node as it leaves it, and what it raises. -/
def registration (node : NodeState) (data : Bytes) : NodeState × Option String :=
  match fieldList data with
  | .error raised => (node, some raised)
  | .ok fields =>
    let node := identified node fields
    match declaredTypes fields with
    | .error raised => (node, some raised)
    | .ok types =>
      let node := if types = [] then node else { node with nodeTypes := types }
      match speedUnits fields with
      | .error raised => (node, some raised)
      | .ok units =>
        let capabilities := appendEach capability ((allBytes fields 5).take 32)
        let node := { node with
          horizontalSpeedUnits := units.1
          verticalSpeedUnits := units.2
          capabilities := capabilities.1 }
        match capabilities.2 with
        | some raised => (node, some raised)
        | none => registrationTail py node fields

/-! ### When a registration is read -/

/-- The units of a mode can be read. -/
def UnitsReadable (mode : Bytes) : Prop :=
  ∃ modeFields, fieldList mode = .ok modeFields ∧
    ∀ definition ∈ (allBytes modeFields 10).take 32, (definitionUnits definition).isOk = true

/-- The interval of status reports can be read. -/
def IntervalReadable (fields : List WireField) : Prop :=
  ∀ definition, firstBytes fields 6 = some definition →
    ∃ definitionFields, fieldList definition = .ok definitionFields ∧
      ∀ interval, firstBytes definitionFields 1 = some interval → Readable interval

/-- All submessages that `_registration` reads can be read. -/
structure RegistrationReads (fields : List WireField) : Prop where
  types : AllReadable fields 1 16
  units : ∀ mode ∈ (allBytes fields 7).take 32, UnitsReadable mode
  capabilities : AllReadable fields 5 32
  interval : IntervalReadable fields
  configurations : AllReadable fields 10 16

section Returns

variable {py} {fields : List WireField}

theorem declaredTypes_isOk : (declaredTypes fields).isOk = true ↔ AllReadable fields 1 16 := by
  rw [← submessages_isOk, declaredTypes, isOk_bind, isOk_iff]
  refine exists_congr fun definitions => and_iff_left rfl

theorem speedUnits_isOk : (speedUnits fields).isOk = true ↔
    ∀ mode ∈ (allBytes fields 7).take 32, UnitsReadable mode := by
  have hmode : ∀ mode, UnitsReadable mode ↔
      ((fieldList mode >>= fun modeFields =>
        ((allBytes modeFields 10).take 32).mapM definitionUnits) :
          Except String (List (Option Nat × Option Nat))).isOk = true := by
    intro mode
    rw [isOk_bind]
    exact exists_congr fun modeFields => and_congr_right fun _ => isOk_mapM.symm
  rw [speedUnits, isOk_bind]
  simp only [hmode]
  rw [← isOk_mapM, isOk_iff]
  exact exists_congr fun modes => and_iff_left rfl

theorem capability_isOk {value : Bytes} : (capability value).isOk = true ↔ Readable value := by
  rw [capability, isOk_bind, Readable, isOk_iff]
  refine exists_congr fun fields => and_iff_left ?_
  split
  next _ => rfl
  next _ => rfl

theorem configuration_isOk {value : Bytes} :
    (configuration value).isOk = true ↔ Readable value := by
  rw [configuration, isOk_bind, Readable, isOk_iff]
  refine exists_congr fun fields => and_iff_left ?_
  split
  next _ => rfl
  next _ => rfl

theorem appendEach_eq_none {entry : Bytes → Except String (Option PyJson)} :
    ∀ {values : List Bytes}, (appendEach entry values).2 = none ↔
      ∀ value ∈ values, (entry value).isOk = true
  | [] => by simp [appendEach]
  | value :: values => by
    rw [appendEach, List.forall_mem_cons, ← appendEach_eq_none]
    cases entry value with
    | error raised => simp [Except.isOk, Except.toBool]
    | ok found => simp [Except.isOk, Except.toBool]

theorem statusInterval_eq_none {before : Option PyFloat} :
    (statusInterval py fields before).2 = none ↔ IntervalReadable fields := by
  rw [statusInterval, IntervalReadable]
  cases firstBytes fields 6 with
  | none => simp
  | some definition =>
    cases hdefinition : fieldList definition with
    | error raised => simp [hdefinition]
    | ok definitionFields =>
      cases hinterval : firstBytes definitionFields 1 with
      | none => simp [hdefinition, hinterval]
      | some interval =>
        cases hduration : fieldList interval with
        | error raised =>
          simp [hdefinition, hinterval, hduration, Readable, Except.isOk, Except.toBool]
        | ok duration =>
          simp [hdefinition, hinterval, hduration, Readable, Except.isOk, Except.toBool]

theorem registrationTail_eq_none {node : NodeState} :
    (registrationTail py node fields).2 = none ↔
      IntervalReadable fields ∧ AllReadable fields 10 16 := by
  rw [registrationTail]
  dsimp only
  rw [← @statusInterval_eq_none py fields node.statusIntervalS]
  cases hinterval : (statusInterval py fields node.statusIntervalS).2 with
  | some raised => simp
  | none =>
    rw [eq_self, true_and, AllReadable]
    simp only [← configuration_isOk]
    exact appendEach_eq_none

theorem registration_eq_none {node : NodeState} {data : Bytes} :
    (registration py node data).2 = none ↔
      ∃ fields, fieldList data = .ok fields ∧ RegistrationReads fields := by
  rw [registration]
  cases hdata : fieldList data with
  | error raised => simp
  | ok fields =>
    have hreads : RegistrationReads fields ↔ AllReadable fields 1 16 ∧
        (∀ mode ∈ (allBytes fields 7).take 32, UnitsReadable mode) ∧
        AllReadable fields 5 32 ∧ IntervalReadable fields ∧ AllReadable fields 10 16 :=
      ⟨fun h => ⟨h.types, h.units, h.capabilities, h.interval, h.configurations⟩,
        fun h => ⟨h.1, h.2.1, h.2.2.1, h.2.2.2.1, h.2.2.2.2⟩⟩
    have hcapabilities : AllReadable fields 5 32 ↔
        (appendEach capability ((allBytes fields 5).take 32)).2 = none := by
      rw [appendEach_eq_none, AllReadable]
      simp only [capability_isOk]
    simp only [Except.ok.injEq, exists_eq_left', hreads, ← declaredTypes_isOk,
      ← speedUnits_isOk, hcapabilities]
    cases declaredTypes fields with
    | error raised => simp [Except.isOk, Except.toBool]
    | ok types =>
      cases speedUnits fields with
      | error raised => simp [Except.isOk, Except.toBool]
      | ok units =>
        dsimp only
        cases (appendEach capability ((allBytes fields 5).take 32)).2 with
        | some raised => simp
        | none =>
          dsimp only
          rw [registrationTail_eq_none]
          simp [Except.isOk, Except.toBool]

end Returns

/-! ### What a registration writes -/

/-- What `_registration` writes after the capabilities is what the node has. -/
structure KeepsTail (node : NodeState) (fields : List WireField) : Prop where
  interval : (statusInterval py fields node.statusIntervalS).1 = node.statusIntervalS
  dependents : IntervalReadable fields →
    (((allBytes fields 8).take 64).filterMap fun value => text (some value)) = node.dependentNodes
  regions : IntervalReadable fields → (allBytes fields 9).length = node.reportingRegionCount
  configurations : IntervalReadable fields →
    (appendEach configuration ((allBytes fields 10).take 16)).1 = node.configData

/-- What `_registration` writes before the submessage it fails on is what the node has. -/
structure RegistrationKeeps (node : NodeState) (fields : List WireField) : Prop where
  version : ∀ version, text (firstBytes fields 2) = some version → node.icdVersion = some version
  name : ∀ name, (text (firstBytes fields 4) <|> text (firstBytes fields 3)) = some name →
    node.name = some name
  types : ∀ types, declaredTypes fields = .ok types → types = [] ∨ types = node.nodeTypes
  units : AllReadable fields 1 16 → ∀ units, speedUnits fields = .ok units →
    units = (node.horizontalSpeedUnits, node.verticalSpeedUnits)
  capabilities : AllReadable fields 1 16 →
    (∀ mode ∈ (allBytes fields 7).take 32, UnitsReadable mode) →
      (appendEach capability ((allBytes fields 5).take 32)).1 = node.capabilities
  tail : AllReadable fields 1 16 →
    (∀ mode ∈ (allBytes fields 7).take 32, UnitsReadable mode) →
      AllReadable fields 5 32 → KeepsTail py node fields

section Keeps

variable {py} {fields : List WireField}

/-- `a or b` is `b`. -/
theorem orElse_eq_right {α : Type} {found before : Option α} :
    (found <|> before) = before ↔ ∀ a, found = some a → before = some a := by
  cases found with
  | none => simp
  | some a => simp [eq_comm]

theorem identified_eq {node : NodeState} : identified node fields = node ↔
    (∀ version, text (firstBytes fields 2) = some version → node.icdVersion = some version) ∧
      ∀ name, (text (firstBytes fields 4) <|> text (firstBytes fields 3)) = some name →
        node.name = some name := by
  rw [← orElse_eq_right, ← orElse_eq_right]
  cases node
  simp [identified, and_comm, Option.or_assoc]

/-- Two nodes that have the same where the tail of `_registration` writes. -/
structure SameTail (node other : NodeState) : Prop where
  interval : node.statusIntervalS = other.statusIntervalS
  dependents : node.dependentNodes = other.dependentNodes
  regions : node.reportingRegionCount = other.reportingRegionCount
  configurations : node.configData = other.configData

theorem registrationTail_eq {early node : NodeState} (hsame : SameTail early node) :
    (registrationTail py early fields).1 = node ↔ early = node ∧ KeepsTail py node fields := by
  have htail : KeepsTail py node fields ↔
      (statusInterval py fields node.statusIntervalS).1 = node.statusIntervalS ∧
      (IntervalReadable fields →
        (((allBytes fields 8).take 64).filterMap fun value => text (some value)) =
            node.dependentNodes ∧
          (allBytes fields 9).length = node.reportingRegionCount ∧
          (appendEach configuration ((allBytes fields 10).take 16)).1 = node.configData) :=
    ⟨fun h => ⟨h.interval, fun hread => ⟨h.dependents hread, h.regions hread,
      h.configurations hread⟩⟩, fun h => ⟨h.1, fun hread => (h.2 hread).1,
      fun hread => (h.2 hread).2.1, fun hread => (h.2 hread).2.2⟩⟩
  obtain ⟨hinterval, hdependents, hregions, hconfigurations⟩ := hsame
  rw [htail, ← @statusInterval_eq_none py fields node.statusIntervalS, registrationTail,
    hinterval]
  dsimp only
  cases early
  cases node
  dsimp only at hinterval hdependents hregions hconfigurations
  subst hinterval hdependents hregions hconfigurations
  dsimp only
  cases (statusInterval py fields _).2 with
  | some raised => simp [and_assoc]
  | none => simp [and_assoc]

theorem registrationKeeps_iff {node : NodeState} :
    RegistrationKeeps py node fields ↔ identified node fields = node ∧
      ∀ types, declaredTypes fields = .ok types → (types = [] ∨ types = node.nodeTypes) ∧
        ∀ units, speedUnits fields = .ok units →
          units = (node.horizontalSpeedUnits, node.verticalSpeedUnits) ∧
          (appendEach capability ((allBytes fields 5).take 32)).1 = node.capabilities ∧
          ((appendEach capability ((allBytes fields 5).take 32)).2 = none →
            KeepsTail py node fields) := by
  have hcapabilities : AllReadable fields 5 32 ↔
      (appendEach capability ((allBytes fields 5).take 32)).2 = none := by
    rw [appendEach_eq_none, AllReadable]
    simp only [capability_isOk]
  rw [identified_eq, ← hcapabilities]
  constructor
  · intro h
    refine ⟨⟨h.version, h.name⟩, fun types htypes => ⟨h.types types htypes, fun units hunits => ?_⟩⟩
    have htypes' := declaredTypes_isOk.mp (isOk_iff.mpr ⟨types, htypes⟩)
    have hunits' := speedUnits_isOk.mp (isOk_iff.mpr ⟨units, hunits⟩)
    exact ⟨h.units htypes' units hunits, h.capabilities htypes' hunits', h.tail htypes' hunits'⟩
  · rintro ⟨⟨hversion, hname⟩, h⟩
    refine ⟨hversion, hname, fun types htypes => (h types htypes).1, fun htypes units hunits => ?_,
      fun htypes hunits => ?_, fun htypes hunits => ?_⟩
    · obtain ⟨types, htypes'⟩ := isOk_iff.mp (declaredTypes_isOk.mpr htypes)
      exact ((h types htypes').2 units hunits).1
    · obtain ⟨types, htypes'⟩ := isOk_iff.mp (declaredTypes_isOk.mpr htypes)
      obtain ⟨units, hunits'⟩ := isOk_iff.mp (speedUnits_isOk.mpr hunits)
      exact ((h types htypes').2 units hunits').2.1
    · obtain ⟨types, htypes'⟩ := isOk_iff.mp (declaredTypes_isOk.mpr htypes)
      obtain ⟨units, hunits'⟩ := isOk_iff.mp (speedUnits_isOk.mpr hunits)
      exact ((h types htypes').2 units hunits').2.2

section Early

variable (node : NodeState) (fields : List WireField) (types : List String)

/-- The node with the names and the types of a registration. -/
theorem identified_typed_eq :
    (if types = [] then identified node fields
      else { identified node fields with nodeTypes := types }) = node ↔
      identified node fields = node ∧ (types = [] ∨ types = node.nodeTypes) := by
  cases node
  by_cases htypes : types = []
  · simp [htypes]
  · simp [htypes, identified, and_assoc]

variable (units : Option Nat × Option Nat) (capabilities : List PyJson)

/-- The node with everything that a registration writes before its tail. -/
theorem identified_unit_eq :
    ({ (if types = [] then identified node fields
        else { identified node fields with nodeTypes := types }) with
        horizontalSpeedUnits := units.1
        verticalSpeedUnits := units.2
        capabilities := capabilities } : NodeState) = node ↔
      identified node fields = node ∧ (types = [] ∨ types = node.nodeTypes) ∧
        units = (node.horizontalSpeedUnits, node.verticalSpeedUnits) ∧
        capabilities = node.capabilities := by
  cases node
  by_cases htypes : types = []
  · simp [htypes, identified, Prod.ext_iff, and_assoc]
  · simp [htypes, identified, Prod.ext_iff, and_assoc]

theorem identified_sameTail :
    SameTail { (if types = [] then identified node fields
        else { identified node fields with nodeTypes := types }) with
        horizontalSpeedUnits := units.1
        verticalSpeedUnits := units.2
        capabilities := capabilities } node := by
  by_cases htypes : types = []
  · rw [if_pos htypes]
    exact ⟨rfl, rfl, rfl, rfl⟩
  · rw [if_neg htypes]
    exact ⟨rfl, rfl, rfl, rfl⟩

end Early

/-- `_registration` leaves its node as it was when all that it writes is there already. -/
theorem registration_eq {node : NodeState} {data : Bytes} :
    (registration py node data).1 = node ↔
      ∀ fields, fieldList data = .ok fields → RegistrationKeeps py node fields := by
  rw [registration]
  cases fieldList data with
  | error raised => simp
  | ok fields =>
    simp only [ok.injEq, forall_eq', registrationKeeps_iff]
    cases declaredTypes fields with
    | error raised => simp
    | ok types =>
      simp only [ok.injEq, forall_eq']
      have htyped := identified_typed_eq node fields types
      cases speedUnits fields with
      | error raised => simpa using htyped
      | ok units =>
        have hunits := identified_unit_eq node fields types units
          (appendEach capability ((allBytes fields 5).take 32)).1
        have hsame := identified_sameTail node fields types units
          (appendEach capability ((allBytes fields 5).take 32)).1
        simp only [ok.injEq, forall_eq']
        cases (appendEach capability ((allBytes fields 5).take 32)).2 with
        | some raised => simpa using hunits
        | none =>
          dsimp only
          rw [registrationTail_eq hsame, hunits]
          simp [and_assoc]

end Keeps

end Efdi.Sapient

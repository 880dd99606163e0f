import Efdi.Sapient.Nodes

/-!
# Reports, alerts and acknowledgements

`_status` writes the position of its node before it reads the rest of the report.  `_detection` and
`_alert` write no node, and `_detection` keeps the track it makes under the object's key once it has
read everything.  The other handlers only print what they read.
-/

namespace Efdi.Sapient

open Checks

variable (py : Python)

/-- `s[-8:]`. -/
def lastEight (s : String) : String := PyStr.drop (PyStr.len s - 8) s

def flagEntry (flag : Bool) : Option PyJson := if flag then some (.bool true) else none

def countEntry (count : Nat) : Option PyJson := if count = 0 then none else some (.int count)

def icdEntry (node : NodeState) : Option PyJson := some ((textEntry node.icdVersion).getD .null)

def nodeTypesEntry (node : NodeState) : Option PyJson :=
  some (.list (node.nodeTypes.map .str))

/-! ## Status reports -/

/-- The position that a status report gives its node. -/
def located (node : NodeState) (fields : List WireField) : Except String NodeState :=
  match firstBytes fields 7 with
  | none => .ok node
  | some location =>
    (decodeLocation py location).map fun place =>
      { node with
        latitude := some place.lat
        longitude := some place.lon
        altitudeM := place.altitude }

/-- An entry of `sapient_status`. -/
def statusEntry (fields : List WireField) : Option PyJson :=
  let entry := entries
    [("level", nameEntry statusLevels "level_" (firstVarint fields 1)),
      ("type", nameEntry statusTypes "type_" (firstVarint fields 4)),
      ("value", textEntry (text (firstBytes fields 3)))]
  if entry = [] then none else some (.dict entry)

/-- The fields of a submessage that may be missing. -/
def optionalFields (value : Option Bytes) : Except String (List WireField) :=
  match value with
  | none => .ok []
  | some value => fieldList value

/-- The track of a status report, of a node that has a position. -/
def statusTrack (nodeId : String) (node : NodeState) (sentAt : Moment)
    (fields : List WireField) : Except String (Option SapientTrack) :=
  match node.latitude, node.longitude with
  | some latitude, some longitude => do
      let state := firstVarint fields 2
      let power ← optionalFields (firstBytes fields 6)
      let statuses ← submessages fields 11 32
      return some {
        ts := sentAt
        lat := py.round latitude 7
        lon := py.round longitude 7
        altitude := node.altitudeM.map (py.round · 2)
        delete := state == some 5
        fields := entries
          [("_src", some (.str "SAPIENT FLEX 335")),
            ("uid", some (.str ("sapient-node-" ++ nodeId))),
            ("sensor_id", some (.str nodeId)),
            ("callsign", some (.str (node.name.getD ("SAPIENT-" ++ lastEight nodeId)))),
            ("sapient_message_type", some (.str "status_report")),
            ("sapient_node_types", nodeTypesEntry node),
            ("sapient_icd_version", icdEntry node),
            ("sapient_report_id", textEntry (text (firstBytes fields 1))),
            ("sensor_status", nameEntry systemStates "state_" state),
            ("sensor_mode", textEntry (text (firstBytes fields 5))),
            ("sapient_info", nameEntry sapientInfo "info_" (firstVarint fields 3)),
            ("sapient_active_task_id", textEntry (text (firstBytes fields 4))),
            ("sapient_power_level_pct", intEntry (firstVarint power 3)),
            ("sapient_power_source", nameEntry powerSources "source_" (firstVarint power 4)),
            ("sapient_power_status", nameEntry powerStatus "status_" (firstVarint power 5)),
            ("sapient_field_of_view_present", flagEntry (firstBytes fields 8).isSome),
            ("sapient_obscuration_count", countEntry (allBytes fields 10).length),
            ("sapient_coverage_count", countEntry (allBytes fields 12).length),
            ("sapient_status", listEntry (statuses.filterMap statusEntry))] }
  | _, _ => .ok none

/-- `_status`: the node as it leaves it, and what it returns or raises. -/
def status (nodeId : String) (node : NodeState) (sentAt : Moment) (data : Bytes) :
    NodeState × Except String (Option SapientTrack) :=
  match fieldList data with
  | .error raised => (node, .error raised)
  | .ok fields =>
    match located py node fields with
    | .error raised => (node, .error raised)
    | .ok node => (node, statusTrack py nodeId node sentAt fields)

/-! ## Detections -/

/-- The predicted position of a detection; one that cannot be read is left out. -/
def predicted (origin : Origin) (fields : List WireField) :
    Option (PyFloat × PyFloat × Option PyFloat) :=
  match firstBytes fields 2, firstBytes fields 1 with
  | some location, _ =>
    (decodeLocation py location).toOption.map fun place => (place.lat, place.lon, place.altitude)
  | none, some rangeBearing =>
    ((decodeRangeBearing py rangeBearing).bind (project py origin)).toOption
  | none, none => none

/-- The entries that the velocity of a detection gives. -/
def motion (node : NodeState) (fields : List WireField) : List (String × Option PyJson) :=
  let level := do
    let scale ← speedScale py node.horizontalSpeedUnits
    let east ← double (firstFixed64 fields 1)
    let north ← double (firstFixed64 fields 2)
    some (py.mul east scale, py.mul north scale)
  let rise := do
    let scale ← speedScale py node.verticalSpeedUnits
    let up ← double (firstFixed64 fields 3)
    some (py.mul up scale)
  [("speed_ms", level.map fun (east, north) => .float (py.round (py.hypot east north) 3)),
    ("heading_deg", level.map fun (east, north) =>
      .float (py.round (py.mod (py.degrees (py.atan2 east north)) (py.literal 360)) 2)),
    ("vertical_rate_ms", floatEntry py rise 3)]

/-- An entry of `sapient_behaviour`. -/
def behaviour (fields : List WireField) : Option PyJson :=
  (text (firstBytes fields 1)).map fun type =>
    .dict (entries
      [("type", some (.str type)), ("confidence", floatEntry py (single (firstFixed32 fields 2)) 4)])

def dictEntry (items : PyDict String PyJson) : Option PyJson :=
  if items.entries = [] then none else some (.dict items.entries)

/-- The identifier of the object that a detection reports. -/
def objectOf (fields : List WireField) : String := (text (firstBytes fields 2)).getD "unknown"

variable (objects : PyDict (String × String) SapientTrack)

/-- The track of a detection.  One that ends an object may do without a position. -/
def detectionTrack (nodeId : String) (node : NodeState) (sentAt : Moment)
    (fields : List WireField) :
    Except String SapientTrack := do
  let objectId := objectOf fields
  let state := text (firstBytes fields 4)
  let ended := deleteStates.contains (cleanClass py (state.getD ""))
  let place ← match position py node.origin fields with
    | .ok place => pure place
    | .error raised =>
      match objects.get? (nodeId, objectId) with
      | none => throw raised
      | some cached =>
        if ended then pure ⟨cached.lat, cached.lon, cached.altitude, []⟩ else throw raised
  let classifications ← ((allBytes fields 11).take 32).mapM (decodeClassification py)
  let objectClass := primaryClass py classifications
  let displayId := text (firstBytes fields 23)
  let trackInfo ← decodeInfo (allBytes fields 8)
  let objectInfo ← decodeInfo (allBytes fields 10)
  let signals ← decodeSignals (allBytes fields 14)
  let prediction ← optionalFields (firstBytes fields 9)
  let ahead := predicted py node.origin prediction
  let behaviours ← submessages fields 12 16
  let files ← associatedFiles fields 13
  let associated ← namedDetections fields 15
  let derived ← namedDetections fields 16
  let velocity ← optionalFields (firstBytes fields 19)
  return {
    ts := sentAt
    lat := py.round place.lat 7
    lon := py.round place.lon 7
    altitude := place.altitude.map (py.round · 2)
    delete := state.isSome && ended
    fields := entries
      ([("_src", some (.str "SAPIENT FLEX 335")),
        ("uid", some (.str ("sapient-" ++ nodeId ++ "-" ++ objectId))),
        ("sensor_id", some (.str nodeId)),
        ("object_id", some (.str objectId)),
        ("callsign", some (.str
          (displayId.getD (py.upper objectClass ++ "-" ++ lastEight objectId)))),
        ("sapient_message_type", some (.str "detection_report")),
        ("sapient_class", some (.str objectClass)),
        ("sapient_classifications", some (.list (classifications.map Classification.toJson))),
        ("sapient_node_types", nodeTypesEntry node)] ++
      place.metadata.map (fun (name, value) => (name, some value)) ++
      [("sapient_report_id", textEntry (text (firstBytes fields 1))),
        ("sapient_state", textEntry state),
        ("detection_confidence", floatEntry py (single (firstFixed32 fields 7)) 4),
        ("colour", textEntry (text (firstBytes fields 22))),
        ("sapient_track_info", dictEntry trackInfo),
        ("sapient_object_info", dictEntry objectInfo),
        ("sapient_signals", listEntry signals),
        ("sapient_task_id", textEntry (text (firstBytes fields 3))),
        ("sapient_predicted_lat_deg", floatEntry py (ahead.map fun spot => spot.1) 7),
        ("sapient_predicted_lon_deg", floatEntry py (ahead.map fun spot => spot.2.1) 7),
        ("sapient_predicted_alt_m", floatEntry py (ahead.bind fun spot => spot.2.2) 2),
        ("sapient_behaviour", listEntry (behaviours.filterMap (behaviour py))),
        ("sapient_associated_files", listEntry files),
        ("sapient_associated_detections", listEntry associated),
        ("sapient_derived_detections", listEntry derived),
        ("sapient_id", textEntry displayId)] ++ motion py node velocity) }

/-- The oldest objects leave when there are too many. -/
def trimmed :
    PyDict (String × String) SapientTrack where
  entries := objects.entries.drop (objects.length - maxObjects)
  nodup := by
    rw [List.map_drop]
    exact objects.nodup.sublist (List.drop_sublist _ _)

/-- What `_objects` holds after a detection. -/
def remember (key : String × String) (track : SapientTrack) :
    PyDict (String × String) SapientTrack :=
  if track.delete then objects.pop key else trimmed ((objects.pop key).set key track)

/-- `_detection`: the objects as it leaves them, and what it returns or raises. -/
def detection (nodeId : String) (node : NodeState) (sentAt : Moment) (data : Bytes) :
    PyDict (String × String) SapientTrack × Except String SapientTrack :=
  match fieldList data with
  | .error raised => (objects, .error raised)
  | .ok fields =>
    match detectionTrack py objects nodeId node sentAt fields with
    | .error raised => (objects, .error raised)
    | .ok track => (remember objects (nodeId, objectOf fields) track, .ok track)

/-! ## Alerts -/

/-- `_alert`. -/
def alert (nodeId : String) (node : NodeState) (sentAt : Moment) (data : Bytes) :
    Except String SapientTrack := do
  let fields ← fieldList data
  let place ← position py node.origin fields
  let alertId := (text (firstBytes fields 1)).getD "unknown"
  let description := text (firstBytes fields 4)
  let files ← associatedFiles fields 11
  let associated ← namedDetections fields 12
  return {
    ts := sentAt
    lat := py.round place.lat 7
    lon := py.round place.lon 7
    altitude := place.altitude.map (py.round · 2)
    delete := (firstVarint fields 3).map (nameOf alertStatus "") == some "clear"
    fields := entries
      ([("_src", some (.str "SAPIENT FLEX 335")),
        ("uid", some (.str ("sapient-alert-" ++ nodeId ++ "-" ++ alertId))),
        ("sensor_id", some (.str nodeId)),
        ("object_id", some (.str alertId)),
        ("callsign", some (.str (description.getD "SAPIENT ALERT"))),
        ("sapient_message_type", some (.str "alert")),
        ("sapient_class", some (.str "alert"))] ++
      place.metadata.map (fun (name, value) => (name, some value)) ++
      [("sapient_alert_type", nameEntry alertTypes "" (firstVarint fields 2)),
        ("sapient_alert_status", nameEntry alertStatus "" (firstVarint fields 3)),
        ("sapient_alert_priority", nameEntry alertPriority "" (firstVarint fields 8)),
        ("detection_confidence", floatEntry py (single (firstFixed32 fields 10)) 4),
        ("description", textEntry description),
        ("sapient_region_id", textEntry (text (firstBytes fields 7))),
        ("sapient_associated_files", listEntry files),
        ("sapient_associated_detections", listEntry associated),
        ("sapient_additional_information", textEntry (text (firstBytes fields 13)))]) }

/-! ## Messages that are only printed -/

/-- The texts of the first values of a repeated field. -/
def texts (fields : List WireField) (number limit : Nat) : List PyJson :=
  ((allBytes fields number).take limit).filterMap fun value => textEntry (text (some value))

/-- `_registration_ack`. -/
def registrationAck (data : Bytes) : Except String PyJson := do
  let fields ← fieldList data
  return .dict (entries
    [("accepted", some (.bool ((firstVarint fields 1).getD 0 != 0))),
      ("reasons", listEntry (texts fields 3 16))])

/-- `_task`. -/
def task (data : Bytes) : Except String PyJson := do
  let fields ← fieldList data
  let regions ← submessages fields 7 16
  let command ← optionalFields (firstBytes fields 8)
  return .dict (entries
    [("task_id", textEntry (text (firstBytes fields 1))),
      ("task_name", textEntry (text (firstBytes fields 2))),
      ("task_description", textEntry (text (firstBytes fields 3))),
      ("control", nameEntry taskControl "control_" (firstVarint fields 6)),
      ("regions", listEntry (regions.filterMap fun region =>
        let regionId := textEntry (text (firstBytes region 2))
        let regionName := textEntry (text (firstBytes region 3))
        if regionId.isSome || regionName.isSome then
          some (.dict [("region_id", regionId.getD .null), ("region_name", regionName.getD .null)])
        else none)),
      ("command_request", textEntry (text (firstBytes command 1))),
      ("command_mode_change", textEntry (text (firstBytes command 5))),
      ("command_parameter", textEntry (text (firstBytes command 8)))])

/-- `_task_ack`. -/
def taskAck (data : Bytes) : Except String PyJson := do
  let fields ← fieldList data
  return .dict (entries
    [("task_id", textEntry (text (firstBytes fields 1))),
      ("task_status", nameEntry taskStatus "status_" (firstVarint fields 2)),
      ("reasons", listEntry (texts fields 5 16))])

/-- `_alert_ack`. -/
def alertAck (data : Bytes) : Except String PyJson := do
  let fields ← fieldList data
  return .dict (entries
    [("alert_id", textEntry (text (firstBytes fields 1))),
      ("alert_ack_status", nameEntry alertAckStatus "status_" (firstVarint fields 5)),
      ("reasons", listEntry (texts fields 4 16))])

/-- `_error`. -/
def errorInfo (data : Bytes) : Except String PyJson := do
  let fields ← fieldList data
  return .dict (entries
    [("messages", some (.list (texts fields 3 32))),
      ("packet_bytes", (firstBytes fields 1).map fun packet => .int packet.length)])

/-! ## When a message is read -/

/-- A submessage can be read, when it is there. -/
def OptionalReadable (value : Option Bytes) : Prop := ∀ data, value = some data → Readable data

/-- Everything that `_status` reads can be read.  The lists are read of a node with a position. -/
structure StatusReads (node : NodeState) (fields : List WireField) : Prop where
  place : ∀ location, firstBytes fields 7 = some location →
    (decodeLocation py location).isOk = true
  power : (firstBytes fields 7).isSome ∨ (node.latitude.isSome ∧ node.longitude.isSome) →
    OptionalReadable (firstBytes fields 6)
  statuses : (firstBytes fields 7).isSome ∨ (node.latitude.isSome ∧ node.longitude.isSome) →
    AllReadable fields 11 32

/-- The position that `_status` reads is the one that its node has. -/
def StatusKeeps (node : NodeState) (fields : List WireField) : Prop :=
  ∀ location, firstBytes fields 7 = some location →
    ∀ place, decodeLocation py location = .ok place →
      node.latitude = some place.lat ∧ node.longitude = some place.lon ∧
        node.altitudeM = place.altitude

section Returns

variable {py} {fields : List WireField} {node : NodeState}

theorem optionalFields_isOk {value : Option Bytes} :
    (optionalFields value).isOk = true ↔ OptionalReadable value := by
  cases value with
  | none => exact iff_of_true rfl fun data h => by cases h
  | some data =>
    rw [optionalFields, OptionalReadable]
    exact ⟨fun h other hother => Option.some.inj hother ▸ h, fun h => h data rfl⟩

variable {nodeId : String} {sentAt : Moment} {data : Bytes}

theorem statusTrack_isOk :
    (statusTrack py nodeId node sentAt fields).isOk = true ↔
      (node.latitude.isSome ∧ node.longitude.isSome →
        OptionalReadable (firstBytes fields 6) ∧ AllReadable fields 11 32) := by
  rw [statusTrack]
  split
  next latitude longitude hlatitude hlongitude =>
    rw [isOk_bind, hlatitude, hlongitude, ← optionalFields_isOk, ← submessages_isOk]
    constructor
    · rintro ⟨power, hread, hrest⟩ -
      obtain ⟨statuses, hstatuses, -⟩ := isOk_bind.mp hrest
      exact ⟨isOk_iff.mpr ⟨power, hread⟩, isOk_iff.mpr ⟨statuses, hstatuses⟩⟩
    · intro h
      obtain ⟨hread, hstatuses⟩ := h ⟨rfl, rfl⟩
      obtain ⟨power, hpower⟩ := isOk_iff.mp hread
      obtain ⟨statuses, hlist⟩ := isOk_iff.mp hstatuses
      exact ⟨power, hpower, isOk_bind.mpr ⟨statuses, hlist, rfl⟩⟩
  next hnone =>
    refine iff_of_true rfl fun hboth => ?_
    obtain ⟨latitude, hlatitude⟩ := Option.isSome_iff_exists.mp hboth.1
    obtain ⟨longitude, hlongitude⟩ := Option.isSome_iff_exists.mp hboth.2
    exact absurd hlongitude (hnone latitude longitude hlatitude)

theorem status_isOk :
    (status py nodeId node sentAt data).2.isOk = true ↔
      ∃ fields, fieldList data = .ok fields ∧ StatusReads py node fields := by
  have hreads : ∀ fields, StatusReads py node fields ↔
      (∀ location, firstBytes fields 7 = some location →
        (decodeLocation py location).isOk = true) ∧
      ((firstBytes fields 7).isSome ∨ (node.latitude.isSome ∧ node.longitude.isSome) →
        OptionalReadable (firstBytes fields 6) ∧ AllReadable fields 11 32) :=
    fun fields => ⟨fun h => ⟨h.place, fun hplace => ⟨h.power hplace, h.statuses hplace⟩⟩,
      fun h => ⟨h.1, fun hplace => (h.2 hplace).1, fun hplace => (h.2 hplace).2⟩⟩
  rw [status]
  cases fieldList data with
  | error raised => simp [Except.isOk, Except.toBool]
  | ok fields =>
    simp only [Except.ok.injEq, exists_eq_left', hreads, located]
    cases firstBytes fields 7 with
    | none => simpa using statusTrack_isOk
    | some location =>
      simp only [Option.some.injEq, forall_eq']
      cases decodeLocation py location with
      | error raised => simp [Except.map, Except.isOk, Except.toBool]
      | ok place =>
        dsimp only [Except.map]
        rw [statusTrack_isOk]
        simp [Except.isOk, Except.toBool]

theorem status_eq :
    (status py nodeId node sentAt data).1 = node ↔
      ∀ fields, fieldList data = .ok fields → StatusKeeps py node fields := by
  rw [status]
  cases fieldList data with
  | error raised => simp
  | ok fields =>
    simp only [Except.ok.injEq, forall_eq', StatusKeeps, located]
    cases firstBytes fields 7 with
    | none => simp
    | some location =>
      simp only [Option.some.injEq, forall_eq']
      cases decodeLocation py location with
      | error raised => simp [Except.map]
      | ok place =>
        cases node
        simp [Except.map, eq_comm]

theorem task_isOk : (task data).isOk = true ↔
    ∃ fields, fieldList data = .ok fields ∧ AllReadable fields 7 16 ∧
      OptionalReadable (firstBytes fields 8) := by
  rw [task, isOk_bind]
  refine exists_congr fun fields => and_congr_right fun _ => ?_
  rw [isOk_bind, ← submessages_isOk, ← optionalFields_isOk]
  constructor
  · rintro ⟨regions, hregions, hrest⟩
    obtain ⟨command, hcommand, -⟩ := isOk_bind.mp hrest
    exact ⟨isOk_iff.mpr ⟨regions, hregions⟩, isOk_iff.mpr ⟨command, hcommand⟩⟩
  · rintro ⟨hregions, hcommand⟩
    obtain ⟨regions, hregions⟩ := isOk_iff.mp hregions
    obtain ⟨command, hcommand⟩ := isOk_iff.mp hcommand
    exact ⟨regions, hregions, isOk_bind.mpr ⟨command, hcommand, rfl⟩⟩

/-- A message of which only its own fields are read. -/
theorem isOk_of_fields {info : List WireField → PyJson} :
    ((fieldList data >>= fun fields => pure (info fields)) : Except String PyJson).isOk = true ↔
      Readable data := by
  rw [isOk_bind, Readable, isOk_iff]
  exact exists_congr fun fields => and_iff_left rfl

theorem registrationAck_isOk : (registrationAck data).isOk = true ↔ Readable data :=
  isOk_of_fields

theorem taskAck_isOk : (taskAck data).isOk = true ↔ Readable data := isOk_of_fields

theorem alertAck_isOk : (alertAck data).isOk = true ↔ Readable data :=
  isOk_of_fields

theorem errorInfo_isOk : (errorInfo data).isOk = true ↔ Readable data :=
  isOk_of_fields

end Returns

end Efdi.Sapient

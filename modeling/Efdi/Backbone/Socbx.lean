import Efdi.Backbone.GenericJson

/-!
# Soc-bx

The two messages of `socbx.py`, after the protobuf library has parsed them.  `unifiedRecords`
makes a track of each object with a position and an identity, `alertRecord` a sensor of an alert
with a position.  Their sources begin with `backbone:`, and their topics have the segment
`backbone`.
-/

namespace Efdi.Backbone

open Tracks (PyText Track wordPrefix)

variable (py : PyText) (N : JsonNumbers)

/-! ## Messages -/

structure Identity where
  objectId : String
  trackId : String
  externalId : String
  callsign : String
  name : String
  label : String
  domain : String
  objectType : String
  objectSubtype : String
  platformType : String
  vehicleType : String
  affiliation : String
  classification : String

structure Location where
  latitude : PyFloat
  longitude : PyFloat
  altitude : Option PyFloat

structure SocbxKinematics where
  heading : Option PyFloat
  course : Option PyFloat
  speed : Option PyFloat
  groundSpeed : Option PyFloat

/-- The features of an encounter. -/
structure Features where
  location : Option Location
  identity : Identity
  kinematics : SocbxKinematics

/-- `UnifiedSchema`. -/
structure UnifiedSchema where
  nodeId : String
  objects : List (String × Features)

/-- `Alert`. -/
structure SocbxAlert where
  id : String
  externalId : String
  nodeId : String
  title : String
  latitude : Int
  longitude : Int
  source : String
  vendor : String
  category : String
  status : String
  eventCount : Int

/-! ## Identities -/

/-- The first text that is not empty, or the default. -/
def orText (texts : List String) (default : String) : String :=
  (texts.find? (· != "")).getD default

variable (identity : Identity)

/-- `_has_identity`. -/
def hasIdentity : Bool :=
  [identity.objectId, identity.trackId, identity.callsign, identity.name, identity.label].any (· != "")

/-- The types that an identity states. -/
def Identity.types : List String :=
  [identity.objectType, identity.platformType, identity.vehicleType].map fun value =>
    py.lower (PyStr.strip value)

/-- `_says_aircraft`. -/
def saysAircraft : Bool := (identity.types py).contains "aircraft"

/-- `_generic`. -/
def generic : Bool :=
  identity.domain == "" && identity.objectSubtype == "" &&
    (identity.types py).all ["", "sensor", "unknown"].contains

/-- `_names_a_drone`. -/
def namesADrone (key : String) : Bool :=
  namesAirframe py ([key, identity.objectId, identity.name, identity.label, identity.callsign].map .str)

/-- `_dimension`. -/
def socbxDimension (key : String) : String :=
  let stated := [identity.domain, identity.objectType, identity.objectSubtype, identity.platformType,
    identity.vehicleType].filter (· != "")
  let haystack := py.lower (PyStr.join " " stated)
  if (["uav", "aircraft", "drone", "air", "helicopter", "rotary"].any fun token =>
      PyStr.contains token haystack) || namesADrone py identity key then "air"
  else if ["vessel", "ship", "boat", "sea", "maritime", "surface"].any fun token =>
      PyStr.contains token haystack then "sea"
  else "land"

/-- `_slot`. -/
def socbxSlot : String :=
  let affiliation := py.lower (PyStr.strip identity.affiliation)
  if affiliation = "" then "unknown" else if affiliation = "friend" then "friendly" else affiliation

/-- `_ICAO_HEX.match(text)`. -/
def wordsHex (text : String) : Option String := hexAddress (wordPrefix false) text

/-! ## Records -/

/-- A track with a text, unless it is empty. -/
def setText (key value : String) (record : Track) : Track :=
  if value = "" then record else record.set key (.str value)

/-- A track with a float, where there is one. -/
def setFloat (key : String) (value : Option PyFloat) (record : Track) : Track :=
  match value with
  | some x => record.set key (.float x)
  | none => record

/-- Both coordinates are zero. -/
def nowhere (location : Location) : Bool :=
  location.latitude == .finite 0 && location.longitude == .finite 0

/-- The record of an object before its address is looked at. -/
def socbxRecord (now : Rat) (nodeId objectId : String) (location : Location) (features : Features) :
    Track :=
  let identity := features.identity
  let kinematics := features.kinematics
  let record := (PyDict.empty.set "_ts" (.float (.finite now))).set "_src"
    (.str ("backbone:socbx:" ++ orText [nodeId] "unknown"))
  let record := record.set "uid"
    (.str (orText [identity.objectId, identity.trackId, identity.externalId] objectId))
  let record := (record.set "lat_deg" (.float location.latitude)).set "lon_deg"
    (.float location.longitude)
  let record := record.set "label"
    (.str (orText [identity.label, identity.name, identity.callsign] objectId))
  let record := record.set "affiliation" (.str (orText [identity.affiliation] "unknown"))
  let record := setFloat "alt_m" location.altitude record
  let record := if identity.callsign = "" then record
    else record.set "callsign" (.str (PyStr.strip identity.callsign))
  let record := setText "object_type" identity.objectType record
  let record := setText "classification" identity.classification record
  let record := setFloat "heading_deg" (kinematics.heading.or kinematics.course) record
  setFloat "speed_mps" (kinematics.speed.or kinematics.groundSpeed) record

/-- An object of `unified_records`. -/
def unifiedRecord (now : Rat) (nodeId objectId : String) (features : Features) :
    Option Normalized :=
  let identity := features.identity
  match features.location with
  | none => none
  | some location =>
    if nowhere location then none
    else if !hasIdentity identity && (wordsHex objectId).isNone then none
    else
      let record := socbxRecord now nodeId objectId location features
      let dimension := socbxDimension py identity objectId
      let record := if dimension = "air" && namesADrone py identity objectId then
        record.set "target_type" (.str "uav") else record
      let slot := socbxSlot py identity
      let uid := orText [identity.objectId, identity.trackId, identity.externalId] objectId
      match if generic py identity || saysAircraft py identity then wordsHex uid else none with
      | some address =>
        let record := (record.set "icao24" (.str address)).set "target_type" (.str "aircraft")
        if slot = "unknown" then some ⟨record, "air", "civ", "aircraft"⟩
        else some ⟨record, "air", slot, "unit"⟩
      | none => some ⟨record, dimension, slot, "unit"⟩

/-- `unified_records`. -/
def unifiedRecords (now : Nat → Rat) (msg : UnifiedSchema) : List Normalized :=
  (msg.objects.zipIdx.filterMap fun entry =>
    unifiedRecord py (now entry.2) msg.nodeId entry.1.1 entry.1.2)

/-- `alert_record`, at the topic of sensors. -/
def alertRecord (now detected : Rat) (msg : SocbxAlert) : Except String (Option Normalized) := do
  if msg.latitude = 0 ∧ msg.longitude = 0 then return none
  else
    let lat ← floatOf N msg.latitude
    let lon ← floatOf N msg.longitude
    let record := (PyDict.empty.set "_ts" (.float (.finite now))).set "_src"
      (.str ("backbone:socbx:alert:" ++ orText [msg.vendor, msg.source] "unknown"))
    let record := (record.set "sensor_type" (.str "soc")).set "sensor_id"
      (.str ("SOCBX-" ++ orText [msg.id, msg.externalId] msg.nodeId))
    let record := record.set "sensor_name" (.str (orText [msg.title, msg.category] "SOC-BX alert"))
    let record := (record.set "lat_deg" (.float lat)).set "lon_deg" (.float lon)
    let record := record.set "is_online" (.bool true)
    let record :=
      if ["closed", "resolved", "acknowledged"].contains (py.lower msg.status) then record
      else (record.set "last_detection_ts" (.float (.finite detected))).set "detection_count"
        (.int (max 1 msg.eventCount))
    return some ⟨record, "land", "neutral", "sensor"⟩

end Efdi.Backbone

import Efdi.Base.Checks
import Efdi.Base.PyDict
import Efdi.Sapient.Wire

/-!
# What the SAPIENT decoder reads out of submessages

Locations, ranges and bearings, classifications, signals and the small lists of a report.  Each
function takes the bytes of its submessage and gives what it stands for, or the text of the
`ValueError` it raises.

What the decoder uses of the arithmetic of floats and of the letters of Python is a parameter.
-/

namespace Efdi.Sapient

open Checks

/-- What the decoder uses of Python: the arithmetic of floats, the `math` module, `round` and the
case of letters.  `sin`, `cos` and `asin` raise on what is outside their domain. -/
structure Python where
  /-- The float that a literal stands for. -/
  literal : Rat → PyFloat
  add : PyFloat → PyFloat → PyFloat
  sub : PyFloat → PyFloat → PyFloat
  mul : PyFloat → PyFloat → PyFloat
  div : PyFloat → PyFloat → PyFloat
  mod : PyFloat → PyFloat → PyFloat
  degrees : PyFloat → PyFloat
  radians : PyFloat → PyFloat
  sin : PyFloat → Except String PyFloat
  cos : PyFloat → Except String PyFloat
  asin : PyFloat → Except String PyFloat
  atan2 : PyFloat → PyFloat → PyFloat
  hypot : PyFloat → PyFloat → PyFloat
  /-- `round(x, digits)`. -/
  round : PyFloat → Nat → PyFloat
  lower : String → String
  upper : String → String

variable (py : Python)

/-- `a <= b` on floats. -/
def floatLe : PyFloat → PyFloat → Bool
  | .nan, _ => false
  | _, .nan => false
  | .infinity true, _ => true
  | _, .infinity false => true
  | .finite a, .finite b => a ≤ b
  | _, _ => false

/-- `a < b` on floats. -/
def floatLt (a b : PyFloat) : Bool := floatLe a b && !floatLe b a

/-- The entries of a dict that have a value. -/
def entries (items : List (String × Option PyJson)) : List (String × PyJson) :=
  items.filterMap fun item => item.2.map (Prod.mk item.1)

def textEntry (value : Option String) : Option PyJson := value.map .str

def floatEntry (value : Option PyFloat) (digits : Nat) : Option PyJson :=
  value.map fun x => .float (py.round x digits)

def intEntry (value : Option Nat) : Option PyJson := value.map fun n : Nat => .int n

def listEntry (values : List PyJson) : Option PyJson :=
  if values = [] then none else some (.list values)

/-- The name that a table gives to a code, or a name made of the code. -/
def nameOf (table : List (Nat × String)) (front : String) (code : Nat) : String :=
  (table.lookup code).getD (front ++ toString code)

def nameEntry (table : List (Nat × String)) (front : String) (code : Option Nat) : Option PyJson :=
  code.map fun code => .str (nameOf table front code)

/-! ## Positions -/

/-- Where something is, and how that was told. -/
structure Position where
  lat : PyFloat
  lon : PyFloat
  altitude : Option PyFloat
  metadata : List (String × PyJson)

/-- `_decode_location`. -/
def decodeLocation (value : Bytes) : Except String Position := do
  let fields ← fieldList value
  let z := double (firstFixed64 fields 3)
  let coordinateSystem := firstVarint fields 7
  let datum := firstVarint fields 8
  match double (firstFixed64 fields 1), double (firstFixed64 fields 2) with
  | some x, some y =>
    let (lon, lat) ← match coordinateSystem with
      | some 1 => pure (x, y)
      | some 2 => pure (py.degrees x, py.degrees y)
      | some 5 => throw "SAPIENT UTM location needs a deployment coordinate transform"
      | _ => throw "unsupported SAPIENT location coordinate system"
    rejectIf (!(datum == some 1 || datum == some 2))
      "SAPIENT location datum must be WGS84 ellipsoid or WGS84 geoid"
    rejectIf (!(floatLe (.finite (-90)) lat && floatLe lat (.finite 90) &&
        floatLe (.finite (-180)) lon && floatLe lon (.finite 180)))
      "SAPIENT location is outside WGS-84 bounds"
    let metadata := entries
      [("sapient_location_coordinate_system", intEntry coordinateSystem),
        ("sapient_location_datum", intEntry datum),
        ("altitude_reference",
          some (.str (if datum = some 1 then "wgs84_ellipsoid" else "wgs84_geoid"))),
        ("lon_error", (double (firstFixed64 fields 4)).map .float),
        ("lat_error", (double (firstFixed64 fields 5)).map .float),
        ("alt_error_m", (double (firstFixed64 fields 6)).map .float)]
    return ⟨lat, lon, z, metadata⟩
  | _, _ => throw "SAPIENT location has no coordinates"

/-- What `_decode_range_bearing` returns. -/
structure RangeBearing where
  elevation : PyFloat
  azimuth : PyFloat
  distance : PyFloat
  metadata : List (String × PyJson)

/-- `_decode_range_bearing`. -/
def decodeRangeBearing (value : Bytes) : Except String RangeBearing := do
  let fields ← fieldList value
  let elevation := (double (firstFixed64 fields 1)).getD (.finite 0)
  let coordinateSystem := firstVarint fields 7
  let datum := firstVarint fields 8
  match double (firstFixed64 fields 2), double (firstFixed64 fields 3) with
  | some azimuth, some distance =>
    let inRadians := coordinateSystem == some 2 || coordinateSystem == some 4
    rejectIf (!(inRadians || coordinateSystem == some 1 || coordinateSystem == some 3))
      "unsupported SAPIENT range/bearing coordinate system"
    let azimuth := if inRadians then py.degrees azimuth else azimuth
    let elevation := if inRadians then py.degrees elevation else elevation
    let distance :=
      if coordinateSystem == some 3 || coordinateSystem == some 4 then
        py.mul distance (py.literal 1000)
      else distance
    rejectIf (datum == some 2 || datum == some 3 || datum == some 4)
      "SAPIENT magnetic/grid/platform bearing needs a deployment heading transform"
    rejectIf (datum != some 1) "SAPIENT range/bearing datum must be true north"
    let turned := py.mod azimuth (py.literal 360)
    let metadata := entries
      [("sapient_range_m", some (.float (py.round distance 2))),
        ("sapient_azimuth_deg", some (.float (py.round turned 3))),
        ("sapient_elevation_deg", some (.float (py.round elevation 3))),
        ("sapient_range_bearing_datum", intEntry datum)]
    return ⟨elevation, turned, distance, metadata⟩
  | _, _ => throw "SAPIENT range/bearing lacks azimuth or range"

/-- Where a node stands. -/
structure Origin where
  latitude : Option PyFloat
  longitude : Option PyFloat
  altitude : Option PyFloat

/-- `_project`. -/
def project (origin : Origin) (seen : RangeBearing) :
    Except String (PyFloat × PyFloat × Option PyFloat) := do
  match origin.latitude, origin.longitude with
  | some latitude, some longitude =>
    let horizontal := py.mul seen.distance (← py.cos (py.radians seen.elevation))
    let angular := py.div horizontal (py.literal 6371008.8)
    let bearing := py.radians seen.azimuth
    let lat1 := py.radians latitude
    let lon1 := py.radians longitude
    let lat2 ← py.asin (py.add (py.mul (← py.sin lat1) (← py.cos angular))
      (py.mul (py.mul (← py.cos lat1) (← py.sin angular)) (← py.cos bearing)))
    let east := py.mul (py.mul (← py.sin bearing) (← py.sin angular)) (← py.cos lat1)
    let north := py.sub (← py.cos angular) (py.mul (← py.sin lat1) (← py.sin lat2))
    let lon2 := py.add lon1 (py.atan2 east north)
    let altitude ← match origin.altitude with
      | none => pure none
      | some altitude => do
          let rise ← py.sin (py.radians seen.elevation)
          pure (some (py.add altitude (py.mul seen.distance rise)))
    let turned := py.mod (py.add (py.degrees lon2) (py.literal 540)) (py.literal 360)
    return (py.degrees lat2, py.sub turned (py.literal 180), altitude)
  | _, _ => throw "range/bearing detection arrived before sensor location"

/-- `_position`. -/
def position (origin : Origin) (fields : List WireField) : Except String Position :=
  match firstBytes fields 6, firstBytes fields 5 with
  | some location, _ => decodeLocation py location
  | none, some rangeBearing => do
      let seen ← decodeRangeBearing py rangeBearing
      let (lat, lon, altitude) ← project py origin seen
      return ⟨lat, lon, altitude, seen.metadata⟩
  | none, none => throw "SAPIENT report has no supported location"

/-! ## Lists of submessages -/

/-- The fields of a message can be read. -/
def Readable (data : Bytes) : Prop := (fieldList data).isOk = true

variable (fields : List WireField)

/-- The first submessages with a number can be read. -/
def AllReadable (number limit : Nat) : Prop :=
  ∀ value ∈ (allBytes fields number).take limit, Readable value

/-- The fields of each of the first submessages with a number. -/
def submessages (number limit : Nat) :
    Except String (List (List WireField)) :=
  ((allBytes fields number).take limit).mapM fieldList

theorem submessages_isOk {fields : List WireField} {number limit : Nat} :
    (submessages fields number limit).isOk = true ↔ AllReadable fields number limit := isOk_mapM

/-- `_decode_info`. -/
def decodeInfo (values : List Bytes) : Except String (PyDict String PyJson) := do
  let items ← (values.take 64).mapM fieldList
  return items.foldl (fun result fields =>
    match text (firstBytes fields 1), text (firstBytes fields 2) with
    | some key, some item => result.set (PyStr.take 96 key) (.str (PyStr.take 256 item))
    | _, _ => result) PyDict.empty

/-- An entry of `sapient_classifications`. -/
structure Classification where
  type : String
  confidence : Option PyFloat
  subClasses : List PyJson

def Classification.toJson (classification : Classification) : PyJson :=
  .dict (entries
    [("type", some (.str classification.type)),
      ("confidence", classification.confidence.map .float),
      ("sub_classes", listEntry classification.subClasses)])

/-- `_decode_classification`. -/
def decodeClassification (value : Bytes) : Except String Classification := do
  let fields ← fieldList value
  let subClasses ← submessages fields 3 16
  return {
    type := (text (firstBytes fields 1)).getD "unknown"
    confidence := (single (firstFixed32 fields 2)).map (py.round · 4)
    subClasses := subClasses.filterMap fun subFields =>
      (text (firstBytes subFields 1)).map fun subType =>
        .dict (entries
          [("type", some (.str subType)),
            ("confidence", floatEntry py (single (firstFixed32 subFields 2)) 4),
            ("level", intEntry (firstVarint subFields 3))]) }

/-- `_primary_class`: the type of the first classification with the greatest confidence. -/
def primaryClass : List Classification → String
  | [] => "unknown"
  | first :: others =>
    let confidence := fun item : Classification => item.confidence.getD (.finite (-1))
    let greatest := others.foldl (fun best item =>
      if floatLt (confidence best) (confidence item) then item else best) first
    py.lower greatest.type

/-- `_decode_signals`. -/
def decodeSignals (values : List Bytes) : Except String (List PyJson) := do
  let items ← (values.take 16).mapM fieldList
  return items.filterMap fun fields =>
    let signal := entries
      ([(1, "amplitude"), (2, "start_frequency"), (3, "centre_frequency"),
          (4, "stop_frequency"), (5, "pulse_duration")].map fun (number, name) =>
        (name, (single (firstFixed32 fields number)).map .float))
    if signal = [] then none else some (.dict signal)

/-- The entries of `sapient_associated_files`. -/
def associatedFiles (number : Nat) : Except String (List PyJson) := do
  let items ← submessages fields number 16
  return items.filterMap fun fields =>
    (text (firstBytes fields 2)).map fun url =>
      .dict [("type", .str ((text (firstBytes fields 1)).getD "unknown")), ("url", .str url)]

/-- The entries of `sapient_associated_detections` and `sapient_derived_detections`. -/
def namedDetections (number : Nat) : Except String (List PyJson) := do
  let items ← submessages fields number 32
  return items.filterMap fun fields =>
    match text (firstBytes fields 2), text (firstBytes fields 3) with
    | some node, some object => some (.dict [("node_id", .str node), ("object_id", .str object)])
    | _, _ => none

/-- `_TIME_UNITS_S`. -/
def timeUnitsS : List (Nat × Rat) :=
  [(1, 1 / 1000000000), (2, 1 / 1000000), (3, 1 / 1000), (4, 1), (5, 60), (6, 3600), (7, 86400)]

/-- `_duration_seconds`. -/
def durationSeconds (units : Option Nat) (amount : Option PyFloat) : Option PyFloat := do
  let scale ← timeUnitsS.lookup (← units)
  return py.round (py.mul (← amount) (py.literal scale)) 6

/-- `_speed_scale`. -/
def speedScale (units : Option Nat) : Option PyFloat :=
  match units with
  | some 1 => some (py.literal 1)
  | some 2 => some (py.div (py.literal 1) (py.literal 3.6))
  | _ => none

/-- `_clean_class`. -/
def cleanClass (value : String) : String :=
  oneSpaced (PyStr.replace "-" " " (PyStr.replace "_" " " (py.lower value))).toList

end Efdi.Sapient

import Efdi.Base.Xml
import Efdi.Tak.MarkerUid
import Mathlib.Data.List.ReduceOption

/-!
# The CoT event of a track

`track_to_cot` writes a track as one CoT event: a point, a label, a speed and a course, remarks, and
the shape of its geometry.

Every vertex of a line costs at least 42 bytes (`line_size_le`), so the size of an event has no
bound but the one on its vertices.
-/

namespace Efdi.Tak.TrackCot

open Tracks MarkerUid Xml List Option

/-- What `track_to_cot` uses of Python, and the texts that it takes from elsewhere. -/
structure CotText extends UidText where
  /-- `float(text)`, when it does not raise. -/
  floatText : String → Option PyFloat
  /-- `float(n)`, when it does not raise an `OverflowError`. -/
  floatOfInt : Int → Option PyFloat
  /-- The float that a literal stands for. -/
  literal : Rat → PyFloat
  add : PyFloat → PyFloat → PyFloat
  mul : PyFloat → PyFloat → PyFloat
  mod : PyFloat → PyFloat → PyFloat
  hypot : PyFloat → PyFloat → PyFloat
  round : PyFloat → Nat → PyFloat
  /-- `int(round(x))`, when it does not raise. -/
  roundInt : PyFloat → Option Int
  /-- `_ts`, when it does not raise. -/
  stamp : PyFloat → Option String
  /-- `time.time()`. -/
  clock : PyFloat
  /-- `_build_remarks`, when it does not raise. -/
  remarks : Track → String → Option String
  /-- The image of a type in `_COT_ICON_B64`, when `COT_USERICON` is on. -/
  usericon : String → Option String

variable (T : CotText)

/-! ## Numbers -/

/-- What `float` raises. -/
inductive FloatError where
  /-- `TypeError` or `ValueError`. -/
  | wrong
  | overflow

/-- `float(value)`. -/
def float : PyJson → Except FloatError PyFloat
  | .bool b => .ok (.finite (if b then 1 else 0))
  | .int n => (T.floatOfInt n).elim (.error .overflow) .ok
  | .float x => .ok x
  | .str s => (T.floatText s).elim (.error .wrong) .ok
  | _ => .error .wrong

/-- `float(value)` where every error is caught. -/
def number (value : PyJson) : Option PyFloat := (float T value).toOption

/-- `float(value)` where an `OverflowError` is not caught: `none` is that error. -/
def numberOrRaise (value : PyJson) : Option (Option PyFloat) :=
  match float T value with
  | .ok x => some (some x)
  | .error .wrong => some none
  | .error .overflow => none

/-- The value of a float that is finite. -/
def finite : PyFloat → Option Rat
  | .finite x => some x
  | _ => none

/-- `int(x)`, when it does not raise. -/
def truncate (x : PyFloat) : Option Int := (finite x).map fun value => value.num.tdiv value.den

/-- `str(x)` of a float. -/
def floatStr (x : PyFloat) : String := pyStr T.toPyText (.float x)

/-- `x * scale`. -/
def times (scale : Rat) (x : PyFloat) : PyFloat := T.mul x (T.literal scale)

/-- The first number under one of the keys that is finite and passes a test. -/
def firstNumber (keys : List (String × (PyFloat → PyFloat))) (test : Rat → Bool) (track : Track) :
    Option PyFloat :=
  keys.findSome? fun (key, scaled) =>
    match track.field key with
    | .null => none
    | value => ((number T value).map scaled).filter fun x => (finite x).any test

/-- What stands for an unknown height or error. -/
def unknown : PyFloat := T.literal 9999999

/-- `_hae`. -/
def hae (track : Track) : PyFloat :=
  ((firstNumber T
    [("geo_alt_m", times T 1), ("alt_geom_ft", times T 0.3048), ("baro_alt_m", times T 1),
      ("alt_baro_ft", times T 0.3048), ("alt_3d_ft", times T 0.3048),
      ("mode_c_alt_ft", times T 0.3048), ("alt_ft", times T 0.3048), ("alt_m", times T 1),
      ("alt_km", times T 1000)] (· ≠ 0) track).map (T.round · 1)).getD (unknown T)

/-- The radius of two deviations. -/
def radius (keys : String × String × Rat) (track : Track) : Option PyFloat := do
  let x ← if track.field keys.1 = .null then none else number T (track.field keys.1)
  let y ← if track.field keys.2.1 = .null then none else number T (track.field keys.2.1)
  some (T.hypot (times T keys.2.2 x) (times T keys.2.2 y))

/-- `_ce`. -/
def ce (track : Track) : PyFloat :=
  match firstNumber T [("position_uncertainty_m", id), ("position_accuracy_m", id)] (0 ≤ ·)
    track with
  | some x => T.round x 1
  | none =>
    (([("sigma_x_m", "sigma_y_m", 1), ("track_sigma_x_nm", "track_sigma_y_nm", 1852)].findSome?
      fun keys => (radius T keys track).filter fun x => (finite x).any (0 ≤ ·)).map
        (T.round · 1)).getD (unknown T)

/-- `_le`. -/
def le (track : Track) : PyFloat :=
  ((firstNumber T [("height_accuracy_m", id)] (0 ≤ ·) track).map (T.round · 1)).getD (unknown T)

/-- `_speed_ms`. -/
def speedMs (track : Track) : PyFloat :=
  ((firstNumber T
    [("speed_ms", times T 1), ("ground_speed_kts", times T 0.514444),
      ("speed_kts", times T 0.514444), ("sog_ms", times T 1)] (0 ≤ ·) track).map
        (T.round · 2)).getD (T.literal 0)

/-- `_course`. -/
def course (track : Track) : PyFloat :=
  ((firstNumber T [("heading_deg", id), ("track_deg", id), ("cog_deg", id)] (fun _ => true)
    track).map fun x => T.round (T.mod x (T.literal 360)) 1).getD (T.literal 0)

/-! ## Labels -/

/-- `(a or b or "").strip()`, when it does not raise. -/
def stripped (values : List PyJson) : Option String :=
  match values.find? truthy with
  | none => some ""
  | some (.str s) => some (PyStr.strip s)
  | some _ => none

/-- The name of a vessel, a satellite or a sensor. -/
def named (track : Track) : Option String :=
  ["name", "ship_name", "sat_name", "sensor_name"].findSome? fun key =>
    let name := PyStr.strip (pyStr T.toPyText (track.field key))
    if truthy (track.field key) ∧ name ≠ "" then some name else none

/-- `_callsign`, when it does not raise. -/
def callsign (track : Track) (uid : String) : Option String :=
  match named T track with
  | some name => some name
  | none => do
      let reg ← stripped [track.field "registration"]
      let atype ← stripped [track.field "aircraft_type"]
      let cs ← stripped [track.field "callsign", track.field "label"]
      let label :=
        if reg ≠ "" then reg
        else if track.field "track_num" ≠ .null then
          "TRK-" ++ pyStr T.toPyText (track.field "track_num")
        else cs
      if label ≠ "" then some (if atype ≠ "" then label ++ " (" ++ atype ++ ")" else label)
      else if atype ≠ "" then some atype
      else
        let place ← stripped [track.field "place_name"]
        if place ≠ "" then some place
        else if truthy (track.field "mmsi") then some (pyStr T.toPyText (track.field "mmsi"))
        else some (PyStr.drop (PyStr.len uid - 12) uid)

/-- The `access` of an event. -/
def access (track : Track) : Option String :=
  let parts := (["classification", "classification_caveat"].filter fun key =>
    truthy (track.field key)).map fun key => pyStr T.toPyText (track.field key)
  if parts = [] then none else some (PyStr.join " " parts)

/-! ## Shapes -/

/-- `MAX_SHAPE_POINTS`. -/
def maxShapePoints : Nat := 20000

/-- An element without a text and without children. -/
def leaf (tag : String) (attrib : List (String × String)) : Element := .mk tag attrib "" []

/-- A point of an event or of a shape. -/
def pointElement (track : Track) (lat lon : PyFloat) : Element :=
  leaf "point"
    [("lat", floatStr T (T.round lat 6)), ("lon", floatStr T (T.round lon 6)),
      ("hae", floatStr T (hae T track)), ("ce", floatStr T (ce T track)),
      ("le", floatStr T (le T track))]

/-- The first two numbers of a vertex, `none` when it is no vertex. -/
def lonLat : PyJson → Option (PyJson × PyJson)
  | .list (lon :: lat :: _) => some (lon, lat)
  | _ => none

/-- `shape_point`: the element that it appends, or an `OverflowError`. -/
def shapePoint (track : Track) (coordinate : PyJson) : Option (Option Element) :=
  match lonLat coordinate with
  | none => some none
  | some (lon, lat) => do
      match ← numberOrRaise T lon with
      | none => some none
      | some x =>
        match ← numberOrRaise T lat with
        | none => some none
        | some y =>
          if (finite x).any (fun x => -180 ≤ x ∧ x ≤ 180) ∧
              (finite y).any (fun y => -90 ≤ y ∧ y ≤ 90) then
            some (some (pointElement T track y x))
          else some none

/-- The points of a shape. -/
def shapePoints (track : Track) (coordinates : List PyJson) : Option (List Element) :=
  ((coordinates.take maxShapePoints).mapM (shapePoint T track)).map List.reduceOption

/-- A `<link>` to a vertex. -/
def linkElement (track : Track) (lat lon : PyFloat) : Element :=
  leaf "link"
    [("point", floatStr T lat ++ "," ++ floatStr T lon ++ "," ++ floatStr T (hae T track))]

/-- A vertex of a trail. -/
def trailPoint (track : Track) (coordinate : PyJson) : Option (Option Element) :=
  match lonLat coordinate with
  | none => some none
  | some (lon, lat) => do
      match ← numberOrRaise T lat with
      | none => some none
      | some y =>
        match ← numberOrRaise T lon with
        | none => some none
        | some x => some (some (linkElement T track (T.round y 6) (T.round x 6)))

/-- `a == b` on floats. -/
def sameFloat : PyFloat → PyFloat → Bool
  | .nan, _ => false
  | a, b => a = b

/-- `_argb`. -/
def argb (alpha rgb : Nat) : Int :=
  let value := alpha <<< 24 ||| rgb
  if value &&& 0x80000000 ≠ 0 then (value : Int) - 2 ^ 32 else value

/-- `_SHAPE_COLORS`. -/
def shapeColors : List (String × Int × Int) :=
  [("red", argb 0xFF 0xFF2020, argb 0x33 0xFF2020),
    ("orange", argb 0xFF 0xFF8C00, argb 0x26 0xFF8C00),
    ("yellow", argb 0xFF 0xFFD000, argb 0x26 0xFFD000),
    ("white", argb 0xCC 0xFFFFFF, argb 0x1A 0xFFFFFF)]

/-- `_WASH_COLORS`. -/
def washColors : List (String × Int × Int) :=
  [("red", argb 0x55 0xFF2020, argb 0x33 0xFF2020),
    ("orange", argb 0x55 0xFF8C00, argb 0x26 0xFF8C00),
    ("yellow", argb 0x55 0xFFD000, argb 0x26 0xFFD000),
    ("white", argb 0x55 0xFFFFFF, argb 0x1A 0xFFFFFF)]

/-- `_COUNTRY_COLORS`. -/
def countryColors : List (String × Int × Int) :=
  [("red", argb 0xB0 0xFF2020, argb 0x33 0xFF2020),
    ("orange", argb 0xB0 0xFF8C00, argb 0x26 0xFF8C00)]

/-- `_BORDER_COLORS`. -/
def borderColors : List (String × Int × Int) :=
  [("red", argb 0xFF 0xFF2020, 0), ("blue", argb 0xFF 0x2060FF, 0)]

/-- `_TRAIL_COLORS`. -/
def trailColors : List (String × Int × Int) :=
  [("orange", argb 0xCC 0xFF8C00, 0), ("red", argb 0xCC 0xFF2020, 0)]

/-- `table.get(key)`, `none` when the key is not hashable. -/
def lookupKey {α : Type} (table : List (String × α)) : PyJson → Option (Option α)
  | .str s => some (table.lookup s)
  | .list _ => none
  | .dict _ => none
  | _ => some none

/-- `_shape_colors(track).get(track.get("shape_color"))`. -/
def zoneColors (track : Track) : Option (Option (Int × Int)) := do
  let colors ← lookupKey [("wash", washColors), ("country", countryColors),
    ("border", borderColors), ("trail", trailColors)] (track.field "shape_style")
  lookupKey (colors.getD shapeColors) (track.field "shape_color")

/-- `value[0][:MAX_SHAPE_POINTS]` as far as there are vertices in it: a text has none. -/
def outerVertices : PyJson → Option (List PyJson)
  | .list (.list ring :: _) => some (ring.take maxShapePoints)
  | .list (.str _ :: _) => some []
  | .str s => if s = "" then none else some []
  | _ => none

/-- A drawn zone: its vertices as links, closed, and its colours. -/
def zone (track : Track) (coordinates : PyJson) (stroke fill : Int) : Option (List Element) := do
  let vertices ← outerVertices coordinates
  let ring ← (vertices.filterMap lonLat).mapM fun (lon, lat) => do
    let y ← number T lat
    let x ← number T lon
    some (T.round y 6, T.round x 6)
  let closing := match ring with
    | first :: others =>
      match others.getLast? with
      | some last =>
        if sameFloat first.1 last.1 && sameFloat first.2 last.2 then [] else [first]
      | none => []
    | [] => []
  let weight := match track.field "shape_style" with
    | .str "wash" => "1.0"
    | .str "country" => "2.0"
    | _ => "3.0"
  some ((ring ++ closing).map (fun vertex => linkElement T track vertex.1 vertex.2) ++
    [leaf "__shapeExtras" [("cpvis", "false"), ("editable", "false")],
      leaf "strokeColor" [("value", toString stroke)], leaf "strokeWeight" [("value", weight)],
      leaf "color" [("value", toString stroke)], leaf "fillColor" [("value", toString fill)]])

/-- An open line with its vertices as links. -/
def trail (track : Track) (coordinates : List PyJson) : Option (List Element) := do
  let links ← (coordinates.take maxShapePoints).mapM (trailPoint T track)
  let color ← lookupKey trailColors (track.field "shape_color")
  let stroke := (color.getD (argb 0xCC 0xFF8C00, 0)).1
  some (links.reduceOption ++
    [leaf "strokeColor" [("value", toString stroke)], leaf "strokeWeight" [("value", "2.0")],
      leaf "fillColor" [("value", "0")], leaf "color" [("value", toString stroke)],
      leaf "__shapeExtras" [("cpvis", "false"), ("editable", "false")]])

/-- A `<shape>` with the points of a polygon or of a line. -/
def shape (track : Track) (tag : String) (coordinates : List PyJson) : Option (List Element) :=
  (shapePoints T track coordinates).map fun points => [.mk "shape" [] "" [.mk tag [] "" points]]

/-- `line if isinstance(line, list) else []`. -/
def vertices : PyJson → List PyJson
  | .list xs => xs
  | _ => []

/-- What the geometry of a track adds to its event, and whether it makes it a drawing. -/
def geometryDetail (track : Track) : Option (Bool × List Element) :=
  match track.field "geometry" with
  | .dict items =>
    let coordinates := (PyJson.dict items).getD "coordinates" .null
    match (PyJson.dict items).getD "type" .null with
    | .str "Polygon" => do
        match ← zoneColors track with
        | some (stroke, fill) => (zone T track coordinates stroke fill).map (Prod.mk true)
        | none =>
          match coordinates with
          | .list (.list ring :: _) => (shape T track "polygon" ring).map (Prod.mk false)
          | _ => some (false, [])
    | .str "LineString" =>
      match track.field "shape_style", coordinates with
      | .str "trail", .list line => (trail T track line).map (Prod.mk true)
      | _, line => (shape T track "line" (vertices line)).map (Prod.mk false)
    | .str "MultiLineString" =>
      match coordinates with
      | .list (line :: _) => (shape T track "line" (vertices line)).map (Prod.mk false)
      | _ => some (false, [])
    | type => (lookupKey ([] : List (String × Unit)) type).map fun _ => (false, [])
  | _ => some (false, [])

/-! ## Sensors -/

/-- A `<sensor>` around the point of an event. -/
def sensorElement (vfov fov : String) (range azimuth : Int) : Element :=
  leaf "sensor"
    [("vfov", vfov), ("fov", fov), ("hfov", fov), ("range", toString range),
      ("azimuth", toString azimuth), ("model", "Generic"), ("ranges", "0"), ("type", "radar"),
      ("displayMagneticReference", "0"), ("stockTool", "false")]

/-- The range of a radar, 0 when there is none. -/
def radarRange (track : Track) : Int :=
  let told := if truthy (track.field "radar_range_m") then track.field "radar_range_m" else .int 0
  match (number T told).bind truncate with
  | some range => if 0 < range ∧ range ≤ 1000000 then range else 0
  | none => 0

/-- `value > 0`, when it does not raise. -/
def positive : PyJson → Option Bool
  | .bool b => some b
  | .int n => some (decide (0 < n))
  | .float (.finite x) => some (decide (0 < x))
  | .float (.infinity negative) => some (!negative)
  | .float .nan => some false
  | _ => none

/-- The sensor of a track. -/
def sensorDetail (track : Track) : Option (List Element) :=
  let range := radarRange T track
  if track.field "sweep_azimuth_deg" ≠ .null ∧ range ≠ 0 then do
    let azimuth ← (number T (track.field "sweep_azimuth_deg")).bind T.roundInt
    some [sensorElement "1" "5" range azimuth]
  else if track.field "sensor_type" = .str "radar" ∧ range ≠ 0 then
    some [sensorElement "90" "360" range 0]
  else do
    let radiusKm := (track.get? "radius_km").getD (.int 0)
    if ← positive radiusKm then
      let threatRange ← ((number T radiusKm).map (times T 1000)).bind truncate
      some [sensorElement "90" "360" threatRange 0]
    else some []

/-! ## The event -/

/-- A `<link>` to a picture. -/
def snapshot (track : Track) : List Element :=
  match track.field "snapshot_url" with
  | .str url =>
    if PyStr.startsWith url "https://" ∧ PyStr.len url ≤ 2048 then
      [leaf "link" [("url", url), ("type", "image/jpeg"), ("relation", "r-u")]]
    else []
  | _ => []

/-- A position and times that `track_to_cot` writes. -/
structure Fix where
  lat : PyFloat
  lon : PyFloat
  now : PyFloat
  stale : PyFloat

/-- The position and the times of a track, when it has an event. -/
def fix (track : Track) (staleS : PyFloat) : Option Fix := do
  let lat ← number T (track.field "lat_deg")
  let lon ← number T (track.field "lon_deg")
  let told ← number T ((track.get? "_ts").getD (.float T.clock))
  let now := if (finite told).isSome then told else T.clock
  if (finite lat).any (fun lat => -90 ≤ lat ∧ lat ≤ 90) ∧
      (finite lon).any (fun lon => -180 ≤ lon ∧ lon ≤ 180) ∧ (finite staleS).any (0 < ·) then
    some ⟨lat, lon, now, T.add now staleS⟩
  else none

/-- The event of a track with a position, when nothing raises. -/
def eventElement (track : Track) (cotType : String) (place : Fix) : Option Element := do
  let uid ← uid T.toUidText track
  let label ← callsign T track uid
  let (drawn, shapes) ← geometryDetail T track
  let sensors ← sensorDetail T track
  let start ← T.stamp place.now
  let stale ← T.stamp place.stale
  let remarks ← T.remarks track cotType
  let attrib := [("version", "2.0"), ("uid", uid), ("type", if drawn then "u-d-f" else cotType),
    ("how", if drawn then "h-e" else "m-g"), ("time", start), ("start", start), ("stale", stale)]
  let detail := [leaf "efdi" [("role", "fabric-export")]] ++ shapes ++
    ((T.usericon cotType).toList.map fun icon => leaf "usericon" [("b64image", icon)]) ++
    [leaf "contact" [("callsign", label)],
      leaf "track"
        [("speed", floatStr T (speedMs T track)), ("course", floatStr T (course T track))]] ++
    sensors ++ [.mk "remarks" [] remarks []] ++ snapshot track
  some (.mk "event" (attrib ++ ((access T track).toList.map (Prod.mk "access"))) ""
    [pointElement T track place.lat place.lon, .mk "detail" [] "" detail])

/-- The declaration before an event. -/
def declaration : String := "<?xml version=\"1.0\" encoding=\"UTF-8\"?>"

/-- `track_to_cot`: the event, or nothing, when it does not raise. -/
def trackToCot (track : Track) (cotType : String) (staleS : PyFloat) : Option (Option String) :=
  match fix T track staleS with
  | none => some none
  | some place =>
    (eventElement T track cotType place).map fun event => some (declaration ++ tostring event)

/-! ## Sizes -/

section

variable {T} {track : Track} {cotType xml : String} {staleS : PyFloat}

theorem pointElement_size_le (track : Track) (lat lon : PyFloat) :
    42 ≤ size (tostring (pointElement T track lat lon)) := by
  have hsize := size_attributes_le "point" [("lat", floatStr T (T.round lat 6)),
    ("lon", floatStr T (T.round lon 6)), ("hae", floatStr T (hae T track)),
    ("ce", floatStr T (ce T track)), ("le", floatStr T (le T track))] "" []
  have htag : size "point" = 5 := by decide
  have hlat : size "lat" = 3 := by decide
  have hlon : size "lon" = 3 := by decide
  have hhae : size "hae" = 3 := by decide
  have hce : size "ce" = 2 := by decide
  have hle : size "le" = 2 := by decide
  rw [size_attributes] at hsize
  simp only [map_cons, map_nil, sum_cons, sum_nil, htag, hlat, hlon, hhae, hce,
    hle] at hsize
  rw [pointElement, leaf]
  omega

/-- An event is written no shorter than what its geometry adds. -/
theorem exists_shapes (hxml : trackToCot T track cotType staleS = some (some xml)) :
    ∃ drawn shapes, geometryDetail T track = some (drawn, shapes) ∧
      (shapes.map fun shape => size (tostring shape)).sum ≤ size xml := by
  rw [trackToCot] at hxml
  split at hxml
  next => cases hxml
  next place _ =>
    obtain ⟨event, hevent, htext⟩ := map_eq_some_iff.mp hxml
    obtain rfl := some.inj htext
    obtain ⟨uid, -, hevent⟩ := bind_eq_some_iff.mp hevent
    obtain ⟨label, -, hevent⟩ := bind_eq_some_iff.mp hevent
    obtain ⟨⟨drawn, shapes⟩, hshapes, hevent⟩ := bind_eq_some_iff.mp hevent
    obtain ⟨sensors, -, hevent⟩ := bind_eq_some_iff.mp hevent
    obtain ⟨start, -, hevent⟩ := bind_eq_some_iff.mp hevent
    obtain ⟨stale, -, hevent⟩ := bind_eq_some_iff.mp hevent
    obtain ⟨remarks, -, hevent⟩ := bind_eq_some_iff.mp hevent
    refine ⟨drawn, shapes, hshapes, ?_⟩
    rw [← some.inj hevent, size_append]
    refine le_trans ?_ (Nat.le_add_left _ _)
    refine le_trans ?_ (size_child_le (mem_cons_of_mem _ mem_cons_self))
    refine le_trans ?_ (size_children_le _ _ _ _)
    simp only [map_append, sum_append]
    omega

/-- A point that `shape_point` appends has a size. -/
theorem shapePoint_size_le {coordinate : PyJson} {point : Element}
    (h : shapePoint T track coordinate = some (some point)) : 42 ≤ size (tostring point) := by
  rw [shapePoint] at h
  split at h
  next => cases h
  next lon lat _ =>
    obtain ⟨x, -, h⟩ := bind_eq_some_iff.mp h
    cases x with
    | none => cases h
    | some x =>
      obtain ⟨y, -, h⟩ := bind_eq_some_iff.mp h
      cases y with
      | none => cases h
      | some y =>
        dsimp only at h
        split at h
        next =>
          rw [← some.inj (some.inj h)]
          exact pointElement_size_le track y x
        next => cases h

/-- Vertices that are all drawn cost at least 42 bytes each. -/
theorem points_size_le : ∀ {coordinates : List PyJson} {points : List (Option Element)},
    (∀ coordinate ∈ coordinates, ∃ point, shapePoint T track coordinate = some (some point)) →
      coordinates.mapM (shapePoint T track) = some points →
        42 * coordinates.length ≤
          (points.reduceOption.map fun point => size (tostring point)).sum
  | [], _, _, _ => Nat.zero_le _
  | coordinate :: coordinates, points, hdrawn, h => by
    obtain ⟨point, hpoint⟩ := hdrawn coordinate mem_cons_self
    rw [mapM_cons] at h
    obtain ⟨first, hfirst, h⟩ := bind_eq_some_iff.mp h
    obtain ⟨rest, hrest, h⟩ := bind_eq_some_iff.mp h
    rw [hpoint] at hfirst
    obtain rfl := some.inj hfirst
    have ih := points_size_le (fun other hother => hdrawn other (.tail _ hother))
      hrest
    have hsize := shapePoint_size_le hpoint
    rw [← some.inj h, reduceOption_cons_of_some, map_cons, sum_cons,
      length_cons]
    omega

/-- A line whose vertices are all drawn costs at least 42 bytes a vertex. -/
theorem line_size_le {line : List PyJson}
    (hxml : trackToCot T track cotType staleS = some (some xml))
    (hgeometry : track.field "geometry" =
      .dict [("type", .str "LineString"), ("coordinates", .list line)])
    (hstyle : track.field "shape_style" ≠ .str "trail")
    (hdrawn : ∀ coordinate ∈ line, ∃ point, shapePoint T track coordinate = some (some point)) :
    42 * min maxShapePoints line.length ≤ size xml := by
  have hdetail : geometryDetail T track = (shape T track "line" line).map (Prod.mk false) := by
    rw [geometryDetail, hgeometry]
    show (match track.field "shape_style", PyJson.list line with
      | .str "trail", .list line => (trail T track line).map (Prod.mk true)
      | _, line => (shape T track "line" (vertices line)).map (Prod.mk false)) = _
    split
    next htrail _ => exact absurd htrail hstyle
    next => rfl
  obtain ⟨drawn, shapes, hshapes, hsize⟩ := exists_shapes hxml
  rw [hdetail] at hshapes
  obtain ⟨elements, hshape, hpair⟩ := map_eq_some_iff.mp hshapes
  obtain rfl := (Prod.mk.inj hpair).2
  obtain ⟨points, hpoints, rfl⟩ := map_eq_some_iff.mp hshape
  obtain ⟨found, hfound, rfl⟩ := map_eq_some_iff.mp hpoints
  have hvertices := points_size_le
    (fun coordinate hmem => hdrawn coordinate (mem_of_mem_take hmem)) hfound
  rw [length_take] at hvertices
  refine hvertices.trans (le_trans ?_ hsize)
  rw [map_singleton, sum_singleton]
  exact (size_children_le _ _ _ _).trans (size_child_le mem_cons_self)

end

end Efdi.Tak.TrackCot

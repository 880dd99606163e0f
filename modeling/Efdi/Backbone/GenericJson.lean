import Efdi.Backbone.Relay
import Efdi.Tracks.Twins

/-!
# Generic JSON

`normalize` of `generic_json.py` makes a track of a JSON object with a position, whatever the
schema of its sender.  The source that it writes begins with `backbone:`, and its topic has the
segment `backbone`.
-/

namespace Efdi.Backbone

open Tracks (PyText pyStr Track isHex)

/-- What `normalize` does with floats. -/
structure JsonNumbers where
  /-- `float(text)`, `none` where it raises `ValueError`. -/
  float : String → Option PyFloat
  /-- `float(n)`, `none` where it raises `OverflowError`. -/
  floatOfInt : Int → Option Rat
  /-- `round(value, 6)`. -/
  round6 : Rat → Rat

variable (py : PyText) (N : JsonNumbers)

/-- `value or default`. -/
def orElse (value default : PyJson) : PyJson := if value.truthy then value else default

/-! ## Names of airframes -/

/-- `(?<!s)quad` somewhere in a text, with the character before it. -/
def hasQuad : Char → List Char → Bool
  | _, [] => false
  | before, c :: cs =>
    (before != 's' && "quad".toList.isPrefixOf (c :: cs)) || hasQuad c cs

/-- `token in ("uas", "dji") or _AIRFRAME_WORDS.search(token)`. -/
def airframeToken (token : List Char) : Bool :=
  token == "uas".toList || token == "dji".toList || hasQuad ' ' token ||
    ["drone", "uav", "copter", "mavic", "matrice"].any fun word =>
      PyStr.containsList word.toList token

/-- `re.split(r"[^a-z0-9]+", text)`, with empty tokens more. -/
def tokens (text : String) : List (List Char) :=
  text.toList.splitOnP fun c => !(('a' ≤ c && c ≤ 'z') || ('0' ≤ c && c ≤ '9'))

/-- `names_airframe`. -/
def namesAirframe (names : List PyJson) : Bool :=
  names.any fun name => (tokens (py.lower (pyStr py (orElse name (.str ""))))).any airframeToken

/-! ## Reading a payload -/

def latKeys : List String := ["lat", "latitude", "lat_deg"]

def lonKeys : List String := ["lon", "lng", "longitude", "lon_deg"]

def jsonIdKeys : List String := ["ci_uuid", "ci_name", "id", "uid", "drone"]

def labelKeys : List String := ["ci_name", "label", "name", "drone"]

/-- `_DIMENSIONS`. -/
def dimensions : List String := ["air", "land", "sea", "space"]

/-- `_first`. -/
def first (payload : PyJson) (keys : List String) : PyJson :=
  ((keys.map fun key => payload.getD key .null).find? fun value => decide (value ≠ .null)).getD .null

/-- `float(n)`. -/
def floatOf (n : Int) : Except String PyFloat :=
  match N.floatOfInt n with
  | some x => .ok (.finite x)
  | none => .error "OverflowError"

/-- `_number`. -/
def number : PyJson → Except String (Option PyFloat)
  | .int n => (floatOf N n).map some
  | .float x => .ok (some x)
  | .str s => .ok (N.float (PyStr.strip s))
  | _ => .ok none

/-- Coordinates in their ranges. -/
def inRange (lat lon : Option PyFloat) : Option (Rat × Rat) :=
  match lat, lon with
  | some (.finite lat), some (.finite lon) =>
    if (-90 ≤ lat ∧ lat ≤ 90) ∧ (-180 ≤ lon ∧ lon ≤ 180) then some (lat, lon) else none
  | _, _ => none

variable (payload : PyJson)

/-- `_position`. -/
def position : Except String (Option (Rat × Rat)) := do
  let lat ← number N (first payload latKeys)
  let lon ← number N (first payload lonKeys)
  let location := payload.getD "location" .null
  if (lat.isNone || lon.isNone) && location.isDict then
    let lat ← number N (first location ("latitude" :: latKeys))
    let lon ← number N (first location ("longitude" :: lonKeys))
    return inRange lat lon
  else return inRange lat lon

/-- `_identity`. -/
def identityBlock : PyJson :=
  let node := ["metadata", "soc_bx_unified", "original", "features", "identity"].foldl
    (fun (node : PyJson) key => node.getD key .null) payload
  if node.isDict then node else .dict []

/-- `(payload.get(key) or {}).get(field)`. -/
def blockField (key field : String) : Except String PyJson :=
  let block := payload.getD key .null
  if block.truthy then
    if block.isDict then .ok (block.getD field .null) else .error "AttributeError"
  else .ok .null

/-- `_cot_type`. -/
def cotType : String :=
  pyStr py (orElse (payload.getD "cot_type" .null)
    (orElse ((identityBlock payload).getD "object_subtype" .null) (.str "")))

/-- The dimension that a CoT type states. -/
def cotDimension (cot : String) : Option String :=
  if PyStr.startsWith cot "a-" then
    match PyStr.split '-' cot with
    | _ :: _ :: domain :: _ =>
      [("A", "air"), ("S", "sea"), ("G", "land"), ("P", "space")].lookup domain
    | _ => none
  else none

/-- `_dimension`. -/
def dimensionOf : Except String String :=
  let domain := py.lower (pyStr py ((identityBlock payload).getD "domain" (.str "")))
  let explicit := py.lower (pyStr py (payload.getD "dimension" (.str "")))
  match cotDimension (cotType py payload) with
  | some dimension => .ok dimension
  | none =>
    if dimensions.contains domain then .ok domain
    else if dimensions.contains explicit then .ok explicit
    else do
      let deviceType ← blockField payload "device" "type"
      let kind := py.lower (PyStr.join " " (([payload.getD "type" .null, deviceType].filter
        PyJson.truthy).map (pyStr py)))
      if ["uav", "aircraft", "drone"].any fun word => PyStr.contains word kind then return "air"
      else if ["vessel", "ship", "boat"].any fun word => PyStr.contains word kind then return "sea"
      else if namesAirframe py ((jsonIdKeys ++ labelKeys).map fun key => payload.getD key .null) then
        return "air"
      else return "land"

/-- `_affiliation_slot`. -/
def affiliationSlot : Except String String := do
  let stated := orElse (payload.getD "affiliation" .null)
    ((identityBlock payload).getD "affiliation" .null)
  let raw ←
    if stated.truthy then pure stated
    else
      let block := payload.getD "metadata" .null
      if block.truthy && !block.isDict then .error "AttributeError"
      else pure (if block.truthy then block.getD "affiliation" (.str "") else .str "")
  let text := py.lower (pyStr py raw)
  let text := if text = "friend" then "friendly" else text
  return if ["friendly", "hostile", "neutral"].contains text then text else "unknown"

/-- A text without one newline at its end, where `$` matches. -/
def chomp (text : String) : List Char :=
  if text.toList.getLast? = some '\n' then text.toList.dropLast else text.toList

/-- The address, in lower case, of a text that ends in six hexadecimal digits, when the test passes
what is before them. -/
def hexAddress (front : List Char → Bool) (text : String) : Option String :=
  let chars := chomp text
  let address := chars.drop (chars.length - 6)
  if address.length = 6 ∧ address.all isHex = true ∧ front (chars.take (chars.length - 6)) = true then
    some (PyStr.lower (String.ofList address))
  else none

/-- `(?:[A-Za-z]+:)?`. -/
def wordFront (front : List Char) : Bool :=
  front.isEmpty || (front.getLast? == some ':' && !front.dropLast.isEmpty &&
    front.dropLast.all Char.isAlpha)

/-- `_ICAO_HEX.match(text)`. -/
def icaoHex (text : String) : Option String := hexAddress wordFront text

/-! ## The track -/

/-- A record with the segments of its topic. -/
structure Normalized where
  record : Track
  dimension : String
  slot : String
  entity : String

/-- `"".join(...)[:120]` of an id. -/
def safeId (text : String) : String :=
  PyStr.take 120 (String.ofList (text.toList.map fun c =>
    if py.isAlnum c || "._:-".toList.contains c then c else '_'))

/-- The record before its dimension is looked at. -/
def baseRecord (now : Rat) (origin : String) (at' : Rat × Rat) (rawId label : PyJson) : Track :=
  let record := (PyDict.empty.set "_ts" (.float (.finite now))).set "_src"
    (.str ("backbone:json:" ++ origin))
  let record := record.set "uid" (.str ("BACKBONE-" ++ safeId py (pyStr py rawId)))
  let record := (record.set "lat_deg" (.float (.finite (N.round6 at'.1)))).set "lon_deg"
    (.float (.finite (N.round6 at'.2)))
  record.set "callsign"
    (.str (PyStr.take 120 (pyStr py (orElse label rawId))))

/-- `normalize`. -/
def normalize (now : Rat) (payload : PyJson) (origin : String) :
    Except String (Option Normalized) := do
  if payload.isDict then
    match ← position N payload with
    | none => return none
    | some at' =>
      let rawId := orElse (first payload jsonIdKeys) (.str origin)
      let label := first payload labelKeys
      let record := baseRecord py N now origin at' rawId label
      let dimension ← dimensionOf py payload
      let callsign := PyStr.take 120 (pyStr py (orElse label rawId))
      let icao := (icaoHex (pyStr py rawId)).or (icaoHex callsign)
      let undeclared := dimension == "land" && !(payload.getD "dimension" .null).truthy &&
        !(payload.getD "type" .null).truthy
      match if undeclared then icao else none with
      | some address =>
        let record := (record.set "icao24" (.str address)).set "target_type" (.str "aircraft")
        let slot ← affiliationSlot py payload
        if slot = "unknown" then return some ⟨record, "air", "civ", "aircraft"⟩
        else return some ⟨record, "air", slot, "unit"⟩
      | none =>
        let drone ←
          if dimension == "air" then
            if PyStr.endsWith (cotType py payload) "-Q" then pure true
            else do
              let deviceType ← blockField payload "device" "type"
              pure (namesAirframe py [rawId, label, payload.getD "type" .null, deviceType])
          else pure false
        let record := if drone then record.set "target_type" (.str "uav") else record
        let slot ← affiliationSlot py payload
        return some ⟨record, dimension, slot, "unit"⟩
  else return none

/-- The key of a record of the backbone. -/
def backboneTopic (root dimension slot entity : String) : String :=
  root ++ "/" ++ dimension ++ "/backbone/" ++ slot ++ "/" ++ entity ++ "/tracks/v1"

/-- A record under its key. -/
def Normalized.sample (pod : Pod) (normalized : Normalized) : Sample :=
  ⟨backboneTopic pod.topicRoot normalized.dimension normalized.slot normalized.entity,
    .json normalized.record⟩

/-- The key of a record is guarded, so the layer does not put it. -/
theorem layer_of_normalized {pod : Pod} (normalized : Normalized) :
    layerHandle pod (normalized.sample pod) = none := by
  have hkey : (normalized.sample pod).key = pod.topicRoot ++ "/" ++ (normalized.dimension ++
      "/backbone/" ++ (normalized.slot ++ "/" ++ normalized.entity ++ "/tracks/v1")) := by
    simp only [Normalized.sample, backboneTopic, String.append_assoc]
  apply layer_of_guardedKey
  rw [guardedKey, hkey, suffix_append, PyStr.contains_append, Bool.true_or, Bool.true_or]

end Efdi.Backbone

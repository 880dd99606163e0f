import Efdi.Base.PyDict
import Efdi.Base.PyJson
import Efdi.Base.PyStr
import Mathlib.Algebra.Order.Ring.Rat

/-!
# CoT events

What the TAK bridge reads off a CoT frame: `_emergency` says whose emergency a frame opens or
cancels, and `_normalize_event` makes a record of a position.

Of a record stand here its time, its uid, its stale time and its emergency.  The other fields and
the topic are read off the event alone, which the record keeps.
-/

namespace Efdi.Tak.Cot

/-! ## Elements -/

/-- An element of a parsed frame. -/
structure Element where
  tag : String
  attrib : PyDict String String
  text : Option String
  tail : Option String
  children : List Element

/-- `_local_name`. -/
def localName (tag : String) : String := ((PyStr.split '\x7d' tag).getLast?).getD tag

/-- `element.get(name)`. -/
def Element.get (element : Element) (name : String) : Option String := element.attrib.get? name

/-- `_child`. -/
def Element.child (parent : Element) (name : String) : Option Element :=
  parent.children.find? fun item => localName item.tag == name

/-- `s.split()`. -/
def words (s : String) : List String :=
  ((s.toList.splitOnP PyStr.isSpace).filter (· ≠ [])).map String.ofList

/-- `_text`, with the length at which it cuts. -/
def textOf (limit : Nat) (value : Option String) : Option String :=
  value.bind fun value =>
    let text := PyStr.join " " (words value)
    if text = "" then none else some (PyStr.take limit text)

/-- `_text` at its default length. -/
def text (value : Option String) : Option String := textOf 256 value

/-- The standard library: `float(value)`, the time stamp of `datetime.fromisoformat(value)`, and the
digest of an event. -/
structure Lib where
  float : String → Option PyFloat
  timestamp : String → Option Rat
  hexdigest : Element → String

/-- `_to_float`. -/
def Lib.toFloat (lib : Lib) (value : Option String) : Option PyFloat :=
  value.bind fun value => if value = "" then none else lib.float value

/-- `_parse_time`. -/
def Lib.parseTime (lib : Lib) (value : Option String) : Option Rat :=
  value.bind fun value =>
    if value = "" then none else lib.timestamp (PyStr.replace "Z" "+00:00" value)

/-! ## Emergencies -/

/-- `_EMERGENCY_TYPES.get(cot_type)`. -/
def emergencyType (cotType : String) : Option String :=
  match cotType with
  | "b-a-o-tbl" => some "911 ALERT"
  | "b-a-o-pan" => some "RING THE BELL"
  | "b-a-o-opn" => some "IN CONTACT"
  | "b-a-o-c" => some "TROOPS IN CONTACT"
  | "b-a-g" => some "GEOFENCE BREACH"
  | _ => none

/-- The uid of the last p-p link in the detail. -/
def linkedUid (detail : Option Element) : String :=
  ((detail.map Element.children).getD []).foldl
    (fun uid link =>
      if localName link.tag == "link" && link.get "relation" == some "p-p" &&
          (link.get "uid").getD "" != "" then
        (link.get "uid").getD ""
      else uid) ""

/-- The uid of the client that an emergency is about. -/
def clientUid (event : Element) : String :=
  let uid := linkedUid (event.child "detail")
  if uid = "" then PyStr.removeSuffix ((text (event.get "uid")).getD "") "-9-1-1" else uid

/-- `_emergency`: the client and its emergency, which is missing when it is cancelled. -/
def emergency (event : Element) : Option (String × Option String) :=
  let cotType := (text (event.get "type")).getD ""
  let marker := (event.child "detail").bind (·.child "emergency")
  if (!PyStr.startsWith cotType "b-a-o" && !PyStr.startsWith cotType "b-a-g") &&
      marker.isNone then none
  else
    let uid := clientUid event
    if uid = "" then none
    else if cotType = "b-a-o-can" ∨
        PyStr.lower ((marker.bind (·.get "cancel")).getD "") = "true" then some (uid, none)
    else if marker.isSome ∨ (emergencyType cotType).isSome then
      let said := (marker.bind (·.get "type")).getD ""
      let said := if said = "" then (emergencyType cotType).getD "" else said
      some (uid, some ((textOf 48 (some said)).getD "ALERT"))
    else none

/-! ## Positions -/

/-- A record, with the event whose other fields it has. -/
structure Record where
  ts : Rat
  uid : String
  staleS : Option Rat
  emergencyStr : Option String
  event : Element

/-- `_is_fabric_reflection`. -/
def isFabricReflection (event : Element) : Bool :=
  ((event.child "detail").bind (·.child "efdi")).any fun marker =>
    marker.get "role" == some "fabric-export"

/-- The point is `0.0, 0.0`, which stands for no position. -/
def Lib.noPosition (lib : Lib) (point : Element) : Bool :=
  lib.toFloat (point.get "lat") == some (.finite 0) &&
    lib.toFloat (point.get "lon") == some (.finite 0)

/-- `_normalize_event`, with the clock as `base_record` reads it and as it is read for the stale
time. -/
def Lib.normalizeEvent (lib : Lib) (event : Element) (created now : Rat) : Option Record :=
  let uid := (text (event.get "uid")).or ((text (event.get "UID")).or (text (event.get "id")))
  let cotType := (text (event.get "type")).getD ""
  let point := event.child "point"
  if isFabricReflection event then none
  else if !PyStr.startsWith cotType "a-" then none
  -- a frame without point, uid and type did not come this far
  else if point.any lib.noPosition then none
  else
    some {
      ts := created
      uid := uid.getD (PyStr.take 16 (lib.hexdigest event))
      staleS := (lib.parseTime (text (event.get "stale"))).map fun stale => max 1 (stale - now)
      emergencyStr := none
      event }

variable {lib : Lib} {event : Element} {created now : Rat} {record : Record}

theorem normalizeEvent_eq_some (h : lib.normalizeEvent event created now = some record) :
    record.emergencyStr = none ∧ ∀ stale, record.staleS = some stale → 1 ≤ stale := by
  rw [Lib.normalizeEvent] at h
  split_ifs at h
  obtain rfl := Option.some.inj h
  refine ⟨rfl, fun stale hstale => ?_⟩
  obtain ⟨epoch, -, rfl⟩ := Option.map_eq_some_iff.mp hstale
  exact le_max_left _ _

end Efdi.Tak.Cot

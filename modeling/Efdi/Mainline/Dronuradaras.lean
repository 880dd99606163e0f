import Mathlib.Data.Finset.Union
import Efdi.Asterix.Fields
import Efdi.Base.Runs

/-!
# The dronuradaras bridge

`run_devices` and `run_detections` of `dronuradaras_bridge.py`, two threads over shared tables.
Each section under `_device_lock` is a step and so is each put.  What a thread still has to do of
its cycle is a list of works, and a thread whose list is empty is about to poll.
-/

namespace Efdi.Mainline

open Asterix (FloatMath)

/-! ## Documents -/

/-- A device of a device document.  A missing id is empty. -/
structure Device where
  id : String
  displayName : Option String
  latitude : Option Rat
  longitude : Option Rat
  /-- `dev.get("is_online") is True`. -/
  isOnline : Bool
  lastSeenAt : Option String
deriving DecidableEq

/-- A device with an id and a position. -/
structure Positioned where
  device : Device
  lat : Rat
  lon : Rat
deriving DecidableEq

/-- A detection of a detection document. -/
structure Detection where
  id : String
  /-- In milliseconds. -/
  detectedAt : Rat
  deviceId : String
  audioAvailable : Bool
deriving DecidableEq

/-- `with_position`. -/
def withPosition (devices : List Device) : List Positioned :=
  devices.filterMap fun dev =>
    if dev.id = "" then none
    else
      match dev.latitude, dev.longitude with
      | some lat, some lon => some ⟨dev, lat, lon⟩
      | _, _ => none

/-- `online_ids`. -/
def onlineIds (devices : List Device) : Finset String :=
  (((withPosition devices).filter fun p => p.device.isOnline).map fun p => p.device.id).toFinset

/-- `positioned_ids`. -/
def positionedIds (devices : List Device) : Finset String :=
  ((withPosition devices).map fun p => p.device.id).toFinset

/-! ## Tables -/

/-- The tables that the threads share. -/
structure Tables where
  names : PyDict String String
  positions : PyDict String (Rat × Rat)
  lastDetection : PyDict String Rat
  lastDetectionAudio : PyDict String String
  onlineDevices : Finset String
  offlineAnnounced : Finset String

/-- A status that is put.  A tombstone is one to be deleted. -/
structure Status where
  ts : Rat
  sensorId : String
  sensorName : String
  lat : Rat
  lon : Rat
  isOnline : Bool
  lastSeen : Option String
  delete : Bool
  lastDetectionTs : Option Rat
  lastDetectionAudioUrl : Option String

/-- The order in which a set is gone through. -/
structure SetOrder where
  toList : Finset String → List String
  nodup : ∀ ids, (toList ids).Nodup
  mem : ∀ ids id, id ∈ toList ids ↔ id ∈ ids

variable (F : FloatMath) (order : SetOrder)

/-- `"MAINLINE-DRONU-{}".format(dev_id[:8])`. -/
def sensorId (id : String) : String := "MAINLINE-DRONU-" ++ PyStr.take 8 id

/-! ## `run_devices` -/

/-- What `run_devices` still has to do with a document. -/
inductive DeviceWork where
  /-- The section about a device, before its status is put. -/
  | status (p : Positioned) (isOnline : Bool)
  | put (id : String) (status : Status)
  /-- The tombstone of a device that is missing, at its last position. -/
  | missing (id : String) (lat lon : Rat)

/-- `_device_names` with the names of a document. -/
def namesFrom (devices : List Device) (names : PyDict String String) : PyDict String String :=
  devices.foldl (fun names dev =>
    match dev.displayName with
    | some name => if dev.id ≠ "" ∧ name ≠ "" then names.set dev.id name else names
    | none => names) names

/-- `offline_candidates`. -/
def offlineCandidates (devices : List Device) (t : Tables) : Finset String :=
  (((withPosition devices).filter fun p =>
      decide (p.device.id ∉ onlineIds devices ∧ p.device.id ∈ t.onlineDevices)).map
        fun p => p.device.id).toFinset ∪
    ((t.positions.entries.map Prod.fst).filter fun id =>
      decide (id ∉ onlineIds devices ∧ id ∉ positionedIds devices)).toFinset

/-- `tombstone_ids`. -/
def tombstoneIds (devices : List Device) (t : Tables) : Finset String :=
  offlineCandidates devices t \ (t.offlineAnnounced \ onlineIds devices)

/-- The section of `run_devices` about a document. -/
def processDocument (devices : List Device) (t : Tables) : Tables :=
  let online := onlineIds devices
  -- the keys of `_device_positions` that are popped from all three tables
  let gone (id : String) : Bool := t.positions.contains id && decide (id ∉ online)
  { names := namesFrom devices t.names
    positions := t.positions.filter fun id _ => !gone id
    lastDetection := t.lastDetection.filter fun id _ => !gone id
    lastDetectionAudio := t.lastDetectionAudio.filter fun id _ => !gone id
    onlineDevices := online
    offlineAnnounced := (t.offlineAnnounced \ online) ∪ tombstoneIds devices t }

/-- What `run_devices` has to put for a document. -/
def documentWork (devices : List Device) (t : Tables) : List DeviceWork :=
  let online := onlineIds devices
  let tombstones := tombstoneIds devices t
  ((withPosition devices).filter fun p =>
      decide (p.device.id ∈ online ∨ p.device.id ∈ tombstones)).map
        (fun p => .status p (decide (p.device.id ∈ online))) ++
    (order.toList (tombstones \ positionedIds devices)).map fun id =>
      -- `previous_positions[dev_id]`, which is there
      let position := (t.positions.get? id).getD (0, 0)
      .missing id position.1 position.2

/-- The section about a device. -/
def statusSection (p : Positioned) (isOnline : Bool) (t : Tables) : Tables :=
  if isOnline then { t with positions := t.positions.set p.device.id (p.lat, p.lon) } else t

/-- The payload of a device of the document. -/
def deviceStatus (p : Positioned) (isOnline : Bool) (t : Tables) (now : Rat) : Status :=
  let lastDet := if isOnline then t.lastDetection.get? p.device.id else none
  let lastAudio := if isOnline then t.lastDetectionAudio.get? p.device.id else none
  { ts := now
    sensorId := sensorId p.device.id
    sensorName := p.device.displayName.getD "dronu-sensor"
    lat := F.round p.lat 6
    lon := F.round p.lon 6
    isOnline := isOnline
    lastSeen := some (p.device.lastSeenAt.getD "")
    delete := !isOnline
    lastDetectionTs := lastDet
    lastDetectionAudioUrl := if lastDet.isSome then lastAudio.filter (· ≠ "") else none }

/-- The payload of a device that is missing. -/
def missingStatus (id : String) (lat lon : Rat) (t : Tables) (now : Rat) : Status where
  ts := now
  sensorId := sensorId id
  sensorName := (t.names.get? id).getD "dronu-sensor"
  lat := F.round lat 6
  lon := F.round lon 6
  isOnline := false
  lastSeen := none
  delete := true
  lastDetectionTs := none
  lastDetectionAudioUrl := none

/-! ## `run_detections` -/

/-- What `run_detections` still has to do in its cycle. -/
inductive DetectionWork where
  /-- The section that notes a detection. -/
  | record (id : String) (now : Rat) (audioUrl : Option String)
  /-- The section of `_publish_sensor_alert`. -/
  | check (id : String) (ts : Rat) (audioUrl : Option String)
  | put (id : String) (status : Status)
  /-- The section that looks for sensors to cool down. -/
  | warm (now : Rat) (touched : Finset String)
  /-- The section about a sensor that cools down. -/
  | cool (id : String)

/-- `DETECT_WINDOW_S` and `ALERT_WARM_S`. -/
def detectWindow : Rat := 300

/-- `AUDIO_URL`. -/
def audioUrl (apiBase detId : String) : String :=
  apiBase ++ "/detections/" ++ detId ++ "/audio"

/-- The loop of `run_detections` over the detections: what is to be recorded, the sensors that are
touched, and the ids that were seen. -/
def readDetections (apiBase : String) (now : Rat) : List Detection → PyDict String Rat →
    Finset String → List DetectionWork × Finset String × PyDict String Rat
  | [], seen, touched => ([], touched, seen)
  | det :: detections, seen, touched =>
    if det.id = "" ∨ seen.contains det.id = true then
      readDetections apiBase now detections seen touched
    else if detectWindow < F.sub now (F.div det.detectedAt 1000) then
      readDetections apiBase now detections seen touched
    else if det.deviceId = "" then readDetections apiBase now detections seen touched
    else
      let url := if det.audioAvailable then some (audioUrl apiBase det.id) else none
      let (works, touched, seen) := readDetections apiBase now detections (seen.set det.id now)
        (insert det.deviceId touched)
      (.record det.deviceId now url :: works, touched, seen)

/-- The payload of `_publish_sensor_alert`. -/
def alertStatus (id name : String) (lat lon ts : Rat) (url : Option String) (now : Rat) :
    Status where
  ts := now
  sensorId := sensorId id
  sensorName := name
  lat := F.round lat 6
  lon := F.round lon 6
  isOnline := true
  lastSeen := none
  delete := false
  lastDetectionTs := some ts
  lastDetectionAudioUrl := url.filter (· ≠ "")

/-! ## The bridge -/

/-- What happened, as far as others can see it: a document was processed, or a status of a sensor was
put. -/
inductive Entry where
  | document (devices : List Device)
  | put (id : String) (status : Status)

/-- The bridge: the tables, what each thread still has to do, `seen`, and what happened, the latest
first. -/
structure Bridge where
  tables : Tables
  device : List DeviceWork
  detection : List DetectionWork
  seen : PyDict String Rat
  log : List Entry

/-- The bridge when it starts. -/
def Bridge.start : Bridge where
  tables := ⟨PyDict.empty, PyDict.empty, PyDict.empty, PyDict.empty, ∅, ∅⟩
  device := []
  detection := []
  seen := PyDict.empty
  log := []

/-- What happens next.  A poll that fails has no document. -/
inductive Event where
  | pollDevices (document : Option (List Device))
  | device (now : Rat)
  | pollDetections (now : Rat) (document : Option (List Detection))
  | detection (now : Rat)

namespace Bridge

/-- The next step of `run_devices` in its cycle. -/
def deviceStep (now : Rat) (b : Bridge) : Bridge :=
  match b.device with
  | [] => b
  | .status p isOnline :: works =>
    { b with
      tables := statusSection p isOnline b.tables
      device := .put p.device.id (deviceStatus F p isOnline b.tables now) :: works }
  | .put id status :: works => { b with device := works, log := .put id status :: b.log }
  | .missing id lat lon :: works =>
    { b with device := works, log := .put id (missingStatus F id lat lon b.tables now) :: b.log }

/-- The next step of `run_detections` in its cycle. -/
def detectionStep (now : Rat) (b : Bridge) : Bridge :=
  match b.detection with
  | [] => b
  | .record id ts url :: works =>
    { b with
      tables := { b.tables with lastDetection := b.tables.lastDetection.set id ts }
      detection := .check id ts url :: works }
  | .check id ts url :: works =>
    let audio :=
      match url.filter (· ≠ "") with
      | some url => b.tables.lastDetectionAudio.set id url
      | none => b.tables.lastDetectionAudio
    let tables := { b.tables with lastDetectionAudio := audio }
    let name := (b.tables.names.get? id).getD (if id ≠ "" then PyStr.take 8 id else "unknown")
    match b.tables.positions.get? id with
    | none => { b with tables := tables, detection := works }
    | some (lat, lon) =>
      if id ∈ b.tables.onlineDevices then
        { b with
          tables := tables
          detection := .put id (alertStatus F id name lat lon ts url now) :: works }
      else { b with tables := tables, detection := works }
  | .put id status :: works => { b with detection := works, log := .put id status :: b.log }
  | .warm cycle touched :: works =>
    let stillWarm := b.tables.lastDetection.entries.filter fun entry =>
      decide (F.sub cycle entry.2 ≤ detectWindow ∧ entry.1 ∉ touched)
    { b with detection := stillWarm.map (fun entry => .cool entry.1) ++ works }
  | .cool id :: works =>
    match b.tables.lastDetection.get? id with
    | none => { b with detection := works }
    | some ts =>
      { b with detection := .check id ts (b.tables.lastDetectionAudio.get? id) :: works }

/-- One step of the bridge. -/
def next (apiBase : String) (b : Bridge) : Event → Bridge
  | .pollDevices none => b
  | .pollDevices (some devices) =>
    if b.device.isEmpty then
      { b with
        tables := processDocument devices b.tables
        device := documentWork order devices b.tables
        log := .document devices :: b.log }
    else b
  | .device now => b.deviceStep F now
  | .pollDetections now document =>
    if b.detection.isEmpty then
      let seen := b.seen.filter fun _ published => decide (F.sub now detectWindow < published)
      let (works, touched, seen) := readDetections F apiBase now (document.getD []) seen ∅
      { b with detection := works ++ [.warm now touched], seen := seen }
    else b
  | .detection now => b.detectionStep F now

end Bridge

end Efdi.Mainline

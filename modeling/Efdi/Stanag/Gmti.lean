import Efdi.Base.Checks
import Efdi.Stanag.KlvPackets

/-!
# GMTI packets

The STANAG 4607 part of `stanag.py`.  A packet is a header of 32 bytes and a row of segments, and
a dwell segment has a mask that says which of its fields are there and which fields each of its
target reports has.  The decoders read field after field, so each is a list of fields for
`readFields`, with the optional ones picked out by the mask (`present`).
-/

namespace Efdi.Stanag.Gmti

open Asterix (FloatMath real num flag)
open Tracks (PyText Track)

/-- What a short buffer raises: `struct.error`, or `IndexError` for `data[pos]`. -/
inductive GmtiError where
  | struct
  | index
deriving DecidableEq, Repr

/-- A field that a decoder reads. -/
structure Field where
  size : Nat
  /-- What is raised when the buffer ends inside the field.  Texts are cut short instead. -/
  error : Option GmtiError
  /-- What the decoder sets. -/
  write : List UInt8 → List (String × PyJson)

/-- `out[key] = value` for each of the pairs. -/
def setAll (pairs : List (String × PyJson)) (out : Track) : Track :=
  pairs.foldl (fun out pair => out.set pair.1 pair.2) out

/-- Read the bytes of a field. -/
def Field.read (field : Field) (data : List UInt8) (pos : Nat) : Except GmtiError (List UInt8) :=
  let raw := slice data pos (pos + field.size)
  match field.error with
  | some e => if raw.length < field.size then .error e else .ok raw
  | none => .ok raw

/-- Read fields one after the other. -/
def readFields (data : List UInt8) : List Field → Track → Nat → Except GmtiError (Track × Nat)
  | [], out, pos => .ok (out, pos)
  | field :: fields, out, pos =>
    match field.read data pos with
    | .error e => .error e
    | .ok raw => readFields data fields (setAll (field.write raw) out) (pos + field.size)

/-- The fields whose bit is set in the mask. -/
def present (mask : Nat) (fields : List (Option Nat × Field)) : List Field :=
  (fields.filter fun entry => entry.1.all mask.testBit).map Prod.snd

/-! ## Conversions -/

section Conversions

variable (F : FloatMath)

/-- `_4607_sa32`. -/
def sa32 (raw : Int) : Rat := F.mul (F.div raw (2 ^ 30)) 45

/-- `_4607_ba32`. -/
def ba32 (raw : Nat) : Rat :=
  let deg := F.mul (F.div raw (2 ^ 30)) 90
  if 180 < deg then F.sub deg 360 else deg

/-- `_4607_sa16`. -/
def sa16 (raw : Int) : Rat := F.mul (F.div raw (2 ^ 14)) 90

/-- `_4607_ba16`. -/
def ba16 (raw : Int) : Rat := F.mul (F.div raw (2 ^ 14)) 90

/-- `_4607_centimeters`. -/
def centimeters (raw : Int) : Rat := F.div raw 100

/-- `_4607_decimeters`. -/
def decimeters (raw : Int) : Rat := F.div raw 10

/-- `_4607_kilometers`. -/
def kilometers (raw : Int) : Rat := F.div raw 128

/-- `_4607_speed_mmps`. -/
def speedMmps (raw : Int) : Rat := F.div raw 1000

/-- `_4607_speed_centi`. -/
def speedCenti (raw : Int) : Rat := F.div raw 100

/-- `_4607_speed_deci`. -/
def speedDeci (raw : Int) : Rat := F.div raw 10

/-- `_4607_millisec`. -/
def millisec (raw : Int) : Rat := F.div raw 1000

/-- `round(value, digits)`. -/
def rounded (value : Rat) (digits : Nat) : PyJson := real (F.round value digits)

end Conversions

/-! ## Kinds of fields -/

/-- An unsigned number, by `struct.unpack`. -/
def unsigned (size : Nat) (key : String) (value : Nat → PyJson) : Field where
  size := size
  error := some .struct
  write raw := [(key, value (BigEndian.ofBytes raw))]

/-- A signed number, by `struct.unpack`. -/
def signed (size : Nat) (key : String) (value : Int → PyJson) : Field where
  size := size
  error := some .struct
  write raw := [(key, value (signedOfBytes raw))]

/-- A byte, by `data[pos]`. -/
def octet (key : String) (value : Nat → PyJson) : Field where
  size := 1
  error := some .index
  write raw := [(key, value (BigEndian.ofBytes raw))]

/-- `raw.decode("ascii", "replace")`. -/
def asciiReplaced (raw : List UInt8) : String :=
  String.ofList (raw.map fun byte =>
    if byte.toNat < 128 then Char.ofNat byte.toNat else Char.ofNat 0xFFFD)

/-- `raw.decode("ascii", "replace").strip("\x00").strip()`. -/
def asciiText (raw : List UInt8) : String :=
  PyStr.strip (PyStr.stripChar (Char.ofNat 0) (asciiReplaced raw))

def text (size : Nat) (key : String) : Field where
  size := size
  error := none
  write raw := [(key, .str (asciiText raw))]

/-- `table.get(code, code)`. -/
def coded (table : List (Nat × String)) (code : Nat) : PyJson :=
  match table.lookup code with
  | some name => .str name
  | none => num code

/-- `_4607_SENSOR_TYPES`. -/
def sensorTypes : List (Nat × String) :=
  [(0, "unidentified"), (1, "other"), (2, "hisar"), (3, "astor"), (4, "rotary_wing_radar"),
    (5, "global_hawk_sensor"), (6, "horizon"), (7, "apy-3"), (8, "apy-6"), (9, "apy-8_lynx_i"),
    (10, "radarsat2"), (11, "asars-2a"), (12, "tesar"), (13, "mp-rtip"), (14, "apg-77"),
    (15, "apg-79"), (16, "apg-81"), (17, "apy-6v1"), (18, "spy-i_lynx_ii"), (19, "sidm"),
    (20, "limit"), (21, "tcar_ags_a321"), (22, "lsrs_sensor"), (23, "ugs_single_sensor"),
    (24, "ugs_cluster_sensor"), (25, "imaster_gmti"), (26, "an/zpy-1_starlite"), (27, "vader"),
    (255, "no_statement")]

/-- `_4607_RADAR_MODES`. -/
def radarModes : List (Nat × String) :=
  [(0, "unspecified"), (1, "mti"), (2, "hrr"), (3, "uhrr"), (4, "hur"), (5, "fti")]

/-- `_4607_TARGET_CLASSES`. -/
def targetClasses : List (Nat × String) :=
  [(0, "no_info_live"), (1, "tracked_vehicle_live"), (2, "wheeled_vehicle_live"),
    (3, "rotary_wing_aircraft_live"), (4, "fixed_wing_aircraft_live"),
    (5, "stationary_rotator_live"), (6, "maritime_live"), (7, "beacon_live"),
    (8, "amphibious_live"), (9, "person_live"), (10, "vehicle_live"), (11, "animal_live"),
    (12, "large_multi_return_land_live"), (13, "large_multi_return_maritime_live"),
    (126, "other_live"), (127, "unknown_live"), (128, "no_info_simulated"),
    (129, "tracked_vehicle_simulated"), (130, "wheeled_vehicle_simulated"),
    (131, "rotary_wing_aircraft_simulated"), (132, "fixed_wing_aircraft_simulated"),
    (133, "stationary_rotator_simulated"), (134, "maritime_simulated"),
    (135, "beacon_simulated"), (136, "amphibious_simulated"), (137, "person_simulated"),
    (138, "vehicle_simulated"), (139, "animal_simulated"),
    (140, "large_multi_return_land_simulated"), (141, "large_multi_return_maritime_simulated"),
    (143, "tagging_device"), (254, "other_simulated"), (255, "unknown_simulated")]

/-! ## The header -/

/-- The header of a packet. -/
structure Header where
  edition : Char
  version : Char
  packetSize : Nat
  nationality : String
  securityClassification : Nat
  securitySystem : String
  securityCode : Nat
  exerciseIndicator : Nat
  platformId : String
  missionId : Nat
  jobId : Nat

/-- The number in a range of bytes. -/
def numberAt (data : List UInt8) (start stop : Nat) : Nat := BigEndian.ofBytes (slice data start stop)

/-- `_4607_decode_header`. -/
def decodeHeader (data : List UInt8) : Option Header :=
  if data.length < 32 then none
  else some {
    edition := Char.ofNat (numberAt data 0 1)
    version := Char.ofNat (numberAt data 1 2)
    packetSize := numberAt data 2 6
    nationality := asciiReplaced (slice data 6 8)
    securityClassification := numberAt data 8 9
    securitySystem := asciiReplaced (slice data 9 11)
    securityCode := numberAt data 11 13
    exerciseIndicator := numberAt data 13 14
    platformId := asciiText (slice data 14 24)
    missionId := numberAt data 24 28
    jobId := numberAt data 28 32 }

/-! ## Segments -/

section Segments

variable (F : FloatMath)

/-- `_4607_decode_mission`. -/
def decodeMission (data : List UInt8) (pos : Nat) : Except GmtiError (Track × Nat) :=
  readFields data
    [text 12 "mission_plan", text 12 "flight_plan", octet "platform_type" num,
      text 10 "platform_config", unsigned 2 "mission_year" num, octet "mission_month" num,
      octet "mission_day" num]
    PyDict.empty pos

/-- A corner of the bounding area. -/
def corner (name : String) : List Field :=
  [signed 4 ("bounding_area_" ++ name ++ "_lat_deg") fun raw => rounded F (sa32 F raw) 7,
    unsigned 4 ("bounding_area_" ++ name ++ "_lon_deg") fun raw => rounded F (ba32 F raw) 7]

/-- The fields of `_4607_decode_jobdef`. -/
def jobdefFields : List Field :=
  [unsigned 4 "job_id" num, octet "sensor_type" (coded sensorTypes), text 6 "sensor_model",
    octet "target_filtering_flag" num, octet "radar_priority" num] ++
  corner F "a" ++ corner F "b" ++ corner F "c" ++ corner F "d" ++
  [octet "radar_mode" (coded radarModes), unsigned 2 "revisit_interval_s" num,
    unsigned 2 "nominal_pos_unc_along_m" num, unsigned 2 "nominal_pos_unc_cross_m" num,
    unsigned 2 "nominal_pos_unc_alt_m" num, octet "nominal_heading_unc_deg" num,
    unsigned 2 "nominal_speed_unc_ms" num, unsigned 2 "nominal_sensing_slant_range_unc_m" num,
    unsigned 2 "nominal_sensing_cross_range_unc_m" num,
    unsigned 2 "nominal_sensing_vlos_unc_ms" num, octet "nominal_sensing_mdv_ms" num,
    octet "nominal_detection_prob_pct" num, octet "nominal_false_alarm_density" num,
    octet "terrain_elevation_model" num, octet "geoid_model" num]

/-- `_4607_decode_jobdef`.  The type of the sensor is read ahead. -/
def decodeJobdef (data : List UInt8) (pos : Nat) : Except GmtiError (Track × Nat) :=
  match (octet "sensor_type" num).read data (pos + 4) with
  | .error e => .error e
  | .ok _ => readFields data (jobdefFields F) PyDict.empty pos

/-- `_4607_decode_platform_location`. -/
def decodePlatformLocation (data : List UInt8) (pos : Nat) : Except GmtiError (Track × Nat) :=
  readFields data
    [unsigned 4 "location_time_s" fun raw => rounded F (millisec F raw) 3,
      signed 4 "platform_lat_deg" fun raw => rounded F (sa32 F raw) 7,
      unsigned 4 "platform_lon_deg" fun raw => rounded F (ba32 F raw) 7,
      signed 4 "platform_alt_m" fun raw => rounded F (centimeters F raw) 2,
      unsigned 2 "platform_track_deg" fun raw => rounded F (ba16 F raw) 2,
      unsigned 4 "platform_speed_ms" fun raw => rounded F (speedMmps F raw) 3,
      signed 1 "platform_vertical_velocity_ms" fun raw => rounded F (speedDeci F raw) 1]
    PyDict.empty pos

/-- The fields of a target report, with their bits of `_4607_D32`. -/
def targetReportFields : List (Option Nat × Field) :=
  [(some (4 * 8 + 1), unsigned 2 "target_report_index" num),
    (some (4 * 8 + 0), signed 4 "lat_deg" fun raw => rounded F (sa32 F raw) 7),
    (some (3 * 8 + 7), unsigned 4 "lon_deg" fun raw => rounded F (ba32 F raw) 7),
    (some (3 * 8 + 6), signed 2 "delta_lat_raw" .int),
    (some (3 * 8 + 5), signed 2 "delta_lon_raw" .int),
    (some (3 * 8 + 4), signed 2 "height_m" .int),
    (some (3 * 8 + 3), signed 2 "radial_velocity_ms" fun raw => rounded F (speedCenti F raw) 2),
    (some (3 * 8 + 2), unsigned 2 "wrap_velocity_ms" fun raw => rounded F (speedCenti F raw) 2),
    (some (3 * 8 + 1), signed 1 "snr_db" .int),
    (some (3 * 8 + 0), {
      size := 1
      error := some .index
      write := fun raw =>
        [("target_classification", coded targetClasses (BigEndian.ofBytes raw)),
          ("target_classification_code", num (BigEndian.ofBytes raw))] }),
    (some (2 * 8 + 7), octet "target_class_probability_pct" num),
    (some (2 * 8 + 6), unsigned 2 "unc_slant_range_m" fun raw => rounded F (centimeters F raw) 2),
    (some (2 * 8 + 5), unsigned 2 "unc_cross_range_m" fun raw => rounded F (decimeters F raw) 1),
    (some (2 * 8 + 4), octet "unc_height_m" num),
    (some (2 * 8 + 3),
      unsigned 2 "unc_radial_velocity_ms" fun raw => rounded F (speedCenti F raw) 2),
    (some (2 * 8 + 2), octet "truth_tag_application" num),
    (some (2 * 8 + 1), unsigned 4 "truth_tag_entity" num),
    (some (2 * 8 + 0), signed 1 "radar_cross_section_dbsm" .int)]

/-- `_4607_decode_target_report`. -/
def decodeTargetReport (data : List UInt8) (pos mask : Nat) : Except GmtiError (Track × Nat) :=
  readFields data (present mask (targetReportFields F)) PyDict.empty pos

/-- The fields of a dwell before the number of its reports. -/
def dwellHead : List Field :=
  [signed 2 "revisit_index" .int, unsigned 2 "dwell_index" num,
    octet "last_dwell_of_revisit" fun raw => flag (raw != 0)]

/-- The fields of a dwell behind the number of its reports, with their bits of `_4607_D`. -/
def dwellFields : List (Option Nat × Field) :=
  [(none, unsigned 4 "dwell_time_s" fun raw => rounded F (millisec F raw) 3),
    (none, signed 4 "sensor_lat_deg" fun raw => rounded F (sa32 F raw) 7),
    (none, unsigned 4 "sensor_lon_deg" fun raw => rounded F (ba32 F raw) 7),
    (none, signed 4 "sensor_alt_m" fun raw => rounded F (centimeters F raw) 2),
    (some (6 * 8 + 7), signed 4 "scale_lat_raw" .int),
    (some (6 * 8 + 6), unsigned 4 "scale_lon_raw" num),
    (some (6 * 8 + 5), unsigned 4 "sensor_unc_along_m" fun raw => rounded F (centimeters F raw) 2),
    (some (6 * 8 + 4), unsigned 4 "sensor_unc_cross_m" fun raw => rounded F (centimeters F raw) 2),
    (some (6 * 8 + 3), unsigned 2 "sensor_unc_alt_m" fun raw => rounded F (centimeters F raw) 2),
    (some (6 * 8 + 2), unsigned 2 "sensor_track_deg" fun raw => rounded F (ba16 F raw) 2),
    (some (6 * 8 + 1), unsigned 4 "sensor_speed_ms" fun raw => rounded F (speedMmps F raw) 3),
    (some (6 * 8 + 0),
      signed 1 "sensor_vertical_velocity_ms" fun raw => rounded F (speedDeci F raw) 1),
    (some (5 * 8 + 7), octet "sensor_track_unc_deg" num),
    (some (5 * 8 + 6), unsigned 2 "sensor_speed_unc_ms" fun raw => rounded F (speedMmps F raw) 3),
    (some (5 * 8 + 5), unsigned 2 "sensor_vv_unc_ms" fun raw => rounded F (speedCenti F raw) 2),
    (some (5 * 8 + 4), unsigned 2 "platform_heading_deg" fun raw => rounded F (ba16 F raw) 2),
    (some (5 * 8 + 3), signed 2 "platform_pitch_deg" fun raw => rounded F (sa16 F raw) 3),
    (some (5 * 8 + 2), signed 2 "platform_roll_deg" fun raw => rounded F (sa16 F raw) 3),
    (none, signed 4 "dwell_area_center_lat_deg" fun raw => rounded F (sa32 F raw) 7),
    (none, unsigned 4 "dwell_area_center_lon_deg" fun raw => rounded F (ba32 F raw) 7),
    (none,
      unsigned 2 "dwell_area_range_half_extent_km" fun raw => rounded F (kilometers F raw) 2),
    (none, unsigned 2 "dwell_area_angle_half_extent_deg" fun raw => rounded F (ba16 F raw) 2),
    (some (4 * 8 + 5), unsigned 2 "sensor_heading_deg" fun raw => rounded F (ba16 F raw) 2),
    (some (4 * 8 + 4), signed 2 "sensor_pitch_deg" fun raw => rounded F (sa16 F raw) 3),
    (some (4 * 8 + 3), signed 2 "sensor_roll_deg" fun raw => rounded F (sa16 F raw) 3),
    (some (4 * 8 + 2), octet "mdv_ms" fun raw => rounded F (speedDeci F raw) 1)]

/-- A target report, and the positions before and behind it. -/
structure TargetReport where
  report : Track
  start : Nat
  stop : Nat

/-- The target reports of a dwell. -/
def decodeTargetReports (data : List UInt8) (mask : Nat) :
    Nat → Nat → Except GmtiError (List TargetReport × Nat)
  | 0, pos => .ok ([], pos)
  | count + 1, pos => do
      let (report, next) ← decodeTargetReport F data pos mask
      let (targets, last) ← decodeTargetReports data mask count next
      return (⟨report, pos, next⟩ :: targets, last)

/-- A number of `size` bytes, by `struct.unpack`. -/
def unpack (size : Nat) (data : List UInt8) (pos : Nat) : Except GmtiError Nat :=
  let raw := slice data pos (pos + size)
  if raw.length < size then .error .struct else .ok (BigEndian.ofBytes raw)

/-- `_4607_decode_dwell`. -/
def decodeDwell (data : List UInt8) (pos : Nat) :
    Except GmtiError (Track × List TargetReport × Nat) := do
  let high ← unpack 4 data pos
  let low ← unpack 4 data (pos + 4)
  let mask := (high <<< 32) ||| low
  let (dwell, pos) ← readFields data dwellHead PyDict.empty (pos + 8)
  let targetCount ← unpack 2 data pos
  let (dwell, pos) ← readFields data (present mask (dwellFields F)) dwell (pos + 2)
  let (targets, pos) ← decodeTargetReports F data mask targetCount pos
  return (dwell, targets, pos)

end Segments

/-! ## Packets -/

/-- A target report that became a track, with where it was found: its dwell, its position among the
reports of the dwell, the number of tracks before it in the packet and the extent of the
segment. -/
structure Target where
  dwell : Track
  report : TargetReport
  position : Nat
  before : Nat
  segStart : Nat
  segEnd : Nat

variable (F : FloatMath) (py : PyText)

/-- `tracks.append(…)` for each of the targets of a dwell. -/
def appendTargets (dwell : Track) (segStart segEnd : Nat) :
    Nat → List TargetReport → List Target → List Target
  | _, [], tracks => tracks
  | position, report :: targets, tracks =>
    appendTargets dwell segStart segEnd (position + 1) targets
      (tracks ++ [⟨dwell, report, position, tracks.length, segStart, segEnd⟩])

/-- What the loop does with a segment. -/
def decodeSegment (data : List UInt8) (segType segStart segEnd : Nat) (tracks : List Target) :
    Except GmtiError (List Target) :=
  let body := segStart + 5
  if segType = 1 then (decodeMission data body).map fun _ => tracks
  else if segType = 5 then (decodeJobdef F data body).map fun _ => tracks
  else if segType = 13 then (decodePlatformLocation F data body).map fun _ => tracks
  else if segType = 2 then
    (decodeDwell F data body).map fun (dwell, targets, _) =>
      appendTargets dwell segStart segEnd 0 targets tracks
  else .ok tracks

/-- The loop of `_4607_decode_packet`.  The bytes of a segment's type and size are there. -/
def packetLoop (data : List UInt8) (size pos : Nat) (tracks : List Target) :
    Except GmtiError (List Target) :=
  if pos + 5 ≤ size then
    let segType := numberAt data pos (pos + 1)
    let segSize := numberAt data (pos + 1) (pos + 5)
    if segSize < 5 then .ok tracks
    else
      match decodeSegment F data segType pos (pos + segSize) tracks with
      | .error e => .error e
      | .ok tracks => packetLoop data size (pos + segSize) tracks
  else .ok tracks
termination_by size - pos

/-- `_4607_decode_packet`, with the targets in place of their tracks. -/
def decodePacket (data : List UInt8) : Except GmtiError (Option (Header × List Target)) :=
  match decodeHeader data with
  | none => .ok none
  | some header =>
    (packetLoop F data (min header.packetSize data.length) 32 []).map fun tracks =>
      some (header, tracks)

/-- `report.get("target_report_index", len(tracks))`. -/
def Target.number (target : Target) : PyJson :=
  (target.report.report.get? "target_report_index").getD (num target.before)

/-- `dict[key]` of a key that is there. -/
def entry (track : Track) (key : String) : PyJson := (track.get? key).getD .null

/-- The uid of a track. -/
def Target.uid (jobId : Nat) (target : Target) : String :=
  "stanag4607-" ++ Tracks.pyStr py (num jobId) ++ "-" ++
    Tracks.pyStr py (entry target.dwell "dwell_index") ++ "-" ++ Tracks.pyStr py target.number

/-- The track of a target. -/
def Target.track (now : Rat) (jobId : Nat) (target : Target) : Track :=
  let track := PyDict.empty.set "_ts" (real now)
  let track := track.set "_src" (.str "STANAG 4607")
  let track := track.set "uid" (.str (target.uid py jobId))
  let track := track.set "job_id" (num jobId)
  let track := track.set "dwell_index" (entry target.dwell "dwell_index")
  let track := track.set "dwell_time_s" (entry target.dwell "dwell_time_s")
  let track := track.set "sensor_lat_deg" (entry target.dwell "sensor_lat_deg")
  let track := track.set "sensor_lon_deg" (entry target.dwell "sensor_lon_deg")
  let track := track.set "sensor_alt_m" (entry target.dwell "sensor_alt_m")
  Asterix.updateWith target.report.report track

end Efdi.Stanag.Gmti

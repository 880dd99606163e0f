import Efdi.Asterix.Cat062Cuts

/-!
# CAT-021 records

`_cat21_decode_cat021_record` and the loop of its handler.  A record of Edition 2.7 is decoded
from its own bytes to its own end, whatever comes after it, and every payload is cut into slices
that make it up (`cat021_cut_exactly`).
-/

namespace Efdi.Asterix

open Reading Tracks

variable (F : FloatMath)

/-! ## Items -/

/-- I021/010. -/
def item021_010 : Reader Track Unit :=
  .fixed 2 fun data track =>
    (track.set "sac" (num (octetAt data 0).toNat)).set "sic" (num (octetAt data 1).toNat)

def octet021_040 : Nat → UInt8 → Track → Track
  | 0, b, track =>
    let track := track.set "addr_type" (.str (["icao24", "duplicate", "surface", "anonymous",
      "reserved", "reserved", "reserved", "reserved"].getD (field b 5 7) ""))
    let track := track.set "alt_res"
      (.str (["25ft", "100ft", "unknown", "invalid"].getD (field b 3 3) ""))
    setFlags b [(0x04, "range_check_passed_cpr_pending"), (0x02, "field_monitor")] track
  | 1, b, track =>
    (setFlags b [(0x80, "differential_correction"), (0x40, "on_ground"), (0x20, "simulated"),
      (0x10, "test_target"), (0x08, "selected_altitude_unavailable")] track).set
        "confidence_level" (num (field b 1 3))
  | 2, b, track =>
    setFlags b [(0x40, "list_lookup_suspect"), (0x20, "independent_position_check_failed"),
      (0x10, "ground_station_nogo"), (0x08, "cpr_validation_failed"),
      (0x04, "local_position_jump"), (0x02, "range_check_failed")] track
  | 3, b, track => setIf (bits b 0x80) "total_bits_corrected" (num (field b 1 0x3F)) track
  | 4, b, track => setIf (bits b 0x80) "maximum_bits_corrected" (num (field b 1 0x3F)) track
  | _, _, track => track

/-- I021/040. -/
def item021_040 : Reader Track Unit := .extents octet021_040 fun _ => true

/-- I021/161. -/
def item021_161 : Reader Track Unit := valued 2 "track_num" fun data => num (u16 data 0 &&& 0x0FFF)

/-- An item of one octet with a number. -/
def octetItem (key : String) : Reader Track Unit :=
  valued 1 key fun data => num (octetAt data 0).toNat

/-- `time24`. -/
def time24 (name : String) : Reader Track Unit :=
  valued 3 name fun data => real (F.div (BigEndian.ofBytes data) 128)

/-- I021/130. -/
def item021_130 : Reader Track Unit :=
  .fixed 6 fun data track =>
    let scale := F.div 180 (2 ^ 23)
    (track.set "lat_deg" (real (F.round (F.mul (s24 data 0) scale) 7))).set "lon_deg"
      (real (F.round (F.mul (s24 data 3) scale) 7))

/-- I021/131. -/
def item021_131 : Reader Track Unit :=
  .fixed 8 fun data track =>
    let scale := F.div 180 (2 ^ 30)
    (track.set "lat_deg" (real (F.round (F.mul (s32 data 0) scale) 8))).set "lon_deg"
      (real (F.round (F.mul (s32 data 4) scale) 8))

/-- I021/150. -/
def item021_150 : Reader Track Unit :=
  .fixed 2 fun data track =>
    let w := u16 data 0
    let value : Rat := (w &&& 0x7FFF : Nat)
    if wordBits w 0x8000 then track.set "mach" (real (F.round (F.mul value (F.near 0.001)) 3))
    else track.set "ias_kt" (real (F.round (F.div (F.mul value 3600) 16384) 2))

/-- I021/151. -/
def item021_151 : Reader Track Unit :=
  .fixed 2 fun data track =>
    let w := u16 data 0
    setIf (wordBits w 0x8000) "tas_range_exceeded" (flag true)
      (track.set "tas_kt" (num (w &&& 0x7FFF)))

/-- I021/080. -/
def item021_080 : Reader Track Unit :=
  valued 3 "icao24" fun data => hex 6 (BigEndian.ofBytes data)

/-- I021/074 and I021/076. -/
def highPrecisionTime (key : String) : Reader Track Unit :=
  valued 4 key fun data => real (F.round (F.div (u32 data 0 &&& 0x3FFFFFFF : Nat) (2 ^ 30)) 9)

/-- I021/140. -/
def item021_140 : Reader Track Unit :=
  valued 2 "alt_geom_ft" fun data => real (F.mul (s16 data 0) (25 / 4))

/-- `_NACP_EPU_M`. -/
def nacpEpuM : List (Option Nat) :=
  [none, some 18520, some 7408, some 3704, some 1852, some 926, some 556, some 185, some 93,
    some 30, some 10, some 3]

def octet021_090 : Nat → UInt8 → Track → Track
  | 0, b, track => (track.set "nac_v" (num (field b 5 7))).set "nic" (num (field b 1 15))
  | 1, b, track =>
    let track := track.set "nic_baro" (flag (bits b 0x80))
    let track := (track.set "sil" (num (field b 5 3))).set "nac_p" (num (field b 1 15))
    match (nacpEpuM[field b 1 15]?).join with
    | some epuM => track.set "position_accuracy_m" (num epuM)
    | none => track
  | 2, b, track =>
    let track := track.set "sil_per_sample" (flag (bits b 0x20))
    (track.set "sda" (num (field b 3 3))).set "gva" (num (field b 1 3))
  | 3, b, track =>
    (track.set "pic" (num (field b 4 15))).set "pic_direct" (flag (bits b 0x08))
  | _, _, track => track

/-- I021/090. -/
def item021_090 : Reader Track Unit := .extents octet021_090 fun _ => true

/-- I021/210. -/
def item021_210 : Reader Track Unit :=
  .fixed 1 fun data track =>
    let b := octetAt data 0
    let track := track.set "mops_version_unsupported" (flag (bits b 0x40))
    let track := track.set "mops_version" (num (field b 3 7))
    track.set "link_technology" (.str (["other", "uat", "1090es", "vdl4", "unassigned",
      "unassigned", "unassigned", "unassigned"].getD (field b 0 7) ""))

/-- I021/070. -/
def item021_070 : Reader Track Unit := valued 2 "squawk" fun data => octal 4 (u16 data 0 &&& 0x0FFF)

/-- I021/230. -/
def item021_230 : Reader Track Unit :=
  valued 2 "roll_deg" fun data => real (F.round (F.mul (s16 data 0) (F.near 0.01)) 2)

/-- I021/145. -/
def item021_145 : Reader Track Unit := valued 2 "alt_baro_ft" fun data => .int (s16 data 0 * 25)

/-- I021/152. -/
def item021_152 : Reader Track Unit :=
  valued 2 "mag_hdg_deg" fun data => real (F.round (F.div (u16 data 0 * 360) 65536) 3)

/-- I021/200. -/
def item021_200 : Reader Track Unit :=
  .fixed 1 fun data track =>
    let b := octetAt data 0
    let track := setIf (bits b 0x80) "intent_change" (flag true) track
    let track := track.set "lnav_engaged" (flag (!bits b 0x40))
    let track := setIf (bits b 0x20) "mil_emergency" (flag true) track
    let track := track.set "priority_status" (num (field b 2 7))
    match field b 0 3 with
    | 1 => track.set "alert" (.str "permanent")
    | 2 => track.set "alert" (.str "temporary")
    | 3 => track.set "spi" (flag true)
    | _ => track

/-- I021/155 and I021/157. -/
def verticalRate021 (key : String) : Reader Track Unit :=
  .fixed 2 fun data track =>
    let w := u16 data 0
    setIf (wordBits w 0x8000) "vertical_rate_range_exceeded" (flag true)
      (track.set key (real (F.mul (signed 15 (w &&& 0x7FFF)) (25 / 4))))

/-- I021/160. -/
def item021_160 : Reader Track Unit :=
  .fixed 4 fun data track =>
    let speed := u16 data 0
    let track := track.set "speed_ms"
      (real (F.round (F.mul (F.mul (speed &&& 0x7FFF : Nat) (1 / 2 ^ 14)) 1852) 3))
    let track := track.set "heading_deg" (real (F.round (F.div (u16 data 2 * 360) 65536) 3))
    setIf (wordBits speed 0x8000) "ground_speed_range_exceeded" (flag true) track

/-- I021/165. -/
def item021_165 : Reader Track Unit :=
  valued 2 "track_angle_rate_degs" fun data =>
    real (F.round (F.div (signed 10 (u16 data 0 &&& 0x03FF)) 32) 3)

/-- I021/170. -/
def item021_170 : Reader Track Unit := valued 6 "callsign" fun data => .str (decodeCallsign data)

/-- `_EMITTER_CATEGORY`. -/
def emitterCategory : List (Nat × String) :=
  [(0, "no info"), (1, "light"), (2, "small"), (3, "medium"), (4, "high vortex large"),
    (5, "heavy"), (6, "manoeuvrable/high speed"), (10, "glider"), (11, "airship"), (12, "UAV"),
    (13, "space vehicle"), (14, "emergency vehicle"), (15, "service vehicle"),
    (16, "ground obstruction")]

/-- I021/020. -/
def item021_020 : Reader Track Unit :=
  .fixed 1 fun data track =>
    let ec := (octetAt data 0).toNat
    (track.set "emitter_category" (num ec)).set "emitter_category_str"
      (.str (nameOf emitterCategory ("cat" ++ toString ec) ec))

/-- I021/220. -/
def item021_220 : Reader Track Unit :=
  .attempt (.compound (.presence 1)
    [valued 2 "wind_speed_kt" fun data => num (u16 data 0),
      valued 2 "wind_dir_deg" fun data => num (u16 data 0),
      valued 2 "temp_c" fun data => real (F.mul (s16 data 0) (1 / 4)),
      octetItem "turbulence"])

/-- I021/146. -/
def item021_146 : Reader Track Unit :=
  .fixed 2 fun data track =>
    let w := u16 data 0
    let track := track.set "selected_alt_ft" (.int (signed 13 (w &&& 0x1FFF) * 25))
    let track := track.set "selected_alt_source_available" (flag (wordBits w 0x8000))
    track.set "selected_alt_source"
      (.str (["unknown", "aircraft_altitude", "mcp_fcu", "fms"].getD ((w >>> 13) &&& 3) ""))

/-- I021/148. -/
def item021_148 : Reader Track Unit :=
  .fixed 2 fun data track =>
    let w := u16 data 0
    let track := track.set "final_alt_ft" (.int (signed 13 (w &&& 0x1FFF) * 25))
    let track := track.set "managed_vertical_mode" (flag (wordBits w 0x8000))
    (track.set "altitude_hold_mode" (flag (wordBits w 0x4000))).set "approach_mode"
      (flag (wordBits w 0x2000))

/-- I021/110. -/
def item021_110 : Reader Track Unit :=
  .attempt (.compound (.presence 1) [skipped 1, .countedBlock 15 fun _ _ track => track])

/-- I021/016. -/
def item021_016 : Reader Track Unit :=
  valued 1 "report_period_s" fun data => real (F.mul (octetAt data 0).toNat (1 / 2))

/-- I021/008. -/
def item021_008 : Reader Track Unit :=
  .fixed 1 fun data track =>
    let b := octetAt data 0
    let track := track.set "aircraft_operational_status_raw" (num b.toNat)
    let track := track.set "acas_ra_active" (flag (bits b 0x80))
    let track := track.set "trajectory_change_capability"
      (.str (["none", "tc_plus_zero", "multiple", "reserved"].getD (field b 5 3) ""))
    let track := track.set "target_state_report_capable" (flag (bits b 0x10))
    let track := track.set "air_ref_velocity_capable" (flag (bits b 0x08))
    let track := track.set "cdti_airborne_operational" (flag (bits b 0x04))
    let track := track.set "tcas_operational" (flag (!bits b 0x02))
    track.set "single_antenna" (flag (bits b 0x01))

def octet021_271 : Nat → UInt8 → Track → Track
  | 0, b, track =>
    setFlags b [(0x20, "position_offset_applied"), (0x10, "cdti_surface_operational"),
      (0x08, "class_b2_low_power"), (0x04, "receiving_atc_services"), (0x02, "ident_switch")] track
  | 1, b, track => track.set "surface_length_width_code" (num (field b 4 15))
  | _, _, track => track

/-- I021/271. -/
def item021_271 : Reader Track Unit := .extents octet021_271 fun _ => true

/-- I021/132. -/
def item021_132 : Reader Track Unit :=
  valued 1 "message_amplitude_dbm" fun data => .int (s8 (octetAt data 0))

/-- I021/250. -/
def item021_250 : Reader Track Unit := .counted true 8 (decodeMb F)

/-- I021/260. -/
def item021_260 : Reader Track Unit := .fixed 7 decodeBds30

/-- The names of I021/295. -/
def names021 : List String :=
  ["aircraft_status", "target_descriptor", "mode3a", "quality", "trajectory", "amplitude",
    "geometric_height", "flight_level", "selected_altitude", "final_altitude", "air_speed",
    "true_air_speed", "mag_heading", "baro_vr", "geo_vr", "ground_vector", "track_angle_rate",
    "target_id", "target_status", "met", "roll", "acas_ra", "surface_capabilities"]

/-- I021/295. -/
def item021_295 : Reader Track Unit :=
  .attempt (.compound (.presence 4) (names021.map fun name =>
    valued 1 ("data_age_" ++ name ++ "_s") fun data =>
      real (F.round (F.mul (octetAt data 0).toNat (F.near 0.1)) 1)))

/-! ## The decoder -/

/-- The branches of `_cat21_decode_cat021_record`, by FRN. -/
def items021 : List (Reader Track Unit) :=
  [item021_010, item021_040, item021_161, octetItem "service_id", time24 F "position_time_s",
    item021_130 F, item021_131 F, time24 F "velocity_time_s", item021_150 F, item021_151,
    item021_080, time24 F "position_reception_time_s",
    highPrecisionTime F "position_reception_time_hp", time24 F "velocity_reception_time_s",
    highPrecisionTime F "velocity_reception_time_hp", item021_140 F, item021_090, item021_210,
    item021_070, item021_230 F, item021_145, item021_152 F, item021_200,
    verticalRate021 F "baro_vr_fpm", verticalRate021 F "geo_vr_fpm", item021_160 F, item021_165 F,
    time24 F "report_transmission_time_s", item021_170, item021_020, item021_220 F, item021_146,
    item021_148, item021_110, item021_016 F, item021_008, item021_271, item021_132, item021_250 F,
    item021_260, octetItem "receiver_id", item021_295 F, pure (), pure (), pure (), pure (),
    pure (), .skipExplicit, .skipExplicit]

/-- The track at the start of a record. -/
def start021 (now : Rat) : Track :=
  (PyDict.empty.set "_ts" (real now)).set "_src" (.str "ASTERIX CAT-21 Ed.2.7")

/-- `_cat21_decode_cat021_record` on what is left of the block, and what it leaves of that. -/
def decodeRecord021 (now : Rat) (data : List UInt8) : Track × List UInt8 :=
  match (Reader.compound .fspec (items021 F)).run (start021 now) data with
  | .done _ track rest => (track, rest)
  | .stop track => (track, [])
  -- `_cat21__presence` alone raises, and its exceptions are caught.
  | .raise => (start021 now, [])

/-- `_cat21_decode_cat021_record`. -/
def decodeCat021Record (now : Rat) (data : List UInt8) (pos : Nat) : Track × Nat :=
  decodeAt (decodeRecord021 F now) data pos

/-- The loop of the handler: the tracks, and the slices of the payload that they come from.  The
clock is read once for each record. -/
def records021 (clock : Nat → Rat) (data : List UInt8) : List (Track × List UInt8) :=
  records (fun data pos => decodeCat021Record F (clock pos) data pos) data 0

/-! ## Edition 2.7 -/

/-- The layouts of the items of Edition 2.7, by FRN. -/
def uap021 : List Layout :=
  [.fixed 2, .extended 5, .fixed 2, .fixed 1, .fixed 3, .fixed 6, .fixed 8, .fixed 3, .fixed 2,
    .fixed 2, .fixed 3, .fixed 3, .fixed 4, .fixed 3, .fixed 4, .fixed 2, .extended 9, .fixed 1,
    .fixed 2, .fixed 2, .fixed 2, .fixed 2, .fixed 1, .fixed 2, .fixed 2, .fixed 4, .fixed 2,
    .fixed 3, .fixed 6, .fixed 1, .compound [.fixed 2, .fixed 2, .fixed 2, .fixed 1], .fixed 2,
    .fixed 2, .compound [.extended 1, .repeated 15], .fixed 1, .fixed 1, .extended 2, .fixed 1,
    .repeated 8, .fixed 7, .fixed 1, .compound (List.replicate 23 (.fixed 1)), .spare, .spare,
    .spare, .spare, .spare, .explicit, .explicit]

/-- A record of CAT-021, and nothing behind it. -/
def Record021 (record : List UInt8) : Prop := Layout.compound uap021 record = some []

instance (record : List UInt8) : Decidable (Record021 record) :=
  inferInstanceAs (Decidable (_ = _))

variable {F}

theorem follows_item021_220 :
    Follows (item021_220 F) (.compound [.fixed 2, .fixed 2, .fixed 2, .fixed 1]) := by
  refine (follows_compound (readsFlags_presence (by decide)) ?_).attempt
  simp [octetItem]

theorem follows_item021_110 : Follows item021_110 (.compound [.extended 1, .repeated 15]) := by
  refine (follows_compound (readsFlags_presence (by decide)) ?_).attempt
  simp

theorem follows_item021_295 :
    Follows (item021_295 F) (.compound (List.replicate 23 (.fixed 1))) :=
  (follows_compound (readsFlags_presence (by decide))
    (follows_names (fun name => follows_valued 1 _ _) names021)).attempt

/-- Every branch of the decoder ends its item where the edition ends it. -/
theorem follows_items021 : List.Forall₂ Follows (items021 F) uap021 := by
  simp [items021, uap021, item021_010, item021_040, item021_161, octetItem, time24, item021_130,
    item021_131, item021_150, item021_151, item021_080, highPrecisionTime, item021_140,
    item021_090, item021_210, item021_070, item021_230, item021_145, item021_152, item021_200,
    verticalRate021, item021_160, item021_165, item021_170, item021_020, follows_item021_220,
    item021_146, item021_148, follows_item021_110, item021_016, item021_008, item021_271,
    item021_132, item021_250, item021_260, follows_item021_295, -List.reduceReplicate]

/-- A record is decoded from its own bytes, and what follows it is left. -/
theorem decodeRecord021_append {now : Rat} {record : List UInt8} (h : Record021 record)
    (after : List UInt8) : decodeRecord021 F now (record ++ after) =
      ((decodeRecord021 F now record).1, after) := by
  obtain ⟨track, halone, hreads⟩ :=
    reads_message (readsFlags_fspec _) follows_items021 (start021 now) h
  rw [decodeRecord021, decodeRecord021, hreads after, halone]

/-- The decoder moves on, and not past the end. -/
theorem decodeRecord021_moves {now : Rat} {data : List UInt8} (h : data ≠ []) :
    (decodeRecord021 F now data).2.length < data.length := by
  rw [decodeRecord021]
  split
  next track rest hdone => exact length_of_compound_fspec hdone h
  next => exact List.length_pos_of_ne_nil h
  next => exact List.length_pos_of_ne_nil h

/-- The decoder moves on within every payload, so the loop of the handler ends after at most one
round for each byte and its slices make up the payload.  A record of the edition is decoded to its
own end, and what stands before and behind it changes nothing. -/
theorem cat021_cut_exactly (F : FloatMath) :
    (∀ (now : Rat) (data : List UInt8) (pos : Nat), pos < data.length →
      pos < (decodeCat021Record F now data pos).2 ∧
        (decodeCat021Record F now data pos).2 ≤ data.length) ∧
    (∀ (clock : Nat → Rat) (data : List UInt8),
      (records021 F clock data).length ≤ data.length ∧
        ((records021 F clock data).map Prod.snd).flatten = data) ∧
    ∀ (now : Rat) (record : List UInt8), Record021 record → ∀ before after : List UInt8,
      decodeCat021Record F now (before ++ (record ++ after)) before.length =
        ((decodeCat021Record F now record 0).1, before.length + record.length) := by
  have hmoves : ∀ (now : Rat) (data : List UInt8) (pos : Nat), pos < data.length →
      pos < (decodeCat021Record F now data pos).2 ∧
        (decodeCat021Record F now data pos).2 ≤ data.length :=
    fun _ _ _ hpos => decodeAt_moves hpos fun _ => decodeRecord021_moves
  refine ⟨hmoves, fun clock data => ⟨length_records_le _ data 0, ?_⟩, ?_⟩
  · rw [records021, flatten_records (fun pos hpos => hmoves (clock pos) data pos hpos) 0,
      List.drop_zero]
  · intro now record hrecord before after
    exact decodeAt_append (decodeRecord021_append hrecord after)

/-- An item with an extension, one with a presence map and a reserved field, before another
record. -/
theorem cat021_cut_exactly_report :
    (decodeCat021Record exactMath 0 ([0xC1, 0x01, 0x01, 0x01, 0x21, 0x01, 0x04, 25, 201, 0x01, 0x40,
      0x10, 7, 3, 0xAA, 0xBB] ++ [0x80, 25, 202]) 0).2 = 16 := by
  have hrecord : Record021 [0xC1, 0x01, 0x01, 0x01, 0x21, 0x01, 0x04, 25, 201, 0x01, 0x40,
      0x10, 7, 3, 0xAA, 0xBB] := by
    decide +kernel
  have hcut := (cat021_cut_exactly exactMath).2.2 0 _ hrecord [] [0x80, 25, 202]
  exact congrArg Prod.snd hcut

end Efdi.Asterix

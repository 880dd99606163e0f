import Efdi.Asterix.Fields

/-!
# CAT-048 records

`_cat48_decode_cat048_record` and the loop of its handler.  The decoder walks the items that
the FSPEC announces; the layout of an item is that of Edition 1.32 (`uap048`).  A record carries
no length, so the handler depends on the decoder to stop where the record ends.  It does, for
every record of the edition and whatever follows (`cat048_cut_exactly`).
-/

namespace Efdi.Asterix

open Reading Tracks

/-! ## Items -/

variable (F : FloatMath)

/-- I048/010. -/
def item048_010 : Reader Track Unit :=
  .fixed 2 fun data track =>
    (track.set "sac" (num (octetAt data 0).toNat)).set "sic" (num (octetAt data 1).toNat)

/-- I048/140. -/
def item048_140 : Reader Track Unit :=
  .fixed 3 fun data track =>
    track.set "tod_s" (real (F.div (BigEndian.ofBytes data) 128))

/-- `_TYP048`. -/
def typ048 : List String :=
  ["no_detection", "psr", "ssr", "ssr_psr", "mode_s_all_call", "mode_s_roll_call",
    "mode_s_all_call_psr", "mode_s_roll_call_psr"]

def octet048_020 : Nat → UInt8 → Track → Track
  | 0, b, track =>
    let track := track.set "detection_type" (.str (typ048.getD (field b 5 0x07) ""))
    setFlags b [(0x10, "simulated"), (0x08, "rdp_chain"), (0x04, "spi"),
      (0x02, "field_monitor")] track
  | 1, b, track =>
    let track := setFlags b [(0x80, "test_target"), (0x40, "extended_range"), (0x20, "x_pulse"),
      (0x10, "mil_emergency"), (0x08, "mil_ident")] track
    let foe := field b 1 0x03
    setIf (foe != 0) "iff" (.str (["", "friendly", "unknown", "no_reply"].getD foe "")) track
  | _, _, track => track

/-- I048/020. -/
def item048_020 : Reader Track Unit := .extents octet048_020 (· ≤ 1)

/-- Coordinates that are not overwritten. -/
def setPosition (digits : Nat) (position : Rat × Rat) (track : Track) : Track :=
  (track.setDefault "lat_deg" (real (F.round position.1 digits))).setDefault "lon_deg"
    (real (F.round position.2 digits))

/-- I048/040. -/
def item048_040 (radarLat radarLon : Option Rat) : Reader Track Unit :=
  .fixed 4 fun data track =>
    let rangeNm := F.div (u16 data 0) 256
    let azDeg := F.div (F.mul (u16 data 2) 360) 65536
    let track := (track.set "range_nm" (real (F.round rangeNm 3))).set "azimuth_deg"
      (real (F.round azDeg 3))
    match radarLat, radarLon with
    | some lat, some lon =>
      if rangeNm > 0 then setPosition F 6 (F.polarToWgs84 lat lon rangeNm azDeg) track else track
    | _, _ => track

/-- I048/070. -/
def item048_070 : Reader Track Unit :=
  .fixed 2 fun data track =>
    let w := u16 data 0
    let track := track.set "squawk" (octal 4 (w &&& 0x0FFF))
    let track := setIf (wordBits w 0x8000) "squawk_invalid" (flag true) track
    let track := setIf (wordBits w 0x4000) "squawk_garbled" (flag true) track
    setIf (wordBits w 0x2000) "squawk_not_extracted" (flag true) track

/-- I048/090. -/
def item048_090 : Reader Track Unit :=
  .fixed 2 fun data track =>
    let w := u16 data 0
    let track := track.set "alt_baro_ft" (.int (signed 14 (w &&& 0x3FFF) * 25))
    let track := setIf (wordBits w 0x8000) "alt_baro_invalid" (flag true) track
    setIf (wordBits w 0x4000) "alt_baro_garbled" (flag true) track

/-- One subfield of I048/130. -/
def plotCharacteristic (name : String) (value : UInt8 → PyJson) : Reader Track Unit :=
  .fixed 1 fun data track => track.set name (value (octetAt data 0))

/-- I048/130. -/
def item048_130 : Reader Track Unit :=
  .compoundOnly (.attempt .presenceMap)
    [plotCharacteristic "ssr_runlength_deg" fun b =>
        real (F.round (F.div (F.mul b.toNat 360) 8192) 3),
      plotCharacteristic "ssr_reply_count" fun b => num b.toNat,
      plotCharacteristic "ssr_amplitude_dbm" fun b => .int (s8 b),
      plotCharacteristic "psr_runlength_deg" fun b =>
        real (F.round (F.div (F.mul b.toNat 360) 8192) 3),
      plotCharacteristic "psr_amplitude_dbm" fun b => .int (s8 b),
      plotCharacteristic "psr_ssr_range_diff_nm" fun b => real (F.round (F.div (s8 b) 256) 4),
      plotCharacteristic "psr_ssr_az_diff_deg" fun b =>
        real (F.round (F.div (F.mul (s8 b) 360) 16384) 4)]

/-- I048/220. -/
def item048_220 : Reader Track Unit :=
  .fixed 3 fun data track => track.set "icao24" (hex 6 (BigEndian.ofBytes data))

/-- I048/240. -/
def item048_240 : Reader Track Unit :=
  .fixed 6 fun data track => track.set "callsign" (.str (decodeCallsign data))

/-- I048/250. -/
def item048_250 : Reader Track Unit := .counted false 8 (decodeMb F)

/-- I048/161. -/
def item048_161 : Reader Track Unit :=
  .fixed 2 fun data track => track.set "track_num" (num (u16 data 0 &&& 0x0FFF))

/-- I048/042. -/
def item048_042 : Reader Track Unit :=
  .fixed 4 fun data track =>
    (track.set "cart_x_nm" (real (F.round (F.div (s16 data 0) 128) 3))).set "cart_y_nm"
      (real (F.round (F.div (s16 data 2) 128) 3))

/-- I048/200. -/
def item048_200 : Reader Track Unit :=
  .fixed 4 fun data track =>
    (track.set "speed_ms" (real (F.round (F.div (F.mul (u16 data 0) 1852) 16384) 2))).set
      "heading_deg" (real (F.round (F.div (F.mul (u16 data 2) 360) 65536) 2))

def octet048_170 : Nat → UInt8 → Track → Track
  | 0, b, track =>
    let track := track.set "confirmed" (flag (!bits b 0x80))
    let track := setIf (bits b 0x80) "track_tentative" (flag true) track
    let track := track.set "track_sensor"
      (.str (["combined", "psr", "ssr_mode_s", "invalid"].getD (field b 5 0x03) ""))
    let track := setFlags b [(0x10, "track_doubtful"), (0x08, "track_manoeuvre")] track
    let cdm := field b 1 0x03
    setIf (cdm != 0) "vertical_trend"
      (.str (["", "climbing", "descending", "unknown"].getD cdm "")) track
  | 1, b, track =>
    setFlags b [(0x80, "track_end"), (0x40, "track_ghost"),
      (0x20, "supported_by_neighbour_node"), (0x10, "slant_range_correction")] track
  | _, _, track => track

/-- I048/170. -/
def item048_170 : Reader Track Unit := .extents octet048_170 (· ≤ 1)

/-- I048/210. -/
def item048_210 : Reader Track Unit :=
  .fixed 4 fun data track =>
    let octet (i : Nat) : Rat := (octetAt data i).toNat
    let track := track.set "track_sigma_x_nm" (real (F.round (F.div (octet 0) 128) 4))
    let track := track.set "track_sigma_y_nm" (real (F.round (F.div (octet 1) 128) 4))
    let track := track.set "track_sigma_v_kt"
      (real (F.round (F.mul (F.mul (octet 2) (1 / 2 ^ 14)) 3600) 2))
    track.set "track_sigma_heading_deg"
      (real (F.round (F.div (F.mul (octet 3) 360) 4096) 2))

/-- `_WE048`, of the codes 1 to 37. -/
def we048 : List String :=
  ["multipath_reply", "sidelobe_reply", "split_plot", "second_time_around", "angel",
    "terrestrial_vehicle", "fixed_psr_plot", "slow_psr_target", "low_quality_psr", "phantom_ssr",
    "mode3a_mismatch", "abnormal_altitude", "clutter", "max_zero_filter_doppler",
    "transponder_anomaly", "duplicate_illegal_address", "mode_s_error_correction",
    "undecodable_altitude", "bird", "flock_of_birds", "mode1_present", "mode2_present",
    "wind_turbine", "helicopter", "max_surveillance_reinterrogations",
    "max_bds_reinterrogations", "bds_overlay_incoherence", "potential_bds_swap",
    "zenithal_gap_update", "mode_s_track_reacquired", "duplicate_mode5_pair", "wrong_df_format",
    "mode_ac_all_call_anomaly", "si_capability_anomaly", "potential_ic_conflict",
    "ic_conflict_detection_possible", "duplicate_mode5_pin"]

/-- `track.setdefault("warning_error_names", []).append(name)`. -/
def appendName (name : String) (track : Track) : Track :=
  match track.get? "warning_error_names" with
  | some (.list names) => track.set "warning_error_names" (.list (names ++ [.str name]))
  | _ => track.set "warning_error_names" (.list [.str name])

/-- One octet of I048/030. -/
def warning048 (track : Track) (b : UInt8) : Track :=
  let code := field b 1 0x7F
  let track :=
    match if code = 0 then none else we048[code - 1]? with
    | some name => appendName name track
    | none => track
  if code = 6 then
    (track.set "target_type" (.str "ground_vehicle")).set "on_ground" (flag true)
  else track

/-- I048/030. -/
def item048_030 : Reader Track Unit := do
  let found ← Reader.octets
  Reader.update fun track =>
    setIf (!found.isEmpty) "we_conditions" (.list (found.map fun b => num (field b 1 0x7F)))
      (found.foldl warning048 track)

/-- I048/080. -/
def item048_080 : Reader Track Unit :=
  .fixed 2 fun data track => track.set "squawk_quality_mask" (num (u16 data 0 &&& 0x0FFF))

/-- I048/100. -/
def item048_100 : Reader Track Unit :=
  .fixed 4 fun data track =>
    match gillhamToFt (u16 data 0) with
    | some alt => track.set "mode_c_alt_ft" (.int alt)
    | none => track

/-- I048/110. -/
def item048_110 : Reader Track Unit :=
  .fixed 2 fun data track => track.set "alt_3d_ft" (.int (s16 data 0 * 25))

/-- I048/120, calculated Doppler speed. -/
def item048_120_cal : Reader Track Unit :=
  .fixed 2 fun data track =>
    let w := u16 data 0
    let raw := signed 10 (w &&& 0x03FF)
    let track := (track.set "doppler_ms" (.int raw)).set "doppler_kt"
      (real (F.round (F.mul raw (F.near 1.943844)) 1))
    setIf (wordBits w 0x8000) "doppler_doubtful" (flag true) track

/-- I048/120, raw Doppler speed. -/
def item048_120_rds : Reader Track Unit :=
  .countedBlock 6 fun rep data track =>
    if rep > 0 then
      ((track.set "doppler_raw_ms" (.int (s16 data 0))).set "doppler_ambiguity_ms"
        (num (u16 data 2))).set "doppler_frequency_mhz" (num (u16 data 4))
    else track

/-- I048/120. -/
def item048_120 : Reader Track Unit :=
  .compoundOnly (.attempt .presenceMap) [item048_120_cal F, item048_120_rds]

/-- `_STAT230`. -/
def stat230 : List String :=
  ["no_alert_no_spi_airborne", "no_alert_no_spi_ground", "alert_no_spi_airborne",
    "alert_no_spi_ground", "alert_spi", "no_alert_spi", "unassigned", "unknown"]

/-- I048/230. -/
def item048_230 : Reader Track Unit :=
  .fixed 2 fun data track =>
    let b0 := octetAt data 0
    let b1 := octetAt data 1
    let stat := field b0 2 0x07
    let track := track.set "com_capability" (num (field b0 5 0x07))
    let track := track.set "transponder_status" (.str (stat230.getD stat ""))
    let track := setIf ([1, 3].contains stat) "on_ground" (flag true) track
    let track := setIf ([2, 3, 4].contains stat) "alert" (flag true) track
    let track := setIf ([4, 5].contains stat) "spi" (flag true) track
    let track := track.set "interrogator_code_capability"
      (.str (if bits b0 0x02 then "II" else "SI"))
    let track := setFlags b1 [(0x80, "mssc"), (0x40, "altitude_25ft"), (0x20, "aic")] track
    (track.set "bds10_b1a" (flag (bits b1 0x10))).set "bds10_b1b" (num (field b1 0 0x0F))

/-- I048/260. -/
def item048_260 : Reader Track Unit := .fixed 7 decodeBds30

/-- I048/055. -/
def item048_055 : Reader Track Unit :=
  .fixed 1 fun data track =>
    let b := octetAt data 0
    setFlags b [(0x80, "mode1_invalid"), (0x40, "mode1_garbled"), (0x20, "mode1_smoothed")]
      (track.set "mode1" (octal 2 (field b 0 0x1F)))

/-- I048/050. -/
def item048_050 : Reader Track Unit :=
  .fixed 2 fun data track =>
    let w := u16 data 0
    let track := track.set "mode2" (octal 4 (w &&& 0x0FFF))
    let track := setIf (wordBits w 0x8000) "mode2_invalid" (flag true) track
    let track := setIf (wordBits w 0x4000) "mode2_garbled" (flag true) track
    setIf (wordBits w 0x2000) "mode2_smoothed" (flag true) track

/-- I048/065. -/
def item048_065 : Reader Track Unit :=
  .fixed 1 fun data track => track.set "mode1_quality_mask" (num (octetAt data 0).toNat)

/-- I048/060. -/
def item048_060 : Reader Track Unit :=
  .fixed 2 fun data track => track.set "mode2_quality_mask" (num (u16 data 0))

/-! ## The decoder -/

/-- The branches of `_cat48_decode_cat048_record`, by FRN. -/
def items048 (radarLat radarLon : Option Rat) : List (Reader Track Unit) :=
  [item048_010, item048_140 F, item048_020, item048_040 F radarLat radarLon, item048_070,
    item048_090, item048_130 F, item048_220, item048_240, item048_250 F, item048_161,
    item048_042 F, item048_200 F, item048_170, item048_210 F, item048_030, item048_080,
    item048_100, item048_110, item048_120 F, item048_230, item048_260, item048_055, item048_050,
    item048_065, item048_060, .skipExplicit, .skipExplicit]

/-- The `radar_id` of a plot. -/
def radarId048 (sac sic trackNum : Nat) : String :=
  "CAT48-" ++ (sourceText sac sic ++ ("-" ++ digits 10 4 trackNum))

/-- What is set behind the last item. -/
def finish048 (track : Track) : Track :=
  if track.contains "icao24" then track
  else
    track.set "radar_id" (.str (radarId048 (numberOr0 track "sac") (numberOr0 track "sic")
      (numberOr0 track "track_num")))

/-- The track at the start of a record. -/
def start048 (now : Rat) : Track :=
  (PyDict.empty.set "_ts" (real now)).set "_src" (.str "ASTERIX CAT-48 Ed.1.32")

/-- `_cat48_decode_cat048_record` on what is left of the block, and what it leaves of that. -/
def decodeRecord048 (now : Rat) (radarLat radarLon : Option Rat) (data : List UInt8) :
    Track × List UInt8 :=
  match (Reader.compound .fspec (items048 F radarLat radarLon)).run (start048 now) data with
  | .done _ track rest => (finish048 track, rest)
  | .stop track => (track, [])
  -- Every exception of an item is caught in its branch.
  | .raise => (start048 now, [])

/-- `_cat48_decode_cat048_record`. -/
def decodeCat048Record (now : Rat) (data : List UInt8) (pos : Nat)
    (radarLat radarLon : Option Rat) : Track × Nat :=
  decodeAt (decodeRecord048 F now radarLat radarLon) data pos

/-- The loop of the handler: the tracks, and the slices of the payload that they come from.  The
clock is read once for each record. -/
def records048 (clock : Nat → Rat) (radarLat radarLon : Option Rat) (data : List UInt8) :
    List (Track × List UInt8) :=
  records (fun data pos => decodeCat048Record F (clock pos) data pos radarLat radarLon) data 0

/-! ## Edition 1.32 -/

/-- The layouts of the items of Edition 1.32, by FRN. -/
def uap048 : List Layout :=
  [.fixed 2, .fixed 3, .extended 6, .fixed 4, .fixed 2, .fixed 2,
    .compound (List.replicate 7 (.fixed 1)), .fixed 3, .fixed 6, .repeated 8, .fixed 2, .fixed 4,
    .fixed 4, .extended 2, .fixed 4, .chained 0, .fixed 2, .fixed 4, .fixed 2,
    .compound [.fixed 2, .repeated 6], .fixed 2, .fixed 7, .fixed 1, .fixed 2, .fixed 1, .fixed 2,
    .explicit, .explicit]

/-- A record of CAT-048, and nothing behind it. -/
def Record048 (record : List UInt8) : Prop := Layout.compound uap048 record = some []

instance (record : List UInt8) : Decidable (Record048 record) :=
  inferInstanceAs (Decidable (_ = _))

variable {F} {radarLat radarLon : Option Rat}

theorem follows_item048_130 :
    Follows (item048_130 F) (.compound (List.replicate 7 (.fixed 1))) :=
  follows_compoundOnly (readsFlags_presenceMap _).attempt (by simp [plotCharacteristic])

theorem follows_item048_120 : Follows (item048_120 F) (.compound [.fixed 2, .repeated 6]) :=
  follows_compoundOnly (readsFlags_presenceMap _).attempt
    (by simp [item048_120_cal, item048_120_rds])

/-- Every branch of the decoder ends its item where the edition ends it. -/
theorem follows_items048 : List.Forall₂ Follows (items048 F radarLat radarLon) uap048 := by
  simp [items048, uap048, item048_010, item048_140, item048_020, item048_040, item048_070,
    item048_090, follows_item048_130, item048_220, item048_240, item048_250, item048_161,
    item048_042, item048_200, item048_170, item048_210, item048_030, item048_080, item048_100,
    item048_110, follows_item048_120, item048_230, item048_260, item048_055, item048_050,
    item048_065, item048_060, -List.reduceReplicate]

/-- A record is decoded from its own bytes, and what follows it is left. -/
theorem decodeRecord048_append {now : Rat} {record : List UInt8} (h : Record048 record)
    (after : List UInt8) : decodeRecord048 F now radarLat radarLon (record ++ after) =
      ((decodeRecord048 F now radarLat radarLon record).1, after) := by
  obtain ⟨track, halone, hreads⟩ :=
    reads_message (readsFlags_fspec _) follows_items048 (start048 now) h
  rw [decodeRecord048, decodeRecord048, hreads after, halone]

/-- The decoder moves on, and not past the end. -/
theorem decodeRecord048_moves {now : Rat} {data : List UInt8} (h : data ≠ []) :
    (decodeRecord048 F now radarLat radarLon data).2.length < data.length := by
  rw [decodeRecord048]
  split
  next track rest hdone => exact length_of_compound_fspec hdone h
  next => exact List.length_pos_of_ne_nil h
  next => exact List.length_pos_of_ne_nil h

end Efdi.Asterix

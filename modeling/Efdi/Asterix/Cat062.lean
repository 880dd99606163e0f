import Efdi.Asterix.Fields
import Efdi.Asterix.Frames

/-!
# CAT-062 records

`_cat62_decode_cat62_record`, its four nested items and the loop of its handler.  A subfield with
a value is read by `valued`; the bytes of the others are skipped.
-/

namespace Efdi.Asterix

open Reading Tracks

variable (F : FloatMath)

/-! ## Nested items -/

/-- A subfield that is skipped. -/
def skipped (n : Nat) : Reader Track Unit := .fixed n fun _ out => out

/-- A subfield with one value. -/
def valued (n : Nat) (key : String) (value : List UInt8 → PyJson) : Reader Track Unit :=
  .fixed n fun data out => out.set key (value data)

/-- A text, without the padding around it. -/
def asciiText (data : List UInt8) : PyJson := .str (stripPadding (decodeAscii data))

/-- I062/380 IAS: a Mach number or an indicated airspeed. -/
def airspeed380 : Reader Track Unit :=
  .fixed 2 fun data out =>
    let w := u16 data 0
    let value : Rat := (w &&& 0x7FFF : Nat)
    if wordBits w 0x8000 then out.set "mach" (real (F.round (F.mul value (F.near 0.001)) 3))
    else out.set "ias_kt" (real (F.round (F.div (value * 3600) 16384) 2))

/-- I062/380 SAL and FSS. -/
def altitude380 (key : String) : Reader Track Unit :=
  valued 2 key fun data => .int (signed 13 (u16 data 0 &&& 0x1FFF) * 25)

/-- I062/380 BVR and GVR. -/
def verticalRate380 (key : String) : Reader Track Unit :=
  valued 2 key fun data => real (F.mul (signed 15 (u16 data 0 &&& 0x7FFF)) (25 / 4))

/-- I062/380 MET, as the decoder takes it. -/
def met380 : Reader Track Unit :=
  .compound (.presence 1)
    [valued 2 "wind_speed_kt" fun data => num (u16 data 0),
      valued 2 "wind_dir_deg" fun data => num (u16 data 0),
      valued 2 "temp_c" fun data => real (F.mul (s16 data 0) (1 / 4)),
      valued 1 "turbulence" fun data => num (octetAt data 0).toNat]

/-- I062/380 POS. -/
def position380 : Reader Track Unit :=
  .fixed 6 fun data out =>
    let scale := F.div 180 (2 ^ 23)
    (out.set "aircraft_lat_deg" (real (F.round (F.mul (s24 data 0) scale) 7))).set
      "aircraft_lon_deg" (real (F.round (F.mul (s24 data 3) scale) 7))

/-- The subfields of I062/380, by index. -/
def subfields380 : List (Reader Track Unit) :=
  [valued 3 "icao24" fun data => hex 6 (BigEndian.ofBytes data),
    valued 6 "callsign" fun data => .str (decodeCallsign data),
    valued 2 "mag_hdg_deg" fun data => real (F.round (F.div (u16 data 0 * 360) 65536) 3),
    airspeed380 F,
    valued 2 "tas_kt" fun data => num (u16 data 0 &&& 0x7FFF),
    altitude380 "selected_alt_ft",
    altitude380 "final_alt_ft",
    skipped 1,
    .countedBlock 15 fun _ _ out => out,
    skipped 2,
    skipped 2,
    skipped 7,
    verticalRate380 F "baro_vr_fpm",
    verticalRate380 F "geo_vr_fpm",
    valued 2 "roll_deg" fun data => real (F.round (F.mul (s16 data 0) (F.near 0.01)) 2),
    valued 2 "track_angle_rate_degs" fun data =>
      real (F.round (F.div (signed 10 (u16 data 0 &&& 0x03FF)) 32) 3),
    valued 2 "heading_deg" fun data => real (F.round (F.div (u16 data 0 * 360) 65536) 3),
    valued 2 "speed_ms" fun data =>
      real (F.round (F.mul (F.mul (s16 data 0) (1 / 2 ^ 14)) 1852) 3),
    skipped 1,
    met380 F,
    valued 1 "emitter_category" fun data => num (octetAt data 0).toNat,
    position380 F,
    valued 2 "aircraft_geo_alt_ft" fun data => real (F.mul (s16 data 0) (25 / 4)),
    skipped 1,
    .counted true 8 (decodeMb F),
    valued 2 "ias_kt" fun data => num (u16 data 0),
    valued 2 "mach" fun data => real (F.round (F.mul (u16 data 0) (F.near 0.008)) 3),
    valued 2 "baro_setting_mb" fun data =>
      real (F.add 800 (F.mul (u16 data 0 &&& 0x0FFF : Nat) (F.near 0.1)))]

/-- `_cat62__decode_380_ed121`. -/
def decode380 : Reader Track Unit := .compound (.presence 4) (subfields380 F)

/-- I062/390 IFI. -/
def ifps390 : Reader Track Unit :=
  .fixed 4 fun data out =>
    let val := u32 data 0
    (out.set "ifps_id_type" (num ((val >>> 30) &&& 0x03))).set "ifps_flight_id"
      (num (val &&& 0x07FFFFFF))

/-- I062/390 FCT. -/
def category390 : Reader Track Unit :=
  .fixed 1 fun data out =>
    let b := octetAt data 0
    let gat := field b 6 0x03
    let fr := field b 4 0x03
    let rvsm := field b 2 0x03
    let out := setIf (gat != 0) "flight_gat" (.str (["", "GAT", "OAT", "GAT+OAT"].getD gat "")) out
    let out := setIf (fr != 0) "flight_rules" (.str (["", "IFR", "VFR", "IFR+VFR"].getD fr "")) out
    let out := setIf (rvsm != 0) "rvsm"
      (.str (["", "approved", "exempt", "not_approved"].getD rvsm "")) out
    setIf (bits b 0x02) "high_priority" (flag true) out

/-- I062/390 RDS. -/
def runway390 : Reader Track Unit :=
  .fixed 3 fun data out =>
    let nu1 := (octetAt data 0).toNat
    let nu2 := (octetAt data 1).toNat
    let ltr := (octetAt data 2).toNat
    let letter := if 32 < ltr ∧ ltr < 127 then String.ofList [Char.ofNat ltr] else ""
    let out := out.set "runway" (.str (toString nu1 ++ toString nu2 ++ letter))
    (out.set "runway_nu1" (num nu1)).set "runway_nu2" (num nu2)

/-- One entry of I062/390 TOD. -/
def departure390 (val : Nat) : PyJson :=
  .dict [("type", num ((val >>> 27) &&& 0x1F)), ("day", num ((val >>> 25) &&& 0x03)),
    ("hour", num ((val >>> 16) &&& 0x1F)), ("minute", num ((val >>> 8) &&& 0x3F)),
    ("seconds_available", flag (wordBits val 0x80)), ("second", num (val &&& 0x3F))]

/-- The subfields of I062/390, by index. -/
def subfields390 : List (Reader Track Unit) :=
  [.fixed 2 fun data out =>
      (out.set "fpps_sac" (num (octetAt data 0).toNat)).set "fpps_sic"
        (num (octetAt data 1).toNat),
    valued 7 "flight_plan_callsign" asciiText,
    ifps390,
    category390,
    valued 4 "aircraft_type" asciiText,
    valued 1 "wake_turb_cat" fun data =>
      .str (String.ofList [Char.ofNat (octetAt data 0).toNat]),
    valued 4 "departure_icao" asciiText,
    valued 4 "destination_icao" asciiText,
    runway390,
    valued 2 "cleared_fl" fun data => real (F.mul (s16 data 0) (1 / 4)),
    .fixed 2 fun data out =>
      (out.set "control_centre" (num (octetAt data 0).toNat)).set "control_position"
        (num (octetAt data 1).toNat),
    .countedBlock 4 fun rep data out =>
      out.set "departure_arrival_times"
        (.list ((List.range rep).map fun i => departure390 (u32 data (4 * i)))),
    valued 6 "aircraft_stand" asciiText,
    .fixed 1 fun data out =>
      (out.set "stand_emplacement" (num (field (octetAt data 0) 6 0x03))).set "stand_availability"
        (num (field (octetAt data 0) 4 0x03)),
    valued 7 "sid" asciiText,
    valued 7 "star" asciiText,
    .fixed 2 fun data out =>
      (out.set "pre_emergency_squawk_valid" (flag (wordBits (u16 data 0) 0x1000))).set
        "pre_emergency_squawk" (octal 4 (u16 data 0 &&& 0x0FFF)),
    valued 7 "pre_emergency_callsign" asciiText]

/-- `_cat62__decode_390_ed121`. -/
def decode390 : Reader Track Unit := .compound (.presence 3) (subfields390 F)

/-- The subfields of I062/500, by index. -/
def subfields500 : List (Reader Track Unit) :=
  [.fixed 4 fun data out =>
      (out.set "pos_accuracy_x_m" (real (F.mul (u16 data 0) (1 / 2)))).set "pos_accuracy_y_m"
        (real (F.mul (u16 data 2) (1 / 2))),
    skipped 2,
    skipped 4,
    valued 1 "geo_alt_accuracy_ft" fun data =>
      real (F.mul (octetAt data 0).toNat (25 / 4)),
    valued 1 "baro_alt_accuracy_ft" fun data => num ((octetAt data 0).toNat * 25),
    skipped 2,
    skipped 2,
    skipped 1]

/-- `_cat62__decode_500_ed121`. -/
def decode500 : Reader Track Unit := .compound (.presence 2) (subfields500 F)

/-- The subfields of I062/340, by index.  The fourth is MDC, of which the decoder skips four
octets. -/
def subfields340 : List (Reader Track Unit) :=
  [valued 2 "measured_by" fun data =>
      .str (toString (octetAt data 0).toNat ++ "/" ++ toString (octetAt data 1).toNat),
    .fixed 4 fun data out =>
      (out.set "meas_range_nm" (real (F.round (F.div (u16 data 0) 256) 3))).set "meas_az_deg"
        (real (F.round (F.div (u16 data 2 * 360) 65536) 3)),
    valued 2 "meas_alt_ft" fun data => .int (s16 data 0 * 25),
    skipped 4,
    valued 2 "squawk" fun data => octal 4 (u16 data 0 &&& 0x0FFF),
    skipped 1]

/-- `_cat62__decode_340_ed121`. -/
def decode340 : Reader Track Unit := .compound (.presence 1) (subfields340 F)

/-- A nested item: `extra` is merged into the track, unless the item raises. -/
def extra (p : Reader Track Unit) : Reader Track Unit := .attempt (.nested PyDict.empty p updateWith)

/-! ## Items -/

/-- I062/010. -/
def item062_010 : Reader Track Unit :=
  .fixed 2 fun data track =>
    (track.set "sac" (num (octetAt data 0).toNat)).set "sic" (num (octetAt data 1).toNat)

/-- I062/015. -/
def item062_015 : Reader Track Unit := valued 1 "service_id" fun data => num (octetAt data 0).toNat

/-- I062/070. -/
def item062_070 : Reader Track Unit :=
  valued 3 "tod_s" fun data => real (F.div (BigEndian.ofBytes data) 128)

/-- I062/105. -/
def item062_105 : Reader Track Unit :=
  .fixed 8 fun data track =>
    let scale := F.div 180 (2 ^ 25)
    (track.set "lat_deg" (real (F.round (F.mul (s32 data 0) scale) 7))).set "lon_deg"
      (real (F.round (F.mul (s32 data 4) scale) 7))

/-- I062/100. -/
def item062_100 : Reader Track Unit :=
  .fixed 6 fun data track =>
    (track.set "x_m" (real (F.mul (s24 data 0) (1 / 2)))).set "y_m"
      (real (F.mul (s24 data 3) (1 / 2)))

/-- I062/185. -/
def item062_185 : Reader Track Unit :=
  .fixed 4 fun data track =>
    let vx := F.mul (s16 data 0) (1 / 4)
    let vy := F.mul (s16 data 2) (1 / 4)
    let track := (track.set "vx_ms" (real vx)).set "vy_ms" (real vy)
    let track := track.set "speed_ms" (real (F.round (F.hypot vx vy) 2))
    setIf (vx != 0 || vy != 0) "heading_deg" (real (F.round (F.mod360 (F.bearing vx vy)) 2)) track

/-- I062/210. -/
def item062_210 : Reader Track Unit :=
  .fixed 2 fun data track =>
    (track.set "ax_ms2" (real (F.mul (s8 (octetAt data 0)) (1 / 4)))).set "ay_ms2"
      (real (F.mul (s8 (octetAt data 1)) (1 / 4)))

/-- I062/060. -/
def item062_060 : Reader Track Unit :=
  valued 2 "squawk" fun data => octal 4 (u16 data 0 &&& 0x0FFF)

/-- I062/245. -/
def item062_245 : Reader Track Unit :=
  valued 7 "callsign" fun data => .str (decodeCallsign (data.drop 1))

/-- I062/380. -/
def item062_380 : Reader Track Unit := extra (decode380 F)

/-- I062/040. -/
def item062_040 : Reader Track Unit :=
  valued 2 "track_num" fun data => num (u16 data 0 &&& 0x0FFF)

/-- `_EMERGENCY_CODES`, from code 1 on. -/
def emergencyCodes : List String :=
  ["GENERAL EMERGENCY", "LIFEGUARD/MEDICAL", "MIN FUEL", "NO COMMS", "UNLAWFUL INTERFERENCE",
    "DOWNED AIRCRAFT"]

def octet062_080 : Nat → UInt8 → Track → Track
  | 0, b, track =>
    (track.set "track_monosensor" (flag (bits b 0x80))).set "confirmed" (flag (!bits b 0x02))
  | 1, b, track =>
    setFlags b [(0x80, "simulated"), (0x40, "_delete"), (0x20, "track_begin"),
      (0x10, "flight_plan_correlated")] track
  | 2, b, track =>
    setFlags b [(0x20, "mil_emergency"), (0x20, "is_military"), (0x10, "mil_id_present"),
      (0x10, "is_military")] track
  | 3, b, track => setFlags b [(0x80, "coasting")] track
  | 4, b, track =>
    let ec := field b 4 0x07
    if ec = 0 then track
    else
      let track := track.setDefault "emergency_code" (num ec)
      match emergencyCodes[ec - 1]? with
      | some s => track.setDefault "emergency_str" (.str s)
      | none => track
  | _, _, track => track

/-- I062/080. -/
def item062_080 : Reader Track Unit := .extents octet062_080 fun _ => true

/-- I062/290. -/
def item062_290 : Reader Track Unit :=
  .attempt (.compound (.presence 2)
    ([(1, "track"), (1, "psr"), (1, "ssr"), (1, "mode_s"), (2, "ads_c"), (1, "ads_b_es"),
      (1, "vdl4"), (1, "uat"), (1, "loop"), (1, "mlat")].map fun subfield =>
        valued subfield.1 ("track_age_" ++ subfield.2 ++ "_s") fun data =>
          real (F.mul (BigEndian.ofBytes data) (1 / 4))))

/-- I062/200. -/
def item062_200 : Reader Track Unit :=
  .fixed 1 fun data track =>
    let b := octetAt data 0
    let track := track.set "lateral_trend"
      (.str (["constant", "right", "left", "undetermined"].getD (field b 6 3) ""))
    let track := track.set "speed_trend"
      (.str (["constant", "increasing", "decreasing", "undetermined"].getD (field b 4 3) ""))
    let track := track.set "vertical_trend"
      (.str (["level", "climb", "descent", "undetermined"].getD (field b 2 3) ""))
    setIf (bits b 0x02) "alt_discrepancy" (flag true) track

/-- `_I062_295_NAMES`. -/
def names295 : List String :=
  ["mfl", "md1", "md2", "mda", "md4", "md5", "mhg", "ias", "tas", "sal", "fss", "tid", "com",
    "sab", "acs", "bvr", "gvr", "ran", "tar", "tan", "gsp", "vun", "met", "emc", "pos", "gal",
    "pun", "mb", "iar", "mac", "bps"]

/-- I062/295. -/
def item062_295 : Reader Track Unit :=
  .attempt (.apart PyDict.empty
    (.compound (.presence 5) (names295.map fun name =>
      valued 1 name fun data => real (F.mul (octetAt data 0).toNat (1 / 4))))
    fun ages track => setIf (!ages.entries.isEmpty) "data_ages_s" (.dict ages.entries) track)

/-- I062/136. -/
def item062_136 : Reader Track Unit := valued 2 "measured_alt_ft" fun data => .int (s16 data 0 * 25)

/-- I062/130. -/
def item062_130 : Reader Track Unit :=
  valued 2 "calc_geo_alt_ft" fun data => real (F.mul (s16 data 0) (25 / 4))

/-- I062/135. -/
def item062_135 : Reader Track Unit :=
  .fixed 2 fun data track =>
    let w := u16 data 0
    (track.set "calc_baro_alt_ft" (.int (signed 15 (w &&& 0x7FFF) * 25))).set "qnh_corrected"
      (flag (wordBits w 0x8000))

/-- I062/220. -/
def item062_220 : Reader Track Unit :=
  valued 2 "vertical_rate_fpm" fun data => real (F.mul (s16 data 0) (25 / 4))

/-- I062/390. -/
def item062_390 : Reader Track Unit := extra (decode390 F)

def octet062_270 : Nat → UInt8 → Track → Track
  | 0, b, track => track.set "target_length_m" (num (b.toNat >>> 1))
  | 1, b, track =>
    track.set "target_orientation_deg"
      (real (F.round (F.div ((b.toNat >>> 1) * 360 : Nat) 128) 2))
  | 2, b, track => track.set "target_width_m" (num (b.toNat >>> 1))
  | _, _, track => track

/-- I062/270. -/
def item062_270 : Reader Track Unit := .extents (octet062_270 F) fun _ => true

/-- I062/300. -/
def item062_300 : Reader Track Unit := valued 1 "fleet_id" fun data => num (octetAt data 0).toNat

/-- I062/110. -/
def item062_110 : Reader Track Unit :=
  .attempt (.compound (.presence 1)
    [skipped 1, skipped 4, skipped 6, skipped 2,
      valued 2 "mode1" fun data => octal 2 (u16 data 0 &&& 0x3F), skipped 1, skipped 1])

/-- I062/120. -/
def item062_120 : Reader Track Unit :=
  valued 2 "mode2" fun data => octal 4 (u16 data 0 &&& 0x0FFF)

/-- I062/510. -/
def item062_510 : Reader Track Unit := .groupChain true 2 fun _ track => track

/-- I062/500. -/
def item062_500 : Reader Track Unit := extra (decode500 F)

/-- I062/340. -/
def item062_340 : Reader Track Unit := extra (decode340 F)

/-! ## The decoder -/

/-- The branches of `_cat62_decode_cat62_record`, by FRN. -/
def items062 : List (Reader Track Unit) :=
  [item062_010, pure (), item062_015, item062_070 F, item062_105 F, item062_100 F, item062_185 F,
    item062_210 F, item062_060, item062_245, item062_380 F, item062_040, item062_080,
    item062_290 F, item062_200, item062_295 F, item062_136, item062_130 F, item062_135,
    item062_220 F, item062_390 F, item062_270 F, item062_300, item062_110, item062_120,
    item062_510, item062_500 F, item062_340 F, pure (), pure (), pure (), pure (), pure (),
    .skipExplicit, .skipExplicit]

/-- The track at the start of a record. -/
def start062 (now : Rat) : Track :=
  (PyDict.empty.set "_ts" (real now)).set "_src" (.str "ASTERIX CAT-62 Ed.1.21")

/-- `_cat62_decode_cat62_record` on what is left of the block, and what it leaves of that. -/
def decodeRecord062 (now : Rat) (data : List UInt8) : Track × List UInt8 :=
  match (Reader.compound .fspec (items062 F)).run (start062 now) data with
  | .done _ track rest => (track, rest)
  | .stop track => (track, [])
  -- Every exception of an item is caught in its branch.
  | .raise => (start062 now, [])

/-- `_cat62_decode_cat62_record`. -/
def decodeCat62Record (now : Rat) (data : List UInt8) (pos : Nat) : Track × Nat :=
  decodeAt (decodeRecord062 F now) data pos

/-- The loop of the handler: the tracks, and the slices of the payload that they come from.  The
clock is read once for each record. -/
def records062 (clock : Nat → Rat) (data : List UInt8) : List (Track × List UInt8) :=
  records (fun data pos => decodeCat62Record F (clock pos) data pos) data 0

/-- `TOPIC_062` for the source of a track. -/
def topic062 (topicRoot : String) (track : Track) : String :=
  topicRoot ++ "/air/" ++ asterixSource track ++ "/fused/unknown/aircraft"

/-- The native blocks that the handler publishes: those of the tracks with more than `_ts` and
`_src`. -/
def natives062 (clock : Nat → Rat) (data : List UInt8) : List (Except String (List UInt8)) :=
  ((records062 F clock data).filter fun found => decide (2 < found.1.length)).map
    fun found => asterixDataBlock 62 found.2

end Efdi.Asterix

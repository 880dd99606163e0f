import Efdi.Asterix.Fields

/-!
# CAT-001 and CAT-002

`_cat1_decode_cat001` and `_cat2_decode_cat002`.  Both decode from the start of the block and
return no position.  A CAT-001 record is a plot or a track, and I001/020 says which items the
other bits of the FSPEC stand for.
-/

namespace Efdi.Asterix

open Reading Tracks

variable (F : FloatMath)

/-! ## CAT-001 -/

def octet001_020 : Nat → UInt8 → Track → Track
  | 0, b, msg =>
    let msg := (msg.set "is_track" (flag (bits b 0x80))).set "simulated" (flag (bits b 0x40))
    let msg := msg.set "ssr_psr"
      (.str (["no_detection", "sole_primary", "sole_secondary", "combined"].getD (field b 4 0x03)
        "undefined"))
    let msg := msg.set "antenna" (num (if bits b 0x08 then 2 else 1))
    (msg.set "spi" (flag (bits b 0x04))).set "fixed_transponder" (flag (bits b 0x02))
  | 1, b, msg =>
    let msg := msg.set "test_target" (flag (bits b 0x80))
    let msg := msg.set "emergency"
      (.str (["none", "unlawful_interference", "radio_failure", "emergency"].getD (field b 5 0x03)
        "undefined"))
    (msg.set "military_emergency" (flag (bits b 0x08))).set "military_id" (flag (bits b 0x04))
  | _, _, msg => msg

/-- `_decode_020`. -/
def item001_020 : Reader Track Unit := .extentsTo 3 octet001_020 fun _ => false

/-- I001/010 and I002/010. -/
def item001_010 : Reader Track Unit :=
  .fixed 2 fun data msg =>
    (msg.set "sac" (num (octetAt data 0).toNat)).set "sic" (num (octetAt data 1).toNat)

/-- I001/161. -/
def item001_161 : Reader Track Unit :=
  .fixed 2 fun data msg => msg.set "track_num" (num (u16 data 0))

/-- Coordinates of a site, when both are configured. -/
abbrev Site := Option (Rat × Rat)

/-- Coordinates that are not overwritten. -/
def setPosition001 (position : Rat × Rat) (msg : Track) : Track :=
  (msg.setDefault "lat_deg" (real (F.round position.1 7))).setDefault "lon_deg"
    (real (F.round position.2 7))

variable (site : Site)

/-- I001/040. -/
def item001_040 : Reader Track Unit :=
  .fixed 4 fun data msg =>
    let rho := F.round (F.div (u16 data 0) 128) 4
    let theta := F.round (F.mul (u16 data 2) (F.div 360 65536)) 4
    let msg := (msg.set "rho_nm" (real rho)).set "theta_deg" (real theta)
    match site with
    | some (lat, lon) => setPosition001 F (F.polarToWgs84 lat lon rho theta) msg
    | none => msg

/-- I001/042. -/
def item001_042 : Reader Track Unit :=
  .fixed 4 fun data msg =>
    let x := F.round (F.div (s16 data 0) 64) 4
    let y := F.round (F.div (s16 data 2) 64) 4
    let msg := (msg.set "x_nm" (real x)).set "y_nm" (real y)
    match site with
    | some (lat, lon) =>
      setPosition001 F (F.cartesianToWgs84 lat lon (F.mul x 1852) (F.mul y 1852)) msg
    | none => msg

/-- I001/200. -/
def item001_200 : Reader Track Unit :=
  .fixed 4 fun data msg =>
    (msg.set "speed_ms" (real (F.round (F.mul (F.div (u16 data 0) 16384) 1852) 3))).set
      "heading_deg" (real (F.round (F.mul (u16 data 2) (F.div 360 65536)) 4))

/-- I001/070 and I001/050, by the prefix of their keys. -/
def modeCode001 (key : String) : Reader Track Unit :=
  .fixed 2 fun data msg =>
    let b1 := octetAt data 0
    let msg := msg.set (key ++ "_squawk") (octal 4 (u16 data 0 &&& 0x0FFF))
    let msg := msg.set (key ++ "_validated") (flag (!bits b1 0x80))
    (msg.set (key ++ "_garbled") (flag (bits b1 0x40))).set (key ++ "_smoothed")
      (flag (bits b1 0x20))

/-- I001/090. -/
def item001_090 : Reader Track Unit :=
  .fixed 2 fun data msg =>
    let b1 := octetAt data 0
    let height := signed 14 (u16 data 0 &&& 0x3FFF)
    let msg := msg.set "alt_baro_ft" (real (F.round (F.mul (F.mul height (1 / 4)) 100) 1))
    (msg.set "altitude_validated" (flag (!bits b1 0x80))).set "altitude_garbled"
      (flag (bits b1 0x40))

/-- I001/141. -/
def item001_141 : Reader Track Unit :=
  .fixed 2 fun data msg => msg.set "tod_trunc_s" (real (F.round (F.div (u16 data 0) 128) 4))

/-- I001/120. -/
def item001_120 : Reader Track Unit :=
  .fixed 1 fun data msg =>
    msg.set "doppler_speed_ms"
      (real (F.round (F.mul (F.div (s8 (octetAt data 0)) 256) 1852) 3))

/-- I001/131. -/
def item001_131 : Reader Track Unit :=
  .fixed 1 fun data msg => msg.set "received_power_dbm" (.int (s8 (octetAt data 0)))

/-- `_CONF_PULSES_ABCD`. -/
def pulsesABCD : List String :=
  ["qa4", "qa2", "qa1", "qb4", "qb2", "qb1", "qc4", "qc2", "qc1", "qd4", "qd2", "qd1"]

/-- `_CONF_PULSES_MODEC`. -/
def pulsesModeC : List String :=
  ["qc1", "qa1", "qc2", "qa2", "qc4", "qa4", "qb1", "qd1", "qb2", "qd2", "qb4", "qd4"]

/-- `_decode_confidence12`, under a key. -/
def confidence001 (key : String) (pulses : List String) : Reader Track Unit :=
  .fixed 2 fun data msg =>
    let raw := u16 data 0 &&& 0x0FFF
    msg.set key (.dict (pulses.zipIdx.map fun pulse =>
      (pulse.1, flag (wordBits raw (1 <<< (pulses.length - 1 - pulse.2))))))

/-- I001/100. -/
def item001_100 : Reader Track Unit := do
  Reader.need 3
  Reader.fixed 2 fun data msg =>
    let b1 := octetAt data 0
    let msg := msg.set "mode_c_gray_code" (num (u16 data 0 &&& 0x0FFF))
    (msg.set "mode_c_validated" (flag (!bits b1 0x80))).set "mode_c_garbled" (flag (bits b1 0x40))
  confidence001 "mode_c_confidence" pulsesModeC

def octet001_170 : Nat → UInt8 → Track → Track
  | 0, b, msg =>
    let msg := msg.set "confirmed" (flag (!bits b 0x80))
    let msg := msg.set "radar_type" (.str (if bits b 0x40 then "ssr_combined" else "primary"))
    let msg := msg.set "maneuvering" (flag (bits b 0x20))
    (msg.set "doubtful_association" (flag (bits b 0x10))).set "rdp_chain"
      (num (if bits b 0x08 then 2 else 1))
  | 1, b, msg => msg.set "ghost_track" (flag (bits b 0x80))
  | _, _, msg => msg

/-- I001/170. -/
def item001_170 : Reader Track Unit := .extentsTo 3 octet001_170 fun _ => true

/-- I001/150. -/
def item001_150 : Reader Track Unit :=
  .fixed 1 fun data msg =>
    let b := octetAt data 0
    ((msg.set "x_pulse_mode3a" (flag (bits b 0x80))).set "x_pulse_modec" (flag (bits b 0x20))).set
      "x_pulse_mode2" (flag (bits b 0x04))

/-- `_decode_repetitive` and `_decode_fx_repetitive`, and what is done with the values. -/
def repetitive (store : List Nat → Track → Track) : Reader Track Unit := do
  let found ← Reader.octets
  Reader.update (store (found.map fun b => b.toNat >>> 1))

/-- Values that are stored when there are some. -/
def storeSome (key : String) (values : List Nat) (msg : Track) : Track :=
  setIf (!values.isEmpty) key (.list (values.map num)) msg

/-- `_WARNING_CODES`. -/
def warningCodes001 : List (Nat × String) :=
  [(0, "none"), (1, "garbled_reply"), (2, "reflection"), (3, "sidelobe_reply"), (4, "split_plot"),
    (5, "second_time_around_reply"), (6, "angels"), (7, "terrestrial_vehicles"),
    (64, "possible_wrong_mode3a"), (65, "possible_wrong_altitude"),
    (66, "possible_phantom_mssr_plot"), (80, "fixed_psr_plot"), (81, "slow_psr_plot"),
    (82, "low_quality_psr_plot")]

/-- I001/030. -/
def item001_030 : Reader Track Unit :=
  repetitive fun codes msg =>
    msg.set "warnings" (.list (codes.map fun code =>
      .str (nameOf warningCodes001 ("code_" ++ toString code) code)))

/-- I001/130. -/
def item001_130 : Reader Track Unit := repetitive (storeSome "plot_characteristics_raw")

/-- I001/210. -/
def item001_210 : Reader Track Unit := repetitive (storeSome "track_quality_raw")

/-- `_PLOT_ITEMS`. -/
def plotItems : List (Reader Track Unit) :=
  [item001_040 F site, modeCode001 "mode3a", item001_090 F, item001_130, item001_141 F,
    modeCode001 "mode2", item001_120 F, item001_131, confidence001 "mode3a_confidence" pulsesABCD,
    item001_100, confidence001 "mode2_confidence" pulsesABCD, item001_030, item001_150]

/-- `_TRACK_ITEMS`. -/
def trackItems : List (Reader Track Unit) :=
  [item001_161, item001_040 F site, item001_042 F site, item001_200 F, modeCode001 "mode3a",
    item001_090 F, item001_141 F, item001_130, item001_131, item001_120 F, item001_170, item001_210,
    modeCode001 "mode2", confidence001 "mode3a_confidence" pulsesABCD, item001_100,
    confidence001 "mode2_confidence" pulsesABCD, item001_030]

/-- The items that are flagged behind I001/020.  What comes behind the last of the table is taken
for an item with a length. -/
def targetItems (flags : List Bool) : Reader Track Unit := do
  let msg ← Reader.get
  let items := if msg.get? "is_track" = some (flag true) then trackItems F site else plotItems F site
  Reader.present (items ++ List.replicate flags.length .skipExplicit) (flags.drop 2)

/-- The items of `_cat1_decode_cat001`. -/
def reader001 : Reader Track Unit := do
  let flags ← Reader.fspec
  if flags[0]? = some true then item001_010 else Reader.stop
  if flags[1]? = some true then item001_020 else Reader.stop
  targetItems F site flags

/-- `_cat1_decode_cat001`. -/
def decodeCat001 (data : List UInt8) : Option Track :=
  decodeMessage (reader001 F site) data

/-! ## CAT-002 -/

/-- `_MSG_TYPES` of CAT-002. -/
def msgTypes002 : List (Nat × String) :=
  [(1, "north_marker"), (2, "sector_crossing"), (3, "south_marker"),
    (8, "blind_zone_filtering_start"), (9, "blind_zone_filtering_stop")]

/-- I002/000. -/
def item002_000 : Reader Track Unit :=
  .fixed 1 fun data msg =>
    let code := (octetAt data 0).toNat
    msg.set "msg_type" (.str (nameOf msgTypes002 ("type_" ++ toString code) code))

/-- I002/020. -/
def item002_020 : Reader Track Unit :=
  .fixed 1 fun data msg =>
    msg.set "sector_deg" (real (F.round (F.mul (octetAt data 0).toNat (F.div 360 256)) 4))

/-- I002/030 and I034/030. -/
def item002_030 : Reader Track Unit :=
  .fixed 3 fun data msg => msg.set "tod_s" (real (F.div (BigEndian.ofBytes data) 128))

/-- I002/041. -/
def item002_041 : Reader Track Unit :=
  .fixed 2 fun data msg =>
    msg.set "antenna_rotation_s" (real (F.round (F.div (u16 data 0) 128) 4))

/-- One entry of I002/070. -/
def plotCount (w : Nat) : PyJson :=
  .dict [("antenna", num (if wordBits w 0x8000 then 2 else 1)),
    ("ident", .str (nameOf [(1, "sole_primary"), (2, "sole_ssr"), (3, "combined")] "undefined"
      ((w >>> 10) &&& 0x1F))),
    ("count", num (w &&& 0x03FF))]

/-- One more entry of a list under a key. -/
def appendTo (key : String) (value : PyJson) (msg : Track) : Track :=
  match msg.get? key with
  | some (.list values) => msg.set key (.list (values ++ [value]))
  | _ => msg.set key (.list [value])

/-- I002/070. -/
def item002_070 : Reader Track Unit :=
  .counted false 2 fun group msg => appendTo "plot_counts" (plotCount (u16 group 0)) msg

/-- I002/100. -/
def item002_100 : Reader Track Unit :=
  .fixed 8 fun data msg =>
    let rho (i : Nat) : PyJson := real (F.round (F.div (u16 data i) 128) 4)
    let theta (i : Nat) : PyJson := real (F.round (F.mul (u16 data i) (F.div 360 65536)) 4)
    (((msg.set "window_rho_start_nm" (rho 0)).set "window_rho_end_nm" (rho 2)).set
      "window_theta_start_deg" (theta 4)).set "window_theta_end_deg" (theta 6)

/-- I002/090. -/
def item002_090 : Reader Track Unit :=
  .fixed 2 fun data msg =>
    (msg.set "range_error_nm" (real (F.round (F.div (s8 (octetAt data 0)) 128) 4))).set
      "azimuth_error_deg" (real (F.round (F.mul (s8 (octetAt data 1)) (F.div 360 16384)) 4))

/-- The branches of `_cat2_decode_cat002`, by FRN. -/
def items002 : List (Reader Track Unit) :=
  [item001_010, item002_000, item002_020 F, item002_030 F, item002_041 F,
    repetitive (storeSome "station_configuration_raw"),
    repetitive (storeSome "station_processing_mode_raw"), item002_070, item002_100 F,
    item002_090 F, repetitive (storeSome "warnings_raw"), .skipExplicit, .skipExplicit,
    .skipExplicit]

/-- `_cat2_decode_cat002`. -/
def decodeCat002 (data : List UInt8) : Option Track :=
  decodeMessage (.compound .fspec (items002 F)) data

end Efdi.Asterix

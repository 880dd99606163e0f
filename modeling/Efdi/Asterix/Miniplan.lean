import Efdi.Asterix.Monoradar

/-!
# CAT-032

`_cat32_decode_cat032`, which decodes one flight plan report from the start of the block and
returns no position.
-/

namespace Efdi.Asterix

open Reading Tracks

variable (F : FloatMath)

/-- A text that is stored unless it is empty. -/
def textItem (n : Nat) (key : String) : Reader Track Unit :=
  .fixed n fun data msg =>
    let text := stripPadding (decodeAscii data)
    setIf (text != "") key (.str text) msg

/-! ## I032/500 -/

/-- IFI. -/
def ifi032 : Reader Track Unit :=
  .fixed 4 fun data out =>
    let v := u32 data 0
    (out.set "ifps_id_type" (.str (["plan_number", "unit1_internal", "unit2_internal",
      "unit3_internal"].getD ((v >>> 30) &&& 0x03) "unknown"))).set "ifps_id_number"
        (num (v &&& 0x07FFFFFF))

/-- RVP. -/
def rvp032 : Reader Track Unit :=
  .fixed 1 fun data out =>
    let b := octetAt data 0
    setIf (bits b 0x01) "high_priority_flight" (flag true) (out.set "rvsm"
      (.str (["unknown", "approved", "exempt", "not_approved"].getD (field b 1 0x03) "unknown")))

/-- `_TOD_TYPE`. -/
def todTypes032 : List String :=
  ["scheduled_off_block", "estimated_off_block", "estimated_takeoff", "actual_off_block",
    "predicted_runway_hold", "actual_runway_hold", "actual_line_up", "actual_takeoff",
    "estimated_arrival", "predicted_landing", "actual_landing", "actual_off_runway",
    "predicted_gate", "actual_on_block"]

/-- One entry of TOD. -/
def departure032 (v : Nat) : PyJson :=
  .dict [("type", .str (todTypes032.getD ((v >>> 27) &&& 0x1F) "unknown")),
    ("day", .str (["today", "yesterday", "tomorrow", "invalid"].getD ((v >>> 25) &&& 0x03)
      "unknown")),
    ("hour", num ((v >>> 16) &&& 0x1F)), ("minute", num ((v >>> 8) &&& 0x3F)),
    ("seconds_available", flag (!wordBits (v >>> 7) 0x01)), ("second", num (v &&& 0x3F))]

/-- STS. -/
def sts032 : Reader Track Unit :=
  .fixed 1 fun data out =>
    let b := octetAt data 0
    (out.set "stand_status" (.str (["empty", "occupied", "unknown", "invalid"].getD
      (field b 6 0x03) "unknown"))).set "stand_availability"
        (.str (["available", "not_available", "unknown", "invalid"].getD (field b 4 0x03) "unknown"))

/-- The subfields of I032/500. -/
def subfields032 : List (Reader Track Unit) :=
  [ifi032, rvp032, textItem 3 "runway",
    .counted false 4 fun group out =>
      appendTo "times_of_departure_arrival" (departure032 (u32 group 0)) out,
    textItem 6 "aircraft_stand", sts032, textItem 7 "sid", textItem 7 "star"]

/-- I032/500. -/
def item032_500 : Reader Track Unit :=
  .attempt (.nested PyDict.empty (.compound (.presence 2) subfields032) updateWith)

/-! ## Items -/

/-- I032/010. -/
def item032_010 : Reader Track Unit :=
  .fixed 2 fun data msg =>
    (msg.set "server_sac" (num (octetAt data 0).toNat)).set "server_sic"
      (num (octetAt data 1).toNat)

/-- A number of two octets. -/
def numberItem (key : String) : Reader Track Unit :=
  .fixed 2 fun data msg => msg.set key (num (u16 data 0))

/-- I032/035. -/
def item032_035 : Reader Track Unit :=
  .fixed 1 fun data msg =>
    let family := field (octetAt data 0) 4 0x0F
    let nature := field (octetAt data 0) 0 0x0F
    let msg := msg.set "family"
      (.str (["invalid", "fpps", "suc_fdps"].getD family ("family_" ++ toString family)))
    if family = 1 then
      msg.set "nature" (.str (["invalid", "initial_correlation", "miniplan_update",
        "end_of_correlation", "miniplan_cancellation", "retained_miniplan"].getD nature
          ("nature_" ++ toString nature)))
    else if family = 2 then
      msg.set "nature" (.str (["invalid", "initial_suc_correlation", "end_of_suc_correlation",
        "change_of_suc_correlation"].getD nature ("nature_" ++ toString nature)))
    else msg.set "nature_raw" (num nature)

/-- I032/050. -/
def item032_050 : Reader Track Unit :=
  .groupChain false 2 fun group msg =>
    let v := BigEndian.ofBytes group
    appendTo "composed_track_numbers"
      (.dict [("system_unit_id", num ((v >>> 16) &&& 0xFF)),
        ("system_track_num", num ((v >>> 1) &&& 0x7FFF))]) msg

/-- I032/060. -/
def item032_060 : Reader Track Unit :=
  .fixed 2 fun data msg => msg.set "squawk" (octal 4 (u16 data 0 &&& 0x0FFF))

/-- I032/420. -/
def item032_420 : Reader Track Unit :=
  .fixed 1 fun data msg =>
    let b := octetAt data 0
    let msg := msg.set "gat_oat"
      (.str (["unknown", "gat", "oat", "not_applicable"].getD (field b 6 0x03) "unknown"))
    let msg := msg.set "flight_rules"
      (.str (["ifr", "vfr", "not_applicable", "cvfr"].getD (field b 4 0x03) "unknown"))
    msg.set "special_priority_raw" (num (field b 1 0x07))

/-- I032/480. -/
def item032_480 : Reader Track Unit :=
  .fixed 2 fun data msg =>
    msg.set "cleared_flight_level" (real (F.round (F.mul (u16 data 0) (1 / 4)) 2))

/-- I032/490. -/
def item032_490 : Reader Track Unit :=
  .fixed 2 fun data msg =>
    (msg.set "control_centre" (num (octetAt data 0).toNat)).set "control_position"
      (num (octetAt data 1).toNat)

/-- I032/435. -/
def item032_435 : Reader Track Unit :=
  .fixed 1 fun data msg =>
    let code := (octetAt data 0).toNat
    msg.set "wake_turbulence_cat" (.str (nameOf
      [(76, "light"), (77, "medium"), (72, "heavy"), (74, "super")] ("code_" ++ toString code) code))

/-- I032/460. -/
def item032_460 : Reader Track Unit :=
  .counted false 2 fun group msg =>
    appendTo "allocated_ssr_codes" (octal 4 (u16 group 0 &&& 0x0FFF)) msg

/-- The branches of `_cat32_decode_cat032`, by FRN. -/
def items032 : List (Reader Track Unit) :=
  [item032_010, numberItem "user_number", item001_010, item032_035, item002_030 F,
    numberItem "track_num", item032_050, item032_060, textItem 7 "callsign",
    numberItem "plan_number", item032_420, textItem 4 "departure_airport",
    textItem 4 "destination_airport", item032_480 F, item032_490, textItem 4 "aircraft_type",
    item032_435, item032_460, item032_500, pure (), .skipExplicit]

/-- `_cat32_decode_cat032`. -/
def decodeCat032 (data : List UInt8) : Option Track :=
  decodeMessage (.compound .fspec (items032 F)) data

end Efdi.Asterix

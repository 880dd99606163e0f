import Efdi.Asterix.Monoradar
import Efdi.Base.Batch

/-!
# CAT-034

`_cat34_decode_cat034` and its handler.  The handler keeps, for each radar, its site, its range,
its last position and the status that two threads of it publish again.  What it does with a
message is a list of effects; the next state is made of them.
-/

namespace Efdi.Asterix

open Reading Tracks

variable (F : FloatMath)

/-! ## The decoder -/

/-- I034/000. -/
def item034_000 : Reader Track Unit :=
  .fixed 1 fun data msg =>
    let code := (octetAt data 0).toNat
    msg.set "msg_type"
      (match code with
        | 1 => .str "north_marker"
        | 2 => .str "sector_crossing"
        | 3 => .str "geo_filter"
        | 4 => .str "jamming_strobe"
        | _ => num code)

/-- I034/020. -/
def item034_020 : Reader Track Unit :=
  .fixed 1 fun data msg =>
    msg.set "sector_deg" (real (F.round (F.div ((octetAt data 0).toNat * 360) 256) 2))

/-- I034/041. -/
def item034_041 : Reader Track Unit :=
  .fixed 2 fun data msg => msg.set "rotation_s" (real (F.round (F.div (u16 data 0) 128) 2))

/-- I034/050 COM. -/
def com034_050 : Reader Track Unit :=
  .fixed 1 fun data out =>
    let com := octetAt data 0
    let out := (out.set "sys_nogo" (flag (bits com 0x80))).set "rdp_chain_2" (flag (bits com 0x40))
    let out := (out.set "rdp_restart" (flag (bits com 0x20))).set "sys_ovl_rdp"
      (flag (bits com 0x10))
    let out := (out.set "sys_ovl_xmt" (flag (bits com 0x08))).set "sys_msc_connected"
      (flag (!bits com 0x04))
    out.set "sys_tsv_invalid" (flag (bits com 0x02))

/-- I034/050 PSR, SSR and MDS. -/
def sensor034_050 (key : String) (size : Nat) : Reader Track Unit :=
  .fixed size fun data out =>
    let first := octetAt data 0
    let out := out.set (key ++ "_antenna") (num (if bits first 0x80 then 2 else 1))
    let out := out.set (key ++ "_channel")
      (.str (["none", "a", "b", "diversity"].getD (field first 5 0x03) ""))
    let out :=
      if size = 2 then
        let out := out.set "mds_scf_channel" (num (if bits first 0x04 then 2 else 1))
        let out := out.set "mds_dlf_channel" (num (if bits first 0x02 then 2 else 1))
        (out.set "mds_scf_overload" (flag (bits first 0x01))).set "mds_dlf_overload"
          (flag (bits (octetAt data 1) 0x80))
      else out
    let out := out.set (key ++ "_status")
      (.str (if bits first 0x10 then "overload" else "operational"))
    (out.set (key ++ "_overload") (flag (bits first 0x10))).set (key ++ "_msc_connected")
      (flag (!bits first 0x08))

/-- I034/050. -/
def item034_050 : Reader Track Unit :=
  .nested PyDict.empty (.compound .fspec [com034_050, pure (), pure (), sensor034_050 "psr" 1,
    sensor034_050 "ssr" 1, sensor034_050 "mds" 2]) updateWith

/-- I034/060. -/
def item034_060 : Reader Track Unit :=
  .nested PyDict.empty (.compound .fspec
    [.fixed 1 fun data out =>
        let com := octetAt data 0
        (out.set "rdp_reduction_level" (num (field com 4 0x07))).set "xmt_reduction_level"
          (num (field com 1 0x07)),
      pure (), pure (),
      .fixed 1 fun data out =>
        let b := octetAt data 0
        let out := out.set "psr_polarization" (.str (if bits b 0x80 then "circular" else "linear"))
        (out.set "psr_reduction_level" (num (field b 4 0x07))).set "psr_stc_map"
          (num (field b 2 0x03)),
      .fixed 1 fun data out =>
        out.set "ssr_reduction_level" (num (field (octetAt data 0) 5 0x07)),
      .fixed 1 fun data out =>
        let b := octetAt data 0
        setIf (bits b 0x10) "mds_cluster_state" (flag true)
          (out.set "mds_reduction_level" (num (field b 5 0x07)))]) updateWith

/-- `_COUNT_LABELS`. -/
def countLabels : List (Nat × String) :=
  [(0, "no_detection"), (1, "psr"), (2, "ssr"), (3, "psr_ssr"), (4, "all"), (5, "no_det_psr"),
    (6, "no_det_ssr"), (7, "mode5"), (11, "mil_id")]

/-- I034/070. -/
def item034_070 : Reader Track Unit :=
  .apart PyDict.empty
    (.counted false 2 fun group counts =>
      let word := u16 group 0
      let label := (word >>> 11) &&& 0x1F
      counts.set (nameOf countLabels ("type" ++ toString label) label) (num (word &&& 0x7FF)))
    fun counts msg => setIf (!counts.entries.isEmpty) "msg_counts" (.dict counts.entries) msg

/-- I034/100. -/
def item034_100 : Reader Track Unit :=
  .fixed 8 fun data msg =>
    let rho (i : Nat) : PyJson := real (F.round (F.div (u16 data i) 256) 3)
    let azimuth (i : Nat) : PyJson := real (F.round (F.div (u16 data i * 360) 65536) 2)
    (((msg.set "coverage_rho_start_nm" (rho 0)).set "coverage_rho_end_nm" (rho 2)).set
      "coverage_az_start_deg" (azimuth 4)).set "coverage_az_end_deg" (azimuth 6)

/-- I034/110. -/
def item034_110 : Reader Track Unit :=
  .fixed 1 fun data msg =>
    let code := (octetAt data 0).toNat
    msg.set "data_filter" (.str (["invalid", "weather", "jamming", "psr", "ssr_mode_s", "combined",
      "enhanced_surveillance", "psr_enhanced", "psr_enhanced_ssr_not_aoi", "all"].getD code
        ("type_" ++ toString code)))

/-- I034/120. -/
def item034_120 : Reader Track Unit :=
  .fixed 8 fun data msg =>
    let scale := F.div 180 (2 ^ 23)
    let msg := msg.set "site_alt_m" (.int (s16 data 0))
    (msg.set "site_lat" (real (F.round (F.mul (s24 data 2) scale) 7))).set "site_lon"
      (real (F.round (F.mul (s24 data 5) scale) 7))

/-- I034/090. -/
def item034_090 : Reader Track Unit :=
  .fixed 2 fun data msg =>
    (msg.set "collimation_rng_nm" (real (F.round (F.div (s8 (octetAt data 0)) 128) 4))).set
      "collimation_az_deg" (real (F.round (F.div (F.mul (s8 (octetAt data 1)) 360) 16384) 4))

/-- The branches of `_cat34_decode_cat034`, by FRN. -/
def items034 : List (Reader Track Unit) :=
  [item001_010, item034_000, item002_030 F, item034_020 F, item034_041 F, item034_050, item034_060,
    item034_070, item034_100 F, item034_110, item034_120 F, item034_090 F, .skipExplicit,
    .skipExplicit]

/-- `_cat34_decode_cat034`. -/
def decodeCat034 (data : List UInt8) : Option Track :=
  decodeMessage (.compound .fspec (items034 F)) data

/-! ## The handler -/

/-- What the handler is made with. -/
structure RadarConfig where
  topicRoot : String
  /-- `pub_sensor` is there. -/
  publishes : Bool
  defaultSite : Option (Rat × Rat)
  radarName : String
  configuredRangeM : Rat
  passive : Bool
  /-- `_civil_radars()`. -/
  civilRadars : List String

/-- An entry of `_sweep`. -/
structure Sweep where
  northTs : Rat
  rotationS : Rat
  status : Track

/-- What the handler keeps, by radar. -/
structure RadarState where
  sites : PyDict String (Rat × Rat)
  missingSites : List String
  firstSeen : PyDict String Rat
  sweep : PyDict String Sweep
  sweepActive : List String
  keepalive : PyDict String Track
  keepaliveActive : List String
  posHist : PyDict String (Rat × Rat × Rat)
  ranges : PyDict String (Int × String)

/-- What the handler does. -/
inductive RadarEffect where
  | site (key : String) (position : Rat × Rat)
  /-- The site is asked for on the console. -/
  | missing (key : String)
  | range (key : String) (rangeM : Int) (source : String)
  | firstSeen (key : String) (now : Rat)
  | position (key : String) (now lat lon : Rat)
  | sweep (key : String) (entry : Sweep)
  | keepalive (key : String) (status : Track)
  | publish (topic : String) (status : Track)
  | startSweep (key : String)
  | startKeepalive (key : String)
  /-- The virtual time of north is moved. -/
  | north (key : String) (northTs : Rat)

def RadarState.apply (s : RadarState) : RadarEffect → RadarState
  | .site key position =>
    { s with sites := s.sites.set key position
             missingSites := s.missingSites.filter (· != key) }
  | .missing key => { s with missingSites := key :: s.missingSites }
  | .range key rangeM source => { s with ranges := s.ranges.set key (rangeM, source) }
  | .firstSeen key now => { s with firstSeen := s.firstSeen.setDefault key now }
  | .position key now lat lon => { s with posHist := s.posHist.set key (now, lat, lon) }
  | .sweep key entry =>
    { s with sweep := s.sweep.set key entry, sweepActive := key :: s.sweepActive }
  | .keepalive key status =>
    { s with keepalive := s.keepalive.set key status
             keepaliveActive := key :: s.keepaliveActive }
  | .publish _ _ => s
  | .startSweep _ => s
  | .startKeepalive _ => s
  | .north key northTs =>
    match s.sweep.get? key with
    | some entry => { s with sweep := s.sweep.set key { entry with northTs := northTs } }
    | none => s

/-- `float(value)` of a number. -/
def floatOf : PyJson → Option Rat
  | .float (.finite x) => some x
  | .int n => some n
  | _ => none

/-- `"{}-{}".format(sac, sic)`. -/
def radarKey (msg : Track) : String :=
  toString (numberOr0 msg "sac") ++ "-" ++ toString (numberOr0 msg "sic")

/-- The site of I034/120. -/
def siteOf (msg : Track) : Option (Rat × Rat) :=
  match (msg.get? "site_lat").bind floatOf, (msg.get? "site_lon").bind floatOf with
  | some lat, some lon => some (lat, lon)
  | _, _ => none

variable (cfg : RadarConfig)

/-- `active_site`. -/
def activeSite (s : RadarState) (msg : Track) : Option (Rat × Rat) :=
  match siteOf msg with
  | some position => some position
  | none =>
    match s.sites.get? (radarKey msg) with
    | some position => some position
    | none => cfg.defaultSite

/-- `_coverage_range_m`. -/
def coverageRange (msg : Track) : Option (Int × String) :=
  let advertisedNm := ((msg.get? "coverage_rho_end_nm").bind floatOf).getD 0
  if advertisedNm > 0 then some ((F.round (F.mul advertisedNm 1852) 0).floor, "advertised")
  else if cfg.configuredRangeM > 0 then some ((F.round cfg.configuredRangeM 0).floor, "configured")
  else none

/-- `_radar_site_affil`. -/
def radarSiteAffil (source : String) : String :=
  if cfg.civilRadars.contains source then "neutral" else "friendly"

/-- `_TOPIC_SENSOR` for a status. -/
def topic034 (status : Track) : String :=
  cfg.topicRoot ++ "/land/" ++ asterixSource status ++ "/radar/" ++
    radarSiteAffil cfg (asterixSource status) ++ "/radar"

/-- Speed and course of a mobile platform, from its last two positions. -/
def motion (s : RadarState) (key : String) (now lat lon : Rat) : Option Rat × Option Rat :=
  match s.posHist.get? key with
  | none => (none, none)
  | some (ts, lat', lon') =>
    let dt := F.sub now ts
    if 0 < dt ∧ dt < 3600 then
      let dlat := F.mul (F.sub lat lat') 111320
      let dlon := F.mul (F.mul (F.sub lon lon') 111320) (F.cosDegrees lat)
      let dist := F.hypot dlat dlon
      (some (F.round (F.div dist dt) 2),
        if dist > 1 then some (F.round (F.mod360 (F.add (F.bearing dlon dlat) 360)) 1) else none)
    else (none, none)

/-- `status[key] = value` where there is one. -/
def setSome (key : String) (value : Option PyJson) (status : Track) : Track :=
  match value with
  | some v => status.set key v
  | none => status

/-- The full status of a radar. -/
def radarStatus (s : RadarState) (now : Rat) (site : Rat × Rat) (msg : Track) : Track :=
  let key := radarKey msg
  let sac := toString (numberOr0 msg "sac")
  let sic := toString (numberOr0 msg "sic")
  let range := (coverageRange F cfg msg).or (s.ranges.get? key)
  let moved := motion F s key now site.1 site.2
  let status := (PyDict.empty.set "_src" (.str "ASTERIX CAT-34 Ed.1.29")).set "_ts" (real now)
  let status := (status.set "sensor_type" (.str "radar")).set "sensor_id"
    (.str ("CAT34-" ++ sac ++ "-" ++ sic))
  let status := status.set "sensor_name"
    (.str (if cfg.radarName = "" then "RADAR SAC" ++ sac ++ "/SIC" ++ sic else cfg.radarName))
  let status := (status.set "lat_deg" (real site.1)).set "lon_deg" (real site.2)
  let status := status.set "online_since" (real ((s.firstSeen.get? key).getD now))
  let status := setIf cfg.passive "passive" (flag true) status
  let status := setSome "radar_range_m" (range.map fun found => .int found.1) status
  let status := setSome "radar_range_source" (range.map fun found => .str found.2) status
  let status := setSome "speed_ms" (moved.1.map real) status
  let status := setSome "heading_deg" (moved.2.map real) status
  msg.entries.foldl (fun status entry =>
    status.set (if entry.1 = "tod_s" then "radar_clock_s" else entry.1) entry.2) status

/-- `rot or existing.get("rotation_s", 4.0)`. -/
def rotationOf (s : RadarState) (msg : Track) : Rat :=
  match (msg.get? "rotation_s").bind floatOf with
  | some rotation =>
    if rotation = 0 then ((s.sweep.get? (radarKey msg)).map Sweep.rotationS).getD 4 else rotation
  | none => ((s.sweep.get? (radarKey msg)).map Sweep.rotationS).getD 4

/-- What a north marker does. -/
def northEffects (s : RadarState) (now : Rat) (site : Rat × Rat) (msg : Track) : List RadarEffect :=
  let key := radarKey msg
  let status := radarStatus F cfg s now site msg
  [.firstSeen key now, .position key now site.1 site.2,
    .sweep key ⟨now, rotationOf s msg, status⟩, .keepalive key status,
    .publish (topic034 cfg status) status] ++
  (if s.sweepActive.contains key then [] else [.startSweep key]) ++
  (if s.keepaliveActive.contains key then [] else [.startKeepalive key])

/-- What a sector crossing does. -/
def sectorEffects (s : RadarState) (now : Rat) (msg : Track) : List RadarEffect :=
  match s.sweep.get? (radarKey msg) with
  | none => []
  | some entry =>
    if entry.rotationS = 0 then []
    else
      let sectorDeg := ((msg.get? "sector_deg").bind floatOf).getD 0
      [.north (radarKey msg) (F.sub now (F.mul (F.div sectorDeg 360) entry.rotationS))]

/-- What the handler does with a decoded message. -/
def radarEffects (s : RadarState) (now : Rat) (msg : Track) :
    List RadarEffect :=
  let key := radarKey msg
  ((siteOf msg).toList.map fun position => .site key position) ++
  match activeSite cfg s msg with
  | none => if s.missingSites.contains key then [] else [.missing key]
  | some site =>
    ((coverageRange F cfg msg).toList.map fun range => .range key range.1 range.2) ++
    if msg.get? "msg_type" = some (.str "north_marker") then northEffects F cfg s now site msg
    else if msg.get? "msg_type" = some (.str "sector_crossing") then sectorEffects F s now msg
    else []

/-- The handler of CAT-034. -/
def handler034 : Batch.Handler RadarState RadarEffect Rat UInt8 where
  effects clock s data :=
    match decodeCat034 F data with
    | none => []
    | some msg => if cfg.publishes then radarEffects F cfg s (clock 0) msg else []
  apply := RadarState.apply

/-- A message with which the handler has nothing to do: it names no site, its radar has been asked
for one or has one, and then it names no range, and is neither a north marker nor a sector
crossing of a radar that turns. -/
structure Quiet034 (cfg : RadarConfig) (s : RadarState) (msg : Track) : Prop where
  site : siteOf msg = none
  missing : activeSite cfg s msg = none → radarKey msg ∈ s.missingSites
  range : activeSite cfg s msg ≠ none → coverageRange F cfg msg = none
  north : activeSite cfg s msg ≠ none → msg.get? "msg_type" ≠ some (.str "north_marker")
  sector : activeSite cfg s msg ≠ none → msg.get? "msg_type" = some (.str "sector_crossing") →
    ∀ entry, s.sweep.get? (radarKey msg) = some entry → entry.rotationS = 0

variable {F}

theorem map_toList_eq_nil {α β : Type} {o : Option α} {f : α → β} :
    o.toList.map f = [] ↔ o = none := by
  cases o <;> simp

theorem sectorEffects_eq_nil_iff {s : RadarState} {now : Rat} {msg : Track} :
    sectorEffects F s now msg = [] ↔
      ∀ entry, s.sweep.get? (radarKey msg) = some entry → entry.rotationS = 0 := by
  rw [sectorEffects]
  cases hsweep : s.sweep.get? (radarKey msg) with
  | none => exact ⟨fun _ => nofun, fun _ => rfl⟩
  | some entry =>
    dsimp only
    split
    next hzero =>
      refine ⟨fun _ other hother => ?_, fun _ => rfl⟩
      rw [← Option.some.inj hother]
      exact hzero
    next hne => exact ⟨fun h => absurd h (by simp), fun h => absurd (h entry rfl) hne⟩

theorem radarEffects_eq_nil_iff {cfg : RadarConfig} {s : RadarState} {now : Rat} {msg : Track} :
    radarEffects F cfg s now msg = [] ↔ Quiet034 F cfg s msg := by
  rw [radarEffects, List.append_eq_nil_iff, map_toList_eq_nil]
  cases hactive : activeSite cfg s msg with
  | none =>
    dsimp only
    constructor
    · rintro ⟨hsite, hrest⟩
      have hmissing : radarKey msg ∈ s.missingSites := by
        split at hrest
        next hcontains => exact List.contains_iff_mem.mp hcontains
        next => cases hrest
      exact ⟨hsite, fun _ => hmissing, fun h => absurd hactive h, fun h => absurd hactive h,
        fun h => absurd hactive h⟩
    · intro h
      exact ⟨h.site, if_pos (List.contains_iff_mem.mpr (h.missing hactive))⟩
  | some site =>
    have hne : activeSite cfg s msg ≠ none := by
      rw [hactive]
      exact Option.some_ne_none site
    dsimp only
    rw [List.append_eq_nil_iff, map_toList_eq_nil]
    constructor
    · rintro ⟨hsite, hrange, hrest⟩
      split at hrest
      next => cases hrest
      next hnorth =>
        refine ⟨hsite, fun h => absurd h hne, fun _ => hrange, fun _ => hnorth,
          fun _ hsector => ?_⟩
        rw [if_pos hsector] at hrest
        exact sectorEffects_eq_nil_iff.mp hrest
    · intro h
      refine ⟨h.site, h.range hne, ?_⟩
      rw [if_neg (h.north hne)]
      split
      next hsector => exact sectorEffects_eq_nil_iff.mpr (h.sector hne hsector)
      next => rfl

end Efdi.Asterix

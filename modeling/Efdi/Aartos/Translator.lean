import Efdi.Base.Runs
import Efdi.Tracks.ObjectKeys

/-!
# The AARTOS translator

A sample of an AARTOS host lists its antennas and the drones that it tracks.  `on_sample` puts a
site for every antenna and a track for every tracking, and a tombstone for what is gone.  The
ids that AARTOS gives to antennas and drones change from sample to sample, so the translator has
its own.  For each host it knows the sites by their position, and one drone of each kind.

A tracking moves through three functions: `admitted` says whether it is mapped onto a track,
`touch` gives it the identity of its kind, and `follow` puts the track unless it is on top of an
antenna.  When all are done, `bury` takes away the kinds that were absent for too long.
-/

namespace Efdi.Aartos

open Tracks (PyText pyStr semanticTopic stripVersion versionTail)

/-! ## Samples -/

/-- `_entity_kind`. -/
inductive EntityKind where
  | uav
  | unit
deriving DecidableEq, Repr

/-- One entry of `trackings`. -/
structure Tracking where
  trackID : PyJson
  /-- `none` when the sample does not say. -/
  trackValid : Option PyJson
  positionValid : PyJson
  latitude : Option ℚ
  longitude : Option ℚ
  elevation : Option ℚ
  velocityValid : PyJson
  xvelocity : Option ℚ
  yvelocity : Option ℚ
  droneName : PyJson
  categoryName : PyJson
  alertLevel : PyJson
  probability : PyJson
  zoneIDs : PyJson

/-- One entry of `antennas`. -/
structure Antenna where
  antennaID : PyJson
  antennaName : PyJson
  latitude : Option ℚ
  longitude : Option ℚ
  elevation : Option ℚ

/-- What `on_sample` reads of a payload. -/
structure Payload where
  startTime : Option ℚ
  trackings : List Tracking
  antennas : List Antenna

/-- A sample as it arrives. -/
structure Sample where
  keyExpr : String
  /-- `none` when the payload is not a JSON text. -/
  payload : Option Payload
  /-- The clock when the sample arrives. -/
  now : ℚ
  /-- The clock when the tombstone of a kind is put. -/
  goneAt : EntityKind → ℚ

/-- What the translator has from its surroundings. -/
structure Host where
  py : PyText
  /-- `TOPIC_ROOT`. -/
  topicRoot : String
  /-- `round(value, digits)`. -/
  round : ℚ → ℕ → ℚ
  /-- `_distance_m`. -/
  distanceM : ℚ × ℚ → ℚ × ℚ → ℚ
  /-- `math.hypot`. -/
  hypot : ℚ → ℚ → ℚ
  /-- `math.degrees(math.atan2(east, north)) % 360.0`. -/
  heading : ℚ → ℚ → ℚ

variable (H : Host)

/-- The name that the tables use for the sender of a sample. -/
def hostOf (sample : Sample) : String :=
  let rawPrefix := H.topicRoot ++ "/raw/aartos/"
  if PyStr.startsWith sample.keyExpr rawPrefix then
    PyStr.drop (PyStr.len rawPrefix) sample.keyExpr
  else "unknown"

/-- `payload.get("startTime") or time.time()`. -/
def refTs (payload : Payload) (now : ℚ) : ℚ :=
  match payload.startTime with
  | some time => if time = 0 then now else time
  | none => now

/-! ## Tracks -/

/-- `value or default`. -/
def orElse (value default : PyJson) : PyJson := if value.truthy then value else default

/-- `_OPERATOR_CATEGORIES`. -/
def operatorCategories : List String := ["wlan", "remote", "poa"]

def isOperatorTrack (tracking : Tracking) : Bool :=
  operatorCategories.contains
    (H.py.lower (PyStr.strip (pyStr H.py (orElse tracking.categoryName (.str "")))))

def entityKind (tracking : Tracking) : EntityKind :=
  if isOperatorTrack H tracking then .unit else .uav

/-- `_AFFILIATION`. -/
def affiliations : List (String × String) :=
  [("friendly", "friendly"), ("warning", "unknown"), ("defend", "hostile"), ("panic", "hostile"),
    ("unknown", "unknown"), ("info", "unknown"), ("ignore", "unknown")]

/-- The track of a drone. -/
structure Track where
  ts : ℚ
  uid : String
  latDeg : ℚ
  lonDeg : ℚ
  callsign : PyJson
  entityKind : EntityKind
  aartosCategory : PyJson
  aartosAlertLevel : String
  aartosProbability : PyJson
  aartosZoneIds : PyJson
  geoAltM : Option ℚ
  /-- `speed_ms` and `heading_deg`. -/
  velocity : Option (ℚ × ℚ)

/-- `_velocity`. -/
def velocity (tracking : Tracking) : Option (ℚ × ℚ) :=
  if tracking.velocityValid.truthy then
    match tracking.xvelocity, tracking.yvelocity with
    | some east, some north => some (H.round (H.hypot east north) 3, H.round (H.heading east north) 2)
    | _, _ => none
  else none

/-- A position in its ranges. -/
def position? (latitude longitude : Option ℚ) : Option (ℚ × ℚ) :=
  match latitude, longitude with
  | some lat, some lon =>
    if (-90 ≤ lat ∧ lat ≤ 90) ∧ (-180 ≤ lon ∧ lon ≤ 180) then some (lat, lon) else none
  | _, _ => none

/-- `tracking_to_track`. -/
def trackingToTrack (tracking : Tracking) (refTs : ℚ) : Option Track :=
  if tracking.positionValid.truthy then
    (position? tracking.latitude tracking.longitude).map fun position =>
      { ts := refTs
        uid := "aartos-" ++ pyStr H.py tracking.trackID
        latDeg := H.round position.1 7
        lonDeg := H.round position.2 7
        callsign := orElse tracking.droneName (orElse tracking.categoryName
          (.str ("AARTOS-" ++ pyStr H.py tracking.trackID)))
        entityKind := entityKind H tracking
        aartosCategory := tracking.categoryName
        aartosAlertLevel := H.py.lower (pyStr H.py (orElse tracking.alertLevel (.str "unknown")))
        aartosProbability := tracking.probability
        aartosZoneIds := orElse tracking.zoneIDs .null
        geoAltM := tracking.elevation.map fun elevation => H.round elevation 2
        velocity := velocity H tracking }
  else none

/-- A topic of the domain of a kind. -/
def domainTopic (kind : EntityKind) (affiliation : String) : String :=
  match kind with
  | .unit => H.topicRoot ++ "/land/aartos/passive_rf/" ++ affiliation ++ "/unit"
  | .uav => H.topicRoot ++ "/air/aartos/passive_rf/" ++ affiliation ++ "/uav"

/-- `topic_for_track`. -/
def topicForTrack (track : Track) : String :=
  domainTopic H track.entityKind ((affiliations.lookup track.aartosAlertLevel).getD "unknown")

/-! ## Sites -/

/-- `_key_segment`. -/
def keySegment (value : String) : String :=
  let segment := String.ofList (value.toList.map fun c =>
    if H.py.isAlnum c || "._-".toList.contains c then c else '_')
  if segment.isEmpty then "_" else segment

/-- `_site_key`. -/
def siteKey (antennaID : PyJson) : String := "aartos-" ++ keySegment H (pyStr H.py antennaID)

/-- The site of an antenna. -/
structure Site where
  ts : ℚ
  /-- `sensor_id` and `uid`. -/
  uid : String
  sensorName : PyJson
  latDeg : ℚ
  lonDeg : ℚ
  geoAltM : Option ℚ

/-- `antenna_to_site`. -/
def antennaToSite (antenna : Antenna) (refTs : ℚ) : Option Site :=
  match position? antenna.latitude antenna.longitude with
  | none => none
  | some position =>
    if antenna.antennaID = .null then none
    else some
      { ts := refTs
        uid := siteKey H antenna.antennaID
        sensorName := orElse antenna.antennaName (.str "AARTOS")
        latDeg := H.round position.1 7
        lonDeg := H.round position.2 7
        geoAltM := antenna.elevation.map fun elevation => H.round elevation 2 }

/-- `add_version`. -/
def addVersion (topic : String) : String :=
  if stripVersion H.py.toUnicode topic ≠ topic then topic else topic ++ "/" ++ versionTail

/-- `site_topic`. -/
def siteTopic (site : Site) : String :=
  addVersion H (semanticTopic H.py
    (H.topicRoot ++ "/land/" ++ site.uid ++ "/radar/friendly/radar")
    (PyDict.empty.set "uid" (.str site.uid)))

/-- An entry of `_site_identity`. -/
structure SiteIdentity where
  uid : String
  position : ℚ × ℚ

/-- `_SITE_IDENTITY_RADIUS_M`. -/
def siteIdentityRadiusM : ℚ := 15

/-- `_stable_site_uid`, with the entries of the host after it. -/
def stableSiteUid (host : String) (antennaID : PyJson) (position : ℚ × ℚ) :
    List SiteIdentity → String × List SiteIdentity
  | [] =>
    let uid := "aartos-" ++ keySegment H host ++ "-" ++ keySegment H (pyStr H.py antennaID)
    (uid, [⟨uid, position⟩])
  | ident :: identities =>
    if H.distanceM position ident.position < siteIdentityRadiusM then
      (ident.uid, { ident with position := position } :: identities)
    else
      let (uid, rest) := stableSiteUid host antennaID position identities
      (uid, ident :: rest)

/-! ## The tables -/

/-- An entry of `_class_identity`. -/
structure Identity where
  trackId : String
  uid : String
  lastSeen : ℚ
deriving DecidableEq

/-- What a host has in `_class_identity`, `_site_identity` and `_last_topic`. -/
structure Tables where
  classIdentity : PyDict EntityKind Identity
  siteIdentity : List SiteIdentity
  lastTopic : PyDict EntityKind String

def Tables.empty : Tables := ⟨PyDict.empty, [], PyDict.empty⟩

/-- A track that was published, with the tracking that it is made from. -/
structure Publication where
  tracking : Tracking
  topic : String
  track : Track

/-- What the translator puts. -/
inductive Put where
  | site (topic : String) (site : Site)
  | track (publication : Publication)
  | tombstone (topic uid : String) (ts : ℚ)

/-- The publication of a put that has one. -/
def Put.publication? : Put → Option Publication
  | .site _ _ => none
  | .track publication => some publication
  | .tombstone _ _ _ => none

/-- The antennas of a sample: the sites of the host, the positions and what is put. -/
structure Survey where
  siteIdentity : List SiteIdentity
  positions : List (ℚ × ℚ)
  puts : List Put

def survey (host : String) (refTs : ℚ) (state : Survey) (antenna : Antenna) : Survey :=
  match antennaToSite H antenna refTs with
  | none => state
  | some site =>
    let position := (site.latDeg, site.lonDeg)
    let (uid, siteIdentity) :=
      stableSiteUid H host antenna.antennaID position state.siteIdentity
    let site := { site with uid := uid }
    { siteIdentity := siteIdentity
      positions := state.positions ++ [position]
      puts := state.puts ++ [.site (siteTopic H site) site] }

/-! ## One sample -/

/-- A pass over the trackings of a sample. -/
structure Pass where
  classIdentity : PyDict EntityKind Identity
  lastTopic : PyDict EntityKind String
  nowClasses : List EntityKind
  published : List Publication

/-- The uid of an identity that a tracking with this id begins. -/
def newUid (host tid : String) : String := "aartos-" ++ host ++ "-" ++ tid

/-- The identity of a kind after a tracking of it. -/
def touch (host tid : String) (refTs : ℚ) (ident : Option Identity) : Identity :=
  match ident with
  | some ident => { ident with trackId := tid, lastSeen := refTs }
  | none => ⟨tid, newUid host tid, refTs⟩

/-- The track of a tracking that has an id and is valid. -/
def admitted (refTs : ℚ) (tracking : Tracking) : Option Track :=
  if tracking.trackID = .null then none
  else if (tracking.trackValid.getD (.bool true)).truthy then trackingToTrack H tracking refTs
  else none

/-- `_ANTENNA_FALLBACK_RADIUS_M`. -/
def antennaFallbackRadiusM : ℚ := 40

/-- A track on top of an antenna of the sample. -/
def fallback (positions : List (ℚ × ℚ)) (track : Track) : Bool :=
  positions.any fun position =>
    decide (H.distanceM (track.latDeg, track.lonDeg) position < antennaFallbackRadiusM)

/-- One round of the loop over the trackings. -/
def follow (host : String) (refTs : ℚ) (positions : List (ℚ × ℚ)) (pass : Pass)
    (tracking : Tracking) : Pass :=
  match admitted H refTs tracking with
  | none => pass
  | some track =>
    let kind := track.entityKind
    let ident := touch host (pyStr H.py tracking.trackID) refTs (pass.classIdentity.get? kind)
    let pass := { pass with
      classIdentity := pass.classIdentity.set kind ident
      nowClasses := kind :: pass.nowClasses }
    if fallback H positions track then pass
    else
      let topic := topicForTrack H track
      { pass with
        lastTopic := pass.lastTopic.set kind topic
        published := pass.published ++ [⟨tracking, topic, { track with uid := ident.uid }⟩] }

/-- `_CLASS_GONE_GRACE_S`. -/
def classGoneGraceS : ℚ := 5

/-- The identities that are left, and the tombstones of the others. -/
structure Burial where
  classIdentity : PyDict EntityKind Identity
  lastTopic : PyDict EntityKind String
  tombstones : List Put

/-- One round of the loop over the kinds of the host. -/
def bury (refTs : ℚ) (nowClasses : List EntityKind) (goneAt : EntityKind → ℚ) (state : Burial)
    (kind : EntityKind) : Burial :=
  if kind ∈ nowClasses then state
  else
    match state.classIdentity.get? kind with
    | none => state
    | some ident =>
      if refTs - ident.lastSeen < classGoneGraceS then state
      else
        { classIdentity := state.classIdentity.pop kind
          lastTopic := state.lastTopic.pop kind
          tombstones := state.tombstones ++
            [.tombstone ((state.lastTopic.get? kind).getD (domainTopic H kind "unknown"))
              ident.uid (goneAt kind)] }

/-- The pass over the trackings of a payload. -/
def passOver (host : String) (refTs : ℚ) (positions : List (ℚ × ℚ)) (tables : Tables)
    (trackings : List Tracking) : Pass :=
  trackings.foldl (follow H host refTs positions)
    ⟨tables.classIdentity, tables.lastTopic, [], []⟩

/-- The antennas of a payload. -/
def surveyAll (host : String) (refTs : ℚ) (tables : Tables) (payload : Payload) : Survey :=
  payload.antennas.foldl (survey H host refTs) ⟨tables.siteIdentity, [], []⟩

/-- A sample of a host: its tables after it, and what is put. -/
def handle (host : String) (tables : Tables) (payload : Payload) (now : ℚ)
    (goneAt : EntityKind → ℚ) : Tables × List Put :=
  let refTs := refTs payload now
  let sites := surveyAll H host refTs tables payload
  let pass := passOver H host refTs sites.positions tables payload.trackings
  let burial := (pass.classIdentity.entries.map Prod.fst).foldl (bury H refTs pass.nowClasses goneAt)
    ⟨pass.classIdentity, pass.lastTopic, []⟩
  (⟨burial.classIdentity, sites.siteIdentity, burial.lastTopic⟩,
    sites.puts ++ pass.published.map .track ++ burial.tombstones)

/-- The tables of all hosts. -/
abbrev Translator := PyDict String Tables

/-- The tables of a host. -/
def Translator.tables (translator : Translator) (host : String) : Tables :=
  (translator.get? host).getD .empty

/-- `on_sample`. -/
def onSample (translator : Translator) (sample : Sample) : Translator × List Put :=
  match sample.payload with
  | none => (translator, [])
  | some payload =>
    let host := hostOf H sample
    let (tables, puts) := handle H host (translator.tables host) payload sample.now sample.goneAt
    (translator.set host tables, puts)

/-- The tables after a sample. -/
def step (translator : Translator) (sample : Sample) : Translator :=
  (onSample H translator sample).1

/-- The tracks that a sample publishes. -/
def published (translator : Translator) (sample : Sample) : List Publication :=
  (onSample H translator sample).2.filterMap Put.publication?

end Efdi.Aartos

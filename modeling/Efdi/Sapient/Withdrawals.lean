import Efdi.Base.Bounded
import Efdi.Sapient.BadFrames
import Efdi.Tracks.ObjectKeys

/-!
# Objects that SAPIENT nodes withdraw

A detection report whose state says that its object is lost becomes a track with `_delete`, which
takes the object back under the key that `semantic_topic` makes of it.

The key has the domain and the entity of the report's class, the type of its node, its class and its
uid.  A report of a lost object that leaves its classification out is of the class `unknown`: only
the position is filled in from the last report.  So the object stays where it was published unless
the two reports have one place (`withdrawals_iff`).
-/

namespace Efdi.Sapient

open Checks Tracks List

/-! ## Topics -/

section

variable (py : Python) (pt : PyText)

/-- A track as a dict, with the entries that the topics read. -/
def SapientTrack.dict (track : SapientTrack) : Track :=
  track.fields.foldl (fun dict entry => dict.set entry.1 entry.2) .empty

/-- `_modality`.  The decoder writes a list. -/
def modality (track : Track) : String :=
  match track.get? "sapient_node_types" with
  | some (.list (type :: _)) => pyStr pt type
  | _ => "unknown"

/-- `str(track.get("sapient_class") or "unknown")`. -/
def classText (track : Track) : String :=
  pyStr pt (((track.get? "sapient_class").filter PyJson.truthy).getD (.str "unknown"))

/-- One of the tokens stands in the class. -/
def named (objectClass : String) (tokens : List String) : Bool :=
  tokens.any fun token => PyStr.contains token objectClass

/-- The domain and the entity of a class. -/
def domainAndEntity (objectClass : String) : String × String :=
  if named objectClass ["drone", "uas", "uav", "quadcopter"] then ("air", "uav")
  else if named objectClass ["aircraft", "aeroplane", "airplane", "helicopter"] then
    ("air", "aircraft")
  else if named objectClass ["boat", "ship", "vessel", "watercraft"] then ("sea", "vessel")
  else if named objectClass ["person", "human", "pedestrian"] then ("land", "person")
  else if named objectClass ["car", "truck", "vehicle"] then ("land", "vehicle")
  else if named objectClass ["emitter", "rf", "signal"] then ("land", "sensor")
  else ("air", "aircraft")

/-- `topic_for_track`. -/
def topicForTrack (root : String) (track : Track) : String :=
  if track.get? "sapient_message_type" = some (.str "status_report") then
    root ++ "/land/sapient/" ++ modality pt track ++ "/neutral/sensor"
  else
    let (domain, entity) := domainAndEntity (cleanClass py (classText pt track))
    root ++ "/" ++ domain ++ "/sapient/" ++ modality pt track ++ "/unknown/" ++ entity

/-- The object key of a track, `semantic_topic(topic_for_track(root, track), track)`. -/
def objectKey (root : String) (track : SapientTrack) : String :=
  semanticTopic pt (topicForTrack py pt root track.dict) track.dict

/-! ## Reports -/

/-- The object and the track of a detection report that is read. -/
def reportOf (decoder : Decoder) (frame : Frame) : Option ((String × String) × SapientTrack) :=
  match envelope frame with
  | .error _ => none
  | .ok e =>
    if e.kind = .detectionReport then
      match fieldList e.content, (decode py decoder frame).2 with
      | .ok fields, .ok event => event.track.map fun track => ((e.nodeId, objectOf fields), track)
      | _, _ => none
    else none

/-- The reports of frames. -/
def reports (decoder : Decoder) : List Frame → List ((String × String) × SapientTrack)
  | [] => []
  | frame :: frames =>
    (reportOf py decoder frame).toList ++ reports (decode py decoder frame).1 frames

end

/-! ## Entries of a track -/

section

variable {py : Python}

/-- The keys that a list of items may set. -/
theorem keys_entries {items : List (String × Option PyJson)} {key : String}
    (h : key ∈ (entries items).map Prod.fst) : key ∈ items.map Prod.fst := by
  obtain ⟨entry, hentry, rfl⟩ := mem_map.mp h
  obtain ⟨item, hitem, hvalue⟩ := mem_filterMap.mp hentry
  obtain ⟨value, -, rfl⟩ := Option.map_eq_some_iff.mp hvalue
  exact mem_map_of_mem hitem

theorem get?_foldl_of_notMem {key : String} : ∀ {fields : List (String × PyJson)} {dict : Track},
    key ∉ fields.map Prod.fst →
      (fields.foldl (fun dict entry => dict.set entry.1 entry.2) dict).get? key = dict.get? key
  | [], _, _ => rfl
  | (other, value) :: fields, dict, h => by
    rw [map_cons, mem_cons, not_or] at h
    rw [foldl_cons, get?_foldl_of_notMem h.2, PyDict.get?_set_of_ne (d := dict) h.1]

/-- What a position says beside the place. -/
def metadataNames : List String :=
  ["sapient_location_coordinate_system", "sapient_location_datum", "altitude_reference",
    "lon_error", "lat_error", "alt_error_m", "sapient_range_m", "sapient_azimuth_deg",
    "sapient_elevation_deg", "sapient_range_bearing_datum"]

/-- What `entries` leaves of items whose names are known. -/
theorem names_entries {items : List (String × Option PyJson)} {names : List String}
    (h : ∀ name ∈ items.map Prod.fst, name ∈ names) : ∀ entry ∈ entries items, entry.1 ∈ names :=
  fun _ hentry => h _ (keys_entries (mem_map_of_mem hentry))

theorem names_decodeLocation {value : Bytes} {place : Position}
    (h : decodeLocation py value = .ok place) :
    ∀ entry ∈ place.metadata, entry.1 ∈ metadataNames := by
  rw [decodeLocation] at h
  obtain ⟨fields, -, h⟩ := bind_eq_ok.mp h
  extract_lets z coordinateSystem datum metadata rest at h
  clear_value coordinateSystem
  split at h
  case h_1 x y _ _ =>
    have hrest : ∃ spot, rest spot = .ok place := by
      split at h
      · exact ⟨(x, y), h⟩
      · exact ⟨(py.degrees x, py.degrees y), h⟩
      · cases h
      · cases h
    obtain ⟨⟨lon, lat⟩, h⟩ := hrest
    obtain ⟨-, -, h⟩ := bind_eq_ok.mp h
    obtain ⟨-, -, h⟩ := bind_eq_ok.mp h
    rw [← pure_eq_ok.mp h]
    exact names_entries (by
      simp only [map_cons, map_nil]
      exact fun name hname => mem_append_left
        ["sapient_range_m", "sapient_azimuth_deg", "sapient_elevation_deg",
          "sapient_range_bearing_datum"] hname)
  case h_2 => cases h

theorem names_decodeRangeBearing {value : Bytes} {seen : RangeBearing}
    (h : decodeRangeBearing py value = .ok seen) :
    ∀ entry ∈ seen.metadata, entry.1 ∈ metadataNames := by
  rw [decodeRangeBearing] at h
  obtain ⟨fields, -, h⟩ := bind_eq_ok.mp h
  extract_lets elevation coordinateSystem datum at h
  split at h
  case h_1 azimuth distance _ _ =>
    obtain ⟨-, -, h⟩ := bind_eq_ok.mp h
    obtain ⟨-, -, h⟩ := bind_eq_ok.mp h
    obtain ⟨-, -, h⟩ := bind_eq_ok.mp h
    rw [← pure_eq_ok.mp h]
    exact names_entries (by
      simp only [map_cons, map_nil]
      exact fun name hname => mem_append_right
        ["sapient_location_coordinate_system", "sapient_location_datum", "altitude_reference",
          "lon_error", "lat_error", "alt_error_m"] hname)
  case h_2 => cases h

theorem names_position {origin : Origin} {fields : List WireField} {place : Position}
    (h : position py origin fields = .ok place) :
    ∀ entry ∈ place.metadata, entry.1 ∈ metadataNames := by
  rw [position] at h
  split at h
  case h_1 => exact names_decodeLocation h
  case h_2 =>
    obtain ⟨seen, hseen, h⟩ := bind_eq_ok.mp h
    obtain ⟨⟨lat, lon, altitude⟩, -, h⟩ := bind_eq_ok.mp h
    rw [← pure_eq_ok.mp h]
    exact names_decodeRangeBearing hseen
  case h_3 => cases h

/-- Names of the entries of a detection track behind its first ones. -/
def laterNames : List String :=
  metadataNames ++
    ["sapient_report_id", "sapient_state", "detection_confidence", "colour", "sapient_track_info",
      "sapient_object_info", "sapient_signals", "sapient_task_id", "sapient_predicted_lat_deg",
      "sapient_predicted_lon_deg", "sapient_predicted_alt_m", "sapient_behaviour",
      "sapient_associated_files", "sapient_associated_detections", "sapient_derived_detections",
      "sapient_id"] ++ ["speed_ms", "heading_deg", "vertical_rate_ms"]

/-- The track of a report about an object, of a class and by a node of some types. -/
structure Reported (objectClass : String) (types : List String) (nodeId objectId : String)
    (track : SapientTrack) : Prop where
  objectClass : track.dict.get? "sapient_class" = some (.str objectClass)
  types : track.dict.get? "sapient_node_types" = some (.list (types.map .str))
  uid : track.dict.get? "uid" = some (.str ("sapient-" ++ nodeId ++ "-" ++ objectId))
  message : track.dict.get? "sapient_message_type" = some (.str "detection_report")
  others : ∀ key ∈ ["aircraft_type", "type", "vehicle_type", "remote_id_ua_type", "object_class",
    "ship_type", "registration", "icao24", "mmsi"], track.dict.get? key = none

/-- The first items of a detection track tell its class, its node types and its uid. -/
theorem reported_of_items {objectClass nodeId objectId : String} {callsign : PyJson}
    {classifications : List PyJson} {node : NodeState} {later : List (String × Option PyJson)}
    {ts : Moment} {lat lon : PyFloat} {altitude : Option PyFloat} {delete : Bool}
    (h : ∀ item ∈ later, item.1 ∈ laterNames) :
    Reported objectClass node.nodeTypes nodeId objectId
      { ts := ts, lat := lat, lon := lon, altitude := altitude, delete := delete
        fields := entries
          ([("_src", some (.str "SAPIENT FLEX 335")),
            ("uid", some (.str ("sapient-" ++ nodeId ++ "-" ++ objectId))),
            ("sensor_id", some (.str nodeId)),
            ("object_id", some (.str objectId)),
            ("callsign", some callsign),
            ("sapient_message_type", some (.str "detection_report")),
            ("sapient_class", some (.str objectClass)),
            ("sapient_classifications", some (.list classifications)),
            ("sapient_node_types", nodeTypesEntry node)] ++ later) } := by
  have hlater : ∀ key ∉ laterNames, key ∉ (entries later).map Prod.fst := by
    intro key hkey hmem
    obtain ⟨item, hitem, rfl⟩ := mem_map.mp (keys_entries hmem)
    exact hkey (h item hitem)
  constructor
  case others =>
    intro key hkey
    have hnotMem : ∀ key ∈ ["aircraft_type", "type", "vehicle_type", "remote_id_ua_type",
        "object_class", "ship_type", "registration", "icao24", "mmsi"], key ∉ laterNames ∧
          key ∉ ["_src", "uid", "sensor_id", "object_id", "callsign", "sapient_message_type",
            "sapient_class", "sapient_classifications", "sapient_node_types"] := by decide
    rw [SapientTrack.dict, entries, filterMap_append, foldl_append]
    refine (get?_foldl_of_notMem (hlater key (hnotMem key hkey).1)).trans ?_
    exact get?_foldl_of_notMem (hnotMem key hkey).2
  all_goals
    rw [SapientTrack.dict, entries, filterMap_append, foldl_append]
    refine (get?_foldl_of_notMem (hlater _ (by decide))).trans ?_
    simp [nodeTypesEntry, PyDict.get?_set_of_ne]

/-! ## What a detection reads -/

/-- The class of a report. -/
def reportClass (py : Python) (fields : List WireField) : Except String String :=
  (((allBytes fields 11).take 32).mapM (decodeClassification py)).map (primaryClass py)

/-- The state of the report says that its object is gone. -/
def ends (py : Python) (fields : List WireField) : Bool :=
  deleteStates.contains (cleanClass py ((text (firstBytes fields 4)).getD ""))

/-- Every submessage that a detection reads beside its position can be read. -/
structure DetectionReads (py : Python) (fields : List WireField) : Prop where
  classifications : ∀ value ∈ (allBytes fields 11).take 32,
    (decodeClassification py value).isOk = true
  trackInfo : AllReadable fields 8 64
  objectInfo : AllReadable fields 10 64
  signals : AllReadable fields 14 16
  prediction : OptionalReadable (firstBytes fields 9)
  behaviours : AllReadable fields 12 16
  files : AllReadable fields 13 16
  associated : AllReadable fields 15 32
  derived : AllReadable fields 16 32
  velocity : OptionalReadable (firstBytes fields 19)

/-- What is computed of a list of submessages exists when they can be read. -/
theorem isOk_of_submessages {α : Type} {fields : List WireField} {number limit : Nat}
    {made : List (List WireField) → α} :
    ((submessages fields number limit >>= fun items => pure (made items)) :
      Except String α).isOk = true ↔ AllReadable fields number limit := by
  rw [isOk_bind, ← submessages_isOk, isOk_iff]
  exact exists_congr fun items => and_iff_left rfl

theorem detectionTrack_eq_ok {objects : PyDict (String × String) SapientTrack} {nodeId : String}
    {node : NodeState} {sentAt : Moment} {fields : List WireField} {track : SapientTrack}
    (h : detectionTrack py objects nodeId node sentAt fields = .ok track) :
    DetectionReads py fields ∧
      track.delete = ((text (firstBytes fields 4)).isSome && ends py fields) ∧
      ∃ objectClass, reportClass py fields = .ok objectClass ∧
        Reported objectClass node.nodeTypes nodeId (objectOf fields) track := by
  unfold detectionTrack at h
  extract_lets objectId state ended displayId rest at h
  have hrest : ∃ place : Position, (∀ entry ∈ place.metadata, entry.1 ∈ metadataNames) ∧
      rest place = .ok track := by
    split at h
    next found hfound => exact ⟨found, names_position hfound, h⟩
    next =>
      split at h
      next => cases h
      next cached _ =>
        split at h
        next => exact ⟨⟨cached.lat, cached.lon, cached.altitude, []⟩, by simp, h⟩
        next => cases h
  obtain ⟨place, hnames, h⟩ := hrest
  obtain ⟨classifications, hclasses, h⟩ := bind_eq_ok.mp h
  extract_lets objectClass at h
  obtain ⟨trackInfo, htrackInfo, h⟩ := bind_eq_ok.mp h
  obtain ⟨objectInfo, hobjectInfo, h⟩ := bind_eq_ok.mp h
  obtain ⟨signals, hsignals, h⟩ := bind_eq_ok.mp h
  obtain ⟨prediction, hprediction, h⟩ := bind_eq_ok.mp h
  extract_lets ahead at h
  obtain ⟨behaviours, hbehaviours, h⟩ := bind_eq_ok.mp h
  obtain ⟨files, hfiles, h⟩ := bind_eq_ok.mp h
  obtain ⟨associated, hassociated, h⟩ := bind_eq_ok.mp h
  obtain ⟨derived, hderived, h⟩ := bind_eq_ok.mp h
  obtain ⟨velocity, hvelocity, h⟩ := bind_eq_ok.mp h
  have htrack := pure_eq_ok.mp h
  refine ⟨?_, ?_, objectClass, ?_, ?_⟩
  · constructor
    case classifications => exact isOk_mapM.mp (isOk_iff.mpr ⟨_, hclasses⟩)
    case trackInfo => exact isOk_of_submessages.mp (isOk_iff.mpr ⟨_, htrackInfo⟩)
    case objectInfo => exact isOk_of_submessages.mp (isOk_iff.mpr ⟨_, hobjectInfo⟩)
    case signals => exact isOk_of_submessages.mp (isOk_iff.mpr ⟨_, hsignals⟩)
    case prediction => exact optionalFields_isOk.mp (isOk_iff.mpr ⟨_, hprediction⟩)
    case behaviours => exact submessages_isOk.mp (isOk_iff.mpr ⟨_, hbehaviours⟩)
    case files => exact isOk_of_submessages.mp (isOk_iff.mpr ⟨_, hfiles⟩)
    case associated => exact isOk_of_submessages.mp (isOk_iff.mpr ⟨_, hassociated⟩)
    case derived => exact isOk_of_submessages.mp (isOk_iff.mpr ⟨_, hderived⟩)
    case velocity => exact optionalFields_isOk.mp (isOk_iff.mpr ⟨_, hvelocity⟩)
  · rw [← htrack]
    rfl
  · rw [reportClass, hclasses]
    rfl
  · rw [← htrack]
    refine reported_of_items (fun entry hentry => ?_)
    rcases mem_append.mp hentry with hentry | hentry
    · refine mem_append_left ["speed_ms", "heading_deg", "vertical_rate_ms"] ?_
      rcases mem_append.mp hentry with hentry | hentry
      · obtain ⟨⟨name, value⟩, hmem, rfl⟩ := mem_map.mp hentry
        exact mem_append_left _ (hnames _ hmem)
      · exact mem_append_right metadataNames (mem_map_of_mem hentry)
    · exact mem_append_right _ (mem_map_of_mem hentry)

theorem detectionTrack_isOk {objects : PyDict (String × String) SapientTrack} {nodeId : String}
    {node : NodeState} {sentAt : Moment} {fields : List WireField} {cached : SapientTrack}
    (hcached : objects.get? (nodeId, objectOf fields) = some cached) (hends : ends py fields = true)
    (hreads : DetectionReads py fields) :
    (detectionTrack py objects nodeId node sentAt fields).isOk = true := by
  unfold detectionTrack
  extract_lets objectId state ended displayId rest
  have hrest : ∀ place, (rest place).isOk = true := by
    intro place
    obtain ⟨classifications, hclasses⟩ := isOk_iff.mp (isOk_mapM.mpr hreads.classifications)
    obtain ⟨trackInfo, htrackInfo⟩ := isOk_iff.mp (isOk_of_submessages.mpr hreads.trackInfo)
    obtain ⟨objectInfo, hobjectInfo⟩ := isOk_iff.mp (isOk_of_submessages.mpr hreads.objectInfo)
    obtain ⟨signals, hsignals⟩ := isOk_iff.mp (isOk_of_submessages.mpr hreads.signals)
    obtain ⟨prediction, hprediction⟩ := isOk_iff.mp (optionalFields_isOk.mpr hreads.prediction)
    obtain ⟨behaviours, hbehaviours⟩ := isOk_iff.mp (submessages_isOk.mpr hreads.behaviours)
    obtain ⟨files, hfiles⟩ := isOk_iff.mp (isOk_of_submessages.mpr hreads.files)
    obtain ⟨associated, hassociated⟩ := isOk_iff.mp (isOk_of_submessages.mpr hreads.associated)
    obtain ⟨derived, hderived⟩ := isOk_iff.mp (isOk_of_submessages.mpr hreads.derived)
    obtain ⟨velocity, hvelocity⟩ := isOk_iff.mp (optionalFields_isOk.mpr hreads.velocity)
    exact isOk_bind.mpr ⟨_, hclasses, isOk_bind.mpr ⟨_, htrackInfo, isOk_bind.mpr ⟨_, hobjectInfo,
      isOk_bind.mpr ⟨_, hsignals, isOk_bind.mpr ⟨_, hprediction, isOk_bind.mpr ⟨_, hbehaviours,
      isOk_bind.mpr ⟨_, hfiles, isOk_bind.mpr ⟨_, hassociated, isOk_bind.mpr ⟨_, hderived,
      isOk_bind.mpr ⟨_, hvelocity, rfl⟩⟩⟩⟩⟩⟩⟩⟩⟩⟩
  cases position py node.origin fields with
  | ok place => exact hrest place
  | error raised =>
    have hended : ended = true := hends
    dsimp only
    rw [hcached]
    dsimp only
    rw [if_pos hended]
    exact hrest _

end

/-! ## Places -/

/-- What an object key has before the uid of its object and below the root. -/
structure Place where
  domain : String
  entity : String
  modality : List String
  type : String
deriving DecidableEq

/-- The segments of a text. -/
def segments (text : String) : List String := (PyStr.split '/' text).filter (· != "")

/-- Where a report of a class by a node of some types is published. -/
def placeOf (py : Python) (pt : PyText) (objectClass : String) (types : List String) : Place :=
  let told := if objectClass = "" then "unknown" else objectClass
  { domain := (domainAndEntity (cleanClass py told)).1
    entity := (domainAndEntity (cleanClass py told)).2
    modality := segments (types.headD "unknown")
    type := if (PyStr.strip objectClass).isEmpty then "unknown" else slugText pt objectClass }

/-- Where a track is published. -/
def SapientTrack.place (py : Python) (pt : PyText) (track : SapientTrack) : Place where
  domain := (domainAndEntity (cleanClass py (classText pt track.dict))).1
  entity := (domainAndEntity (cleanClass py (classText pt track.dict))).2
  modality := segments (modality pt track.dict)
  type := objectType pt track.dict

section

variable {py : Python} {pt : PyText} {root objectClass nodeId objectId : String}
  {types : List String} {track : SapientTrack}

/-- The class and the node types of a report give its place. -/
theorem Reported.place_eq (h : Reported objectClass types nodeId objectId track) :
    track.place py pt = placeOf py pt objectClass types := by
  have hclass : classText pt track.dict =
      if objectClass = "" then "unknown" else objectClass := by
    rw [classText, h.objectClass]
    by_cases hempty : objectClass = ""
    · rw [if_pos hempty, hempty]
      rfl
    · rw [if_neg hempty]
      simp [Option.filter, PyJson.truthy, hempty, pyStr]
  have hmodality : modality pt track.dict = types.headD "unknown" := by
    rw [modality, h.types]
    cases types with
    | nil => rfl
    | cons type types => rfl
  have htype : objectType pt track.dict =
      if (PyStr.strip objectClass).isEmpty then "unknown" else slugText pt objectClass := by
    have hvalues : typeKeys.filterMap track.dict.get? = [.str objectClass] := by
      simp [typeKeys, h.objectClass, h.others "aircraft_type" (by simp), h.others "type" (by simp),
        h.others "vehicle_type" (by simp), h.others "remote_id_ua_type" (by simp),
        h.others "object_class" (by simp), h.others "ship_type" (by simp)]
    have hnames : namesType (.str objectClass) = !(PyStr.strip objectClass).isEmpty := rfl
    rw [objectType, firstSlug, hvalues]
    cases hblank : (PyStr.strip objectClass).isEmpty with
    | true =>
      rw [find?_cons_of_neg (by rw [hnames, hblank]; decide), if_pos rfl]
      rfl
    | false =>
      rw [find?_cons_of_pos (by rw [hnames, hblank]; decide), if_neg Bool.false_ne_true]
      rfl
  rw [SapientTrack.place, placeOf, hclass, hmodality, htype]

theorem Reported.objectId_eq (h : Reported objectClass types nodeId objectId track) :
    Tracks.objectId pt track.dict = slugText pt ("sapient-" ++ nodeId ++ "-" ++ objectId) := by
  have hne : "sapient-" ++ nodeId ++ "-" ++ objectId ≠ "" := by
    intro hempty
    have hlist := congrArg String.toList hempty
    simp at hlist
  have hnames : namesObject (.str ("sapient-" ++ nodeId ++ "-" ++ objectId)) = true :=
    bne_iff_ne.mpr hne
  rw [Tracks.objectId, firstSlug]
  simp only [idKeys, filterMap_cons, h.others "registration" (by simp),
    h.others "icao24" (by simp), h.others "mmsi" (by simp), h.uid]
  rw [find?_cons_of_pos hnames]
  rfl

theorem slash_notMem_domainAndEntity (objectClass : String) :
    '/' ∉ (domainAndEntity objectClass).1.toList ∧ '/' ∉ (domainAndEntity objectClass).2.toList ∧
      (domainAndEntity objectClass).1 ≠ "" ∧ (domainAndEntity objectClass).2 ≠ "" ∧
        (domainAndEntity objectClass).2 ∉ legacyTail := by
  rw [domainAndEntity]
  repeat' split
  all_goals decide

/-- The segments of the topic of a report. -/
theorem split_topicForTrack {dict : Track}
    (h : dict.get? "sapient_message_type" ≠ some (.str "status_report")) :
    PyStr.split '/' (topicForTrack py pt root dict) =
      PyStr.split '/' root ++
        [(domainAndEntity (cleanClass py (classText pt dict))).1, "sapient"] ++
        PyStr.split '/' (modality pt dict) ++
          ["unknown", (domainAndEntity (cleanClass py (classText pt dict))).2] := by
  obtain ⟨hdomain, hentity, -⟩ :=
    slash_notMem_domainAndEntity (cleanClass py (classText pt dict))
  have hsapient : "/sapient/" = "/" ++ "sapient" ++ "/" := rfl
  have hunknown : "/unknown/" = "/" ++ "unknown" ++ "/" := rfl
  rw [topicForTrack, if_neg h, hsapient, hunknown]
  simp only [← String.append_assoc, -String.reduceAppend]
  rw [split_slash, split_slash, split_slash, split_slash, split_slash,
    PyStr.split_of_notMem hdomain, PyStr.split_of_notMem hentity,
    PyStr.split_of_notMem (s := "sapient") (by decide),
    PyStr.split_of_notMem (s := "unknown") (by decide)]
  simp

/-- The prefix of a report's key. -/
theorem prefixParts_topicForTrack {dict : Track}
    (h : dict.get? "sapient_message_type" ≠ some (.str "status_report")) :
    prefixParts pt (topicForTrack py pt root dict) =
      segments root ++ [(domainAndEntity (cleanClass py (classText pt dict))).1, "sapient"] ++
        segments (modality pt dict) ++
          ["unknown", (domainAndEntity (cleanClass py (classText pt dict))).2] := by
  obtain ⟨-, -, hdomain, hentity, htail⟩ :=
    slash_notMem_domainAndEntity (cleanClass py (classText pt dict))
  have hsplit := @split_topicForTrack py pt root dict h
  have hstrip : stripVersion pt.toUnicode (topicForTrack py pt root dict) =
      topicForTrack py pt root dict := by
    rw [stripVersion, hsplit, reverse_append]
    rfl
  rw [prefixParts, hstrip, hsplit]
  simp [segments, hdomain, hentity, htail]

/-- Two reports about one object have one key exactly when they have one place. -/
theorem objectKey_eq_iff {otherClass : String} {otherTypes : List String} {other : SapientTrack}
    (h : Reported objectClass types nodeId objectId track)
    (hother : Reported otherClass otherTypes nodeId objectId other) :
    objectKey py pt root track = objectKey py pt root other ↔
      track.place py pt = other.place py pt := by
  have hid : Tracks.objectId pt track.dict = Tracks.objectId pt other.dict := by
    rw [h.objectId_eq, hother.objectId_eq]
  have hprefix := @prefixParts_topicForTrack py pt root track.dict (by rw [h.message]; decide)
  have hprefix' :=
    @prefixParts_topicForTrack py pt root other.dict (by rw [hother.message]; decide)
  constructor
  · intro hkey
    have hparts := congrArg (PyStr.split '/') hkey
    rw [objectKey, objectKey, split_semanticTopic, split_semanticTopic, hprefix, hprefix'] at hparts
    obtain ⟨hfront, htype⟩ := append_inj' hparts (by simp)
    obtain ⟨hmiddle, hentity⟩ := append_inj' hfront (by simp)
    rw [append_assoc, append_assoc] at hmiddle
    have hdomain := append_cancel_left hmiddle
    simp only [cons_append, nil_append, cons.injEq, true_and, and_true]
      at hdomain hentity htype
    rw [SapientTrack.place, SapientTrack.place, hdomain.1, hdomain.2, hentity, htype.1]
  · intro hplace
    simp only [SapientTrack.place, Place.mk.injEq] at hplace
    obtain ⟨hdomain, hentity, hmodality, htype⟩ := hplace
    rw [objectKey, objectKey, semanticTopic, semanticTopic, hprefix, hprefix', hdomain, hentity,
      hmodality, htype, hid]

end

/-! ## Objects over a run -/

section

variable {py : Python} {decoder : Decoder} {frame : Frame} {e : Envelope} {fields : List WireField}

/-- A frame with a detection report. -/
structure Detects (frame : Frame) (e : Envelope) (fields : List WireField) : Prop where
  envelope : envelope frame = .ok e
  kind : e.kind = .detectionReport
  content : fieldList e.content = .ok fields

/-- `decode` hands a detection report to `_detection`. -/
theorem decode_detectionReport (he : envelope frame = .ok e) (hkind : e.kind = .detectionReport) :
    (decode py decoder frame).1.objects =
        (detection py decoder.objects e.nodeId (decoder.node e.nodeId) e.sentAt e.content).1 ∧
      (decode py decoder frame).2 = .ok (e.reported
        (detection py decoder.objects e.nodeId (decoder.node e.nodeId) e.sentAt e.content).2) := by
  have hnode : ((decoder.nodes.setDefault e.nodeId NodeState.new).get? e.nodeId).getD
      NodeState.new = decoder.node e.nodeId := by
    rw [PyDict.get?_setDefault, if_pos rfl]
    rfl
  rw [decode, he]
  dsimp only
  rw [hnode, handle, hkind]
  exact ⟨rfl, rfl⟩

/-- What `decode` does with a detection report whose fields can be read. -/
theorem decode_of_detects (h : Detects frame e fields) :
    (decode py decoder frame).1.objects =
        (detection py decoder.objects e.nodeId (decoder.node e.nodeId) e.sentAt e.content).1 ∧
      (decode py decoder frame).2 = .ok (e.reported
        (detectionTrack py decoder.objects e.nodeId (decoder.node e.nodeId) e.sentAt fields)) := by
  obtain ⟨hobjects, hresult⟩ :=
    @decode_detectionReport py decoder frame e h.envelope h.kind
  refine ⟨hobjects, ?_⟩
  rw [hresult, detection, h.content]
  dsimp only
  cases detectionTrack py decoder.objects e.nodeId (decoder.node e.nodeId) e.sentAt fields with
  | error raised => rfl
  | ok track => rfl

/-- What a report does to the objects. -/
def change (report : (String × String) × SapientTrack) :
    Bounded.Change (String × String) SapientTrack :=
  if report.2.delete then .remove report.1 else .put report.1 report.2

theorem remember_eq (objects : PyDict (String × String) SapientTrack)
    (report : (String × String) × SapientTrack) :
    remember objects report.1 report.2 = Bounded.step maxObjects objects (change report) := by
  rw [remember, change]
  cases report.2.delete with
  | true => rfl
  | false => rfl

theorem reportOf_of_detects (h : Detects frame e fields) :
    reportOf py decoder frame =
      (detectionTrack py decoder.objects e.nodeId (decoder.node e.nodeId) e.sentAt
        fields).toOption.map fun track => ((e.nodeId, objectOf fields), track) := by
  rw [reportOf, h.envelope]
  dsimp only
  rw [if_pos h.kind, h.content, (decode_of_detects h).2]
  cases detectionTrack py decoder.objects e.nodeId (decoder.node e.nodeId) e.sentAt fields with
  | error raised => rfl
  | ok track => rfl

theorem reportOf_eq_some {pair : String × String} {track : SapientTrack}
    (h : reportOf py decoder frame = some (pair, track)) :
    ∃ e fields, Detects frame e fields ∧ pair = (e.nodeId, objectOf fields) ∧
      detectionTrack py decoder.objects e.nodeId (decoder.node e.nodeId) e.sentAt fields =
        .ok track := by
  cases henvelope : envelope frame with
  | error raised =>
    rw [reportOf, henvelope] at h
    cases h
  | ok e =>
    by_cases hkind : e.kind = .detectionReport
    · cases hfields : fieldList e.content with
      | error raised =>
        rw [reportOf, henvelope] at h
        dsimp only at h
        rw [if_pos hkind, hfields] at h
        cases h
      | ok fields =>
        have hdetects : Detects frame e fields := ⟨henvelope, hkind, hfields⟩
        rw [reportOf_of_detects hdetects] at h
        obtain ⟨told, htold, hpair⟩ := Option.map_eq_some_iff.mp h
        obtain ⟨rfl, rfl⟩ := Prod.mk.inj hpair
        refine ⟨e, fields, hdetects, rfl, ?_⟩
        cases hresult : detectionTrack py decoder.objects e.nodeId (decoder.node e.nodeId)
            e.sentAt fields with
        | error raised =>
          rw [hresult] at htold
          cases htold
        | ok track =>
          rw [hresult] at htold
          rw [Option.some.inj htold]
    · rw [reportOf, henvelope] at h
      dsimp only at h
      rw [if_neg hkind] at h
      cases h

/-- A frame changes the objects as its report does. -/
theorem objects_decode (decoder : Decoder) (frame : Frame) :
    (decode py decoder frame).1.objects =
      Bounded.run maxObjects decoder.objects ((reportOf py decoder frame).toList.map change) := by
  cases henvelope : envelope frame with
  | error raised =>
    rw [decode, reportOf, henvelope]
    rfl
  | ok e =>
    by_cases hkind : e.kind = .detectionReport
    · cases hfields : fieldList e.content with
      | error raised =>
        rw [(decode_detectionReport henvelope hkind).1, detection, reportOf, henvelope]
        dsimp only
        rw [if_pos hkind, hfields]
        rfl
      | ok fields =>
        have hdetects : Detects frame e fields := ⟨henvelope, hkind, hfields⟩
        rw [(decode_of_detects hdetects).1, reportOf_of_detects hdetects, detection, hfields]
        dsimp only
        cases detectionTrack py decoder.objects e.nodeId (decoder.node e.nodeId) e.sentAt
            fields with
        | error raised => rfl
        | ok track => exact remember_eq decoder.objects ((e.nodeId, objectOf fields), track)
    · rw [decode, reportOf, henvelope]
      dsimp only
      rw [if_neg hkind, handle]
      cases hother : e.kind with
      | detectionReport => exact absurd hother hkind
      | _ => rfl

/-- The objects after frames are those that the reports of the frames leave. -/
theorem objects_after : ∀ {decoder : Decoder} (frames : List Frame),
    (after py decoder frames).objects =
      Bounded.run maxObjects decoder.objects ((reports py decoder frames).map change)
  | _, [] => rfl
  | decoder, frame :: frames => by
    rw [after_cons, objects_after frames, objects_decode, reports, map_append,
      Bounded.run_append]

end

/-! ## Withdrawals -/

/-- The last report of an object that does not end it. -/
def lastReport (sent : List ((String × String) × SapientTrack)) (pair : String × String) :
    Option SapientTrack :=
  (sent.reverse.find? fun report => report.1 = pair && !report.2.delete).map Prod.snd

/-- After some frames, a detection report comes that ends an object whose last other report is
still there. -/
structure Ending (py : Python) (frames : List Frame) (frame : Frame) (e : Envelope)
    (fields : List WireField) (last : SapientTrack) : Prop extends Detects frame e fields where
  state : (text (firstBytes fields 4)).isSome = true
  ends : ends py fields = true
  last : lastReport (reports py .new frames) (e.nodeId, objectOf fields) = some last
  cached : ((after py .new frames).objects.get? (e.nodeId, objectOf fields)).isSome = true

/-- `decode` withdraws an object under the key of its last report, and forgets the object. -/
def Withdrawn (py : Python) (pt : PyText) (root : String) (decoder : Decoder) (frame : Frame)
    (pair : String × String) (last : SapientTrack) : Prop :=
  (∃ event track, (decode py decoder frame).2 = .ok event ∧ event.track = some track ∧
    track.delete = true ∧ objectKey py pt root track = objectKey py pt root last) ∧
    (decode py decoder frame).1.objects.get? pair = none

/-- An object that no report ended is only missing when reports of many others came after it. -/
def EvictedByOthers (py : Python) (frames : List Frame) : Prop :=
  ∀ before pair track later, reports py .new frames = before ++ (pair, track) :: later →
    track.delete = false → (∀ report ∈ later, report.1 ≠ pair) →
      (after py .new frames).objects.get? pair = none →
        ∃ pairs : Finset (String × String), maxObjects ≤ pairs.card ∧
          ∀ other ∈ pairs, other ≠ pair ∧ ∃ report ∈ later, report.1 = other

section

variable {py : Python} {frames : List Frame}

theorem key_change (report : (String × String) × SapientTrack) :
    (change report).key = report.1 := by
  rw [change]
  cases report.2.delete with
  | true => rfl
  | false => rfl

variable {pair : String × String}

theorem change_eq_put {report : (String × String) × SapientTrack} {track : SapientTrack} :
    change report = .put pair track ↔ report = (pair, track) ∧ track.delete = false := by
  obtain ⟨other, told⟩ := report
  rw [change]
  cases hdelete : told.delete with
  | true =>
    simp only [if_true, reduceCtorEq, Prod.mk.injEq, false_iff, not_and]
    rintro ⟨-, rfl⟩
    rw [hdelete]
    decide
  | false =>
    simp only [Bool.false_eq_true, if_false, Bounded.Change.put.injEq, Prod.mk.injEq]
    refine ⟨fun h => ⟨h, ?_⟩, fun h => h.1⟩
    rw [← h.2, hdelete]

/-- What is cached of an object is its last report. -/
theorem lastReport_of_cached {track : SapientTrack}
    (h : (after py .new frames).objects.get? pair = some track) :
    lastReport (reports py .new frames) pair = some track := by
  rw [objects_after] at h
  obtain ⟨before, later, hchanges, hlater⟩ := Bounded.exists_put_of_get? h
  obtain ⟨front, back, hreports, -, hback⟩ := map_eq_append_iff.mp hchanges
  obtain ⟨report, behind, rfl, hput, rfl⟩ := map_eq_cons_iff.mp hback
  obtain ⟨rfl, hdelete⟩ := change_eq_put.mp hput
  have hnone : behind.reverse.find? (fun report => report.1 = pair && !report.2.delete) = none := by
    rw [find?_eq_none]
    intro report hreport
    have hne := hlater _ (mem_map_of_mem (mem_reverse.mp hreport))
    rw [key_change] at hne
    simp [hne]
  rw [lastReport, hreports, reverse_append, reverse_cons, find?_append,
    find?_append, hnone]
  simp [hdelete]

theorem evictedByOthers (py : Python) (frames : List Frame) : EvictedByOthers py frames := by
  intro before pair track later hreports hdelete hlater hnone
  rw [objects_after, hreports, map_append, map_cons,
    change_eq_put.mpr ⟨rfl, hdelete⟩] at hnone
  refine ⟨Bounded.putKeys (later.map change), Bounded.limit_le_of_evicted ?_ hnone, ?_⟩
  · intro other hother
    obtain ⟨report, hreport, rfl⟩ := mem_map.mp hother
    rw [key_change]
    exact hlater report hreport
  · intro other hother
    obtain ⟨put, hput, hkey⟩ := mem_filterMap.mp (mem_toFinset.mp hother)
    obtain ⟨report, hreport, rfl⟩ := mem_map.mp hput
    have hsame : report.1 = other := by
      rw [change] at hkey
      cases hended : report.2.delete with
      | true => simp [hended, Bounded.Change.putKey] at hkey
      | false => simpa [hended, Bounded.Change.putKey] using hkey
    exact ⟨hsame ▸ hlater report hreport, report, hreport, hsame⟩

/-- A report of a frame has a class and the node types that its node has. -/
theorem reported_of_reports {track : SapientTrack} :
    ∀ {decoder : Decoder} {frames : List Frame}, (pair, track) ∈ reports py decoder frames →
      ∃ objectClass types, Reported objectClass types pair.1 pair.2 track
  | _, [], h => by cases h
  | decoder, frame :: frames, h => by
    rcases List.mem_append.mp h with hframe | hframes
    · obtain ⟨e, fields, -, rfl, htrack⟩ := reportOf_eq_some (Option.mem_toList.mp hframe)
      obtain ⟨-, -, objectClass, -, hreported⟩ := detectionTrack_eq_ok htrack
      exact ⟨objectClass, _, hreported⟩
    · exact reported_of_reports hframes

theorem reported_of_lastReport {track : SapientTrack}
    (h : lastReport (reports py .new frames) pair = some track) :
    ∃ objectClass types, Reported objectClass types pair.1 pair.2 track := by
  obtain ⟨⟨other, told⟩, hfind, rfl⟩ := Option.map_eq_some_iff.mp h
  have htest := find?_some hfind
  rw [Bool.and_eq_true, decide_eq_true_iff] at htest
  obtain ⟨rfl, -⟩ := htest
  exact reported_of_reports (mem_reverse.mp (mem_of_find?_eq_some hfind))

end

section

variable {py : Python} {frames : List Frame} {frame : Frame} {e : Envelope}
  {fields : List WireField} {last : SapientTrack}

theorem withdrawn_iff (pt : PyText) (root : String) (h : Ending py frames frame e fields last) :
    Withdrawn py pt root (after py .new frames) frame (e.nodeId, objectOf fields) last ↔
      DetectionReads py fields ∧ ∀ objectClass, reportClass py fields = .ok objectClass →
        placeOf py pt objectClass ((after py .new frames).node e.nodeId).nodeTypes =
          last.place py pt := by
  obtain ⟨cached, hcached⟩ := Option.isSome_iff_exists.mp h.cached
  have hsame := lastReport_of_cached hcached
  rw [h.last] at hsame
  obtain rfl := Option.some.inj hsame
  obtain ⟨lastClass, lastTypes, hlast⟩ := reported_of_lastReport h.last
  obtain ⟨hobjects, hresult⟩ :=
    @decode_of_detects py (after py .new frames) frame e fields h.toDetects
  constructor
  · rintro ⟨⟨event, track, hevent, htrack, -, hkey⟩, -⟩
    rw [hresult] at hevent
    obtain rfl := Except.ok.inj hevent
    cases hmade : detectionTrack py (after py .new frames).objects e.nodeId
        ((after py .new frames).node e.nodeId) e.sentAt fields with
    | error raised =>
      rw [hmade] at htrack
      cases htrack
    | ok made =>
      rw [hmade] at htrack
      obtain rfl := Option.some.inj htrack
      obtain ⟨hreads, -, objectClass, hclass, hreported⟩ := detectionTrack_eq_ok hmade
      refine ⟨hreads, fun other hother => ?_⟩
      rw [hclass] at hother
      rw [← Except.ok.inj hother, ← hreported.place_eq]
      exact (objectKey_eq_iff hreported hlast).mp hkey
  · rintro ⟨hreads, hplace⟩
    obtain ⟨track, hmade⟩ := isOk_iff.mp (@detectionTrack_isOk py _ e.nodeId
      ((after py .new frames).node e.nodeId) e.sentAt fields last hcached h.ends hreads)
    obtain ⟨-, hdelete, objectClass, hclass, hreported⟩ := detectionTrack_eq_ok hmade
    rw [h.state, h.ends, Bool.and_self] at hdelete
    refine ⟨⟨_, track, hresult, ?_, hdelete, ?_⟩, ?_⟩
    · rw [hmade]
      rfl
    · refine (objectKey_eq_iff hreported hlast).mpr ?_
      rw [hreported.place_eq]
      exact hplace objectClass hclass
    · rw [hobjects, detection, h.content]
      dsimp only
      rw [hmade]
      dsimp only
      rw [remember, hdelete, if_pos rfl]
      exact PyDict.get?_pop_self _ _

/-- An object is withdrawn where it was published exactly when the report that ends it can be read
and has the place of the last one. -/
theorem withdrawals_iff (pt : PyText) (root : String) (h : Ending py frames frame e fields last) :
    Withdrawn py pt root (after py .new frames) frame (e.nodeId, objectOf fields) last ∧
        EvictedByOthers py frames ↔
      DetectionReads py fields ∧ ∀ objectClass, reportClass py fields = .ok objectClass →
        placeOf py pt objectClass ((after py .new frames).node e.nodeId).nodeTypes =
          last.place py pt := by
  rw [withdrawn_iff pt root h]
  exact and_iff_left (evictedByOthers py frames)

end

/-! ## An object that stays -/

/-- A field with a few bytes. -/
def shortField (number : UInt8) (value : Bytes) : Bytes :=
  [8 * number + 2, value.length.toUInt8] ++ value

/-- A place on the equator. -/
def originLocation : Bytes :=
  [0x09, 0, 0, 0, 0, 0, 0, 0, 0, 0x11, 0, 0, 0, 0, 0, 0, 0, 0, 0x38, 1, 0x40, 1]

/-- A frame of the node `n` with a report about the object `x`. -/
def reportFrame (fields : Bytes) : Frame :=
  shortField 2 [0x6E] ++ shortField 7 (shortField 2 [0x78] ++ fields)

/-- The object is a drone. -/
def droneSeen : Frame :=
  reportFrame (shortField 6 originLocation ++
    shortField 11 (shortField 1 [0x64, 0x72, 0x6F, 0x6E, 0x65]))

/-- The object is something. -/
def somethingSeen : Frame := reportFrame (shortField 6 originLocation)

/-- What `objectLost` says of the object. -/
def lostFields : List WireField := [.delimited 2 [0x78], .delimited 4 [0x6C, 0x6F, 0x73, 0x74]]

/-- The object is lost. -/
def objectLost : Frame := reportFrame (shortField 4 [0x6C, 0x6F, 0x73, 0x74])

def lostEnvelope : Envelope :=
  ⟨"n", .clock, .detectionReport, shortField 2 [0x78] ++ shortField 4 [0x6C, 0x6F, 0x73, 0x74]⟩

theorem ending_objectLost {frames : List Frame} {last : SapientTrack}
    (hlast : lastReport (reports plainPython .new frames) ("n", "x") = some last)
    (hcached : ((after plainPython .new frames).objects.get? ("n", "x")).isSome = true) :
    Ending plainPython frames objectLost lostEnvelope lostFields last where
  envelope := by decide +kernel
  kind := rfl
  content := by decide +kernel
  state := by decide +kernel
  ends := by decide +kernel
  last := hlast
  cached := hcached

/-- An object without a class is lost. -/
theorem withdrawals_of_something :
    ∃ last, Withdrawn plainPython asciiText "lt" (after plainPython .new [somethingSeen])
        objectLost ("n", "x") last ∧ EvictedByOthers plainPython [somethingSeen] := by
  have hsome : (lastReport (reports plainPython .new [somethingSeen]) ("n", "x")).isSome =
      true := by decide +kernel
  have hplace : (lastReport (reports plainPython .new [somethingSeen]) ("n", "x")).map
      (SapientTrack.place plainPython asciiText) =
        some (placeOf plainPython asciiText "unknown" []) := by decide +kernel
  obtain ⟨last, hlast⟩ := Option.isSome_iff_exists.mp hsome
  rw [hlast] at hplace
  refine ⟨last, (withdrawals_iff asciiText "lt"
    (ending_objectLost hlast (by decide +kernel))).mpr ⟨?_, ?_⟩⟩
  · constructor
    case prediction => exact fun data hdata => nomatch hdata
    case velocity => exact fun data hdata => nomatch hdata
    all_goals exact fun value hvalue => absurd hvalue List.not_mem_nil
  · intro objectClass hclass
    have hunknown : reportClass plainPython lostFields = .ok "unknown" := by decide +kernel
    rw [hunknown] at hclass
    rw [← Except.ok.inj hclass, Option.some.inj hplace]
    decide +kernel

/-- A drone is lost by a report without a class, and what is withdrawn is an aircraft. -/
theorem drone_stays :
    ¬∀ (py : Python) (pt : PyText) (root : String) (frames : List Frame) (frame : Frame)
        (e : Envelope) (fields : List WireField) (last : SapientTrack),
      Ending py frames frame e fields last →
        Withdrawn py pt root (after py .new frames) frame (e.nodeId, objectOf fields) last ∧
          EvictedByOthers py frames := by
  intro hall
  have hsome : (lastReport (reports plainPython .new [droneSeen]) ("n", "x")).isSome = true := by
    decide +kernel
  have hplace : (lastReport (reports plainPython .new [droneSeen]) ("n", "x")).map
      (SapientTrack.place plainPython asciiText) =
        some (placeOf plainPython asciiText "drone" []) := by decide +kernel
  obtain ⟨last, hlast⟩ := Option.isSome_iff_exists.mp hsome
  rw [hlast] at hplace
  have hending := ending_objectLost hlast (by decide +kernel)
  have hwithdrawn := (hall plainPython asciiText "lt" _ _ _ _ last hending).1
  have hsame :=
    ((withdrawn_iff asciiText "lt" hending).mp hwithdrawn).2 "unknown" (by decide +kernel)
  rw [Option.some.inj hplace] at hsame
  exact absurd hsame (by decide +kernel)

end Efdi.Sapient

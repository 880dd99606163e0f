import Efdi.Asterix.Sources
import Efdi.Backbone.Socbx

/-!
# Data of partners on the backbone

What the translators of a pod publish from a sample of the backbone, and what the layer does with
it.  A record of `generic_json.py` or `socbx.py` has a guarded key, and what the bridge lands has
one too.  A track of the handlers of ASTERIX has neither a guarded key nor a source that begins
with `backbone:`, so the layer puts it under the prefix of the pod (`never_sent_back_iff`).
-/

namespace Efdi.Backbone

open List
open Asterix (FloatMath RadarConfig RadarState RadarEffect Published real)
open Checks (bind_eq_ok rejectIf_eq_ok)
open Tracks (PyText Track semanticTopic)

/-! ## Translators -/

/-- The translators of a pod and what they keep when a sample arrives. -/
structure Translators (pod : Pod) where
  F : FloatMath
  N : JsonNumbers
  /-- `UnifiedSchema.ParseFromString`, `none` where it raises. -/
  parseUnified : List UInt8 → Option UnifiedSchema
  /-- `Alert.ParseFromString`, `none` where it raises. -/
  parseAlert : List UInt8 → Option SocbxAlert
  clock : Nat → Rat
  /-- The categories of `ASTERIX_CATEGORIES`. -/
  running : List Nat
  /-- The radar of CAT-048, where it is configured. -/
  radarLat : Option Rat
  radarLon : Option Rat
  /-- The sites that CAT-048 has from CAT-034. -/
  sites : PyDict (Nat × Nat) (Rat × Rat)
  radar : RadarConfig
  radar_root : radar.topicRoot = pod.topicRoot
  radars : RadarState
  /-- The tracks that the handlers of the other categories publish, with the keys of their JSON. -/
  others : Nat → List UInt8 → List (String × Track)
  others_source : ∀ category payload, ∀ published ∈ others category payload,
    ∃ edition, published.2.get? "_src" = some (.str ("ASTERIX CAT-" ++ edition))

/-- The key of the JSON view that `publish_dual` publishes. -/
def jsonKey (py : PyText) (topic : String) (track : Track) : String :=
  Tracks.viewKey py.toUnicode (semanticTopic py topic track) .json

/-- The JSON view that `publish_dual` publishes. -/
def jsonView (py : PyText) (topic : String) (track : Track) : Sample :=
  ⟨jsonKey py topic track, .json track⟩

/-- `INPUT_TOPIC` without its wildcard is before the key, and the origin is the first segment
behind it. -/
def originOf (key : String) : String := (PyStr.split '/' key).headD ""

variable {pod : Pod} (T : Translators pod)

/-- What the handler of CAT-048 publishes. -/
def Translators.plots (payload : List UInt8) : List Published :=
  (Asterix.handler048 T.F pod.py pod.topicRoot T.radarLat T.radarLon T.sites).effects T.clock ()
    payload

/-- What the handler of CAT-034 does. -/
def Translators.radarEffects (payload : List UInt8) : List RadarEffect :=
  (Asterix.handler034 T.F T.radar).effects T.clock T.radars payload

/-- What the handler of a category publishes from a payload, at once or from the threads of a
radar. -/
inductive Translates : Nat → List UInt8 → Sample → Prop
  /-- A view that is a message. -/
  | view (category : Nat) (payload : List UInt8) (key : String) :
      Translates category payload ⟨key, .message⟩
  | plot {payload : List UInt8} {topic : String} {track : Track}
      (h : .dual topic track ∈ T.plots payload) :
      Translates 48 payload (jsonView pod.py topic track)
  | status {payload : List UInt8} {topic : String} {track : Track}
      (h : .publish topic track ∈ T.radarEffects payload) :
      Translates 34 payload (jsonView pod.py topic track)
  /-- `_keepalive_thread`. -/
  | keepalive {payload : List UInt8} {key : String} {status : Track}
      (h : .keepalive key status ∈ T.radarEffects payload) (now : Rat) :
      Translates 34 payload (jsonView pod.py
        (Asterix.topic034 T.radar (status.set "_ts" (real now))) (status.set "_ts" (real now)))
  /-- `_sweep_thread`. -/
  | sweep {payload : List UInt8} {key : String} {entry : Asterix.Sweep}
      (h : .sweep key entry ∈ T.radarEffects payload) (now azimuth : Rat) :
      Translates 34 payload (jsonView pod.py
        (Asterix.topic034 T.radar ((entry.status.set "sweep_azimuth_deg" (real azimuth)).set "_ts"
          (real now)))
        ((entry.status.set "sweep_azimuth_deg" (real azimuth)).set "_ts" (real now)))
  | other {category : Nat} {payload : List UInt8} {key : String} {track : Track}
      (h34 : category ≠ 34) (h48 : category ≠ 48) (h : (key, track) ∈ T.others category payload) :
      Translates category payload ⟨key, .json track⟩

/-- What there is on the local router because a sample came from the backbone.  The records that a
filter of a translator drops are counted with the others. -/
inductive Publishes (imported : Imported) : Sample → Prop
  | relayed {sample : Sample} (h : bridgeHandle pod imported = some sample) :
      Publishes imported sample
  | asterix {category : Nat} {raw payload : List UInt8} {sample : Sample}
      (hlanded : bridgeHandle pod imported = some ⟨rawAsterix pod category, .bytes raw⟩)
      (hrunning : category ∈ T.running)
      (hframe : Asterix.rawFramePayload raw category = .ok payload)
      (h : Translates T category payload sample) : Publishes imported sample
  | json {raw : List UInt8} {payload : PyJson} {now : Rat} {record : Normalized}
      (hlanded : bridgeHandle pod imported = some ⟨rawBackbone pod ++ imported.key, .bytes raw⟩)
      (hloads : pod.loads raw = some payload)
      (h : normalize pod.py T.N now payload (originOf imported.key) = .ok (some record)) :
      Publishes imported (record.sample pod)
  | unified {raw : List UInt8} {msg : UnifiedSchema} {now : Nat → Rat} {record : Normalized}
      (hlanded : bridgeHandle pod imported = some ⟨rawBackbone pod ++ imported.key, .bytes raw⟩)
      (hkey : PyStr.endsWith (rawBackbone pod ++ imported.key) "/soc-bx/unified/raw/v1" = true)
      (hparse : T.parseUnified raw = some msg) (h : record ∈ unifiedRecords pod.py now msg) :
      Publishes imported (record.sample pod)
  | alert {raw : List UInt8} {msg : SocbxAlert} {now detected : Rat} {record : Normalized}
      (hlanded : bridgeHandle pod imported = some ⟨rawBackbone pod ++ imported.key, .bytes raw⟩)
      (hkey : PyStr.endsWith (rawBackbone pod ++ imported.key) "/soc-bx/alerts/v1" = true)
      (hparse : T.parseAlert raw = some msg)
      (h : alertRecord pod.py T.N now detected msg = .ok (some record)) :
      Publishes imported (record.sample pod)

/-! ## What is not sent back -/

/-- Nothing that comes of a sample of another's is put, and nothing that is put is landed. -/
def NeverSentBack (imported : Imported) : Prop :=
  (ownKey pod imported.key = false →
    ∀ sample, Publishes T imported sample → layerHandle pod sample = none) ∧
  ∀ sample put, layerHandle pod sample = some put →
    ∀ payload, bridgeHandle pod ⟨put.key, payload⟩ = none

/-- The tracks with a position that are made of a payload have guarded keys. -/
structure Held (category : Nat) (payload : List UInt8) : Prop where
  plots : category = 48 →
    ∀ found ∈ Asterix.records048 T.F T.clock T.radarLat T.radarLon payload, 2 < found.1.length →
      let track := Asterix.geolocateFromSite T.F (Asterix.bothOf T.radarLat T.radarLon) T.sites
        found.1
      Asterix.located track = true →
        guardedKey pod (jsonKey pod.py (pod.topicRoot ++ "/air/" ++ Asterix.asterixSource track ++
          "/radar/unknown/aircraft") track) = true
  radars : category = 34 → T.radar.publishes = true →
    ∀ msg, Asterix.decodeCat034 T.F payload = some msg →
      msg.get? "msg_type" = some (.str "north_marker") →
      ∀ site, Asterix.activeSite T.radar T.radars msg = some site →
        let status := Asterix.radarStatus T.F T.radar T.radars (T.clock 0) site msg
        guardedKey pod (jsonKey pod.py (Asterix.topic034 T.radar status) status) = true
  others : category ≠ 34 → category ≠ 48 → ∀ published ∈ T.others category payload,
    positioned (.dict published.2.entries) = true → guardedKey pod published.1 = true

/-- A frame of a category that is translated gives no track with a position and a key that is not
guarded. -/
def Withheld (imported : Imported) : Prop :=
  ownKey pod imported.key = false → ∀ category ∈ T.running, ∀ payload,
    Asterix.rawFramePayload imported.payload category = .ok payload → Held T category payload

/-! ## Keys of a track -/

section

variable {py : PyText} {track : Track} {key : String} (value : PyJson)

theorem firstSlug_set {keys : List String} (hkey : key ∉ keys) (test : PyJson → Bool) :
    Tracks.firstSlug py keys test (track.set key value) = Tracks.firstSlug py keys test track := by
  have hsame : keys.filterMap (track.set key value).get? = keys.filterMap track.get? :=
    filterMap_congr fun other hother =>
      PyDict.get?_set_of_ne track (fun heq : other = key => hkey (heq ▸ hother)) value
  rw [Tracks.firstSlug, Tracks.firstSlug, hsame]

/-- A key that names neither the type nor the object leaves the key of a track as it is. -/
theorem jsonKey_set (topic : String) (htype : key ∉ Tracks.typeKeys) (hid : key ∉ Tracks.idKeys) :
    jsonKey py topic (track.set key value) = jsonKey py topic track := by
  rw [jsonKey, jsonKey, semanticTopic, semanticTopic, Tracks.objectType, Tracks.objectType,
    Tracks.objectId, Tracks.objectId, firstSlug_set value htype, firstSlug_set value hid]

theorem numberOr0_set {other : String} (hne : other ≠ key) :
    Asterix.numberOr0 (track.set key value) other = Asterix.numberOr0 track other := by
  rw [Asterix.numberOr0, Asterix.numberOr0, PyDict.get?_set_of_ne track hne]

theorem topic034_set {cfg : RadarConfig} (hsac : "sac" ≠ key) (hsic : "sic" ≠ key) :
    Asterix.topic034 cfg (track.set key value) = Asterix.topic034 cfg track := by
  rw [Asterix.topic034, Asterix.topic034, Asterix.asterixSource, Asterix.asterixSource,
    numberOr0_set value hsac, numberOr0_set value hsic]

end

/-! ## Tracks of ASTERIX -/

theorem fromBackbone_asterix {track : Track} {edition : String}
    (h : track.get? "_src" = some (.str ("ASTERIX CAT-" ++ edition))) :
    fromBackbone pod (.dict track.entries) = false := by
  rw [fromBackbone, PyJson.getD, dict_get?, h]
  simp [Tracks.pyStr, PyStr.startsWith, isPrefixOf]

theorem positioned_of_sited {src : String} {track : Track} (h : Asterix.Sited src track) :
    positioned (.dict track.entries) = true := by
  obtain ⟨hplaced, hlocated⟩ := h
  rw [Asterix.located, Bool.and_eq_true, PyDict.contains, PyDict.contains, Option.isSome_iff_exists,
    Option.isSome_iff_exists] at hlocated
  obtain ⟨⟨lat, hlat⟩, ⟨lon, hlon⟩⟩ := hlocated
  obtain ⟨x, rfl⟩ := hplaced.lat lat hlat
  obtain ⟨y, rfl⟩ := hplaced.lon lon hlon
  rw [positioned, PyJson.getD, PyJson.getD, dict_get?, dict_get?, hlat, hlon]
  rfl

/-- A track of ASTERIX with a position is put unless its key is guarded. -/
theorem layer_of_sited {edition topic : String} {track : Track}
    (h : Asterix.Sited ("ASTERIX CAT-" ++ edition) track) :
    layerHandle pod (jsonView pod.py topic track) = none ↔
      guardedKey pod (jsonKey pod.py topic track) = true :=
  layer_of_track (positioned_of_sited h) (fromBackbone_asterix h.1.source)

theorem asterixCategory_of_rawFramePayload {raw payload : List UInt8} {category : Nat}
    (h : Asterix.rawFramePayload raw category = .ok payload) :
    asterixCategory raw = some category := by
  simp only [Asterix.rawFramePayload, bind_eq_ok, rejectIf_eq_ok, decide_eq_false_iff_not,
    bne_eq_false_iff_eq] at h
  obtain ⟨-, hlength, -, hcategory, -, hdeclared, -⟩ := h
  rw [asterixCategory, if_neg hlength, if_neg (not_not_intro hdeclared), hcategory]

/-! ## A frame -/

section

variable {T} {category : Nat} {payload : List UInt8}

/-- The tracks of CAT-048: the records with more than a time and a source that have a position. -/
theorem mem_plots {topic : String} {track : Track} : .dual topic track ∈ T.plots payload ↔
    ∃ found ∈ Asterix.records048 T.F T.clock T.radarLat T.radarLon payload, 2 < found.1.length ∧
      track = Asterix.geolocateFromSite T.F (Asterix.bothOf T.radarLat T.radarLon) T.sites found.1 ∧
      Asterix.located track = true ∧
      topic = pod.topicRoot ++ "/air/" ++ Asterix.asterixSource track ++
        "/radar/unknown/aircraft" := by
  rw [Translators.plots, Asterix.handler048, mem_flatMap]
  refine exists_congr fun found => and_congr_right fun _ => ?_
  rw [Asterix.recordEffects048]
  constructor
  · intro h
    split at h
    next hlength =>
      rcases mem_append.mp h with hdual | hnative
      · split at hdual
        next hlocated =>
          obtain ⟨rfl, rfl⟩ := Published.dual.inj (mem_singleton.mp hdual)
          exact ⟨hlength, rfl, hlocated, rfl⟩
        next => cases hdual
      · cases mem_singleton.mp hnative
    next => cases h
  · rintro ⟨hlength, rfl, hlocated, rfl⟩
    rw [if_pos hlength]
    exact mem_append_left _ (by rw [if_pos hlocated]; exact mem_singleton_self _)

/-- A status that the handler of CAT-034 keeps or publishes. -/
theorem north_of_status {effect : RadarEffect} {status : Track}
    (heffect : effect ∈ T.radarEffects payload) (hstatus : effect.status? = some status) :
    T.radar.publishes = true ∧ ∃ msg, Asterix.decodeCat034 T.F payload = some msg ∧
      msg.get? "msg_type" = some (.str "north_marker") ∧
      ∃ site, Asterix.activeSite T.radar T.radars msg = some site ∧
        effect ∈ Asterix.northEffects T.F T.radar T.radars (T.clock 0) site msg := by
  rw [Translators.radarEffects, Asterix.handler034] at heffect
  dsimp only at heffect
  cases hmsg : Asterix.decodeCat034 T.F payload with
  | none =>
    rw [hmsg] at heffect
    cases heffect
  | some msg =>
    rw [hmsg] at heffect
    dsimp only at heffect
    cases hpublishes : T.radar.publishes with
    | false =>
      rw [hpublishes] at heffect
      cases heffect
    | true =>
      rw [hpublishes, if_pos rfl] at heffect
      exact ⟨rfl, msg, rfl, Asterix.north_of_radarEffects heffect hstatus⟩

/-- A status has the source of CAT-034 and a position, and a guarded key where it is held. -/
theorem guarded_status {effect : RadarEffect} {status : Track} (hheld : Held T 34 payload)
    (heffect : effect ∈ T.radarEffects payload) (hstatus : effect.status? = some status) :
    Asterix.Sited "ASTERIX CAT-34 Ed.1.29" status ∧
      guardedKey pod (jsonKey pod.py (Asterix.topic034 T.radar status) status) = true := by
  obtain ⟨hpublishes, msg, hmsg, hnorth, site, hsite, hmem⟩ := north_of_status heffect hstatus
  rw [Asterix.status_of_northEffects hmem hstatus]
  exact ⟨Asterix.sited_radarStatus (Asterix.without_decodeCat034 hmsg),
    hheld.radars rfl hpublishes msg hmsg hnorth site hsite⟩

/-- A track of CAT-034 is not put when it has the key of a held status. -/
theorem layer_of_status {topic : String} {track status : Track}
    (hsited : Asterix.Sited "ASTERIX CAT-34 Ed.1.29" track)
    (hkey : jsonKey pod.py topic track = jsonKey pod.py (Asterix.topic034 T.radar status) status)
    (hguarded : guardedKey pod (jsonKey pod.py (Asterix.topic034 T.radar status) status) = true) :
    layerHandle pod (jsonView pod.py topic track) = none := by
  rw [@layer_of_sited pod "34 Ed.1.29" topic track hsited, hkey]
  exact hguarded

/-- What comes of a payload that is held is not put. -/
theorem layer_of_translates {sample : Sample} (hheld : Held T category payload)
    (h : Translates T category payload sample) : layerHandle pod sample = none := by
  cases h with
  | view => exact layer_of_message
  | plot hplot =>
    obtain ⟨found, hfound, hlength, rfl, hlocated, rfl⟩ := mem_plots.mp hplot
    exact (@layer_of_sited pod "48 Ed.1.32" _ _ (Asterix.placed_handler048 hplot)).mpr
      (hheld.plots rfl found hfound hlength hlocated)
  | status hpublish =>
    obtain ⟨hsited, hguarded⟩ := guarded_status hheld hpublish rfl
    obtain ⟨-, _, -, -, _, -, hmem⟩ := north_of_status hpublish rfl
    exact layer_of_status hsited (by rw [Asterix.topic_of_northEffects hmem]) hguarded
  | keepalive hkept now =>
    obtain ⟨hsited, hguarded⟩ := guarded_status hheld hkept rfl
    refine layer_of_status (Asterix.outside_sited _ _ _ _ (by decide) hsited) ?_ hguarded
    rw [jsonKey_set _ _ (by decide) (by decide), topic034_set _ (by decide) (by decide)]
  | sweep hswept now azimuth =>
    obtain ⟨hsited, hguarded⟩ := guarded_status hheld hswept rfl
    refine layer_of_status (Asterix.outside_sited _ _ _ _ (by decide)
      (Asterix.outside_sited _ _ _ _ (by decide) hsited)) ?_ hguarded
    rw [jsonKey_set _ _ (by decide) (by decide), jsonKey_set _ _ (by decide) (by decide),
      topic034_set _ (by decide) (by decide), topic034_set _ (by decide) (by decide)]
  | @other category payload key track h34 h48 hother =>
    obtain ⟨edition, hsource⟩ := T.others_source _ _ _ hother
    cases hpositioned : positioned (.dict track.entries) with
    | false => exact layer_of_not_positioned hpositioned
    | true =>
      have hguarded := hheld.others h34 h48 (key, track) hother hpositioned
      exact (@layer_of_track pod key track hpositioned (fromBackbone_asterix hsource)).mpr
        hguarded

/-- A payload from which nothing is put is held. -/
theorem held_of_layer (h : ∀ sample, Translates T category payload sample →
    layerHandle pod sample = none) : Held T category payload where
  plots := by
    rintro rfl found hfound hlength
    dsimp only
    intro hlocated
    have hplot := mem_plots.mpr ⟨found, hfound, hlength, rfl, hlocated, rfl⟩
    exact (@layer_of_sited pod "48 Ed.1.32" _ _ (Asterix.placed_handler048 hplot)).mp
      (h _ (.plot hplot))
  radars := by
    rintro rfl hpublishes msg hmsg hnorth site hsite
    dsimp only
    have hpublish : .publish (Asterix.topic034 T.radar (Asterix.radarStatus T.F T.radar T.radars
        (T.clock 0) site msg)) (Asterix.radarStatus T.F T.radar T.radars (T.clock 0) site msg) ∈
        T.radarEffects payload := by
      rw [Translators.radarEffects, Asterix.handler034]
      dsimp only
      rw [hmsg]
      dsimp only
      rw [if_pos hpublishes]
      exact Asterix.publish_of_north hnorth hsite
    have hsited := @Asterix.sited_radarStatus T.F T.radar T.radars (T.clock 0) site msg
      (Asterix.without_decodeCat034 hmsg)
    exact (@layer_of_sited pod "34 Ed.1.29" _ _ hsited).mp (h _ (.status hpublish))
  others := by
    intro h34 h48 published hpublished hpositioned
    obtain ⟨edition, hsource⟩ := T.others_source _ _ _ hpublished
    exact (@layer_of_track pod published.1 published.2 hpositioned
      (fromBackbone_asterix hsource)).mp (h _ (.other h34 h48 hpublished))

end

/-! ## Partner data -/

theorem withheld_of_neverSentBack {imported : Imported} (h : NeverSentBack T imported) :
    Withheld T imported := by
  intro hown category hrunning payload hframe
  have hlanded : bridgeHandle pod imported =
      some ⟨rawAsterix pod category, .bytes imported.payload⟩ := by
    rw [bridgeHandle, hown, asterixCategory_of_rawFramePayload hframe]
    rfl
  exact held_of_layer fun sample hsample =>
    h.1 hown sample (.asterix hlanded hrunning hframe hsample)

/-- Partner data is never sent back exactly when no frame gives a track that the layer lets
through. -/
theorem never_sent_back_iff (imported : Imported) :
    NeverSentBack T imported ↔ Withheld T imported := by
  refine ⟨withheld_of_neverSentBack T, fun h => ⟨fun hown sample hpublishes => ?_,
    fun sample put hput payload => bridge_of_layer hput payload⟩⟩
  cases hpublishes with
  | relayed hlanded => exact layer_of_guardedKey (guardedKey_bridgeHandle hlanded)
  | asterix hlanded hrunning hframe hsample =>
    rw [Body.bytes.inj (body_of_bridgeHandle hlanded)] at hframe
    exact layer_of_translates (h hown _ hrunning _ hframe) hsample
  | json => exact layer_of_normalized _
  | unified => exact layer_of_normalized _
  | alert => exact layer_of_normalized _

/-! ## A north marker of a partner -/

/-- A pod with the categories that are run by default and no sites of its own. -/
def defaultPod : Pod := ⟨Tracks.asciiText, "efdi", "us", fun _ => none⟩

def defaultTranslators : Translators defaultPod where
  F := Asterix.exactMath
  N := ⟨fun _ => none, fun n => some n, id⟩
  parseUnified _ := none
  parseAlert _ := none
  clock _ := 0
  running := [34, 48]
  radarLat := none
  radarLon := none
  sites := PyDict.empty
  radar := ⟨"efdi", true, none, "", 0, false, []⟩
  radar_root := rfl
  radars := ⟨PyDict.empty, [], PyDict.empty, PyDict.empty, [], PyDict.empty, [], PyDict.empty,
    PyDict.empty⟩
  others _ _ := []
  others_source := nofun

/-- A frame of CAT-034: I034/010, a north marker and the site of the radar. -/
def northFrame : List UInt8 :=
  [34, 0, 16, 0xC1, 0x10, 1, 2, 1, 0, 0, 0x26, 0x66, 0x66, 0x11, 0xC7, 0x1C]

def northMessage : Track :=
  (Asterix.decodeCat034 Asterix.exactMath (northFrame.drop 3)).getD PyDict.empty

/-- The radar of a partner is put under the prefix of the pod. -/
theorem north_sent_back :
    ¬ NeverSentBack defaultTranslators ⟨"them/radar", northFrame⟩ := by
  intro h
  have hmsg : Asterix.decodeCat034 Asterix.exactMath (northFrame.drop 3) = some northMessage := by
    decide +kernel
  have hguarded := (withheld_of_neverSentBack _ h rfl 34 (by decide) (northFrame.drop 3) rfl).radars
    rfl rfl northMessage hmsg (by decide +kernel)
      ((Asterix.siteOf northMessage).getD (0, 0)) (by decide +kernel)
  revert hguarded
  decide +kernel

end Efdi.Backbone

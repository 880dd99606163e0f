import Efdi.Base.PyBuiltins
import Efdi.Geometry.Simplify

/-!
# Alert zones and washes

`zone_tracks` draws a zone for each alert that is fresh and has a colour, and `wash_tracks` a faint
fill for the other regions.  Both are dicts of tracks that are written one after the other.

The two ask different questions.  A region has a zone when its alert is fresh and drawable, and it
has no fill when it has an alert at all.  So the region of a stale alert, or of one without a
colour, stays blank (`drawnOnce_iff`).  A zone with several parts also takes uids that end in `-p`
and a number, which may be those of another region.
-/

namespace Efdi.Alerts.Zones

open Geometry List PyDict

/-! ## Regions and alerts -/

/-- A ring with the two points that `simplify_ring` needs. -/
structure Ring where
  points : List Point
  long : 2 ≤ points.length

/-- `ring_area`. -/
def ringArea (ring : Ring) : Rat :=
  |((ring.points.zip (ring.points.tail ++ ring.points.take 1)).map fun (a, b) =>
    a.1 * b.2 - b.1 * a.2).sum| / 2

theorem openRing_ne_nil (ring : Ring) : openRing ring.points ≠ [] := by
  have hlong := ring.long
  rw [openRing]
  split
  next _ =>
    intro hnil
    have hlength := congrArg List.length hnil
    rw [length_dropLast, length_nil] at hlength
    omega
  next _ =>
    intro hnil
    rw [hnil] at hlong
    exact absurd hlong (by decide)

theorem isSome_simplifyRing (ring : Ring) (maxVertices : Int) :
    (simplifyRing ring.points maxVertices).isSome := by
  rw [simplifyRing, if_neg (openRing_ne_nil ring)]
  split
  next _ => rfl
  next _ => rfl

/-- `simplify_ring`. -/
def simplified (ring : Ring) (maxVertices : Int) : List Point :=
  (simplifyRing ring.points maxVertices).get (isSome_simplifyRing ring maxVertices)

/-- A region of `boundaries`. -/
structure Region where
  name : String
  rings : List Ring

/-- What the tracks read of an alert. -/
structure Alert where
  country : String
  level : String
  stale : Bool
  since : String
  source : String
  src : Option String
  oblast : String

/-- The track of an area.  All are of the type `air_alert_zone`. -/
structure AreaTrack where
  ts : Rat
  uid : String
  callsign : String
  latDeg : PyFloat
  lonDeg : PyFloat
  ring : List Point
  shapeColor : String
  shapeStyle : Option String
  alertId : String
  country : String
  level : String
  remarks : String

/-- A track under its uid. -/
abbrev Put := String × AreaTrack

/-- `s or "?"`. -/
def orUnknown (s : String) : String := if s = "" then "?" else s

/-- `sorted(rings, key=_ring_area, reverse=True)`. -/
def byArea (rings : List Ring) : List Ring :=
  rings.mergeSort fun a b => decide (ringArea b ≤ ringArea a)

/-- `[r for r in rings if _ring_area(r) >= 0.02 * _ring_area(rings[0])]`. -/
def withoutIslets (rings : List Ring) : List Ring :=
  match rings with
  | [] => []
  | first :: _ => rings.filter fun r => decide (1 / 50 * ringArea first ≤ ringArea r)

/-- The uid of a part, `"-p{}"` behind the first. -/
def partUid (head id : String) (index : Nat) : String :=
  head ++ id ++ if index = 0 then "" else "-p" ++ toString index

/-- `display_level`. -/
def displayLevel (level : String) : String := if level = "orange" then "yellow" else level

/-- `ZONE_COLORS`. -/
def zoneColors : List String := ["red", "orange", "yellow"]

section

variable (py : PyBuiltins)

/-- The mean of a coordinate over a closed ring. -/
def mean (coordinates : List Rat) : PyFloat :=
  py.round (.finite (coordinates.dropLast.sum / (coordinates.length - 1 : Int))) 5

/-! ## Zones -/

/-- The parts of a zone. -/
def zoneRings (region : Region) : List Ring := withoutIslets ((byArea region.rings).take 8)

/-- The track of a part of a zone. -/
def zoneTrack (now : Rat) (alertId : String) (alert : Alert) (region : Region)
    (part : Ring × Nat) : Put :=
  let level := displayLevel alert.level
  let ring := simplified part.1 6000
  let uid := partUid "DA-ZONE-" alertId part.2
  (uid,
    { ts := now, uid, callsign := alert.country ++ " " ++ region.name ++ " " ++ py.upper level
      latDeg := mean py (ring.map Prod.snd), lonDeg := mean py (ring.map Prod.fst), ring
      shapeColor := level, shapeStyle := none, alertId, country := alert.country, level
      remarks := "Air alert (" ++ alert.level ++ ") since " ++ orUnknown alert.since ++
        " - source: " ++ orUnknown alert.source ++
        (if alert.src.getD "dangausakis.lt" = "dangausakis.lt" then " via dangausakis.lt"
          else "") ++
        " - not an official warning" })

/-- What `zone_tracks` writes for an alert. -/
def zonePuts (boundaries : PyDict String Region) (now : Rat) (entry : String × Alert) : List Put :=
  match boundaries.get? entry.1 with
  | none => []
  | some region =>
    if entry.2.stale || !zoneColors.contains entry.2.level then []
    else (zoneRings region).zipIdx.map (zoneTrack py now entry.1 entry.2 region)

/-- The dict that is written in the order of a list. -/
def written (puts : List Put) : PyDict String AreaTrack :=
  puts.foldl (fun out put => out.set put.1 put.2) .empty

/-- `zone_tracks`. -/
def zoneTracks (alerts : PyDict String Alert) (boundaries : PyDict String Region) (now : Rat) :
    PyDict String AreaTrack := written (alerts.entries.flatMap (zonePuts py boundaries now))

/-! ## Washes -/

/-- `_wash_track`, with its prefix left out. -/
def washTrack (uid level callsign remarks : String) (ring : Ring) (now : Rat) (maxVertices : Int)
    (country alertId shapeStyle : String) : AreaTrack :=
  let ring := simplified ring maxVertices
  { ts := now, uid, callsign, latDeg := mean py (ring.map Prod.snd)
    lonDeg := mean py (ring.map Prod.fst), ring, shapeColor := level, shapeStyle := some shapeStyle
    alertId, country, level, remarks }

/-- `_WASH_RANK.get(level, 0)`. -/
def washRank (level : Option String) : Nat :=
  match level with
  | some "yellow" => 1
  | some "orange" => 2
  | some "red" => 3
  | _ => 0

/-- `worst`. -/
def worst (current : PyDict String Alert) : PyDict String String :=
  current.entries.foldl
    (fun worst entry =>
      let alert := entry.2
      if alert.country = "UA" ∧ alert.oblast ≠ "" ∧ alert.stale = false ∧
          washRank (some alert.level) ≠ 0 then
        let level := displayLevel alert.level
        if washRank (worst.get? alert.oblast) < washRank (some level) then
          worst.set alert.oblast level
        else worst
      else worst) .empty

/-- The base colour of a country: `WAR_BASE` or `PEACE_BASE`. -/
def baseColor (war : List String) (code : String) : String :=
  if code ∈ war then "orange" else "white"

/-- `by_name`. -/
def byName (boundaries : PyDict String Region) : PyDict String String :=
  (boundaries.entries.filter fun entry => PyStr.startsWith entry.1 "UA-O:").foldl
    (fun out entry => out.set entry.2.name entry.1) .empty

/-- The fill of an oblast. -/
def oblastPuts (current : PyDict String Alert) (boundaries : PyDict String Region) (now : Rat)
    (war : List String) (entry : String × String) : List Put :=
  let level := ((worst current).get? entry.1).getD (baseColor war "UA")
  let rid := entry.2
  if current.contains rid then []
  else
    match boundaries.get? rid with
    | none => []
    | some region =>
      ((byArea region.rings).take 1).map fun ring =>
        ("DA-WASH-" ++ rid,
          washTrack py ("DA-WASH-" ++ rid) level ("UA " ++ entry.1 ++ " " ++ py.upper level)
            ("Oblast status " ++ level ++ " (orange = at war, no active alert; otherwise the " ++
              "worst district alert in it) - source: NEPTUN via dangausakis.lt - " ++
              "not an official warning") ring now 6000 "UA" rid "wash")

/-- What the fill of a region says. -/
def fillStatus (level : String) : String × String :=
  if level = "yellow" then ("drone incursion",
    "A drone was shot down, crashed or struck in this region (Drone Strike Map)")
  else if level = "orange" then ("at war", "Country at war, no active alert")
  else ("monitored", "Lowest status (monitored, no active alert)")

/-- The fill of a region of another country. -/
def regionPuts (current : PyDict String Alert) (now : Rat) (war incursions : List String)
    (entry : String × Region) : List Put :=
  let rid := entry.1
  if PyStr.startsWith rid "UA" || current.contains rid then []
  else
    let code := (PyStr.split ':' rid).headD ""
    let level := if rid ∈ incursions then "yellow" else baseColor war code
    ((byArea entry.2.rings).take 1).map fun ring =>
      ("DA-WASH-" ++ rid,
        washTrack py ("DA-WASH-" ++ rid) level
          (code ++ " " ++ entry.2.name ++ " (" ++ (fillStatus level).1 ++ ")")
          ((fillStatus level).2 ++ " - source: dangausakis.lt - not an official warning")
          ring now 6000 code rid "wash")

/-- The box around a ring meets the box from `low` to `high`. -/
def overlaps (low high : Point) (ring : Ring) : Bool :=
  (ring.points.any fun p => decide (low.1 ≤ p.1)) &&
    (ring.points.any fun p => decide (p.1 ≤ high.1)) &&
    (ring.points.any fun p => decide (low.2 ≤ p.2)) &&
    (ring.points.any fun p => decide (p.2 ≤ high.2))

/-- A region of a country that is drawn as its regions. -/
structure CountryRegion where
  id : String
  name : String
  rings : List Ring

/-- What the fill of a country's region says. -/
def countryStatus (shown : String) : String × String :=
  if shown = "yellow" then ("Russian forces present",
    "Russian units stand in this region (DeepState), the country is at war or hosts them")
  else if shown = "orange" then ("at war", "Country at war: every region is orange")
  else ("monitored", "Country monitored")

/-- `built` of `_region_wash_tracks`. -/
def builtRegion (code shown : String) (region : CountryRegion) (now : Rat) : List Put :=
  (withoutIslets ((region.rings.filter (overlaps (10, 40) (70, 72))).take 8)).zipIdx.map fun part =>
    let uid := partUid "DA-REGION-" (code ++ "-" ++ region.id) part.2
    (uid,
      washTrack py uid shown (code ++ " " ++ region.name ++ " (" ++ (countryStatus shown).1 ++ ")")
        ((countryStatus shown).2 ++ " - not an official warning - " ++
          "Region outlines: geoBoundaries (wmgeolab, ODbL 1.0) https://www.geoboundaries.org")
        part.1 now 400 code ("REGION:" ++ region.id) "wash")

theorem startsWith_partUid (head id : String) (index : Nat) :
    PyStr.startsWith (partUid head id index) head = true := by
  rw [partUid, String.append_assoc]
  exact PyStr.startsWith_append _ _

/-- `_REGION_TRACKS`, by country, region and colour. -/
structure RegionCache where
  tracks : PyDict (String × String × String) (List Put)
  headed : ∀ key puts, tracks.get? key = some puts →
    ∀ put ∈ puts, PyStr.startsWith put.1 "DA-REGION-" = true

/-- `_REGION_TRACKS[key]`, built when it is not there. -/
def RegionCache.built (cache : RegionCache) (code shown : String) (region : CountryRegion)
    (now : Rat) : List Put × RegionCache :=
  let key := (code, region.id, shown)
  match hfound : cache.tracks.get? key with
  | some puts => (puts, cache)
  | none =>
    let puts := builtRegion py code shown region now
    (puts,
      { tracks := cache.tracks.set key puts
        headed := by
          intro other found hother put hput
          by_cases hsame : other = key
          · rw [hsame, PyDict.get?_set_self] at hother
            obtain rfl := Option.some.inj hother
            obtain ⟨part, -, rfl⟩ := List.mem_map.mp hput
            exact startsWith_partUid _ _ _
          · rw [PyDict.get?_set_of_ne (d := cache.tracks) hsame] at hother
            exact cache.headed other found hother put hput })

/-- A loop that writes tracks in each round and hands the built tracks on. -/
def writtenIn {α : Type} (round : RegionCache → α → List Put × RegionCache) :
    RegionCache → List α → List Put × RegionCache
  | cache, [] => ([], cache)
  | cache, a :: as =>
    let (puts, cache) := round cache a
    let (more, cache) := writtenIn round cache as
    (puts ++ more, cache)

/-- `_region_wash_tracks`: what it writes, and the tracks that it has built. -/
def countryPuts (code level : String) (now : Rat) (active : List String) (cache : RegionCache)
    (regions : List CountryRegion) : List Put × RegionCache :=
  writtenIn
    (fun cache region =>
      let (built, cache) :=
        cache.built py code (if region.id ∈ active then "yellow" else level) region now
      (built.map fun put => (put.1, { put.2 with ts := now }), cache))
    cache regions

/-- A country that the site draws with a standing status. -/
structure Standing where
  name : String
  tone : String
  rings : List Ring

/-- The outline of a country with a standing status. -/
def outlinePuts (code : String) (region : Standing) (now : Rat) : List Put :=
  (((byArea region.rings).filter fun ring =>
    decide (1 ≤ ringArea ring) && overlaps (10, 40) (60, 66) ring).take 8).zipIdx.map fun part =>
      let uid := partUid "DA-COUNTRY-" code part.2
      (uid,
        washTrack py uid "orange" (code ++ " " ++ region.name ++ " (" ++ region.tone ++ ")")
          ("Standing status shown by dangausakis.lt: " ++ region.tone ++
            " - not an official warning") part.1 now 20000 code ("COUNTRY:" ++ code) "country")

/-- The loop over `standing`. -/
def standingPuts (countryRegions : PyDict String (List CountryRegion)) (now : Rat)
    (activity : PyDict String (List String)) (cache : RegionCache)
    (standing : PyDict String Standing) : List Put × RegionCache :=
  writtenIn
    (fun cache (code, region) =>
      match countryRegions.get? code with
      | some (first :: rest) =>
        countryPuts py code "orange" now ((activity.get? code).getD []) cache (first :: rest)
      | _ => (outlinePuts py code region now, cache))
    cache standing.entries

/-- The loop over the countries that have no standing status. -/
def otherPuts (standing : PyDict String Standing) (now : Rat) (war : List String)
    (activity : PyDict String (List String)) (cache : RegionCache)
    (countryRegions : PyDict String (List CountryRegion)) : List Put × RegionCache :=
  writtenIn
    (fun cache (code, regions) =>
      if standing.contains code then ([], cache)
      else
        countryPuts py code (baseColor war code) now ((activity.get? code).getD []) cache regions)
    cache countryRegions.entries

/-- What `wash_tracks` reads beside the alerts and the boundaries. -/
structure Scene where
  standing : PyDict String Standing
  now : Rat
  countryRegions : PyDict String (List CountryRegion)
  war : List String
  activity : PyDict String (List String)
  incursions : List String

/-- What `wash_tracks` writes, in its order. -/
def washPuts (cache : RegionCache) (current : PyDict String Alert)
    (boundaries : PyDict String Region) (scene : Scene) : List Put × RegionCache :=
  let oblasts := (byName boundaries).entries.flatMap
    (oblastPuts py current boundaries scene.now scene.war)
  let regions := boundaries.entries.flatMap
    (regionPuts py current scene.now scene.war scene.incursions)
  let (standing, cache) := standingPuts py scene.countryRegions scene.now scene.activity cache
    scene.standing
  let (others, cache) := otherPuts py scene.standing scene.now scene.war scene.activity cache
    scene.countryRegions
  (oblasts ++ regions ++ standing ++ others, cache)

/-- `wash_tracks`, with the tracks of regions that it has built. -/
def washTracks (cache : RegionCache) (current : PyDict String Alert)
    (boundaries : PyDict String Region) (scene : Scene) :
    PyDict String AreaTrack × RegionCache :=
  let (puts, cache) := washPuts py cache current boundaries scene
  (written puts, cache)

/-! ## What the map shows of a region -/

/-- A zone is drawn for the alert of the region. -/
def HasZone (zones : PyDict String AreaTrack) (rid : String) : Prop :=
  ∃ uid track, zones.get? uid = some track ∧ track.alertId = rid

/-- The fill of the region is drawn. -/
def HasFill (washes : PyDict String AreaTrack) (rid : String) : Prop :=
  washes.contains ("DA-WASH-" ++ rid) = true

/-- The alert of the region is fresh and has a colour. -/
def Alarmed (alerts : PyDict String Alert) (rid : String) : Prop :=
  ∃ alert, alerts.get? rid = some alert ∧ alert.stale = false ∧ alert.level ∈ zoneColors

/-- A region is drawn by its zone when its alert is fresh and has a colour, and else by a fill. -/
def DrawnOnce (cache : RegionCache) (alerts : PyDict String Alert)
    (boundaries : PyDict String Region) (scene : Scene) (rid : String) : Prop :=
  let zones := zoneTracks py alerts boundaries scene.now
  let washes := (washTracks py cache alerts boundaries scene).1
  (Alarmed alerts rid ∧ HasZone zones rid ∧ ¬ HasFill washes rid) ∨
    (¬ Alarmed alerts rid ∧ ¬ HasZone zones rid ∧ HasFill washes rid)

/-- Regions that the two functions share. -/
def Shared (rid : String) : Prop :=
  PyStr.startsWith rid "UA" = false ∨ PyStr.startsWith rid "UA-O:" = true

/-- Every uid of the region's zone is that of a zone that is written later. -/
def Covered (alerts : PyDict String Alert) (boundaries : PyDict String Region) (now : Rat)
    (rid : String) : Prop :=
  ∃ before alert after, alerts.entries = before ++ (rid, alert) :: after ∧
    ∀ put ∈ zonePuts py boundaries now (rid, alert),
      put.1 ∈ (after.flatMap (zonePuts py boundaries now)).map Prod.fst

/-- The region has no alert, or one that is fresh and has a colour and whose zone is not covered by
others. -/
def Whole (alerts : PyDict String Alert) (boundaries : PyDict String Region) (now : Rat)
    (rid : String) : Prop :=
  alerts.get? rid = none ∨ (Alarmed alerts rid ∧ ¬ Covered py alerts boundaries now rid)

end

/-! ## Written dicts -/

theorem get?_written_concat (puts : List Put) (put : Put) (key : String) :
    (written (puts ++ [put])).get? key =
      if key = put.1 then some put.2 else (written puts).get? key := by
  rw [written, foldl_append]
  show ((written puts).set put.1 put.2).get? key = _
  split
  next hsame => rw [hsame, get?_set_self]
  next hother => rw [get?_set_of_ne (d := written puts) hother]

theorem get?_written_append (puts more : List Put) (key : String) :
    (written (puts ++ more)).get? key =
      if key ∈ more.map Prod.fst then (written more).get? key else (written puts).get? key := by
  induction more using reverseRecOn with
  | nil => simp
  | append_singleton more put ih =>
    rw [← append_assoc, get?_written_concat, get?_written_concat, ih]
    by_cases hsame : key = put.1
    · simp [hsame]
    · have hkeys : key ∈ (more ++ [put]).map Prod.fst ↔ key ∈ more.map Prod.fst := by
        simp [hsame]
      simp only [hkeys, if_neg hsame]

theorem mem_of_get?_written {puts : List Put} {key : String} {track : AreaTrack}
    (h : (written puts).get? key = some track) : (key, track) ∈ puts := by
  induction puts using reverseRecOn with
  | nil => cases h
  | append_singleton puts put ih =>
    rw [get?_written_concat] at h
    split at h
    next hsame =>
      rw [← Option.some.inj h, hsame]
      exact mem_append_right _ mem_cons_self
    next _ => exact mem_append_left _ (ih h)

theorem contains_written {puts : List Put} {key : String} :
    (written puts).contains key = true ↔ key ∈ puts.map Prod.fst := by
  induction puts using List.reverseRecOn with
  | nil => simp [written, PyDict.contains, PyDict.empty, PyDict.get?, PyDict.lookup]
  | append_singleton puts put ih =>
    rw [PyDict.contains, get?_written_concat, map_append, mem_append, ← ih]
    by_cases hsame : key = put.1 <;> simp [hsame, PyDict.contains]

/-! ## Zones on the map -/

section

variable {py : PyBuiltins} {alerts : PyDict String Alert} {boundaries : PyDict String Region}
  {now : Rat} {rid : String}

theorem alertId_of_mem_zonePuts {entry : String × Alert} {put : Put}
    (h : put ∈ zonePuts py boundaries now entry) : put.2.alertId = entry.1 := by
  rw [zonePuts] at h
  split at h
  next _ => cases h
  next region _ =>
    split at h
    next _ => cases h
    next _ =>
      obtain ⟨part, -, rfl⟩ := mem_map.mp h
      rfl

/-- A region without an alert has no zone. -/
theorem not_hasZone_of_none (h : alerts.get? rid = none) :
    ¬ HasZone (zoneTracks py alerts boundaries now) rid := by
  rintro ⟨uid, track, htrack, hrid⟩
  obtain ⟨entry, hentry, hput⟩ := mem_flatMap.mp (mem_of_get?_written htrack)
  have hid : track.alertId = entry.1 := alertId_of_mem_zonePuts hput
  rw [← hrid, hid, get?_eq_some_iff.mpr hentry] at h
  cases h

/-- A part of the zone stays when no later zone takes its uid. -/
theorem hasZone_iff {before after : List (String × Alert)} {alert : Alert}
    (h : alerts.entries = before ++ (rid, alert) :: after) :
    HasZone (zoneTracks py alerts boundaries now) rid ↔
      ∃ put ∈ zonePuts py boundaries now (rid, alert),
        put.1 ∉ (after.flatMap (zonePuts py boundaries now)).map Prod.fst := by
  have hnodup := alerts.nodup
  rw [h, map_append, map_cons, nodup_middle, nodup_cons, mem_append,
    not_or] at hnodup
  obtain ⟨⟨hbefore, hafter⟩, -⟩ := hnodup
  have hothers : ∀ entries : List (String × Alert), rid ∉ entries.map Prod.fst →
      ∀ put ∈ entries.flatMap (zonePuts py boundaries now), put.2.alertId ≠ rid := by
    intro entries hentries put hput hrid
    obtain ⟨entry, hentry, hmem⟩ := mem_flatMap.mp hput
    rw [alertId_of_mem_zonePuts hmem] at hrid
    exact hentries (hrid ▸ mem_map_of_mem hentry)
  have hzones : zoneTracks py alerts boundaries now =
      written (before.flatMap (zonePuts py boundaries now) ++
        zonePuts py boundaries now (rid, alert) ++
        after.flatMap (zonePuts py boundaries now)) := by
    rw [zoneTracks, h, flatMap_append, flatMap_cons, append_assoc]
  rw [HasZone, hzones]
  constructor
  · rintro ⟨uid, track, htrack, hrid⟩
    rw [get?_written_append] at htrack
    split at htrack
    next _ => exact absurd hrid (hothers after hafter _ (mem_of_get?_written htrack))
    next hfree =>
      rcases mem_append.mp (mem_of_get?_written htrack) with hmem | hmem
      · exact absurd hrid (hothers before hbefore _ hmem)
      · exact ⟨(uid, track), hmem, hfree⟩
  · rintro ⟨put, hput, hfree⟩
    have hkey : put.1 ∈ (zonePuts py boundaries now (rid, alert)).map Prod.fst :=
      mem_map_of_mem hput
    obtain ⟨track, htrack⟩ := Option.isSome_iff_exists.mp (contains_written.mpr hkey)
    refine ⟨put.1, track, ?_, alertId_of_mem_zonePuts (mem_of_get?_written htrack)⟩
    rw [get?_written_append, if_neg hfree, get?_written_append, if_pos hkey, htrack]

/-! ## Fills on the map -/

theorem forall_mem_writtenIn {α : Type} {P : Put → Prop}
    {round : RegionCache → α → List Put × RegionCache}
    (h : ∀ cache a, ∀ put ∈ (round cache a).1, P put) :
    ∀ (as : List α) (cache : RegionCache), ∀ put ∈ (writtenIn round cache as).1, P put
  | [], _, _, hput => nomatch hput
  | a :: as, cache, put, hput => by
    rcases mem_append.mp hput with hput | hput
    · exact h cache a put hput
    · exact forall_mem_writtenIn h as _ put hput

/-- The uid of an outline or of a part of one, which is no uid of a fill. -/
def OfOutline (put : Put) : Prop :=
  PyStr.startsWith put.1 "DA-REGION-" = true ∨ PyStr.startsWith put.1 "DA-COUNTRY-" = true

theorem OfOutline.ne_fill {put : Put} (h : OfOutline put) : put.1 ≠ "DA-WASH-" ++ rid := by
  intro hsame
  rw [OfOutline, hsame, PyStr.startsWith_iff, PyStr.startsWith_iff] at h
  rcases h with ⟨rest, hrest⟩ | ⟨rest, hrest⟩
  · have hlist := congrArg String.toList hrest
    simp at hlist
  · have hlist := congrArg String.toList hrest
    simp at hlist

theorem built_startsWith (cache : RegionCache) (code shown : String) (region : CountryRegion) :
    ∀ put ∈ (cache.built py code shown region now).1,
      PyStr.startsWith put.1 "DA-REGION-" = true := by
  intro put hput
  rw [RegionCache.built] at hput
  dsimp only at hput
  split at hput
  next puts hfound => exact cache.headed _ puts hfound put hput
  next _ =>
    obtain ⟨part, -, rfl⟩ := mem_map.mp hput
    exact startsWith_partUid _ _ _

theorem countryPuts_ofOutline (code level : String) (active : List String) (cache : RegionCache)
    (regions : List CountryRegion) :
    ∀ put ∈ (countryPuts py code level now active cache regions).1, OfOutline put := by
  refine forall_mem_writtenIn (fun cache region put hput => ?_) regions cache
  obtain ⟨built, hbuilt, rfl⟩ := mem_map.mp hput
  exact .inl (built_startsWith cache code _ region built hbuilt)

theorem standingPuts_ofOutline (countryRegions : PyDict String (List CountryRegion))
    (activity : PyDict String (List String)) (cache : RegionCache)
    (standing : PyDict String Standing) :
    ∀ put ∈ (standingPuts py countryRegions now activity cache standing).1, OfOutline put := by
  refine forall_mem_writtenIn (fun cache entry put hput => ?_) standing.entries cache
  dsimp only at hput
  split at hput
  next _ => exact countryPuts_ofOutline _ _ _ _ _ put hput
  next _ =>
    obtain ⟨part, -, rfl⟩ := mem_map.mp hput
    exact .inr (startsWith_partUid _ _ _)

theorem otherPuts_ofOutline (standing : PyDict String Standing) (war : List String)
    (activity : PyDict String (List String)) (cache : RegionCache)
    (countryRegions : PyDict String (List CountryRegion)) :
    ∀ put ∈ (otherPuts py standing now war activity cache countryRegions).1, OfOutline put := by
  refine forall_mem_writtenIn (fun cache entry put hput => ?_) countryRegions.entries cache
  dsimp only at hput
  split at hput
  next _ => cases hput
  next _ => exact countryPuts_ofOutline _ _ _ _ _ put hput

/-- A fill of a region is written by one of the two loops over the boundaries. -/
theorem hasFill_iff (cache : RegionCache) (scene : Scene) :
    HasFill (washTracks py cache alerts boundaries scene).1 rid ↔
      "DA-WASH-" ++ rid ∈ ((byName boundaries).entries.flatMap
          (oblastPuts py alerts boundaries scene.now scene.war)).map Prod.fst ∨
        "DA-WASH-" ++ rid ∈ (boundaries.entries.flatMap
          (regionPuts py alerts scene.now scene.war scene.incursions)).map Prod.fst := by
  have houtline : ∀ puts : List Put, (∀ put ∈ puts, OfOutline put) →
      "DA-WASH-" ++ rid ∉ puts.map Prod.fst := by
    intro puts hputs hmem
    obtain ⟨put, hput, huid⟩ := mem_map.mp hmem
    exact (hputs put hput).ne_fill huid
  rw [HasFill, washTracks, washPuts]
  dsimp only
  rw [contains_written, map_append, map_append, map_append, mem_append,
    mem_append, mem_append,
    or_iff_left (houtline _ (otherPuts_ofOutline _ _ _ _ _)),
    or_iff_left (houtline _ (standingPuts_ofOutline _ _ _ _))]

theorem fill_uid_inj {id id' : String} (h : "DA-WASH-" ++ id = "DA-WASH-" ++ id') : id = id' :=
  (PyStr.append_inj rfl h).2

/-- A region that has an alert has no fill. -/
theorem not_hasFill_of_alert {alert : Alert} (h : alerts.get? rid = some alert)
    (cache : RegionCache) (scene : Scene) :
    ¬ HasFill (washTracks py cache alerts boundaries scene).1 rid := by
  have hcontains : alerts.contains rid = true := contains_of_get? h
  rw [hasFill_iff, not_or]
  constructor
  · intro hmem
    obtain ⟨put, hput, huid⟩ := mem_map.mp hmem
    obtain ⟨entry, -, hput⟩ := mem_flatMap.mp hput
    rw [oblastPuts] at hput
    split at hput
    next _ => cases hput
    next hfree =>
      split at hput
      next _ => cases hput
      next region _ =>
        obtain ⟨ring, -, rfl⟩ := mem_map.mp hput
        rw [fill_uid_inj huid] at hfree
        exact hfree hcontains
  · intro hmem
    obtain ⟨put, hput, huid⟩ := mem_map.mp hmem
    obtain ⟨entry, -, hput⟩ := mem_flatMap.mp hput
    rw [regionPuts] at hput
    split at hput
    next _ => cases hput
    next hfree =>
      obtain ⟨ring, -, rfl⟩ := mem_map.mp hput
      rw [fill_uid_inj huid, hcontains, Bool.or_true] at hfree
      exact hfree rfl

theorem exists_largest {region : Region} (h : region.rings ≠ []) :
    ∃ ring, ring ∈ (byArea region.rings).take 1 := by
  have hlength : 0 < (byArea region.rings).length := by
    rw [byArea, length_mergeSort]
    exact length_pos_of_ne_nil h
  cases hsorted : byArea region.rings with
  | nil =>
    rw [hsorted] at hlength
    exact absurd hlength (Nat.lt_irrefl 0)
  | cons ring rest => exact ⟨ring, .head _⟩

/-- A name of one oblast only leads to it. -/
theorem get?_foldl_names {name : String} : ∀ {entries : List (String × Region)}
    {d : PyDict String String}, (∃ entry ∈ entries, entry.2.name = name) →
      (∀ entry ∈ entries, entry.2.name = name → entry.1 = rid) →
      (entries.foldl (fun out entry => out.set entry.2.name entry.1) d).get? name = some rid := by
  intro entries d hsome hall
  induction entries using reverseRecOn with
  | nil =>
    obtain ⟨entry, hentry, -⟩ := hsome
    cases hentry
  | append_singleton entries entry ih =>
    rw [foldl_append]
    show ((entries.foldl (fun out entry => out.set entry.2.name entry.1) d).set
      entry.2.name entry.1).get? name = some rid
    by_cases hname : entry.2.name = name
    · rw [← hname, get?_set_self, hall entry (by simp) hname]
    · rw [get?_set_of_ne (d := entries.foldl _ d) (Ne.symm hname)]
      refine ih ?_ fun other hother => hall other (mem_append_left _ hother)
      obtain ⟨found, hfound, hsame⟩ := hsome
      rcases mem_append.mp hfound with hmem | hmem
      · exact ⟨found, hmem, hsame⟩
      · rw [mem_singleton.mp hmem] at hsame
        exact absurd hsame hname

/-- The oblasts have different names. -/
def NamesDiffer (boundaries : PyDict String Region) : Prop :=
  ∀ id id' region region', PyStr.startsWith id "UA-O:" = true →
    PyStr.startsWith id' "UA-O:" = true → boundaries.get? id = some region →
    boundaries.get? id' = some region' → region.name = region'.name → id = id'

theorem get?_byName {region : Region} (hnames : NamesDiffer boundaries)
    (hregion : boundaries.get? rid = some region) (hoblast : PyStr.startsWith rid "UA-O:" = true) :
    (byName boundaries).get? region.name = some rid := by
  have hmem := get?_eq_some_iff.mp hregion
  refine get?_foldl_names ⟨(rid, region), mem_filter.mpr ⟨hmem, hoblast⟩, rfl⟩ ?_
  intro entry hentry hname
  obtain ⟨hentry, hhead⟩ := mem_filter.mp hentry
  exact hnames entry.1 rid entry.2 region hhead hoblast (get?_eq_some_iff.mpr hentry)
    hregion hname

/-- A region that both functions know and that has no alert is filled. -/
theorem hasFill_of_none {region : Region} (h : alerts.get? rid = none)
    (hregion : boundaries.get? rid = some region) (hrings : region.rings ≠ [])
    (hshared : Shared rid) (hnames : NamesDiffer boundaries) (cache : RegionCache)
    (scene : Scene) : HasFill (washTracks py cache alerts boundaries scene).1 rid := by
  have hfree : alerts.contains rid = false := by rw [PyDict.contains, h, Option.isSome_none]
  obtain ⟨ring, hring⟩ := exists_largest hrings
  rw [hasFill_iff]
  rcases hshared with hother | hoblast
  · refine .inr (mem_map.mpr ?_)
    have hputs : ∃ put ∈ regionPuts py alerts scene.now scene.war scene.incursions (rid, region),
        put.1 = "DA-WASH-" ++ rid := by
      rw [regionPuts, hother, hfree]
      exact ⟨_, mem_map_of_mem hring, rfl⟩
    obtain ⟨put, hput, huid⟩ := hputs
    exact ⟨put,
      mem_flatMap.mpr ⟨(rid, region), get?_eq_some_iff.mp hregion, hput⟩, huid⟩
  · refine .inl (mem_map.mpr ?_)
    have hputs : ∃ put ∈ oblastPuts py alerts boundaries scene.now scene.war (region.name, rid),
        put.1 = "DA-WASH-" ++ rid := by
      rw [oblastPuts, hfree, hregion]
      exact ⟨_, mem_map_of_mem hring, rfl⟩
    obtain ⟨put, hput, huid⟩ := hputs
    have hname := get?_eq_some_iff.mp (get?_byName hnames hregion hoblast)
    exact ⟨put, mem_flatMap.mpr ⟨(region.name, rid), hname, hput⟩, huid⟩

/-- A zone stays when it is not covered. -/
theorem hasZone_iff_not_covered {alert : Alert} (h : alerts.get? rid = some alert) :
    HasZone (zoneTracks py alerts boundaries now) rid ↔ ¬ Covered py alerts boundaries now rid := by
  constructor
  · rintro hzone ⟨before, other, after, hentries, hcovered⟩
    obtain ⟨put, hput, hfree⟩ := (hasZone_iff hentries).mp hzone
    exact hfree (hcovered put hput)
  · intro hfree
    obtain ⟨before, after, hentries⟩ := append_of_mem (get?_eq_some_iff.mp h)
    by_contra hzone
    refine hfree ⟨before, alert, after, hentries, fun put hput => ?_⟩
    by_contra hmissing
    exact hzone ((hasZone_iff hentries).mpr ⟨put, hput, hmissing⟩)

/-- A region is drawn once when it has no alert, or one that is fresh, has a colour and is not
covered by other zones. -/
theorem drawnOnce_iff_whole {region : Region} (hregion : boundaries.get? rid = some region)
    (hrings : region.rings ≠ []) (hshared : Shared rid) (hnames : NamesDiffer boundaries)
    (cache : RegionCache) (scene : Scene) :
    DrawnOnce py cache alerts boundaries scene rid ↔
      Whole py alerts boundaries scene.now rid := by
  rw [DrawnOnce, Whole]
  cases halert : alerts.get? rid with
  | none =>
    have hquiet : ¬ Alarmed alerts rid := by
      rintro ⟨alert, hsome, -⟩
      rw [halert] at hsome
      cases hsome
    exact iff_of_true
      (.inr ⟨hquiet, not_hasZone_of_none halert,
        hasFill_of_none halert hregion hrings hshared hnames cache scene⟩) (.inl rfl)
  | some alert =>
    have hfill : ¬ HasFill (washTracks py cache alerts boundaries scene).1 rid :=
      not_hasFill_of_alert halert cache scene
    rw [hasZone_iff_not_covered halert, or_iff_left (fun h => hfill h.2.2)]
    constructor
    · rintro ⟨halarmed, hzone, -⟩
      exact .inr ⟨halarmed, hzone⟩
    · rintro (hnone | ⟨halarmed, hzone⟩)
      · cases hnone
      · exact ⟨halarmed, hzone, hfill⟩

end

/-- A triangle in the north of Lithuania. -/
def northernTriangle : Ring := ⟨[(24, 55), (25, 55), (24, 56), (24, 55)], by decide⟩

/-- The boundaries with one region. -/
def oneRegion : PyDict String Region :=
  PyDict.empty.set "LT:LT-VL" ⟨"Vilnius", [northernTriangle]⟩

/-- A scene without standing countries. -/
def quietScene : Scene := ⟨.empty, 0, .empty, [], .empty, []⟩

theorem namesDiffer_oneRegion : NamesDiffer oneRegion := by
  intro id id' region region' hid _ hregion _ _
  have hkey : id = "LT:LT-VL" := by
    by_contra hother
    rw [oneRegion, get?_set_of_ne (d := .empty) hother] at hregion
    cases hregion
  rw [hkey] at hid
  exact absurd hid (by decide +kernel)

/-- A region without an alert is drawn once, by its fill. -/
theorem drawnOnce_without_alert :
    DrawnOnce .plain ⟨.empty, nofun⟩ .empty oneRegion quietScene "LT:LT-VL" :=
  (drawnOnce_iff_whole (PyDict.get?_set_self _ _ _) (List.cons_ne_nil _ _)
    (.inl (by decide +kernel)) namesDiffer_oneRegion _ _).mpr (.inl rfl)

/-- The alert of a source that has not answered for a while. -/
def staleAlert : Alert := ⟨"LT", "red", true, "", "LT72", none, ""⟩

/-- A region with a stale alert is left blank. -/
theorem blank_with_stale_alert :
    ¬ DrawnOnce .plain ⟨.empty, nofun⟩ (PyDict.empty.set "LT:LT-VL" staleAlert) oneRegion
      quietScene "LT:LT-VL" := by
  have halert : (PyDict.empty.set "LT:LT-VL" staleAlert).get? "LT:LT-VL" = some staleAlert :=
    PyDict.get?_set_self _ _ _
  rintro (⟨⟨alert, hsome, hfresh, -⟩, -, -⟩ | ⟨-, -, hfill⟩)
  · rw [halert] at hsome
    rw [← Option.some.inj hsome] at hfresh
    cases hfresh
  · exact not_hasFill_of_alert halert _ _ hfill

end Efdi.Alerts.Zones

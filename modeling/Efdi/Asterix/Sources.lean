import Efdi.Asterix.Batches
import Efdi.Asterix.Written

/-!
# What CAT-034 and CAT-048 say of the source and the position

No item writes `_src`, so a track of CAT-048 has the source that its record begins with, and the
status of a radar that of CAT-034.  A position is only written as a number.  These hold for every
payload, cut short or not.
-/

namespace Efdi.Asterix

open Reading Tracks List PyDict

/-- The source and the position of a track. -/
def placeKeys : List String := ["_src", "lat_deg", "lon_deg"]

/-! ## CAT-048 -/

section

variable {F : FloatMath} {raised : Prop} {P : Track → Prop} (hP : Outside placeKeys P)

include hP

theorem Outside.octet048_020 (i : Nat) (b : UInt8) (track : Track) (h : P track) :
    P (octet048_020 i b track) := by
  match i with
  | 0 => exact hP.setFlags (by decide) (hP _ _ _ (by decide) h)
  | 1 => exact hP.setIf (by decide) (hP.setFlags (by decide) h)
  | _ + 2 => exact h

theorem Outside.octet048_170 (i : Nat) (b : UInt8) (track : Track) (h : P track) :
    P (octet048_170 i b track) := by
  match i with
  | 0 =>
    exact hP.setIf (by decide) (hP.setFlags (by decide) (hP _ _ _ (by decide)
      (hP.setIf (by decide) (hP _ _ _ (by decide) h))))
  | 1 => exact hP.setFlags (by decide) h
  | _ + 2 => exact h

theorem Outside.plotCharacteristic {name : String} {value : UInt8 → PyJson}
    (hname : name ∉ placeKeys) : Keeps raised P (plotCharacteristic name value) :=
  keeps_fixed fun _ _ h => hP _ _ _ hname h

theorem Outside.item048_130 : Keeps raised P (item048_130 F) := by
  refine keeps_compoundOnly keeps_presenceMap.attempt fun item hitem => ?_
  simp only [mem_cons, not_mem_nil, or_false] at hitem
  rcases hitem with rfl | rfl | rfl | rfl | rfl | rfl | rfl <;>
    exact hP.plotCharacteristic (by decide)

theorem Outside.appendName (name : String) {track : Track} (h : P track) :
    P (appendName name track) := by
  rw [Asterix.appendName]
  split
  next => exact hP _ _ _ (by decide) h
  next => exact hP _ _ _ (by decide) h

theorem Outside.warning048 (b : UInt8) {track : Track} (h : P track) : P (warning048 track b) := by
  rw [Asterix.warning048]
  generalize (if field b 1 0x7F = 0 then none else we048[field b 1 0x7F - 1]?) = name
  cases name with
  | none =>
    split
    next => exact hP _ _ _ (by decide) (hP _ _ _ (by decide) h)
    next => exact h
  | some name =>
    have hnamed := hP.appendName name h
    split
    next => exact hP _ _ _ (by decide) (hP _ _ _ (by decide) hnamed)
    next => exact hnamed

theorem Outside.item048_030 : Keeps raised P item048_030 := by
  refine keeps_octets.bind fun found => keeps_update fun track h => hP.setIf (by decide) ?_
  induction found generalizing track with
  | nil => exact h
  | cons b found ih => exact ih _ (hP.warning048 b h)

theorem Outside.item048_230 : Keeps raised P item048_230 := by
  refine keeps_fixed fun data track h => ?_
  exact hP _ _ _ (by decide) (hP _ _ _ (by decide) (hP.setFlags (by decide)
    (hP _ _ _ (by decide) (hP.setIf (by decide) (hP.setIf (by decide) (hP.setIf (by decide)
      (hP _ _ _ (by decide) (hP _ _ _ (by decide) h))))))))

theorem Outside.item048_100 : Keeps raised P item048_100 := by
  refine keeps_fixed fun data track h => ?_
  split
  next => exact hP _ _ _ (by decide) h
  next => exact h

theorem Outside.item048_120 : Keeps raised P (item048_120 F) := by
  refine keeps_compoundOnly keeps_presenceMap.attempt fun item hitem => ?_
  simp only [mem_cons, not_mem_nil, or_false] at hitem
  rcases hitem with rfl | rfl
  · exact keeps_fixed fun _ _ h => hP.setIf (by decide) (hP _ _ _ (by decide)
      (hP _ _ _ (by decide) h))
  · refine keeps_countedBlock fun count data track h => ?_
    split
    next => exact hP _ _ _ (by decide) (hP _ _ _ (by decide) (hP _ _ _ (by decide) h))
    next => exact h

theorem Outside.item048_040 {radarLat radarLon : Option Rat}
    (hposition : ∀ digits position track, P track → P (setPosition F digits position track)) :
    Keeps raised P (item048_040 F radarLat radarLon) := by
  refine keeps_fixed fun data track h => ?_
  have hpolar := hP _ "azimuth_deg"
    (real (F.round (F.div (F.mul (u16 data 2) 360) 65536) 3)) (by decide)
    (hP _ "range_nm" (real (F.round (F.div (u16 data 0) 256) 3)) (by decide) h)
  dsimp only
  split
  next =>
    split
    next => exact hposition _ _ _ hpolar
    next => exact hpolar
  next => exact hpolar

/-- The items of CAT-048 leave alone what depends on the source and the position only, when
positions do. -/
theorem Outside.items048
    (hposition : ∀ digits position track, P track → P (setPosition F digits position track))
    {radarLat radarLon : Option Rat} :
    ∀ item ∈ items048 F radarLat radarLon, Keeps False P item := by
  simp only [Asterix.items048, forall_mem_cons]
  exact ⟨hP.keeps_set_set (by decide) (by decide), hP.keeps_set (by decide),
    keeps_extents hP.octet048_020, hP.item048_040 hposition,
    keeps_fixed fun _ _ h => hP.setIf (by decide) (hP.setIf (by decide)
      (hP.setIf (by decide) (hP _ _ _ (by decide) h))),
    keeps_fixed fun _ _ h => hP.setIf (by decide) (hP.setIf (by decide) (hP _ _ _ (by decide) h)),
    hP.item048_130, hP.keeps_set (by decide), hP.keeps_set (by decide),
    keeps_counted fun group _ h => hP.decodeMb (by decide) group h, hP.keeps_set (by decide),
    hP.keeps_set_set (by decide) (by decide), hP.keeps_set_set (by decide) (by decide),
    keeps_extents hP.octet048_170,
    keeps_fixed fun _ _ h => hP _ _ _ (by decide) (hP _ _ _ (by decide)
      (hP _ _ _ (by decide) (hP _ _ _ (by decide) h))),
    hP.item048_030, hP.keeps_set (by decide), hP.item048_100, hP.keeps_set (by decide),
    hP.item048_120, hP.item048_230, keeps_fixed fun data _ h => hP.decodeBds30 (by decide) data h,
    keeps_fixed fun _ _ h => hP.setFlags (by decide) (hP _ _ _ (by decide) h),
    keeps_fixed fun _ _ h => hP.setIf (by decide) (hP.setIf (by decide)
      (hP.setIf (by decide) (hP _ _ _ (by decide) h))),
    hP.keeps_set (by decide), hP.keeps_set (by decide), keeps_skipExplicit, keeps_skipExplicit,
    forall_mem_nil _⟩

end

/-- A track with a source, whose position is made of numbers. -/
structure Placed (src : String) (track : Track) : Prop where
  source : track.get? "_src" = some (.str src)
  lat : ∀ value, track.get? "lat_deg" = some value → ∃ x, value = real x
  lon : ∀ value, track.get? "lon_deg" = some value → ∃ x, value = real x

namespace Placed

variable {src : String} {track : Track}

theorem outside : Outside placeKeys (Placed src) := by
  intro track key value hkey h
  have hne : ∀ other ∈ placeKeys, other ≠ key := fun other hother heq => hkey (heq ▸ hother)
  have hget : ∀ other ∈ placeKeys, (track.set key value).get? other = track.get? other :=
    fun other hother => get?_set_of_ne _ (hne other hother) _
  exact ⟨(hget _ (by decide)).trans h.source,
    fun v hv => h.lat v ((hget _ (by decide)).symm.trans hv),
    fun v hv => h.lon v ((hget _ (by decide)).symm.trans hv)⟩

theorem set_lat (h : Placed src track) (x : Rat) : Placed src (track.set "lat_deg" (real x)) where
  source := by rw [get?_set_of_ne _ (by decide), h.source]
  lat := fun v hv => ⟨x, by rw [get?_set_self] at hv; exact (Option.some.inj hv).symm⟩
  lon := fun v hv => h.lon v (by rwa [get?_set_of_ne _ (by decide)] at hv)

theorem set_lon (h : Placed src track) (x : Rat) : Placed src (track.set "lon_deg" (real x)) where
  source := by rw [get?_set_of_ne _ (by decide), h.source]
  lat := fun v hv => h.lat v (by rwa [get?_set_of_ne _ (by decide)] at hv)
  lon := fun v hv => ⟨x, by rw [get?_set_self] at hv; exact (Option.some.inj hv).symm⟩

theorem setPosition (F : FloatMath) (digits : Nat) (position : Rat × Rat) (h : Placed src track) :
    Placed src (setPosition F digits position track) := by
  have hlat : Placed src (track.setDefault "lat_deg" (real (F.round position.1 digits))) := by
    rw [setDefault]
    split
    next => exact h
    next => exact h.set_lat _
  rw [Asterix.setPosition, setDefault]
  split
  next => exact hlat
  next => exact hlat.set_lon _

end Placed

/-- A placed track that has a position. -/
def Sited (src : String) (track : Track) : Prop := Placed src track ∧ located track = true

theorem outside_sited (src : String) : Outside placeKeys (Sited src) := by
  intro track key value hkey h
  have hne : ∀ other ∈ placeKeys, other ≠ key := fun other hother heq => hkey (heq ▸ hother)
  refine ⟨Placed.outside _ _ _ hkey h.1, ?_⟩
  rw [located, PyDict.contains, PyDict.contains,
    get?_set_of_ne _ (hne "lat_deg" (by decide)),
    get?_set_of_ne _ (hne "lon_deg" (by decide))]
  exact h.2

theorem Placed.sited {src : String} {track : Track} (h : Placed src track) (lat lon : Rat) :
    Sited src ((track.set "lat_deg" (real lat)).set "lon_deg" (real lon)) := by
  refine ⟨(h.set_lat lat).set_lon lon, ?_⟩
  rw [located, PyDict.contains, PyDict.contains, get?_set_of_ne _ (by decide),
    get?_set_self, get?_set_self]
  rfl

theorem placed_start048 (now : Rat) : Placed "ASTERIX CAT-48 Ed.1.32" (start048 now) where
  source := rfl
  lat := nofun
  lon := nofun

variable {F : FloatMath} {py : PyText}

theorem placed_decodeRecord048 (now : Rat) (radarLat radarLon : Option Rat) (data : List UInt8) :
    Placed "ASTERIX CAT-48 Ed.1.32" (decodeRecord048 F now radarLat radarLon data).1 := by
  have hitems : ∀ item ∈ items048 F radarLat radarLon,
      Keeps False (Placed "ASTERIX CAT-48 Ed.1.32") item :=
    Placed.outside.items048 fun digits position track => Placed.setPosition F digits position
  have hkept := keeps_compound keeps_fspec hitems (start048 now) data (placed_start048 now)
  rw [decodeRecord048]
  cases hrun : (Reader.compound .fspec (items048 F radarLat radarLon)).run (start048 now) data with
  | done value track rest =>
    rw [hrun] at hkept
    show Placed _ (finish048 track)
    rw [finish048]
    split
    next => exact hkept
    next => exact Placed.outside _ _ _ (by decide) hkept
  | stop track =>
    rw [hrun] at hkept
    exact hkept
  | raise => exact placed_start048 now

theorem placed_geolocateFromSite {src : String} {site : Site}
    {sites : PyDict (Nat × Nat) (Rat × Rat)} {track : Track} (h : Placed src track) :
    Placed src (geolocateFromSite F site sites track) := by
  rw [geolocateFromSite]
  split
  next => exact h
  next =>
    split
    next =>
      split
      next => exact h
      next =>
        split
        next => exact h
        next => exact (h.set_lat _).set_lon _
    next => exact h

/-- What the handler of CAT-048 publishes as a track has its source and a position. -/
theorem placed_handler048 {topicRoot topic : String} {radarLat radarLon : Option Rat}
    {sites : PyDict (Nat × Nat) (Rat × Rat)} {clock : Nat → Rat} {data : List UInt8}
    {track : Track}
    (h : .dual topic track ∈
      (handler048 F py topicRoot radarLat radarLon sites).effects clock () data) :
    Sited "ASTERIX CAT-48 Ed.1.32" track := by
  obtain ⟨found, hfound, heffect⟩ := mem_flatMap.mp h
  obtain ⟨start, hstart⟩ := exists_of_mem_records hfound
  have hplaced : Placed "ASTERIX CAT-48 Ed.1.32" found.1 := by
    rw [hstart]
    exact placed_decodeRecord048 _ _ _ _
  rw [recordEffects048] at heffect
  split at heffect
  next =>
    rcases mem_append.mp heffect with hdual | hnative
    · split at hdual
      next hlocated =>
        obtain ⟨rfl, rfl⟩ := Published.dual.inj (mem_singleton.mp hdual)
        exact ⟨placed_geolocateFromSite hplaced, hlocated⟩
      next => cases hdual
    · cases mem_singleton.mp hnative
  next => cases heffect

/-! ## CAT-034 -/

section

variable {raised : Prop} {P : Track → Prop} (hP : Outside placeKeys P)

include hP

/-- A nested item whose track has neither a source nor a position. -/
theorem Outside.nestedPlace {p : Reader Track Unit} (h : Keeps raised (Without placeKeys) p) :
    Keeps raised P (.nested PyDict.empty p Asterix.updateWith) :=
  h.nested (without_empty _) fun _ _ hout hstate => hP.updateWith hout hstate

theorem Outside.com034_050 : Keeps raised P com034_050 :=
  keeps_fixed fun _ _ h => hP _ _ _ (by decide) (hP _ _ _ (by decide) (hP _ _ _ (by decide)
    (hP _ _ _ (by decide) (hP _ _ _ (by decide) (hP _ _ _ (by decide) (hP _ _ _ (by decide) h))))))

theorem Outside.sensor034_050 {key : String} {size : Nat}
    (hkey : ∀ end' ∈ ["_antenna", "_channel", "_status", "_overload", "_msc_connected"],
      key ++ end' ∉ placeKeys) : Keeps raised P (sensor034_050 key size) := by
  refine keeps_fixed fun data out h => ?_
  have hfirst := hP _ _ (.str (["none", "a", "b", "diversity"].getD (field (octetAt data 0) 5 0x03) ""))
    (hkey "_channel" (by decide)) (hP _ _ (num (if bits (octetAt data 0) 0x80 then 2 else 1))
      (hkey "_antenna" (by decide)) h)
  refine hP _ _ _ (hkey "_msc_connected" (by decide)) (hP _ _ _ (hkey "_overload" (by decide))
    (hP _ _ _ (hkey "_status" (by decide)) ?_))
  split
  next =>
    exact hP _ _ _ (by decide) (hP _ _ _ (by decide) (hP _ _ _ (by decide)
      (hP _ _ _ (by decide) hfirst)))
  next => exact hfirst

theorem Outside.item034_060 : Keeps raised P item034_060 := by
  refine hP.nestedPlace (keeps_compound keeps_fspec ?_)
  have hout := outside_without placeKeys
  simp only [forall_mem_cons]
  exact ⟨hout.keeps_set_set (by decide) (by decide), keeps_pure (), keeps_pure (),
    keeps_fixed fun _ _ h => hout _ _ _ (by decide) (hout _ _ _ (by decide)
      (hout _ _ _ (by decide) h)),
    hout.keeps_set (by decide),
    keeps_fixed fun _ _ h => hout.setIf (by decide) (hout _ _ _ (by decide) h), forall_mem_nil _⟩

theorem Outside.item034_050 : Keeps raised P item034_050 := by
  refine hP.nestedPlace (keeps_compound keeps_fspec ?_)
  have hout := outside_without placeKeys
  simp only [forall_mem_cons]
  exact ⟨hout.com034_050, keeps_pure (), keeps_pure (), hout.sensor034_050 (by decide),
    hout.sensor034_050 (by decide), hout.sensor034_050 (by decide), forall_mem_nil _⟩

theorem Outside.items034 : ∀ item ∈ items034 F, Keeps False P item := by
  simp only [Asterix.items034, forall_mem_cons]
  exact ⟨hP.keeps_set_set (by decide) (by decide), hP.keeps_set (by decide),
    hP.keeps_set (by decide), hP.keeps_set (by decide), hP.keeps_set (by decide), hP.item034_050,
    hP.item034_060, (keeps_counted (P := fun _ => True) fun _ _ _ => trivial).apart trivial
      fun _ _ _ h => hP.setIf (by decide) h,
    keeps_fixed fun _ _ h => hP _ _ _ (by decide) (hP _ _ _ (by decide)
      (hP _ _ _ (by decide) (hP _ _ _ (by decide) h))),
    hP.keeps_set (by decide), keeps_fixed fun _ _ h => hP _ _ _ (by decide) (hP _ _ _ (by decide)
      (hP _ _ _ (by decide) h)),
    hP.keeps_set_set (by decide) (by decide), keeps_skipExplicit, keeps_skipExplicit, forall_mem_nil _⟩

end

variable {msg status : Track} {s : RadarState} {now : Rat} {effect : RadarEffect}
  {cfg : RadarConfig} {site : Rat × Rat}

theorem without_decodeCat034 {data : List UInt8} (h : decodeCat034 F data = some msg) :
    Without placeKeys msg := by
  have hitems : ∀ item ∈ items034 F, Keeps False (Without placeKeys) item :=
    (outside_without placeKeys).items034
  have hkept := keeps_compound keeps_fspec hitems empty data (without_empty _)
  rw [decodeCat034, decodeMessage] at h
  obtain ⟨found, hfound, hmsg⟩ := Option.bind_eq_some_iff.mp h
  have hfoundKept : Without placeKeys found := by
    cases hrun : (Reader.compound .fspec (items034 F)).run empty data with
    | done value state rest =>
      rw [hrun] at hfound hkept
      cases hfound
      exact hkept
    | stop state =>
      rw [hrun] at hfound hkept
      cases hfound
      exact hkept
    | raise =>
      rw [hrun] at hfound
      cases hfound
  split at hmsg
  next => cases hmsg
  next =>
    cases hmsg
    exact hfoundKept

theorem Outside.setSome {P : Track → Prop} (hP : Outside placeKeys P) {key : String}
    {value : Option PyJson} (hkey : key ∉ placeKeys) (h : P status) :
    P (setSome key value status) := by
  cases value with
  | none => exact h
  | some v => exact hP _ _ _ hkey h

/-- The keys of a message, with the name that a status has for the time of day. -/
theorem notMem_placeKeys_of_without (h : Without placeKeys msg) {entry : String × PyJson}
    (hentry : entry ∈ msg.entries) :
    (if entry.1 = "tod_s" then "radar_clock_s" else entry.1) ∉ placeKeys := by
  split
  next => decide
  next =>
    intro hkey
    have hnone := h entry.1 hkey
    rw [get?_eq_some_iff.mpr hentry] at hnone
    cases hnone

/-- The status of a radar has the source of CAT-034 and the position of its site. -/
theorem sited_radarStatus {cfg : RadarConfig} {s : RadarState} {now : Rat} {site : Rat × Rat}
    {msg : Track} (h : Without placeKeys msg) :
    Sited "ASTERIX CAT-34 Ed.1.29" (radarStatus F cfg s now site msg) := by
  have hout := outside_sited "ASTERIX CAT-34 Ed.1.29"
  have hsource : Placed "ASTERIX CAT-34 Ed.1.29" ((empty.set "_src"
      (.str "ASTERIX CAT-34 Ed.1.29")).set "_ts" (real now)) := ⟨rfl, nofun, nofun⟩
  rw [radarStatus]
  have hfold : ∀ (entries : List (String × PyJson)) (status : Track),
      (∀ entry ∈ entries, entry ∈ msg.entries) → Sited "ASTERIX CAT-34 Ed.1.29" status →
      Sited "ASTERIX CAT-34 Ed.1.29" (entries.foldl (fun status entry =>
        status.set (if entry.1 = "tod_s" then "radar_clock_s" else entry.1) entry.2) status) := by
    intro entries
    induction entries with
    | nil => exact fun _ _ hstatus => hstatus
    | cons entry entries ih =>
      intro status hmem hstatus
      exact ih _ (fun other hother => hmem other (mem_cons_of_mem _ hother))
        (hout _ _ _ (notMem_placeKeys_of_without h (hmem entry mem_cons_self)) hstatus)
  refine hfold _ _ (fun _ hentry => hentry) ?_
  refine hout.setSome (by decide) (hout.setSome (by decide) (hout.setSome (by decide)
    (hout.setSome (by decide) (hout.setIf (by decide) (hout _ _ _ (by decide) ?_)))))
  exact (Placed.outside _ _ _ (by decide) (Placed.outside _ _ _ (by decide)
    (Placed.outside _ _ _ (by decide) hsource))).sited _ _

/-- What the handler of CAT-034 does with a status: it is kept for its two threads, and published. -/
def RadarEffect.status? : RadarEffect → Option Track
  | .sweep _ entry => some entry.status
  | .keepalive _ status => some status
  | .publish _ status => some status
  | _ => none

theorem status_of_sectorEffects (h : effect ∈ sectorEffects F s now msg) :
    effect.status? = none := by
  rw [sectorEffects] at h
  split at h
  next => cases h
  next =>
    split at h
    next => cases h
    next =>
      rw [mem_singleton.mp h]
      rfl

theorem status_of_northEffects (h : effect ∈ northEffects F cfg s now site msg)
    (hstatus : effect.status? = some status) :
    status = radarStatus F cfg s now site msg := by
  have hstart : ∀ {started : Bool} {start : RadarEffect}, start.status? = none →
      effect ∉ (if started = true then [] else [start]) := by
    intro started start hnone hmem
    cases started with
    | true => cases hmem
    | false =>
      rw [mem_singleton.mp hmem, hnone] at hstatus
      cases hstatus
  rw [northEffects, mem_append, mem_append, or_assoc, or_iff_left
    (not_or_intro (hstart rfl) (hstart rfl))] at h
  simp only [mem_cons, not_mem_nil, or_false] at h
  rcases h with rfl | rfl | rfl | rfl | rfl
  · cases hstatus
  · cases hstatus
  · exact (Option.some.inj hstatus).symm
  · exact (Option.some.inj hstatus).symm
  · exact (Option.some.inj hstatus).symm

/-- A status is published under its own topic. -/
theorem topic_of_northEffects {topic : String}
    (h : .publish topic status ∈ northEffects F cfg s now site msg) :
    topic = topic034 cfg status := by
  have hstart : ∀ {started : Bool} {start : RadarEffect}, start.status? = none →
      .publish topic status ∉ (if started = true then [] else [start]) := by
    intro started start hnone hmem
    cases started with
    | true => cases hmem
    | false =>
      rw [← mem_singleton.mp hmem] at hnone
      cases hnone
  rw [northEffects, mem_append, mem_append, or_assoc, or_iff_left
    (not_or_intro (hstart rfl) (hstart rfl))] at h
  simp only [mem_cons, not_mem_nil, or_false, RadarEffect.publish.injEq,
    reduceCtorEq, false_or] at h
  rw [h.1, h.2]

/-- A status comes from a north marker of a radar with a site. -/
theorem north_of_radarEffects (h : effect ∈ radarEffects F cfg s now msg)
    (hstatus : effect.status? = some status) :
    msg.get? "msg_type" = some (.str "north_marker") ∧
      ∃ site, activeSite cfg s msg = some site ∧ effect ∈ northEffects F cfg s now site msg := by
  rw [radarEffects] at h
  rcases mem_append.mp h with hsite | h
  · obtain ⟨position, -, rfl⟩ := mem_map.mp hsite
    cases hstatus
  · cases hactive : activeSite cfg s msg with
    | none =>
      rw [hactive] at h
      dsimp only at h
      split at h
      next => cases h
      next =>
        rw [mem_singleton.mp h] at hstatus
        cases hstatus
    | some site =>
      rw [hactive] at h
      rcases mem_append.mp h with hrange | h
      · obtain ⟨range, -, rfl⟩ := mem_map.mp hrange
        cases hstatus
      · split at h
        next hnorth => exact ⟨hnorth, site, rfl, h⟩
        next =>
          split at h
          next =>
            rw [status_of_sectorEffects h] at hstatus
            cases hstatus
          next => cases h

/-- A north marker of a radar with a site is published. -/
theorem publish_of_north (hnorth : msg.get? "msg_type" = some (.str "north_marker"))
    (hactive : activeSite cfg s msg = some site) :
    .publish (topic034 cfg (radarStatus F cfg s now site msg)) (radarStatus F cfg s now site msg) ∈
      radarEffects F cfg s now msg := by
  rw [radarEffects, hactive]
  dsimp only
  rw [if_pos hnorth, northEffects]
  simp

end Efdi.Asterix

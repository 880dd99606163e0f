import Efdi.Base.Greedy
import Efdi.Tracks.Handoff
import Mathlib.Data.List.Sort
import Mathlib.Data.Prod.Lex
import Mathlib.Data.String.Basic

/-!
# Strike merging

`StrikeIndex` groups strike markers by side and day.  A report goes into its group, and the
markers of the group are gone through from the most precise one on: a marker that is near one
that was kept is retracted.

The retractions are a function of the members of the group and not of the order in which they
came.  But a report does not leave the group of an earlier report, so a marker that is reported
under another side or day is held twice (`always_held_iff`).  When no report finds its uid in
another group, the groups are those of the latest reports, and the retractions depend on these
only (`strikes_merged`).
-/

namespace Efdi.Tracks

open List Option PyDict

/-- `STRIKE_FRESH_S`. -/
def strikeFresh : Rat := 3 * 3600

/-- A strike marker of a group. -/
structure Marker where
  seen : Rat
  lat : PyFloat
  lon : PyFloat
  uncertainty : PyFloat
  topic : String
  type : String
deriving DecidableEq

/-- The side and the day. -/
abbrev GroupKey : Type := String × String

abbrev Group : Type := PyDict String Marker

/-- What `observe` is called with.  `clock` is the time that `_day` reads. -/
structure StrikeReport where
  track : Track
  now : Rat
  topic : String
  clock : Rat

/-- What `observe` uses of the library. -/
structure StrikeText extends PyText where
  /-- `float(value)`, which raises on values that are no numbers. -/
  toFloat : PyJson → Option PyFloat
  /-- `_day`, which raises when the time of the track is no number. -/
  day : Track → Rat → Option String
  /-- `_metres(a, b) <= STRIKE_NEAR_M`. -/
  near : PyFloat × PyFloat → PyFloat × PyFloat → Bool

variable (S : StrikeText)

/-! ## Reading a report -/

def strikeSources : List String := ["/land/dronestrikemap/strike/", "/land/geoconfirmed/event/"]

/-- `is_strike_topic`. -/
def isStrikeTopic (topic : String) : Bool :=
  strikeSources.any fun source => PyStr.contains source topic

/-- `_SIDE.search`: the first segment between two slashes that is a side. -/
def sideOf (topic : String) : Option String :=
  (((PyStr.split '/' topic).drop 1).dropLast).find? fun part =>
    ["friendly", "hostile", "neutral", "unknown"].contains part

/-- `track.get("role") == "other"`. -/
def otherRole (track : Track) : Bool :=
  match track.field "role" with
  | .str role => role == "other"
  | _ => false

/-- The marker of a report, `none` when a field is missing or no number. -/
def markerOf (report : StrikeReport) : Option Marker := do
  let lat ← (report.track.get? "lat_deg").bind S.toFloat
  let lon ← (report.track.get? "lon_deg").bind S.toFloat
  let uncertainty := report.track.field "position_uncertainty_m"
  let uncertainty ← S.toFloat (if truthy uncertainty then uncertainty else .int 0)
  let type := textOr S.toPyText report.track "type" "strike"
  return ⟨report.now, lat, lon, uncertainty, report.topic, type⟩

/-- What a call is about. -/
inductive StrikeReading where
  | ignored
  | deleted (uid : String)
  /-- A marker whose day cannot be told. -/
  | undated
  | marked (key : GroupKey) (uid : String) (marker : Marker)
deriving DecidableEq

/-- The tests at the front of `observe`. -/
def readStrike (report : StrikeReport) : StrikeReading :=
  let uid := textOr S.toPyText report.track "uid" ""
  match sideOf report.topic with
  | none => .ignored
  | some side =>
    if uid = "" || !isStrikeTopic report.topic || otherRole report.track then .ignored
    else if truthy (report.track.field "_delete") then .deleted uid
    else
      match markerOf S report with
      | none => .ignored
      | some marker =>
        match S.day report.track report.clock with
        | none => .undated
        | some day => .marked (side, day) uid marker

/-! ## The groups -/

/-- `_groups`. -/
abbrev Groups : Type := PyDict GroupKey Group

/-- `now - v[0] > STRIKE_FRESH_S`. -/
def stale (now : Rat) (marker : Marker) : Bool := decide (strikeFresh < now - marker.seen)

/-- Drop the groups in which every marker is stale. -/
def dropStale (groups : Groups) (now : Rat) : Groups :=
  groups.filter fun _ group => !group.entries.all fun e => stale now e.2

/-- The group of a report, with the report and without what is stale. -/
def groupAfter (groups : Groups) (key : GroupKey) (uid : String) (marker : Marker) (now : Rat) :
    Group :=
  ((((dropStale groups now).get? key).getD PyDict.empty).set uid marker).filter
    fun _ m => !stale now m

/-- The place of an uncertainty in the order of floats.  `nan`, which has none, comes last. -/
def uncertaintyRank : PyFloat → ℕ ×ₗ ℚ
  | .infinity true => toLex (0, 0)
  | .finite x => toLex (1, x)
  | .infinity false => toLex (2, 0)
  | .nan => toLex (3, 0)

/-- `(group[m][3], m)`. -/
def strikeRank (e : String × Marker) : (ℕ ×ₗ ℚ) ×ₗ String :=
  toLex (uncertaintyRank e.2.uncertainty, e.1)

/-- The members of a group in the order in which they are gone through. -/
def ranked (group : Group) : List (String × Marker) :=
  group.entries.insertionSort fun a b => strikeRank a ≤ strikeRank b

/-- One marker is near another. -/
def nearMarker (a b : String × Marker) : Bool := S.near (a.2.lat, a.2.lon) (b.2.lat, b.2.lon)

/-- The markers of a group that are kept and those that are retracted. -/
def merge (group : Group) : List (String × Marker) × List (String × Marker) :=
  Greedy.sweep (nearMarker S) [] (ranked group)

/-- A retraction: the uid, the topic and the type. -/
abbrev Retraction : Type := String × String × String

def retraction (e : String × Marker) : Retraction := (e.1, e.2.topic, e.2.type)

/-- `StrikeIndex.observe`: what it returns, and the groups. -/
def observeStrike (groups : Groups) (report : StrikeReport) : List Retraction × Groups :=
  match readStrike S report with
  | .ignored => ([], groups)
  | .deleted uid => ([], groups.map fun group => group.pop uid)
  | .undated => ([], dropStale groups report.now)
  | .marked key uid marker =>
    let group := groupAfter groups key uid marker report.now
    ((merge S group).2.map retraction, (dropStale groups report.now).set key group)

/-! ## The latest reports -/

/-- The groups, and the calls so far with their times, the newest first. -/
structure Strikes where
  groups : Groups
  seen : List (Rat × StrikeReading)

def Strikes.init : Strikes := ⟨PyDict.empty, []⟩

/-- A call. -/
def strikeStep (s : Strikes) (report : StrikeReport) : Strikes :=
  ⟨(observeStrike S s.groups report).2, (report.now, readStrike S report) :: s.seen⟩

/-- The latest report of a uid. -/
def latest : List (Rat × StrikeReading) → String → Option (GroupKey × Marker)
  | [], _ => none
  | (_, .marked key uid' marker) :: seen, uid =>
    if uid' = uid then some (key, marker) else latest seen uid
  | (_, .deleted uid') :: seen, uid => if uid' = uid then none else latest seen uid
  | (_, .undated) :: seen, uid => latest seen uid
  | (_, .ignored) :: seen, uid => latest seen uid

/-- A uid is held in the group of its latest report and in no other. -/
def Held (s : Strikes) : Prop :=
  ∀ key group uid marker, s.groups.get? key = some group → group.get? uid = some marker →
    latest s.seen uid = some (key, marker)

/-- A report finds its uid in no other group that has a fresh marker. -/
def Alone (s : Strikes) (report : StrikeReport) : Prop :=
  match readStrike S report with
  | .marked key uid _ =>
    ∀ e ∈ (dropStale s.groups report.now).entries, e.2.contains uid = true → e.1 = key
  | _ => True

instance decidableAlone (s : Strikes) (report : StrikeReport) : Decidable (Alone S s report) :=
  match h : readStrike S report with
  | .marked key uid _ =>
    decidable_of_iff (∀ e ∈ (dropStale s.groups report.now).entries,
      e.2.contains uid = true → e.1 = key) (by rw [Alone, h])
  | .ignored => isTrue (by rw [Alone, h]; trivial)
  | .undated => isTrue (by rw [Alone, h]; trivial)
  | .deleted _ => isTrue (by rw [Alone, h]; trivial)

/-- The uncertainty of a report is a number. -/
def Numbered (_ : Strikes) (report : StrikeReport) : Prop :=
  match readStrike S report with
  | .marked _ _ marker => marker.uncertainty ≠ .nan
  | _ => True

instance decidableNumbered (s : Strikes) (report : StrikeReport) :
    Decidable (Numbered S s report) :=
  match h : readStrike S report with
  | .marked _ _ marker => decidable_of_iff (marker.uncertainty ≠ .nan) (by rw [Numbered, h])
  | .ignored => isTrue (by rw [Numbered, h]; trivial)
  | .undated => isTrue (by rw [Numbered, h]; trivial)
  | .deleted _ => isTrue (by rw [Numbered, h]; trivial)

/-- The latest report of a uid is held until it is stale. -/
def Complete (s : Strikes) : Prop :=
  ∀ key uid marker now, latest s.seen uid = some (key, marker) → (∀ e ∈ s.seen, e.1 ≤ now) →
    stale now marker = false →
      ∃ group, s.groups.get? key = some group ∧ group.get? uid = some marker

/-- A marker without the time of its report. -/
def Marker.timeless (marker : Marker) : Marker := { marker with seen := 0 }

/-- What the latest report of a uid says at a time, `none` when it is stale. -/
def current (seen : List (Rat × StrikeReading)) (now : Rat) (uid : String) :
    Option (GroupKey × Marker) :=
  ((latest seen uid).filter fun e => !stale now e.2).map fun e => (e.1, e.2.timeless)

/-- A report is the latest of its run. -/
def Newest (s : Strikes) (report : StrikeReport) : Prop := ∀ e ∈ s.seen, e.1 ≤ report.now

/-- What the retractions of a call are: the markers of the group that are not stale fall into
those that are kept and those that are retracted, no two that are kept are near, and each that is
retracted is near one that is kept and not ranked behind it. -/
def Merged (s : Strikes) (report : StrikeReport) : Prop :=
  match readStrike S report with
  | .marked key uid marker => ∃ (group : Group) (kept retracted : List (String × Marker)),
      (observeStrike S s.groups report).2.get? key = some group ∧
      (∀ member m, group.get? member = some m ↔
        (((s.groups.get? key).getD PyDict.empty).set uid marker).get? member = some m ∧
          stale report.now m = false) ∧
      (observeStrike S s.groups report).1 = retracted.map retraction ∧
      (kept ++ retracted).Perm group.entries ∧
      kept.Pairwise (fun a b => strikeRank a ≤ strikeRank b ∧ nearMarker S b a = false) ∧
      ∀ x ∈ retracted, ∃ k ∈ kept, nearMarker S x k = true ∧ strikeRank k ≤ strikeRank x
  | _ => (observeStrike S s.groups report).1 = []

variable {S} {s : Strikes} {report : StrikeReport} {groups : Groups} {key : GroupKey}
  {uid member : String} {marker m : Marker} {now : Rat}

/-! ## What a call does to the groups -/

variable {group : Group}

theorem get?_dropStale_of_some (h : (dropStale groups now).get? key = some group) :
    groups.get? key = some group := by
  rw [dropStale, get?_filter] at h
  exact (filter_eq_some_iff.mp h).1

/-- A group with a fresh marker stays. -/
theorem get?_dropStale_of_fresh (h : groups.get? key = some group) (hm : group.get? member = some m)
    (hfresh : stale now m = false) :
    (dropStale groups now).get? key = some group := by
  rw [dropStale, PyDict.get?_filter, h]
  refine Option.filter_eq_some_iff.mpr ⟨rfl, ?_⟩
  rw [Bool.not_eq_true', List.all_eq_false]
  exact ⟨_, PyDict.get?_eq_some_iff.mp hm, Bool.eq_false_iff.mp hfresh⟩

/-- The members of the group of a report. -/
theorem get?_groupAfter :
    (groupAfter groups key uid marker now).get? member = some m ↔
      (((groups.get? key).getD PyDict.empty).set uid marker).get? member = some m ∧
        stale now m = false := by
  have hfilter : (groupAfter groups key uid marker now).get? member = some m ↔
      ((((dropStale groups now).get? key).getD empty).set uid marker).get? member =
        some m ∧ stale now m = false := by
    rw [groupAfter, get?_filter, filter_eq_some_iff, Bool.not_eq_true']
  rw [hfilter]
  refine and_congr_left fun hfresh => ?_
  by_cases hmember : member = uid
  · rw [hmember, get?_set_self, get?_set_self]
  · rw [get?_set_of_ne _ hmember, get?_set_of_ne _ hmember,
      get?_getD_empty, get?_getD_empty]
    constructor
    · rintro ⟨group, hgroup, hm⟩
      exact ⟨group, get?_dropStale_of_some hgroup, hm⟩
    · rintro ⟨group, hgroup, hm⟩
      exact ⟨group, get?_dropStale_of_fresh hgroup hm hfresh, hm⟩

theorem seen_of_markerOf (h : markerOf S report = some marker) : marker.seen = report.now := by
  rw [markerOf] at h
  obtain ⟨lat, -, h⟩ := bind_eq_some_iff.mp h
  obtain ⟨lon, -, h⟩ := bind_eq_some_iff.mp h
  obtain ⟨uncertainty, -, h⟩ := bind_eq_some_iff.mp h
  rw [← some.inj h]

/-- The marker of a report is as old as the report. -/
theorem seen_of_marked (h : readStrike S report = .marked key uid marker) :
    marker.seen = report.now := by
  rw [readStrike] at h
  split at h
  next => cases h
  next side hside =>
    split at h
    next => cases h
    next =>
      split at h
      next => cases h
      next =>
        split at h
        next => cases h
        next read hread =>
          split at h
          next => cases h
          next day hday =>
            obtain ⟨-, -, rfl⟩ := StrikeReading.marked.inj h
            exact seen_of_markerOf hread

theorem not_stale_of_marked (h : readStrike S report = .marked key uid marker) :
    stale report.now marker = false := by
  rw [stale, seen_of_marked h, sub_self]
  decide +kernel

/-- The groups after a report. -/
theorem get?_observe_marked (h : readStrike S report = .marked key uid marker) (other : GroupKey) :
    (observeStrike S groups report).2.get? other =
      if other = key then some (groupAfter groups key uid marker report.now)
      else (dropStale groups report.now).get? other := by
  rw [observeStrike, h]
  by_cases hother : other = key
  · rw [if_pos hother, hother]
    exact get?_set_self _ _ _
  · rw [if_neg hother]
    exact get?_set_of_ne _ hother _

/-- The groups after a deletion. -/
theorem get?_observe_deleted (h : readStrike S report = .deleted uid) (other : GroupKey) :
    (observeStrike S groups report).2.get? other =
      (groups.get? other).map fun group => group.pop uid := by
  rw [observeStrike, h]
  exact get?_map _ _ _

theorem latest_marked (h : readStrike S report = .marked key uid marker) (member : String) :
    latest (strikeStep S s report).seen member =
      if uid = member then some (key, marker) else latest s.seen member := by
  rw [strikeStep, h]
  rfl

theorem latest_deleted (h : readStrike S report = .deleted uid) (member : String) :
    latest (strikeStep S s report).seen member =
      if uid = member then none else latest s.seen member := by
  rw [strikeStep, h]
  rfl

/-! ## One group for each uid -/

/-- A report keeps every uid in one group exactly when it finds its own uid in no other. -/
theorem held_marked_iff (h : readStrike S report = .marked key uid marker) (hheld : Held s) :
    Held (strikeStep S s report) ↔ Alone S s report := by
  rw [Alone, h]
  constructor
  · rintro hafter ⟨other, group⟩ he hcontains
    by_contra hne
    have hget : (observeStrike S s.groups report).2.get? other = _ := get?_observe_marked h other
    rw [if_neg hne, get?_eq_some_iff.mpr he] at hget
    obtain ⟨m, hm⟩ := isSome_iff_exists.mp hcontains
    have hlatest := hafter other group uid m hget hm
    rw [latest_marked h, if_pos rfl] at hlatest
    exact hne (Prod.mk.inj (some.inj hlatest)).1.symm
  · intro halone other group member m hgroup hm
    rw [latest_marked h]
    have hget := (get?_observe_marked h other).symm.trans hgroup
    by_cases hother : other = key
    · rw [if_pos hother] at hget
      obtain rfl := some.inj hget
      obtain ⟨hm, -⟩ := get?_groupAfter.mp hm
      by_cases hmember : member = uid
      · rw [hmember, get?_set_self] at hm
        rw [if_pos hmember.symm, hother, some.inj hm]
      · rw [get?_set_of_ne _ hmember] at hm
        rw [if_neg (Ne.symm hmember), hother]
        obtain ⟨old, hold, hm⟩ := get?_getD_empty.mp hm
        exact hheld key old member m hold hm
    · rw [if_neg hother] at hget
      have hmember : uid ≠ member := by
        rintro rfl
        exact hother (halone (other, group) (get?_eq_some_iff.mp hget)
          (contains_of_get? hm))
      rw [if_neg hmember]
      exact hheld other group member m (get?_dropStale_of_some hget) hm

/-- Other calls keep every uid in one group. -/
theorem held_step (h : ∀ key uid marker, readStrike S report ≠ .marked key uid marker)
    (hheld : Held s) : Held (strikeStep S s report) := by
  intro key group member m hgroup hm
  cases hread : readStrike S report with
  | marked key uid marker => exact absurd hread (h key uid marker)
  | ignored =>
    have hgroup' : (observeStrike S s.groups report).2.get? key = some group := hgroup
    rw [observeStrike, hread] at hgroup'
    rw [strikeStep, hread]
    exact hheld key group member m hgroup' hm
  | undated =>
    have hgroup' : (observeStrike S s.groups report).2.get? key = some group := hgroup
    rw [observeStrike, hread] at hgroup'
    rw [strikeStep, hread]
    exact hheld key group member m (get?_dropStale_of_some hgroup') hm
  | deleted uid =>
    have hget := (get?_observe_deleted hread key).symm.trans hgroup
    obtain ⟨old, hold, hpop⟩ := map_eq_some_iff.mp hget
    rw [← hpop] at hm
    have hmember : member ≠ uid := by
      rintro rfl
      rw [get?_pop_self] at hm
      cases hm
    rw [get?_pop_of_ne _ hmember] at hm
    rw [latest_deleted hread, if_neg hmember.symm]
    exact hheld key old member m hold hm

theorem alone_of_not_marked (h : ∀ key uid marker, readStrike S report ≠ .marked key uid marker) :
    Alone S s report := by
  rw [Alone]
  cases hread : readStrike S report with
  | marked key uid marker => exact absurd hread (h key uid marker)
  | ignored => trivial
  | undated => trivial
  | deleted uid => trivial

theorem held_step_iff (hheld : Held s) : Held (strikeStep S s report) ↔ Alone S s report := by
  by_cases hmarked : ∃ key uid marker, readStrike S report = .marked key uid marker
  · obtain ⟨key, uid, marker, hread⟩ := hmarked
    exact held_marked_iff hread hheld
  · have hnot : ∀ key uid marker, readStrike S report ≠ .marked key uid marker :=
      fun key uid marker hread => hmarked ⟨key, uid, marker, hread⟩
    exact iff_of_true (held_step hnot hheld) (alone_of_not_marked hnot)

theorem held_init : Held Strikes.init := fun _ _ _ _ h => by cases h

/-- Along a run every uid is held in the group of its latest report only, exactly when no report
finds its uid in another group. -/
theorem always_held_iff {reports : List StrikeReport} :
    Runs.Always (strikeStep S) Held Strikes.init reports ↔
      Runs.Guarded (strikeStep S) (Alone S) Strikes.init reports := by
  rw [Runs.always_iff_guarded, and_iff_right held_init]
  refine Runs.guarded_congr_of (G := fun _ _ => True) (P := Held) ?_ ?_ held_init ?_
  · exact fun s report hheld _ => held_step_iff hheld
  · exact fun s report hheld _ halone => (held_step_iff hheld).mpr halone
  · exact Runs.guarded_iff.mpr fun _ _ _ _ => trivial

/-! ## What a report retracts -/

instance strikeTotal : Std.Total fun a b : String × Marker => strikeRank a ≤ strikeRank b :=
  ⟨fun a b => le_total (strikeRank a) (strikeRank b)⟩

instance strikeTrans : IsTrans (String × Marker) fun a b => strikeRank a ≤ strikeRank b :=
  ⟨fun _ _ _ hab hbc => hab.trans hbc⟩

theorem ranked_perm (group : Group) : (ranked group).Perm group.entries :=
  perm_insertionSort _ _

theorem ranked_sorted (group : Group) :
    (ranked group).Pairwise fun a b => strikeRank a ≤ strikeRank b :=
  pairwise_insertionSort _ _

/-- The markers of a group fall into those that are kept and those that are retracted. -/
theorem merge_perm (group : Group) :
    ((merge S group).1 ++ (merge S group).2).Perm group.entries :=
  (Greedy.sweep_perm [] (ranked group)).trans (ranked_perm group)

/-- No two markers that are kept are near. -/
theorem merge_pairwise (group : Group) :
    (merge S group).1.Pairwise fun a b =>
      strikeRank a ≤ strikeRank b ∧ nearMarker S b a = false :=
  pairwise_and_iff.mpr
    ⟨(ranked_sorted group).sublist (Greedy.sweep_sublist [] (ranked group)),
      Greedy.sweep_pairwise (ranked group) List.Pairwise.nil⟩

/-- A marker that is retracted is near one that is kept and at least as precise. -/
theorem near_of_retracted {x : String × Marker} (hx : x ∈ (merge S group).2) :
    ∃ k ∈ (merge S group).1, nearMarker S x k = true ∧ strikeRank k ≤ strikeRank x :=
  Greedy.exists_near_of_mem (r := fun a b => strikeRank a ≤ strikeRank b) (ranked_sorted group) hx

theorem merged_marked (h : readStrike S report = .marked key uid marker) :
    Merged S s report := by
  rw [Merged, h]
  have hgroup : (observeStrike S s.groups report).2.get? key =
      some (groupAfter s.groups key uid marker report.now) := by
    rw [get?_observe_marked h, if_pos rfl]
  have hretractions : (observeStrike S s.groups report).1 =
      (merge S (groupAfter s.groups key uid marker report.now)).2.map retraction := by
    rw [observeStrike, h]
  exact ⟨_, _, _, hgroup, fun member m => get?_groupAfter, hretractions, merge_perm _,
    merge_pairwise _, fun x hx => near_of_retracted hx⟩

/-- What a report retracts is what `Merged` says. -/
theorem merged_step (s : Strikes) (report : StrikeReport) : Merged S s report := by
  cases hread : readStrike S report with
  | marked key uid marker => exact merged_marked hread
  | ignored =>
    rw [Merged, hread, observeStrike, hread]
  | undated =>
    rw [Merged, hread, observeStrike, hread]
  | deleted uid =>
    rw [Merged, hread, observeStrike, hread]

/-! ## What is held -/

/-- What is fresh later was fresh before. -/
theorem stale_mono {later : Rat} (hle : now ≤ later) (h : stale later marker = false) :
    stale now marker = false := by
  have hlater : ¬ strikeFresh < later - marker.seen := of_decide_eq_false h
  refine decide_eq_false fun hnow => hlater (lt_of_lt_of_le hnow ?_)
  exact sub_le_sub_right hle marker.seen

/-- A report keeps the markers of other uids that are fresh. -/
theorem get?_observe_of_fresh (h : readStrike S report = .marked key uid marker) {other : GroupKey}
    (hgroup : groups.get? other = some group) (hm : group.get? member = some m)
    (hmember : member ≠ uid) (hfresh : stale report.now m = false) :
    ∃ group', (observeStrike S groups report).2.get? other = some group' ∧
      group'.get? member = some m := by
  rw [get?_observe_marked h]
  by_cases hother : other = key
  · rw [if_pos hother]
    refine ⟨_, rfl, get?_groupAfter.mpr ⟨?_, hfresh⟩⟩
    rw [get?_set_of_ne _ hmember, ← hother, hgroup]
    exact hm
  · rw [if_neg hother]
    exact ⟨group, get?_dropStale_of_fresh hgroup hm hfresh, hm⟩

theorem complete_init : Complete Strikes.init := fun _ _ _ _ h => by cases h

/-- Every call keeps the latest reports until they are stale. -/
theorem complete_step (hcomplete : Complete s) : Complete (strikeStep S s report) := by
  intro key member m now hlatest htimes hfresh
  have hbefore : ∀ e ∈ s.seen, e.1 ≤ now := fun e he => htimes e (.tail _ he)
  have hnow : report.now ≤ now := htimes (report.now, readStrike S report) mem_cons_self
  cases hread : readStrike S report with
  | ignored =>
    have hgroups : (strikeStep S s report).groups = s.groups := by
      rw [strikeStep, observeStrike, hread]
    rw [strikeStep, hread] at hlatest
    rw [hgroups]
    exact hcomplete key member m now hlatest hbefore hfresh
  | undated =>
    have hgroups : (strikeStep S s report).groups = dropStale s.groups report.now := by
      rw [strikeStep, observeStrike, hread]
    rw [strikeStep, hread] at hlatest
    obtain ⟨group, hgroup, hm⟩ := hcomplete key member m now hlatest hbefore hfresh
    rw [hgroups]
    exact ⟨group, get?_dropStale_of_fresh hgroup hm (stale_mono hnow hfresh), hm⟩
  | deleted uid =>
    rw [latest_deleted hread] at hlatest
    split at hlatest
    next => cases hlatest
    next hmember =>
      obtain ⟨group, hgroup, hm⟩ := hcomplete key member m now hlatest hbefore hfresh
      refine ⟨group.pop uid, (get?_observe_deleted hread key).trans ?_, ?_⟩
      · rw [hgroup]
        rfl
      · rw [get?_pop_of_ne _ (Ne.symm hmember)]
        exact hm
  | marked key' uid marker =>
    rw [latest_marked hread] at hlatest
    split at hlatest
    next hmember =>
      obtain ⟨rfl, rfl⟩ := Prod.mk.inj (some.inj hlatest)
      refine ⟨_, (get?_observe_marked hread key').trans (if_pos rfl), ?_⟩
      rw [← hmember]
      exact get?_groupAfter.mpr ⟨get?_set_self _ _ _, not_stale_of_marked hread⟩
    next hmember =>
      obtain ⟨group, hgroup, hm⟩ := hcomplete key member m now hlatest hbefore hfresh
      exact get?_observe_of_fresh hread hgroup hm (Ne.symm hmember) (stale_mono hnow hfresh)

/-- The members of the group of the newest report are the latest reports that are not stale. -/
theorem mem_group_iff (h : readStrike S report = .marked key uid marker) (hnewest : Newest s report)
    (hcomplete : Complete s) (hheld : Held (strikeStep S s report)) :
    (groupAfter s.groups key uid marker report.now).get? member = some m ↔
      latest (strikeStep S s report).seen member = some (key, m) ∧ stale report.now m = false := by
  have hgroup : (strikeStep S s report).groups.get? key =
      some (groupAfter s.groups key uid marker report.now) :=
    (get?_observe_marked h key).trans (if_pos rfl)
  constructor
  · intro hm
    exact ⟨hheld key _ member m hgroup hm, (get?_groupAfter.mp hm).2⟩
  · rintro ⟨hlatest, hfresh⟩
    have htimes : ∀ e ∈ (strikeStep S s report).seen, e.1 ≤ report.now := by
      intro e he
      rcases mem_cons.mp he with rfl | he
      · exact le_refl report.now
      · exact hnewest e he
    obtain ⟨group, hget, hm⟩ :=
      complete_step hcomplete key member m report.now hlatest htimes hfresh
    rw [hgroup] at hget
    rwa [some.inj hget]

/-! ## The order of the reports -/

/-- A member of a group without the time of its report. -/
def timelessEntry (e : String × Marker) : String × Marker := (e.1, e.2.timeless)

/-- Two members of a group with the same rank are one. -/
theorem eq_of_rank {a b : String × Marker} (ha : a ∈ group.entries) (hb : b ∈ group.entries)
    (hab : strikeRank a ≤ strikeRank b) (hba : strikeRank b ≤ strikeRank a) : a = b := by
  have hrank : strikeRank a = strikeRank b := le_antisymm hab hba
  have huid : a.1 = b.1 := (Prod.mk.inj (toLex.injective hrank)).2
  have hget := get?_eq_some_iff.mpr hb
  rw [← huid, get?_eq_some_iff.mpr ha] at hget
  exact Prod.ext huid (some.inj hget)

theorem ranked_timeless_sorted (group : Group) :
    ((ranked group).map timelessEntry).Pairwise fun a b => strikeRank a ≤ strikeRank b :=
  pairwise_map.mpr (ranked_sorted group)

/-- Groups that differ in the times only are gone through in the same order. -/
theorem ranked_timeless {left right : Group}
    (h : ∀ uid, (left.get? uid).map Marker.timeless = (right.get? uid).map Marker.timeless) :
    (ranked left).map timelessEntry = (ranked right).map timelessEntry := by
  have hperm : ((ranked left).map timelessEntry).Perm ((ranked right).map timelessEntry) := by
    have hentries : (left.map Marker.timeless).entries.Perm (right.map Marker.timeless).entries :=
      perm_of_get? fun uid => by rw [get?_map, get?_map, h]
    exact (((ranked_perm left).map _).trans hentries).trans ((ranked_perm right).map _).symm
  refine List.Perm.eq_of_pairwise ?_ (ranked_timeless_sorted left) (ranked_timeless_sorted right)
    hperm
  intro a b ha hb hab hba
  have hmem : ∀ {e}, e ∈ (ranked left).map timelessEntry →
      e ∈ (left.map Marker.timeless).entries := fun he => ((ranked_perm left).map _).mem_iff.mp he
  exact eq_of_rank (hmem ha) (hmem (hperm.mem_iff.mpr hb)) hab hba

/-- The times do not matter to what is retracted. -/
theorem merge_timeless (group : Group) : (merge S group).2.map retraction =
    (Greedy.sweep (nearMarker S) [] ((ranked group).map timelessEntry)).2.map retraction := by
  have hnear : ∀ a b, nearMarker S (timelessEntry a) (timelessEntry b) = nearMarker S a b :=
    fun _ _ => rfl
  have hsweep := Greedy.sweep_map hnear [] (ranked group)
  rw [List.map_nil] at hsweep
  rw [hsweep, List.map_map]
  rfl

/-- The group of the newest report is a function of the latest reports. -/
theorem group_eq_current (h : readStrike S report = .marked key uid marker)
    (hnewest : Newest s report) (hcomplete : Complete s) (hheld : Held (strikeStep S s report))
    (member : String) :
    ((groupAfter s.groups key uid marker report.now).get? member).map Marker.timeless =
      (current (strikeStep S s report).seen report.now member).bind fun e =>
        if e.1 = key then some e.2 else none := by
  have hmem : ∀ m, (groupAfter s.groups key uid marker report.now).get? member = some m ↔
      latest (strikeStep S s report).seen member = some (key, m) ∧ stale report.now m = false :=
    fun m => mem_group_iff h hnewest hcomplete hheld
  rw [current]
  cases hget : (groupAfter s.groups key uid marker report.now).get? member with
  | some m =>
    obtain ⟨hlatest, hfresh⟩ := (hmem m).mp hget
    rw [hlatest, filter_some, hfresh]
    exact (if_pos rfl).symm
  | none =>
    cases hlatest : latest (strikeStep S s report).seen member with
    | none => rfl
    | some e =>
      cases hfresh : stale report.now e.2 with
      | true =>
        rw [filter_some, hfresh]
        rfl
      | false =>
        rw [filter_some, hfresh]
        have hne : e.1 ≠ key := by
          rintro rfl
          rw [(hmem e.2).mpr ⟨hlatest, hfresh⟩] at hget
          cases hget
        exact (if_neg hne).symm

/-- Two newest reports about one group retract the same when the latest reports say the same. -/
theorem retractions_eq {left right : Strikes} {first second : StrikeReport} {uid₁ uid₂ : String}
    {marker₁ marker₂ : Marker} (hfirst : readStrike S first = .marked key uid₁ marker₁)
    (hsecond : readStrike S second = .marked key uid₂ marker₂)
    (hnewest₁ : Newest left first) (hnewest₂ : Newest right second)
    (hcomplete₁ : Complete left) (hcomplete₂ : Complete right)
    (hheld₁ : Held (strikeStep S left first)) (hheld₂ : Held (strikeStep S right second))
    (hcurrent : ∀ uid, current (strikeStep S left first).seen first.now uid =
      current (strikeStep S right second).seen second.now uid) :
    (observeStrike S left.groups first).1 = (observeStrike S right.groups second).1 := by
  have hranked := ranked_timeless fun uid =>
    ((group_eq_current hfirst hnewest₁ hcomplete₁ hheld₁ uid).trans (by rw [hcurrent])).trans
      (group_eq_current hsecond hnewest₂ hcomplete₂ hheld₂ uid).symm
  rw [observeStrike, hfirst, observeStrike, hsecond]
  exact (merge_timeless _).trans ((by rw [hranked] : _ = _).trans (merge_timeless _).symm)

theorem held_final {reports : List StrikeReport}
    (h : Runs.Guarded (strikeStep S) (fun s r => Alone S s r ∧ Numbered S s r) Strikes.init
      (reports ++ [report])) :
    Held (strikeStep S (Runs.final (strikeStep S) Strikes.init reports) report) := by
  have hheld := (always_held_iff.mpr (h.imp fun _ _ hreport => hreport.1)).last
  rwa [Runs.final_append] at hheld

/-- Along every run: a uid is in the group of its latest report only, exactly when no report finds
its uid in another group; with uncertainties that are numbers, what is retracted is near what is
kept; and when both hold, what the newest report retracts depends on the latest reports only. -/
theorem strikes_merged (S : StrikeText) :
    (∀ reports, Runs.Always (strikeStep S) Held Strikes.init reports ↔
      Runs.Guarded (strikeStep S) (Alone S) Strikes.init reports) ∧
    (∀ reports, Runs.Guarded (strikeStep S) (Numbered S) Strikes.init reports →
      Runs.Guarded (strikeStep S) (Merged S) Strikes.init reports) ∧
    ∀ (left right : List StrikeReport) (first second : StrikeReport) (key : GroupKey)
      (uid₁ uid₂ : String) (marker₁ marker₂ : Marker),
      readStrike S first = .marked key uid₁ marker₁ →
      readStrike S second = .marked key uid₂ marker₂ →
      Runs.Guarded (strikeStep S) (fun s r => Alone S s r ∧ Numbered S s r) Strikes.init
        (left ++ [first]) →
      Runs.Guarded (strikeStep S) (fun s r => Alone S s r ∧ Numbered S s r) Strikes.init
        (right ++ [second]) →
      Newest (Runs.final (strikeStep S) Strikes.init left) first →
      Newest (Runs.final (strikeStep S) Strikes.init right) second →
      (∀ uid,
        current (Runs.final (strikeStep S) Strikes.init (left ++ [first])).seen first.now uid =
          current (Runs.final (strikeStep S) Strikes.init (right ++ [second])).seen second.now
            uid) →
      (observeStrike S (Runs.final (strikeStep S) Strikes.init left).groups first).1 =
        (observeStrike S (Runs.final (strikeStep S) Strikes.init right).groups second).1 := by
  have hcomplete : ∀ reports, Complete (Runs.final (strikeStep S) Strikes.init reports) :=
    fun reports => Runs.final_of_step (fun _ _ => complete_step) complete_init
  refine ⟨fun reports => always_held_iff, fun reports hnumbered => ?_, ?_⟩
  · exact hnumbered.imp fun s report _ => merged_step s report
  · intro left right first second key uid₁ uid₂ marker₁ marker₂ hfirst hsecond hleft hright
      hnewest₁ hnewest₂ hcurrent
    rw [Runs.final_append, Runs.final_append] at hcurrent
    exact retractions_eq hfirst hsecond hnewest₁ hnewest₂ (hcomplete left) (hcomplete right)
      (held_final hleft) (held_final hright) hcurrent

/-! ## A corrected day -/

/-- Dates that are written out, and markers that are near when they are at one place. -/
def plainStrikes : StrikeText where
  toPyText := asciiText
  toFloat
    | .int n => some (.finite n)
    | _ => none
  day track _ :=
    match track.field "event_date" with
    | .str day => some day
    | _ => none
  near a b := decide (a = b)

/-- A strike at one place. -/
def strikeAt (uid day : String) (uncertainty : Int) (now : Rat) : StrikeReport where
  track := ((((PyDict.empty.set "uid" (.str uid)).set "event_date" (.str day)).set "lat_deg"
    (.int 48)).set "lon_deg" (.int 37)).set "position_uncertainty_m" (.int uncertainty)
  now := now
  topic := "O/land/geoconfirmed/event/hostile/" ++ uid
  clock := now

/-- The day of A is corrected, and B is reported for the day that A had. -/
def corrected : List StrikeReport :=
  [strikeAt "A" "1970-01-01" 100 0, strikeAt "A" "1970-01-02" 100 10]

/-- A is held under both days, and B is retracted next to it.  When A comes with the right day at
once, the latest reports are the same, and B stays. -/
theorem corrected_day_retracts :
    ¬ Runs.Always (strikeStep plainStrikes) Held Strikes.init corrected ∧
    (observeStrike plainStrikes
        (Runs.final (strikeStep plainStrikes) Strikes.init corrected).groups
        (strikeAt "B" "1970-01-01" 200 20)).1 =
      [("B", "O/land/geoconfirmed/event/hostile/B", "strike")] ∧
    (observeStrike plainStrikes
        (Runs.final (strikeStep plainStrikes) Strikes.init corrected.tail).groups
        (strikeAt "B" "1970-01-01" 200 20)).1 = [] ∧
    ∀ uid, latest (Runs.final (strikeStep plainStrikes) Strikes.init corrected).seen uid =
      latest (Runs.final (strikeStep plainStrikes) Strikes.init corrected.tail).seen uid := by
  have hfirst : readStrike plainStrikes (strikeAt "A" "1970-01-01" 100 0) = .marked
      ("hostile", "1970-01-01") "A" ⟨0, .finite 48, .finite 37, .finite 100,
        "O/land/geoconfirmed/event/hostile/A", "strike"⟩ := by decide +kernel
  have hsecond : readStrike plainStrikes (strikeAt "A" "1970-01-02" 100 10) = .marked
      ("hostile", "1970-01-02") "A" ⟨10, .finite 48, .finite 37, .finite 100,
        "O/land/geoconfirmed/event/hostile/A", "strike"⟩ := by decide +kernel
  refine ⟨fun h => ?_, by decide +kernel, by decide +kernel, fun uid => ?_⟩
  · have hmember : ((Runs.final (strikeStep plainStrikes) Strikes.init corrected).groups.get?
        ("hostile", "1970-01-01")).bind (fun group => group.get? "A") =
          some ⟨0, .finite 48, .finite 37, .finite 100, "O/land/geoconfirmed/event/hostile/A",
            "strike"⟩ := by decide +kernel
    obtain ⟨group, hgroup, hm⟩ := Option.bind_eq_some_iff.mp hmember
    have hlatest := h.last ("hostile", "1970-01-01") group "A" _ hgroup hm
    exact absurd hlatest (by decide +kernel)
  · show latest (strikeStep plainStrikes (strikeStep plainStrikes Strikes.init _) _).seen uid =
      latest (strikeStep plainStrikes Strikes.init _).seen uid
    rw [latest_marked hsecond, latest_marked hsecond, latest_marked hfirst]
    split
    next => rfl
    next => rfl

/-- Two reports of one attack, in either order. -/
theorem strikes_merged_either :
    (observeStrike plainStrikes (Runs.final (strikeStep plainStrikes) Strikes.init
        [strikeAt "A" "1970-01-01" 100 0]).groups (strikeAt "B" "1970-01-01" 200 10)).1 =
      (observeStrike plainStrikes (Runs.final (strikeStep plainStrikes) Strikes.init
        [strikeAt "B" "1970-01-01" 200 0]).groups (strikeAt "A" "1970-01-01" 100 10)).1 := by
  have hfirst : readStrike plainStrikes (strikeAt "B" "1970-01-01" 200 10) = .marked
      ("hostile", "1970-01-01") "B" ⟨10, .finite 48, .finite 37, .finite 200,
        "O/land/geoconfirmed/event/hostile/B", "strike"⟩ := by decide +kernel
  have hsecond : readStrike plainStrikes (strikeAt "A" "1970-01-01" 100 10) = .marked
      ("hostile", "1970-01-01") "A" ⟨10, .finite 48, .finite 37, .finite 100,
        "O/land/geoconfirmed/event/hostile/A", "strike"⟩ := by decide +kernel
  have hbefore₁ : readStrike plainStrikes (strikeAt "A" "1970-01-01" 100 0) = .marked
      ("hostile", "1970-01-01") "A" ⟨0, .finite 48, .finite 37, .finite 100,
        "O/land/geoconfirmed/event/hostile/A", "strike"⟩ := by decide +kernel
  have hbefore₂ : readStrike plainStrikes (strikeAt "B" "1970-01-01" 200 0) = .marked
      ("hostile", "1970-01-01") "B" ⟨0, .finite 48, .finite 37, .finite 200,
        "O/land/geoconfirmed/event/hostile/B", "strike"⟩ := by decide +kernel
  refine (strikes_merged plainStrikes).2.2 [_] [_] _ _ _ "B" "A" _ _ hfirst hsecond
    (by decide +kernel) (by decide +kernel) ?_ ?_ fun uid => ?_
  · intro e he
    rw [List.mem_singleton.mp he]
    decide +kernel
  · intro e he
    rw [List.mem_singleton.mp he]
    decide +kernel
  · show current (strikeStep plainStrikes (strikeStep plainStrikes Strikes.init _) _).seen _ uid =
      current (strikeStep plainStrikes (strikeStep plainStrikes Strikes.init _) _).seen _ uid
    rw [current, current, latest_marked hfirst, latest_marked hsecond, latest_marked hbefore₁,
      latest_marked hbefore₂]
    by_cases hA : "A" = uid
    · rw [if_pos hA, if_pos hA, if_neg (by rw [← hA]; decide)]
      decide +kernel
    · by_cases hB : "B" = uid
      · rw [if_pos hB, if_pos hB, if_neg hA]
        decide +kernel
      · rw [if_neg hA, if_neg hA, if_neg hB, if_neg hB]
        rfl

end Efdi.Tracks

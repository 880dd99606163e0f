import Efdi.Alerts.CommunityTracks

/-!
# Region crossings

`threat_tracks` makes a track of each threat that can be published, and a trail behind it.
`region_crossings` compares the region of each threat with that of the poll before, and keeps the
regions of this one.  A failed poll is passed on as one without threats, so it empties the memory,
and a move that it comes between raises nothing.

Of a track stand here the fields that `region_crossings` reads, and the geometry that marks a
trail.  `english` is what `alert_sources` makes of a text; nothing of it is used.
-/

namespace Efdi.Alerts

open List

/-! ## Threats -/

/-- A track of NEPTUN.  An empty region is left out of it. -/
structure ThreatTrack where
  uid : String
  type : String
  region : String
  count : Option Int
  latDeg : PyJson
  lonDeg : PyJson
  geometry : Option (List (PyFloat × PyFloat))
deriving DecidableEq

section

variable (py : PyBuiltins) (english : PyJson → String) (topicRoot : String) (maxAge : Rat)

/-- `_KIND`. -/
def threatKind (kind : String) : String × String :=
  match kind with
  | "uav" | "fpv" | "recon" => ("hostile", "uav")
  | "missile" | "ballistic" => ("hostile", "missile")
  | "kab" => ("hostile", "bomb")
  | "mig31k" => ("hostile", "aircraft")
  | _ => ("unknown", "aircraft")

/-- `_count`. -/
def threatCount (t : PyJson) : Except PyError Int :=
  match py.int ((t.getNull "count").or (.int 1)) with
  | .ok n => .ok n
  | .error .typeError | .error .valueError => .ok 1
  | .error raised => .error raised

/-- `(t.get("type") or "").lower()`. -/
def lowerType (t : PyJson) : Except PyError String :=
  match (t.getNull "type").or (.str "") with
  | .str s => .ok (PyStr.lower s)
  | _ => .error .attributeError

/-- `round(float(value), 5)`. -/
def rounded (value : PyJson) : Except PyError PyFloat := (py.float value).map (py.round · 5)

/-- A point of a trail, which is skipped when it has no position. -/
def trailPoint (p : PyJson) : Except PyError (Option (PyFloat × PyFloat)) :=
  match p.get? "lon", p.get? "lat" with
  | some lon, some lat =>
    match rounded py lon, rounded py lat with
    | .ok lon, .ok lat => .ok (some (lon, lat))
    | .error .overflowError, _ | .ok _, .error .overflowError => .error .overflowError
    | _, _ => .ok none
  | some lon, none =>
    match rounded py lon with
    | .error .overflowError => .error .overflowError
    | _ => .ok none
  | none, _ => .ok none

/-- `if not points or points[-1] != point: points.append(point)`. -/
def addPoint (points : List (PyFloat × PyFloat)) (point : PyFloat × PyFloat) :
    List (PyFloat × PyFloat) :=
  match points.getLast? with
  | none => [point]
  | some last => if last.1.eq point.1 && last.2.eq point.2 then points else points ++ [point]

/-- `(t.get("trail") or [])[-TRAIL_MAX_POINTS:]`.  A character of a text is no point. -/
def lastPoints (t : PyJson) : Except PyError (List PyJson) :=
  match (t.getNull "trail").or (.list []) with
  | .list xs => .ok (xs.drop (xs.length - 12))
  | .str _ => .ok []
  | _ => .error .typeError

/-- `_trail_track`. -/
def trailTrack (t : PyJson) (track : ThreatTrack) : Except PyError (Option ThreatTrack) := do
  let reported ← lastPoints t
  let points ← reported.foldlM
    (fun points p => (trailPoint py p).map fun point => (point.map (addPoint points)).getD points)
    []
  let lon ← rounded py track.lonDeg
  let lat ← rounded py track.latDeg
  let points := addPoint points (lon, lat)
  if points.length < 2 then .ok none
  else
    .ok (some
      { uid := track.uid ++ "-TRAIL", type := "trail", region := "", count := none
        latDeg := track.latDeg, lonDeg := track.lonDeg, geometry := some points })

/-- `TRAIL_PREFIX`. -/
def trailPrefix : String := topicRoot ++ "/air/neptun/trail/line"

/-- A threat that `threat_tracks` skips whatever its age. -/
def skipped (t : PyJson) : Bool :=
  !(t.getNull "id").truthy || t.getNull "lat" = .null || t.getNull "lon" = .null ||
    (t.getNull "areaOnly").truthy || t.getNull "status" ≠ .str "active"

/-- One round of `threat_tracks`. -/
def addThreat (now : Rat) (out : List (String × ThreatTrack)) (t : PyJson) :
    Except PyError (List (String × ThreatTrack)) :=
  if !t.isDict then .error .attributeError
  else do
    let kind ← lowerType t
    if skipped t then .ok out
    else
      let observed ← epoch py (t.getNull "updatedAt")
      if observed.any fun observed => decide (maxAge < max 0 (now - observed)) then .ok out
      else
        let count ← threatCount py t
        let track : ThreatTrack :=
          { uid := "NEPTUN-" ++ py.str (t.getNull "id")
            type := if kind = "" then "unknown" else kind
            region := english (t.getNull "region"), count := if 1 < count then some count else none
            latDeg := t.getNull "lat", lonDeg := t.getNull "lon", geometry := none }
        let trail ← trailTrack py t track
        let (affiliation, entity) := threatKind kind
        .ok (out ++ (topicRoot ++ "/air/neptun/" ++ affiliation ++ "/" ++ entity, track) ::
          (trail.map (trailPrefix topicRoot, ·)).toList)

/-- `threat_tracks`. -/
def threatTracks (data : PyJson) (now : Rat) : Except PyError (List (String × ThreatTrack)) :=
  if !data.isDict then .error .attributeError
  else do
    let threats ← ((data.getNull "threats").or (.list [])).iter
    threats.foldlM (addThreat py english topicRoot maxAge now) []

/-! ## Crossings -/

/-- A `drone_crossing` event. -/
structure Crossing where
  ts : Rat
  uid : String
  kind : String
  count : Int
  origin : String
  destination : String
  lat : PyJson
  lon : PyJson
deriving DecidableEq

/-- One round of `region_crossings`: the events and `seen` so far. -/
def crossingRound (state : PyDict String String) (now : Rat)
    (found : List Crossing × PyDict String String) (track : ThreatTrack) :
    List Crossing × PyDict String String :=
  if track.geometry.isSome || track.region = "" || track.uid = "" then found
  else
    let events := match state.get? track.uid with
      | none => []
      | some before =>
        if before = "" ∨ before = track.region then []
        else
          [{ ts := now, uid := track.uid, kind := track.type, count := track.count.getD 1
             origin := before, destination := track.region
             lat := track.latDeg, lon := track.lonDeg }]
    (found.1 ++ events, found.2.set track.uid track.region)

/-- `region_crossings`, with the state that it leaves. -/
def regionCrossings (state : PyDict String String) (tracks : List ThreatTrack) (now : Rat) :
    List Crossing × PyDict String String :=
  tracks.foldl (crossingRound state now) ([], .empty)

/-- A poll of the threats: the clock of the tracks, that of the events, and what was fetched. -/
structure ThreatPoll where
  now : Rat
  later : Rat
  fetched : Option PyJson

/-- `fetch_threats() or {}`. -/
def ThreatPoll.data (poll : ThreatPoll) : PyJson := (poll.fetched.getD .null).or (.dict [])

/-- What `main` does with a poll. -/
def pollThreats (state : PyDict String String) (poll : ThreatPoll) :
    Except PyError (List Crossing × PyDict String String) :=
  (threatTracks py english topicRoot maxAge poll.data poll.now).map fun tracks =>
    regionCrossings state (tracks.map Prod.snd) poll.later

/-- The events of a run of polls. -/
def pollAll : PyDict String String → List ThreatPoll → Except PyError (List Crossing)
  | _, [] => .ok []
  | state, poll :: polls => do
      let (events, state) ← pollThreats py english topicRoot maxAge state poll
      let later ← pollAll state polls
      .ok (events ++ later)

end

/-! ## The crossings of one threat -/

section

variable {state : PyDict String String} {uid : String}

/-- The tracks of a threat that `region_crossings` looks at. -/
def markersOf (uid : String) (tracks : List ThreatTrack) : List ThreatTrack :=
  tracks.filter fun track => track.geometry.isNone && track.uid = uid

/-- The moves that events of a threat tell of. -/
def movesOf (uid : String) (events : List Crossing) : List (String × String) :=
  (events.filter fun event => event.uid = uid).map fun event => (event.origin, event.destination)

/-- A move from the region before, when there is one. -/
def move : Option String → String → List (String × String)
  | none, _ => []
  | some before, region => if before = region then [] else [(before, region)]

theorem movesOf_append (uid : String) (events later : List Crossing) :
    movesOf uid (events ++ later) = movesOf uid events ++ movesOf uid later := by
  rw [movesOf, filter_append, map_append, movesOf, movesOf]

/-- A round that is about no track of the threat leaves what is found of it. -/
theorem crossingRound_of_other (state : PyDict String String) (now : Rat)
    (found : List Crossing × PyDict String String) {track : ThreatTrack}
    (h : ¬ (track.geometry.isNone && track.uid = uid) = true) :
    movesOf uid (crossingRound state now found track).1 = movesOf uid found.1 ∧
      (crossingRound state now found track).2.get? uid = found.2.get? uid := by
  rw [crossingRound]
  split
  next _ => exact ⟨rfl, rfl⟩
  next hskip =>
    have hother : track.uid ≠ uid := by
      rintro rfl
      simp_all
    refine ⟨?_, PyDict.get?_set_of_ne (d := found.2) (Ne.symm hother) _⟩
    rw [movesOf_append]
    split
    next _ => exact append_nil _
    next before _ =>
      split
      next _ => exact append_nil _
      next _ => simp [movesOf, hother]

/-- The round of the threat's track tells its move and keeps its region. -/
theorem crossingRound_of_marker (now : Rat) (found : List Crossing × PyDict String String)
    {track : ThreatTrack} (hstate : state.get? uid ≠ some "") (huid : uid ≠ "")
    (hregion : track.region ≠ "") (h : (track.geometry.isNone && track.uid = uid) = true) :
    movesOf uid (crossingRound state now found track).1 =
        movesOf uid found.1 ++ move (state.get? uid) track.region ∧
      (crossingRound state now found track).2.get? uid = some track.region := by
  rw [Bool.and_eq_true, decide_eq_true_iff] at h
  obtain ⟨hgeometry, rfl⟩ := h
  have hread : ¬ (track.geometry.isSome || decide (track.region = "") ||
      decide (track.uid = "")) = true := by
    simp_all
  rw [crossingRound, if_neg hread]
  refine ⟨?_, PyDict.get?_set_self (d := found.2) _ _⟩
  rw [movesOf_append]
  congr 1
  cases hbefore : state.get? track.uid with
  | none => rfl
  | some before =>
    have hfull : before ≠ "" := fun hempty => hstate (by rw [hbefore, hempty])
    dsimp only
    rw [move]
    by_cases hsame : before = track.region
    · rw [if_pos (Or.inr hsame), if_pos hsame]
      rfl
    · rw [if_neg (not_or.mpr ⟨hfull, hsame⟩), if_neg hsame]
      simp [movesOf]

theorem foldl_crossingRound_of_others (state : PyDict String String) (now : Rat)
    {tracks : List ThreatTrack}
    (h : ∀ track ∈ tracks, ¬ (track.geometry.isNone && track.uid = uid) = true)
    (found : List Crossing × PyDict String String) :
    movesOf uid (tracks.foldl (crossingRound state now) found).1 = movesOf uid found.1 ∧
      (tracks.foldl (crossingRound state now) found).2.get? uid = found.2.get? uid := by
  induction tracks generalizing found with
  | nil => exact ⟨rfl, rfl⟩
  | cons track tracks ih =>
    obtain ⟨htrack, hrest⟩ := forall_mem_cons.mp h
    obtain ⟨hmoves, hseen⟩ := crossingRound_of_other state now found htrack
    obtain ⟨hlater, hlast⟩ := ih hrest (crossingRound state now found track)
    exact ⟨hlater.trans hmoves, hlast.trans hseen⟩

/-- A poll that lists a threat once tells its move since the state was left. -/
theorem regionCrossings_of_listed (now : Rat) {tracks : List ThreatTrack} {track : ThreatTrack}
    (hstate : state.get? uid ≠ some "") (huid : uid ≠ "") (hregion : track.region ≠ "")
    (hlisted : markersOf uid tracks = [track]) :
    movesOf uid (regionCrossings state tracks now).1 = move (state.get? uid) track.region ∧
      (regionCrossings state tracks now).2.get? uid = some track.region := by
  obtain ⟨before, after, rfl, hbefore, htrack, hafter⟩ := filter_eq_cons_iff.mp hlisted
  rw [regionCrossings, foldl_append, foldl_cons]
  obtain ⟨hmoves, -⟩ := foldl_crossingRound_of_others state now hbefore ([], .empty)
  obtain ⟨hmove, hseen⟩ := crossingRound_of_marker now
    (before.foldl (crossingRound state now) ([], .empty)) hstate huid hregion htrack
  obtain ⟨hlater, hlast⟩ := foldl_crossingRound_of_others state now
    (filter_eq_nil_iff.mp hafter)
    (crossingRound state now (before.foldl (crossingRound state now) ([], .empty)) track)
  rw [hlater, hlast, hmove, hmoves]
  exact ⟨rfl, hseen⟩

end

/-! ## Runs -/

section

variable {py : PyBuiltins} {english : PyJson → String} {topicRoot : String} {maxAge : Rat}

/-- The poll lists the threat, once, with a region. -/
def ThreatPoll.Lists (py : PyBuiltins) (english : PyJson → String) (topicRoot : String)
    (maxAge : Rat) (poll : ThreatPoll) (uid region : String) : Prop :=
  region ≠ "" ∧ ∃ tracks track,
    threatTracks py english topicRoot maxAge poll.data poll.now = .ok tracks ∧
      markersOf uid (tracks.map Prod.snd) = [track] ∧ track.region = region

/-- What the polls say of a threat: nothing of it when the fetch failed, and its region else. -/
inductive Follows (py : PyBuiltins) (english : PyJson → String) (topicRoot : String)
    (maxAge : Rat) (uid : String) : List ThreatPoll → List (Option String) → Prop where
  | nil : Follows py english topicRoot maxAge uid [] []
  | failed {poll : ThreatPoll} {polls : List ThreatPoll} {regions : List (Option String)}
      (hfailed : poll.fetched = none)
      (hrest : Follows py english topicRoot maxAge uid polls regions) :
      Follows py english topicRoot maxAge uid (poll :: polls) (none :: regions)
  | listed {poll : ThreatPoll} {polls : List ThreatPoll} {region : String}
      {regions : List (Option String)} {data : PyJson} (hdata : poll.fetched = some data)
      (hlists : poll.Lists py english topicRoot maxAge uid region)
      (hrest : Follows py english topicRoot maxAge uid polls regions) :
      Follows py english topicRoot maxAge uid (poll :: polls) (some region :: regions)

/-- The changes between regions that follow each other. -/
def changes : List String → List (String × String)
  | before :: region :: regions =>
    if before = region then changes (region :: regions)
    else (before, region) :: changes (region :: regions)
  | _ => []

/-- The moves between polls that follow each other, with the region before them. -/
def movesSeen : Option String → List (Option String) → List (String × String)
  | _, [] => []
  | _, none :: regions => movesSeen none regions
  | before, some region :: regions => move before region ++ movesSeen (some region) regions

/-- Every successful poll that comes after a failed one gives the region that the last successful
one gave, read off the polls in order. -/
def SameAfterFailure : Bool → Option String → List (Option String) → Prop
  | _, _, [] => True
  | _, last, none :: regions => SameAfterFailure true last regions
  | failed, last, some region :: regions =>
    (failed = true → ∀ before, last = some before → before = region) ∧
      SameAfterFailure false (some region) regions

theorem pollThreats_of_failed {state : PyDict String String} {poll : ThreatPoll}
    (h : poll.fetched = none) :
    pollThreats py english topicRoot maxAge state poll = .ok ([], .empty) := by
  rw [pollThreats, ThreatPoll.data, h]
  rfl

theorem pollAll_cons {state after : PyDict String String} {poll : ThreatPoll}
    {polls : List ThreatPoll} {events later : List Crossing}
    (h : pollThreats py english topicRoot maxAge state poll = .ok (events, after))
    (hlater : pollAll py english topicRoot maxAge after polls = .ok later) :
    pollAll py english topicRoot maxAge state (poll :: polls) = .ok (events ++ later) := by
  rw [pollAll, h]
  show (do let later ← pollAll py english topicRoot maxAge after polls; _) = _
  rw [hlater]
  rfl

/-- The events of a run are the moves between polls that follow each other. -/
theorem movesOf_pollAll {uid : String} (huid : uid ≠ "") {polls : List ThreatPoll}
    {regions : List (Option String)} (h : Follows py english topicRoot maxAge uid polls regions)
    {state : PyDict String String} (hstate : state.get? uid ≠ some "") :
    ∃ events, pollAll py english topicRoot maxAge state polls = .ok events ∧
      movesOf uid events = movesSeen (state.get? uid) regions := by
  induction h generalizing state with
  | nil => exact ⟨[], rfl, rfl⟩
  | failed hfailed _ ih =>
    have hempty : PyDict.empty.get? uid ≠ some "" := fun h => nomatch h
    obtain ⟨events, hevents, hmoves⟩ := ih hempty
    exact ⟨events, pollAll_cons (pollThreats_of_failed hfailed) hevents, hmoves⟩
  | @listed poll polls region regions data hdata hlists hrest ih =>
    obtain ⟨hregion, tracks, track, htracks, hmarker, rfl⟩ := hlists
    obtain ⟨hmove, hseen⟩ := regionCrossings_of_listed poll.later hstate huid hregion hmarker
    have hfull :
        (regionCrossings state (tracks.map Prod.snd) poll.later).2.get? uid ≠ some "" := by
      rw [hseen]
      exact fun h => hregion (Option.some.inj h)
    obtain ⟨events, hevents, hmoves⟩ := ih hfull
    have hpoll : pollThreats py english topicRoot maxAge state poll =
        .ok (regionCrossings state (tracks.map Prod.snd) poll.later) := by
      rw [pollThreats, htracks]
      rfl
    refine ⟨(regionCrossings state (tracks.map Prod.snd) poll.later).1 ++ events,
      pollAll_cons hpoll hevents, ?_⟩
    rw [movesOf_append, hmove, hmoves, hseen, movesSeen]

end

/-! ## Moves across a failed poll -/

theorem changes_toList_cons (last : Option String) (region : String) (regions : List String) :
    changes (last.toList ++ region :: regions) =
      move last region ++ changes (region :: regions) := by
  cases last with
  | none => rfl
  | some before =>
    show changes (before :: region :: regions) = _
    rw [changes, move]
    split
    next _ => rfl
    next _ => rfl

/-- Memory that a failed poll empties tells no more moves than there are. -/
theorem length_movesSeen_le : ∀ (failed : Bool) (last : Option String)
    (regions : List (Option String)),
      (movesSeen (if failed then none else last) regions).length ≤
        (changes (last.toList ++ regions.filterMap id)).length
  | _, last, [] => by simp [movesSeen]
  | failed, last, none :: regions => by
    have ih := length_movesSeen_le true last regions
    rw [movesSeen, filterMap_cons_none rfl]
    exact ih
  | failed, last, some region :: regions => by
    have ih := length_movesSeen_le false (some region) regions
    rw [movesSeen, filterMap_cons_some (f := id) (a := some region) rfl,
      changes_toList_cons, length_append, length_append]
    refine Nat.add_le_add ?_ ih
    cases failed with
    | false => exact Nat.le_refl _
    | true => exact Nat.zero_le _

/-- Such memory tells all moves when no failed poll stands in one. -/
theorem movesSeen_eq_iff : ∀ (failed : Bool) (last : Option String)
    (regions : List (Option String)),
      movesSeen (if failed then none else last) regions =
          changes (last.toList ++ regions.filterMap id) ↔ SameAfterFailure failed last regions
  | _, last, [] => by
    cases last <;> simp [movesSeen, changes, SameAfterFailure]
  | failed, last, none :: regions => by
    have ih := movesSeen_eq_iff true last regions
    rw [movesSeen, filterMap_cons_none rfl, SameAfterFailure]
    exact ih
  | failed, last, some region :: regions => by
    have ih := movesSeen_eq_iff false (some region) regions
    have hle := length_movesSeen_le false (some region) regions
    rw [movesSeen, filterMap_cons_some (f := id) (a := some region) rfl,
      changes_toList_cons, SameAfterFailure]
    cases failed with
    | false =>
      rw [and_iff_right (fun h => absurd h Bool.false_ne_true), ← ih]
      exact append_right_inj _
    | true =>
      rw [forall_prop_of_true rfl]
      cases last with
      | none =>
        rw [and_iff_right (fun _ h => nomatch h), ← ih]
        rfl
      | some before =>
        by_cases hsame : before = region
        · have hstays : move (some before) region = [] := if_pos hsame
          rw [hsame] at hstays
          rw [hsame, and_iff_right (fun _ h => (Option.some.inj h).symm), ← ih, hstays]
          rfl
        · refine iff_of_false (fun heq => ?_) (fun h => hsame (h.1 before rfl))
          have hlengths := congrArg length heq
          rw [length_append, length_append, move, if_neg hsame] at hlengths
          have hfewer : (movesSeen (some region) regions).length ≤
              (changes (region :: regions.filterMap id)).length := hle
          simp only [if_pos, move, length_nil, length_singleton] at hlengths
          omega

section

variable {py : PyBuiltins} {english : PyJson → String} {topicRoot : String} {maxAge : Rat}

theorem neptunUid_ne_empty (threat : String) : "NEPTUN-" ++ threat ≠ "" := by
  intro h
  have hlist := congrArg String.toList h
  simp at hlist

/-- The crossing events of a threat that every successful poll lists are its moves between
successful polls, in order, when no failed poll stands in a move. -/
theorem crossings_iff_sameAfterFailure (threat : String) {polls : List ThreatPoll}
    {regions : List (Option String)}
    (h : Follows py english topicRoot maxAge ("NEPTUN-" ++ threat) polls regions) :
    ∃ events, pollAll py english topicRoot maxAge .empty polls = .ok events ∧
      (movesOf ("NEPTUN-" ++ threat) events = changes (regions.filterMap id) ↔
        SameAfterFailure false none regions) := by
  have hempty : PyDict.empty.get? ("NEPTUN-" ++ threat) ≠ some "" := fun h => nomatch h
  obtain ⟨events, hevents, hmoves⟩ := movesOf_pollAll (neptunUid_ne_empty threat) h hempty
  refine ⟨events, hevents, ?_⟩
  rw [hmoves]
  exact movesSeen_eq_iff false none regions

end

/-! ## A move that a failed poll hides -/

/-- `english` on the names of regions below. -/
def someEnglish (value : PyJson) : String :=
  match value with
  | .str "Сумська область" => "Sumska Oblast"
  | .str "Полтавська область" => "Poltavska Oblast"
  | _ => ""

/-- A poll that lists one threat in a region. -/
def threatIn (region : String) : ThreatPoll where
  now := 1767225600
  later := 1767225600
  fetched := some (.dict [("threats", .list [.dict [("id", .str "7"), ("type", .str "uav"),
    ("lat", .int 50), ("lon", .int 34), ("status", .str "active"), ("region", .str region)]])])

def failedPoll : ThreatPoll where
  now := 1767225610
  later := 1767225610
  fetched := none

theorem threatIn_lists (region : String) (h : someEnglish (.str region) ≠ "") :
    (threatIn region).Lists .plain someEnglish "lt" 900 "NEPTUN-7"
      (someEnglish (.str region)) :=
  ⟨h, _, _, rfl, rfl, rfl⟩

theorem crossings_of_sumy_poltava :
    ∃ events, pollAll .plain someEnglish "lt" 900 .empty
        [threatIn "Сумська область", failedPoll, threatIn "Сумська область",
          threatIn "Полтавська область"] = .ok events ∧
      (movesOf "NEPTUN-7" events = [("Sumska Oblast", "Poltavska Oblast")] ↔
        SameAfterFailure false none
          [some "Sumska Oblast", none, some "Sumska Oblast", some "Poltavska Oblast"]) :=
  crossings_iff_sameAfterFailure "7"
    (.listed rfl (threatIn_lists "Сумська область" (by decide))
      (.failed rfl
        (.listed rfl (threatIn_lists "Сумська область" (by decide))
          (.listed rfl (threatIn_lists "Полтавська область" (by decide)) .nil))))

/-- A poll fails between two that list the threat in two regions, and no event is put. -/
theorem move_hidden :
    Follows .plain someEnglish "lt" 900 "NEPTUN-7"
        [threatIn "Сумська область", failedPoll, threatIn "Полтавська область"]
        [some "Sumska Oblast", none, some "Poltavska Oblast"] ∧
      pollAll .plain someEnglish "lt" 900 .empty
        [threatIn "Сумська область", failedPoll, threatIn "Полтавська область"] = .ok [] ∧
      movesOf "NEPTUN-7" [] ≠ changes ["Sumska Oblast", "Poltavska Oblast"] :=
  ⟨.listed rfl (threatIn_lists "Сумська область" (by decide))
      (.failed rfl (.listed rfl (threatIn_lists "Полтавська область" (by decide)) .nil)),
    rfl, by decide⟩

end Efdi.Alerts

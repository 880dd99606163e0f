import Efdi.Base.Representatives
import Efdi.Base.Runs
import Efdi.Tracks.ObjectKeys

/-!
# Handoff between radars

The part of `TrackFuser` that gives a target without a transponder one identity across radars.
`_radar_tracks` holds the live tracks and `_radar_primary` sends a uid to the uid under which
it goes out.  `report` is `on_radar` under its lock, and `ageOut` is `_age_out`, which `on_radar`
calls before.

The distances and ages are floats and are a parameter (`Kinematics`).  A report whose fields have
the wrong type raises, and what was written before stays written.
-/

namespace Efdi.Tracks

/-- `track.get(key)`. -/
def Track.field (track : Track) (key : String) : PyJson := (track.get? key).getD .null

/-- `bool(value)`. -/
def truthy : PyJson → Bool
  | .null => false
  | .bool b => b
  | .int n => n != 0
  | .float (.finite x) => x != 0
  | .float _ => true
  | .str s => s != ""
  | .list xs => !xs.isEmpty
  | .dict items => !items.isEmpty

/-- The number that a value is. -/
def number? : PyJson → Option Rat
  | .int n => some n
  | .bool b => some (if b then 1 else 0)
  | .float (.finite x) => some x
  | _ => none

/-- What the bridge does with floats and with nested values. -/
structure Kinematics where
  /-- A result of `time.time()`. -/
  Time : Type
  /-- A distance in nautical miles. -/
  Distance : Type
  /-- `now - ts > _MAX_AGE_S`. -/
  expired : Time → Time → Bool
  /-- `_HANDOFF_NM`. -/
  handoff : Distance
  /-- The distance of a report at `now` to another track of `ts`, moved on to `now`, when it is
  below the best so far and the headings agree.  Values that are no numbers raise. -/
  closer : Track → Track → Time → Time → Distance → Except Unit (Option Distance)
  /-- `a == b` for lists, dicts and floats that are not finite. -/
  eq : PyJson → PyJson → Bool

variable (py : PyText) (K : Kinematics)

/-- `a == b`. -/
def pyEq : PyJson → PyJson → Bool
  | .str s, .str t => s == t
  | .null, .null => true
  | .str _, _ => false
  | _, .str _ => false
  | .null, _ => false
  | _, .null => false
  | a, b =>
    match number? a, number? b with
    | some x, some y => x == y
    | none, none => K.eq a b
    | _, _ => false

/-- `_uid_of`. -/
def uidOf (track : Track) : String :=
  match (["icao24", "uid", "track_num", "radar_id", "mmsi"].filterMap track.get?).find? truthy with
  | some value => pyStr py value
  | none => "unknown"

/-- `str(track.get(key) or default)`. -/
def textOr (track : Track) (key default : String) : String :=
  if truthy (track.field key) then pyStr py (track.field key) else default

/-- `track.get("icao24", "").strip()` does not raise. -/
def icaoText (track : Track) : Bool :=
  match track.get? "icao24" with
  | none => true
  | some (.str _) => true
  | some _ => false

/-- A track with a stable id of its own. -/
def modeS (track : Track) : Bool := truthy (track.field "icao24")

/-- An entry of `_radar_tracks`. -/
structure RadarEntry where
  track : Track
  ts : K.Time

/-- The state of the handoff. -/
structure Fuser where
  /-- `_radar_tracks`. -/
  tracks : PyDict String (RadarEntry K)
  /-- `_radar_primary`. -/
  primary : PyDict String String

variable {K}

def Fuser.init : Fuser K := ⟨PyDict.empty, PyDict.empty⟩

variable (K)

/-! ## Association -/

/-- Both tracks come from one radar. -/
def sameRadar (report other : Track) : Bool :=
  pyEq K (other.field "sac") (report.field "sac") && pyEq K (other.field "sic") (report.field "sic")

/-- The loop of `_cross_radar_associate` over the other tracks: the primary of the closest one
that matches.  `none` when a value raises. -/
def search (primary : PyDict String String) (track : Track) (uid : String) (now : K.Time) :
    List (String × RadarEntry K) → K.Distance → Option String → Option (Option String)
  | [], _, best => some best
  | (otherUid, entry) :: entries, bestD, best =>
    if otherUid = uid || sameRadar K track entry.track || modeS entry.track ||
        K.expired now entry.ts then
      search primary track uid now entries bestD best
    else
      match K.closer track entry.track now entry.ts bestD with
      | .error _ => none
      | .ok none => search primary track uid now entries bestD best
      | .ok (some d) =>
        search primary track uid now entries d
          (some ((primary.get? otherUid).getD otherUid))

/-- `value is None`. -/
def isNone : PyJson → Bool
  | .null => true
  | _ => false

/-- The position of a report is known. -/
def positioned (track : Track) : Bool :=
  !isNone (track.field "lat_deg") && !isNone (track.field "lon_deg")

/-- `best_primary` for a report, `none` when a value raises. -/
def bestPrimary (s : Fuser K) (track : Track) (uid : String) (now : K.Time) :
    Option (Option String) :=
  if positioned track then search K s.primary track uid now s.tracks.entries K.handoff none
  else some none

/-- `_cross_radar_associate`: the map after it and the uid to publish under. -/
def associate (s : Fuser K) (track : Track) (uid : String) (now : K.Time) :
    Option (PyDict String String × String) :=
  if modeS track then some (s.primary, uid)
  else
    (bestPrimary K s track uid now).map fun best =>
      let primary :=
        match best with
        | some p => s.primary.set uid p
        | none => s.primary.setDefault uid uid
      (primary, (primary.get? uid).getD uid)

/-- A track with the radar id of the track under whose uid it goes out. -/
def borrowRadarId (tracks : PyDict String (RadarEntry K)) (track : Track)
    (uid primaryUid : String) : Track :=
  if primaryUid = uid then track
  else
    match tracks.get? primaryUid with
    | some entry =>
      if truthy (entry.track.field "radar_id") then
        track.set "radar_id" (entry.track.field "radar_id")
      else track
    | none => track

/-- `on_radar` from its lock on, and the track that it hands to `_fuse_and_publish`. -/
def report (s : Fuser K) (now : K.Time) (track : Track) : Fuser K × Option Track :=
  let uid := uidOf py track
  let inserted : Fuser K := { s with tracks := s.tracks.set uid ⟨track, now⟩ }
  if icaoText track then
    match associate K inserted track uid now with
    | some (primary, primaryUid) =>
      ({ inserted with primary := primary },
        some (borrowRadarId K inserted.tracks track uid primaryUid))
    | none => (inserted, none)
  else (inserted, none)

/-! ## Age -/

/-- The first track that stays and goes out under `k`. -/
def heir? (stale : List String) (tracks : PyDict String (RadarEntry K))
    (primary : PyDict String String) (k : String) : Option String :=
  (primary.entries.find? fun e =>
    e.2 = k && !stale.contains e.1 && tracks.contains e.1).map Prod.fst

/-- Handoff promotion when `k` leaves. -/
def promote (stale : List String) (tracks : PyDict String (RadarEntry K))
    (primary : PyDict String String) (k : String) : PyDict String String :=
  if primary.get? k = some k then
    match heir? K stale tracks primary k with
    | some heir =>
      if heir = "" then primary
      else (primary.map fun p => if p = k then heir else p).set heir heir
    | none => primary
  else primary

/-- The loop of `_age_out` over the stale tracks. -/
def retire (stale : List String) : List String → Fuser K → Fuser K
  | [], s => s
  | k :: ks, s =>
    match s.tracks.get? k with
    | some entry =>
      let tracks := s.tracks.pop k
      if icaoText entry.track then
        retire stale ks ⟨tracks, (promote K stale tracks s.primary k).pop k⟩
      else { s with tracks := tracks }
    | none => s

/-- `_age_out`. -/
def ageOut (s : Fuser K) (now : K.Time) : Fuser K :=
  let stale := (s.tracks.entries.filter fun e => K.expired now e.2.ts).map Prod.fst
  retire K stale stale s

/-- What happens to the fusion bridge. -/
inductive RadarEvent where
  | report (now : K.Time) (track : Track)
  | ageOut (now : K.Time)

/-- A report to `on_radar`: stale tracks leave before it takes the lock. -/
def onRadar (before now : K.Time) (track : Track) : List (RadarEvent K) :=
  [.ageOut before, .report now track]

def radarStep (s : Fuser K) : RadarEvent K → Fuser K
  | .report now track => (report py K s now track).1
  | .ageOut now => ageOut K s now

/-! ## The uid of a track -/

variable {py K}

theorem toString_ne (n : Int) : toString n ≠ "" := by
  intro hempty
  have hlist := congrArg String.toList hempty
  cases n with
  | ofNat n =>
    have hdigits : (Nat.repr n).toList = [] := hlist
    rw [Nat.repr, String.toList_ofList] at hdigits
    exact Nat.toDigits_ne_nil hdigits
  | negSucc n =>
    have hsign : ("-" ++ Nat.repr (n + 1)).toList = [] := hlist
    rw [String.toList_append] at hsign
    exact absurd (List.append_eq_nil_iff.mp hsign).1 (by decide)

theorem pyStr_ne {value : PyJson} (h : truthy value = true) : pyStr py value ≠ "" := by
  cases value with
  | null => cases h
  | bool b => cases b <;> simp [pyStr]
  | int n => exact toString_ne n
  | float x => exact py.str_ne _
  | str s => exact bne_iff_ne.mp h
  | list xs => exact py.str_ne _
  | dict items => exact py.str_ne _

theorem uidOf_ne (track : Track) : uidOf py track ≠ "" := by
  rw [uidOf]
  split
  next value hvalue => exact pyStr_ne (List.find?_some hvalue)
  next => decide

end Efdi.Tracks

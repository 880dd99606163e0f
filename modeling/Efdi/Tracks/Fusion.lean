import Efdi.Tracks.Handoff
import Mathlib.Data.String.Basic

/-!
# Radar and ADS-B

The fusion bridge keeps the radar tracks and the ADS-B tracks of the last minute, each under its
uid.  Three indexes lead to them: `_radar_by_icao` and `_adsb_by_icao` by the address, in small
letters, and `_adsb_by_squawk` by the code that an aircraft sends.  A radar track is matched by its
address, by its code and its height, or by its position, and an ADS-B track is published on its own
when no radar track has its address.

The radar side is that of the handoff, which the indexes do not change (`fuser_fusionRun`).
-/

namespace Efdi.Tracks

/-- A value as the key of a dict. -/
inductive HashKey where
  | null
  | number (x : Rat)
  | infinity (negative : Bool)
  | text (s : String)
deriving DecidableEq

/-- The key that a value is.  Lists and dicts are no keys, and `nan`, which is equal to no key, is
not one either. -/
def hashKey : PyJson → Option HashKey
  | .null => some .null
  | .bool b => some (.number (if b then 1 else 0))
  | .int n => some (.number n)
  | .float (.finite x) => some (.number x)
  | .float (.infinity negative) => some (.infinity negative)
  | .float .nan => none
  | .str s => some (.text s)
  | .list _ => none
  | .dict _ => none

/-- What the bridge does with times, heights and positions. -/
structure Matcher extends Kinematics where
  /-- One time is not after another. -/
  le : Time → Time → Prop
  le_refl : ∀ t, le t t
  le_trans : ∀ t u v, le t u → le u v → le t v
  /-- `now - ts >= _MAX_AGE_S`. -/
  aged : Time → Time → Bool
  /-- What is older expires earlier. -/
  expired_older : ∀ now ts ts', le ts ts' → expired now ts' = true → expired now ts = true
  aged_older : ∀ now ts ts', le ts ts' → aged now ts' = true → aged now ts = true
  /-- `abs(r_alt - a_alt) < 500`, which raises on values that are no numbers. -/
  level : PyJson → PyJson → Option Bool
  /-- `_SPATIAL_NM`. -/
  spatial : Distance
  /-- The distance of two tracks, when it is below the best so far.  Values that are no numbers
  raise. -/
  nearer : Track → Track → Distance → Except Unit (Option Distance)
  /-- `"spatial-{:.2f}NM".format(d)`. -/
  methodText : Distance → String

variable (py : PyText) (M : Matcher)

/-- The state of the fusion bridge. -/
structure Fusion where
  fuser : Fuser M.toKinematics
  /-- `_radar_by_icao`. -/
  radarByIcao : PyDict String String
  /-- `_adsb_tracks`. -/
  adsb : PyDict String (RadarEntry M.toKinematics)
  /-- `_adsb_by_icao`. -/
  adsbByIcao : PyDict String String
  /-- `_adsb_by_squawk`. -/
  adsbBySquawk : PyDict HashKey (List String)
  /-- The time of the last event. -/
  clock : M.Time

variable {M}

def Fusion.init (start : M.Time) : Fusion M :=
  ⟨Fuser.init, PyDict.empty, PyDict.empty, PyDict.empty, PyDict.empty, start⟩

/-! ## Addresses and codes -/

/-- `track.get("icao24", "").strip().lower()`, for a text. -/
def icaoKey (track : Track) : String :=
  match track.field "icao24" with
  | .str s => py.lower (PyStr.strip s)
  | _ => ""

/-- The codes that many aircraft send. -/
def commonSquawks : List String := ["0000", "7500", "7600", "7700"]

/-- `sq and sq not in (...)`. -/
def ownSquawk (value : PyJson) : Bool :=
  truthy value && match value with
    | .str s => !commonSquawks.contains s
    | _ => true

/-- The code under which a track is indexed. -/
def squawkOf (track : Track) : Option HashKey :=
  if ownSquawk (track.field "squawk") then hashKey (track.field "squawk") else none

/-! ## Reports -/

/-- `on_radar` from its lock on. -/
def radarReport (s : Fusion M) (now : M.Time) (track : Track) : Fusion M :=
  { s with
    fuser := (report py M.toKinematics s.fuser now track).1
    radarByIcao :=
      if icaoText track ∧ icaoKey py track ≠ "" then
        s.radarByIcao.set (icaoKey py track) (uidOf py track)
      else s.radarByIcao
    clock := now }

/-- Put a uid under a code. -/
def indexSquawk (bySquawk : PyDict HashKey (List String)) (uid : String) :
    Option HashKey → PyDict HashKey (List String)
  | none => bySquawk
  | some squawk =>
    let uids := (bySquawk.get? squawk).getD []
    bySquawk.set squawk (if uids.contains uid then uids else uids ++ [uid])

/-- `on_adsb` from its lock on.  An address that is no text raises, with the track stored. -/
def adsbReport (s : Fusion M) (now : M.Time) (track : Track) : Fusion M :=
  { s with
    adsb := s.adsb.set (uidOf py track) ⟨track, now⟩
    adsbByIcao :=
      if icaoText track ∧ icaoKey py track ≠ "" then
        s.adsbByIcao.set (icaoKey py track) (uidOf py track)
      else s.adsbByIcao
    adsbBySquawk :=
      if icaoText track then indexSquawk s.adsbBySquawk (uidOf py track) (squawkOf track)
      else s.adsbBySquawk
    clock := now }

/-- A code can be looked up. -/
def hashable (track : Track) : Bool := (hashKey (track.field "squawk")).isSome

/-- Whether `on_adsb` publishes a track on its own, `none` when it raises. -/
def fallback (s : Fusion M) (track : Track) : Option Bool :=
  if icaoText track && (!ownSquawk (track.field "squawk") || hashable track) then
    some (!(icaoKey py track ≠ "" && s.radarByIcao.contains (icaoKey py track)))
  else none

/-! ## Age -/

/-- A stale radar track leaves. -/
def forgetRadar (stale : List String) (s : Fusion M) (k : String) (track : Track) : Fusion M :=
  { s with
    fuser := ⟨s.fuser.tracks.pop k,
      (promote M.toKinematics stale (s.fuser.tracks.pop k) s.fuser.primary k).pop k⟩
    radarByIcao :=
      if icaoKey py track ≠ "" ∧ s.radarByIcao.get? (icaoKey py track) = some k then
        s.radarByIcao.pop (icaoKey py track)
      else s.radarByIcao }

/-- The loop of `_age_out` over the stale radar tracks, and whether it comes to its end. -/
def retireRadar (stale : List String) : List String → Fusion M → Fusion M × Bool
  | [], s => (s, true)
  | k :: ks, s =>
    match s.fuser.tracks.get? k with
    | some entry =>
      if icaoText entry.track then retireRadar stale ks (forgetRadar py stale s k entry.track)
      else ({ s with fuser := { s.fuser with tracks := s.fuser.tracks.pop k } }, false)
    | none => (s, false)

/-- Take a uid from under a code. -/
def dropSquawk (bySquawk : PyDict HashKey (List String)) (uid : String) :
    Option HashKey → PyDict HashKey (List String)
  | none => bySquawk
  | some squawk =>
    match bySquawk.get? squawk with
    | none => bySquawk
    | some uids => bySquawk.set squawk (uids.erase uid)

/-- A stale ADS-B track leaves.  What raises leaves the rest of the indexes as it was. -/
def forgetAdsb (s : Fusion M) (k : String) (track : Track) : Fusion M :=
  { s with
    adsb := s.adsb.pop k
    adsbByIcao := if icaoText track then s.adsbByIcao.pop (icaoKey py track) else s.adsbByIcao
    adsbBySquawk :=
      if icaoText track then dropSquawk s.adsbBySquawk k (hashKey (track.field "squawk"))
      else s.adsbBySquawk }

/-- The loop of `_age_out` over the stale ADS-B tracks. -/
def retireAdsb : List String → Fusion M → Fusion M
  | [], s => s
  | k :: ks, s =>
    match s.adsb.get? k with
    | some entry =>
      if icaoText entry.track && hashable entry.track then
        retireAdsb ks (forgetAdsb py s k entry.track)
      else forgetAdsb py s k entry.track
    | none => s

/-- The uids of the tracks that are stale. -/
def staleUids (tracks : PyDict String (RadarEntry M.toKinematics)) (now : M.Time) : List String :=
  (tracks.entries.filter fun e => M.expired now e.2.ts).map Prod.fst

/-- `_age_out`. -/
def ageOutFusion (s : Fusion M) (now : M.Time) : Fusion M :=
  let stale := staleUids s.fuser.tracks now
  let retired := retireRadar py stale stale { s with clock := now }
  if retired.2 then retireAdsb py (staleUids s.adsb now) retired.1 else retired.1

/-- What happens to the fusion bridge. -/
inductive FusionEvent (M : Matcher) where
  | radar (now : M.Time) (track : Track)
  | adsb (now : M.Time) (track : Track)
  | ageOut (now : M.Time)

/-- A report to `on_radar`: stale tracks leave before it takes the lock. -/
def onRadarTrack (before now : M.Time) (track : Track) : List (FusionEvent M) :=
  [.ageOut before, .radar now track]

/-- A report to `on_adsb`, likewise. -/
def onAdsbTrack (before now : M.Time) (track : Track) : List (FusionEvent M) :=
  [.ageOut before, .adsb now track]

def FusionEvent.time : FusionEvent M → M.Time
  | .radar now _ => now
  | .adsb now _ => now
  | .ageOut now => now

def fusionStep (s : Fusion M) : FusionEvent M → Fusion M
  | .radar now track => radarReport py s now track
  | .adsb now track => adsbReport py s now track
  | .ageOut now => ageOutFusion py s now

/-! ## Matching -/

/-- A match, and how it was found. -/
inductive Found where
  | exact (uid : String) (track : Track)
  | squawk (uid : String) (track : Track)
  | spatial (track : Track)
deriving DecidableEq

/-- The match by address. -/
def exactMatch (s : Fusion M) (radar : Track) (now : M.Time) : Option (String × Track) := do
  guard (icaoKey py radar ≠ "")
  let uid ← s.adsbByIcao.get? (icaoKey py radar)
  guard (uid ≠ "")
  let entry ← s.adsb.get? uid
  guard (M.aged now entry.ts = false)
  return (uid, entry.track)

variable (M) in
/-- Two heights agree, or both are unknown. -/
def sameLevel (radar adsb : PyJson) : Option Bool :=
  if truthy radar && truthy adsb then M.level radar adsb else some (isNone radar && isNone adsb)

/-- The match by code, among some uids. -/
def squawkMatch (s : Fusion M) (radar : Track) (now : M.Time) :
    List String → Option (Option (String × Track))
  | [] => some none
  | uid :: uids =>
    match s.adsb.get? uid with
    | none => squawkMatch s radar now uids
    | some entry =>
      if M.aged now entry.ts then squawkMatch s radar now uids
      else
        match sameLevel M (radar.field "alt_baro_ft") (entry.track.field "alt_baro_ft") with
        | none => none
        | some true => some (some (uid, entry.track))
        | some false => squawkMatch s radar now uids

/-- The uids that have the code of a radar track, `none` when the code is no key. -/
def squawkUids (s : Fusion M) (radar : Track) : Option (List String) :=
  if ownSquawk (radar.field "squawk") then
    (hashKey (radar.field "squawk")).map fun squawk => (s.adsbBySquawk.get? squawk).getD []
  else some []

/-- The match by position, among some tracks. -/
def spatialMatch (radar : Track) (now : M.Time) :
    List (String × RadarEntry M.toKinematics) → M.Distance → Option Track → Option (Option Track)
  | [], d, best => some (best.map fun track => track.set "_fusion_method" (.str (M.methodText d)))
  | (_, entry) :: entries, d, best =>
    if M.aged now entry.ts || !positioned entry.track then spatialMatch radar now entries d best
    else
      match M.nearer radar entry.track d with
      | .error _ => none
      | .ok none => spatialMatch radar now entries d best
      | .ok (some d) => spatialMatch radar now entries d (some entry.track)

/-- `_find_match`, `none` when it raises. -/
def findMatch (s : Fusion M) (radar : Track) (now : M.Time) : Option (Option Found) :=
  if icaoText radar then
    match exactMatch py s radar now with
    | some (uid, track) => some (some (.exact uid track))
    | none => do
        let uids ← squawkUids s radar
        match ← squawkMatch s radar now uids with
        | some (uid, track) => return some (.squawk uid track)
        | none =>
          if positioned radar then
            return (← spatialMatch radar now s.adsb.entries M.spatial none).map .spatial
          else return none
  else none

/-! ## The radar side -/

variable {py} {s : Fusion M}

theorem fuser_retireRadar (stale : List String) : ∀ (ks : List String) (s : Fusion M),
    (retireRadar py stale ks s).1.fuser = retire M.toKinematics stale ks s.fuser
  | [], s => rfl
  | k :: ks, s => by
    rw [retireRadar, retire]
    cases s.fuser.tracks.get? k with
    | none => rfl
    | some entry =>
      cases htext : icaoText entry.track with
      | true =>
        simp only [htext, if_true]
        exact fuser_retireRadar stale ks _
      | false =>
        simp [htext]

/-- The radar side does not touch the ADS-B tracks and their indexes. -/
theorem retireRadar_frame (stale : List String) : ∀ (ks : List String) (s : Fusion M),
    (retireRadar py stale ks s).1.adsb = s.adsb ∧
      (retireRadar py stale ks s).1.adsbByIcao = s.adsbByIcao ∧
      (retireRadar py stale ks s).1.adsbBySquawk = s.adsbBySquawk ∧
      (retireRadar py stale ks s).1.clock = s.clock
  | [], s => ⟨rfl, rfl, rfl, rfl⟩
  | k :: ks, s => by
    rw [retireRadar]
    split
    next entry hentry =>
      split
      next => exact retireRadar_frame stale ks (forgetRadar py stale s k entry.track)
      next => exact ⟨rfl, rfl, rfl, rfl⟩
    next => exact ⟨rfl, rfl, rfl, rfl⟩

/-- The ADS-B side does not touch the radar tracks and their index. -/
theorem retireAdsb_frame : ∀ (ks : List String) (s : Fusion M),
    (retireAdsb py ks s).fuser = s.fuser ∧ (retireAdsb py ks s).radarByIcao = s.radarByIcao ∧
      (retireAdsb py ks s).clock = s.clock
  | [], s => ⟨rfl, rfl, rfl⟩
  | k :: ks, s => by
    rw [retireAdsb]
    split
    next entry hentry =>
      split
      next => exact retireAdsb_frame ks (forgetAdsb py s k entry.track)
      next => exact ⟨rfl, rfl, rfl⟩
    next => exact ⟨rfl, rfl, rfl⟩

/-- The event of the handoff that an event is, if any. -/
def FusionEvent.radarEvent : FusionEvent M → Option (RadarEvent M.toKinematics)
  | .radar now track => some (.report now track)
  | .adsb _ _ => none
  | .ageOut now => some (.ageOut now)

/-- The radar side is that of the handoff. -/
theorem fuser_fusionStep (s : Fusion M) (e : FusionEvent M) :
    (fusionStep py s e).fuser =
      match e.radarEvent with
      | some radar => radarStep py M.toKinematics s.fuser radar
      | none => s.fuser := by
  cases e with
  | radar now track => rfl
  | adsb now track => rfl
  | ageOut now =>
    show (ageOutFusion py s now).fuser = ageOut M.toKinematics s.fuser now
    rw [ageOutFusion, ageOut]
    split
    next => exact (retireAdsb_frame _ _).1.trans (fuser_retireRadar _ _ _)
    next => exact fuser_retireRadar _ _ _

end Efdi.Tracks

import Efdi.Tracks.Fusion
import Efdi.Tracks.HandoffRuns

/-!
# The index by code

A report puts the uid of an ADS-B track under its code, and `_age_out` takes it from under the
last code that the track had.  Nothing takes it from under the codes before: an aircraft that
changes its code is found under both, and stays under the first one when it is gone
(`changed_squawk_matches`).  As long as no report changes the code of a track that is kept, the
index is that of the tracks, and so are the matches (`squawks_sound`).
-/

namespace Efdi.Tracks

open List PyDict Option

variable {py : PyText} {M : Matcher}

/-! ## The uids under a code -/

/-- The uids under a code. -/
def listed (bySquawk : PyDict HashKey (List String)) (squawk : HashKey) : List String :=
  (bySquawk.get? squawk).getD []

theorem listed_set (bySquawk : PyDict HashKey (List String)) (key squawk : HashKey)
    (uids : List String) :
    listed (bySquawk.set key uids) squawk = if squawk = key then uids else listed bySquawk squawk := by
  by_cases hkey : squawk = key
  · rw [if_pos hkey, listed, hkey, get?_set_self]
    rfl
  · rw [if_neg hkey, listed, get?_set_of_ne _ hkey]
    rfl

variable {bySquawk : PyDict HashKey (List String)} {uid : String} {code : Option HashKey}
  {squawk : HashKey} {track : Track} {s : Fusion M} {now : M.Time}

/-- A uid comes under a code, and the others stay where they are. -/
theorem mem_indexSquawk {u : String} :
    u ∈ listed (indexSquawk bySquawk uid code) squawk ↔
      u ∈ listed bySquawk squawk ∨ (code = some squawk ∧ u = uid) := by
  cases code with
  | none =>
    constructor
    · exact Or.inl
    · rintro (hmem | ⟨hcode, -⟩)
      · exact hmem
      · cases hcode
  | some key =>
    rw [indexSquawk, listed_set]
    by_cases hkey : squawk = key
    · rw [if_pos hkey, hkey]
      show u ∈ (if (listed bySquawk key).contains uid then listed bySquawk key
        else listed bySquawk key ++ [uid]) ↔ u ∈ listed bySquawk key ∨ _
      split
      next hcontains =>
        constructor
        · exact Or.inl
        · rintro (hmem | ⟨-, rfl⟩)
          · exact hmem
          · exact contains_iff_mem.mp hcontains
      next =>
        rw [mem_append, mem_singleton]
        exact or_congr_right ⟨fun huid => ⟨rfl, huid⟩, fun h => h.2⟩
    · rw [if_neg hkey]
      constructor
      · exact Or.inl
      · rintro (hmem | ⟨hcode, -⟩)
        · exact hmem
        · exact absurd (some.inj hcode).symm hkey

theorem nodup_indexSquawk (h : ∀ squawk, (listed bySquawk squawk).Nodup) (squawk : HashKey) :
    (listed (indexSquawk bySquawk uid code) squawk).Nodup := by
  cases code with
  | none => exact h squawk
  | some key =>
    rw [indexSquawk, listed_set]
    split
    next =>
      show (if (listed bySquawk key).contains uid then listed bySquawk key
        else listed bySquawk key ++ [uid]).Nodup
      split
      next => exact h key
      next hcontains =>
        refine List.Nodup.append (h key) (nodup_singleton uid) ?_
        rw [disjoint_singleton]
        exact fun hmem => hcontains (contains_iff_mem.mpr hmem)
    next => exact h squawk

theorem listed_dropSquawk (squawk : HashKey) :
    listed (dropSquawk bySquawk uid code) squawk =
      if code = some squawk then (listed bySquawk squawk).erase uid
      else listed bySquawk squawk := by
  cases code with
  | none => rfl
  | some key =>
    rw [dropSquawk]
    cases hget : bySquawk.get? key with
    | none =>
      by_cases hkey : squawk = key
      · rw [if_pos (congrArg some hkey.symm), hkey, listed, hget]
        rfl
      · exact (if_neg fun hsome => hkey (some.inj hsome).symm).symm
    | some uids =>
      simp only [listed_set]
      by_cases hkey : squawk = key
      · rw [if_pos hkey, if_pos (congrArg some hkey.symm), hkey, listed, hget]
        rfl
      · rw [if_neg hkey, if_neg fun hsome => hkey (some.inj hsome).symm]

/-- A uid leaves a code, and the others stay where they are. -/
theorem mem_dropSquawk {u : String} (h : (listed bySquawk squawk).Nodup) :
    u ∈ listed (dropSquawk bySquawk uid code) squawk ↔
      u ∈ listed bySquawk squawk ∧ ¬ (code = some squawk ∧ u = uid) := by
  rw [listed_dropSquawk]
  split
  next hcode =>
    rw [h.mem_erase_iff]
    constructor
    · rintro ⟨hne, hmem⟩
      exact ⟨hmem, fun hboth => hne hboth.2⟩
    · rintro ⟨hmem, hnot⟩
      exact ⟨fun huid => hnot ⟨hcode, huid⟩, hmem⟩
  next hcode => exact ⟨fun hmem => ⟨hmem, fun hboth => hcode hboth.1⟩, fun h => h.1⟩

theorem nodup_dropSquawk (h : ∀ squawk, (listed bySquawk squawk).Nodup) (squawk : HashKey) :
    (listed (dropSquawk bySquawk uid code) squawk).Nodup := by
  rw [listed_dropSquawk]
  split
  next => exact (h squawk).erase uid
  next => exact h squawk

/-! ## The index of the tracks -/

/-- The uids under a code are those of the tracks that have it. -/
def SquawkIndexed (s : Fusion M) : Prop :=
  ∀ squawk uid, uid ∈ listed s.adsbBySquawk squawk ↔
    ∃ entry, s.adsb.get? uid = some entry ∧ squawkOf entry.track = some squawk

variable (py) in
/-- A match by code is one with a track that is not aged and has the code, and the index is that of
the tracks. -/
def SquawkSound (s : Fusion M) : Prop :=
  (∀ radar now uid track, findMatch py s radar now = some (some (.squawk uid track)) →
    ∃ entry squawk, s.adsb.get? uid = some entry ∧ entry.track = track ∧
      M.aged now entry.ts = false ∧ squawkOf track = some squawk ∧
        squawkOf radar = some squawk) ∧
  SquawkIndexed s

/-- A track can be indexed. -/
def Indexable (track : Track) : Prop := icaoText track = true ∧ hashable track = true

/-- A report can be indexed. -/
def IndexableReport (_ : Fusion M) : FusionEvent M → Prop
  | .adsb _ track => Indexable track
  | _ => True

variable (py) in
/-- A report changes the code of no track that is kept. -/
def KeepsSquawk (s : Fusion M) : FusionEvent M → Prop
  | .adsb _ track => ∀ entry ∈ s.adsb.get? (uidOf py track), ∀ squawk ∈ squawkOf entry.track,
      squawkOf track = some squawk
  | _ => True

/-- What holds between events. -/
structure SquawkInv (s : Fusion M) : Prop where
  indexed : SquawkIndexed s
  nodup : ∀ squawk, (listed s.adsbBySquawk squawk).Nodup
  indexable : ∀ uid entry, s.adsb.get? uid = some entry → Indexable entry.track

theorem squawkInv_init (start : M.Time) : SquawkInv (Fusion.init start) where
  indexed := fun _ _ => by
    constructor
    · intro h
      cases h
    · rintro ⟨entry, h, -⟩
      cases h
  nodup := fun _ => nodup_nil
  indexable := fun _ _ h => by cases h

theorem hashKey_of_squawkOf (h : squawkOf track = some squawk) :
    hashKey (track.field "squawk") = some squawk := by
  rw [squawkOf] at h
  split at h
  next => exact h
  next => cases h

theorem squawkOf_eq_of_hashable (h : ownSquawk (track.field "squawk") = true) :
    squawkOf track = hashKey (track.field "squawk") := if_pos h

/-! ## Events -/

/-- A report that can be indexed keeps the index exactly when it changes the code of no track. -/
theorem indexed_report_iff (h : SquawkInv s) (hindexable : Indexable track) :
    SquawkIndexed (adsbReport py s now track) ↔ KeepsSquawk py s (.adsb now track) := by
  have hmem : ∀ squawk u, u ∈ listed (adsbReport py s now track).adsbBySquawk squawk ↔
      u ∈ listed s.adsbBySquawk squawk ∨ (squawkOf track = some squawk ∧ u = uidOf py track) := by
    intro squawk u
    rw [adsbReport, if_pos hindexable.1]
    exact mem_indexSquawk
  have hself : (adsbReport py s now track).adsb.get? (uidOf py track) = some ⟨track, now⟩ :=
    get?_set_self _ _ _
  have hother : ∀ {u}, u ≠ uidOf py track →
      (adsbReport py s now track).adsb.get? u = s.adsb.get? u :=
    fun hu => get?_set_of_ne _ hu _
  constructor
  · intro hindexed entry hentry squawk hsquawk
    have hold := (h.indexed squawk (uidOf py track)).mpr ⟨entry, hentry, hsquawk⟩
    obtain ⟨entry', hentry', hsquawk'⟩ :=
      (hindexed squawk (uidOf py track)).mp ((hmem squawk _).mpr (Or.inl hold))
    rw [hself] at hentry'
    rwa [← some.inj hentry'] at hsquawk'
  · intro hkeeps squawk u
    rw [hmem, h.indexed]
    by_cases hu : u = uidOf py track
    · rw [hu, hself]
      constructor
      · rintro (⟨entry, hentry, hsquawk⟩ | ⟨hsquawk, -⟩)
        · exact ⟨_, rfl, hkeeps entry hentry squawk hsquawk⟩
        · exact ⟨_, rfl, hsquawk⟩
      · rintro ⟨entry, hentry, hsquawk⟩
        rw [← some.inj hentry] at hsquawk
        exact Or.inr ⟨hsquawk, rfl⟩
    · rw [hother hu]
      constructor
      · rintro (hentry | ⟨-, hboth⟩)
        · exact hentry
        · exact absurd hboth hu
      · exact Or.inl

theorem squawkInv_report (h : SquawkInv s) (hindexable : Indexable track)
    (hkeeps : KeepsSquawk py s (.adsb now track)) :
    SquawkInv (adsbReport py s now track) where
  indexed := (indexed_report_iff h hindexable).mpr hkeeps
  nodup := fun squawk => by
    rw [adsbReport, if_pos hindexable.1]
    exact nodup_indexSquawk h.nodup squawk
  indexable := forall_set h.indexable hindexable

theorem adsbBySquawk_forget {k : String} (h : icaoText track = true) :
    (forgetAdsb py s k track).adsbBySquawk =
      dropSquawk s.adsbBySquawk k (hashKey (track.field "squawk")) := if_pos h

/-- A stale track leaves its code. -/
theorem squawkInv_forget {k : String} {entry : RadarEntry M.toKinematics} (h : SquawkInv s)
    (hentry : s.adsb.get? k = some entry) :
    SquawkInv (forgetAdsb py s k entry.track) where
  indexed := fun squawk u => by
    rw [adsbBySquawk_forget (h.indexable k entry hentry).1, mem_dropSquawk (h.nodup squawk),
      h.indexed, forgetAdsb]
    by_cases hu : u = k
    · rw [hu, get?_pop_self]
      constructor
      · rintro ⟨⟨entry', hentry', hsquawk⟩, hnot⟩
        rw [hentry] at hentry'
        rw [← some.inj hentry'] at hsquawk
        exact absurd ⟨hashKey_of_squawkOf hsquawk, rfl⟩ hnot
      · rintro ⟨entry', hentry', -⟩
        cases hentry'
    · rw [get?_pop_of_ne _ hu]
      exact and_iff_left fun hboth => hu hboth.2
  nodup := fun squawk => by
    rw [adsbBySquawk_forget (h.indexable k entry hentry).1]
    exact nodup_dropSquawk h.nodup squawk
  indexable := fun u entry' hentry' => h.indexable u entry' (get?_of_get?_pop hentry')

theorem squawkInv_retireAdsb : ∀ {ks : List String} {s : Fusion M}, SquawkInv s →
    SquawkInv (retireAdsb py ks s)
  | [], s, h => h
  | k :: ks, s, h => by
    rw [retireAdsb]
    split
    next entry hentry =>
      split
      next => exact squawkInv_retireAdsb (squawkInv_forget h hentry)
      next => exact squawkInv_forget h hentry
    next => exact h

/-- What holds of the ADS-B side does not depend on the rest. -/
theorem SquawkInv.congr {t : Fusion M} (h : SquawkInv s) (hadsb : t.adsb = s.adsb)
    (hsquawk : t.adsbBySquawk = s.adsbBySquawk) : SquawkInv t where
  indexed := fun squawk uid => by
    rw [hsquawk, hadsb]
    exact h.indexed squawk uid
  nodup := fun squawk => by
    rw [hsquawk]
    exact h.nodup squawk
  indexable := fun uid entry hentry => h.indexable uid entry (hadsb ▸ hentry)

theorem squawkInv_ageOut (h : SquawkInv s) (now : M.Time) :
    SquawkInv (ageOutFusion py s now) := by
  obtain ⟨hadsb, -, hsquawk, -⟩ := @retireRadar_frame py M (staleUids s.fuser.tracks now)
    (staleUids s.fuser.tracks now) { s with clock := now }
  have hretired := h.congr hadsb hsquawk
  rw [ageOutFusion]
  split
  next => exact squawkInv_retireAdsb hretired
  next => exact hretired

/-! ## Matches -/

/-- A match by code is with a track under the code that is not aged. -/
theorem squawkMatch_some {radar : Track} : ∀ {uids : List String},
    squawkMatch s radar now uids = some (some (uid, track)) →
      uid ∈ uids ∧ ∃ entry, s.adsb.get? uid = some entry ∧ entry.track = track ∧
        M.aged now entry.ts = false
  | [], h => by cases h
  | u :: uids, h => by
    have hrest : squawkMatch s radar now uids = some (some (uid, track)) → _ := fun hmatch =>
      (squawkMatch_some hmatch).imp (mem_cons_of_mem u) id
    rw [squawkMatch] at h
    split at h
    next => exact hrest h
    next entry hentry =>
      split at h
      next => exact hrest h
      next haged =>
        split at h
        next => cases h
        next =>
          obtain ⟨rfl, rfl⟩ := Prod.mk.inj (some.inj (some.inj h))
          exact ⟨.head _, entry, hentry, rfl, Bool.eq_false_iff.mpr haged⟩
        next => exact hrest h

theorem squawk_of_findMatch {radar : Track}
    (h : findMatch py s radar now = some (some (.squawk uid track))) :
    ∃ uids, squawkUids s radar = some uids ∧
      squawkMatch s radar now uids = some (some (uid, track)) := by
  rw [findMatch] at h
  split at h
  next =>
    split at h
    next => cases h
    next =>
      obtain ⟨uids, huids, h⟩ := bind_eq_some_iff.mp h
      obtain ⟨found, hfound, h⟩ := bind_eq_some_iff.mp h
      refine ⟨uids, huids, ?_⟩
      split at h
      next uid' track' =>
        obtain ⟨rfl, rfl⟩ := Found.squawk.inj (some.inj (some.inj h))
        exact hfound
      next =>
        split at h
        next =>
          obtain ⟨best, -, h⟩ := bind_eq_some_iff.mp h
          cases best with
          | none => cases h
          | some best => cases h
        next => cases h
  next => cases h

/-- With the index of the tracks the matches by code are sound. -/
theorem squawkSound_of_indexed (h : SquawkIndexed s) : SquawkSound py s := by
  refine ⟨fun radar now uid track hfound => ?_, h⟩
  obtain ⟨uids, huids, hmatch⟩ := squawk_of_findMatch hfound
  obtain ⟨hmem, entry, hentry, rfl, haged⟩ := squawkMatch_some hmatch
  rw [squawkUids] at huids
  split at huids
  next hown =>
    obtain ⟨squawk, hsquawk, rfl⟩ := map_eq_some_iff.mp huids
    obtain ⟨entry', hentry', hcode⟩ := (h squawk uid).mp hmem
    rw [hentry] at hentry'
    rw [← some.inj hentry'] at hcode
    exact ⟨entry, squawk, hentry, rfl, haged, hcode, (squawkOf_eq_of_hashable hown).trans hsquawk⟩
  next =>
    rw [← some.inj huids] at hmem
    cases hmem

/-! ## Runs -/

theorem squawkInv_step {e : FusionEvent M} (h : SquawkInv s) (hindexable : IndexableReport s e)
    (hkeeps : KeepsSquawk py s e) :
    SquawkInv (fusionStep py s e) := by
  cases e with
  | radar now track => exact h.congr rfl rfl
  | adsb now track => exact squawkInv_report h hindexable hkeeps
  | ageOut now => exact squawkInv_ageOut h now

/-- An event keeps the matches sound exactly when it changes the code of no track. -/
theorem squawkSound_step_iff {e : FusionEvent M} (h : SquawkInv s)
    (hindexable : IndexableReport s e) :
    SquawkSound py (fusionStep py s e) ↔ KeepsSquawk py s e := by
  cases e with
  | radar now track => exact iff_of_true (squawkSound_of_indexed (h.congr rfl rfl).indexed) trivial
  | adsb now track =>
    constructor
    · exact fun hsound => (indexed_report_iff h hindexable).mp hsound.2
    · exact fun hkeeps => squawkSound_of_indexed (squawkInv_report h hindexable hkeeps).indexed
  | ageOut now =>
    exact iff_of_true (squawkSound_of_indexed (squawkInv_ageOut h now).indexed) trivial

/-- Along every run whose ADS-B reports can be indexed: the matches by code are sound and the index
is that of the tracks, exactly when no report changes the code of a track that is kept. -/
theorem squawks_sound (py : PyText) (M : Matcher) (start : M.Time) (events : List (FusionEvent M))
    (hindexable : Runs.Guarded (fusionStep py) IndexableReport (Fusion.init start) events) :
    Runs.Always (fusionStep py) (SquawkSound py) (Fusion.init start) events ↔
      Runs.Guarded (fusionStep py) (KeepsSquawk py) (Fusion.init start) events := by
  have hinit := squawkInv_init start
  rw [Runs.always_iff_guarded, and_iff_right (squawkSound_of_indexed hinit.indexed)]
  exact Runs.guarded_congr_of (P := SquawkInv) (fun _ _ hs he => squawkSound_step_iff hs he)
    (fun _ _ hs he hkeeps => squawkInv_step hs he hkeeps) hinit hindexable

/-! ## A code that changes -/

/-- Times in seconds, and tracks on a meridian. -/
def meridianMatcher : Matcher where
  toKinematics := meridian
  le a b := Int.le a b
  le_refl := Int.le_refl
  le_trans _ _ _ := Int.le_trans
  aged now ts := decide (60 ≤ Int.sub now ts)
  expired_older now ts ts' hle h := by
    have hlt : (60 : Int) < Int.sub now ts' := of_decide_eq_true h
    exact decide_eq_true (lt_of_lt_of_le hlt (Int.sub_le_sub_left hle now))
  aged_older now ts ts' hle h := by
    have hlt : (60 : Int) ≤ Int.sub now ts' := of_decide_eq_true h
    exact decide_eq_true (le_trans hlt (Int.sub_le_sub_left hle now))
  level a b :=
    match number? a, number? b with
    | some x, some y => some (decide (max (x - y) (y - x) < 500))
    | _, _ => none
  spatial := (2 : Rat)
  nearer track other best := meridian.closer track other (0 : Int) (0 : Int) best
  methodText _ := "spatial-NM"

/-- An aircraft with an address and a code. -/
def aircraft (icao24 squawk : String) : Track :=
  (PyDict.empty.set "icao24" (.str icao24)).set "squawk" (.str squawk)

/-- The bridge before anything was reported. -/
def noTracks : Fusion meridianMatcher := Fusion.init (0 : Int)

/-- A report to `on_adsb`, at once. -/
def adsbAt (now : Int) (track : Track) : List (FusionEvent meridianMatcher) :=
  onAdsbTrack now now track

/-- The code of an aircraft changes. -/
def changing : List (FusionEvent meridianMatcher) :=
  adsbAt 0 (aircraft "4ca2d1" "1234") ++ adsbAt 1 (aircraft "4ca2d1" "4321")

/-- A radar track with the code before is matched to the aircraft, and when the aircraft is gone
its uid is still under that code. -/
theorem changed_squawk_matches :
    Runs.Guarded (fusionStep asciiText) IndexableReport noTracks changing ∧
    findMatch asciiText (Runs.final (fusionStep asciiText) noTracks changing)
        (PyDict.empty.set "squawk" (.str "1234")) (2 : Int) =
      some (some (.squawk "4ca2d1" (aircraft "4ca2d1" "4321"))) ∧
    listed (ageOutFusion asciiText (Runs.final (fusionStep asciiText) noTracks changing)
        (100 : Int)).adsbBySquawk (.text "1234") = ["4ca2d1"] ∧
    ¬ Runs.Always (fusionStep asciiText) (SquawkSound asciiText) noTracks changing := by
  have hfound : findMatch asciiText (Runs.final (fusionStep asciiText) noTracks changing)
      (PyDict.empty.set "squawk" (.str "1234")) (2 : Int) =
        some (some (.squawk "4ca2d1" (aircraft "4ca2d1" "4321"))) := by decide +kernel
  have hindexable : Runs.Guarded (fusionStep asciiText) IndexableReport noTracks changing :=
    ⟨trivial, ⟨by decide +kernel, by decide +kernel⟩, trivial,
      ⟨by decide +kernel, by decide +kernel⟩, trivial⟩
  refine ⟨hindexable, hfound, by decide +kernel, fun h => ?_⟩
  obtain ⟨-, squawk, -, -, -, hadsb, hradar⟩ := h.last.1 _ _ _ _ hfound
  exact absurd (hadsb.trans hradar.symm) (by decide +kernel)

/-- An aircraft that keeps its code. -/
theorem squawks_sound_kept :
    Runs.Always (fusionStep asciiText) (SquawkSound asciiText) (Fusion.init (0 : Int))
        (adsbAt 0 (aircraft "4ca2d1" "1234")) ↔
      Runs.Guarded (fusionStep asciiText) (KeepsSquawk asciiText) (Fusion.init (0 : Int))
        (adsbAt 0 (aircraft "4ca2d1" "1234")) :=
  squawks_sound asciiText meridianMatcher (0 : Int) (adsbAt 0 (aircraft "4ca2d1" "1234"))
    ⟨trivial, ⟨by decide +kernel, by decide +kernel⟩, trivial⟩

end Efdi.Tracks

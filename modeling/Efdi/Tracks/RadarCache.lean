import Efdi.Asterix.Cat048
import Efdi.Tracks.HandoffRuns
import Efdi.Tracks.Neptun

/-!
# Plots of several radars in the cache

`_uid_of` takes the first identity of a track that is true as a Python value.  A plot of a
CAT-048 radar without a transponder address has a track number and a radar id, and the number
comes first.  Track numbers are given out by each radar, so the plots of two radars with one
number have one key, and each report overwrites the other's.  The number zero is false, and
then the key is the radar id.

A run keeps the latest plot of every radar and number in the cache exactly when no number but
zero is reported by a radar while the plot of another radar with that number is fresh
(`cached_iff`).
-/

namespace Efdi.Tracks

open Runs List PyDict

/-- What a plot is a plot of: a radar and its number for the target. -/
@[ext] structure Plot where
  sac : UInt8
  sic : UInt8
  trackNum : Fin 4096
deriving DecidableEq

/-- A track is a CAT-048 plot without an address and a uid of its own. -/
structure IsPlot (track : Track) (p : Plot) : Prop where
  icao24 : track.get? "icao24" = none
  uid : track.get? "uid" = none
  sac : track.get? "sac" = some (.int p.sac.toNat)
  sic : track.get? "sic" = some (.int p.sic.toNat)
  trackNum : track.get? "track_num" = some (.int p.trackNum)
  radarId : track.get? "radar_id" =
    some (.str (Asterix.radarId048 p.sac.toNat p.sic.toNat p.trackNum))

/-- The key of a plot. -/
def plotUid (p : Plot) : String :=
  if p.trackNum.val = 0 then Asterix.radarId048 p.sac.toNat p.sic.toNat 0
  else toString (p.trackNum.val : Int)

variable {py : PyText} {K : Kinematics} {track : Track} {p q : Plot}

theorem IsPlot.eq (hp : IsPlot track p) (hq : IsPlot track q) : p = q := by
  have hsac := hp.sac.symm.trans hq.sac
  have hsic := hp.sic.symm.trans hq.sic
  have hnum := hp.trackNum.symm.trans hq.trackNum
  simp only [Option.some.injEq, PyJson.int.injEq, Int.natCast_inj, UInt8.toNat_inj,
    Fin.val_inj] at hsac hsic hnum
  exact Plot.ext hsac hsic hnum

theorem radarId048_ne_empty (sac sic trackNum : Nat) :
    Asterix.radarId048 sac sic trackNum ≠ "" := by
  intro h
  have hlength := congrArg PyStr.len h
  rw [Asterix.radarId048, PyStr.len, String.toList_append, length_append] at hlength
  exact absurd hlength (by simp [PyStr.len])

theorem IsPlot.uidOf (h : IsPlot track p) : uidOf py track = plotUid p := by
  rw [Tracks.uidOf, plotUid]
  simp only [filterMap_cons, h.icao24, h.uid, h.trackNum, h.radarId]
  by_cases hzero : p.trackNum.val = 0
  · have hfalse : truthy (.int (p.trackNum.val : Int)) = false := by
      rw [hzero]
      rfl
    have htrue : truthy (.str (Asterix.radarId048 p.sac.toNat p.sic.toNat p.trackNum)) = true :=
      bne_iff_ne.mpr (radarId048_ne_empty _ _ _)
    rw [find?_cons_of_neg (by rw [hfalse]; exact Bool.false_ne_true),
      find?_cons_of_pos htrue, if_pos hzero, hzero]
    rfl
  · have htrue : truthy (.int (p.trackNum.val : Int)) = true := bne_iff_ne.mpr (by omega)
    rw [find?_cons_of_pos htrue, if_neg hzero]
    rfl

theorem dash_notMem_toString (n : Nat) : '-' ∉ (toString (n : Int)).toList := by
  rw [toList_toString_nat]
  intro hmem
  exact absurd (Nat.isDigit_of_mem_toDigits (by decide) (by decide) hmem) (by decide)

theorem dash_mem_radarId048 (sac sic trackNum : Nat) :
    '-' ∈ (Asterix.radarId048 sac sic trackNum).toList := by
  rw [Asterix.radarId048, String.toList_append]
  exact mem_append_left _ (by decide)

/-- Two plots have one key when they are of one target, or have one number other than zero. -/
theorem plotUid_eq_iff : plotUid p = plotUid q ↔
    p = q ∨ p.trackNum = q.trackNum ∧ p.trackNum.val ≠ 0 := by
  constructor
  · intro h
    rw [plotUid, plotUid] at h
    by_cases hp : p.trackNum.val = 0
    · by_cases hq : q.trackNum.val = 0
      · rw [if_pos hp, if_pos hq, Asterix.radarId048, Asterix.radarId048] at h
        obtain ⟨-, hsource⟩ := PyStr.append_inj rfl h
        have hnum : p.trackNum = q.trackNum := Fin.val_inj.mp (hp.trans hq.symm)
        obtain ⟨hradar, -⟩ := PyStr.append_inj
          (by rw [Asterix.len_sourceText, Asterix.len_sourceText]) hsource
        obtain ⟨hsac, hsic⟩ := Asterix.sourceText_inj hradar
        exact .inl (Plot.ext hsac hsic hnum)
      · rw [if_pos hp, if_neg hq] at h
        exact absurd (h ▸ dash_mem_radarId048 _ _ _) (dash_notMem_toString _)
    · by_cases hq : q.trackNum.val = 0
      · rw [if_neg hp, if_pos hq] at h
        exact absurd (h ▸ dash_mem_radarId048 _ _ _) (dash_notMem_toString _)
      · rw [if_neg hp, if_neg hq] at h
        exact .inr ⟨Fin.val_inj.mp (toString_nat_inj h), hp⟩
  · rintro (rfl | ⟨hnum, hne⟩)
    · rfl
    · rw [plotUid, plotUid, if_neg hne, if_neg (hnum ▸ hne), hnum]

/-! ## The cache -/

variable (K) in
/-- What happens to the cache: a plot is reported, or stale tracks leave.  `on_radar` is the
second and then the first. -/
inductive PlotEvent where
  | plot (now : K.Time) (p : Plot) (track : Track) (h : IsPlot track p)
  | ageOut (now : K.Time)

def PlotEvent.now : PlotEvent K → K.Time
  | .plot now _ _ _ => now
  | .ageOut now => now

/-- The event of the fusion bridge. -/
def PlotEvent.event : PlotEvent K → RadarEvent K
  | .plot now _ track _ => .report now track
  | .ageOut now => .ageOut now

variable (K) in
/-- The bridge, the time of the last event, and the latest report of every target. -/
structure Watched where
  fuser : Fuser K
  now : K.Time
  latest : Plot → Option (RadarEntry K)

def Watched.init (start : K.Time) : Watched K := ⟨Fuser.init, start, fun _ => none⟩

variable (py) in
def watchStep (s : Watched K) (e : PlotEvent K) : Watched K where
  fuser := radarStep py K s.fuser e.event
  now := e.now
  latest :=
    match e with
    | .plot now p track _ => fun q => if q = p then some ⟨track, now⟩ else s.latest q
    | .ageOut _ => s.latest

/-- Every target that was reported within the maximal age is in the cache, with its latest
track.  It is live, so `_cross_radar_associate` and `match_neptun` do not pass over it for its
age. -/
def Cached (s : Watched K) : Prop :=
  ∀ p entry, s.latest p = some entry → K.expired s.now entry.ts = false →
    ∃ uid, s.fuser.tracks.get? uid = some entry ∧
      LiveRadar s.fuser.tracks s.now uid entry.track

/-- No other radar reported the number of the plot within the maximal age, unless it is zero. -/
def OwnNumber (s : Watched K) : PlotEvent K → Prop
  | .plot now p _ _ => ∀ q entry, q ≠ p → q.trackNum = p.trackNum → p.trackNum.val ≠ 0 →
      s.latest q = some entry → K.expired now entry.ts = true
  | .ageOut _ => True

variable (K) in
/-- What `time.time()` promises: an order, and what has expired stays expired. -/
structure Clock where
  le : K.Time → K.Time → Prop
  expired_later : ∀ now now' ts, le now now' → K.expired now ts = true → K.expired now' ts = true

/-- Events come at times that do not decrease. -/
def InTime (C : Clock K) (s : Watched K) (e : PlotEvent K) : Prop := C.le s.now e.now

/-- What holds of the cache and the reports. -/
structure WatchInv (s : Watched K) : Prop where
  reported : ∀ p entry, s.latest p = some entry → IsPlot entry.track p
  keyed : ∀ uid entry, s.fuser.tracks.get? uid = some entry →
    ∃ p, IsPlot entry.track p ∧ uid = plotUid p

theorem IsPlot.icaoText (h : IsPlot track p) : icaoText track = true := by
  rw [Tracks.icaoText, h.icao24]

/-- The tracks that leave, when the address of each is a text. -/
theorem get?_retire {stale : List String} : ∀ {ks : List String} {s : Fuser K}, ks.Nodup →
    (∀ k ∈ ks, s.tracks.contains k = true) →
    (∀ u entry, s.tracks.get? u = some entry → icaoText entry.track = true) →
    ∀ u, (retire K stale ks s).tracks.get? u = if u ∈ ks then none else s.tracks.get? u
  | [], s, _, _, _, u => by rw [retire, if_neg List.not_mem_nil]
  | k :: ks, s, hnodup, hpresent, htext, u => by
    obtain ⟨hk, hnodup⟩ := nodup_cons.mp hnodup
    obtain ⟨entry, hentry⟩ := Option.isSome_iff_exists.mp (hpresent k mem_cons_self)
    rw [retire, hentry]
    simp only [if_pos (htext k entry hentry)]
    refine get?_of_pop_cons hk (get?_retire hnodup (fun l hl => ?_) fun v e he => ?_) u
    · have hne : l ≠ k := fun heq => hk (heq ▸ hl)
      rw [contains_pop, decide_eq_false hne]
      exact hpresent l (mem_cons_of_mem _ hl)
    · exact htext v e (get?_of_get?_pop he)

/-- `_age_out` keeps the tracks that are not expired. -/
theorem get?_ageOut {s : Fuser K} {now : K.Time} {uid : String} {entry : RadarEntry K}
    (htext : ∀ u entry, s.tracks.get? u = some entry → icaoText entry.track = true) :
    (ageOut K s now).tracks.get? uid = some entry ↔
      s.tracks.get? uid = some entry ∧ K.expired now entry.ts = false := by
  have hstale : ∀ u, u ∈ (s.tracks.entries.filter fun e => K.expired now e.2.ts).map Prod.fst ↔
      ∃ e, s.tracks.get? u = some e ∧ K.expired now e.ts = true := by
    intro u
    rw [mem_map]
    constructor
    · rintro ⟨e, he, rfl⟩
      obtain ⟨hmem, hexpired⟩ := mem_filter.mp he
      exact ⟨e.2, get?_eq_some_iff.mpr hmem, hexpired⟩
    · rintro ⟨e, he, hexpired⟩
      exact ⟨(u, e), mem_filter.mpr ⟨get?_eq_some_iff.mp he, hexpired⟩, rfl⟩
  rw [ageOut, get?_retire (s.tracks.nodup.sublist (filter_sublist.map _)) _ htext]
  · by_cases hexpired : ∃ e, s.tracks.get? uid = some e ∧ K.expired now e.ts = true
    · rw [if_pos ((hstale uid).mpr hexpired)]
      obtain ⟨e, he, hexpired⟩ := hexpired
      refine iff_of_false (fun h => by cases h) ?_
      rintro ⟨hentry, hlive⟩
      rw [he] at hentry
      rw [← Option.some.inj hentry, hexpired] at hlive
      cases hlive
    · rw [if_neg (mt (hstale uid).mp hexpired)]
      refine (and_iff_left_of_imp fun hentry => ?_).symm
      exact Bool.eq_false_iff.mpr fun h => hexpired ⟨entry, hentry, h⟩
  · intro k hk
    obtain ⟨e, he, -⟩ := (hstale k).mp hk
    exact contains_of_get? he

theorem reportedTracks_eq (s : Fuser K) (now : K.Time) (track : Track) :
    (report py K s now track).1.tracks = s.tracks.set (uidOf py track) ⟨track, now⟩ := by
  rw [report]
  split
  next =>
    split
    next => rfl
    next => rfl
  next => rfl

theorem watchInv_init (start : K.Time) : WatchInv (Watched.init start) where
  reported _ _ h := by cases h
  keyed _ _ h := by cases h

theorem WatchInv.text {s : Watched K} (h : WatchInv s) (uid : String) (entry : RadarEntry K)
    (hentry : s.fuser.tracks.get? uid = some entry) : Tracks.icaoText entry.track = true := by
  obtain ⟨p, hp, -⟩ := h.keyed uid entry hentry
  exact hp.icaoText

theorem WatchInv.step {s : Watched K} (h : WatchInv s) (e : PlotEvent K) :
    WatchInv (watchStep py s e) := by
  cases e with
  | ageOut now =>
    refine ⟨h.reported, fun uid entry hentry => ?_⟩
    exact h.keyed uid entry ((get?_ageOut h.text).mp hentry).1
  | plot now p track hplot =>
    refine ⟨fun q entry hlatest => ?_, fun uid entry hentry => ?_⟩
    · simp only [watchStep] at hlatest
      split at hlatest
      next heq =>
        rw [heq, ← Option.some.inj hlatest]
        exact hplot
      next => exact h.reported q entry hlatest
    · have hset : ((s.fuser.tracks.set (uidOf py track) ⟨track, now⟩).get? uid) = some entry := by
        rw [← reportedTracks_eq]
        exact hentry
      by_cases huid : uid = uidOf py track
      · rw [huid, get?_set_self] at hset
        rw [← Option.some.inj hset]
        exact ⟨p, hplot, huid.trans hplot.uidOf⟩
      · rw [get?_set_of_ne _ huid] at hset
        exact h.keyed uid entry hset

theorem cached_init (start : K.Time) : Cached (Watched.init start) := by
  intro p entry hlatest
  cases hlatest

/-- A step keeps the latest plots exactly when it does not overwrite a fresh one of another
radar. -/
theorem cached_step_iff {C : Clock K} {s : Watched K} {e : PlotEvent K} (hinv : WatchInv s)
    (hcached : Cached s) (hordered : InTime C s e) :
    Cached (watchStep py s e) ↔ OwnNumber s e := by
  have hfresh : ∀ ts, K.expired e.now ts = false → K.expired s.now ts = false := by
    intro ts hts
    cases hexpired : K.expired s.now ts with
    | false => rfl
    | true =>
      rw [C.expired_later _ _ ts hordered hexpired] at hts
      cases hts
  cases e with
  | ageOut now =>
    refine iff_of_true (fun p entry hlatest hlive => ?_) trivial
    obtain ⟨uid, hentry, -⟩ := hcached p entry hlatest (hfresh _ hlive)
    have hkept : (ageOut K s.fuser now).tracks.get? uid = some entry :=
      (get?_ageOut hinv.text).mpr ⟨hentry, hlive⟩
    exact ⟨uid, hkept, entry, hkept, rfl, hlive⟩
  | plot now p track hplot =>
    have htracks : ∀ uid, (watchStep py s (.plot now p track hplot)).fuser.tracks.get? uid =
        (s.fuser.tracks.set (plotUid p) ⟨track, now⟩).get? uid := by
      intro uid
      have huid : uidOf py track = plotUid p := hplot.uidOf
      rw [← huid, ← reportedTracks_eq]
      rfl
    constructor
    · intro h q entry hne hnum hzero hlatest
      -- The entry of the other radar is under the key that was just written.
      by_contra hexpired
      obtain ⟨uid, hentry, -⟩ := h q entry
        (show (if q = p then _ else s.latest q) = _ by rw [if_neg hne, hlatest])
        (Bool.not_eq_true _ ▸ hexpired)
      have hafter : WatchInv (watchStep py s (.plot now p track hplot)) := hinv.step _
      obtain ⟨q', hq', huid⟩ := hafter.keyed uid entry hentry
      have hsame : q' = q := hq'.eq (hinv.reported q entry hlatest)
      have hkey : uid = plotUid p := by
        rw [huid, hsame]
        exact plotUid_eq_iff.mpr (.inr ⟨hnum, by rw [hnum]; exact hzero⟩)
      rw [htracks, hkey, get?_set_self] at hentry
      have hq : IsPlot track q := by
        rw [← hsame]
        rw [← Option.some.inj hentry] at hq'
        exact hq'
      exact hne (hq.eq hplot)
    · intro hown q entry hlatest hlive
      by_cases hq : q = p
      · have hentry : (watchStep py s (.plot now p track hplot)).fuser.tracks.get? (plotUid p) =
            some entry := by
          rw [htracks, get?_set_self, ← hlatest]
          exact (if_pos hq).symm
        exact ⟨plotUid p, hentry, entry, hentry, rfl, hlive⟩
      · have hold : s.latest q = some entry := by
          rw [← hlatest]
          exact (if_neg hq).symm
        obtain ⟨uid, hentry, -⟩ := hcached q entry hold (hfresh _ hlive)
        obtain ⟨q', hq', huid⟩ := hinv.keyed uid entry hentry
        have hsame : q' = q := hq'.eq (hinv.reported q entry hold)
        have hkey : uid ≠ plotUid p := by
          intro heq
          rw [huid, hsame] at heq
          rcases plotUid_eq_iff.mp heq with heq | ⟨hnum, hzero⟩
          · exact hq heq
          · have hexpired := hown q entry hq hnum (by rw [← hnum]; exact hzero) hold
            exact Bool.false_ne_true (hlive.symm.trans hexpired)
        have hkept : (watchStep py s (.plot now p track hplot)).fuser.tracks.get? uid =
            some entry := by
          rw [htracks, get?_set_of_ne _ hkey, hentry]
        exact ⟨uid, hkept, entry, hkept, rfl, hlive⟩

/-- All along a run at times that do not decrease, the cache holds the latest plot of every
target reported within the maximal age, exactly when no plot with a number other than zero is
reported while the plot of another radar with that number is fresh. -/
theorem cached_iff (py : PyText) (K : Kinematics) (C : Clock K) (start : K.Time)
    (es : List (PlotEvent K)) (hordered : Guarded (watchStep py) (InTime C) (Watched.init start) es) :
    Always (watchStep py) Cached (Watched.init start) es ↔
      Guarded (watchStep py) OwnNumber (Watched.init start) es := by
  rw [always_iff_guarded, and_iff_right (cached_init start)]
  exact guarded_congr_of (P := fun s => WatchInv s ∧ Cached s)
    (fun s e hs hordered => cached_step_iff hs.1 hs.2 hordered)
    (fun s e hs hordered hown =>
      ⟨hs.1.step e, (cached_step_iff hs.1 hs.2 hordered).mpr hown⟩)
    ⟨watchInv_init start, cached_init start⟩ hordered

/-! ## Two radars with one number -/

/-- A plot of a radar, as its decoder makes it. -/
def plotTrack (p : Plot) : Track :=
  (((PyDict.empty.set "sac" (.int p.sac.toNat)).set "sic" (.int p.sic.toNat)).set "track_num"
    (.int p.trackNum)).set "radar_id"
      (.str (Asterix.radarId048 p.sac.toNat p.sic.toNat p.trackNum))

theorem isPlot_plotTrack (p : Plot) : IsPlot (plotTrack p) p where
  icao24 := rfl
  uid := rfl
  sac := rfl
  sic := rfl
  trackNum := rfl
  radarId := rfl

def seconds : Clock meridian where
  le := fun now now' : Int => now ≤ now'
  expired_later := fun (now now' ts : Int) (hle : now ≤ now') h => by
    have hold : now - ts > 60 := of_decide_eq_true h
    exact decide_eq_true (show now' - ts > 60 by omega)

/-- A radar reports a target. -/
def seen (now : Int) (p : Plot) : PlotEvent meridian :=
  .plot now p (plotTrack p) (isPlot_plotTrack p)

/-- Two radars report different numbers and zero, then tracks age out. -/
def differentNumbers : List (PlotEvent meridian) :=
  [seen 0 ⟨25, 201, 7⟩, seen 1 ⟨25, 202, 8⟩, seen 2 ⟨25, 201, 0⟩, seen 3 ⟨25, 202, 0⟩, .ageOut (4 : Int)]

theorem cached_iff_differentNumbers :
    Always (watchStep asciiText) Cached (Watched.init (K := meridian) (0 : Int)) differentNumbers ↔
      Guarded (watchStep asciiText) OwnNumber (Watched.init (K := meridian) (0 : Int))
        differentNumbers :=
  cached_iff asciiText meridian seconds (0 : Int) differentNumbers
    ⟨Int.le_refl 0, show (0 : Int) ≤ 1 by decide, show (1 : Int) ≤ 2 by decide,
      show (2 : Int) ≤ 3 by decide, show (3 : Int) ≤ 4 by decide, trivial⟩

/-- Two radars report the number 7 within a second. -/
def sameNumber : List (PlotEvent meridian) := [seen 0 ⟨25, 201, 7⟩, seen 1 ⟨25, 202, 7⟩]

/-- The plot of the first radar is overwritten by the plot of the second. -/
theorem not_cached_sameNumber :
    Guarded (watchStep asciiText) (InTime seconds) (Watched.init (K := meridian) (0 : Int))
        sameNumber ∧
      ¬ Always (watchStep asciiText) Cached (Watched.init (K := meridian) (0 : Int)) sameNumber := by
  refine ⟨⟨Int.le_refl 0, show (0 : Int) ≤ 1 by decide, trivial⟩, fun h => ?_⟩
  obtain ⟨uid, hentry, -⟩ := h.last ⟨25, 201, 7⟩ ⟨plotTrack ⟨25, 201, 7⟩, (0 : Int)⟩ rfl rfl
  have htimes : (final (watchStep asciiText) (Watched.init (K := meridian) (0 : Int))
      sameNumber).fuser.tracks.entries.map (fun e => (e.2.ts : Int)) = [1] := by decide +kernel
  have hmem := List.mem_map_of_mem (f := fun e => (e.2.ts : Int))
    (PyDict.get?_eq_some_iff.mp hentry)
  rw [htimes] at hmem
  have hzero : (0 : Int) ∈ [(1 : Int)] := hmem
  exact absurd hzero (by decide)

end Efdi.Tracks

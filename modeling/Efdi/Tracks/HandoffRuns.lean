import Efdi.Tracks.Handoff

/-!
# Runs of the handoff

The invariant of the handoff is that `_radar_primary` is flat on the live tracks (`Inv`).  Tracks
that age out together leave one by one, and between them the map is flat off the tracks that
still have to leave (`Leaving`).  A report keeps the map flat exactly when it does not link a
uid that is the primary of another track to a third one (`handoff_iff`), and the handler checks
no such thing.
-/

namespace Efdi.Tracks

open Representatives List Option PyDict

variable {py : PyText} {K : Kinematics}

/-- What holds of the handoff between reports. -/
structure Inv (s : Fuser K) : Prop where
  /-- Only live tracks have a primary. -/
  live : ∀ u, s.primary.contains u = true → s.tracks.contains u = true
  flat : Flat s.primary.get?
  /-- A live track without an id of its own has a primary. -/
  entered : ∀ u entry, s.tracks.get? u = some entry → modeS entry.track = false →
    s.primary.contains u = true
  text : ∀ u entry, s.tracks.get? u = some entry → icaoText entry.track = true
  named : ∀ u, s.tracks.contains u = true → u ≠ ""

theorem inv_init : Inv (Fuser.init : Fuser K) := by
  constructor
  case live => exact fun _ h => absurd h Bool.false_ne_true
  case flat => exact fun _ _ h => absurd h (some_ne_none _).symm
  case entered => exact fun _ _ h => absurd h (some_ne_none _).symm
  case text => exact fun _ _ h => absurd h (some_ne_none _).symm
  case named => exact fun _ h => absurd h Bool.false_ne_true

/-! ## Tracks that age out -/

/-- The state while the tracks `stale` age out and `ks` still have to leave. -/
structure Leaving (stale ks : List String) (s : Fuser K) : Prop where
  live : ∀ u, s.primary.contains u = true → s.tracks.contains u = true
  off : FlatOff (· ∈ stale) s.primary.get?
  entered : ∀ u entry, s.tracks.get? u = some entry → modeS entry.track = false →
    s.primary.contains u = true
  text : ∀ u entry, s.tracks.get? u = some entry → icaoText entry.track = true
  named : ∀ u, s.tracks.contains u = true → u ≠ ""
  gone : ∀ u ∈ stale, u ∉ ks → s.tracks.contains u = false
  present : ∀ k ∈ ks, s.tracks.contains k = true
  nodup : ks.Nodup
  subset : ks ⊆ stale

variable {stale : List String} {tracks : PyDict String (RadarEntry K)}
  {primary : PyDict String String} {k uid : String}

theorem heir?_some {heir : String} (h : heir? K stale tracks primary k = some heir) :
    primary.get? heir = some k ∧ heir ∉ stale ∧ tracks.contains heir = true := by
  rw [heir?, map_eq_some_iff] at h
  obtain ⟨⟨u, p⟩, hfind, rfl⟩ := h
  have hmem := mem_of_find?_eq_some hfind
  have htest := find?_some hfind
  simp only [Bool.and_eq_true, decide_eq_true_eq, Bool.not_eq_true'] at htest
  obtain ⟨⟨rfl, hstale⟩, hlive⟩ := htest
  refine ⟨get?_eq_some_iff.mpr hmem, fun hmem => ?_, hlive⟩
  rw [contains_eq_mem, decide_eq_false_iff_not] at hstale
  exact hstale hmem

theorem heir?_none (h : heir? K stale tracks primary k = none) {u : String} (hu : u ∉ stale)
    (hlive : tracks.contains u = true) :
    primary.get? u ≠ some k := by
  intro hrep
  rw [heir?, map_eq_none_iff, find?_eq_none] at h
  have htest := h (u, k) (get?_eq_some_iff.mp hrep)
  apply htest
  simp [hu, hlive]

/-- What promotion makes of the primaries: `k` represents no track that stays, or an heir takes
over. -/
theorem promote_cases (hk : k ∈ stale) (hoff : FlatOff (· ∈ stale) primary.get?)
    (hnamed : ∀ u, tracks.contains u = true → u ≠ "")
    (hlive : ∀ u, u ∉ stale → primary.contains u = true → tracks.contains u = true) :
    (promote K stale tracks primary k = primary ∧
        ∀ u, u ∉ stale → primary.get? u ≠ some k) ∨
      ∃ heir, heir ≠ k ∧ primary.contains heir = true ∧
        (promote K stale tracks primary k).get? = handOver primary.get? k heir := by
  rw [promote]
  by_cases hself : primary.get? k = some k
  · rw [if_pos hself]
    cases hheir : heir? K stale tracks primary k with
    | none =>
      refine Or.inl ⟨rfl, fun u hu hrep => ?_⟩
      exact heir?_none hheir hu (hlive u hu (contains_of_get? hrep)) hrep
    | some heir =>
      obtain ⟨hrep, hstays, hcontains⟩ := heir?_some hheir
      refine Or.inr ⟨heir, fun heq => hstays (heq ▸ hk), contains_of_get? hrep, ?_⟩
      simp only [if_neg (hnamed heir hcontains)]
      funext u
      rw [handOver]
      by_cases hu : u = heir
      · rw [hu, get?_set_self, if_pos (Or.inl rfl)]
      · rw [get?_set_of_ne _ hu, get?_map]
        cases hprimary : primary.get? u with
        | none => simp [hu]
        | some p => by_cases hp : p = k <;> simp [hu, hp]
  · rw [if_neg hself]
    exact Or.inl ⟨rfl, hoff.ne_of_ne hself⟩

/-- One track leaves. -/
theorem Leaving.step {stale ks : List String} {k : String} {s : Fuser K}
    (h : Leaving stale (k :: ks) s) :
    Leaving stale ks ⟨s.tracks.pop k, (promote K stale (s.tracks.pop k) s.primary k).pop k⟩ := by
  have hk : k ∈ stale := h.subset mem_cons_self
  have hnotmem : k ∉ ks := (nodup_cons.mp h.nodup).1
  have hnamed : ∀ u, (s.tracks.pop k).contains u = true → u ≠ "" := by
    intro u hu
    rw [contains_pop, Bool.and_eq_true] at hu
    exact h.named u hu.2
  have hlive : ∀ u, u ∉ stale → s.primary.contains u = true →
      (s.tracks.pop k).contains u = true := by
    intro u hu hcontains
    have huk : u ≠ k := fun heq => hu (heq ▸ hk)
    rw [contains_pop, h.live u hcontains]
    simp [huk]
  have hpop : ∀ primary : PyDict String String, (primary.pop k).get? = drop primary.get? k := by
    intro primary
    funext u
    by_cases hu : u = k
    · rw [hu, get?_pop_self, drop_self]
    · rw [get?_pop_of_ne _ hu, drop_of_ne hu]
  have hcases := promote_cases hk h.off hnamed hlive
  have hkeys : ∀ u, ((promote K stale (s.tracks.pop k) s.primary k).pop k).contains u =
      (!decide (u = k) && s.primary.contains u) := by
    intro u
    rw [contains_pop]
    rcases hcases with ⟨hsame, -⟩ | ⟨heir, -, hheir, hget⟩
    · rw [hsame]
    · rw [PyDict.contains, hget, isSome_handOver hheir]
      rfl
  constructor
  case live =>
    intro u hu
    rw [hkeys, Bool.and_eq_true] at hu
    rw [contains_pop, h.live u hu.2, hu.1]
    rfl
  case off =>
    rw [hpop]
    rcases hcases with ⟨hsame, hno⟩ | ⟨heir, hne, -, hget⟩
    · rw [hsame]
      exact h.off.drop hno
    · rw [hget]
      exact h.off.promote hne
  case entered =>
    intro u entry hentry hmode
    have huk : u ≠ k := by
      rintro rfl
      rw [get?_pop_self] at hentry
      cases hentry
    rw [get?_pop_of_ne _ huk] at hentry
    rw [hkeys, h.entered u entry hentry hmode]
    simp [huk]
  case text =>
    intro u entry hentry
    by_cases huk : u = k
    · rw [huk, get?_pop_self] at hentry
      cases hentry
    · rw [get?_pop_of_ne _ huk] at hentry
      exact h.text u entry hentry
  case named => exact hnamed
  case gone =>
    intro u hu hnot
    rw [contains_pop]
    by_cases huk : u = k
    · simp [huk]
    · rw [h.gone u hu (fun hmem => (mem_cons.mp hmem).elim huk hnot), Bool.and_false]
  case present =>
    intro u hu
    have huk : u ≠ k := fun heq => hnotmem (heq ▸ hu)
    rw [contains_pop, h.present u (.tail _ hu)]
    simp [huk]
  case nodup => exact (nodup_cons.mp h.nodup).2
  case subset => exact fun u hu => h.subset (.tail _ hu)

/-- When all have left, the map is flat. -/
theorem Leaving.inv {s : Fuser K} (h : Leaving stale [] s) : Inv s := by
  refine { h with flat := ?flat }
  case flat =>
    refine h.off.flat fun u hu => ?_
    rw [← not_isSome_iff_eq_none]
    intro hsome
    have hlive := h.live u hsome
    rw [h.gone u hu not_mem_nil] at hlive
    cases hlive

theorem Leaving.retire : ∀ {ks : List String} {s : Fuser K},
    Leaving stale ks s → Inv (retire K stale ks s)
  | [], _, h => h.inv
  | k :: ks, s, h => by
    obtain ⟨entry, hentry⟩ := isSome_iff_exists.mp (h.present k mem_cons_self)
    have htext := h.text k entry hentry
    rw [Tracks.retire, hentry]
    simp only [if_pos htext]
    exact h.step.retire

/-- Aging out keeps the invariant. -/
theorem Inv.ageOut {s : Fuser K} (h : Inv s) (now : K.Time) : Inv (ageOut K s now) := by
  apply Leaving.retire
  refine { h with
    off := ?off, gone := ?gone, present := ?present, nodup := ?nodup, subset := ?subset }
  case off => exact h.flat.off _
  case gone => exact fun u hu hnot => absurd hu hnot
  case present =>
    intro k hk
    obtain ⟨⟨u, entry⟩, hmem, rfl⟩ := mem_map.mp hk
    exact contains_of_get? (get?_eq_some_iff.mpr (mem_of_mem_filter hmem))
  case nodup =>
    exact List.Nodup.sublist (List.Sublist.map _ filter_sublist) s.tracks.nodup
  case subset => exact List.Subset.refl _

/-! ## Reports -/

/-- The state after the track of a report is written. -/
def Fuser.insert (s : Fuser K) (uid : String) (now : K.Time) (track : Track) : Fuser K :=
  { s with tracks := s.tracks.set uid ⟨track, now⟩ }

/-- The uid that the report is to go out under: that of the closest track that matches, else the
one it had. -/
def representative (s : Fuser K) (uid : String) (now : K.Time) (track : Track) : String :=
  if modeS track then uid
  else
    match bestPrimary K (s.insert uid now track) track uid now with
    | some (some p) => p
    | _ => (s.primary.get? uid).getD uid

/-- The loop finds the primary of another track without an id of its own. -/
theorem search_some {track : Track} {now : K.Time} :
    ∀ {entries : List (String × RadarEntry K)} {d : K.Distance}
    {best found : Option String}, search K primary track uid now entries d best = some found →
      found = best ∨ ∃ other entry, (other, entry) ∈ entries ∧ other ≠ uid ∧
        modeS entry.track = false ∧ found = some ((primary.get? other).getD other)
  | [], _, _, _, h => Or.inl (Option.some.inj h).symm
  | (otherUid, entry) :: entries, d, best, found, h => by
    rw [search] at h
    split at h
    next =>
      rcases search_some h with hsame | ⟨other, e, hmem, hrest⟩
      · exact Or.inl hsame
      · exact Or.inr ⟨other, e, .tail _ hmem, hrest⟩
    next hskip =>
      simp only [Bool.or_eq_true, decide_eq_true_eq, not_or, Bool.not_eq_true] at hskip
      split at h
      next => cases h
      next =>
        rcases search_some h with hsame | ⟨other, e, hmem, hrest⟩
        · exact Or.inl hsame
        · exact Or.inr ⟨other, e, .tail _ hmem, hrest⟩
      next =>
        rcases search_some h with hsame | ⟨other, e, hmem, hrest⟩
        · exact Or.inr ⟨otherUid, entry, .head _, hskip.1.1.1, hskip.1.2, hsame⟩
        · exact Or.inr ⟨other, e, .tail _ hmem, hrest⟩

theorem get?_link_setDefault (primary : PyDict String String) (uid : String) :
    (primary.setDefault uid uid).get? =
      link primary.get? uid ((primary.get? uid).getD uid) := by
  funext u
  rw [get?_setDefault]
  by_cases hu : u = uid
  · rw [hu, if_pos rfl, link_self]
  · rw [if_neg hu, link_of_ne hu]

theorem get?_link_set (primary : PyDict String String) (uid p : String) :
    (primary.set uid p).get? = link primary.get? uid p := by
  funext u
  by_cases hu : u = uid
  · rw [hu, get?_set_self, link_self]
  · rw [get?_set_of_ne _ hu, link_of_ne hu]

/-- Association links the uid of the report to its representative. -/
theorem associate_some {s : Fuser K} {track : Track} {now : K.Time} {primaryUid : String}
    (h : associate K (s.insert uid now track) track uid now = some (primary, primaryUid)) :
    primaryUid = representative s uid now track ∧
      primary.get? = if modeS track then s.primary.get?
        else link s.primary.get? uid (representative s uid now track) := by
  rw [associate] at h
  rw [representative]
  by_cases hmode : modeS track = true
  · rw [if_pos hmode] at h ⊢
    rw [if_pos hmode]
    cases Option.some.inj h
    exact ⟨rfl, rfl⟩
  · rw [if_neg hmode] at h ⊢
    rw [if_neg hmode]
    obtain ⟨best, hbest, heq⟩ := map_eq_some_iff.mp h
    rw [hbest]
    cases best with
    | some p =>
      obtain ⟨rfl, rfl⟩ := Prod.mk.inj heq
      have hlink := get?_link_set s.primary uid p
      refine ⟨?_, hlink⟩
      show (((s.primary.set uid p).get? uid).getD uid) = p
      rw [get?_set_self, getD_some]
    | none =>
      obtain ⟨rfl, rfl⟩ := Prod.mk.inj heq
      have hlink := get?_link_setDefault s.primary uid
      refine ⟨?_, hlink⟩
      show (((s.primary.setDefault uid uid).get? uid).getD uid) = (s.primary.get? uid).getD uid
      rw [hlink, link_self, getD_some]

/-- The representative of a report is the report, or a track that represents itself. -/
theorem Inv.representative_own {s : Fuser K} (h : Inv s) (uid : String) (now : K.Time)
    (track : Track) : representative s uid now track = uid ∨
      s.primary.get? (representative s uid now track) =
        some (representative s uid now track) := by
  have hown : ∀ u, (s.primary.get? u).getD u = u ∨
      s.primary.get? ((s.primary.get? u).getD u) = some ((s.primary.get? u).getD u) := by
    intro u
    cases hu : s.primary.get? u with
    | none => exact Or.inl rfl
    | some p => exact Or.inr (h.flat u p hu)
  rw [representative]
  split
  next => exact Or.inl rfl
  next =>
    split
    next p hbest =>
      rw [bestPrimary] at hbest
      split at hbest
      · rcases search_some hbest with habsurd | ⟨other, entry, hmem, hother, hmode, hfound⟩
        · cases habsurd
        · have hentry : s.tracks.get? other = some entry := by
            rw [← get?_set_of_ne s.tracks hother ⟨track, now⟩]
            exact get?_eq_some_iff.mpr hmem
          obtain ⟨q, hq⟩ := isSome_iff_exists.mp (h.entered other entry hentry hmode)
          have hp : p = q := by
            have hsome := Option.some.inj hfound
            rw [show (s.insert uid now track).primary.get? other = some q from hq,
              getD_some] at hsome
            exact hsome
          rw [hp]
          exact Or.inr (h.flat other q hq)
      · cases Option.some.inj hbest
    next => exact hown uid

/-! ## Steps -/

/-- The handler does not raise. -/
def Completes (py : PyText) (s : Fuser K) : RadarEvent K → Prop
  | .report now track => (report py K s now track).2.isSome = true
  | .ageOut _ => True

instance (s : Fuser K) (e : RadarEvent K) : Decidable (Completes py s e) := by
  cases e with
  | report now track => exact inferInstanceAs (Decidable (_ = _))
  | ageOut now => exact inferInstanceAs (Decidable True)

/-- The report links no uid that is the primary of another track to a third one, and the track
that it goes out under has a radar id to lend. -/
def KeepsOthers (py : PyText) (s : Fuser K) : RadarEvent K → Prop
  | .report now track =>
    representative s (uidOf py track) now track ≠ uidOf py track →
      (∀ u, u ≠ uidOf py track → s.primary.get? u ≠ some (uidOf py track)) ∧
      ∀ entry, s.tracks.get? (representative s (uidOf py track) now track) = some entry →
        truthy (entry.track.field "radar_id") = true ∨
          entry.track.get? "radar_id" = track.get? "radar_id"
  | .ageOut _ => True

/-- What a report that completes leaves behind. -/
structure Reported (py : PyText) (s : Fuser K) (now : K.Time) (track published : Track) : Prop where
  text : icaoText track = true
  tracks : (report py K s now track).1.tracks = s.tracks.set (uidOf py track) ⟨track, now⟩
  primary : (report py K s now track).1.primary.get? =
    if modeS track then s.primary.get?
    else link s.primary.get? (uidOf py track) (representative s (uidOf py track) now track)
  published : published = borrowRadarId K (s.tracks.set (uidOf py track) ⟨track, now⟩) track
    (uidOf py track) (representative s (uidOf py track) now track)

theorem reported {s : Fuser K} {now : K.Time} {track published : Track}
    (h : (report py K s now track).2 = some published) : Reported py s now track published := by
  have hreport : report py K s now track =
      if icaoText track then
        (associate K (s.insert (uidOf py track) now track) track (uidOf py track) now).elim
          (s.insert (uidOf py track) now track, none) fun found =>
            ({ s.insert (uidOf py track) now track with primary := found.1 },
              some (borrowRadarId K (s.tracks.set (uidOf py track) ⟨track, now⟩) track
                (uidOf py track) found.2))
      else (s.insert (uidOf py track) now track, none) := by
    dsimp only [report, Fuser.insert]
    split
    next =>
      split
      next hfound => rw [hfound]; rfl
      next hfound => rw [hfound]; rfl
    next => rfl
  by_cases htext : icaoText track = true
  · rw [if_pos htext] at hreport
    cases hassociate : associate K (s.insert (uidOf py track) now track) track
        (uidOf py track) now with
    | none =>
      rw [hreport, hassociate] at h
      cases h
    | some result =>
      obtain ⟨primary, primaryUid⟩ := result
      rw [hassociate] at hreport
      obtain ⟨huid, hprimary⟩ := associate_some hassociate
      constructor
      case text => exact htext
      case tracks =>
        rw [hreport]
        rfl
      case primary =>
        rw [hreport]
        exact hprimary
      case published =>
        rw [hreport] at h
        rw [← huid]
        exact (Option.some.inj h).symm
  · rw [if_neg htext] at hreport
    rw [hreport] at h
    cases h

/-- The primaries are those of a flat map on the live tracks, so following them rests after one
step and tracks that they connect share one. -/
structure Settled (s : Fuser K) : Prop where
  primary : ∀ u p, s.tracks.contains u = true → s.primary.get? u = some p →
    s.tracks.contains p = true ∧ s.primary.get? p = some p
  rests : ∀ u, s.tracks.contains u = true → ∀ n : Nat,
    (follow s.primary.get?)^[n + 1] u = follow s.primary.get? u
  shared : ∀ u v, s.tracks.contains u = true → s.tracks.contains v = true → ∀ m n : Nat,
    (follow s.primary.get?)^[m] u = (follow s.primary.get?)^[n] v →
      follow s.primary.get? u = follow s.primary.get? v

theorem Inv.settled {s : Fuser K} (h : Inv s) : Settled s := by
  constructor
  case primary =>
    intro u p _ hrep
    exact ⟨h.live p (contains_of_get? (h.flat u p hrep)), h.flat u p hrep⟩
  case rests => exact fun u _ n => h.flat.iterate u n
  case shared => exact fun u v _ _ m n hmeet => h.flat.shared hmeet

/-- The radar id that a report goes out with is that of a live track: its own for a track with
a stable id, and that of its primary otherwise. -/
def PublishesPrimary (py : PyText) (s : Fuser K) : RadarEvent K → Prop
  | .report now track => ∀ published, (report py K s now track).2 = some published →
      ∃ p entry, (report py K s now track).1.tracks.get? p = some entry ∧
        published.get? "radar_id" = entry.track.get? "radar_id" ∧
        (modeS track = true → p = uidOf py track) ∧
        (modeS track = false →
          (report py K s now track).1.primary.get? (uidOf py track) = some p ∧
          (report py K s now track).1.primary.get? p = some p)
  | .ageOut _ => True

/-! ## One report -/

theorem representative_modeS {s : Fuser K} {now : K.Time} {track : Track} (h : modeS track = true) :
    representative s uid now track = uid := if_pos h

theorem get?_field {track : Track} {key : String} (h : truthy (track.field key) = true) :
    track.get? key = some (track.field key) := by
  cases hvalue : track.get? key with
  | none =>
    rw [Track.field, hvalue] at h
    cases h
  | some value => rw [Track.field, hvalue, getD_some]

theorem borrowRadarId_self (tracks : PyDict String (RadarEntry K)) (track : Track) (uid : String) :
    borrowRadarId K tracks track uid uid = track := if_pos rfl

/-- The radar id of another track is borrowed when it has one. -/
theorem borrowRadarId_some {track : Track} {primaryUid : String} (hne : primaryUid ≠ uid)
    {entry : RadarEntry K} (hentry : tracks.get? primaryUid = some entry) :
    borrowRadarId K tracks track uid primaryUid =
      if truthy (entry.track.field "radar_id") then
        track.set "radar_id" (entry.track.field "radar_id")
      else track := by
  rw [borrowRadarId, if_neg hne, hentry]

section

variable {s : Fuser K} {now : K.Time} {track published : Track}

/-- A report that keeps the primaries of others keeps the invariant. -/
theorem Reported.inv (h : Reported py s now track published) (hinv : Inv s)
    (hkeeps : KeepsOthers py s (.report now track)) : Inv (report py K s now track).1 := by
  have hcontains : ∀ u, (report py K s now track).1.tracks.contains u =
      (decide (u = uidOf py track) || s.tracks.contains u) := by
    intro u
    rw [h.tracks, contains_set]
  constructor
  case live =>
    intro u hu
    rw [hcontains]
    by_cases huid : u = uidOf py track
    · simp [huid]
    · rw [PyDict.contains, h.primary] at hu
      have hold : s.primary.contains u = true := by
        split at hu
        · exact hu
        · rw [link_of_ne huid] at hu
          exact hu
      rw [hinv.live u hold, Bool.or_true]
  case flat =>
    rw [h.primary]
    split
    · exact hinv.flat
    · rcases hinv.representative_own (uidOf py track) now track with hown | hprimary
      · rw [hown]
        exact hinv.flat.link_own _
      · exact hinv.flat.link hprimary fun hne => (hkeeps hne).1
  case entered =>
    intro u entry hentry hmode
    rw [PyDict.contains, h.primary]
    rw [h.tracks] at hentry
    by_cases huid : u = uidOf py track
    · rw [huid, get?_set_self] at hentry
      cases Option.some.inj hentry
      rw [if_neg (Bool.eq_false_iff.mp hmode), huid, link_self]
      rfl
    · rw [get?_set_of_ne _ huid] at hentry
      have hold := hinv.entered u entry hentry hmode
      split
      · exact hold
      · rw [link_of_ne huid]
        exact hold
  case text =>
    intro u entry hentry
    rw [h.tracks] at hentry
    by_cases huid : u = uidOf py track
    · rw [huid, get?_set_self] at hentry
      cases Option.some.inj hentry
      exact h.text
    · rw [get?_set_of_ne _ huid] at hentry
      exact hinv.text u entry hentry
  case named =>
    intro u hu
    by_cases huid : u = uidOf py track
    · rw [huid]
      exact uidOf_ne track
    · rw [hcontains] at hu
      simp only [huid, decide_false, Bool.false_or] at hu
      exact hinv.named u hu

/-- A report that keeps the primaries of others goes out with the radar id of its primary. -/
theorem Reported.publishes (h : Reported py s now track published) (hinv : Inv s)
    (hkeeps : KeepsOthers py s (.report now track)) :
    PublishesPrimary py s (.report now track) := by
  intro published' hpublished'
  have h' := reported hpublished'
  have hlinked : modeS track = false →
      (report py K s now track).1.primary.get? (uidOf py track) =
        some (representative s (uidOf py track) now track) := by
    intro hmode
    rw [h'.primary, if_neg (Bool.eq_false_iff.mp hmode), link_self]
  have hown : modeS track = false →
      (report py K s now track).1.primary.get? (representative s (uidOf py track) now track) =
        some (representative s (uidOf py track) now track) :=
    fun hmode => (h.inv hinv hkeeps).flat _ _ (hlinked hmode)
  by_cases hself : representative s (uidOf py track) now track = uidOf py track
  · refine ⟨uidOf py track, ⟨track, now⟩, ?_, ?_, fun _ => rfl, ?_⟩
    · rw [h'.tracks, get?_set_self]
    · rw [h'.published, hself, borrowRadarId_self]
    · rw [hself] at hlinked hown
      exact fun hmode => ⟨hlinked hmode, hown hmode⟩
  · have hprimary := (hinv.representative_own (uidOf py track) now track).resolve_left hself
    obtain ⟨entry, hentry⟩ :=
      isSome_iff_exists.mp (hinv.live _ (contains_of_get? hprimary))
    have hentry' : (s.tracks.set (uidOf py track) ⟨track, now⟩).get?
        (representative s (uidOf py track) now track) = some entry := by
      rw [get?_set_of_ne _ hself]
      exact hentry
    refine ⟨representative s (uidOf py track) now track, entry, ?_, ?_, ?_, ?_⟩
    · rw [h'.tracks]
      exact hentry'
    · rw [h'.published, borrowRadarId_some hself hentry']
      split
      next hlends => rw [get?_set_self, get?_field hlends]
      next hlends => exact (((hkeeps hself).2 entry hentry).resolve_left hlends).symm
    · exact fun hmode => absurd (representative_modeS hmode) hself
    · exact fun hmode => ⟨hlinked hmode, hown hmode⟩

/-- A report after which the primaries are settled, and which goes out with the radar id of its
primary, keeps the primaries of others. -/
theorem Reported.keeps (h : Reported py s now track published) (hinv : Inv s)
    (hsettled : Settled (report py K s now track).1)
    (hpublished : (report py K s now track).2 = some published)
    (hpublishes : PublishesPrimary py s (.report now track)) :
    KeepsOthers py s (.report now track) := by
  intro hne
  have hmode : modeS track = false := by
    rw [← Bool.not_eq_true]
    exact fun hmode => hne (representative_modeS hmode)
  have hprimary := h.primary
  rw [if_neg (Bool.eq_false_iff.mp hmode)] at hprimary
  constructor
  · intro u hu hrep
    have hlive : (report py K s now track).1.tracks.contains u = true := by
      rw [h.tracks, contains_set, hinv.live u (contains_of_get? hrep), Bool.or_true]
    have hrep' : (report py K s now track).1.primary.get? u = some (uidOf py track) := by
      rw [hprimary, link_of_ne hu, hrep]
    have huid := (hsettled.primary u _ hlive hrep').2
    rw [hprimary, link_self] at huid
    exact hne (Option.some.inj huid)
  · intro entry hentry
    obtain ⟨p, entry', hentry', hradar, -, hlinked⟩ := hpublishes published hpublished
    have hp : p = representative s (uidOf py track) now track := by
      have huid := (hlinked hmode).1
      rw [hprimary, link_self] at huid
      exact (Option.some.inj huid).symm
    rw [hp, h.tracks, get?_set_of_ne _ hne, hentry] at hentry'
    cases Option.some.inj hentry'
    by_cases hlends : truthy (entry.track.field "radar_id") = true
    · exact Or.inl hlends
    · have hset : (s.tracks.set (uidOf py track) ⟨track, now⟩).get?
          (representative s (uidOf py track) now track) = some entry := by
        rw [get?_set_of_ne _ hne, hentry]
      rw [h.published, borrowRadarId_some hne hset, if_neg hlends] at hradar
      exact Or.inr hradar.symm

end

/-! ## Runs -/

theorem inv_step {s : Fuser K} {e : RadarEvent K} (hinv : Inv s) (hok : Completes py s e)
    (hkeeps : KeepsOthers py s e) : Inv (radarStep py K s e) := by
  cases e with
  | report now track =>
    obtain ⟨published, hpublished⟩ := isSome_iff_exists.mp hok
    exact (reported hpublished).inv hinv hkeeps
  | ageOut now => exact hinv.ageOut now

theorem handoff_step {s : Fuser K} {e : RadarEvent K} (hinv : Inv s) (hok : Completes py s e) :
    Settled (radarStep py K s e) ∧ PublishesPrimary py s e ↔ KeepsOthers py s e := by
  cases e with
  | report now track =>
    obtain ⟨published, hpublished⟩ := isSome_iff_exists.mp hok
    have h := reported hpublished
    constructor
    · rintro ⟨hsettled, hpublishes⟩
      exact h.keeps hinv hsettled hpublished hpublishes
    · intro hkeeps
      exact ⟨(h.inv hinv hkeeps).settled, h.publishes hinv hkeeps⟩
  | ageOut now =>
    exact ⟨fun _ => trivial, fun _ => ⟨(hinv.ageOut now).settled, trivial⟩⟩

/-- Along every run of reports and age-outs that do not raise, the primaries are settled and
every report goes out with the radar id of its primary, exactly when every report keeps the
primaries of others. -/
theorem handoff_iff (py : PyText) (K : Kinematics) (es : List (RadarEvent K))
    (hok : Runs.Guarded (radarStep py K) (Completes py) Fuser.init es) :
    (Runs.Always (radarStep py K) Settled Fuser.init es ∧
        Runs.Guarded (radarStep py K) (PublishesPrimary py) Fuser.init es) ↔
      Runs.Guarded (radarStep py K) (KeepsOthers py) Fuser.init es := by
  have hinit : Settled (Fuser.init : Fuser K) := inv_init.settled
  rw [Runs.always_iff_guarded, and_assoc, Runs.guarded_and, and_iff_right hinit]
  exact Runs.guarded_congr_of (P := Inv) (fun s e hinv hok => handoff_step hinv hok)
    (fun s e hinv hok hkeeps => inv_step hinv hok hkeeps) inv_init hok

/-! ## Three radars in a row -/

/-- `track["lat_deg"]` of a track on a meridian. -/
def latitude (track : Track) : Option Rat := number? (track.field "lat_deg")

/-- Distances between tracks on one meridian, without speed and heading.  One degree is 60.04
nautical miles. -/
def meridian : Kinematics where
  Time := Int
  Distance := Rat
  expired := fun now ts => decide (now - ts > 60)
  handoff := 2
  closer := fun track other _ _ best =>
    match latitude track, latitude other with
    | some x, some y =>
      let d := max (x - y) (y - x) * (6004 / 100)
      if d < best then .ok (some d) else .ok none
    | _, _ => .error ()
  eq := fun a b => decide (a = b)

/-- A report of a radar without a transponder id, at a thousandth of degrees. -/
def radarTrack (uid : String) (sac lat : Int) : Track :=
  ((((PyDict.empty.set "uid" (.str uid)).set "radar_id" (.str uid)).set "sac" (.int sac)).set
    "lat_deg" (.float (.finite (lat / 1000)))).set "lon_deg" (.int 25)

/-- A sighting of a target without a transponder. -/
def sighting (now : Int) (uid : String) (sac lat : Int) : List (RadarEvent meridian) :=
  onRadar meridian now now (radarTrack uid sac lat)

/-- `b` is taken for `a`, and then `a`, on its way south, for `c`. -/
def crossing : List (RadarEvent meridian) :=
  sighting 0 "a" 1 55000 ++ sighting 1 "b" 2 55017 ++ sighting 2 "c" 3 54958 ++
    sighting 3 "a" 1 54983

/-- The first two sightings of the crossing. -/
def approach : List (RadarEvent meridian) := sighting 0 "a" 1 55000 ++ sighting 1 "b" 2 55017

theorem handoff_iff_approach :
    (Runs.Always (radarStep asciiText meridian) Settled Fuser.init approach ∧
        Runs.Guarded (radarStep asciiText meridian) (PublishesPrimary asciiText) Fuser.init
          approach) ↔
      Runs.Guarded (radarStep asciiText meridian) (KeepsOthers asciiText) Fuser.init approach :=
  handoff_iff asciiText meridian approach
    ⟨trivial, by decide +kernel, trivial, by decide +kernel, trivial⟩

/-- No report of the crossing raises.  After it the primary of `b` is `a`, and that of `a` is
`c`. -/
theorem not_settled_crossing :
    Runs.Guarded (radarStep asciiText meridian) (Completes asciiText) Fuser.init crossing ∧
      (Runs.final (radarStep asciiText meridian) Fuser.init crossing).tracks.contains "b" = true ∧
      (Runs.final (radarStep asciiText meridian) Fuser.init crossing).primary.get? "b" = some "a" ∧
      (Runs.final (radarStep asciiText meridian) Fuser.init crossing).primary.get? "a" = some "c" ∧
      ¬ Runs.Always (radarStep asciiText meridian) Settled Fuser.init crossing := by
  have hlive : (Runs.final (radarStep asciiText meridian) Fuser.init crossing).tracks.contains
      "b" = true := by decide +kernel
  have hb : (Runs.final (radarStep asciiText meridian) Fuser.init crossing).primary.get? "b" =
      some "a" := by decide +kernel
  have ha : (Runs.final (radarStep asciiText meridian) Fuser.init crossing).primary.get? "a" =
      some "c" := by decide +kernel
  have hok : Runs.Guarded (radarStep asciiText meridian) (Completes asciiText) Fuser.init
      crossing :=
    ⟨trivial, by decide +kernel, trivial, by decide +kernel, trivial, by decide +kernel, trivial,
      by decide +kernel, trivial⟩
  refine ⟨hok, hlive, hb, ha, fun hall => ?_⟩
  have hown := (hall.last.primary "b" "a" hlive hb).2
  rw [ha] at hown
  exact absurd hown (by decide)

end Efdi.Tracks

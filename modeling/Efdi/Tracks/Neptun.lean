import Efdi.Tracks.Handoff

/-!
# NEPTUN corroboration

`match_neptun` pairs a radar track with a NEPTUN threat.  Candidates are counted among the fresh
threats, and rivals among the radar objects, where `ident` says which uids are one object.

A call sees one radar track and all threats.  What one call excludes, all calls exclude: two
objects never get one threat, and neither side of a double fit takes part in a match
(`matchNeptun_one_to_one`).
-/

namespace Efdi.Tracks

variable (K : Kinematics)

/-- `fresh` of `match_neptun`: the threats that are not expired. -/
def freshThreats (neptun : PyDict String (RadarEntry K)) (now : K.Time) : List (String × Track) :=
  (neptun.entries.filter fun e => !K.expired now e.2.ts).map fun e => (e.1, e.2.track)

/-- `candidates`: the fresh threats that fit a radar track. -/
def candidates (pairOk : Track → Track → Bool) (radar : Track)
    (neptun : PyDict String (RadarEntry K)) (now : K.Time) : List (String × Track) :=
  (freshThreats K neptun now).filter fun t => pairOk radar t.2

/-- The loop over the radar cache: a track of another object fits the threat. -/
def hasRival (pairOk : Track → Track → Bool) (threat : Track) (ident : String → String)
    (me : String) (now : K.Time) : List (String × RadarEntry K) → Bool
  | [] => false
  | (otherUid, entry) :: entries =>
    if K.expired now entry.ts || ident otherUid == me then
      hasRival pairOk threat ident me now entries
    else if pairOk entry.track threat then true
    else hasRival pairOk threat ident me now entries

/-- `match_neptun`. -/
def matchNeptun (pairOk : Track → Track → Bool) (radar : Track) (radarUid : String)
    (radarCache neptun : PyDict String (RadarEntry K)) (now : K.Time)
    (ident : String → String) : Option String :=
  match candidates K pairOk radar neptun now with
  | [(threatUid, threat)] =>
    if hasRival K pairOk threat ident (ident radarUid) now radarCache.entries then none
    else some threatUid
  | _ => none

variable {K} {pairOk : Track → Track → Bool} {radarCache neptun : PyDict String (RadarEntry K)}
  {now : K.Time} {ident : String → String}

/-- A track of the radar cache that is not expired. -/
def LiveRadar (radarCache : PyDict String (RadarEntry K)) (now : K.Time) (uid : String)
    (track : Track) : Prop :=
  ∃ entry, radarCache.get? uid = some entry ∧ entry.track = track ∧ K.expired now entry.ts = false

/-- A threat that is not expired. -/
def Fresh (neptun : PyDict String (RadarEntry K)) (now : K.Time) (uid : String)
    (threat : Track) : Prop :=
  ∃ entry, neptun.get? uid = some entry ∧ entry.track = threat ∧ K.expired now entry.ts = false

variable {uid : String} {threat : Track}

theorem mem_freshThreats :
    (uid, threat) ∈ freshThreats K neptun now ↔ Fresh neptun now uid threat := by
  rw [freshThreats, List.mem_map]
  constructor
  · rintro ⟨⟨uid', entry⟩, hmem, heq⟩
    obtain ⟨rfl, rfl⟩ := Prod.mk.inj heq
    obtain ⟨hentry, hfresh⟩ := List.mem_filter.mp hmem
    rw [Bool.not_eq_true'] at hfresh
    exact ⟨entry, PyDict.get?_eq_some_iff.mpr hentry, rfl, hfresh⟩
  · rintro ⟨entry, hentry, rfl, hfresh⟩
    refine ⟨(uid, entry), List.mem_filter.mpr ⟨PyDict.get?_eq_some_iff.mp hentry, ?_⟩, rfl⟩
    rw [Bool.not_eq_true']
    exact hfresh

theorem mem_candidates {radar : Track} :
    (uid, threat) ∈ candidates K pairOk radar neptun now ↔
      Fresh neptun now uid threat ∧ pairOk radar threat = true := by
  rw [candidates, List.mem_filter, mem_freshThreats]

theorem hasRival_entries_iff {me : String} :
    ∀ {entries : List (String × RadarEntry K)},
      hasRival K pairOk threat ident me now entries = true ↔ ∃ e ∈ entries,
        K.expired now e.2.ts = false ∧ ident e.1 ≠ me ∧ pairOk e.2.track threat = true
  | [] => by
    refine iff_of_false Bool.false_ne_true ?_
    rintro ⟨e, he, -⟩
    cases he
  | (uid, entry) :: entries => by
    rw [hasRival, List.exists_mem_cons_iff]
    by_cases hskip : (K.expired now entry.ts || ident uid == me) = true
    · rw [if_pos hskip, hasRival_entries_iff, or_iff_right]
      rintro ⟨hfresh, hother, -⟩
      rw [hfresh, Bool.false_or, beq_iff_eq] at hskip
      exact hother hskip
    · rw [if_neg hskip]
      rw [Bool.or_eq_true, not_or, Bool.not_eq_true, beq_iff_eq] at hskip
      by_cases hfits : pairOk entry.track threat = true
      · rw [if_pos hfits]
        exact iff_of_true rfl (Or.inl ⟨hskip.1, hskip.2, hfits⟩)
      · rw [if_neg hfits, hasRival_entries_iff, or_iff_right]
        exact fun h => hfits h.2.2

/-- A rival is a live track of another object that fits the threat. -/
theorem hasRival_iff {me : String} :
    hasRival K pairOk threat ident me now radarCache.entries = true ↔
      ∃ uid track, LiveRadar radarCache now uid track ∧ ident uid ≠ me ∧
        pairOk track threat = true := by
  rw [hasRival_entries_iff]
  constructor
  · rintro ⟨⟨uid, entry⟩, hmem, hfresh, hother, hfits⟩
    exact ⟨uid, entry.track, ⟨entry, PyDict.get?_eq_some_iff.mpr hmem, rfl, hfresh⟩, hother, hfits⟩
  · rintro ⟨uid, -, ⟨entry, hentry, rfl, hfresh⟩, hother, hfits⟩
    exact ⟨(uid, entry), PyDict.get?_eq_some_iff.mp hentry, hfresh, hother, hfits⟩

/-- What a match says: the threat is the only one that fits, and only this object fits it. -/
theorem matchNeptun_eq_some {radar : Track} {radarUid threatUid : String}
    (h : matchNeptun K pairOk radar radarUid radarCache neptun now ident = some threatUid) :
    ∃ threat, Fresh neptun now threatUid threat ∧ pairOk radar threat = true ∧
      (∀ uid other, Fresh neptun now uid other → pairOk radar other = true → uid = threatUid) ∧
      ∀ uid track, LiveRadar radarCache now uid track → pairOk track threat = true →
        ident uid = ident radarUid := by
  rw [matchNeptun] at h
  split at h
  next uid threat hcandidates =>
    split at h
    next => cases h
    next hrival =>
      obtain rfl := Option.some.inj h
      have hmem : ∀ {uid' threat'}, (Fresh neptun now uid' threat' ∧ pairOk radar threat' = true) ↔
          (uid', threat') = (uid, threat) := by
        intro uid' threat'
        rw [← mem_candidates, hcandidates, List.mem_singleton]
      obtain ⟨hfresh, hfits⟩ := hmem.mpr rfl
      refine ⟨threat, hfresh, hfits, fun uid' other hother hfits' => ?_, ?_⟩
      · exact (Prod.mk.inj (hmem.mp ⟨hother, hfits'⟩)).1
      · intro uid' track hlive hfits'
        by_contra hother
        exact hrival (hasRival_iff.mpr ⟨uid', track, hlive, hother, hfits'⟩)
  next => cases h

/-- One threat of a key. -/
theorem Fresh.unique {other : Track} (h : Fresh neptun now uid threat)
    (h' : Fresh neptun now uid other) : threat = other := by
  obtain ⟨entry, hentry, rfl, -⟩ := h
  obtain ⟨entry', hentry', rfl, -⟩ := h'
  rw [hentry] at hentry'
  rw [Option.some.inj hentry']

/-- For every pairwise test, two live radar tracks get one threat only when they are one object,
tracks of one object that fit the same threats get one threat, and a threat that fits two objects
and a track that fits two threats take part in no match. -/
theorem matchNeptun_one_to_one (K : Kinematics) (pairOk : Track → Track → Bool)
    (radarCache neptun : PyDict String (RadarEntry K)) (now : K.Time) (ident : String → String) :
    (∀ uid₁ radar₁ uid₂ radar₂ threatUid,
      LiveRadar radarCache now uid₁ radar₁ → LiveRadar radarCache now uid₂ radar₂ →
      matchNeptun K pairOk radar₁ uid₁ radarCache neptun now ident = some threatUid →
      matchNeptun K pairOk radar₂ uid₂ radarCache neptun now ident = some threatUid →
      ident uid₁ = ident uid₂) ∧
    (∀ uid₁ radar₁ uid₂ radar₂ threatUid₁ threatUid₂,
      LiveRadar radarCache now uid₁ radar₁ → LiveRadar radarCache now uid₂ radar₂ →
      ident uid₁ = ident uid₂ →
      (∀ uid threat, Fresh neptun now uid threat → pairOk radar₁ threat = pairOk radar₂ threat) →
      matchNeptun K pairOk radar₁ uid₁ radarCache neptun now ident = some threatUid₁ →
      matchNeptun K pairOk radar₂ uid₂ radarCache neptun now ident = some threatUid₂ →
      threatUid₁ = threatUid₂) ∧
    (∀ uid₁ radar₁ uid₂ radar₂ threatUid threat,
      LiveRadar radarCache now uid₁ radar₁ → LiveRadar radarCache now uid₂ radar₂ →
      ident uid₁ ≠ ident uid₂ → Fresh neptun now threatUid threat →
      pairOk radar₁ threat = true → pairOk radar₂ threat = true →
      ∀ uid radar, matchNeptun K pairOk radar uid radarCache neptun now ident ≠ some threatUid) ∧
    (∀ radar threatUid₁ threat₁ threatUid₂ threat₂,
      threatUid₁ ≠ threatUid₂ → Fresh neptun now threatUid₁ threat₁ →
      Fresh neptun now threatUid₂ threat₂ →
      pairOk radar threat₁ = true → pairOk radar threat₂ = true →
      ∀ uid, matchNeptun K pairOk radar uid radarCache neptun now ident = none) := by
  refine ⟨?_, ?_, ?_, ?_⟩
  · intro uid₁ radar₁ uid₂ radar₂ threatUid hlive₁ _ hmatch₁ hmatch₂
    obtain ⟨threat, hfresh, hfits, -, -⟩ := matchNeptun_eq_some hmatch₁
    obtain ⟨other, hother, -, -, hone⟩ := matchNeptun_eq_some hmatch₂
    rw [hfresh.unique hother] at hfits
    exact hone uid₁ radar₁ hlive₁ hfits
  · intro uid₁ radar₁ uid₂ radar₂ threatUid₁ threatUid₂ _ _ _ hsame hmatch₁ hmatch₂
    obtain ⟨threat, hfresh, hfits, -, -⟩ := matchNeptun_eq_some hmatch₁
    obtain ⟨-, -, -, honly, -⟩ := matchNeptun_eq_some hmatch₂
    rw [hsame _ _ hfresh] at hfits
    exact honly _ _ hfresh hfits
  · intro uid₁ radar₁ uid₂ radar₂ threatUid threat hlive₁ hlive₂ hobjects hfresh hfits₁ hfits₂
      uid radar hmatch
    obtain ⟨other, hother, -, -, hone⟩ := matchNeptun_eq_some hmatch
    rw [hfresh.unique hother] at hfits₁ hfits₂
    exact hobjects ((hone _ _ hlive₁ hfits₁).trans (hone _ _ hlive₂ hfits₂).symm)
  · intro radar threatUid₁ threat₁ threatUid₂ threat₂ hne hfresh₁ hfresh₂ hfits₁ hfits₂ uid
    cases hmatch : matchNeptun K pairOk radar uid radarCache neptun now ident with
    | none => rfl
    | some threatUid =>
      obtain ⟨-, -, -, honly, -⟩ := matchNeptun_eq_some hmatch
      exact absurd ((honly _ _ hfresh₁ hfits₁).trans (honly _ _ hfresh₂ hfits₂).symm) hne

end Efdi.Tracks

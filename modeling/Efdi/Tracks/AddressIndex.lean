import Efdi.Tracks.SquawkIndex

/-!
# The indexes by address

The uid of a track is the first id that it has, and its address is the first of these ids: a track
without an address can have the uid of one with the address, and two spellings of an address are
two uids.  A report without its address leaves the index of the report before, which then names a
track that does not have the address, and stays when the track is gone.  On the ADS-B side a stale
track takes the address from the index also when the index names another track
(`lost_address_hides`).

When no report takes the address from a track that the index names, and no ADS-B track leaves
before the one that the index names for its address, the indexes are those of the live tracks
(`addresses_sound`).
-/

namespace Efdi.Tracks

open List PyDict

variable (py : PyText) {M : Matcher}

/-- The tracks of one side, and the index by address. -/
abbrev Entries (M : Matcher) : Type := PyDict String (RadarEntry M.toKinematics)

/-! ## The index of the live tracks -/

/-- An address is in the index exactly when a live track has it, and what the index names is live
and has the address. -/
def Coherent (now : M.Time) (tracks : Entries M) (byIcao : PyDict String String) : Prop :=
  (∀ address, byIcao.contains address = true ↔ address ≠ "" ∧
    ∃ uid entry, tracks.get? uid = some entry ∧ M.expired now entry.ts = false ∧
      icaoKey py entry.track = address) ∧
  ∀ address uid, byIcao.get? address = some uid → ∃ entry, tracks.get? uid = some entry ∧
    M.expired now entry.ts = false ∧ icaoKey py entry.track = address

/-- An event is not before the events before it. -/
def InOrder (s : Fusion M) (e : FusionEvent M) : Prop := M.le s.clock e.time

/-- A report takes the address from no track that the index names. -/
def KeepsAddress (tracks : Entries M) (byIcao : PyDict String String) (track : Track) : Prop :=
  ∀ entry ∈ tracks.get? (uidOf py track),
    byIcao.get? (icaoKey py entry.track) = some (uidOf py track) →
      icaoKey py track = icaoKey py entry.track

/-- No track leaves before the one that the index names for its address. -/
def LeavesLast (now : M.Time) (tracks : Entries M) (byIcao : PyDict String String) : Prop :=
  ∀ e ∈ tracks.entries, M.expired now e.2.ts = true →
    ∀ uid ∈ byIcao.get? (icaoKey py e.2.track), ∀ entry ∈ tracks.get? uid,
      M.expired now entry.ts = true

/-- What is asked of an event. -/
def KeepsAddresses (s : Fusion M) : FusionEvent M → Prop
  | .radar _ track => icaoText track = true ∧ KeepsAddress py s.fuser.tracks s.radarByIcao track
  | .adsb _ track => Indexable track ∧ KeepsAddress py s.adsb s.adsbByIcao track
  | .ageOut now => LeavesLast py now s.adsb s.adsbByIcao

instance decidableKeepsAddress (tracks : Entries M) (byIcao : PyDict String String)
    (track : Track) : Decidable (KeepsAddress py tracks byIcao track) :=
  inferInstanceAs (Decidable (∀ entry ∈ tracks.get? (uidOf py track),
    byIcao.get? (icaoKey py entry.track) = some (uidOf py track) →
      icaoKey py track = icaoKey py entry.track))

instance decidableLeavesLast (now : M.Time) (tracks : Entries M)
    (byIcao : PyDict String String) : Decidable (LeavesLast py now tracks byIcao) :=
  inferInstanceAs (Decidable (∀ e ∈ tracks.entries, M.expired now e.2.ts = true →
    ∀ uid ∈ byIcao.get? (icaoKey py e.2.track), ∀ entry ∈ tracks.get? uid,
      M.expired now entry.ts = true))

instance decidableKeepsAddresses (s : Fusion M) : ∀ e, Decidable (KeepsAddresses py s e)
  | .radar _ track =>
    inferInstanceAs (Decidable (icaoText track = true ∧
      KeepsAddress py s.fuser.tracks s.radarByIcao track))
  | .adsb _ track =>
    inferInstanceAs (Decidable ((icaoText track = true ∧ hashable track = true) ∧
      KeepsAddress py s.adsb s.adsbByIcao track))
  | .ageOut now => inferInstanceAs (Decidable (LeavesLast py now s.adsb s.adsbByIcao))

/-- The index of one side between events: it names tracks that have the address, and none that has
it is newer. -/
structure AddressInv (tracks : Entries M) (byIcao : PyDict String String) (clock : M.Time) :
    Prop where
  named : ∀ address uid, byIcao.get? address = some uid → address ≠ "" ∧ uid ≠ "" ∧
    ∃ entry, tracks.get? uid = some entry ∧ icaoKey py entry.track = address
  newest : ∀ uid entry, tracks.get? uid = some entry → icaoKey py entry.track ≠ "" →
    ∃ owner entry', byIcao.get? (icaoKey py entry.track) = some owner ∧
      tracks.get? owner = some entry' ∧ M.le entry.ts entry'.ts
  past : ∀ uid entry, tracks.get? uid = some entry → M.le entry.ts clock

/-- What holds after `_age_out`: both indexes are those of the live tracks, an aircraft without a
live radar track is published by the fallback, and a radar track is matched by its address to a
live ADS-B track that has it. -/
structure AddressSound (now : M.Time) (s : Fusion M) : Prop where
  radar : Coherent py now s.fuser.tracks s.radarByIcao
  adsb : Coherent py now s.adsb s.adsbByIcao
  published : ∀ track, Indexable track →
    (∀ uid entry, s.fuser.tracks.get? uid = some entry → M.expired now entry.ts = false →
      icaoKey py entry.track ≠ icaoKey py track) → fallback py s track = some true
  matched : ∀ radar reported later uid entry, icaoText radar = true → icaoKey py radar ≠ "" →
    s.adsb.get? uid = some entry → M.aged later entry.ts = false →
    icaoKey py entry.track = icaoKey py radar → ∃ found track,
      findMatch py (radarReport py s reported radar) radar later =
        some (some (.exact found track)) ∧ icaoKey py track = icaoKey py radar

variable {py} {tracks : Entries M} {byIcao : PyDict String String} {clock now : M.Time}

theorem addressInv_empty : AddressInv py (PyDict.empty : Entries M) PyDict.empty clock where
  named := fun _ _ h => by cases h
  newest := fun _ _ h => by cases h
  past := fun _ _ h => by cases h

theorem AddressInv.later (h : AddressInv py tracks byIcao clock) (hle : M.le clock now) :
    AddressInv py tracks byIcao now :=
  { h with past := fun uid entry hentry => M.le_trans _ _ _ (h.past uid entry hentry) hle }

/-! ## Reports -/

/-- The index after a report. -/
def renamed (py : PyText) (byIcao : PyDict String String) (track : Track) : PyDict String String :=
  if icaoKey py track ≠ "" then byIcao.set (icaoKey py track) (uidOf py track) else byIcao

theorem get?_renamed (byIcao : PyDict String String) (track : Track) (address : String) :
    (renamed py byIcao track).get? address =
      if icaoKey py track ≠ "" ∧ address = icaoKey py track then some (uidOf py track)
      else byIcao.get? address := by
  rw [renamed]
  by_cases hempty : icaoKey py track ≠ ""
  · rw [if_pos hempty]
    by_cases haddress : address = icaoKey py track
    · rw [if_pos ⟨hempty, haddress⟩, haddress, get?_set_self]
    · rw [if_neg fun h => haddress h.2, get?_set_of_ne _ haddress]
  · rw [if_neg hempty, if_neg fun h => hempty h.1]

/-- A report leaves the index of its own uid only for its own address. -/
theorem AddressInv.eq_of_named {track : Track} {address : String}
    (h : AddressInv py tracks byIcao clock) (hkeeps : KeepsAddress py tracks byIcao track)
    (hget : byIcao.get? address = some (uidOf py track)) :
    icaoKey py track ≠ "" ∧ address = icaoKey py track := by
  obtain ⟨hempty, -, entry, hentry, rfl⟩ := h.named address _ hget
  have hsame := hkeeps entry hentry hget
  exact ⟨hsame ▸ hempty, hsame.symm⟩

/-- A report that takes the address from no named track keeps the index. -/
theorem AddressInv.report {track : Track} (h : AddressInv py tracks byIcao clock)
    (hle : M.le clock now) (hkeeps : KeepsAddress py tracks byIcao track) :
    AddressInv py (tracks.set (uidOf py track) ⟨track, now⟩) (renamed py byIcao track) now where
  named := fun address uid hget => by
    rw [get?_renamed] at hget
    split at hget
    next hnew =>
      rw [← Option.some.inj hget, get?_set_self]
      exact ⟨hnew.2 ▸ hnew.1, uidOf_ne track, _, rfl, hnew.2.symm⟩
    next hold =>
      have huid : uid ≠ uidOf py track := by
        rintro rfl
        exact hold (h.eq_of_named hkeeps hget)
      rw [get?_set_of_ne _ huid]
      exact h.named address uid hget
  newest := fun uid entry hentry haddress => by
    rw [get?_renamed]
    by_cases huid : uid = uidOf py track
    · rw [huid, get?_set_self] at hentry
      rw [← Option.some.inj hentry] at haddress ⊢
      exact ⟨_, _, if_pos ⟨haddress, rfl⟩, get?_set_self _ _ _, M.le_refl now⟩
    · rw [get?_set_of_ne _ huid] at hentry
      by_cases hsame : icaoKey py entry.track = icaoKey py track
      · -- The report is the newest track with this address.
        refine ⟨_, _, if_pos ⟨hsame ▸ haddress, hsame⟩, get?_set_self _ _ _, ?_⟩
        exact M.le_trans _ _ _ (h.past uid entry hentry) hle
      · obtain ⟨owner, entry', howner, hentry', hts⟩ := h.newest uid entry hentry haddress
        have hne : owner ≠ uidOf py track := by
          rintro rfl
          exact hsame (h.eq_of_named hkeeps howner).2
        refine ⟨owner, entry', (if_neg fun hboth => hsame hboth.2).trans howner, ?_, hts⟩
        rw [get?_set_of_ne _ hne]
        exact hentry'
  past := by
    have hpast : ∀ uid entry, tracks.get? uid = some entry → M.le entry.ts now :=
      fun uid entry hentry => M.le_trans _ _ _ (h.past uid entry hentry) hle
    exact forall_set (P := fun entry : RadarEntry M.toKinematics => M.le entry.ts now) hpast
      (M.le_refl now)

/-! ## Age -/

/-- What is left of one side when the stale tracks are gone. -/
structure Aged (now : M.Time) (tracks : Entries M) (byIcao : PyDict String String)
    (tracks' : Entries M) (byIcao' : PyDict String String) : Prop where
  get? : ∀ uid entry, tracks'.get? uid = some entry ↔
    tracks.get? uid = some entry ∧ M.expired now entry.ts = false
  byIcao : ∀ address uid, byIcao'.get? address = some uid ↔ byIcao.get? address = some uid ∧
    ∀ entry, tracks.get? uid = some entry → M.expired now entry.ts = false

variable {tracks' : Entries M} {byIcao' : PyDict String String}

/-- The newest tracks leave last. -/
theorem AddressInv.aged (h : AddressInv py tracks byIcao clock)
    (haged : Aged now tracks byIcao tracks' byIcao') : AddressInv py tracks' byIcao' clock where
  named := fun address uid hget => by
    obtain ⟨hold, hlive⟩ := (haged.byIcao address uid).mp hget
    obtain ⟨hempty, huid, entry, hentry, haddress⟩ := h.named address uid hold
    exact ⟨hempty, huid, entry, (haged.get? uid entry).mpr ⟨hentry, hlive entry hentry⟩, haddress⟩
  newest := fun uid entry hentry haddress => by
    obtain ⟨hold, hlive⟩ := (haged.get? uid entry).mp hentry
    obtain ⟨owner, entry', howner, hentry', hts⟩ := h.newest uid entry hold haddress
    have hlive' : M.expired now entry'.ts = false := by
      cases hexpired : M.expired now entry'.ts with
      | false => rfl
      | true =>
        rw [M.expired_older now _ _ hts hexpired] at hlive
        cases hlive
    refine ⟨owner, entry', (haged.byIcao _ owner).mpr ⟨howner, fun e he => ?_⟩,
      (haged.get? owner entry').mpr ⟨hentry', hlive'⟩, hts⟩
    rw [hentry'] at he
    rw [← Option.some.inj he]
    exact hlive'
  past := fun uid entry hentry => h.past uid entry ((haged.get? uid entry).mp hentry).1

/-- Without stale tracks the index is that of the live tracks. -/
theorem AddressInv.coherent (h : AddressInv py tracks byIcao clock)
    (hlive : ∀ uid entry, tracks.get? uid = some entry → M.expired now entry.ts = false) :
    Coherent py now tracks byIcao := by
  constructor
  · intro address
    constructor
    · intro hcontains
      obtain ⟨uid, hget⟩ := Option.isSome_iff_exists.mp hcontains
      obtain ⟨hempty, -, entry, hentry, haddress⟩ := h.named address uid hget
      exact ⟨hempty, uid, entry, hentry, hlive uid entry hentry, haddress⟩
    · rintro ⟨hempty, uid, entry, hentry, -, rfl⟩
      obtain ⟨owner, -, howner, -⟩ := h.newest uid entry hentry hempty
      exact contains_of_get? howner
  · intro address uid hget
    obtain ⟨-, -, entry, hentry, haddress⟩ := h.named address uid hget
    exact ⟨entry, hentry, hlive uid entry hentry, haddress⟩

/-! ## The stale tracks leave -/

theorem mem_staleUids {uid : String} :
    uid ∈ staleUids tracks now ↔
      ∃ entry, tracks.get? uid = some entry ∧ M.expired now entry.ts = true := by
  rw [staleUids, mem_map]
  constructor
  · rintro ⟨e, he, rfl⟩
    obtain ⟨hmem, hexpired⟩ := mem_filter.mp he
    exact ⟨e.2, get?_eq_some_iff.mpr hmem, hexpired⟩
  · rintro ⟨entry, hget, hexpired⟩
    exact ⟨(uid, entry), mem_filter.mpr ⟨get?_eq_some_iff.mp hget, hexpired⟩, rfl⟩

theorem nodup_staleUids : (staleUids tracks now).Nodup :=
  tracks.nodup.sublist (filter_sublist.map Prod.fst)

theorem notMem_staleUids {uid : String} {entry : RadarEntry M.toKinematics}
    (h : tracks.get? uid = some entry) :
    uid ∉ staleUids tracks now ↔ M.expired now entry.ts = false := by
  rw [mem_staleUids, ← Bool.not_eq_true, not_iff_not]
  constructor
  · rintro ⟨entry', hentry', hexpired⟩
    rw [h] at hentry'
    rwa [Option.some.inj hentry']
  · exact fun hexpired => ⟨entry, h, hexpired⟩

/-- What the index names has the address. -/
def Named (py : PyText) (tracks : Entries M) (byIcao : PyDict String String) : Prop :=
  ∀ address uid, byIcao.get? address = some uid →
    address ≠ "" ∧ ∃ entry, tracks.get? uid = some entry ∧ icaoKey py entry.track = address

variable {s : Fusion M} {stale : List String} {k : String} {entry : RadarEntry M.toKinematics}

/-- A radar track that leaves takes exactly its own entries of the index with it. -/
theorem radarByIcao_forget (hentry : s.fuser.tracks.get? k = some entry)
    (hnamed : Named py s.fuser.tracks s.radarByIcao) (address uid : String) :
    (forgetRadar py stale s k entry.track).radarByIcao.get? address = some uid ↔
      s.radarByIcao.get? address = some uid ∧ uid ≠ k := by
  have hown : s.radarByIcao.get? address = some k →
      address ≠ "" ∧ address = icaoKey py entry.track := by
    intro hget
    obtain ⟨hempty, entry', hentry', haddress⟩ := hnamed address k hget
    rw [hentry] at hentry'
    rw [← Option.some.inj hentry'] at haddress
    exact ⟨hempty, haddress.symm⟩
  rw [forgetRadar]
  split
  next hboth =>
    by_cases haddress : address = icaoKey py entry.track
    · rw [haddress, get?_pop_self, hboth.2]
      constructor
      · intro h
        cases h
      · rintro ⟨hk, hne⟩
        exact absurd (Option.some.inj hk).symm hne
    · rw [get?_pop_of_ne _ haddress]
      refine (and_iff_left_of_imp ?_).symm
      rintro hget rfl
      exact haddress (hown hget).2
  next hnot =>
    refine (and_iff_left_of_imp ?_).symm
    rintro hget rfl
    obtain ⟨hempty, rfl⟩ := hown hget
    exact hnot ⟨hempty, hget⟩

/-- The loop over the radar tracks comes to its end, and takes the tracks and what the index names
of them. -/
theorem retireRadar_spec : ∀ {ks : List String} {s : Fusion M}, ks.Nodup →
    (∀ k ∈ ks, ∃ entry, s.fuser.tracks.get? k = some entry) →
    (∀ uid entry, s.fuser.tracks.get? uid = some entry → icaoText entry.track = true) →
    Named py s.fuser.tracks s.radarByIcao →
    (retireRadar py stale ks s).2 = true ∧
      (∀ uid, (retireRadar py stale ks s).1.fuser.tracks.get? uid =
        if uid ∈ ks then none else s.fuser.tracks.get? uid) ∧
      ∀ address uid, (retireRadar py stale ks s).1.radarByIcao.get? address = some uid ↔
        s.radarByIcao.get? address = some uid ∧ uid ∉ ks
  | [], s, _, _, _, _ =>
    ⟨rfl, fun _ => rfl, fun _ _ => (and_iff_left List.not_mem_nil).symm⟩
  | k :: ks, s, hnodup, hpresent, htext, hnamed => by
    obtain ⟨entry, hentry⟩ := hpresent k mem_cons_self
    obtain ⟨hk, hks⟩ := nodup_cons.mp hnodup
    have hother : ∀ {uid}, uid ≠ k → (s.fuser.tracks.pop k).get? uid =
        s.fuser.tracks.get? uid := fun hne => get?_pop_of_ne _ hne
    have hindex := @radarByIcao_forget py M s stale k entry hentry hnamed
    have hpresent' : ∀ k' ∈ ks, ∃ entry,
        (forgetRadar py stale s k entry.track).fuser.tracks.get? k' = some entry := by
      intro k' hk'
      have hne : k' ≠ k := fun heq => hk (heq ▸ hk')
      obtain ⟨entry', hentry'⟩ := hpresent k' (mem_cons_of_mem k hk')
      exact ⟨entry', (hother hne).trans hentry'⟩
    have htext' : ∀ uid e, (forgetRadar py stale s k entry.track).fuser.tracks.get? uid =
        some e → icaoText e.track = true := by
      intro uid e he
      exact htext uid e (get?_of_get?_pop he)
    have hnamed' : Named py (forgetRadar py stale s k entry.track).fuser.tracks
        (forgetRadar py stale s k entry.track).radarByIcao := by
      intro address uid hget
      obtain ⟨hget, hne⟩ := (hindex address uid).mp hget
      obtain ⟨hempty, e, he, haddress⟩ := hnamed address uid hget
      exact ⟨hempty, e, (hother hne).trans he, haddress⟩
    obtain ⟨hend, htracks, hnames⟩ := retireRadar_spec hks hpresent' htext' hnamed'
    have hstep : retireRadar py stale (k :: ks) s =
        retireRadar py stale ks (forgetRadar py stale s k entry.track) := by
      rw [retireRadar]
      simp [hentry, htext k entry hentry]
    rw [hstep]
    refine ⟨hend, get?_of_pop_cons hk htracks, fun address uid => ?_⟩
    rw [hnames, hindex, and_assoc, mem_cons, not_or]

theorem adsbByIcao_forget (htext : icaoText entry.track = true) (address uid : String) :
    (forgetAdsb py s k entry.track).adsbByIcao.get? address = some uid ↔
      s.adsbByIcao.get? address = some uid ∧ icaoKey py entry.track ≠ address := by
  rw [forgetAdsb, if_pos htext]
  by_cases haddress : address = icaoKey py entry.track
  · rw [haddress, get?_pop_self]
    constructor
    · intro h
      cases h
    · exact fun h => absurd rfl h.2
  · rw [get?_pop_of_ne _ haddress]
    exact (and_iff_left (Ne.symm haddress)).symm

/-- The loop over the ADS-B tracks takes the tracks, and from the index all their addresses. -/
theorem retireAdsb_spec : ∀ {ks : List String} {s : Fusion M}, ks.Nodup →
    (∀ k ∈ ks, ∃ entry, s.adsb.get? k = some entry) →
    (∀ uid entry, s.adsb.get? uid = some entry → Indexable entry.track) →
    (∀ uid, (retireAdsb py ks s).adsb.get? uid =
        if uid ∈ ks then none else s.adsb.get? uid) ∧
      ∀ address uid, (retireAdsb py ks s).adsbByIcao.get? address = some uid ↔
        s.adsbByIcao.get? address = some uid ∧
          ∀ k ∈ ks, ∀ entry, s.adsb.get? k = some entry → icaoKey py entry.track ≠ address
  | [], s, _, _, _ =>
    ⟨fun _ => rfl, fun _ _ => (and_iff_left fun _ h => absurd h List.not_mem_nil).symm⟩
  | k :: ks, s, hnodup, hpresent, hindexable => by
    obtain ⟨entry, hentry⟩ := hpresent k mem_cons_self
    obtain ⟨hk, hks⟩ := nodup_cons.mp hnodup
    have hother : ∀ {uid}, uid ≠ k → (s.adsb.pop k).get? uid = s.adsb.get? uid :=
      fun hne => get?_pop_of_ne _ hne
    have hne : ∀ {k'}, k' ∈ ks → k' ≠ k := fun hk' heq => hk (heq ▸ hk')
    obtain ⟨htext, hhash⟩ := hindexable k entry hentry
    have hpresent' : ∀ k' ∈ ks, ∃ entry',
        (forgetAdsb py s k entry.track).adsb.get? k' = some entry' := by
      intro k' hk'
      obtain ⟨entry', hentry'⟩ := hpresent k' (mem_cons_of_mem k hk')
      exact ⟨entry', (hother (hne hk')).trans hentry'⟩
    have hindexable' : ∀ uid e, (forgetAdsb py s k entry.track).adsb.get? uid = some e →
        Indexable e.track := fun uid e he => hindexable uid e (get?_of_get?_pop he)
    obtain ⟨htracks, hnames⟩ := retireAdsb_spec hks hpresent' hindexable'
    have hstep : retireAdsb py (k :: ks) s =
        retireAdsb py ks (forgetAdsb py s k entry.track) := by
      rw [retireAdsb]
      simp [hentry, htext, hhash]
    rw [hstep]
    refine ⟨get?_of_pop_cons hk htracks, fun address uid => ?_⟩
    rw [hnames, adsbByIcao_forget htext, and_assoc]
    refine and_congr_right fun _ => ?_
    constructor
    · rintro ⟨hfirst, hrest⟩ k' hk' e he
      rcases mem_cons.mp hk' with rfl | hk'
      · rw [hentry] at he
        rwa [← Option.some.inj he]
      · exact hrest k' hk' e ((hother (hne hk')).trans he)
    · intro hall
      refine ⟨hall k mem_cons_self entry hentry, fun k' hk' e he => ?_⟩
      exact hall k' (mem_cons_of_mem k hk') e (get?_of_get?_pop he)

/-! ## The bridge -/

variable (py) in
/-- What holds between events. -/
structure FusionInv (s : Fusion M) : Prop where
  radar : AddressInv py s.fuser.tracks s.radarByIcao s.clock
  adsb : AddressInv py s.adsb s.adsbByIcao s.clock
  text : ∀ uid entry, s.fuser.tracks.get? uid = some entry → icaoText entry.track = true
  indexable : ∀ uid entry, s.adsb.get? uid = some entry → Indexable entry.track

theorem fusionInv_init (start : M.Time) : FusionInv py (Fusion.init start) where
  radar := addressInv_empty
  adsb := addressInv_empty
  text := fun _ _ h => by cases h
  indexable := fun _ _ h => by cases h

theorem AddressInv.toNamed (h : AddressInv py tracks byIcao clock) : Named py tracks byIcao := by
  intro address uid hget
  obtain ⟨hempty, -, hentry⟩ := h.named address uid hget
  exact ⟨hempty, hentry⟩

/-- The stale tracks are gone, and what the index named of them. -/
theorem aged_of_stale
    (htracks : ∀ uid, tracks'.get? uid = if uid ∈ staleUids tracks now then none else tracks.get? uid)
    (hnames : ∀ address uid, byIcao'.get? address = some uid ↔
      byIcao.get? address = some uid ∧ uid ∉ staleUids tracks now) :
    Aged now tracks byIcao tracks' byIcao' where
  get? := fun uid entry => by
    rw [htracks]
    constructor
    · intro h
      split at h
      next => cases h
      next hnot => exact ⟨h, (notMem_staleUids h).mp hnot⟩
    · rintro ⟨hget, hlive⟩
      rw [if_neg ((notMem_staleUids hget).mpr hlive)]
      exact hget
  byIcao := fun address uid => by
    rw [hnames]
    refine and_congr_right fun _ => ?_
    constructor
    · exact fun hnot entry hget => (notMem_staleUids hget).mp hnot
    · intro hlive hmem
      obtain ⟨entry, hget, hexpired⟩ := mem_staleUids.mp hmem
      rw [hlive entry hget] at hexpired
      cases hexpired

/-- When the named tracks leave last, an address leaves with the track that it names. -/
theorem leaves_iff {address uid : String} (hnamed : Named py tracks byIcao)
    (hlast : LeavesLast py now tracks byIcao) (hget : byIcao.get? address = some uid) :
    (∀ k ∈ staleUids tracks now, ∀ entry, tracks.get? k = some entry →
      icaoKey py entry.track ≠ address) ↔ uid ∉ staleUids tracks now := by
  obtain ⟨-, owner, howner, haddress⟩ := hnamed address uid hget
  constructor
  · intro hall hmem
    exact hall uid hmem owner howner haddress
  · rintro hnot k hk entry hentry rfl
    obtain ⟨entry', hentry', hexpired⟩ := mem_staleUids.mp hk
    rw [hentry] at hentry'
    rw [← Option.some.inj hentry'] at hexpired
    exact hnot (mem_staleUids.mpr ⟨owner, howner, hlast (k, entry)
      (get?_eq_some_iff.mp hentry) hexpired uid hget owner howner⟩)

/-- `_age_out` leaves the live radar tracks and their index, and the live ADS-B tracks and, when
the named tracks leave last, their index. -/
theorem aged_ageOut (h : FusionInv py s) (hlast : LeavesLast py now s.adsb s.adsbByIcao) :
    Aged now s.fuser.tracks s.radarByIcao (ageOutFusion py s now).fuser.tracks
        (ageOutFusion py s now).radarByIcao ∧
      Aged now s.adsb s.adsbByIcao (ageOutFusion py s now).adsb
        (ageOutFusion py s now).adsbByIcao ∧
      (ageOutFusion py s now).clock = now := by
  have hpresent : ∀ (tracks : Entries M), ∀ k ∈ staleUids tracks now,
      ∃ entry, tracks.get? k = some entry := by
    intro tracks k hk
    obtain ⟨entry, hget, -⟩ := mem_staleUids.mp hk
    exact ⟨entry, hget⟩
  obtain ⟨hend, htracks, hnames⟩ := @retireRadar_spec py M (staleUids s.fuser.tracks now)
    (staleUids s.fuser.tracks now) { s with clock := now } nodup_staleUids
    (hpresent s.fuser.tracks) h.text h.radar.toNamed
  obtain ⟨hadsb, hbyIcao, -, hclock⟩ := @retireRadar_frame py M
    (staleUids s.fuser.tracks now) (staleUids s.fuser.tracks now) { s with clock := now }
  rw [ageOutFusion]
  simp only [hend, if_true]
  generalize (retireRadar py (staleUids s.fuser.tracks now) (staleUids s.fuser.tracks now)
    { s with clock := now }).1 = retired at *
  obtain ⟨hfuser, hkept, hclock'⟩ := @retireAdsb_frame py M (staleUids s.adsb now) retired
  have hspec := @retireAdsb_spec py M (staleUids s.adsb now) retired nodup_staleUids
    (by rw [hadsb]; exact hpresent s.adsb) (by rw [hadsb]; exact h.indexable)
  rw [hadsb, hbyIcao] at hspec
  refine ⟨?_, aged_of_stale hspec.1 fun address uid => ?_, hclock'.trans hclock⟩
  · rw [hfuser, hkept]
    exact aged_of_stale htracks hnames
  · rw [hspec.2]
    exact and_congr_right fun hget => leaves_iff h.adsb.toNamed hlast hget

theorem tracks_report (fuser : Fuser M.toKinematics) (now : M.Time) (track : Track) :
    (report py M.toKinematics fuser now track).1.tracks =
      fuser.tracks.set (uidOf py track) ⟨track, now⟩ := by
  rw [report]
  split
  next =>
    split
    next => rfl
    next => rfl
  next => rfl

/-- An event that meets the condition keeps the indexes. -/
theorem fusionInv_step {e : FusionEvent M} (h : FusionInv py s) (horder : InOrder s e)
    (hkeeps : KeepsAddresses py s e) : FusionInv py (fusionStep py s e) := by
  cases e with
  | radar now track =>
    obtain ⟨htext, hkeeps⟩ := hkeeps
    have hindex : (radarReport py s now track).radarByIcao = renamed py s.radarByIcao track := by
      rw [radarReport, renamed]
      exact if_congr (and_iff_right htext) rfl rfl
    have htracks : (radarReport py s now track).fuser.tracks =
        s.fuser.tracks.set (uidOf py track) ⟨track, now⟩ := tracks_report _ _ _
    constructor
    case radar =>
      show AddressInv py (radarReport py s now track).fuser.tracks
        (radarReport py s now track).radarByIcao now
      rw [hindex, htracks]
      exact h.radar.report horder hkeeps
    case adsb => exact h.adsb.later horder
    case text =>
      show ∀ uid entry, (radarReport py s now track).fuser.tracks.get? uid = some entry → _
      rw [htracks]
      exact forall_set h.text htext
    case indexable => exact h.indexable
  | adsb now track =>
    obtain ⟨hindexable, hkeeps⟩ := hkeeps
    have hindex : (adsbReport py s now track).adsbByIcao = renamed py s.adsbByIcao track := by
      rw [adsbReport, renamed]
      exact if_congr (and_iff_right hindexable.1) rfl rfl
    constructor
    case radar => exact h.radar.later horder
    case adsb =>
      show AddressInv py (s.adsb.set (uidOf py track) ⟨track, now⟩)
        (adsbReport py s now track).adsbByIcao now
      rw [hindex]
      exact h.adsb.report horder hkeeps
    case text => exact h.text
    case indexable => exact forall_set h.indexable hindexable
  | ageOut now =>
    obtain ⟨hradar, hadsb, hclock⟩ := aged_ageOut h hkeeps
    constructor
    case radar =>
      show AddressInv py _ _ (ageOutFusion py s now).clock
      rw [hclock]
      exact (h.radar.aged hradar).later horder
    case adsb =>
      show AddressInv py _ _ (ageOutFusion py s now).clock
      rw [hclock]
      exact (h.adsb.aged hadsb).later horder
    case text => exact fun uid entry hget => h.text uid entry ((hradar.get? uid entry).mp hget).1
    case indexable =>
      exact fun uid entry hget => h.indexable uid entry ((hadsb.get? uid entry).mp hget).1

/-! ## What the indexes are for -/

/-- An aircraft without a live radar track is not covered. -/
theorem fallback_of_coherent {track : Track}
    (h : Coherent py now s.fuser.tracks s.radarByIcao) (hindexable : Indexable track)
    (hnone : ∀ uid entry, s.fuser.tracks.get? uid = some entry → M.expired now entry.ts = false →
      icaoKey py entry.track ≠ icaoKey py track) : fallback py s track = some true := by
  have hcovered : s.radarByIcao.contains (icaoKey py track) = false := by
    cases hcontains : s.radarByIcao.contains (icaoKey py track) with
    | false => rfl
    | true =>
      obtain ⟨-, uid, entry, hentry, hlive, haddress⟩ := (h.1 _).mp hcontains
      exact absurd haddress (hnone uid entry hentry hlive)
  rw [fallback, hindexable.1, hindexable.2, hcovered, Bool.and_false, Bool.or_true]
  rfl

/-- The index names a track that is as new as any with the address. -/
theorem exactMatch_of_inv {radar : Track} {uid : String} {later : M.Time}
    (h : AddressInv py s.adsb s.adsbByIcao clock) (hempty : icaoKey py radar ≠ "")
    (hentry : s.adsb.get? uid = some entry) (haged : M.aged later entry.ts = false)
    (haddress : icaoKey py entry.track = icaoKey py radar) :
    ∃ found track, exactMatch py s radar later = some (found, track) ∧
      icaoKey py track = icaoKey py radar := by
  obtain ⟨owner, entry', howner, hentry', hts⟩ := h.newest uid entry hentry (haddress ▸ hempty)
  rw [haddress] at howner
  obtain ⟨-, hne, e, he, hname⟩ := h.named _ owner howner
  rw [hentry'] at he
  rw [← Option.some.inj he] at hname
  have haged' : M.aged later entry'.ts = false := by
    cases hcase : M.aged later entry'.ts with
    | false => rfl
    | true =>
      rw [M.aged_older later _ _ hts hcase] at haged
      cases haged
  refine ⟨owner, entry'.track, ?_, hname⟩
  simp [exactMatch, guard, hempty, howner, hne, hentry', haged']

/-- Between events, when nothing is stale, the indexes do what they are for. -/
theorem FusionInv.addressSound (h : FusionInv py s)
    (hradar : ∀ uid entry, s.fuser.tracks.get? uid = some entry → M.expired now entry.ts = false)
    (hadsb : ∀ uid entry, s.adsb.get? uid = some entry → M.expired now entry.ts = false) :
    AddressSound py now s where
  radar := h.radar.coherent hradar
  adsb := h.adsb.coherent hadsb
  published := fun track hindexable hnone =>
    fallback_of_coherent (h.radar.coherent hradar) hindexable hnone
  matched := fun radar reported later uid entry htext hempty hentry haged haddress => by
    obtain ⟨found, track, hfound, hname⟩ :=
      @exactMatch_of_inv py M s.clock (radarReport py s reported radar) entry radar uid later h.adsb
        hempty hentry haged haddress
    refine ⟨found, track, ?_, hname⟩
    rw [findMatch, if_pos htext]
    simp only [hfound]

/-- In every run in order that ends in an `_age_out`: when no report takes the address from a track
that the index names, and no ADS-B track leaves before the one that the index names for its
address, the indexes are those of the live tracks and do what they are for. -/
theorem addresses_sound (py : PyText) (M : Matcher) (start : M.Time) (events : List (FusionEvent M))
    (now : M.Time)
    (h : Runs.Guarded (fusionStep py) (fun s e => InOrder s e ∧ KeepsAddresses py s e)
      (Fusion.init start) (events ++ [.ageOut now])) :
    AddressSound py now
      (Runs.final (fusionStep py) (Fusion.init start) (events ++ [.ageOut now])) := by
  obtain ⟨hevents, ⟨horder, hlast⟩, -⟩ := Runs.guarded_append.mp h
  have hinv : FusionInv py (Runs.final (fusionStep py) (Fusion.init start) events) :=
    (Runs.always_of_guarded (fun s e hs he => fusionInv_step hs he.1 he.2) (fusionInv_init start)
      hevents).last
  obtain ⟨hradar, hadsb, -⟩ := aged_ageOut hinv hlast
  rw [Runs.final_append]
  refine (fusionInv_step hinv horder hlast).addressSound ?_ ?_
  · exact fun uid entry hget => ((hradar.get? uid entry).mp hget).2
  · exact fun uid entry hget => ((hadsb.get? uid entry).mp hget).2

/-! ## An address that is lost -/

instance decidableInOrder (s : Fusion meridianMatcher) (e : FusionEvent meridianMatcher) :
    Decidable (InOrder s e) :=
  Int.decLe s.clock e.time

/-- A report to `on_radar`, at once. -/
def radarAt (now : Int) (track : Track) : List (FusionEvent meridianMatcher) :=
  onRadarTrack now now track

/-- A radar reports an aircraft with its address, and then under the same uid without it. -/
def losing : List (FusionEvent meridianMatcher) :=
  radarAt 0 (aircraft "4ca2d1" "1234") ++
    radarAt 1 (PyDict.empty.set "uid" (.str "4ca2d1")) ++ [.ageOut (100 : Int)]

/-- An aircraft is reported in two spellings of its address. -/
def respelled : List (FusionEvent meridianMatcher) :=
  adsbAt 0 (aircraft "4CA2D1" "1234") ++ adsbAt 50 (aircraft "4ca2d1" "1234") ++
    [.ageOut (61 : Int)]

/-- When the address is lost, no radar track is left and the fallback still holds the aircraft
back.  When the first spelling leaves, the index does not have the address of the second one, which
is live. -/
theorem lost_address_hides :
    Runs.Guarded (fusionStep asciiText) InOrder noTracks losing ∧
    (Runs.final (fusionStep asciiText) noTracks losing).fuser.tracks.entries.isEmpty = true ∧
    fallback asciiText (Runs.final (fusionStep asciiText) noTracks losing)
      (aircraft "4ca2d1" "1234") = some false ∧
    ¬ AddressSound asciiText (100 : Int) (Runs.final (fusionStep asciiText) noTracks losing) ∧
    Runs.Guarded (fusionStep asciiText) InOrder noTracks respelled ∧
    ¬ AddressSound asciiText (61 : Int) (Runs.final (fusionStep asciiText) noTracks respelled) := by
  have hheld : fallback asciiText (Runs.final (fusionStep asciiText) noTracks losing)
      (aircraft "4ca2d1" "1234") = some false := by decide +kernel
  have hgone : (Runs.final (fusionStep asciiText) noTracks losing).fuser.tracks.entries.isEmpty =
      true := by decide +kernel
  have hlive : ((Runs.final (fusionStep asciiText) noTracks respelled).adsb.get? "4ca2d1").any
      (fun entry => !meridianMatcher.expired (61 : Int) entry.ts &&
        icaoKey asciiText entry.track == "4ca2d1") = true := by decide +kernel
  have hlost : (Runs.final (fusionStep asciiText) noTracks respelled).adsbByIcao.contains "4ca2d1" =
      false := by decide +kernel
  refine ⟨by decide +kernel, hgone, hheld, fun h => ?_, by decide +kernel, fun h => ?_⟩
  · have hpublished := h.published (aircraft "4ca2d1" "1234") ⟨by decide +kernel, by decide +kernel⟩
      fun uid entry hget => by
        rw [PyDict.get?_eq_some_iff, List.isEmpty_iff.mp hgone] at hget
        cases hget
    rw [hheld] at hpublished
    cases hpublished
  · obtain ⟨entry, hget, hentry⟩ := (Option.any_eq_true _ _).mp hlive
    obtain ⟨hfresh, haddress⟩ := (Bool.and_eq_true _ _).mp hentry
    have hcontains := (h.adsb.1 "4ca2d1").mpr
      ⟨by decide, "4ca2d1", entry, hget, (Bool.not_eq_true' _).mp hfresh, beq_iff_eq.mp haddress⟩
    rw [hlost] at hcontains
    cases hcontains

/-- A radar track and an ADS-B track of one aircraft. -/
theorem addresses_sound_both :
    AddressSound asciiText (2 : Int) (Runs.final (fusionStep asciiText) (Fusion.init (0 : Int))
      ((radarAt 0 (aircraft "4ca2d1" "1234") ++ adsbAt 1 (aircraft "4ca2d1" "1234")) ++
        [.ageOut (2 : Int)])) :=
  addresses_sound asciiText meridianMatcher (0 : Int)
    (radarAt 0 (aircraft "4ca2d1" "1234") ++ adsbAt 1 (aircraft "4ca2d1" "1234")) (2 : Int)
    (by decide +kernel)

end Efdi.Tracks

import Efdi.Tracks.Twins

/-!
# Runs of twin suppression

An announcement outlives the choice that it rests on.  A copy that was announced can become the
kept one while its announcement runs, and a kept copy can go quiet before the announcements that
rest on it run out: then every copy is held back (`ranks_swapped_hides_both`).  When each kept copy
is not under an announcement itself and stays fresh long enough, one copy stays visible
(`one_copy_visible`).
-/

namespace Efdi.Tracks

open List Option PyDict

variable (T : TwinText)

/-! ## What is asked of a run -/

/-- The members of the groups that are not quiet. -/
def FreshMember (named : PyDict NameKey (PyDict String TwinCopy)) (now : Rat) (key : NameKey)
    (uid : String) (copy : TwinCopy) : Prop :=
  ∃ group, named.get? key = some group ∧ group.get? uid = some copy ∧
    quiet now copy.toSighting = false

/-- At every time from the last call on: when the copies of a group that are not quiet are near
each other, one of them is not suppressed. -/
def OneVisible (s : Twins) : Prop :=
  ∀ key t, s.now ≤ t → (∃ uid copy, FreshMember s.index.named t key uid copy) →
    (∀ uid copy uid' copy', FreshMember s.index.named t key uid copy →
      FreshMember s.index.named t key uid' copy' → nearCopy T copy copy' = some true) →
    ∃ uid copy, FreshMember s.index.named t key uid copy ∧
      ∀ track, pyStr T.toPyText (track.field "uid") = uid → isSuppressed T s.held track t = false

/-- The track of a call has no address. -/
def Addressless (call : TwinCall) : Prop := icaoOf T call.track = ""

/-- A uid is a member of a group that is not quiet. -/
def inGroup (group : PyDict String TwinCopy) (now : Rat) (uid : String) : Bool :=
  (group.get? uid).any fun copy => !quiet now copy.toSighting

/-- The copies near the one that is kept may be held back for it: it is not held back itself, and
it stays fresh until their announcements run out. -/
def Keeps (held : Announced) (group : PyDict String TwinCopy) (now : Rat) : Prop :=
  ∀ best ∈ best? group.entries,
    (∃ e ∈ group.entries, e.1 ≠ best.1 ∧ nearCopy T e.2 best.2 = some true) →
      heldBack held best.1 now = false ∧ now + twinTtl ≤ best.2.seen + twinFresh

/-- A report with a name finds its uid in no other group, and in its own group when it is held
back, and what is kept of the group may be kept. -/
def TwinSettled (s : Twins) (call : TwinCall) : Prop :=
  match readTwin T call with
  | .loose uid track (some (key, copy)) =>
    (∀ e ∈ s.index.named.entries, inGroup e.2 call.now uid = true → e.1 = key) ∧
    (heldBack s.held uid call.now = true →
      ∃ group ∈ s.index.named.get? key, inGroup group call.now uid = true) ∧
    Keeps T s.held
      (groupWith (forget { s.index with loose := s.index.loose.set uid track } call.now).named
        key uid copy call.now) call.now
  | _ => True

instance decidableAddressless (call : TwinCall) : Decidable (Addressless T call) :=
  inferInstanceAs (Decidable (icaoOf T call.track = ""))

instance decidableKeeps (held : Announced) (group : PyDict String TwinCopy) (now : Rat) :
    Decidable (Keeps T held group now) :=
  inferInstanceAs (Decidable (∀ best ∈ best? group.entries,
    (∃ e ∈ group.entries, e.1 ≠ best.1 ∧ nearCopy T e.2 best.2 = some true) →
      heldBack held best.1 now = false ∧ now + twinTtl ≤ best.2.seen + twinFresh))

instance decidableTwinSettled (s : Twins) (call : TwinCall) : Decidable (TwinSettled T s call) :=
  match h : readTwin T call with
  | .loose uid track (some (key, copy)) =>
    decidable_of_iff ((∀ e ∈ s.index.named.entries, inGroup e.2 call.now uid = true → e.1 = key) ∧
      (heldBack s.held uid call.now = true →
        ∃ group ∈ s.index.named.get? key, inGroup group call.now uid = true) ∧
      Keeps T s.held
        (groupWith (forget { s.index with loose := s.index.loose.set uid track } call.now).named
          key uid copy call.now) call.now) (by rw [TwinSettled, h])
  | .loose _ _ none => isTrue (by rw [TwinSettled, h]; trivial)
  | .keyed _ _ _ => isTrue (by rw [TwinSettled, h]; trivial)
  | .ignored => isTrue (by rw [TwinSettled, h]; trivial)

variable {T} {named : PyDict NameKey (PyDict String TwinCopy)} {held : Announced}
  {key : NameKey} {uid : String} {copy : TwinCopy} {now later : Rat} {s : Twins} {call : TwinCall}

/-! ## Times -/

variable {sighting : Sighting} {expiry : Rat} {key' : NameKey} {member : String} {c : TwinCopy}

theorem quiet_mono (hle : now ≤ later) (h : quiet later sighting = false) :
    quiet now sighting = false := by
  have hlater : ¬ twinFresh < later - sighting.seen := of_decide_eq_false h
  exact decide_eq_false fun hnow =>
    hlater (lt_of_lt_of_le hnow (sub_le_sub_right hle sighting.seen))

theorem quiet_of_le (h : now ≤ sighting.seen + twinFresh) :
    quiet now sighting = false :=
  decide_eq_false (not_lt.mpr (sub_le_iff_le_add'.mpr h))

theorem not_forgotten (h : quiet now sighting = false) :
    forgotten now sighting = false := by
  have hfresh : ¬ twinFresh < now - sighting.seen := of_decide_eq_false h
  have hle : twinFresh ≤ twinMemory := by decide +kernel
  exact decide_eq_false fun hnow => hfresh (lt_of_le_of_lt hle hnow)

theorem FreshMember.earlier (hle : now ≤ later) (h : FreshMember named later key uid copy) :
    FreshMember named now key uid copy := by
  obtain ⟨group, hgroup, hcopy, hfresh⟩ := h
  exact ⟨group, hgroup, hcopy, quiet_mono hle hfresh⟩

theorem FreshMember.still (h : FreshMember named now key uid copy)
    (hle : later ≤ copy.seen + twinFresh) : FreshMember named later key uid copy := by
  obtain ⟨group, hgroup, hcopy, -⟩ := h
  exact ⟨group, hgroup, hcopy, quiet_of_le hle⟩

theorem heldBack_later (hle : now ≤ later) (h : heldBack held uid now = false) :
    heldBack held uid later = false := by
  have hnow : ¬ now < (held.get? uid).getD 0 := of_decide_eq_false h
  exact decide_eq_false fun hlater => hnow (lt_of_le_of_lt hle hlater)

theorem heldBack_of_get? (h : held.get? uid = some expiry) :
    heldBack held uid now = decide (now < expiry) := by
  rw [heldBack, h]
  rfl

/-- A copy that is held back is announced. -/
theorem get?_of_heldBack (hclock : 0 ≤ now) (h : heldBack held uid now = true) :
    ∃ expiry, held.get? uid = some expiry ∧ now < expiry := by
  have hlt : now < (held.get? uid).getD 0 := of_decide_eq_true h
  cases hget : held.get? uid with
  | none =>
    rw [hget] at hlt
    exact absurd (lt_of_lt_of_le hlt hclock) (lt_irrefl now)
  | some expiry =>
    rw [hget] at hlt
    exact ⟨expiry, rfl, hlt⟩

/-! ## The choice in a group -/

theorem mem_select {α : Type} {test : String × α → Option Bool} : ∀ {es : List (String × α)}
    {uids : List String}, select test es = some uids → uid ∈ uids →
      ∃ e ∈ es, e.1 = uid ∧ test e = some true
  | [], uids, h, huid => by
    obtain rfl := some.inj h
    cases huid
  | e :: es, uids, h, huid => by
    obtain ⟨found, hfound, h⟩ := bind_eq_some_iff.mp h
    obtain ⟨rest, hrest, h⟩ := bind_eq_some_iff.mp h
    obtain rfl := some.inj h
    cases found with
    | true =>
      rcases mem_cons.mp huid with rfl | huid
      · exact ⟨e, .head _, rfl, hfound⟩
      · obtain ⟨e', he', hkey, htest⟩ := mem_select hrest huid
        exact ⟨e', mem_cons_of_mem e he', hkey, htest⟩
    | false =>
      obtain ⟨e', he', hkey, htest⟩ := mem_select hrest huid
      exact ⟨e', mem_cons_of_mem e he', hkey, htest⟩

theorem mem_foldl_outranks : ∀ (es : List (String × TwinCopy)) (best : String × TwinCopy),
    es.foldl (fun best e => if outranks e best then e else best) best ∈ best :: es
  | [], best => mem_singleton.mpr rfl
  | e :: es, best => by
    rw [foldl_cons]
    split
    next => exact mem_cons_of_mem best (mem_foldl_outranks es e)
    next =>
      rcases mem_cons.mp (mem_foldl_outranks es best) with hbest | hmem
      · rw [hbest]
        exact mem_cons_self
      · exact mem_cons_of_mem best (mem_cons_of_mem e hmem)

/-- The copy that is kept is one of the group. -/
theorem mem_of_best? {es : List (String × TwinCopy)} {best : String × TwinCopy}
    (h : best? es = some best) : best ∈ es := by
  cases es with
  | nil => cases h
  | cons e es =>
    rw [← some.inj h]
    exact mem_foldl_outranks es e

/-- What is announced is near the copy that is kept, and is not that copy. -/
theorem mem_nearTwins {group : PyDict String TwinCopy} (h : uid ∈ (nearTwins T group).getD []) :
    ∃ best ∈ best? group.entries, uid ≠ best.1 ∧
      ∃ e ∈ group.entries, e.1 = uid ∧ nearCopy T e.2 best.2 = some true := by
  obtain ⟨uids, huids, hmem⟩ : ∃ uids, nearTwins T group = some uids ∧ uid ∈ uids := by
    cases hnear : nearTwins T group with
    | none =>
      rw [hnear] at h
      cases h
    | some uids =>
      rw [hnear] at h
      exact ⟨uids, rfl, h⟩
  rw [nearTwins] at huids
  split at huids
  next =>
    obtain rfl := some.inj huids
    cases hmem
  next best hbest =>
    obtain ⟨e, he, rfl, htest⟩ := mem_select huids hmem
    refine ⟨best, hbest, ?_⟩
    split at htest
    next => cases htest
    next hne => exact ⟨hne, e, he, rfl, htest⟩

/-- The groups after a report. -/
def regroup (named : PyDict NameKey (PyDict String TwinCopy)) (key : NameKey) (uid : String)
    (copy : TwinCopy) (now : Rat) : PyDict NameKey (PyDict String TwinCopy) :=
  named.set key (groupWith named key uid copy now)

/-- The members of the groups after a report. -/
theorem freshMember_regroup (hseen : copy.seen = now) :
    FreshMember (regroup named key uid copy now) now key' member c ↔
      (key' = key ∧ member = uid ∧ c = copy) ∨
        (¬ (key' = key ∧ member = uid) ∧ FreshMember named now key' member c) := by
  have hfresh : quiet now copy.toSighting = false := by
    rw [quiet, hseen, sub_self]
    decide +kernel
  by_cases hkey : key' = key
  · rw [hkey]
    have hget : ∀ {m d}, (groupWith named key uid copy now).get? m = some d ↔
        (((named.get? key).getD empty).set uid copy).get? m = some d ∧
          quiet now d.toSighting = false := by
      intro m d
      rw [groupWith, get?_filter, filter_eq_some_iff, Bool.not_eq_true']
    have hset : FreshMember (regroup named key uid copy now) now key member c ↔
        (((named.get? key).getD empty).set uid copy).get? member = some c ∧
          quiet now c.toSighting = false := by
      constructor
      · rintro ⟨group, hgroup, hmember, -⟩
        rw [regroup, get?_set_self] at hgroup
        rw [← some.inj hgroup] at hmember
        exact hget.mp hmember
      · intro hmember
        exact ⟨_, get?_set_self _ _ _, hget.mpr hmember, hmember.2⟩
    rw [hset]
    by_cases hmember : member = uid
    · rw [hmember, get?_set_self]
      constructor
      · rintro ⟨hcopy, -⟩
        exact Or.inl ⟨rfl, rfl, (some.inj hcopy).symm⟩
      · rintro (⟨-, -, rfl⟩ | ⟨hnot, -⟩)
        · exact ⟨rfl, hfresh⟩
        · exact absurd ⟨rfl, rfl⟩ hnot
    · rw [get?_set_of_ne _ hmember, get?_getD_empty]
      constructor
      · rintro ⟨⟨group, hgroup, hc⟩, hquiet⟩
        exact Or.inr ⟨fun hboth => hmember hboth.2, group, hgroup, hc, hquiet⟩
      · rintro (⟨-, hboth, -⟩ | ⟨-, group, hgroup, hc, hquiet⟩)
        · exact absurd hboth hmember
        · exact ⟨⟨group, hgroup, hc⟩, hquiet⟩
  · rw [FreshMember, regroup, get?_set_of_ne _ hkey]
    constructor
    · intro h
      exact Or.inr ⟨fun hboth => hkey hboth.1, h⟩
    · rintro (⟨hboth, -⟩ | ⟨-, h⟩)
      · exact absurd hboth hkey
      · exact h

/-- What is forgotten was no fresh member. -/
theorem freshMember_forget {index : TwinIndex} :
    FreshMember (forget index now).named now key uid copy ↔
      FreshMember index.named now key uid copy := by
  constructor
  · rintro ⟨group, hgroup, hcopy⟩
    rw [forget, PyDict.get?_filter] at hgroup
    exact ⟨group, (Option.filter_eq_some_iff.mp hgroup).1, hcopy⟩
  · rintro ⟨group, hgroup, hcopy, hfresh⟩
    refine ⟨group, ?_, hcopy, hfresh⟩
    rw [forget, PyDict.get?_filter, hgroup]
    refine Option.filter_eq_some_iff.mpr ⟨rfl, ?_⟩
    rw [Bool.not_eq_true', List.all_eq_false]
    exact ⟨_, PyDict.get?_eq_some_iff.mp hcopy, Bool.eq_false_iff.mp (not_forgotten hfresh)⟩

/-! ## The announcements of a call -/

/-- A member of the group of a report is a fresh member. -/
theorem freshMember_of_mem {e : String × TwinCopy}
    (he : e ∈ (groupWith named key uid copy now).entries) :
    FreshMember (regroup named key uid copy now) now key e.1 e.2 := by
  have hget := get?_eq_some_iff.mpr he
  refine ⟨_, get?_set_self _ _ _, hget, ?_⟩
  rw [groupWith, get?_filter, filter_eq_some_iff, Bool.not_eq_true'] at hget
  exact hget.2

/-- The announcements after some uids are announced. -/
def announce (held : Announced) (uids : List String) (now : Rat) : Announced :=
  uids.foldl (fun held uid => onTwinSample held uid now) held

theorem get?_onTwinSample (member : String) :
    (onTwinSample held uid now).get? member =
      if member = uid ∧ uid ≠ "" then some (now + twinTtl) else held.get? member := by
  rw [onTwinSample]
  by_cases hempty : uid = ""
  · rw [if_pos hempty, if_neg fun h => h.2 hempty]
  · rw [if_neg hempty]
    by_cases hmember : member = uid
    · rw [if_pos ⟨hmember, hempty⟩, hmember, get?_set_self]
    · rw [if_neg fun h => hmember h.1, get?_set_of_ne _ hmember]

/-- A uid that is not announced keeps its announcement. -/
theorem get?_announce_of_notMem : ∀ {uids : List String} {held : Announced} {member : String},
    member ∉ uids → (announce held uids now).get? member = held.get? member
  | [], _, _, _ => rfl
  | uid :: uids, held, member, h => by
    have hrest : (announce (onTwinSample held uid now) uids now).get? member =
        (onTwinSample held uid now).get? member :=
      get?_announce_of_notMem fun hmem => h (mem_cons_of_mem uid hmem)
    refine hrest.trans ?_
    rw [get?_onTwinSample, if_neg]
    rintro ⟨rfl, -⟩
    exact h mem_cons_self

/-- An announcement is an old one or one of this call. -/
theorem get?_announce : ∀ {uids : List String} {held : Announced} {member : String} {expiry : Rat},
    (announce held uids now).get? member = some expiry →
      expiry = now + twinTtl ∨ held.get? member = some expiry
  | [], _, _, _, h => Or.inr h
  | uid :: uids, held, member, expiry, h => by
    have hrest : (announce (onTwinSample held uid now) uids now).get? member = some expiry := h
    rcases get?_announce hrest with hnew | hold
    · exact Or.inl hnew
    · rw [get?_onTwinSample] at hold
      split at hold
      next => exact Or.inl (some.inj hold).symm
      next => exact Or.inr hold

/-! ## One copy is visible -/

/-- No copy is a fresh member of two groups, and each that is held back is backed by one of its
group that is not held back and stays fresh until the announcement runs out. -/
structure Backed (named : PyDict NameKey (PyDict String TwinCopy)) (held : Announced)
    (now : Rat) : Prop where
  clock : 0 ≤ now
  seen : ∀ key uid copy, FreshMember named now key uid copy → copy.seen ≤ now
  bound : ∀ uid expiry, held.get? uid = some expiry → expiry ≤ now + twinTtl
  single : ∀ key key' uid copy copy', FreshMember named now key uid copy →
    FreshMember named now key' uid copy' → key = key'
  backed : ∀ key uid copy expiry, FreshMember named now key uid copy →
    held.get? uid = some expiry → now < expiry →
      ∃ kept c, FreshMember named now key kept c ∧ heldBack held kept now = false ∧
        expiry ≤ c.seen + twinFresh

theorem Backed.mono (h : Backed named held now) (hle : now ≤ later) :
    Backed named held later where
  clock := h.clock.trans hle
  seen := fun key uid copy hmember =>
    (h.seen key uid copy (hmember.earlier hle)).trans hle
  bound := fun uid expiry hget => (h.bound uid expiry hget).trans (add_le_add_left hle _)
  single := fun key key' uid copy copy' hmember hmember' =>
    h.single key key' uid copy copy' (hmember.earlier hle) (hmember'.earlier hle)
  backed := fun key uid copy expiry hmember hget hlt => by
    obtain ⟨kept, c, hkept, hfree, hfresh⟩ :=
      h.backed key uid copy expiry (hmember.earlier hle) hget (lt_of_le_of_lt hle hlt)
    exact ⟨kept, c, hkept.still (hlt.le.trans hfresh), heldBack_later hle hfree, hfresh⟩

theorem Backed.congr {named' : PyDict NameKey (PyDict String TwinCopy)}
    (h : Backed named held now)
    (hsame : ∀ key uid copy,
      FreshMember named' now key uid copy ↔ FreshMember named now key uid copy) :
    Backed named' held now where
  clock := h.clock
  seen := fun key uid copy hmember => h.seen key uid copy ((hsame key uid copy).mp hmember)
  bound := h.bound
  single := fun key key' uid copy copy' hmember hmember' =>
    h.single key key' uid copy copy' ((hsame _ _ _).mp hmember) ((hsame _ _ _).mp hmember')
  backed := fun key uid copy expiry hmember hget hlt => by
    obtain ⟨kept, c, hkept, hfree, hfresh⟩ :=
      h.backed key uid copy expiry ((hsame _ _ _).mp hmember) hget hlt
    exact ⟨kept, c, (hsame _ _ _).mpr hkept, hfree, hfresh⟩

/-- After a report that finds its uid in no other group, no copy is in two. -/
theorem regroup_single (h : Backed named held now) (hseen : copy.seen = now)
    (halone : ∀ key' c, FreshMember named now key' uid c → key' = key) {k k' : NameKey}
    {d d' : TwinCopy} (hd : FreshMember (regroup named key uid copy now) now k member d)
    (hd' : FreshMember (regroup named key uid copy now) now k' member d') : k = k' := by
  rcases (freshMember_regroup hseen).mp hd with ⟨rfl, rfl, -⟩ | ⟨-, hold⟩
  · rcases (freshMember_regroup hseen).mp hd' with ⟨rfl, -, -⟩ | ⟨-, hold'⟩
    · rfl
    · exact (halone k' d' hold').symm
  · rcases (freshMember_regroup hseen).mp hd' with ⟨rfl, rfl, -⟩ | ⟨-, hold'⟩
    · exact halone k d hold
    · exact h.single k k' member d d' hold hold'

/-- What stands in another group is not announced. -/
theorem notMem_of_other (h : Backed named held now) (hseen : copy.seen = now)
    (halone : ∀ key' c, FreshMember named now key' uid c → key' = key)
    (hmember : FreshMember (regroup named key uid copy now) now key' member c) (hkey : key' ≠ key) :
    member ∉ (nearTwins T (groupWith named key uid copy now)).getD [] := by
  intro hmem
  obtain ⟨-, -, -, e, he, rfl, -⟩ := mem_nearTwins hmem
  exact hkey (regroup_single h hseen halone hmember (freshMember_of_mem he))

/-- What a report keeps is not announced. -/
theorem notMem_of_best {best : String × TwinCopy}
    (hbest : best ∈ best? (groupWith named key uid copy now).entries) :
    best.1 ∉ (nearTwins T (groupWith named key uid copy now)).getD [] := by
  intro hmem
  obtain ⟨best', hbest', hne, -⟩ := mem_nearTwins hmem
  rw [mem_unique hbest hbest'] at hne
  exact hne rfl

theorem heldBack_announce {uids : List String} (h : uid ∉ uids) :
    heldBack (announce held uids now) uid later = heldBack held uid later := by
  rw [heldBack, get?_announce_of_notMem h]
  rfl

/-- Copies of other groups stay backed. -/
theorem backed_other (h : Backed named held now) (hseen : copy.seen = now)
    (halone : ∀ key' c, FreshMember named now key' uid c → key' = key) (hkey : key' ≠ key)
    (hmember : FreshMember (regroup named key uid copy now) now key' member c)
    (hget : (announce held ((nearTwins T (groupWith named key uid copy now)).getD []) now).get?
      member = some expiry) (hlt : now < expiry) :
    ∃ kept c, FreshMember (regroup named key uid copy now) now key' kept c ∧
      heldBack (announce held ((nearTwins T (groupWith named key uid copy now)).getD []) now) kept
        now = false ∧ expiry ≤ c.seen + twinFresh := by
  have hother : ∀ {m d}, FreshMember (regroup named key uid copy now) now key' m d ↔
      FreshMember named now key' m d := by
    intro m d
    rw [freshMember_regroup hseen]
    constructor
    · rintro (⟨rfl, -⟩ | ⟨-, hold⟩)
      · exact absurd rfl hkey
      · exact hold
    · exact fun hold => Or.inr ⟨fun hboth => hkey hboth.1, hold⟩
  rw [get?_announce_of_notMem (notMem_of_other h hseen halone hmember hkey)] at hget
  obtain ⟨kept, d, hkept, hfree, hfresh⟩ :=
    h.backed key' member c expiry (hother.mp hmember) hget hlt
  have hkept' := hother.mpr hkept
  refine ⟨kept, d, hkept', ?_, hfresh⟩
  rwa [heldBack_announce (notMem_of_other h hseen halone hkept' hkey)]

/-- A report that announces copies backs the copies of its group by the one it keeps. -/
theorem backed_by_best (h : Backed named held now)
    (hkeeps : Keeps T held (groupWith named key uid copy now) now) {announced : String}
    (hannounced : announced ∈ (nearTwins T (groupWith named key uid copy now)).getD [])
    (hget : (announce held ((nearTwins T (groupWith named key uid copy now)).getD []) now).get?
      member = some expiry) :
    ∃ kept c, FreshMember (regroup named key uid copy now) now key kept c ∧
      heldBack (announce held ((nearTwins T (groupWith named key uid copy now)).getD []) now) kept
        now = false ∧ expiry ≤ c.seen + twinFresh := by
  obtain ⟨best, hbest, hne, e, he, rfl, hnear⟩ := mem_nearTwins hannounced
  obtain ⟨hfree, hfresh⟩ := hkeeps best hbest ⟨e, he, hne, hnear⟩
  refine ⟨best.1, best.2, freshMember_of_mem (mem_of_best? hbest), ?_, le_trans ?_ hfresh⟩
  · rwa [heldBack_announce (notMem_of_best hbest)]
  · rcases get?_announce hget with rfl | hold
    · exact le_refl _
    · exact h.bound member expiry hold

/-- A report that announces nothing keeps the copies of its group backed. -/
theorem backed_of_none (h : Backed named held now) (hseen : copy.seen = now)
    (henters : heldBack held uid now = true → ∃ c, FreshMember named now key uid c)
    (hmember : FreshMember (regroup named key uid copy now) now key member c)
    (hget : held.get? member = some expiry) (hlt : now < expiry) :
    ∃ kept c, FreshMember (regroup named key uid copy now) now key kept c ∧
      heldBack held kept now = false ∧ expiry ≤ c.seen + twinFresh := by
  have hold : ∃ d, FreshMember named now key member d := by
    rcases (freshMember_regroup hseen).mp hmember with ⟨-, rfl, -⟩ | ⟨-, hold⟩
    · exact henters ((heldBack_of_get? hget).trans (decide_eq_true hlt))
    · exact ⟨c, hold⟩
  obtain ⟨d, hd⟩ := hold
  obtain ⟨kept, k, hkept, hfree, hfresh⟩ := h.backed key member d expiry hd hget hlt
  by_cases hsame : kept = uid
  · -- The report is one of the kept copy, which is seen later than before.
    refine ⟨uid, copy, (freshMember_regroup hseen).mpr (Or.inl ⟨rfl, rfl, rfl⟩), hsame ▸ hfree, ?_⟩
    rw [hseen]
    exact hfresh.trans (add_le_add_left (h.seen key kept k hkept) _)
  · refine ⟨kept, k, (freshMember_regroup hseen).mpr (Or.inr ⟨?_, hkept⟩), hfree, hfresh⟩
    exact fun hboth => hsame hboth.2

/-- A report keeps one copy of every group visible. -/
theorem Backed.report (h : Backed named held now) (hseen : copy.seen = now)
    (halone : ∀ key' c, FreshMember named now key' uid c → key' = key)
    (henters : heldBack held uid now = true → ∃ c, FreshMember named now key uid c)
    (hkeeps : Keeps T held (groupWith named key uid copy now) now) :
    Backed (regroup named key uid copy now)
      (announce held ((nearTwins T (groupWith named key uid copy now)).getD []) now) now where
  clock := h.clock
  seen := fun key' member c hmember => by
    rcases (freshMember_regroup hseen).mp hmember with ⟨-, -, rfl⟩ | ⟨-, hold⟩
    · exact hseen.le
    · exact h.seen key' member c hold
  bound := fun member expiry hget => by
    rcases get?_announce hget with rfl | hold
    · exact le_refl _
    · exact h.bound member expiry hold
  single := fun k k' member d d' hd hd' => regroup_single h hseen halone hd hd'
  backed := fun key' member c expiry hmember hget hlt => by
    by_cases hkey : key' = key
    · rw [hkey] at hmember ⊢
      cases hnone : (nearTwins T (groupWith named key uid copy now)).getD [] with
      | nil =>
        rw [hnone] at hget
        exact backed_of_none h hseen henters hmember hget hlt
      | cons announced rest =>
        have hmem : announced ∈ (nearTwins T (groupWith named key uid copy now)).getD [] := by
          rw [hnone]
          exact mem_cons_self
        rw [← hnone]
        exact backed_by_best h hkeeps hmem hget
    · exact backed_other h hseen halone hkey hmember hget hlt

/-! ## Runs -/

/-- Without addresses nothing is keyed, and the named copies are backed. -/
structure TwinInv (s : Twins) : Prop where
  keyless : s.index.keyed = PyDict.empty
  callless : s.index.byCall = PyDict.empty
  backed : Backed s.index.named s.held s.now

theorem twinInv_init : TwinInv Twins.init where
  keyless := rfl
  callless := rfl
  backed :=
    { clock := le_refl 0
      seen := fun _ _ _ ⟨_, h, _⟩ => by cases h
      bound := fun _ _ h => by cases h
      single := fun _ _ _ _ _ ⟨_, h, _⟩ => by cases h
      backed := fun _ _ _ _ ⟨_, h, _⟩ => by cases h }

/-- A track without an address is not keyed. -/
theorem not_keyed (h : Addressless T call) (icao callsign : String) (sighting : Sighting) :
    readTwin T call ≠ .keyed icao callsign sighting := by
  intro hread
  rw [readTwin] at hread
  split at hread
  next => cases hread
  next =>
    rw [if_neg (not_not_intro (show icaoOf T call.track = "" from h))] at hread
    cases hread

theorem seen_of_loose {track : LooseTrack}
    (h : readTwin T call = .loose uid track (some (key, copy))) : copy.seen = call.now := by
  rw [readTwin] at h
  split at h
  next => cases h
  next =>
    split at h
    next => cases h
    next =>
      obtain ⟨-, -, hnamed⟩ := TwinReading.loose.inj h
      obtain ⟨name, -, hcopy⟩ := map_eq_some_iff.mp hnamed
      rw [← (Prod.mk.inj hcopy).2]

/-- Without keyed tracks nothing is a twin of one. -/
theorem isTwin_of_keyless {index : TwinIndex} (hkeyed : index.keyed = PyDict.empty)
    (hcall : index.byCall = PyDict.empty) (entry : LooseTrack) :
    isTwin T index entry now = some false := by
  have hnone : (entry.address.bind index.keyed.get?) = none := by
    rw [hkeyed]
    cases entry.address with
    | none => rfl
    | some address => rfl
  rw [isTwin, hnone, hcall]
  split
  next => rfl
  next =>
    have hget : (if 4 ≤ PyStr.len entry.callsign then
        (empty : PyDict String Sighting).get? entry.callsign else none) = none := by
      split
      next => rfl
      next => rfl
    rw [hget]
    rfl

/-- A call without an address keeps the invariant. -/
theorem twinInv_step (h : TwinInv s) (hclock : s.now ≤ call.now) (hless : Addressless T call)
    (hsettled : TwinSettled T s call) : TwinInv (twinStep T s call) := by
  rw [TwinSettled] at hsettled
  rw [twinStep, observeTwin]
  cases hread : readTwin T call with
  | ignored => exact ⟨h.keyless, h.callless, h.backed.mono hclock⟩
  | keyed icao callsign sighting => exact absurd hread (not_keyed hless icao callsign sighting)
  | loose uid track named =>
    have hkeyed : (forget { s.index with loose := s.index.loose.set uid track } call.now).keyed =
        PyDict.empty := by rw [forget, h.keyless]; rfl
    have hcall : (forget { s.index with loose := s.index.loose.set uid track } call.now).byCall =
        PyDict.empty := by rw [forget, h.callless]; rfl
    have hbacked :
        Backed (forget { s.index with loose := s.index.loose.set uid track } call.now).named s.held
          call.now := (h.backed.mono hclock).congr fun _ _ _ => freshMember_forget
    simp only [isTwin_of_keyless hkeyed hcall]
    cases named with
    | none => exact ⟨hkeyed, hcall, hbacked⟩
    | some found =>
      obtain ⟨key, copy⟩ := found
      rw [hread] at hsettled
      obtain ⟨halone, henters, hkeeps⟩ := hsettled
      refine ⟨hkeyed, hcall, hbacked.report (seen_of_loose hread) ?_ ?_ hkeeps⟩
      · intro key' c hmember
        obtain ⟨group, hgroup, hc, hfresh⟩ := freshMember_forget.mp hmember
        refine halone (key', group) (PyDict.get?_eq_some_iff.mp hgroup) ?_
        rw [inGroup, hc, Option.any_some, hfresh]
        rfl
      · intro hheld
        obtain ⟨group, hgroup, hin⟩ := henters hheld
        rw [inGroup, Option.any_eq_true] at hin
        obtain ⟨c, hc, hfresh⟩ := hin
        exact ⟨c, freshMember_forget.mpr ⟨group, hgroup, hc, (Bool.not_eq_true' _).mp hfresh⟩⟩

/-- Backed copies leave one visible at every later time. -/
theorem oneVisible_of_backed (h : Backed s.index.named s.held s.now) : OneVisible T s := by
  intro key t hle hsome _
  obtain ⟨uid, copy, hmember⟩ := hsome
  have hfree : ∀ {kept}, heldBack s.held kept t = false → ∀ track : Track,
      pyStr T.toPyText (track.field "uid") = kept → isSuppressed T s.held track t = false := by
    intro kept hkept track htrack
    rw [isSuppressed, htrack, hkept]
    split
    next => rfl
    next => rfl
  cases hheld : heldBack s.held uid t with
  | false => exact ⟨uid, copy, hmember, hfree hheld⟩
  | true =>
    have hclock := h.clock.trans hle
    obtain ⟨expiry, hget, hlt⟩ := get?_of_heldBack hclock hheld
    obtain ⟨kept, c, hkept, hnow, hfresh⟩ :=
      h.backed key uid copy expiry (hmember.earlier hle) hget (lt_of_le_of_lt hle hlt)
    exact ⟨kept, c, hkept.still (hlt.le.trans hfresh), hfree (heldBack_later hle hnow)⟩

/-- Text as it stands, and copies that are near when they are at one place. -/
def plainTwins : TwinText where
  toPyText := asciiText
  upper s := s
  isDecimal := Char.isDigit
  near a b := some (decide (a = b))

/-- A report of a copy, with a heading or without. -/
def copyReport (uid side : String) (heading : PyJson) (now : Rat) : TwinCall where
  track := ((((PyDict.empty.set "uid" (.str uid)).set "callsign" (.str "quad-0001")).set "lat_deg"
    (.int 48)).set "lon_deg" (.int 37)).set "heading_deg" heading
  now := now
  topic := "O/air/" ++ side

/-- B is announced next to A, and then A declares less than B. -/
def swapped : List TwinCall :=
  [copyReport "A" "friendly" (.int 90) 0, copyReport "B" "unknown" (.int 90) 1,
    copyReport "A" "unknown" .null 2]

end Efdi.Tracks

import Efdi.Base.PyDict
import Efdi.Base.PyJson
import Mathlib.Algebra.Order.Ring.Rat
import Mathlib.Data.List.Induction
import Mathlib.Data.List.Sort
import Mathlib.Data.String.Basic

/-!
# The NVG feed

`NVGFeedCache` holds the latest items.  An item has a stale time of its own.  `document` drops the
items that have expired and shows the others, and `upsert` of a new uid in a full cache drops the
item whose update is the oldest.

Expired items stay until the next document, and they count when the cache is full.  So a live item
is dropped for a new one although an expired item is there, when its update is the older of the
two.  And an item whose XML is not read back is held but not shown.  Apart from these two the feed
shows exactly the live items (`feed_right_iff`).
-/

namespace Efdi.Tak.NvgFeed

open List PyDict

/-- The arguments of a cache, as `__init__` checks them. -/
structure Limits where
  staleS : Rat
  maxTracks : Nat
  stale_pos : 0 < staleS
  max_pos : 0 < maxTracks

/-- A value of `_items`. -/
structure Item (Xml : Type) where
  xml : Xml
  seenAt : Rat
  staleS : Rat
deriving DecidableEq

variable {Xml Node : Type}

/-- The item has not expired. -/
def Item.Fresh (item : Item Xml) (now : Rat) : Prop := ¬ item.staleS < now - item.seenAt

instance (item : Item Xml) (now : Rat) : Decidable (item.Fresh now) :=
  inferInstanceAs (Decidable (¬ _))

/-- What happens to an item. -/
inductive Effect (Xml : Type) where
  | put (uid : String) (item : Item Xml)
  | removed (uid : String)
  | evicted (uid : String)

/-- A cache, with what happened to its items, the last first. -/
structure Cache (Xml : Type) where
  /-- `_items`. -/
  items : PyDict String (Item Xml)
  log : List (Effect Xml)

def Cache.empty : Cache Xml := ⟨PyDict.empty, []⟩

/-- `min(self._items, key=...)`: the first of the items whose update is the oldest. -/
def oldest : List (String × Item Xml) → Option (String × Item Xml)
  | [] => none
  | entry :: entries =>
    match oldest entries with
    | none => some entry
    | some other => if other.2.seenAt < entry.2.seenAt then some other else some entry

/-- `self._stale_s if stale_s is None else stale_s`, when it is a positive finite number. -/
def itemStale (limits : Limits) : Option PyFloat → Option Rat
  | none => some limits.staleS
  | some (.finite s) => if 0 < s then some s else none
  | some _ => none

/-- A call, with the value of the clock. -/
inductive Call (Xml : Type) where
  /-- `upsert`, for what `track_to_nvg_item` gives: the uid and the XML. -/
  | upsert (now : Rat) (result : Option (String × Xml)) (stale : Option PyFloat)
  /-- `remove`, for the uid of the track. -/
  | remove (uid : String)
  | document (now : Rat)

def Call.now? : Call Xml → Option Rat
  | .upsert now _ _ => some now
  | .remove _ => none
  | .document now => some now

/-- Make room for a new uid. -/
def makeRoom (limits : Limits) (cache : Cache Xml) (uid : String) : Cache Xml :=
  if cache.items.contains uid = false ∧ limits.maxTracks ≤ cache.items.length then
    match oldest cache.items.entries with
    | some (oldestUid, _) => ⟨cache.items.pop oldestUid, .evicted oldestUid :: cache.log⟩
    | none => cache
  else cache

/-- `upsert` of an item. -/
def put (limits : Limits) (cache : Cache Xml) (uid : String) (item : Item Xml) : Cache Xml :=
  let room := makeRoom limits cache uid
  ⟨room.items.set uid item, .put uid item :: room.log⟩

/-- `remove`. -/
def remove (cache : Cache Xml) (uid : String) : Cache Xml :=
  ⟨cache.items.pop uid, .removed uid :: cache.log⟩

/-- The items that `_snapshot` keeps. -/
def expire (cache : Cache Xml) (now : Rat) : Cache Xml :=
  ⟨cache.items.filter fun _ item => decide (item.Fresh now), cache.log⟩

def step (limits : Limits) (cache : Cache Xml) : Call Xml → Cache Xml
  | .upsert now result stale =>
    match itemStale limits stale, result with
    | some staleS, some (uid, xml) => put limits cache uid ⟨xml, now, staleS⟩
    | _, _ => cache
  | .remove uid => remove cache uid
  | .document now => expire cache now

/-- The cache after some calls. -/
def run (limits : Limits) (calls : List (Call Xml)) : Cache Xml :=
  calls.foldl (step limits) Cache.empty

/-- `_snapshot`: the items in the order of their uids. -/
def snapshot (cache : Cache Xml) (now : Rat) : List (String × Xml) :=
  ((expire cache now).items.entries.map fun entry => (entry.1, entry.2.xml)).insertionSort
    fun a b => a.1 ≤ b.1

/-- The parts of a document.  `parse` gives the children of the root, when the XML is read back. -/
def parts (parse : Xml → Option (List Node)) (cache : Cache Xml) (now : Rat) :
    List (String × List Node) :=
  (snapshot cache now).filterMap fun entry => (parse entry.2).map (entry.1, ·)

/-- `document`: the body and the count. -/
def document (parse : Xml → Option (List Node)) (cache : Cache Xml) (now : Rat) :
    List Node × Nat :=
  let body := (parts parse cache now).flatMap Prod.snd
  (body, body.length)

/-! ## What the feed is to show -/

/-- The item of the latest `upsert` of the uid that succeeded, when the uid was neither removed nor
evicted since. -/
def latest (uid : String) : List (Effect Xml) → Option (Item Xml)
  | [] => none
  | .put other item :: log => if other = uid then some item else latest uid log
  | .removed other :: log => if other = uid then none else latest uid log
  | .evicted other :: log => if other = uid then none else latest uid log

/-- The document shows the uids of the fresh latest items, and these items. -/
def Shows (parse : Xml → Option (List Node)) (cache : Cache Xml) (now : Rat) : Prop :=
  ∀ uid,
    ((∃ nodes, (uid, nodes) ∈ parts parse cache now) ↔
      ∃ item, latest uid cache.log = some item ∧ item.Fresh now) ∧
    ∀ nodes, (uid, nodes) ∈ parts parse cache now →
      ∃ item, latest uid cache.log = some item ∧ parse item.xml = some nodes

/-- Every other item that an `upsert` drops has expired, or the cache is full of others that have
not. -/
def Spares (limits : Limits) (before after : Cache Xml) (uid : String) (now : Rat) : Prop :=
  ∀ other item, other ≠ uid → before.items.get? other = some item →
    after.items.get? other = none → item.Fresh now →
      (before.items.entries.filter fun entry =>
        decide (entry.1 ≠ uid ∧ entry.2.Fresh now)).length = limits.maxTracks

/-- What a call is to do. -/
def Right (limits : Limits) (parse : Xml → Option (List Node)) (before after : Cache Xml)
    (call : Call Xml) : Prop :=
  after.items.length ≤ limits.maxTracks ∧
    match call with
    | .upsert now (some (uid, _)) _ => Spares limits before after uid now
    | .upsert _ none _ => True
    | .remove _ => True
    | .document now => Shows parse before now

/-- When room is made, the oldest item has expired, or no item has. -/
def RoomOk (limits : Limits) (cache : Cache Xml) (uid : String) (now : Rat) : Prop :=
  cache.items.contains uid = false → limits.maxTracks ≤ cache.items.length →
    (∀ entry, oldest cache.items.entries = some entry → ¬ entry.2.Fresh now) ∨
      ∀ other item, cache.items.get? other = some item → item.Fresh now

/-- What the state before a call has to meet. -/
def Sound (limits : Limits) (parse : Xml → Option (List Node)) (cache : Cache Xml) :
    Call Xml → Prop
  | .upsert now (some (uid, _)) stale =>
    (itemStale limits stale).isSome = true → RoomOk limits cache uid now
  | .upsert _ none _ => True
  | .remove _ => True
  | .document now => ∀ uid item, cache.items.get? uid = some item → item.Fresh now →
      (parse item.xml).isSome = true

/-! ## Steps -/

variable {limits : Limits} {parse : Xml → Option (List Node)} {cache : Cache Xml}

theorem oldest_eq_none {entries : List (String × Item Xml)} : oldest entries = none ↔
    entries = [] := by
  cases entries with
  | nil => exact iff_of_true rfl rfl
  | cons entry entries =>
    refine iff_of_false (fun h => ?_) (cons_ne_nil _ _)
    rw [oldest] at h
    cases hrest : oldest entries with
    | none =>
      rw [hrest] at h
      cases h
    | some other =>
      rw [hrest] at h
      dsimp only at h
      by_cases hless : other.2.seenAt < entry.2.seenAt
      · rw [if_pos hless] at h
        cases h
      · rw [if_neg hless] at h
        cases h

theorem oldest_mem : ∀ {entries : List (String × Item Xml)} {found : String × Item Xml},
    oldest entries = some found → found ∈ entries
  | entry :: entries, found, h => by
    rw [oldest] at h
    cases hrest : oldest entries with
    | none =>
      rw [hrest] at h
      cases h
      exact mem_cons_self
    | some other =>
      rw [hrest] at h
      dsimp only at h
      by_cases hless : other.2.seenAt < entry.2.seenAt
      · rw [if_pos hless] at h
        cases h
        exact .tail _ (oldest_mem hrest)
      · rw [if_neg hless] at h
        cases h
        exact mem_cons_self

theorem step_put {stale : Option PyFloat} {staleS : Rat} (h : itemStale limits stale = some staleS)
    (now : Rat) (uid : String) (xml : Xml) :
    step limits cache (.upsert now (some (uid, xml)) stale) =
      put limits cache uid ⟨xml, now, staleS⟩ := by
  simp only [step, h]

/-- An `upsert` that gives no item, or that raises. -/
theorem step_skip {stale : Option PyFloat} {result : Option (String × Xml)}
    (h : itemStale limits stale = none ∨ result = none) (now : Rat) :
    step limits cache (.upsert now result stale) = cache := by
  rcases h with h | rfl
  · simp only [step, h]
  · cases hstale : itemStale limits stale <;> simp only [step, hstale]

/-- The cases of making room. -/
theorem makeRoom_cases (limits : Limits) (cache : Cache Xml) (uid : String) :
    (makeRoom limits cache uid = cache ∧
        (cache.items.contains uid = true ∨ cache.items.length < limits.maxTracks)) ∨
      ∃ found, oldest cache.items.entries = some found ∧ cache.items.contains uid = false ∧
        limits.maxTracks ≤ cache.items.length ∧ makeRoom limits cache uid =
          ⟨cache.items.pop found.1, .evicted found.1 :: cache.log⟩ := by
  rw [makeRoom]
  by_cases hfull : cache.items.contains uid = false ∧ limits.maxTracks ≤ cache.items.length
  · rw [if_pos hfull]
    cases hold : oldest cache.items.entries with
    | none =>
      have hpos := Nat.lt_of_lt_of_le limits.max_pos hfull.2
      rw [PyDict.length, oldest_eq_none.mp hold] at hpos
      exact absurd hpos (Nat.lt_irrefl 0)
    | some found => exact Or.inr ⟨found, rfl, hfull.1, hfull.2, rfl⟩
  · rw [if_neg hfull]
    refine Or.inl ⟨rfl, ?_⟩
    rcases not_and_or.mp hfull with hcontains | hless
    · exact Or.inl (Bool.eq_true_of_not_eq_false hcontains)
    · exact Or.inr (Nat.lt_of_not_le hless)

/-- What `document` shows. -/
theorem mem_parts {now : Rat} {uid : String} {nodes : List Node} :
    (uid, nodes) ∈ parts parse cache now ↔ ∃ item, cache.items.get? uid = some item ∧
      item.Fresh now ∧ parse item.xml = some nodes := by
  have hsnapshot : ∀ xml, (uid, xml) ∈ snapshot cache now ↔
      ∃ item, cache.items.get? uid = some item ∧ item.Fresh now ∧ item.xml = xml := by
    intro xml
    rw [snapshot, mem_insertionSort, mem_map]
    constructor
    · rintro ⟨⟨other, item⟩, hmem, heq⟩
      cases heq
      obtain ⟨hentry, hfresh⟩ := mem_filter.mp hmem
      exact ⟨item, get?_eq_some_iff.mpr hentry, of_decide_eq_true hfresh, rfl⟩
    · rintro ⟨item, hget, hfresh, rfl⟩
      exact ⟨(uid, item), mem_filter.mpr
        ⟨get?_eq_some_iff.mp hget, decide_eq_true hfresh⟩, rfl⟩
  rw [parts, mem_filterMap]
  constructor
  · rintro ⟨⟨other, xml⟩, hmem, hparse⟩
    obtain ⟨nodes', hnodes, heq⟩ := Option.map_eq_some_iff.mp hparse
    cases heq
    obtain ⟨item, hget, hfresh, rfl⟩ := (hsnapshot xml).mp hmem
    exact ⟨item, hget, hfresh, hnodes⟩
  · rintro ⟨item, hget, hfresh, hnodes⟩
    exact ⟨(uid, item.xml), (hsnapshot _).mpr ⟨item, hget, hfresh, rfl⟩, by rw [hnodes]; rfl⟩

/-! ## Runs -/

/-- The cache and what happened to its items. -/
structure Inv (limits : Limits) (now : Rat) (cache : Cache Xml) : Prop where
  bound : cache.items.length ≤ limits.maxTracks
  held : ∀ uid item, cache.items.get? uid = some item → latest uid cache.log = some item
  /-- Only what has expired is missing. -/
  missing : ∀ uid item, latest uid cache.log = some item →
    cache.items.get? uid = some item ∨ ¬ item.Fresh now

theorem Item.not_fresh_of_le {item : Item Xml} {now later : Rat} (h : ¬ item.Fresh now)
    (hle : now ≤ later) : ¬ item.Fresh later := by
  intro hfresh
  refine hfresh (lt_of_lt_of_le (not_not.mp h) ?_)
  exact sub_le_sub_right hle _

theorem Inv.later {now later : Rat} (h : Inv limits now cache) (hle : now ≤ later) :
    Inv limits later cache :=
  ⟨h.bound, h.held, fun uid item hitem =>
    (h.missing uid item hitem).imp id fun hold => Item.not_fresh_of_le hold hle⟩

theorem inv_empty (limits : Limits) (now : Rat) : Inv limits now (Cache.empty : Cache Xml) :=
  ⟨Nat.zero_le _, (fun _ _ h => by cases h), (fun _ _ h => by cases h)⟩

/-- Dropping an item. -/
theorem Inv.drop {now : Rat} (h : Inv limits now cache) (uid : String) {effect : Effect Xml}
    (heffect : ∀ other, latest other (effect :: cache.log) =
      if uid = other then none else latest other cache.log) :
    Inv limits now ⟨cache.items.pop uid, effect :: cache.log⟩ := by
  refine ⟨Nat.le_trans (PyDict.length_filter_le ..) h.bound, fun other item hget => ?_,
    fun other item hlatest => ?_⟩
  · rw [heffect]
    by_cases hsame : uid = other
    · rw [← hsame, PyDict.get?_pop_self] at hget
      cases hget
    · rw [PyDict.get?_pop_of_ne _ (Ne.symm hsame)] at hget
      rw [if_neg hsame]
      exact h.held other item hget
  · rw [heffect] at hlatest
    by_cases hsame : uid = other
    · rw [if_pos hsame] at hlatest
      cases hlatest
    · rw [if_neg hsame] at hlatest
      rw [PyDict.get?_pop_of_ne _ (Ne.symm hsame)]
      exact h.missing other item hlatest

theorem Inv.makeRoom {now : Rat} (h : Inv limits now cache) (uid : String) :
    Inv limits now (makeRoom limits cache uid) ∧
      ((NvgFeed.makeRoom limits cache uid).items.contains uid = true ∨
        (NvgFeed.makeRoom limits cache uid).items.length < limits.maxTracks) := by
  rcases makeRoom_cases limits cache uid with ⟨hsame, hroom⟩ | ⟨found, hold, -, -, hroom⟩
  · rw [hsame]
    exact ⟨h, hroom⟩
  · rw [hroom]
    refine ⟨h.drop found.1 fun other => rfl, Or.inr ?_⟩
    have hcontains : cache.items.contains found.1 = true :=
      contains_iff.mpr (mem_map_of_mem (oldest_mem hold))
    exact Nat.lt_of_lt_of_le (length_pop_lt hcontains) h.bound

theorem Inv.put {now : Rat} (h : Inv limits now cache) (uid : String) (item : Item Xml) :
    Inv limits now (put limits cache uid item) := by
  obtain ⟨hroom, hspace⟩ := h.makeRoom uid
  refine ⟨?_, fun other found hget => ?_, fun other found hlatest => ?_⟩
  · rw [NvgFeed.put, PyDict.length_set]
    split
    next => exact hroom.bound
    next hnew => exact hspace.resolve_left hnew
  · show (if uid = other then _ else _) = _
    by_cases hsame : uid = other
    · rw [NvgFeed.put, ← hsame, PyDict.get?_set_self] at hget
      rw [if_pos hsame]
      exact hget
    · rw [NvgFeed.put, PyDict.get?_set_of_ne _ (Ne.symm hsame)] at hget
      rw [if_neg hsame]
      exact hroom.held other found hget
  · change (if uid = other then _ else _) = _ at hlatest
    by_cases hsame : uid = other
    · rw [if_pos hsame] at hlatest
      rw [NvgFeed.put, ← hsame, PyDict.get?_set_self]
      exact Or.inl hlatest
    · rw [if_neg hsame] at hlatest
      rw [NvgFeed.put, PyDict.get?_set_of_ne _ (Ne.symm hsame)]
      exact hroom.missing other found hlatest

theorem Inv.step {now : Rat} (h : Inv limits now cache) (call : Call Xml)
    (hnow : ∀ later ∈ call.now?, later = now) : Inv limits now (step limits cache call) := by
  cases call with
  | remove uid => exact h.drop uid fun other => rfl
  | document later =>
    obtain rfl : later = now := hnow later rfl
    refine ⟨Nat.le_trans (PyDict.length_filter_le ..) h.bound, fun uid item hget => ?_,
      fun uid item hlatest => ?_⟩
    · refine h.held uid item ?_
      have hmem := List.mem_filter.mp (PyDict.get?_eq_some_iff.mp hget)
      exact PyDict.get?_eq_some_iff.mpr hmem.1
    · by_cases hfresh : item.Fresh later
      · left
        rcases h.missing uid item hlatest with hget | hold
        · exact PyDict.get?_eq_some_iff.mpr (List.mem_filter.mpr
            ⟨PyDict.get?_eq_some_iff.mp hget, decide_eq_true hfresh⟩)
        · exact absurd hfresh hold
      · exact Or.inr hfresh
  | upsert later result stale =>
    cases hstale : itemStale limits stale with
    | none =>
      rw [step_skip (Or.inl hstale)]
      exact h
    | some staleS =>
      cases result with
      | none =>
        rw [step_skip (Or.inr rfl)]
        exact h
      | some entry =>
        obtain ⟨uid, xml⟩ := entry
        rw [step_put hstale]
        exact h.put uid _

/-- The values of the clock. -/
def clocks (calls : List (Call Xml)) : List Rat := calls.filterMap Call.now?

theorem inv_run : ∀ {calls : List (Call Xml)} {now : Rat}, (clocks calls).Pairwise (· ≤ ·) →
    (∀ t ∈ clocks calls, t ≤ now) → Inv limits now (run limits calls) := by
  intro calls
  induction calls using reverseRecOn with
  | nil => exact fun _ _ => inv_empty limits _
  | append_singleton calls call ih =>
    intro now hsorted hle
    rw [clocks, filterMap_append] at hsorted hle
    rw [pairwise_append] at hsorted
    rw [run, foldl_append]
    show Inv limits now (step limits (run limits calls) call)
    have hcalls := fun t ht => hle t (mem_append_left _ ht)
    cases hcall : call.now? with
    | none =>
      refine (ih hsorted.1 hcalls).step call fun later hlater => ?_
      rw [hcall] at hlater
      cases hlater
    | some t =>
      have hmem : t ∈ [call].filterMap Call.now? := by
        rw [filterMap_cons, hcall]
        exact mem_cons_self
      have hnow : ∀ later ∈ call.now?, later = t := by
        intro later hlater
        rw [hcall] at hlater
        exact (Option.some.inj hlater).symm
      exact ((ih hsorted.1 fun u hu => hsorted.2.2 u hu t hmem).step call hnow).later
        (hle t (mem_append_right _ hmem))

/-! ## When the feed is right -/

theorem shows_iff {now : Rat} (h : Inv limits now cache) : Shows parse cache now ↔
    ∀ uid item, cache.items.get? uid = some item → item.Fresh now →
      (parse item.xml).isSome = true := by
  constructor
  · intro hshows uid item hget hfresh
    obtain ⟨nodes, hnodes⟩ := (hshows uid).1.mpr ⟨item, h.held uid item hget, hfresh⟩
    obtain ⟨shown, hshown, -, hparse⟩ := mem_parts.mp hnodes
    rw [hget] at hshown
    rw [Option.some.inj hshown, hparse]
    rfl
  · intro hparse uid
    refine ⟨⟨?_, ?_⟩, fun nodes hnodes => ?_⟩
    · rintro ⟨nodes, hnodes⟩
      obtain ⟨item, hget, hfresh, -⟩ := mem_parts.mp hnodes
      exact ⟨item, h.held uid item hget, hfresh⟩
    · rintro ⟨item, hlatest, hfresh⟩
      have hget := (h.missing uid item hlatest).resolve_right (not_not.mpr hfresh)
      obtain ⟨nodes, hnodes⟩ := Option.isSome_iff_exists.mp (hparse uid item hget hfresh)
      exact ⟨nodes, mem_parts.mpr ⟨item, hget, hfresh, hnodes⟩⟩
    · obtain ⟨item, hget, -, hnodes⟩ := mem_parts.mp hnodes
      exact ⟨item, h.held uid item hget, hnodes⟩

theorem spares_iff {now : Rat} (hbound : cache.items.length ≤ limits.maxTracks) {uid : String}
    {item : Item Xml} :
    Spares limits cache (put limits cache uid item) uid now ↔ RoomOk limits cache uid now := by
  have hentry : ∀ other item', (other, item') ∈ cache.items.entries ↔
      cache.items.get? other = some item' := fun other item' => get?_eq_some_iff.symm
  rcases makeRoom_cases limits cache uid with ⟨hsame, hspace⟩ | ⟨found, hold, hnew, hfull, hroom⟩
  · refine iff_of_true (fun other item' hne hget hgone => ?_) fun hnew hfull => ?_
    · rw [put, get?_set_of_ne _ hne, hsame, hget] at hgone
      cases hgone
    · rcases hspace with hcontains | hless
      · rw [hcontains] at hnew
        cases hnew
      · exact absurd hfull (Nat.not_le.mpr hless)
  have hfound : cache.items.get? found.1 = some found.2 := (hentry _ _).mp (oldest_mem hold)
  have hnone : cache.items.get? uid = none := by
    rw [PyDict.contains, Option.isSome_eq_false_iff, Option.isNone_iff_eq_none] at hnew
    exact hnew
  have hother : ∀ other item', cache.items.get? other = some item' → other ≠ uid := by
    rintro other item' hget rfl
    rw [hnone] at hget
    cases hget
  have hfilter : (cache.items.entries.filter fun entry =>
      decide (entry.1 ≠ uid ∧ entry.2.Fresh now)).length = limits.maxTracks ↔
        ∀ other item', cache.items.get? other = some item' → item'.Fresh now := by
    have hlength : limits.maxTracks = cache.items.entries.length := Nat.le_antisymm hfull hbound
    rw [hlength, length_filter_eq_length_iff]
    constructor
    · intro hall other item' hget
      exact (of_decide_eq_true (hall _ ((hentry other item').mpr hget))).2
    · rintro hall ⟨other, item'⟩ hmem
      have hget := (hentry other item').mp hmem
      exact decide_eq_true ⟨hother other item' hget, hall other item' hget⟩
  constructor
  · intro hspares _ _
    by_cases hfresh : found.2.Fresh now
    · refine Or.inr (hfilter.mp (hspares found.1 found.2 (hother _ _ hfound) hfound ?_ hfresh))
      rw [put, get?_set_of_ne _ (hother _ _ hfound), hroom]
      exact get?_pop_self ..
    · refine Or.inl fun entry hentry' => ?_
      rw [hold] at hentry'
      rw [← Option.some.inj hentry']
      exact hfresh
  · intro hok other item' hne hget hgone hfresh
    rw [put, get?_set_of_ne _ hne, hroom] at hgone
    have hsame : other = found.1 := by
      by_contra hdiffer
      rw [get?_pop_of_ne _ hdiffer, hget] at hgone
      cases hgone
    rw [hsame, hfound] at hget
    rw [← Option.some.inj hget] at hfresh
    rcases hok hnew hfull with hexpired | hall
    · exact absurd hfresh (hexpired found hold)
    · exact hfilter.mpr hall

/-- One call. -/
theorem right_iff {now : Rat} (h : Inv limits now cache) (call : Call Xml)
    (hnow : ∀ later ∈ call.now?, later = now) :
    Right limits parse cache (step limits cache call) call ↔ Sound limits parse cache call := by
  refine (and_iff_right (h.step call hnow).bound).trans ?_
  cases call with
  | remove uid => exact Iff.rfl
  | document later =>
    obtain rfl : later = now := hnow later rfl
    exact shows_iff h
  | upsert later result stale =>
    cases result with
    | none => exact Iff.rfl
    | some entry =>
      obtain ⟨uid, xml⟩ := entry
      cases hstale : itemStale limits stale with
      | none =>
        refine iff_of_true (fun other item _ hget hgone => ?_) fun hsome => ?_
        · rw [step_skip (Or.inl hstale), hget] at hgone
          cases hgone
        · rw [hstale] at hsome
          cases hsome
      | some staleS =>
        rw [step_put hstale]
        refine (spares_iff h.bound).trans ?_
        rw [Sound, hstale]
        exact ⟨fun hok _ => hok, fun hok => hok rfl⟩

/-- The feed is right in every call of a run exactly when every document finds XML that is read
back, and room is made by dropping an item that has expired unless none has. -/
theorem feed_right_iff (limits : Limits) (parse : Xml → Option (List Node))
    (calls : List (Call Xml)) (hsorted : (clocks calls).Pairwise (· ≤ ·)) :
    (∀ before call after, calls = before ++ call :: after →
        Right limits parse (run limits before) (run limits (before ++ [call])) call) ↔
      ∀ before call after, calls = before ++ call :: after →
        Sound limits parse (run limits before) call := by
  refine forall₃_congr fun before call after => forall_congr' fun hsplit => ?_
  rw [hsplit, clocks, List.filterMap_append, List.pairwise_append] at hsorted
  obtain ⟨hbefore, -, hle⟩ := hsorted
  have hstep : run limits (before ++ [call]) = step limits (run limits before) call := by
    rw [run, List.foldl_append]
    rfl
  rw [hstep]
  cases hcall : call.now? with
  | none =>
    obtain ⟨now, hnow⟩ : ∃ now : Rat, ∀ t ∈ clocks before, t ≤ now := by
      cases hlast : (clocks before).getLast? with
      | none =>
        rw [List.getLast?_eq_none_iff] at hlast
        rw [hlast]
        exact ⟨0, fun t ht => by cases ht⟩
      | some last =>
        obtain ⟨front, hfront⟩ := List.getLast?_eq_some_iff.mp hlast
        refine ⟨last, fun t ht => ?_⟩
        rw [clocks] at hfront ht
        rw [hfront] at ht hbefore
        rcases List.mem_append.mp ht with ht | ht
        · exact (List.pairwise_append.mp hbefore).2.2 t ht last List.mem_cons_self
        · rw [List.mem_singleton.mp ht]
    refine right_iff (inv_run hbefore hnow) call fun later hlater => ?_
    rw [hcall] at hlater
    cases hlater
  | some now =>
    refine @right_iff _ _ limits parse _ now (inv_run hbefore fun t ht => ?_) call fun later hlater => ?_
    · refine hle t ht now ?_
      rw [List.filterMap_cons, hcall]
      exact List.mem_cons_self
    · rw [hcall] at hlater
      exact (Option.some.inj hlater).symm

/-- Two items for a feed of two: one that lives for an hour, and one that lives for a second. -/
def smallFeed : Limits := ⟨30, 2, by decide +kernel, by decide⟩

def hourAndSecond : List (Call String) :=
  [.upsert 0 (some ("EFDI-UID-HOUR", "<hour/>")) (some (.finite 3600)),
    .upsert 10 (some ("EFDI-UID-SECOND", "<second/>")) (some (.finite 1))]

/-- Both are shown, and the second is dropped by the document. -/
theorem feed_right_iff_small :
    (∀ before call after, hourAndSecond ++ [.document 20] = before ++ call :: after →
        Right smallFeed (fun xml => some [xml]) (run smallFeed before)
          (run smallFeed (before ++ [call])) call) ↔
      ∀ before call after, hourAndSecond ++ [.document 20] = before ++ call :: after →
        Sound smallFeed (fun xml => some [xml]) (run smallFeed before) call :=
  feed_right_iff smallFeed (fun xml => some [xml]) _ (by decide +kernel)

/-- A third item arrives before a document.  The second has expired, but the first, which has not,
is dropped. -/
theorem live_item_evicted :
    (clocks (hourAndSecond ++ [.upsert 20 (some ("EFDI-UID-NEW", "<new/>")) none])).Pairwise
        (· ≤ ·) ∧
      (run smallFeed hourAndSecond).items.entries.filter
        (fun entry => decide (entry.2.Fresh 20)) =
          [("EFDI-UID-HOUR", ⟨"<hour/>", 0, 3600⟩)] ∧
      (run smallFeed (hourAndSecond ++
        [.upsert 20 (some ("EFDI-UID-NEW", "<new/>")) none])).items.get? "EFDI-UID-HOUR" = none ∧
      ((run smallFeed (hourAndSecond ++
        [.upsert 20 (some ("EFDI-UID-NEW", "<new/>")) none])).items.get?
          "EFDI-UID-SECOND").isSome = true := by
  refine ⟨?_, ?_, ?_, ?_⟩
  · decide +kernel
  · decide +kernel
  · decide +kernel
  · decide +kernel

end Efdi.Tak.NvgFeed

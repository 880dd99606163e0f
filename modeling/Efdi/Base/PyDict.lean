import Mathlib.Data.List.Nodup
import Mathlib.Data.List.Perm.Subperm

/-!
# Python dicts

A dict is a list of entries in the order of insertion, each key once.  Writing a key
that is present keeps its place, and a new key goes to the end.  The structure carries
the fact that keys are unique, so a lookup and a membership say the same
(`PyDict.get?_eq_some_iff`).
-/

/-- A Python dict. -/
structure PyDict (κ α : Type) where
  /-- The entries, in the order of insertion. -/
  entries : List (κ × α)
  nodup : (entries.map Prod.fst).Nodup

namespace PyDict

open List

variable {κ α : Type} [DecidableEq κ]

instance [DecidableEq α] : DecidableEq (PyDict κ α) := fun a b =>
  decidable_of_iff (a.entries = b.entries) (by cases a; cases b; simp)

/-- `{}`. -/
def empty : PyDict κ α := ⟨[], List.nodup_nil⟩

/-- `len(d)`. -/
def length (d : PyDict κ α) : Nat := d.entries.length

/-- The value of a key in a list of entries. -/
def lookup (key : κ) : List (κ × α) → Option α
  | [] => none
  | (k, v) :: entries => if k = key then some v else lookup key entries

/-- `d.get(key)`. -/
def get? (d : PyDict κ α) (key : κ) : Option α := lookup key d.entries

/-- `key in d`. -/
def contains (d : PyDict κ α) (key : κ) : Bool := (d.get? key).isSome

/-- Write a key of a list of entries. -/
def insert (key : κ) (value : α) : List (κ × α) → List (κ × α)
  | [] => [(key, value)]
  | (k, v) :: entries =>
    if k = key then (k, value) :: entries else (k, v) :: insert key value entries

variable {key : κ} {value : α}

theorem mem_keys_insert {k : κ} : ∀ {entries : List (κ × α)},
    k ∈ (insert key value entries).map Prod.fst ↔ k = key ∨ k ∈ entries.map Prod.fst
  | [] => by simp [insert]
  | (l, v) :: entries => by
    by_cases hl : l = key
    · simp [insert, hl]
    · have ih : k ∈ (insert key value entries).map Prod.fst ↔
          k = key ∨ k ∈ entries.map Prod.fst := mem_keys_insert
      simp only [insert, if_neg hl, map_cons, mem_cons, ih]
      tauto

theorem nodup_insert : ∀ {entries : List (κ × α)},
    (entries.map Prod.fst).Nodup → ((insert key value entries).map Prod.fst).Nodup
  | [], _ => by simp [insert]
  | (l, v) :: entries, h => by
    simp only [map_cons, nodup_cons] at h
    by_cases hl : l = key
    · simpa [insert, hl] using h
    · simp only [insert, if_neg hl, map_cons, nodup_cons, mem_keys_insert]
      exact ⟨fun hmem => hmem.elim hl h.1, nodup_insert h.2⟩

/-- `d[key] = value`. -/
def set (d : PyDict κ α) (key : κ) (value : α) : PyDict κ α :=
  ⟨insert key value d.entries, nodup_insert d.nodup⟩

/-- Keep the entries that pass a test. -/
def filter (p : κ → α → Bool) (d : PyDict κ α) : PyDict κ α :=
  ⟨d.entries.filter fun e => p e.1 e.2,
    (List.Sublist.map Prod.fst List.filter_sublist).nodup d.nodup⟩

/-- `d.pop(key, None)`. -/
def pop (d : PyDict κ α) (key : κ) : PyDict κ α := d.filter fun k _ => decide (k ≠ key)

/-! ## Lookups -/

theorem lookup_eq_none_iff : ∀ {entries : List (κ × α)},
    lookup key entries = none ↔ key ∉ entries.map Prod.fst
  | [] => by simp [lookup]
  | (k, v) :: entries => by
    by_cases hk : k = key
    · simp [lookup, hk]
    · have ih : lookup key entries = none ↔ key ∉ entries.map Prod.fst := lookup_eq_none_iff
      simp only [lookup, if_neg hk, ih, map_cons, mem_cons, not_or]
      exact ⟨fun h => ⟨fun he => hk he.symm, h⟩, fun h => h.2⟩

theorem lookup_insert_self : ∀ (entries : List (κ × α)),
    lookup key (insert key value entries) = some value
  | [] => by simp [insert, lookup]
  | (k, v) :: entries => by
    by_cases hk : k = key
    · simp [insert, lookup, hk]
    · simp [insert, lookup, hk, lookup_insert_self entries]

theorem lookup_insert_of_ne {other : κ} (hne : other ≠ key) :
    ∀ (entries : List (κ × α)), lookup other (insert key value entries) = lookup other entries
  | [] => by simp [insert, lookup, hne.symm]
  | (k, v) :: entries => by
    by_cases hk : k = key
    · subst hk
      simp [insert, lookup, hne.symm]
    · simp [insert, lookup, hk, lookup_insert_of_ne hne entries]

theorem lookup_filter {p : κ → α → Bool} : ∀ {entries : List (κ × α)},
    (entries.map Prod.fst).Nodup →
    lookup key (entries.filter fun e => p e.1 e.2) = (lookup key entries).filter (p key)
  | [], _ => rfl
  | (k, v) :: entries, h => by
    simp only [List.map_cons, List.nodup_cons] at h
    have ih : lookup key (entries.filter fun e => p e.1 e.2) =
        (lookup key entries).filter (p key) := lookup_filter h.2
    by_cases hk : k = key
    · subst hk
      have hnone : lookup k entries = none := lookup_eq_none_iff.mpr h.1
      cases hp : p k v with
      | true => simp [lookup, hp, Option.filter]
      | false => simp [lookup, hp, ih, hnone, Option.filter]
    · cases hp : p k v with
      | true => simp [lookup, hp, hk, ih]
      | false => simp [lookup, hp, hk, ih]

theorem length_insert : ∀ (entries : List (κ × α)),
    (insert key value entries).length =
      if (lookup key entries).isSome then entries.length else entries.length + 1
  | [] => by simp [insert, lookup]
  | (k, v) :: entries => by
    by_cases hk : k = key
    · simp [insert, lookup, hk]
    · have ih : (insert key value entries).length =
          if (lookup key entries).isSome then entries.length else entries.length + 1 :=
        length_insert entries
      simp only [insert, lookup, if_neg hk, length_cons, ih]
      split <;> rfl

/-- `d.setdefault(key, value)`, without its result. -/
def setDefault (d : PyDict κ α) (key : κ) (value : α) : PyDict κ α :=
  if d.contains key then d else d.set key value

omit [DecidableEq κ] in
theorem nodup_map (f : α → α) {entries : List (κ × α)} (h : (entries.map Prod.fst).Nodup) :
    ((entries.map fun e => (e.1, f e.2)).map Prod.fst).Nodup := by
  rw [map_map]
  exact h

/-- Write `f value` for every value. -/
def map (f : α → α) (d : PyDict κ α) : PyDict κ α :=
  ⟨d.entries.map fun e => (e.1, f e.2), nodup_map f d.nodup⟩

theorem lookup_map (f : α → α) (key : κ) : ∀ entries : List (κ × α),
    lookup key (entries.map fun e => (e.1, f e.2)) = (lookup key entries).map f
  | [] => rfl
  | (k, v) :: entries => by
    by_cases hk : k = key
    · simp [lookup, hk]
    · simp [lookup, hk, lookup_map f key entries]

/-! ## Laws -/

section

variable (d : PyDict κ α)

@[simp] theorem get?_set_self (key : κ) (value : α) : (d.set key value).get? key = some value :=
  lookup_insert_self d.entries

variable {key other : κ}

theorem get?_set_of_ne (hne : other ≠ key) (value : α) :
    (d.set key value).get? other = d.get? other :=
  lookup_insert_of_ne hne d.entries

theorem get?_filter (p : κ → α → Bool) (key : κ) :
    (d.filter p).get? key = (d.get? key).filter (p key) :=
  lookup_filter d.nodup

theorem get?_pop_of_ne (hne : other ≠ key) :
    (d.pop key).get? other = d.get? other := by
  rw [pop, get?_filter]
  cases d.get? other with
  | none => rfl
  | some v => simp [hne]

theorem get?_pop_self (key : κ) : (d.pop key).get? key = none := by
  rw [pop, get?_filter]
  cases d.get? key with
  | none => rfl
  | some v => simp

theorem get?_of_get?_pop {d : PyDict κ α} {value : α} (h : (d.pop key).get? other = some value) :
    d.get? other = some value := by
  rw [pop, get?_filter] at h
  exact (Option.filter_eq_some_iff.mp h).1

/-- After a key and some others are gone, all of them are. -/
theorem get?_of_pop_cons {d e : PyDict κ α} {keys : List κ} (hkey : key ∉ keys)
    (h : ∀ k, e.get? k = if k ∈ keys then none else (d.pop key).get? k) (k : κ) :
    e.get? k = if k ∈ key :: keys then none else d.get? k := by
  rw [h]
  by_cases hk : k = key
  · rw [hk, if_neg hkey, if_pos mem_cons_self, get?_pop_self]
  · by_cases hmem : k ∈ keys
    · rw [if_pos hmem, if_pos (mem_cons_of_mem key hmem)]
    · rw [if_neg hmem, if_neg (not_mem_cons_of_ne_of_not_mem hk hmem), get?_pop_of_ne _ hk]

theorem get?_map (f : α → α) (key : κ) : (d.map f).get? key = (d.get? key).map f :=
  lookup_map f key d.entries

theorem get?_setDefault (key other : κ) (value : α) :
    (d.setDefault key value).get? other =
      if other = key then some ((d.get? key).getD value) else d.get? other := by
  rw [setDefault, contains]
  cases hkey : d.get? key with
  | none =>
    by_cases hother : other = key
    · simp [hother]
    · simp [hother, get?_set_of_ne]
  | some v =>
    by_cases hother : other = key
    · simp [hother, hkey]
    · simp [hother]

theorem contains_set (key other : κ) (value : α) :
    (d.set key value).contains other = (decide (other = key) || d.contains other) := by
  by_cases hother : other = key
  · simp [contains, hother]
  · simp [contains, hother, get?_set_of_ne]

theorem contains_pop (key other : κ) :
    (d.pop key).contains other = (!decide (other = key) && d.contains other) := by
  by_cases hother : other = key
  · simp [contains, hother, get?_pop_self]
  · simp [contains, hother, get?_pop_of_ne]

theorem length_set (key : κ) (value : α) :
    (d.set key value).length = if d.contains key then d.length else d.length + 1 :=
  length_insert d.entries

omit [DecidableEq κ] in
theorem length_filter_le (p : κ → α → Bool) : (d.filter p).length ≤ d.length :=
  List.length_filter_le _ _

end

theorem get?_eq_some_iff {d : PyDict κ α} :
    d.get? key = some value ↔ (key, value) ∈ d.entries := by
  obtain ⟨entries, hnodup⟩ := d
  simp only [get?]
  induction entries with
  | nil => simp [lookup]
  | cons e entries ih =>
    obtain ⟨k, v⟩ := e
    simp only [map_cons, nodup_cons] at hnodup
    by_cases hk : k = key
    · subst hk
      have hnot : ∀ w, (k, w) ∉ entries :=
        fun w hw => hnodup.1 (mem_map.mpr ⟨(k, w), hw, rfl⟩)
      simp [lookup, hnot, eq_comm]
    · simp [lookup, hk, Ne.symm hk, ih hnodup.2]

theorem contains_iff {d : PyDict κ α} :
    d.contains key = true ↔ key ∈ d.entries.map Prod.fst := by
  rw [contains, get?, ← not_iff_not, ← lookup_eq_none_iff, Bool.not_eq_true,
    Option.isSome_eq_false_iff, Option.isNone_iff_eq_none]

/-- Looking up in a dict that may be missing. -/
theorem get?_getD_empty {d : Option (PyDict κ α)} :
    (d.getD empty).get? key = some value ↔ ∃ e, d = some e ∧ e.get? key = some value := by
  cases d with
  | none =>
    constructor
    · intro h
      cases h
    · rintro ⟨e, h, -⟩
      cases h
  | some d =>
    constructor
    · exact fun h => ⟨d, rfl, h⟩
    · rintro ⟨e, h, he⟩
      rwa [← Option.some.inj h] at he

/-- What holds of the values and of a new one holds of the values after it is written. -/
theorem forall_set {P : α → Prop} {d : PyDict κ α} (h : ∀ k v, d.get? k = some v → P v)
    (hvalue : P value) :
    ∀ k v, (d.set key value).get? k = some v → P v := by
  intro k v hget
  by_cases hk : k = key
  · rw [hk, get?_set_self] at hget
    rwa [← Option.some.inj hget]
  · rw [get?_set_of_ne _ hk] at hget
    exact h k v hget

theorem contains_of_get? {d : PyDict κ α} (h : d.get? key = some value) :
    d.contains key = true := by
  rw [contains, h]
  rfl

/-- A dict that lacks one of the possible keys is shorter than the list of them. -/
theorem length_lt_of_not_contains {d : PyDict κ α} {known : List κ}
    (hknown : ∀ k, d.contains k = true → k ∈ known) (hkey : key ∈ known)
    (hnew : d.contains key = false) : d.length < known.length := by
  have hkeys : (key :: d.entries.map Prod.fst).Nodup :=
    nodup_cons.mpr ⟨fun hmem => Bool.eq_false_iff.mp hnew (contains_iff.mpr hmem), d.nodup⟩
  have hsubset : key :: d.entries.map Prod.fst ⊆ known :=
    cons_subset.mpr ⟨hkey, fun k hk => hknown k (contains_iff.mpr hk)⟩
  have hle := (subperm_of_subset hkeys hsubset).length_le
  rwa [length_cons, length_map] at hle

/-- Some keys are written, each with its own value. -/
theorem get?_foldl_set (f : κ → α) (key : κ) : ∀ (keys : List κ) (d : PyDict κ α),
    (keys.foldl (fun d k => d.set k (f k)) d).get? key =
      if key ∈ keys then some (f key) else d.get? key
  | [], d => (if_neg not_mem_nil).symm
  | k :: keys, d => by
    rw [foldl_cons, get?_foldl_set f key keys]
    by_cases hkey : key ∈ keys
    · rw [if_pos hkey, if_pos (.tail _ hkey)]
    · rw [if_neg hkey]
      by_cases hsame : key = k
      · rw [if_pos (mem_cons.mpr (Or.inl hsame)), hsame, get?_set_self]
      · rw [if_neg (not_mem_cons_of_ne_of_not_mem hsame hkey), get?_set_of_ne _ hsame]

/-- A dict without keys is empty. -/
theorem eq_empty_of_get? {d : PyDict κ α} (h : ∀ key, d.get? key = none) : d = empty := by
  obtain ⟨entries, hnodup⟩ := d
  cases entries with
  | nil => rfl
  | cons e entries =>
    have hnone := h e.1
    rw [get?_eq_some_iff.mpr mem_cons_self] at hnone
    cases hnone

/-- Two dicts that say the same of every key have the same entries, up to their order. -/
theorem perm_of_get? {d e : PyDict κ α} (h : ∀ key, d.get? key = e.get? key) :
    d.entries.Perm e.entries := by
  refine (perm_ext_iff_of_nodup d.nodup.of_map e.nodup.of_map).mpr fun entry => ?_
  rw [← get?_eq_some_iff, ← get?_eq_some_iff, h]

/-- Popping a key that is present makes the dict shorter. -/
theorem length_pop_lt {d : PyDict κ α} (h : d.contains key = true) :
    (d.pop key).length < d.length := by
  obtain ⟨value, hvalue⟩ := Option.isSome_iff_exists.mp h
  have hmem := get?_eq_some_iff.mp hvalue
  exact length_filter_lt_length_iff_exists.mpr ⟨(key, value), hmem, by simp⟩

theorem insert_of_lookup : ∀ {entries : List (κ × α)},
    lookup key entries = some value → insert key value entries = entries
  | (k, v) :: entries, h => by
    by_cases hk : k = key
    · rw [lookup, if_pos hk] at h
      rw [insert, if_pos hk, Option.some.inj h]
    · rw [lookup, if_neg hk] at h
      rw [insert, if_neg hk, insert_of_lookup h]

theorem insert_of_fresh (value : α) : ∀ {entries : List (κ × α)},
    key ∉ entries.map Prod.fst → insert key value entries = entries ++ [(key, value)]
  | [], _ => rfl
  | (k, v) :: entries, h => by
    rw [map_cons, mem_cons, not_or] at h
    rw [insert, if_neg (Ne.symm h.1), insert_of_fresh value h.2, cons_append]

theorem entries_set_of_fresh {d : PyDict κ α} (h : key ∉ d.entries.map Prod.fst) (value : α) :
    (d.set key value).entries = d.entries ++ [(key, value)] :=
  insert_of_fresh value h

/-- Writing the value that a key has changes nothing, and writing another does. -/
theorem set_eq_self_iff {d : PyDict κ α} {before : α} (h : d.get? key = some before) :
    d.set key value = d ↔ value = before := by
  constructor
  · intro heq
    have hvalue := get?_set_self d key value
    rw [heq, h] at hvalue
    exact (Option.some.inj hvalue).symm
  · rintro rfl
    cases d
    simp only [set, mk.injEq]
    exact insert_of_lookup h

/-- Of the keys of a dict and those of a list, the same are read when the ones that are read are in
both. -/
theorem filterMap_keys_perm {β : Type} {f : κ → Option β} {d : PyDict κ α} {keys : List κ}
    (hkeys : keys.Nodup) (h : ∀ k, (f k).isSome = true → d.contains k = true ∧ k ∈ keys) :
    ((d.entries.map Prod.fst).filterMap f).Perm (keys.filterMap f) := by
  have hfilter : ∀ l : List κ, (l.filter fun k => (f k).isSome).filterMap f = l.filterMap f := by
    intro l
    rw [filterMap_filter]
    refine filterMap_congr fun k _ => ?_
    cases f k <;> rfl
  rw [← hfilter, ← hfilter keys]
  refine ((perm_ext_iff_of_nodup (d.nodup.filter _) (hkeys.filter _)).mpr
    fun k => ?_).filterMap f
  rw [mem_filter, mem_filter, ← contains_iff]
  exact and_congr_left fun hk => iff_of_true (h k hk).1 (h k hk).2

end PyDict

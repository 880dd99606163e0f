import Efdi.Base.PyDict
import Mathlib.Data.Finset.Card

/-!
# Bounded tables

A table keeps its entries in the order in which they were last put.  Putting an entry moves its key
to the end, and then the oldest entries beyond a limit leave.

What a table has of a key is what was last put under it (`exists_put_of_get?`).  A key that was put
and not touched since leaves only when as many other keys as the limit were put after it
(`limit_le_of_evicted`).
-/

namespace Bounded

open List PyDict

variable {κ α : Type} [DecidableEq κ]

/-- A change of a table. -/
inductive Change (κ α : Type) where
  | put (key : κ) (value : α)
  | remove (key : κ)

/-- The key that a change is about. -/
def Change.key : Change κ α → κ
  | .put key _ => key
  | .remove key => key

/-- The key that a change puts. -/
def Change.putKey : Change κ α → Option κ
  | .put key _ => some key
  | .remove _ => none

/-- The table without its oldest entries beyond the limit. -/
def trim (limit : Nat) (table : PyDict κ α) : PyDict κ α where
  entries := table.entries.drop (table.length - limit)
  nodup := by
    rw [List.map_drop]
    exact table.nodup.sublist (List.drop_sublist _ _)

/-- The table after a change. -/
def step (limit : Nat) (table : PyDict κ α) : Change κ α → PyDict κ α
  | .put key value => trim limit ((table.pop key).set key value)
  | .remove key => table.pop key

/-- The table after some changes. -/
def run (limit : Nat) (table : PyDict κ α) (changes : List (Change κ α)) : PyDict κ α :=
  changes.foldl (step limit) table

/-- The keys that changes put, each once. -/
def putKeys (changes : List (Change κ α)) : Finset κ := (changes.filterMap Change.putKey).toFinset

section

variable {limit : Nat} {table : PyDict κ α} {key : κ} {value : α}

theorem run_append (changes more : List (Change κ α)) :
    run limit table (changes ++ more) = run limit (run limit table changes) more :=
  foldl_append

theorem putKeys_mono {changes more : List (Change κ α)} :
    putKeys changes ⊆ putKeys (changes ++ more) := by
  intro key hkey
  rw [putKeys, mem_toFinset] at hkey ⊢
  rw [filterMap_append]
  exact mem_append_left _ hkey

/-- The entries after one is put, before the table is trimmed. -/
theorem entries_put (table : PyDict κ α) (key : κ) (value : α) :
    ((table.pop key).set key value).entries =
      (table.entries.filter fun entry => decide (entry.1 ≠ key)) ++ [(key, value)] := by
  refine entries_set_of_fresh ?_ value
  intro hmem
  obtain ⟨entry, hentry, hkey⟩ := mem_map.mp hmem
  exact of_decide_eq_true (mem_filter.mp hentry).2 hkey

theorem get?_of_trim (h : (trim limit table).get? key = some value) :
    table.get? key = some value :=
  get?_eq_some_iff.mpr ((drop_sublist _ _).subset (get?_eq_some_iff.mp h))

/-- A change leaves the other keys as they are, or they leave the table. -/
theorem get?_of_step {change : Change κ α} (hkey : change.key ≠ key)
    (h : (step limit table change).get? key = some value) : table.get? key = some value := by
  cases change with
  | put other v =>
    have hne : key ≠ other := Ne.symm hkey
    have hset := get?_of_trim h
    rw [get?_set_of_ne (d := table.pop other) hne,
      get?_pop_of_ne (d := table) hne] at hset
    exact hset
  | remove other =>
    have hne : key ≠ other := Ne.symm hkey
    have hpop : (table.pop other).get? key = some value := h
    rw [get?_pop_of_ne (d := table) hne] at hpop
    exact hpop

/-- What a table has of a key was put last, and nothing changed the key since. -/
theorem exists_put_of_get? {changes : List (Change κ α)}
    (h : (run limit .empty changes).get? key = some value) :
    ∃ before after, changes = before ++ .put key value :: after ∧
      ∀ change ∈ after, change.key ≠ key := by
  induction changes using reverseRecOn with
  | nil => cases h
  | append_singleton changes change ih =>
    rw [run_append] at h
    by_cases hkey : change.key = key
    · cases change with
      | put other v =>
        obtain rfl : other = key := hkey
        have hset := get?_of_trim h
        rw [get?_set_self] at hset
        rw [Option.some.inj hset]
        exact ⟨changes, [], rfl, by simp⟩
      | remove other =>
        obtain rfl : other = key := hkey
        have hpop : ((run limit .empty changes).pop other).get? other = some value := h
        rw [get?_pop_self] at hpop
        cases hpop
    · obtain ⟨before, after, rfl, hafter⟩ := ih (get?_of_step hkey h)
      refine ⟨before, after ++ [change], by simp, ?_⟩
      intro other hother
      rcases mem_append.mp hother with hmem | hmem
      · exact hafter other hmem
      · rw [mem_singleton.mp hmem]
        exact hkey

/-- The key is in the table with only later keys behind it, or enough later keys were put. -/
def Behind (limit : Nat) (table : PyDict κ α) (key : κ) (value : α) (later : Finset κ) : Prop :=
  limit ≤ later.card ∨ ∃ older newer, table.entries = older ++ (key, value) :: newer ∧
    ∀ entry ∈ newer, entry.1 ∈ later

theorem Behind.trim {older newer : List (κ × α)} {later : Finset κ}
    (hentries : table.entries = older ++ (key, value) :: newer)
    (hnewer : ∀ entry ∈ newer, entry.1 ∈ later) :
    Behind limit (trim limit table) key value later := by
  have hlength : table.length = older.length + 1 + newer.length := by
    rw [PyDict.length, hentries, length_append, length_cons]
    omega
  by_cases hkept : table.length - limit ≤ older.length
  · refine .inr ⟨older.drop (table.length - limit), newer, ?_, hnewer⟩
    show table.entries.drop (table.length - limit) = _
    rw [hentries, drop_append_of_le_length hkept]
  · have hnodup := table.nodup
    rw [hentries, map_append, map_cons] at hnodup
    have hkeys : (newer.map Prod.fst).Nodup := (nodup_append.mp hnodup).2.1.of_cons
    have hsubset : (newer.map Prod.fst).toFinset ⊆ later := by
      intro other hother
      obtain ⟨entry, hentry, rfl⟩ := mem_map.mp (mem_toFinset.mp hother)
      exact hnewer entry hentry
    have hcard := Finset.card_le_card hsubset
    rw [toFinset_card_of_nodup hkeys, length_map] at hcard
    exact .inl (by omega)

theorem Behind.step {changes : List (Change κ α)} {change : Change κ α}
    (h : Behind limit table key value (putKeys changes)) (hkey : change.key ≠ key) :
    Behind limit (step limit table change) key value (putKeys (changes ++ [change])) := by
  rcases h with hmany | ⟨older, newer, hentries, hnewer⟩
  · exact .inl (hmany.trans (Finset.card_le_card putKeys_mono))
  · have hfilter : ∀ other, other ≠ key →
        (table.entries.filter fun entry => decide (entry.1 ≠ other)) =
          (older.filter fun entry => decide (entry.1 ≠ other)) ++
            (key, value) :: newer.filter fun entry => decide (entry.1 ≠ other) := by
      intro other hother
      rw [hentries, filter_append,
        filter_cons_of_pos (by simpa using Ne.symm hother)]
    have hlater : ∀ other, ∀ entry ∈ newer.filter fun entry => decide (entry.1 ≠ other),
        entry.1 ∈ putKeys (changes ++ [change]) := fun other entry hentry =>
      putKeys_mono (hnewer entry (mem_of_mem_filter hentry))
    cases change with
    | remove other => exact .inr ⟨_, _, hfilter other hkey, hlater other⟩
    | put other v =>
      have hput : ((table.pop other).set other v).entries =
          (older.filter fun entry => decide (entry.1 ≠ other)) ++ (key, value) ::
            ((newer.filter fun entry => decide (entry.1 ≠ other)) ++ [(other, v)]) := by
        rw [entries_put, hfilter other hkey, append_assoc, cons_append]
      refine Behind.trim hput fun entry hentry => ?_
      rcases mem_append.mp hentry with hmem | hmem
      · exact hlater other entry hmem
      · rw [mem_singleton.mp hmem, putKeys, mem_toFinset, filterMap_append]
        exact mem_append_right _ mem_cons_self

/-- A key that was put and not changed since leaves when as many others as the limit were put. -/
theorem limit_le_of_evicted {before after : List (Change κ α)}
    (hafter : ∀ change ∈ after, change.key ≠ key)
    (h : (run limit table (before ++ .put key value :: after)).get? key = none) :
    limit ≤ (putKeys after).card := by
  have hbehind : Behind limit (run limit table (before ++ .put key value :: after)) key value
      (putKeys after) := by
    clear h
    induction after using reverseRecOn with
    | nil =>
      rw [run_append]
      exact Behind.trim (entries_put _ key value) (by simp)
    | append_singleton after change ih =>
      have hrun : run limit table (before ++ .put key value :: (after ++ [change])) =
          Bounded.step limit (run limit table (before ++ .put key value :: after)) change := by
        rw [← cons_append, ← append_assoc, run_append]
        rfl
      rw [hrun]
      exact (ih fun other hother => hafter other (mem_append_left _ hother)).step
        (hafter change (mem_append_right _ mem_cons_self))
  rcases hbehind with hmany | ⟨older, newer, hentries, -⟩
  · exact hmany
  · have hfound : (run limit table (before ++ .put key value :: after)).get? key = some value := by
      rw [get?_eq_some_iff, hentries]
      exact mem_append_right _ mem_cons_self
    rw [hfound] at h
    cases h

end

end Bounded

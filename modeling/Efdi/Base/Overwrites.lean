import Efdi.Base.PyDict
import Mathlib.Data.List.TakeWhile

/-!
# Calls that write or raise

A store is a dict.  A call writes some keys of it, or it raises and writes nothing, and of a
list of calls those after the first that raises are not made.

What the calls leave behind is the store with the writes that were made (`perform_fst`).  Writes
that agree leave the store as it was exactly when each of them writes what was there
(`put_unchanged_iff`).
-/

namespace Overwrites

open List

variable {ρ κ α ε : Type}

/-- A call, and what it writes when it does not raise. -/
structure Call (ρ κ α : Type) where
  name : ρ
  writes : List (κ × α)

/-- What calls write when none of them raises. -/
def writesOf (calls : List (Call ρ κ α)) : List (κ × α) := calls.flatMap Call.writes

/-- What calls write up to the first that raises. -/
def made (raises : ρ → Option ε) (calls : List (Call ρ κ α)) : List (κ × α) :=
  writesOf (calls.takeWhile fun call => (raises call.name).isNone)

/-- Writes to one key write one value. -/
def Agree (writes : List (κ × α)) : Prop :=
  ∀ v ∈ writes, ∀ w ∈ writes, v.1 = w.1 → v.2 = w.2

theorem mem_of_mem_made {raises : ρ → Option ε} {calls : List (Call ρ κ α)} {w : κ × α}
    (h : w ∈ made raises calls) : w ∈ writesOf calls := by
  obtain ⟨call, hcall, hw⟩ := mem_flatMap.mp h
  exact mem_flatMap.mpr ⟨call, ( takeWhile_prefix _).subset hcall, hw⟩

theorem Agree.made {calls : List (Call ρ κ α)} (h : Agree (writesOf calls))
    (raises : ρ → Option ε) : Agree (made raises calls) := fun v hv w hw =>
  h v (mem_of_mem_made hv) w (mem_of_mem_made hw)

variable [DecidableEq κ]

/-- The store after some writes. -/
def put (writes : List (κ × α)) (store : PyDict κ α) : PyDict κ α :=
  writes.foldl (fun store w => store.set w.1 w.2) store

/-- The store after some calls, and the error of the first that raised. -/
def perform (raises : ρ → Option ε) : List (Call ρ κ α) → PyDict κ α → PyDict κ α × Option ε
  | [], store => (store, none)
  | call :: calls, store =>
    match raises call.name with
    | some e => (store, some e)
    | none => perform raises calls (put call.writes store)

section

variable {raises : ρ → Option ε} {calls : List (Call ρ κ α)} {writes : List (κ × α)}
  {store : PyDict κ α}

theorem put_nil : put [] store = store := rfl

theorem put_append (before after : List (κ × α)) :
    put (before ++ after) store = put after (put before store) := foldl_append

theorem perform_fst : (perform raises calls store).1 = put (made raises calls) store := by
  induction calls generalizing store with
  | nil => rfl
  | cons call calls ih =>
    rw [perform, made, takeWhile_cons]
    cases raises call.name with
    | some e => rfl
    | none => exact ih.trans (put_append _ _).symm

/-- Calls raise nothing when none of them does. -/
theorem perform_snd_eq_none_iff :
    (perform raises calls store).2 = none ↔ ∀ call ∈ calls, raises call.name = none := by
  induction calls generalizing store with
  | nil => simp [perform]
  | cons call calls ih =>
    rw [perform, forall_mem_cons]
    cases raises call.name with
    | some e => simp
    | none => simp [ih]

omit [DecidableEq κ] in
/-- Calls that raise nothing write all they write. -/
theorem made_eq_writesOf (h : ∀ call ∈ calls, raises call.name = none) :
    made raises calls = writesOf calls := by
  rw [made, takeWhile_eq_self_iff.mpr fun call hcall => by rw [h call hcall]; rfl]

/-- A key that is not written keeps its value. -/
theorem get?_put_of_notMem {key : κ} (h : ∀ w ∈ writes, w.1 ≠ key) :
    (put writes store).get? key = store.get? key := by
  induction writes generalizing store with
  | nil => rfl
  | cons w writes ih =>
    obtain ⟨hw, hwrites⟩ := forall_mem_cons.mp h
    rw [put, foldl_cons]
    exact (ih hwrites).trans (PyDict.get?_set_of_ne _ (Ne.symm hw) _)

/-- A key that is written has the value that is written. -/
theorem get?_put_of_mem (h : Agree writes) {w : κ × α} (hw : w ∈ writes) :
    (put writes store).get? w.1 = some w.2 := by
  induction writes generalizing store w with
  | nil => cases hw
  | cons v writes ih =>
    have hrest : Agree writes := fun a ha b hb =>
      h a (.tail _ ha) b (.tail _ hb)
    rw [put, foldl_cons]
    by_cases hlater : ∃ u ∈ writes, u.1 = w.1
    · obtain ⟨u, hu, hkey⟩ := hlater
      rw [← hkey, h w hw u (.tail _ hu) hkey.symm]
      exact ih hrest hu
    · have hnone : ∀ u ∈ writes, u.1 ≠ w.1 := fun u hu hkey => hlater ⟨u, hu, hkey⟩
      rcases mem_cons.mp hw with rfl | hmem
      · exact (get?_put_of_notMem hnone).trans (PyDict.get?_set_self ..)
      · exact absurd rfl (hnone w hmem)

/-- Writes that agree change nothing exactly when each writes what was there. -/
theorem put_unchanged_iff (h : Agree writes) :
    (∀ key, (put writes store).get? key = store.get? key) ↔
      ∀ w ∈ writes, store.get? w.1 = some w.2 := by
  constructor
  · intro hsame w hw
    rw [← hsame, get?_put_of_mem h hw]
  · intro hthere key
    by_cases hwritten : ∃ w ∈ writes, w.1 = key
    · obtain ⟨w, hw, rfl⟩ := hwritten
      rw [get?_put_of_mem h hw, hthere w hw]
    · exact get?_put_of_notMem fun w hw hkey => hwritten ⟨w, hw, hkey⟩

end

-- Comparing two stores does not run the writes.
attribute [irreducible] put

end Overwrites

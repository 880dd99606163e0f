import Mathlib.Data.List.Chain
import Mathlib.Data.List.Nodup
import Mathlib.Data.List.Perm.Subperm

/-!
# Chasing pointers

A partial function points from an element to at most one other.  `chase` follows it to an element
that points to a goal, for at most a number of steps.  A way to the goal is the only one from where
it begins (`Way.unique`), so no element is on it twice (`Way.nodup`), and as many steps as there
are elements that point somewhere find it when there is one (`exists_chase_iff`).
-/

namespace Pointers

open List

variable {α : Type*} (next : α → Option α) (goal : α)

/-- The elements from the first one on, of which the last one points to the goal. -/
def chase [DecidableEq α] : Nat → α → Option (List α)
  | 0, _ => none
  | steps + 1, a =>
    match next a with
    | none => none
    | some b => if b = goal then some [a] else (chase steps b).map (a :: ·)

/-- A list leads from its first element to the goal, which only its last element points to. -/
inductive Way : α → List α → Prop
  | last {a : α} (h : next a = some goal) : Way a [a]
  | step {a b : α} {l : List α} (h : next a = some b) (hb : b ≠ goal) (hl : Way b l) :
      Way a (a :: l)

variable {next goal} {a : α} {l : List α}

namespace Way

theorem unique (h : Way next goal a l) : ∀ {l'}, Way next goal a l' → l = l' := by
  induction h with
  | last h =>
    intro l' h'
    cases h' with
    | last => rfl
    | step hnext hb =>
      rw [h] at hnext
      exact absurd (Option.some.inj hnext).symm hb
  | step h hb hl ih =>
    intro l' h'
    cases h' with
    | last hlast =>
      rw [h] at hlast
      exact absurd (Option.some.inj hlast) hb
    | step hnext hb' hl' =>
      rw [h] at hnext
      cases hnext
      rw [ih hl']

/-- From an element on a way, a part of it leads to the goal. -/
theorem suffix (h : Way next goal a l) : ∀ b ∈ l, ∃ l', Way next goal b l' ∧ l' <:+ l := by
  induction h with
  | last h =>
    intro b hb
    rw [mem_singleton.mp hb]
    exact ⟨_, .last h, suffix_refl _⟩
  | step h hne hl ih =>
    intro b hb
    rcases mem_cons.mp hb with rfl | hmem
    · exact ⟨_, .step h hne hl, suffix_refl _⟩
    · obtain ⟨l', hway, hsuffix⟩ := ih b hmem
      exact ⟨l', hway, hsuffix.trans (suffix_cons _ _)⟩

theorem nodup (h : Way next goal a l) : l.Nodup := by
  induction h with
  | last => exact nodup_singleton _
  | @step a b l h hb hl ih =>
    refine nodup_cons.mpr ⟨fun hmem => ?_, ih⟩
    -- The way from the second place of `a` would be the whole way.
    obtain ⟨l', hway, hsuffix⟩ := hl.suffix a hmem
    have hlength := hsuffix.length_le
    rw [← (Way.step h hb hl).unique hway, length_cons] at hlength
    exact absurd hlength (Nat.not_succ_le_self _)

theorem points (h : Way next goal a l) : ∀ b ∈ l, next b ≠ none := by
  induction h with
  | last h =>
    intro b hb
    rw [mem_singleton.mp hb, h]
    exact Option.some_ne_none _
  | step h _ _ ih =>
    intro b hb
    rcases mem_cons.mp hb with rfl | hmem
    · rw [h]
      exact Option.some_ne_none _
    · exact ih b hmem

theorem head (h : Way next goal a l) : l.head? = some a := by
  cases h with
  | last => rfl
  | step => rfl

/-- Each element points to the one behind it, and the last one to the goal. -/
theorem chain (h : Way next goal a l) : (l ++ [goal]).IsChain (fun x y => next x = some y) := by
  induction h with
  | last h => exact isChain_cons_cons.mpr ⟨h, isChain_singleton _⟩
  | @step a b l h _ hl ih =>
    cases hl with
    | last => exact isChain_cons_cons.mpr ⟨h, ih⟩
    | step => exact isChain_cons_cons.mpr ⟨h, ih⟩

/-- A way is not longer than a list of all the elements that point somewhere. -/
theorem length_le {points : List α} (hpoints : ∀ b, next b ≠ none → b ∈ points)
    (h : Way next goal a l) : l.length ≤ points.length :=
  (h.nodup.subperm fun b hb => hpoints b (h.points b hb)).length_le

end Way

theorem exists_way_iff :
    (∃ l, Way next goal a l) ↔ Relation.TransGen (fun x y => next x = some y) a goal := by
  constructor
  · rintro ⟨l, h⟩
    induction h with
    | last h => exact .single h
    | step h _ _ ih => exact .head h ih
  · intro h
    induction h using Relation.TransGen.head_induction_on with
    | single h => exact ⟨_, .last h⟩
    | @head a b h _ ih =>
      obtain ⟨l, hl⟩ := ih
      by_cases hb : b = goal
      · subst hb
        exact ⟨_, .last h⟩
      · exact ⟨_, .step h hb hl⟩

/-! ## The chase -/

variable [DecidableEq α] {steps : Nat}

theorem way_of_chase (h : chase next goal steps a = some l) : Way next goal a l := by
  induction steps generalizing a l with
  | zero => cases h
  | succ steps ih =>
    rw [chase] at h
    cases hnext : next a with
    | none =>
      rw [hnext] at h
      cases h
    | some b =>
      rw [hnext] at h
      dsimp only at h
      split at h
      next hb =>
        cases h
        exact .last (hb ▸ hnext)
      next hb =>
        obtain ⟨rest, hrest, rfl⟩ := Option.map_eq_some_iff.mp h
        exact .step hnext hb (ih hrest)

theorem chase_of_way (h : Way next goal a l) :
    ∀ {steps}, l.length ≤ steps → chase next goal steps a = some l := by
  induction h with
  | last h =>
    intro steps hsteps
    cases steps with
    | zero => cases hsteps
    | succ steps =>
      rw [chase, h]
      exact if_pos rfl
  | @step a b l h hb hl ih =>
    intro steps hsteps
    cases steps with
    | zero => cases hsteps
    | succ steps =>
      rw [chase, h]
      dsimp only
      rw [if_neg hb, ih (Nat.le_of_succ_le_succ hsteps)]
      rfl

/-- With enough steps the goal is found exactly when the pointers lead to it. -/
theorem exists_chase_iff {points : List α} (hpoints : ∀ b, next b ≠ none → b ∈ points)
    (hsteps : points.length ≤ steps) :
    (∃ l, chase next goal steps a = some l) ↔
      Relation.TransGen (fun x y => next x = some y) a goal := by
  rw [← exists_way_iff]
  constructor
  · rintro ⟨l, h⟩
    exact ⟨l, way_of_chase h⟩
  · rintro ⟨l, h⟩
    exact ⟨l, chase_of_way h ((h.length_le hpoints).trans hsteps)⟩

end Pointers

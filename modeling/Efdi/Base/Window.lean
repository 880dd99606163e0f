import Mathlib.Order.Lattice
import Mathlib.Data.List.Basic

/-!
# A memory with a window

A thing is listed from time to time.  It is taken when it is listed and not remembered, and it is
remembered from then on until a moment whose cutoff has reached the time at which it was taken.
Nothing ties the cutoff to the moments at which the thing is listed, so it can be taken again
(`takes_le_one_iff`).
-/

namespace Window

open List

variable {T : Type*} [LinearOrder T] {cutoff : T → T} {now since : T} {listed : Bool}
  {moments : List (T × Bool)}

/-- The memory at a moment. -/
def kept (cutoff : T → T) (now : T) (memory : Option T) : Option T :=
  memory.filter fun since => decide (cutoff now < since)

/-- The memory after a moment. -/
def step (cutoff : T → T) (memory : Option T) (moment : T × Bool) : Option T :=
  (kept cutoff moment.1 memory).or (if moment.2 then some moment.1 else none)

/-- The thing is taken at a moment. -/
def takes (cutoff : T → T) (memory : Option T) (moment : T × Bool) : Bool :=
  moment.2 && (kept cutoff moment.1 memory).isNone

/-- The moments at which the thing is taken. -/
def taken (cutoff : T → T) : Option T → List (T × Bool) → List T
  | _, [] => []
  | memory, moment :: moments =>
    (if takes cutoff memory moment then [moment.1] else []) ++
      taken cutoff (step cutoff memory moment) moments

/-- The thing is listed at a moment, after a moment or at one whose cutoff has reached `since`. -/
def ListedPast (cutoff : T → T) (since : T) (moments : List (T × Bool)) : Prop :=
  ∃ between last after, moments = between ++ last :: after ∧ last.2 = true ∧
    ∃ moment ∈ between ++ [last], ¬ cutoff moment.1 < since

/-- The thing is listed at two moments, and the cutoff reaches the first of them by the second. -/
def Relisted (cutoff : T → T) (moments : List (T × Bool)) : Prop :=
  ∃ before first rest, moments = before ++ first :: rest ∧ first.2 = true ∧
    ListedPast cutoff first.1 rest

theorem kept_of_lt (h : cutoff now < since) : kept cutoff now (some since) = some since := by
  rw [kept, Option.filter_some, if_pos (decide_eq_true h)]

theorem kept_of_not_lt (h : ¬ cutoff now < since) : kept cutoff now (some since) = none := by
  rw [kept, Option.filter_some, if_neg (by rw [decide_eq_true_iff]; exact h)]

theorem listedPast_nil : ¬ ListedPast cutoff since [] := by
  rintro ⟨between, last, after, h, -⟩
  exact absurd h.symm (by simp)

/-- While the memory lasts, the first moment says nothing about the rest. -/
theorem listedPast_cons_of_lt (h : cutoff now < since) :
    ListedPast cutoff since ((now, listed) :: moments) ↔ ListedPast cutoff since moments := by
  constructor
  · rintro ⟨between, last, after, hsplit, hlast, moment, hmem, hpast⟩
    cases between with
    | nil =>
      obtain ⟨rfl, -⟩ := cons.inj hsplit
      rw [nil_append, mem_singleton] at hmem
      rw [hmem] at hpast
      exact absurd h hpast
    | cons head between =>
      obtain ⟨rfl, hrest⟩ := cons.inj hsplit
      rcases mem_cons.mp hmem with rfl | hmem
      · exact absurd h hpast
      · exact ⟨between, last, after, hrest, hlast, moment, hmem, hpast⟩
  · rintro ⟨between, last, after, rfl, hlast, moment, hmem, hpast⟩
    exact ⟨(now, listed) :: between, last, after, rfl, hlast, moment,
      .tail _ hmem, hpast⟩

/-- Once the memory is gone, it is enough that the thing is listed. -/
theorem listedPast_cons_of_not_lt (h : ¬ cutoff now < since) :
    ListedPast cutoff since ((now, listed) :: moments) ↔
      ∃ moment ∈ (now, listed) :: moments, moment.2 = true := by
  constructor
  · rintro ⟨between, last, after, hsplit, hlast, -⟩
    exact ⟨last, by rw [hsplit]; simp, hlast⟩
  · rintro ⟨last, hmem, hlast⟩
    obtain ⟨between, after, hsplit⟩ := append_of_mem hmem
    refine ⟨between, last, after, hsplit, hlast, (now, listed), ?_, h⟩
    cases between with
    | nil =>
      rw [(cons.inj hsplit).1]
      exact mem_singleton_self last
    | cons head between =>
      rw [(cons.inj hsplit).1]
      exact mem_cons_self

theorem taken_none_eq_nil :
    taken cutoff none moments = [] ↔ ¬ ∃ moment ∈ moments, moment.2 = true := by
  induction moments with
  | nil => simp [taken]
  | cons moment moments ih =>
    obtain ⟨now, listed⟩ := moment
    cases listed with
    | false => simp [taken, takes, step, kept, ih]
    | true => simp [taken, takes, kept]

/-- What is remembered is taken again exactly when it is listed past its time. -/
theorem taken_some_eq_nil :
    taken cutoff (some since) moments = [] ↔ ¬ ListedPast cutoff since moments := by
  induction moments with
  | nil => exact iff_of_true rfl listedPast_nil
  | cons moment moments ih =>
    obtain ⟨now, listed⟩ := moment
    by_cases h : cutoff now < since
    · rw [listedPast_cons_of_lt h, ← ih, taken, takes, step, kept_of_lt h]
      simp
    · rw [listedPast_cons_of_not_lt h, taken, takes, step, kept_of_not_lt h]
      cases listed with
      | false => simp [taken_none_eq_nil]
      | true => simp

/-- Where the moments are in order, the thing is taken at most once exactly when it is not listed
again past its time. -/
theorem takes_le_one_iff (h : moments.Pairwise fun a b => a.1 ≤ b.1) :
    (taken cutoff none moments).length ≤ 1 ↔ ¬ Relisted cutoff moments := by
  induction moments with
  | nil =>
    refine iff_of_true (Nat.zero_le _) ?_
    rintro ⟨before, first, rest, hsplit, -⟩
    exact absurd hsplit.symm (by simp)
  | cons moment moments ih =>
    obtain ⟨now, listed⟩ := moment
    obtain ⟨hhead, htail⟩ := pairwise_cons.mp h
    cases listed with
    | false =>
      have hrest : taken cutoff none ((now, false) :: moments) = taken cutoff none moments := by
        simp [taken, takes, step, kept]
      rw [hrest, ih htail, not_iff_not]
      constructor
      · rintro ⟨before, first, rest, rfl, hfirst⟩
        exact ⟨(now, false) :: before, first, rest, rfl, hfirst⟩
      · rintro ⟨before, first, rest, hsplit, hlisted, hpast⟩
        cases before with
        | nil =>
          rw [← (cons.inj hsplit).1] at hlisted
          cases hlisted
        | cons head before =>
          exact ⟨before, first, rest, (cons.inj hsplit).2, hlisted, hpast⟩
    | true =>
      have hrest : taken cutoff none ((now, true) :: moments) =
          now :: taken cutoff (some now) moments := by
        simp [taken, takes, step, kept]
      rw [hrest, length_cons, Nat.add_one_le_iff, Nat.lt_one_iff, length_eq_zero_iff,
        taken_some_eq_nil, not_iff_not]
      constructor
      · exact fun hpast => ⟨[], _, _, rfl, rfl, hpast⟩
      · rintro ⟨before, first, rest, hsplit, hlisted, between, last, after, rfl, hlast, moment,
          hmem, hpast⟩
        cases before with
        | nil =>
          obtain ⟨rfl, rfl⟩ := cons.inj hsplit
          exact ⟨between, last, after, rfl, hlast, moment, hmem, hpast⟩
        | cons head before =>
          -- the first listing is before the one that the cutoff reaches
          obtain ⟨rfl, rfl⟩ := cons.inj hsplit
          refine ⟨before ++ first :: between, last, after, by simp, hlast, moment, ?_, ?_⟩
          · simp only [append_assoc, cons_append]
            exact mem_append_right _ (.tail _ hmem)
          · exact fun hlt => hpast (hlt.trans_le (hhead first (by simp)))

end Window

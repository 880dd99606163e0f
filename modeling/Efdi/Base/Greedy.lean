import Mathlib.Data.List.Basic

/-!
# Greedy selection

A list is gone through once, and an element is kept unless it is near one that was kept before.
The test has a direction: the later element is tested against the earlier one.

What is kept and what is left out is the whole list (`sweep_perm`).  No two kept elements are near
(`sweep_pairwise`), and every element that is left out is near a kept one that stood before it
(`exists_near_of_mem`).  A map that keeps what is near keeps the selection (`sweep_map`).
-/

namespace Greedy

open List

variable {α : Type*} (near : α → α → Bool)

/-- What is kept, after what was kept before, and what is left out. -/
def sweep : List α → List α → List α × List α
  | kept, [] => (kept, [])
  | kept, x :: xs =>
    if kept.any fun k => near x k then
      let swept := sweep kept xs
      (swept.1, x :: swept.2)
    else sweep (kept ++ [x]) xs

variable {near}

theorem sweep_cons_of_near {kept xs : List α} {x : α} (h : (kept.any fun k => near x k) = true) :
    sweep near kept (x :: xs) = ((sweep near kept xs).1, x :: (sweep near kept xs).2) := by
  rw [sweep, if_pos h]

theorem sweep_cons_of_far {kept xs : List α} {x : α} (h : (kept.any fun k => near x k) = false) :
    sweep near kept (x :: xs) = sweep near (kept ++ [x]) xs := by
  rw [sweep, h]
  rfl

/-- What is kept and what is left out is the whole list. -/
theorem sweep_perm : ∀ (kept xs : List α),
    ((sweep near kept xs).1 ++ (sweep near kept xs).2).Perm (kept ++ xs)
  | kept, [] => List.Perm.refl _
  | kept, x :: xs => by
    cases hx : kept.any fun k => near x k with
    | true =>
      rw [sweep_cons_of_near hx]
      exact (List.perm_middle.trans ((sweep_perm kept xs).cons x)).trans List.perm_middle.symm
    | false =>
      rw [sweep_cons_of_far hx]
      have hperm := sweep_perm (kept ++ [x]) xs
      rwa [append_assoc, singleton_append] at hperm

/-- What was kept stays kept. -/
theorem prefix_sweep : ∀ (kept xs : List α), kept <+: (sweep near kept xs).1
  | kept, [] => prefix_rfl
  | kept, x :: xs => by
    cases hx : kept.any fun k => near x k with
    | true =>
      rw [sweep_cons_of_near hx]
      exact prefix_sweep kept xs
    | false =>
      rw [sweep_cons_of_far hx]
      exact (prefix_append _ _).trans (prefix_sweep (kept ++ [x]) xs)

/-- What is kept stands in the order of the list. -/
theorem sweep_sublist : ∀ (kept xs : List α), (sweep near kept xs).1.Sublist (kept ++ xs)
  | kept, [] => by
    rw [List.append_nil]
    exact List.Sublist.refl _
  | kept, x :: xs => by
    cases hx : kept.any fun k => near x k with
    | true =>
      rw [sweep_cons_of_near hx]
      exact (sweep_sublist kept xs).trans
        ((List.Sublist.refl kept).append (List.sublist_cons_self x xs))
    | false =>
      rw [sweep_cons_of_far hx]
      have hsub := sweep_sublist (kept ++ [x]) xs
      rwa [append_assoc, singleton_append] at hsub

/-- No two kept elements are near. -/
theorem sweep_pairwise : ∀ {kept : List α} (xs : List α),
    kept.Pairwise (fun a b => near b a = false) →
      (sweep near kept xs).1.Pairwise fun a b => near b a = false
  | kept, [], h => h
  | kept, x :: xs, h => by
    cases hx : kept.any fun k => near x k with
    | true =>
      rw [sweep_cons_of_near hx]
      exact sweep_pairwise xs h
    | false =>
      rw [sweep_cons_of_far hx]
      refine sweep_pairwise xs (pairwise_append.mpr ⟨h, pairwise_singleton _ _, ?_⟩)
      intro k hk y hy
      rw [mem_singleton.mp hy]
      exact Bool.eq_false_iff.mpr (any_eq_false.mp hx k hk)

/-- An element that is left out is near a kept one that stood before it. -/
theorem exists_near_of_mem {r : α → α → Prop} : ∀ {kept xs : List α} {x : α},
    (kept ++ xs).Pairwise r → x ∈ (sweep near kept xs).2 →
      ∃ k ∈ (sweep near kept xs).1, near x k = true ∧ r k x
  | kept, [], x, _, hx => by cases hx
  | kept, y :: xs, x, hsorted, hx => by
    cases hy : kept.any fun k => near y k with
    | true =>
      rw [sweep_cons_of_near hy] at hx ⊢
      have hrest : (kept ++ xs).Pairwise r :=
        hsorted.sublist ((List.Sublist.refl kept).append (sublist_cons_self y xs))
      rcases mem_cons.mp hx with rfl | hx
      · obtain ⟨k, hk, hnear⟩ := any_eq_true.mp hy
        refine ⟨k, (prefix_sweep kept xs).subset hk, hnear, ?_⟩
        exact (pairwise_append.mp hsorted).2.2 k hk x mem_cons_self
      · exact exists_near_of_mem hrest hx
    | false =>
      rw [sweep_cons_of_far hy] at hx ⊢
      refine exists_near_of_mem ?_ hx
      rwa [append_assoc, singleton_append]

/-- A map that keeps what is near can be applied before the selection. -/
theorem sweep_map {f : α → α} (hf : ∀ a b, near (f a) (f b) = near a b) :
    ∀ (kept xs : List α), sweep near (kept.map f) (xs.map f) =
      ((sweep near kept xs).1.map f, (sweep near kept xs).2.map f)
  | kept, [] => rfl
  | kept, x :: xs => by
    have hany : ((kept.map f).any fun k => near (f x) k) = kept.any fun k => near x k := by
      rw [any_map]
      exact congrArg kept.any (funext fun k => hf x k)
    cases hx : kept.any fun k => near x k with
    | true =>
      rw [map_cons, sweep_cons_of_near (hany.trans hx), sweep_cons_of_near hx,
        sweep_map hf kept xs]
      rfl
    | false =>
      rw [map_cons, sweep_cons_of_far (hany.trans hx), sweep_cons_of_far hx]
      have hrest := sweep_map hf (kept ++ [x]) xs
      rwa [map_append, map_singleton] at hrest

end Greedy

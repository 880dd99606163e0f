import Mathlib.Data.List.Rotate
import Mathlib.Tactic.Linarith
import Mathlib.Tactic.Ring

/-!
# Polygons

*Edges.*  The edges of a path are the pairs of points that follow each other.  A path that is closed
at another point, or gone through backwards, has the same edges up to their order and direction.

*Parity.*  A path that ends where it started changes sides an even number of times
(`even_changes`), whatever the two sides are.

*Crossings.*  Two segments cross properly when each one has its ends strictly on both sides of the
other.  Then neither lies strictly to the right of the other (`ProperCross.overlap`).
-/

namespace Polygon

open List

/-! ## Edges -/

section

variable {α : Type*}

/-- The edges of a path. -/
def edges (path : List α) : List (α × α) := path.zip path.tail

/-- The edges of the closed path through some points. -/
def closedEdges (points : List α) : List (α × α) := points.zip (points.rotate 1)

/-- The path through some points and back to the first one. -/
def close : List α → List α
  | [] => []
  | first :: rest => first :: rest ++ [first]

/-- The path ends where it starts. -/
def Closed (path : List α) : Prop := path ≠ [] ∧ path.head? = path.getLast?

variable {path points : List α}

@[simp] theorem edges_cons_cons (a b : α) (path : List α) :
    edges (a :: b :: path) = (a, b) :: edges (b :: path) := rfl

theorem edges_close (points : List α) : edges (close points) = closedEdges points := by
  cases points with
  | nil => rfl
  | cons first rest =>
    have hlength : (first :: rest).length = (rest ++ [first]).length := by simp
    show ((first :: rest) ++ [first]).zip (rest ++ [first]) = _
    rw [closedEdges, rotate_cons_succ, rotate_zero,
      ← append_nil (rest ++ [first]), zip_append hlength]
    simp

theorem closedEdges_rotate (points : List α) (k : Nat) :
    closedEdges (points.rotate k) = (closedEdges points).rotate k := by
  rw [closedEdges, closedEdges, zip, zipWith_rotate_distrib _ _ _ _ (by simp),
    rotate_rotate, rotate_rotate, Nat.add_comm]

theorem edges_concat (path : List α) (a b : α) :
    edges (path ++ [a, b]) = edges (path ++ [a]) ++ [(a, b)] := by
  induction path with
  | nil => rfl
  | cons c path ih =>
    cases path with
    | nil => rfl
    | cons d path => exact congrArg ((c, d) :: ·) ih

theorem edges_reverse (path : List α) :
    edges path.reverse = ((edges path).map Prod.swap).reverse := by
  induction path with
  | nil => rfl
  | cons a path ih =>
    cases path with
    | nil => rfl
    | cons b path =>
      rw [edges_cons_cons, map_cons, reverse_cons (a := (a, b).swap), ← ih,
        reverse_cons, reverse_cons, append_assoc]
      exact edges_concat _ _ _

/-- A closed path goes through its points and back to the first one. -/
theorem Closed.eq_close (h : Closed path) (hlength : 1 < path.length) :
    path = close path.dropLast := by
  obtain ⟨hne, hends⟩ := h
  cases path with
  | nil => exact absurd rfl hne
  | cons first rest =>
    have hrest : rest ≠ [] := by
      rintro rfl
      exact absurd hlength (by simp)
    have hlast : rest.getLast hrest = first := by
      rw [head?_cons, getLast?_cons, getLast?_eq_getLast_of_ne_nil hrest] at hends
      exact (Option.some.inj hends).symm
    have hsplit : rest = rest.dropLast ++ [first] := by
      rw [← hlast, dropLast_append_getLast hrest]
    rw [dropLast_cons_of_ne_nil hrest, close, cons_append, ← hsplit]

end

/-! ## Parity -/

section

variable {α : Type*}

/-- The answer is turned around at every element of a kind. -/
def toggles (p : α → Bool) (as : List α) : Bool :=
  as.foldl (fun inside a => if p a then !inside else inside) false

theorem toggles_iff_odd (p : α → Bool) (as : List α) : toggles p as = true ↔ Odd (as.countP p) := by
  have hfrom : ∀ inside : Bool,
      as.foldl (fun inside a => if p a then !inside else inside) inside = true ↔
        (inside = true ↔ Even (as.countP p)) := by
    induction as with
    | nil => simp
    | cons a as ih =>
      intro inside
      rw [foldl_cons, ih]
      by_cases ha : p a = true
      · rw [if_pos ha, countP_cons_of_pos ha, Nat.even_add_one]
        cases inside with
        | true => simp
        | false => simp
      · rw [if_neg ha, countP_cons_of_neg ha]
  rw [toggles, hfrom, ← Nat.not_even_iff_odd]
  simp

theorem toggles_congr {p : α → Bool} {as bs : List α} (h : as.countP p = bs.countP p) :
    toggles p as = toggles p bs := by
  rw [Bool.eq_iff_iff, toggles_iff_odd, toggles_iff_odd, h]

/-- A path changes sides an odd number of times when its ends are on different sides. -/
theorem odd_changes (side : α → Bool) (first : α) (rest : List α) :
    Odd ((edges (first :: rest)).countP fun e => side e.1 != side e.2) ↔
      side first ≠ side ((first :: rest).getLast (List.cons_ne_nil _ _)) := by
  induction rest generalizing first with
  | nil => simp [edges]
  | cons second rest ih =>
    rw [edges_cons_cons, getLast_cons (cons_ne_nil _ _)]
    have hrest := ih second
    by_cases hchange : side first = side second
    · rw [countP_cons_of_neg (by simpa using hchange), hrest, hchange]
    · rw [countP_cons_of_pos (by simpa using hchange), Nat.odd_add_one, hrest]
      revert hchange
      cases side first <;> cases side second <;> simp

theorem even_changes (side : α → Bool) {path : List α} (h : Closed path) :
    Even ((edges path).countP fun e => side e.1 != side e.2) := by
  obtain ⟨hne, hends⟩ := h
  cases path with
  | nil => exact absurd rfl hne
  | cons first rest =>
    rw [head?_cons, getLast?_eq_getLast_of_ne_nil (cons_ne_nil _ _),
      Option.some.injEq] at hends
    rw [← Nat.not_odd_iff_even, odd_changes, ← hends]
    simp

end

/-! ## Crossings -/

section

variable {K : Type*} [Field K] [LinearOrder K] [IsStrictOrderedRing K]

/-- On which side of the line from `a` to `b` the point `c` is. -/
def orient (a b c : K × K) : K := (c.2 - a.2) * (b.1 - a.1) - (b.2 - a.2) * (c.1 - a.1)

/-- Each of the segments has its ends strictly on both sides of the other. -/
def ProperCross (e f : (K × K) × (K × K)) : Prop :=
  orient e.1 e.2 f.1 * orient e.1 e.2 f.2 < 0 ∧ orient f.1 f.2 e.1 * orient f.1 f.2 e.2 < 0

instance (e f : (K × K) × (K × K)) : Decidable (ProperCross e f) :=
  inferInstanceAs (Decidable (_ ∧ _))

variable {e f : (K × K) × (K × K)}

theorem ProperCross.symm (h : ProperCross e f) : ProperCross f e := ⟨h.2, h.1⟩

omit [LinearOrder K] [IsStrictOrderedRing K] in
theorem orient_left (a b : K × K) : orient a b a = 0 := by
  rw [orient]
  ring

omit [LinearOrder K] [IsStrictOrderedRing K] in
theorem orient_right (a b : K × K) : orient a b b = 0 := by
  rw [orient]
  ring

/-- No two of the segments cross. -/
def Uncrossed (segments : List ((K × K) × (K × K))) : Prop :=
  ∀ e ∈ segments, ∀ f ∈ segments, ¬ProperCross e f

/-- No two edges of the closed path through some points cross. -/
def Simple (points : List (K × K)) : Prop := Uncrossed (closedEdges points)

/-- A segment has no end in common with one that it crosses. -/
theorem ProperCross.disjoint (h : ProperCross e f) :
    e.1 ≠ f.1 ∧ e.1 ≠ f.2 ∧ e.2 ≠ f.1 ∧ e.2 ≠ f.2 := by
  obtain ⟨h, -⟩ := h
  refine ⟨fun heq => ?_, fun heq => ?_, fun heq => ?_, fun heq => ?_⟩
  · rw [← heq, orient_left, zero_mul] at h
    exact lt_irrefl 0 h
  · rw [← heq, orient_left, mul_zero] at h
    exact lt_irrefl 0 h
  · rw [← heq, orient_right, zero_mul] at h
    exact lt_irrefl 0 h
  · rw [← heq, orient_right, mul_zero] at h
    exact lt_irrefl 0 h

/-- The ends of a segment that is crossed differ, as they are on different sides. -/
theorem ProperCross.ends_ne (h : ProperCross e f) : f.1 ≠ f.2 := by
  intro heq
  have hless := h.1
  rw [heq] at hless
  exact absurd hless (not_lt.mpr (mul_self_nonneg _))

/-- Points that are weighed with the sides they are on balance at one place. -/
theorem weighted_lt {α β γ δ a b c d m : K} (hα : 0 < α) (hβ : β < 0) (hγ : γ < 0) (hδ : 0 < δ)
    (ha : a < m) (hb : b < m) (hc : m ≤ c) (hd : m ≤ d) (hsum : α - β = δ - γ) :
    α * b - β * a < δ * c - γ * d := by
  have hleft : α * b - β * a < (α - β) * m := by
    have h1 := mul_lt_mul_of_pos_left hb hα
    have h2 := mul_lt_mul_of_neg_left ha hβ
    rw [sub_mul]
    linarith
  have hright : (δ - γ) * m ≤ δ * c - γ * d := by
    have h1 := mul_le_mul_of_nonneg_left hc hδ.le
    have h2 := mul_le_mul_of_nonpos_left hd hγ.le
    rw [sub_mul]
    linarith
  rw [hsum] at hleft
  exact hleft.trans_le hright

/-- Segments that cross properly meet: neither is strictly to the right of the other. -/
theorem ProperCross.overlap (h : ProperCross e f) : min f.1.1 f.2.1 ≤ max e.1.1 e.2.1 := by
  obtain ⟨a, b⟩ := e
  obtain ⟨c, d⟩ := f
  obtain ⟨hf, he⟩ := h
  by_contra hapart
  rw [not_le] at hapart
  have ha : a.1 < min c.1 d.1 := (le_max_left _ _).trans_lt hapart
  have hb : b.1 < min c.1 d.1 := (le_max_right _ _).trans_lt hapart
  have hc : min c.1 d.1 ≤ c.1 := min_le_left _ _
  have hd : min c.1 d.1 ≤ d.1 := min_le_right _ _
  have hsum : orient c d a - orient c d b = orient a b d - orient a b c := by
    simp only [orient]
    ring
  -- the place where the two lines meet, once on each of them
  have hmeet : orient c d a * b.1 - orient c d b * a.1 =
      orient a b d * c.1 - orient a b c * d.1 := by
    simp only [orient]
    ring
  rcases mul_neg_iff.mp he with ⟨hα, hβ⟩ | ⟨hα, hβ⟩
  · rcases mul_neg_iff.mp hf with ⟨hγ, hδ⟩ | ⟨hγ, hδ⟩
    · linarith
    · exact absurd hmeet (weighted_lt hα hβ hγ hδ ha hb hc hd hsum).ne
  · rcases mul_neg_iff.mp hf with ⟨hγ, hδ⟩ | ⟨hγ, hδ⟩
    · have hless := weighted_lt hβ hα hδ hγ hb ha hd hc (by linarith)
      linarith
    · linarith

end

end Polygon

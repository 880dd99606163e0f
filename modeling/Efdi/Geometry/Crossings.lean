import Efdi.Geometry.Regions
import Mathlib.Data.List.GetD
import Mathlib.Data.List.Sort
import Mathlib.Data.List.Sym

/-!
# Crossings of a ring

`_crossings` sorts the segments of a closed ring by their left ends and stops looking for crossings of
a segment at the first one that starts to the right of it.  Segments that cross overlap from west to
east, so nothing that is skipped crosses (`sweepRight_eq`), and each crossing is found from the one of
its segments that stands first (`crossings_exact`).
-/

namespace Efdi.Geometry

open Polygon List

/-! ## The sweep -/

/-- `points[i], points[(i + 1) % n]`. -/
def segment (points : List Point) (i : Nat) : Point × Point :=
  (points.getD i 0, points.getD ((i + 1) % points.length) 0)

/-- Where a segment starts from the west. -/
def leftEnd (points : List Point) (i : Nat) : Rat :=
  min (segment points i).1.1 (segment points i).2.1

/-- Where it ends in the east. -/
def rightEnd (points : List Point) (i : Nat) : Rat :=
  max (segment points i).1.1 (segment points i).2.1

/-- The segments follow each other in the ring of `n` points. -/
def Adjacent (n i j : Nat) : Prop := (i + 1) % n = j ∨ (j + 1) % n = i

instance (n i j : Nat) : Decidable (Adjacent n i j) := inferInstanceAs (Decidable (_ ∨ _))

/-- The crossings of a segment with those that start after it. -/
def sweepRight (points : List Point) (i : Nat) : List Nat → List (Nat × Nat)
  | [] => []
  | j :: js =>
    if rightEnd points i < leftEnd points j then []
    else if Adjacent points.length i j then sweepRight points i js
    else if ProperCross (segment points i) (segment points j) then
      (i, j) :: sweepRight points i js
    else sweepRight points i js

/-- The crossings of some segments that are sorted by where they start. -/
def sweep (points : List Point) : List Nat → List (Nat × Nat)
  | [] => []
  | i :: js => sweepRight points i js ++ sweep points js

/-- `sorted(range(n))` by the left ends. -/
def sortedSegments (points : List Point) : List Nat :=
  (List.range points.length).insertionSort fun i j => leftEnd points i ≤ leftEnd points j

/-- `_crossings`. -/
def crossings (points : List Point) : List (Nat × Nat) := sweep points (sortedSegments points)

/-! ## What the sweep finds -/

/-- The segments cross and do not follow each other. -/
def Crosses (points : List Point) (i j : Nat) : Prop :=
  ¬Adjacent points.length i j ∧ ProperCross (segment points i) (segment points j)

instance (points : List Point) (i j : Nat) : Decidable (Crosses points i j) :=
  inferInstanceAs (Decidable (_ ∧ _))

variable {points : List Point} {i j : Nat} {segs : List Nat}

theorem Crosses.symm (h : Crosses points i j) : Crosses points j i :=
  ⟨fun hadjacent => h.1 hadjacent.symm, h.2.symm⟩

theorem Crosses.ne (h : Crosses points i j) : i ≠ j := by
  rintro rfl
  exact h.2.disjoint.1 rfl

theorem Crosses.overlap (h : Crosses points i j) : leftEnd points j ≤ rightEnd points i :=
  h.2.overlap

/-- The segments are sorted by where they start. -/
def Sorted (points : List Point) (segs : List Nat) : Prop :=
  segs.Pairwise fun i j => leftEnd points i ≤ leftEnd points j

theorem sweepRight_eq (h : Sorted points segs) :
    sweepRight points i segs =
      (segs.filter fun j => decide (Crosses points i j)).map fun j => (i, j) := by
  induction segs with
  | nil => rfl
  | cons j js ih =>
    rw [Sorted, pairwise_cons] at h
    rw [sweepRight]
    by_cases hright : rightEnd points i < leftEnd points j
    · -- nothing from here on overlaps the segment
      have hnone : (j :: js).filter (fun j => decide (Crosses points i j)) = [] := by
        rw [filter_eq_nil_iff]
        intro k hk hcross
        have hleft : leftEnd points j ≤ leftEnd points k := by
          rcases mem_cons.mp hk with rfl | hk
          · exact le_rfl
          · exact h.1 k hk
        exact absurd (of_decide_eq_true hcross).overlap (not_le.mpr (hright.trans_le hleft))
      rw [if_pos hright, hnone, map_nil]
    · rw [if_neg hright, ih h.2]
      by_cases hadjacent : Adjacent points.length i j
      · rw [if_pos hadjacent, filter_cons_of_neg (by simp [Crosses, hadjacent])]
      · by_cases hcross : ProperCross (segment points i) (segment points j)
        · have hkept : Crosses points i j := ⟨hadjacent, hcross⟩
          rw [if_neg hadjacent, if_pos hcross,
            filter_cons_of_pos (by simpa using hkept), map_cons]
        · rw [if_neg hadjacent, if_neg hcross,
            filter_cons_of_neg (by simp [Crosses, hcross])]

/-- An unordered pair of segments. -/
def unordered (pair : Nat × Nat) : Sym2 Nat := s(pair.1, pair.2)

theorem mem_sweepRight_iff (h : Sorted points segs) {z : Sym2 Nat} :
    z ∈ (sweepRight points i segs).map unordered ↔
      ∃ j ∈ segs, Crosses points i j ∧ z = s(i, j) := by
  rw [sweepRight_eq h, map_map, mem_map]
  constructor
  · rintro ⟨j, hj, rfl⟩
    rw [mem_filter, decide_eq_true_eq] at hj
    exact ⟨j, hj.1, hj.2, rfl⟩
  · rintro ⟨j, hj, hcross, rfl⟩
    exact ⟨j, mem_filter.mpr ⟨hj, decide_eq_true hcross⟩, rfl⟩

theorem mem_sweep_iff (h : Sorted points segs) {a b : Nat} :
    s(a, b) ∈ (sweep points segs).map unordered ↔ a ∈ segs ∧ b ∈ segs ∧ Crosses points a b := by
  induction segs with
  | nil => simp [sweep]
  | cons i js ih =>
    have hrest := (pairwise_cons.mp h).2
    rw [sweep, map_append, mem_append, mem_sweepRight_iff hrest, ih hrest]
    constructor
    · rintro (⟨j, hj, hcross, heq⟩ | ⟨ha, hb, hcross⟩)
      · rcases Sym2.eq_iff.mp heq with ⟨rfl, rfl⟩ | ⟨rfl, rfl⟩
        · exact ⟨.head _, .tail _ hj, hcross⟩
        · exact ⟨.tail _ hj, .head _, hcross.symm⟩
      · exact ⟨.tail _ ha, .tail _ hb, hcross⟩
    · rintro ⟨ha, hb, hcross⟩
      rcases mem_cons.mp ha with rfl | ha'
      · have hb := (mem_cons.mp hb).resolve_left hcross.ne.symm
        exact .inl ⟨b, hb, hcross, rfl⟩
      · rcases mem_cons.mp hb with rfl | hb'
        · exact .inl ⟨a, ha', hcross.symm, Sym2.eq_swap⟩
        · exact .inr ⟨ha', hb', hcross⟩

/-- What is found is among the unordered pairs of the segments, each taken once. -/
theorem sweep_sublist (h : Sorted points segs) :
    ((sweep points segs).map unordered).Sublist segs.sym2 := by
  induction segs with
  | nil => exact .slnil
  | cons i js ih =>
    have hrest := (pairwise_cons.mp h).2
    rw [sweep, map_append, sweepRight_eq hrest, map_map]
    refine List.Sublist.append ?_ (ih hrest)
    rw [map_cons]
    exact .cons _ (filter_sublist.map _)

theorem sorted_sortedSegments (points : List Point) : Sorted points (sortedSegments points) := by
  have : Std.Total fun i j => leftEnd points i ≤ leftEnd points j :=
    ⟨fun i j => le_total _ _⟩
  have : IsTrans Nat fun i j => leftEnd points i ≤ leftEnd points j :=
    ⟨fun i j k hij hjk => hij.trans hjk⟩
  exact pairwise_insertionSort _ _

theorem sortedSegments_perm (points : List Point) :
    (sortedSegments points).Perm (List.range points.length) :=
  perm_insertionSort _ _

theorem mem_crossings_iff : s(i, j) ∈ (crossings points).map unordered ↔
    i < points.length ∧ j < points.length ∧ Crosses points i j := by
  have hperm := sortedSegments_perm points
  rw [crossings, mem_sweep_iff (sorted_sortedSegments points), hperm.mem_iff, hperm.mem_iff,
    mem_range, mem_range]

/-- The crossings are the pairs of segments that cross without following each other, and each is found
once. -/
theorem crossings_exact (points : List Point) :
    ((crossings points).map unordered).Nodup ∧
      ∀ i j, s(i, j) ∈ (crossings points).map unordered ↔
        i < points.length ∧ j < points.length ∧ Crosses points i j := by
  refine ⟨?_, fun i j => mem_crossings_iff⟩
  exact (sweep_sublist (sorted_sortedSegments points)).nodup
    ((sortedSegments_perm points).nodup_iff.mpr List.nodup_range).sym2

/-! ## Rings without crossings -/

theorem mem_closedEdges_iff {e : Point × Point} :
    e ∈ closedEdges points ↔ ∃ i < points.length, e = segment points i := by
  have hget : ∀ i, ∀ hi : i < (closedEdges points).length,
      i < points.length ∧ (closedEdges points)[i] = segment points i := by
    intro i hi
    have hlt : i < points.length := by
      rw [closedEdges, length_zip] at hi
      omega
    have hnext : (i + 1) % points.length < points.length := Nat.mod_lt _ (Nat.zero_lt_of_lt hlt)
    refine ⟨hlt, ?_⟩
    rw [segment, getD_eq_getElem _ _ hlt, getD_eq_getElem _ _ hnext]
    simp [closedEdges]
  constructor
  · intro he
    obtain ⟨i, hi, rfl⟩ := mem_iff_getElem.mp he
    exact ⟨i, (hget i hi).1, (hget i hi).2⟩
  · rintro ⟨i, hi, rfl⟩
    have hlt : i < (closedEdges points).length := by
      rw [closedEdges, length_zip, length_rotate, Nat.min_self]
      exact hi
    rw [← (hget i hlt).2]
    exact getElem_mem hlt

/-- Segments that follow each other have a point in common, so they do not cross. -/
theorem crosses_of_properCross (h : ProperCross (segment points i) (segment points j)) :
    Crosses points i j := by
  refine ⟨?_, h⟩
  rintro (rfl | rfl)
  · exact h.disjoint.2.2.1 rfl
  · exact h.disjoint.2.1 rfl

theorem crossings_eq_nil_iff : crossings points = [] ↔ Simple points := by
  constructor
  · intro hnone e he f hf hcross
    obtain ⟨i, hi, rfl⟩ := mem_closedEdges_iff.mp he
    obtain ⟨j, hj, rfl⟩ := mem_closedEdges_iff.mp hf
    have hfound := mem_crossings_iff.mpr ⟨hi, hj, crosses_of_properCross hcross⟩
    rw [hnone] at hfound
    cases hfound
  · intro hsimple
    rw [eq_nil_iff_forall_not_mem]
    intro pair hpair
    obtain ⟨hi, hj, hcross⟩ := mem_crossings_iff.mp (mem_map_of_mem hpair)
    exact hsimple _ (mem_closedEdges_iff.mpr ⟨_, hi, rfl⟩) _ (mem_closedEdges_iff.mpr ⟨_, hj, rfl⟩)
      hcross.2

end Efdi.Geometry

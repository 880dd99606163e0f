import Efdi.Geometry.Crossings
import Mathlib.Data.Finset.Sort
import Mathlib.Data.Real.Sqrt

/-!
# Simplification of rings

`simplify_ring` drops the vertices of a ring that are close to chords between others, with a tolerance
that grows until few enough are left, and then puts vertices back along the segments that cross each
other.

*Two slips.*  Of a ring that is smaller than the tolerance only two vertices are kept
(`arc_collapses`).  And the repair has eight rounds, while it goes on until the ring is simple only
without a cap (`Keeps.exists_mended`).  These are the only ways in which no simple ring with three
different vertices comes out (`simplifyRing_iff_suits`).

Distances are compared by their squares (`farthest_eps`).
-/

namespace Efdi.Geometry

open Polygon List

/-! ## Douglas and Peucker -/

/-- The vertex of an index. -/
def vertex (points : List Point) (i : Nat) : Point := points.getD i 0

/-- The square of `_perp`. -/
def perpSq (p a b : Point) : Rat :=
  let dx := b.1 - a.1
  let dy := b.2 - a.2
  if dx = dy ∧ dy = 0 then (p.1 - a.1) ^ 2 + (p.2 - a.2) ^ 2
  else (dy * p.1 - dx * p.2 + b.1 * a.2 - b.2 * a.1) ^ 2 / (dx * dx + dy * dy)

/-- `_perp`, the distance of a point from the line through two others. -/
noncomputable def perp (p a b : Point) : ℝ :=
  let dx : ℝ := b.1 - a.1
  let dy : ℝ := b.2 - a.2
  if dx = dy ∧ dy = 0 then √((p.1 - a.1) ^ 2 + (p.2 - a.2) ^ 2)
  else |dy * p.1 - dx * p.2 + b.1 * a.2 - b.2 * a.1| / √(dx * dx + dy * dy)

theorem perp_eq_sqrt (p a b : Point) : perp p a b = √(perpSq p a b : ℝ) := by
  have hsame : ((b.1 : ℝ) - a.1 = b.2 - a.2 ∧ (b.2 : ℝ) - a.2 = 0) ↔
      (b.1 - a.1 = b.2 - a.2 ∧ b.2 - a.2 = 0) := by
    norm_cast
  by_cases hpoint : b.1 - a.1 = b.2 - a.2 ∧ b.2 - a.2 = 0
  · rw [perp, if_pos (hsame.mpr hpoint), perpSq, if_pos hpoint]
    push_cast
    rfl
  · rw [perp, if_neg (mt hsame.mp hpoint), perpSq, if_neg hpoint, ← Real.sqrt_sq_eq_abs,
      ← Real.sqrt_div (sq_nonneg _)]
    push_cast
    rfl

theorem perpSq_nonneg (p a b : Point) : 0 ≤ perpSq p a b := by
  rw [perpSq]
  split
  · positivity
  · exact div_nonneg (sq_nonneg _) (add_nonneg (mul_self_nonneg _) (mul_self_nonneg _))

variable {farSq : Rat} {i k : Nat}

theorem sqrt_lt_perp_iff (h : 0 ≤ farSq) (p a b : Point) :
    √(farSq : ℝ) < perp p a b ↔ farSq < perpSq p a b := by
  rw [perp_eq_sqrt, Real.sqrt_lt_sqrt_iff (by exact_mod_cast h)]
  norm_cast

/-- The first vertex of those that are farthest from a chord, if it is farther than a bound. -/
def farthest (points : List Point) (lo hi : Nat) : List Nat → Option Nat → Rat → Option Nat
  | [], far, _ => far
  | i :: rest, far, farSq =>
    let d := perpSq (vertex points i) (vertex points lo) (vertex points hi)
    if farSq < d then farthest points lo hi rest (some i) d
    else farthest points lo hi rest far farSq

/-- The same loop over the distances themselves. -/
noncomputable def farthestByPerp (points : List Point) (lo hi : Nat) :
    List Nat → Option Nat → ℝ → Option Nat
  | [], far, _ => far
  | i :: rest, far, farD =>
    open Classical in
    let d := perp (vertex points i) (vertex points lo) (vertex points hi)
    if farD < d then farthestByPerp points lo hi rest (some i) d
    else farthestByPerp points lo hi rest far farD

theorem farthest_eq_byPerp (points : List Point) (lo hi : Nat) (rest : List Nat) (far : Option Nat)
    (h : 0 ≤ farSq) :
    farthest points lo hi rest far farSq = farthestByPerp points lo hi rest far √(farSq : ℝ) := by
  induction rest generalizing far farSq with
  | nil => rfl
  | cons i rest ih =>
    have hfar := sqrt_lt_perp_iff h (vertex points i) (vertex points lo) (vertex points hi)
    rw [farthest, farthestByPerp]
    by_cases hless : farSq < perpSq (vertex points i) (vertex points lo) (vertex points hi)
    · rw [if_pos hless, if_pos (hfar.mpr hless), perp_eq_sqrt]
      exact ih (some i) (perpSq_nonneg _ _ _)
    · rw [if_neg hless, if_neg (mt hfar.mp hless)]
      exact ih far h

/-- `range(lo + 1, hi)`. -/
def between (lo hi : Nat) : List Nat := List.range' (lo + 1) (hi - (lo + 1))

theorem mem_between {lo hi : Nat} : i ∈ between lo hi ↔ lo < i ∧ i < hi := by
  rw [between, mem_range'_1]
  omega

theorem farthest_mem {points : List Point} {lo hi : Nat} {rest : List Nat} {far : Option Nat}
    (h : farthest points lo hi rest far farSq = some i) :
    i ∈ rest ∨ far = some i := by
  induction rest generalizing far farSq with
  | nil => exact .inr h
  | cons j rest ih =>
    rw [farthest] at h
    split at h
    · rcases ih h with hmem | heq
      · exact .inl (.tail _ hmem)
      · cases heq
        exact .inl mem_cons_self
    · rcases ih h with hmem | heq
      · exact .inl (.tail _ hmem)
      · exact .inr heq

/-- A chord is split at the vertex that is farthest from it, if that is farther than the tolerance. -/
theorem farthest_eps (points : List Point) (lo hi : Nat) {eps : Rat} (h : 0 ≤ eps) :
    farthest points lo hi (between lo hi) none (eps * eps) =
      farthestByPerp points lo hi (between lo hi) none eps := by
  have hsqrt : √((eps * eps : Rat) : ℝ) = eps := by
    push_cast
    exact Real.sqrt_mul_self (by exact_mod_cast h)
  rw [farthest_eq_byPerp points lo hi _ none (mul_self_nonneg eps), hsqrt]

/-- How often the chords of a stack can still be split, and taken from it. -/
def stackSize : List (Nat × Nat) → Nat
  | [] => 0
  | (lo, hi) :: stack => max 1 (2 * (hi - lo) - 1) + stackSize stack

/-- The loop of `_douglas_peucker` over its stack of chords. -/
def split (points : List Point) (eps : Rat) (keep : Finset Nat) :
    List (Nat × Nat) → Finset Nat
  | [] => keep
  | (lo, hi) :: stack =>
    match _hfar : farthest points lo hi (between lo hi) none (eps * eps) with
    | none => split points eps keep stack
    | some far => split points eps (insert far keep) ((far, hi) :: (lo, far) :: stack)
termination_by stack => stackSize stack
decreasing_by
  · rw [stackSize]
    omega
  · have hfar := (farthest_mem _hfar).resolve_right (by simp)
    rw [mem_between] at hfar
    simp only [stackSize]
    omega

/-- `_douglas_peucker`. -/
def douglasPeucker (points : List Point) (eps : Rat) : List Nat :=
  let keep := split points eps {0, points.length - 1} [(0, points.length - 1)]
  (List.range points.length).filter fun i => decide (i ∈ keep)

/-! ## The two loops -/

/-- The tolerances that are tried: `eps = 0.0005`, and `eps *= 1.6`. -/
def tolerance : Nat → Rat
  | 0 => 1 / 2000
  | k + 1 => tolerance k * (8 / 5)

theorem tolerance_pos (k : Nat) : 0 < tolerance k := by
  induction k with
  | zero => norm_num [tolerance]
  | succ k ih =>
    rw [tolerance]
    linarith

theorem tolerance_mono {l : Nat} (h : k ≤ l) : tolerance k ≤ tolerance l := by
  induction h with
  | refl => exact le_rfl
  | step _ ih =>
    have hpos := tolerance_pos k
    rw [tolerance]
    linarith

/-- The tolerance passes 5 degrees within twenty rounds. -/
theorem lt_twenty (h : tolerance k < 5) : k < 20 := by
  by_contra hk
  have hle := (tolerance_mono (not_lt.mp hk)).trans_lt h
  norm_num [tolerance] at hle

/-- `while len(kept) > max_vertices - 1 and eps < 5`. -/
def coarsen (points : List Point) (maxVertices : Int) (k : Nat) (kept : List Nat) : List Nat :=
  if _h : maxVertices - 1 < kept.length ∧ tolerance k < 5 then
    coarsen points maxVertices (k + 1) (douglasPeucker points (tolerance k))
  else kept
termination_by 20 - k
decreasing_by
  have hk := lt_twenty _h.2
  omega

/-- The points of some indices. -/
def pick (points : List Point) (kept : List Nat) : List Point := kept.map (vertex points)

/-- The segments between kept vertices that cross another one. -/
def crossed (points : List Point) (kept : List Nat) : Finset Nat :=
  ((crossings (pick points kept)).flatMap fun pair => [pair.1, pair.2]).toFinset

/-- The vertices along a segment between kept ones, up to the last vertex for the one that closes the
ring. -/
def along (n : Nat) (kept : List Nat) (k : Nat) : Finset Nat :=
  let lo := kept.getD k 0
  let hi := kept.getD ((k + 1) % kept.length) 0
  if lo < hi then Finset.Ico lo (hi + 1) else Finset.Ico lo n

/-- A round of the repair: the vertices along each segment that crosses another are put back. -/
def putBack (points : List Point) (kept : List Nat) : List Nat :=
  (kept.toFinset ∪ (crossed points kept).biUnion (along points.length kept)).sort

/-- `for _ in range(rounds)`, up to the first round without a crossing. -/
def repair (points : List Point) : Nat → List Nat → List Nat
  | 0, kept => kept
  | rounds + 1, kept =>
    if crossed points kept = ∅ then kept else repair points rounds (putBack points kept)

/-- `ring[:-1] if ring[0] == ring[-1] else ring`. -/
def openRing (ring : List Point) : List Point :=
  if ring.head? = ring.getLast? then ring.dropLast else ring

/-- The vertices that `simplify_ring` keeps before the repair. -/
def keptVertices (points : List Point) (maxVertices : Int) : List Nat :=
  coarsen points maxVertices 0 (List.range points.length)

/-- `simplify_ring`.  A ring without points, or with a single one, has no vertex to start from. -/
def simplifyRing (ring : List Point) (maxVertices : Int) : Option (List Point) :=
  let points := openRing ring
  let kept := keptVertices points maxVertices
  if points = [] then none
  else if kept.length < points.length then
    some (close (pick points (repair points 8 kept)))
  else some (close (pick points kept))

/-! ## Kept vertices -/

/-- The indices of kept vertices are in order, and the first vertex is kept. -/
structure Keeps (n : Nat) (kept : List Nat) : Prop where
  sorted : kept.Pairwise (· < ·)
  lt : ∀ i ∈ kept, i < n
  zero_mem : 0 ∈ kept

variable {points : List Point} {kept : List Nat} {n : Nat}

theorem Keeps.nodup (h : Keeps n kept) : kept.Nodup := h.sorted.imp fun hlt => hlt.ne

theorem Keeps.sublist (h : Keeps n kept) : kept.Sublist (List.range n) :=
  sublist_of_subperm_of_pairwise
    (h.nodup.subperm fun i hi => mem_range.mpr (h.lt i hi)) h.sorted pairwise_lt_range

theorem Keeps.eq_cons (h : Keeps n kept) : ∃ rest, kept = 0 :: rest := by
  have hzero := h.zero_mem
  have hsorted := h.sorted
  cases kept with
  | nil => cases hzero
  | cons i rest =>
    rcases mem_cons.mp hzero with rfl | hmem
    · exact ⟨rest, rfl⟩
    · exact absurd ((pairwise_cons.mp hsorted).1 0 hmem) (Nat.not_lt_zero i)

theorem pick_range (points : List Point) : pick points (List.range points.length) = points := by
  refine ext_getElem (by simp [pick]) fun i h _ => ?_
  have hi : i < points.length := by simpa [pick] using h
  simp only [pick, getElem_map, getElem_range, vertex]
  exact getD_eq_getElem _ _ hi

theorem Keeps.pick_sublist (h : Keeps points.length kept) : (pick points kept).Sublist points := by
  have hsub := h.sublist.map (vertex points)
  rwa [← pick, ← pick, pick_range] at hsub

theorem Keeps.eq_range (h : Keeps n kept) (hall : ¬kept.length < n) : kept = List.range n :=
  h.sublist.eq_of_length_le (by rw [length_range]; omega)

theorem keeps_range (hn : 0 < n) : Keeps n (List.range n) where
  sorted := pairwise_lt_range
  lt := fun _ hi => mem_range.mp hi
  zero_mem := mem_range.mpr hn

theorem subset_split (points : List Point) (eps : Rat) (keep : Finset Nat)
    (stack : List (Nat × Nat)) : keep ⊆ split points eps keep stack := by
  induction keep, stack using split.induct points eps with
  | case1 keep => rw [split]
  | case2 keep lo hi stack hnone ih =>
    rw [split]
    split
    · exact ih
    · next far hfar => exact absurd (hnone.symm.trans hfar) (by simp)
  | case3 keep lo hi stack far hfar ih =>
    rw [split]
    split
    · next hnone => exact absurd (hfar.symm.trans hnone) (by simp)
    · next other hother =>
        cases hfar.symm.trans hother
        exact (Finset.subset_insert _ _).trans ih

theorem keeps_douglasPeucker (hn : 0 < points.length) (eps : Rat) :
    Keeps points.length (douglasPeucker points eps) where
  sorted := pairwise_lt_range.filter _
  lt := fun _ hi => mem_range.mp (mem_filter.mp hi).1
  zero_mem := mem_filter.mpr ⟨mem_range.mpr hn,
    decide_eq_true (subset_split _ _ _ _ (Finset.mem_insert_self 0 _))⟩

theorem Keeps.coarsen (h : Keeps points.length kept) (maxVertices : Int) (k : Nat) :
    Keeps points.length (coarsen points maxVertices k kept) := by
  induction k, kept using coarsen.induct points maxVertices with
  | case1 k kept hmore ih =>
    rw [Geometry.coarsen, dif_pos hmore]
    exact ih (keeps_douglasPeucker (Nat.zero_lt_of_lt (h.lt 0 h.zero_mem)) _)
  | case2 k kept hdone =>
    rw [Geometry.coarsen, dif_neg hdone]
    exact h

/-! ## The repair -/

theorem crossed_eq_empty_iff : crossed points kept = ∅ ↔ Simple (pick points kept) := by
  rw [crossed, toFinset_eq_empty_iff, ← crossings_eq_nil_iff]
  constructor
  · intro hnone
    rw [flatMap_eq_nil_iff] at hnone
    exact eq_nil_iff_forall_not_mem.mpr fun pair hpair => cons_ne_nil _ _ (hnone pair hpair)
  · intro hnone
    rw [hnone, flatMap_nil]

theorem mem_putBack : i ∈ putBack points kept ↔
    i ∈ kept ∨ ∃ k ∈ crossed points kept, i ∈ along points.length kept k := by
  rw [putBack, Finset.mem_sort, Finset.mem_union, mem_toFinset, Finset.mem_biUnion]

theorem Keeps.putBack (h : Keeps points.length kept) :
    Keeps points.length (putBack points kept) where
  sorted := (Finset.sortedLT_sort _).pairwise
  lt := by
    intro i hi
    rcases mem_putBack.mp hi with hi | ⟨k, -, hi⟩
    · exact h.lt i hi
    · have hnext : kept.getD ((k + 1) % kept.length) 0 < points.length := by
        by_cases hk : (k + 1) % kept.length < kept.length
        · rw [getD_eq_getElem _ _ hk]
          exact h.lt _ (getElem_mem hk)
        · rw [getD_eq_default _ _ (not_lt.mp hk)]
          exact h.lt 0 h.zero_mem
      simp only [along] at hi
      split at hi
      · rw [Finset.mem_Ico] at hi
        omega
      · exact (Finset.mem_Ico.mp hi).2
  zero_mem := mem_putBack.mpr (.inl h.zero_mem)

/-- A round of the repair, as long as there is a crossing. -/
def mend (points : List Point) (kept : List Nat) : List Nat :=
  if crossed points kept = ∅ then kept else putBack points kept

theorem repair_eq_iterate (points : List Point) (rounds : Nat) (kept : List Nat) :
    repair points rounds kept = (mend points)^[rounds] kept := by
  induction rounds generalizing kept with
  | zero => rfl
  | succ rounds ih =>
    rw [repair, Function.iterate_succ_apply]
    by_cases hdone : crossed points kept = ∅
    · have hfixed : mend points kept = kept := if_pos hdone
      rw [if_pos hdone, hfixed, Function.iterate_fixed hfixed]
    · rw [if_neg hdone, mend, if_neg hdone, ih]

theorem Keeps.mend (h : Keeps points.length kept) : Keeps points.length (mend points kept) := by
  rw [Geometry.mend]
  split
  · exact h
  · exact h.putBack

theorem Keeps.iterate (h : Keeps points.length kept) (rounds : Nat) :
    Keeps points.length ((Geometry.mend points)^[rounds] kept) := by
  induction rounds with
  | zero => exact h
  | succ rounds ih =>
    rw [Function.iterate_succ_apply']
    exact ih.mend

theorem subset_iterate (points : List Point) (kept : List Nat) (rounds : Nat) :
    kept ⊆ (mend points)^[rounds] kept := by
  induction rounds with
  | zero => exact List.Subset.refl _
  | succ rounds ih =>
    rw [Function.iterate_succ_apply', mend]
    split
    · exact ih
    · exact fun i hi => mem_putBack.mpr (.inl (ih hi))

/-- What is mended stays as it is. -/
theorem iterate_of_mended {rounds later : Nat} (hle : rounds ≤ later)
    (h : crossed points ((mend points)^[rounds] kept) = ∅) :
    (mend points)^[later] kept = (mend points)^[rounds] kept := by
  obtain ⟨more, rfl⟩ := Nat.exists_eq_add_of_le hle
  have hfixed : mend points ((mend points)^[rounds] kept) = (mend points)^[rounds] kept := if_pos h
  rw [Nat.add_comm, Function.iterate_add_apply]
  exact Function.iterate_fixed hfixed more

/-! ### Without a cap -/

theorem Keeps.getElem_lt (h : Keeps n kept) {l : Nat} (hk : k < kept.length) (hl : l < kept.length)
    (hlt : k < l) : kept[k] < kept[l] :=
  pairwise_iff_getElem.mp h.sorted k l hk hl hlt

theorem segment_pick (hk : k < kept.length) :
    segment (pick points kept) k =
      (vertex points (kept.getD k 0), vertex points (kept.getD ((k + 1) % kept.length) 0)) := by
  have hnext : (k + 1) % kept.length < kept.length := Nat.mod_lt _ (Nat.zero_lt_of_lt hk)
  have hlength : (pick points kept).length = kept.length := length_map _
  have hget : ∀ l, l < kept.length → (pick points kept).getD l 0 = vertex points (kept.getD l 0) := by
    intro l hl
    rw [getD_eq_getElem _ _ (hlength.symm ▸ hl), getD_eq_getElem _ _ hl]
    exact getElem_map _
  rw [segment, hlength, hget k hk, hget _ hnext]

/-- When all vertices along a segment are kept, it ends at the next vertex of the ring. -/
theorem Keeps.next (h : Keeps n kept) (hk : k < kept.length)
    (hall : along n kept k ⊆ kept.toFinset) :
    kept.getD ((k + 1) % kept.length) 0 = (kept.getD k 0 + 1) % n := by
  have hlo : kept.getD k 0 = kept[k] := getD_eq_getElem _ _ hk
  have hlt : kept[k] < n := h.lt _ (getElem_mem hk)
  have hnext : kept[k] + 1 ∈ along n kept k →
      ∃ l, ∃ hl : l < kept.length, kept[l] = kept[k] + 1 ∧ k < l := by
    intro hmem
    obtain ⟨l, hl, hget⟩ := mem_iff_getElem.mp (mem_toFinset.mp (hall hmem))
    refine ⟨l, hl, hget, ?_⟩
    by_contra hle
    rcases Nat.lt_or_eq_of_le (not_lt.mp hle) with hless | rfl
    · have := h.getElem_lt hl hk hless
      omega
    · omega
  rw [along, hlo] at hnext
  by_cases hlast : k + 1 < kept.length
  · have hmod : (k + 1) % kept.length = k + 1 := Nat.mod_eq_of_lt hlast
    have hhi : kept.getD (k + 1) 0 = kept[k + 1] := getD_eq_getElem _ _ hlast
    have hstep : kept[k] < kept[k + 1] := h.getElem_lt hk hlast (Nat.lt_succ_self k)
    rw [hmod, hhi, if_pos hstep] at hnext
    obtain ⟨l, hl, hget, hkl⟩ := hnext (Finset.mem_Ico.mpr ⟨by omega, by omega⟩)
    have hsame : kept[k + 1] = kept[k] + 1 := by
      rcases Nat.lt_or_eq_of_le (Nat.succ_le_of_lt hkl) with hless | rfl
      · have := h.getElem_lt hlast hl hless
        omega
      · exact hget
    have hbound : kept[k + 1] < n := h.lt _ (getElem_mem hlast)
    rw [hmod, hhi, hlo, hsame, Nat.mod_eq_of_lt (by omega)]
  · -- the segment that closes the ring goes back to the first vertex
    obtain ⟨rest, hrest⟩ := h.eq_cons
    have hmod : (k + 1) % kept.length = 0 := by
      have hend : k + 1 = kept.length := by omega
      rw [hend, Nat.mod_self]
    have hzero : kept.getD 0 0 = 0 := by rw [hrest]; rfl
    rw [hmod, hzero, if_neg (Nat.not_lt_zero _)] at hnext
    rw [hmod, hzero, hlo]
    have hn : kept[k] + 1 = n := by
      by_contra hne
      obtain ⟨l, hl, -, hkl⟩ := hnext (Finset.mem_Ico.mpr ⟨by omega, by omega⟩)
      omega
    rw [hn, Nat.mod_self]

/-- A segment with all vertices along it kept is an edge of the ring. -/
theorem Keeps.original (h : Keeps points.length kept) (hk : k < kept.length)
    (hall : along points.length kept k ⊆ kept.toFinset) :
    segment (pick points kept) k ∈ closedEdges points := by
  have hmem : kept.getD k 0 ∈ kept := by
    rw [getD_eq_getElem _ _ hk]
    exact getElem_mem hk
  rw [segment_pick hk, h.next hk hall]
  exact mem_closedEdges_iff.mpr ⟨_, h.lt _ hmem, rfl⟩

/-- Kept vertices with a crossing have two segments that cross. -/
theorem exists_crossing (h : crossed points kept ≠ ∅) :
    ∃ k ∈ crossed points kept, ∃ l ∈ crossed points kept, k < kept.length ∧ l < kept.length ∧
      ProperCross (segment (pick points kept) k) (segment (pick points kept) l) := by
  rw [ne_eq, crossed, toFinset_eq_empty_iff, flatMap_eq_nil_iff] at h
  push Not at h
  obtain ⟨pair, hpair, -⟩ := h
  obtain ⟨hk, hl, hcross⟩ := mem_crossings_iff.mp (mem_map_of_mem hpair)
  have hlength : (pick points kept).length = kept.length := length_map _
  rw [hlength] at hk hl
  refine ⟨pair.1, ?_, pair.2, ?_, hk, hl, hcross.2⟩
  · exact mem_toFinset.mpr (mem_flatMap.mpr ⟨pair, hpair, by simp⟩)
  · exact mem_toFinset.mpr (mem_flatMap.mpr ⟨pair, hpair, by simp⟩)

/-- Each round of the repair puts a vertex back, as long as the kept ones cross. -/
theorem Keeps.grows (h : Keeps points.length kept) (hsimple : Simple points)
    (hcrossed : crossed points kept ≠ ∅) : kept.length < (Geometry.putBack points kept).length := by
  obtain ⟨k, hk, l, hl, hklength, hllength, hcross⟩ := exists_crossing hcrossed
  rw [Geometry.putBack, Finset.length_sort, ← toFinset_card_of_nodup h.nodup]
  refine Finset.card_lt_card (Finset.ssubset_iff_subset_ne.mpr ⟨Finset.subset_union_left, ?_⟩)
  intro heq
  -- otherwise both segments are edges of the ring, which do not cross
  have hall : ∀ m ∈ crossed points kept, along points.length kept m ⊆ kept.toFinset := by
    intro m hm i hi
    rw [heq]
    exact Finset.mem_union_right _ (Finset.mem_biUnion.mpr ⟨m, hm, hi⟩)
  exact hsimple _ (h.original hklength (hall k hk)) _ (h.original hllength (hall l hl)) hcross

/-- Vertices are put back until the ring is simple. -/
theorem Keeps.exists_mended (h : Keeps points.length kept) (hsimple : Simple points) :
    ∃ rounds, crossed points ((Geometry.mend points)^[rounds] kept) = ∅ := by
  induction hmissing : points.length - kept.length using Nat.strong_induction_on generalizing kept with
  | _ missing ih =>
    by_cases hdone : crossed points kept = ∅
    · exact ⟨0, hdone⟩
    · have hgrows := h.grows hsimple hdone
      have hbound := h.putBack.sublist.length_le
      rw [length_range] at hbound
      obtain ⟨rounds, hrounds⟩ := ih _ (by omega) h.putBack rfl
      refine ⟨rounds + 1, ?_⟩
      rw [Function.iterate_succ_apply, Geometry.mend, if_neg hdone]
      exact hrounds

/-- The rounds that the repair takes without a cap. -/
noncomputable def roundsNeeded (points : List Point) (kept : List Nat) : Nat :=
  sInf {rounds | crossed points ((mend points)^[rounds] kept) = ∅}

theorem Keeps.mended_iff (h : Keeps points.length kept) (hsimple : Simple points) (rounds : Nat) :
    crossed points (repair points rounds kept) = ∅ ↔ roundsNeeded points kept ≤ rounds := by
  rw [repair_eq_iterate]
  constructor
  · exact fun hdone => Nat.sInf_le hdone
  · intro hle
    have hneeded : crossed points ((Geometry.mend points)^[roundsNeeded points kept] kept) = ∅ :=
      Nat.sInf_mem (h.exists_mended hsimple)
    rw [iterate_of_mended hle hneeded]
    exact hneeded

/-! ## Distinct vertices -/

theorem pick_toFinset_subset {kept' : List Nat} (h : kept ⊆ kept') :
    (pick points kept).toFinset ⊆ (pick points kept').toFinset :=
  fun _ hp => mem_toFinset.mpr (map_subset _ h (mem_toFinset.mp hp))

theorem segment_mem (hk : k < points.length) :
    (segment points k).1 ∈ points ∧ (segment points k).2 ∈ points := by
  have hnext : (k + 1) % points.length < points.length := Nat.mod_lt _ (Nat.zero_lt_of_lt hk)
  rw [segment, getD_eq_getElem _ _ hk, getD_eq_getElem _ _ hnext]
  exact ⟨getElem_mem hk, getElem_mem hnext⟩

/-- Segments that cross have three different ends at least. -/
theorem three_of_crossed (h : crossed points kept ≠ ∅) :
    3 ≤ (pick points kept).toFinset.card := by
  obtain ⟨k, -, l, -, hk, hl, hcross⟩ := exists_crossing h
  have hlength : (pick points kept).length = kept.length := length_map _
  obtain ⟨he, -⟩ := segment_mem (hlength.symm ▸ hk : k < (pick points kept).length)
  obtain ⟨hf1, hf2⟩ := segment_mem (hlength.symm ▸ hl : l < (pick points kept).length)
  obtain ⟨hne1, hne2, -, -⟩ := hcross.disjoint
  have hends := hcross.ends_ne
  have hcard : ({(segment (pick points kept) k).1, (segment (pick points kept) l).1,
      (segment (pick points kept) l).2} : Finset Point).card = 3 :=
    Finset.card_eq_three.mpr ⟨_, _, _, hne1, hne2, hends, rfl⟩
  rw [← hcard]
  refine Finset.card_le_card fun p hp => mem_toFinset.mpr ?_
  simp only [Finset.mem_insert, Finset.mem_singleton] at hp
  rcases hp with rfl | rfl | rfl
  · exact he
  · exact hf1
  · exact hf2

/-- The repair changes nothing about whether three different vertices are kept. -/
theorem three_repair_iff (points : List Point) (kept : List Nat) (rounds : Nat) :
    3 ≤ (pick points (repair points rounds kept)).toFinset.card ↔
      3 ≤ (pick points kept).toFinset.card := by
  rw [repair_eq_iterate]
  by_cases hdone : crossed points kept = ∅
  · have hfixed : mend points kept = kept := if_pos hdone
    rw [Function.iterate_fixed hfixed]
  · have hthree := three_of_crossed hdone
    exact iff_of_true (hthree.trans (Finset.card_le_card
      (pick_toFinset_subset (subset_iterate points kept rounds)))) hthree

/-! ## Simplified rings -/

/-- A closed ring of the input's vertices that starts at the first of them, has three different ones
and does not cross itself when the input does not. -/
structure Simplifies (ring out : List Point) : Prop where
  closed : Closed out
  sublist : out.dropLast.Sublist ring
  first : out.head? = ring.head?
  distinct : 3 ≤ out.toFinset.card
  simple : Simple (openRing ring) → Uncrossed (edges out)

/-- Where Douglas and Peucker stop, three different vertices are kept, and a ring that does not cross
itself is repaired in eight rounds. -/
def Suits (ring : List Point) (maxVertices : Int) : Prop :=
  let points := openRing ring
  let kept := keptVertices points maxVertices
  3 ≤ (pick points kept).toFinset.card ∧ (Simple points → roundsNeeded points kept ≤ 8)

theorem close_concat {ps : List Point} (h : ps ≠ []) :
    Closed (close ps) ∧ (close ps).dropLast = ps ∧ (close ps).head? = ps.head? ∧
      (close ps).toFinset = ps.toFinset := by
  cases ps with
  | nil => exact absurd rfl h
  | cons p ps =>
    refine ⟨⟨cons_ne_nil _ _, ?_⟩, dropLast_concat, rfl, ?_⟩
    · rw [close, getLast?_append]
      rfl
    · ext q
      simp [close]

theorem openRing_sublist (ring : List Point) : (openRing ring).Sublist ring := by
  rw [openRing]
  split
  · exact dropLast_sublist ring
  · exact List.Sublist.refl ring

/-- A ring with three different vertices keeps them when it is opened. -/
theorem openRing_of_three {ring : List Point} (h : 3 ≤ ring.toFinset.card) :
    openRing ring ≠ [] ∧ (openRing ring).head? = ring.head? := by
  rw [openRing]
  split
  · cases ring with
    | nil => exact absurd h (by simp)
    | cons p rest =>
      cases rest with
      | nil => exact absurd h (by simp)
      | cons q rest => exact ⟨by simp, rfl⟩
  · refine ⟨?_, rfl⟩
    rintro rfl
    exact absurd h (by simp)

/-- The kept vertices after the repair, if there is one. -/
theorem simplifyRing_eq (ring : List Point) (maxVertices : Int) (h : openRing ring ≠ [])
    (hkeeps : Keeps (openRing ring).length (keptVertices (openRing ring) maxVertices)) :
    simplifyRing ring maxVertices = some (close (pick (openRing ring)
      (repair (openRing ring) 8 (keptVertices (openRing ring) maxVertices)))) ∨
    (keptVertices (openRing ring) maxVertices = List.range (openRing ring).length ∧
      simplifyRing ring maxVertices = some (close (pick (openRing ring)
        (keptVertices (openRing ring) maxVertices)))) := by
  rw [simplifyRing, if_neg h]
  by_cases hfewer : (keptVertices (openRing ring) maxVertices).length < (openRing ring).length
  · exact .inl (if_pos hfewer)
  · exact .inr ⟨hkeeps.eq_range hfewer, if_neg hfewer⟩

/-- What comes out for some kept vertices simplifies the ring when there are three different ones and
they do not cross. -/
theorem Keeps.simplifies_iff {ring : List Point} (hthree : 3 ≤ ring.toFinset.card)
    (h : Keeps (openRing ring).length kept) :
    Simplifies ring (close (pick (openRing ring) kept)) ↔
      3 ≤ (pick (openRing ring) kept).toFinset.card ∧
        (Simple (openRing ring) → crossed (openRing ring) kept = ∅) := by
  obtain ⟨rest, hrest⟩ := h.eq_cons
  have hne : pick (openRing ring) kept ≠ [] := by
    rw [hrest]
    exact cons_ne_nil _ _
  obtain ⟨hclosed, hdrop, hhead, hset⟩ := close_concat hne
  have hopen := openRing_of_three hthree
  have hfirst : (pick (openRing ring) kept).head? = ring.head? := by
    rw [← hopen.2, hrest]
    cases hpoints : openRing ring with
    | nil => exact absurd hpoints hopen.1
    | cons p ps => rfl
  rw [crossed_eq_empty_iff]
  constructor
  · intro hout
    refine ⟨hset ▸ hout.distinct, fun hsimple => ?_⟩
    rw [Simple, ← edges_close]
    exact hout.simple hsimple
  · rintro ⟨hdistinct, hsimple⟩
    refine ⟨hclosed, ?_, hhead.trans hfirst, hset.symm ▸ hdistinct, fun hring => ?_⟩
    · rw [hdrop]
      exact h.pick_sublist.trans (openRing_sublist ring)
    · rw [edges_close]
      exact hsimple hring

/-- A ring with three different vertices is simplified to one exactly when three different vertices
are left where Douglas and Peucker stop, and a ring that does not cross itself needs no more than eight
rounds of repair. -/
theorem simplifyRing_iff_suits (ring : List Point) (maxVertices : Int)
    (hthree : 3 ≤ ring.toFinset.card) :
    (∃ out, simplifyRing ring maxVertices = some out ∧ Simplifies ring out) ↔
      Suits ring maxVertices := by
  have hopen := (openRing_of_three hthree).1
  have hpos : 0 < (openRing ring).length := List.length_pos_iff.mpr hopen
  have hkeeps : Keeps (openRing ring).length (keptVertices (openRing ring) maxVertices) :=
    (keeps_range hpos).coarsen maxVertices 0
  have hrepaired : Keeps (openRing ring).length
      (repair (openRing ring) 8 (keptVertices (openRing ring) maxVertices)) := by
    rw [repair_eq_iterate]
    exact hkeeps.iterate 8
  rw [Suits]
  rcases simplifyRing_eq ring maxVertices hopen hkeeps with hout | ⟨hall, hout⟩
  · simp only [hout, Option.some.injEq, exists_eq_left']
    rw [hrepaired.simplifies_iff hthree, three_repair_iff]
    exact and_congr_right fun _ => forall_congr' fun hsimple => hkeeps.mended_iff hsimple 8
  · simp only [hout, Option.some.injEq, exists_eq_left']
    rw [hkeeps.simplifies_iff hthree]
    refine and_congr_right fun _ => forall_congr' fun hsimple => ?_
    have hdone : crossed (openRing ring) (keptVertices (openRing ring) maxVertices) = ∅ := by
      rw [crossed_eq_empty_iff, hall, pick_range]
      exact hsimple
    exact iff_of_true hdone ((Nat.sInf_le hdone).trans (Nat.zero_le 8))

theorem square_simplified : ∃ out, simplifyRing square 150 = some out ∧ Simplifies square out :=
  (simplifyRing_iff_suits square 150 (by decide +kernel)).mpr ⟨by decide +kernel, fun _ =>
    (Nat.sInf_le (show crossed (openRing square) (keptVertices (openRing square) 150) = ∅ by
      decide +kernel)).trans (Nat.zero_le 8)⟩

/-- A hundred and fifty vertices on a small arc. -/
def arc : List Point :=
  (List.range 150).map fun i => ((i : Rat) / 100000000, (i : Rat) * (149 - i) / 100000000)

/-- Only the ends of the arc are kept. -/
theorem arc_collapses : 3 ≤ arc.toFinset.card ∧
    ¬∃ out, simplifyRing arc 150 = some out ∧ Simplifies arc out := by
  have hout : simplifyRing arc 150 = some [(0, 0), (149 / 100000000, 0), (0, 0)] := by
    decide +kernel
  constructor
  · decide +kernel
  · rintro ⟨out, hsome, hsimplifies⟩
    rw [hout] at hsome
    cases hsome
    exact absurd hsimplifies.distinct (by decide +kernel)

end Efdi.Geometry

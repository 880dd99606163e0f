import Efdi.Base.Polygons
import Mathlib.Algebra.Order.Field.Basic
import Mathlib.Tactic.FieldSimp

/-!
# Points in regions

A point is inside a ring when a ray from it to the east crosses the ring an odd number of times.
`contains` asks that only of the rings whose box has the point.

A ring whose box does not have the point does not have it inside either: its edges are all above,
below or to the west of the point, or they are all to the east, where the ray crosses each edge that
changes sides and a closed ring changes sides an even number of times (`inBox_of_inRing`).
-/

namespace Efdi.Geometry

open Polygon List

/-- A longitude and a latitude. -/
abbrev Point := Rat × Rat

/-- What `contains` reads of a region. -/
structure Region where
  rings : List (List Point)

/-! ## The functions -/

/-- The edge is crossed by the ray to the east of a point, as `_in_ring` asks it. -/
def crossesRay (lon lat : Rat) (e : Point × Point) : Bool :=
  decide (lat < e.1.2) != decide (lat < e.2.2) &&
    decide (lon < (e.2.1 - e.1.1) * (lat - e.1.2) / (e.2.2 - e.1.2) + e.1.1)

/-- `_in_ring`. -/
def inRing (ring : List Point) (lon lat : Rat) : Bool :=
  toggles (crossesRay lon lat) (edges ring)

/-- The box around a ring has the point.  There is none around an empty ring, where `min` raises. -/
def inBox (ring : List Point) (lon lat : Rat) : Option Bool := do
  let west ← (ring.map Prod.fst).min?
  let east ← (ring.map Prod.fst).max?
  let south ← (ring.map Prod.snd).min?
  let north ← (ring.map Prod.snd).max?
  pure (decide (west ≤ lon ∧ lon ≤ east ∧ south ≤ lat ∧ lat ≤ north))

/-- `any` over the rings whose box has the point. -/
def containsAny (lon lat : Rat) : List (List Point) → Option Bool
  | [] => some false
  | ring :: rings => do
      if ← inBox ring lon lat then
        if inRing ring lon lat then some true else containsAny lon lat rings
      else containsAny lon lat rings

/-- `contains`. -/
def contains (region : Region) (lon lat : Rat) : Option Bool := containsAny lon lat region.rings

variable {lon lat : Rat} {ring : List Point} {e : Point × Point}

/-! ## The box -/

theorem min?_le_iff {as : List Rat} {least bound : Rat} (h : as.min? = some least) :
    least ≤ bound ↔ ∃ a ∈ as, a ≤ bound := by
  obtain ⟨hmem, hleast⟩ := min?_eq_some_iff.mp h
  exact ⟨fun hle => ⟨least, hmem, hle⟩, fun ⟨a, ha, hle⟩ => (hleast a ha).trans hle⟩

theorem le_max?_iff {as : List Rat} {greatest bound : Rat} (h : as.max? = some greatest) :
    bound ≤ greatest ↔ ∃ a ∈ as, bound ≤ a := by
  obtain ⟨hmem, hgreatest⟩ := max?_eq_some_iff.mp h
  exact ⟨fun hle => ⟨greatest, hmem, hle⟩, fun ⟨a, ha, hle⟩ => hle.trans (hgreatest a ha)⟩

theorem inBox_eq_some {inside : Bool} (h : inBox ring lon lat = some inside) :
    inside = true ↔ (∃ p ∈ ring, p.1 ≤ lon) ∧ (∃ p ∈ ring, lon ≤ p.1) ∧
      (∃ p ∈ ring, p.2 ≤ lat) ∧ ∃ p ∈ ring, lat ≤ p.2 := by
  simp only [inBox, Option.bind_eq_bind, Option.bind_eq_some_iff, Option.pure_def,
    Option.some.injEq] at h
  obtain ⟨west, hwest, east, heast, south, hsouth, north, hnorth, rfl⟩ := h
  rw [decide_eq_true_eq, min?_le_iff hwest, le_max?_iff heast, min?_le_iff hsouth,
    le_max?_iff hnorth]
  simp only [mem_map, exists_exists_and_eq_and]

theorem inBox_isSome (h : ring ≠ []) (lon lat : Rat) : ∃ inside, inBox ring lon lat = some inside := by
  cases ring with
  | nil => exact absurd rfl h
  | cons first rest => exact ⟨_, rfl⟩

/-! ## Outside the box -/

theorem crossesRay_iff : crossesRay lon lat e = true ↔
    decide (lat < e.1.2) ≠ decide (lat < e.2.2) ∧
      lon < (e.2.1 - e.1.1) * (lat - e.1.2) / (e.2.2 - e.1.2) + e.1.1 := by
  rw [crossesRay, Bool.and_eq_true, bne_iff_ne, decide_eq_true_eq]

theorem mem_of_mem_edges (he : e ∈ edges ring) : e.1 ∈ ring ∧ e.2 ∈ ring :=
  ⟨(of_mem_zip he).1, mem_of_mem_tail (of_mem_zip he).2⟩

/-- An edge that changes sides has an end on each of them. -/
theorem changes_between (h : decide (lat < e.1.2) ≠ decide (lat < e.2.2)) :
    (lat < e.1.2 ∧ e.2.2 ≤ lat) ∨ (e.1.2 ≤ lat ∧ lat < e.2.2) := by
  rw [ne_eq, decide_eq_decide] at h
  by_cases hfirst : lat < e.1.2
  · exact .inl ⟨hfirst, not_lt.mp fun hsecond => h (iff_of_true hfirst hsecond)⟩
  · refine .inr ⟨not_lt.mp hfirst, ?_⟩
    by_contra hsecond
    exact h (iff_of_false hfirst hsecond)

/-- The ray meets an edge that changes sides between its ends. -/
theorem meets_between (h : decide (lat < e.1.2) ≠ decide (lat < e.2.2)) :
    min e.1.1 e.2.1 ≤ (e.2.1 - e.1.1) * (lat - e.1.2) / (e.2.2 - e.1.2) + e.1.1 ∧
      (e.2.1 - e.1.1) * (lat - e.1.2) / (e.2.2 - e.1.2) + e.1.1 ≤ max e.1.1 e.2.1 := by
  have hbetween := changes_between h
  obtain ⟨⟨x1, y1⟩, ⟨x2, y2⟩⟩ := e
  show min x1 x2 ≤ (x2 - x1) * (lat - y1) / (y2 - y1) + x1 ∧
    (x2 - x1) * (lat - y1) / (y2 - y1) + x1 ≤ max x1 x2
  -- how far along the edge the ray meets it
  have hpart : 0 ≤ (lat - y1) / (y2 - y1) ∧ (lat - y1) / (y2 - y1) ≤ 1 := by
    rcases hbetween with ⟨hfirst, hsecond⟩ | ⟨hfirst, hsecond⟩
    · rw [← neg_div_neg_eq, neg_sub, neg_sub]
      exact ⟨div_nonneg (sub_nonneg.mpr hfirst.le) (sub_nonneg.mpr (hsecond.trans hfirst.le)),
        (div_le_one (sub_pos.mpr (hsecond.trans_lt hfirst))).mpr (sub_le_sub_left hsecond y1)⟩
    · exact ⟨div_nonneg (sub_nonneg.mpr hfirst) (sub_nonneg.mpr (hfirst.trans hsecond.le)),
        (div_le_one (sub_pos.mpr (hfirst.trans_lt hsecond))).mpr (sub_le_sub_right hsecond.le y1)⟩
  rw [mul_div_assoc]
  obtain ⟨hlow, hhigh⟩ := hpart
  rcases le_total x1 x2 with hle | hle
  · rw [min_eq_left hle, max_eq_right hle]
    have h1 := mul_nonneg (sub_nonneg.mpr hle) hlow
    have h2 := mul_le_of_le_one_right (sub_nonneg.mpr hle) hhigh
    exact ⟨by linarith, by linarith⟩
  · rw [min_eq_right hle, max_eq_left hle]
    have h1 := mul_nonneg (sub_nonneg.mpr hle) hlow
    have h2 := mul_le_of_le_one_right (sub_nonneg.mpr hle) hhigh
    exact ⟨by linarith, by linarith⟩

/-- A point outside the box of a closed ring is not inside the ring. -/
theorem inRing_of_not_inBox (hclosed : Closed ring) (h : inBox ring lon lat = some false) :
    inRing ring lon lat = false := by
  have houtside : ¬((∃ p ∈ ring, p.1 ≤ lon) ∧ (∃ p ∈ ring, lon ≤ p.1) ∧
      (∃ p ∈ ring, p.2 ≤ lat) ∧ ∃ p ∈ ring, lat ≤ p.2) :=
    fun hbox => Bool.false_ne_true ((inBox_eq_some h).mpr hbox)
  rw [← Bool.not_eq_true, inRing, toggles_iff_odd, Nat.not_odd_iff_even]
  by_cases hwest : ∃ p ∈ ring, p.1 ≤ lon
  · -- no edge is crossed
    have hnone : (edges ring).countP (crossesRay lon lat) = 0 := by
      rw [countP_eq_zero]
      intro e he hcross
      obtain ⟨hfirst, hsecond⟩ := mem_of_mem_edges he
      obtain ⟨hchanges, hleft⟩ := crossesRay_iff.mp hcross
      apply houtside
      refine ⟨hwest, ?_, ?_⟩
      · rcases le_max_iff.mp (hleft.le.trans (meets_between hchanges).2) with hle | hle
        · exact ⟨e.1, hfirst, hle⟩
        · exact ⟨e.2, hsecond, hle⟩
      · rcases changes_between hchanges with ⟨habove, hbelow⟩ | ⟨hbelow, habove⟩
        · exact ⟨⟨e.2, hsecond, hbelow⟩, ⟨e.1, hfirst, habove.le⟩⟩
        · exact ⟨⟨e.1, hfirst, hbelow⟩, ⟨e.2, hsecond, habove.le⟩⟩
    rw [hnone]
    exact Even.zero
  · -- every edge that changes sides is crossed
    have hall : (edges ring).countP (crossesRay lon lat) =
        (edges ring).countP fun e => decide (lat < e.1.2) != decide (lat < e.2.2) := by
      refine countP_congr fun e he => ?_
      obtain ⟨hfirst, hsecond⟩ := mem_of_mem_edges he
      rw [crossesRay_iff, bne_iff_ne, and_iff_left_iff_imp]
      intro hchanges
      refine lt_of_lt_of_le (lt_min ?_ ?_) (meets_between hchanges).1
      · exact not_le.mp fun hle => hwest ⟨e.1, hfirst, hle⟩
      · exact not_le.mp fun hle => hwest ⟨e.2, hsecond, hle⟩
    rw [hall]
    exact even_changes (fun p : Point => decide (lat < p.2)) hclosed

/-! ## The ring told differently -/

theorem crossesRay_swap (lon lat : Rat) (e : Point × Point) :
    crossesRay lon lat e.swap = crossesRay lon lat e := by
  rw [Bool.eq_iff_iff, crossesRay_iff, crossesRay_iff, Prod.fst_swap, Prod.snd_swap, ne_comm]
  refine and_congr_right fun hchanges => ?_
  have hne : e.1.2 ≠ e.2.2 := fun heq => hchanges (by rw [heq])
  have hmeets : (e.1.1 - e.2.1) * (lat - e.2.2) / (e.1.2 - e.2.2) + e.2.1 =
      (e.2.1 - e.1.1) * (lat - e.1.2) / (e.2.2 - e.1.2) + e.1.1 := by
    have h1 := sub_ne_zero.mpr hne
    have h2 := sub_ne_zero.mpr hne.symm
    field_simp
    ring
  rw [hmeets]

/-- Another starting vertex changes nothing. -/
theorem inRing_rotate (points : List Point) (k : Nat) (lon lat : Rat) :
    inRing (close (points.rotate k)) lon lat = inRing (close points) lon lat := by
  rw [inRing, inRing, edges_close, edges_close, closedEdges_rotate]
  exact toggles_congr ((rotate_perm _ k).countP_eq _)

/-- The other direction changes nothing. -/
theorem inRing_reverse (ring : List Point) (lon lat : Rat) :
    inRing ring.reverse lon lat = inRing ring lon lat := by
  rw [inRing, inRing, edges_reverse]
  refine toggles_congr ?_
  rw [countP_reverse, countP_map]
  exact countP_congr fun e _ => by rw [Function.comp, crossesRay_swap]

theorem containsAny_eq_any {rings : List (List Point)} (h : ∀ ring ∈ rings, Closed ring) :
    containsAny lon lat rings = some (rings.any fun ring => inRing ring lon lat) := by
  induction rings with
  | nil => rfl
  | cons ring rings ih =>
    have hclosed := h ring mem_cons_self
    have hrest := ih fun other hother => h other (.tail _ hother)
    obtain ⟨inside, hbox⟩ := inBox_isSome hclosed.1 lon lat
    rw [containsAny, hbox, any_cons, Option.bind_eq_bind, Option.bind_some]
    cases inside with
    | true =>
      cases hring : inRing ring lon lat with
      | true => rfl
      | false => exact hrest
    | false =>
      rw [inRing_of_not_inBox hclosed hbox]
      exact hrest

/-- A point is found in the regions whose rings have it inside, and a ring has the same points inside
from every starting vertex and in both directions. -/
theorem contains_eq_any (region : Region) (hclosed : ∀ ring ∈ region.rings, Closed ring)
    (lon lat : Rat) :
    contains region lon lat = some (region.rings.any fun ring => inRing ring lon lat) ∧
      ∀ ring, Closed ring →
        (∀ k, inRing (close (ring.dropLast.rotate k)) lon lat = inRing ring lon lat) ∧
          inRing ring.reverse lon lat = inRing ring lon lat := by
  refine ⟨containsAny_eq_any hclosed, fun ring hring => ⟨fun k => ?_, inRing_reverse ring lon lat⟩⟩
  rw [inRing_rotate]
  by_cases hlength : 1 < ring.length
  · rw [← hring.eq_close hlength]
  · -- a ring of one point has no edges
    obtain ⟨p, rfl⟩ : ∃ p, ring = [p] := by
      have hpos := List.length_pos_iff.mpr hring.1
      exact List.length_eq_one_iff.mp (by omega)
    rfl

/-- A square. -/
def square : List Point := [(0, 0), (2, 0), (2, 2), (0, 2), (0, 0)]

theorem square_contains : contains ⟨[square]⟩ (-1) 1 =
    some ([square].any fun ring => inRing ring (-1) 1) :=
  (contains_eq_any ⟨[square]⟩ (fun ring hring => by
    rw [List.mem_singleton.mp hring]
    exact ⟨List.cons_ne_nil _ _, rfl⟩) (-1) 1).1

end Efdi.Geometry

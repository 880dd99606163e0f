import Mathlib.Algebra.Order.Floor.Ring
import Mathlib.Tactic.Positivity

/-!
# Cells by truncation

A number is put into the cell that is named by its whole part, cut off towards zero.  Numbers that
are at most one apart are in one cell or in neighbouring ones (`neighbours_of_near`).

The cell of zero is twice as wide as the others, so numbers that are more than two apart may also be
neighbours.  They are exactly those around zero (`neighbours_iff_nearZero`).
-/

namespace Cells

variable {K : Type*} [Field K] [LinearOrder K]

/-- The numbers are less than two away from zero, and one of them less than one. -/
def NearZero (a b : K) : Prop := (|a| < 2 ∧ |b| < 2) ∧ (|a| < 1 ∨ |b| < 1)

theorem NearZero.symm {a b : K} (h : NearZero a b) : NearZero b a := ⟨h.1.symm, h.2.symm⟩

variable [FloorRing K]

/-- The whole part of a number, cut off towards zero. -/
def trunc (x : K) : ℤ := if 0 ≤ x then ⌊x⌋ else ⌈x⌉

/-- The numbers are in one cell or in neighbouring ones. -/
def Neighbours (a b : K) : Prop := |trunc a - trunc b| ≤ 1

instance (a b : K) : Decidable (Neighbours a b) := inferInstanceAs (Decidable (_ ≤ _))

theorem Neighbours.symm {a b : K} (h : Neighbours a b) : Neighbours b a := by
  rwa [Neighbours, abs_sub_comm]

theorem trunc_of_nonneg {x : K} (h : 0 ≤ x) :
    0 ≤ trunc x ∧ (trunc x : K) ≤ x ∧ x < trunc x + 1 := by
  rw [trunc, if_pos h]
  exact ⟨Int.floor_nonneg.mpr h, Int.floor_le x, Int.lt_floor_add_one x⟩

theorem trunc_mono {a b : K} (h : a ≤ b) : trunc a ≤ trunc b := by
  rw [trunc, trunc]
  split
  next ha =>
    rw [if_pos (ha.trans h)]
    exact Int.floor_le_floor h
  next ha =>
    split
    next hb => exact (Int.ceil_nonpos.mpr (not_le.mp ha).le).trans (Int.floor_nonneg.mpr hb)
    next _ => exact Int.ceil_le_ceil h

variable [IsStrictOrderedRing K]

theorem trunc_of_neg {x : K} (h : x < 0) :
    trunc x ≤ 0 ∧ x ≤ trunc x ∧ (trunc x : K) < x + 1 := by
  rw [trunc, if_neg (not_le.mpr h)]
  exact ⟨Int.ceil_nonpos.mpr h.le, Int.le_ceil x, Int.ceil_lt_add_one x⟩

theorem trunc_add_one_le (a : K) : trunc (a + 1) ≤ trunc a + 1 := by
  rcases le_or_gt 0 a with ha | ha
  · rw [trunc, trunc, if_pos ha, if_pos (by linarith), Int.floor_add_one]
  · rcases le_or_gt 0 (a + 1) with hb | hb
    · have hlow := trunc_of_nonneg hb
      have hhigh := trunc_of_neg ha
      have hcast : (trunc (a + 1) : K) < (trunc a : K) + 2 := by linarith
      have hint : trunc (a + 1) < trunc a + 2 := by exact_mod_cast hcast
      omega
    · rw [trunc, trunc, if_neg (not_le.mpr hb), if_neg (not_le.mpr ha), Int.ceil_add_one]

/-- Numbers that are at most one apart are neighbours. -/
theorem neighbours_of_near {a b : K} (h : |a - b| ≤ 1) : Neighbours a b := by
  obtain ⟨hba, hab⟩ := abs_le.mp h
  have hleft := (trunc_mono (show a ≤ b + 1 by linarith)).trans (trunc_add_one_le b)
  have hright := (trunc_mono (show b ≤ a + 1 by linarith)).trans (trunc_add_one_le a)
  rw [Neighbours, abs_le]
  omega

theorem abs_trunc_le {a : K} {n : ℤ} (h : |a| < n + 1) : |trunc a| ≤ n := by
  obtain ⟨hlow, hhigh⟩ := abs_lt.mp h
  rw [abs_le]
  rcases le_or_gt 0 a with ha | ha
  · obtain ⟨hnonneg, hle, -⟩ := trunc_of_nonneg ha
    have hcast : (trunc a : K) < (n : K) + 1 := hle.trans_lt hhigh
    have hint : trunc a < n + 1 := by exact_mod_cast hcast
    omega
  · obtain ⟨hnonpos, hle, -⟩ := trunc_of_neg ha
    have hcast : -((n : K) + 1) < (trunc a : K) := hlow.trans_le hle
    have hint : -(n + 1) < trunc a := by exact_mod_cast hcast
    omega

/-- Neighbours that are more than two apart stand on both sides of zero. -/
theorem nearZero_of_neighbours {a b : K} (ha : 0 ≤ a) (h : 2 < |a - b|) (hcells : Neighbours a b) :
    NearZero a b := by
  obtain ⟨hnonneg, hle, hlt⟩ := trunc_of_nonneg ha
  obtain ⟨hlow, hhigh⟩ := abs_le.mp hcells
  rcases le_or_gt 0 b with hb | hb
  · obtain ⟨-, hle', hlt'⟩ := trunc_of_nonneg hb
    have hlow' : (-1 : K) ≤ (trunc a : K) - trunc b := by exact_mod_cast hlow
    have hhigh' : (trunc a : K) - trunc b ≤ 1 := by exact_mod_cast hhigh
    have hsmall : |a - b| < 2 := abs_lt.mpr ⟨by linarith, by linarith⟩
    exact absurd h (not_lt.mpr hsmall.le)
  · obtain ⟨hnonpos, hle', hlt'⟩ := trunc_of_neg hb
    rw [NearZero, abs_of_nonneg ha, abs_of_neg hb]
    have hcases : trunc a = 0 ∧ trunc b = 0 ∨ trunc a = 1 ∧ trunc b = 0 ∨
        trunc a = 0 ∧ trunc b = -1 := by omega
    rcases hcases with ⟨hta, htb⟩ | ⟨hta, htb⟩ | ⟨hta, htb⟩
    · rw [hta, Int.cast_zero] at hlt
      rw [htb, Int.cast_zero] at hlt'
      exact ⟨⟨by linarith, by linarith⟩, .inl (by linarith)⟩
    · rw [hta, Int.cast_one] at hlt
      rw [htb, Int.cast_zero] at hlt'
      exact ⟨⟨by linarith, by linarith⟩, .inr (by linarith)⟩
    · rw [hta, Int.cast_zero] at hlt
      rw [htb, Int.cast_neg, Int.cast_one] at hlt'
      exact ⟨⟨by linarith, by linarith⟩, .inl (by linarith)⟩

/-- Numbers that are more than two apart are neighbours when they stand around zero. -/
theorem neighbours_iff_nearZero {a b : K} (h : 2 < |a - b|) : Neighbours a b ↔ NearZero a b := by
  constructor
  · intro hcells
    rcases le_or_gt 0 a with ha | ha
    · exact nearZero_of_neighbours ha h hcells
    · rcases le_or_gt 0 b with hb | hb
      · rw [abs_sub_comm] at h
        exact (nearZero_of_neighbours hb h hcells.symm).symm
      · obtain ⟨-, hle, hlt⟩ := trunc_of_neg ha
        obtain ⟨-, hle', hlt'⟩ := trunc_of_neg hb
        obtain ⟨hlow, hhigh⟩ := abs_le.mp hcells
        have hlow' : (-1 : K) ≤ (trunc a : K) - trunc b := by exact_mod_cast hlow
        have hhigh' : (trunc a : K) - trunc b ≤ 1 := by exact_mod_cast hhigh
        have hsmall : |a - b| < 2 := abs_lt.mpr ⟨by linarith, by linarith⟩
        exact absurd h (not_lt.mpr hsmall.le)
  · rintro ⟨⟨ha, hb⟩, hone⟩
    have hwide : ∀ {x : K}, |x| < 2 → |trunc x| ≤ 1 := fun hx =>
      abs_trunc_le (n := 1) (by rw [Int.cast_one]; linarith)
    have hzero : ∀ {x : K}, |x| < 1 → |trunc x| ≤ 0 := fun hx =>
      abs_trunc_le (n := 0) (by rw [Int.cast_zero]; linarith)
    rw [Neighbours, abs_le]
    have hta := abs_le.mp (hwide ha)
    have htb := abs_le.mp (hwide hb)
    rcases hone with hone | hone
    · have ht := abs_le.mp (hzero hone)
      omega
    · have ht := abs_le.mp (hzero hone)
      omega

end Cells

import Mathlib.Data.Set.Basic
import Mathlib.Data.List.Infix

/-!
# Scopes of a tree of paths

A scope over an alphabet of segments is either one path or a whole subtree: the
path and everything below it.  Its meaning is a set of paths.  Containment of
scopes is decided on the segments alone, and it is exactly inclusion of meanings
(`Scope.contains_iff_subset`).  So it is reflexive and transitive, and a finite
list of scopes covers another when each scope of the second lies in some scope of
the first.
-/

namespace PathScope

/-- One path, or the subtree below it. -/
structure Scope (α : Type*) where
  /-- The segments of the path. -/
  path : List α
  /-- Whether everything below the path is in the scope too. -/
  subtree : Bool
deriving DecidableEq, Repr

namespace Scope

variable {α : Type*}

/-- The paths of a scope. -/
def denote (a : Scope α) : Set (List α) :=
  {q | if a.subtree = true then a.path <+: q else q = a.path}

theorem mem_denote_subtree {p q : List α} : q ∈ denote ⟨p, true⟩ ↔ p <+: q := by
  simp [denote]

theorem mem_denote_exact {p q : List α} : q ∈ denote ⟨p, false⟩ ↔ q = p := by
  simp [denote]

/-- The path of a scope is in the scope. -/
theorem path_mem_denote (a : Scope α) : a.path ∈ a.denote := by
  obtain ⟨p, s⟩ := a
  cases s with
  | false => exact mem_denote_exact.mpr rfl
  | true => exact mem_denote_subtree.mpr (List.prefix_refl p)

/-- Containment, decided on the segments.  A single path contains only itself, a
subtree contains every scope whose path starts with its own. -/
def Contains (a b : Scope α) : Prop :=
  if a.subtree = true then a.path <+: b.path else b.subtree = false ∧ b.path = a.path

instance [DecidableEq α] (a b : Scope α) : Decidable (Contains a b) := by
  unfold Contains
  infer_instance

theorem contains_subtree_iff {p : List α} {b : Scope α} :
    Contains ⟨p, true⟩ b ↔ p <+: b.path := by
  simp [Contains]

theorem contains_exact_iff {p : List α} {b : Scope α} :
    Contains ⟨p, false⟩ b ↔ b = ⟨p, false⟩ := by
  obtain ⟨q, s⟩ := b
  simp [Contains, and_comm]

/-- Containment of scopes is inclusion of their meanings. -/
theorem contains_iff_subset [Nonempty α] (a b : Scope α) :
    Contains a b ↔ b.denote ⊆ a.denote := by
  obtain ⟨p, s⟩ := a
  obtain ⟨q, t⟩ := b
  cases s with
  | true =>
    rw [contains_subtree_iff]
    constructor
    · intro hpq r hr
      rw [mem_denote_subtree]
      cases t with
      | true => exact hpq.trans (mem_denote_subtree.mp hr)
      | false => exact (mem_denote_exact.mp hr) ▸ hpq
    · intro h
      exact mem_denote_subtree.mp (h (path_mem_denote ⟨q, t⟩))
  | false =>
    rw [contains_exact_iff]
    constructor
    · rintro h r hr
      exact h ▸ hr
    · intro h
      have hq : q = p := mem_denote_exact.mp (h (path_mem_denote ⟨q, t⟩))
      subst hq
      cases t with
      | false => rfl
      | true =>
        -- the subtree also holds a longer path, so it is not a single path
        obtain ⟨x⟩ := ‹Nonempty α›
        have hlong : q ++ [x] ∈ denote ⟨q, true⟩ :=
          mem_denote_subtree.mpr (List.prefix_append q [x])
        have heq : q ++ [x] = q := mem_denote_exact.mp (h hlong)
        simp at heq

theorem Contains.refl [Nonempty α] (a : Scope α) : Contains a a :=
  (contains_iff_subset a a).mpr (Set.Subset.refl _)

theorem Contains.trans [Nonempty α] {a b c : Scope α} (hab : Contains a b)
    (hbc : Contains b c) : Contains a c :=
  (contains_iff_subset a c).mpr
    (Set.Subset.trans ((contains_iff_subset b c).mp hbc) ((contains_iff_subset a b).mp hab))

theorem Contains.antisymm [Nonempty α] {a b : Scope α} (hab : Contains a b)
    (hba : Contains b a) : a = b := by
  obtain ⟨p, s⟩ := a
  obtain ⟨q, t⟩ := b
  cases s with
  | false => exact (contains_exact_iff.mp hab).symm
  | true =>
    cases t with
    | false => exact contains_exact_iff.mp hba
    | true =>
      have hpq := (contains_subtree_iff.mp hab).eq_of_length_le
        (contains_subtree_iff.mp hba).length_le
      simp only at hpq
      rw [hpq]

end Scope

end PathScope

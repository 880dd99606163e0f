import Mathlib.Data.List.Infix

/-!
# Searching a list

`find?` is where a pattern first occurs.  What is found in the front of a list is found in
the whole (`find?_append`), and a pattern that does not occur in the front begins in its last
elements or behind it (`not_prefix_drop_append`).
-/

namespace Search

open List

variable {α : Type*} [DecidableEq α]

/-- Where `pat` first occurs. -/
def find? (pat : List α) : List α → Option Nat
  | [] => if pat = [] then some 0 else none
  | x :: xs => if pat <+: x :: xs then some 0 else (find? pat xs).map (· + 1)

variable {pat : List α}

theorem find?_eq_some_iff : ∀ {xs : List α} {i : Nat},
    find? pat xs = some i ↔
      i ≤ xs.length ∧ pat <+: xs.drop i ∧ ∀ j < i, ¬ pat <+: xs.drop j
  | [], i => by
    by_cases hpat : pat = []
    · rw [find?, if_pos hpat, hpat]
      constructor
      · intro h
        rw [← Option.some.inj h]
        exact ⟨Nat.le_refl _, List.nil_prefix, fun j hj => absurd hj (Nat.not_lt_zero j)⟩
      · rintro ⟨hi, -, -⟩
        rw [Nat.le_zero.mp hi]
    · rw [find?, if_neg hpat]
      constructor
      · intro h
        cases h
      · rintro ⟨-, hprefix, -⟩
        rw [List.drop_nil, List.prefix_nil] at hprefix
        exact absurd hprefix hpat
  | x :: xs, i => by
    by_cases hpat : pat <+: x :: xs
    · rw [find?, if_pos hpat]
      constructor
      · intro h
        rw [← Option.some.inj h]
        exact ⟨Nat.zero_le _, hpat, fun j hj => absurd hj (Nat.not_lt_zero j)⟩
      · rintro ⟨-, -, hfirst⟩
        cases i with
        | zero => rfl
        | succ i => exact absurd hpat (hfirst 0 (Nat.succ_pos i))
    · rw [find?, if_neg hpat, Option.map_eq_some_iff]
      constructor
      · rintro ⟨k, hk, rfl⟩
        obtain ⟨hle, hprefix, hfirst⟩ := find?_eq_some_iff.mp hk
        refine ⟨Nat.succ_le_succ hle, hprefix, fun j hj => ?_⟩
        cases j with
        | zero => exact hpat
        | succ j => exact hfirst j (Nat.lt_of_succ_lt_succ hj)
      · rintro ⟨hle, hprefix, hfirst⟩
        cases i with
        | zero => exact absurd hprefix hpat
        | succ i =>
          refine ⟨i, find?_eq_some_iff.mpr ⟨Nat.le_of_succ_le_succ hle, hprefix, ?_⟩, rfl⟩
          exact fun j hj => hfirst (j + 1) (Nat.succ_lt_succ hj)

theorem find?_eq_none_iff : ∀ {xs : List α},
    find? pat xs = none ↔ ∀ j ≤ xs.length, ¬ pat <+: xs.drop j
  | [] => by
    by_cases hpat : pat = []
    · rw [find?, if_pos hpat]
      constructor
      · intro h
        cases h
      · intro h
        exact absurd (hpat ▸ nil_prefix) (h 0 (Nat.le_refl _))
    · rw [find?, if_neg hpat]
      refine iff_of_true rfl fun j _ hprefix => hpat ?_
      rwa [drop_nil, prefix_nil] at hprefix
  | x :: xs => by
    by_cases hpat : pat <+: x :: xs
    · rw [find?, if_pos hpat]
      constructor
      · intro h
        cases h
      · intro h
        exact absurd hpat (h 0 (Nat.zero_le _))
    · rw [find?, if_neg hpat, Option.map_eq_none_iff, find?_eq_none_iff]
      constructor
      · intro h j hj
        cases j with
        | zero => exact hpat
        | succ j => exact h j (Nat.le_of_succ_le_succ hj)
      · exact fun h j hj => h (j + 1) (Nat.succ_le_succ hj)

variable {xs : List α} {i : Nat}

omit [DecidableEq α] in
/-- A window that lies in the front says nothing about what follows. -/
theorem prefix_drop_append {ys : List α} (h : i + pat.length ≤ xs.length) :
    pat <+: (xs ++ ys).drop i ↔ pat <+: xs.drop i := by
  have hle : i ≤ xs.length := Nat.le_trans (Nat.le_add_right i _) h
  rw [drop_append_of_le_length hle]
  constructor
  · intro hprefix
    refine prefix_of_prefix_length_le hprefix (prefix_append _ _) ?_
    rw [length_drop]
    omega
  · exact fun hprefix => hprefix.trans (prefix_append _ _)

omit [DecidableEq α] in
theorem le_of_prefix_drop (h : pat <+: xs.drop i) :
    pat.length ≤ xs.length - i := by
  have hle := h.length_le
  rwa [length_drop] at hle

/-- What is found in the front is found in the whole. -/
theorem find?_append (h : find? pat xs = some i) (ys : List α) :
    find? pat (xs ++ ys) = some i := by
  obtain ⟨hle, hprefix, hfirst⟩ := find?_eq_some_iff.mp h
  have hwindow := le_of_prefix_drop hprefix
  refine find?_eq_some_iff.mpr ⟨?_, ?_, ?_⟩
  · rw [length_append]
    omega
  · exact (prefix_drop_append (by omega)).mpr hprefix
  · exact fun j hj hpat => hfirst j hj ((prefix_drop_append (by omega)).mp hpat)

/-- A pattern that does not occur in the front does not begin where it would have to lie in the
front. -/
theorem not_prefix_drop_append {ys : List α} (h : find? pat xs = none) {j : Nat}
    (hj : j + pat.length ≤ xs.length) : ¬ pat <+: (xs ++ ys).drop j := fun hpat =>
  find?_eq_none_iff.mp h j (by omega) ((prefix_drop_append hj).mp hpat)

/-- A pattern at the front is found there. -/
theorem find?_of_prefix (h : pat <+: xs) : find? pat xs = some 0 :=
  find?_eq_some_iff.mpr ⟨Nat.zero_le _, h, fun _ hj => absurd hj (Nat.not_lt_zero _)⟩

/-- The search from the next element on. -/
theorem find?_cons_of_not {x : α} (h : ¬ pat <+: x :: xs) :
    find? pat (x :: xs) = (find? pat xs).map (· + 1) := by
  rw [find?, if_neg h]

end Search

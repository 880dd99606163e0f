import Mathlib.Data.List.Infix

/-!
# Key expressions

A key is a list of segments.  A key expression is a list of segments and wild cards: `one` stands
for one segment and `any` for any number of them.  Words between two wild cards of the second
kind match exactly the keys in which they stand next to each other (`matches_between`).
-/

namespace KeyExpr

open List

variable {α : Type}

inductive Chunk (α : Type) where
  | literal (segment : α)
  | one
  | any
deriving DecidableEq

variable [DecidableEq α]

/-- A key expression matches a key. -/
def Matches : List (Chunk α) → List α → Prop
  | [], key => key = []
  | .literal _ :: _, [] => False
  | .literal segment :: expr, first :: key => segment = first ∧ Matches expr key
  | .one :: _, [] => False
  | .one :: expr, _ :: key => Matches expr key
  | .any :: expr, key => ∃ rest ∈ key.tails, Matches expr rest

instance : ∀ (expr : List (Chunk α)) (key : List α), Decidable (Matches expr key)
  | [], key => inferInstanceAs (Decidable (key = []))
  | .literal _ :: _, [] => inferInstanceAs (Decidable False)
  | .literal segment :: expr, first :: key =>
    haveI := instDecidableMatches expr key
    inferInstanceAs (Decidable (segment = first ∧ Matches expr key))
  | .one :: _, [] => inferInstanceAs (Decidable False)
  | .one :: expr, _ :: key => instDecidableMatches expr key
  | .any :: expr, key =>
    haveI : ∀ rest, Decidable (Matches expr rest) := instDecidableMatches expr
    inferInstanceAs (Decidable (∃ rest ∈ key.tails, Matches expr rest))

omit [DecidableEq α]

theorem matches_any {expr : List (Chunk α)} {key : List α} :
    Matches (.any :: expr) key ↔ ∃ rest, rest <:+ key ∧ Matches expr rest := by
  rw [Matches]
  simp

/-- `any` at the end matches whatever is left. -/
theorem matches_any_end (key : List α) : Matches [.any] key :=
  matches_any.mpr ⟨[], nil_suffix, rfl⟩

/-- Words at the front of an expression stand at the front of the key. -/
theorem matches_literals {expr : List (Chunk α)} : ∀ {words key : List α},
    Matches (words.map .literal ++ expr) key ↔ ∃ rest, key = words ++ rest ∧ Matches expr rest
  | [], key => by
    constructor
    · intro h
      exact ⟨key, rfl, h⟩
    · rintro ⟨rest, rfl, h⟩
      exact h
  | word :: words, [] => by
    constructor
    · exact False.elim
    · rintro ⟨rest, hkey, -⟩
      cases hkey
  | word :: words, first :: key => by
    rw [List.map_cons, List.cons_append, Matches, matches_literals]
    constructor
    · rintro ⟨rfl, rest, rfl, h⟩
      exact ⟨rest, rfl, h⟩
    · rintro ⟨rest, hkey, h⟩
      obtain ⟨rfl, rfl⟩ := cons.inj hkey
      exact ⟨rfl, rest, rfl, h⟩

/-- Words at the front and whatever behind. -/
theorem matches_front {words key : List α} :
    Matches (words.map .literal ++ [.any]) key ↔ words <+: key := by
  rw [matches_literals]
  constructor
  · rintro ⟨rest, rfl, -⟩
    exact prefix_append ..
  · rintro ⟨rest, rfl⟩
    exact ⟨rest, rfl, matches_any_end rest⟩

/-- Words between two `any` stand somewhere in the key, one behind the other. -/
theorem matches_between {words key : List α} :
    Matches (.any :: (words.map .literal ++ [.any])) key ↔ words <:+: key := by
  rw [matches_any]
  constructor
  · rintro ⟨rest, hsuffix, h⟩
    exact (matches_front.mp h).isInfix.trans hsuffix.isInfix
  · rintro ⟨front, rest, rfl⟩
    refine ⟨words ++ rest, ?_, matches_front.mpr (prefix_append ..)⟩
    rw [append_assoc]
    exact suffix_append ..

/-! ## Neighbours -/

/-- Two segments stand next to each other. -/
theorem pair_infix_iff {x y : α} : ∀ {key : List α}, [x, y] <:+: key ↔ (x, y) ∈ key.zip key.tail
  | [] => by
    constructor
    · intro h
      cases List.infix_nil.mp h
    · intro h
      cases h
  | [z] => by
    constructor
    · intro h
      have hlength := h.length_le
      simp at hlength
    · intro h
      cases h
  | z :: z' :: key => by
    show [x, y] <:+: z :: z' :: key ↔ (x, y) ∈ (z, z') :: (z' :: key).zip key
    rw [infix_cons_iff, pair_infix_iff, mem_cons, Prod.mk.injEq]
    refine or_congr ?_ Iff.rfl
    rw [cons_prefix_cons, cons_prefix_cons]
    constructor
    · exact fun h => ⟨h.1, h.2.1⟩
    · exact fun h => ⟨h.1, h.2, nil_prefix⟩

end KeyExpr

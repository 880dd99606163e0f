import Efdi.Base.Pointers
import Efdi.Base.PyDict
import Efdi.Base.PyJson

/-!
# Path lookup

`path_to` of `federation_paths.py`.  It follows the parents that the topology reports from a
target upward, for at most one round more than there are parents, and returns the namespaces on
the way in the order from the router down.
-/

namespace Efdi.Federation

open Pointers

/-- The facts of `_TOPOLOGY`, by namespace. -/
abbrev FactStore : Type := PyDict String PyJson

/-- `entry["fact"].get("reported", True) is not False`. -/
def isReported (fact : PyJson) : Bool := decide (fact.getD "reported" (.bool true) ≠ .bool false)

/-- `parents`. -/
def parentsOf (store : FactStore) : PyDict String PyJson :=
  (store.filter fun _ fact => isReported fact).map fun fact => fact.getD "parent_namespace" .null

variable (own : String) (parents : PyDict String PyJson)

/-- The rounds of the loop of `path_to`. -/
def climb : Nat → Option String → List String → Option (List String)
  | 0, _, _ => none
  | _ + 1, none, _ => none
  | rounds + 1, some current, chain =>
    let chain := chain ++ [current]
    let parent := parents.get? current
    if parent = some (.str own) then some chain.reverse
    else climb rounds (parent.bind PyJson.str?) chain

/-- `path_to`. -/
def pathTo (store : FactStore) (target : String) : Option (List String) :=
  if target = own then some []
  else
    let parents := parentsOf store
    climb own parents (parents.length + 1) (some target) []

/-- The parent of a namespace, where it is reported and a text. -/
def reportedParent (store : FactStore) (ns : String) : Option String :=
  ((parentsOf store).get? ns).bind PyJson.str?

/-! ## The walk -/

variable {own parents}

theorem climb_none (rounds : Nat) (chain : List String) : climb own parents rounds none chain = none := by
  cases rounds with
  | zero => rfl
  | succ => rfl

/-- The loop chases the parents. -/
theorem climb_eq (rounds : Nat) (current : String) (chain : List String) :
    climb own parents rounds (some current) chain =
      (chase (fun ns => (parents.get? ns).bind PyJson.str?) own rounds current).map
        fun l => (chain ++ l).reverse := by
  induction rounds generalizing current chain with
  | zero => rfl
  | succ rounds ih =>
    rw [climb, chase]
    cases hparent : (parents.get? current).bind PyJson.str? with
    | none =>
      have hne : parents.get? current ≠ some (.str own) := by
        intro h
        rw [h] at hparent
        cases hparent
      dsimp only
      rw [if_neg hne, climb_none]
      rfl
    | some parent =>
      obtain ⟨value, hvalue, htext⟩ := Option.bind_eq_some_iff.mp hparent
      rw [PyJson.eq_str htext] at hvalue
      dsimp only
      rw [hvalue]
      by_cases hown : parent = own
      · rw [hown, if_pos rfl, if_pos rfl]
        rfl
      · have hne : (some (PyJson.str parent)) ≠ some (.str own) := fun h =>
          hown (PyJson.str.inj (Option.some.inj h))
        rw [if_neg hne, if_neg hown, ih, Option.map_map]
        congr 1
        funext l
        simp

theorem mem_keys_of_parent {ns : String}
    (h : (parents.get? ns).bind PyJson.str? ≠ none) : ns ∈ parents.entries.map Prod.fst := by
  obtain ⟨parent, hparent⟩ := Option.ne_none_iff_exists'.mp h
  obtain ⟨value, hvalue, -⟩ := Option.bind_eq_some_iff.mp hparent
  exact List.mem_map_of_mem (PyDict.get?_eq_some_iff.mp hvalue)

/-- A path is found exactly when the reported parents lead from the target to the router.  Then no
namespace is on it twice, the target is its end, the parent of its first namespace is the router
and the parent of any other the one before it. -/
theorem pathTo_iff (store : FactStore) {target : String} (htarget : target ≠ own) :
    ((∃ path, pathTo own store target = some path) ↔
      Relation.TransGen (fun ns parent => reportedParent store ns = some parent) target own) ∧
    ∀ path, pathTo own store target = some path →
      path.Nodup ∧ path.getLast? = some target ∧
        (own :: path).IsChain fun before after => reportedParent store after = some before := by
  have hpath : pathTo own store target =
      (chase (reportedParent store) own ((parentsOf store).length + 1) target).map List.reverse := by
    rw [pathTo, if_neg htarget]
    exact climb_eq _ _ _
  rw [hpath]
  refine ⟨?_, fun path h => ?_⟩
  · have hlength : ((parentsOf store).entries.map Prod.fst).length ≤ (parentsOf store).length + 1 := by
      rw [List.length_map]
      exact Nat.le_succ _
    have hkeys : ∀ ns, reportedParent store ns ≠ none → ns ∈ (parentsOf store).entries.map Prod.fst :=
      fun ns => mem_keys_of_parent
    rw [← exists_chase_iff hkeys hlength]
    constructor
    · rintro ⟨path, h⟩
      obtain ⟨l, hl, -⟩ := Option.map_eq_some_iff.mp h
      exact ⟨l, hl⟩
    · rintro ⟨l, hl⟩
      exact ⟨l.reverse, by rw [hl]; rfl⟩
  · obtain ⟨l, hl, rfl⟩ := Option.map_eq_some_iff.mp h
    have hway := way_of_chase hl
    refine ⟨List.nodup_reverse.mpr hway.nodup, ?_, ?_⟩
    · rw [List.getLast?_reverse, hway.head]
    · have hchain := List.isChain_reverse.mpr hway.chain
      rw [List.reverse_append] at hchain
      exact hchain

/-- Two routers, one below the other. -/
theorem path_of_two :
    let store := (PyDict.empty.set "b" (.dict [("parent_namespace", .str "a")])).set "a"
      (.dict [("parent_namespace", .str "own")])
    ((∃ path, pathTo "own" store "b" = some path) ↔
      Relation.TransGen (fun ns parent => reportedParent store ns = some parent) "b" "own") ∧
    ∀ path, pathTo "own" store "b" = some path →
      path.Nodup ∧ path.getLast? = some "b" ∧
        ("own" :: path).IsChain fun before after => reportedParent store after = some before :=
  pathTo_iff _ (by decide)

end Efdi.Federation

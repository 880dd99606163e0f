import Efdi.Trust.Grant

/-!
# The meaning of key scopes

A key scope stands for a set of literal key paths, and a list of scopes for the union of
the sets of its members.  The containment test of the source decides inclusion of the
sets (`scopeWithin_iff_subset`), and a grant that passes the narrowing test may publish
and subscribe keys of its parent only (`permitted_subset_of_grantIsSubset`).

The identity link of the narrowing test relates a grant to its direct parent, so along a
chain of grants the test itself does not hold between the ends.  It does for the last
grant as its first issuer would give it (`grantIsSubset_trans`).
-/

namespace Efdi.Trust

open PathScope (Scope)

/-! ## Literal key paths -/

/-- A literal key path: at least one segment, and no wildcards. -/
def LiteralPath (path : List String) : Prop := path ≠ [] ∧ ∀ part ∈ path, segmentOk part = true

/-- The literal key paths that a key scope matches. -/
def meaning (expression : String) : Set (List String) :=
  {path | LiteralPath path ∧ ∃ a, parseKeyScope expression = .ok a ∧ path ∈ a.denote}

/-- The literal key paths that a list of key scopes matches. -/
def permitted (scopes : List String) : Set (List String) :=
  {path | ∃ scope ∈ scopes, path ∈ meaning scope}

theorem mem_meaning {expression : String} {a : Scope String}
    (ha : parseKeyScope expression = .ok a) {path : List String} :
    path ∈ meaning expression ↔ LiteralPath path ∧ path ∈ a.denote := by
  constructor
  · rintro ⟨hpath, a', ha', hmem⟩
    obtain rfl : a = a' := Except.ok.inj (ha.symm.trans ha')
    exact ⟨hpath, hmem⟩
  · rintro ⟨hpath, hmem⟩
    exact ⟨hpath, a, ha, hmem⟩

theorem literalPath_of_checks {parts : List String}
    (h : ¬(parts.isEmpty || parts.any fun part => !segmentOk part) = true) :
    LiteralPath parts := by
  simp only [Bool.or_eq_true, not_or, List.isEmpty_iff, List.any_eq_true, not_exists,
    not_and] at h
  exact ⟨h.1, fun part hpart => by simpa using h.2 part hpart⟩

/-- The path of a scope that parses is literal. -/
theorem literalPath_of_parse {expression : String} {a : Scope String}
    (h : parseKeyScope expression = .ok a) : LiteralPath a.path := by
  cases hw : ((PyStr.split '/' expression).getLast? == some "**") with
  | false =>
    simp only [parseKeyScope, hw, Bool.false_eq_true, if_false] at h
    split_ifs at h with _ _ hchecks
    obtain rfl := Except.ok.inj h
    exact literalPath_of_checks hchecks
  | true =>
    simp only [parseKeyScope, hw, if_true] at h
    split_ifs at h with _ _ hchecks
    obtain rfl := Except.ok.inj h
    exact literalPath_of_checks hchecks

/-- A longer path over literal segments is literal. -/
theorem LiteralPath.concat {path : List String} (h : LiteralPath path) {part : String}
    (hpart : segmentOk part = true) : LiteralPath (path ++ [part]) := by
  refine ⟨by simp, fun part' hmem => ?_⟩
  rcases List.mem_append.mp hmem with hmem | hmem
  · exact h.2 part' hmem
  · exact List.mem_singleton.mp hmem ▸ hpart

/-! ## Containment is inclusion -/

/-- The containment test decides inclusion of the meanings. -/
theorem scopeWithin_iff_subset {parent child : String} (hparent : ScopeOk parent)
    (hchild : ScopeOk child) :
    scopeContains parent child = .ok true ↔ meaning child ⊆ meaning parent := by
  obtain ⟨a, ha⟩ := hparent
  obtain ⟨b, hb⟩ := hchild
  have hwithin : scopeContains parent child = .ok true ↔ a.Contains b := by
    rw [scopeContains_of_parse ha hb, Except.ok.injEq, decide_eq_true_eq]
  rw [hwithin]
  constructor
  · intro hab path hpath
    obtain ⟨hliteral, hmem⟩ := (mem_meaning hb).mp hpath
    exact (mem_meaning ha).mpr ⟨hliteral, (Scope.contains_iff_subset a b).mp hab hmem⟩
  · intro h
    have hliteral : LiteralPath b.path := literalPath_of_parse hb
    have hpath : b.path ∈ a.denote :=
      ((mem_meaning ha).mp (h ((mem_meaning hb).mpr ⟨hliteral, b.path_mem_denote⟩))).2
    obtain ⟨p, s⟩ := a
    obtain ⟨q, t⟩ := b
    cases s with
    | true => exact Scope.contains_subtree_iff.mpr (Scope.mem_denote_subtree.mp hpath)
    | false =>
      obtain rfl : q = p := Scope.mem_denote_exact.mp hpath
      cases t with
      | false => exact Scope.Contains.refl _
      | true =>
        -- the subtree also has a longer literal path
        have hlong : q ++ ["a"] ∈ meaning child :=
          (mem_meaning hb).mpr ⟨hliteral.concat (by decide),
            Scope.mem_denote_subtree.mpr (List.prefix_append _ _)⟩
        have heq := Scope.mem_denote_exact.mp ((mem_meaning ha).mp (h hlong)).2
        simp at heq

theorem ScopeWithin.refl {expression : String} (h : ScopeOk expression) :
    ScopeWithin expression expression :=
  (scopeWithin_iff_subset h h).mpr (Set.Subset.refl _)

/-! ## Narrowing -/

/-- Scopes that lie in others permit no more keys. -/
theorem permitted_subset {parents children : List String} (h : ScopesWithin parents children) :
    permitted children ⊆ permitted parents := by
  rintro path ⟨child, hchild, hpath⟩
  obtain ⟨parent, hparent, hwithin⟩ := h child hchild
  obtain ⟨a, b, ha, hb, -⟩ := scopeWithin_iff.mp hwithin
  exact ⟨parent, hparent, (scopeWithin_iff_subset ⟨a, ha⟩ ⟨b, hb⟩).mp hwithin hpath⟩

/-- A grant that passes the narrowing test permits no more keys than its parent. -/
theorem permitted_subset_of_grantIsSubset {child parent : DelegationGrant}
    (h : grantIsSubset child parent = true) :
    permitted child.publish ⊆ permitted parent.publish ∧
      permitted child.subscribe ⊆ permitted parent.subscribe := by
  obtain ⟨-, -, hnarrower⟩ := grantIsSubset_iff.mp h
  exact ⟨permitted_subset hnarrower.publish, permitted_subset hnarrower.subscribe⟩

/-- No grant passes the narrowing test against itself. -/
theorem grantIsSubset_irrefl (g : DelegationGrant) : grantIsSubset g g = false := by
  cases h : grantIsSubset g g with
  | false => rfl
  | true => exact absurd rfl (grantIsSubset_iff.mp h).2.2.namespace_ne

/-- The first of three grants narrows the last: as the subject of the first would issue it, it
passes the test. -/
theorem grantIsSubset_trans {a b c d : DelegationGrant} (hab : grantIsSubset b a = true)
    (hbc : grantIsSubset c b = true)
    (hd : d.toGrantFields = { c.toGrantFields with issuerIdentity := a.subjectIdentity }) :
    grantIsSubset d a = true := by
  obtain ⟨-, hdepth₁, hnarrower₁⟩ := grantIsSubset_iff.mp hab
  obtain ⟨-, hdepth₂, hnarrower₂⟩ := grantIsSubset_iff.mp hbc
  have hnarrower := hnarrower₁.trans hnarrower₂
  refine grantIsSubset_iff.mpr ⟨?_, ?_, ?_⟩
  · rw [hd]
  · rw [hd]
    exact Int.lt_trans hdepth₂ hdepth₁
  · constructor <;> rw [hd]
    · exact hnarrower.namespace_within
    · exact hnarrower.namespace_ne
    · exact hnarrower.roles
    · exact hnarrower.control
    · exact hnarrower.publish
    · exact hnarrower.subscribe
    · exact hnarrower.notBefore
    · exact hnarrower.notAfter

/-- Key scopes are contained exactly when their meanings are, containment is an order, and the
narrowing test is a strict order on grants along their identities that keeps the keys. -/
theorem keyScopes_exact :
    (∀ p c, ScopeOk p → ScopeOk c →
      (scopeContains p c = .ok true ↔ meaning c ⊆ meaning p)) ∧
    (∀ p, ScopeOk p → scopeContains p p = .ok true) ∧
    (∀ p q r, scopeContains p q = .ok true → scopeContains q r = .ok true →
      scopeContains p r = .ok true) ∧
    (∀ g, grantIsSubset g g = false) ∧
    (∀ a b c : DelegationGrant, grantIsSubset b a = true → grantIsSubset c b = true →
      (c.maxDelegationDepth < a.maxDelegationDepth ∧ Narrower c a) ∧
        ∀ d : DelegationGrant,
          d.toGrantFields = { c.toGrantFields with issuerIdentity := a.subjectIdentity } →
            grantIsSubset d a = true) ∧
    ∀ child parent : DelegationGrant, grantIsSubset child parent = true →
      permitted child.publish ⊆ permitted parent.publish ∧
        permitted child.subscribe ⊆ permitted parent.subscribe := by
  refine ⟨fun p c => scopeWithin_iff_subset, fun p => ScopeWithin.refl,
    fun p q r => ScopeWithin.trans, grantIsSubset_irrefl, ?_,
    fun child parent => permitted_subset_of_grantIsSubset⟩
  intro a b c hab hbc
  obtain ⟨-, hdepth₁, hnarrower₁⟩ := grantIsSubset_iff.mp hab
  obtain ⟨-, hdepth₂, hnarrower₂⟩ := grantIsSubset_iff.mp hbc
  exact ⟨⟨Int.lt_trans hdepth₂ hdepth₁, hnarrower₁.trans hnarrower₂⟩,
    fun d => grantIsSubset_trans hab hbc⟩

end Efdi.Trust

import Efdi.Trust.Types

/-!
# Delegation grants

`GrantFields` are the fields of a grant document once each is decoded to its type.
`GrantFields.errors` runs the field validators and, when they all pass, the model
validator; each error names the field it is about and has the message of the
source.  A `DelegationGrant` is a record of fields without errors.
-/

namespace Efdi.Trust

open PathScope (Scope)

/-- The decoded fields of a grant.  Times are instants on the UTC time line. -/
structure GrantFields where
  id : String
  issuerIdentity : String
  subjectCaSha256 : String
  subjectIdentity : String
  namespace_ : String
  roles : List RouterRole
  publish : List String
  subscribe : List String
  control : List ControlAction
  maxDelegationDepth : Int
  sequence : Int
  notBefore : Int
  notAfter : Int
deriving DecidableEq

/-! ## Field validators -/

/-- The host characters of `_IDENTITY_RE`. -/
def hostChar (c : Char) : Bool := c.isLower || c.isDigit || c == '.' || c == '-'

/-- The path characters of `_IDENTITY_RE`. -/
def identityPathChar (c : Char) : Bool :=
  c.isAlphanum || c == '.' || c == '_' || c == '~' || c == '%' || c == '/' || c == '-'

/-- `_IDENTITY_RE.fullmatch(value)`.  No host character is a slash, so the host ends at
the first slash after the scheme. -/
def identityOk (value : String) : Bool :=
  let rest := PyStr.drop 9 value
  let host := String.ofList (rest.toList.takeWhile (· != '/'))
  let tail := PyStr.drop (PyStr.len host) rest
  PyStr.startsWith value "spiffe://" && PyStr.classMatch hostChar 1 253 host &&
    PyStr.startsWith tail "/router/" &&
    PyStr.classMatch identityPathChar 1 512 (PyStr.drop 8 tail)

/-- The characters of `_FINGERPRINT_RE`. -/
def hexChar (c : Char) : Bool := c.isDigit || ('a' ≤ c && c ≤ 'f')

/-- `_FINGERPRINT_RE.fullmatch(value)`. -/
def fingerprintOk (value : String) : Bool := PyStr.classMatch hexChar 64 64 value

/-- The field path and the message of a failed check. -/
abbrev FieldError := String × String

/-- The error of one check. -/
def check (field : String) (ok : Bool) (message : String) : List FieldError :=
  if ok then [] else [(field, message)]

@[simp] theorem check_eq_nil {field message : String} {ok : Bool} :
    check field ok message = [] ↔ ok = true := by
  cases ok <;> simp [check]

/-- `validate_identity` for one of the two identity fields. -/
def identityErrors (field value : String) : List FieldError :=
  check field (identityOk value) "identity must be a bounded SPIFFE router URI"

/-- `parse_key_scope` called for its error. -/
def scopeErrors (field expression : String) : List FieldError :=
  match parseKeyScope expression with
  | .ok _ => []
  | .error message => [(field, message)]

/-- `validate_namespace`. -/
def namespaceErrors (value : String) : List FieldError :=
  match parseKeyScope value with
  | .ok scope => check "namespace" scope.subtree "delegated namespace must end in '/**'"
  | .error message => [("namespace", message)]

/-- `validate_scopes` and the length bound for one of the two scope lists. -/
def scopeListErrors (field : String) (values : List String) : List FieldError :=
  check field (decide (values.length ≤ 128)) "list should have at most 128 items" ++
    check field (decide values.Nodup) "duplicate key scopes are not allowed" ++
    values.flatMap (scopeErrors field)

/-- `validate_unique_enums` and the length bounds for one of the two enumeration lists. -/
def enumListErrors {α : Type} [DecidableEq α] (field : String) (lo hi : Nat)
    (values : List α) : List FieldError :=
  check field (decide (lo ≤ values.length)) s!"list should have at least {lo} items" ++
    check field (decide (values.length ≤ hi)) s!"list should have at most {hi} items" ++
    check field (decide values.Nodup) "duplicate grant entries are not allowed"

/-- The errors of the field validators. -/
def GrantFields.fieldErrors (g : GrantFields) : List FieldError :=
  identityErrors "issuer_identity" g.issuerIdentity ++
  check "subject_ca_sha256" (fingerprintOk g.subjectCaSha256)
    "CA fingerprint must be 64 lowercase hexadecimal characters" ++
  identityErrors "subject_identity" g.subjectIdentity ++
  namespaceErrors g.namespace_ ++
  enumListErrors "roles" 1 3 g.roles ++
  scopeListErrors "publish" g.publish ++
  scopeListErrors "subscribe" g.subscribe ++
  enumListErrors "control" 0 4 g.control ++
  check "max_delegation_depth" (decide (0 ≤ g.maxDelegationDepth ∧ g.maxDelegationDepth ≤ 32))
    "depth should lie between 0 and 32" ++
  check "sequence" (decide (0 ≤ g.sequence)) "sequence should be at least 0"

/-- The first error of `validate_contract`. -/
def GrantFields.contractErrors (g : GrantFields) : List FieldError :=
  if g.notAfter ≤ g.notBefore then
    [("", "not_after must be later than not_before")]
  else if g.issuerIdentity = g.subjectIdentity then
    [("", "a router cannot delegate to itself")]
  else if !PyStr.startsWith g.subjectIdentity (PyStr.rstripChar '/' g.issuerIdentity ++ "/") then
    [("", "subject identity must be a strict descendant of issuer identity")]
  else if g.publish.any (fun expression => !decide (ScopeWithin g.namespace_ expression)) then
    [("", "publish scope escapes the delegated namespace")]
  else []

/-- The errors of a grant document.  The model validator runs on valid fields only. -/
def GrantFields.errors (g : GrantFields) : List FieldError :=
  if g.fieldErrors = [] then g.contractErrors else g.fieldErrors

/-- A grant whose validators all passed. -/
structure DelegationGrant extends GrantFields where
  valid : toGrantFields.errors = []
deriving DecidableEq

/-- Validate decoded fields. -/
def GrantFields.validate (g : GrantFields) : Except (List FieldError) DelegationGrant :=
  if h : g.errors = [] then .ok ⟨g, h⟩ else .error g.errors

namespace DelegationGrant

variable (g : DelegationGrant)

/-! ## What a valid grant is -/

theorem fieldErrors_eq_nil : g.fieldErrors = [] := by
  have h := g.valid
  rw [GrantFields.errors] at h
  split at h
  · assumption
  · exact h

theorem contractErrors_eq_nil : g.contractErrors = [] := by
  have h := g.valid
  rwa [GrantFields.errors, if_pos g.fieldErrors_eq_nil] at h

/-- The field checks of a valid grant, one by one. -/
theorem fields_ok :
    namespaceErrors g.namespace_ = [] ∧ scopeListErrors "publish" g.publish = [] ∧
      scopeListErrors "subscribe" g.subscribe = [] ∧
      0 ≤ g.maxDelegationDepth ∧ g.maxDelegationDepth ≤ 32 ∧ 0 ≤ g.sequence := by
  have h := g.fieldErrors_eq_nil
  simp only [GrantFields.fieldErrors, List.append_eq_nil_iff, check_eq_nil,
    decide_eq_true_eq] at h
  obtain ⟨⟨⟨⟨⟨⟨⟨_, hns⟩, _⟩, hpub⟩, hsub⟩, _⟩, hdepth⟩, hseq⟩ := h
  exact ⟨hns, hpub, hsub, hdepth.1, hdepth.2, hseq⟩

theorem depth_nonneg : 0 ≤ g.maxDelegationDepth := g.fields_ok.2.2.2.1

/-- The contract of a valid grant. -/
theorem contract :
    g.notBefore < g.notAfter ∧ g.issuerIdentity ≠ g.subjectIdentity ∧
      PyStr.startsWith g.subjectIdentity (PyStr.rstripChar '/' g.issuerIdentity ++ "/") = true ∧
      ∀ e ∈ g.publish, ScopeWithin g.namespace_ e := by
  have h := g.contractErrors_eq_nil
  rw [GrantFields.contractErrors] at h
  split_ifs at h with h1 h2 h3 h4
  refine ⟨by omega, h2, by simpa using h3, ?_⟩
  intro e he
  by_contra hne
  exact h4 (List.any_eq_true.mpr ⟨e, he, by simpa using hne⟩)

/-- No publish scope leaves the namespace of its grant. -/
theorem publish_within : ∀ e ∈ g.publish, ScopeWithin g.namespace_ e := g.contract.2.2.2

/-- No publish scope leaves a scope the namespace lies in. -/
theorem publish_within_of_namespace {scope : String} (h : ScopeWithin scope g.namespace_) :
    ∀ e ∈ g.publish, ScopeWithin scope e :=
  fun e he => h.trans (g.publish_within e he)

end DelegationGrant

/-! ## Narrowing -/

/-- Every requested scope lies in some allowed one. -/
def scopesCovered (requested allowed : List String) : Bool :=
  requested.all fun scope => allowed.any fun parentScope => decide (ScopeWithin parentScope scope)

theorem scopesCovered_iff {requested allowed : List String} :
    scopesCovered requested allowed = true ↔ ScopesWithin allowed requested := by
  simp [scopesCovered, ScopesWithin]

/-- Return true only when every child authority is provably narrower.  All scopes of
a valid grant parse, so none of the containment tests raises. -/
def grantIsSubset (child parent : DelegationGrant) : Bool :=
  if child.issuerIdentity != parent.subjectIdentity then false
  else if !decide (ScopeWithin parent.namespace_ child.namespace_) then false
  else if child.namespace_ == parent.namespace_ then false
  else if !child.roles.all (parent.roles.contains ·) then false
  else if !child.control.all (parent.control.contains ·) then false
  else if child.maxDelegationDepth ≥ parent.maxDelegationDepth then false
  else if child.notBefore < parent.notBefore || child.notAfter > parent.notAfter then false
  else scopesCovered child.publish parent.publish && scopesCovered child.subscribe parent.subscribe

/-- What a grant may do is contained in what another may do, in a smaller namespace. -/
structure Narrower (child parent : DelegationGrant) : Prop where
  namespace_within : ScopeWithin parent.namespace_ child.namespace_
  namespace_ne : child.namespace_ ≠ parent.namespace_
  roles : child.roles ⊆ parent.roles
  control : child.control ⊆ parent.control
  publish : ScopesWithin parent.publish child.publish
  subscribe : ScopesWithin parent.subscribe child.subscribe
  notBefore : parent.notBefore ≤ child.notBefore
  notAfter : child.notAfter ≤ parent.notAfter

theorem Narrower.trans {a b c : DelegationGrant} (hab : Narrower b a) (hbc : Narrower c b) :
    Narrower c a where
  namespace_within := hab.namespace_within.trans hbc.namespace_within
  namespace_ne := by
    intro h
    have hba : ScopeWithin b.namespace_ a.namespace_ := h ▸ hbc.namespace_within
    exact hab.namespace_ne (hba.antisymm hab.namespace_within)
  roles := List.Subset.trans hbc.roles hab.roles
  control := List.Subset.trans hbc.control hab.control
  publish := hab.publish.trans hbc.publish
  subscribe := hab.subscribe.trans hbc.subscribe
  notBefore := Int.le_trans hab.notBefore hbc.notBefore
  notAfter := Int.le_trans hbc.notAfter hab.notAfter

/-- The narrowing test passes for a direct child with less depth and less authority. -/
theorem grantIsSubset_iff {child parent : DelegationGrant} :
    grantIsSubset child parent = true ↔
      child.issuerIdentity = parent.subjectIdentity ∧
        child.maxDelegationDepth < parent.maxDelegationDepth ∧ Narrower child parent := by
  have hroles : child.roles.all (parent.roles.contains ·) = true ↔ child.roles ⊆ parent.roles := by
    simp [List.subset_def]
  have hcontrol : child.control.all (parent.control.contains ·) = true ↔
      child.control ⊆ parent.control := by
    simp [List.subset_def]
  constructor
  · intro h
    rw [grantIsSubset] at h
    split_ifs at h with h1 h2 h3 h4 h5 h6 h7
    simp only [Bool.and_eq_true, scopesCovered_iff] at h
    simp only [Bool.or_eq_true, decide_eq_true_eq, not_or] at h7
    exact ⟨by simpa using h1, by omega,
      { namespace_within := by simpa using h2
        namespace_ne := by simpa using h3
        roles := hroles.mp (by simpa using h4)
        control := hcontrol.mp (by simpa using h5)
        publish := h.1
        subscribe := h.2
        notBefore := by omega
        notAfter := by omega }⟩
  · rintro ⟨hlink, hdepth, hn⟩
    have hb := hn.notBefore
    have ha := hn.notAfter
    rw [grantIsSubset, if_neg (by simpa using hlink), if_neg (by simpa using hn.namespace_within),
      if_neg (by simpa using hn.namespace_ne), if_neg (by simpa using hroles.mpr hn.roles),
      if_neg (by simpa using hcontrol.mpr hn.control), if_neg (by omega),
      if_neg (by simp; omega), Bool.and_eq_true]
    exact ⟨scopesCovered_iff.mpr hn.publish, scopesCovered_iff.mpr hn.subscribe⟩

end Efdi.Trust

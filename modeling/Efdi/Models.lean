import Efdi.Base.PyJson
import Efdi.Base.PyStr

/-!
# The tables of the admin database

The rows of `models.py` that the trust, federation and ACL modules read and write.
A table is a list of rows in the order of insertion, and a fresh row takes the next
identifier.  Times are instants on the UTC time line.  An envelope is kept as the
JSON value of its canonical text.

A column that holds one of a few words is an enumeration.
-/

namespace Efdi

/-! ## Enumerated columns -/

/-- `trust_authorities.state`. -/
inductive AuthorityState where
  | active
  | quarantined
  | decommissioned
deriving DecidableEq, Repr

/-- The `state` of delegations, identities, credentials and revocations. -/
inductive RecordState where
  | active
  | revoked
deriving DecidableEq, Repr

/-- `issued_identities.profile`. -/
inductive IdentityProfile where
  | transport
  | policySigner
deriving DecidableEq, Repr

/-- `config_revisions.state`. -/
inductive RevisionState where
  | validating
  | pending
  | applied
  | rejected
  | rolledBack
  | failed
deriving DecidableEq, Repr

/-- The `health` of a status report that the parent accepts. -/
inductive Health where
  | ok
  | rejected
  | rolledBack
deriving DecidableEq, Repr

/-- The text of a health in a status payload. -/
def Health.value : Health → String
  | .ok => "ok"
  | .rejected => "rejected"
  | .rolledBack => "rolled_back"

/-- The health with a given text. -/
def Health.ofValue (s : String) : Option Health :=
  [Health.ok, .rejected, .rolledBack].find? (·.value == s)

/-- The revision state a health is stored as. -/
def Health.revisionState : Health → RevisionState
  | .ok => .applied
  | .rejected => .rejected
  | .rolledBack => .rolledBack

/-- The outcome of the push is known. -/
def RevisionState.IsFinal (s : RevisionState) : Prop := s ≠ .validating ∧ s ≠ .pending

instance (s : RevisionState) : Decidable s.IsFinal := by
  unfold RevisionState.IsFinal
  infer_instance

theorem Health.revisionState_isFinal (h : Health) : h.revisionState.IsFinal := by
  cases h <;> decide

/-! ## Rows -/

structure TrustAuthority where
  id : Nat
  identityUri : String
  namespaceScope : String
  caFingerprint : String
  caCertPem : String
  policySignerFingerprint : Option String
  policySignerCertPem : Option String
  parentId : Option Nat
  maxDelegationDepth : Int
  state : AuthorityState
  notAfter : Int
deriving DecidableEq

structure Delegation where
  id : Nat
  grantId : String
  issuerAuthorityId : Nat
  subjectAuthorityId : Nat
  sequence : Int
  envelopeJson : PyJson
  grantSha256 : String
  state : RecordState
  notBefore : Int
  notAfter : Int
deriving DecidableEq

structure IssuedIdentity where
  id : Nat
  authorityId : Nat
  identityUri : String
  profile : IdentityProfile
  serial : String
  certSha256 : String
  certificatePem : String
  state : RecordState
  issuedAt : Int
  notAfter : Int
deriving DecidableEq

structure Revocation where
  id : Nat
  targetType : String
  targetReference : String
  reason : String
  sequence : Int
  state : RecordState
deriving DecidableEq

structure LinkCredential where
  id : Nat
  authorityId : Nat
  username : String
  passwordHash : String
  state : RecordState
  createdAt : Int
  expiresAt : Int
  rotatedAt : Option Int
deriving DecidableEq

structure PkiInvitation where
  id : Nat
  tokenHash : String
  childName : String
  namespace_ : String
  maxDelegationDepth : Int
  expiresAt : Int
  usedAt : Option Int
  caCsrSha256 : Option String
  transportCsrSha256 : Option String
  policyCsrSha256 : Option String
  authorityId : Option Nat
deriving DecidableEq

structure FederatedChild where
  id : Nat
  name : String
  namespace_ : String
  lastStatus : Option Health
  lastStatusVersion : Option Int
  lastStatusAt : Option Int
  lastStatusError : Option String
  certSha256 : Option String
  maxDelegationDepth : Int
deriving DecidableEq

structure ConfigRevision where
  id : Nat
  targetNamespace : String
  version : Int
  source : String
  state : RevisionState
  configSha256 : String
  detail : Option String
  createdAt : Int
  completedAt : Option Int
deriving DecidableEq

/-- The tables. -/
structure Db where
  authorities : List TrustAuthority
  delegations : List Delegation
  identities : List IssuedIdentity
  revocations : List Revocation
  credentials : List LinkCredential
  invitations : List PkiInvitation
  children : List FederatedChild
  revisions : List ConfigRevision
  nextId : Nat
deriving DecidableEq

/-- The database without any row. -/
def Db.empty : Db := ⟨[], [], [], [], [], [], [], [], 0⟩

/-! ## Queries -/

/-- The row with the greatest key, the first of them on a tie: `ORDER BY key DESC LIMIT 1`. -/
def latestBy {α : Type} (key : α → Int) : List α → Option α
  | [] => none
  | a :: as =>
    match latestBy key as with
    | none => some a
    | some b => if key a < key b then some b else some a

/-- `text[:n] if text else None`. -/
def clip (n : Nat) (text : Option String) : Option String :=
  match text with
  | some t => if t = "" then none else some (PyStr.take n t)
  | none => none

/-- Rewriting rows without changing their key rewrites the row that is found. -/
theorem find?_map_of_key {α β : Type} [BEq β] {key : α → β} {f : α → α}
    (hf : ∀ a, key (f a) = key a) (rows : List α) (k : β) :
    (rows.map f).find? (fun a => key a == k) = (rows.find? fun a => key a == k).map f := by
  have hcomp : ((fun a => key a == k) ∘ f) = fun a => key a == k := by
    funext a
    rw [Function.comp_apply, hf]
  rw [List.find?_map, hcomp]

/-- Rewriting the rows of one key rewrites the row that is found, when it is of that key. -/
theorem find?_map_ite {α β : Type} [DecidableEq β] {key : α → β} {f : α → α}
    (hf : ∀ a, key (f a) = key a) (rows : List α) (k written : β) :
    (rows.map fun a => if key a = written then f a else a).find? (fun a => key a == k) =
      (rows.find? fun a => key a == k).map fun a => if k = written then f a else a := by
  have hkey : ∀ a, key (if key a = written then f a else a) = key a := by
    intro a
    split
    next => exact hf a
    next => rfl
  rw [find?_map_of_key hkey]
  cases hfound : rows.find? fun a => key a == k with
  | none => rfl
  | some a =>
    have hk : key a = k := by simpa using List.find?_some hfound
    rw [Option.map_some, Option.map_some, hk]

theorem latestBy_mem {α : Type} {key : α → Int} : ∀ {as : List α} {a : α},
    latestBy key as = some a → a ∈ as
  | [], _, h => by simp [latestBy] at h
  | b :: bs, a, h => by
    simp only [latestBy] at h
    cases hb : latestBy key bs with
    | none =>
      simp only [hb, Option.some.injEq] at h
      exact h ▸ List.mem_cons_self
    | some c =>
      simp only [hb] at h
      split at h
      · exact .tail _ (latestBy_mem (Option.some.inj h ▸ hb))
      · exact (Option.some.inj h) ▸ List.mem_cons_self

theorem latestBy_eq_none {α : Type} {key : α → Int} {as : List α} :
    latestBy key as = none ↔ as = [] := by
  cases as with
  | nil => simp [latestBy]
  | cons a as =>
    simp only [latestBy, reduceCtorEq, iff_false]
    split
    · simp
    · split <;> simp

theorem latestBy_isSome {α : Type} {key : α → Int} {as : List α} {a : α} (h : a ∈ as) :
    ∃ b, latestBy key as = some b := by
  cases hl : latestBy key as with
  | none => simp [latestBy_eq_none.mp hl] at h
  | some b => exact ⟨b, rfl⟩

end Efdi

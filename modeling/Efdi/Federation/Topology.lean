import Efdi.Base.PyDict
import Efdi.Config.Fields
import Efdi.Federation.Status

/-!
# The topology store

`topology.py`.  Every router publishes a signed fact about itself, and a node keeps
the facts of the mesh in memory.  `normalizeFact` is the strict reading of a fact.
`recordFact` and `publishOwn` are the two writers of the store: the subscriber ages
entries out, makes room and writes; the publish loop writes its own entry only.

The store is a list of entries in the order of insertion, as a Python dict is.  Times
are readings of the monotonic clock in milliseconds.
-/

namespace Efdi.Federation

open Checks Option PyDict
open Trust (Libs TrustError VerifiedAuthority verifyTrustChain)

/-! ## Facts -/

def staleAfterMs : Int := 15 * 3 * 1000

def maxNodes : Nat := 4096

def maxChildren : Nat := 256

/-- `_NAMESPACE_RE.fullmatch`. -/
def namespaceOk (s : String) : Bool := PyStr.classMatch pathChar 1 255 s

/-- `[0-9a-fA-F]{1,64}` matched in full. -/
def zidOk (s : String) : Bool :=
  PyStr.classMatch (fun c => c.isDigit || ('a' ≤ c && c ≤ 'f') || ('A' ≤ c && c ≤ 'F')) 1 64 s

/-- `[a-z0-9-]{1,16}` matched in full. -/
def protocolOk (s : String) : Bool :=
  PyStr.classMatch (fun c => c.isLower || c.isDigit || c == '-') 1 16 s

/-- A link of a router to a neighbor. -/
structure Neighbor where
  routerZid : String
  whatami : String
  /-- `None`, an integer or a boolean. -/
  linkCount : PyJson
  protocols : List String
deriving DecidableEq

/-- A normalized fact. -/
structure Fact where
  namespace_ : String
  routerZid : Option String
  parentNamespace : Option String
  role : String
  children : List String
  healthy : Bool
  neighbors : List Neighbor
  configFields : Option ConfigFields
  version : Int
  ts : PyFloat
deriving DecidableEq

/-- `sorted(set(texts))`. -/
def sortedSet (texts : List String) : List String :=
  texts.dedup.mergeSort fun a b => decide (a ≤ b)

/-- The link count of a neighbor: a Python `int` from 0 to 128, `True` and `False` included. -/
def safeLinkCount (v : PyJson) : PyJson :=
  match v with
  | .int n => if 0 ≤ n ∧ n ≤ 128 then v else .null
  | .bool _ => v
  | _ => .null

/-- The safe part of one neighbor. -/
def safeNeighbor (item : PyJson) : Option Neighbor := do
  require item.isDict
  let zid ← (item.get? "router_zid").bind PyJson.str?
  require (zidOk zid)
  let whatami :=
    ((item.getD "whatami" (.str "unknown")).str?.filter fun s => PyStr.len s ≤ 16).getD "unknown"
  let protocols := ((item.getD "protocols" .null).list?.getD []).take 8
  return {
    routerZid := zid
    whatami
    linkCount := safeLinkCount (item.getD "link_count" .null)
    protocols := sortedSet
      ((protocols.filterMap fun p => p.str?.map PyStr.lower).filter protocolOk) }

/-- `_safe_neighbors`. -/
def safeNeighbors (value : PyJson) : List Neighbor :=
  ((value.list?.getD []).take 128).filterMap safeNeighbor

/-- `_normalize_fact`, `none` when the fact is refused. -/
def normalizeFact (P : Leaves) (fact : PyJson) : Option Fact := do
  let namespace_ ← (fact.get? "namespace").bind PyJson.str?
  require (namespaceOk namespace_)
  let timestamp :=
    match fact.getD "ts" (.float (.finite 0)) with
    | .int n => .int n
    | .float x => .float x
    | _ => .float (.finite 0)
  let ts ← P.float timestamp
  return {
    namespace_
    routerZid := ((fact.get? "router_zid").bind PyJson.str?).filter zidOk
    parentNamespace := ((fact.get? "parent_namespace").bind PyJson.str?).filter namespaceOk
    role := ((fact.getD "role" (.str "pod")).str?.filter fun s => PyStr.len s ≤ 32).getD "pod"
    children := ((((fact.getD "children" (.list [])).list?.getD []).filterMap PyJson.str?).filter
      namespaceOk).take maxChildren
    healthy := (fact.getD "healthy" (.bool false)).truthy
    neighbors := safeNeighbors (fact.getD "neighbors" .null)
    configFields := (configModelValidate P (fact.getD "config_fields" .null)).filter
      (·.partnerNamespace == namespace_)
    version := (fact.getD "version" (.int 0)).int?.getD 0
    ts }

/-! ## The store -/

/-- An entry of the store. -/
structure TopologyEntry where
  fact : Fact
  lastSeen : Int
  verified : Bool
deriving DecidableEq

/-- `_TOPOLOGY`: the entries by namespace. -/
abbrev Topology := PyDict String TopologyEntry

namespace Topology

/-- Pop the entries that were not seen for four stale intervals. -/
def age (t : Topology) (now : Int) : Topology :=
  t.filter fun _ entry => !decide (now - entry.lastSeen > staleAfterMs * 4)

/-- `min(_TOPOLOGY, key=last_seen)`: the first key with the least time. -/
def oldest : List (String × TopologyEntry) → Option (String × TopologyEntry)
  | [] => none
  | e :: entries =>
    match oldest entries with
    | some f => if f.2.lastSeen < e.2.lastSeen then some f else some e
    | none => some e

/-- Pop the oldest entry when a new namespace finds the store full. -/
def makeRoom (t : Topology) (ns : String) : Topology :=
  if !t.contains ns && decide (t.length ≥ maxNodes) then
    match oldest t.entries with
    | some e => t.pop e.1
    | none => t
  else t

/-- The writer of the subscriber. -/
def recordFact (t : Topology) (fact : Fact) (now : Int) : Topology :=
  ((t.age now).makeRoom fact.namespace_).set fact.namespace_ ⟨fact, now, true⟩

/-- The writer of the publish loop, which stores the own fact under the own namespace. -/
def publishOwn (t : Topology) (ownNamespace : String) (fact : Fact) (now : Int) : Topology :=
  t.set ownNamespace ⟨fact, now, true⟩

end Topology

/-! ## Verifying a fact -/

section Verify

variable (L : Libs) (P : Leaves) (env : Env)

/-- The certificate that must have signed a fact of another router. -/
def topologySigner (db : Db) (topicNamespace : String) (envelope : PyJson) (now : Int) :
    Option String := do
  let proof ← attachedChain envelope
  let anchor ← anchorOf db proof
  let authority ← (verifyTrustChain L proof anchor (revokedReferences db) now).toOption
  let identity ← (env.identity topicNamespace).toOption
  require (authority.identityUri == identity)
  require (authority.effectiveGrant.any (·.control.contains .topology))
  return authority.policySignerCertPem

/-- The fact that `_verify_and_record_topology` records, if any.  The own certificate is
`none` when its file cannot be read. -/
def acceptedFact (db : Db) (ownPolicyCert : Option String) (topicNamespace : String)
    (envelope : PyJson) (now : Int) : Option Fact := do
  let signerPem ←
    if topicNamespace = env.ownNamespace then ownPolicyCert
    else topologySigner L env db topicNamespace envelope now
  let body ← (verifyEnvelope L envelope signerPem none .topology now).toOption
  let fact ← normalizeFact P body
  require (topicNamespace == fact.namespace_)
  return fact

/-- `_verify_and_record_topology`, at a time of the world and a reading of the clock. -/
def verifyAndRecordTopology (db : Db) (ownPolicyCert : Option String) (t : Topology)
    (topicNamespace : String) (envelope : PyJson) (now monotonic : Int) : Topology :=
  match acceptedFact L P env db ownPolicyCert topicNamespace envelope now with
  | some fact => t.recordFact fact monotonic
  | none => t

end Verify

variable {L : Libs} {P : Leaves} {env : Env}

theorem topologySigner_eq_some_iff {db : Db} {topicNamespace : String} {envelope : PyJson}
    {now : Int} {pem : String} :
    topologySigner L env db topicNamespace envelope now = some pem ↔
      ∃ authority, provenAuthority L db envelope now = .ok (some authority) ∧
        env.identity topicNamespace = .ok authority.identityUri ∧
        (∃ grant, authority.effectiveGrant = some grant ∧
          Trust.ControlAction.topology ∈ grant.control) ∧
        authority.policySignerCertPem = pem := by
  simp only [topologySigner, bind_eq_bind, bind_eq_some_iff, require_eq_some,
    toOption_eq_some_iff, pure_def, some.injEq, beq_iff_eq,
    provenAuthority_eq_some_iff, any_eq_true, List.contains_iff_mem]
  constructor
  · rintro ⟨proof, hproof, anchor, hanchor, authority, hver, identity, hid, _, heq, _, hctl, rfl⟩
    exact ⟨authority, ⟨proof, anchor, hproof, hanchor, hver⟩, heq ▸ hid, hctl, rfl⟩
  · rintro ⟨authority, ⟨proof, anchor, hproof, hanchor, hver⟩, hid, hctl, rfl⟩
    exact ⟨proof, hproof, anchor, hanchor, authority, hver, _, hid, (), rfl, (), hctl, rfl⟩

/-- The fact of another router is accepted when its signer is known and signed it. -/
theorem acceptedFact_eq_some_iff {db : Db} {ownPolicyCert : Option String}
    {topicNamespace : String} (hne : topicNamespace ≠ env.ownNamespace) {envelope : PyJson}
    {now : Int} {fact : Fact} :
    acceptedFact L P env db ownPolicyCert topicNamespace envelope now = some fact ↔
      ∃ pem body, topologySigner L env db topicNamespace envelope now = some pem ∧
        verifyEnvelope L envelope pem none .topology now = .ok body ∧
        normalizeFact P body = some fact ∧ fact.namespace_ = topicNamespace := by
  simp only [acceptedFact, if_neg hne, bind_eq_bind, bind_eq_some_iff,
    require_eq_some, toOption_eq_some_iff, pure_def, some.injEq, beq_iff_eq]
  constructor
  · rintro ⟨pem, hpem, body, hbody, f, hf, _, hns, rfl⟩
    exact ⟨pem, body, hpem, hbody, hf, hns.symm⟩
  · rintro ⟨pem, body, hpem, hbody, hf, hns⟩
    exact ⟨pem, hpem, body, hbody, fact, hf, (), hns.symm, rfl⟩

/-! ## The laws of the store -/

namespace Topology

theorem oldest_mem : ∀ {entries : List (String × TopologyEntry)} {e : String × TopologyEntry},
    oldest entries = some e → e ∈ entries
  | [], _, h => by cases h
  | f :: entries, e, h => by
    rw [oldest] at h
    cases hrest : oldest entries with
    | none =>
      rw [hrest] at h
      exact some.inj h ▸ List.mem_cons_self
    | some g =>
      rw [hrest] at h
      dsimp only at h
      split at h
      · exact List.mem_cons_of_mem f (oldest_mem (some.inj h ▸ hrest))
      · exact some.inj h ▸ List.mem_cons_self

/-- Making room for a namespace leaves an entry as it is or pops it, and never pops the
entry of that namespace. -/
theorem get?_makeRoom (t : Topology) (ns other : String) :
    (t.makeRoom ns).get? other = t.get? other ∨
      (other ≠ ns ∧ (t.makeRoom ns).get? other = none) := by
  rw [makeRoom]
  split
  next hfull =>
    split
    next e he =>
      by_cases hother : other = e.1
      · subst hother
        have hmem := get?_eq_some_iff.mpr (oldest_mem he)
        refine Or.inr ⟨?_, get?_pop_self t e.1⟩
        rintro rfl
        simp [contains, hmem] at hfull
      · exact Or.inl (get?_pop_of_ne t hother)
    next => exact Or.inl rfl
  next => exact Or.inl rfl

/-- After making room a new namespace fits. -/
theorem length_makeRoom {t : Topology} {ns : String} (h : t.length ≤ maxNodes) :
    (t.makeRoom ns).length ≤ maxNodes ∧
      ((t.makeRoom ns).contains ns = false → (t.makeRoom ns).length < maxNodes) := by
  rw [makeRoom]
  split
  next hfull =>
    cases he : oldest t.entries with
    | none =>
      have hpos : maxNodes ≤ t.length := by
        simp only [Bool.and_eq_true, decide_eq_true_eq] at hfull
        exact hfull.2
      cases hentries : t.entries with
      | nil => simp [length, hentries, maxNodes] at hpos
      | cons e entries =>
        rw [hentries, oldest] at he
        split at he
        · split at he <;> cases he
        · cases he
    | some e =>
      have hin : t.contains e.1 = true := by
        rw [contains, get?_eq_some_iff.mpr (oldest_mem he)]
        rfl
      have hlt := length_pop_lt hin
      exact ⟨by show (t.pop e.1).length ≤ maxNodes; omega,
        fun _ => by show (t.pop e.1).length < maxNodes; omega⟩
  next hfits =>
    refine ⟨h, fun hnot => ?_⟩
    simp only [hnot, Bool.not_false, Bool.true_and, decide_eq_true_eq] at hfits
    omega

variable {t : Topology} {fact : Fact} {now : Int}

/-- The subscriber never makes the store larger than its bound. -/
theorem length_recordFact (h : t.length ≤ maxNodes) :
    (t.recordFact fact now).length ≤ maxNodes := by
  have hage : (t.age now).length ≤ maxNodes := (length_filter_le _ _).trans h
  have hroom := @length_makeRoom (t.age now) fact.namespace_ hage
  obtain ⟨hle, hlt⟩ := hroom
  rw [recordFact, length_set]
  split
  · exact hle
  next hnot => exact hlt (by simpa using hnot)

/-- The publish loop makes the store larger only when its own entry is absent. -/
theorem length_publishOwn_le_iff {ns : String} (h : t.length ≤ maxNodes) :
    (t.publishOwn ns fact now).length ≤ maxNodes ↔
      t.contains ns = true ∨ t.length < maxNodes := by
  rw [publishOwn, length_set]
  split
  next hin => simp [hin, h]
  next hnot =>
    simp only [hnot, Bool.false_eq_true, false_or]
    omega

@[simp] theorem get?_recordFact_self (t : Topology) (fact : Fact) (now : Int) :
    (t.recordFact fact now).get? fact.namespace_ = some ⟨fact, now, true⟩ :=
  get?_set_self _ _ _

/-- A fact of one namespace leaves the entry of another as it is or pops it. -/
theorem get?_recordFact_of_ne {other : String} (hne : other ≠ fact.namespace_) :
    (t.recordFact fact now).get? other = t.get? other ∨
      (t.recordFact fact now).get? other = none := by
  rw [recordFact, get?_set_of_ne _ hne]
  rcases get?_makeRoom (t.age now) fact.namespace_ other with h | ⟨_, h⟩
  · rw [h, age, get?_filter]
    cases t.get? other with
    | none => exact Or.inl rfl
    | some entry =>
      cases hp : (!decide (now - entry.lastSeen > staleAfterMs * 4)) with
      | true => exact Or.inl (by simp [Option.filter, hp])
      | false => exact Or.inr (by simp [Option.filter, hp])
  · exact Or.inr h

end Topology

end Efdi.Federation

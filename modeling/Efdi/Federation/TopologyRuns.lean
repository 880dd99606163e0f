import Efdi.Federation.Topology

/-!
# Runs of the topology store

The store keeps no history, so what it should keep is said with a ghost component: for
each namespace the facts accepted since its entry was last evicted.  A run of
deliveries and own publications is good when the stored fact is the latest accepted
one, no redelivery refreshes an entry, and the store keeps to its bound.

Neither writer compares versions, and the publish loop does not look at the bound.
`topologyRun_good_iff` states the exact condition under which a run is good all the
same.
-/

namespace Efdi.Federation

open Runs (Always Guarded)
open Trust (Libs)

/-- The store with the facts accepted since the last eviction. -/
structure TopologyNode where
  store : Topology
  accepted : String → List Fact

/-- The node after a start: nothing is stored and nothing was accepted. -/
def TopologyNode.empty : TopologyNode := ⟨PyDict.empty, fun _ => []⟩

/-- What happens at a node.  A received envelope is verified against the trust store of
its moment; an own fact is published. -/
inductive TopologyEvent where
  | receive (db : Db) (ownPolicyCert : Option String) (topicNamespace : String)
      (envelope : PyJson) (now monotonic : Int)
  | publish (fact : Fact) (monotonic : Int)

/-- The ghost history after a fact was written under a namespace.  The history of an entry
that was evicted is forgotten. -/
def remember (n : TopologyNode) (kept store' : Topology) (ns : String) (fact : Fact) :
    String → List Fact := fun other =>
  if other = ns then (if kept.contains ns then n.accepted ns else []) ++ [fact]
  else if store'.contains other then n.accepted other else []

/-- The subscriber writes a fact.  The entries that survive are those that are not aged
out. -/
def TopologyNode.record (n : TopologyNode) (fact : Fact) (monotonic : Int) : TopologyNode :=
  let store' := n.store.recordFact fact monotonic
  ⟨store', remember n (n.store.age monotonic) store' fact.namespace_ fact⟩

/-- The publish loop writes the own fact. -/
def TopologyNode.publish (n : TopologyNode) (ownNamespace : String) (fact : Fact)
    (monotonic : Int) : TopologyNode :=
  let store' := n.store.publishOwn ownNamespace fact monotonic
  ⟨store', remember n n.store store' ownNamespace fact⟩

section

variable (L : Libs) (P : Leaves) (env : Env)

/-- One step of a node. -/
def topologyStep (n : TopologyNode) : TopologyEvent → TopologyNode
  | .receive db cert topic envelope now monotonic =>
    match acceptedFact L P env db cert topic envelope now with
    | some fact => n.record fact monotonic
    | none => n
  | .publish fact monotonic => n.publish env.ownNamespace fact monotonic

/-- The store of a step is the one the two writers of the source leave. -/
theorem store_topologyStep (n : TopologyNode) (e : TopologyEvent) :
    (topologyStep L P env n e).store =
      match e with
      | .receive db cert topic envelope now monotonic =>
        verifyAndRecordTopology L P env db cert n.store topic envelope now monotonic
      | .publish fact monotonic => n.store.publishOwn env.ownNamespace fact monotonic := by
  cases e with
  | receive db cert topic envelope now monotonic =>
    simp only [topologyStep, verifyAndRecordTopology]
    cases acceptedFact L P env db cert topic envelope now with
    | none => rfl
    | some fact => rfl
  | publish fact monotonic => rfl

/-! ## What a good run is -/

/-- The stored fact of a namespace has the greatest version among the accepted ones. -/
def Latest (n : TopologyNode) : Prop :=
  ∀ ns entry, n.store.get? ns = some entry →
    ∀ fact ∈ n.accepted ns, fact.version ≤ entry.fact.version

/-- The store keeps to its bound. -/
def Bounded (n : TopologyNode) : Prop := n.store.length ≤ maxNodes

/-- A fact that was accepted before does not refresh the entry of its namespace. -/
def NoRefresh (n : TopologyNode) : TopologyEvent → Prop
  | .receive db cert topic envelope now monotonic =>
    ∀ fact, acceptedFact L P env db cert topic envelope now = some fact →
      fact ∈ n.accepted fact.namespace_ →
        ∀ entry, (n.store.age monotonic).get? fact.namespace_ = some entry →
          ∀ entry', (n.record fact monotonic).store.get? fact.namespace_ = some entry' →
            entry'.lastSeen = entry.lastSeen
  | .publish _ _ => True

/-- Every state is latest and bounded, and no step refreshes an entry by an old fact. -/
def GoodRun (n : TopologyNode) (es : List TopologyEvent) : Prop :=
  Always (topologyStep L P env) (fun n => Latest n ∧ Bounded n) n es ∧
    Guarded (topologyStep L P env) (NoRefresh L P env) n es

/-! ## The condition on a step -/

/-- The fact is not older than the one stored for its namespace. -/
def NotOlder (store : Topology) (ns : String) (fact : Fact) : Prop :=
  ∀ entry, store.get? ns = some entry → entry.fact.version ≤ fact.version

/-- A delivered fact is not older than the stored one, and it is no redelivery, unless it
comes at the very time the entry was last seen.  An own fact is not older than the stored
one either, and finds its entry present or the store below its bound. -/
def InTurn (n : TopologyNode) : TopologyEvent → Prop
  | .receive db cert topic envelope now monotonic =>
    ∀ fact, acceptedFact L P env db cert topic envelope now = some fact →
      NotOlder (n.store.age monotonic) fact.namespace_ fact ∧
      ∀ entry, (n.store.age monotonic).get? fact.namespace_ = some entry →
        fact ∈ n.accepted fact.namespace_ → entry.lastSeen = monotonic
  | .publish fact _ =>
    NotOlder n.store env.ownNamespace fact ∧
      (n.store.contains env.ownNamespace = true ∨ n.store.length < maxNodes)

end

/-! ## One step -/

/-- The stored fact of a namespace was accepted since its last eviction. -/
def StoredAccepted (n : TopologyNode) : Prop :=
  ∀ ns entry, n.store.get? ns = some entry → entry.fact ∈ n.accepted ns

variable {L : Libs} {P : Leaves} {env : Env}

/-- The entries of a store of which some survive the writing of one namespace. -/
structure Write (n : TopologyNode) (kept store' : Topology) (ns : String) (fact : Fact) :
    Prop where
  own : ∃ entry, store'.get? ns = some entry ∧ entry.fact = fact
  kept : ∀ entry, kept.get? ns = some entry → n.store.get? ns = some entry
  others : ∀ other, other ≠ ns →
    store'.get? other = n.store.get? other ∨ store'.get? other = none

theorem write_record (n : TopologyNode) (fact : Fact) (monotonic : Int) :
    Write n (n.store.age monotonic) (n.store.recordFact fact monotonic) fact.namespace_ fact where
  own := ⟨_, Topology.get?_recordFact_self n.store fact monotonic, rfl⟩
  kept := by
    intro entry h
    rw [Topology.age, PyDict.get?_filter] at h
    exact (Option.filter_eq_some_iff.mp h).1
  others := fun _ hne => Topology.get?_recordFact_of_ne hne

theorem write_publish (n : TopologyNode) (ns : String) (fact : Fact) (monotonic : Int) :
    Write n n.store (n.store.publishOwn ns fact monotonic) ns fact where
  own := ⟨_, PyDict.get?_set_self _ _ _, rfl⟩
  kept := fun _ h => h
  others := fun _ hne => Or.inl (PyDict.get?_set_of_ne _ hne _)

section Write

variable {n : TopologyNode} {kept store' : Topology} {ns : String} {fact : Fact}

/-- The new fact is the last accepted one of its namespace. -/
theorem Write.storedAccepted (hw : Write n kept store' ns fact) (h : StoredAccepted n) :
    StoredAccepted ⟨store', remember n kept store' ns fact⟩ := by
  intro other entry hentry
  simp only [remember]
  by_cases hother : other = ns
  · subst hother
    obtain ⟨own, hown, hfact⟩ := hw.own
    obtain rfl : own = entry := Option.some.inj (hown.symm.trans hentry)
    rw [if_pos rfl, hfact]
    exact List.mem_append_right _ List.mem_cons_self
  · have hin : store'.contains other = true := by
      rw [PyDict.contains, hentry]
      rfl
    rw [if_neg hother, if_pos hin]
    rcases hw.others other hother with hsame | hnone
    · exact h other entry (hsame ▸ hentry)
    · rw [hnone] at hentry
      cases hentry

/-- A write keeps the store latest exactly when its fact is not older than the entry that
survives. -/
theorem Write.latest_iff (hw : Write n kept store' ns fact) (hs : StoredAccepted n)
    (hl : Latest n) :
    Latest ⟨store', remember n kept store' ns fact⟩ ↔ NotOlder kept ns fact := by
  obtain ⟨own, hown, hfact⟩ := hw.own
  constructor
  · intro h entry hentry
    have hin : kept.contains ns = true := by
      rw [PyDict.contains, hentry]
      rfl
    have hmem : entry.fact ∈ remember n kept store' ns fact ns := by
      rw [remember, if_pos rfl, if_pos hin]
      exact List.mem_append_left _ (hs ns entry (hw.kept entry hentry))
    exact hfact ▸ h ns own hown entry.fact hmem
  · intro h other entry hentry g hg
    simp only [remember] at hg
    by_cases hother : other = ns
    · subst hother
      obtain rfl : own = entry := Option.some.inj (hown.symm.trans hentry)
      rw [if_pos rfl] at hg
      rw [hfact]
      rcases List.mem_append.mp hg with hg | hg
      · split at hg
        next hin =>
          -- the old facts are below the entry that survives, and that one below the new fact
          obtain ⟨old, hold⟩ := Option.isSome_iff_exists.mp hin
          exact (hl other old (hw.kept old hold) g hg).trans (h old hold)
        · simp at hg
      · rw [List.mem_singleton.mp hg]
    · rw [if_neg hother] at hg
      split at hg
      next hin =>
        rcases hw.others other hother with hsame | hnone
        · exact hl other entry (hsame ▸ hentry) g hg
        · rw [hnone] at hentry
          cases hentry
      · simp at hg

end Write

/-- Every step keeps the stored facts accepted. -/
theorem storedAccepted_step {n : TopologyNode} (h : StoredAccepted n) (e : TopologyEvent) :
    StoredAccepted (topologyStep L P env n e) := by
  cases e with
  | receive db cert topic envelope now monotonic =>
    rw [topologyStep]
    cases acceptedFact L P env db cert topic envelope now with
    | none => exact h
    | some fact => exact (write_record n fact monotonic).storedAccepted h
  | publish fact monotonic =>
    exact (write_publish n env.ownNamespace fact monotonic).storedAccepted h

/-- A step from a good state is good exactly when its fact is in turn. -/
theorem goodStep_iff {n : TopologyNode} (hs : StoredAccepted n) (hl : Latest n)
    (hb : Bounded n) (e : TopologyEvent) :
    (Latest (topologyStep L P env n e) ∧ Bounded (topologyStep L P env n e)) ∧
        NoRefresh L P env n e ↔ InTurn L P env n e := by
  cases e with
  | receive db cert topic envelope now monotonic =>
    simp only [topologyStep, NoRefresh, InTurn]
    cases acceptedFact L P env db cert topic envelope now with
    | none => simp [hl, hb]
    | some fact =>
      have hlatest := (write_record n fact monotonic).latest_iff hs hl
      have hbound : Bounded (n.record fact monotonic) := Topology.length_recordFact hb
      have hself := Topology.get?_recordFact_self n.store fact monotonic
      constructor
      · rintro ⟨⟨hnew, _⟩, hkeep⟩ _ ⟨⟩
        refine ⟨hlatest.mp hnew, ?_⟩
        intro entry hentry hmem
        exact (hkeep fact rfl hmem entry hentry _ hself).symm
      · intro h
        obtain ⟨hnot, hseen⟩ := h fact rfl
        refine ⟨⟨hlatest.mpr hnot, hbound⟩, ?_⟩
        rintro _ ⟨⟩ hmem entry hentry entry' hentry'
        obtain rfl := Option.some.inj (hself.symm.trans hentry')
        exact (hseen entry hentry hmem).symm
  | publish fact monotonic =>
    have hlatest := (write_publish n env.ownNamespace fact monotonic).latest_iff hs hl
    simp only [NoRefresh, InTurn, and_true]
    exact and_congr hlatest (Topology.length_publishOwn_le_iff hb)

/-! ## Runs -/

/-- A run from a good state is good exactly when each of its facts is in turn. -/
theorem goodRun_iff : ∀ {es : List TopologyEvent} {n : TopologyNode}, StoredAccepted n →
    Latest n → Bounded n →
      (GoodRun L P env n es ↔ Guarded (topologyStep L P env) (InTurn L P env) n es)
  | [], n, _, hl, hb => by simp [GoodRun, Always, Guarded, hl, hb]
  | e :: es, n, hs, hl, hb => by
    have hstep := @goodStep_iff L P env n hs hl hb e
    constructor
    · rintro ⟨hall, hkeep⟩
      have hnext := hall.2.head
      have hturn := hstep.mp ⟨hnext, hkeep.1⟩
      exact ⟨hturn, (goodRun_iff (storedAccepted_step hs e) hnext.1 hnext.2).mp
        ⟨hall.2, hkeep.2⟩⟩
    · rintro ⟨hturn, hrest⟩
      obtain ⟨⟨hl', hb'⟩, hkeep⟩ := hstep.mpr hturn
      have hgood := (goodRun_iff (storedAccepted_step hs e) hl' hb').mpr hrest
      exact ⟨⟨⟨hl, hb⟩, hgood.1⟩, hkeep, hgood.2⟩

theorem storedAccepted_empty : StoredAccepted TopologyNode.empty := by
  intro ns entry h
  cases h

theorem latest_empty : Latest TopologyNode.empty := by
  intro ns entry h
  cases h

theorem bounded_empty : Bounded TopologyNode.empty := Nat.zero_le _

/-- From the start of a node, a run keeps the latest facts, refreshes no entry by a
redelivery and keeps to the bound exactly when each of its facts is in turn. -/
theorem topologyRun_good_iff (L : Libs) (P : Leaves) (env : Env) (es : List TopologyEvent) :
    GoodRun L P env TopologyNode.empty es ↔
      Guarded (topologyStep L P env) (InTurn L P env) TopologyNode.empty es :=
  goodRun_iff storedAccepted_empty latest_empty bounded_empty

/-! ## An old fact delivered last -/

/-- Conversions of the leaves that are integers or booleans already. -/
def plainLeaves : Leaves where
  int := PyJson.int?
  bool v := match v with
    | .bool b => some b
    | _ => none
  float v := match v with
    | .int n => some (.finite n)
    | .float x => some x
    | _ => none

/-- The payload of a fact of the root. -/
def factPayload (version : Int) : PyJson :=
  .dict [("namespace", .str "hq"), ("version", .int version)]

/-- The root of the family signed its facts of the versions 1 and 2. -/
def publishingFamily : Trust.Registry :=
  (Trust.Registry.family Trust.Registry.insideGrant).sign
    [("ZmFjdDE=", 1, signedBytes .topology (factPayload 1)),
     ("ZmFjdDI=", 1, signedBytes .topology (factPayload 2))]

/-- The delivery of a fact of the root to the root itself. -/
def factDelivery (version : Int) (signature : String) (time : Int) : TopologyEvent :=
  .receive Trust.Registry.familyStore (some (Trust.Registry.digest 1)) "hq"
    (.dict [("payload", factPayload version), ("signature", .str signature)]) time time

/-- The fact of version 1 is delivered after that of version 2 and replaces it. -/
theorem topologyRun_old_last : ¬GoodRun publishingFamily.libs plainLeaves familyEnv
    TopologyNode.empty [factDelivery 2 "ZmFjdDI=" 10, factDelivery 1 "ZmFjdDE=" 11] := by
  rw [goodRun_iff storedAccepted_empty latest_empty bounded_empty]
  rintro ⟨_, hturn, _⟩
  have hfact : ∃ fact, acceptedFact publishingFamily.libs plainLeaves familyEnv
      Trust.Registry.familyStore (some (Trust.Registry.digest 1)) "hq"
      (.dict [("payload", factPayload 1), ("signature", .str "ZmFjdDE=")]) 11 = some fact ∧
      fact.version = 1 ∧ fact.namespace_ = "hq" :=
    ⟨⟨"hq", none, none, "pod", [], false, [], none, 1, .finite 0⟩, by decide +kernel⟩
  obtain ⟨fact, haccepted, hversion, hns⟩ := hfact
  have hstored : ∃ entry, ((topologyStep publishingFamily.libs plainLeaves familyEnv
      TopologyNode.empty (factDelivery 2 "ZmFjdDI=" 10)).store.age 11).get? "hq" = some entry ∧
      entry.fact.version = 2 :=
    ⟨⟨⟨"hq", none, none, "pod", [], false, [], none, 2, .finite 0⟩, 10, true⟩,
      by decide +kernel⟩
  obtain ⟨entry, hentry, hold⟩ := hstored
  have hle := (hturn fact haccepted).1 entry (hns ▸ hentry)
  omega

end Efdi.Federation

import Mathlib.Data.List.Nodup

/-!
# Access control lists

A configuration has rules, subjects and policies.  A policy names rules and subjects by
their identifiers.  A session matches a subject when each attribute that the subject lists
has one of the listed values.  It gets the rules of the policies of the subjects it matches,
and a request is allowed when some allow rule covers it and no deny rule does.

What a key expression covers is a parameter.

The second half is about configurations made of blocks: a subject with rules of its own.
When the identifiers of the blocks are separate, a session that matches the subject of one
block is allowed what that block allows, whatever the other blocks are
(`ofBlocks_allowed_iff`).
-/

namespace AccessControl

open List

inductive Permission where
  | allow
  | deny
deriving DecidableEq, Repr

structure Rule (M F K : Type*) where
  id : String
  messages : List M
  flows : List F
  permission : Permission
  keyExprs : List K

/-- A subject, with the values it lists for some attributes. -/
structure Subject (A V : Type*) where
  id : String
  attributes : List (A × List V)

structure Policy where
  id : String
  rules : List String
  subjects : List String
deriving DecidableEq

structure Config (M F K A V : Type*) where
  rules : List (Rule M F K)
  subjects : List (Subject A V)
  policies : List Policy

/-- A message on a flow, with its key. -/
structure Request (M F Key : Type*) where
  message : M
  flow : F
  key : Key

variable {M F K Key A V : Type*} (covers : K → Key → Prop)

/-! ## Evaluation -/

/-- The rule is about the request. -/
def Rule.Covers (r : Rule M F K) (q : Request M F Key) : Prop :=
  q.message ∈ r.messages ∧ q.flow ∈ r.flows ∧ ∃ e ∈ r.keyExprs, covers e q.key

/-- Each attribute the subject lists has one of the listed values. -/
def Subject.Matches (s : Subject A V) (session : A → Option V) : Prop :=
  ∀ a ∈ s.attributes, ∃ v ∈ a.2, session a.1 = some v

/-- The session gets a rule from a policy of a subject it matches. -/
def Config.Gets (c : Config M F K A V) (session : A → Option V) (r : Rule M F K) : Prop :=
  r ∈ c.rules ∧ ∃ p ∈ c.policies, r.id ∈ p.rules ∧
    ∃ s ∈ c.subjects, s.id ∈ p.subjects ∧ s.Matches session

/-- Some allow rule covers the request and no deny rule does. -/
def Decides (gets : Rule M F K → Prop) (q : Request M F Key) : Prop :=
  (∃ r, gets r ∧ r.permission = .allow ∧ r.Covers covers q) ∧
    ¬∃ r, gets r ∧ r.permission = .deny ∧ r.Covers covers q

/-- The request of a session is allowed. -/
def Config.Allowed (c : Config M F K A V) (session : A → Option V) (q : Request M F Key) :
    Prop :=
  Decides covers (c.Gets session) q

variable {covers}

/-- The same rules allow the same. -/
theorem decides_congr {gets gets' : Rule M F K → Prop} (h : ∀ r, gets r ↔ gets' r)
    (q : Request M F Key) : Decides covers gets q ↔ Decides covers gets' q := by
  rw [funext fun r => propext (h r)]

/-- Nothing is allowed without an allow rule. -/
theorem not_decides {gets : Rule M F K → Prop} (h : ∀ r, gets r → r.permission = .deny)
    (q : Request M F Key) : ¬Decides covers gets q := by
  rintro ⟨⟨r, hr, hallow, -⟩, -⟩
  rw [h r hr] at hallow
  cases hallow

/-! ## Blocks -/

/-- A subject with its policy and the rules of the policy. -/
structure Block (M F K A V : Type*) where
  subject : Subject A V
  policyId : String
  rules : List (Rule M F K)

/-- The policy of a block. -/
def Block.policy (b : Block M F K A V) : Policy :=
  ⟨b.policyId, b.rules.map (·.id), [b.subject.id]⟩

/-- The configuration of a list of blocks. -/
def ofBlocks (bs : List (Block M F K A V)) : Config M F K A V where
  rules := bs.flatMap (·.rules)
  subjects := bs.map (·.subject)
  policies := bs.map Block.policy

/-- No identifier names two rules or two subjects. -/
structure Separate (bs : List (Block M F K A V)) : Prop where
  rules : ((bs.flatMap (·.rules)).map (·.id)).Nodup
  subjects : (bs.map (·.subject.id)).Nodup

variable {bs : List (Block M F K A V)}

/-- A session that matches the subject of one block only gets the rules of that block. -/
theorem ofBlocks_gets_iff (h : Separate bs) {b : Block M F K A V} (hb : b ∈ bs)
    {session : A → Option V} (hmatch : b.subject.Matches session)
    (honly : ∀ b' ∈ bs, b'.subject.Matches session → b' = b) (r : Rule M F K) :
    (ofBlocks bs).Gets session r ↔ r ∈ b.rules := by
  constructor
  · rintro ⟨hr, p, hp, hrule, s, hs, hsubject, hsession⟩
    obtain ⟨b₁, hb₁, rfl⟩ := mem_map.mp hp
    obtain ⟨b₂, hb₂, rfl⟩ := mem_map.mp hs
    -- the subject of the policy is the one that matches
    have hid : b₂.subject.id = b₁.subject.id := mem_singleton.mp hsubject
    obtain rfl : b₂ = b₁ := inj_on_of_nodup_map h.subjects hb₂ hb₁ hid
    obtain rfl : b₂ = b := honly b₂ hb₁ hsession
    obtain ⟨r', hr', hid'⟩ := mem_map.mp hrule
    have hmem : r' ∈ bs.flatMap (·.rules) := mem_flatMap.mpr ⟨b₂, hb₁, hr'⟩
    rwa [← inj_on_of_nodup_map h.rules hmem hr hid']
  · intro hr
    exact ⟨mem_flatMap.mpr ⟨b, hb, hr⟩, b.policy, mem_map_of_mem hb,
      mem_map_of_mem hr, b.subject, mem_map_of_mem hb, mem_singleton.mpr rfl,
      hmatch⟩

/-- What a block allows by its own rules. -/
def Block.Allows (covers : K → Key → Prop) (b : Block M F K A V) (q : Request M F Key) : Prop :=
  Decides covers (· ∈ b.rules) q

/-- A session that matches the subject of one block only is allowed what the block allows. -/
theorem ofBlocks_allowed_iff (h : Separate bs) {b : Block M F K A V} (hb : b ∈ bs)
    {session : A → Option V} (hmatch : b.subject.Matches session)
    (honly : ∀ b' ∈ bs, b'.subject.Matches session → b' = b) (q : Request M F Key) :
    (ofBlocks bs).Allowed covers session q ↔ b.Allows covers q :=
  decides_congr (ofBlocks_gets_iff h hb hmatch honly) q

/-- Rules are separate when each block has separate rules and names them for itself. -/
theorem nodup_ruleIds (hblock : ∀ b ∈ bs, (b.rules.map (·.id)).Nodup)
    (hpair : bs.Pairwise fun b b' => ∀ r ∈ b.rules, ∀ r' ∈ b'.rules, r.id ≠ r'.id) :
    ((bs.flatMap (·.rules)).map (·.id)).Nodup := by
  rw [map_flatMap, nodup_flatMap]
  refine ⟨hblock, hpair.imp fun hids => ?_⟩
  intro id hid hid'
  obtain ⟨r, hr, rfl⟩ := mem_map.mp hid
  obtain ⟨r', hr', heq⟩ := mem_map.mp hid'
  exact hids r hr r' hr' heq.symm

end AccessControl

import Efdi.Acl.Isolation
import Efdi.Trust.Scopes

/-!
# The compiled access control list grants no more than the delegations

A child writes keys of its publish scopes and its two control keys, and receives keys of its
subscribe scopes and its two configuration keys.  A quarantined peer does nothing.  What a
session of a peer is allowed is the same in every compilation that has the peer.

The control keys are texts without wildcards, because the namespace of a peer parses
(`plain_own`), so they cover themselves only.
-/

namespace Efdi.Acl

open List PyStr
open AccessControl (Subject Request)
open Trust (parseKeyScope ScopeOk)

variable {L : AclLibs}

/-! ## Key expressions -/

/-- A text without the wildcard characters of key expressions. -/
def Plain (text : String) : Prop := '*' ∉ text.toList ∧ '$' ∉ text.toList

instance (text : String) : Decidable (Plain text) :=
  inferInstanceAs (Decidable ('*' ∉ text.toList ∧ '$' ∉ text.toList))

/-- The key expressions of the router.  One without wildcards covers itself only. -/
structure KeyExprs where
  covers : String → String → Prop
  literal : ∀ e key, Plain e → covers e key → key = e

/-- Some scope covers the key. -/
def KeyExprs.Covered (K : KeyExprs) (scopes : List String) (key : String) : Prop :=
  ∃ scope ∈ scopes, K.covers scope key

theorem Plain.append {s t : String} (hs : Plain s) (ht : Plain t) : Plain (s ++ t) := by
  refine ⟨?_, ?_⟩ <;> rw [String.toList_append, mem_append, not_or]
  · exact ⟨hs.1, ht.1⟩
  · exact ⟨hs.2, ht.2⟩

/-- The root of the control keys of a peer. -/
def own (p : PeerPolicy) : String := PyStr.removeSuffix p.namespace_ "/**"

theorem plain_of_segments {parts : List String}
    (h : ∀ part ∈ parts, Trust.segmentOk part = true) : Plain (PyStr.join "/" parts) := by
  have hchar : ∀ c ∈ (join "/" parts).toList, c = '/' ∨ Trust.segmentChar c = true := by
    intro c hc
    rcases mem_join hc with hc | ⟨part, hpart, hc⟩
    · exact Or.inl (mem_singleton.mp hc)
    · have hok := h part hpart
      simp only [Trust.segmentOk, classMatch, Bool.and_eq_true, all_eq_true] at hok
      exact Or.inr (hok.2 c hc)
  refine ⟨fun hstar => ?_, fun hdollar => ?_⟩
  · rcases hchar _ hstar with h | h <;> exact absurd h (by decide)
  · rcases hchar _ hdollar with h | h <;> exact absurd h (by decide)

/-- A scope that parses has no wildcard before its terminal one. -/
theorem plain_removeSuffix {expression : String} (h : ScopeOk expression) :
    Plain (PyStr.removeSuffix expression "/**") := by
  obtain ⟨scope, hscope⟩ := h
  have hliteral := Trust.literalPath_of_parse hscope
  have hplain := plain_of_segments hliteral.2
  have hsplit := Trust.split_of_parseKeyScope hscope
  have hjoin : join "/" (split '/' expression) = expression :=
    join_split '/' expression
  rw [hsplit] at hjoin
  cases hsubtree : scope.subtree with
  | true =>
    rw [hsubtree, if_pos rfl, join_concat "/" "**" hliteral.1] at hjoin
    rw [← hjoin, show "/" ++ "**" = "/**" from rfl, removeSuffix_append _ _ (by decide)]
    exact hplain
  | false =>
    rw [hsubtree, if_neg (by decide)] at hjoin
    rw [hjoin] at hplain
    exact ⟨fun hc => hplain.1 (mem_of_mem_removeSuffix hc),
      fun hc => hplain.2 (mem_of_mem_removeSuffix hc)⟩

theorem namespace_parses (p : PeerPolicy) : ScopeOk p.namespace_ := by
  have hvalid := p.valid
  simp only [PeerFields.check, Checks.bind_eq_ok] at hvalid
  obtain ⟨_, _, _, _, _, hscope, _⟩ := hvalid
  rw [requireScope] at hscope
  cases hparse : parseKeyScope p.namespace_ with
  | error e => rw [hparse] at hscope; cases hscope
  | ok scope => exact ⟨scope, hparse⟩

theorem plain_own (p : PeerPolicy) : Plain (own p) := plain_removeSuffix (namespace_parses p)

/-! ## A child -/

theorem mem_sortedSet {e : String} {keyExprs : List String} :
    e ∈ sortedSet keyExprs ↔ e ∈ keyExprs := by
  rw [sortedSet, mem_insertionSort, mem_dedup]

variable {localNamespace : String} {p : PeerPolicy}

/-- What the block of a child allows is in one of its definitions. -/
theorem child_allows (hchild : p.relationship = .child) (hactive : p.quarantined = false)
    {covers : String → String → Prop} {q : Request Message Flow String}
    (h : (peerBlock L localNamespace p).Allows covers q) :
    ∃ row ∈ childDefinitions p, q.message ∈ row.messages ∧ q.flow ∈ row.flows ∧
      ∃ e ∈ row.scopes, covers e q.key := by
  obtain ⟨⟨r, hr, -, hmessage, hflow, e, he, hcovers⟩, -⟩ := h
  have hrules : (peerBlock L localNamespace p).rules =
      definedRules (stableId L "peer" p.grantId) (childDefinitions p) := by
    rw [peerBlock, peerRules, if_neg (by simp [hactive]), definitions, hchild]
  rw [hrules] at hr
  obtain ⟨row, hrow, rfl⟩ := mem_map.mp hr
  exact ⟨row, mem_of_mem_filter hrow, hmessage, hflow, e, mem_sortedSet.mp he, hcovers⟩

/-- A child writes keys of its publish scopes and its two control keys. -/
theorem child_writes (K : KeyExprs) (hchild : p.relationship = .child)
    (hactive : p.quarantined = false) {message : Message}
    (hmessage : message ∈ [Message.put, .delete]) {key : String}
    (h : (peerBlock L localNamespace p).Allows K.covers ⟨message, .ingress, key⟩) :
    K.Covered p.publish key ∨ key = own p ++ "/@config/status/v1" ∨
      key = own p ++ "/@topology" := by
  obtain ⟨row, hrow, hm, hf, e, he, hcovers⟩ := child_allows hchild hactive h
  have hin : ∀ {text : String}, Plain text → K.covers (own p ++ text) key →
      key = own p ++ text := fun htext => K.literal _ _ ((plain_own p).append htext)
  simp only [childDefinitions, mem_cons, not_mem_nil, or_false] at hrow hmessage
  rcases hrow with rfl | rfl | rfl | rfl | rfl | rfl
  · exact Or.inl ⟨e, he, hcovers⟩
  · simp at hf
  · rcases hmessage with rfl | rfl <;> simp at hm
  · simp at hf
  · rcases mem_pair.mp he with rfl | rfl
    · exact Or.inr (Or.inl (hin (by decide) hcovers))
    · exact Or.inr (Or.inr (hin (by decide) hcovers))
  · simp at hf

/-- A child receives keys of its subscribe scopes and its two configuration keys. -/
theorem child_receives (K : KeyExprs) (hchild : p.relationship = .child)
    (hactive : p.quarantined = false) {message : Message}
    (hmessage : message ∈ [Message.put, .delete, .reply]) {key : String}
    (h : (peerBlock L localNamespace p).Allows K.covers ⟨message, .egress, key⟩) :
    K.Covered p.subscribe key ∨ key = own p ++ "/@config/v1" ∨
      key = own p ++ "/@config/relay/v1" := by
  obtain ⟨row, hrow, hm, hf, e, he, hcovers⟩ := child_allows hchild hactive h
  have hin : ∀ {text : String}, Plain text → K.covers (own p ++ text) key →
      key = own p ++ text := fun htext => K.literal _ _ ((plain_own p).append htext)
  simp only [childDefinitions, mem_cons, not_mem_nil, or_false] at hrow hmessage
  rcases hrow with rfl | rfl | rfl | rfl | rfl | rfl
  · simp at hf
  · rcases hmessage with rfl | rfl | rfl <;> simp at hm
  · simp at hf
  · exact Or.inl ⟨e, he, hcovers⟩
  · simp at hf
  · rcases mem_pair.mp he with rfl | rfl
    · exact Or.inr (Or.inl (hin (by decide) hcovers))
    · exact Or.inr (Or.inr (hin (by decide) hcovers))

/-- A quarantined peer has no allow rule. -/
theorem quarantined_not_allows (h : p.quarantined = true) (covers : String → String → Prop)
    (q : Request Message Flow String) : ¬(peerBlock L localNamespace p).Allows covers q := by
  refine AccessControl.not_decides ?_ q
  intro r hr
  rw [peerBlock, peerRules, if_pos h] at hr
  rw [mem_singleton.mp hr]
  rfl

/-! ## The compilation -/

/-- The compiled list grants no more than the delegations, and each peer is isolated from the
others. -/
theorem compiledAcl_least_privilege (L : AclLibs) (K : KeyExprs)
    {localDataScope inboundScope federationRoot localNamespace : String}
    {peers : List PeerPolicy} {acl : CompiledAcl}
    (h : compileAcl L localDataScope inboundScope federationRoot localNamespace peers = .ok acl)
    (hgrants : DistinctGrants L peers) {protocol : String} (htls : protocol ≠ "tcp") :
    (∀ p ∈ peers, peerSubject L p ∈ acl.config.subjects ∧
      (∀ s ∈ acl.config.subjects,
        s.Matches (peerSession protocol p) ↔ s = peerSubject L p) ∧
      ∀ q ∈ peers, peerSubject L q = peerSubject L p → q = p) ∧
    (∀ p ∈ peers, p.relationship = .child → p.quarantined = false → ∀ key,
      (∀ message ∈ [Message.put, .delete],
        acl.config.Allowed K.covers (peerSession protocol p) ⟨message, .ingress, key⟩ →
          K.Covered p.publish key ∨ key = own p ++ "/@config/status/v1" ∨
            key = own p ++ "/@topology") ∧
      ∀ message ∈ [Message.put, .delete, .reply],
        acl.config.Allowed K.covers (peerSession protocol p) ⟨message, .egress, key⟩ →
          K.Covered p.subscribe key ∨ key = own p ++ "/@config/v1" ∨
            key = own p ++ "/@config/relay/v1") ∧
    (∀ p ∈ peers, p.quarantined = true → ∀ request,
      ¬acl.config.Allowed K.covers (peerSession protocol p) request) ∧
    ∀ (others : List PeerPolicy) (acl' : CompiledAcl),
      compileAcl L localDataScope inboundScope federationRoot localNamespace others = .ok acl' →
      DistinctGrants L others → ∀ p ∈ peers, p ∈ others → ∀ request,
        (acl.config.Allowed K.covers (peerSession protocol p) request ↔
          acl'.config.Allowed K.covers (peerSession protocol p) request) := by
  have hallowed : ∀ p ∈ peers, ∀ request,
      acl.config.Allowed K.covers (peerSession protocol p) request →
        (peerBlock L localNamespace p).Allows K.covers request :=
    fun p hp request => (allowed_iff h hgrants hp htls request).mp
  obtain ⟨hconfig, hcns⟩ := compileAcl_ok h
  refine ⟨fun p hp => ⟨?_, ?_, ?_⟩, fun p hp hchild hactive key => ⟨?_, ?_⟩,
    fun p hp hquarantined request hreq => ?_, ?_⟩
  · rw [hconfig]
    exact List.mem_map_of_mem (f := (·.subject)) (mem_blocks hp)
  · intro s hs
    rw [hconfig] at hs
    obtain ⟨b, hb, rfl⟩ := List.mem_map.mp hs
    constructor
    · intro hmatch
      rw [(matches_iff hcns hp htls hb).mp hmatch]
      rfl
    · rintro heq
      rw [heq]
      exact peerSubject_matches.mpr ⟨rfl, fun _ => rfl⟩
  · intro q hq heq
    exact stem_inj hgrants hq hp (congrArg Subject.id heq)
  · exact fun message hmessage hreq =>
      child_writes K hchild hactive hmessage (hallowed p hp _ hreq)
  · exact fun message hmessage hreq =>
      child_receives K hchild hactive hmessage (hallowed p hp _ hreq)
  · exact quarantined_not_allows hquarantined _ _ (hallowed p hp request hreq)
  · intro others acl' h' hgrants' p hp hp' request
    rw [allowed_iff h hgrants hp htls, allowed_iff h' hgrants' hp' htls]

/-! ## Two children -/

/-- Key expressions where a terminal `/**` covers every key below. -/
def subtreeKeys : KeyExprs where
  covers e key := key = e ∨ ∃ root, e = root ++ "/**" ∧ PyStr.startsWith key root = true
  literal := by
    rintro e key hplain (rfl | ⟨root, rfl, -⟩)
    · rfl
    · exact absurd (by simp [String.toList_append]) hplain.1

/-- A child of the router `LTU/hq`. -/
def demoChild (name : String) (quarantined : Bool) : PeerFields where
  grantId := "grant-" ++ name
  identityUri := "spiffe://efdi/router/LTU/hq/" ++ name
  certCommonName := "router-" ++ name
  username := "link-" ++ name
  relationship := .child
  namespace_ := "LTU/hq/" ++ name ++ "/**"
  publish := ["LTU/hq/" ++ name ++ "/**"]
  subscribe := ["LTU/**"]
  quarantined

def activeChild : PeerPolicy := ⟨demoChild "a" false, by decide +kernel⟩

def quarantinedChild : PeerPolicy := ⟨demoChild "b" true, by decide +kernel⟩

/-- A quarantined child next to an active one is allowed nothing. -/
theorem compiledAcl_least_privilege_pair :
    ∃ acl, compileAcl paddedLibs "LTU/hq/**" "LTU/in/**" "LTU" "LTU/hq"
        [activeChild, quarantinedChild] = .ok acl ∧
      peerSubject paddedLibs activeChild ∈ acl.config.subjects ∧
      ∀ request,
        ¬acl.config.Allowed subtreeKeys.covers (peerSession "tls" quarantinedChild) request := by
  have hok : (compileAcl paddedLibs "LTU/hq/**" "LTU/in/**" "LTU" "LTU/hq"
      [activeChild, quarantinedChild]).isOk = true := by
    decide +kernel
  obtain ⟨acl, hacl⟩ := Checks.exists_of_isOk hok
  have hgrants : DistinctGrants paddedLibs [activeChild, quarantinedChild] :=
    ⟨by decide +kernel, by decide +kernel⟩
  obtain ⟨hsubjects, -, hquarantined, -⟩ :=
    compiledAcl_least_privilege paddedLibs subtreeKeys hacl hgrants (by decide : "tls" ≠ "tcp")
  exact ⟨acl, hacl, (hsubjects activeChild List.mem_cons_self).1,
    hquarantined quarantinedChild (List.mem_cons_of_mem _ List.mem_cons_self) rfl⟩

end Efdi.Acl

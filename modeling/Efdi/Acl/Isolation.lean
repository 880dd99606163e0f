import Efdi.Acl.Policy

/-!
# What the compiled access control list allows

The compiler produces one block for the loopback subject and one for each peer.  The
identifiers of a block come from the grant of its peer, so the blocks are separate when the
digests of the grants are (`separate_blocks`).  No two peers present one certificate name, so
a session of a peer matches the subject of that peer only, and what it is allowed depends on
that peer alone (`allowed_iff`).  All statements about a peer follow from that.
-/

namespace Efdi.Acl

open AccessControl (Rule Subject Config Block Separate Request Decides ofBlocks)
open Checks List
open Trust (parseKeyScope ScopeOk)

variable {L : AclLibs}

/-! ## The blocks of a compilation -/

/-- The block of the loopback subject. -/
def localBlock (localDataScope inboundScope federationRoot : String) : AclBlock where
  subject := ⟨"local-tcp", [(.linkProtocols, ["tcp"])]⟩
  policyId := "local-policy"
  rules := localRules localDataScope inboundScope federationRoot

/-- The block of a peer. -/
def peerBlock (L : AclLibs) (localNamespace : String) (peer : PeerPolicy) : AclBlock where
  subject := peerSubject L peer
  policyId := stableId L "peer" peer.grantId ++ "-policy"
  rules := peerRules L localNamespace peer

/-- The configuration in a state of the loop. -/
def Compilation.config (st : Compilation) : AclConfig := ⟨st.rules, st.subjects, st.policies⟩

variable {localNamespace localDataScope inboundScope federationRoot protocol : String}
  {peers : List PeerPolicy} {p : PeerPolicy}

/-- A step of the loop appends the block of its peer. -/
theorem compilePeer_ok {st st' : Compilation} {peer : PeerPolicy}
    (h : compilePeer L localNamespace st peer = .ok st') {bs : List AclBlock}
    (hbs : st.config = ofBlocks bs) :
    st'.config = ofBlocks (bs ++ [peerBlock L localNamespace peer]) ∧
      peer.certCommonName ∉ st.seenCns ∧ st'.seenCns = peer.certCommonName :: st.seenCns := by
  simp only [compilePeer, bind_eq_ok, rejectIf_eq_ok, pure_eq_ok] at h
  obtain ⟨_, _, _, hcn, rfl⟩ := h
  simp only [Compilation.config, ofBlocks, Config.mk.injEq] at hbs
  obtain ⟨hrules, hsubjects, hpolicies⟩ := hbs
  refine ⟨?_, by simpa using hcn, rfl⟩
  simp only [Compilation.config, ofBlocks, hrules, hsubjects, hpolicies, flatMap_append,
    map_append, flatMap_singleton, map_singleton]
  rfl

/-- The loop appends the blocks of the peers, whose certificate names are distinct. -/
theorem compilePeers_ok :
    ∀ {peers : List PeerPolicy} {st st' : Compilation} {bs : List AclBlock},
      st.config = ofBlocks bs →
      peers.foldlM (compilePeer L localNamespace) st = .ok st' →
        st'.config = ofBlocks (bs ++ peers.map (peerBlock L localNamespace)) ∧
          (peers.map (·.certCommonName)).Nodup ∧
          ∀ p ∈ peers, p.certCommonName ∉ st.seenCns
  | [], st, st', bs, hbs, h => by
    rw [List.foldlM_nil, pure_eq_ok] at h
    subst h
    simpa using hbs
  | peer :: peers, st, st', bs, hbs, h => by
    rw [List.foldlM_cons, bind_eq_ok] at h
    obtain ⟨st₁, hstep, hrest⟩ := h
    obtain ⟨hconfig, hcn, hseen⟩ := compilePeer_ok hstep hbs
    obtain ⟨hfinal, hnodup, hfresh⟩ := compilePeers_ok hconfig hrest
    rw [hseen] at hfresh
    refine ⟨by rw [hfinal, append_assoc]; rfl, ?_, ?_⟩
    · rw [map_cons, nodup_cons]
      refine ⟨?_, hnodup⟩
      intro hmem
      obtain ⟨p, hp, heq⟩ := mem_map.mp hmem
      exact hfresh p hp (heq ▸ .head _)
    · intro p hp
      rcases mem_cons.mp hp with rfl | hp
      · exact hcn
      · exact fun hmem => hfresh p hp (.tail _ hmem)

/-- The blocks of a compilation, in its order. -/
def blocks (L : AclLibs) (localDataScope inboundScope federationRoot localNamespace : String)
    (peers : List PeerPolicy) : List AclBlock :=
  localBlock localDataScope inboundScope federationRoot ::
    (peers.insertionSort PeerPolicy.le).map (peerBlock L localNamespace)

/-- A compilation that succeeds is that of its blocks, and the certificate names of its peers
are distinct. -/
theorem compileAcl_ok {acl : CompiledAcl}
    (h : compileAcl L localDataScope inboundScope federationRoot localNamespace peers = .ok acl) :
    acl.config =
        ofBlocks (blocks L localDataScope inboundScope federationRoot localNamespace peers) ∧
      (peers.map (·.certCommonName)).Nodup := by
  simp only [compileAcl, bind_eq_ok, pure_eq_ok] at h
  obtain ⟨_, _, _, _, _, _, st, hfold, rfl⟩ := h
  have hinitial : (Compilation.initial localDataScope inboundScope federationRoot).config =
      ofBlocks [localBlock localDataScope inboundScope federationRoot] := rfl
  obtain ⟨hconfig, hnodup, -⟩ := compilePeers_ok hinitial hfold
  refine ⟨hconfig, ?_⟩
  exact ((perm_insertionSort _ peers).map _).nodup_iff.mp hnodup

/-! ## Identifiers -/

/-- The grants of the peers are distinct, and so are their truncated digests. -/
structure DistinctGrants (L : AclLibs) (peers : List PeerPolicy) : Prop where
  ids : (peers.map (·.grantId)).Nodup
  digests : ∀ p ∈ peers, ∀ q ∈ peers,
    PyStr.take 20 (L.sha256 p.grantId) = PyStr.take 20 (L.sha256 q.grantId) →
      p.grantId = q.grantId

theorem len_stableId (prefix_ grantId : String) :
    PyStr.len (stableId L prefix_ grantId) = PyStr.len prefix_ + 21 := by
  have hlen := L.sha256_len grantId
  rw [PyStr.len] at hlen
  simp only [PyStr.len, stableId, PyStr.take, String.toList_append, length_append,
    String.toList_ofList, length_take, hlen]
  rfl

theorem stem_inj (hgrants : DistinctGrants L peers) {q : PeerPolicy} (hp : p ∈ peers)
    (hq : q ∈ peers) {t t' : String}
    (h : stableId L "peer" p.grantId ++ t = stableId L "peer" q.grantId ++ t') : p = q := by
  have hstem := (PyStr.append_inj (by rw [len_stableId, len_stableId]) h).1
  have hdigest := (PyStr.append_inj rfl hstem).2
  exact inj_on_of_nodup_map hgrants.ids hp hq (hgrants.digests p hp q hq hdigest)

/-- The identifiers of a block continue the stem of its peer. -/
theorem ruleId_of_mem {r : AclRule} (h : r ∈ peerRules L localNamespace p) :
    ∃ suffix, r.id = stableId L "peer" p.grantId ++ ("-" ++ suffix) := by
  rw [peerRules] at h
  split at h
  · rw [mem_singleton.mp h]
    exact ⟨"quarantine", rfl⟩
  · obtain ⟨row, -, rfl⟩ := mem_map.mp h
    exact ⟨row.suffix, by rw [rule, String.append_assoc]⟩

theorem nodup_definedRules (stem : String) {rows : List RuleDefinition}
    (h : (rows.map (·.suffix)).Nodup) : ((definedRules stem rows).map (·.id)).Nodup := by
  have hids : (definedRules stem rows).map (·.id) =
      ((rows.filter (!·.scopes.isEmpty)).map (·.suffix)).map fun suffix =>
        stem ++ "-" ++ suffix := by
    simp [definedRules, rule, Function.comp_def]
  rw [hids]
  refine List.Nodup.map ?_ (h.sublist (filter_sublist.map _))
  intro suffix suffix' heq
  exact (PyStr.append_inj rfl heq).2

/-- The rules of a peer have distinct identifiers. -/
theorem nodup_peerRules (localNamespace : String) (p : PeerPolicy) :
    ((peerRules L localNamespace p).map (·.id)).Nodup := by
  rw [peerRules]
  split
  · simp
  · refine nodup_definedRules _ ?_
    cases hrel : p.relationship with
    | child => simp [definitions, hrel, childDefinitions]
    | parent => simp [definitions, hrel, parentDefinitions]

/-- A stem of a peer does not start as the local identifiers do. -/
theorem head_stem (p : PeerPolicy) (t : String) :
    (stableId L "peer" p.grantId ++ t).toList.head? = some 'p' := by
  simp [stableId, String.toList_append]

theorem head_localRule {r : AclRule}
    (h : r ∈ localRules localDataScope inboundScope federationRoot) :
    r.id.toList.head? = some 'l' := by
  simp only [localRules, rule, mem_cons, not_mem_nil, or_false] at h
  rcases h with rfl | rfl | rfl | rfl <;> simp

theorem nodup_localRules (localDataScope inboundScope federationRoot : String) :
    ((localRules localDataScope inboundScope federationRoot).map (·.id)).Nodup := by
  simp [localRules, rule]

/-- The blocks of a compilation share no identifier. -/
theorem separate_blocks (hgrants : DistinctGrants L peers)
    (localDataScope inboundScope federationRoot localNamespace : String) :
    Separate (blocks L localDataScope inboundScope federationRoot localNamespace peers) := by
  have hmem : ∀ p ∈ peers.insertionSort PeerPolicy.le, p ∈ peers := fun p hp =>
    (mem_insertionSort _).mp hp
  have hnodup : (peers.insertionSort PeerPolicy.le).Nodup :=
    (perm_insertionSort _ peers).nodup_iff.mpr (hgrants.ids.of_map _)
  constructor
  · refine AccessControl.nodup_ruleIds ?_ ?_
    · intro b hb
      rcases mem_cons.mp hb with rfl | hb
      · exact nodup_localRules _ _ _
      · obtain ⟨p, -, rfl⟩ := mem_map.mp hb
        exact nodup_peerRules _ p
    · refine pairwise_cons.mpr ⟨?_, ?_⟩
      · intro b hb r hr r' hr' heq
        obtain ⟨p, -, rfl⟩ := mem_map.mp hb
        obtain ⟨suffix, hid⟩ := ruleId_of_mem hr'
        have hhead := head_localRule hr
        rw [heq, hid, head_stem] at hhead
        exact absurd hhead (by decide)
      · refine pairwise_map.mpr (hnodup.imp_of_mem ?_)
        intro p q hp hq hne r hr r' hr' heq
        obtain ⟨suffix, hid⟩ := ruleId_of_mem hr
        obtain ⟨suffix', hid'⟩ := ruleId_of_mem hr'
        rw [hid, hid'] at heq
        exact hne (stem_inj hgrants (hmem p hp) (hmem q hq) heq)
  · rw [blocks, map_cons, map_map, nodup_cons]
    refine ⟨?_, ?_⟩
    · intro hlocal
      obtain ⟨p, -, heq⟩ := mem_map.mp hlocal
      have hhead := head_stem (L := L) p "-identity"
      rw [show stableId L "peer" p.grantId ++ "-identity" = "local-tcp" from heq] at hhead
      exact absurd hhead (by decide)
    · refine List.Nodup.map_on ?_ hnodup
      intro p hp q hq heq
      exact stem_inj hgrants (hmem p hp) (hmem q hq) heq

/-! ## Sessions -/

/-- A session over a link protocol that presents the certificate name and the username of a
peer. -/
def peerSession (protocol : String) (p : PeerPolicy) : Attribute → Option String
  | .certCommonNames => some p.certCommonName
  | .usernames => some p.username
  | .linkProtocols => some protocol

theorem peerSubject_matches {q : PeerPolicy} :
    (peerSubject L q).Matches (peerSession protocol p) ↔
      q.certCommonName = p.certCommonName ∧
        (q.relationship = .child → q.username = p.username) := by
  cases hrel : q.relationship <;>
    simp [peerSubject, Subject.Matches, hrel, peerSession, eq_comm]

theorem localSubject_matches :
    (localBlock localDataScope inboundScope federationRoot).subject.Matches
      (peerSession protocol p) ↔ protocol = "tcp" := by
  simp [localBlock, Subject.Matches, peerSession]

/-- A mutual TLS session of a peer matches the block of that peer and no other. -/
theorem matches_iff (hcns : (peers.map (·.certCommonName)).Nodup) (hp : p ∈ peers)
    (htls : protocol ≠ "tcp") {b : AclBlock}
    (hb : b ∈ blocks L localDataScope inboundScope federationRoot localNamespace peers) :
    b.subject.Matches (peerSession protocol p) ↔ b = peerBlock L localNamespace p := by
  constructor
  · intro hmatch
    rcases mem_cons.mp hb with rfl | hb
    · exact absurd (localSubject_matches.mp hmatch) htls
    · obtain ⟨q, hq, rfl⟩ := mem_map.mp hb
      have hcn := (peerSubject_matches.mp hmatch).1
      rw [inj_on_of_nodup_map hcns ((mem_insertionSort _).mp hq) hp hcn]
  · rintro rfl
    exact peerSubject_matches.mpr ⟨rfl, fun _ => rfl⟩

theorem mem_blocks (hp : p ∈ peers) :
    peerBlock L localNamespace p ∈
      blocks L localDataScope inboundScope federationRoot localNamespace peers :=
  .tail _ (mem_map_of_mem ((mem_insertionSort _).mpr hp))

/-- A session of a peer is allowed what the block of the peer allows. -/
theorem allowed_iff {acl : CompiledAcl}
    (h : compileAcl L localDataScope inboundScope federationRoot localNamespace peers = .ok acl)
    (hgrants : DistinctGrants L peers) (hp : p ∈ peers) (htls : protocol ≠ "tcp")
    {covers : String → String → Prop} (q : Request Message Flow String) :
    acl.config.Allowed covers (peerSession protocol p) q ↔
      (peerBlock L localNamespace p).Allows covers q := by
  obtain ⟨hconfig, hcns⟩ := compileAcl_ok h
  rw [hconfig]
  exact AccessControl.ofBlocks_allowed_iff
    (separate_blocks hgrants localDataScope inboundScope federationRoot localNamespace)
    (mem_blocks hp) (peerSubject_matches.mpr ⟨rfl, fun _ => rfl⟩)
    (fun b hb hmatch => (matches_iff hcns hp htls hb).mp hmatch) q

end Efdi.Acl

import Efdi.Acl.Policy
import Efdi.Config.AllOrNothing

/-!
# Applying the access control list

`apply_acl` of `managed_acl.py`: compile, insert a revision, replace the user dictionary,
activate the config, and write back the dictionary when the router does not accept it.

The revision is inserted before the activation, and `acl_revisions` has a unique digest.  A
row stays whatever the activation does, so a policy is activated by the first call that
compiles it and by no later one (`applyAcl_first_iff`).
-/

namespace Efdi.Acl

open Runs

/-! ## The table and the files -/

/-- `acl_revisions.state`. -/
inductive AclState where
  | staged
  | rolledBack
  | applied
deriving DecidableEq, Repr

structure AclRevision where
  sequence : Int
  policySha256 : String
  policyJson : String
  state : AclState
  detail : Option String
  appliedAt : Option Int
deriving DecidableEq

/-- The revisions, and the files that a call writes. -/
structure AclStore where
  revisions : List AclRevision
  config : ConfigDisk
  /-- `_DICTIONARY_PATH`. -/
  dictionary : Option String

/-- What `compile_current_policy` returns, as far as it is used here. -/
structure AclPolicy where
  acl : CompiledAcl
  dictionary : String
  /-- `policy["outbound"]["user"]`. -/
  outboundUser : Option String
  fields : ConfigFields

/-- What the world answers during a call, `none` for an operation that does not raise. -/
structure ApplyAclCall where
  /-- `_preview`, with the detail of its exception. -/
  preview : Except String (AclPolicy × String)
  /-- Reading and replacing the dictionary. -/
  dictionaryWrite : Option String
  /-- The first `os.chmod`. -/
  dictionaryMode : Option String
  host : Activation
  /-- Removing or writing back the dictionary. -/
  restoreWrite : Option String
  /-- The second `os.chmod`. -/
  restoreMode : Option String
  now : Int

inductive ApplyAclError where
  | http (statusCode : Nat) (detail : String)
  | integrity (table : String)
  | raised (message : String)
deriving DecidableEq

variable (revisions : List AclRevision)

/-- `max(AclRevision.sequence)`, or zero, and one. -/
def nextSequence : Int :=
  ((revisions.map (·.sequence)).max?.getD 0) + 1

/-- A row meets the unique columns of the table. -/
def revisionUnique (revision : AclRevision) : Bool :=
  revisions.all fun r =>
    r.sequence != revision.sequence && r.policySha256 != revision.policySha256

/-- The revision that a call inserts. -/
def stagedRevision (policy : AclPolicy) : AclRevision where
  sequence := nextSequence revisions
  policySha256 := policy.acl.sha256
  policyJson := policy.acl.canonicalJson
  state := .staged
  detail := none
  appliedAt := none

/-- What a call did. -/
structure ApplyAclOutcome where
  store : AclStore
  /-- What `apply_rendered_config` did, for a call that got to it. -/
  activation : Option (ConfigDisk × Except String ApplyResult)
  response : Except ApplyAclError (ApplyResult × String × Int)

/-- `apply_acl` after the activation. -/
def finishAcl (call : ApplyAclCall) (store : AclStore) (policy : AclPolicy)
    (out : ConfigDisk × Except String ApplyResult) : ApplyAclOutcome :=
  let revision := stagedRevision store.revisions policy
  let current : AclStore :=
    { revisions := store.revisions ++ [revision], config := out.1,
      dictionary := some policy.dictionary }
  match out.2 with
  | .error e => ⟨current, some out, .error (.raised e)⟩
  | .ok result =>
    if result.status != .applied then
      match call.restoreWrite with
      | some e => ⟨current, some out, .error (.raised e)⟩
      | none =>
        let restored := { current with dictionary := store.dictionary.map PyStr.newlines }
        match call.restoreMode with
        | some e => ⟨restored, some out, .error (.raised e)⟩
        | none =>
          ⟨{ restored with
              revisions := store.revisions ++
                [{ revision with state := .rolledBack, detail := result.error }] },
            some out, .ok (result, policy.acl.sha256, revision.sequence)⟩
    else
      ⟨{ current with
          revisions := store.revisions ++
            [{ revision with state := .applied, appliedAt := some call.now }] },
        some out, .ok (result, policy.acl.sha256, revision.sequence)⟩

/-- `apply_acl`. -/
def applyAcl (call : ApplyAclCall) (store : AclStore) : ApplyAclOutcome :=
  match call.preview with
  | .error detail => ⟨store, none, .error (.http 409 detail)⟩
  | .ok (policy, rendered) =>
    let revision := stagedRevision store.revisions policy
    if !revisionUnique store.revisions revision then
      ⟨store, none, .error (.integrity "acl_revisions")⟩
    else
      let staged := { store with revisions := store.revisions ++ [revision] }
      match call.dictionaryWrite with
      | some e => ⟨staged, none, .error (.raised e)⟩
      | none =>
        match call.dictionaryMode with
        | some e =>
          ⟨{ staged with dictionary := some policy.dictionary }, none, .error (.raised e)⟩
        | none =>
          finishAcl call store policy
            (applyRenderedConfig call.host rendered policy.fields true
              (policy.outboundUser.any (· != "")) store.config)

/-- The store after a call. -/
def applyAclStep (store : AclStore) (call : ApplyAclCall) : AclStore := (applyAcl call store).store

/-! ## The digests of the table -/

theorem lt_nextSequence {revisions : List AclRevision} {r : AclRevision} (h : r ∈ revisions) :
    r.sequence < nextSequence revisions := by
  have hmem : r.sequence ∈ revisions.map (·.sequence) := List.mem_map_of_mem h
  cases hmax : (revisions.map (·.sequence)).max? with
  | none => simp [List.max?_eq_none_iff.mp hmax] at hmem
  | some m =>
    have hle := (List.max?_eq_some_iff.mp hmax).2 _ hmem
    rw [nextSequence, hmax, Option.getD_some]
    omega

/-- A fresh row is unique exactly when its digest is new. -/
theorem revisionUnique_iff (policy : AclPolicy) :
    revisionUnique revisions (stagedRevision revisions policy) = true ↔
      ∀ r ∈ revisions, r.policySha256 ≠ policy.acl.sha256 := by
  rw [revisionUnique, List.all_eq_true]
  refine forall₂_congr fun r hr => ?_
  have hlt := lt_nextSequence hr
  rw [Bool.and_eq_true]
  constructor
  · rintro ⟨-, hsha⟩
    simpa [stagedRevision] using hsha
  · intro hsha
    refine ⟨?_, by simpa [stagedRevision] using hsha⟩
    simp only [stagedRevision, bne_iff_ne]
    omega

/-- The call compiled a policy with the digest. -/
def Compiles (call : ApplyAclCall) (sha : String) : Prop :=
  ∃ policy rendered, call.preview = .ok (policy, rendered) ∧ policy.acl.sha256 = sha

/-- A row has the digest. -/
def Recorded (store : AclStore) (sha : String) : Prop :=
  ∃ r ∈ store.revisions, r.policySha256 = sha

/-- A row that is appended records its digest and keeps the others. -/
theorem recorded_append {store store' : AclStore} {r : AclRevision}
    (h : store'.revisions = store.revisions ++ [r]) (sha : String) :
    Recorded store' sha ↔ Recorded store sha ∨ r.policySha256 = sha := by
  simp [Recorded, h]

/-- The rest of a call appends one row, with the digest of its policy. -/
theorem finishAcl_revisions (call : ApplyAclCall) (store : AclStore) (policy : AclPolicy)
    (out : ConfigDisk × Except String ApplyResult) :
    ∃ r, (finishAcl call store policy out).store.revisions = store.revisions ++ [r] ∧
      r.policySha256 = policy.acl.sha256 := by
  rw [finishAcl]
  cases out.2 with
  | error e => exact ⟨_, rfl, rfl⟩
  | ok result =>
    dsimp only
    split
    · cases call.restoreWrite with
      | some e => exact ⟨_, rfl, rfl⟩
      | none =>
        cases call.restoreMode with
        | some e => exact ⟨_, rfl, rfl⟩
        | none => exact ⟨_, rfl, rfl⟩
    · exact ⟨_, rfl, rfl⟩

/-- A call records the digest it compiles, and keeps what is recorded. -/
theorem recorded_step (store : AclStore) (call : ApplyAclCall) (sha : String) :
    Recorded (applyAclStep store call) sha ↔ Recorded store sha ∨ Compiles call sha := by
  rw [applyAclStep, applyAcl, Compiles]
  cases hpreview : call.preview with
  | error detail => simp
  | ok compiled =>
    obtain ⟨policy, rendered⟩ := compiled
    have hcompiles : (∃ p t, (Except.ok (policy, rendered) : Except String _) = .ok (p, t) ∧
        p.acl.sha256 = sha) ↔ policy.acl.sha256 = sha := by
      constructor
      · rintro ⟨p, t, h, rfl⟩
        cases h
        rfl
      · intro h
        exact ⟨policy, rendered, rfl, h⟩
    rw [hcompiles]
    dsimp only
    split
    next hdup =>
      -- the digest is in the table already
      have hexists : Recorded store policy.acl.sha256 := by
        by_contra hnone
        rw [Bool.not_eq_true', ← Bool.not_eq_true, revisionUnique_iff] at hdup
        exact hdup fun r hr heq => hnone ⟨r, hr, heq⟩
      constructor
      · exact Or.inl
      · rintro (h | rfl)
        · exact h
        · exact hexists
    next =>
      cases call.dictionaryWrite with
      | some e => exact recorded_append (r := stagedRevision store.revisions policy) rfl sha
      | none =>
        cases call.dictionaryMode with
        | some e => exact recorded_append (r := stagedRevision store.revisions policy) rfl sha
        | none =>
          obtain ⟨r, hr, hsha⟩ := finishAcl_revisions call store policy
            (applyRenderedConfig call.host rendered policy.fields true
              (policy.outboundUser.any (· != "")) store.config)
          rw [← hsha]
          exact recorded_append hr sha

/-- The table holds the digests that the calls compiled. -/
theorem recorded_final {store : AclStore} (hempty : store.revisions = []) (sha : String) :
    ∀ calls : List ApplyAclCall, Recorded (final applyAclStep store calls) sha ↔
      ∃ call ∈ calls, Compiles call sha := by
  intro calls
  induction calls using List.reverseRecOn with
  | nil => simp [Recorded, hempty]
  | append_singleton calls call ih =>
    rw [final_append, final_cons, final_nil, recorded_step, ih]
    simp [or_and_right, exists_or]

/-! ## Which calls activate -/

/-- A call gets to the activation, and ends applied when the router accepts the config. -/
def Activates (store : AclStore) (call : ApplyAclCall) (policy : AclPolicy) : Prop :=
  ∃ out, (applyAcl call store).activation = some out ∧
    (isApplied out.2 = true → ∃ row ∈ (applyAcl call store).store.revisions,
      row.sequence = nextSequence store.revisions ∧ row.policySha256 = policy.acl.sha256 ∧
        row.state = .applied)

/-- What the router accepts is recorded as applied. -/
theorem finishAcl_applied {call : ApplyAclCall} {store : AclStore} {policy : AclPolicy}
    {out : ConfigDisk × Except String ApplyResult} (h : isApplied out.2 = true) :
    ∃ row ∈ (finishAcl call store policy out).store.revisions,
      row.sequence = nextSequence store.revisions ∧ row.policySha256 = policy.acl.sha256 ∧
        row.state = .applied := by
  rw [finishAcl]
  cases hout : out.2 with
  | error e => simp [isApplied, hout] at h
  | ok result =>
    have hstatus : result.status = .applied := by simpa [isApplied, hout] using h
    dsimp only
    rw [if_neg (by simp [hstatus])]
    exact ⟨_, List.mem_append_right _ (List.mem_singleton.mpr rfl), rfl, rfl, rfl⟩

theorem finishAcl_activation (call : ApplyAclCall) (store : AclStore) (policy : AclPolicy)
    (out : ConfigDisk × Except String ApplyResult) :
    (finishAcl call store policy out).activation = some out := by
  rw [finishAcl]
  cases out.2 with
  | error e => rfl
  | ok result =>
    dsimp only
    split
    · cases call.restoreWrite with
      | some e => rfl
      | none => cases call.restoreMode <;> rfl
    · rfl

/-- A call activates when its dictionary is replaced and its digest is new. -/
theorem activates_iff {store : AclStore} {call : ApplyAclCall} {policy : AclPolicy}
    {rendered : String} (hpreview : call.preview = .ok (policy, rendered)) :
    Activates store call policy ↔
      call.dictionaryWrite = none ∧ call.dictionaryMode = none ∧
        ¬Recorded store policy.acl.sha256 := by
  have hfresh : revisionUnique store.revisions (stagedRevision store.revisions policy) = true ↔
      ¬Recorded store policy.acl.sha256 := by
    rw [revisionUnique_iff]
    simp [Recorded]
  rw [Activates, applyAcl, hpreview]
  dsimp only
  by_cases hunique : revisionUnique store.revisions (stagedRevision store.revisions policy) = true
  · rw [if_neg (by simp [hunique])]
    cases hwrite : call.dictionaryWrite with
    | some e => simp
    | none =>
      cases hmode : call.dictionaryMode with
      | some e => simp
      | none =>
        refine ⟨fun _ => ⟨rfl, rfl, hfresh.mp hunique⟩, fun _ => ?_⟩
        exact ⟨_, finishAcl_activation .., finishAcl_applied⟩
  · rw [if_pos (by simpa using hunique)]
    constructor
    · rintro ⟨out, hout, -⟩
      cases hout
    · rintro ⟨-, -, hnew⟩
      exact absurd (hfresh.mpr hnew) hunique

/-- After any calls, a call activates exactly when its dictionary is replaced and none of the
calls compiled its policy. -/
theorem applyAcl_first_iff {store : AclStore} (hempty : store.revisions = [])
    (calls : List ApplyAclCall) {call : ApplyAclCall} {policy : AclPolicy} {rendered : String}
    (hpreview : call.preview = .ok (policy, rendered)) :
    Activates (final applyAclStep store calls) call policy ↔
      call.dictionaryWrite = none ∧ call.dictionaryMode = none ∧
        ∀ earlier ∈ calls, ¬Compiles earlier policy.acl.sha256 := by
  rw [activates_iff hpreview, recorded_final hempty]
  simp

/-! ## A policy that is tried again -/

/-- The policy of a pod without peers. -/
def podPolicy : AclPolicy where
  acl := (Compilation.initial "EFDI/pod1/**" "EFDI/in/**" "EFDI").compiled paddedLibs
  dictionary := "local:00\n"
  outboundUser := none
  fields := podFields "pod1" pod1_named

/-- A call for that policy, on a router that becomes healthy or does not. -/
def podApply (health : Bool) : ApplyAclCall where
  preview := .ok (podPolicy, "candidate")
  dictionaryWrite := none
  dictionaryMode := none
  host := podHost health
  restoreWrite := none
  restoreMode := none
  now := 5

/-- A pod that has not applied anything. -/
def podStore : AclStore := ⟨[], podDisk "EFDI", none⟩

/-- The first call for a policy activates. -/
theorem applyAcl_first_pod : Activates podStore (podApply true) podPolicy :=
  (applyAcl_first_iff rfl [] rfl).mpr
    ⟨rfl, rfl, fun _ h => absurd h List.not_mem_nil⟩

/-- The router does not become healthy and the call is rolled back.  When the router is healthy
again, the call for the same policy does not get to the activation. -/
theorem applyAcl_not_retried :
    compileAcl paddedLibs "EFDI/pod1/**" "EFDI/in/**" "EFDI" "EFDI/pod1" [] =
        .ok podPolicy.acl ∧
      (applyAclStep podStore (podApply false)).revisions.map (·.state) = [.rolledBack] ∧
      isApplied (applyRenderedConfig (podApply true).host "candidate" podPolicy.fields true false
        (applyAclStep podStore (podApply false)).config).2 = true ∧
      (applyAcl (podApply true) (applyAclStep podStore (podApply false))).response =
        .error (.integrity "acl_revisions") ∧
      ¬Activates (applyAclStep podStore (podApply false)) (podApply true) podPolicy := by
  refine ⟨by rfl, by decide +kernel, by decide +kernel, by rfl, ?_⟩
  rintro ⟨out, hout, -⟩
  have hnone : (applyAcl (podApply true) (applyAclStep podStore (podApply false))).activation =
      none := by rfl
  rw [hnone] at hout
  cases hout

end Efdi.Acl

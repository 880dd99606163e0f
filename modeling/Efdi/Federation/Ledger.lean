import Efdi.Federation.Status

/-!
# The ledger of config pushes

`config_revisions.py` and the database side of `_push_to_target`.  A push creates a
revision as `validating`, publishes the envelope and then writes `pending`.  A status
of the child can be recorded as soon as the envelope is published, in a transaction of
its own.

`ledgerStep` interleaves the transactions of one push with those of `recordStatus`.
`reported` is a ghost: a status was recorded in the revision of the push.
`neverReopened_iff` says which interleavings lose a final state.
-/

namespace Efdi.Federation

open List Bool
open Runs (Guarded)

/-! ## Transactions -/

/-- What a push knows of its revision. -/
structure Push where
  targetNamespace : String
  version : Int
  source : String
  configSha256 : String

/-- The row of a new revision, with `state="validating"` and no detail. -/
def Push.row (p : Push) (id : Nat) (now : Int) : ConfigRevision where
  id
  targetNamespace := p.targetNamespace
  version := p.version
  source := p.source
  state := .validating
  configSha256 := p.configSha256
  detail := none
  createdAt := now
  completedAt := none

/-- `create_revision`. -/
def createRevision (db : Db) (p : Push) (now : Int) : Db × ConfigRevision :=
  let row := p.row db.nextId now
  ({ db with revisions := db.revisions ++ [row], nextId := db.nextId + 1 }, row)

/-- What `set_revision_state` writes to the row.  The session writes the columns that
differ from its own copy of the row. -/
def stateUpdate (copy : ConfigRevision) (state : RevisionState) (detail : Option String)
    (now : Int) (r : ConfigRevision) : ConfigRevision :=
  { r with
    state := if state = copy.state then r.state else state
    detail := if clip 1000 detail = copy.detail then r.detail else clip 1000 detail
    completedAt := if state.IsFinal then some now else r.completedAt }

/-- `set_revision_state`. -/
def setRevisionState (db : Db) (copy : ConfigRevision) (state : RevisionState)
    (detail : Option String) (now : Int) : Db :=
  { db with revisions := db.revisions.map fun r =>
      if r.id = copy.id then stateUpdate copy state detail now r else r }

/-- The row of a revision. -/
def revisionRow (db : Db) (id : Nat) : Option ConfigRevision :=
  db.revisions.find? (·.id == id)

/-- A status writes the row that is the newest one of its target and version. -/
theorem revisionRow_recordStatus (db : Db) (namespace_ : String) (report : StatusReport)
    (now : Int) (id : Nat) :
    revisionRow (recordStatus db namespace_ report now) id =
      (revisionRow db id).map fun r =>
        if (latestRevision db namespace_ report.version).any (·.id == id) then
          reportRevision report now r
        else r := by
  rw [revisionRow, recordStatus, revisionRow]
  cases hlatest : latestRevision db namespace_ report.version with
  | none => simp
  | some found =>
    have hrow := @find?_map_ite _ _ _ ConfigRevision.id (reportRevision report now)
      (fun _ => rfl) db.revisions id found.id
    simp only [Option.any_some, beq_iff_eq]
    simpa only [eq_comm] using hrow

theorem revisionRow_setRevisionState (db : Db) (copy : ConfigRevision) (state : RevisionState)
    (detail : Option String) (now : Int) :
    revisionRow (setRevisionState db copy state detail now) copy.id =
      (revisionRow db copy.id).map (stateUpdate copy state detail now) := by
  have hrow := @find?_map_ite _ _ _ ConfigRevision.id (stateUpdate copy state detail now)
    (fun _ => rfl) db.revisions copy.id copy.id
  simp only [if_true] at hrow
  exact hrow

/-! ## Interleavings -/

/-- How far a push is.  `published` says that the envelope is out. -/
inductive PushPhase where
  | start
  | created (copy : ConfigRevision)
  | published (copy : ConfigRevision)
  | finished (copy : ConfigRevision) (published : Bool)

namespace PushPhase

/-- The copy of the row that the session of the push holds. -/
def copy? : PushPhase → Option ConfigRevision
  | .start => none
  | .created copy => some copy
  | .published copy => some copy
  | .finished copy _ => some copy

/-- The envelope is out. -/
def isPublished : PushPhase → Bool
  | .published _ => true
  | .finished _ out => out
  | _ => false

end PushPhase

/-- The database and the push. -/
structure Ledger where
  db : Db
  phase : PushPhase
  /-- A status was recorded in the revision of the push. -/
  reported : Bool

/-- The transactions that interleave. -/
inductive LedgerEvent where
  | create (now : Int)
  | publish
  | setPending (now : Int)
  | fail (detail : String) (now : Int)
  | status (namespace_ : String) (report : StatusReport) (now : Int)

/-- The newest revision that a status matches is the one of the push. -/
def Ledger.hits (s : Ledger) (namespace_ : String) (report : StatusReport) : Bool :=
  s.phase.copy?.any fun copy =>
    (latestRevision s.db namespace_ report.version).any (·.id == copy.id)

/-- One transaction.  An event out of its order does nothing; a status of the push exists
only once its envelope is out. -/
def ledgerStep (p : Push) (s : Ledger) : LedgerEvent → Ledger
  | .create now =>
    match s.phase with
    | .start =>
      let (db, copy) := createRevision s.db p now
      { s with db, phase := .created copy }
    | _ => s
  | .publish =>
    match s.phase with
    | .created copy => { s with phase := .published copy }
    | _ => s
  | .setPending now =>
    match s.phase with
    | .published copy =>
      { s with db := setRevisionState s.db copy .pending none now
               phase := .finished copy true }
    | _ => s
  | .fail detail now =>
    match s.phase with
    | .created copy =>
      { s with db := setRevisionState s.db copy .failed (some detail) now
               phase := .finished copy false }
    | .published copy =>
      { s with db := setRevisionState s.db copy .failed (some detail) now
               phase := .finished copy true }
    | _ => s
  | .status namespace_ report now =>
    if namespace_ = p.targetNamespace ∧ report.version = p.version ∧ !s.phase.isPublished then s
    else
      { s with db := recordStatus s.db namespace_ report now
               reported := s.reported || s.hits namespace_ report }

/-- The revision of the push holds a final state. -/
def RowFinal (s : Ledger) : Prop :=
  ∃ copy row, s.phase.copy? = some copy ∧ revisionRow s.db copy.id = some row ∧
    row.state.IsFinal

/-- No step takes the revision from a final state back to `pending` or `validating`. -/
def NeverReopened (p : Push) (s : Ledger) (es : List LedgerEvent) : Prop :=
  Guarded (ledgerStep p) (fun s e => RowFinal s → RowFinal (ledgerStep p s e)) s es

/-- The write of `pending` comes before every status of the push. -/
def PendingFirst (s : Ledger) : LedgerEvent → Prop
  | .setPending _ => ∀ copy, s.phase = .published copy → s.reported = false
  | _ => True

/-- The start of a push. -/
def Ledger.init (db : Db) : Ledger := ⟨db, .start, false⟩

/-! ## The invariant -/

/-- The row of the push exists, and a row with its id belongs to its target and version.
Until the push writes its last state, the row is `validating` as long as no status is
recorded in it, and final after that. -/
structure LedgerInv (p : Push) (s : Ledger) : Prop where
  ids : ∀ r ∈ s.db.revisions, r.id < s.db.nextId
  row : ∀ copy, s.phase.copy? = some copy → ∃ row, revisionRow s.db copy.id = some row
  own : ∀ copy, s.phase.copy? = some copy → ∀ r ∈ s.db.revisions, r.id = copy.id →
    r.targetNamespace = p.targetNamespace ∧ r.version = p.version
  copy : ∀ copy, s.phase.copy? = some copy → copy.state = .validating
  reported : s.reported = true → s.phase.isPublished = true
  waiting : ∀ copy row, s.phase = .created copy ∨ s.phase = .published copy →
    revisionRow s.db copy.id = some row →
      if s.reported then row.state.IsFinal else row.state = .validating

theorem LedgerInv.init {p : Push} {db : Db} (h : ∀ r ∈ db.revisions, r.id < db.nextId) :
    LedgerInv p (Ledger.init db) where
  ids := h
  row := by
    intro copy hcopy
    cases hcopy
  own := by
    intro copy hcopy
    cases hcopy
  copy := by
    intro copy hcopy
    cases hcopy
  reported := by
    intro hreported
    cases hreported
  waiting := by
    rintro copy row (hphase | hphase)
    · cases hphase
    · cases hphase

/-- The rows of a database and what a transaction made of them: the identifiers, targets
and versions are the old ones. -/
def SameKeys (db db' : Db) : Prop :=
  db'.nextId = db.nextId ∧ ∀ r ∈ db'.revisions, ∃ r₀ ∈ db.revisions,
    r.id = r₀.id ∧ r.targetNamespace = r₀.targetNamespace ∧ r.version = r₀.version

theorem sameKeys_setRevisionState (db : Db) (copy : ConfigRevision) (state : RevisionState)
    (detail : Option String) (now : Int) :
    SameKeys db (setRevisionState db copy state detail now) := by
  refine ⟨rfl, fun r hr => ?_⟩
  obtain ⟨r₀, hmem, rfl⟩ := mem_map.mp hr
  refine ⟨r₀, hmem, ?_⟩
  split
  · exact ⟨rfl, rfl, rfl⟩
  · exact ⟨rfl, rfl, rfl⟩

theorem sameKeys_recordStatus (db : Db) (namespace_ : String) (report : StatusReport)
    (now : Int) : SameKeys db (recordStatus db namespace_ report now) := by
  refine ⟨rfl, fun r hr => ?_⟩
  rw [recordStatus] at hr
  cases hlatest : latestRevision db namespace_ report.version with
  | none =>
    simp only [hlatest] at hr
    exact ⟨r, hr, rfl, rfl, rfl⟩
  | some found =>
    simp only [hlatest, mem_map] at hr
    obtain ⟨r₀, hmem, rfl⟩ := hr
    refine ⟨r₀, hmem, ?_⟩
    split
    · exact ⟨rfl, rfl, rfl⟩
    · exact ⟨rfl, rfl, rfl⟩

section Step

variable {p : Push} {s : Ledger}

/-- A status hits the row of the push only when it is about its target and version. -/
theorem LedgerInv.of_hits (h : LedgerInv p s) {namespace_ : String} {report : StatusReport}
    (hhits : s.hits namespace_ report = true) :
    namespace_ = p.targetNamespace ∧ report.version = p.version := by
  simp only [Ledger.hits, Option.any_eq_true, beq_iff_eq] at hhits
  obtain ⟨copy, hcopy, found, hfound, hid⟩ := hhits
  obtain ⟨hmem, hkey⟩ := mem_filter.mp (latestBy_mem hfound)
  obtain ⟨htarget, hversion⟩ := h.own copy hcopy found hmem hid
  simp only [and_eq_true, beq_iff_eq] at hkey
  exact ⟨hkey.1.symm.trans htarget, hkey.2.symm.trans hversion⟩

/-- What a transaction that keeps the keys has to show. -/
theorem LedgerInv.of_sameKeys (h : LedgerInv p s) {s' : Ledger} (hkeys : SameKeys s.db s'.db)
    (hcopy : s'.phase.copy? = s.phase.copy?)
    (hrow : ∀ copy, s.phase.copy? = some copy → ∃ row, revisionRow s'.db copy.id = some row)
    (hreported : s'.reported = true → s'.phase.isPublished = true)
    (hwaiting : ∀ copy row, s'.phase = .created copy ∨ s'.phase = .published copy →
      revisionRow s'.db copy.id = some row →
        if s'.reported then row.state.IsFinal else row.state = .validating) :
    LedgerInv p s' where
  ids := by
    intro r hr
    obtain ⟨r₀, hmem, hid, _, _⟩ := hkeys.2 r hr
    rw [hid, hkeys.1]
    exact h.ids r₀ hmem
  row := by
    intro copy hc
    exact hrow copy (hcopy ▸ hc)
  own := by
    intro copy hc r hr hid
    obtain ⟨r₀, hmem, hid₀, htarget, hversion⟩ := hkeys.2 r hr
    rw [htarget, hversion]
    exact h.own copy (hcopy ▸ hc) r₀ hmem (hid₀.symm.trans hid)
  copy := by
    intro copy hc
    exact h.copy copy (hcopy ▸ hc)
  reported := hreported
  waiting := hwaiting

/-- The row of the push after a status. -/
theorem revisionRow_status {copy row : ConfigRevision} (hcopy : s.phase.copy? = some copy)
    (hrow : revisionRow s.db copy.id = some row) (namespace_ : String) (report : StatusReport)
    (now : Int) :
    revisionRow (recordStatus s.db namespace_ report now) copy.id =
      some (if s.hits namespace_ report then reportRevision report now row else row) := by
  rw [revisionRow_recordStatus, hrow, Option.map_some, Ledger.hits, hcopy, Option.any_some]

/-- The row of the push after it wrote a state. -/
theorem revisionRow_written {copy row : ConfigRevision} (state : RevisionState)
    (h : copy.state = .validating) (hstate : state ≠ .validating)
    (hrow : revisionRow s.db copy.id = some row) (detail : Option String) (now : Int) :
    ∃ row', revisionRow (setRevisionState s.db copy state detail now) copy.id = some row' ∧
      row'.state = state := by
  refine ⟨stateUpdate copy state detail now row, ?_, ?_⟩
  · rw [revisionRow_setRevisionState, hrow, Option.map_some]
  · rw [stateUpdate, h]
    exact if_neg hstate

theorem ledgerInv_create (h : LedgerInv p s) (hphase : s.phase = .start) (now : Int) :
    LedgerInv p { s with db := (createRevision s.db p now).1
                         phase := .created (createRevision s.db p now).2 } := by
  have hnotReported : s.reported = false := by
    cases hr : s.reported with
    | false => rfl
    | true =>
      have hpub := h.reported hr
      rw [hphase] at hpub
      cases hpub
  have hfresh : s.db.revisions.find? (fun r => r.id == s.db.nextId) = none := by
    refine find?_eq_none.mpr fun r hr hid => ?_
    have hlt := h.ids r hr
    rw [beq_iff_eq] at hid
    omega
  have hrow : revisionRow (createRevision s.db p now).1 s.db.nextId =
      some (p.row s.db.nextId now) := by
    rw [revisionRow, createRevision, find?_append, hfresh]
    simp [Push.row]
  constructor
  case ids =>
    intro r hr
    rcases mem_append.mp hr with hr | hr
    · exact Nat.lt_succ_of_lt (h.ids r hr)
    · rw [mem_singleton.mp hr]
      exact Nat.lt_succ_self _
  case row =>
    intro copy hcopy
    cases hcopy
    exact ⟨_, hrow⟩
  case own =>
    intro copy hcopy r hr hid
    cases hcopy
    rcases mem_append.mp hr with hr | hr
    · have hlt := h.ids r hr
      rw [hid] at hlt
      exact absurd hlt (Nat.lt_irrefl _)
    · rw [mem_singleton.mp hr]
      exact ⟨rfl, rfl⟩
  case copy =>
    intro copy hcopy
    cases hcopy
    rfl
  case reported =>
    intro hr
    rw [hnotReported] at hr
    cases hr
  case waiting =>
    rintro copy row (hcopy | hcopy) hfound
    · cases hcopy
      rw [show (createRevision s.db p now).2.id = s.db.nextId from rfl, hrow] at hfound
      cases hfound
      simp only [hnotReported, false_eq_true, if_false]
      rfl
    · cases hcopy

theorem ledgerInv_write (h : LedgerInv p s) {copy : ConfigRevision} {state : RevisionState}
    (hcopy : s.phase.copy? = some copy) (hstate : state ≠ .validating) (detail : Option String)
    (now : Int) (published : Bool) (hpub : s.phase.isPublished = published) :
    LedgerInv p { s with db := setRevisionState s.db copy state detail now
                         phase := .finished copy published } := by
  refine h.of_sameKeys (sameKeys_setRevisionState _ _ _ _ _) hcopy.symm ?_ ?_ ?_
  · intro copy' hcopy'
    obtain rfl := Option.some.inj (hcopy.symm.trans hcopy')
    obtain ⟨row, hrow⟩ := h.row copy hcopy
    obtain ⟨row', hrow', _⟩ := revisionRow_written state (h.copy copy hcopy) hstate hrow
      detail now
    exact ⟨row', hrow'⟩
  · intro hr
    exact hpub ▸ h.reported hr
  · rintro copy' row (hphase | hphase)
    · cases hphase
    · cases hphase

theorem ledgerInv_status (h : LedgerInv p s) {namespace_ : String} {report : StatusReport}
    (now : Int)
    (hcause : ¬(namespace_ = p.targetNamespace ∧ report.version = p.version ∧
      !s.phase.isPublished)) :
    LedgerInv p { s with db := recordStatus s.db namespace_ report now
                         reported := s.reported || s.hits namespace_ report } := by
  refine h.of_sameKeys (sameKeys_recordStatus _ _ _ _) rfl ?_ ?_ ?_
  · intro copy hcopy
    obtain ⟨row, hrow⟩ := h.row copy hcopy
    exact ⟨_, revisionRow_status hcopy hrow namespace_ report now⟩
  · intro hr
    rcases Bool.or_eq_true _ _ ▸ hr with hr | hhits
    · exact h.reported hr
    · obtain ⟨htarget, hversion⟩ := h.of_hits hhits
      by_contra hpub
      exact hcause ⟨htarget, hversion, by simpa using hpub⟩
  · intro copy row' hphase hfound
    have hcopy : s.phase.copy? = some copy := by
      rcases hphase with hphase | hphase
      · exact congrArg PushPhase.copy? hphase
      · exact congrArg PushPhase.copy? hphase
    obtain ⟨row, hrow⟩ := h.row copy hcopy
    have hwait := h.waiting copy row hphase hrow
    rw [revisionRow_status hcopy hrow] at hfound
    obtain rfl := Option.some.inj hfound
    cases hhits : s.hits namespace_ report with
    | true =>
      simp only [Bool.or_true, if_true]
      exact Health.revisionState_isFinal _
    | false => simpa only [Bool.or_false, Bool.false_eq_true, if_false] using hwait

/-- Every transaction keeps the invariant. -/
theorem ledgerInv_step (h : LedgerInv p s) (e : LedgerEvent) : LedgerInv p (ledgerStep p s e) := by
  cases e with
  | create now =>
    rw [ledgerStep]
    split
    next hphase => exact ledgerInv_create h hphase now
    · exact h
  | publish =>
    rw [ledgerStep]
    split
    next copy hphase =>
      refine h.of_sameKeys ⟨rfl, fun r hr => ⟨r, hr, rfl, rfl, rfl⟩⟩
        (congrArg PushPhase.copy? hphase).symm h.row (fun _ => rfl) ?_
      rintro copy' row (hcopy | hcopy) hrow
      · cases hcopy
      · cases hcopy
        exact h.waiting copy row (.inl hphase) hrow
    · exact h
  | setPending now =>
    rw [ledgerStep]
    split
    next copy hphase =>
      exact ledgerInv_write h (congrArg PushPhase.copy? hphase) (by decide) none now true
        (congrArg PushPhase.isPublished hphase)
    · exact h
  | fail detail now =>
    rw [ledgerStep]
    split
    next copy hphase =>
      exact ledgerInv_write h (congrArg PushPhase.copy? hphase) (by decide) _ now false
        (congrArg PushPhase.isPublished hphase)
    next copy hphase =>
      exact ledgerInv_write h (congrArg PushPhase.copy? hphase) (by decide) _ now true
        (congrArg PushPhase.isPublished hphase)
    · exact h
  | status namespace_ report now =>
    rw [ledgerStep]
    split
    · exact h
    next hcause => exact ledgerInv_status h now hcause

/-- What a step does to a final state: only the write of `pending` takes it away. -/
theorem rowFinal_step (h : LedgerInv p s) (e : LedgerEvent) :
    (RowFinal s → RowFinal (ledgerStep p s e)) ↔ PendingFirst s e := by
  cases e with
  | create now =>
    refine ⟨fun _ => trivial, fun _ hfinal => ?_⟩
    rw [ledgerStep]
    split
    next hphase =>
      obtain ⟨copy, _, hcopy, _⟩ := hfinal
      rw [hphase] at hcopy
      cases hcopy
    · exact hfinal
  | publish =>
    refine ⟨fun _ => trivial, fun _ hfinal => ?_⟩
    rw [ledgerStep]
    split
    next hphase =>
      obtain ⟨copy, row, hcopy, hrow⟩ := hfinal
      rw [hphase] at hcopy
      exact ⟨copy, row, hcopy, hrow⟩
    · exact hfinal
  | setPending now =>
    constructor
    · intro hkeeps copy hphase
      obtain ⟨row, hrow⟩ := h.row copy (congrArg PushPhase.copy? hphase)
      have hwait := h.waiting copy row (.inr hphase) hrow
      by_contra hreported
      rw [not_eq_false] at hreported
      rw [hreported, if_pos rfl] at hwait
      -- The row is final, and the step makes it pending.
      obtain ⟨copy', row', hcopy', hrow', hfinal⟩ :=
        hkeeps ⟨copy, row, congrArg PushPhase.copy? hphase, hrow, hwait⟩
      obtain ⟨written, hwritten, hstate⟩ := revisionRow_written .pending
        (h.copy copy (congrArg PushPhase.copy? hphase)) (by decide) hrow none now
      simp only [ledgerStep, hphase] at hcopy' hrow'
      cases hcopy'
      obtain rfl := Option.some.inj (hwritten.symm.trans hrow')
      exact hfinal.2 hstate
    · intro hfirst hfinal
      rw [ledgerStep]
      split
      next copy hphase =>
        obtain ⟨copy', row, hcopy, hrow, hfinal⟩ := hfinal
        obtain rfl := Option.some.inj ((congrArg PushPhase.copy? hphase).symm.trans hcopy)
        have hwait := h.waiting copy row (.inr hphase) hrow
        rw [hfirst copy hphase] at hwait
        exact absurd hwait hfinal.1
      · exact hfinal
  | fail detail now =>
    refine ⟨fun _ => trivial, fun _ hfinal => ?_⟩
    have hfailed : ∀ copy published, s.phase.copy? = some copy →
        RowFinal { s with db := setRevisionState s.db copy .failed (some detail) now
                          phase := .finished copy published } := by
      intro copy published hcopy
      obtain ⟨row, hrow⟩ := h.row copy hcopy
      obtain ⟨written, hwritten, hstate⟩ := revisionRow_written .failed (h.copy copy hcopy)
        (by decide) hrow (some detail) now
      exact ⟨copy, written, rfl, hwritten, by rw [hstate]; decide⟩
    rw [ledgerStep]
    split
    next copy hphase => exact hfailed copy false (congrArg PushPhase.copy? hphase)
    next copy hphase => exact hfailed copy true (congrArg PushPhase.copy? hphase)
    · exact hfinal
  | status namespace_ report now =>
    refine ⟨fun _ => trivial, fun _ hfinal => ?_⟩
    rw [ledgerStep]
    split
    · exact hfinal
    · obtain ⟨copy, row, hcopy, hrow, hstate⟩ := hfinal
      refine ⟨copy, _, hcopy, revisionRow_status hcopy hrow namespace_ report now, ?_⟩
      split
      · exact Health.revisionState_isFinal _
      · exact hstate

end Step

/-! ## Runs -/

/-- In the runs that start with fresh identifiers, a final state is never lost exactly when
no status of the push is recorded before the write of `pending`. -/
theorem neverReopened_iff (p : Push) (db : Db) (es : List LedgerEvent)
    (h : ∀ r ∈ db.revisions, r.id < db.nextId) :
    NeverReopened p (Ledger.init db) es ↔
      Guarded (ledgerStep p) PendingFirst (Ledger.init db) es :=
  Runs.guarded_congr (fun _ e hinv => ⟨ledgerInv_step hinv e, rowFinal_step hinv e⟩)
    (LedgerInv.init h)

/-- A push to a child whose answer is faster than the parent's second transaction. -/
def fastPush : Push := ⟨"hq/c", 7, "direct", "sha"⟩

/-- The child's rejection is recorded between the publication and the write of `pending`. -/
def fastAnswer : List LedgerEvent :=
  [.create 1, .publish, .status "hq/c" ⟨7, .rejected, some "invalid config shape"⟩ 2,
    .setPending 3]

theorem final_state_lost :
    ¬NeverReopened fastPush (Ledger.init Db.empty) fastAnswer ∧
      (revisionRow (Runs.final (ledgerStep fastPush) (Ledger.init Db.empty) fastAnswer).db 0).map
        (·.state) = some .pending := by
  refine ⟨?_, by decide⟩
  rintro ⟨_, _, _, hkeeps, _⟩
  have hfinal : RowFinal (Runs.final (ledgerStep fastPush) (Ledger.init Db.empty)
      [.create 1, .publish, .status "hq/c" ⟨7, .rejected, some "invalid config shape"⟩ 2]) :=
    ⟨_, _, rfl, rfl, by decide⟩
  obtain ⟨copy, row, hcopy, hrow, hstate⟩ := hkeeps hfinal
  cases hcopy
  cases hrow
  exact absurd hstate (by decide)

/-- A status that comes after the write of `pending` stays. -/
theorem neverReopened_slow :
    NeverReopened fastPush (Ledger.init Db.empty)
      [.create 1, .publish, .setPending 2, .status "hq/c" ⟨7, .ok, none⟩ 3,
        .status "hq/c" ⟨7, .rejected, some "replay rejected"⟩ 4] := by
  refine (neverReopened_iff fastPush Db.empty _ ?_).mpr
    ⟨trivial, trivial, ?_, trivial, trivial, trivial⟩
  · intro r hr
    cases hr
  · intro copy hcopy
    rfl

end Efdi.Federation

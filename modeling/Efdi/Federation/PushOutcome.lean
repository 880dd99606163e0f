import Efdi.Federation.Ledger
import Efdi.Federation.Protected

/-!
# The outcome of a push

One push from a parent to a child.  The envelope reaches the child any number of times, and the
statuses that the child publishes reach the parent any number of times and in any order.

The child answers a duplicate of a version that it has handled with a rejection of that version,
and the parent writes whatever status comes last.  A revision is never `applied` unless the child
applied the push, and it ends as `applied` when nothing is written over that (`pushOutcome`).
-/

namespace Efdi.Federation

open List Option Bool
open Runs (Guarded)
open Trust (Libs)

/-- The parent, the child and what is on its way. -/
structure Exchange where
  ledger : Ledger
  router : Router
  /-- The statuses that the child published, oldest first. -/
  answers : List Answer
  /-- The places of the statuses that the parent got. -/
  delivered : List Nat
  /-- A call of `apply_rendered_config` returned `applied`. -/
  applied : Bool

/-- What happens: a transaction of the push, the envelope at the child, a status at the
parent. -/
inductive ExchangeEvent where
  | create (now : Int)
  | publish
  | setPending (now : Int)
  | fail (detail : String) (now : Int)
  | push (host : PushHost)
  | status (place : Nat) (now : Int)

/-- A status as the parent reads it. -/
def Answer.report? (a : Answer) : Option StatusReport :=
  match a.version with
  | .int version => some ⟨version, a.health, a.error⟩
  | _ => none

/-- The call of `apply_rendered_config` returned `applied`. -/
def Handled.returnedApplied (h : Handled) : Bool := h.applied.any fun call => isApplied call.2.2

variable (J : Json5.Library) (L : Libs) (own : String) (p : Push) (envelope : PyJson)

/-- One event.  The envelope and the statuses exist from when they are published. -/
def exchangeStep (s : Exchange) : ExchangeEvent → Exchange
  | .create now => { s with ledger := ledgerStep p s.ledger (.create now) }
  | .publish => { s with ledger := ledgerStep p s.ledger .publish }
  | .setPending now => { s with ledger := ledgerStep p s.ledger (.setPending now) }
  | .fail detail now => { s with ledger := ledgerStep p s.ledger (.fail detail now) }
  | .push host =>
    if s.ledger.phase.isPublished then
      let handled := handlePush J L own s.router host (some envelope)
      { s with
        router := handled.router
        answers := s.answers ++ handled.answer.toList
        applied := s.applied || handled.returnedApplied }
    else s
  | .status place now =>
    match s.answers[place]? with
    | some answer =>
      { s with
        ledger :=
          match answer.report? with
          | some report => ledgerStep p s.ledger (.status p.targetNamespace report now)
          | none => s.ledger
        delivered := s.delivered ++ [place] }
    | none => s

/-- Before the push. -/
def Exchange.init (db : Db) (router : Router) : Exchange := ⟨Ledger.init db, router, [], [], false⟩

/-- The state of the revision of the push. -/
def Ledger.state (s : Ledger) : Option RevisionState :=
  (s.phase.copy?.bind fun copy => revisionRow s.db copy.id).map (·.state)

/-- Every status that the child published has reached the parent. -/
def Exchange.AllDelivered (s : Exchange) : Prop := ∀ i < s.answers.length, i ∈ s.delivered

/-- No other state is written over `applied`: by the push, which writes `pending` or `failed`, or
by a status that is not `ok`. -/
def KeepsApplied (s : Exchange) : ExchangeEvent → Prop
  | .setPending _ => s.ledger.state ≠ some .applied
  | .fail _ _ => s.ledger.state ≠ some .applied
  | .status place _ =>
    s.ledger.state = some .applied →
      ∀ answer, s.answers[place]? = some answer → answer.health = .ok
  | _ => True

/-- The envelope carries the version of the push. -/
structure Carries (p : Push) (envelope : PyJson) : Prop where
  version : ∃ items, envelope.get? "payload" = some (.dict items) ∧
    PyJson.lookup "version" items = some (.int p.version)
  nonneg : 0 ≤ p.version

/-! ## Answers of the child -/

variable {J L own p envelope}

theorem payloadVersion_of_carries (h : Carries p envelope) :
    payloadVersion envelope = .int p.version := by
  obtain ⟨items, hpayload, hversion⟩ := h.version
  rw [payloadVersion, hpayload]
  show (PyJson.lookup "version" items).getD (.int (-1)) = .int p.version
  rw [hversion, getD_some]

/-- The verified payload is the one of the envelope, with its version. -/
theorem signedVersion_of_carries (h : Carries p envelope) {pem : String} {now : Int}
    {payload : PyJson} (hverify : verifyEnvelope L envelope pem none .config now = .ok payload) :
    signedVersion payload = some p.version := by
  obtain ⟨_, -, -, hok⟩ := verifyEnvelope_ok hverify
  obtain ⟨items, hpayload, hversion⟩ := h.version
  obtain rfl := some.inj (hok.body.symm.trans hpayload)
  rw [signedVersion, PyJson.get?_dict, hversion]
  exact if_pos h.nonneg

variable {router : Router} {host : PushHost}

/-- A refusal of the push names its version. -/
theorem version_of_rejected (h : Carries p envelope) {router' : Router} {version : PyJson}
    {error : String}
    (hjudged : judgePush J L own router host (some envelope) = (router', .rejected version error)) :
    version = .int p.version := by
  simp only [judgePush] at hjudged
  split at hjudged
  next => cases hjudged
  next parent hparent =>
    split at hjudged
    next =>
      obtain ⟨-, hrejected⟩ := Prod.mk.inj hjudged
      obtain ⟨rfl, -⟩ := Judgement.rejected.inj hrejected
      exact payloadVersion_of_carries h
    next payload hverified =>
      obtain ⟨pem, -, hverify⟩ := Checks.bind_eq_ok.mp hverified
      rw [judgePayload, signedVersion_of_carries h hverify] at hjudged
      dsimp only at hjudged
      split at hjudged
      next => cases hjudged; rfl
      next =>
        split at hjudged
        next => cases hjudged; rfl
        next =>
          split at hjudged
          next =>
            obtain ⟨-, hrejected⟩ := Prod.mk.inj hjudged
            rw [judgeCandidate] at hrejected
            split at hrejected
            next =>
              split at hrejected
              next => cases hrejected; rfl
              next => cases hrejected
            next =>
              split at hrejected
              next => cases hrejected
              next => cases hrejected; rfl
              next => cases hrejected
          next => cases hjudged

theorem version_of_accepted (h : Carries p envelope) {version : Int} {rendered : String}
    {fields : ConfigFields}
    (haccepted : Accepted J L own router host envelope version rendered fields) :
    version = p.version := by
  obtain ⟨pem, payload, -, hverify, hversion, -⟩ := haccepted.signed
  have hsigned := (signedVersion_eq_some (signedVersion_of_carries h hverify)).1
  rw [hversion] at hsigned
  exact PyJson.int.inj (some.inj hsigned)

theorem resultAnswer_ok (version : Int) (result : ApplyResult) :
    (resultAnswer version result).health = .ok ↔ result.status = .applied := by
  rw [resultAnswer]
  split
  next happlied => exact iff_of_true rfl happlied
  next hnot =>
    refine iff_of_false ?_ hnot
    dsimp only
    split
    · nofun
    · nofun

/-- The child answers for the version of the push, with `ok` exactly when it applied it. -/
theorem handlePush_answer (h : Carries p envelope) (router : Router) (host : PushHost) :
    (∀ a, (handlePush J L own router host (some envelope)).answer = some a →
      a.version = .int p.version ∧
        (a.health = .ok →
          (handlePush J L own router host (some envelope)).returnedApplied = true)) ∧
      ((handlePush J L own router host (some envelope)).returnedApplied = true →
        ∃ a, (handlePush J L own router host (some envelope)).answer = some a ∧
          a.health = .ok) := by
  cases hjudged : judgePush J L own router host (some envelope) with
  | mk router' judgement =>
    cases judgement with
    | ignored =>
      simp only [handlePush, hjudged, Handled.returnedApplied]
      exact ⟨fun a ha => (by cases ha), fun hout => (by cases hout)⟩
    | raised =>
      simp only [handlePush, hjudged, Handled.returnedApplied]
      exact ⟨fun a ha => (by cases ha), fun hout => (by cases hout)⟩
    | rejected version error =>
      have hversion := version_of_rejected h hjudged
      simp only [handlePush, hjudged, Handled.returnedApplied]
      refine ⟨fun a ha => ?_, fun hout => (by cases hout)⟩
      obtain rfl := some.inj ha
      exact ⟨hversion, fun hok => (by cases hok)⟩
    | accepted version rendered fields =>
      obtain ⟨e, he, haccepted, -⟩ := judgePush_accepted hjudged
      obtain rfl := some.inj he
      have hversion := version_of_accepted h haccepted
      simp only [handlePush, hjudged, Handled.returnedApplied, any_some]
      cases hout : (applyRenderedConfig host.activation rendered fields true true
          router'.disk).2 with
      | error message => exact ⟨fun a ha => (by cases ha), fun happlied => (by cases happlied)⟩
      | ok result =>
        have hstatus : isApplied (.ok result) = true ↔ result.status = .applied := by
          simp [isApplied]
        constructor
        · intro a ha
          obtain rfl := some.inj ha
          refine ⟨?_, fun hok => hstatus.mpr ((resultAnswer_ok version result).mp hok)⟩
          rw [← hversion, resultAnswer]
          split
          · rfl
          · rfl
        · intro happlied
          exact ⟨_, rfl, (resultAnswer_ok version result).mpr (hstatus.mp happlied)⟩

/-! ## The invariant -/

/-- The only revision of the target and version of a push is its own. -/
def OwnRevision (p : Push) (s : Ledger) : Prop :=
  ∀ r ∈ s.db.revisions, r.targetNamespace = p.targetNamespace → r.version = p.version →
    ∃ copy, s.phase.copy? = some copy ∧ r.id = copy.id

/-- What holds of an exchange. -/
structure ExchangeInv (p : Push) (s : Exchange) : Prop where
  ledger : LedgerInv p s.ledger
  own : OwnRevision p s.ledger
  answers : ∀ a ∈ s.answers, a.version = .int p.version ∧ (a.health = .ok → s.applied = true)
  out : s.answers ≠ [] → s.ledger.phase.isPublished = true
  applied : s.applied = true → ∃ a ∈ s.answers, a.health = .ok
  truthful : s.ledger.state = some .applied → s.applied = true

/-- A status of the push is recorded in its revision. -/
theorem state_status {s : Ledger} (hinv : LedgerInv p s) (hown : OwnRevision p s)
    (hout : s.phase.isPublished = true) {report : StatusReport}
    (hversion : report.version = p.version) (now : Int) :
    (ledgerStep p s (.status p.targetNamespace report now)).state =
      some report.health.revisionState := by
  have hcopy : ∃ copy, s.phase.copy? = some copy := by
    cases hphase : s.phase with
    | start => rw [hphase] at hout; cases hout
    | created copy => exact ⟨copy, rfl⟩
    | published copy => exact ⟨copy, rfl⟩
    | finished copy out => exact ⟨copy, rfl⟩
  obtain ⟨copy, hcopy⟩ := hcopy
  obtain ⟨row, hrow⟩ := hinv.row copy hcopy
  have hmem : row ∈ s.db.revisions := mem_of_find?_eq_some hrow
  have hid : row.id = copy.id := by simpa using find?_some hrow
  have hkey := hinv.own copy hcopy row hmem hid
  have hhits : s.hits p.targetNamespace report = true := by
    have hmatch : row ∈ s.db.revisions.filter fun r =>
        r.targetNamespace == p.targetNamespace && r.version == report.version :=
      mem_filter.mpr ⟨hmem, by simp [hkey.1, hkey.2, hversion]⟩
    obtain ⟨found, hfound⟩ : ∃ found, latestRevision s.db p.targetNamespace report.version =
        some found := latestBy_isSome hmatch
    obtain ⟨hfoundMem, hfoundKey⟩ := mem_filter.mp (latestBy_mem hfound)
    rw [and_eq_true, beq_iff_eq, beq_iff_eq] at hfoundKey
    obtain ⟨copy', hcopy', hfoundId⟩ :=
      hown found hfoundMem hfoundKey.1 (hfoundKey.2.trans hversion)
    obtain rfl := some.inj (hcopy.symm.trans hcopy')
    rw [Ledger.hits, hcopy, any_some, hfound, any_some, hfoundId]
    exact beq_self_eq_true _
  have hcause : ¬(p.targetNamespace = p.targetNamespace ∧ report.version = p.version ∧
      !s.phase.isPublished) := by
    rintro ⟨-, -, hnot⟩
    rw [hout] at hnot
    cases hnot
  rw [ledgerStep, if_neg hcause, Ledger.state]
  dsimp only
  rw [hcopy, bind_some, revisionRow_status hcopy hrow, if_pos hhits, map_some]
  rfl

theorem OwnRevision.of_sameKeys {s s' : Ledger} (h : OwnRevision p s) (hkeys : SameKeys s.db s'.db)
    (hcopy : s'.phase.copy? = s.phase.copy?) : OwnRevision p s' := by
  intro r hr htarget hversion
  obtain ⟨r₀, hmem, hid, htarget₀, hversion₀⟩ := hkeys.2 r hr
  rw [hcopy, hid]
  exact h r₀ hmem (htarget₀.symm.trans htarget) (hversion₀.symm.trans hversion)

theorem OwnRevision.step {s : Ledger} (h : OwnRevision p s) (e : LedgerEvent) :
    OwnRevision p (ledgerStep p s e) := by
  cases e with
  | create now =>
    rw [ledgerStep]
    split
    next hphase =>
      intro r hr htarget hversion
      rcases mem_append.mp hr with hr | hr
      · obtain ⟨copy, hcopy, -⟩ := h r hr htarget hversion
        rw [hphase] at hcopy
        cases hcopy
      · rw [mem_singleton.mp hr]
        exact ⟨_, rfl, rfl⟩
    next => exact h
  | publish =>
    rw [ledgerStep]
    split
    next copy hphase =>
      exact h.of_sameKeys ⟨rfl, fun r hr => ⟨r, hr, rfl, rfl, rfl⟩⟩
        (congrArg PushPhase.copy? hphase).symm
    next => exact h
  | setPending now =>
    rw [ledgerStep]
    split
    next copy hphase =>
      exact h.of_sameKeys (sameKeys_setRevisionState _ _ _ _ _)
        (congrArg PushPhase.copy? hphase).symm
    next => exact h
  | fail detail now =>
    rw [ledgerStep]
    split
    next copy hphase =>
      exact h.of_sameKeys (sameKeys_setRevisionState _ _ _ _ _)
        (congrArg PushPhase.copy? hphase).symm
    next copy hphase =>
      exact h.of_sameKeys (sameKeys_setRevisionState _ _ _ _ _)
        (congrArg PushPhase.copy? hphase).symm
    next => exact h
  | status namespace_ report now =>
    rw [ledgerStep]
    split
    · exact h
    · exact h.of_sameKeys (sameKeys_recordStatus _ _ _ _) rfl

/-- Once out, the envelope stays out. -/
theorem isPublished_step {s : Ledger} (h : s.phase.isPublished = true) (e : LedgerEvent) :
    (ledgerStep p s e).phase.isPublished = true := by
  cases hphase : s.phase with
  | start => rw [hphase] at h; cases h
  | created copy => rw [hphase] at h; cases h
  | published copy =>
    cases e with
    | status namespace_ report now =>
      rw [ledgerStep]
      split
      · exact h
      · exact h
    | create now => simp only [ledgerStep, hphase]; rfl
    | publish => simp only [ledgerStep, hphase]; rfl
    | setPending now => simp only [ledgerStep, hphase]; rfl
    | fail detail now => simp only [ledgerStep, hphase]; rfl
  | finished copy out =>
    rw [hphase] at h
    cases e with
    | status namespace_ report now =>
      rw [ledgerStep]
      split
      · rw [hphase]; exact h
      · dsimp only; rw [hphase]; exact h
    | create now => simp only [ledgerStep, hphase]; exact h
    | publish => simp only [ledgerStep, hphase]; exact h
    | setPending now => simp only [ledgerStep, hphase]; exact h
    | fail detail now => simp only [ledgerStep, hphase]; exact h

/-- The state of the row after the push wrote one. -/
theorem state_write {s : Ledger} (hinv : LedgerInv p s) {copy : ConfigRevision}
    (hcopy : s.phase.copy? = some copy) {state : RevisionState} (hstate : state ≠ .validating)
    (detail : Option String) (now : Int) (out : Bool) :
    Ledger.state { s with db := setRevisionState s.db copy state detail now
                          phase := .finished copy out } = some state := by
  obtain ⟨row, hrow⟩ := hinv.row copy hcopy
  obtain ⟨written, hwritten, hwrote⟩ :=
    revisionRow_written state (hinv.copy copy hcopy) hstate hrow detail now
  rw [Ledger.state]
  show ((some copy).bind fun copy => revisionRow (setRevisionState s.db copy state detail now)
    copy.id).map (·.state) = some state
  rw [bind_some, hwritten, map_some, hwrote]

/-- A transaction of the push itself. -/
def OwnTransaction : LedgerEvent → Prop
  | .status _ _ _ => False
  | _ => True

/-- A transaction of the push leaves the state of its revision or writes another than
`applied`. -/
theorem state_own {s : Ledger} (hinv : LedgerInv p s) {e : LedgerEvent} (he : OwnTransaction e) :
    (ledgerStep p s e).state = s.state ∨ (ledgerStep p s e).state ≠ some .applied := by
  have hwrite : ∀ {copy : ConfigRevision} {state : RevisionState} {detail : Option String}
      {now : Int} {out : Bool}, s.phase.copy? = some copy → state ≠ .validating →
      state ≠ .applied → Ledger.state { s with db := setRevisionState s.db copy state detail now
                                               phase := .finished copy out } ≠ some .applied := by
    intro copy state detail now out hcopy hstate hne
    rw [state_write hinv hcopy hstate]
    exact fun h => hne (some.inj h)
  cases e with
  | create now =>
    rw [ledgerStep]
    split
    next hphase =>
      right
      have hcreated := ledgerInv_create hinv hphase now
      obtain ⟨row, hrow⟩ := hcreated.row _ rfl
      have hstate := hcreated.waiting _ row (Or.inl rfl) hrow
      intro happlied
      rw [Ledger.state] at happlied
      dsimp only [PushPhase.copy?, bind_some] at happlied hrow
      rw [hrow, map_some] at happlied
      have hreported : s.reported = false := by
        cases hreported : s.reported with
        | false => rfl
        | true =>
          have hout := hinv.reported hreported
          rw [hphase] at hout
          cases hout
      rw [hreported] at hstate
      simp only [false_eq_true, if_false] at hstate
      rw [hstate] at happlied
      cases happlied
    next => exact Or.inl rfl
  | publish =>
    rw [ledgerStep]
    split
    next copy hphase =>
      left
      rw [Ledger.state, Ledger.state, hphase]
      rfl
    next => exact Or.inl rfl
  | setPending now =>
    rw [ledgerStep]
    split
    next copy hphase =>
      exact Or.inr (hwrite (congrArg PushPhase.copy? hphase) (by decide) (by decide))
    next => exact Or.inl rfl
  | fail detail now =>
    rw [ledgerStep]
    split
    next copy hphase =>
      exact Or.inr (hwrite (congrArg PushPhase.copy? hphase) (by decide) (by decide))
    next copy hphase =>
      exact Or.inr (hwrite (congrArg PushPhase.copy? hphase) (by decide) (by decide))
    next => exact Or.inl rfl
  | status namespace_ report now => exact he.elim

/-! ## Steps -/

section Step

variable {s : Exchange}

theorem exchangeInv_own (h : ExchangeInv p s) {e : LedgerEvent} (he : OwnTransaction e) :
    ExchangeInv p { s with ledger := ledgerStep p s.ledger e } := by
  constructor
  case ledger => exact ledgerInv_step h.ledger e
  case own => exact h.own.step e
  case answers => exact h.answers
  case out => exact fun hne => isPublished_step (h.out hne) e
  case applied => exact h.applied
  case truthful =>
    intro happlied
    rcases state_own h.ledger he with hsame | hother
    · exact h.truthful (hsame.symm.trans happlied)
    · exact absurd happlied hother

/-- A status that the child published is recorded. -/
theorem state_delivered (h : ExchangeInv p s) {answer : Answer} (ha : answer ∈ s.answers)
    (now : Int) :
    ∃ report, answer.report? = some report ∧
      (ledgerStep p s.ledger (.status p.targetNamespace report now)).state =
        some answer.health.revisionState := by
  have hreport : answer.report? = some ⟨p.version, answer.health, answer.error⟩ := by
    rw [Answer.report?, (h.answers answer ha).1]
  refine ⟨_, hreport, ?_⟩
  exact state_status h.ledger h.own (h.out (ne_nil_of_mem ha)) rfl now

theorem exchangeInv_step (hcarries : Carries p envelope) (h : ExchangeInv p s)
    (e : ExchangeEvent) : ExchangeInv p (exchangeStep J L own p envelope s e) := by
  cases e with
  | create now => exact exchangeInv_own h trivial
  | publish => exact exchangeInv_own h trivial
  | setPending now => exact exchangeInv_own h trivial
  | fail detail now => exact exchangeInv_own h trivial
  | push host =>
    rw [exchangeStep]
    split
    next hout =>
      obtain ⟨hanswer, happlies⟩ :=
        @handlePush_answer J L own p envelope hcarries s.router host
      constructor
      case ledger => exact h.ledger
      case own => exact h.own
      case answers =>
        intro a ha
        rcases mem_append.mp ha with ha | ha
        · obtain ⟨hversion, hok⟩ := h.answers a ha
          exact ⟨hversion, fun hhealth => or_eq_true_iff.mpr (Or.inl (hok hhealth))⟩
        · obtain ⟨hversion, hok⟩ := hanswer a (mem_toList.mp ha)
          exact ⟨hversion, fun hhealth => or_eq_true_iff.mpr (Or.inr (hok hhealth))⟩
      case out => exact fun _ => hout
      case applied =>
        intro happlied
        rcases or_eq_true_iff.mp happlied with hbefore | hnow
        · obtain ⟨a, ha, hok⟩ := h.applied hbefore
          exact ⟨a, mem_append_left _ ha, hok⟩
        · obtain ⟨a, ha, hok⟩ := happlies hnow
          exact ⟨a, mem_append_right _ (mem_toList.mpr ha), hok⟩
      case truthful =>
        exact fun hstate => or_eq_true_iff.mpr (Or.inl (h.truthful hstate))
    next => exact h
  | status place now =>
    rw [exchangeStep]
    split
    next answer hanswer =>
      have hmem := mem_of_getElem? hanswer
      obtain ⟨report, hreport, hstate⟩ := state_delivered h hmem now
      simp only [hreport]
      constructor
      case ledger => exact ledgerInv_step h.ledger (.status p.targetNamespace report now)
      case own => exact h.own.step (.status p.targetNamespace report now)
      case answers => exact h.answers
      case out =>
        exact fun hne => isPublished_step (h.out hne) (.status p.targetNamespace report now)
      case applied => exact h.applied
      case truthful =>
        intro happlied
        have hhealth : answer.health = .ok := by
          have hrevision := some.inj (hstate.symm.trans happlied)
          cases hcase : answer.health with
          | ok => rfl
          | rejected => rw [hcase] at hrevision; cases hrevision
          | rolledBack => rw [hcase] at hrevision; cases hrevision
        exact (h.answers answer hmem).2 hhealth
    next => exact h

/-- Once the parent got the `ok` of the child, the revision is `applied`. -/
structure Kept (s : Exchange) : Prop where
  places : ∀ i ∈ s.delivered, i < s.answers.length
  state : ∀ i ∈ s.delivered, ∀ a, s.answers[i]? = some a → a.health = .ok →
    s.ledger.state = some .applied

/-- A state that is `applied` is not that of a push that has still to be created or published. -/
theorem state_create {l : Ledger} (h : l.state = some .applied) (now : Int) :
    (ledgerStep p l (.create now)).state = some .applied := by
  rw [ledgerStep]
  split
  next hphase =>
    rw [Ledger.state, hphase] at h
    cases h
  next => exact h

theorem state_publish {l : Ledger} (h : l.state = some .applied) :
    (ledgerStep p l .publish).state = some .applied := by
  rw [ledgerStep]
  split
  next copy hphase =>
    rw [Ledger.state, hphase] at h
    exact h
  next => exact h

theorem kept_step (h : ExchangeInv p s) (hkept : Kept s) {e : ExchangeEvent}
    (hkeeps : KeepsApplied s e) : Kept (exchangeStep J L own p envelope s e) := by
  cases e with
  | create now =>
    exact ⟨hkept.places, fun i hi a ha hok => state_create (hkept.state i hi a ha hok) now⟩
  | publish =>
    exact ⟨hkept.places, fun i hi a ha hok => state_publish (p := p) (hkept.state i hi a ha hok)⟩
  | setPending now =>
    exact ⟨hkept.places, fun i hi a ha hok => absurd (hkept.state i hi a ha hok) hkeeps⟩
  | fail detail now =>
    exact ⟨hkept.places, fun i hi a ha hok => absurd (hkept.state i hi a ha hok) hkeeps⟩
  | push host =>
    rw [exchangeStep]
    split
    next =>
      constructor
      case places =>
        intro i hi
        have hlt := hkept.places i hi
        rw [List.length_append]
        omega
      case state =>
        intro i hi a ha hok
        rw [List.getElem?_append_left (hkept.places i hi)] at ha
        exact hkept.state i hi a ha hok
    next => exact hkept
  | status place now =>
    rw [exchangeStep]
    split
    next answer hanswer =>
      obtain ⟨report, hreport, hstate⟩ := state_delivered h (List.mem_of_getElem? hanswer) now
      simp only [hreport]
      constructor
      case places =>
        intro i hi
        rcases List.mem_append.mp hi with hi | hi
        · exact hkept.places i hi
        · rw [List.mem_singleton.mp hi]
          exact (List.getElem?_eq_some_iff.mp hanswer).1
      case state =>
        intro i hi a ha hok
        have hhealth : answer.health = .ok := by
          rcases List.mem_append.mp hi with hi | hi
          · exact hkeeps (hkept.state i hi a ha hok) answer hanswer
          · rw [List.mem_singleton.mp hi] at ha
            obtain rfl := Option.some.inj (ha.symm.trans hanswer)
            exact hok
        rw [hhealth] at hstate
        exact hstate
    next => exact hkept

end Step

/-! ## Runs -/

theorem exchangeInv_init {db : Db} (hids : ∀ r ∈ db.revisions, r.id < db.nextId)
    (hfresh : ∀ r ∈ db.revisions, ¬(r.targetNamespace = p.targetNamespace ∧ r.version = p.version))
    (router : Router) : ExchangeInv p (Exchange.init db router) where
  ledger := LedgerInv.init hids
  own := fun r hr htarget hversion => absurd ⟨htarget, hversion⟩ (hfresh r hr)
  answers := fun a ha => absurd ha not_mem_nil
  out := fun hne => absurd rfl hne
  applied := fun h => absurd h false_ne_true
  truthful := fun h => by cases h

/-- A revision is `applied` only when the child applied the push.  In a run that writes nothing
over `applied`, and whose statuses have all reached the parent, it is `applied` when the child
did. -/
theorem pushOutcome (J : Json5.Library) (L : Libs) (own : String) (p : Push) (envelope : PyJson)
    (hcarries : Carries p envelope) (db : Db) (router : Router)
    (hids : ∀ r ∈ db.revisions, r.id < db.nextId)
    (hfresh : ∀ r ∈ db.revisions, ¬(r.targetNamespace = p.targetNamespace ∧ r.version = p.version))
    (es : List ExchangeEvent) :
    ((Runs.final (exchangeStep J L own p envelope) (Exchange.init db router) es).ledger.state =
        some .applied →
      (Runs.final (exchangeStep J L own p envelope) (Exchange.init db router) es).applied = true) ∧
    (Guarded (exchangeStep J L own p envelope) KeepsApplied (Exchange.init db router) es →
      (Runs.final (exchangeStep J L own p envelope) (Exchange.init db router) es).AllDelivered →
      ((Runs.final (exchangeStep J L own p envelope) (Exchange.init db router) es).ledger.state =
          some .applied ↔
        (Runs.final (exchangeStep J L own p envelope) (Exchange.init db router) es).applied =
          true)) := by
  have hinit : ExchangeInv p (Exchange.init db router) := exchangeInv_init hids hfresh router
  have hinv : ExchangeInv p
      (Runs.final (exchangeStep J L own p envelope) (Exchange.init db router) es) :=
    Runs.final_of_step (P := ExchangeInv p) (fun s e h => exchangeInv_step hcarries h e) hinit
  refine ⟨hinv.truthful, fun hguarded hall => ⟨hinv.truthful, fun happlied => ?_⟩⟩
  have hkept : Kept (Runs.final (exchangeStep J L own p envelope) (Exchange.init db router) es) := by
    have hstep : ∀ s e, (ExchangeInv p s ∧ Kept s) → KeepsApplied s e →
        ExchangeInv p (exchangeStep J L own p envelope s e) ∧
          Kept (exchangeStep J L own p envelope s e) :=
      fun s e hs hkeeps => ⟨exchangeInv_step hcarries hs.1 e, kept_step hs.1 hs.2 hkeeps⟩
    have hkeptInit : Kept (Exchange.init db router) :=
      ⟨fun i hi => absurd hi List.not_mem_nil, fun i hi => absurd hi List.not_mem_nil⟩
    exact (Runs.always_of_guarded hstep ⟨hinit, hkeptInit⟩ hguarded).last.2
  obtain ⟨a, ha, hok⟩ := hinv.applied happlied
  obtain ⟨i, hi, hget⟩ := List.getElem_of_mem ha
  exact hkept.state i (hall i hi) a (List.getElem?_eq_some_iff.mpr ⟨hi, hget⟩) hok

/-! ## A duplicate -/

/-- A push that the child applies is answered with `ok`. -/
theorem handlePush_of_accepts {router' : Router} {envelope : Option PyJson} {version : Int}
    {rendered : String} {fields : ConfigFields} (hjudged : judgePush J L own router host envelope =
      (router', .accepted version rendered fields))
    (hreaches : ReachesWrites host.activation fields router'.disk)
    (haccepts : Accepts host.activation true) :
    (handlePush J L own router host envelope).answer = some ⟨.int version, .ok, none⟩ ∧
      (handlePush J L own router host envelope).returnedApplied = true ∧
      (handlePush J L own router host envelope).router.lastSeen = router'.lastSeen := by
  obtain ⟨_, -, happlied, -⟩ := @applyRenderedConfig_reaches host.activation rendered fields true
    true router'.disk hreaches
  have hout := (happlied haccepts).2
  simp only [handlePush, hjudged, Handled.returnedApplied, any_some]
  refine ⟨?_, hout, trivial⟩
  cases hresult : (applyRenderedConfig host.activation rendered fields true true
      router'.disk).2 with
  | error message =>
    rw [hresult] at hout
    cases hout
  | ok result =>
    rw [hresult] at hout
    have hstatus : result.status = .applied := by simpa [isApplied] using hout
    show some (resultAnswer version result) = some ⟨.int version, .ok, none⟩
    rw [resultAnswer, if_pos hstatus]

/-- The text of the refusal of a version that was seen. -/
def replayError (version lastSeen : Int) : String :=
  "replay rejected: version " ++ toString version ++ " <= last seen " ++ toString lastSeen

/-- A version that was seen is answered with a rejection. -/
theorem handlePush_of_seen {payload : PyJson} {version : Int} {rendered : String}
    (hdict : payload.isDict = true) (hversion : signedVersion payload = some version)
    (hconfig : payload.get? "config" = some (.str rendered)) {router : Router}
    (hseen : version ≤ router.lastSeen) (health : Bool) :
    handlePush J (parentOf payload).libs own router (pushHost health) (some (pushed payload)) =
      ⟨router, some ⟨.int version, .rejected, some (replayError version router.lastSeen)⟩,
        none⟩ := by
  have hjudged : judgePush J (parentOf payload).libs own router (pushHost health)
      (some (pushed payload)) =
        (router, .rejected (.int version) (replayError version router.lastSeen)) := by
    rw [judgePush_pushed hdict]
    simp only [judgePayload, hversion, hconfig, bind_some, PyJson.str?, if_pos hseen]
    rfl
  rw [handlePush, hjudged]

/-- A payload with the config that the pod runs on. -/
def samePayload : PyJson :=
  .dict [("version", .int 1), ("config", .str (prefixedText "EFDI" efdi_named))]

/-- Its push. -/
def samePush : Push := ⟨"pod1", 1, "direct", "sha"⟩

/-- The events of the push, in the world where the parent signed that payload. -/
def sameStep : Exchange → ExchangeEvent → Exchange :=
  exchangeStep Json5.reader (parentOf samePayload).libs "pod1" samePush (pushed samePayload)

theorem carries_samePayload : Carries samePush (pushed samePayload) :=
  ⟨⟨_, rfl, rfl⟩, by decide⟩

/-- The parent after the push. -/
def pendingLedger : Ledger :=
  Runs.final (ledgerStep samePush) (Ledger.init Db.empty) [.create 1, .publish, .setPending 2]

theorem judgePush_samePayload :
    judgePush Json5.reader (parentOf samePayload).libs "pod1" prefixedRouter (pushHost true)
        (some (pushed samePayload)) =
      ({ prefixedRouter with lastSeen := 1 },
        .accepted 1 (prefixedText "EFDI" (by decide)) prefixedCurrent) :=
  (judgePush_pushed rfl prefixedRouter true).trans
    (judgePayload_of_allowed rfl rfl (by decide) rfl
      (extractFields_prefixedText (by decide) (by decide))
      (federatedCandidateError_self config_prefixedRouter
        (extractFields_prefixedText (by decide) (by decide)) rfl))

/-- The push is sent and reaches the child. -/
def sameEvents : List ExchangeEvent :=
  [.create 1, .publish, .setPending 2, .push (pushHost true)]

theorem sameStep_first :
    ∃ router : Router, router.lastSeen = 1 ∧
      Runs.final sameStep (Exchange.init Db.empty prefixedRouter) sameEvents =
        ⟨pendingLedger, router, [⟨.int 1, .ok, none⟩], [], true⟩ := by
  obtain ⟨hanswer, happlied, hseen⟩ := handlePush_of_accepts judgePush_samePayload
    ⟨by decide, rfl, by simp [prefixedRouter], rfl⟩ ⟨⟨rfl, rfl, rfl⟩, rfl, rfl⟩
  refine ⟨_, hseen, ?_⟩
  show sameStep ⟨pendingLedger, prefixedRouter, [], [], false⟩ (.push (pushHost true)) = _
  rw [sameStep, exchangeStep, if_pos (by rfl)]
  simp only [hanswer, happlied]
  rfl

/-- It reaches the child again. -/
theorem sameStep_again (hseen : router.lastSeen = 1) :
    sameStep ⟨pendingLedger, router, [⟨.int 1, .ok, none⟩], [], true⟩ (.push (pushHost true)) =
      ⟨pendingLedger, router,
        [⟨.int 1, .ok, none⟩, ⟨.int 1, .rejected, some (replayError 1 1)⟩], [], true⟩ := by
  have hhandled := @handlePush_of_seen Json5.reader "pod1" samePayload 1 _ rfl rfl rfl router
    (by rw [hseen]) true
  rw [sameStep, exchangeStep, if_pos (by rfl), hhandled, hseen]
  rfl

/-- The child applied the push and every status reached the parent in its order, and the
revision is `rejected`. -/
theorem outcome_lost :
    ∃ s, s = Runs.final sameStep (Exchange.init Db.empty prefixedRouter)
        (sameEvents ++ [.push (pushHost true), .status 0 3, .status 1 4]) ∧
      s.AllDelivered ∧ s.applied = true ∧ s.ledger.state = some .rejected := by
  obtain ⟨router, hseen, hfirst⟩ := sameStep_first
  refine ⟨_, rfl, ?_⟩
  rw [Runs.final_append, hfirst, Runs.final_cons, sameStep_again hseen]
  refine ⟨?_, rfl, rfl⟩
  intro i hi
  have hlt : i < 2 := hi
  show i ∈ [0, 1]
  rw [List.mem_cons, List.mem_singleton]
  omega

/-- Without the duplicate the revision is `applied`. -/
theorem pushOutcome_once :
    (Runs.final sameStep (Exchange.init Db.empty prefixedRouter)
      (sameEvents ++ [.status 0 3])).ledger.state = some .applied := by
  obtain ⟨router, -, hfirst⟩ := sameStep_first
  have houtcome := pushOutcome Json5.reader (parentOf samePayload).libs "pod1" samePush
    (pushed samePayload) carries_samePayload Db.empty prefixedRouter
    (fun r hr => absurd hr List.not_mem_nil) (fun r hr => absurd hr List.not_mem_nil)
    (sameEvents ++ [.status 0 3])
  refine (houtcome.2 ?_ ?_).mpr ?_
  · have hbefore : Guarded sameStep KeepsApplied (Exchange.init Db.empty prefixedRouter)
        sameEvents := by
      refine ⟨trivial, trivial, ?_, trivial, trivial⟩
      show (some RevisionState.validating : Option RevisionState) ≠ some .applied
      decide
    refine Runs.guarded_append.mpr ⟨hbefore, ?_⟩
    show Guarded sameStep KeepsApplied (Runs.final sameStep _ sameEvents) [.status 0 3]
    rw [hfirst]
    have hpending : pendingLedger.state ≠ some .applied := by decide
    exact ⟨fun happlied => absurd happlied hpending, trivial⟩
  · show Exchange.AllDelivered (Runs.final sameStep _ _)
    rw [Runs.final_append, hfirst]
    intro i hi
    have hlt : i < 1 := hi
    show i ∈ [0]
    rw [List.mem_singleton]
    omega
  · show (Runs.final sameStep _ _).applied = true
    rw [Runs.final_append, hfirst]
    rfl

end Efdi.Federation

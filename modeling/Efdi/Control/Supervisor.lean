import Efdi.Base.PyDict
import Efdi.Base.Runs
import Mathlib.Algebra.Order.Ring.Rat

/-!
# The supervisor

`sweep` looks at every supervised service and restarts the ones that crashed.  For each service it
keeps how many restarts failed in a row, when the next one may be made, and when the last one
that succeeded was made.

A restart whose process dies within `STABLE_AFTER_S` is meant to count as a failed one, and the
count is meant to be cleared only when the service stayed up for that long.  But a restart that
succeeds clears the count and the delay at once.  So the delays are kept in a run in which no
process dies early (`Stays`), and the count is cleared too early exactly when a restart succeeds
while there is something to clear (`Uncounted`).

Time is a rational number of seconds.  The step of the machine is the visit of one service.
Services are visited one after the other, and a process may exit between two visits.
-/

namespace Efdi.Control

/-! ## One visit -/

/-- `STABLE_AFTER_S`. -/
def stableAfter : Rat := 60

/-- `BACKOFF_BASE_S`. -/
def backoffBase : Rat := 15

/-- `BACKOFF_MAX_S`. -/
def backoffMax : Rat := 600

/-- The delay after some failed restarts. -/
def delayAfter (failures : Nat) : Rat := min (backoffBase * 2 ^ (failures - 1)) backoffMax

/-- `_backoff`.  From `2 ** 1024` on the power does not convert to a float, and it raises. -/
def backoff (failures : Nat) : Option Rat :=
  if failures - 1 < 1024 then some (delayAfter failures) else none

/-- The entry of a service in `state`. -/
structure Entry where
  failures : Nat
  nextAttempt : Rat
  startedAt : Rat
deriving DecidableEq

/-- The entry that `setdefault` makes. -/
def Entry.new : Entry := ⟨0, 0, 0⟩

/-- What one sweep knows for all services. -/
structure Call where
  now : Rat
  startStopped : Bool
  dryRun : Bool

/-- What the visit of a service finds. -/
structure Probe where
  /-- `_service_status`. -/
  running : Bool
  status : String
  /-- The service is in `_selected`. -/
  selected : Bool
  /-- `orphan_pids`. -/
  orphans : List Nat
  /-- The script reports success. -/
  ok : Bool
  /-- `_wait_running`. -/
  cameUp : Bool
  /-- The time after the restart. -/
  after : Rat

/-- The service should run. -/
def wanted (call : Call) (probe : Probe) : Bool :=
  probe.status == "crashed" ||
    (call.startStopped && probe.status == "stopped" && probe.selected)

/-- The visit restarts the service. -/
def attempts (call : Call) (probe : Probe) (entry : Entry) : Bool :=
  !probe.running && wanted call probe && decide (entry.nextAttempt ≤ call.now) &&
    probe.orphans.isEmpty && !call.dryRun

/-- The restart succeeds. -/
def Probe.succeeds (probe : Probe) : Bool := probe.ok && probe.cameUp

/-- The entry after a restart that failed.  When `_backoff` raises, the rest is not written. -/
def Entry.fail (entry : Entry) (after : Rat) : Entry :=
  match backoff (entry.failures + 1) with
  | some delay => ⟨entry.failures + 1, after + delay, 0⟩
  | none => { entry with failures := entry.failures + 1 }

/-- The body of the loop of `sweep`. -/
def visit (call : Call) (probe : Probe) (entry : Entry) : Entry :=
  if probe.running then
    if entry.failures ≠ 0 ∧ entry.startedAt ≠ 0 ∧ stableAfter ≤ call.now - entry.startedAt then
      { entry with failures := 0, startedAt := 0 }
    else entry
  else if wanted call probe = false then entry
  else if call.now < entry.nextAttempt then entry
  else if probe.orphans ≠ [] then entry
  else if call.dryRun then entry
  else if probe.succeeds then ⟨0, 0, probe.after⟩
  else entry.fail probe.after

/-- What a visit does to the entry of the service. -/
theorem visit_cases (call : Call) (probe : Probe) (entry : Entry) :
    (attempts call probe entry = true ∧ probe.succeeds = true ∧
        visit call probe entry = ⟨0, 0, probe.after⟩) ∨
      (attempts call probe entry = true ∧ probe.succeeds = false ∧
        visit call probe entry = entry.fail probe.after) ∨
      (attempts call probe entry = false ∧ entry.failures ≠ 0 ∧ entry.startedAt ≠ 0 ∧
        stableAfter ≤ call.now - entry.startedAt ∧
        visit call probe entry = { entry with failures := 0, startedAt := 0 }) ∨
      (attempts call probe entry = false ∧ visit call probe entry = entry) := by
  rw [visit, attempts]
  split
  next hrunning =>
    split
    next hstable =>
      exact Or.inr (Or.inr (Or.inl ⟨by rw [hrunning]; rfl, hstable.1, hstable.2.1, hstable.2.2, rfl⟩))
    next => exact Or.inr (Or.inr (Or.inr ⟨by rw [hrunning]; rfl, rfl⟩))
  next hrunning =>
    split
    next hwanted => exact Or.inr (Or.inr (Or.inr ⟨by simp [hwanted], rfl⟩))
    next hwanted =>
      split
      next hearly => exact Or.inr (Or.inr (Or.inr ⟨by simp [Rat.not_le.mpr hearly], rfl⟩))
      next hearly =>
        split
        next horphans => exact Or.inr (Or.inr (Or.inr ⟨by simp [horphans], rfl⟩))
        next horphans =>
          split
          next hdry => exact Or.inr (Or.inr (Or.inr ⟨by simp [hdry], rfl⟩))
          next hdry =>
            have hattempts : (!probe.running && wanted call probe &&
                decide (entry.nextAttempt ≤ call.now) && probe.orphans.isEmpty && !call.dryRun) =
                  true := by
              simp [hrunning, hwanted, Rat.not_lt.mp hearly, not_not.mp horphans, hdry]
            split
            next hok => exact Or.inl ⟨hattempts, hok, rfl⟩
            next hok => exact Or.inr (Or.inl ⟨hattempts, Bool.eq_false_iff.mpr hok, rfl⟩)

/-! ## Runs -/

/-- A restart that the supervisor made. -/
inductive Attempt where
  | failed (ended : Rat)
  | started (ended : Rat) (died : Option Rat)

def Attempt.ended : Attempt → Rat
  | failed ended => ended
  | started ended _ => ended

/-- The restart failed, or its process died early. -/
def Attempt.fell : Attempt → Bool
  | failed _ => true
  | started _ none => false
  | started ended (some died) => decide (died - ended < stableAfter)

/-- The supervisor, and the restarts of each service, the last one first. -/
structure Supervisor where
  state : PyDict String Entry
  made : String → List Attempt

def Supervisor.init : Supervisor := ⟨PyDict.empty, fun _ => []⟩

inductive Event where
  /-- A sweep visits a service. -/
  | visit (call : Call) (name : String) (probe : Probe)
  /-- The process of a service exits. -/
  | exit (name : String) (time : Rat)

def Supervisor.entry (s : Supervisor) (name : String) : Entry :=
  (s.state.get? name).getD Entry.new

/-- The restart of a visit. -/
def Probe.attempt (probe : Probe) : Attempt :=
  if probe.succeeds then .started probe.after none else .failed probe.after

/-- The restarts after an exit of the process that the last one started. -/
def exited (time : Rat) : List Attempt → List Attempt
  | .started ended none :: older => .started ended (some time) :: older
  | made => made

def step (s : Supervisor) : Event → Supervisor
  | .visit call name probe =>
    { state := s.state.set name (visit call probe (s.entry name))
      made := fun other =>
        if other = name ∧ attempts call probe (s.entry name) = true then
          probe.attempt :: s.made name
        else s.made other }
  | .exit name time =>
    { s with made := fun other => if other = name then exited time (s.made name) else s.made other }

/-- `sweep`.  It goes on to the next service unless `_backoff` raises. -/
def sweep (call : Call) : Supervisor → List (String × Probe) → Supervisor
  | s, [] => s
  | s, (name, probe) :: probes =>
    let after := step s (.visit call name probe)
    if attempts call probe (s.entry name) = true ∧ probe.succeeds = false ∧
        backoff ((s.entry name).failures + 1) = none then after
    else sweep call after probes

/-- A sweep visits services one after the other. -/
theorem sweep_eq_final (call : Call) : ∀ (probes : List (String × Probe)) (s : Supervisor),
    ∃ n, sweep call s probes =
      Runs.final step s ((probes.take n).map fun p => Event.visit call p.1 p.2)
  | [], s => ⟨0, rfl⟩
  | (name, probe) :: probes, s => by
    obtain ⟨n, hn⟩ := sweep_eq_final call probes (step s (.visit call name probe))
    rw [sweep]
    split
    next => exact ⟨1, rfl⟩
    next => exact ⟨n + 1, hn⟩

/-! ## The rule -/

/-- How many of the last restarts failed or were short-lived. -/
def fallen (made : List Attempt) : Nat := (made.takeWhile Attempt.fell).length

/-- A restart is made when the delay after those that fell before it has passed. -/
def Spaced (s : Supervisor) : Event → Prop
  | .visit call name probe =>
    attempts call probe (s.entry name) = true → 0 < fallen (s.made name) →
      ∀ last ∈ (s.made name).head?, last.ended + delayAfter (fallen (s.made name)) ≤ call.now
  | .exit _ _ => True

/-- The failure count is cleared when the process of the last restart stayed up. -/
def Cleared (s : Supervisor) : Event → Prop
  | .visit call name probe =>
    (s.entry name).failures ≠ 0 → (visit call probe (s.entry name)).failures = 0 →
      ∃ ended, (s.made name).head? = some (.started ended none) ∧
        stableAfter ≤ call.now - ended
  | .exit _ _ => True

/-- No process that the supervisor started dies early. -/
def Stays (s : Supervisor) : Event → Prop
  | .visit _ _ _ => True
  | .exit name time =>
    ∀ ended, (s.made name).head? = some (.started ended none) → stableAfter ≤ time - ended

/-- A restart that succeeds is made with nothing to clear. -/
def Uncounted (s : Supervisor) : Event → Prop
  | .visit call name probe =>
    attempts call probe (s.entry name) = true → probe.succeeds = true →
      (s.entry name).failures = 0
  | .exit _ _ => True

/-- A restart that fails is made while `_backoff` still has a value. -/
def Countable (s : Supervisor) : Event → Prop
  | .visit call name probe =>
    attempts call probe (s.entry name) = true → probe.succeeds = false →
      (s.entry name).failures < 1024
  | .exit _ _ => True

/-! ## What a step does -/

variable {s : Supervisor}

theorem entry_visit (call : Call) (name : String) (probe : Probe) (other : String) :
    (step s (.visit call name probe)).entry other =
      if other = name then visit call probe (s.entry name) else s.entry other := by
  by_cases hother : other = name
  · rw [if_pos hother, hother, Supervisor.entry]
    exact congrArg (Option.getD · _) (PyDict.get?_set_self _ _ _)
  · rw [if_neg hother, Supervisor.entry, Supervisor.entry]
    exact congrArg (Option.getD · _) (PyDict.get?_set_of_ne _ hother _)

/-- What the entry of a service says about its restarts, in any run. -/
structure Kept (entry : Entry) (made : List Attempt) : Prop where
  /-- There is no start to clear the count for. -/
  startedAt : entry.failures ≠ 0 → entry.startedAt = 0
  /-- The last restart failed. -/
  failed : entry.failures ≠ 0 → ∃ ended older, made = .failed ended :: older

/-- What it says when no process died early. -/
structure Counted (entry : Entry) (made : List Attempt) : Prop where
  count : entry.failures = fallen made
  nextAttempt : ∀ last ∈ made.head?, 0 < fallen made →
    entry.nextAttempt = last.ended + delayAfter (fallen made)

variable {call : Call} {probe : Probe} {entry : Entry} {made : List Attempt}

/-- The restarts of a service after a visit. -/
def madeBy (call : Call) (probe : Probe) (entry : Entry) (made : List Attempt) : List Attempt :=
  if attempts call probe entry = true then probe.attempt :: made else made

theorem made_visit (call : Call) (name : String) (probe : Probe) (other : String) :
    (step s (.visit call name probe)).made other =
      if other = name then madeBy call probe (s.entry name) (s.made name) else s.made other := by
  rw [madeBy]
  by_cases hother : other = name
  · rw [if_pos hother, ← hother]
    by_cases hattempts : attempts call probe (s.entry other) = true
    · rw [if_pos hattempts]
      exact if_pos ⟨rfl, hattempts⟩
    · rw [if_neg hattempts]
      exact if_neg fun h => hattempts h.2
  · rw [if_neg hother]
    exact if_neg fun h => hother h.1

theorem failures_fail (entry : Entry) (after : Rat) :
    (entry.fail after).failures = entry.failures + 1 := by
  rw [Entry.fail]
  cases backoff (entry.failures + 1) <;> rfl

theorem backoff_of_lt {failures : Nat} (h : failures < 1024) :
    backoff (failures + 1) = some (delayAfter (failures + 1)) :=
  if_pos h

theorem fail_of_lt (h : entry.failures < 1024) (after : Rat) :
    entry.fail after =
      ⟨entry.failures + 1, after + delayAfter (entry.failures + 1), 0⟩ := by
  rw [Entry.fail, backoff_of_lt h]

theorem startedAt_fail (h : entry.failures ≠ 0 → entry.startedAt = 0) (after : Rat) :
    (entry.fail after).startedAt = 0 := by
  by_cases hlt : entry.failures < 1024
  · rw [fail_of_lt hlt]
  · rw [Entry.fail]
    cases backoff (entry.failures + 1) with
    | some delay => rfl
    | none => exact h (by omega)

theorem kept_visit (h : Kept entry made) :
    Kept (visit call probe entry) (madeBy call probe entry made) := by
  rcases visit_cases call probe entry with ⟨hattempts, hok, hvisit⟩ | ⟨hattempts, hok, hvisit⟩ |
    ⟨hattempts, hfailures, hstarted, -, -⟩ | ⟨hattempts, hvisit⟩
  · rw [hvisit]
    exact ⟨fun hne => absurd rfl hne, fun hne => absurd rfl hne⟩
  · rw [hvisit, madeBy, if_pos hattempts, Probe.attempt, hok]
    exact ⟨fun _ => startedAt_fail h.startedAt _, fun _ => ⟨_, _, rfl⟩⟩
  · exact absurd (h.startedAt hfailures) hstarted
  · rw [hvisit, madeBy, hattempts]
    exact h

theorem kept_exited (h : Kept entry made) (time : Rat) : Kept entry (exited time made) := by
  refine ⟨h.startedAt, fun hfailures => ?_⟩
  obtain ⟨ended, older, rfl⟩ := h.failed hfailures
  exact ⟨ended, older, rfl⟩

theorem fallen_of_not_fell {attempt : Attempt} (h : attempt.fell = false) (made : List Attempt) :
    fallen (attempt :: made) = 0 := by
  rw [fallen, List.takeWhile_cons_of_neg (Bool.eq_false_iff.mp h)]
  rfl

/-- A visit counts the restarts that fell. -/
theorem counted_visit (hkept : Kept entry made) (h : Counted entry made)
    (hcountable : attempts call probe entry = true → probe.succeeds = false →
      entry.failures < 1024) :
    Counted (visit call probe entry) (madeBy call probe entry made) := by
  rcases visit_cases call probe entry with ⟨hattempts, hok, hvisit⟩ | ⟨hattempts, hok, hvisit⟩ |
    ⟨hattempts, hfailures, hstarted, -, -⟩ | ⟨hattempts, hvisit⟩
  · have hzero : fallen (Attempt.started probe.after none :: made) = 0 :=
      fallen_of_not_fell rfl made
    rw [hvisit, madeBy, if_pos hattempts, Probe.attempt, if_pos hok]
    refine ⟨hzero.symm, fun last _ hpos => ?_⟩
    rw [hzero] at hpos
    exact absurd hpos (Nat.lt_irrefl 0)
  · rw [hvisit, madeBy, if_pos hattempts, Probe.attempt, hok, fail_of_lt (hcountable hattempts hok)]
    refine ⟨?_, fun last hlast _ => ?_⟩
    · rw [h.count]
      rfl
    · obtain rfl : Attempt.failed probe.after = last := Option.some.inj hlast
      rw [h.count]
      rfl
  · exact absurd (hkept.startedAt hfailures) hstarted
  · rw [hvisit, madeBy, hattempts]
    exact h

/-- A process that stayed up leaves nothing to count. -/
theorem counted_exited (h : Counted entry made) {time : Rat}
    (hstays : ∀ ended, made.head? = some (.started ended none) → stableAfter ≤ time - ended) :
    Counted entry (exited time made) := by
  cases made with
  | nil => exact h
  | cons attempt older =>
    cases attempt with
    | failed ended => exact h
    | started ended died =>
      cases died with
      | some died => exact h
      | none =>
        have hfell : (Attempt.started ended (some time)).fell = false :=
          decide_eq_false (Rat.not_lt.mpr (hstays ended rfl))
        have hzero := fallen_of_not_fell hfell older
        have hbefore : entry.failures = 0 := h.count
        refine ⟨hbefore.trans hzero.symm, fun last _ hpos => ?_⟩
        rw [exited, hzero] at hpos
        exact absurd hpos (Nat.lt_irrefl 0)

/-! ## The rule along a run -/

theorem kept_step (h : ∀ name, Kept (s.entry name) (s.made name)) (e : Event) (other : String) :
    Kept ((step s e).entry other) ((step s e).made other) := by
  cases e with
  | visit call name probe =>
    rw [entry_visit, made_visit]
    by_cases hother : other = name
    · rw [if_pos hother, if_pos hother]
      exact kept_visit (h name)
    · rw [if_neg hother, if_neg hother]
      exact h other
  | exit name time =>
    show Kept (s.entry other) (if other = name then exited time (s.made name) else s.made other)
    by_cases hother : other = name
    · rw [if_pos hother, hother]
      exact kept_exited (h name) time
    · rw [if_neg hother]
      exact h other

theorem counted_step (hkept : ∀ name, Kept (s.entry name) (s.made name))
    (h : ∀ name, Counted (s.entry name) (s.made name)) {e : Event} (hstays : Stays s e)
    (hcountable : Countable s e) (other : String) :
    Counted ((step s e).entry other) ((step s e).made other) := by
  cases e with
  | visit call name probe =>
    rw [entry_visit, made_visit]
    by_cases hother : other = name
    · rw [if_pos hother, if_pos hother]
      exact counted_visit (hkept name) (h name) hcountable
    · rw [if_neg hother, if_neg hother]
      exact h other
  | exit name time =>
    show Counted (s.entry other) (if other = name then exited time (s.made name) else s.made other)
    by_cases hother : other = name
    · rw [if_pos hother, hother]
      exact counted_exited (h name) hstays
    · rw [if_neg hother]
      exact h other

/-- A restart waits for the delay of the entry. -/
theorem spaced_of_counted (h : ∀ name, Counted (s.entry name) (s.made name)) (e : Event) :
    Spaced s e := by
  cases e with
  | visit call name probe =>
    intro hattempts hfallen last hlast
    rw [← (h name).nextAttempt last hlast hfallen]
    rw [attempts] at hattempts
    simp only [Bool.and_eq_true, decide_eq_true_eq] at hattempts
    exact hattempts.1.1.2
  | exit name time => trivial

/-- The count is cleared too early exactly when a restart succeeds with something to clear. -/
theorem cleared_iff (h : ∀ name, Kept (s.entry name) (s.made name)) (e : Event) :
    Cleared s e ↔ Uncounted s e := by
  cases e with
  | exit name time => exact Iff.rfl
  | visit call name probe =>
    have hnever : (s.entry name).failures ≠ 0 → ¬ ∃ ended,
        (s.made name).head? = some (.started ended none) ∧ stableAfter ≤ call.now - ended := by
      rintro hfailures ⟨ended, hhead, -⟩
      obtain ⟨last, older, hmade⟩ := (h name).failed hfailures
      rw [hmade] at hhead
      cases Option.some.inj hhead
    rw [Cleared, Uncounted]
    rcases visit_cases call probe (s.entry name) with ⟨hattempts, hok, hvisit⟩ |
      ⟨hattempts, hok, hvisit⟩ | ⟨hattempts, hfailures, hstarted, -, -⟩ | ⟨hattempts, hvisit⟩
    · rw [hvisit]
      constructor
      · exact fun hcleared _ _ => not_not.mp fun hne => hnever hne (hcleared hne rfl)
      · exact fun hzero hne => absurd (hzero hattempts hok) hne
    · rw [hvisit, failures_fail, hok]
      exact iff_of_true (fun _ hzero => absurd hzero (Nat.succ_ne_zero _))
        fun _ hok' => absurd hok' Bool.false_ne_true
    · exact absurd ((h name).startedAt hfailures) hstarted
    · rw [hvisit, hattempts]
      exact iff_of_true (fun hne hzero => absurd hzero hne)
        fun hattempts' => absurd hattempts' Bool.false_ne_true

theorem kept_init (name : String) :
    Kept (Supervisor.init.entry name) (Supervisor.init.made name) :=
  ⟨fun h => absurd rfl h, fun h => absurd rfl h⟩

theorem counted_init (name : String) :
    Counted (Supervisor.init.entry name) (Supervisor.init.made name) :=
  ⟨rfl, fun _ h => by cases h⟩

/-- In a run in which no process dies early, restarts that succeed find nothing to clear and the
count stays in the range of `_backoff`, every restart is spaced and the count is cleared after a
stable time only.  The count is cleared too early exactly in the runs in which a restart succeeds
with something to clear. -/
theorem guarded_spaced_cleared (events : List Event) :
    (Runs.Guarded step (fun s e => Stays s e ∧ Uncounted s e ∧ Countable s e) Supervisor.init
        events →
      Runs.Guarded step (fun s e => Spaced s e ∧ Cleared s e) Supervisor.init events) ∧
    (Runs.Guarded step Cleared Supervisor.init events ↔
      Runs.Guarded step Uncounted Supervisor.init events) := by
  have hcleared : Runs.Guarded step Cleared Supervisor.init events ↔
      Runs.Guarded step Uncounted Supervisor.init events :=
    Runs.guarded_congr (P := fun s => ∀ name, Kept (s.entry name) (s.made name))
      (fun s e h => ⟨kept_step h e, cleared_iff h e⟩) kept_init
  refine ⟨fun h => ?_, hcleared⟩
  refine Runs.Guarded.of_invariant (P := fun s => ∀ name,
    Kept (s.entry name) (s.made name) ∧ Counted (s.entry name) (s.made name)) ?_
    (fun name => ⟨kept_init name, counted_init name⟩) h
  rintro s e hs ⟨hstays, huncounted, hcountable⟩
  have hkept := fun name => (hs name).1
  have hcounted := fun name => (hs name).2
  exact ⟨⟨spaced_of_counted hcounted e, (cleared_iff hkept e).mpr huncounted⟩, fun name =>
    ⟨kept_step hkept e name, counted_step hkept hcounted hstays hcountable name⟩⟩

/-- A service crashes, its restart fails, and the next one is made when the delay has passed. -/
theorem guarded_spaced_cleared_failing :
    Runs.Guarded step (fun s e => Spaced s e ∧ Cleared s e) Supervisor.init
      [.visit ⟨0, false, false⟩ "tak" ⟨false, "crashed", true, [], false, false, 1⟩,
        .visit ⟨15, false, false⟩ "tak" ⟨false, "crashed", true, [], true, true, 15⟩,
        .visit ⟨16, false, false⟩ "tak" ⟨false, "crashed", true, [], false, false, 17⟩] := by
  refine (guarded_spaced_cleared _).1 ⟨⟨trivial, fun _ h => ?_, fun _ _ => ?_⟩,
    ⟨trivial, fun h => ?_, fun _ h => ?_⟩, ⟨trivial, fun _ h => ?_, fun _ _ => ?_⟩, trivial⟩
  · cases h
  · decide
  · revert h
    decide +kernel
  · cases h
  · cases h
  · decide +kernel

/-- A service dies one second after its restart and is restarted at once.  And a restart that
succeeds clears the count of the one that failed before it. -/
theorem restarted_at_once :
    ¬ Runs.Guarded step Spaced Supervisor.init
      [.visit ⟨0, false, false⟩ "tak" ⟨false, "crashed", true, [], true, true, 1⟩,
        .exit "tak" 2,
        .visit ⟨3, false, false⟩ "tak" ⟨false, "crashed", true, [], true, true, 4⟩] ∧
    ¬ Runs.Guarded step Cleared Supervisor.init
      [.visit ⟨0, false, false⟩ "tak" ⟨false, "crashed", true, [], false, false, 1⟩,
        .visit ⟨16, false, false⟩ "tak" ⟨false, "crashed", true, [], true, true, 17⟩] := by
  constructor
  · rintro ⟨-, -, hspaced, -⟩
    have hearly := hspaced (by decide +kernel) (by decide +kernel) (.started 1 (some 2)) rfl
    revert hearly
    decide +kernel
  · rintro ⟨-, hcleared, -⟩
    obtain ⟨ended, hhead, -⟩ := hcleared (by decide +kernel) (by decide +kernel)
    cases Option.some.inj hhead

end Efdi.Control

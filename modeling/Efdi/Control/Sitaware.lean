import Efdi.Base.PyDict
import Efdi.Base.Runs

/-!
# SitaWare processes

The control agent runs one process of the bridge for each enabled target of the
manifest.  What it knows of its processes is in two files for each target, the pid
and a hash of the settings it was started with.  The files outlive the processes,
and a recorded pid is taken for the target's process when its command line names
the script of the bridge, which it does for every target.

So a target that crashed is taken to be running when another target's process was
given its pid.  As long as a process of the script is never given a pid that is
recorded for another target (`Unrecorded`), every process matches its target after
each reconcile in which every start succeeds, and only the processes of the target
that is stopped are sent a signal (`processes_match`).
-/

namespace Efdi.Control.Sitaware

open Runs List Option PyDict

/-! ## Targets and processes -/

/-- A target of the manifest. -/
structure Target where
  id : String
  name : String
  url : String
  urlFallback : Option String
  urlTailscale : Option String
  enabled : Bool
deriving DecidableEq

structure Secret where
  username : String
  password : String
deriving DecidableEq

/-- What `_sitaware_config_hash` hashes. -/
structure Payload where
  url : String
  urlFallback : Option String
  urlTailscale : Option String
  name : String
  username : Option String
  password : Option String
deriving DecidableEq

def payload (target : Target) (secret : Option Secret) : Payload where
  url := target.url
  urlFallback := target.urlFallback
  urlTailscale := target.urlTailscale
  name := target.name
  username := secret.map Secret.username
  password := secret.map Secret.password

/-- The variables that `_sitaware_start` sets, `none` for one that it removes. -/
structure Env where
  sitawareUrl : String
  sitawareUrlFallback : String
  sitawareUrlTailscale : String
  sitawareSource : String
  sitawareUser : Option String
  sitawarePass : Option String
deriving DecidableEq

def environment (target : Target) (secret : Option Secret) : Env where
  sitawareUrl := target.url
  sitawareUrlFallback := target.urlFallback.getD ""
  sitawareUrlTailscale := target.urlTailscale.getD ""
  sitawareSource := target.name
  sitawareUser := secret.map Secret.username
  sitawarePass := secret.map Secret.password

/-- A process of the host. -/
structure Process where
  /-- The command line names the script of the bridge. -/
  script : Bool
  /-- The target that it was started for, and its variables. -/
  owner : Option (String × Env)
  /-- `SIGTERM` was sent to it. -/
  signalled : Bool
deriving DecidableEq

/-- A signal that was sent to stop a target, and the process that got it. -/
structure Signal where
  target : String
  process : Process
deriving DecidableEq

/-- The targets of a manifest have different ids. -/
structure Manifest where
  targets : List Target
  nodup : (targets.map Target.id).Nodup

/-- The files, the processes of the host by pid, and the signals that were sent. -/
structure Pod where
  manifest : Manifest
  secrets : PyDict String Secret
  pids : PyDict String Nat
  hashes : PyDict String String
  processes : PyDict Nat Process
  signals : List Signal

/-- `hashlib.sha256(...).hexdigest()` of the payload, and whether the environment of the agent says
what to poll. -/
structure Host where
  digest : Payload → String
  configured : Bool

/-! ## The operations -/

section

variable (host : Host) (pod : Pod)

/-- `_sitaware_running_pid`. -/
def runningPid (id : String) : Option Nat :=
  (pod.pids.get? id).filter fun pid => (pod.processes.get? pid).any Process.script

/-- Both files of a target are removed. -/
def unlink (id : String) : Pod :=
  { pod with pids := pod.pids.pop id, hashes := pod.hashes.pop id }

/-- `os.kill(pid, SIGTERM)` for a target. -/
def kill (id : String) (pid : Nat) : Pod :=
  match pod.processes.get? pid with
  | none => pod
  | some process =>
    { pod with
      processes := pod.processes.set pid { process with signalled := true }
      signals := ⟨id, process⟩ :: pod.signals }

/-- `_sitaware_stop`. -/
def stop (id : String) : Pod :=
  unlink (match runningPid pod id with
    | none => pod
    | some pid => kill pod id pid) id

/-- The new process of a target, and its files. -/
def launch (target : Target) (pid : Nat) : Pod :=
  let secret := pod.secrets.get? target.id
  { pod with
    processes := pod.processes.set pid
      { script := true
        owner := some (target.id, environment target secret)
        signalled := false }
    pids := pod.pids.set target.id pid
    hashes := pod.hashes.set target.id (host.digest (payload target secret)) }

/-- `_sitaware_start`, with the pid that a new process is given, `none` when `Popen` fails.  The
system gives no pid that is in use. -/
def start (target : Target) (pid : Option Nat) : Pod × Option Nat :=
  if target.url = "" then (pod, none)
  else if !host.configured then (pod, none)
  else
    match pid.filter fun pid => !pod.processes.contains pid with
    | none => (pod, none)
    | some pid => (launch host pod target pid, some pid)

/-- Processes exit that were sent a signal. -/
def exit (gone : List Nat) : Pod :=
  { pod with processes := pod.processes.filter fun pid process =>
      !(process.signalled && gone.contains pid) }

/-- What happens at the turn of a target: which processes exit after their signal before it and
before the start, and which pid the new process is given. -/
structure Turn where
  before : List Nat
  gone : List Nat
  pid : Option Nat

/-- The target is enabled in the manifest. -/
def enabled (id : String) : Bool :=
  pod.manifest.targets.any fun target => target.id = id && target.enabled

/-- The first loop, over the recorded targets. -/
def prune (turns : String → Turn) : List String → Pod → Pod
  | [], pod => pod
  | id :: ids, pod =>
    let pod := exit pod (turns id).before
    prune turns ids (if enabled pod id then pod
      else if (runningPid pod id).isSome then stop pod id
      else unlink pod id)

/-- The target runs with its current settings. -/
def current (target : Target) : Bool :=
  (runningPid pod target.id).isSome &&
    pod.hashes.get? target.id ==
      some (host.digest (payload target (pod.secrets.get? target.id)))

/-- The pod before a target is started. -/
def readied (target : Target) (turn : Turn) : Pod :=
  exit (if (runningPid pod target.id).isSome then stop pod target.id else pod) turn.gone

/-- The second loop for a target that is enabled: the pid of its process when it was started, and
whether it is not blocked. -/
def serve (target : Target) (turn : Turn) : Pod × Option Nat × Bool :=
  let pod := exit pod turn.before
  if current host pod target then (pod, none, true)
  else
    let result := start host (readied pod target turn) target turn.pid
    (result.1, result.2, result.2.isSome)

/-- The second loop, over the manifest, and whether no target is blocked. -/
def serveAll (turns : String → Turn) : List Target → Pod → Pod × Bool
  | [], pod => (pod, true)
  | target :: targets, pod =>
    if target.enabled then
      let result := serve host pod target (turns target.id)
      let rest := serveAll turns targets result.1
      (rest.1, result.2.2 && rest.2)
    else serveAll turns targets pod

/-- `_reconcile_sitaware_targets`: the recorded targets come in any order. -/
def reconcile (known : List String) (turns : String → Turn) : Pod × Bool :=
  serveAll host turns pod.manifest.targets (prune turns known pod)

end

/-! ## Runs -/

inductive Event where
  | manifest (manifest : Manifest)
  | secrets (secrets : PyDict String Secret)
  /-- A process exits. -/
  | exit (pid : Nat)
  /-- Another program is started. -/
  | spawn (pid : Nat) (script : Bool)
  /-- A reconcile, with the recorded targets in the order in which it meets them. -/
  | reconcile (known : List String) (turns : String → Turn)

/-- The pod after an event; an event that is not possible leaves it as it is. -/
def next (host : Host) (pod : Pod) : Event → Pod
  | .manifest manifest => { pod with manifest }
  | .secrets secrets => { pod with secrets }
  | .exit pid => { pod with processes := pod.processes.pop pid }
  | .spawn pid script =>
    if pod.processes.contains pid then pod
    else { pod with processes := pod.processes.set pid ⟨script, none, false⟩ }
  | .reconcile known turns =>
    if known.Perm (pod.pids.entries.map Prod.fst) then (reconcile host pod known turns).1
    else pod

/-! ## The claim -/

/-- Every enabled target has a process of its own with its current settings, and every process of
another target was sent a signal. -/
structure Matches (pod : Pod) : Prop where
  live : ∀ target ∈ pod.manifest.targets, target.enabled = true →
    ∃ pid process, pod.processes.get? pid = some process ∧ process.signalled = false ∧
      process.owner = some (target.id, environment target (pod.secrets.get? target.id))
  stopped : ∀ pid process id env, pod.processes.get? pid = some process →
    process.owner = some (id, env) → enabled pod id = false → process.signalled = true

/-- Signals were sent to processes of the targets that were stopped only. -/
def SignalsOwn (pod : Pod) : Prop :=
  ∀ signal ∈ pod.signals, ∃ env, signal.process.owner = some (signal.target, env)

/-- After a reconcile in which no target is blocked, the processes match the targets. -/
def MatchesAfter (host : Host) (pod : Pod) : Event → Prop
  | .reconcile known turns =>
    known.Perm (pod.pids.entries.map Prod.fst) → (reconcile host pod known turns).2 = true →
      Matches (reconcile host pod known turns).1
  | _ => True

/-- The pid is not recorded for another target. -/
def FreshFor (pod : Pod) (id : String) (pid : Nat) : Prop :=
  ∀ other, other ≠ id → pod.pids.get? other ≠ some pid

/-- No process that the loop starts is given a pid that is recorded for another target. -/
def StartsFresh (host : Host) (turns : String → Turn) : List Target → Pod → Prop
  | [], _ => True
  | target :: targets, pod =>
    if target.enabled then
      (∀ pid, (serve host pod target (turns target.id)).2.1 = some pid →
        FreshFor pod target.id pid) ∧
      StartsFresh host turns targets (serve host pod target (turns target.id)).1
    else StartsFresh host turns targets pod

/-- No process of the script is given a pid that is recorded for another target. -/
def Unrecorded (host : Host) (pod : Pod) : Event → Prop
  | .spawn pid script => script = true → pod.processes.contains pid = false →
      ∀ id, pod.pids.get? id ≠ some pid
  | .reconcile known turns => StartsFresh host turns pod.manifest.targets (prune turns known pod)
  | _ => True

/-! ## Pids that are recorded -/

/-- A recorded pid is the target's process when it is a process of the script, and every process
that was not sent a signal is recorded with the settings that it was started with. -/
structure Owned (host : Host) (pod : Pod) : Prop where
  recorded : ∀ pid process id env, pod.processes.get? pid = some process →
    process.owner = some (id, env) → process.signalled = false →
    pod.pids.get? id = some pid ∧ ∃ target secret, env = environment target secret ∧
      pod.hashes.get? id = some (host.digest (payload target secret))
  own : ∀ id pid process, pod.pids.get? id = some pid →
    pod.processes.get? pid = some process → process.script = true →
    (∃ env, process.owner = some (id, env)) ∧ process.signalled = false
  script : ∀ pid process, pod.processes.get? pid = some process → process.owner ≠ none →
    process.script = true
  signals : SignalsOwn pod

/-- The target has its process, with its current settings. -/
def Serves (pod : Pod) (target : Target) : Prop :=
  ∃ pid process, pod.processes.get? pid = some process ∧ process.signalled = false ∧
    process.owner = some (target.id, environment target (pod.secrets.get? target.id))

section

variable {host : Host} {pod : Pod} {id other : String} {pid : Nat} {process : Process}
  {target : Target} {env : Env}

variable {target' : Target} {turns : String → Turn} {targets : List Target}

/-- What is hashed determines the variables. -/
theorem environment_of_payload {secret secret' : Option Secret}
    (h : payload target secret = payload target' secret') :
    environment target secret = environment target' secret' := by
  simp only [payload, Payload.mk.injEq] at h
  obtain ⟨hurl, hfallback, htailscale, hname, huser, hpass⟩ := h
  simp only [environment, hurl, hfallback, htailscale, hname, huser, hpass]

theorem runningPid_eq_some : runningPid pod id = some pid ↔
    pod.pids.get? id = some pid ∧
      ∃ process, pod.processes.get? pid = some process ∧ process.script = true := by
  simp [runningPid, Option.filter_eq_some_iff, Option.any_eq_true]

/-- A process that was not sent a signal is found by its pid file. -/
theorem Owned.runningPid (h : Owned host pod) (hprocess : pod.processes.get? pid = some process)
    (howner : process.owner = some (id, env)) (hlive : process.signalled = false) :
    runningPid pod id = some pid := by
  refine runningPid_eq_some.mpr ⟨(h.recorded pid process id env hprocess howner hlive).1,
    process, hprocess, h.script pid process hprocess ?_⟩
  rw [howner]
  exact some_ne_none _

theorem get?_exit {gone : List Nat} (h : (exit pod gone).processes.get? pid = some process) :
    pod.processes.get? pid = some process := by
  rw [exit, get?_filter, filter_eq_some_iff] at h
  exact h.1

/-- A process that was not sent a signal does not exit. -/
theorem get?_exit_of_live (gone : List Nat) (h : pod.processes.get? pid = some process)
    (hlive : process.signalled = false) :
    (exit pod gone).processes.get? pid = some process := by
  rw [exit, get?_filter, filter_eq_some_iff]
  exact ⟨h, by simp [hlive]⟩

theorem Owned.exit (h : Owned host pod) (gone : List Nat) : Owned host (exit pod gone) where
  recorded pid process id env hprocess := h.recorded pid process id env (get?_exit hprocess)
  own id pid process hpid hprocess := h.own id pid process hpid (get?_exit hprocess)
  script pid process hprocess := h.script pid process (get?_exit hprocess)
  signals := h.signals

theorem Serves.exit (h : Serves pod target) (gone : List Nat) : Serves (exit pod gone) target := by
  obtain ⟨pid, process, hprocess, hlive, howner⟩ := h
  exact ⟨pid, process, get?_exit_of_live gone hprocess hlive, hlive, howner⟩

/-! ### Stopping -/

theorem stop_of_none (h : runningPid pod id = none) : stop pod id = unlink pod id := by
  rw [stop, h]

theorem stop_eq_of_isSome :
    (if (runningPid pod id).isSome then stop pod id else unlink pod id) = stop pod id := by
  split
  · rfl
  · next h => exact (stop_of_none (by simpa using h)).symm

@[simp] theorem stop_manifest : (stop pod id).manifest = pod.manifest := by
  simp only [stop, unlink, kill]
  split
  · rfl
  · split <;> rfl

@[simp] theorem stop_secrets : (stop pod id).secrets = pod.secrets := by
  simp only [stop, unlink, kill]
  split
  · rfl
  · split <;> rfl

@[simp] theorem stop_pids : (stop pod id).pids = pod.pids.pop id := by
  simp only [stop, unlink, kill]
  split
  · rfl
  · split <;> rfl

@[simp] theorem stop_hashes : (stop pod id).hashes = pod.hashes.pop id := by
  simp only [stop, unlink, kill]
  split
  · rfl
  · split <;> rfl

/-- Stopping a target touches its process only. -/
theorem get?_stop (h : Owned host pod) (hprocess : (stop pod id).processes.get? pid = some process) :
    pod.processes.get? pid = some process ∨
      ∃ old, pod.processes.get? pid = some old ∧ process = { old with signalled := true } ∧
        ∃ env, old.owner = some (id, env) := by
  simp only [stop, unlink, kill] at hprocess
  split at hprocess
  next => exact .inl hprocess
  next running hrunning =>
    obtain ⟨hpid, old, hold, hscript⟩ := runningPid_eq_some.mp hrunning
    simp only [hold] at hprocess
    by_cases hself : pid = running
    · subst hself
      rw [get?_set_self] at hprocess
      exact .inr ⟨old, hold, (some.inj hprocess).symm, (h.own id pid old hpid hold hscript).1⟩
    · rw [get?_set_of_ne _ hself] at hprocess
      exact .inl hprocess

/-- The process of another target is left alone. -/
theorem get?_stop_of_ne (h : Owned host pod) (hprocess : pod.processes.get? pid = some process)
    (howner : process.owner = some (other, env)) (hne : other ≠ id) :
    (stop pod id).processes.get? pid = some process := by
  simp only [stop, unlink, kill]
  split
  next => exact hprocess
  next running hrunning =>
    obtain ⟨hpid, old, hold, hscript⟩ := runningPid_eq_some.mp hrunning
    simp only [hold]
    have hself : pid ≠ running := by
      rintro rfl
      obtain rfl := some.inj (hold.symm.trans hprocess)
      obtain ⟨⟨env', howner'⟩, -⟩ := h.own id pid old hpid hold hscript
      rw [howner] at howner'
      exact hne (congrArg Prod.fst (some.inj howner'))
    rw [get?_set_of_ne _ hself]
    exact hprocess

/-- A stopped target has no process that was not sent a signal. -/
theorem signalled_of_stop (h : Owned host pod)
    (hprocess : (stop pod id).processes.get? pid = some process)
    (howner : process.owner = some (id, env)) : process.signalled = true := by
  rcases get?_stop h hprocess with hold | ⟨old, -, rfl, -⟩
  · by_contra hlive
    rw [Bool.not_eq_true] at hlive
    have hrunning := h.runningPid hold howner hlive
    simp only [stop, unlink, kill, hrunning, hold, get?_set_self] at hprocess
    rw [← some.inj hprocess] at hlive
    cases hlive
  · rfl

theorem Owned.stop (h : Owned host pod) (id : String) : Owned host (stop pod id) where
  recorded pid process id' env hprocess howner hlive := by
    have hne : id' ≠ id := by
      rintro rfl
      rw [signalled_of_stop h hprocess howner] at hlive
      cases hlive
    rw [stop_pids, stop_hashes, get?_pop_of_ne _ hne, get?_pop_of_ne _ hne]
    rcases get?_stop h hprocess with hold | ⟨old, -, rfl, -⟩
    · exact h.recorded pid process id' env hold howner hlive
    · cases hlive
  own id' pid process hpid hprocess hscript := by
    have hne : id' ≠ id := by
      rintro rfl
      rw [stop_pids, get?_pop_self] at hpid
      cases hpid
    rw [stop_pids, get?_pop_of_ne _ hne] at hpid
    rcases get?_stop h hprocess with hold | ⟨old, hold, rfl, env, howner⟩
    · exact h.own id' pid process hpid hold hscript
    · obtain ⟨⟨env', howner'⟩, -⟩ := h.own id' pid old hpid hold hscript
      rw [howner] at howner'
      exact absurd (congrArg Prod.fst (some.inj howner')).symm hne
  script pid process hprocess howner := by
    rcases get?_stop h hprocess with hold | ⟨old, hold, rfl, -⟩
    · exact h.script pid process hold howner
    · exact h.script pid old hold howner
  signals := by
    simp only [Sitaware.stop, unlink, kill]
    split
    next => exact h.signals
    next running hrunning =>
      obtain ⟨hpid, old, hold, hscript⟩ := runningPid_eq_some.mp hrunning
      simp only [hold]
      intro signal hsignal
      rcases mem_cons.mp hsignal with rfl | hmem
      · exact (h.own id running old hpid hold hscript).1
      · exact h.signals signal hmem

/-! ### Starting -/

theorem start_cases (host : Host) (pod : Pod) (target : Target) (pid : Option Nat) :
    start host pod target pid = (pod, none) ∨
      ∃ pid', pod.processes.get? pid' = none ∧
        start host pod target pid = (launch host pod target pid', some pid') := by
  by_cases hurl : target.url = ""
  · exact .inl (by simp [start, hurl])
  · cases hconfigured : host.configured with
    | false => exact .inl (by simp [start, hconfigured])
    | true =>
      cases hpid : pid.filter fun pid => !pod.processes.contains pid with
      | none => exact .inl (by simp [start, hconfigured, hpid])
      | some pid' =>
        have hfree := (filter_eq_some_iff.mp hpid).2
        exact .inr ⟨pid', by simpa [PyDict.contains] using hfree,
          by simp [start, hurl, hconfigured, hpid]⟩

/-- A process of the script is started with a pid that is not recorded. -/
theorem Owned.launch (h : Owned host pod) (hidle : Sitaware.runningPid pod target.id = none)
    (hfree : pod.processes.get? pid = none) (hfresh : FreshFor pod target.id pid) :
    Owned host (launch host pod target pid) := by
  have hself : (Sitaware.launch host pod target pid).processes.get? pid =
      some ⟨true, some (target.id, environment target (pod.secrets.get? target.id)), false⟩ :=
    get?_set_self _ _ _
  have hothers : ∀ other, other ≠ pid →
      (Sitaware.launch host pod target pid).processes.get? other = pod.processes.get? other :=
    fun other hne => get?_set_of_ne _ hne _
  constructor
  · intro other process id env hprocess howner hlive
    by_cases hnew : other = pid
    · subst hnew
      rw [hself] at hprocess
      obtain rfl := some.inj hprocess
      obtain ⟨rfl, rfl⟩ := Prod.mk.inj (some.inj howner)
      exact ⟨get?_set_self _ _ _, target, _, rfl, get?_set_self _ _ _⟩
    · rw [hothers other hnew] at hprocess
      have hne : id ≠ target.id := by
        rintro rfl
        rw [h.runningPid hprocess howner hlive] at hidle
        cases hidle
      have hrecorded := h.recorded other process id env hprocess howner hlive
      simp only [Sitaware.launch, get?_set_of_ne _ hne]
      exact hrecorded
  · intro id other process hpid hprocess hscript
    by_cases hid : id = target.id
    · subst hid
      simp only [Sitaware.launch, get?_set_self, some.injEq] at hpid
      subst hpid
      rw [hself] at hprocess
      obtain rfl := some.inj hprocess
      exact ⟨⟨_, rfl⟩, rfl⟩
    · simp only [Sitaware.launch, get?_set_of_ne _ hid] at hpid
      have hne : other ≠ pid := by
        rintro rfl
        exact hfresh id hid hpid
      rw [hothers other hne] at hprocess
      exact h.own id other process hpid hprocess hscript
  · intro other process hprocess howner
    by_cases hnew : other = pid
    · subst hnew
      rw [hself] at hprocess
      rw [← some.inj hprocess]
    · rw [hothers other hnew] at hprocess
      exact h.script other process hprocess howner
  · exact h.signals

theorem serves_launch : Serves (launch host pod target pid) target :=
  ⟨pid, _, get?_set_self _ _ _, rfl, rfl⟩

theorem Serves.launch (h : Serves pod target') (hfree : pod.processes.get? pid = none) :
    Serves (launch host pod target pid) target' := by
  obtain ⟨other, process, hprocess, hlive, howner⟩ := h
  have hne : other ≠ pid := by
    rintro rfl
    rw [hfree] at hprocess
    cases hprocess
  exact ⟨other, process, (get?_set_of_ne _ hne _).trans hprocess, hlive, howner⟩

theorem Serves.stop (h : Serves pod target') (howned : Owned host pod) (hne : target'.id ≠ id) :
    Serves (stop pod id) target' := by
  obtain ⟨pid, process, hprocess, hlive, howner⟩ := h
  refine ⟨pid, process, get?_stop_of_ne howned hprocess howner hne, hlive, ?_⟩
  rw [stop_secrets]
  exact howner

/-! ### The turn of a target -/

theorem runningPid_exit (h : runningPid pod id = none) (gone : List Nat) :
    runningPid (exit pod gone) id = none := by
  rw [eq_none_iff_forall_ne_some]
  intro pid hrunning
  obtain ⟨hpid, process, hprocess, hscript⟩ := runningPid_eq_some.mp hrunning
  have hsome : runningPid pod id = some pid :=
    runningPid_eq_some.mpr ⟨hpid, process, get?_exit hprocess, hscript⟩
  rw [h] at hsome
  cases hsome

/-- A target whose process was stopped or did not run is not running. -/
theorem runningPid_readied (turn : Turn) :
    runningPid (readied pod target turn) target.id = none := by
  refine runningPid_exit ?_ turn.gone
  split
  next => simp [runningPid, get?_pop_self]
  next h => simpa using h

theorem Owned.readied (h : Owned host pod) (target : Target) (turn : Turn) :
    Owned host (readied pod target turn) := by
  rw [Sitaware.readied]
  split
  · exact (h.stop target.id).exit turn.gone
  · exact h.exit turn.gone

theorem Serves.readied (h : Serves pod target') (howned : Owned host pod)
    (hne : target'.id ≠ target.id) (turn : Turn) : Serves (readied pod target turn) target' := by
  rw [Sitaware.readied]
  split
  · exact (h.stop howned hne).exit turn.gone
  · exact h.exit turn.gone

/-- The manifest, the secrets and the pids of the other targets are as they were. -/
structure Frame (pod pod' : Pod) (id : String) : Prop where
  manifest : pod'.manifest = pod.manifest
  secrets : pod'.secrets = pod.secrets
  pids : ∀ other, other ≠ id → pod'.pids.get? other = pod.pids.get? other

theorem frame_readied (turn : Turn) : Frame pod (readied pod target turn) target.id := by
  rw [readied]
  split
  · exact ⟨stop_manifest, stop_secrets, fun other hne => by
      rw [exit, stop_pids, get?_pop_of_ne _ hne]⟩
  · exact ⟨rfl, rfl, fun _ _ => rfl⟩

theorem frame_launch : Frame pod (launch host pod target pid) target.id :=
  ⟨rfl, rfl, fun _ hne => get?_set_of_ne _ hne _⟩

theorem Frame.trans {pod' pod'' : Pod} (h : Frame pod pod' id) (h' : Frame pod' pod'' id) :
    Frame pod pod'' id :=
  ⟨h'.manifest.trans h.manifest, h'.secrets.trans h.secrets,
    fun other hne => (h'.pids other hne).trans (h.pids other hne)⟩

theorem frame_exit (gone : List Nat) : Frame pod (exit pod gone) id := ⟨rfl, rfl, fun _ _ => rfl⟩

/-- What the turn of a target does to the pod: its process is there already, the start failed, or
a process was started. -/
theorem serve_cases (host : Host) (pod : Pod) (target : Target) (turn : Turn) :
    (current host (exit pod turn.before) target = true ∧
        serve host pod target turn = (exit pod turn.before, none, true)) ∨
      serve host pod target turn = (readied (exit pod turn.before) target turn, none, false) ∨
      ∃ pid, (readied (exit pod turn.before) target turn).processes.get? pid = none ∧
        serve host pod target turn =
          (launch host (readied (exit pod turn.before) target turn) target pid, some pid, true) := by
  cases hcurrent : current host (exit pod turn.before) target with
  | true => exact .inl ⟨rfl, by simp [serve, hcurrent]⟩
  | false =>
    rcases start_cases host (readied (exit pod turn.before) target turn) target turn.pid with
      hstart | ⟨pid, hfree, hstart⟩
    · exact .inr (.inl (by simp [serve, hcurrent, hstart]))
    · exact .inr (.inr ⟨pid, hfree, by simp [serve, hcurrent, hstart]⟩)

theorem frame_serve (host : Host) (pod : Pod) (target : Target) (turn : Turn) :
    Frame pod (serve host pod target turn).1 target.id := by
  have hexit : Frame pod (exit pod turn.before) target.id := frame_exit turn.before
  rcases serve_cases host pod target turn with ⟨-, h⟩ | h | ⟨pid, -, h⟩
  · rw [h]
    exact hexit
  · rw [h]
    exact hexit.trans (frame_readied turn)
  · rw [h]
    exact (hexit.trans (frame_readied turn)).trans frame_launch

theorem Owned.serve (h : Owned host pod) {turn : Turn}
    (hfresh : ∀ pid, (serve host pod target turn).2.1 = some pid → FreshFor pod target.id pid) :
    Owned host (serve host pod target turn).1 := by
  have hexit := h.exit turn.before
  rcases serve_cases host pod target turn with ⟨-, heq⟩ | heq | ⟨pid, hfree, heq⟩
  · rw [heq]
    exact hexit
  · rw [heq]
    exact hexit.readied target turn
  · have hpid := hfresh pid (by rw [heq])
    rw [heq]
    refine (hexit.readied target turn).launch (runningPid_readied turn) hfree ?_
    intro other hne
    rw [(frame_readied turn).pids other hne]
    exact hpid other hne

/-- A target that is not blocked has its process. -/
theorem serves_serve (hdigest : Function.Injective host.digest) (h : Owned host pod) {turn : Turn}
    (hok : (serve host pod target turn).2.2 = true) :
    Serves (serve host pod target turn).1 target := by
  rcases serve_cases host pod target turn with ⟨hcurrent, heq⟩ | heq | ⟨pid, -, heq⟩
  · rw [heq]
    simp only [current, Bool.and_eq_true, isSome_iff_exists, beq_iff_eq] at hcurrent
    obtain ⟨⟨pid, hrunning⟩, hhash⟩ := hcurrent
    obtain ⟨hpid, process, hprocess, hscript⟩ := runningPid_eq_some.mp hrunning
    have hexit := h.exit turn.before
    obtain ⟨⟨env, howner⟩, hlive⟩ := hexit.own target.id pid process hpid hprocess hscript
    obtain ⟨-, target', secret', rfl, hhash'⟩ :=
      hexit.recorded pid process target.id env hprocess howner hlive
    have hpayload := hdigest (some.inj (hhash'.symm.trans hhash))
    exact ⟨pid, process, hprocess, hlive, by rw [howner, environment_of_payload hpayload]⟩
  · rw [heq] at hok
    cases hok
  · rw [heq]
    exact serves_launch

/-- The turn of a target leaves the processes of the others alone. -/
theorem Serves.serve (h : Serves pod target') (howned : Owned host pod)
    (hne : target'.id ≠ target.id) (turn : Turn) :
    Serves (serve host pod target turn).1 target' := by
  have hexit := h.exit turn.before
  rcases serve_cases host pod target turn with ⟨-, heq⟩ | heq | ⟨pid, hfree, heq⟩
  · rw [heq]
    exact hexit
  · rw [heq]
    exact hexit.readied (howned.exit turn.before) hne turn
  · rw [heq]
    exact (hexit.readied (howned.exit turn.before) hne turn).launch hfree

/-! ### The loops -/

theorem serveAll_cons_of_enabled (h : target.enabled = true) :
    serveAll host turns (target :: targets) pod =
      ((serveAll host turns targets (serve host pod target (turns target.id)).1).1,
        (serve host pod target (turns target.id)).2.2 &&
          (serveAll host turns targets (serve host pod target (turns target.id)).1).2) := by
  rw [serveAll, if_pos h]

theorem serveAll_cons_of_disabled (h : target.enabled = false) :
    serveAll host turns (target :: targets) pod = serveAll host turns targets pod := by
  rw [serveAll, if_neg (by simp [h])]

theorem serveAll_frame (host : Host) (turns : String → Turn) (targets : List Target) (pod : Pod) :
    (serveAll host turns targets pod).1.manifest = pod.manifest ∧
      (serveAll host turns targets pod).1.secrets = pod.secrets ∧
      ∀ id, (serveAll host turns targets pod).1.pids.get? id ≠ none →
        pod.pids.get? id ≠ none ∨ ∃ target ∈ targets, target.enabled = true ∧ target.id = id := by
  induction targets generalizing pod with
  | nil => exact ⟨rfl, rfl, fun id h => .inl h⟩
  | cons target targets ih =>
    cases henabled : target.enabled with
    | true =>
      rw [serveAll_cons_of_enabled henabled]
      have hframe := frame_serve host pod target (turns target.id)
      obtain ⟨hmanifest, hsecrets, hpids⟩ := ih (serve host pod target (turns target.id)).1
      refine ⟨hmanifest.trans hframe.manifest, hsecrets.trans hframe.secrets, fun id h => ?_⟩
      by_cases hid : id = target.id
      · exact .inr ⟨target, .head _, henabled, hid.symm⟩
      · rcases hpids id h with hold | ⟨other, hmem, hother⟩
        · rw [hframe.pids id hid] at hold
          exact .inl hold
        · exact .inr ⟨other, .tail _ hmem, hother⟩
    | false =>
      rw [serveAll_cons_of_disabled henabled]
      obtain ⟨hmanifest, hsecrets, hpids⟩ := ih pod
      refine ⟨hmanifest, hsecrets, fun id h => ?_⟩
      rcases hpids id h with hold | ⟨other, hmem, hother⟩
      · exact .inl hold
      · exact .inr ⟨other, .tail _ hmem, hother⟩

theorem Owned.serveAll (h : Owned host pod) (hfresh : StartsFresh host turns targets pod) :
    Owned host (serveAll host turns targets pod).1 := by
  induction targets generalizing pod with
  | nil => exact h
  | cons target targets ih =>
    cases henabled : target.enabled with
    | true =>
      rw [StartsFresh, if_pos henabled] at hfresh
      rw [serveAll_cons_of_enabled henabled]
      exact ih (h.serve hfresh.1) hfresh.2
    | false =>
      rw [StartsFresh, if_neg (by simp [henabled])] at hfresh
      rw [serveAll_cons_of_disabled henabled]
      exact ih h hfresh

/-- Later turns leave the process of a target alone. -/
theorem Serves.serveAll (hserves : Serves pod target') (h : Owned host pod)
    (hfresh : StartsFresh host turns targets pod) (hne : target'.id ∉ targets.map Target.id) :
    Serves (serveAll host turns targets pod).1 target' := by
  induction targets generalizing pod with
  | nil => exact hserves
  | cons target targets ih =>
    rw [map_cons, mem_cons, not_or] at hne
    cases henabled : target.enabled with
    | true =>
      rw [StartsFresh, if_pos henabled] at hfresh
      rw [serveAll_cons_of_enabled henabled]
      exact ih (hserves.serve h hne.1 _) (h.serve hfresh.1) hfresh.2 hne.2
    | false =>
      rw [StartsFresh, if_neg (by simp [henabled])] at hfresh
      rw [serveAll_cons_of_disabled henabled]
      exact ih hserves h hfresh hne.2

/-- When no target is blocked, each enabled one has its process in the end. -/
theorem serves_serveAll (hdigest : Function.Injective host.digest)
    (hnodup : (targets.map Target.id).Nodup) (h : Owned host pod)
    (hfresh : StartsFresh host turns targets pod)
    (hok : (serveAll host turns targets pod).2 = true) :
    ∀ target ∈ targets, target.enabled = true →
      Serves (serveAll host turns targets pod).1 target := by
  induction targets generalizing pod with
  | nil => intro target hmem; cases hmem
  | cons target targets ih =>
    rw [map_cons, nodup_cons] at hnodup
    intro other hmem hother
    cases henabled : target.enabled with
    | true =>
      rw [StartsFresh, if_pos henabled] at hfresh
      rw [serveAll_cons_of_enabled henabled] at hok ⊢
      rw [Bool.and_eq_true] at hok
      have hserved := h.serve hfresh.1
      rcases mem_cons.mp hmem with rfl | hrest
      · exact (serves_serve hdigest h hok.1).serveAll hserved hfresh.2 hnodup.1
      · exact ih hnodup.2 hserved hfresh.2 hok.2 other hrest hother
    | false =>
      rw [StartsFresh, if_neg (by simp [henabled])] at hfresh
      rw [serveAll_cons_of_disabled henabled] at hok ⊢
      rcases mem_cons.mp hmem with rfl | hrest
      · rw [henabled] at hother
        cases hother
      · exact ih hnodup.2 h hfresh hok other hrest hother

/-- After the first loop only enabled targets are recorded. -/
theorem prune_frame (turns : String → Turn) (ids : List String) (pod : Pod) :
    (prune turns ids pod).manifest = pod.manifest ∧ (prune turns ids pod).secrets = pod.secrets ∧
      ∀ id, (prune turns ids pod).pids.get? id ≠ none →
        pod.pids.get? id ≠ none ∧ (id ∈ ids → enabled pod id = true) := by
  induction ids generalizing pod with
  | nil => exact ⟨rfl, rfl, fun id h => ⟨h, fun hmem => by cases hmem⟩⟩
  | cons first ids ih =>
    rw [prune]
    cases henabled : enabled (exit pod (turns first).before) first with
    | true =>
      simp only [if_true]
      obtain ⟨hmanifest, hsecrets, hpids⟩ := ih (exit pod (turns first).before)
      refine ⟨hmanifest, hsecrets, fun id h => ⟨(hpids id h).1, fun hmem => ?_⟩⟩
      rcases mem_cons.mp hmem with rfl | hrest
      · exact henabled
      · exact (hpids id h).2 hrest
    | false =>
      simp only [stop_eq_of_isSome, Bool.false_eq_true, if_false]
      obtain ⟨hmanifest, hsecrets, hpids⟩ := ih (stop (exit pod (turns first).before) first)
      rw [stop_manifest] at hmanifest
      rw [stop_secrets] at hsecrets
      refine ⟨hmanifest, hsecrets, fun id h => ?_⟩
      have hold := (hpids id h).1
      rw [stop_pids] at hold
      have hne : id ≠ first := by
        rintro rfl
        exact hold (get?_pop_self _ _)
      rw [get?_pop_of_ne _ hne] at hold
      refine ⟨hold, fun hmem => ?_⟩
      have hpruned := (hpids id h).2 ((mem_cons.mp hmem).resolve_left hne)
      rwa [enabled, stop_manifest] at hpruned

theorem Owned.prune (h : Owned host pod) (turns : String → Turn) (ids : List String) :
    Owned host (prune turns ids pod) := by
  induction ids generalizing pod with
  | nil => exact h
  | cons first ids ih =>
    rw [Sitaware.prune]
    have hexit := h.exit (turns first).before
    split
    · exact ih hexit
    · rw [stop_eq_of_isSome]
      exact ih (hexit.stop first)

/-! ### Reconciles and other events -/

theorem Owned.reconcile {known : List String} (h : Owned host pod)
    (hfresh : StartsFresh host turns pod.manifest.targets (Sitaware.prune turns known pod)) :
    Owned host (reconcile host pod known turns).1 :=
  (h.prune turns known).serveAll hfresh

theorem matches_reconcile (hdigest : Function.Injective host.digest) {known : List String}
    (h : Owned host pod) (hknown : known.Perm (pod.pids.entries.map Prod.fst))
    (hfresh : StartsFresh host turns pod.manifest.targets (prune turns known pod))
    (hok : (reconcile host pod known turns).2 = true) :
    Matches (reconcile host pod known turns).1 := by
  have hpruned := h.prune turns known
  obtain ⟨hmanifest, hsecrets, hpids⟩ :=
    serveAll_frame host turns pod.manifest.targets (prune turns known pod)
  obtain ⟨hmanifest', hsecrets', hpids'⟩ := prune_frame turns known pod
  have hsame : (reconcile host pod known turns).1.manifest = pod.manifest :=
    hmanifest.trans hmanifest'
  constructor
  · intro target hmem henabled
    rw [hsame] at hmem
    exact serves_serveAll hdigest pod.manifest.nodup hpruned hfresh hok target hmem henabled
  · intro pid process id env hprocess howner hdisabled
    rw [enabled, hsame] at hdisabled
    by_contra hlive
    rw [Bool.not_eq_true] at hlive
    have hrecorded :=
      ((h.reconcile hfresh).recorded pid process id env hprocess howner hlive).1
    -- What is recorded in the end is a target of the manifest or was recorded before.
    rcases hpids id (by rw [← reconcile, hrecorded]; exact some_ne_none pid) with
      hold | ⟨target, hmem, henabled, rfl⟩
    · obtain ⟨hbefore, hkept⟩ := hpids' id hold
      have hmem : id ∈ known := by
        obtain ⟨pid', hpid'⟩ := ne_none_iff_exists'.mp hbefore
        refine hknown.mem_iff.mpr (mem_map.mpr ⟨(id, pid'), ?_, rfl⟩)
        exact get?_eq_some_iff.mp hpid'
      have henabled := hkept hmem
      rw [enabled, hdisabled] at henabled
      cases henabled
    · have hany := any_eq_false.mp hdisabled target hmem
      simp [henabled] at hany

theorem Owned.next (h : Owned host pod) {event : Event} (hguard : Unrecorded host pod event) :
    Owned host (next host pod event) := by
  cases event with
  | manifest manifest => exact ⟨h.recorded, h.own, h.script, h.signals⟩
  | secrets secrets => exact ⟨h.recorded, h.own, h.script, h.signals⟩
  | exit pid =>
    have hold : ∀ {other process}, (pod.processes.pop pid).get? other = some process →
        pod.processes.get? other = some process := fun hprocess =>
      get?_of_get?_pop hprocess
    exact ⟨fun other process id env hprocess => h.recorded other process id env (hold hprocess),
      fun id other process hpid hprocess => h.own id other process hpid (hold hprocess),
      fun other process hprocess => h.script other process (hold hprocess), h.signals⟩
  | spawn pid script =>
    rw [Sitaware.next]
    split
    · exact h
    next hfree =>
      rw [Bool.not_eq_true] at hfree
      have hcases : ∀ {other process},
          (pod.processes.set pid ⟨script, none, false⟩).get? other = some process →
          (other = pid ∧ process = ⟨script, none, false⟩) ∨
            pod.processes.get? other = some process := by
        intro other process hprocess
        by_cases hself : other = pid
        · subst hself
          rw [get?_set_self] at hprocess
          exact .inl ⟨rfl, (some.inj hprocess).symm⟩
        · rw [get?_set_of_ne _ hself] at hprocess
          exact .inr hprocess
      constructor
      · intro other process id env hprocess howner hlive
        rcases hcases hprocess with ⟨-, rfl⟩ | hold
        · cases howner
        · exact h.recorded other process id env hold howner hlive
      · intro id other process hpid hprocess hscript
        rcases hcases hprocess with ⟨rfl, rfl⟩ | hold
        · exact absurd hpid (hguard hscript hfree id)
        · exact h.own id other process hpid hold hscript
      · intro other process hprocess howner
        rcases hcases hprocess with ⟨-, rfl⟩ | hold
        · exact absurd rfl howner
        · exact h.script other process hold howner
      · exact h.signals
  | reconcile known turns =>
    rw [Sitaware.next]
    split
    · exact h.reconcile hguard
    · exact h

end

/-- Nothing was started yet. -/
structure Fresh (pod : Pod) : Prop where
  pids : pod.pids = PyDict.empty
  processes : ∀ pid process, pod.processes.get? pid = some process → process.owner = none
  signals : pod.signals = []

theorem Fresh.owned {pod : Pod} (h : Fresh pod) (host : Host) : Owned host pod where
  recorded pid process id env hprocess howner _ := by
    rw [h.processes pid process hprocess] at howner
    cases howner
  own id pid process hpid _ _ := by
    rw [h.pids] at hpid
    cases hpid
  script pid process hprocess howner := absurd (h.processes pid process hprocess) howner
  signals signal hmem := by
    rw [h.signals] at hmem
    cases hmem

/-- When no process of the script is given a pid that is recorded for another target, the processes
match the targets after every reconcile in which no target is blocked, and only processes of the
target that is stopped are sent a signal. -/
theorem processes_match (host : Host) (hdigest : Function.Injective host.digest) (pod : Pod)
    (hfresh : Fresh pod) (events : List Event)
    (hguard : Guarded (next host) (Unrecorded host) pod events) :
    Guarded (next host) (MatchesAfter host) pod events ∧
      Always (next host) SignalsOwn pod events := by
  have howned : Always (next host) (Owned host) pod events :=
    always_of_guarded (fun pod event h hevent => h.next hevent) (hfresh.owned host) hguard
  refine ⟨guarded_iff.mpr fun before event after hevents => ?_,
    howned.imp fun pod h => h.signals⟩
  have h := always_iff.mp howned before (event :: after) hevents
  have hevent := guarded_iff.mp hguard before event after hevents
  cases event with
  | reconcile known turns =>
    intro hknown hok
    exact matches_reconcile hdigest h hknown hevent hok
  | manifest manifest => trivial
  | secrets secrets => trivial
  | exit pid => trivial
  | spawn pid script => trivial

/-! ## Two targets -/

/-- A string in quotes, each character behind a backslash. -/
def quoted : List Char → List Char → List Char
  | [], rest => '"' :: rest
  | c :: cs, rest => '\\' :: c :: quoted cs rest

theorem quoted_inj : ∀ {cs ds rest rest' : List Char}, quoted cs rest = quoted ds rest' →
    cs = ds ∧ rest = rest'
  | [], [], _, _, h => ⟨rfl, (List.cons.inj h).2⟩
  | [], _ :: _, _, _, h => absurd (List.cons.inj h).1 (by decide)
  | _ :: _, [], _, _, h => absurd (List.cons.inj h).1 (by decide)
  | c :: cs, d :: ds, _, _, h => by
    obtain ⟨hc, htail⟩ := cons.inj (cons.inj h).2
    obtain ⟨rfl, hrest⟩ := quoted_inj htail
    exact ⟨by rw [hc], hrest⟩

def field : Option String → List Char → List Char
  | none, rest => 'n' :: rest
  | some s, rest => quoted s.toList rest

theorem field_inj {a b : Option String} {rest rest' : List Char}
    (h : field a rest = field b rest') : a = b ∧ rest = rest' := by
  have hquoted : ∀ (s : String) (rest rest' : List Char), quoted s.toList rest ≠ 'n' :: rest' := by
    intro s rest rest'
    cases s.toList <;> simp [quoted]
  cases a with
  | none =>
    cases b with
    | none => exact ⟨rfl, (cons.inj h).2⟩
    | some s => exact absurd h.symm (hquoted s _ _)
  | some s =>
    cases b with
    | none => exact absurd h (hquoted s _ _)
    | some s' =>
      obtain ⟨hs, hrest⟩ := quoted_inj h
      exact ⟨by rw [String.toList_inj.mp hs], hrest⟩

/-- The fields one after the other, in place of their hash. -/
def written (payload : Payload) : String :=
  String.ofList (field (some payload.url) (field payload.urlFallback (field payload.urlTailscale
    (field (some payload.name) (field payload.username (field payload.password []))))))

theorem written_injective : Function.Injective written := by
  intro p q h
  obtain ⟨hurl, h⟩ := field_inj (String.ofList_injective h)
  obtain ⟨hfallback, h⟩ := field_inj h
  obtain ⟨htailscale, h⟩ := field_inj h
  obtain ⟨hname, h⟩ := field_inj h
  obtain ⟨husername, h⟩ := field_inj h
  obtain ⟨hpassword, -⟩ := field_inj h
  cases p
  cases q
  simp_all

def plainHost : Host := ⟨written, true⟩

def plainTarget (id : String) : Target := ⟨id, id, "https://" ++ id, none, none, true⟩

/-- Two enabled targets, and no process yet. -/
def twoTargets : Pod where
  manifest := ⟨[plainTarget "b", plainTarget "a"], by decide⟩
  secrets := PyDict.empty
  pids := PyDict.empty
  hashes := PyDict.empty
  processes := PyDict.empty
  signals := []

theorem fresh_twoTargets : Fresh twoTargets where
  pids := rfl
  processes _ _ h := by cases h
  signals := rfl

/-- The pids that the processes of the targets are given. -/
def given (b a : Nat) (id : String) : Turn := ⟨[], [], if id = "b" then some b else some a⟩

/-- Both targets are started. -/
theorem processes_match_twoTargets :
    MatchesAfter plainHost twoTargets (.reconcile [] (given 20 10)) := by
  have hguard : Guarded (next plainHost) (Unrecorded plainHost) twoTargets
      [.reconcile [] (given 20 10)] := by
    refine ⟨⟨fun pid _ other _ hother => (nomatch hother), fun pid hpid other _ hother => ?_,
      trivial⟩, trivial⟩
    have hmem := PyDict.get?_eq_some_iff.mp hother
    have hentries : (serve plainHost twoTargets (plainTarget "b") (given 20 10 "b")).1.pids.entries =
        [("b", 20)] := by decide +kernel
    have hgiven : (serve plainHost (serve plainHost twoTargets (plainTarget "b")
        (given 20 10 "b")).1 (plainTarget "a") (given 20 10 "a")).2.1 = some 10 := by
      decide +kernel
    obtain rfl := Option.some.inj (hpid.symm.trans hgiven)
    have hpair : (other, 10) ∈ [("b", 20)] := hentries ▸ hmem
    simp at hpair
  exact (processes_match plainHost written_injective twoTargets fresh_twoTargets _ hguard).1.1

/-- The process of `a` exits, `b` gets a password, and its new process gets the old pid of `a`. -/
def reused : List Event :=
  [.reconcile [] (given 20 10), .exit 10, .secrets (PyDict.empty.set "b" ⟨"user", "secret"⟩),
    .reconcile ["a", "b"] (given 10 30)]

/-- The target `a` is taken to be running and has no process. -/
theorem crashed_target_unchanged :
    ¬∀ (host : Host), Function.Injective host.digest → ∀ pod, Fresh pod → ∀ events,
      Guarded (next host) (MatchesAfter host) pod events ∧
        Always (next host) SignalsOwn pod events := by
  intro hall
  have hmatches := (hall plainHost written_injective twoTargets fresh_twoTargets reused).1
  have hlast := (guarded_iff.mp hmatches (reused.take 3) _ [] rfl) (by decide +kernel)
    (by decide +kernel)
  obtain ⟨pid, process, hprocess, hlive, howner⟩ :=
    hlast.live (plainTarget "a") (by decide +kernel) rfl
  have hnone : ∀ entry ∈ (final (next plainHost) twoTargets reused).processes.entries,
      entry.2.signalled = false → entry.2.owner.map Prod.fst ≠ some "a" := by decide +kernel
  have hmem := PyDict.get?_eq_some_iff.mp hprocess
  exact hnone (pid, process) hmem hlive (by simp [howner, plainTarget])

end Efdi.Control.Sitaware

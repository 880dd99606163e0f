import Efdi.Admin.Users
import Efdi.Base.Interleaving

/-!
# Login lockout

Requests of `/auth/login` for one account that overlap.  A request reads the row,
and later commits what it makes of the row that it read; the two are separate
steps, and any number of other requests may run in between.

A wrong password is counted in memory, so a request that reads the row while
another wrong password is not yet committed is counted over it.  Where this does
not happen, at most `lockoutAttempts` wrong passwords are compared in any window
of `lockoutTime` in which no login succeeds (`lockout_holds`).
-/

namespace Efdi.Admin.Lockout

open Runs Interleaving List Function

/-- What a request did, and when. -/
inductive Entry where
  /-- The request was refused with 429. -/
  | refused (now : Nat)
  /-- A wrong password was compared with the hash. -/
  | wrong (now : Nat)
  /-- The row of a login was committed. -/
  | succeeded (now : Nat)
deriving DecidableEq

def Entry.time : Entry → Nat
  | .refused now => now
  | .wrong now => now
  | .succeeded now => now

/-- The row of the account, the clock and what happened, the latest first. -/
structure Account where
  user : AdminUser
  clock : Nat
  log : List Entry

/-- The status that a request is answered with. -/
inductive Answer where
  | locked
  | invalid
  | token
deriving DecidableEq

/-- A request: before it reads the row, before its commit, and answered. -/
inductive Login where
  | arrived (password : String)
  | failing (now : Nat) (loaded : AdminUser)
  | passing (loaded : AdminUser)
  | answered (answer : Answer)

/-- The row is read: `now` is taken, the lock is tested and the password is verified.  An account
that is not active is not found, and the password is compared with the dummy hash. -/
def read (pwd : PwdCtx) (password : String) (account : Account) : Account × Login :=
  if !account.user.isActive then (account, .answered .invalid)
  else
    match loginCheck pwd account.clock password account.user with
    | .locked =>
      ({ account with log := .refused account.clock :: account.log }, .answered .locked)
    | .invalid =>
      ({ account with log := .wrong account.clock :: account.log },
        .failing account.clock account.user)
    | .passed => (account, .passing account.user)

/-- A step of a request, `delay` after the last step of any request. -/
def step (pwd : PwdCtx) (delay : Nat) (account : Account) : Login → Account × Login
  | .arrived password => read pwd password { account with clock := account.clock + delay }
  | .failing now loaded =>
    ({ account with
        user := (UserUpdate.between loaded (loaded.failed now)).apply account.user
        clock := account.clock + delay }, .answered .invalid)
  | .passing loaded =>
    ({ user := (UserUpdate.between loaded loaded.passed).apply account.user
       clock := account.clock + delay
       log := .succeeded (account.clock + delay) :: account.log }, .answered .token)
  | .answered answer => ({ account with clock := account.clock + delay }, .answered answer)

/-- `login`. -/
def program (pwd : PwdCtx) : Program Account Login String Nat where
  start := .arrived
  step := step pwd

/-- No request has been made yet. -/
def initial (user : AdminUser) (clock : Nat) : Pool Account Login where
  shared := ⟨user, clock, []⟩
  thread := fun _ => none

/-! ## The claim -/

/-- A window of `lockoutTime` from `start`. -/
def InWindow (start time : Nat) : Prop := start ≤ time ∧ time < start + lockoutTime

instance (start time : Nat) : Decidable (InWindow start time) := by
  unfold InWindow
  infer_instance

/-- An entry of a window for a wrong password. -/
def isWrongIn (start : Nat) : Entry → Bool
  | .wrong now => InWindow start now
  | .refused _ => false
  | .succeeded _ => false

/-- How many wrong passwords were compared in a window. -/
def wrongIn (start : Nat) (log : List Entry) : Nat := log.countP (isWrongIn start)

/-- No login succeeds in the window. -/
def NoSuccess (start : Nat) (log : List Entry) : Prop :=
  ∀ now, .succeeded now ∈ log → ¬InWindow start now

/-- In a window without success at most `lockoutAttempts` wrong passwords are compared. -/
def Bounded (account : Account) : Prop :=
  ∀ start, NoSuccess start account.log → wrongIn start account.log ≤ lockoutAttempts

/-- A wrong password is refused as locked or compared, and either is on record. -/
def RefusedOrCompared (pwd : PwdCtx) (p : Pool Account Login) : Event String Nat → Prop
  | .start _ _ => True
  | .step i delay => ∀ password, p.thread i = some (.arrived password) →
      p.shared.user.isActive = true → pwd.verify password p.shared.user.passwordHash = false →
      ((program pwd).next p (.step i delay)).shared.log =
          .wrong (p.shared.clock + delay) :: p.shared.log ∨
        ((program pwd).next p (.step i delay)).thread i = some (.answered .locked)

/-- The condition of a step: a request with a wrong password does not read the row while another
wrong password is not yet committed. -/
def Apart (pwd : PwdCtx) (p : Pool Account Login) : Event String Nat → Prop
  | .start _ _ => True
  | .step i delay => ∀ password, p.thread i = some (.arrived password) →
      loginCheck pwd (p.shared.clock + delay) password p.shared.user = .invalid →
      ∀ j now loaded, p.thread j ≠ some (.failing now loaded)

/-! ## Steps -/

section

variable {pwd : PwdCtx} {account account' : Account} {delay : Nat} {t u : Login}

/-- What a step does to the account: it compares a wrong password, commits one, commits a login,
or changes neither the row nor the entries that count. -/
inductive Effect (pwd : PwdCtx) (account : Account) (delay : Nat) (t u : Login) :
    Account → Prop where
  | quiet (log : List Entry) :
      (∀ entry ∈ log, entry = .refused (account.clock + delay)) →
      (∀ now loaded, t ≠ .failing now loaded) →
      (∀ now loaded, u ≠ .failing now loaded) →
      Effect pwd account delay t u
        { account with clock := account.clock + delay, log := log ++ account.log }
  | compared (password : String) :
      t = .arrived password →
      loginCheck pwd (account.clock + delay) password account.user = .invalid →
      u = .failing (account.clock + delay) account.user →
      Effect pwd account delay t u
        { account with
          clock := account.clock + delay
          log := .wrong (account.clock + delay) :: account.log }
  | counted (now : Nat) (loaded : AdminUser) :
      t = .failing now loaded →
      (∀ now loaded, u ≠ .failing now loaded) →
      Effect pwd account delay t u
        { account with
          user := (UserUpdate.between loaded (loaded.failed now)).apply account.user
          clock := account.clock + delay }
  | succeeded (loaded : AdminUser) :
      t = .passing loaded →
      (∀ now loaded, u ≠ .failing now loaded) →
      Effect pwd account delay t u
        { user := (UserUpdate.between loaded loaded.passed).apply account.user
          clock := account.clock + delay
          log := .succeeded (account.clock + delay) :: account.log }

theorem effect_step (pwd : PwdCtx) (account : Account) (delay : Nat) (t : Login) :
    Effect pwd account delay t (step pwd delay account t).2 (step pwd delay account t).1 := by
  have hquiet : ∀ u, (∀ now loaded, t ≠ Login.failing now loaded) →
      (∀ now loaded, u ≠ Login.failing now loaded) →
      Effect pwd account delay t u { account with clock := account.clock + delay } :=
    fun u ht hu => .quiet [] (by simp) ht hu
  cases t with
  | arrived password =>
    simp only [step, read]
    split
    next => exact hquiet _ (by simp) (by simp)
    next =>
      split
      next =>
        exact .quiet [.refused (account.clock + delay)] (by simp) (by simp) (by simp)
      next hcheck => exact .compared password rfl hcheck rfl
      next => exact hquiet _ (by simp) (by simp)
  | failing now loaded => exact .counted now loaded rfl (by simp [step])
  | passing loaded => exact .succeeded loaded rfl (by simp [step])
  | answered answer => exact hquiet _ (by simp) (by simp [step])

end

/-! ## The invariant of a window -/

/-- The row bounds the wrong passwords of the window: each of them is in the counter, or the lock
outlasts the window. -/
def Settled (start : Nat) (account : Account) : Prop :=
  (wrongIn start account.log ≤ account.user.failedLogins ∧
      (0 < wrongIn start account.log → account.user.failedLogins < lockoutAttempts)) ∨
    (wrongIn start account.log ≤ lockoutAttempts ∧
      ∃ lockedUntil, account.user.lockedUntil = some lockedUntil ∧
        start + lockoutTime ≤ lockedUntil)

/-- A wrong password that is not yet committed was compared with a row that counts the others of
the window. -/
def Pending (start now : Nat) (loaded : AdminUser) (account : Account) : Prop :=
  loaded.lockedAt now = false ∧
    (start ≤ now → wrongIn start account.log ≤ loaded.failedLogins + 1 ∧
      (1 < wrongIn start account.log → loaded.failedLogins < lockoutAttempts)) ∧
    (now < start → wrongIn start account.log = 0)

/-- What holds of the account and of the requests at every moment, for a window. -/
structure Kept (start : Nat) (p : Pool Account Login) : Prop where
  times : ∀ entry ∈ p.shared.log, entry.time ≤ p.shared.clock
  single : ∀ i j now now' loaded loaded', p.thread i = some (.failing now loaded) →
    p.thread j = some (.failing now' loaded') → i = j
  bound : NoSuccess start p.shared.log → wrongIn start p.shared.log ≤ lockoutAttempts
  idle : NoSuccess start p.shared.log → p.shared.clock < start + lockoutTime →
    (∀ i now loaded, p.thread i ≠ some (.failing now loaded)) → Settled start p.shared
  busy : NoSuccess start p.shared.log → p.shared.clock < start + lockoutTime →
    ∀ i now loaded, p.thread i = some (.failing now loaded) →
      Pending start now loaded p.shared

section

variable {start now : Nat} {loaded user : AdminUser} {log : List Entry}

theorem wrongIn_refused (hlog : ∀ entry ∈ log, ∃ now, entry = .refused now) (log' : List Entry) :
    wrongIn start (log ++ log') = wrongIn start log' := by
  have hzero : log.countP (isWrongIn start) = 0 := by
    rw [countP_eq_zero]
    intro entry hentry
    obtain ⟨now, rfl⟩ := hlog entry hentry
    simp [isWrongIn]
  rw [wrongIn, countP_append, hzero, Nat.zero_add, wrongIn]

theorem wrongIn_wrong (log : List Entry) : wrongIn start (.wrong now :: log) =
    wrongIn start log + if InWindow start now then 1 else 0 := by
  simp [wrongIn, countP_cons, isWrongIn]

@[simp] theorem wrongIn_succeeded (log : List Entry) :
    wrongIn start (.succeeded now :: log) = wrongIn start log := by
  simp [wrongIn, isWrongIn]

/-- Before the window nothing of it has happened. -/
theorem wrongIn_of_before (htimes : ∀ entry ∈ log, entry.time < start) : wrongIn start log = 0 := by
  rw [wrongIn, countP_eq_zero]
  intro entry hentry
  have htime := htimes entry hentry
  cases entry with
  | refused now => simp [isWrongIn]
  | wrong now =>
    have hout : ¬InWindow start now := fun hin => absurd hin.1 (Nat.not_le.mpr htime)
    simp [isWrongIn, hout]
  | succeeded now => simp [isWrongIn]

theorem NoSuccess.of_append {log' : List Entry} (h : NoSuccess start (log ++ log')) :
    NoSuccess start log' :=
  fun now hmem => h now (mem_append_right _ hmem)

theorem NoSuccess.of_cons {entry : Entry} (h : NoSuccess start (entry :: log)) :
    NoSuccess start log :=
  fun now hmem => h now (.tail _ hmem)

theorem Pending.bound {account : Account} (h : Pending start now loaded account) :
    wrongIn start account.log ≤ lockoutAttempts := by
  obtain ⟨-, hin, hbefore⟩ := h
  by_cases hnow : start ≤ now
  · obtain ⟨hcount, hsmall⟩ := hin hnow
    by_cases hone : 1 < wrongIn start account.log
    · exact hcount.trans (hsmall hone)
    · have hfive : lockoutAttempts = 5 := rfl
      omega
  · rw [hbefore (Nat.lt_of_not_le hnow)]
    exact Nat.zero_le _

/-- The counter and the lock after a wrong password is committed. -/
theorem apply_failed (hlocked : loaded.lockedAt now = false) :
    (lockoutAttempts ≤ loaded.failedLogins + 1 ∧
      ((UserUpdate.between loaded (loaded.failed now)).apply user).lockedUntil =
        some (now + lockoutTime) ∧
      ((UserUpdate.between loaded (loaded.failed now)).apply user).failedLogins = 0) ∨
    (loaded.failedLogins + 1 < lockoutAttempts ∧
      ((UserUpdate.between loaded (loaded.failed now)).apply user).failedLogins =
        loaded.failedLogins + 1) := by
  by_cases hlimit : lockoutAttempts ≤ loaded.failedLogins + 1
  · have hfailed : loaded.failed now =
        { loaded with failedLogins := 0, lockedUntil := some (now + lockoutTime) } := by
      rw [AdminUser.failed, if_pos hlimit]
    have hcounter : (0 : Nat) ≠ loaded.failedLogins := by
      simp only [lockoutAttempts] at hlimit
      omega
    have hlock : some (now + lockoutTime) ≠ loaded.lockedUntil := by
      intro heq
      simp [AdminUser.lockedAt, ← heq, lockoutTime] at hlocked
    refine .inl ⟨hlimit, ?_, ?_⟩
    · simp [UserUpdate.apply, UserUpdate.between, hfailed, changed_of_ne hlock]
    · simp [UserUpdate.apply, UserUpdate.between, hfailed, changed_of_ne hcounter]
  · have hfailed : loaded.failed now =
        { loaded with failedLogins := loaded.failedLogins + 1 } := by
      rw [AdminUser.failed, if_neg hlimit]
    have hcounter : loaded.failedLogins + 1 ≠ loaded.failedLogins := by omega
    refine .inr ⟨Nat.lt_of_not_le hlimit, ?_⟩
    simp [UserUpdate.apply, UserUpdate.between, hfailed, changed_of_ne hcounter]

end

/-! ## Every step keeps it -/

section

variable {pwd : PwdCtx} {start : Nat} {p : Pool Account Login} {i delay : Nat} {t u : Login}
  {account : Account}

/-- The requests after a step. -/
def moved (p : Pool Account Login) (i : Nat) (account : Account) (u : Login) :
    Pool Account Login :=
  ⟨account, Function.update p.thread i (some u)⟩

theorem thread_moved {j : Nat} {v : Login} (h : (moved p i account u).thread j = some v) :
    (j = i ∧ v = u) ∨ (j ≠ i ∧ p.thread j = some v) := by
  by_cases hji : j = i
  · subst hji
    simp only [moved, update_self, Option.some.injEq] at h
    exact .inl ⟨rfl, h.symm⟩
  · simp only [moved, update_of_ne hji] at h
    exact .inr ⟨hji, h⟩

/-- A thread that moved to a place where no wrong password is pending. -/
theorem failing_moved (hu : ∀ now loaded, u ≠ .failing now loaded) {j now : Nat}
    {loaded : AdminUser} (h : (moved p i account u).thread j = some (.failing now loaded)) :
    p.thread j = some (.failing now loaded) := by
  rcases thread_moved h with ⟨-, hv⟩ | ⟨-, hj⟩
  · exact absurd hv.symm (hu now loaded)
  · exact hj

theorem Kept.quiet (h : Kept start p) (ht : p.thread i = some t)
    (hidle : ∀ now loaded, t ≠ .failing now loaded) (hu : ∀ now loaded, u ≠ .failing now loaded)
    {log : List Entry} (hlog : ∀ entry ∈ log, entry = .refused (p.shared.clock + delay)) :
    Kept start (moved p i
      { p.shared with clock := p.shared.clock + delay, log := log ++ p.shared.log } u) := by
  have hwrong : wrongIn start (log ++ p.shared.log) = wrongIn start p.shared.log :=
    wrongIn_refused (fun entry hentry => ⟨_, hlog entry hentry⟩) _
  refine ⟨?_, ?_, ?_, ?_, ?_⟩
  · intro entry hentry
    show entry.time ≤ p.shared.clock + delay
    rcases mem_append.mp hentry with hnew | hold
    · rw [hlog entry hnew]
      exact Nat.le_refl _
    · exact (h.times entry hold).trans (Nat.le_add_right _ _)
  · intro j k now now' loaded loaded' hj hk
    exact h.single j k _ _ _ _ (failing_moved hu hj) (failing_moved hu hk)
  · intro hnone
    show wrongIn start (log ++ p.shared.log) ≤ _
    rw [hwrong]
    exact h.bound hnone.of_append
  · intro hnone hclock hno
    have hbefore : Settled start p.shared := by
      refine h.idle hnone.of_append ?_ ?_
      · have hlt : p.shared.clock + delay < start + lockoutTime := hclock
        omega
      · intro j now loaded hj
        have hji : j ≠ i := by
          rintro rfl
          rw [ht] at hj
          exact hidle now loaded (Option.some.inj hj)
        refine hno j now loaded ?_
        simp only [moved, update_of_ne hji]
        exact hj
    show Settled start { p.shared with
      clock := p.shared.clock + delay, log := log ++ p.shared.log }
    simp only [Settled, hwrong]
    exact hbefore
  · intro hnone hclock j now loaded hj
    have hlt : p.shared.clock + delay < start + lockoutTime := hclock
    have hbefore := h.busy hnone.of_append (by omega) j now loaded (failing_moved hu hj)
    show Pending start now loaded { p.shared with
      clock := p.shared.clock + delay, log := log ++ p.shared.log }
    simp only [Pending, hwrong]
    exact hbefore

theorem Kept.compared (h : Kept start p) {password : String}
    (hcheck : loginCheck pwd (p.shared.clock + delay) password p.shared.user = .invalid)
    (hapart : ∀ j now loaded, p.thread j ≠ some (.failing now loaded)) :
    Kept start (moved p i
      { p.shared with
        clock := p.shared.clock + delay
        log := .wrong (p.shared.clock + delay) :: p.shared.log }
      (.failing (p.shared.clock + delay) p.shared.user)) := by
  have honly : ∀ {j now loaded}, (moved p i
      { p.shared with
        clock := p.shared.clock + delay
        log := .wrong (p.shared.clock + delay) :: p.shared.log }
      (.failing (p.shared.clock + delay) p.shared.user)).thread j = some (.failing now loaded) →
      j = i ∧ now = p.shared.clock + delay ∧ loaded = p.shared.user := by
    intro j now loaded hj
    rcases thread_moved hj with ⟨hji, hv⟩ | ⟨-, hold⟩
    · obtain ⟨hnow, hloaded⟩ := Login.failing.inj hv
      exact ⟨hji, hnow, hloaded⟩
    · exact absurd hold (hapart j now loaded)
  have hunlocked := (loginCheck_eq_invalid.mp hcheck).1
  -- the row that is read counts the wrong passwords of the window, since none is pending
  have hpending : NoSuccess start p.shared.log →
      p.shared.clock + delay < start + lockoutTime →
      Pending start (p.shared.clock + delay) p.shared.user
        { p.shared with
          clock := p.shared.clock + delay
          log := .wrong (p.shared.clock + delay) :: p.shared.log } := by
    intro hnone hclock
    have hsettled := h.idle hnone (by omega) hapart
    refine ⟨hunlocked, fun hin => ?_, fun hbefore => ?_⟩
    · have hwindow : InWindow start (p.shared.clock + delay) := ⟨hin, hclock⟩
      simp only [wrongIn_wrong, if_pos hwindow]
      rcases hsettled with ⟨hcount, hsmall⟩ | ⟨-, lockedUntil, hlock, hlong⟩
      · exact ⟨by omega, fun hone => hsmall (by omega)⟩
      · simp only [AdminUser.lockedAt, hlock, decide_eq_false_iff_not] at hunlocked
        omega
    · have hout : ¬InWindow start (p.shared.clock + delay) :=
        fun hin => absurd hin.1 (Nat.not_le.mpr hbefore)
      simp only [wrongIn_wrong, if_neg hout, Nat.add_zero]
      exact wrongIn_of_before fun entry hentry =>
        lt_of_le_of_lt ((h.times entry hentry).trans (Nat.le_add_right _ _)) hbefore
  refine ⟨?_, ?_, ?_, ?_, ?_⟩
  · intro entry hentry
    show entry.time ≤ p.shared.clock + delay
    rcases mem_cons.mp hentry with rfl | hold
    · exact Nat.le_refl _
    · exact (h.times entry hold).trans (Nat.le_add_right _ _)
  · intro j k now now' loaded loaded' hj hk
    exact (honly hj).1.trans (honly hk).1.symm
  · intro hnone
    by_cases hclock : p.shared.clock + delay < start + lockoutTime
    · exact (hpending hnone.of_cons hclock).bound
    · have hout : ¬InWindow start (p.shared.clock + delay) := fun hin => hclock hin.2
      show wrongIn start (.wrong (p.shared.clock + delay) :: p.shared.log) ≤ _
      rw [wrongIn_wrong, if_neg hout, Nat.add_zero]
      exact h.bound hnone.of_cons
  · intro _ _ hno
    refine absurd ?_ (hno i (p.shared.clock + delay) p.shared.user)
    simp [moved]
  · intro hnone hclock j now loaded hj
    obtain ⟨-, rfl, rfl⟩ := honly hj
    exact hpending hnone.of_cons hclock

theorem Kept.counted (h : Kept start p) {now : Nat} {loaded : AdminUser}
    (ht : p.thread i = some (.failing now loaded)) (hu : ∀ now loaded, u ≠ .failing now loaded) :
    Kept start (moved p i
      { p.shared with
        user := (UserUpdate.between loaded (loaded.failed now)).apply p.shared.user
        clock := p.shared.clock + delay } u) := by
  have hnobody : ∀ j now' loaded', (moved p i
      { p.shared with
        user := (UserUpdate.between loaded (loaded.failed now)).apply p.shared.user
        clock := p.shared.clock + delay } u).thread j ≠ some (.failing now' loaded') := by
    intro j now' loaded' hj
    rcases thread_moved hj with ⟨-, hv⟩ | ⟨hji, hold⟩
    · exact hu now' loaded' hv.symm
    · exact hji (h.single j i _ _ _ _ hold ht)
  refine ⟨?_, ?_, h.bound, ?_, ?_⟩
  · intro entry hentry
    exact (h.times entry hentry).trans (Nat.le_add_right _ _)
  · intro j k now' now'' loaded' loaded'' hj
    exact absurd hj (hnobody j now' loaded')
  · intro hnone hclock _
    have hlt : p.shared.clock + delay < start + lockoutTime := hclock
    obtain ⟨hunlocked, hin, hbefore⟩ := h.busy hnone (by omega) i now loaded ht
    have hbound := h.bound hnone
    show Settled start ⟨_, _, p.shared.log⟩
    rcases @apply_failed _ _ p.shared.user hunlocked with
      ⟨hlimit, hlock, hzero⟩ | ⟨hlimit, hcounter⟩
    · by_cases hnow : start ≤ now
      · exact .inr ⟨hbound, now + lockoutTime, hlock, by omega⟩
      · simp only [Settled, hbefore (Nat.lt_of_not_le hnow)]
        exact .inl ⟨Nat.zero_le _, fun hpos => absurd hpos (Nat.lt_irrefl 0)⟩
    · by_cases hnow : start ≤ now
      · refine .inl ⟨?_, fun _ => ?_⟩
        · rw [hcounter]
          exact (hin hnow).1
        · rw [hcounter]
          exact hlimit
      · simp only [Settled, hbefore (Nat.lt_of_not_le hnow)]
        exact .inl ⟨Nat.zero_le _, fun hpos => absurd hpos (Nat.lt_irrefl 0)⟩
  · intro _ _ j now' loaded' hj
    exact absurd hj (hnobody j now' loaded')

theorem Kept.succeeded (h : Kept start p) (user : AdminUser)
    (hu : ∀ now loaded, u ≠ .failing now loaded) :
    Kept start (moved p i
      { user
        clock := p.shared.clock + delay
        log := .succeeded (p.shared.clock + delay) :: p.shared.log } u) := by
  -- a commit before the end of the window that is not in it comes before the window
  have hzero : NoSuccess start (.succeeded (p.shared.clock + delay) :: p.shared.log) →
      p.shared.clock + delay < start + lockoutTime →
      p.shared.clock < start ∧ wrongIn start p.shared.log = 0 := by
    intro hnone hclock
    have hout := hnone (p.shared.clock + delay) mem_cons_self
    have hbefore : p.shared.clock + delay < start := by
      by_contra hin
      exact hout ⟨Nat.le_of_not_lt hin, hclock⟩
    have hlt : p.shared.clock < start := by omega
    exact ⟨hlt, wrongIn_of_before fun entry hentry =>
      lt_of_le_of_lt (h.times entry hentry) hlt⟩
  refine ⟨?_, ?_, ?_, ?_, ?_⟩
  · intro entry hentry
    show entry.time ≤ p.shared.clock + delay
    rcases mem_cons.mp hentry with rfl | hold
    · exact Nat.le_refl _
    · exact (h.times entry hold).trans (Nat.le_add_right _ _)
  · intro j k now now' loaded loaded' hj hk
    exact h.single j k _ _ _ _ (failing_moved hu hj) (failing_moved hu hk)
  · intro hnone
    show wrongIn start (.succeeded (p.shared.clock + delay) :: p.shared.log) ≤ _
    rw [wrongIn_succeeded]
    exact h.bound hnone.of_cons
  · intro hnone hclock _
    simp only [moved, Settled, wrongIn_succeeded, (hzero hnone hclock).2]
    exact .inl ⟨Nat.zero_le _, fun hpos => absurd hpos (Nat.lt_irrefl 0)⟩
  · intro hnone hclock j now loaded hj
    obtain ⟨hlt, hnothing⟩ := hzero hnone hclock
    have hlt' : p.shared.clock + delay < start + lockoutTime := hclock
    have hbefore := h.busy hnone.of_cons (by omega) j now loaded (failing_moved hu hj)
    simp only [moved, Pending, wrongIn_succeeded]
    exact hbefore

/-- Every step under its condition keeps the invariant. -/
theorem kept_next (h : Kept start p) {event : Event String Nat} (hapart : Apart pwd p event) :
    Kept start ((program pwd).next p event) := by
  cases event with
  | start i password =>
    cases ht : p.thread i with
    | some t =>
      rw [next_start_of_some ht]
      exact h
    | none =>
      have hold : ∀ {j now loaded}, (update p.thread i
          (some ((program pwd).start password))) j = some (.failing now loaded) →
          p.thread j = some (.failing now loaded) := by
        intro j now loaded hj
        exact @failing_moved p i _ p.shared (by simp [program]) _ _ _ hj
      rw [next_start ht]
      refine ⟨h.times, fun j k _ _ _ _ hj hk => h.single j k _ _ _ _ (hold hj) (hold hk),
        h.bound, fun hnone hclock hno => h.idle hnone hclock fun j now loaded hj => ?_,
        fun hnone hclock j now loaded hj => h.busy hnone hclock j now loaded (hold hj)⟩
      refine hno j now loaded ?_
      have hji : j ≠ i := by
        rintro rfl
        rw [ht] at hj
        cases hj
      simp only [update_of_ne hji]
      exact hj
  | step i delay =>
    cases ht : p.thread i with
    | none =>
      rw [next_step_of_none ht]
      exact h
    | some t =>
      rw [next_step ht]
      show Kept start (moved p i (step pwd delay p.shared t).1 (step pwd delay p.shared t).2)
      have heffect := effect_step pwd p.shared delay t
      generalize step pwd delay p.shared t = result at heffect ⊢
      obtain ⟨account, u⟩ := result
      cases heffect with
      | quiet log hlog hidle hu => exact h.quiet ht hidle hu hlog
      | compared password harrived hcheck hu =>
        subst hu
        subst harrived
        exact h.compared hcheck (hapart password ht hcheck)
      | counted now loaded hfailing hu =>
        subst hfailing
        exact h.counted ht hu
      | succeeded loaded _ hu => exact h.succeeded _ hu

theorem kept_initial (user : AdminUser) (clock : Nat) : Kept start (initial user clock) where
  times := by simp [initial]
  single := by simp [initial]
  bound := by simp [initial, wrongIn]
  idle := by simp [initial, Settled, wrongIn]
  busy := by simp [initial]

/-- A wrong password is refused or compared. -/
theorem refusedOrCompared (event : Event String Nat) : RefusedOrCompared pwd p event := by
  cases event with
  | start i password => trivial
  | step i delay =>
    intro password ht hactive hwrong
    rw [next_step ht]
    simp only [program, step, read, hactive, Bool.not_true, Bool.false_eq_true, if_false]
    cases hcheck : loginCheck pwd (p.shared.clock + delay) password p.shared.user with
    | locked => exact .inr (by simp)
    | invalid => exact .inl rfl
    | passed =>
      have hright := (loginCheck_eq_passed.mp hcheck).2
      rw [hwrong] at hright
      cases hright

end

/-- In every run in which no wrong password is compared while another one is not yet committed,
at most `lockoutAttempts` wrong passwords are compared in a window without success; every other
wrong password is refused as locked. -/
theorem lockout_holds (pwd : PwdCtx) (user : AdminUser) (clock : Nat)
    (events : List (Event String Nat))
    (hapart : Guarded (program pwd).next (Apart pwd) (initial user clock) events) :
    Always (program pwd).next (fun p => Bounded p.shared) (initial user clock) events ∧
      Guarded (program pwd).next (RefusedOrCompared pwd) (initial user clock) events := by
  constructor
  · refine always_iff.mpr fun before after hevents start => ?_
    have hkept : Always (program pwd).next (Kept start) (initial user clock) events :=
      always_of_guarded (fun p event h => kept_next h) (kept_initial user clock) hapart
    exact (always_iff.mp hkept before after hevents).bound
  · exact guarded_iff.mpr fun before event after _ => refusedOrCompared event

/-- An account with the password `secret`. -/
def account : AdminUser where
  username := "admin"
  passwordHash := "$2b$secret"
  role := .superadmin
  createdBy := some "install"
  isActive := true
  failedLogins := 0
  lockedUntil := none
  authProvider := .password
  oidcSubject := none

def context : PwdCtx where
  hash password _ := "$2b$" ++ password
  verify password hash := hash == "$2b$" ++ password

/-- A wrong password is compared after another one was committed. -/
def inTurn : List (Event String Nat) :=
  [.start 0 "guess", .step 0 1, .step 0 1, .start 1 "guess", .step 1 1]

theorem lockout_holds_inTurn :
    Always (program context).next (fun p => Bounded p.shared) (initial account 0) inTurn := by
  refine (lockout_holds context account 0 inTurn ⟨trivial, ?_, ?_, trivial, ?_, trivial⟩).1
  · intro password _ _ j now loaded hj
    simp [Program.next, initial, program, Function.update_apply] at hj
  · intro password hi
    simp [Program.next, initial, program, step, read, account, loginCheck, AdminUser.lockedAt,
      context] at hi
  · intro password _ _ j now loaded hj
    simp [Program.next, initial, program, step, read, account, loginCheck, AdminUser.lockedAt,
      context, Function.update_apply] at hj
    grind

/-- Six requests that all read the row before the first of them is committed. -/
def atOnce : List (Event String Nat) :=
  [.start 0 "a", .start 1 "b", .start 2 "c", .start 3 "d", .start 4 "e", .start 5 "f",
    .step 0 0, .step 1 0, .step 2 0, .step 3 0, .step 4 0, .step 5 0]

/-- All six passwords are compared. -/
theorem six_compared :
    ¬∀ (pwd : PwdCtx) (user : AdminUser) (clock : Nat) (events : List (Event String Nat)),
      Always (program pwd).next (fun p => Bounded p.shared) (initial user clock) events := by
  intro hall
  have hbound := (hall context account 0 atOnce).last 0
  have hlog : (final (program context).next (initial account 0) atOnce).shared.log =
      List.replicate 6 (.wrong 0) := by decide +kernel
  rw [hlog] at hbound
  exact absurd (hbound (by simp [NoSuccess])) (by decide +kernel)

end Efdi.Admin.Lockout

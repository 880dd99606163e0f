import Efdi.Base.Runs

/-!
# Threads over a shared state

A pool is a shared state and its threads, each at its own place in its program.
An event starts a thread, or lets one thread take its next step on the shared
state.  An event that is not possible leaves the pool as it is.

`always_of_threads` is the rule for an invariant of the shared state together
with an assertion about each thread: every step keeps the invariant and the
assertion of its own thread (`own`), and it keeps the assertions of the other
threads (`others`).  `always_of_apart` adds what holds between any two threads,
such as that no two of them hold one lock.
-/

namespace Interleaving

open Runs Function

/-- A shared state, and the threads that were started. -/
structure Pool (S T : Type*) where
  shared : S
  thread : Nat → Option T

/-- A thread is started, or takes a step. -/
inductive Event (R E : Type*) where
  | start (i : Nat) (request : R)
  | step (i : Nat) (input : E)

/-- What a thread begins with, and what one step of it does. -/
structure Program (S T R E : Type*) where
  start : R → T
  step : E → S → T → S × T

variable {S T R E : Type*}

/-- The pool after an event. -/
def Program.next (P : Program S T R E) (p : Pool S T) : Event R E → Pool S T
  | .start i request =>
    match p.thread i with
    | some _ => p
    | none => { p with thread := Function.update p.thread i (some (P.start request)) }
  | .step i input =>
    match p.thread i with
    | none => p
    | some t =>
      ⟨(P.step input p.shared t).1,
        Function.update p.thread i (some (P.step input p.shared t).2)⟩

section

variable {P : Program S T R E} {p : Pool S T} {i j : Nat} {t u : T} {request : R} {input : E}

theorem next_start (h : p.thread i = none) : P.next p (.start i request) =
    { p with thread := Function.update p.thread i (some (P.start request)) } := by
  simp only [Program.next, h]

theorem next_start_of_some (h : p.thread i = some t) : P.next p (.start i request) = p := by
  simp only [Program.next, h]

theorem next_step (h : p.thread i = some t) : P.next p (.step i input) =
    ⟨(P.step input p.shared t).1,
      Function.update p.thread i (some (P.step input p.shared t).2)⟩ := by
  simp only [Program.next, h]

theorem next_step_of_none (h : p.thread i = none) : P.next p (.step i input) = p := by
  simp only [Program.next, h]

/-- A thread after an event: it was there before, it is the one that started, or it took the
step. -/
theorem thread_next {event : Event R E} (h : (P.next p event).thread j = some u) :
    p.thread j = some u ∨
      (∃ request, event = .start j request ∧ p.thread j = none ∧ u = P.start request) ∨
      ∃ input t, event = .step j input ∧ p.thread j = some t ∧
        u = (P.step input p.shared t).2 := by
  cases event with
  | start i request =>
    cases hthread : p.thread i with
    | some t =>
      rw [next_start_of_some hthread] at h
      exact .inl h
    | none =>
      rw [next_start hthread] at h
      by_cases hij : j = i
      · subst hij
        simp only [update_self, Option.some.injEq] at h
        exact .inr (.inl ⟨request, rfl, hthread, h.symm⟩)
      · simp only [update_of_ne hij] at h
        exact .inl h
  | step i input =>
    cases hthread : p.thread i with
    | none =>
      rw [next_step_of_none hthread] at h
      exact .inl h
    | some t =>
      rw [next_step hthread] at h
      by_cases hij : j = i
      · subst hij
        simp only [update_self, Option.some.injEq] at h
        exact .inr (.inr ⟨input, t, rfl, hthread, h.symm⟩)
      · simp only [update_of_ne hij] at h
        exact .inl h

/-- The invariant holds of the shared state and every thread has its assertion. -/
def Holds (I : S → Prop) (K : S → T → Prop) (p : Pool S T) : Prop :=
  I p.shared ∧ ∀ i t, p.thread i = some t → K p.shared t

variable {I : S → Prop} {K : S → T → Prop} {G : Pool S T → Event R E → Prop}

theorem Holds.next (h : Holds I K p) (event : Event R E) (hguard : G p event)
    (start : ∀ i request, event = .start i request → K p.shared (P.start request))
    (own : ∀ i input t, event = .step i input → p.thread i = some t →
      I (P.step input p.shared t).1 ∧
        K (P.step input p.shared t).1 (P.step input p.shared t).2)
    (others : ∀ i input t j u, event = .step i input → p.thread i = some t → i ≠ j →
      p.thread j = some u → K (P.step input p.shared t).1 u) :
    Holds I K (P.next p event) := by
  obtain ⟨hshared, hthreads⟩ := h
  cases event with
  | start i request =>
    cases hthread : p.thread i with
    | some t =>
      rw [next_start_of_some hthread]
      exact ⟨hshared, hthreads⟩
    | none =>
      rw [next_start hthread]
      refine ⟨hshared, fun j u hu => ?_⟩
      by_cases hij : j = i
      · subst hij
        simp only [update_self, Option.some.injEq] at hu
        rw [← hu]
        exact start j request rfl
      · simp only [update_of_ne hij] at hu
        exact hthreads j u hu
  | step i input =>
    cases hthread : p.thread i with
    | none =>
      rw [next_step_of_none hthread]
      exact ⟨hshared, hthreads⟩
    | some t =>
      rw [next_step hthread]
      obtain ⟨hnew, hown⟩ := own i input t rfl hthread
      refine ⟨hnew, fun j u hu => ?_⟩
      by_cases hij : j = i
      · subst hij
        simp only [update_self, Option.some.injEq] at hu
        rw [← hu]
        exact hown
      · simp only [update_of_ne hij] at hu
        exact others i input t j u rfl hthread (Ne.symm hij) hu

/-! ## Pairs of threads -/

/-- Any two threads are related. -/
def Apart (Q : T → T → Prop) (p : Pool S T) : Prop :=
  ∀ i j t u, i ≠ j → p.thread i = some t → p.thread j = some u → Q t u

variable {Q : T → T → Prop}

theorem Apart.next (h : Apart Q p) (hsymm : ∀ t u, Q t u → Q u t) (event : Event R E)
    (start : ∀ request u, Q (P.start request) u)
    (own : ∀ i input t j u, event = .step i input → p.thread i = some t → i ≠ j →
      p.thread j = some u → Q (P.step input p.shared t).2 u) :
    Apart Q (P.next p event) := by
  -- A thread that did not start or step is the one that was there.
  have hpair : ∀ i j t u, i ≠ j → (P.next p event).thread i = some t →
      (P.next p event).thread j = some u → p.thread j = some u → Q t u := by
    intro i j t u hij ht hu hold
    rcases thread_next ht with hi | ⟨request, -, -, rfl⟩ | ⟨input, t', heq, hi, rfl⟩
    · exact h i j t u hij hi hold
    · exact start request u
    · exact own i input t' j u heq hi hij hold
  intro i j t u hij ht hu
  rcases thread_next hu with hj | ⟨request, rfl, -, rfl⟩ | ⟨input, u', rfl, hj, rfl⟩
  · exact hpair i j t u hij ht hu hj
  · exact hsymm _ _ (start request t)
  · -- The step was one of `j`, so `i` is where it was.
    rcases thread_next ht with hi | ⟨request, heq, -, rfl⟩ | ⟨input', t', heq, hi, rfl⟩
    · exact hsymm _ _ (own j input u' i t rfl hj (Ne.symm hij) hi)
    · exact start request _
    · cases heq
      exact absurd rfl hij

/-- An invariant, the assertions of the threads and what holds between two of them hold all along
a guarded run. -/
theorem always_of_apart (hsymm : ∀ t u, Q t u → Q u t)
    (start : ∀ p i request, Holds I K p → G p (.start i request) →
      K p.shared (P.start request))
    (start_apart : ∀ request u, Q (P.start request) u)
    (own : ∀ p i input t, Holds I K p → Apart Q p → G p (.step i input) →
      p.thread i = some t →
      I (P.step input p.shared t).1 ∧
        K (P.step input p.shared t).1 (P.step input p.shared t).2)
    (others : ∀ p i input t j u, Holds I K p → Apart Q p → G p (.step i input) →
      p.thread i = some t → i ≠ j → p.thread j = some u →
      K (P.step input p.shared t).1 u ∧ Q (P.step input p.shared t).2 u)
    {events : List (Event R E)} (h : Holds I K p) (hapart : Apart Q p)
    (hguard : Guarded P.next G p events) :
    Always P.next (fun p => Holds I K p ∧ Apart Q p) p events := by
  refine always_of_guarded (fun q event hq hstep => ⟨?_, ?_⟩) ⟨h, hapart⟩ hguard
  · refine hq.1.next event hstep ?_ ?_ ?_
    · rintro i request rfl
      exact start q i request hq.1 hstep
    · rintro i input t rfl hthread
      exact own q i input t hq.1 hq.2 hstep hthread
    · rintro i input t j u rfl hthread hij hu
      exact (others q i input t j u hq.1 hq.2 hstep hthread hij hu).1
  · refine hq.2.next hsymm event start_apart ?_
    rintro i input t j u rfl hthread hij hu
    exact (others q i input t j u hq.1 hq.2 hstep hthread hij hu).2

/-- An invariant and the assertions of the threads hold all along a guarded run, when each step
keeps the invariant, its own assertion and those of the others. -/
theorem always_of_threads
    (start : ∀ p i request, Holds I K p → G p (.start i request) →
      K p.shared (P.start request))
    (own : ∀ p i input t, Holds I K p → G p (.step i input) → p.thread i = some t →
      I (P.step input p.shared t).1 ∧
        K (P.step input p.shared t).1 (P.step input p.shared t).2)
    (others : ∀ p i input t j u, Holds I K p → G p (.step i input) → p.thread i = some t →
      i ≠ j → p.thread j = some u → K (P.step input p.shared t).1 u)
    {events : List (Event R E)} (h : Holds I K p) (hguard : Guarded P.next G p events) :
    Always P.next (Holds I K) p events := by
  refine (always_of_apart (Q := fun _ _ => True) (fun _ _ _ => trivial) start
    (fun _ _ => trivial) (fun p i input t hp _ => own p i input t hp)
    (fun p i input t j u hp _ hg ht hij hu => ⟨others p i input t j u hp hg ht hij hu, trivial⟩)
    h (fun _ _ _ _ _ _ _ => trivial) hguard).imp fun _ hp => hp.1

end

end Interleaving

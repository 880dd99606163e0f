import Mathlib.Data.List.Basic

/-!
# Runs of a step function

A component is a type of states, a type of events and a total step function.
An event that is not enabled leaves the state as it is.  A run is a start state
and a list of events.

`Always` says that a property holds in every state of a run, the first and the
last included.  `Guarded` says that every step of a run meets a condition, which
is read in the state before the step.  The two meet in `always_of_guarded`: an
invariant that every guarded step preserves holds all along a guarded run.
-/

namespace Runs

variable {S E : Type*}

/-- The state a run ends in. -/
def final (step : S → E → S) (s : S) (es : List E) : S := es.foldl step s

/-- `P` holds in every state of the run. -/
def Always (step : S → E → S) (P : S → Prop) : S → List E → Prop
  | s, [] => P s
  | s, e :: es => P s ∧ Always step P (step s e) es

/-- Every step of the run meets `C`. -/
def Guarded (step : S → E → S) (C : S → E → Prop) : S → List E → Prop
  | _, [] => True
  | s, e :: es => C s e ∧ Guarded step C (step s e) es

instance decidableGuarded {step : S → E → S} {C : S → E → Prop} [∀ s e, Decidable (C s e)] :
    ∀ (s : S) (es : List E), Decidable (Guarded step C s es)
  | _, [] => isTrue trivial
  | s, e :: es =>
    have : Decidable (Guarded step C (step s e) es) := decidableGuarded (step s e) es
    inferInstanceAs (Decidable (C s e ∧ Guarded step C (step s e) es))

section

variable {step : S → E → S} {P Q : S → Prop} {C D : S → E → Prop}

@[simp] theorem final_nil (s : S) : final step s [] = s := rfl

@[simp] theorem final_cons (s : S) (e : E) (es : List E) :
    final step s (e :: es) = final step (step s e) es := rfl

@[simp] theorem final_append (s : S) (es fs : List E) :
    final step s (es ++ fs) = final step (final step s es) fs := by
  simp [final, List.foldl_append]

/-! ## States along a run -/

theorem Always.head {s : S} {es : List E} (h : Always step P s es) : P s := by
  cases es with
  | nil => exact h
  | cons e es => exact h.1

/-- `Always` is a statement about the end of every initial part of the run. -/
theorem always_iff : ∀ {s : S} {es : List E},
    Always step P s es ↔ ∀ as bs, es = as ++ bs → P (final step s as)
  | s, [] => by
    constructor
    · intro h as bs hes
      obtain ⟨rfl, rfl⟩ := List.append_eq_nil_iff.mp hes.symm
      exact h
    · intro h
      exact h [] [] rfl
  | s, e :: es => by
    constructor
    · rintro ⟨hs, hrest⟩ as bs hes
      cases as with
      | nil => exact hs
      | cons a as =>
        obtain ⟨rfl, hes'⟩ := List.cons.inj hes
        exact always_iff.mp hrest as bs hes'
    · intro h
      refine ⟨h [] (e :: es) rfl, always_iff.mpr ?_⟩
      intro as bs hes
      exact h (e :: as) bs (by rw [hes, List.cons_append])

variable {s : S} {es : List E}

theorem Always.last (h : Always step P s es) : P (final step s es) :=
  always_iff.mp h es [] (List.append_nil es).symm

/-- What holds all along a run holds along the rest of it. -/
theorem Always.rest {as bs : List E} (h : Always step P s (as ++ bs)) :
    Always step P (final step s as) bs := by
  refine always_iff.mpr fun cs ds hbs => ?_
  rw [← final_append]
  exact always_iff.mp h (as ++ cs) ds (by rw [hbs, List.append_assoc])

theorem Always.imp (hPQ : ∀ s, P s → Q s) (h : Always step P s es) :
    Always step Q s es :=
  always_iff.mpr fun as bs hes => hPQ _ (always_iff.mp h as bs hes)

/-! ## Guarded runs -/

/-- `Guarded` is a statement about every step of the run. -/
theorem guarded_iff : ∀ {s : S} {es : List E},
    Guarded step C s es ↔ ∀ as e bs, es = as ++ e :: bs → C (final step s as) e
  | s, [] => by
    constructor
    · intro _ as e bs hes
      exact absurd hes.symm (by simp)
    · intro _
      trivial
  | s, e :: es => by
    constructor
    · rintro ⟨he, hrest⟩ as f bs hes
      cases as with
      | nil =>
        obtain ⟨rfl, rfl⟩ := List.cons.inj hes
        exact he
      | cons a as =>
        obtain ⟨rfl, hes'⟩ := List.cons.inj hes
        exact guarded_iff.mp hrest as f bs hes'
    · intro h
      refine ⟨h [] e es rfl, guarded_iff.mpr ?_⟩
      intro as f bs hes
      exact h (e :: as) f bs (by rw [hes, List.cons_append])

theorem Guarded.imp (hCD : ∀ s e, C s e → D s e) (h : Guarded step C s es) : Guarded step D s es :=
  guarded_iff.mpr fun as e bs hes => hCD _ _ (guarded_iff.mp h as e bs hes)

/-- Two conditions that agree under an invariant of every step guard the same runs. -/
theorem guarded_congr (hstep : ∀ s e, P s → P (step s e) ∧ (C s e ↔ D s e)) :
    ∀ {s : S} {es : List E}, P s → (Guarded step C s es ↔ Guarded step D s es)
  | _, [], _ => Iff.rfl
  | s, e :: _, hs =>
    and_congr (hstep s e hs).2 (guarded_congr hstep (hstep s e hs).1)

/-- Two conditions on guarded runs agree when they agree under an invariant that the second one
keeps. -/
theorem guarded_congr_of {G : S → E → Prop}
    (hagree : ∀ s e, P s → G s e → (C s e ↔ D s e))
    (hkept : ∀ s e, P s → G s e → D s e → P (step s e)) :
    ∀ {s : S} {es : List E}, P s → Guarded step G s es →
      (Guarded step C s es ↔ Guarded step D s es)
  | _, [], _, _ => Iff.rfl
  | s, e :: _, hs, hes => by
    have hhead := hagree s e hs hes.1
    constructor
    · rintro ⟨hc, hrest⟩
      have hd := hhead.mp hc
      exact ⟨hd, (guarded_congr_of hagree hkept (hkept s e hs hes.1 hd) hes.2).mp hrest⟩
    · rintro ⟨hd, hrest⟩
      exact ⟨hhead.mpr hd,
        (guarded_congr_of hagree hkept (hkept s e hs hes.1 hd) hes.2).mpr hrest⟩

/-- A property holds all along a run when it holds at the start and after every step. -/
theorem always_iff_guarded : ∀ {s : S} {es : List E},
    Always step P s es ↔ P s ∧ Guarded step (fun s e => P (step s e)) s es
  | s, [] => (iff_of_eq (and_true (P s))).symm
  | s, e :: es => by
    show P s ∧ Always step P (step s e) es ↔ _
    rw [always_iff_guarded]
    rfl

theorem guarded_and : ∀ {s : S} {es : List E},
    Guarded step C s es ∧ Guarded step D s es ↔ Guarded step (fun s e => C s e ∧ D s e) s es
  | _, [] => and_self_iff
  | s, e :: es => by
    show (C s e ∧ Guarded step C (step s e) es) ∧ (D s e ∧ Guarded step D (step s e) es) ↔
      (C s e ∧ D s e) ∧ Guarded step (fun s e => C s e ∧ D s e) (step s e) es
    rw [← guarded_and, and_and_and_comm]

/-- What a condition implies under an invariant that it keeps guards the run as well. -/
theorem Guarded.of_invariant (hstep : ∀ s e, P s → C s e → D s e ∧ P (step s e)) :
    ∀ {s : S} {es : List E}, P s → Guarded step C s es → Guarded step D s es
  | _, [], _, _ => trivial
  | s, e :: _, hs, hes =>
    ⟨(hstep s e hs hes.1).1, Guarded.of_invariant hstep (hstep s e hs hes.1).2 hes.2⟩

/-- A run in two parts is guarded when both are, the second from where the first ends. -/
theorem guarded_append : ∀ {s : S} {as bs : List E},
    Guarded step C s (as ++ bs) ↔ Guarded step C s as ∧ Guarded step C (final step s as) bs
  | _, [], _ => (iff_of_eq (true_and _)).symm
  | s, a :: as, bs => by
    show C s a ∧ Guarded step C (step s a) (as ++ bs) ↔
      (C s a ∧ Guarded step C (step s a) as) ∧ Guarded step C (final step (step s a) as) bs
    rw [guarded_append, and_assoc]

/-- An invariant that every guarded step preserves holds all along a guarded run. -/
theorem always_of_guarded (hstep : ∀ s e, P s → C s e → P (step s e)) :
    ∀ {s : S} {es : List E}, P s → Guarded step C s es → Always step P s es
  | _, [], hs, _ => hs
  | s, e :: _, hs, hes =>
    ⟨hs, always_of_guarded hstep (hstep s e hs hes.1) hes.2⟩

/-- An invariant that every step preserves holds all along every run. -/
theorem always_of_step (hstep : ∀ s e, P s → P (step s e)) (hs : P s) :
    Always step P s es :=
  always_of_guarded (C := fun _ _ => True) (fun s e h _ => hstep s e h) hs
    (guarded_iff.mpr fun _ _ _ _ => trivial)

/-- The end of a run has every invariant of the step. -/
theorem final_of_step (hstep : ∀ s e, P s → P (step s e)) (hs : P s) :
    P (final step s es) :=
  (always_of_step hstep hs).last

end

end Runs

import Mathlib.Data.Option.Basic
import Efdi.Base.Runs

/-!
# Keys with a grace period

Rounds of reports come in, each at a time.  A report has a key and a tag.  A key is known from
its first report until a round without it comes a grace period or more after the last one with
it.  The tag of the report that made it known is its founding tag.

As long as a key is `Held`, it keeps its founding tag (`founder_of_held`).
-/

namespace Grace

variable {κ τ T : Type*} [DecidableEq κ] [Sub T] [LT T] [DecidableLT T]

/-- What is known of a key. -/
structure Founder (τ T : Type*) where
  tag : τ
  lastSeen : T

/-- The reports of a time, in their order. -/
structure Round (κ τ T : Type*) where
  now : T
  reports : List (κ × τ)

/-- The first report of a key. -/
def Round.first (round : Round κ τ T) (key : κ) : Option τ := round.reports.lookup key

/-- What is known of each key. -/
abbrev Known (κ τ T : Type*) := κ → Option (Founder τ T)

/-- What is known after a round. -/
def step (grace : T) (known : Known κ τ T) (round : Round κ τ T) : Known κ τ T := fun key =>
  match round.first key with
  | some tag => some ⟨((known key).map Founder.tag).getD tag, round.now⟩
  | none => (known key).filter fun founder => decide (round.now - founder.lastSeen < grace)

/-- What was known of a key that a round finds absent for the grace period. -/
def expired (grace : T) (known : Known κ τ T) (round : Round κ τ T) (key : κ) :
    Option (Founder τ T) :=
  match round.first key with
  | some _ => none
  | none => (known key).filter fun founder => !decide (round.now - founder.lastSeen < grace)

/-- The founding tag of a key that a round reports: the one that is known, or that of its first report
in the round. -/
def founding (known : Known κ τ T) (round : Round κ τ T) (key : κ) : Option τ :=
  ((known key).map Founder.tag).or (round.first key)

/-- The key was last reported at `seen`, and every round without it comes less than the grace period
after the last one with it. -/
def Held (grace : T) (key : κ) : T → List (Round κ τ T) → Prop
  | _, [] => True
  | seen, round :: rounds =>
    match round.first key with
    | some _ => Held grace key round.now rounds
    | none => round.now - seen < grace ∧ Held grace key seen rounds

/-- The key is reported by the first round, and held from there. -/
def NeverAbsent (grace : T) (key : κ) : List (Round κ τ T) → Prop
  | [] => True
  | round :: rounds => (round.first key).isSome ∧ Held grace key round.now rounds

variable {grace : T} {known : Known κ τ T} {round : Round κ τ T} {key : κ}

theorem step_of_first {tag : τ} (h : round.first key = some tag) :
    step grace known round key = some ⟨((known key).map Founder.tag).getD tag, round.now⟩ := by
  rw [step, h]

theorem tag_step_of_first {tag : τ} (h : round.first key = some tag) :
    (step grace known round key).map Founder.tag = founding known round key := by
  rw [step_of_first h, founding, h]
  cases known key with
  | none => rfl
  | some founder => rfl

theorem step_of_absent (h : round.first key = none) :
    step grace known round key =
      (known key).filter fun founder => decide (round.now - founder.lastSeen < grace) := by
  rw [step, h]

/-- A held key keeps its founding tag. -/
theorem founder_of_held {founder : Founder τ T} {rounds : List (Round κ τ T)}
    (hknown : known key = some founder) (hheld : Held grace key founder.lastSeen rounds) :
    (Runs.final (step grace) known rounds key).map Founder.tag = some founder.tag := by
  induction rounds generalizing known founder with
  | nil => rw [Runs.final_nil, hknown, Option.map_some]
  | cons round rounds ih =>
    rw [Runs.final_cons]
    rw [Held] at hheld
    cases hfirst : round.first key with
    | some tag =>
      rw [hfirst] at hheld
      refine @ih _ ⟨founder.tag, round.now⟩ ?_ hheld
      rw [step_of_first hfirst, hknown]
      rfl
    | none =>
      rw [hfirst] at hheld
      refine ih ?_ hheld.2
      rw [step_of_absent hfirst, hknown]
      simp [hheld.1]

omit [DecidableLT T] in
/-- Held along a list of rounds, a key is held along its first part. -/
theorem Held.front {seen : T} {rounds later : List (Round κ τ T)}
    (h : Held grace key seen (rounds ++ later)) : Held grace key seen rounds := by
  induction rounds generalizing seen with
  | nil => trivial
  | cons round rounds ih =>
    rw [List.cons_append, Held] at h
    rw [Held]
    cases hfirst : round.first key with
    | some tag =>
      rw [hfirst] at h
      exact ih h
    | none =>
      rw [hfirst] at h
      exact ⟨h.1, ih h.2⟩

/-- A key that is never absent has one founding tag after each of the rounds. -/
theorem founder_of_neverAbsent (known : Known κ τ T) {rounds before after before' after' :
    List (Round κ τ T)} (h : NeverAbsent grace key rounds) (hrounds : rounds = before ++ after)
    (hrounds' : rounds = before' ++ after') (hbefore : before ≠ []) (hbefore' : before' ≠ []) :
    (Runs.final (step grace) known before key).map Founder.tag =
      (Runs.final (step grace) known before' key).map Founder.tag := by
  cases rounds with
  | nil => exact absurd (List.append_eq_nil_iff.mp hrounds.symm).1 hbefore
  | cons round rounds =>
    obtain ⟨hfirst, hheld⟩ := h
    obtain ⟨tag, htag⟩ := Option.isSome_iff_exists.mp hfirst
    have hstep := @step_of_first _ _ _ _ _ _ _ grace known _ _ _ htag
    have hfinal : ∀ {front back}, round :: rounds = front ++ back → front ≠ [] →
        (Runs.final (step grace) known front key).map Founder.tag =
          some (((known key).map Founder.tag).getD tag) := by
      intro front back hsplit hfront
      cases front with
      | nil => exact absurd rfl hfront
      | cons first front =>
        obtain ⟨rfl, rfl⟩ := List.cons.inj hsplit
        exact founder_of_held hstep hheld.front
    rw [hfinal hrounds hbefore, hfinal hrounds' hbefore']

end Grace

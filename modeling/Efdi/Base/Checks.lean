import Mathlib.Logic.Basic

/-!
# Sequences of checks

Python code that validates a value is a sequence of reads and of tests that raise.
In `Except` the reads are binds and a test is `rejectIf`; in `Option` a test is
`require`.  The lemmas turn "the whole sequence succeeded" into the conjunction of
what each step saw, so one `simp only` opens a validator.
-/

namespace Checks

variable {ε : Type*} {α β : Type}

/-- `if bad: raise error`. -/
def rejectIf (bad : Bool) (error : ε) : Except ε Unit :=
  if bad then .error error else .ok ()

/-- A test whose failure has no message. -/
def require (ok : Bool) : Option Unit := if ok then some () else none

@[simp] theorem rejectIf_eq_ok {bad : Bool} {error : ε} {u : Unit} :
    rejectIf bad error = .ok u ↔ bad = false := by
  cases bad <;> simp [rejectIf]

@[simp] theorem rejectIf_false (error : ε) : rejectIf false error = .ok () := rfl

@[simp] theorem rejectIf_true (error : ε) : rejectIf true error = .error error := rfl

@[simp] theorem require_eq_some {ok : Bool} {u : Unit} : require ok = some u ↔ ok = true := by
  cases ok <;> simp [require]

variable {x : Except ε α} {f : α → Except ε β}

/-- A sequence succeeds when each part does. -/
theorem bind_eq_ok {b : β} :
    (x >>= f) = .ok b ↔ ∃ a, x = .ok a ∧ f a = .ok b := by
  cases x with
  | error e => simp [bind, Except.bind]
  | ok a => simp [bind, Except.bind]

theorem pure_eq_ok {a b : α} : (pure a : Except ε α) = .ok b ↔ a = b := by
  simp [pure, Except.pure]

theorem ok_bind (a : α) (f : α → Except ε β) : ((Except.ok a : Except ε α) >>= f) = f a := rfl

theorem error_bind (e : ε) (f : α → Except ε β) :
    ((Except.error e : Except ε α) >>= f) = .error e := rfl

@[simp] theorem toOption_eq_some_iff {a : α} :
    x.toOption = some a ↔ x = .ok a := by
  cases x <;> simp [Except.toOption]

/-- A success has a value. -/
theorem exists_of_isOk (h : x.isOk = true) : ∃ a, x = .ok a := by
  cases x with
  | error e => cases h
  | ok a => exact ⟨a, rfl⟩

theorem isOk_iff : x.isOk = true ↔ ∃ a, x = .ok a := by
  refine ⟨exists_of_isOk, ?_⟩
  rintro ⟨a, rfl⟩
  rfl

theorem isOk_map {f : α → β} (x : Except ε α) : (x.map f).isOk = x.isOk := by
  cases x with
  | error e => rfl
  | ok a => rfl

theorem isOk_bind :
    (x >>= f).isOk = true ↔ ∃ a, x = .ok a ∧ (f a).isOk = true := by
  cases x with
  | error e => simp [error_bind, Except.isOk, Except.toBool]
  | ok a => simp [ok_bind]

/-- A list of reads succeeds when each read does. -/
theorem isOk_mapM : ∀ {values : List α},
    (values.mapM f).isOk = true ↔ ∀ value ∈ values, (f value).isOk = true
  | [] => by simp [Except.isOk, Except.toBool, pure, Except.pure]
  | value :: values => by
    rw [List.mapM_cons, isOk_bind, List.forall_mem_cons, ← isOk_mapM, isOk_iff]
    constructor
    · rintro ⟨b, hb, hrest⟩
      obtain ⟨bs, hbs, -⟩ := isOk_bind.mp hrest
      exact ⟨⟨b, hb⟩, isOk_iff.mpr ⟨bs, hbs⟩⟩
    · rintro ⟨⟨b, hb⟩, hrest⟩
      obtain ⟨bs, hbs⟩ := isOk_iff.mp hrest
      exact ⟨b, hb, isOk_bind.mpr ⟨bs, hbs, rfl⟩⟩

end Checks

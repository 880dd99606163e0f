import Mathlib.Data.List.Basic

/-!
# Codes whose words say where they end

A code renders values as words and takes a word off the front of a stream.  It is
self-delimiting when taking off gives back exactly what was put in front
(`Code.next?_eq_some`).  `Code.cut` takes words off until the front is no word.  Cutting gives
back any list of words that the stream begins with (`Code.cut_append`), and no list of words
reaches further into the stream (`Code.prefix_cut`).
-/

namespace SelfDelimiting

open List

variable {α β : Type*}

/-- A rendering of values that nothing behind it can change. -/
structure Code (α β : Type*) where
  render : β → List α
  next? : List α → Option (β × List α)
  next?_eq_some : ∀ {stream rest : List α} {value : β},
    next? stream = some (value, rest) ↔ stream = render value ++ rest
  render_ne_nil : ∀ value : β, render value ≠ []

namespace Code

variable (C : Code α β)

theorem next?_append (value : β) (rest : List α) :
    C.next? (C.render value ++ rest) = some (value, rest) :=
  C.next?_eq_some.mpr rfl

theorem next?_shrinks {stream rest : List α} {value : β}
    (h : C.next? stream = some (value, rest)) : rest.length < stream.length := by
  have hword : 0 < (C.render value).length := length_pos_of_ne_nil (C.render_ne_nil value)
  rw [C.next?_eq_some.mp h, length_append]
  omega

/-- Words taken off the front until it is no word. -/
def cut (stream : List α) : List β × List α :=
  match h : C.next? stream with
  | none => ([], stream)
  | some (value, rest) => (value :: (cut rest).1, (cut rest).2)
termination_by stream.length
decreasing_by all_goals exact C.next?_shrinks h

/-- The words one after the other. -/
def stream (values : List β) : List α := values.flatMap C.render

@[simp] theorem stream_nil : C.stream [] = [] := rfl

@[simp] theorem stream_cons (value : β) (values : List β) :
    C.stream (value :: values) = C.render value ++ C.stream values := rfl

theorem cut_none {bytes : List α} (h : C.next? bytes = none) : C.cut bytes = ([], bytes) := by
  rw [cut]
  split
  next => rfl
  next value rest hnext =>
    rw [h] at hnext
    cases hnext

theorem cut_some {bytes rest : List α} {value : β} (h : C.next? bytes = some (value, rest)) :
    C.cut bytes = (value :: (C.cut rest).1, (C.cut rest).2) := by
  rw [cut]
  split
  next hnext =>
    rw [h] at hnext
    cases hnext
  next value' rest' hnext =>
    rw [h] at hnext
    obtain ⟨rfl, rfl⟩ := Prod.mk.inj (Option.some.inj hnext)
    rfl

/-- A stream begins with a word, about which the rest already holds, or with none. -/
@[elab_as_elim]
theorem induction {motive : List α → Prop} (stuck : ∀ bytes, C.next? bytes = none → motive bytes)
    (word : ∀ value rest, motive rest → motive (C.render value ++ rest)) (bytes : List α) :
    motive bytes := by
  cases hnext : C.next? bytes with
  | none => exact stuck bytes hnext
  | some found =>
    have hless : found.2.length < bytes.length := C.next?_shrinks hnext
    rw [C.next?_eq_some.mp hnext]
    exact word found.1 found.2 (induction stuck word found.2)
termination_by bytes.length

/-- Words put in front of a stream are cut off first. -/
theorem cut_append : ∀ (values : List β) (rest : List α),
    C.cut (C.stream values ++ rest) = (values ++ (C.cut rest).1, (C.cut rest).2)
  | [], rest => rfl
  | value :: values, rest => by
    rw [stream_cons, append_assoc, C.cut_some (C.next?_append value _),
      cut_append values rest]
    rfl

/-- What was cut and what is left make up the stream. -/
theorem stream_cut (bytes : List α) : C.stream (C.cut bytes).1 ++ (C.cut bytes).2 = bytes := by
  induction bytes using C.induction with
  | stuck bytes hnext => rw [C.cut_none hnext, stream_nil, nil_append]
  | word value rest ih =>
    rw [C.cut_some (C.next?_append value rest), stream_cons, append_assoc, ih]

/-- No list of words reaches further into the stream than what is cut. -/
theorem prefix_cut {values : List β} {bytes : List α} (h : C.stream values <+: bytes) :
    values <+: (C.cut bytes).1 := by
  obtain ⟨rest, rfl⟩ := h
  rw [C.cut_append]
  exact prefix_append ..

theorem stream_prefix {values values' : List β} (h : values <+: values') :
    C.stream values <+: C.stream values' := by
  obtain ⟨more, rfl⟩ := h
  rw [stream, stream, flatMap_append]
  exact prefix_append ..

/-- A list of words is cut completely. -/
@[simp] theorem cut_stream (values : List β) : C.cut (C.stream values) = (values, []) := by
  have hend : C.next? [] = none := by
    cases hnext : C.next? [] with
    | none => rfl
    | some found => exact absurd (C.next?_shrinks hnext) (Nat.not_lt_zero _)
  have hcut := C.cut_append values []
  rw [append_nil, C.cut_none hend, append_nil] at hcut
  exact hcut

end Code

end SelfDelimiting

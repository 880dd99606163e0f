import Mathlib.Data.List.Basic

/-!
# Cutting frames out of a stream

A reader keeps a buffer.  One look at the buffer waits for more, drops the front of the
buffer, or cuts a frame off.  `Scanner.drain` looks until it has to wait, and `Scanner.feed`
drains after every chunk that arrives.

A scanner is `Steady` when what it does with a buffer does not depend on what arrives later.
The frames of a steady scanner depend on the stream only, and not on how it is cut into
chunks (`Scanner.Steady.feed`).
-/

namespace Framing

open List

variable {α β : Type*}

/-- What one look at a buffer does. -/
inductive Look (α β : Type*) where
  | wait (rest : List α)
  | drop (rest : List α)
  | frame (value : β) (rest : List α)

/-- The buffer after a look that goes on looking. -/
def Look.next? : Look α β → Option (List α)
  | .wait _ => none
  | .drop rest => some rest
  | .frame _ rest => some rest

/-- A look that goes on only with a shorter buffer. -/
structure Scanner (α β : Type*) where
  look : List α → Look α β
  shrinks : ∀ {buffer rest : List α}, (look buffer).next? = some rest →
    rest.length < buffer.length

namespace Scanner

variable (S : Scanner α β)

/-- Look until there is nothing to do: the frames that were cut off and the buffer that is
left. -/
def drain (buffer : List α) : List β × List α :=
  match hlook : S.look buffer with
  | .wait rest => ([], rest)
  | .drop rest => drain rest
  | .frame value rest => (value :: (drain rest).1, (drain rest).2)
termination_by buffer.length
decreasing_by
  all_goals exact S.shrinks (by rw [hlook]; rfl)

/-- Drain after every chunk. -/
def feed : List α → List (List α) → List β × List α
  | buffer, [] => ([], buffer)
  | buffer, chunk :: chunks =>
    let drained := S.drain (buffer ++ chunk)
    let fed := feed drained.2 chunks
    (drained.1 ++ fed.1, fed.2)

/-- The frames of a whole stream. -/
def frames (stream : List α) : List β := (S.drain stream).1

variable {S} {buffer rest : List α}

theorem drain_wait (h : S.look buffer = .wait rest) : S.drain buffer = ([], rest) := by
  rw [drain]
  split
  next rest' hlook =>
    rw [h] at hlook
    rw [Look.wait.inj hlook]
  next rest' hlook =>
    rw [h] at hlook
    cases hlook
  next value rest' hlook =>
    rw [h] at hlook
    cases hlook

theorem drain_drop (h : S.look buffer = .drop rest) : S.drain buffer = S.drain rest := by
  rw [drain]
  split
  next rest' hlook =>
    rw [h] at hlook
    cases hlook
  next rest' hlook =>
    rw [h] at hlook
    rw [Look.drop.inj hlook]
  next value rest' hlook =>
    rw [h] at hlook
    cases hlook

theorem drain_frame {value : β} (h : S.look buffer = .frame value rest) :
    S.drain buffer = (value :: (S.drain rest).1, (S.drain rest).2) := by
  rw [drain]
  split
  next rest' hlook =>
    rw [h] at hlook
    cases hlook
  next rest' hlook =>
    rw [h] at hlook
    cases hlook
  next value' rest' hlook =>
    rw [h] at hlook
    obtain ⟨rfl, rfl⟩ := Look.frame.inj hlook
    rfl

@[simp] theorem frames_wait (h : S.look buffer = .wait rest) : S.frames buffer = [] := by
  rw [frames, drain_wait h]

theorem frames_drop (h : S.look buffer = .drop rest) : S.frames buffer = S.frames rest := by
  rw [frames, frames, drain_drop h]

theorem frames_frame {value : β} (h : S.look buffer = .frame value rest) :
    S.frames buffer = value :: S.frames rest := by
  rw [frames, frames, drain_frame h]

theorem frames_nil : S.frames [] = [] := by
  cases hlook : S.look [] with
  | wait rest => exact frames_wait hlook
  | drop rest => exact absurd (S.shrinks (by rw [hlook]; rfl)) (Nat.not_lt_zero _)
  | frame value rest => exact absurd (S.shrinks (by rw [hlook]; rfl)) (Nat.not_lt_zero _)

/-- What a look does with a buffer does not depend on what arrives later. -/
structure Steady (S : Scanner α β) : Prop where
  drop : ∀ {buffer rest : List α}, S.look buffer = .drop rest →
    ∀ more, S.look (buffer ++ more) = .drop (rest ++ more)
  frame : ∀ {buffer rest : List α} {value : β}, S.look buffer = .frame value rest →
    ∀ more, S.look (buffer ++ more) = .frame value (rest ++ more)
  /-- What is kept while waiting gives the frames of the whole buffer. -/
  wait : ∀ {buffer rest : List α}, S.look buffer = .wait rest →
    ∀ more, S.frames (rest ++ more) = S.frames (buffer ++ more)

namespace Steady

variable (h : S.Steady)
include h

/-- Draining a buffer and going on gives the frames of the buffer and the rest of the stream. -/
theorem frames_append (buffer more : List α) :
    S.frames (buffer ++ more) = (S.drain buffer).1 ++ S.frames ((S.drain buffer).2 ++ more) := by
  cases hlook : S.look buffer with
  | wait rest => rw [drain_wait hlook, nil_append, h.wait hlook]
  | drop rest =>
    have hless : rest.length < buffer.length := S.shrinks (by rw [hlook]; rfl)
    rw [drain_drop hlook, frames_drop (h.drop hlook more), frames_append rest more]
  | frame value rest =>
    have hless : rest.length < buffer.length := S.shrinks (by rw [hlook]; rfl)
    rw [drain_frame hlook, frames_frame (h.frame hlook more), frames_append rest more,
      cons_append]
termination_by buffer.length

/-- A drained buffer holds no frame. -/
theorem frames_drained (buffer : List α) : S.frames (S.drain buffer).2 = [] := by
  have hsplit := h.frames_append buffer []
  rw [append_nil, append_nil] at hsplit
  exact (append_right_eq_self.mp hsplit.symm)

theorem feed_of_drained : ∀ {chunks : List (List α)} {buffer : List α}, S.frames buffer = [] →
    (S.feed buffer chunks).1 = S.frames (buffer ++ chunks.flatten)
  | [], buffer, hbuffer => by
    rw [feed, flatten_nil, append_nil, hbuffer]
  | chunk :: chunks, buffer, _ => by
    rw [feed, flatten_cons, ← append_assoc, h.frames_append (buffer ++ chunk)]
    exact congrArg _ (feed_of_drained (h.frames_drained _))

/-- The frames do not depend on how the stream is cut. -/
theorem feed (chunks : List (List α)) : (S.feed [] chunks).1 = S.frames chunks.flatten :=
  h.feed_of_drained frames_nil

end Steady

/-- Waiting drops nothing. -/
def Keeping (S : Scanner α β) : Prop :=
  ∀ {buffer rest : List α}, S.look buffer = .wait rest → rest = buffer

/-- Draining a part of a stream first changes neither the frames nor the buffer that is left. -/
theorem Steady.drain_append (h : S.Steady) (hkeep : S.Keeping) (buffer more : List α) :
    S.drain (buffer ++ more) =
      ((S.drain buffer).1 ++ (S.drain ((S.drain buffer).2 ++ more)).1,
        (S.drain ((S.drain buffer).2 ++ more)).2) := by
  cases hlook : S.look buffer with
  | wait rest => rw [drain_wait hlook, hkeep hlook, nil_append]
  | drop rest =>
    have hless : rest.length < buffer.length := S.shrinks (by rw [hlook]; rfl)
    rw [drain_drop hlook, drain_drop (h.drop hlook more), drain_append h hkeep rest more]
  | frame value rest =>
    have hless : rest.length < buffer.length := S.shrinks (by rw [hlook]; rfl)
    rw [drain_frame hlook, drain_frame (h.frame hlook more), drain_append h hkeep rest more,
      cons_append]
termination_by buffer.length

theorem Steady.drain_drained (h : S.Steady) (hkeep : S.Keeping) (buffer : List α) :
    S.drain (S.drain buffer).2 = ([], (S.drain buffer).2) := by
  have hsplit := h.drain_append hkeep buffer []
  rw [append_nil, append_nil] at hsplit
  obtain ⟨hframes, hleft⟩ := Prod.ext_iff.mp hsplit
  exact Prod.ext (append_right_eq_self.mp hframes.symm) hleft.symm

/-- Neither do the chunks that a stream comes in. -/
theorem Steady.feed_eq_drain (h : S.Steady) (hkeep : S.Keeping) {chunks : List (List α)} :
    ∀ {buffer : List α}, S.drain buffer = ([], buffer) →
      S.feed buffer chunks = S.drain (buffer ++ chunks.flatten) := by
  induction chunks with
  | nil =>
    intro buffer hbuffer
    rw [Scanner.feed, flatten_nil, append_nil, hbuffer]
  | cons chunk chunks ih =>
    intro buffer _
    rw [Scanner.feed, flatten_cons, ← append_assoc,
      h.drain_append hkeep (buffer ++ chunk) chunks.flatten, ih (h.drain_drained hkeep _)]

end Scanner

end Framing

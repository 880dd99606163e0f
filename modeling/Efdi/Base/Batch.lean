import Mathlib.Data.List.Basic

/-!
# Messages in one batch or one by one

A handler acts on a message by effects, which make up the next state.  A batch is several
messages one after the other.  A handler loses nothing of a batch when its effects are those of
the messages one by one, in order.  One that only looks at the first message of a batch loses
nothing exactly when the others have no effect (`lossless_iff_of_first`).
-/

namespace Batch

variable {σ ε τ α : Type}

/-- What a handler does with bytes, the clock given by position, and what its effects do. -/
structure Handler (σ ε τ α : Type) where
  effects : (Nat → τ) → σ → List α → List ε
  apply : σ → ε → σ

namespace Handler

variable (h : Handler σ ε τ α)

/-- The state after some effects. -/
def after (state : σ) (effects : List ε) : σ := effects.foldl h.apply state

/-- The effects of messages that come one by one. -/
def oneByOne (clock : Nat → τ) : Nat → σ → List (List α) → List ε
  | _, _, [] => []
  | pos, state, message :: messages =>
    let effects := h.effects (fun i => clock (pos + i)) state message
    effects ++ oneByOne clock (pos + message.length) (h.after state effects) messages

/-- A batch has the effects of its messages. -/
def Lossless (clock : Nat → τ) (state : σ) (messages : List (List α)) : Prop :=
  h.effects clock state messages.flatten = h.oneByOne clock 0 state messages

variable {h}

/-- Messages have no effect one by one when none of them has one. -/
theorem oneByOne_eq_nil_iff {clock : Nat → τ} {state : σ} {Quiet : σ → List α → Prop}
    (hquiet : ∀ clock state message, h.effects clock state message = [] ↔ Quiet state message) :
    ∀ {pos : Nat} {messages : List (List α)}, h.oneByOne clock pos state messages = [] ↔
      ∀ message ∈ messages, Quiet state message
  | _, [] => by
    rw [oneByOne]
    exact ⟨fun _ => nofun, fun _ => rfl⟩
  | pos, message :: messages => by
    rw [oneByOne, List.append_eq_nil_iff]
    constructor
    · rintro ⟨hfirst, hrest⟩ other hother
      rw [hfirst, after, List.foldl_nil] at hrest
      rcases List.mem_cons.mp hother with rfl | hother
      · exact (hquiet _ _ _).mp hfirst
      · exact (oneByOne_eq_nil_iff hquiet).mp hrest other hother
    · intro hall
      have hfirst := (hquiet (fun i => clock (pos + i)) _ _).mpr
        (hall message (.head _))
      refine ⟨hfirst, ?_⟩
      rw [hfirst, after, List.foldl_nil]
      exact (oneByOne_eq_nil_iff hquiet).mpr fun other hother =>
        hall other (.tail _ hother)

/-- A handler that acts on the first message of a batch only loses nothing exactly when the others
have no effect in the state behind it.  Whether a message has one does not depend on the time. -/
theorem lossless_iff_of_first {clock : Nat → τ} {state : σ} {message : List α}
    {messages : List (List α)} {Quiet : σ → List α → Prop}
    (hquiet : ∀ clock state message, h.effects clock state message = [] ↔ Quiet state message)
    (hfirst : h.effects clock state (message ++ messages.flatten) = h.effects clock state message) :
    h.Lossless clock state (message :: messages) ↔
      ∀ other ∈ messages, Quiet (h.after state (h.effects clock state message)) other := by
  have hclock : (fun i => clock (0 + i)) = clock := by
    funext i
    rw [Nat.zero_add]
  rw [Lossless, List.flatten_cons, hfirst, oneByOne, hclock]
  exact List.self_eq_append_right.trans (oneByOne_eq_nil_iff hquiet)

end Handler

end Batch

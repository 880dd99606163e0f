import Mathlib.Logic.Function.Iterate

/-!
# Representatives

A partial map sends members to representatives.  It is *flat* when every representative is its
own.  Following a flat map comes to rest after one step (`Flat.iterate`), and members that a flat
map connects have one representative (`Flat.shared`).

A member may be linked to a representative when no other member is linked to it (`Flat.link`).
While members are taken out, the map is flat off the set of those that leave, and a representative
that leaves hands over to a member that stays (`FlatOff.promote`).
-/

namespace Representatives

open Function

variable {κ : Type*} {rep : κ → Option κ}

/-- The representative of a member outside `E` is its own. -/
def FlatOff (E : κ → Prop) (rep : κ → Option κ) : Prop :=
  ∀ u p, ¬ E u → rep u = some p → rep p = some p

/-- Every representative is its own. -/
def Flat (rep : κ → Option κ) : Prop := ∀ u p, rep u = some p → rep p = some p

theorem Flat.off (h : Flat rep) (E : κ → Prop) : FlatOff E rep := fun u p _ => h u p

theorem FlatOff.flat {E : κ → Prop} (h : FlatOff E rep) (hgone : ∀ u, E u → rep u = none) :
    Flat rep := by
  intro u p hu
  refine h u p (fun he => ?_) hu
  rw [hgone u he] at hu
  cases hu

/-- A member that is not its own representative represents no member that stays. -/
theorem FlatOff.ne_of_ne {E : κ → Prop} (h : FlatOff E rep) {k : κ} (hk : rep k ≠ some k) :
    ∀ u, ¬ E u → rep u ≠ some k :=
  fun u hu hrep => hk (h u k hu hrep)

/-! ## Following the map -/

/-- The representative of a member, or the member. -/
def follow (rep : κ → Option κ) (u : κ) : κ := (rep u).getD u

theorem follow_of_some {u p : κ} (h : rep u = some p) : follow rep u = p := by
  rw [follow, h, Option.getD_some]

theorem Flat.follow_follow (h : Flat rep) (u : κ) : follow rep (follow rep u) = follow rep u := by
  cases hu : rep u with
  | none =>
    have hself : follow rep u = u := by rw [follow, hu, Option.getD_none]
    rw [hself, hself]
  | some p => rw [follow_of_some hu, follow_of_some (h u p hu)]

/-- Following comes to rest after one step. -/
theorem Flat.iterate (h : Flat rep) (u : κ) (n : Nat) :
    (follow rep)^[n + 1] u = follow rep u := by
  induction n with
  | zero => rfl
  | succ n ih => rw [iterate_succ_apply', ih, h.follow_follow]

/-- Members that the map connects have one representative. -/
theorem Flat.shared (h : Flat rep) {u v : κ} {m n : Nat}
    (hmeet : (follow rep)^[m] u = (follow rep)^[n] v) : follow rep u = follow rep v := by
  have hnext := congrArg (follow rep) hmeet
  rw [← iterate_succ_apply' (follow rep) m u,
    ← iterate_succ_apply' (follow rep) n v] at hnext
  calc follow rep u = (follow rep)^[m + 1] u := (h.iterate u m).symm
    _ = (follow rep)^[n + 1] v := hnext
    _ = follow rep v := h.iterate v n

section

variable [DecidableEq κ]

/-! ## Linking -/

/-- Link a member to a representative. -/
def link (rep : κ → Option κ) (u p : κ) : κ → Option κ := Function.update rep u (some p)

theorem link_self (rep : κ → Option κ) (u p : κ) : link rep u p u = some p :=
  update_self u _ _

theorem link_of_ne {u v : κ} (h : v ≠ u) (p : κ) : link rep u p v = rep v :=
  update_of_ne h _ _

theorem Flat.link_own (h : Flat rep) (u : κ) : Flat (link rep u u) := by
  intro v p hv
  by_cases hp : p = u
  · rw [hp]
    exact link_self rep u u
  · by_cases hvu : v = u
    · rw [hvu, link_self] at hv
      exact absurd (Option.some.inj hv).symm hp
    · rw [link_of_ne hvu] at hv
      rw [link_of_ne hp]
      exact h v p hv

/-- A member that represents no other may be linked. -/
theorem Flat.link (h : Flat rep) {u p : κ} (hp : rep p = some p)
    (hu : p ≠ u → ∀ v, v ≠ u → rep v ≠ some u) : Flat (link rep u p) := by
  by_cases hpu : p = u
  · rw [hpu]
    exact h.link_own u
  · intro v q hv
    by_cases hvu : v = u
    · rw [hvu, link_self] at hv
      cases Option.some.inj hv
      rw [link_of_ne hpu]
      exact hp
    · rw [link_of_ne hvu] at hv
      have hqu : q ≠ u := by
        rintro rfl
        exact hu hpu v hvu hv
      rw [link_of_ne hqu]
      exact h v q hv

/-! ## Leaving -/

/-- Take a member out. -/
def drop (rep : κ → Option κ) (k : κ) : κ → Option κ := Function.update rep k none

theorem drop_self (rep : κ → Option κ) (k : κ) : drop rep k k = none := update_self k _ _

theorem drop_of_ne {k u : κ} (h : u ≠ k) : drop rep k u = rep u := update_of_ne h _ _

/-- What `k` represents, `heir` represents. -/
def handOver (rep : κ → Option κ) (k heir : κ) (u : κ) : Option κ :=
  if u = heir ∨ rep u = some k then some heir else rep u

theorem handOver_heir (rep : κ → Option κ) (k heir : κ) :
    handOver rep k heir heir = some heir := if_pos (Or.inl rfl)

theorem isSome_handOver {k heir : κ} (h : (rep heir).isSome = true) (u : κ) :
    (handOver rep k heir u).isSome = (rep u).isSome := by
  rw [handOver]
  split
  next hu =>
    rcases hu with rfl | hu
    · rw [h, Option.isSome_some]
    · rw [hu, Option.isSome_some, Option.isSome_some]
  next => rfl

variable {E : κ → Prop}

/-- A member that leaves and represents no member that stays may be taken out. -/
theorem FlatOff.drop (h : FlatOff E rep) {k : κ} (hno : ∀ u, ¬ E u → rep u ≠ some k) :
    FlatOff E (drop rep k) := by
  intro u p hu hrep
  have huk : u ≠ k := by
    rintro rfl
    rw [drop_self] at hrep
    cases hrep
  rw [drop_of_ne huk] at hrep
  have hpk : p ≠ k := by
    rintro rfl
    exact hno u hu hrep
  rw [drop_of_ne hpk]
  exact h u p hu hrep

theorem handOver_ne {k heir : κ} (h : heir ≠ k) (u : κ) : handOver rep k heir u ≠ some k := by
  rw [handOver]
  split
  next => exact fun hk => h (Option.some.inj hk)
  next hne => exact fun hk => hne (Or.inr hk)

theorem FlatOff.handOver (h : FlatOff E rep) (k heir : κ) :
    FlatOff E (handOver rep k heir) := by
  intro u p hu hrep
  rw [Representatives.handOver] at hrep
  split at hrep
  · rw [← Option.some.inj hrep]
    exact handOver_heir rep k heir
  · have hp := h u p hu hrep
    rw [Representatives.handOver]
    split
    next hheir =>
      rcases hheir with rfl | hk
      · rfl
      · rename_i hne
        rw [hp] at hk
        rw [Option.some.inj hk] at hrep
        exact absurd (Or.inr hrep) hne
    next => exact hp

/-- A representative that leaves hands over to another member and is taken out. -/
theorem FlatOff.promote (h : FlatOff E rep) {k heir : κ} (hheir : heir ≠ k) :
    FlatOff E (Representatives.drop (Representatives.handOver rep k heir) k) :=
  (h.handOver k heir).drop fun u _ => handOver_ne hheir u

end

end Representatives

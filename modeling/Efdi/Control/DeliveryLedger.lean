import Efdi.Base.Recent
import Efdi.Base.Runs
import Mathlib.Data.Finset.Sort
import Mathlib.Data.String.Basic

/-!
# The ledger of the delivery reconciler

A producer notes every topic it publishes in a set, and from time to time compares the set with what
it reads back.  A set that has grown too large is cut down to the last half of the topics by name,
which need not be those that were sent last.

The ledger keeps the recent topics exactly as long as they come after all others by name whenever it
is cut down (`compares_iff_namesFollow`).
-/

namespace Efdi.Control.Delivery

open Recent (distinctBy)
open Runs List

/-! ## The last elements of a sorted list -/

section

variable {α : Type*} [LinearOrder α]

/-- An element is one of the last `n` when fewer than `n` are greater. -/
theorem mem_drop_iff {sorted : List α} (h : sorted.Pairwise (· < ·)) (n : Nat) (a : α) :
    a ∈ sorted.drop (sorted.length - n) ↔
      a ∈ sorted ∧ (sorted.filter fun b => decide (a < b)).length < n := by
  induction sorted with
  | nil => simp
  | cons least sorted ih =>
    rw [pairwise_cons] at h
    rw [length_cons]
    by_cases hn : n ≤ sorted.length
    · rw [Nat.succ_sub hn, drop_succ_cons, ih h.2, mem_cons]
      constructor
      · rintro ⟨ha, hfew⟩
        rw [filter_cons_of_neg (by simpa using (h.1 a ha).le)]
        exact ⟨.inr ha, hfew⟩
      · rintro ⟨rfl | ha, hfew⟩
        · -- every other element is greater than the least one
          have hall : sorted.filter (fun b => decide (a < b)) = sorted :=
            filter_eq_self.mpr fun b hb => decide_eq_true (h.1 b hb)
          rw [filter_cons_of_neg (by simp), hall] at hfew
          omega
        · rw [filter_cons_of_neg (by simpa using (h.1 a ha).le)] at hfew
          exact ⟨ha, hfew⟩
    · have hzero : sorted.length + 1 - n = 0 := by omega
      rw [hzero, drop_zero, iff_self_and]
      intro ha
      have hless : ((least :: sorted).filter fun b => decide (a < b)).length <
          (least :: sorted).length :=
        length_filter_lt_length_iff_exists.mpr ⟨a, ha, by simp⟩
      rw [length_cons] at hless
      omega

end

/-! ## The reconciler -/

/-- What a `DeliveryReconciler` holds. -/
structure DeliveryReconciler where
  maxLedger : Nat
  intentLedger : Finset String
  sentThisInterval : Nat

/-- `set(sorted(ledger)[-n:])`, which is the whole ledger for `n = 0`. -/
def lastNames (n : Nat) (ledger : Finset String) : Finset String :=
  if n = 0 then ledger else (ledger.sort.drop (ledger.card - n)).toFinset

/-- `sent`. -/
def DeliveryReconciler.sent (r : DeliveryReconciler) (topic : String) : DeliveryReconciler :=
  let ledger := insert topic r.intentLedger
  { r with
    intentLedger :=
      if r.maxLedger < ledger.card then lastNames (r.maxLedger / 2) ledger else ledger
    sentThisInterval := r.sentThisInterval + 1 }

/-- `tick` with the keys that were read back: the gap, and the heartbeat's counter set back. -/
def DeliveryReconciler.tick (r : DeliveryReconciler) (landed : Finset String) :
    DeliveryReconciler × Option (Finset String) :=
  ({ r with sentThisInterval := 0 },
    if r.intentLedger.Nonempty then some (r.intentLedger \ landed) else none)

theorem mem_lastNames {n : Nat} (hn : n ≠ 0) {ledger : Finset String} {topic : String} :
    topic ∈ lastNames n ledger ↔
      topic ∈ ledger ∧ (ledger.filter fun other => topic < other).card < n := by
  have hsorted : ledger.sort.Pairwise (· < ·) := ledger.sortedLT_sort.pairwise
  have hcard : (ledger.sort.filter fun other => decide (topic < other)).length =
      (ledger.filter fun other => topic < other).card := by
    rw [← toFinset_card_of_nodup ((ledger.sort_nodup _).filter _), toFinset_filter,
      Finset.sort_toFinset]
    simp
  rw [lastNames, if_neg hn, mem_toFinset, ← hcard, ← Finset.mem_sort (α := String) (· ≤ ·)]
  have hlast := mem_drop_iff hsorted n topic
  rwa [Finset.length_sort] at hlast

theorem card_lastNames {n : Nat} (hn : n ≠ 0) {ledger : Finset String} (hle : n ≤ ledger.card) :
    (lastNames n ledger).card = n := by
  rw [lastNames, if_neg hn, toFinset_card_of_nodup
    ((drop_sublist _ _).nodup (ledger.sort_nodup _)), length_drop, Finset.length_sort]
  omega

/-! ## Runs -/

/-- What happens to a reconciler. -/
inductive Call where
  | sent (topic : String)
  | tick (landed : Finset String)

/-- A reconciler with the topics it was told of, the last one in front. -/
structure Sending where
  reconciler : DeliveryReconciler
  log : List String

namespace Sending

/-- The state after a call. -/
def step (s : Sending) : Call → Sending
  | .sent topic => ⟨s.reconciler.sent topic, topic :: s.log⟩
  | .tick landed => ⟨(s.reconciler.tick landed).1, s.log⟩

/-- A reconciler that was told of nothing. -/
def start (maxLedger : Nat) : Sending := ⟨⟨maxLedger, ∅, 0⟩, []⟩

/-- The topics that were sent last, half as many as the ledger may hold. -/
def recent (maxLedger : Nat) (log : List String) : List String :=
  (distinctBy id log).take (maxLedger / 2)

/-- The ledger is bounded and has the topics that were sent last, so a tick finds each of them that
did not land. -/
structure Compares (s : Sending) : Prop where
  bounded : s.reconciler.intentLedger.card ≤ s.reconciler.maxLedger
  recent : ∀ topic ∈ recent s.reconciler.maxLedger s.log, topic ∈ s.reconciler.intentLedger
  compared : ∀ landed, ∀ topic ∈ Sending.recent s.reconciler.maxLedger s.log, topic ∉ landed →
    ∃ gap, (s.reconciler.tick landed).2 = some gap ∧ topic ∈ gap

/-- When a topic makes the ledger too large, half of its bound is not nothing, and the topics that
were sent last come after all others by name. -/
def NamesFollow (s : Sending) : Call → Prop
  | .sent topic =>
    let ledger := insert topic s.reconciler.intentLedger
    let lastSent := Sending.recent s.reconciler.maxLedger (topic :: s.log)
    s.reconciler.maxLedger < ledger.card →
      2 ≤ s.reconciler.maxLedger ∧ ∀ topic ∈ lastSent, ∀ other ∈ ledger, other ∉ lastSent →
        other < topic
  | .tick _ => True

variable {s : Sending} {topic : String}

theorem compares_iff : s.Compares ↔ s.reconciler.intentLedger.card ≤ s.reconciler.maxLedger ∧
    ∀ topic ∈ recent s.reconciler.maxLedger s.log, topic ∈ s.reconciler.intentLedger := by
  constructor
  · exact fun h => ⟨h.bounded, h.recent⟩
  · rintro ⟨hbounded, hrecent⟩
    refine ⟨hbounded, hrecent, fun landed topic htopic hlanded => ?_⟩
    refine ⟨s.reconciler.intentLedger \ landed, if_pos ⟨topic, hrecent topic htopic⟩, ?_⟩
    exact Finset.mem_sdiff.mpr ⟨hrecent topic htopic, hlanded⟩

/-! ### A topic that is sent -/

theorem nodup_recent (maxLedger : Nat) (log : List String) : (recent maxLedger log).Nodup := by
  have h := Recent.nodup_keys_distinctBy id log
  rw [map_id] at h
  exact (take_sublist _ _).nodup h

/-- A topic that was sent last is the one at hand or was among them before. -/
theorem recent_cons_subset {maxLedger : Nat} {log : List String} :
    recent maxLedger (topic :: log) ⊆ topic :: recent maxLedger log := by
  rw [recent, distinctBy]
  cases hhalf : maxLedger / 2 with
  | zero => simp
  | succ n =>
    rw [take_succ_cons, recent, hhalf]
    refine cons_subset_cons _ fun other hother => ?_
    by_cases hmem : id topic ∈ ((distinctBy id log).take (n + 1)).map id
    · rw [Recent.take_filter_of_mem (Recent.nodup_keys_distinctBy id log) hmem] at hother
      exact mem_of_mem_filter hother
    · have hnot : id topic ∉ ((distinctBy id log).take n).map id := fun hin =>
        hmem (map_subset _ (take_subset_take_left _ (Nat.le_succ n)) hin)
      rw [Recent.take_filter_of_not_mem hnot] at hother
      exact take_subset_take_left _ (Nat.le_succ n) hother

/-- Of a ledger that is cut down the topics that were sent last are kept when all others come before
them by name. -/
theorem recent_kept_iff {ledger : Finset String} {last : List String} {n : Nat} (hn : n ≠ 0)
    (hnodup : last.Nodup) (hlength : last.length = n) (hlast : ∀ topic ∈ last, topic ∈ ledger)
    (hle : n ≤ ledger.card) :
    (∀ topic ∈ last, topic ∈ lastNames n ledger) ↔
      ∀ topic ∈ last, ∀ other ∈ ledger, other ∉ last → other < topic := by
  constructor
  · intro hkept topic htopic other hother hnot
    -- the last names are no more than the topics that were sent last
    have heq : last.toFinset = lastNames n ledger := by
      refine Finset.eq_of_subset_of_card_le (fun t ht => hkept t (mem_toFinset.mp ht)) ?_
      rw [card_lastNames hn hle, toFinset_card_of_nodup hnodup, hlength]
    by_contra hless
    have hne : topic ≠ other := fun h => hnot (h ▸ htopic)
    have hlt : topic < other := lt_of_le_of_ne (not_lt.mp hless) hne
    apply hnot
    rw [← mem_toFinset, heq, mem_lastNames hn]
    refine ⟨hother, lt_of_le_of_lt (Finset.card_le_card ?_)
      ((mem_lastNames hn).mp (hkept topic htopic)).2⟩
    intro greater hgreater
    rw [Finset.mem_filter] at hgreater ⊢
    exact ⟨hgreater.1, hlt.trans hgreater.2⟩
  · intro hfollow topic htopic
    refine (mem_lastNames hn).mpr ⟨hlast topic htopic, ?_⟩
    have hsub : (ledger.filter fun other => topic < other) ⊆ last.toFinset.erase topic := by
      intro greater hgreater
      rw [Finset.mem_filter] at hgreater
      rw [Finset.mem_erase, mem_toFinset]
      refine ⟨ne_of_gt hgreater.2, ?_⟩
      by_contra hnot
      exact lt_asymm hgreater.2 (hfollow topic htopic greater hgreater.1 hnot)
    have hcard := Finset.card_le_card hsub
    rw [Finset.card_erase_of_mem (mem_toFinset.mpr htopic), toFinset_card_of_nodup hnodup,
      hlength] at hcard
    omega

/-- What every run keeps beside the bound: a topic of the ledger was sent. -/
structure Kept (s : Sending) : Prop where
  compares : s.Compares
  logged : ∀ topic ∈ s.reconciler.intentLedger, topic ∈ s.log

theorem Kept.recent_mem (h : s.Kept) (topic : String) :
    ∀ last ∈ recent s.reconciler.maxLedger (topic :: s.log),
      last ∈ insert topic s.reconciler.intentLedger := by
  intro last hlast
  rcases mem_cons.mp (recent_cons_subset hlast) with rfl | hlast
  · exact Finset.mem_insert_self _ _
  · exact Finset.mem_insert_of_mem (h.compares.recent last hlast)

theorem Kept.logged_insert (h : s.Kept) :
    ∀ other ∈ insert topic s.reconciler.intentLedger, other ∈ topic :: s.log := by
  intro other hother
  rcases Finset.mem_insert.mp hother with rfl | hother
  · exact mem_cons_self
  · exact .tail _ (h.logged other hother)

/-- As many topics were sent as the half of a ledger that is too large. -/
theorem Kept.length_recent (h : s.Kept) (hlarge : s.reconciler.maxLedger <
    (insert topic s.reconciler.intentLedger).card) :
    (recent s.reconciler.maxLedger (topic :: s.log)).length = s.reconciler.maxLedger / 2 := by
  have hsent : (insert topic s.reconciler.intentLedger).card ≤
      (distinctBy id (topic :: s.log)).length := by
    rw [Recent.length_distinctBy, map_id]
    exact Finset.card_le_card fun other hother =>
      mem_toFinset.mpr (h.logged_insert other hother)
  rw [recent, length_take]
  omega

theorem Kept.sent_iff (h : s.Kept) (topic : String) :
    (s.step (.sent topic)).Compares ↔ s.NamesFollow (.sent topic) := by
  rw [compares_iff, NamesFollow]
  simp only [step, DeliveryReconciler.sent]
  have hrecent := h.recent_mem topic
  by_cases hlarge : s.reconciler.maxLedger < (insert topic s.reconciler.intentLedger).card
  · rw [if_pos hlarge, imp_iff_right hlarge]
    by_cases hhalf : s.reconciler.maxLedger / 2 = 0
    · -- nothing is cut off
      rw [lastNames, if_pos hhalf]
      exact iff_of_false (fun hkept => absurd hkept.1 (not_le.mpr hlarge))
        fun hfollow => by have hmax := hfollow.1; omega
    · have hle : s.reconciler.maxLedger / 2 ≤ (insert topic s.reconciler.intentLedger).card := by
        omega
      rw [card_lastNames hhalf hle, recent_kept_iff hhalf (nodup_recent _ _)
        (h.length_recent hlarge) hrecent hle]
      exact and_congr (iff_of_true (by omega) (by omega)) Iff.rfl
  · rw [if_neg hlarge]
    exact iff_of_true ⟨not_lt.mp hlarge, hrecent⟩ fun h => absurd h hlarge

theorem Kept.step (h : s.Kept) (call : Call) (hcall : (s.step call).Compares) :
    (s.step call).Kept := by
  refine ⟨hcall, ?_⟩
  cases call with
  | sent topic =>
    intro other hother
    refine h.logged_insert other ?_
    simp only [Sending.step, DeliveryReconciler.sent] at hother
    split at hother
    · rw [lastNames] at hother
      split at hother
      · exact hother
      · exact (Finset.mem_sort _).mp (mem_of_mem_drop (mem_toFinset.mp hother))
    · exact hother
  | tick landed => exact h.logged

theorem kept_start (maxLedger : Nat) : (start maxLedger).Kept := by
  constructor
  · rw [compares_iff]
    exact ⟨Nat.zero_le _, fun topic htopic => by simp [start, recent, distinctBy] at htopic⟩
  · exact fun topic htopic => absurd htopic (Finset.notMem_empty topic)

/-- The ledger is bounded and has the recent topics all along a run exactly when these come after all
others by name whenever it is cut down. -/
theorem compares_iff_namesFollow (maxLedger : Nat) (calls : List Call) :
    Always step Compares (start maxLedger) calls ↔
      Guarded step NamesFollow (start maxLedger) calls := by
  have hagree : ∀ (s : Sending) (call : Call), s.Kept → True →
      ((s.step call).Compares ↔ s.NamesFollow call) := by
    intro s call hs _
    cases call with
    | sent topic => exact hs.sent_iff topic
    | tick landed =>
      refine iff_of_true ?_ trivial
      exact compares_iff.mpr ⟨hs.compares.bounded, hs.compares.recent⟩
  rw [always_iff_guarded, and_iff_right (kept_start maxLedger).compares]
  refine guarded_congr_of hagree (fun s call hs htrue hfollow => ?_) (kept_start maxLedger)
    (guarded_iff.mpr fun _ _ _ _ => trivial)
  exact hs.step call ((hagree s call hs htrue).mpr hfollow)

/-- A name that comes before the others is dropped as soon as it is sent. -/
theorem dropped_topic : ¬Always step Compares (start 4)
    [.sent "z", .sent "y", .sent "x", .sent "w", .sent "a"] := by
  intro h
  have hcut : (final step (start 4) [.sent "z", .sent "y", .sent "x", .sent "w",
      .sent "a"]).reconciler.intentLedger = lastNames 2 {"a", "w", "x", "y", "z"} := by
    simp [start, step, DeliveryReconciler.sent]
  have hkept := h.last.recent "a" (by decide +kernel)
  rw [hcut, mem_lastNames (by decide)] at hkept
  revert hkept
  decide +kernel

end Sending

end Efdi.Control.Delivery

import Efdi.Base.PyDict
import Efdi.Base.Recent
import Efdi.Base.Runs
import Efdi.Base.Utf8
import Mathlib.Data.Finset.Order
import Mathlib.Tactic.Linarith

/-!
# The reflection filter of the ASTERIX relay

`RecentFrames.seen` stops a frame that the routers send back.  Its table of fingerprints is an ordered
dict: the oldest entries stand in front, and an entry that is seen again goes to the end.

It is a bounded table of the most recent requests (`entries_seen`), so a frame is held back exactly
when it came within the last `ttl_s` and fewer than `limit` other frames came since
(`seen_iff_recent`).
-/

namespace Efdi.Asterix

open List PyDict
open Recent (Backwards Tracks)
open Runs (final)

/-- A call of `seen`. -/
structure FrameCall where
  key : String
  frame : List UInt8
  now : Rat

/-- What a frame is told by. -/
def FrameCall.pair (call : FrameCall) : String × List UInt8 := (call.key, call.frame)

/-- The arguments of `RecentFrames`. -/
structure RecentFrames where
  ttlS : Rat
  limit : Nat

section Model

variable {F : Type} [DecidableEq F]

/-- The fingerprint of a frame under a key. -/
def fingerprint (digest : List UInt8 → F) (call : FrameCall) : F :=
  digest (Utf8.encode call.key.toList ++ 0 :: call.frame)

omit [DecidableEq F] in
theorem nodup_of_sublist {entries entries' : List (F × Rat)} (h : entries'.Sublist entries)
    (hnodup : (entries.map Prod.fst).Nodup) : (entries'.map Prod.fst).Nodup :=
  (h.map Prod.fst).nodup hnodup

/-- `popitem(last=False)` while the oldest entry is from before the cutoff. -/
def expire (cutoff : Rat) (items : PyDict F Rat) : PyDict F Rat :=
  ⟨items.entries.dropWhile fun oldest => decide (oldest.2 < cutoff),
    nodup_of_sublist (List.dropWhile_sublist _) items.nodup⟩

/-- `popitem(last=False)` while there are more entries than the limit. -/
def trim (limit : Nat) (items : PyDict F Rat) : PyDict F Rat :=
  ⟨items.entries.drop (items.length - limit),
    nodup_of_sublist (List.drop_sublist _ _) items.nodup⟩

/-- `move_to_end` of a key, and its new value. -/
def moveToEnd (items : PyDict F Rat) (key : F) (value : Rat) : PyDict F Rat :=
  (items.pop key).set key value

/-- `seen`. -/
def RecentFrames.seen (recent : RecentFrames) (digest : List UInt8 → F) (items : PyDict F Rat)
    (call : FrameCall) : PyDict F Rat × Bool :=
  let items := expire (call.now - recent.ttlS) items
  let print := fingerprint digest call
  if items.contains print then (moveToEnd items print call.now, true)
  else (trim recent.limit (items.set print call.now), false)

/-- The table after some calls. -/
def RecentFrames.itemsAfter (recent : RecentFrames) (digest : List UInt8 → F)
    (calls : List FrameCall) : PyDict F Rat :=
  final (fun items call => (recent.seen digest items call).1) PyDict.empty calls

/-! ## The table of the most recent requests -/

/-- A call as a request of its fingerprint. -/
def FrameCall.request (digest : List UInt8 → F) (call : FrameCall) : F × Rat :=
  (fingerprint digest call, call.now)

variable {recent : RecentFrames} {digest : List UInt8 → F} {items : PyDict F Rat} {call : FrameCall}

theorem entries_seen : (recent.seen digest items call).1.entries =
      (Recent.request recent.limit (call.now - recent.ttlS) items.entries
        (call.request digest)).1 ∧
    (recent.seen digest items call).2 =
      (Recent.request recent.limit (call.now - recent.ttlS) items.entries
        (call.request digest)).2 := by
  rw [RecentFrames.seen, Recent.request]
  by_cases hkey : (call.request digest).1 ∈
      (items.entries.dropWhile fun old => decide (old.2 < call.now - recent.ttlS)).map Prod.fst
  · have hcontains : (expire (call.now - recent.ttlS) items).contains (fingerprint digest call) =
        true := PyDict.contains_iff.mpr hkey
    rw [if_pos hcontains, if_pos hkey]
    refine ⟨?_, rfl⟩
    have hfresh : fingerprint digest call ∉
        ((expire (call.now - recent.ttlS) items).pop (fingerprint digest call)).entries.map
          Prod.fst := by
      rw [← PyDict.contains_iff, PyDict.contains, PyDict.get?_pop_self]
      simp
    exact PyDict.entries_set_of_fresh hfresh call.now
  · have hcontains : ¬(expire (call.now - recent.ttlS) items).contains (fingerprint digest call) =
        true := fun h => hkey (PyDict.contains_iff.mp h)
    rw [if_neg hcontains, if_neg hkey]
    refine ⟨?_, rfl⟩
    have hfresh : fingerprint digest call ∉
        (expire (call.now - recent.ttlS) items).entries.map Prod.fst := hkey
    show ((expire (call.now - recent.ttlS) items).set _ call.now).entries.drop _ = _
    rw [PyDict.length, PyDict.entries_set_of_fresh hfresh call.now, List.length_append]
    rfl

/-! ## Runs -/

/-- The calls come at times that do not go back. -/
def InOrder (calls : List FrameCall) : Prop := (calls.map (·.now)).Pairwise (· ≤ ·)

/-- The frames of the calls have fingerprints of their own. -/
def Distinct (digest : List UInt8 → F) (calls : List FrameCall) : Prop :=
  ∀ a ∈ calls, ∀ b ∈ calls, fingerprint digest a = fingerprint digest b → a.pair = b.pair

omit [DecidableEq F] in
theorem Distinct.of_subset {calls calls' : List FrameCall} (h : Distinct digest calls)
    (hsub : calls' ⊆ calls) : Distinct digest calls' :=
  fun a ha b hb => h a (hsub ha) b (hsub hb)

/-- The requests of some calls, the most recent first. -/
def requests (digest : List UInt8 → F) (calls : List FrameCall) : List (F × Rat) :=
  (calls.map (·.request digest)).reverse

omit [DecidableEq F] in
theorem backwards_requests (digest : List UInt8 → F) {calls : List FrameCall} (h : InOrder calls) :
    Backwards (requests digest calls) := by
  rw [InOrder, pairwise_map] at h
  rw [Backwards, requests, pairwise_reverse, pairwise_map]
  exact h

/-- The table after some calls, with the cutoff of the last of them. -/
theorem tracks_itemsAfter (recent : RecentFrames) (digest : List UInt8 → F)
    {calls : List FrameCall} (h : InOrder calls) {cutoff : Rat}
    (hcutoff : ∀ call ∈ calls, call.now - recent.ttlS ≤ cutoff) :
    ∃ last ≤ cutoff, Tracks recent.limit last (recent.itemsAfter digest calls).entries
      (requests digest calls) := by
  induction calls using List.reverseRecOn generalizing cutoff with
  | nil => exact ⟨cutoff, le_rfl, Recent.tracks_nil _ _⟩
  | append_singleton calls call ih =>
    have hback := backwards_requests digest h
    rw [InOrder, map_append, pairwise_append] at h
    have hbefore : ∀ c ∈ calls, c.now - recent.ttlS ≤ call.now - recent.ttlS := fun c hc =>
      sub_le_sub_right (h.2.2 _ (mem_map_of_mem hc) _ (by simp)) _
    obtain ⟨last, hle, htracks⟩ := ih h.1 hbefore
    have hrequests : requests digest (calls ++ [call]) =
        call.request digest :: requests digest calls := by
      simp [requests]
    rw [hrequests] at hback ⊢
    refine ⟨call.now - recent.ttlS, hcutoff call (by simp), ?_⟩
    have hstep := htracks.request hle hback
    rw [RecentFrames.itemsAfter, Runs.final_append]
    show Tracks _ _ (recent.seen digest (recent.itemsAfter digest calls) call).1.entries _
    rw [entries_seen.1]
    exact hstep

/-! ## What is held back -/

/-- The frame came within the last `ttl_s`, and fewer other frames than the limit came since. -/
def RecentFrames.Recent (recent : RecentFrames) (earlier : List FrameCall) (call : FrameCall) :
    Prop :=
  ∃ before same since, earlier = before ++ same :: since ∧ same.pair = call.pair ∧
    call.now - same.now ≤ recent.ttlS ∧
    ((since.map FrameCall.pair).toFinset.erase call.pair).card < recent.limit

omit [DecidableEq F] in
/-- A request with what was requested since is a call with the calls since. -/
theorem mem_requests_iff {calls : List FrameCall} {k : F} (P : Rat → List F → Prop) :
    (∃ newer t older, requests digest calls = newer ++ (k, t) :: older ∧
        P t (newer.map Prod.fst).reverse) ↔
      ∃ before same since, calls = before ++ same :: since ∧ fingerprint digest same = k ∧
        P same.now (since.map (fingerprint digest)) := by
  constructor
  · rintro ⟨newer, t, older, hsplit, hP⟩
    have hcalls : calls.map (·.request digest) = older.reverse ++ (k, t) :: newer.reverse := by
      have hreversed := congrArg List.reverse hsplit
      rwa [requests, reverse_reverse, reverse_append, reverse_cons, append_assoc,
        singleton_append] at hreversed
    obtain ⟨before, rest, rfl, -, hrest⟩ := map_eq_append_iff.mp hcalls
    obtain ⟨same, since, rfl, hsame, hsince⟩ := map_eq_cons_iff.mp hrest
    refine ⟨before, same, since, rfl, congrArg Prod.fst hsame, ?_⟩
    have ht : same.now = t := congrArg Prod.snd hsame
    rw [← map_reverse, ← hsince, map_map] at hP
    rw [ht]
    exact hP
  · rintro ⟨before, same, since, rfl, rfl, hP⟩
    refine ⟨(since.map (·.request digest)).reverse, same.now,
      (before.map (·.request digest)).reverse, by simp [requests, FrameCall.request], ?_⟩
    rw [map_reverse, reverse_reverse, map_map]
    exact hP

/-- Frames with fingerprints of their own are as many as their fingerprints. -/
theorem card_fingerprints {since : List FrameCall} {call : FrameCall}
    (h : Distinct digest (call :: since)) :
    ((since.map (fingerprint digest)).toFinset.erase (fingerprint digest call)).card =
      ((since.map FrameCall.pair).toFinset.erase call.pair).card := by
  have himage : (since.map (fingerprint digest)).toFinset.erase (fingerprint digest call) =
      ((since.map FrameCall.pair).toFinset.erase call.pair).image
        fun pair => fingerprint digest ⟨pair.1, pair.2, 0⟩ := by
    ext print
    rw [Finset.mem_erase, mem_toFinset, mem_map, Finset.mem_image]
    constructor
    · rintro ⟨hne, other, hother, rfl⟩
      refine ⟨other.pair, ?_, rfl⟩
      rw [Finset.mem_erase, mem_toFinset]
      refine ⟨fun hpair => hne ?_, mem_map_of_mem hother⟩
      exact congrArg (fun pair : String × List UInt8 => fingerprint digest ⟨pair.1, pair.2, 0⟩) hpair
    · rintro ⟨pair, hpair, rfl⟩
      rw [Finset.mem_erase, mem_toFinset, mem_map] at hpair
      obtain ⟨hne, other, hother, rfl⟩ := hpair
      refine ⟨fun hprint => hne ?_, other, hother, rfl⟩
      exact h other (.tail _ hother) call mem_cons_self hprint
  rw [himage, Finset.card_image_of_injOn]
  intro a ha b hb hprint
  simp only [Finset.coe_erase, coe_toFinset, Set.mem_sdiff, Set.mem_ofPred_eq,
    mem_map] at ha hb
  obtain ⟨⟨one, hone, rfl⟩, -⟩ := ha
  obtain ⟨⟨other, hother, rfl⟩, -⟩ := hb
  exact h one (.tail _ hone) other (.tail _ hother) hprint

theorem InOrder.front {earlier later : List FrameCall} (h : InOrder (earlier ++ later)) :
    InOrder earlier :=
  h.sublist ((sublist_append_left earlier later).map _)

theorem sorted_bounded_itemsAfter (recent : RecentFrames) (digest : List UInt8 → F)
    {calls : List FrameCall} (h : InOrder calls) :
    ((recent.itemsAfter digest calls).entries.map Prod.snd).Pairwise (· ≤ ·) ∧
      (recent.itemsAfter digest calls).length ≤ recent.limit := by
  -- any cutoff that bounds those of the calls serves here
  obtain ⟨cutoff, hcutoff⟩ : ∃ cutoff : Rat, ∀ call ∈ calls, call.now - recent.ttlS ≤ cutoff := by
    obtain ⟨cutoff, hcutoff⟩ :=
      (calls.map fun call => call.now - recent.ttlS).toFinset.exists_le
    exact ⟨cutoff, fun call hcall => hcutoff _ (mem_toFinset.mpr (mem_map_of_mem hcall))⟩
  obtain ⟨last, -, htracks⟩ := tracks_itemsAfter recent digest h hcutoff
  exact ⟨pairwise_map.mpr htracks.sorted, htracks.bounded⟩

/-- A frame is held back exactly when it came recently. -/
theorem seen_eq_true_iff (recent : RecentFrames) {earlier : List FrameCall} {call : FrameCall}
    (horder : InOrder (earlier ++ [call])) (hdistinct : Distinct digest (earlier ++ [call])) :
    (recent.seen digest (recent.itemsAfter digest earlier) call).2 = true ↔
      recent.Recent earlier call := by
  have hcutoff : ∀ c ∈ earlier, c.now - recent.ttlS ≤ call.now - recent.ttlS := by
    intro c hc
    rw [InOrder, map_append, pairwise_append] at horder
    exact sub_le_sub_right (horder.2.2 _ (mem_map_of_mem hc) _ (by simp)) _
  obtain ⟨last, hle, htracks⟩ := tracks_itemsAfter recent digest horder.front hcutoff
  have hback := backwards_requests digest horder.front
  rw [entries_seen.2, Recent.request_found_iff htracks.sorted, htracks.mem_keys_iff hback hle]
  have hrequested := @mem_requests_iff _ digest earlier (fingerprint digest call)
    fun t prints => call.now - recent.ttlS ≤ t ∧
      (prints.toFinset.erase (fingerprint digest call)).card < recent.limit
  simp only [toFinset_reverse] at hrequested
  have hsince : ∀ before same since, earlier = before ++ same :: since →
      Distinct digest (call :: since) := by
    rintro before same since rfl
    refine hdistinct.of_subset fun c hc => ?_
    rcases mem_cons.mp hc with rfl | hc
    · simp
    · simp [hc]
  refine hrequested.trans ⟨?_, ?_⟩
  · rintro ⟨before, same, since, rfl, hprint, htime, hfew⟩
    refine ⟨before, same, since, rfl, hdistinct _ (by simp) _ (by simp) hprint,
      by linarith, ?_⟩
    rwa [← card_fingerprints (hsince _ _ _ rfl)]
  · rintro ⟨before, same, since, rfl, hpair, htime, hfew⟩
    refine ⟨before, same, since, rfl, congrArg (fun pair : String × List UInt8 =>
      fingerprint digest ⟨pair.1, pair.2, 0⟩) hpair, by linarith, ?_⟩
    rwa [card_fingerprints (hsince _ _ _ rfl)]

/-- The table stays sorted by time and bounded, and a frame is held back exactly when it came
recently. -/
theorem seen_iff_recent (recent : RecentFrames) (digest : List UInt8 → F) (calls : List FrameCall)
    (horder : InOrder calls) (hdistinct : Distinct digest calls) :
    (∀ earlier later, calls = earlier ++ later →
      ((recent.itemsAfter digest earlier).entries.map Prod.snd).Pairwise (· ≤ ·) ∧
        (recent.itemsAfter digest earlier).length ≤ recent.limit) ∧
    ∀ earlier call later, calls = earlier ++ call :: later →
      ((recent.seen digest (recent.itemsAfter digest earlier) call).2 = true ↔
        recent.Recent earlier call) := by
  constructor
  · rintro earlier later rfl
    exact sorted_bounded_itemsAfter recent digest horder.front
  · rintro earlier call later rfl
    rw [← List.singleton_append, ← List.append_assoc] at horder hdistinct
    exact seen_eq_true_iff recent horder.front
      (hdistinct.of_subset (List.subset_append_left _ _))

end Model

/-- A frame, another one, and the first one again as the routers send it back. -/
def sentBackCalls : List FrameCall :=
  [⟨"efdi/a", [48, 0, 3], 0⟩, ⟨"efdi/a", [62, 0, 3], 1⟩, ⟨"efdi/a", [48, 0, 3], 1⟩]

theorem sentBackCalls_held :
    (RecentFrames.seen ⟨2, 2⟩ id (RecentFrames.itemsAfter ⟨2, 2⟩ id (sentBackCalls.take 2))
      ⟨"efdi/a", [48, 0, 3], 1⟩).2 = true :=
  ((seen_iff_recent ⟨2, 2⟩ id sentBackCalls (by
    rw [InOrder]
    decide +kernel) (by
    intro a ha b hb
    revert a b
    decide +kernel)).2
      (sentBackCalls.take 2) ⟨"efdi/a", [48, 0, 3], 1⟩ [] rfl).mpr
    ⟨[], _, _, rfl, rfl, by decide +kernel, by decide +kernel⟩

end Efdi.Asterix

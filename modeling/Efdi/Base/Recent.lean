import Mathlib.Data.Finset.Card

/-!
# The most recent elements

`distinctBy` keeps the first element of each key of a list, so of a list with the most recent
element in front it keeps the most recent one of each key.

A bounded table of the most recent elements whose times are not past a cutoff is a front of that
list (`Tracks`).  A request takes its key to the front of the table, and drops the last element when
there are too many (`Tracks.step`).  Its key was there exactly when it was last requested since the
cutoff and fewer other keys than the bound were requested since (`Tracks.mem_keys_iff`).
-/

namespace Recent

open List Prod

variable {α κ : Type*} [DecidableEq κ]

/-! ## One element for each key -/

/-- The first element of each key. -/
def distinctBy (key : α → κ) : List α → List α
  | [] => []
  | a :: as => a :: (distinctBy key as).filter fun b => decide (key b ≠ key a)

section

variable {key : α → κ} {as bs : List α} {a : α}

theorem distinctBy_sublist (key : α → κ) (as : List α) : (distinctBy key as).Sublist as := by
  induction as with
  | nil => exact .slnil
  | cons a as ih => exact .cons_cons a (filter_sublist.trans ih)

theorem mem_keys_distinctBy {k : κ} : k ∈ (distinctBy key as).map key ↔ k ∈ as.map key := by
  induction as with
  | nil => rfl
  | cons a as ih =>
    rw [distinctBy, map_cons, map_cons, mem_cons, mem_cons, ← ih]
    by_cases hk : k = key a
    · simp [hk]
    · simp only [hk, false_or, mem_map, mem_filter, decide_eq_true_eq]
      constructor
      · rintro ⟨b, ⟨hb, -⟩, rfl⟩
        exact ⟨b, hb, rfl⟩
      · rintro ⟨b, hb, rfl⟩
        exact ⟨b, ⟨hb, hk⟩, rfl⟩

theorem nodup_keys_distinctBy (key : α → κ) (as : List α) : ((distinctBy key as).map key).Nodup := by
  induction as with
  | nil => exact nodup_nil
  | cons a as ih =>
    rw [distinctBy, map_cons, nodup_cons]
    constructor
    · simp
    · exact (List.Sublist.map key filter_sublist).nodup ih

theorem length_distinctBy (key : α → κ) (as : List α) :
    (distinctBy key as).length = (as.map key).toFinset.card := by
  have hkeys : (as.map key).toFinset = ((distinctBy key as).map key).toFinset := by
    ext k
    rw [mem_toFinset, mem_toFinset, mem_keys_distinctBy]
  rw [hkeys, toFinset_card_of_nodup (nodup_keys_distinctBy key as), length_map]

theorem distinctBy_append (as bs : List α) : distinctBy key (as ++ bs) =
    distinctBy key as ++ (distinctBy key bs).filter fun b => decide (key b ∉ as.map key) := by
  induction as with
  | nil => simp [distinctBy]
  | cons a as ih =>
    rw [cons_append, distinctBy, ih, distinctBy, filter_append, filter_filter,
      cons_append]
    congr 2
    refine filter_congr fun b _ => ?_
    simp

end

/-! ## Fronts of a list without a key -/

section

variable {key : α → κ} {k : κ}

theorem take_filter_of_not_mem {as : List α} {n : Nat} (h : k ∉ (as.take n).map key) :
    (as.filter fun a => decide (key a ≠ k)).take n = as.take n := by
  induction as generalizing n with
  | nil => rfl
  | cons a as ih =>
    cases n with
    | zero => rfl
    | succ n =>
      rw [take_succ_cons, map_cons, mem_cons, not_or] at h
      rw [filter_cons_of_pos (by simpa using Ne.symm h.1), take_succ_cons,
        take_succ_cons, ih h.2]

theorem take_filter_of_mem {as : List α} {n : Nat} (hnodup : (as.map key).Nodup)
    (h : k ∈ (as.take (n + 1)).map key) :
    (as.filter fun a => decide (key a ≠ k)).take n =
      (as.take (n + 1)).filter fun a => decide (key a ≠ k) := by
  induction as generalizing n with
  | nil => cases h
  | cons a as ih =>
    rw [map_cons, nodup_cons] at hnodup
    rw [take_succ_cons]
    by_cases hk : key a = k
    · have hrest : ∀ b ∈ as, decide (key b ≠ k) = true := by
        intro b hb
        rw [decide_eq_true_eq, ← hk]
        exact fun heq => hnodup.1 (heq ▸ mem_map_of_mem hb)
      rw [filter_cons_of_neg (by simpa using hk), filter_cons_of_neg (by simpa using hk),
        filter_eq_self.mpr hrest,
        filter_eq_self.mpr fun b hb => hrest b (mem_of_mem_take hb)]
    · rw [filter_cons_of_pos (by simpa using hk), filter_cons_of_pos (by simpa using hk)]
      rw [take_succ_cons, map_cons, mem_cons] at h
      have hmem := h.resolve_left (Ne.symm hk)
      cases n with
      | zero => cases hmem
      | succ n => rw [take_succ_cons, ih hnodup.2 hmem]

end

/-! ## Elements with times -/

variable {T : Type*} [LinearOrder T]

/-- The elements that are not past a cutoff. -/
def live (cutoff : T) (es : List (κ × T)) : List (κ × T) :=
  es.filter fun e => decide (cutoff ≤ e.2)

/-- The times of a list with the most recent element in front. -/
def Backwards (es : List (κ × T)) : Prop := es.Pairwise fun a b => b.2 ≤ a.2

section

variable {cutoff : T} {es : List (κ × T)}

omit [DecidableEq κ] in
theorem live_of_past {now : T} (hpast : now < cutoff) (h : ∀ e ∈ es, e.2 ≤ now) :
    live cutoff es = [] := by
  rw [live, filter_eq_nil_iff]
  intro e he
  rw [decide_eq_true_eq, not_le]
  exact lt_of_le_of_lt (h e he) hpast

omit [DecidableEq κ] in
theorem Backwards.live_take (h : Backwards es) (n : Nat) :
    live cutoff (es.take n) = (live cutoff es).take n := by
  induction es generalizing n with
  | nil => simp [live]
  | cons e es ih =>
    rw [Backwards, pairwise_cons] at h
    cases n with
    | zero => rfl
    | succ n =>
      rw [take_succ_cons]
      by_cases hlive : cutoff ≤ e.2
      · rw [live, live, filter_cons_of_pos (by simpa using hlive),
          filter_cons_of_pos (by simpa using hlive), take_succ_cons]
        exact congrArg (e :: ·) (ih h.2 n)
      · -- what comes later in the list is older
        have hpast := not_le.mp hlive
        rw [live_of_past hpast, live_of_past hpast, take_nil]
        · intro b hb
          rcases mem_cons.mp hb with rfl | hb
          · exact le_rfl
          · exact h.1 b hb
        · intro b hb
          rcases mem_cons.mp hb with rfl | hb
          · exact le_rfl
          · exact h.1 b (mem_of_mem_take hb)

omit [DecidableEq κ] in
theorem live_live {cutoff' : T} (hle : cutoff ≤ cutoff') :
    live cutoff' (live cutoff es) = live cutoff' es := by
  rw [live, live, live, filter_filter]
  refine filter_congr fun e _ => ?_
  rw [← Bool.decide_and, decide_eq_decide]
  exact ⟨fun h => h.1, fun h => ⟨h, hle.trans h⟩⟩

omit [DecidableEq κ] in
/-- What is past a cutoff stands in front of a list with the oldest element in front. -/
theorem dropWhile_eq_live (h : es.Pairwise fun a b => a.2 ≤ b.2) :
    es.dropWhile (fun e => decide (e.2 < cutoff)) = live cutoff es := by
  induction es with
  | nil => rfl
  | cons e es ih =>
    rw [pairwise_cons] at h
    by_cases hpast : e.2 < cutoff
    · rw [dropWhile_cons_of_pos (by simpa using hpast), ih h.2, live, live,
        filter_cons_of_neg (by simpa using hpast)]
    · rw [dropWhile_cons_of_neg (by simpa using hpast)]
      symm
      rw [live, filter_eq_self]
      intro b hb
      rw [decide_eq_true_eq]
      rcases mem_cons.mp hb with rfl | hb
      · exact not_lt.mp hpast
      · exact (not_lt.mp hpast).trans (h.1 b hb)

omit [DecidableEq κ] in
theorem live_filter (p : κ × T → Bool) :
    live cutoff (es.filter p) = (live cutoff es).filter p := by
  rw [live, live, filter_filter, filter_filter]
  exact filter_congr fun e _ => Bool.and_comm _ _

end

/-! ## A bounded table -/

/-- A request: what is past the cutoff is dropped, the key goes to the end of the table, and what is
too many is dropped from the front.  It says whether the key was there. -/
def request (limit : Nat) (cutoff : T) (table : List (κ × T)) (e : κ × T) : List (κ × T) × Bool :=
  let kept := table.dropWhile fun old => decide (old.2 < cutoff)
  if e.1 ∈ kept.map Prod.fst then
    (kept.filter (fun old => decide (old.1 ≠ e.1)) ++ [e], true)
  else ((kept ++ [e]).drop (kept.length + 1 - limit), false)

theorem request_found_iff {limit : Nat} {cutoff : T} {table : List (κ × T)} {e : κ × T}
    (h : table.Pairwise fun a b => a.2 ≤ b.2) :
    (request limit cutoff table e).2 = true ↔ e.1 ∈ (live cutoff table).map Prod.fst := by
  rw [request, dropWhile_eq_live h]
  by_cases hkey : e.1 ∈ (live cutoff table).map fst
  · rw [if_pos hkey]
    exact iff_of_true rfl hkey
  · rw [if_neg hkey]
    exact iff_of_false Bool.false_ne_true hkey

/-- A table after requests, the most recent first, and a cutoff. -/
structure Tracks (limit : Nat) (cutoff : T) (table requests : List (κ × T)) : Prop where
  sorted : table.Pairwise fun a b => a.2 ≤ b.2
  bounded : table.length ≤ limit
  mem : ∀ e ∈ table, e ∈ requests
  front : (live cutoff table).reverse =
    (live cutoff (distinctBy Prod.fst requests)).take limit

section

variable {limit : Nat} {cutoff cutoff' : T} {table requests : List (κ × T)} {e : κ × T}

theorem Backwards.distinctBy (h : Backwards requests) :
    Backwards (distinctBy Prod.fst requests) :=
  h.sublist (distinctBy_sublist _ _)

theorem Tracks.later (h : Tracks limit cutoff table requests) (hback : Backwards requests)
    (hle : cutoff ≤ cutoff') : (live cutoff' table).reverse =
      (live cutoff' (Recent.distinctBy Prod.fst requests)).take limit := by
  have hlive : Backwards (live cutoff (Recent.distinctBy fst requests)) :=
    hback.distinctBy.sublist filter_sublist
  rw [← live_live hle, live, ← filter_reverse, h.front]
  show live cutoff' _ = _
  rw [hlive.live_take, live_live hle]

theorem tracks_nil (limit : Nat) (cutoff : T) : Tracks limit cutoff ([] : List (κ × T)) [] where
  sorted := .nil
  bounded := Nat.zero_le _
  mem := fun _ h => by cases h
  front := by simp [live, Recent.distinctBy]

theorem live_distinctBy_cons (hlive : cutoff ≤ e.2) :
    live cutoff (Recent.distinctBy Prod.fst (e :: requests)) =
      e :: (live cutoff (Recent.distinctBy Prod.fst requests)).filter
        fun old => decide (old.1 ≠ e.1) := by
  rw [Recent.distinctBy, ← live_filter, live, filter_cons_of_pos (by simpa using hlive)]
  rfl

/-! ### What is left of a table with a request at its end -/

section

variable {moved : List (κ × T)}

omit [DecidableEq κ] in
theorem sorted_of_moved (hsorted : table.Pairwise fun a b => a.2 ≤ b.2)
    (hnewest : ∀ old ∈ table, old.2 ≤ e.2)
    (hsub : moved.Sublist (live cutoff' table ++ [e])) : moved.Pairwise fun a b => a.2 ≤ b.2 := by
  refine List.Pairwise.sublist hsub (pairwise_append.mpr
    ⟨hsorted.sublist filter_sublist, pairwise_singleton _ _, fun old hold new hnew => ?_⟩)
  rw [mem_singleton.mp hnew]
  exact hnewest old (mem_of_mem_filter hold)

omit [DecidableEq κ] in
theorem mem_of_moved (hmem : ∀ old ∈ table, old ∈ requests)
    (hsub : moved.Sublist (live cutoff' table ++ [e])) : ∀ old ∈ moved, old ∈ e :: requests := by
  intro old hold
  rcases mem_append.mp (hsub.subset hold) with hold | hold
  · exact .tail _ (hmem old (mem_of_mem_filter hold))
  · rw [mem_singleton.mp hold]
    exact mem_cons_self

omit [DecidableEq κ] in
theorem live_of_moved (hlive : cutoff' ≤ e.2)
    (hsub : moved.Sublist (live cutoff' table ++ [e])) : live cutoff' moved = moved := by
  rw [live, filter_eq_self]
  intro old hold
  rcases mem_append.mp (hsub.subset hold) with hold | hold
  · exact (mem_filter.mp hold).2
  · rw [mem_singleton.mp hold]
    exact decide_eq_true hlive

end

/-- A key that is there is taken to the end. -/
theorem Tracks.refresh (h : Tracks limit cutoff table requests) (hle : cutoff ≤ cutoff')
    (hback : Backwards (e :: requests)) (hkey : e.1 ∈ (live cutoff' table).map Prod.fst) :
    Tracks limit cutoff' ((live cutoff' table).filter (fun old => decide (old.1 ≠ e.1)) ++ [e])
      (e :: requests) := by
  rw [Backwards, pairwise_cons] at hback
  obtain ⟨hnewest, hback⟩ := hback
  have hfront := h.later hback hle
  have htable : ∀ old ∈ table, old.2 ≤ e.2 := fun old hold => hnewest old (h.mem old hold)
  obtain ⟨found, hfound, hsame⟩ := mem_map.mp hkey
  have hlive : cutoff' ≤ e.2 :=
    (by simpa using (mem_filter.mp hfound).2 : cutoff' ≤ found.2).trans
      (htable found (mem_filter.mp hfound).1)
  have hsub : ((live cutoff' table).filter (fun old => decide (old.1 ≠ e.1)) ++ [e]).Sublist
      (live cutoff' table ++ [e]) := filter_sublist.append_right [e]
  constructor
  case sorted => exact sorted_of_moved h.sorted htable hsub
  case bounded =>
    have hless : ((live cutoff' table).filter fun old => decide (old.1 ≠ e.1)).length <
        (live cutoff' table).length :=
      length_filter_lt_length_iff_exists.mpr ⟨found, hfound, by simp [hsame]⟩
    have hlength : (live cutoff' table).length ≤ table.length := length_filter_le _ _
    rw [length_append, length_singleton]
    have hbounded := h.bounded
    omega
  case mem => exact mem_of_moved h.mem hsub
  case front =>
    rw [live_of_moved hlive hsub, live_distinctBy_cons hlive, reverse_append,
      reverse_singleton, singleton_append, ← filter_reverse, hfront]
    have hkeys : e.1 ∈ ((live cutoff' (Recent.distinctBy fst requests)).take limit).map
        fst := by
      rw [← hfront, map_reverse, mem_reverse]
      exact hkey
    cases limit with
    | zero => cases hkeys
    | succ n =>
      have hnodup : ((live cutoff' (Recent.distinctBy fst requests)).map fst).Nodup :=
        (List.Sublist.map fst filter_sublist).nodup (nodup_keys_distinctBy _ _)
      rw [take_succ_cons, take_filter_of_mem hnodup hkeys]

/-- A key that is not there is added, and the oldest ones make room for it. -/
theorem Tracks.add (h : Tracks limit cutoff table requests) (hle : cutoff ≤ cutoff')
    (hback : Backwards (e :: requests)) (hkey : e.1 ∉ (live cutoff' table).map Prod.fst) :
    Tracks limit cutoff'
      ((live cutoff' table ++ [e]).drop ((live cutoff' table).length + 1 - limit))
      (e :: requests) := by
  rw [Backwards, pairwise_cons] at hback
  obtain ⟨hnewest, hback⟩ := hback
  have hfront := h.later hback hle
  have htable : ∀ old ∈ table, old.2 ≤ e.2 := fun old hold => hnewest old (h.mem old hold)
  have hsub := drop_sublist ((live cutoff' table).length + 1 - limit)
    (live cutoff' table ++ [e])
  have hmem := mem_of_moved h.mem hsub
  constructor
  case sorted => exact sorted_of_moved h.sorted htable hsub
  case bounded =>
    rw [length_drop, length_append, length_singleton]
    omega
  case mem => exact hmem
  case front =>
    by_cases hlive : cutoff' ≤ e.2
    · have hlength : (live cutoff' table ++ [e]).length = (live cutoff' table).length + 1 := by
        rw [length_append, length_singleton]
      rw [live_of_moved hlive hsub, live_distinctBy_cons hlive, ← hlength, ← take_reverse,
        reverse_append, reverse_singleton, singleton_append, hfront]
      cases limit with
      | zero => rfl
      | succ n =>
        have hnot : e.1 ∉ ((live cutoff' (Recent.distinctBy fst requests)).take n).map
            fst := by
          intro hin
          apply hkey
          rw [← mem_reverse, ← map_reverse, hfront]
          exact map_subset _ (take_subset_take_left _ (Nat.le_succ n)) hin
        rw [take_succ_cons, take_succ_cons, take_filter_of_not_mem hnot,
          take_take, Nat.min_eq_left (Nat.le_succ n)]
    · -- the time of the request itself is past the cutoff
      have hpast := not_le.mp hlive
      have hold : ∀ old ∈ e :: requests, old.2 ≤ e.2 := forall_mem_cons.mpr ⟨le_rfl, hnewest⟩
      rw [live_of_past hpast fun old hin => hold old (hmem old hin),
        live_of_past hpast fun old hin => hold old ((distinctBy_sublist _ _).subset hin),
        take_nil, reverse_nil]

theorem Tracks.request (h : Tracks limit cutoff table requests) (hle : cutoff ≤ cutoff')
    (hback : Backwards (e :: requests)) :
    Tracks limit cutoff' (request limit cutoff' table e).1 (e :: requests) := by
  rw [Recent.request, dropWhile_eq_live h.sorted]
  by_cases hkey : e.1 ∈ (live cutoff' table).map fst
  · rw [if_pos hkey]
    exact h.refresh hle hback hkey
  · rw [if_neg hkey]
    exact h.add hle hback hkey

/-! ### The keys of a table -/

/-- The last request of a key stands behind one element of each other key that was requested since. -/
theorem mem_keys_take_iff {k : κ} {t : T} {newer older : List (κ × T)}
    (hback : Backwards (newer ++ (k, t) :: older)) (hfirst : k ∉ newer.map Prod.fst) :
    k ∈ ((live cutoff (Recent.distinctBy Prod.fst (newer ++ (k, t) :: older))).take limit).map
        Prod.fst ↔
      cutoff ≤ t ∧ (newer.map Prod.fst).toFinset.card < limit := by
  have hnodup := nodup_keys_distinctBy fst (newer ++ (k, t) :: older)
  rw [distinctBy_append, Recent.distinctBy,
    filter_cons_of_pos (by simpa using hfirst)] at hnodup ⊢
  generalize ((Recent.distinctBy fst older).filter fun b =>
    decide (b.1 ≠ (k, t).1)).filter (fun b => decide (b.1 ∉ newer.map fst)) = rest at hnodup ⊢
  have hnewer : k ∉ (Recent.distinctBy fst newer).map fst :=
    fun hmem => hfirst (mem_keys_distinctBy.mp hmem)
  rw [map_append, map_cons, nodup_append, nodup_cons] at hnodup
  obtain ⟨-, ⟨hrest, -⟩, -⟩ := hnodup
  rw [live, filter_append]
  by_cases ht : cutoff ≤ t
  · have hall : (Recent.distinctBy fst newer).filter (fun e => decide (cutoff ≤ e.2)) =
        Recent.distinctBy fst newer := by
      rw [filter_eq_self]
      intro e he
      have hle : t ≤ e.2 := (pairwise_append.mp hback).2.2 e
        ((distinctBy_sublist _ _).subset he) (k, t) mem_cons_self
      exact decide_eq_true (ht.trans hle)
    rw [hall, filter_cons_of_pos (by simpa using ht), take_append, map_append,
      mem_append, length_distinctBy]
    constructor
    · rintro (hmem | hmem)
      · exact absurd (map_subset _ (take_subset _ _) hmem) hnewer
      · refine ⟨ht, Nat.lt_of_not_le fun hle => ?_⟩
        rw [Nat.sub_eq_zero_of_le hle] at hmem
        cases hmem
    · rintro ⟨-, hless⟩
      right
      obtain ⟨n, hn⟩ := Nat.exists_eq_succ_of_ne_zero (Nat.sub_ne_zero_of_lt hless)
      rw [hn, take_succ_cons]
      exact mem_cons_self
  · rw [filter_cons_of_neg (by simpa using ht)]
    constructor
    · intro hmem
      obtain ⟨e, he, rfl⟩ := mem_map.mp hmem
      rcases mem_append.mp (mem_of_mem_take he) with hmem | hmem
      · exact absurd (mem_map_of_mem (mem_filter.mp hmem).1) hnewer
      · exact absurd (mem_map_of_mem (mem_filter.mp hmem).1) hrest
    · exact fun h => absurd h.1 ht

omit [LinearOrder T] in
/-- A key that was requested has a last request. -/
theorem exists_last {k : κ} {requests : List (κ × T)} (h : k ∈ requests.map Prod.fst) :
    ∃ newer t older, requests = newer ++ (k, t) :: older ∧ k ∉ newer.map Prod.fst := by
  induction requests with
  | nil => cases h
  | cons e requests ih =>
    by_cases hk : e.1 = k
    · exact ⟨[], e.2, requests, by rw [← hk]; rfl, not_mem_nil⟩
    · rw [map_cons, mem_cons] at h
      obtain ⟨newer, t, older, heq, hfirst⟩ := ih (h.resolve_left (Ne.symm hk))
      refine ⟨e :: newer, t, older, by rw [heq]; rfl, ?_⟩
      rw [map_cons, mem_cons, not_or]
      exact ⟨Ne.symm hk, hfirst⟩

omit [LinearOrder T] [DecidableEq κ] in
/-- What stands in front of an element of a list stands in front of its last element. -/
theorem sublist_of_concat_eq {newer front back : List (κ × T)} {last e : κ × T}
    (h : newer ++ [last] = front ++ e :: back) : front.Sublist newer := by
  rcases eq_nil_or_concat back with rfl | ⟨back', other, rfl⟩
  · have hsplit := append_inj_left' h rfl
    exact hsplit ▸ List.Sublist.refl _
  · rw [concat_eq_append, ← cons_append, ← append_assoc] at h
    have hsplit := append_inj_left' h rfl
    rw [hsplit]
    exact sublist_append_left _ _

/-- A key is there exactly when it was requested since the cutoff, and fewer other keys than the
bound since then. -/
theorem Tracks.mem_keys_iff (h : Tracks limit cutoff table requests) (hback : Backwards requests)
    (hle : cutoff ≤ cutoff') (k : κ) :
    k ∈ (live cutoff' table).map Prod.fst ↔
      ∃ newer t older, requests = newer ++ (k, t) :: older ∧ cutoff' ≤ t ∧
        ((newer.map Prod.fst).toFinset.erase k).card < limit := by
  rw [← mem_reverse, ← map_reverse, h.later hback hle]
  constructor
  · intro hmem
    have hrequested : k ∈ requests.map fst :=
      mem_keys_distinctBy.mp (map_subset _
        (fun e he => mem_of_mem_filter (mem_of_mem_take he)) hmem)
    obtain ⟨newer, t, older, rfl, hfirst⟩ := exists_last hrequested
    obtain ⟨ht, hless⟩ := (mem_keys_take_iff hback hfirst).mp hmem
    exact ⟨newer, t, older, rfl, ht, lt_of_le_of_lt (Finset.card_erase_le) hless⟩
  · rintro ⟨newer, t, older, rfl, ht, hless⟩
    -- the last request of the key is not before the one at hand
    obtain ⟨front, last, back, heq, hfirst⟩ := @exists_last _ _ _ k (newer ++ [(k, t)]) (by simp)
    have hwhole : newer ++ (k, t) :: older = front ++ (k, last) :: (back ++ older) := by
      rw [← singleton_append, ← append_assoc, heq]
      simp
    have hmem : (k, t) ∈ (k, last) :: back := by
      have hin : (k, t) ∈ front ++ (k, last) :: back := heq ▸ by simp
      exact (mem_append.mp hin).resolve_left fun hin => hfirst (mem_map_of_mem hin)
    rw [hwhole] at hback ⊢
    refine (mem_keys_take_iff hback hfirst).mpr ⟨?_, lt_of_le_of_lt (Finset.card_le_card ?_) hless⟩
    · rcases mem_cons.mp hmem with hsame | hin
      · cases hsame
        exact ht
      · have hpair := (pairwise_append.mp hback).2.1
        exact ht.trans ((pairwise_cons.mp hpair).1 (k, t) (mem_append_left _ hin))
    · intro other hother
      rw [mem_toFinset] at hother
      rw [Finset.mem_erase, mem_toFinset]
      refine ⟨fun hk => hfirst (hk ▸ hother), ?_⟩
      exact map_subset _ (sublist_of_concat_eq heq).subset hother

end

end Recent

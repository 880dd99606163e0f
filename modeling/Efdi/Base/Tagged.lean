import Efdi.Base.Framing
import Efdi.Base.Search

/-!
# Frames between two tags

A frame begins at an opening tag and ends behind the first closing tag after it.  A reader that
finds no opening tag keeps the last elements of its buffer, enough for a tag that is not complete
(`Tags.steady`).

Elements that occur in no tag may be replaced by others before the frames are cut or afterwards
(`frames_expand`), and an element lies in a frame when an opening tag stands before it that no
closing tag follows, and a closing tag stands after it (`forall_frames_iff`).
-/

open Framing

/-- An opening tag, a closing tag, and how much a reader keeps that finds no opening tag. -/
structure Tags (κ : Type*) where
  opening : List κ
  closing : List κ
  keep : Nat
  closing_ne : closing ≠ []
  opening_le : opening.length ≤ keep

namespace Tags

open List

variable {α κ : Type*} [DecidableEq κ] (T : Tags κ) (key : α → κ)

/-- What a buffer holds first. -/
def look (buffer : List α) : Look α (List α) :=
  match Search.find? T.opening (buffer.map key) with
  | none => .wait (buffer.drop (buffer.length - T.keep))
  | some start =>
    let opened := buffer.drop start
    match Search.find? T.closing (opened.map key) with
    | none => .wait opened
    | some stop =>
      .frame (opened.take (stop + T.closing.length)) (opened.drop (stop + T.closing.length))

/-- The cases of a look. -/
inductive Sight (buffer : List α) : Look α (List α) → Prop where
  | junk (hopening : Search.find? T.opening (buffer.map key) = none) :
      Sight buffer (.wait (buffer.drop (buffer.length - T.keep)))
  | opened {start : Nat} (hopening : Search.find? T.opening (buffer.map key) = some start)
      (hclosing : Search.find? T.closing ((buffer.drop start).map key) = none) :
      Sight buffer (.wait (buffer.drop start))
  | frame {start stop : Nat} (hopening : Search.find? T.opening (buffer.map key) = some start)
      (hclosing : Search.find? T.closing ((buffer.drop start).map key) = some stop) :
      Sight buffer (.frame ((buffer.drop start).take (stop + T.closing.length))
        ((buffer.drop start).drop (stop + T.closing.length)))

variable {T key} {buffer : List α}

theorem sight (T : Tags κ) (key : α → κ) (buffer : List α) :
    Sight T key buffer (T.look key buffer) := by
  rw [look]
  cases hopening : Search.find? T.opening (buffer.map key) with
  | none => exact .junk hopening
  | some start =>
    cases hclosing : Search.find? T.closing ((buffer.drop start).map key) with
    | none =>
      simp only [hclosing]
      exact .opened hopening hclosing
    | some stop =>
      simp only [hclosing]
      exact .frame hopening hclosing

theorem Sight.look {l : Look α (List α)} (h : Sight T key buffer l) : T.look key buffer = l := by
  cases h with
  | junk hopening => rw [Tags.look, hopening]
  | opened hopening hclosing =>
    rw [Tags.look, hopening]
    simp only [hclosing]
  | frame hopening hclosing =>
    rw [Tags.look, hopening]
    simp only [hclosing]

omit [DecidableEq κ] in
theorem closing_pos (T : Tags κ) : 0 < T.closing.length := length_pos_iff.mpr T.closing_ne

/-- A closing tag that is found lies in the buffer. -/
theorem closing_le {opened : List α} {stop : Nat}
    (h : Search.find? T.closing (opened.map key) = some stop) :
    stop + T.closing.length ≤ opened.length := by
  have hwindow := Search.le_of_prefix_drop (Search.find?_eq_some_iff.mp h).2.1
  have hpos := T.closing_pos
  rw [length_map] at hwindow
  omega

theorem look_shrinks {rest : List α} (h : (T.look key buffer).next? = some rest) :
    rest.length < buffer.length := by
  have hsight := sight T key buffer
  generalize T.look key buffer = l at hsight h
  cases hsight with
  | junk hopening => cases h
  | opened hopening hclosing => cases h
  | @frame start stop hopening hclosing =>
    cases h
    have hle := closing_le hclosing
    have hpos := T.closing_pos
    rw [length_drop] at hle
    rw [length_drop, length_drop]
    omega

/-- Cutting frames off. -/
def scanner (T : Tags κ) (key : α → κ) : Scanner α (List α) where
  look := T.look key
  shrinks := look_shrinks

theorem frames_junk (hopening : Search.find? T.opening (buffer.map key) = none) :
    (T.scanner key).frames buffer = [] :=
  Scanner.frames_wait (Sight.junk hopening).look

theorem frames_opened {start : Nat}
    (hopening : Search.find? T.opening (buffer.map key) = some start)
    (hclosing : Search.find? T.closing ((buffer.drop start).map key) = none) :
    (T.scanner key).frames buffer = [] :=
  Scanner.frames_wait (Sight.opened hopening hclosing).look

theorem frames_frame {start stop : Nat}
    (hopening : Search.find? T.opening (buffer.map key) = some start)
    (hclosing : Search.find? T.closing ((buffer.drop start).map key) = some stop) :
    (T.scanner key).frames buffer =
      (buffer.drop start).take (stop + T.closing.length) ::
        (T.scanner key).frames ((buffer.drop start).drop (stop + T.closing.length)) :=
  Scanner.frames_frame (Sight.frame hopening hclosing).look

theorem rest_length_lt {start stop : Nat}
    (hopening : Search.find? T.opening (buffer.map key) = some start)
    (hclosing : Search.find? T.closing ((buffer.drop start).map key) = some stop) :
    ((buffer.drop start).drop (stop + T.closing.length)).length < buffer.length :=
  (T.scanner key).shrinks (by
    rw [show (T.scanner key).look buffer = _ from (Sight.frame hopening hclosing).look]
    rfl)

/-! ## What arrives later -/

/-- An element at which no opening tag begins is skipped. -/
theorem frames_skip {x : α} {xs : List α} (h : ¬ T.opening <+: (x :: xs).map key) :
    (T.scanner key).frames (x :: xs) = (T.scanner key).frames xs := by
  have hcons : Search.find? T.opening ((x :: xs).map key) =
      (Search.find? T.opening (xs.map key)).map (· + 1) := Search.find?_cons_of_not h
  cases hopening : Search.find? T.opening (xs.map key) with
  | none =>
    rw [hopening] at hcons
    rw [frames_junk hopening, frames_junk hcons]
  | some start =>
    rw [hopening] at hcons
    cases hclosing : Search.find? T.closing ((xs.drop start).map key) with
    | none => rw [frames_opened hopening hclosing, frames_opened hcons hclosing]
    | some stop =>
      rw [frames_frame hopening hclosing, frames_frame hcons hclosing]
      rfl

/-- Elements at which no opening tag begins are skipped. -/
theorem frames_skips : ∀ {n : Nat} {xs : List α},
    (∀ j < n, ¬ T.opening <+: (xs.map key).drop j) →
      (T.scanner key).frames xs = (T.scanner key).frames (xs.drop n)
  | 0, _, _ => rfl
  | n + 1, [], _ => rfl
  | n + 1, x :: xs, h => by
    rw [frames_skip (h 0 (Nat.succ_pos n)), drop_succ_cons]
    exact frames_skips fun j hj => h (j + 1) (Nat.succ_lt_succ hj)

/-- The reader is steady. -/
theorem steady (T : Tags κ) (key : α → κ) : (T.scanner key).Steady where
  drop := by
    intro buffer rest hlook more
    have hsight := sight T key buffer
    rw [show T.look key buffer = .drop rest from hlook] at hsight
    cases hsight
  frame := by
    intro buffer rest value hlook more
    have hsight := sight T key buffer
    rw [show T.look key buffer = .frame value rest from hlook] at hsight
    cases hsight with
    | @frame start stop hopening hclosing =>
      have hle := closing_le hclosing
      have hstart : start ≤ buffer.length := by
        have hstart := (Search.find?_eq_some_iff.mp hopening).1
        rwa [length_map] at hstart
      have hdrop : (buffer ++ more).drop start = buffer.drop start ++ more :=
        drop_append_of_le_length hstart
      have hopening' : Search.find? T.opening ((buffer ++ more).map key) = some start := by
        rw [map_append]
        exact Search.find?_append hopening _
      have hclosing' : Search.find? T.closing (((buffer ++ more).drop start).map key) =
          some stop := by
        rw [hdrop, map_append]
        exact Search.find?_append hclosing _
      rw [← drop_append_of_le_length hle,
        ← @take_append_of_le_length _ (buffer.drop start) more _ hle, ← hdrop]
      exact (Sight.frame hopening' hclosing').look
  wait := by
    intro buffer rest hlook more
    have hsight := sight T key buffer
    rw [show T.look key buffer = .wait rest from hlook] at hsight
    cases hsight with
    | junk hopening =>
      -- an opening tag that begins before what is kept would lie in the buffer
      rw [← drop_append_of_le_length (Nat.sub_le _ _)]
      refine (frames_skips fun j hj => ?_).symm
      rw [map_append]
      refine Search.not_prefix_drop_append hopening ?_
      have hkeep := T.opening_le
      rw [length_map]
      omega
    | @opened start hopening hclosing =>
      have hstart := (Search.find?_eq_some_iff.mp hopening).1
      rw [length_map] at hstart
      have hopening' := Search.find?_append hopening (more.map key)
      rw [← map_append] at hopening'
      rw [← drop_append_of_le_length hstart]
      exact (frames_skips (Search.find?_eq_some_iff.mp hopening').2.2).symm

/-! ## Replacing elements that occur in no tag -/

/-- An element of a tag. -/
def InTag (T : Tags κ) (k : κ) : Prop := k ∈ T.opening ∨ k ∈ T.closing

/-- Every element is replaced by its key, or by elements that occur in no tag when its key occurs
in none. -/
def Expands (T : Tags κ) (key : α → κ) (expand : α → List κ) : Prop :=
  ∀ x, expand x = [key x] ∨ ¬ T.InTag (key x) ∧ expand x ≠ [] ∧ ∀ k ∈ expand x, ¬ T.InTag k

variable {expand : α → List κ} {tag : List κ}

omit [DecidableEq κ] in
/-- A tag is seen in the replaced elements where it is seen in the keys. -/
theorem prefix_expand (h : T.Expands key expand) :
    ∀ {tag : List κ} {xs : List α}, (∀ k ∈ tag, T.InTag k) →
      (tag <+: xs.flatMap expand ↔ tag <+: xs.map key)
  | [], _, _ => iff_of_true List.nil_prefix List.nil_prefix
  | k :: tag, [], _ => Iff.rfl
  | k :: tag, x :: xs, htag => by
    have hk : T.InTag k := htag k mem_cons_self
    rw [flatMap_cons, map_cons]
    rcases h x with hx | ⟨hkey, hne, hx⟩
    · rw [hx, singleton_append, cons_prefix_cons, cons_prefix_cons,
        prefix_expand h fun k hk => htag k (.tail _ hk)]
    · obtain ⟨f, fs, hfs⟩ := exists_cons_of_ne_nil hne
      rw [hfs, cons_append, cons_prefix_cons, cons_prefix_cons]
      refine iff_of_false (fun hf => ?_) (fun hf => hkey (hf.1 ▸ hk))
      exact hx f (by rw [hfs]; exact .head _) (hf.1 ▸ hk)

/-- A tag is not found in elements that occur in none. -/
theorem find?_foreign_append {k : κ} {tag : List κ} : ∀ {fs : List κ} (ks : List κ), k ∉ fs →
    Search.find? (k :: tag) (fs ++ ks) = (Search.find? (k :: tag) ks).map (fs.length + ·)
  | [], ks, _ => by simp
  | f :: fs, ks, hk => by
    have hf : ¬ k :: tag <+: f :: (fs ++ ks) := fun hpre =>
      hk ((cons_prefix_cons.mp hpre).1 ▸ .head _)
    rw [cons_append, Search.find?_cons_of_not hf,
      find?_foreign_append ks (fun hmem => hk (.tail _ hmem)), Option.map_map]
    congr 1
    funext i
    rw [length_cons, Function.comp_apply]
    omega

/-- A tag is found in the replaced elements where it is found in the keys. -/
theorem find?_expand (h : T.Expands key expand) (hne : tag ≠ []) (htag : ∀ k ∈ tag, T.InTag k) :
    ∀ xs : List α, Search.find? tag (xs.flatMap expand) =
      (Search.find? tag (xs.map key)).map fun i => ((xs.take i).flatMap expand).length
  | [] => by
    rw [List.flatMap_nil, List.map_nil, Search.find?, if_neg hne]
    rfl
  | x :: xs => by
    have hpre := @prefix_expand _ _ T key expand h tag (x :: xs) htag
    by_cases hx : tag <+: (x :: xs).map key
    · rw [Search.find?_of_prefix hx, Search.find?_of_prefix (hpre.mpr hx)]
      rfl
    · have hskip : Search.find? tag ((x :: xs).flatMap expand) =
          (Search.find? tag (xs.flatMap expand)).map ((expand x).length + ·) := by
        rcases h x with hone | ⟨-, -, hforeign⟩
        · rw [flatMap_cons, hone, singleton_append] at hpre ⊢
          rw [Search.find?_cons_of_not (mt hpre.mp hx)]
          simp only [length_singleton, Nat.add_comm]
        · obtain ⟨k, tag, rfl⟩ := exists_cons_of_ne_nil hne
          exact find?_foreign_append _ fun hk => hforeign k hk (htag k mem_cons_self)
      have hcons : Search.find? tag ((x :: xs).map key) =
          (Search.find? tag (xs.map key)).map (· + 1) := Search.find?_cons_of_not hx
      rw [hskip, hcons, find?_expand h hne htag xs, Option.map_map, Option.map_map]
      congr 1
      funext i
      simp only [Function.comp_apply, take_succ_cons, flatMap_cons, length_append]

omit [DecidableEq κ] in
/-- A tag is its own replacement. -/
theorem expand_tag (h : T.Expands key expand) : ∀ {tag : List κ} {xs : List α},
    (∀ k ∈ tag, T.InTag k) → tag <+: xs.map key →
      (xs.take tag.length).flatMap expand = tag
  | [], _, _, _ => rfl
  | k :: tag, [], _, hpre => absurd hpre (by simp)
  | k :: tag, x :: xs, htag, hpre => by
    obtain ⟨rfl, hrest⟩ := cons_prefix_cons.mp hpre
    rw [length_cons, take_succ_cons, flatMap_cons,
      expand_tag h (fun k hk => htag k (mem_cons_of_mem _ hk)) hrest]
    rcases h x with hone | ⟨hkey, -, -⟩
    · rw [hone, singleton_append]
    · exact absurd (htag _ mem_cons_self) hkey

omit [DecidableEq κ] in
theorem expand_take_drop (xs : List α) (n : Nat) :
    xs.flatMap expand = (xs.take n).flatMap expand ++ (xs.drop n).flatMap expand := by
  rw [← flatMap_append, take_append_drop]

/-- The frames of the replaced elements are the replaced frames. -/
theorem frames_expand (h : T.Expands key expand) (hopen : T.opening ≠ []) (xs : List α) :
    (T.scanner id).frames (xs.flatMap expand) =
      ((T.scanner key).frames xs).map (List.flatMap expand) := by
  have hstart := find?_expand h hopen (fun k hk => Or.inl hk) xs
  cases hopening : Search.find? T.opening (xs.map key) with
  | none =>
    rw [hopening, ← map_id (xs.flatMap expand)] at hstart
    rw [frames_junk hopening, frames_junk hstart]
    rfl
  | some start =>
    rw [hopening, ← map_id (xs.flatMap expand)] at hstart
    have hdrop : (xs.flatMap expand).drop ((xs.take start).flatMap expand).length =
        (xs.drop start).flatMap expand := by
      rw [expand_take_drop xs start, drop_left]
    have hstop := find?_expand h T.closing_ne (fun k hk => Or.inr hk) (xs.drop start)
    rw [← hdrop] at hstop
    cases hclosing : Search.find? T.closing ((xs.drop start).map key) with
    | none =>
      rw [hclosing, ← map_id (drop _ (xs.flatMap expand))] at hstop
      rw [frames_opened hopening hclosing, frames_opened hstart hstop]
      rfl
    | some stop =>
      rw [hclosing, ← map_id (drop _ (xs.flatMap expand))] at hstop
      rw [frames_frame hopening hclosing, frames_frame hstart hstop, hdrop, map_cons]
      -- the closing tag is replaced by itself
      have hend : (((xs.drop start).take stop).flatMap expand).length + T.closing.length =
          (((xs.drop start).take (stop + T.closing.length)).flatMap expand).length := by
        have htag := (Search.find?_eq_some_iff.mp hclosing).2.1
        rw [← map_drop] at htag
        rw [take_add, flatMap_append, length_append,
          expand_tag h (fun k hk => Or.inr hk) htag]
      have hless := rest_length_lt hopening hclosing
      rw [hend, expand_take_drop (xs.drop start) (stop + T.closing.length), take_left,
        drop_left, frames_expand h hopen]
termination_by xs.length
decreasing_by exact hless

/-! ## What lies in a frame -/

/-- An opening tag stands before that no closing tag follows, and a closing tag stands after. -/
def Inside (T : Tags κ) (before after : List κ) : Prop :=
  ∃ front rest, before = front ++ (T.opening ++ rest) ∧ ¬ T.closing <:+: rest ∧
    T.closing <:+: after

/-- `Inside`, by places: `j` is where the opening tag stands. -/
def InsideFrom (T : Tags κ) (ks : List κ) (i j : Nat) : Prop :=
  j + T.opening.length ≤ i ∧ T.opening <+: ks.drop j ∧
    (∀ e, j + T.opening.length ≤ e → e + T.closing.length ≤ i → ¬ T.closing <+: ks.drop e) ∧
    ∃ e, i < e ∧ T.closing <+: ks.drop e

omit [DecidableEq κ] in
theorem inside_iff {before after : List κ} {k : κ} :
    T.Inside before after ↔ ∃ j, T.InsideFrom (before ++ k :: after) before.length j := by
  constructor
  · rintro ⟨front, rest, rfl, hrest, u, v, hafter⟩
    refine ⟨front.length, ?_, ?_, fun e hle hfit hpre => hrest ?_, ?_⟩
    · rw [length_append, length_append]
      omega
    · rw [append_assoc, drop_left, append_assoc]
      exact prefix_append _ _
    · have hsplit := (Search.prefix_drop_append hfit).mp hpre
      rw [← append_assoc, drop_append, drop_eq_nil_of_le, nil_append] at hsplit
      · exact hsplit.isInfix.trans (drop_suffix _ _).isInfix
      · rw [length_append]
        exact hle
    · refine ⟨(front ++ (T.opening ++ rest)).length + (u.length + 1), by omega, ?_⟩
      rw [drop_append, drop_eq_nil_of_le (Nat.le_add_right _ _), nil_append,
        Nat.add_sub_cancel_left, drop_succ_cons, ← hafter, append_assoc, drop_left]
      exact prefix_append _ _
  · rintro ⟨j, hfit, hpre, hnone, e, he, hclosing⟩
    obtain ⟨rest, hrest⟩ := (Search.prefix_drop_append hfit).mp hpre
    have hbefore : before = before.take j ++ (T.opening ++ rest) := by
      rw [hrest, take_append_drop]
    refine ⟨before.take j, rest, hbefore, ?_, ?_⟩
    · rintro ⟨u, v, rfl⟩
      have hlength := congrArg length hrest
      rw [length_drop] at hlength
      simp only [length_append] at hlength
      refine hnone (j + T.opening.length + u.length) (Nat.le_add_right _ _) (by omega) ?_
      refine (Search.prefix_drop_append (by omega)).mpr ?_
      rw [Nat.add_assoc, ← drop_drop, ← hrest, ← drop_drop, drop_left,
        append_assoc, drop_left]
      exact prefix_append _ _
    · rw [drop_append, drop_eq_nil_of_le (by omega), nil_append,
        show e - before.length = (e - before.length - 1) + 1 by omega,
        drop_succ_cons] at hclosing
      exact hclosing.isInfix.trans (drop_suffix _ _).isInfix

/-- Both tags begin with an element that occurs nowhere else in them, and none begins with the
other. -/
structure Apart (T : Tags κ) : Prop where
  heads : ∃ k os cs, T.opening = k :: os ∧ T.closing = k :: cs ∧ k ∉ os ∧ k ∉ cs
  opening : ¬ T.opening <+: T.closing
  closing : ¬ T.closing <+: T.opening

omit [DecidableEq κ] in
/-- A tag that begins with `k` ends before the next `k`. -/
theorem le_of_heads {k : κ} {ts us ks : List κ} {a b : Nat} (hts : k ∉ ts)
    (ha : k :: ts <+: ks.drop a) (hb : k :: us <+: ks.drop b) (hlt : a < b) :
    a + (k :: ts).length ≤ b := by
  refine Nat.le_of_not_lt fun hover => hts ?_
  rw [length_cons] at hover
  have hdrop : ts.drop (b - a - 1) <+: ks.drop b := by
    have hdrop := ha.drop (b - a)
    rwa [drop_drop, show a + (b - a) = b by omega,
      show b - a = (b - a - 1) + 1 by omega, drop_succ_cons] at hdrop
  cases hrest : ts.drop (b - a - 1) with
  | nil =>
    rw [drop_eq_nil_iff] at hrest
    omega
  | cons x rest =>
    have hx : x ∈ ts := mem_of_mem_drop (hrest ▸ mem_cons_self)
    rw [hrest] at hdrop
    cases hks : ks.drop b with
    | nil =>
      rw [hks] at hb
      exact absurd hb (by simp)
    | cons y ys =>
      rw [hks, cons_prefix_cons] at hb hdrop
      rw [hb.1, ← hdrop.1]
      exact hx

omit [DecidableEq κ] in
/-- Tags do not overlap. -/
theorem Apart.le_or_le (h : T.Apart) {ks : List κ} {a b : Nat} (ha : T.opening <+: ks.drop a)
    (hb : T.closing <+: ks.drop b) :
    a + T.opening.length ≤ b ∨ b + T.closing.length ≤ a := by
  obtain ⟨k, os, cs, hopening, hclosing, hos, hcs⟩ := h.heads
  rcases Nat.lt_trichotomy a b with hlt | heq | hgt
  · rw [hopening] at ha ⊢
    rw [hclosing] at hb
    exact Or.inl (le_of_heads hos ha hb hlt)
  · rw [heq] at ha
    rcases prefix_or_prefix_of_prefix ha hb with hpre | hpre
    · exact absurd hpre h.opening
    · exact absurd hpre h.closing
  · rw [hclosing] at hb ⊢
    rw [hopening] at ha
    exact Or.inr (le_of_heads hcs hb ha hgt)

omit [DecidableEq κ] in
theorem insideFrom_drop {ks : List κ} {b i j : Nat} :
    T.InsideFrom (ks.drop b) i j ↔ T.InsideFrom ks (b + i) (b + j) := by
  constructor
  · rintro ⟨hfit, hpre, hnone, e, he, hstop⟩
    rw [drop_drop] at hpre hstop
    refine ⟨by omega, hpre, fun e hle hfits => ?_, b + e, by omega, hstop⟩
    have hnot := hnone (e - b) (by omega) (by omega)
    rwa [drop_drop, show b + (e - b) = e by omega] at hnot
  · rintro ⟨hfit, hpre, hnone, e, he, hstop⟩
    refine ⟨by omega, ?_, fun e hle hfits => ?_, e - b, by omega, ?_⟩
    · rwa [drop_drop]
    · rw [drop_drop]
      exact hnone (b + e) (by omega) (by omega)
    · rwa [drop_drop, show b + (e - b) = e by omega]

omit [DecidableEq κ] in
/-- An element that lies in no tag, at the place where it stands. -/
theorem not_prefix_of_not_inTag {tag ks : List κ} {e i : Nat} {k : κ} (htag : ∀ t ∈ tag, T.InTag t)
    (hk : ¬ T.InTag k) (hi : ks[i]? = some k) (hle : e ≤ i) (hlt : i < e + tag.length) :
    ¬ tag <+: ks.drop e := by
  rintro ⟨rest, hrest⟩
  have hget : (ks.drop e)[i - e]? = some k := by
    rw [getElem?_drop, show e + (i - e) = i by omega]
    exact hi
  rw [← hrest, getElem?_append_left (by omega)] at hget
  exact hk (htag k (mem_of_getElem? hget))

section

variable {xs : List α} {start stop i j : Nat}
  (hopening : Search.find? T.opening (xs.map key) = some start)
  (hclosing : Search.find? T.closing ((xs.drop start).map key) = some stop)

include hopening in
theorem InsideFrom.start_le (h : T.InsideFrom (xs.map key) i j) : start ≤ j :=
  Nat.le_of_not_lt fun hlt => (Search.find?_eq_some_iff.mp hopening).2.2 j hlt h.2.1

include hclosing in
theorem closing_prefix : T.closing <+: (xs.map key).drop (start + stop) ∧
    ∀ e, start ≤ e → e < start + stop → ¬ T.closing <+: (xs.map key).drop e := by
  obtain ⟨-, hstop, hlast⟩ := Search.find?_eq_some_iff.mp hclosing
  rw [map_drop] at hstop hlast
  refine ⟨by rwa [← drop_drop], fun e hle hlt => ?_⟩
  have hnot := hlast (e - start) (by omega)
  rwa [drop_drop, show start + (e - start) = e by omega] at hnot

include hopening hclosing in
/-- What lies in the first frame and in no tag lies between its tags. -/
theorem insideFrom_start {x : α} (hx : xs[i]? = some x) (htag : ¬ T.InTag (key x))
    (hle : start ≤ i) (hlt : i < start + (stop + T.closing.length)) :
    T.InsideFrom (xs.map key) i start := by
  have hget : (xs.map key)[i]? = some (key x) := by
    rw [getElem?_map, hx]
    rfl
  obtain ⟨hstop, hlast⟩ := closing_prefix hclosing
  have hpre := (Search.find?_eq_some_iff.mp hopening).2.1
  have hafter : start + T.opening.length ≤ i := Nat.le_of_not_lt fun hshort =>
    not_prefix_of_not_inTag (fun t ht => Or.inl ht) htag hget hle hshort hpre
  have hbefore : i < start + stop := Nat.lt_of_not_le fun hlong =>
    not_prefix_of_not_inTag (fun t ht => Or.inr ht) htag hget hlong (by omega) hstop
  exact ⟨hafter, hpre, fun e he hfits => hlast e (by omega) (by omega), _, hbefore, hstop⟩

include hclosing in
/-- What lies behind the first frame is opened behind it. -/
theorem InsideFrom.rest_le (hapart : T.Apart) (h : T.InsideFrom (xs.map key) i j)
    (hle : start + (stop + T.closing.length) ≤ i) : start + (stop + T.closing.length) ≤ j := by
  obtain ⟨hfit, hj, hnone, -⟩ := h
  obtain ⟨hstop, -⟩ := closing_prefix hclosing
  rcases hapart.le_or_le hj hstop with hover | hover
  · exact absurd hstop (hnone _ hover (by omega))
  · omega

end

/-- What holds of the elements of the frames holds of the elements that lie in a frame. -/
theorem forall_frames_iff (h : T.Apart) {P : α → Prop} (xs : List α)
    (hP : ∀ x ∈ xs, T.InTag (key x) → P x) :
    (∀ frame ∈ (T.scanner key).frames xs, ∀ x ∈ frame, P x) ↔
      ∀ i x, xs[i]? = some x → ∀ j, T.InsideFrom (xs.map key) i j → P x := by
  cases hopening : Search.find? T.opening (xs.map key) with
  | none =>
    rw [frames_junk hopening]
    refine iff_of_true (fun frame hframe => by cases hframe) ?_
    rintro i x hx j ⟨hfit, hpre, -⟩
    refine absurd hpre (Search.find?_eq_none_iff.mp hopening j ?_)
    obtain ⟨hi, -⟩ := List.getElem?_eq_some_iff.mp hx
    rw [List.length_map]
    omega
  | some start =>
    cases hclosing : Search.find? T.closing ((xs.drop start).map key) with
    | none =>
      rw [frames_opened hopening hclosing]
      refine iff_of_true (fun frame hframe => by cases hframe) fun i x hx j hinside => ?_
      have hstart := hinside.start_le hopening
      obtain ⟨hfit, -, -, e, he, hstop⟩ := hinside
      have hnone := Search.find?_eq_none_iff.mp hclosing (e - start)
      rw [List.map_drop, List.drop_drop, show start + (e - start) = e by omega] at hnone
      refine absurd hstop (hnone ?_)
      have hwindow := Search.le_of_prefix_drop hstop
      have hpos := T.closing_pos
      rw [List.length_map] at hwindow
      rw [List.length_drop, List.length_map]
      omega
    | some stop =>
      have hless := rest_length_lt hopening hclosing
      rw [frames_frame hopening hclosing, List.forall_mem_cons,
        forall_frames_iff h ((xs.drop start).drop (stop + T.closing.length))
          fun x hx => hP x (List.mem_of_mem_drop (List.mem_of_mem_drop hx)),
        List.drop_drop, List.map_drop]
      constructor
      · rintro ⟨hframe, hrest⟩ i x hx j hinside
        have hstart := hinside.start_le hopening
        have hfit := hinside.1
        by_cases hi : i < start + (stop + T.closing.length)
        · refine hframe x (List.mem_of_getElem? (i := i - start) ?_)
          rw [List.getElem?_take_of_lt (by omega), List.getElem?_drop,
            show start + (i - start) = i by omega]
          exact hx
        · have hj := hinside.rest_le hclosing h (Nat.le_of_not_lt hi)
          refine hrest (i - (start + (stop + T.closing.length))) x ?_
            (j - (start + (stop + T.closing.length))) ?_
          · rw [List.getElem?_drop, Nat.add_sub_cancel' (Nat.le_of_not_lt hi)]
            exact hx
          · rw [insideFrom_drop, Nat.add_sub_cancel' (Nat.le_of_not_lt hi),
              Nat.add_sub_cancel' hj]
            exact hinside
      · intro hall
        refine ⟨fun x hx => ?_, fun i x hx j hinside => ?_⟩
        · obtain ⟨i, hi⟩ := List.mem_iff_getElem?.mp hx
          have hlt : i < stop + T.closing.length := by
            refine Nat.lt_of_not_le fun hle => ?_
            rw [List.getElem?_take_eq_none hle] at hi
            cases hi
          rw [List.getElem?_take_of_lt hlt, List.getElem?_drop] at hi
          by_cases htag : T.InTag (key x)
          · exact hP x (List.mem_of_getElem? hi) htag
          · exact hall _ x hi start (insideFrom_start hopening hclosing hi htag
              (Nat.le_add_right _ _) (by omega))
        · rw [List.getElem?_drop] at hx
          exact hall _ x hx _ (insideFrom_drop.mp hinside)
termination_by xs.length
decreasing_by exact hless

end Tags

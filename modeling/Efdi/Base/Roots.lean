import Efdi.Base.Tagged

/-!
# Documents with one of several roots

A document begins at the first opening tag of any root and ends behind the first closing tag of
that root after it.

A whole document that follows whole documents is cut off as it is, however much of the stream has
arrived (`drain_wholes`), and nothing but whole documents is cut off (`whole_of_mem_drain`).
-/

open Framing

/-- The tags of some roots, and how much a reader keeps that finds no opening tag. -/
structure Roots (κ : Type*) where
  tags : List (Tags κ)
  keep : Nat
  /-- What every opening tag begins with. -/
  mark : κ
  headed : ∀ T ∈ tags, ∃ rest, T.opening = mark :: rest ∧ mark ∉ rest
  opening_le : ∀ T ∈ tags, T.opening.length ≤ T.closing.length
  keep_le : ∀ T ∈ tags, T.keep ≤ keep
  apart : ∀ T ∈ tags, ∀ T' ∈ tags, T.opening <+: T'.opening → T = T'

/-- The text is one document of the root. -/
def Tags.Whole {κ : Type*} [DecidableEq κ] (T : Tags κ) (text : List κ) : Prop :=
  T.opening <+: text ∧ ∃ stop, Search.find? T.closing text = some stop ∧
    stop + T.closing.length = text.length

namespace Roots

open List

variable {κ : Type*} {α : Type*}

/-- The first of the least positions. -/
def earliest : List (Nat × α) → Option (Nat × α)
  | [] => none
  | x :: xs =>
    match earliest xs with
    | none => some x
    | some y => if y.1 < x.1 then some y else some x

theorem earliest_cases (x : Nat × α) (xs : List (Nat × α)) :
    earliest (x :: xs) = some x ∧ (∀ y, earliest xs = some y → x.1 ≤ y.1) ∨
      ∃ y, earliest xs = some y ∧ y.1 < x.1 ∧ earliest (x :: xs) = some y := by
  rw [earliest]
  cases hrest : earliest xs with
  | none => exact Or.inl ⟨rfl, fun y hy => by cases hy⟩
  | some y =>
    by_cases hless : y.1 < x.1
    · exact Or.inr ⟨y, rfl, hless, if_pos hless⟩
    · refine Or.inl ⟨if_neg hless, fun z hz => ?_⟩
      cases hz
      exact Nat.le_of_not_lt hless

theorem earliest_mem : ∀ {xs : List (Nat × α)} {y : Nat × α}, earliest xs = some y → y ∈ xs
  | x :: xs, y, h => by
    rcases earliest_cases x xs with ⟨hx, -⟩ | ⟨z, hz, -, hx⟩
    · rw [hx] at h
      cases h
      exact mem_cons_self
    · rw [hx] at h
      cases h
      exact .tail _ (earliest_mem hz)

theorem earliest_le : ∀ {xs : List (Nat × α)} {y z : Nat × α}, earliest xs = some y → z ∈ xs →
    y.1 ≤ z.1
  | x :: xs, y, z, h, hz => by
    rcases earliest_cases x xs with ⟨hx, hle⟩ | ⟨w, hw, hless, hx⟩
    · rw [hx] at h
      cases h
      rcases mem_cons.mp hz with rfl | hz
      · exact Nat.le_refl _
      cases hrest : earliest xs with
      | none =>
        cases xs with
        | nil => cases hz
        | cons x' xs =>
          rcases earliest_cases x' xs with ⟨hx', -⟩ | ⟨w, -, -, hx'⟩ <;>
            rw [hx'] at hrest <;> cases hrest
      | some w => exact Nat.le_trans (hle w hrest) (earliest_le hrest hz)
    · rw [hx] at h
      cases h
      rcases mem_cons.mp hz with rfl | hz
      · exact Nat.le_of_lt hless
      · exact earliest_le hw hz

theorem earliest_eq_none {xs : List (Nat × α)} : earliest xs = none ↔ xs = [] := by
  cases xs with
  | nil => exact iff_of_true rfl rfl
  | cons x xs =>
    refine iff_of_false (fun h => ?_) (cons_ne_nil _ _)
    rcases earliest_cases x xs with ⟨hx, -⟩ | ⟨y, -, -, hx⟩ <;> rw [hx] at h <;> cases h

variable [DecidableEq κ] (R : Roots κ)

/-- Where the opening tags first occur. -/
def starts (text : List κ) : List (Nat × Tags κ) :=
  R.tags.filterMap fun T => (Search.find? T.opening text).map (·, T)

/-- What a buffer holds first. -/
def look (text : List κ) : Look κ (List κ) :=
  match earliest (R.starts text) with
  | none => .wait (text.drop (text.length - R.keep))
  | some (start, T) =>
    let opened := text.drop start
    match Search.find? T.closing opened with
    | none => .wait opened
    | some stop =>
      .frame (opened.take (stop + T.closing.length)) (opened.drop (stop + T.closing.length))

/-- The text is one document. -/
def Whole (text : List κ) : Prop := ∃ T ∈ R.tags, T.Whole text

variable {R} {text : List κ} {T : Tags κ}

theorem mem_starts {start : Nat} :
    (start, T) ∈ R.starts text ↔ T ∈ R.tags ∧ Search.find? T.opening text = some start := by
  rw [starts, mem_filterMap]
  constructor
  · rintro ⟨T', hT', hmap⟩
    obtain ⟨start', hstart, heq⟩ := Option.map_eq_some_iff.mp hmap
    cases heq
    exact ⟨hT', hstart⟩
  · rintro ⟨hT, hstart⟩
    exact ⟨T, hT, by rw [hstart]; rfl⟩

/-- The cases of a look. -/
inductive Sight (R : Roots κ) (text : List κ) : Look κ (List κ) → Prop where
  | junk (hstarts : R.starts text = []) : Sight R text (.wait (text.drop (text.length - R.keep)))
  | opened {start : Nat} {T : Tags κ} (hstarts : earliest (R.starts text) = some (start, T))
      (hclosing : Search.find? T.closing (text.drop start) = none) :
      Sight R text (.wait (text.drop start))
  | frame {start stop : Nat} {T : Tags κ}
      (hstarts : earliest (R.starts text) = some (start, T))
      (hclosing : Search.find? T.closing (text.drop start) = some stop) :
      Sight R text (.frame ((text.drop start).take (stop + T.closing.length))
        ((text.drop start).drop (stop + T.closing.length)))

theorem sight (R : Roots κ) (text : List κ) : Sight R text (R.look text) := by
  rw [look]
  cases hstarts : earliest (R.starts text) with
  | none => exact .junk (earliest_eq_none.mp hstarts)
  | some found =>
    obtain ⟨start, T⟩ := found
    cases hclosing : Search.find? T.closing (text.drop start) with
    | none =>
      simp only [hclosing]
      exact .opened hstarts hclosing
    | some stop =>
      simp only [hclosing]
      exact .frame hstarts hclosing

theorem Sight.look {l : Look κ (List κ)} (h : Sight R text l) : R.look text = l := by
  cases h with
  | junk hstarts => rw [Roots.look, hstarts, earliest]
  | opened hstarts hclosing =>
    rw [Roots.look, hstarts]
    simp only [hclosing]
  | frame hstarts hclosing =>
    rw [Roots.look, hstarts]
    simp only [hclosing]

/-- A closing tag that is found lies in the text. -/
theorem closing_le {stop : Nat} (h : Search.find? T.closing text = some stop) :
    stop + T.closing.length ≤ text.length := by
  have hwindow := Search.le_of_prefix_drop (Search.find?_eq_some_iff.mp h).2.1
  have hpos := T.closing_pos
  omega

theorem look_shrinks {rest : List κ} (h : (R.look text).next? = some rest) :
    rest.length < text.length := by
  have hsight := sight R text
  generalize R.look text = l at hsight h
  cases hsight with
  | junk hstarts => cases h
  | opened hstarts hclosing => cases h
  | @frame start stop T hstarts hclosing =>
    cases h
    have hle := closing_le hclosing
    have hpos := T.closing_pos
    rw [length_drop] at hle
    rw [length_drop, length_drop]
    omega

/-- Cutting documents off. -/
def scanner (R : Roots κ) : Scanner κ (List κ) where
  look := R.look
  shrinks := look_shrinks

theorem drain_wait {l rest : List κ} (h : Sight R l (.wait rest)) :
    R.scanner.drain l = ([], rest) := Scanner.drain_wait h.look

theorem drain_frame {l value rest : List κ} (h : Sight R l (.frame value rest)) :
    R.scanner.drain l = (value :: (R.scanner.drain rest).1, (R.scanner.drain rest).2) :=
  Scanner.drain_frame h.look

/-! ## Whole documents -/

/-- A text that begins with an opening tag is opened there. -/
theorem earliest_at_front (hT : T ∈ R.tags) (h : T.opening <+: text) :
    earliest (R.starts text) = some (0, T) := by
  have hmem : (0, T) ∈ R.starts text := mem_starts.mpr ⟨hT, Search.find?_of_prefix h⟩
  cases hfirst : earliest (R.starts text) with
  | none =>
    rw [earliest_eq_none.mp hfirst] at hmem
    cases hmem
  | some found =>
    obtain ⟨start, T'⟩ := found
    obtain ⟨hT', hstart⟩ := mem_starts.mp (earliest_mem hfirst)
    have hzero : start = 0 := Nat.le_zero.mp (earliest_le hfirst hmem)
    rw [hzero] at hstart ⊢
    have hhere := (Search.find?_eq_some_iff.mp hstart).2.1
    rw [drop_zero] at hhere
    rcases prefix_or_prefix_of_prefix hhere h with hpre | hpre
    · rw [R.apart T' hT' T hT hpre]
    · rw [R.apart T hT T' hT' hpre]

/-- A whole document is cut off. -/
theorem drain_whole_append (h : R.Whole text) (more : List κ) :
    R.scanner.drain (text ++ more) =
      (text :: (R.scanner.drain more).1, (R.scanner.drain more).2) := by
  obtain ⟨T, hT, hopening, stop, hclosing, hend⟩ := h
  have hstarts := earliest_at_front hT (hopening.trans (prefix_append text more))
  have hsight := @Sight.frame _ _ R (text ++ more) 0 stop T hstarts
    (Search.find?_append hclosing more)
  rw [drop_zero, hend, take_left, drop_left] at hsight
  exact drain_frame hsight

/-- The front of a whole document is kept. -/
theorem sight_front {more : List κ} (h : R.Whole (text ++ more)) (hmore : more ≠ []) :
    Sight R text (.wait text) := by
  obtain ⟨T, hT, hopening, stop, hclosing, hend⟩ := h
  have hpos := length_pos_iff.mpr hmore
  rw [length_append] at hend
  by_cases hfits : T.opening.length ≤ text.length
  · have hpre : T.opening <+: text :=
      prefix_of_prefix_length_le hopening (prefix_append _ _) hfits
    refine @Sight.opened _ _ R text 0 T (earliest_at_front hT hpre) ?_
    rw [drop_zero]
    cases hfound : Search.find? T.closing text with
    | none => rfl
    | some found =>
      have hle := closing_le hfound
      have hsame := Search.find?_append hfound more
      rw [hclosing] at hsame
      cases hsame
      omega
  · have hpre : text <+: T.opening :=
      prefix_of_prefix_length_le (prefix_append _ _) hopening (by omega)
    have hstarts : R.starts text = [] := by
      refine eq_nil_iff_forall_not_mem.mpr fun found hfound => ?_
      obtain ⟨start, T'⟩ := found
      obtain ⟨hT', hstart⟩ := mem_starts.mp hfound
      obtain ⟨-, hhere, -⟩ := Search.find?_eq_some_iff.mp hstart
      cases start with
      | zero =>
        rw [drop_zero] at hhere
        rw [R.apart T' hT' T hT (hhere.trans hpre)] at hhere
        exact hfits hhere.length_le
      | succ start =>
        -- the mark stands at the front of an opening tag only
        obtain ⟨rest, hrest, hnot⟩ := R.headed T hT
        obtain ⟨rest', hrest', -⟩ := R.headed T' hT'
        have hmark : R.mark ∈ text.drop (start + 1) :=
          hhere.subset (hrest' ▸ .head _)
        have hdrop := (hpre.drop (start + 1)).subset hmark
        rw [hrest, drop_succ_cons] at hdrop
        exact hnot (mem_of_mem_drop hdrop)
    have hkeep := T.opening_le
    have hall := R.keep_le T hT
    have hsight := Sight.junk hstarts
    rwa [show text.length - R.keep = 0 by omega, drop_zero] at hsight

/-- A whole document begins with the mark. -/
theorem whole_head (h : R.Whole text) : ∃ rest, text = R.mark :: rest := by
  obtain ⟨T, hT, ⟨more, hmore⟩, -⟩ := h
  obtain ⟨rest, hrest, -⟩ := R.headed T hT
  rw [hrest] at hmore
  exact ⟨rest ++ more, hmore.symm⟩

theorem sight_nil (R : Roots κ) : Sight R [] (.wait []) := by
  have hstarts : R.starts [] = [] := by
    refine eq_nil_iff_forall_not_mem.mpr fun found hfound => ?_
    obtain ⟨start, T⟩ := found
    obtain ⟨hT, hstart⟩ := mem_starts.mp hfound
    obtain ⟨rest, hrest, -⟩ := R.headed T hT
    obtain ⟨-, hhere, -⟩ := Search.find?_eq_some_iff.mp hstart
    rw [hrest, drop_nil] at hhere
    exact absurd (prefix_nil.mp hhere) (cons_ne_nil _ _)
  have hsight := Sight.junk hstarts
  rwa [drop_nil] at hsight

/-- Whole documents are cut off as far as they have arrived, and what is kept is nothing or begins
with the mark. -/
theorem drain_wholes : ∀ {texts : List (List κ)} {text more : List κ},
    (∀ t ∈ texts, R.Whole t) → text ++ more = texts.flatten →
      ∃ cut left rest, texts = cut ++ left ∧ R.scanner.drain text = (cut, rest) ∧
        rest ++ more = left.flatten ∧ Sight R rest (.wait rest) ∧
        (rest = [] ∨ ∃ tail, rest = R.mark :: tail)
  | [], text, more, _, h => by
    obtain ⟨rfl, rfl⟩ := append_eq_nil_iff.mp h
    exact ⟨[], [], [], rfl, drain_wait (sight_nil R), rfl, sight_nil R, Or.inl rfl⟩
  | first :: texts, text, more, hwhole, h => by
    have hfirst := hwhole first mem_cons_self
    rw [flatten_cons] at h
    by_cases hfits : first.length ≤ text.length
    · obtain ⟨after, rfl⟩ : first <+: text :=
        prefix_of_prefix_length_le ⟨_, h.symm⟩ (prefix_append _ _) hfits
      rw [append_assoc] at h
      obtain ⟨cut, left, rest, hsplit, hdrain, hrest, hwait, hmark⟩ :=
        drain_wholes (fun t ht => hwhole t (.tail _ ht))
          (append_cancel_left h)
      refine ⟨first :: cut, left, rest, by rw [hsplit]; rfl, ?_, hrest, hwait, hmark⟩
      rw [drain_whole_append hfirst, hdrain]
    · obtain ⟨after, rfl⟩ : text <+: first :=
        prefix_of_prefix_length_le ⟨_, h⟩ (prefix_append _ _) (by omega)
      have hafter : after ≠ [] := by
        rintro rfl
        rw [append_nil] at hfits
        exact hfits (Nat.le_refl _)
      have hwait := sight_front hfirst hafter
      refine ⟨[], _, text, rfl, drain_wait hwait, h, hwait, ?_⟩
      cases text with
      | nil => exact Or.inl rfl
      | cons k text =>
        obtain ⟨rest, hrest⟩ := whole_head hfirst
        rw [cons_append] at hrest
        rw [(cons.inj hrest).1]
        exact Or.inr ⟨text, rfl⟩

/-- Nothing but whole documents is cut off. -/
theorem whole_of_mem_drain (text : List κ) : ∀ t ∈ (R.scanner.drain text).1, R.Whole t := by
  have hsight := sight R text
  cases hlook : R.look text with
  | wait rest =>
    rw [hlook] at hsight
    rw [drain_wait hsight]
    intro t ht
    cases ht
  | drop rest =>
    rw [hlook] at hsight
    cases hsight
  | frame value rest =>
    rw [hlook] at hsight
    have hless : rest.length < text.length := look_shrinks (R := R) (by rw [hlook]; rfl)
    rw [drain_frame hsight]
    refine forall_mem_cons.mpr ⟨?_, whole_of_mem_drain rest⟩
    cases hsight with
    | @frame start stop T hstarts hclosing =>
      obtain ⟨hT, hopening⟩ := mem_starts.mp (earliest_mem hstarts)
      have hshort := R.opening_le T hT
      have hle := closing_le hclosing
      obtain ⟨-, hstop, hlast⟩ := Search.find?_eq_some_iff.mp hclosing
      have hlength : ((text.drop start).take (stop + T.closing.length)).length =
          stop + T.closing.length := length_take_of_le hle
      have hsplit := take_append_drop (stop + T.closing.length) (text.drop start)
      refine ⟨T, hT, ?_, stop, ?_, hlength.symm⟩
      · refine prefix_of_prefix_length_le (Search.find?_eq_some_iff.mp hopening).2.1
          ( take_prefix _ _) ?_
        omega
      · rw [← hsplit] at hstop hlast
        refine Search.find?_eq_some_iff.mpr ⟨by omega, ?_, fun j hj => ?_⟩
        · exact (Search.prefix_drop_append (by omega)).mp hstop
        · exact fun hpre => hlast j hj ((Search.prefix_drop_append (by omega)).mpr hpre)
termination_by text.length

/-- What is kept is the end of the text, and the mark stands in it less often when something was
cut off. -/
theorem drain_rest (text : List κ) : (R.scanner.drain text).2 <:+ text ∧
    ((R.scanner.drain text).1 ≠ [] →
      (R.scanner.drain text).2.count R.mark < text.count R.mark) := by
  have hsight := sight R text
  cases hlook : R.look text with
  | wait rest =>
    rw [hlook] at hsight
    rw [drain_wait hsight]
    refine ⟨?_, fun h => absurd rfl h⟩
    cases hsight with
    | junk hstarts => exact drop_suffix _ _
    | opened hstarts hclosing => exact drop_suffix _ _
  | drop rest =>
    rw [hlook] at hsight
    cases hsight
  | frame value rest =>
    rw [hlook] at hsight
    have hless : rest.length < text.length := look_shrinks (R := R) (by rw [hlook]; rfl)
    have hrest := drain_rest rest
    have hmark := whole_of_mem_drain (R := R) text value
      (by rw [drain_frame hsight]; exact .head _)
    rw [drain_frame hsight]
    cases hsight with
    | @frame start stop T hstarts hclosing =>
      have hsuffix : (text.drop start).drop (stop + T.closing.length) <:+ text :=
        (drop_suffix _ _).trans (drop_suffix _ _)
      refine ⟨hrest.1.trans hsuffix, fun _ => ?_⟩
      obtain ⟨tail, htail⟩ := whole_head hmark
      have hcount : ((text.drop start).take (stop + T.closing.length)).count R.mark +
          ((text.drop start).drop (stop + T.closing.length)).count R.mark ≤
            text.count R.mark := by
        rw [← count_append, take_append_drop]
        exact (drop_sublist _ _).count_le _
      rw [htail, count_cons_self] at hcount
      have hend := hrest.1.sublist.count_le R.mark
      show count R.mark (R.scanner.drain _).2 < _
      omega
termination_by text.length

/-- A document stays whole when elements that occur in no tag are replaced. -/
theorem whole_expand {key : α → κ} {expand : α → List κ}
    (h : ∀ T ∈ R.tags, T.Expands key expand) {xs : List α} (hwhole : R.Whole (xs.map key)) :
    R.Whole (xs.flatMap expand) := by
  obtain ⟨T, hT, hopening, stop, hclosing, hend⟩ := hwhole
  have hexpand := h T hT
  rw [length_map] at hend
  refine ⟨T, hT, (Tags.prefix_expand hexpand fun k hk => Or.inl hk).mpr hopening,
    ((xs.take stop).flatMap expand).length, ?_, ?_⟩
  · rw [Tags.find?_expand hexpand T.closing_ne (fun k hk => Or.inr hk), hclosing]
    rfl
  · have hpre := (Search.find?_eq_some_iff.mp hclosing).2.1
    rw [← map_drop] at hpre
    have htag := Tags.expand_tag hexpand (fun k hk => Or.inr hk) hpre
    rw [take_of_length_le (by rw [length_drop]; omega)] at htag
    rw [Tags.expand_take_drop xs stop, htag, length_append]

end Roots

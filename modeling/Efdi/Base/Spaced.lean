import Mathlib.Data.List.Basic

/-!
# Items between gaps

A text is a list of items with gaps of white space between them.  It is cut at one of the white
characters, the separator, and each piece is read for itself.

When each gap has a separator, the items are read in their order (`readAll_chars`).  Two items
without a separator between them fall into one piece, and both are lost (`length_readAll_lt`).
-/

namespace Spaced

open List Option

/-- How items are written, and how a piece is read: an item with white space around it as its value,
and a piece of white space or one with two items as nothing. -/
structure Format (ι α β : Type) where
  sep : α
  white : α → Prop
  text : ι → List α
  value : ι → β
  read : List α → Option β
  sep_notMem : ∀ i, sep ∉ text i
  read_item : ∀ i before after, (∀ c ∈ before, white c) → (∀ c ∈ after, white c) →
    read (before ++ text i ++ after) = some (value i)
  read_white : ∀ pad, (∀ c ∈ pad, white c) → read pad = none
  read_joined : ∀ i j before gap after, (∀ c ∈ before, white c) → (∀ c ∈ gap, white c) →
    gap ≠ [] → read (before ++ text i ++ gap ++ text j ++ after) = none

namespace Format

variable {ι α β : Type} (format : Format ι α β)

/-- The characters of items, each with the gap before it. -/
def tail (rest : List (List α × ι)) : List α :=
  rest.flatMap fun item => item.1 ++ format.text item.2

/-- The characters of the items. -/
def chars (first : ι) (rest : List (List α × ι)) : List α := format.text first ++ format.tail rest

/-- The gap is white space, and there is one. -/
def Gap (gap : List α) : Prop := gap ≠ [] ∧ ∀ c ∈ gap, format.white c

theorem chars_cons (first : ι) (item : List α × ι) (rest : List (List α × ι)) :
    format.chars first (item :: rest) =
      format.text first ++ item.1 ++ format.chars item.2 rest := by
  simp [chars, tail]

/-- The last separator of a list. -/
theorem exists_last {a : α} {cs : List α} (h : a ∈ cs) :
    ∃ before after, cs = before ++ a :: after ∧ a ∉ after := by
  obtain ⟨after, before, hcs, hfree⟩ := eq_append_cons_of_mem (mem_reverse.mpr h)
  refine ⟨before.reverse, after.reverse, ?_, by simpa using hfree⟩
  rw [← reverse_reverse cs, hcs, reverse_append, reverse_cons, append_assoc,
    singleton_append]

variable [DecidableEq α]

/-- What the pieces are read as. -/
def readAll (cs : List α) : List β := (cs.splitOn format.sep).filterMap format.read

variable {format}

theorem readAll_append (cs ds : List α) :
    format.readAll (cs ++ format.sep :: ds) = format.readAll cs ++ format.readAll ds := by
  rw [readAll, splitOn_append_cons_self, filterMap_append, readAll, readAll]

theorem readAll_of_notMem {cs : List α} (h : format.sep ∉ cs) :
    format.readAll cs = (format.read cs).toList := by
  rw [readAll, splitOn_eq_singleton h]
  cases hread : format.read cs with
  | none => rw [filterMap_cons_none hread, filterMap_nil, toList_none]
  | some b => rw [filterMap_cons_some hread, filterMap_nil, toList_some]

theorem readAll_white (pad : List α) (h : ∀ c ∈ pad, format.white c) : format.readAll pad = [] := by
  by_cases hsep : format.sep ∈ pad
  · obtain ⟨before, after, hpad, -⟩ := eq_append_cons_of_mem hsep
    rw [hpad, readAll_append, readAll_white before fun c hc => h c (by simp [hpad, hc]),
      readAll_white after fun c hc => h c (by simp [hpad, hc]), append_nil]
  · rw [readAll_of_notMem hsep, format.read_white pad h, toList_none]
termination_by pad.length
decreasing_by all_goals simp only [hpad, length_append, length_cons]; omega

/-- A gap with a separator cuts what follows off, with a part of the gap before it. -/
theorem readAll_gap {u gap : List α} (hu : format.sep ∉ u) (hgap : format.Gap gap)
    (hsep : format.sep ∈ gap) :
    ∃ left right, (∀ c ∈ left, format.white c) ∧ (∀ c ∈ right, format.white c) ∧
      format.sep ∉ right ∧ ∀ cs, format.readAll (u ++ gap ++ cs) =
        (format.read (u ++ left)).toList ++ format.readAll (right ++ cs) := by
  obtain ⟨before, right, rfl, hright⟩ := exists_last hsep
  have hwhite := hgap.2
  simp only [mem_append, mem_cons] at hwhite
  have hcut : ∀ cs, format.readAll (u ++ (before ++ format.sep :: right) ++ cs) =
      format.readAll (u ++ before) ++ format.readAll (right ++ cs) := by
    intro cs
    rw [← readAll_append]
    simp
  by_cases hbefore : format.sep ∈ before
  · obtain ⟨left, rest, rfl, hleft⟩ := eq_append_cons_of_mem hbefore
    refine ⟨left, right, fun c hc => hwhite c (.inl (by simp [hc])),
      fun c hc => hwhite c (.inr (.inr hc)), hright, fun cs => ?_⟩
    rw [hcut, ← append_assoc, readAll_append,
      readAll_of_notMem (by simp [hu, hleft]),
      readAll_white rest fun c hc => hwhite c (.inl (by simp [hc])), append_nil]
  · refine ⟨before, right, fun c hc => hwhite c (.inl hc), fun c hc => hwhite c (.inr (.inr hc)),
      hright, fun cs => ?_⟩
    rw [hcut, readAll_of_notMem (by simp [hu, hbefore])]

/-- With a separator in each gap all items are read. -/
theorem readAll_chars : ∀ {rest : List (List α × ι)} {before : List α} (first : ι),
    (∀ item ∈ rest, format.Gap item.1 ∧ format.sep ∈ item.1) → (∀ c ∈ before, format.white c) →
      format.sep ∉ before →
        format.readAll (before ++ format.chars first rest) =
          format.value first :: rest.map fun item => format.value item.2
  | [], before, first, _, hbefore, hfree => by
    have hread := format.read_item first before [] hbefore (by simp)
    rw [append_nil] at hread
    rw [chars, tail, flatMap_nil, append_nil,
      readAll_of_notMem (by simp [hfree, format.sep_notMem]), hread]
    rfl
  | item :: rest, before, first, hgaps, hbefore, hfree => by
    obtain ⟨hgap, hsep⟩ := hgaps item mem_cons_self
    obtain ⟨left, right, hleft, hright, hclear, hcut⟩ :=
      readAll_gap (u := before ++ format.text first) (by simp [hfree, format.sep_notMem]) hgap
        hsep
    rw [chars_cons, ← append_assoc, ← append_assoc, hcut,
      format.read_item first before left hbefore hleft,
      readAll_chars item.2 (fun other h => hgaps other (.tail _ h)) hright hclear]
    rfl

/-- No more items are read than there are, and none of a piece that has two of them. -/
theorem length_readAll_le : ∀ {rest : List (List α × ι)}, (∀ item ∈ rest, format.Gap item.1) →
    (∀ before first, (∀ c ∈ before, format.white c) → format.sep ∉ before →
      (format.readAll (before ++ format.chars first rest)).length ≤ rest.length + 1) ∧
    (∀ u, format.sep ∉ u → (∀ after, format.read (u ++ after) = none) →
      (format.readAll (u ++ format.tail rest)).length ≤ rest.length)
  | [], _ => by
    constructor
    · intro before first _ hfree
      rw [chars, tail, List.flatMap_nil, List.append_nil,
        readAll_of_notMem (by simp [hfree, format.sep_notMem])]
      exact Option.length_toList_le
    · intro u hu hlost
      have hread := hlost []
      rw [append_nil] at hread
      rw [tail, flatMap_nil, append_nil, readAll_of_notMem hu, hread]
      exact Nat.le_refl 0
  | item :: rest, hgaps => by
    have hgap := hgaps item mem_cons_self
    obtain ⟨hitems, hjoined⟩ :=
      length_readAll_le fun other h => hgaps other (mem_cons_of_mem item h)
    have htail : format.tail (item :: rest) = item.1 ++ format.chars item.2 rest := by
      rw [tail, flatMap_cons, append_assoc, chars, tail]
    constructor
    · intro before first hbefore hfree
      have hu : format.sep ∉ before ++ format.text first := by simp [hfree, format.sep_notMem]
      rw [chars, htail, ← append_assoc, ← append_assoc, length_cons]
      by_cases hsep : format.sep ∈ item.1
      · obtain ⟨left, right, hleft, hright, hclear, hcut⟩ := readAll_gap hu hgap hsep
        have hrest := hitems right item.2 hright hclear
        rw [hcut, format.read_item first before left hbefore hleft, length_append,
          toList_some, length_singleton]
        omega
      · have hrest := hjoined (before ++ format.text first ++ item.1 ++ format.text item.2)
          (by simp [hfree, hsep, format.sep_notMem])
          (fun after => format.read_joined first item.2 before item.1 after hbefore hgap.2 hgap.1)
        rw [chars, ← append_assoc]
        omega
    · intro u hu hlost
      rw [htail, ← append_assoc, length_cons]
      by_cases hsep : format.sep ∈ item.1
      · obtain ⟨left, right, -, hright, hclear, hcut⟩ := readAll_gap hu hgap hsep
        rw [hcut, hlost left, toList_none, nil_append]
        exact hitems right item.2 hright hclear
      · have hrest := hjoined (u ++ item.1 ++ format.text item.2)
          (by simp [hu, hsep, format.sep_notMem])
          (fun after => by rw [append_assoc, append_assoc]; exact hlost _)
        rw [chars, ← append_assoc]
        omega

/-- A gap without a separator costs two items. -/
theorem length_readAll_lt : ∀ {rest : List (List α × ι)} {before : List α} (first : ι),
    (∀ item ∈ rest, format.Gap item.1) → (∃ item ∈ rest, format.sep ∉ item.1) →
      (∀ c ∈ before, format.white c) → format.sep ∉ before →
        (format.readAll (before ++ format.chars first rest)).length < rest.length
  | [], _, _, _, hsome, _, _ => by
    obtain ⟨item, hitem, -⟩ := hsome
    cases hitem
  | item :: rest, before, first, hgaps, hsome, hbefore, hfree => by
    have hgap := hgaps item mem_cons_self
    have hrest : ∀ other ∈ rest, format.Gap other.1 :=
      fun other h => hgaps other (mem_cons_of_mem item h)
    have hu : format.sep ∉ before ++ format.text first := by simp [hfree, format.sep_notMem]
    rw [chars_cons, ← append_assoc, ← append_assoc, length_cons]
    by_cases hsep : format.sep ∈ item.1
    · obtain ⟨left, right, hleft, hright, hclear, hcut⟩ := readAll_gap hu hgap hsep
      have hlater : ∃ other ∈ rest, format.sep ∉ other.1 := by
        obtain ⟨other, hother, hmissing⟩ := hsome
        rcases mem_cons.mp hother with rfl | hother
        · exact absurd hsep hmissing
        · exact ⟨other, hother, hmissing⟩
      have hlt := length_readAll_lt item.2 hrest hlater hright hclear
      rw [hcut, format.read_item first before left hbefore hleft, length_append,
        toList_some, length_singleton]
      omega
    · have hle := (length_readAll_le hrest).2
        (before ++ format.text first ++ item.1 ++ format.text item.2)
        (by simp [hfree, hsep, format.sep_notMem])
        (fun after => format.read_joined first item.2 before item.1 after hbefore hgap.2 hgap.1)
      rw [chars, ← append_assoc]
      omega

end Format

end Spaced

import Efdi.Base.Reader

/-!
# What readers keep of their state

A property of the state that the updates of a reader keep is kept by the reader, whether it is
done or gives up (`Keeps`).  Behind a presence map only the items that are present matter
(`keeps_present`), and what one of these reaches lasts to the end when the later ones keep it
(`reads_present_of_reaches`, `all_present_at`).
-/

namespace Reading

open List Option
open Reader hiding take get

variable {σ τ α β : Type} {raised : Prop} {P : σ → Prop}

/-- The state of a reader that is done or has given up.  `raised` says whether it may raise. -/
def Result.All (raised : Prop) (P : σ → Prop) : Result σ α → Prop
  | .done _ state _ => P state
  | .stop state => P state
  | .raise => raised

/-- What holds of the state before holds of the state after. -/
def Keeps (raised : Prop) (P : σ → Prop) (p : Reader σ α) : Prop :=
  ∀ state bytes, P state → (p.run state bytes).All raised P

theorem keeps_true (p : Reader σ α) : Keeps True (fun _ => True) p := by
  intro state bytes _
  cases p.run state bytes <;> exact trivial

/-! ## Readers -/

theorem keeps_pure (value : α) : Keeps raised P (pure value : Reader σ α) := fun _ _ h => h

theorem Keeps.bind {p : Reader σ α} {f : α → Reader σ β} (hp : Keeps raised P p)
    (hf : ∀ value, Keeps raised P (f value)) : Keeps raised P (p >>= f) := by
  intro state bytes h
  have hread := hp state bytes h
  rw [run_bind]
  cases hrun : p.run state bytes with
  | done value state' rest =>
    rw [hrun] at hread
    exact hf value state' rest hread
  | stop state' =>
    rw [hrun] at hread
    exact hread
  | raise =>
    rw [hrun] at hread
    exact hread

theorem keeps_update {f : σ → σ} (h : ∀ state, P state → P (f state)) :
    Keeps raised P (update f) := fun state _ hstate => h state hstate

theorem keeps_take (n : Nat) : Keeps raised P (Reader.take n : Reader σ (List UInt8)) := by
  intro state bytes h
  rw [run_take]
  split
  next => exact h
  next => exact h

theorem keeps_byte : Keeps raised P (byte : Reader σ UInt8) := by
  intro state bytes h
  cases bytes with
  | nil => exact h
  | cons b rest => exact h

theorem keeps_stop : Keeps raised P (stop : Reader σ α) := fun _ _ h => h

theorem keeps_octets : Keeps raised P (octets : Reader σ (List UInt8)) := fun _ _ h => h

theorem keeps_fspec : Keeps raised P (fspec : Reader σ (List Bool)) :=
  keeps_octets.bind fun _ => keeps_pure _

/-- A presence map that does not end raises. -/
theorem keeps_presence (limit : Nat) : Keeps True P (presence limit : Reader σ (List Bool)) := by
  intro state bytes h
  rw [run_presence]
  cases chainOf limit bytes with
  | none => exact trivial
  | some found => exact h

theorem keeps_presenceMap : Keeps True P (presenceMap : Reader σ (List Bool)) :=
  fun state bytes h => keeps_presence bytes.length state bytes h

variable {n : Nat} {f : List UInt8 → σ → σ} {Q : τ → Prop} {p : Reader τ Unit} {start : τ}
  {merge : τ → σ → σ} {strict : Bool} {flags : Reader σ (List Bool)} {items : List (Reader σ Unit)}
  {layouts layouts' : List Layout} {layout : Layout}

theorem keeps_fixed (h : ∀ data state, P state → P (f data state)) :
    Keeps raised P (fixed n f) :=
  (keeps_take n).bind fun data => keeps_update (h data)

/-- Where an exception ends the message, none is left. -/
theorem Keeps.attempt {p : Reader σ α} (h : Keeps True P p) : Keeps raised P p.attempt := by
  intro state bytes hstate
  have hread := h state bytes hstate
  rw [run_attempt]
  cases hrun : p.run state bytes with
  | done value state' rest =>
    rw [hrun] at hread
    exact hread
  | stop state' =>
    rw [hrun] at hread
    exact hread
  | raise => exact hstate

theorem Keeps.nested (h : Keeps raised Q p) (hstart : Q start)
    (hmerge : ∀ out state, Q out → P state → P (merge out state)) :
    Keeps raised P (nested start p merge) := by
  intro state bytes hstate
  have hread := h start bytes hstart
  rw [run_nested]
  cases hrun : p.run start bytes with
  | done value out rest =>
    rw [hrun] at hread
    exact hmerge out state hread hstate
  | stop out =>
    rw [hrun] at hread
    exact hmerge out state hread hstate
  | raise =>
    rw [hrun] at hread
    exact hread

theorem Keeps.apart (h : Keeps raised Q p) (hstart : Q start)
    (hmerge : ∀ out state, Q out → P state → P (merge out state)) :
    Keeps raised P (apart start p merge) := by
  intro state bytes hstate
  have hread := h start bytes hstart
  rw [run_apart]
  cases hrun : p.run start bytes with
  | done value out rest =>
    rw [hrun] at hread
    exact hmerge out state hread hstate
  | stop out => exact hstate
  | raise =>
    rw [hrun] at hread
    exact hread

theorem keeps_runExtents {f : Nat → UInt8 → σ → σ} {strict : Nat → Bool}
    (h : ∀ i octet state, P state → P (f i octet state)) : ∀ (bytes : List UInt8) (i : Nat)
      (state : σ), P state → (runExtents f strict i state bytes).All raised P
  | [], i, state, hstate => by
    rw [runExtents]
    split
    next => exact hstate
    next => exact hstate
  | octet :: bytes, i, state, hstate => by
    rw [runExtents]
    split
    next => exact keeps_runExtents h bytes _ _ (h i octet state hstate)
    next => exact h i octet state hstate

/-- The octets behind the first one keep a property. -/
theorem keeps_runExtentsTo {f : Nat → UInt8 → σ → σ} {strict : Nat → Bool}
    (h : ∀ i octet state, P state → P (f (i + 1) octet state)) : ∀ (limit i : Nat)
      (bytes : List UInt8) (state : σ), P state →
        (runExtentsTo f strict limit (i + 1) state bytes).All raised P
  | 0, _, _, _, hstate => hstate
  | _ + 1, i, [], state, hstate => by
    rw [runExtentsTo]
    split
    next => exact hstate
    next => exact hstate
  | limit + 1, i, octet :: bytes, state, hstate => by
    rw [runExtentsTo]
    split
    next => exact keeps_runExtentsTo h limit (i + 1) bytes _ (h i octet state hstate)
    next => exact h i octet state hstate

theorem keeps_extents {f : Nat → UInt8 → σ → σ} {strict : Nat → Bool}
    (h : ∀ i octet state, P state → P (f i octet state)) :
    Keeps raised P (extents f strict) :=
  fun state bytes hstate => keeps_runExtents h bytes 0 state hstate

theorem keeps_groups (h : ∀ data state, P state → P (f data state)) :
    ∀ count, Keeps raised P (groups strict n f count)
  | 0, _, _, hstate => hstate
  | count + 1, state, bytes, hstate => by
    show (runGroups strict n f (count + 1) state bytes).All raised P
    rw [runGroups]
    split
    next =>
      split
      next => exact hstate
      next => exact hstate
    next => exact keeps_groups h count _ _ (h _ state hstate)

theorem keeps_counted (h : ∀ data state, P state → P (f data state)) :
    Keeps raised P (counted strict n f) :=
  keeps_byte.bind fun count => keeps_groups h count.toNat

theorem keeps_countedBlock {f : Nat → List UInt8 → σ → σ}
    (h : ∀ count data state, P state → P (f count data state)) :
    Keeps raised P (countedBlock n f) :=
  keeps_byte.bind fun count => (keeps_take _).bind fun data => keeps_update (h count.toNat data)

theorem keeps_runGroupChain (h : ∀ data state, P state → P (f data state)) :
    ∀ (fuel : Nat) (state : σ) (bytes : List UInt8),
      P state → (runGroupChain strict n f fuel state bytes).All raised P
  | 0, state, bytes, hstate => by
    rw [runGroupChain]
    split
    next => exact hstate
    next => exact hstate
  | fuel + 1, state, bytes, hstate => by
    rw [runGroupChain]
    split
    next =>
      split
      next => exact hstate
      next => exact hstate
    next =>
      split
      next => exact keeps_runGroupChain h fuel _ _ (h _ state hstate)
      next => exact h _ state hstate

theorem keeps_groupChain (h : ∀ data state, P state → P (f data state)) :
    Keeps raised P (groupChain strict n f) :=
  fun state bytes hstate => keeps_runGroupChain h _ state bytes hstate

theorem keeps_skipExplicit : Keeps raised P (skipExplicit : Reader σ Unit) := by
  intro state bytes h
  cases bytes with
  | nil => exact h
  | cons length bytes =>
    rw [run_skipExplicit]
    split
    next => exact h
    next => exact h

/-! ## Items behind a presence map -/

/-- Items that are not present do not matter. -/
theorem keeps_present : ∀ {items : List (Reader σ Unit)} {flags : List Bool},
    (∀ entry ∈ items.zip flags, entry.2 = true → Keeps raised P entry.1) →
      Keeps raised P (present items flags)
  | [], _, _ => keeps_pure ()
  | _ :: _, [], _ => keeps_pure ()
  | item :: items, flag :: flags, h => by
    have hrest : Keeps raised P (present items flags) :=
      keeps_present fun entry hentry => h entry (.tail _ hentry)
    cases flag with
    | false => exact hrest
    | true => exact (h (item, true) (.head _) rfl).bind fun _ => hrest

theorem keeps_compound (hflags : Keeps raised P flags)
    (hitems : ∀ item ∈ items, Keeps raised P item) :
    Keeps raised P (compound flags items) :=
  hflags.bind fun _ => keeps_present fun entry hentry _ =>
    hitems entry.1 (of_mem_zip hentry).1

theorem keeps_compoundOnly (hflags : Keeps raised P flags)
    (hitems : ∀ item ∈ items, Keeps raised P item) :
    Keeps raised P (compoundOnly flags items) := by
  refine hflags.bind fun found => ?_
  split
  next => exact keeps_stop
  next => exact keeps_present fun entry hentry _ => hitems entry.1 (of_mem_zip hentry).1

/-- A record of a message is decoded at some position. -/
theorem exists_of_mem_records {decode : List UInt8 → Nat → τ × Nat} {data : List UInt8} {pos : Nat}
    {entry : τ × List UInt8} (h : entry ∈ records decode data pos) :
    ∃ start, entry.1 = (decode data start).1 := by
  induction pos using records.induct decode data with
  | case1 pos hpos hstuck =>
    rw [records, if_pos hpos, if_pos hstuck] at h
    cases h
  | case2 pos hpos hmoves ih =>
    rw [records, if_pos hpos, if_neg hmoves] at h
    rcases mem_cons.mp h with rfl | h
    · exact ⟨pos, rfl⟩
    · exact ih h
  | case3 pos hpos =>
    rw [records, if_neg hpos] at h
    cases h

/-- Where an item has been read, whatever the state was before. -/
def Reaches (P : σ → Prop) (p : Reader σ Unit) : Prop :=
  ∀ state bytes state' rest, p.run state bytes = .done () state' rest → P state'

theorem reaches_fixed (h : ∀ data state, P (f data state)) :
    Reaches P (fixed n f) := by
  intro state bytes state' rest hrun
  rw [fixed, run_bind, run_take] at hrun
  split at hrun
  next hdone =>
    cases hrun
    exact h _ _
  next => cases hrun
  next => cases hrun

/-- The first octet of a chain is always there when the item is. -/
theorem reaches_extents {f : Nat → UInt8 → σ → σ} (hfirst : ∀ octet state, P (f 0 octet state))
    (hlater : ∀ i octet state, P state → P (f i octet state)) :
    Reaches P (extents f fun _ => true) := by
  intro state bytes state' rest hrun
  cases bytes with
  | nil => cases hrun
  | cons octet bytes =>
    have hchain : runExtents f (fun _ => true) 0 state (octet :: bytes) =
        .done () state' rest := hrun
    rw [runExtents] at hchain
    split at hchain
    next =>
      have hkept := @keeps_runExtents σ False P f (fun _ => true) hlater bytes 1 _
        (hfirst octet state)
      rw [hchain] at hkept
      exact hkept
    next =>
      cases hchain
      exact hfirst octet state

/-- What one of the items that are present reaches holds at the end. -/
theorem reads_present_of_reaches {items : List (Reader σ Unit)} {layouts : List Layout}
    (hfollows : List.Forall₂ Follows items layouts) (hkeeps : ∀ item ∈ items, Keeps False P item) :
    ∀ {flags : List Bool} {state : σ} {bytes rest : List UInt8},
      Layout.present layouts flags bytes = some rest →
      (P state ∨ ∃ entry ∈ items.zip flags, entry.2 = true ∧ Reaches P entry.1) →
      ∃ state', Reads (present items flags) state bytes () state' rest ∧ P state' := by
  induction hfollows with
  | nil =>
    intro flags state bytes rest hrest hreaches
    obtain rfl := Layout.of_present_nil hrest
    rcases hreaches with hstate | ⟨entry, hentry, -⟩
    · exact ⟨state, fun _ => rfl, hstate⟩
    · rw [zip_nil_left] at hentry
      cases hentry
  | @cons item layout items layouts hitem _ ih =>
    intro flags state bytes rest hrest hreaches
    have hlater : ∀ item ∈ items, Keeps False P item :=
      fun item hitem => hkeeps item (.tail _ hitem)
    match flags with
    | [] =>
      cases hrest
      rcases hreaches with hstate | ⟨entry, hentry, -⟩
      · exact ⟨state, fun _ => rfl, hstate⟩
      · rw [zip_nil_right] at hentry
        cases hentry
    | false :: flags =>
      refine ih hlater hrest ?_
      rcases hreaches with hstate | ⟨entry, hentry, htrue, hreach⟩
      · exact .inl hstate
      · rw [zip_cons_cons] at hentry
        rcases mem_cons.mp hentry with rfl | hentry
        · cases htrue
        · exact .inr ⟨entry, hentry, htrue, hreach⟩
    | true :: flags =>
      obtain ⟨between, hbetween, hrest⟩ := bind_eq_some_iff.mp hrest
      obtain ⟨mid, hmid⟩ := hitem state bytes between hbetween
      have hnext : P mid ∨ ∃ entry ∈ items.zip flags, entry.2 = true ∧ Reaches P entry.1 := by
        rcases hreaches with hstate | ⟨entry, hentry, htrue, hreach⟩
        · have hkept := hkeeps item (.head _) state (bytes ++ []) hstate
          rw [hmid []] at hkept
          exact .inl hkept
        · rw [zip_cons_cons] at hentry
          rcases mem_cons.mp hentry with rfl | hentry
          · exact .inl (hreach _ _ _ _ (hmid []))
          · exact .inr ⟨entry, hentry, htrue, hreach⟩
      obtain ⟨state', hreads, hstate'⟩ := ih hlater hrest hnext
      exact ⟨state', hmid.bind hreads, hstate'⟩

/-- What is left of a message at the `n`-th item, when that item is present. -/
def Layout.itemAt : Nat → List Layout → List Bool → Layout
  | 0, _ :: _, true :: _, bytes => some bytes
  | n + 1, _ :: items, false :: flags, bytes => itemAt n items flags bytes
  | n + 1, item :: items, true :: flags, bytes => (item bytes).bind (itemAt n items flags)
  | _, _, _, _ => none

/-- Items that the layouts exclude do not matter. -/
theorem keeps_present_of_layouts

    (h : List.Forall₂ (fun item layout => layout = Layout.spare ∨ Keeps raised P item) items layouts) :
    ∀ {flags : List Bool} {bytes rest : List UInt8},
      Layout.present layouts flags bytes = some rest → Keeps raised P (present items flags) := by
  induction h with
  | nil => exact fun _ => keeps_pure ()
  | @cons item layout items layouts hitem _ ih =>
    intro flags bytes rest hrest
    match flags with
    | [] => exact keeps_pure ()
    | false :: flags => exact ih hrest
    | true :: flags =>
      obtain ⟨between, hbetween, hrest⟩ := bind_eq_some_iff.mp hrest
      rcases hitem with rfl | hitem
      · cases hbetween
      · exact hitem.bind fun _ => ih hrest

/-- On what the layout allows, a reader ends the item where the layout ends it, and keeps a
property. -/
def Turns (P : σ → Prop) (p : Reader σ Unit) (layout : Layout) : Prop :=
  ∀ state bytes rest after, layout bytes = some rest → P state →
    ∃ state', p.run state (bytes ++ after) = .done () state' (rest ++ after) ∧ P state'

theorem Follows.turns {p : Reader σ Unit} (h : Follows p layout) (hkeeps : Keeps raised P p) :
    Turns P p layout := by
  intro state bytes rest after hrest hstate
  obtain ⟨state', hreads⟩ := h state bytes rest hrest
  have hkept := hkeeps state (bytes ++ after) hstate
  rw [hreads after] at hkept
  exact ⟨state', hreads after, hkept⟩

theorem turns_spare (p : Reader σ Unit) : Turns P p Layout.spare := by
  intro state bytes rest after hrest
  cases hrest

theorem turns_all (h : List.Forall₂ Follows items layouts)
    (hkeeps : ∀ item ∈ items, Keeps raised P item) :
    List.Forall₂ (Turns P) items layouts := by
  induction h with
  | nil => exact .nil
  | @cons item layout items layouts hitem _ ih =>
    exact .cons (hitem.turns (hkeeps item (.head _)))
      (ih fun later hlater => hkeeps later (.tail _ hlater))

theorem turns_present (h : List.Forall₂ (Turns P) items layouts) :
    ∀ flags, Turns P (present items flags) (Layout.present layouts flags) := by
  induction h with
  | nil =>
    intro flags state bytes rest after hrest hstate
    obtain rfl := Layout.of_present_nil hrest
    exact ⟨state, rfl, hstate⟩
  | @cons item layout items layouts hitem _ ih =>
    intro flags state bytes rest after hrest hstate
    match flags with
    | [] =>
      cases hrest
      exact ⟨state, rfl, hstate⟩
    | false :: flags => exact ih flags state bytes rest after hrest hstate
    | true :: flags =>
      obtain ⟨between, hbetween, hrest⟩ := bind_eq_some_iff.mp hrest
      obtain ⟨mid, hmid, hkept⟩ := hitem state bytes between after hbetween hstate
      obtain ⟨state', hstate', hkept'⟩ := ih flags mid between rest after hrest hkept
      refine ⟨state', ?_, hkept'⟩
      rw [present_true, run_bind, hmid]
      exact hstate'

theorem turns_compound (hflags : ReadsFlags flags ((layouts.length + 6) / 7))
    (hitems : List.Forall₂ (Turns P) items layouts) :
    Turns P (compound flags items) (Layout.compound layouts) := by
  intro state bytes rest after h hstate
  obtain ⟨⟨found, between⟩, hfound, hrest⟩ := bind_eq_some_iff.mp h
  obtain ⟨state', hrun, hkept⟩ := turns_present hitems _ state between rest after hrest hstate
  refine ⟨state', ?_, hkept⟩
  rw [compound, run_bind, hflags state bytes found between hfound after]
  exact hrun

theorem Turns.nested (h : Turns Q p layout) (hstart : Q start)
    (hmerge : ∀ out state, Q out → P state → P (merge out state)) :
    Turns P (nested start p merge) layout := by
  intro state bytes rest after hrest hstate
  obtain ⟨out, hrun, hout⟩ := h start bytes rest after hrest hstart
  refine ⟨merge out state, ?_, hmerge out state hout hstate⟩
  rw [run_nested, hrun]

theorem Turns.attempt {p : Reader σ Unit} (h : Turns P p layout) :
    Turns P p.attempt layout := by
  intro state bytes rest after hrest hstate
  obtain ⟨state', hrun, hkept⟩ := h state bytes rest after hrest hstate
  refine ⟨state', ?_, hkept⟩
  rw [run_attempt, hrun]

theorem spare_or_keeps (hlength : items.length = layouts.length)
    (h : ∀ item ∈ items, Keeps raised P item) :
    List.Forall₂ (fun item layout => layout = Layout.spare ∨ Keeps raised P item) items layouts := by
  induction items generalizing layouts with
  | nil =>
    cases layouts with
    | nil => exact .nil
    | cons layout layouts => cases hlength
  | cons item items ih =>
    cases layouts with
    | nil => cases hlength
    | cons layout layouts =>
      exact .cons (.inr (h item (.head _)))
        (ih (Nat.succ.inj hlength) fun later hlater => h later (.tail _ hlater))

/-- A property that the first items keep where they follow their layouts, and the others
anyway. -/
theorem all_present {items' : List (Reader σ Unit)} {after : List UInt8}
    (h : List.Forall₂ (Turns P) items layouts)

    (h' : List.Forall₂ (fun item layout => layout = Layout.spare ∨ Keeps raised P item) items' layouts') :
    ∀ {flags : List Bool} {state : σ} {bytes rest : List UInt8},
      Layout.present (layouts ++ layouts') flags bytes = some rest → P state →
      ((present (items ++ items') flags).run state (bytes ++ after)).All raised P := by
  induction h with
  | nil =>
    intro flags state bytes rest hrest hstate
    exact keeps_present_of_layouts h' hrest state _ hstate
  | @cons item layout items layouts hitem _ ih =>
    intro flags state bytes rest hrest hstate
    match flags with
    | [] => exact hstate
    | false :: flags => exact ih hrest hstate
    | true :: flags =>
      obtain ⟨between, hbetween, hrest⟩ := bind_eq_some_iff.mp hrest
      obtain ⟨mid, hmid, hkept⟩ := hitem state bytes between after hbetween hstate
      rw [cons_append, present_true, run_bind, hmid]
      exact ih hrest hkept

/-- What an item makes of the state lasts to the end when the items behind it keep it. -/
theorem all_present_at {item : Reader σ Unit} {items' : List (Reader σ Unit)}
    {here after : List UInt8} (h : List.Forall₂ (Turns fun _ => True) items layouts)
    (hitem : ∀ state rest, layout here = some rest →
      (item.run state (here ++ after)).All raised P)

    (h' : List.Forall₂ (fun item layout => layout = Layout.spare ∨ Keeps raised P item) items' layouts') :
    ∀ {flags : List Bool} {state : σ} {bytes rest : List UInt8},
      Layout.present (layouts ++ layout :: layouts') flags bytes = some rest →
      Layout.itemAt layouts.length (layouts ++ layout :: layouts') flags bytes = some here →
      ((present (items ++ item :: items') flags).run state (bytes ++ after)).All raised P := by
  induction h with
  | nil =>
    intro flags state bytes rest hrest hhere
    match flags with
    | [] => cases hhere
    | false :: flags => cases hhere
    | true :: flags =>
      obtain rfl := some.inj hhere
      obtain ⟨between, hbetween, hrest⟩ := bind_eq_some_iff.mp hrest
      have hread := hitem state between hbetween
      rw [nil_append, present_true, run_bind]
      cases hrun : item.run state (bytes ++ after) with
      | done value state' left =>
        rw [hrun] at hread
        exact keeps_present_of_layouts h' hrest state' left hread
      | stop state' =>
        rw [hrun] at hread
        exact hread
      | raise =>
        rw [hrun] at hread
        exact hread
  | @cons head layout items layouts hhead _ ih =>
    intro flags state bytes rest hrest hhere
    match flags with
    | [] => cases hhere
    | false :: flags => exact ih hrest hhere
    | true :: flags =>
      obtain ⟨between, hbetween, hrest⟩ := bind_eq_some_iff.mp hrest
      have hhere' : (layout bytes).bind
          (Layout.itemAt layouts.length (layouts ++ _ :: layouts') flags) = some here := hhere
      rw [hbetween] at hhere'
      obtain ⟨mid, hmid, -⟩ := hhead state bytes between after hbetween trivial
      rw [cons_append, present_true, run_bind, hmid]
      exact ih hrest hhere'

/-- A reader that leaves the state as it is. -/
def Silent (p : Reader σ Unit) : Prop := ∀ state, Keeps False (· = state) p

theorem silent_skipExplicit : Silent (skipExplicit : Reader σ Unit) :=
  fun _ => keeps_skipExplicit

/-- The state behind the items of a message does not depend on what comes after the message, when
the items that do not follow their layouts come last and are silent. -/
theorem settled_present {items items' : List (Reader σ Unit)} {layouts layouts' : List Layout}
    (h : List.Forall₂ Follows items layouts) (h' : ∀ item ∈ items', Silent item) :
    ∀ {flags : List Bool} {state : σ} {bytes rest : List UInt8},
      Layout.present (layouts ++ layouts') flags bytes = some rest →
      ∃ state', ∀ after, ((present (items ++ items') flags).run state (bytes ++ after)).All
        False (· = state') := by
  induction h with
  | nil =>
    intro flags state bytes rest _
    refine ⟨state, fun after => ?_⟩
    exact keeps_present (fun entry hentry _ => h' entry.1 (of_mem_zip hentry).1 state)
      state (bytes ++ after) rfl
  | @cons item layout items layouts hitem _ ih =>
    intro flags state bytes rest hrest
    match flags with
    | [] => exact ⟨state, fun _ => rfl⟩
    | false :: flags => exact ih hrest
    | true :: flags =>
      obtain ⟨between, hbetween, hrest⟩ := bind_eq_some_iff.mp hrest
      obtain ⟨mid, hmid⟩ := hitem state bytes between hbetween
      obtain ⟨state', hsettled⟩ := @ih flags mid between rest hrest
      refine ⟨state', fun after => ?_⟩
      rw [cons_append, present_true, run_bind, hmid after]
      exact hsettled after

/-- The state at the end of a message, unless the reader raises. -/
def Result.state? : Result σ α → Option σ
  | .done _ state _ => some state
  | .stop state => some state
  | .raise => none

theorem Result.state?_of_all {result : Result σ α} {state : σ}
    (h : result.All False (· = state)) : result.state? = some state := by
  cases result with
  | done value state' rest => exact congrArg some h
  | stop state' => exact congrArg some h
  | raise => exact h.elim

/-- Where the items of one layout end where those of another do, an item is where it is. -/
theorem Layout.Refines.itemAt (h : List.Forall₂ Layout.Refines layouts layouts')
    {here rest : List UInt8} :
    ∀ {n : Nat} {flags : List Bool} {bytes : List UInt8},
      Layout.present layouts flags bytes = some rest →
      Layout.itemAt n layouts' flags bytes = some here →
      Layout.itemAt n layouts flags bytes = some here := by
  induction h with
  | nil =>
    intro n flags bytes _ hhere
    cases n <;> cases hhere
  | @cons layout layout' layouts layouts' hlayout _ ih =>
    intro n flags bytes hrest hhere
    match n, flags with
    | 0, [] => cases hhere
    | 0, false :: _ => cases hhere
    | 0, true :: _ => exact hhere
    | _ + 1, [] => cases hhere
    | _ + 1, false :: _ => exact ih hrest hhere
    | n + 1, true :: flags =>
      obtain ⟨between, hbetween, hrest⟩ := bind_eq_some_iff.mp hrest
      obtain ⟨between', hbetween', hhere⟩ := bind_eq_some_iff.mp hhere
      rw [hlayout bytes between hbetween] at hbetween'
      obtain rfl := some.inj hbetween'
      exact bind_eq_some_iff.mpr ⟨between, hbetween, ih hrest hhere⟩

end Reading

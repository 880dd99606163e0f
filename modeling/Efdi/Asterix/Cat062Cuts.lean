import Efdi.Asterix.Cat062Keys

/-!
# Where CAT-062 records end

The layout of Edition 1.21, and what of it the decoder follows.  It takes two subfields for
something else than the edition does: it reads four octets for the two of I062/340 MDC, and takes
I062/380 MET, which has eight octets, for a compound.  Records without the first, in which every
MET reads as the full compound, are cut where the edition ends them (`cat062_cut_exactly`).
Others move everything behind them (`not_cut_mdc`).
-/

namespace Efdi.Asterix

open Reading Tracks List

variable (F : FloatMath)

/-! ## Edition 1.21 -/

/-- The layouts of the subfields of I062/380, with the one of MET. -/
def layouts380 (met : Layout) : List Layout :=
  [.fixed 3, .fixed 6, .fixed 2, .fixed 2, .fixed 2, .fixed 2, .fixed 2, .extended 1,
    .repeated 15, .fixed 2, .fixed 2, .fixed 7, .fixed 2, .fixed 2, .fixed 2, .fixed 2, .fixed 2,
    .fixed 2, .fixed 1, met, .fixed 1, .fixed 6, .fixed 2, .fixed 1, .repeated 8, .fixed 2,
    .fixed 2, .fixed 2]

/-- I062/380. -/
def layout380 (met : Layout) : Layout := .compound (layouts380 met)

/-- I062/390. -/
def layout390 : Layout :=
  .compound [.fixed 2, .fixed 7, .fixed 4, .fixed 1, .fixed 4, .fixed 1, .fixed 4, .fixed 4,
    .fixed 3, .fixed 2, .fixed 2, .repeated 4, .fixed 6, .fixed 1, .fixed 7, .fixed 7, .fixed 2,
    .fixed 7]

/-- The items of Edition 1.21 by FRN, with the layouts of MET and of MDC. -/
def layouts062 (met mdc : Layout) : List Layout :=
  [.fixed 2, .spare, .fixed 1, .fixed 3, .fixed 8, .fixed 6, .fixed 4, .fixed 2, .fixed 2,
    .fixed 7, layout380 met, .fixed 2, .extended 7,
    .compound [.fixed 1, .fixed 1, .fixed 1, .fixed 1, .fixed 2, .fixed 1, .fixed 1, .fixed 1,
      .fixed 1, .fixed 1],
    .fixed 1, .compound (List.replicate 31 (.fixed 1)), .fixed 2, .fixed 2, .fixed 2, .fixed 2,
    layout390, .extended 3, .fixed 1,
    .compound [.fixed 1, .fixed 4, .fixed 6, .fixed 2, .fixed 2, .fixed 1, .fixed 1], .fixed 2,
    .chained 2,
    .compound [.fixed 4, .fixed 2, .fixed 4, .fixed 1, .fixed 1, .fixed 2, .fixed 2, .fixed 1],
    .compound [.fixed 2, .fixed 4, .fixed 2, mdc, .fixed 2, .fixed 1],
    .spare, .spare, .spare, .spare, .spare, .explicit, .explicit]

/-- The layouts of the items of Edition 1.21, by FRN. -/
def uap062 : List Layout := layouts062 (.fixed 8) (.fixed 2)

/-- A record of CAT-062, and nothing behind it. -/
def Record062 (record : List UInt8) : Prop := Layout.compound uap062 record = some []

instance (record : List UInt8) : Decidable (Record062 record) :=
  inferInstanceAs (Decidable (_ = _))

/-- MET with its four values valid. -/
def fullMet : Layout := fun bytes =>
  if octetAt bytes 0 &&& 0xF1 = 0xF0 then Layout.fixed 8 bytes else none

/-- The layouts of the items that the decoder ends where the edition does: a MET is full, and
MDC is not there. -/
def handled062 : List Layout := layouts062 fullMet .spare

/-- A record of CAT-062 without MDC, whose MET is full. -/
def Handled062 (record : List UInt8) : Prop := Layout.compound handled062 record = some []

instance (record : List UInt8) : Decidable (Handled062 record) :=
  inferInstanceAs (Decidable (_ = _))

theorem fullMet_refines : fullMet.Refines (.fixed 8) := by
  intro bytes rest h
  rw [fullMet] at h
  split at h
  next => exact h
  next => cases h

variable {F}

@[simp] theorem follows_skipped (n : Nat) : Follows (skipped n) (.fixed n) := follows_fixed n _

@[simp] theorem follows_valued (n : Nat) (key : String) (value : List UInt8 → PyJson) :
    Follows (valued n key value) (.fixed n) := follows_fixed n _

/-- One octet that says it is the last. -/
@[simp] theorem follows_skipped_extended : Follows (skipped 1) (.extended 1) := by
  refine (follows_skipped 1).mono ?_
  intro bytes rest h
  obtain ⟨⟨found, after⟩, hchain, rfl⟩ := Option.map_eq_some_iff.mp h
  obtain ⟨octet, bytes', l, rfl, hl, hcases⟩ := chainOf_cases hchain
  obtain rfl := Nat.succ.inj hl
  rcases hcases with ⟨-, -, rfl⟩ | ⟨found', -, -, hnone⟩
  · rw [Layout.fixed, if_pos (by rw [length_cons]; omega)]
    rfl
  · cases hnone

theorem follows_extra {p : Reader Track Unit} {layout : Layout} (h : Follows p layout) :
    Follows (extra p) layout :=
  (h.nested PyDict.empty updateWith).attempt

/-! ## The decoder follows the layout -/

/-- A full MET begins with an octet that announces the four values and no other. -/
theorem flags_fullMet {b : UInt8} (h : b &&& 0xF1 = 0xF0) :
    more b = false ∧ (flagsOf b).take 4 = [true, true, true, true] := by
  have hall : ∀ n < 256, UInt8.ofNat n &&& 0xF1 = 0xF0 →
      more (UInt8.ofNat n) = false ∧
        (flagsOf (UInt8.ofNat n)).take 4 = [true, true, true, true] := by decide +kernel
  have hb := hall b.toNat b.toNat_lt
  rw [UInt8.ofNat_toNat] at hb
  exact hb h

theorem follows_met380 : Follows (met380 F) fullMet := by
  intro state bytes rest h
  rw [fullMet] at h
  split at h
  next hflags =>
    match bytes with
    | [] => cases h
    | b :: bytes =>
      have hfull : b &&& 0xF1 = 0xF0 := hflags
      obtain ⟨hmore, htake⟩ := flags_fullMet hfull
      have hvalues : Layout.present [.fixed 2, .fixed 2, .fixed 2, .fixed 1]
          [true, true, true, true] bytes = some rest := by
        rw [Layout.fixed] at h
        split at h
        next hle =>
          cases h
          rw [length_cons] at hle
          simp only [Layout.present, Layout.fixed]
          simp [show 2 ≤ bytes.length by omega, show 2 ≤ bytes.length - 2 by omega,
            show 2 ≤ bytes.length - 4 by omega, show 1 ≤ bytes.length - 6 by omega]
        next => cases h
      obtain ⟨state', hreads⟩ := follows_present
        (.cons (follows_valued 2 "wind_speed_kt" fun data => num (u16 data 0)) <|
          .cons (follows_valued 2 "wind_dir_deg" fun data => num (u16 data 0)) <|
          .cons (follows_valued 2 "temp_c" fun data => real (F.mul (s16 data 0) (1 / 4))) <|
          .cons (follows_valued 1 "turbulence" fun data => num (octetAt data 0).toNat) .nil)
        _ state bytes rest hvalues
      have hmap : chainOf 1 (b :: bytes) = some ([b], bytes) := by
        rw [chainOf, if_neg (by rw [hmore]; exact Bool.false_ne_true)]
      refine ⟨state', (readsFlags_presence (Nat.le_refl 1) state _ _ _ hmap).bind ?_⟩
      intro after
      rw [run_present_take]
      have hone : ([b].flatMap flagsOf).take 4 = [true, true, true, true] := by
        rw [flatMap_singleton, htake]
      exact hone ▸ hreads after
  next => cases h

theorem follows_subfields380 :
    List.Forall₂ Follows (subfields380 F) (layouts380 fullMet) := by
  simp [subfields380, layouts380, airspeed380, altitude380, verticalRate380, position380,
    follows_met380]

theorem follows_decode380 : Follows (decode380 F) (layout380 fullMet) :=
  follows_compound (readsFlags_presence (by decide)) follows_subfields380

theorem follows_decode390 : Follows (decode390 F) layout390 :=
  follows_compound (readsFlags_presence (by decide)) <| by
    simp [subfields390, ifps390, category390, runway390]

theorem follows_decode500 : Follows (decode500 F)
    (.compound [.fixed 4, .fixed 2, .fixed 4, .fixed 1, .fixed 1, .fixed 2, .fixed 2, .fixed 1]) :=
  follows_compound (readsFlags_presence (by decide)) <| by simp [subfields500]

/-- Without MDC. -/
theorem follows_decode340 : Follows (decode340 F)
    (.compound [.fixed 2, .fixed 4, .fixed 2, .spare, .fixed 2, .fixed 1]) :=
  follows_compound (readsFlags_presence (by decide)) <| by simp [subfields340]

theorem follows_item062_290 : Follows (item062_290 F)
    (.compound [.fixed 1, .fixed 1, .fixed 1, .fixed 1, .fixed 2, .fixed 1, .fixed 1, .fixed 1,
      .fixed 1, .fixed 1]) :=
  (follows_compound (readsFlags_presence (by decide)) <| by simp).attempt

/-- Items of one byte each, one for each name. -/
theorem follows_names {item : String → Reader Track Unit}
    (h : ∀ name, Follows (item name) (.fixed 1))
    (names : List String) :
    List.Forall₂ Follows (names.map item) (List.replicate names.length (.fixed 1)) := by
  induction names with
  | nil => exact .nil
  | cons name names ih => exact .cons (h name) ih

theorem follows_item062_295 :
    Follows (item062_295 F) (.compound (List.replicate 31 (.fixed 1))) :=
  ((follows_compound (readsFlags_presence (by decide))
    (follows_names (fun name => follows_valued 1 name _) names295)).apart _ _).attempt

theorem follows_item062_110 : Follows item062_110
    (.compound [.fixed 1, .fixed 4, .fixed 6, .fixed 2, .fixed 2, .fixed 1, .fixed 1]) :=
  (follows_compound (readsFlags_presence (by decide)) <| by simp).attempt

/-- Every branch of the decoder ends its item where the edition ends it, when MET is full and
MDC is not there. -/
theorem follows_items062 : List.Forall₂ Follows (items062 F) handled062 := by
  simp [items062, handled062, layouts062, item062_010, item062_015, item062_070, item062_105,
    item062_100, item062_185, item062_210, item062_060, item062_245, item062_380, item062_040,
    item062_080, item062_200, item062_136, item062_130, item062_135, item062_220, item062_390,
    item062_270, item062_300, item062_120, item062_510, item062_500, item062_340,
    follows_extra follows_decode380, follows_extra follows_decode390,
    follows_extra follows_decode500, follows_extra follows_decode340, follows_item062_290,
    follows_item062_295, follows_item062_110, -reduceReplicate]

/-! ## Records that store something -/

/-- The items that the decoder always stores something of, by FRN. -/
def storing062 : List Bool :=
  [true, false, true, true, true, true, true, true, true, true, false, true, true, false, true,
    false, true, true, true, true, false, true, true, false, true, false, false, false, false,
    false, false, false, false, false, false]

/-- A record with one of these items. -/
def Stores062 (record : List UInt8) : Prop :=
  (List.zipWith (· && ·) storing062 ((chain record).1.flatMap flagsOf)).any id = true

instance (record : List UInt8) : Decidable (Stores062 record) :=
  inferInstanceAs (Decidable (_ = _))

/-- A key that is not set at the start of a record. -/
def Stored (track : Track) : Prop :=
  ∃ key, key ≠ "_ts" ∧ key ≠ "_src" ∧ track.contains key = true

/-- What lasts when any key is written. -/
def Grows (P : Track → Prop) : Prop := ∀ track key value, P track → P (track.set key value)

theorem grows_contains (key : String) : Grows fun track => track.contains key = true := by
  intro track other value h
  rw [PyDict.contains_set, h, Bool.or_true]

theorem grows_stored : Grows Stored := by
  rintro track other value ⟨key, hts, hsrc, hkey⟩
  exact ⟨key, hts, hsrc, grows_contains key track other value hkey⟩

variable {P : Track → Prop} {track : Track} {key : String} {now : Rat} {record : List UInt8}

theorem Grows.updateWith (hP : Grows P) (out : Track) (h : P track) : P (updateWith out track) := by
  rw [Asterix.updateWith]
  generalize out.entries = entries
  induction entries generalizing track with
  | nil => exact h
  | cons entry entries ih => exact ih (hP track entry.1 entry.2 h)

theorem Grows.keeps_extra (hP : Grows P) (p : Reader Track Unit) :
    Keeps False P (extra p) :=
  ((keeps_true p).nested trivial fun out _ _ h => hP.updateWith out h).attempt

theorem Grows.keeps_items062 (hP : Grows P) :
    ∀ item ∈ items062 F, Keeps False P item := by
  have hunwatched : Unwatched P := fun track key value _ h => hP track key value h
  intro item hitem
  have hsplit : items062 F = (items062 F).take 9 ++ ([item062_245, item062_380 F, item062_040] ++
      (((items062 F).drop 12).take 8 ++ (item062_390 F :: (items062 F).drop 21))) := rfl
  rw [hsplit] at hitem
  rcases mem_append.mp hitem with hbefore | hitem
  · exact hunwatched.items062_before item hbefore
  rcases mem_append.mp hitem with hown | hitem
  · simp only [mem_cons, not_mem_nil, or_false] at hown
    rcases hown with rfl | rfl | rfl
    · exact keeps_fixed fun _ track h => hP track _ _ h
    · exact hP.keeps_extra _
    · exact keeps_fixed fun _ track h => hP track _ _ h
  rcases mem_append.mp hitem with hmiddle | hitem
  · exact hunwatched.items062_middle item hmiddle
  rcases mem_cons.mp hitem with rfl | hafter
  · exact hP.keeps_extra _
  · exact hunwatched.items062_after item hafter

theorem stored_set {value : PyJson} (hts : key ≠ "_ts") (hsrc : key ≠ "_src") :
    Stored (track.set key value) :=
  ⟨key, hts, hsrc, by rw [PyDict.contains_set, decide_eq_true rfl, Bool.true_or]⟩

theorem reaches_valued {n : Nat} {value : List UInt8 → PyJson} (hts : key ≠ "_ts")
    (hsrc : key ≠ "_src") : Reaches Stored (valued n key value) :=
  reaches_fixed fun _ _ => stored_set hts hsrc

theorem stored_setIf {condition : Bool} {value : PyJson} (h : Stored track) :
    Stored (setIf condition key value track) := by
  rw [setIf]
  split
  next => exact grows_stored _ _ _ h
  next => exact h

/-- An item that always stores something, in its last write. -/
theorem reaches_set {n : Nat} {value : List UInt8 → PyJson} {f : List UInt8 → Track → Track}
    (hts : key ≠ "_ts") (hsrc : key ≠ "_src") :
    Reaches Stored (.fixed n fun data track => (f data track).set key (value data)) :=
  reaches_fixed fun _ _ => stored_set hts hsrc

theorem reaches_setIf {n : Nat} {condition : List UInt8 → Bool} {value other : List UInt8 → PyJson}
    {optional : String} {f : List UInt8 → Track → Track} (hts : key ≠ "_ts") (hsrc : key ≠ "_src") :
    Reaches Stored (.fixed n fun data track =>
      setIf (condition data) optional (other data) ((f data track).set key (value data))) :=
  reaches_fixed fun _ _ => stored_setIf (stored_set hts hsrc)

theorem reaches_storing062 : List.Forall₂ (fun item stores => stores = true → Reaches Stored item)
    (items062 F) storing062 := by
  have h080 : Reaches Stored item062_080 :=
    reaches_extents (fun _ _ => stored_set (by decide) (by decide)) fun i b _ h =>
      Unwatched.octet062_080 (fun track key value _ h => grows_stored track key value h) i b h
  have h270 : Reaches Stored (item062_270 F) :=
    reaches_extents (fun _ _ => stored_set (by decide) (by decide)) fun i b _ h =>
      Unwatched.octet062_270 (fun track key value _ h => grows_stored track key value h) i b h
  simp [items062, storing062, item062_010, item062_015, item062_070, item062_105, item062_100,
    item062_185, item062_210, item062_060, item062_245, item062_040, item062_200, item062_136,
    item062_130, item062_135, item062_220, item062_300, item062_120, reaches_valued, reaches_set,
    reaches_setIf, h080, h270]

/-- A mark and a flag that are both set have an item. -/
theorem exists_marked {R : Reader Track Unit → Prop} {items : List (Reader Track Unit)}
    {marks : List Bool} (h : List.Forall₂ (fun item mark => mark = true → R item) items marks) :
    ∀ {flags : List Bool}, (List.zipWith (· && ·) marks flags).any id = true →
      ∃ entry ∈ items.zip flags, entry.2 = true ∧ R entry.1 := by
  induction h with
  | nil =>
    intro flags hany
    rw [zipWith_nil_left] at hany
    cases hany
  | @cons item mark items marks hitem _ ih =>
    intro flags hany
    match flags with
    | [] =>
      rw [zipWith_nil_right] at hany
      cases hany
    | flag :: flags =>
      rw [zipWith_cons_cons, any_cons, Bool.or_eq_true, id, Bool.and_eq_true] at hany
      rcases hany with ⟨hmark, hflag⟩ | hany
      · exact ⟨(item, flag), mem_cons_self .., hflag, hitem hmark⟩
      · obtain ⟨entry, hentry, hfound⟩ := ih hany
        exact ⟨entry, .tail _ hentry, hfound⟩

/-- Two keys of the start and one more. -/
theorem length_of_stored (hts : track.contains "_ts" = true) (hsrc : track.contains "_src" = true)
    (hstored : Stored track) : 2 < track.length := by
  obtain ⟨key, hneTs, hneSrc, hkey⟩ := hstored
  have hnodup : ["_ts", "_src", key].Nodup := by
    simp [hneTs.symm, hneSrc.symm]
  have hsubset : ["_ts", "_src", key] ⊆ track.entries.map Prod.fst := by
    intro k hk
    simp only [mem_cons, not_mem_nil, or_false] at hk
    rcases hk with rfl | rfl | rfl
    · exact PyDict.contains_iff.mp hts
    · exact PyDict.contains_iff.mp hsrc
    · exact PyDict.contains_iff.mp hkey
  have hle := (subperm_of_subset hnodup hsubset).length_le
  rw [length_map] at hle
  exact hle

/-! ## The decoder and the handler -/

/-- A record is decoded from its own bytes, and what follows it is left. -/
theorem decodeRecord062_append (h : Handled062 record) (after : List UInt8) :
    decodeRecord062 F now (record ++ after) =
      ((decodeRecord062 F now record).1, after) := by
  obtain ⟨track, halone, hreads⟩ :=
    reads_message (readsFlags_fspec _) follows_items062 (start062 now) h
  rw [decodeRecord062, decodeRecord062, hreads after, halone]

/-- A record that stores something passes the guard of the handler. -/
theorem length_of_stores062 (h : Handled062 record) (hstores : Stores062 record) :
    2 < (decodeRecord062 F now record).1.length := by
  obtain ⟨found, hfound, hrest⟩ := Option.bind_eq_some_iff.mp h
  have hmap : chain record = found := by
    have hchain : chain (record ++ []) = (found.1, found.2 ++ []) := chain_of_chainOf hfound
    rwa [append_nil, append_nil] at hchain
  rw [Stores062, hmap] at hstores
  have hboth : Grows fun track => track.contains "_ts" = true ∧ track.contains "_src" = true :=
    fun track key value h =>
      ⟨grows_contains "_ts" track key value h.1, grows_contains "_src" track key value h.2⟩
  have hkept := (keeps_compound keeps_fspec (hboth.keeps_items062 (F := F)))
    (start062 now) (record ++ []) ⟨rfl, rfl⟩
  obtain ⟨track, hreads, hstored⟩ := @reads_present_of_reaches _ Stored _ _
    (follows_items062 (F := F)) grows_stored.keeps_items062 _ (start062 now) _ _ hrest
    (.inr (exists_marked reaches_storing062 hstores))
  have hrun : (Reader.compound Reader.fspec (items062 F)).run (start062 now) (record ++ []) =
      .done () track [] := ((reads_fspec hfound).bind hreads) []
  rw [hrun] at hkept
  rw [append_nil] at hrun
  rw [decodeRecord062, hrun]
  exact length_of_stored hkept.1 hkept.2 hstored

theorem layouts380_refines {met met' : Layout} (h : met.Refines met') :
    List.Forall₂ Layout.Refines (layouts380 met) (layouts380 met') := by
  simp [layouts380, h]

theorem layouts062_refines {met met' mdc mdc' : Layout} (hmet : met.Refines met')
    (hmdc : mdc.Refines mdc') :
    List.Forall₂ Layout.Refines (layouts062 met mdc) (layouts062 met' mdc') := by
  have h340 : Layout.Refines (.compound [.fixed 2, .fixed 4, .fixed 2, mdc, .fixed 2, .fixed 1])
      (.compound [.fixed 2, .fixed 4, .fixed 2, mdc', .fixed 2, .fixed 1]) :=
    .compound (by simp [hmdc])
  simp [layouts062, layout380, Layout.Refines.compound (layouts380_refines hmet), h340]

theorem record062_of_handled (h : Handled062 record) : Record062 record :=
  Layout.Refines.compound
    (layouts062_refines fullMet_refines fun _ _ hspare => by cases hspare) record [] h

theorem decodeCat62Record_append (h : Handled062 record) (before after : List UInt8) :
    decodeCat62Record F now (before ++ (record ++ after)) before.length =
      ((decodeCat62Record F now record 0).1, before.length + record.length) :=
  decodeAt_append (decodeRecord062_append h after)

/-- Records that fit are the payloads of blocks of the category. -/
theorem exists_natives : ∀ {rs : List (List UInt8)}, (∀ r ∈ rs, 3 + r.length ≤ 0xFFFF) →
    ∃ natives : List Block, natives.map Block.payload = rs ∧
      ∀ native ∈ natives, native.category = 62
  | [], _ => ⟨[], rfl, nofun⟩
  | r :: rs, h => by
    obtain ⟨natives, hpayloads, hcategory⟩ :=
      exists_natives fun s hs => h s (.tail _ hs)
    refine ⟨⟨62, r, h r (.head _)⟩ :: natives, congrArg (r :: ·) hpayloads, ?_⟩
    intro native hnative
    rcases mem_cons.mp hnative with rfl | hnative
    · rfl
    · exact hcategory native hnative

end Efdi.Asterix

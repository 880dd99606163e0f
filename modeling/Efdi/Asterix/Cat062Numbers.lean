import Efdi.Asterix.Cat062Cuts
import Efdi.Tracks.RadarCache

/-!
# Track numbers of CAT-062

I062/040 has sixteen bits, and the decoder keeps twelve of them.  A system track without an
aircraft address, a callsign and a flight plan is known by its number alone, so two such tracks
of one source are told apart exactly when their numbers differ in the lower twelve bits
(`told_apart_iff`).  I062/380 comes before the number, so a MET that is not full moves it, and such
records are left out.
-/

namespace Efdi.Asterix

open Reading Tracks List PyDict

variable {F : FloatMath} {py : PyText}

/-! ## Records without other names -/

/-- I062/380 without ADR and ID. -/
def anonymous380 (met : Layout) : Layout :=
  .compound (((layouts380 met).set 0 .spare).set 1 .spare)

/-- The items of a record without an aircraft address, a callsign and a flight plan, with the
layout of MET. -/
def anonymous062 (met : Layout) : List Layout :=
  (((layouts062 met (.fixed 2)).set 9 .spare).set 10 (anonymous380 met)).set 20 .spare

/-- A record of CAT-062 without an aircraft address, a callsign and a flight plan. -/
def Anonymous062 (record : List UInt8) : Prop :=
  Layout.compound (anonymous062 (.fixed 8)) record = some []

/-- Such a record, whose MET is full. -/
def FullAnonymous062 (record : List UInt8) : Prop :=
  Layout.compound (anonymous062 fullMet) record = some []

instance (record : List UInt8) : Decidable (Anonymous062 record) :=
  inferInstanceAs (Decidable (_ = _))

instance (record : List UInt8) : Decidable (FullAnonymous062 record) :=
  inferInstanceAs (Decidable (_ = _))

/-- The track number of a record, I062/040. -/
def trackNumber062 (record : List UInt8) : Option Nat :=
  (chainOf 5 record).bind fun found =>
    (Layout.itemAt 11 uap062 (found.1.flatMap flagsOf) found.2).map fun here => u16 here 0

theorem spare_refines (layout : Layout) : Layout.Refines .spare layout := by
  intro bytes rest h
  cases h

theorem anonymous380_refines {met met' : Layout} (h : met.Refines met') :
    (anonymous380 met).Refines (anonymous380 met') := by
  have hrefl := Layout.Refines.refl
  exact .compound <| .cons (hrefl _) <| .cons (hrefl _) <|
    forall₂_drop 2 (layouts380_refines h)

theorem anonymous062_refines {met met' : Layout} (h : met.Refines met') :
    List.Forall₂ Layout.Refines (anonymous062 met) (anonymous062 met') := by
  have hall := layouts062_refines h (Layout.Refines.refl (.fixed 2))
  have hrefl := Layout.Refines.refl
  exact rel_append (forall₂_take 9 hall) <| .cons (hrefl _) <|
    .cons (anonymous380_refines h) <|
    rel_append (forall₂_take 9 (forall₂_drop 11 hall)) <|
    .cons (hrefl _) (forall₂_drop 21 hall)

/-- Records without names are records of the edition. -/
theorem anonymous062_refines_uap : List.Forall₂ Layout.Refines (anonymous062 (.fixed 8)) uap062 := by
  have hall := Layout.Refines.refl_all uap062
  have hinner := Layout.Refines.refl_all (layouts380 (.fixed 8))
  have h380 : (anonymous380 (.fixed 8)).Refines (layout380 (.fixed 8)) :=
    .compound <| .cons (spare_refines _) <| .cons (spare_refines _) <| forall₂_drop 2 hinner
  exact rel_append (forall₂_take 9 hall) <| .cons (spare_refines _) <| .cons h380 <|
    rel_append (forall₂_take 9 (forall₂_drop 11 hall)) <|
    .cons (spare_refines _) (forall₂_drop 21 hall)

/-! ## What the decoder stores -/

section

variable {P : Track → Prop} (hP : Unwatched P)

include hP

theorem turns_item062_380 : Turns P (item062_380 F) (anonymous380 fullMet) := by
  have hrest : List.Forall₂ (Turns Nameless) ((subfields380 F).drop 2)
      ((layouts380 fullMet).drop 2) :=
    turns_all (forall₂_drop 2 follows_subfields380) unwatched_nameless.subfields380
  have hall : Turns Nameless (decode380 F) (anonymous380 fullMet) :=
    turns_compound (readsFlags_presence (by decide))
      (.cons (turns_spare _) (.cons (turns_spare _) hrest))
  exact (hall.nested nameless_empty fun _ _ hout hstate => hP.updateWith hout hstate).attempt

/-- The items before I062/040. -/
theorem turns_before : List.Forall₂ (Turns P) ((items062 F).take 11)
    ((anonymous062 fullMet).take 11) := by
  have hkeeps : ∀ item ∈ (items062 F).take 9, Keeps False P item := hP.items062_before
  have hfirst : List.Forall₂ (Turns P) ((items062 F).take 9) (handled062.take 9) :=
    turns_all (forall₂_take 9 follows_items062) hkeeps
  exact rel_append hfirst (.cons (turns_spare _) (.cons (turns_item062_380 hP) .nil))

/-- The items behind I062/040. -/
theorem keeps_behind : List.Forall₂
    (fun item layout => layout = Layout.spare ∨ Keeps False P item)
    ((items062 F).drop 12) ((anonymous062 fullMet).drop 12) := by
  have hmiddle : ∀ item ∈ ((items062 F).drop 12).take 8, Keeps False P item :=
    hP.items062_middle
  have hafter : ∀ item ∈ (items062 F).drop 21, Keeps False P item := hP.items062_after
  have hlength : (((items062 F).drop 12).take 8).length =
      (((anonymous062 fullMet).drop 12).take 8).length := rfl
  have hlength' : ((items062 F).drop 21).length = ((anonymous062 fullMet).drop 21).length := rfl
  exact rel_append (spare_or_keeps hlength hmiddle)
    (.cons (.inl rfl) (spare_or_keeps hlength' hafter))

end

/-- What holds of the decoder's state at the end of a record holds of the track. -/
theorem decodeRecord062_all {P : Track → Prop} {now : Rat} {data : List UInt8}
    (h : ((Reader.compound .fspec (items062 F)).run (start062 now) data).All False P) :
    P (decodeRecord062 F now data).1 := by
  rw [decodeRecord062]
  split
  next hrun =>
    rw [hrun] at h
    exact h
  next hrun =>
    rw [hrun] at h
    exact h
  next hrun =>
    rw [hrun] at h
    exact h.elim

/-- Only the number is written of what tells objects apart. -/
def OnlyNumber (track : Track) : Prop :=
  ∀ key ∈ watched, key ≠ "track_num" → track.get? key = none

theorem unwatched_onlyNumber : Unwatched OnlyNumber := by
  intro track key value hkey h other hother hne
  have hother' : other ≠ key := fun heq => hkey (heq ▸ hother)
  rw [get?_set_of_ne _ hother']
  exact h other hother hne

theorem onlyNumber_start062 (now : Rat) : OnlyNumber (start062 now) := by
  intro key hkey _
  have hts : key ≠ "_ts" := fun heq => absurd (heq ▸ hkey) (by decide)
  have hsrc : key ≠ "_src" := fun heq => absurd (heq ▸ hkey) (by decide)
  rw [start062, get?_set_of_ne _ hsrc, get?_set_of_ne _ hts]
  rfl

theorem onlyNumber_decoded {now : Rat} {record : List UInt8} (h : FullAnonymous062 record)
    (after : List UInt8) : OnlyNumber (decodeRecord062 F now (record ++ after)).1 := by
  obtain ⟨⟨found, bytes⟩, hfound, hrest⟩ := Option.bind_eq_some_iff.mp h
  have hfirst : List.Forall₂ (Turns OnlyNumber) ((items062 F).take 12)
      ((anonymous062 fullMet).take 12) := by
    refine rel_append (turns_before unwatched_onlyNumber) (.cons ?_ .nil)
    have hkeeps : Keeps False OnlyNumber item062_040 := by
      refine keeps_fixed fun data track htrack key hkey hne => ?_
      rw [get?_set_of_ne _ hne]
      exact htrack key hkey hne
    exact (follows_valued 2 "track_num" _).turns hkeeps
  apply decodeRecord062_all
  rw [Reader.compound, Reader.run_bind, reads_fspec hfound after]
  exact all_present hfirst (keeps_behind unwatched_onlyNumber) hrest (onlyNumber_start062 now)

/-- The number that the decoder keeps of I062/040. -/
def HasNumber (n : Nat) (track : Track) : Prop :=
  track.get? "track_num" = some (num (n &&& 0x0FFF))

theorem unwatched_hasNumber (n : Nat) : Unwatched (HasNumber n) := by
  intro track key value hkey htrack
  have hne : "track_num" ≠ key := fun heq => hkey (heq ▸ by decide)
  rw [HasNumber, get?_set_of_ne _ hne]
  exact htrack

/-- The item is read from its own two octets. -/
theorem hasNumber_item062_040 {here rest : List UInt8} (h : Layout.fixed 2 here = some rest)
    (state : Track) (after : List UInt8) :
    (item062_040.run state (here ++ after)).All False (HasNumber (u16 here 0)) := by
  rw [Layout.fixed] at h
  split at h
  next hle =>
    have hread : item062_040.run state (here ++ after) =
        .done () (state.set "track_num" (num (u16 (here.take 2) 0 &&& 0x0FFF)))
          (here.drop 2 ++ after) := ((reads_take hle).bind (reads_update _)) after
    have hnum : u16 (here.take 2) 0 = u16 here 0 := by
      rw [u16, u16, slice, slice, take_take]
      rfl
    rw [hread, hnum]
    exact get?_set_self _ _ _
  next => cases h

theorem hasNumber_decoded {now : Rat} {record : List UInt8} {n : Nat}
    (h : FullAnonymous062 record) (hn : trackNumber062 record = some n) (after : List UInt8) :
    HasNumber n (decodeRecord062 F now (record ++ after)).1 := by
  obtain ⟨⟨found, bytes⟩, hfound, hrest⟩ := Option.bind_eq_some_iff.mp h
  obtain ⟨⟨found', bytes'⟩, hfound', hhere⟩ := Option.bind_eq_some_iff.mp hn
  have hsame : some (found, bytes) = some (found', bytes') := hfound.symm.trans hfound'
  obtain ⟨rfl, rfl⟩ := Prod.mk.inj (Option.some.inj hsame)
  obtain ⟨here, hitem, rfl⟩ := Option.map_eq_some_iff.mp hhere
  have hrefines := anonymous062_refines fullMet_refines
  have hat : Layout.itemAt 11 (anonymous062 fullMet) (found.flatMap flagsOf) bytes = some here :=
    Layout.Refines.itemAt hrefines hrest <|
      Layout.Refines.itemAt anonymous062_refines_uap
        (Layout.Refines.present hrefines _ _ _ hrest) hitem
  have htrue : Unwatched fun _ : Track => True := fun _ _ _ _ h => h
  apply decodeRecord062_all
  rw [Reader.compound, Reader.run_bind, reads_fspec hfound after]
  exact all_present_at (turns_before htrue)
    (fun state _ hfixed => hasNumber_item062_040 hfixed state after)
    (keeps_behind (unwatched_hasNumber _)) hrest hat

/-! ## Keys of tracks with a number only -/

section

variable {track : Track} {n : Nat}

/-- How a track is called that has nothing but a number. -/
def numberName (n : Nat) : String :=
  if n &&& 0x0FFF = 0 then "unknown" else toString ((n &&& 0x0FFF : Nat) : Int)

/-- The only identity that is tried. -/
theorem find_number {keys : List String} {test : PyJson → Bool} (hkeys : ∀ key ∈ keys, key ∈ watched)
    (hmem : "track_num" ∈ keys) (hnone : OnlyNumber track) (hn : HasNumber n track) :
    (keys.filterMap track.get?).find? test =
      if test (num (n &&& 0x0FFF)) then some (num (n &&& 0x0FFF)) else none := by
  have hvalue : ∀ value ∈ keys.filterMap track.get?, value = num (n &&& 0x0FFF) := by
    intro value hvalue
    obtain ⟨key, hkey, hget⟩ := mem_filterMap.mp hvalue
    by_cases hnumber : key = "track_num"
    · rw [hnumber, show track.get? "track_num" = some (num (n &&& 0x0FFF)) from hn] at hget
      exact (Option.some.inj hget).symm
    · rw [hnone key (hkeys key hkey) hnumber] at hget
      cases hget
  have hfound : num (n &&& 0x0FFF) ∈ keys.filterMap track.get? :=
    mem_filterMap.mpr ⟨"track_num", hmem, hn⟩
  split
  next htest =>
    cases hlist : keys.filterMap track.get? with
    | nil =>
      rw [hlist] at hfound
      cases hfound
    | cons value values =>
      have hhead := hvalue value (hlist ▸ mem_cons_self ..)
      rw [find?_cons_of_pos (hhead ▸ htest), hhead]
  next htest =>
    refine find?_eq_none.mpr fun value hmem => ?_
    rw [hvalue value hmem]
    exact htest

theorem objectId_of_number (hnone : OnlyNumber track) (hn : HasNumber n track) :
    objectId py track = numberName n := by
  have hlt : n &&& 0x0FFF < 10 ^ 64 := Nat.lt_of_le_of_lt Nat.and_le_right (by decide)
  rw [objectId, firstSlug, find_number (by decide) (by decide) hnone hn, numberName]
  by_cases hzero : n &&& 0x0FFF = 0
  · rw [if_pos hzero, hzero]
    rfl
  · have htest : namesObject (num (n &&& 0x0FFF)) = true := bne_iff_ne.mpr (by omega)
    rw [if_neg hzero, if_pos htest]
    exact slugText_number hlt

theorem uidOf_of_number (hnone : OnlyNumber track) (hn : HasNumber n track) :
    uidOf py track = numberName n := by
  rw [uidOf, find_number (by decide) (by decide) hnone hn, numberName]
  by_cases hzero : n &&& 0x0FFF = 0
  · rw [if_pos hzero, hzero]
    rfl
  · have htest : truthy (num (n &&& 0x0FFF)) = true := bne_iff_ne.mpr (by omega)
    rw [if_neg hzero, if_pos htest]
    rfl

end

theorem numberName_inj {n n' : Nat} (h : numberName n = numberName n') :
    n &&& 0x0FFF = n' &&& 0x0FFF := by
  have hunknown : ∀ m : Nat, "unknown" ≠ toString (m : Int) := by
    intro m heq
    have hmem : 'u' ∈ (toString (m : Int)).toList := heq ▸ by decide
    rw [toList_toString_nat] at hmem
    exact absurd (Nat.isDigit_of_mem_toDigits (by decide) (by decide) hmem) (by decide)
  rw [numberName, numberName] at h
  split at h
  next hzero =>
    split at h
    next hzero' => rw [hzero, hzero']
    next => exact absurd h (hunknown _)
  next =>
    split at h
    next => exact absurd h.symm (hunknown _)
    next => exact toString_nat_inj h

/-- Two system tracks are told apart. -/
structure ToldApart (py : PyText) (track track' : Track) : Prop where
  trackNum : track.get? "track_num" ≠ track'.get? "track_num"
  objectKey : ∀ topic topic', semanticTopic py topic track ≠ semanticTopic py topic' track'
  cacheEntry : uidOf py track ≠ uidOf py track'

/-- Two records without an address, a callsign and a flight plan, each anywhere in a data block,
are told apart exactly when their numbers differ in the lower twelve bits. -/
theorem told_apart_iff (py : PyText) (F : FloatMath) {record record' : List UInt8} {n n' : Nat}
    (h : FullAnonymous062 record) (h' : FullAnonymous062 record')
    (hn : trackNumber062 record = some n) (hn' : trackNumber062 record' = some n')
    (now now' : Rat) (before after before' after' : List UInt8) :
    ToldApart py (decodeCat62Record F now (before ++ (record ++ after)) before.length).1
      (decodeCat62Record F now' (before' ++ (record' ++ after')) before'.length).1 ↔
    n % 4096 ≠ n' % 4096 := by
  have hmask : ∀ m : Nat, m &&& 0x0FFF = m % 4096 := fun m => Nat.and_two_pow_sub_one_eq_mod m 12
  rw [decodeCat62Record, decodeCat62Record, decodeAt, decodeAt, List.drop_left, List.drop_left]
  dsimp only
  have hnum : HasNumber n (decodeRecord062 F now (record ++ after)).1 :=
    hasNumber_decoded h hn after
  have hnum' : HasNumber n' (decodeRecord062 F now' (record' ++ after')).1 :=
    hasNumber_decoded h' hn' after'
  have honly : OnlyNumber (decodeRecord062 F now (record ++ after)).1 := onlyNumber_decoded h after
  have honly' : OnlyNumber (decodeRecord062 F now' (record' ++ after')).1 :=
    onlyNumber_decoded h' after'
  rw [HasNumber] at hnum
  constructor
  · intro hapart hsame
    apply hapart.trackNum
    rw [hnum, hnum', hmask, hmask, hsame]
  · intro hne
    have hname : numberName n ≠ numberName n' := by
      intro hname
      rw [← hmask, ← hmask] at hne
      exact hne (numberName_inj hname)
    constructor
    case trackNum =>
      intro hsame
      rw [hnum, hnum', hmask, hmask] at hsame
      exact hne (Int.ofNat.inj (PyJson.int.inj (Option.some.inj hsame)))
    case objectKey =>
      intro topic topic' hkey
      have hid := congrArg lastSegment hkey
      rw [lastSegment_semanticTopic, lastSegment_semanticTopic, objectId_of_number honly hnum,
        objectId_of_number honly' hnum'] at hid
      exact hname hid
    case cacheEntry =>
      rw [uidOf_of_number honly hnum, uidOf_of_number honly' hnum']
      exact hname

/-- Two records of one source, with the numbers 7 and 8. -/
theorem told_apart_iff_two_records :
    uidOf Tracks.asciiText (decodeCat62Record exactMath 0 [0x81, 0x08, 25, 201, 0, 7] 0).1 ≠
      uidOf Tracks.asciiText (decodeCat62Record exactMath 0 [0x81, 0x08, 25, 201, 0, 8] 0).1 := by
  have hfull : FullAnonymous062 [0x81, 0x08, 25, 201, 0, 7] := by decide +kernel
  have hfull' : FullAnonymous062 [0x81, 0x08, 25, 201, 0, 8] := by decide +kernel
  have hn : trackNumber062 [0x81, 0x08, 25, 201, 0, 7] = some 7 := by decide +kernel
  have hn' : trackNumber062 [0x81, 0x08, 25, 201, 0, 8] = some 8 := by decide +kernel
  have hapart := (told_apart_iff Tracks.asciiText exactMath hfull hfull' hn hn' 0 0 [] [] [] []).mpr
    (by decide)
  exact hapart.cacheEntry

/-- The numbers 7 and 4103 of one source have one object key and one cache entry. -/
theorem not_told_apart :
    Anonymous062 [0x81, 0x08, 25, 201, 0, 7] ∧ Anonymous062 [0x81, 0x08, 25, 201, 0x10, 7] ∧
    trackNumber062 [0x81, 0x08, 25, 201, 0, 7] = some 7 ∧
    trackNumber062 [0x81, 0x08, 25, 201, 0x10, 7] = some 4103 ∧
    (let track := (decodeCat62Record exactMath 0 [0x81, 0x08, 25, 201, 0, 7] 0).1
     let track' := (decodeCat62Record exactMath 0 [0x81, 0x08, 25, 201, 0x10, 7] 0).1
     semanticTopic Tracks.asciiText (topic062 "efdi" track) track =
        semanticTopic Tracks.asciiText (topic062 "efdi" track') track' ∧
      uidOf Tracks.asciiText track = uidOf Tracks.asciiText track' ∧
      ¬ ToldApart Tracks.asciiText track track') := by
  refine ⟨by decide +kernel, by decide +kernel, by decide +kernel, by decide +kernel,
    by decide +kernel, by decide +kernel, fun hapart => hapart.cacheEntry (by decide +kernel)⟩

end Efdi.Asterix

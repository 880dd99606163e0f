import Efdi.Asterix.Cat062
import Efdi.Asterix.Written

/-!
# What CAT-062 items write

Most items leave the keys alone that `object_id` and `object_type` read (`watched`).  What is
said about every other key of the track here says nothing about its value, only that it is not
one of these.
-/

namespace Efdi.Asterix

open Reading Tracks List

variable {F : FloatMath}

/-- The keys that `object_id` and `object_type` read. -/
def watched : List String := idKeys ++ typeKeys

/-- A property of tracks that lasts when other keys are written. -/
def Unwatched (P : Track → Prop) : Prop :=
  ∀ track key value, key ∉ watched → P track → P (track.set key value)

/-- A track without watched keys. -/
def Nameless (track : Track) : Prop := ∀ key ∈ watched, track.get? key = none

theorem unwatched_nameless : Unwatched Nameless := outside_without watched

theorem nameless_empty : Nameless PyDict.empty := without_empty watched

theorem keeps_skipped {raised : Prop} {P : Track → Prop} (n : Nat) : Keeps raised P (skipped n) :=
  keeps_fixed fun _ _ h => h

namespace Unwatched

variable {P : Track → Prop} (hP : Unwatched P) {track : Track}

include hP

theorem setIf {condition : Bool} {key : String} {value : PyJson} (hkey : key ∉ watched)
    (h : P track) : P (setIf condition key value track) := Outside.setIf hP hkey h

theorem setFlags {octet : UInt8} {flags : List (UInt8 × String)}
    (hkeys : ∀ entry ∈ flags, entry.2 ∉ watched) (h : P track) : P (setFlags octet flags track) :=
  Outside.setFlags hP hkeys h

theorem setDefault {key : String} {value : PyJson} (hkey : key ∉ watched) (h : P track) :
    P (track.setDefault key value) := Outside.setDefault hP hkey h

theorem updateWith {out : Track} (hout : Nameless out) (h : P track) : P (updateWith out track) :=
  Outside.updateWith hP hout h

theorem decodeMb (group : List UInt8) (h : P track) : P (decodeMb F group track) :=
  Outside.decodeMb hP (by decide) group h

/-! ## Subfields -/

variable {raised : Prop}

theorem valued {n : Nat} {key : String} {value : List UInt8 → PyJson} (hkey : key ∉ watched) :
    Keeps raised P (valued n key value) := Outside.keeps_set hP hkey

/-- A nested item whose track has no watched keys. -/
theorem extra {p : Reader Track Unit} (h : Keeps True Nameless p) : Keeps raised P (extra p) :=
  (h.nested nameless_empty fun _ _ hout hstate => hP.updateWith hout hstate).attempt

theorem airspeed380 : Keeps raised P (airspeed380 F) := by
  refine keeps_fixed fun data out h => ?_
  dsimp only
  split
  next => exact hP _ _ _ (by decide) h
  next => exact hP _ _ _ (by decide) h

theorem met380 : Keeps True P (met380 F) := by
  refine keeps_compound (keeps_presence 1) ?_
  simp only [forall_mem_cons]
  exact ⟨hP.valued (by decide), hP.valued (by decide), hP.valued (by decide), hP.valued (by decide),
    nofun⟩

theorem position380 : Keeps raised P (position380 F) :=
  Outside.keeps_set_set hP (by decide) (by decide)

/-- The subfields of I062/380 behind ADR and ID. -/
theorem subfields380 : ∀ item ∈ (subfields380 F).drop 2, Keeps True P item := by
  simp only [Asterix.subfields380, drop_succ_cons, drop_zero, forall_mem_cons]
  exact ⟨hP.valued (by decide), hP.airspeed380, hP.valued (by decide), hP.valued (by decide),
    hP.valued (by decide), keeps_skipped 1, keeps_countedBlock fun _ _ _ h => h, keeps_skipped 2,
    keeps_skipped 2, keeps_skipped 7, hP.valued (by decide), hP.valued (by decide),
    hP.valued (by decide), hP.valued (by decide), hP.valued (by decide), hP.valued (by decide),
    keeps_skipped 1, hP.met380, hP.valued (by decide), hP.position380, hP.valued (by decide),
    keeps_skipped 1, keeps_counted fun group _ h => hP.decodeMb group h, hP.valued (by decide),
    hP.valued (by decide), hP.valued (by decide), nofun⟩

theorem decode500 : Keeps True P (decode500 F) := by
  refine keeps_compound (keeps_presence 2) ?_
  simp only [subfields500, forall_mem_cons]
  exact ⟨Outside.keeps_set_set hP (by decide) (by decide), keeps_skipped 2,
    keeps_skipped 4, hP.valued (by decide), hP.valued (by decide), keeps_skipped 2, keeps_skipped 2,
    keeps_skipped 1, nofun⟩

theorem decode340 : Keeps True P (decode340 F) := by
  refine keeps_compound (keeps_presence 1) ?_
  simp only [subfields340, forall_mem_cons]
  exact ⟨hP.valued (by decide),
    Outside.keeps_set_set hP (by decide) (by decide), hP.valued (by decide),
    keeps_skipped 4, hP.valued (by decide), keeps_skipped 1, nofun⟩

/-! ## Items -/

theorem item062_010 : Keeps raised P item062_010 :=
  Outside.keeps_set_set hP (by decide) (by decide)

theorem item062_105 : Keeps raised P (item062_105 F) :=
  Outside.keeps_set_set hP (by decide) (by decide)

theorem item062_100 : Keeps raised P (item062_100 F) :=
  Outside.keeps_set_set hP (by decide) (by decide)

theorem item062_185 : Keeps raised P (item062_185 F) :=
  keeps_fixed fun _ _ h => hP.setIf (by decide) (hP _ _ _ (by decide)
    (hP _ _ _ (by decide) (hP _ _ _ (by decide) h)))

theorem item062_210 : Keeps raised P (item062_210 F) :=
  Outside.keeps_set_set hP (by decide) (by decide)

theorem octet062_080 (i : Nat) (b : UInt8) (h : P track) : P (octet062_080 i b track) := by
  match i with
  | 0 => exact hP _ _ _ (by decide) (hP _ _ _ (by decide) h)
  | 1 => exact hP.setFlags (by decide) h
  | 2 => exact hP.setFlags (by decide) h
  | 3 => exact hP.setFlags (by decide) h
  | 4 =>
    rw [Asterix.octet062_080]
    dsimp only
    split
    next => exact h
    next =>
      split
      next => exact hP.setDefault (by decide) (hP.setDefault (by decide) h)
      next => exact hP.setDefault (by decide) h
  | _ + 5 => exact h

theorem item062_080 : Keeps raised P item062_080 :=
  keeps_extents fun i b _ h => hP.octet062_080 i b h

theorem item062_290 : Keeps raised P (item062_290 F) := by
  refine (keeps_compound (keeps_presence 2) fun item hitem => ?_).attempt
  simp only [map_cons, map_nil, mem_cons, not_mem_nil, or_false] at hitem
  rcases hitem with rfl | rfl | rfl | rfl | rfl | rfl | rfl | rfl | rfl | rfl <;>
    exact hP.valued (by decide)

theorem item062_200 : Keeps raised P item062_200 :=
  keeps_fixed fun _ _ h => hP.setIf (by decide) (hP _ _ _ (by decide)
    (hP _ _ _ (by decide) (hP _ _ _ (by decide) h)))

/-- The ages go into a dict of their own. -/
theorem item062_295 : Keeps raised P (item062_295 F) := by
  have htrue : Keeps True (fun _ : Track => True) (.compound (.presence 5)
      (names295.map fun name =>
        Asterix.valued 1 name fun data => real (F.mul (octetAt data 0).toNat (1 / 4)))) :=
    keeps_compound (keeps_presence 5) fun item hitem => by
      obtain ⟨name, -, rfl⟩ := mem_map.mp hitem
      exact keeps_fixed fun _ _ _ => trivial
  exact (htrue.apart trivial fun _ _ _ h => hP.setIf (by decide) h).attempt

theorem item062_135 : Keeps raised P item062_135 :=
  Outside.keeps_set_set hP (by decide) (by decide)

theorem octet062_270 (i : Nat) (b : UInt8) (h : P track) : P (octet062_270 F i b track) := by
  match i with
  | 0 => exact hP _ _ _ (by decide) h
  | 1 => exact hP _ _ _ (by decide) h
  | 2 => exact hP _ _ _ (by decide) h
  | _ + 3 => exact h

theorem item062_270 : Keeps raised P (item062_270 F) :=
  keeps_extents fun i b _ h => hP.octet062_270 i b h

theorem item062_110 : Keeps raised P item062_110 := by
  refine (keeps_compound (keeps_presence 1) ?_).attempt
  simp only [forall_mem_cons]
  exact ⟨keeps_skipped 1, keeps_skipped 4, keeps_skipped 6, keeps_skipped 2, hP.valued (by decide),
    keeps_skipped 1, keeps_skipped 1, nofun⟩

/-- The items before I062/245. -/
theorem items062_before : ∀ item ∈ (items062 F).take 9, Keeps raised P item := by
  simp only [items062, take_succ_cons, take_zero,
    forall_mem_cons]
  exact ⟨hP.item062_010, keeps_pure (), hP.valued (by decide), hP.valued (by decide),
    hP.item062_105, hP.item062_100, hP.item062_185, hP.item062_210, hP.valued (by decide), nofun⟩

/-- The items from I062/080 to I062/220. -/
theorem items062_middle : ∀ item ∈ ((items062 F).drop 12).take 8, Keeps raised P item := by
  simp only [items062, drop_succ_cons, drop_zero, take_succ_cons, take_zero,
    forall_mem_cons]
  exact ⟨hP.item062_080, hP.item062_290, hP.item062_200, hP.item062_295, hP.valued (by decide),
    hP.valued (by decide), hP.item062_135, hP.valued (by decide), nofun⟩

/-- The items behind I062/390. -/
theorem items062_after : ∀ item ∈ (items062 F).drop 21, Keeps raised P item := by
  simp only [items062, drop_succ_cons, drop_zero, forall_mem_cons]
  exact ⟨hP.item062_270, hP.valued (by decide), hP.item062_110, hP.valued (by decide),
    keeps_groupChain fun _ _ h => h, hP.extra (unwatched_nameless.decode500),
    hP.extra (unwatched_nameless.decode340), keeps_pure (), keeps_pure (), keeps_pure (),
    keeps_pure (), keeps_pure (), keeps_skipExplicit, keeps_skipExplicit, nofun⟩

end Unwatched

end Efdi.Asterix

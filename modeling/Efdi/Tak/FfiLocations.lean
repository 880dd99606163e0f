import Efdi.Base.Decimal
import Efdi.Tak.CotEvents

/-!
# Locations of the FFI feed

`_ffi_location` writes a position as whole degrees and minutes with three decimals, each with the
letter of its hemisphere.  `_coordinate` reads a coordinate back.

*A slip.*  The degrees are cut off before the minutes are rounded.  Minutes from 59.9995 on are
written as `60.000`, which are no minutes of a position (`exact_iff`).  They are still read back as
the coordinate, within half a thousandth of a minute.
-/

namespace Efdi.Tak.Ffi

open Cot (Element)
open Decimal List

/-! ## Writing -/

/-- What is written of one of the two coordinates. -/
structure Axis where
  name : String
  hemisphere : String
  width : Nat
  positive : String
  negative : String
  limit : Nat
  letters : (positive ∈ ["N", "S", "E", "W"] ∧ negative ∈ ["N", "S", "E", "W"]) ∧
    positive ≠ negative

/-- The latitude. -/
def latitude : Axis := ⟨"Latitude", "LatitudinalHemisphere", 2, "N", "S", 90, by decide⟩

/-- The longitude. -/
def longitude : Axis :=
  ⟨"Longitude", "LongitudinalHemisphere", 3, "E", "W", 180, by decide⟩

/-- `divmod(abs(value) * 60.0, 60.0)`. -/
def degreesAndMinutes (value : Rat) : Nat × Rat :=
  let total := |value| * 60
  let degrees := ⌊total / 60⌋
  (degrees.toNat, total - degrees * 60)

/-- The whole degrees. -/
def degrees (value : Rat) : Nat := (degreesAndMinutes value).1

/-- The minutes that are left. -/
def minutes (value : Rat) : Rat := (degreesAndMinutes value).2

/-- The minutes in thousandths, as they are rounded. -/
def thousandths (value : Rat) : Nat := (roundHalfEven (minutes value * 1000)).toNat

/-- `part`. -/
def part (value : Rat) (width : Nat) : String × String :=
  (String.ofList (padded width (degrees value)),
    String.ofList (zeroFill 6 (fixed 3 (thousandths value))))

/-- The letter of the hemisphere. -/
def Axis.letter (axis : Axis) (value : Rat) : String :=
  if 0 ≤ value then axis.positive else axis.negative

/-- `_ffi_location`. -/
def ffiLocation (lat lon : Rat) : String :=
  let (latD, latM) := part lat latitude.width
  let (lonD, lonM) := part lon longitude.width
  "<Location><LatitudeDegrees>" ++ latD ++ "</LatitudeDegrees><LatitudeMinutes04DecimalPlaces>" ++
    latM ++ "</LatitudeMinutes04DecimalPlaces><LatitudinalHemisphere>" ++ latitude.letter lat ++
    "</LatitudinalHemisphere><Hyphen>-</Hyphen><LongitudeDegrees>" ++ lonD ++
    "</LongitudeDegrees><LongitudeMinutes04DecimalPlaces>" ++ lonM ++
    "</LongitudeMinutes04DecimalPlaces><LongitudinalHemisphere>" ++ longitude.letter lon ++
    "</LongitudinalHemisphere></Location>"

/-- An element with a text only. -/
def leaf (tag text : String) : Element := ⟨tag, .empty, some text, none, []⟩

/-- The element of the text that `_ffi_location` writes. -/
def locationOf (lat lon : Rat) : Element :=
  ⟨"Location", .empty, none, none,
    [leaf "LatitudeDegrees" (part lat latitude.width).1,
      leaf "LatitudeMinutes04DecimalPlaces" (part lat latitude.width).2,
      leaf "LatitudinalHemisphere" (latitude.letter lat), leaf "Hyphen" "-",
      leaf "LongitudeDegrees" (part lon longitude.width).1,
      leaf "LongitudeMinutes04DecimalPlaces" (part lon longitude.width).2,
      leaf "LongitudinalHemisphere" (longitude.letter lon)]⟩

/-! ## Reading -/

/-- The libraries.  `float` reads digits, and digits with a point between them, as their number. -/
structure Lib where
  fromstring : String → Option Element
  float : String → Option PyFloat
  upper : String → String
  float_whole : ∀ ds, Digits ds → float (String.ofList ds) = some (.finite (value ds))
  float_decimal : ∀ ds fs, Digits ds → Digits fs →
    float (String.ofList (ds ++ '.' :: fs)) = some (.finite (value ds + value fs / 10 ^ fs.length))
  upper_letter : ∀ letter ∈ ["N", "S", "E", "W"], upper letter = letter

/-- `_text`. -/
def text (element : Element) (name : String) : Option String :=
  (element.child name).bind fun child =>
    let stripped := PyStr.strip (child.text.getD "")
    if stripped = "" then none else some stripped

/-- `degrees + minutes / 60.0`. -/
def sum : PyFloat → PyFloat → PyFloat
  | .finite degrees, .finite minutes => .finite (degrees + minutes / 60)
  | .nan, _ => .nan
  | _, .nan => .nan
  | .infinity negative, .infinity negative' =>
    if negative = negative' then .infinity negative else .nan
  | .infinity negative, .finite _ => .infinity negative
  | .finite _, .infinity negative => .infinity negative

/-- `-value`. -/
def neg : PyFloat → PyFloat
  | .finite value => .finite (-value)
  | .infinity negative => .infinity !negative
  | .nan => .nan

/-- `_coordinate`. -/
def Lib.coordinate (lib : Lib) (location : Element) (axis : Axis) : Option PyFloat :=
  match (text location (axis.name ++ "Degrees")).bind lib.float,
      (text location (axis.name ++ "Minutes04DecimalPlaces")).bind lib.float with
  | some degrees, some minutes =>
    let value := sum degrees minutes
    some (if lib.upper ((text location axis.hemisphere).getD "") = axis.negative then neg value
      else value)
  | _, _ => none

/-! ## Written well and read back -/

/-- The degrees are whole, the minutes are from 0 to 60, and the letter is that of the sign. -/
structure Lib.Written (lib : Lib) (axis : Axis) (location : Element) (value : Rat) : Prop where
  degrees : ∃ ds, text location (axis.name ++ "Degrees") = some (String.ofList ds) ∧ Digits ds
  minutes : ∃ m, (text location (axis.name ++ "Minutes04DecimalPlaces")).bind lib.float =
    some (.finite m) ∧ 0 ≤ m ∧ m < 60
  letter : text location axis.hemisphere = some (axis.letter value)

/-- The coordinate is read back within half a thousandth of a minute, and in its range. -/
def Lib.ReadBack (lib : Lib) (axis : Axis) (location : Element) (value : Rat) : Prop :=
  ∃ read, lib.coordinate location axis = some (.finite read) ∧
    |read - value| * 60 ≤ 1 / 2000 ∧ |read| ≤ axis.limit

/-- A position is written well and read back. -/
def Lib.Exact (lib : Lib) (lat lon : Rat) : Prop :=
  ∃ location, lib.fromstring (ffiLocation lat lon) = some location ∧
    (lib.Written latitude location lat ∧ lib.ReadBack latitude location lat) ∧
    lib.Written longitude location lon ∧ lib.ReadBack longitude location lon

/-! ## Numbers -/

section

variable {v : Rat}

theorem degrees_eq (v : Rat) : (degrees v : Int) = ⌊|v|⌋ := by
  have hfloor : ⌊|v| * 60 / 60⌋ = ⌊|v|⌋ := by rw [mul_div_cancel_right₀ _ (by norm_num)]
  rw [degrees, degreesAndMinutes, hfloor]
  exact Int.toNat_of_nonneg (Int.floor_nonneg.mpr (abs_nonneg v))

theorem abs_eq (v : Rat) : |v| = degrees v + minutes v / 60 := by
  have hfloor : ⌊|v| * 60 / 60⌋ = ⌊|v|⌋ := by rw [mul_div_cancel_right₀ _ (by norm_num)]
  have hdegrees : (degrees v : Rat) = ⌊|v|⌋ := by exact_mod_cast degrees_eq v
  have hminutes : minutes v = |v| * 60 - ⌊|v|⌋ * 60 := by
    rw [minutes, degreesAndMinutes, hfloor]
  rw [hdegrees, hminutes]
  ring

theorem minutes_range (v : Rat) : 0 ≤ minutes v ∧ minutes v < 60 := by
  have hvalue := abs_eq v
  have hdegrees : (degrees v : Rat) = ⌊|v|⌋ := by exact_mod_cast degrees_eq v
  have hlow := Int.floor_le |v|
  have hhigh := Int.lt_floor_add_one |v|
  constructor <;> linarith

theorem cast_thousandths (v : Rat) :
    (thousandths v : Rat) = roundHalfEven (minutes v * 1000) := by
  have hnonneg :=
    roundHalfEven_nonneg (mul_nonneg (minutes_range v).1 (by norm_num : (0 : Rat) ≤ 1000))
  have hint : (thousandths v : Int) = roundHalfEven (minutes v * 1000) :=
    Int.toNat_of_nonneg hnonneg
  exact_mod_cast hint

/-- The minutes are rounded by half a thousandth at most. -/
theorem abs_thousandths_sub_le (v : Rat) :
    |(thousandths v : Rat) / 1000 - minutes v| ≤ 1 / 2000 := by
  have hround := abs_le.mp (abs_roundHalfEven_sub_le (minutes v * 1000))
  rw [← cast_thousandths] at hround
  rw [abs_le]
  constructor <;> linarith [hround.1, hround.2]

/-- The rounded minutes stay below 60 when the minutes are below 59.9995. -/
theorem thousandths_lt_iff (v : Rat) : thousandths v < 60000 ↔ minutes v < 599995 / 10000 := by
  have hnonneg :=
    roundHalfEven_nonneg (mul_nonneg (minutes_range v).1 (by norm_num : (0 : Rat) ≤ 1000))
  have hodd := roundHalfEven_le_iff_of_odd (x := minutes v * 1000) (k := 59999) (by decide)
  have hint : thousandths v < 60000 ↔ roundHalfEven (minutes v * 1000) ≤ 59999 := by
    rw [thousandths]
    omega
  rw [hint, hodd]
  constructor <;> intro h <;> push_cast at * <;> linarith

/-- What is read stays in the range, also when the minutes are rounded up to 60. -/
theorem read_le_limit {limit : Nat} (h : |v| ≤ limit) :
    (degrees v : Rat) + (thousandths v : Rat) / 1000 / 60 ≤ limit := by
  have hvalue := abs_eq v
  have hrange := minutes_range v
  have hround := abs_le.mp (abs_roundHalfEven_sub_le (minutes v * 1000))
  rw [← cast_thousandths] at hround
  have hle : (degrees v : Rat) ≤ limit := by linarith
  have hnat : degrees v ≤ limit := by exact_mod_cast hle
  rcases Nat.lt_or_eq_of_le hnat with hlt | heq
  · have hsucc : (degrees v : Rat) + 1 ≤ limit := by exact_mod_cast hlt
    have hthousandths : (thousandths v : Rat) < 60001 := by linarith [hround.2]
    have hint : thousandths v < 60001 := by exact_mod_cast hthousandths
    have hsixty : (thousandths v : Rat) ≤ 60000 := by exact_mod_cast Nat.le_of_lt_succ hint
    linarith
  · have hcast : (degrees v : Rat) = limit := by exact_mod_cast heq
    have hzero : minutes v = 0 := by linarith [hrange.1]
    rw [hzero, zero_mul] at hround
    have hthousandths : (thousandths v : Rat) < 1 := by linarith [hround.2]
    have hint : thousandths v < 1 := by exact_mod_cast hthousandths
    rw [Nat.lt_one_iff.mp hint, Nat.cast_zero]
    linarith

end

/-! ## Locations -/

/-- A location has the three texts of a coordinate. -/
structure Carries (axis : Axis) (location : Element) (v : Rat) : Prop where
  degreesText : text location (axis.name ++ "Degrees") = some (part v axis.width).1
  minutesText : text location (axis.name ++ "Minutes04DecimalPlaces") = some (part v axis.width).2
  letterText : text location axis.hemisphere = some (axis.letter v)

theorem isSpace_of_isDigit {c : Char} (h : c.isDigit = true) : PyStr.isSpace c = false := by
  have hcode : 48 ≤ c.toNat ∧ c.toNat ≤ 57 := by simpa using Char.isDigit_iff_toNat.mp h
  simp only [PyStr.isSpace, Bool.or_eq_false_iff, Bool.and_eq_false_iff, decide_eq_false_iff_not,
    beq_eq_false_iff_ne]
  omega

theorem text_leaf {location : Element} {name written : String}
    (h : location.child name = some (leaf name written)) (hne : written ≠ "")
    (hplain : ∀ c ∈ written.toList, PyStr.isSpace c = false) :
    text location name = some written := by
  rw [text, h, Option.bind_some, leaf, Option.getD_some, PyStr.strip_of_forall hplain]
  exact if_neg hne

theorem letter_mem (axis : Axis) (v : Rat) : axis.letter v ∈ ["N", "S", "E", "W"] := by
  rw [Axis.letter]
  split
  next _ => exact axis.letters.1.1
  next _ => exact axis.letters.1.2

/-- Elements with the names and the texts of a coordinate carry it. -/
theorem carries_of_child {axis : Axis} {location : Element} {v : Rat}
    (hdegrees : location.child (axis.name ++ "Degrees") =
      some (leaf (axis.name ++ "Degrees") (part v axis.width).1))
    (hminutes : location.child (axis.name ++ "Minutes04DecimalPlaces") =
      some (leaf (axis.name ++ "Minutes04DecimalPlaces") (part v axis.width).2))
    (hletter : location.child axis.hemisphere = some (leaf axis.hemisphere (axis.letter v))) :
    Carries axis location v := by
  have hwhole := digits_padded axis.width (degrees v)
  obtain ⟨ds, fs, htext, hds, hfs, -⟩ := zeroFill_fixed 6 (by decide : 0 < 3) (thousandths v)
  refine ⟨text_leaf hdegrees ?_ ?_, text_leaf hminutes ?_ ?_, text_leaf hletter ?_ ?_⟩
  · intro hempty
    exact hwhole.1 (String.ofList_eq_empty_iff.mp hempty)
  · intro c hc
    rw [part, String.toList_ofList] at hc
    exact isSpace_of_isDigit (hwhole.2 c hc)
  · intro hempty
    rw [part, htext] at hempty
    exact append_ne_nil_of_left_ne_nil hds.1 _ (String.ofList_eq_empty_iff.mp hempty)
  · intro c hc
    rw [part, String.toList_ofList, htext] at hc
    rcases mem_append.mp hc with hc | hc
    · exact isSpace_of_isDigit (hds.2 c hc)
    · rcases mem_cons.mp hc with rfl | hc
      · decide
      · exact isSpace_of_isDigit (hfs.2 c hc)
  · have hmem := letter_mem axis v
    intro hempty
    rw [hempty] at hmem
    exact absurd hmem (by decide)
  · have hmem := letter_mem axis v
    have hletters : (["N", "S", "E", "W"].all fun letter =>
        letter.toList.all fun c => !PyStr.isSpace c) = true := by decide +kernel
    intro c hc
    simpa using all_eq_true.mp (all_eq_true.mp hletters _ hmem) c hc

theorem child_locationOf (lat lon : Rat) {name written : String}
    (h : leaf name written ∈ (locationOf lat lon).children) :
    (locationOf lat lon).child name = some (leaf name written) := by
  have hnames : Cot.localName "LatitudeDegrees" = "LatitudeDegrees" ∧
      Cot.localName "LatitudeMinutes04DecimalPlaces" = "LatitudeMinutes04DecimalPlaces" ∧
      Cot.localName "LatitudinalHemisphere" = "LatitudinalHemisphere" ∧
      Cot.localName "Hyphen" = "Hyphen" ∧ Cot.localName "LongitudeDegrees" = "LongitudeDegrees" ∧
      Cot.localName "LongitudeMinutes04DecimalPlaces" = "LongitudeMinutes04DecimalPlaces" ∧
      Cot.localName "LongitudinalHemisphere" = "LongitudinalHemisphere" := by decide +kernel
  obtain ⟨h1, h2, h3, h4, h5, h6, h7⟩ := hnames
  simp only [locationOf, leaf, mem_cons, not_mem_nil, or_false, Element.mk.injEq] at h
  rcases h with ⟨rfl, -, h, -⟩ | ⟨rfl, -, h, -⟩ | ⟨rfl, -, h, -⟩ | ⟨rfl, -, h, -⟩ |
    ⟨rfl, -, h, -⟩ | ⟨rfl, -, h, -⟩ | ⟨rfl, -, h, -⟩ <;>
  · obtain rfl := Option.some.inj h
    simp [Element.child, locationOf, leaf, h1, h2, h3, h4, h5, h6, h7]

theorem carries_latitude (lat lon : Rat) : Carries latitude (locationOf lat lon) lat :=
  carries_of_child (child_locationOf lat lon (by simp [latitude, locationOf]))
    (child_locationOf lat lon (by simp [latitude, locationOf]))
    (child_locationOf lat lon (by simp [latitude, locationOf]))

theorem carries_longitude (lat lon : Rat) : Carries longitude (locationOf lat lon) lon :=
  carries_of_child (child_locationOf lat lon (by simp [longitude, locationOf]))
    (child_locationOf lat lon (by simp [longitude, locationOf]))
    (child_locationOf lat lon (by simp [longitude, locationOf]))

section

variable {lib : Lib} {axis : Axis} {location : Element} {v : Rat}

theorem Carries.float_degrees (h : Carries axis location v) :
    (text location (axis.name ++ "Degrees")).bind lib.float = some (.finite (degrees v)) := by
  rw [h.degreesText, Option.bind_some, part, lib.float_whole _ (digits_padded _ _), value_padded]

theorem Carries.float_minutes (h : Carries axis location v) :
    (text location (axis.name ++ "Minutes04DecimalPlaces")).bind lib.float =
      some (.finite ((thousandths v : Rat) / 1000)) := by
  obtain ⟨ds, fs, htext, hds, hfs, hvalue⟩ := zeroFill_fixed 6 (by decide : 0 < 3) (thousandths v)
  have hpower : (10 : Rat) ^ 3 = 1000 := by norm_num
  rw [h.minutesText, Option.bind_some, part, htext, lib.float_decimal ds fs hds hfs, hvalue, hpower]

/-- The minutes are below 60 when they are not rounded up to it. -/
theorem Carries.written_iff (h : Carries axis location v) :
    lib.Written axis location v ↔ thousandths v < 60000 := by
  have hread : (text location (axis.name ++ "Minutes04DecimalPlaces")).bind lib.float =
      some (.finite ((thousandths v : Rat) / 1000)) := h.float_minutes
  constructor
  · rintro ⟨-, ⟨m, hm, -, hlt⟩, -⟩
    rw [hread] at hm
    obtain rfl := PyFloat.finite.inj (Option.some.inj hm)
    have hcast : (thousandths v : Rat) < 60000 := by linarith
    exact_mod_cast hcast
  · intro hlt
    have hcast : (thousandths v : Rat) < 60000 := by exact_mod_cast hlt
    refine ⟨⟨padded axis.width (degrees v), h.degreesText, digits_padded _ _⟩,
      ⟨_, hread, ?_, ?_⟩, h.letterText⟩
    · positivity
    · linarith

theorem Carries.coordinate (h : Carries axis location v) :
    lib.coordinate location axis = some (.finite
      (if 0 ≤ v then degrees v + (thousandths v : Rat) / 1000 / 60
        else -(degrees v + (thousandths v : Rat) / 1000 / 60))) := by
  rw [Lib.coordinate, h.float_degrees, h.float_minutes, h.letterText, Option.getD_some,
    lib.upper_letter _ (letter_mem axis v)]
  by_cases hsign : 0 ≤ v
  · simp only [Axis.letter, if_pos hsign, if_neg axis.letters.2, sum]
  · simp only [Axis.letter, if_neg hsign, if_true, sum, neg]

/-- A coordinate in the range is read back. -/
theorem Carries.readBack (h : Carries axis location v) (hrange : |v| ≤ axis.limit) :
    lib.ReadBack axis location v := by
  have hlimit := read_le_limit hrange
  have hround := abs_thousandths_sub_le v
  have hvalue := abs_eq v
  have hread : 0 ≤ (degrees v : Rat) + (thousandths v : Rat) / 1000 / 60 := by positivity
  have hclose :
      |(degrees v : Rat) + (thousandths v : Rat) / 1000 / 60 - (|v|)| * 60 ≤ 1 / 2000 := by
    have hdifference : (degrees v : Rat) + (thousandths v : Rat) / 1000 / 60 - |v| =
        ((thousandths v : Rat) / 1000 - minutes v) / 60 := by
      rw [hvalue]
      ring
    rw [hdifference, abs_div, abs_of_pos (by norm_num : (0 : Rat) < 60),
      div_mul_cancel₀ _ (by norm_num)]
    exact hround
  refine ⟨_, h.coordinate, ?_, ?_⟩
  · by_cases hsign : 0 ≤ v
    · rw [if_pos hsign]
      rwa [abs_of_nonneg hsign] at hclose
    · rw [abs_of_neg (not_le.mp hsign), sub_neg_eq_add] at hclose
      rw [if_neg hsign, ← neg_add', abs_neg]
      exact hclose
  · by_cases hsign : 0 ≤ v
    · rw [if_pos hsign, abs_of_nonneg hread]
      exact hlimit
    · rw [if_neg hsign, abs_neg, abs_of_nonneg hread]
      exact hlimit

/-- A position is written well and read back when the minutes of both coordinates are below
59.9995. -/
theorem exact_iff {lat lon : Rat} (hlat : -90 ≤ lat ∧ lat ≤ 90) (hlon : -180 < lon ∧ lon ≤ 180)
    (hparse : lib.fromstring (ffiLocation lat lon) = some (locationOf lat lon)) :
    lib.Exact lat lon ↔ minutes lat < 599995 / 10000 ∧ minutes lon < 599995 / 10000 := by
  have hcarries := carries_latitude lat lon
  have hcarries' := carries_longitude lat lon
  have hread : lib.ReadBack latitude (locationOf lat lon) lat :=
    hcarries.readBack (abs_le.mpr ⟨by exact_mod_cast hlat.1, by exact_mod_cast hlat.2⟩)
  have hread' : lib.ReadBack longitude (locationOf lat lon) lon :=
    hcarries'.readBack (abs_le.mpr ⟨by exact_mod_cast hlon.1.le, by exact_mod_cast hlon.2⟩)
  rw [← thousandths_lt_iff, ← thousandths_lt_iff, ← @Carries.written_iff lib _ _ _ hcarries,
    ← @Carries.written_iff lib _ _ _ hcarries', Lib.Exact, hparse]
  constructor
  · rintro ⟨location, hlocation, ⟨hwritten, -⟩, hwritten', -⟩
    obtain rfl := Option.some.inj hlocation
    exact ⟨hwritten, hwritten'⟩
  · rintro ⟨hwritten, hwritten'⟩
    exact ⟨_, rfl, ⟨hwritten, hread⟩, hwritten', hread'⟩

end

/-! ## A position -/

/-- A number of digits, with a point between them or without. -/
def floatOf (s : String) : Option PyFloat :=
  match s.toList.splitOn '.' with
  | [ds] => if ds ≠ [] ∧ ds.all Char.isDigit then some (.finite (value ds)) else none
  | [ds, fs] =>
    if (ds ≠ [] ∧ ds.all Char.isDigit) ∧ fs ≠ [] ∧ fs.all Char.isDigit then
      some (.finite (value ds + value fs / 10 ^ fs.length))
    else none
  | _ => none

theorem all_of_digits {ds : List Char} (h : Digits ds) : ds ≠ [] ∧ ds.all Char.isDigit :=
  ⟨h.1, List.all_eq_true.mpr h.2⟩

theorem point_notMem_digits {ds : List Char} (h : Digits ds) : '.' ∉ ds := fun hmem =>
  absurd (h.2 '.' hmem) (by decide)

/-- The libraries on one location. -/
def Lib.only (lat lon : Rat) : Lib where
  fromstring s := if s = ffiLocation lat lon then some (locationOf lat lon) else none
  float := floatOf
  upper s := s
  float_whole ds hds := by
    rw [floatOf, String.toList_ofList, List.splitOn_eq_singleton (point_notMem_digits hds)]
    exact if_pos (all_of_digits hds)
  float_decimal ds fs hds hfs := by
    rw [floatOf, String.toList_ofList,
      List.splitOn_append_cons_self_of_not_mem (point_notMem_digits hds),
      List.splitOn_eq_singleton (point_notMem_digits hfs)]
    exact if_pos ⟨all_of_digits hds, all_of_digits hfs⟩
  upper_letter _ _ := rfl

/-- A position with whole and with half degrees is written well and read back. -/
theorem exact_half_degree : (Lib.only (109 / 2) 25).Exact (109 / 2) 25 :=
  (exact_iff (by norm_num) (by norm_num) (if_pos rfl)).mpr (by decide +kernel)

/-- A latitude of 54 degrees and 59.9996 minutes is written with 60 minutes. -/
theorem sixty_minutes : (Lib.only (54 + 599996 / 600000) 25).fromstring
      (ffiLocation (54 + 599996 / 600000) 25) = some (locationOf (54 + 599996 / 600000) 25) ∧
    ¬ (Lib.only (54 + 599996 / 600000) 25).Exact (54 + 599996 / 600000) 25 := by
  refine ⟨if_pos rfl, ?_⟩
  rintro ⟨location, hlocation, ⟨hwritten, -⟩, -⟩
  have hsame : locationOf (54 + 599996 / 600000) 25 = location :=
    Option.some.inj ((if_pos rfl).symm.trans hlocation)
  rw [← hsame] at hwritten
  have hsixty := (carries_latitude (54 + 599996 / 600000) 25).written_iff.mp hwritten
  exact absurd hsixty (by decide +kernel)

end Efdi.Tak.Ffi

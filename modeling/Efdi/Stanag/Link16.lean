import Mathlib.Algebra.Order.AbsoluteValue.Basic
import Mathlib.Tactic.Linarith
import Efdi.Asterix.Fields
import Efdi.Base.Bits

/-!
# Link 16 words

The STANAG 5516 part of `stanag.py`: `_5516_BitReader`, `_5516_MultiWordReader` and the decoders of
J3.2 and J2.2.  A message is a row of words of 75 bits, each stored in ten bytes.  The reader of
several words keeps five zero bits before each word, so it reads the bits of a field up to the end
of a word and then the padding of the next one (`u_eq_iff`).  The decoder of J2.2 extends the
sign of a longitude by half of its range, so only longitudes that are not negative are right
(`link16_iff`).
-/

namespace Efdi.Stanag

open List
open Asterix (FloatMath real num)
open Tracks (Track)
open Bits (ofBits ofData padded)

/-! ## Readers -/

/-- `_5516_BitReader.u`. -/
def bitReaderU (data : List UInt8) (offset width : Nat) : Nat :=
  let val := BigEndian.ofBytes (data.take 10) >>> 5
  let shift : Int := 75 - offset - width
  if shift < 0 then 0 else (val >>> shift.toNat) &&& (1 <<< width - 1)

/-- `_5516_MultiWordReader`. -/
structure MultiWordReader where
  val : Nat
  bits : Nat

/-- `_5516_MultiWordReader.__init__`. -/
def multiWordReader (words : List (List UInt8)) : MultiWordReader where
  val := BigEndian.ofBytes (words.flatMap fun w =>
    BigEndian.toBytes 10 (BigEndian.ofBytes (w.take 10) >>> 5))
  bits := words.length * 80

/-- `_effective_offset`. -/
def effectiveOffset (bit : Nat) : Nat := bit / 75 * 80 + bit % 75 + 5

namespace MultiWordReader

/-- `_5516_MultiWordReader.u`. -/
def u (r : MultiWordReader) (bit width : Nat) : Nat :=
  let eff := effectiveOffset bit
  let shift : Int := r.bits - eff - width
  if shift < 0 ∨ width = 0 then 0 else (r.val >>> shift.toNat) &&& (1 <<< width - 1)

/-- `_5516_MultiWordReader.s`, of a field that has a sign bit. -/
def s (r : MultiWordReader) (bit width : Nat) : Int :=
  let v : Int := r.u bit width
  if 2 ^ (width - 1) ≤ v then v - 2 ^ width else v

end MultiWordReader

/-! ## Messages -/

/-- `_5516_ID_AFF`. -/
def identityAffiliation : Nat → String
  | 0 => "friendly"
  | 1 => "neutral"
  | 2 => "hostile"
  | 3 => "unknown"
  | 4 => "hostile"
  | 5 => "friendly"
  | _ => "unknown"

variable (F : FloatMath)

/-- The track of a message.  The angles are dyadic and short, so doubles hold them exactly. -/
def link16Track (now : Rat) (src : String) (trackNum : Nat) (aff : String) (latDeg lonDeg : Rat)
    (altRaw spdRaw hdgRaw : Nat) : Option Track :=
  let altFt : Int := altRaw * 100 - 100000
  let spdMs := F.mul spdRaw (F.near 0.514444)
  let hdgDeg : Rat := hdgRaw * (360 / 2048)
  if 90 < |latDeg| ∨ 180 < |lonDeg| then none
  else
    let track := PyDict.empty.set "_ts" (real now)
    let track := track.set "_src" (.str src)
    let track := track.set "track_num" (num trackNum)
    let track := track.set "affiliation" (.str aff)
    let track := track.set "lat_deg" (real (F.round latDeg 6))
    let track := track.set "lon_deg" (real (F.round lonDeg 6))
    let track := track.set "alt_baro_ft" (.int altFt)
    let track := track.set "speed_ms" (real (F.round spdMs 1))
    some (track.set "heading_deg" (real (F.round hdgDeg 1)))

/-- `_5516_decode_j32`. -/
def decodeJ32 (now : Rat) (words : List (List UInt8)) : Option Track :=
  if words.length < 3 then none
  else
    let r := multiWordReader words
    let aff := identityAffiliation (r.u 17 3)
    let trackNum := (r.u 22 2 <<< 10) ||| r.u 24 10
    let latRaw := r.s 35 25
    let latDeg : Rat := latRaw * (180 / 2 ^ 24)
    let lonMsb := r.u 60 15
    let lonLsb := r.u 75 11
    let lonRawU : Int := (lonMsb <<< 11) ||| lonLsb
    let lonRawS := if 2 ^ 25 ≤ lonRawU then lonRawU - 2 ^ 26 else lonRawU
    let lonDeg : Rat := lonRawS * (360 / 2 ^ 26)
    link16Track F now "Link 16 J3.2" trackNum aff latDeg lonDeg (r.u 86 11) (r.u 97 12) (r.u 109 11)

/-- `_5516_decode_j22`. -/
def decodeJ22 (now : Rat) (words : List (List UInt8)) : Option Track :=
  if words.length < 3 then none
  else
    let r := multiWordReader words
    let stn := r.u 12 12
    let latRaw := r.s 24 25
    let latDeg : Rat := latRaw * (180 / 2 ^ 24)
    let lonRawU : Int := r.u 49 26
    let lonRawS := if 2 ^ 25 ≤ lonRawU then lonRawU - 2 ^ 25 else lonRawU
    let lonDeg : Rat := lonRawS * (360 / 2 ^ 26)
    link16Track F now "Link 16 J2.2" stn "friendly" latDeg lonDeg (r.u 86 10) (r.u 96 12) (r.u 108 11)

/-! ## Fields -/

/-- The leading 75 bits of the words, one after the other. -/
def logicalBits (words : List (List UInt8)) : List Bool :=
  (words.map fun w => (ofData w).take 75).flatten

/-- The bits of a field. -/
def fieldBits (words : List (List UInt8)) (bit width : Nat) : List Bool :=
  ((logicalBits words).drop bit).take width

/-- The integer of a field. -/
def field (words : List (List UInt8)) (bit width : Nat) : Nat := ofBits (fieldBits words bit width)

section Fields

variable {words : List (List UInt8)} {w : List UInt8} {bit width : Nat}

theorem ofData_flatMap (f : List UInt8 → List UInt8) (words : List (List UInt8)) :
    ofData (words.flatMap f) = (words.map fun w => ofData (f w)).flatten := by
  induction words with
  | nil => rfl
  | cons w words ih =>
    rw [flatMap_cons, map_cons, flatten_cons, ← ih]
    exact flatMap_append

theorem length_take_ofData (h : w.length = 10) : ((ofData w).take 75).length = 75 := by
  rw [length_take, Bits.length_ofData, h]
  rfl

/-- The bytes of a word without the bits that fill it up. -/
theorem shifted_word (h : w.length = 10) :
    BigEndian.ofBytes (w.take 10) >>> 5 = ofBits ((ofData w).take 75) := by
  have hnumber := congrArg ofBits (take_append_drop 75 (ofData w)).symm
  have hlast := Bits.ofBits_lt ((ofData w).drop 75)
  have hlow : ((ofData w).drop 75).length = 5 := by rw [length_drop, Bits.length_ofData, h]
  rw [Bits.ofBits_append, hlow, Bits.ofBits_ofData] at hnumber
  rw [hlow] at hlast
  rw [take_of_length_le (by rw [h]), Nat.shiftRight_eq_div_pow]
  omega

/-- A stored word: five zero bits and the bits of the word. -/
theorem ofData_stored (h : w.length = 10) :
    ofData (BigEndian.toBytes 10 (BigEndian.ofBytes (w.take 10) >>> 5)) =
      List.replicate 5 false ++ (ofData w).take 75 := by
  have hlength := length_take_ofData h
  have hword := Bits.ofBits_lt ((ofData w).take 75)
  rw [hlength] at hword
  rw [← Bits.ofBits_inj, Bits.ofBits_ofData, shifted_word h, BigEndian.ofBytes_toBytes,
    Bits.ofBits_append]
  · simp [ofBits]
  · exact Nat.lt_trans hword (by decide)
  · rw [Bits.length_ofData, BigEndian.length_toBytes, length_append, hlength]
    rfl

/-- The reader holds the words, each with padding before it. -/
theorem val_multiWordReader (h : ∀ w ∈ words, w.length = 10) :
    (multiWordReader words).val =
      ofBits (padded (List.replicate 5 false) (words.map fun w => (ofData w).take 75)) := by
  have hstored : (words.map fun w =>
      ofData (BigEndian.toBytes 10 (BigEndian.ofBytes (w.take 10) >>> 5))) =
        (words.map fun w => (ofData w).take 75).map (replicate 5 false ++ ·) := by
    rw [map_map]
    exact map_congr_left fun w hw => ofData_stored (h w hw)
  rw [multiWordReader, ← Bits.ofBits_ofData, ofData_flatMap, hstored, padded]

theorem length_rows (h : ∀ w ∈ words, w.length = 10) :
    ∀ row ∈ words.map (fun w => (ofData w).take 75), row.length = 75 := by
  intro row hrow
  obtain ⟨w, hw, rfl⟩ := mem_map.mp hrow
  exact length_take_ofData (h w hw)

theorem length_logicalBits (h : ∀ w ∈ words, w.length = 10) :
    (logicalBits words).length = 75 * words.length := by
  rw [logicalBits, Bits.length_flatten (length_rows h), length_map]

theorem length_fieldBits (h : ∀ w ∈ words, w.length = 10) (hfit : bit + width ≤ 75 * words.length) :
    (fieldBits words bit width).length = width := by
  rw [fieldBits, length_take, length_drop, length_logicalBits h]
  omega

/-- What the reader reads: a window of the words with their padding. -/
theorem u_eq (h : ∀ w ∈ words, w.length = 10) (hfit : bit + width ≤ 75 * words.length) :
    (multiWordReader words).u bit width =
      ofBits (((padded (List.replicate 5 false) (words.map fun w => (ofData w).take 75)).drop
        (effectiveOffset bit)).take width) := by
  have hrows : ∀ row ∈ (words.map fun w => (ofData w).take 75).map (replicate 5 false ++ ·),
      row.length = 80 := by
    intro row hrow
    obtain ⟨word, hword, rfl⟩ := mem_map.mp hrow
    rw [length_append, length_rows h word hword, length_replicate]
  have hlength : (padded (replicate 5 false)
      (words.map fun w => (ofData w).take 75)).length = 80 * words.length := by
    rw [padded, Bits.length_flatten hrows, length_map, length_map]
  rw [MultiWordReader.u, val_multiWordReader h]
  have hbits : (multiWordReader words).bits = 80 * words.length := Nat.mul_comm _ _
  rw [hbits]
  by_cases hwidth : width = 0
  · rw [if_pos (.inr hwidth), hwidth]
    rfl
  · have hstored : effectiveOffset bit + width ≤ 80 * words.length := by
      rw [effectiveOffset]
      omega
    have hshift : ((80 * words.length : Nat) : Int) - effectiveOffset bit - width =
        ((80 * words.length - effectiveOffset bit - width : Nat) : Int) := by omega
    rw [if_neg (by omega), hshift, Int.toNat_natCast, ← hlength]
    exact Bits.ofBits_window (by rw [hlength]; exact hstored)

/-- From a bit of a word on: the rest of the word and the words behind it. -/
theorem drop_logicalBits (h : ∀ w ∈ words, w.length = 10) (hbit : bit / 75 < words.length) :
    ∃ front rows, front.length = 75 - bit % 75 ∧
      (logicalBits words).drop bit = front ++ rows.flatten ∧
      (padded (List.replicate 5 false) (words.map fun w => (ofData w).take 75)).drop
        (effectiveOffset bit) = front ++ padded (List.replicate 5 false) rows := by
  have hrows := length_rows h
  have hword : bit / 75 < (words.map fun w => (ofData w).take 75).length := by
    rw [length_map]
    exact hbit
  have hlogical := Bits.drop_flatten hrows (Nat.le_of_lt (Nat.mod_lt bit (by decide))) hword
  rw [Nat.div_add_mod] at hlogical
  have hstored : ∀ row ∈
      (words.map fun w => (ofData w).take 75).map (replicate 5 false ++ ·),
      row.length = 80 := by
    intro row hrow
    obtain ⟨word, hmem, rfl⟩ := mem_map.mp hrow
    rw [length_append, hrows word hmem, length_replicate]
  have hplace : effectiveOffset bit = 80 * (bit / 75) + (bit % 75 + 5) := by
    rw [effectiveOffset]
    omega
  have hpadded := @Bits.drop_flatten _ _ _ hstored (bit / 75) (bit % 75 + 5) (by omega)
    (by rw [length_map]; exact hword)
  refine ⟨_, _, ?_, hlogical, ?_⟩
  · rw [length_drop, hrows _ (getElem_mem _)]
  · rw [padded, hplace, hpadded, getElem_map, ← map_drop, Nat.add_comm (bit % 75),
      ← drop_drop, drop_left' (by rw [length_replicate])]
    rfl

/-- The reader has the integer of a field exactly when the bits behind the first word are zero. -/
theorem u_eq_iff (h : ∀ w ∈ words, w.length = 10) (hfit : bit + width ≤ 75 * words.length) :
    (multiWordReader words).u bit width = field words bit width ↔
      ∀ b ∈ (fieldBits words bit width).drop (75 - bit % 75), b = false := by
  by_cases hwidth : width = 0
  · subst hwidth
    rw [u_eq h hfit, field, fieldBits, take_zero, take_zero, drop_nil]
    exact iff_of_true rfl fun b hb => absurd hb not_mem_nil
  obtain ⟨front, rows, hfront, hlogical, hstored⟩ :=
    drop_logicalBits h (show bit / 75 < words.length by omega)
  have hlength := length_fieldBits h hfit
  rw [u_eq h hfit, field, fieldBits, hstored, hlogical]
  rw [fieldBits, hlogical, length_take, length_append] at hlength
  have hrest : width - front.length ≤ rows.flatten.length := by omega
  have hpadded := Bits.length_flatten_le_padded (replicate 5 false) rows
  have hsame : ((front ++ padded (replicate 5 false) rows).take width).length =
      ((front ++ rows.flatten).take width).length := by
    simp only [length_take, length_append]
    omega
  rw [Bits.ofBits_inj hsame, take_append, take_append, append_cancel_left_eq,
    Bits.take_padded_eq_iff (by decide) hrest, ← take_append, ← hfront, drop_take,
    drop_left]

theorem u_inside (h : ∀ w ∈ words, w.length = 10) (hfit : bit + width ≤ 75 * words.length)
    (hin : bit % 75 + width ≤ 75) : (multiWordReader words).u bit width = field words bit width := by
  refine (u_eq_iff h hfit).mpr fun b hb => ?_
  rw [drop_of_length_le (by rw [length_fieldBits h hfit]; omega)] at hb
  cases hb

/-- A field of the first word. -/
theorem bitReaderU_eq (hw : w.length = 10) (hin : bit + width ≤ 75) :
    bitReaderU w bit width = field (w :: words) bit width := by
  have hlength := length_take_ofData hw
  have hshift : (75 : Int) - bit - width = ((75 - bit - width : Nat) : Int) := by omega
  rw [bitReaderU, shifted_word hw, hshift, if_neg (by omega), Int.toNat_natCast, field, fieldBits, logicalBits,
    map_cons, flatten_cons, drop_append_of_le_length (by rw [hlength]; omega),
    take_append_of_le_length (by rw [length_drop, hlength]; omega)]
  rw [← Bits.ofBits_window (by rw [hlength]; exact hin), hlength]

/-- Two fields, one behind the other. -/
theorem field_append (h : ∀ w ∈ words, w.length = 10) {back : Nat}
    (hfit : bit + (width + back) ≤ 75 * words.length) :
    field words bit (width + back) =
      field words bit width * 2 ^ back + field words (bit + width) back := by
  have hback : (fieldBits words (bit + width) back).length = back :=
    length_fieldBits h (by omega)
  have hsplit : fieldBits words bit (width + back) =
      fieldBits words bit width ++ fieldBits words (bit + width) back := by
    rw [fieldBits, fieldBits, fieldBits, take_add, drop_drop]
  rw [field, hsplit, Bits.ofBits_append, hback, field, field]

end Fields

/-! ## Positions -/

/-- A message of at least three words with a latitude of 25 bits and a longitude of 26 bits, in two's
complement, at the given offsets.  The latitude is one of the globe. -/
structure Packed (words : List (List UInt8)) (latBit lonBit : Nat) (lat lon : Int) : Prop where
  three : 3 ≤ words.length
  lat_mem : -2 ^ 23 ≤ lat ∧ lat ≤ 2 ^ 23
  lon_mem : -2 ^ 25 ≤ lon ∧ lon < 2 ^ 25
  lat : (field words latBit 25 : Int) = lat % 2 ^ 25
  lon : (field words lonBit 26 : Int) = lon % 2 ^ 26

/-- However positions are rounded, the decoder returns the latitude and the longitude, scaled to
degrees. -/
def DecodesTo (decode : FloatMath → Rat → List (List UInt8) → Option Track)
    (words : List (List UInt8)) (lat lon : Int) : Prop :=
  ∀ F now, ∃ track, decode F now words = some track ∧
    track.get? "lat_deg" = some (real (F.round (lat * (180 / 2 ^ 24)) 6)) ∧
      track.get? "lon_deg" = some (real (F.round (lon * (360 / 2 ^ 26)) 6))

variable {F} {words : List (List UInt8)} {lat lon : Int}

theorem link16Track_eq {now : Rat} {src aff : String} {trackNum altRaw spdRaw hdgRaw : Nat}
    (hlat : -2 ^ 23 ≤ lat ∧ lat ≤ 2 ^ 23) (hlon : -2 ^ 25 ≤ lon ∧ lon < 2 ^ 25) :
    ∃ track, link16Track F now src trackNum aff (lat * (180 / 2 ^ 24)) (lon * (360 / 2 ^ 26)) altRaw
        spdRaw hdgRaw = some track ∧
      track.get? "lat_deg" = some (real (F.round (lat * (180 / 2 ^ 24)) 6)) ∧
        track.get? "lon_deg" = some (real (F.round (lon * (360 / 2 ^ 26)) 6)) := by
  have hlat' : |(lat : Rat) * (180 / 2 ^ 24)| ≤ 90 := by
    have hlow : (-2 ^ 23 : Rat) ≤ lat := by exact_mod_cast hlat.1
    have hhigh : (lat : Rat) ≤ 2 ^ 23 := by exact_mod_cast hlat.2
    rw [abs_le]
    constructor
    · linarith
    · linarith
  have hlon' : |(lon : Rat) * (360 / 2 ^ 26)| ≤ 180 := by
    have hlow : (-2 ^ 25 : Rat) ≤ lon := by exact_mod_cast hlon.1
    have hhigh : (lon : Rat) < 2 ^ 25 := by exact_mod_cast hlon.2
    rw [abs_le]
    constructor
    · linarith
    · linarith
  rw [link16Track]
  dsimp only
  rw [if_neg (by rw [not_or, not_lt, not_lt]; exact ⟨hlat', hlon'⟩)]
  exact ⟨_, rfl, by simp [PyDict.get?_set_of_ne], by simp [PyDict.get?_set_of_ne]⟩

/-- A field in two's complement inside one word is read with its sign. -/
theorem s_eq (h : ∀ w ∈ words, w.length = 10) {bit width : Nat} {x : Int} (hwidth : 0 < width)
    (hfit : bit + width ≤ 75 * words.length) (hin : bit % 75 + width ≤ 75)
    (hx : -2 ^ (width - 1) ≤ x ∧ x < 2 ^ (width - 1))
    (hfield : (field words bit width : Int) = x % 2 ^ width) :
    (multiWordReader words).s bit width = x := by
  obtain ⟨n, rfl⟩ : ∃ n, width = n + 1 := ⟨width - 1, by omega⟩
  rw [Nat.add_sub_cancel] at hx
  rw [MultiWordReader.s, u_inside h hfit hin, hfield, Nat.add_sub_cancel, pow_succ]
  by_cases hsign : 0 ≤ x
  · rw [Int.emod_eq_of_lt hsign (by omega), if_neg (by omega)]
  · have hmod : x % (2 ^ n * 2) = x + 2 ^ n * 2 := by
      rw [← Int.add_emod_right, Int.emod_eq_of_lt (by omega) (by omega)]
    rw [hmod, if_pos (by omega)]
    omega

theorem decodeJ32_packed (h : ∀ w ∈ words, w.length = 10) (hpacked : Packed words 35 60 lat lon) :
    DecodesTo decodeJ32 words lat lon := by
  have hthree := hpacked.three
  have hlat : (multiWordReader words).s 35 25 = lat := by
    have hrange := hpacked.lat_mem
    exact s_eq h (by decide) (by omega) (by decide) (by omega) hpacked.lat
  have hlon : ((((multiWordReader words).u 60 15 <<< 11) ||| (multiWordReader words).u 75 11 :
      Nat) : Int) = lon % 2 ^ 26 := by
    have hlow : field words 75 11 < 2 ^ 11 := by
      have hbits := Bits.ofBits_lt (fieldBits words 75 11)
      rwa [length_fieldBits h (by omega)] at hbits
    rw [u_inside h (by omega) (by decide), u_inside h (by omega) (by decide),
      ← Nat.shiftLeft_add_eq_or_of_lt hlow, Nat.shiftLeft_eq, ← hpacked.lon]
    exact congrArg Nat.cast (@field_append words 60 15 h 11 (by omega)).symm
  have hrange := hpacked.lon_mem
  have hsigned : (if (2 : Int) ^ 25 ≤ lon % 2 ^ 26 then lon % 2 ^ 26 - 2 ^ 26 else lon % 2 ^ 26) =
      lon := by
    split
    · omega
    · omega
  intro F now
  rw [decodeJ32, if_neg (by omega)]
  dsimp only
  rw [hlat, hlon, hsigned]
  exact link16Track_eq hpacked.lat_mem hrange

theorem decodeJ22_packed (h : ∀ w ∈ words, w.length = 10) (hpacked : Packed words 24 49 lat lon) :
    DecodesTo decodeJ22 words lat lon ↔ 0 ≤ lon := by
  have hthree := hpacked.three
  have hlat : (multiWordReader words).s 24 25 = lat := by
    have hrange := hpacked.lat_mem
    exact s_eq h (by decide) (by omega) (by decide) (by omega) hpacked.lat
  have hlon : ((multiWordReader words).u 49 26 : Int) = lon % 2 ^ 26 := by
    rw [u_inside h (by omega) (by decide)]
    exact hpacked.lon
  have hrange := hpacked.lon_mem
  -- Half of the range is taken from a longitude whose sign bit is set.
  have hsigned : (if (2 : Int) ^ 25 ≤ lon % 2 ^ 26 then lon % 2 ^ 26 - 2 ^ 25 else lon % 2 ^ 26) =
      if 0 ≤ lon then lon else lon + 2 ^ 25 := by
    split
    · split
      · omega
      · omega
    · split
      · omega
      · omega
  have hdecode : DecodesTo decodeJ22 words lat (if 0 ≤ lon then lon else lon + 2 ^ 25) := by
    intro F now
    rw [decodeJ22, if_neg (by omega)]
    dsimp only
    rw [hlat, hlon, hsigned]
    refine link16Track_eq hpacked.lat_mem ?_
    split
    · exact hrange
    · omega
  constructor
  · intro hright
    by_contra hsign
    rw [if_neg hsign] at hdecode
    obtain ⟨track, htrack, -, hlonDeg⟩ := hright Asterix.exactMath 0
    obtain ⟨track', htrack', -, hlonDeg'⟩ := hdecode Asterix.exactMath 0
    rw [htrack] at htrack'
    cases htrack'
    rw [hlonDeg] at hlonDeg'
    simp [real, Asterix.exactMath] at hlonDeg'
  · intro hsign
    rwa [if_pos hsign] at hdecode

/-- The reader of several words has the integer of a field exactly when the bits behind the first
word of the field are zero, and it agrees with the reader of one word on the first one.  J3.2 is
decoded to the position that was packed, and J2.2 exactly when the longitude is not negative. -/
theorem link16_iff (h : ∀ w ∈ words, w.length = 10) :
    (∀ bit width, bit + width ≤ 75 * words.length →
      ((multiWordReader words).u bit width = field words bit width ↔
        ∀ b ∈ (fieldBits words bit width).drop (75 - bit % 75), b = false)) ∧
    (∀ w rest bit width, words = w :: rest → bit + width ≤ 75 →
      (multiWordReader words).u bit width = bitReaderU w bit width) ∧
    (∀ lat lon, Packed words 35 60 lat lon → DecodesTo decodeJ32 words lat lon) ∧
    ∀ lat lon, Packed words 24 49 lat lon → (DecodesTo decodeJ22 words lat lon ↔ 0 ≤ lon) := by
  refine ⟨fun bit width hfit => u_eq_iff h hfit, ?_, fun lat lon => decodeJ32_packed h,
    fun lat lon => decodeJ22_packed h⟩
  intro w rest bit width hwords hin
  subst hwords
  have hlength : (w :: rest).length = rest.length + 1 := rfl
  have hmod := Nat.mod_le bit 75
  rw [u_inside h (by omega) (by omega), bitReaderU_eq (h w List.mem_cons_self) hin]

/-- Three words with the latitude 0 and the longitude of -1 unit at the offsets of J2.2. -/
def westOfGreenwich : List (List UInt8) :=
  [[0, 0, 0, 0, 0, 0, 0x7F, 0xFF, 0xFF, 0xE0], List.replicate 10 0, List.replicate 10 0]

/-- Two words of which only the first bit of the second one is set. -/
def firstBitOfSecond : List (List UInt8) := [List.replicate 10 0, 0x80 :: List.replicate 9 0]

theorem packed_westOfGreenwich : Packed westOfGreenwich 24 49 0 (-1) :=
  ⟨by decide, by decide, by decide, by decide +kernel, by decide +kernel⟩

/-- A field over two words and a longitude west of Greenwich are not read as they are. -/
theorem padding_and_sign_misread :
    (¬ ∀ words : List (List UInt8), (∀ w ∈ words, w.length = 10) → ∀ bit width,
      bit + width ≤ 75 * words.length →
        (multiWordReader words).u bit width = field words bit width) ∧
    ¬ ∀ words : List (List UInt8), (∀ w ∈ words, w.length = 10) → ∀ lat lon,
      Packed words 24 49 lat lon → DecodesTo decodeJ22 words lat lon := by
  constructor
  · intro h
    have hread := h firstBitOfSecond (by decide) 74 2 (by decide)
    exact absurd hread (by decide +kernel)
  · intro h
    have hdecode := h westOfGreenwich (by decide) 0 (-1) packed_westOfGreenwich
    exact absurd ((decodeJ22_packed (by decide) packed_westOfGreenwich).mp hdecode) (by decide)

/-- The readers and the decoders on the words of the first example. -/
theorem link16_westOfGreenwich :
    (∀ bit width, bit + width ≤ 75 * westOfGreenwich.length →
      ((multiWordReader westOfGreenwich).u bit width = field westOfGreenwich bit width ↔
        ∀ b ∈ (fieldBits westOfGreenwich bit width).drop (75 - bit % 75), b = false)) ∧
    (∀ w rest bit width, westOfGreenwich = w :: rest → bit + width ≤ 75 →
      (multiWordReader westOfGreenwich).u bit width = bitReaderU w bit width) ∧
    (∀ lat lon, Packed westOfGreenwich 35 60 lat lon → DecodesTo decodeJ32 westOfGreenwich lat lon) ∧
    ∀ lat lon, Packed westOfGreenwich 24 49 lat lon →
      (DecodesTo decodeJ22 westOfGreenwich lat lon ↔ 0 ≤ lon) :=
  link16_iff (by decide)

end Efdi.Stanag

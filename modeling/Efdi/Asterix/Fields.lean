import Efdi.Base.BigEndian
import Efdi.Base.Kept
import Efdi.Tracks.ObjectKeys

/-!
# Fields of ASTERIX records

What the categories of `cat.py` share: the numbers and texts in the items, the BDS registers of
a Mode S transponder and the keys of a track.  Each category carries its own copy of these
functions, and the copies are the same.

Doubles are a parameter (`FloatMath`).  Results of arithmetic are rounded to the nearest double,
and trigonometry is not looked into.
-/

namespace Efdi.Asterix

open Reading Tracks

/-- What the decoders ask of floating point. -/
structure FloatMath where
  /-- The double nearest to a number, which is what an operation returns. -/
  near : Rat → Rat
  /-- `round(x, digits)`. -/
  round : Rat → Nat → Rat
  /-- `_polar_to_wgs84`. -/
  polarToWgs84 : Rat → Rat → Rat → Rat → Rat × Rat
  /-- `_cartesian_to_wgs84`. -/
  cartesianToWgs84 : Rat → Rat → Rat → Rat → Rat × Rat
  /-- `math.hypot`. -/
  hypot : Rat → Rat → Rat
  /-- `math.degrees(math.atan2(x, y))`. -/
  bearing : Rat → Rat → Rat
  /-- `x % 360` of a float. -/
  mod360 : Rat → Rat
  /-- `math.cos(math.radians(x))`. -/
  cosDegrees : Rat → Rat

namespace FloatMath

variable (F : FloatMath)

def mul (x y : Rat) : Rat := F.near (x * y)

def div (x y : Rat) : Rat := F.near (x / y)

def add (x y : Rat) : Rat := F.near (x + y)

def sub (x y : Rat) : Rat := F.near (x - y)

end FloatMath

/-- Arithmetic that does not round, with lengths and bearings along the axes and positions on a
meridian. -/
def exactMath : FloatMath where
  near x := x
  round x _ := x
  polarToWgs84 lat lon rangeNm _ := (lat + rangeNm / 60, lon)
  cartesianToWgs84 lat lon _ y := (lat + y / 60, lon)
  hypot x y := (if x < 0 then -x else x) + (if y < 0 then -y else y)
  bearing x y := if x < 0 then -90 else if 0 < x then 90 else if y < 0 then 180 else 0
  mod360 x := if x < 0 then x + 360 else x
  cosDegrees _ := 1

/-! ## Values -/

def num (n : Nat) : PyJson := .int n

def flag (b : Bool) : PyJson := .bool b

def real (x : Rat) : PyJson := .float (.finite x)

/-- `bool(octet & mask)`. -/
def bits (octet mask : UInt8) : Bool := octet &&& mask != 0

/-- `bool(word & mask)`. -/
def wordBits (word mask : Nat) : Bool := word &&& mask != 0

/-- `(octet >> shift) & mask`. -/
def field (octet : UInt8) (shift mask : Nat) : Nat := (octet.toNat >>> shift) &&& mask

variable (data : List UInt8)

/-- The byte at an index of the bytes of an item. -/
def octetAt (i : Nat) : UInt8 := data.getD i 0

/-- `data[from:to]`. -/
def slice (start stop : Nat) : List UInt8 := (data.take stop).drop start

def u16 (i : Nat) : Nat := BigEndian.ofBytes (slice data i (i + 2))

def u32 (i : Nat) : Nat := BigEndian.ofBytes (slice data i (i + 4))

/-- Two's complement of `width` bits. -/
def signed (width n : Nat) : Int := if n < 2 ^ (width - 1) then n else n - 2 ^ width

def s8 (octet : UInt8) : Int := signed 8 octet.toNat

def s16 (i : Nat) : Int := signed 16 (u16 data i)

def s24 (i : Nat) : Int := signed 24 (BigEndian.ofBytes (slice data i (i + 3)))

def s32 (i : Nat) : Int := signed 32 (u32 data i)

/-! ## Texts -/

/-- A number with leading zeros, at least `width` digits of it. -/
def digits (base width n : Nat) : String :=
  let text := Nat.toDigits base n
  String.ofList (List.replicate (width - text.length) '0' ++ text)

theorem digits_inj {width m n : Nat} (h : digits 10 width m = digits 10 width n) : m = n := by
  have hvalue : ∀ k, Nat.ofDigitChars 10 (digits 10 width k).toList 0 = k := by
    intro k
    rw [digits, String.toList_ofList, Nat.ofDigitChars_append, Nat.ofDigitChars_replicate_zero,
      Nat.mul_zero, Nat.ofDigitChars_ten_toDigits]
  rw [← hvalue m, h, hvalue n]

theorem len_digits_octet (b : UInt8) : PyStr.len (digits 10 3 b.toNat) = 3 := by
  have hall : ∀ n < 256, PyStr.len (digits 10 3 n) = 3 := by decide +kernel
  exact hall b.toNat b.toNat_lt

/-- `"{:04o}".format(n)`, with the width. -/
def octal (width n : Nat) : PyJson := .str (digits 8 width n)

/-- `"{:06x}".format(n)`, with the width. -/
def hex (width n : Nat) : PyJson := .str (digits 16 width n)

/-- `data.decode("ascii", errors="replace")`. -/
def decodeAscii : String :=
  String.ofList (data.map fun b => if b < 0x80 then Char.ofNat b.toNat else Char.ofNat 0xfffd)

/-- `text.strip("\x00 ")`. -/
def stripPadding (text : String) : String :=
  String.ofList (PyStr.stripList (fun c => c == '\x00' || c == ' ') text.toList)

/-- `_CHARSET_6BIT`. -/
def charset6Bit : List Char :=
  "@ABCDEFGHIJKLMNOPQRSTUVWXYZ[\\]^_ !\"#$%&'()*+,-./0123456789:;<=>?".toList

/-- `_decode_callsign`. -/
def decodeCallsign (raw : List UInt8) : String :=
  let code := BigEndian.ofBytes raw
  PyStr.strip (String.ofList ([7, 6, 5, 4, 3, 2, 1, 0].map fun i =>
    charset6Bit.getD ((code >>> (i * 6)) &&& 0x3F) ' '))

/-! ## Writing tracks -/

/-- `track[key] = value` where a condition holds. -/
def setIf (condition : Bool) (key : String) (value : PyJson) (track : Track) : Track :=
  if condition then track.set key value else track

/-- `track[key] = True` for each mask that the octet has. -/
def setFlags (octet : UInt8) : List (UInt8 × String) → Track → Track
  | [], track => track
  | (mask, key) :: flags, track =>
    setFlags octet flags (setIf (bits octet mask) key (flag true) track)

/-- `track.update(out)`. -/
def updateWith (out track : Track) : Track :=
  out.entries.foldl (fun track entry => track.set entry.1 entry.2) track

/-- `"{:03d}-{:03d}".format(sac, sic)`. -/
def sourceText (sac sic : Nat) : String := digits 10 3 sac ++ "-" ++ digits 10 3 sic

/-- `track.get(key, 0) or 0` of a key that holds a number. -/
def numberOr0 (track : Track) (key : String) : Nat :=
  match track.get? key with
  | some (.int n) => n.toNat
  | _ => 0

/-- `_asterix_source`. -/
def asterixSource (track : Track) : String :=
  sourceText (numberOr0 track "sac") (numberOr0 track "sic")

theorem sourceText_inj {sac sic sac' sic' : UInt8}
    (h : sourceText sac.toNat sic.toNat = sourceText sac'.toNat sic'.toNat) :
    sac = sac' ∧ sic = sic' := by
  rw [sourceText, sourceText, String.append_assoc, String.append_assoc] at h
  obtain ⟨hsac, hrest⟩ := PyStr.append_inj
    (by rw [len_digits_octet, len_digits_octet]) h
  obtain ⟨-, hsic⟩ := PyStr.append_inj rfl hrest
  exact ⟨UInt8.toNat_inj.mp (digits_inj hsac), UInt8.toNat_inj.mp (digits_inj hsic)⟩

theorem len_sourceText (sac sic : UInt8) : PyStr.len (sourceText sac.toNat sic.toNat) = 7 := by
  have happend : ∀ s t : String, PyStr.len (s ++ t) = PyStr.len s + PyStr.len t := by
    intro s t
    rw [PyStr.len, String.toList_append, List.length_append]
    rfl
  rw [sourceText, happend, happend, len_digits_octet, len_digits_octet]
  rfl

/-- `table.get(code, default)`. -/
def nameOf (table : List (Nat × String)) (default : String) (code : Nat) : String :=
  ((table.find? fun entry => entry.1 == code).map Prod.snd).getD default

/-- A decoder of one message, which returns `None` when nothing was decoded. -/
def decodeMessage (p : Reader Track Unit) (data : List UInt8) : Option Track :=
  (p.run PyDict.empty data).state?.bind fun msg => if msg.length = 0 then none else some msg

/-! ## BDS registers -/

/-- `_bit(n)` of a register of 56 bits. -/
def bdsBit (v n : Nat) : Bool := (v >>> (56 - n)) &&& 1 != 0

/-- `_uns(a, b)`. -/
def bdsUns (v a b : Nat) : Nat := (v >>> (56 - b)) &&& ((1 <<< (b - a + 1)) - 1)

/-- `_sgn(a, b)`. -/
def bdsSgn (v a b : Nat) : Int := signed (b - a + 1) (bdsUns v a b)

variable (F : FloatMath)

/-- `_decode_bds50`. -/
def decodeBds50 (mb : List UInt8) (out : Track) : Track :=
  let v := BigEndian.ofBytes (mb.take 7)
  let out := setIf (bdsBit v 1) "roll_deg"
    (real (F.round (F.div (F.mul (bdsSgn v 2 11) 45) 256) 1)) out
  let out := setIf (bdsBit v 12) "true_track_deg"
    (real (F.round (F.div (F.mul (bdsUns v 13 23) 360) 2048) 2)) out
  let out := setIf (bdsBit v 24) "bds_gs_kt" (real (F.round (F.mul (bdsUns v 25 34) 2) 0)) out
  let out := setIf (bdsBit v 35) "track_rate_degs"
    (real (F.round (F.div (F.mul (bdsSgn v 36 45) 8) 256) 2)) out
  setIf (bdsBit v 46) "tas_kt" (real (F.round (F.mul (bdsUns v 47 56) 2) 0)) out

/-- `_decode_bds60`. -/
def decodeBds60 (mb : List UInt8) (out : Track) : Track :=
  let v := BigEndian.ofBytes (mb.take 7)
  let out := setIf (bdsBit v 1) "mag_hdg_deg"
    (real (F.round (F.div (F.mul (bdsUns v 2 12) 360) 2048) 2)) out
  let out := setIf (bdsBit v 13) "ias_kt" (num (bdsUns v 14 23)) out
  let out := setIf (bdsBit v 24) "mach"
    (real (F.round (F.div (F.mul (bdsUns v 25 34) (F.near 2.048)) 512) 3)) out
  let out := setIf (bdsBit v 35) "baro_vr_fpm" (.int (bdsSgn v 36 45 * 32)) out
  setIf (bdsBit v 46) "ivv_fpm" (.int (bdsSgn v 47 56 * 32)) out

/-- `_decode_bds40`. -/
def decodeBds40 (mb : List UInt8) (out : Track) : Track :=
  let v := BigEndian.ofBytes (mb.take 7)
  let out := setIf (bdsBit v 1) "sel_alt_mcp_ft" (num (bdsUns v 2 13 * 16)) out
  let out := setIf (bdsBit v 14) "sel_alt_fms_ft" (num (bdsUns v 15 26 * 16)) out
  let out := setIf (bdsBit v 27) "baro_setting_mb"
    (real (F.round (F.add (F.mul (bdsUns v 28 39) (F.near 0.1)) 800) 1)) out
  if bdsBit v 48 then
    let out := setIf (bdsBit v 49) "vnav_active" (flag true) out
    let out := setIf (bdsBit v 50) "alt_hold" (flag true) out
    setIf (bdsBit v 51) "approach_mode" (flag true) out
  else out

/-- `_decode_bds10`. -/
def decodeBds10 (mb : List UInt8) (out : Track) : Track :=
  let v := BigEndian.ofBytes (mb.take 7)
  [("dlc_continuation_flag", flag (bdsBit v 9)),
    ("overlay_command_capability", flag (bdsBit v 15)),
    ("acas_operational", flag (bdsBit v 16)),
    ("mode_s_subnetwork_version", num (bdsUns v 17 23)),
    ("transponder_level5", flag (bdsBit v 24)),
    ("mode_s_specific_services", flag (bdsBit v 25)),
    ("uplink_elm_throughput", num (bdsUns v 26 28)),
    ("downlink_elm_throughput", num (bdsUns v 29 32)),
    ("aircraft_id_capability", flag (bdsBit v 33)),
    ("squitter_capability", flag (bdsBit v 34)),
    ("surveillance_id_capability", flag (bdsBit v 35)),
    ("common_usage_gicb_capability", flag (bdsBit v 36)),
    ("acas_hybrid_surveillance", flag (bdsBit v 37)),
    ("acas_resolution_advisory", flag (bdsBit v 38)),
    ("acas_rtca_version", num (bdsUns v 39 40)),
    ("dte_status", num (bdsUns v 41 56))].foldl (fun out entry => out.set entry.1 entry.2) out

/-- `_BDS17_CAPABILITY`. -/
def bds17Capability : List String :=
  ["0,5", "0,6", "0,7", "0,8", "0,9", "0,A", "2,0", "2,1", "4,0", "4,1", "4,2", "4,3", "4,4",
    "4,5", "4,8", "5,0", "5,1", "5,2", "5,3", "5,4", "5,5", "5,6", "5,F", "6,0"]

/-- `_decode_bds17`. -/
def decodeBds17 (mb : List UInt8) (out : Track) : Track :=
  let v := BigEndian.ofBytes (mb.take 7)
  out.set "supported_bds" (.list (bds17Capability.zipIdx.filterMap fun entry =>
    if bdsBit v (entry.2 + 1) then some (.str entry.1) else none))

/-- `_decode_bds30`. -/
def decodeBds30 (mb : List UInt8) (out : Track) : Track :=
  if mb.length < 7 then out
  else
    let v := BigEndian.ofBytes (mb.take 7)
    if bdsBit v 9 then
      let out := (out.set "acas_ra_active" (flag true)).set "acas_ra_hex" (hex 14 v)
      let out :=
        if bdsBit v 10 then
          (out.set "acas_ra_sense" (.str (if bdsBit v 11 then "DESCEND" else "CLIMB"))).set
            "acas_ra_corrective" (flag true)
        else out
      (out.set "acas_ra_terminated" (flag (bdsBit v 27))).set "acas_multi_threat"
        (flag (bdsBit v 28))
    else out

/-- One group of Mode S MB data: seven bytes and the address of the register. -/
def decodeMb (group : List UInt8) (out : Track) : Track :=
  let mb := group.take 7
  let bds := octetAt group 7
  match field bds 4 0x0F, field bds 0 0x0F with
  | 1, 0 => decodeBds10 mb out
  | 1, 7 => decodeBds17 mb out
  | 3, 0 => decodeBds30 mb out
  | 4, 0 => decodeBds40 F mb out
  | 5, 0 => decodeBds50 F mb out
  | 6, 0 => decodeBds60 F mb out
  | _, _ => out

/-! ## Mode C -/

/-- `_gray_fold`. -/
def grayFold (bits : List Nat) : Nat :=
  (bits.foldl (fun (acc : Nat × Nat) bit =>
    ((acc.1 <<< 1) ||| (acc.2 ^^^ bit), acc.2 ^^^ bit)) (0, 0)).1

/-- `_gillham_to_ft`. -/
def gillhamToFt (code : Nat) : Option Int :=
  let bit (n : Nat) : Nat := (code >>> n) &&& 1
  if bit 15 = 1 ∨ bit 14 = 1 then none
  else if bit 4 = 1 then none
  else
    let nC := grayFold [bit 11, bit 9, bit 7]
    if nC = 0 ∨ nC = 5 ∨ nC = 6 then none
    else
      let nC := if nC = 7 then 5 else nC
      let n500 := grayFold [bit 2, bit 0, bit 10, bit 8, bit 6, bit 5, bit 3, bit 1]
      let nC : Int := if n500 % 2 = 1 then 6 - nC else nC
      some (n500 * 500 + nC * 100 - 1300)

end Efdi.Asterix

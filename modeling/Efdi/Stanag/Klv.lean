import Efdi.Base.BigEndian
import Efdi.Base.Framing
import Efdi.Base.Search

/-!
# KLV packets

The STANAG 4609 part of `stanag.py`: BER lengths and `_4609_parse_klv_packets`.  A packet is a
key of sixteen bytes that begins with the KLV prefix, the length of the value, and the value.
`klvLook` is one round of the inner loop of the parser, and the parser drains its buffer after
every chunk.
-/

namespace Efdi.Stanag

open List
open Framing (Look Scanner)

/-! ## BER lengths -/

/-- A `ValueError` of `_4609_decode_ber`. -/
inductive BerError where
  | missing
  | indefinite
  | exceeds
  | short
deriving DecidableEq, Repr

def BerError.message : BerError → String
  | .missing => "missing BER length"
  | .indefinite => "indefinite BER lengths are not supported"
  | .exceeds => "BER length exceeds 64 bits"
  | .short => "short BER length"

/-- `_4609_decode_ber`: the length and the number of bytes that it takes. -/
def decodeBer : List UInt8 → Except BerError (Nat × Nat)
  | [] => .error .missing
  | first :: data =>
    if first.toNat < 0x80 then .ok (first.toNat, 1)
    else
      -- `first & 0x7F`
      let count := first.toNat % 0x80
      if count = 0 then .error .indefinite
      else if 8 < count then .error .exceeds
      else if data.length < count then .error .short
      else .ok (BigEndian.ofBytes (data.take count), 1 + count)

/-- `_4609_encode_ber`.  `bytes` raises for a number above 255. -/
def encodeBer (value : Int) : Except String (List UInt8) :=
  if value < 0 then .error "negative BER length"
  else if value < 0x80 then .ok [UInt8.ofNat value.toNat]
  else
    let raw := BigEndian.toBytes (BigEndian.byteLength value.toNat) value.toNat
    let marker := 0x80 ||| raw.length
    if 256 ≤ marker then .error "bytes must be in range(0, 256)"
    else .ok (UInt8.ofNat marker :: raw)

/-! ## Looking for a packet -/

/-- `_4609_KLV_PREFIX`. -/
def klvPrefix : List UInt8 := [0x06, 0x0E, 0x2B, 0x34]

/-- `_4609_looks_like_klv_key`. -/
def looksLikeKlvKey (key : List UInt8) : Bool := decide (key.length = 16 ∧ klvPrefix <+: key)

/-- A key and its value. -/
abbrev KlvPacket := List UInt8 × List UInt8

/-- One round of the inner loop of `_4609_parse_klv_packets`.  `maxBytes` is
`_4609_MAX_KLV_BYTES`. -/
def klvLook (maxBytes : Int) (buffer : List UInt8) : Look UInt8 KlvPacket :=
  if buffer.length < 17 then .wait buffer
  else if !looksLikeKlvKey (buffer.take 16) then
    match Search.find? klvPrefix (buffer.drop 1) with
    | some i => .drop (buffer.drop (i + 1))
    | none =>
      -- the end of the buffer may be the beginning of a prefix
      let keep := min buffer.length (klvPrefix.length - 1)
      .wait (buffer.drop (buffer.length - keep))
  else
    let firstLength := (buffer.getD 16 0).toNat
    let lengthOctets := firstLength % 0x80
    if 0x80 ≤ firstLength ∧ (lengthOctets = 0 ∨ 8 < lengthOctets) then .drop (buffer.drop 1)
    else if 0x80 ≤ firstLength ∧ buffer.length < 17 + lengthOctets then .wait buffer
    else
      match decodeBer (buffer.drop 16) with
      | .error _ => .wait (buffer.drop 1)
      | .ok (valueLen, lenSize) =>
        if maxBytes < valueLen then .drop (buffer.drop 1)
        else
          let totalLen := 16 + lenSize + valueLen
          if buffer.length < totalLen then .wait buffer
          else
            .frame (buffer.take 16, (buffer.take totalLen).drop (16 + lenSize))
              (buffer.drop totalLen)

/-! ## BER lemmas -/

theorem decodeBer_append {first : UInt8} {data : List UInt8} {result : Except BerError (Nat × Nat)}
    (h : decodeBer (first :: data) = result) (hshort : result ≠ .error .short)
    (more : List UInt8) : decodeBer (first :: (data ++ more)) = result := by
  rw [decodeBer] at h ⊢
  split at h
  next hsmall => rw [if_pos hsmall, h]
  next hlarge =>
    rw [if_neg hlarge]
    dsimp only at h ⊢
    split at h
    next hzero => rw [if_pos hzero, h]
    next hzero =>
      rw [if_neg hzero]
      split at h
      next hmany => rw [if_pos hmany, h]
      next hmany =>
        rw [if_neg hmany]
        split at h
        next => exact absurd h.symm hshort
        next hlong =>
          have hlonger : ¬ (data ++ more).length < first.toNat % 0x80 := by
            rw [length_append]
            omega
          rw [if_neg hlonger, take_append_of_le_length (by omega), h]

theorem or_marker : ∀ n < 9, 0x80 ||| n = 128 + n := by decide

theorem encodeBer_short {n : Nat} (h : n < 0x80) : encodeBer n = .ok [UInt8.ofNat n] := by
  rw [encodeBer, if_neg (by omega), if_pos (by omega)]
  rfl

theorem encodeBer_long {n : Nat} (hlarge : 0x80 ≤ n) (h : n < 2 ^ 64) :
    encodeBer n = .ok (UInt8.ofNat (128 + BigEndian.byteLength n) ::
      BigEndian.toBytes (BigEndian.byteLength n) n) := by
  have hwidth : BigEndian.byteLength n ≤ 8 := BigEndian.byteLength_le (by omega)
  have hmarker : 0x80 ||| BigEndian.byteLength n = 128 + BigEndian.byteLength n :=
    or_marker _ (by omega)
  rw [encodeBer, if_neg (by omega), if_neg (by omega)]
  simp only [Int.toNat_natCast, BigEndian.length_toBytes, hmarker]
  exact if_neg (by omega)

/-- A length below `2 ^ 64` is read back, whatever follows it. -/
theorem decodeBer_encodeBer {n : Nat} (h : n < 2 ^ 64) :
    ∃ ber, encodeBer n = .ok ber ∧ ber ≠ [] ∧
      ∀ more, decodeBer (ber ++ more) = .ok (n, ber.length) := by
  by_cases hsmall : n < 0x80
  · have hbyte : (UInt8.ofNat n).toNat = n := by
      rw [UInt8.toNat_ofNat']
      omega
    refine ⟨[UInt8.ofNat n], encodeBer_short hsmall, cons_ne_nil _ _, fun more => ?_⟩
    rw [singleton_append, decodeBer, hbyte, if_pos hsmall]
    rfl
  · have hwidth : BigEndian.byteLength n ≤ 8 := BigEndian.byteLength_le (by omega)
    have hwidthPos : 0 < BigEndian.byteLength n := BigEndian.byteLength_pos (by omega)
    have hbyte : (UInt8.ofNat (128 + BigEndian.byteLength n)).toNat =
        128 + BigEndian.byteLength n := by
      rw [UInt8.toNat_ofNat']
      omega
    refine ⟨_, encodeBer_long (by omega) h, cons_ne_nil _ _, fun more => ?_⟩
    have hcount : (128 + BigEndian.byteLength n) % 0x80 = BigEndian.byteLength n := by omega
    rw [cons_append, decodeBer, hbyte]
    simp only [hcount, length_append, BigEndian.length_toBytes, length_cons]
    rw [if_neg (by omega), if_neg (by omega), if_neg (by omega), if_neg (by omega),
      take_append_of_le_length (by rw [BigEndian.length_toBytes]),
      take_of_length_le (by rw [BigEndian.length_toBytes]),
      BigEndian.ofBytes_toBytes (BigEndian.lt_pow_byteLength n), Nat.add_comm]

/-! ## A look -/

theorem looksLikeKlvKey_take {buffer : List UInt8} (h : 17 ≤ buffer.length) :
    looksLikeKlvKey (buffer.take 16) = true ↔ klvPrefix <+: buffer := by
  have hlength : (buffer.take 16).length = 16 := by
    rw [length_take]
    omega
  rw [looksLikeKlvKey, decide_eq_true_iff, hlength]
  constructor
  · exact fun hkey => hkey.2.trans ( take_prefix _ _)
  · intro hkey
    refine ⟨rfl, prefix_of_prefix_length_le hkey ( take_prefix _ _) ?_⟩
    rw [hlength]
    decide

section Look

variable {maxBytes : Int} {buffer : List UInt8}

theorem klvLook_short (h : buffer.length < 17) : klvLook maxBytes buffer = .wait buffer :=
  if_pos h

theorem klvLook_junk (h : 17 ≤ buffer.length) (hkey : ¬ klvPrefix <+: buffer) :
    klvLook maxBytes buffer =
      match Search.find? klvPrefix (buffer.drop 1) with
      | some i => .drop (buffer.drop (i + 1))
      | none => .wait (buffer.drop (buffer.length - 3)) := by
  have hlook : looksLikeKlvKey (buffer.take 16) = false := by
    rw [← Bool.not_eq_true, looksLikeKlvKey_take h]
    exact hkey
  have hkeep : min buffer.length (klvPrefix.length - 1) = 3 := by
    have hthree : klvPrefix.length - 1 = 3 := rfl
    omega
  rw [klvLook, if_neg (by omega), hlook, Bool.not_false, if_pos rfl, hkeep]

/-- The parser reads the length of a packet as `_4609_decode_ber` does: it waits for a length
that is not complete and skips a byte for any other that is refused. -/
theorem klvLook_key (h : 17 ≤ buffer.length) (hkey : klvPrefix <+: buffer) :
    klvLook maxBytes buffer =
      match decodeBer (buffer.drop 16) with
      | .error .short => .wait buffer
      | .error _ => .drop (buffer.drop 1)
      | .ok (valueLen, lenSize) =>
        if maxBytes < valueLen then .drop (buffer.drop 1)
        else if buffer.length < 16 + lenSize + valueLen then .wait buffer
        else
          .frame (buffer.take 16, (buffer.take (16 + lenSize + valueLen)).drop (16 + lenSize))
            (buffer.drop (16 + lenSize + valueLen)) := by
  obtain ⟨first, data, hdrop⟩ : ∃ first data, buffer.drop 16 = first :: data := by
    refine exists_cons_of_ne_nil fun hnil => ?_
    rw [drop_eq_nil_iff] at hnil
    omega
  have hdata : buffer.length = 17 + data.length := by
    have hlength := congrArg length hdrop
    rw [length_drop, length_cons] at hlength
    omega
  have hfirst : buffer.getD 16 0 = first := by
    have hget : buffer[16]? = some first := by
      rw [← head?_drop, hdrop, head?_cons]
    rw [getD_eq_getElem?_getD, hget, Option.getD_some]
  rw [klvLook, if_neg (by omega), (looksLikeKlvKey_take h).mpr hkey, Bool.not_true,
    if_neg Bool.false_ne_true, hfirst, hdrop, decodeBer]
  by_cases hsmall : first.toNat < 0x80
  · simp only [if_pos hsmall]
    rw [if_neg (by omega), if_neg (by omega)]
  · simp only [if_neg hsmall]
    by_cases hzero : first.toNat % 0x80 = 0
    · simp only [if_pos hzero]
      rw [if_pos (by omega)]
    · simp only [if_neg hzero]
      by_cases hmany : 8 < first.toNat % 0x80
      · simp only [if_pos hmany]
        rw [if_pos (by omega)]
      · simp only [if_neg hmany]
        by_cases hshort : data.length < first.toNat % 0x80
        · simp only [if_pos hshort]
          rw [if_neg (by omega), if_pos (by omega)]
        · simp only [if_neg hshort]
          rw [if_neg (by omega), if_neg (by omega)]

end Look

end Efdi.Stanag

import Mathlib.Algebra.Order.Ring.Rat
import Mathlib.Data.List.Induction
import Mathlib.Data.Nat.Size

/-!
# Big-endian numbers

`int.from_bytes(data, "big")` and `n.to_bytes(width, "big")`.  A number that fits its width is
read back (`ofBytes_toBytes`), as bytes are (`toBytes_ofBytes`), and it fits the width that its bit length asks for
(`lt_pow_byteLength`).
-/

namespace BigEndian

/-- `int.from_bytes(data, "big")`. -/
def ofBytes (data : List UInt8) : Nat := data.foldl (fun n byte => 256 * n + byte.toNat) 0

/-- `n.to_bytes(width, "big")`, for a number that fits. -/
def toBytes : Nat → Nat → List UInt8
  | 0, _ => []
  | width + 1, n => toBytes width (n / 256) ++ [UInt8.ofNat (n % 256)]

/-- `(n.bit_length() + 7) // 8`. -/
def byteLength (n : Nat) : Nat := (n.size + 7) / 8

@[simp] theorem length_toBytes : ∀ width n : Nat, (toBytes width n).length = width
  | 0, _ => rfl
  | width + 1, n => by
    rw [toBytes, List.length_append, length_toBytes width]
    rfl

theorem ofBytes_concat (data : List UInt8) (byte : UInt8) :
    ofBytes (data ++ [byte]) = 256 * ofBytes data + byte.toNat := by
  rw [ofBytes, List.foldl_append]
  rfl

theorem ofBytes_toBytes : ∀ {width n : Nat}, n < 256 ^ width → ofBytes (toBytes width n) = n
  | 0, n, h => by
    rw [Nat.pow_zero, Nat.lt_one_iff] at h
    rw [h]
    rfl
  | width + 1, n, h => by
    have hhigh : n / 256 < 256 ^ width := by
      rw [Nat.div_lt_iff_lt_mul (by decide), ← Nat.pow_succ]
      exact h
    rw [toBytes, ofBytes_concat, ofBytes_toBytes hhigh, UInt8.toNat_ofNat']
    omega

/-- Bytes are those of the number that they are read as. -/
theorem toBytes_ofBytes (data : List UInt8) : toBytes data.length (ofBytes data) = data := by
  induction data using List.reverseRecOn with
  | nil => rfl
  | append_singleton data byte ih =>
    have hbyte := byte.toNat_lt
    have hhigh : (256 * ofBytes data + byte.toNat) / 256 = ofBytes data := by omega
    have hlow : (256 * ofBytes data + byte.toNat) % 256 = byte.toNat := by omega
    rw [List.length_append, ofBytes_concat, List.length_singleton, toBytes, hhigh, hlow, ih,
      UInt8.ofNat_toNat]

theorem lt_pow_byteLength (n : Nat) : n < 256 ^ byteLength n := by
  have hbits : n < 2 ^ n.size := Nat.lt_size_self n
  have hwidth : n.size ≤ 8 * byteLength n := by
    rw [byteLength]
    omega
  calc n < 2 ^ n.size := hbits
    _ ≤ 2 ^ (8 * byteLength n) := Nat.pow_le_pow_right (by decide) hwidth
    _ = 256 ^ byteLength n := by rw [Nat.pow_mul]

/-- A number below `2 ^ 64` has at most eight bytes. -/
theorem byteLength_le {n width : Nat} (h : n < 256 ^ width) : byteLength n ≤ width := by
  have hbits : n.size ≤ 8 * width := by
    rw [Nat.size_le, Nat.pow_mul]
    exact h
  rw [byteLength]
  omega

theorem byteLength_pos {n : Nat} (h : 0 < n) : 0 < byteLength n := by
  have hbits : 0 < n.size := Nat.size_pos.mpr h
  rw [byteLength]
  omega

end BigEndian

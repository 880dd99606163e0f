import Mathlib.Data.UInt
import Mathlib.Tactic.Ring

/-!
# Base-128 numbers

A number in bytes of seven bits each, the lowest first, where every byte but the last has its high
bit set.  `encode` writes the shortest form.  A reader also takes longer forms, so `valueOf` is
defined on any bytes, and `Whole` says that they are those of one number.
-/

namespace Varint

open List

/-- The number that bytes carry. -/
def valueOf : List UInt8 → Nat
  | [] => 0
  | byte :: rest => byte.toNat % 128 + 128 * valueOf rest

/-- The bytes of one number. -/
inductive Whole : List UInt8 → Prop where
  | last {byte : UInt8} (h : byte.toNat < 128) : Whole [byte]
  | more {byte : UInt8} {rest : List UInt8} (h : 128 ≤ byte.toNat) (hrest : Whole rest) :
      Whole (byte :: rest)

/-- The shortest bytes of a number. -/
def encode (n : Nat) : List UInt8 :=
  if n < 128 then [UInt8.ofNat n] else UInt8.ofNat (n % 128 + 128) :: encode (n / 128)
termination_by n

theorem encode_of_lt {n : Nat} (h : n < 128) : encode n = [UInt8.ofNat n] := by
  rw [encode, if_pos h]

theorem encode_of_le {n : Nat} (h : 128 ≤ n) :
    encode n = UInt8.ofNat (n % 128 + 128) :: encode (n / 128) := by
  rw [encode, if_neg (Nat.not_lt.mpr h)]

theorem toNat_ofNat {n : Nat} (h : n < 256) : (UInt8.ofNat n).toNat = n := by
  rw [UInt8.toNat_ofNat']
  exact Nat.mod_eq_of_lt h

theorem whole_encode (n : Nat) : Whole (encode n) := by
  induction n using encode.induct with
  | case1 n h =>
    rw [encode_of_lt h]
    exact .last (by rwa [toNat_ofNat (by omega)])
  | case2 n h ih =>
    rw [encode_of_le (by omega)]
    refine .more ?_ ih
    rw [toNat_ofNat (by omega)]
    omega

theorem valueOf_encode (n : Nat) : valueOf (encode n) = n := by
  induction n using encode.induct with
  | case1 n h =>
    rw [encode_of_lt h, valueOf, valueOf, toNat_ofNat (by omega)]
    omega
  | case2 n h ih =>
    rw [encode_of_le (by omega), valueOf, ih, toNat_ofNat (by omega)]
    omega

theorem length_encode_le {n : Nat} (width : Nat) (h : n < 128 ^ (width + 1)) :
    (encode n).length ≤ width + 1 := by
  induction width generalizing n with
  | zero =>
    rw [encode_of_lt (by simpa using h)]
    simp
  | succ width ih =>
    rcases Nat.lt_or_ge n 128 with hn | hn
    · rw [encode_of_lt hn]
      simp
    · have hhigh : n / 128 < 128 ^ (width + 1) := by
        rw [Nat.div_lt_iff_lt_mul (by decide), ← Nat.pow_succ]
        exact h
      rw [encode_of_le hn, length_cons]
      exact Nat.succ_le_succ (ih hhigh)

theorem valueOf_lt (data : List UInt8) : valueOf data < 128 ^ data.length := by
  induction data with
  | nil => simp [valueOf]
  | cons byte rest ih =>
    rw [valueOf, length_cons, Nat.pow_succ]
    omega

theorem valueOf_append (data more : List UInt8) :
    valueOf (data ++ more) = valueOf data + 128 ^ data.length * valueOf more := by
  induction data with
  | nil => simp [valueOf]
  | cons byte rest ih =>
    rw [cons_append, valueOf, valueOf, ih, length_cons]
    ring

theorem Whole.exists_last {data : List UInt8} (h : Whole data) :
    ∃ (init : List UInt8) (last : UInt8), data = init ++ [last] ∧ last.toNat < 128 := by
  induction h with
  | last h => exact ⟨[], _, rfl, h⟩
  | more _ _ ih =>
    obtain ⟨init, last, rfl, hlast⟩ := ih
    exact ⟨_ :: init, last, rfl, hlast⟩

/-- Seven bits a byte leave one bit of 64 for the tenth byte, so bytes that are no more than ten
    pass 64 bits by a tenth byte that has another. -/
theorem Whole.two_pow_le_valueOf_iff {data : List UInt8} (h : Whole data)
    (hlength : data.length ≤ 10) :
    2 ^ 64 ≤ valueOf data ↔ data.length = 10 ∧ ∃ last ∈ data.getLast?, 1 < last.toNat := by
  obtain ⟨init, last, rfl, hlast⟩ := h.exists_last
  have hinit := valueOf_lt init
  have hvalue : valueOf (init ++ [last]) = valueOf init + 128 ^ init.length * last.toNat := by
    rw [valueOf_append, valueOf, valueOf, Nat.mod_eq_of_lt hlast, Nat.mul_zero, Nat.add_zero]
  rw [length_append, length_singleton] at hlength ⊢
  rw [hvalue, getLast?_concat]
  rcases Nat.eq_or_lt_of_le (Nat.le_of_succ_le_succ hlength) with hnine | hfewer
  · rw [hnine] at hinit ⊢
    simp
    omega
  · have hsmall : valueOf (init ++ [last]) < 128 ^ 9 := by
      refine (valueOf_lt _).trans_le (Nat.pow_le_pow_right (by decide) ?_)
      rw [length_append, length_singleton]
      exact hfewer
    rw [hvalue] at hsmall
    constructor
    · intro hle
      omega
    · rintro ⟨hten, -⟩
      omega

end Varint

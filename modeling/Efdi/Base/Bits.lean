import Efdi.Base.BigEndian
import Mathlib.Tactic.Ring

/-!
# Rows of bits

Numbers as rows of bits, the most significant one first.  A window of a row is cut out by a shift
and a mask (`ofBits_window`), and rows of one length are told apart by their numbers
(`ofBits_inj`).  Rows that are put together with padding before each one agree with the rows
without it, from the front of the second padding on, exactly as far as they are all zero
(`take_padded_eq_iff`).
-/

namespace Bits

open List

/-- The number of a row of bits. -/
def ofBits (bits : List Bool) : Nat := bits.foldl (fun n bit => 2 * n + bit.toNat) 0

/-- The last `width` bits of a number. -/
def toBits : Nat → Nat → List Bool
  | 0, _ => []
  | width + 1, n => toBits width (n / 2) ++ [decide (n % 2 = 1)]

/-- The bits of a row of bytes. -/
def ofData (data : List UInt8) : List Bool := data.flatMap fun byte => toBits 8 byte.toNat

@[simp] theorem length_toBits : ∀ width n : Nat, (toBits width n).length = width
  | 0, _ => rfl
  | width + 1, n => by
    rw [toBits, length_append, length_toBits width]
    rfl

theorem length_ofData (data : List UInt8) : (ofData data).length = 8 * data.length := by
  induction data with
  | nil => rfl
  | cons byte data ih =>
    rw [ofData, flatMap_cons, length_append, length_toBits]
    rw [ofData] at ih
    rw [ih, length_cons]
    omega

theorem ofBits_concat (bits : List Bool) (bit : Bool) :
    ofBits (bits ++ [bit]) = 2 * ofBits bits + bit.toNat := by
  rw [ofBits, foldl_append]
  rfl

theorem ofBits_append (front back : List Bool) :
    ofBits (front ++ back) = ofBits front * 2 ^ back.length + ofBits back := by
  induction back using reverseRecOn with
  | nil => simp [ofBits]
  | append_singleton back bit ih =>
    rw [← append_assoc, ofBits_concat, ih, ofBits_concat, length_append,
      length_singleton, Nat.pow_succ]
    ring

theorem ofBits_lt (bits : List Bool) : ofBits bits < 2 ^ bits.length := by
  induction bits using reverseRecOn with
  | nil => decide
  | append_singleton bits bit ih =>
    have hbit := bit.toNat_lt
    rw [ofBits_concat, length_append, length_singleton, Nat.pow_succ]
    omega

theorem ofBits_toBits : ∀ {width n : Nat}, n < 2 ^ width → ofBits (toBits width n) = n
  | 0, n, h => by
    rw [Nat.pow_zero, Nat.lt_one_iff] at h
    rw [h]
    rfl
  | width + 1, n, h => by
    have hhigh : n / 2 < 2 ^ width := by
      rw [Nat.div_lt_iff_lt_mul (by decide), ← Nat.pow_succ]
      exact h
    rw [toBits, ofBits_concat, ofBits_toBits hhigh]
    rcases Nat.mod_two_eq_zero_or_one n with hbit | hbit
    · simp [hbit]
      omega
    · simp [hbit]
      omega

theorem toBits_ofBits (bits : List Bool) : toBits bits.length (ofBits bits) = bits := by
  induction bits using reverseRecOn with
  | nil => rfl
  | append_singleton bits bit ih =>
    have hbit := bit.toNat_lt
    have hhigh : (2 * ofBits bits + bit.toNat) / 2 = ofBits bits := by omega
    have hlow : (2 * ofBits bits + bit.toNat) % 2 = bit.toNat := by omega
    rw [length_append, ofBits_concat, length_singleton, toBits, hhigh, hlow, ih]
    cases bit with
    | false => rfl
    | true => rfl

/-- Rows of one length are told apart by their numbers. -/
theorem ofBits_inj {a b : List Bool} (hlength : a.length = b.length) :
    ofBits a = ofBits b ↔ a = b := by
  constructor
  · intro h
    rw [← toBits_ofBits a, h, hlength, toBits_ofBits]
  · exact congrArg ofBits

theorem ofBits_ofData (data : List UInt8) : ofBits (ofData data) = BigEndian.ofBytes data := by
  induction data using reverseRecOn with
  | nil => rfl
  | append_singleton data byte ih =>
    have hbyte : ofData (data ++ [byte]) = ofData data ++ toBits 8 byte.toNat := by simp [ofData]
    rw [hbyte, ofBits_append, ih, ofBits_toBits byte.toNat_lt, BigEndian.ofBytes_concat,
      length_toBits]
    ring

/-- A window of a row, by a shift and a mask. -/
theorem ofBits_window {bits : List Bool} {start width : Nat} (h : start + width ≤ bits.length) :
    (ofBits bits >>> (bits.length - start - width)) &&& (1 <<< width - 1) =
      ofBits ((bits.drop start).take width) := by
  have hsplit : bits = bits.take start ++ ((bits.drop start).take width ++
      (bits.drop start).drop width) := by
    rw [take_append_drop, take_append_drop]
  have hwidth : ((bits.drop start).take width).length = width := by
    rw [length_take, length_drop]
    omega
  have hback : ((bits.drop start).drop width).length = bits.length - start - width := by
    rw [length_drop, length_drop]
  have hwindow := ofBits_lt ((bits.drop start).take width)
  have hrest := ofBits_lt ((bits.drop start).drop width)
  rw [hwidth] at hwindow
  rw [hback] at hrest
  have hsum := congrArg ofBits hsplit
  rw [← append_assoc, ofBits_append, ofBits_append, hwidth, hback] at hsum
  have hnumber : ofBits bits / 2 ^ (bits.length - start - width) =
      ofBits (bits.take start) * 2 ^ width + ofBits ((bits.drop start).take width) := by
    rw [hsum, Nat.mul_comm, Nat.mul_add_div (Nat.two_pow_pos _), Nat.div_eq_of_lt hrest,
      Nat.add_zero]
  rw [Nat.shiftLeft_eq, Nat.one_mul, Nat.and_two_pow_sub_one_eq_mod, Nat.shiftRight_eq_div_pow,
    hnumber, Nat.mul_comm, Nat.mul_add_mod, Nat.mod_eq_of_lt hwindow]

/-! ## Rows of one length -/

variable {α : Type*} {rows : List (List α)} {length : Nat}

theorem length_flatten (h : ∀ row ∈ rows, row.length = length) :
    rows.flatten.length = length * rows.length := by
  induction rows with
  | nil => rfl
  | cons row rows ih =>
    obtain ⟨hrow, hrows⟩ := forall_mem_cons.mp h
    rw [flatten_cons, length_append, hrow, ih hrows, length_cons]
    ring

/-- What is left from a place in one of the rows on. -/
theorem drop_flatten (h : ∀ row ∈ rows, row.length = length) {k start : Nat}
    (hstart : start ≤ length) (hk : k < rows.length) :
    rows.flatten.drop (length * k + start) = rows[k].drop start ++ (rows.drop (k + 1)).flatten := by
  induction rows generalizing k with
  | nil => cases hk
  | cons row rows ih =>
    obtain ⟨hrow, hrows⟩ := forall_mem_cons.mp h
    cases k with
    | zero =>
      rw [flatten_cons, Nat.mul_zero, Nat.zero_add,
        drop_append_of_le_length (by rw [hrow]; exact hstart)]
      rfl
    | succ k =>
      have hplace : length * (k + 1) + start = row.length + (length * k + start) := by
        rw [hrow]
        ring
      rw [flatten_cons, hplace, drop_length_add_append,
        ih hrows (Nat.lt_of_succ_lt_succ hk)]
      rfl

/-! ## Padding -/

/-- The rows, with a padding before each one. -/
def padded (padding : List α) (rows : List (List α)) : List α :=
  (rows.map (padding ++ ·)).flatten

theorem length_flatten_le_padded (padding : List α) (rows : List (List α)) :
    rows.flatten.length ≤ (padded padding rows).length := by
  induction rows with
  | nil => exact Nat.le_refl _
  | cons row rows ih =>
    rw [padded] at ih ⊢
    simp only [map_cons, flatten_cons, length_append]
    omega

/-- With padding before it, each item comes from the padding or from an earlier place. -/
theorem getElem?_padded {z : α} {p : Nat} (hp : 0 < p) (rows : List (List α)) :
    ∀ i < (padded (List.replicate p z) rows).length,
      (padded (List.replicate p z) rows)[i]? = some z ∨
        ∃ j < i, (padded (List.replicate p z) rows)[i]? = rows.flatten[j]? := by
  induction rows with
  | nil =>
    intro i hi
    cases hi
  | cons row rows ih =>
    intro i hi
    have hcons : padded (replicate p z) (row :: rows) =
        replicate p z ++ (row ++ padded (replicate p z) rows) := by
      simp [padded]
    rw [hcons] at hi ⊢
    rw [length_append, length_append, length_replicate] at hi
    by_cases hpad : i < p
    · left
      rw [getElem?_append_left (by rw [length_replicate]; exact hpad),
        getElem?_replicate, if_pos hpad]
    rw [getElem?_append_right (by rw [length_replicate]; omega),
      length_replicate]
    by_cases hrow : i - p < row.length
    · right
      refine ⟨i - p, by omega, ?_⟩
      rw [getElem?_append_left hrow, flatten_cons, getElem?_append_left hrow]
    · rw [getElem?_append_right (by omega)]
      refine (ih (i - p - row.length) (by omega)).imp_right ?_
      rintro ⟨j, hj, hget⟩
      refine ⟨row.length + j, by omega, ?_⟩
      rw [hget, flatten_cons, getElem?_append_right (by omega), Nat.add_sub_cancel_left]

/-- The padded rows begin as the rows do exactly as far as these are all padding. -/
theorem take_padded_eq_iff {z : α} {p n : Nat} (hp : 0 < p) (hn : n ≤ rows.flatten.length) :
    (padded (List.replicate p z) rows).take n = rows.flatten.take n ↔
      ∀ x ∈ rows.flatten.take n, x = z := by
  have hlength : n ≤ (padded (List.replicate p z) rows).length :=
    hn.trans (length_flatten_le_padded _ _)
  have hall : (∀ x ∈ rows.flatten.take n, x = z) ↔ ∀ i < n, rows.flatten[i]? = some z := by
    constructor
    · intro h i hi
      have hlt : i < rows.flatten.length := by omega
      have hget : (rows.flatten.take n)[i]? = some rows.flatten[i] := by
        rw [List.getElem?_take_of_lt hi, List.getElem?_eq_getElem hlt]
      rw [List.getElem?_eq_getElem hlt]
      exact congrArg some (h _ (List.mem_of_getElem? hget))
    · intro h x hx
      obtain ⟨i, hi⟩ := List.getElem?_of_mem hx
      have hin : i < n := by
        have hlt := (List.getElem?_eq_some_iff.mp hi).1
        rw [List.length_take] at hlt
        omega
      rw [List.getElem?_take_of_lt hin, h i hin] at hi
      exact (Option.some.inj hi).symm
  rw [hall]
  constructor
  · intro h i
    induction i using Nat.strongRecOn with
    | ind i ih =>
      intro hi
      have hsame : (padded (List.replicate p z) rows)[i]? = rows.flatten[i]? := by
        rw [← List.getElem?_take_of_lt hi, h, List.getElem?_take_of_lt hi]
      rcases getElem?_padded hp rows i (Nat.lt_of_lt_of_le hi hlength) with hz | ⟨j, hj, hget⟩
      · rw [← hsame, hz]
      · rw [← hsame, hget]
        exact ih j hj (by omega)
  · intro h
    refine List.ext_getElem? fun i => ?_
    by_cases hi : i < n
    · rw [List.getElem?_take_of_lt hi, List.getElem?_take_of_lt hi, h i hi]
      rcases getElem?_padded hp rows i (Nat.lt_of_lt_of_le hi hlength) with hz | ⟨j, hj, hget⟩
      · exact hz
      · rw [hget]
        exact h j (by omega)
    · rw [List.getElem?_take_eq_none (by omega), List.getElem?_take_eq_none (by omega)]

end Bits

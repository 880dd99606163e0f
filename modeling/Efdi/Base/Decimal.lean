import Mathlib.Data.Rat.Floor

/-!
# Decimal numbers in texts

Rounding to a whole number with halves to even, as number formats do it, and the digits that a
natural number is written with.  A number that is written with leading zeros, or with a fixed count
of decimals, is read back from its digits (`value_padded`, `value_fixed`).
-/

namespace Decimal

/-! ## Rounding -/

/-- The whole number that `"{:.0f}"` prints, with halves to even. -/
def roundHalfEven (x : Rat) : Int :=
  let below := x.floor
  let rest := x - below
  if rest < 1 / 2 then below
  else if 1 / 2 < rest then below + 1
  else if below % 2 = 0 then below
  else below + 1

/-- A number is rounded to one of its neighbours, by less than a half or by a half to an even
one. -/
theorem roundHalfEven_cases (x : Rat) :
    (roundHalfEven x = ⌊x⌋ ∧ (x < ⌊x⌋ + 1 / 2 ∨ x = ⌊x⌋ + 1 / 2 ∧ ⌊x⌋ % 2 = 0)) ∨
      roundHalfEven x = ⌊x⌋ + 1 ∧ (⌊x⌋ + 1 / 2 < x ∨ x = ⌊x⌋ + 1 / 2 ∧ ⌊x⌋ % 2 = 1) := by
  have hfloor : x.floor = ⌊x⌋ := rfl
  rw [roundHalfEven, hfloor]
  split
  next hless => exact .inl ⟨rfl, .inl (by linarith)⟩
  next hless =>
    split
    next hmore => exact .inr ⟨rfl, .inl (by linarith)⟩
    next hmore =>
      have hhalf : x = ⌊x⌋ + 1 / 2 := by linarith
      split
      next heven => exact .inl ⟨rfl, .inr ⟨hhalf, heven⟩⟩
      next hodd => exact .inr ⟨rfl, .inr ⟨hhalf, by omega⟩⟩

theorem abs_roundHalfEven_sub_le (x : Rat) : |(roundHalfEven x : Rat) - x| ≤ 1 / 2 := by
  have hlow := Int.floor_le x
  have hhigh := Int.lt_floor_add_one x
  rw [abs_le]
  rcases roundHalfEven_cases x with ⟨hround, hcase⟩ | ⟨hround, hcase⟩
  · have hhalf : x ≤ ⌊x⌋ + 1 / 2 := hcase.elim le_of_lt fun h => h.1.le
    rw [hround]
    constructor <;> linarith
  · have hhalf : ⌊x⌋ + 1 / 2 ≤ x := hcase.elim le_of_lt fun h => h.1.ge
    rw [hround, Int.cast_add, Int.cast_one]
    constructor <;> linarith

theorem roundHalfEven_nonneg {x : Rat} (h : 0 ≤ x) : 0 ≤ roundHalfEven x := by
  have hfloor : 0 ≤ ⌊x⌋ := Int.floor_nonneg.mpr h
  rcases roundHalfEven_cases x with ⟨hround, -⟩ | ⟨hround, -⟩
  · omega
  · omega

/-- What is rounded to an odd number at most is less than the half behind it. -/
theorem roundHalfEven_le_iff_of_odd {x : Rat} {k : Int} (hodd : k % 2 = 1) :
    roundHalfEven x ≤ k ↔ x < k + 1 / 2 := by
  have hlow := Int.floor_le x
  have hhigh := Int.lt_floor_add_one x
  have hround := abs_le.mp (abs_roundHalfEven_sub_le x)
  constructor
  · intro hle
    have hcast : (roundHalfEven x : Rat) ≤ k := by exact_mod_cast hle
    rcases lt_or_ge x (k + 1 / 2) with hlt | hge
    · exact hlt
    · -- only the half itself is left, and it is rounded up
      have heq : x = k + 1 / 2 := by linarith [hround.2]
      have hfloor : ⌊x⌋ = k := by
        rw [Int.floor_eq_iff, heq]
        constructor <;> linarith
      rcases roundHalfEven_cases x with ⟨-, hcase⟩ | ⟨hup, -⟩
      · rw [hfloor] at hcase
        rcases hcase with hless | ⟨-, heven⟩
        · exact hless
        · omega
      · omega
  · intro hlt
    by_contra hmore
    have hint : k + 1 ≤ roundHalfEven x := by omega
    have hcast : (k : Rat) + 1 ≤ roundHalfEven x := by exact_mod_cast hint
    linarith [hround.2]

/-! ## Digits -/

theorem toList_toString (n : Nat) : (toString n).toList = Nat.toDigits 10 n :=
  String.toList_ofList

theorem dash_notMem_toDigits (n : Nat) : '-' ∉ Nat.toDigits 10 n := by
  intro hmem
  exact absurd (Nat.isDigit_of_mem_toDigits (by decide) (by decide) hmem) (by decide)

theorem toDigits_inj {m n : Nat} (h : Nat.toDigits 10 m = Nat.toDigits 10 n) : m = n := by
  have hvalue := congrArg (Nat.ofDigitChars 10 · 0) h
  simpa only [Nat.ofDigitChars_ten_toDigits] using hvalue

/-- The number of some digits. -/
def value (ds : List Char) : Nat := Nat.ofDigitChars 10 ds 0

/-- A text of digits. -/
def Digits (ds : List Char) : Prop := ds ≠ [] ∧ ∀ c ∈ ds, c.isDigit = true

/-- Zeros in front of a text, up to a width. -/
def zeroFill (width : Nat) (cs : List Char) : List Char :=
  List.replicate (width - cs.length) '0' ++ cs

/-- A number with zeros in front of it. -/
def padded (width n : Nat) : List Char := zeroFill width (Nat.toDigits 10 n)

/-- A count of units of the last of some decimals, as a decimal number. -/
def fixed (decimals n : Nat) : List Char :=
  Nat.toDigits 10 (n / 10 ^ decimals) ++ '.' :: padded decimals (n % 10 ^ decimals)

theorem digits_zeros_append (k : Nat) {ds : List Char} (h : Digits ds) :
    Digits (List.replicate k '0' ++ ds) := by
  refine ⟨List.append_ne_nil_of_right_ne_nil _ h.1, fun c hc => ?_⟩
  rcases List.mem_append.mp hc with hzero | hdigit
  · rw [List.eq_of_mem_replicate hzero]
    rfl
  · exact h.2 c hdigit

theorem value_zeros_append (k : Nat) (ds : List Char) :
    value (List.replicate k '0' ++ ds) = value ds := by
  rw [value, Nat.ofDigitChars_append, Nat.ofDigitChars_replicate_zero, Nat.mul_zero, value]

theorem digits_toDigits (n : Nat) : Digits (Nat.toDigits 10 n) :=
  ⟨Nat.toDigits_ne_nil, fun _ hc => Nat.isDigit_of_mem_toDigits (by decide) (by decide) hc⟩

theorem digits_padded (width n : Nat) : Digits (padded width n) :=
  digits_zeros_append _ (digits_toDigits n)

theorem value_padded (width n : Nat) : value (padded width n) = n := by
  rw [padded, zeroFill, value_zeros_append, value, Nat.ofDigitChars_ten_toDigits]

theorem length_padded {width n : Nat} (hwidth : 0 < width) (h : n < 10 ^ width) :
    (padded width n).length = width := by
  have hle := (Nat.length_toDigits_le_iff (by decide : 1 < 10) hwidth).mpr h
  rw [padded, zeroFill, List.length_append, List.length_replicate]
  omega

/-- A decimal number with zeros in front of it has a whole and a fractional part, and is their
sum. -/
theorem zeroFill_fixed (width : Nat) {decimals : Nat} (hdecimals : 0 < decimals) (n : Nat) :
    ∃ ds fs, zeroFill width (fixed decimals n) = ds ++ '.' :: fs ∧ Digits ds ∧ Digits fs ∧
      (value ds + value fs / 10 ^ fs.length : Rat) = n / 10 ^ decimals := by
  refine ⟨List.replicate (width - (fixed decimals n).length) '0' ++
      Nat.toDigits 10 (n / 10 ^ decimals), padded decimals (n % 10 ^ decimals), ?_,
    digits_zeros_append _ (digits_toDigits _), digits_padded _ _, ?_⟩
  · rw [zeroFill, fixed, List.append_assoc]
  · have hpos : (0 : Rat) < 10 ^ decimals := by positivity
    have hdivide : (n / 10 ^ decimals : Nat) * 10 ^ decimals + n % 10 ^ decimals = n :=
      Nat.div_add_mod' n _
    have hcast : ((n / 10 ^ decimals : Nat) : Rat) * 10 ^ decimals + (n % 10 ^ decimals : Nat) =
        n := by
      exact_mod_cast hdivide
    rw [value_zeros_append, value_padded,
      length_padded hdecimals (Nat.mod_lt _ (by positivity)), value,
      Nat.ofDigitChars_ten_toDigits, eq_div_iff hpos.ne', add_mul, div_mul_cancel₀ _ hpos.ne',
      hcast]

end Decimal

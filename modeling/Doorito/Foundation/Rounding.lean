import Mathlib.Data.Int.Log
import Mathlib.Data.Rat.Floor
import Mathlib.Tactic.Linarith
import Mathlib.Tactic.NormNum
import Mathlib.Tactic.Positivity

/-! Rounding to the nearest integer and to a binary significand of bounded
width, ties to even. Exponents are unbounded, so there is no overflow and no
gradual underflow. -/

set_option autoImplicit false

namespace Doorito.Foundation

/-- The nearest integer; of two equally near ones, the even one. -/
def roundHalfEven (value : ℚ) : ℤ :=
  if value - ⌊value⌋ < 1 / 2 then ⌊value⌋
  else if 1 / 2 < value - ⌊value⌋ then ⌊value⌋ + 1
  else if ⌊value⌋ % 2 = 0 then ⌊value⌋ else ⌊value⌋ + 1

/-- The nearest number with a significand of the given number of bits. -/
def roundSignificand (precision : ℕ) (value : ℚ) : ℚ :=
  let unit : ℚ := 2 ^ (Int.log 2 value - (precision - 1))
  roundHalfEven (value / unit) * unit

/-- The nearest double. -/
def double (value : ℚ) : ℚ := roundSignificand 53 value

@[simp] theorem roundHalfEven_intCast (value : ℤ) : roundHalfEven value = value := by
  simp [roundHalfEven]

theorem le_roundHalfEven {bound : ℤ} {value : ℚ} (below : (bound : ℚ) ≤ value) :
    bound ≤ roundHalfEven value := by
  have floor : bound ≤ ⌊value⌋ := Int.le_floor.mpr below
  unfold roundHalfEven
  split_ifs <;> omega

theorem roundHalfEven_le {bound : ℤ} {value : ℚ} (above : value ≤ bound) :
    roundHalfEven value ≤ bound := by
  have floor : ⌊value⌋ ≤ bound := by
    have := Int.floor_le value
    exact_mod_cast this.trans above
  -- Rounding up to `bound + 1` would need a fraction above the integer `bound`.
  rcases floor.lt_or_eq with strict | same
  · unfold roundHalfEven
    split_ifs <;> omega
  · have exact : value = bound := by
      apply le_antisymm above
      rw [← same]
      exact Int.floor_le value
    rw [exact, roundHalfEven_intCast]

/-- A natural number that fits the significand is not rounded. -/
theorem roundSignificand_natCast {precision value : ℕ} (fits : value < 2 ^ precision) :
    roundSignificand precision value = value := by
  rcases Nat.eq_zero_or_pos value with rfl | positive
  · simp [roundSignificand, roundHalfEven]
  have wide : Nat.log 2 value ≤ precision - 1 := by
    have : Nat.log 2 value < precision := Nat.log_lt_of_lt_pow positive.ne' fits
    omega
  have precise : 1 ≤ precision := by
    by_contra none
    have : precision = 0 := by omega
    simp [this] at fits
    omega
  -- The unit in the last place is a negative power of two, and divides the value.
  have unit : (2 : ℚ) ^ (Int.log 2 (value : ℚ) - (precision - 1 : ℤ)) =
      ((2 : ℚ) ^ (precision - 1 - Nat.log 2 value))⁻¹ := by
    rw [Int.log_natCast, ← zpow_natCast, ← zpow_neg]
    congr 1
    omega
  unfold roundSignificand
  simp only [unit, div_inv_eq_mul]
  have whole : (value : ℚ) * 2 ^ (precision - 1 - Nat.log 2 value) =
      ((value * 2 ^ (precision - 1 - Nat.log 2 value) : ℤ) : ℚ) := by push_cast; rfl
  rw [whole, roundHalfEven_intCast]
  push_cast
  rw [mul_assoc, mul_inv_cancel₀ (by positivity), mul_one]

section Bounds

variable {precision : ℕ} {value : ℚ}

/-- Below the width of the significand the unit in the last place divides one. -/
theorem roundSignificand_of_lt (precise : 1 ≤ precision) (fits : value < 2 ^ precision) :
    ∃ places : ℕ, roundSignificand precision value =
      roundHalfEven (value * 2 ^ places) / 2 ^ places := by
  have wide : Int.log 2 value ≤ precision - 1 := by
    rcases le_or_gt value 0 with nonpositive | positive
    · rw [Int.log_of_right_le_zero 2 nonpositive]
      omega
    · have bounded : value < (2 : ℕ) ^ (precision : ℤ) := by exact_mod_cast fits
      have below := (Int.lt_zpow_iff_log_lt one_lt_two positive).mp bounded
      omega
  obtain ⟨places, unit⟩ := Int.eq_ofNat_of_zero_le (sub_nonneg.mpr wide)
  refine ⟨places, ?_⟩
  have power : (2 : ℚ) ^ (Int.log 2 value - (precision - 1 : ℤ)) = ((2 : ℚ) ^ places)⁻¹ := by
    rw [← zpow_natCast, ← zpow_neg, ← unit]
    congr 1
    ring
  rw [roundSignificand, power, div_inv_eq_mul, div_eq_mul_inv]

/-- Rounding does not take a value below an integer that fits. -/
theorem le_roundSignificand (precise : 1 ≤ precision) (fits : value < 2 ^ precision) {bound : ℤ}
    (below : (bound : ℚ) ≤ value) : (bound : ℚ) ≤ roundSignificand precision value := by
  obtain ⟨places, rounded⟩ := roundSignificand_of_lt precise fits
  have scale : (0 : ℚ) < 2 ^ places := by positivity
  have scaled : ((bound * 2 ^ places : ℤ) : ℚ) ≤ value * 2 ^ places := by
    push_cast
    exact mul_le_mul_of_nonneg_right below scale.le
  rw [rounded, le_div_iff₀ scale]
  exact_mod_cast le_roundHalfEven scaled

/-- Rounding does not take a value above an integer that fits. -/
theorem roundSignificand_le (precise : 1 ≤ precision) (fits : value < 2 ^ precision) {bound : ℤ}
    (above : value ≤ bound) : roundSignificand precision value ≤ bound := by
  obtain ⟨places, rounded⟩ := roundSignificand_of_lt precise fits
  have scale : (0 : ℚ) < 2 ^ places := by positivity
  have scaled : value * 2 ^ places ≤ ((bound * 2 ^ places : ℤ) : ℚ) := by
    push_cast
    exact mul_le_mul_of_nonneg_right above scale.le
  rw [rounded, div_le_iff₀ scale]
  exact_mod_cast roundHalfEven_le scaled

theorem double_natCast {value : ℕ} (fits : value < 2 ^ 53) : double value = value :=
  roundSignificand_natCast fits

theorem le_double (fits : value < 2 ^ 53) {bound : ℤ} (below : (bound : ℚ) ≤ value) :
    (bound : ℚ) ≤ double value :=
  le_roundSignificand (by decide) fits below

theorem double_le (fits : value < 2 ^ 53) {bound : ℤ} (above : value ≤ bound) :
    double value ≤ bound :=
  roundSignificand_le (by decide) fits above

end Bounds

/-- A value above an even number is rounded back to it up to the tie. -/
theorem roundHalfEven_le_iff_of_even {even : ℤ} {value : ℚ} (isEven : even % 2 = 0)
    (low : (even : ℚ) ≤ value) : roundHalfEven value ≤ even ↔ value - even ≤ 1 / 2 := by
  rcases (Int.le_floor.mpr low).eq_or_lt with same | above
  · have below := Int.lt_floor_add_one value
    unfold roundHalfEven
    rw [← same]
    split_ifs with less more
    · exact iff_of_true le_rfl less.le
    · exact iff_of_false (by omega) (by linarith)
    · exact iff_of_true le_rfl (not_lt.mp more)
  · have next : ((even + 1 : ℤ) : ℚ) ≤ value := Int.le_floor.mp above
    have rounded := le_roundHalfEven next
    push_cast at next
    exact iff_of_false (by omega) (by linarith)

section Between

variable {precision whole : ℕ} {value : ℚ}

/-- The unit in the last place of a value is that of its whole part. -/
theorem unit_of_between (positive : 0 < whole) (room : Nat.log 2 whole < precision)
    (low : (whole : ℚ) ≤ value) (high : value < whole + 1) :
    (2 : ℚ) ^ (Int.log 2 value - (precision - 1 : ℤ)) =
      ((2 : ℚ) ^ (precision - 1 - Nat.log 2 whole))⁻¹ := by
  have one : (1 : ℚ) ≤ value := le_trans (by exact_mod_cast positive) low
  have floor : ⌊value⌋₊ = whole := by
    rw [Nat.floor_eq_iff (by linarith)]
    exact ⟨low, high⟩
  rw [Int.log_of_one_le_right 2 one, floor, ← zpow_natCast, ← zpow_neg]
  congr 1
  omega

/-- Rounding keeps a value between two naturals there, and reaches the lower one only from
within half a unit. -/
theorem ceil_roundSignificand_of_between (positive : 0 < whole)
    (room : Nat.log 2 whole + 2 ≤ precision) (low : (whole : ℚ) ≤ value)
    (high : value < whole + 1) :
    ⌈roundSignificand precision value⌉ =
      if (value - whole) * 2 ^ (precision - Nat.log 2 whole) ≤ 1 then (whole : ℤ)
      else whole + 1 := by
  obtain ⟨places, split⟩ : ∃ places, precision - 1 - Nat.log 2 whole = places + 1 :=
    ⟨precision - 2 - Nat.log 2 whole, by omega⟩
  have width : precision - Nat.log 2 whole = places + 2 := by omega
  have scale : (0 : ℚ) < 2 ^ (places + 1) := by positivity
  have isEven : ((whole : ℤ) * 2 ^ (places + 1)) % 2 = 0 := by
    rw [pow_succ, ← mul_assoc]
    exact Int.mul_emod_left _ _
  have lowScaled : (((whole : ℤ) * 2 ^ (places + 1) : ℤ) : ℚ) ≤ value * 2 ^ (places + 1) := by
    push_cast
    exact mul_le_mul_of_nonneg_right low scale.le
  have highScaled : value * 2 ^ (places + 1) ≤ (((whole : ℤ) + 1) * 2 ^ (places + 1) : ℤ) := by
    push_cast
    exact mul_le_mul_of_nonneg_right high.le scale.le
  have least := le_roundHalfEven lowScaled
  have most := roundHalfEven_le highScaled
  have back := roundHalfEven_le_iff_of_even isEven lowScaled
  have half : value * 2 ^ (places + 1) - ((whole : ℤ) * 2 ^ (places + 1) : ℤ) ≤ 1 / 2 ↔
      (value - whole) * 2 ^ (places + 2) ≤ 1 := by
    rw [pow_succ _ (places + 1)]
    push_cast
    constructor <;> intro bound <;> nlinarith
  rw [roundSignificand, unit_of_between positive (by omega) low high, split, div_inv_eq_mul,
    width]
  split_ifs with near
  · rw [le_antisymm (back.mpr (half.mpr near)) least]
    push_cast
    rw [mul_assoc, mul_inv_cancel₀ scale.ne', mul_one]
    exact Int.ceil_natCast whole
  · rw [Int.ceil_eq_iff, ← div_eq_mul_inv, lt_div_iff₀ scale, div_le_iff₀ scale]
    have above : (whole : ℤ) * 2 ^ (places + 1) < roundHalfEven (value * 2 ^ (places + 1)) :=
      not_le.mp fun down => near (half.mp (back.mp down))
    constructor
    · push_cast
      rw [add_sub_cancel_right]
      exact_mod_cast above
    · exact_mod_cast most

/-- A value below one is rounded neither to zero nor above one. -/
theorem ceil_roundSignificand_of_lt_one (precise : 1 ≤ precision) (positive : 0 < value)
    (small : value < 1) : ⌈roundSignificand precision value⌉ = 1 := by
  have least := Int.zpow_log_le_self one_lt_two positive
  have negative : Int.log 2 value < 0 := by
    have bounded : (2 : ℚ) ^ Int.log 2 value < 2 ^ (0 : ℤ) := by
      rw [zpow_zero]
      exact lt_of_le_of_lt least small
    exact (zpow_lt_zpow_iff_right₀ one_lt_two).mp bounded
  obtain ⟨shift, shiftEq⟩ : ∃ shift : ℕ, (shift : ℤ) = precision - 1 - Int.log 2 value :=
    ⟨(precision - 1 - Int.log 2 value).toNat, by omega⟩
  have unit : (2 : ℚ) ^ (Int.log 2 value - (precision - 1 : ℤ)) = ((2 : ℚ) ^ shift)⁻¹ := by
    rw [← zpow_natCast, ← zpow_neg, shiftEq]
    congr 1
    ring
  have scale : (0 : ℚ) < 2 ^ shift := by positivity
  have one : ((1 : ℤ) : ℚ) ≤ value * 2 ^ shift := by
    calc ((1 : ℤ) : ℚ) = 1 := Int.cast_one
      _ ≤ 2 ^ (Int.log 2 value + shift) := one_le_zpow₀ one_lt_two.le (by omega)
      _ = 2 ^ Int.log 2 value * 2 ^ shift := by rw [zpow_add₀ two_ne_zero, zpow_natCast]
      _ ≤ value * 2 ^ shift := mul_le_mul_of_nonneg_right least scale.le
  have whole : value * 2 ^ shift ≤ ((2 ^ shift : ℤ) : ℚ) := by
    push_cast
    nlinarith
  have atLeast := le_roundHalfEven one
  have atMost := roundHalfEven_le whole
  rw [roundSignificand, unit, div_inv_eq_mul, Int.ceil_eq_iff, ← div_eq_mul_inv,
    lt_div_iff₀ scale, div_le_iff₀ scale]
  constructor
  · have up : (0 : ℚ) < roundHalfEven (value * 2 ^ shift) := by exact_mod_cast atLeast
    simpa using up
  · rw [Int.cast_one, one_mul]
    exact_mod_cast atMost

end Between

end Doorito.Foundation

import Mathlib.Algebra.Order.Floor.Ring
import Mathlib.Data.Int.Log
import Mathlib.Data.Rat.Floor
import Mathlib.Tactic.Linarith

/-! Rationals rounded to 53 binary digits: to the nearest, and to the even one of two. The
exponent has no bounds. -/

namespace Doubles

/-- The nearest integer, the even one of two. -/
def roundEven (value : ℚ) : ℤ :=
  if Int.fract value < 1 / 2 ∨ Int.fract value = 1 / 2 ∧ ⌊value⌋ % 2 = 0 then ⌊value⌋ else ⌊value⌋ + 1

/-- What the last of 53 digits stands for. -/
def lastUnit (value : ℚ) : ℚ := 2 ^ (Int.log 2 |value| - 52)

def round (value : ℚ) : ℚ := roundEven (value / lastUnit value) * lastUnit value

theorem roundEven_int (number : ℤ) : roundEven number = number := by
  have none : Int.fract (number : ℚ) < 1 / 2 := by
    rw [Int.fract_intCast]
    norm_num
  rw [roundEven, if_pos (.inl none), Int.floor_intCast]

theorem roundEven_near (value : ℚ) : |roundEven value - value| ≤ 1 / 2 := by
  have parts := Int.floor_add_fract value
  have low := Int.fract_nonneg value
  have high := Int.fract_lt_one value
  unfold roundEven
  split
  next down =>
    have half : Int.fract value ≤ 1 / 2 := down.elim le_of_lt fun tie => tie.1.le
    rw [abs_le]
    constructor <;> linarith
  next up =>
    have half : 1 / 2 ≤ Int.fract value := by
      by_contra less
      exact up (.inl (not_le.mp less))
    push_cast
    rw [abs_le]
    constructor <;> linarith

theorem lastUnit_pos (value : ℚ) : 0 < lastUnit value := zpow_pos (by norm_num) _

theorem lastUnit_le {value : ℚ} (nonzero : value ≠ 0) : lastUnit value * 2 ^ 52 ≤ |value| := by
  have first := Int.zpow_log_le_self (b := 2) (by norm_num) (abs_pos.mpr nonzero)
  have shift : lastUnit value * 2 ^ 52 = 2 ^ Int.log 2 |value| := by
    rw [lastUnit, ← zpow_natCast, ← zpow_add₀ (by norm_num)]
    norm_num
  rw [shift]
  exact_mod_cast first

theorem round_zero : round 0 = 0 := by
  have zero := roundEven_int 0
  rw [round, zero_div]
  rw [Int.cast_zero] at zero
  rw [zero, Int.cast_zero, zero_mul]

theorem round_error (value : ℚ) : |round value - value| ≤ |value| / 2 ^ 53 := by
  rcases eq_or_ne value 0 with rfl | nonzero
  · rw [round_zero, sub_zero, abs_zero, zero_div]
  · have positive := lastUnit_pos value
    have scaled : round value - value =
        (roundEven (value / lastUnit value) - value / lastUnit value) * lastUnit value := by
      rw [round, sub_mul, div_mul_cancel₀ _ positive.ne']
    have digits := lastUnit_le nonzero
    have near := roundEven_near (value / lastUnit value)
    calc |round value - value|
        = |roundEven (value / lastUnit value) - value / lastUnit value| * lastUnit value := by
          rw [scaled, abs_mul, abs_of_pos positive]
      _ ≤ 1 / 2 * lastUnit value := mul_le_mul_of_nonneg_right near positive.le
      _ ≤ |value| / 2 ^ 53 := by
          rw [le_div_iff₀ (by norm_num)]
          linarith

theorem round_int {number : ℤ} (short : |number| ≤ 2 ^ 53) : round number = number := by
  rcases eq_or_ne number 0 with rfl | nonzero
  · rw [Int.cast_zero, round_zero]
  · have size : 0 < |(number : ℚ)| := abs_pos.mpr (Int.cast_ne_zero.mpr nonzero)
    have bound : |(number : ℚ)| ≤ 2 ^ 53 := by exact_mod_cast short
    have positive := lastUnit_pos number
    obtain ⟨whole, same⟩ : ∃ whole : ℤ, (number : ℚ) / lastUnit number = whole := by
      have exponent : Int.log 2 |(number : ℚ)| < 54 :=
        (Int.lt_zpow_iff_log_lt (by norm_num) size).mp (by norm_num; linarith)
      rcases lt_or_ge (Int.log 2 |(number : ℚ)|) 53 with less | most
      · refine ⟨number * 2 ^ (52 - Int.log 2 |(number : ℚ)|).toNat, ?_⟩
        rw [lastUnit, div_eq_mul_inv, ← zpow_neg, neg_sub]
        push_cast
        rw [← zpow_natCast, Int.toNat_of_nonneg (by omega)]
      · -- Only the first number of 54 digits is left, which is even.
        have first := (Int.zpow_le_iff_le_log (by norm_num) size).mpr most
        have whole : |(number : ℚ)| = 2 ^ 53 := le_antisymm bound (by exact_mod_cast first)
        have power : Int.log 2 |(number : ℚ)| = 53 := by omega
        rw [lastUnit, power]
        rcases abs_choice (number : ℚ) with same | same
        · exact ⟨2 ^ 52, by rw [← same, whole]; norm_num⟩
        · refine ⟨-2 ^ 52, ?_⟩
          rw [whole] at same
          have negative : (number : ℚ) = -2 ^ 53 := by linarith
          rw [negative]
          norm_num
    rw [round, same, roundEven_int, ← same, div_mul_cancel₀ _ positive.ne']

end Doubles

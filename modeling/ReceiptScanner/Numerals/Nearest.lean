import Mathlib.Data.Int.Log
import Mathlib.Data.Rat.Floor
import Mathlib.Tactic.Linarith
import Mathlib.Tactic.SplitIfs
import Mathlib.Tactic.Positivity
import Mathlib.Tactic.FieldSimp
import Mathlib.Tactic.Ring

/-!
# Nearest numbers of a binary format

A number of the format has one leading bit and `fraction` bits after it. The exponent is
unbounded, so nothing overflows or underflows.
-/

namespace Numerals

/-- The nearest integer; of two, the even one. -/
def nearestEven (q : ℚ) : ℤ :=
  if q - ⌊q⌋ < 1 / 2 then ⌊q⌋ else if 1 / 2 < q - ⌊q⌋ then ⌊q⌋ + 1 else ⌊q⌋ + ⌊q⌋ % 2

/-- What the last bit of a number weighs. -/
def ulp (fraction : ℕ) (q : ℚ) : ℚ := 2 ^ (Int.log 2 |q| - fraction)

/-- The nearest number of the format; of two, the one whose last bit is 0. -/
def nearest (fraction : ℕ) (q : ℚ) : ℚ := nearestEven (q / ulp fraction q) * ulp fraction q

variable {q : ℚ} {n : ℤ} {fraction : ℕ}

@[simp] theorem nearestEven_intCast (n : ℤ) : nearestEven n = n := by
  simp [nearestEven]

/-- No integer is nearer than half a unit past the nearest one. -/
theorem abs_nearestEven_sub_le (q : ℚ) : |(nearestEven q : ℚ) - q| ≤ 1 / 2 := by
  have lower := Int.floor_le q
  have upper := Int.lt_floor_add_one q
  unfold nearestEven
  split_ifs with below above
  · rw [abs_le]
    constructor <;> linarith
  · push_cast
    rw [abs_le]
    constructor <;> linarith
  · have half : q - ⌊q⌋ = 1 / 2 := le_antisymm (not_lt.mp above) (not_lt.mp below)
    rcases Int.emod_two_eq_zero_or_one ⌊q⌋ with even | odd
    · rw [even, abs_le]
      push_cast
      constructor <;> linarith
    · rw [odd, abs_le]
      push_cast
      constructor <;> linarith

theorem ulp_pos : 0 < ulp fraction q := zpow_pos two_pos _

/-- Nothing of the format is nearer than half a unit of the last bit. -/
theorem abs_nearest_sub_le (fraction : ℕ) (q : ℚ) :
    |nearest fraction q - q| ≤ ulp fraction q / 2 := by
  have positive : 0 < ulp fraction q := ulp_pos
  have near := abs_nearestEven_sub_le (q / ulp fraction q)
  calc |nearest fraction q - q|
      = |(nearestEven (q / ulp fraction q) : ℚ) - q / ulp fraction q| * ulp fraction q := by
        rw [← abs_of_pos positive, ← abs_mul, abs_of_pos positive, sub_mul,
          div_mul_cancel₀ q positive.ne', nearest]
    _ ≤ 1 / 2 * ulp fraction q := mul_le_mul_of_nonneg_right near positive.le
    _ = ulp fraction q / 2 := by ring

/-- A whole number of units is of the format. -/
theorem nearest_of_eq (whole : q = n * ulp fraction q) : nearest fraction q = q := by
  have units : q / ulp fraction q = n := by
    rw [div_eq_iff ulp_pos.ne']
    exact whole
  rw [nearest, units, nearestEven_intCast, ← whole]

/-- Integers with no more bits are of the format. -/
theorem nearest_intCast (short : |n| < 2 ^ (fraction + 1)) : nearest fraction n = n := by
  rcases eq_or_ne n 0 with rfl | present
  · have none : ((0 : ℤ) : ℚ) = (0 : ℤ) * ulp fraction (0 : ℤ) := by simp
    exact nearest_of_eq none
  · have positive : (0 : ℚ) < |(n : ℚ)| := abs_pos.mpr (by exact_mod_cast present)
    have least : Int.log 2 |(n : ℚ)| < fraction + 1 := by
      rw [← Int.lt_zpow_iff_log_lt one_lt_two positive]
      exact_mod_cast short
    obtain ⟨places, isPlaces⟩ := Int.le.dest (Int.lt_add_one_iff.mp least)
    have unit : (2 : ℚ) ^ places * ulp fraction n = 1 := by
      rw [ulp, ← zpow_natCast, ← zpow_add₀ two_ne_zero, ← isPlaces]
      simp
    refine nearest_of_eq (n := n * 2 ^ places) ?_
    push_cast
    rw [mul_assoc, unit, mul_one]

section Top

variable {e : ℤ}

/-- The leading bit in units of the last one. -/
theorem zpow_eq (fraction : ℕ) (e : ℤ) :
    (2 : ℚ) ^ e = 2 ^ fraction * 2 ^ (e - fraction) := by
  rw [← zpow_natCast, ← zpow_add₀ two_ne_zero]
  congr 1
  omega

theorem ulp_eq (nonneg : 0 ≤ q) : ulp fraction q = 2 ^ (Int.log 2 q - fraction) := by
  rw [ulp, abs_of_nonneg nonneg]

/-- Rounding errs by half a unit of the last bit, in proportion. -/
theorem abs_nearest_sub_le_div (fraction : ℕ) (positive : 0 < q) :
    |nearest fraction q - q| ≤ q / 2 ^ (fraction + 1) := by
  have leading := Int.zpow_log_le_self one_lt_two positive
  have small : ulp fraction q ≤ q / 2 ^ fraction := by
    rw [le_div_iff₀ (by positivity), mul_comm, ulp_eq positive.le, ← zpow_eq]
    exact leading
  calc |nearest fraction q - q| ≤ ulp fraction q / 2 := abs_nearest_sub_le fraction q
    _ ≤ q / 2 ^ fraction / 2 := by linarith
    _ = q / 2 ^ (fraction + 1) := by rw [div_div, pow_succ]

end Top

end Numerals

import ReceiptScanner.Receipts.LedgerInput
import Mathlib.Tactic.Linarith

/-!
# Rounding to whole cents

`llround` is the nearest integer, symmetric about 0, and `int64_t` holds it as long as the
magnitude stays half a cent below 2^63.
-/

namespace ReceiptScanner

variable {q : ℚ}

theorem llround_of_nonneg (nonneg : 0 ≤ q) : llround q = ⌊q + 1 / 2⌋ :=
  if_neg (not_lt.mpr nonneg)

theorem llround_nonneg (nonneg : 0 ≤ q) : 0 ≤ llround q := by
  rw [llround_of_nonneg nonneg]
  apply Int.floor_nonneg.mpr
  linarith

/-- Rounding is symmetric about 0. -/
theorem llround_neg (q : ℚ) : llround (-q) = -llround q := by
  unfold llround
  rcases lt_trichotomy q 0 with negative | rfl | positive
  · rw [if_pos negative, if_neg (by linarith), ← Int.floor_neg]
    ring_nf
  · norm_num
  · rw [if_pos (by linarith), if_neg (by linarith), ← Int.ceil_neg]
    ring_nf

/-- Magnitudes round to magnitudes. -/
theorem abs_llround (q : ℚ) : |llround q| = llround |q| := by
  rcases le_total 0 q with nonneg | nonpos
  · rw [abs_of_nonneg nonneg, abs_of_nonneg (llround_nonneg nonneg)]
  · have flipped := llround_nonneg (neg_nonneg.mpr nonpos)
    rw [llround_neg] at flipped
    rw [abs_of_nonpos nonpos, llround_neg, abs_of_nonpos (neg_nonneg.mp flipped)]

/-- Where a magnitude rounds to at most a bound. -/
theorem llround_le_iff (nonneg : 0 ≤ q) {n : ℤ} : llround q ≤ n ↔ q < n + 1 / 2 := by
  rw [llround_of_nonneg nonneg, ← Int.lt_add_one_iff, Int.floor_lt]
  push_cast
  constructor <;> intro less <;> linarith

/-- `int64_t` holds a rounded magnitude that stays half below 2^63. -/
theorem fitsInt64_llround_iff (nonneg : 0 ≤ q) :
    fitsInt64 (llround q) = true ↔ q < 9223372036854775807 + 1 / 2 := by
  have positive := llround_nonneg nonneg
  have bound := @llround_le_iff q nonneg 9223372036854775807
  push_cast at bound
  rw [← bound]
  unfold fitsInt64 int64Min
  simp only [Bool.and_eq_true, decide_eq_true_eq]
  omega

/-- Where rounding gives an `int64_t`: on the negative side there is room for one more. -/
theorem fitsInt64_llround_neg_iff (negative : q < 0) :
    fitsInt64 (llround q) = true ↔ |q| < 9223372036854775808 + 1 / 2 := by
  have flipped : llround q = -llround |q| := by
    rw [abs_of_neg negative, llround_neg, neg_neg]
  have positive : 0 ≤ llround |q| := llround_nonneg (abs_nonneg q)
  have bound := llround_le_iff (abs_nonneg q) (n := 9223372036854775808)
  push_cast at bound
  rw [← bound, flipped]
  unfold fitsInt64 int64Min
  simp only [Bool.and_eq_true, decide_eq_true_eq]
  omega

/-- A value and its magnitude are `int64_t`s. -/
theorem fitsInt64_abs_llround_iff :
    (fitsInt64 (llround q) = true ∧ fitsInt64 |llround q| = true) ↔
      |q| < 9223372036854775807 + 1 / 2 := by
  rw [abs_llround, fitsInt64_llround_iff (abs_nonneg q)]
  constructor
  · exact And.right
  · intro small
    refine ⟨?_, small⟩
    rcases le_or_gt 0 q with nonneg | negative
    · rw [fitsInt64_llround_iff nonneg]
      rwa [abs_of_nonneg nonneg] at small
    · rw [fitsInt64_llround_neg_iff negative]
      linarith

theorem llroundInt64_eq (fits : fitsInt64 (llround q) = true) : llroundInt64 q = llround q :=
  if_pos fits

end ReceiptScanner

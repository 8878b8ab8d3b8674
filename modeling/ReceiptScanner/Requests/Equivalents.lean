import ReceiptScanner.Receipts.Rounding
import ReceiptScanner.Requests.Patches

/-!
# The AUD equivalent of an accepted request

The readers bound a total and a rate from below only. Their product, rounded, is stored as
a BIGINT. It is what it should be as long as it stays below 2^63, and as long as going
through doubles carries it over no half cent.
-/

namespace ReceiptScanner

open JsonInput Numerals

/-- Rounding to doubles, the total and then the product, takes the product over no half cent:
it neither reaches one that lies above it nor falls below one that lies under it. -/
def CrossesNoHalf (totalCents : ℤ) (rate : ℚ) : Prop :=
  ∀ n : ℤ, (totalCents * rate < n + 1 / 2 → toDouble (toDouble totalCents * rate) < n + 1 / 2) ∧
    (n + 1 / 2 < totalCents * rate → n + 1 / 2 ≤ toDouble (toDouble totalCents * rate))

section Doubles

variable {totalCents : ℤ} {rate : ℚ}

/-- A total of at most 53 bits crosses no half cent if its product with the rate keeps clear
of them, by one part in 2^53. -/
theorem crossesNoHalf_of_clear (short : |totalCents| < 2 ^ 53) (present : 0 < totalCents * rate)
    (clear : ∀ n : ℤ, totalCents * rate / 2 ^ 53 < |n + 1 / 2 - totalCents * rate|) :
    CrossesNoHalf totalCents rate := by
  have exact : toDouble totalCents = totalCents := nearest_intCast short
  have near := abs_le.mp (abs_nearest_sub_le_div 52 present)
  intro n
  have far := clear n
  rw [exact]
  unfold toDouble
  constructor
  · intro above
    rw [abs_of_pos (by linarith)] at far
    linarith
  · intro below
    rw [abs_of_neg (by linarith)] at far
    linarith

end Doubles

/-- Amounts as the readers leave them: a total of at least 0, and a rate above it. -/
structure EditableReceipt.Measured (r : EditableReceipt) : Prop where
  total : 0 ≤ r.totalCents
  rate : ∀ rate, r.fxRateToAud = some rate → 0 < rate

section Readers

variable {value : Json} {field : String}

theorem cents_nonneg {total : ℤ} (read : cents value field = .ok total) : 0 ≤ total := by
  unfold cents at read
  split at read
  · split at read
    · cases read
    · obtain rfl := Except.ok.inj read
      omega
  · cases read

theorem nullablePositiveNumber_pos {read : Option ℚ} {rate : ℚ}
    (accepted : nullablePositiveNumber value field = .ok read) (present : read = some rate) :
    0 < rate := by
  subst present
  unfold nullablePositiveNumber at accepted
  split at accepted
  · cases accepted
  · split at accepted
    · split at accepted
      · cases accepted
      · obtain rfl := Option.some.inj (Except.ok.inj accepted)
        linarith
    · cases accepted

/-- What is read into a receipt keeps its amounts as the readers leave them. -/
theorem ReadsCommon.measured {body : Json} {r after : EditableReceipt}
    (reads : ReadsCommon body r after) (before : r.Measured) : after.Measured where
  total := setIfPresent_invariant reads.totalCents before.total fun _ => cents_nonneg
  rate := setIfPresent_invariant (P := fun rate => ∀ q, rate = some q → 0 < q)
    reads.fxRateToAud before.rate
    fun _ accepted _ isRate => nullablePositiveNumber_pos accepted isRate

end Readers

end ReceiptScanner

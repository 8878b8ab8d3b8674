import ReceiptScanner.Ledger.Reviewed
import ReceiptScanner.Ledger.Stamps

/-!
# Verdicts of verify scans

A verify scan is compared with a row that nobody has locked, and written to the row once
it is locked. The write requires `updated_at` to be unchanged, and no field that was
compared changes without it, so the verdict is about the row it is written to.
-/

namespace ReceiptScanner

open ReadCommitted

variable {setup : Setup} {config : Config store outside Job} {h : History store outside} {id : ℕ}
  {result : ScanResult}

/-- Rows with the same compared fields agree with the same results. -/
theorem Agrees.of_compared {left right : ReceiptRow} (same : left.compared = right.compared)
    (agrees : Agrees setup left result) : Agrees setup right result := by
  have total : left.totalCents = right.totalCents := congrArg Compared.totalCents same
  have currency : left.currency = right.currency := congrArg Compared.currency same
  have merchant : left.merchant = right.merchant := congrArg Compared.merchant same
  have purchaseDate : left.purchaseDate = right.purchaseDate := congrArg Compared.purchaseDate same
  exact {
    total := agrees.total.trans total
    currency := agrees.currency.trans currency
    dates := purchaseDate ▸ agrees.dates
    merchants := merchant ▸ agrees.merchants }

/-- A verdict on a row that was seen is one on the row that has kept its stamp. -/
theorem Judged.now (reachable : Config.Reachable (application setup) config)
    (past : h <:+ config.world.history) {before : ReceiptRow} {allMatch : Bool}
    (stored : (h.db .receipts).get id = some before) (bounded : Bounded setup)
    (judged : Judged setup h id before.updatedAt result allMatch) :
    allMatch = true ↔ Agrees setup before result := by
  obtain ⟨seen, row, suffix, was, stamp, verdict⟩ := judged
  have same := compared_eq reachable past suffix was stored stamp.symm
  exact (verdict bounded).trans ⟨Agrees.of_compared same.symm, Agrees.of_compared same⟩

theorem bounded_demo : Bounded demo := by
  intro left right
  simp only [demo]
  split <;> norm_num

end ReceiptScanner

import ReceiptScanner.Sql.Query
import ReceiptScanner.Store.Tables

/-!
# The stats views

The views of the schema, each as the rows `SELECT *` has from it. A view that
multiplies BIGINT columns fails when a product does not fit.
-/

namespace ReceiptScanner

open ReadCommitted Sql

/-- A row of `v_receipt_state`: the receipt and the two derived columns. -/
structure ReceiptState where
  id : ℕ
  receipt : ReceiptRow
  needsReview : Truth
  isConfirmed : Truth
deriving DecidableEq

/-- A row of `v_countable_spend`. -/
structure CountableSpend where
  state : ReceiptState
  signedSpendCents : ℤ
deriving DecidableEq

/-- A row of `v_countable_spend_items`. -/
structure CountableSpendItem where
  itemId : ℕ
  receiptId : ℕ
  categoryId : Option ℕ
  amountCents : ℤ
  signedAmountCents : ℤ
  userId : ℕ
  currency : String
  purchaseDate : Option Date
  kind : Kind
deriving DecidableEq

/-- A row of `v_income_items`. -/
structure IncomeItem where
  itemId : ℕ
  receiptId : ℕ
  categoryId : Option ℕ
  amountCents : ℤ
  userId : ℕ
  currency : String
  purchaseDate : Option Date
deriving DecidableEq

section Views

variable (db : Db store)

/-- FROM receipts -/
def receipts : List (ℕ × ReceiptRow) := (db .receipts).list

/-- FROM payment_methods -/
def paymentMethods : List (ℕ × PaymentMethodRow) := (db .paymentMethods).list

/-- FROM items -/
def items : List (ℕ × ItemRow) := (db .items).list

/-- `v_receipt_state` -/
def vReceiptState : List ReceiptState :=
  (receipts db).map fun (id, r) =>
    { id
      receipt := r
      needsReview := (isNotNull r.proposedAt).and
        ((isNull r.reviewedAt).or (compareBy (· > ·) r.proposedAt r.reviewedAt))
      isConfirmed := (isNotNull r.reviewedAt).and
        ((isNull r.proposedAt).or (compareBy (· ≥ ·) r.reviewedAt r.proposedAt)) }

/-- CASE WHEN kind = 'purchase' THEN 1 ELSE -1 END -/
def spendSign (kind : Kind) : ℤ := if kind = .purchase then 1 else -1

/-- ON pm.id = vrs.payment_method_id -/
def onPaymentMethod (vrs : ReceiptState) (pm : ℕ × PaymentMethodRow) : Truth :=
  compareBy (· == ·) (some pm.1) vrs.receipt.paymentMethodId

/-- The WHERE of `v_countable_spend`. -/
def countsAsSpend (vrs : ReceiptState) (pm : Option (ℕ × PaymentMethodRow)) : Truth :=
  (vrs.isConfirmed.and
    (.of ([Kind.purchase, .refund, .reimbursement].contains vrs.receipt.kind))).and
    ((Truth.of (vrs.receipt.kind = .purchase)).and
      (.of ((pm.map fun method => method.2.storedValue).getD false))).not

/-- `v_countable_spend` -/
def vCountableSpend : Option (List CountableSpend) :=
  (filterWhere (fun row => countsAsSpend row.1 row.2)
    (leftJoin onPaymentMethod (vReceiptState db) (paymentMethods db))).mapM fun (vrs, _) => do
      let signed ← bigint (vrs.receipt.totalCents * spendSign vrs.receipt.kind)
      pure { state := vrs, signedSpendCents := signed }

/-- `v_income` -/
def vIncome : List ReceiptState :=
  filterWhere (fun vrs => vrs.isConfirmed.and (.of (vrs.receipt.kind = .income))) (vReceiptState db)

/-- ON vcs.id = i.receipt_id, and the same in `v_income_items`. -/
def onReceipt (i : ℕ × ItemRow) (vrs : ReceiptState) : Truth :=
  compareBy (· == ·) (some vrs.id) (some i.2.receiptId)

/-- `v_countable_spend_items` -/
def vCountableSpendItems : Option (List CountableSpendItem) := do
  let spend ← vCountableSpend db
  (filterWhere (fun row => (Truth.of row.1.2.informational).not)
    (join (fun i vcs => onReceipt i vcs.state) (items db) spend)).mapM fun (i, vcs) => do
      let signed ← bigint (i.2.amountCents * spendSign vcs.state.receipt.kind)
      pure
        { itemId := i.1
          receiptId := i.2.receiptId
          categoryId := i.2.categoryId
          amountCents := i.2.amountCents
          signedAmountCents := signed
          userId := vcs.state.receipt.userId
          currency := vcs.state.receipt.currency
          purchaseDate := vcs.state.receipt.purchaseDate
          kind := vcs.state.receipt.kind }

/-- `v_income_items` -/
def vIncomeItems : List IncomeItem :=
  (filterWhere (fun row => (Truth.of row.1.2.informational).not)
    (join onReceipt (items db) (vIncome db))).map fun (i, vi) =>
      { itemId := i.1
        receiptId := i.2.receiptId
        categoryId := i.2.categoryId
        amountCents := i.2.amountCents
        userId := vi.receipt.userId
        currency := vi.receipt.currency
        purchaseDate := vi.receipt.purchaseDate }

end Views

/-- The columns of a row that are BIGINT hold such numbers. -/
def bigints : (table : Table) → table.Row → Bool
  | .receipts, row => isBigint row.totalCents && (row.audEquivalentCents.all isBigint)
  | .items, row => isBigint row.amountCents && (row.unitPriceCents.all isBigint)
  | _, _ => true

/-- The contents satisfy the column types, the constraints and the foreign keys of the schema. -/
def admitted (lower : String → String) (db : Db store) : Bool :=
  (schema lower).tables.all fun table => (db table).list.all fun (id, row) =>
    bigints table row && check table row &&
      ((refs table row).all fun ref => ((db ref.1).get ref.2).isSome) &&
      (db table).list.all fun (other, row') => id == other || !clash lower table row row'

end ReceiptScanner

import ReceiptScanner.Services.ReceiptService
import ReceiptScanner.Numerals.Strto

/-!
# Receipts over HTTP

What `ReceiptController.cpp` decides itself: whose an image is, and which page of the list
a query asks for.
-/

namespace ReceiptScanner

open ReadCommitted

namespace ReceiptController

/-- GET /images/:id, where `none` is the 404. The service does not ask whose the image is. -/
def image (userId imageId : ℕ) : Task (Option String) := do
  let location ← ReceiptService.findImage imageId
  match location with
  | none => pure none
  | some location =>
      if location.ownerUserId ≠ userId then pure none
      else do
        let bytes ← getImage location.imageKey
        pure (some bytes)

/-- `limit`, 50 by default. -/
def limitOf (limit : String) : Except Err ℤ :=
  if limit.isEmpty then .ok 50
  else match Numerals.stoi limit with
    | none => .error (.runtime "stoi")
    | some number => .ok (max 1 (min number 200))

/-- `offset`, 0 by default. -/
def offsetOf (offset : String) : Except Err ℤ :=
  if offset.isEmpty then .ok 0
  else match Numerals.stoi offset with
    | none => .error (.runtime "stoi")
    | some number => .ok (max 0 number)

/-- What a query asks for: how many receipts, and after how many. -/
def range (limit offset : String) : Except Err (ℤ × ℤ) := do
  let size ← limitOf limit
  let first ← offsetOf offset
  pure (size, first)

/-- GET /receipts -/
def list (userId : ℕ) (limit offset : String) : Task (List ReceiptSummary) := do
  let (size, first) ← ofExcept (range limit offset)
  ReceiptService.listReceipts userId size first

end ReceiptController

end ReceiptScanner

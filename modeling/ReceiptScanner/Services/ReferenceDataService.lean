import ReceiptScanner.Receipts.LedgerInput
import ReceiptScanner.Store.Task
import Mathlib.Data.List.Sort

/-!
# Categories, tags and payment methods

The three user-editable lists, one namespace each. Deletes rely on the ON DELETE
actions of the schema.
-/

namespace ReceiptScanner

open ReadCommitted JsonInput

/-- A category, as responses show it. -/
structure Category where
  id : ℕ
  name : String
  isIncome : Bool
deriving DecidableEq

/-- A tag, as responses show it. -/
structure Tag where
  id : ℕ
  name : String
deriving DecidableEq

/-- A payment method, as responses show it. -/
structure PaymentMethod where
  id : ℕ
  name : String
  storedValue : Bool
deriving DecidableEq

/-- A unique-name violation is rethrown as a conflict. -/
def conflictIfDuplicate {α : Type} (noun : String) (body : Task α) : Task α :=
  tryCatch body fun raised =>
    if raised.isDuplicateKey then throw (.conflict ("a " ++ noun ++ " with that name already exists"))
    else throw raised

/-- The "name" of a create body. -/
def requiredName (body : Json) : Except Err String :=
  match body.find "name" with
  | some value => requiredString value "name"
  | none => .error (.validation "name is required")

/-- A field of a PATCH body that may be absent. -/
def optionalField {α : Type} (body : Json) (key : String) (read : Reader α) :
    Except Err (Option α) :=
  setIfPresent body key none fun value field => some <$> read value field

/-- `removeOwned`: delete one row of the user's, by the statement given. -/
def removeOwned (noun : String) (delete : Stmt store (List ℕ)) : Task Unit := do
  let result ← execSql .db delete
  let _ ← firstRow (.notFound (noun ++ " not found")) result

/-- ORDER BY lower(name), id -/
def sortByName {α : Type} (setup : Setup) (name : α → String) (rows : List (ℕ × α)) :
    List (ℕ × α) :=
  rows.insertionSort fun left right =>
    setup.collate (setup.lower (name left.2)) (setup.lower (name right.2))

namespace CategoryService

/-- A row as a category. -/
def rowToCategory (id : ℕ) (row : CategoryRow) : Category :=
  { id := id, name := row.name, isIncome := row.isIncome }

/-- SELECT id, name, is_income FROM categories WHERE user_id = $1 ORDER BY lower(name), id -/
def selectAll (setup : Setup) (userId : ℕ) : Stmt store (List Category) := .query fun _ db =>
  (sortByName setup CategoryRow.name
    ((db .categories).list.filter fun (_, row) => row.userId == userId)).map
      fun (id, row) => rowToCategory id row

/-- INSERT INTO categories (user_id, name, is_income) VALUES ($1, $2, $3) RETURNING id -/
def insertRow (userId : ℕ) (name : String) (isIncome : Bool) : Stmt store ℕ :=
  .insert .createCategory .categories fun _ =>
    { userId := userId, name := name, isIncome := isIncome }

/-- SELECT id, name, is_income FROM categories WHERE id = $1 AND user_id = $2 FOR UPDATE -/
def selectForUpdate (userId id : ℕ) : Stmt store (List Category) :=
  .select (some .update) .categories
    (fun _ rowId (row : CategoryRow) => rowId == id && row.userId == userId)
    fun _ => rowToCategory

/-- SELECT 1 FROM items it JOIN receipts r ON r.id = it.receipt_id
WHERE it.category_id = $1 AND (r.kind IN (...)) <> $2 LIMIT 1 -/
def selectClash (id : ℕ) (isIncome : Bool) : Stmt store (List Unit) := .query fun _ db =>
  (((db .items).list.filter fun (_, item) =>
      item.categoryId == some id &&
        match (db .receipts).get item.receiptId with
        | some receipt => inIncomeKinds receipt.kind != isIncome
        | none => false).take 1).map fun _ => ()

/-- UPDATE categories SET name = $1, is_income = $2 WHERE id = $3 -/
def updateRow (id : ℕ) (name : String) (isIncome : Bool) : Stmt store (List Unit) :=
  .update .updateCategory .categories (fun _ rowId _ => rowId == id)
    (fun _ (row : CategoryRow) => { row with name := name, isIncome := isIncome }) fun _ _ => ()

/-- DELETE FROM categories WHERE id = $1 AND user_id = $2 RETURNING id -/
def deleteRow (setup : Setup) (userId id : ℕ) : Stmt store (List ℕ) :=
  .delete (schema setup.lower) .removeCategory .categories
    fun _ rowId (row : CategoryRow) => rowId == id && row.userId == userId

/-- All of the user's categories, by name. -/
def list (setup : Setup) (userId : ℕ) : Task (List Category) :=
  execSql .db (selectAll setup userId)

/-- The name and side of a create body. -/
def parseNew (body : Json) : Except Err (String × Bool) := do
  requireObject body
  rejectUnknownKeys body ["name", "is_income"]
  let name ← requiredName body
  let isIncome ← setIfPresent body "is_income" false boolean
  pure (name, isIncome)

/-- POST /categories -/
def create (userId : ℕ) (body : Json) : Task Category := do
  let (name, isIncome) ← ofExcept (parseNew body)
  let id ← conflictIfDuplicate "category" (execSql .db (insertRow userId name isIncome))
  pure { id := id, name := name, isIncome := isIncome }

/-- The name and side of a PATCH body. -/
def parsePatch (body : Json) : Except Err (Option String × Option Bool) := do
  requireObject body
  rejectUnknownKeys body ["name", "is_income"]
  let name ← optionalField body "name" requiredString
  let isIncome ← optionalField body "is_income" boolean
  pure (name, isIncome)

/-- Flipping the side is rejected while an item of the other side uses the category. -/
def checkFlip (category : Category) (isIncome : Option Bool) : Task Unit :=
  match isIncome with
  | none => pure ()
  | some isIncome =>
      if isIncome ≠ category.isIncome then do
        let clash ← execSql .transaction (selectClash category.id isIncome)
        ofExcept (rejectIf (!clash.isEmpty)
          (if isIncome then "category is used by items on non-income receipts"
            else "category is used by items on income receipts"))
      else pure ()

/-- PATCH /categories/:id -/
def update (userId id : ℕ) (body : Json) : Task Category := do
  let (name, isIncome) ← ofExcept (parsePatch body)
  withTransaction (conflictIfDuplicate "category" (rollingBack do
    let current ← execSql .transaction (selectForUpdate userId id)
    let category ← firstRow (.notFound "category not found") current
    checkFlip category isIncome
    let category := { category with
      name := name.getD category.name
      isIncome := isIncome.getD category.isIncome }
    let _ ← execSql .transaction (updateRow id category.name category.isIncome)
    pure category))

/-- DELETE /categories/:id -/
def remove (setup : Setup) (userId id : ℕ) : Task Unit :=
  removeOwned "category" (deleteRow setup userId id)

end CategoryService

namespace TagService

/-- A row as a tag. -/
def rowToTag (id : ℕ) (row : TagRow) : Tag := { id := id, name := row.name }

/-- SELECT id, name FROM tags WHERE user_id = $1 ORDER BY lower(name), id -/
def selectAll (setup : Setup) (userId : ℕ) : Stmt store (List Tag) := .query fun _ db =>
  (sortByName setup TagRow.name
    ((db .tags).list.filter fun (_, row) => row.userId == userId)).map
      fun (id, row) => rowToTag id row

/-- INSERT INTO tags (user_id, name) VALUES ($1, $2) RETURNING id -/
def insertRow (userId : ℕ) (name : String) : Stmt store ℕ :=
  .insert .createTag .tags fun _ => { userId := userId, name := name }

/-- UPDATE tags SET name = $1 WHERE id = $2 AND user_id = $3 RETURNING id, name -/
def updateRow (userId id : ℕ) (name : String) : Stmt store (List Tag) :=
  .update .updateTag .tags (fun _ rowId (row : TagRow) => rowId == id && row.userId == userId)
    (fun _ (row : TagRow) => { row with name := name }) rowToTag

/-- DELETE FROM tags WHERE id = $1 AND user_id = $2 RETURNING id -/
def deleteRow (setup : Setup) (userId id : ℕ) : Stmt store (List ℕ) :=
  .delete (schema setup.lower) .removeTag .tags
    fun _ rowId (row : TagRow) => rowId == id && row.userId == userId

/-- All of the user's tags, by name. -/
def list (setup : Setup) (userId : ℕ) : Task (List Tag) := execSql .db (selectAll setup userId)

/-- The name of a body. -/
def parseBody (body : Json) : Except Err String := do
  requireObject body
  rejectUnknownKeys body ["name"]
  requiredName body

/-- POST /tags -/
def create (userId : ℕ) (body : Json) : Task Tag := do
  let name ← ofExcept (parseBody body)
  let id ← conflictIfDuplicate "tag" (execSql .db (insertRow userId name))
  pure { id := id, name := name }

/-- PATCH /tags/:id -/
def update (userId id : ℕ) (body : Json) : Task Tag := do
  let name ← ofExcept (parseBody body)
  let result ← conflictIfDuplicate "tag" (execSql .db (updateRow userId id name))
  firstRow (.notFound "tag not found") result

/-- DELETE /tags/:id -/
def remove (setup : Setup) (userId id : ℕ) : Task Unit :=
  removeOwned "tag" (deleteRow setup userId id)

end TagService

namespace PaymentMethodService

/-- A row as a payment method. -/
def rowToPaymentMethod (id : ℕ) (row : PaymentMethodRow) : PaymentMethod :=
  { id := id, name := row.name, storedValue := row.storedValue }

/-- SELECT id, name, stored_value FROM payment_methods WHERE user_id = $1
ORDER BY lower(name), id -/
def selectAll (setup : Setup) (userId : ℕ) : Stmt store (List PaymentMethod) := .query fun _ db =>
  (sortByName setup PaymentMethodRow.name
    ((db .paymentMethods).list.filter fun (_, row) => row.userId == userId)).map
      fun (id, row) => rowToPaymentMethod id row

/-- INSERT INTO payment_methods (user_id, name, stored_value) VALUES ($1, $2, $3) RETURNING id -/
def insertRow (userId : ℕ) (name : String) (storedValue : Bool) : Stmt store ℕ :=
  .insert .createPaymentMethod .paymentMethods fun _ =>
    { userId := userId, name := name, storedValue := storedValue }

/-- UPDATE payment_methods SET name = COALESCE($1, name), stored_value = COALESCE($2, stored_value)
WHERE id = $3 AND user_id = $4 RETURNING id, name, stored_value -/
def updateRow (userId id : ℕ) (name : Option String) (storedValue : Option Bool) :
    Stmt store (List PaymentMethod) :=
  .update .updatePaymentMethod .paymentMethods
    (fun _ rowId (row : PaymentMethodRow) => rowId == id && row.userId == userId)
    (fun _ (row : PaymentMethodRow) =>
      { row with name := name.getD row.name, storedValue := storedValue.getD row.storedValue })
    rowToPaymentMethod

/-- DELETE FROM payment_methods WHERE id = $1 AND user_id = $2 RETURNING id -/
def deleteRow (setup : Setup) (userId id : ℕ) : Stmt store (List ℕ) :=
  .delete (schema setup.lower) .removePaymentMethod .paymentMethods
    fun _ rowId (row : PaymentMethodRow) => rowId == id && row.userId == userId

/-- All of the user's payment methods, by name. -/
def list (setup : Setup) (userId : ℕ) : Task (List PaymentMethod) :=
  execSql .db (selectAll setup userId)

/-- The name and flag of a create body. -/
def parseNew (body : Json) : Except Err (String × Bool) := do
  requireObject body
  rejectUnknownKeys body ["name", "stored_value"]
  let name ← requiredName body
  let storedValue ← setIfPresent body "stored_value" false boolean
  pure (name, storedValue)

/-- POST /payment-methods -/
def create (userId : ℕ) (body : Json) : Task PaymentMethod := do
  let (name, storedValue) ← ofExcept (parseNew body)
  let id ← conflictIfDuplicate "payment method" (execSql .db (insertRow userId name storedValue))
  pure { id := id, name := name, storedValue := storedValue }

/-- The name and flag of a PATCH body. -/
def parsePatch (body : Json) : Except Err (Option String × Option Bool) := do
  requireObject body
  rejectUnknownKeys body ["name", "stored_value"]
  let name ← optionalField body "name" requiredString
  let storedValue ← optionalField body "stored_value" boolean
  pure (name, storedValue)

/-- PATCH /payment-methods/:id -/
def update (userId id : ℕ) (body : Json) : Task PaymentMethod := do
  let (name, storedValue) ← ofExcept (parsePatch body)
  let result ← conflictIfDuplicate "payment method"
    (execSql .db (updateRow userId id name storedValue))
  firstRow (.notFound "payment method not found") result

/-- DELETE /payment-methods/:id -/
def remove (setup : Setup) (userId id : ℕ) : Task Unit :=
  removeOwned "payment method" (deleteRow setup userId id)

end PaymentMethodService

end ReceiptScanner

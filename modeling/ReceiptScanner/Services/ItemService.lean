import ReceiptScanner.Receipts.LedgerInput
import ReceiptScanner.Store.Task
import Mathlib.Data.List.Sort

/-!
# Items

Items carry no owner: every operation resolves the receipt under the user first.
Each SQL text is one definition, named for what it does.
-/

namespace ReceiptScanner

open ReadCommitted

/-- An item with its tags, as responses show it. -/
structure Item where
  id : ℕ
  receiptId : ℕ
  name : Option String
  quantity : Option ℚ
  unitPriceCents : Option ℤ
  amountCents : ℤ
  categoryId : Option ℕ
  informational : Bool
  tagIds : List ℕ
deriving DecidableEq

namespace ItemService

/-- A row of `items` as an item, tags not yet filled in. -/
def rowToItem (id : ℕ) (row : ItemRow) : Item where
  id := id
  receiptId := row.receiptId
  name := row.name
  quantity := row.quantity
  unitPriceCents := row.unitPriceCents
  amountCents := row.amountCents
  categoryId := row.categoryId
  informational := row.informational
  tagIds := []

/-- The editable fields of a stored item. -/
def itemToInput (item : Item) : ItemInput where
  name := item.name
  quantity := item.quantity
  unitPriceCents := item.unitPriceCents
  amountCents := item.amountCents
  categoryId := item.categoryId
  informational := item.informational
  tagIds := item.tagIds

section Statements

/-- SELECT kind FROM receipts WHERE id = $1 AND user_id = $2 -/
def selectOwnedKind (userId receiptId : ℕ) : Stmt store (List Kind) :=
  .select none .receipts (fun _ id (row : ReceiptRow) => id == receiptId && row.userId == userId)
    fun _ _ (row : ReceiptRow) => row.kind

/-- SELECT tag_id FROM item_tags WHERE item_id = $1 ORDER BY tag_id -/
def selectTagIds (itemId : ℕ) : Stmt store (List ℕ) := .query fun _ db =>
  (((db .itemTags).list.filter fun (_, row) => row.itemId == itemId).map
    fun (_, row) => row.tagId).insertionSort (· ≤ ·)

/-- SELECT ... FROM items WHERE id = $1 -/
def selectItem (itemId : ℕ) : Stmt store (List Item) :=
  .select none .items (fun _ id _ => id == itemId) fun _ => rowToItem

/-- DELETE FROM item_tags WHERE item_id = $1 -/
def deleteTags (setup : Setup) (itemId : ℕ) : Stmt store (List ℕ) :=
  .delete (schema setup.lower) .clearTags .itemTags fun _ _ (row : ItemTagRow) =>
    row.itemId == itemId

/-- SELECT 1 FROM tags WHERE id = $1 AND user_id = $2 -/
def selectOwnedTag (userId tagId : ℕ) : Stmt store (List Unit) :=
  .select none .tags (fun _ id (row : TagRow) => id == tagId && row.userId == userId)
    fun _ _ _ => ()

/-- INSERT INTO item_tags (item_id, tag_id) VALUES ($1, $2) -/
def insertTag (itemId tagId : ℕ) : Stmt store ℕ :=
  .insert .insertTag .itemTags fun _ => { itemId := itemId, tagId := tagId }

/-- SELECT is_income FROM categories WHERE id = $1 AND user_id = $2 FOR SHARE -/
def selectCategoryForShare (userId categoryId : ℕ) : Stmt store (List Bool) :=
  .select (some .share) .categories
    (fun _ id (row : CategoryRow) => id == categoryId && row.userId == userId)
    fun _ _ (row : CategoryRow) => row.isIncome

/-- The row of an item input on a receipt. -/
def itemRow (receiptId : ℕ) (item : ItemInput) : ItemRow where
  receiptId := receiptId
  name := item.name
  quantity := item.quantity
  unitPriceCents := item.unitPriceCents
  amountCents := item.amountCents
  categoryId := item.categoryId
  informational := item.informational

/-- INSERT INTO items (...) VALUES (...) RETURNING id -/
def insertItem (receiptId : ℕ) (item : ItemInput) : Stmt store ℕ :=
  .insert .insertItem .items fun _ => itemRow receiptId item

/-- SELECT ... FROM items WHERE receipt_id = $1 ORDER BY id -/
def selectItems (receiptId : ℕ) : Stmt store (List Item) :=
  .select none .items (fun _ _ (row : ItemRow) => row.receiptId == receiptId) fun _ => rowToItem

/-- SELECT it.item_id, it.tag_id FROM item_tags it JOIN items i ON i.id = it.item_id
WHERE i.receipt_id = $1 ORDER BY it.tag_id -/
def selectTagsOfItems (receiptId : ℕ) : Stmt store (List (ℕ × ℕ)) := .query fun _ db =>
  (((db .itemTags).list.filter fun (_, row) =>
      (((db .items).get row.itemId).map ItemRow.receiptId) == some receiptId).map
    fun (_, row) => (row.itemId, row.tagId)).insertionSort fun left right => left.2 ≤ right.2

/-- SELECT ... FROM items WHERE id = $1 AND receipt_id = $2 FOR UPDATE -/
def selectItemForUpdate (itemId receiptId : ℕ) : Stmt store (List Item) :=
  .select (some .update) .items
    (fun _ id (row : ItemRow) => id == itemId && row.receiptId == receiptId) fun _ => rowToItem

/-- UPDATE items SET ... WHERE id = $7 -/
def updateItem (itemId : ℕ) (item : ItemInput) : Stmt store (List Unit) :=
  .update .updateItem .items (fun _ id _ => id == itemId)
    (fun _ (row : ItemRow) => itemRow row.receiptId item) fun _ _ => ()

/-- DELETE FROM items WHERE id = $1 AND receipt_id = $2 RETURNING id -/
def deleteItem (setup : Setup) (itemId receiptId : ℕ) : Stmt store (List ℕ) :=
  .delete (schema setup.lower) .removeItem .items fun _ id (row : ItemRow) =>
    id == itemId && row.receiptId == receiptId

end Statements

/-- The kind of a receipt of the user's, which is also the ownership check. -/
def ownedReceiptKind (client : Client) (userId receiptId : ℕ) : Task Kind := do
  let result ← execSql client (selectOwnedKind userId receiptId)
  firstRow .receiptNotFound result

/-- The item's tag ids, ascending. -/
def tagIdsFor (client : Client) (itemId : ℕ) : Task (List ℕ) :=
  execSql client (selectTagIds itemId)

/-- Read an item back with its tags. -/
def fetchItem (client : Client) (itemId : ℕ) : Task Item := do
  let result ← execSql client (selectItem itemId)
  let item ← firstRow (.runtime "no rows") result
  let tagIds ← tagIdsFor client itemId
  pure { item with tagIds := tagIds }

/-- Add one tag of the user's to an item. -/
def addTag (userId itemId tagId : ℕ) : Task Unit := do
  let owned ← execSql .transaction (selectOwnedTag userId tagId)
  let _ ← firstRow (.validation "tag_ids contains a tag that does not exist") owned
  let _ ← execSql .transaction (insertTag itemId tagId)

/-- Replace the item's whole tag set. -/
def replaceTags (setup : Setup) (userId itemId : ℕ) (tagIds : List ℕ) : Task Unit := do
  let _ ← execSql .transaction (deleteTags setup itemId)
  tagIds.forM (addTag userId itemId)

/-- The category must be the user's and its side must fit the kind. -/
def requireCategoryFitsKind (userId categoryId : ℕ) (kind : Kind) : Task Unit := do
  let result ← execSql .transaction (selectCategoryForShare userId categoryId)
  let isIncome ← firstRow (.validation "category_id does not exist") result
  ofExcept (rejectIf (!categoryFitsKind isIncome kind)
    ("items on a " ++ kind.name ++ " need " ++
      (if (rulesFor kind).usesIncomeCategories then "an income" else "an expense") ++
      " category"))

/-- Insert one validated item. -/
def insert (setup : Setup) (userId receiptId : ℕ) (receiptKind : Kind) (item : ItemInput) :
    Task ℕ := do
  item.categoryId.forM fun categoryId => requireCategoryFitsKind userId categoryId receiptKind
  let itemId ← execSql .transaction (insertItem receiptId item)
  replaceTags setup userId itemId item.tagIds
  pure itemId

/-- GET /receipts/:id/items -/
def list (userId receiptId : ℕ) : Task (List Item) := do
  let _ ← ownedReceiptKind .db userId receiptId
  let rows ← execSql .db (selectItems receiptId)
  let tagRows ← execSql .db (selectTagsOfItems receiptId)
  pure (rows.map fun item =>
    { item with tagIds := (tagRows.filter fun (itemId, _) => itemId == item.id).map Prod.snd })

/-- POST /receipts/:id/items -/
def create (setup : Setup) (userId receiptId : ℕ) (body : Json) : Task Item := do
  let input ← ofExcept (parseNewItem body)
  withTransaction (rollingBack do
    let kind ← ownedReceiptKind .transaction userId receiptId
    let itemId ← insert setup userId receiptId kind input
    fetchItem .transaction itemId)

/-- The category check of a PATCH: only when the body names a category. -/
def checkPatchedCategory (userId : ℕ) (kind : Kind) (body : Json) (item : ItemInput) : Task Unit :=
  if body.contains "category_id" then
    item.categoryId.forM fun categoryId => requireCategoryFitsKind userId categoryId kind
  else pure ()

/-- PATCH /receipts/:id/items/:item_id -/
def update (setup : Setup) (userId receiptId itemId : ℕ) (body : Json) : Task Item :=
  withTransaction (rollingBack do
    let kind ← ownedReceiptKind .transaction userId receiptId
    let result ← execSql .transaction (selectItemForUpdate itemId receiptId)
    let current ← firstRow (.notFound "item not found") result
    let (item, tagsGiven) ← ofExcept (applyItemPatch (itemToInput current) body)
    checkPatchedCategory userId kind body item
    let _ ← execSql .transaction (updateItem itemId item)
    if tagsGiven then replaceTags setup userId itemId item.tagIds
    fetchItem .transaction itemId)

/-- DELETE /receipts/:id/items/:item_id -/
def remove (setup : Setup) (userId receiptId itemId : ℕ) : Task Unit := do
  let _ ← ownedReceiptKind .db userId receiptId
  let result ← execSql .db (deleteItem setup itemId receiptId)
  let _ ← firstRow (.notFound "item not found") result

end ItemService

end ReceiptScanner

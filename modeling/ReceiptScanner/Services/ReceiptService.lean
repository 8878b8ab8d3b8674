import ReceiptScanner.Services.ItemService

/-!
# Receipts

Upload, manual entry, PATCH, retry, reads and delete. Each SQL text is one
definition; the operations follow the source line by line.
-/

namespace ReceiptScanner

open ReadCommitted

/-- The existing image that a duplicate check hit. -/
structure ImageConflict where
  receiptId : ℕ
  imageId : ℕ
deriving DecidableEq

/-- A receipt as responses show it. Instants stay instants; their text form is
the server's. -/
structure ReceiptSummary where
  id : ℕ
  storeNameRaw : Option String
  merchant : Option String
  purchaseDate : Option String
  totalCents : ℤ
  direction : Direction
  currency : String
  kind : Kind
  scanState : ScanState
  taxDeductible : Bool
  note : Option String
  source : Source
  paymentMethodId : Option ℕ
  offsetsReceiptId : Option ℕ
  fxRateToAud : Option ℚ
  audEquivalentCents : Option ℤ
  proposedAt : Option ℕ
  reviewedAt : Option ℕ
  needsReview : Bool
  isConfirmed : Bool
  createdAt : ℕ
  updatedAt : ℕ
deriving DecidableEq

/-- An image of a receipt, without its key. -/
structure ImageRef where
  id : ℕ
  createdAt : ℕ
deriving DecidableEq

/-- Whose an image is, and where. -/
structure ImageLocation where
  ownerUserId : ℕ
  imageKey : String
deriving DecidableEq

namespace ReceiptService

/-- A normalized image and its hash. -/
structure PreparedImage where
  bytes : String
  sha256Hex : String
deriving DecidableEq

/-- What a text of `isoUtc` keeps of an instant: its milliseconds. While years have four digits,
the texts are in the order of these. -/
def isoUtc (instant : ℕ) : ℕ := instant / 1000

/-- A row read through `v_receipt_state`, with its instants as they are stored. -/
def rowToSummary (id : ℕ) (row : ReceiptRow) : ReceiptSummary where
  id := id
  storeNameRaw := row.storeNameRaw
  merchant := row.merchant
  purchaseDate := row.purchaseDate.map Subtype.val
  totalCents := row.totalCents
  direction := row.direction
  currency := row.currency
  kind := row.kind
  scanState := row.scanState
  taxDeductible := row.taxDeductible
  note := row.note
  source := row.source
  paymentMethodId := row.paymentMethodId
  offsetsReceiptId := row.offsetsReceiptId
  fxRateToAud := row.fxRateToAud
  audEquivalentCents := row.audEquivalentCents
  proposedAt := row.proposedAt
  reviewedAt := row.reviewedAt
  needsReview := row.needsReview
  isConfirmed := row.isConfirmed
  createdAt := row.createdAt
  updatedAt := row.updatedAt

/-- The current editable fields of a row. -/
def rowToEditable (row : ReceiptRow) : EditableReceipt where
  kind := row.kind
  direction := row.direction
  totalCents := row.totalCents
  currency := row.currency
  merchant := row.merchant
  storeNameRaw := row.storeNameRaw
  purchaseDate := row.purchaseDate.map Subtype.val
  paymentMethodId := row.paymentMethodId
  taxDeductible := row.taxDeductible
  note := row.note
  offsetsReceiptId := row.offsetsReceiptId
  fxRateToAud := row.fxRateToAud

/-- receipts/<user>/<receipt>/<random>.webp -/
def imageKey (userId receiptId : ℕ) (random : String) : String :=
  "receipts/" ++ toString userId ++ "/" ++ toString receiptId ++ "/" ++ random ++ ".webp"

section Statements

/-- SELECT pg_advisory_xact_lock($1::bigint) -/
def advisoryLock (userId : ℕ) : Stmt store Unit := fun _ =>
  { result := (), locks := [⟨.advisory, userId, .update⟩] }

/-- SELECT id, receipt_id FROM receipt_images WHERE user_id = $1 AND image_sha256 = $2 LIMIT 1 -/
def selectDuplicate (userId : ℕ) (sha256Hex : String) : Stmt store (List ImageConflict) :=
  .query fun _ db =>
    (((db .receiptImages).list.filter fun (_, row) =>
        row.userId == userId && row.imageSha256 == sha256Hex).take 1).map fun (id, row) =>
      { receiptId := row.receiptId, imageId := id }

/-- INSERT INTO receipt_images (...) VALUES (...) -/
def insertImage (receiptId userId : ℕ) (key sha256Hex : String) : Stmt store ℕ :=
  .insert .storeImage .receiptImages fun now =>
    { receiptId := receiptId, userId := userId, imageKey := key, imageSha256 := sha256Hex
      createdAt := now }

/-- The row of an upload before its scan. -/
def uploadedRow (userId now : ℕ) : ReceiptRow where
  userId := userId
  kind := kDefaultKind
  direction := ((rulesFor kDefaultKind).canonicalDirection).getD .outflow
  source := .scanned
  scanState := .uploaded
  createdAt := now
  updatedAt := now

/-- INSERT INTO receipts (user_id, kind, direction, source, scan_state) VALUES (...) RETURNING id -/
def insertUploaded (userId : ℕ) : Stmt store ℕ :=
  .insert .uploadReceipt .receipts (uploadedRow userId)

/-- SELECT 1 FROM receipts WHERE id = $1 AND user_id = $2 -/
def selectOwned (userId receiptId : ℕ) : Stmt store (List Unit) :=
  .select none .receipts (fun _ id (row : ReceiptRow) => id == receiptId && row.userId == userId)
    fun _ _ _ => ()

/-- SELECT count(*) AS n FROM receipt_images WHERE receipt_id = $1 -/
def countImages (receiptId : ℕ) : Stmt store ℕ := .query fun _ db =>
  ((db .receiptImages).list.filter fun (_, row) => row.receiptId == receiptId).length

/-- UPDATE receipts SET scan_state = $1 WHERE id = $2 -/
def requeue (receiptId : ℕ) : Stmt store (List Unit) :=
  .update .addImages .receipts (fun _ id _ => id == receiptId)
    (fun _ (row : ReceiptRow) => { row with scanState := .uploaded }) fun _ _ => ()

/-- SELECT 1 FROM payment_methods WHERE id = $1 AND user_id = $2 -/
def selectOwnedPaymentMethod (userId id : ℕ) : Stmt store (List Unit) :=
  .select none .paymentMethods
    (fun _ rowId (row : PaymentMethodRow) => rowId == id && row.userId == userId) fun _ _ _ => ()

/-- The row of a manual entry, born reviewed. -/
def manualRow (setup : Setup) (userId : ℕ) (r : EditableReceipt) (purchaseDate : Option Date)
    (now : ℕ) : ReceiptRow where
  userId := userId
  kind := r.kind
  direction := r.direction
  totalCents := r.totalCents
  currency := r.currency
  merchant := r.merchant
  purchaseDate := some (purchaseDate.getD (setup.sydneyDate now))
  paymentMethodId := r.paymentMethodId
  taxDeductible := r.taxDeductible
  note := r.note
  offsetsReceiptId := r.offsetsReceiptId
  fxRateToAud := r.fxRateToAud
  audEquivalentCents := audEquivalentCents r.totalCents r.fxRateToAud
  source := .manual
  scanState := .idle
  reviewedAt := some now
  createdAt := now
  updatedAt := now

/-- INSERT INTO receipts (...) VALUES (...) RETURNING id -/
def insertManual (setup : Setup) (userId : ℕ) (r : EditableReceipt)
    (purchaseDate : Option Date) : Stmt store ℕ :=
  .insert .createManual .receipts (manualRow setup userId r purchaseDate)

/-- SELECT ... FROM receipts WHERE id = $1 AND user_id = $2 FOR UPDATE -/
def selectForUpdate (userId receiptId : ℕ) : Stmt store (List EditableReceipt) :=
  .select (some .update) .receipts
    (fun _ id (row : ReceiptRow) => id == receiptId && row.userId == userId)
    fun _ _ => rowToEditable

/-- SELECT c.is_income FROM items i JOIN categories c ON c.id = i.category_id
WHERE i.receipt_id = $1 FOR SHARE OF c. The items are those of the snapshot; the
categories are locked, and read as they are then. -/
def selectItemCategories (receiptId : ℕ) : Stmt store (List Bool) := fun ctx =>
  let used := ((ctx.snap .items).list.filter fun (_, row) => row.receiptId == receiptId).filterMap
    fun (_, row) => row.categoryId.filter fun id => ((ctx.snap .categories).get id).isSome
  let locked := used.filterMap fun id => ((ctx.cur .categories).get id).map fun row => (id, row)
  { result := locked.map fun (_, row) => row.isIncome
    locks := locked.map fun (id, _) => ⟨.categories, id, .share⟩ }

/-- The row after a PATCH. -/
def patchedRow (r : EditableReceipt) (purchaseDate : Option Date) (markReviewed : Bool)
    (now : ℕ) (row : ReceiptRow) : ReceiptRow :=
  { row with
    kind := r.kind
    direction := r.direction
    totalCents := r.totalCents
    currency := r.currency
    merchant := r.merchant
    storeNameRaw := r.storeNameRaw
    purchaseDate := purchaseDate
    paymentMethodId := r.paymentMethodId
    taxDeductible := r.taxDeductible
    note := r.note
    offsetsReceiptId := r.offsetsReceiptId
    fxRateToAud := r.fxRateToAud
    audEquivalentCents := audEquivalentCents r.totalCents r.fxRateToAud
    updatedAt := now
    reviewedAt := if markReviewed then some now else row.reviewedAt }

/-- UPDATE receipts SET ... WHERE id = $15 -/
def updatePatched (receiptId : ℕ) (r : EditableReceipt) (purchaseDate : Option Date)
    (markReviewed : Bool) : Stmt store (List Unit) :=
  .update .updateReceipt .receipts (fun _ id _ => id == receiptId)
    (fun now (row : ReceiptRow) => patchedRow r purchaseDate markReviewed now row) fun _ _ => ()

/-- SELECT ... FROM v_receipt_state WHERE id = $1 -/
def selectSummary (receiptId : ℕ) : Stmt store (List ReceiptSummary) :=
  .select none .receipts (fun _ id _ => id == receiptId) fun _ => rowToSummary

/-- SELECT ... FROM v_receipt_state WHERE id = $1 AND user_id = $2 -/
def selectOwnedSummary (userId receiptId : ℕ) : Stmt store (List ReceiptSummary) :=
  .select none .receipts (fun _ id (row : ReceiptRow) => id == receiptId && row.userId == userId)
    fun _ => rowToSummary

/-- UPDATE receipts SET scan_state = $1, scan_attempts = 0, reclaim_count = 0, updated_at = now()
WHERE id = $2 AND user_id = $3 AND scan_state = $4 RETURNING id -/
def requeueFailed (userId receiptId : ℕ) : Stmt store (List ℕ) :=
  .update .retryScan .receipts
    (fun _ id (row : ReceiptRow) =>
      id == receiptId && row.userId == userId && row.scanState == .scanFailed)
    (fun now (row : ReceiptRow) =>
      { row with scanState := .uploaded, scanAttempts := 0, reclaimCount := 0, updatedAt := now })
    fun id _ => id

/-- SELECT id, ..., to_char(created_at AT TIME ZONE 'UTC', ...) AS created_at, ...
FROM v_receipt_state WHERE user_id = $1
ORDER BY created_at DESC, id DESC LIMIT $2 OFFSET $3

ORDER BY means the select list's `created_at`, which is the text of `isoUtc`: receipts of one
millisecond are listed by id. -/
def selectPage (userId limit offset : ℕ) : Stmt store (List ReceiptSummary) := .query fun _ db =>
  let owned := (db .receipts).list.filter fun (_, row) => row.userId == userId
  let newestFirst := owned.insertionSort fun left right =>
    isoUtc right.2.createdAt < isoUtc left.2.createdAt ∨
      (isoUtc right.2.createdAt = isoUtc left.2.createdAt ∧ right.1 ≤ left.1)
  ((newestFirst.drop offset).take limit).map fun (id, row) => rowToSummary id row

/-- SELECT id, created_at FROM receipt_images WHERE receipt_id = $1 ORDER BY created_at -/
def selectImages (receiptId : ℕ) : Stmt store (List ImageRef) := .query fun _ db =>
  (((db .receiptImages).list.filter fun (_, row) => row.receiptId == receiptId).map
    fun (id, row) => ({ id := id, createdAt := row.createdAt } : ImageRef)).insertionSort
      fun left right => left.createdAt ≤ right.createdAt

/-- SELECT ri.image_key FROM receipt_images ri JOIN receipts r ON r.id = ri.receipt_id
WHERE ri.receipt_id = $1 AND r.user_id = $2 -/
def selectOwnedKeys (userId receiptId : ℕ) : Stmt store (List String) := .query fun _ db =>
  ((db .receiptImages).list.filter fun (_, row) =>
      row.receiptId == receiptId &&
        (((db .receipts).get row.receiptId).map ReceiptRow.userId) == some userId).map
    fun (_, row) => row.imageKey

/-- DELETE FROM receipts WHERE id = $1 AND user_id = $2 RETURNING id -/
def deleteOwned (setup : Setup) (userId receiptId : ℕ) : Stmt store (List ℕ) :=
  .delete (schema setup.lower) .deleteReceipt .receipts fun _ id (row : ReceiptRow) =>
    id == receiptId && row.userId == userId

/-- SELECT ri.image_key, r.user_id FROM receipt_images ri JOIN receipts r
ON r.id = ri.receipt_id WHERE ri.id = $1 -/
def selectImageLocation (imageId : ℕ) : Stmt store (List ImageLocation) := .query fun _ db =>
  ((db .receiptImages).get imageId).toList.filterMap fun row =>
    ((db .receipts).get row.receiptId).map fun receipt =>
      { ownerUserId := receipt.userId, imageKey := row.imageKey }

end Statements

/-- Normalize and hash a batch. -/
def prepareImages (setup : Setup) (rawImages : List String) : Task (List PreparedImage) :=
  rawImages.mapM fun raw => do
    let bytes ← normalize raw
    pure { bytes := bytes, sha256Hex := setup.sha256Hex bytes }

/-- One image write for the user at a time, until the transaction ends. -/
def lockUserImages (userId : ℕ) : Task Unit := execSql .transaction (advisoryLock userId)

/-- The first image of the batch whose hash the user already has. -/
def findConflict (userId : ℕ) : List PreparedImage → Task (Option ImageConflict)
  | [] => pure none
  | prep :: rest => do
      let dup ← execSql .transaction (selectDuplicate userId prep.sha256Hex)
      match dup with
      | conflict :: _ => pure (some conflict)
      | [] => findConflict userId rest

/-- The duplicate check, unless the caller forces the write. -/
def conflictUnlessForced (userId : ℕ) (prepared : List PreparedImage) (force : Bool) :
    Task (Option ImageConflict) :=
  if force then pure none else findConflict userId prepared

/-- Put one image in the store, then insert its row. -/
def storeImage (userId receiptId : ℕ) (prep : PreparedImage) : Task Unit := do
  let random ← generateToken
  let key := imageKey userId receiptId random
  putImage key "image/webp" prep.bytes
  let _ ← execSql .transaction (insertImage receiptId userId key prep.sha256Hex)

/-- Every image of the batch. -/
def storeImages (userId receiptId : ℕ) (prepared : List PreparedImage) : Task Unit :=
  prepared.forM (storeImage userId receiptId)

/-- More images than the cap allows. -/
def tooManyImages (setup : Setup) (count : ℕ) : Except Err Unit :=
  if (count : ℤ) > setup.maxImagesPerReceipt then .error .tooManyImages else .ok ()

/-- POST /receipts -/
def uploadReceipt (setup : Setup) (userId : ℕ) (images : List String) (force : Bool) :
    Task (ℕ ⊕ ImageConflict) := do
  ofExcept (tooManyImages setup images.length)
  let prepared ← prepareImages setup images
  withTransaction (rollingBack do
    lockUserImages userId
    let conflict ← conflictUnlessForced userId prepared force
    match conflict with
    | some conflict => do
        rollback
        pure (.inr conflict)
    | none => do
        let receiptId ← execSql .transaction (insertUploaded userId)
        storeImages userId receiptId prepared
        pure (.inl receiptId))

/-- POST /receipts/:id/images -/
def addImages (setup : Setup) (userId receiptId : ℕ) (images : List String) (force : Bool) :
    Task (Unit ⊕ ImageConflict) := do
  let owned ← execSql .db (selectOwned userId receiptId)
  let _ ← firstRow .receiptNotFound owned
  let prepared ← prepareImages setup images
  withTransaction (rollingBack do
    lockUserImages userId
    let currentCount ← execSql .transaction (countImages receiptId)
    ofExcept (tooManyImages setup (currentCount + prepared.length))
    let conflict ← conflictUnlessForced userId prepared force
    match conflict with
    | some conflict => do
        rollback
        pure (.inr conflict)
    | none => do
        storeImages userId receiptId prepared
        let _ ← execSql .transaction (requeue receiptId)
        pure (.inl ()))

/-- The payment method must be the user's. -/
def checkPaymentMethod (userId id : ℕ) : Task Unit := do
  let owned ← execSql .transaction (selectOwnedPaymentMethod userId id)
  let _ ← firstRow (.validation "payment_method_id does not exist") owned

/-- The offset target must be the user's, another receipt, and of a target kind. -/
def checkOffsetTarget (userId : ℕ) (receiptId : Option ℕ) (offsetsReceiptId : ℕ) : Task Unit := do
  ofExcept (rejectIf (receiptId == some offsetsReceiptId) "a receipt cannot offset itself")
  let target ← execSql .transaction (ItemService.selectOwnedKind userId offsetsReceiptId)
  let targetKind ← firstRow (.validation "offsets_receipt_id does not exist") target
  ofExcept (rejectIf (!(rulesFor targetKind).isOffsetTarget)
    ("offsets_receipt_id can't point at a " ++ targetKind.name))

/-- The ownership checks shared by manual entry and PATCH. -/
def validateReferences (userId : ℕ) (receiptId : Option ℕ) (receipt : EditableReceipt) :
    Task Unit := do
  receipt.paymentMethodId.forM (checkPaymentMethod userId)
  receipt.offsetsReceiptId.forM (checkOffsetTarget userId receiptId)

/-- The items of a manual entry: the explicit ones, or one implicit item. -/
def manualItems (input : ManualEntryInput) : List ItemInput :=
  if input.items.isEmpty then
    [{ name := input.receipt.merchant, amountCents := input.receipt.totalCents
       categoryId := input.categoryId }]
  else input.items

/-- POST /receipts/manual -/
def createManual (setup : Setup) (userId : ℕ) (body : Json) : Task ℕ := do
  let input ← ofExcept (parseManualEntry body)
  let r := input.receipt
  withTransaction (rollingBack do
    validateReferences userId none r
    let purchaseDate ← ofExcept (castDate? setup r.purchaseDate)
    let receiptId ← execSql .transaction (insertManual setup userId r purchaseDate)
    (manualItems input).forM fun item => do
      let _ ← ItemService.insert setup userId receiptId r.kind item
    pure receiptId)

/-- A kind change must leave no categorized item on the wrong side. -/
def checkSideChange (receiptId : ℕ) (wasIncomeSide isIncomeSide : Bool) : Task Unit :=
  if isIncomeSide ≠ wasIncomeSide then do
    let itemCategories ← execSql .transaction (selectItemCategories receiptId)
    ofExcept (rejectIf (itemCategories.any fun isIncome => isIncome != isIncomeSide)
      ("this kind change would leave items in the wrong expense/income categories -- " ++
        "recategorize them first"))
  else pure ()

/-- PATCH /receipts/:id -/
def updateReceipt (setup : Setup) (userId receiptId : ℕ) (body : Json) : Task ReceiptSummary :=
  withTransaction (rollingBack do
    let current ← execSql .transaction (selectForUpdate userId receiptId)
    let before ← firstRow .receiptNotFound current
    let (r, markReviewed) ← ofExcept (applyReceiptPatch before body)
    validateReferences userId (some receiptId) r
    checkSideChange receiptId (rulesFor before.kind).usesIncomeCategories
      (rulesFor r.kind).usesIncomeCategories
    let purchaseDate ← ofExcept (castDate? setup r.purchaseDate)
    let _ ← execSql .transaction (updatePatched receiptId r purchaseDate markReviewed)
    let updated ← execSql .transaction (selectSummary receiptId)
    firstRow (.runtime "no rows") updated)

/-- The receipt, if it is the user's. -/
def getReceipt (userId receiptId : ℕ) : Task (Option ReceiptSummary) := do
  let result ← execSql .db (selectOwnedSummary userId receiptId)
  pure result.head?

/-- POST /receipts/:id/retry-scan -/
def retryScan (userId receiptId : ℕ) : Task ReceiptSummary := do
  let requeued ← execSql .db (requeueFailed userId receiptId)
  let receipt ← getReceipt userId receiptId
  let receipt ← firstRow .receiptNotFound receipt.toList
  let _ ← firstRow (.conflict "only a receipt in scan_failed can be retried") requeued
  pure receipt

/-- Newest first, one page. -/
def listReceipts (userId : ℕ) (limit offset : ℤ) : Task (List ReceiptSummary) :=
  if limit < 0 || offset < 0 then throw (.sql .other)
  else execSql .db (selectPage userId limit.toNat offset.toNat)

/-- The images of a receipt of the user's. -/
def listImages (userId receiptId : ℕ) : Task (List ImageRef) := do
  let owned ← execSql .db (selectOwned userId receiptId)
  let _ ← firstRow .receiptNotFound owned
  execSql .db (selectImages receiptId)

/-- Remove one stored object; a failure is only logged. -/
def removeQuietly (key : String) : Task Unit := catchStd (removeImage key) fun _ => pure ()

/-- DELETE /receipts/:id -/
def deleteReceipt (setup : Setup) (userId receiptId : ℕ) : Task Bool := do
  let images ← execSql .db (selectOwnedKeys userId receiptId)
  let result ← execSql .db (deleteOwned setup userId receiptId)
  match result with
  | [] => pure false
  | _ :: _ => do
      images.forM removeQuietly
      pure true

/-- The image, whoever asks. -/
def findImage (imageId : ℕ) : Task (Option ImageLocation) := do
  let result ← execSql .db (selectImageLocation imageId)
  pure result.head?

end ReceiptService

end ReceiptScanner

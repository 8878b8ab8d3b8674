import ReceiptScanner.Services.ReceiptService

/-!
# The scan worker

The queue is the `scan_state` column. `tick` re-queues stuck scans and claims
uploaded receipts; `process` scans one claimed receipt and writes the result, or
records a failure. A claim is known by its token, the `scan_started_at` it wrote.
-/

namespace ReceiptScanner

open ReadCommitted JsonInput

/-- A claimed receipt: every later write requires `claimedAt` to be unchanged. -/
structure Claim where
  receiptId : ℕ
  userId : ℕ
  claimedAt : ℕ
deriving DecidableEq

/-- A category of the user's. -/
structure CategoryRef where
  id : ℕ
  name : String
  isIncome : Bool
deriving DecidableEq

/-- A tag of the user's. -/
structure TagRef where
  id : ℕ
  name : String
deriving DecidableEq

/-- The user's own lists: the provider's enums, and the map from names to ids. -/
structure Taxonomy where
  categories : List CategoryRef
  tags : List TagRef
deriving DecidableEq

/-- The receipt as the write step needs it. -/
structure Snapshot where
  reviewed : Bool
  kind : Kind
  totalCents : ℤ
  currency : String
  merchant : Option String
  purchaseDate : Option String
  taxDeductible : Bool
  offsetsReceiptId : Option ℕ
  updatedAt : ℕ
  itemCount : ℕ
deriving DecidableEq

namespace ScanWorker

/-- `std::tolower` on every byte. -/
def lower (s : String) : String := s.map Char.toLower

/-- The number of a day in the Gregorian calendar. -/
def sysDays (year month day : ℤ) : ℤ :=
  let y := if month ≤ 2 then year - 1 else year
  let era := y / 400
  let yearOfEra := y - era * 400
  let dayOfYear := (153 * (month + (if month > 2 then -3 else 9)) + 2) / 5 + day - 1
  let dayOfEra := yearOfEra * 365 + yearOfEra / 4 - yearOfEra / 100 + dayOfYear
  era * 146097 + dayOfEra - 719468

/-- Days from one YYYY-MM-DD text to another. -/
def daysBetween (start stop : String) : Except Err ℤ :=
  match dateParts start, dateParts stop with
  | some (y, m, d), some (y', m', d') => .ok (sysDays y' m' d' - sysDays y m d)
  | _, _ => .error (.runtime "stoi")

/-- A validation error of a field reader, as the provider's fault. -/
def providerReturned {α : Type} : Except Err α → Except Err α
  | .error (.validation message) => .error (.scanError ("provider returned " ++ message))
  | result => result

/-- `if (bad) throw ScanError(message);` -/
def scanErrorIf (bad : Bool) (message : String) : Except Err Unit :=
  if bad then .error (.scanError message) else .ok ()

/-- An item the write step could not store. -/
def badItem (item : ScannedItem) : Bool :=
  item.amountCents < 0 || item.unitPriceCents.any (· < 0) || item.quantity.any (· ≤ 0)

/-- Reject a result that the write step could not store, and uppercase its
currency. The kind is checked only for extraction. -/
def validateResult (result : ScanResult) (verifying : Bool) : Except Err ScanResult := do
  scanErrorIf (!verifying && !(findKind result.kind).any fun kind => (rulesFor kind).scannable)
    ("provider returned an unusable kind: " ++ result.kind)
  scanErrorIf (result.totalCents < 0) "provider returned a negative total"
  scanErrorIf (result.items.any badItem)
    "provider returned an item with a negative amount or non-positive quantity"
  let currency ← providerReturned (currency (.string result.currency) "currency")
  let _ ← providerReturned (match result.purchaseDate with
    | none => .ok none
    | some text => some <$> date (.string text) "purchase_date")
  pure { result with currency := currency }

section Statements

/-- The row still carries the claim. -/
def holds (claim : Claim) (id : ℕ) (row : ReceiptRow) : Bool :=
  id == claim.receiptId && row.scanState == .scanning &&
    row.scanStartedAt == some claim.claimedAt

/-- (SELECT count(*) FROM items i WHERE i.receipt_id = r.id) -/
def itemCount (db : Db store) (receiptId : ℕ) : ℕ :=
  ((db .items).list.filter fun (_, row) => row.receiptId == receiptId).length

/-- A row, with its item count, as a snapshot. -/
def rowToSnapshot (db : Db store) (id : ℕ) (row : ReceiptRow) : Snapshot where
  reviewed := row.reviewedAt.isSome
  kind := row.kind
  totalCents := row.totalCents
  currency := row.currency
  merchant := row.merchant
  purchaseDate := row.purchaseDate.map Subtype.val
  taxDeductible := row.taxDeductible
  offsetsReceiptId := row.offsetsReceiptId
  updatedAt := row.updatedAt
  itemCount := itemCount db id

/-- SELECT ..., (SELECT count(*) ...) AS item_count FROM receipts r
WHERE r.id = $1 AND r.scan_state = $2 AND r.scan_started_at = $3 [FOR UPDATE] -/
def selectSnapshot (claim : Claim) (forUpdate : Bool) : Stmt store (List Snapshot) :=
  .select (if forUpdate then some .update else none) .receipts (fun _ => holds claim)
    rowToSnapshot

/-- SELECT id, name, is_income FROM categories WHERE user_id = $1 ORDER BY id -/
def selectCategories (userId : ℕ) : Stmt store (List CategoryRef) :=
  .select none .categories (fun _ _ (row : CategoryRow) => row.userId == userId)
    fun _ id (row : CategoryRow) => { id := id, name := row.name, isIncome := row.isIncome }

/-- SELECT id, name FROM tags WHERE user_id = $1 ORDER BY id -/
def selectTags (userId : ℕ) : Stmt store (List TagRef) :=
  .select none .tags (fun _ _ (row : TagRow) => row.userId == userId)
    fun _ id (row : TagRow) => { id := id, name := row.name }

/-- SELECT image_key FROM receipt_images WHERE receipt_id = $1 ORDER BY created_at, id.
Each key comes with the id of its row. -/
def selectKeys (receiptId : ℕ) : Stmt store (List (ℕ × String)) := .query fun _ db =>
  (((db .receiptImages).list.filter fun (_, row) => row.receiptId == receiptId).insertionSort
    fun left right => left.2.createdAt ≤ right.2.createdAt).map fun (id, row) => (id, row.imageKey)

/-- The row after an extraction. -/
def extractedRow (result : ScanResult) (kind : Kind) (purchaseDate : Option Date)
    (snapshot : Snapshot) (now : ℕ) (row : ReceiptRow) : ReceiptRow :=
  { row with
    kind := kind
    direction := ((rulesFor kind).canonicalDirection).getD row.direction
    totalCents := result.totalCents
    currency := result.currency
    merchant := result.merchant
    storeNameRaw := result.storeNameRaw
    purchaseDate := purchaseDate
    taxDeductible := snapshot.taxDeductible && (rulesFor kind).allowsTaxDeductible
    offsetsReceiptId := if (rulesFor kind).canOffset then snapshot.offsetsReceiptId else none
    rawOcrJson := some result.raw
    scanState := .idle
    scanStartedAt := none
    proposedAt := some now
    updatedAt := now }

/-- UPDATE receipts SET kind = $1, ... WHERE id = $12 -/
def updateExtracted (receiptId : ℕ) (result : ScanResult) (kind : Kind)
    (purchaseDate : Option Date) (snapshot : Snapshot) : Stmt store (List Unit) :=
  .update .writeExtraction .receipts (fun _ id _ => id == receiptId)
    (extractedRow result kind purchaseDate snapshot) fun _ _ => ()

/-- DELETE FROM items WHERE receipt_id = $1 -/
def deleteItems (setup : Setup) (receiptId : ℕ) : Stmt store (List ℕ) :=
  .delete (schema setup.lower) .clearItems .items fun _ _ (row : ItemRow) =>
    row.receiptId == receiptId

/-- The row after a verify scan. -/
def verifiedRow (result : ScanResult) (purchaseDate : Option Date) (allMatch : Bool) (now : ℕ)
    (row : ReceiptRow) : ReceiptRow :=
  { row with
    merchant := row.merchant.or result.merchant
    storeNameRaw := row.storeNameRaw.or result.storeNameRaw
    purchaseDate := row.purchaseDate.or purchaseDate
    rawOcrJson := some result.raw
    scanState := .idle
    scanStartedAt := none
    proposedAt := some now
    reviewedAt := if allMatch then some now else row.reviewedAt
    updatedAt := now }

/-- UPDATE receipts SET merchant = COALESCE(merchant, $1), ... WHERE id = $7 -/
def updateVerified (receiptId : ℕ) (result : ScanResult) (purchaseDate : Option Date)
    (allMatch : Bool) : Stmt store (List Unit) :=
  .update .writeVerify .receipts (fun _ id _ => id == receiptId)
    (verifiedRow result purchaseDate allMatch) fun _ _ => ()

/-- The row of a stuck scan after its reclaim. -/
def reclaimedRow (setup : Setup) (row : ReceiptRow) : ReceiptRow :=
  { row with
    reclaimCount := row.reclaimCount + 1
    scanStartedAt := none
    scanState := if (row.reclaimCount + 1 : ℤ) ≥ setup.maxReclaims then .scanFailed else .uploaded }

/-- UPDATE receipts SET reclaim_count = reclaim_count + 1, ... WHERE scan_state = $4
AND scan_started_at < now() - $5 * interval '1 second' RETURNING id, user_id, scan_state -/
def updateStuck (setup : Setup) : Stmt store (List (ℕ × ℕ × ScanState)) := fun ctx =>
  Stmt.update .reclaimStuck .receipts
    (fun _ _ (row : ReceiptRow) => row.scanState == .scanning &&
      row.scanStartedAt.any fun (started : ℕ) =>
        (started : ℤ) + seconds setup.reclaimAfterSeconds < ctx.now)
    (fun _ (row : ReceiptRow) => reclaimedRow setup row)
    (fun id (row : ReceiptRow) => (id, row.userId, row.scanState)) ctx

/-- The free slots: `GREATEST($3 - (SELECT count(*) ... scanning), 0)`. -/
def freeSlots (setup : Setup) (db : Db store) : ℕ :=
  (setup.concurrency - ((db .receipts).list.filter fun (_, row) =>
    row.scanState == .scanning).length).toNat

/-- The row of a receipt that is claimed at `claimedAt`. -/
def claimedRow (claimedAt : ℕ) (row : ReceiptRow) : ReceiptRow :=
  { row with scanState := .scanning, scanStartedAt := some claimedAt }

/-- The rows the sub-select of `claim` locks: the oldest uploaded ones of the
snapshot that nobody else has locked and that are still uploaded. -/
def claimable (setup : Setup) (ctx : Ctx store) : List (ℕ × ReceiptRow) :=
  let oldestFirst := ((ctx.snap .receipts).list.filter fun (_, row) =>
    row.scanState == .uploaded).insertionSort fun left right =>
      left.2.createdAt ≤ right.2.createdAt
  let lockable := oldestFirst.filterMap fun (id, _) =>
    if ctx.others.any (Lock.conflicts ⟨.receipts, id, .update⟩) then none
    else ((ctx.cur .receipts).get id).bind fun latest =>
      if latest.scanState == .uploaded then some (id, latest) else none
  lockable.take (freeSlots setup ctx.snap)

/-- UPDATE receipts SET scan_state = $1, scan_started_at = clock_timestamp() WHERE id IN
(SELECT id ... ORDER BY created_at, id LIMIT ... FOR UPDATE SKIP LOCKED) RETURNING ...
Every row reads the clock anew. -/
def claimRows (setup : Setup) : Stmt store (List Claim) := fun ctx =>
  let rows := (claimable setup ctx).zipIdx
  { result := rows.map fun ((id, row), index) =>
      { receiptId := id, userId := row.userId, claimedAt := ctx.clock + index }
    locks := rows.map fun ((id, _), _) => ⟨.receipts, id, .update⟩
    writes := rows.map fun ((id, row), index) =>
      ⟨.receipts, id, some (claimedRow (ctx.clock + index) row), .claim⟩
    ticks := rows.length }

/-- The row after a recorded failure. -/
def failedRow (scanError : Bool) (cap : ℤ) (row : ReceiptRow) : ReceiptRow :=
  let counter := if scanError then row.scanAttempts else row.reclaimCount
  { row with
    scanAttempts := if scanError then row.scanAttempts + 1 else row.scanAttempts
    reclaimCount := if scanError then row.reclaimCount else row.reclaimCount + 1
    scanStartedAt := none
    scanState := if (counter + 1 : ℤ) ≥ cap then .scanFailed else .uploaded }

/-- UPDATE receipts SET <counter> = <counter> + 1, ... WHERE id = $4 AND scan_state = $5
AND scan_started_at = $6 RETURNING scan_state -/
def updateFailed (claim : Claim) (scanError : Bool) (cap : ℤ) : Stmt store (List ScanState) :=
  .update .recordFailure .receipts (fun _ => holds claim)
    (fun _ (row : ReceiptRow) => failedRow scanError cap row) fun _ (row : ReceiptRow) =>
      row.scanState

end Statements

/-- The receipt, if it still carries the claim. -/
def readSnapshot (client : Client) (claim : Claim) (forUpdate : Bool) :
    Task (Option Snapshot) := do
  let result ← execSql client (selectSnapshot claim forUpdate)
  pure result.head?

/-- The user's own lists. -/
def loadTaxonomy (client : Client) (userId : ℕ) : Task Taxonomy := do
  let categories ← execSql client (selectCategories userId)
  let tags ← execSql client (selectTags userId)
  pure { categories := categories, tags := tags }

/-- What the provider is told. -/
def makeContext (taxonomy : Taxonomy) (knownKind : Option Kind) : ScanContext where
  knownKind := knownKind
  expenseCategories := (taxonomy.categories.filter fun ref => !ref.isIncome).map CategoryRef.name
  incomeCategories := (taxonomy.categories.filter fun ref => ref.isIncome).map CategoryRef.name
  tags := taxonomy.tags.map TagRef.name

/-- The first category of that name on the side of the kind. -/
def resolveCategory (name : String) (kind : Kind) (taxonomy : Taxonomy) : Option ℕ :=
  (taxonomy.categories.find? fun ref =>
    ref.isIncome == (rulesFor kind).usesIncomeCategories && lower ref.name == lower name).map
      CategoryRef.id

/-- The ids of the tags with one of these names, each once, in the order met. -/
def resolveTags (names : List String) (taxonomy : Taxonomy) : List ℕ :=
  names.foldl (fun ids name => taxonomy.tags.foldl (fun ids ref =>
    if lower ref.name == lower name && !ids.contains ref.id then ids ++ [ref.id] else ids) ids) []

/-- A scanned item, its names resolved against the user's lists. -/
def toItemInput (scanned : ScannedItem) (kind : Kind) (taxonomy : Taxonomy) : ItemInput where
  name := scanned.name
  quantity := scanned.quantity
  unitPriceCents := scanned.unitPriceCents
  amountCents := scanned.amountCents
  informational := scanned.informational
  categoryId := scanned.category.bind fun name => resolveCategory name kind taxonomy
  tagIds := resolveTags scanned.tags taxonomy

/-- Insert every scanned item. -/
def insertScannedItems (setup : Setup) (claim : Claim) (kind : Kind) (items : List ScannedItem)
    (taxonomy : Taxonomy) : Task Unit :=
  items.forM fun scanned => do
    let _ ← ItemService.insert setup claim.userId claim.receiptId kind
      (toItemInput scanned kind taxonomy)

/-- `rulesFor` on a text: an unknown kind is a bug, and throws. -/
def kindNamed (name : String) : Except Err Kind :=
  match findKind name with
  | some kind => .ok kind
  | none => .error (.runtime ("unknown kind: " ++ name))

/-- Extraction: the scan's fields and items replace the row's. -/
def writeExtraction (setup : Setup) (claim : Claim) (result : ScanResult) (taxonomy : Taxonomy)
    (snapshot : Snapshot) : Task Unit := do
  let kind ← ofExcept (kindNamed result.kind)
  let purchaseDate ← ofExcept (castDate? setup result.purchaseDate)
  let _ ← execSql .transaction
    (updateExtracted claim.receiptId result kind purchaseDate snapshot)
  let _ ← execSql .transaction (deleteItems setup claim.receiptId)
  insertScannedItems setup claim kind result.items taxonomy

/-- Verify: fill only what is empty; a match re-stamps the review. -/
def writeVerify (setup : Setup) (claim : Claim) (result : ScanResult) (taxonomy : Taxonomy)
    (snapshot : Snapshot) (allMatch : Bool) : Task Unit := do
  let purchaseDate ← ofExcept (castDate? setup result.purchaseDate)
  let _ ← execSql .transaction (updateVerified claim.receiptId result purchaseDate allMatch)
  if snapshot.itemCount = 0 then
    insertScannedItems setup claim snapshot.kind result.items taxonomy
  else pure ()

/-- `MerchantMatcher::similarity`: SELECT similarity($1, $2) on the plain client. -/
def similarity (setup : Setup) (a b : String) : Task ℚ :=
  execSql .db (.query fun _ _ => setup.similarity a b)

/-- The scanned merchant, or the raw store name, is close enough to the row's. -/
def merchantMatches (setup : Setup) (merchant : String) (result : ScanResult) : Task Bool := do
  let ofMerchant ← match result.merchant with
    | some scanned => similarity setup merchant scanned
    | none => pure 0
  let best ← match result.storeNameRaw with
    | some storeName =>
        if ofMerchant < setup.merchantMatchThreshold then do
          let ofStore ← similarity setup merchant storeName
          pure (max ofMerchant ofStore)
        else pure ofMerchant
    | none => pure ofMerchant
  pure (!(best < setup.merchantMatchThreshold))

/-- The dates agree, where both sides have one. -/
def datesMatch (setup : Setup) (before : Option String) (scanned : Option String) :
    Except Err Bool :=
  match before, scanned with
  | some before, some scanned => do
      let days ← daysBetween before scanned
      pure (!(|days| > setup.matchDateDays))
  | _, _ => .ok true

/-- The merchants agree, where both sides have one. -/
def merchantsMatch (setup : Setup) (before : Option String) (result : ScanResult) : Task Bool :=
  match before with
  | none => pure true
  | some merchant =>
      if result.merchant.isSome || result.storeNameRaw.isSome then
        merchantMatches setup merchant result
      else pure true

/-- Verify's comparison of the scan with the row. -/
def compareResult (setup : Setup) (before : Snapshot) (result : ScanResult) : Task Bool :=
  if before.reviewed then do
    let dates ← ofExcept (datesMatch setup before.purchaseDate result.purchaseDate)
    let merchants ← merchantsMatch setup before.merchant result
    pure (result.totalCents == before.totalCents && result.currency == before.currency &&
      dates && merchants)
  else pure true

/-- What one write attempt came to. -/
inductive Attempt where
  | stale
  | changed
  | written
deriving DecidableEq, Repr

/-- The end of a write attempt, once the row is locked. -/
def writeLocked (setup : Setup) (claim : Claim) (result : ScanResult) (taxonomy : Taxonomy)
    (before : Snapshot) (allMatch : Bool) : Option Snapshot → Task Attempt
  | none => do
      rollback
      pure .stale
  | some locked =>
      if locked.updatedAt = before.updatedAt && locked.reviewed == before.reviewed &&
          locked.itemCount = before.itemCount then do
        if locked.reviewed then
          writeVerify setup claim result taxonomy locked allMatch
        else
          writeExtraction setup claim result taxonomy locked
        pure .written
      else do
        rollback
        pure .changed

/-- Write the result if the row is still as it was compared. -/
def writeResult (setup : Setup) (claim : Claim) (result : ScanResult) (taxonomy : Taxonomy)
    (before : Snapshot) (allMatch : Bool) : Task Attempt :=
  withTransaction (rollingBack do
    let locked ← readSnapshot .transaction claim true
    writeLocked setup claim result taxonomy before allMatch locked)

/-- Compare and write, starting over while attempts are left. -/
def attempts (setup : Setup) (claim : Claim) (result : ScanResult) (taxonomy : Taxonomy) :
    ℕ → Task Unit
  | 0 => throw (.runtime "receipt kept changing while its scan result was being written")
  | left + 1 => do
      let before ← readSnapshot .db claim false
      match before with
      | none => pure ()
      | some before => do
          let allMatch ← compareResult setup before result
          let attempt ← writeResult setup claim result taxonomy before allMatch
          if attempt = .changed then attempts setup claim result taxonomy left else pure ()

/-- Write a validated result; silently nothing if the claim went stale. -/
def applyResult (setup : Setup) (claim : Claim) (result : ScanResult) : Task Unit := do
  let taxonomy ← loadTaxonomy .db claim.userId
  attempts setup claim result taxonomy 2

/-- Notify the owner that a receipt reached `scan_failed`; a failure is logged. -/
def notifyScanFailed (userId receiptId : ℕ) (reason : String) : Task Unit :=
  catchStd (notify userId "scan_failed" receiptId reason) fun _ => pure ()

/-- The budget that a failure is counted against. -/
def failureCap (setup : Setup) (scanError terminal : Bool) : ℤ :=
  if terminal then 0 else if scanError then setup.maxScanAttempts else setup.maxReclaims

/-- Spend one unit of the matching budget and re-queue, or fail for good. -/
def recordFailure (setup : Setup) (claim : Claim) (scanError terminal : Bool) (error : String) :
    Task Unit := do
  let rows ← execSql .db (updateFailed claim scanError (failureCap setup scanError terminal))
  match rows with
  | .scanFailed :: _ => notifyScanFailed claim.userId claim.receiptId error
  | _ => pure ()

/-- Fetch the bytes under every key. -/
def fetchImages (keys : List (ℕ × String)) : Task (List SentImage) :=
  keys.mapM fun (row, key) => do
    let bytes ← getImage key
    pure { row := row, bytes := bytes }

/-- The try block of `process`. The answer tells whether the receipt had no
images, which is the one terminal failure. -/
def scan (setup : Setup) (claim : Claim) : Task Bool := do
  let snapshot ← readSnapshot .db claim false
  match snapshot with
  | none => pure false
  | some snapshot => do
      let keys ← execSql .db (selectKeys claim.receiptId)
      if keys.isEmpty then pure true
      else do
        let images ← fetchImages keys
        let taxonomy ← loadTaxonomy .db claim.userId
        let context := makeContext taxonomy (if snapshot.reviewed then some snapshot.kind else none)
        let result ← scanReceipt images context
        let result ← ofExcept (validateResult result snapshot.reviewed)
        applyResult setup claim result
        pure false

/-- Record a failure; if even that fails, the row is left to `reclaimStuck`. -/
def settle (setup : Setup) (claim : Claim) (outcome : Except Err Bool) : Task Unit :=
  match outcome with
  | .ok false => pure ()
  | .ok true => recordFailure setup claim true true "receipt has no images"
  | .error (.scanError message) => recordFailure setup claim true false message
  | .error raised => recordFailure setup claim false false raised.what

/-- Scan one claimed receipt end to end. Never throws. -/
def process (setup : Setup) (claim : Claim) : Routine Unit :=
  (scan setup claim).run.bind fun outcome => (settle setup claim outcome).run.bind fun _ => pure ()

/-- Notify the owner of a reclaimed receipt that has failed for good. -/
def notifyReclaimed (row : ℕ × ℕ × ScanState) : Task Unit :=
  if row.2.2 = .scanFailed then notifyScanFailed row.2.1 row.1 "the scan kept timing out"
  else pure ()

/-- Re-queue the scans that are stuck past the timeout. -/
def reclaimStuck (setup : Setup) : Task Unit := do
  let rows ← execSql .db (updateStuck setup)
  rows.forM notifyReclaimed

/-- Claim uploaded receipts, as far as there are free slots. -/
def claim (setup : Setup) : Task (List Claim) := execSql .db (claimRows setup)

/-- One poll, up to the claims; each is then processed on its own. Never throws. -/
def tick (setup : Setup) : Routine (List Claim) :=
  (reclaimStuck setup >>= fun _ => claim setup).run.bind fun
    | .ok claims => pure claims
    | .error _ => pure []

end ScanWorker

end ReceiptScanner

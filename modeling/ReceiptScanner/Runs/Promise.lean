import ReceiptScanner.Application
import ReceiptScanner.ReadCommitted.Evidence
import ReceiptScanner.ReadCommitted.Soundness

/-!
# What every commit of the application promises

One inductive for each table of the ledger, with one constructor for each statement
that writes it: what the row was, what it became, and what the transaction had read
and locked. A promise speaks only of the commit and of the history before it.
`promise` is the guarantee that the services and the worker are verified against.
-/

namespace ReceiptScanner

open ReadCommitted

section Reads

variable (h : History store outside) (c : Commit store outside)

/-- The receipt was seen as the user's, or the commit itself writes it as theirs. -/
def OwnedReceipt (receiptId userId : ℕ) : Prop :=
  ∃ row : ReceiptRow, row.userId = userId ∧
    ((∃ seen : History store outside, seen <:+ h ∧ (seen.db .receipts).get receiptId = some row) ∨
      ∃ label, ⟨.receipts, receiptId, some row, label⟩ ∈ c.writes)

/-- The item was seen, or is inserted, on a receipt of the user's. -/
def OwnedItem (itemId userId : ℕ) : Prop :=
  ∃ row : ItemRow, OwnedReceipt h c row.receiptId userId ∧
    ((h.db .items).get itemId = some row ∨ ⟨.items, itemId, some row, .insertItem⟩ ∈ c.writes)

/-- The claim was made on a row of that user's. -/
def Claimed (claim : Claim) : Prop :=
  ∃ (seen : History store outside) (row : ReceiptRow), seen <:+ h ∧
    (seen.db .receipts).get claim.receiptId = some row ∧ row.userId = claim.userId

/-- What `validateReferences` has seen. -/
structure References (userId : ℕ) (self : Option ℕ) (r : EditableReceipt) : Prop where
  paymentMethod : ∀ id, r.paymentMethodId = some id →
    ∃ (seen : History store outside) (row : PaymentMethodRow), seen <:+ h ∧
      (seen.db .paymentMethods).get id = some row ∧ row.userId = userId
  offset : ∀ id, r.offsetsReceiptId = some id → self ≠ some id ∧
    ∃ (seen : History store outside) (row : ReceiptRow), Saw h c seen ∧
      (seen.db .receipts).get id = some row ∧ row.userId = userId ∧
      (rulesFor row.kind).isOffsetTarget = true

/-- Where the writer of an item has the kind of its receipt from: the first
statement of its transaction, or the row that the same transaction writes. -/
inductive KindKnown (receiptId : ℕ) (kind : Kind) : Prop where
  | read {seen : History store outside} {finished : ℕ} {row : ReceiptRow} (suffix : seen <:+ h)
      (first : c.spans.head? = some (seen.length, finished))
      (stored : (seen.db .receipts).get receiptId = some row) (same : row.kind = kind)
      (alone : ∀ write ∈ c.writes, write.table ≠ .receipts)
  | written {row : ReceiptRow} {label : Label}
      (wrote : ⟨.receipts, receiptId, some row, label⟩ ∈ c.writes) (same : row.kind = kind)

/-- The category is locked, is the user's, and is on the side of the kind. -/
def CategoryFits (userId : ℕ) (kind : Kind) (categoryId : Option ℕ) : Prop :=
  ∀ id, categoryId = some id → ⟨.categories, id, .share⟩ ∈ c.locks ∧
    ∃ row : CategoryRow, (h.db .categories).get id = some row ∧ row.userId = userId ∧
      row.isIncome = (rulesFor kind).usesIncomeCategories

/-- Since before the commits of `seen` were all, the row has been under an UPDATE lock. -/
def LockedSince (table : Table) (id : ℕ) (seen : History store outside) : Prop :=
  seen <:+ h ∧ ∃ since : History store outside, since <:+ seen ∧
    Held since h [⟨table, id, .update⟩]

/-- The statement that a PATCH sent just before its UPDATE, which it sends last but one. -/
def spanOfCheck : Option (ℕ × ℕ) := c.spans.reverse[2]?

/-- The category check of a kind change: the items of the snapshot had categories
that are locked and on the new side. -/
def SideChecked (receiptId : ℕ) (before after : Kind) : Prop :=
  (rulesFor after).usesIncomeCategories ≠ (rulesFor before).usesIncomeCategories →
    ∃ seen cur : History store outside, LockedSince h .receipts receiptId seen ∧
      spanOfCheck c = some (seen.length, cur.length) ∧ seen <:+ cur ∧ cur <:+ h ∧
      ∀ itemId categoryId, ∀ item : ItemRow, (seen.db .items).get itemId = some item →
        item.receiptId = receiptId → item.categoryId = some categoryId →
        (seen.db .categories).get categoryId ≠ none → (cur.db .categories).get categoryId ≠ none →
        ⟨.categories, categoryId, .share⟩ ∈ c.locks ∧
          ∀ row : CategoryRow, (h.db .categories).get categoryId = some row →
            row.isIncome = (rulesFor after).usesIncomeCategories

/-- The item check of a side flip: no item of the snapshot was on the old side. -/
def FlipChecked (categoryId : ℕ) (isIncome : Bool) : Prop :=
  ∃ seen : History store outside, LockedSince h .categories categoryId seen ∧
    ∀ itemId, ∀ item : ItemRow, ∀ receipt : ReceiptRow,
      (seen.db .items).get itemId = some item → item.categoryId = some categoryId →
      (seen.db .receipts).get item.receiptId = some receipt →
      (rulesFor receipt.kind).usesIncomeCategories = isIncome

/-- A DELETE was sent while the row `key` was locked: the rows that it found in its
snapshot, and found again when it had locked them, are all removed. -/
def Swept (parent : Table) (key : ℕ) (table : Table) (keep : table.Row → Bool) (label : Label) :
    Prop :=
  ∃ seen cur : History store outside, LockedSince h parent key seen ∧ seen <:+ cur ∧ cur <:+ h ∧
    ∀ id, ∀ before now : table.Row, (seen.db table).get id = some before → keep before = true →
      (cur.db table).get id = some now → keep now = true → ⟨table, id, none, label⟩ ∈ c.writes

/-- The items of the receipt, as an extraction found them, are all removed. -/
def Cleared (receiptId : ℕ) : Prop :=
  Swept h c .receipts receiptId .items (fun row : ItemRow => row.receiptId == receiptId) .clearItems

/-- The tags of the item, as a PATCH found them, are all removed. -/
def Untagged (itemId : ℕ) : Prop :=
  Swept h c .items itemId .itemTags (fun row : ItemTagRow => row.itemId == itemId) .clearTags

/-- The images of the last scan request, and what was answered. -/
def lastScan (calls : List (Said outside)) : Option (List SentImage × Except Err ScanResult) :=
  calls.findSome? fun
    | ⟨.scanReceipt images _, reply⟩ => some (images, reply)
    | _ => none

/-- The image rows of a receipt. -/
def imageRows (db : Db store) (receiptId : ℕ) : List ℕ :=
  ((db .receiptImages).list.filter fun (_, row) => row.receiptId == receiptId).map Prod.fst

/-- How a result came to be written: the claim held when the keys were read, and
those images were sent; the answer passed the checks of its mode; the row was
compared before the transaction began, and locked by its first statement. -/
structure Scanned (claim : Claim) (id : ℕ) (before : ReceiptRow) (result : ScanResult) :
    Prop where
  claimed : Claimed h claim
  holds : ScanWorker.holds claim id before = true
  sent : ∃ (first keys : History store outside) (row : ReceiptRow) (raw : ScanResult)
      (images : List SentImage), first <:+ keys ∧ keys <:+ h ∧
    (first.db .receipts).get id = some row ∧ ScanWorker.holds claim id row = true ∧
    lastScan c.calls = some (images, .ok raw) ∧
    (∀ image, image ∈ images.map SentImage.row ↔ image ∈ imageRows keys.db id) ∧
    ScanWorker.validateResult raw row.reviewedAt.isSome = .ok result
  compared : ∃ (seen : History store outside) (row : ReceiptRow), seen <:+ h ∧
    seen.length ≤ c.began ∧ (seen.db .receipts).get id = some row ∧
    row.updatedAt = before.updatedAt ∧ row.reviewedAt.isSome = before.reviewedAt.isSome

end Reads

section Verdict

variable (setup : Setup)

/-- How close the merchant of a row comes to what the scan calls it. -/
def closest (merchant : String) (result : ScanResult) : ℚ :=
  (result.merchant.toList ++ result.storeNameRaw.toList).foldl
    (fun best scanned => max best (setup.similarity merchant scanned)) 0

/-- The result agrees with the row: the plain statement of verify's comparison. -/
structure Agrees (row : ReceiptRow) (result : ScanResult) : Prop where
  total : result.totalCents = row.totalCents
  currency : result.currency = row.currency
  dates : ∀ before scanned, row.purchaseDate = some before → result.purchaseDate = some scanned →
    ∃ days, ScanWorker.daysBetween before.val scanned = .ok days ∧ |days| ≤ setup.matchDateDays
  merchants : ∀ merchant, row.merchant = some merchant →
    (result.merchant.isSome ∨ result.storeNameRaw.isSome) →
    setup.merchantMatchThreshold ≤ closest setup merchant result

/-- Similarities lie between 0 and 1. -/
def Bounded : Prop := ∀ left right, 0 ≤ setup.similarity left right ∧ setup.similarity left right ≤ 1

/-- The verdict is on a row that was seen with this `updated_at`. -/
def Judged (h : History store outside) (id updatedAt : ℕ) (result : ScanResult) (allMatch : Bool) :
    Prop :=
  ∃ (seen : History store outside) (row : ReceiptRow), seen <:+ h ∧
    (seen.db .receipts).get id = some row ∧ row.updatedAt = updatedAt ∧
    (Bounded setup → (allMatch = true ↔ Agrees setup row result))

end Verdict

/-- What a commit that writes a `receipts` row promises. -/
inductive ReceiptWrote (setup : Setup) (h : History store outside) (c : Commit store outside)
    (id : ℕ) : Option ReceiptRow → Label → Prop where
  | uploaded {userId : ℕ} (fresh : Unused h .receipts id) :
      ReceiptWrote setup h c id (some (ReceiptService.uploadedRow userId c.start)) .uploadReceipt
  | requeued {before : ReceiptRow} (stored : (h.db .receipts).get id = some before) :
      ReceiptWrote setup h c id (some { before with scanState := .uploaded }) .addImages
  | created {userId : ℕ} {r : EditableReceipt} {purchaseDate : Option Date}
      (fresh : Unused h .receipts id) (valid : r.Valid) (references : References h c userId none r) :
      ReceiptWrote setup h c id
        (some (ReceiptService.manualRow setup userId r purchaseDate c.start)) .createManual
  | patched {before : ReceiptRow} {body : Json} {r : EditableReceipt} {reviewed : Bool}
      {purchaseDate : Option Date} (stored : (h.db .receipts).get id = some before)
      (applied : applyReceiptPatch (ReceiptService.rowToEditable before) body = .ok (r, reviewed))
      (references : References h c before.userId (some id) r)
      (side : SideChecked h c id before.kind r.kind)
      (dated : castDate? setup r.purchaseDate = .ok purchaseDate) :
      ReceiptWrote setup h c id
        (some (ReceiptService.patchedRow r purchaseDate reviewed c.start before)) .updateReceipt
  | retried {before : ReceiptRow} (stored : (h.db .receipts).get id = some before)
      (failed : before.scanState = .scanFailed) :
      ReceiptWrote setup h c id (some { before with
        scanState := .uploaded, scanAttempts := 0, reclaimCount := 0, updatedAt := c.start })
        .retryScan
  | removed {before : ReceiptRow} (stored : (h.db .receipts).get id = some before) :
      ReceiptWrote setup h c id none .deleteReceipt
  | unlinked {before : ReceiptRow} {target : ℕ} (stored : (h.db .receipts).get id = some before)
      (linked : before.offsetsReceiptId = some target)
      (gone : ⟨.receipts, target, none, .deleteReceipt⟩ ∈ c.writes) :
      ReceiptWrote setup h c id (some { before with offsetsReceiptId := none }) .deleteReceipt
  | detached {before : ReceiptRow} {methodId : ℕ} (stored : (h.db .receipts).get id = some before)
      (used : before.paymentMethodId = some methodId)
      (gone : ⟨.paymentMethods, methodId, none, .removePaymentMethod⟩ ∈ c.writes) :
      ReceiptWrote setup h c id (some { before with paymentMethodId := none }) .removePaymentMethod
  | reclaimed {before : ReceiptRow} {started : ℕ} (stored : (h.db .receipts).get id = some before)
      (scanning : before.scanState = .scanning) (startedAt : before.scanStartedAt = some started)
      (stuck : (started : ℤ) + seconds setup.reclaimAfterSeconds < c.start) :
      ReceiptWrote setup h c id (some (ScanWorker.reclaimedRow setup before)) .reclaimStuck
  | claimed {before : ReceiptRow} {token : ℕ} (stored : (h.db .receipts).get id = some before)
      (queued : before.scanState = .uploaded) (late : ∀ other ∈ h, other.stop < token)
      (inTime : token ≤ c.stop) :
      ReceiptWrote setup h c id (some (ScanWorker.claimedRow token before)) .claim
  | failed {before : ReceiptRow} {claim : Claim} {scanError terminal : Bool}
      (stored : (h.db .receipts).get id = some before)
      (holds : ScanWorker.holds claim id before = true) :
      ReceiptWrote setup h c id
        (some (ScanWorker.failedRow scanError (ScanWorker.failureCap setup scanError terminal) before))
        .recordFailure
  | extracted {before : ReceiptRow} {claim : Claim} {result : ScanResult} {kind : Kind}
      {purchaseDate : Option Date} {db : Db store}
      (stored : (h.db .receipts).get id = some before)
      (scanned : Scanned h c claim id before result) (unreviewed : before.reviewedAt = none)
      (named : findKind result.kind = some kind) (cleared : Cleared h c id)
      (dated : castDate? setup result.purchaseDate = .ok purchaseDate) :
      ReceiptWrote setup h c id
        (some (ScanWorker.extractedRow result kind purchaseDate
          (ScanWorker.rowToSnapshot db id before) c.start before)) .writeExtraction
  | verified {before : ReceiptRow} {claim : Claim} {result : ScanResult}
      {purchaseDate : Option Date} {allMatch : Bool} {seen locked : History store outside}
      (stored : (h.db .receipts).get id = some before)
      (scanned : Scanned h c claim id before result) (reviewed : before.reviewedAt.isSome)
      (first : c.spans.head? = some (seen.length, locked.length)) (suffix : seen <:+ locked)
      (held : LockedSince h .receipts id locked)
      (filled : (∃ write ∈ c.writes, write.table = .items) → ScanWorker.itemCount seen.db id = 0)
      (judged : Judged setup h id before.updatedAt result allMatch)
      (dated : castDate? setup result.purchaseDate = .ok purchaseDate) :
      ReceiptWrote setup h c id
        (some (ScanWorker.verifiedRow result purchaseDate allMatch c.start before)) .writeVerify

/-- What a commit that writes a `receipt_images` row promises. -/
inductive ImageWrote (h : History store outside) (c : Commit store outside) (id : ℕ) :
    Option ReceiptImageRow → Label → Prop where
  | stored {row : ReceiptImageRow} {receipt : ReceiptRow} {label : Label}
      (owned : OwnedReceipt h c row.receiptId row.userId)
      (queued : ⟨.receipts, row.receiptId, some receipt, label⟩ ∈ c.writes)
      (state : receipt.scanState = .uploaded) (fresh : Unused h .receiptImages id) :
      ImageWrote h c id (some row) .storeImage
  | cascaded {before : ReceiptImageRow} (stored : (h.db .receiptImages).get id = some before)
      (gone : ⟨.receipts, before.receiptId, none, .deleteReceipt⟩ ∈ c.writes) :
      ImageWrote h c id none .deleteReceipt

/-- What a commit that writes an `items` row promises. -/
inductive ItemWrote (h : History store outside) (c : Commit store outside) (id : ℕ) :
    Option ItemRow → Label → Prop where
  | inserted {userId receiptId : ℕ} {kind : Kind} {item : ItemInput}
      (owned : OwnedReceipt h c receiptId userId) (known : KindKnown h c receiptId kind)
      (fits : CategoryFits h c userId kind item.categoryId)
      (locked : ⟨.receipts, receiptId, .keyShare⟩ ∈ c.locks) (fresh : Unused h .items id) :
      ItemWrote h c id (some (ItemService.itemRow receiptId item)) .insertItem
  | updated {userId : ℕ} {kind : Kind} {item : ItemInput} {before : ItemRow}
      (stored : (h.db .items).get id = some before)
      (owned : OwnedReceipt h c before.receiptId userId)
      (known : KindKnown h c before.receiptId kind)
      (fits : item.categoryId = before.categoryId ∨ CategoryFits h c userId kind item.categoryId) :
      ItemWrote h c id (some (ItemService.itemRow before.receiptId item)) .updateItem
  | removed {before : ItemRow} (stored : (h.db .items).get id = some before) :
      ItemWrote h c id none .removeItem
  | cleared {before : ItemRow} {row : ReceiptRow} (stored : (h.db .items).get id = some before)
      (replaced : ⟨.receipts, before.receiptId, some row, .writeExtraction⟩ ∈ c.writes) :
      ItemWrote h c id none .clearItems
  | cascaded {before : ItemRow} (stored : (h.db .items).get id = some before)
      (gone : ⟨.receipts, before.receiptId, none, .deleteReceipt⟩ ∈ c.writes) :
      ItemWrote h c id none .deleteReceipt
  | uncategorized {before : ItemRow} {categoryId : ℕ}
      (stored : (h.db .items).get id = some before)
      (used : before.categoryId = some categoryId)
      (gone : ⟨.categories, categoryId, none, .removeCategory⟩ ∈ c.writes) :
      ItemWrote h c id (some { before with categoryId := none }) .removeCategory

/-- The commit stores the item. -/
def WritesItem (c : Commit store outside) (itemId : ℕ) : Prop :=
  ∃ (item : ItemRow) (label : Label), ⟨.items, itemId, some item, label⟩ ∈ c.writes ∧
    (label = .insertItem ∨ label = .updateItem)

/-- What a commit that writes an `item_tags` row promises. -/
inductive ItemTagWrote (h : History store outside) (c : Commit store outside) (id : ℕ) :
    Option ItemTagRow → Label → Prop where
  | tagged {userId : ℕ} {row : ItemTagRow} (item : OwnedItem h c row.itemId userId)
      (written : WritesItem c row.itemId) (locked : ⟨.items, row.itemId, .keyShare⟩ ∈ c.locks)
      (tag : ∃ (seen : History store outside) (tag : TagRow), seen <:+ h ∧
        (seen.db .tags).get row.tagId = some tag ∧ tag.userId = userId)
      (fresh : Unused h .itemTags id) : ItemTagWrote h c id (some row) .insertTag
  | cleared {before : ItemTagRow} (was : (h.db .itemTags).get id = some before ∨
        ∃ label, ⟨.itemTags, id, some before, label⟩ ∈ c.writes)
      (written : WritesItem c before.itemId) : ItemTagWrote h c id none .clearTags
  | cascaded {before : ItemTagRow} {label : Label}
      (stored : (h.db .itemTags).get id = some before)
      (gone : ⟨.items, before.itemId, none, label⟩ ∈ c.writes ∨
        ⟨.tags, before.tagId, none, label⟩ ∈ c.writes) : ItemTagWrote h c id none label

/-- What a commit that writes a `categories` row promises. -/
inductive CategoryWrote (h : History store outside) (c : Commit store outside) (id : ℕ) :
    Option CategoryRow → Label → Prop where
  | created {row : CategoryRow} {label : Label} (fresh : Unused h .categories id) :
      CategoryWrote h c id (some row) label
  | updated {before : CategoryRow} {name : String} {isIncome : Bool}
      (stored : (h.db .categories).get id = some before)
      (flip : isIncome ≠ before.isIncome → FlipChecked h id isIncome) :
      CategoryWrote h c id (some { before with name := name, isIncome := isIncome })
        .updateCategory
  | removed {before : CategoryRow} (stored : (h.db .categories).get id = some before) :
      CategoryWrote h c id none .removeCategory

/-- What a commit that writes a `tags` row promises. -/
inductive TagWrote (h : History store outside) (id : ℕ) : Option TagRow → Label → Prop where
  | created {row : TagRow} (fresh : Unused h .tags id) : TagWrote h id (some row) .createTag
  | updated {before : TagRow} {name : String} (stored : (h.db .tags).get id = some before) :
      TagWrote h id (some { before with name := name }) .updateTag
  | removed {before : TagRow} (stored : (h.db .tags).get id = some before) :
      TagWrote h id none .removeTag

/-- What a commit that writes a `payment_methods` row promises. -/
inductive PaymentMethodWrote (h : History store outside) (id : ℕ) :
    Option PaymentMethodRow → Label → Prop where
  | created {row : PaymentMethodRow} {label : Label} (fresh : Unused h .paymentMethods id) :
      PaymentMethodWrote h id (some row) label
  | updated {before after : PaymentMethodRow}
      (stored : (h.db .paymentMethods).get id = some before)
      (owner : after.userId = before.userId) :
      PaymentMethodWrote h id (some after) .updatePaymentMethod
  | removed {before : PaymentMethodRow} (stored : (h.db .paymentMethods).get id = some before) :
      PaymentMethodWrote h id none .removePaymentMethod

/-- What a commit promises of one of its writes. -/
def Wrote (setup : Setup) (h : History store outside) (c : Commit store outside) :
    Write store → Prop
  | ⟨.receipts, id, row, label⟩ => ReceiptWrote setup h c id row label
  | ⟨.receiptImages, id, row, label⟩ => ImageWrote h c id row label
  | ⟨.items, id, row, label⟩ => ItemWrote h c id row label
  | ⟨.itemTags, id, row, label⟩ => ItemTagWrote h c id row label
  | ⟨.categories, id, row, label⟩ => CategoryWrote h c id row label
  | ⟨.tags, id, row, label⟩ => TagWrote h id row label
  | ⟨.paymentMethods, id, row, label⟩ => PaymentMethodWrote h id row label
  | _ => True

/-- No row is written twice, but for the tags of an item: those are removed and stored
anew. -/
def Singly (changes : List (Write store)) : Prop :=
  Apart (changes.filter fun write => write.table ≠ Table.itemTags)

/-- What a commit promises: to write each row once, and what `Wrote` says. -/
structure Promised (setup : Setup) (h : History store outside) (c : Commit store outside) : Prop where
  singly : Singly c.writes
  wrote : ∀ write ∈ c.writes, Wrote setup h c write

section Patches

/-- What a PATCH of a receipt commits: its body, applied to the row as it stands. -/
inductive PatchedReceipt (setup : Setup) (h : History store outside) (c : Commit store outside)
    (id : ℕ) (body : Json) : Prop where
  | intro {before : ReceiptRow} {r : EditableReceipt} {reviewed : Bool}
      {purchaseDate : Option Date} (stored : (h.db .receipts).get id = some before)
      (applied : applyReceiptPatch (ReceiptService.rowToEditable before) body = .ok (r, reviewed))
      (dated : castDate? setup r.purchaseDate = .ok purchaseDate)
      (wrote : c.writes = [⟨.receipts, id,
        some (ReceiptService.patchedRow r purchaseDate reviewed c.start before), .updateReceipt⟩])

/-- The writes replace the tags of an item by these. -/
structure Retags (itemId : ℕ) (tagIds : List ℕ) (changes : List (Write store)) : Prop where
  apart : Apart changes
  only : ∀ change ∈ changes, (∃ id, change = ⟨.itemTags, id, none, .clearTags⟩) ∨
    ∃ id tagId, tagId ∈ tagIds ∧ change = ⟨.itemTags, id, some ⟨itemId, tagId⟩, .insertTag⟩
  all : ∀ tagId ∈ tagIds, ∃ id, ⟨.itemTags, id, some ⟨itemId, tagId⟩, .insertTag⟩ ∈ changes

/-- What a PATCH of an item commits: its body, applied to the row as it stands, and a
new tag set if the body has one. -/
inductive PatchedItem (h : History store outside) (c : Commit store outside)
    (receiptId itemId : ℕ) (body : Json) : Prop where
  | intro {before : ItemRow} {item : ItemInput} {tagsGiven : Bool} {tags : List (Write store)}
      (stored : (h.db .items).get itemId = some before) (on : before.receiptId = receiptId)
      (applied : applyItemPatch (ItemService.itemToInput (ItemService.rowToItem itemId before)) body =
        .ok (item, tagsGiven))
      (wrote : c.writes = ⟨.items, itemId, some (ItemService.itemRow receiptId item),
        .updateItem⟩ :: tags)
      (replaced : tagsGiven = true → Retags itemId item.tagIds tags ∧ Untagged h c itemId)
      (kept : tagsGiven = false → tags = [])

end Patches

section Notifications

/-- The receipts that a commit moves into scan_failed. -/
def failedBy (c : Commit store outside) : List ℕ :=
  c.writes.filterMap fun
    | ⟨.receipts, id, some row, label⟩ =>
        if row.scanState = .scanFailed ∧ (label = .reclaimStuck ∨ label = .recordFailure)
        then some id else none
    | _ => none

/-- The receipts that the commits of a process move into scan_failed, in order. -/
def failures (h : History store outside) (tid : ℕ) : List ℕ :=
  (h.ofTid tid).reverse.flatMap failedBy

/-- The receipt that a call notifies about, if it is a notification. -/
def notice : Call → Option ℕ
  | .notify _ _ receiptId _ => some receiptId
  | _ => none

/-- The receipts a process has notified about, in order. -/
def notified (calls : List (Said outside)) : List ℕ :=
  calls.reverse.filterMap fun said => notice said.call

/-- A notification is for a failure not yet notified, to the owner of the receipt. -/
def MayCall (tid : ℕ) (calls : List (Said outside)) (c : Call) (h : History store outside) : Prop :=
  match c with
  | .notify userId _ receiptId _ =>
      notified calls ++ [receiptId] <+: failures h tid ∧
        ∃ (seen : History store outside) (row : ReceiptRow), seen <:+ h ∧
          (seen.db .receipts).get receiptId = some row ∧ row.userId = userId
  | _ => True

/-- A poll, or the processing of a claim, ends with every failure notified. -/
def Settled (job : Job) (_ : Answer) (tid : ℕ) (calls : List (Said outside)) (h : History store outside) : Prop :=
  match job with
  | .tick => notified calls = failures h tid
  | .process _ => notified calls = failures h tid
  | _ => True

/-- A claim may be processed once it has been made. Nobody calls `applyResult` but
`process`. -/
def Ready (job : Job) (h : History store outside) : Prop :=
  match job with
  | .process claim => Claimed h claim
  | .applyResult _ _ => False
  | _ => True

end Notifications

/-- The guarantee of the application. -/
def promise (setup : Setup) : Guarantee store outside where
  commits := Promised setup
  calls := MayCall

/-- The terms of its jobs. -/
def terms (jobs : ℕ → Option Job) : Terms store outside Job where
  jobs := jobs
  ready := Ready
  done := Settled

end ReceiptScanner

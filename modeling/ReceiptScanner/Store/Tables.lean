import ReceiptScanner.ReadCommitted.Statement
import ReceiptScanner.Receipts.JsonInput
import ReceiptScanner.Receipts.Kinds
import Mathlib.Data.Rat.Init

/-!
# The schema

The rows of every table that the services use, the statements that write them,
and the declared constraints. Columns that no statement reads are left out, and so
is `recurring_transactions`, which nothing writes. `itemTags` has a row id here
where the schema has a composite key; `advisory` has no rows, only locks.
-/

namespace ReceiptScanner

open ReadCommitted

/-- How the server prints a date: in digits, and the year is 1 at least. -/
def printsDate (text : String) : Bool :=
  JsonInput.dateShaped text && text.toList.count '-' == 2 &&
    (JsonInput.dateParts text).any fun (year, month, day) =>
      decide (1 ≤ year) && JsonInput.realDate year month day

/-- A DATE, as it is printed. -/
abbrev Date := { text : String // printsDate text = true }

/-- The readers take a date as the server prints it. -/
theorem Date.read (day : Date) (field : String) :
    JsonInput.date (.string day) field = .ok day.val := by
  have printed := day.property
  simp only [printsDate, Bool.and_eq_true, Option.any_eq_true, decide_eq_true_eq] at printed
  obtain ⟨⟨shaped, -⟩, ⟨year, month, dayOfMonth⟩, parts, -, real⟩ := printed
  simp [JsonInput.date, shaped, parts, real]

/-- Dates that are printed alike are the same. -/
theorem Date.map_val_inj {left right : Option Date} :
    left.map Subtype.val = right.map Subtype.val ↔ left = right :=
  (Option.map_injective Subtype.val_injective).eq_iff

structure UserRow where
  email : String
  passwordHash : String
  emailVerifiedAt : Option ℕ := none
deriving DecidableEq

structure SessionRow where
  userId : ℕ
  tokenHash : String
  expiresAt : ℕ
deriving DecidableEq

/-- What an auth token is for. -/
inductive Purpose where
  | verify
  | reset
deriving DecidableEq, Repr

structure AuthTokenRow where
  userId : ℕ
  tokenHash : String
  purpose : Purpose
  expiresAt : ℕ
deriving DecidableEq

structure CategoryRow where
  userId : ℕ
  name : String
  isIncome : Bool
deriving DecidableEq

structure TagRow where
  userId : ℕ
  name : String
deriving DecidableEq

structure PaymentMethodRow where
  userId : ℕ
  name : String
  storedValue : Bool
deriving DecidableEq

/-- A row of `receipts`, with the column defaults of the schema. -/
structure ReceiptRow where
  userId : ℕ
  storeNameRaw : Option String := none
  merchant : Option String := none
  purchaseDate : Option Date := none
  totalCents : ℤ := 0
  direction : Direction
  currency : String := "AUD"
  fxRateToAud : Option ℚ := none
  audEquivalentCents : Option ℤ := none
  kind : Kind
  scanState : ScanState := .idle
  scanAttempts : ℕ := 0
  reclaimCount : ℕ := 0
  scanStartedAt : Option ℕ := none
  proposedAt : Option ℕ := none
  reviewedAt : Option ℕ := none
  paymentMethodId : Option ℕ := none
  taxDeductible : Bool := false
  note : Option String := none
  source : Source
  offsetsReceiptId : Option ℕ := none
  rawOcrJson : Option String := none
  createdAt : ℕ
  updatedAt : ℕ
deriving DecidableEq

namespace ReceiptRow

/-- `needs_review` of `v_receipt_state`. -/
def needsReview (row : ReceiptRow) : Bool :=
  match row.proposedAt, row.reviewedAt with
  | none, _ => false
  | some _, none => true
  | some proposed, some reviewed => proposed > reviewed

/-- `is_confirmed` of `v_receipt_state`. -/
def isConfirmed (row : ReceiptRow) : Bool :=
  match row.reviewedAt, row.proposedAt with
  | none, _ => false
  | some _, none => true
  | some reviewed, some proposed => reviewed ≥ proposed

/-- No receipt needs review and is confirmed at once. -/
theorem not_needsReview_of_isConfirmed {row : ReceiptRow} (confirmed : row.isConfirmed) :
    row.needsReview = false := by
  unfold isConfirmed at confirmed
  unfold needsReview
  split at confirmed <;> simp_all

end ReceiptRow

structure ReceiptImageRow where
  receiptId : ℕ
  userId : ℕ
  imageKey : String
  imageSha256 : String
  createdAt : ℕ
deriving DecidableEq

structure ItemRow where
  receiptId : ℕ
  name : Option String
  quantity : Option ℚ
  unitPriceCents : Option ℤ
  amountCents : ℤ
  categoryId : Option ℕ
  informational : Bool
deriving DecidableEq

structure ItemTagRow where
  itemId : ℕ
  tagId : ℕ
deriving DecidableEq

/-- The tables. -/
inductive Table where
  | users
  | sessions
  | authTokens
  | categories
  | tags
  | paymentMethods
  | receipts
  | receiptImages
  | items
  | itemTags
  | advisory
deriving DecidableEq, Repr

/-- The row type of a table. -/
@[reducible] def Table.Row : Table → Type
  | .users => UserRow
  | .sessions => SessionRow
  | .authTokens => AuthTokenRow
  | .categories => CategoryRow
  | .tags => TagRow
  | .paymentMethods => PaymentMethodRow
  | .receipts => ReceiptRow
  | .receiptImages => ReceiptImageRow
  | .items => ItemRow
  | .itemTags => ItemTagRow
  | .advisory => Empty

/-- The writing statements, named by the function that sends them. -/
inductive Label where
  | registerUser
  | seedCategory
  | seedPaymentMethod
  | login
  | touchSession
  | logout
  | requestPasswordReset
  | resetPassword
  | dropSessions
  | dropToken
  | requestEmailVerification
  | verifyEmail
  | createCategory
  | updateCategory
  | removeCategory
  | createTag
  | updateTag
  | removeTag
  | createPaymentMethod
  | updatePaymentMethod
  | removePaymentMethod
  | uploadReceipt
  | storeImage
  | addImages
  | createManual
  | updateReceipt
  | retryScan
  | deleteReceipt
  | insertItem
  | updateItem
  | removeItem
  | clearTags
  | insertTag
  | reclaimStuck
  | claim
  | recordFailure
  | writeExtraction
  | clearItems
  | writeVerify
deriving DecidableEq, Repr

/-- The database of the application. -/
abbrev store : Signature where
  Table := Table
  Row := Table.Row
  Label := Label

/-- What a row references. -/
def refs : (table : Table) → table.Row → List (Table × ℕ)
  | .sessions, row => [(.users, row.userId)]
  | .authTokens, row => [(.users, row.userId)]
  | .categories, row => [(.users, row.userId)]
  | .tags, row => [(.users, row.userId)]
  | .paymentMethods, row => [(.users, row.userId)]
  | .receipts, row =>
      (.users, row.userId) :: (row.paymentMethodId.map fun id => (.paymentMethods, id)).toList ++
        (row.offsetsReceiptId.map fun id => (.receipts, id)).toList
  | .receiptImages, row => [(.receipts, row.receiptId), (.users, row.userId)]
  | .items, row =>
      (.receipts, row.receiptId) :: (row.categoryId.map fun id => (.categories, id)).toList
  | .itemTags, row => [(.items, row.itemId), (.tags, row.tagId)]
  | _, _ => []

/-- The CHECK constraints that the row types do not already express. -/
def check : (table : Table) → table.Row → Bool
  | .receipts, row =>
      0 ≤ row.totalCents &&
        (match row.kind, row.direction with
          | .purchase, direction => direction = .outflow
          | .transfer, _ => true
          | _, direction => direction = .inflow) &&
        (!row.taxDeductible || row.kind = .purchase)
  | _, _ => true

/-- The UNIQUE indexes. `lower` is the server's `lower()`, which `citext` uses too. -/
def clash (lower : String → String) : (table : Table) → table.Row → table.Row → Bool
  | .users, left, right => lower left.email == lower right.email
  | .sessions, left, right => left.tokenHash == right.tokenHash
  | .authTokens, left, right => left.tokenHash == right.tokenHash
  | .categories, left, right =>
      left.userId == right.userId && left.isIncome == right.isIncome &&
        lower left.name == lower right.name
  | .tags, left, right => left.userId == right.userId && lower left.name == lower right.name
  | .paymentMethods, left, right =>
      left.userId == right.userId && lower left.name == lower right.name
  | .itemTags, left, right => left.itemId == right.itemId && left.tagId == right.tagId
  | _, _, _ => false

section OnDelete

variable (db : Db store) (label : Label)

/-- Rewrite or remove every row of `table` that `keep` selects. -/
def sweep (table : Table) (keep : ℕ → table.Row → Bool) (set : table.Row → Option table.Row) :
    List (Write store) :=
  ((db table).list.filter fun (id, row) => keep id row).map fun (id, row) =>
    ⟨table, id, set row, label⟩

variable {db label} in
theorem mem_sweep {table : Table} {keep : ℕ → table.Row → Bool}
    {set : table.Row → Option table.Row} {write : Write store} :
    write ∈ sweep db label table keep set ↔
      ∃ id row, (db table).get id = some row ∧ keep id row = true ∧
        write = ⟨table, id, set row, label⟩ := by
  simp only [sweep, List.mem_map, List.mem_filter, Rows.mem_list, Prod.exists]
  constructor
  · rintro ⟨id, row, ⟨stored, kept⟩, rfl⟩
    exact ⟨id, row, stored, kept, rfl⟩
  · rintro ⟨id, row, stored, kept, rfl⟩
    exact ⟨id, row, ⟨stored, kept⟩, rfl⟩

/-- The item_tags rows of an item go with it. -/
def onDeleteItem (itemId : ℕ) : List (Write store) :=
  sweep db label .itemTags (fun _ row => row.itemId == itemId) fun _ => none

/-- The ON DELETE actions of the schema. Users are never deleted. -/
def onDelete : Table → ℕ → List (Write store)
  | .categories, id =>
      sweep db label .items (fun _ row => row.categoryId == some id) fun row =>
        some { row with categoryId := none }
  | .tags, id => sweep db label .itemTags (fun _ row => row.tagId == id) fun _ => none
  | .paymentMethods, id =>
      sweep db label .receipts (fun _ row => row.paymentMethodId == some id) fun row =>
        some { row with paymentMethodId := none }
  | .receipts, id =>
      sweep db label .receiptImages (fun _ row => row.receiptId == id) (fun _ => none) ++
        ((db .items).list.filter fun (_, row) => row.receiptId == id).flatMap
          (fun (itemId, _) => ⟨.items, itemId, none, label⟩ :: onDeleteItem db label itemId) ++
        sweep db label .receipts (fun other row => other != id && row.offsetsReceiptId == some id)
          fun row => some { row with offsetsReceiptId := none }
  | .items, id => onDeleteItem db label id
  | _, _ => []

end OnDelete

/-- The declared constraints. -/
def schema (lower : String → String) : Schema store where
  tables := [.users, .sessions, .authTokens, .categories, .tags, .paymentMethods, .receipts,
    .receiptImages, .items, .itemTags, .advisory]
  complete table := by cases table <;> decide
  refs := refs
  check := check
  clash := clash lower
  onDelete db table id label := onDelete db label table id

end ReceiptScanner

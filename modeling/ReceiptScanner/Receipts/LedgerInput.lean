import ReceiptScanner.Receipts.JsonInput
import ReceiptScanner.Receipts.Kinds
import ReceiptScanner.Numerals.Nearest

/-!
# Request bodies to validated inputs

Manual entry, receipt PATCH and item bodies, and the rules on a receipt that need
no database. Everything here is a plain function that may throw.
-/

namespace ReceiptScanner

open JsonInput

/-- The receipt fields a user can set. -/
structure EditableReceipt where
  kind : Kind := kDefaultKind
  direction : Direction := .outflow
  totalCents : ℤ := 0
  currency : String := "AUD"
  merchant : Option String := none
  storeNameRaw : Option String := none
  purchaseDate : Option String := none
  paymentMethodId : Option ℕ := none
  taxDeductible : Bool := false
  note : Option String := none
  offsetsReceiptId : Option ℕ := none
  fxRateToAud : Option ℚ := none
deriving DecidableEq

/-- The item fields a user can set. -/
structure ItemInput where
  name : Option String := none
  quantity : Option ℚ := none
  unitPriceCents : Option ℤ := none
  amountCents : ℤ := 0
  categoryId : Option ℕ := none
  informational : Bool := false
  tagIds : List ℕ := []
deriving DecidableEq

/-- A manual entry: explicit items, or else one implicit item of `categoryId`. -/
structure ManualEntryInput where
  receipt : EditableReceipt := {}
  categoryId : Option ℕ := none
  items : List ItemInput := []
deriving DecidableEq

/-- A "kind" value that names a kind. -/
def parseKind (value : Json) : Except Err Kind := do
  let name ← requiredString value "kind"
  match findKind name with
  | some kind => .ok kind
  | none => .error (.validation ("kind must be one of " ++ kindNames))

/-- A "direction" value that names a direction. -/
def parseDirection (value : Json) : Except Err Direction := do
  let name ← requiredString value "direction"
  match findDirection name with
  | some direction => .ok direction
  | none => .error (.validation "direction must be inflow or outflow")

/-- The fields that manual entry and PATCH read alike. -/
def applyCommonReceiptFields (r : EditableReceipt) (body : Json) : Except Err EditableReceipt := do
  let totalCents ← setIfPresent body "total_cents" r.totalCents cents
  let currency ← setIfPresent body "currency" r.currency currency
  let merchant ← setIfPresent body "merchant" r.merchant nullableString
  let purchaseDate ← setIfPresent body "purchase_date" r.purchaseDate nullableDate
  let paymentMethodId ← setIfPresent body "payment_method_id" r.paymentMethodId nullableId
  let taxDeductible ← setIfPresent body "tax_deductible" r.taxDeductible boolean
  let note ← setIfPresent body "note" r.note nullableString
  let offsetsReceiptId ← setIfPresent body "offsets_receipt_id" r.offsetsReceiptId nullableId
  let fxRateToAud ← setIfPresent body "fx_rate_to_aud" r.fxRateToAud nullablePositiveNumber
  pure { r with
    totalCents := totalCents
    currency := currency
    merchant := merchant
    purchaseDate := purchaseDate
    paymentMethodId := paymentMethodId
    taxDeductible := taxDeductible
    note := note
    offsetsReceiptId := offsetsReceiptId
    fxRateToAud := fxRateToAud }

/-- Copy each present key onto an item. -/
def applyItemFields (item : ItemInput) (body : Json) : Except Err ItemInput := do
  let name ← setIfPresent body "name" item.name nullableString
  let quantity ← setIfPresent body "quantity" item.quantity nullablePositiveNumber
  let unitPriceCents ← setIfPresent body "unit_price_cents" item.unitPriceCents nullableCents
  let amountCents ← setIfPresent body "amount_cents" item.amountCents cents
  let categoryId ← setIfPresent body "category_id" item.categoryId nullableId
  let informational ← setIfPresent body "informational" item.informational boolean
  let tagIds ← setIfPresent body "tag_ids" item.tagIds idList
  pure {
    name := name
    quantity := quantity
    unitPriceCents := unitPriceCents
    amountCents := amountCents
    categoryId := categoryId
    informational := informational
    tagIds := tagIds }

/-- The keys of an item body. -/
def itemKeys : List String :=
  ["name", "quantity", "unit_price_cents", "amount_cents", "category_id", "informational",
    "tag_ids"]

/-- Item create and patch accept the same keys. -/
def rejectUnknownItemKeys (body : Json) : Except Err Unit := rejectUnknownKeys body itemKeys

/-- The direction a kind with a fixed one must have. -/
def checkDirection (r : EditableReceipt) : Except Err Unit :=
  match (rulesFor r.kind).canonicalDirection with
  | some direction =>
      rejectIf (direction ≠ r.direction)
        ("direction must be " ++ direction.name ++ " when kind is " ++ r.kind.name)
  | none => .ok ()

/-- The rules on a merged receipt that need no database. -/
def validateReceipt (r : EditableReceipt) : Except Err Unit := do
  let rules := rulesFor r.kind
  checkDirection r
  rejectIf (r.taxDeductible && !rules.allowsTaxDeductible)
    ("tax_deductible is not allowed when kind is " ++ r.kind.name)
  rejectIf (r.offsetsReceiptId.isSome && !rules.canOffset)
    ("offsets_receipt_id is not allowed when kind is " ++ r.kind.name)
  rejectIf (r.fxRateToAud.isSome && r.currency == "AUD")
    "fx_rate_to_aud only applies to non-AUD currencies"

/-- What `validateReceipt` accepts, rule by rule. -/
structure EditableReceipt.Valid (r : EditableReceipt) : Prop where
  direction : ∀ canonical, (rulesFor r.kind).canonicalDirection = some canonical →
    canonical = r.direction
  tax : r.taxDeductible = true → (rulesFor r.kind).allowsTaxDeductible = true
  offsets : r.offsetsReceiptId.isSome = true → (rulesFor r.kind).canOffset = true
  fx : r.fxRateToAud.isSome = true → r.currency ≠ "AUD"

/-- `validateReceipt` passes exactly the valid receipts. -/
theorem validateReceipt_ok_iff {r : EditableReceipt} : validateReceipt r = .ok () ↔ r.Valid := by
  have fixed : ∀ returned : Unit, checkDirection r = .ok returned ↔
      ∀ canonical, (rulesFor r.kind).canonicalDirection = some canonical →
        canonical = r.direction := by
    intro _
    unfold checkDirection
    cases (rulesFor r.kind).canonicalDirection <;> simp
  simp only [validateReceipt, bind_eq_ok, fixed, rejectIf_eq_ok]
  constructor
  · rintro ⟨_, direction, _, tax, _, offsets, fx⟩
    exact ⟨direction, by simpa using tax, by simpa using offsets, by simpa using fx⟩
  · intro valid
    exact ⟨(), valid.direction, (), by simpa using valid.tax, (), by simpa using valid.offsets,
      by simpa using valid.fx⟩

/-- An item create body. -/
def parseNewItem (body : Json) : Except Err ItemInput := do
  requireObject body
  rejectUnknownItemKeys body
  rejectIf (!body.contains "amount_cents") "amount_cents is required"
  applyItemFields {} body

/-- Apply an item PATCH; the flag tells whether the tag set is replaced. -/
def applyItemPatch (item : ItemInput) (body : Json) : Except Err (ItemInput × Bool) := do
  requireObject body
  rejectUnknownItemKeys body
  let item ← applyItemFields item body
  pure (item, body.contains "tag_ids")

/-- A value that is read only if its key is present. -/
theorem setIfPresent_kept {α : Type} {body : Json} {key : String} {target value : α}
    {read : Reader α} (set : setIfPresent body key target read = .ok value)
    (absent : body.find key = none) : value = target := by
  rw [setIfPresent_absent _ _ absent] at set
  exact (Except.ok.inj set).symm

/-- Every field of an item that a body does not name is kept. -/
structure KeepsUnnamedItem (body : Json) (before after : ItemInput) : Prop where
  name : body.find "name" = none → after.name = before.name
  quantity : body.find "quantity" = none → after.quantity = before.quantity
  unitPriceCents : body.find "unit_price_cents" = none →
    after.unitPriceCents = before.unitPriceCents
  amountCents : body.find "amount_cents" = none → after.amountCents = before.amountCents
  categoryId : body.find "category_id" = none → after.categoryId = before.categoryId
  informational : body.find "informational" = none → after.informational = before.informational
  tagIds : body.find "tag_ids" = none → after.tagIds = before.tagIds

/-- An item PATCH keeps what its body does not name. -/
theorem applyItemPatch_unnamed {item patched : ItemInput} {body : Json} {tagsGiven : Bool}
    (applied : applyItemPatch item body = .ok (patched, tagsGiven)) :
    KeepsUnnamedItem body item patched ∧ tagsGiven = body.contains "tag_ids" := by
  simp only [applyItemPatch, applyItemFields, bind_eq_ok] at applied
  obtain ⟨_, -, _, -, _, ⟨name, ofName, quantity, ofQuantity, unitPriceCents, ofPrice,
    amountCents, ofAmount, categoryId, ofCategory, informational, ofInformational, tagIds, ofTags,
    fields⟩, built⟩ := applied
  obtain rfl := Except.ok.inj fields
  obtain ⟨rfl, rfl⟩ := Prod.mk.inj (Except.ok.inj built)
  exact ⟨{
    name := setIfPresent_kept ofName
    quantity := setIfPresent_kept ofQuantity
    unitPriceCents := setIfPresent_kept ofPrice
    amountCents := setIfPresent_kept ofAmount
    categoryId := setIfPresent_kept ofCategory
    informational := setIfPresent_kept ofInformational
    tagIds := setIfPresent_kept ofTags }, rfl⟩

/-- An item PATCH that names no category keeps the old one. -/
theorem applyItemPatch_categoryId {item patched : ItemInput} {body : Json} {tagsGiven : Bool}
    (applied : applyItemPatch item body = .ok (patched, tagsGiven))
    (absent : body.contains "category_id" = false) : patched.categoryId = item.categoryId :=
  (applyItemPatch_unnamed applied).1.categoryId (by simpa [Json.contains] using absent)

/-- The direction of a manual entry: sent, or the kind's own. -/
def entryDirection (body : Json) (kind : Kind) : Except Err Direction :=
  match body.find "direction", (rulesFor kind).canonicalDirection with
  | some value, _ => parseDirection value
  | none, some canonical => .ok canonical
  | none, none => .error (.validation ("direction is required when kind is " ++ kind.name))

/-- The items of a manual entry. -/
def entryItems (body : Json) (categoryId : Option ℕ) : Except Err (List ItemInput) :=
  match body.find "items" with
  | none => .ok []
  | some (.array elements) => do
      rejectIf categoryId.isSome "send either category_id (one implicit item) or items, not both"
      elements.mapM parseNewItem
  | some _ => .error (.validation "items must be an array")

/-- The body of a manual entry. -/
def parseManualEntry (body : Json) : Except Err ManualEntryInput := do
  requireObject body
  rejectUnknownKeys body ["kind", "direction", "total_cents", "currency", "merchant",
    "purchase_date", "payment_method_id", "tax_deductible", "note", "offsets_receipt_id",
    "fx_rate_to_aud", "category_id", "items"]
  rejectIf (!body.contains "total_cents") "total_cents is required"
  let kind ← setIfPresent body "kind" kDefaultKind fun value _ => parseKind value
  let r ← applyCommonReceiptFields { kind := kind } body
  let direction ← entryDirection body r.kind
  let r := { r with direction := direction }
  let categoryId ← setIfPresent body "category_id" none nullableId
  let items ← entryItems body categoryId
  validateReceipt r
  pure { receipt := r, categoryId := categoryId, items := items }

/-- The kind after a PATCH, with the direction re-derived when none is sent. -/
def patchKind (r : EditableReceipt) (body : Json) : Except Err EditableReceipt :=
  match body.find "kind" with
  | none => .ok r
  | some value => do
      let kind ← parseKind value
      let direction :=
        if body.contains "direction" then r.direction
        else ((rulesFor kind).canonicalDirection).getD r.direction
      pure { r with kind := kind, direction := direction }

/-- Whether a PATCH marks the receipt reviewed; there is no un-review. -/
def patchReviewed (body : Json) : Except Err Bool :=
  match body.find "reviewed" with
  | none => .ok false
  | some value => do
      let reviewed ← boolean value "reviewed"
      rejectIf (!reviewed) "reviewed only accepts true"
      pure true

/-- Apply a receipt PATCH; the flag is `markReviewed`. -/
def applyReceiptPatch (r : EditableReceipt) (body : Json) :
    Except Err (EditableReceipt × Bool) := do
  requireObject body
  rejectUnknownKeys body ["kind", "direction", "total_cents", "currency", "merchant",
    "store_name_raw", "purchase_date", "payment_method_id", "tax_deductible", "note",
    "offsets_receipt_id", "fx_rate_to_aud", "reviewed"]
  let r ← patchKind r body
  let direction ← setIfPresent body "direction" r.direction fun value _ => parseDirection value
  let storeNameRaw ← setIfPresent body "store_name_raw" r.storeNameRaw nullableString
  let r ← applyCommonReceiptFields
    { r with direction := direction, storeNameRaw := storeNameRaw } body
  let markReviewed ← patchReviewed body
  validateReceipt r
  pure (r, markReviewed)

/-- A category of that side may go on an item of a receipt of `kind`. -/
def categoryFitsKind (categoryIsIncome : Bool) (kind : Kind) : Bool :=
  categoryIsIncome == (rulesFor kind).usesIncomeCategories

/-- Round to the nearest integer, halves away from zero. -/
def llround (q : ℚ) : ℤ := if q < 0 then ⌈q - 1 / 2⌉ else ⌊q + 1 / 2⌋

/-- The least `int64_t`. -/
def int64Min : ℤ := -9223372036854775808

/-- `int64_t` holds the number. -/
def fitsInt64 (n : ℤ) : Bool := int64Min ≤ n && n ≤ 9223372036854775807

/-- `std::llround` as an `int64_t`. What that does not hold is unspecified; on x86-64 it is
the least value. -/
def llroundInt64 (q : ℚ) : ℤ := if fitsInt64 (llround q) then llround q else int64Min

/-- The `double` nearest to a number. Its exponent is unbounded here: an overflow gives
infinity and an underflow less than half a cent, which `llround` treats the same way. -/
def toDouble (q : ℚ) : ℚ := Numerals.nearest 52 q

/-- What `audEquivalentCents` rounds: the product of `static_cast<double>(totalCents)` and
the rate, itself a `double`. -/
def audProduct (totalCents : ℤ) (rate : ℚ) : ℚ := toDouble (toDouble totalCents * rate)

/-- The AUD equivalent of a total at the user's rate, which is taken exactly. -/
def audEquivalentCents (totalCents : ℤ) (fxRateToAud : Option ℚ) : Option ℤ :=
  fxRateToAud.map fun rate => llroundInt64 (audProduct totalCents rate)

/-- What a manual entry parses to is valid. -/
theorem parseManualEntry_valid {body : Json} {input : ManualEntryInput}
    (parsed : parseManualEntry body = .ok input) : input.receipt.Valid := by
  simp only [parseManualEntry, bind_eq_ok] at parsed
  obtain ⟨_, -, _, -, _, -, kind, -, r, -, direction, -, categoryId, -, items, -, _, valid,
    built⟩ := parsed
  obtain rfl := Except.ok.inj built
  exact validateReceipt_ok_iff.mp valid

/-- What a PATCH leaves is valid. -/
theorem applyReceiptPatch_valid {r patched : EditableReceipt} {body : Json} {markReviewed : Bool}
    (applied : applyReceiptPatch r body = .ok (patched, markReviewed)) : patched.Valid := by
  simp only [applyReceiptPatch, bind_eq_ok] at applied
  obtain ⟨_, -, _, -, kinded, -, direction, -, storeNameRaw, -, common, -, reviewed, -, _, valid,
    built⟩ := applied
  obtain ⟨rfl, -⟩ := Prod.mk.inj (Except.ok.inj built)
  exact validateReceipt_ok_iff.mp valid

/-- Every field that a body does not name is kept. The direction also follows a new kind. -/
structure KeepsUnnamed (body : Json) (before after : EditableReceipt) : Prop where
  kind : body.find "kind" = none → after.kind = before.kind
  direction : body.find "kind" = none → body.find "direction" = none →
    after.direction = before.direction
  totalCents : body.find "total_cents" = none → after.totalCents = before.totalCents
  currency : body.find "currency" = none → after.currency = before.currency
  merchant : body.find "merchant" = none → after.merchant = before.merchant
  storeNameRaw : body.find "store_name_raw" = none → after.storeNameRaw = before.storeNameRaw
  purchaseDate : body.find "purchase_date" = none → after.purchaseDate = before.purchaseDate
  paymentMethodId : body.find "payment_method_id" = none →
    after.paymentMethodId = before.paymentMethodId
  taxDeductible : body.find "tax_deductible" = none → after.taxDeductible = before.taxDeductible
  note : body.find "note" = none → after.note = before.note
  offsetsReceiptId : body.find "offsets_receipt_id" = none →
    after.offsetsReceiptId = before.offsetsReceiptId
  fxRateToAud : body.find "fx_rate_to_aud" = none → after.fxRateToAud = before.fxRateToAud

/-- A PATCH keeps what its body does not name. -/
theorem applyReceiptPatch_unnamed {r patched : EditableReceipt} {body : Json} {markReviewed : Bool}
    (applied : applyReceiptPatch r body = .ok (patched, markReviewed)) :
    KeepsUnnamed body r patched := by
  simp only [applyReceiptPatch, applyCommonReceiptFields, bind_eq_ok] at applied
  obtain ⟨_, -, _, -, kinded, ofKind, direction, ofDirection, storeNameRaw, ofStore, _,
    ⟨totalCents, ofTotal, currency, ofCurrency, merchant, ofMerchant, purchaseDate, ofDate,
      paymentMethodId, ofMethod, taxDeductible, ofTax, note, ofNote, offsetsReceiptId, ofOffset,
      fxRateToAud, ofRate, fields⟩, _, -, _, -, built⟩ := applied
  obtain rfl := Except.ok.inj fields
  obtain ⟨rfl, -⟩ := Prod.mk.inj (Except.ok.inj built)
  -- The fields that the kind does not touch.
  have keeps : kinded = { r with kind := kinded.kind, direction := kinded.direction } := by
    unfold patchKind at ofKind
    split at ofKind
    · exact (Except.ok.inj ofKind) ▸ rfl
    · obtain ⟨kind, -, set⟩ := bind_eq_ok.mp ofKind
      exact (Except.ok.inj set) ▸ rfl
  have unkinded (absent : body.find "kind" = none) : kinded = r := by
    rw [patchKind, absent] at ofKind
    exact (Except.ok.inj ofKind).symm
  exact {
    kind := fun absent => by rw [unkinded absent]
    direction := fun absent other => by
      rw [setIfPresent_kept ofDirection other, unkinded absent]
    totalCents := fun absent => by rw [setIfPresent_kept ofTotal absent, keeps]
    currency := fun absent => by rw [setIfPresent_kept ofCurrency absent, keeps]
    merchant := fun absent => by rw [setIfPresent_kept ofMerchant absent, keeps]
    storeNameRaw := fun absent => by rw [setIfPresent_kept ofStore absent, keeps]
    purchaseDate := fun absent => by rw [setIfPresent_kept ofDate absent, keeps]
    paymentMethodId := fun absent => by rw [setIfPresent_kept ofMethod absent, keeps]
    taxDeductible := fun absent => by rw [setIfPresent_kept ofTax absent, keeps]
    note := fun absent => by rw [setIfPresent_kept ofNote absent, keeps]
    offsetsReceiptId := fun absent => by rw [setIfPresent_kept ofOffset absent, keeps]
    fxRateToAud := fun absent => by rw [setIfPresent_kept ofRate absent, keeps] }

end ReceiptScanner

import ReceiptScanner.Receipts.LedgerInput

/-!
# How a request body is refused

A body that the parsers do not accept is a validation error, which the controllers answer
with 400. The one exception is a purchase date that has the shape of a date but no digit
where a number begins: `std::stoi` throws on it, and the client gets a 500.
-/

namespace ReceiptScanner

open JsonInput

theorem ok_bind {α β : Type} {value : α} {rest : α → Except Err β} :
    (Except.ok value >>= rest) = rest value := rfl

theorem error_bind {α β : Type} {raised : Err} {rest : α → Except Err β} :
    (Except.error raised >>= rest) = .error raised := rfl

/-- It returns, or throws a validation error. -/
def Refuses {α : Type} (result : Except Err α) : Prop :=
  ∀ raised, result = .error raised → ∃ message, raised = .validation message

namespace Refuses

variable {α β : Type}

theorem ok {value : α} : Refuses (.ok value) := by
  intro raised same
  cases same

theorem validation {message : String} : Refuses (.error (.validation message) : Except Err α) := by
  intro raised same
  cases same
  exact ⟨message, rfl⟩

theorem bind {first : Except Err α} {rest : α → Except Err β} (before : Refuses first)
    (after : ∀ value, first = .ok value → Refuses (rest value)) : Refuses (first >>= rest) := by
  cases first with
  | error early =>
      obtain ⟨message, rfl⟩ := before early rfl
      exact validation
  | ok value => exact after value rfl

theorem map {result : Except Err α} {f : α → β} (before : Refuses result) :
    Refuses (f <$> result) := by
  cases result with
  | error early =>
      obtain ⟨message, rfl⟩ := before early rfl
      exact validation
  | ok value => exact ok

theorem ite {test : Prop} [Decidable test] {first second : Except Err α}
    (yes : Refuses first) (no : Refuses second) : Refuses (if test then first else second) := by
  split
  · exact yes
  · exact no

theorem forM {items : List β} {check : β → Except Err Unit}
    (each : ∀ item, Refuses (check item)) : Refuses (items.forM check) := by
  induction items with
  | nil => exact ok
  | cons item rest ih => exact bind (each item) fun _ _ => ih

theorem foldlM {items : List β} {step : α → β → Except Err α} (each : ∀ value item,
    Refuses (step value item)) (start : α) : Refuses (items.foldlM step start) := by
  induction items generalizing start with
  | nil => exact ok
  | cons item rest ih => exact bind (each start item) fun next _ => ih next

theorem mapM {items : List β} {read : β → Except Err α} (each : ∀ item, Refuses (read item)) :
    Refuses (items.mapM read) := by
  induction items with
  | nil => exact ok
  | cons item rest ih =>
      rw [List.mapM_cons]
      exact bind (each item) fun _ _ => bind ih fun _ _ => ok

end Refuses

section Readers

variable {α : Type}

/-- A reader that refuses every value it does not accept. -/
def Guards (read : Reader α) : Prop := ∀ value field, Refuses (read value field)

theorem refuses_fail (field problem : String) : Refuses (fail field problem : Except Err α) :=
  Refuses.validation

theorem guards_requiredString : Guards requiredString := by
  intro value field
  cases value with
  | string text => exact Refuses.ite (refuses_fail _ _) Refuses.ok
  | _ => exact refuses_fail _ _

theorem guards_nullableString : Guards nullableString := by
  intro value field
  cases value with
  | null => exact Refuses.ok
  | string text => exact Refuses.ok
  | _ => exact refuses_fail _ _

theorem guards_cents : Guards cents := by
  intro value field
  unfold cents
  cases asInt64 value with
  | none => exact refuses_fail _ _
  | some n => exact Refuses.ite (refuses_fail _ _) Refuses.ok

theorem guards_nullableCents : Guards nullableCents := by
  intro value field
  cases value with
  | null => exact Refuses.ok
  | _ => exact Refuses.map (guards_cents _ _)

theorem guards_nullableId : Guards nullableId := by
  intro value field
  unfold nullableId
  split
  · exact Refuses.ok
  · split
    · exact Refuses.ite (refuses_fail _ _) Refuses.ok
    · exact refuses_fail _ _

theorem guards_boolean : Guards boolean := by
  intro value field
  cases value with
  | boolean b => exact Refuses.ok
  | _ => exact refuses_fail _ _

theorem guards_currency : Guards currency := by
  intro value field
  cases value with
  | string text => exact Refuses.ite Refuses.ok (refuses_fail _ _)
  | _ => exact refuses_fail _ _

theorem guards_nullablePositiveNumber : Guards nullablePositiveNumber := by
  intro value field
  unfold nullablePositiveNumber
  split
  · exact Refuses.ok
  · split
    · exact Refuses.ite (refuses_fail _ _) Refuses.ok
    · exact refuses_fail _ _

theorem guards_idList : Guards idList := by
  intro value field
  cases value with
  | array elements =>
      refine Refuses.foldlM (fun ids element => ?_) []
      cases asInt64 element with
      | none => exact refuses_fail _ _
      | some n => exact Refuses.ite (refuses_fail _ _) Refuses.ok
  | _ => exact refuses_fail _ _

/-- A text of the shape of a date in which a number has no digit to begin with. -/
def unreadableDate : Json → Bool
  | .string s => dateShaped s && (dateParts s).isNone
  | _ => false

/-- `date` throws something else than a validation error on these texts alone. -/
theorem date_unreadable_iff {value : Json} {field : String} :
    Refuses (date value field) ↔ unreadableDate value = false := by
  cases value with
  | string s =>
      simp only [date, unreadableDate]
      cases shaped : dateShaped s with
      | false => simpa using refuses_fail field _
      | true =>
          cases parts : dateParts s with
          | none => simp [Refuses]
          | some numbers =>
              simpa using Refuses.ite Refuses.ok (refuses_fail field _)
  | _ => simpa [date, unreadableDate] using refuses_fail field _

/-- Another text or value is refused, or read. -/
theorem refuses_nullableDate {value : Json} {field : String}
    (readable : unreadableDate value = false) : Refuses (nullableDate value field) := by
  cases value with
  | null => exact Refuses.ok
  | _ => exact Refuses.map (date_unreadable_iff.mpr readable)

/-- What happens on these texts. -/
theorem nullableDate_of_unreadable {value : Json} {field : String}
    (unreadable : unreadableDate value = true) :
    nullableDate value field = .error (.runtime "stoi") := by
  cases value with
  | string s =>
      simp only [unreadableDate, Bool.and_eq_true, Option.isNone_iff_eq_none] at unreadable
      simp [nullableDate, date, unreadable.1, unreadable.2]
  | _ => simp [unreadableDate] at unreadable

theorem refuses_setIfPresent {body : Json} {key : String} {target : α} {read : Reader α}
    (guards : ∀ value, body.find key = some value → Refuses (read value key)) :
    Refuses (setIfPresent body key target read) := by
  unfold setIfPresent
  cases present : body.find key with
  | none => exact Refuses.ok
  | some value => exact guards value present

/-- The body has no such key, or a value that the reader accepts. -/
def accepts (body : Json) (key : String) (read : Reader α) : Bool :=
  match body.find key with
  | some value => (read value key).isOk
  | none => true

theorem accepts_iff {body : Json} {key : String} {target : α} {read : Reader α} :
    accepts body key read = true ↔ ∃ value, setIfPresent body key target read = .ok value := by
  unfold accepts setIfPresent
  cases body.find key with
  | none => simp
  | some value => cases result : read value key <;> simp [Except.isOk, Except.toBool, result]

end Readers

section Bodies

variable {body : Json}

theorem refuses_requireObject (body : Json) : Refuses (requireObject body) := by
  cases body with
  | object members => exact Refuses.ok
  | _ => exact Refuses.validation

theorem refuses_rejectUnknownKeys (body : Json) (allowed : List String) :
    Refuses (rejectUnknownKeys body allowed) := by
  cases body with
  | object members =>
      exact Refuses.forM fun member => Refuses.ite Refuses.ok (refuses_fail _ _)
  | _ => exact Refuses.ok

theorem refuses_rejectIf (bad : Bool) (message : String) : Refuses (rejectIf bad message) :=
  Refuses.ite Refuses.validation Refuses.ok

theorem refuses_parseKind (value : Json) : Refuses (parseKind value) := by
  refine Refuses.bind (guards_requiredString _ _) fun name _ => ?_
  cases findKind name with
  | none => exact Refuses.validation
  | some kind => exact Refuses.ok

theorem refuses_parseDirection (value : Json) : Refuses (parseDirection value) := by
  refine Refuses.bind (guards_requiredString _ _) fun name _ => ?_
  cases findDirection name with
  | none => exact Refuses.validation
  | some direction => exact Refuses.ok

theorem refuses_validateReceipt (r : EditableReceipt) : Refuses (validateReceipt r) := by
  have direction : Refuses (checkDirection r) := by
    unfold checkDirection
    cases (rulesFor r.kind).canonicalDirection with
    | none => exact Refuses.ok
    | some canonical => exact refuses_rejectIf _ _
  exact Refuses.bind direction fun _ _ => Refuses.bind (refuses_rejectIf _ _) fun _ _ =>
    Refuses.bind (refuses_rejectIf _ _) fun _ _ => refuses_rejectIf _ _

theorem refuses_applyItemFields (item : ItemInput) (body : Json) :
    Refuses (applyItemFields item body) :=
  Refuses.bind (refuses_setIfPresent fun _ _ => guards_nullableString _ _) fun _ _ =>
  Refuses.bind (refuses_setIfPresent fun _ _ => guards_nullablePositiveNumber _ _) fun _ _ =>
  Refuses.bind (refuses_setIfPresent fun _ _ => guards_nullableCents _ _) fun _ _ =>
  Refuses.bind (refuses_setIfPresent fun _ _ => guards_cents _ _) fun _ _ =>
  Refuses.bind (refuses_setIfPresent fun _ _ => guards_nullableId _ _) fun _ _ =>
  Refuses.bind (refuses_setIfPresent fun _ _ => guards_boolean _ _) fun _ _ =>
  Refuses.bind (refuses_setIfPresent fun _ _ => guards_idList _ _) fun _ _ => Refuses.ok

/-- An item body has no date. -/
theorem refuses_parseNewItem (body : Json) : Refuses (parseNewItem body) :=
  Refuses.bind (refuses_requireObject _) fun _ _ =>
  Refuses.bind (refuses_rejectUnknownKeys _ _) fun _ _ =>
  Refuses.bind (refuses_rejectIf _ _) fun _ _ => refuses_applyItemFields _ _

theorem refuses_applyItemPatch (item : ItemInput) (body : Json) :
    Refuses (applyItemPatch item body) :=
  Refuses.bind (refuses_requireObject _) fun _ _ =>
  Refuses.bind (refuses_rejectUnknownKeys _ _) fun _ _ =>
  Refuses.bind (refuses_applyItemFields _ _) fun _ _ => Refuses.ok

/-- The purchase date of the body is one of those texts. -/
def hasUnreadableDate (body : Json) : Bool := (body.find "purchase_date").any unreadableDate

/-- The fields that are read before the purchase date are in order. -/
def fieldsInOrder (body : Json) : Bool :=
  accepts body "total_cents" cents && accepts body "currency" currency &&
    accepts body "merchant" nullableString

/-- The fields common to both bodies are refused properly, unless it comes to the date. -/
theorem applyCommonReceiptFields_refuses_iff {r : EditableReceipt} :
    Refuses (applyCommonReceiptFields r body) ↔
      ¬ (fieldsInOrder body = true ∧ hasUnreadableDate body = true) := by
  constructor
  · rintro refuses ⟨inOrder, unreadable⟩
    simp only [fieldsInOrder, Bool.and_eq_true] at inOrder
    obtain ⟨⟨total, currency⟩, merchant⟩ := inOrder
    obtain ⟨totalCents, total⟩ := (@accepts_iff _ _ _ r.totalCents _).mp total
    obtain ⟨currencyCode, currency⟩ := (@accepts_iff _ _ _ r.currency _).mp currency
    obtain ⟨merchantName, merchant⟩ := (@accepts_iff _ _ _ r.merchant _).mp merchant
    simp only [hasUnreadableDate, Option.any_eq_true] at unreadable
    obtain ⟨value, present, unreadable⟩ := unreadable
    have date : setIfPresent body "purchase_date" r.purchaseDate nullableDate =
        .error (.runtime "stoi") := by
      simp only [setIfPresent, present]
      exact nullableDate_of_unreadable unreadable
    have raised : applyCommonReceiptFields r body = .error (.runtime "stoi") := by
      simp only [applyCommonReceiptFields, total, currency, merchant, date, ok_bind, error_bind]
    obtain ⟨message, same⟩ := refuses _ raised
    cases same
  · intro reached
    refine Refuses.bind (refuses_setIfPresent fun _ _ => guards_cents _ _) fun _ total =>
      Refuses.bind (refuses_setIfPresent fun _ _ => guards_currency _ _) fun _ currency =>
      Refuses.bind (refuses_setIfPresent fun _ _ => guards_nullableString _ _) fun _ merchant =>
      Refuses.bind (refuses_setIfPresent fun value present => ?_) fun _ _ =>
      Refuses.bind (refuses_setIfPresent fun _ _ => guards_nullableId _ _) fun _ _ =>
      Refuses.bind (refuses_setIfPresent fun _ _ => guards_boolean _ _) fun _ _ =>
      Refuses.bind (refuses_setIfPresent fun _ _ => guards_nullableString _ _) fun _ _ =>
      Refuses.bind (refuses_setIfPresent fun _ _ => guards_nullableId _ _) fun _ _ =>
      Refuses.bind (refuses_setIfPresent fun _ _ => guards_nullablePositiveNumber _ _) fun _ _ =>
      Refuses.ok
    -- The fields before the date were in order, so the date itself must be readable.
    apply refuses_nullableDate
    by_contra unreadable
    apply reached
    constructor
    · simp only [fieldsInOrder, Bool.and_eq_true]
      exact ⟨⟨accepts_iff.mpr ⟨_, total⟩, accepts_iff.mpr ⟨_, currency⟩⟩,
        accepts_iff.mpr ⟨_, merchant⟩⟩
    · simpa [hasUnreadableDate, present] using unreadable

/-- A manual entry comes to its purchase date. -/
structure EntryReachesDate (body : Json) : Prop where
  object : requireObject body = .ok ()
  keys : rejectUnknownKeys body ["kind", "direction", "total_cents", "currency", "merchant",
    "purchase_date", "payment_method_id", "tax_deductible", "note", "offsets_receipt_id",
    "fx_rate_to_aud", "category_id", "items"] = .ok ()
  total : body.contains "total_cents" = true
  kind : accepts body "kind" (fun value _ => parseKind value) = true
  fields : fieldsInOrder body = true

/-- A PATCH of a receipt comes to its purchase date. -/
structure PatchReachesDate (body : Json) : Prop where
  object : requireObject body = .ok ()
  keys : rejectUnknownKeys body ["kind", "direction", "total_cents", "currency", "merchant",
    "store_name_raw", "purchase_date", "payment_method_id", "tax_deductible", "note",
    "offsets_receipt_id", "fx_rate_to_aud", "reviewed"] = .ok ()
  kind : accepts body "kind" (fun value _ => parseKind value) = true
  direction : accepts body "direction" (fun value _ => parseDirection value) = true
  storeName : accepts body "store_name_raw" nullableString = true
  fields : fieldsInOrder body = true

theorem refuses_patchKind (r : EditableReceipt) (body : Json) : Refuses (patchKind r body) := by
  unfold patchKind
  cases body.find "kind" with
  | none => exact Refuses.ok
  | some value => exact Refuses.bind (refuses_parseKind value) fun _ _ => Refuses.ok

/-- A PATCH reads its kind exactly when the value names one. -/
theorem patchKind_iff {r : EditableReceipt} :
    accepts body "kind" (fun value _ => parseKind value) = true ↔
      ∃ kinded, patchKind r body = .ok kinded := by
  unfold accepts patchKind
  cases body.find "kind" with
  | none => simp
  | some value =>
      cases result : parseKind value <;>
        simp [Except.isOk, Except.toBool, result, bind, Except.bind, pure, Except.pure]

theorem refuses_patchReviewed (body : Json) : Refuses (patchReviewed body) := by
  unfold patchReviewed
  cases body.find "reviewed" with
  | none => exact Refuses.ok
  | some value =>
      exact Refuses.bind (guards_boolean _ _) fun _ _ =>
        Refuses.bind (refuses_rejectIf _ _) fun _ _ => Refuses.ok

theorem refuses_entryDirection (body : Json) (kind : Kind) :
    Refuses (entryDirection body kind) := by
  unfold entryDirection
  split
  · exact refuses_parseDirection _
  · exact Refuses.ok
  · exact Refuses.validation

theorem refuses_entryItems (body : Json) (categoryId : Option ℕ) :
    Refuses (entryItems body categoryId) := by
  unfold entryItems
  split
  · exact Refuses.ok
  · exact Refuses.bind (refuses_rejectIf _ _) fun _ _ => Refuses.mapM refuses_parseNewItem
  · exact Refuses.validation

theorem parseManualEntry_refuses_iff : Refuses (parseManualEntry body) ↔
    ¬ (EntryReachesDate body ∧ hasUnreadableDate body = true) := by
  constructor
  · rintro refuses ⟨reaches, unreadable⟩
    obtain ⟨kind, named⟩ := (@accepts_iff _ _ _ kDefaultKind _).mp reaches.kind
    have fields : ¬ Refuses (applyCommonReceiptFields { kind := kind } body) := fun fine =>
      applyCommonReceiptFields_refuses_iff.mp fine ⟨reaches.fields, unreadable⟩
    apply fields
    intro raised failed
    apply refuses raised
    simp only [parseManualEntry, reaches.object, reaches.keys, reaches.total, rejectIf,
      Bool.not_true, Bool.false_eq_true, if_false, named, failed, ok_bind, error_bind]
  · intro reached
    refine Refuses.bind (refuses_requireObject _) fun _ object =>
      Refuses.bind (refuses_rejectUnknownKeys _ _) fun _ keys =>
      Refuses.bind (refuses_rejectIf _ _) fun _ total =>
      Refuses.bind (refuses_setIfPresent fun _ _ => refuses_parseKind _) fun _ kind =>
      Refuses.bind (applyCommonReceiptFields_refuses_iff.mpr fun both => ?_) fun _ _ =>
      Refuses.bind (refuses_entryDirection _ _) fun _ _ =>
      Refuses.bind (refuses_setIfPresent fun _ _ => guards_nullableId _ _) fun _ _ =>
      Refuses.bind (refuses_entryItems _ _) fun _ _ =>
      Refuses.bind (refuses_validateReceipt _) fun _ _ => Refuses.ok
    exact reached ⟨⟨object, keys, by simpa using total, accepts_iff.mpr ⟨_, kind⟩, both.1⟩, both.2⟩

theorem applyReceiptPatch_refuses_iff {r : EditableReceipt} : Refuses (applyReceiptPatch r body) ↔
    ¬ (PatchReachesDate body ∧ hasUnreadableDate body = true) := by
  constructor
  · rintro refuses ⟨reaches, unreadable⟩
    obtain ⟨kinded, named⟩ := (@patchKind_iff _ r).mp reaches.kind
    obtain ⟨direction, directed⟩ := (@accepts_iff _ _ _ kinded.direction _).mp reaches.direction
    obtain ⟨storeName, stored⟩ := (@accepts_iff _ _ _ kinded.storeNameRaw _).mp reaches.storeName
    have fields : ¬ Refuses (applyCommonReceiptFields
        { kinded with direction := direction, storeNameRaw := storeName } body) := fun fine =>
      applyCommonReceiptFields_refuses_iff.mp fine ⟨reaches.fields, unreadable⟩
    apply fields
    intro raised failed
    apply refuses raised
    simp only [applyReceiptPatch, reaches.object, reaches.keys, named, directed, stored, failed,
      ok_bind, error_bind]
  · intro reached
    refine Refuses.bind (refuses_requireObject _) fun _ object =>
      Refuses.bind (refuses_rejectUnknownKeys _ _) fun _ keys =>
      Refuses.bind (refuses_patchKind _ _) fun _ kind =>
      Refuses.bind (refuses_setIfPresent fun _ _ => refuses_parseDirection _) fun _ direction =>
      Refuses.bind (refuses_setIfPresent fun _ _ => guards_nullableString _ _) fun _ storeName =>
      Refuses.bind (applyCommonReceiptFields_refuses_iff.mpr fun both => ?_) fun _ _ =>
      Refuses.bind (refuses_patchReviewed _) fun _ _ =>
      Refuses.bind (refuses_validateReceipt _) fun _ _ => Refuses.ok
    exact reached ⟨⟨object, keys, patchKind_iff.mpr ⟨_, kind⟩, accepts_iff.mpr ⟨_, direction⟩,
      accepts_iff.mpr ⟨_, storeName⟩, both.1⟩, both.2⟩

/-- A body is refused with a validation error or not at all, unless the parser of its kind
comes to a purchase date of the right shape in which a number has no digit to begin with. -/
theorem bodies_refuse_iff (body : Json) (r : EditableReceipt) (item : ItemInput) :
    (Refuses (parseManualEntry body) ∧ Refuses (applyReceiptPatch r body) ∧
      Refuses (parseNewItem body) ∧ Refuses (applyItemPatch item body)) ↔
    ¬ ((EntryReachesDate body ∨ PatchReachesDate body) ∧ hasUnreadableDate body = true) := by
  rw [parseManualEntry_refuses_iff, applyReceiptPatch_refuses_iff]
  constructor
  · rintro ⟨entry, patch, -, -⟩ ⟨reaches | reaches, unreadable⟩
    · exact entry ⟨reaches, unreadable⟩
    · exact patch ⟨reaches, unreadable⟩
  · intro readable
    refine ⟨fun both => readable ⟨Or.inl both.1, both.2⟩,
      fun both => readable ⟨Or.inr both.1, both.2⟩, refuses_parseNewItem body,
      refuses_applyItemPatch item body⟩

/-- Four digits, a dash, and dashes alone. -/
theorem not_bodies_refuse_of_dashes :
    ¬ ∀ (body : Json) (r : EditableReceipt) (item : ItemInput),
      Refuses (parseManualEntry body) ∧ Refuses (applyReceiptPatch r body) ∧
        Refuses (parseNewItem body) ∧ Refuses (applyItemPatch item body) := by
  intro always
  have refuses := (always (.object [("total_cents", .unsigned 100),
    ("purchase_date", .string "2026------")]) {} {}).1
  obtain ⟨message, same⟩ := refuses (.runtime "stoi") (by decide +kernel)
  cases same

end Bodies

end ReceiptScanner

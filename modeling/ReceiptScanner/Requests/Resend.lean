import ReceiptScanner.Requests.Dates
import ReceiptScanner.Requests.Equivalents
import Mathlib.Data.List.DropRight
import Mathlib.Data.List.TakeWhile

/-!
# Reading a receipt and sending it back

`toJson` is what a client reads of a receipt, and `resent` the PATCH that it makes of it.
A value reads back if the reader of its field takes what is sent for the value itself.
What a reader of requests has returned reads back; of what a scan has stored, so does
everything but a name that whitespace surrounds.
-/

namespace ReceiptScanner

open JsonInput

namespace ReceiptController

/-- `nullable`. -/
def nullable {α : Type} (toJson : α → Json) : Option α → Json
  | none => .null
  | some value => toJson value

/-- A receipt as responses show it, with the server's text of each instant. -/
def toJson (stamp : ℕ → String) (r : ReceiptSummary) : Json :=
  .object [
    ("id", .integer r.id),
    ("store_name_raw", nullable .string r.storeNameRaw),
    ("merchant", nullable .string r.merchant),
    ("purchase_date", nullable .string r.purchaseDate),
    ("total_cents", .integer r.totalCents),
    ("direction", .string r.direction.name),
    ("currency", .string r.currency),
    ("kind", .string r.kind.name),
    ("scan_state", .string r.scanState.name),
    ("tax_deductible", .boolean r.taxDeductible),
    ("note", nullable .string r.note),
    ("source", .string r.source.name),
    ("payment_method_id", nullable (fun id : ℕ => .integer id) r.paymentMethodId),
    ("offsets_receipt_id", nullable (fun id : ℕ => .integer id) r.offsetsReceiptId),
    ("fx_rate_to_aud", nullable .float r.fxRateToAud),
    ("aud_equivalent_cents", nullable .integer r.audEquivalentCents),
    ("proposed_at", nullable (fun now => .string (stamp now)) r.proposedAt),
    ("reviewed_at", nullable (fun now => .string (stamp now)) r.reviewedAt),
    ("needs_review", .boolean r.needsReview),
    ("is_confirmed", .boolean r.isConfirmed),
    ("created_at", .string (stamp r.createdAt)),
    ("updated_at", .string (stamp r.updatedAt))]

end ReceiptController

open ReceiptController

/-- A scalar that is written as a text and parsed again: an integer without a sign comes
back as an unsigned one. -/
def reread : Json → Json
  | .integer n => if n < 0 then .integer n else .unsigned n.toNat
  | value => value

/-- The keys that a PATCH can set. -/
def settableKeys : List String :=
  ["kind", "direction", "total_cents", "currency", "merchant", "store_name_raw", "purchase_date",
    "payment_method_id", "tax_deductible", "note", "offsets_receipt_id", "fx_rate_to_aud"]

/-- The PATCH body that has every settable key of a receipt, as it was read. -/
def resent : Json → Json
  | .object members => .object ((members.filter fun member => settableKeys.contains member.1).map
      fun member => (member.1, reread member.2))
  | body => body

section Texts

/-- The text begins and ends with something other than whitespace. -/
def isTidy (text : String) : Bool :=
  text.toList.head?.any (fun c => !isSpace c) && text.toList.getLast?.any fun c => !isSpace c

/-- What `nullableString` makes of a text. -/
def tidied (text : Option String) : Option String :=
  text.bind fun text => if (trim text).isEmpty then none else some (trim text)

theorem trim_toList (text : String) :
    (trim text).toList = (text.toList.dropWhile isSpace).rdropWhile isSpace :=
  String.toList_ofList

/-- What is trimmed begins and ends with something other than whitespace, if anything is
left of it. -/
theorem isTidy_trim {text : String} (left : (trim text).isEmpty = false) :
    isTidy (trim text) = true := by
  have filled : (text.toList.dropWhile isSpace).rdropWhile isSpace ≠ [] := by
    rw [← trim_toList]
    intro empty
    rw [String.toList_eq_nil_iff.mp empty] at left
    cases left
  have start := @List.rdropWhile_prefix _ isSpace (text.toList.dropWhile isSpace)
  have first := @List.head_dropWhile_not _ isSpace text.toList (List.IsPrefix.ne_nil start filled)
  have last := List.rdropWhile_last_not isSpace _ filled
  unfold isTidy
  rw [trim_toList, List.head?_eq_some_head filled, List.getLast?_eq_some_getLast filled,
    List.IsPrefix.head start filled]
  simp [first, last]

/-- Nothing is trimmed off a text that begins and ends so. -/
theorem trim_of_isTidy {text : String} (tidy : isTidy text = true) : trim text = text := by
  obtain ⟨first, last⟩ := Bool.and_eq_true_iff.mp tidy
  refine String.toList_inj.mp ?_
  have kept : text.toList.dropWhile isSpace = text.toList := by
    refine List.dropWhile_eq_self_iff.mpr fun filled => ?_
    rw [List.head?_eq_getElem?, List.getElem?_eq_getElem filled] at first
    simpa using first
  rw [trim_toList, kept]
  refine List.rdropWhile_eq_self_iff.mpr fun filled => ?_
  rw [List.getLast?_eq_some_getLast filled] at last
  simpa using last

theorem not_isEmpty_of_isTidy {text : String} (tidy : isTidy text = true) :
    text.isEmpty = false := by
  rw [Bool.eq_false_iff]
  intro empty
  rw [String.isEmpty_iff.mp empty] at tidy
  cases tidy

/-- `nullableString` leaves the texts that begin and end with something other than
whitespace, and no others. -/
theorem tidied_eq_self_iff {text : Option String} :
    tidied text = text ↔ ∀ name ∈ text, isTidy name = true := by
  cases text with
  | none => simp [tidied]
  | some name =>
      simp only [tidied, Option.bind_some, Option.mem_def, Option.some.injEq, forall_eq']
      constructor
      · intro kept
        split at kept
        · cases kept
        · rename_i left
          have same := Option.some.inj kept
          rw [← same]
          exact isTidy_trim (by simpa using left)
      · intro tidy
        rw [trim_of_isTidy tidy, not_isEmpty_of_isTidy tidy]
        rfl

/-- What `nullableString` returns it leaves. -/
theorem isTidy_of_tidied {text : Option String} {name : String} (made : name ∈ tidied text) :
    isTidy name = true := by
  obtain ⟨given, -, trimmed⟩ := Option.bind_eq_some_iff.mp made
  split at trimmed
  · cases trimmed
  · rename_i left
    obtain rfl := Option.some.inj trimmed
    exact isTidy_trim (by simpa using left)

end Texts

section Readers

variable {value : Json} {field : String}

theorem nullableString_nullable (text : Option String) :
    nullableString (nullable .string text) field = .ok (tidied text) := by
  cases text <;> rfl

theorem isTidy_of_nullableString {read : Option String} {name : String}
    (accepted : nullableString value field = .ok read) (present : name ∈ read) :
    isTidy name = true := by
  unfold nullableString at accepted
  split at accepted
  · obtain rfl := Except.ok.inj accepted
    cases present
  · rename_i text
    obtain rfl := Except.ok.inj accepted
    exact @isTidy_of_tidied (some text) _ present
  · cases accepted

theorem nullableId_pos {read : Option ℕ} {id : ℕ} (accepted : nullableId value field = .ok read)
    (present : id ∈ read) : 0 < id := by
  unfold nullableId at accepted
  split at accepted
  · obtain rfl := Except.ok.inj accepted
    cases present
  · split at accepted
    · split at accepted
      · cases accepted
      · obtain rfl := Except.ok.inj accepted
        obtain rfl := Option.some.inj present
        omega
    · cases accepted

theorem isUpper_iff {c : Char} :
    c.isUpper = true ↔ 65 ≤ c.val.toNat ∧ c.val.toNat ≤ 90 :=
  decide_eq_true_iff.trans (and_congr UInt32.le_iff_toNat_le UInt32.le_iff_toNat_le)

/-- Uppercasing leaves a capital as it is. -/
theorem toUpper_of_isUpper {c : Char} (capital : c.isUpper = true) : c.toUpper = c := by
  refine dif_neg fun small => ?_
  have upTo := (isUpper_iff.mp capital).2
  have above : 97 ≤ c.val.toNat := UInt32.le_iff_toNat_le.mp small.1
  omega

/-- Uppercasing a letter yields a capital. -/
theorem isUpper_toUpper {c : Char} (letter : c.isAlpha = true) : c.toUpper.isUpper = true := by
  rcases Bool.or_eq_true_iff.mp letter with capital | small
  · rw [toUpper_of_isUpper capital]
    exact capital
  · obtain ⟨above, upTo⟩ := Bool.and_eq_true_iff.mp small
    have above := of_decide_eq_true above
    have upTo := of_decide_eq_true upTo
    have shifted : c.toUpper = ⟨c.val + ('A'.val - 'a'.val), _⟩ := dif_pos ⟨above, upTo⟩
    have from97 : 97 ≤ c.val.toNat := UInt32.le_iff_toNat_le.mp above
    have to122 : c.val.toNat ≤ 122 := UInt32.le_iff_toNat_le.mp upTo
    have difference : ('A'.val - 'a'.val).toNat = 4294967264 := by decide
    rw [isUpper_iff, shifted, UInt32.toNat_add, difference]
    omega

/-- A currency that has been read is read again as it is. -/
theorem currency_again {code : String} (accepted : currency value field = .ok code)
    (other : String) : currency (.string code) other = .ok code := by
  unfold currency at accepted
  split at accepted
  · rename_i text
    split at accepted
    · rename_i letters
      obtain rfl := Except.ok.inj accepted
      simp only [Bool.and_eq_true, decide_eq_true_eq, List.all_eq_true] at letters
      have capitals : ∀ c ∈ (text.map Char.toUpper).toList, c.isUpper = true := by
        intro c member
        rw [String.toList_map] at member
        obtain ⟨letter, among, rfl⟩ := List.mem_map.mp member
        exact isUpper_toUpper (letters.2 letter among)
      have again : (text.map Char.toUpper).map Char.toUpper = text.map Char.toUpper := by
        refine String.toList_inj.mp ?_
        rw [String.toList_map]
        exact (List.map_congr_left fun c member => toUpper_of_isUpper (capitals c member)).trans
          (List.map_id' _)
      have still : ((text.map Char.toUpper).toList.length = 3 &&
          (text.map Char.toUpper).toList.all Char.isAlpha) = true := by
        simp only [Bool.and_eq_true, decide_eq_true_eq, List.all_eq_true]
        exact ⟨by simp [letters.1], fun c member =>
          Bool.or_eq_true_iff.mpr (.inl (capitals c member))⟩
      simp only [currency, still, if_true, again]
    · cases accepted
  · cases accepted

end Readers

section Sent

variable {field : String}

theorem reread_nullable_string (text : Option String) :
    reread (nullable .string text) = nullable .string text := by
  cases text <;> rfl

theorem reread_nullable_float (q : Option ℚ) :
    reread (nullable .float q) = nullable .float q := by
  cases q <;> rfl

/-- A number of the receipt comes back without a sign. -/
theorem asInt64_reread {n : ℤ} (nonneg : 0 ≤ n) (fits : fitsInt64 n = true) :
    asInt64 (reread (.integer n)) = some n := by
  simp only [fitsInt64, Bool.and_eq_true, decide_eq_true_eq] at fits
  have small : ¬ n.toNat > 9223372036854775807 := by omega
  rw [reread, if_neg (by omega), asInt64, if_neg small, Int.toNat_of_nonneg nonneg]

theorem cents_reread {n : ℤ} (nonneg : 0 ≤ n) (fits : fitsInt64 n = true) :
    cents (reread (.integer n)) field = .ok n := by
  rw [cents, asInt64_reread nonneg fits]
  exact if_neg (by omega)

theorem nullableId_reread {id : Option ℕ} (positive : ∀ n ∈ id, 0 < n)
    (fits : id.all (fun n => fitsInt64 n) = true) :
    nullableId (reread (nullable (fun n : ℕ => .integer n) id)) field = .ok id := by
  cases id with
  | none => rfl
  | some n =>
      have above : 0 < n := positive n rfl
      have read := @asInt64_reread n (by omega) fits
      have sent : reread (.integer n) = .unsigned n := by
        rw [reread, if_neg (by omega), Int.toNat_natCast]
      rw [sent] at read
      simp only [nullable, sent, nullableId, read, Int.toNat_natCast]
      exact if_neg (by omega)

theorem parseKind_name (kind : Kind) : parseKind (.string kind.name) = .ok kind := by
  cases kind <;> decide +kernel

theorem parseDirection_name (direction : Direction) :
    parseDirection (.string direction.name) = .ok direction := by
  cases direction <;> decide +kernel

theorem nullableDate_printed (day : Option Date) :
    nullableDate (nullable .string (day.map Subtype.val)) field = .ok (day.map Subtype.val) := by
  cases day with
  | none => rfl
  | some day => simp [nullable, nullableDate, day.read]

theorem nullablePositiveNumber_nullable {q : Option ℚ} (positive : ∀ rate, q = some rate → 0 < rate) :
    nullablePositiveNumber (nullable .float q) field = .ok q := by
  cases q with
  | none => rfl
  | some rate =>
      have above : ¬ rate ≤ 0 := not_le.mpr (positive rate rfl)
      simp [nullable, nullablePositiveNumber, number, above]

end Sent

/-- What the readers make of a receipt, but for the two names. -/
structure EditableReceipt.Settled (r : EditableReceipt) : Prop extends r.Measured where
  currency : ∀ field, JsonInput.currency (.string r.currency) field = .ok r.currency
  paymentMethodId : ∀ id ∈ r.paymentMethodId, 0 < id
  note : ∀ text ∈ r.note, isTidy text = true
  offsetsReceiptId : ∀ id ∈ r.offsetsReceiptId, 0 < id

/-- The merchant and the raw store name, where there are any, begin and end with something
other than whitespace. -/
def EditableReceipt.Named (r : EditableReceipt) : Prop :=
  ∀ name, r.merchant = some name ∨ r.storeNameRaw = some name → isTidy name = true

/-- The numbers of a receipt fit their BIGINT columns. -/
def EditableReceipt.fitsColumns (r : EditableReceipt) : Bool :=
  fitsInt64 r.totalCents && r.paymentMethodId.all (fun id => fitsInt64 id) &&
    r.offsetsReceiptId.all fun id => fitsInt64 id

section Body

variable {stamp : ℕ → String} {id : ℕ} {row : ReceiptRow}

/-- The PATCH of a settled receipt, as it was read, tidies the two names and changes
nothing else. -/
theorem applyReceiptPatch_resent (valid : (ReceiptService.rowToEditable row).Valid)
    (settled : (ReceiptService.rowToEditable row).Settled)
    (fits : (ReceiptService.rowToEditable row).fitsColumns = true) :
    applyReceiptPatch (ReceiptService.rowToEditable row)
        (resent (toJson stamp (ReceiptService.rowToSummary id row))) =
      .ok ({ ReceiptService.rowToEditable row with
        merchant := tidied row.merchant
        storeNameRaw := tidied row.storeNameRaw }, false) := by
  simp only [EditableReceipt.fitsColumns, Bool.and_eq_true] at fits
  obtain ⟨⟨total, method⟩, offset⟩ := fits
  have texts (text : Option String) (field : String) :
      nullableString (reread (nullable .string text)) field = .ok (tidied text) := by
    rw [reread_nullable_string, nullableString_nullable]
  have days (field : String) :
      nullableDate (reread (nullable .string (row.purchaseDate.map Subtype.val))) field =
        .ok (row.purchaseDate.map Subtype.val) := by
    rw [reread_nullable_string]
    exact nullableDate_printed row.purchaseDate
  have rates (field : String) :
      nullablePositiveNumber (reread (nullable .float row.fxRateToAud)) field =
        .ok row.fxRateToAud := by
    rw [reread_nullable_float]
    exact nullablePositiveNumber_nullable settled.rate
  have noted : tidied row.note = row.note := tidied_eq_self_iff.mpr settled.note
  exact applyReceiptPatch_eq_ok.mpr {
    totalCents := (setIfPresent_some rfl).trans (cents_reread settled.total total)
    currency := (setIfPresent_some rfl).trans (settled.currency _)
    merchant := (setIfPresent_some rfl).trans (texts _ _)
    purchaseDate := (setIfPresent_some rfl).trans (days _)
    paymentMethodId := (setIfPresent_some rfl).trans
      (nullableId_reread settled.paymentMethodId method)
    taxDeductible := rfl
    note := (setIfPresent_some rfl).trans ((texts _ _).trans (congrArg Except.ok noted))
    offsetsReceiptId := (setIfPresent_some rfl).trans
      (nullableId_reread settled.offsetsReceiptId offset)
    fxRateToAud := (setIfPresent_some rfl).trans (rates _)
    object := rfl
    known := rejectUnknownKeys_eq_ok.mpr (by simp [patchKeys, settableKeys])
    kind := (setIfPresent_some rfl).trans (parseKind_name _)
    direction := (setIfPresent_some rfl).trans (parseDirection_name _)
    storeNameRaw := (setIfPresent_some rfl).trans (texts _ _)
    reviewed := rfl
    valid := ⟨valid.direction, valid.tax, valid.offsets, valid.fx⟩ }

/-- Which leaves the receipt as it was exactly if there is nothing to tidy. -/
theorem applyReceiptPatch_resent_iff (valid : (ReceiptService.rowToEditable row).Valid)
    (settled : (ReceiptService.rowToEditable row).Settled)
    (fits : (ReceiptService.rowToEditable row).fitsColumns = true) :
    applyReceiptPatch (ReceiptService.rowToEditable row)
        (resent (toJson stamp (ReceiptService.rowToSummary id row))) =
      .ok (ReceiptService.rowToEditable row, false) ↔
      (ReceiptService.rowToEditable row).Named := by
  have same : ({ ReceiptService.rowToEditable row with
      merchant := tidied row.merchant
      storeNameRaw := tidied row.storeNameRaw } : EditableReceipt) =
        ReceiptService.rowToEditable row ↔
      tidied row.merchant = row.merchant ∧ tidied row.storeNameRaw = row.storeNameRaw := by
    simp [ReceiptService.rowToEditable]
  rw [applyReceiptPatch_resent valid settled fits, Except.ok.injEq, Prod.mk.injEq, same,
    tidied_eq_self_iff, tidied_eq_self_iff]
  constructor
  · rintro ⟨⟨merchant, store⟩, -⟩ name either
    exact either.elim (merchant name) (store name)
  · intro named
    exact ⟨⟨fun name is => named name (.inl is), fun name is => named name (.inr is)⟩, rfl⟩

end Body

section Kept

variable {body : Json} {r after : EditableReceipt}

/-- A text that is set begins and ends with something other than whitespace, if the old
one does. -/
theorem isTidy_of_set {key : String} {target read : Option String}
    (set : setIfPresent body key target nullableString = .ok read)
    (before : ∀ name ∈ target, isTidy name = true) : ∀ name ∈ read, isTidy name = true :=
  setIfPresent_invariant (P := fun text? => ∀ name ∈ text?, isTidy name = true) set before
    fun _ accepted _ => isTidy_of_nullableString accepted

/-- What is read into a settled receipt leaves it settled. -/
theorem ReadsCommon.settled (reads : ReadsCommon body r after) (before : r.Settled) :
    after.Settled where
  toMeasured := reads.measured before.toMeasured
  currency := setIfPresent_invariant
    (P := fun code => ∀ field, JsonInput.currency (.string code) field = .ok code)
    reads.currency before.currency fun _ accepted => currency_again accepted
  paymentMethodId := setIfPresent_invariant (P := fun id? => ∀ id ∈ id?, 0 < id)
    reads.paymentMethodId before.paymentMethodId fun _ accepted _ => nullableId_pos accepted
  note := isTidy_of_set reads.note before.note
  offsetsReceiptId := setIfPresent_invariant (P := fun id? => ∀ id ∈ id?, 0 < id)
    reads.offsetsReceiptId before.offsetsReceiptId fun _ accepted _ => nullableId_pos accepted

/-- A receipt that nothing has been set of. -/
theorem settled_default (kind : Kind) : ({ kind := kind } : EditableReceipt).Settled where
  total := le_refl _
  rate := fun _ none => by cases none
  currency := currency_again (by decide +kernel : currency (.string "AUD") "currency" = .ok "AUD")
  paymentMethodId := fun _ none => by cases none
  note := fun _ none => by cases none
  offsetsReceiptId := fun _ none => by cases none

/-- A manual entry is settled, and its names begin and end with something other than
whitespace. -/
theorem parseManualEntry_settled {input : ManualEntryInput}
    (parsed : parseManualEntry body = .ok input) :
    input.receipt.Settled ∧ input.receipt.Named ∧ input.receipt.storeNameRaw = none := by
  simp only [parseManualEntry, bind_eq_ok] at parsed
  obtain ⟨_, -, _, -, _, -, kind, -, r, common, direction, -, _, -, _, -, _, -, built⟩ := parsed
  obtain rfl := Except.ok.inj built
  obtain ⟨reads, -, -, store⟩ := applyCommonReceiptFields_eq_ok.mp common
  have read := reads.settled (settled_default kind)
  refine ⟨⟨⟨read.total, read.rate⟩, read.currency, read.paymentMethodId, read.note,
    read.offsetsReceiptId⟩, fun name either => ?_, store⟩
  rcases either with isMerchant | isStore
  · exact isTidy_of_set reads.merchant (fun _ none => by cases none) name isMerchant
  · cases store.symm.trans isStore

/-- A PATCH keeps a receipt settled, and its names. -/
theorem applyReceiptPatch_settled {patched : EditableReceipt} {markReviewed : Bool}
    (applied : applyReceiptPatch r body = .ok (patched, markReviewed)) (before : r.Settled) :
    patched.Settled ∧ (r.Named → patched.Named) := by
  have made := applyReceiptPatch_eq_ok.mp applied
  refine ⟨made.toReadsCommon.settled before, fun named name either => ?_⟩
  rcases either with isMerchant | isStore
  · exact isTidy_of_set made.merchant (fun name is => named name (.inl is)) name isMerchant
  · exact isTidy_of_set made.storeNameRaw (fun name is => named name (.inr is)) name isStore

end Kept

end ReceiptScanner

import ReceiptScanner.Stats.Views

/-!
# What the stats views account for

Each view is first brought to one filter over its table: the outer join with the
payment methods and the joins with the receipts are on keys, so that they neither
drop nor repeat a row. The one thing a view can fail on is the sign of the least
BIGINT, which a total cannot be and an item of a refund can.
-/

namespace ReceiptScanner

open ReadCommitted Sql

variable {db : Db store} {lower : String → String}

/-- The receipt as `v_receipt_state` shows it. -/
def stateOf (entry : ℕ × ReceiptRow) : ReceiptState where
  id := entry.1
  receipt := entry.2
  needsReview := .of entry.2.needsReview
  isConfirmed := .of entry.2.isConfirmed

/-- A stored-value method paid for the receipt. -/
def paidStored (db : Db store) (row : ReceiptRow) : Bool :=
  (row.paymentMethodId.bind (db .paymentMethods).get).any PaymentMethodRow.storedValue

/-- The receipts of `v_countable_spend`. -/
def isSpend (db : Db store) (row : ReceiptRow) : Bool :=
  row.isConfirmed && [Kind.purchase, .refund, .reimbursement].contains row.kind &&
    !(row.kind = .purchase && paidStored db row)

/-- The receipts of `v_income`. -/
def isIncome (row : ReceiptRow) : Bool := row.isConfirmed && row.kind = .income

/-- What `v_countable_spend` adds for a receipt. -/
def spendOf (entry : ℕ × ReceiptRow) : CountableSpend where
  state := stateOf entry
  signedSpendCents := entry.2.totalCents * spendSign entry.2.kind

@[simp] theorem mem_receipts {id : ℕ} {row : ReceiptRow} :
    (id, row) ∈ receipts db ↔ (db .receipts).get id = some row :=
  Rows.mem_list

@[simp] theorem mem_items {id : ℕ} {row : ItemRow} :
    (id, row) ∈ items db ↔ (db .items).get id = some row :=
  Rows.mem_list

/-- The timestamps compare in three truth values, but the result is never unknown. -/
theorem vReceiptState_eq (db : Db store) : vReceiptState db = (receipts db).map stateOf := by
  unfold vReceiptState
  apply List.map_congr_left
  rintro ⟨id, row⟩ -
  unfold stateOf ReceiptRow.needsReview ReceiptRow.isConfirmed
  cases proposed : row.proposedAt <;> cases reviewed : row.reviewedAt <;> simp [proposed, reviewed]

theorem vIncome_eq (db : Db store) :
    vIncome db = ((receipts db).filter fun entry => isIncome entry.2).map stateOf := by
  rw [vIncome, vReceiptState_eq, filterWhere, List.filter_map]
  congr 1
  apply List.filter_congr
  intro entry member
  simp only [Function.comp_apply, stateOf, Truth.and_of, Truth.holds_of]
  rfl

/-- A receipt is joined with its payment method, and only with that. -/
theorem onPaymentMethod_key (db : Db store) :
    OnKey onPaymentMethod (paymentMethods db) := by
  intro vrs
  have apart : (paymentMethods db).Pairwise fun first second => first.1 ≠ second.1 :=
    (db .paymentMethods).pairwise_list
  apply apart.imp
  intro first second different ⟨one, other⟩
  cases named : vrs.receipt.paymentMethodId with
  | none => simp [onPaymentMethod, named, Truth.holds] at one
  | some id =>
      simp only [onPaymentMethod, named, compareBy_some, Truth.holds_of, beq_iff_eq] at one other
      exact different (one.trans other.symm)

/-- What the outer join finds of the payment method. -/
theorem storedValue_joined (db : Db store) (vrs : ReceiptState) :
    ((((paymentMethods db).find? fun pm => (onPaymentMethod vrs pm).holds).map
      fun method => method.2.storedValue).getD false) = paidStored db vrs.receipt := by
  unfold paidStored
  cases named : vrs.receipt.paymentMethodId with
  | none =>
      have nothing : ((paymentMethods db).find? fun pm =>
          (onPaymentMethod vrs pm).holds) = none := by
        rw [List.find?_eq_none]
        intro pm member
        simp [onPaymentMethod, named, Truth.holds]
      simp [nothing]
  | some id =>
      have search : ((paymentMethods db).find? fun pm => (onPaymentMethod vrs pm).holds) =
          ((db .paymentMethods).get id).map (id, ·) := by
        simp only [onPaymentMethod, named, compareBy_some, Truth.holds_of]
        exact (db .paymentMethods).find?_list id
      rw [search]
      cases stored : (db .paymentMethods).get id <;> simp [stored]

theorem countsAsSpend_joined (db : Db store) (entry : ℕ × ReceiptRow) :
    (countsAsSpend (stateOf entry) ((paymentMethods db).find? fun pm =>
      (onPaymentMethod (stateOf entry) pm).holds)).holds = isSpend db entry.2 := by
  rw [countsAsSpend, storedValue_joined]
  simp only [stateOf, Truth.and_of, Truth.not_of, Truth.holds_of]
  rfl

/-- Where the totals have a sign, the spend view is a filter of the receipts. -/
theorem vCountableSpend_eq
    (signed : ∀ id row, (db .receipts).get id = some row →
      isBigint (row.totalCents * spendSign row.kind)) :
    vCountableSpend db =
      some (((receipts db).filter fun entry => isSpend db entry.2).map spendOf) := by
  rw [vCountableSpend, leftJoin_eq (onPaymentMethod_key db), vReceiptState_eq, filterWhere,
    List.map_map, List.filter_map]
  simp only [Function.comp_def, countsAsSpend_joined]
  refine (mapM_eq_some (fun row : ReceiptState × Option (ℕ × PaymentMethodRow) =>
    spendOf (row.1.id, row.1.receipt)) ?_).trans ?_
  · intro row member
    obtain ⟨entry, kept, rfl⟩ := List.mem_map.mp member
    have fits := signed _ _ (mem_receipts.mp (List.mem_of_mem_filter kept))
    simp [stateOf, spendOf, bigint_of_isBigint fits]
  · rw [List.map_map]
    rfl

section Items

/-- What `v_countable_spend_items` shows of an item and its receipt. -/
def spendItemOf (pair : (ℕ × ItemRow) × CountableSpend) : CountableSpendItem where
  itemId := pair.1.1
  receiptId := pair.1.2.receiptId
  categoryId := pair.1.2.categoryId
  amountCents := pair.1.2.amountCents
  signedAmountCents := pair.1.2.amountCents * spendSign pair.2.state.receipt.kind
  userId := pair.2.state.receipt.userId
  currency := pair.2.state.receipt.currency
  purchaseDate := pair.2.state.receipt.purchaseDate
  kind := pair.2.state.receipt.kind

/-- What `v_income_items` shows of an item and its receipt. -/
def incomeItemOf (pair : (ℕ × ItemRow) × ReceiptState) : IncomeItem where
  itemId := pair.1.1
  receiptId := pair.1.2.receiptId
  categoryId := pair.1.2.categoryId
  amountCents := pair.1.2.amountCents
  userId := pair.2.receipt.userId
  currency := pair.2.receipt.currency
  purchaseDate := pair.2.receipt.purchaseDate

theorem vIncomeItems_eq (db : Db store) :
    vIncomeItems db = ((join onReceipt (items db) (vIncome db)).filter
      fun pair => !pair.1.2.informational).map incomeItemOf := by
  simp only [vIncomeItems, filterWhere, Truth.not_of, Truth.holds_of]
  rfl

/-- Items are joined with their receipt, and only with that. -/
theorem onReceipt_key {β : Type} (state : β → ReceiptState) {rows : List β}
    (apart : rows.Pairwise fun first second => (state first).id ≠ (state second).id) :
    OnKey (fun i row => onReceipt i (state row)) rows := by
  intro i
  apply apart.imp
  intro first second different ⟨one, other⟩
  simp only [onReceipt, compareBy_some, Truth.holds_of, beq_iff_eq] at one other
  exact different (one.trans other.symm)

theorem pairwise_receipts (db : Db store) (keep : ℕ × ReceiptRow → Bool) :
    ((receipts db).filter keep).Pairwise fun first second => first.1 ≠ second.1 := by
  have apart : (receipts db).Pairwise fun first second => first.1 ≠ second.1 :=
    (db .receipts).pairwise_list
  exact apart.sublist List.filter_sublist

theorem pairwise_items (db : Db store) :
    (items db).Pairwise fun first second => first.1 ≠ second.1 :=
  (db .items).pairwise_list

/-- The rows of `v_countable_spend`. -/
def spendRows (db : Db store) : List CountableSpend :=
  ((receipts db).filter fun entry => isSpend db entry.2).map spendOf

theorem onReceipt_key_spendRows (db : Db store) :
    OnKey (fun i vcs => onReceipt i vcs.state) (spendRows db) :=
  onReceipt_key (fun vcs : CountableSpend => vcs.state) (List.pairwise_map.mpr (pairwise_receipts db _))

theorem onReceipt_key_vIncome (db : Db store) : OnKey onReceipt (vIncome db) := by
  rw [vIncome_eq]
  exact onReceipt_key (fun vrs => vrs) (List.pairwise_map.mpr (pairwise_receipts db _))

/-- Where the amounts have a sign, the item view is a filter of the items. -/
theorem vCountableSpendItems_eq (spend : vCountableSpend db = some (spendRows db))
    (signed : ∀ id item entry, (db .items).get id = some item → item.informational = false →
      entry ∈ receipts db → isSpend db entry.2 → entry.1 = item.receiptId →
      isBigint (item.amountCents * spendSign entry.2.kind)) :
    vCountableSpendItems db =
      some (((join (fun i vcs => onReceipt i vcs.state) (items db) (spendRows db)).filter
        fun pair => !pair.1.2.informational).map spendItemOf) := by
  simp only [vCountableSpendItems, spend, Option.bind_eq_bind, Option.bind_some, filterWhere,
    Truth.not_of, Truth.holds_of]
  apply mapM_eq_some spendItemOf
  rintro ⟨⟨id, item⟩, vcs⟩ member
  obtain ⟨joined, counts⟩ := List.mem_filter.mp member
  obtain ⟨stored, inSpend, holds⟩ := mem_join.mp joined
  obtain ⟨entry, kept, rfl⟩ := List.mem_map.mp inSpend
  obtain ⟨listed, isSpend⟩ := List.mem_filter.mp kept
  have fits := signed id item entry (mem_items.mp stored) (by simpa using counts) listed isSpend
    (by simpa [onReceipt, spendOf, stateOf] using holds)
  simp [spendOf, stateOf, spendItemOf, bigint_of_isBigint fits]

end Items

section Flips

/-- A payment method's flag is turned over. -/
def flipStoredValue (db : Db store) (id : ℕ) (method : PaymentMethodRow) : Db store :=
  db.write ⟨.paymentMethods, id, some { method with storedValue := !method.storedValue },
    .updatePaymentMethod⟩

theorem receipts_flip (id : ℕ) (method : PaymentMethodRow) :
    (flipStoredValue db id method) .receipts = db .receipts :=
  Db.write_other db (by simp)

/-- Only purchases paid with the method are counted otherwise. -/
theorem isSpend_flip {id : ℕ} {method : PaymentMethodRow}
    (stored : (db .paymentMethods).get id = some method) (row : ReceiptRow) :
    isSpend (flipStoredValue db id method) row =
      if row.kind = .purchase ∧ row.paymentMethodId = some id
      then row.isConfirmed && method.storedValue else isSpend db row := by
  have lookup : ∀ other, ((flipStoredValue db id method) .paymentMethods).get other =
      if other = id then some { method with storedValue := !method.storedValue }
      else (db .paymentMethods).get other := by
    intro other
    exact Db.get_write_same db .paymentMethods id other _ _
  unfold isSpend paidStored
  by_cases purchase : row.kind = .purchase
  · cases named : row.paymentMethodId with
    | none => simp [purchase]
    | some other =>
        by_cases same : other = id
        · subst same
          simp [purchase, lookup]
        · simp [purchase, lookup, same]
  · simp [purchase]

end Flips

section Statement

/-- The non-informational items of a receipt, added up. -/
def itemsTotal (db : Db store) (receiptId : ℕ) : ℤ :=
  (((items db).filter fun i => i.2.receiptId == receiptId && !i.2.informational).map fun i =>
    i.2.amountCents).sum

/-- The two spend views, given by their rows, and the other views account for every receipt
once. A sum over `keep` is a sum for a user and a currency, or over all. -/
structure Accounted (db : Db store) (spend : List CountableSpend)
    (spendItems : List CountableSpendItem) : Prop where
  states : (vReceiptState db).map (fun vrs => (vrs.id, vrs.receipt)) = receipts db
  derived : ∀ vrs ∈ vReceiptState db,
    ¬ (vrs.needsReview.holds ∧ vrs.isConfirmed.holds) ∧
      (vrs.needsReview.holds ∨ vrs.isConfirmed.holds ↔
        vrs.receipt.proposedAt ≠ none ∨ vrs.receipt.reviewedAt ≠ none)
  once : (spend.map (fun row => row.state.id) ++ (vIncome db).map (fun vrs => vrs.id)).Nodup
  spent : ∀ row, row ∈ spend ↔
    row.state ∈ vReceiptState db ∧ row.state.isConfirmed.holds ∧
      row.state.receipt.kind ∈ [Kind.purchase, .refund, .reimbursement] ∧
      ¬ (row.state.receipt.kind = .purchase ∧ ∃ id method,
        row.state.receipt.paymentMethodId = some id ∧
          (db .paymentMethods).get id = some method ∧ method.storedValue = true) ∧
      row.signedSpendCents = if row.state.receipt.kind = .purchase
        then row.state.receipt.totalCents else -row.state.receipt.totalCents
  earned : ∀ vrs, vrs ∈ vIncome db ↔
    vrs ∈ vReceiptState db ∧ vrs.isConfirmed.holds ∧ vrs.receipt.kind = .income
  spendItemsOnce : (spendItems.map fun i => i.itemId).Nodup
  spentItems : ∀ id, id ∈ spendItems.map (fun i => i.itemId) ↔
    ∃ item, (db .items).get id = some item ∧ item.informational = false ∧
      item.receiptId ∈ spend.map fun row => row.state.id
  incomeItemsOnce : ((vIncomeItems db).map fun i => i.itemId).Nodup
  earnedItems : ∀ id, id ∈ (vIncomeItems db).map (fun i => i.itemId) ↔
    ∃ item, (db .items).get id = some item ∧ item.informational = false ∧
      item.receiptId ∈ (vIncome db).map fun vrs => vrs.id
  spendSums : (∀ row ∈ spend, itemsTotal db row.state.id = row.state.receipt.totalCents) →
    ∀ keep : ℕ → String → Bool,
      ((spendItems.filter fun i => keep i.userId i.currency).map fun i =>
        i.signedAmountCents).sum =
      ((spend.filter fun row => keep row.state.receipt.userId row.state.receipt.currency).map
        fun row => row.signedSpendCents).sum
  incomeSums : (∀ vrs ∈ vIncome db, itemsTotal db vrs.id = vrs.receipt.totalCents) →
    ∀ keep : ℕ → String → Bool,
      (((vIncomeItems db).filter fun i => keep i.userId i.currency).map fun i =>
        i.amountCents).sum =
      (((vIncome db).filter fun vrs => keep vrs.receipt.userId vrs.receipt.currency).map fun vrs =>
        vrs.receipt.totalCents).sum

/-- The confirmed purchases paid with a method, added up. -/
def paidWith (db : Db store) (id : ℕ) : ℤ :=
  (((vReceiptState db).filter fun vrs => vrs.isConfirmed.holds && vrs.receipt.kind = .purchase &&
    vrs.receipt.paymentMethodId = some id).map fun vrs => vrs.receipt.totalCents).sum

/-- Turning a method's flag over moves the confirmed purchases paid with it out of the spend
or back, and nothing else. -/
structure Flipped (db after : Db store) (id : ℕ) (method : PaymentMethodRow)
    (spend : List CountableSpend) : Prop where
  purchases : ∃ spendAfter, vCountableSpend after = some spendAfter ∧
    (spendAfter.map fun row => row.signedSpendCents).sum =
      (spend.map fun row => row.signedSpendCents).sum +
        (if method.storedValue then paidWith db id else -paidWith db id) ∧
    (spendAfter.filter fun row => row.state.receipt.kind != .purchase) =
      spend.filter fun row => row.state.receipt.kind != .purchase
  income : vIncome after = vIncome db
  incomeItems : vIncomeItems after = vIncomeItems db

/-- The stats views account for every confirmed receipt once. -/
def ViewsAccount (db : Db store) : Prop :=
  ∃ spend spendItems, vCountableSpend db = some spend ∧
    vCountableSpendItems db = some spendItems ∧ Accounted db spend spendItems ∧
    ∀ id method, (db .paymentMethods).get id = some method →
      Flipped db (flipStoredValue db id method) id method spend

/-- No item counted with the sign turned over is the least BIGINT, which cannot be turned. -/
def negatable (db : Db store) : Bool :=
  (items db).all fun i => i.2.informational || i.2.amountCents != -9223372036854775808 ||
    !((db .receipts).get i.2.receiptId).any fun row => row.isConfirmed &&
      (row.kind = .refund || row.kind = .reimbursement)

end Statement

section Parts

theorem mem_vReceiptState {vrs : ReceiptState} :
    vrs ∈ vReceiptState db ↔ (vrs.id, vrs.receipt) ∈ receipts db ∧
      vrs = stateOf (vrs.id, vrs.receipt) := by
  rw [vReceiptState_eq]
  constructor
  · intro member
    obtain ⟨entry, listed, rfl⟩ := List.mem_map.mp member
    exact ⟨listed, rfl⟩
  · rintro ⟨listed, same⟩
    exact List.mem_map.mpr ⟨_, listed, same.symm⟩

/-- The derived columns of one receipt. -/
theorem derived_of_timestamps (row : ReceiptRow) :
    ¬ (row.needsReview ∧ row.isConfirmed) ∧
      (row.needsReview ∨ row.isConfirmed ↔ row.proposedAt ≠ none ∨ row.reviewedAt ≠ none) := by
  unfold ReceiptRow.needsReview ReceiptRow.isConfirmed
  cases proposed : row.proposedAt <;> cases reviewed : row.reviewedAt <;> simp
  omega

theorem paidStored_iff {row : ReceiptRow} :
    paidStored db row ↔ ∃ id method, row.paymentMethodId = some id ∧
      (db .paymentMethods).get id = some method ∧ method.storedValue = true := by
  unfold paidStored
  cases row.paymentMethodId with
  | none => simp
  | some id => cases stored : (db .paymentMethods).get id <;> simp [stored]

theorem isSpend_iff {row : ReceiptRow} :
    isSpend db row ↔ row.isConfirmed ∧ row.kind ∈ [Kind.purchase, .refund, .reimbursement] ∧
      ¬ (row.kind = .purchase ∧ paidStored db row) := by
  simp only [isSpend, Bool.and_eq_true, List.contains_iff_mem, Bool.not_eq_true',
    Bool.and_eq_false_iff, decide_eq_false_iff_not, not_and_or, Bool.not_eq_true, and_assoc]

theorem not_isIncome_of_isSpend {row : ReceiptRow} (spend : isSpend db row) :
    isIncome row = false := by
  obtain ⟨-, named, -⟩ := isSpend_iff.mp spend
  unfold isIncome
  cases kind : row.kind <;> simp_all

theorem mem_spendRows {row : CountableSpend} :
    row ∈ spendRows db ↔ row.state ∈ vReceiptState db ∧ isSpend db row.state.receipt ∧
      row.signedSpendCents = row.state.receipt.totalCents * spendSign row.state.receipt.kind := by
  unfold spendRows
  constructor
  · intro member
    obtain ⟨entry, kept, rfl⟩ := List.mem_map.mp member
    obtain ⟨listed, spend⟩ := List.mem_filter.mp kept
    exact ⟨mem_vReceiptState.mpr ⟨listed, rfl⟩, spend, rfl⟩
  · rintro ⟨shown, spend, signed⟩
    obtain ⟨listed, same⟩ := mem_vReceiptState.mp shown
    obtain ⟨vrs, cents⟩ := row
    refine List.mem_map.mpr ⟨(vrs.id, vrs.receipt), List.mem_filter.mpr ⟨listed, spend⟩, ?_⟩
    simp only at same signed
    rw [spendOf, ← same, signed]

theorem mem_vIncome {vrs : ReceiptState} :
    vrs ∈ vIncome db ↔
      vrs ∈ vReceiptState db ∧ vrs.isConfirmed.holds ∧ vrs.receipt.kind = .income := by
  simp [vIncome, mem_filterWhere]

/-- No receipt is counted twice. -/
theorem counted_once (db : Db store) :
    ((spendRows db).map (fun row => row.state.id) ++ (vIncome db).map fun vrs => vrs.id).Nodup := by
  rw [vIncome_eq, spendRows, List.map_map, List.map_map]
  refine List.Nodup.append (List.pairwise_map.mpr (pairwise_receipts db _))
    (List.pairwise_map.mpr (pairwise_receipts db _)) ?_
  intro id inSpend inIncome
  obtain ⟨⟨_, row⟩, kept, rfl⟩ := List.mem_map.mp inSpend
  obtain ⟨⟨_, row'⟩, kept', same⟩ := List.mem_map.mp inIncome
  obtain ⟨stored, spend⟩ := List.mem_filter.mp kept
  obtain ⟨stored', income⟩ := List.mem_filter.mp kept'
  simp only [Function.comp_apply, spendOf, stateOf] at same
  subst same
  have equal : row = row' :=
    Option.some.inj ((mem_receipts.mp stored).symm.trans (mem_receipts.mp stored'))
  subst equal
  rw [not_isIncome_of_isSpend spend] at income
  cases income

/-- A join of the items with a key has each non-informational item of it once. -/
theorem nodup_joined {β : Type} {on : ℕ × ItemRow → β → Truth} {rows : List β}
    (key : OnKey on rows) (keep : (ℕ × ItemRow) × β → Bool) :
    (((join on (items db) rows).filter keep).map fun pair => pair.1.1).Nodup :=
  List.pairwise_map.mpr ((pairwise_join key (pairwise_items db)).sublist List.filter_sublist)

theorem mem_joined {β : Type} (state : β → ReceiptState) {rows : List β} {id : ℕ} :
    id ∈ ((join (fun i row => onReceipt i (state row)) (items db) rows).filter
        fun pair => !pair.1.2.informational).map (fun pair => pair.1.1) ↔
      ∃ item, (db .items).get id = some item ∧ item.informational = false ∧
        item.receiptId ∈ rows.map fun row => (state row).id := by
  simp only [List.mem_map, List.mem_filter, Prod.exists, mem_join, mem_items, Bool.not_eq_true',
    onReceipt, compareBy_some, Truth.holds_of, beq_iff_eq]
  constructor
  · rintro ⟨_, item, row, ⟨⟨stored, listed, same⟩, counts⟩, rfl⟩
    exact ⟨item, stored, counts, row, listed, same⟩
  · rintro ⟨item, stored, counts, row, listed, same⟩
    exact ⟨id, item, row, ⟨⟨stored, listed, same⟩, counts⟩, rfl⟩

/-- The items of a receipt, found through the join. -/
theorem itemsTotal_eq (vrs : ReceiptState) :
    (((items db).filter fun i => (onReceipt i vrs).holds && !i.2.informational).map fun i =>
      i.2.amountCents).sum = itemsTotal db vrs.id := by
  unfold itemsTotal
  congr 2
  apply List.filter_congr
  intro i member
  simp only [onReceipt, compareBy_some, Truth.holds_of]
  rw [Bool.beq_comm]

/-- The signed amounts of the items the spend view joins, for the receipts asked for. -/
theorem spendItems_sum
    (balanced : ∀ row ∈ spendRows db, itemsTotal db row.state.id = row.state.receipt.totalCents)
    (keep : ℕ → String → Bool) :
    (((((join (fun i vcs => onReceipt i vcs.state) (items db) (spendRows db)).filter
        fun pair => !pair.1.2.informational).map spendItemOf).filter fun i =>
          keep i.userId i.currency).map fun i => i.signedAmountCents).sum =
      (((spendRows db).filter fun row =>
        keep row.state.receipt.userId row.state.receipt.currency).map fun row =>
          row.signedSpendCents).sum := by
  have sums := sum_join_where (fun i vcs => onReceipt i vcs.state) (items db) (spendRows db)
    (fun i => !i.2.informational) (fun i => i.2.amountCents)
    (fun vcs => vcs.state.receipt.totalCents) (fun vcs => spendSign vcs.state.receipt.kind)
    (fun vcs => keep vcs.state.receipt.userId vcs.state.receipt.currency)
    fun vcs member => (itemsTotal_eq vcs.state).trans (balanced vcs member)
  have signs : ((spendRows db).filter fun row =>
      keep row.state.receipt.userId row.state.receipt.currency).map (fun row =>
        row.signedSpendCents) = ((spendRows db).filter fun row =>
      keep row.state.receipt.userId row.state.receipt.currency).map fun row =>
        row.state.receipt.totalCents * spendSign row.state.receipt.kind := by
    apply List.map_congr_left
    intro row member
    exact (mem_spendRows.mp (List.mem_of_mem_filter member)).2.2
  rw [signs, ← sums, List.filter_map, List.map_map, List.filter_filter]
  simp only [Function.comp_def, spendItemOf, Bool.and_comm]

theorem incomeItems_sum
    (balanced : ∀ vrs ∈ vIncome db, itemsTotal db vrs.id = vrs.receipt.totalCents)
    (keep : ℕ → String → Bool) :
    (((vIncomeItems db).filter fun i => keep i.userId i.currency).map fun i =>
        i.amountCents).sum =
      (((vIncome db).filter fun vrs => keep vrs.receipt.userId vrs.receipt.currency).map fun vrs =>
        vrs.receipt.totalCents).sum := by
  have sums := sum_join_where onReceipt (items db) (vIncome db) (fun i => !i.2.informational)
    (fun i => i.2.amountCents) (fun vrs => vrs.receipt.totalCents) (fun _ => 1)
    (fun vrs => keep vrs.receipt.userId vrs.receipt.currency)
    fun vrs member => (itemsTotal_eq vrs).trans (balanced vrs member)
  simp only [mul_one] at sums
  rw [← sums, vIncomeItems_eq, List.filter_map, List.map_map, List.filter_filter]
  simp only [Function.comp_def, incomeItemOf, Bool.and_comm]

/-- What turning a flag over does to the total spend. -/
theorem spendRows_flip {id : ℕ} {method : PaymentMethodRow}
    (stored : (db .paymentMethods).get id = some method) :
    ((spendRows (flipStoredValue db id method)).map fun row => row.signedSpendCents).sum =
      ((spendRows db).map fun row => row.signedSpendCents).sum +
        (if method.storedValue then paidWith db id else -paidWith db id) := by
  have paid : paidWith db id = ((receipts db).map fun entry =>
      if entry.2.isConfirmed && entry.2.kind = .purchase && entry.2.paymentMethodId = some id
      then entry.2.totalCents else 0).sum := by
    rw [paidWith, vReceiptState_eq, List.filter_map, List.map_map, ← sum_filter]
    simp only [Function.comp_def, stateOf, Truth.holds_of]
    rfl
  have listed : receipts (flipStoredValue db id method) = receipts db := by
    rw [receipts, receipts_flip, receipts]
  have move : (if method.storedValue then paidWith db id else -paidWith db id) =
      ((receipts db).map fun entry => (if method.storedValue then 1 else -1) *
        if entry.2.isConfirmed && entry.2.kind = .purchase && entry.2.paymentMethodId = some id
        then entry.2.totalCents else 0).sum := by
    rw [List.sum_map_mul_left, ← paid]
    split <;> simp
  rw [move, spendRows, spendRows, listed, List.map_map, List.map_map, sum_filter, sum_filter,
    ← List.sum_map_add]
  congr 1
  apply List.map_congr_left
  intro entry member
  simp only [Function.comp_apply, spendOf, isSpend_flip stored]
  by_cases purchase : entry.2.kind = .purchase
  · by_cases named : entry.2.paymentMethodId = some id
    · cases confirmed : entry.2.isConfirmed <;> cases value : method.storedValue <;>
        simp [isSpend, paidStored, purchase, named, stored, value, confirmed, spendSign]
    · simp [purchase, named]
  · simp [purchase]

/-- The refunds and reimbursements in the spend do not depend on the flag. -/
theorem spendRows_flip_others {id : ℕ} {method : PaymentMethodRow}
    (stored : (db .paymentMethods).get id = some method) :
    ((spendRows (flipStoredValue db id method)).filter fun row =>
        row.state.receipt.kind != .purchase) =
      (spendRows db).filter fun row => row.state.receipt.kind != .purchase := by
  have listed : receipts (flipStoredValue db id method) = receipts db := by
    rw [receipts, receipts_flip, receipts]
  rw [spendRows, spendRows, listed, List.filter_map, List.filter_map, List.filter_filter,
    List.filter_filter]
  congr 1
  apply List.filter_congr
  intro entry member
  simp only [Function.comp_apply, spendOf, stateOf, isSpend_flip stored]
  by_cases purchase : entry.2.kind = .purchase
  · simp [purchase]
  · simp [purchase]

/-- The constraints on one stored receipt. -/
theorem receipt_of_admitted (valid : admitted lower db) {id : ℕ} {row : ReceiptRow}
    (stored : (db .receipts).get id = some row) :
    isBigint row.totalCents ∧ 0 ≤ row.totalCents := by
  have every := List.all_eq_true.mp valid .receipts ((schema lower).complete .receipts)
  have here := List.all_eq_true.mp every (id, row) (Rows.mem_list.mpr stored)
  simp only [bigints, check, Bool.and_eq_true, decide_eq_true_eq] at here
  exact ⟨here.1.1.1.1, here.1.1.2.1.1⟩

/-- The constraints on one stored item. -/
theorem item_of_admitted (valid : admitted lower db) {id : ℕ} {item : ItemRow}
    (stored : (db .items).get id = some item) : isBigint item.amountCents := by
  have every := List.all_eq_true.mp valid .items ((schema lower).complete .items)
  have here := List.all_eq_true.mp every (id, item) (Rows.mem_list.mpr stored)
  simp only [bigints, Bool.and_eq_true] at here
  exact here.1.1.1.1

/-- A number has a sign unless it is the least BIGINT and the sign is to be turned over. -/
theorem isBigint_signed {n : ℤ} {kind : Kind} (fits : isBigint n)
    (turns : kind ≠ .purchase → n ≠ -9223372036854775808) : isBigint (n * spendSign kind) := by
  rw [isBigint_iff] at fits ⊢
  unfold spendSign
  by_cases purchase : kind = .purchase
  · simpa [purchase] using fits
  · have other := turns purchase
    simp only [purchase, if_false]
    omega

/-- The spend view never fails. -/
theorem vCountableSpend_admitted (valid : admitted lower db) :
    vCountableSpend db = some (spendRows db) := by
  apply vCountableSpend_eq
  intro id row stored
  obtain ⟨fits, positive⟩ := receipt_of_admitted valid stored
  apply isBigint_signed fits
  intro kind
  omega

/-- The spend view still does not fail once a flag is turned over. -/
theorem vCountableSpend_flip (valid : admitted lower db) (id : ℕ) (method : PaymentMethodRow) :
    vCountableSpend (flipStoredValue db id method) =
      some (spendRows (flipStoredValue db id method)) := by
  apply vCountableSpend_eq
  intro other row stored
  rw [receipts_flip] at stored
  obtain ⟨fits, positive⟩ := receipt_of_admitted valid stored
  apply isBigint_signed fits
  intro kind
  omega

/-- The item view fails on nothing but the least BIGINT. -/
theorem vCountableSpendItems_admitted (valid : admitted lower db) (turns : negatable db) :
    vCountableSpendItems db =
      some (((join (fun i vcs => onReceipt i vcs.state) (items db) (spendRows db)).filter
        fun pair => !pair.1.2.informational).map spendItemOf) := by
  apply vCountableSpendItems_eq (vCountableSpend_admitted valid)
  intro id item entry stored counts listed spend same
  apply isBigint_signed (item_of_admitted valid stored)
  intro kind least
  have here := List.all_eq_true.mp turns (id, item) (mem_items.mpr stored)
  obtain ⟨confirmed, named, -⟩ := isSpend_iff.mp spend
  have receipt : (db .receipts).get item.receiptId = some entry.2 := same ▸ mem_receipts.mp listed
  simp only [List.mem_cons, List.not_mem_nil, or_false, kind, false_or] at named
  simp [counts, least, receipt, confirmed] at here
  exact named.elim here.1 here.2

/-- What the views account for, of contents on which none of them fails. -/
theorem accounted (db : Db store) : Accounted db (spendRows db)
    (((join (fun i vcs => onReceipt i vcs.state) (items db) (spendRows db)).filter
      fun pair => !pair.1.2.informational).map spendItemOf) where
  states := by
    rw [vReceiptState_eq, List.map_map]
    exact List.map_id _
  derived := by
    intro vrs member
    obtain ⟨-, same⟩ := mem_vReceiptState.mp member
    have derived := derived_of_timestamps vrs.receipt
    rw [same]
    simpa [stateOf] using derived
  once := counted_once db
  spent := by
    intro row
    rw [mem_spendRows, isSpend_iff, paidStored_iff]
    have sign : row.state.receipt.totalCents * spendSign row.state.receipt.kind =
        if row.state.receipt.kind = .purchase then row.state.receipt.totalCents
        else -row.state.receipt.totalCents := by
      unfold spendSign
      split <;> simp
    rw [sign]
    constructor
    · rintro ⟨shown, ⟨confirmed, named, unpaid⟩, signed⟩
      obtain ⟨-, same⟩ := mem_vReceiptState.mp shown
      exact ⟨shown, by rw [same]; simpa [stateOf] using confirmed, named, unpaid, signed⟩
    · rintro ⟨shown, confirmed, named, unpaid, signed⟩
      obtain ⟨-, same⟩ := mem_vReceiptState.mp shown
      rw [same] at confirmed
      exact ⟨shown, ⟨by simpa [stateOf] using confirmed, named, unpaid⟩, signed⟩
  earned _ := mem_vIncome
  spendItemsOnce := by
    rw [List.map_map]
    exact nodup_joined (onReceipt_key_spendRows db) _
  spentItems id := by
    rw [List.map_map]
    exact mem_joined fun vcs : CountableSpend => vcs.state
  incomeItemsOnce := by
    rw [vIncomeItems_eq, List.map_map]
    exact nodup_joined (onReceipt_key_vIncome db) _
  earnedItems id := by
    rw [vIncomeItems_eq, List.map_map]
    exact mem_joined fun vrs : ReceiptState => vrs
  spendSums := spendItems_sum
  incomeSums := incomeItems_sum

theorem flipped (valid : admitted lower db) {id : ℕ} {method : PaymentMethodRow}
    (stored : (db .paymentMethods).get id = some method) :
    Flipped db (flipStoredValue db id method) id method (spendRows db) := by
  have states : vReceiptState (flipStoredValue db id method) = vReceiptState db := by
    simp only [vReceiptState, receipts, receipts_flip]
  have income : vIncome (flipStoredValue db id method) = vIncome db := by
    simp only [vIncome, states]
  have itemRows : items (flipStoredValue db id method) = items db := by
    rw [items, flipStoredValue, Db.write_other db (by simp), items]
  refine ⟨⟨_, vCountableSpend_flip valid id method, ?_, ?_⟩, income, ?_⟩
  · exact spendRows_flip stored
  · exact spendRows_flip_others stored
  · rw [vIncomeItems, vIncomeItems, income, itemRows]

end Parts

/-- The stats views account for every confirmed receipt once, unless an item of a confirmed
refund or reimbursement is the least BIGINT. -/
theorem views_account (valid : admitted lower db) (turns : negatable db) : ViewsAccount db :=
  ⟨spendRows db, _, vCountableSpend_admitted valid, vCountableSpendItems_admitted valid turns,
    accounted db, fun _ _ stored => flipped valid stored⟩

section Books

/-- A receipt that was reviewed when it was entered. -/
def reviewedReceipt (kind : Kind) (direction : Direction) (totalCents : ℤ)
    (paymentMethodId : Option ℕ) : ReceiptRow where
  userId := 1
  totalCents := totalCents
  direction := direction
  kind := kind
  reviewedAt := some 1
  paymentMethodId := paymentMethodId
  source := .manual
  createdAt := 1
  updatedAt := 1

/-- An item without a category. -/
def itemOf (receiptId : ℕ) (amountCents : ℤ) (informational : Bool) : ItemRow where
  receiptId := receiptId
  name := none
  quantity := none
  unitPriceCents := none
  amountCents := amountCents
  categoryId := none
  informational := informational

/-- A purchase on a gift card, a refund of a part of it, and a payslip with its gross line. -/
def sampleBooks : Db store := Db.empty.writes [
  ⟨.users, 1, some ⟨"opal@example.com", "hash", none⟩, .registerUser⟩,
  ⟨.paymentMethods, 1, some ⟨1, "Gift card", true⟩, .createPaymentMethod⟩,
  ⟨.receipts, 1, some (reviewedReceipt .purchase .outflow 2500 (some 1)), .createManual⟩,
  ⟨.receipts, 2, some (reviewedReceipt .refund .inflow 500 none), .createManual⟩,
  ⟨.receipts, 3, some (reviewedReceipt .income .inflow 300000 none), .createManual⟩,
  ⟨.items, 1, some (itemOf 2 500 false), .insertItem⟩,
  ⟨.items, 2, some (itemOf 3 300000 false), .insertItem⟩,
  ⟨.items, 3, some (itemOf 3 400000 true), .insertItem⟩]

theorem views_account_of_sampleBooks : ViewsAccount sampleBooks :=
  @views_account sampleBooks id (by decide +kernel) (by decide +kernel)

/-- A refund whose item is the least BIGINT. -/
def leastBooks : Db store := Db.empty.writes [
  ⟨.users, 1, some ⟨"opal@example.com", "hash", none⟩, .registerUser⟩,
  ⟨.receipts, 1, some (reviewedReceipt .refund .inflow 0 none), .createManual⟩,
  ⟨.items, 1, some (itemOf 1 (-9223372036854775808) false), .insertItem⟩]

/-- The schema takes such an item, and the item view fails on it. -/
theorem not_views_account_of_leastBooks : admitted id leastBooks = true ∧
    vCountableSpendItems leastBooks = none ∧ ¬ ViewsAccount leastBooks := by
  have fails : vCountableSpendItems leastBooks = none := by decide +kernel
  refine ⟨by decide +kernel, fails, ?_⟩
  rintro ⟨_, _, -, shown, -⟩
  rw [fails] at shown
  cases shown

end Books

end ReceiptScanner

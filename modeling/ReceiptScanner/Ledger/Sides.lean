import ReceiptScanner.Ledger.Identity
import ReceiptScanner.Runs.Labels

/-!
# Expense and income sides

The category of an item is on the side of the kind of its receipt. Three services keep
this, each behind a lock of its own, and one of the locks is missing at each end: an
item's category is checked against a kind that was read without a lock, and a kind
change checks items that others may still recategorize. `kindsStand` and `itemsStand`
say that nobody did so meanwhile; the rest is proved from the locks.
-/

namespace ReceiptScanner

open ReadCommitted

variable {setup : Setup} {config : Config store outside Job} {c : Commit store outside}
  {h earlier : History store outside} {id : ℕ}

/-- The side of a receipt's kind. -/
def kindSide (db : Db store) (receiptId : ℕ) : Option Bool :=
  ((db .receipts).get receiptId).map fun row : ReceiptRow =>
    (rulesFor row.kind).usesIncomeCategories

/-- An item that the commit gives a category has a receipt whose side, if the commit
does not write it itself, is still what the first statement read. -/
def kindsStand (h : History store outside) (c : Commit store outside) : Bool :=
  c.writes.any (fun write => write.table = Table.receipts) || c.writes.all fun
    | ⟨.items, id, some item, _⟩ =>
        item.categoryId.isNone ||
          ((h.db .items).get id).map ItemRow.categoryId == some item.categoryId ||
          kindSide (h.upTo ((c.spans.head?.map Prod.fst).getD 0)).db item.receiptId ==
            kindSide h.db item.receiptId
    | _ => true

/-- The items of a receipt whose side the commit changes have the categories that the
check of the change read. -/
def itemsStand (h : History store outside) (c : Commit store outside) : Bool :=
  c.writes.all fun
    | ⟨.receipts, id, some row, .updateReceipt⟩ =>
        kindSide h.db id == some (rulesFor row.kind).usesIncomeCategories ||
          (h.db .items).list.all fun (itemId, item) =>
            item.receiptId != id || item.categoryId.isNone ||
              (((h.upTo (((spanOfCheck c).map Prod.fst).getD 0)).db .items).get itemId).map
                ItemRow.categoryId == some item.categoryId
    | _ => true

/-- No item is put on a receipt that has been locked since. -/
theorem LockedSince.items (reachable : Config.Reachable (application setup) config)
    (past : h <:+ config.world.history) {seen : History store outside}
    (locked : LockedSince h .receipts id seen) {itemId : ℕ} {item : ItemRow}
    (stored : (h.db .items).get itemId = some item) (on : item.receiptId = id) :
    ∃ first : ItemRow, (seen.db .items).get itemId = some first ∧ first.receiptId = id := by
  obtain ⟨suffix, since, began, held⟩ := locked
  refine (held.from began).preserves suffix
    (P := fun middle => ∀ item : ItemRow, (middle.db .items).get itemId = some item →
      item.receiptId = id → ∃ first : ItemRow, (seen.db .items).get itemId = some first ∧
        first.receiptId = id) ?_ (fun item stored on => ⟨item, stored, on⟩) item stored on
  intro d middle within _ before _ compatible item stored on
  rcases (promised_of_reachable reachable (within.trans past)).item_before stored with
    ⟨was, there, same⟩ | ⟨-, -, shared⟩
  · exact before was there (same.trans on)
  · exact absurd (compatible _ shared _ (List.mem_singleton_self _)) (by
      simp [on, Lock.conflicts, LockMode.conflicts])

/-- An extraction leaves none of the items it finds. -/
theorem Cleared.written (reachable : Config.Reachable (application setup) config)
    (past : h <:+ config.world.history) (cleared : Cleared h c id) {itemId : ℕ} {item : ItemRow}
    (stored : (h.db .items).get itemId = some item) (on : item.receiptId = id) :
    ⟨.items, itemId, none, .clearItems⟩ ∈ c.writes := by
  obtain ⟨seen, cur, locked, before, after, all⟩ := cleared
  obtain ⟨first, was, onFirst⟩ := locked.items reachable past stored on
  obtain ⟨middle, there, onMiddle⟩ := item_between reachable past before after was stored
  exact all itemId first middle was (beq_iff_eq.mpr onFirst) there
    (beq_iff_eq.mpr (onMiddle.trans on))

/-- What stands between an item and the wrong side at a commit: the item had its
category before, on a receipt of the same side, or the commit has checked the side of
the category under a lock. -/
inductive SideKept (h : History store outside) (c : Commit store outside) (itemId receiptId category : ℕ)
    (side : Bool) : Prop where
  | kept {item : ItemRow} {receipt : ReceiptRow} (stored : (h.db .items).get itemId = some item)
      (on : item.receiptId = receiptId) (has : item.categoryId = some category)
      (under : (h.db .receipts).get receiptId = some receipt)
      (same : (rulesFor receipt.kind).usesIncomeCategories = side)
  | checked {row : CategoryRow} (locked : ⟨.categories, category, .share⟩ ∈ c.locks)
      (found : (h.db .categories).get category = some row) (fits : row.isIncome = side)
      (by_ : ∃ write ∈ c.writes,
        write.label ∈ [Label.insertItem, Label.updateItem, Label.updateReceipt])

section Steps

variable {itemId category : ℕ}

/-- The labels of one commit are those of one job. -/
theorem same_job (reachable : Config.Reachable (application setup) config)
    (past : c :: h <:+ config.world.history) {first second : Write store}
    (one : first ∈ c.writes) (two : second ∈ c.writes) :
    ∃ job : Job, first.label ∈ job.labels ∧ second.label ∈ job.labels := by
  obtain ⟨job, -, every⟩ := labels_of_reachable reachable (past.subset List.mem_cons_self)
  exact ⟨job, every first one, every second two⟩

/-- An item that a commit leaves is on the side that its receipt has afterwards. -/
theorem sideKept_of_untouched (reachable : Config.Reachable (application setup) config)
    (past : c :: h <:+ config.world.history) (stand : itemsStand h c = true) {item : ItemRow}
    {receipt : ReceiptRow} (stored : (h.db .items).get itemId = some item)
    (untouched : ∀ write ∈ c.writes, ¬ write.Touches .items itemId)
    (has : item.categoryId = some category)
    (after : ((History.db (c :: h)) .receipts).get item.receiptId = some receipt) :
    SideKept h c itemId item.receiptId category (rulesFor receipt.kind).usesIncomeCategories := by
  have promised := promised_of_reachable reachable past
  have past' := (List.suffix_cons c h).trans past
  have intact := intact_of_reachable reachable past' .items itemId item stored
  have present : (h.db .receipts).get item.receiptId ≠ none :=
    intact (.receipts, item.receiptId) (by simp [schema, refs])
  have kept : ∀ before : ReceiptRow, (h.db .receipts).get item.receiptId = some before →
      (rulesFor before.kind).usesIncomeCategories = (rulesFor receipt.kind).usesIncomeCategories →
      SideKept h c itemId item.receiptId category (rulesFor receipt.kind).usesIncomeCategories :=
    fun before under same => .kept stored rfl has under same
  rcases promised.row_cases .receipts item.receiptId with
    ⟨same, -⟩ | ⟨now, label, member, isNow, wrote⟩
  · exact kept receipt (same ▸ after) rfl
  obtain rfl := isNow.symm.trans after
  cases wrote with
  | uploaded fresh => exact absurd (fresh.get List.suffix_rfl) present
  | created fresh => exact absurd (fresh.get List.suffix_rfl) present
  | @patched before body r reviewed purchaseDate under applied references side =>
      by_cases same : (rulesFor r.kind).usesIncomeCategories =
          (rulesFor before.kind).usesIncomeCategories
      · exact kept before under same.symm
      · -- the check has seen the item with this category, and has locked the category
        obtain ⟨seen, cur, locked, check, span, within, all⟩ := side same
        have stands := List.all_eq_true.mp stand _ member
        have differs : kindSide h.db item.receiptId ≠ some (rulesFor
            (ReceiptService.patchedRow r purchaseDate reviewed c.start before).kind
              ).usesIncomeCategories := by
          simp only [kindSide, under, Option.map_some, ne_eq, Option.some.injEq]
          exact fun equal => same equal.symm
        simp only [Bool.or_eq_true, beq_iff_eq, differs, false_or, List.all_eq_true] at stands
        have here := stands (itemId, item) (Rows.mem_list.mpr stored)
        simp only [bne_self_eq_false, has, Option.isNone_some, Bool.false_eq_true, false_or, check,
          Option.map_some, Option.getD_some, History.upTo_length (span.trans within)] at here
        obtain ⟨first, atSeen, hadCategory⟩ := Option.map_eq_some_iff.mp here
        obtain ⟨again, atSeen', onSame⟩ := item_between reachable past' List.suffix_rfl
          (span.trans within) atSeen stored
        obtain rfl := Option.some.inj (atSeen.symm.trans atSeen')
        have wasThere := intact_of_reachable reachable ((span.trans within).trans past') .items
          itemId first atSeen (.categories, category) (by simp [schema, refs, hadCategory])
        have isThere := intact (.categories, category) (by simp [schema, refs, has])
        obtain ⟨taken, fits⟩ := all itemId category first atSeen onSame hadCategory wasThere
          (category_stays_gone reachable past' span within wasThere isThere)
        obtain ⟨row, found⟩ := Option.ne_none_iff_exists'.mp isThere
        exact .checked taken found (fits row found) ⟨_, member, by simp⟩
  | extracted under scanned unreviewed named cleared =>
      exact absurd ⟨rfl, rfl⟩ (untouched _ (cleared.written reachable past' stored rfl))
  | requeued under => exact kept _ under rfl
  | retried under => exact kept _ under rfl
  | unlinked under => exact kept _ under rfl
  | detached under => exact kept _ under rfl
  | reclaimed under => exact kept _ under rfl
  | claimed under => exact kept _ under rfl
  | failed under => exact kept _ under rfl
  | verified under => exact kept _ under rfl

/-- An item that a commit gives a category is on the side that its receipt has then. -/
theorem sideKept_of_fits (reachable : Config.Reachable (application setup) config)
    (past : c :: h <:+ config.world.history) (stand : kindsStand h c = true) {item : ItemRow}
    {label : Label} {userId : ℕ} {kind : Kind} {receipt : ReceiptRow}
    (member : ⟨.items, itemId, some item, label⟩ ∈ c.writes)
    (isItem : label ∈ [Label.insertItem, .updateItem, .updateReceipt])
    (known : KindKnown h c item.receiptId kind) (fits : CategoryFits h c userId kind item.categoryId)
    (changed : ((h.db .items).get itemId).map ItemRow.categoryId ≠ some item.categoryId)
    (has : item.categoryId = some category)
    (after : ((History.db (c :: h)) .receipts).get item.receiptId = some receipt) :
    SideKept h c itemId item.receiptId category (rulesFor receipt.kind).usesIncomeCategories := by
  have promised := promised_of_reachable reachable past
  obtain ⟨locked, row, found, -, side⟩ := fits category has
  refine .checked locked found (side.trans ?_) ⟨_, member, isItem⟩
  cases known with
  | @written row' label' wrote same =>
      obtain rfl : row' = receipt :=
        Option.some.inj ((promised.get (by decide) wrote).symm.trans after)
      rw [same]
  | @read seen finished row' suffix first stored same alone =>
      have standing : ((History.db (c :: h)) .receipts).get item.receiptId =
          (h.db .receipts).get item.receiptId := by
        rw [History.db_cons, Db.writes_other_table _ alone]
      have elsewhere : c.writes.any (fun write => write.table = Table.receipts) = false := by
        simpa using alone
      simp only [kindsStand, elsewhere, Bool.false_or] at stand
      have here := List.all_eq_true.mp stand _ member
      simp only [has, Option.isNone_some, Bool.false_or, Bool.or_eq_true, beq_iff_eq, first,
        Option.map_some, Option.getD_some, History.upTo_length suffix] at here
      rcases here with unchanged | sameSide
      · exact absurd unchanged (has ▸ changed)
      · simp only [kindSide, stored, standing.symm.trans after, Option.map_some,
          Option.some.injEq] at sameSide
        rw [← sameSide, same]

/-- After a commit, every item with a category is on the side of its receipt, if it was
before, and if the category has not changed sides since. -/
theorem sideKept (reachable : Config.Reachable (application setup) config)
    (past : c :: h <:+ config.world.history) (kinds : kindsStand h c = true)
    (items : itemsStand h c = true) {item : ItemRow} {receipt : ReceiptRow}
    (stored : ((History.db (c :: h)) .items).get itemId = some item)
    (has : item.categoryId = some category)
    (after : ((History.db (c :: h)) .receipts).get item.receiptId = some receipt) :
    SideKept h c itemId item.receiptId category (rulesFor receipt.kind).usesIncomeCategories := by
  have promised := promised_of_reachable reachable past
  rcases promised.row_cases .items itemId with ⟨same, untouched⟩ | ⟨now, label, member, isNow, wrote⟩
  · exact sideKept_of_untouched reachable past items (same ▸ stored) untouched has after
  obtain rfl := isNow.symm.trans stored
  cases wrote with
  | inserted owned known fits shared fresh =>
      refine sideKept_of_fits reachable past kinds member (by simp) known fits ?_ has after
      simp [fresh.get List.suffix_rfl]
  | @updated userId kind input before was owned known fits =>
      by_cases unchanged : before.categoryId = input.categoryId
      · -- a commit that updates an item writes no receipt
        have standing : ((History.db (c :: h)) .receipts).get before.receiptId =
            (h.db .receipts).get before.receiptId := by
          rcases promised.row_cases .receipts before.receiptId with
            ⟨same, -⟩ | ⟨_, label, other, -, wrote⟩
          · exact same
          · obtain ⟨job, one, two⟩ := same_job reachable past member other
            cases wrote <;> cases job <;> simp [Job.labels] at one two
        exact .kept was rfl (unchanged.trans has) (standing ▸ after) rfl
      · refine sideKept_of_fits reachable past kinds member (by simp) known
          (fits.resolve_left fun same => unchanged same.symm) ?_ has after
        simpa [was, ItemService.itemRow] using unchanged
  | uncategorized => cases has

end Steps

/-- Nobody has changed a side behind a check, in the whole run. -/
def SidesStand (h : History store outside) : Prop :=
  ∀ (c : Commit store outside) (earlier : History store outside), c :: earlier <:+ h →
    (kindsStand earlier c && itemsStand earlier c) = true

/-- While a category is locked, every item that comes to have it is on the new side. -/
theorem FlipChecked.all {category : ℕ} {isIncome : Bool}
    (reachable : Config.Reachable (application setup) config)
    (past : h <:+ config.world.history) (stand : SidesStand config.world.history)
    (checked : FlipChecked h category isIncome) {itemId : ℕ} {item : ItemRow} {receipt : ReceiptRow}
    (stored : (h.db .items).get itemId = some item) (has : item.categoryId = some category)
    (under : (h.db .receipts).get item.receiptId = some receipt) :
    (rulesFor receipt.kind).usesIncomeCategories = isIncome := by
  obtain ⟨seen, ⟨suffix, since, began, held⟩, all⟩ := checked
  refine (held.from began).preserves suffix
    (P := fun middle => ∀ (itemId : ℕ) (item : ItemRow) (receipt : ReceiptRow),
      (middle.db .items).get itemId = some item → item.categoryId = some category →
      (middle.db .receipts).get item.receiptId = some receipt →
      (rulesFor receipt.kind).usesIncomeCategories = isIncome) ?_
    (fun itemId item receipt stored has under => all itemId item receipt stored has under)
    itemId item receipt stored has under
  intro d middle within _ before _ compatible itemId item receipt stored has after
  have past' := within.trans past
  obtain ⟨kinds, items⟩ := Bool.and_eq_true_iff.mp (stand d middle past')
  cases sideKept reachable past' kinds items stored has after with
  | kept stored on has under same => exact same ▸ before itemId _ _ stored has (on ▸ under)
  | checked locked =>
      exact absurd (compatible _ locked _ (List.mem_singleton_self _)) (by
        simp [Lock.conflicts, LockMode.conflicts])

/-- Every item with a category is on the side of the category. -/
def Sided (h : History store outside) : Prop :=
  ∀ itemId category, ∀ item : ItemRow, ∀ row : CategoryRow, ∀ receipt : ReceiptRow,
    (h.db .items).get itemId = some item → item.categoryId = some category →
    (h.db .categories).get category = some row →
    (h.db .receipts).get item.receiptId = some receipt →
    row.isIncome = (rulesFor receipt.kind).usesIncomeCategories

/-- One commit keeps the items on their sides. -/
theorem Sided.cons (reachable : Config.Reachable (application setup) config)
    (past : c :: h <:+ config.world.history) (stand : SidesStand config.world.history)
    (sided : Sided h) : Sided (c :: h) := by
  intro itemId category item row receipt stored has found after
  have promised := promised_of_reachable reachable past
  have past' := (List.suffix_cons c h).trans past
  obtain ⟨kinds, items⟩ := Bool.and_eq_true_iff.mp (stand c h past)
  have side := sideKept reachable past kinds items stored has after
  rcases promised.row_cases .categories category with
    ⟨same, -⟩ | ⟨now, label, member, isNow, wrote⟩
  · rw [same] at found
    cases side with
    | kept stored on has under same =>
        exact (sided itemId category _ row _ stored has found (on ▸ under)).trans same
    | checked locked found' fits =>
        obtain rfl := Option.some.inj (found.symm.trans found')
        exact fits
  obtain rfl := isNow.symm.trans found
  cases wrote with
  | created fresh =>
      have gone := fresh.get List.suffix_rfl
      cases side with
      | @kept item receipt stored on has =>
          exact absurd gone (intact_of_reachable reachable past' .items itemId item stored
            (.categories, category) (by simp [schema, refs, has]))
      | checked locked found' => simp [gone] at found'
  | @updated before name isIncome was flip =>
      cases side with
      | @kept item receipt' stored on has under same =>
          by_cases flips : isIncome = before.isIncome
          · exact flips.trans ((sided itemId category _ before _ stored has was (on ▸ under)).trans
              same)
          · exact ((flip flips).all reachable past' stand stored has (on ▸ under)).symm.trans same
      | checked locked found' fits by_ =>
          -- a commit that updates a category writes nothing else
          obtain ⟨write, wrote, isOther⟩ := by_
          obtain ⟨job, one, two⟩ := same_job reachable past member wrote
          cases job <;> simp [Job.labels] at one
          simp only [Job.labels, List.mem_singleton] at two
          simp [two] at isOther

/-- Every item with a category is on the side of its receipt's kind, in every run in which
nobody has changed a side behind a check. -/
theorem items_on_side (reachable : Config.Reachable (application setup) config)
    (stand : ∀ (c : Commit store outside) (earlier : History store outside),
      c :: earlier <:+ config.world.history →
        (kindsStand earlier c && itemsStand earlier c) = true) :
    ∀ itemId category, ∀ item : ItemRow,
      (config.world.history.db .items).get itemId = some item → item.categoryId = some category →
      ∃ row : CategoryRow, ∃ receipt : ReceiptRow,
        (config.world.history.db .categories).get category = some row ∧
        (config.world.history.db .receipts).get item.receiptId = some receipt ∧
        row.isIncome = (rulesFor receipt.kind).usesIncomeCategories := by
  intro itemId category item stored has
  have sided : Sided config.world.history := by
    refine invariant_of_reachable reachable (fun _ _ _ _ _ stored => ?_)
      (fun c earlier past _ before => before.cons reachable past stand) _ List.suffix_rfl
    simp at stored
  have intact := intact_of_reachable reachable List.suffix_rfl .items itemId item stored
  obtain ⟨row, found⟩ := Option.ne_none_iff_exists'.mp
    (intact (.categories, category) (by simp [schema, refs, has]))
  obtain ⟨receipt, under⟩ := Option.ne_none_iff_exists'.mp
    (intact (.receipts, item.receiptId) (by simp [schema, refs]))
  exact ⟨row, receipt, found, under, sided itemId category item row receipt stored has found under⟩

/-- One user enters a purchase under the first seeded category. -/
@[irreducible] def categorized : Config store outside Job :=
  Config.ran (application demo) (registering 0 "ann" "secret" ++ entering 1 1 4
    (.object [("total_cents", .unsigned 100), ("category_id", .unsigned 1)])) (by decide +kernel)

theorem reachable_categorized : Config.Reachable (application demo) categorized := by
  unfold categorized
  exact Config.reachable_ran _

theorem items_on_side_of_categorized : ∃ row : CategoryRow, ∃ receipt : ReceiptRow,
    (categorized.world.history.db .categories).get 1 = some row ∧
    (categorized.world.history.db .receipts).get 1 = some receipt ∧
    row.isIncome = (rulesFor receipt.kind).usesIncomeCategories := by
  have item : ((categorized.world.history.db .items).get 1).map
      (fun item : ItemRow => (item.receiptId, item.categoryId)) = some (1, some 1) := by
    decide +kernel
  obtain ⟨item, stored, fields⟩ := Option.map_eq_some_iff.mp item
  obtain ⟨on, has⟩ := Prod.mk.inj fields
  obtain ⟨row, receipt, found, under, side⟩ := items_on_side reachable_categorized
    (History.every_iff.mp (by decide +kernel)) 1 1 item stored has
  rw [on] at under
  exact ⟨row, receipt, found, under, side⟩

/-- While an expense item is being added to a purchase, its owner makes it an income. -/
@[irreducible] def raced : Config store outside Job :=
  Config.ran (application demo) (registering 0 "ann" "secret" ++
    entering 1 1 3 (.object [("total_cents", .unsigned 100)]) ++
    [.spawn (.createItem 1 1 (.object [("amount_cents", .unsigned 100),
      ("category_id", .unsigned 1)])), .step 2] ++ statements 2 1 ++
    [.spawn (.updateReceipt 1 1 (.object [("kind", .string "income")])), .step 3] ++
    statements 3 4 ++ [.step 3, .step 3] ++ statements 2 5 ++ [.step 2, .step 2])
    (by decide +kernel)

theorem reachable_raced : Config.Reachable (application demo) raced := by
  unfold raced
  exact Config.reachable_ran _

theorem not_items_on_side_of_raced : ¬ ∀ config : Config store outside Job,
    Config.Reachable (application demo) config → ∀ itemId category, ∀ item : ItemRow,
      (config.world.history.db .items).get itemId = some item → item.categoryId = some category →
      ∃ row : CategoryRow, ∃ receipt : ReceiptRow,
        (config.world.history.db .categories).get category = some row ∧
        (config.world.history.db .receipts).get item.receiptId = some receipt ∧
        row.isIncome = (rulesFor receipt.kind).usesIncomeCategories := by
  intro always
  have item : ((raced.world.history.db .items).get 2).map
      (fun item : ItemRow => (item.receiptId, item.categoryId)) = some (1, some 1) := by
    decide +kernel
  obtain ⟨item, stored, fields⟩ := Option.map_eq_some_iff.mp item
  obtain ⟨on, has⟩ := Prod.mk.inj fields
  obtain ⟨row, receipt, found, under, side⟩ := always raced reachable_raced 2 1 item stored has
  have sides : ((raced.world.history.db .categories).get 1).map CategoryRow.isIncome = some false ∧
      kindSide raced.world.history.db 1 = some true := by decide +kernel
  rw [on] at under
  rw [kindSide, under, found] at sides
  have one : row.isIncome = false := Option.some.inj sides.1
  have other : (rulesFor receipt.kind).usesIncomeCategories = true := Option.some.inj sides.2
  simp [one, other] at side

end ReceiptScanner

import ReceiptScanner.Runs.Verified

/-!
# Rows keep their identity

An id is never given twice, so a row that is there at two instants has been there all
the time between; and no statement changes the owner of a receipt, or the receipt of
an item.
-/

namespace ReceiptScanner

open ReadCommitted

variable {setup : Setup} {config : Config store outside Job} {c : Commit store outside}
  {h middle seen : History store outside} {id : ℕ}

/-- The row that a written receipt was, if its id was not new. -/
theorem ReceiptWrote.before {after : ReceiptRow} {label : Label}
    (wrote : ReceiptWrote setup h c id (some after) label) :
    (Unused h .receipts id ∧ (label = .uploadReceipt ∨ label = .createManual)) ∨
      ∃ before : ReceiptRow, (h.db .receipts).get id = some before ∧
        after.userId = before.userId := by
  cases wrote with
  | uploaded fresh => exact Or.inl ⟨fresh, Or.inl rfl⟩
  | created fresh => exact Or.inl ⟨fresh, Or.inr rfl⟩
  | requeued stored => exact Or.inr ⟨_, stored, rfl⟩
  | patched stored => exact Or.inr ⟨_, stored, rfl⟩
  | retried stored => exact Or.inr ⟨_, stored, rfl⟩
  | unlinked stored => exact Or.inr ⟨_, stored, rfl⟩
  | detached stored => exact Or.inr ⟨_, stored, rfl⟩
  | reclaimed stored => exact Or.inr ⟨_, stored, rfl⟩
  | claimed stored => exact Or.inr ⟨_, stored, rfl⟩
  | failed stored => exact Or.inr ⟨_, stored, rfl⟩
  | extracted stored => exact Or.inr ⟨_, stored, rfl⟩
  | verified stored => exact Or.inr ⟨_, stored, rfl⟩

/-- A receipt keeps its owner, and its id is not given again. -/
theorem receipt_between (reachable : Config.Reachable (application setup) config)
    (past : h <:+ config.world.history) (before : seen <:+ middle) (after : middle <:+ h)
    {first last : ReceiptRow} (was : (seen.db .receipts).get id = some first)
    (still : (h.db .receipts).get id = some last) :
    ∃ row : ReceiptRow, (middle.db .receipts).get id = some row ∧ row.userId = last.userId := by
  induction h generalizing last with
  | nil => exact ⟨last, List.suffix_nil.mp after ▸ still, rfl⟩
  | cons c h ih =>
      rcases List.suffix_cons_iff.mp after with rfl | inside
      · exact ⟨last, still, rfl⟩
      have past' := (List.suffix_cons c h).trans past
      rcases (promised_of_reachable reachable past).row_cases .receipts id with
        ⟨same, -⟩ | ⟨now, label, -, isNow, wrote⟩
      · exact ih past' inside (same ▸ still)
      · obtain rfl := isNow.symm.trans still
        rcases ReceiptWrote.before wrote with ⟨fresh, -⟩ | ⟨before, stored, owner⟩
        · simp [fresh.get (before.trans inside)] at was
        · obtain ⟨row, there, same⟩ := ih past' inside stored
          exact ⟨row, there, same.trans owner.symm⟩

/-- No write takes a review back. -/
theorem ReceiptWrote.reviewed {before after : ReceiptRow} {label : Label}
    (wrote : ReceiptWrote setup h c id (some after) label)
    (stored : (h.db .receipts).get id = some before) (reviewed : before.reviewedAt.isSome) :
    after.reviewedAt.isSome := by
  have kept {row : ReceiptRow} (is : (h.db .receipts).get id = some row) : row.reviewedAt.isSome :=
    Option.some.inj (stored.symm.trans is) ▸ reviewed
  cases wrote with
  | uploaded fresh => simp [fresh.get List.suffix_rfl] at stored
  | created => rfl
  | requeued stored => exact (kept stored :)
  | retried stored => exact (kept stored :)
  | unlinked stored => exact (kept stored :)
  | detached stored => exact (kept stored :)
  | reclaimed stored => exact (kept stored :)
  | claimed stored => exact (kept stored :)
  | failed stored => exact (kept stored :)
  | extracted stored => exact (kept stored :)
  | patched stored =>
      simp only [ReceiptService.patchedRow]
      split
      · rfl
      · exact kept stored
  | verified stored =>
      simp only [ScanWorker.verifiedRow]
      split
      · rfl
      · exact kept stored

/-- A reviewed receipt stays reviewed. -/
theorem reviewed_stays (reachable : Config.Reachable (application setup) config)
    (past : h <:+ config.world.history) (before : seen <:+ h) {first last : ReceiptRow}
    (was : (seen.db .receipts).get id = some first) (still : (h.db .receipts).get id = some last)
    (reviewed : first.reviewedAt.isSome) : last.reviewedAt.isSome := by
  induction h generalizing last with
  | nil =>
      obtain rfl := List.suffix_nil.mp before
      exact Option.some.inj (was.symm.trans still) ▸ reviewed
  | cons c h ih =>
      rcases List.suffix_cons_iff.mp before with rfl | inside
      · exact Option.some.inj (was.symm.trans still) ▸ reviewed
      obtain ⟨row, there, -⟩ := receipt_between reachable past inside (List.suffix_cons c h) was still
      have earlier := ih ((List.suffix_cons c h).trans past) inside there
      rcases (promised_of_reachable reachable past).row_cases .receipts id with
        ⟨same, -⟩ | ⟨now, label, -, isNow, wrote⟩
      · obtain rfl := Option.some.inj (there.symm.trans (same ▸ still))
        exact earlier
      · obtain rfl := isNow.symm.trans still
        exact ReceiptWrote.reviewed wrote there earlier

/-- A category that has been removed does not come back. -/
theorem category_stays_gone (reachable : Config.Reachable (application setup) config)
    (past : h <:+ config.world.history)
    (before : seen <:+ middle) (after : middle <:+ h)
    (was : (seen.db .categories).get id ≠ none) (still : (h.db .categories).get id ≠ none) :
    (middle.db .categories).get id ≠ none := by
  induction h with
  | nil => exact List.suffix_nil.mp after ▸ still
  | cons c h ih =>
      rcases List.suffix_cons_iff.mp after with rfl | inside
      · exact still
      · refine ih ((List.suffix_cons c h).trans past) inside ?_
        rcases (promised_of_reachable reachable past).row_cases .categories id with
          ⟨same, -⟩ | ⟨now, label, -, isNow, wrote⟩
        · rwa [← same]
        · cases wrote with
          | created fresh => exact absurd (fresh.get (before.trans inside)) was
          | updated stored => simp [stored]
          | removed stored => simp [stored]

/-- An item that stands after a commit was on the same receipt before it, or is inserted
by it, under a lock of its receipt. -/
theorem Promised.item_before (promised : Promised setup h c) {item : ItemRow}
    (stored : ((History.db (c :: h)) .items).get id = some item) :
    (∃ before : ItemRow, (h.db .items).get id = some before ∧
        before.receiptId = item.receiptId) ∨
      (⟨.items, id, some item, .insertItem⟩ ∈ c.writes ∧ Unused h .items id ∧
        ⟨.receipts, item.receiptId, .keyShare⟩ ∈ c.locks) := by
  rcases promised.row_cases .items id with ⟨same, -⟩ | ⟨now, label, member, isNow, wrote⟩
  · exact Or.inl ⟨item, same ▸ stored, rfl⟩
  · obtain rfl := isNow.symm.trans stored
    cases wrote with
    | inserted _ _ _ locked fresh => exact Or.inr ⟨member, fresh, locked⟩
    | updated was => exact Or.inl ⟨_, was, rfl⟩
    | uncategorized was => exact Or.inl ⟨_, was, rfl⟩

/-- An item keeps its receipt, and its id is not given again. -/
theorem item_between (reachable : Config.Reachable (application setup) config)
    (past : h <:+ config.world.history) (before : seen <:+ middle) (after : middle <:+ h)
    {first last : ItemRow}
    (was : (seen.db .items).get id = some first) (still : (h.db .items).get id = some last) :
    ∃ item : ItemRow, (middle.db .items).get id = some item ∧ item.receiptId = last.receiptId := by
  induction h generalizing last with
  | nil => exact ⟨last, List.suffix_nil.mp after ▸ still, rfl⟩
  | cons c h ih =>
      rcases List.suffix_cons_iff.mp after with rfl | inside
      · exact ⟨last, still, rfl⟩
      have past' := (List.suffix_cons c h).trans past
      rcases (promised_of_reachable reachable past).item_before still with
        ⟨item, stored, on⟩ | ⟨-, fresh, -⟩
      · obtain ⟨row, there, same⟩ := ih past' inside stored
        exact ⟨row, there, same.trans on⟩
      · simp [fresh.get (before.trans inside)] at was

end ReceiptScanner

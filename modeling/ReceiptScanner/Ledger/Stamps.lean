import ReceiptScanner.Ledger.Identity

/-!
# Stamps

`updated_at`, `proposed_at` and `reviewed_at` are start times of transactions, and no
two transactions that commit share one. So a receipt that carries the same `updated_at`
at two instants has kept, between them, every field that a verify scan compares.
-/

namespace ReceiptScanner

open ReadCommitted

variable {setup : Setup} {config : Config store outside Job} {c : Commit store outside}
  {h seen : History store outside} {id : ℕ}

/-- The fields of a receipt that do not change without its `updated_at`. -/
structure Compared where
  totalCents : ℤ
  currency : String
  merchant : Option String
  purchaseDate : Option Date
  proposedAt : Option ℕ
  reviewedAt : Option ℕ

/-- Those fields of a row. -/
def ReceiptRow.compared (row : ReceiptRow) : Compared where
  totalCents := row.totalCents
  currency := row.currency
  merchant := row.merchant
  purchaseDate := row.purchaseDate
  proposedAt := row.proposedAt
  reviewedAt := row.reviewedAt

/-- A written receipt is stamped with the start of its transaction, or keeps its stamp
and every compared field. -/
theorem ReceiptWrote.stamped {after : ReceiptRow} {label : Label}
    (wrote : ReceiptWrote setup h c id (some after) label) :
    after.updatedAt = c.start ∨ ∃ before : ReceiptRow, (h.db .receipts).get id = some before ∧
      after.updatedAt = before.updatedAt ∧ after.compared = before.compared := by
  cases wrote with
  | uploaded => exact Or.inl rfl
  | created => exact Or.inl rfl
  | patched => exact Or.inl rfl
  | retried => exact Or.inl rfl
  | extracted => exact Or.inl rfl
  | verified => exact Or.inl rfl
  | requeued stored => exact Or.inr ⟨_, stored, rfl, rfl⟩
  | unlinked stored => exact Or.inr ⟨_, stored, rfl, rfl⟩
  | detached stored => exact Or.inr ⟨_, stored, rfl, rfl⟩
  | reclaimed stored => exact Or.inr ⟨_, stored, rfl, rfl⟩
  | claimed stored => exact Or.inr ⟨_, stored, rfl, rfl⟩
  | failed stored => exact Or.inr ⟨_, stored, rfl, rfl⟩

/-- Some commit of the history began at this instant. -/
def BeganAt (h : History store outside) (instant : ℕ) : Prop := ∃ c ∈ h, c.start = instant

theorem BeganAt.cons {instant : ℕ} (began : BeganAt h instant) : BeganAt (c :: h) instant := by
  obtain ⟨other, member, same⟩ := began
  exact ⟨other, List.mem_cons_of_mem _ member, same⟩

/-- Every stamp of the row is the start of a commit. -/
structure Stamped (h : History store outside) (row : ReceiptRow) : Prop where
  updated : BeganAt h row.updatedAt
  proposed : ∀ instant, row.proposedAt = some instant → BeganAt h instant
  reviewed : ∀ instant, row.reviewedAt = some instant → BeganAt h instant

/-- A row with the stamps of a stamped one. -/
theorem Stamped.keep {row after : ReceiptRow} (stamped : Stamped h row)
    (updated : after.updatedAt = row.updatedAt) (proposed : after.proposedAt = row.proposedAt)
    (reviewed : after.reviewedAt = row.reviewedAt) : Stamped (c :: h) after :=
  ⟨updated ▸ stamped.updated.cons,
    fun instant at_ => (stamped.proposed instant (proposed ▸ at_)).cons,
    fun instant at_ => (stamped.reviewed instant (reviewed ▸ at_)).cons⟩

theorem Stamped.cons {row : ReceiptRow} (stamped : Stamped h row) : Stamped (c :: h) row :=
  stamped.keep rfl rfl rfl

/-- What a commit writes is stamped, if every receipt before it is. -/
theorem Stamped.wrote {after : ReceiptRow} {label : Label}
    (before : ∀ id (row : ReceiptRow), (h.db .receipts).get id = some row → Stamped h row)
    (wrote : ReceiptWrote setup h c id (some after) label) : Stamped (c :: h) after := by
  have now : BeganAt (c :: h) c.start := ⟨c, List.mem_cons_self, rfl⟩
  have isNow : ∀ instant, some c.start = some instant → BeganAt (c :: h) instant :=
    fun _ same => Option.some.inj same ▸ now
  cases wrote with
  | uploaded => exact ⟨now, fun _ at_ => (nomatch at_), fun _ at_ => (nomatch at_)⟩
  | created => exact ⟨now, fun _ at_ => (nomatch at_), isNow⟩
  | requeued stored => exact (before _ _ stored).keep rfl rfl rfl
  | unlinked stored => exact (before _ _ stored).keep rfl rfl rfl
  | detached stored => exact (before _ _ stored).keep rfl rfl rfl
  | reclaimed stored => exact (before _ _ stored).keep rfl rfl rfl
  | claimed stored => exact (before _ _ stored).keep rfl rfl rfl
  | failed stored => exact (before _ _ stored).keep rfl rfl rfl
  | retried stored => exact ⟨now, (before _ _ stored).cons.2, (before _ _ stored).cons.3⟩
  | @patched row _ _ reviewed _ stored =>
      refine ⟨now, (before _ _ stored).cons.2, fun instant at_ => ?_⟩
      simp only [ReceiptService.patchedRow] at at_
      split at at_
      · exact isNow instant at_
      · exact (before _ _ stored).cons.3 instant at_
  | extracted stored => exact ⟨now, isNow, (before _ _ stored).cons.3⟩
  | @verified row _ _ _ allMatch _ _ stored =>
      refine ⟨now, isNow, fun instant at_ => ?_⟩
      simp only [ScanWorker.verifiedRow] at at_
      split at at_
      · exact isNow instant at_
      · exact (before _ _ stored).cons.3 instant at_

/-- The stamps of every receipt are starts of commits. -/
theorem stamped_of_reachable (reachable : Config.Reachable (application setup) config) :
    ∀ h : History store outside, h <:+ config.world.history → ∀ id (row : ReceiptRow),
      (h.db .receipts).get id = some row → Stamped h row := by
  refine invariant_of_reachable reachable (fun _ _ stored => (nomatch stored)) ?_
  intro c earlier _ promised before id row stored
  rcases promised.row_cases .receipts id with ⟨same, -⟩ | ⟨now, label, -, isNow, wrote⟩
  · exact (before id row (same ▸ stored)).cons
  · obtain rfl := isNow.symm.trans stored
    exact Stamped.wrote before wrote

/-- A receipt with the same `updated_at` at two instants has the same compared fields. -/
theorem compared_eq (reachable : Config.Reachable (application setup) config)
    (past : h <:+ config.world.history) (before : seen <:+ h) {first last : ReceiptRow}
    (was : (seen.db .receipts).get id = some first) (still : (h.db .receipts).get id = some last)
    (same : last.updatedAt = first.updatedAt) : last.compared = first.compared := by
  obtain ⟨since, rfl⟩ := before
  obtain ⟨old, isOld, began⟩ :=
    (stamped_of_reachable reachable seen ((List.suffix_append _ _).trans past) id first was).updated
  have apart := (timely_of_reachable reachable).distinct.sublist past.sublist
  -- Either nothing compared has changed, or the stamp is the start of a later commit.
  suffices cases : last.compared = first.compared ∨ ∃ d ∈ since, d.start = last.updatedAt by
    rcases cases with equal | ⟨d, isNew, later⟩
    · exact equal
    · exact absurd (later.trans (same.trans began.symm))
        ((List.pairwise_append.mp apart).2.2 d isNew old isOld)
  clear same apart
  induction since generalizing last with
  | nil => exact Or.inl (congrArg ReceiptRow.compared (Option.some.inj (still.symm.trans was)))
  | cons c since ih =>
      have past' := (List.suffix_cons c (since ++ seen)).trans past
      have grow : ∀ row : ReceiptRow, (row.compared = first.compared ∨
          ∃ d ∈ since, d.start = row.updatedAt) → row.compared = first.compared ∨
          ∃ d ∈ c :: since, d.start = row.updatedAt := fun row cases =>
        cases.imp_right fun ⟨d, member, at_⟩ => ⟨d, List.mem_cons_of_mem _ member, at_⟩
      rcases (promised_of_reachable reachable past).row_cases .receipts id with
        ⟨kept, -⟩ | ⟨now, label, -, isNow, wrote⟩
      · exact grow last (ih past' (kept ▸ still))
      · obtain rfl := isNow.symm.trans still
        rcases ReceiptWrote.stamped wrote with fresh | ⟨row, stored, stamp, fields⟩
        · exact Or.inr ⟨c, List.mem_cons_self, fresh.symm⟩
        · rw [stamp, fields]
          exact grow row (ih past' stored)

end ReceiptScanner

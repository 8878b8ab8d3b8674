import ReceiptScanner.Ledger.Verdict
import ReceiptScanner.Runs.Edits
import Mathlib.Data.Finset.Basic

/-!
# Edits as if one after another

What a receipt and an item come to is what their committed edits make of them, each run
alone on what the one before it left, in commit order. `Job.onReceipt` and `Job.onItem` say
what a committed job, run alone, does to one row; a run replays them.
-/

namespace ReceiptScanner

open ReadCommitted

variable {setup : Setup} {config : Config store outside Job} {c : Commit store outside}
  {h base : History store outside} {id : ℕ}

/-- What users and scans edit of a receipt: the fields of a PATCH, the AUD equivalent
that goes with them, and the instants that the review state is derived from. -/
structure Sheet where
  editable : EditableReceipt
  audEquivalentCents : Option ℤ
  proposedAt : Option ℕ
  reviewedAt : Option ℕ
deriving DecidableEq

/-- That part of a row. -/
def ReceiptRow.sheet (row : ReceiptRow) : Sheet where
  editable := ReceiptService.rowToEditable row
  audEquivalentCents := row.audEquivalentCents
  proposedAt := row.proposedAt
  reviewedAt := row.reviewedAt

/-- Rows with the same sheet are in the same review state. -/
theorem review_of_sheet {left right : ReceiptRow} (same : left.sheet = right.sheet) :
    left.needsReview = right.needsReview ∧ left.isConfirmed = right.isConfirmed := by
  have proposed : left.proposedAt = right.proposedAt := congrArg Sheet.proposedAt same
  have reviewed : left.reviewedAt = right.reviewedAt := congrArg Sheet.reviewedAt same
  simp [ReceiptRow.needsReview, ReceiptRow.isConfirmed, proposed, reviewed]

instance (row : ReceiptRow) (result : ScanResult) : Decidable (Agrees setup row result) :=
  decidable_of_iff
    (result.totalCents = row.totalCents ∧ result.currency = row.currency ∧
      (∀ before ∈ row.purchaseDate, ∀ scanned ∈ result.purchaseDate,
        (ScanWorker.daysBetween before.val scanned).toOption.any
          (fun days => |days| ≤ setup.matchDateDays) = true) ∧
      ∀ merchant ∈ row.merchant, (result.merchant.isSome ∨ result.storeNameRaw.isSome) →
        setup.merchantMatchThreshold ≤ closest setup merchant result) <| by
  have within : ∀ (days : Except Err ℤ),
      days.toOption.any (fun days => |days| ≤ setup.matchDateDays) = true ↔
        ∃ count, days = .ok count ∧ |count| ≤ setup.matchDateDays := by
    intro days
    cases days <;> simp [Except.toOption]
  simp only [within, Option.mem_def]
  exact ⟨fun ⟨total, currency, dates, merchants⟩ => ⟨total, currency,
      fun before scanned was is => dates before was scanned is, merchants⟩,
    fun agrees => ⟨agrees.total, agrees.currency,
      fun before was scanned is => agrees.dates before scanned was is, agrees.merchants⟩⟩

namespace Alone

/-- PATCH /receipts/:id, run alone on a row. -/
def updateReceipt (setup : Setup) (body : Json) (now : ℕ) (row : ReceiptRow) : Except Err ReceiptRow := do
  let (r, reviewed) ← applyReceiptPatch (ReceiptService.rowToEditable row) body
  let purchaseDate ← castDate? setup r.purchaseDate
  pure (ReceiptService.patchedRow r purchaseDate reviewed now row)

/-- The write of a scan that the provider answers with `raw`, run alone on a row. The
item count of the snapshot plays no part in what the row becomes. -/
def writeScan (setup : Setup) (raw : ScanResult) (now : ℕ) (row : ReceiptRow) :
    Except Err ReceiptRow := do
  let result ← ScanWorker.validateResult raw row.reviewedAt.isSome
  let purchaseDate ← castDate? setup result.purchaseDate
  if row.reviewedAt.isSome then
    pure (ScanWorker.verifiedRow result purchaseDate (Agrees setup row result) now row)
  else do
    let kind ← ScanWorker.kindNamed result.kind
    pure (ScanWorker.extractedRow result kind purchaseDate
      (ScanWorker.rowToSnapshot Db.empty 0 row) now row)

end Alone

/-- The commit writes the result of a scan to the receipt. -/
def writesScan (c : Commit store outside) (id : ℕ) : Bool :=
  c.writes.any fun write => write.table = .receipts && write.id = id &&
    (write.label = .writeExtraction || write.label = .writeVerify)

/-- What a committed job does to a receipt when it runs alone, at the start time of its
transaction. A scan has the answer of the provider to work on. -/
def Job.onReceipt (setup : Setup) (c : Commit store outside) (id : ℕ) (row : ReceiptRow) :
    Job → Except Err ReceiptRow
  | .updateReceipt _ receiptId body =>
      if receiptId = id then Alone.updateReceipt setup body c.start row else pure row
  | .process _ | .applyResult _ _ =>
      match lastScan c.calls with
      | some (_, .ok raw) =>
          if writesScan c id then Alone.writeScan setup raw c.start row else pure row
      | _ => pure row
  | .removePaymentMethod _ methodId =>
      pure (if row.paymentMethodId = some methodId then { row with paymentMethodId := none } else row)
  | .deleteReceipt _ target =>
      pure (if row.offsetsReceiptId = some target then { row with offsetsReceiptId := none } else row)
  | _ => pure row

/-- The jobs of these commits, run one after another on a receipt, in commit order. The
list has the latest commit first. -/
def replayReceipt (setup : Setup) (jobs : ℕ → Option Job) (id : ℕ) (commits : History store outside)
    (row : ReceiptRow) : Except Err ReceiptRow :=
  commits.foldrM (fun c row =>
    match jobs c.tid with
    | some job => job.onReceipt setup c id row
    | none => pure row) row

section Receipts

/-- What a commit removes is referenced by no row after it. -/
theorem not_referenced (reachable : Config.Reachable (application setup) config)
    (past : c :: h <:+ config.world.history) {table source : Table} {asked : ℕ}
    (removed : RemovesOnly c table asked) (other : table ≠ .itemTags) {row : source.Row}
    (stored : ((History.db (c :: h)) source).get id = some row) :
    (table, asked) ∉ refs source row := by
  intro member
  obtain ⟨label, gone⟩ := removed.gone
  exact intact_of_reachable reachable past source id row stored _ member
    ((promised_of_reachable reachable past).get other gone)

/-- A PATCH of a receipt writes no other receipt. -/
theorem PatchedReceipt.only {body : Json} {receiptId : ℕ} {row : Option ReceiptRow} {label : Label}
    (patched : PatchedReceipt setup h c receiptId body)
    (member : ⟨.receipts, id, row, label⟩ ∈ c.writes) : id = receiptId := by
  obtain @⟨_, _, _, _, -, -, -, wrote⟩ := patched
  rw [wrote, List.mem_singleton] at member
  exact congrArg Write.id member

/-- A PATCH that has been committed is what the body makes of any row with the sheet of
the one it was committed on. -/
theorem PatchedReceipt.alone {body : Json} {receiptId : ℕ} {before after row : ReceiptRow}
    (patched : PatchedReceipt setup h c receiptId body)
    (was : (h.db .receipts).get receiptId = some before)
    (now : ((History.db (c :: h)) .receipts).get receiptId = some after)
    (same : row.sheet = before.sheet) :
    ∃ row', Alone.updateReceipt setup body c.start row = .ok row' ∧ row'.sheet = after.sheet := by
  obtain @⟨_, r, markReviewed, purchaseDate, stored, applied, dated, wrote⟩ := patched
  obtain rfl := Option.some.inj (was.symm.trans stored)
  rw [History.db_cons, wrote, Db.writes_cons, Db.writes_nil, Db.get_write_same, if_pos rfl] at now
  obtain rfl := Option.some.inj now
  have editable : ReceiptService.rowToEditable row = ReceiptService.rowToEditable before :=
    congrArg Sheet.editable same
  have proposed : row.proposedAt = before.proposedAt := congrArg Sheet.proposedAt same
  have reviewed : row.reviewedAt = before.reviewedAt := congrArg Sheet.reviewedAt same
  refine ⟨ReceiptService.patchedRow r purchaseDate markReviewed c.start row, ?_, ?_⟩
  · rw [← editable] at applied
    exact bind_eq_ok.mpr ⟨(r, markReviewed), applied, bind_eq_ok.mpr ⟨purchaseDate, dated, rfl⟩⟩
  · simp [ReceiptRow.sheet, ReceiptService.rowToEditable, ReceiptService.patchedRow, proposed,
      reviewed]

/-- A result that passes the checks of an extraction passes those of a verify scan. -/
theorem validateResult_verifying {raw result : ScanResult} {reviewed verifying : Bool}
    (valid : ScanWorker.validateResult raw reviewed = .ok result)
    (later : reviewed = true → verifying = true) :
    ScanWorker.validateResult raw verifying = .ok result := by
  cases verifying with
  | false =>
      cases reviewed with
      | false => exact valid
      | true => simp at later
  | true =>
      simp only [ScanWorker.validateResult, bind_eq_ok] at valid ⊢
      obtain ⟨_, -, rest⟩ := valid
      exact ⟨(), rfl, rest⟩

section Sheets

variable {left right : ReceiptRow} {result : ScanResult} {purchaseDate : Option Date} {now : ℕ}

/-- Rows with the same sheet agree in what a verify scan compares. -/
theorem compared_of_sheet (same : left.sheet = right.sheet) : left.compared = right.compared := by
  simp only [ReceiptRow.sheet, ReceiptService.rowToEditable, Sheet.mk.injEq,
    EditableReceipt.mk.injEq, Date.map_val_inj] at same
  simp [ReceiptRow.compared, same]

/-- What an extraction makes of a sheet. -/
theorem sheet_extracted {kind : Kind} {db db' : Db store} {id id' : ℕ}
    (same : left.sheet = right.sheet) :
    (ScanWorker.extractedRow result kind purchaseDate (ScanWorker.rowToSnapshot db id left) now
      left).sheet = (ScanWorker.extractedRow result kind purchaseDate
        (ScanWorker.rowToSnapshot db' id' right) now right).sheet := by
  simp only [ReceiptRow.sheet, ReceiptService.rowToEditable, Sheet.mk.injEq,
    EditableReceipt.mk.injEq, Date.map_val_inj] at same
  simp [ReceiptRow.sheet, ReceiptService.rowToEditable, ScanWorker.extractedRow,
    ScanWorker.rowToSnapshot, same]

/-- What a verify scan makes of a sheet. -/
theorem sheet_verified {allMatch : Bool} (same : left.sheet = right.sheet) :
    (ScanWorker.verifiedRow result purchaseDate allMatch now left).sheet =
      (ScanWorker.verifiedRow result purchaseDate allMatch now right).sheet := by
  simp only [ReceiptRow.sheet, ReceiptService.rowToEditable, Sheet.mk.injEq,
    EditableReceipt.mk.injEq, Date.map_val_inj] at same
  simp [ReceiptRow.sheet, ReceiptService.rowToEditable, ScanWorker.verifiedRow, same]

/-- What the loss of the offset link makes of a sheet. -/
theorem sheet_unlinked (same : left.sheet = right.sheet) :
    { left with offsetsReceiptId := none }.sheet =
      { right with offsetsReceiptId := none }.sheet := by
  simp only [ReceiptRow.sheet, ReceiptService.rowToEditable, Sheet.mk.injEq,
    EditableReceipt.mk.injEq, Date.map_val_inj] at same
  simp [ReceiptRow.sheet, ReceiptService.rowToEditable, same]

/-- What the loss of the payment method makes of a sheet. -/
theorem sheet_detached (same : left.sheet = right.sheet) :
    { left with paymentMethodId := none }.sheet = { right with paymentMethodId := none }.sheet := by
  simp only [ReceiptRow.sheet, ReceiptService.rowToEditable, Sheet.mk.injEq,
    EditableReceipt.mk.injEq, Date.map_val_inj] at same
  simp [ReceiptRow.sheet, ReceiptService.rowToEditable, same]

end Sheets

/-- A scan that has been written is what its answer makes of any row with the sheet of the
one it was written to. -/
theorem scanned_alone (reachable : Config.Reachable (application setup) config)
    (past : c :: h <:+ config.world.history) (bounded : Bounded setup) {label : Label}
    {before after row : ReceiptRow} (was : (h.db .receipts).get id = some before)
    (wrote : ReceiptWrote setup h c id (some after) label)
    (isScan : label = .writeExtraction ∨ label = .writeVerify) (same : row.sheet = before.sheet) :
    ∃ images raw row', lastScan c.calls = some (images, .ok raw) ∧
      Alone.writeScan setup raw c.start row = .ok row' ∧ row'.sheet = after.sheet := by
  have past' := (List.suffix_cons c h).trans past
  have reviewed : row.reviewedAt = before.reviewedAt := congrArg Sheet.reviewedAt same
  have editable : ReceiptService.rowToEditable row = ReceiptService.rowToEditable before :=
    congrArg Sheet.editable same
  have valid {claim : Claim} {result : ScanResult} (scanned : Scanned h c claim id before result) :
      ∃ images raw, lastScan c.calls = some (images, .ok raw) ∧
        ScanWorker.validateResult raw row.reviewedAt.isSome = .ok result := by
    obtain ⟨first, keys, seen, raw, images, inside, old, there, -, sent, -, passed⟩ := scanned.sent
    refine ⟨images, raw, sent, validateResult_verifying passed fun already => ?_⟩
    rw [reviewed]
    exact reviewed_stays reachable past' (inside.trans old) there was already
  cases wrote with
  | @extracted _ _ result kind purchaseDate _ stored scanned unreviewed named _ dated =>
      obtain rfl := Option.some.inj (was.symm.trans stored)
      obtain ⟨images, raw, sent, passed⟩ := valid scanned
      have ran : Alone.writeScan setup raw c.start row = .ok (ScanWorker.extractedRow result kind
          purchaseDate (ScanWorker.rowToSnapshot Db.empty 0 row) c.start row) := by
        refine bind_eq_ok.mpr ⟨result, passed, bind_eq_ok.mpr ⟨purchaseDate, dated, ?_⟩⟩
        rw [if_neg (by simp [reviewed, unreviewed])]
        exact bind_eq_ok.mpr ⟨kind, by simp [ScanWorker.kindNamed, named], rfl⟩
      exact ⟨images, raw, _, sent, ran, sheet_extracted same⟩
  | @verified _ _ result purchaseDate allMatch _ _ stored scanned isReviewed _ _ _ _ judged dated =>
      obtain rfl := Option.some.inj (was.symm.trans stored)
      obtain ⟨images, raw, sent, passed⟩ := valid scanned
      have ran : Alone.writeScan setup raw c.start row = .ok (ScanWorker.verifiedRow result
          purchaseDate (Agrees setup row result) c.start row) := by
        refine bind_eq_ok.mpr ⟨result, passed, bind_eq_ok.mpr ⟨purchaseDate, dated, ?_⟩⟩
        rw [if_pos (by rw [reviewed]; exact isReviewed)]
        rfl
      have verdict : decide (Agrees setup row result) = allMatch := by
        have right := judged.now reachable past' stored bounded
        rw [Bool.eq_iff_iff, decide_eq_true_iff, right]
        exact ⟨Agrees.of_compared (compared_of_sheet same),
          Agrees.of_compared (compared_of_sheet same).symm⟩
      exact ⟨images, raw, _, sent, ran, verdict ▸ sheet_verified same⟩
  | _ => simp at isScan

/-- A commit that writes the result of a scan to a receipt has the label of a scan on it. -/
theorem writesScan_iff : writesScan c id = true ↔ ∃ row label,
    ⟨.receipts, id, row, label⟩ ∈ c.writes ∧ (label = .writeExtraction ∨ label = .writeVerify) := by
  simp only [writesScan, List.any_eq_true, Bool.and_eq_true, Bool.or_eq_true, decide_eq_true_eq]
  constructor
  · rintro ⟨⟨_, _, row, label⟩, member, ⟨rfl, rfl⟩, isScan⟩
    exact ⟨row, label, member, isScan⟩
  · rintro ⟨row, label, member, isScan⟩
    exact ⟨_, member, ⟨rfl, rfl⟩, isScan⟩

/-- A job that leaves a receipt alone in its commit does so when it runs alone. -/
theorem onReceipt_untouched (reachable : Config.Reachable (application setup) config)
    (past : c :: h <:+ config.world.history) {job : Job} (isJob : config.jobs c.tid = some job)
    {after row : ReceiptRow} (now : ((History.db (c :: h)) .receipts).get id = some after)
    (untouched : ∀ write ∈ c.writes, ¬ write.Touches .receipts id)
    (same : row.sheet = after.sheet) : job.onReceipt setup c id row = .ok row := by
  have edited := edited_of_reachable reachable past isJob
  have editable : ReceiptService.rowToEditable row = ReceiptService.rowToEditable after :=
    congrArg Sheet.editable same
  have noScan : writesScan c id = false := by
    rw [← Bool.not_eq_true, writesScan_iff]
    rintro ⟨_, _, member, -⟩
    exact untouched _ member ⟨rfl, rfl⟩
  cases job with
  | updateReceipt userId receiptId body =>
      obtain @⟨_, _, _, _, -, -, -, wrote⟩ := edited
      have other : receiptId ≠ id := by
        rintro rfl
        exact untouched _ (wrote ▸ List.mem_cons_self) ⟨rfl, rfl⟩
      simp [Job.onReceipt, other, pure, Except.pure]
  | removePaymentMethod userId methodId =>
      have method : row.paymentMethodId = after.paymentMethodId :=
        congrArg EditableReceipt.paymentMethodId editable
      have unused : row.paymentMethodId ≠ some methodId := fun used =>
        not_referenced reachable past (edited _ _ rfl) (by decide) now
          (by simp [refs, ← method, used])
      simp [Job.onReceipt, unused, pure, Except.pure]
  | deleteReceipt userId target =>
      have offset : row.offsetsReceiptId = after.offsetsReceiptId :=
        congrArg EditableReceipt.offsetsReceiptId editable
      have unlinked : row.offsetsReceiptId ≠ some target := fun linked =>
        not_referenced reachable past (edited _ _ rfl) (by decide) now
          (by simp [refs, ← offset, linked])
      simp [Job.onReceipt, unlinked, pure, Except.pure]
  | process _ | applyResult _ _ =>
      simp only [Job.onReceipt, noScan]
      split <;> rfl
  | _ => rfl

/-- What a job does to a receipt in its commit, it does when it runs alone. -/
theorem onReceipt_of_commit (reachable : Config.Reachable (application setup) config)
    (past : c :: h <:+ config.world.history) (bounded : Bounded setup) {job : Job}
    (isJob : config.jobs c.tid = some job) {before after row : ReceiptRow}
    (was : (h.db .receipts).get id = some before)
    (now : ((History.db (c :: h)) .receipts).get id = some after)
    (same : row.sheet = before.sheet) :
    ∃ row', job.onReceipt setup c id row = .ok row' ∧ row'.sheet = after.sheet := by
  have promised := promised_of_reachable reachable past
  have edited := edited_of_reachable reachable past isJob
  obtain ⟨job', isJob', labels⟩ := labels_of_reachable reachable (past.subset List.mem_cons_self)
  obtain rfl := Option.some.inj (isJob.symm.trans isJob')
  have editable : ReceiptService.rowToEditable row = ReceiptService.rowToEditable before :=
    congrArg Sheet.editable same
  rcases promised.row_cases .receipts id with ⟨kept, untouched⟩ | ⟨written, label, member, isNow, wrote⟩
  · obtain rfl := Option.some.inj ((kept ▸ was).symm.trans now)
    exact ⟨row, onReceipt_untouched reachable past isJob now untouched same, same⟩
  · obtain rfl := isNow.symm.trans now
    have mine := labels _ member
    have stands {other : ReceiptRow} (stored : (h.db .receipts).get id = some other) :
        before = other := Option.some.inj (was.symm.trans stored)
    have scanned (isScan : label = .writeExtraction ∨ label = .writeVerify)
        (isWorker : ∀ images raw, lastScan c.calls = some (images, .ok raw) →
          writesScan c id = true → job.onReceipt setup c id row = Alone.writeScan setup raw c.start row) :
        ∃ row', job.onReceipt setup c id row = .ok row' ∧ row'.sheet = after.sheet := by
      obtain ⟨images, raw, row', sent, ran, result⟩ :=
        scanned_alone reachable past bounded was wrote isScan same
      refine ⟨row', ?_, result⟩
      rw [isWorker images raw sent (writesScan_iff.mpr ⟨_, _, member, isScan⟩), ran]
    cases wrote with
    | uploaded fresh => simp [fresh.get List.suffix_rfl] at was
    | created fresh => simp [fresh.get List.suffix_rfl] at was
    | requeued stored =>
        obtain rfl := stands stored
        cases job <;> simp [Job.labels] at mine
        exact ⟨row, rfl, same⟩
    | retried stored =>
        obtain rfl := stands stored
        cases job <;> simp [Job.labels] at mine
        exact ⟨row, rfl, same⟩
    | reclaimed stored =>
        obtain rfl := stands stored
        cases job <;> simp [Job.labels] at mine
        exact ⟨row, rfl, same⟩
    | claimed stored =>
        obtain rfl := stands stored
        cases job <;> simp [Job.labels] at mine
        exact ⟨row, rfl, same⟩
    | patched =>
        cases job <;> simp [Job.labels] at mine
        rename_i userId receiptId body
        obtain rfl := PatchedReceipt.only edited member
        simp only [Job.onReceipt, if_true]
        exact PatchedReceipt.alone edited was now same
    | @unlinked _ target stored linked gone =>
        obtain rfl := stands stored
        cases job <;> simp [Job.labels] at mine
        obtain rfl := (edited _ _ rfl).only _ _ gone
        have offset : row.offsetsReceiptId = before.offsetsReceiptId :=
          congrArg EditableReceipt.offsetsReceiptId editable
        exact ⟨_, by simp [Job.onReceipt, offset, linked]; rfl, sheet_unlinked same⟩
    | detached stored used gone =>
        obtain rfl := stands stored
        cases job <;> simp [Job.labels] at mine
        obtain rfl := (edited _ _ rfl).only _ _ gone
        have method : row.paymentMethodId = before.paymentMethodId :=
          congrArg EditableReceipt.paymentMethodId editable
        exact ⟨_, by simp [Job.onReceipt, method, used]; rfl, sheet_detached same⟩
    | failed stored =>
        obtain rfl := stands stored
        have noScan : writesScan c id = false := by
          rw [← Bool.not_eq_true, writesScan_iff]
          rintro ⟨_, _, other, isScan⟩
          obtain ⟨-, rfl⟩ := promised.unique (by decide) member other
          simp at isScan
        refine ⟨row, ?_, same⟩
        cases job <;> simp [Job.labels] at mine <;>
          (simp only [Job.onReceipt, noScan]; split <;> rfl)
    | extracted =>
        refine scanned (Or.inl rfl) fun images raw sent writes => ?_
        cases job <;> simp [Job.labels] at mine <;> simp [Job.onReceipt, sent, writes]
    | verified =>
        refine scanned (Or.inr rfl) fun images raw sent writes => ?_
        cases job <;> simp [Job.labels] at mine <;> simp [Job.onReceipt, sent, writes]

/-- The sheet of a receipt is what the jobs committed since make of it, run one after
another in commit order. -/
theorem receipt_replayed (reachable : Config.Reachable (application setup) config)
    (bounded : Bounded setup) {commits : History store outside}
    (past : commits ++ base <:+ config.world.history) {first last : ReceiptRow}
    (was : (base.db .receipts).get id = some first)
    (now : ((History.db (commits ++ base)) .receipts).get id = some last) :
    ∃ row, replayReceipt setup config.jobs id commits first = .ok row ∧ row.sheet = last.sheet := by
  induction commits generalizing last with
  | nil =>
      obtain rfl := Option.some.inj (was.symm.trans now)
      exact ⟨first, rfl, rfl⟩
  | cons c commits ih =>
      have past' := (List.suffix_cons c (commits ++ base)).trans past
      obtain ⟨middle, there, -⟩ := receipt_between reachable past (List.suffix_append commits base)
        (List.suffix_cons c _) was now
      obtain ⟨row, ran, same⟩ := ih past' there
      obtain ⟨job, isJob, -⟩ := labels_of_reachable reachable (past.subset List.mem_cons_self)
      obtain ⟨row', next, result⟩ :=
        onReceipt_of_commit reachable past bounded isJob there now same
      refine ⟨row', ?_, result⟩
      rw [replayReceipt, List.foldrM_cons]
      refine bind_eq_ok.mpr ⟨row, ran, ?_⟩
      rw [isJob]
      exact next

end Receipts

section Items

/-- The tags of an item. -/
def tagsOf (db : Db store) (itemId : ℕ) : Finset ℕ :=
  (((db .itemTags).list.filter fun (_, row) => row.itemId == itemId).map
    fun (_, row) => row.tagId).toFinset

theorem mem_tagsOf {db : Db store} {itemId tagId : ℕ} :
    tagId ∈ tagsOf db itemId ↔ ∃ id, (db .itemTags).get id = some ⟨itemId, tagId⟩ := by
  simp only [tagsOf, List.mem_toFinset, List.mem_map, List.mem_filter, Prod.exists, Rows.mem_list,
    beq_iff_eq]
  constructor
  · rintro ⟨id, ⟨_, _⟩, ⟨stored, rfl⟩, rfl⟩
    exact ⟨id, stored⟩
  · rintro ⟨id, stored⟩
    exact ⟨id, _, ⟨stored, rfl⟩, rfl⟩

/-- An item with its tag set. -/
structure TaggedItem where
  row : ItemRow
  tags : Finset ℕ
deriving DecidableEq

/-- PATCH /receipts/:id/items/:item_id, run alone on an item. -/
def Alone.updateItem (itemId : ℕ) (body : Json) (item : TaggedItem) : Except Err TaggedItem := do
  let (input, tagsGiven) ← applyItemPatch
    (ItemService.itemToInput (ItemService.rowToItem itemId item.row)) body
  pure {
    row := ItemService.itemRow item.row.receiptId input
    tags := if tagsGiven then input.tagIds.toFinset else item.tags }

/-- What a committed job does to an item when it runs alone. -/
def Job.onItem (itemId : ℕ) (item : TaggedItem) : Job → Except Err TaggedItem
  | .updateItem _ _ target body =>
      if target = itemId then Alone.updateItem itemId body item else pure item
  | .removeCategory _ categoryId =>
      pure (if item.row.categoryId = some categoryId
        then { item with row := { item.row with categoryId := none } } else item)
  | .removeTag _ tagId => pure { item with tags := item.tags.erase tagId }
  | _ => pure item

/-- The jobs of these commits, run one after another on an item, in commit order. -/
def replayItem (jobs : ℕ → Option Job) (itemId : ℕ) (commits : History store outside)
    (item : TaggedItem) : Except Err TaggedItem :=
  commits.foldrM (fun c item =>
    match jobs c.tid with
    | some job => job.onItem itemId item
    | none => pure item) item

variable {itemId tagId : ℕ}

/-- A commit that neither stores an item nor removes it leaves it the tags that it does
not itself remove. -/
theorem Promised.tags (promised : Promised setup h c) (intact : Intact (schema setup.lower)
      (History.db (c :: h))) (unwritten : ¬ WritesItem c itemId) {after : ItemRow}
    (now : ((History.db (c :: h)) .items).get itemId = some after) :
    tagId ∈ tagsOf (History.db (c :: h)) itemId ↔
      tagId ∈ tagsOf h.db itemId ∧ ∀ label, ⟨.tags, tagId, none, label⟩ ∉ c.writes := by
  simp only [mem_tagsOf]
  constructor
  · rintro ⟨id, stored⟩
    refine ⟨⟨id, ?_⟩, fun label gone => ?_⟩
    · rcases promised.row_cases .itemTags id with ⟨same, -⟩ | ⟨row, label, member, isNow, wrote⟩
      · exact same ▸ stored
      · obtain rfl := isNow.symm.trans stored
        cases wrote with
        | tagged _ written => exact absurd written unwritten
    · have absent := promised.get (by decide) gone
      exact intact .itemTags id _ stored (.tags, tagId) (by simp [schema, refs]) absent
  · rintro ⟨⟨id, stored⟩, spared⟩
    refine ⟨id, ?_⟩
    rcases promised.row_cases .itemTags id with ⟨same, -⟩ | ⟨row, label, member, isNow, wrote⟩
    · exact same.trans stored
    · cases wrote with
      | tagged _ _ _ _ fresh => simp [fresh.get List.suffix_rfl] at stored
      | @cleared before was written =>
          rcases was with there | ⟨label', new⟩
          · obtain rfl := Option.some.inj (there.symm.trans stored)
            exact absurd written unwritten
          · cases promised.wrote _ new with
            | tagged _ _ _ _ fresh => simp [fresh.get List.suffix_rfl] at stored
      | @cascaded before label there gone =>
          obtain rfl := Option.some.inj (there.symm.trans stored)
          rcases gone with itemGone | tagGone
          · have none := now.symm.trans (promised.get (by decide) itemGone)
            simp at none
          · exact absurd tagGone (spared label)

/-- While an item is locked, it gets no tag. -/
theorem tag_seen (reachable : Config.Reachable (application setup) config)
    (past : h <:+ config.world.history) {seen : History store outside} (before : seen <:+ h)
    (held : Held seen h [⟨.items, itemId, .update⟩])
    (stored : (h.db .itemTags).get id = some ⟨itemId, tagId⟩) :
    (seen.db .itemTags).get id = some ⟨itemId, tagId⟩ := by
  induction h with
  | nil => exact List.suffix_nil.mp before ▸ stored
  | cons c h ih =>
      rcases List.suffix_cons_iff.mp before with rfl | inside
      · exact stored
      refine ih ((List.suffix_cons c h).trans past) inside (held.until (List.suffix_cons c h)) ?_
      rcases (promised_of_reachable reachable past).row_cases .itemTags id with
        ⟨same, -⟩ | ⟨row, label, member, isNow, wrote⟩
      · exact same ▸ stored
      · obtain rfl := isNow.symm.trans stored
        cases wrote with
        | tagged _ _ locked =>
            have excluded := (held c h List.suffix_rfl inside).2 _ locked _ List.mem_cons_self
            simp [Lock.conflicts, LockMode.conflicts] at excluded

/-- A PATCH of an item stores that item and no other. -/
theorem PatchedItem.writes_iff {receiptId target : ℕ} {body : Json}
    (patched : PatchedItem h c receiptId target body) : WritesItem c itemId ↔ itemId = target := by
  obtain @⟨_, _, tagsGiven, tags, -, -, -, wrote, replaced, kept⟩ := patched
  have others : ∀ change ∈ tags, change.table = .itemTags := by
    cases tagsGiven with
    | false => simp [kept rfl]
    | true =>
        intro change member
        rcases (replaced rfl).1.only change member with ⟨_, rfl⟩ | ⟨_, _, -, rfl⟩ <;> rfl
  constructor
  · rintro ⟨item, label, member, -⟩
    rw [wrote] at member
    rcases List.mem_cons.mp member with same | tag
    · exact congrArg Write.id same
    · exact nomatch others _ tag
  · rintro rfl
    exact ⟨_, _, wrote ▸ List.mem_cons_self, Or.inr rfl⟩

/-- A PATCH of an item that has been committed is what its body makes of the item. -/
theorem PatchedItem.alone (reachable : Config.Reachable (application setup) config)
    (past : c :: h <:+ config.world.history) {receiptId : ℕ} {body : Json} {before after : ItemRow}
    (patched : PatchedItem h c receiptId itemId body)
    (was : (h.db .items).get itemId = some before)
    (now : ((History.db (c :: h)) .items).get itemId = some after) :
    Alone.updateItem itemId body ⟨before, tagsOf h.db itemId⟩ =
      .ok ⟨after, tagsOf (History.db (c :: h)) itemId⟩ := by
  have past' := (List.suffix_cons c h).trans past
  have promised := promised_of_reachable reachable past
  obtain @⟨_, item, tagsGiven, tags, stored, rfl, applied, wrote, replaced, kept⟩ := patched
  obtain rfl := Option.some.inj (was.symm.trans stored)
  have written : ⟨.items, itemId, some (ItemService.itemRow before.receiptId item), .updateItem⟩ ∈
      c.writes := wrote ▸ List.mem_cons_self
  obtain rfl := Option.some.inj ((promised.get (by decide) written).symm.trans now)
  refine bind_eq_ok.mpr ⟨(item, tagsGiven), applied, ?_⟩
  suffices (if tagsGiven then item.tagIds.toFinset else tagsOf h.db itemId) =
      tagsOf (History.db (c :: h)) itemId by rw [← this]; rfl
  cases tagsGiven with
  | false =>
      have same : History.db (c :: h) .itemTags = h.db .itemTags := by
        refine Db.writes_other_table _ fun change member => ?_
        rw [wrote, kept rfl, List.mem_singleton] at member
        simp [member]
      simp [tagsOf, same]
  | true =>
      obtain ⟨retags, seen, cur, ⟨locked, since, older, held⟩, span, now', swept⟩ := replaced rfl
      ext tagId
      rw [if_pos rfl, List.mem_toFinset, mem_tagsOf, History.db_cons, wrote, Db.writes_cons]
      constructor
      · intro given
        obtain ⟨id, member⟩ := retags.all tagId given
        exact ⟨id, retags.apart.get_writes _ member⟩
      · rintro ⟨id, stored⟩
        rcases Db.get_writes_cases _ tags .itemTags id with ⟨same, untouched⟩ | ⟨row, label, member, isNow⟩
        · -- A tag from before was there when the item was locked, and so is removed.
          rw [same, Db.write_other _ (by simp)] at stored
          have atCur := tag_seen reachable past' now' (held.from (older.trans span)) stored
          have atSeen := tag_seen reachable past' locked (held.from older) stored
          have removed := swept id _ _ atSeen (by simp) atCur (by simp)
          rw [wrote] at removed
          rcases List.mem_cons.mp removed with item | tag
          · exact nomatch congrArg Write.table item
          · exact absurd ⟨rfl, rfl⟩ (untouched _ tag)
        · obtain rfl := isNow.symm.trans stored
          rcases retags.only _ member with ⟨_, isRemoval⟩ | ⟨_, other, given, isInsert⟩
          · cases isRemoval
          · cases isInsert
            exact given

/-- Every field of an item that a body does not name is kept, and so are its tags. -/
structure TaggedItem.KeepsUnnamed (body : Json) (before after : TaggedItem) : Prop where
  receiptId : after.row.receiptId = before.row.receiptId
  name : body.find "name" = none → after.row.name = before.row.name
  quantity : body.find "quantity" = none → after.row.quantity = before.row.quantity
  unitPriceCents : body.find "unit_price_cents" = none →
    after.row.unitPriceCents = before.row.unitPriceCents
  amountCents : body.find "amount_cents" = none → after.row.amountCents = before.row.amountCents
  categoryId : body.find "category_id" = none → after.row.categoryId = before.row.categoryId
  informational : body.find "informational" = none →
    after.row.informational = before.row.informational
  tags : body.find "tag_ids" = none → after.tags = before.tags

/-- A PATCH, run alone on an item, keeps what its body does not name. -/
theorem Alone.updateItem_unnamed {body : Json} {before after : TaggedItem}
    (ran : Alone.updateItem itemId body before = .ok after) : before.KeepsUnnamed body after := by
  obtain ⟨⟨input, tagsGiven⟩, applied, built⟩ := bind_eq_ok.mp ran
  obtain ⟨keeps, given⟩ := applyItemPatch_unnamed applied
  obtain rfl := Except.ok.inj built
  refine ⟨rfl, keeps.name, keeps.quantity, keeps.unitPriceCents, keeps.amountCents,
    keeps.categoryId, keeps.informational, fun absent => ?_⟩
  simp [given, Json.contains, absent]

/-- What a PATCH of an item commits differs from the item before it in what it names. -/
theorem item_patch_keeps (reachable : Config.Reachable (application setup) config)
    (past : c :: h <:+ config.world.history) {userId receiptId : ℕ} {body : Json}
    (isJob : config.jobs c.tid = some (.updateItem userId receiptId itemId body)) :
    ∃ before after : ItemRow, (h.db .items).get itemId = some before ∧
      ((History.db (c :: h)) .items).get itemId = some after ∧
      TaggedItem.KeepsUnnamed body ⟨before, tagsOf h.db itemId⟩
        ⟨after, tagsOf (History.db (c :: h)) itemId⟩ := by
  have patched : PatchedItem h c receiptId itemId body := edited_of_reachable reachable past isJob
  obtain @⟨before, item, tagsGiven, tags, stored, -, -, wrote, -, -⟩ := id patched
  have now := (promised_of_reachable reachable past).get (by decide)
    (wrote ▸ List.mem_cons_self : (⟨.items, itemId, some (ItemService.itemRow receiptId item),
      .updateItem⟩ : Write store) ∈ c.writes)
  exact ⟨before, _, stored, now,
    Alone.updateItem_unnamed (patched.alone reachable past stored now)⟩

/-- What a job does to an item in its commit, it does when it runs alone. -/
theorem onItem_of_commit (reachable : Config.Reachable (application setup) config)
    (past : c :: h <:+ config.world.history) {job : Job} (isJob : config.jobs c.tid = some job)
    {before after : ItemRow} (was : (h.db .items).get itemId = some before)
    (now : ((History.db (c :: h)) .items).get itemId = some after) :
    job.onItem itemId ⟨before, tagsOf h.db itemId⟩ =
      .ok ⟨after, tagsOf (History.db (c :: h)) itemId⟩ := by
  have promised := promised_of_reachable reachable past
  have edited := edited_of_reachable reachable past isJob
  obtain ⟨job', isJob', labels⟩ := labels_of_reachable reachable (past.subset List.mem_cons_self)
  obtain rfl := Option.some.inj (isJob.symm.trans isJob')
  by_cases written : WritesItem c itemId
  · -- Only a PATCH of this very item stores an item that was there.
    obtain ⟨item, label, member, rfl | rfl⟩ := written
    · cases promised.wrote _ member with
      | inserted _ _ _ _ fresh => simp [fresh.get List.suffix_rfl] at was
    · have mine := labels _ member
      cases job <;> simp [Job.labels] at mine
      rename_i userId receiptId target body
      obtain rfl := edited.writes_iff.mp ⟨_, _, member, Or.inr rfl⟩
      simp only [Job.onItem, if_true]
      exact edited.alone reachable past was now
  · have sameRow (plain : .removeCategory ∉ job.labels) : after = before := by
      rcases promised.row_cases .items itemId with ⟨same, -⟩ | ⟨row, label, member, isNow, wrote⟩
      · exact Option.some.inj ((now.symm.trans same).trans was)
      · obtain rfl := isNow.symm.trans now
        cases wrote with
        | inserted => exact absurd ⟨_, _, member, Or.inl rfl⟩ written
        | updated => exact absurd ⟨_, _, member, Or.inr rfl⟩ written
        | uncategorized => exact absurd (labels _ member) plain
    have sameTags (plain : .removeTag ∉ job.labels) :
        tagsOf (History.db (c :: h)) itemId = tagsOf h.db itemId := by
      ext tagId
      rw [promised.tags (intact_of_reachable reachable past) written now, and_iff_left_iff_imp]
      intro _ label gone
      cases promised.wrote _ gone with
      | removed => exact plain (labels _ gone)
    cases job with
    | updateItem userId receiptId target body =>
        have other : target ≠ itemId := fun same => written (edited.writes_iff.mpr same.symm)
        rw [sameRow (by simp [Job.labels]), sameTags (by simp [Job.labels])]
        simp [Job.onItem, other, pure, Except.pure]
    | removeCategory userId categoryId =>
        rw [sameTags (by simp [Job.labels])]
        have removed : RemovesOnly c .categories categoryId := edited _ _ rfl
        rcases promised.row_cases .items itemId with ⟨same, -⟩ | ⟨row, label, member, isNow, wrote⟩
        · obtain rfl := Option.some.inj ((now.symm.trans same).trans was)
          have unused : after.categoryId ≠ some categoryId := fun used =>
            not_referenced reachable past removed (by decide) now (by simp [refs, used])
          simp [Job.onItem, unused, pure, Except.pure]
        · obtain rfl := isNow.symm.trans now
          cases wrote with
          | inserted => exact absurd ⟨_, _, member, Or.inl rfl⟩ written
          | updated => exact absurd ⟨_, _, member, Or.inr rfl⟩ written
          | uncategorized stored used gone =>
              obtain rfl := Option.some.inj (was.symm.trans stored)
              obtain rfl := removed.only _ _ gone
              simp [Job.onItem, used, pure, Except.pure]
    | removeTag userId tagId =>
        rw [sameRow (by simp [Job.labels])]
        have removed : RemovesOnly c .tags tagId := edited _ _ rfl
        have erased : (tagsOf h.db itemId).erase tagId = tagsOf (History.db (c :: h)) itemId := by
          ext other
          rw [promised.tags (intact_of_reachable reachable past) written now, Finset.mem_erase,
            and_comm]
          refine and_congr_right fun _ => ⟨fun differs label gone => ?_, fun spared same => ?_⟩
          · exact differs (removed.only _ _ gone)
          · obtain ⟨label, gone⟩ := removed.gone
            exact spared label (same ▸ gone)
        rw [← erased]
        rfl
    | _ =>
        rw [sameRow (by simp [Job.labels]), sameTags (by simp [Job.labels])]
        rfl

/-- An item with its tags is what the jobs committed since make of it, run one after
another in commit order. -/
theorem item_replayed (reachable : Config.Reachable (application setup) config)
    {commits : History store outside} (past : commits ++ base <:+ config.world.history)
    {first last : ItemRow} (was : (base.db .items).get itemId = some first)
    (now : ((History.db (commits ++ base)) .items).get itemId = some last) :
    replayItem config.jobs itemId commits ⟨first, tagsOf base.db itemId⟩ =
      .ok ⟨last, tagsOf (History.db (commits ++ base)) itemId⟩ := by
  induction commits generalizing last with
  | nil =>
      obtain rfl := Option.some.inj (was.symm.trans now)
      rfl
  | cons c commits ih =>
      have past' := (List.suffix_cons c (commits ++ base)).trans past
      obtain ⟨middle, there, -⟩ := item_between reachable past (List.suffix_append commits base)
        (List.suffix_cons c _) was now
      obtain ⟨job, isJob, -⟩ := labels_of_reachable reachable (past.subset List.mem_cons_self)
      rw [replayItem, List.foldrM_cons]
      refine bind_eq_ok.mpr ⟨_, ih past' there, ?_⟩
      rw [isJob]
      exact onItem_of_commit reachable past isJob there now

end Items

/-- What a PATCH commits differs from the row before it in the fields that it names. -/
theorem patch_keeps (reachable : Config.Reachable (application setup) config)
    (past : c :: h <:+ config.world.history) {userId receiptId : ℕ} {body : Json}
    (isJob : config.jobs c.tid = some (.updateReceipt userId receiptId body)) :
    ∃ before after : ReceiptRow, (h.db .receipts).get receiptId = some before ∧
      ((History.db (c :: h)) .receipts).get receiptId = some after ∧
      KeepsUnnamed body (ReceiptService.rowToEditable before)
        (ReceiptService.rowToEditable after) := by
  obtain @⟨before, r, markReviewed, purchaseDate, stored, applied, dated, wrote⟩ :=
    edited_of_reachable reachable past isJob
  have written := (promised_of_reachable reachable past).get (by decide)
    (wrote ▸ List.mem_cons_self : (⟨.receipts, receiptId, some (ReceiptService.patchedRow r
      purchaseDate markReviewed c.start before), .updateReceipt⟩ : Write store) ∈ c.writes)
  refine ⟨before, _, stored, written, ?_⟩
  have unnamed := applyReceiptPatch_unnamed applied
  refine { unnamed with purchaseDate := fun absent => ?_ }
  have same := unnamed.purchaseDate absent
  have again := castDate?_val setup before.purchaseDate
  rw [same] at dated
  obtain rfl := Except.ok.inj (again.symm.trans dated)
  rfl

/-- No edit is lost: between any two instants of a run, a receipt and an item with its
tags have become what the jobs committed in between make of them, each run alone on what
the one before it left; and a PATCH keeps what it does not name, of a receipt its fields and
of an item its fields and its tags. -/
theorem edits_kept (reachable : Config.Reachable (application setup) config)
    (bounded : Bounded setup) :
    (∀ (commits base : History store outside), commits ++ base <:+ config.world.history →
      (∀ id (first last : ReceiptRow), (base.db .receipts).get id = some first →
        ((History.db (commits ++ base)) .receipts).get id = some last →
        ∃ row, replayReceipt setup config.jobs id commits first = .ok row ∧
          row.sheet = last.sheet ∧ row.needsReview = last.needsReview ∧
          row.isConfirmed = last.isConfirmed) ∧
      ∀ itemId (first last : ItemRow), (base.db .items).get itemId = some first →
        ((History.db (commits ++ base)) .items).get itemId = some last →
        replayItem config.jobs itemId commits ⟨first, tagsOf base.db itemId⟩ =
          .ok ⟨last, tagsOf (History.db (commits ++ base)) itemId⟩) ∧
    ∀ (c : Commit store outside) (h : History store outside), c :: h <:+ config.world.history →
      (∀ userId receiptId body, config.jobs c.tid = some (.updateReceipt userId receiptId body) →
        ∃ before after : ReceiptRow, (h.db .receipts).get receiptId = some before ∧
          ((History.db (c :: h)) .receipts).get receiptId = some after ∧
          KeepsUnnamed body (ReceiptService.rowToEditable before)
            (ReceiptService.rowToEditable after)) ∧
      ∀ userId receiptId itemId body,
        config.jobs c.tid = some (.updateItem userId receiptId itemId body) →
        ∃ before after : ItemRow, (h.db .items).get itemId = some before ∧
          ((History.db (c :: h)) .items).get itemId = some after ∧
          TaggedItem.KeepsUnnamed body ⟨before, tagsOf h.db itemId⟩
            ⟨after, tagsOf (History.db (c :: h)) itemId⟩ := by
  refine ⟨fun commits base past => ⟨fun id first last was now => ?_,
    fun itemId first last was now => item_replayed reachable past was now⟩,
    fun c h past => ⟨fun userId receiptId body isJob => patch_keeps reachable past isJob,
      fun userId receiptId itemId body isJob => item_patch_keeps reachable past isJob⟩⟩
  obtain ⟨row, ran, same⟩ := receipt_replayed reachable bounded past was now
  exact ⟨row, ran, same, review_of_sheet same⟩

/-- Two PATCHes of one receipt: the second begins while the first has the row locked, and
waits for it. -/
@[irreducible] def overlapped : Config store outside Job :=
  Config.ran (application demo)
    (registering 0 "ann" "secret" ++ uploading 1 1 ["image"] ++
      [.spawn (.updateReceipt 1 1 (.object [("note", .string "lunch")])), .step 2] ++
      statements 2 1 ++
      [.spawn (.updateReceipt 1 1 (.object [("merchant", .string "cafe")])), .step 3, .start 3] ++
      statements 2 2 ++ [.step 2, .step 2, .finish 3] ++ statements 3 2 ++ [.step 3, .step 3])
    (by decide +kernel)

theorem reachable_overlapped : Config.Reachable (application demo) overlapped := by
  unfold overlapped
  exact Config.reachable_ran _

/-- Two PATCHes of one item, of its name and of its tags: the second begins while the first
has the row locked, and waits for it. -/
@[irreducible] def overlappedItem : Config store outside Job :=
  Config.ran (application demo)
    (registering 0 "ann" "secret" ++ uploading 1 1 ["image"] ++
      [.spawn (.createTag 1 (.object [("name", .string "food")]))] ++ statements 2 1 ++ [.step 2] ++
      [.spawn (.createItem 1 1 (.object [("amount_cents", .unsigned 100)])), .step 3] ++
      statements 3 5 ++ [.step 3, .step 3] ++
      [.spawn (.updateItem 1 1 1 (.object [("name", .string "milk")])), .step 4] ++
      statements 4 2 ++
      [.spawn (.updateItem 1 1 1 (.object [("tag_ids", .array [.unsigned 1])])), .step 5] ++
      statements 5 1 ++ [.start 5] ++ statements 4 3 ++ [.step 4, .step 4, .finish 5] ++
      statements 5 6 ++ [.step 5, .step 5])
    (by decide +kernel)

theorem reachable_overlappedItem : Config.Reachable (application demo) overlappedItem := by
  unfold overlappedItem
  exact Config.reachable_ran _

/-- The job is a PATCH of that item which does not name it. -/
def keepsName : Job → Bool
  | .updateItem 1 1 1 body => (body.find "name").isNone
  | _ => false

theorem eq_of_keepsName {job : Job} (keeps : keepsName job = true) :
    ∃ body, job = .updateItem 1 1 1 body ∧ body.find "name" = none := by
  unfold keepsName at keeps
  split at keeps
  · exact ⟨_, rfl, Option.isNone_iff_eq_none.mp keeps⟩
  · cases keeps

theorem edits_kept_of_overlapped :
    (∃ first last row : ReceiptRow,
      (History.db (overlapped.world.history.drop 2) .receipts).get 1 = some first ∧
        (History.db overlapped.world.history .receipts).get 1 = some last ∧
        replayReceipt demo overlapped.jobs 1 (overlapped.world.history.take 2) first = .ok row ∧
        row.sheet = last.sheet ∧ last.note = some "lunch" ∧ last.merchant = some "cafe") ∧
    ∃ before after : ItemRow,
      (History.db (overlappedItem.world.history.drop 1) .items).get 1 = some before ∧
        (History.db overlappedItem.world.history .items).get 1 = some after ∧
        before.name = some "milk" ∧ after.name = some "milk" ∧
        tagsOf (History.db overlappedItem.world.history) 1 = {1} := by
  constructor
  · have was : ((History.db (overlapped.world.history.drop 2) .receipts).get 1).isSome = true := by
      decide +kernel
    have now : ((History.db overlapped.world.history .receipts).get 1).any
        (fun row : ReceiptRow => row.note == some "lunch" && row.merchant == some "cafe") = true := by
      decide +kernel
    obtain ⟨first, isFirst⟩ := Option.isSome_iff_exists.mp was
    simp only [Option.any_eq_true, Bool.and_eq_true, beq_iff_eq] at now
    obtain ⟨last, isLast, edited⟩ := now
    have split := List.take_append_drop 2 overlapped.world.history
    have past : overlapped.world.history.take 2 ++ overlapped.world.history.drop 2 <:+
        overlapped.world.history := by rw [split]
    obtain ⟨row, ran, same, -⟩ := ((edits_kept reachable_overlapped bounded_demo).1 _ _ past).1 1
      first last isFirst (by rw [split]; exact isLast)
    exact ⟨first, last, row, isFirst, isLast, ran, same, edited⟩
  · have named : ((History.db (overlappedItem.world.history.drop 1) .items).get 1).any
        (fun row : ItemRow => row.name == some "milk") = true := by decide +kernel
    have tags : tagsOf (History.db overlappedItem.world.history) 1 = {1} := by decide +kernel
    have byLast : overlappedItem.world.history.head?.map Commit.tid = some 5 := by decide +kernel
    obtain ⟨c, isHead, isTid⟩ := Option.map_eq_some_iff.mp byLast
    have history : c :: overlappedItem.world.history.drop 1 = overlappedItem.world.history := by
      rw [List.drop_one]
      exact List.cons_head?_tail isHead
    have past : c :: overlappedItem.world.history.drop 1 <:+ overlappedItem.world.history := by
      rw [history]
    have patches : (overlappedItem.jobs 5).any keepsName = true := by decide +kernel
    obtain ⟨job, isJob, keeps⟩ := (Option.any_eq_true _ _).mp patches
    obtain ⟨body, rfl, unnamed⟩ := eq_of_keepsName keeps
    obtain ⟨before, after, was, now, kept⟩ :=
      ((edits_kept reachable_overlappedItem bounded_demo).2 _ _ past).2 1 1 1 body (isTid ▸ isJob)
    rw [history] at now
    rw [was] at named
    have named : before.name = some "milk" := by simpa using named
    exact ⟨before, after, was, now, named, (kept.name unnamed).trans named, tags⟩

end ReceiptScanner

import ReceiptScanner.Ledger.Identity

/-!
# Extractions are of checked kinds

`validateResult` checks the kind unless the first snapshot of the scan is of a reviewed row,
and the row that is locked later decides whether the scan is an extraction. A review is
never taken back, so an extraction's kind has been checked.
-/

namespace ReceiptScanner

open ReadCommitted

variable {setup : Setup} {config : Config store outside Job} {first locked : History store outside}
  {claim : Claim}

/-- A kind that an extraction can write: `rulesFor` knows it, a scanner may classify a
document as it, and its direction is fixed. -/
structure Extractable (name : String) (kind : Kind) : Prop where
  named : ScanWorker.kindNamed name = .ok kind
  scannable : (rulesFor kind).scannable
  engaged : ((rulesFor kind).canonicalDirection).isSome

theorem extractable_of_validated {raw result : ScanResult}
    (passed : ScanWorker.validateResult raw false = .ok result) :
    ∃ kind, Extractable result.kind kind := by
  simp only [ScanWorker.validateResult, bind_eq_ok] at passed
  obtain ⟨_, kindFine, _, -, _, -, currency, -, _, -, built⟩ := passed
  obtain rfl := Except.ok.inj built
  cases found : findKind raw.kind with
  | none => simp [ScanWorker.scanErrorIf, found] at kindFine
  | some kind =>
      have scannable : (rulesFor kind).scannable := by
        by_contra unusable
        simp [ScanWorker.scanErrorIf, found, unusable] at kindFine
      refine ⟨kind, ?_, scannable, canonicalDirection_of_scannable scannable⟩
      simp only [ScanWorker.kindNamed, found]

/-- What a snapshot says of the receipt's review. -/
theorem reviewed_of_selectSnapshot {ctx : Ctx store} {snapshot : Snapshot}
    (read : snapshot ∈ (ScanWorker.selectSnapshot claim false ctx).result) :
    ∃ row : ReceiptRow, (ctx.snap .receipts).get claim.receiptId = some row ∧
      snapshot.reviewed = row.reviewedAt.isSome := by
  obtain ⟨found, member, rfl⟩ := List.mem_map.mp read
  obtain ⟨listed, holds⟩ := List.mem_filter.mp member
  have isId : found.1 = claim.receiptId := by
    simp only [ScanWorker.holds, Bool.and_eq_true, beq_iff_eq] at holds
    exact holds.1.1
  exact ⟨found.2, isId ▸ Rows.mem_list.mp listed, rfl⟩

/-- The same of the locked one, which is of the row as it is when the lock is taken. -/
theorem reviewed_of_selectLocked {ctx : Ctx store} {snapshot : Snapshot}
    (read : snapshot ∈ (ScanWorker.selectSnapshot claim true ctx).result) :
    ∃ row : ReceiptRow, (ctx.cur .receipts).get claim.receiptId = some row ∧
      snapshot.reviewed = row.reviewedAt.isSome := by
  obtain ⟨found, member, rfl⟩ := List.mem_map.mp read
  obtain ⟨-, stored, holds⟩ := Ctx.mem_targets.mp member
  have isId : found.1 = claim.receiptId := by
    simp only [ScanWorker.holds, Bool.and_eq_true, beq_iff_eq] at holds
    exact holds.1.1
  exact ⟨found.2, isId ▸ stored, rfl⟩

/-- Extraction runs on checked kinds only. -/
structure ExtractionChecked (config : Config store outside Job) : Prop where
  /-- no row is reviewed in a first snapshot and unreviewed in a locked one that is later -/
  reviews : ∀ (claim : Claim) (first locked : History store outside) (reads locks : Ctx store)
    (snapshot branch : Snapshot), first <:+ locked → locked <:+ config.world.history →
    reads.snap = first.db → locks.cur = locked.db →
    snapshot ∈ (ScanWorker.selectSnapshot claim false reads).result →
    branch ∈ (ScanWorker.selectSnapshot claim true locks).result →
    snapshot.reviewed = true → branch.reviewed = true
  /-- so a result that passed its checks and is now an extraction has a kind for it -/
  checked : ∀ (claim : Claim) (first locked : History store outside) (reads locks : Ctx store)
    (snapshot branch : Snapshot), first <:+ locked → locked <:+ config.world.history →
    reads.snap = first.db → locks.cur = locked.db →
    snapshot ∈ (ScanWorker.selectSnapshot claim false reads).result →
    branch ∈ (ScanWorker.selectSnapshot claim true locks).result →
    ∀ raw result, ScanWorker.validateResult raw snapshot.reviewed = .ok result →
      branch.reviewed = false → ∃ kind, Extractable result.kind kind
  /-- and every extraction that is committed is one of a kind that was checked -/
  committed : ∀ (c : Commit store outside) (earlier : History store outside) (id : ℕ)
    (row : Option ReceiptRow), c :: earlier <:+ config.world.history →
    ⟨.receipts, id, row, .writeExtraction⟩ ∈ c.writes →
    ∃ (images : List SentImage) (raw result : ScanResult) (kind : Kind) (after : ReceiptRow),
      lastScan c.calls = some (images, .ok raw) ∧
      ScanWorker.validateResult raw false = .ok result ∧ Extractable result.kind kind ∧
      row = some after ∧ after.kind = kind ∧
      (rulesFor kind).canonicalDirection = some after.direction

/-- Extraction never runs on an unchecked kind. -/
theorem extraction_checked (reachable : Config.Reachable (application setup) config) :
    ExtractionChecked config where
  reviews := by
    intro claim first locked reads locks snapshot branch grown past isFirst isLocked read lock
      reviewed
    obtain ⟨before, was, isBefore⟩ := reviewed_of_selectSnapshot read
    obtain ⟨now, still, isNow⟩ := reviewed_of_selectLocked lock
    rw [isFirst] at was
    rw [isLocked] at still
    rw [isNow]
    exact reviewed_stays reachable past grown was still (isBefore ▸ reviewed)
  checked := by
    intro claim first locked reads locks snapshot branch grown past isFirst isLocked read lock raw
      result passed unreviewed
    obtain ⟨before, was, isBefore⟩ := reviewed_of_selectSnapshot read
    obtain ⟨now, still, isNow⟩ := reviewed_of_selectLocked lock
    rw [isFirst] at was
    rw [isLocked] at still
    have extracting : snapshot.reviewed = false := by
      by_contra reviewed
      rw [Bool.not_eq_false] at reviewed
      have stays := reviewed_stays reachable past grown was still (isBefore ▸ reviewed)
      rw [isNow, stays] at unreviewed
      cases unreviewed
    exact extractable_of_validated (extracting ▸ passed)
  committed := by
    intro c earlier id row past member
    have past' := (List.suffix_cons c earlier).trans past
    have wrote := (promised_of_reachable reachable past).wrote _ member
    cases wrote with
    | @extracted before claim result kind purchaseDate db stored scanned unreviewed named _ _ =>
        obtain ⟨first, keys, seen, raw, images, inside, old, was, -, sent, -, passed⟩ := scanned.sent
        have extracting : seen.reviewedAt.isSome = false := by
          by_contra reviewed
          rw [Bool.not_eq_false] at reviewed
          have stays := reviewed_stays reachable past' (inside.trans old) was stored reviewed
          simp [unreviewed] at stays
        rw [extracting] at passed
        obtain ⟨checked, extractable⟩ := extractable_of_validated passed
        have same : checked = kind := by
          have isChecked := extractable.named
          simp only [ScanWorker.kindNamed, named] at isChecked
          exact (Except.ok.inj isChecked).symm
        subst same
        obtain ⟨direction, fixed⟩ := Option.isSome_iff_exists.mp extractable.engaged
        refine ⟨images, raw, result, checked, _, sent, passed, extractable, rfl, rfl, ?_⟩
        simp only [ScanWorker.extractedRow, fixed, Option.getD_some]

theorem extraction_checked_of_oneScanned :
    (oneScanned.world.history.any fun c => c.writes.any fun write =>
      write.label = .writeExtraction) = true ∧ ExtractionChecked oneScanned :=
  ⟨by decide +kernel, extraction_checked reachable_oneScanned⟩

end ReceiptScanner

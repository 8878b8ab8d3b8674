import ReceiptScanner.Runs.Verified

/-!
# Claim tokens

The token of a claim is the instant it was made at, and no two claims of a receipt
share one: a row takes a token from the clock, after every commit so far, and every
other statement keeps the token of a row that is scanning or takes it off the lane.
A row that carries a claim at two instants has carried it all the time between.
-/

namespace ReceiptScanner

open ReadCommitted

variable {setup : Setup} {config : Config store outside Job} {c : Commit store outside}
  {h earlier : History store outside} {id : ℕ}

theorem ScanWorker.scanState_reclaimedRow {row : ReceiptRow} {state : ScanState}
    (after : (reclaimedRow setup row).scanState = state) :
    state = .scanFailed ∨ state = .uploaded := by
  rw [← after, reclaimedRow]
  dsimp only
  split <;> simp

theorem ScanWorker.scanState_failedRow {scanError : Bool} {cap : ℤ} {row : ReceiptRow}
    {state : ScanState} (after : (failedRow scanError cap row).scanState = state) :
    state = .scanFailed ∨ state = .uploaded := by
  rw [← after, failedRow]
  dsimp only
  generalize (if scanError = true then row.scanAttempts else row.reclaimCount) = counter
  split <;> simp

/-- A row that is written as scanning was scanning under the same token, or is
claimed now. -/
theorem ReceiptWrote.of_scanning {after : ReceiptRow} {label : Label}
    (wrote : ReceiptWrote setup h c id (some after) label) (scanning : after.scanState = .scanning) :
    ∃ before : ReceiptRow, (h.db .receipts).get id = some before ∧
      ((before.scanState = .scanning ∧ before.scanStartedAt = after.scanStartedAt ∧
          label ≠ .claim) ∨
        (before.scanState = .uploaded ∧ label = .claim ∧ ∃ token,
          after = ScanWorker.claimedRow token before ∧ (∀ other ∈ h, other.stop < token) ∧
          token ≤ c.stop)) := by
  cases wrote with
  | uploaded => cases scanning
  | requeued => cases scanning
  | created => cases scanning
  | patched stored => exact ⟨_, stored, Or.inl ⟨scanning, rfl, by decide⟩⟩
  | retried => cases scanning
  | unlinked stored => exact ⟨_, stored, Or.inl ⟨scanning, rfl, by decide⟩⟩
  | detached stored => exact ⟨_, stored, Or.inl ⟨scanning, rfl, by decide⟩⟩
  | reclaimed => exact absurd (ScanWorker.scanState_reclaimedRow scanning) (by decide)
  | claimed stored queued late inTime =>
      exact ⟨_, stored, Or.inr ⟨queued, rfl, _, rfl, late, inTime⟩⟩
  | failed => exact absurd (ScanWorker.scanState_failedRow scanning) (by decide)
  | extracted => cases scanning
  | verified => cases scanning

/-- A scanning row has a token, and some commit so far was no earlier. -/
def Tokened (h : History store outside) : Prop :=
  ∀ id, ∀ row : ReceiptRow, (h.db .receipts).get id = some row → row.scanState = .scanning →
    ∃ token, row.scanStartedAt = some token ∧ ∃ commit ∈ h, token ≤ commit.stop

theorem tokened_of_reachable (reachable : Config.Reachable (application setup) config)
    (past : h <:+ config.world.history) : Tokened h := by
  refine invariant_of_reachable reachable (fun _ _ stored => ?_) ?_ h past
  · simp at stored
  · intro c earlier _ promised tokened id row stored scanning
    rcases promised.row_cases .receipts id with ⟨same, -⟩ | ⟨now, label, -, isNow, wrote⟩
    · rw [same] at stored
      obtain ⟨token, carried, commit, member, late⟩ := tokened id row stored scanning
      exact ⟨token, carried, commit, List.mem_cons_of_mem _ member, late⟩
    · obtain rfl := isNow.symm.trans stored
      obtain ⟨before, wasStored, ⟨wasScanning, kept, -⟩ | ⟨-, -, token, rfl, -, inTime⟩⟩ :=
        ReceiptWrote.of_scanning wrote scanning
      · obtain ⟨token, carried, commit, member, late⟩ := tokened id before wasStored wasScanning
        exact ⟨token, kept ▸ carried, commit, List.mem_cons_of_mem _ member, late⟩
      · exact ⟨token, rfl, c, List.mem_cons_self, inTime⟩

/-- The receipt carries the claim. -/
def Carries (h : History store outside) (claim : Claim) (id : ℕ) : Prop :=
  ∃ row : ReceiptRow, (h.db .receipts).get id = some row ∧ ScanWorker.holds claim id row = true

theorem holds_iff {claim : Claim} {row : ReceiptRow} :
    ScanWorker.holds claim id row = true ↔ id = claim.receiptId ∧ row.scanState = .scanning ∧
      row.scanStartedAt = some claim.claimedAt := by
  simp [ScanWorker.holds, and_assoc]

/-- A claim that is not carried after its token was given is not carried after the
next commit. -/
theorem Promised.carries_of_cons (promised : Promised setup h c) {claim : Claim}
    (past : ∃ commit ∈ h, claim.claimedAt ≤ commit.stop) (after : Carries (c :: h) claim id) :
    Carries h claim id := by
  obtain ⟨row, stored, holds⟩ := after
  rcases promised.row_cases .receipts id with ⟨same, -⟩ | ⟨now, label, -, isNow, wrote⟩
  · exact ⟨row, same ▸ stored, holds⟩
  · obtain rfl := isNow.symm.trans stored
    obtain ⟨isId, scanning, carried⟩ := holds_iff.mp holds
    obtain ⟨before, wasStored, ⟨wasScanning, kept, -⟩ | ⟨-, -, token, rfl, late, -⟩⟩ :=
      ReceiptWrote.of_scanning wrote scanning
    · exact ⟨before, wasStored, holds_iff.mpr ⟨isId, wasScanning, kept.trans carried⟩⟩
    · -- the new token is later than every commit so far, the one of the claim is not
      obtain ⟨commit, member, early⟩ := past
      have same : token = claim.claimedAt := Option.some.inj carried
      have := late commit member
      omega

/-- A claim that is carried at two instants is carried at every instant between. -/
theorem carries_between (reachable : Config.Reachable (application setup) config)
    {first middle : History store outside} {claim : Claim} (past : h <:+ config.world.history)
    (atFirst : Carries first claim id) (began : first <:+ middle) (grown : middle <:+ h)
    (atLast : Carries h claim id) : Carries middle claim id := by
  induction h with
  | nil => exact List.suffix_nil.mp grown ▸ atLast
  | cons c h ih =>
      rcases List.suffix_cons_iff.mp grown with rfl | inside
      · exact atLast
      · have past' := (List.suffix_cons c h).trans past
        obtain ⟨row, stored, holds⟩ := atFirst
        obtain ⟨-, scanning, carried⟩ := holds_iff.mp holds
        obtain ⟨token, isToken, commit, member, early⟩ := tokened_of_reachable reachable
          ((began.trans inside).trans past') id row stored scanning
        obtain rfl := Option.some.inj (isToken.symm.trans carried)
        exact ih past' inside ((promised_of_reachable reachable past).carries_of_cons
          ⟨commit, (began.trans inside).subset member, early⟩ atLast)

end ReceiptScanner

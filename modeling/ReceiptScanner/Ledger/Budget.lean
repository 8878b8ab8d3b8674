import ReceiptScanner.Ledger.Tokens

/-!
# The budget of a queued scan

A receipt on the scan lane has units of both budgets left: whatever spends the last one
takes it off the lane, and `retryScan` puts it back with both budgets full. `addImages`
puts it back as it is; `requeuesFit` says that none does so with a budget used up.
-/

namespace ReceiptScanner

open ReadCommitted

variable {setup : Setup} {config : Config store outside Job} {c : Commit store outside}
  {h : History store outside} {id : ℕ}

/-- Neither budget of the receipt is used up. -/
def hasBudget (setup : Setup) (row : ReceiptRow) : Bool :=
  row.scanAttempts < setup.maxScanAttempts && row.reclaimCount < setup.maxReclaims

/-- A receipt that the commit re-queues for new images has units of both budgets left. -/
def requeuesFit (setup : Setup) (h : History store outside) (c : Commit store outside) : Bool :=
  c.writes.all fun
    | ⟨.receipts, id, _, .addImages⟩ => ((h.db .receipts).get id).all (hasBudget setup)
    | _ => true

/-- The receipt waits for a scan, or is being scanned. -/
def Queued (row : ReceiptRow) : Prop := row.scanState = .uploaded ∨ row.scanState = .scanning

theorem hasBudget_iff {row : ReceiptRow} : hasBudget setup row = true ↔
    row.scanAttempts < setup.maxScanAttempts ∧ row.reclaimCount < setup.maxReclaims := by
  simp [hasBudget]

/-- A row that a reclaim re-queues has budget left. -/
theorem ScanWorker.hasBudget_reclaimedRow {before : ReceiptRow}
    (left : hasBudget setup before = true) (queued : Queued (reclaimedRow setup before)) :
    hasBudget setup (reclaimedRow setup before) = true := by
  obtain ⟨attempts, -⟩ := hasBudget_iff.mp left
  refine hasBudget_iff.mpr ⟨attempts, ?_⟩
  change ((before.reclaimCount + 1 : ℕ) : ℤ) < setup.maxReclaims
  by_contra spent
  have state : (reclaimedRow setup before).scanState = .scanFailed := by
    simp only [reclaimedRow]
    exact if_pos (by omega)
  simp [Queued, state] at queued

/-- A row that a failure re-queues has budget left. -/
theorem ScanWorker.hasBudget_failedRow {before : ReceiptRow} {scanError terminal : Bool}
    (left : hasBudget setup before = true)
    (queued : Queued (failedRow scanError (failureCap setup scanError terminal) before)) :
    hasBudget setup (failedRow scanError (failureCap setup scanError terminal) before) = true := by
  obtain ⟨attempts, reclaims⟩ := hasBudget_iff.mp left
  have below : ((if scanError then before.scanAttempts else before.reclaimCount : ℕ) : ℤ) + 1 <
      failureCap setup scanError terminal := by
    by_contra spent
    have state : (failedRow scanError (failureCap setup scanError terminal) before).scanState =
        .scanFailed := by
      simp only [failedRow]
      exact if_pos (by omega)
    simp [Queued, state] at queued
  have real : terminal = false := by
    cases terminal with
    | false => rfl
    | true =>
        simp only [failureCap, if_true] at below
        omega
  rw [hasBudget_iff]
  cases scanError with
  | true =>
      simp only [failureCap, real, Bool.false_eq_true, if_false, if_true] at below
      exact ⟨by simpa [failedRow] using below, reclaims⟩
  | false =>
      simp only [failureCap, real, Bool.false_eq_true, if_false] at below
      exact ⟨attempts, by simpa [failedRow] using below⟩

/-- A row that is written onto the lane has budget left. -/
theorem ReceiptWrote.hasBudget (attempts : 1 ≤ setup.maxScanAttempts)
    (reclaims : 1 ≤ setup.maxReclaims) {row : ReceiptRow} {label : Label}
    (wrote : ReceiptWrote setup h c id (some row) label)
    (member : ⟨.receipts, id, some row, label⟩ ∈ c.writes) (fit : requeuesFit setup h c = true)
    (before : ∀ row : ReceiptRow, (h.db .receipts).get id = some row → Queued row →
      hasBudget setup row = true) (queued : Queued row) : hasBudget setup row = true := by
  have full : ∀ row : ReceiptRow, row.scanAttempts = 0 → row.reclaimCount = 0 →
      ReceiptScanner.hasBudget setup row = true := by
    intro row noAttempts noReclaims
    rw [hasBudget_iff, noAttempts, noReclaims]
    omega
  have kept : ∀ before : ReceiptRow, (h.db .receipts).get id = some before →
      row.scanState = before.scanState → row.scanAttempts = before.scanAttempts →
      row.reclaimCount = before.reclaimCount → ReceiptScanner.hasBudget setup row = true := by
    intro was stored state sameAttempts sameReclaims
    have left := hasBudget_iff.mp (before was stored (by rwa [Queued, ← state]))
    rwa [hasBudget_iff, sameAttempts, sameReclaims]
  cases wrote with
  | uploaded => exact full _ rfl rfl
  | @requeued before stored =>
      have here := List.all_eq_true.mp fit _ member
      simp only [stored, Option.all_some] at here
      exact here
  | created => simp [Queued, ReceiptService.manualRow] at queued
  | patched stored => exact kept _ stored rfl rfl rfl
  | retried => exact full _ rfl rfl
  | unlinked stored => exact kept _ stored rfl rfl rfl
  | detached stored => exact kept _ stored rfl rfl rfl
  | reclaimed stored scanning =>
      exact ScanWorker.hasBudget_reclaimedRow (before _ stored (Or.inr scanning)) queued
  | @claimed was token stored wasQueued =>
      have left : ReceiptScanner.hasBudget setup was = true := before was stored (Or.inl wasQueued)
      exact left
  | failed stored holds =>
      exact ScanWorker.hasBudget_failedRow
        (before _ stored (Or.inr (holds_iff.mp holds).2.1)) queued
  | extracted => simp [Queued, ScanWorker.extractedRow] at queued
  | verified => simp [Queued, ScanWorker.verifiedRow] at queued

/-- A queued scan has budget left, in every run in which images are added only to
receipts that have. -/
theorem queued_within_budget (attempts : 1 ≤ setup.maxScanAttempts)
    (reclaims : 1 ≤ setup.maxReclaims)
    (reachable : Config.Reachable (application setup) config)
    (fit : ∀ (c : Commit store outside) (earlier : History store outside),
      c :: earlier <:+ config.world.history → requeuesFit setup earlier c = true) :
    ∀ id, ∀ row : ReceiptRow, (config.world.history.db .receipts).get id = some row →
      (row.scanState = .uploaded ∨ row.scanState = .scanning) →
      row.scanAttempts < setup.maxScanAttempts ∧ row.reclaimCount < setup.maxReclaims := by
  intro id row stored queued
  refine hasBudget_iff.mp (invariant_of_reachable reachable
    (P := fun h => ∀ id, ∀ row : ReceiptRow, (h.db .receipts).get id = some row → Queued row →
      hasBudget setup row = true)
    (fun _ _ stored => ?_) ?_ _ List.suffix_rfl id row stored queued)
  · simp at stored
  · intro c earlier past promised before id row stored queued
    rcases promised.row_cases .receipts id with ⟨same, -⟩ | ⟨now, label, member, isNow, wrote⟩
    · exact before id row (same ▸ stored) queued
    · obtain rfl := isNow.symm.trans stored
      exact ReceiptWrote.hasBudget attempts reclaims wrote member (fit c earlier past) (before id)
        queued

/-- The provider refuses the scan of process `tid`. -/
def refused (tid : ℕ) : Move outside Job :=
  .reply tid fun
    | .scanReceipt _ _ => .error (.scanError "overloaded")
    | call => plainly "" { kind := "" } call

/-- Process `tid` scans its claim of a receipt with one image, in vain. -/
def failing (tid : ℕ) : List (Move outside Job) :=
  statements tid 2 ++ [answered tid "" { kind := "" }] ++ statements tid 2 ++ [refused tid] ++
    statements tid 1

/-- An upload whose scan fails. -/
def failedOnce : List (Move outside Job) :=
  registering 0 "ann" "secret" ++ uploading 1 1 ["image"] ++ polling 2 ++ failing 3 ++ [.step 3]

/-- One attempt is spent, one is left. -/
@[irreducible] def attempted : Config store outside Job :=
  Config.ran (application demo) failedOnce (by decide +kernel)

theorem reachable_attempted : Config.Reachable (application demo) attempted := by
  unfold attempted
  exact Config.reachable_ran _

theorem queued_within_budget_of_attempted : ∃ row : ReceiptRow,
    (attempted.world.history.db .receipts).get 1 = some row ∧ row.scanState = .uploaded ∧
      row.scanAttempts < demo.maxScanAttempts ∧ row.reclaimCount < demo.maxReclaims := by
  have queued : ((attempted.world.history.db .receipts).get 1).map ReceiptRow.scanState =
      some .uploaded := by decide +kernel
  obtain ⟨row, stored, isQueued⟩ := Option.map_eq_some_iff.mp queued
  exact ⟨row, stored, isQueued, queued_within_budget (by decide) (by decide) reachable_attempted
    (History.every_iff.mp (by decide +kernel)) 1 row stored (Or.inl isQueued)⟩

/-- Both attempts are spent, and the user adds an image. -/
@[irreducible] def overspent : Config store outside Job :=
  Config.ran (application demo) (failedOnce ++ polling 4 ++ failing 5 ++
    [answered 5 "" { kind := "" }, .step 5, .spawn (.addImages 1 1 ["more"] false)] ++
    statements 6 1 ++ [answered 6 "" { kind := "" }, .step 6] ++ statements 6 3 ++
    [answered 6 "key" { kind := "" }, answered 6 "" { kind := "" }] ++ statements 6 2 ++
    [.step 6, .step 6]) (by decide +kernel)

theorem reachable_overspent : Config.Reachable (application demo) overspent := by
  unfold overspent
  exact Config.reachable_ran _

theorem not_queued_within_budget_of_overspent : ¬ ∀ (setup : Setup)
    (config : Config store outside Job), 1 ≤ setup.maxScanAttempts → 1 ≤ setup.maxReclaims →
    Config.Reachable (application setup) config →
    ∀ id, ∀ row : ReceiptRow, (config.world.history.db .receipts).get id = some row →
      (row.scanState = .uploaded ∨ row.scanState = .scanning) →
      row.scanAttempts < setup.maxScanAttempts ∧ row.reclaimCount < setup.maxReclaims := by
  intro always
  have queued : ((overspent.world.history.db .receipts).get 1).map
      (fun row : ReceiptRow => (row.scanState, row.scanAttempts)) = some (.uploaded, 2) := by
    decide +kernel
  obtain ⟨row, stored, fields⟩ := Option.map_eq_some_iff.mp queued
  obtain ⟨isQueued, spent⟩ := Prod.mk.inj fields
  have left := (always demo overspent (by decide) (by decide) reachable_overspent 1 row stored
    (Or.inl isQueued)).1
  rw [spent] at left
  exact absurd left (by decide)

end ReceiptScanner

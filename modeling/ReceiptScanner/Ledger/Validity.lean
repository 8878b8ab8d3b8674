import ReceiptScanner.Runs.Verified

/-!
# Stored receipts are valid receipts

Manual entry and PATCH write what `validateReceipt` accepted, with the AUD equivalent
of the very total and rate they write. A scan writes fields one by one: a verify scan
none that a rule speaks of, an extraction all of them but the rate and the AUD
equivalent. So receipts stay valid as long as no extraction lands on a rate that does
not fit what was scanned.
-/

namespace ReceiptScanner

open ReadCommitted

variable {setup : Setup} {config : Config store outside Job} {c : Commit store outside}
  {h earlier : History store outside} {id : ℕ}

/-- The row passes the rules on a receipt, and its AUD equivalent is that of its total. -/
structure ValidRow (row : ReceiptRow) : Prop where
  rules : (ReceiptService.rowToEditable row).Valid
  equivalent : row.audEquivalentCents = audEquivalentCents row.totalCents row.fxRateToAud

/-- The columns that the rules are about. -/
def ruled (row : ReceiptRow) :=
  (row.kind, row.direction, row.taxDeductible, row.offsetsReceiptId, row.currency,
    row.fxRateToAud, row.totalCents, row.audEquivalentCents)

/-- Whether a row is valid depends on those columns alone. -/
theorem ValidRow.of_ruled {before after : ReceiptRow} (valid : ValidRow before)
    (same : ruled after = ruled before) : ValidRow after := by
  simp only [ruled, Prod.mk.injEq] at same
  obtain ⟨kind, direction, tax, offsets, currency, rate, total, equivalent⟩ := same
  obtain ⟨⟨isCanonical, allowed, links, foreign⟩, converted⟩ := valid
  simp only [ReceiptService.rowToEditable] at isCanonical allowed links foreign
  refine ⟨⟨?_, ?_, ?_, ?_⟩, ?_⟩ <;>
    simpa only [ReceiptService.rowToEditable, kind, direction, tax, offsets, currency, rate, total,
      equivalent]

/-- The rate and the AUD equivalent of the row, if it has a rate, fit the scanned
currency and total. -/
def rateFits (before : ReceiptRow) (scanned : ScanResult) : Bool :=
  before.fxRateToAud.isNone ||
    (scanned.currency.map Char.toUpper != "AUD" &&
      audEquivalentCents scanned.totalCents before.fxRateToAud == before.audEquivalentCents)

/-- Every extraction of the commit is of a row whose rate fits. -/
def ratesFit (h : History store outside) (c : Commit store outside) : Bool :=
  c.writes.all fun
    | ⟨.receipts, id, some _, .writeExtraction⟩ =>
        match (h.db .receipts).get id, lastScan c.calls with
        | some before, some (_, .ok scanned) => rateFits before scanned
        | _, _ => true
    | _ => true

/-- A result that passes its checks is the scanned one, its currency uppercased. -/
theorem ScanWorker.validateResult_eq_ok {scanned result : ScanResult} {verifying : Bool}
    (passed : validateResult scanned verifying = .ok result) :
    result = { scanned with currency := scanned.currency.map Char.toUpper } := by
  simp only [validateResult, bind_eq_ok] at passed
  obtain ⟨_, -, _, -, _, -, currency, upper, _, -, built⟩ := passed
  obtain rfl := Except.ok.inj built
  simp only [JsonInput.currency] at upper
  split at upper
  · obtain rfl := Except.ok.inj upper
    rfl
  · cases upper

/-- An extraction onto a valid row whose rate fits leaves it valid. -/
theorem ValidRow.extracted {before : ReceiptRow} (valid : ValidRow before)
    {scanned result : ScanResult} {verifying : Bool}
    (passed : ScanWorker.validateResult scanned verifying = .ok result)
    (fits : rateFits before scanned = true) (db : Db store) (kind : Kind)
    (purchaseDate : Option Date) (now : ℕ) :
    ValidRow (ScanWorker.extractedRow result kind purchaseDate
      (ScanWorker.rowToSnapshot db id before) now before) := by
  obtain rfl := ScanWorker.validateResult_eq_ok passed
  simp only [rateFits, Bool.or_eq_true, Option.isNone_iff_eq_none, Bool.and_eq_true, bne_iff_ne,
    beq_iff_eq] at fits
  have equivalent := valid.equivalent
  refine ⟨⟨?_, ?_, ?_, ?_⟩, ?_⟩
  · intro canonical fixed
    change (rulesFor kind).canonicalDirection = some canonical at fixed
    change canonical = ((rulesFor kind).canonicalDirection).getD before.direction
    rw [fixed, Option.getD_some]
  · intro deductible
    change (_ && (rulesFor kind).allowsTaxDeductible) = true at deductible
    exact (Bool.and_eq_true_iff.mp deductible).2
  · intro links
    change (if (rulesFor kind).canOffset then before.offsetsReceiptId else none).isSome = true
      at links
    change (rulesFor kind).canOffset = true
    by_contra cannot
    rw [if_neg cannot] at links
    cases links
  · intro rated
    change before.fxRateToAud.isSome = true at rated
    rcases fits with unrated | ⟨foreign, -⟩
    · simp [unrated] at rated
    · exact foreign
  · change before.audEquivalentCents = audEquivalentCents scanned.totalCents before.fxRateToAud
    rcases fits with unrated | ⟨-, same⟩
    · rw [equivalent, unrated]
      rfl
    · exact same.symm

/-- Every write of a receipt leaves it valid, if extractions fit. -/
theorem ReceiptWrote.valid {after : ReceiptRow} {label : Label}
    (wrote : ReceiptWrote setup h c id (some after) label)
    (member : ⟨.receipts, id, some after, label⟩ ∈ c.writes) (fit : ratesFit h c = true)
    (before : ∀ row : ReceiptRow, (h.db .receipts).get id = some row → ValidRow row) :
    ValidRow after := by
  cases wrote with
  | uploaded =>
      exact ⟨validateReceipt_ok_iff.mp (by rfl), rfl⟩
  | created fresh valid => exact ⟨⟨valid.direction, valid.tax, valid.offsets, valid.fx⟩, rfl⟩
  | patched stored applied =>
      have valid := applyReceiptPatch_valid applied
      exact ⟨⟨valid.direction, valid.tax, valid.offsets, valid.fx⟩, rfl⟩
  | unlinked stored =>
      obtain ⟨⟨direction, tax, -, rate⟩, equivalent⟩ := before _ stored
      exact ⟨⟨direction, tax, (fun links => by cases links), rate⟩, equivalent⟩
  | extracted stored scanned =>
      obtain ⟨first, keys, row, raw, images, -, -, -, -, sent, -, passed⟩ := scanned.sent
      have here := List.all_eq_true.mp fit _ member
      simp only [stored, sent] at here
      exact (before _ stored).extracted passed here _ _ _ _
  | requeued stored => exact (before _ stored).of_ruled rfl
  | retried stored => exact (before _ stored).of_ruled rfl
  | detached stored => exact (before _ stored).of_ruled rfl
  | reclaimed stored => exact (before _ stored).of_ruled rfl
  | claimed stored => exact (before _ stored).of_ruled rfl
  | failed stored => exact (before _ stored).of_ruled rfl
  | verified stored => exact (before _ stored).of_ruled rfl

/-- Stored receipts are valid, in every run whose extractions land on rates that fit. -/
theorem receipts_valid (reachable : Config.Reachable (application setup) config)
    (fit : ∀ (c : Commit store outside) (earlier : History store outside),
      c :: earlier <:+ config.world.history → ratesFit earlier c = true) :
    ∀ id, ∀ row : ReceiptRow, (config.world.history.db .receipts).get id = some row →
      validateReceipt (ReceiptService.rowToEditable row) = .ok () ∧
        row.audEquivalentCents = audEquivalentCents row.totalCents row.fxRateToAud := by
  have every : ∀ id, ∀ row : ReceiptRow, (config.world.history.db .receipts).get id = some row →
      ValidRow row := by
    refine invariant_of_reachable reachable
      (P := fun h => ∀ id, ∀ row : ReceiptRow, (h.db .receipts).get id = some row → ValidRow row)
      (fun _ _ stored => ?_) ?_ _ List.suffix_rfl
    · simp at stored
    · intro c earlier past promised valid id row stored
      rcases promised.row_cases .receipts id with ⟨same, -⟩ | ⟨now, label, member, isNow, wrote⟩
      · exact valid id row (same ▸ stored)
      · obtain rfl := isNow.symm.trans stored
        exact ReceiptWrote.valid wrote member (fit c earlier past) (valid id)
  intro id row stored
  exact ⟨validateReceipt_ok_iff.mpr (every id row stored).rules, (every id row stored).equivalent⟩

theorem receipts_valid_of_oneScanned : ∃ row : ReceiptRow,
    (oneScanned.world.history.db .receipts).get 1 = some row ∧
      validateReceipt (ReceiptService.rowToEditable row) = .ok () ∧
        row.audEquivalentCents = audEquivalentCents row.totalCents row.fxRateToAud := by
  have present : ((oneScanned.world.history.db .receipts).get 1).isSome = true := by decide +kernel
  obtain ⟨row, stored⟩ := Option.isSome_iff_exists.mp present
  exact ⟨row, stored, receipts_valid reachable_oneScanned
    (History.every_iff.mp (by decide +kernel)) 1 row stored⟩

/-- A user gives a scanned receipt a currency and a rate before its scan, which reads
Australian dollars. -/
def ratedScan : List (Move outside Job) :=
  registering 0 "ann" "secret" ++ uploading 1 1 ["image"] ++
    patching 2 1 1 (.object [("currency", .string "USD"), ("fx_rate_to_aud", .unsigned 2)]) ++
    polling 3 ++ extracting 4 1 { kind := "purchase", totalCents := 100 }

/-- Where that run ends. -/
def ratedScanned : Config store outside Job :=
  Config.ran (application demo) ratedScan (by decide +kernel)

theorem not_receipts_valid_of_ratedScanned : ¬ ∀ config : Config store outside Job,
    Config.Reachable (application demo) config → ∀ id, ∀ row : ReceiptRow,
      (config.world.history.db .receipts).get id = some row →
        validateReceipt (ReceiptService.rowToEditable row) = .ok () ∧
          row.audEquivalentCents = audEquivalentCents row.totalCents row.fxRateToAud := by
  intro always
  have bad : ((ratedScanned.world.history.db .receipts).get 1).any (fun row : ReceiptRow =>
      row.audEquivalentCents != audEquivalentCents row.totalCents row.fxRateToAud) = true := by
    decide +kernel
  obtain ⟨row, stored, unequal⟩ := (Option.any_eq_true _ _).mp bad
  exact bne_iff_ne.mp unequal (always ratedScanned (Config.reachable_ran _) 1 row stored).2

end ReceiptScanner

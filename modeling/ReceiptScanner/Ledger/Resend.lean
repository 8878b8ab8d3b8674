import ReceiptScanner.Ledger.Validity
import ReceiptScanner.Provider.Replies
import ReceiptScanner.Requests.Resend
import ReceiptScanner.Runs.Edits

/-!
# Every stored receipt can be sent back

Manual entry and PATCH store what the readers have made of a request, so those readers
leave it as it is. A scan stores a total, a currency and a date that have passed the same
readers, and two names that have not: they come back as they were exactly if they begin and
end with something other than whitespace.
-/

namespace ReceiptScanner

open ReadCommitted

variable {setup : Setup} {config : Config store outside Job} {c : Commit store outside}
  {h earlier : History store outside} {id : ℕ}

section Entries

variable {jobs : ℕ → Option Job}

/-- A commit of a manual entry is the one that its body describes. -/
def entries (setup : Setup) (jobs : ℕ → Option Job) : Guarantee store outside where
  commits _ c := ∀ userId body, jobs c.tid = some (.createManual userId body) →
    ReceiptService.EnteredReceipt setup c userId body
  calls _ _ _ _ := True

/-- Every job keeps that: no other is a manual entry. -/
theorem keeps_entries (setup : Setup) (jobs : ℕ → Option Job) :
    Keeps (application setup) (entries setup jobs) (Terms.free jobs) := by
  refine Keeps.of_free fun job tid world assigned => ?_
  cases job with
  | createManual userId body =>
      refine wp_job assigned (@ReceiptService.promises_entry
        ⟨setup, entries setup jobs, fun tid => jobs tid = some (.createManual userId body)⟩
        _ _ fun h c mine _ entered userId' body' is => ?_)
      cases mine.symm.trans is
      exact entered
  | _ =>
      refine Prog.wp_of_within (@Prog.within_all _ _ ⟨fun _ => True, fun _ => True⟩ _ _
        (fun _ => trivial) fun _ => trivial) (fun h c same _ _ userId body is => ?_)
        (fun _ _ _ _ => trivial) (fun _ _ _ _ => trivial) (Local.Stays.fresh _ _)
      rw [same, assigned] at is
      cases is

/-- Every receipt that a manual entry stores is the one that its body describes. -/
theorem entered_of_reachable (reachable : Config.Reachable (application setup) config)
    (suffix : c :: earlier <:+ config.world.history) {row : ReceiptRow}
    (member : ⟨.receipts, id, some row, .createManual⟩ ∈ c.writes) :
    ∃ userId input purchaseDate body, parseManualEntry body = .ok input ∧
      castDate? setup input.receipt.purchaseDate = .ok purchaseDate ∧
      row = ReceiptService.manualRow setup userId input.receipt purchaseDate c.start := by
  obtain ⟨job, isJob, labels⟩ := labels_of_reachable reachable (suffix.subset List.mem_cons_self)
  have listed := labels _ member
  cases job <;> simp [Job.labels] at listed
  rename_i userId body
  obtain ⟨input, purchaseDate, parsed, dated, isRow⟩ :=
    (keeps_entries setup config.jobs).sound reachable config.agrees_jobs suffix userId body isJob
      id row _ member
  exact ⟨userId, input, purchaseDate, body, parsed, dated, isRow⟩

end Entries

section Scans

/-- What has passed the checks of a scan has a total and a currency that the readers of a PATCH
leave as they are. -/
theorem ScanWorker.validateResult_settles {scanned result : ScanResult} {verifying : Bool}
    (passed : validateResult scanned verifying = .ok result) :
    0 ≤ result.totalCents ∧
      ∀ field, JsonInput.currency (.string result.currency) field = .ok result.currency := by
  have isResult := validateResult_eq_ok passed
  refine ⟨?_, ?_⟩
  · simp only [validateResult, bind_eq_ok, scanErrorIf] at passed
    obtain ⟨_, -, _, nonneg, -⟩ := passed
    split at nonneg
    · cases nonneg
    · rename_i total
      rw [isResult]
      simpa using total
  · simp only [validateResult, bind_eq_ok] at passed
    obtain ⟨_, -, _, -, _, -, code, upper, _, -, built⟩ := passed
    obtain rfl := Except.ok.inj built
    unfold providerReturned at upper
    split at upper
    · cases upper
    · exact currency_again upper

/-- The names that the scan of this commit has read, if any, begin and end with something
other than whitespace. -/
def tidyScan (c : Commit store outside) : Bool :=
  match lastScan c.calls with
  | some (_, .ok scanned) => scanned.merchant.all isTidy && scanned.storeNameRaw.all isTidy
  | _ => true

theorem tidy_of_scanned {claim : Claim} {before : ReceiptRow} {result : ScanResult}
    (scanned : Scanned h c claim id before result) (tidy : tidyScan c = true) {name : String}
    (either : result.merchant = some name ∨ result.storeNameRaw = some name) :
    isTidy name = true := by
  obtain ⟨_, _, _, raw, _, -, -, -, -, sent, -, passed⟩ := scanned.sent
  rw [ScanWorker.validateResult_eq_ok passed] at either
  simp only [tidyScan, sent, Bool.and_eq_true, Option.all_eq_true] at tidy
  exact either.elim (tidy.1 name) (tidy.2 name)

end Scans

section Rows

/-- A row as the readers leave it, its names tidy if those of the scans are. -/
structure SettledRow (h : History store outside) (row : ReceiptRow) : Prop where
  settled : (ReceiptService.rowToEditable row).Settled
  named : h.all tidyScan = true → (ReceiptService.rowToEditable row).Named

/-- Every write of a receipt other than a manual entry leaves it so. -/
theorem ReceiptWrote.settled {after : ReceiptRow} {label : Label}
    (wrote : ReceiptWrote setup h c id (some after) label) (other : label ≠ .createManual)
    (stored : ∀ row : ReceiptRow, (h.db .receipts).get id = some row → SettledRow h row) :
    SettledRow (c :: h) after := by
  have earlier (tidy : (c :: h).all tidyScan = true) : tidyScan c = true ∧ h.all tidyScan = true :=
    Bool.and_eq_true_iff.mp tidy
  -- A write that sets nothing a PATCH can set.
  have same {before : ReceiptRow} (was : (h.db .receipts).get id = some before)
      (kept : ReceiptService.rowToEditable after = ReceiptService.rowToEditable before) :
      SettledRow (c :: h) after :=
    ⟨kept ▸ (stored before was).settled,
      fun tidy => kept ▸ (stored before was).named (earlier tidy).2⟩
  cases wrote with
  | created => exact absurd rfl other
  | uploaded =>
      refine ⟨settled_default kDefaultKind, fun _ name either => ?_⟩
      rcases either with none | none <;> cases none
  | patched was applied references side dated =>
      obtain ⟨settled, named⟩ := applyReceiptPatch_settled applied (stored _ was).settled
      exact ⟨⟨⟨settled.total, settled.rate⟩, settled.currency, settled.paymentMethodId, settled.note,
        settled.offsetsReceiptId⟩, fun tidy => named ((stored _ was).named (earlier tidy).2)⟩
  | unlinked was =>
      obtain ⟨settled, named⟩ := stored _ was
      exact ⟨⟨⟨settled.total, settled.rate⟩, settled.currency,
        settled.paymentMethodId, settled.note, (fun _ none => by cases none)⟩,
        fun tidy => named (earlier tidy).2⟩
  | detached was =>
      obtain ⟨settled, named⟩ := stored _ was
      exact ⟨⟨⟨settled.total, settled.rate⟩, settled.currency,
        (fun _ none => by cases none), settled.note, settled.offsetsReceiptId⟩,
        fun tidy => named (earlier tidy).2⟩
  | extracted was scanned unreviewed kind cleared dated =>
      obtain ⟨settled, -⟩ := stored _ was
      obtain ⟨_, _, _, raw, _, -, -, -, -, sent, -, passed⟩ := scanned.sent
      obtain ⟨total, currency⟩ := ScanWorker.validateResult_settles passed
      refine ⟨⟨⟨total, settled.rate⟩, currency, settled.paymentMethodId, settled.note, ?_⟩,
        fun tidy name => tidy_of_scanned scanned (earlier tidy).1⟩
      intro target linked
      refine settled.offsetsReceiptId target ?_
      change target ∈ (if _ then _ else none) at linked
      split at linked
      · exact linked
      · cases linked
  | verified was scanned reviewed first suffix held filled judged dated =>
      obtain ⟨settled, named⟩ := stored _ was
      refine ⟨⟨⟨settled.total, settled.rate⟩, settled.currency, settled.paymentMethodId,
        settled.note, settled.offsetsReceiptId⟩, fun tidy name either => ?_⟩
      · have before := named (earlier tidy).2 name
        have scan := @tidy_of_scanned _ _ _ _ _ _ scanned (earlier tidy).1 name
        rcases either with merchant | store
        · rcases Option.or_eq_some_iff.mp merchant with old | ⟨-, new⟩
          · exact before (.inl old)
          · exact scan (.inl new)
        · rcases Option.or_eq_some_iff.mp store with old | ⟨-, new⟩
          · exact before (.inr old)
          · exact scan (.inr new)
  | requeued was => exact same was rfl
  | retried was => exact same was rfl
  | reclaimed was => exact same was rfl
  | claimed was => exact same was rfl
  | failed was => exact same was rfl

/-- A manual entry leaves its row so. -/
theorem settled_manualRow {body : Json} {input : ManualEntryInput} {purchaseDate : Option Date}
    {userId now : ℕ} (parsed : parseManualEntry body = .ok input) :
    SettledRow h (ReceiptService.manualRow setup userId input.receipt purchaseDate now) := by
  obtain ⟨settled, named, -⟩ := parseManualEntry_settled parsed
  refine ⟨⟨⟨settled.total, settled.rate⟩, settled.currency, settled.paymentMethodId, settled.note,
    settled.offsetsReceiptId⟩, fun _ name either => ?_⟩
  · rcases either with merchant | store
    · exact named name (.inl merchant)
    · cases store

/-- Every stored receipt is as the readers leave it. -/
theorem settled_of_reachable (reachable : Config.Reachable (application setup) config) :
    ∀ id, ∀ row : ReceiptRow, (config.world.history.db .receipts).get id = some row →
      SettledRow config.world.history row := by
  refine invariant_of_reachable reachable
    (P := fun h => ∀ id, ∀ row : ReceiptRow, (h.db .receipts).get id = some row → SettledRow h row)
    (fun _ _ stored => ?_) ?_ _ List.suffix_rfl
  · simp at stored
  · intro c earlier past promised before id row stored
    rcases promised.row_cases .receipts id with ⟨same, -⟩ | ⟨now, label, member, isNow, wrote⟩
    · obtain ⟨settled, named⟩ := before id row (same ▸ stored)
      exact ⟨settled, fun tidy => named (Bool.and_eq_true_iff.mp tidy).2⟩
    · obtain rfl := isNow.symm.trans stored
      by_cases entry : label = .createManual
      · subst entry
        obtain ⟨userId, input, purchaseDate, body, parsed, -, rfl⟩ :=
          entered_of_reachable reachable past member
        exact settled_manualRow parsed
      · exact ReceiptWrote.settled wrote entry (before id)

end Rows

section Resent

/-- A stored receipt is accepted as a client has read it. -/
structure ComesBack (stamp : ℕ → String) (h : History store outside) (id : ℕ) (row : ReceiptRow) :
    Prop where
  /-- No field but the two names can change. -/
  accepted : applyReceiptPatch (ReceiptService.rowToEditable row)
    (resent (ReceiptController.toJson stamp (ReceiptService.rowToSummary id row))) =
      .ok ({ ReceiptService.rowToEditable row with
        merchant := tidied row.merchant
        storeNameRaw := tidied row.storeNameRaw }, false)
  /-- Nothing changes exactly if they begin and end with something other than whitespace. -/
  unchanged : applyReceiptPatch (ReceiptService.rowToEditable row)
    (resent (ReceiptController.toJson stamp (ReceiptService.rowToSummary id row))) =
      .ok (ReceiptService.rowToEditable row, false) ↔ (ReceiptService.rowToEditable row).Named
  /-- So they do in every run whose scans read only such names. -/
  named : h.all tidyScan = true → (ReceiptService.rowToEditable row).Named

/-- Every stored receipt that passes the rules comes back, its names apart. -/
theorem comesBack (reachable : Config.Reachable (application setup) config)
    (stamp : ℕ → String) {row : ReceiptRow}
    (stored : (config.world.history.db .receipts).get id = some row)
    (valid : validateReceipt (ReceiptService.rowToEditable row) = .ok ())
    (fits : (ReceiptService.rowToEditable row).fitsColumns = true) :
    ComesBack stamp config.world.history id row := by
  obtain ⟨settled, named⟩ := settled_of_reachable reachable id row stored
  have rules := validateReceipt_ok_iff.mp valid
  exact ⟨applyReceiptPatch_resent rules settled fits,
    applyReceiptPatch_resent_iff rules settled fits, named⟩

theorem comesBack_of_oneScanned : ∃ row : ReceiptRow,
    (oneScanned.world.history.db .receipts).get 1 = some row ∧
      ComesBack (fun _ => "2026-01-01T00:00:00.000Z") oneScanned.world.history 1 row := by
  have sound : ((oneScanned.world.history.db .receipts).get 1).any (fun row : ReceiptRow =>
      decide (validateReceipt (ReceiptService.rowToEditable row) = .ok ()) &&
        (ReceiptService.rowToEditable row).fitsColumns) = true := by decide +kernel
  obtain ⟨row, stored, checked⟩ := (Option.any_eq_true _ _).mp sound
  obtain ⟨valid, fits⟩ := Bool.and_eq_true_iff.mp checked
  exact ⟨row, stored, comesBack reachable_oneScanned _ stored
    (of_decide_eq_true valid) fits⟩

/-- Every scan of the run is one that the provider can have read. -/
def ParsedScans (h : History store outside) : Prop :=
  ∀ c ∈ h, ∀ images scanned, lastScan c.calls = some (images, .ok scanned) →
    ∃ json body context, AnthropicScanProvider.parseResponse json body context = .ok scanned

/-- A reply with a space on either side of the merchant. -/
def paddedOutput : Json :=
  .object [("kind", .string "purchase"), ("currency", .string "AUD"), ("total", .float (25 / 2)),
    ("merchant", .string " ALDI "), ("items", .array [])]

/-- Its text. -/
def paddedText : String :=
  "\x7b\"kind\":\"purchase\",\"currency\":\"AUD\",\"total\":12.5,\"merchant\":\" ALDI \"," ++
  "\"items\":[]\x7d"

/-- The response with that text. -/
def paddedResponse : Json :=
  .object [("stop_reason", .string "end_turn"), ("content", .array
    [.object [("type", .string "text"), ("text", .string paddedText)]])]

/-- The body of that response. -/
def paddedBody : String :=
  "\x7b\"stop_reason\":\"end_turn\",\"content\":[\x7b\"type\":\"text\",\"text\":\"" ++
  "\x7b\\\"kind\\\":\\\"purchase\\\",\\\"currency\\\":\\\"AUD\\\",\\\"total\\\":12.5," ++
  "\\\"merchant\\\":\\\" ALDI \\\",\\\"items\\\":[]\x7d\"\x7d]\x7d"

/-- What it parses to. -/
def paddedResult : ScanResult :=
  { kind := "purchase", currency := "AUD", totalCents := 1250, merchant := some " ALDI " }

theorem parseResponse_padded : AnthropicScanProvider.parseResponse
    (AnthropicScanProvider.readerOf [(paddedBody, paddedResponse), (paddedText, paddedOutput)])
      paddedBody {} = .ok paddedResult := by
  decide +kernel

/-- One user uploads one image, and its scan reads that. -/
def paddedScan : List (Move outside Job) :=
  registering 0 "ann" "secret" ++ uploading 1 1 ["image"] ++ polling 2 ++ extracting 3 1 paddedResult

/-- Where that run ends. -/
def paddedScanned : Config store outside Job :=
  Config.ran (application demo) paddedScan (by decide +kernel)

theorem not_comesBack_of_paddedScanned : ¬ ∀ config : Config store outside Job,
    Config.Reachable (application demo) config → ParsedScans config.world.history →
    ∀ stamp id, ∀ row : ReceiptRow, (config.world.history.db .receipts).get id = some row →
      validateReceipt (ReceiptService.rowToEditable row) = .ok () →
      applyReceiptPatch (ReceiptService.rowToEditable row)
        (resent (ReceiptController.toJson stamp (ReceiptService.rowToSummary id row))) =
          .ok (ReceiptService.rowToEditable row, false) := by
  intro always
  have parsed : ParsedScans paddedScanned.world.history := by
    have only : (paddedScanned.world.history.all fun c =>
        (lastScan c.calls).all fun scan => scan.2.toOption.all (· = paddedResult)) = true := by
      decide +kernel
    intro c member images scanned sent
    have one := List.all_eq_true.mp only c member
    rw [sent] at one
    obtain rfl : scanned = paddedResult := by simpa [Except.toOption] using one
    exact ⟨_, _, _, parseResponse_padded⟩
  have bad : ((paddedScanned.world.history.db .receipts).get 1).any (fun row : ReceiptRow =>
      decide (validateReceipt (ReceiptService.rowToEditable row) = .ok ()) &&
        decide (applyReceiptPatch (ReceiptService.rowToEditable row) (resent
          (ReceiptController.toJson (fun _ => "") (ReceiptService.rowToSummary 1 row))) ≠
            .ok (ReceiptService.rowToEditable row, false))) = true := by
    decide +kernel
  obtain ⟨row, stored, checked⟩ := (Option.any_eq_true _ _).mp bad
  obtain ⟨valid, changed⟩ := Bool.and_eq_true_iff.mp checked
  exact of_decide_eq_true changed (always paddedScanned (Config.reachable_ran _) parsed _ 1 row
    stored (of_decide_eq_true valid))

end Resent

end ReceiptScanner

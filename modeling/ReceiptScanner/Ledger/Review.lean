import ReceiptScanner.Ledger.Replay

/-!
# How the review state moves

A receipt is confirmed when `reviewed_at` is no earlier than `proposed_at`. Both are
start times of transactions, so a review counts only if its transaction began after the
scan's that it comes to stand on; a PATCH that began before takes back even a review
that a scan has confirmed.
-/

namespace ReceiptScanner

open ReadCommitted

variable {setup : Setup} {config : Config store outside Job} {c : Commit store outside}
  {h : History store outside} {id : ℕ}

/-- A PATCH that marks the receipt reviewed began no earlier than the last scan that wrote
to it. -/
def reviewInTime (jobs : ℕ → Option Job) (h : History store outside) (c : Commit store outside) :
    Bool :=
  match jobs c.tid with
  | some (.updateReceipt _ receiptId body) =>
      !body.contains "reviewed" || ((h.db .receipts).get receiptId).all fun (row : ReceiptRow) =>
        row.proposedAt.all (· ≤ c.start)
  | _ => true

/-- A PATCH marks the receipt reviewed exactly when its body has the key. -/
theorem applyReceiptPatch_reviewed {r patched : EditableReceipt} {body : Json} {marked : Bool}
    (applied : applyReceiptPatch r body = .ok (patched, marked)) :
    marked = body.contains "reviewed" := by
  simp only [applyReceiptPatch, bind_eq_ok] at applied
  obtain ⟨_, -, _, -, _, -, _, -, _, -, _, -, reviewed, read, _, -, built⟩ := applied
  obtain ⟨-, rfl⟩ := Prod.mk.inj (Except.ok.inj built)
  unfold patchReviewed at read
  split at read
  · rename_i absent
    simp [Json.contains, absent, Except.ok.inj read]
  · rename_i value present
    obtain ⟨_, -, _, -, isTrue⟩ := by simpa only [bind_eq_ok] using read
    simp [Json.contains, present, Except.ok.inj isTrue]

/-- A row reviewed no earlier than it was proposed is confirmed. -/
theorem isConfirmed_of_le {row : ReceiptRow} {reviewed : ℕ} (at_ : row.reviewedAt = some reviewed)
    (le : ∀ proposed, row.proposedAt = some proposed → proposed ≤ reviewed) :
    row.isConfirmed = true := by
  unfold ReceiptRow.isConfirmed
  cases proposed : row.proposedAt <;> simp_all

/-- The review state depends on the two instants alone. -/
theorem isConfirmed_congr {left right : ReceiptRow} (proposed : left.proposedAt = right.proposedAt)
    (reviewed : left.reviewedAt = right.reviewedAt) : left.isConfirmed = right.isConfirmed := by
  simp [ReceiptRow.isConfirmed, proposed, reviewed]

/-- A PATCH in time that reviews a receipt leaves it confirmed, and any other PATCH leaves
it in the state it was in. -/
theorem PatchedReceipt.confirmed {body : Json} {before after : ReceiptRow}
    (patched : PatchedReceipt setup h c id body) (promised : Promised setup h c)
    (was : (h.db .receipts).get id = some before)
    (now : ((History.db (c :: h)) .receipts).get id = some after) :
    (body.contains "reviewed" = true → before.proposedAt.all (· ≤ c.start) = true →
      after.isConfirmed = true) ∧
    (body.contains "reviewed" = false → after.isConfirmed = before.isConfirmed) := by
  obtain @⟨_, r, marked, purchaseDate, stored, applied, dated, wrote⟩ := patched
  obtain rfl := Option.some.inj (was.symm.trans stored)
  have written := promised.get (by decide) (wrote ▸ List.mem_cons_self :
    (⟨.receipts, id, some (ReceiptService.patchedRow r purchaseDate marked c.start before),
      .updateReceipt⟩ : Write store) ∈ c.writes)
  obtain rfl := Option.some.inj (written.symm.trans now)
  refine ⟨fun reviewed inTime => ?_, fun unreviewed => ?_⟩
  · obtain rfl : marked = true := (applyReceiptPatch_reviewed applied).trans reviewed
    refine isConfirmed_of_le (rfl : _ = some c.start) fun proposed at_ => ?_
    have proposedAt : before.proposedAt = some proposed := at_
    simpa [proposedAt] using inTime
  · obtain rfl : marked = false := (applyReceiptPatch_reviewed applied).trans unreviewed
    exact isConfirmed_congr rfl rfl

/-- Before a verify scan, the receipt had been reviewed earlier than the scan's
transaction began. -/
theorem Scanned.reviewed_lt (reachable : Config.Reachable (application setup) config)
    (past : c :: h <:+ config.world.history) {claim : Claim} {before : ReceiptRow}
    {result : ScanResult} (scanned : Scanned h c claim id before result)
    (was : (h.db .receipts).get id = some before) {reviewed : ℕ}
    (at_ : before.reviewedAt = some reviewed) : reviewed < c.start := by
  have past' := (List.suffix_cons c h).trans past
  obtain ⟨seen, row, suffix, short, stored, stamp, -⟩ := scanned.compared
  have same := congrArg Compared.reviewedAt (compared_eq reachable past' suffix stored was stamp.symm)
  have there : row.reviewedAt = some reviewed := same.symm.trans at_
  obtain ⟨other, member, rfl⟩ :=
    (stamped_of_reachable reachable seen (suffix.trans past') id row stored).reviewed _ there
  have timely := timely_of_reachable reachable
  exact (timely.lasting other (past'.subset (suffix.subset member))).trans
    (timely.stop_lt past suffix short other member)

/-- What a verify scan leaves is confirmed if it matched, and else needs review. -/
theorem verified_review (reachable : Config.Reachable (application setup) config)
    (past : c :: h <:+ config.world.history) {claim : Claim} {before : ReceiptRow}
    {result : ScanResult} {purchaseDate : Option Date} {allMatch : Bool}
    (scanned : Scanned h c claim id before result) (was : (h.db .receipts).get id = some before)
    (reviewed : before.reviewedAt.isSome) :
    let after := ScanWorker.verifiedRow result purchaseDate allMatch c.start before
    after.isConfirmed = allMatch ∧ after.needsReview = !allMatch := by
  obtain ⟨instant, at_⟩ := Option.isSome_iff_exists.mp reviewed
  have earlier := scanned.reviewed_lt reachable past was at_
  cases allMatch with
  | true => simp [ScanWorker.verifiedRow, ReceiptRow.isConfirmed, ReceiptRow.needsReview]
  | false =>
      simpa [ScanWorker.verifiedRow, ReceiptRow.isConfirmed, ReceiptRow.needsReview, at_] using earlier

/-- Nothing but a PATCH takes a confirmed receipt out of that state, but for a verify scan
that did not match. -/
theorem ReceiptWrote.confirmed (reachable : Config.Reachable (application setup) config)
    (past : c :: h <:+ config.world.history) {before after : ReceiptRow} {label : Label}
    (wrote : ReceiptWrote setup h c id (some after) label)
    (was : (h.db .receipts).get id = some before) (confirmed : before.isConfirmed = true)
    (other : label ≠ .updateReceipt) :
    after.isConfirmed = true ∨ label = .writeVerify ∧ ∃ result purchaseDate,
      after = ScanWorker.verifiedRow result purchaseDate false c.start before := by
  have kept {row : ReceiptRow} (stored : (h.db .receipts).get id = some row) :
      row.isConfirmed = true := Option.some.inj (was.symm.trans stored) ▸ confirmed
  cases wrote with
  | uploaded fresh => simp [fresh.get List.suffix_rfl] at was
  | created fresh => simp [fresh.get List.suffix_rfl] at was
  | requeued stored => exact Or.inl (kept stored :)
  | retried stored => exact Or.inl (kept stored :)
  | unlinked stored => exact Or.inl (kept stored :)
  | detached stored => exact Or.inl (kept stored :)
  | reclaimed stored => exact Or.inl (kept stored :)
  | claimed stored => exact Or.inl (kept stored :)
  | failed stored => exact Or.inl (kept stored :)
  | patched => exact absurd rfl other
  | extracted stored _ unreviewed =>
      obtain rfl := Option.some.inj (was.symm.trans stored)
      simp [ReceiptRow.isConfirmed, unreviewed] at confirmed
  | @verified _ _ result purchaseDate allMatch _ _ stored scanned reviewed =>
      obtain rfl := Option.some.inj (was.symm.trans stored)
      cases allMatch with
      | true => exact Or.inl (verified_review reachable past scanned was reviewed).1
      | false => exact Or.inr ⟨rfl, result, purchaseDate, rfl⟩

/-- The review state moves as designed in every run in which a PATCH that reviews a receipt
has begun no earlier than the scan it comes to stand on. -/
theorem review_moves (reachable : Config.Reachable (application setup) config)
    (inTime : ∀ (c : Commit store outside) (h : History store outside),
      c :: h <:+ config.world.history → reviewInTime config.jobs h c = true) :
    ∀ (c : Commit store outside) (h : History store outside), c :: h <:+ config.world.history →
      (∀ userId id body, config.jobs c.tid = some (.updateReceipt userId id body) →
        body.contains "reviewed" = true → ∃ after : ReceiptRow,
          ((History.db (c :: h)) .receipts).get id = some after ∧ after.isConfirmed = true) ∧
      (∀ id (before after : ReceiptRow), (h.db .receipts).get id = some before →
        ((History.db (c :: h)) .receipts).get id = some after →
        before.isConfirmed = true → after.isConfirmed = false → ∃ result purchaseDate,
          ⟨.receipts, id, some (ScanWorker.verifiedRow result purchaseDate false c.start before),
            .writeVerify⟩ ∈ c.writes) ∧
      ∀ id row, ⟨.receipts, id, row, .writeVerify⟩ ∈ c.writes →
        ∃ (before : ReceiptRow) (result : ScanResult) (purchaseDate : Option Date)
          (allMatch : Bool), (h.db .receipts).get id = some before ∧
          row = some (ScanWorker.verifiedRow result purchaseDate allMatch c.start before) ∧
          (ScanWorker.verifiedRow result purchaseDate allMatch c.start before).isConfirmed =
            allMatch ∧
          (ScanWorker.verifiedRow result purchaseDate allMatch c.start before).needsReview =
            !allMatch := by
  intro c h past
  have promised := promised_of_reachable reachable past
  -- A PATCH that reviews a receipt leaves it confirmed.
  have patched : ∀ userId id body, config.jobs c.tid = some (.updateReceipt userId id body) →
      body.contains "reviewed" = true → ∀ before after : ReceiptRow,
      (h.db .receipts).get id = some before →
      ((History.db (c :: h)) .receipts).get id = some after → after.isConfirmed = true := by
    intro userId id body isJob reviewed before after was now
    have timely := inTime c h past
    simp only [reviewInTime, isJob, reviewed, was, Bool.not_true, Bool.false_or,
      Option.all_some] at timely
    exact (PatchedReceipt.confirmed (edited_of_reachable reachable past isJob) promised was now).1
      reviewed timely
  refine ⟨fun userId id body isJob reviewed => ?_, fun id before after was now confirmed lost => ?_,
    fun id row member => ?_⟩
  · obtain ⟨before, after, was, now, -⟩ := patch_keeps reachable past isJob
    exact ⟨after, now, patched userId id body isJob reviewed before after was now⟩
  · rcases promised.row_cases .receipts id with ⟨same, -⟩ | ⟨row, label, member, isNow, wrote⟩
    · obtain rfl := Option.some.inj ((now.symm.trans same).trans was)
      exact absurd (confirmed.symm.trans lost) (by decide)
    obtain rfl := isNow.symm.trans now
    by_cases isPatch : label = .updateReceipt
    · obtain ⟨job, isJob, labels⟩ := labels_of_reachable reachable (past.subset List.mem_cons_self)
      have mine := labels _ member
      subst isPatch
      cases job <;> simp [Job.labels] at mine
      rename_i userId receiptId body
      have edited : PatchedReceipt setup h c receiptId body := edited_of_reachable reachable past isJob
      obtain rfl := edited.only member
      cases reviewed : body.contains "reviewed" with
      | true => exact absurd (patched _ _ _ isJob reviewed before after was now) (by simp [lost])
      | false =>
          have same := (edited.confirmed promised was now).2 reviewed
          exact absurd (confirmed.symm.trans (same.symm.trans lost)) (by decide)
    · rcases ReceiptWrote.confirmed reachable past wrote was confirmed isPatch with
        still | ⟨rfl, result, purchaseDate, rfl⟩
      · exact absurd (still.symm.trans lost) (by decide)
      · exact ⟨result, purchaseDate, member⟩
  · cases promised.wrote _ member with
    | @verified before _ result purchaseDate allMatch _ _ stored scanned reviewed =>
        exact ⟨before, result, purchaseDate, allMatch, stored, rfl,
          verified_review reachable past scanned stored reviewed⟩

/-- The job is a PATCH that marks receipt 1 reviewed. -/
def marksReviewed : Option Job → Bool
  | some (.updateReceipt _ 1 body) => body.contains "reviewed"
  | _ => false

theorem marksReviewed_iff {job : Option Job} : marksReviewed job = true ↔
    ∃ userId body, job = some (.updateReceipt userId 1 body) ∧ body.contains "reviewed" = true := by
  constructor
  · intro found
    unfold marksReviewed at found
    split at found
    · exact ⟨_, _, rfl, found⟩
    · cases found
  · rintro ⟨userId, body, rfl, reviewed⟩
    exact reviewed

theorem review_moves_of_reviewed : ∃ (c : Commit store outside) (h : History store outside)
    (after : ReceiptRow), reviewed.world.history.drop 2 = c :: h ∧
      ((History.db (c :: h)) .receipts).get 1 = some after ∧ after.isConfirmed = true := by
  have last : (match reviewed.world.history.drop 2 with
      | c :: _ => marksReviewed (reviewed.jobs c.tid)
      | [] => false) = true := by decide +kernel
  cases history : reviewed.world.history.drop 2 with
  | nil => simp [history] at last
  | cons c h =>
      rw [history] at last
      obtain ⟨userId, body, isJob, marked⟩ := marksReviewed_iff.mp last
      obtain ⟨after, now, confirmed⟩ := (review_moves reachable_reviewed
        (History.every_iff.mp (by decide +kernel)) c h (history ▸ List.drop_suffix _ _)).1 userId 1
        body isJob marked
      exact ⟨c, h, after, rfl, now, confirmed⟩

/-- A PATCH that reviews the receipt begins while a worker scans it. It commits after the
scan, whose transaction began later. -/
@[irreducible] def outpaced : Config store outside Job :=
  Config.ran (application demo)
    (registering 0 "ann" "secret" ++ uploading 1 1 ["image"] ++ polling 2 ++
      [.spawn (.updateReceipt 1 1 (.object [("reviewed", .boolean true)])), .step 4] ++
      extracting 3 1 { kind := "purchase" } ++ statements 4 3 ++ [.step 4, .step 4])
    (by decide +kernel)

theorem reachable_outpaced : Config.Reachable (application demo) outpaced := by
  unfold outpaced
  exact Config.reachable_ran _

theorem not_review_moves_of_outpaced : ¬ ∀ config : Config store outside Job,
    Config.Reachable (application demo) config →
    ∀ (c : Commit store outside) (h : History store outside), c :: h <:+ config.world.history →
      ∀ userId id body, config.jobs c.tid = some (.updateReceipt userId id body) →
        body.contains "reviewed" = true → ∃ after : ReceiptRow,
          ((History.db (c :: h)) .receipts).get id = some after ∧ after.isConfirmed = true := by
  intro always
  have last : (match outpaced.world.history with
      | c :: h => marksReviewed (outpaced.jobs c.tid) && (((History.db (c :: h)) .receipts).get 1).any
          fun row : ReceiptRow => !row.isConfirmed
      | [] => false) = true := by decide +kernel
  cases history : outpaced.world.history with
  | nil => simp [history] at last
  | cons c h =>
      simp only [history, Bool.and_eq_true, Option.any_eq_true, Bool.not_eq_true'] at last
      obtain ⟨isPatch, row, stored, unconfirmed⟩ := last
      obtain ⟨userId, body, isJob, marked⟩ := marksReviewed_iff.mp isPatch
      obtain ⟨after, now, confirmed⟩ := always outpaced reachable_outpaced c h
        (history ▸ List.suffix_rfl) userId 1 body isJob marked
      obtain rfl := Option.some.inj (now.symm.trans stored)
      exact absurd (confirmed.symm.trans unconfirmed) (by decide)

end ReceiptScanner

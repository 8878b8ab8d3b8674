import ReceiptScanner.Ledger.Tokens

/-!
# The images of a scan

A scan reads the keys of the images without a lock, long before its result is written.
What ties the two together is the claim: a row that carries it at the write has carried
it since the keys were read, and an image cannot be added meanwhile without taking it
away.
-/

namespace ReceiptScanner

open ReadCommitted

variable {setup : Setup} {config : Config store outside Job} {c : Commit store outside}
  {h earlier : History store outside} {id : ℕ}

theorem mem_imageRows {db : Db store} {image : ℕ} :
    image ∈ imageRows db id ↔ ∃ row : ReceiptImageRow,
      (db .receiptImages).get image = some row ∧ row.receiptId = id := by
  simp [imageRows]

/-- A commit after which the receipt stands, and is not queued, leaves its images. -/
theorem Promised.mem_imageRows_iff (promised : Promised setup h c) {row : ReceiptRow}
    (after : ((History.db (c :: h)) .receipts).get id = some row)
    (notQueued : row.scanState ≠ .uploaded) (image : ℕ) :
    image ∈ imageRows (History.db (c :: h)) id ↔ image ∈ imageRows (History.db h) id := by
  simp only [mem_imageRows]
  rcases promised.row_cases .receiptImages image with ⟨same, -⟩ | ⟨now, label, -, isNow, wrote⟩
  · rw [same]
  · rw [isNow]
    cases wrote with
    | @stored row' receipt label owned queued state fresh =>
        have elsewhere : row'.receiptId ≠ id := by
          rintro rfl
          have stands := promised.get (by decide) queued
          obtain rfl := Option.some.inj (stands.symm.trans after)
          exact notQueued state
        have unused := fresh.get List.suffix_rfl
        simp [unused, elsewhere]
    | @cascaded before stored gone =>
        have elsewhere : before.receiptId ≠ id := by
          rintro rfl
          have removed := promised.get (by decide) gone
          exact absurd (removed.symm.trans after) (by simp)
        simp [stored, elsewhere]

/-- A receipt that was never stored has no images. -/
theorem not_mem_imageRows (intact : Intact (schema setup.lower) h.db)
    (fresh : Unused h .receipts id) (image : ℕ) : image ∉ imageRows h.db id := by
  rw [mem_imageRows]
  rintro ⟨row, stored, rfl⟩
  exact intact .receiptImages image row stored (.receipts, row.receiptId) (by simp [schema, refs])
    (fresh.get List.suffix_rfl)

/-- The commit stores the result of a scan of the receipt. -/
def applies (id : ℕ) (c : Commit store outside) : Bool :=
  c.writes.any fun write => write.table = Table.receipts && write.id = id &&
    (write.label = Label.writeExtraction || write.label = Label.writeVerify)

/-- The images that the last scan applied to the receipt had sent, none if none was. -/
def sentRows (h : History store outside) (id : ℕ) : List ℕ :=
  match (h.find? (applies id)).bind fun c => lastScan c.calls with
  | some (images, _) => images.map SentImage.row
  | none => []

theorem applies_iff : applies id c = true ↔ ∃ row label, ⟨.receipts, id, row, label⟩ ∈ c.writes ∧
    (label = .writeExtraction ∨ label = .writeVerify) := by
  simp only [applies, List.any_eq_true, Bool.and_eq_true, Bool.or_eq_true, decide_eq_true_eq]
  constructor
  · rintro ⟨⟨table, other, row, label⟩, member, ⟨rfl, rfl⟩, which⟩
    exact ⟨row, label, member, which⟩
  · rintro ⟨row, label, member, which⟩
    exact ⟨_, member, ⟨rfl, rfl⟩, which⟩

/-- A commit that leaves the row, or writes it otherwise, applies no scan. -/
theorem Promised.not_applies (promised : Promised setup h c) {row : Option ReceiptRow}
    {label : Label} (member : ⟨.receipts, id, row, label⟩ ∈ c.writes)
    (other : label ≠ .writeExtraction ∧ label ≠ .writeVerify) : applies id c = false := by
  rw [Bool.eq_false_iff, ne_eq, applies_iff]
  rintro ⟨row', label', scanned, which⟩
  obtain ⟨-, rfl⟩ := promised.unique (by decide) member scanned
  exact which.elim other.1 other.2

theorem not_applies_of_untouched (untouched : ∀ write ∈ c.writes, ¬ write.Touches .receipts id) :
    applies id c = false := by
  rw [Bool.eq_false_iff, ne_eq, applies_iff]
  rintro ⟨row, label, scanned, -⟩
  exact untouched _ scanned ⟨rfl, rfl⟩

theorem sentRows_cons_of_not (not : applies id c = false) : sentRows (c :: h) id = sentRows h id := by
  simp [sentRows, not]

theorem sentRows_cons_of_applies (scan : applies id c = true) {images : List SentImage}
    {answer : Except Err ScanResult} (sent : lastScan c.calls = some (images, answer)) :
    sentRows (c :: h) id = images.map SentImage.row := by
  simp [sentRows, scan, sent]

/-- Nothing was sent for a receipt that was never stored. -/
theorem sentRows_of_unused (fresh : Unused h .receipts id) : sentRows h id = [] := by
  have none : h.find? (applies id) = none := by
    refine List.find?_eq_none.mpr fun commit member => ?_
    rw [not_applies_of_untouched (fresh commit member)]
    decide
  simp [sentRows, none]

/-- A claim that is carried from one instant to another keeps the images of its receipt. -/
theorem imageRows_between (reachable : Config.Reachable (application setup) config)
    {keys : History store outside} (past : h <:+ config.world.history) (grown : keys <:+ h)
    (carried : ∀ middle : History store outside, keys <:+ middle → middle <:+ h →
      ∃ row : ReceiptRow, (middle.db .receipts).get id = some row ∧ row.scanState = .scanning)
    (image : ℕ) : image ∈ imageRows h.db id ↔ image ∈ imageRows keys.db id := by
  induction h with
  | nil => rw [List.suffix_nil.mp grown]
  | cons c h ih =>
      rcases List.suffix_cons_iff.mp grown with rfl | inside
      · rfl
      · obtain ⟨row, stored, scanning⟩ := carried (c :: h) grown List.suffix_rfl
        rw [(promised_of_reachable reachable past).mem_imageRows_iff stored (by simp [scanning]),
          ih ((List.suffix_cons c h).trans past) inside fun middle after within =>
            carried middle after (within.trans (List.suffix_cons c h))]

/-- What was sent for a result that is written is what the receipt has. -/
theorem Scanned.images {claim : Claim} {before : ReceiptRow} {result : ScanResult}
    (reachable : Config.Reachable (application setup) config) (past : h <:+ config.world.history)
    (stored : (h.db .receipts).get id = some before) (scanned : Scanned h c claim id before result) :
    ∃ images answer, lastScan c.calls = some (images, answer) ∧
      ∀ image, image ∈ imageRows h.db id ↔ image ∈ images.map SentImage.row := by
  obtain ⟨first, keys, row, raw, images, began, grown, atFirst, holdsFirst, sent, same, -⟩ :=
    scanned.sent
  refine ⟨images, .ok raw, sent, fun image => Iff.trans
    (imageRows_between reachable past grown (fun middle after within => ?_) image) (same image).symm⟩
  obtain ⟨row', stored', holds'⟩ := carries_between reachable past ⟨row, atFirst, holdsFirst⟩
    (began.trans after) within ⟨before, stored, scanned.holds⟩
  exact ⟨row', stored', (holds_iff.mp holds').2.1⟩

/-- A scan that is applied had sent the images that the receipt has at that moment. -/
theorem Promised.images_of_applies (reachable : Config.Reachable (application setup) config)
    (past : c :: h <:+ config.world.history) (scan : applies id c = true) :
    ∃ images answer, lastScan c.calls = some (images, answer) ∧
      ∀ image, image ∈ imageRows h.db id ↔ image ∈ images.map SentImage.row := by
  have past' := (List.suffix_cons c h).trans past
  obtain ⟨row, label, member, which⟩ := applies_iff.mp scan
  have wrote := (promised_of_reachable reachable past).wrote _ member
  cases wrote with
  | extracted stored scanned => exact scanned.images reachable past' stored
  | verified stored scanned => exact scanned.images reachable past' stored
  | _ => simp at which

/-- The images of an idle receipt are those that its last scan had sent. -/
def Complete (h : History store outside) : Prop :=
  ∀ id, ∀ row : ReceiptRow, (h.db .receipts).get id = some row → row.scanState = .idle →
    ∀ image, image ∈ imageRows h.db id ↔ image ∈ sentRows h id

/-- A commit that leaves an idle receipt idle without a scan leaves it complete. -/
theorem Complete.cons (complete : Complete h) (promised : Promised setup h c)
    {before row : ReceiptRow} (after : ((History.db (c :: h)) .receipts).get id = some row)
    (idle : row.scanState = .idle) (stored : (h.db .receipts).get id = some before)
    (wasIdle : before.scanState = .idle) (not : applies id c = false) (image : ℕ) :
    image ∈ imageRows (History.db (c :: h)) id ↔ image ∈ sentRows (c :: h) id := by
  rw [promised.mem_imageRows_iff after (by simp [idle]), sentRows_cons_of_not not]
  exact complete id before stored wasIdle image

theorem complete_of_reachable (reachable : Config.Reachable (application setup) config)
    (past : h <:+ config.world.history) : Complete h := by
  refine invariant_of_reachable reachable (fun _ _ stored => ?_) ?_ h past
  · simp at stored
  · intro c earlier past promised complete id row after idle image
    rcases promised.row_cases .receipts id with ⟨same, untouched⟩ | ⟨now, label, member, isNow, wrote⟩
    · exact complete.cons promised after idle (same ▸ after) idle
        (not_applies_of_untouched untouched) image
    obtain rfl := isNow.symm.trans after
    have scan : label = .writeExtraction ∨ label = .writeVerify →
        (image ∈ imageRows (History.db (c :: earlier)) id ↔ image ∈ sentRows (c :: earlier) id) := by
      intro which
      have scan := applies_iff.mpr ⟨_, label, member, which⟩
      obtain ⟨images, answer, sent, same⟩ := Promised.images_of_applies reachable past scan
      rw [promised.mem_imageRows_iff after (by simp [idle]), same,
        sentRows_cons_of_applies scan sent]
    cases wrote with
    | uploaded => cases idle
    | requeued => cases idle
    | created fresh =>
        have intact := intact_of_reachable reachable ((List.suffix_cons c earlier).trans past)
        rw [promised.mem_imageRows_iff after (by simp [idle]),
          sentRows_cons_of_not (promised.not_applies member (by decide)), sentRows_of_unused fresh]
        simp [not_mem_imageRows intact fresh]
    | patched stored =>
        exact complete.cons promised after idle stored idle
          (promised.not_applies member (by decide)) image
    | retried => cases idle
    | unlinked stored =>
        exact complete.cons promised after idle stored idle
          (promised.not_applies member (by decide)) image
    | detached stored =>
        exact complete.cons promised after idle stored idle
          (promised.not_applies member (by decide)) image
    | reclaimed => exact absurd (ScanWorker.scanState_reclaimedRow idle) (by decide)
    | claimed => cases idle
    | failed => exact absurd (ScanWorker.scanState_failedRow idle) (by decide)
    | extracted => exact scan (Or.inl rfl)
    | verified => exact scan (Or.inr rfl)

/-- No image is left out of a scan. -/
theorem images_scanned (reachable : Config.Reachable (application setup) config) :
    (∀ id, ∀ row : ReceiptRow, (config.world.history.db .receipts).get id = some row →
      row.scanState = .idle → ∀ image, image ∈ imageRows config.world.history.db id ↔
        image ∈ sentRows config.world.history id) ∧
    ∀ (c : Commit store outside) (earlier : History store outside) (id : ℕ),
      c :: earlier <:+ config.world.history → applies id c = true →
      ∃ images answer, lastScan c.calls = some (images, answer) ∧
        ∀ image, image ∈ imageRows earlier.db id ↔ image ∈ images.map SentImage.row :=
  ⟨complete_of_reachable reachable List.suffix_rfl,
    fun _ _ _ past scan => Promised.images_of_applies reachable past scan⟩

theorem images_of_oneScanned : ∃ row : ReceiptRow,
    (oneScanned.world.history.db .receipts).get 1 = some row ∧ row.scanState = .idle ∧
      1 ∈ imageRows oneScanned.world.history.db 1 ∧ 1 ∈ sentRows oneScanned.world.history 1 := by
  have idle : (((oneScanned.world.history.db .receipts).get 1).map ReceiptRow.scanState) =
      some .idle ∧ 1 ∈ imageRows oneScanned.world.history.db 1 := by decide +kernel
  obtain ⟨⟨row, stored, isIdle⟩, image⟩ := And.imp_left Option.map_eq_some_iff.mp idle
  exact ⟨row, stored, isIdle, image,
    ((images_scanned reachable_oneScanned).1 1 row stored isIdle 1).mp image⟩

end ReceiptScanner

import ReceiptScanner.Ledger.Sides

/-!
# Scans of reviewed receipts

A scan of a reviewed receipt is written in verify mode, which keeps what the user has
entered. Its items are inserted only where the receipt has none; they are counted by
the statement that locks the receipt, but at its start, before it waits for the lock.
`countsStand` says that no item was added while it waited.
-/

namespace ReceiptScanner

open ReadCommitted

variable {setup : Setup} {config : Config store outside Job} {c : Commit store outside}
  {h : History store outside} {id : ℕ}

/-- The commit inserts no item on the receipt. -/
def addsNoItem (receiptId : ℕ) (c : Commit store outside) : Bool :=
  c.writes.all fun
    | ⟨.items, _, some item, .insertItem⟩ => item.receiptId != receiptId
    | _ => true

/-- If the first statement counts no items of the receipt as it starts, no other commit
inserts one until it ends and has locked the receipt. -/
def countsStand (h : History store outside) (c : Commit store outside) : Bool :=
  c.writes.all fun
    | ⟨.receipts, id, _, .writeVerify⟩ =>
        match c.spans.head? with
        | some (started, finished) =>
            ScanWorker.itemCount (h.upTo started).db id != 0 ||
              ((h.upTo finished).take (finished - started)).all (addsNoItem id)
        | none => true
    | _ => true

theorem itemCount_eq_zero {db : Db store} : ScanWorker.itemCount db id = 0 ↔
    ∀ itemId, ∀ item : ItemRow, (db .items).get itemId = some item → item.receiptId ≠ id := by
  simp [ScanWorker.itemCount, List.length_eq_zero_iff, List.filter_eq_nil_iff]

/-- A receipt without items has none after commits that insert none. -/
theorem itemCount_append (reachable : Config.Reachable (application setup) config)
    {between seen : History store outside} (past : between ++ seen <:+ config.world.history)
    (quiet : between.all (addsNoItem id) = true) (none : ScanWorker.itemCount seen.db id = 0) :
    ScanWorker.itemCount (History.db (between ++ seen)) id = 0 := by
  induction between with
  | nil => exact none
  | cons d between ih =>
      obtain ⟨now, before⟩ := Bool.and_eq_true_iff.mp quiet
      have empty := itemCount_eq_zero.mp (ih ((List.suffix_cons d _).trans past) before)
      refine itemCount_eq_zero.mpr fun itemId item stored on => ?_
      rcases (promised_of_reachable reachable past).item_before stored with
        ⟨was, there, same⟩ | ⟨member, -, -⟩
      · exact empty itemId was there (same.trans on)
      · have other := List.all_eq_true.mp now _ member
        exact bne_iff_ne.mp other on

/-- A receipt without items has none while it is locked. -/
theorem LockedSince.itemCount (reachable : Config.Reachable (application setup) config)
    (past : h <:+ config.world.history) {seen : History store outside}
    (locked : LockedSince h .receipts id seen) (none : ScanWorker.itemCount seen.db id = 0) :
    ScanWorker.itemCount h.db id = 0 := by
  refine itemCount_eq_zero.mpr fun itemId item stored on => ?_
  obtain ⟨first, was, same⟩ := locked.items reachable past stored on
  exact itemCount_eq_zero.mp none itemId first was same

/-- What a scan keeps of a reviewed receipt: all that the user has entered. -/
structure KeepsReview (before after : ReceiptRow) : Prop where
  kind : after.kind = before.kind
  direction : after.direction = before.direction
  totalCents : after.totalCents = before.totalCents
  currency : after.currency = before.currency
  taxDeductible : after.taxDeductible = before.taxDeductible
  offsetsReceiptId : after.offsetsReceiptId = before.offsetsReceiptId
  note : after.note = before.note
  paymentMethodId : after.paymentMethodId = before.paymentMethodId
  fxRateToAud : after.fxRateToAud = before.fxRateToAud
  audEquivalentCents : after.audEquivalentCents = before.audEquivalentCents
  merchant : before.merchant ≠ none → after.merchant = before.merchant
  storeNameRaw : before.storeNameRaw ≠ none → after.storeNameRaw = before.storeNameRaw
  purchaseDate : before.purchaseDate ≠ none → after.purchaseDate = before.purchaseDate

theorem keepsReview_verifiedRow (result : ScanResult) (purchaseDate : Option Date)
    (allMatch : Bool) (now : ℕ) (row : ReceiptRow) :
    KeepsReview row (ScanWorker.verifiedRow result purchaseDate allMatch now row) where
  kind := rfl
  direction := rfl
  totalCents := rfl
  currency := rfl
  taxDeductible := rfl
  offsetsReceiptId := rfl
  note := rfl
  paymentMethodId := rfl
  fxRateToAud := rfl
  audEquivalentCents := rfl
  merchant some := Option.or_of_isSome (Option.isSome_iff_ne_none.mpr some)
  storeNameRaw some := Option.or_of_isSome (Option.isSome_iff_ne_none.mpr some)
  purchaseDate some := Option.or_of_isSome (Option.isSome_iff_ne_none.mpr some)

/-- A scan keeps a reviewed receipt, and writes items only where it has none, in every run
in which no item is added while a scan waits for its receipt. -/
theorem review_kept (reachable : Config.Reachable (application setup) config)
    (stand : ∀ (c : Commit store outside) (earlier : History store outside),
      c :: earlier <:+ config.world.history → countsStand earlier c = true) :
    ∀ (c : Commit store outside) (earlier : History store outside) (id : ℕ)
      (row : Option ReceiptRow) (label : Label) (before : ReceiptRow),
      c :: earlier <:+ config.world.history → ⟨.receipts, id, row, label⟩ ∈ c.writes →
      (label = .writeExtraction ∨ label = .writeVerify) →
      (earlier.db .receipts).get id = some before → before.reviewedAt ≠ none →
      (∃ after, row = some after ∧ KeepsReview before after) ∧
        ((∃ write ∈ c.writes, write.table = .items) → ScanWorker.itemCount earlier.db id = 0) := by
  intro c earlier id row label before past member which stored reviewed
  have past' := (List.suffix_cons c earlier).trans past
  have wrote := (promised_of_reachable reachable past).wrote _ member
  cases wrote with
  | extracted stored' scanned unreviewed =>
      obtain rfl := Option.some.inj (stored.symm.trans stored')
      exact absurd unreviewed reviewed
  | @verified _ _ _ _ _ seen locked stored' _ _ first suffix held filled _ =>
      obtain rfl := Option.some.inj (stored.symm.trans stored')
      refine ⟨⟨_, rfl, keepsReview_verifiedRow _ _ _ _ _⟩, fun items => ?_⟩
      obtain ⟨between, rfl⟩ := suffix
      have waited := List.all_eq_true.mp (stand c earlier past) _ member
      have began : seen <:+ earlier := (List.suffix_append _ _).trans held.1
      simp only [first, History.take_upTo held.1, History.upTo_length began, filled items,
        bne_self_eq_false, Bool.false_or] at waited
      exact held.itemCount reachable past'
        (itemCount_append reachable (held.1.trans past') waited (filled items))
  | _ => simp at which

/-- A receipt without items is reviewed before its scan, which finds one item. `between`
runs while the scan waits for the receipt. -/
def reviewedScan (between : List (Move outside Job)) : List (Move outside Job) :=
  registering 0 "ann" "secret" ++ uploading 1 1 ["image"] ++
    patching 2 1 1 (.object [("reviewed", .boolean true)]) ++ polling 3 ++
    comparing 4 { kind := "purchase", items := [{ name := "tea", amountCents := 100 }] } ++
    [.start 4] ++ between ++ [.finish 4] ++ statements 4 3 ++ [.step 4, .step 4]

/-- Where that run ends, if nothing else runs. -/
@[irreducible] def reviewed : Config store outside Job :=
  Config.ran (application demo) (reviewedScan []) (by decide +kernel)

theorem reachable_reviewed : Config.Reachable (application demo) reviewed := by
  unfold reviewed
  exact Config.reachable_ran _

/-- The commit writes the result of a verify scan on the reviewed receipt 1. -/
def verifies (h : History store outside) (c : Commit store outside) : Bool :=
  ((h.db .receipts).get 1).any (fun row : ReceiptRow => row.reviewedAt.isSome) &&
    c.writes.any fun
      | ⟨.receipts, 1, _, .writeVerify⟩ => true
      | _ => false

theorem verifies_iff : verifies h c = true ↔ ∃ (before : ReceiptRow) (row : Option ReceiptRow),
    (h.db .receipts).get 1 = some before ∧ before.reviewedAt ≠ none ∧
      ⟨.receipts, 1, row, .writeVerify⟩ ∈ c.writes := by
  simp only [verifies, Bool.and_eq_true, Option.any_eq_true, List.any_eq_true]
  constructor
  · rintro ⟨⟨before, stored, reviewed⟩, ⟨table, other, row, label⟩, member, found⟩
    split at found
    · rename_i row equal
      obtain ⟨rfl, rfl, same, rfl⟩ := Write.mk.inj equal
      obtain rfl := eq_of_heq same
      exact ⟨before, row, stored, Option.isSome_iff_ne_none.mp reviewed, member⟩
    · cases found
  · rintro ⟨before, row, stored, reviewed, member⟩
    exact ⟨⟨before, stored, Option.isSome_iff_ne_none.mpr reviewed⟩, _, member, rfl⟩

theorem review_kept_of_reviewed : ∃ (c : Commit store outside) (earlier : History store outside)
    (before after : ReceiptRow), reviewed.world.history = c :: earlier ∧
      (earlier.db .receipts).get 1 = some before ∧ KeepsReview before after ∧
      ⟨.receipts, 1, some after, .writeVerify⟩ ∈ c.writes := by
  have last : (match reviewed.world.history with
      | c :: earlier => verifies earlier c
      | [] => false) = true := by decide +kernel
  cases history : reviewed.world.history with
  | nil => simp [history] at last
  | cons c earlier =>
      rw [history] at last
      obtain ⟨before, row, stored, isReviewed, member⟩ := verifies_iff.mp last
      obtain ⟨⟨after, rfl, kept⟩, -⟩ := review_kept reachable_reviewed
        (History.every_iff.mp (by decide +kernel)) c earlier 1 row .writeVerify before
        (history ▸ List.suffix_rfl) member (Or.inr rfl) stored isReviewed
      exact ⟨c, earlier, before, after, rfl, stored, kept, member⟩

/-- Where it ends, if the user adds an item meanwhile. -/
@[irreducible] def crowded : Config store outside Job :=
  Config.ran (application demo) (reviewedScan
    ([.spawn (.createItem 1 1 (.object [("amount_cents", .unsigned 100)])), .step 5] ++
      statements 5 5 ++ [.step 5, .step 5])) (by decide +kernel)

theorem reachable_crowded : Config.Reachable (application demo) crowded := by
  unfold crowded
  exact Config.reachable_ran _

theorem not_review_kept_of_crowded : ¬ ∀ config : Config store outside Job,
    Config.Reachable (application demo) config →
    ∀ (c : Commit store outside) (earlier : History store outside) (id : ℕ)
      (row : Option ReceiptRow) (label : Label) (before : ReceiptRow),
      c :: earlier <:+ config.world.history → ⟨.receipts, id, row, label⟩ ∈ c.writes →
      (label = .writeExtraction ∨ label = .writeVerify) →
      (earlier.db .receipts).get id = some before → before.reviewedAt ≠ none →
      (∃ after, row = some after ∧ KeepsReview before after) ∧
        ((∃ write ∈ c.writes, write.table = .items) →
          ScanWorker.itemCount earlier.db id = 0) := by
  intro always
  have last : (match crowded.world.history with
      | c :: earlier => verifies earlier c && c.writes.any (fun write => write.table = Table.items) &&
          ScanWorker.itemCount (History.db earlier) 1 == 1
      | [] => false) = true := by decide +kernel
  cases history : crowded.world.history with
  | nil => simp [history] at last
  | cons c earlier =>
      simp only [history, Bool.and_eq_true, List.any_eq_true, decide_eq_true_eq] at last
      obtain ⟨⟨verified, items⟩, count⟩ := last
      obtain ⟨before, row, stored, isReviewed, member⟩ := verifies_iff.mp verified
      have none := (always crowded reachable_crowded c earlier 1 row .writeVerify before
        (history ▸ List.suffix_rfl) member (Or.inr rfl) stored isReviewed).2 items
      exact absurd ((beq_iff_eq.mp count).symm.trans none) (by decide)

end ReceiptScanner

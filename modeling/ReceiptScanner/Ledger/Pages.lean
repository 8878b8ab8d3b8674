import Mathlib.Data.Prod.Lex
import Mathlib.Order.OrderDual
import ReceiptScanner.Ledger.Identity
import ReceiptScanner.Services.ReceiptController
import ReceiptScanner.Sql.Paging

/-!
# Reading the list page by page

The pages of the list are read one after another, each from the state of its moment. The list
is sorted by the millisecond of `created_at` and by id, and a receipt keeps both, so as long as the user deletes none, what is uploaded
meanwhile can only push a receipt to a later place: the walk misses no receipt that was there
when it began. It may show one twice.
-/

namespace ReceiptScanner

open ReadCommitted

variable {setup : Setup} {config : Config store outside Job} {c : Commit store outside}
  {h seen : History store outside} {id userId : ℕ}

section Created

/-- A write of a receipt that was there keeps its `created_at`. -/
theorem ReceiptWrote.createdAt {before after : ReceiptRow} {label : Label}
    (wrote : ReceiptWrote setup h c id (some after) label)
    (stored : (h.db .receipts).get id = some before) : after.createdAt = before.createdAt := by
  have kept : ∀ {row : ReceiptRow}, (h.db .receipts).get id = some row →
      row.createdAt = before.createdAt := fun there =>
    congrArg ReceiptRow.createdAt (Option.some.inj (there.symm.trans stored))
  cases wrote with
  | uploaded fresh => exact absurd (stored.symm.trans (fresh.get List.suffix_rfl)) (by simp)
  | created fresh => exact absurd (stored.symm.trans (fresh.get List.suffix_rfl)) (by simp)
  | requeued there | patched there | retried there | unlinked there | detached there
  | reclaimed there | claimed there | failed there | extracted there | verified there =>
      have same := kept there
      exact same

/-- As long as a receipt stands, it has the `created_at` that it has. -/
theorem createdAt_between (reachable : Config.Reachable (application setup) config)
    (past : h <:+ config.world.history) (before : seen <:+ h) {first last : ReceiptRow}
    (was : (seen.db .receipts).get id = some first) (still : (h.db .receipts).get id = some last) :
    last.createdAt = first.createdAt := by
  induction h generalizing last with
  | nil =>
      obtain rfl := List.suffix_nil.mp before
      exact congrArg ReceiptRow.createdAt (Option.some.inj (still.symm.trans was))
  | cons c h ih =>
      rcases List.suffix_cons_iff.mp before with rfl | inside
      · exact congrArg ReceiptRow.createdAt (Option.some.inj (still.symm.trans was))
      have past' := (List.suffix_cons c h).trans past
      obtain ⟨middle, there, -⟩ :=
        receipt_between reachable past inside (List.suffix_cons c h) was still
      have same := ih past' inside there
      rcases (promised_of_reachable reachable past).row_cases .receipts id with
        ⟨unchanged, -⟩ | ⟨now, label, -, isNow, wrote⟩
      · obtain rfl := Option.some.inj (still.symm.trans (unchanged.trans there))
        exact same
      · obtain rfl := isNow.symm.trans still
        exact (ReceiptWrote.createdAt wrote there).trans same

end Created

namespace ReceiptController

/-- The list, as a query of these texts shows it in one state. -/
def Shows (h : History store outside) (userId : ℕ) (limit offset : String)
    (shown : List ReceiptSummary) : Prop :=
  ∃ size first, range limit offset = .ok (size, first) ∧ ∀ ctx : Ctx store, ctx.snap = h.db →
    (ReceiptService.selectPage userId size.toNat first.toNat ctx).result = shown

/-- A query that is understood asks for 1 to 200 receipts. -/
theorem range_bounds {limit offset : String} {size first : ℤ}
    (asked : range limit offset = .ok (size, first)) : 1 ≤ size ∧ size ≤ 200 ∧ 0 ≤ first := by
  have bounds : ∀ {size : ℤ}, limitOf limit = .ok size → 1 ≤ size ∧ size ≤ 200 := by
    intro size isLimit
    unfold limitOf at isLimit
    split at isLimit
    · obtain rfl := Except.ok.inj isLimit
      decide
    · cases read : Numerals.stoi limit with
      | none => simp [read] at isLimit
      | some number =>
          simp only [read] at isLimit
          obtain rfl := Except.ok.inj isLimit
          omega
  have start : ∀ {first : ℤ}, offsetOf offset = .ok first → 0 ≤ first := by
    intro first isOffset
    unfold offsetOf at isOffset
    split at isOffset
    · obtain rfl := Except.ok.inj isOffset
      decide
    · cases read : Numerals.stoi offset with
      | none => simp [read] at isOffset
      | some number =>
          simp only [read] at isOffset
          obtain rfl := Except.ok.inj isOffset
          omega
  cases isLimit : limitOf limit with
  | error raised => simp [range, isLimit, Bind.bind, Except.bind] at asked
  | ok number =>
      cases isOffset : offsetOf offset with
      | error raised => simp [range, isLimit, isOffset, Bind.bind, Except.bind] at asked
      | ok place =>
          simp only [range, isLimit, isOffset, Bind.bind, Except.bind] at asked
          obtain ⟨rfl, rfl⟩ := Prod.mk.inj (Except.ok.inj asked)
          exact ⟨(bounds isLimit).1, (bounds isLimit).2, start isOffset⟩

/-- What the handler sends for a query that is understood shows a page. -/
theorem shows_of_list {limit offset : String} {size first : ℤ}
    (asked : range limit offset = .ok (size, first)) :
    ∃ stmt, list userId limit offset = execSql .db stmt ∧ ∀ ctx : Ctx store, ctx.snap = h.db →
      Shows h userId limit offset (stmt ctx).result := by
  obtain ⟨positive, -, start⟩ := range_bounds asked
  refine ⟨ReceiptService.selectPage userId size.toNat first.toNat, ?_, fun ctx reads =>
    ⟨size, first, asked, fun other again => ?_⟩⟩
  · have inRange : ¬ (size < 0 || first < 0) = true := by
      simp only [Bool.or_eq_true, decide_eq_true_eq]
      omega
    change (ofExcept (range limit offset) >>= fun asked =>
      ReceiptService.listReceipts userId asked.1 asked.2) = _
    rw [asked]
    change (if (size < 0 || first < 0) = true then _ else _) = _
    rw [if_neg inRange]
  · simp only [ReceiptService.selectPage, Stmt.query, reads, again]

end ReceiptController

section Walk

/-- What the list is sorted by: the latest millisecond first, and in it the highest id. -/
def newest (entry : ℕ × ReceiptRow) : ℕᵒᵈ ×ₗ ℕᵒᵈ :=
  toLex (OrderDual.toDual (ReceiptService.isoUtc entry.2.createdAt), OrderDual.toDual entry.1)

theorem newest_le_iff {left right : ℕ × ReceiptRow} : newest left ≤ newest right ↔
    ReceiptService.isoUtc right.2.createdAt < ReceiptService.isoUtc left.2.createdAt ∨
      (ReceiptService.isoUtc right.2.createdAt = ReceiptService.isoUtc left.2.createdAt ∧
        right.1 ≤ left.1) := by
  rw [newest, newest, Prod.Lex.toLex_le_toLex]
  exact or_congr_right (and_congr_left fun _ => eq_comm)

/-- The receipts of the user. -/
def receiptsOf (db : Db store) (userId : ℕ) : List (ℕ × ReceiptRow) :=
  (db .receipts).list.filter fun entry => entry.2.userId == userId

theorem mem_receiptsOf {db : Db store} {row : ReceiptRow} : (id, row) ∈ receiptsOf db userId ↔
    (db .receipts).get id = some row ∧ row.userId = userId := by
  simp [receiptsOf, List.mem_filter]

/-- The whole list, newest first. -/
def newestFirst (db : Db store) (userId : ℕ) : List (ℕ × ReceiptRow) :=
  (receiptsOf db userId).insertionSort fun left right => newest left ≤ newest right

theorem selectPage_eq (limit offset : ℕ) (ctx : Ctx store) :
    (ReceiptService.selectPage userId limit offset ctx).result =
      (Sql.page limit offset (newestFirst ctx.snap userId)).map
        fun entry => ReceiptService.rowToSummary entry.1 entry.2 := by
  have same : ((receiptsOf ctx.snap userId).insertionSort fun left right =>
        ReceiptService.isoUtc right.2.createdAt < ReceiptService.isoUtc left.2.createdAt ∨
          (ReceiptService.isoUtc right.2.createdAt = ReceiptService.isoUtc left.2.createdAt ∧
            right.1 ≤ left.1)) =
      newestFirst ctx.snap userId :=
    Sql.insertionSort_congr (List.pairwise_of_forall fun _ _ => newest_le_iff.symm)
  rw [← same]
  rfl

/-- While the user deletes nothing, the list grows. -/
theorem newestFirst_grows (reachable : Config.Reachable (application setup) config)
    (past : h <:+ config.world.history) (before : seen <:+ h)
    (kept : ∀ id, ∀ row : ReceiptRow, (seen.db .receipts).get id = some row →
      row.userId = userId → (h.db .receipts).get id ≠ none) :
    ((newestFirst seen.db userId).map newest).Sublist
      ((newestFirst h.db userId).map newest) := by
  refine Sql.sublist_of_keys ?_ ?_
  · refine List.pairwise_map.mpr (((seen.db .receipts).pairwise_list.filter _).imp ?_)
    intro left right differ same
    exact differ (OrderDual.toDual_inj.mp (congrArg (fun key => (ofLex key).2) same))
  · rintro ⟨id, row⟩ member
    obtain ⟨stored, owner⟩ := mem_receiptsOf.mp member
    obtain ⟨last, still⟩ := Option.ne_none_iff_exists'.mp (kept id row stored owner)
    obtain ⟨middle, again, owned⟩ :=
      receipt_between reachable past List.suffix_rfl before stored still
    obtain rfl := Option.some.inj (stored.symm.trans again)
    have created := createdAt_between reachable past before stored still
    refine List.mem_map.mpr ⟨(id, last), mem_receiptsOf.mpr ⟨still, owned.symm.trans owner⟩, ?_⟩
    simp only [newest, created]

/-- A reader who asks for one page after another until one is short, while the user deletes
nothing, is shown every receipt that there was at the first. -/
theorem pages_miss_nothing (reachable : Config.Reachable (application setup) config)
    {times : ℕ → History store outside} {last size : ℕ} {limit : String} {offset : ℕ → String}
    {shown : ℕ → List ReceiptSummary} (onward : ∀ i < last, times i <:+ times (i + 1))
    (past : times last <:+ config.world.history)
    (kept : ∀ i < last, ∀ id, ∀ row : ReceiptRow, ((times i).db .receipts).get id = some row →
      row.userId = userId → ((times (i + 1)).db .receipts).get id ≠ none)
    (asked : ∀ i ≤ last,
      ReceiptController.range limit (offset i) = .ok ((size : ℤ), ((i * size : ℕ) : ℤ)))
    (shows : ∀ i ≤ last, ReceiptController.Shows (times i) userId limit (offset i) (shown i))
    (short : (shown last).length < size) {row : ReceiptRow}
    (stored : ((times 0).db .receipts).get id = some row) (owner : row.userId = userId) :
    ∃ i ≤ last, ∃ summary ∈ shown i, summary.id = id := by
  have within : ∀ i ≤ last, times i <:+ config.world.history := by
    intro i below
    induction below using Nat.decreasingInduction with
    | self => exact past
    | of_succ i below ih => exact (onward i below).trans ih
  -- What is shown is a page of the list.
  have pages : ∀ i ≤ last, shown i =
      (Sql.page size (i * size) (newestFirst (times i).db userId)).map
        fun entry => ReceiptService.rowToSummary entry.1 entry.2 := by
    intro i below
    obtain ⟨limited, first, understood, reads⟩ := shows i below
    obtain ⟨rfl, rfl⟩ := Prod.mk.inj (Except.ok.inj ((asked i below).symm.trans understood))
    let ctx : Ctx store :=
      { snap := (times i).db, cur := (times i).db, now := 0, clock := 0, next := fun _ => 0
        others := [] }
    rw [← reads ctx rfl, selectPage_eq]
    rfl
  have shortKeys : (Sql.page size (last * size)
      ((newestFirst (times last).db userId).map newest)).length < size := by
    rw [Sql.page_map, List.length_map]
    rwa [pages last (Nat.le_refl last), List.length_map] at short
  have listed : newest (id, row) ∈ (newestFirst (times 0).db userId).map newest :=
    List.mem_map_of_mem ((List.mem_insertionSort _).mpr (mem_receiptsOf.mpr ⟨stored, owner⟩))
  obtain ⟨i, below, onPage⟩ := Sql.mem_page_of_walk
    (fun i below => newestFirst_grows reachable (within (i + 1) below) (onward i below)
      (kept i below)) shortKeys listed
  rw [Sql.page_map] at onPage
  obtain ⟨entry, onPage, same⟩ := List.mem_map.mp onPage
  refine ⟨i, below, ReceiptService.rowToSummary entry.1 entry.2, ?_, ?_⟩
  · rw [pages i below]
    exact List.mem_map_of_mem onPage
  · exact OrderDual.toDual_inj.mp (congrArg (fun key => (ofLex key).2) same)

/-- One user enters three purchases. -/
@[irreducible] def threeEntered : Config store outside Job :=
  Config.ran (application demo) (registering 0 "ann" "secret" ++
    entering 1 1 3 (.object [("total_cents", .unsigned 100)]) ++
    entering 2 1 3 (.object [("total_cents", .unsigned 200)]) ++
    entering 3 1 3 (.object [("total_cents", .unsigned 300)])) (by decide +kernel)

theorem reachable_threeEntered : Config.Reachable (application demo) threeEntered := by
  unfold threeEntered
  exact Config.reachable_ran _

/-- The first page is read before the third purchase is there, the others after it. -/
def threeTimes : ℕ → History store outside
  | 0 => threeEntered.world.history.tail
  | _ + 1 => threeEntered.world.history

/-- The queries of the pages. -/
def threeOffsets (i : ℕ) : String := ["0", "1", "2", "3"].getD i ""

/-- The pages, of one receipt each. -/
def threePages (i : ℕ) : List ReceiptSummary :=
  (ReceiptService.selectPage 1 1 i
    { snap := (threeTimes i).db, cur := (threeTimes i).db, now := 0, clock := 0
      next := fun _ => 0, others := [] }).result

/-- The first purchase of the three moves from the second page to the third. -/
theorem pages_miss_nothing_of_threeEntered :
    ∃ i ≤ 3, ∃ summary ∈ threePages i, summary.id = 1 := by
  have first : ((threeTimes 0).db .receipts).get 1 ≠ none ∧
      (((threeTimes 0).db .receipts).get 1).map ReceiptRow.userId = some 1 := by decide +kernel
  obtain ⟨row, stored⟩ := Option.ne_none_iff_exists'.mp first.1
  have owner : row.userId = 1 := by simpa [stored] using first.2
  have onward : ∀ i < 3, threeTimes i <:+ threeTimes (i + 1) := by
    intro i _
    cases i with
    | zero => exact List.tail_suffix _
    | succ i => exact List.suffix_rfl
  have kept : ∀ i < 3, ∀ id, ∀ row : ReceiptRow,
      ((threeTimes i).db .receipts).get id = some row → row.userId = 1 →
        ((threeTimes (i + 1)).db .receipts).get id ≠ none := by
    intro i _ id row there _
    cases i with
    | zero =>
        have within : ∀ id < ((threeTimes 0).db .receipts).bound,
            ((threeTimes 0).db .receipts).get id ≠ none →
              ((threeTimes 1).db .receipts).get id ≠ none := by decide +kernel
        have present : ((threeTimes 0).db .receipts).get id ≠ none := by simp [there]
        refine within id (Nat.lt_of_not_le fun beyond => present ?_) present
        exact ((threeTimes 0).db .receipts).absent id beyond
    | succ i => exact Option.ne_none_iff_exists'.mpr ⟨row, there⟩
  have asked : ∀ i ≤ 3, ReceiptController.range "1" (threeOffsets i) =
      .ok (((1 : ℕ) : ℤ), ((i * 1 : ℕ) : ℤ)) := by decide +kernel
  have shows : ∀ i ≤ 3,
      ReceiptController.Shows (threeTimes i) 1 "1" (threeOffsets i) (threePages i) := by
    intro i below
    refine ⟨((1 : ℕ) : ℤ), ((i * 1 : ℕ) : ℤ), asked i below, fun ctx reads => ?_⟩
    simp only [ReceiptService.selectPage, Stmt.query, threePages, reads, Nat.mul_one,
      Int.toNat_natCast]
  have short : (threePages 3).length < 1 := by decide +kernel
  exact pages_miss_nothing reachable_threeEntered onward List.suffix_rfl kept asked shows short
    stored owner

end Walk

end ReceiptScanner

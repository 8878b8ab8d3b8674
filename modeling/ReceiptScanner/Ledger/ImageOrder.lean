import ReceiptScanner.Ledger.Identity
import ReceiptScanner.Ledger.Images
import ReceiptScanner.Runs.Deposits

/-!
# The order of a receipt's images

`created_at` is the start of a transaction, so it tells the batches of a receipt apart and not
the images of one batch. The worker breaks such ties by id, which follows the batch; the listing
of the images does not break them.
-/

namespace ReceiptScanner

open ReadCommitted

variable {setup : Setup} {config : Config store outside Job} {c : Commit store outside}
  {h : History store outside} {id : ℕ}

/-- The images that the commit stores for the receipt, in order. -/
def batchOf (id : ℕ) (c : Commit store outside) : List (ℕ × ReceiptImageRow) :=
  (storesOf c.writes).filter fun image => image.2.receiptId == id

/-- The commits that stored images for the receipt, the latest first. -/
def storing (h : History store outside) (id : ℕ) : List (Commit store outside) :=
  h.filter fun c => !(batchOf id c).isEmpty

/-- The batches of the receipt, in the order in which they began. -/
def batches (h : History store outside) (id : ℕ) : List (Commit store outside) :=
  (storing h id).insertionSort fun first second => first.start ≤ second.start

/-- The images of the receipt, batch by batch, in batch order. -/
def submitted (h : History store outside) (id : ℕ) : List (ℕ × ReceiptImageRow) :=
  (batches h id).flatMap (batchOf id)

/-- An image as responses show it. -/
def refOf (image : ℕ × ReceiptImageRow) : ImageRef where
  id := image.1
  createdAt := image.2.createdAt

/-- The listing that the server makes in the model is one of those it may make. -/
theorem permits_selectImages (id : ℕ) (ctx : Ctx store) :
    ∃ listed, Sql.Permits listOrder (imagesOf ctx.snap id) listed ∧
      (ReceiptService.selectImages id ctx).result = listed.map refOf := by
  refine ⟨_, Sql.permits_insertionSort listOrder _, ?_⟩
  simp only [ReceiptService.selectImages, Stmt.query, imagesOf]
  exact (List.map_insertionSort _ _ refOf _ fun _ _ _ _ => Iff.rfl).symm

theorem mem_batchOf {image : ℕ × ReceiptImageRow} :
    image ∈ batchOf id c ↔
      ⟨.receiptImages, image.1, some image.2, .storeImage⟩ ∈ c.writes ∧
        image.2.receiptId = id := by
  simp [batchOf, List.mem_filter, mem_storesOf]

section Stored

/-- A commit that stores an image for a receipt writes the receipt. -/
theorem Promised.receipt_of_batch (promised : Promised setup h c) {image : ℕ × ReceiptImageRow}
    (member : image ∈ batchOf id c) : ∃ write ∈ c.writes, write.Touches .receipts id := by
  obtain ⟨wrote, rfl⟩ := mem_batchOf.mp member
  cases promised.wrote _ wrote with
  | stored owned queued => exact ⟨_, queued, rfl, rfl⟩

/-- While the receipt is stored it keeps its images, and gets those of the commit. -/
theorem Promised.mem_imagesOf_iff (promised : Promised setup h c)
    (present : ((History.db (c :: h)) .receipts).get id ≠ none) (image : ℕ × ReceiptImageRow) :
    image ∈ imagesOf (History.db (c :: h)) id ↔
      image ∈ imagesOf (History.db h) id ∨ image ∈ batchOf id c := by
  rw [mem_imagesOf, mem_imagesOf, mem_batchOf]
  rcases promised.row_cases .receiptImages image.1 with ⟨same, untouched⟩ |
    ⟨now, label, member, isNow, wrote⟩
  · rw [same]
    have unwritten : ⟨.receiptImages, image.1, some image.2, .storeImage⟩ ∉ c.writes :=
      fun wrote => untouched _ wrote ⟨rfl, rfl⟩
    simp [unwritten]
  · rw [isNow]
    have only : ⟨.receiptImages, image.1, some image.2, .storeImage⟩ ∈ c.writes →
        some image.2 = now ∧ Label.storeImage = label := fun wrote =>
      promised.unique (by decide) wrote member
    cases wrote with
    | stored owned queued state fresh =>
        rw [fresh.get List.suffix_rfl]
        constructor
        · rintro ⟨same, receipt⟩
          obtain rfl := Option.some.inj same
          exact Or.inr ⟨member, receipt⟩
        · rintro (⟨absent, -⟩ | ⟨wrote, receipt⟩)
          · cases absent
          · exact ⟨(only wrote).1.symm, receipt⟩
    | cascaded stored gone =>
        constructor
        · rintro ⟨absent, -⟩
          cases absent
        · rintro (⟨was, receipt⟩ | ⟨wrote, -⟩)
          · obtain rfl := Option.some.inj (stored.symm.trans was)
            have removed := promised.get (by decide) gone
            rw [receipt] at removed
            exact absurd removed present
          · exact absurd (only wrote).1 (by simp)

/-- A receipt that is stored has the images that were stored for it. -/
theorem mem_imagesOf_iff_batch (reachable : Config.Reachable (application setup) config)
    (past : h <:+ config.world.history) (present : (h.db .receipts).get id ≠ none)
    (image : ℕ × ReceiptImageRow) :
    image ∈ imagesOf h.db id ↔ ∃ c ∈ h, image ∈ batchOf id c := by
  induction h with
  | nil => exact absurd rfl present
  | cons c earlier ih =>
      have past' := (List.suffix_cons c earlier).trans past
      have promised := promised_of_reachable reachable past
      rw [promised.mem_imagesOf_iff present, List.exists_mem_cons_iff, or_comm]
      apply or_congr_right
      by_cases was : ((History.db earlier) .receipts).get id = none
      · -- The receipt is new, so neither side has an image of it.
        have unused : Unused earlier .receipts id := by
          rcases promised.row_cases .receipts id with ⟨same, -⟩ | ⟨now, label, -, isNow, wrote⟩
          · exact absurd (same.trans was) present
          · obtain ⟨row, rfl⟩ := Option.ne_none_iff_exists'.mp (isNow ▸ present)
            rcases ReceiptWrote.before wrote with ⟨fresh, -⟩ | ⟨before, stored, -⟩
            · exact fresh
            · exact absurd (stored.symm.trans was) (by simp)
        constructor
        · intro member
          obtain ⟨stored, receipt⟩ := mem_imagesOf.mp member
          have intact := intact_of_reachable reachable past'
          exact absurd (mem_imageRows.mpr ⟨_, stored, receipt⟩)
            (not_mem_imageRows intact unused image.1)
        · rintro ⟨other, among, member⟩
          obtain ⟨later, before, whole⟩ := List.append_of_mem among
          have inside : other :: before <:+ config.world.history :=
            List.IsSuffix.trans ⟨later, whole.symm⟩ past'
          obtain ⟨write, wrote, touches⟩ :=
            (promised_of_reachable reachable inside).receipt_of_batch member
          exact absurd touches (unused other among write wrote)
      · exact ih past' was

end Stored

section Ordered

theorem mem_batches : c ∈ batches h id ↔ c ∈ h ∧ batchOf id c ≠ [] := by
  simp [batches, storing, List.mem_filter, List.mem_insertionSort]

theorem mem_submitted {image : ℕ × ReceiptImageRow} :
    image ∈ submitted h id ↔ ∃ c ∈ h, image ∈ batchOf id c := by
  simp only [submitted, List.mem_flatMap, mem_batches]
  constructor
  · rintro ⟨c, ⟨among, -⟩, member⟩
    exact ⟨c, among, member⟩
  · rintro ⟨c, among, member⟩
    exact ⟨c, ⟨among, List.ne_nil_of_mem member⟩, member⟩

/-- Each image of a batch carries the start of its transaction. -/
theorem createdAt_of_batch (reachable : Config.Reachable (application setup) config)
    (member : c ∈ config.world.history) {image : ℕ × ReceiptImageRow}
    (among : image ∈ batchOf id c) : image.2.createdAt = c.start :=
  (Serial.inOrder_of_reachable (sent_prog setup) reachable member).1 _ _ (mem_batchOf.mp among).1

/-- What a commit stores it stores under increasing ids. -/
theorem increasing_storesOf (reachable : Config.Reachable (application setup) config)
    (member : c ∈ config.world.history) :
    (storesOf c.writes).Pairwise fun first second => first.1 < second.1 := by
  have increasing := (Serial.inOrder_of_reachable (sent_prog setup) reachable member).2
  refine increasing.filterMap _ ?_
  intro first second less before isBefore after isAfter
  obtain rfl := storeOf_eq_some.mp isBefore
  obtain rfl := storeOf_eq_some.mp isAfter
  exact less ⟨_, _, rfl⟩ ⟨_, _, rfl⟩

/-- The ids of a batch follow its order. -/
theorem increasing_batchOf (reachable : Config.Reachable (application setup) config)
    (member : c ∈ config.world.history) (id : ℕ) :
    (batchOf id c).Pairwise fun first second => first.1 < second.1 :=
  (increasing_storesOf reachable member).filter _

theorem starts_ne (reachable : Config.Reachable (application setup) config)
    (past : h <:+ config.world.history) : h.Pairwise fun first second => first.start ≠ second.start :=
  (timely_of_reachable reachable).distinct.sublist past.sublist

/-- One batch begins after another. -/
theorem increasing_batches (reachable : Config.Reachable (application setup) config)
    (past : h <:+ config.world.history) (id : ℕ) :
    (batches h id).Pairwise fun first second => first.start < second.start := by
  have sorted := (Sql.permits_insertionSort Commit.start (storing h id)).sorted
  have apart : (batches h id).Pairwise fun first second => first.start ≠ second.start := by
    apply (List.Perm.pairwise_iff (fun different => Ne.symm different)
      (List.perm_insertionSort _ _)).mpr
    exact (starts_ne reachable past).filter _
  exact (sorted.and apart).imp fun both => lt_of_le_of_ne both.1 both.2

/-- The order of submission is that of `created_at` and id. -/
theorem sorted_submitted (reachable : Config.Reachable (application setup) config)
    (past : h <:+ config.world.history) (id : ℕ) :
    (submitted h id).Pairwise fun first second => workerOrder first < workerOrder second := by
  rw [submitted, List.pairwise_flatMap]
  constructor
  · intro c among
    have member := past.subset (mem_batches.mp among).1
    apply (increasing_batchOf reachable member id).imp_of_mem
    intro first second inFirst inSecond less
    rw [workerOrder, workerOrder, Prod.Lex.toLex_lt_toLex]
    right
    rw [createdAt_of_batch reachable member inFirst, createdAt_of_batch reachable member inSecond]
    exact ⟨rfl, less⟩
  · apply (increasing_batches reachable past id).imp_of_mem
    intro c d inC inD before first inFirst second inSecond
    rw [workerOrder, workerOrder, Prod.Lex.toLex_lt_toLex]
    left
    rw [createdAt_of_batch reachable (past.subset (mem_batches.mp inC).1) inFirst,
      createdAt_of_batch reachable (past.subset (mem_batches.mp inD).1) inSecond]
    exact before

theorem nodup_imagesOf (db : Db store) (id : ℕ) : (imagesOf db id).Nodup := by
  apply List.Pairwise.filter
  exact (db .receiptImages).pairwise_list.imp fun different same => different (congrArg Prod.fst same)

/-- An id has one row. -/
theorem eq_of_fst_eq {db : Db store} {first second : ℕ × ReceiptImageRow}
    (inFirst : first ∈ imagesOf db id) (inSecond : second ∈ imagesOf db id)
    (same : first.1 = second.1) : first = second := by
  have atFirst := (mem_imagesOf.mp inFirst).1
  rw [same, (mem_imagesOf.mp inSecond).1] at atFirst
  exact Prod.ext same (Option.some.inj atFirst).symm

/-- The order of submission is a listing that the worker may get. -/
theorem permits_submitted (reachable : Config.Reachable (application setup) config)
    (past : h <:+ config.world.history) (present : (h.db .receipts).get id ≠ none) :
    Sql.Permits workerOrder (imagesOf h.db id) (submitted h id) := by
  have sorted := sorted_submitted reachable past id
  constructor
  · have nodup : (submitted h id).Nodup := sorted.imp fun less same => less.ne (congrArg _ same)
    rw [List.perm_ext_iff_of_nodup nodup (nodup_imagesOf _ _)]
    intro image
    rw [mem_submitted, mem_imagesOf_iff_batch reachable past present]
  · exact sorted.imp le_of_lt

/-- It is the only one. -/
theorem eq_submitted (reachable : Config.Reachable (application setup) config)
    (past : h <:+ config.world.history) (present : (h.db .receipts).get id ≠ none)
    {listed : List (ℕ × ReceiptImageRow)}
    (permits : Sql.Permits workerOrder (imagesOf h.db id) listed) : listed = submitted h id := by
  refine permits.eq (fun first inFirst second inSecond same => ?_)
    (permits_submitted reachable past present)
  exact eq_of_fst_eq inFirst inSecond (Prod.ext_iff.mp same).2

end Ordered

section Claimed

/-- Responses tell the images of a receipt apart. -/
theorem map_refOf_inj {db : Db store} {first second : List (ℕ × ReceiptImageRow)}
    (inFirst : ∀ image ∈ first, image ∈ imagesOf db id)
    (inSecond : ∀ image ∈ second, image ∈ imagesOf db id)
    (same : first.map refOf = second.map refOf) : first = second := by
  have back : ∀ images : List (ℕ × ReceiptImageRow), (∀ image ∈ images, image ∈ imagesOf db id) →
      (images.map refOf).map (fun ref => ((db .receiptImages).get ref.id).map (ref.id, ·)) =
        images.map some := by
    intro images among
    rw [List.map_map]
    apply List.map_congr_left
    intro image member
    simp [refOf, (mem_imagesOf.mp (among image member)).1]
  apply List.map_injective_iff.mpr (Option.some_injective _)
  rw [← back first inFirst, same, back second inSecond]

/-- The listing can only come in the order of submission where no batch had two images. -/
theorem listed_iff (reachable : Config.Reachable (application setup) config)
    (past : h <:+ config.world.history) (present : (h.db .receipts).get id ≠ none) :
    (∀ listed, Sql.Permits listOrder (imagesOf h.db id) listed →
      listed.map refOf = (submitted h id).map refOf) ↔ ∀ c ∈ h, (batchOf id c).length ≤ 1 := by
  have permits := permits_submitted reachable past present
  have coarse : Sql.Permits listOrder (imagesOf h.db id) (submitted h id) := by
    apply permits.coarsen
    intro first second before
    rw [workerOrder, workerOrder, Prod.Lex.toLex_le_toLex] at before
    simp only [listOrder]
    omega
  have mem_iff := mem_imagesOf_iff_batch reachable past present
  constructor
  · intro always c among
    by_contra many
    obtain ⟨first, second, rest, isBatch⟩ : ∃ first second rest,
        batchOf id c = first :: second :: rest := by
      have two := not_le.mp many
      revert two
      rcases batchOf id c with _ | ⟨first, _ | ⟨second, rest⟩⟩
      · simp
      · simp
      · exact fun _ => ⟨first, second, rest, rfl⟩
    have inFirst : first ∈ batchOf id c := by simp [isBatch]
    have inSecond : second ∈ batchOf id c := by simp [isBatch]
    have increasing := increasing_batchOf reachable (past.subset among) id
    rw [isBatch] at increasing
    have less : first.1 < second.1 := List.rel_of_pairwise_cons increasing List.mem_cons_self
    have tie : listOrder first = listOrder second := by
      simp only [listOrder, createdAt_of_batch reachable (past.subset among) inFirst,
        createdAt_of_batch reachable (past.subset among) inSecond]
    obtain ⟨other, otherPermits, different⟩ := coarse.exists_ne (nodup_imagesOf _ _)
      ((mem_iff first).mpr ⟨c, among, inFirst⟩) ((mem_iff second).mpr ⟨c, among, inSecond⟩)
      (fun same => less.ne (congrArg Prod.fst same)) tie
    apply different
    exact map_refOf_inj (fun image member => otherPermits.perm.mem_iff.mp member)
      (fun image member => coarse.perm.mem_iff.mp member) (always other otherPermits)
  · intro single listed listedPermits
    congr 1
    refine listedPermits.eq (fun first inFirst second inSecond same => ?_) coarse
    obtain ⟨c, inC, ofC⟩ := (mem_iff first).mp inFirst
    obtain ⟨d, inD, ofD⟩ := (mem_iff second).mp inSecond
    simp only [listOrder, createdAt_of_batch reachable (past.subset inC) ofC,
      createdAt_of_batch reachable (past.subset inD) ofD] at same
    have apart : Std.Symm fun c d : Commit store outside => c.start ≠ d.start :=
      ⟨fun _ _ => Ne.symm⟩
    obtain rfl : c = d := by
      by_contra different
      exact (starts_ne reachable past).forall inC inD different same
    obtain ⟨only, isOnly⟩ : ∃ only, batchOf id c = [only] :=
      List.length_eq_one_iff.mp (le_antisymm (single c inC) (List.length_pos_of_mem ofC))
    rw [isOnly] at ofC ofD
    exact (List.mem_singleton.mp ofC).trans (List.mem_singleton.mp ofD).symm

/-- Every scan sends its images in the order of submission. -/
theorem sent_submitted (reachable : Config.Reachable (application setup) config)
    {proc : Proc store outside Job} {tid : ℕ} (found : config.procs tid = some proc)
    {images : List SentImage} {context : ScanContext} {reply : Except Err ScanResult}
    (said : ⟨.scanReceipt images context, reply⟩ ∈ proc.own.calls) :
    ∃ claim seen, proc.job = .process claim ∧ seen <:+ config.world.history ∧
      images.map SentImage.row = (submitted seen claim.receiptId).map Prod.fst := by
  have inv := (keeps_sends setup config.jobs).inv reachable config.agrees_jobs
  obtain ⟨later, earlier, whole⟩ := List.append_of_mem said
  obtain ⟨heard, old, claim, isJob, nonempty, seen, listed, inside, permits, same⟩ :=
    inv.spoken tid proc found _ earlier ⟨later, whole.symm⟩
  rw [(inv.named tid proc found).2, config.agrees_jobs tid proc found] at isJob
  refine ⟨claim, seen, Option.some.inj isJob, inside.trans old, ?_⟩
  have past := inside.trans old
  have present : (seen.db .receipts).get claim.receiptId ≠ none := by
    intro absent
    rw [same] at nonempty
    obtain ⟨image, among⟩ := List.exists_mem_of_ne_nil listed fun empty => nonempty (by simp [empty])
    have member := permits.perm.mem_iff.mp among
    obtain ⟨stored, receipt⟩ := mem_imagesOf.mp member
    refine intact_of_reachable reachable past .receiptImages image.1 image.2 stored
      (.receipts, image.2.receiptId) (by simp [schema, refs]) ?_
    rw [receipt]
    exact absent
  rw [same, eq_submitted reachable past present permits]

/-- A batch is that of a request, in the order of the request. -/
theorem batch_of_request (reachable : Config.Reachable (application setup) config)
    (member : c ∈ config.world.history) (nonempty : batchOf id c ≠ []) :
    ∃ request, (config.jobs c.tid).bind Job.batch = some request ∧
      (normalized c.calls).map Prod.fst = request ∧
      (batchOf id c).map (fun image => image.2.imageSha256) =
        (normalized c.calls).map fun image => setup.sha256Hex image.2 := by
  obtain ⟨later, earlier, whole⟩ := List.append_of_mem member
  obtain ⟨image, among⟩ := List.exists_mem_of_ne_nil _ nonempty
  have inStores := mem_storesOf.mpr (mem_batchOf.mp among).1
  obtain ⟨job, request, -, -, -, assigned, isBatch, -, ⟨raws, hashes, receiptId, receipt⟩, -⟩ :=
    (keeps_deposits setup config.jobs).sound reachable config.agrees_jobs
      (⟨later, whole.symm⟩ : c :: earlier <:+ config.world.history) (List.ne_nil_of_mem inStores)
  obtain rfl : id = receiptId := (mem_batchOf.mp among).2.symm.trans (receipt image inStores)
  have all : batchOf id c = storesOf c.writes := by
    rw [batchOf, List.filter_eq_self]
    exact fun other within => beq_iff_eq.mpr (receipt other within)
  exact ⟨request, by rw [assigned]; exact isBatch, raws, all ▸ hashes⟩

/-- Each batch of the receipt had ended when the next one began. -/
def InTurn (h : History store outside) (id : ℕ) : Prop :=
  (storing h id).Pairwise fun later earlier => earlier.stop < later.start

/-- Batches that are submitted in turn are committed in that order. -/
theorem batches_of_inTurn (reachable : Config.Reachable (application setup) config)
    (past : h <:+ config.world.history) (inTurn : InTurn h id) :
    batches h id = (storing h id).reverse := by
  have timely := timely_of_reachable reachable
  have apart : Std.Symm fun c d : Commit store outside => c.start ≠ d.start :=
    ⟨fun _ _ => Ne.symm⟩
  refine (Sql.permits_insertionSort Commit.start (storing h id)).eq ?_
    ⟨List.reverse_perm _, List.pairwise_reverse.mpr ?_⟩
  · intro first inFirst second inSecond same
    by_contra different
    exact ((starts_ne reachable past).filter _).forall inFirst inSecond different same
  · apply inTurn.imp_of_mem
    intro later earlier _ inEarlier before
    have lasting := timely.lasting earlier (past.subset (List.mem_of_mem_filter inEarlier))
    exact (lasting.trans before).le

/-- The worker sends the images of a receipt batch by batch, each in the order of its request.
The listing may show another order just where some batch had two images. -/
theorem imageOrder (reachable : Config.Reachable (application setup) config) :
    (∀ (h : History store outside) id, h <:+ config.world.history →
      (h.db .receipts).get id ≠ none → ((∀ listed, Sql.Permits listOrder (imagesOf h.db id) listed →
        listed.map refOf = (submitted h id).map refOf) ↔ ∀ c ∈ h, (batchOf id c).length ≤ 1)) ∧
    (∀ tid proc images context reply, config.procs tid = some proc →
      ⟨.scanReceipt images context, reply⟩ ∈ proc.own.calls →
      ∃ claim seen, proc.job = .process claim ∧ seen <:+ config.world.history ∧
        images.map SentImage.row = (submitted seen claim.receiptId).map Prod.fst) ∧
    (∀ c ∈ config.world.history, ∀ id, batchOf id c ≠ [] →
      ∃ request, (config.jobs c.tid).bind Job.batch = some request ∧
        (normalized c.calls).map Prod.fst = request ∧
        (batchOf id c).map (fun image => image.2.imageSha256) =
          (normalized c.calls).map fun image => setup.sha256Hex image.2) ∧
    ∀ h id, h <:+ config.world.history → InTurn h id → batches h id = (storing h id).reverse :=
  ⟨fun _ _ past present => listed_iff reachable past present,
    fun _ _ _ _ _ found said => sent_submitted reachable found said,
    fun _ member _ nonempty => batch_of_request reachable member nonempty,
    fun _ _ past inTurn => batches_of_inTurn reachable past inTurn⟩

theorem imageOrder_of_oneScanned : (imagesOf oneScanned.world.history.db 1).map refOf =
    (submitted oneScanned.world.history 1).map refOf :=
  ((imageOrder reachable_oneScanned).1 _ 1 List.suffix_rfl (by decide +kernel)).mpr
    (by decide +kernel) _ ⟨List.Perm.refl _, by decide +kernel⟩

/-- One user uploads two images at once. -/
def pairUpload : List (Move outside Job) :=
  registering 0 "ann" "secret" ++ uploading 1 1 ["front", "back"]

/-- Where that run ends. -/
def onePair : Config store outside Job :=
  Config.ran (application demo) pairUpload (by decide +kernel)

theorem reachable_onePair : Config.Reachable (application demo) onePair := Config.reachable_ran _

/-- Both images of that upload have one `created_at`, so the second may be listed first. -/
theorem not_imageOrder_of_onePair : ¬ ∀ (setup : Setup) (config : Config store outside Job),
    Config.Reachable (application setup) config →
    ∀ id, (config.world.history.db .receipts).get id ≠ none →
      ∀ listed, Sql.Permits listOrder (imagesOf config.world.history.db id) listed →
        listed.map refOf = (submitted config.world.history id).map refOf := by
  intro always
  have reversed : Sql.Permits listOrder (imagesOf onePair.world.history.db 1)
      (imagesOf onePair.world.history.db 1).reverse :=
    ⟨List.reverse_perm _, by decide +kernel⟩
  have same := always demo onePair reachable_onePair 1 (by decide +kernel) _ reversed
  exact absurd same (by decide +kernel)

end Claimed

end ReceiptScanner

import ReceiptScanner.Ledger.ImageOrder
import ReceiptScanner.Ledger.Tenants

/-!
# The cap on images

The count of a receipt's images is taken under the advisory lock of its owner, and whoever
stores an image of the same user holds that lock. Nobody can have added one between the count
and the commit.
-/

namespace ReceiptScanner

open ReadCommitted

variable {setup : Setup} {config : Config store outside Job} {c : Commit store outside}
  {h seen : History store outside} {id userId : ℕ}

section Stores

/-- A commit that stores an image stores what its request deposits. -/
theorem deposited_of_reachable (reachable : Config.Reachable (application setup) config)
    (past : c :: h <:+ config.world.history) {image : ℕ × ReceiptImageRow}
    (member : image ∈ storesOf c.writes) :
    ∃ job batch force, config.jobs c.tid = some job ∧ job.batch = some batch ∧
      job.deposit = some (image.2.userId, force) ∧ StoresBatch setup batch c ∧
      Deposited setup h c image.2.userId image.2.receiptId force := by
  obtain ⟨job, batch, userId, force, receiptId, assigned, isBatch, isDeposit, stores, deposited⟩ :=
    (keeps_deposits setup config.jobs).sound reachable config.agrees_jobs past
      (List.ne_nil_of_mem member)
  obtain ⟨rfl, rfl⟩ := deposited.owned image member
  exact ⟨job, batch, force, assigned, isBatch, isDeposit, stores, deposited⟩

/-- An image that stands after a commit was there before it, or is stored by it. -/
theorem Promised.image_before (promised : Promised setup h c) {row : ReceiptImageRow}
    (stored : ((History.db (c :: h)) .receiptImages).get id = some row) :
    (h.db .receiptImages).get id = some row ∨
      ((id, row) ∈ storesOf c.writes ∧ Unused h .receiptImages id) := by
  rcases promised.row_cases .receiptImages id with ⟨same, -⟩ | ⟨now, label, member, isNow, wrote⟩
  · exact Or.inl (same ▸ stored)
  · obtain rfl := isNow.symm.trans stored
    cases wrote with
    | stored _ _ _ fresh => exact Or.inr ⟨mem_storesOf.mpr member, fresh⟩

/-- While a user's lock is held, nobody else stores an image of theirs. -/
theorem image_of_lockedSince (reachable : Config.Reachable (application setup) config)
    (past : h <:+ config.world.history) (locked : LockedSince h .advisory userId seen)
    {row : ReceiptImageRow} (stored : (h.db .receiptImages).get id = some row)
    (owner : row.userId = userId) : (seen.db .receiptImages).get id = some row := by
  obtain ⟨inside, since, before, held⟩ := locked
  induction h with
  | nil => rwa [List.suffix_nil.mp inside]
  | cons c earlier ih =>
      rcases List.suffix_cons_iff.mp inside with rfl | within
      · exact stored
      have past' := (List.suffix_cons c earlier).trans past
      rcases (promised_of_reachable reachable past).image_before stored with was | ⟨member, -⟩
      · exact ih past' was within (held.until (List.suffix_cons c earlier))
      · -- The commit would hold the lock at the same time.
        obtain ⟨_, _, _, -, -, -, -, deposited⟩ := deposited_of_reachable reachable past member
        have compatible := (held c earlier List.suffix_rfl (before.trans within)).2
        have excluded := compatible _ deposited.locked _ (List.mem_singleton_self _)
        simp [Lock.conflicts, LockMode.conflicts, owner] at excluded

end Stores

section Cap

/-- An image is its receipt's owner's. -/
theorem owner_of_image (reachable : Config.Reachable (application setup) config)
    (past : h <:+ config.world.history) {receipt : ReceiptRow} {image : ℕ × ReceiptImageRow}
    (on : (h.db .receipts).get id = some receipt) (member : image ∈ imagesOf h.db id) :
    image.2.userId = receipt.userId := by
  obtain ⟨stored, rfl⟩ := mem_imagesOf.mp member
  have names : ImageNames h image.2 := names_of_reachable reachable past .receiptImages stored
  exact (Belongs.owner reachable past names on rfl).symm

/-- A receipt that is not there has no images. -/
theorem imagesOf_of_absent (reachable : Config.Reachable (application setup) config)
    (past : h <:+ config.world.history) (absent : (h.db .receipts).get id = none) :
    imagesOf h.db id = [] := by
  apply List.eq_nil_iff_forall_not_mem.mpr
  intro image member
  obtain ⟨stored, rfl⟩ := mem_imagesOf.mp member
  exact intact_of_reachable reachable past .receiptImages image.1 image.2 stored
    (.receipts, image.2.receiptId) (by simp [schema, refs]) absent

/-- Some images are among others. -/
theorem length_imagesOf_le {db db' : Db store} (batch : List (ℕ × ReceiptImageRow))
    (among : ∀ image ∈ imagesOf db id, image ∈ imagesOf db' id ∨ image ∈ batch) :
    (imagesOf db id).length ≤ (imagesOf db' id).length + batch.length := by
  rw [← List.length_append]
  apply (List.Nodup.subperm (nodup_imagesOf db id) _).length_le
  exact fun image member => List.mem_append.mpr (among image member)

/-- A commit that stores images on a receipt leaves no more than the cap there. -/
theorem length_of_batch (reachable : Config.Reachable (application setup) config)
    (past : c :: h <:+ config.world.history) {receipt : ReceiptRow}
    (on : ((History.db (c :: h)) .receipts).get id = some receipt) {image : ℕ × ReceiptImageRow}
    (member : image ∈ batchOf id c) :
    ((imagesOf (History.db (c :: h)) id).length : ℤ) ≤ setup.maxImagesPerReceipt := by
  have past' := (List.suffix_cons c h).trans past
  have promised := promised_of_reachable reachable past
  have present : ((History.db (c :: h)) .receipts).get id ≠ none :=
    Option.ne_none_iff_exists'.mpr ⟨receipt, on⟩
  have mem_iff := promised.mem_imagesOf_iff present
  obtain ⟨_, _, _, -, -, -, -, deposited⟩ :=
    deposited_of_reachable reachable past (List.mem_of_mem_filter member)
  rw [(mem_batchOf.mp member).2] at deposited
  have count : (imagesOf (History.db (c :: h)) id).length ≤
      (imagesOf h.db id).length + (storesOf c.writes).length :=
    length_imagesOf_le _ fun other there =>
      ((mem_iff other).mp there).imp_right List.mem_of_mem_filter
  rcases deposited.room with ⟨fresh, fits⟩ | ⟨seen, locked, fits⟩
  · rw [imagesOf_of_absent reachable past' (fresh.get List.suffix_rfl), List.length_nil] at count
    omega
  · have owner : image.2.userId = receipt.userId :=
      owner_of_image reachable past on ((mem_iff image).mpr (Or.inr member))
    have counted : (imagesOf h.db id).length ≤ (imagesOf seen.db id).length := by
      refine length_imagesOf_le [] fun other there => Or.inl ?_
      have same := owner_of_image reachable past on ((mem_iff other).mpr (Or.inl there))
      obtain ⟨stored, isOn⟩ := mem_imagesOf.mp there
      exact mem_imagesOf.mpr ⟨image_of_lockedSince reachable past' locked stored
        (same.trans owner.symm), isOn⟩
    omega

/-- In every committed state, every receipt has at most as many images as the cap says. -/
theorem imageCap (reachable : Config.Reachable (application setup) config)
    (past : h <:+ config.world.history) (id : ℕ) :
    ((imagesOf h.db id).length : ℤ) ≤ max setup.maxImagesPerReceipt 0 := by
  induction h with
  | nil => simp [imagesOf]
  | cons c earlier ih =>
      have past' := (List.suffix_cons c earlier).trans past
      cases on : ((History.db (c :: earlier)) .receipts).get id with
      | none =>
          rw [imagesOf_of_absent reachable past on]
          simp
      | some receipt =>
          rcases List.eq_nil_or_concat (batchOf id c) with empty | ⟨_, image, isBatch⟩
          · have kept : (imagesOf (History.db (c :: earlier)) id).length ≤
                (imagesOf (History.db earlier) id).length + (batchOf id c).length := by
              apply length_imagesOf_le
              intro image member
              have present := Option.ne_none_iff_exists'.mpr ⟨receipt, on⟩
              exact ((promised_of_reachable reachable past).mem_imagesOf_iff present image).mp member
            rw [empty, List.length_nil] at kept
            have before := ih past'
            omega
          · have member : image ∈ batchOf id c := by simp [isBatch]
            exact (length_of_batch reachable past on member).trans (le_max_left _ _)

theorem imageCap_of_onePair : (imagesOf onePair.world.history.db 1).length = 2 ∧
    ((imagesOf onePair.world.history.db 1).length : ℤ) ≤ max demo.maxImagesPerReceipt 0 :=
  ⟨by decide +kernel, imageCap reachable_onePair List.suffix_rfl 1⟩

end Cap

end ReceiptScanner

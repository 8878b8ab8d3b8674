import ReceiptScanner.ReadCommitted.Stages
import ReceiptScanner.Application
import ReceiptScanner.Runs.Receipts

/-!
# Operations that commit all or nothing

COMMIT is what leaving the scope of a transaction does. Ten operations write several rows, and
each has exits between its writes: a refused statement, a failed put, a rejected input, a
duplicate image, a claim that went stale. Every one of these is paired with a ROLLBACK, or
comes before the first write.
-/

namespace ReceiptScanner

open ReadCommitted

variable {setup : Setup} {stage : Stage}

section Steady

variable {α : Type}

theorem steady_ofExcept (result : Except Err α) : Svc.Steady stage (ofExcept result) := by
  cases result with
  | ok value => exact Svc.steady_pure _
  | error exception => exact Svc.steady_throw _

theorem steady_firstRow (missing : Err) (rows : List α) :
    Svc.Steady stage (firstRow missing rows) := by
  cases rows with
  | nil => exact Svc.steady_throw _
  | cons row rest => exact Svc.steady_pure _

/-- A transaction is open and live. -/
def Live (stage : Stage) : Prop := stage = .clean ∨ stage = .dirty

/-- A read leaves a transaction as clean as it was. -/
theorem steady_look (live : Live stage) {stmt : Stmt store α} (silent : stmt.Silent) :
    Svc.Steady stage (execSql .transaction stmt) := by
  apply Svc.steady_exec
  rcases live with rfl | rfl
  · exact .read silent
  · exact .more

/-- A transaction with writes stays one. -/
theorem steady_write (stmt : Stmt store α) : Svc.Steady .dirty (execSql .transaction stmt) :=
  Svc.steady_exec .more

theorem steady_plain {stmt : Stmt store α} (silent : stmt.Silent) :
    Svc.Steady stage (execSql .db stmt) := Svc.steady_read silent

end Steady

namespace ItemService

theorem steady_ownedReceiptKind (live : Live stage) (userId receiptId : ℕ) :
    Svc.Steady stage (ownedReceiptKind .transaction userId receiptId) :=
  Svc.steady_bind (steady_look live fun _ => rfl) fun _ => steady_firstRow _ _

theorem steady_requireCategoryFitsKind (live : Live stage) (userId categoryId : ℕ) (kind : Kind) :
    Svc.Steady stage (requireCategoryFitsKind userId categoryId kind) :=
  Svc.steady_bind (steady_look live fun _ => rfl) fun _ =>
    Svc.steady_bind (steady_firstRow _ _) fun _ => steady_ofExcept _

theorem steady_checkPatchedCategory (live : Live stage) (userId : ℕ) (kind : Kind) (body : Json)
    (item : ItemInput) : Svc.Steady stage (checkPatchedCategory userId kind body item) := by
  unfold checkPatchedCategory
  split
  · exact Svc.steady_forM_option _ fun _ => steady_requireCategoryFitsKind live _ _ _
  · exact Svc.steady_pure _

theorem steady_fetchItem (live : Live stage) (itemId : ℕ) :
    Svc.Steady stage (fetchItem .transaction itemId) :=
  Svc.steady_bind (steady_look live fun _ => rfl) fun _ =>
    Svc.steady_bind (steady_firstRow _ _) fun _ =>
      Svc.steady_bind (steady_look live fun _ => rfl) fun _ => Svc.steady_pure _

theorem steady_replaceTags (userId itemId : ℕ) (tagIds : List ℕ) :
    Svc.Steady .dirty (replaceTags setup userId itemId tagIds) :=
  Svc.steady_bind (steady_write _) fun _ => Svc.steady_forM _ fun _ =>
    Svc.steady_bind (steady_write _) fun _ => Svc.steady_bind (steady_firstRow _ _) fun _ =>
      Svc.steady_bind (steady_write _) fun _ => Svc.steady_pure _

theorem steady_insert (userId receiptId : ℕ) (kind : Kind) (item : ItemInput) :
    Svc.Steady .dirty (insert setup userId receiptId kind item) :=
  Svc.steady_bind (Svc.steady_forM_option _ fun _ =>
      steady_requireCategoryFitsKind (Or.inr rfl) _ _ _) fun _ =>
    Svc.steady_bind (steady_write _) fun _ =>
      Svc.steady_bind (steady_replaceTags _ _ _) fun _ => Svc.steady_pure _

/-- POST /receipts/:id/items -/
theorem atomic_create (userId receiptId : ℕ) (body : Json) :
    Svc.Atomic (fun _ => true) (create setup userId receiptId body) := by
  refine (steady_ofExcept _).atomic fun input =>
    Svc.atomic_transaction (Svc.Body.rollingBack ?_)
  apply (steady_ownedReceiptKind (Or.inl rfl) _ _).body (by decide)
  intro kind
  unfold insert
  simp only [bind_assoc, pure_bind]
  refine (Svc.steady_forM_option _ fun _ =>
    steady_requireCategoryFitsKind (Or.inl rfl) _ _ _).body (by decide) fun _ => ?_
  apply Svc.body_exec .write
  intro itemId
  apply (steady_replaceTags _ _ _).body (by decide)
  intro _
  exact (steady_fetchItem (Or.inr rfl) _).ends (by decide) (by decide) fun _ => rfl

/-- PATCH /receipts/:id/items/:item_id -/
theorem atomic_update (userId receiptId itemId : ℕ) (body : Json) :
    Svc.Atomic (fun _ => true) (update setup userId receiptId itemId body) := by
  refine Svc.atomic_transaction (Svc.Body.rollingBack ?_)
  apply (steady_ownedReceiptKind (Or.inl rfl) _ _).body (by decide)
  intro kind
  refine (steady_look (Or.inl rfl) fun _ => rfl).body (by decide) fun result => ?_
  apply (steady_firstRow _ _).body (by decide)
  intro current
  apply (steady_ofExcept _).body (by decide)
  rintro ⟨item, tagsGiven⟩
  apply (steady_checkPatchedCategory (Or.inl rfl) _ _ _ _).body (by decide)
  intro _
  apply Svc.body_exec .write
  intro _
  have fetch : Svc.Body (fun _ => true) (fetchItem .transaction itemId) .dirty :=
    (steady_fetchItem (Or.inr rfl) _).ends (by decide) (by decide) fun _ => rfl
  cases tagsGiven with
  | true => exact (steady_replaceTags _ _ _).body (by decide) fun _ => fetch
  | false => exact fetch

end ItemService

namespace CategoryService

/-- PATCH /categories/:id -/
theorem atomic_update (userId id : ℕ) (body : Json) :
    Svc.Atomic (fun _ => true) (update userId id body) := by
  refine (steady_ofExcept _).atomic fun given => Svc.atomic_transaction
    (Svc.tracks_rethrow (rethrows_conflict "category") (Svc.Body.rollingBack ?_))
  refine (steady_look (Or.inl rfl) fun _ => rfl).body (by decide) fun current => ?_
  apply (steady_firstRow _ _).body (by decide)
  intro category
  have flip : Svc.Steady .clean (checkFlip category given.2) := by
    unfold checkFlip
    split
    · exact Svc.steady_pure _
    · split
      · exact Svc.steady_bind (steady_look (Or.inl rfl) fun _ => rfl) fun _ => steady_ofExcept _
      · exact Svc.steady_pure _
  apply flip.body (by decide)
  intro _
  apply Svc.body_exec .write
  intro _
  exact (Svc.steady_pure _).ends (by decide) (by decide) fun _ => rfl

end CategoryService

namespace AuthService

theorem steady_seed (userId : ℕ) (isIncome : Bool) (names : List String) :
    Svc.Steady .dirty (names.forM fun name => do
      let _ ← execSql .transaction (seedCategory userId isIncome name) : Task PUnit) :=
  Svc.steady_forM _ fun _ => Svc.steady_bind (steady_write _) fun _ => Svc.steady_pure _

/-- Registration, with its seeds. -/
theorem atomic_registerUser (email password : String) :
    Svc.Atomic (fun _ => true) (registerUser email password) := by
  refine Svc.Steady.atomic Svc.steady_call fun passwordHash => Svc.atomic_transaction
    (Svc.tracks_rethrow rethrows_if (Svc.Body.rollingBack ?_))
  apply Svc.body_exec .write
  intro userId
  apply (steady_seed _ _ _).body (by decide)
  intro _
  apply (steady_seed _ _ _).body (by decide)
  intro _
  apply Svc.body_exec .more
  intro _
  exact (Svc.steady_pure _).ends (by decide) (by decide) fun _ => rfl

/-- A password reset. Its transaction is not rolled back by hand: only a refused statement
raises, and that aborts it. -/
theorem atomic_confirmPasswordReset (rawToken newPassword : String) :
    Svc.Atomic id (confirmPasswordReset setup rawToken newPassword) := by
  refine (steady_plain fun _ => rfl).atomic fun result => ?_
  cases result with
  | nil => exact Svc.tracks_pure (Or.inl rfl)
  | cons userId more =>
      refine Svc.Steady.atomic Svc.steady_call fun newHash => Svc.atomic_transaction ?_
      have refused : ∀ failure : SqlFailure, Stage.Undone .dead := fun _ => Or.inr rfl
      exact Svc.tracks_bind (Svc.tracks_exec .write (fun _ => Svc.tracks_bind
        (Svc.tracks_exec .more (fun _ => Svc.tracks_bind (Svc.tracks_exec .more
          (fun _ => Svc.tracks_pure nofun) refused)) refused)) refused)

end AuthService

namespace ReceiptService

theorem steady_prepareImages (images : List String) :
    Svc.Steady stage (prepareImages setup images) :=
  Svc.steady_mapM _ fun _ => Svc.steady_bind Svc.steady_call fun _ => Svc.steady_pure _

theorem steady_conflictUnlessForced (userId : ℕ) (prepared : List PreparedImage) (force : Bool) :
    Svc.Steady .clean (conflictUnlessForced userId prepared force) := by
  unfold conflictUnlessForced
  split
  · exact Svc.steady_pure _
  · induction prepared with
    | nil => exact Svc.steady_pure _
    | cons prep rest ih =>
        refine Svc.steady_bind (steady_look (Or.inl rfl) fun _ => rfl) fun dup => ?_
        cases dup with
        | nil => exact ih
        | cons conflict more => exact Svc.steady_pure _

theorem steady_storeImages (userId receiptId : ℕ) (prepared : List PreparedImage) :
    Svc.Steady .dirty (storeImages userId receiptId prepared) :=
  Svc.steady_forM _ fun _ => Svc.steady_bind Svc.steady_call fun _ =>
    Svc.steady_bind Svc.steady_call fun _ => Svc.steady_bind (steady_write _) fun _ =>
      Svc.steady_pure _

/-- POST /receipts -/
theorem atomic_uploadReceipt (userId : ℕ) (images : List String) (force : Bool) :
    Svc.Atomic Sum.isLeft (uploadReceipt setup userId images force) := by
  refine (steady_ofExcept _).atomic fun _ => (steady_prepareImages _).atomic fun prepared =>
    Svc.atomic_transaction (Svc.Body.rollingBack ?_)
  refine (steady_look (Or.inl rfl) fun _ => rfl).body (by decide) fun _ => ?_
  apply (steady_conflictUnlessForced _ _ _).body (by decide)
  intro conflict
  cases conflict with
  | some conflict => exact Svc.tracks_bind (Svc.tracks_rollback (Svc.tracks_pure (Or.inl rfl)))
  | none =>
      apply Svc.body_exec .write
      intro receiptId
      apply (steady_storeImages _ _ _).body (by decide)
      intro _
      exact Svc.tracks_pure nofun

/-- POST /receipts/:id/images -/
theorem atomic_addImages (userId receiptId : ℕ) (images : List String) (force : Bool) :
    Svc.Atomic Sum.isLeft (addImages setup userId receiptId images force) := by
  refine (steady_plain fun _ => rfl).atomic fun owned => (steady_firstRow _ _).atomic fun _ =>
    (steady_prepareImages _).atomic fun prepared =>
      Svc.atomic_transaction (Svc.Body.rollingBack ?_)
  refine (steady_look (Or.inl rfl) fun _ => rfl).body (by decide) fun _ => ?_
  refine (steady_look (Or.inl rfl) fun _ => rfl).body (by decide) fun count => ?_
  apply (steady_ofExcept _).body (by decide)
  intro _
  apply (steady_conflictUnlessForced _ _ _).body (by decide)
  intro conflict
  cases conflict with
  | some conflict => exact Svc.tracks_bind (Svc.tracks_rollback (Svc.tracks_pure (Or.inl rfl)))
  | none =>
      have requeued : ∀ stage, Live stage → Svc.Body Sum.isLeft (do
          let _ ← execSql .transaction (requeue receiptId)
          pure (.inl ()) : Task (Unit ⊕ ImageConflict)) stage := by
        rintro stage (rfl | rfl)
        · exact Svc.body_exec .write fun _ => Svc.tracks_pure nofun
        · exact Svc.body_exec .more fun _ => Svc.tracks_pure nofun
      cases prepared with
      | nil => exact requeued .clean (Or.inl rfl)
      | cons prep rest =>
          -- The first image of the batch is the first write of the transaction.
          change Svc.Body Sum.isLeft ((storeImage userId receiptId prep >>= fun _ =>
            storeImages userId receiptId rest) >>= fun _ => _) .clean
          simp only [storeImage, bind_assoc]
          apply Svc.steady_call.body (by decide)
          intro random
          apply Svc.steady_call.body (by decide)
          intro _
          apply Svc.body_exec .write
          intro _
          apply (steady_storeImages _ _ _).body (by decide)
          intro _
          exact requeued .dirty (Or.inr rfl)

theorem steady_validateReferences (userId : ℕ) (receiptId : Option ℕ) (r : EditableReceipt) :
    Svc.Steady .clean (validateReferences userId receiptId r) := by
  refine Svc.steady_bind (Svc.steady_forM_option _ fun _ => ?_) fun _ =>
    Svc.steady_forM_option _ fun _ => ?_
  · exact Svc.steady_bind (steady_look (Or.inl rfl) fun _ => rfl) fun _ =>
      Svc.steady_bind (steady_firstRow _ _) fun _ => Svc.steady_pure _
  · exact Svc.steady_bind (steady_ofExcept _) fun _ =>
      Svc.steady_bind (steady_look (Or.inl rfl) fun _ => rfl) fun _ =>
        Svc.steady_bind (steady_firstRow _ _) fun _ => steady_ofExcept _

theorem steady_checkSideChange (receiptId : ℕ) (wasIncomeSide isIncomeSide : Bool) :
    Svc.Steady .clean (checkSideChange receiptId wasIncomeSide isIncomeSide) := by
  unfold checkSideChange
  split
  · exact Svc.steady_bind (steady_look (Or.inl rfl) fun _ => rfl) fun _ => steady_ofExcept _
  · exact Svc.steady_pure _

/-- POST /receipts/manual -/
theorem atomic_createManual (userId : ℕ) (body : Json) :
    Svc.Atomic (fun _ => true) (createManual setup userId body) := by
  refine (steady_ofExcept _).atomic fun input =>
    Svc.atomic_transaction (Svc.Body.rollingBack ?_)
  apply (steady_validateReferences _ _ _).body (by decide)
  intro _
  apply (steady_ofExcept _).body (by decide)
  intro purchaseDate
  apply Svc.body_exec .write
  intro receiptId
  refine (Svc.steady_forM _ fun item => Svc.steady_bind
    (ItemService.steady_insert userId receiptId input.receipt.kind item) fun _ =>
      Svc.steady_pure _).body (by decide) fun _ => ?_
  exact (Svc.steady_pure _).ends (by decide) (by decide) fun _ => rfl

/-- PATCH /receipts/:id -/
theorem atomic_updateReceipt (userId receiptId : ℕ) (body : Json) :
    Svc.Atomic (fun _ => true) (updateReceipt setup userId receiptId body) := by
  refine Svc.atomic_transaction (Svc.Body.rollingBack ?_)
  refine (steady_look (Or.inl rfl) fun _ => rfl).body (by decide) fun current => ?_
  apply (steady_firstRow _ _).body (by decide)
  intro before
  apply (steady_ofExcept _).body (by decide)
  rintro ⟨r, markReviewed⟩
  apply (steady_validateReferences _ _ _).body (by decide)
  intro _
  apply (steady_checkSideChange _ _ _).body (by decide)
  intro _
  apply (steady_ofExcept _).body (by decide)
  intro purchaseDate
  apply Svc.body_exec .write
  intro _
  apply Svc.body_exec .more
  intro updated
  exact (steady_firstRow _ _).ends (by decide) (by decide) fun _ => rfl

end ReceiptService

namespace ScanWorker

theorem steady_insertScannedItems (claim : Claim) (kind : Kind) (items : List ScannedItem)
    (taxonomy : Taxonomy) :
    Svc.Steady .dirty (insertScannedItems setup claim kind items taxonomy) :=
  Svc.steady_forM _ fun _ => Svc.steady_bind (ItemService.steady_insert _ _ _ _) fun _ =>
    Svc.steady_pure _

/-- An attempt that wrote is committed. One that did not has rolled back before any write. -/
def Wrote (attempt : Attempt) (stage : Stage) : Prop :=
  if attempt = .written then stage = .dirty else stage = .idle

theorem tracks_writeVerify (claim : Claim) (result : ScanResult) (taxonomy : Taxonomy)
    (snapshot : Snapshot) (allMatch : Bool) :
    (writeVerify setup claim result taxonomy snapshot allMatch).Tracks
      (fun _ stage => stage = .dirty) (fun _ stage => stage ≠ .settled) .clean := by
  refine (steady_ofExcept _).bind (by rintro _ _ (rfl | rfl) <;> decide) fun purchaseDate => ?_
  refine Svc.tracks_bind (Svc.tracks_exec .write (fun _ => ?_) fun _ => by decide)
  split
  · exact Svc.Tracks.mono (steady_insertScannedItems _ _ _ _) (fun _ _ => id)
      (by rintro _ _ (rfl | rfl) <;> decide)
  · exact Svc.tracks_pure rfl

theorem tracks_writeExtraction (claim : Claim) (result : ScanResult) (taxonomy : Taxonomy)
    (snapshot : Snapshot) :
    (writeExtraction setup claim result taxonomy snapshot).Tracks
      (fun _ stage => stage = .dirty) (fun _ stage => stage ≠ .settled) .clean := by
  refine (steady_ofExcept _).bind (by rintro _ _ (rfl | rfl) <;> decide) fun kind => ?_
  refine (steady_ofExcept _).bind (by rintro _ _ (rfl | rfl) <;> decide) fun purchaseDate => ?_
  refine Svc.tracks_bind (Svc.tracks_exec .write (fun _ => ?_) fun _ => by decide)
  refine (steady_write _).bind (by rintro _ _ (rfl | rfl) <;> decide) fun _ => ?_
  exact Svc.Tracks.mono (steady_insertScannedItems _ _ _ _) (fun _ _ => id)
    (by rintro _ _ (rfl | rfl) <;> decide)

theorem tracks_writeLocked (claim : Claim) (result : ScanResult) (taxonomy : Taxonomy)
    (before : Snapshot) (allMatch : Bool) (locked : Option Snapshot) :
    (writeLocked setup claim result taxonomy before allMatch locked).Tracks Wrote
      (fun _ stage => stage ≠ .settled) .clean := by
  cases locked with
  | none => exact Svc.tracks_bind (Svc.tracks_rollback (Svc.tracks_pure rfl))
  | some locked =>
      simp only [writeLocked]
      split
      · split
        · exact Svc.tracks_bind (Svc.Tracks.mono (tracks_writeVerify _ _ _ _ _)
            (fun _ _ written => Svc.tracks_pure written) fun _ _ => id)
        · exact Svc.tracks_bind (Svc.Tracks.mono (tracks_writeExtraction _ _ _ _)
            (fun _ _ written => Svc.tracks_pure written) fun _ _ => id)
      · exact Svc.tracks_bind (Svc.tracks_rollback (Svc.tracks_pure rfl))

theorem tracks_writeResult (claim : Claim) (result : ScanResult) (taxonomy : Taxonomy)
    (before : Snapshot) (allMatch : Bool) :
    (writeResult setup claim result taxonomy before allMatch).Tracks
      (fun attempt stage => if attempt = .written then stage = .settled else stage = .idle)
      (fun _ stage => stage.Undone) .idle := by
  refine Svc.tracks_transaction (Svc.tracks_rollingBack ?_) fun _ => Or.inl rfl
  have unsettled : ∀ stage : Stage, stage ≠ .settled → stage.rolledBack.committed.Undone := by
    intro stage open_
    cases stage with
    | settled => exact absurd rfl open_
    | idle => exact Or.inl rfl
    | clean => exact Or.inl rfl
    | dirty => exact Or.inr rfl
    | dead => exact Or.inr rfl
  refine Svc.Steady.bind (Svc.steady_bind (steady_look (Or.inl rfl) fun _ => rfl) fun _ =>
    Svc.steady_pure _) (by rintro _ _ (rfl | rfl) <;> exact unsettled _ (by decide))
    fun locked => ?_
  refine (tracks_writeLocked claim result taxonomy before allMatch locked).mono ?_
    fun _ stage => unsettled stage
  intro attempt stage wrote
  unfold Wrote at wrote
  split at wrote <;> simp_all [Stage.committed]

theorem steady_similarity (left right : String) :
    Svc.Steady stage (similarity setup left right) := steady_plain fun _ => rfl

theorem steady_merchantMatches (merchant : String) (result : ScanResult) :
    Svc.Steady stage (merchantMatches setup merchant result) := by
  unfold merchantMatches
  cases result.storeNameRaw with
  | none =>
      cases result.merchant with
      | none => exact Svc.steady_pure _
      | some scanned => exact Svc.steady_bind (steady_similarity _ _) fun _ => Svc.steady_pure _
  | some storeName =>
      have further : ∀ ofMerchant : ℚ, Svc.Steady stage
          (if ofMerchant < setup.merchantMatchThreshold then do
            let ofStore ← similarity setup merchant storeName
            let best ← pure (max ofMerchant ofStore)
            pure (!decide (best < setup.merchantMatchThreshold))
          else do
            let best ← pure ofMerchant
            pure (!decide (best < setup.merchantMatchThreshold)) : Task Bool) := by
        intro ofMerchant
        split
        · exact Svc.steady_bind (steady_similarity _ _) fun _ => Svc.steady_pure _
        · exact Svc.steady_pure _
      cases result.merchant with
      | none => exact further 0
      | some scanned => exact Svc.steady_bind (steady_similarity _ _) further

theorem steady_compareResult (before : Snapshot) (result : ScanResult) :
    Svc.Steady stage (compareResult setup before result) := by
  unfold compareResult
  split
  · refine Svc.steady_bind (steady_ofExcept _) fun dates => Svc.steady_bind ?_ fun _ =>
      Svc.steady_pure _
    unfold merchantsMatch
    split
    · exact Svc.steady_pure _
    · split
      · exact steady_merchantMatches _ _
      · exact Svc.steady_pure _
  · exact Svc.steady_pure _

/-- Compare and write, until the row holds still. -/
theorem atomic_attempts (claim : Claim) (result : ScanResult) (taxonomy : Taxonomy) (left : ℕ) :
    Svc.Atomic (fun _ => true) (attempts setup claim result taxonomy left) := by
  induction left with
  | zero => exact Svc.tracks_throw (Or.inl rfl)
  | succ left ih =>
      refine Svc.Steady.atomic (Svc.steady_bind (steady_plain fun _ => rfl) fun _ =>
        Svc.steady_pure _) fun before => ?_
      cases before with
      | none => exact Svc.tracks_pure (Or.inl rfl)
      | some before =>
          refine (steady_compareResult _ _).atomic fun allMatch => Svc.tracks_bind
            ((tracks_writeResult _ _ _ _ _).mono (fun attempt stage wrote => ?_) fun _ _ => id)
          cases attempt with
          | stale =>
              obtain rfl : stage = .idle := wrote
              exact Svc.tracks_pure (Or.inl rfl)
          | changed =>
              obtain rfl : stage = .idle := wrote
              exact ih
          | written =>
              obtain rfl : stage = .settled := wrote
              exact Svc.tracks_pure (Or.inr rfl)

theorem atomic_applyResult (claim : Claim) (result : ScanResult) :
    Svc.Atomic (fun _ => true) (applyResult setup claim result) :=
  Svc.Steady.atomic (Svc.steady_bind (steady_plain fun _ => rfl) fun _ =>
    Svc.steady_bind (steady_plain fun _ => rfl) fun _ => Svc.steady_pure _)
    fun taxonomy => atomic_attempts claim result taxonomy 2

end ScanWorker

/-- The operations that write several rows in one transaction. -/
def Job.severalWrites : Job → Bool
  | .registerUser _ _ => true
  | .confirmPasswordReset _ _ => true
  | .uploadReceipt _ _ _ => true
  | .addImages _ _ _ _ => true
  | .createManual _ _ => true
  | .updateReceipt _ _ _ => true
  | .createItem _ _ _ => true
  | .updateItem _ _ _ _ => true
  | .updateCategory _ _ _ => true
  | .applyResult _ _ => true
  | _ => false

/-- The caller is told that the operation is done. -/
def Answer.isDone : Answer → Bool
  | .raised _ => false
  | .returned => true
  | .told yes => yes
  | .conflict => false

/-- A failure leaves nothing, and a success everything. -/
def Concludes (ending : Ending outside Job) (stage : Stage) : Prop :=
  if ending.1.isDone then stage = .idle ∨ stage = .settled else stage.Undone

theorem concludes_serve {α : Type} {good : α → Bool} {tell : α → Answer} {task : Task α}
    (atomic : Svc.Atomic good task) (tells : ∀ value, (tell value).isDone = good value) :
    (Job.serve tell task).Tracks Concludes .idle := by
  refine Prog.tracks_bind (Prog.Tracks.mono atomic fun result stage holds => ?_)
  cases result with
  | ok value =>
      change if (tell value).isDone then stage = .idle ∨ stage = .settled else stage.Undone
      rw [tells value]
      exact holds
  | error exception => exact holds

theorem concludes_prog {job : Job} (several : job.severalWrites = true) :
    (Job.prog setup job).Tracks Concludes .idle := by
  have done : ∀ {α : Type} (value : α), ((fun _ => .returned : α → Answer) value).isDone = true :=
    fun _ => rfl
  cases job with
  | registerUser email password =>
      exact concludes_serve (AuthService.atomic_registerUser email password) done
  | confirmPasswordReset rawToken newPassword =>
      exact concludes_serve (AuthService.atomic_confirmPasswordReset rawToken newPassword)
        fun _ => rfl
  | uploadReceipt userId images force =>
      exact concludes_serve (ReceiptService.atomic_uploadReceipt userId images force)
        fun value => by cases value <;> rfl
  | addImages userId receiptId images force =>
      exact concludes_serve (ReceiptService.atomic_addImages userId receiptId images force)
        fun value => by cases value <;> rfl
  | createManual userId body =>
      exact concludes_serve (ReceiptService.atomic_createManual userId body) done
  | updateReceipt userId receiptId body =>
      exact concludes_serve (ReceiptService.atomic_updateReceipt userId receiptId body) done
  | createItem userId receiptId body =>
      exact concludes_serve (ItemService.atomic_create userId receiptId body) done
  | updateItem userId receiptId itemId body =>
      exact concludes_serve (ItemService.atomic_update userId receiptId itemId body) done
  | updateCategory userId id body =>
      exact concludes_serve (CategoryService.atomic_update userId id body) done
  | applyResult claim result =>
      exact concludes_serve (ScanWorker.atomic_applyResult claim result) done
  | _ => simp [Job.severalWrites] at several

end ReceiptScanner

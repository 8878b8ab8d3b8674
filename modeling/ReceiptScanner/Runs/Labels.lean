import ReceiptScanner.Application
import ReceiptScanner.ReadCommitted.Footprint

/-!
# Which job writes what

The footprint of each job: the labels of the writes that its program contains, and,
of the calls that matter to others, those it makes. From a label in a commit one can
thus tell the job of its process, and what else the commit cannot contain.
-/

namespace ReceiptScanner

open ReadCommitted

/-- The labels of a job's writes. -/
def Job.labels : Job → List Label
  | .registerUser _ _ => [.registerUser, .seedCategory, .seedPaymentMethod]
  | .login _ _ => [.login]
  | .validateSession _ => [.touchSession]
  | .logout _ => [.logout]
  | .requestPasswordReset _ => [.requestPasswordReset]
  | .confirmPasswordReset _ _ => [.resetPassword, .dropSessions, .dropToken]
  | .requestEmailVerification _ => [.requestEmailVerification]
  | .confirmEmailVerification _ => [.verifyEmail, .dropToken]
  | .createCategory _ _ => [.createCategory]
  | .updateCategory _ _ _ => [.updateCategory]
  | .removeCategory _ _ => [.removeCategory]
  | .createTag _ _ => [.createTag]
  | .updateTag _ _ _ => [.updateTag]
  | .removeTag _ _ => [.removeTag]
  | .createPaymentMethod _ _ => [.createPaymentMethod]
  | .updatePaymentMethod _ _ _ => [.updatePaymentMethod]
  | .removePaymentMethod _ _ => [.removePaymentMethod]
  | .uploadReceipt _ _ _ => [.uploadReceipt, .storeImage]
  | .addImages _ _ _ _ => [.storeImage, .addImages]
  | .createManual _ _ => [.createManual, .insertItem, .clearTags, .insertTag]
  | .updateReceipt _ _ _ => [.updateReceipt]
  | .retryScan _ _ => [.retryScan]
  | .deleteReceipt _ _ => [.deleteReceipt]
  | .createItem _ _ _ => [.insertItem, .clearTags, .insertTag]
  | .updateItem _ _ _ _ => [.updateItem, .clearTags, .insertTag]
  | .removeItem _ _ _ => [.removeItem]
  | .tick => [.reclaimStuck, .claim]
  | .process _ | .applyResult _ _ =>
      [.writeExtraction, .clearItems, .writeVerify, .insertItem, .clearTags, .insertTag,
        .recordFailure]
  | _ => []

/-- Only additions put images, only deletions remove them, and only logins verify a
password. -/
def Job.mayCall : Job → Call → Bool
  | .uploadReceipt _ _ _, .putImage _ _ _ => true
  | .addImages _ _ _ _, .putImage _ _ _ => true
  | _, .putImage _ _ _ => false
  | .deleteReceipt _ _, .removeImage _ => true
  | _, .removeImage _ => false
  | .login _ _, .verifyPassword _ _ => true
  | _, .verifyPassword _ _ => false
  | _, _ => true

/-- Besides, only the worker has images scanned. -/
def Job.asks (job : Job) : Call → Bool
  | .scanReceipt _ _ => match job with
    | .process _ => true
    | _ => false
  | c => job.mayCall c

theorem Job.mayCall_of_asks {job : Job} {c : Call} (asks : job.asks c = true) :
    job.mayCall c = true := by
  cases c with
  | scanReceipt images context => cases job <;> rfl
  | _ => exact asks

/-- The tables that a statement writes, ON DELETE actions included. -/
def Label.tables : Label → List Table
  | .registerUser | .resetPassword | .verifyEmail => [.users]
  | .login | .touchSession | .logout | .dropSessions => [.sessions]
  | .requestPasswordReset | .dropToken | .requestEmailVerification => [.authTokens]
  | .seedCategory | .createCategory | .updateCategory => [.categories]
  | .removeCategory => [.categories, .items]
  | .createTag | .updateTag => [.tags]
  | .removeTag => [.tags, .itemTags]
  | .seedPaymentMethod | .createPaymentMethod | .updatePaymentMethod => [.paymentMethods]
  | .removePaymentMethod => [.paymentMethods, .receipts]
  | .storeImage => [.receiptImages]
  | .deleteReceipt => [.receipts, .receiptImages, .items, .itemTags]
  | .insertItem | .updateItem => [.items]
  | .removeItem | .clearItems => [.items, .itemTags]
  | .clearTags | .insertTag => [.itemTags]
  | _ => [.receipts]

/-- The footprint of these labels and calls. -/
def marks (labels : List Label) (mayCall : Call → Bool) : Footprint store outside where
  writes write := write.label ∈ labels ∧ write.table ∈ write.label.tables
  calls call := mayCall call = true

variable {labels : List Label} {mayCall : Call → Bool} {α β : Type}

section Statements

theorem label_sweep {db : Db store} {label : Label} {table : Table} {keep : ℕ → table.Row → Bool}
    {set : table.Row → Option table.Row} {write : Write store}
    (member : write ∈ sweep db label table keep set) : write.label = label := by
  obtain ⟨_, _, -, -, rfl⟩ := mem_sweep.mp member
  rfl

/-- The ON DELETE actions carry the label of their DELETE. -/
theorem label_onDelete {db : Db store} {label : Label} {table : Table} {id : ℕ}
    {write : Write store} (member : write ∈ onDelete db label table id) : write.label = label := by
  cases table <;> simp only [onDelete] at member
  case categories => exact label_sweep member
  case tags => exact label_sweep member
  case paymentMethods => exact label_sweep member
  case items => exact label_sweep member
  case receipts =>
      rcases List.mem_append.mp member with former | unlinked
      · rcases List.mem_append.mp former with images | items
        · exact label_sweep images
        · obtain ⟨item, -, which⟩ := List.mem_flatMap.mp items
          rcases List.mem_cons.mp which with rfl | tags
          · rfl
          · exact label_sweep tags
      · exact label_sweep unlinked
  all_goals cases member

/-- The tables that the ON DELETE actions of a table write. -/
def cascades : Table → List Table
  | .categories => [.items]
  | .tags | .items => [.itemTags]
  | .paymentMethods => [.receipts]
  | .receipts => [.receipts, .receiptImages, .items, .itemTags]
  | _ => []

theorem table_onDelete {db : Db store} {label : Label} {table : Table} {id : ℕ}
    {write : Write store} (member : write ∈ onDelete db label table id) :
    write.table ∈ cascades table := by
  have swept : ∀ {other : Table} {keep : ℕ → other.Row → Bool} {set} {write : Write store},
      write ∈ sweep db label other keep set → write.table = other := by
    intro other keep set write made
    obtain ⟨_, _, -, -, rfl⟩ := mem_sweep.mp made
    rfl
  cases table <;> simp only [onDelete] at member
  case categories => simp [swept member, cascades]
  case tags => simp [swept member, cascades]
  case paymentMethods => simp [swept member, cascades]
  case items => simp [swept member, cascades]
  case receipts =>
      rcases List.mem_append.mp member with former | unlinked
      · rcases List.mem_append.mp former with images | items
        · simp [swept images, cascades]
        · obtain ⟨item, -, which⟩ := List.mem_flatMap.mp items
          rcases List.mem_cons.mp which with rfl | tags
          · simp [cascades]
          · simp [swept tags, cascades]
      · simp [swept unlinked, cascades]
  all_goals cases member

variable {client : Client} {label : Label} {table : Table}

theorem within_insert {row : ℕ → table.Row}
    (member : label ∈ labels ∧ table ∈ label.tables) :
    Svc.Within (marks labels mayCall) (execSql client (.insert label table row)) :=
  Svc.within_exec fun _ _ made => (List.mem_singleton.mp made) ▸ member

theorem within_update {keep : Db store → ℕ → table.Row → Bool}
    {set : ℕ → table.Row → table.Row} {returning : ℕ → table.Row → α}
    (member : label ∈ labels ∧ table ∈ label.tables) :
    Svc.Within (marks labels mayCall)
      (execSql client (.update label table keep set returning)) := by
  refine Svc.within_exec fun ctx write made => ?_
  obtain ⟨_, -, rfl⟩ := List.mem_map.mp made
  exact member

theorem within_delete {lower : String → String} {keep : Db store → ℕ → table.Row → Bool}
    (member : label ∈ labels ∧ ∀ other ∈ table :: cascades table, other ∈ label.tables) :
    Svc.Within (marks labels mayCall)
      (execSql client (.delete (schema lower) label table keep)) := by
  refine Svc.within_exec fun ctx write made => ?_
  obtain ⟨_, -, which⟩ := List.mem_flatMap.mp made
  rcases List.mem_cons.mp which with rfl | action
  · exact ⟨member.1, member.2 _ List.mem_cons_self⟩
  · change write.label ∈ labels ∧ write.table ∈ Label.tables write.label
    rw [label_onDelete action]
    exact ⟨member.1, member.2 _ (List.mem_cons_of_mem _ (table_onDelete action))⟩

theorem within_read {stmt : Stmt store α} (silent : ∀ ctx, (stmt ctx).writes = []) :
    Svc.Within (marks labels mayCall) (execSql client stmt) :=
  Svc.within_exec fun ctx _ made => by simp [silent] at made

theorem within_select {mode : Option LockMode} {keep : Db store → ℕ → table.Row → Bool}
    {project : Db store → ℕ → table.Row → α} :
    Svc.Within (marks labels mayCall) (execSql client (.select mode table keep project)) :=
  within_read fun _ => by cases mode <;> rfl

end Statements

section Tasks

variable {print : Footprint store outside}

theorem within_ofExcept (result : Except Err α) :
    Svc.Within print (ofExcept result) := trivial

theorem within_firstRow (missing : Err) (rows : List α) :
    Svc.Within print (firstRow missing rows) := by
  cases rows with
  | nil => exact Svc.within_throw _
  | cons row rest => exact Svc.within_pure _

theorem within_if {test : Prop} [Decidable test] {left right : Task α}
    (isTrue : Svc.Within print left)
    (isFalse : Svc.Within print right) :
    Svc.Within print (if test then left else right) := by
  split
  · exact isTrue
  · exact isFalse

theorem within_conflictIfDuplicate {noun : String} {body : Task α}
    (inside : Svc.Within print body) :
    Svc.Within print (conflictIfDuplicate noun body) :=
  Svc.within_tryCatch inside fun _ => within_if (Svc.within_throw _) (Svc.within_throw _)

theorem within_removeOwned {noun : String} {delete : Stmt store (List ℕ)}
    (inside : Svc.Within print (execSql .db delete)) :
    Svc.Within print (removeOwned noun delete) :=
  Svc.within_bind inside fun _ => Svc.within_bind (within_firstRow _ _) fun _ => Svc.within_pure _

/-- What a task does, the job that serves it does. -/
theorem within_serve {tell : α → Answer} {task : Task α}
    (inside : Svc.Within print task) :
    (Job.serve tell task).Within print :=
  Prog.within_bind inside fun result => match result with
    | .ok _ => trivial
    | .error _ => trivial

end Tasks

namespace ItemService

variable {setup : Setup}

theorem within_ownedReceiptKind (client : Client) (userId receiptId : ℕ) :
    Svc.Within (marks labels mayCall) (ownedReceiptKind client userId receiptId) :=
  Svc.within_bind within_select fun _ => within_firstRow _ _

theorem within_fetchItem (client : Client) (itemId : ℕ) :
    Svc.Within (marks labels mayCall) (fetchItem client itemId) :=
  Svc.within_bind within_select fun _ => Svc.within_bind (within_firstRow _ _) fun _ =>
    Svc.within_bind (within_read fun _ => rfl) fun _ => Svc.within_pure _

theorem within_replaceTags (userId itemId : ℕ) (tagIds : List ℕ)
    (clears : Label.clearTags ∈ labels) (inserts : Label.insertTag ∈ labels) :
    Svc.Within (marks labels mayCall) (replaceTags setup userId itemId tagIds) :=
  Svc.within_bind (within_delete ⟨clears, by decide⟩) fun _ => Svc.within_forM _ fun _ =>
    Svc.within_bind within_select fun _ => Svc.within_bind (within_firstRow _ _) fun _ =>
      Svc.within_bind (within_insert ⟨inserts, by decide⟩) fun _ => Svc.within_pure _

theorem within_requireCategoryFitsKind (userId categoryId : ℕ) (kind : Kind) :
    Svc.Within (marks labels mayCall) (requireCategoryFitsKind userId categoryId kind) :=
  Svc.within_bind within_select fun _ => Svc.within_bind (within_firstRow _ _) fun _ =>
    within_ofExcept _

theorem within_insert (userId receiptId : ℕ) (kind : Kind) (item : ItemInput)
    (stores : Label.insertItem ∈ labels) (clears : Label.clearTags ∈ labels)
    (inserts : Label.insertTag ∈ labels) :
    Svc.Within (marks labels mayCall) (insert setup userId receiptId kind item) :=
  Svc.within_bind
    (Svc.within_forM_option _ fun _ => within_requireCategoryFitsKind _ _ _) fun _ =>
    Svc.within_bind (ReceiptScanner.within_insert ⟨stores, by decide⟩) fun _ =>
      Svc.within_bind (within_replaceTags _ _ _ clears inserts) fun _ => Svc.within_pure _

theorem within_create (userId receiptId : ℕ) (body : Json) :
    Svc.Within (marks [.insertItem, .clearTags, .insertTag] mayCall)
      (create setup userId receiptId body) :=
  Svc.within_bind (within_ofExcept _) fun _ =>
    Svc.within_transaction (Svc.within_rollingBack
      (Svc.within_bind (within_ownedReceiptKind _ _ _) fun _ =>
        Svc.within_bind (within_insert _ _ _ _ (by decide) (by decide) (by decide)) fun _ =>
          within_fetchItem _ _))

theorem within_update (userId receiptId itemId : ℕ) (body : Json) :
    Svc.Within (marks [.updateItem, .clearTags, .insertTag] mayCall)
      (update setup userId receiptId itemId body) := by
  refine Svc.within_transaction (Svc.within_rollingBack
    (Svc.within_bind (within_ownedReceiptKind _ _ _) fun kind =>
      Svc.within_bind within_select fun _ => Svc.within_bind (within_firstRow _ _) fun _ =>
        Svc.within_bind (within_ofExcept _) fun patched => ?_))
  refine Svc.within_bind (within_if (Svc.within_forM_option _ fun _ =>
    within_requireCategoryFitsKind _ _ _) (Svc.within_pure _)) fun _ => ?_
  refine Svc.within_bind (ReceiptScanner.within_update (by decide)) fun _ => ?_
  cases patched.2 with
  | true =>
      exact Svc.within_bind (within_replaceTags _ _ _ (by decide) (by decide)) fun _ =>
        within_fetchItem _ _
  | false => exact within_fetchItem _ _

theorem within_remove (userId receiptId itemId : ℕ) :
    Svc.Within (marks [.removeItem] mayCall) (remove setup userId receiptId itemId) :=
  Svc.within_bind (within_ownedReceiptKind _ _ _) fun _ =>
    Svc.within_bind (within_delete (by decide)) fun _ =>
      Svc.within_bind (within_firstRow _ _) fun _ => Svc.within_pure _

theorem within_list (userId receiptId : ℕ) :
    Svc.Within (marks labels mayCall) (list userId receiptId) :=
  Svc.within_bind (within_ownedReceiptKind _ _ _) fun _ => Svc.within_bind within_select fun _ =>
    Svc.within_bind (within_read fun _ => rfl) fun _ => Svc.within_pure _

end ItemService

namespace ReceiptService

variable {setup : Setup}

theorem within_prepareImages (normalizes : ∀ bytes, mayCall (.normalize bytes) = true)
    (images : List String) : Svc.Within (marks labels mayCall) (prepareImages setup images) :=
  Svc.within_mapM _ fun _ => Svc.within_bind (Svc.within_call (normalizes _)) fun _ =>
    Svc.within_pure _

theorem within_lockUserImages (userId : ℕ) :
    Svc.Within (marks labels mayCall) (lockUserImages userId) := within_read fun _ => rfl

theorem within_conflictUnlessForced (userId : ℕ) (prepared : List PreparedImage) (force : Bool) :
    Svc.Within (marks labels mayCall) (conflictUnlessForced userId prepared force) := by
  refine within_if (Svc.within_pure _) ?_
  induction prepared with
  | nil => exact Svc.within_pure _
  | cons prep rest ih =>
      refine Svc.within_bind (within_read fun _ => rfl) fun dup => ?_
      cases dup with
      | nil => exact ih
      | cons conflict more => exact Svc.within_pure _

theorem within_storeImages (userId receiptId : ℕ) (prepared : List PreparedImage)
    (stores : Label.storeImage ∈ labels) (draws : mayCall .generateToken = true)
    (puts : ∀ key contentType bytes, mayCall (.putImage key contentType bytes) = true) :
    Svc.Within (marks labels mayCall) (storeImages userId receiptId prepared) :=
  Svc.within_forM _ fun _ => Svc.within_bind (Svc.within_call draws) fun _ =>
    Svc.within_bind (Svc.within_call (puts _ _ _)) fun _ =>
      Svc.within_bind (within_insert ⟨stores, by decide⟩) fun _ => Svc.within_pure _

theorem within_uploadReceipt (userId : ℕ) (images : List String) (force : Bool) :
    Svc.Within (marks [.uploadReceipt, .storeImage] (Job.uploadReceipt userId images force).asks)
      (uploadReceipt setup userId images force) := by
  refine Svc.within_bind (within_ofExcept _) fun _ =>
    Svc.within_bind (within_prepareImages (fun _ => rfl) _) fun prepared =>
      Svc.within_transaction (Svc.within_rollingBack (Svc.within_bind (within_lockUserImages _)
        fun _ => Svc.within_bind (within_conflictUnlessForced _ _ _) fun conflict => ?_))
  cases conflict with
  | some conflict => exact Svc.within_bind Svc.within_rollback fun _ => Svc.within_pure _
  | none =>
      exact Svc.within_bind (within_insert (by decide)) fun _ =>
        Svc.within_bind (within_storeImages _ _ _ (by decide) rfl fun _ _ _ => rfl) fun _ =>
          Svc.within_pure _

theorem within_addImages (userId receiptId : ℕ) (images : List String) (force : Bool) :
    Svc.Within
      (marks [.storeImage, .addImages] (Job.addImages userId receiptId images force).asks)
      (addImages setup userId receiptId images force) := by
  refine Svc.within_bind within_select fun _ => Svc.within_bind (within_firstRow _ _) fun _ =>
    Svc.within_bind (within_prepareImages (fun _ => rfl) _) fun prepared =>
      Svc.within_transaction (Svc.within_rollingBack (Svc.within_bind (within_lockUserImages _)
        fun _ => Svc.within_bind (within_read fun _ => rfl) fun _ =>
          Svc.within_bind (within_ofExcept _) fun _ =>
            Svc.within_bind (within_conflictUnlessForced _ _ _) fun conflict => ?_))
  cases conflict with
  | some conflict => exact Svc.within_bind Svc.within_rollback fun _ => Svc.within_pure _
  | none =>
      exact Svc.within_bind (within_storeImages _ _ _ (by decide) rfl fun _ _ _ => rfl) fun _ =>
        Svc.within_bind (within_update (by decide)) fun _ => Svc.within_pure _

theorem within_validateReferences (userId : ℕ) (receiptId : Option ℕ) (r : EditableReceipt) :
    Svc.Within (marks labels mayCall) (validateReferences userId receiptId r) :=
  Svc.within_bind
    (Svc.within_forM_option _ fun _ => Svc.within_bind within_select fun _ =>
      Svc.within_bind (within_firstRow _ _) fun _ => Svc.within_pure _)
    fun _ => Svc.within_forM_option _ fun _ => Svc.within_bind (within_ofExcept _) fun _ =>
      Svc.within_bind within_select fun _ => Svc.within_bind (within_firstRow _ _) fun _ =>
        within_ofExcept _

theorem within_createManual (userId : ℕ) (body : Json) :
    Svc.Within (marks [.createManual, .insertItem, .clearTags, .insertTag] mayCall)
      (createManual setup userId body) :=
  Svc.within_bind (within_ofExcept _) fun _ =>
    Svc.within_transaction (Svc.within_rollingBack
      (Svc.within_bind (within_validateReferences _ _ _) fun _ =>
        Svc.within_bind (within_ofExcept _) fun _ =>
          Svc.within_bind (within_insert (by decide)) fun _ =>
            Svc.within_bind (Svc.within_forM _ fun _ => Svc.within_bind
              (ItemService.within_insert _ _ _ _ (by decide) (by decide) (by decide)) fun _ =>
                Svc.within_pure _) fun _ => Svc.within_pure _))

theorem within_updateReceipt (userId receiptId : ℕ) (body : Json) :
    Svc.Within (marks [.updateReceipt] mayCall) (updateReceipt setup userId receiptId body) :=
  Svc.within_transaction (Svc.within_rollingBack
    (Svc.within_bind within_select fun _ => Svc.within_bind (within_firstRow _ _) fun _ =>
      Svc.within_bind (within_ofExcept _) fun _ =>
        Svc.within_bind (within_validateReferences _ _ _) fun _ =>
          Svc.within_bind (within_if (Svc.within_bind (within_read fun _ => rfl) fun _ =>
            within_ofExcept _) (Svc.within_pure _)) fun _ =>
            Svc.within_bind (within_ofExcept _) fun _ =>
              Svc.within_bind (within_update (by decide)) fun _ =>
                Svc.within_bind within_select fun _ => within_firstRow _ _))

theorem within_getReceipt (userId receiptId : ℕ) :
    Svc.Within (marks labels mayCall) (getReceipt userId receiptId) :=
  Svc.within_bind within_select fun _ => Svc.within_pure _

theorem within_retryScan (userId receiptId : ℕ) :
    Svc.Within (marks [.retryScan] mayCall) (retryScan userId receiptId) :=
  Svc.within_bind (within_update (by decide)) fun _ =>
    Svc.within_bind (within_getReceipt _ _) fun _ =>
      Svc.within_bind (within_firstRow _ _) fun _ => Svc.within_bind (within_firstRow _ _) fun _ =>
        Svc.within_pure _

theorem within_listReceipts (userId : ℕ) (limit offset : ℤ) :
    Svc.Within (marks labels mayCall) (listReceipts userId limit offset) :=
  within_if (Svc.within_throw _) (within_read fun _ => rfl)

theorem within_listImages (userId receiptId : ℕ) :
    Svc.Within (marks labels mayCall) (listImages userId receiptId) :=
  Svc.within_bind within_select fun _ => Svc.within_bind (within_firstRow _ _) fun _ =>
    within_read fun _ => rfl

theorem within_deleteReceipt (userId receiptId : ℕ) :
    Svc.Within (marks [.deleteReceipt] (Job.deleteReceipt userId receiptId).asks)
      (deleteReceipt setup userId receiptId) := by
  refine Svc.within_bind (within_read fun _ => rfl) fun images =>
    Svc.within_bind (within_delete (by decide)) fun result => ?_
  cases result with
  | nil => exact Svc.within_pure _
  | cons removed more =>
      exact Svc.within_bind (Svc.within_forM _ fun _ => Svc.within_tryCatch (Svc.within_call rfl)
        fun _ => within_if (Svc.within_throw _) (Svc.within_pure _)) fun _ => Svc.within_pure _

theorem within_findImage (imageId : ℕ) :
    Svc.Within (marks labels mayCall) (findImage imageId) :=
  Svc.within_bind (within_read fun _ => rfl) fun _ => Svc.within_pure _

end ReceiptService

namespace CategoryService

variable {setup : Setup}

theorem within_create (userId : ℕ) (body : Json) :
    Svc.Within (marks [.createCategory] mayCall) (create userId body) :=
  Svc.within_bind (within_ofExcept _) fun _ =>
    Svc.within_bind (within_conflictIfDuplicate (within_insert (by decide))) fun _ =>
      Svc.within_pure _

theorem within_checkFlip (category : Category) (isIncome : Option Bool) :
    Svc.Within (marks labels mayCall) (checkFlip category isIncome) := by
  cases isIncome with
  | none => exact Svc.within_pure _
  | some isIncome =>
      exact within_if (Svc.within_bind (within_read fun _ => rfl) fun _ => within_ofExcept _)
        (Svc.within_pure _)

theorem within_update (userId id : ℕ) (body : Json) :
    Svc.Within (marks [.updateCategory] mayCall) (update userId id body) :=
  Svc.within_bind (within_ofExcept _) fun _ =>
    Svc.within_transaction (within_conflictIfDuplicate (Svc.within_rollingBack
      (Svc.within_bind within_select fun _ => Svc.within_bind (within_firstRow _ _) fun _ =>
        Svc.within_bind (within_checkFlip _ _) fun _ =>
          Svc.within_bind (ReceiptScanner.within_update (by decide)) fun _ => Svc.within_pure _)))

end CategoryService

namespace TagService

theorem within_create (userId : ℕ) (body : Json) :
    Svc.Within (marks [.createTag] mayCall) (create userId body) :=
  Svc.within_bind (within_ofExcept _) fun _ =>
    Svc.within_bind (within_conflictIfDuplicate (within_insert (by decide))) fun _ =>
      Svc.within_pure _

theorem within_update (userId id : ℕ) (body : Json) :
    Svc.Within (marks [.updateTag] mayCall) (update userId id body) :=
  Svc.within_bind (within_ofExcept _) fun _ => Svc.within_bind
    (within_conflictIfDuplicate (ReceiptScanner.within_update (by decide))) fun _ =>
      within_firstRow _ _

end TagService

namespace PaymentMethodService

theorem within_create (userId : ℕ) (body : Json) :
    Svc.Within (marks [.createPaymentMethod] mayCall) (create userId body) :=
  Svc.within_bind (within_ofExcept _) fun _ =>
    Svc.within_bind (within_conflictIfDuplicate (within_insert (by decide))) fun _ =>
      Svc.within_pure _

theorem within_update (userId id : ℕ) (body : Json) :
    Svc.Within (marks [.updatePaymentMethod] mayCall) (update userId id body) :=
  Svc.within_bind (within_ofExcept _) fun _ => Svc.within_bind
    (within_conflictIfDuplicate (ReceiptScanner.within_update (by decide))) fun _ =>
      within_firstRow _ _

end PaymentMethodService

namespace AuthService

variable {setup : Setup}

theorem within_registerUser (email password : String)
    (hashes : mayCall (.hashPassword password) = true) :
    Svc.Within (marks [.registerUser, .seedCategory, .seedPaymentMethod] mayCall)
      (registerUser email password) :=
  Svc.within_bind (Svc.within_call hashes) fun _ =>
    Svc.within_transaction (Svc.within_tryCatch (Svc.within_rollingBack
      (Svc.within_bind (within_insert (by decide)) fun _ =>
        Svc.within_bind (Svc.within_forM _ fun _ =>
          Svc.within_bind (within_insert (by decide)) fun _ => Svc.within_pure _) fun _ =>
        Svc.within_bind (Svc.within_forM _ fun _ =>
          Svc.within_bind (within_insert (by decide)) fun _ => Svc.within_pure _) fun _ =>
        Svc.within_bind (within_insert (by decide)) fun _ => Svc.within_pure _))
      fun _ => within_if (Svc.within_throw _) (Svc.within_throw _))

theorem within_login (email password : String) :
    Svc.Within (marks [.login] (Job.login email password).asks)
      (login setup email password) := by
  refine Svc.within_bind within_select fun result => ?_
  cases result with
  | nil => exact Svc.within_pure _
  | cons found more =>
      refine Svc.within_bind (Svc.within_call rfl) fun verified => ?_
      cases verified with
      | false => exact Svc.within_pure _
      | true =>
          exact Svc.within_bind (Svc.within_call rfl) fun _ =>
            Svc.within_bind (within_insert (by decide)) fun _ => Svc.within_pure _

theorem within_validateSession (rawToken : String) :
    Svc.Within (marks [.touchSession] mayCall) (validateSession setup rawToken) := by
  refine Svc.within_bind (within_read fun _ => rfl) fun result => ?_
  cases result with
  | nil => exact Svc.within_pure _
  | cons userId more =>
      refine Svc.within_bind (Svc.within_exec fun ctx write made => ?_) fun _ => Svc.within_pure _
      obtain ⟨_, -, rfl⟩ := List.mem_map.mp made
      exact ⟨List.mem_singleton_self _, List.mem_singleton_self _⟩

theorem within_logout (rawToken : String) :
    Svc.Within (marks [.logout] mayCall) (logout setup rawToken) :=
  Svc.within_bind (within_delete (by decide)) fun _ => Svc.within_pure _

theorem within_requestPasswordReset (email : String) (draws : mayCall .generateToken = true) :
    Svc.Within (marks [.requestPasswordReset] mayCall) (requestPasswordReset setup email) := by
  refine Svc.within_bind within_select fun result => ?_
  cases result with
  | nil => exact Svc.within_call draws
  | cons found more =>
      exact Svc.within_bind (Svc.within_call draws) fun _ =>
        Svc.within_bind (within_insert (by decide)) fun _ => Svc.within_pure _

theorem within_confirmPasswordReset (rawToken newPassword : String)
    (hashes : mayCall (.hashPassword newPassword) = true) :
    Svc.Within (marks [.resetPassword, .dropSessions, .dropToken] mayCall)
      (confirmPasswordReset setup rawToken newPassword) := by
  refine Svc.within_bind (within_read fun _ => rfl) fun result => ?_
  cases result with
  | nil => exact Svc.within_pure _
  | cons userId more =>
      exact Svc.within_bind (Svc.within_call hashes) fun _ => Svc.within_transaction
        (Svc.within_bind (within_update (by decide)) fun _ =>
          Svc.within_bind (within_delete (by decide)) fun _ =>
            Svc.within_bind (within_delete (by decide)) fun _ => Svc.within_pure _)

theorem within_requestEmailVerification (userId : ℕ) (draws : mayCall .generateToken = true) :
    Svc.Within (marks [.requestEmailVerification] mayCall)
      (requestEmailVerification setup userId) :=
  Svc.within_bind (Svc.within_call draws) fun _ =>
    Svc.within_bind (within_insert (by decide)) fun _ => Svc.within_pure _

theorem within_confirmEmailVerification (rawToken : String) :
    Svc.Within (marks [.verifyEmail, .dropToken] mayCall)
      (confirmEmailVerification setup rawToken) := by
  refine Svc.within_bind (within_read fun _ => rfl) fun result => ?_
  cases result with
  | nil => exact Svc.within_pure _
  | cons userId more =>
      exact Svc.within_bind (within_update (by decide)) fun _ =>
        Svc.within_bind (within_delete (by decide)) fun _ => Svc.within_pure _

end AuthService

namespace ScanWorker

variable {setup : Setup}

/-- The labels of a scan. -/
def scanLabels : List Label :=
  [.writeExtraction, .clearItems, .writeVerify, .insertItem, .clearTags, .insertTag, .recordFailure]

theorem within_readSnapshot (client : Client) (claim : Claim) (forUpdate : Bool) :
    Svc.Within (marks labels mayCall) (readSnapshot client claim forUpdate) :=
  Svc.within_bind within_select fun _ => Svc.within_pure _

theorem within_loadTaxonomy (client : Client) (userId : ℕ) :
    Svc.Within (marks labels mayCall) (loadTaxonomy client userId) :=
  Svc.within_bind within_select fun _ => Svc.within_bind within_select fun _ => Svc.within_pure _

theorem within_compareResult (before : Snapshot) (result : ScanResult) :
    Svc.Within (marks labels mayCall) (compareResult setup before result) := by
  have similar : ∀ left right,
      Svc.Within (marks labels mayCall) (similarity setup left right) := fun _ _ =>
    within_read fun _ => rfl
  have compared : ∀ merchant,
      Svc.Within (marks labels mayCall) (merchantMatches setup merchant result) := by
    intro merchant
    unfold merchantMatches
    cases result.merchant <;> cases result.storeNameRaw <;> dsimp only <;>
      repeat' first
        | exact Svc.within_pure _
        | exact similar _ _
        | apply within_if
        | refine Svc.within_bind ?_ fun _ => ?_
  refine within_if (Svc.within_bind (within_ofExcept _) fun _ =>
    Svc.within_bind ?_ fun _ => Svc.within_pure _) (Svc.within_pure _)
  cases before.merchant with
  | none => exact Svc.within_pure _
  | some merchant => exact within_if (compared merchant) (Svc.within_pure _)

theorem within_insertScannedItems (claim : Claim) (kind : Kind) (items : List ScannedItem)
    (taxonomy : Taxonomy) :
    Svc.Within (marks scanLabels mayCall) (insertScannedItems setup claim kind items taxonomy) :=
  Svc.within_forM _ fun _ => Svc.within_bind
    (ItemService.within_insert _ _ _ _ (by decide) (by decide) (by decide)) fun _ =>
      Svc.within_pure _

theorem within_writeLocked (claim : Claim) (result : ScanResult) (taxonomy : Taxonomy)
    (before : Snapshot) (allMatch : Bool) (locked : Option Snapshot) :
    Svc.Within (marks scanLabels mayCall)
      (writeLocked setup claim result taxonomy before allMatch locked) := by
  cases locked with
  | none => exact Svc.within_bind Svc.within_rollback fun _ => Svc.within_pure _
  | some locked =>
      refine within_if (within_if (Svc.within_bind ?_ fun _ => Svc.within_pure _)
          (Svc.within_bind ?_ fun _ => Svc.within_pure _))
        (Svc.within_bind Svc.within_rollback fun _ => Svc.within_pure _)
      · exact Svc.within_bind (within_ofExcept _) fun _ =>
          Svc.within_bind (within_update (by decide)) fun _ =>
            within_if (within_insertScannedItems _ _ _ _) (Svc.within_pure _)
      · exact Svc.within_bind (within_ofExcept _) fun _ =>
          Svc.within_bind (within_ofExcept _) fun _ =>
            Svc.within_bind (within_update (by decide)) fun _ =>
              Svc.within_bind (within_delete (by decide)) fun _ =>
                within_insertScannedItems _ _ _ _

theorem within_attempts (claim : Claim) (result : ScanResult) (taxonomy : Taxonomy) (left : ℕ) :
    Svc.Within (marks scanLabels mayCall) (attempts setup claim result taxonomy left) := by
  induction left with
  | zero => exact Svc.within_throw _
  | succ left ih =>
      refine Svc.within_bind (within_readSnapshot _ _ _) fun before => ?_
      cases before with
      | none => exact Svc.within_pure _
      | some before =>
          exact Svc.within_bind (within_compareResult _ _) fun _ =>
            Svc.within_bind (Svc.within_transaction (Svc.within_rollingBack
              (Svc.within_bind (within_readSnapshot _ _ _) fun _ =>
                within_writeLocked _ _ _ _ _ _))) fun _ => within_if ih (Svc.within_pure _)

theorem within_applyResult (claim : Claim) (result : ScanResult) :
    Svc.Within (marks scanLabels mayCall) (applyResult setup claim result) :=
  Svc.within_bind (within_loadTaxonomy _ _) fun _ => within_attempts _ _ _ _

theorem within_notifyScanFailed (userId receiptId : ℕ) (reason : String)
    (notifies : ∀ userId event receiptId reason,
      mayCall (.notify userId event receiptId reason) = true) :
    Svc.Within (marks labels mayCall) (notifyScanFailed userId receiptId reason) :=
  Svc.within_tryCatch (Svc.within_call (notifies _ _ _ _)) fun _ =>
    within_if (Svc.within_throw _) (Svc.within_pure _)

theorem within_settle (claim : Claim) (outcome : Except Err Bool)
    (notifies : ∀ userId event receiptId reason,
      mayCall (.notify userId event receiptId reason) = true) :
    Svc.Within (marks scanLabels mayCall) (settle setup claim outcome) := by
  have recorded : ∀ scanError terminal error, Svc.Within (marks scanLabels mayCall)
      (recordFailure setup claim scanError terminal error) := by
    intro scanError terminal error
    refine Svc.within_bind (within_update (by decide)) fun rows => ?_
    rcases rows with _ | ⟨state, more⟩
    · exact Svc.within_pure _
    · cases state with
      | scanFailed => exact within_notifyScanFailed _ _ _ notifies
      | _ => exact Svc.within_pure _
  rcases outcome with raised | keyless
  · cases raised with
    | scanError message => exact recorded true false message
    | _ => exact recorded _ _ _
  · cases keyless with
    | true => exact recorded _ _ _
    | false => exact Svc.within_pure _

theorem within_process (claim : Claim) :
    (process setup claim).Within (marks scanLabels (Job.process claim).asks) := by
  refine Prog.within_bind (?_ : Svc.Within _ (scan setup claim)) fun outcome =>
    Prog.within_bind (within_settle claim outcome fun _ _ _ _ => rfl) fun _ => trivial
  refine Svc.within_bind (within_readSnapshot _ _ _) fun snapshot => ?_
  cases snapshot with
  | none => exact Svc.within_pure _
  | some snapshot =>
      exact Svc.within_bind (within_read fun _ => rfl) fun _ => within_if (Svc.within_pure _)
        (Svc.within_bind (Svc.within_mapM _ fun _ =>
          Svc.within_bind (Svc.within_call rfl) fun _ => Svc.within_pure _) fun _ =>
          Svc.within_bind (within_loadTaxonomy _ _) fun _ =>
            Svc.within_bind (Svc.within_call rfl) fun _ =>
              Svc.within_bind (within_ofExcept _) fun _ =>
                Svc.within_bind (within_applyResult _ _) fun _ => Svc.within_pure _)

theorem within_tick : (tick setup).Within (marks [.reclaimStuck, .claim] Job.tick.asks) := by
  have polled : Svc.Within (marks [.reclaimStuck, .claim] Job.tick.asks)
      (reclaimStuck setup >>= fun _ => claim setup) := by
    refine Svc.within_bind (Svc.within_bind (Svc.within_exec fun ctx write made => ?_) fun _ =>
      Svc.within_forM _ fun _ => within_if (within_notifyScanFailed _ _ _ fun _ _ _ _ => rfl)
        (Svc.within_pure _)) fun _ => Svc.within_exec fun ctx write made => ?_
    · obtain ⟨_, -, rfl⟩ := List.mem_map.mp made
      exact ⟨List.mem_cons_self, List.mem_singleton_self _⟩
    · obtain ⟨_, -, rfl⟩ := List.mem_map.mp made
      exact ⟨List.mem_cons_of_mem _ List.mem_cons_self, List.mem_singleton_self _⟩
  exact Prog.within_bind polled fun result => match result with
    | .ok _ => trivial
    | .error _ => trivial

end ScanWorker

/-- Every job does no more than its footprint, and asks for no more than it may. -/
theorem within_asks (setup : Setup) (job : Job) :
    (Job.prog setup job).Within (marks job.labels job.asks) := by
  cases job with
  | registerUser email password => exact within_serve (AuthService.within_registerUser _ _ rfl)
  | login email password => exact within_serve (AuthService.within_login _ _)
  | validateSession rawToken => exact within_serve (AuthService.within_validateSession _)
  | logout rawToken => exact within_serve (AuthService.within_logout _)
  | requestPasswordReset email =>
      exact within_serve (AuthService.within_requestPasswordReset _ rfl)
  | confirmPasswordReset rawToken newPassword =>
      exact within_serve (AuthService.within_confirmPasswordReset _ _ rfl)
  | requestEmailVerification userId =>
      exact within_serve (AuthService.within_requestEmailVerification _ rfl)
  | confirmEmailVerification rawToken =>
      exact within_serve (AuthService.within_confirmEmailVerification _)
  | listCategories userId => exact within_serve (within_read fun _ => rfl)
  | createCategory userId body => exact within_serve (CategoryService.within_create _ _)
  | updateCategory userId id body => exact within_serve (CategoryService.within_update _ _ _)
  | removeCategory userId id =>
      exact within_serve (within_removeOwned (within_delete ⟨List.mem_cons_self, by decide⟩))
  | listTags userId => exact within_serve (within_read fun _ => rfl)
  | createTag userId body => exact within_serve (TagService.within_create _ _)
  | updateTag userId id body => exact within_serve (TagService.within_update _ _ _)
  | removeTag userId id =>
      exact within_serve (within_removeOwned (within_delete ⟨List.mem_cons_self, by decide⟩))
  | listPaymentMethods userId => exact within_serve (within_read fun _ => rfl)
  | createPaymentMethod userId body =>
      exact within_serve (PaymentMethodService.within_create _ _)
  | updatePaymentMethod userId id body =>
      exact within_serve (PaymentMethodService.within_update _ _ _)
  | removePaymentMethod userId id =>
      exact within_serve (within_removeOwned (within_delete ⟨List.mem_cons_self, by decide⟩))
  | uploadReceipt userId images force =>
      exact within_serve (ReceiptService.within_uploadReceipt _ _ _)
  | addImages userId receiptId images force =>
      exact within_serve (ReceiptService.within_addImages _ _ _ _)
  | createManual userId body => exact within_serve (ReceiptService.within_createManual _ _)
  | updateReceipt userId receiptId body =>
      exact within_serve (ReceiptService.within_updateReceipt _ _ _)
  | retryScan userId receiptId => exact within_serve (ReceiptService.within_retryScan _ _)
  | getReceipt userId receiptId => exact within_serve (ReceiptService.within_getReceipt _ _)
  | listReceipts userId limit offset =>
      exact within_serve (ReceiptService.within_listReceipts _ _ _)
  | listImages userId receiptId => exact within_serve (ReceiptService.within_listImages _ _)
  | deleteReceipt userId receiptId =>
      exact within_serve (ReceiptService.within_deleteReceipt _ _)
  | findImage imageId => exact within_serve (ReceiptService.within_findImage _)
  | listItems userId receiptId => exact within_serve (ItemService.within_list _ _)
  | createItem userId receiptId body => exact within_serve (ItemService.within_create _ _ _)
  | updateItem userId receiptId itemId body =>
      exact within_serve (ItemService.within_update _ _ _ _)
  | removeItem userId receiptId itemId => exact within_serve (ItemService.within_remove _ _ _)
  | tick => exact Prog.within_bind ScanWorker.within_tick fun _ => trivial
  | process claim => exact Prog.within_bind (ScanWorker.within_process claim) fun _ => trivial
  | applyResult claim result => exact within_serve (ScanWorker.within_applyResult _ _)

/-- Every job does no more than its footprint. -/
theorem within_prog (setup : Setup) (job : Job) :
    (Job.prog setup job).Within (marks job.labels job.mayCall) :=
  (within_asks setup job).mono (fun _ => id) fun _ => Job.mayCall_of_asks

/-- Every commit carries only labels of the job of its process. -/
theorem labels_of_reachable {setup : Setup} {config : Config store outside Job}
    (reachable : Config.Reachable (application setup) config) {c : Commit store outside}
    (member : c ∈ config.world.history) :
    ∃ job, config.jobs c.tid = some job ∧ ∀ write ∈ c.writes, write.label ∈ job.labels := by
  obtain ⟨job, isJob, writes, -⟩ := Config.printed_of_reachable
    (fun job : Job => marks job.labels job.mayCall) (within_prog setup) reachable member
  exact ⟨job, isJob, fun write made => (writes write made).1⟩

end ReceiptScanner

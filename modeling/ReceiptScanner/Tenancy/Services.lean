import ReceiptScanner.Tenancy.Estate
import ReceiptScanner.Services.ReceiptController
import ReceiptScanner.Services.ReferenceDataService

/-!
# The services keep to the estate

Every task of the services that is given a user of the estate runs alike in two states that
differ outside the estate only. Rows looked up by bare id are of the estate because an
earlier statement of the task has found them, or what they belong to, under the user.
-/

namespace ReceiptScanner

open ReadCommitted

/-- The two states between the statements of a client. -/
def Client.between (client : Client) (setup : Setup) (region : Region store)
    (base base' : Db store) : Pairing store outside :=
  match client with
  | .db => ReadCommitted.Idle (estate setup region) base base'
  | .transaction => Open (estate setup region) base base'

/-- The two states in which an exception may leave a client. -/
def Client.raising (client : Client) (setup : Setup) (region : Region store)
    (base base' : Db store) : Pairing store outside :=
  match client with
  | .db => ReadCommitted.Idle (estate setup region) base base'
  | .transaction => Settling (estate setup region) base base'

/-- A task on a client runs alike in two states that differ outside the estate only. -/
def Keeping (setup : Setup) (region : Region store) (base base' : Db store)
    (script : Script outside) {α : Type} (client : Client) (task : Task α) (ensures : α → Prop) :
    Prop :=
  Svc.Twin (estate setup region).schema script (client.between setup region base base') task ensures
    (client.between setup region base base') (client.raising setup region base base')

variable {setup : Setup} {region : Region store} {base base' : Db store}
  {script : Script outside} {client : Client} {α β : Type} {userId : ℕ}

section Rules

theorem Client.raising_of_between {left right : Solo store outside}
    (between : client.between setup region base base' left right) :
    client.raising setup region base base' left right := by
  cases client with
  | db => exact between
  | transaction => exact Or.inl between

theorem keeping_mono {task : Task α} {ensures ensures' : α → Prop}
    (keeping : Keeping setup region base base' script client task ensures)
    (tells : ∀ value, ensures value → ensures' value) :
    Keeping setup region base base' script client task ensures' :=
  Svc.twin_mono keeping tells (fun _ _ => id) fun _ _ => id

theorem keeping_pure {value : α} {ensures : α → Prop} (holds : ensures value) :
    Keeping setup region base base' script client (pure value) ensures :=
  Svc.twin_pure holds

theorem keeping_throw {exception : Err} {ensures : α → Prop} :
    Keeping setup region base base' script client (throw exception : Task α) ensures :=
  Svc.twin_mono Svc.twin_throw (fun _ => id) (fun _ _ => id) fun _ _ => Client.raising_of_between

theorem keeping_bind {first : Task β} {rest : β → Task α} {known : β → Prop} {ensures : α → Prop}
    (before : Keeping setup region base base' script client first known)
    (after : ∀ value, known value →
      Keeping setup region base base' script client (rest value) ensures) :
    Keeping setup region base base' script client (first >>= rest) ensures :=
  Svc.twin_bind before after

theorem keeping_execSql {stmt : Stmt store α} {ensures : α → Prop}
    (confined : stmt.Confined (estate setup region) ensures) :
    Keeping setup region base base' script client (execSql client stmt) ensures := by
  cases client with
  | db => exact Svc.twin_exec confined
  | transaction => exact Svc.twin_execOpen confined

theorem keeping_call {c : Call} {read : c.Reply → Except Err α} :
    Keeping setup region base base' script client (Svc.call c read) fun _ => True := by
  cases client with
  | db => exact Svc.twin_call
  | transaction => exact Svc.twin_callOpen

theorem keeping_ofExcept (result : Except Err α) :
    Keeping setup region base base' script client (ofExcept result) (result = .ok ·) := by
  cases result with
  | ok value => exact keeping_pure rfl
  | error exception => exact keeping_throw

theorem keeping_firstRow {missing : Err} {rows : List α} :
    Keeping setup region base base' script client (firstRow missing rows) (· ∈ rows) := by
  cases rows with
  | nil => exact keeping_throw
  | cons row rest => exact keeping_pure List.mem_cons_self

theorem keeping_if {test : Prop} [Decidable test] {left right : Task α} {ensures : α → Prop}
    (isTrue : Keeping setup region base base' script client left ensures)
    (isFalse : Keeping setup region base base' script client right ensures) :
    Keeping setup region base base' script client (if test then left else right) ensures := by
  split
  · exact isTrue
  · exact isFalse

theorem keeping_forM {round : β → Task PUnit} {items : List β}
    (rounds : ∀ item ∈ items,
      Keeping setup region base base' script client (round item) fun _ => True) :
    Keeping setup region base base' script client (items.forM round) fun _ => True := by
  induction items with
  | nil => exact keeping_pure trivial
  | cons item rest ih =>
      refine keeping_bind (rounds item List.mem_cons_self) fun _ _ => ?_
      exact ih fun other member => rounds other (List.mem_cons_of_mem _ member)

theorem keeping_forM_option {round : β → Task PUnit} {item : Option β} {known : β → Prop}
    (rounds : ∀ value, item = some value →
      Keeping setup region base base' script client (round value) fun _ => known value) :
    Keeping setup region base base' script client (item.forM round)
      fun _ => ∀ value, item = some value → known value :=
  Svc.twin_forM_option rounds

theorem keeping_mapM {round : β → Task α} {items : List β}
    (rounds : ∀ item, Keeping setup region base base' script client (round item) fun _ => True) :
    Keeping setup region base base' script client (items.mapM round) fun _ => True :=
  Svc.twin_mapM rounds

/-- The body of a transaction, which it may leave open, aborted or rolled back. -/
def Closing (setup : Setup) (region : Region store) (base base' : Db store)
    (script : Script outside) {α : Type} (body : Task α) (ensures : α → Prop) : Prop :=
  Svc.Twin (estate setup region).schema script (Open (estate setup region) base base') body ensures
    (Settling (estate setup region) base base') (Settling (estate setup region) base base')

theorem closing_of_keeping {body : Task α} {ensures : α → Prop}
    (keeping : Keeping setup region base base' script .transaction body ensures) :
    Closing setup region base base' script body ensures :=
  Svc.twin_mono keeping (fun _ => id) (fun _ _ => Or.inl) fun _ _ => id

theorem closing_bind {first : Task β} {rest : β → Task α} {known : β → Prop} {ensures : α → Prop}
    (before : Keeping setup region base base' script .transaction first known)
    (after : ∀ value, known value → Closing setup region base base' script (rest value) ensures) :
    Closing setup region base base' script (first >>= rest) ensures :=
  Svc.twin_bind before after

theorem closing_rollback {value : α} {ensures : α → Prop} (holds : ensures value) :
    Closing setup region base base' script (rollback >>= fun _ => pure value) ensures := by
  have dropped : Svc.Twin (estate setup region).schema script
      (Open (estate setup region) base base') (rollback : Task Unit) (fun _ => True)
      (ReadCommitted.Idle (estate setup region) base base')
      (Settling (estate setup region) base base') :=
    fun left right opened => Svc.twin_rollback left right (Or.inl opened)
  exact Svc.twin_bind dropped fun _ _ => Svc.twin_mono (Svc.twin_pure holds) (fun _ => id)
    (fun _ _ idle => Or.inr (Or.inr idle)) fun _ _ => id

theorem closing_rollingBack {body : Task α} {ensures : α → Prop}
    (closing : Closing setup region base base' script body ensures) :
    Closing setup region base base' script (rollingBack body) ensures :=
  Svc.twin_mono (Svc.twin_rollingBack closing) (fun _ => id) (fun _ _ => id)
    fun _ _ idle => Or.inr (Or.inr idle)

/-- The whole of a transaction, from the plain client. -/
theorem keeping_withTransaction {body : Task α} {ensures : α → Prop}
    (closing : Closing setup region base base' script body ensures) :
    Keeping setup region base base' script .db (withTransaction body) ensures :=
  Svc.twin_transaction closing

theorem keeping_conflictIfDuplicate {noun : String} {body : Task α} {ensures : α → Prop}
    (keeping : Keeping setup region base base' script .db body ensures) :
    Keeping setup region base base' script .db (conflictIfDuplicate noun body) ensures := by
  refine Svc.twin_tryCatch keeping fun exception => ?_
  split
  · exact Svc.twin_throw
  · exact Svc.twin_throw

theorem closing_conflictIfDuplicate {noun : String} {body : Task α} {ensures : α → Prop}
    (closing : Closing setup region base base' script body ensures) :
    Closing setup region base base' script (conflictIfDuplicate noun body) ensures := by
  refine Svc.twin_tryCatch closing fun exception => ?_
  split
  · exact Svc.twin_throw
  · exact Svc.twin_throw

end Rules

section Knowledge

variable {table : Table} {key : ℕ} {test : table.Row → Bool} {project : ℕ → table.Row → β}
  {found : List β}

/-- A statement about one id that has found a row has found that id in the region. -/
theorem Found.here (known : Found region table (fun id row => id == key && test row) project
    found) {value : β} (member : value ∈ found) : region table key := by
  obtain ⟨id, row, here, kept, -⟩ := known value member
  obtain rfl := beq_iff_eq.mp (Bool.and_eq_true_iff.mp kept).1
  exact here

end Knowledge

namespace ItemService

variable (holds : HoldsOnly region userId)

include holds in
theorem keeping_ownedReceiptKind (client : Client) (receiptId : ℕ) :
    Keeping setup region base base' script client (ownedReceiptKind client userId receiptId)
      fun _ => region .receipts receiptId := by
  have picks : Picks setup region .receipts fun _ id (row : ReceiptRow) =>
      id == receiptId && row.userId == userId :=
    picks_of_user holds fun _ _ row kept => by
      simp [refs, beq_iff_eq.mp (Bool.and_eq_true_iff.mp kept).2]
  exact keeping_bind (keeping_execSql (confined_select picks)) fun _ known =>
    keeping_mono keeping_firstRow fun _ member => known.here member

/-- The tags of an item of the region. -/
theorem confined_selectTagIds {itemId : ℕ} (here : region .items itemId) :
    (selectTagIds itemId).Confined (estate setup region) fun _ => True := by
  have picks : Picks setup region .itemTags fun _ _ (row : ItemTagRow) => row.itemId == itemId :=
    picks_of_ref (.items, itemId) here fun _ _ row kept => by simp [refs, beq_iff_eq.mp kept]
  refine confined_query (fun left right agree leftWalled rightWalled _ => ?_) fun _ _ _ => trivial
  exact congrArg (fun rows : List (ℕ × ItemTagRow) =>
      (rows.map fun entry => entry.2.tagId).insertionSort (· ≤ ·))
    (filter_alike agree leftWalled rightWalled picks fun _ _ _ _ => rfl)

/-- The tags of the items of a receipt of the region. -/
theorem confined_selectTagsOfItems {receiptId : ℕ} (here : region .receipts receiptId) :
    (selectTagsOfItems receiptId).Confined (estate setup region) fun _ => True := by
  have picks : Picks setup region .itemTags fun db _ (row : ItemTagRow) =>
      ((db .items).get row.itemId).map ItemRow.receiptId == some receiptId := by
    intro db walled id row stored kept
    obtain ⟨item, isItem, isOf⟩ := Option.map_eq_some_iff.mp (beq_iff_eq.mp kept)
    by_contra away
    have itemAway : ¬ region .items row.itemId :=
      walled.outside .itemTags id row stored away (.items, row.itemId) (by simp [schema, refs])
    exact walled.outside .items row.itemId item isItem itemAway (.receipts, item.receiptId)
      (by simp [schema, refs]) (isOf ▸ here)
  refine confined_query (fun left right agree leftWalled rightWalled _ => ?_) fun _ _ _ => trivial
  refine congrArg (fun rows : List (ℕ × ItemTagRow) =>
      (rows.map fun entry => (entry.2.itemId, entry.2.tagId)).insertionSort
        fun left right => left.2 ≤ right.2)
    (filter_alike agree leftWalled rightWalled picks fun id row stored inside => ?_)
  have itemHere : region .items row.itemId :=
    leftWalled.inside .itemTags id row stored inside (.items, row.itemId) (by simp [schema, refs])
  rw [agree .items row.itemId itemHere]

theorem keeping_fetchItem {client : Client} {itemId : ℕ} (here : region .items itemId) :
    Keeping setup region base base' script client (fetchItem client itemId) fun _ => True :=
  keeping_bind (keeping_execSql (confined_select (picks_of_id here))) fun _ _ =>
    keeping_bind keeping_firstRow fun _ _ =>
      keeping_bind (keeping_execSql (confined_selectTagIds here)) fun _ _ => keeping_pure trivial

include holds in
theorem keeping_addTag {itemId tagId : ℕ} (here : region .items itemId) :
    Keeping setup region base base' script .transaction (addTag userId itemId tagId)
      fun _ => True := by
  have picks : Picks setup region .tags fun _ id (row : TagRow) =>
      id == tagId && row.userId == userId :=
    picks_of_user holds fun _ _ row kept => by
      simp [refs, beq_iff_eq.mp (Bool.and_eq_true_iff.mp kept).2]
  refine keeping_bind (keeping_execSql (confined_select picks)) fun _ known =>
    keeping_bind keeping_firstRow fun _ member => keeping_bind
      (keeping_execSql (confined_insert (by decide) fun _ ref refers => ?_)) fun _ _ =>
        keeping_pure trivial
  have tagHere : region .tags tagId := known.here member
  simp only [refs, List.mem_cons, List.not_mem_nil, or_false] at refers
  rcases refers with rfl | rfl
  · exact here
  · exact tagHere

include holds in
theorem keeping_replaceTags {itemId : ℕ} (here : region .items itemId) (tagIds : List ℕ) :
    Keeping setup region base base' script .transaction (replaceTags setup userId itemId tagIds)
      fun _ => True := by
  have picks : Picks setup region .itemTags fun _ _ (row : ItemTagRow) => row.itemId == itemId :=
    picks_of_ref (.items, itemId) here fun _ _ row kept => by simp [refs, beq_iff_eq.mp kept]
  exact keeping_bind (keeping_execSql (confined_delete picks)) fun _ _ =>
    keeping_forM fun _ _ => keeping_addTag holds here

include holds in
theorem keeping_requireCategoryFitsKind (categoryId : ℕ) (kind : Kind) :
    Keeping setup region base base' script .transaction
      (requireCategoryFitsKind userId categoryId kind) fun _ => region .categories categoryId := by
  have picks : Picks setup region .categories fun _ id (row : CategoryRow) =>
      id == categoryId && row.userId == userId :=
    picks_of_user holds fun _ _ row kept => by
      simp [refs, beq_iff_eq.mp (Bool.and_eq_true_iff.mp kept).2]
  exact keeping_bind (keeping_execSql (confined_select picks)) fun _ known =>
    keeping_bind keeping_firstRow fun _ member => keeping_mono (keeping_ofExcept _) fun _ _ =>
      known.here member

/-- The references of an item lead to the region if those of its input do. -/
theorem refs_itemRow {receiptId : ℕ} {item : ItemInput} (here : region .receipts receiptId)
    (category : ∀ id, item.categoryId = some id → region .categories id) :
    ∀ ref ∈ refs .items (itemRow receiptId item), region ref.1 ref.2 := by
  intro ref refers
  simp only [refs, itemRow, List.mem_cons, Option.mem_toList, Option.map_eq_some_iff] at refers
  rcases refers with rfl | ⟨id, named, rfl⟩
  · exact here
  · exact category id named

include holds in
theorem keeping_insert {receiptId : ℕ} (here : region .receipts receiptId) (kind : Kind)
    (item : ItemInput) :
    Keeping setup region base base' script .transaction (insert setup userId receiptId kind item)
      (region .items) :=
  keeping_bind (keeping_forM_option fun categoryId _ =>
      keeping_requireCategoryFitsKind holds categoryId kind) fun _ category =>
    keeping_bind (keeping_execSql (confined_insert (by decide) fun _ =>
      refs_itemRow here category)) fun _ itemHere =>
        keeping_bind (keeping_replaceTags holds itemHere _) fun _ _ => keeping_pure itemHere

include holds in
theorem keeping_list (receiptId : ℕ) :
    Keeping setup region base base' script .db (list userId receiptId) fun _ => True := by
  refine keeping_bind (keeping_ownedReceiptKind holds .db receiptId) fun _ here => ?_
  have picks : Picks setup region .items fun _ _ (row : ItemRow) => row.receiptId == receiptId :=
    picks_of_ref (.receipts, receiptId) here fun _ _ row kept => by
      simp [refs, beq_iff_eq.mp kept]
  exact keeping_bind (keeping_execSql (confined_select picks)) fun _ _ =>
    keeping_bind (keeping_execSql (confined_selectTagsOfItems here)) fun _ _ => keeping_pure trivial

include holds in
theorem keeping_create (receiptId : ℕ) (body : Json) :
    Keeping setup region base base' script .db (create setup userId receiptId body)
      fun _ => True :=
  keeping_bind (keeping_ofExcept _) fun _ _ =>
    keeping_withTransaction (closing_rollingBack (closing_of_keeping
      (keeping_bind (keeping_ownedReceiptKind holds .transaction receiptId) fun _ here =>
        keeping_bind (keeping_insert holds here _ _) fun _ itemHere =>
          keeping_fetchItem itemHere)))

include holds in
/-- After the check of a PATCH, the category of the item is of the region. -/
theorem keeping_checkPatchedCategory {current item : ItemInput} {body : Json} {tagsGiven : Bool}
    (kind : Kind) (before : ∀ id, current.categoryId = some id → region .categories id)
    (applied : applyItemPatch current body = .ok (item, tagsGiven)) :
    Keeping setup region base base' script .transaction
      (checkPatchedCategory userId kind body item)
      fun _ => ∀ id, item.categoryId = some id → region .categories id := by
  unfold checkPatchedCategory
  split
  · exact keeping_forM_option fun categoryId _ => keeping_requireCategoryFitsKind holds categoryId kind
  · rename_i absent
    rw [applyItemPatch_categoryId applied (by simpa using absent)]
    exact keeping_pure before

include holds in
theorem keeping_update (receiptId itemId : ℕ) (body : Json) :
    Keeping setup region base base' script .db (update setup userId receiptId itemId body)
      fun _ => True := by
  refine keeping_withTransaction (closing_rollingBack (closing_of_keeping
    (keeping_bind (keeping_ownedReceiptKind holds .transaction receiptId) fun kind here => ?_)))
  have picks : Picks setup region .items fun _ id (row : ItemRow) =>
      id == itemId && row.receiptId == receiptId :=
    picks_of_ref (.receipts, receiptId) here fun _ _ row kept => by
      simp [refs, beq_iff_eq.mp (Bool.and_eq_true_iff.mp kept).2]
  refine keeping_bind (keeping_execSql (confined_select picks)) fun _ known =>
    keeping_bind keeping_firstRow fun current member =>
      keeping_bind (keeping_ofExcept _) fun patched applied => ?_
  obtain ⟨item, tagsGiven⟩ := patched
  have itemHere : region .items itemId := known.here member
  have before : ∀ id, (itemToInput current).categoryId = some id → region .categories id := by
    intro id named
    obtain ⟨_, row, -, -, inside, rfl⟩ := known current member
    have isNamed : row.categoryId = some id := named
    exact inside (.categories, id) (by simp [refs, isNamed])
  refine keeping_bind (keeping_checkPatchedCategory holds kind before applied) fun _ category =>
    keeping_bind (keeping_execSql (confined_update (by decide) (picks_of_id itemHere)
      fun _ _ row _ inside => refs_itemRow (inside (.receipts, row.receiptId) (by simp [refs]))
        category)) fun _ _ => ?_
  cases tagsGiven with
  | true =>
      exact keeping_bind (keeping_replaceTags holds itemHere _) fun _ _ =>
        keeping_fetchItem itemHere
  | false => exact keeping_fetchItem itemHere

include holds in
theorem keeping_remove (receiptId itemId : ℕ) :
    Keeping setup region base base' script .db (remove setup userId receiptId itemId)
      fun _ => True := by
  refine keeping_bind (keeping_ownedReceiptKind holds .db receiptId) fun _ here => ?_
  have picks : Picks setup region .items fun _ id (row : ItemRow) =>
      id == itemId && row.receiptId == receiptId :=
    picks_of_ref (.receipts, receiptId) here fun _ _ row kept => by
      simp [refs, beq_iff_eq.mp (Bool.and_eq_true_iff.mp kept).2]
  exact keeping_bind (keeping_execSql (confined_delete picks)) fun _ _ =>
    keeping_bind keeping_firstRow fun _ _ => keeping_pure trivial

end ItemService

namespace ReceiptService

variable (holds : HoldsOnly region userId)

theorem keeping_prepareImages (images : List String) :
    Keeping setup region base base' script .db (prepareImages setup images) fun _ => True :=
  keeping_mapM fun _ => keeping_bind keeping_call fun _ _ => keeping_pure trivial

theorem confined_advisoryLock :
    (advisoryLock userId).Confined (estate setup region) fun _ => True :=
  fun _ _ _ => {
    result := rfl
    writes := rfl
    ticks := rfl
    within := fun _ member => by simp [advisoryLock] at member
    ensured := trivial }

include holds in
theorem confined_selectDuplicate (sha256Hex : String) :
    (selectDuplicate userId sha256Hex).Confined (estate setup region) fun _ => True := by
  have picks : Picks setup region .receiptImages fun _ _ (row : ReceiptImageRow) =>
      row.userId == userId && row.imageSha256 == sha256Hex :=
    picks_of_user holds fun _ _ row kept => by
      simp [refs, beq_iff_eq.mp (Bool.and_eq_true_iff.mp kept).1]
  refine confined_query (fun left right agree leftWalled rightWalled _ => ?_) fun _ _ _ => trivial
  exact congrArg (fun rows : List (ℕ × ReceiptImageRow) => (rows.take 1).map fun entry =>
      ({ receiptId := entry.2.receiptId, imageId := entry.1 } : ImageConflict))
    (filter_alike agree leftWalled rightWalled picks fun _ _ _ _ => rfl)

include holds in
theorem keeping_conflictUnlessForced (prepared : List PreparedImage) (force : Bool) :
    Keeping setup region base base' script .transaction
      (conflictUnlessForced userId prepared force) fun _ => True := by
  refine keeping_if (keeping_pure trivial) ?_
  induction prepared with
  | nil => exact keeping_pure trivial
  | cons prep rest ih =>
      refine keeping_bind (keeping_execSql (confined_selectDuplicate holds _)) fun dup _ => ?_
      cases dup with
      | nil => exact ih
      | cons conflict more => exact keeping_pure trivial

include holds in
theorem keeping_storeImages {receiptId : ℕ} (here : region .receipts receiptId)
    (prepared : List PreparedImage) :
    Keeping setup region base base' script .transaction (storeImages userId receiptId prepared)
      fun _ => True := by
  refine keeping_forM fun prep _ => keeping_bind keeping_call fun random _ =>
    keeping_bind keeping_call fun _ _ =>
      keeping_bind (keeping_execSql (confined_insert (by decide) fun _ ref refers => ?_)) fun _ _ =>
        keeping_pure trivial
  simp only [refs, List.mem_cons, List.not_mem_nil, or_false] at refers
  rcases refers with rfl | rfl
  · exact here
  · exact (holds userId).mpr rfl

include holds in
theorem keeping_uploadReceipt (images : List String) (force : Bool) :
    Keeping setup region base base' script .db (uploadReceipt setup userId images force)
      fun _ => True := by
  refine keeping_bind (keeping_ofExcept _) fun _ _ =>
    keeping_bind (keeping_prepareImages images) fun prepared _ =>
      keeping_withTransaction (closing_rollingBack
        (closing_bind (keeping_execSql confined_advisoryLock) fun _ _ =>
          closing_bind (keeping_conflictUnlessForced holds prepared force) fun conflict _ => ?_))
  cases conflict with
  | some conflict => exact closing_rollback trivial
  | none =>
      refine closing_of_keeping (keeping_bind (keeping_execSql (confined_insert (by decide)
        fun _ ref refers => ?_)) fun receiptId here =>
          keeping_bind (keeping_storeImages holds here prepared) fun _ _ => keeping_pure trivial)
      simp only [refs, uploadedRow, Option.map_none, Option.toList_none, List.append_nil,
        List.mem_singleton] at refers
      exact refers ▸ (holds userId).mpr rfl

/-- The condition of a statement about one receipt of the user's. -/
theorem picks_ownedReceipt (holds : HoldsOnly region userId) (receiptId : ℕ) :
    Picks setup region .receipts fun _ id (row : ReceiptRow) =>
      id == receiptId && row.userId == userId :=
  picks_of_user holds fun _ _ row kept => by
    simp [refs, beq_iff_eq.mp (Bool.and_eq_true_iff.mp kept).2]

/-- The condition of a statement about the images of a receipt. -/
theorem picks_images {receiptId : ℕ} (here : region .receipts receiptId) :
    Picks setup region .receiptImages fun _ _ (row : ReceiptImageRow) =>
      row.receiptId == receiptId :=
  picks_of_ref (.receipts, receiptId) here fun _ _ row kept => by simp [refs, beq_iff_eq.mp kept]

theorem confined_countImages {receiptId : ℕ} (here : region .receipts receiptId) :
    (countImages receiptId).Confined (estate setup region) fun _ => True :=
  confined_query (fun _ _ agree leftWalled rightWalled _ =>
      congrArg List.length (filter_alike agree leftWalled rightWalled (picks_images here)
        fun _ _ _ _ => rfl)) fun _ _ _ => trivial

include holds in
theorem keeping_addImages (receiptId : ℕ) (images : List String) (force : Bool) :
    Keeping setup region base base' script .db (addImages setup userId receiptId images force)
      fun _ => True := by
  refine keeping_bind (keeping_execSql (confined_select (picks_ownedReceipt holds receiptId)))
    fun _ known => keeping_bind keeping_firstRow fun _ member => ?_
  have here : region .receipts receiptId := known.here member
  refine keeping_bind (keeping_prepareImages images) fun prepared _ =>
    keeping_withTransaction (closing_rollingBack
      (closing_bind (keeping_execSql confined_advisoryLock) fun _ _ =>
        closing_bind (keeping_execSql (confined_countImages here)) fun _ _ =>
          closing_bind (keeping_ofExcept _) fun _ _ =>
            closing_bind (keeping_conflictUnlessForced holds prepared force) fun conflict _ => ?_))
  cases conflict with
  | some conflict => exact closing_rollback trivial
  | none =>
      exact closing_of_keeping (keeping_bind (keeping_storeImages holds here prepared) fun _ _ =>
        keeping_bind (keeping_execSql (confined_update (by decide) (picks_of_id here)
          fun _ _ _ _ inside => inside)) fun _ _ => keeping_pure trivial)

include holds in
/-- After the ownership checks, what the receipt names is of the region. -/
theorem keeping_validateReferences (receiptId : Option ℕ) (r : EditableReceipt) :
    Keeping setup region base base' script .transaction (validateReferences userId receiptId r)
      fun _ => (∀ id, r.paymentMethodId = some id → region .paymentMethods id) ∧
        ∀ id, r.offsetsReceiptId = some id → region .receipts id := by
  refine keeping_bind (keeping_forM_option fun id _ => ?_) fun _ paymentMethod =>
    keeping_mono (keeping_forM_option fun id _ => ?_) fun _ offset => ⟨paymentMethod, offset⟩
  · have picks : Picks setup region .paymentMethods fun _ rowId (row : PaymentMethodRow) =>
        rowId == id && row.userId == userId :=
      picks_of_user holds fun _ _ row kept => by
        simp [refs, beq_iff_eq.mp (Bool.and_eq_true_iff.mp kept).2]
    exact keeping_bind (keeping_execSql (confined_select picks)) fun _ known =>
      keeping_bind keeping_firstRow fun _ member => keeping_pure (known.here member)
  · exact keeping_bind (keeping_ofExcept _) fun _ _ =>
      keeping_bind (keeping_execSql (confined_select (picks_ownedReceipt holds id)))
        fun _ known => keeping_bind keeping_firstRow fun _ member =>
          keeping_mono (keeping_ofExcept _) fun _ _ => known.here member

/-- The references of a receipt lead to the region if its user and what it names do. -/
theorem refs_receipt {row : ReceiptRow} (user : region .users row.userId)
    (paymentMethod : ∀ id, row.paymentMethodId = some id → region .paymentMethods id)
    (offset : ∀ id, row.offsetsReceiptId = some id → region .receipts id) :
    ∀ ref ∈ refs .receipts row, region ref.1 ref.2 := by
  intro ref refers
  simp only [refs, List.cons_append, List.mem_cons, List.mem_append, Option.mem_toList,
    Option.map_eq_some_iff] at refers
  rcases refers with rfl | ⟨id, named, rfl⟩ | ⟨id, named, rfl⟩
  · exact user
  · exact paymentMethod id named
  · exact offset id named

include holds in
theorem keeping_createManual (body : Json) :
    Keeping setup region base base' script .db (createManual setup userId body)
      fun _ => True := by
  refine keeping_bind (keeping_ofExcept _) fun input _ =>
    keeping_withTransaction (closing_rollingBack (closing_of_keeping
      (keeping_bind (keeping_validateReferences holds none input.receipt) fun _ named =>
        keeping_bind (keeping_ofExcept _) fun _ _ =>
          keeping_bind (keeping_execSql (confined_insert (by decide) fun _ =>
            refs_receipt ((holds userId).mpr rfl) named.1 named.2)) fun _ here => ?_)))
  exact keeping_bind (keeping_forM fun _ _ =>
    keeping_bind (ItemService.keeping_insert holds here _ _) fun _ _ => keeping_pure trivial)
      fun _ _ => keeping_pure trivial

/-- The categories of the items of a receipt of the region. -/
theorem confined_selectItemCategories {receiptId : ℕ} (here : region .receipts receiptId) :
    (selectItemCategories receiptId).Confined (estate setup region) fun _ => True := by
  intro left right beside
  have picks : Picks setup region .items fun _ _ (row : ItemRow) => row.receiptId == receiptId :=
    picks_of_ref (.receipts, receiptId) here fun _ _ row kept => by
      simp [refs, beq_iff_eq.mp kept]
  have items := filter_alike beside.agree beside.leftWalled beside.rightWalled picks
    fun _ _ _ _ => rfl
  have inside : ∀ entry ∈ (left.snap .items).list.filter fun entry : ℕ × ItemRow =>
      entry.2.receiptId == receiptId, ∀ id, entry.2.categoryId = some id →
      region .categories id := by
    rintro ⟨itemId, row⟩ member id named
    obtain ⟨stored, kept⟩ := List.mem_filter.mp member
    have isStored := Rows.mem_list.mp stored
    have itemHere := picks left.snap beside.leftWalled itemId row isStored kept
    have isNamed : row.categoryId = some id := named
    exact beside.leftWalled.inside .items itemId row isStored itemHere (.categories, id)
      (by simp [schema, refs, isNamed])
  let used (ctx : Ctx store) : List ℕ :=
    ((ctx.snap .items).list.filter fun entry : ℕ × ItemRow =>
      entry.2.receiptId == receiptId).filterMap fun entry =>
        entry.2.categoryId.filter fun id => ((ctx.snap .categories).get id).isSome
  let sides (ctx : Ctx store) : List Bool :=
    ((used ctx).filterMap fun id => ((ctx.cur .categories).get id).map fun row : CategoryRow =>
      (id, row)).map fun entry => entry.2.isIncome
  have sameUsed : used left = used right := by
    simp only [used, ← items]
    refine List.filterMap_congr fun entry member => ?_
    cases named : entry.2.categoryId with
    | none => rfl
    | some id => simp only [Option.filter, beside.agree .categories id (inside entry member id named)]
  have ofRegion : ∀ id ∈ used left, region .categories id := by
    intro id member
    obtain ⟨entry, listed, isId⟩ := List.mem_filterMap.mp member
    exact inside entry listed id (Option.filter_eq_some_iff.mp isId).1
  have sameSides : sides left = sides right := by
    simp only [sides, ← sameUsed, beside.leftSeen, beside.rightSeen]
    refine congrArg _ (List.filterMap_congr fun id member => ?_)
    rw [beside.agree .categories id (ofRegion id member)]
  exact {
    result := sameSides
    writes := rfl
    ticks := rfl
    within := fun _ member => by simp [selectItemCategories] at member
    ensured := trivial }

theorem keeping_checkSideChange {receiptId : ℕ} (here : region .receipts receiptId)
    (wasIncomeSide isIncomeSide : Bool) :
    Keeping setup region base base' script .transaction
      (checkSideChange receiptId wasIncomeSide isIncomeSide) fun _ => True :=
  keeping_if (keeping_bind (keeping_execSql (confined_selectItemCategories here)) fun _ _ =>
    keeping_mono (keeping_ofExcept _) fun _ _ => trivial) (keeping_pure trivial)

include holds in
theorem keeping_updateReceipt (receiptId : ℕ) (body : Json) :
    Keeping setup region base base' script .db (updateReceipt setup userId receiptId body)
      fun _ => True := by
  refine keeping_withTransaction (closing_rollingBack (closing_of_keeping
    (keeping_bind (keeping_execSql (confined_select (picks_ownedReceipt holds receiptId)))
      fun _ known => keeping_bind keeping_firstRow fun _ member =>
        keeping_bind (keeping_ofExcept _) fun patched _ =>
          keeping_bind (keeping_validateReferences holds (some receiptId) patched.1)
            fun _ named => ?_)))
  have here : region .receipts receiptId := known.here member
  exact keeping_bind (keeping_checkSideChange here _ _) fun _ _ =>
    keeping_bind (keeping_ofExcept _) fun _ _ =>
      keeping_bind (keeping_execSql (confined_update (by decide) (picks_of_id here)
        fun _ _ row _ inside => refs_receipt (inside (.users, row.userId) (by simp [refs]))
          named.1 named.2)) fun _ _ =>
        keeping_bind (keeping_execSql (confined_select (picks_of_id here))) fun _ _ =>
          keeping_mono keeping_firstRow fun _ _ => trivial

include holds in
theorem keeping_getReceipt (receiptId : ℕ) :
    Keeping setup region base base' script .db (getReceipt userId receiptId) fun _ => True :=
  keeping_bind (keeping_execSql (confined_select (picks_ownedReceipt holds receiptId)))
    fun _ _ => keeping_pure trivial

include holds in
theorem keeping_retryScan (receiptId : ℕ) :
    Keeping setup region base base' script .db (retryScan userId receiptId) fun _ => True := by
  have picks : Picks setup region .receipts fun _ id (row : ReceiptRow) =>
      id == receiptId && row.userId == userId && row.scanState == .scanFailed :=
    picks_of_user holds fun _ _ row kept => by
      simp [refs, beq_iff_eq.mp (Bool.and_eq_true_iff.mp (Bool.and_eq_true_iff.mp kept).1).2]
  exact keeping_bind (keeping_execSql (confined_update (by decide) picks
    fun _ _ _ _ inside => inside)) fun _ _ => keeping_bind (keeping_getReceipt holds receiptId)
      fun _ _ => keeping_bind keeping_firstRow fun _ _ => keeping_bind keeping_firstRow fun _ _ =>
        keeping_pure trivial

include holds in
theorem keeping_listReceipts (limit offset : ℤ) :
    Keeping setup region base base' script .db (listReceipts userId limit offset)
      fun _ => True := by
  have picks : Picks setup region .receipts fun _ _ (row : ReceiptRow) => row.userId == userId :=
    picks_of_user holds fun _ _ row kept => by simp [refs, beq_iff_eq.mp kept]
  refine keeping_if keeping_throw (keeping_execSql (confined_query
    (fun left right agree leftWalled rightWalled _ => ?_) fun _ _ _ => trivial))
  exact congrArg (fun rows : List (ℕ × ReceiptRow) => (((rows.insertionSort fun left right =>
      isoUtc right.2.createdAt < isoUtc left.2.createdAt ∨
        (isoUtc right.2.createdAt = isoUtc left.2.createdAt ∧ right.1 ≤ left.1)).drop offset.toNat).take
      limit.toNat).map fun entry => rowToSummary entry.1 entry.2)
    (filter_alike agree leftWalled rightWalled picks fun _ _ _ _ => rfl)

include holds in
theorem keeping_listImages (receiptId : ℕ) :
    Keeping setup region base base' script .db (listImages userId receiptId) fun _ => True := by
  refine keeping_bind (keeping_execSql (confined_select (picks_ownedReceipt holds receiptId)))
    fun _ known => keeping_bind keeping_firstRow fun _ member => ?_
  refine keeping_execSql (confined_query (fun left right agree leftWalled rightWalled _ => ?_)
    fun _ _ _ => trivial)
  exact congrArg (fun rows : List (ℕ × ReceiptImageRow) => (rows.map fun entry =>
      ({ id := entry.1, createdAt := entry.2.createdAt } : ImageRef)).insertionSort
        fun left right => left.createdAt ≤ right.createdAt)
    (filter_alike agree leftWalled rightWalled (picks_images (known.here member))
      fun _ _ _ _ => rfl)

include holds in
/-- The keys of the images of a receipt of the user's. -/
theorem confined_selectOwnedKeys (receiptId : ℕ) :
    (selectOwnedKeys userId receiptId).Confined (estate setup region) fun _ => True := by
  have picks : Picks setup region .receiptImages fun db _ (row : ReceiptImageRow) =>
      row.receiptId == receiptId &&
        ((db .receipts).get row.receiptId).map ReceiptRow.userId == some userId := by
    intro db walled id row stored kept
    obtain ⟨receipt, isReceipt, isUser⟩ :=
      Option.map_eq_some_iff.mp (beq_iff_eq.mp (Bool.and_eq_true_iff.mp kept).2)
    by_contra away
    have receiptAway : ¬ region .receipts row.receiptId :=
      walled.outside .receiptImages id row stored away (.receipts, row.receiptId)
        (by simp [schema, refs])
    exact walled.outside .receipts row.receiptId receipt isReceipt receiptAway
      (.users, receipt.userId) (by simp [schema, refs]) ((holds _).mpr isUser)
  refine confined_query (fun left right agree leftWalled rightWalled _ => ?_) fun _ _ _ => trivial
  refine congrArg (List.map fun entry : ℕ × ReceiptImageRow => entry.2.imageKey)
    (filter_alike agree leftWalled rightWalled picks fun id row stored inside => ?_)
  have receiptHere : region .receipts row.receiptId :=
    leftWalled.inside .receiptImages id row stored inside (.receipts, row.receiptId)
      (by simp [schema, refs])
  rw [agree .receipts row.receiptId receiptHere]

include holds in
theorem keeping_deleteReceipt (receiptId : ℕ) :
    Keeping setup region base base' script .db (deleteReceipt setup userId receiptId)
      fun _ => True := by
  refine keeping_bind (keeping_execSql (confined_selectOwnedKeys holds receiptId)) fun keys _ =>
    keeping_bind (keeping_execSql (confined_delete (picks_ownedReceipt holds receiptId)))
      fun removed _ => ?_
  cases removed with
  | nil => exact keeping_pure trivial
  | cons removed more =>
      refine keeping_bind (keeping_forM fun key _ => ?_) fun _ _ => keeping_pure trivial
      refine Svc.twin_tryCatch keeping_call fun raised => ?_
      split
      · exact Svc.twin_throw
      · exact Svc.twin_pure trivial

end ReceiptService

namespace ReceiptController

/-- An image of the user's, and where it is. -/
def ownLocation (userId : ℕ) (rows : List ImageLocation) : Option ImageLocation :=
  rows.head?.filter fun location => location.ownerUserId == userId

/-- What the controller makes of the location, if it is the user's. -/
def fetch : Option ImageLocation → Task (Option String)
  | none => pure none
  | some location => do
      let bytes ← getImage location.imageKey
      pure (some bytes)

theorem fetch_some (location : ImageLocation) :
    (if location.ownerUserId ≠ userId then pure none
      else do
        let bytes ← getImage location.imageKey
        pure (some bytes) : Task (Option String)) = fetch (ownLocation userId [location]) := by
  by_cases own : location.ownerUserId = userId <;>
    simp [ownLocation, Option.filter, own, fetch]

theorem image_eq (imageId : ℕ) : image userId imageId =
    (execSql .db (ReceiptService.selectImageLocation imageId) >>= fun rows =>
      fetch (ownLocation userId rows)) := by
  refine ExceptT.ext ?_
  change Prog.exec _ _ _ = Prog.exec _ _ _
  congr 1
  funext reply
  cases reply with
  | error failure => rfl
  | ok rows =>
      cases rows with
      | nil => rfl
      | cons location rest => exact congrArg ExceptT.run (fetch_some location)

/-- The image among those that a lookup by id found, if it is the user's. -/
def ownImage (userId imageId : ℕ) (db : Db store) : Option ImageLocation :=
  ownLocation userId (((db .receiptImages).get imageId).toList.filterMap
    fun row : ReceiptImageRow => ((db .receipts).get row.receiptId).map
      fun receipt : ReceiptRow => { ownerUserId := receipt.userId, imageKey := row.imageKey })

/-- Outside the region no image is the user's. -/
theorem ownLocation_eq_none (holds : HoldsOnly region userId) {db : Db store}
    (walled : Walled (schema setup.lower) region db) {imageId : ℕ}
    (away : ¬ region .receiptImages imageId) : ownImage userId imageId db = none := by
  unfold ownImage
  cases stored : (db .receiptImages).get imageId with
  | none => rfl
  | some row =>
      cases on : (db .receipts).get row.receiptId with
      | none => simp [ownLocation, on]
      | some receipt =>
          have receiptAway : ¬ region .receipts row.receiptId :=
            walled.outside .receiptImages imageId row stored away (.receipts, row.receiptId)
              (by simp [schema, refs])
          have other : receipt.userId ≠ userId := fun same =>
            walled.outside .receipts row.receiptId receipt on receiptAway
              (.users, receipt.userId) (by simp [schema, refs]) ((holds _).mpr same)
          simp [ownLocation, on, Option.filter, other]

theorem confined_ownLocation (holds : HoldsOnly region userId) (imageId : ℕ) :
    ((ReceiptService.selectImageLocation imageId).map (ownLocation userId)).Confined
      (estate setup region) fun _ => True := by
  change (Stmt.query fun _ db => ownImage userId imageId db).Confined (estate setup region) _
  refine confined_query (fun left right agree leftWalled rightWalled _ => ?_) fun _ _ _ => trivial
  by_cases here : region .receiptImages imageId
  · refine congrArg (ownLocation userId) ?_
    rw [← agree .receiptImages imageId here]
    cases stored : (left .receiptImages).get imageId with
    | none => rfl
    | some row =>
        have receiptHere : region .receipts row.receiptId :=
          leftWalled.inside .receiptImages imageId row stored here (.receipts, row.receiptId)
            (by simp [schema, refs])
        simp only [Option.toList_some, List.filterMap_cons, List.filterMap_nil,
          agree .receipts row.receiptId receiptHere]
  · exact (ownLocation_eq_none holds leftWalled here).trans
      (ownLocation_eq_none holds rightWalled here).symm

theorem keeping_image (holds : HoldsOnly region userId) (imageId : ℕ) :
    Keeping setup region base base' script .db (image userId imageId) fun _ => True := by
  rw [image_eq]
  refine Svc.twin_exec_map (keeping_bind (keeping_execSql (confined_ownLocation holds imageId))
    fun location _ => ?_)
  cases location with
  | none => exact keeping_pure trivial
  | some location => exact keeping_bind keeping_call fun _ _ => keeping_pure trivial

end ReceiptController

section Reference

/-- A list of the user's rows, by name. -/
theorem confined_byName (holds : HoldsOnly region userId) (table : Table) (owner : table.Row → ℕ)
    (names : ∀ row : table.Row, (.users, owner row) ∈ refs table row) (name : table.Row → String)
    (project : ℕ → table.Row → β) :
    (Stmt.query fun _ db => (sortByName setup name
      ((db table).list.filter fun entry => owner entry.2 == userId)).map
        fun entry => project entry.1 entry.2 : Stmt store (List β)).Confined (estate setup region)
      fun _ => True := by
  have picks : Picks setup region table fun _ _ row => owner row == userId :=
    picks_of_user holds fun _ _ row kept => beq_iff_eq.mp kept ▸ names row
  exact confined_query (fun left right agree leftWalled rightWalled _ =>
      congrArg (fun rows => (sortByName setup name rows).map
          fun entry : ℕ × table.Row => project entry.1 entry.2)
        (filter_alike agree leftWalled rightWalled picks fun _ _ _ _ => rfl)) fun _ _ _ => trivial

theorem keeping_removeOwned {noun : String} {delete : Stmt store (List ℕ)}
    {ensures : List ℕ → Prop} (confined : delete.Confined (estate setup region) ensures) :
    Keeping setup region base base' script .db (removeOwned noun delete) fun _ => True :=
  keeping_bind (keeping_execSql confined) fun _ _ => keeping_bind keeping_firstRow fun _ _ =>
    keeping_pure trivial

end Reference

namespace CategoryService

variable (holds : HoldsOnly region userId)
include holds

theorem picks_owned (id : ℕ) : Picks setup region .categories fun _ rowId (row : CategoryRow) =>
    rowId == id && row.userId == userId :=
  picks_of_user holds fun _ _ row kept => by
    simp [refs, beq_iff_eq.mp (Bool.and_eq_true_iff.mp kept).2]

theorem keeping_list :
    Keeping setup region base base' script .db (list setup userId) fun _ => True :=
  keeping_execSql (confined_byName holds .categories CategoryRow.userId
    (fun row => by simp [refs]) CategoryRow.name rowToCategory)

theorem keeping_create (body : Json) :
    Keeping setup region base base' script .db (create userId body) fun _ => True := by
  refine keeping_bind (keeping_ofExcept _) fun _ _ => keeping_bind (keeping_conflictIfDuplicate
    (keeping_execSql (confined_insert (by decide) fun _ ref refers => ?_))) fun _ _ =>
      keeping_pure trivial
  simp only [refs, List.mem_singleton] at refers
  exact refers ▸ (holds userId).mpr rfl

omit holds in
theorem selectClash_eq (id : ℕ) (isIncome : Bool) : selectClash id isIncome =
    .query fun _ db => (((db .items).list.filter fun entry : ℕ × ItemRow =>
      entry.2.categoryId == some id && ((db .receipts).get entry.2.receiptId).any
        fun receipt : ReceiptRow => inIncomeKinds receipt.kind != isIncome).take 1).map
          fun _ => () := by
  refine congrArg Stmt.query (funext₂ fun _ db => ?_)
  refine congrArg (fun rows : List (ℕ × ItemRow) => (rows.take 1).map fun _ => ())
    (List.filter_congr fun entry _ => ?_)
  obtain ⟨itemId, item⟩ := entry
  cases on : (db .receipts).get item.receiptId <;> simp [on]

omit holds in
/-- The items of a category of the region, and their receipts. -/
theorem confined_selectClash {id : ℕ} (here : region .categories id) (isIncome : Bool) :
    (selectClash id isIncome).Confined (estate setup region) fun _ => True := by
  have picks : Picks setup region .items fun db _ (item : ItemRow) =>
      item.categoryId == some id && ((db .receipts).get item.receiptId).any
        fun receipt : ReceiptRow => inIncomeKinds receipt.kind != isIncome :=
    picks_of_ref (.categories, id) here fun _ _ row kept => by
      simp [refs, beq_iff_eq.mp (Bool.and_eq_true_iff.mp kept).1]
  rw [selectClash_eq]
  refine confined_query (fun left right agree leftWalled rightWalled _ => ?_) fun _ _ _ => trivial
  refine congrArg (fun rows : List (ℕ × ItemRow) => (rows.take 1).map fun _ => ())
    (filter_alike agree leftWalled rightWalled picks fun itemId row stored inside => ?_)
  have receiptHere : region .receipts row.receiptId :=
    leftWalled.inside .items itemId row stored inside (.receipts, row.receiptId)
      (by simp [schema, refs])
  rw [agree .receipts row.receiptId receiptHere]

omit holds in
theorem keeping_checkFlip {category : Category} (here : region .categories category.id)
    (isIncome : Option Bool) :
    Keeping setup region base base' script .transaction (checkFlip category isIncome)
      fun _ => True := by
  cases isIncome with
  | none => exact keeping_pure trivial
  | some isIncome =>
      exact keeping_if (keeping_bind (keeping_execSql (confined_selectClash here isIncome))
        fun _ _ => keeping_mono (keeping_ofExcept _) fun _ _ => trivial) (keeping_pure trivial)

theorem keeping_update (id : ℕ) (body : Json) :
    Keeping setup region base base' script .db (update userId id body) fun _ => True := by
  refine keeping_bind (keeping_ofExcept _) fun _ _ => keeping_withTransaction
    (closing_conflictIfDuplicate (closing_rollingBack (closing_of_keeping (keeping_bind
      (keeping_execSql (confined_select (picks_owned holds id))) fun _ known =>
        keeping_bind keeping_firstRow fun category member => ?_))))
  have here : region .categories category.id := by
    obtain ⟨_, _, here, -, -, rfl⟩ := known category member
    exact here
  have named : region .categories id := known.here member
  exact keeping_bind (keeping_checkFlip here _) fun _ _ =>
    keeping_bind (keeping_execSql (confined_update (by decide) (picks_of_id named)
      fun _ _ row _ inside => inside)) fun _ _ => keeping_pure trivial

theorem keeping_remove (id : ℕ) :
    Keeping setup region base base' script .db (remove setup userId id) fun _ => True :=
  keeping_removeOwned (confined_delete (picks_owned holds id))

end CategoryService

namespace TagService

variable (holds : HoldsOnly region userId)
include holds

theorem picks_owned (id : ℕ) : Picks setup region .tags fun _ rowId (row : TagRow) =>
    rowId == id && row.userId == userId :=
  picks_of_user holds fun _ _ row kept => by
    simp [refs, beq_iff_eq.mp (Bool.and_eq_true_iff.mp kept).2]

theorem keeping_list :
    Keeping setup region base base' script .db (list setup userId) fun _ => True :=
  keeping_execSql (confined_byName holds .tags TagRow.userId (fun row => by simp [refs])
    TagRow.name rowToTag)

theorem keeping_create (body : Json) :
    Keeping setup region base base' script .db (create userId body) fun _ => True := by
  refine keeping_bind (keeping_ofExcept _) fun _ _ => keeping_bind (keeping_conflictIfDuplicate
    (keeping_execSql (confined_insert (by decide) fun _ ref refers => ?_))) fun _ _ =>
      keeping_pure trivial
  simp only [refs, List.mem_singleton] at refers
  exact refers ▸ (holds userId).mpr rfl

theorem keeping_update (id : ℕ) (body : Json) :
    Keeping setup region base base' script .db (update userId id body) fun _ => True :=
  keeping_bind (keeping_ofExcept _) fun _ _ => keeping_bind (keeping_conflictIfDuplicate
    (keeping_execSql (confined_update (by decide) (picks_owned holds id)
      fun _ _ _ _ inside => inside))) fun _ _ => keeping_mono keeping_firstRow fun _ _ => trivial

theorem keeping_remove (id : ℕ) :
    Keeping setup region base base' script .db (remove setup userId id) fun _ => True :=
  keeping_removeOwned (confined_delete (picks_owned holds id))

end TagService

namespace PaymentMethodService

variable (holds : HoldsOnly region userId)
include holds

theorem picks_owned (id : ℕ) : Picks setup region .paymentMethods
    fun _ rowId (row : PaymentMethodRow) => rowId == id && row.userId == userId :=
  picks_of_user holds fun _ _ row kept => by
    simp [refs, beq_iff_eq.mp (Bool.and_eq_true_iff.mp kept).2]

theorem keeping_list :
    Keeping setup region base base' script .db (list setup userId) fun _ => True :=
  keeping_execSql (confined_byName holds .paymentMethods PaymentMethodRow.userId
    (fun row => by simp [refs]) PaymentMethodRow.name rowToPaymentMethod)

theorem keeping_create (body : Json) :
    Keeping setup region base base' script .db (create userId body) fun _ => True := by
  refine keeping_bind (keeping_ofExcept _) fun _ _ => keeping_bind (keeping_conflictIfDuplicate
    (keeping_execSql (confined_insert (by decide) fun _ ref refers => ?_))) fun _ _ =>
      keeping_pure trivial
  simp only [refs, List.mem_singleton] at refers
  exact refers ▸ (holds userId).mpr rfl

theorem keeping_update (id : ℕ) (body : Json) :
    Keeping setup region base base' script .db (update userId id body) fun _ => True :=
  keeping_bind (keeping_ofExcept _) fun _ _ => keeping_bind (keeping_conflictIfDuplicate
    (keeping_execSql (confined_update (by decide) (picks_owned holds id)
      fun _ _ _ _ inside => inside))) fun _ _ => keeping_mono keeping_firstRow fun _ _ => trivial

theorem keeping_remove (id : ℕ) :
    Keeping setup region base base' script .db (remove setup userId id) fun _ => True :=
  keeping_removeOwned (confined_delete (picks_owned holds id))

end PaymentMethodService

end ReceiptScanner

import ReceiptScanner.Ledger.Identity

/-!
# No reference crosses tenants

The foreign keys do not check owners; the statements that store a reference do, each
somewhere before its commit. That a row under an id once belonged to a user is a fact
that later commits cannot undo, since ids are not reused and owners do not change; so
the invariant says of every reference only that its target was once the owner's.
-/

namespace ReceiptScanner

open ReadCommitted

variable {setup : Setup} {config : Config store outside Job} {c : Commit store outside}
  {h seen : History store outside} {table : Table} {id userId : ℕ}

/-- The user that a row belongs to, in the tables that name one. -/
def ownerOf : (table : Table) → table.Row → Option ℕ
  | .categories, row => some row.userId
  | .tags, row => some row.userId
  | .paymentMethods, row => some row.userId
  | .receipts, row => some row.userId
  | _, _ => none

/-- Some time so far, the row under this id was the user's. -/
def Belongs (h : History store outside) (table : Table) (id userId : ℕ) : Prop :=
  ∃ (seen : History store outside) (row : table.Row), seen <:+ h ∧
    (seen.db table).get id = some row ∧ ownerOf table row = some userId

theorem Belongs.mono {later : History store outside} (belongs : Belongs h table id userId)
    (grown : h <:+ later) : Belongs later table id userId := by
  obtain ⟨seen, row, past, stored, owner⟩ := belongs
  exact ⟨seen, row, past.trans grown, stored, owner⟩

theorem Belongs.cons (belongs : Belongs h table id userId) : Belongs (c :: h) table id userId :=
  belongs.mono (List.suffix_cons c h)

/-- A row that is written with an owner is new, or had that owner before. -/
theorem Wrote.owner_before {row : table.Row} {label : Label}
    (wrote : Wrote setup h c ⟨table, id, some row, label⟩)
    (owner : ownerOf table row = some userId) :
    Unused h table id ∨ ∃ before : table.Row, (h.db table).get id = some before ∧
      ownerOf table before = some userId := by
  cases table with
  | receipts =>
      rcases ReceiptWrote.before wrote with ⟨fresh, -⟩ | ⟨before, stored, same⟩
      · exact Or.inl fresh
      · exact Or.inr ⟨before, stored, (congrArg some same.symm).trans owner⟩
  | categories =>
      cases (wrote : CategoryWrote h c id (some row) label) with
      | created fresh => exact Or.inl fresh
      | updated stored => exact Or.inr ⟨_, stored, owner⟩
  | tags =>
      cases (wrote : TagWrote h id (some row) label) with
      | created fresh => exact Or.inl fresh
      | updated stored => exact Or.inr ⟨_, stored, owner⟩
  | paymentMethods =>
      cases (wrote : PaymentMethodWrote h id (some row) label) with
      | created fresh => exact Or.inl fresh
      | updated stored same => exact Or.inr ⟨_, stored, (congrArg some same.symm).trans owner⟩
  | _ => cases owner

/-- A row that once was the user's is still, while it stands. -/
theorem Belongs.owner (reachable : Config.Reachable (application setup) config)
    (past : h <:+ config.world.history) (belongs : Belongs h table id userId) {row : table.Row}
    (stored : (h.db table).get id = some row) {other : ℕ} (owner : ownerOf table row = some other) :
    other = userId := by
  obtain ⟨seen, first, before, was, owned⟩ := belongs
  induction h generalizing row with
  | nil =>
      obtain rfl := List.suffix_nil.mp before
      obtain rfl := Option.some.inj (was.symm.trans stored)
      exact Option.some.inj (owner.symm.trans owned)
  | cons c h ih =>
      rcases List.suffix_cons_iff.mp before with rfl | inside
      · obtain rfl := Option.some.inj (was.symm.trans stored)
        exact Option.some.inj (owner.symm.trans owned)
      have past' := (List.suffix_cons c h).trans past
      rcases (promised_of_reachable reachable past).row_cases table id with
        ⟨same, -⟩ | ⟨now, label, -, isNow, wrote⟩
      · exact ih past' (same ▸ stored) owner inside
      · obtain rfl := isNow.symm.trans stored
        rcases Wrote.owner_before wrote owner with fresh | ⟨before, there, same⟩
        · simp [fresh.get inside] at was
        · exact ih past' there same inside

section References

variable (h : History store outside)

/-- What a receipt names was its owner's. -/
structure ReceiptNames (row : ReceiptRow) : Prop where
  paymentMethod : ∀ id, row.paymentMethodId = some id → Belongs h .paymentMethods id row.userId
  offset : ∀ id, row.offsetsReceiptId = some id → Belongs h .receipts id row.userId

/-- The category of an item was the owner's of its receipt. -/
def ItemNames (row : ItemRow) : Prop :=
  ∀ id, row.categoryId = some id → ∃ userId, Belongs h .receipts row.receiptId userId ∧
    Belongs h .categories id userId

/-- The tag on an item was the owner's of the receipt that the item was on. -/
def TagNames (row : ItemTagRow) : Prop :=
  ∃ userId receiptId, Belongs h .receipts receiptId userId ∧ Belongs h .tags row.tagId userId ∧
    ∃ (seen : History store outside) (item : ItemRow), seen <:+ h ∧
      (seen.db .items).get row.itemId = some item ∧ item.receiptId = receiptId

/-- An image is its receipt's owner's. -/
def ImageNames (row : ReceiptImageRow) : Prop := Belongs h .receipts row.receiptId row.userId

/-- What a stored row names was its owner's. -/
def Names : (table : Table) → table.Row → Prop
  | .receipts, row => ReceiptNames h row
  | .items, row => ItemNames h row
  | .itemTags, row => TagNames h row
  | .receiptImages, row => ImageNames h row
  | _, _ => True

end References

theorem Names.cons {row : table.Row} (names : Names h table row) : Names (c :: h) table row := by
  cases table with
  | receipts =>
      exact ⟨fun id named => (names.paymentMethod id named).cons,
        fun id named => (names.offset id named).cons⟩
  | items =>
      intro id named
      obtain ⟨userId, onReceipt, ofCategory⟩ := names id named
      exact ⟨userId, onReceipt.cons, ofCategory.cons⟩
  | itemTags =>
      obtain ⟨userId, receiptId, onReceipt, ofTag, seen, item, past, stored⟩ := names
      exact ⟨userId, receiptId, onReceipt.cons, ofTag.cons, seen, item,
        past.trans (List.suffix_cons c h), stored⟩
  | receiptImages => exact Belongs.cons names
  | _ => trivial

section Steps

variable (promised : Promised setup h c)
include promised

/-- A receipt that was seen as the user's, or is written as theirs, is theirs. -/
theorem OwnedReceipt.belongs (owned : OwnedReceipt h c id userId) :
    Belongs (c :: h) .receipts id userId := by
  obtain ⟨row, owner, ⟨seen, past, stored⟩ | ⟨label, member⟩⟩ := owned
  · exact ⟨seen, row, past.trans (List.suffix_cons c h), stored, congrArg some owner⟩
  · exact ⟨c :: h, row, List.suffix_rfl, promised.get (by decide) member, congrArg some owner⟩

theorem OwnedItem.names (owned : OwnedItem h c id userId) :
    ∃ receiptId, Belongs (c :: h) .receipts receiptId userId ∧
      ∃ (seen : History store outside) (item : ItemRow), seen <:+ c :: h ∧
        (seen.db .items).get id = some item ∧ item.receiptId = receiptId := by
  obtain ⟨item, onReceipt, stored | member⟩ := owned
  · exact ⟨_, onReceipt.belongs promised, h, item, List.suffix_cons c h, stored, rfl⟩
  · exact ⟨_, onReceipt.belongs promised, c :: h, item, List.suffix_rfl,
      promised.get (by decide) member, rfl⟩

omit promised in
theorem CategoryFits.belongs {kind : Kind} {categoryId : Option ℕ}
    (fits : CategoryFits h c userId kind categoryId) (named : categoryId = some id) :
    Belongs h .categories id userId := by
  obtain ⟨-, row, stored, owner, -⟩ := fits id named
  exact ⟨h, row, List.suffix_rfl, stored, congrArg some owner⟩

omit promised in
/-- What a written receipt names was its owner's. -/
theorem ReceiptWrote.names {row : ReceiptRow} {label : Label}
    (wrote : ReceiptWrote setup h c id (some row) label)
    (before : ∀ row : ReceiptRow, (h.db .receipts).get id = some row → ReceiptNames h row) :
    ReceiptNames (c :: h) row := by
  have kept : ∀ row : ReceiptRow, (h.db .receipts).get id = some row →
      ReceiptNames (c :: h) row :=
    fun row stored => @Names.cons c h .receipts row (before row stored)
  have checked : ∀ {self : Option ℕ} {r : EditableReceipt} {userId : ℕ},
      References h c userId self r →
      (∀ id, r.paymentMethodId = some id → Belongs (c :: h) .paymentMethods id userId) ∧
        ∀ id, r.offsetsReceiptId = some id → Belongs (c :: h) .receipts id userId := by
    rintro self r userId ⟨paymentMethod, offset⟩
    refine ⟨fun id named => ?_, fun id named => ?_⟩
    · obtain ⟨seen, row, past, stored, owner⟩ := paymentMethod id named
      exact Belongs.cons ⟨seen, row, past, stored, congrArg some owner⟩
    · obtain ⟨-, seen, row, saw, stored, owner, -⟩ := offset id named
      exact Belongs.cons ⟨seen, row, saw.1, stored, congrArg some owner⟩
  cases wrote with
  | uploaded => exact ⟨fun _ named => (nomatch named), fun _ named => (nomatch named)⟩
  | created fresh valid references => exact ⟨(checked references).1, (checked references).2⟩
  | patched stored applied references => exact ⟨(checked references).1, (checked references).2⟩
  | unlinked stored => exact ⟨(kept _ stored).paymentMethod, fun _ named => (nomatch named)⟩
  | detached stored => exact ⟨fun _ named => (nomatch named), (kept _ stored).offset⟩
  | @extracted before claim result kind purchaseDate db stored =>
      refine ⟨(kept _ stored).paymentMethod, fun id named => ?_⟩
      change (if (rulesFor kind).canOffset then before.offsetsReceiptId else none) = some id at named
      split at named
      · exact (kept _ stored).offset id named
      · cases named
  | requeued stored => exact ⟨(kept _ stored).paymentMethod, (kept _ stored).offset⟩
  | retried stored => exact ⟨(kept _ stored).paymentMethod, (kept _ stored).offset⟩
  | reclaimed stored => exact ⟨(kept _ stored).paymentMethod, (kept _ stored).offset⟩
  | claimed stored => exact ⟨(kept _ stored).paymentMethod, (kept _ stored).offset⟩
  | failed stored => exact ⟨(kept _ stored).paymentMethod, (kept _ stored).offset⟩
  | verified stored => exact ⟨(kept _ stored).paymentMethod, (kept _ stored).offset⟩

/-- What a written item names was its receipt's owner's. -/
theorem ItemWrote.names {row : ItemRow} {label : Label}
    (wrote : ItemWrote h c id (some row) label)
    (before : ∀ row : ItemRow, (h.db .items).get id = some row → ItemNames h row) :
    ItemNames (c :: h) row := by
  cases wrote with
  | inserted owned known fits =>
      exact fun id named => ⟨_, owned.belongs promised, (fits.belongs named).cons⟩
  | updated stored owned known fits =>
      intro id named
      rcases fits with same | fits
      · obtain ⟨userId, onReceipt, ofCategory⟩ := before _ stored id (same.symm.trans named)
        exact ⟨userId, onReceipt.cons, ofCategory.cons⟩
      · exact ⟨_, owned.belongs promised, (fits.belongs named).cons⟩
  | uncategorized => exact fun id named => nomatch named

/-- What a written row names was its owner's. -/
theorem Wrote.names {row : table.Row} {label : Label}
    (wrote : Wrote setup h c ⟨table, id, some row, label⟩)
    (before : ∀ row : table.Row, (h.db table).get id = some row → Names h table row) :
    Names (c :: h) table row := by
  cases table with
  | receipts => exact ReceiptWrote.names wrote before
  | items => exact ItemWrote.names promised wrote before
  | itemTags =>
      cases (wrote : ItemTagWrote h c id (some row) label) with
      | tagged item _ _ tag =>
          obtain ⟨seen, tag, past, stored, owner⟩ := tag
          obtain ⟨receiptId, onReceipt, onItem⟩ := item.names promised
          exact ⟨_, receiptId, onReceipt,
            Belongs.cons ⟨seen, tag, past, stored, congrArg some owner⟩, onItem⟩
  | receiptImages =>
      cases (wrote : ImageWrote h c id (some row) label) with
      | stored owned => exact owned.belongs promised
  | _ => trivial

end Steps

/-- What every stored row names was its owner's. -/
theorem names_of_reachable (reachable : Config.Reachable (application setup) config)
    (past : h <:+ config.world.history) (table : Table) {row : table.Row}
    (stored : (h.db table).get id = some row) : Names h table row := by
  refine invariant_of_reachable reachable
    (P := fun h => ∀ id row, (h.db table).get id = some row → Names h table row)
    (fun _ _ stored => ?_) ?_ h past id row stored
  · simp at stored
  · intro c earlier past promised before id row stored
    rcases promised.row_cases table id with ⟨same, -⟩ | ⟨now, label, -, isNow, wrote⟩
    · exact Names.cons (before id row (same ▸ stored))
    · obtain rfl := isNow.symm.trans stored
      exact Wrote.names promised wrote (before id)

/-- Every reference is to a row that stands and is the user's whose receipt it is. -/
structure Isolated (db : Db store) : Prop where
  paymentMethod : ∀ id, ∀ row : ReceiptRow, (db .receipts).get id = some row →
    ∀ target, row.paymentMethodId = some target → ∃ method : PaymentMethodRow,
      (db .paymentMethods).get target = some method ∧ method.userId = row.userId
  offset : ∀ id, ∀ row : ReceiptRow, (db .receipts).get id = some row →
    ∀ target, row.offsetsReceiptId = some target → ∃ receipt : ReceiptRow,
      (db .receipts).get target = some receipt ∧ receipt.userId = row.userId
  category : ∀ id, ∀ row : ItemRow, (db .items).get id = some row →
    ∀ target, row.categoryId = some target →
    ∃ (receipt : ReceiptRow) (category : CategoryRow),
      (db .receipts).get row.receiptId = some receipt ∧
      (db .categories).get target = some category ∧ category.userId = receipt.userId
  tag : ∀ id, ∀ row : ItemTagRow, (db .itemTags).get id = some row →
    ∃ (item : ItemRow) (receipt : ReceiptRow) (tag : TagRow),
      (db .items).get row.itemId = some item ∧
      (db .receipts).get item.receiptId = some receipt ∧
      (db .tags).get row.tagId = some tag ∧ tag.userId = receipt.userId
  image : ∀ id, ∀ row : ReceiptImageRow, (db .receiptImages).get id = some row →
    ∃ receipt : ReceiptRow, (db .receipts).get row.receiptId = some receipt ∧
      row.userId = receipt.userId

/-- No reference ever crosses tenants. -/
theorem references_isolated (reachable : Config.Reachable (application setup) config)
    (past : h <:+ config.world.history) : Isolated h.db := by
  have intact := intact_of_reachable reachable past
  have stands : ∀ {table : Table} {id : ℕ} {row : table.Row} (target : Table × ℕ),
      (h.db table).get id = some row → target ∈ refs table row →
      ∃ other : target.1.Row, (h.db target.1).get target.2 = some other :=
    fun target stored named => Option.ne_none_iff_exists'.mp (intact _ _ _ stored target named)
  refine ⟨?paymentMethod, ?offset, ?category, ?tag, ?image⟩
  case paymentMethod =>
    intro id row stored target named
    obtain ⟨method, there⟩ := stands (.paymentMethods, target) stored (by simp [refs, named])
    have owned : ReceiptNames h row := names_of_reachable reachable past .receipts stored
    exact ⟨method, there, (owned.paymentMethod target named).owner reachable past there rfl⟩
  case offset =>
    intro id row stored target named
    obtain ⟨receipt, there⟩ := stands (.receipts, target) stored (by simp [refs, named])
    have owned : ReceiptNames h row := names_of_reachable reachable past .receipts stored
    exact ⟨receipt, there, (owned.offset target named).owner reachable past there rfl⟩
  case category =>
    intro id row stored target named
    obtain ⟨receipt, on⟩ := stands (.receipts, row.receiptId) stored (by simp [refs])
    obtain ⟨category, there⟩ := stands (.categories, target) stored (by simp [refs, named])
    have owned : ItemNames h row := names_of_reachable reachable past .items stored
    obtain ⟨userId, onReceipt, ofCategory⟩ := owned target named
    exact ⟨receipt, category, on, there, (ofCategory.owner reachable past there rfl).trans
      (onReceipt.owner reachable past on rfl).symm⟩
  case tag =>
    intro id row stored
    obtain ⟨item, onItem⟩ := stands (.items, row.itemId) stored (by simp [refs])
    obtain ⟨tag, there⟩ := stands (.tags, row.tagId) stored (by simp [refs])
    obtain ⟨receipt, on⟩ := stands (.receipts, item.receiptId) onItem (by simp [refs])
    have owned : TagNames h row := names_of_reachable reachable past .itemTags stored
    obtain ⟨userId, receiptId, onReceipt, ofTag, seen, first, before, was, same⟩ := owned
    obtain ⟨middle, again, lasts⟩ := item_between reachable past List.suffix_rfl before was onItem
    obtain rfl := Option.some.inj (again.symm.trans was)
    obtain rfl := same.symm.trans lasts
    exact ⟨item, receipt, tag, onItem, on, there, (ofTag.owner reachable past there rfl).trans
      (onReceipt.owner reachable past on rfl).symm⟩
  case image =>
    intro id row stored
    obtain ⟨receipt, on⟩ := stands (.receipts, row.receiptId) stored (by simp [refs])
    have owned : ImageNames h row := names_of_reachable reachable past .receiptImages stored
    exact ⟨receipt, on, (Belongs.owner reachable past owned on rfl).symm⟩

theorem references_isolated_of_oneScanned :
    (oneScanned.world.history.db .receiptImages).get 1 ≠ none ∧
      Isolated oneScanned.world.history.db :=
  ⟨by decide +kernel, references_isolated reachable_oneScanned List.suffix_rfl⟩

end ReceiptScanner

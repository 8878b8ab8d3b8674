import ReceiptScanner.Ledger.Tenants
import ReceiptScanner.Tenancy.Estate

/-!
# Whose the rows are

Every row of a reachable database has one owner, and all that it references is that owner's.
So the rows of a user, together with the ids that have not been given out, are walled off
from the rest.
-/

namespace ReceiptScanner

open ReadCommitted

variable {setup : Setup} {config : Config store outside Job} {h : History store outside}
  {db left right : Db store} {table : Table} {id userId : ℕ}

/-- Whose receipt this is. -/
def receiptOwner (db : Db store) (receiptId : ℕ) : Option ℕ :=
  ((db .receipts).get receiptId).map ReceiptRow.userId

/-- Whose item this is: the owner's of its receipt. -/
def itemOwner (db : Db store) (itemId : ℕ) : Option ℕ :=
  ((db .items).get itemId).bind fun row : ItemRow => receiptOwner db row.receiptId

/-- Whose a row is. A user is their own, a tag on an item is the item's owner's. -/
def ownerAt (db : Db store) : Table → ℕ → Option ℕ
  | .users, id => ((db .users).get id).map fun _ => id
  | .sessions, id => ((db .sessions).get id).map SessionRow.userId
  | .authTokens, id => ((db .authTokens).get id).map AuthTokenRow.userId
  | .categories, id => ((db .categories).get id).map CategoryRow.userId
  | .tags, id => ((db .tags).get id).map TagRow.userId
  | .paymentMethods, id => ((db .paymentMethods).get id).map PaymentMethodRow.userId
  | .receipts, id => receiptOwner db id
  | .receiptImages, id => ((db .receiptImages).get id).map ReceiptImageRow.userId
  | .items, id => itemOwner db id
  | .itemTags, id => ((db .itemTags).get id).bind fun row : ItemTagRow => itemOwner db row.itemId
  | .advisory, _ => none

/-- An absent row is nobody's. -/
theorem stored_of_ownerAt (owner : ownerAt db table id = some userId) :
    ∃ row, (db table).get id = some row := by
  refine Option.ne_none_iff_exists'.mp fun absent => ?_
  cases table <;> simp [ownerAt, receiptOwner, itemOwner, absent] at owner

/-- Every row has an owner, whose all that it references is. -/
def Owned (db : Db store) : Prop :=
  ∀ table id row, (db table).get id = some row → ∃ userId, ownerAt db table id = some userId ∧
    ∀ ref ∈ refs table row, ownerAt db ref.1 ref.2 = some userId

section Reachable

variable (reachable : Config.Reachable (application setup) config)
  (past : h <:+ config.world.history)
include reachable past

/-- What a stored row references stands. -/
theorem stands_of_refs {row : table.Row} (stored : (h.db table).get id = some row)
    (ref : Table × ℕ) (refers : ref ∈ refs table row) :
    ∃ other : ref.1.Row, (h.db ref.1).get ref.2 = some other :=
  Option.ne_none_iff_exists'.mp (intact_of_reachable reachable past table id row stored ref refers)

theorem ownerAt_user {row : table.Row} (stored : (h.db table).get id = some row)
    (refers : (.users, userId) ∈ refs table row) : ownerAt h.db .users userId = some userId := by
  obtain ⟨user, there⟩ := stands_of_refs reachable past stored (.users, userId) refers
  simp [ownerAt, there]

/-- What once was the user's, and stands, is the user's. -/
theorem Belongs.ownerOf_eq (belongs : Belongs h table id userId) {row : table.Row}
    (stored : (h.db table).get id = some row) {other : ℕ} (owner : ownerOf table row = some other) :
    ownerOf table row = some userId :=
  owner.trans (congrArg some (Belongs.owner reachable past belongs stored owner))

/-- The owner of a receipt owns all that it references. -/
theorem refs_receipt_owned {row : ReceiptRow} (stored : (h.db .receipts).get id = some row) :
    ∀ ref ∈ refs .receipts row, ownerAt h.db ref.1 ref.2 = some row.userId := by
  have names : ReceiptNames h row := names_of_reachable reachable past .receipts stored
  intro ref refers
  have member := refers
  simp only [refs, List.cons_append, List.mem_cons, List.mem_append, Option.mem_toList,
    Option.map_eq_some_iff] at member
  rcases member with rfl | ⟨target, named, rfl⟩ | ⟨target, named, rfl⟩
  · exact ownerAt_user reachable past stored refers
  · obtain ⟨method, there⟩ := stands_of_refs reachable past stored _ refers
    have owner := (names.paymentMethod target named).ownerOf_eq reachable past there rfl
    simp only [ownerAt, there, Option.map_some]
    exact owner
  · obtain ⟨receipt, there⟩ := stands_of_refs reachable past stored _ refers
    have owner := (names.offset target named).ownerOf_eq reachable past there rfl
    simp only [ownerAt, receiptOwner, there, Option.map_some]
    exact owner

/-- The owner of an item owns its receipt and its category. -/
theorem refs_item_owned {row : ItemRow} (stored : (h.db .items).get id = some row) :
    ∃ userId, itemOwner h.db id = some userId ∧
      ∀ ref ∈ refs .items row, ownerAt h.db ref.1 ref.2 = some userId := by
  have names : ItemNames h row := names_of_reachable reachable past .items stored
  obtain ⟨receipt, on⟩ := stands_of_refs reachable past stored (.receipts, row.receiptId)
    (by simp [refs])
  have onReceipt : receiptOwner h.db row.receiptId = some receipt.userId := by
    simp [receiptOwner, on]
  refine ⟨receipt.userId, by simp [itemOwner, stored, onReceipt], fun ref refers => ?_⟩
  have member := refers
  simp only [refs, List.mem_cons, Option.mem_toList, Option.map_eq_some_iff] at member
  rcases member with rfl | ⟨target, named, rfl⟩
  · exact onReceipt
  · obtain ⟨category, there⟩ := stands_of_refs reachable past stored _ refers
    obtain ⟨userId, ofReceipt, ofCategory⟩ := names target named
    have same : receipt.userId = userId := ofReceipt.owner reachable past on rfl
    have owner := ofCategory.ownerOf_eq reachable past there rfl
    simp only [ownerAt, there, Option.map_some, same]
    exact owner

/-- Every row of a reachable database has an owner, whose all that it references is. -/
theorem owned_of_reachable : Owned h.db := by
  intro table id row stored
  cases table with
  | users => exact ⟨id, by simp [ownerAt, stored], fun ref refers => by simp [refs] at refers⟩
  | sessions | authTokens | categories | tags | paymentMethods =>
      refine ⟨row.userId, by simp [ownerAt, stored], fun ref refers => ?_⟩
      obtain rfl := List.mem_singleton.mp refers
      exact ownerAt_user reachable past stored refers
  | receipts =>
      exact ⟨row.userId, by simp [ownerAt, receiptOwner, stored],
        refs_receipt_owned reachable past stored⟩
  | receiptImages =>
      have names : ImageNames h row := names_of_reachable reachable past .receiptImages stored
      refine ⟨row.userId, by simp [ownerAt, stored], fun ref refers => ?_⟩
      have member := refers
      simp only [refs, List.mem_cons, List.not_mem_nil, or_false] at member
      rcases member with rfl | rfl
      · obtain ⟨receipt, on⟩ := stands_of_refs reachable past stored _ refers
        have owner := Belongs.ownerOf_eq reachable past names on rfl
        simp only [ownerAt, receiptOwner, on, Option.map_some]
        exact owner
      · exact ownerAt_user reachable past stored refers
  | items => exact refs_item_owned reachable past stored
  | itemTags =>
      obtain ⟨item, onItem⟩ := stands_of_refs reachable past stored (.items, row.itemId)
        (by simp [refs])
      obtain ⟨userId, owner, inside⟩ := refs_item_owned reachable past onItem
      refine ⟨userId, by simp [ownerAt, stored, owner], fun ref refers => ?_⟩
      have member := refers
      simp only [refs, List.mem_cons, List.not_mem_nil, or_false] at member
      rcases member with rfl | rfl
      · exact owner
      · have names : TagNames h row := names_of_reachable reachable past .itemTags stored
        obtain ⟨other, receiptId, onReceipt, ofTag, seen, first, before, was, same⟩ := names
        obtain ⟨tag, there⟩ := stands_of_refs reachable past stored _ refers
        obtain ⟨receipt, on⟩ := stands_of_refs reachable past onItem (.receipts, item.receiptId)
          (by simp [refs])
        obtain ⟨middle, again, lasts⟩ :=
          item_between reachable past List.suffix_rfl before was onItem
        obtain rfl := Option.some.inj (again.symm.trans was)
        obtain rfl := same.symm.trans lasts
        have isReceipt := inside (.receipts, item.receiptId) (by simp [refs])
        simp only [ownerAt, receiptOwner, on, Option.map_some, Option.some.injEq] at isReceipt
        have isUser : receipt.userId = other := onReceipt.owner reachable past on rfl
        have ofUser := ofTag.ownerOf_eq reachable past there rfl
        simp only [ownerAt, there, Option.map_some, ← isReceipt, isUser]
        exact ofUser
  | advisory => exact row.elim

end Reachable

section Regions

variable {region : Region store}

/-- In a walled database a row is on the side of its owner. -/
theorem region_iff_of_ownerAt (walled : Walled (schema setup.lower) region db)
    (owner : ownerAt db table id = some userId) : region table id ↔ region .users userId := by
  have receipt : ∀ {receiptId : ℕ}, receiptOwner db receiptId = some userId →
      (region .receipts receiptId ↔ region .users userId) := by
    intro receiptId owner
    obtain ⟨row, stored, rfl⟩ := Option.map_eq_some_iff.mp owner
    exact walled.region_iff stored (.users, row.userId) (by simp [schema, refs])
  have item : ∀ {itemId : ℕ}, itemOwner db itemId = some userId →
      (region .items itemId ↔ region .users userId) := by
    intro itemId owner
    obtain ⟨row, stored, owner⟩ := Option.bind_eq_some_iff.mp owner
    have on := walled.region_iff stored (.receipts, row.receiptId) (by simp [schema, refs])
    exact on.trans (receipt owner)
  cases table with
  | users =>
      obtain ⟨row, stored, rfl⟩ := Option.map_eq_some_iff.mp owner
      exact Iff.rfl
  | sessions | authTokens | categories | tags | paymentMethods | receiptImages =>
      obtain ⟨row, stored, rfl⟩ := Option.map_eq_some_iff.mp owner
      exact walled.region_iff stored (.users, row.userId) (by simp [schema, refs])
  | receipts => exact receipt owner
  | items => exact item owner
  | itemTags =>
      obtain ⟨row, stored, owner⟩ := Option.bind_eq_some_iff.mp owner
      have on := walled.region_iff stored (.items, row.itemId) (by simp [schema, refs])
      exact on.trans (item owner)
  | advisory => cases owner

/-- The two databases hold the same rows of the user. -/
def SameFor (userId : ℕ) (left right : Db store) : Prop :=
  ∀ table id, ownerAt left table id = some userId ∨ ownerAt right table id = some userId →
    (left table).get id = (right table).get id

/-- No row that is another user's, before or after, has changed. -/
def OthersUntouched (userId : ℕ) (before after : Db store) : Prop :=
  ∀ table id other, other ≠ userId →
    ownerAt before table id = some other ∨ ownerAt after table id = some other →
      (after table).get id = (before table).get id

theorem SameFor.symm (same : SameFor userId left right) : SameFor userId right left :=
  fun table id owner => (same table id owner.symm).symm

instance (table : Table) : DecidableEq table.Row :=
  match table with
  | .users => inferInstanceAs (DecidableEq UserRow)
  | .sessions => inferInstanceAs (DecidableEq SessionRow)
  | .authTokens => inferInstanceAs (DecidableEq AuthTokenRow)
  | .categories => inferInstanceAs (DecidableEq CategoryRow)
  | .tags => inferInstanceAs (DecidableEq TagRow)
  | .paymentMethods => inferInstanceAs (DecidableEq PaymentMethodRow)
  | .receipts => inferInstanceAs (DecidableEq ReceiptRow)
  | .receiptImages => inferInstanceAs (DecidableEq ReceiptImageRow)
  | .items => inferInstanceAs (DecidableEq ItemRow)
  | .itemTags => inferInstanceAs (DecidableEq ItemTagRow)
  | .advisory => inferInstanceAs (DecidableEq Empty)

/-- It is enough to look at the ids in use. -/
theorem sameFor_of_below (checked : ∀ table ∈ (schema setup.lower).tables,
    ∀ id < max (left table).bound (right table).bound,
      ownerAt left table id = some userId ∨ ownerAt right table id = some userId →
        (left table).get id = (right table).get id) : SameFor userId left right := by
  intro table id owner
  have listed := (schema setup.lower).complete table
  by_cases below : id < max (left table).bound (right table).bound
  · exact checked table listed id below owner
  · rw [(left table).absent id (by omega), (right table).absent id (by omega)]

/-- What is the user's in one database is so in the other. -/
theorem SameFor.ownerAt (same : SameFor userId left right)
    (owner : ownerAt left table id = some userId) : ownerAt right table id = some userId := by
  have receipt : ∀ {receiptId : ℕ}, receiptOwner left receiptId = some userId →
      receiptOwner right receiptId = some userId := by
    intro receiptId owner
    have row := same .receipts receiptId (Or.inl owner)
    rw [receiptOwner, ← row]
    exact owner
  have item : ∀ {itemId : ℕ}, itemOwner left itemId = some userId →
      itemOwner right itemId = some userId := by
    intro itemId owner
    have row := same .items itemId (Or.inl owner)
    obtain ⟨item, stored, owned⟩ := Option.bind_eq_some_iff.mp owner
    rw [itemOwner, ← row, stored]
    exact receipt owned
  have row := same table id (Or.inl owner)
  cases table with
  | users | sessions | authTokens | categories | tags | paymentMethods | receiptImages =>
      simp only [ReceiptScanner.ownerAt, ← row] at owner ⊢
      exact owner
  | receipts => exact receipt owner
  | items => exact item owner
  | itemTags =>
      obtain ⟨tag, stored, owned⟩ := Option.bind_eq_some_iff.mp owner
      simp only [ReceiptScanner.ownerAt, ← row, stored, Option.bind_some]
      exact item owned
  | advisory => cases owner

/-- The rows of the user, and whatever ids are still to be given out, but to other users. -/
def estateOf (userId : ℕ) (db : Db store) (next : Table → ℕ) : Region store := fun table id =>
  ownerAt db table id = some userId ∨ (table = .users ∧ id = userId) ∨
    (table ≠ .users ∧ next table ≤ id)

theorem holdsOnly_estateOf (next : Table → ℕ) : HoldsOnly (estateOf userId db next) userId := by
  intro id
  constructor
  · rintro (owner | ⟨-, rfl⟩ | ⟨differ, -⟩)
    · obtain ⟨row, stored, rfl⟩ := Option.map_eq_some_iff.mp owner
      rfl
    · rfl
    · exact absurd rfl differ
  · rintro rfl
    exact Or.inr (Or.inl ⟨rfl, rfl⟩)

theorem estateOf_congr (same : SameFor userId left right) (next : Table → ℕ) :
    estateOf userId left next = estateOf userId right next := by
  funext table id
  refine propext (or_congr_left ?_)
  exact ⟨same.ownerAt, same.symm.ownerAt⟩

variable {next : Table → ℕ} (fresh : ∀ table id, next table ≤ id → (db table).get id = none)

include fresh in
/-- A stored row is on the side of its owner. -/
theorem mem_estateOf_iff {owner : ℕ} (owned : ownerAt db table id = some owner) :
    estateOf userId db next table id ↔ owner = userId := by
  obtain ⟨row, stored⟩ := stored_of_ownerAt owned
  constructor
  · rintro (mine | ⟨rfl, rfl⟩ | ⟨-, unused⟩)
    · exact Option.some.inj (owned.symm.trans mine)
    · obtain ⟨user, isUser, rfl⟩ := Option.map_eq_some_iff.mp owned
      rfl
    · simp [fresh table id unused] at stored
  · rintro rfl
    exact Or.inl owned

include fresh in
theorem walled_estateOf (owned : Owned db) :
    Walled (schema setup.lower) (estateOf userId db next) db where
  inside table id row stored here ref refers := by
    obtain ⟨owner, isOwner, names⟩ := owned table id row stored
    have mine := (mem_estateOf_iff fresh isOwner).mp here
    exact (mem_estateOf_iff fresh (names ref refers)).mpr mine
  outside table id row stored away ref refers target := by
    obtain ⟨owner, isOwner, names⟩ := owned table id row stored
    have mine := (mem_estateOf_iff fresh (names ref refers)).mp target
    exact away ((mem_estateOf_iff fresh isOwner).mpr mine)

/-- Two databases with the same rows of the user agree on the estate. -/
theorem SameFor.agree (same : SameFor userId left right)
    (leftFresh : ∀ table id, next table ≤ id → (left table).get id = none)
    (rightFresh : ∀ table id, next table ≤ id → (right table).get id = none) :
    Agree (estateOf userId left next) left right := by
  rintro table id (owner | ⟨rfl, rfl⟩ | ⟨-, unused⟩)
  · exact same table id (Or.inl owner)
  · cases isLeft : (left .users).get id with
    | some row =>
        have here := same .users id (Or.inl (by simp [ReceiptScanner.ownerAt, isLeft]))
        exact isLeft.symm.trans here
    | none =>
        cases isRight : (right .users).get id with
        | none => rfl
        | some row =>
            have here := same .users id (Or.inr (by simp [ReceiptScanner.ownerAt, isRight]))
            exact isLeft.symm.trans (here.trans isRight)
  · rw [leftFresh table id unused, rightFresh table id unused]

/-- Two walled databases that agree on a region that holds the user have the same rows of
the user. -/
theorem sameFor_of_agree (keeps : HoldsOnly region userId) (agree : Agree region left right)
    (leftWalled : Walled (schema setup.lower) region left)
    (rightWalled : Walled (schema setup.lower) region right) : SameFor userId left right := by
  rintro table id (owner | owner)
  · exact agree table id ((region_iff_of_ownerAt leftWalled owner).mpr ((keeps userId).mpr rfl))
  · exact agree table id ((region_iff_of_ownerAt rightWalled owner).mpr ((keeps userId).mpr rfl))

/-- What spares all but the region of the user leaves other users' rows alone. -/
theorem othersUntouched_of_spared {before after : Db store} (keeps : HoldsOnly region userId)
    (spared : Spared region after before) (walled : Walled (schema setup.lower) region before)
    (walled' : Walled (schema setup.lower) region after) :
    OthersUntouched userId before after := by
  rintro table id other differ (owner | owner)
  · exact spared table id fun here =>
      differ ((keeps other).mp ((region_iff_of_ownerAt walled owner).mp here))
  · exact spared table id fun here =>
      differ ((keeps other).mp ((region_iff_of_ownerAt walled' owner).mp here))

end Regions

end ReceiptScanner

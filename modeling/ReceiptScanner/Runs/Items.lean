import ReceiptScanner.Runs.Rules

/-!
# What the item operations promise

Items and their tags: one lemma for each helper, and for each operation the commit
it may end in.
-/

namespace ReceiptScanner

open ReadCommitted

variable {setup : Setup} {opening : Opening} {calls : List (Said outside)} {log : Log store outside}
  {scope scope' : Scope store outside}

namespace ItemService

/-- The kind comes from a row of the user's in the snapshot. -/
theorem returns_ownedReceiptKind {userId receiptId : ℕ} {kind : Kind}
    (clean : Log.Clean log .receipts)
    (ran : Returns setup opening.start (ownedReceiptKind .transaction userId receiptId)
      ⟨calls, .live log⟩ kind scope') :
    ∃ (entry : Entry store outside) (row : ReceiptRow),
      scope' = ⟨calls, .live (entry :: log)⟩ ∧ entry.writes = [] ∧
      (entry.snap.db .receipts).get receiptId = some row ∧ row.userId = userId ∧
      row.kind = kind := by
  obtain ⟨entry, ctx, stmt, first⟩ := returns_exec_bind.mp ran
  obtain ⟨found, rfl⟩ := returns_firstRow.mp first
  obtain ⟨id, row, stored, kept, rfl⟩ := stmt.mem_select clean (List.mem_of_head? found)
  simp only [Bool.and_eq_true, beq_iff_eq] at kept
  obtain ⟨rfl, owner⟩ := kept
  exact ⟨entry, row, rfl, stmt.writes_select, stored, owner, rfl⟩

/-- The item is the user's, and the commit stores it. -/
def Taggable (userId itemId : ℕ) (h : History store outside) (c : Commit store outside) : Prop :=
  OwnedItem h c itemId userId ∧ WritesItem c itemId

/-- The tag is the user's, and goes on an item that has to be. -/
theorem adds_addTag {userId itemId tagId : ℕ} (clean : CleanOf scope .tags)
    (live : ∃ log, scope.phase = .live log)
    (ran : Returns setup opening.start (addTag userId itemId tagId) scope ⟨⟩ scope') :
    Adds setup opening (Taggable userId itemId) [.itemTags] scope scope' := by
  obtain ⟨calls, phase⟩ := scope
  obtain ⟨log, rfl⟩ := live
  obtain ⟨looked, ctx, select, rest⟩ := returns_exec_bind.mp ran
  obtain ⟨_, found, rest⟩ := returns_firstRow_bind.mp rest
  obtain ⟨added, ctx', insert, rest⟩ := returns_exec_bind.mp rest
  obtain ⟨-, rfl⟩ := returns_pure.mp rest
  obtain ⟨id, tag, stored, kept, -⟩ := select.mem_select (clean log rfl) (List.mem_of_head? found)
  simp only [Bool.and_eq_true, beq_iff_eq] at kept
  obtain ⟨rfl, owner⟩ := kept
  obtain ⟨made, unused, locked, parents⟩ := insert.insert
  have onItem := (parents (.items, itemId) (by simp [schema, ReceiptScanner.refs])).1
  have looking : Log.writes [looked] = [] := by simp [select.writes_select]
  refine (Adds.silent looking).trans (Adds.single (by simp [made]) (singly_insert insert) ?_)
  have member : added ∈ added :: looked :: log := List.mem_cons_self
  have seen : looked ∈ added :: looked :: log := List.mem_cons_of_mem _ List.mem_cons_self
  rintro final h calls stop inside linked ⟨owned, written⟩ write isMade
  rw [made, List.mem_singleton] at isMade
  subst isMade
  have saw := Pledged.saw seen final h calls stop inside linked
  exact ItemTagWrote.tagged owned written
    (Pledged.locked member onItem final h calls stop inside linked)
    ⟨looked.snap, tag, saw.1, stored, owner⟩
    (Pledged.unused member locked unused final h calls stop inside linked)

/-- The tag rows of the item go. -/
theorem adds_deleteTags {userId itemId : ℕ} {entry : Entry store outside} {ctx : Ctx store}
    (delete : Entry.Ran (schema setup.lower) opening.start log.writes (deleteTags setup itemId)
      entry ctx) :
    Adds setup opening (Taggable userId itemId) [.itemTags] ⟨calls, .live log⟩
      ⟨calls, .live (entry :: log)⟩ := by
  have removed : ∀ write ∈ entry.writes, ∃ id before, write = ⟨.itemTags, id, none, .clearTags⟩ ∧
      before.itemId = itemId ∧ ⟨.itemTags, id, .update⟩ ∈ entry.locks ∧
      ((entry.cur.db .itemTags).get id = some before ∨
        ∃ label, ⟨.itemTags, id, some before, label⟩ ∈ log.writes) := by
    intro write made
    obtain ⟨id, before, found, kept, -, locked, rfl | cascaded⟩ := delete.of_delete made
    · exact ⟨id, before, rfl, by simpa using kept, locked, delete.cur_cases found⟩
    · exact absurd cascaded List.not_mem_nil
  refine Adds.single (fun write made => ?_) (singly_cons ?_ fun write made other => ?_)
    fun final h made stop inside linked given write sent => ?_
  · obtain ⟨id, before, rfl, -⟩ := removed write made
    exact List.mem_cons_self
  · exact singly_of_tags fun write made => by
      obtain ⟨id, before, rfl, -⟩ := removed write made
      rfl
  · obtain ⟨id, before, rfl, -⟩ := removed write made
    exact absurd rfl other
  · obtain ⟨id, before, rfl, rfl, locked, was⟩ := removed write sent
    refine ItemTagWrote.cleared (was.imp (fun stored => ?_) ?_) given.2
    · exact (Pledged.get List.mem_cons_self (by decide) locked final h made stop inside linked).trans
        stored
    · rintro ⟨label, member⟩
      obtain ⟨writer, isWriter, wrote⟩ := Log.mem_writes.mp member
      exact ⟨label, Pledged.wrote (List.mem_cons_of_mem _ isWriter) wrote final h made stop inside
        linked⟩

/-- The tag rows go, and the new ones are the user's. -/
theorem adds_replaceTags {userId itemId : ℕ} {tagIds : List ℕ} (clean : CleanOf scope .tags)
    (live : ∃ log, scope.phase = .live log)
    (ran : Returns setup opening.start (replaceTags setup userId itemId tagIds) scope ⟨⟩ scope') :
    Adds setup opening (Taggable userId itemId) [.itemTags] scope scope' := by
  obtain ⟨calls, phase⟩ := scope
  obtain ⟨log, rfl⟩ := live
  obtain ⟨entry, ctx, delete, rest⟩ := returns_exec_bind.mp ran
  have cleared : Adds setup opening (Taggable userId itemId) [.itemTags] ⟨calls, .live log⟩
      ⟨calls, .live (entry :: log)⟩ := adds_deleteTags delete
  have tagsClean : ∀ table ∈ [Table.tags], CleanOf ⟨calls, .live (entry :: log)⟩ table := by
    intro table member
    rw [List.mem_singleton.mp member]
    exact cleared.clean clean (by decide) ⟨log, rfl⟩
  exact cleared.trans (Adds.forM (by decide)
    (fun tagId _ scope scope' live clean added => adds_addTag (clean .tags (by simp)) live added)
    ⟨_, rfl⟩ tagsClean rest)

/-- The category is locked, the user's, and on the side of the kind. -/
theorem returns_requireCategoryFitsKind {userId categoryId : ℕ} {kind : Kind}
    (clean : Log.Clean log .categories)
    (ran : Returns setup opening.start (requireCategoryFitsKind userId categoryId kind)
      ⟨calls, .live log⟩ ⟨⟩ scope') :
    ∃ entry : Entry store outside, scope' = ⟨calls, .live (entry :: log)⟩ ∧ entry.writes = [] ∧
      Pledged opening (entry :: log) fun h c => CategoryFits h c userId kind (some categoryId) := by
  obtain ⟨entry, ctx, select, rest⟩ := returns_exec_bind.mp ran
  obtain ⟨isIncome, found, rest⟩ := returns_firstRow_bind.mp rest
  obtain ⟨passed, rfl⟩ := returns_ofExcept.mp rest
  obtain ⟨id, row, stored, kept, rfl, locked⟩ :=
    select.mem_selectLocked clean (List.mem_of_head? found)
  simp only [Bool.and_eq_true, beq_iff_eq] at kept
  obtain ⟨rfl, owner⟩ := kept
  have fits : row.isIncome = (rulesFor kind).usesIncomeCategories := by
    simpa [categoryFitsKind] using passed
  refine ⟨entry, rfl, select.writes_select, ?_⟩
  intro final h calls stop inside linked other same
  obtain rfl := Option.some.inj same
  have member : entry ∈ entry :: log := List.mem_cons_self
  have still := Pledged.get member (by decide) locked final h calls stop
    inside linked
  exact ⟨Pledged.locked member locked final h calls stop inside linked,
    row, still.trans stored, owner, fits⟩

/-- The category of an item, if it has one. -/
theorem returns_requireCategory {userId : ℕ} {kind : Kind} {categoryId : Option ℕ}
    (clean : Log.Clean log .categories)
    (ran : Returns setup opening.start
      (categoryId.forM fun id => requireCategoryFitsKind userId id kind)
      ⟨calls, .live log⟩ ⟨⟩ scope') :
    ∃ extra : Log store outside, scope' = ⟨calls, .live (extra ++ log)⟩ ∧
      Log.writes extra = [] ∧
      Pledged opening (extra ++ log) fun h c => CategoryFits h c userId kind categoryId := by
  cases categoryId with
  | none =>
      obtain ⟨-, rfl⟩ := returns_pure.mp ran
      exact ⟨[], rfl, rfl, fun _ _ _ _ _ _ id impossible => by simp at impossible⟩
  | some id =>
      obtain ⟨entry, rfl, silent, fits⟩ := returns_requireCategoryFitsKind clean ran
      exact ⟨[entry], rfl, by simp [silent], fits⟩

/-- One item with its tags. -/
theorem adds_insert {userId receiptId itemId : ℕ} {kind : Kind} {item : ItemInput}
    (clean : ∀ table ∈ [Table.tags, .categories], CleanOf scope table)
    (live : ∃ log, scope.phase = .live log)
    (ran : Returns setup opening.start (ItemService.insert setup userId receiptId kind item)
      scope itemId scope') :
    Adds setup opening
      (fun h c => OwnedReceipt h c receiptId userId ∧ KindKnown h c receiptId kind)
      [.items, .itemTags] scope scope' := by
  obtain ⟨calls, phase⟩ := scope
  obtain ⟨log, rfl⟩ := live
  obtain ⟨_, between, checked, rest⟩ := returns_bind.mp ran
  obtain ⟨extra, rfl, silent, fits⟩ :=
    returns_requireCategory (clean .categories (by simp) log rfl) checked
  obtain ⟨entry, ctx, insert, rest⟩ := returns_exec_bind.mp rest
  obtain ⟨_, between, replaced, rest⟩ := returns_bind.mp rest
  obtain ⟨rfl, rfl⟩ := returns_pure.mp rest
  obtain ⟨made, unused, locked, refs⟩ := insert.insert
  have parent := (refs (.receipts, receiptId) (by simp [schema, ReceiptScanner.refs, itemRow])).1
  have member : entry ∈ entry :: (extra ++ log) := List.mem_cons_self
  have stored : Adds setup opening
      (fun h c => OwnedReceipt h c receiptId userId ∧ KindKnown h c receiptId kind)
      [.items, .itemTags] ⟨calls, .live log⟩ ⟨calls, .live (entry :: (extra ++ log))⟩ := by
    refine (Adds.silent silent).trans (Adds.single (by simp [made]) (singly_insert insert) ?_)
    rintro final h calls stop inside linked ⟨owned, known⟩ write isMade
    rw [made, List.mem_singleton] at isMade
    subst isMade
    have fitting := fits.grow (List.suffix_cons entry _) final h calls stop inside linked
    exact ItemWrote.inserted owned known fitting
      (Pledged.locked member parent final h calls stop inside linked)
      (Pledged.unused member locked unused final h calls stop inside linked)
  have tagsClean := stored.clean (clean .tags (by simp)) (by decide) ⟨log, rfl⟩
  have inserted : (⟨.items, ctx.next .items, some (itemRow receiptId item), .insertItem⟩ :
      Write store) ∈ entry.writes := by simp [made]
  refine stored.trans (((adds_replaceTags tagsClean ⟨_, rfl⟩ replaced).under
    (Pledged.wrote member inserted) ?_).widen (by simp))
  exact fun h c wrote given => ⟨⟨_, given.1, Or.inr wrote⟩, _, _, wrote, Or.inl rfl⟩

/-- Reading an item back writes nothing. -/
theorem returns_fetchItem {itemId : ℕ} {item : Item}
    (ran : Returns setup opening.start (fetchItem .transaction itemId) ⟨calls, .live log⟩ item
      scope') :
    ∃ extra : Log store outside, scope' = ⟨calls, .live (extra ++ log)⟩ ∧
      Log.writes extra = [] := by
  obtain ⟨read, ctx, select, rest⟩ := returns_exec_bind.mp ran
  obtain ⟨_, -, rest⟩ := returns_firstRow_bind.mp rest
  obtain ⟨tags, ctx', query, rest⟩ := returns_exec_bind.mp rest
  obtain ⟨-, rfl⟩ := returns_pure.mp rest
  exact ⟨[tags, read], rfl, by simp [select.writes_select, query.writes_query]⟩

theorem adds_fetchItem {itemId : ℕ} {item : Item}
    (live : ∃ log, scope.phase = .live log)
    {given : History store outside → Commit store outside → Prop} {tables : List Table}
    (ran : Returns setup opening.start (fetchItem .transaction itemId) scope item scope') :
    Adds setup opening given tables scope scope' := by
  obtain ⟨calls, phase⟩ := scope
  obtain ⟨log, rfl⟩ := live
  obtain ⟨extra, rfl, silent⟩ := returns_fetchItem ran
  exact Adds.silent silent

/-- Each tag is inserted, as a row of its own. -/
theorem returns_addTags {userId itemId : ℕ} {tagIds : List ℕ}
    (ran : Returns setup opening.start (tagIds.forM (addTag userId itemId)) ⟨calls, .live log⟩ ⟨⟩
      scope') :
    ∃ extra : Log store outside, scope' = ⟨calls, .live (extra ++ log)⟩ ∧
      Apart (Log.writes extra) ∧
      (∀ change ∈ Log.writes extra, (∀ old ∈ Log.writes log, ¬ change.Touches old.table old.id) ∧
        ∃ id tagId, tagId ∈ tagIds ∧
          change = ⟨.itemTags, id, some ⟨itemId, tagId⟩, .insertTag⟩) ∧
      ∀ tagId ∈ tagIds, ∃ id,
        ⟨.itemTags, id, some ⟨itemId, tagId⟩, .insertTag⟩ ∈ Log.writes extra := by
  induction tagIds generalizing log with
  | nil =>
      obtain ⟨-, rfl⟩ := Svc.yields_forM_nil.mp ran
      exact ⟨[], rfl, Apart.nil, by simp, by simp⟩
  | cons tagId rest ih =>
      obtain ⟨between, first, second⟩ := Svc.yields_forM_cons.mp ran
      obtain ⟨looked, ctx, select, first⟩ := returns_exec_bind.mp first
      obtain ⟨_, -, first⟩ := returns_firstRow_bind.mp first
      obtain ⟨added, ctx', insert, first⟩ := returns_exec_bind.mp first
      obtain ⟨-, rfl⟩ := returns_pure.mp first
      obtain ⟨extra, rfl, apart, made, all⟩ := ih second
      have one : Log.writes [added, looked] =
          [⟨.itemTags, ctx'.next .itemTags, some ⟨itemId, tagId⟩, .insertTag⟩] := by
        simp [select.writes_select, insert.insert.1]
      have logged : Log.writes (added :: looked :: log) = Log.writes log ++
          [⟨.itemTags, ctx'.next .itemTags, some ⟨itemId, tagId⟩, .insertTag⟩] := by
        rw [← one, ← Log.writes_append]
        rfl
      refine ⟨extra ++ [added, looked], by simp, ?_, fun change member => ?_, fun other isOther => ?_⟩
      · rw [Log.writes_append, one]
        refine Apart.append_iff.mpr ⟨Apart.singleton _, apart, fun old isOld change member => ?_⟩
        exact (made change member).1 old (by rw [logged]; exact List.mem_append_right _ isOld)
      · rw [Log.writes_append, one] at member
        rcases List.mem_append.mp member with now | later
        · obtain rfl := List.mem_singleton.mp now
          refine ⟨fun old isOld touches => ?_, _, tagId, List.mem_cons_self, rfl⟩
          exact insert.insert_untouched
            (by rw [Log.writes_cons, select.writes_select, List.append_nil]; exact isOld)
            ⟨touches.1.symm, touches.2.symm⟩
        · obtain ⟨untouched, id, other, isOther, rfl⟩ := made change later
          refine ⟨fun old isOld => untouched old ?_, id, other, List.mem_cons_of_mem _ isOther, rfl⟩
          rw [logged]
          exact List.mem_append_left _ isOld
      · rw [Log.writes_append, one]
        rcases List.mem_cons.mp isOther with rfl | later
        · exact ⟨_, List.mem_append_left _ (List.mem_singleton.mpr rfl)⟩
        · obtain ⟨id, member⟩ := all other later
          exact ⟨id, List.mem_append_right _ member⟩

/-- The tags of the item are replaced. -/
theorem returns_replaceTags {userId itemId : ℕ} {tagIds : List ℕ}
    (ran : Returns setup opening.start (replaceTags setup userId itemId tagIds) ⟨calls, .live log⟩
      ⟨⟩ scope') :
    ∃ (extra : Log store outside) (cleared : Entry store outside) (ctx : Ctx store),
      scope' = ⟨calls, .live (extra ++ cleared :: log)⟩ ∧
      Entry.Ran (schema setup.lower) opening.start log.writes (deleteTags setup itemId) cleared ctx ∧
      Retags itemId tagIds (cleared.writes ++ Log.writes extra) := by
  obtain ⟨cleared, ctx, delete, rest⟩ := returns_exec_bind.mp ran
  obtain ⟨extra, rfl, apart, made, all⟩ := returns_addTags rest
  refine ⟨extra, cleared, ctx, rfl, delete, ?_, fun change member => ?_, fun tagId isTag => ?_⟩
  · refine Apart.append_iff.mpr ⟨delete.apart_delete fun _ => rfl, apart, fun old isOld change member =>
      (made change member).1 old ?_⟩
    rw [Log.writes_cons]
    exact List.mem_append_right _ isOld
  · rcases List.mem_append.mp member with old | new
    · obtain ⟨id, rfl | action⟩ := delete.delete_cases old
      · exact Or.inl ⟨id, rfl⟩
      · exact absurd action List.not_mem_nil
    · exact Or.inr (made change new).2
  · obtain ⟨id, isMade⟩ := all tagId isTag
    exact ⟨id, List.mem_append_right _ isMade⟩

section Inside

variable {ok : Guarantee store outside}

theorem inside_ownedReceiptKind (userId receiptId : ℕ) :
    Svc.Inside ok (ownedReceiptKind .transaction userId receiptId) :=
  Svc.inside_bind (inside_execSql _) fun _ => inside_firstRow _ _

theorem inside_addTag (userId itemId tagId : ℕ) :
    Svc.Inside ok (addTag userId itemId tagId) :=
  Svc.inside_bind (inside_execSql _) fun _ => Svc.inside_bind (inside_firstRow _ _) fun _ =>
    Svc.inside_bind (inside_execSql _) fun _ => Svc.inside_pure _

theorem inside_replaceTags (userId itemId : ℕ) (tagIds : List ℕ) :
    Svc.Inside ok (replaceTags setup userId itemId tagIds) :=
  Svc.inside_bind (inside_execSql _) fun _ => Svc.inside_forM _ fun _ => inside_addTag _ _ _

theorem inside_requireCategoryFitsKind (userId categoryId : ℕ) (kind : Kind) :
    Svc.Inside ok (requireCategoryFitsKind userId categoryId kind) :=
  Svc.inside_bind (inside_execSql _) fun _ => Svc.inside_bind (inside_firstRow _ _) fun _ =>
    inside_ofExcept _

theorem inside_insert (userId receiptId : ℕ) (kind : Kind) (item : ItemInput) :
    Svc.Inside ok (ItemService.insert setup userId receiptId kind item) :=
  Svc.inside_bind (Svc.inside_forM_option _ fun _ => inside_requireCategoryFitsKind _ _ _)
    fun _ => Svc.inside_bind (inside_execSql _) fun _ =>
      Svc.inside_bind (inside_replaceTags _ _ _) fun _ => Svc.inside_pure _

theorem inside_checkPatchedCategory (userId : ℕ) (kind : Kind) (body : Json) (item : ItemInput) :
    Svc.Inside ok (checkPatchedCategory userId kind body item) := by
  unfold checkPatchedCategory
  split
  · exact Svc.inside_forM_option _ fun _ => inside_requireCategoryFitsKind _ _ _
  · exact Svc.inside_pure _

theorem inside_fetchItem (itemId : ℕ) :
    Svc.Inside ok (fetchItem .transaction itemId) :=
  Svc.inside_bind (inside_execSql _) fun _ => Svc.inside_bind (inside_firstRow _ _) fun _ =>
    Svc.inside_bind (inside_execSql _) fun _ => Svc.inside_pure _

end Inside

/-- Where the item operations have the kind of the receipt from. -/
theorem known_of_first {extra : Log store outside} {entry : Entry store outside}
    {history : History store outside} {stop receiptId userId : ℕ} {row : ReceiptRow}
    (linked : Linked opening history (extra ++ [entry])) (silent : entry.writes = [])
    (stored : (entry.snap.db .receipts).get receiptId = some row) (owner : row.userId = userId)
    (alone : ∀ write ∈ Log.writes extra, write.table ≠ .receipts) :
    OwnedReceipt history (opening.commit calls (extra ++ [entry]) stop) receiptId userId ∧
      KindKnown history (opening.commit calls (extra ++ [entry]) stop) receiptId row.kind := by
  have seen := (saw_first linked).1
  refine ⟨⟨row, owner, Or.inl ⟨entry.snap, seen, stored⟩⟩,
    KindKnown.read seen (Log.head_spans extra entry) stored rfl ?_⟩
  intro write member
  have split : write ∈ Log.writes [entry] ++ Log.writes extra := by
    rwa [← Log.writes_append]
  rcases List.mem_append.mp split with first | later
  · simp [silent] at first
  · exact alone write later

/-- What follows the first statement of an item operation promises what it writes. -/
theorem wrote_of_first {entry : Entry store outside} {log' : Log store outside}
    {calls' : List (Said outside)} {history : History store outside} {stop receiptId userId : ℕ}
    {row : ReceiptRow} (silent : entry.writes = [])
    (stored : (entry.snap.db .receipts).get receiptId = some row) (owner : row.userId = userId)
    (adds : Adds setup opening
      (fun h c => OwnedReceipt h c receiptId userId ∧ KindKnown h c receiptId row.kind)
      [.items, .itemTags] ⟨calls, .live [entry]⟩ ⟨calls', .live log'⟩)
    (linked : Linked opening history log') :
    Promised setup history (opening.commit calls' log' stop) := by
  obtain ⟨extra, rfl, within⟩ := adds.added
  refine adds.due (by simp [silent]) linked ?_
  exact known_of_first linked silent stored owner fun write member same => by
    simpa [same] using within write member

/-- POST /receipts/:id/items keeps the promise. -/
theorem promises_create (userId receiptId : ℕ) (body : Json) :
    Promises (ledger setup) (create setup userId receiptId body) := by
  refine promises_ofExcept_bind fun input _ => promises_rollingBack ?_ ?_
  · exact Svc.inside_bind (inside_ownedReceiptKind _ _) fun _ =>
      Svc.inside_bind (inside_insert _ _ _ _) fun _ => inside_fetchItem _
  · intro opening item calls calls' log history stop _ ran linked _
    obtain ⟨kind, between, owned, rest⟩ := returns_bind.mp ran
    obtain ⟨entry, row, rfl, silent, stored, owner, rfl⟩ :=
      returns_ownedReceiptKind (Log.clean_nil _) owned
    obtain ⟨itemId, between, inserted, fetched⟩ := returns_bind.mp rest
    have clean : ∀ table, CleanOf ⟨calls, .live [entry]⟩ table := cleanOf_silent (by simp [silent])
    have first := adds_insert (fun table _ => clean table) ⟨_, rfl⟩ inserted
    obtain ⟨extra, after, -⟩ := first.2 _ rfl
    exact wrote_of_first silent stored owner (first.trans (adds_fetchItem ⟨_, after⟩ fetched)) linked

/-- The item as it was locked, rewritten with a category that fits or is unchanged. -/
theorem adds_updateItem {entry : Entry store outside} {ctx : Ctx store} {userId itemId : ℕ}
    {kind : Kind} {item : ItemInput} {before : ItemRow}
    (update : Entry.Ran (schema setup.lower) opening.start log.writes (updateItem itemId item)
      entry ctx) (clean : Log.Clean log .items)
    (stored : Pledged opening log fun h _ => (h.db .items).get itemId = some before)
    (fits : Pledged opening log fun h c =>
      item.categoryId = before.categoryId ∨ CategoryFits h c userId kind item.categoryId) :
    Adds setup opening
      (fun h c => OwnedReceipt h c before.receiptId userId ∧ KindKnown h c before.receiptId kind)
      [.items, .itemTags] ⟨calls, .live log⟩ ⟨calls, .live (entry :: log)⟩ := by
  refine Adds.single (fun write made => ?_)
    (singly_cons (singly_of_apart update.apart_update) fun write made _ => ?_) ?_
  · obtain ⟨id, row, rfl, -⟩ := update.mem_update clean made
    simp
  · obtain ⟨id, row, rfl, -⟩ := update.mem_update clean made
    exact clean
  · rintro final h calls stop inside linked ⟨owned, known⟩ write made
    obtain ⟨id, row, rfl, found, kept, locked⟩ := update.mem_update clean made
    obtain rfl : id = itemId := by simpa using kept
    have member : entry ∈ entry :: log := List.mem_cons_self
    have still := Pledged.get member (by decide) locked final h calls stop inside linked
    have earlier := stored.grow (List.suffix_cons entry log) final h calls stop inside linked
    have same : row = before := Option.some.inj ((still.trans found).symm.trans earlier)
    subst same
    exact ItemWrote.updated earlier owned known
      (fits.grow (List.suffix_cons entry log) final h calls stop inside linked)

/-- The category check of a PATCH. -/
theorem returns_checkPatchedCategory {userId : ℕ} {kind : Kind} {body : Json} {item : ItemInput}
    {current : Option ℕ} (clean : Log.Clean log .categories)
    (kept : body.contains "category_id" = false → item.categoryId = current)
    (ran : Returns setup opening.start (checkPatchedCategory userId kind body item)
      ⟨calls, .live log⟩ ⟨⟩ scope') :
    ∃ extra : Log store outside, scope' = ⟨calls, .live (extra ++ log)⟩ ∧
      Log.writes extra = [] ∧ Pledged opening (extra ++ log) fun h c =>
        item.categoryId = current ∨ CategoryFits h c userId kind item.categoryId := by
  unfold checkPatchedCategory at ran
  split at ran
  · obtain ⟨extra, rfl, silent, fits⟩ := returns_requireCategory clean ran
    exact ⟨extra, rfl, silent, fits.mono fun _ _ => Or.inr⟩
  · rename_i absent
    obtain ⟨-, rfl⟩ := returns_pure.mp ran
    exact ⟨[], rfl, rfl, fun _ _ _ _ _ _ => Or.inl (kept (by simpa using absent))⟩

/-- PATCH /receipts/:id/items/:item_id keeps any guarantee that allows the promised patch. -/
theorem promises_patch {regime : Regime} {userId receiptId itemId : ℕ} {body : Json}
    (commits : ∀ (h : History store outside) c, regime.who c.tid → Promised regime.setup h c →
      PatchedItem h c receiptId itemId body → regime.ok.commits h c) :
    Promises regime (update regime.setup userId receiptId itemId body) := by
  refine promises_rollingBack ?_ ?_
  · refine Svc.inside_bind (inside_ownedReceiptKind _ _) fun kind =>
      Svc.inside_bind (inside_execSql _) fun result =>
      Svc.inside_bind (inside_firstRow _ _) fun current =>
      Svc.inside_bind (inside_ofExcept _) fun patched => ?_
    obtain ⟨item, tagsGiven⟩ := patched
    refine Svc.inside_bind (inside_checkPatchedCategory _ _ _ _) fun _ =>
      Svc.inside_bind (inside_execSql _) fun _ => ?_
    cases tagsGiven
    · exact inside_fetchItem _
    · exact Svc.inside_bind (inside_replaceTags _ _ _) fun _ => inside_fetchItem _
  · intro opening item calls calls' log history stop who ran linked _
    obtain ⟨kind, between, owned, rest⟩ := returns_bind.mp ran
    obtain ⟨entry, row, rfl, silent, stored, owner, rfl⟩ :=
      returns_ownedReceiptKind (Log.clean_nil _) owned
    obtain ⟨lock, ctx, select, rest⟩ := returns_exec_bind.mp rest
    obtain ⟨current, found, rest⟩ := returns_firstRow_bind.mp rest
    obtain ⟨⟨item, tagsGiven⟩, applied, rest⟩ := returns_ofExcept_bind.mp rest
    obtain ⟨_, between, checked, rest⟩ := returns_bind.mp rest
    -- The item as it was locked, which it still is at the commit.
    obtain ⟨id, before, held, kept, rfl, locked⟩ :=
      select.mem_selectLocked (Log.clean_cons.mpr ⟨Log.clean_nil _, by simp [silent]⟩)
        (List.mem_of_head? found)
    simp only [Bool.and_eq_true, beq_iff_eq] at kept
    obtain ⟨rfl, rfl⟩ := kept
    have quiet : Log.writes [lock, entry] = [] := by simp [silent, select.writes_select]
    obtain ⟨extra, rfl, checkQuiet, fits⟩ := returns_checkPatchedCategory
      (by simp [Log.Clean, quiet]) (applyItemPatch_categoryId applied) checked
    obtain ⟨updated, ctx', update, rest⟩ := returns_exec_bind.mp rest
    have allQuiet : Log.writes (extra ++ [lock, entry]) = [] := by
      rw [Log.writes_append, quiet, checkQuiet, List.nil_append]
    have clean : ∀ table, Log.Clean (extra ++ [lock, entry]) table := by
      simp [Log.Clean, allQuiet]
    have isHeld : Pledged opening (extra ++ [lock, entry]) fun h _ =>
        (h.db .items).get id = some before :=
      (Pledged.get (by simp) (by decide) locked).mono fun _ _ same => same.trans held
    have rewritten : Adds regime.setup opening
        (fun h c => OwnedReceipt h c before.receiptId userId ∧
          KindKnown h c before.receiptId row.kind) [.items, .itemTags]
        ⟨calls, .live [entry]⟩ ⟨calls, .live (updated :: (extra ++ [lock, entry]))⟩ := by
      have locking : Log.writes [lock] = [] := by simp [select.writes_select]
      exact (Adds.silent locking).trans ((Adds.silent checkQuiet).trans
        (adds_updateItem update (clean _) isHeld fits))
    have pledged := pledged_rewritten (clean _) (by simp) locked held update
    cases tagsGiven with
    | false =>
        obtain ⟨more, same, read⟩ := returns_fetchItem rest
        obtain ⟨rfl, rfl⟩ := same
        obtain ⟨now, one, -⟩ := (pledged.grow (List.suffix_append more _)).due linked calls stop
        have writes : (opening.commit calls (more ++ updated :: (extra ++ [lock, entry]))
            stop).writes = [⟨.items, id, some (itemRow before.receiptId item), .updateItem⟩] := by
          simp [Opening.commit, Log.writes_append, read, allQuiet, one]
        exact commits _ _ who (wrote_of_first silent stored owner
          (rewritten.trans (Adds.silent read)) linked)
          (.intro now rfl applied writes (fun given => absurd given Bool.false_ne_true) fun _ => rfl)
    | true =>
        obtain ⟨_, between, replaced, fetched⟩ := returns_bind.mp rest
        have tagsClean := rewritten.clean (cleanOf_silent (by simp [silent]) .tags) (by decide)
          ⟨_, rfl⟩
        have tags : Adds regime.setup opening
            (fun h c => OwnedReceipt h c before.receiptId userId ∧
              KindKnown h c before.receiptId row.kind) [.items, .itemTags] _ between :=
          ((adds_replaceTags tagsClean ⟨_, rfl⟩ replaced).under pledged
            fun h c kept given => ⟨⟨before, given.1, Or.inl kept.1⟩, _, _, kept.2.2,
              Or.inr rfl⟩).widen (by simp)
        obtain ⟨tagged, cleared, ctx'', rfl, delete, retags⟩ := returns_replaceTags replaced
        obtain ⟨more, same, read⟩ := returns_fetchItem fetched
        obtain ⟨rfl, rfl⟩ := same
        have inside : cleared :: updated :: (extra ++ [lock, entry]) <:+
            more ++ (tagged ++ cleared :: updated :: (extra ++ [lock, entry])) :=
          (List.suffix_append tagged _).trans (List.suffix_append more _)
        obtain ⟨now, one, -⟩ := (pledged.grow ((List.suffix_cons cleared _).trans inside)).due
          linked calls stop
        have untagged : Log.Clean (updated :: (extra ++ [lock, entry])) .itemTags := by
          refine Log.clean_cons.mpr ⟨clean _, fun write made => ?_⟩
          obtain ⟨_, _, rfl, -⟩ := update.mem_update (clean _) made
          simp
        have swept := ((pledged_swept untagged (by simp) locked delete).grow inside).due linked
          calls stop
        have writes : (opening.commit calls (more ++ (tagged ++
            cleared :: updated :: (extra ++ [lock, entry]))) stop).writes =
            ⟨.items, id, some (itemRow before.receiptId item), .updateItem⟩ ::
              (cleared.writes ++ Log.writes tagged) := by
          simp [Opening.commit, Log.writes_append, read, one, checkQuiet, silent,
            select.writes_select]
        exact commits _ _ who (wrote_of_first silent stored owner
          (rewritten.trans (tags.trans (Adds.silent read))) linked)
          (.intro now rfl applied writes (fun _ => ⟨retags, swept⟩) fun given =>
            absurd given.symm Bool.false_ne_true)

/-- PATCH /receipts/:id/items/:item_id keeps the promise. -/
theorem promises_update (userId receiptId itemId : ℕ) (body : Json) :
    Promises (ledger setup) (update setup userId receiptId itemId body) :=
  promises_patch fun _ _ _ promised _ => promised

/-- A removed item takes its tags with it. -/
theorem wrote_deleteItem {entry : Entry store outside} {ctx : Ctx store} {itemId receiptId : ℕ}
    {calls : List (Said outside)} {stop : ℕ}
    (delete : Entry.RanFirst (schema setup.lower) opening.start (deleteItem setup itemId receiptId)
      entry ctx) :
    ∀ write ∈ entry.writes, Wrote setup entry.cur (opening.commit calls [entry] stop) write := by
  intro write made
  obtain ⟨id, before, stored, -, gone, -, rfl | cascaded⟩ := delete.mem_delete (Log.clean_nil _) made
  · exact ItemWrote.removed stored
  · obtain ⟨tagId, row, onItem, rfl, rfl⟩ := mem_onDeleteItem cascaded
    rw [delete.cur_table (Log.clean_nil _)] at onItem
    exact ItemTagWrote.cascaded onItem (Or.inl (by simpa [Opening.commit] using gone _ List.mem_cons_self))

/-- DELETE /receipts/:id/items/:item_id keeps the promise. -/
theorem promises_remove (userId receiptId itemId : ℕ) :
    Promises (ledger setup) (remove setup userId receiptId itemId) := by
  refine promises_bind (promises_bind (promises_read fun _ => rfl) fun _ => promises_firstRow _ _)
    fun _ => promises_bind (promises_write fun _ _ _ _ _ ran _ =>
      ⟨singly_delete ran fun _ _ => table_onDeleteItem, wrote_deleteItem ran⟩) fun _ =>
      promises_bind (promises_firstRow _ _) fun _ => promises_pure _

/-- GET /receipts/:id/items keeps the promise. -/
theorem promises_list (userId receiptId : ℕ) : Promises (ledger setup) (list userId receiptId) := by
  refine promises_bind (promises_bind (promises_read fun _ => rfl) fun _ => promises_firstRow _ _)
    fun _ => promises_bind (promises_read fun _ => rfl) fun _ =>
      promises_bind (promises_read fun _ => rfl) fun _ => promises_pure _

end ItemService

end ReceiptScanner

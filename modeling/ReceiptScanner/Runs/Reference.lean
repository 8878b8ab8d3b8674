import ReceiptScanner.Runs.Rules

/-!
# What the reference data and the accounts promise

Categories, tags and payment methods. A removal is one statement, whose ON DELETE
actions are promised with it. The account operations write no table of the ledger,
except that registration seeds the user's categories and payment method.
-/

namespace ReceiptScanner

open ReadCommitted

variable {setup : Setup} {opening : Opening} {calls : List (Said outside)} {log : Log store outside}
  {scope scope' : Scope store outside}

theorem rethrows_conflict {α : Type} (noun : String) : Rethrows fun raised : Err =>
    (if raised.isDuplicateKey then
      throw (.conflict ("a " ++ noun ++ " with that name already exists"))
    else throw raised : Task α) := rethrows_if

/-- A conflict is an exception like any other. -/
theorem promises_conflictIfDuplicate {α : Type} {noun : String} {body : Task α}
    (inside : Promises (ledger setup) body) :
    Promises (ledger setup) (conflictIfDuplicate noun body) :=
  promises_rethrow inside (rethrows_conflict noun)

/-- A new row of a table that is kept for its own sake. -/
theorem promises_insert {table : Table} {label : Label} {row : ℕ → table.Row}
    (promised : ∀ (h : History store outside) c id, Unused h table id →
      Wrote setup h c ⟨table, id, some (row c.start), label⟩) :
    Promises (ledger setup) (execSql .db (.insert label table row)) := by
  refine promises_write fun opening entry ctx calls stop ran _ =>
    ⟨by simpa using singly_insert ran singly_nil, fun write made => ?_⟩
  obtain ⟨written, unused, -⟩ := ran.insert
  rw [written, List.mem_singleton] at made
  subst made
  exact promised entry.cur (opening.commit calls [entry] stop) _ unused

/-- A plain UPDATE of rows that are kept for their own sake. -/
theorem promises_updateRows {β : Type} {table : Table} {label : Label}
    {keep : Db store → ℕ → table.Row → Bool} {set : ℕ → table.Row → table.Row}
    {returning : ℕ → table.Row → β}
    (promised : ∀ (h : History store outside) c snap id before,
      (h.db table).get id = some before → keep snap id before = true →
      Wrote setup h c ⟨table, id, some (set c.start before), label⟩) :
    Promises (ledger setup) (execSql .db (.update label table keep set returning)) := by
  refine promises_write fun opening entry ctx calls stop ran _ =>
    ⟨singly_of_apart ran.apart_update, fun write made => ?_⟩
  obtain ⟨id, before, rfl, stored, kept, -⟩ := ran.mem_update (Log.clean_nil _) made
  exact promised entry.cur (opening.commit calls [entry] stop) _ _ _ stored kept

/-- A plain DELETE, and the actions that it sets off. -/
theorem promises_removeRows {table : Table} {label : Label}
    {keep : Db store → ℕ → table.Row → Bool}
    (few : (∃ key, ∀ snap id row, keep snap id row = true → id = key) ∨
      ∀ (db : Db store) id, ∀ write ∈ onDelete db label table id, write.table = .itemTags)
    (removed : ∀ (h : History store outside) c id before, (h.db table).get id = some before →
      Wrote setup h c ⟨table, id, none, label⟩)
    (cascaded : ∀ (h : History store outside) c id write,
      (∀ other ∈ ⟨table, id, none, label⟩ :: onDelete h.db label table id, other ∈ c.writes) →
      write ∈ onDelete h.db label table id → Wrote setup h c write) :
    Promises (ledger setup) (execSql .db (.delete (schema setup.lower) label table keep)) := by
  refine promises_write fun opening entry ctx calls stop ran _ => ⟨?_, fun write made => ?_⟩
  · rcases few with ⟨key, only⟩ | tags
    · exact singly_deleteOne ran (only ctx.snap)
    · exact singly_delete ran (tags ctx.cur)
  obtain ⟨id, before, stored, -, gone, -, rfl | action⟩ := ran.mem_delete (Log.clean_nil _) made
  · exact removed _ _ _ _ stored
  · have committed : ctx.cur = entry.cur.db := by rw [ran.cur, Log.writes_nil, Db.writes_nil]
    rw [committed] at action gone
    exact cascaded _ _ id write (fun other member => by simpa [Opening.commit] using gone other member)
      action

theorem promises_removeOwned {noun : String} {delete : Stmt store (List ℕ)}
    (inside : Promises (ledger setup) (execSql .db delete)) : Promises (ledger setup) (removeOwned noun delete) :=
  promises_bind inside fun _ => promises_bind (promises_firstRow _ _) fun _ => promises_pure _

namespace CategoryService

theorem promises_list (userId : ℕ) : Promises (ledger setup) (list setup userId) :=
  promises_read fun _ => rfl

/-- POST /categories keeps the promise. -/
theorem promises_create (userId : ℕ) (body : Json) : Promises (ledger setup) (create userId body) :=
  promises_ofExcept_bind fun _ _ => promises_bind
    (promises_conflictIfDuplicate (promises_insert fun _ _ _ => CategoryWrote.created))
    fun _ => promises_pure _

/-- A clash test that passed has seen no item of the other side. -/
theorem flipChecked_of_selectClash {entry : Entry store outside} {ctx : Ctx store} {id : ℕ}
    {isIncome : Bool} (clean : ∀ table, Log.Clean log table)
    (ran : Entry.Ran (schema setup.lower) opening.start log.writes (selectClash id isIncome)
      entry ctx)
    (none : ((selectClash id isIncome ctx).result).isEmpty = true) :
    ∀ itemId, ∀ item : ItemRow, ∀ receipt : ReceiptRow,
      (entry.snap.db .items).get itemId = some item → item.categoryId = some id →
      (entry.snap.db .receipts).get item.receiptId = some receipt →
      (rulesFor receipt.kind).usesIncomeCategories = isIncome := by
  intro itemId item receipt stored used receiptStored
  rw [← ran.snap_table (clean _)] at stored receiptStored
  by_contra differs
  simp only [selectClash, Stmt.query, List.isEmpty_iff, List.map_eq_nil_iff,
    List.take_eq_nil_iff, one_ne_zero, false_or] at none
  have passes := List.filter_eq_nil_iff.mp none (itemId, item) (Rows.mem_list.mpr stored)
  simp [used, receiptStored, inIncomeKinds_eq, differs] at passes

/-- The flip test, once the category is locked. -/
theorem returns_checkFlip {lock : Entry store outside} {category : Category}
    {isIncome : Option Bool} (silent : lock.writes = [])
    (locked : ⟨.categories, category.id, .update⟩ ∈ lock.locks)
    (ran : Returns setup opening.start (checkFlip category isIncome) ⟨calls, .live [lock]⟩ ⟨⟩
      scope') :
    ∃ extra : Log store outside, scope' = ⟨calls, .live (extra ++ [lock])⟩ ∧
      Log.writes extra = [] ∧ Pledged opening (extra ++ [lock]) fun h _ =>
        isIncome.getD category.isIncome ≠ category.isIncome →
          FlipChecked h category.id (isIncome.getD category.isIncome) := by
  cases isIncome with
  | none =>
      obtain ⟨-, rfl⟩ := returns_pure.mp ran
      exact ⟨[], rfl, rfl, fun _ _ _ _ _ _ differs => absurd rfl differs⟩
  | some side =>
      by_cases flips : side ≠ category.isIncome
      · simp only [checkFlip, if_pos flips] at ran
        obtain ⟨entry, ctx, query, rest⟩ := returns_exec_bind.mp ran
        obtain ⟨passed, rfl⟩ := returns_ofExcept.mp rest
        simp only [rejectIf_eq_ok, Bool.not_eq_false'] at passed
        have unseen := flipChecked_of_selectClash (by simp [Log.Clean, silent]) query passed
        refine ⟨[entry], rfl, by simp [query.writes_query], ?_⟩
        exact (pledged_lockedSince (by simp) locked).mono fun _ _ held _ =>
          ⟨entry.snap, held.1, unseen⟩
      · simp only [checkFlip, if_neg flips] at ran
        obtain ⟨-, rfl⟩ := returns_pure.mp ran
        exact ⟨[], rfl, rfl, fun _ _ _ _ _ _ differs => absurd differs flips⟩

theorem inside_checkFlip (category : Category) (isIncome : Option Bool) :
    Svc.Inside (promise setup) (checkFlip category isIncome) := by
  unfold checkFlip
  split
  · exact Svc.inside_pure _
  · split
    · exact Svc.inside_bind (inside_execSql _) fun _ => inside_ofExcept _
    · exact Svc.inside_pure _

/-- PATCH /categories/:id keeps the promise. -/
theorem promises_update (userId id : ℕ) (body : Json) :
    Promises (ledger setup) (update userId id body) := by
  refine promises_ofExcept_bind fun ⟨name, isIncome⟩ _ => promises_transaction
    (inside_rethrow (Svc.inside_rollingBack ?_) (rethrows_conflict _))
    (abandons_rethrow (abandons_rollingBack _) (rethrows_conflict _)) ?_
  · exact Svc.inside_bind (inside_execSql _) fun _ => Svc.inside_bind (inside_firstRow _ _) fun _ =>
      Svc.inside_bind (inside_checkFlip _ _) fun _ => Svc.inside_bind (inside_execSql _) fun _ =>
        Svc.inside_pure _
  · intro opening category calls calls' log history stop _ ran linked _
    have ran := returns_rollingBack.mp ((returns_rethrow (rethrows_conflict _)).mp ran)
    obtain ⟨lock, ctx, select, rest⟩ := returns_exec_bind.mp ran
    obtain ⟨current, found, rest⟩ := returns_firstRow_bind.mp rest
    obtain ⟨_, between, checked, rest⟩ := returns_bind.mp rest
    obtain ⟨rowId, before, stored, kept, rfl, locked⟩ :=
      select.mem_selectLocked (Log.clean_nil _) (List.mem_of_head? found)
    simp only [Bool.and_eq_true, beq_iff_eq] at kept
    obtain ⟨rfl, -⟩ := kept
    obtain ⟨extra, rfl, quiet, flip⟩ := returns_checkFlip select.writes_select locked checked
    obtain ⟨updated, ctx', update, rest⟩ := returns_exec_bind.mp rest
    obtain ⟨rfl, same⟩ := returns_pure.mp rest
    obtain ⟨rfl, rfl⟩ := same
    have silent : Log.writes (extra ++ [lock]) = [] := by
      simp [Log.writes_append, quiet, select.writes_select]
    have made : Log.writes (updated :: (extra ++ [lock])) = updated.writes := by
      rw [Log.writes_cons, silent, List.nil_append]
    have once : Singly (Log.writes (updated :: (extra ++ [lock]))) :=
      made ▸ singly_of_apart update.apart_update
    refine ⟨once, fun write (member : write ∈ Log.writes _) => ?_⟩
    rw [made] at member
    obtain ⟨id', row, rfl, current, kept', relocked⟩ :=
      update.mem_update (by simp [Log.Clean, silent]) member
    obtain rfl : id' = rowId := by simpa [rowToCategory] using kept'
    -- The row that the UPDATE found is the one that was locked, and is committed.
    have first := (Pledged.get (by simp) (by decide) locked).due linked calls stop
    have second := (Pledged.get List.mem_cons_self (by decide) relocked).due linked calls stop
    have committed := first.trans stored
    obtain rfl : row = before := Option.some.inj ((second.trans current).symm.trans committed)
    exact CategoryWrote.updated committed
      ((flip.grow (List.suffix_cons updated _)).due linked calls stop)

/-- DELETE /categories/:id keeps the promise. -/
theorem promises_remove (userId id : ℕ) : Promises (ledger setup) (remove setup userId id) := by
  refine promises_removeOwned (promises_removeRows (Or.inl ⟨id, fun _ _ _ kept => ?_⟩)
    (fun _ _ _ _ => CategoryWrote.removed) ?_)
  · exact (beq_iff_eq.mp (Bool.and_eq_true_iff.mp kept).1)
  intro h c categoryId write gone action
  simp only [onDelete, mem_sweep] at action
  obtain ⟨itemId, item, stored, used, rfl⟩ := action
  exact ItemWrote.uncategorized stored (by simpa using used) (gone _ List.mem_cons_self)

end CategoryService

namespace TagService

theorem promises_list (userId : ℕ) : Promises (ledger setup) (list setup userId) :=
  promises_read fun _ => rfl

/-- POST /tags keeps the promise. -/
theorem promises_create (userId : ℕ) (body : Json) : Promises (ledger setup) (create userId body) :=
  promises_ofExcept_bind fun _ _ => promises_bind
    (promises_conflictIfDuplicate (promises_insert fun _ _ _ => TagWrote.created))
    fun _ => promises_pure _

/-- PATCH /tags/:id keeps the promise. -/
theorem promises_update (userId id : ℕ) (body : Json) : Promises (ledger setup) (update userId id body) :=
  promises_ofExcept_bind fun _ _ => promises_bind
    (promises_conflictIfDuplicate (promises_updateRows fun _ _ _ _ _ stored _ => TagWrote.updated stored))
    fun _ => promises_firstRow _ _

/-- DELETE /tags/:id keeps the promise. -/
theorem promises_remove (userId id : ℕ) : Promises (ledger setup) (remove setup userId id) := by
  refine promises_removeOwned (promises_removeRows (Or.inl ⟨id, fun _ _ _ kept => ?_⟩)
    (fun _ _ _ _ => TagWrote.removed) ?_)
  · exact (beq_iff_eq.mp (Bool.and_eq_true_iff.mp kept).1)
  intro h c tagId write gone action
  simp only [onDelete, mem_sweep] at action
  obtain ⟨rowId, row, stored, on, rfl⟩ := action
  obtain rfl : row.tagId = tagId := by simpa using on
  exact ItemTagWrote.cascaded stored (Or.inr (gone _ List.mem_cons_self))

end TagService

namespace PaymentMethodService

theorem promises_list (userId : ℕ) : Promises (ledger setup) (list setup userId) :=
  promises_read fun _ => rfl

/-- POST /payment-methods keeps the promise. -/
theorem promises_create (userId : ℕ) (body : Json) : Promises (ledger setup) (create userId body) :=
  promises_ofExcept_bind fun _ _ => promises_bind
    (promises_conflictIfDuplicate (promises_insert fun _ _ _ => PaymentMethodWrote.created))
    fun _ => promises_pure _

/-- PATCH /payment-methods/:id keeps the promise. -/
theorem promises_update (userId id : ℕ) (body : Json) : Promises (ledger setup) (update userId id body) :=
  promises_ofExcept_bind fun _ _ => promises_bind
    (promises_conflictIfDuplicate (promises_updateRows fun _ _ _ _ _ stored _ =>
      PaymentMethodWrote.updated stored rfl))
    fun _ => promises_firstRow _ _

/-- DELETE /payment-methods/:id keeps the promise. -/
theorem promises_remove (userId id : ℕ) : Promises (ledger setup) (remove setup userId id) := by
  refine promises_removeOwned
    (promises_removeRows (Or.inl ⟨id, fun _ _ _ kept => ?_⟩)
    (fun _ _ _ _ => PaymentMethodWrote.removed) ?_)
  · exact (beq_iff_eq.mp (Bool.and_eq_true_iff.mp kept).1)
  intro h c methodId write gone action
  simp only [onDelete, mem_sweep] at action
  obtain ⟨receiptId, row, stored, used, rfl⟩ := action
  exact ReceiptWrote.detached stored (by simpa using used) (gone _ List.mem_cons_self)

end PaymentMethodService

namespace AuthService

variable {given : History store outside → Commit store outside → Prop}

/-- A row that registration stores. -/
theorem adds_seed {table : Table} {label : Label} {row : ℕ → table.Row}
    {entry : Entry store outside} {ctx : Ctx store}
    (promised : ∀ (h : History store outside) c id now, Unused h table id →
      Wrote setup h c ⟨table, id, some (row now), label⟩)
    (insert : Entry.Ran (schema setup.lower) opening.start log.writes (.insert label table row)
      entry ctx) :
    Adds setup opening given [table] ⟨calls, .live log⟩ ⟨calls, .live (entry :: log)⟩ := by
  obtain ⟨made, unused, locked, -⟩ := insert.insert
  refine Adds.single (by simp [made]) (singly_insert insert)
    fun final h calls stop inside linked _ write isMade => ?_
  rw [made, List.mem_singleton] at isMade
  subst isMade
  exact promised _ _ _ _
    (Pledged.unused List.mem_cons_self locked unused final h calls stop inside linked)

/-- The categories of one side. -/
theorem adds_seedCategories {userId : ℕ} {isIncome : Bool} {names : List String}
    (live : ∃ log, scope.phase = .live log)
    (ran : Returns setup opening.start (List.forM names fun name => do
        let _ ← execSql .transaction (seedCategory userId isIncome name)) scope ⟨⟩ scope') :
    Adds setup opening given [.categories] scope scope' := by
  have apart : ∀ table ∈ ([] : List Table), table ∉ [Table.categories] := by simp
  refine Adds.forM apart (fun name _ scope scope' live _ ran => ?_) live (by simp) ran
  obtain ⟨calls, phase⟩ := scope
  obtain ⟨log, rfl⟩ := live
  obtain ⟨entry, ctx, insert, rest⟩ := returns_exec_bind.mp ran
  obtain ⟨-, rfl⟩ := returns_pure.mp rest
  exact adds_seed (fun _ _ _ _ => CategoryWrote.created) insert

theorem inside_seedCategories (userId : ℕ) (isIncome : Bool) (names : List String) :
    Svc.Inside (promise setup) (names.forM fun name => do
      let _ ← execSql .transaction (seedCategory userId isIncome name)) :=
  Svc.inside_forM _ fun _ => Svc.inside_bind (inside_execSql _) fun _ => Svc.inside_pure _

/-- Registration keeps the promise. -/
theorem promises_registerUser (email password : String) :
    Promises (ledger setup) (registerUser email password) := by
  refine promises_bind (promises_call (free_call (by simp))) fun passwordHash =>
    promises_transaction (inside_rethrow (Svc.inside_rollingBack ?_) rethrows_if)
      (abandons_rethrow (abandons_rollingBack _) rethrows_if) ?_
  · exact Svc.inside_bind (inside_execSql _) fun _ =>
      Svc.inside_bind (inside_seedCategories _ _ _) fun _ =>
      Svc.inside_bind (inside_seedCategories _ _ _) fun _ =>
      Svc.inside_bind (inside_execSql _) fun _ => Svc.inside_pure _
  · intro opening userId calls calls' log history stop _ ran linked _
    have ran := returns_rollingBack.mp ((returns_rethrow rethrows_if).mp ran)
    obtain ⟨user, ctx, insert, rest⟩ := returns_exec_bind.mp ran
    obtain ⟨_, first, expenses, rest⟩ := returns_bind.mp rest
    obtain ⟨_, second, incomes, rest⟩ := returns_bind.mp rest
    have stored : Adds setup opening (fun _ _ => True) [.users, .categories, .paymentMethods]
        ⟨calls, .live []⟩ ⟨calls, .live [user]⟩ :=
      (adds_seed (fun _ _ _ _ _ => by trivial) insert).widen (by simp)
    have spending : Adds setup opening (fun _ _ => True) [.users, .categories, .paymentMethods]
        ⟨calls, .live [user]⟩ first := (adds_seedCategories ⟨_, rfl⟩ expenses).widen (by simp)
    have earning : Adds setup opening (fun _ _ => True) [.users, .categories, .paymentMethods]
        first second := (adds_seedCategories (spending.live ⟨_, rfl⟩) incomes).widen (by simp)
    obtain ⟨between, live⟩ := earning.live (spending.live ⟨_, rfl⟩)
    obtain ⟨calls'', phase⟩ := second
    obtain rfl : phase = .live between := live
    obtain ⟨method, ctx', seed, rest⟩ := returns_exec_bind.mp rest
    obtain ⟨rfl, same⟩ := returns_pure.mp rest
    obtain ⟨rfl, rfl⟩ := same
    have paying : Adds setup opening (fun _ _ => True) [.users, .categories, .paymentMethods]
        ⟨calls', .live between⟩ ⟨calls', .live (method :: between)⟩ :=
      (adds_seed (fun _ _ _ _ => PaymentMethodWrote.created) seed).widen (by simp)
    exact (stored.trans (spending.trans (earning.trans paying))).due rfl linked trivial

/-- Signing in keeps the promise. -/
theorem promises_login (email password : String) : Promises (ledger setup) (login setup email password) := by
  refine promises_bind (promises_read fun _ => rfl) fun result => ?_
  cases result with
  | nil => exact promises_pure _
  | cons user rest =>
      refine promises_bind (promises_call (free_call (by simp))) fun verified => ?_
      cases verified
      · exact promises_pure _
      · exact promises_bind (promises_call (free_call (by simp))) fun _ =>
          promises_bind (promises_insert fun _ _ _ _ => trivial) fun _ => promises_pure _

theorem promises_validateSession (rawToken : String) :
    Promises (ledger setup) (validateSession setup rawToken) := by
  refine promises_bind (promises_read fun _ => rfl) fun result => ?_
  cases result with
  | nil => exact promises_pure _
  | cons userId rest =>
      refine promises_bind (promises_write fun opening entry ctx calls stop ran _ =>
        ⟨singly_of_apart ?_, fun write made => ?_⟩) fun _ => promises_pure _
      · rw [ran.writes]
        exact Apart.map (ctx.pairwise_targets _ _)
      rw [ran.writes] at made
      obtain ⟨_, -, rfl⟩ := List.mem_map.mp made
      trivial

/-- No row of the ledger hangs on a session or a token. -/
theorem promises_drop {table : Table} {label : Label} {keep : Db store → ℕ → table.Row → Bool}
    (account : table = .sessions ∨ table = .authTokens) :
    Promises (ledger setup) (execSql .db (.delete (schema setup.lower) label table keep)) := by
  rcases account with rfl | rfl
  · exact promises_removeRows (Or.inr fun _ _ _ action => absurd action List.not_mem_nil)
      (fun _ _ _ _ _ => trivial) fun _ _ _ _ _ action => absurd action List.not_mem_nil
  · exact promises_removeRows (Or.inr fun _ _ _ action => absurd action List.not_mem_nil)
      (fun _ _ _ _ _ => trivial) fun _ _ _ _ _ action => absurd action List.not_mem_nil

theorem promises_logout (rawToken : String) : Promises (ledger setup) (logout setup rawToken) :=
  promises_bind (promises_drop (Or.inl rfl)) fun _ => promises_pure _

theorem promises_requestPasswordReset (email : String) :
    Promises (ledger setup) (requestPasswordReset setup email) := by
  refine promises_bind (promises_read fun _ => rfl) fun result => ?_
  cases result with
  | nil => exact promises_call (free_call (by simp))
  | cons user rest =>
      exact promises_bind (promises_call (free_call (by simp))) fun _ =>
        promises_bind (promises_insert fun _ _ _ _ => trivial) fun _ => promises_pure _

/-- A statement about an account promises nothing. -/
theorem adds_account {table : Table} {entry : Entry store outside}
    (account : table = .users ∨ table = .sessions ∨ table = .authTokens)
    (clean : Log.Clean log table) (once : Singly entry.writes)
    (within : ∀ write ∈ entry.writes, write.table = table) :
    Adds setup opening given [table] ⟨calls, .live log⟩ ⟨calls, .live (entry :: log)⟩ := by
  refine Adds.single (fun write made => by simp [within write made])
    (singly_cons once fun write made _ => by rwa [within write made])
    fun _ _ _ _ _ _ _ write made => ?_
  have isTable := within write made
  obtain ⟨_, id, row, label⟩ := write
  simp only at isTable
  subst isTable
  rcases account with rfl | rfl | rfl <;> trivial

/-- Sessions or tokens go, and nothing with them. -/
theorem adds_drop {table : Table} {label : Label} {keep : Db store → ℕ → table.Row → Bool}
    {entry : Entry store outside} {ctx : Ctx store}
    (account : table = .sessions ∨ table = .authTokens) (clean : Log.Clean log table)
    (delete : Entry.Ran (schema setup.lower) opening.start log.writes
      (.delete (schema setup.lower) label table keep) entry ctx) :
    Adds setup opening given [table] ⟨calls, .live log⟩ ⟨calls, .live (entry :: log)⟩ := by
  have alone : ∀ db id, onDelete db label table id = [] := by
    rcases account with rfl | rfl <;> exact fun _ _ => rfl
  refine adds_account (Or.inr account) clean (singly_delete delete fun id write action => ?_)
    fun write made => ?_
  · simp [alone] at action
  · obtain ⟨id, rfl | action⟩ := delete.delete_cases made
    · rfl
    · have none : (schema setup.lower).onDelete ctx.cur table id label = [] := alone ctx.cur id
      simp [none] at action

/-- A password change writes no table of the ledger. It only raises when a statement
has failed, and then nothing is committed. -/
theorem promises_confirmPasswordReset (rawToken newPassword : String) :
    Promises (ledger setup) (confirmPasswordReset setup rawToken newPassword) := by
  refine promises_bind (promises_read fun _ => rfl) fun result => ?_
  cases result with
  | nil => exact promises_pure _
  | cons userId rest =>
      refine promises_bind (promises_call (free_call (by simp))) fun newHash =>
        promises_transaction ?_ ?_ ?_
      · exact Svc.inside_bind (inside_execSql _) fun _ => Svc.inside_bind (inside_execSql _)
          fun _ => Svc.inside_bind (inside_execSql _) fun _ => Svc.inside_pure _
      · exact abandons_bind (abandons_execSql _) fun _ => abandons_bind (abandons_execSql _)
          fun _ => abandons_bind (abandons_execSql _) fun _ => abandons_pure _
      · intro opening done calls calls' log history stop _ ran linked _
        obtain ⟨user, ctx, update, rest⟩ := returns_exec_bind.mp ran
        obtain ⟨sessions, ctx', drop, rest⟩ := returns_exec_bind.mp rest
        obtain ⟨token, ctx'', use, rest⟩ := returns_exec_bind.mp rest
        obtain ⟨-, same⟩ := returns_pure.mp rest
        obtain ⟨rfl, rfl⟩ := same
        have users : Adds setup opening (fun _ _ => True) [.users] ⟨calls, .live []⟩
            ⟨calls, .live [user]⟩ := by
          refine adds_account (by simp) (Log.clean_nil _) (singly_of_apart update.apart_update) ?_
          intro write made
          obtain ⟨id, before, rfl, -⟩ := update.mem_update (Log.clean_nil _) made
          rfl
        have ended : Adds setup opening (fun _ _ => True) [.sessions] ⟨calls, .live [user]⟩
            ⟨calls, .live [sessions, user]⟩ := adds_drop (Or.inl rfl)
          (users.clean (cleanOf_silent rfl _) (by decide) ⟨_, rfl⟩ _ rfl) drop
        have dropped : Adds setup opening (fun _ _ => True) [.users, .sessions] ⟨calls, .live []⟩
            ⟨calls, .live [sessions, user]⟩ :=
          (users.widen (by simp)).trans (ended.widen (by simp))
        have used : Adds setup opening (fun _ _ => True) [.authTokens] ⟨calls, .live [sessions, user]⟩
            ⟨calls, .live [token, sessions, user]⟩ := adds_drop (Or.inr rfl)
          (dropped.clean (cleanOf_silent rfl _) (by decide) ⟨_, rfl⟩ _ rfl) use
        have all : Adds setup opening (fun _ _ => True) [.users, .sessions, .authTokens]
            ⟨calls, .live []⟩ ⟨calls, .live [token, sessions, user]⟩ :=
          (dropped.widen (by simp)).trans (used.widen (by simp))
        exact all.due rfl linked trivial

theorem promises_requestEmailVerification (userId : ℕ) :
    Promises (ledger setup) (requestEmailVerification setup userId) :=
  promises_bind (promises_call (free_call (by simp))) fun _ =>
    promises_bind (promises_insert fun _ _ _ _ => trivial) fun _ => promises_pure _

theorem promises_confirmEmailVerification (rawToken : String) :
    Promises (ledger setup) (confirmEmailVerification setup rawToken) := by
  refine promises_bind (promises_read fun _ => rfl) fun result => ?_
  cases result with
  | nil => exact promises_pure _
  | cons userId rest =>
      exact promises_bind (promises_updateRows fun _ _ _ _ _ _ _ => trivial) fun _ =>
        promises_bind (promises_drop (Or.inr rfl)) fun _ => promises_pure _

end AuthService

end ReceiptScanner

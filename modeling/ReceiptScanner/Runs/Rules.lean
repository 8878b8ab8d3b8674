import ReceiptScanner.Runs.Promise

/-!
# Rules for the tasks of the repository

The wrappers of `Store.Task` read as the library's tasks, and `Adds` says what a
helper does inside a transaction: it appends statements that write only certain
tables and that promise what they write. Helpers compose by `Adds.trans`, loops by
`Adds.forM`.
-/

namespace ReceiptScanner

open ReadCommitted

/-- The task returns this value, from one scope to another. -/
def Returns (setup : Setup) (start : ℕ) {α : Type} (task : Task α) (scope : Scope store outside)
    (value : α) (scope' : Scope store outside) : Prop :=
  Svc.Yields (schema setup.lower) start task scope (.ok value) scope'

section Returns

variable {setup : Setup} {start : ℕ} {α β : Type} {scope scope' : Scope store outside}

theorem returns_bind {first : Task β} {rest : β → Task α} {value : α} :
    Returns setup start (first >>= rest) scope value scope' ↔
      ∃ middle between, Returns setup start first scope middle between ∧
        Returns setup start (rest middle) between value scope' := Svc.yields_bind

@[simp] theorem returns_pure {returned value : α} :
    Returns setup start (pure returned) scope value scope' ↔
      value = returned ∧ scope' = scope := by
  simp [Returns]

@[simp] theorem returns_throw {raised : Err} {value : α} :
    ¬ Returns setup start (throw raised) scope value scope' := by
  simp [Returns]

theorem returns_execSql {client : Client} {stmt : Stmt store β} {value : β} :
    Returns setup start (execSql client stmt) scope value scope' ↔
      ∃ log entry ctx, scope.phase = .live log ∧
        Entry.Ran (schema setup.lower) start log.writes stmt entry ctx ∧
        value = (stmt ctx).result ∧ scope' = ⟨scope.calls, .live (entry :: log)⟩ :=
  Svc.yields_exec

@[simp] theorem returns_ofExcept {result : Except Err α} {value : α} :
    Returns setup start (ofExcept result) scope value scope' ↔
      result = .ok value ∧ scope' = scope :=
  ⟨fun ran => ⟨ran.1, ran.2.symm⟩, fun ran => ⟨ran.1, ran.2.symm⟩⟩

/-- `firstRow` returns a row of the result. -/
theorem returns_firstRow {missing : Err} {rows : List α} {value : α} :
    Returns setup start (firstRow missing rows) scope value scope' ↔
      rows.head? = some value ∧ scope' = scope := by
  cases rows with
  | nil => simp [firstRow]
  | cons row rest => simp [firstRow, eq_comm]

theorem returns_rollingBack {body : Task α} {value : α} :
    Returns setup start (rollingBack body) scope value scope' ↔
      Returns setup start body scope value scope' := Svc.yields_rollingBack

@[simp] theorem returns_rollback :
    Returns setup start rollback scope () scope' ↔ scope' = ⟨scope.calls, .closed⟩ := by
  simp [Returns, rollback]

/-- An outside call returns one of its answers, and is recorded. -/
theorem returns_call {c : Call} {read : c.Reply → Except Err α} {value : α} :
    Returns setup start (Svc.call c read) scope value scope' ↔
      ∃ reply, read reply = .ok value ∧ scope' = ⟨⟨c, reply⟩ :: scope.calls, scope.phase⟩ := by
  simp only [Returns, Svc.yields_call, eq_comm]

/-- A statement, and what follows it. -/
theorem returns_exec_bind {client : Client} {stmt : Stmt store β} {rest : β → Task α} {value : α}
    {calls : List (Said outside)} {log : Log store outside} :
    Returns setup start (execSql client stmt >>= rest) ⟨calls, .live log⟩ value scope' ↔
      ∃ entry ctx, Entry.Ran (schema setup.lower) start log.writes stmt entry ctx ∧
        Returns setup start (rest (stmt ctx).result) ⟨calls, .live (entry :: log)⟩ value
          scope' := by
  rw [returns_bind]
  constructor
  · rintro ⟨_, _, sent, after⟩
    obtain ⟨log', entry, ctx, live, ran, rfl, rfl⟩ := returns_execSql.mp sent
    obtain rfl := Phase.live.inj live
    exact ⟨entry, ctx, ran, after⟩
  · rintro ⟨entry, ctx, ran, after⟩
    exact ⟨_, _, returns_execSql.mpr ⟨log, entry, ctx, rfl, ran, rfl, rfl⟩, after⟩

theorem returns_ofExcept_bind {result : Except Err β} {rest : β → Task α} {value : α} :
    Returns setup start (ofExcept result >>= rest) scope value scope' ↔
      ∃ middle, result = .ok middle ∧ Returns setup start (rest middle) scope value scope' := by
  rw [returns_bind]
  constructor
  · rintro ⟨middle, _, given, after⟩
    obtain ⟨found, rfl⟩ := returns_ofExcept.mp given
    exact ⟨middle, found, after⟩
  · rintro ⟨middle, found, after⟩
    exact ⟨middle, scope, returns_ofExcept.mpr ⟨found, rfl⟩, after⟩

theorem returns_firstRow_bind {missing : Err} {rows : List β} {rest : β → Task α} {value : α} :
    Returns setup start (firstRow missing rows >>= rest) scope value scope' ↔
      ∃ row, rows.head? = some row ∧ Returns setup start (rest row) scope value scope' := by
  rw [returns_bind]
  constructor
  · rintro ⟨row, _, given, after⟩
    obtain ⟨found, rfl⟩ := returns_firstRow.mp given
    exact ⟨row, found, after⟩
  · rintro ⟨row, found, after⟩
    exact ⟨row, scope, returns_firstRow.mpr ⟨found, rfl⟩, after⟩

/-- A handler that only throws, perhaps something else. -/
def Rethrows (handler : Err → Task α) : Prop := ∀ raised, ∃ other, handler raised = throw other

theorem rethrows_if {test : Err → Prop} [DecidablePred test] {other : Err} :
    Rethrows fun raised => (if test raised then throw other else throw raised : Task α) := by
  intro raised
  by_cases applies : test raised
  · exact ⟨other, if_pos applies⟩
  · exact ⟨raised, if_neg applies⟩

theorem returns_rethrow {body : Task α} {handler : Err → Task α} (rethrows : Rethrows handler)
    {value : α} :
    Returns setup start (tryCatch body handler) scope value scope' ↔
      Returns setup start body scope value scope' := by
  refine Svc.yields_tryCatch.trans ⟨?_, fun ran => Or.inl ⟨value, rfl, ran⟩⟩
  rintro (⟨other, same, ran⟩ | ⟨raised, between, -, handled⟩)
  · obtain rfl := Except.ok.inj same
    exact ran
  · obtain ⟨other, isThrow⟩ := rethrows raised
    rw [isThrow] at handled
    exact absurd (Svc.yields_throw.mp handled).1 (by simp)

end Returns

section Inside

variable {ok : Guarantee store outside} {α β : Type}

theorem inside_execSql (stmt : Stmt store β) : Svc.Inside ok (execSql .transaction stmt) :=
  Svc.inside_exec Err.sql stmt

theorem inside_ofExcept (result : Except Err α) : Svc.Inside ok (ofExcept result) := trivial

theorem inside_rethrow {body : Task α} {handler : Err → Task α} (inside : Svc.Inside ok body)
    (rethrows : Rethrows handler) : Svc.Inside ok (tryCatch body handler) := by
  refine Svc.inside_tryCatch inside fun raised => ?_
  obtain ⟨other, isThrow⟩ := rethrows raised
  rw [isThrow]
  exact Svc.inside_throw _

theorem inside_firstRow (missing : Err) (rows : List α) :
    Svc.Inside ok (firstRow missing rows) := by
  cases rows with
  | nil => exact Svc.inside_throw _
  | cons row rest => exact Svc.inside_pure _

end Inside

/-- In this scope, the transaction has not written the table. -/
def CleanOf (scope : Scope store outside) (table : Table) : Prop :=
  ∀ log, scope.phase = .live log → Log.Clean log table

theorem cleanOf_silent {calls : List (Said outside)} {log : Log store outside}
    (silent : Log.writes log = []) (table : Table) : CleanOf ⟨calls, .live log⟩ table := by
  intro log' live write member
  obtain rfl := Phase.live.inj live
  simp [silent] at member

section Singly

theorem singly_nil : Singly [] := Apart.nil

theorem singly_of_apart {changes : List (Write store)} (apart : Apart changes) : Singly changes :=
  apart.filter _

theorem singly_of_tags {changes : List (Write store)}
    (tags : ∀ change ∈ changes, change.table = .itemTags) : Singly changes := by
  have none : changes.filter (fun write => write.table ≠ Table.itemTags) = [] :=
    List.filter_eq_nil_iff.mpr fun write member => by simp [tags write member]
  rw [Singly, none]
  exact Apart.nil

theorem singly_append_iff {first second : List (Write store)} :
    Singly (first ++ second) ↔ Singly first ∧ Singly second ∧ ∀ change ∈ first, ∀ later ∈ second,
      change.table ≠ Table.itemTags → ¬ later.Touches change.table change.id := by
  simp only [Singly, List.filter_append, Apart.append_iff, List.mem_filter, decide_eq_true_eq]
  refine and_congr_right fun _ => and_congr_right fun _ => ⟨fun apart change old later new other => ?_,
    fun apart change old later new => apart change old.1 later new.1 old.2⟩
  by_cases isTag : later.table = Table.itemTags
  · rintro ⟨same, -⟩
    exact other (same.symm.trans isTag)
  · exact apart change ⟨old, other⟩ later ⟨new, isTag⟩

/-- A statement about tables that have not been written. -/
theorem singly_cons {entry : Entry store outside} {log : Log store outside}
    (once : Singly entry.writes)
    (clean : ∀ write ∈ entry.writes, write.table ≠ Table.itemTags → Log.Clean log write.table)
    (singly : Singly (Log.writes log)) : Singly (Log.writes (entry :: log)) := by
  rw [Log.writes_cons]
  refine singly_append_iff.mpr ⟨singly, once, fun write old later new other touches => ?_⟩
  have isTable : later.table ≠ Table.itemTags := touches.1 ▸ other
  exact clean later new isTable write old touches.1.symm

/-- An INSERT. -/
theorem singly_insert {setup : Setup} {start : ℕ} {entry : Entry store outside} {ctx : Ctx store}
    {log : Log store outside} {table : Table} {label : Label} {row : ℕ → table.Row}
    (ran : Entry.Ran (schema setup.lower) start log.writes (.insert label table row) entry ctx)
    (singly : Singly (Log.writes log)) : Singly (Log.writes (entry :: log)) := by
  rw [Log.writes_cons, ran.writes]
  refine singly_append_iff.mpr ⟨singly, singly_of_apart (Apart.singleton _), ?_⟩
  intro write old later new _
  obtain rfl := List.mem_singleton.mp new
  rintro ⟨same, sameId⟩
  exact ran.insert_untouched old ⟨same.symm, sameId.symm⟩

/-- Removed rows, each with actions on the tags of items alone. -/
theorem singly_flatMap {α : Type} {table : Table} {label : Label} {found : List (ℕ × α)}
    {actions : ℕ → List (Write store)}
    (different : found.Pairwise fun left right => left.1 ≠ right.1)
    (tags : ∀ id, ∀ write ∈ actions id, write.table = .itemTags) :
    Singly (found.flatMap fun item => ⟨table, item.1, none, label⟩ :: actions item.1) := by
  by_cases isTags : table = .itemTags
  · refine singly_of_tags fun write member => ?_
    obtain ⟨item, -, made⟩ := List.mem_flatMap.mp member
    rcases List.mem_cons.mp made with rfl | action
    · exact isTags
    · exact tags item.1 write action
  · have alone : ∀ id, (actions id).filter (fun write => write.table ≠ Table.itemTags) = [] :=
      fun id => List.filter_eq_nil_iff.mpr fun write member => by simp [tags id write member]
    have kept : (found.flatMap fun item => ⟨table, item.1, none, label⟩ :: actions item.1).filter
        (fun write => write.table ≠ Table.itemTags) =
        found.map fun item => (⟨table, item.1, none, label⟩ : Write store) := by
      rw [List.filter_flatMap, List.map_eq_flatMap]
      congr 1
      funext item
      rw [List.filter_cons, alone]
      simp [isTags]
    rw [Singly, kept]
    exact Apart.map different

/-- On an item hang its tags. -/
theorem mem_onDeleteItem {db : Db store} {label : Label} {itemId : ℕ} {write : Write store}
    (member : write ∈ onDeleteItem db label itemId) :
    ∃ (id : ℕ) (row : ItemTagRow), (db .itemTags).get id = some row ∧ row.itemId = itemId ∧
      write = ⟨.itemTags, id, none, label⟩ := by
  obtain ⟨id, row, stored, on, rfl⟩ := mem_sweep.mp member
  exact ⟨id, row, stored, by simpa using on, rfl⟩

theorem table_onDeleteItem {db : Db store} {label : Label} {itemId : ℕ} {write : Write store}
    (member : write ∈ onDeleteItem db label itemId) : write.table = .itemTags := by
  obtain ⟨_, _, -, -, rfl⟩ := mem_onDeleteItem member
  rfl

/-- A sweep visits each row once. -/
theorem singly_sweep {db : Db store} {label : Label} {table : Table} {keep : ℕ → table.Row → Bool}
    {set : table.Row → Option table.Row} : Singly (sweep db label table keep set) :=
  singly_of_apart (Apart.map ((db table).pairwise_list.filter _))

/-- A removed row and the actions that its removal sets off. -/
theorem singly_onDelete (db : Db store) (label : Label) (table : Table) (id : ℕ) :
    Singly (⟨table, id, none, label⟩ :: onDelete db label table id) := by
  have swept : ∀ (other : Table) (keep : ℕ → other.Row → Bool) set,
      other ≠ table → Singly (⟨table, id, none, label⟩ :: sweep db label other keep set) := by
    intro other keep set different
    refine singly_append_iff.mpr ⟨singly_of_apart (Apart.singleton ⟨table, id, none, label⟩),
      singly_sweep, fun first isFirst write member _ touches => ?_⟩
    obtain ⟨_, _, -, -, rfl⟩ := mem_sweep.mp member
    obtain rfl := List.mem_singleton.mp isFirst
    exact different touches.1
  cases table with
  | receipts =>
      have images := swept .receiptImages (fun _ row => row.receiptId == id) (fun _ => none)
        (by decide)
      have items : Singly (((db .items).list.filter fun item => item.2.receiptId == id).flatMap
          fun item => ⟨.items, item.1, none, label⟩ :: onDeleteItem db label item.1) :=
        singly_flatMap ((db .items).pairwise_list.filter _) fun _ _ => table_onDeleteItem
      have ofItems : ∀ write ∈ (((db .items).list.filter fun item => item.2.receiptId == id).flatMap
          fun item => ⟨.items, item.1, none, label⟩ :: onDeleteItem db label item.1),
          write.table = .items ∨ write.table = .itemTags := by
        intro write member
        obtain ⟨item, -, made⟩ := List.mem_flatMap.mp member
        rcases List.mem_cons.mp made with rfl | action
        · exact Or.inl rfl
        · exact Or.inr (table_onDeleteItem action)
      have ofImages : ∀ write ∈ sweep db label .receiptImages (fun _ row => row.receiptId == id)
          (fun _ => none), write.table = .receiptImages := by
        intro write member
        obtain ⟨_, _, -, -, rfl⟩ := mem_sweep.mp member
        rfl
      simp only [onDelete, ← List.cons_append]
      refine singly_append_iff.mpr ⟨singly_append_iff.mpr ⟨images, items, ?_⟩, singly_sweep, ?_⟩
      · intro first before later after _ touches
        have sameTable := touches.1
        rcases List.mem_cons.mp before with rfl | isImage
        · rcases ofItems later after with isItem | isItem <;> simp [isItem] at sameTable
        · rw [ofImages first isImage] at sameTable
          rcases ofItems later after with isItem | isItem <;> simp [isItem] at sameTable
      · intro first before later after _ touches
        obtain ⟨other, row, -, linked, rfl⟩ := mem_sweep.mp after
        have sameTable := touches.1
        rcases List.mem_append.mp before with early | isItem
        · rcases List.mem_cons.mp early with rfl | isImage
          · simp only [Bool.and_eq_true, bne_iff_ne] at linked
            exact linked.1 touches.2
          · simp [ofImages first isImage] at sameTable
        · rcases ofItems first isItem with isItem | isItem <;> simp [isItem] at sameTable
  | categories | tags | paymentMethods | items =>
      simp only [onDelete]
      exact swept _ _ _ (by decide)
  | _ => exact singly_of_apart (Apart.singleton _)

/-- A DELETE of rows on which nothing but the tags of items hangs. -/
theorem singly_delete {setup : Setup} {start : ℕ} {entry : Entry store outside} {ctx : Ctx store}
    {prior : List (Write store)} {table : Table} {label : Label}
    {keep : Db store → ℕ → table.Row → Bool}
    (ran : Entry.Ran (schema setup.lower) start prior
      (.delete (schema setup.lower) label table keep) entry ctx)
    (tags : ∀ id, ∀ write ∈ onDelete ctx.cur label table id, write.table = .itemTags) :
    Singly entry.writes := by
  rw [ran.writes]
  exact singly_flatMap (ctx.pairwise_targets table keep) tags

/-- A DELETE of one row. -/
theorem singly_deleteOne {setup : Setup} {start : ℕ} {entry : Entry store outside} {ctx : Ctx store}
    {prior : List (Write store)} {table : Table} {label : Label} {key : ℕ}
    {keep : Db store → ℕ → table.Row → Bool}
    (ran : Entry.Ran (schema setup.lower) start prior
      (.delete (schema setup.lower) label table keep) entry ctx)
    (only : ∀ id row, keep ctx.snap id row = true → id = key) : Singly entry.writes := by
  rw [ran.writes, Stmt.delete]
  rcases ctx.targets_of_id only with none | ⟨row, one⟩
  · rw [none]
    exact singly_nil
  · rw [one, List.flatMap_singleton]
    exact singly_onDelete ctx.cur label table key

end Singly

/-- Between the two scopes the transaction wrote only these tables, and no row twice,
asked for no scan, and, if the commit satisfies `given`, promises of it all that it
wrote. -/
def Adds (setup : Setup) (opening : Opening)
    (given : History store outside → Commit store outside → Prop) (tables : List Table)
    (scope scope' : Scope store outside) : Prop :=
  lastScan scope'.calls = lastScan scope.calls ∧
  ∀ log, scope.phase = .live log → ∃ extra, scope'.phase = .live (extra ++ log) ∧
    (∀ write ∈ Log.writes extra, write.table ∈ tables) ∧
    (Singly (Log.writes log) → Singly (Log.writes (extra ++ log))) ∧
    Pledged opening (extra ++ log) fun h c =>
      given h c → ∀ write ∈ Log.writes extra, Wrote setup h c write

namespace Adds

variable {setup : Setup} {opening : Opening}
  {given given' : History store outside → Commit store outside → Prop}
  {tables tables' : List Table} {scope middle scope' : Scope store outside} {calls : List (Said outside)}

theorem refl : Adds setup opening given tables scope scope := ⟨rfl, fun _ live =>
  ⟨[], live, fun _ member => absurd member List.not_mem_nil, id,
    fun _ _ _ _ _ _ _ _ member => absurd member List.not_mem_nil⟩⟩

theorem trans (first : Adds setup opening given tables scope middle)
    (second : Adds setup opening given tables middle scope') :
    Adds setup opening given tables scope scope' := by
  refine ⟨second.1.trans first.1, fun log live => ?_⟩
  obtain ⟨extra, between, within, singly, promised⟩ := first.2 log live
  obtain ⟨more, after, alsoWithin, alsoSingly, alsoPromised⟩ := second.2 (extra ++ log) between
  refine ⟨more ++ extra, by rw [after, List.append_assoc], ?_, fun once => ?_, ?_⟩
  · intro write member
    rw [Log.writes_append] at member
    rcases List.mem_append.mp member with old | new
    · exact within write old
    · exact alsoWithin write new
  · rw [List.append_assoc]
    exact alsoSingly (singly once)
  · rw [List.append_assoc]
    intro final history calls stop inside linked holds write member
    rw [Log.writes_append] at member
    rcases List.mem_append.mp member with old | new
    · exact promised.grow (List.suffix_append _ _) final history calls stop inside linked holds
        write old
    · exact alsoPromised final history calls stop inside linked holds write new

theorem widen (adds : Adds setup opening given tables scope scope')
    (subset : ∀ table ∈ tables, table ∈ tables') :
    Adds setup opening given tables' scope scope' := by
  refine ⟨adds.1, fun log live => ?_⟩
  obtain ⟨extra, after, within, rest⟩ := adds.2 log live
  exact ⟨extra, after, fun write member => subset _ (within write member), rest⟩

/-- What the log has pledged may be used for the condition. -/
theorem under {log : Log store outside} {fact : History store outside → Commit store outside → Prop}
    (adds : Adds setup opening given tables ⟨calls, .live log⟩ scope')
    (pledged : Pledged opening log fact) (implies : ∀ h c, fact h c → given' h c → given h c) :
    Adds setup opening given' tables ⟨calls, .live log⟩ scope' := by
  refine ⟨adds.1, fun log' live => ?_⟩
  obtain rfl := Phase.live.inj live
  obtain ⟨extra, after, within, singly, promised⟩ := adds.2 log rfl
  refine ⟨extra, after, within, singly, fun final h calls stop inside linked holds => ?_⟩
  refine promised final h calls stop inside linked (implies h _ ?_ holds)
  exact pledged.grow (List.suffix_append _ _) final h calls stop inside linked

/-- A table that is not written stays clean. -/
theorem clean (adds : Adds setup opening given tables scope scope') {table : Table}
    (before : CleanOf scope table) (other : table ∉ tables)
    (live : ∃ log, scope.phase = .live log) : CleanOf scope' table := by
  obtain ⟨log, live⟩ := live
  obtain ⟨extra, after, within, -⟩ := adds.2 log live
  intro log' live'
  rw [after] at live'
  obtain rfl := Phase.live.inj live'
  exact Log.clean_append.mpr ⟨before log live, fun write member same =>
    other (same ▸ within write member)⟩

/-- One statement. -/
theorem single {entry : Entry store outside} {log : Log store outside}
    (within : ∀ write ∈ entry.writes, write.table ∈ tables)
    (singly : Singly (Log.writes log) → Singly (Log.writes (entry :: log)))
    (promised : Pledged opening (entry :: log) fun h c =>
      given h c → ∀ write ∈ entry.writes, Wrote setup h c write) :
    Adds setup opening given tables ⟨calls, .live log⟩ ⟨calls, .live (entry :: log)⟩ := by
  refine ⟨rfl, fun log' live => ?_⟩
  obtain rfl := Phase.live.inj live
  exact ⟨[entry], rfl, by simpa using within, singly, by simpa using promised⟩

/-- Statements that write nothing. -/
theorem silent {extra log : Log store outside} (silent : Log.writes extra = []) :
    Adds setup opening given tables ⟨calls, .live log⟩ ⟨calls, .live (extra ++ log)⟩ := by
  refine ⟨rfl, fun log' live => ?_⟩
  obtain rfl := Phase.live.inj live
  exact ⟨extra, rfl, by simp [silent], by simp [Log.writes_append, silent],
    fun _ _ _ _ _ _ _ write member => by simp [silent] at member⟩

/-- A loop, whose rounds read tables that they do not write. -/
theorem forM {α : Type} {round : α → Task PUnit} {items : List α} {reads : List Table}
    (apart : ∀ table ∈ reads, table ∉ tables)
    (step : ∀ item ∈ items, ∀ scope scope', (∃ log, Scope.phase scope = .live log) →
      (∀ table ∈ reads, CleanOf scope table) →
      Returns setup opening.start (round item) scope ⟨⟩ scope' →
      Adds setup opening given tables scope scope')
    (live : ∃ log, scope.phase = .live log) (clean : ∀ table ∈ reads, CleanOf scope table)
    (ran : Returns setup opening.start (items.forM round) scope ⟨⟩ scope') :
    Adds setup opening given tables scope scope' := by
  induction items generalizing scope with
  | nil =>
      obtain ⟨-, rfl⟩ := Svc.yields_forM_nil.mp ran
      exact refl
  | cons item rest ih =>
      obtain ⟨between, first, second⟩ := Svc.yields_forM_cons.mp ran
      have head := step item List.mem_cons_self scope between live clean first
      obtain ⟨log, live⟩ := live
      obtain ⟨extra, after, -⟩ := head.2 log live
      exact head.trans (ih (fun other member => step other (List.mem_cons_of_mem _ member))
        ⟨_, after⟩ (fun table member => head.clean (clean table member) (apart table member)
          ⟨log, live⟩) second)

theorem live (adds : Adds setup opening given tables scope scope')
    (before : ∃ log, scope.phase = .live log) : ∃ log, scope'.phase = .live log := by
  obtain ⟨log, before⟩ := before
  obtain ⟨extra, after, -⟩ := adds.2 log before
  exact ⟨_, after⟩

/-- The log at the end is the log at the beginning and what was added. -/
theorem added {log log' : Log store outside} {calls' : List (Said outside)}
    (adds : Adds setup opening given tables ⟨calls, .live log⟩ ⟨calls', .live log'⟩) :
    ∃ extra, log' = extra ++ log ∧ ∀ write ∈ Log.writes extra, write.table ∈ tables := by
  obtain ⟨extra, after, within, -⟩ := adds.2 log rfl
  exact ⟨extra, Phase.live.inj after, within⟩

/-- What was added is promised, whatever else the transaction still does. -/
theorem pledged {log log' : Log store outside} {calls' : List (Said outside)}
    (adds : Adds setup opening given tables ⟨calls, .live log⟩ ⟨calls', .live log'⟩)
    (silent : Log.writes log = []) :
    Pledged opening log' fun h c => given h c → ∀ write ∈ Log.writes log', Wrote setup h c write := by
  obtain ⟨extra, after, -, -, promised⟩ := adds.2 log rfl
  obtain rfl := Phase.live.inj after
  rw [Log.writes_append, silent, List.nil_append]
  exact promised

/-- What was added is promised at the commit. -/
theorem due {log log' : Log store outside} {calls' final : List (Said outside)}
    (adds : Adds setup opening given tables ⟨calls, .live log⟩ ⟨calls', .live log'⟩)
    (silent : Log.writes log = []) {history : History store outside}
    (linked : Linked opening history log') {stop : ℕ}
    (holds : given history (opening.commit final log' stop)) :
    Promised setup history (opening.commit final log' stop) where
  singly := by
    obtain ⟨extra, after, -, singly, -⟩ := adds.2 log rfl
    obtain rfl := Phase.live.inj after
    exact singly (silent ▸ singly_nil)
  wrote := (adds.pledged silent).due linked final stop holds

end Adds

/-- A statement on the plain client is all that its commit promises. -/
theorem promised_of_entry {setup : Setup} {opening : Opening} {entry : Entry store outside}
    {h : History store outside} {calls : List (Said outside)} {stop : ℕ}
    (singly : Singly entry.writes)
    (wrote : ∀ write ∈ entry.writes, Wrote setup h (opening.commit calls [entry] stop) write) :
    Promised setup h (opening.commit calls [entry] stop) := ⟨singly, wrote⟩

/-- The row that the first statement of a transaction saw. -/
theorem saw_first {opening : Opening} {extra : Log store outside} {entry : Entry store outside}
    {history : History store outside} (linked : Linked opening history (extra ++ [entry])) :
    entry.snap <:+ history ∧ entry.cur <:+ history ∧ entry.snap <:+ entry.cur := by
  have member : entry ∈ extra ++ [entry] := by simp
  exact ⟨(linked.spanned entry member).trans (linked.past entry member), linked.past entry member,
    linked.spanned entry member⟩

/-- A row that one statement locked stays locked while a later statement runs. -/
theorem pledged_lockedSince {opening : Opening} {log : Log store outside}
    {earlier later : Entry store outside} {table : Table} {id : ℕ} (member : earlier ∈ log)
    (taken : ⟨table, id, .update⟩ ∈ earlier.locks) :
    Pledged opening (later :: log) fun h _ =>
      LockedSince h table id later.snap ∧ later.snap <:+ later.cur ∧ later.cur <:+ h := by
  intro final h calls stop inside linked
  have here : later ∈ final := inside.subset List.mem_cons_self
  have before := inside.subset (List.mem_cons_of_mem later member)
  have order := List.pairwise_cons.mp (linked.ordered.sublist inside.sublist)
  have span := linked.spanned later here
  have past := linked.past later here
  exact ⟨⟨span.trans past, earlier.cur, order.1 earlier member,
    (linked.held earlier before).mono (List.cons_subset.mpr ⟨taken, List.nil_subset _⟩)⟩, span, past⟩

/-- A row that one statement locked is there while a later statement runs. -/
theorem present_of_locked {opening : Opening} {h : History store outside}
    {log : Log store outside} {earlier later : Entry store outside} {table : Table} {id : ℕ}
    {mode : LockMode} (linked : Linked opening h (later :: log)) (member : earlier ∈ log)
    (taken : ⟨table, id, mode⟩ ∈ earlier.locks)
    (stored : (earlier.cur.db table).get id ≠ none) :
    (later.snap.db table).get id ≠ none ∧ (later.cur.db table).get id ≠ none := by
  have before := (List.pairwise_cons.mp linked.ordered).1 earlier member
  have span := linked.spanned later List.mem_cons_self
  have past := linked.past later List.mem_cons_self
  have held := linked.held earlier (List.mem_cons_of_mem later member)
  exact ⟨(held.until (span.trans past)).get_ne_none before taken stored,
    (held.until past).get_ne_none (before.trans span) taken stored⟩

/-- A row that one statement locked is the same while a later statement runs, and at
the commit. -/
theorem same_of_locked {opening : Opening} {h : History store outside}
    {log : Log store outside} {earlier later : Entry store outside} {table : Table} {id : ℕ}
    {mode : LockMode} (linked : Linked opening h (later :: log)) (member : earlier ∈ log)
    (strong : mode ≠ .keyShare) (taken : ⟨table, id, mode⟩ ∈ earlier.locks) :
    (later.snap.db table).get id = (earlier.cur.db table).get id ∧
      (later.cur.db table).get id = (earlier.cur.db table).get id ∧
      (h.db table).get id = (earlier.cur.db table).get id := by
  have before := (List.pairwise_cons.mp linked.ordered).1 earlier member
  have span := linked.spanned later List.mem_cons_self
  have past := linked.past later List.mem_cons_self
  have held := linked.held earlier (List.mem_cons_of_mem later member)
  exact ⟨(held.until (span.trans past)).get before strong taken,
    (held.until past).get (before.trans span) strong taken,
    held.get ((before.trans span).trans past) strong taken⟩

/-- An UPDATE of the row that an earlier statement locked rewrites just that row. -/
theorem pledged_rewritten {setup : Setup} {opening : Opening} {log : Log store outside} {β : Type}
    {table : Table} {id : ℕ} {row : table.Row} {label : Label} {set : ℕ → table.Row → table.Row}
    {returning : ℕ → table.Row → β} {lock entry : Entry store outside} {ctx : Ctx store}
    (clean : Log.Clean log table) (member : lock ∈ log)
    (taken : ⟨table, id, .update⟩ ∈ lock.locks) (stored : (lock.cur.db table).get id = some row)
    (update : Entry.Ran (schema setup.lower) opening.start log.writes
      (Stmt.update label table (fun _ other _ => other == id) set returning) entry ctx) :
    Pledged opening (entry :: log) fun h c => (h.db table).get id = some row ∧
      entry.writes = [⟨table, id, some (set opening.start row), label⟩] ∧
      ⟨table, id, some (set opening.start row), label⟩ ∈ c.writes := by
  intro final h made stop inside linked
  obtain ⟨inSnap, inCur, now⟩ :=
    same_of_locked (linked.of_suffix inside) member (by decide) taken
  rw [stored] at inSnap inCur now
  rw [← update.snap_table clean] at inSnap
  rw [← update.cur_table clean] at inCur
  have hit := update.update_hit inSnap (by simp) inCur (by simp)
  have one : entry.writes = [⟨table, id, some (set opening.start row), label⟩] := by
    rcases update.update_one fun _ _ kept => beq_iff_eq.mp kept with none | ⟨before, single⟩
    · rw [none] at hit
      exact absurd hit List.not_mem_nil
    · rw [single] at hit ⊢
      rw [List.mem_singleton.mp hit]
  exact ⟨now, one, Log.mem_writes.mpr ⟨entry, inside.subset List.mem_cons_self, hit⟩⟩

/-- Every row that a DELETE under a lock found is gone. -/
theorem pledged_swept {setup : Setup} {opening : Opening} {log : Log store outside}
    {parent table : Table} {key : ℕ} {keep : table.Row → Bool} {label : Label}
    {lock entry : Entry store outside} {ctx : Ctx store} (clean : Log.Clean log table)
    (member : lock ∈ log) (taken : ⟨parent, key, .update⟩ ∈ lock.locks)
    (delete : Entry.Ran (schema setup.lower) opening.start log.writes
      (Stmt.delete (schema setup.lower) label table fun _ _ row => keep row) entry ctx) :
    Pledged opening (entry :: log) fun h c => Swept h c parent key table keep label := by
  intro final h made stop inside linked
  obtain ⟨since, span, past⟩ := pledged_lockedSince member taken final h made stop inside linked
  refine ⟨entry.snap, entry.cur, since, span, past, ?_⟩
  intro id before now inSnap selected inCur kept
  rw [← delete.snap_table clean] at inSnap
  rw [← delete.cur_table clean] at inCur
  exact Log.mem_writes.mpr ⟨entry, inside.subset List.mem_cons_self,
    delete.delete_hit inSnap selected inCur kept⟩

/-- Every call but a notification is allowed at any time. -/
theorem free_call {setup : Setup} {c : Call}
    (other : ∀ userId event receiptId reason, c ≠ .notify userId event receiptId reason) :
    (promise setup).Free c := by
  intro _ _ _
  cases c with
  | notify userId event receiptId reason => exact absurd rfl (other userId event receiptId reason)
  | _ => trivial

/-- What a task is verified against: a guarantee, for some of the processes of a
deployment. -/
structure Regime where
  setup : Setup
  ok : Guarantee store outside
  who : ℕ → Prop

/-- The promise of the ledger, for every process. -/
abbrev ledger (setup : Setup) : Regime := ⟨setup, promise setup, fun _ => True⟩

section Safe

variable (regime : Regime) {α β : Type}

/-- The weakest precondition of a task of the application. -/
abbrev Safe (task : Task α) (post : Post store outside α) (raised : Post store outside Err)
    (own : Local store outside) (world : World store outside) : Prop :=
  task.wp regime.ok (schema regime.setup.lower) post raised own world

/-- The process has no transaction open. -/
def Idle (tid : ℕ) : Post store outside α := fun _ own _ => ∃ calls, own = idle tid calls

/-- Whatever happens around it, the task keeps the guarantee. -/
def Promises (task : Task α) : Prop :=
  ∀ tid calls world, regime.who tid →
    Safe regime task (Idle tid) (Idle tid) (idle tid calls) world

variable {regime} {post : Post store outside α} {raised : Post store outside Err} {tid : ℕ}
  {calls : List (Said outside)} {world : World store outside}

/-- A statement on the plain client that writes nothing. -/
theorem safe_read {stmt : Stmt store α} (silent : ∀ ctx, (stmt ctx).writes = [])
    (returns : ∀ start (entry : Entry store outside) ctx (later : World store outside),
      Entry.RanFirst (schema regime.setup.lower) start stmt entry ctx →
      Foreign tid world.history entry.snap → Foreign tid entry.snap later.history →
      post (stmt ctx).result (idle tid calls) later)
    (raises : ∀ failure (later : World store outside), Foreign tid world.history later.history →
      raised (.sql failure) (idle tid calls) later) :
    Safe regime (execSql .db stmt) post raised (idle tid calls) world := by
  refine Svc.wp_exec raises (fun opening entry ctx _ ran _ _ written => ?_)
    fun opening entry ctx later _ ran before during after => ?_
  · exact absurd (ran.writes.trans (silent ctx)) written
  · rw [if_pos (ran.writes.trans (silent ctx))] at after
    exact returns opening.start entry ctx later ran before (after ▸ during)

/-- A plain read. -/
theorem promises_read {stmt : Stmt store α} (silent : ∀ ctx, (stmt ctx).writes = []) :
    Promises regime (execSql .db stmt) := fun _ calls _ _ =>
  safe_read silent (fun _ _ _ _ _ _ _ => ⟨calls, rfl⟩) fun _ _ _ => ⟨calls, rfl⟩

/-- A plain statement whose result nobody depends on. -/
theorem promises_exec {stmt : Stmt store α}
    (commits : ∀ (opening : Opening) (entry : Entry store outside) ctx calls stop,
      regime.who opening.tid →
      Entry.RanFirst (schema regime.setup.lower) opening.start stmt entry ctx →
      Linked opening entry.cur [entry] → entry.writes ≠ [] →
      regime.ok.commits entry.cur (opening.commit calls [entry] stop)) :
    Promises regime (execSql .db stmt) := fun _ calls _ who =>
  Svc.wp_exec (fun _ _ _ => ⟨calls, rfl⟩) (fun opening entry ctx same ran _ linked written =>
      commits opening entry ctx calls _ (same ▸ who) ran linked written)
    fun _ _ _ _ _ _ _ _ _ => ⟨calls, rfl⟩

/-- A plain write of the ledger whose result nobody's promise depends on. -/
theorem promises_write {setup : Setup} {stmt : Stmt store α}
    (promised : ∀ (opening : Opening) (entry : Entry store outside) ctx calls stop,
      Entry.RanFirst (schema setup.lower) opening.start stmt entry ctx →
      Linked opening entry.cur [entry] → Singly entry.writes ∧
      ∀ write ∈ entry.writes, Wrote setup entry.cur (opening.commit calls [entry] stop) write) :
    Promises (ledger setup) (execSql .db stmt) :=
  promises_exec fun opening entry ctx calls stop _ ran linked _ =>
    have ⟨singly, wrote⟩ := promised opening entry ctx calls stop ran linked
    promised_of_entry singly wrote

/-- A plain function that may throw. -/
theorem safe_ofExcept_bind {result : Except Err β} {rest : β → Task α}
    {own : Local store outside}
    (returns : ∀ value, result = .ok value → Safe regime (rest value) post raised own world)
    (raises : ∀ exception, result = .error exception → raised exception own world) :
    Safe regime (ofExcept result >>= rest) post raised own world := by
  refine Svc.wp_bind ?_
  cases result with
  | ok value => exact returns value rfl
  | error exception => exact raises exception rfl

theorem promises_pure (value : α) : Promises regime (pure value : Task α) := fun _ calls _ _ =>
  Svc.wp_pure ⟨calls, rfl⟩

theorem promises_throw (raised : Err) : Promises regime (throw raised : Task α) :=
  fun _ calls _ _ => Svc.wp_throw ⟨calls, rfl⟩

theorem promises_bind {first : Task β} {rest : β → Task α} (before : Promises regime first)
    (after : ∀ value, Promises regime (rest value)) : Promises regime (first >>= rest) := by
  intro tid calls world who
  refine Svc.wp_bind (Svc.wp_mono (before tid calls world who) ?_ fun _ _ _ => id)
  rintro value _ later ⟨calls', rfl⟩
  exact after value tid calls' later who

theorem promises_ofExcept_bind {result : Except Err β} {rest : β → Task α}
    (after : ∀ value, result = .ok value → Promises regime (rest value)) :
    Promises regime (ofExcept result >>= rest) := by
  intro tid calls world who
  exact safe_ofExcept_bind (fun value found => after value found tid calls world who)
    fun _ _ => ⟨calls, rfl⟩

theorem promises_firstRow (missing : Err) (rows : List α) :
    Promises regime (firstRow missing rows) := by
  cases rows with
  | nil => exact promises_throw _
  | cons row rest => exact promises_pure _

theorem promises_tryCatch {body : Task α} {handler : Err → Task α} (inside : Promises regime body)
    (handled : ∀ raised, Promises regime (handler raised)) :
    Promises regime (tryCatch body handler) := by
  intro tid calls world who
  refine Svc.wp_tryCatch (Svc.wp_mono (inside tid calls world who) (fun _ _ _ => id) ?_)
  rintro raised _ later ⟨calls', rfl⟩
  exact handled raised tid calls' later who

theorem promises_rethrow {body : Task α} {handler : Err → Task α} (inside : Promises regime body)
    (rethrows : Rethrows handler) : Promises regime (tryCatch body handler) := by
  refine promises_tryCatch inside fun raised => ?_
  obtain ⟨other, isThrow⟩ := rethrows raised
  rw [isThrow]
  exact promises_throw _

theorem promises_forM {round : β → Task PUnit} (items : List β)
    (inside : ∀ item, Promises regime (round item)) : Promises regime (items.forM round) := by
  induction items with
  | nil => exact promises_pure _
  | cons item rest ih => exact promises_bind (inside item) fun _ => ih

theorem promises_mapM {γ : Type} {round : β → Task γ} (items : List β)
    (inside : ∀ item, Promises regime (round item)) : Promises regime (items.mapM round) := by
  induction items with
  | nil =>
      rw [List.mapM_nil]
      exact promises_pure _
  | cons item rest ih =>
      rw [List.mapM_cons]
      exact promises_bind (inside item) fun _ => promises_bind ih fun _ => promises_pure _

/-- A task that keeps the guarantee, before one that is verified from where it ends. -/
theorem safe_bind {first : Task β} {rest : β → Task α} (before : Promises regime first)
    (who : regime.who tid) (raises : ∀ exception calls later,
      raised exception (idle tid calls) later)
    (after : ∀ value calls (later : World store outside), world.history <:+ later.history →
      Safe regime (rest value) post raised (idle tid calls) later) :
    Safe regime (first >>= rest) post raised (idle tid calls) world := by
  refine Svc.wp_bind (Svc.wp_mono (Svc.wp_grows (before tid calls world who)) ?_ ?_)
  · rintro value _ later ⟨⟨calls', rfl⟩, suffix⟩
    exact after value calls' later suffix
  · rintro exception _ later ⟨calls', rfl⟩
    exact raises exception calls' later

/-- A call that is always allowed. -/
theorem promises_call {c : Call} {read : c.Reply → Except Err α} (free : regime.ok.Free c) :
    Promises regime (Svc.call c read) := by
  intro tid calls world _
  refine Svc.wp_call (fun history _ => free _ _ history) fun later reply _ => ?_
  cases read reply with
  | ok value => exact ⟨⟨c, reply⟩ :: calls, rfl⟩
  | error raised => exact ⟨⟨c, reply⟩ :: calls, rfl⟩

/-- When the task raises, the transaction it runs in cannot commit. -/
def Abandons (setup : Setup) (task : Task α) : Prop :=
  ∀ start scope raised scope' log,
    Svc.Yields (schema setup.lower) start task scope (.error raised) scope' →
    scope'.phase ≠ .live log

section Abandons

variable {setup : Setup}

theorem abandons_pure (value : α) : Abandons setup (pure value : Task α) := by
  intro start scope raised scope' log ran
  simp at ran

theorem abandons_execSql (stmt : Stmt store α) : Abandons setup (execSql .transaction stmt) := by
  intro start scope raised scope' log ran
  rw [Svc.yields_exec_error ran]
  cases scope.phase <;> simp [Phase.fail]

theorem abandons_bind {first : Task β} {rest : β → Task α} (before : Abandons setup first)
    (after : ∀ value, Abandons setup (rest value)) : Abandons setup (first >>= rest) := by
  intro start scope raised scope' log ran
  rcases Svc.yields_bind_error.mp ran with early | ⟨value, between, -, late⟩
  · exact before start scope raised scope' log early
  · exact after value start between raised scope' log late

theorem abandons_rollingBack (body : Task α) : Abandons setup (rollingBack body) := by
  intro start scope raised scope' log ran
  rw [Svc.yields_rollingBack_error ran]
  simp

theorem abandons_rethrow {body : Task α} {handler : Err → Task α} (before : Abandons setup body)
    (rethrows : Rethrows handler) : Abandons setup (tryCatch body handler) := by
  intro start scope raised scope' log ran
  rcases Svc.yields_tryCatch.mp ran with ⟨_, same, -⟩ | ⟨early, between, thrown, handled⟩
  · simp at same
  · obtain ⟨other, isThrow⟩ := rethrows early
    rw [isThrow] at handled
    rw [(Svc.yields_throw.mp handled).2]
    exact before start scope early between log thrown

end Abandons

/-- The scope of a transaction. -/
theorem safe_transactionClosed {task : Task α} (inside : Svc.Inside regime.ok task)
    (abandons : Abandons regime.setup task)
    (commits : ∀ (opening : Opening) value calls' log (history : History store outside) stop,
      opening.tid = tid →
      Returns regime.setup opening.start task ⟨calls, .live []⟩ value ⟨calls', .live log⟩ →
      world.history <:+ history → world.history.length ≤ opening.began →
      Linked opening history log → log.writes ≠ [] →
      regime.ok.commits history (opening.commit calls' log stop))
    (returns : ∀ (opening : Opening) value scope' (later : World store outside),
      opening.tid = tid → Returns regime.setup opening.start task ⟨calls, .live []⟩ value scope' →
      world.history.length ≤ opening.began → Svc.Closed opening scope' world.history later.history →
      post value (idle tid scope'.calls) later)
    (raises : ∀ exception made (later : World store outside),
      (∀ said ∈ made, regime.ok.Free said.call) → Foreign tid world.history later.history →
      raised exception (idle tid (made ++ calls)) later) :
    Safe regime (withTransaction task) post raised (idle tid calls) world := by
  refine Svc.wp_transactionClosed inside ?_ ?_ ?_
  · intro opening result calls' log later same ran written suffix began linked
    cases result with
    | ok value =>
        exact commits opening value calls' log later.history later.clock same ran suffix began
          linked written
    | error exception => exact absurd rfl (abandons _ _ _ _ log ran)
  · intro opening result scope later same ran began ended
    cases result with
    | ok value => exact returns opening value scope later same ran began ended
    | error exception =>
        obtain ⟨made, sameCalls, free⟩ := inside.calls ran
        obtain ⟨calls', log | _ | _⟩ := scope
        · exact absurd rfl (abandons _ _ _ _ log ran)
        · rw [sameCalls]
          exact raises exception made later free (same ▸ ended)
        · rw [sameCalls]
          exact raises exception made later free (same ▸ ended)
  · intro failure later foreign
    exact raises (.sql failure) [] later (fun _ member => absurd member List.not_mem_nil) foreign

theorem safe_transaction {task : Task α} (inside : Svc.Inside regime.ok task)
    (abandons : Abandons regime.setup task)
    (commits : ∀ (opening : Opening) value calls' log (history : History store outside) stop,
      opening.tid = tid →
      Returns regime.setup opening.start task ⟨calls, .live []⟩ value ⟨calls', .live log⟩ →
      world.history <:+ history → world.history.length ≤ opening.began →
      Linked opening history log → log.writes ≠ [] →
      regime.ok.commits history (opening.commit calls' log stop))
    (returns : ∀ (opening : Opening) value scope' (later : World store outside),
      opening.tid = tid → Returns regime.setup opening.start task ⟨calls, .live []⟩ value scope' →
      Svc.Ended opening scope' world.history later.history →
      post value (idle tid scope'.calls) later)
    (raises : ∀ exception made (later : World store outside),
      (∀ said ∈ made, regime.ok.Free said.call) → Foreign tid world.history later.history →
      raised exception (idle tid (made ++ calls)) later) :
    Safe regime (withTransaction task) post raised (idle tid calls) world :=
  safe_transactionClosed inside abandons commits (fun opening value scope' later same ran _ closed =>
    returns opening value scope' later same ran closed.ended) raises

/-- A transaction whose result nobody depends on. -/
theorem promises_transaction {task : Task α} (inside : Svc.Inside regime.ok task)
    (abandons : Abandons regime.setup task)
    (commits : ∀ (opening : Opening) value calls calls' log (history : History store outside) stop,
      regime.who opening.tid →
      Returns regime.setup opening.start task ⟨calls, .live []⟩ value ⟨calls', .live log⟩ →
      Linked opening history log → log.writes ≠ [] →
      regime.ok.commits history (opening.commit calls' log stop)) :
    Promises regime (withTransaction task) := fun _ calls _ who =>
  safe_transaction inside abandons
    (fun opening value calls' log history stop same ran _ _ linked written =>
      commits opening value calls calls' log history stop (same ▸ who) ran linked written)
    (fun _ _ scope' _ _ _ _ => ⟨scope'.calls, rfl⟩) fun _ made _ _ _ => ⟨made ++ calls, rfl⟩

/-- A transaction that rolls back on exceptions. -/
theorem promises_rollingBack {body : Task α} (inside : Svc.Inside regime.ok body)
    (commits : ∀ (opening : Opening) value calls calls' log (history : History store outside) stop,
      regime.who opening.tid →
      Returns regime.setup opening.start body ⟨calls, .live []⟩ value ⟨calls', .live log⟩ →
      Linked opening history log → log.writes ≠ [] →
      regime.ok.commits history (opening.commit calls' log stop)) :
    Promises regime (withTransaction (rollingBack body)) :=
  promises_transaction (Svc.inside_rollingBack inside) (abandons_rollingBack body)
    fun opening value calls calls' log history stop who ran =>
      commits opening value calls calls' log history stop who (returns_rollingBack.mp ran)

end Safe

end ReceiptScanner

import ReceiptScanner.ReadCommitted.Regions
import ReceiptScanner.ReadCommitted.Alone
import ReceiptScanner.ReadCommitted.Uniqueness

/-!
# One request after another

A task that has the server to itself is a function of its `Ground`: the database, the clock and
the sequences. `Svc.Leads` is the big-step meaning of such a task, with one rule for each way
to build a task. What the services answer depends on the call alone, and how much time passes
between the steps on the clock.
-/

namespace ReadCommitted

variable {σ : Signature} {X : Interface}

/-- What a task stands on that has the server to itself. -/
structure Ground (σ : Signature) where
  db : Db σ
  clock : ℕ
  next : σ.Table → ℕ

namespace Ground

variable (ground : Ground σ)

/-- What a statement sees that finishes now. -/
def ctx (now : ℕ) : Ctx σ where
  snap := ground.db
  cur := ground.db
  now := now
  clock := ground.clock
  next := ground.next
  others := []

/-- What a statement leaves. -/
def after {β : Type} (outcome : Outcome σ β) : Ground σ where
  db := ground.db.writes outcome.writes
  clock := ground.clock + outcome.ticks + 1
  next := advance ground.next outcome.writes

/-- One reading of the clock later. -/
def tick : Ground σ := { ground with clock := ground.clock + 1 }

/-- When the next step is taken. -/
def paused (pause : Pause) : Ground σ := { ground with clock := pause.instant ground.clock }

/-- Where a statement finishes that is the next step. -/
def finishing (pause : Pause) : Ground σ := (ground.paused pause).tick.paused pause

/-- What `now()` says to that statement, in the transaction that began at `start` or in none. -/
def now (pause : Pause) (start : Option ℕ) : ℕ := start.getD (pause.instant ground.clock)

/-- What that statement sees. -/
def seen (pause : Pause) (start : Option ℕ) : Ctx σ :=
  (ground.finishing pause).ctx (ground.now pause start)

@[simp] theorem now_seen (pause : Pause) (start : Option ℕ) :
    (ground.seen pause start).now = ground.now pause start := rfl

@[simp] theorem next_seen (pause : Pause) (start : Option ℕ) :
    (ground.seen pause start).next = ground.next := rfl

/-- The database is as the server keeps it: references lead to rows, no two rows exclude each
other, and no id is used that a sequence has still to give. -/
structure Sound (schema : Schema σ) : Prop where
  intact : Intact schema ground.db
  distinct : Distinct schema ground.db
  fresh : ∀ table id, ground.next table ≤ id → (ground.db table).get id = none

end Ground

section Sound

variable {schema : Schema σ} {ground : Ground σ} {β : Type} {outcome : Outcome σ β}
  {locks : List (Lock σ)}

/-- Time makes no difference. -/
theorem Ground.Sound.at (sound : ground.Sound schema) (clock : ℕ) :
    ({ ground with clock := clock } : Ground σ).Sound schema :=
  ⟨sound.intact, sound.distinct, sound.fresh⟩

theorem Ground.Sound.finishing (sound : ground.Sound schema) (pause : Pause) :
    (ground.finishing pause).Sound schema := sound.at _

/-- A statement that settles keeps the database as it should be. -/
theorem Ground.Sound.after (symmetric : schema.Symmetric) (sound : ground.Sound schema)
    (settled : schema.settle [] [] ground.db outcome = .ok (some locks)) :
    (ground.after outcome).Sound schema where
  intact := (Schema.settle_eq_some settled).intact sound.intact
  distinct := (Schema.settle_eq_some settled).distinct symmetric sound.distinct
  fresh table id undrawn := by
    rcases ground.db.get_writes_cases outcome.writes table id with ⟨same, -⟩ | ⟨_, _, member, -⟩
    · exact same.trans (sound.fresh table id ((le_advance _ outcome.writes table).trans undrawn))
    · exact absurd (@lt_advance _ ground.next _ _ member) (not_lt.mpr undrawn)

end Sound

section Settles

variable {schema : Schema σ} {ground : Ground σ} {β : Type} {pause : Pause}
  {start : Option ℕ}

/-- What the server has to check of a statement that finds no other transaction. -/
theorem Schema.settles {db : Db σ} {outcome : Outcome σ β}
    (parents : ∀ write ∈ outcome.writes, ∀ ref ∈ schema.newRefs db write,
      ((db.writes outcome.writes) ref.1).get ref.2 ≠ none)
    (kept : ∀ write ∈ outcome.writes, schema.dangles (db.writes outcome.writes) write = false)
    (checked : ∀ write ∈ outcome.writes, schema.violates write = false)
    (unique : ∀ write ∈ outcome.writes, schema.clashes (db.writes outcome.writes) write = false) :
    ∃ locks, schema.settle [] [] db outcome = .ok (some locks) := by
  refine ⟨schema.locksFor db outcome, ?_⟩
  have found : (outcome.writes.flatMap (schema.newRefs db)).any
      (fun ref => ((db.writes outcome.writes ref.1).get ref.2).isNone) = false := by
    simpa [List.any_eq_false, Option.isNone_iff_eq_none] using
      fun write member table id fresh => parents write member (table, id) fresh
  rw [Schema.settle_nil, found, List.any_eq_false.mpr (by simpa using kept),
    List.any_eq_false.mpr (by simpa using checked), List.any_eq_false.mpr (by simpa using unique)]
  rfl

/-- A statement that writes nothing settles. -/
theorem Schema.settles_read {db : Db σ} {outcome : Outcome σ β} (reads : outcome.writes = []) :
    ∃ locks, schema.settle [] [] db outcome = .ok (some locks) := by
  apply Schema.settles <;> simp [reads]

/-- So does an INSERT whose parents are there, and that no row excludes. -/
theorem Ground.Sound.settles_insert (sound : ground.Sound schema) {label : σ.Label}
    {table : σ.Table} {row : ℕ → σ.Row table}
    (parents : ∀ ref ∈ schema.refs table (row (ground.now pause start)), (ground.db ref.1).get ref.2 ≠ none)
    (checked : schema.check table (row (ground.now pause start)) = true)
    (free : ∀ id other, (ground.db table).get id = some other →
      schema.clash table (row (ground.now pause start)) other = false) :
    ∃ locks, schema.settle [] [] ground.db (Stmt.insert label table row (ground.seen pause start)) =
      .ok (some locks) := by
  have isFresh : (ground.db table).get (ground.next table) = none := sound.fresh table _ le_rfl
  have isWrites : (Stmt.insert label table row (ground.seen pause start)).writes =
    [⟨table, ground.next table, some (row (ground.now pause start)), label⟩] := rfl
  have stored : ((ground.db.write ⟨table, ground.next table, some (row (ground.now pause start)), label⟩) table).get
      (ground.next table) = some (row (ground.now pause start)) := by simp
  apply Schema.settles <;> simp only [isWrites, List.mem_singleton, forall_eq, Db.writes_cons,
    Db.writes_nil]
  · rintro ⟨parent, id⟩ fresh
    simp only [Schema.newRefs, isFresh] at fresh
    by_cases touched : Write.Touches (⟨table, ground.next table, some (row (ground.now pause start)), label⟩ : Write σ)
      parent id
    · obtain ⟨rfl, rfl⟩ := touched
      simp [stored]
    · rw [Db.get_write_untouched _ touched]
      exact parents _ fresh
  · simp [Schema.dangles, stored]
  · simp [Schema.violates, checked]
  · simp only [Schema.clashes, List.any_eq_false, Bool.and_eq_true, not_and, Bool.not_eq_true,
      decide_eq_true_eq, Prod.forall, Rows.mem_list]
    intro other row' there differ
    rw [Db.get_write_same, if_neg differ] at there
    exact free other row' there

/-- What an INSERT adds. -/
theorem Ground.get_insert {label : σ.Label} {table : σ.Table} {row : ℕ → σ.Row table} (id : ℕ) :
    ((ground.db.writes (Stmt.insert label table row (ground.seen pause start)).writes) table).get id =
      if id = ground.next table then some (row (ground.now pause start)) else (ground.db table).get id := by
  simp [Stmt.insert]

/-- The rows that an UPDATE or a DELETE is about. -/
theorem Ground.mem_targets {table : σ.Table} {keep : Db σ → ℕ → σ.Row table → Bool} {id : ℕ}
    {row : σ.Row table} : (id, row) ∈ (ground.seen pause start).targets table keep ↔
      (ground.db table).get id = some row ∧ keep ground.db id row = true := by
  rw [Ctx.targets_of_seen rfl, List.mem_filter, Rows.mem_list]
  rfl

section Update

variable {label : σ.Label} {table : σ.Table} {keep : Db σ → ℕ → σ.Row table → Bool}
  {set : ℕ → σ.Row table → σ.Row table} {returning : ℕ → σ.Row table → β}

theorem Ground.mem_update {write : Write σ} :
    write ∈ (Stmt.update label table keep set returning (ground.seen pause start)).writes ↔
      ∃ id row, (ground.db table).get id = some row ∧ keep ground.db id row = true ∧
        write = ⟨table, id, some (set (ground.now pause start) row), label⟩ := by
  simp only [Stmt.update, List.mem_map, Prod.exists, Ground.mem_targets]
  constructor
  · rintro ⟨id, row, ⟨stored, kept⟩, rfl⟩
    exact ⟨id, row, stored, kept, rfl⟩
  · rintro ⟨id, row, stored, kept, rfl⟩
    exact ⟨id, row, ⟨stored, kept⟩, rfl⟩

/-- What an UPDATE makes of each row. -/
theorem Ground.get_update (id : ℕ) :
    ((ground.db.writes (Stmt.update label table keep set returning (ground.seen pause start)).writes)
        table).get id =
      ((ground.db table).get id).map fun row =>
        if keep ground.db id row then set (ground.now pause start) row else row := by
  rcases ground.db.get_writes_cases
      (Stmt.update label table keep set returning (ground.seen pause start)).writes table id with
    ⟨same, untouched⟩ | ⟨written, _, member, now⟩
  · rw [same]
    cases stored : (ground.db table).get id with
    | none => rfl
    | some row =>
        have spared : keep ground.db id row ≠ true := fun kept =>
          untouched _ (Ground.mem_update.mpr ⟨id, row, stored, kept, rfl⟩) ⟨rfl, rfl⟩
        simp [spared]
  · obtain ⟨other, row, stored, kept, isWrite⟩ := Ground.mem_update.mp member
    obtain ⟨-, rfl, isRow, -⟩ := Write.mk.inj isWrite
    rw [now, stored, eq_of_heq isRow]
    simp [kept]

/-- An UPDATE settles that leaves what a row references, and what it excludes. -/
theorem Ground.Sound.settles_update (symmetric : schema.Symmetric) (sound : ground.Sound schema)
    (refs : ∀ row, schema.refs table (set (ground.now pause start) row) = schema.refs table row)
    (checked : ∀ row, schema.check table (set (ground.now pause start) row) = true)
    (clash : ∀ row other, schema.clash table (set (ground.now pause start) row) other = schema.clash table row other) :
    ∃ locks, schema.settle [] [] ground.db
      (Stmt.update label table keep set returning (ground.seen pause start)) = .ok (some locks) := by
  apply Schema.settles
  · intro write member ref fresh
    obtain ⟨id, row, stored, kept, rfl⟩ := Ground.mem_update.mp member
    simp [Schema.newRefs, stored, refs] at fresh
  · intro write member
    obtain ⟨id, row, stored, kept, rfl⟩ := Ground.mem_update.mp member
    simp [Schema.dangles, Ground.get_update, stored]
  · intro write member
    obtain ⟨id, row, stored, kept, rfl⟩ := Ground.mem_update.mp member
    simp [Schema.violates, checked]
  · intro write member
    obtain ⟨id, row, stored, kept, rfl⟩ := Ground.mem_update.mp member
    simp only [Schema.clashes, List.any_eq_false, Bool.and_eq_true, not_and, Bool.not_eq_true,
      decide_eq_true_eq, Prod.forall, Rows.mem_list, Ground.get_update]
    intro other row' there differ
    obtain ⟨before, was, rfl⟩ := Option.map_eq_some_iff.mp there
    have apart : schema.clash table row before = false :=
      sound.distinct table id other row before stored was (Ne.symm differ)
    rw [clash]
    split
    · rw [symmetric, clash, symmetric]
      exact apart
    · exact apart

end Update

section Delete

variable {label : σ.Label} {table : σ.Table} {keep : Db σ → ℕ → σ.Row table → Bool}

/-- What a DELETE leaves of a table that nothing references. -/
theorem Ground.mem_delete (alone : ∀ db id, schema.onDelete db table id label = [])
    {write : Write σ} :
    write ∈ (Stmt.delete schema label table keep (ground.seen pause start)).writes ↔
      ∃ id row, (ground.db table).get id = some row ∧ keep ground.db id row = true ∧
        write = ⟨table, id, none, label⟩ := by
  have actions : ∀ id, schema.onDelete (ground.seen pause start).cur table id label = [] := alone _
  simp only [Stmt.delete, List.mem_flatMap, Prod.exists, Ground.mem_targets, actions,
    List.mem_singleton]
  constructor
  · rintro ⟨id, row, ⟨stored, kept⟩, rfl⟩
    exact ⟨id, row, stored, kept, rfl⟩
  · rintro ⟨id, row, stored, kept, rfl⟩
    exact ⟨id, row, ⟨stored, kept⟩, rfl⟩

theorem Ground.get_delete (alone : ∀ db id, schema.onDelete db table id label = [])
    (id : ℕ) :
    ((ground.db.writes (Stmt.delete schema label table keep (ground.seen pause start)).writes)
        table).get id =
      ((ground.db table).get id).filter fun row => !keep ground.db id row := by
  rcases ground.db.get_writes_cases
      (Stmt.delete schema label table keep (ground.seen pause start)).writes table id with
    ⟨same, untouched⟩ | ⟨written, _, member, now⟩
  · rw [same]
    cases stored : (ground.db table).get id with
    | none => rfl
    | some row =>
        have spared : keep ground.db id row ≠ true := fun kept =>
          untouched _ ((Ground.mem_delete alone).mpr ⟨id, row, stored, kept, rfl⟩) ⟨rfl, rfl⟩
        rw [Option.filter_some, if_pos (by simp [spared])]
  · obtain ⟨other, row, stored, kept, isWrite⟩ := (Ground.mem_delete alone).mp member
    obtain ⟨-, rfl, isRow, -⟩ := Write.mk.inj isWrite
    rw [now, stored, eq_of_heq isRow, Option.filter_some, if_neg (by simp [kept])]

/-- A DELETE settles where nothing is left to reference the rows. -/
theorem Ground.settles_delete (alone : ∀ db id, schema.onDelete db table id label = [])
    (unreferenced : ∀ other row id, (table, id) ∉ schema.refs other row) :
    ∃ locks, schema.settle [] [] ground.db
      (Stmt.delete schema label table keep (ground.seen pause start)) = .ok (some locks) := by
  apply Schema.settles <;> intro write member <;>
    obtain ⟨id, row, stored, kept, rfl⟩ := (Ground.mem_delete alone).mp member
  · simp [Schema.newRefs]
  · simp [Schema.dangles, unreferenced]
  · rfl
  · rfl

end Delete

end Settles

/-- Where a process stands: outside a transaction, or inside one that began at `start`. -/
structure Solo.On (start : Option ℕ) (ground : Ground σ) (solo : Solo σ X) : Prop where
  db : solo.own.view solo.world.history = ground.db
  clock : solo.world.clock = ground.clock
  next : solo.world.next = ground.next
  start : solo.own.txn.map Txn.start = start
  live : ∀ txn, solo.own.txn = some txn → txn.aborted = false

/-- Outside a transaction. -/
theorem Solo.on_of_closed {solo : Solo σ X} (closed : solo.own.txn = none) :
    solo.On none ⟨solo.world.history.db, solo.world.clock, solo.world.next⟩ where
  db := by simp [Local.view, Local.writes, closed]
  clock := rfl
  next := rfl
  start := by simp [closed]
  live := by simp [closed]

namespace Svc

variable {ε α β : Type}

section Leads

variable (schema : Schema σ) (answers : (c : X.Call) → X.Reply c) (pause : Pause)

/-- The task ends with this result, on this ground, wherever it starts on that one. -/
def Leads (start : Option ℕ) (task : Svc σ X ε α) (ground : Ground σ) (result : Except ε α)
    (last : Ground σ) : Prop :=
  ∀ solo : Solo σ X, solo.On start ground → ∃ after,
    Prog.alone schema ⟨fun _ => answers, pause⟩ task.run solo = some (result, after) ∧
      after.On start last

end Leads

variable {schema : Schema σ} {answers : (c : X.Call) → X.Reply c} {pause : Pause} {start : Option ℕ}
  {ground middle last : Ground σ} {result : Except ε α}

theorem leads_pure (value : α) :
    Leads schema answers pause start (pure value : Svc σ X ε α) ground (.ok value) ground :=
  fun solo on => ⟨solo, rfl, on⟩

/-- A sequence goes on with what its first part returns. -/
theorem leads_bind {first : Svc σ X ε β} {rest : β → Svc σ X ε α} {value : β}
    (returns : Leads schema answers pause start first ground (.ok value) middle)
    (goesOn : Leads schema answers pause start (rest value) middle result last) :
    Leads schema answers pause start (first >>= rest) ground result last := by
  intro solo on
  obtain ⟨between, ran, there⟩ := returns solo on
  obtain ⟨after, ends, here⟩ := goesOn between there
  exact ⟨after, (Prog.alone_bind_of ran).trans ends, here⟩

/-- A sequence ends where its first part throws. -/
theorem leads_bind_error {first : Svc σ X ε β} {rest : β → Svc σ X ε α} {exception : ε}
    (throws : Leads schema answers pause start first ground (.error exception) last) :
    Leads schema answers pause start (first >>= rest) ground (.error exception) last := by
  intro solo on
  obtain ⟨after, ran, here⟩ := throws solo on
  exact ⟨after, (Prog.alone_bind_of ran).trans rfl, here⟩

/-- What is made of the value does not change where the task leads. -/
theorem leads_map {task : Svc σ X ε β} {f : β → α} {result : Except ε β}
    (leads : Leads schema answers pause start task ground result last) :
    Leads schema answers pause start (f <$> task) ground (result.map f) last := by
  intro solo on
  obtain ⟨after, ran, here⟩ := leads solo on
  exact ⟨after, alone_map f ran, here⟩

/-- A service is asked. -/
theorem leads_call (c : X.Call) (read : X.Reply c → Except ε α) :
    Leads schema answers pause start (call c read : Svc σ X ε α) ground (read (answers c)) ground :=
  fun _ on => ⟨_, rfl, on.db, on.clock, on.next, on.start, on.live⟩

/-- A statement that settles. -/
theorem leads_exec {stmt : Stmt σ β} {raise : SqlFailure → ε} {locks : List (Lock σ)}
    {outcome : Outcome σ β}
    (isOutcome : stmt (ground.seen pause start) = outcome)
    (settled : schema.settle [] [] ground.db outcome = .ok (some locks)) :
    Leads schema answers pause start (exec raise start.isSome stmt : Svc σ X ε β) ground
      (.ok outcome.result) ((ground.finishing pause).after outcome) := by
  intro solo on
  obtain ⟨db, clock, next⟩ := ground
  obtain ⟨rfl, rfl, rfl, rfl, live⟩ := on
  subst isOutcome
  let begun := solo.world.paused pause
  let flight : Flight σ X := ⟨begun.history, begun.clock⟩
  let late := begun.tick.paused pause
  cases opened : solo.own.txn with
  | none =>
      have isDb : solo.own.view solo.world.history = solo.world.history.db := by
        simp [Local.view, Local.writes, opened]
      have isCtx : (Ground.mk solo.world.history.db solo.world.clock solo.world.next).seen pause
          none = plainCtx solo.own flight late := rfl
      simp only [opened, Option.map_none, isDb, isCtx] at settled ⊢
      have here : schema.settle [] [] late.history.db (stmt (plainCtx solo.own flight late)) =
        .ok (some locks) := settled
      obtain ⟨history, finished, after⟩ := finish_plain opened here
      refine ⟨⟨solo.own, { late.pass (stmt (plainCtx solo.own flight late)) with
        history := history }⟩, ?_, ?_, rfl, rfl, ?_, live⟩
      · simp only [exec, ExceptT.run_mk, Prog.alone, Option.isSome_none, flight, late,
          begun] at finished ⊢
        rw [finished]
        rfl
      · rw [Local.view, Local.writes, opened]
        exact after
      · simp [opened]
  | some txn =>
      have isCtx : (Ground.mk (solo.own.view solo.world.history) solo.world.clock
          solo.world.next).seen pause (some txn.start) = ctxOf solo.own flight late [] := by
        simp only [ctxOf, opened, Ground.seen, Ground.now, Option.getD_some, Ground.ctx, Ground.finishing, Ground.paused, Ground.tick,
          World.tick, World.paused, flight, late, begun]
      simp only [opened, Option.map_some, isCtx] at settled ⊢
      have here : schema.settle [] [] (solo.own.view late.history)
          (stmt (ctxOf solo.own flight late [])) = .ok (some locks) := settled
      have finished := finish_open opened (live txn opened) here
      let outcome := stmt (ctxOf solo.own flight late [])
      refine ⟨⟨solo.own.extend txn outcome locks (flight.span late), late.pass outcome⟩,
        ?_, ?_, rfl, rfl, ?_, ?_⟩
      · simp only [exec, ExceptT.run_mk, Prog.alone, Option.isSome_some, flight, late,
          begun] at finished ⊢
        rw [finished]
        rfl
      · simp only [Local.view, Local.writes, Local.extend, opened, Ground.after, Db.writes_append]
        rfl
      · simp [Local.extend]
      · rintro _ extended
        obtain rfl := Option.some.inj extended
        exact live txn opened

/-- A transaction whose body returns is committed. -/
theorem leads_transaction {body : Svc σ X ε α} {raise : SqlFailure → ε} {value : α}
    (returns : Leads schema answers pause (some (pause.instant ground.clock)) body
      (ground.paused pause).tick (.ok value) last) :
    Leads schema answers pause none (transaction raise body) ground (.ok value)
      (last.paused pause).tick := by
  intro solo on
  obtain ⟨db, clock, next⟩ := ground
  obtain ⟨rfl, rfl, rfl, closed, -⟩ := on
  have closed := Option.map_eq_none_iff.mp closed
  let start := solo.world.paused pause
  have begun : Solo.On (some start.clock)
      ((Ground.mk (solo.own.view solo.world.history) solo.world.clock
        solo.world.next).paused pause).tick
      ⟨solo.own.beginTxn start, start.tick⟩ := by
    refine ⟨?_, rfl, rfl, rfl, ?_⟩
    · simp [Local.view, Local.writes, Local.beginTxn, closed, Ground.tick, Ground.paused,
        World.tick, World.paused, start]
    · rintro _ isTxn
      obtain rfl := Option.some.inj isTxn
      rfl
  obtain ⟨ended, ran, there⟩ := returns _ begun
  let late := ended.world.paused pause
  refine ⟨⟨ended.own.drop, ended.own.committed late⟩, ?_, ?_⟩
  · exact (Prog.alone_bind_of ran).trans rfl
  · obtain ⟨txn, isTxn, -⟩ := Option.map_eq_some_iff.mp there.start
    have live := there.live txn isTxn
    have isDb : (ended.own.committed late).history.db = last.db := by
      rw [← there.db, Local.view, Local.writes, isTxn, Local.committed, isTxn]
      simp only [live, Bool.false_or]
      split
      · rename_i empty
        simp [List.isEmpty_iff.mp empty, World.tick, World.paused, late]
      · rfl
    refine ⟨by simpa [Local.view, Ground.tick, Ground.paused] using isDb, ?_, ?_, rfl, by simp⟩
    · rw [Local.clock_committed]
      exact congrArg (fun clock => pause.instant clock + 1) there.clock
    · rw [Local.next_committed]
      exact there.next

end Svc

end ReadCommitted

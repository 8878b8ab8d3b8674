import ReceiptScanner.ReadCommitted.Database

/-!
# Statements under READ COMMITTED

A statement has two instants. It takes its snapshot when it starts, and it takes
its row locks, and writes, when it finishes; other transactions may commit in
between. `Ctx.targets` is the rule for a statement that locks: it selects rows in
its snapshot, waits for their locks, then keeps the latest version of those that
still satisfy its condition. Anything else the statement reads stays as it was in
the snapshot.

`Schema.settle` is what the server adds on its own: the locks of the written
rows, the share locks on newly referenced parents, and the declared constraints.
-/

namespace ReadCommitted

variable {σ : Signature}

/-- What a statement can see: its snapshot and the database at the instant it
finishes, both with the writes of its own transaction, the start time of the
transaction, the clock, the sequences, and the locks of other transactions. -/
structure Ctx (σ : Signature) where
  snap : Db σ
  cur : Db σ
  now : ℕ
  clock : ℕ
  next : σ.Table → ℕ
  others : List (Lock σ)

/-- What a statement does when it finishes. `ticks` counts its clock readings. -/
structure Outcome (σ : Signature) (β : Type) where
  result : β
  locks : List (Lock σ) := []
  writes : List (Write σ) := []
  ticks : ℕ := 0

/-- A statement with a result of type `β`. -/
abbrev Stmt (σ : Signature) (β : Type) := Ctx σ → Outcome σ β

/-- The rows a locking statement ends up with. -/
def Ctx.targets (ctx : Ctx σ) (table : σ.Table) (keep : Db σ → ℕ → σ.Row table → Bool) :
    List (ℕ × σ.Row table) :=
  (ctx.snap table).list.filterMap fun (id, row) =>
    if keep ctx.snap id row then
      ((ctx.cur table).get id).bind fun latest =>
        if keep ctx.snap id latest then some (id, latest) else none
    else none

theorem Ctx.mem_targets {ctx : Ctx σ} {table : σ.Table}
    {keep : Db σ → ℕ → σ.Row table → Bool} {id : ℕ} {row : σ.Row table} :
    (id, row) ∈ ctx.targets table keep ↔
      (∃ seen, (ctx.snap table).get id = some seen ∧ keep ctx.snap id seen = true) ∧
        (ctx.cur table).get id = some row ∧ keep ctx.snap id row = true := by
  simp only [Ctx.targets, List.mem_filterMap, Prod.exists, Rows.mem_list]
  constructor
  · rintro ⟨seenId, seen, stored, found⟩
    split at found
    · rename_i selected
      obtain ⟨latest, current, found⟩ := Option.bind_eq_some_iff.mp found
      split at found
      · rename_i kept
        obtain ⟨rfl, rfl⟩ := Prod.mk.injEq .. ▸ Option.some.inj found
        exact ⟨⟨seen, stored, selected⟩, current, kept⟩
      · cases found
    · cases found
  · rintro ⟨⟨seen, stored, selected⟩, current, kept⟩
    exact ⟨id, seen, stored, by simp [selected, current, kept]⟩

/-- A locking statement ends up with each row once. -/
theorem Ctx.pairwise_targets (ctx : Ctx σ) (table : σ.Table)
    (keep : Db σ → ℕ → σ.Row table → Bool) :
    (ctx.targets table keep).Pairwise fun left right => left.1 ≠ right.1 := by
  have same : ∀ (seen : ℕ × σ.Row table) found, (if keep ctx.snap seen.1 seen.2 then
      ((ctx.cur table).get seen.1).bind fun latest =>
        if keep ctx.snap seen.1 latest then some (seen.1, latest) else none
      else none) = some found → found.1 = seen.1 := by
    intro seen found isFound
    split at isFound
    · obtain ⟨latest, -, kept⟩ := Option.bind_eq_some_iff.mp isFound
      split at kept
      · rw [← Option.some.inj kept]
      · cases kept
    · cases isFound
  refine List.Pairwise.filterMap _ ?_ (ctx.snap table).pairwise_list
  intro left right different found isLeft other isRight
  rw [same left found isLeft, same right other isRight]
  exact different

/-- A statement about one id ends up with that row or none. -/
theorem Ctx.targets_of_id {ctx : Ctx σ} {table : σ.Table}
    {keep : Db σ → ℕ → σ.Row table → Bool} {key : ℕ}
    (only : ∀ id row, keep ctx.snap id row = true → id = key) :
    ctx.targets table keep = [] ∨ ∃ row, ctx.targets table keep = [(key, row)] := by
  have apart := ctx.pairwise_targets table keep
  have isKey : ∀ found ∈ ctx.targets table keep, found.1 = key := by
    rintro ⟨id, row⟩ member
    exact only id row (Ctx.mem_targets.mp member).2.2
  match targets : ctx.targets table keep with
  | [] => exact Or.inl rfl
  | [(id, row)] =>
      obtain rfl : id = key := isKey (id, row) (by simp [targets])
      exact Or.inr ⟨row, rfl⟩
  | first :: second :: rest =>
      rw [targets] at apart isKey
      have different := (List.pairwise_cons.mp apart).1 second List.mem_cons_self
      exact absurd ((isKey first (by simp)).trans (isKey second (by simp)).symm) different

namespace Stmt

/-- A plain read of the snapshot; it takes no lock. -/
def query {β : Type} (read : ℕ → Db σ → β) : Stmt σ β := fun ctx =>
  { result := read ctx.now ctx.snap }

/-- SELECT from one table, with FOR UPDATE or another locking clause or without.
`project` is the select list: the row is the latest version under a locking
clause, but sub-selects on other tables read the snapshot. -/
def select {β : Type} (lock : Option LockMode) (table : σ.Table)
    (keep : Db σ → ℕ → σ.Row table → Bool) (project : Db σ → ℕ → σ.Row table → β) :
    Stmt σ (List β) := fun ctx =>
  match lock with
  | none =>
      { result := ((ctx.snap table).list.filter fun (id, row) => keep ctx.snap id row).map
          fun (id, row) => project ctx.snap id row }
  | some mode =>
      { result := (ctx.targets table keep).map fun (id, row) => project ctx.snap id row
        locks := (ctx.targets table keep).map fun (id, _) => ⟨table, id, mode⟩ }

/-- UPDATE ... SET ... WHERE ... RETURNING, from the new rows. `set` is given now(). -/
def update {β : Type} (label : σ.Label) (table : σ.Table)
    (keep : Db σ → ℕ → σ.Row table → Bool) (set : ℕ → σ.Row table → σ.Row table)
    (returning : ℕ → σ.Row table → β) : Stmt σ (List β) := fun ctx =>
  let targets := ctx.targets table keep
  { result := targets.map fun (id, row) => returning id (set ctx.now row)
    writes := targets.map fun (id, row) => ⟨table, id, some (set ctx.now row), label⟩ }

/-- INSERT of one row, RETURNING its id. `row` is given now(). -/
def insert (label : σ.Label) (table : σ.Table) (row : ℕ → σ.Row table) : Stmt σ ℕ := fun ctx =>
  { result := ctx.next table
    writes := [⟨table, ctx.next table, some (row ctx.now), label⟩] }

/-- DELETE ... RETURNING the ids, with the declared ON DELETE actions. -/
def delete (schema : Schema σ) (label : σ.Label) (table : σ.Table)
    (keep : Db σ → ℕ → σ.Row table → Bool) : Stmt σ (List ℕ) := fun ctx =>
  let targets := ctx.targets table keep
  { result := targets.map Prod.fst
    writes := targets.flatMap fun (id, _) =>
      ⟨table, id, none, label⟩ :: schema.onDelete ctx.cur table id label }

/-- An UPDATE about one id rewrites that row or none, and returns accordingly. -/
theorem update_of_id {β : Type} {label : σ.Label} {table : σ.Table}
    {keep : Db σ → ℕ → σ.Row table → Bool} {set : ℕ → σ.Row table → σ.Row table}
    {returning : ℕ → σ.Row table → β} {ctx : Ctx σ} {key : ℕ}
    (only : ∀ id row, keep ctx.snap id row = true → id = key) :
    ((update label table keep set returning ctx).writes = [] ∧
      (update label table keep set returning ctx).result = []) ∨ ∃ before,
    (update label table keep set returning ctx).writes =
        [⟨table, key, some (set ctx.now before), label⟩] ∧
      (update label table keep set returning ctx).result = [returning key (set ctx.now before)] := by
  rcases ctx.targets_of_id only with none | ⟨before, one⟩
  · exact Or.inl (by simp [update, none])
  · exact Or.inr ⟨before, by simp [update, one]⟩

end Stmt

/-- Why the server refused a statement. -/
inductive SqlFailure where
  | foreignKey
  | check
  | unique
  | other
deriving DecidableEq, Repr

namespace Schema

variable (schema : Schema σ)

/-- The lock that performing a write takes on the written row. -/
def lockOf (cur : Db σ) (write : Write σ) : Lock σ where
  table := write.table
  id := write.id
  mode :=
    match (cur write.table).get write.id, write.row with
    | some _, some _ => .noKeyUpdate
    | _, _ => .update

/-- The parents a write references and the row before it did not. -/
def newRefs (cur : Db σ) (write : Write σ) : List (σ.Table × ℕ) :=
  match write.row with
  | none => []
  | some row =>
      match (cur write.table).get write.id with
      | none => schema.refs write.table row
      | some before => (schema.refs write.table row).filter fun ref =>
          !(schema.refs write.table before).contains ref

/-- Every lock a finishing statement needs. -/
def locksFor {β : Type} (cur : Db σ) (outcome : Outcome σ β) : List (Lock σ) :=
  outcome.locks ++ outcome.writes.map (lockOf cur) ++
    (outcome.writes.flatMap (schema.newRefs cur)).map fun (table, id) => ⟨table, id, .keyShare⟩

/-- A stored row of `after` other than the written one excludes it by UNIQUE. -/
def clashes (after : Db σ) (write : Write σ) : Bool :=
  match write.row with
  | none => false
  | some row => (after write.table).list.any fun (id, other) =>
      id ≠ write.id && schema.clash write.table row other

/-- A row that the writes removed is still referenced. -/
def dangles (after : Db σ) (write : Write σ) : Bool :=
  ((after write.table).get write.id).isNone && schema.tables.any fun table =>
    (after table).list.any fun (_, row) => (schema.refs table row).contains (write.table, write.id)

/-- A row another transaction is about to store excludes the written one. -/
def pendingClash (pending : List (Write σ)) (write : Write σ) : Bool :=
  pending.any fun other =>
    if same : other.table = write.table then
      match write.row, other.row with
      | some row, some otherRow => schema.clash write.table row (same ▸ otherRow)
      | _, _ => false
    else false

/-- The written row fails a CHECK. -/
def violates (write : Write σ) : Bool :=
  match write.row with
  | none => false
  | some row => !schema.check write.table row

/-- Whether a statement can finish: `ok none` when it has to wait for another
transaction, else the locks it takes or the constraint it breaks. -/
def settle {β : Type} (others : List (Lock σ)) (pending : List (Write σ)) (cur : Db σ)
    (outcome : Outcome σ β) : Except SqlFailure (Option (List (Lock σ))) :=
  let locks := schema.locksFor cur outcome
  let after := cur.writes outcome.writes
  if locks.any (fun lock => others.any lock.conflicts) ||
      outcome.writes.any (schema.pendingClash pending) then .ok none
  else if (outcome.writes.flatMap (schema.newRefs cur)).any
      (fun (table, id) => ((after table).get id).isNone) then .error .foreignKey
  else if outcome.writes.any (schema.dangles after) then .error .foreignKey
  else if outcome.writes.any schema.violates then .error .check
  else if outcome.writes.any (schema.clashes after) then .error .unique
  else .ok (some locks)

variable {schema}

/-- What a statement that settles has checked. -/
structure Settled {β : Type} (schema : Schema σ) (others : List (Lock σ)) (cur : Db σ)
    (outcome : Outcome σ β) (locks : List (Lock σ)) : Prop where
  took : locks = schema.locksFor cur outcome
  compatible : Compatible locks others
  parents : ∀ write ∈ outcome.writes, ∀ ref ∈ schema.newRefs cur write,
    ((cur.writes outcome.writes) ref.1).get ref.2 ≠ none
  kept : ∀ write ∈ outcome.writes, schema.dangles (cur.writes outcome.writes) write = false
  checked : ∀ write ∈ outcome.writes, schema.violates write = false
  unique : ∀ write ∈ outcome.writes, schema.clashes (cur.writes outcome.writes) write = false

theorem settle_eq_some {β : Type} {others : List (Lock σ)} {pending : List (Write σ)}
    {cur : Db σ} {outcome : Outcome σ β} {locks : List (Lock σ)}
    (settled : schema.settle others pending cur outcome = .ok (some locks)) :
    schema.Settled others cur outcome locks := by
  simp only [settle] at settled
  split at settled
  · simp at settled
  · rename_i free
    split at settled
    · simp at settled
    · rename_i parents
      split at settled
      · simp at settled
      · rename_i kept
        split at settled
        · simp at settled
        · rename_i checked
          split at settled
          · simp at settled
          · rename_i unique
            simp only [Except.ok.injEq, Option.some.injEq] at settled
            subst settled
            simp only [Bool.or_eq_true, List.any_eq_true, not_or, not_exists, not_and,
              Bool.not_eq_true, List.mem_flatMap, forall_exists_index, and_imp,
              Prod.forall, Option.isNone_eq_false_iff, Option.isSome_iff_ne_none]
              at free parents
            exact {
              took := rfl
              compatible := fun lock member other present => free.1 lock member other present
              parents := fun write member ref fresh => parents ref.1 ref.2 write member fresh
              kept := by simpa using kept
              checked := by simpa using checked
              unique := by simpa using unique }

end Schema

end ReadCommitted

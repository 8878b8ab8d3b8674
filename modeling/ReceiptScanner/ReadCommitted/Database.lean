import ReceiptScanner.ReadCommitted.Rows

/-!
# Databases, writes and the history of commits

A database is one `Rows` table for each table name of a `Signature`. Nothing
updates a committed database in place: a run keeps the list of commits, newest
first, and `History.db` folds it into the database that is visible now. Every
database that was ever visible is then the replay of a suffix of that list, and
"earlier" is the suffix order.
-/

namespace ReadCommitted

/-- The table names of a database, the row type of each table, and the names
of the statements that write them. -/
structure Signature where
  Table : Type
  Row : Table → Type
  Label : Type
  [decideTable : DecidableEq Table]

attribute [instance] Signature.decideTable

variable {σ : Signature}

/-- The contents of every table. -/
def Db (σ : Signature) : Type := (table : σ.Table) → Rows (σ.Row table)

/-- One new row version, or the removal of a row, and the statement it is by. -/
structure Write (σ : Signature) where
  table : σ.Table
  id : ℕ
  row : Option (σ.Row table)
  label : σ.Label

/-- The write stores or removes row `id` of `table`. -/
def Write.Touches (write : Write σ) (table : σ.Table) (id : ℕ) : Prop :=
  write.table = table ∧ write.id = id

namespace Db

/-- The database without rows. -/
def empty : Db σ := fun _ => Rows.empty

/-- Perform one write. -/
def write (db : Db σ) (change : Write σ) : Db σ := fun table =>
  if same : change.table = table then
    match change.row with
    | some row => (db table).put change.id (same ▸ row)
    | none => (db table).erase change.id
  else db table

/-- Perform writes in order. -/
def writes (db : Db σ) (changes : List (Write σ)) : Db σ := changes.foldl write db

@[simp] theorem get_empty (table : σ.Table) (id : ℕ) :
    ((Db.empty : Db σ) table).get id = none := rfl

@[simp] theorem get_write_same (db : Db σ) (table : σ.Table) (id other : ℕ)
    (row : Option (σ.Row table)) (label : σ.Label) :
    ((db.write ⟨table, id, row, label⟩) table).get other =
      if other = id then row else (db table).get other := by
  cases row <;> simp [write]

theorem write_other (db : Db σ) {change : Write σ} {table : σ.Table}
    (different : change.table ≠ table) : db.write change table = db table := by
  simp [write, different]

@[simp] theorem writes_nil (db : Db σ) : db.writes [] = db := rfl

@[simp] theorem writes_cons (db : Db σ) (change : Write σ) (rest : List (Write σ)) :
    db.writes (change :: rest) = (db.write change).writes rest := rfl

theorem writes_append (db : Db σ) (first second : List (Write σ)) :
    db.writes (first ++ second) = (db.writes first).writes second :=
  List.foldl_append

/-- A write leaves every row it does not touch. -/
theorem get_write_untouched (db : Db σ) {change : Write σ} {table : σ.Table} {id : ℕ}
    (untouched : ¬ change.Touches table id) :
    ((db.write change) table).get id = (db table).get id := by
  obtain ⟨changeTable, changeId, row, label⟩ := change
  by_cases same : changeTable = table
  · subst same
    have different : id ≠ changeId := fun equal => untouched ⟨rfl, equal.symm⟩
    simp [different]
  · rw [write_other db same]

/-- A list of writes leaves every row that none of them touches. -/
theorem get_writes_untouched (db : Db σ) {changes : List (Write σ)} {table : σ.Table} {id : ℕ}
    (untouched : ∀ change ∈ changes, ¬ change.Touches table id) :
    ((db.writes changes) table).get id = (db table).get id := by
  induction changes generalizing db with
  | nil => rfl
  | cons change rest ih =>
      rw [writes_cons, ih _ fun other member => untouched other (List.mem_cons_of_mem _ member),
        get_write_untouched db (untouched change List.mem_cons_self)]

/-- A table that no write is about keeps all its rows. -/
theorem writes_other_table (db : Db σ) {changes : List (Write σ)} {table : σ.Table}
    (different : ∀ change ∈ changes, change.table ≠ table) :
    db.writes changes table = db table := by
  induction changes generalizing db with
  | nil => rfl
  | cons change rest ih =>
      rw [writes_cons, ih _ fun other member => different other (List.mem_cons_of_mem _ member),
        write_other db (different change List.mem_cons_self)]

/-- After a list of writes a row holds what the last write to it left, or, if
none touches it, what it held before. -/
theorem get_writes_cases (db : Db σ) (changes : List (Write σ)) (table : σ.Table) (id : ℕ) :
    (((db.writes changes) table).get id = (db table).get id ∧
      ∀ change ∈ changes, ¬ change.Touches table id) ∨
    ∃ row label, ⟨table, id, row, label⟩ ∈ changes ∧
      ((db.writes changes) table).get id = row := by
  induction changes using List.reverseRecOn generalizing db with
  | nil => exact Or.inl ⟨rfl, fun _ member => absurd member (by simp)⟩
  | append_singleton prior last ih =>
      rw [writes_append, writes_cons, writes_nil]
      by_cases touched : last.Touches table id
      · obtain ⟨lastTable, lastId, row, label⟩ := last
        obtain ⟨rfl, rfl⟩ := touched
        exact Or.inr ⟨row, label, by simp, by simp⟩
      · rw [get_write_untouched _ touched]
        rcases ih db with ⟨same, untouched⟩ | ⟨row, label, member, stored⟩
        · refine Or.inl ⟨same, fun change member => ?_⟩
          rcases List.mem_append.mp member with earlier | now
          · exact untouched change earlier
          · exact List.mem_singleton.mp now ▸ touched
        · exact Or.inr ⟨row, label, List.mem_append_left _ member, stored⟩

end Db

/-- No row is written twice. -/
def Apart (changes : List (Write σ)) : Prop :=
  changes.Pairwise fun first second => ¬ second.Touches first.table first.id

namespace Apart

theorem nil : Apart ([] : List (Write σ)) := List.Pairwise.nil

theorem singleton (change : Write σ) : Apart [change] := List.pairwise_singleton _ _

theorem append_iff {first second : List (Write σ)} :
    Apart (first ++ second) ↔ Apart first ∧ Apart second ∧
      ∀ change ∈ first, ∀ later ∈ second, ¬ later.Touches change.table change.id :=
  List.pairwise_append

/-- One write for each of a list of different ids. -/
theorem map {α : Type} {table : σ.Table} {label : σ.Label} {found : List (ℕ × α)}
    {row : ℕ × α → Option (σ.Row table)}
    (different : found.Pairwise fun left right => left.1 ≠ right.1) :
    Apart (found.map fun item => (⟨table, item.1, row item, label⟩ : Write σ)) :=
  different.map _ fun _ _ apart touches => apart touches.2.symm

/-- The write of a row is the only one. -/
theorem unique {changes : List (Write σ)} (apart : Apart changes) {table : σ.Table} {id : ℕ}
    {row row' : Option (σ.Row table)} {label label' : σ.Label}
    (first : ⟨table, id, row, label⟩ ∈ changes) (second : ⟨table, id, row', label'⟩ ∈ changes) :
    row = row' ∧ label = label' := by
  induction changes with
  | nil => simp at first
  | cons change rest ih =>
      obtain ⟨head, tail⟩ := List.pairwise_cons.mp apart
      rcases List.mem_cons.mp first with same | before <;>
        rcases List.mem_cons.mp second with same' | after
      · cases same.trans same'.symm
        exact ⟨rfl, rfl⟩
      · exact absurd (same ▸ ⟨rfl, rfl⟩) (head _ after)
      · exact absurd (same' ▸ ⟨rfl, rfl⟩) (head _ before)
      · exact ih tail before after

/-- After the writes, a row that is written is as its write left it. -/
theorem get_writes {changes : List (Write σ)} (apart : Apart changes) (db : Db σ)
    {table : σ.Table} {id : ℕ} {row : Option (σ.Row table)} {label : σ.Label}
    (member : ⟨table, id, row, label⟩ ∈ changes) : ((db.writes changes) table).get id = row := by
  rcases db.get_writes_cases changes table id with ⟨-, untouched⟩ | ⟨last, label', there, now⟩
  · exact absurd ⟨rfl, rfl⟩ (untouched _ member)
  · rw [now, (apart.unique member there).1]

end Apart

/-- The row-level lock modes, weakest first. -/
inductive LockMode where
  | keyShare
  | share
  | noKeyUpdate
  | update
deriving DecidableEq, Repr

namespace LockMode

/-- Two transactions cannot hold these modes on one row at a time. -/
def conflicts : LockMode → LockMode → Bool
  | .keyShare, .update => true
  | .share, .noKeyUpdate => true
  | .share, .update => true
  | .noKeyUpdate, .keyShare => false
  | .noKeyUpdate, _ => true
  | .update, _ => true
  | _, _ => false

theorem conflicts_comm (left right : LockMode) :
    left.conflicts right = right.conflicts left := by
  cases left <;> cases right <;> rfl

end LockMode

/-- A mode held on one row. -/
structure Lock (σ : Signature) where
  table : σ.Table
  id : ℕ
  mode : LockMode
deriving DecidableEq

/-- Two locks of different transactions exclude one another. -/
def Lock.conflicts (left right : Lock σ) : Bool :=
  left.table = right.table && left.id = right.id && left.mode.conflicts right.mode

theorem Lock.conflicts_comm (left right : Lock σ) :
    left.conflicts right = right.conflicts left := by
  simp [Lock.conflicts, LockMode.conflicts_comm left.mode, eq_comm (a := left.table),
    eq_comm (a := left.id)]

/-- No lock of one list excludes a lock of the other. -/
def Compatible (left right : List (Lock σ)) : Prop :=
  ∀ l ∈ left, ∀ r ∈ right, l.conflicts r = false

theorem Compatible.symm {left right : List (Lock σ)} (compatible : Compatible left right) :
    Compatible right left := fun r memberRight l memberLeft => by
  rw [Lock.conflicts_comm]
  exact compatible l memberLeft r memberRight

theorem Compatible.mono {left left' right right' : List (Lock σ)}
    (compatible : Compatible left right) (fewerLeft : left' ⊆ left) (fewerRight : right' ⊆ right) :
    Compatible left' right' := fun l memberLeft r memberRight =>
  compatible l (fewerLeft memberLeft) r (fewerRight memberRight)

/-- The declared constraints of a schema: its tables, what a row references, which
row values a CHECK admits, which pairs of rows a UNIQUE index excludes, and the
writes that ON DELETE actions perform when a row goes. -/
structure Schema (σ : Signature) where
  tables : List σ.Table
  complete : ∀ table, table ∈ tables
  refs : (table : σ.Table) → σ.Row table → List (σ.Table × ℕ)
  check : (table : σ.Table) → σ.Row table → Bool
  clash : (table : σ.Table) → σ.Row table → σ.Row table → Bool
  onDelete : Db σ → (table : σ.Table) → ℕ → σ.Label → List (Write σ)

end ReadCommitted

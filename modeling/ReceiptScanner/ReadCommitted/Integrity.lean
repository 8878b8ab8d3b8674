import ReceiptScanner.ReadCommitted.Interference

/-!
# Referential integrity

Every reference of a stored row is to a stored row. The server keeps this with two
devices: a statement fails when it would break it, and a row that others may come
to depend on is locked. `Referenced` states the second for an open transaction:
what its rows reference is locked, or was referenced before.
-/

namespace ReadCommitted

variable {σ : Signature} {X : Interface}

/-- Every reference leads to a row. -/
def Intact (schema : Schema σ) (db : Db σ) : Prop :=
  ∀ table id row, (db table).get id = some row →
    ∀ ref ∈ schema.refs table row, (db ref.1).get ref.2 ≠ none

/-- What the writes reference is locked, or the committed row referenced it too. -/
def Referenced (schema : Schema σ) (history : History σ X) (locks : List (Lock σ))
    (writes : List (Write σ)) : Prop :=
  ∀ write ∈ writes, ∀ row, write.row = some row → ∀ ref ∈ schema.refs write.table row,
    (∃ mode, ⟨ref.1, ref.2, mode⟩ ∈ locks) ∨
      ∃ before, (history.db write.table).get write.id = some before ∧
        ref ∈ schema.refs write.table before

theorem Intact.empty (schema : Schema σ) : Intact schema Db.empty := fun table id row stored => by
  simp at stored

/-- A row that some write touches does not depend on the database before. -/
theorem Db.get_writes_touched {changes : List (Write σ)} {table : σ.Table} {id : ℕ}
    (touched : ∃ change ∈ changes, change.Touches table id) (first second : Db σ) :
    ((first.writes changes) table).get id = ((second.writes changes) table).get id := by
  induction changes using List.reverseRecOn generalizing first second with
  | nil => simp at touched
  | append_singleton prior last ih =>
      simp only [writes_append, writes_cons, writes_nil]
      by_cases now : last.Touches table id
      · obtain ⟨lastTable, lastId, row, label⟩ := last
        obtain ⟨rfl, rfl⟩ := now
        simp
      · rw [get_write_untouched _ now, get_write_untouched _ now]
        obtain ⟨change, member, touches⟩ := touched
        rcases List.mem_append.mp member with earlier | last'
        · exact ih ⟨change, earlier, touches⟩ first second
        · exact absurd (List.mem_singleton.mp last' ▸ touches) now

namespace Schema.Settled

variable {schema : Schema σ} {β : Type} {others : List (Lock σ)} {cur : Db σ}
  {outcome : Outcome σ β} {locks : List (Lock σ)}

/-- A row that is referenced after a statement and was there before it is there still. -/
theorem present (settled : schema.Settled others cur outcome locks) {table : σ.Table} {id : ℕ}
    {row : σ.Row table} (stored : ((cur.writes outcome.writes) table).get id = some row)
    {ref : σ.Table × ℕ} (member : ref ∈ schema.refs table row)
    (before : (cur ref.1).get ref.2 ≠ none) :
    ((cur.writes outcome.writes) ref.1).get ref.2 ≠ none := by
  intro gone
  rcases Db.get_writes_cases cur outcome.writes ref.1 ref.2 with
    ⟨same, -⟩ | ⟨removed, label, written, -⟩
  · exact before (same ▸ gone)
  · have kept := settled.kept _ written
    have dangles : schema.dangles (cur.writes outcome.writes)
        ⟨ref.1, ref.2, removed, label⟩ = true := by
      simp only [Schema.dangles, gone, Option.isNone_none, Bool.true_and, List.any_eq_true]
      exact ⟨table, schema.complete table, (id, row), Rows.mem_list.mpr stored,
        List.contains_iff_mem.mpr member⟩
    simp [dangles] at kept

/-- A statement that settles keeps integrity. -/
theorem intact (settled : schema.Settled others cur outcome locks) (before : Intact schema cur) :
    Intact schema (cur.writes outcome.writes) := by
  intro table id row stored ref member
  rcases Db.get_writes_cases cur outcome.writes table id with ⟨same, -⟩ | ⟨_, label, written, now⟩
  · exact settled.present stored member (before table id row (same ▸ stored) ref member)
  · rw [now] at stored
    subst stored
    by_cases fresh : ref ∈ schema.newRefs cur ⟨table, id, some row, label⟩
    · exact settled.parents _ written ref fresh
    · simp only [Schema.newRefs] at fresh
      cases atCur : (cur table).get id with
      | none => simp [atCur, member] at fresh
      | some old =>
          have shared : ref ∈ schema.refs table old := by
            simp only [atCur, List.mem_filter, Bool.not_eq_true', not_and,
              Bool.not_eq_false] at fresh
            exact List.contains_iff_mem.mp (fresh member)
          exact settled.present now member (before table id old atCur ref shared)

end Schema.Settled

/-- A statement on the open transaction keeps its references covered. -/
theorem Referenced.extend {schema : Schema σ} {own : Local σ X} {history : History σ X}
    (referenced : Referenced schema history own.locks own.writes) {β : Type}
    {outcome : Outcome σ β} :
    Referenced schema history (own.locks ++ schema.locksFor (own.view history) outcome)
      (own.writes ++ outcome.writes) := by
  intro write member row stored ref refers
  rcases List.mem_append.mp member with earlier | fresh
  · rcases referenced write earlier row stored ref refers with ⟨mode, held⟩ | before
    · exact Or.inl ⟨mode, List.mem_append_left _ held⟩
    · exact Or.inr before
  · by_cases new : ref ∈ schema.newRefs (own.view history) write
    · refine Or.inl ⟨.keyShare, List.mem_append_right _ ?_⟩
      simp only [Schema.locksFor, List.mem_append, List.mem_map, List.mem_flatMap]
      exact Or.inr ⟨ref, ⟨write, fresh, new⟩, rfl⟩
    · simp only [Schema.newRefs, stored] at new
      cases atView : (own.view history write.table).get write.id with
      | none => simp [atView, refers] at new
      | some old =>
          have shared : ref ∈ schema.refs write.table old := by
            simp only [atView, List.mem_filter, Bool.not_eq_true', not_and,
              Bool.not_eq_false] at new
            exact List.contains_iff_mem.mp (new refers)
          rcases Db.get_writes_cases (History.db history) own.writes write.table write.id with
            ⟨same, -⟩ | ⟨_, label, mine, now⟩
          · exact Or.inr ⟨old, by rw [← same]; exact atView, shared⟩
          · rw [Local.view, now] at atView
            rcases referenced _ mine old atView ref shared with ⟨mode, held⟩ | before
            · exact Or.inl ⟨mode, List.mem_append_left _ held⟩
            · exact Or.inr before

section Foreign

variable {schema : Schema σ} {own : Local σ X} {history : History σ X} {commit : Commit σ X}

/-- The rows a transaction wrote are not touched by others. -/
theorem Covers.untouched (covered : Covers history own.locks own.writes)
    (theirs : commit.Covered history) (compatible : Compatible commit.locks own.locks)
    {write : Write σ} (member : write ∈ own.writes) :
    ∀ other ∈ commit.writes, ¬ other.Touches write.table write.id := by
  obtain ⟨⟨lockTable, lockId, mode⟩, held, sameTable, sameId, strength⟩ := covered write member
  simp only at sameTable sameId strength
  subst sameTable sameId
  refine Rely.untouched_of_locked ?_ held theirs compatible
  rcases strength with rfl | ⟨rfl, -⟩ <;> decide

/-- Another transaction's commit keeps the references covered. -/
theorem Referenced.grow (referenced : Referenced schema history own.locks own.writes)
    (covered : Covers history own.locks own.writes) (theirs : commit.Covered history)
    (compatible : Compatible commit.locks own.locks) :
    Referenced schema (commit :: history) own.locks own.writes := by
  intro write member row stored ref refers
  refine (referenced write member row stored ref refers).imp_right ?_
  rintro ⟨before, atBefore, shared⟩
  refine ⟨before, ?_, shared⟩
  rw [History.db_cons, Db.get_writes_untouched _ (covered.untouched theirs compatible member)]
  exact atBefore

/-- Another transaction's commit keeps the view of an open one intact. -/
theorem Intact.grow (view : Intact schema (own.view history))
    (covered : Covers history own.locks own.writes)
    (referenced : Referenced schema history own.locks own.writes)
    (theirs : commit.Covered history) (compatible : Compatible commit.locks own.locks)
    (theirReferences : Referenced schema history commit.locks commit.writes)
    (after : Intact schema (History.db (commit :: history))) :
    Intact schema (own.view (commit :: history)) := by
  intro table id row stored ref refers
  by_cases ownRef : ∃ change ∈ own.writes, change.Touches ref.1 ref.2
  · -- The transaction wrote the parent itself, so others cannot have touched it.
    have sameRef := Db.get_writes_touched ownRef (History.db (commit :: history))
      (History.db history)
    rw [Local.view, sameRef]
    by_cases ownRow : ∃ change ∈ own.writes, change.Touches table id
    · rw [Local.view, Db.get_writes_touched ownRow _ (History.db history)] at stored
      exact view table id row stored ref refers
    · have notOwn : ∀ change ∈ own.writes, ¬ change.Touches table id := fun change member touches =>
        ownRow ⟨change, member, touches⟩
      rw [Local.view, Db.get_writes_untouched _ notOwn] at stored
      intro gone
      have inView : ∀ {old}, ((History.db history) table).get id = some old →
          ref ∈ schema.refs table old → False := fun {old} atHistory shared => by
        refine view table id old ?_ ref shared gone
        rw [Local.view, Db.get_writes_untouched _ notOwn]
        exact atHistory
      rcases Db.get_writes_cases (History.db history) commit.writes table id with
        ⟨same, -⟩ | ⟨_, label, written, now⟩
      · exact inView (same ▸ stored) refers
      · rw [History.db_cons, now] at stored
        rcases theirReferences _ written row stored ref refers with ⟨mode, held⟩ | before
        · obtain ⟨change, member, touches⟩ := ownRef
          rcases Db.get_writes_cases (History.db history) own.writes ref.1 ref.2 with
            ⟨-, untouched⟩ | ⟨_, lastLabel, last, lastRow⟩
          · exact untouched change member touches
          · rw [gone] at lastRow
            subst lastRow
            obtain ⟨⟨lockTable, lockId, lockMode⟩, mine, sameTable, sameId, strength⟩ :=
              covered _ last
            simp only at sameTable sameId strength
            subst sameTable sameId
            rcases strength with rfl | ⟨-, keeps, -⟩
            · have excluded := compatible _ held _ mine
              cases mode <;> simp [Lock.conflicts, LockMode.conflicts] at excluded
            · exact keeps rfl
        · obtain ⟨old, atHistory, shared⟩ := before
          exact inView atHistory shared
  · have notOwn : ∀ change ∈ own.writes, ¬ change.Touches ref.1 ref.2 := fun change member touches =>
      ownRef ⟨change, member, touches⟩
    rw [Local.view, Db.get_writes_untouched _ notOwn]
    rcases Db.get_writes_cases (History.db (commit :: history)) own.writes table id with
      ⟨same, -⟩ | ⟨_, label, mine, now⟩
    · rw [Local.view, same] at stored
      exact after table id row stored ref refers
    · rw [Local.view, now] at stored
      subst stored
      rcases referenced _ mine row rfl ref refers with ⟨mode, held⟩ | ⟨before, atHistory, shared⟩
      · have present : ((History.db history) ref.1).get ref.2 ≠ none := by
          have inView := view table id row (by
            rw [Local.view, ← Db.get_writes_touched ⟨_, mine, rfl, rfl⟩
              (History.db (commit :: history)), now]) ref refers
          rwa [Local.view, Db.get_writes_untouched _ notOwn] at inView
        exact Rely.get_ne_none_of_locked held theirs compatible present
      · refine after table id before ?_ ref shared
        rw [History.db_cons, Db.get_writes_untouched _ (covered.untouched theirs compatible mine)]
        exact atHistory

end Foreign

end ReadCommitted

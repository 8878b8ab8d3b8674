import ReceiptScanner.ReadCommitted.Integrity

/-!
# A part of the database behind a wall

A region is a set of row ids, of any tables. It is `Walled` off when no reference crosses
its border. What a statement does that reads and writes inside a walled region does not
depend on the rows outside, and leaves them as they are: the server settles it alike in
any two databases that agree on the region.
-/

namespace ReadCommitted

variable {σ : Signature} {X : Interface}

/-- A set of row ids. -/
abbrev Region (σ : Signature) := σ.Table → ℕ → Prop

/-- Two databases hold the same rows in the region. -/
def Agree (region : Region σ) (left right : Db σ) : Prop :=
  ∀ table id, region table id → (left table).get id = (right table).get id

/-- Two databases hold the same rows outside the region. -/
def Spared (region : Region σ) (left right : Db σ) : Prop :=
  Agree (fun table id => ¬ region table id) left right

/-- No reference crosses the border of the region. -/
structure Walled (schema : Schema σ) (region : Region σ) (db : Db σ) : Prop where
  inside : ∀ table id row, (db table).get id = some row → region table id →
    ∀ ref ∈ schema.refs table row, region ref.1 ref.2
  outside : ∀ table id row, (db table).get id = some row → ¬ region table id →
    ∀ ref ∈ schema.refs table row, ¬ region ref.1 ref.2

/-- A write inside the region, of a row that belongs there: it references nothing outside,
and excludes no row that references only what is outside. -/
structure Write.Within (schema : Schema σ) (region : Region σ) (write : Write σ) : Prop where
  here : region write.table write.id
  refs : ∀ row, write.row = some row → ∀ ref ∈ schema.refs write.table row, region ref.1 ref.2
  free : ∀ row, write.row = some row → ∀ other,
    (∀ ref ∈ schema.refs write.table other, ¬ region ref.1 ref.2) →
      schema.clash write.table row other = false

variable {schema : Schema σ} {region : Region σ} {left right db base : Db σ}
  {changes : List (Write σ)}

/-- A row is on the same side of the wall as what it references. -/
theorem Walled.region_iff (walled : Walled schema region db) {table : σ.Table} {id : ℕ}
    {row : σ.Row table} (stored : (db table).get id = some row) (ref : σ.Table × ℕ)
    (refers : ref ∈ schema.refs table row) : region table id ↔ region ref.1 ref.2 := by
  constructor
  · intro here
    exact walled.inside table id row stored here ref refers
  · intro target
    by_contra away
    exact walled.outside table id row stored away ref refers target

/-- Two tables that store the same rows under one filter each scan alike. -/
theorem Rows.filter_list_alike {α : Type} {left right : Rows α} {keep keep' : ℕ × α → Bool}
    (same : ∀ id, (left.get id).filter (fun row => keep (id, row)) =
      (right.get id).filter (fun row => keep' (id, row))) :
    left.list.filter keep = right.list.filter keep' := by
  rw [left.list_eq_range (Nat.le_max_left _ right.bound),
    right.list_eq_range (Nat.le_max_right left.bound _), List.filter_filterMap,
    List.filter_filterMap]
  congr 1
  funext id
  have here := same id
  cases atLeft : left.get id <;> cases atRight : right.get id <;>
    simp_all [Option.filter]
  grind

/-- A locking statement that nothing happened under ends up with what it selected. -/
theorem Ctx.targets_of_seen {ctx : Ctx σ} (seen : ctx.cur = ctx.snap) (table : σ.Table)
    (keep : Db σ → ℕ → σ.Row table → Bool) :
    ctx.targets table keep =
      (ctx.snap table).list.filter fun entry => keep ctx.snap entry.1 entry.2 := by
  rw [Ctx.targets, seen, ← List.filterMap_eq_filter]
  refine List.filterMap_congr ?_
  rintro ⟨id, row⟩ member
  have stored := Rows.mem_list.mp member
  cases kept : keep ctx.snap id row <;> simp [Option.guard, kept, stored]

theorem Agree.refl : Agree region db db := fun _ _ _ => rfl

theorem Agree.trans {middle : Db σ} (first : Agree region left middle)
    (second : Agree region middle right) : Agree region left right :=
  fun table id here => (first table id here).trans (second table id here)

theorem Agree.symm (agree : Agree region left right) : Agree region right left :=
  fun table id here => (agree table id here).symm

/-- The same writes leave two databases in agreement. -/
theorem Agree.writes (agree : Agree region left right) (changes : List (Write σ)) :
    Agree region (left.writes changes) (right.writes changes) := by
  intro table id here
  by_cases touched : ∃ change ∈ changes, change.Touches table id
  · exact Db.get_writes_touched touched left right
  · have untouched : ∀ change ∈ changes, ¬ change.Touches table id :=
      fun change member touches => touched ⟨change, member, touches⟩
    rw [Db.get_writes_untouched left untouched, Db.get_writes_untouched right untouched]
    exact agree table id here

/-- Writes inside the region spare the rest. -/
theorem Spared.writes (inside : ∀ write ∈ changes, region write.table write.id) :
    Spared region (db.writes changes) db := by
  intro table id outside
  refine Db.get_writes_untouched db fun change member touches => outside ?_
  obtain ⟨rfl, rfl⟩ := touches
  exact inside change member

/-- Writes inside the region keep the wall. -/
theorem Walled.writes (walled : Walled schema region db)
    (within : ∀ write ∈ changes, write.Within schema region) :
    Walled schema region (db.writes changes) where
  inside table id row stored here ref refers := by
    rcases Db.get_writes_cases db changes table id with ⟨same, -⟩ | ⟨_, label, written, now⟩
    · exact walled.inside table id row (same ▸ stored) here ref refers
    · exact (within _ written).refs row (now.symm.trans stored) ref refers
  outside table id row stored away ref refers := by
    have spared : Spared region (db.writes changes) db :=
      Spared.writes fun write member => (within write member).here
    have same := spared table id away
    exact walled.outside table id row (same ▸ stored) away ref refers

namespace Schema

section Settle

variable {write : Write σ}

/-- A write in the region references as much anew in either database. -/
theorem newRefs_congr (agree : Agree region left right) (here : region write.table write.id) :
    schema.newRefs left write = schema.newRefs right write := by
  rw [newRefs, newRefs, agree _ _ here]

theorem mem_refs_of_newRefs {ref : σ.Table × ℕ} (member : ref ∈ schema.newRefs db write) :
    ∃ row, write.row = some row ∧ ref ∈ schema.refs write.table row := by
  obtain ⟨table, id, row, label⟩ := write
  cases row with
  | none => simp [newRefs] at member
  | some row =>
      refine ⟨row, rfl, ?_⟩
      cases stored : (db table).get id <;> simp only [newRefs, stored] at member
      · exact member
      · exact (List.mem_filter.mp member).1

/-- The rows that reference a row of the region are in the region. -/
theorem dangles_of_agree (agree : Agree region left right) (walled : Walled schema region left)
    (here : region write.table write.id) (dangles : schema.dangles left write = true) :
    schema.dangles right write = true := by
  simp only [Schema.dangles, Bool.and_eq_true, List.any_eq_true] at dangles ⊢
  obtain ⟨gone, table, listed, ⟨id, row⟩, stored, refers⟩ := dangles
  have isStored := Rows.mem_list.mp stored
  have inside : region table id := by
    by_contra away
    exact walled.outside table id row isStored away _ (List.contains_iff_mem.mp refers) here
  exact ⟨agree _ _ here ▸ gone, table, listed, (id, row),
    Rows.mem_list.mpr (agree table id inside ▸ isStored), refers⟩

/-- The rows that exclude a row of the region are in the region. -/
theorem clashes_of_agree (agree : Agree region left right) (walled : Walled schema region left)
    (within : write.Within schema region) (clashes : schema.clashes left write = true) :
    schema.clashes right write = true := by
  obtain ⟨table, id, row, label⟩ := write
  cases row with
  | none => simp [Schema.clashes] at clashes
  | some row =>
      simp only [Schema.clashes, List.any_eq_true, Bool.and_eq_true] at clashes ⊢
      obtain ⟨⟨other, row'⟩, stored, differ, clash⟩ := clashes
      have isStored := Rows.mem_list.mp stored
      have inside : region table other := by
        by_contra away
        have free := within.free row rfl row' (walled.outside table other row' isStored away)
        exact absurd (clash.symm.trans free) (by simp)
      exact ⟨(other, row'), Rows.mem_list.mpr (agree table other inside ▸ isStored), differ, clash⟩

/-- What the server checks when nobody else has a lock or a pending write. -/
theorem settle_nil {β : Type} (db : Db σ) (outcome : Outcome σ β) :
    schema.settle [] [] db outcome =
      if (outcome.writes.flatMap (schema.newRefs db)).any
          (fun ref => ((db.writes outcome.writes ref.1).get ref.2).isNone) then .error .foreignKey
      else if outcome.writes.any (schema.dangles (db.writes outcome.writes)) then
        .error .foreignKey
      else if outcome.writes.any schema.violates then .error .check
      else if outcome.writes.any (schema.clashes (db.writes outcome.writes)) then .error .unique
      else .ok (some (schema.locksFor db outcome)) := by
  have free : ((schema.locksFor db outcome).any (fun lock => List.any [] lock.conflicts) ||
      outcome.writes.any (schema.pendingClash [])) = false := by
    simp only [List.any_nil, Bool.or_eq_false_iff, List.any_eq_false]
    exact ⟨fun _ _ => Bool.false_ne_true, fun _ _ => Bool.false_ne_true⟩
  simp only [settle, free, Bool.false_eq_true, if_false]

/-- The server settles the writes alike in two databases that agree on the region. -/
theorem settle_alike {β : Type} {first second : Outcome σ β} (same : first.writes = second.writes)
    (within : ∀ write ∈ first.writes, write.Within schema region)
    (agree : Agree region left right) (leftWalled : Walled schema region left)
    (rightWalled : Walled schema region right) :
    (∃ failure, schema.settle [] [] left first = .error failure ∧
        schema.settle [] [] right second = .error failure) ∨
      ∃ locks locks', schema.settle [] [] left first = .ok (some locks) ∧
        schema.settle [] [] right second = .ok (some locks') := by
  have after := agree.writes first.writes
  have leftAfter := leftWalled.writes within
  have rightAfter := rightWalled.writes within
  have parents : (first.writes.flatMap (schema.newRefs left)).any
        (fun ref => ((left.writes first.writes ref.1).get ref.2).isNone) =
      (first.writes.flatMap (schema.newRefs right)).any
        (fun ref => ((right.writes first.writes ref.1).get ref.2).isNone) := by
    rw [Bool.eq_iff_iff]
    simp only [List.any_eq_true, List.mem_flatMap]
    constructor
    · rintro ⟨ref, ⟨write, member, fresh⟩, gone⟩
      obtain ⟨row, isRow, refers⟩ := mem_refs_of_newRefs fresh
      have here := (within write member).here
      have inside := (within write member).refs row isRow ref refers
      exact ⟨ref, ⟨write, member, newRefs_congr agree here ▸ fresh⟩, after _ _ inside ▸ gone⟩
    · rintro ⟨ref, ⟨write, member, fresh⟩, gone⟩
      obtain ⟨row, isRow, refers⟩ := mem_refs_of_newRefs fresh
      have here := (within write member).here
      have inside := (within write member).refs row isRow ref refers
      exact ⟨ref, ⟨write, member, newRefs_congr agree here ▸ fresh⟩, after _ _ inside ▸ gone⟩
  have dangles : first.writes.any (schema.dangles (left.writes first.writes)) =
      first.writes.any (schema.dangles (right.writes first.writes)) := by
    rw [Bool.eq_iff_iff, List.any_eq_true, List.any_eq_true]
    constructor <;> rintro ⟨write, member, dangles⟩ <;> refine ⟨write, member, ?_⟩
    · exact dangles_of_agree after leftAfter (within write member).here dangles
    · exact dangles_of_agree after.symm rightAfter (within write member).here dangles
  have clashes : first.writes.any (schema.clashes (left.writes first.writes)) =
      first.writes.any (schema.clashes (right.writes first.writes)) := by
    rw [Bool.eq_iff_iff, List.any_eq_true, List.any_eq_true]
    constructor <;> rintro ⟨write, member, clashes⟩ <;> refine ⟨write, member, ?_⟩
    · exact clashes_of_agree after leftAfter (within write member) clashes
    · exact clashes_of_agree after.symm rightAfter (within write member) clashes
  rw [settle_nil, settle_nil, ← same, parents, dangles, clashes]
  split_ifs
  · exact Or.inl ⟨_, rfl, rfl⟩
  · exact Or.inl ⟨_, rfl, rfl⟩
  · exact Or.inl ⟨_, rfl, rfl⟩
  · exact Or.inl ⟨_, rfl, rfl⟩
  · exact Or.inr ⟨_, _, rfl, rfl⟩

end Settle

end Schema

end ReadCommitted

import Mathlib.Data.List.Basic
import Mathlib.Data.List.Pairwise
import Mathlib.Data.List.Sublists
import Mathlib.Logic.Function.Basic

/-!
# Finite tables of rows

`Rows α` is one table: a partial function from row ids to rows together with a
bound past which no id is used, so that a scan of the table is computable. The
bound is bookkeeping only: `Rows.list_eq_range` shows that a scan depends on
the rows alone.
-/

namespace ReadCommitted

/-- A finite table: its rows by id, and a bound on the ids in use. -/
structure Rows (α : Type) where
  get : ℕ → Option α
  bound : ℕ
  absent : ∀ id, bound ≤ id → get id = none

namespace Rows

variable {α : Type}

/-- The table with no rows. -/
def empty : Rows α where
  get _ := none
  bound := 0
  absent _ _ := rfl

/-- Insert a row, or replace the one already stored under `id`. -/
def put (rows : Rows α) (id : ℕ) (row : α) : Rows α where
  get other := if other = id then some row else rows.get other
  bound := max rows.bound (id + 1)
  absent other beyond := by
    have different : other ≠ id := by omega
    simp [different, rows.absent other (by omega)]

/-- Remove the row stored under `id`, if there is one. -/
def erase (rows : Rows α) (id : ℕ) : Rows α where
  get other := if other = id then none else rows.get other
  bound := rows.bound
  absent other beyond := by simp [rows.absent other beyond]

@[simp] theorem get_empty (id : ℕ) : (empty : Rows α).get id = none := rfl

@[simp] theorem get_put (rows : Rows α) (id other : ℕ) (row : α) :
    (rows.put id row).get other = if other = id then some row else rows.get other := rfl

@[simp] theorem get_erase (rows : Rows α) (id other : ℕ) :
    (rows.erase id).get other = if other = id then none else rows.get other := rfl

/-- A full scan in id order. -/
def list (rows : Rows α) : List (ℕ × α) :=
  (List.range rows.bound).filterMap fun id => (rows.get id).map (id, ·)

/-- A scan finds exactly the stored rows. -/
@[simp] theorem mem_list {rows : Rows α} {id : ℕ} {row : α} :
    (id, row) ∈ rows.list ↔ rows.get id = some row := by
  simp only [list, List.mem_filterMap, List.mem_range, Option.map_eq_some_iff, Prod.mk.injEq]
  constructor
  · rintro ⟨other, _, found, stored, rfl, rfl⟩
    exact stored
  · intro stored
    refine ⟨id, ?_, row, stored, rfl, rfl⟩
    by_contra beyond
    have missing := rows.absent id (by omega)
    simp [missing] at stored

/-- A scan is in id order. -/
theorem sorted_list (rows : Rows α) : rows.list.Pairwise fun left right => left.1 < right.1 := by
  refine List.Pairwise.filterMap _ ?_ List.pairwise_lt_range
  intro id other less left atLeft right atRight
  obtain ⟨_, -, rfl⟩ := Option.map_eq_some_iff.mp atLeft
  obtain ⟨_, -, rfl⟩ := Option.map_eq_some_iff.mp atRight
  exact less

/-- A scan finds each id once. -/
theorem pairwise_list (rows : Rows α) : rows.list.Pairwise fun left right => left.1 ≠ right.1 :=
  rows.sorted_list.imp ne_of_lt

/-- Searching a scan for an id. -/
theorem find?_list (rows : Rows α) (id : ℕ) :
    (rows.list.find? fun entry => entry.1 == id) = (rows.get id).map (id, ·) := by
  cases found : rows.list.find? fun entry => entry.1 == id with
  | none =>
      rw [List.find?_eq_none] at found
      cases stored : rows.get id with
      | none => rfl
      | some row => exact absurd (beq_self_eq_true id) (found (id, row) (mem_list.mpr stored))
  | some entry =>
      obtain ⟨other, row⟩ := entry
      have same : other = id := by simpa using List.find?_some found
      subst same
      rw [mem_list.mp (List.mem_of_find?_eq_some found)]
      rfl

/-- Scanning past the bound finds nothing more. -/
theorem list_eq_range (rows : Rows α) {count : ℕ} (enough : rows.bound ≤ count) :
    rows.list = (List.range count).filterMap fun id => (rows.get id).map (id, ·) := by
  obtain ⟨extra, rfl⟩ := Nat.exists_eq_add_of_le enough
  rw [List.range_add, List.filterMap_append, list]
  have rest : ((List.range extra).map (rows.bound + ·)).filterMap
      (fun id => (rows.get id).map (id, ·)) = [] := by
    rw [List.filterMap_eq_nil_iff]
    intro id member
    obtain ⟨offset, -, rfl⟩ := List.mem_map.mp member
    simp [rows.absent _ (Nat.le_add_right _ _)]
  rw [rest, List.append_nil]

end Rows

end ReadCommitted

import ReceiptScanner.ReadCommitted.Rows

/-!
# Tables under a key

A table whose rows have different keys is a partial function from keys to rows. `Rows.seek` is
that function, and this is what inserting, changing and removing rows makes of it.
-/

namespace ReadCommitted

namespace Rows

variable {α κ : Type} [DecidableEq κ] {key : α → κ} {rows rows' : Rows α} {k : κ} {id : ℕ} {row : α}

/-- No two rows have one key. -/
def Unique (key : α → κ) (rows : Rows α) : Prop :=
  ∀ id other row row', rows.get id = some row → rows.get other = some row' →
    key row = key row' → id = other

/-- The row under a key. -/
def seek (key : α → κ) (rows : Rows α) (k : κ) : Option (ℕ × α) :=
  rows.list.find? fun entry => key entry.2 = k

theorem get_of_seek (found : rows.seek key k = some (id, row)) :
    rows.get id = some row ∧ key row = k :=
  ⟨mem_list.mp (List.mem_of_find?_eq_some found), by simpa using List.find?_some found⟩

/-- No row has a key under which there is none. -/
theorem ne_of_seek_eq_none (free : rows.seek key k = none) (stored : rows.get id = some row) :
    key row ≠ k := by
  simpa using List.find?_eq_none.mp free (id, row) (mem_list.mpr stored)

theorem seek_eq_some (unique : Unique key rows) :
    rows.seek key k = some (id, row) ↔ rows.get id = some row ∧ key row = k := by
  constructor
  · exact get_of_seek
  · rintro ⟨stored, isKey⟩
    cases found : rows.seek key k with
    | none => exact absurd isKey (ne_of_seek_eq_none found stored)
    | some entry =>
        obtain ⟨other, row'⟩ := entry
        obtain ⟨stored', isKey'⟩ := get_of_seek found
        obtain rfl := unique id other row row' stored stored' (isKey.trans isKey'.symm)
        rw [Option.some.inj (stored.symm.trans stored')]

/-- A search is settled by what is stored under the key. -/
theorem seek_congr (unique' : Unique key rows') {found : Option (ℕ × α)}
    (same : ∀ id row, found = some (id, row) ↔ rows'.get id = some row ∧ key row = k) :
    rows'.seek key k = found := by
  apply Option.ext
  rintro ⟨id, row⟩
  rw [seek_eq_some unique', same]

/-- Changing rows, but not their keys. -/
theorem seek_map {change : ℕ → α → α} (unique : Unique key rows)
    (keeps : ∀ id row, key (change id row) = key row)
    (same : ∀ id, rows'.get id = (rows.get id).map (change id)) :
    rows'.seek key k = (rows.seek key k).map fun entry => (entry.1, change entry.1 entry.2) := by
  have unique' : Unique key rows' := by
    intro id other row row' stored stored' equal
    obtain ⟨before, was, rfl⟩ := Option.map_eq_some_iff.mp ((same id).symm.trans stored)
    obtain ⟨before', was', rfl⟩ := Option.map_eq_some_iff.mp ((same other).symm.trans stored')
    exact unique id other before before' was was' (by simpa [keeps] using equal)
  apply seek_congr unique'
  intro id row
  simp only [same, Option.map_eq_some_iff, Prod.exists, seek_eq_some unique, Prod.mk.injEq]
  constructor
  · rintro ⟨_, before, ⟨stored, isKey⟩, rfl, rfl⟩
    exact ⟨⟨before, stored, rfl⟩, (keeps _ _).trans isKey⟩
  · rintro ⟨⟨before, stored, rfl⟩, isKey⟩
    exact ⟨id, before, ⟨stored, (keeps _ _).symm.trans isKey⟩, rfl, rfl⟩

/-- Removing rows. -/
theorem seek_filter {keep : ℕ → α → Bool} (unique : Unique key rows)
    (same : ∀ id, rows'.get id = (rows.get id).filter (keep id)) :
    rows'.seek key k = (rows.seek key k).filter fun entry => keep entry.1 entry.2 := by
  have unique' : Unique key rows' := by
    intro id other row row' stored stored' equal
    exact unique id other row row' (Option.filter_eq_some_iff.mp ((same id).symm.trans stored)).1
      (Option.filter_eq_some_iff.mp ((same other).symm.trans stored')).1 equal
  apply seek_congr unique'
  intro id row
  simp only [same, Option.filter_eq_some_iff, seek_eq_some unique]
  tauto

/-- Below the bounds is enough to look. -/
theorem get_filter_of_below {keep : ℕ → α → Bool} {most : ℕ} (within : rows.bound ≤ most)
    (within' : rows'.bound ≤ most)
    (below : ∀ id < most, rows'.get id = (rows.get id).filter (keep id)) (id : ℕ) :
    rows'.get id = (rows.get id).filter (keep id) := by
  by_cases small : id < most
  · exact below id small
  · rw [rows.absent id (by omega), rows'.absent id (by omega)]
    rfl

/-- Inserting a row under a new id and a new key. -/
theorem seek_insert (row : α) (unique : Unique key rows) (free : rows.seek key (key row) = none)
    (fresh : rows.get id = none)
    (same : ∀ other, rows'.get other = if other = id then some row else rows.get other) :
    rows'.seek key k = Function.update (rows.seek key) (key row) (some (id, row)) k := by
  have apart : ∀ other row', rows.get other = some row' → key row' ≠ key row :=
    fun _ _ stored => ne_of_seek_eq_none free stored
  have unique' : Unique key rows' := by
    intro first second row₁ row₂ stored stored' equal
    rw [same] at stored stored'
    split at stored <;> split at stored'
    · rename_i isFirst isSecond
      exact isFirst.trans isSecond.symm
    · obtain rfl := Option.some.inj stored
      exact absurd equal.symm (apart second row₂ stored')
    · obtain rfl := Option.some.inj stored'
      exact absurd equal (apart first row₁ stored)
    · exact unique first second row₁ row₂ stored stored' equal
  apply seek_congr unique'
  intro other row'
  rw [same]
  by_cases isKey : k = key row
  · subst isKey
    rw [Function.update_self]
    grind
  · rw [Function.update_of_ne isKey, seek_eq_some unique]
    grind

/-- What a search by key and another condition finds. -/
theorem filter_list_of_seek (unique : Unique key rows) (keep : α → Bool) :
    (rows.list.filter fun entry => key entry.2 = k && keep entry.2) =
      ((rows.seek key k).filter fun entry => keep entry.2).toList := by
  have apart : (rows.list.filter fun entry => key entry.2 = k && keep entry.2).Nodup :=
    (rows.pairwise_list.imp fun differ equal => differ (congrArg Prod.fst equal)).filter _
  have isFound : ∀ entry, entry ∈ (rows.list.filter fun entry => key entry.2 = k && keep entry.2) ↔
      (rows.seek key k).filter (fun entry => keep entry.2) = some entry := by
    rintro ⟨id, row⟩
    simp [List.mem_filter, Option.filter_eq_some_iff, seek_eq_some unique, and_assoc]
  cases found : (rows.seek key k).filter fun entry => keep entry.2 with
  | none =>
      refine List.eq_nil_iff_forall_not_mem.mpr fun entry member => ?_
      exact absurd (found.symm.trans ((isFound entry).mp member)) (by simp)
  | some entry =>
      have single : [entry].Nodup := List.nodup_singleton entry
      refine List.perm_singleton.mp ((List.perm_ext_iff_of_nodup apart single).mpr fun other => ?_)
      rw [isFound, found, List.mem_singleton]
      exact ⟨fun equal => (Option.some.inj equal).symm, fun equal => equal ▸ rfl⟩

end Rows

end ReadCommitted

import ReceiptScanner.Sql.Order

/-!
# LIMIT and OFFSET

A reader that asks for one page after another sees each page of another moment. While rows
are only added, a row can only move to a later place, and the reader, who goes on until a
page is short, comes to it.
-/

namespace Sql

variable {α : Type} {rows listed : List α} {row : α} {index limit offset : ℕ}

/-- LIMIT and OFFSET. -/
def page (limit offset : ℕ) (rows : List α) : List α := (rows.drop offset).take limit

theorem page_map {β : Type} (f : α → β) : page limit offset (rows.map f) =
    (page limit offset rows).map f := by
  rw [page, page, List.map_take, List.map_drop]

/-- A row within the bounds is on the page. -/
theorem mem_page_of_getElem? (here : rows[index]? = some row) (first : offset ≤ index)
    (last : index < offset + limit) : row ∈ page limit offset rows := by
  refine List.mem_iff_getElem?.mpr ⟨index - offset, ?_⟩
  rw [page, List.getElem?_take_of_lt (by omega), List.getElem?_drop, ← here]
  congr 1
  omega

/-- A page with rows beyond it is full. -/
theorem length_page_of_getElem? (here : rows[index]? = some row)
    (beyond : offset + limit ≤ index) : (page limit offset rows).length = limit := by
  have within : index < rows.length := (List.getElem?_eq_some_iff.mp here).1
  rw [page, List.length_take, List.length_drop]
  omega

/-- Where rows are added, a row stays in its place or moves to a later one. -/
theorem exists_later_of_sublist (grows : rows.Sublist listed) (here : rows[index]? = some row) :
    ∃ later, index ≤ later ∧ listed[later]? = some row := by
  induction grows generalizing index with
  | slnil => simp at here
  | cons first grows ih =>
      obtain ⟨later, after, there⟩ := ih here
      exact ⟨later + 1, by omega, there⟩
  | cons_cons first grows ih =>
      cases index with
      | zero => exact ⟨0, Nat.le_refl 0, here⟩
      | succ index =>
          obtain ⟨later, after, there⟩ := ih here
          exact ⟨later + 1, by omega, there⟩

/-- A reader that goes on until a page is short has come to every row that the first page
was taken from. -/
theorem mem_page_of_walk {times : ℕ → List α} {last : ℕ}
    (grows : ∀ i < last, (times i).Sublist (times (i + 1)))
    (short : (page limit (last * limit) (times last)).length < limit) (member : row ∈ times 0) :
    ∃ i ≤ last, row ∈ page limit (i * limit) (times i) := by
  by_contra missed
  -- So far the row was always beyond the page that was read.
  have beyond : ∀ i ≤ last, ∃ index, (i + 1) * limit ≤ index ∧ (times i)[index]? = some row := by
    intro i
    induction i with
    | zero =>
        intro within
        obtain ⟨index, here⟩ := List.mem_iff_getElem?.mp member
        refine ⟨index, ?_, here⟩
        by_contra before
        exact missed ⟨0, within, mem_page_of_getElem? here (by omega) (by omega)⟩
    | succ i ih =>
        intro within
        obtain ⟨index, after, here⟩ := ih (by omega)
        obtain ⟨later, moved, there⟩ := exists_later_of_sublist (grows i (by omega)) here
        refine ⟨later, ?_, there⟩
        by_contra before
        have stops : later < (i + 1) * limit + limit := by
          rw [Nat.succ_mul] at before
          omega
        exact missed ⟨i + 1, within, mem_page_of_getElem? there (by omega) stops⟩
  obtain ⟨index, after, here⟩ := beyond last (Nat.le_refl last)
  rw [Nat.succ_mul] at after
  exact absurd (length_page_of_getElem? here after) (by omega)

section Keys

variable {κ : Type} [LinearOrder κ] {key : α → κ}

/-- With more rows, the keys are listed in the same order with more among them. -/
theorem sublist_of_keys {other : List α} (apart : (rows.map key).Nodup)
    (among : ∀ row ∈ rows, key row ∈ other.map key) :
    ((rows.insertionSort fun left right => key left ≤ key right).map key).Sublist
      ((other.insertionSort fun left right => key left ≤ key right).map key) := by
  have first := permits_insertionSort key rows
  have second := permits_insertionSort key other
  refine List.sublist_of_subperm_of_pairwise (r := (· ≤ ·)) ?_ ?_ ?_
  · have subset : rows.map key ⊆ other.map key := by
      intro value member
      obtain ⟨row, listed, rfl⟩ := List.mem_map.mp member
      exact among row listed
    exact (first.perm.map key).subperm.trans ((List.subperm_of_subset apart subset).trans
      (second.perm.map key).symm.subperm)
  · exact List.pairwise_map.mpr first.sorted
  · exact List.pairwise_map.mpr second.sorted

end Keys

end Sql

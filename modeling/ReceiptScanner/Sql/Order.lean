import Mathlib.Data.List.Sort
import Mathlib.Logic.Equiv.Basic

/-!
# ORDER BY

A query may list its rows in any order in which none stands before a row with a lower key.
Rows that tie are listed as the server likes, so only keys that tell the rows apart fix the
listing.
-/

namespace Sql

variable {α κ : Type} [LinearOrder κ] {key : α → κ} {rows listed : List α}

/-- A listing of the rows that ORDER BY the key permits. -/
structure Permits (key : α → κ) (rows listed : List α) : Prop where
  perm : listed.Perm rows
  sorted : listed.Pairwise fun left right => key left ≤ key right

/-- Sorting by the key is one of the listings. -/
theorem permits_insertionSort (key : α → κ) (rows : List α) :
    Permits key rows (rows.insertionSort fun left right => key left ≤ key right) := by
  have total : Std.Total fun left right => key left ≤ key right :=
    ⟨fun left right => le_total (key left) (key right)⟩
  have trans : IsTrans α fun left right => key left ≤ key right :=
    ⟨fun _ _ _ => le_trans⟩
  exact ⟨List.perm_insertionSort _ rows, List.pairwise_insertionSort _ rows⟩

/-- Where the key tells the rows apart there is one listing. -/
theorem Permits.eq {other : List α}
    (apart : ∀ left ∈ rows, ∀ right ∈ rows, key left = key right → left = right)
    (first : Permits key rows listed) (second : Permits key rows other) : listed = other := by
  apply (first.perm.trans second.perm.symm).eq_of_pairwise _ first.sorted second.sorted
  intro left right inFirst inSecond below above
  exact apart left (first.perm.mem_iff.mp inFirst) right (second.perm.mem_iff.mp inSecond)
    (le_antisymm below above)

/-- A listing by a key that refines another is a listing by the other. -/
theorem Permits.coarsen {κ' : Type} [LinearOrder κ'] {coarse : α → κ'}
    (refines : ∀ left right, key left ≤ key right → coarse left ≤ coarse right)
    (permits : Permits key rows listed) : Permits coarse rows listed :=
  ⟨permits.perm, permits.sorted.imp fun {left right} below => refines left right below⟩

section Stable

variable {r s : α → α → Prop} [DecidableRel r] [DecidableRel s]

theorem orderedInsert_congr {row : α} {rows : List α} (same : ∀ other ∈ rows, r row other ↔ s row other) :
    rows.orderedInsert r row = rows.orderedInsert s row := by
  induction rows with
  | nil => rfl
  | cons first rest ih =>
      have here := same first List.mem_cons_self
      by_cases before : r row first
      · rw [List.orderedInsert_cons_of_le r rest before,
          List.orderedInsert_cons_of_le s rest (here.mp before)]
      · rw [List.orderedInsert_of_not_le r rest before,
          List.orderedInsert_of_not_le s rest fun after => before (here.mpr after),
          ih fun other among => same other (List.mem_cons_of_mem _ among)]

/-- A stable sort only looks at rows in the order that they are listed in. -/
theorem insertionSort_congr (same : rows.Pairwise fun left right => (r left right ↔ s left right)) :
    rows.insertionSort r = rows.insertionSort s := by
  induction rows with
  | nil => rfl
  | cons first rest ih =>
      obtain ⟨here, later⟩ := List.pairwise_cons.mp same
      rw [List.insertionSort_cons, List.insertionSort_cons, ih later]
      apply orderedInsert_congr
      intro other among
      exact here other ((List.mem_insertionSort s).mp among)

end Stable

/-- Two rows that tie can change places. -/
theorem Permits.swap [DecidableEq α] (permits : Permits key rows listed) (nodup : rows.Nodup)
    {first second : α} (inFirst : first ∈ rows) (inSecond : second ∈ rows)
    (tie : key first = key second) :
    Permits key rows (listed.map (Equiv.swap first second)) := by
  have keySwap : ∀ row, key (Equiv.swap first second row) = key row := by
    intro row
    by_cases isFirst : row = first
    · rw [isFirst, Equiv.swap_apply_left, tie]
    by_cases isSecond : row = second
    · rw [isSecond, Equiv.swap_apply_right, tie]
    · rw [Equiv.swap_apply_of_ne_of_ne isFirst isSecond]
  have memSwap : ∀ row, Equiv.swap first second row ∈ rows ↔ row ∈ rows := by
    intro row
    by_cases isFirst : row = first
    · rw [isFirst, Equiv.swap_apply_left]
      exact iff_of_true inSecond inFirst
    by_cases isSecond : row = second
    · rw [isSecond, Equiv.swap_apply_right]
      exact iff_of_true inFirst inSecond
    · rw [Equiv.swap_apply_of_ne_of_ne isFirst isSecond]
  constructor
  · have nodupListed := permits.perm.nodup_iff.mpr nodup
    rw [List.perm_ext_iff_of_nodup (nodupListed.map (Equiv.injective _)) nodup]
    intro row
    rw [List.mem_map]
    constructor
    · rintro ⟨before, among, rfl⟩
      exact (memSwap before).mpr (permits.perm.mem_iff.mp among)
    · intro among
      refine ⟨Equiv.swap first second row, ?_, Equiv.swap_apply_self ..⟩
      exact permits.perm.mem_iff.mpr ((memSwap row).mpr among)
  · rw [List.pairwise_map]
    apply permits.sorted.imp
    intro left right below
    rwa [keySwap, keySwap]

/-- Where two rows tie there is more than one listing. -/
theorem Permits.exists_ne [DecidableEq α] (permits : Permits key rows listed) (nodup : rows.Nodup)
    {first second : α} (inFirst : first ∈ rows) (inSecond : second ∈ rows)
    (different : first ≠ second) (tie : key first = key second) :
    ∃ other, Permits key rows other ∧ other ≠ listed := by
  refine ⟨_, permits.swap nodup inFirst inSecond tie, ?_⟩
  intro same
  have fixed : listed.map (Equiv.swap first second) = listed.map id := by rw [same, List.map_id]
  have moved := List.map_inj_left.mp fixed first (permits.perm.mem_iff.mpr inFirst)
  rw [Equiv.swap_apply_left] at moved
  exact different moved.symm

end Sql

import Mathlib.Algebra.BigOperators.Ring.List
import Mathlib.Algebra.Order.Ring.Int
import Mathlib.Data.List.Nodup
import Mathlib.Tactic.Linarith

/-!
# Queries

The meaning of a SELECT over tables given as lists of rows: conditions have three
truth values, of which ON and WHERE keep only `yes`, an outer join pads a row
without a partner, and an integer expression fails when its type does not hold the
result.
-/

namespace Sql

/-- The truth values of a condition. -/
inductive Truth where
  | yes
  | no
  | unknown
deriving DecidableEq, Repr

namespace Truth

/-- A condition on columns that are not null. -/
def of : Bool → Truth
  | true => yes
  | false => no

/-- AND, which one false operand decides. -/
def and : Truth → Truth → Truth
  | no, _ => no
  | _, no => no
  | yes, yes => yes
  | _, _ => unknown

/-- OR, which one true operand decides. -/
def or : Truth → Truth → Truth
  | yes, _ => yes
  | _, yes => yes
  | no, no => no
  | _, _ => unknown

/-- NOT. -/
def not : Truth → Truth
  | yes => no
  | no => yes
  | unknown => unknown

/-- What ON and WHERE keep. -/
def holds (truth : Truth) : Bool := truth = yes

@[simp] theorem holds_of (value : Bool) : (of value).holds = value := by cases value <;> rfl

@[simp] theorem and_of (left right : Bool) : (of left).and (of right) = of (left && right) := by
  cases left <;> cases right <;> rfl

@[simp] theorem or_of (left right : Bool) : (of left).or (of right) = of (left || right) := by
  cases left <;> cases right <;> rfl

@[simp] theorem of_false_and (right : Truth) : (of false).and right = of false := rfl

@[simp] theorem of_true_and (right : Truth) : (of true).and right = right := by
  cases right <;> rfl

@[simp] theorem of_true_or (right : Truth) : (of true).or right = of true := rfl

@[simp] theorem of_false_or (right : Truth) : (of false).or right = right := by
  cases right <;> rfl

@[simp] theorem not_of (value : Bool) : (of value).not = of !value := by cases value <;> rfl

@[simp] theorem holds_and (left right : Truth) :
    (left.and right).holds = (left.holds && right.holds) := by
  cases left <;> cases right <;> rfl

@[simp] theorem holds_or (left right : Truth) :
    (left.or right).holds = (left.holds || right.holds) := by
  cases left <;> cases right <;> rfl

end Truth

section Columns

variable {α : Type}

/-- A comparison, unknown where an operand is null. -/
def compareBy (rel : α → α → Bool) : Option α → Option α → Truth
  | some left, some right => .of (rel left right)
  | _, _ => .unknown

/-- IS NULL -/
def isNull (column : Option α) : Truth := .of column.isNone

/-- IS NOT NULL -/
def isNotNull (column : Option α) : Truth := .of column.isSome

@[simp] theorem isNull_eq (column : Option α) : isNull column = .of column.isNone := rfl

@[simp] theorem isNotNull_eq (column : Option α) : isNotNull column = .of column.isSome := rfl

@[simp] theorem compareBy_some (rel : α → α → Bool) (left right : α) :
    compareBy rel (some left) (some right) = .of (rel left right) := rfl

@[simp] theorem compareBy_none (rel : α → α → Bool) (left : Option α) :
    compareBy rel left none = .unknown := by
  cases left <;> rfl

end Columns

/-- A BIGINT expression: an error where the type does not hold the result. -/
def bigint (n : ℤ) : Option ℤ :=
  if -9223372036854775808 ≤ n ∧ n ≤ 9223372036854775807 then some n else none

/-- The type BIGINT holds the number. -/
def isBigint (n : ℤ) : Bool := (bigint n).isSome

theorem isBigint_iff {n : ℤ} :
    isBigint n ↔ -9223372036854775808 ≤ n ∧ n ≤ 9223372036854775807 := by
  unfold isBigint bigint
  split <;> simp_all

theorem bigint_of_isBigint {n : ℤ} (fits : isBigint n) : bigint n = some n :=
  if_pos (isBigint_iff.mp fits)

section Joins

variable {α β : Type}

/-- WHERE. -/
def filterWhere (condition : α → Truth) (rows : List α) : List α :=
  rows.filter fun row => (condition row).holds

/-- JOIN ... ON. -/
def join (on : α → β → Truth) (left : List α) (right : List β) : List (α × β) :=
  left.flatMap fun row => (right.filter fun other => (on row other).holds).map fun other =>
    (row, other)

/-- LEFT JOIN ... ON. -/
def leftJoin (on : α → β → Truth) (left : List α) (right : List β) : List (α × Option β) :=
  left.flatMap fun row =>
    match right.filter fun other => (on row other).holds with
    | [] => [(row, none)]
    | partners => partners.map fun other => (row, some other)

/-- No row has two partners among `right`. -/
def OnKey (on : α → β → Truth) (right : List β) : Prop :=
  ∀ row, right.Pairwise fun first second => ¬ ((on row first).holds ∧ (on row second).holds)

/-- A filter that selects at most one row selects what a search finds. -/
theorem filter_eq_find? {keep : β → Bool} {rows : List β}
    (one : rows.Pairwise fun first second => ¬ (keep first ∧ keep second)) :
    rows.filter keep = (rows.find? keep).toList := by
  induction rows with
  | nil => rfl
  | cons row rest ih =>
      rw [List.pairwise_cons] at one
      by_cases kept : keep row
      · have none : rest.filter keep = [] := by
          rw [List.filter_eq_nil_iff]
          intro other member also
          exact one.1 other member ⟨kept, also⟩
        simp [kept, none]
      · simp [kept, ih one.2]

/-- On a key, an outer join has each row of the left once. -/
theorem leftJoin_eq {on : α → β → Truth} {right : List β} (key : OnKey on right)
    (left : List α) :
    leftJoin on left right =
      left.map fun row => (row, right.find? fun other => (on row other).holds) := by
  unfold leftJoin
  rw [List.map_eq_flatMap]
  congr 1
  funext row
  rw [filter_eq_find? (key row)]
  cases right.find? fun other => (on row other).holds <;> rfl

/-- On a key, a join has each row of the left that has a partner once. -/
theorem join_eq {on : α → β → Truth} {right : List β} (key : OnKey on right) (left : List α) :
    join on left right =
      left.filterMap fun row =>
        (right.find? fun other => (on row other).holds).map fun other => (row, other) := by
  unfold join
  rw [List.filterMap_eq_flatMap_toList]
  congr 1
  funext row
  rw [filter_eq_find? (key row)]
  cases right.find? fun other => (on row other).holds <;> rfl

@[simp] theorem mem_join {on : α → β → Truth} {left : List α} {right : List β} {row : α}
    {other : β} :
    (row, other) ∈ join on left right ↔ row ∈ left ∧ other ∈ right ∧ (on row other).holds := by
  simp only [join, List.mem_flatMap, List.mem_map, List.mem_filter, Prod.mk.injEq]
  constructor
  · rintro ⟨_, inLeft, _, ⟨inRight, holds⟩, rfl, rfl⟩
    exact ⟨inLeft, inRight, holds⟩
  · rintro ⟨inLeft, inRight, holds⟩
    exact ⟨row, inLeft, other, ⟨inRight, holds⟩, rfl, rfl⟩

@[simp] theorem mem_filterWhere {condition : α → Truth} {rows : List α} {row : α} :
    row ∈ filterWhere condition rows ↔ row ∈ rows ∧ (condition row).holds :=
  List.mem_filter

/-- Each row of the left is in a join on a key at most once. -/
theorem pairwise_join {on : α → β → Truth} {right : List β} (key : OnKey on right)
    {rel : α → α → Prop} {left : List α} (apart : left.Pairwise rel) :
    (join on left right).Pairwise fun first second => rel first.1 second.1 := by
  rw [join_eq key]
  refine List.Pairwise.filterMap _ ?_ apart
  intro first second related one isOne other isOther
  obtain ⟨_, -, rfl⟩ := Option.map_eq_some_iff.mp isOne
  obtain ⟨_, -, rfl⟩ := Option.map_eq_some_iff.mp isOther
  exact related

/-- A sum over a WHERE adds nothing for a row left out. -/
theorem sum_filter (keep : α → Bool) (amount : α → ℤ) (rows : List α) :
    ((rows.filter keep).map amount).sum =
      (rows.map fun row => if keep row then amount row else 0).sum := by
  rw [List.sum_map_ite]
  simp

/-- The pairs a join adds up may be grouped by either side. -/
theorem sum_join (on : α → β → Truth) (amount : α → β → ℤ) (left : List α) (right : List β) :
    ((join on left right).map fun pair => amount pair.1 pair.2).sum =
      (right.map fun other => ((left.filter fun row => (on row other).holds).map fun row =>
        amount row other).sum).sum := by
  induction left with
  | nil => simp [join]
  | cons row rest ih =>
      have here : ∀ other, (((row :: rest).filter fun row => (on row other).holds).map fun row =>
          amount row other).sum =
          (if (on row other).holds then amount row other else 0) +
            ((rest.filter fun row => (on row other).holds).map fun row => amount row other).sum := by
        intro other
        rw [List.filter_cons]
        split <;> simp
      simp only [here, List.sum_map_add, ← ih, ← sum_filter (fun other => (on row other).holds)]
      simp [join, Function.comp_def]

/-- Where the rows of the left that belong to a row of the right add up to its total, so do
the pairs of the join, whichever rows of the right are asked for. -/
theorem sum_join_where (on : α → β → Truth) (left : List α) (right : List β) (counts : α → Bool)
    (amount : α → ℤ) (total sign : β → ℤ) (keep : β → Bool)
    (balanced : ∀ other ∈ right,
      ((left.filter fun row => (on row other).holds && counts row).map amount).sum =
        total other) :
    (((join on left right).filter fun pair => counts pair.1 && keep pair.2).map fun pair =>
      amount pair.1 * sign pair.2).sum =
    ((right.filter keep).map fun other => total other * sign other).sum := by
  rw [sum_filter, sum_filter, sum_join on fun row other =>
    if counts row && keep other then amount row * sign other else 0]
  congr 1
  apply List.map_congr_left
  intro other member
  rw [← balanced other member]
  by_cases kept : keep other
  · simp only [kept, Bool.and_true, if_true]
    rw [← List.sum_map_mul_right, ← sum_filter, List.filter_filter]
    simp only [Bool.and_comm]
  · simp [kept]

end Joins

/-- An expression that fails on no row. -/
theorem mapM_eq_some {α β : Type} {select : α → Option β} (result : α → β) {rows : List α}
    (possible : ∀ row ∈ rows, select row = some (result row)) :
    rows.mapM select = some (rows.map result) := by
  induction rows with
  | nil => rfl
  | cons row rest ih =>
      rw [List.mapM_cons, possible row List.mem_cons_self,
        ih fun other member => possible other (List.mem_cons_of_mem _ member)]
      rfl

end Sql

import Mathlib.Data.List.Count
import Mathlib.Data.List.Perm.Subperm
import Mathlib.Data.List.Range
import Mathlib.Data.Option.Basic

/-!
# Pairings of keyed lists

A pairing gives each element of a list at most one element of another, by its place. Where
it uses no place twice and pairs equal keys only, it pairs of each key at most the smaller
of the two counts; a pairing that reaches these bounds is as large as any.
-/

namespace Matching

variable {κ : Type} {left right : List κ} {pairs : List (Option ℕ)}

/-- No place is used twice, and only equal keys are paired. -/
structure Keyed (left right : List κ) (pairs : List (Option ℕ)) : Prop where
  once : ∀ j k i : ℕ, pairs[j]? = some (some i) → pairs[k]? = some (some i) → j = k
  keyed : ∀ j i : ℕ, pairs[j]? = some (some i) → ∃ key, left[j]? = some key ∧
    right[i]? = some key

/-- The keys on the left that are paired, in order. -/
def pairedKeys (left : List κ) (pairs : List (Option ℕ)) : List κ :=
  (left.zip pairs).filterMap fun (key, pair) => pair.map fun _ => key

/-- The places on the right that are used, in order. -/
def places (pairs : List (Option ℕ)) : List ℕ := pairs.filterMap id

theorem pairedKeys_sublist : (pairedKeys left pairs).Sublist left := by
  induction left generalizing pairs with
  | nil => exact List.nil_sublist _
  | cons key left inductionHypothesis =>
      cases pairs with
      | nil => exact List.nil_sublist _
      | cons pair pairs =>
          cases pair with
          | none => exact inductionHypothesis.cons key
          | some place => exact inductionHypothesis.cons_cons key

theorem Keyed.tail {key : κ} {pair : Option ℕ}
    (valid : Keyed (key :: left) right (pair :: pairs)) : Keyed left right pairs where
  once j k i first second := Nat.succ_inj.mp (valid.once (j + 1) (k + 1) i first second)
  keyed j i paired := valid.keyed (j + 1) i paired

theorem Keyed.nodup (valid : Keyed left right pairs) : (places pairs).Nodup := by
  refine List.pairwise_filterMap.mpr (List.pairwise_iff_getElem.mpr ?_)
  rintro j k inside inside' before i isJ _ isK rfl
  have first := (List.getElem?_eq_getElem inside).trans (congrArg some isJ)
  have second := (List.getElem?_eq_getElem inside').trans (congrArg some isK)
  exact absurd (valid.once j k i first second) before.ne

/-- The paired keys are those of the places that are used. -/
theorem Keyed.map_places (valid : Keyed left right pairs) :
    (places pairs).map (right[·]?) = (pairedKeys left pairs).map some := by
  induction pairs generalizing left with
  | nil => cases left <;> rfl
  | cons pair pairs inductionHypothesis =>
      cases left with
      | nil =>
          have none : ∀ other ∈ pair :: pairs, other = none := by
            intro other member
            obtain ⟨j, isOther⟩ := List.mem_iff_getElem?.mp member
            cases other with
            | none => rfl
            | some place =>
                obtain ⟨_, absent, -⟩ := valid.keyed j place isOther
                simp at absent
          have empty : places (pair :: pairs) = [] := List.filterMap_eq_nil_iff.mpr none
          rw [empty]
          rfl
      | cons key left =>
          cases pair with
          | none => exact inductionHypothesis valid.tail
          | some place =>
              obtain ⟨_, isKey, there⟩ := valid.keyed 0 place rfl
              obtain rfl := Option.some.inj isKey
              exact congrArg₂ List.cons there (inductionHypothesis valid.tail)

theorem map_range (right : List κ) :
    (List.range right.length).map (right[·]?) = right.map some := by
  refine List.ext_getElem (by simp) fun i inside inside' => ?_
  have small : i < right.length := by simpa using inside
  simp [small]

/-- The paired keys are among those on the right. -/
theorem Keyed.subperm (valid : Keyed left right pairs) :
    ((pairedKeys left pairs).map some).Subperm (right.map some) := by
  rw [← valid.map_places, ← map_range]
  have inside : places pairs ⊆ List.range right.length := by
    intro i used
    obtain ⟨pair, member, isPlace⟩ := List.mem_filterMap.mp used
    obtain rfl : pair = some i := isPlace
    obtain ⟨j, paired⟩ := List.mem_iff_getElem?.mp member
    obtain ⟨key, -, there⟩ := valid.keyed j i paired
    exact List.mem_range.mpr (List.getElem?_eq_some_iff.mp there).1
  obtain ⟨among, same, sublist⟩ := List.subperm_of_subset valid.nodup inside
  exact ⟨among.map _, same.map _, sublist.map _⟩

section Counts

variable [DecidableEq κ] {key : κ}

/-- Of each key at most the smaller of the two counts is paired. -/
theorem Keyed.count_le (valid : Keyed left right pairs) :
    (pairedKeys left pairs).count key ≤ min (left.count key) (right.count key) := by
  refine le_min (pairedKeys_sublist.count_le key) ?_
  have bound := valid.subperm.count_le (some key)
  rwa [List.count_map_of_injective _ _ (Option.some_injective κ),
    List.count_map_of_injective _ _ (Option.some_injective κ)] at bound

/-- A pairing that reaches the smaller count for each key is as large as any. -/
theorem length_le_of_count_eq {best : List (Option ℕ)}
    (reached : ∀ key, (pairedKeys left best).count key = min (left.count key) (right.count key))
    (valid : Keyed left right pairs) :
    (pairedKeys left pairs).length ≤ (pairedKeys left best).length := by
  refine List.Subperm.length_le (List.subperm_ext_iff.mpr fun key _ => ?_)
  rw [reached key]
  exact valid.count_le

end Counts

end Matching

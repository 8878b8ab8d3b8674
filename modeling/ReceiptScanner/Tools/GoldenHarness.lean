import ReceiptScanner.Matching.Keyed
import ReceiptScanner.Receipts.LedgerInput
import ReceiptScanner.Store.Task

/-!
# The golden-set harness

Each labelled item in turn takes an unused scanned item of its amount: the last one of its
own name, else the first one. That pairs as many items as can be paired. A name shared by
one item of each list is not always enough: an earlier labelled item without a namesake
may have taken the scanned one.
-/

namespace ReceiptScanner

namespace GoldenHarness

/-- A labelled item: its amount in main units, and its member `name` where it has one. -/
structure LabelledItem where
  amount : ℚ
  name : Option Json

/-- What the pairing loop looks for: `cents` and `wantName`. -/
structure Want where
  cents : ℤ
  wantName : String
deriving DecidableEq

/-- `std::isalnum` in the C locale. -/
def isAlnum (c : Char) : Bool := c.isAlpha || c.isDigit

/-- Letters and digits only, in lower case. -/
def squash (s : String) : String := String.ofList ((s.toList.filter isAlnum).map Char.toLower)

/-- `cents` of a label: `std::llround` of the amount as a `double`, times 100. -/
def LabelledItem.cents (want : LabelledItem) : ℤ :=
  llroundInt64 (toDouble (toDouble want.amount * 100))

/-- `cents` and `wantName` of a label. A name that is no text counts as empty. Without a
`name` the loop goes on to read `want["name"]` of a constant object, which is undefined. -/
def LabelledItem.want (want : LabelledItem) : Option Want :=
  match want.name with
  | none => none
  | some (.string name) => some ⟨want.cents, squash name⟩
  | some _ => some ⟨want.cents, squash ""⟩

/-- The name that a scanned item is compared by. -/
def squashedName (item : ScannedItem) : String := squash (item.name.getD "")

/-- The inner loop, from scanned item `i` on. -/
def findMatch (used : List Bool) (want : Want) :
    ℕ → Option ℕ → List ScannedItem → Option ℕ
  | _, found, [] => found
  | i, found, item :: rest =>
      let found :=
        if used.getD i false || item.amountCents != want.cents then found
        else if found.isNone || squashedName item == want.wantName then some i
        else found
      findMatch used want (i + 1) found rest

/-- `used[*match] = true`, where there is a match. -/
def markUsed (used : List Bool) : Option ℕ → List Bool
  | some i => used.set i true
  | none => used

/-- The outer loop: what each labelled item is paired with. -/
def pairFrom (items : List ScannedItem) (used : List Bool) : List Want → List (Option ℕ)
  | [] => []
  | want :: rest =>
      let found := findMatch used want 0 none items
      found :: pairFrom items (markUsed used found) rest

/-- What the labelled items are paired with, given what is looked for. -/
def pairWants (labels : List Want) (items : List ScannedItem) : List (Option ℕ) :=
  pairFrom items (List.replicate items.length false) labels

/-- The pairing of a case; without a result there are no items. -/
def pairItems (labels : List LabelledItem) (items : List ScannedItem) :
    Option (List (Option ℕ)) := do
  let wants ← labels.mapM LabelledItem.want
  pure (pairWants wants items)

section Candidates

variable {items : List ScannedItem} {used : List Bool} {want : Want} {found : Option ℕ}
  {i n : ℕ} {item : ScannedItem}

/-- Scanned item `i` is unused and of this amount. -/
def Candidate (items : List ScannedItem) (used : List Bool) (cents : ℤ) (i : ℕ) : Prop :=
  used.getD i false = false ∧ items[i]?.map ScannedItem.amountCents = some cents

/-- Scanned item `i` has the name. -/
def Named (items : List ScannedItem) (name : String) (i : ℕ) : Prop :=
  items[i]?.map squashedName = some name

/-- The choice among the first `n` scanned items: of its own name if there is one, else
the first. -/
structure Chosen (items : List ScannedItem) (used : List Bool) (want : Want) (n : ℕ)
    (found : Option ℕ) : Prop where
  finds : ∀ i, Candidate items used want.cents i → i < n → found ≠ none
  inside : ∀ i, found = some i → i < n
  fits : ∀ i, found = some i → Candidate items used want.cents i
  prefers : ∀ i, found = some i → ¬ Named items want.wantName i →
    ∀ other, Candidate items used want.cents other → other < n →
      ¬ Named items want.wantName other ∧ i ≤ other

theorem chosen_nil : Chosen items used want 0 none where
  finds _ _ less := absurd less (Nat.not_lt_zero _)
  inside _ none := by cases none
  fits _ none := by cases none
  prefers _ none := by cases none

/-- One turn of the inner loop keeps the choice. -/
theorem Chosen.step (chosen : Chosen items used want n found) (here : items[n]? = some item) :
    Chosen items used want (n + 1)
      (if used.getD n false || item.amountCents != want.cents then found
        else if found.isNone || squashedName item == want.wantName then some n
        else found) := by
  have named : Named items want.wantName n ↔ squashedName item = want.wantName := by
    simp [Named, here]
  split
  · rename_i skipped
    -- Not a candidate, so nothing changes.
    have other : ¬ Candidate items used want.cents n := by
      rintro ⟨free, amount⟩
      have same : item.amountCents = want.cents := by simpa [here] using amount
      rw [free, same] at skipped
      simp at skipped
    have earlier : ∀ i, Candidate items used want.cents i → i < n + 1 → i < n := by
      intro i candidate less
      rcases Nat.lt_succ_iff_lt_or_eq.mp less with less | rfl
      · exact less
      · exact absurd candidate other
    exact {
      finds := fun i candidate less => chosen.finds i candidate (earlier i candidate less)
      inside := fun i isFound => (chosen.inside i isFound).trans (Nat.lt_succ_self n)
      fits := chosen.fits
      prefers := fun i isFound foreign other candidate less =>
        chosen.prefers i isFound foreign other candidate (earlier other candidate less) }
  · rename_i open_
    have candidate : Candidate items used want.cents n := by
      simpa [Candidate, here] using open_
    split
    · rename_i taken
      refine ⟨fun _ _ _ => by simp, ?_, ?_, ?_⟩
      · rintro i ⟨⟩
        exact Nat.lt_succ_self n
      · rintro i ⟨⟩
        exact candidate
      · rintro i ⟨⟩ foreign other candidate' less
        -- Without its name it is taken only as the first candidate.
        have isNone : found = none := by
          rw [named] at foreign
          simpa [foreign] using taken
        rcases Nat.lt_succ_iff_lt_or_eq.mp less with less | rfl
        · exact absurd isNone (chosen.finds other candidate' less)
        · exact ⟨foreign, Nat.le_refl _⟩
    · rename_i passed
      simp only [Bool.or_eq_true, beq_iff_eq, not_or] at passed
      refine ⟨fun _ _ _ none => passed.1 (by simp [none]), ?_, chosen.fits, ?_⟩
      · exact fun i isFound => (chosen.inside i isFound).trans (Nat.lt_succ_self n)
      · intro i isFound foreign other candidate' less
        rcases Nat.lt_succ_iff_lt_or_eq.mp less with less | rfl
        · exact chosen.prefers i isFound foreign other candidate' less
        · exact ⟨fun isNamed => passed.2 (named.mp isNamed), (chosen.inside i isFound).le⟩

/-- What the inner loop finds. -/
theorem Chosen.findMatch (chosen : Chosen items used want n found) {rest : List ScannedItem}
    (left : items.drop n = rest) :
    Chosen items used want items.length (findMatch used want n found rest) := by
  induction rest generalizing n found with
  | nil =>
      have past : items.length ≤ n := List.drop_eq_nil_iff.mp left
      exact {
        finds := fun i candidate less => chosen.finds i candidate (less.trans_le past)
        inside := fun i isFound => by
          obtain ⟨_, amount⟩ := chosen.fits i isFound
          obtain ⟨item, there, -⟩ := Option.map_eq_some_iff.mp amount
          exact (List.getElem?_eq_some_iff.mp there).1
        fits := chosen.fits
        prefers := fun i isFound foreign other candidate less =>
          chosen.prefers i isFound foreign other candidate (less.trans_le past) }
  | cons item rest inductionHypothesis =>
      have here : items[n]? = some item := by
        have first := congrArg (·[0]?) left
        simpa using first
      refine inductionHypothesis (chosen.step here) ?_
      rw [← List.drop_drop, left]
      rfl

/-- What the inner loop finds from the start. -/
theorem findMatch_chosen (items : List ScannedItem) (used : List Bool) (want : Want) :
    Chosen items used want items.length (findMatch used want 0 none items) :=
  chosen_nil.findMatch (List.drop_zero ..)

end Candidates

section Turns

variable (items : List ScannedItem) {labels : List Want} {used : List Bool}
  {want : Want} {k : ℕ}

theorem length_pairFrom : (pairFrom items used labels).length = labels.length := by
  induction labels generalizing used with
  | nil => rfl
  | cons want labels inductionHypothesis => exact congrArg Nat.succ inductionHypothesis

theorem getD_markUsed {found : Option ℕ} (inside : ∀ i, found = some i → i < used.length) (o : ℕ) :
    (markUsed used found).getD o false = true ↔ used.getD o false = true ∨ found = some o := by
  cases found with
  | none => simp [markUsed]
  | some i =>
      have small := inside i rfl
      simp only [markUsed, List.getD_eq_getElem?_getD, List.getElem?_set, Option.some.injEq]
      by_cases same : i = o
      · subst same
        simp [small]
      · simp [same]

/-- In turn `k` the used items are those that were paired before. -/
theorem pairFrom_turn (sized : used.length = items.length) (here : labels[k]? = some want) :
    ∃ now : List Bool, (pairFrom items used labels)[k]? = some (findMatch now want 0 none items) ∧
      ∀ o, now.getD o false = true ↔ used.getD o false = true ∨
        ∃ earlier < k, (pairFrom items used labels)[earlier]? = some (some o) := by
  induction labels generalizing used k with
  | nil => simp at here
  | cons first labels inductionHypothesis =>
      cases k with
      | zero =>
          obtain rfl : first = want := by simpa using here
          exact ⟨used, rfl, by simp⟩
      | succ k =>
          have marks := @getD_markUsed used (findMatch used first 0 none items) fun i isFound =>
            sized ▸ (findMatch_chosen items used first).inside i isFound
          have sized' : (markUsed used (findMatch used first 0 none items)).length =
              items.length := by
            cases findMatch used first 0 none items <;> simp [markUsed, sized]
          obtain ⟨now, paired, isUsed⟩ := inductionHypothesis sized' here
          refine ⟨now, paired, fun o => ?_⟩
          rw [isUsed, marks]
          constructor
          · rintro ((old | isFirst) | ⟨earlier, less, there⟩)
            · exact .inl old
            · exact .inr ⟨0, Nat.succ_pos k, congrArg some isFirst⟩
            · exact .inr ⟨earlier + 1, Nat.succ_lt_succ less, there⟩
          · rintro (old | ⟨earlier, less, there⟩)
            · exact .inl (.inl old)
            · cases earlier with
              | zero => exact .inl (.inr (Option.some.inj there))
              | succ earlier => exact .inr ⟨earlier, Nat.lt_of_succ_lt_succ less, there⟩

/-- What turn `k` of the pairing chooses, and among which items. -/
theorem pairWants_turn (here : labels[k]? = some want) :
    ∃ now found, (pairWants labels items)[k]? = some found ∧
      Chosen items now want items.length found ∧ ∀ o, now.getD o false = true ↔
        ∃ earlier < k, (pairWants labels items)[earlier]? = some (some o) := by
  obtain ⟨now, paired, isUsed⟩ :=
    pairFrom_turn items (List.length_replicate : (List.replicate _ false).length = _) here
  refine ⟨now, _, paired, findMatch_chosen items now want, fun o => ?_⟩
  rw [isUsed, or_iff_right]
  · rfl
  · simp only [List.getD_eq_getElem?_getD, List.getElem?_replicate]
    split <;> simp

/-- The pairing uses no scanned item twice and pairs equal amounts. -/
theorem keyed_pairWants (labels : List Want) (items : List ScannedItem) :
    Matching.Keyed (labels.map Want.cents) (items.map ScannedItem.amountCents)
      (pairWants labels items) := by
  have turn : ∀ j i : ℕ, (pairWants labels items)[j]? = some (some i) →
      ∃ (want : Want) (now : List Bool), labels[j]? = some want ∧
        Candidate items now want.cents i ∧ ∀ o, now.getD o false = true ↔
          ∃ earlier < j, (pairWants labels items)[earlier]? = some (some o) := by
    intro j i paired
    have inside : j < labels.length := by
      have inside := (List.getElem?_eq_some_iff.mp paired).1
      rwa [pairWants, length_pairFrom] at inside
    have here := List.getElem?_eq_getElem inside
    obtain ⟨now, found, there, chosen, isUsed⟩ := pairWants_turn items here
    obtain rfl := Option.some.inj (there.symm.trans paired)
    exact ⟨_, now, here, chosen.fits i rfl, isUsed⟩
  have earlier : ∀ j k i : ℕ, j < k → (pairWants labels items)[j]? = some (some i) →
      (pairWants labels items)[k]? ≠ some (some i) := by
    intro j k i less first second
    obtain ⟨_, now, -, ⟨free, -⟩, isUsed⟩ := turn k i second
    rw [(isUsed i).mpr ⟨j, less, first⟩] at free
    cases free
  constructor
  · intro j k i first second
    rcases Nat.lt_trichotomy j k with less | same | more
    · exact absurd second (earlier j k i less first)
    · exact same
    · exact absurd first (earlier k j i more second)
  · intro j i paired
    obtain ⟨want, _, here, ⟨-, amount⟩, -⟩ := turn j i paired
    exact ⟨want.cents, by simp [here], by simpa using amount⟩

end Turns

section Counts

variable {labels : List Want} {items : List ScannedItem} {used : List Bool} {cents : ℤ}
  {i : ℕ}

/-- The unused scanned items of an amount. -/
def unused (items : List ScannedItem) (used : List Bool) (cents : ℤ) : List ℕ :=
  (List.range items.length).filter fun i =>
    used.getD i false == false && items[i]?.map ScannedItem.amountCents == some cents

theorem mem_unused : i ∈ unused items used cents ↔ Candidate items used cents i := by
  simp only [unused, List.mem_filter, List.mem_range, Bool.and_eq_true, beq_iff_eq, Candidate]
  refine and_iff_right_of_imp fun ⟨_, amount⟩ => ?_
  obtain ⟨item, there, -⟩ := Option.map_eq_some_iff.mp amount
  exact (List.getElem?_eq_some_iff.mp there).1

/-- Marking an item takes it from the unused ones. -/
theorem unused_set (inside : i < used.length) :
    unused items (used.set i true) cents = (unused items used cents).erase i := by
  have nodup : (unused items used cents).Nodup := List.nodup_range.filter _
  rw [nodup.erase_eq_filter, unused, unused, List.filter_filter]
  refine List.filter_congr fun o _ => ?_
  simp only [List.getD_eq_getElem?_getD, List.getElem?_set]
  by_cases same : i = o
  · subst same
    simp [inside]
  · simp [same, Ne.symm same]

/-- At first every item of the amount is unused. -/
theorem length_unused_replicate :
    (unused items (List.replicate items.length false) cents).length =
      (items.map ScannedItem.amountCents).count cents := by
  have free : unused items (List.replicate items.length false) cents =
      (List.range items.length).filter fun i =>
        (items.map ScannedItem.amountCents)[i]? == some cents := by
    refine List.filter_congr fun i member => ?_
    simp [List.mem_range.mp member]
  have places := Matching.map_range (items.map ScannedItem.amountCents)
  rw [List.length_map] at places
  rw [free, ← List.count_map_of_injective _ _ (Option.some_injective ℤ), ← places,
    List.count_eq_length_filter, List.filter_map, List.length_map]
  rfl

/-- Of each amount as many are paired as can be. -/
theorem count_pairFrom (sized : used.length = items.length) :
    (Matching.pairedKeys (labels.map Want.cents) (pairFrom items used labels)).count cents =
      min ((labels.map Want.cents).count cents) (unused items used cents).length := by
  induction labels generalizing used with
  | nil => simp [pairFrom, Matching.pairedKeys]
  | cons want labels inductionHypothesis =>
      have chosen := findMatch_chosen items used want
      rw [List.map_cons, pairFrom]
      cases isFound : findMatch used want 0 none items with
      | none =>
          refine (inductionHypothesis sized).trans ?_
          by_cases same : want.cents = cents
          · -- The amount has run out.
            have none : unused items used cents = [] := by
              refine List.eq_nil_iff_forall_not_mem.mpr fun i member => ?_
              have candidate := mem_unused.mp member
              obtain ⟨item, there, -⟩ := Option.map_eq_some_iff.mp candidate.2
              exact chosen.finds i (same ▸ candidate) (List.getElem?_eq_some_iff.mp there).1 isFound
            simp [none]
          · rw [List.count_cons_of_ne same]
      | some i =>
          have candidate := chosen.fits i isFound
          have inside : i < used.length := sized ▸ chosen.inside i isFound
          have rest := @inductionHypothesis (used.set i true) (List.length_set.trans sized)
          rw [unused_set inside] at rest
          refine (List.count_cons ..).trans ?_
          rw [markUsed, List.count_cons]
          refine (congrArg (· + _) rest).trans ?_
          by_cases same : want.cents = cents
          · have member : i ∈ unused items used cents := mem_unused.mpr (same ▸ candidate)
            have some_ := List.length_pos_of_mem member
            rw [List.length_erase_of_mem member, if_pos (beq_iff_eq.mpr same)]
            omega
          · have foreign : i ∉ unused items used cents := fun member =>
              same (Option.some.inj (candidate.2.symm.trans (mem_unused.mp member).2))
            rw [List.erase_of_not_mem foreign, if_neg (by simpa using same)]
            rfl

end Counts

section Namesakes

/-- Labelled item `j` and scanned item `i` are the only ones of their lists with this amount
and name. -/
structure OnlyNamesakes (labels : List Want) (items : List ScannedItem) (j i : ℕ)
    (cents : ℤ) (name : String) : Prop where
  labelled : ∀ k : ℕ, (labels[k]?.map fun want => (want.cents, want.wantName)) = some (cents, name) ↔
    k = j
  scanned : ∀ o : ℕ, (items[o]?.map fun item => (item.amountCents, squashedName item)) =
    some (cents, name) ↔ o = i

/-- Labelled item `k` took scanned item `i` for want of a namesake: every scanned item of
its amount and its own name was used before, and so was every earlier one of its amount. -/
def TookFor (labels : List Want) (items : List ScannedItem) (pairs : List (Option ℕ))
    (cents : ℤ) (k i : ℕ) : Prop :=
  pairs[k]? = some (some i) ∧ ∃ want, labels[k]? = some want ∧ want.cents = cents ∧
    ∀ o : ℕ, items[o]?.map ScannedItem.amountCents = some cents →
      (Named items want.wantName o ∨ o < i) → ∃ earlier < k, pairs[earlier]? = some (some o)

/-- Whoever took the scanned one of two namesakes before its turn had no namesake left. -/
theorem tookFor {labels : List Want} {items : List ScannedItem} {j k i : ℕ} {cents : ℤ}
    {name : String} (only : OnlyNamesakes labels items j i cents name) (less : k < j)
    (took : (pairWants labels items)[k]? = some (some i)) :
    TookFor labels items (pairWants labels items) cents k i := by
  obtain ⟨item, there, isItem⟩ := Option.map_eq_some_iff.mp ((only.scanned i).mpr rfl)
  obtain ⟨rfl, rfl⟩ := Prod.mk.inj isItem
  have inside : k < labels.length := by
    have inside := (List.getElem?_eq_some_iff.mp took).1
    rwa [pairWants, length_pairFrom] at inside
  have here := List.getElem?_eq_getElem inside
  obtain ⟨now, found, paired, chosen, isUsed⟩ := pairWants_turn items here
  obtain rfl := Option.some.inj (paired.symm.trans took)
  have onAmount := (chosen.fits i rfl).2
  rw [there] at onAmount
  have onAmount : item.amountCents = labels[k].cents := Option.some.inj onAmount
  refine ⟨took, labels[k], here, onAmount.symm, fun o amount wanted => ?_⟩
  have foreign : ¬ Named items labels[k].wantName i := by
    intro isNamed
    have name : squashedName item = labels[k].wantName := by simpa [Named, there] using isNamed
    have same := (only.labelled k).mp (by simp [here, ← onAmount, ← name])
    exact less.ne same
  refine (isUsed o).mp ?_
  by_contra free
  obtain ⟨item', there', isAmount⟩ := Option.map_eq_some_iff.mp amount
  have candidate : Candidate items now labels[k].cents o := ⟨by simpa using free, onAmount ▸ amount⟩
  have first := chosen.prefers i rfl foreign o candidate (List.getElem?_eq_some_iff.mp there').1
  rcases wanted with isNamed | before
  · exact first.1 isNamed
  · exact absurd first.2 (Nat.not_le.mpr before)

/-- The only namesakes are paired, unless an earlier labelled item took the scanned one for
want of a namesake of its own. -/
theorem pairWants_namesakes {labels : List Want} {items : List ScannedItem} {j i : ℕ}
    {cents : ℤ} {name : String} (only : OnlyNamesakes labels items j i cents name) :
    (pairWants labels items)[j]? = some (some i) ↔
      ¬ ∃ k < j, TookFor labels items (pairWants labels items) cents k i := by
  have valid := keyed_pairWants labels items
  constructor
  · rintro paired ⟨k, less, took, -⟩
    exact less.ne (valid.once k j i took paired)
  · intro free
    obtain ⟨item, there, isItem⟩ := Option.map_eq_some_iff.mp ((only.scanned i).mpr rfl)
    obtain ⟨amount, named⟩ := Prod.mk.inj isItem
    obtain ⟨want, here, isWant⟩ := Option.map_eq_some_iff.mp ((only.labelled j).mpr rfl)
    obtain ⟨rfl, rfl⟩ := Prod.mk.inj isWant
    obtain ⟨now, found, paired, chosen, isUsed⟩ := pairWants_turn items here
    have onAmount : items[i]?.map ScannedItem.amountCents = some want.cents := by simp [there, amount]
    have unused : now.getD i false = false := by
      by_contra taken
      obtain ⟨k, less, took⟩ := (isUsed i).mp (by simpa using taken)
      exact free ⟨k, less, tookFor only less took⟩
    cases found with
    | none => exact absurd rfl (chosen.finds i ⟨unused, onAmount⟩ (List.getElem?_eq_some_iff.mp there).1)
    | some other =>
        have isNamed : Named items want.wantName other := by
          by_contra foreign
          have clash := chosen.prefers other rfl foreign i ⟨unused, onAmount⟩
            (List.getElem?_eq_some_iff.mp there).1
          exact clash.1 (by simp [Named, there, named])
        obtain ⟨item', there', isName⟩ := Option.map_eq_some_iff.mp isNamed
        have onAmount' := (chosen.fits other rfl).2
        rw [there'] at onAmount'
        obtain rfl := (only.scanned other).mp (by
          rw [there']
          exact congrArg some (Prod.ext (Option.some.inj onAmount') isName))
        exact paired

end Namesakes

/-- The pairing uses every scanned item at most once and pairs equal amounts only; it pairs of
each amount the smaller of the two counts, and as many items as any such pairing. The only
namesakes of an amount are paired, unless an earlier labelled item took the scanned one
for want of a namesake of its own. -/
structure PairsFairly (labels : List Want) (items : List ScannedItem)
    (pairs : List (Option ℕ)) : Prop where
  keyed : Matching.Keyed (labels.map Want.cents) (items.map ScannedItem.amountCents) pairs
  counts : ∀ cents, (Matching.pairedKeys (labels.map Want.cents) pairs).count cents =
    min ((labels.map Want.cents).count cents)
      ((items.map ScannedItem.amountCents).count cents)
  largest : ∀ other, Matching.Keyed (labels.map Want.cents)
      (items.map ScannedItem.amountCents) other →
    (Matching.pairedKeys (labels.map Want.cents) other).length ≤
      (Matching.pairedKeys (labels.map Want.cents) pairs).length
  namesakes : ∀ j i cents name, OnlyNamesakes labels items j i cents name →
    (pairs[j]? = some (some i) ↔ ¬ ∃ k < j, TookFor labels items pairs cents k i)

theorem pairsFairly_pairWants (wants : List Want) (items : List ScannedItem) :
    PairsFairly wants items (pairWants wants items) := by
  have counts : ∀ cents, (Matching.pairedKeys (wants.map Want.cents)
      (pairWants wants items)).count cents = min ((wants.map Want.cents).count cents)
        ((items.map ScannedItem.amountCents).count cents) := by
    intro cents
    rw [pairWants, count_pairFrom List.length_replicate, length_unused_replicate]
  exact {
    keyed := keyed_pairWants wants items
    counts := counts
    largest := fun _ valid => Matching.length_le_of_count_eq counts valid
    namesakes := fun _ _ _ _ only => pairWants_namesakes only }

/-- A list of labels is read as long as each has a name. -/
theorem exists_wants {labels : List LabelledItem} (named : ∀ label ∈ labels, label.name ≠ none) :
    ∃ wants, labels.mapM LabelledItem.want = some wants := by
  induction labels with
  | nil => exact ⟨[], rfl⟩
  | cons label labels inductionHypothesis =>
      obtain ⟨present, named⟩ := List.forall_mem_cons.mp named
      obtain ⟨wants, read⟩ := inductionHypothesis named
      obtain ⟨want, isWant⟩ : ∃ want, label.want = some want := by
        unfold LabelledItem.want
        split
        · rename_i absent
          exact absurd absent present
        · exact ⟨_, rfl⟩
        · exact ⟨_, rfl⟩
      exact ⟨want :: wants, by simp [List.mapM_cons, isWant, read]⟩

/-- The harness pairs labelled items that have names fairly. -/
theorem pairsFairly (labels : List LabelledItem) (items : List ScannedItem)
    (named : ∀ label ∈ labels, label.name ≠ none) :
    ∃ wants pairs, labels.mapM LabelledItem.want = some wants ∧
      pairItems labels items = some pairs ∧ PairsFairly wants items pairs := by
  obtain ⟨wants, read⟩ := exists_wants named
  refine ⟨wants, pairWants wants items, read, ?_, pairsFairly_pairWants wants items⟩
  simp [pairItems, read]

/-- Two labelled items at the same amount, of which the second has a namesake. -/
def milkAndBread : List LabelledItem :=
  [⟨5, some (.string "milk")⟩, ⟨5, some (.string "bread")⟩]

/-- What was scanned: the bread, and eggs for the milk. -/
def breadAndEggs : List ScannedItem :=
  [{ name := some "Bread", amountCents := 500 }, { name := some "Eggs", amountCents := 500 }]

theorem pairsFairly_of_breadAndEggs :
    ∃ wants pairs, milkAndBread.mapM LabelledItem.want = some wants ∧
      pairItems milkAndBread breadAndEggs = some pairs ∧ PairsFairly wants breadAndEggs pairs :=
  pairsFairly milkAndBread breadAndEggs (by simp [milkAndBread])

/-- The milk takes the bread, and the bread gets the eggs. -/
theorem not_paired_of_breadAndEggs : ¬ ∀ labels items wants pairs j i cents name,
    labels.mapM LabelledItem.want = some wants → pairItems labels items = some pairs →
      OnlyNamesakes wants items j i cents name → pairs[j]? = some (some i) := by
  intro paired
  have read : milkAndBread.mapM LabelledItem.want = some [⟨500, "milk"⟩, ⟨500, "bread"⟩] := by
    decide +kernel
  have only : OnlyNamesakes [⟨500, "milk"⟩, ⟨500, "bread"⟩] breadAndEggs 1 0 500 "bread" := by
    constructor
    · rintro (_ | _ | k)
      · decide +kernel
      · decide +kernel
      · simp
    · rintro (_ | _ | o)
      · decide +kernel
      · decide +kernel
      · simp [breadAndEggs]
  have answer : pairItems milkAndBread breadAndEggs = some [some 0, some 1] := by decide +kernel
  exact absurd (paired _ _ _ _ 1 0 500 "bread" read answer only) (by decide)

end GoldenHarness

end ReceiptScanner

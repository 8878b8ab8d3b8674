import ReceiptScanner.Services.AnthropicScanProvider

/-!
# Category and tag names on their way through the model

The categories are offered by name, the two sides merged where the kind is not known yet,
and a name that comes back is looked up on the kind's side.
-/

namespace ReceiptScanner

open ScanWorker AnthropicScanProvider

section Offered

/-- Append the name if it is new but for its case. -/
def addUnique (names : List String) (name : String) : List String :=
  if names.all fun seen => lower seen != lower name then names ++ [name] else names

theorem subset_addUnique (names : List String) (name : String) : names ⊆ addUnique names name := by
  unfold addUnique
  split
  · exact List.subset_append_left names [name]
  · exact List.Subset.refl names

/-- Whatever was added, the name's spelling is there now but for its case. -/
theorem exists_mem_addUnique (names : List String) (name : String) :
    ∃ kept ∈ addUnique names name, lower kept = lower name := by
  unfold addUnique
  split
  · exact ⟨name, by simp, rfl⟩
  · next seen =>
      rw [List.all_eq_true, not_forall] at seen
      obtain ⟨kept, same⟩ := seen
      simp only [Classical.not_imp, bne_iff_ne, ne_eq, not_not] at same
      exact ⟨kept, same⟩

theorem subset_foldl_addUnique (more names : List String) : names ⊆ more.foldl addUnique names := by
  induction more generalizing names with
  | nil => exact List.Subset.refl names
  | cons name rest inductionHypothesis =>
      exact List.Subset.trans (subset_addUnique names name)
        (inductionHypothesis (addUnique names name))

/-- Every name is kept, but for its case. -/
theorem exists_mem_foldl_addUnique {more : List String} (names : List String) {name : String}
    (among : name ∈ more) : ∃ kept ∈ more.foldl addUnique names, lower kept = lower name := by
  induction more generalizing names with
  | nil => cases among
  | cons head rest inductionHypothesis =>
      obtain rfl | among := List.mem_cons.mp among
      · obtain ⟨kept, isThere, same⟩ := exists_mem_addUnique names name
        exact ⟨kept, subset_foldl_addUnique rest _ isThere, same⟩
      · exact inductionHypothesis (addUnique names head) among

end Offered

section Resolved

/-- The category is on the side of the kind. -/
def onSide (kind : Kind) (ref : CategoryRef) : Bool :=
  ref.isIncome == (rulesFor kind).usesIncomeCategories

/-- The scan names a category by the name the user gave it. -/
theorem offered_of_onSide {taxonomy : Taxonomy} {kind : Kind} {known : Option Kind}
    (mode : known = none ∨ known = some kind) {ref : CategoryRef}
    (owned : ref ∈ taxonomy.categories) (side : onSide kind ref) :
    ∃ name ∈ categoriesFor (makeContext taxonomy known), lower name = lower ref.name := by
  have sided : ref.name ∈ if (rulesFor kind).usesIncomeCategories
      then (makeContext taxonomy known).incomeCategories
      else (makeContext taxonomy known).expenseCategories := by
    simp only [onSide, beq_iff_eq] at side
    split
    · next income =>
        exact List.mem_map_of_mem (List.mem_filter.mpr ⟨owned, by simp [side, income]⟩)
    · next expense =>
        exact List.mem_map_of_mem (List.mem_filter.mpr ⟨owned, by simp [side, expense]⟩)
  obtain rfl | rfl := mode
  · apply exists_mem_foldl_addUnique []
    simp only [List.flatten_cons, List.flatten_nil, List.append_nil, List.mem_append]
    split at sided
    · exact .inr sided
    · exact .inl sided
  · exact ⟨ref.name, sided, rfl⟩

variable {taxonomy : Taxonomy}

/-- The names of a user's categories differ on each side, and those of the tags. -/
structure NamedApart (lowerOf : String → String) (taxonomy : Taxonomy) : Prop where
  categories : (taxonomy.categories.map fun ref => (ref.isIncome, lowerOf ref.name)).Nodup
  tags : (taxonomy.tags.map fun ref => lowerOf ref.name).Nodup

/-- What a name resolves to has that name, and is on the kind's side. -/
theorem resolveCategory_eq_some_iff {lowerOf : String → String}
    (identifies : ∀ left right, lower left = lower right → lowerOf left = lowerOf right)
    (apart : NamedApart lowerOf taxonomy) (name : String) (kind : Kind) (id : ℕ) :
    resolveCategory name kind taxonomy = some id ↔
      ∃ ref ∈ taxonomy.categories, onSide kind ref ∧ lower ref.name = lower name ∧ ref.id = id := by
  unfold resolveCategory
  constructor
  · intro resolved
    obtain ⟨ref, found, isId⟩ := Option.map_eq_some_iff.mp resolved
    have fits := List.find?_some found
    simp only [Bool.and_eq_true, beq_iff_eq] at fits
    exact ⟨ref, List.mem_of_find?_eq_some found, beq_iff_eq.mpr fits.1, fits.2, isId⟩
  · rintro ⟨ref, owned, side, named, rfl⟩
    have isSome : (taxonomy.categories.find? fun ref =>
        ref.isIncome == (rulesFor kind).usesIncomeCategories &&
          lower ref.name == lower name).isSome :=
      List.find?_isSome.mpr ⟨ref, owned, by simp [beq_iff_eq.mp side, named]⟩
    obtain ⟨other, found⟩ := Option.isSome_iff_exists.mp isSome
    have fits := List.find?_some found
    simp only [Bool.and_eq_true, beq_iff_eq] at fits
    have sameSide : other.isIncome = ref.isIncome := fits.1.trans (beq_iff_eq.mp side).symm
    have sameName := identifies _ _ (fits.2.trans named.symm)
    have unique : other = ref := List.inj_on_of_nodup_map apart.categories
      (List.mem_of_find?_eq_some found) owned (by simp only [sameSide, sameName])
    rw [found, unique]
    rfl

/-- Append the tag's id if the tag has the name and is new. -/
def addTag (name : String) (ids : List ℕ) (ref : TagRef) : List ℕ :=
  if lower ref.name == lower name && !ids.contains ref.id then ids ++ [ref.id] else ids

theorem resolveTags_eq (names : List String) (taxonomy : Taxonomy) :
    resolveTags names taxonomy =
      names.foldl (fun ids name => taxonomy.tags.foldl (addTag name) ids) [] := rfl

theorem mem_addTag_iff (name : String) (ids : List ℕ) (ref : TagRef) (id : ℕ) :
    id ∈ addTag name ids ref ↔ id ∈ ids ∨ (lower ref.name = lower name ∧ ref.id = id) := by
  unfold addTag
  by_cases named : lower ref.name = lower name
  · by_cases seen : ref.id ∈ ids
    · have stays : id ∈ ids ∨ ref.id = id ↔ id ∈ ids := by
        constructor
        · rintro (isThere | rfl)
          · exact isThere
          · exact seen
        · exact Or.inl
      simp [named, seen, stays]
    · simp [named, seen, eq_comm]
  · simp [named]

theorem nodup_addTag (name : String) {ids : List ℕ} (ref : TagRef) (distinct : ids.Nodup) :
    (addTag name ids ref).Nodup := by
  unfold addTag
  split
  · next fresh =>
      simp only [Bool.and_eq_true, Bool.not_eq_true', List.contains_eq_mem,
        decide_eq_false_iff_not] at fresh
      exact List.nodup_append.mpr ⟨distinct, by simp, by
        intro id isThere other isNew same
        rw [List.mem_singleton] at isNew
        exact fresh.2 (isNew ▸ same ▸ isThere)⟩
  · exact distinct

theorem mem_foldl_addTag_iff (name : String) (refs : List TagRef) (ids : List ℕ) (id : ℕ) :
    id ∈ refs.foldl (addTag name) ids ↔
      id ∈ ids ∨ ∃ ref ∈ refs, lower ref.name = lower name ∧ ref.id = id := by
  induction refs generalizing ids with
  | nil => simp
  | cons ref rest inductionHypothesis =>
      rw [List.foldl_cons, inductionHypothesis, mem_addTag_iff]
      simp only [List.exists_mem_cons_iff, or_assoc]

theorem nodup_foldl_addTag (name : String) (refs : List TagRef) {ids : List ℕ}
    (distinct : ids.Nodup) : (refs.foldl (addTag name) ids).Nodup := by
  induction refs generalizing ids with
  | nil => exact distinct
  | cons ref rest inductionHypothesis => exact inductionHypothesis (nodup_addTag name ref distinct)

/-- The ids assigned are those of the tags with one of the names. -/
theorem mem_resolveTags_iff (names : List String) (taxonomy : Taxonomy) (id : ℕ) :
    id ∈ resolveTags names taxonomy ↔
      ∃ ref ∈ taxonomy.tags, ref.id = id ∧ ∃ name ∈ names, lower ref.name = lower name := by
  have folded : ∀ ids : List ℕ,
      id ∈ names.foldl (fun ids name => taxonomy.tags.foldl (addTag name) ids) ids ↔
        id ∈ ids ∨ ∃ name ∈ names, ∃ ref ∈ taxonomy.tags,
          lower ref.name = lower name ∧ ref.id = id := by
    induction names with
    | nil => simp
    | cons name rest inductionHypothesis =>
        intro ids
        rw [List.foldl_cons, inductionHypothesis, mem_foldl_addTag_iff]
        simp only [List.exists_mem_cons_iff, or_assoc]
  rw [resolveTags_eq, folded]
  constructor
  · rintro (none | ⟨name, among, ref, owned, named, isId⟩)
    · cases none
    · exact ⟨ref, owned, isId, name, among, named⟩
  · rintro ⟨ref, owned, isId, name, among, named⟩
    exact .inr ⟨name, among, ref, owned, named, isId⟩

theorem nodup_resolveTags (names : List String) (taxonomy : Taxonomy) :
    (resolveTags names taxonomy).Nodup := by
  have folded : ∀ ids : List ℕ, ids.Nodup →
      (names.foldl (fun ids name => taxonomy.tags.foldl (addTag name) ids) ids).Nodup := by
    induction names with
    | nil => exact fun ids distinct => distinct
    | cons name rest inductionHypothesis =>
        exact fun ids distinct =>
          inductionHypothesis _ (nodup_foldl_addTag name taxonomy.tags distinct)
  exact folded [] List.nodup_nil

end Resolved

section RoundTrip

variable {taxonomy : Taxonomy}

/-- Names of the context come back as what they name, for items of this kind. -/
structure RoundTrip (taxonomy : Taxonomy) (kind : Kind) (context : ScanContext) : Prop where
  reached : ∀ id, (∃ item : ScannedItem, (∃ name ∈ categoriesFor context,
      item.category = some name) ∧ (toItemInput item kind taxonomy).categoryId = some id) ↔
    ∃ ref ∈ taxonomy.categories, onSide kind ref ∧ ref.id = id
  own : ∀ ref ∈ taxonomy.categories, onSide kind ref → ∀ item : ScannedItem,
    item.category = some ref.name → (toItemInput item kind taxonomy).categoryId = some ref.id
  other : ∀ (item : ScannedItem) (name : String), item.category = some name →
    (∀ ref ∈ taxonomy.categories, onSide kind ref → lower ref.name ≠ lower name) →
      (toItemInput item kind taxonomy).categoryId = none
  tags : ∀ (item : ScannedItem) (id : ℕ), id ∈ (toItemInput item kind taxonomy).tagIds ↔
    ∃ ref ∈ taxonomy.tags, ref.id = id ∧ ∃ name ∈ item.tags, lower ref.name = lower name
  offeredTags : ∀ item : ScannedItem, (∀ name ∈ item.tags, name ∈ context.tags) → ∀ id : ℕ,
    id ∈ (toItemInput item kind taxonomy).tagIds ↔
      ∃ ref ∈ taxonomy.tags, ref.id = id ∧ ref.name ∈ item.tags
  distinct : ∀ item : ScannedItem, (toItemInput item kind taxonomy).tagIds.Nodup

/-- Category and tag names round-trip through the model, while it classifies the document
and while its kind is known. -/
theorem names_round_trip {lowerOf : String → String}
    (identifies : ∀ left right, lower left = lower right → lowerOf left = lowerOf right)
    (apart : NamedApart lowerOf taxonomy) (kind : Kind) (known : Option Kind)
    (mode : known = none ∨ known = some kind) :
    RoundTrip taxonomy kind (makeContext taxonomy known) where
  reached := by
    intro id
    constructor
    · rintro ⟨item, ⟨name, _, named⟩, resolved⟩
      simp only [toItemInput, named, Option.bind_some] at resolved
      obtain ⟨ref, owned, side, _, isId⟩ :=
        (resolveCategory_eq_some_iff identifies apart name kind id).mp resolved
      exact ⟨ref, owned, side, isId⟩
    · rintro ⟨ref, owned, side, isId⟩
      obtain ⟨name, offered, same⟩ := offered_of_onSide mode owned side
      refine ⟨{ category := some name }, ⟨name, offered, rfl⟩, ?_⟩
      exact (resolveCategory_eq_some_iff identifies apart name kind id).mpr
        ⟨ref, owned, side, same.symm, isId⟩
  own := by
    intro ref owned side item named
    simp only [toItemInput, named, Option.bind_some]
    exact (resolveCategory_eq_some_iff identifies apart ref.name kind ref.id).mpr
      ⟨ref, owned, side, rfl, rfl⟩
  other := by
    intro item name named absent
    simp only [toItemInput, named, Option.bind_some]
    by_contra found
    obtain ⟨id, resolved⟩ := Option.ne_none_iff_exists'.mp found
    obtain ⟨ref, owned, side, same, _⟩ :=
      (resolveCategory_eq_some_iff identifies apart name kind id).mp resolved
    exact absent ref owned side same
  tags := fun item id => mem_resolveTags_iff item.tags taxonomy id
  offeredTags := by
    intro item offered id
    have resolved := mem_resolveTags_iff item.tags taxonomy id
    rw [show (toItemInput item kind taxonomy).tagIds = resolveTags item.tags taxonomy from rfl,
      resolved]
    constructor
    · rintro ⟨ref, owned, isId, name, among, same⟩
      obtain ⟨named, alsoOwned, rfl⟩ := List.mem_map.mp (offered name among)
      have unique : ref = named := List.inj_on_of_nodup_map apart.tags owned alsoOwned
        (identifies _ _ same)
      exact ⟨ref, owned, isId, unique ▸ among⟩
    · rintro ⟨ref, owned, isId, among⟩
      exact ⟨ref, owned, isId, ref.name, among, rfl⟩
  distinct := fun item => nodup_resolveTags item.tags taxonomy

/-- The round trip where an expense and an income category share their name but for case. -/
theorem names_round_trip_of_namesakes :
    RoundTrip ⟨[⟨1, "other", false⟩, ⟨2, "Other", true⟩, ⟨3, "salary", true⟩], [⟨4, "japan-trip"⟩]⟩
      .income (makeContext
        ⟨[⟨1, "other", false⟩, ⟨2, "Other", true⟩, ⟨3, "salary", true⟩], [⟨4, "japan-trip"⟩]⟩ none) :=
  @names_round_trip _ lower (fun _ _ same => same) ⟨by decide +kernel, by decide +kernel⟩ .income
    none (.inl rfl)

end RoundTrip

end ReceiptScanner

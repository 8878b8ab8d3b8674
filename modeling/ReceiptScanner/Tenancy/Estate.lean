import ReceiptScanner.ReadCommitted.Twins
import ReceiptScanner.Store.Task

/-!
# Statements about one user's rows

An estate is a region of the ledger that holds one user: it is walled off, so what is in it
is that user's. A statement that goes by the user's id, or by an id of the estate, is
confined to it.
-/

namespace ReceiptScanner

open ReadCommitted

/-- A region of the ledger. Whatever is inserted belongs to it, but no user is. -/
abbrev estate (setup : Setup) (region : Region store) : Estate store where
  schema := schema setup.lower
  region := region
  grows table := table ≠ .users

/-- The region holds the user, and nobody else. -/
def HoldsOnly (region : Region store) (userId : ℕ) : Prop := ∀ id, region .users id ↔ id = userId

/-- Every row that the condition selects, in a walled database, is in the region. -/
def Picks (setup : Setup) (region : Region store) (table : Table)
    (keep : Db store → ℕ → table.Row → Bool) : Prop :=
  ∀ db, Walled (schema setup.lower) region db → ∀ id row,
    (db table).get id = some row → keep db id row = true → region table id

variable {setup : Setup} {region : Region store} {userId : ℕ} {table : Table} {β : Type}

section Picking

/-- A row that references a row of the region is in the region. -/
theorem picks_of_ref {keep : Db store → ℕ → table.Row → Bool} (ref : Table × ℕ)
    (here : region ref.1 ref.2)
    (refers : ∀ db id row, keep db id row = true → ref ∈ refs table row) :
    Picks setup region table keep := by
  intro db walled id row stored kept
  by_contra away
  exact walled.outside table id row stored away ref (refers db id row kept) here

/-- A row that names the user is in the region. -/
theorem picks_of_user (holds : HoldsOnly region userId) {keep : Db store → ℕ → table.Row → Bool}
    (refers : ∀ db id row, keep db id row = true → (.users, userId) ∈ refs table row) :
    Picks setup region table keep :=
  picks_of_ref (.users, userId) ((holds userId).mpr rfl) refers

/-- A statement about an id of the region. -/
theorem picks_of_id {key : ℕ} (here : region table key) :
    Picks setup region table fun _ id _ => id == key :=
  fun _ _ _ _ _ kept => (beq_iff_eq.mp kept) ▸ here

end Picking

section Listing

variable {left right : Db store} (agree : Agree region left right)
  (leftWalled : Walled (schema setup.lower) region left)
  (rightWalled : Walled (schema setup.lower) region right)

include agree leftWalled rightWalled in
/-- Both scans find the same rows, all of the region. -/
theorem filter_alike {keep : Db store → ℕ → table.Row → Bool}
    (picks : Picks setup region table keep)
    (same : ∀ id row, (left table).get id = some row → region table id →
      keep left id row = keep right id row) :
    ((left table).list.filter fun entry => keep left entry.1 entry.2) =
      (right table).list.filter fun entry => keep right entry.1 entry.2 := by
  refine Rows.filter_list_alike fun id => ?_
  by_cases here : region table id
  · rw [← agree table id here]
    cases stored : (left table).get id with
    | none => rfl
    | some row => simp only [Option.filter, same id row stored here]
  · have nobody : ∀ db, Walled (schema setup.lower) region db →
        ((db table).get id).filter (fun row => keep db id row) = none := by
      intro db walled
      cases stored : (db table).get id with
      | none => rfl
      | some row =>
          have not_kept : keep db id row ≠ true := fun kept =>
            here (picks db walled id row stored kept)
          simp [Option.filter, not_kept]
    rw [nobody left leftWalled, nobody right rightWalled]

end Listing

section Writing

variable {id : ℕ} {label : Label}

/-- A UNIQUE index of these tables excludes no row of another user. -/
theorem clash_eq_false {row other : table.Row}
    (notUser : table ≠ .users ∧ table ≠ .sessions ∧ table ≠ .authTokens)
    (inside : ∀ ref ∈ refs table row, region ref.1 ref.2)
    (outside : ∀ ref ∈ refs table other, ¬ region ref.1 ref.2) :
    clash setup.lower table row other = false := by
  have apart : ∀ ref ∈ refs table row, ref ∉ refs table other := fun ref mine theirs =>
    outside ref theirs (inside ref mine)
  cases table with
  | users => exact absurd rfl notUser.1
  | sessions => exact absurd rfl notUser.2.1
  | authTokens => exact absurd rfl notUser.2.2
  | categories | tags | paymentMethods =>
      have differ : row.userId ≠ other.userId := fun same =>
        apart (.users, row.userId) (by simp [refs]) (by simp [refs, same])
      simp [clash, differ]
  | itemTags =>
      have differ : row.itemId ≠ other.itemId := fun same =>
        apart (.items, row.itemId) (by simp [refs]) (by simp [refs, same])
      simp [clash, differ]
  | receipts | receiptImages | items => rfl
  | advisory => exact row.elim

/-- A row whose references all lead to the region belongs there. -/
theorem within_of_refs {row : table.Row}
    (notUser : table ≠ .users ∧ table ≠ .sessions ∧ table ≠ .authTokens)
    (here : region table id) (inside : ∀ ref ∈ refs table row, region ref.1 ref.2) :
    Write.Within (schema setup.lower) region ⟨table, id, some row, label⟩ where
  here := here
  refs other same := by
    obtain rfl := Option.some.inj same
    exact inside
  free other same another outside := by
    obtain rfl := Option.some.inj same
    exact clash_eq_false notUser inside outside

/-- So does the removal of a row of the region. -/
theorem within_of_none (here : region table id) :
    Write.Within (schema setup.lower) region ⟨table, id, none, label⟩ where
  here := here
  refs _ same := by cases same
  free _ same := by cases same

end Writing

section Statements

variable {keep : ℕ → table.Row → Bool} {label : Label}

/-- A locking statement ends up with the same rows in both runs. -/
theorem targets_alike {left right : Ctx store}
    (beside : Ctx.Beside (estate setup region) left right)
    (picks : Picks setup region table fun _ => keep) :
    left.targets table (fun _ => keep) = right.targets table fun _ => keep := by
  rw [Ctx.targets_of_seen beside.leftSeen, Ctx.targets_of_seen beside.rightSeen]
  exact filter_alike beside.agree beside.leftWalled beside.rightWalled picks fun _ _ _ _ => rfl

/-- What a confined statement has found out about a row. -/
def Found (region : Region store) (table : Table) (keep : ℕ → table.Row → Bool)
    (project : ℕ → table.Row → β) (found : List β) : Prop :=
  ∀ value ∈ found, ∃ id row, region table id ∧ keep id row = true ∧
    (∀ ref ∈ refs table row, region ref.1 ref.2) ∧ value = project id row

theorem confined_select {mode : Option LockMode} {project : ℕ → table.Row → β}
    (picks : Picks setup region table fun _ => keep) :
    (Stmt.select mode table (fun _ => keep) fun _ => project).Confined (estate setup region)
      (Found region table keep project) := by
  intro left right beside
  have same := filter_alike beside.agree beside.leftWalled beside.rightWalled picks
    fun _ _ _ _ => rfl
  have found : Found region table keep project
      (((left.snap table).list.filter fun entry => keep entry.1 entry.2).map
        fun entry => project entry.1 entry.2) := by
    intro value member
    obtain ⟨⟨id, row⟩, selected, rfl⟩ := List.mem_map.mp member
    obtain ⟨stored, kept⟩ := List.mem_filter.mp selected
    have isStored := Rows.mem_list.mp stored
    have here := picks left.snap beside.leftWalled id row isStored kept
    exact ⟨id, row, here, kept, beside.leftWalled.inside table id row isStored here, rfl⟩
  cases mode with
  | none =>
      exact {
        result := congrArg (List.map fun entry : ℕ × table.Row => project entry.1 entry.2) same
        writes := rfl
        ticks := rfl
        within := fun _ member => by simp [Stmt.select] at member
        ensured := found }
  | some mode =>
      have targets := Ctx.targets_of_seen beside.leftSeen table fun _ => keep
      exact {
        result := congrArg (List.map fun entry : ℕ × table.Row => project entry.1 entry.2)
          (targets_alike beside picks)
        writes := rfl
        ticks := rfl
        within := fun _ member => by simp [Stmt.select] at member
        ensured := by
          change Found region table keep project ((left.targets table fun _ => keep).map
            fun entry => project entry.1 entry.2)
          rw [targets]
          exact found }

/-- A plain read whose answer is the same in both. -/
theorem confined_query {read : ℕ → Db store → β} {ensures : β → Prop}
    (alike : ∀ left right, Agree region left right → Walled (schema setup.lower) region left →
      Walled (schema setup.lower) region right → ∀ now, read now left = read now right)
    (tells : ∀ db, Walled (schema setup.lower) region db → ∀ now, ensures (read now db)) :
    (Stmt.query read : Stmt store β).Confined (estate setup region) ensures :=
  fun left right beside => {
    result := by
      simp only [Stmt.query, beside.now]
      exact alike _ _ beside.agree beside.leftWalled beside.rightWalled _
    writes := rfl
    ticks := rfl
    within := fun _ member => by simp [Stmt.query] at member
    ensured := tells _ beside.leftWalled _ }

/-- An UPDATE of rows of the region that keeps their references there. -/
theorem confined_update {set : ℕ → table.Row → table.Row} {returning : ℕ → table.Row → β}
    (notUser : table ≠ .users ∧ table ≠ .sessions ∧ table ≠ .authTokens)
    (picks : Picks setup region table fun _ => keep)
    (keeps : ∀ now id row, keep id row = true → (∀ ref ∈ refs table row, region ref.1 ref.2) →
      ∀ ref ∈ refs table (set now row), region ref.1 ref.2) :
    (Stmt.update label table (fun _ => keep) set returning).Confined (estate setup region)
      (fun found => ∃ now, Found region table keep (fun id row => returning id (set now row))
        found) := by
  intro left right beside
  have targets := Ctx.targets_of_seen beside.leftSeen table fun _ => keep
  have same := targets_alike beside picks
  have known : ∀ id row, (id, row) ∈ left.targets table (fun _ => keep) →
      region table id ∧ keep id row = true ∧ ∀ ref ∈ refs table row, region ref.1 ref.2 := by
    intro id row member
    rw [targets] at member
    obtain ⟨stored, kept⟩ := List.mem_filter.mp member
    have isStored := Rows.mem_list.mp stored
    have here := picks left.snap beside.leftWalled id row isStored kept
    exact ⟨here, kept, beside.leftWalled.inside table id row isStored here⟩
  constructor
  case result =>
    change (left.targets table fun _ => keep).map (fun entry =>
        returning entry.1 (set left.now entry.2)) =
      (right.targets table fun _ => keep).map fun entry =>
        returning entry.1 (set right.now entry.2)
    rw [same, beside.now]
  case writes =>
    change (left.targets table fun _ => keep).map (fun entry =>
        (⟨table, entry.1, some (set left.now entry.2), label⟩ : Write store)) =
      (right.targets table fun _ => keep).map fun entry =>
        ⟨table, entry.1, some (set right.now entry.2), label⟩
    rw [same, beside.now]
  case ticks => rfl
  case within =>
    intro write member
    obtain ⟨⟨id, row⟩, selected, rfl⟩ := List.mem_map.mp member
    obtain ⟨here, kept, inside⟩ := known id row selected
    exact within_of_refs notUser here (keeps left.now id row kept inside)
  case ensured =>
    refine ⟨left.now, fun value member => ?_⟩
    obtain ⟨⟨id, row⟩, selected, rfl⟩ := List.mem_map.mp member
    obtain ⟨here, kept, inside⟩ := known id row selected
    exact ⟨id, row, here, kept, inside, rfl⟩

/-- An INSERT of a row whose references lead to the region. -/
theorem confined_insert {row : ℕ → table.Row}
    (notUser : table ≠ .users ∧ table ≠ .sessions ∧ table ≠ .authTokens)
    (inside : ∀ now, ∀ ref ∈ refs table (row now), region ref.1 ref.2) :
    (Stmt.insert label table row : Stmt store ℕ).Confined (estate setup region)
      (region table) := by
  intro left right beside
  have here : region table (left.next table) := beside.fresh table _ notUser.1 (Nat.le_refl _)
  exact {
    result := congrFun beside.next table
    writes := by simp only [Stmt.insert, beside.next, beside.now]
    ticks := rfl
    within := fun write member => List.mem_singleton.mp member ▸
      within_of_refs notUser here (inside left.now)
    ensured := here }

end Statements

section Cascades

variable {left right : Db store} (agree : Agree region left right)
  (leftWalled : Walled (schema setup.lower) region left)
  (rightWalled : Walled (schema setup.lower) region right) {label : Label}

include agree leftWalled rightWalled

/-- An ON DELETE action on rows of the region does the same in both. -/
theorem sweep_alike {keep : ℕ → table.Row → Bool} {set : table.Row → Option table.Row}
    (picks : Picks setup region table fun _ => keep) :
    sweep left label table keep set = sweep right label table keep set :=
  congrArg (List.map fun entry : ℕ × table.Row =>
      (⟨table, entry.1, set entry.2, label⟩ : Write store))
    (filter_alike agree leftWalled rightWalled picks fun _ _ _ _ => rfl)

omit agree rightWalled in
theorem sweep_within {keep : ℕ → table.Row → Bool} {set : table.Row → Option table.Row}
    (notUser : table ≠ .users ∧ table ≠ .sessions ∧ table ≠ .authTokens)
    (picks : Picks setup region table fun _ => keep)
    (keeps : ∀ row row', set row = some row' → ∀ ref ∈ refs table row', ref ∈ refs table row) :
    ∀ write ∈ sweep left label table keep set,
      write.Within (schema setup.lower) region := by
  intro write member
  obtain ⟨id, row, stored, kept, rfl⟩ := mem_sweep.mp member
  have here := picks left leftWalled id row stored kept
  cases isSet : set row with
  | none => exact within_of_none here
  | some row' =>
      exact within_of_refs notUser here fun ref refers =>
        leftWalled.inside table id row stored here ref (keeps row row' isSet ref refers)

theorem onDeleteItem_alike {itemId : ℕ} (here : region .items itemId) :
    onDeleteItem left label itemId = onDeleteItem right label itemId ∧
      ∀ write ∈ onDeleteItem left label itemId, write.Within (schema setup.lower) region := by
  have picks : Picks setup region .itemTags fun _ _ (row : ItemTagRow) => row.itemId == itemId :=
    picks_of_ref (.items, itemId) here fun _ _ row kept => by
      simp [refs, beq_iff_eq.mp kept]
  exact ⟨sweep_alike agree leftWalled rightWalled picks,
    sweep_within leftWalled (by decide) picks fun _ _ none => by cases none⟩

/-- The ON DELETE actions of a row of the region stay in it. -/
theorem onDelete_alike {id : ℕ} (here : region table id) :
    onDelete left label table id = onDelete right label table id ∧
      ∀ write ∈ onDelete left label table id, write.Within (schema setup.lower) region := by
  cases table with
  | categories =>
      have picks : Picks setup region .items fun _ _ (row : ItemRow) =>
          row.categoryId == some id :=
        picks_of_ref (.categories, id) here fun _ _ row kept => by
          simp [refs, beq_iff_eq.mp kept]
      simp only [onDelete]
      refine ⟨sweep_alike agree leftWalled rightWalled picks,
        sweep_within leftWalled (by decide) picks fun row row' isSet ref refers => ?_⟩
      obtain rfl := Option.some.inj isSet
      simp only [refs, Option.map_none, Option.toList_none, List.mem_singleton] at refers ⊢
      exact refers ▸ List.mem_cons_self
  | tags =>
      have picks : Picks setup region .itemTags fun _ _ (row : ItemTagRow) => row.tagId == id :=
        picks_of_ref (.tags, id) here fun _ _ row kept => by simp [refs, beq_iff_eq.mp kept]
      simp only [onDelete]
      exact ⟨sweep_alike agree leftWalled rightWalled picks,
        sweep_within leftWalled (by decide) picks fun _ _ none => by cases none⟩
  | paymentMethods =>
      have picks : Picks setup region .receipts fun _ _ (row : ReceiptRow) =>
          row.paymentMethodId == some id :=
        picks_of_ref (.paymentMethods, id) here fun _ _ row kept => by
          simp [refs, beq_iff_eq.mp kept]
      simp only [onDelete]
      refine ⟨sweep_alike agree leftWalled rightWalled picks,
        sweep_within leftWalled (by decide) picks fun row row' isSet ref refers => ?_⟩
      obtain rfl := Option.some.inj isSet
      simp only [refs, List.mem_append, List.mem_cons, Option.map_none, Option.toList_none,
        List.not_mem_nil, or_false] at refers ⊢
      tauto
  | items => exact onDeleteItem_alike agree leftWalled rightWalled here
  | receipts =>
      have images : Picks setup region .receiptImages fun _ _ (row : ReceiptImageRow) =>
          row.receiptId == id :=
        picks_of_ref (.receipts, id) here fun _ _ row kept => by simp [refs, beq_iff_eq.mp kept]
      have items : Picks setup region .items fun _ _ (row : ItemRow) => row.receiptId == id :=
        picks_of_ref (.receipts, id) here fun _ _ row kept => by simp [refs, beq_iff_eq.mp kept]
      have linked : Picks setup region .receipts fun _ other (row : ReceiptRow) =>
          other != id && row.offsetsReceiptId == some id :=
        picks_of_ref (.receipts, id) here fun _ _ row kept => by
          simp [refs, beq_iff_eq.mp (Bool.and_eq_true_iff.mp kept).2]
      have found := filter_alike agree leftWalled rightWalled items fun _ _ _ _ => rfl
      have inside : ∀ entry ∈ (left .items).list.filter fun entry : ℕ × ItemRow =>
          entry.2.receiptId == id, region .items entry.1 := by
        rintro ⟨itemId, row⟩ member
        obtain ⟨stored, kept⟩ := List.mem_filter.mp member
        exact items left leftWalled itemId row (Rows.mem_list.mp stored) kept
      have removed : ((left .items).list.filter fun entry : ℕ × ItemRow =>
            entry.2.receiptId == id).flatMap (fun entry =>
              (⟨.items, entry.1, none, label⟩ : Write store) ::
                onDeleteItem left label entry.1) =
          ((right .items).list.filter fun entry : ℕ × ItemRow =>
            entry.2.receiptId == id).flatMap fun entry =>
              ⟨.items, entry.1, none, label⟩ :: onDeleteItem right label entry.1 := by
        rw [← found]
        refine List.flatMap_congr fun entry member => ?_
        rw [(onDeleteItem_alike agree leftWalled rightWalled (inside entry member)).1]
      constructor
      · change (_ ++ _) ++ _ = (_ ++ _) ++ _
        exact congrArg₂ (· ++ ·) (congrArg₂ (· ++ ·)
          (sweep_alike agree leftWalled rightWalled images) removed)
          (sweep_alike agree leftWalled rightWalled linked)
      · intro write member
        rcases List.mem_append.mp member with former | unlinked
        · rcases List.mem_append.mp former with image | item
          · exact sweep_within leftWalled (by decide) images (fun _ _ none => by cases none)
              write image
          · obtain ⟨entry, listed, which⟩ := List.mem_flatMap.mp item
            rcases List.mem_cons.mp which with rfl | tag
            · exact within_of_none (inside entry listed)
            · exact (onDeleteItem_alike agree leftWalled rightWalled
                (inside entry listed)).2 write tag
        · refine sweep_within leftWalled (by decide) linked (fun row row' isSet ref refers => ?_)
            write unlinked
          obtain rfl := Option.some.inj isSet
          simp only [refs, List.mem_append, List.mem_cons, Option.map_none, Option.toList_none,
            List.not_mem_nil, or_false] at refers ⊢
          tauto
  | users | sessions | authTokens | receiptImages | itemTags | advisory =>
      exact ⟨rfl, fun _ member => by simp [onDelete] at member⟩

end Cascades

section Deleting

variable {keep : ℕ → table.Row → Bool} {label : Label}

/-- A DELETE of rows of the region, with its ON DELETE actions. -/
theorem confined_delete (picks : Picks setup region table fun _ => keep) :
    (Stmt.delete (schema setup.lower) label table fun _ => keep).Confined (estate setup region)
      (Found region table keep fun id _ => id) := by
  intro left right beside
  have targets := Ctx.targets_of_seen beside.leftSeen table fun _ => keep
  have same := targets_alike beside picks
  have known : ∀ id row, (id, row) ∈ left.targets table (fun _ => keep) →
      region table id ∧ keep id row = true ∧ ∀ ref ∈ refs table row, region ref.1 ref.2 := by
    intro id row member
    rw [targets] at member
    obtain ⟨stored, kept⟩ := List.mem_filter.mp member
    have isStored := Rows.mem_list.mp stored
    have here := picks left.snap beside.leftWalled id row isStored kept
    exact ⟨here, kept, beside.leftWalled.inside table id row isStored here⟩
  have cascade : ∀ id, region table id →
      onDelete left.cur label table id = onDelete right.cur label table id ∧
        ∀ write ∈ onDelete left.cur label table id,
          write.Within (schema setup.lower) region := by
    intro id here
    rw [beside.leftSeen, beside.rightSeen]
    exact onDelete_alike beside.agree beside.leftWalled beside.rightWalled here
  constructor
  case result => exact congrArg (List.map Prod.fst) same
  case writes =>
    change (left.targets table fun _ => keep).flatMap (fun entry =>
        (⟨table, entry.1, none, label⟩ : Write store) :: onDelete left.cur label table entry.1) =
      (right.targets table fun _ => keep).flatMap fun entry =>
        ⟨table, entry.1, none, label⟩ :: onDelete right.cur label table entry.1
    rw [← same]
    refine List.flatMap_congr fun entry member => ?_
    rw [(cascade entry.1 (known entry.1 entry.2 member).1).1]
  case ticks => rfl
  case within =>
    intro write member
    obtain ⟨⟨id, row⟩, selected, which⟩ := List.mem_flatMap.mp member
    have here := (known id row selected).1
    rcases List.mem_cons.mp which with rfl | action
    · exact within_of_none here
    · exact (cascade id here).2 write action
  case ensured =>
    intro value member
    obtain ⟨⟨id, row⟩, selected, rfl⟩ := List.mem_map.mp member
    obtain ⟨here, kept, inside⟩ := known id row selected
    exact ⟨id, row, here, kept, inside, rfl⟩

end Deleting

end ReceiptScanner

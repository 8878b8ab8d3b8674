import ReceiptScanner.ReadCommitted.Rules

/-!
# What a statement proves about its commit

A statement leaves a log entry; the transaction commits later. `Pledged` facts are
those a log already fixes, whatever is appended to it before the commit: what a
statement saw, what it locked, what stands under a lock, what it wrote. One lemma
for each kind of statement reads these facts off its entry.
-/

namespace ReadCommitted

variable {σ : Signature} {X : Interface}

/-- The oldest `count` commits. -/
def History.upTo (history : History σ X) (count : ℕ) : History σ X :=
  history.drop (history.length - count)

/-- A suffix is found again by its length. -/
theorem History.upTo_length {earlier history : History σ X} (suffix : earlier <:+ history) :
    history.upTo earlier.length = earlier :=
  (List.suffix_iff_eq_drop.mp suffix).symm

/-- The commits between two instants are found again by the lengths. -/
theorem History.take_upTo {between seen history : History σ X}
    (suffix : between ++ seen <:+ history) :
    (history.upTo (between ++ seen).length).take ((between ++ seen).length - seen.length) =
      between := by
  rw [upTo_length suffix, List.length_append, Nat.add_sub_cancel_right]
  exact List.take_left

/-- A commit that was made since an instant is among the newest. -/
theorem History.mem_since {seen earlier history : History σ X} {commit : Commit σ X}
    (suffix : commit :: earlier <:+ history) (since : seen <:+ earlier) :
    commit ∈ history.take (history.length - seen.length) := by
  obtain ⟨later, rfl⟩ := suffix
  obtain ⟨between, rfl⟩ := since
  have newer : (later ++ commit :: (between ++ seen)).take
      ((later ++ commit :: (between ++ seen)).length - seen.length) =
      later ++ commit :: between := by
    rw [← List.cons_append, ← List.append_assoc]
    apply List.take_left'
    simp only [List.length_append, List.length_cons]
    omega
  rw [newer]
  exact List.mem_append_right _ List.mem_cons_self

/-- A statement of the commit had its snapshot after exactly these commits. -/
def Saw (history : History σ X) (commit : Commit σ X) (seen : History σ X) : Prop :=
  seen <:+ history ∧ ∃ span ∈ commit.spans, span.1 = seen.length

theorem Held.until {since middle now : History σ X} {locks : List (Lock σ)}
    (held : Held since now locks) (suffix : middle <:+ now) : Held since middle locks :=
  fun _ _ before after => held _ _ (before.trans suffix) after

theorem Held.from {since middle now : History σ X} {locks : List (Lock σ)}
    (held : Held since now locks) (suffix : since <:+ middle) : Held middle now locks :=
  fun _ _ before after => held _ _ before (suffix.trans after)

/-- The row under any lock is not removed. -/
theorem Held.get_ne_none {since now : History σ X} {locks : List (Lock σ)}
    (held : Held since now locks) (suffix : since <:+ now) {table : σ.Table} {id : ℕ}
    {mode : LockMode} (member : ⟨table, id, mode⟩ ∈ locks)
    (stored : ((History.db since) table).get id ≠ none) :
    ((History.db now) table).get id ≠ none :=
  held.preserves suffix (P := fun history => ((History.db history) table).get id ≠ none)
    (fun _ _ _ _ present covered compatible => Rely.get_ne_none_of_locked
      member covered compatible present) stored

namespace Log

theorem mem_writes {log : Log σ X} {write : Write σ} :
    write ∈ writes log ↔ ∃ entry ∈ log, write ∈ entry.writes := by
  induction log with
  | nil => simp
  | cons entry log ih => simp [ih, or_comm]

theorem mem_spans {log : Log σ X} {entry : Entry σ X} (member : entry ∈ log) :
    (entry.snap.length, entry.cur.length) ∈ spans log := by
  induction log with
  | nil => simp at member
  | cons other log ih =>
      rcases List.mem_cons.mp member with rfl | earlier
      · simp [spans]
      · exact List.mem_append_left _ (ih earlier)

/-- The first span is that of the oldest entry. -/
theorem head_spans (later : Log σ X) (first : Entry σ X) :
    (spans (later ++ [first])).head? = some (first.snap.length, first.cur.length) := by
  induction later with
  | nil => rfl
  | cons entry later ih =>
      rw [List.cons_append, spans, List.head?_append, ih]
      rfl

/-- No entry has written to the table. -/
def Clean (log : Log σ X) (table : σ.Table) : Prop :=
  ∀ write ∈ writes log, write.table ≠ table

theorem clean_nil (table : σ.Table) : Clean ([] : Log σ X) table := fun _ member =>
  absurd member List.not_mem_nil

theorem clean_cons {entry : Entry σ X} {log : Log σ X} {table : σ.Table} :
    Clean (entry :: log) table ↔ Clean log table ∧ ∀ write ∈ entry.writes, write.table ≠ table := by
  simp only [Clean, writes_cons, List.mem_append, or_imp, forall_and]

theorem clean_append {later earlier : Log σ X} {table : σ.Table} :
    Clean (later ++ earlier) table ↔ Clean earlier table ∧ Clean later table := by
  simp only [Clean, writes_append, List.mem_append, or_imp, forall_and]

end Log

/-- Whatever the transaction still does, this will hold of its commit. -/
def Pledged (opening : Opening) (log : Log σ X) (fact : History σ X → Commit σ X → Prop) : Prop :=
  ∀ final history calls stop, log <:+ final → Linked opening history final →
    fact history (opening.commit calls final stop)

namespace Pledged

variable {opening : Opening} {log later : Log σ X} {entry : Entry σ X}
  {fact other : History σ X → Commit σ X → Prop}

theorem grow (pledged : Pledged opening log fact) (suffix : log <:+ later) :
    Pledged opening later fact := fun final history calls stop inside linked =>
  pledged final history calls stop (suffix.trans inside) linked

theorem mono (pledged : Pledged opening log fact)
    (implies : ∀ history commit, fact history commit → other history commit) :
    Pledged opening log other := fun final history calls stop inside linked =>
  implies _ _ (pledged final history calls stop inside linked)

/-- The pledge falls due. -/
theorem due (pledged : Pledged opening log fact) {history : History σ X}
    (linked : Linked opening history log) (calls : List (Said X)) (stop : ℕ) :
    fact history (opening.commit calls log stop) :=
  pledged log history calls stop List.suffix_rfl linked

/-- The snapshot of a statement. -/
theorem saw (member : entry ∈ log) :
    Pledged opening log fun history commit => Saw history commit entry.snap := by
  intro final history calls stop inside linked
  have there := inside.subset member
  exact ⟨(linked.spanned entry there).trans (linked.past entry there), _,
    Log.mem_spans there, rfl⟩

/-- A lock that was taken. -/
theorem locked (member : entry ∈ log) {lock : Lock σ} (taken : lock ∈ entry.locks) :
    Pledged opening log fun _ commit => lock ∈ commit.locks := by
  intro final history calls stop inside linked
  exact Log.mem_locks (inside.subset member) taken

/-- The locks of a statement have been respected since. -/
theorem held (member : entry ∈ log) :
    Pledged opening log fun history _ =>
      entry.cur <:+ history ∧ Held entry.cur history entry.locks := by
  intro final history calls stop inside linked
  exact ⟨linked.past entry (inside.subset member), linked.held entry (inside.subset member)⟩

/-- The row under a lock stronger than key-share. -/
theorem get (member : entry ∈ log) {table : σ.Table} {id : ℕ} {mode : LockMode}
    (strong : mode ≠ .keyShare) (taken : ⟨table, id, mode⟩ ∈ entry.locks) :
    Pledged opening log fun history _ =>
      ((History.db history) table).get id = ((History.db entry.cur) table).get id :=
  (held member).mono fun _ _ ⟨suffix, held⟩ => held.get suffix strong taken

/-- An id under an UPDATE lock that nobody has used. -/
theorem unused (member : entry ∈ log) {table : σ.Table} {id : ℕ}
    (taken : ⟨table, id, .update⟩ ∈ entry.locks) (unused : Unused entry.cur table id) :
    Pledged opening log fun history _ => Unused history table id :=
  (held member).mono fun _ _ ⟨suffix, held⟩ => held.unused suffix taken unused

/-- A write that was made. -/
theorem wrote (member : entry ∈ log) {write : Write σ} (made : write ∈ entry.writes) :
    Pledged opening log fun _ commit => write ∈ commit.writes := by
  intro final history calls stop inside linked
  exact Log.mem_writes.mpr ⟨entry, inside.subset member, made⟩

end Pledged

namespace Entry.Ran

variable {schema : Schema σ} {start : ℕ} {log : Log σ X} {entry : Entry σ X} {ctx : Ctx σ}
  {α β : Type} {table : σ.Table} {label : σ.Label} {keep : Db σ → ℕ → σ.Row table → Bool}
  {project : Db σ → ℕ → σ.Row table → β} {set : ℕ → σ.Row table → σ.Row table}
  {returning : ℕ → σ.Row table → β} {stmt : Stmt σ α}

/-- A statement reads a table its transaction has not written as it was committed. -/
theorem snap_table (ran : Entry.Ran schema start log.writes stmt entry ctx)
    (clean : Log.Clean log table) : ctx.snap table = entry.snap.db table := by
  rw [ran.snap, Db.writes_other_table _ clean]

theorem cur_table (ran : Entry.Ran schema start log.writes stmt entry ctx)
    (clean : Log.Clean log table) : ctx.cur table = entry.cur.db table := by
  rw [ran.cur, Db.writes_other_table _ clean]

/-- A row that a statement finds is committed, or its own transaction has written it. -/
theorem cur_cases (ran : Entry.Ran schema start log.writes stmt entry ctx) {id : ℕ}
    {row : σ.Row table} (stored : (ctx.cur table).get id = some row) :
    (entry.cur.db table).get id = some row ∨
      ∃ label, ⟨table, id, some row, label⟩ ∈ log.writes := by
  rw [ran.cur] at stored
  rcases entry.cur.db.get_writes_cases log.writes table id with
    ⟨same, -⟩ | ⟨written, label, member, now⟩
  · exact Or.inl (same ▸ stored)
  · exact Or.inr ⟨label, (now.symm.trans stored) ▸ member⟩

/-- A statement locks what it writes. -/
theorem lockOf_mem (ran : Entry.Ran schema start log.writes stmt entry ctx) {write : Write σ}
    (made : write ∈ entry.writes) : Schema.lockOf ctx.cur write ∈ entry.locks := by
  rw [ran.settled.took, Schema.locksFor]
  exact List.mem_append_left _ (List.mem_append_right _
    (List.mem_map_of_mem (ran.writes ▸ made)))

/-- A statement locks what it newly references. -/
theorem keyShare_mem (ran : Entry.Ran schema start log.writes stmt entry ctx) {write : Write σ}
    (made : write ∈ entry.writes) {ref : σ.Table × ℕ} (fresh : ref ∈ schema.newRefs ctx.cur write) :
    ⟨ref.1, ref.2, .keyShare⟩ ∈ entry.locks := by
  rw [ran.settled.took, Schema.locksFor]
  exact List.mem_append_right _ (List.mem_map.mpr ⟨ref,
    List.mem_flatMap.mpr ⟨write, ran.writes ▸ made, fresh⟩, rfl⟩)

/-- A statement takes the locks it asks for. -/
theorem lock_mem (ran : Entry.Ran schema start log.writes stmt entry ctx) {lock : Lock σ}
    (asked : lock ∈ (stmt ctx).locks) : lock ∈ entry.locks := by
  rw [ran.settled.took, Schema.locksFor]
  exact List.mem_append_left _ (List.mem_append_left _ asked)

/-- A plain SELECT returns rows of its snapshot. -/
theorem mem_select
    (ran : Entry.Ran schema start log.writes (Stmt.select none table keep project) entry ctx)
    (clean : Log.Clean log table) {value : β}
    (member : value ∈ (Stmt.select none table keep project ctx).result) :
    ∃ id row, (entry.snap.db table).get id = some row ∧ keep ctx.snap id row = true ∧
      value = project ctx.snap id row := by
  obtain ⟨⟨id, row⟩, found, rfl⟩ := List.mem_map.mp member
  obtain ⟨stored, kept⟩ := List.mem_filter.mp found
  rw [ran.snap_table clean] at stored
  exact ⟨id, row, Rows.mem_list.mp stored, kept, rfl⟩

/-- A locking SELECT returns rows as they are when it has locked them. -/
theorem mem_selectLocked {mode : LockMode}
    (ran : Entry.Ran schema start log.writes (Stmt.select (some mode) table keep project) entry ctx)
    (clean : Log.Clean log table) {value : β}
    (member : value ∈ (Stmt.select (some mode) table keep project ctx).result) :
    ∃ id row, (entry.cur.db table).get id = some row ∧ keep ctx.snap id row = true ∧
      value = project ctx.snap id row ∧ ⟨table, id, mode⟩ ∈ entry.locks := by
  obtain ⟨⟨id, row⟩, found, rfl⟩ := List.mem_map.mp member
  have locked : ⟨table, id, mode⟩ ∈ entry.locks :=
    ran.lock_mem (List.mem_map.mpr ⟨(id, row), found, rfl⟩)
  obtain ⟨-, stored, kept⟩ := Ctx.mem_targets.mp found
  rw [ran.cur_table clean] at stored
  exact ⟨id, row, stored, kept, rfl, locked⟩

theorem writes_select {mode : Option LockMode}
    (ran : Entry.Ran schema start log.writes (Stmt.select mode table keep project) entry ctx) :
    entry.writes = [] := by
  rw [ran.writes]
  cases mode <;> rfl

theorem writes_query {read : ℕ → Db σ → β}
    (ran : Entry.Ran schema start log.writes (Stmt.query read) entry ctx) : entry.writes = [] :=
  ran.writes

/-- An INSERT stores its row under an id that nobody has used. -/
theorem insert {row : ℕ → σ.Row table}
    (ran : Entry.Ran schema start log.writes (Stmt.insert label table row) entry ctx) :
    entry.writes = [⟨table, ctx.next table, some (row start), label⟩] ∧
      Unused entry.cur table (ctx.next table) ∧
      ⟨table, ctx.next table, .update⟩ ∈ entry.locks ∧
      ∀ ref ∈ schema.refs table (row start), ⟨ref.1, ref.2, .keyShare⟩ ∈ entry.locks ∧
        (ref ≠ (table, ctx.next table) → (ctx.cur ref.1).get ref.2 ≠ none) := by
  have made : entry.writes = [⟨table, ctx.next table, some (row start), label⟩] := by
    rw [ran.writes, ← ran.now]
    rfl
  have unused := ran.unused table (ctx.next table) (Nat.le_refl _)
  have absent : (ctx.cur table).get (ctx.next table) = none := by
    rw [ran.cur, Db.get_writes_untouched]
    · exact unused.get List.suffix_rfl
    · rintro write member ⟨rfl, same⟩
      have below := ran.drawn write member
      omega
  have isWritten : (⟨table, ctx.next table, some (row start), label⟩ : Write σ) ∈ entry.writes := by
    simp [made]
  have allNew : schema.newRefs ctx.cur ⟨table, ctx.next table, some (row start), label⟩ =
      schema.refs table (row start) := by
    simp [Schema.newRefs, absent]
  refine ⟨made, unused, ?_, fun ref member => ⟨ran.keyShare_mem isWritten (by rwa [allNew]), ?_⟩⟩
  · simpa [Schema.lockOf, absent] using ran.lockOf_mem isWritten
  · intro other
    have present := ran.settled.parents _ (ran.writes ▸ isWritten) ref (by rwa [allNew])
    rw [← ran.writes, made, Db.writes_cons, Db.writes_nil, Db.get_write_untouched] at present
    · exact present
    · rintro ⟨sameTable, sameId⟩
      exact other (Prod.ext sameTable.symm sameId.symm)

/-- An INSERT stores a row that no stored row excludes. -/
theorem insert_unique {row : ℕ → σ.Row table}
    (ran : Entry.Ran schema start log.writes (Stmt.insert label table row) entry ctx) {other : ℕ}
    {stored : σ.Row table} (here : (ctx.cur table).get other = some stored) :
    schema.clash table (row start) stored = false := by
  have made : (Stmt.insert label table row ctx).writes =
      [⟨table, ctx.next table, some (row start), label⟩] := by rw [← ran.now]; rfl
  have unique := ran.settled.unique _ (made ▸ List.mem_singleton_self _)
  have different : other ≠ ctx.next table := by
    rintro rfl
    have absent : (ctx.cur table).get (ctx.next table) = none := by
      rw [ran.cur, Db.get_writes_untouched]
      · exact (ran.unused table _ (Nat.le_refl _)).get List.suffix_rfl
      · rintro write member ⟨rfl, same⟩
        have below := ran.drawn write member
        omega
    exact absurd (here.symm.trans absent) (by simp)
  rw [made, Db.writes_cons, Db.writes_nil] at unique
  have there : ((ctx.cur.write ⟨table, ctx.next table, some (row start), label⟩) table).get other =
      some stored := by
    rw [Db.get_write_same, if_neg different, here]
  by_contra clash
  have clashes : schema.clashes (ctx.cur.write ⟨table, ctx.next table, some (row start), label⟩)
      ⟨table, ctx.next table, some (row start), label⟩ = true := by
    simp only [Schema.clashes, List.any_eq_true]
    exact ⟨(other, stored), Rows.mem_list.mpr there, by simpa [different] using clash⟩
  exact absurd (clashes.symm.trans unique) (by decide)

/-- An UPDATE writes each row once. -/
theorem apart_update
    (ran : Entry.Ran schema start log.writes (Stmt.update label table keep set returning) entry ctx) :
    Apart entry.writes := by
  rw [ran.writes]
  exact Apart.map (ctx.pairwise_targets table keep)

/-- An INSERT writes no row that its transaction has written. -/
theorem insert_untouched (ran : Entry.Ran schema start log.writes stmt entry ctx) {write : Write σ}
    (old : write ∈ log.writes) : ¬ write.Touches table (ctx.next table) := by
  rintro ⟨rfl, same⟩
  have below := ran.drawn write old
  omega

/-- An UPDATE rewrites rows as they are when it has locked them. -/
theorem mem_update
    (ran : Entry.Ran schema start log.writes (Stmt.update label table keep set returning) entry ctx)
    (clean : Log.Clean log table) {write : Write σ} (made : write ∈ entry.writes) :
    ∃ id before, write = ⟨table, id, some (set start before), label⟩ ∧
      (entry.cur.db table).get id = some before ∧ keep ctx.snap id before = true ∧
      ⟨table, id, .noKeyUpdate⟩ ∈ entry.locks := by
  have lock := ran.lockOf_mem made
  rw [ran.writes] at made
  obtain ⟨⟨id, before⟩, found, rfl⟩ := List.mem_map.mp made
  obtain ⟨-, stored, kept⟩ := Ctx.mem_targets.mp found
  refine ⟨id, before, by rw [← ran.now], ?_, kept, ?_⟩
  · rwa [ran.cur_table clean] at stored
  · simpa [Schema.lockOf, stored] using lock

/-- An UPDATE rewrites every row that it selects in its snapshot and that is still
there and selected when it has locked it. -/
theorem update_hit
    (ran : Entry.Ran schema start log.writes (Stmt.update label table keep set returning) entry ctx)
    {id : ℕ} {seen before : σ.Row table} (inSnap : (ctx.snap table).get id = some seen)
    (selected : keep ctx.snap id seen = true) (stored : (ctx.cur table).get id = some before)
    (kept : keep ctx.snap id before = true) :
    ⟨table, id, some (set start before), label⟩ ∈ entry.writes := by
  rw [ran.writes, ← ran.now]
  exact List.mem_map.mpr ⟨(id, before), Ctx.mem_targets.mpr
    ⟨⟨seen, inSnap, selected⟩, stored, kept⟩, rfl⟩

/-- An UPDATE about one id rewrites that row or none. -/
theorem update_one
    (ran : Entry.Ran schema start log.writes (Stmt.update label table keep set returning) entry ctx)
    {key : ℕ} (only : ∀ id row, keep ctx.snap id row = true → id = key) :
    entry.writes = [] ∨ ∃ before, entry.writes = [⟨table, key, some (set start before), label⟩] := by
  rw [ran.writes, ← ran.now]
  exact (Stmt.update_of_id only).imp And.left fun ⟨before, one, _⟩ => ⟨before, one⟩

/-- A DELETE removes rows, and performs the ON DELETE actions. -/
theorem delete_cases {actions : Schema σ}
    (ran : Entry.Ran schema start log.writes (Stmt.delete actions label table keep) entry ctx)
    {write : Write σ} (made : write ∈ entry.writes) :
    ∃ id, write = ⟨table, id, none, label⟩ ∨ write ∈ actions.onDelete ctx.cur table id label := by
  rw [ran.writes] at made
  obtain ⟨⟨id, before⟩, -, which⟩ := List.mem_flatMap.mp made
  exact ⟨id, List.mem_cons.mp which⟩

/-- A DELETE removes rows that it has locked, and performs the ON DELETE actions. -/
theorem of_delete {actions : Schema σ}
    (ran : Entry.Ran schema start log.writes (Stmt.delete actions label table keep) entry ctx)
    {write : Write σ} (made : write ∈ entry.writes) :
    ∃ id before, (ctx.cur table).get id = some before ∧ keep ctx.snap id before = true ∧
      (∀ other ∈ ⟨table, id, none, label⟩ :: actions.onDelete ctx.cur table id label,
        other ∈ entry.writes) ∧ ⟨table, id, .update⟩ ∈ entry.locks ∧
      (write = ⟨table, id, none, label⟩ ∨ write ∈ actions.onDelete ctx.cur table id label) := by
  have removed : ∀ id before, (id, before) ∈ ctx.targets table keep →
      ∀ other ∈ ⟨table, id, none, label⟩ :: actions.onDelete ctx.cur table id label,
        other ∈ entry.writes := by
    intro id before found other member
    rw [ran.writes]
    exact List.mem_flatMap.mpr ⟨(id, before), found, member⟩
  rw [ran.writes] at made
  obtain ⟨⟨id, before⟩, found, which⟩ := List.mem_flatMap.mp made
  obtain ⟨-, stored, kept⟩ := Ctx.mem_targets.mp found
  have gone := removed id before found
  refine ⟨id, before, stored, kept, gone, ?_, List.mem_cons.mp which⟩
  have lock := ran.lockOf_mem (gone _ List.mem_cons_self)
  simpa [Schema.lockOf, stored] using lock

/-- A DELETE that sets nothing off removes each row once. -/
theorem apart_delete {actions : Schema σ}
    (ran : Entry.Ran schema start log.writes (Stmt.delete actions label table keep) entry ctx)
    (alone : ∀ id, actions.onDelete ctx.cur table id label = []) : Apart entry.writes := by
  have one : entry.writes = (ctx.targets table keep).map fun found =>
      (⟨table, found.1, none, label⟩ : Write σ) := by
    rw [ran.writes, List.map_eq_flatMap]
    simp [Stmt.delete, alone]
  rw [one]
  exact Apart.map (ctx.pairwise_targets table keep)

/-- A DELETE from a table that has not been written removes rows as they are when it has
locked them. -/
theorem mem_delete {actions : Schema σ}
    (ran : Entry.Ran schema start log.writes (Stmt.delete actions label table keep) entry ctx)
    (clean : Log.Clean log table) {write : Write σ} (made : write ∈ entry.writes) :
    ∃ id before, (entry.cur.db table).get id = some before ∧ keep ctx.snap id before = true ∧
      (∀ other ∈ ⟨table, id, none, label⟩ :: actions.onDelete ctx.cur table id label,
        other ∈ entry.writes) ∧ ⟨table, id, .update⟩ ∈ entry.locks ∧
      (write = ⟨table, id, none, label⟩ ∨ write ∈ actions.onDelete ctx.cur table id label) := by
  obtain ⟨id, before, stored, rest⟩ := ran.of_delete made
  rw [ran.cur_table clean] at stored
  exact ⟨id, before, stored, rest⟩

/-- A DELETE removes every row that it selects in its snapshot and that is still
there and selected when it has locked it. -/
theorem delete_hit {actions : Schema σ}
    (ran : Entry.Ran schema start log.writes (Stmt.delete actions label table keep) entry ctx)
    {id : ℕ} {seen before : σ.Row table} (inSnap : (ctx.snap table).get id = some seen)
    (selected : keep ctx.snap id seen = true) (stored : (ctx.cur table).get id = some before)
    (kept : keep ctx.snap id before = true) : ⟨table, id, none, label⟩ ∈ entry.writes := by
  rw [ran.writes]
  exact List.mem_flatMap.mpr ⟨(id, before), Ctx.mem_targets.mpr
    ⟨⟨seen, inSnap, selected⟩, stored, kept⟩, List.mem_cons_self⟩

end Entry.Ran

end ReadCommitted

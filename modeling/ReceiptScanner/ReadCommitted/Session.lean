import ReceiptScanner.ReadCommitted.Logic

/-!
# The log of a transaction

An open transaction is described by its log, newest entry first: what each of its
statements saw, took and wrote. A log is `Linked` to a history when its entries
follow one another inside the history and their locks have been respected since.
What a statement found under a lock is then still so when the transaction commits.
-/

namespace ReadCommitted

variable {σ : Signature} {X : Interface}

/-- One finished statement of an open transaction. -/
structure Entry (σ : Signature) (X : Interface) where
  snap : History σ X
  cur : History σ X
  locks : List (Lock σ)
  writes : List (Write σ)

/-- The statements of an open transaction so far, latest first. -/
abbrev Log (σ : Signature) (X : Interface) := List (Entry σ X)

namespace Log

/-- All writes, in order. -/
def writes : Log σ X → List (Write σ)
  | [] => []
  | entry :: log => writes log ++ entry.writes

/-- All locks. -/
def locks : Log σ X → List (Lock σ)
  | [] => []
  | entry :: log => locks log ++ entry.locks

/-- All spans, in order. -/
def spans : Log σ X → List (ℕ × ℕ)
  | [] => []
  | entry :: log => spans log ++ [(entry.snap.length, entry.cur.length)]

@[simp] theorem writes_nil : writes ([] : Log σ X) = [] := rfl

@[simp] theorem writes_cons (entry : Entry σ X) (log : Log σ X) :
    writes (entry :: log) = writes log ++ entry.writes := rfl

@[simp] theorem locks_nil : locks ([] : Log σ X) = [] := rfl

@[simp] theorem locks_cons (entry : Entry σ X) (log : Log σ X) :
    locks (entry :: log) = locks log ++ entry.locks := rfl

theorem writes_append (later earlier : Log σ X) :
    writes (later ++ earlier) = writes earlier ++ writes later := by
  induction later with
  | nil => simp
  | cons entry later ih => simp [ih]

theorem mem_locks {log : Log σ X} {entry : Entry σ X} (member : entry ∈ log) :
    entry.locks ⊆ locks log := by
  induction log with
  | nil => simp at member
  | cons other log ih =>
      rcases List.mem_cons.mp member with rfl | earlier
      · exact List.subset_append_right _ _
      · exact fun lock held => List.subset_append_left _ _ (ih earlier held)

end Log

/-- Every commit since then has been compatible with the locks. -/
def Held (since now : History σ X) (locks : List (Lock σ)) : Prop :=
  ∀ commit earlier, commit :: earlier <:+ now → since <:+ earlier →
    commit.Covered earlier ∧ Compatible commit.locks locks

theorem Held.mono {since now : History σ X} {locks fewer : List (Lock σ)}
    (held : Held since now locks) (subset : fewer ⊆ locks) : Held since now fewer :=
  fun commit earlier suffix after =>
    ⟨(held commit earlier suffix after).1,
      (held commit earlier suffix after).2.mono (List.Subset.refl _) subset⟩

/-- What is kept by every commit that is compatible with the locks holds at the end. -/
theorem Held.preserves {since now : History σ X} {locks : List (Lock σ)}
    (held : Held since now locks) (suffix : since <:+ now) {P : History σ X → Prop}
    (step : ∀ commit earlier, commit :: earlier <:+ now → since <:+ earlier → P earlier →
      commit.Covered earlier → Compatible commit.locks locks → P (commit :: earlier))
    (start : P since) : P now := by
  induction now with
  | nil => exact List.suffix_nil.mp suffix ▸ start
  | cons commit earlier ih =>
      rcases List.suffix_cons_iff.mp suffix with rfl | inside
      · exact start
      · obtain ⟨covered, compatible⟩ := held commit earlier List.suffix_rfl inside
        have narrowed : Held since earlier locks := fun other before at_ =>
          held other before (at_.trans (List.suffix_cons _ _))
        refine step commit earlier List.suffix_rfl inside (ih narrowed inside ?_) covered compatible
        intro other before at_
        exact step other before (at_.trans (List.suffix_cons _ _))

/-- The row under a lock stronger than key-share stays as it is. -/
theorem Held.get {since now : History σ X} {locks : List (Lock σ)}
    (held : Held since now locks) (suffix : since <:+ now) {table : σ.Table} {id : ℕ}
    {mode : LockMode} (strong : mode ≠ .keyShare) (member : ⟨table, id, mode⟩ ∈ locks) :
    ((History.db now) table).get id = ((History.db since) table).get id :=
  held.preserves suffix
    (P := fun history => ((History.db history) table).get id = ((History.db since) table).get id)
    (fun commit earlier _ _ same covered compatible => by
      rw [History.db_cons, Db.get_writes_untouched _ (Rely.untouched_of_locked
        strong member covered compatible), same]) rfl

/-- When and by whom a transaction was opened. -/
structure Opening where
  tid : ℕ
  start : ℕ
  began : ℕ

/-- A process without an open transaction. -/
def idle (tid : ℕ) (calls : List (Said X)) : Local σ X := { tid := tid, calls := calls }

namespace Opening

variable (opening : Opening)

/-- The process with this transaction open. -/
def own (calls : List (Said X)) (log : Log σ X) : Local σ X where
  tid := opening.tid
  txn := some {
    start := opening.start
    began := opening.began
    writes := log.writes
    locks := log.locks
    spans := log.spans }
  calls := calls

/-- What the transaction commits. -/
def commit (calls : List (Said X)) (log : Log σ X) (stop : ℕ) : Commit σ X where
  tid := opening.tid
  start := opening.start
  began := opening.began
  stop := stop
  writes := log.writes
  locks := log.locks
  calls := calls
  spans := log.spans

@[simp] theorem locks_own (calls : List (Said X)) (log : Log σ X) :
    (opening.own calls log).locks = log.locks := rfl

@[simp] theorem writes_own (calls : List (Said X)) (log : Log σ X) :
    (opening.own calls log).writes = log.writes := rfl

end Opening

/-- The log fits the history: entries follow one another, and the locks of each
have been respected since. -/
structure Linked (opening : Opening) (history : History σ X) (log : Log σ X) : Prop where
  ordered : log.Pairwise fun later earlier => earlier.cur <:+ later.snap
  spanned : ∀ entry ∈ log, entry.snap <:+ entry.cur
  past : ∀ entry ∈ log, entry.cur <:+ history
  after : ∀ entry ∈ log, opening.began ≤ entry.snap.length
  opened : opening.began ≤ history.length
  held : ∀ entry ∈ log, Held entry.cur history entry.locks

namespace Linked

variable {opening : Opening} {log : Log σ X}

/-- A log stays linked while others run. -/
theorem rely {ok : Guarantee σ X} {calls : List (Said X)} {before later : World σ X}
    (linked : Linked opening before.history log)
    (rely : Rely ok (opening.own calls log) before later) :
    Linked opening later.history log where
  ordered := linked.ordered
  spanned := linked.spanned
  past entry member := (linked.past entry member).trans rely.suffix
  after := linked.after
  opened := linked.opened.trans rely.suffix.length_le
  held := rely.preserves
    (P := fun history => ∀ entry ∈ log, Held entry.cur history entry.locks)
    (fun history commit _ held _ covered compatible _ entry member other earlier suffix since => by
      rcases List.suffix_cons_iff.mp suffix with equal | inside
      · obtain ⟨rfl, rfl⟩ := List.cons.inj equal
        exact ⟨covered, compatible.mono (List.Subset.refl _) (Log.mem_locks member)⟩
      · exact held entry member other earlier inside since) linked.held

theorem nil {history : History σ X} (opened : opening.began ≤ history.length) :
    Linked opening history ([] : Log σ X) where
  ordered := List.Pairwise.nil
  spanned _ member := absurd member List.not_mem_nil
  past _ member := absurd member List.not_mem_nil
  after _ member := absurd member List.not_mem_nil
  opened := opened
  held _ member := absurd member List.not_mem_nil

/-- The older entries of a log are linked too. -/
theorem of_suffix {history : History σ X} {older : Log σ X} (linked : Linked opening history log)
    (inside : older <:+ log) : Linked opening history older where
  ordered := linked.ordered.sublist inside.sublist
  spanned entry member := linked.spanned entry (inside.subset member)
  past entry member := linked.past entry (inside.subset member)
  after entry member := linked.after entry (inside.subset member)
  opened := linked.opened
  held entry member := linked.held entry (inside.subset member)

/-- One more statement. -/
theorem cons {history snap cur : History σ X} {locks : List (Lock σ)} {writes : List (Write σ)}
    (linked : Linked opening history log) (past : history <:+ snap) (spanned : snap <:+ cur)
    (later : Linked opening cur log) : Linked opening cur (⟨snap, cur, locks, writes⟩ :: log) where
  ordered := List.pairwise_cons.mpr
    ⟨fun other member => (linked.past other member).trans past, linked.ordered⟩
  spanned := List.forall_mem_cons.mpr ⟨spanned, linked.spanned⟩
  past := List.forall_mem_cons.mpr ⟨List.suffix_rfl, later.past⟩
  after := List.forall_mem_cons.mpr ⟨linked.opened.trans past.length_le, linked.after⟩
  opened := later.opened
  held := List.forall_mem_cons.mpr ⟨fun commit earlier suffix since => absurd
    (suffix.length_le.trans since.length_le) (by simp), later.held⟩

end Linked

/-- No write so far has used the id. -/
def Unused (history : History σ X) (table : σ.Table) (id : ℕ) : Prop :=
  ∀ commit ∈ history, ∀ write ∈ commit.writes, ¬ write.Touches table id

theorem Unused.earlier {history earlier : History σ X} {table : σ.Table} {id : ℕ}
    (unused : Unused history table id) (suffix : earlier <:+ history) : Unused earlier table id :=
  fun commit member => unused commit (suffix.subset member)

/-- An unused id has no row, now or at any time before. -/
theorem Unused.get {history earlier : History σ X} {table : σ.Table} {id : ℕ}
    (unused : Unused history table id) (suffix : earlier <:+ history) :
    ((History.db earlier) table).get id = none := by
  have old := unused.earlier suffix
  clear unused suffix
  induction earlier with
  | nil => rfl
  | cons commit earlier ih =>
      rw [History.db_cons, Db.get_writes_untouched _ (old commit List.mem_cons_self)]
      exact ih fun other member => old other (List.mem_cons_of_mem _ member)

/-- An id under an UPDATE lock stays unused. -/
theorem Held.unused {since now : History σ X} {locks : List (Lock σ)}
    (held : Held since now locks) (suffix : since <:+ now) {table : σ.Table} {id : ℕ}
    (member : ⟨table, id, .update⟩ ∈ locks) (unused : Unused since table id) :
    Unused now table id :=
  held.preserves suffix (P := fun history => Unused history table id)
    (fun commit earlier _ _ old covered compatible =>
      List.forall_mem_cons.mpr ⟨Rely.untouched_of_locked
        (by decide) member covered compatible, old⟩) unused

/-- The statement ran as this entry, in this context, after the writes of `prior`. -/
structure Entry.Ran {β : Type} (schema : Schema σ) (start : ℕ) (prior : List (Write σ))
    (stmt : Stmt σ β) (entry : Entry σ X) (ctx : Ctx σ) : Prop where
  snap : ctx.snap = entry.snap.db.writes prior
  cur : ctx.cur = entry.cur.db.writes prior
  now : ctx.now = start
  writes : entry.writes = (stmt ctx).writes
  settled : schema.Settled ctx.others ctx.cur (stmt ctx) entry.locks
  unused : ∀ table id, ctx.next table ≤ id → Unused entry.cur table id
  stopped : ∀ commit ∈ entry.cur, commit.stop < ctx.clock
  drawn : ∀ write ∈ prior, write.id < ctx.next write.table

/-- The statement ran as this entry, the first of its transaction. -/
abbrev Entry.RanFirst {β : Type} (schema : Schema σ) (start : ℕ) (stmt : Stmt σ β)
    (entry : Entry σ X) (ctx : Ctx σ) : Prop :=
  Entry.Ran schema start (Log.writes ([] : Log σ X)) stmt entry ctx

theorem World.WellFormed.unused {world : World σ X} (wf : world.WellFormed) {table : σ.Table}
    {id : ℕ} (undrawn : world.next table ≤ id) : Unused world.history table id := by
  rintro commit member write written ⟨rfl, rfl⟩
  exact absurd (wf.drawn commit member write written) (by omega)

end ReadCommitted

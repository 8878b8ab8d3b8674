import ReceiptScanner.ReadCommitted.Follow

/-!
# Uniqueness

A UNIQUE index is checked when a statement finishes, against what the transaction sees then,
and a row that another transaction is about to store makes the statement wait. Between the
two no pair of rows that exclude each other is ever committed, whatever the interleaving.
-/

namespace ReadCommitted

variable {σ : Signature} {X : Interface} {schema : Schema σ}

/-- No two rows of a table exclude each other. -/
def Distinct (schema : Schema σ) (db : Db σ) : Prop :=
  ∀ table id other row row', (db table).get id = some row → (db table).get other = some row' →
    id ≠ other → schema.clash table row row' = false

/-- Every row passes its CHECK. -/
def Checked (schema : Schema σ) (db : Db σ) : Prop :=
  ∀ table id row, (db table).get id = some row → schema.check table row = true

/-- No row of the one excludes a row of the other. -/
def Free (schema : Schema σ) (mine theirs : List (Write σ)) : Prop :=
  ∀ table id row label other row' label', ⟨table, id, some row, label⟩ ∈ mine →
    ⟨table, other, some row', label'⟩ ∈ theirs → schema.clash table row row' = false

/-- Whether two rows exclude each other does not depend on their order. -/
def Schema.Symmetric (schema : Schema σ) : Prop :=
  ∀ table row row', schema.clash table row row' = schema.clash table row' row

theorem Distinct.empty (schema : Schema σ) : Distinct schema Db.empty :=
  fun table id other row row' stored => by simp at stored

theorem Checked.empty (schema : Schema σ) : Checked schema Db.empty :=
  fun table id row stored => by simp at stored

namespace Free

variable {mine theirs more : List (Write σ)}

theorem nil_left : Free schema [] theirs := fun _ _ _ _ _ _ _ member => by simp at member

theorem nil_right : Free schema mine [] := fun _ _ _ _ _ _ _ _ member => by simp at member

theorem symm (symmetric : schema.Symmetric) (free : Free schema mine theirs) :
    Free schema theirs mine := fun table id row label other row' label' here there =>
  (symmetric table row row').trans (free table other row' label' id row label there here)

theorem append_left (first : Free schema mine theirs) (second : Free schema more theirs) :
    Free schema (mine ++ more) theirs := by
  intro table id row label other row' label' here there
  rcases List.mem_append.mp here with member | member
  · exact first table id row label other row' label' member there
  · exact second table id row label other row' label' member there

theorem mono_right (free : Free schema mine theirs) (subset : more ⊆ theirs) :
    Free schema mine more := fun table id row label other row' label' here there =>
  free table id row label other row' label' here (subset there)

end Free

/-- A statement that settles writes nothing that a pending row excludes. -/
theorem Schema.free_of_settle {β : Type} {others : List (Lock σ)} {pending : List (Write σ)}
    {cur : Db σ} {outcome : Outcome σ β} {locks : List (Lock σ)}
    (settled : schema.settle others pending cur outcome = .ok (some locks)) :
    Free schema outcome.writes pending := by
  simp only [Schema.settle] at settled
  split at settled
  · simp at settled
  · rename_i free
    simp only [Bool.or_eq_true, not_or, Bool.not_eq_true] at free
    intro table id row label other row' label' here there
    have waits := List.any_eq_false.mp free.2 _ here
    simp only [Schema.pendingClash, Bool.not_eq_true, List.any_eq_false] at waits
    simpa using waits _ there

namespace Schema.Settled

variable {β : Type} {others : List (Lock σ)} {cur : Db σ} {outcome : Outcome σ β}
  {locks : List (Lock σ)}

/-- A written row excludes no other. -/
theorem apart (settled : schema.Settled others cur outcome locks) {table : σ.Table}
    {id other : ℕ} {row row' : σ.Row table} {label : σ.Label}
    (written : ⟨table, id, some row, label⟩ ∈ outcome.writes)
    (stored : ((cur.writes outcome.writes) table).get other = some row') (differ : id ≠ other) :
    schema.clash table row row' = false := by
  have unique := settled.unique _ written
  simp only [Schema.clashes, List.any_eq_false, Bool.and_eq_true, decide_eq_true_eq, not_and,
    Bool.not_eq_true] at unique
  exact unique (other, row') (Rows.mem_list.mpr stored) (Ne.symm differ)

/-- A statement that settles leaves no two rows that exclude each other. -/
theorem distinct (symmetric : schema.Symmetric)
    (settled : schema.Settled others cur outcome locks) (before : Distinct schema cur) :
    Distinct schema (cur.writes outcome.writes) := by
  intro table id other row row' stored stored' differ
  rcases Db.get_writes_cases cur outcome.writes table id with ⟨same, -⟩ | ⟨_, label, written, now⟩
  · rcases Db.get_writes_cases cur outcome.writes table other with
      ⟨same', -⟩ | ⟨_, label, written, now⟩
    · exact before table id other row row' (same ▸ stored) (same' ▸ stored') differ
    · obtain rfl := now.symm.trans stored'
      exact (symmetric table row row').trans (settled.apart written stored (Ne.symm differ))
  · obtain rfl := now.symm.trans stored
    exact settled.apart written stored' differ

end Schema.Settled

section Grow

variable {own : Local σ X} {history : History σ X} {commit : Commit σ X}

/-- Another transaction's commit leaves the view of an open one without such rows. -/
theorem Distinct.grow (symmetric : schema.Symmetric) (view : Distinct schema (own.view history))
    (after : Distinct schema (History.db (commit :: history)))
    (free : Free schema own.writes commit.writes) :
    Distinct schema (own.view (commit :: history)) := by
  -- A row of this transaction and a committed one.
  have mixed : ∀ {table id other row row'}, (∃ change ∈ own.writes, change.Touches table id) →
      (∀ change ∈ own.writes, ¬ change.Touches table other) →
      (own.view (commit :: history) table).get id = some row →
      (own.view (commit :: history) table).get other = some row' → id ≠ other →
      schema.clash table row row' = false := by
    intro table id other row row' mine theirs stored stored' differ
    have same := Db.get_writes_touched mine (History.db (commit :: history)) (History.db history)
    rw [Local.view, Db.get_writes_untouched _ theirs] at stored'
    rcases Db.get_writes_cases (History.db history) commit.writes table other with
      ⟨unchanged, -⟩ | ⟨_, label', written', now'⟩
    · refine view table id other row row' (same.symm.trans stored) ?_ differ
      rw [Local.view, Db.get_writes_untouched _ theirs, ← unchanged]
      exact stored'
    · obtain rfl := now'.symm.trans stored'
      rcases Db.get_writes_cases (History.db (commit :: history)) own.writes table id with
        ⟨-, untouched⟩ | ⟨_, label, written, now⟩
      · obtain ⟨change, member, touches⟩ := mine
        exact absurd touches (untouched change member)
      · obtain rfl := now.symm.trans stored
        exact free table id row label other row' label' written written'
  intro table id other row row' stored stored' differ
  by_cases mine : ∃ change ∈ own.writes, change.Touches table id
  · by_cases mine' : ∃ change ∈ own.writes, change.Touches table other
    · refine view table id other row row' ?_ ?_ differ
      · exact (Db.get_writes_touched mine _ _).trans stored
      · exact (Db.get_writes_touched mine' _ _).trans stored'
    · exact mixed mine (by simpa using mine') stored stored' differ
  · have untouched : ∀ change ∈ own.writes, ¬ change.Touches table id := by simpa using mine
    by_cases mine' : ∃ change ∈ own.writes, change.Touches table other
    · exact (symmetric table row row').trans
        (mixed mine' untouched stored' stored (Ne.symm differ))
    · have untouched' : ∀ change ∈ own.writes, ¬ change.Touches table other := by
        simpa using mine'
      rw [Local.view, Db.get_writes_untouched _ untouched] at stored
      rw [Local.view, Db.get_writes_untouched _ untouched'] at stored'
      exact after table id other row row' stored stored' differ

/-- Writes that pass their CHECKs leave every row passing. -/
theorem Checked.writes {db : Db σ} {changes : List (Write σ)} (before : Checked schema db)
    (pass : ∀ write ∈ changes, schema.violates write = false) :
    Checked schema (db.writes changes) := by
  intro table id row stored
  rcases Db.get_writes_cases db changes table id with ⟨same, -⟩ | ⟨_, label, written, now⟩
  · exact before table id row (same ▸ stored)
  · obtain rfl := now.symm.trans stored
    simpa [Schema.violates] using pass _ written

end Grow

variable {system : System σ X}

/-- What the constraints owe to the waiting: no pending rows exclude each other, and each
transaction sees none that do. -/
structure Config.Lawful (system : System σ X) (config : Config σ X system.Job) : Prop where
  committed : ∀ h : History σ X, h <:+ config.world.history →
    Distinct system.schema h.db ∧ Checked system.schema h.db
  views : ∀ tid proc, config.procs tid = some proc →
    Distinct system.schema (proc.own.view config.world.history)
  free : ∀ tid other proc q, config.procs tid = some proc → config.procs other = some q →
    tid ≠ other → Free system.schema proc.own.writes q.own.writes
  pass : ∀ tid proc, config.procs tid = some proc → ∀ write ∈ proc.own.writes,
    system.schema.violates write = false

namespace Config

variable {config next : Config σ X system.Job} {tid : ℕ} {proc : Proc σ X system.Job}
  {choice : Move X system.Job}

/-- What the others are about to store is in the list that a statement is checked against. -/
theorem subset_otherWrites (numbered : config.Numbered) {other : ℕ} {q : Proc σ X system.Job}
    (found : config.procs other = some q) (differ : other ≠ tid) :
    q.own.writes ⊆ config.otherWrites tid := by
  intro write member
  refine List.mem_flatMap.mpr ⟨q, List.mem_filterMap.mpr ⟨other, ?_, found⟩, member⟩
  exact List.mem_filter.mpr ⟨List.mem_range.mpr (numbered other q found), by simpa using differ⟩

namespace Lawful

theorem initial (system : System σ X) : Config.Lawful system (Config.initial system) where
  committed h suffix := by
    obtain rfl := List.suffix_nil.mp suffix
    exact ⟨.empty _, .empty _⟩
  views _ _ found := nomatch found
  free _ _ _ _ found := nomatch found
  pass _ _ found := nomatch found

theorem spawn (lawful : Config.Lawful system config) (job : system.Job) :
    Config.Lawful system (Config.spawn system config job) := by
  have before : ∀ {tid proc}, (Config.spawn system config job).procs tid = some proc →
      config.procs tid = some proc ∨ proc.own.writes = [] := by
    intro tid proc found
    rcases Config.spawned_cases [job] found with old | ⟨other, rfl⟩
    · exact Or.inl old
    · exact Or.inr rfl
  refine ⟨lawful.committed, fun tid proc found => ?_, fun tid other proc q found found' differ => ?_,
    fun tid proc found => ?_⟩
  · rcases before found with old | none
    · exact lawful.views tid proc old
    · rw [Local.view, none, Db.writes_nil]
      exact (lawful.committed _ List.suffix_rfl).1
  · rcases before found with old | none
    · rcases before found' with old' | none'
      · exact lawful.free tid other proc q old old' differ
      · exact none' ▸ Free.nil_right
    · exact none ▸ Free.nil_left
  · rcases before found with old | none
    · exact lawful.pass tid proc old
    · simp [none]

theorem spawnAll (lawful : Config.Lawful system config) (jobs : List system.Job) :
    Config.Lawful system (jobs.foldl (Config.spawn system) config) := by
  induction jobs generalizing config with
  | nil => exact lawful
  | cons job rest ih => exact ih (lawful.spawn job)

/-- A turn keeps the constraints, if what it commits and what it leaves pending does. -/
theorem update (lawful : Config.Lawful system config) (found : config.procs tid = some proc)
    {own : Local σ X} {life : Life σ X system.Job} {world : World σ X}
    (grown : world.history = config.world.history ∨ ∃ commit,
      world.history = commit :: config.world.history ∧
      Distinct system.schema world.history.db ∧ Checked system.schema world.history.db ∧
      ∀ other q, config.procs other = some q → other ≠ tid →
        Free system.schema q.own.writes commit.writes)
    (view : Distinct system.schema (own.view world.history))
    (free : ∀ other q, config.procs other = some q → other ≠ tid →
      Free system.schema own.writes q.own.writes)
    (pass : ∀ write ∈ own.writes, system.schema.violates write = false)
    (symmetric : system.schema.Symmetric) :
    Config.Lawful system (config.update tid { proc with own := own, life := life } world) := by
  have cases : ∀ {other q}, (config.update tid { proc with own := own, life := life }
      world).procs other = some q → (other = tid ∧ q.own = own) ∨
      (other ≠ tid ∧ config.procs other = some q) := by
    intro other q at_
    by_cases same : other = tid
    · subst same
      simp only [Config.update, Function.update_self, Option.some.injEq] at at_
      exact Or.inl ⟨rfl, at_ ▸ rfl⟩
    · simp only [Config.update, Function.update_of_ne same] at at_
      exact Or.inr ⟨same, at_⟩
  refine ⟨fun h suffix => ?_, fun other q at_ => ?_, fun first second p q at_ at' differ => ?_,
    fun other q at_ => ?_⟩
  · rcases grown with same | ⟨commit, isCons, distinct, checked, -⟩
    · exact lawful.committed h (same ▸ suffix)
    · change h <:+ world.history at suffix
      rcases List.suffix_cons_iff.mp (isCons ▸ suffix) with rfl | inside
      · exact isCons ▸ ⟨distinct, checked⟩
      · exact lawful.committed h inside
  · rcases cases at_ with ⟨rfl, isOwn⟩ | ⟨differ, old⟩
    · exact isOwn ▸ view
    · change Distinct system.schema (q.own.view world.history)
      rcases grown with same | ⟨commit, isCons, distinct, -, apart⟩
      · exact same ▸ lawful.views other q old
      · rw [isCons] at distinct ⊢
        exact (lawful.views other q old).grow symmetric distinct (apart other q old differ)
  · rcases cases at_ with ⟨rfl, isOwn⟩ | ⟨differ₁, old⟩
    · rcases cases at' with ⟨same, -⟩ | ⟨differ₂, old'⟩
      · exact absurd same.symm differ
      · exact isOwn ▸ free second q old' differ₂
    · rcases cases at' with ⟨rfl, isOwn⟩ | ⟨-, old'⟩
      · exact isOwn ▸ (free first p old differ₁).symm symmetric
      · exact lawful.free first second p q old old' differ
  · rcases cases at_ with ⟨rfl, isOwn⟩ | ⟨-, old⟩
    · exact isOwn ▸ pass
    · exact lawful.pass other q old

/-- A turn that commits nothing, and leaves pending what was pending or nothing. -/
theorem keep (lawful : Config.Lawful system config) (found : config.procs tid = some proc)
    {own : Local σ X} {life : Life σ X system.Job} {world : World σ X}
    (same : world.history = config.world.history)
    (left : own.writes = proc.own.writes ∨ own.writes = [])
    (symmetric : system.schema.Symmetric) :
    Config.Lawful system (config.update tid { proc with own := own, life := life } world) := by
  refine lawful.update found (Or.inl same) ?_ (fun other q at_ differ => ?_) ?_ symmetric
  · rw [same, Local.view]
    rcases left with kept | none
    · exact kept ▸ lawful.views tid proc found
    · rw [none, Db.writes_nil]
      exact (lawful.committed _ List.suffix_rfl).1
  · rcases left with kept | none
    · exact kept ▸ lawful.free tid other proc q found at_ (Ne.symm differ)
    · exact none ▸ Free.nil_left
  · rcases left with kept | none
    · exact kept ▸ lawful.pass tid proc found
    · simp [none]

/-- A statement that finishes. -/
theorem finish (lawful : Config.Lawful system config) (numbered : config.Numbered)
    (found : config.procs tid = some proc) (symmetric : system.schema.Symmetric) {β : Type}
    {inTxn : Bool} {stmt : Stmt σ β} {flight : Flight σ X} {reply : Except SqlFailure β}
    {own : Local σ X} {life : Life σ X system.Job} {world : World σ X}
    (finished : ReadCommitted.finish system.schema (config.otherLocks tid)
      (config.otherWrites tid) inTxn stmt flight proc.own config.world = some (reply, own, world)) :
    Config.Lawful system (config.update tid { proc with own := own, life := life } world) := by
  rcases finish_cases finished with ⟨failure, -, rfl, rfl⟩ |
    ⟨outcome, locks, -, settles, -, ⟨rfl, txn, isTxn, -, rfl, rfl⟩ |
      ⟨rfl, rfl, ⟨-, rfl⟩ | ⟨-, rfl⟩⟩⟩
  · exact lawful.keep found rfl (Or.inl (proc.own.writes_fail inTxn)) symmetric
  · have settled := Schema.settle_eq_some settles
    have writes : (proc.own.extend txn outcome locks (flight.span config.world)).writes =
        proc.own.writes ++ outcome.writes := by simp [Local.extend, Local.writes, isTxn]
    have apart := Schema.free_of_settle settles
    refine lawful.update found (Or.inl rfl) ?_ (fun other q at_ differ => ?_) ?_ symmetric
    · rw [Local.view, writes, Db.writes_append]
      exact settled.distinct symmetric (lawful.views tid proc found)
    · rw [writes]
      refine (lawful.free tid other proc q found at_ (Ne.symm differ)).append_left
        (apart.mono_right fun write member => List.mem_append_left _ ?_)
      exact subset_otherWrites numbered at_ differ member
    · rw [writes]
      intro write member
      rcases List.mem_append.mp member with old | new
      · exact lawful.pass tid proc found write old
      · exact settled.checked write new
  · exact lawful.keep found rfl (Or.inl rfl) symmetric
  · have settled := Schema.settle_eq_some settles
    have apart := Schema.free_of_settle settles
    have before := lawful.committed _ List.suffix_rfl
    have distinct := settled.distinct symmetric before.1
    have toOthers : ∀ other q, config.procs other = some q → other ≠ tid →
        Free system.schema q.own.writes outcome.writes := fun other q at_ differ =>
      (apart.mono_right fun write member => List.mem_append_left _
        (subset_otherWrites numbered at_ differ member)).symm symmetric
    refine lawful.update found
      (Or.inr ⟨_, rfl, distinct, before.2.writes settled.checked, toOthers⟩) ?_
      (fun other q at_ differ => lawful.free tid other proc q found at_ (Ne.symm differ))
      (lawful.pass tid proc found) symmetric
    exact (lawful.views tid proc found).grow symmetric distinct
      ((apart.mono_right fun write member => List.mem_append_right _ member).symm symmetric)

/-- A transaction that commits. -/
theorem commit (lawful : Config.Lawful system config) (found : config.procs tid = some proc)
    {life : Life σ X system.Job} (symmetric : system.schema.Symmetric) :
    Config.Lawful system (config.update tid { proc with own := proc.own.drop, life := life }
      (proc.own.committed config.world)) := by
  rcases proc.own.committed_cases config.world with same | ⟨txn, isTxn, grown⟩
  · exact lawful.keep found same (Or.inr rfl) symmetric
  · have isView : History.db (proc.own.committed config.world).history =
        proc.own.view config.world.history := by
      simp [grown, Local.commitOf, Local.view, Local.writes, isTxn]
    have distinct := isView ▸ lawful.views tid proc found
    have checked : Checked system.schema (History.db (proc.own.committed config.world).history) :=
      isView ▸ (lawful.committed _ List.suffix_rfl).2.writes (lawful.pass tid proc found)
    have isWrites : (proc.own.commitOf txn config.world.clock).writes = proc.own.writes := by
      simp [Local.commitOf, Local.writes, isTxn]
    refine lawful.update found (Or.inr ⟨_, grown, distinct, checked, fun other q at_ differ => ?_⟩)
      ?_ (fun other q _ _ => Free.nil_left) (fun write member => by simp at member) symmetric
    · exact isWrites ▸ lawful.free other tid q proc at_ found differ
    · exact distinct

/-- Every turn keeps the constraints. -/
theorem turn (lawful : Config.Lawful system config) (numbered : config.Numbered)
    (found : config.procs tid = some proc) (symmetric : system.schema.Symmetric)
    {own : Local σ X} {life : Life σ X system.Job} {world : World σ X} {jobs : List system.Job}
    (turn : Turn system config tid proc own life world jobs) :
    Config.Lawful system (config.update tid { proc with own := own, life := life } world) := by
  cases turn with
  | finish _ finished => exact lawful.finish numbered found symmetric finished
  | commit => exact lawful.commit found symmetric
  | failExec => exact lawful.keep found rfl (Or.inl (proc.own.writes_fail _)) symmetric
  | start | failBegin | done => exact lawful.keep found rfl (Or.inl rfl) symmetric
  | call => exact lawful.keep found rfl (Or.inl rfl) symmetric
  | beginTxn | rollback | crash => exact lawful.keep found rfl (Or.inr rfl) symmetric

end Lawful

/-- In every state of every run, and in every earlier state of its history, no two rows of a
table exclude each other and every row passes its CHECK. -/
theorem Reachable.lawful (symmetric : system.schema.Symmetric)
    (reachable : Config.Reachable system config) : Config.Lawful system config := by
  induction reachable with
  | initial => exact .initial system
  | move prior choice moved ih =>
      rcases move_cases moved with ⟨-, ⟨job, rfl⟩ | ⟨ticks, rfl⟩⟩ |
        ⟨tid, proc, own, life, world, jobs, -, found, turn, rfl⟩
      · exact ih.spawn job
      · exact ⟨ih.committed, ih.views, ih.free, ih.pass⟩
      · exact (ih.turn prior.numbered found symmetric turn).spawnAll jobs

end Config

end ReadCommitted

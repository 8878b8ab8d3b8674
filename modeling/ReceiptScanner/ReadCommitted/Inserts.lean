import ReceiptScanner.ReadCommitted.Footprint

/-!
# Rows that are inserted one at a time

Some rows are only ever stored by an INSERT of their own, which draws the next id and stamps
the row with now(). A transaction then stores them in the order of their ids, all with its own
start time.
-/

namespace ReadCommitted

variable {σ : Signature} {X : Interface} {α β : Type}

/-- A kind of row that is inserted one at a time: its table, the label it is stored under, and
its stamp. -/
structure Serial (σ : Signature) where
  table : σ.Table
  label : σ.Label
  stamp : σ.Row table → ℕ

namespace Serial

variable (kind : Serial σ)

/-- The write stores such a row. -/
def Stores (write : Write σ) : Prop := ∃ id row, write = ⟨kind.table, id, some row, kind.label⟩

/-- Where the statement stores such a row it stores just that, with the next id, at now(). -/
def Draws (stmt : Stmt σ β) : Prop :=
  ∀ ctx id row, ⟨kind.table, id, some row, kind.label⟩ ∈ (stmt ctx).writes →
    (stmt ctx).writes = [⟨kind.table, ctx.next kind.table, some row, kind.label⟩] ∧
      kind.stamp row = ctx.now

/-- So does every statement of the program. -/
def Sent : Prog σ X α → Prop
  | .done _ => True
  | .exec _ stmt next => kind.Draws stmt ∧ ∀ reply, Sent (next reply)
  | .beginTxn next => ∀ reply, Sent (next reply)
  | .commit next => Sent next
  | .rollback next => Sent next
  | .call _ next => ∀ reply, Sent (next reply)

variable {kind}

theorem sent_bind {prog : Prog σ X α} {rest : α → Prog σ X β} (first : kind.Sent prog)
    (second : ∀ value, kind.Sent (rest value)) : kind.Sent (prog.bind rest) := by
  induction prog with
  | done value => exact second value
  | exec inTxn stmt next ih => exact ⟨first.1, fun reply => ih reply (first.2 reply)⟩
  | beginTxn next ih => exact fun reply => ih reply (first reply)
  | commit next ih => exact ih first
  | rollback next ih => exact ih first
  | call c next ih => exact fun reply => ih reply (first reply)

/-- A program that never writes under the label. -/
theorem sent_of_within {print : Footprint σ X} {prog : Prog σ X α} (within : prog.Within print)
    (never : ∀ write, print.writes write → write.label ≠ kind.label) : kind.Sent prog := by
  induction prog with
  | done value => trivial
  | exec inTxn stmt next ih =>
      refine ⟨?_, fun reply => ih reply (within.2 reply)⟩
      intro ctx id row stores
      exact absurd rfl (never _ (within.1 ctx _ stores))
  | beginTxn next ih => exact fun reply => ih reply (within reply)
  | commit next ih => exact ih within
  | rollback next ih => exact ih within
  | call c next ih => exact fun reply => ih reply (within.2 reply)

/-- An INSERT of such a row. -/
theorem draws_insert {row : ℕ → σ.Row kind.table} (stamps : ∀ now, kind.stamp (row now) = now) :
    kind.Draws (.insert kind.label kind.table row) := by
  intro ctx id stored stores
  have same := List.mem_singleton.mp stores
  cases same
  exact ⟨rfl, stamps ctx.now⟩

/-- The rows are stored in the order of their ids. -/
def Increasing (kind : Serial σ) (writes : List (Write σ)) : Prop :=
  writes.Pairwise fun first second => kind.Stores first → kind.Stores second → first.id < second.id

/-- They are stamped with that time. -/
def At (kind : Serial σ) (time : ℕ) (writes : List (Write σ)) : Prop :=
  ∀ id row, ⟨kind.table, id, some row, kind.label⟩ ∈ writes → kind.stamp row = time

/-- A commit stores such rows in order, stamped with its start. -/
def inOrder (kind : Serial σ) : Guarantee σ X where
  commits _ c := kind.At c.start c.writes ∧ kind.Increasing c.writes
  calls _ _ _ _ := True

/-- The open transaction of a process has done so, with ids that were drawn. -/
structure Kept (kind : Serial σ) (own : Local σ X) (world : World σ X) : Prop where
  stamped : ∀ txn, own.txn = some txn → kind.At txn.start txn.writes
  increasing : kind.Increasing own.writes
  below : ∀ write ∈ own.writes, write.id < world.next write.table

namespace Kept

variable {own : Local σ X} {world later : World σ X}

theorem mono (kept : kind.Kept own world) (grows : ∀ table, world.next table ≤ later.next table) :
    kind.Kept own later :=
  ⟨kept.stamped, kept.increasing, fun write member =>
    (kept.below write member).trans_le (grows write.table)⟩

theorem of_none (none : own.txn = none) : kind.Kept own world := by
  have writes : own.writes = [] := by simp [Local.writes, none]
  constructor
  · intro txn open_
    cases none.symm.trans open_
  · rw [writes]
    exact List.Pairwise.nil
  · rw [writes]
    exact fun _ member => absurd member List.not_mem_nil

theorem fail (kept : kind.Kept own world) (inTxn : Bool) : kind.Kept (own.fail inTxn) world := by
  cases inTxn with
  | false => exact kept
  | true =>
      cases atTxn : own.txn with
      | none => exact of_none (by simp [Local.fail, atTxn])
      | some txn =>
          have writes : (own.fail true).writes = own.writes := by
            simp [Local.fail, Local.writes, atTxn]
          refine ⟨?_, writes ▸ kept.increasing, writes ▸ kept.below⟩
          intro other open_
          simp only [Local.fail, if_true, atTxn, Option.map_some, Option.some.injEq] at open_
          subst open_
          exact kept.stamped txn atTxn

end Kept

section Statement

variable {stmt : Stmt σ β} {ctx : Ctx σ}

/-- A statement of the kind adds rows with its now(). -/
theorem Draws.at (draws : kind.Draws stmt) : kind.At ctx.now (stmt ctx).writes :=
  fun id row stores => (draws ctx id row stores).2

/-- What it adds has ids that are larger than those drawn before. -/
theorem Draws.above (draws : kind.Draws stmt) {write : Write σ}
    (member : write ∈ (stmt ctx).writes) (stores : kind.Stores write) :
    write.id = ctx.next kind.table := by
  obtain ⟨id, row, rfl⟩ := stores
  rw [(draws ctx id row member).1] at member
  exact (Write.mk.inj (List.mem_singleton.mp member)).2.1

theorem Draws.increasing (draws : kind.Draws stmt) : kind.Increasing (stmt ctx).writes := by
  by_cases stores : ∃ write ∈ (stmt ctx).writes, kind.Stores write
  · obtain ⟨write, member, id, row, rfl⟩ := stores
    rw [Increasing, (draws ctx id row member).1]
    exact List.pairwise_singleton _ _
  · apply List.pairwise_of_forall_mem_list
    intro first inFirst second _ storesFirst
    exact absurd ⟨first, inFirst, storesFirst⟩ stores

end Statement

/-- Programs that store such rows by INSERTs of their own keep them in order. -/
theorem wp_of_sent {schema : Schema σ} {prog : Prog σ X α} {own : Local σ X} {world : World σ X}
    (sent : kind.Sent prog) (kept : kind.Kept own world) :
    prog.wp kind.inOrder schema (fun _ _ _ => True) own world := by
  induction prog generalizing own world with
  | done value => trivial
  | exec inTxn stmt next ih =>
      intro first rely _
      have keptFirst := kept.mono rely.next
      refine ⟨fun failure => ih _ (sent.2 _) (keptFirst.fail inTxn), fun last rely' _ => ?_⟩
      have keptLast : kind.Kept own last := keptFirst.mono rely'.next
      refine ⟨fun failure => ih _ (sent.2 _) (keptLast.fail inTxn), ?_⟩
      intro others pending reply own' world' finished
      have draws := sent.1
      rcases finish_cases finished with ⟨failure, rfl, rfl, rfl⟩ |
        ⟨outcome, locks, ran, -, rfl, ⟨isTxn, txn, atTxn, -, rfl, rfl⟩ | ⟨plain, rfl, which⟩⟩
      · exact ⟨Or.inl rfl, ih _ (sent.2 _) (keptLast.fail inTxn)⟩
      · subst isTxn
        refine ⟨Or.inl rfl, ih _ (sent.2 _) ?_⟩
        have before : own.writes = txn.writes := by simp [Local.writes, atTxn]
        subst ran
        constructor
        · rintro other open_ id row member
          cases open_
          rcases List.mem_append.mp member with old | new
          · exact keptLast.stamped txn atTxn id row old
          · have now := draws.at id row new
            simp only [ctxOf, Local.sender_true, atTxn] at now
            exact now
        · show kind.Increasing (txn.writes ++ _)
          rw [Increasing, List.pairwise_append]
          refine ⟨before ▸ keptLast.increasing, draws.increasing, ?_⟩
          intro old inOld new inNew storesOld storesNew
          rw [draws.above inNew storesNew]
          have below := keptLast.below old (before ▸ inOld)
          obtain ⟨id, row, rfl⟩ := storesOld
          exact below
        · intro write member
          rcases List.mem_append.mp member with old | new
          · exact (keptLast.below write (before ▸ old)).trans_le (le_advance _ _ _)
          · exact lt_advance new
      · subst plain
        rcases which with ⟨-, rfl⟩ | ⟨-, rfl⟩
        · exact ⟨Or.inl rfl, ih _ (sent.2 _) (keptLast.mono fun _ => le_advance _ _ _)⟩
        · refine ⟨Or.inr ⟨_, rfl, ?_, ?_⟩, ih _ (sent.2 _) (keptLast.mono fun _ => le_advance _ _ _)⟩
          · subst ran
            exact draws.at
          · subst ran
            exact draws.increasing
  | beginTxn next ih =>
      intro later rely _
      refine ⟨fun failure => ih _ (sent _) (kept.mono rely.next), ih _ (sent _) ?_⟩
      constructor
      · rintro txn ⟨⟩ id row member
        exact absurd member List.not_mem_nil
      · exact List.Pairwise.nil
      · exact fun _ member => absurd member List.not_mem_nil
  | commit next ih =>
      intro later rely _
      refine ⟨?_, ih sent (Kept.of_none rfl)⟩
      rcases own.committed_cases later with same | ⟨txn, atTxn, grown⟩
      · exact Or.inl same
      · refine Or.inr ⟨_, grown, kept.stamped txn atTxn, ?_⟩
        have writes : own.writes = txn.writes := by simp [Local.writes, atTxn]
        show kind.Increasing txn.writes
        exact writes ▸ kept.increasing
  | rollback next ih => exact fun later _ _ => ih sent (Kept.of_none rfl)
  | call c next ih =>
      intro later rely _
      refine ⟨trivial, fun reply => ih reply (sent reply) ?_⟩
      exact ⟨kept.stamped, kept.increasing, (kept.mono rely.next).below⟩

section Runs

variable {system : System σ X} {config : Config σ X system.Job}

/-- In every run the rows of the kind are stored in order, if all jobs insert them so. -/
theorem inOrder_of_reachable (sent : ∀ job, kind.Sent (system.prog job))
    (reachable : Config.Reachable system config) {c : Commit σ X}
    (member : c ∈ config.world.history) : kind.At c.start c.writes ∧ kind.Increasing c.writes := by
  obtain ⟨later, earlier, whole⟩ := List.append_of_mem member
  have keeps : Keeps system kind.inOrder (Terms.free config.jobs) :=
    Keeps.of_free fun job _ _ _ => wp_of_sent (sent job) (Kept.of_none rfl)
  exact keeps.sound reachable config.agrees_jobs
    (⟨later, whole.symm⟩ : c :: earlier <:+ config.world.history)

end Runs

end Serial

namespace Svc

variable {ε : Type} {kind : Serial σ}

/-- Every statement of the task stores rows of the kind as it should. -/
def Sent (kind : Serial σ) (task : Svc σ X ε α) : Prop := kind.Sent task.run

theorem sent_bind {first : Svc σ X ε β} {rest : β → Svc σ X ε α} (before : Sent kind first)
    (after : ∀ value, Sent kind (rest value)) : Sent kind (first >>= rest) :=
  Serial.sent_bind before fun result => match result with
    | .ok value => after value
    | .error _ => trivial

theorem sent_exec {raise : SqlFailure → ε} {inTxn : Bool} {stmt : Stmt σ α}
    (draws : kind.Draws stmt) : Sent kind (exec raise inTxn stmt : Svc σ X ε α) :=
  ⟨draws, fun reply => match reply with
    | .ok _ => trivial
    | .error _ => trivial⟩

theorem sent_rollingBack {body : Svc σ X ε α} (inside : Sent kind body) :
    Sent kind (rollingBack body) :=
  Serial.sent_bind inside fun result => match result with
    | .ok _ => trivial
    | .error _ => trivial

theorem sent_transaction {raise : SqlFailure → ε} {body : Svc σ X ε α}
    (inside : Sent kind body) : Sent kind (transaction raise body) := fun reply =>
  match reply with
  | .ok () => Serial.sent_bind inside fun _ => trivial
  | .error _ => trivial

theorem sent_forM {round : β → Svc σ X ε PUnit} (items : List β)
    (inside : ∀ item, Sent kind (round item)) : Sent kind (items.forM round) := by
  induction items with
  | nil => trivial
  | cons item rest ih => exact sent_bind (inside item) fun _ => ih

end Svc

end ReadCommitted

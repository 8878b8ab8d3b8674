import ReceiptScanner.ReadCommitted.Follow
import ReceiptScanner.ReadCommitted.Footprint

/-!
# Operations that commit all or nothing

An operation with one transaction goes through stages: nothing is open, the transaction has
no writes yet, it has some, it can only be rolled back, it is committed. `Prog.Tracks` checks
on the text of a program, whatever it is answered, at which stages it ends. COMMIT is the
default, so an exit without ROLLBACK shows there. `Config.Leads.tracked` concludes what the
process has committed in any run, and that nothing it ever wrote is missing.
-/

namespace ReadCommitted

variable {σ : Signature} {X : Interface} {α β : Type}

/-- A statement that only reads. -/
def Stmt.Silent (stmt : Stmt σ β) : Prop := ∀ ctx, (stmt ctx).writes = []

/-- How far a process has come with its transaction. -/
inductive Stage where
  | idle
  | clean
  | dirty
  | dead
  | settled
deriving DecidableEq, Repr

namespace Stage

/-- The stage after a statement of the transaction was refused. -/
def failed : Stage → Stage
  | .idle => .idle
  | .clean => .dead
  | .dirty => .dead
  | .dead => .dead
  | .settled => .settled

/-- The stage after COMMIT. -/
def committed : Stage → Stage
  | .idle => .idle
  | .clean => .idle
  | .dirty => .settled
  | .dead => .dead
  | .settled => .settled

/-- The stage after ROLLBACK. -/
def rolledBack : Stage → Stage
  | .idle => .idle
  | .clean => .idle
  | .dirty => .dead
  | .dead => .dead
  | .settled => .settled

/-- The stages before and after a statement of the transaction that finishes. -/
inductive Passes (stmt : Stmt σ β) : Stage → Stage → Prop where
  | read (silent : stmt.Silent) : Passes stmt .clean .clean
  | write : Passes stmt .clean .dirty
  | more : Passes stmt .dirty .dirty

/-- The stage shows in the transaction and in the commits of the process. `past` is what
it had once written: as long as it may commit, nothing of that is lost. -/
def Fits (past : List (Write σ)) (own : Local σ X) (done : History σ X) : Stage → Prop
  | .idle => own.txn = none ∧ done = [] ∧ past = []
  | .clean => (∃ txn, own.txn = some txn ∧ txn.writes = []) ∧ done = [] ∧ past = []
  | .dirty => (∃ txn, own.txn = some txn ∧ txn.aborted = false ∧ past <+: txn.writes) ∧ done = []
  | .dead => (∀ txn, own.txn = some txn → txn.aborted = true) ∧ done = []
  | .settled => own.txn = none ∧
      (done = [] ∧ past = [] ∨ ∃ commit, done = [commit] ∧ past <+: commit.writes)

end Stage

/-- Whatever it is answered, the program that is at this stage ends as it should. -/
def Prog.Tracks (ends : α → Stage → Prop) : Prog σ X α → Stage → Prop
  | .done value, stage => ends value stage
  | .exec inTxn stmt next, stage =>
      if inTxn then
        (∀ failure, (next (.error failure)).Tracks ends stage.failed) ∧
          ∃ after, stage.Passes stmt after ∧ ∀ value, (next (.ok value)).Tracks ends after
      else stmt.Silent ∧ ∀ reply, (next reply).Tracks ends stage
  | .beginTxn next, stage => stage = .idle ∧
      (∀ failure, (next (.error failure)).Tracks ends .idle) ∧ (next (.ok ())).Tracks ends .clean
  | .commit next, stage => next.Tracks ends stage.committed
  | .rollback next, stage => next.Tracks ends stage.rolledBack
  | .call _ next, stage => ∀ reply, (next reply).Tracks ends stage

namespace Prog

variable {ends ends' : α → Stage → Prop} {stage : Stage}

theorem Tracks.mono {prog : Prog σ X α} (tracks : prog.Tracks ends stage)
    (implies : ∀ value stage, ends value stage → ends' value stage) : prog.Tracks ends' stage := by
  induction prog generalizing stage with
  | done value => exact implies _ _ tracks
  | exec inTxn stmt next ih =>
      cases inTxn with
      | true =>
          obtain ⟨failing, after, passes, finishing⟩ := tracks
          exact ⟨fun failure => ih _ (failing failure), after, passes,
            fun value => ih _ (finishing value)⟩
      | false => exact ⟨tracks.1, fun reply => ih reply (tracks.2 reply)⟩
  | beginTxn next ih =>
      exact ⟨tracks.1, fun failure => ih _ (tracks.2.1 failure), ih _ tracks.2.2⟩
  | commit next ih => exact ih tracks
  | rollback next ih => exact ih tracks
  | call c next ih => exact fun reply => ih reply (tracks reply)

theorem tracks_bind {ends : β → Stage → Prop} {prog : Prog σ X α} {rest : α → Prog σ X β}
    (tracks : prog.Tracks (fun value => (rest value).Tracks ends) stage) :
    (prog.bind rest).Tracks ends stage := by
  induction prog generalizing stage with
  | done value => exact tracks
  | exec inTxn stmt next ih =>
      cases inTxn with
      | true =>
          obtain ⟨failing, after, passes, finishing⟩ := tracks
          exact ⟨fun failure => ih _ (failing failure), after, passes,
            fun value => ih _ (finishing value)⟩
      | false => exact ⟨tracks.1, fun reply => ih reply (tracks.2 reply)⟩
  | beginTxn next ih =>
      exact ⟨tracks.1, fun failure => ih _ (tracks.2.1 failure), ih _ tracks.2.2⟩
  | commit next ih => exact ih tracks
  | rollback next ih => exact ih tracks
  | call c next ih => exact fun reply => ih reply (tracks reply)

end Prog

/-- At such a stage nothing is committed, and nothing will be. -/
def Stage.Undone (stage : Stage) : Prop := stage = .idle ∨ stage = .dead

namespace Svc

variable {ε : Type}

/-- The task ends at these stages, whether it returns or raises. -/
def Tracks (post : α → Stage → Prop) (raised : ε → Stage → Prop) (task : Svc σ X ε α)
    (stage : Stage) : Prop :=
  Prog.Tracks (fun result stage => match result with
    | .ok value => post value stage
    | .error exception => raised exception stage) task.run stage

/-- The task comes back to the stage it began at, or a statement of its was refused. -/
def Steady (stage : Stage) (task : Svc σ X ε α) : Prop :=
  task.Tracks (fun _ after => after = stage) (fun _ after => after = stage ∨ after = stage.failed)
    stage

/-- The task raises only when nothing is committed and nothing will be. A result that is not
`good` is a failure too; of a good one no write is missing. -/
def Atomic (good : α → Bool) (task : Svc σ X ε α) : Prop :=
  task.Tracks (fun value stage => if good value then stage = .idle ∨ stage = .settled
    else stage.Undone) (fun _ stage => stage.Undone) .idle

variable {post post' : α → Stage → Prop} {raised raised' : ε → Stage → Prop} {stage : Stage}

theorem Tracks.mono {task : Svc σ X ε α} (tracks : task.Tracks post raised stage)
    (returns : ∀ value stage, post value stage → post' value stage)
    (raises : ∀ exception stage, raised exception stage → raised' exception stage) :
    task.Tracks post' raised' stage :=
  Prog.Tracks.mono tracks fun result stage holds => match result with
    | .ok value => returns value stage holds
    | .error exception => raises exception stage holds

theorem tracks_pure {value : α} (holds : post value stage) :
    (pure value : Svc σ X ε α).Tracks post raised stage := holds

theorem tracks_throw {exception : ε} (holds : raised exception stage) :
    (throw exception : Svc σ X ε α).Tracks post raised stage := holds

theorem tracks_bind {first : Svc σ X ε β} {rest : β → Svc σ X ε α}
    (tracks : first.Tracks (fun value => (rest value).Tracks post raised) raised stage) :
    (first >>= rest).Tracks post raised stage := by
  refine Prog.tracks_bind (Prog.Tracks.mono tracks fun result stage => ?_)
  cases result with
  | ok value => exact id
  | error exception => exact id

theorem tracks_tryCatch {body : Svc σ X ε α} {handler : ε → Svc σ X ε α}
    (tracks : body.Tracks post (fun exception => (handler exception).Tracks post raised) stage) :
    (tryCatch body handler).Tracks post raised stage := by
  refine Prog.tracks_bind (Prog.Tracks.mono tracks fun result stage => ?_)
  cases result with
  | ok value => exact id
  | error exception => exact id

/-- A statement of the transaction. -/
theorem tracks_exec {raise : SqlFailure → ε} {stmt : Stmt σ α} {after : Stage}
    (passes : stage.Passes stmt after) (returns : ∀ value, post value after)
    (refused : ∀ failure, raised (raise failure) stage.failed) :
    (exec raise true stmt : Svc σ X ε α).Tracks post raised stage :=
  ⟨refused, after, passes, returns⟩

theorem tracks_rollback {post : Unit → Stage → Prop} (holds : post () stage.rolledBack) :
    (rollback : Svc σ X ε Unit).Tracks post raised stage := holds

theorem tracks_rollingBack {body : Svc σ X ε α}
    (tracks : body.Tracks post (fun exception stage => raised exception stage.rolledBack) stage) :
    (rollingBack body).Tracks post raised stage :=
  tracks_tryCatch (tracks.mono (fun _ _ => id) fun _ _ holds =>
    tracks_bind (tracks_rollback (tracks_throw holds)))

/-- The scope of a transaction commits whatever its body leaves. -/
theorem tracks_transaction {raise : SqlFailure → ε} {body : Svc σ X ε α}
    (tracks : body.Tracks (fun value stage => post value stage.committed)
      (fun exception stage => raised exception stage.committed) .clean)
    (refused : ∀ failure, raised (raise failure) .idle) :
    (transaction raise body).Tracks post raised .idle := by
  refine ⟨rfl, refused, Prog.tracks_bind (Prog.Tracks.mono tracks fun result stage => ?_)⟩
  cases result with
  | ok value => exact id
  | error exception => exact id

theorem steady_pure (value : α) : Steady stage (pure value : Svc σ X ε α) := tracks_pure rfl

theorem steady_throw (exception : ε) : Steady stage (throw exception : Svc σ X ε α) :=
  tracks_throw (Or.inl rfl)

/-- What follows a task that comes back to its stage begins there. -/
theorem Steady.bind {first : Svc σ X ε β} {rest : β → Svc σ X ε α} (steady : Steady stage first)
    (raises : ∀ exception after, after = stage ∨ after = stage.failed → raised exception after)
    (next : ∀ value, (rest value).Tracks post raised stage) :
    (first >>= rest).Tracks post raised stage :=
  tracks_bind (Tracks.mono steady (fun value _ same => same ▸ next value) raises)

theorem steady_bind {first : Svc σ X ε β} {rest : β → Svc σ X ε α} (before : Steady stage first)
    (after : ∀ value, Steady stage (rest value)) : Steady stage (first >>= rest) :=
  before.bind (fun _ _ => id) after

theorem steady_exec {raise : SqlFailure → ε} {stmt : Stmt σ α} (passes : stage.Passes stmt stage) :
    Steady stage (exec raise true stmt : Svc σ X ε α) :=
  tracks_exec passes (fun _ => rfl) fun _ => Or.inr rfl

/-- A statement on the plain client, if it only reads. -/
theorem steady_read {raise : SqlFailure → ε} {stmt : Stmt σ α} (silent : stmt.Silent) :
    Steady stage (exec raise false stmt : Svc σ X ε α) := by
  refine ⟨silent, fun reply => ?_⟩
  cases reply with
  | ok value => exact rfl
  | error failure => exact Or.inl rfl

theorem steady_call {c : X.Call} {read : X.Reply c → Except ε α} :
    Steady (σ := σ) stage (call c read) := by
  intro reply
  change (match read reply with
    | .ok _ => stage = stage
    | .error _ => stage = stage ∨ stage = stage.failed)
  cases read reply with
  | ok value => exact rfl
  | error exception => exact Or.inl rfl

theorem steady_forM {round : β → Svc σ X ε PUnit} (items : List β)
    (steady : ∀ item, Steady stage (round item)) : Steady stage (items.forM round) := by
  induction items with
  | nil => exact steady_pure _
  | cons item rest ih => exact steady_bind (steady item) fun _ => ih

theorem steady_forM_option {round : β → Svc σ X ε PUnit} (item : Option β)
    (steady : ∀ item, Steady stage (round item)) : Steady stage (item.forM round) := by
  cases item with
  | none => exact steady_pure _
  | some item => exact steady item

theorem steady_mapM {round : β → Svc σ X ε α} (items : List β)
    (steady : ∀ item, Steady stage (round item)) : Steady stage (items.mapM round) := by
  induction items with
  | nil =>
      rw [List.mapM_nil]
      exact steady_pure _
  | cons item rest ih =>
      rw [List.mapM_cons]
      exact steady_bind (steady item) fun _ => steady_bind ih fun _ => steady_pure _

/-- Before the transaction. -/
theorem Steady.atomic {good : α → Bool} {first : Svc σ X ε β} {rest : β → Svc σ X ε α}
    (steady : Steady .idle first) (next : ∀ value, Atomic good (rest value)) :
    Atomic good (first >>= rest) := by
  refine steady.bind (fun _ after which => ?_) next
  rcases which with rfl | rfl <;> exact Or.inl rfl

/-- The body of a transaction leaves what is to be committed, when its result is good. When
it raises, there is still time to roll back. -/
def Body (good : α → Bool) (body : Svc σ X ε α) (stage : Stage) : Prop :=
  body.Tracks (fun value stage => if good value then stage ≠ .dead else stage.committed.Undone)
    (fun _ stage => stage ≠ .settled) stage

variable {good : α → Bool}

/-- A part of the body that changes nothing about the transaction. -/
theorem Steady.body {first : Svc σ X ε β} {rest : β → Svc σ X ε α} (steady : Steady stage first)
    (open_ : stage ≠ .settled) (next : ∀ value, Body good (rest value) stage) :
    Body good (first >>= rest) stage := by
  refine steady.bind (fun _ after which => ?_) next
  rcases which with rfl | rfl
  · exact open_
  · cases stage <;> simp_all [Stage.failed]

/-- The last part of the body. -/
theorem Steady.ends {body : Svc σ X ε α} (steady : Steady stage body) (open_ : stage ≠ .settled)
    (alive : stage ≠ .dead) (always : ∀ value, good value = true) : Body good body stage := by
  refine Tracks.mono steady (fun value after same => ?_) fun _ after which => ?_
  · rw [always value, same]
    exact alive
  · rcases which with rfl | rfl
    · exact open_
    · cases stage <;> simp_all [Stage.failed]

/-- A statement of the body. -/
theorem body_exec {raise : SqlFailure → ε} {stmt : Stmt σ β} {rest : β → Svc σ X ε α}
    {after : Stage} (passes : stage.Passes stmt after)
    (next : ∀ value, Body good (rest value) after) :
    Body good (exec raise true stmt >>= rest) stage := by
  refine tracks_bind (tracks_exec passes next fun _ => ?_)
  cases passes <;> decide

/-- Exceptions of a body that is rolled back leave nothing to commit. -/
theorem Body.rollingBack {body : Svc σ X ε α} (tracks : Body good body stage) :
    (rollingBack body).Tracks (fun value stage => if good value then stage ≠ .dead
      else stage.committed.Undone) (fun _ stage => stage.Undone) stage := by
  refine tracks_rollingBack (tracks.mono (fun _ _ => id) fun _ stage open_ => ?_)
  cases stage with
  | idle => exact Or.inl rfl
  | clean => exact Or.inl rfl
  | dirty => exact Or.inr rfl
  | dead => exact Or.inr rfl
  | settled => exact absurd rfl open_

/-- The exception that the caller sees may be another one. -/
theorem tracks_rethrow {body : Svc σ X ε α} {handler : ε → Svc σ X ε α} {ending : Stage → Prop}
    (rethrows : ∀ exception, ∃ other, handler exception = throw other)
    (tracks : body.Tracks post (fun _ => ending) stage) :
    (tryCatch body handler).Tracks post (fun _ => ending) stage := by
  refine tracks_tryCatch (tracks.mono (fun _ _ => id) fun exception after holds => ?_)
  obtain ⟨other, isThrow⟩ := rethrows exception
  rw [isThrow]
  exact tracks_throw holds

/-- A transaction whose body leaves nothing to commit when it raises. -/
theorem atomic_transaction {raise : SqlFailure → ε} {body : Svc σ X ε α}
    (tracks : body.Tracks (fun value stage => if good value then stage ≠ .dead
      else stage.committed.Undone) (fun _ stage => stage.Undone) .clean) :
    Atomic good (transaction raise body) := by
  refine tracks_transaction (tracks.mono (fun value stage => ?_) fun _ stage undone => ?_)
    fun _ => Or.inl rfl
  · cases good value <;> cases stage <;> simp [Stage.committed]
  · rcases undone with rfl | rfl
    · exact Or.inl rfl
    · exact Or.inr rfl

end Svc

namespace Stage.Fits

variable {past : List (Write σ)} {own : Local σ X} {done : History σ X} {stage : Stage}

/-- What is written now is kept from now on, too. -/
theorem now (fits : stage.Fits past own done) : stage.Fits own.writes own done := by
  cases stage with
  | idle =>
      obtain ⟨closed, none, -⟩ := fits
      exact ⟨closed, none, by simp [Local.writes, closed]⟩
  | clean =>
      obtain ⟨⟨txn, atTxn, silent⟩, none, -⟩ := fits
      exact ⟨⟨txn, atTxn, silent⟩, none, by simp [Local.writes, atTxn, silent]⟩
  | dirty =>
      obtain ⟨⟨txn, atTxn, alive, -⟩, none⟩ := fits
      exact ⟨⟨txn, atTxn, alive, by simp [Local.writes, atTxn]⟩, none⟩
  | dead => exact fits
  | settled =>
      obtain ⟨closed, which⟩ := fits
      have nothing : own.writes = [] := by simp [Local.writes, closed]
      rw [nothing]
      rcases which with ⟨none, -⟩ | ⟨commit, one, -⟩
      · exact ⟨closed, Or.inl ⟨none, rfl⟩⟩
      · exact ⟨closed, Or.inr ⟨commit, one, List.nil_prefix⟩⟩

theorem called (fits : stage.Fits past own done) (said : Said X) :
    stage.Fits past (own.called said) done := by
  cases stage <;> exact fits

theorem fail (fits : stage.Fits past own done) : stage.failed.Fits past (own.fail true) done := by
  have aborted : ∀ txn, (own.fail true).txn = some txn → txn.aborted = true := by
    intro txn atTxn
    obtain ⟨before, -, rfl⟩ := Option.map_eq_some_iff.mp atTxn
    rfl
  have stays : own.txn = none → (own.fail true).txn = none := fun closed => by
    simp [Local.fail, closed]
  cases stage with
  | idle => exact ⟨stays fits.1, fits.2⟩
  | clean => exact ⟨aborted, fits.2.1⟩
  | dirty => exact ⟨aborted, fits.2⟩
  | dead => exact ⟨aborted, fits.2⟩
  | settled => exact ⟨stays fits.1, fits.2⟩

theorem drop (fits : stage.Fits past own done) : stage.rolledBack.Fits past own.drop done := by
  cases stage with
  | idle => exact ⟨rfl, fits.2⟩
  | clean => exact ⟨rfl, fits.2⟩
  | dirty => exact ⟨fun txn open_ => by simp at open_, fits.2⟩
  | dead => exact ⟨fun txn open_ => by simp at open_, fits.2⟩
  | settled => exact ⟨rfl, fits.2⟩

theorem beginTxn (fits : Stage.idle.Fits past own done) (world : World σ X) :
    Stage.clean.Fits past (own.beginTxn world) done :=
  ⟨⟨_, rfl, rfl⟩, fits.2⟩

theorem extend {stmt : Stmt σ β} {after : Stage} (fits : stage.Fits past own done)
    (passes : stage.Passes stmt after) {txn : Txn σ} (atTxn : own.txn = some txn)
    (alive : txn.aborted = false) (ctx : Ctx σ) (locks : List (Lock σ)) (span : ℕ × ℕ) :
    after.Fits past (own.extend txn (stmt ctx) locks span) done := by
  cases passes with
  | read silent =>
      obtain ⟨⟨other, atOther, nothing⟩, rest⟩ := fits
      obtain rfl := Option.some.inj (atTxn.symm.trans atOther)
      exact ⟨⟨_, rfl, by simp [nothing, silent ctx]⟩, rest⟩
  | write =>
      obtain ⟨-, none, rfl⟩ := fits
      exact ⟨⟨_, rfl, alive, List.nil_prefix⟩, none⟩
  | more =>
      obtain ⟨⟨other, atOther, -, kept⟩, none⟩ := fits
      obtain rfl := Option.some.inj (atTxn.symm.trans atOther)
      exact ⟨⟨_, rfl, alive, kept.trans (List.prefix_append _ _)⟩, none⟩

/-- COMMIT adds what was written, all of it, unless it can only roll back. -/
theorem commit {world : World σ X}
    (fits : stage.Fits past own (History.ofTid own.tid world.history)) :
    stage.committed.Fits past own.drop (History.ofTid own.tid (own.committed world).history) := by
  cases stage with
  | idle =>
      obtain ⟨closed, rest⟩ := fits
      exact ⟨rfl, by simpa [Local.committed, closed, World.tick] using rest⟩
  | clean =>
      obtain ⟨⟨txn, atTxn, silent⟩, rest⟩ := fits
      exact ⟨rfl, by simpa [Local.committed, atTxn, silent, World.tick] using rest⟩
  | dirty =>
      obtain ⟨⟨txn, atTxn, alive, kept⟩, none⟩ := fits
      refine ⟨rfl, ?_⟩
      by_cases silent : txn.writes = []
      · refine Or.inl ⟨by simpa [Local.committed, atTxn, silent, World.tick] using none, ?_⟩
        exact List.prefix_nil.mp (silent ▸ kept)
      · refine Or.inr ⟨own.commitOf txn world.clock, ?_, kept⟩
        have grown : (own.committed world).history =
            own.commitOf txn world.clock :: world.history := by
          simp [Local.committed, atTxn, alive, silent]
        have added := History.ofTid_cons_same (own.commitOf txn world.clock) world.history
        rw [grown]
        exact added.trans (congrArg _ none)
  | dead =>
      obtain ⟨doomed, none⟩ := fits
      refine ⟨fun txn open_ => by simp at open_, ?_⟩
      cases atTxn : own.txn with
      | none => simpa [Local.committed, atTxn, World.tick] using none
      | some txn => simpa [Local.committed, atTxn, doomed txn atTxn, World.tick] using none
  | settled =>
      obtain ⟨closed, rest⟩ := fits
      exact ⟨rfl, by simpa [Local.committed, closed, World.tick] using rest⟩

/-- At any stage there is at most one commit. -/
theorem length_le (fits : stage.Fits past own done) : done.length ≤ 1 := by
  cases stage with
  | idle => simp [fits.2.1]
  | clean => simp [fits.2.1]
  | dirty => simp [fits.2]
  | dead => simp [fits.2]
  | settled =>
      rcases fits.2 with ⟨rfl, -⟩ | ⟨commit, rfl, -⟩
      · simp
      · simp

end Stage.Fits

/-- From where it stands, at this stage, the process ends as it should. -/
def Proc.At {Job : Type} (ends : Ending X Job → Stage → Prop) (proc : Proc σ X Job)
    (stage : Stage) : Prop :=
  match proc.life with
  | .running prog _ => prog.Tracks ends stage
  | .ended answer => ∃ jobs, ends (answer, jobs) stage
  | .crashed => stage ≠ .clean ∧ stage ≠ .dirty

/-- The process is at a stage that shows in what it has committed. -/
def Proc.Tracked {Job : Type} (ends : Ending X Job → Stage → Prop) (past : List (Write σ))
    (proc : Proc σ X Job) (history : History σ X) : Prop :=
  ∃ stage, proc.At ends stage ∧ stage.Fits past proc.own (History.ofTid proc.own.tid history)

section Runs

variable {system : System σ X} {config next before after : Config σ X system.Job} {tid : ℕ}
  {proc : Proc σ X system.Job} {ends : Ending X system.Job → Stage → Prop}
  {past : List (Write σ)}

/-- A turn of a process takes it from one stage to the next. -/
theorem Proc.Tracked.turn (tracked : proc.Tracked ends past config.world.history)
    {own : Local σ X} {life : Life σ X system.Job} {world : World σ X} {jobs : List system.Job}
    (turn : Config.Turn system config tid proc own life world jobs) :
    ({ proc with own := own, life := life } : Proc σ X system.Job).Tracked ends past
      world.history := by
  obtain ⟨stage, at_, fits⟩ := tracked
  cases turn with
  | start here =>
      simp only [Proc.At, here] at at_
      exact ⟨stage, at_, fits⟩
  | finish here finished =>
      rename_i inTxn stmt rest flight reply
      simp only [Proc.At, here] at at_
      cases inTxn with
      | true =>
          obtain ⟨failing, later, passes, finishing⟩ := at_
          rcases finish_cases finished with ⟨failure, rfl, rfl, rfl⟩ |
            ⟨outcome, locks, rfl, -, rfl, ⟨-, txn, atTxn, alive, rfl, rfl⟩ | ⟨impossible, -⟩⟩
          · exact ⟨stage.failed, failing failure, (proc.own.tid_fail true).symm ▸ fits.fail⟩
          · exact ⟨later, finishing _, fits.extend passes atTxn alive _ _ _⟩
          · exact absurd impossible (by decide)
      | false =>
          obtain ⟨silent, replied⟩ := at_
          rcases finish_cases finished with ⟨failure, rfl, rfl, rfl⟩ |
            ⟨outcome, locks, rfl, -, rfl, ⟨impossible, -⟩ | ⟨-, rfl, ⟨-, rfl⟩ | ⟨written, -⟩⟩⟩
          · exact ⟨stage, replied _, fits⟩
          · exact absurd impossible (by decide)
          · exact ⟨stage, replied _, fits⟩
          · exact absurd (silent _) written
  | failExec here =>
      rename_i inTxn stmt rest flight failure
      simp only [Proc.At, here] at at_
      cases inTxn with
      | true => exact ⟨stage.failed, at_.1 failure, (proc.own.tid_fail true).symm ▸ fits.fail⟩
      | false => exact ⟨stage, at_.2 _, fits⟩
  | failBegin here =>
      simp only [Proc.At, here] at at_
      obtain ⟨rfl, refused, -⟩ := at_
      exact ⟨.idle, refused _, fits⟩
  | done here =>
      simp only [Proc.At, here] at at_
      exact ⟨stage, ⟨_, at_⟩, fits⟩
  | beginTxn here =>
      simp only [Proc.At, here] at at_
      obtain ⟨rfl, -, begun⟩ := at_
      exact ⟨.clean, begun, fits.beginTxn _⟩
  | commit here =>
      simp only [Proc.At, here] at at_
      exact ⟨stage.committed, at_, fits.commit⟩
  | rollback here =>
      simp only [Proc.At, here] at at_
      exact ⟨stage.rolledBack, at_, fits.drop⟩
  | call reply here =>
      simp only [Proc.At, here] at at_
      exact ⟨stage, at_ reply, fits.called _⟩
  | crash => exact ⟨stage.rolledBack, by cases stage <;> exact ⟨by decide, by decide⟩, fits.drop⟩

/-- A guarantee that asks for nothing. -/
def Guarantee.anything : Guarantee σ X where
  commits _ _ := True
  calls _ _ _ _ := True

/-- The footprint of any program. -/
def Footprint.anything : Footprint σ X := ⟨fun _ => True, fun _ => True⟩

theorem Prog.within_anything {α : Type} (prog : Prog σ X α) : prog.Within Footprint.anything :=
  prog.within_all (fun _ => trivial) fun _ => trivial

theorem keeps_anything (system : System σ X) (jobs : ℕ → Option system.Job) :
    Keeps system Guarantee.anything (Terms.free jobs) :=
  Keeps.of_free fun _ _ _ _ =>
    Prog.wp_of_silent (Prog.within_anything _) (fun _ _ => trivial) fun _ _ _ _ _ => trivial

theorem Config.Reachable.inv_anything (reachable : Config.Reachable system config) :
    config.Inv system Guarantee.anything (Terms.free config.jobs) :=
  (keeps_anything system config.jobs).inv reachable config.agrees_jobs

/-- A move leaves a process at its stage, or takes it to the next. -/
theorem Proc.Tracked.move (tracked : proc.Tracked ends past config.world.history)
    (reachable : Config.Reachable system config) (found : config.procs tid = some proc)
    {choice : Move X system.Job} (moved : Config.move system config choice = some next) :
    ∃ proc', next.procs tid = some proc' ∧ proc'.job = proc.job ∧
      proc'.Tracked ends past next.world.history := by
  have inv := reachable.inv_anything
  have named := inv.named tid proc found
  by_cases own : Config.actor choice = some tid
  · rcases Config.move_cases moved with ⟨none, -⟩ |
      ⟨other, q, own', life, world, jobs, acts, at_, turn, rfl⟩
    · exact absurd (own.symm.trans none) (by simp)
    · obtain rfl := Option.some.inj (own.symm.trans acts)
      obtain rfl := Option.some.inj (found.symm.trans at_)
      refine ⟨{ proc with own := own', life := life }, ?_, rfl, ?_⟩
      · rw [Config.procs_spawnAll jobs (by exact named.1)]
        exact Function.update_self _ _ _
      · rw [Config.world_spawnAll]
        exact tracked.turn turn
  · refine ⟨proc, Config.procs_move reachable.numbered found moved own, rfl, ?_⟩
    have same : History.ofTid proc.own.tid next.world.history =
        History.ofTid proc.own.tid config.world.history := by
      rcases (inv.advances moved).history with unchanged | ⟨commit, grown, acts, -⟩
      · rw [unchanged]
      · rw [grown, History.ofTid_cons_other]
        rintro equal
        exact own (named.2 ▸ equal ▸ acts)
    obtain ⟨stage, at_, fits⟩ := tracked
    exact ⟨stage, at_, same ▸ fits⟩

/-- Through a run, a process is always at some stage, and nothing it had once written is
missing. -/
theorem Proc.Tracked.follow (tracked : proc.Tracked ends past before.world.history)
    (reachable : Config.Reachable system before) (leads : Config.Leads system before after)
    (found : before.procs tid = some proc) :
    ∃ proc', after.procs tid = some proc' ∧ proc'.job = proc.job ∧
      proc'.Tracked ends past after.world.history := by
  induction leads with
  | refl => exact ⟨proc, found, rfl, tracked⟩
  | tail rest moved ih =>
      obtain ⟨choice, moved⟩ := moved
      obtain ⟨middle, there, same, still⟩ := ih
      obtain ⟨last, at_, sameJob, ended⟩ :=
        still.move (Config.Leads.reachable rest reachable) there moved
      exact ⟨last, at_, sameJob.trans same, ended⟩

theorem Config.Reachable.leads (reachable : Config.Reachable system config) :
    Config.Leads system (Config.initial system) config := by
  induction reachable with
  | initial => exact .refl
  | move _ choice moved ih => exact ih.tail ⟨choice, moved⟩

/-- Every process whose program tracks is at some stage from its start on, and whatever it
has written at one time is not missing later. -/
theorem Config.Leads.tracked {last : Proc σ X system.Job}
    (leads : Config.Leads system before after) (reachable : Config.Reachable system before)
    (found : before.procs tid = some proc) (there : after.procs tid = some last)
    (tracks : (system.prog proc.job).Tracks ends .idle) :
    last.Tracked ends proc.own.writes after.world.history := by
  obtain ⟨config, first, onwards, fresh, unused⟩ :=
    Config.Leads.spawned reachable.leads (keeps_anything system before.jobs) .initial
      before.agrees_jobs rfl found
  have begun : (Proc.fresh system tid proc.job).Tracked ends [] config.world.history :=
    ⟨.idle, tracks, rfl,
      List.filter_eq_nil_iff.mpr fun commit member => by simpa using! unused commit member, rfl⟩
  obtain ⟨_, at_, -, stage, stands, fits⟩ := begun.follow (first.reachable .initial) onwards fresh
  obtain rfl := Option.some.inj (found.symm.trans at_)
  have now : proc.Tracked ends proc.own.writes before.world.history := ⟨stage, stands, fits.now⟩
  obtain ⟨_, also, -, ended⟩ := now.follow reachable leads found
  obtain rfl := Option.some.inj (there.symm.trans also)
  exact ended

end Runs

end ReadCommitted

import Mathlib.Order.Monotone.Basic
import ReceiptScanner.ReadCommitted.Processes

/-!
# A program by itself

`Prog.alone` runs a program to its end while no other process has a transaction open:
every statement sees the database as the last one left it, and finds no lock in its way.
A `Script` says what the services answer, and how much time passes between the steps.
`Config.run_alone` shows that the scheduler has such a run.
-/

namespace ReadCommitted

variable {σ : Signature} {X : Interface}

/-- How long nothing happens from an instant on. -/
abbrev Pause := ℕ → ℕ

/-- The instant at which the next step is taken. -/
def Pause.instant (pause : Pause) (clock : ℕ) : ℕ := clock + pause clock

/-- What the clock shows after a step. -/
def Pause.past (pause : Pause) (clock : ℕ) : ℕ := pause.instant clock + 1

/-- More steps take longer. -/
theorem Pause.past_le (pause : Pause) (clock : ℕ) {few many : ℕ} (le : few ≤ many) :
    pause.past^[few] clock ≤ pause.past^[many] clock := by
  refine monotone_nat_of_le_succ (f := fun steps => pause.past^[steps] clock) (fun steps => ?_) le
  rw [Function.iterate_succ_apply']
  exact (Nat.le_add_right _ _).trans (Nat.le_succ _)

/-- Nothing happens for a while. -/
def World.paused (pause : Pause) (world : World σ X) : World σ X :=
  { world with clock := pause.instant world.clock }

/-- What a process meets that is by itself: the answers of the services, which may depend on its
calls so far, and the time that passes. -/
structure Script (X : Interface) where
  reply : List (Said X) → (c : X.Call) → X.Reply c
  pause : Pause := fun _ => 0

/-- All that a process by itself has to do with. -/
structure Solo (σ : Signature) (X : Interface) where
  own : Local σ X
  world : World σ X

section Finish

variable {schema : Schema σ} {β : Type} {stmt : Stmt σ β} {flight : Flight σ X}
  {self : Local σ X} {world : World σ X} {txn : Txn σ}

/-- What a statement on the plain client sees. -/
abbrev plainCtx (self : Local σ X) (flight : Flight σ X) (world : World σ X) : Ctx σ :=
  ctxOf self.drop flight world []

theorem finish_plain_error {failure : SqlFailure} (closed : self.txn = none)
    (settled : schema.settle [] [] world.history.db (stmt (plainCtx self flight world)) =
      .error failure) :
    finish schema [] [] false stmt flight self world = some (.error failure, self, world) := by
  have locks : self.locks = [] := by simp [Local.locks, closed]
  have writes : self.writes = [] := by simp [Local.writes, closed]
  have here : schema.settle [] [] (plainCtx self flight world).cur
      (stmt (plainCtx self flight world)) = .error failure := settled
  simp only [finish, Bool.not_false, Local.sender_true, Local.sender_false, List.nil_append,
    locks, writes, here]
  rfl

/-- The writes of a statement on the plain client are committed at once. -/
theorem finish_plain {locks : List (Lock σ)} (closed : self.txn = none)
    (settled : schema.settle [] [] world.history.db (stmt (plainCtx self flight world)) =
      .ok (some locks)) :
    ∃ history : History σ X,
      finish schema [] [] false stmt flight self world =
        some (.ok (stmt (plainCtx self flight world)).result, self,
          { world.pass (stmt (plainCtx self flight world)) with history := history }) ∧
      history.db = world.history.db.writes (stmt (plainCtx self flight world)).writes := by
  have noLocks : self.locks = [] := by simp [Local.locks, closed]
  have noWrites : self.writes = [] := by simp [Local.writes, closed]
  have here : schema.settle [] [] (plainCtx self flight world).cur
      (stmt (plainCtx self flight world)) = .ok (some locks) := settled
  simp only [finish, Bool.not_false, Local.sender_true, Local.sender_false, List.nil_append,
    noLocks, noWrites, here, Bool.false_eq_true, if_false]
  split
  · rename_i empty
    exact ⟨world.history, rfl, by rw [List.isEmpty_iff.mp empty, Db.writes_nil]⟩
  · exact ⟨_, rfl, rfl⟩

theorem finish_open_error {failure : SqlFailure}
    (settled : schema.settle [] [] (self.view world.history)
      (stmt (ctxOf self flight world [])) = .error failure) :
    finish schema [] [] true stmt flight self world =
      some (.error failure, self.fail true, world) := by
  have here : schema.settle [] [] (ctxOf self flight world []).cur
      (stmt (ctxOf self flight world [])) = .error failure := settled
  simp only [finish, Bool.not_true, Local.sender_true, Local.sender_false, List.nil_append,
    Local.locks_drop, Local.writes_drop, here]

/-- The writes of a statement on an open transaction are added to it. -/
theorem finish_open {locks : List (Lock σ)} (opened : self.txn = some txn)
    (live : txn.aborted = false)
    (settled : schema.settle [] [] (self.view world.history)
      (stmt (ctxOf self flight world [])) = .ok (some locks)) :
    finish schema [] [] true stmt flight self world =
      some (.ok (stmt (ctxOf self flight world [])).result,
        self.extend txn (stmt (ctxOf self flight world [])) locks (flight.span world),
        world.pass (stmt (ctxOf self flight world []))) := by
  have here : schema.settle [] [] (ctxOf self flight world []).cur
      (stmt (ctxOf self flight world [])) = .ok (some locks) := settled
  simp only [finish, Bool.not_true, Local.sender_true, Local.sender_false, List.nil_append,
    Local.locks_drop, Local.writes_drop, here, opened, live, Bool.false_eq_true, if_true, if_false]

/-- A statement of whose result only `f` is used. -/
def Stmt.map {γ : Type} (f : β → γ) (stmt : Stmt σ β) : Stmt σ γ := fun ctx =>
  { result := f (stmt ctx).result, locks := (stmt ctx).locks, writes := (stmt ctx).writes,
    ticks := (stmt ctx).ticks }

theorem finish_map {γ : Type} (f : β → γ) (others : List (Lock σ)) (pending : List (Write σ))
    (inTxn : Bool) :
    finish schema others pending inTxn (stmt.map f) flight self world =
      (finish schema others pending inTxn stmt flight self world).map fun finished =>
        (finished.1.map f, finished.2) := by
  let ctx := ctxOf (self.sender inTxn) flight world (others ++ (self.sender (!inTxn)).locks)
  have same : schema.settle (others ++ (self.sender (!inTxn)).locks)
        (pending ++ (self.sender (!inTxn)).writes) ctx.cur (stmt.map f ctx) =
      schema.settle (others ++ (self.sender (!inTxn)).locks)
        (pending ++ (self.sender (!inTxn)).writes) ctx.cur (stmt ctx) := rfl
  unfold finish
  dsimp only
  rw [same]
  cases schema.settle (others ++ (self.sender (!inTxn)).locks)
      (pending ++ (self.sender (!inTxn)).writes) ctx.cur (stmt ctx) with
  | error failure => rfl
  | ok settled =>
      cases settled with
      | none => rfl
      | some locks =>
          cases inTxn with
          | true =>
              cases opened : self.txn with
              | none => rfl
              | some txn => simp only [if_true]; split <;> rfl
          | false =>
              by_cases empty : (stmt ctx).writes.isEmpty = true
              · have empty' : (stmt.map f ctx).writes.isEmpty = true := empty
                simp only [Bool.false_eq_true, if_false, ctx] at empty empty' ⊢
                rw [if_pos empty, if_pos empty']
                rfl
              · have full : ¬ (stmt.map f ctx).writes.isEmpty = true := empty
                simp only [Bool.false_eq_true, if_false, ctx] at empty full ⊢
                rw [if_neg empty, if_neg full]
                rfl

end Finish

namespace Prog

variable {α β : Type}

section Alone

variable (schema : Schema σ) (script : Script X)

/-- The end of a run without other processes, and without failures but those that the
declared constraints cause; `none` when a statement would wait for its own process. -/
def alone : Prog σ X α → Solo σ X → Option (α × Solo σ X)
  | .done value, solo => some (value, solo)
  | .exec inTxn stmt next, solo =>
      let begun := solo.world.paused script.pause
      (finish schema [] [] inTxn stmt ⟨begun.history, begun.clock⟩ solo.own
        (begun.tick.paused script.pause)).bind fun finished =>
          (next finished.1).alone ⟨finished.2.1, finished.2.2⟩
  | .beginTxn next, solo =>
      let begun := solo.world.paused script.pause
      (next (.ok ())).alone ⟨solo.own.beginTxn begun, begun.tick⟩
  | .commit next, solo =>
      next.alone ⟨solo.own.drop, solo.own.committed (solo.world.paused script.pause)⟩
  | .rollback next, solo => next.alone ⟨solo.own.drop, solo.world⟩
  | .call c next, solo =>
      let reply := script.reply solo.own.calls c
      (next reply).alone ⟨solo.own.called ⟨c, reply⟩,
        { solo.world with env := X.perform c reply solo.world.env }⟩

end Alone

variable {schema : Schema σ} {script : Script X}

/-- A sequence runs its second part from where the first one ends. -/
theorem alone_bind (prog : Prog σ X α) (rest : α → Prog σ X β) (solo : Solo σ X) :
    (prog.bind rest).alone schema script solo =
      (prog.alone schema script solo).bind fun ended =>
        (rest ended.1).alone schema script ended.2 := by
  induction prog generalizing solo with
  | done value => rfl
  | exec inTxn stmt next ih =>
      simp only [bind, alone, Option.bind_assoc]
      congr 1
      funext finished
      exact ih finished.1 _
  | beginTxn next ih => exact ih (.ok ()) _
  | commit next ih => exact ih _
  | rollback next ih => exact ih _
  | call c next ih => exact ih _ _

theorem alone_bind_of {prog : Prog σ X α} {rest : α → Prog σ X β} {solo after : Solo σ X}
    {value : α} (ran : prog.alone schema script solo = some (value, after)) :
    (prog.bind rest).alone schema script solo = (rest value).alone schema script after := by
  rw [alone_bind, ran, Option.bind_some]

end Prog

/-- What is made of the value does not change what is done. -/
theorem Svc.alone_map {schema : Schema σ} {script : Script X} {ε α β : Type} {task : Svc σ X ε α}
    {result : Except ε α} {solo after : Solo σ X} (f : α → β)
    (ran : task.run.alone schema script solo = some (result, after)) :
    (f <$> task).run.alone schema script solo = some (result.map f, after) := by
  refine (Prog.alone_bind_of ran).trans ?_
  cases result <;> rfl

namespace Config

variable {system : System σ X} {config : Config σ X system.Job} {tid : ℕ}

/-- A run goes on from where its first part ends. -/
theorem run_append (first second : List (Move X system.Job)) :
    run system (first ++ second) config = (run system first config).bind (run system second) := by
  induction first generalizing config with
  | nil => rfl
  | cons choice rest ih =>
      simp only [List.cons_append, run, Option.bind_assoc]
      exact congrArg (Option.bind _) (funext fun next => ih)

/-- No other process has locked or written anything. -/
structure Quiet {Job : Type} (config : Config σ X Job) (tid : ℕ) : Prop where
  locks : config.otherLocks tid = []
  writes : config.otherWrites tid = []

theorem others_update {Job : Type} (config : Config σ X Job) (tid : ℕ) (proc : Proc σ X Job)
    (world : World σ X) : (config.update tid proc world).others tid = config.others tid := by
  simp only [others, update]
  refine List.filterMap_congr fun other member => ?_
  have differ : other ≠ tid := by simpa using (List.mem_filter.mp member).2
  exact Function.update_of_ne differ _ _

/-- The others stay quiet while the process takes its turns. -/
theorem Quiet.update {Job : Type} {config : Config σ X Job} (quiet : config.Quiet tid)
    (proc : Proc σ X Job) (world : World σ X) : (config.update tid proc world).Quiet tid :=
  ⟨by rw [otherLocks, others_update]; exact quiet.locks,
    by rw [otherWrites, others_update]; exact quiet.writes⟩

/-- The scheduler lets time pass. -/
theorem move_paused (config : Config σ X system.Job) (pause : Pause) :
    move system config (.wait (pause config.world.clock)) =
      some { config with world := config.world.paused pause } := rfl

/-- A move is made after a pause. -/
theorem run_paused (config : Config σ X system.Job) (pause : Pause)
    (choice : Move X system.Job) :
    run system [.wait (pause config.world.clock), choice] config =
      move system { config with world := config.world.paused pause } choice := by
  simp only [run, move_paused, Option.bind_some]
  exact Option.bind_fun_some _

/-- The process can go on to this ending, and leave this. -/
def GoesOn (system : System σ X) (config : Config σ X system.Job) (tid : ℕ) (job : system.Job)
    (ending : Ending X system.Job) (after : Solo σ X) : Prop :=
  ∃ moves next last, run system moves config = some next ∧ next.world = after.world ∧
    next.procs = Function.update config.procs tid (some last) ∧ next.tids = config.tids ∧
    last.job = job ∧ last.own = after.own ∧ last.life = .running (.done ending) none

/-- So it can before its last moves. -/
theorem GoesOn.moved {first : List (Move X system.Job)} {proc : Proc σ X system.Job}
    {world : World σ X} {job : system.Job} {ending : Ending X system.Job} {after : Solo σ X}
    (goesOn : GoesOn system (config.update tid proc world) tid job ending after)
    (moved : run system first config = some (config.update tid proc world)) :
    GoesOn system config tid job ending after := by
  obtain ⟨moves, next, last, ran, isWorld, procs, rest⟩ := goesOn
  refine ⟨first ++ moves, next, last, ?_, isWorld, ?_, rest⟩
  · rw [run_append, moved, Option.bind_some, ran]
  · simp only [procs, Config.update, Function.update_idem]

/-- A process that finds the others quiet can run to the end that `Prog.alone` tells. -/
theorem run_alone {prog : Prog σ X (Ending X system.Job)} {proc : Proc σ X system.Job}
    {script : Script X} {ending : Ending X system.Job} {after : Solo σ X}
    (found : config.procs tid = some proc) (runs : proc.life = .running prog none)
    (quiet : config.Quiet tid)
    (ran : prog.alone system.schema script ⟨proc.own, config.world⟩ = some (ending, after)) :
    GoesOn system config tid proc.job ending after := by
  induction prog generalizing config proc with
  | done value =>
      obtain ⟨rfl, rfl⟩ := Prod.mk.inj (Option.some.inj ran)
      refine ⟨[], config, proc, rfl, rfl, ?_, rfl, rfl, rfl, runs⟩
      rw [← found, Function.update_eq_self]
  | exec inTxn stmt next ih =>
      obtain ⟨⟨reply, own, world⟩, finished, ran⟩ := Option.bind_eq_some_iff.mp ran
      let rested := config.world.paused script.pause
      let flight : Flight σ X := ⟨rested.history, rested.clock⟩
      let waiting : Proc σ X system.Job := { proc with
        life := .running (.exec inTxn stmt next) (some flight) }
      let begun := config.update tid waiting rested.tick
      have starts : run system [.wait (script.pause config.world.clock), .start tid] config =
          some begun := by
        simp only [run_paused, move, found, Option.bind_some, startProc, runs]
        rfl
      let later : Config σ X system.Job := { begun with world := begun.world.paused script.pause }
      have waits : later.procs tid = some waiting := Function.update_self _ _ _
      have quietBegun : later.Quiet tid := quiet.update waiting _
      let answered : Proc σ X system.Job := { waiting with
        own := own, life := .running (next reply) none }
      have finishes : run system [.wait (script.pause begun.world.clock), .finish tid] begun =
          some (begun.update tid answered world) := by
        have here : finish system.schema [] [] inTxn stmt flight proc.own later.world =
          some (reply, own, world) := finished
        rw [run_paused]
        change move system later (.finish tid) = _
        simp only [move, waits, Option.bind_some, finishProc, quietBegun.locks, quietBegun.writes,
          waiting, here]
        rfl
      have there : (begun.update tid answered world).procs tid = some answered :=
        Function.update_self _ _ _
      have goesOn := ih reply there rfl (quietBegun.update answered world) ran
      exact (goesOn.moved finishes).moved starts
  | beginTxn next ih =>
      let rested := config.world.paused script.pause
      let opened : Proc σ X system.Job := { proc with
        own := proc.own.beginTxn rested, life := .running (next (.ok ())) none }
      have steps : run system [.wait (script.pause config.world.clock), .step tid] config =
          some (config.update tid opened rested.tick) := by
        simp only [run_paused, move, found, Option.bind_some, stepProc, runs]
        rfl
      have there : (config.update tid opened rested.tick).procs tid = some opened :=
        Function.update_self _ _ _
      exact (ih (.ok ()) there rfl (quiet.update opened _) ran).moved steps
  | commit next ih =>
      let rested := config.world.paused script.pause
      let closed : Proc σ X system.Job := { proc with
        own := proc.own.drop, life := .running next none }
      have steps : run system [.wait (script.pause config.world.clock), .step tid] config =
          some (config.update tid closed (proc.own.committed rested)) := by
        simp only [run_paused, move, found, Option.bind_some, stepProc, runs]
        rfl
      have there : (config.update tid closed (proc.own.committed rested)).procs tid = some closed :=
        Function.update_self _ _ _
      exact (ih there rfl (quiet.update closed _) ran).moved steps
  | rollback next ih =>
      let closed : Proc σ X system.Job := { proc with
        own := proc.own.drop, life := .running next none }
      have steps : run system [.step tid] config = some (config.update tid closed config.world) := by
        simp only [run, move, found, Option.bind_some, stepProc, runs]
        rfl
      have there : (config.update tid closed config.world).procs tid = some closed :=
        Function.update_self _ _ _
      exact (ih there rfl (quiet.update closed _) ran).moved steps
  | call c next ih =>
      let reply := script.reply proc.own.calls c
      let told : Proc σ X system.Job := { proc with
        own := proc.own.called ⟨c, reply⟩, life := .running (next reply) none }
      let answered := config.update tid told
        { config.world with env := X.perform c reply config.world.env }
      have replies : run system [.reply tid (script.reply proc.own.calls)] config =
          some answered := by
        simp only [run, move, found, Option.bind_some, replyProc, runs]
        rfl
      have there : answered.procs tid = some told := Function.update_self _ _ _
      exact (ih reply there rfl (quiet.update told _) ran).moved replies

/-- No transaction is open. -/
def Closed {Job : Type} (config : Config σ X Job) : Prop :=
  ∀ tid proc, config.procs tid = some proc → proc.own.txn = none

/-- A check of every process so far. -/
def closes {Job : Type} (config : Config σ X Job) : Bool :=
  (List.range config.tids).all fun tid => (config.procs tid).all fun proc => proc.own.txn.isNone

theorem closed_of_closes {Job : Type} {config : Config σ X Job} (numbered : config.Numbered)
    (closes : config.closes = true) : config.Closed := by
  intro tid proc found
  have none := List.all_eq_true.mp closes tid (List.mem_range.mpr (numbered tid proc found))
  simpa [found] using none

/-- The next process runs this job to its end, with this answer, while the others stay as they
are; and no transaction is open afterwards. -/
structure Runs (system : System σ X) (config : Config σ X system.Job) (job : system.Job)
    (answer : X.Answer) (next : Config σ X system.Job) : Prop where
  ran : ∃ moves, run system moves config = some next
  ended : ∃ proc, next.procs config.tids = some proc ∧ proc.job = job ∧ proc.life = .ended answer
  others : ∀ tid, tid ≠ config.tids → next.procs tid = config.procs tid
  tids : next.tids = config.tids + 1
  closed : next.Closed

/-- A job that is started while no transaction is open can run to its answer. -/
theorem runs_of_alone {job : system.Job} {script : Script X} {answer : X.Answer}
    {after : Solo σ X} (root : system.root job = true) (closed : config.Closed)
    (ran : (system.prog job).alone system.schema script ⟨{ tid := config.tids }, config.world⟩ =
      some ((answer, []), after)) (ends : after.own.txn = none) :
    ∃ next, Runs system config job answer next ∧ next.world = after.world := by
  let proc : Proc σ X system.Job :=
    { job := job, own := { tid := config.tids }, life := .running (system.prog job) none }
  let started := spawn system config job
  have spawns : move system config (.spawn job) = some started := if_pos root
  have found : started.procs config.tids = some proc := Function.update_self _ _ _
  have idle : ∀ other ∈ started.others config.tids, other.own.txn = none := by
    intro other member
    obtain ⟨tid, listed, there⟩ := List.mem_filterMap.mp member
    have differ : tid ≠ config.tids := by simpa using (List.mem_filter.mp listed).2
    have before : started.procs tid = config.procs tid := Function.update_of_ne differ _ _
    exact closed tid other (before ▸ there)
  have quiet : started.Quiet config.tids := by
    refine ⟨List.flatMap_eq_nil_iff.mpr ?_, List.flatMap_eq_nil_iff.mpr ?_⟩
    · exact fun other member => by simp [Local.locks, idle other member]
    · exact fun other member => by simp [Local.writes, idle other member]
  obtain ⟨moves, next, last, runs, world, procs, tids, isJob, own, life⟩ :=
    run_alone found rfl quiet ran
  have there : next.procs config.tids = some last := by rw [procs, Function.update_self]
  let told : Proc σ X system.Job := { last with life := .ended answer }
  let answered := next.update config.tids told next.world
  have steps : move system next (.step config.tids) = some answered := by
    simp only [move, there, Option.bind_some, stepProc, life]
    rfl
  have isTold : answered.procs config.tids = some told := Function.update_self _ _ _
  have others : ∀ tid, tid ≠ config.tids → answered.procs tid = config.procs tid := by
    intro tid differ
    simp only [answered, Config.update, procs, started, spawn, Function.update_of_ne differ]
  refine ⟨answered, ?_, world⟩
  exact {
    ran := by
      refine ⟨.spawn job :: (moves ++ [.step config.tids]), ?_⟩
      rw [run, spawns, Option.bind_some, run_append, runs, Option.bind_some, run, steps]
      rfl
    ended := ⟨told, isTold, isJob, rfl⟩
    others := others
    tids := tids
    closed := by
      intro tid other at_
      by_cases same : tid = config.tids
      · subst same
        obtain rfl := Option.some.inj (isTold.symm.trans at_)
        exact own ▸ ends
      · exact closed tid other (others tid same ▸ at_) }

/-- A job can be started later. -/
theorem Runs.later {job : system.Job} {answer : X.Answer} {next : Config σ X system.Job} {time : ℕ}
    (arrived : config.world.clock ≤ time)
    (runs : Runs system { config with world := { config.world with clock := time } } job answer next) :
    Runs system config job answer next := by
  obtain ⟨moves, ran⟩ := runs.ran
  refine { runs with ran := ⟨.wait (time - config.world.clock) :: moves, ?_⟩ }
  rw [run, move, Option.bind_some, Nat.add_sub_cancel' arrived]
  exact ran

/-- Jobs are run one after another, each by itself, with these answers. -/
inductive Serves (system : System σ X) :
    Config σ X system.Job → List (system.Job × X.Answer) → Config σ X system.Job → Prop where
  | none (config : Config σ X system.Job) : Serves system config [] config
  | next {config middle last : Config σ X system.Job} {job : system.Job} {answer : X.Answer}
      {rest : List (system.Job × X.Answer)} (first : Runs system config job answer middle)
      (later : Serves system middle rest last) : Serves system config ((job, answer) :: rest) last
  | wait {config last : Config σ X system.Job} {served : List (system.Job × X.Answer)} {time : ℕ}
      (arrived : config.world.clock ≤ time)
      (later : Serves system { config with world := { config.world with clock := time } } served
        last) : Serves system config served last

/-- They are run by moves of the scheduler. -/
theorem Serves.run {served : List (system.Job × X.Answer)} {last : Config σ X system.Job}
    (serves : Serves system config served last) :
    ∃ moves, Config.run system moves config = some last := by
  induction serves with
  | none config => exact ⟨[], rfl⟩
  | next first _ ih =>
      obtain ⟨moves, ran⟩ := first.ran
      obtain ⟨others, last⟩ := ih
      exact ⟨moves ++ others, by rw [run_append, ran, Option.bind_some, last]⟩
  | @wait config _ _ time arrived _ ih =>
      obtain ⟨moves, ran⟩ := ih
      refine ⟨.wait (time - config.world.clock) :: moves, ?_⟩
      rw [Config.run, move, Option.bind_some, Nat.add_sub_cancel' arrived]
      exact ran

end Config

end ReadCommitted

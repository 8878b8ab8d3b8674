import ReceiptScanner.ReadCommitted.Program
import Mathlib.Order.Lattice

/-!
# Many programs on one database

A `Config` is the committed history, the clock, the sequences and the outside
world, and every process that was ever started with the transaction it has open.
`Config.move` performs one move of the scheduler: start a job, let one process
take one step, let a statement or a service fail, kill a process, or let time
pass. A run is any list of moves.
-/

namespace ReadCommitted

variable {σ : Signature} {X : Interface}

/-- A committed transaction. `start` is its now(), `began` the number of commits
before it began, `stop` the instant of its COMMIT, `locks` the locks it held, and
`calls` the outside calls its process had made, latest first. `spans` has, for each
of its statements, the numbers of commits before it started and before it finished. -/
structure Commit (σ : Signature) (X : Interface) where
  tid : ℕ
  start : ℕ
  began : ℕ
  stop : ℕ
  writes : List (Write σ)
  locks : List (Lock σ)
  calls : List (Said X)
  spans : List (ℕ × ℕ)

/-- The commits so far, latest first. -/
abbrev History (σ : Signature) (X : Interface) := List (Commit σ X)

/-- The database that a history leaves. -/
def History.db (history : History σ X) : Db σ :=
  history.foldr (fun commit db => db.writes commit.writes) Db.empty

@[simp] theorem History.db_nil : History.db ([] : History σ X) = Db.empty := rfl

@[simp] theorem History.db_cons (commit : Commit σ X) (earlier : History σ X) :
    History.db (commit :: earlier) = (History.db earlier).writes commit.writes := rfl

/-- A check of every commit against the history before it. -/
def History.every (check : History σ X → Commit σ X → Bool) : History σ X → Bool
  | [] => true
  | commit :: earlier => check earlier commit && every check earlier

theorem History.every_iff {check : History σ X → Commit σ X → Bool} {history : History σ X} :
    history.every check = true ↔
      ∀ commit earlier, commit :: earlier <:+ history → check earlier commit = true := by
  induction history with
  | nil => simp [every]
  | cons commit earlier ih =>
      simp only [every, Bool.and_eq_true, ih, List.suffix_cons_iff]
      constructor
      · rintro ⟨now, before⟩ other prior (equal | inside)
        · obtain ⟨rfl, rfl⟩ := List.cons.inj equal
          exact now
        · exact before other prior inside
      · exact fun checked => ⟨checked commit earlier (Or.inl rfl),
          fun other prior inside => checked other prior (Or.inr inside)⟩

/-- An open transaction. -/
structure Txn (σ : Signature) where
  start : ℕ
  began : ℕ
  writes : List (Write σ) := []
  locks : List (Lock σ) := []
  spans : List (ℕ × ℕ) := []
  aborted : Bool := false

/-- What all processes share. -/
structure World (σ : Signature) (X : Interface) where
  history : History σ X
  clock : ℕ
  next : σ.Table → ℕ
  env : X.Env

/-- Let the clock advance by one reading. -/
def World.tick (world : World σ X) : World σ X := { world with clock := world.clock + 1 }

/-- What belongs to one process: its number, its open transaction, its calls. -/
structure Local (σ : Signature) (X : Interface) where
  tid : ℕ
  txn : Option (Txn σ) := none
  calls : List (Said X) := []

namespace Local

variable (self : Local σ X)

/-- The writes of the open transaction. -/
def writes : List (Write σ) :=
  match self.txn with
  | some txn => txn.writes
  | none => []

/-- The locks of the open transaction. -/
def locks : List (Lock σ) :=
  match self.txn with
  | some txn => txn.locks
  | none => []

/-- The database as the process sees it after `history`. -/
def view (history : History σ X) : Db σ := history.db.writes self.writes

/-- A statement failed: on a transaction, that aborts it. -/
def fail (inTxn : Bool) : Local σ X :=
  if inTxn then { self with txn := self.txn.map fun txn => { txn with aborted := true } }
  else self

/-- Begin a transaction. -/
def beginTxn (world : World σ X) : Local σ X :=
  { self with txn := some { start := world.clock, began := world.history.length } }

/-- Forget the open transaction. -/
def drop : Local σ X := { self with txn := none }

@[simp] theorem locks_drop : self.drop.locks = [] := rfl

@[simp] theorem writes_drop : self.drop.writes = [] := rfl

@[simp] theorem txn_drop : self.drop.txn = none := rfl

/-- Record an outside call. -/
def called (said : Said X) : Local σ X := { self with calls := said :: self.calls }

/-- The open transaction as a commit at `stop`. -/
def commitOf (txn : Txn σ) (stop : ℕ) : Commit σ X where
  tid := self.tid
  start := txn.start
  began := txn.began
  stop := stop
  writes := txn.writes
  locks := txn.locks
  calls := self.calls
  spans := txn.spans

/-- What COMMIT makes of the world. An aborted transaction is rolled back, and
one that wrote nothing leaves no trace. -/
def committed (world : World σ X) : World σ X :=
  match self.txn with
  | some txn =>
      if txn.aborted || txn.writes.isEmpty then world.tick
      else { world.tick with history := self.commitOf txn world.clock :: world.history }
  | none => world.tick

@[simp] theorem clock_committed (world : World σ X) :
    (self.committed world).clock = world.clock + 1 := by
  unfold committed
  split
  · split <;> rfl
  · rfl

@[simp] theorem next_committed (world : World σ X) :
    (self.committed world).next = world.next := by
  unfold committed
  split
  · split <;> rfl
  · rfl

/-- COMMIT leaves the history, or adds the open transaction to it. -/
theorem committed_cases (world : World σ X) :
    (self.committed world).history = world.history ∨ ∃ txn, self.txn = some txn ∧
      (self.committed world).history = self.commitOf txn world.clock :: world.history := by
  unfold committed
  split
  · rename_i txn atTxn
    split
    · exact Or.inl rfl
    · exact Or.inr ⟨txn, atTxn, rfl⟩
  · exact Or.inl rfl

end Local

/-- Advance each sequence past the ids that were written. -/
def advance (next : σ.Table → ℕ) (writes : List (Write σ)) : σ.Table → ℕ := fun table =>
  writes.foldl (fun bound write => if write.table = table then max bound (write.id + 1) else bound)
    (next table)

/-- Sequences never move back. -/
theorem le_advance (next : σ.Table → ℕ) (writes : List (Write σ)) (table : σ.Table) :
    next table ≤ advance next writes table := by
  unfold advance
  generalize next table = bound
  induction writes generalizing bound with
  | nil => exact Nat.le_refl _
  | cons write rest ih =>
      refine le_trans ?_ (ih _)
      dsimp only
      split <;> omega

/-- Sequences move past what was written. -/
theorem lt_advance {next : σ.Table → ℕ} {writes : List (Write σ)} {write : Write σ}
    (member : write ∈ writes) : write.id < advance next writes write.table := by
  induction writes generalizing next with
  | nil => simp at member
  | cons other rest ih =>
      have unfolded : ∀ table, advance next (other :: rest) table = advance (fun table =>
          if other.table = table then max (next table) (other.id + 1) else next table)
          rest table := fun _ => rfl
      rw [unfolded]
      rcases List.mem_cons.mp member with rfl | later
      · refine lt_of_lt_of_le ?_ (le_advance _ rest _)
        simp
      · exact ih later

/-- A statement under way: the history it has its snapshot of, and when it began. -/
structure Flight (σ : Signature) (X : Interface) where
  history : History σ X
  start : ℕ

/-- The session that carries a statement: the open transaction, or, for the
plain client, one of its own. `self.sender (!inTxn)` is the other of the two. -/
def Local.sender (self : Local σ X) (inTxn : Bool) : Local σ X :=
  if inTxn then self else self.drop

@[simp] theorem Local.sender_true (self : Local σ X) : self.sender true = self := rfl

@[simp] theorem Local.sender_false (self : Local σ X) : self.sender false = self.drop := rfl

/-- The context in which a statement of `session` finishes. -/
def ctxOf (session : Local σ X) (flight : Flight σ X) (world : World σ X)
    (others : List (Lock σ)) : Ctx σ where
  snap := session.view flight.history
  cur := session.view world.history
  now :=
    match session.txn with
    | some txn => txn.start
    | none => flight.start
  clock := world.clock
  next := world.next
  others := others

/-- The world after a statement: the clock and the sequences have moved. -/
def World.pass {β : Type} (world : World σ X) (outcome : Outcome σ β) : World σ X :=
  { world with
    clock := world.clock + outcome.ticks + 1
    next := advance world.next outcome.writes }

/-- A statement under way as a span, if it finishes now. -/
def Flight.span (flight : Flight σ X) (world : World σ X) : ℕ × ℕ :=
  (flight.history.length, world.history.length)

/-- The process after a statement on its open transaction. -/
def Local.extend {β : Type} (self : Local σ X) (txn : Txn σ) (outcome : Outcome σ β)
    (locks : List (Lock σ)) (span : ℕ × ℕ) : Local σ X :=
  { self with
    txn := some { txn with
      writes := txn.writes ++ outcome.writes
      locks := txn.locks ++ locks
      spans := txn.spans ++ [span] } }

/-- A statement on the plain client as a commit. -/
def Local.singleCommit {β : Type} (self : Local σ X) (flight : Flight σ X) (world : World σ X)
    (outcome : Outcome σ β) (locks : List (Lock σ)) : Commit σ X where
  tid := self.tid
  start := flight.start
  began := flight.history.length
  stop := world.clock + outcome.ticks
  writes := outcome.writes
  locks := locks
  calls := self.calls
  spans := [flight.span world]

/-- Finish a statement: `none` when it has to wait, or was sent on a transaction
that is not open any more. A statement on the plain client also waits for the
open transaction of its own process. -/
def finish {β : Type} (schema : Schema σ) (others : List (Lock σ)) (pending : List (Write σ))
    (inTxn : Bool) (stmt : Stmt σ β) (flight : Flight σ X) (self : Local σ X)
    (world : World σ X) : Option (Except SqlFailure β × Local σ X × World σ X) :=
  let others := others ++ (self.sender (!inTxn)).locks
  let pending := pending ++ (self.sender (!inTxn)).writes
  let ctx := ctxOf (self.sender inTxn) flight world others
  let outcome := stmt ctx
  match schema.settle others pending ctx.cur outcome with
  | .error failure => some (.error failure, self.fail inTxn, world)
  | .ok none => none
  | .ok (some locks) =>
      if inTxn then
        match self.txn with
        | none => none
        | some txn =>
            if txn.aborted then none
            else
              some (.ok outcome.result, self.extend txn outcome locks (flight.span world),
                world.pass outcome)
      else if outcome.writes.isEmpty then some (.ok outcome.result, self, world.pass outcome)
      else
        some (.ok outcome.result, self, { world.pass outcome with
          history := self.singleCommit flight world outcome locks :: world.history })

/-- Every way a statement finishes. -/
theorem finish_cases {β : Type} {schema : Schema σ} {others : List (Lock σ)}
    {pending : List (Write σ)} {inTxn : Bool} {stmt : Stmt σ β} {flight : Flight σ X}
    {self self' : Local σ X} {world world' : World σ X} {reply : Except SqlFailure β}
    (finished : finish schema others pending inTxn stmt flight self world =
      some (reply, self', world')) :
    (∃ failure, reply = .error failure ∧ self' = self.fail inTxn ∧ world' = world) ∨
    ∃ outcome locks,
      outcome = stmt (ctxOf (self.sender inTxn) flight world
        (others ++ (self.sender (!inTxn)).locks)) ∧
      schema.settle (others ++ (self.sender (!inTxn)).locks)
        (pending ++ (self.sender (!inTxn)).writes) ((self.sender inTxn).view world.history)
        outcome = .ok (some locks) ∧
      reply = .ok outcome.result ∧
      ((inTxn = true ∧ ∃ txn, self.txn = some txn ∧ txn.aborted = false ∧
          self' = self.extend txn outcome locks (flight.span world) ∧
          world' = world.pass outcome) ∨
        (inTxn = false ∧ self' = self ∧
          ((outcome.writes = [] ∧ world' = world.pass outcome) ∨
            (outcome.writes ≠ [] ∧ world' = { world.pass outcome with
              history := self.singleCommit flight world outcome locks :: world.history })))) := by
  simp only [finish] at finished
  split at finished
  · rename_i failure _
    simp only [Option.some.injEq, Prod.mk.injEq] at finished
    exact Or.inl ⟨failure, finished.1.symm, finished.2.1.symm, finished.2.2.symm⟩
  · cases finished
  · rename_i locks settled
    refine Or.inr ⟨_, locks, rfl, settled, ?_⟩
    cases inTxn with
    | true =>
        simp only [if_true] at finished
        split at finished
        · cases finished
        · rename_i txn atTxn
          split at finished
          · cases finished
          · rename_i live
            simp only [Option.some.injEq, Prod.mk.injEq] at finished
            exact ⟨finished.1.symm, Or.inl ⟨rfl, txn, atTxn, by simpa using live,
              finished.2.1.symm, finished.2.2.symm⟩⟩
    | false =>
        simp only [Bool.false_eq_true, if_false] at finished
        split at finished <;> rename_i written <;>
          simp only [Option.some.injEq, Prod.mk.injEq] at finished <;>
          refine ⟨finished.1.symm, Or.inr ⟨rfl, finished.2.1.symm, ?_⟩⟩
        · exact Or.inl ⟨List.isEmpty_iff.mp written, finished.2.2.symm⟩
        · exact Or.inr ⟨by simpa using written, finished.2.2.symm⟩

/-- What the program of a job ends with: its answer, and the jobs it leaves to run. -/
abbrev Ending (X : Interface) (Job : Type) := X.Answer × List Job

/-- A system: the jobs, which of them anyone may start, and the program of each. -/
structure System (σ : Signature) (X : Interface) where
  schema : Schema σ
  Job : Type
  root : Job → Bool
  prog : Job → Prog σ X (Ending X Job)
  env : X.Env

/-- What has become of a process. -/
inductive Life (σ : Signature) (X : Interface) (Job : Type) : Type 1 where
  | running (prog : Prog σ X (Ending X Job)) (flight : Option (Flight σ X))
  | ended (answer : X.Answer)
  | crashed

/-- A process. -/
structure Proc (σ : Signature) (X : Interface) (Job : Type) : Type 1 where
  job : Job
  own : Local σ X
  life : Life σ X Job

/-- The state of the whole system. -/
structure Config (σ : Signature) (X : Interface) (Job : Type) : Type 1 where
  world : World σ X
  procs : ℕ → Option (Proc σ X Job)
  tids : ℕ

/-- A move of the scheduler. -/
inductive Move (X : Interface) (Job : Type) where
  | spawn (job : Job)
  | start (tid : ℕ)
  | finish (tid : ℕ)
  | fail (tid : ℕ) (failure : SqlFailure)
  | step (tid : ℕ)
  | reply (tid : ℕ) (reply : (c : X.Call) → X.Reply c)
  | crash (tid : ℕ)
  | wait (ticks : ℕ)

namespace Config

variable {Job : Type}

/-- The processes other than `tid`. -/
def others (config : Config σ X Job) (tid : ℕ) : List (Proc σ X Job) :=
  ((List.range config.tids).filter (· ≠ tid)).filterMap config.procs

/-- The locks of the processes other than `tid`. -/
def otherLocks (config : Config σ X Job) (tid : ℕ) : List (Lock σ) :=
  (config.others tid).flatMap fun proc => proc.own.locks

/-- The uncommitted writes of the processes other than `tid`. -/
def otherWrites (config : Config σ X Job) (tid : ℕ) : List (Write σ) :=
  (config.others tid).flatMap fun proc => proc.own.writes

/-- Replace a process, and what is shared. -/
def update (config : Config σ X Job) (tid : ℕ) (proc : Proc σ X Job) (world : World σ X) :
    Config σ X Job :=
  { config with world := world, procs := Function.update config.procs tid (some proc) }

/-- Start one process. -/
def spawn (system : System σ X) (config : Config σ X system.Job) (job : system.Job) :
    Config σ X system.Job where
  world := config.world
  procs := Function.update config.procs config.tids
    (some { job := job, own := { tid := config.tids }, life := .running (system.prog job) none })
  tids := config.tids + 1

/-- The move of a process at a node that only it decides. -/
def stepProc (system : System σ X) (config : Config σ X system.Job) (tid : ℕ)
    (proc : Proc σ X system.Job) : Option (Config σ X system.Job) :=
  match proc.life with
  | .running (.done (answer, jobs)) none =>
      some (jobs.foldl (spawn system)
        (config.update tid { proc with life := .ended answer } config.world))
  | .running (.beginTxn next) none =>
      some (config.update tid
        { proc with
          own := proc.own.beginTxn config.world
          life := .running (next (.ok ())) none }
        config.world.tick)
  | .running (.commit next) none =>
      some (config.update tid { proc with own := proc.own.drop, life := .running next none }
        (proc.own.committed config.world))
  | .running (.rollback next) none =>
      some (config.update tid { proc with own := proc.own.drop, life := .running next none }
        config.world)
  | _ => none

/-- A statement takes its snapshot. -/
def startProc (config : Config σ X Job) (tid : ℕ) (proc : Proc σ X Job) :
    Option (Config σ X Job) :=
  match proc.life with
  | .running (.exec inTxn stmt next) none =>
      some (config.update tid
        { proc with
          life := .running (.exec inTxn stmt next)
            (some ⟨config.world.history, config.world.clock⟩) }
        config.world.tick)
  | _ => none

/-- A statement finishes. -/
def finishProc (schema : Schema σ) (config : Config σ X Job) (tid : ℕ) (proc : Proc σ X Job) :
    Option (Config σ X Job) :=
  match proc.life with
  | .running (.exec inTxn stmt next) (some flight) =>
      match ReadCommitted.finish schema (config.otherLocks tid) (config.otherWrites tid) inTxn stmt
          flight proc.own config.world with
      | none => none
      | some (reply, own, world) =>
          some (config.update tid
            { proc with own := own, life := .running (next reply) none } world)
  | _ => none

/-- A statement, or BEGIN, fails for a reason outside the model. -/
def failProc (config : Config σ X Job) (tid : ℕ) (proc : Proc σ X Job) (failure : SqlFailure) :
    Option (Config σ X Job) :=
  match proc.life with
  | .running (.exec inTxn _ next) _ =>
      some (config.update tid
        { proc with own := proc.own.fail inTxn, life := .running (next (.error failure)) none }
        config.world)
  | .running (.beginTxn next) none =>
      some (config.update tid { proc with life := .running (next (.error failure)) none }
        config.world)
  | _ => none

/-- An outside call is answered. -/
def replyProc (config : Config σ X Job) (tid : ℕ) (proc : Proc σ X Job)
    (reply : (c : X.Call) → X.Reply c) : Option (Config σ X Job) :=
  match proc.life with
  | .running (.call c next) none =>
      some (config.update tid
        { proc with own := proc.own.called ⟨c, reply c⟩, life := .running (next (reply c)) none }
        { config.world with env := X.perform c (reply c) config.world.env })
  | _ => none

/-- A process dies; the server rolls its transaction back. -/
def crashProc (config : Config σ X Job) (tid : ℕ) (proc : Proc σ X Job) :
    Option (Config σ X Job) :=
  match proc.life with
  | .running _ _ =>
      some (config.update tid { proc with own := proc.own.drop, life := .crashed } config.world)
  | _ => none

/-- One move, where it is possible. -/
def move (system : System σ X) (config : Config σ X system.Job) :
    Move X system.Job → Option (Config σ X system.Job)
  | .spawn job => if system.root job then some (spawn system config job) else none
  | .start tid => (config.procs tid).bind (startProc config tid)
  | .finish tid => (config.procs tid).bind (finishProc system.schema config tid)
  | .fail tid failure => (config.procs tid).bind (failProc config tid · failure)
  | .step tid => (config.procs tid).bind (stepProc system config tid)
  | .reply tid reply => (config.procs tid).bind (replyProc config tid · reply)
  | .crash tid => (config.procs tid).bind (crashProc config tid)
  | .wait ticks =>
      some { config with world := { config.world with clock := config.world.clock + ticks } }

/-- Before anything has run: an empty database and no process. -/
def initial (system : System σ X) : Config σ X system.Job where
  world := { history := [], clock := 0, next := fun _ => 1, env := system.env }
  procs _ := none
  tids := 0

/-- Perform moves in order. -/
def run (system : System σ X) : List (Move X system.Job) → Config σ X system.Job →
    Option (Config σ X system.Job)
  | [], config => some config
  | first :: rest, config => (move system config first).bind (run system rest)

/-- The states that a run of the system can reach. -/
inductive Reachable (system : System σ X) : Config σ X system.Job → Prop where
  | initial : Reachable system (initial system)
  | move {config next : Config σ X system.Job} (prior : Reachable system config)
      (choice : Move X system.Job) (moved : Config.move system config choice = some next) :
      Reachable system next

/-- Where a run ends is reachable from where it began. -/
theorem Reachable.run {system : System σ X} {config next : Config σ X system.Job}
    (reachable : Reachable system config) {moves : List (Move X system.Job)}
    (ran : Config.run system moves config = some next) : Reachable system next := by
  induction moves generalizing config with
  | nil =>
      obtain rfl := Option.some.inj ran
      exact reachable
  | cons first rest ih =>
      obtain ⟨middle, moved, ran⟩ := Option.bind_eq_some_iff.mp ran
      exact ih (.move reachable first moved) ran

/-- Where a run from the initial state ends, if each of its moves is possible. -/
def ran (system : System σ X) (moves : List (Move X system.Job))
    (possible : (run system moves (initial system)).isSome) : Config σ X system.Job :=
  (run system moves (initial system)).get possible

theorem reachable_ran {system : System σ X} {moves : List (Move X system.Job)}
    (possible : (run system moves (initial system)).isSome) :
    Reachable system (ran system moves possible) :=
  Reachable.initial.run (Option.some_get possible).symm

end Config

end ReadCommitted

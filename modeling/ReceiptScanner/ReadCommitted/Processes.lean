import ReceiptScanner.ReadCommitted.System

/-!
# The processes of a run

A process keeps its number and its job for as long as the run goes on. `Agrees` is
a table of the jobs, known in hindsight: what it says at the end of a run it has
said all along.
-/

namespace ReadCommitted

variable {σ : Signature} {X : Interface}

namespace Config

section Jobs

variable {Job : Type}

/-- Every process has a number that was given out. -/
def Numbered (config : Config σ X Job) : Prop :=
  ∀ tid proc, config.procs tid = some proc → tid < config.tids

/-- The table has the job of every process so far. -/
def Agrees (config : Config σ X Job) (jobs : ℕ → Option Job) : Prop :=
  ∀ tid proc, config.procs tid = some proc → jobs tid = some proc.job

/-- Every process is still there, with its job. -/
structure Continues (config next : Config σ X Job) : Prop where
  numbered : next.Numbered
  jobs : ∀ tid proc, config.procs tid = some proc →
    ∃ proc', next.procs tid = some proc' ∧ proc'.job = proc.job

/-- What the table says later it has said before. -/
theorem Continues.agrees {config next : Config σ X Job} (continues : Continues config next)
    {jobs : ℕ → Option Job} (agrees : next.Agrees jobs) : config.Agrees jobs := by
  intro tid proc found
  obtain ⟨proc', later, same⟩ := continues.jobs tid proc found
  rw [agrees tid proc' later, same]

theorem Continues.trans {first second third : Config σ X Job} (before : Continues first second)
    (after : Continues second third) : Continues first third := by
  refine ⟨after.numbered, fun tid proc found => ?_⟩
  obtain ⟨middle, there, same⟩ := before.jobs tid proc found
  obtain ⟨last, later, also⟩ := after.jobs tid middle there
  exact ⟨last, later, also.trans same⟩

/-- One process changes, but not its job. -/
theorem Numbered.update {config : Config σ X Job} (numbered : config.Numbered) {tid : ℕ}
    {proc : Proc σ X Job} (found : config.procs tid = some proc) (own : Local σ X)
    (life : Life σ X Job) (world : World σ X) :
    Continues config (config.update tid { proc with own := own, life := life } world) := by
  constructor
  case numbered =>
    intro other q at_
    by_cases equal : other = tid
    · exact equal ▸ numbered tid proc found
    · simp only [Config.update, Function.update_of_ne equal] at at_
      exact numbered other q at_
  case jobs =>
    intro other q at_
    by_cases equal : other = tid
    · subst equal
      obtain rfl := Option.some.inj (found.symm.trans at_)
      exact ⟨_, Function.update_self _ _ _, rfl⟩
    · exact ⟨q, by simpa only [Config.update, Function.update_of_ne equal] using at_, rfl⟩

end Jobs

variable {system : System σ X} {config next : Config σ X system.Job}

/-- One process more. -/
theorem Numbered.spawn (numbered : config.Numbered) (job : system.Job) :
    Continues config (spawn system config job) := by
  constructor
  case numbered =>
    intro other q at_
    by_cases equal : other = config.tids
    · exact equal ▸ Nat.lt_succ_self _
    · simp only [Config.spawn, Function.update_of_ne equal] at at_
      exact (numbered other q at_).trans (Nat.lt_succ_self _)
  case jobs =>
    intro other q at_
    have different := (numbered other q at_).ne
    exact ⟨q, by simpa only [Config.spawn, Function.update_of_ne different] using at_, rfl⟩

/-- The table has the job of the newest process. -/
theorem Agrees.spawned {job : system.Job} {jobs : ℕ → Option system.Job}
    (agrees : (spawn system config job).Agrees jobs) : jobs config.tids = some job :=
  agrees config.tids _ (Function.update_self _ _ _)

theorem Numbered.spawnAll (numbered : config.Numbered) (jobs : List system.Job) :
    Continues config (jobs.foldl (Config.spawn system) config) := by
  induction jobs generalizing config with
  | nil => exact ⟨numbered, fun _ proc found => ⟨proc, found, rfl⟩⟩
  | cons job rest ih =>
      have first := numbered.spawn job
      exact first.trans (ih first.numbered)

/-- Every move leaves the processes their jobs. -/
theorem Numbered.move (numbered : config.Numbered) {choice : Move X system.Job}
    (moved : Config.move system config choice = some next) : Continues config next := by
  have wait : ∀ world, Continues config { config with world := world } := fun _ =>
    ⟨numbered, fun _ proc found => ⟨proc, found, rfl⟩⟩
  cases choice with
  | spawn job =>
      simp only [Config.move] at moved
      split at moved
      · obtain rfl := Option.some.inj moved
        exact numbered.spawn job
      · cases moved
  | start tid =>
      obtain ⟨proc, found, moved⟩ := Option.bind_eq_some_iff.mp moved
      simp only [startProc] at moved
      split at moved
      · obtain rfl := Option.some.inj moved
        exact numbered.update found _ _ _
      · cases moved
  | finish tid =>
      obtain ⟨proc, found, moved⟩ := Option.bind_eq_some_iff.mp moved
      simp only [finishProc] at moved
      split at moved
      · split at moved
        · cases moved
        · obtain rfl := Option.some.inj moved
          exact numbered.update found _ _ _
      · cases moved
  | fail tid failure =>
      obtain ⟨proc, found, moved⟩ := Option.bind_eq_some_iff.mp moved
      simp only [failProc] at moved
      split at moved
      · obtain rfl := Option.some.inj moved
        exact numbered.update found _ _ _
      · obtain rfl := Option.some.inj moved
        exact numbered.update found _ _ _
      · cases moved
  | step tid =>
      obtain ⟨proc, found, moved⟩ := Option.bind_eq_some_iff.mp moved
      simp only [stepProc] at moved
      split at moved
      · rename_i answer jobs _
        obtain rfl := Option.some.inj moved
        have ended : Continues config
            (config.update tid { proc with life := .ended answer } config.world) :=
          numbered.update found _ _ _
        exact ended.trans (ended.numbered.spawnAll _)
      · obtain rfl := Option.some.inj moved
        exact numbered.update found _ _ _
      · obtain rfl := Option.some.inj moved
        exact numbered.update found _ _ _
      · obtain rfl := Option.some.inj moved
        exact numbered.update found _ _ _
      · cases moved
  | reply tid answer =>
      obtain ⟨proc, found, moved⟩ := Option.bind_eq_some_iff.mp moved
      simp only [replyProc] at moved
      split at moved
      · obtain rfl := Option.some.inj moved
        exact numbered.update found _ _ _
      · cases moved
  | crash tid =>
      obtain ⟨proc, found, moved⟩ := Option.bind_eq_some_iff.mp moved
      simp only [crashProc] at moved
      split at moved
      · obtain rfl := Option.some.inj moved
        exact numbered.update found _ _ _
      · cases moved
  | wait ticks =>
      obtain rfl := Option.some.inj moved
      exact wait _

/-- The process that a move is of. -/
def actor : Move X system.Job → Option ℕ
  | .spawn _ => none
  | .start tid => some tid
  | .finish tid => some tid
  | .fail tid _ => some tid
  | .step tid => some tid
  | .reply tid _ => some tid
  | .crash tid => some tid
  | .wait _ => none

theorem world_spawnAll (jobs : List system.Job) :
    (jobs.foldl (Config.spawn system) config).world = config.world := by
  induction jobs generalizing config with
  | nil => rfl
  | cons job rest ih => exact ih

/-- A statement that finishes adds no commit, or one of its process. -/
theorem history_finish {β : Type} {schema : Schema σ} {others : List (Lock σ)}
    {pending : List (Write σ)} {inTxn : Bool} {stmt : Stmt σ β} {flight : Flight σ X}
    {self self' : Local σ X} {world world' : World σ X} {reply : Except SqlFailure β}
    (finished : finish schema others pending inTxn stmt flight self world =
      some (reply, self', world')) :
    world'.history = world.history ∨
      ∃ commit, world'.history = commit :: world.history ∧ commit.tid = self.tid := by
  rcases finish_cases finished with ⟨_, -, -, rfl⟩ | ⟨outcome, locks, -, -, -, which⟩
  · exact Or.inl rfl
  · rcases which with ⟨-, _, -, -, -, rfl⟩ | ⟨-, -, ⟨-, rfl⟩ | ⟨-, rfl⟩⟩
    · exact Or.inl rfl
    · exact Or.inl rfl
    · exact Or.inr ⟨_, rfl, rfl⟩

/-- A move adds no commit, or one of its process. -/
theorem history_move (named : ∀ tid proc, config.procs tid = some proc → proc.own.tid = tid)
    {choice : Move X system.Job} (moved : Config.move system config choice = some next) :
    next.world.history = config.world.history ∨
      ∃ commit, next.world.history = commit :: config.world.history ∧
        actor choice = some commit.tid := by
  cases choice with
  | spawn job =>
      simp only [Config.move] at moved
      split at moved
      · obtain rfl := Option.some.inj moved
        exact Or.inl rfl
      · cases moved
  | start tid =>
      obtain ⟨proc, found, moved⟩ := Option.bind_eq_some_iff.mp moved
      simp only [startProc] at moved
      split at moved
      · obtain rfl := Option.some.inj moved
        exact Or.inl rfl
      · cases moved
  | finish tid =>
      obtain ⟨proc, found, moved⟩ := Option.bind_eq_some_iff.mp moved
      simp only [finishProc] at moved
      split at moved
      · split at moved
        · cases moved
        · rename_i finished
          obtain rfl := Option.some.inj moved
          refine (history_finish finished).imp id ?_
          rintro ⟨commit, grown, same⟩
          exact ⟨commit, grown, congrArg some ((named tid proc found).symm.trans same.symm)⟩
      · cases moved
  | fail tid failure =>
      obtain ⟨proc, found, moved⟩ := Option.bind_eq_some_iff.mp moved
      simp only [failProc] at moved
      split at moved
      · obtain rfl := Option.some.inj moved
        exact Or.inl rfl
      · obtain rfl := Option.some.inj moved
        exact Or.inl rfl
      · cases moved
  | step tid =>
      obtain ⟨proc, found, moved⟩ := Option.bind_eq_some_iff.mp moved
      simp only [stepProc] at moved
      split at moved
      · obtain rfl := Option.some.inj moved
        exact Or.inl (congrArg World.history (world_spawnAll _))
      · obtain rfl := Option.some.inj moved
        exact Or.inl rfl
      · obtain rfl := Option.some.inj moved
        refine (proc.own.committed_cases config.world).imp id ?_
        rintro ⟨txn, -, grown⟩
        exact ⟨_, grown, congrArg some (named tid proc found).symm⟩
      · obtain rfl := Option.some.inj moved
        exact Or.inl rfl
      · cases moved
  | reply tid answer =>
      obtain ⟨proc, found, moved⟩ := Option.bind_eq_some_iff.mp moved
      simp only [replyProc] at moved
      split at moved
      · obtain rfl := Option.some.inj moved
        exact Or.inl rfl
      · cases moved
  | crash tid =>
      obtain ⟨proc, found, moved⟩ := Option.bind_eq_some_iff.mp moved
      simp only [crashProc] at moved
      split at moved
      · obtain rfl := Option.some.inj moved
        exact Or.inl rfl
      · cases moved
  | wait ticks =>
      obtain rfl := Option.some.inj moved
      exact Or.inl rfl

theorem Reachable.numbered (reachable : Reachable system config) : config.Numbered := by
  induction reachable with
  | initial => exact fun _ _ found => by simp [Config.initial] at found
  | move _ _ moved ih => exact (ih.move moved).numbered

/-- The jobs of a state, as a table. -/
def jobs {Job : Type} (config : Config σ X Job) (tid : ℕ) : Option Job :=
  (config.procs tid).map Proc.job

theorem agrees_jobs {Job : Type} (config : Config σ X Job) : config.Agrees config.jobs :=
  fun tid proc found => by simp [jobs, found]

end Config

end ReadCommitted

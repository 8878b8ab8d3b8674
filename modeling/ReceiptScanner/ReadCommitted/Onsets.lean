import ReceiptScanner.ReadCommitted.Follow

/-!
# Since when a process runs

A configuration does not say in which order its processes began. A paced run carries the
worlds in which they started their first statements, and a rule that every move keeps, which
may speak of them. The rule is a condition on the schedule: what no run of the system
promises by itself.
-/

namespace ReadCommitted

variable {σ : Signature} {X : Interface} {system : System σ X}

/-- The worlds in which the processes started their first statements, as far as they have. -/
abbrev Onsets (σ : Signature) (X : Interface) := ℕ → Option (World σ X)

/-- What a move adds to them. -/
def Onsets.after {Job : Type} (onsets : Onsets σ X) (config : Config σ X Job) :
    Move X Job → Onsets σ X
  | .start tid =>
      if (onsets tid).isNone then Function.update onsets tid (some config.world) else onsets
  | _ => onsets

namespace Onsets

variable {Job : Type} {config : Config σ X Job} {choice : Move X Job} {onsets : Onsets σ X}
  {tid : ℕ} {world : World σ X}

/-- An onset is kept. -/
theorem after_of_some (known : onsets tid = some world) :
    onsets.after config choice tid = some world := by
  cases choice with
  | start other =>
      simp only [after]
      split
      · rename_i none
        have differ : tid ≠ other := by
          rintro rfl
          simp [known] at none
        rw [Function.update_of_ne differ, known]
      · exact known
  | _ => exact known

/-- A new one is that of the process that starts a statement. -/
theorem after_of_none (unknown : onsets tid = none)
    (known : onsets.after config choice tid = some world) :
    choice = .start tid ∧ world = config.world := by
  cases choice with
  | start other =>
      simp only [after] at known
      split at known
      · by_cases same : tid = other
        · subst same
          rw [Function.update_self] at known
          exact ⟨rfl, (Option.some.inj known).symm⟩
        · rw [Function.update_of_ne same, unknown] at known
          cases known
      · rw [unknown] at known
        cases known
  | _ => exact absurd (unknown.symm.trans known) (by simp)

/-- A process that starts a statement has an onset from then on. -/
theorem after_start (tid : ℕ) : onsets.after config (.start tid) tid ≠ none := by
  cases known : onsets tid with
  | some world => simp [after_of_some known]
  | none => simp [after, known]

end Onsets

/-- A condition on the moves of a schedule. -/
abbrev Pace (system : System σ X) :=
  Config σ X system.Job → Onsets σ X → Move X system.Job → Prop

/-- The states that a run can reach whose moves all meet the condition. -/
inductive Config.Paced (system : System σ X) (pace : Pace system) :
    Config σ X system.Job → Onsets σ X → Prop where
  | initial : Paced system pace (Config.initial system) fun _ => none
  | move {config next : Config σ X system.Job} {onsets : Onsets σ X}
      (prior : Paced system pace config onsets) (choice : Move X system.Job)
      (allowed : pace config onsets choice)
      (moved : Config.move system config choice = some next) :
      Paced system pace next (onsets.after config choice)

variable {pace : Pace system} {config next : Config σ X system.Job} {onsets : Onsets σ X}
  {tid : ℕ} {world : World σ X} {choice : Move X system.Job}

namespace Config.Paced

/-- A paced run is a run. -/
theorem reachable (paced : Config.Paced system pace config onsets) :
    Config.Reachable system config := by
  induction paced with
  | initial => exact .initial
  | move prior choice allowed moved ih => exact .move ih choice moved

/-- A run that meets a condition meets what follows from it. -/
theorem weaken {weaker : Pace system}
    (weakens : ∀ config onsets choice, pace config onsets choice → weaker config onsets choice)
    (paced : Config.Paced system pace config onsets) : Config.Paced system weaker config onsets := by
  induction paced with
  | initial => exact .initial
  | move prior choice allowed moved ih => exact .move ih choice (weakens _ _ choice allowed) moved

/-- Whoever has an onset has started a statement then. -/
theorem onset (paced : Config.Paced system pace config onsets) (known : onsets tid = some world) :
    ∃ before begun earlier, Config.Paced system pace before earlier ∧ earlier tid = none ∧
      before.world = world ∧ Config.move system before (.start tid) = some begun ∧
      Config.Leads system begun config := by
  induction paced with
  | initial => cases known
  | @move config next onsets prior choice allowed moved ih =>
      cases was : onsets tid with
      | some first =>
          obtain rfl : first = world :=
            Option.some.inj ((Onsets.after_of_some was).symm.trans known)
          obtain ⟨before, begun, earlier, paced, none, same, starts, leads⟩ := ih was
          exact ⟨before, begun, earlier, paced, none, same, starts, leads.tail ⟨choice, moved⟩⟩
      | none =>
          obtain ⟨rfl, rfl⟩ := Onsets.after_of_none was known
          exact ⟨config, next, onsets, prior, was, rfl, moved, .refl⟩

/-- Whoever has an onset is there. -/
theorem exists_of_onset (paced : Config.Paced system pace config onsets)
    (known : onsets tid = some world) : ∃ proc, config.procs tid = some proc := by
  obtain ⟨before, begun, earlier, prior, -, -, starts, leads⟩ := paced.onset known
  obtain ⟨proc, found, -⟩ := Option.bind_eq_some_iff.mp starts
  obtain ⟨last, there, -⟩ := (Config.Leads.continues (.head ⟨_, starts⟩ leads)
    prior.reachable.numbered).jobs tid proc found
  exact ⟨last, there⟩

/-- A start commits nothing. -/
theorem history_of_start (moved : Config.move system config (.start tid) = some next) :
    next.world.history = config.world.history := by
  obtain ⟨proc, -, moved⟩ := Option.bind_eq_some_iff.mp moved
  simp only [startProc] at moved
  split at moved
  · obtain rfl := Option.some.inj moved
    rfl
  · cases moved

variable {β : Type} {inTxn : Bool} {stmt : Stmt σ β}
  {rest : Except SqlFailure β → Prog σ X (Ending X system.Job)} {proc : Proc σ X system.Job}

/-- A process without an onset has not begun, or its first statement failed. -/
inductive Unbegun (system : System σ X) (tid : ℕ) {β : Type}
    (rest : Except SqlFailure β → Prog σ X (Ending X system.Job)) : Proc σ X system.Job → Prop where
  | fresh (job : system.Job) : Unbegun system tid rest (Proc.fresh system tid job)
  | refused {proc : Proc σ X system.Job} (failure : SqlFailure)
      (here : proc.life = .running (rest (.error failure)) none) : Unbegun system tid rest proc
  | ended {proc : Proc σ X system.Job} (failure : SqlFailure) {ending : Ending X system.Job}
      (refused : rest (.error failure) = .done ending) (here : proc.life = .ended ending.1) :
      Unbegun system tid rest proc
  | crashed {proc : Proc σ X system.Job} (here : proc.life = .crashed) :
      Unbegun system tid rest proc

/-- Such a process has ended only in what its program makes of the failure. -/
theorem Unbegun.answer (unbegun : Unbegun system tid rest proc) {answer : X.Answer}
    (ended : proc.life = .ended answer) :
    ∃ failure ending, rest (.error failure) = .done ending ∧ answer = ending.1 := by
  cases unbegun with
  | fresh job => cases ended
  | refused failure here => cases ended.symm.trans here
  | ended failure refused here =>
      cases ended.symm.trans here
      exact ⟨failure, _, refused, rfl⟩
  | crashed here => cases ended.symm.trans here

/-- A process that takes its turn is running. -/
theorem running_of_turn {own : Local σ X} {life : Life σ X system.Job} {world : World σ X}
    {jobs : List system.Job} (turn : Turn system config tid proc own life world jobs) :
    ∃ prog flight, proc.life = .running prog flight := by
  cases turn with
  | start here | finish here _ | failExec here | failBegin here | done here | beginTxn here
  | commit here | rollback here | crash here => exact ⟨_, _, here⟩
  | call _ here => exact ⟨_, _, here⟩

/-- Only a start puts a statement under way. -/
theorem start_of_flight (found : config.procs tid = some proc)
    (here : proc.life = .running (.exec inTxn stmt rest) none)
    (moved : Config.move system config choice = some next) (acts : actor choice = some tid)
    {after : Proc σ X system.Job} (there : next.procs tid = some after)
    {prog : Prog σ X (Ending X system.Job)} {flight : Flight σ X}
    (flies : after.life = .running prog (some flight)) : choice = .start tid := by
  cases choice with
  | spawn | wait => cases acts
  | start other => exact congrArg Move.start (Option.some.inj acts)
  | finish other | step other | reply other =>
      obtain rfl := Option.some.inj acts
      simp [Config.move, found, finishProc, stepProc, replyProc, here] at moved
  | fail other =>
      obtain rfl := Option.some.inj acts
      simp only [Config.move, found, Option.bind_some, failProc, here, Option.some.injEq] at moved
      subst moved
      simp only [Config.update, Function.update_self, Option.some.injEq] at there
      subst there
      cases flies
  | crash other =>
      obtain rfl := Option.some.inj acts
      simp only [Config.move, found, Option.bind_some, crashProc, here, Option.some.injEq] at moved
      subst moved
      simp only [Config.update, Function.update_self, Option.some.injEq] at there
      subst there
      cases flies

/-- The turn of a process that has not begun starts its first statement, or is none. -/
theorem Unbegun.turn (unbegun : Unbegun system tid rest proc)
    (opens : system.prog proc.job = .exec inTxn stmt rest)
    (refuses : ∀ failure, ∃ ending, rest (.error failure) = .done ending) {own : Local σ X}
    {life : Life σ X system.Job} {world : World σ X} {jobs : List system.Job}
    (turn : Turn system config tid proc own life world jobs) :
    world.history = config.world.history ∧
      (Unbegun system tid rest { proc with own := own, life := life } ∨
        proc.life = .running (.exec inTxn stmt rest) none ∧
          ∃ flight, life = .running (.exec inTxn stmt rest) (some flight)) := by
  cases unbegun with
  | fresh job =>
      have here : (Proc.fresh system tid job).life = .running (.exec inTxn stmt rest) none :=
        congrArg (Life.running · none) opens
      cases turn with
      | start at_ =>
          cases at_.symm.trans here
          exact ⟨rfl, Or.inr ⟨here, _, rfl⟩⟩
      | failExec at_ =>
          cases at_.symm.trans here
          exact ⟨rfl, Or.inl (.refused _ rfl)⟩
      | crash => exact ⟨rfl, Or.inl (.crashed rfl)⟩
      | finish at_ | failBegin at_ | done at_ | beginTxn at_ | commit at_ | rollback at_
      | call _ at_ => cases at_.symm.trans here
  | refused failure here =>
      obtain ⟨ending, isDone⟩ := refuses failure
      rw [isDone] at here
      cases turn with
      | done at_ =>
          cases at_.symm.trans here
          exact ⟨rfl, Or.inl (.ended failure isDone rfl)⟩
      | crash => exact ⟨rfl, Or.inl (.crashed rfl)⟩
      | start at_ | finish at_ | failExec at_ | failBegin at_ | beginTxn at_ | commit at_
      | rollback at_ | call _ at_ => cases at_.symm.trans here
  | ended failure isDone here =>
      obtain ⟨prog, flight, at_⟩ := running_of_turn turn
      cases at_.symm.trans here
  | crashed here =>
      obtain ⟨prog, flight, at_⟩ := running_of_turn turn
      cases at_.symm.trans here

/-- A process that was not there before a move is fresh after it. -/
theorem fresh_of_move (moved : Config.move system config choice = some next)
    (absent : config.procs tid = none) (found : next.procs tid = some proc) :
    ∃ job, proc = Proc.fresh system tid job := by
  rcases move_cases moved with ⟨-, ⟨job, rfl⟩ | ⟨ticks, rfl⟩⟩ |
    ⟨other, q, own, life, world, jobs, -, at_, -, rfl⟩
  · rcases Config.spawned_cases [job] found with old | fresh
    · exact absurd (absent.symm.trans old) (by simp)
    · exact fresh
  · exact absurd (absent.symm.trans found) (by simp)
  · rcases Config.spawned_cases jobs found with old | fresh
    · have apart : tid ≠ other := fun same => by simp [same, at_] at absent
      simp only [Config.update, Function.update_of_ne apart] at old
      exact absurd (absent.symm.trans old) (by simp)
    · exact fresh

/-- After its turn, a process is what the turn made of it. -/
theorem turn_of_move (numbered : config.Numbered) (found : config.procs tid = some proc)
    (moved : Config.move system config choice = some next) (acts : actor choice = some tid) :
    ∃ own life world jobs, Turn system config tid proc own life world jobs ∧
      next.procs tid = some { proc with own := own, life := life } ∧ next.world = world := by
  rcases move_cases moved with ⟨none, -⟩ | ⟨other, q, own, life, world, jobs, isOther, at_, turn, rfl⟩
  · exact absurd (none.symm.trans acts) (by simp)
  · obtain rfl := Option.some.inj (isOther.symm.trans acts)
    obtain rfl := Option.some.inj (at_.symm.trans found)
    refine ⟨own, life, world, jobs, turn, ?_, world_spawnAll jobs⟩
    rw [procs_spawnAll jobs (by exact numbered other q found)]
    exact Function.update_self _ _ _

/-- A process is left alone by a move, or was running. -/
theorem was_of_move (numbered : config.Numbered) (found : config.procs tid = some proc)
    (moved : Config.move system config choice = some next) {after : Proc σ X system.Job}
    (there : next.procs tid = some after) :
    after = proc ∨ ∃ prog flight, proc.life = .running prog flight := by
  by_cases acts : actor choice = some tid
  · obtain ⟨own, life, world, jobs, turn, -⟩ := turn_of_move numbered found moved acts
    exact Or.inr (running_of_turn turn)
  · exact Or.inl (Option.some.inj (there.symm.trans (procs_move numbered found moved acts)))

/-- A process whose program begins with a statement, without an onset. -/
theorem unbegun (paced : Config.Paced system pace config onsets) (unknown : onsets tid = none)
    (found : config.procs tid = some proc) (opens : system.prog proc.job = .exec inTxn stmt rest)
    (refuses : ∀ failure, ∃ ending, rest (.error failure) = .done ending) :
    Unbegun system tid rest proc := by
  induction paced generalizing proc with
  | initial => cases found
  | @move config next onsets prior choice allowed moved ih =>
      have notBefore : onsets tid = none := by
        by_contra known
        obtain ⟨world, known⟩ := Option.ne_none_iff_exists'.mp known
        exact absurd (unknown.symm.trans (Onsets.after_of_some known)) (by simp)
      have numbered := prior.reachable.numbered
      cases was : config.procs tid with
      | none =>
          obtain ⟨job, rfl⟩ := fresh_of_move moved was found
          exact .fresh job
      | some q =>
          by_cases acts : actor choice = some tid
          · obtain ⟨own, life, world, jobs, turn, there, -⟩ :=
              turn_of_move numbered was moved acts
            obtain rfl := Option.some.inj (found.symm.trans there)
            have before := ih notBefore was opens
            rcases (before.turn opens refuses turn).2 with again | ⟨here, flight, flies⟩
            · exact again
            · obtain rfl := start_of_flight was here moved acts there flies
              exact absurd unknown (Onsets.after_start tid)
          · obtain rfl := Option.some.inj (found.symm.trans (procs_move numbered was moved acts))
            exact ih notBefore was opens

/-- A process without an onset commits nothing. -/
theorem quiet (paced : Config.Paced system pace config onsets) (unknown : onsets tid = none)
    (found : config.procs tid = some proc) (opens : system.prog proc.job = .exec inTxn stmt rest)
    (refuses : ∀ failure, ∃ ending, rest (.error failure) = .done ending)
    (moved : Config.move system config choice = some next) (acts : actor choice = some tid) :
    next.world.history = config.world.history := by
  obtain ⟨own, life, world, jobs, turn, -, rfl⟩ :=
    turn_of_move paced.reachable.numbered found moved acts
  exact ((paced.unbegun unknown found opens refuses).turn opens refuses turn).1

/-- A process since its onset: it aims at what its program aims at, once the first statement
has its snapshot there, and what it has committed keeps its guarantee. -/
theorem aims {ok mine : Guarantee σ X} {terms : Terms σ X system.Job}
    {post : Post σ X (Ending X system.Job)}
    (paced : Config.Paced system pace config onsets) (known : onsets tid = some world)
    (found : config.procs tid = some proc) (opens : system.prog proc.job = .exec inTxn stmt rest)
    (refuses : ∀ failure, ∃ ending, rest (.error failure) = .done ending)
    (safe : FlightSafe mine system.schema inTxn stmt ⟨world.history, world.clock⟩
      (fun reply => (rest reply).wp mine system.schema post) { tid := tid } world.tick)
    (stable : Stable mine post) (allows : mine.Allows ok tid) (keeps : Keeps system ok terms)
    (agrees : config.Agrees terms.jobs) :
    proc.Aims mine system.schema post config.world ∧
    world.history <:+ config.world.history ∧
    ∀ commit earlier, commit :: earlier <:+ config.world.history → world.history <:+ earlier →
      commit.tid = tid → mine.commits earlier commit := by
  obtain ⟨before, begun, earlier, prior, unknown, rfl, starts, leads⟩ := paced.onset known
  obtain ⟨first, there, moved⟩ := Option.bind_eq_some_iff.mp starts
  have reached := prior.reachable.move _ starts
  obtain ⟨same, at_, isJob⟩ := (Config.Leads.continues (.head ⟨_, starts⟩ leads)
    prior.reachable.numbered).jobs tid first there
  obtain rfl := Option.some.inj (found.symm.trans at_)
  rw [isJob] at opens
  have unbegun := prior.unbegun unknown there opens refuses
  cases unbegun with
  | fresh job =>
      simp only [Config.startProc, Proc.fresh] at moved opens
      simp only [opens, Option.some.injEq] at moved
      obtain rfl := moved
      have begins : Proc.Aims mine system.schema post ⟨job, { tid := tid },
          .running (.exec inTxn stmt rest) (some ⟨_, _⟩)⟩ before.world.tick := safe
      obtain ⟨⟨_, at', -, ended⟩, commits⟩ := begins.follow stable allows keeps reached
        leads agrees (Function.update_self _ _ _)
      obtain rfl := Option.some.inj (found.symm.trans at')
      exact ⟨ended, (Config.Leads.grows leads keeps reached agrees).1, commits⟩
  | refused failure here =>
      obtain ⟨ending, isDone⟩ := refuses failure
      simp [Config.startProc, here, isDone] at moved
  | ended failure isDone here => simp [Config.startProc, here] at moved
  | crashed here => simp [Config.startProc, here] at moved

/-- A process that has ended in something other than what its program makes of a failure has
an onset. -/
theorem onset_of_ended (paced : Config.Paced system pace config onsets)
    (found : config.procs tid = some proc) (opens : system.prog proc.job = .exec inTxn stmt rest)
    (refuses : ∀ failure, ∃ ending, rest (.error failure) = .done ending) {answer : X.Answer}
    (ended : proc.life = .ended answer)
    (other : ∀ failure ending, rest (.error failure) = .done ending → answer ≠ ending.1) :
    ∃ world, onsets tid = some world := by
  refine Option.ne_none_iff_exists'.mp fun unknown => ?_
  obtain ⟨failure, ending, isDone, same⟩ :=
    (paced.unbegun unknown found opens refuses).answer ended
  exact other failure ending isDone same

end Config.Paced

section Check

variable {check : Config σ X system.Job → Onsets σ X → Move X system.Job → Bool}

/-- A check of every move of a list, in the state that it meets. -/
def Config.paces (system : System σ X)
    (check : Config σ X system.Job → Onsets σ X → Move X system.Job → Bool) :
    List (Move X system.Job) → Config σ X system.Job → Onsets σ X → Bool
  | [], _, _ => true
  | first :: rest, config, onsets => check config onsets first &&
      (Config.move system config first).any fun next =>
        paces system check rest next (onsets.after config first)

/-- A run whose moves pass a check that is enough for the condition. -/
theorem Config.Paced.run (sound : ∀ config onsets choice, Config.Paced system pace config onsets →
      check config onsets choice = true → pace config onsets choice)
    (paced : Config.Paced system pace config onsets) {moves : List (Move X system.Job)}
    (checked : Config.paces system check moves config onsets = true)
    (ran : Config.run system moves config = some next) :
    ∃ later, Config.Paced system pace next later := by
  induction moves generalizing config onsets with
  | nil =>
      obtain rfl := Option.some.inj ran
      exact ⟨onsets, paced⟩
  | cons first rest ih =>
      obtain ⟨middle, moved, ran⟩ := Option.bind_eq_some_iff.mp ran
      obtain ⟨now, later⟩ := Bool.and_eq_true_iff.mp checked
      rw [moved] at later
      exact ih (.move paced first (sound config onsets first paced now) moved) later ran

end Check

end ReadCommitted

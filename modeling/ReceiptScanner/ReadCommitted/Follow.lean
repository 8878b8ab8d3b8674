import ReceiptScanner.ReadCommitted.Soundness

/-!
# One process, followed through a run

`Keeps` verifies every job from its first node, for any state it may start in. `Proc.Aims`
is about one process in one state: from the point it has reached, it keeps a guarantee of
its own and ends in a postcondition of its own, which may speak of that state.
`Proc.Aims.follow` carries this through the rest of the run.
-/

namespace ReadCommitted

variable {σ : Signature} {X : Interface} {system : System σ X} {ok mine : Guarantee σ X}
  {terms : Terms σ X system.Job}

/-- From where it stands, the process keeps the guarantee and ends in the postcondition. -/
def Proc.Aims {Job : Type} (ok : Guarantee σ X) (schema : Schema σ)
    (post : Post σ X (Ending X Job)) (proc : Proc σ X Job) (world : World σ X) : Prop :=
  match proc.life with
  | .running prog none => prog.wp ok schema post proc.own world
  | .running (.exec inTxn stmt next) (some flight) =>
      FlightSafe ok schema inTxn stmt flight (fun reply => (next reply).wp ok schema post)
        proc.own world
  | .running _ (some _) => False
  | .ended answer => ∃ jobs, post (answer, jobs) proc.own world
  | .crashed => True

/-- A process that aims at something still does while others act. -/
theorem Proc.Aims.rely {Job : Type} {schema : Schema σ} {post : Post σ X (Ending X Job)}
    {proc : Proc σ X Job} {before after : World σ X} (aims : proc.Aims ok schema post before)
    (stable : Stable ok post) (rely : Rely ok proc.own before after) :
    proc.Aims ok schema post after := by
  obtain ⟨job, own, life⟩ := proc
  rcases life with ⟨prog, _ | flight⟩ | answer | _
  · exact Prog.wp_rely stable rely aims
  · cases prog with
    | exec => exact fun later further wf => aims later (rely.trans further) wf
    | _ => exact aims
  · obtain ⟨jobs, holds⟩ := aims
    exact ⟨jobs, stable _ _ _ _ rely holds⟩
  · trivial

/-- One move: the clock and the sequences do not go back, and the history grows by one
commit at most. -/
structure World.Advances (before after : World σ X) (allowed : Commit σ X → Prop) : Prop where
  clock : before.clock ≤ after.clock
  next : ∀ table, before.next table ≤ after.next table
  history : after.history = before.history ∨
    ∃ commit, after.history = commit :: before.history ∧ allowed commit

namespace World.Advances

variable {before after : World σ X} {allowed : Commit σ X → Prop}

theorem refl : before.Advances before allowed :=
  ⟨Nat.le_refl _, fun _ => Nat.le_refl _, Or.inl rfl⟩

theorem tick : before.Advances before.tick allowed :=
  ⟨Nat.le_succ _, fun _ => Nat.le_refl _, Or.inl rfl⟩

theorem pass {β : Type} (outcome : Outcome σ β) : before.Advances (before.pass outcome) allowed :=
  ⟨by simp only [World.pass]; omega, le_advance _ _, Or.inl rfl⟩

theorem suffix (advances : before.Advances after allowed) : before.history <:+ after.history := by
  rcases advances.history with same | ⟨commit, grown, -⟩
  · exact same ▸ List.suffix_rfl
  · exact grown ▸ List.suffix_cons commit _

end World.Advances

namespace Config

/-- What the turn of one process makes of what belongs to it, of its life and of the
world, and the jobs that it leaves to run. -/
inductive Turn (system : System σ X) (config : Config σ X system.Job) (tid : ℕ)
    (proc : Proc σ X system.Job) : Local σ X → Life σ X system.Job → World σ X →
    List system.Job → Prop where
  | start {β : Type} {inTxn : Bool} {stmt : Stmt σ β}
      {rest : Except SqlFailure β → Prog σ X (Ending X system.Job)}
      (here : proc.life = .running (.exec inTxn stmt rest) none) :
      Turn system config tid proc proc.own (.running (.exec inTxn stmt rest)
        (some ⟨config.world.history, config.world.clock⟩)) config.world.tick []
  | finish {β : Type} {inTxn : Bool} {stmt : Stmt σ β}
      {rest : Except SqlFailure β → Prog σ X (Ending X system.Job)} {flight : Flight σ X}
      {reply : Except SqlFailure β} {own : Local σ X} {world : World σ X}
      (here : proc.life = .running (.exec inTxn stmt rest) (some flight))
      (finished : ReadCommitted.finish system.schema (config.otherLocks tid)
        (config.otherWrites tid) inTxn stmt flight proc.own config.world =
          some (reply, own, world)) :
      Turn system config tid proc own (.running (rest reply) none) world []
  | failExec {β : Type} {inTxn : Bool} {stmt : Stmt σ β}
      {rest : Except SqlFailure β → Prog σ X (Ending X system.Job)}
      {flight : Option (Flight σ X)} {failure : SqlFailure}
      (here : proc.life = .running (.exec inTxn stmt rest) flight) :
      Turn system config tid proc (proc.own.fail inTxn)
        (.running (rest (.error failure)) none) config.world []
  | failBegin {rest : Except SqlFailure Unit → Prog σ X (Ending X system.Job)}
      {failure : SqlFailure} (here : proc.life = .running (.beginTxn rest) none) :
      Turn system config tid proc proc.own (.running (rest (.error failure)) none)
        config.world []
  | done {answer : X.Answer} {jobs : List system.Job}
      (here : proc.life = .running (.done (answer, jobs)) none) :
      Turn system config tid proc proc.own (.ended answer) config.world jobs
  | beginTxn {rest : Except SqlFailure Unit → Prog σ X (Ending X system.Job)}
      (here : proc.life = .running (.beginTxn rest) none) :
      Turn system config tid proc (proc.own.beginTxn config.world) (.running (rest (.ok ())) none)
        config.world.tick []
  | commit {rest : Prog σ X (Ending X system.Job)}
      (here : proc.life = .running (.commit rest) none) :
      Turn system config tid proc proc.own.drop (.running rest none)
        (proc.own.committed config.world) []
  | rollback {rest : Prog σ X (Ending X system.Job)}
      (here : proc.life = .running (.rollback rest) none) :
      Turn system config tid proc proc.own.drop (.running rest none) config.world []
  | call {c : X.Call} {rest : X.Reply c → Prog σ X (Ending X system.Job)} (reply : X.Reply c)
      (here : proc.life = .running (.call c rest) none) :
      Turn system config tid proc (proc.own.called ⟨c, reply⟩) (.running (rest reply) none)
        { config.world with env := X.perform c reply config.world.env } []
  | crash {prog : Prog σ X (Ending X system.Job)} {flight : Option (Flight σ X)}
      (here : proc.life = .running prog flight) :
      Turn system config tid proc proc.own.drop .crashed config.world []

variable {config next : Config σ X system.Job} {tid : ℕ} {proc : Proc σ X system.Job}
  {choice : Move X system.Job}

/-- A move starts a process, lets time pass, or is the turn of one process. -/
theorem move_cases (moved : Config.move system config choice = some next) :
    (actor choice = none ∧ ((∃ job, next = spawn system config job) ∨ ∃ ticks, next =
      { config with world := { config.world with clock := config.world.clock + ticks } })) ∨
    ∃ tid proc own life world jobs, actor choice = some tid ∧ config.procs tid = some proc ∧
      Turn system config tid proc own life world jobs ∧
      next = jobs.foldl (Config.spawn system)
        (config.update tid { proc with own := own, life := life } world) := by
  cases choice with
  | spawn job =>
      simp only [Config.move] at moved
      split at moved
      · obtain rfl := Option.some.inj moved
        exact Or.inl ⟨rfl, Or.inl ⟨job, rfl⟩⟩
      · cases moved
  | start tid =>
      obtain ⟨proc, found, moved⟩ := Option.bind_eq_some_iff.mp moved
      simp only [startProc] at moved
      split at moved
      · rename_i here
        obtain rfl := Option.some.inj moved
        exact Or.inr ⟨tid, proc, _, _, _, [], rfl, found, .start here, rfl⟩
      · cases moved
  | finish tid =>
      obtain ⟨proc, found, moved⟩ := Option.bind_eq_some_iff.mp moved
      simp only [finishProc] at moved
      split at moved
      · rename_i here
        split at moved
        · cases moved
        · rename_i finished
          obtain rfl := Option.some.inj moved
          exact Or.inr ⟨tid, proc, _, _, _, [], rfl, found, .finish here finished, rfl⟩
      · cases moved
  | fail tid failure =>
      obtain ⟨proc, found, moved⟩ := Option.bind_eq_some_iff.mp moved
      simp only [failProc] at moved
      split at moved
      · rename_i here
        obtain rfl := Option.some.inj moved
        exact Or.inr ⟨tid, proc, _, _, _, [], rfl, found, .failExec here, rfl⟩
      · rename_i here
        obtain rfl := Option.some.inj moved
        exact Or.inr ⟨tid, proc, proc.own, _, _, [], rfl, found, .failBegin here, rfl⟩
      · cases moved
  | step tid =>
      obtain ⟨proc, found, moved⟩ := Option.bind_eq_some_iff.mp moved
      simp only [stepProc] at moved
      split at moved
      · rename_i here
        obtain rfl := Option.some.inj moved
        exact Or.inr ⟨tid, proc, proc.own, _, _, _, rfl, found, .done here, rfl⟩
      · rename_i here
        obtain rfl := Option.some.inj moved
        exact Or.inr ⟨tid, proc, _, _, _, [], rfl, found, .beginTxn here, rfl⟩
      · rename_i here
        obtain rfl := Option.some.inj moved
        exact Or.inr ⟨tid, proc, _, _, _, [], rfl, found, .commit here, rfl⟩
      · rename_i here
        obtain rfl := Option.some.inj moved
        exact Or.inr ⟨tid, proc, _, _, _, [], rfl, found, .rollback here, rfl⟩
      · cases moved
  | reply tid answer =>
      obtain ⟨proc, found, moved⟩ := Option.bind_eq_some_iff.mp moved
      simp only [replyProc] at moved
      split at moved
      · rename_i here
        obtain rfl := Option.some.inj moved
        exact Or.inr ⟨tid, proc, _, _, _, [], rfl, found, .call _ here, rfl⟩
      · cases moved
  | crash tid =>
      obtain ⟨proc, found, moved⟩ := Option.bind_eq_some_iff.mp moved
      simp only [crashProc] at moved
      split at moved
      · rename_i here
        obtain rfl := Option.some.inj moved
        exact Or.inr ⟨tid, proc, _, _, _, [], rfl, found, .crash here, rfl⟩
      · cases moved
  | wait ticks => exact Or.inl ⟨rfl, Or.inr ⟨ticks, (Option.some.inj moved).symm⟩⟩

/-- New processes leave the others as they are. -/
theorem procs_spawnAll (jobs : List system.Job) (known : tid < config.tids) :
    (jobs.foldl (Config.spawn system) config).procs tid = config.procs tid := by
  induction jobs generalizing config with
  | nil => rfl
  | cons job rest ih =>
      have later : tid < (Config.spawn system config job).tids := known.trans (Nat.lt_succ_self _)
      rw [List.foldl_cons, ih later]
      exact Function.update_of_ne known.ne _ _

/-- A move leaves the processes that it is not of. -/
theorem procs_move (numbered : config.Numbered) (found : config.procs tid = some proc)
    (moved : Config.move system config choice = some next) (foreign : actor choice ≠ some tid) :
    next.procs tid = some proc := by
  have known := numbered tid proc found
  rcases move_cases moved with ⟨-, ⟨job, rfl⟩ | ⟨ticks, rfl⟩⟩ |
    ⟨other, q, own, life, world, jobs, acts, -, -, rfl⟩
  · exact (Function.update_of_ne known.ne _ _).trans found
  · exact found
  · have apart : tid ≠ other := fun same => foreign (same ▸ acts)
    rw [procs_spawnAll jobs (by exact known)]
    exact (Function.update_of_ne apart _ _).trans found

namespace Inv

/-- The locks that a statement of a process was granted exclude no lock of another. -/
theorem compatible_finish {β : Type} {outcome : Outcome σ β} {locks : List (Lock σ)}
    (inv : config.Inv system ok terms) {more : List (Lock σ)} {cur : Db σ}
    (settled : system.schema.Settled (config.otherLocks tid ++ more) cur outcome locks) (other : ℕ)
    (q : Proc σ X system.Job) (at_ : config.procs other = some q) (different : other ≠ tid) :
    Compatible locks q.own.locks :=
  inv.granted (settled.compatible.mono (List.Subset.refl _) (List.subset_append_left _ _)) other q
    at_ different

/-- What a turn does to the world, as far as the other processes can tell. -/
theorem advances_turn (inv : config.Inv system ok terms) (found : config.procs tid = some proc)
    {own : Local σ X} {life : Life σ X system.Job} {world : World σ X} {jobs : List system.Job}
    (turn : Turn system config tid proc own life world jobs) :
    config.world.Advances world fun commit => commit.tid = tid ∧
      commit.Covered config.world.history ∧ ∀ other q, config.procs other = some q →
        other ≠ tid → Compatible commit.locks q.own.locks := by
  have named := (inv.named tid proc found).2
  cases turn with
  | start => exact .tick
  | finish here finished =>
      rcases finish_cases finished with ⟨failure, -, -, rfl⟩ |
        ⟨outcome, locks, -, settled, -, ⟨-, txn, -, -, -, rfl⟩ |
          ⟨rfl, -, ⟨-, rfl⟩ | ⟨-, rfl⟩⟩⟩
      · exact .refl
      · exact .pass outcome
      · exact .pass outcome
      · have settled := Schema.settle_eq_some settled
        have alone : proc.own.drop.Covered config.world.history := Local.Covered.of_none rfl
        refine ⟨(@World.Advances.pass _ _ _ (fun _ => True) _ outcome).clock, le_advance _ _,
          Or.inr ⟨_, rfl, named, fun write member => ?_, inv.compatible_finish settled⟩⟩
        obtain ⟨lock, held, cover⟩ := alone.locksFor system.schema member
        exact ⟨lock, settled.took ▸ held, cover⟩
  | beginTxn => exact .tick
  | commit =>
      refine ⟨(proc.own.clock_committed _).symm ▸ Nat.le_succ _,
        fun table => (proc.own.next_committed _).symm ▸ Nat.le_refl _, ?_⟩
      refine (proc.own.committed_cases config.world).imp_right ?_
      rintro ⟨txn, atTxn, grown⟩
      refine ⟨_, grown, named, ?_, fun other q at_ different => ?_⟩
      · simpa [Local.Covered, Local.locks, Local.writes, Commit.Covered, Local.commitOf, atTxn]
          using inv.covered tid proc found
      · simpa [Local.locks, atTxn, Local.commitOf] using inv.free found other q at_ different
  | call => exact ⟨Nat.le_refl _, fun _ => Nat.le_refl _, Or.inl rfl⟩
  | failExec | failBegin | done | rollback | crash => exact .refl

/-- What a move does to the world, as far as the processes can tell that it is not of. -/
theorem advances (inv : config.Inv system ok terms)
    (moved : Config.move system config choice = some next) :
    config.world.Advances next.world fun commit => actor choice = some commit.tid ∧
      commit.Covered config.world.history ∧ ∀ other q, config.procs other = some q →
        other ≠ commit.tid → Compatible commit.locks q.own.locks := by
  rcases move_cases moved with ⟨-, ⟨job, rfl⟩ | ⟨ticks, rfl⟩⟩ |
    ⟨tid, q, own, life, world, jobs, acts, found, turn, rfl⟩
  · exact .refl
  · exact ⟨Nat.le_add_right _ _, fun _ => Nat.le_refl _, Or.inl rfl⟩
  · have passes := inv.advances_turn found turn
    rw [world_spawnAll]
    refine ⟨passes.clock, passes.next, passes.history.imp_right ?_⟩
    rintro ⟨commit, grown, rfl, covered, compatible⟩
    exact ⟨commit, grown, acts, covered, compatible⟩

/-- A move interferes with the processes that it is not of only as the rules allow. -/
theorem interferes_move (inv : config.Inv system ok terms) (after : next.Inv system ok terms)
    (found : config.procs tid = some proc)
    (moved : Config.move system config choice = some next) (foreign : actor choice ≠ some tid) :
    Interferes ok proc.own config.world next.world where
  clock := (inv.advances moved).clock
  next := (inv.advances moved).next
  history := by
    refine (inv.advances moved).history.imp_right ?_
    rintro ⟨commit, grown, acts, covered, compatible⟩
    have different : tid ≠ commit.tid := fun same => foreign (same ▸ acts)
    refine ⟨commit, grown, ?_, covered, compatible tid proc found different,
      after.kept commit _ (grown ▸ List.suffix_rfl)⟩
    rw [(inv.named tid proc found).2]
    exact Ne.symm different
  wellFormed := after.wellFormed

end Inv

end Config

section Follow

variable {post : Post σ X (Ending X system.Job)} {config next : Config σ X system.Job} {tid : ℕ}
  {proc : Proc σ X system.Job} {choice : Move X system.Job}

/-- A process aims at the same after a turn of its own, and what it commits keeps its
guarantee. -/
theorem Proc.Aims.turn (aims : proc.Aims mine system.schema post config.world)
    (wf : config.world.WellFormed) {own : Local σ X} {life : Life σ X system.Job}
    {world : World σ X} {jobs : List system.Job}
    (turn : Config.Turn system config tid proc own life world jobs) :
    ({ proc with own := own, life := life } : Proc σ X system.Job).Aims mine system.schema post
      world ∧ Extends mine config.world.history world.history := by
  cases turn with
  | start here =>
      simp only [Proc.Aims, here] at aims
      exact ⟨(aims _ Rely.refl wf).2, Or.inl rfl⟩
  | finish here finished =>
      simp only [Proc.Aims, here] at aims
      have ended := (aims _ Rely.refl wf).2 _ _ _ _ _ finished
      exact ⟨ended.2, ended.1⟩
  | failExec here =>
      rename_i flight failure
      cases flight with
      | none =>
          simp only [Proc.Aims, here] at aims
          exact ⟨(aims _ Rely.refl wf).1 failure, Or.inl rfl⟩
      | some flight =>
          simp only [Proc.Aims, here] at aims
          exact ⟨(aims _ Rely.refl wf).1 failure, Or.inl rfl⟩
  | failBegin here =>
      simp only [Proc.Aims, here] at aims
      exact ⟨(aims _ Rely.refl wf).1 _, Or.inl rfl⟩
  | done here =>
      simp only [Proc.Aims, here] at aims
      exact ⟨⟨_, aims⟩, Or.inl rfl⟩
  | beginTxn here =>
      simp only [Proc.Aims, here] at aims
      exact ⟨(aims _ Rely.refl wf).2, Or.inl rfl⟩
  | commit here =>
      simp only [Proc.Aims, here] at aims
      have ended := aims _ Rely.refl wf
      exact ⟨ended.2, ended.1⟩
  | rollback here =>
      simp only [Proc.Aims, here] at aims
      exact ⟨aims _ Rely.refl wf, Or.inl rfl⟩
  | call reply here =>
      simp only [Proc.Aims, here] at aims
      exact ⟨(aims _ Rely.refl wf).2 reply, Or.inl rfl⟩
  | crash => exact ⟨trivial, Or.inl rfl⟩

/-- A guarantee that asks no more of the others than what they give. -/
def Guarantee.Allows (mine ok : Guarantee σ X) (tid : ℕ) : Prop :=
  ∀ history commit, commit.tid ≠ tid → ok.commits history commit → mine.commits history commit

/-- A process aims at the same after any move. -/
theorem Proc.Aims.move (aims : proc.Aims mine system.schema post config.world)
    (stable : Stable mine post) (allows : mine.Allows ok tid)
    (inv : config.Inv system ok terms) (after : next.Inv system ok terms)
    (found : config.procs tid = some proc)
    (moved : Config.move system config choice = some next) :
    ∃ proc', next.procs tid = some proc' ∧ proc'.job = proc.job ∧
      proc'.Aims mine system.schema post next.world ∧
      ∀ commit, next.world.history = commit :: config.world.history → commit.tid = tid →
        mine.commits config.world.history commit := by
  have numbered : config.Numbered := fun tid proc found => (inv.named tid proc found).1
  by_cases own : Config.actor choice = some tid
  · rcases Config.move_cases moved with ⟨none, -⟩ |
      ⟨other, q, own', life, world, jobs, acts, at_, turn, rfl⟩
    · rw [own] at none
      cases none
    · obtain rfl := Option.some.inj (own.symm.trans acts)
      obtain rfl := Option.some.inj (found.symm.trans at_)
      obtain ⟨again, extends_⟩ := aims.turn inv.wellFormed turn
      refine ⟨{ proc with own := own', life := life }, ?_, rfl, ?_, ?_⟩
      · rw [Config.procs_spawnAll jobs (by exact numbered tid proc found)]
        exact Function.update_self _ _ _
      · rw [Config.world_spawnAll]
        exact again
      · intro commit grown _
        rw [Config.world_spawnAll] at grown
        rcases extends_ with same | ⟨last, grownBy, good⟩
        · exact absurd (grown.symm.trans same) (List.cons_ne_self _ _)
        · obtain ⟨rfl, -⟩ := List.cons.inj (grown.symm.trans grownBy)
          exact good
  · have step := inv.interferes_move after found moved own
    have mild : Interferes mine proc.own config.world next.world := {
      clock := step.clock
      next := step.next
      history := by
        refine step.history.imp_right ?_
        rintro ⟨commit, grown, foreign, covered, compatible, good⟩
        refine ⟨commit, grown, foreign, covered, compatible, allows _ _ ?_ good⟩
        rwa [(inv.named tid proc found).2] at foreign
      wellFormed := step.wellFormed }
    refine ⟨proc, Config.procs_move numbered found moved own, rfl,
      aims.rely stable (Rely.single mild), fun commit grown same => ?_⟩
    rcases step.history with unchanged | ⟨other, grownBy, foreign, -⟩
    · exact absurd (grown.symm.trans unchanged) (List.cons_ne_self _ _)
    · obtain ⟨rfl, -⟩ := List.cons.inj (grown.symm.trans grownBy)
      exact absurd (same.trans (inv.named tid proc found).2.symm) foreign

/-- A run leads from one state to another. -/
def Config.Leads (system : System σ X) : Config σ X system.Job → Config σ X system.Job → Prop :=
  Relation.ReflTransGen fun config next => ∃ choice, Config.move system config choice = some next

variable {before after : Config σ X system.Job}

theorem Config.Leads.reachable (leads : Config.Leads system before after)
    (reachable : Config.Reachable system before) : Config.Reachable system after := by
  induction leads with
  | refl => exact reachable
  | tail _ moved ih =>
      obtain ⟨choice, moved⟩ := moved
      exact .move ih choice moved

/-- The moves of a run, each of them possible. -/
theorem Config.Leads.run {moves : List (Move X system.Job)}
    (ran : Config.run system moves before = some after) : Config.Leads system before after := by
  induction moves generalizing before with
  | nil => exact Option.some.inj ran ▸ .refl
  | cons choice rest ih =>
      obtain ⟨next, moved, ran⟩ := Option.bind_eq_some_iff.mp ran
      exact .head ⟨choice, moved⟩ (ih ran)

theorem Config.Leads.continues (leads : Config.Leads system before after)
    (numbered : before.Numbered) : Config.Continues before after := by
  induction leads with
  | refl => exact ⟨numbered, fun tid proc found => ⟨proc, found, rfl⟩⟩
  | tail _ moved ih =>
      obtain ⟨choice, moved⟩ := moved
      exact ih.trans (ih.numbered.move moved)

/-- What happened stays in the history, and time does not run back. -/
theorem Config.Leads.grows (leads : Config.Leads system before after) (keeps : Keeps system ok terms)
    (reachable : Config.Reachable system before) (agrees : after.Agrees terms.jobs) :
    before.world.history <:+ after.world.history ∧ before.world.clock ≤ after.world.clock := by
  induction leads using Relation.ReflTransGen.head_induction_on with
  | refl => exact ⟨List.suffix_rfl, Nat.le_refl _⟩
  | head moved rest ih =>
      obtain ⟨choice, moved⟩ := moved
      have later := reachable.move choice moved
      have agreed := (Config.Leads.continues rest later.numbered).agrees agrees
      have inv := keeps.inv reachable ((reachable.numbered.move moved).agrees agreed)
      obtain ⟨suffix, clock⟩ := ih later
      exact ⟨(inv.advances moved).suffix.trans suffix, (inv.advances moved).clock.trans clock⟩

/-- Through a run, a process goes on to aim at the same, and what it commits keeps its
guarantee. -/
theorem Proc.Aims.follow (aims : proc.Aims mine system.schema post before.world)
    (stable : Stable mine post) (allows : mine.Allows ok tid) (keeps : Keeps system ok terms)
    (reachable : Config.Reachable system before) (leads : Config.Leads system before after)
    (agrees : after.Agrees terms.jobs) (found : before.procs tid = some proc) :
    (∃ proc', after.procs tid = some proc' ∧ proc'.job = proc.job ∧
      proc'.Aims mine system.schema post after.world) ∧
    ∀ commit earlier, commit :: earlier <:+ after.world.history →
      before.world.history <:+ earlier → commit.tid = tid → mine.commits earlier commit := by
  induction leads using Relation.ReflTransGen.head_induction_on generalizing proc with
  | refl =>
      refine ⟨⟨proc, found, rfl, aims⟩, fun commit earlier suffix past => ?_⟩
      exact absurd (suffix.length_le.trans past.length_le) (by simp)
  | head moved rest ih =>
      rename_i first second
      obtain ⟨choice, moved⟩ := moved
      have later := reachable.move choice moved
      have agreed := (Config.Leads.continues rest later.numbered).agrees agrees
      have inv := keeps.inv reachable ((reachable.numbered.move moved).agrees agreed)
      obtain ⟨proc', there, same, again, committed⟩ :=
        aims.move stable allows inv (keeps.inv later agreed) found moved
      obtain ⟨⟨last, at_, sameJob, ended⟩, more⟩ := ih again later there
      refine ⟨⟨last, at_, sameJob.trans same, ended⟩, fun commit earlier suffix past mine' => ?_⟩
      rcases (inv.advances moved).history with unchanged | ⟨other, grown, -⟩
      · exact more commit earlier suffix (unchanged ▸ past) mine'
      · have inside : second.world.history <:+ after.world.history :=
          (Config.Leads.grows rest keeps later agrees).1
        rcases List.suffix_or_suffix_of_suffix suffix inside with within | beyond
        · rw [grown] at within
          rcases List.suffix_cons_iff.mp within with equal | old
          · obtain ⟨rfl, rfl⟩ := List.cons.inj equal
            exact committed commit grown mine'
          · exact absurd (old.length_le.trans past.length_le) (by simp)
        · rw [grown] at beyond
          rcases List.suffix_cons_iff.mp beyond with equal | deep
          · obtain ⟨rfl, rfl⟩ := List.cons.inj equal
            exact committed _ grown mine'
          · exact more commit earlier suffix (grown ▸ deep) mine'

/-- The answer of a process that has ended. -/
def Life.answer? {Job : Type} : Life σ X Job → Option X.Answer
  | .ended answer => some answer
  | .running _ _ | .crashed => none

theorem Life.answer?_eq_some {Job : Type} {life : Life σ X Job} {answer : X.Answer} :
    life.answer? = some answer ↔ life = .ended answer := by
  cases life <;> simp [Life.answer?]

/-- A process before its first node. -/
def Proc.fresh (system : System σ X) (tid : ℕ) (job : system.Job) : Proc σ X system.Job where
  job := job
  own := { tid := tid }
  life := .running (system.prog job) none

theorem Config.spawned_cases (jobs : List system.Job)
    (found : (jobs.foldl (Config.spawn system) config).procs tid = some proc) :
    config.procs tid = some proc ∨ ∃ job, proc = Proc.fresh system tid job := by
  induction jobs generalizing config with
  | nil => exact Or.inl found
  | cons job rest ih =>
      rcases ih found with before | fresh
      · by_cases newest : tid = config.tids
        · subst newest
          simp only [Config.spawn, Function.update_self, Option.some.injEq] at before
          exact Or.inr ⟨job, before.symm⟩
        · simp only [Config.spawn, Function.update_of_ne newest] at before
          exact Or.inl before
      · exact Or.inr fresh

/-- Every commit is by a process that is there. -/
theorem Keeps.committed (keeps : Keeps system ok terms)
    (reachable : Config.Reachable system config) (agrees : config.Agrees terms.jobs) :
    ∀ commit ∈ config.world.history, config.procs commit.tid ≠ none := by
  induction reachable with
  | initial => exact fun commit member => absurd member List.not_mem_nil
  | move prior choice moved ih =>
      rename_i middle last
      have continues := prior.numbered.move moved
      have inv := keeps.inv prior (continues.agrees agrees)
      have stays : ∀ tid, middle.procs tid ≠ none → last.procs tid ≠ none := by
        intro tid there
        obtain ⟨q, found⟩ := Option.ne_none_iff_exists'.mp there
        obtain ⟨q', found', -⟩ := continues.jobs tid q found
        simp [found']
      intro commit member
      rcases (inv.advances moved).history with same | ⟨other, grown, acts, -⟩
      · exact stays _ (ih (continues.agrees agrees) commit (same ▸ member))
      · rw [grown] at member
        rcases List.mem_cons.mp member with rfl | old
        · rcases Config.move_cases moved with ⟨none, -⟩ | ⟨tid, q, _, _, _, _, isTid, found, -⟩
          · exact absurd (none.symm.trans acts) (by simp)
          · obtain rfl := Option.some.inj (isTid.symm.trans acts)
            exact stays _ (by simp [found])
        · exact stays _ (ih (continues.agrees agrees) commit old)

/-- A process that was not there before has begun in between, and had committed nothing. -/
theorem Config.Leads.spawned (leads : Config.Leads system before after)
    (keeps : Keeps system ok terms) (reachable : Config.Reachable system before)
    (agrees : after.Agrees terms.jobs) (absent : before.procs tid = none)
    (found : after.procs tid = some proc) :
    ∃ config, Config.Leads system before config ∧ Config.Leads system config after ∧
      config.procs tid = some (Proc.fresh system tid proc.job) ∧
      ∀ commit ∈ config.world.history, commit.tid ≠ tid := by
  induction leads generalizing proc with
  | refl => exact absurd (absent.symm.trans found) (by simp)
  | tail rest moved ih =>
      rename_i middle last
      obtain ⟨choice, moved⟩ := moved
      have arrived := Config.Leads.reachable rest reachable
      have continues := arrived.numbered.move moved
      have agreed := continues.agrees agrees
      cases was : middle.procs tid with
      | some q =>
          obtain ⟨config, first, second, fresh⟩ := ih agreed was
          obtain ⟨q', there, same⟩ := continues.jobs tid q was
          obtain rfl := Option.some.inj (found.symm.trans there)
          exact ⟨config, first, second.tail ⟨choice, moved⟩, same ▸ fresh⟩
      | none =>
          have unused : ∀ commit ∈ last.world.history, commit.tid ≠ tid := by
            have old : ∀ commit ∈ middle.world.history, commit.tid ≠ tid := by
              rintro commit member rfl
              exact keeps.committed arrived agreed commit member was
            intro commit member
            rcases ((keeps.inv arrived agreed).advances moved).history with
              same | ⟨other, grown, acts, -⟩
            · exact old commit (same ▸ member)
            · rw [grown] at member
              rcases List.mem_cons.mp member with rfl | earlier
              · rintro rfl
                rcases Config.move_cases moved with ⟨none, -⟩ |
                  ⟨actor, q, _, _, _, _, isActor, at_, -⟩
                · exact absurd (none.symm.trans acts) (by simp)
                · obtain rfl := Option.some.inj (isActor.symm.trans acts)
                  exact absurd (was.symm.trans at_) (by simp)
              · exact old commit earlier
          have here : (∃ job, proc = Proc.fresh system tid job) → ∃ config,
              Config.Leads system before config ∧ Config.Leads system config last ∧
              config.procs tid = some (Proc.fresh system tid proc.job) ∧
              ∀ commit ∈ config.world.history, commit.tid ≠ tid := by
            rintro ⟨job, rfl⟩
            exact ⟨last, rest.tail ⟨choice, moved⟩, .refl, found, unused⟩
          rcases Config.move_cases moved with ⟨-, ⟨job, rfl⟩ | ⟨ticks, rfl⟩⟩ |
            ⟨other, q, own, life, world, jobs, -, at_, -, rfl⟩
          · rcases Config.spawned_cases [job] found with old | fresh
            · exact absurd (was.symm.trans old) (by simp)
            · exact here fresh
          · exact absurd (was.symm.trans found) (by simp)
          · rcases Config.spawned_cases jobs found with old | fresh
            · have apart : tid ≠ other := fun same => by simp [same, at_] at was
              simp only [Config.update, Function.update_of_ne apart] at old
              exact absurd (was.symm.trans old) (by simp)
            · exact here fresh

end Follow

end ReadCommitted

import ReceiptScanner.ReadCommitted.Follow

/-!
# The calls of a run

Every process keeps the calls it has made. A move either adds one call to one of these lists,
and does to the outside what this call does, or leaves all lists and the outside alone. An
invariant of the outside is kept by every move if it is kept by every call.
-/

namespace ReadCommitted

variable {σ : Signature} {X : Interface} {system : System σ X} {ok : Guarantee σ X}
  {terms : Terms σ X system.Job}

/-- A commit leaves the outside alone. -/
theorem Local.env_committed (own : Local σ X) (world : World σ X) :
    (own.committed world).env = world.env := by
  unfold Local.committed
  split
  · split <;> rfl
  · rfl

namespace Config

section Said

variable {Job : Type} {config : Config σ X Job} {tid : ℕ} {proc : Proc σ X Job}

/-- The calls that a process has made, latest first; none if there is no such process. -/
def said (config : Config σ X Job) (tid : ℕ) : List (Said X) :=
  match config.procs tid with
  | some proc => proc.own.calls
  | none => []

theorem said_of_found (found : config.procs tid = some proc) :
    config.said tid = proc.own.calls := by
  simp [said, found]

theorem said_of_absent (absent : config.procs tid = none) : config.said tid = [] := by
  simp [said, absent]

theorem said_update (proc : Proc σ X Job) (world : World σ X) :
    (config.update tid proc world).said = Function.update config.said tid proc.own.calls := by
  funext other
  by_cases same : other = tid
  · subst same
    rw [Function.update_self]
    exact said_of_found (Function.update_self _ _ _)
  · rw [Function.update_of_ne same]
    simp only [said, Config.update, Function.update_of_ne same]

/-- What a process has said is the call that was added, or was said before. -/
theorem mem_said_update {said : ℕ → List (Said X)} {actor : ℕ} {added other : Said X}
    (member : other ∈ Function.update said actor (added :: said actor) tid) :
    other = added ∨ other ∈ said tid := by
  by_cases own : tid = actor
  · subst own
    rw [Function.update_self] at member
    exact List.mem_cons.mp member
  · rw [Function.update_of_ne own] at member
    exact Or.inr member

end Said

variable {config next before after : Config σ X system.Job} {tid : ℕ}
  {proc : Proc σ X system.Job} {choice : Move X system.Job}

theorem said_spawn (numbered : config.Numbered) (job : system.Job) :
    (Config.spawn system config job).said = config.said := by
  have absent : config.procs config.tids = none := by
    by_contra there
    obtain ⟨proc, found⟩ := Option.ne_none_iff_exists'.mp there
    exact (numbered config.tids proc found).false
  funext other
  by_cases newest : other = config.tids
  · subst newest
    rw [said_of_absent absent]
    simp [said, Config.spawn]
  · simp only [said, Config.spawn, Function.update_of_ne newest]

theorem said_spawnAll (numbered : config.Numbered) (jobs : List system.Job) :
    (jobs.foldl (Config.spawn system) config).said = config.said := by
  induction jobs generalizing config with
  | nil => rfl
  | cons job rest ih =>
      rw [List.foldl_cons, ih (numbered.spawn job).numbered, said_spawn numbered]

/-- The turn of a process is a call, or adds none and leaves the outside alone. -/
theorem calls_turn {own : Local σ X} {life : Life σ X system.Job} {world : World σ X}
    {jobs : List system.Job} (turn : Turn system config tid proc own life world jobs) :
    (own.calls = proc.own.calls ∧ world.env = config.world.env) ∨
      ∃ said, own.calls = said :: proc.own.calls ∧
        world.env = X.perform said.call said.reply config.world.env := by
  cases turn with
  | finish _ finished =>
      rcases finish_cases finished with ⟨_, -, rfl, rfl⟩ |
        ⟨_, _, -, -, -, ⟨-, _, -, -, rfl, rfl⟩ | ⟨-, rfl, ⟨-, rfl⟩ | ⟨-, rfl⟩⟩⟩
      · exact Or.inl ⟨proc.own.calls_fail _, rfl⟩
      · exact Or.inl ⟨rfl, rfl⟩
      · exact Or.inl ⟨rfl, rfl⟩
      · exact Or.inl ⟨rfl, rfl⟩
  | failExec => exact Or.inl ⟨proc.own.calls_fail _, rfl⟩
  | commit => exact Or.inl ⟨rfl, proc.own.env_committed config.world⟩
  | call reply => exact Or.inr ⟨_, rfl, rfl⟩
  | _ => exact Or.inl ⟨rfl, rfl⟩

/-- A move is a call of one process, or adds none and leaves the outside alone. -/
theorem said_move (numbered : config.Numbered)
    (moved : Config.move system config choice = some next) :
    (next.said = config.said ∧ next.world.env = config.world.env) ∨
      ∃ tid said, next.said = Function.update config.said tid (said :: config.said tid) ∧
        next.world.env = X.perform said.call said.reply config.world.env := by
  rcases move_cases moved with ⟨-, ⟨job, rfl⟩ | ⟨ticks, rfl⟩⟩ |
    ⟨tid, proc, own, life, world, jobs, -, found, turn, rfl⟩
  · exact Or.inl ⟨said_spawn numbered job, rfl⟩
  · exact Or.inl ⟨rfl, rfl⟩
  · have continues := numbered.update found own life world
    rw [said_spawnAll continues.numbered, world_spawnAll, said_update]
    rcases calls_turn turn with ⟨same, env⟩ | ⟨said, grown, env⟩
    · refine Or.inl ⟨?_, env⟩
      rw [same, ← said_of_found found, Function.update_eq_self]
    · refine Or.inr ⟨tid, said, ?_, env⟩
      rw [grown, said_of_found found]

/-- Calls are not taken back. -/
theorem said_suffix (numbered : config.Numbered)
    (moved : Config.move system config choice = some next) (tid : ℕ) :
    config.said tid <:+ next.said tid := by
  rcases said_move numbered moved with ⟨same, -⟩ | ⟨actor, said, grown, -⟩
  · exact same ▸ List.suffix_rfl
  · by_cases own : tid = actor
    · subst own
      rw [grown, Function.update_self]
      exact List.suffix_cons _ _
    · simp only [grown, Function.update_of_ne own, List.suffix_rfl]

/-- What holds at first and is kept by every move holds at any time. -/
theorem Reachable.always {inv : Config σ X system.Job → Prop}
    (reachable : Config.Reachable system config) (first : inv (Config.initial system))
    (step : ∀ {config next : Config σ X system.Job} {choice : Move X system.Job},
      Config.Reachable system config → Config.move system config choice = some next →
      inv config → inv next) : inv config := by
  induction reachable with
  | initial => exact first
  | move prior choice moved ih => exact step prior moved ih

theorem Leads.said_suffix (leads : Leads system before after) (numbered : before.Numbered)
    (tid : ℕ) : before.said tid <:+ after.said tid := by
  induction leads with
  | refl => exact List.suffix_rfl
  | tail rest moved ih =>
      obtain ⟨choice, moved⟩ := moved
      have arrived := Config.Leads.continues rest numbered
      exact ih.trans (Config.said_suffix arrived.numbered moved tid)

end Config

namespace Keeps

variable {config : Config σ X system.Job}

/-- The calls of a commit are calls of its process. -/
theorem recorded (keeps : Keeps system ok terms) (reachable : Config.Reachable system config)
    (agrees : config.Agrees terms.jobs) {c : Commit σ X} (member : c ∈ config.world.history) :
    c.calls <:+ config.said c.tid := by
  obtain ⟨proc, found⟩ :=
    Option.ne_none_iff_exists'.mp (keeps.committed reachable agrees c member)
  rw [Config.said_of_found found]
  exact (keeps.inv reachable agrees).recorded c.tid proc found c member rfl

/-- Every call of every process was allowed when it was made. -/
theorem allowed (keeps : Keeps system ok terms) (reachable : Config.Reachable system config)
    (agrees : config.Agrees terms.jobs) {tid : ℕ} {said : Said X}
    (member : said ∈ config.said tid) :
    ∃ seen earlier, seen <:+ config.world.history ∧ ok.calls tid earlier said.call seen := by
  cases found : config.procs tid with
  | none =>
      rw [Config.said_of_absent found] at member
      exact absurd member List.not_mem_nil
  | some proc =>
      rw [Config.said_of_found found] at member
      obtain ⟨later, earlier, whole⟩ := List.append_of_mem member
      obtain ⟨seen, old, allowed⟩ :=
        keeps.spoken reachable agrees found said earlier ⟨later, whole.symm⟩
      exact ⟨seen, earlier, old, allowed⟩

end Keeps

end ReadCommitted

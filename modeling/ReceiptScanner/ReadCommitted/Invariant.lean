import ReceiptScanner.ReadCommitted.Integrity
import ReceiptScanner.ReadCommitted.Logic
import ReceiptScanner.ReadCommitted.Processes

/-!
# The invariant of a verified system

`Keeps system ok terms` says that every job of the system, started when `ready`,
keeps the guarantee `ok`. `Config.Inv` is what then holds in every state: each
process is safe from the point it has reached, no two hold locks that exclude
one another, and the start times in use tell transactions apart. `Config.Acts`
lists what a step of one process has to do to keep it.
-/

namespace ReadCommitted

variable {σ : Signature} {X : Interface}

/-- A transaction with this now() began after exactly the oldest `began` commits. -/
def Began (history : History σ X) (start began : ℕ) : Prop :=
  ∃ earlier : History σ X, earlier <:+ history ∧ earlier.length = began ∧
    ∀ commit ∈ earlier, commit.stop < start

theorem Began.mono {history later : History σ X} {start began : ℕ}
    (before : Began history start began) (grown : history <:+ later) :
    Began later start began := by
  obtain ⟨earlier, suffix, length, less⟩ := before
  exact ⟨earlier, suffix.trans grown, length, less⟩

/-- Start and stop times order and tell apart the commits of a history. -/
structure Timely (history : History σ X) : Prop where
  began : ∀ commit earlier, commit :: earlier <:+ history →
    Began earlier commit.start commit.began
  ordered : history.Pairwise fun later earlier => earlier.stop < later.stop
  distinct : history.Pairwise fun later earlier => later.start ≠ earlier.start
  lasting : ∀ commit ∈ history, commit.start < commit.stop

/-- What a commit saw before it began had stopped before it began. -/
theorem Timely.stop_lt {history : History σ X} (timely : Timely history)
    {commit : Commit σ X} {earlier seen : History σ X} (at_ : commit :: earlier <:+ history)
    (suffix : seen <:+ earlier) (short : seen.length ≤ commit.began) :
    ∀ other ∈ seen, other.stop < commit.start := by
  obtain ⟨before, beforeSuffix, length, less⟩ := timely.began commit earlier at_
  have inside : seen <:+ before := List.suffix_of_suffix_length_le suffix beforeSuffix (by omega)
  exact fun other member => less other (inside.subset member)

/-- What a job may rely on when it starts, and what holds once its program has ended,
of its answer, the calls it has made and the history. `jobs` tells, in hindsight,
which process does which job. -/
structure Terms (σ : Signature) (X : Interface) (Job : Type) where
  jobs : ℕ → Option Job
  ready : Job → History σ X → Prop
  done : Job → X.Answer → ℕ → List (Said X) → History σ X → Prop

/-- Every call was allowed when it was made. -/
def Spoken (ok : Guarantee σ X) (tid : ℕ) (calls : List (Said X)) (history : History σ X) : Prop :=
  ∀ said earlier, said :: earlier <:+ calls →
    ∃ seen, seen <:+ history ∧ ok.calls tid earlier said.call seen

theorem Spoken.mono {ok : Guarantee σ X} {tid : ℕ} {calls : List (Said X)}
    {history later : History σ X} (spoken : Spoken ok tid calls history)
    (grown : history <:+ later) : Spoken ok tid calls later := by
  intro c earlier suffix
  obtain ⟨seen, old, allowed⟩ := spoken c earlier suffix
  exact ⟨seen, old.trans grown, allowed⟩

/-- One more call. -/
theorem Spoken.cons {ok : Guarantee σ X} {tid : ℕ} {calls : List (Said X)} {said : Said X}
    {history : History σ X} (spoken : Spoken ok tid calls history)
    (allowed : ok.calls tid calls said.call history) : Spoken ok tid (said :: calls) history := by
  intro other earlier suffix
  rcases List.suffix_cons_iff.mp suffix with equal | inside
  · obtain ⟨rfl, rfl⟩ := List.cons.inj equal
    exact ⟨history, List.suffix_rfl, allowed⟩
  · exact spoken other earlier inside

namespace Proc

variable {Job : Type}

/-- The statement under way, if any. -/
def flight (proc : Proc σ X Job) : Option (Flight σ X) :=
  match proc.life with
  | .running _ flight => flight
  | _ => none

/-- The transaction start times a process may still commit under. -/
def starts (proc : Proc σ X Job) : List ℕ :=
  (proc.own.txn.map Txn.start).toList ++ (proc.flight.map Flight.start).toList

/-- What a program leaves at its end: jobs that are ready, and its own terms kept. -/
def post {Job : Type} (terms : Terms σ X Job) (job : Job) : Post σ X (Ending X Job) :=
  fun ending own world => (∀ other ∈ ending.2, terms.ready other world.history) ∧
    terms.done job ending.1 own.tid own.calls world.history

/-- A process is safe: its program is, from the point it has reached. -/
def Safe (ok : Guarantee σ X) (schema : Schema σ) (terms : Terms σ X Job) (proc : Proc σ X Job)
    (world : World σ X) : Prop :=
  match proc.life with
  | .running prog none => prog.wp ok schema (post terms proc.job) proc.own world
  | .running (.exec inTxn stmt next) (some flight) =>
      FlightSafe ok schema inTxn stmt flight
        (fun reply => (next reply).wp ok schema (post terms proc.job)) proc.own world
  | .running _ (some _) => False
  | .ended answer => terms.done proc.job answer proc.own.tid proc.own.calls world.history
  | .crashed => True

end Proc

/-- Every job, once `ready`, keeps the guarantee and ends `done`. -/
structure Keeps (system : System σ X) (ok : Guarantee σ X) (terms : Terms σ X system.Job) :
    Prop where
  root : ∀ job history, system.root job = true → terms.ready job history
  mono : ∀ job history later, history <:+ later → terms.ready job history →
    terms.ready job later
  lasting : ∀ job answer tid calls history later, Foreign tid history later →
    terms.done job answer tid calls history → terms.done job answer tid calls later
  safe : ∀ job tid world, terms.jobs tid = some job → terms.ready job world.history →
    world.WellFormed →
    History.ofTid tid world.history = [] →
    (system.prog job).wp ok system.schema (Proc.post terms job) { tid := tid } world

/-- What a job leaves stays so while others run. -/
theorem Keeps.stable {system : System σ X} {ok : Guarantee σ X} {terms : Terms σ X system.Job}
    (keeps : Keeps system ok terms) (job : system.Job) : Stable ok (Proc.post terms job) :=
  fun _ _ _ _ rely holds =>
    ⟨fun other member => keeps.mono other _ _ rely.suffix (holds.1 other member),
      keeps.lasting _ _ _ _ _ _ rely.foreign holds.2⟩

/-- Jobs that rely on nothing, and whose ends nobody relies on. -/
def Terms.free {Job : Type} (jobs : ℕ → Option Job) : Terms σ X Job where
  jobs := jobs
  ready _ _ := True
  done _ _ _ _ _ := True

/-- Jobs that keep a guarantee, whatever they end with. -/
theorem Keeps.of_free {system : System σ X} {ok : Guarantee σ X} {jobs : ℕ → Option system.Job}
    (safe : ∀ job tid world, jobs tid = some job →
      (system.prog job).wp ok system.schema (fun _ _ _ => True) { tid := tid } world) :
    Keeps system ok (Terms.free jobs) where
  root _ _ _ := trivial
  mono _ _ _ _ _ := trivial
  lasting _ _ _ _ _ _ _ _ := trivial
  safe job tid world assigned _ _ _ := Prog.wp_mono (fun _ _ _ _ => ⟨fun _ _ => trivial, trivial⟩)
    (safe job tid world assigned)

/-- A safe process stays safe while another acts. -/
theorem Proc.Safe.interfere {system : System σ X} {ok : Guarantee σ X}
    {terms : Terms σ X system.Job} (keeps : Keeps system ok terms)
    {proc : Proc σ X system.Job} {before after : World σ X}
    (safe : proc.Safe ok system.schema terms before)
    (step : Interferes ok proc.own before after) : proc.Safe ok system.schema terms after := by
  obtain ⟨job, own, life⟩ := proc
  rcases life with ⟨prog, _ | flight⟩ | _ | _
  · exact Prog.wp_rely (keeps.stable job) (Rely.single step) safe
  · cases prog with
    | exec => exact fun later further wf => safe later ((Rely.single step).trans further) wf
    | _ => exact safe
  · exact keeps.lasting _ _ _ _ _ _ (Rely.single step).foreign safe
  · trivial

/-- The writes of the open transaction are to rows it has locked. -/
abbrev Local.Covered (own : Local σ X) (history : History σ X) : Prop :=
  Covers history own.locks own.writes

/-- A commit that excludes none of its locks keeps a transaction's writes covered. -/
theorem Local.Covered.grow {own : Local σ X} {history : History σ X} {commit : Commit σ X}
    (mine : own.Covered history) (covered : commit.Covered history)
    (compatible : Compatible commit.locks own.locks) : own.Covered (commit :: history) := by
  intro write member
  obtain ⟨lock, held, sameTable, sameId, strength⟩ := mine write member
  refine ⟨lock, held, sameTable, sameId, strength.imp_right ?_⟩
  rintro ⟨mode, keeps, present⟩
  refine ⟨mode, keeps, ?_⟩
  obtain ⟨lockTable, lockId, lockMode⟩ := lock
  simp only at sameTable sameId
  subst sameTable sameId
  exact Rely.get_ne_none_of_locked held covered compatible present

/-- Interference keeps a transaction's writes covered. -/
theorem Local.Covered.interfere {ok : Guarantee σ X} {own : Local σ X} {before after : World σ X}
    (covered : own.Covered before.history) (step : Interferes ok own before after) :
    own.Covered after.history := by
  rcases step.history with same | ⟨commit, grown, -, theirs, compatible, -⟩
  · rwa [same]
  · rw [grown]
    exact covered.grow theirs compatible

/-- The locks a finishing statement takes cover its writes. -/
theorem Local.Covered.locksFor {own : Local σ X} {history : History σ X}
    (covered : own.Covered history) (schema : Schema σ) {β : Type} {outcome : Outcome σ β}
    {write : Write σ} (member : write ∈ outcome.writes) :
    ∃ lock ∈ own.locks ++ schema.locksFor (own.view history) outcome,
      lock.table = write.table ∧ lock.id = write.id ∧
        (lock.mode = .update ∨ (lock.mode = .noKeyUpdate ∧ write.row ≠ none ∧
          (History.db history write.table).get write.id ≠ none)) := by
  have taken : Schema.lockOf (own.view history) write ∈ schema.locksFor (own.view history) outcome := by
    simp only [Schema.locksFor, List.mem_append, List.mem_map]
    exact Or.inl (Or.inr ⟨write, member, rfl⟩)
  cases atCur : (own.view history write.table).get write.id with
  | none => exact ⟨_, List.mem_append_right _ taken, rfl, rfl, by simp [Schema.lockOf, atCur]⟩
  | some current =>
      cases atRow : write.row with
      | none =>
          exact ⟨_, List.mem_append_right _ taken, rfl, rfl, by simp [Schema.lockOf, atCur, atRow]⟩
      | some row =>
          rcases Db.get_writes_cases (History.db history) own.writes write.table write.id with
            ⟨same, -⟩ | ⟨stored, label, mine, -⟩
          · refine ⟨_, List.mem_append_right _ taken, rfl, rfl, Or.inr ⟨?_, by simp, ?_⟩⟩
            · simp [Schema.lockOf, atCur, atRow]
            · rw [Local.view, same] at atCur
              simp [atCur]
          · obtain ⟨lock, held, sameTable, sameId, strength⟩ := covered _ mine
            refine ⟨lock, List.mem_append_left _ held, sameTable, sameId, strength.imp_right ?_⟩
            rintro ⟨mode, -, present⟩
            exact ⟨mode, by simp, present⟩

/-- The invariant of a verified system. -/
structure Config.Inv (system : System σ X) (ok : Guarantee σ X)
    (terms : Terms σ X system.Job) (config : Config σ X system.Job) : Prop where
  wellFormed : config.world.WellFormed
  numbered : ∀ commit ∈ config.world.history, commit.tid < config.tids
  kept : ∀ commit earlier, commit :: earlier <:+ config.world.history → ok.commits earlier commit
  timely : Timely config.world.history
  named : ∀ tid proc, config.procs tid = some proc → tid < config.tids ∧ proc.own.tid = tid
  compatible : ∀ i j p q, config.procs i = some p → config.procs j = some q → i ≠ j →
    Compatible p.own.locks q.own.locks
  covered : ∀ tid proc, config.procs tid = some proc → proc.own.Covered config.world.history
  drawn : ∀ tid proc, config.procs tid = some proc → ∀ write ∈ proc.own.writes,
    write.id < config.world.next write.table
  begun : ∀ tid proc, config.procs tid = some proc → ∀ txn, proc.own.txn = some txn →
    Began config.world.history txn.start txn.began
  flown : ∀ tid proc, config.procs tid = some proc → ∀ flight, proc.flight = some flight →
    Began config.world.history flight.start flight.history.length ∧
      flight.history <:+ config.world.history
  fresh : ∀ tid proc, config.procs tid = some proc → proc.starts.Nodup ∧
    ∀ start ∈ proc.starts, start < config.world.clock ∧
      ∀ commit ∈ config.world.history, commit.start ≠ start
  apart : ∀ i j p q, config.procs i = some p → config.procs j = some q → i ≠ j →
    p.starts.Disjoint q.starts
  recorded : ∀ tid proc, config.procs tid = some proc → ∀ commit ∈ config.world.history,
    commit.tid = tid → commit.calls <:+ proc.own.calls
  spoken : ∀ tid proc, config.procs tid = some proc →
    Spoken ok proc.own.tid proc.own.calls config.world.history
  safe : ∀ tid proc, config.procs tid = some proc →
    proc.Safe ok system.schema terms config.world
  prepared : ∀ tid proc, config.procs tid = some proc →
    terms.ready proc.job config.world.history
  intact : ∀ earlier : History σ X, earlier <:+ config.world.history →
    Intact system.schema earlier.db
  whole : ∀ tid proc, config.procs tid = some proc →
    Intact system.schema (proc.own.view config.world.history)
  referenced : ∀ tid proc, config.procs tid = some proc →
    Referenced system.schema config.world.history proc.own.locks proc.own.writes

/-- A step of process `tid`, from `proc` to `proc'`, commits within the rules. -/
structure Config.Commits {Job : Type} (schema : Schema σ) (ok : Guarantee σ X)
    (config : Config σ X Job) (tid : ℕ) (proc proc' : Proc σ X Job) (world : World σ X)
    (commit : Commit σ X) : Prop where
  grown : world.history = commit :: config.world.history
  named : commit.tid = tid
  calls : commit.calls = proc'.own.calls
  covered : commit.Covered config.world.history
  good : ok.commits config.world.history commit
  compatible : ∀ other q, config.procs other = some q → other ≠ tid →
    Compatible commit.locks q.own.locks
  started : commit.start ∈ proc.starts
  gone : commit.start ∉ proc'.starts
  began : Began config.world.history commit.start commit.began
  late : config.world.clock ≤ commit.stop
  passed : commit.stop < world.clock
  drawn : ∀ write ∈ commit.writes, write.id < world.next write.table
  intact : Intact schema (History.db (commit :: config.world.history))
  referenced : Referenced schema config.world.history commit.locks commit.writes

/-- What one step of process `tid`, from `proc` to `proc'`, has to do to keep
the invariant. -/
structure Config.Acts (system : System σ X) (ok : Guarantee σ X)
    (terms : Terms σ X system.Job) (config : Config σ X system.Job) (tid : ℕ)
    (proc proc' : Proc σ X system.Job) (world : World σ X) : Prop where
  job : proc'.job = proc.job
  named : proc'.own.tid = proc.own.tid
  clock : config.world.clock ≤ world.clock
  next : ∀ table, config.world.next table ≤ world.next table
  history : world.history = config.world.history ∨
    ∃ commit, config.Commits system.schema ok tid proc proc' world commit
  compatible : ∀ other q, config.procs other = some q → other ≠ tid →
    Compatible proc'.own.locks q.own.locks
  covered : proc'.own.Covered world.history
  drawn : ∀ write ∈ proc'.own.writes, write.id < world.next write.table
  begun : ∀ txn, proc'.own.txn = some txn → Began world.history txn.start txn.began
  flown : ∀ flight, proc'.flight = some flight →
    Began world.history flight.start flight.history.length ∧ flight.history <:+ world.history
  nodup : proc'.starts.Nodup
  starts : ∀ start ∈ proc'.starts, start ∈ proc.starts ∨
    (start = config.world.clock ∧ config.world.clock < world.clock)
  calls : proc'.own.calls = proc.own.calls ∨ ∃ said, proc'.own.calls = said :: proc.own.calls ∧
    ok.calls proc.own.tid proc.own.calls said.call config.world.history
  safe : proc'.Safe ok system.schema terms world
  whole : Intact system.schema (proc'.own.view world.history)
  referenced : Referenced system.schema world.history proc'.own.locks proc'.own.writes

namespace Config.Inv

variable {system : System σ X} {ok : Guarantee σ X} {terms : Terms σ X system.Job}
  {config : Config σ X system.Job} {tid : ℕ} {proc proc' : Proc σ X system.Job}
  {world : World σ X}

/-- An acting process interferes with the others only as the rules allow. -/
theorem interferes (inv : config.Inv system ok terms)
    (acts : Config.Acts system ok terms config tid proc proc' world)
    (wf : world.WellFormed) {other : ℕ} {q : Proc σ X system.Job}
    (found : config.procs other = some q) (different : other ≠ tid) :
    Interferes ok q.own config.world world where
  clock := acts.clock
  next := acts.next
  history := by
    refine acts.history.imp_right ?_
    rintro ⟨commit, commits⟩
    refine ⟨commit, commits.grown, ?_, commits.covered,
      commits.compatible other q found different, commits.good⟩
    rw [commits.named, (inv.named other q found).2]
    exact Ne.symm different
  wellFormed := wf

/-- The world stays well formed. -/
theorem act_wellFormed (inv : config.Inv system ok terms) (found : config.procs tid = some proc)
    (acts : Config.Acts system ok terms config tid proc proc' world) : world.WellFormed := by
  have old : ∀ commit ∈ config.world.history, (commit.start < commit.stop ∧
      commit.stop < world.clock) ∧ ∀ write ∈ commit.writes, write.id < world.next write.table :=
    fun commit member =>
      ⟨⟨inv.wellFormed.started commit member,
        (inv.wellFormed.stopped commit member).trans_le acts.clock⟩, fun write written =>
        (inv.wellFormed.drawn commit member write written).trans_le (acts.next _)⟩
  have all : ∀ commit ∈ world.history, (commit.start < commit.stop ∧
      commit.stop < world.clock) ∧ ∀ write ∈ commit.writes, write.id < world.next write.table := by
    rcases acts.history with same | ⟨commit, commits⟩
    · rw [same]
      exact old
    · rw [commits.grown]
      intro other member
      rcases List.mem_cons.mp member with rfl | earlier
      · have started := ((inv.fresh tid proc found).2 _ commits.started).1
        exact ⟨⟨started.trans_le commits.late, commits.passed⟩, commits.drawn⟩
      · exact old other earlier
  exact ⟨fun commit member => (all commit member).1.1, fun commit member => (all commit member).1.2,
    fun commit member => (all commit member).2⟩

/-- The history stays timely. -/
theorem act_timely (inv : config.Inv system ok terms) (found : config.procs tid = some proc)
    (acts : Config.Acts system ok terms config tid proc proc' world) : Timely world.history := by
  rcases acts.history with same | ⟨commit, commits⟩
  · rw [same]
    exact inv.timely
  · rw [commits.grown]
    constructor
    case began =>
      intro other earlier suffix
      rcases List.suffix_cons_iff.mp suffix with equal | inside
      · obtain ⟨rfl, rfl⟩ := List.cons.inj equal
        exact commits.began
      · exact inv.timely.began other earlier inside
    case ordered =>
      refine List.pairwise_cons.mpr ⟨fun other member => ?_, inv.timely.ordered⟩
      exact (inv.wellFormed.stopped other member).trans_le commits.late
    case distinct =>
      refine List.pairwise_cons.mpr ⟨fun other member => ?_, inv.timely.distinct⟩
      exact (((inv.fresh tid proc found).2 _ commits.started).2 other member).symm
    case lasting =>
      intro other member
      rcases List.mem_cons.mp member with rfl | earlier
      · exact ((inv.fresh tid proc found).2 _ commits.started).1.trans_le commits.late
      · exact inv.timely.lasting other earlier

/-- Every commit still keeps the guarantee. -/
theorem act_kept (inv : config.Inv system ok terms)
    (acts : Config.Acts system ok terms config tid proc proc' world) (commit : Commit σ X)
    (earlier : History σ X) (suffix : commit :: earlier <:+ world.history) :
    ok.commits earlier commit := by
  rcases acts.history with same | ⟨last, commits⟩
  · exact inv.kept commit earlier (same ▸ suffix)
  · rw [commits.grown] at suffix
    rcases List.suffix_cons_iff.mp suffix with equal | inside
    · obtain ⟨rfl, rfl⟩ := List.cons.inj equal
      exact commits.good
    · exact inv.kept commit earlier inside

/-- A step of one process keeps the invariant. -/
theorem act (inv : config.Inv system ok terms) (keeps : Keeps system ok terms)
    (found : config.procs tid = some proc)
    (acts : Config.Acts system ok terms config tid proc proc' world) :
    (config.update tid proc' world).Inv system ok terms := by
  have wf := inv.act_wellFormed found acts
  have grown : config.world.history <:+ world.history := by
    rcases acts.history with same | ⟨commit, commits⟩
    · exact same ▸ List.suffix_rfl
    · exact commits.grown ▸ List.suffix_cons commit _
  have split : ∀ other q, (config.update tid proc' world).procs other = some q →
      (other = tid ∧ q = proc') ∨ (other ≠ tid ∧ config.procs other = some q) := by
    intro other q at_
    by_cases same : other = tid
    · subst same
      simp only [Config.update, Function.update_self, Option.some.injEq] at at_
      exact Or.inl ⟨rfl, at_.symm⟩
    · simp only [Config.update, Function.update_of_ne same] at at_
      exact Or.inr ⟨same, at_⟩
  have newStarts : ∀ other q, config.procs other = some q → other ≠ tid →
      proc'.starts.Disjoint q.starts := by
    intro other q at_ different start mine theirs
    rcases acts.starts start mine with old | ⟨rfl, -⟩
    · exact inv.apart tid other proc q found at_ (Ne.symm different) old theirs
    · exact absurd ((inv.fresh other q at_).2 _ theirs).1 (lt_irrefl _)
  constructor
  case wellFormed => exact wf
  case numbered =>
    intro commit committed
    change commit ∈ world.history at committed
    rcases acts.history with same | ⟨last, commits⟩
    · exact inv.numbered commit (same ▸ committed)
    · rw [commits.grown] at committed
      rcases List.mem_cons.mp committed with rfl | earlier
      · rw [commits.named]
        exact (inv.named tid proc found).1
      · exact inv.numbered commit earlier
  case kept => exact inv.act_kept acts
  case timely => exact inv.act_timely found acts
  case named =>
    intro other q at_
    rcases split other q at_ with ⟨rfl, rfl⟩ | ⟨-, old⟩
    · exact ⟨(inv.named other proc found).1, acts.named.trans (inv.named other proc found).2⟩
    · exact inv.named other q old
  case compatible =>
    intro i j p q atI atJ different
    rcases split i p atI with ⟨rfl, rfl⟩ | ⟨iOther, oldI⟩ <;>
      rcases split j q atJ with ⟨rfl, rfl⟩ | ⟨jOther, oldJ⟩
    · exact absurd rfl different
    · exact acts.compatible j q oldJ jOther
    · exact (acts.compatible i p oldI iOther).symm
    · exact inv.compatible i j p q oldI oldJ different
  case covered =>
    intro other q at_
    rcases split other q at_ with ⟨rfl, rfl⟩ | ⟨different, old⟩
    · exact acts.covered
    · exact (inv.covered other q old).interfere (inv.interferes acts wf old different)
  case drawn =>
    intro other q at_ write member
    rcases split other q at_ with ⟨rfl, rfl⟩ | ⟨-, old⟩
    · exact acts.drawn write member
    · exact (inv.drawn other q old write member).trans_le (acts.next _)
  case begun =>
    intro other q at_ txn atTxn
    rcases split other q at_ with ⟨rfl, rfl⟩ | ⟨-, old⟩
    · exact acts.begun txn atTxn
    · exact (inv.begun other q old txn atTxn).mono grown
  case flown =>
    intro other q at_ flight atFlight
    rcases split other q at_ with ⟨rfl, rfl⟩ | ⟨-, old⟩
    · exact acts.flown flight atFlight
    · obtain ⟨began, suffix⟩ := inv.flown other q old flight atFlight
      exact ⟨began.mono grown, suffix.trans grown⟩
  case fresh =>
    intro other q at_
    rcases split other q at_ with ⟨rfl, rfl⟩ | ⟨different, old⟩
    · refine ⟨acts.nodup, fun start member => ?_⟩
      have below : start < world.clock ∧ ∀ commit ∈ config.world.history, commit.start ≠ start := by
        rcases acts.starts start member with before | ⟨rfl, ticked⟩
        · obtain ⟨less, unused⟩ := (inv.fresh other proc found).2 start before
          exact ⟨less.trans_le acts.clock, unused⟩
        · exact ⟨ticked, fun commit old => ((inv.wellFormed.started commit old).trans
            (inv.wellFormed.stopped commit old)).ne⟩
      refine ⟨below.1, fun commit committed => ?_⟩
      change commit ∈ world.history at committed
      rcases acts.history with same | ⟨last, commits⟩
      · exact below.2 commit (same ▸ committed)
      · rw [commits.grown] at committed
        rcases List.mem_cons.mp committed with rfl | earlier
        · exact fun equal => commits.gone (equal ▸ member)
        · exact below.2 commit earlier
    · obtain ⟨nodup, below⟩ := inv.fresh other q old
      refine ⟨nodup, fun start member => ?_⟩
      obtain ⟨less, unused⟩ := below start member
      refine ⟨less.trans_le acts.clock, fun commit committed => ?_⟩
      change commit ∈ world.history at committed
      rcases acts.history with same | ⟨last, commits⟩
      · exact unused commit (same ▸ committed)
      · rw [commits.grown] at committed
        rcases List.mem_cons.mp committed with rfl | earlier
        · exact fun equal => inv.apart tid other proc q found old (Ne.symm different)
            commits.started (equal ▸ member)
        · exact unused commit earlier
  case apart =>
    intro i j p q atI atJ different
    rcases split i p atI with ⟨rfl, rfl⟩ | ⟨iOther, oldI⟩ <;>
      rcases split j q atJ with ⟨rfl, rfl⟩ | ⟨jOther, oldJ⟩
    · exact absurd rfl different
    · exact newStarts j q oldJ jOther
    · exact List.disjoint_symm (newStarts i p oldI iOther)
    · exact inv.apart i j p q oldI oldJ different
  case recorded =>
    intro other q at_ commit committed named
    change commit ∈ world.history at committed
    have mine : ∀ last ∈ config.world.history, last.tid = tid → last.calls <:+ proc'.own.calls := by
      intro last old same
      refine (inv.recorded tid proc found last old same).trans ?_
      rcases acts.calls with equal | ⟨said, made, -⟩
      · exact equal ▸ List.suffix_rfl
      · exact made ▸ List.suffix_cons _ _
    rcases acts.history with same | ⟨last, commits⟩
    · rw [same] at committed
      rcases split other q at_ with ⟨rfl, rfl⟩ | ⟨-, old⟩
      · exact mine commit committed named
      · exact inv.recorded other q old commit committed named
    · rw [commits.grown] at committed
      rcases List.mem_cons.mp committed with rfl | earlier
      · rcases split other q at_ with ⟨rfl, rfl⟩ | ⟨different, -⟩
        · exact commits.calls ▸ List.suffix_rfl
        · exact absurd (named.symm.trans commits.named) different
      · rcases split other q at_ with ⟨rfl, rfl⟩ | ⟨-, old⟩
        · exact mine commit earlier named
        · exact inv.recorded other q old commit earlier named
  case spoken =>
    intro other q at_
    rcases split other q at_ with ⟨rfl, rfl⟩ | ⟨-, old⟩
    · rw [acts.named]
      refine Spoken.mono ?_ grown
      rcases acts.calls with same | ⟨c, made, allowed⟩
      · rw [same]
        exact inv.spoken other proc found
      · rw [made]
        exact (inv.spoken other proc found).cons allowed
    · exact (inv.spoken other q old).mono grown
  case safe =>
    intro other q at_
    rcases split other q at_ with ⟨rfl, rfl⟩ | ⟨different, old⟩
    · exact acts.safe
    · exact (inv.safe other q old).interfere keeps (inv.interferes acts wf old different)
  case prepared =>
    intro other q at_
    rcases split other q at_ with ⟨rfl, rfl⟩ | ⟨-, old⟩
    · rw [acts.job]
      exact keeps.mono _ _ _ grown (inv.prepared other proc found)
    · exact keeps.mono _ _ _ grown (inv.prepared other q old)
  case intact =>
    intro earlier suffix
    rcases acts.history with same | ⟨commit, commits⟩
    · exact inv.intact earlier (same ▸ suffix)
    · change earlier <:+ world.history at suffix
      rw [commits.grown] at suffix
      rcases List.suffix_cons_iff.mp suffix with rfl | inside
      · exact commits.intact
      · exact inv.intact earlier inside
  case whole =>
    intro other q at_
    rcases split other q at_ with ⟨rfl, rfl⟩ | ⟨different, old⟩
    · exact acts.whole
    · change Intact system.schema (q.own.view world.history)
      rcases acts.history with same | ⟨commit, commits⟩
      · rw [same]
        exact inv.whole other q old
      · rw [commits.grown]
        exact (inv.whole other q old).grow (inv.covered other q old) (inv.referenced other q old)
          commits.covered (commits.compatible other q old different) commits.referenced
          commits.intact
  case referenced =>
    intro other q at_
    rcases split other q at_ with ⟨rfl, rfl⟩ | ⟨different, old⟩
    · exact acts.referenced
    · change Referenced system.schema world.history q.own.locks q.own.writes
      rcases acts.history with same | ⟨commit, commits⟩
      · rw [same]
        exact inv.referenced other q old
      · rw [commits.grown]
        exact (inv.referenced other q old).grow (inv.covered other q old) commits.covered
          (commits.compatible other q old different)

end Config.Inv

section OwnSteps

variable (own : Local σ X)

@[simp] theorem Local.tid_fail (inTxn : Bool) : (own.fail inTxn).tid = own.tid := by
  cases inTxn <;> rfl

@[simp] theorem Local.calls_fail (inTxn : Bool) : (own.fail inTxn).calls = own.calls := by
  cases inTxn <;> rfl

@[simp] theorem Local.locks_fail (inTxn : Bool) : (own.fail inTxn).locks = own.locks := by
  cases inTxn
  · rfl
  · cases atTxn : own.txn <;> simp [Local.fail, Local.locks, atTxn]

@[simp] theorem Local.writes_fail (inTxn : Bool) : (own.fail inTxn).writes = own.writes := by
  cases inTxn
  · rfl
  · cases atTxn : own.txn <;> simp [Local.fail, Local.writes, atTxn]

/-- A failed transaction is the same one, aborted. -/
theorem Local.txn_fail {inTxn : Bool} {txn : Txn σ} (failed : (own.fail inTxn).txn = some txn) :
    ∃ before, own.txn = some before ∧ txn.start = before.start ∧ txn.began = before.began ∧
      txn.writes = before.writes ∧ txn.locks = before.locks := by
  cases inTxn
  · exact ⟨txn, failed, rfl, rfl, rfl, rfl⟩
  · obtain ⟨before, atTxn, rfl⟩ := Option.map_eq_some_iff.mp failed
    exact ⟨before, atTxn, rfl, rfl, rfl, rfl⟩

theorem Local.starts_fail (inTxn : Bool) :
    (own.fail inTxn).txn.map Txn.start = own.txn.map Txn.start := by
  cases inTxn
  · rfl
  · cases atTxn : own.txn <;> simp [Local.fail, atTxn]

theorem Local.Covered.of_none {own : Local σ X} {history : History σ X}
    (closed : own.txn = none) : own.Covered history := fun write member => by
  simp [Local.writes, closed] at member

end OwnSteps

namespace Config.Inv

variable {system : System σ X} {ok : Guarantee σ X} {terms : Terms σ X system.Job}
  {config : Config σ X system.Job} {tid : ℕ} {proc : Proc σ X system.Job}

/-- A process that drops its transaction, without committing, acts within the rules. -/
theorem drop (inv : config.Inv system ok terms) (keeps : Keeps system ok terms)
    (found : config.procs tid = some proc) (life : Life σ X system.Job)
    (grounded : ({ proc with own := proc.own.drop, life := life } : Proc σ X system.Job).flight = none)
    (safe : ({ proc with own := proc.own.drop, life := life } : Proc σ X system.Job).Safe ok
      system.schema terms config.world) :
    (config.update tid { proc with own := proc.own.drop, life := life } config.world).Inv
      system ok terms :=
  inv.act keeps found {
    job := rfl
    named := rfl
    clock := Nat.le_refl _
    next := fun _ => Nat.le_refl _
    history := Or.inl rfl
    compatible := fun _ _ _ _ lock held => by simp at held
    covered := Local.Covered.of_none rfl
    drawn := fun write member => by simp at member
    begun := fun txn atTxn => by simp at atTxn
    flown := fun flight atFlight => by simp [grounded] at atFlight
    nodup := by simp [Proc.starts, grounded]
    starts := fun start member => by simp [Proc.starts, grounded] at member
    calls := Or.inl rfl
    safe := safe
    whole := inv.intact _ List.suffix_rfl
    referenced := fun write member => by simp at member }

/-- A process that keeps its transaction, perhaps aborting it, acts within the rules. -/
theorem carryOn (inv : config.Inv system ok terms) (keeps : Keeps system ok terms)
    (found : config.procs tid = some proc) (inTxn : Bool) (life : Life σ X system.Job)
    (grounded : ({ proc with own := proc.own.fail inTxn, life := life } :
      Proc σ X system.Job).flight = none)
    (safe : ({ proc with own := proc.own.fail inTxn, life := life } : Proc σ X system.Job).Safe ok
      system.schema terms config.world) :
    (config.update tid { proc with own := proc.own.fail inTxn, life := life } config.world).Inv
      system ok terms := by
  have starts : ({ proc with own := proc.own.fail inTxn, life := life } :
      Proc σ X system.Job).starts = (proc.own.txn.map Txn.start).toList := by
    simp [Proc.starts, grounded, Local.starts_fail]
  exact inv.act keeps found {
    job := rfl
    named := Local.tid_fail _ _
    clock := Nat.le_refl _
    next := fun _ => Nat.le_refl _
    history := Or.inl rfl
    compatible := fun other q at_ different => by
      rw [Local.locks_fail]
      exact inv.compatible tid other proc q found at_ (Ne.symm different)
    covered := by
      simpa [Local.Covered, Local.locks_fail, Local.writes_fail] using inv.covered tid proc found
    drawn := fun write member => inv.drawn tid proc found write (by simpa using member)
    begun := fun txn atTxn => by
      obtain ⟨before, atBefore, sameStart, sameBegan, -⟩ := proc.own.txn_fail atTxn
      rw [sameStart, sameBegan]
      exact inv.begun tid proc found before atBefore
    flown := fun flight atFlight => by simp [grounded] at atFlight
    nodup := by
      rw [starts]
      exact (inv.fresh tid proc found).1.of_append_left
    starts := fun start member => by
      rw [starts] at member
      exact Or.inl (List.mem_append_left _ member)
    calls := Or.inl (proc.own.calls_fail inTxn)
    safe := safe
    whole := by simpa [Local.view] using inv.whole tid proc found
    referenced := by simpa using inv.referenced tid proc found }

end Config.Inv

end ReadCommitted

import ReceiptScanner.Accounts.Requests
import ReceiptScanner.Runs.Verified

/-!
# Requests one after another

Any number of account requests, each served when the one before it has been, run on the database
as they run on the book. The scheduler has such a run from every state in which no transaction
is open, at whatever pace.
-/

namespace ReceiptScanner

open ReadCommitted

/-- A request that arrives at an instant, what the libraries answer while it is served, and how
long the steps take. -/
structure Visit where
  request : AccountRequest
  time : ℕ
  answers : (c : Call) → c.Reply
  pause : Pause := fun _ => 0

namespace Visit

/-- The text that is drawn, if one is. -/
def draw (visit : Visit) : String := visit.answers .generateToken

/-- What the request meets. -/
def script (visit : Visit) : Script outside := ⟨fun _ => visit.answers, visit.pause⟩

section Runs

variable (setup : Setup)

/-- What process `tid` comes to when it serves the request by itself. -/
def carry (tid : ℕ) (visit : Visit) (world : World store outside) :
    Option (Except Err AccountReply × Solo store outside) :=
  if world.clock ≤ visit.time then
    (visit.request.task setup).run.alone (schema setup.lower) visit.script
      ⟨{ tid := tid }, { world with clock := visit.time }⟩
  else none

/-- The replies to requests that are served one after another, and what they leave. -/
def serve : ℕ → List Visit → World store outside →
    Option (List (Except Err AccountReply) × World store outside)
  | _, [], world => some ([], world)
  | tid, visit :: rest, world =>
      (visit.carry setup tid world).bind fun carried =>
        (serve (tid + 1) rest carried.2.world).map fun served =>
          (carried.1 :: served.1, served.2)

/-- What the book says of the request. -/
def spec (visit : Visit) (book : Book) : Except Err AccountReply × Book :=
  visit.request.paced setup visit.answers visit.pause visit.time book

/-- The same on the book. -/
def run : List Visit → Book → List (Except Err AccountReply) × Book
  | [], book => ([], book)
  | visit :: rest, book =>
      let turned := visit.spec setup book
      let last := run rest turned.2
      (turned.1 :: last.1, last.2)

end Runs

/-- Each request comes when the one before it has been served, which takes ten steps at most. -/
def Spaced : ℕ → List Visit → Prop
  | _, [] => True
  | clock, visit :: rest => clock ≤ visit.time ∧ Spaced (visit.pause.past^[10] visit.time) rest

/-- No text is drawn twice, nor one that is in use. -/
structure Drawn (setup : Setup) (visits : List Visit) (book : Book) : Prop where
  apart : visits.Pairwise fun one other => one.request.draws = true → other.request.draws = true →
    setup.sha256Hex one.draw ≠ setup.sha256Hex other.draw
  unused : ∀ visit ∈ visits, visit.request.draws = true →
    AccountRequest.Unused setup book visit.draw

section Refinement

variable {setup : Setup} {visit : Visit} {visits rest : List Visit} {book : Book}

theorem Spaced.mono {clock earlier : ℕ} (spaced : Spaced clock visits) (le : earlier ≤ clock) :
    Spaced earlier visits := by
  cases visits with
  | nil => trivial
  | cons visit rest => exact ⟨le.trans spaced.1, spaced.2⟩

/-- A request stores no hash but that of the text it draws. -/
theorem unused_spec {rawToken : String} (unused : AccountRequest.Unused setup book rawToken)
    (apart : visit.request.draws = true → setup.sha256Hex visit.draw ≠ setup.sha256Hex rawToken) :
    AccountRequest.Unused setup (visit.spec setup book).2 rawToken := by
  obtain ⟨session, token⟩ := unused
  cases isRequest : visit.request <;>
    simp only [spec, AccountRequest.paced, isRequest, AccountRequest.spec]
  case login email password =>
    split
    · exact ⟨session, token⟩
    · split
      · have differ := (apart (by rw [isRequest]; rfl)).symm
        exact ⟨(Function.update_of_ne differ _ _).trans session, token⟩
      · exact ⟨session, token⟩
  case validateSession =>
    split
    · exact ⟨session, token⟩
    · exact ⟨by simp [Book.touch, session], token⟩
  case logout => exact ⟨by simp [Book.endSession, session], token⟩
  case requestPasswordReset =>
    split
    · exact ⟨session, token⟩
    · have differ := (apart (by rw [isRequest]; rfl)).symm
      exact ⟨session, (Function.update_of_ne differ _ _).trans token⟩
  case confirmPasswordReset =>
    split
    · exact ⟨session, token⟩
    · split
      · exact ⟨session, token⟩
      · exact ⟨by simp [Book.spend, Book.endSessionsOf, Book.changeUser, session],
          by simp [Book.spend, Book.endSessionsOf, Book.changeUser, token]⟩
  case confirmEmailVerification =>
    split
    · exact ⟨session, token⟩
    · exact ⟨by simp [Book.spend, Book.changeUser, session],
        by simp [Book.spend, Book.changeUser, token]⟩

/-- What is drawn later is new after the first request too. -/
theorem Drawn.tail (drawn : Drawn setup (visit :: rest) book) :
    Drawn setup rest (visit.spec setup book).2 where
  apart := (List.pairwise_cons.mp drawn.apart).2
  unused later member draws :=
    unused_spec (drawn.unused later (List.mem_cons_of_mem _ member) draws) fun first =>
      (List.pairwise_cons.mp drawn.apart).1 later member first draws

/-- The ground of a world. -/
def groundOf (world : World store outside) : Ground store :=
  ⟨world.history.db, world.clock, world.next⟩

/-- A task that has the server to itself comes to what it leads to. -/
theorem alone_of_leads {α : Type} {task : Task α} {world : World store outside}
    {answers : (c : Call) → c.Reply} {pause : Pause} {time : ℕ} {result : Except Err α}
    {last : Ground store}
    (leads : Svc.Leads (schema setup.lower) answers pause none task
      ⟨world.history.db, time, world.next⟩ result last) (tid : ℕ) :
    ∃ after, task.run.alone (schema setup.lower) ⟨fun _ => answers, pause⟩
        ⟨{ tid := tid }, { world with clock := time }⟩ = some (result, after) ∧
      groundOf after.world = last ∧ after.own.txn = none := by
  let solo : Solo store outside := ⟨{ tid := tid }, { world with clock := time }⟩
  have closed : solo.own.txn = none := rfl
  obtain ⟨after, ran, on⟩ := leads solo (Solo.on_of_closed closed)
  have closed : after.own.txn = none := Option.map_eq_none_iff.mp on.start
  have isDb : after.world.history.db = last.db := by
    rw [← on.db]
    simp [Local.view, Local.writes, closed]
  exact ⟨after, ran, by rw [groundOf, isDb, on.clock, on.next], closed⟩

/-- What one request makes of a world. -/
structure Carries (setup : Setup) (visit : Visit) (tid : ℕ) (world : World store outside)
    (after : Solo store outside) : Prop where
  carried : visit.carry setup tid world =
    some ((visit.spec setup (bookOf setup world.history.db)).1, after)
  sound : (groundOf after.world).Sound (schema setup.lower)
  isBook : bookOf setup after.world.history.db =
    (visit.spec setup (bookOf setup world.history.db)).2
  clock : after.world.clock ≤ visit.pause.past^[10] visit.time
  closed : after.own.txn = none

/-- One request does what the book says. -/
theorem carry_refines {world : World store outside}
    (sound : (groundOf world).Sound (schema setup.lower)) (arrived : world.clock ≤ visit.time)
    (unused : visit.request.draws = true →
      AccountRequest.Unused setup (bookOf setup world.history.db) visit.draw) (tid : ℕ) :
    ∃ after, Carries setup visit tid world after := by
  have later : Ground.Sound (⟨world.history.db, visit.time, world.next⟩ : Ground store)
      (schema setup.lower) := sound.at _
  have refined : AccountRequest.Refines setup visit.answers visit.pause
      (⟨world.history.db, visit.time, world.next⟩ : Ground store) visit.request :=
    AccountRequest.refines later visit.request unused
  obtain ⟨last, leads, served⟩ := refined
  obtain ⟨after, ran, isGround, closed⟩ := alone_of_leads leads tid
  have isDb : after.world.history.db = last.db := congrArg Ground.db isGround
  have isClock : after.world.clock = last.clock := congrArg Ground.clock isGround
  obtain ⟨steps, few, clock⟩ := served.clock
  refine ⟨after, ?_, isGround ▸ served.sound, isDb ▸ served.isBook, ?_, closed⟩
  · rw [carry, if_pos arrived]
    exact ran
  · rw [isClock, clock]
    exact visit.pause.past_le visit.time few

/-- Every reachable state is ground for a request. -/
theorem sound_of_reachable {config : Config store outside Job}
    (reachable : Config.Reachable (application setup) config) :
    (groundOf config.world).Sound (schema setup.lower) where
  intact := intact_of_reachable reachable List.suffix_rfl
  distinct := ((Config.Reachable.lawful (schema_symmetric setup.lower) reachable).committed _
    List.suffix_rfl).1
  fresh _ _ undrawn := ((keeps_promise setup config.jobs).inv reachable
    config.agrees_jobs).wellFormed.fresh undrawn

end Refinement

section Scheduler

variable {setup : Setup} {script : Script outside}

/-- The job of a request. -/
def job : AccountRequest → Job
  | .login email password => .login email password
  | .validateSession rawToken => .validateSession rawToken
  | .logout rawToken => .logout rawToken
  | .requestPasswordReset email => .requestPasswordReset email
  | .confirmPasswordReset rawToken newPassword => .confirmPasswordReset rawToken newPassword
  | .confirmEmailVerification rawToken => .confirmEmailVerification rawToken

/-- What the job answers. -/
def answer : Except Err AccountReply → Answer
  | .error raised => .raised raised
  | .ok (.user userId) => .told userId.isSome
  | .ok (.confirmed yes) => .told yes
  | .ok _ => .returned

/-- A job serves the call whose result the reply is made of. -/
theorem serve_of_map {α : Type} {op : Task α} {f : α → AccountReply} {tell : α → Answer}
    (same : ∀ value, answer (.ok (f value)) = tell value) {solo after : Solo store outside}
    {result : Except Err AccountReply}
    (ran : (f <$> op).run.alone (schema setup.lower) script solo = some (result, after)) :
    (Job.serve tell op).alone (schema setup.lower) script solo =
      some ((answer result, []), after) := by
  have split := (Prog.alone_bind _ _ solo).symm.trans ran
  obtain ⟨⟨told, middle⟩, first, rest⟩ := Option.bind_eq_some_iff.mp split
  refine (Prog.alone_bind_of first).trans ?_
  cases told with
  | ok value =>
      obtain ⟨rfl, rfl⟩ := Prod.mk.inj (Option.some.inj rest)
      rw [same]
      rfl
  | error raised =>
      obtain ⟨rfl, rfl⟩ := Prod.mk.inj (Option.some.inj rest)
      rfl

/-- What a request comes to by itself, the scheduler brings about by running its job while no
transaction is open. -/
theorem carry_runs {config : Config store outside Job} {visit : Visit}
    {result : Except Err AccountReply} {after : Solo store outside} (closed : config.Closed)
    (carried : visit.carry setup config.tids config.world = some (result, after))
    (ends : after.own.txn = none) :
    ∃ next, Config.Runs (application setup) config (job visit.request) (answer result) next ∧
      next.world = after.world := by
  unfold carry at carried
  split at carried
  · rename_i arrived
    let waited : Config store outside Job :=
      { config with world := { config.world with clock := visit.time } }
    have ran : ((application setup).prog (job visit.request)).alone (application setup).schema
        visit.script ⟨{ tid := waited.tids }, waited.world⟩ = some ((answer result, []), after) := by
      change (Job.prog setup (job visit.request)).alone _ _ _ = _
      cases isRequest : visit.request <;> rw [isRequest] at carried <;>
        exact serve_of_map (fun _ => rfl) carried
    have root : (application setup).root (job visit.request) = true := by
      cases visit.request <;> rfl
    have idle : waited.Closed := closed
    obtain ⟨next, runs, isWorld⟩ := Config.runs_of_alone root idle ran ends
    exact ⟨next, runs.later arrived, isWorld⟩
  · cases carried

/-- The scheduler serves one request, as the book says. -/
structure Turns (setup : Setup) (config : Config store outside Job) (visit : Visit)
    (middle : Config store outside Job) : Prop where
  carried : ∃ after, visit.carry setup config.tids config.world =
    some ((visit.spec setup (bookOf setup config.world.history.db)).1, after) ∧
      after.world = middle.world
  runs : Config.Runs (application setup) config (job visit.request)
    (answer (visit.spec setup (bookOf setup config.world.history.db)).1) middle
  sound : (groundOf middle.world).Sound (schema setup.lower)
  isBook : bookOf setup middle.world.history.db =
    (visit.spec setup (bookOf setup config.world.history.db)).2
  clock : middle.world.clock ≤ visit.pause.past^[10] visit.time

theorem turns_of_sound {config : Config store outside Job} {visit : Visit}
    (sound : (groundOf config.world).Sound (schema setup.lower)) (closed : config.Closed)
    (arrived : config.world.clock ≤ visit.time)
    (unused : visit.request.draws = true →
      AccountRequest.Unused setup (bookOf setup config.world.history.db) visit.draw) :
    ∃ middle, Turns setup config visit middle := by
  obtain ⟨after, carries⟩ := carry_refines sound arrived unused config.tids
  obtain ⟨middle, runs, isWorld⟩ := carry_runs closed carries.carried carries.closed
  exact ⟨middle, ⟨after, carries.carried, isWorld.symm⟩, runs, isWorld ▸ carries.sound,
    isWorld ▸ carries.isBook, isWorld ▸ carries.clock⟩

/-- A request as a job with its answer. -/
def served (visit : Visit) (reply : Except Err AccountReply) : Job × Answer :=
  (job visit.request, answer reply)

/-- The scheduler serves requests one after another, with these replies. -/
structure Runs (setup : Setup) (config : Config store outside Job) (visits : List Visit)
    (replies : List (Except Err AccountReply)) (next : Config store outside Job) : Prop where
  /-- What the calls return, and what they leave. -/
  told : serve setup config.tids visits config.world = some (replies, next.world)
  ran : ∃ moves, Config.run (application setup) moves config = some next
  serves : Config.Serves (application setup) config (List.zipWith served visits replies) next
  closed : next.Closed

/-- Any number of requests does what the book says. -/
theorem runs_refine {config : Config store outside Job} {visits : List Visit}
    (sound : (groundOf config.world).Sound (schema setup.lower)) (closed : config.Closed)
    (spaced : Spaced config.world.clock visits)
    (drawn : Drawn setup visits (bookOf setup config.world.history.db)) :
    ∃ next, Runs setup config visits (run setup visits (bookOf setup config.world.history.db)).1
        next ∧
      bookOf setup next.world.history.db =
        (run setup visits (bookOf setup config.world.history.db)).2 := by
  induction visits generalizing config with
  | nil =>
      exact ⟨config, ⟨rfl, ⟨[], rfl⟩, @Config.Serves.none _ _ (application setup) config, closed⟩,
        rfl⟩
  | cons visit rest ih =>
      obtain ⟨middle, turns⟩ := turns_of_sound sound closed spaced.1
        (drawn.unused visit List.mem_cons_self)
      obtain ⟨after, carried, isWorld⟩ := turns.carried
      have drawn' := drawn.tail
      rw [← turns.isBook] at drawn'
      obtain ⟨last, later, ended⟩ := ih turns.sound turns.runs.closed (spaced.2.mono turns.clock)
        drawn'
      rw [turns.isBook] at later ended
      have serves := Config.Serves.next turns.runs later.serves
      refine ⟨last, ⟨?_, serves.run, serves, later.closed⟩, ended⟩
      have rest := later.told
      rw [turns.runs.tids, ← isWorld] at rest
      simp only [serve, carried, rest, Option.bind_some, Option.map_some, run]

end Scheduler

end Visit

section Runs

variable {setup : Setup} {config : Config store outside Job} {visits : List Visit}

/-- From every reachable state in which no transaction is open, requests that are served one
after another, at whatever pace, are told what the book tells, and leave what the book says. -/
theorem requests_refine (reachable : Config.Reachable (application setup) config)
    (closed : config.Closed) (spaced : Visit.Spaced config.world.clock visits)
    (drawn : Visit.Drawn setup visits (bookOf setup config.world.history.db)) :
    ∃ next,
      Visit.Runs setup config visits
        (Visit.run setup visits (bookOf setup config.world.history.db)).1 next ∧
      bookOf setup next.world.history.db =
        (Visit.run setup visits (bookOf setup config.world.history.db)).2 :=
  Visit.runs_refine (Visit.sound_of_reachable reachable) closed spaced drawn

/-- Two users. -/
@[irreducible] def twoUsers : Config store outside Job :=
  Config.ran (application demo) (registering 0 "ann" "secret" ++ registering 1 "bob" "secret")
    (by decide +kernel)

theorem reachable_twoUsers : Config.Reachable (application demo) twoUsers := by
  unfold twoUsers
  exact Config.reachable_ran _

/-- A guess at the first account, a reset asked for each, the second password reset, and a login
with it. -/
def callers : List Visit :=
  [⟨.login "ann" "guess", 1000, plainly "a" { kind := "" }, fun _ => 0⟩,
    ⟨.requestPasswordReset "ann", 2000, plainly "b" { kind := "" }, fun _ => 7⟩,
    ⟨.requestPasswordReset "bob", 3000, plainly "c" { kind := "" }, fun clock => clock % 5⟩,
    ⟨.confirmPasswordReset "c" "new", 4000, plainly "d" { kind := "" }, fun _ => 0⟩,
    ⟨.login "bob" "new", 5000, plainly "e" { kind := "" }, fun _ => 50⟩]

theorem drawn_callers : Visit.Drawn demo callers (bookOf demo twoUsers.world.history.db) where
  apart := by decide +kernel
  unused visit member _ := by
    have unused : ∀ visit ∈ callers,
        (bookOf demo twoUsers.world.history.db).sessions (demo.sha256Hex visit.draw) = none ∧
          (bookOf demo twoUsers.world.history.db).tokens (demo.sha256Hex visit.draw) = none := by
      decide +kernel
    exact ⟨(unused visit member).1, (unused visit member).2⟩

theorem spaced_callers : Visit.Spaced twoUsers.world.clock callers := by
  have early : twoUsers.world.clock ≤ 1000 := by decide +kernel
  exact ⟨early, by decide +kernel, by decide +kernel, by decide +kernel, by decide +kernel, trivial⟩

theorem closed_twoUsers : twoUsers.Closed :=
  Config.closed_of_closes reachable_twoUsers.numbered (by decide +kernel)

/-- The guess is refused, and the last login is let in. -/
theorem requests_refine_of_callers :
    ((Visit.run demo callers (bookOf demo twoUsers.world.history.db)).1.map Except.toOption) =
      [some (.session none), some (.token "b"), some (.token "c"), some (.confirmed true),
        some (.session (some "e"))] ∧
    ∃ next,
      Visit.Runs demo twoUsers callers
        (Visit.run demo callers (bookOf demo twoUsers.world.history.db)).1 next ∧
      bookOf demo next.world.history.db =
        (Visit.run demo callers (bookOf demo twoUsers.world.history.db)).2 :=
  ⟨by decide +kernel, requests_refine reachable_twoUsers closed_twoUsers spaced_callers
    drawn_callers⟩

end Runs

end ReceiptScanner

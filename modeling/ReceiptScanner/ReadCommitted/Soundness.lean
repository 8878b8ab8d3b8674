import ReceiptScanner.ReadCommitted.Invariant

/-!
# Soundness of the rely-guarantee rules

Every move of the scheduler keeps the invariant of a verified system, so in
every reachable state each commit satisfies the guarantee after the commits
before it (`Keeps.sound`), and start times order the commits (`Keeps.timely`).
-/

namespace ReadCommitted

variable {σ : Signature} {X : Interface} {system : System σ X} {ok : Guarantee σ X}
  {terms : Terms σ X system.Job}

namespace Config.Inv

variable {config next : Config σ X system.Job} {tid : ℕ} {proc : Proc σ X system.Job}

/-- The locks of a process exclude no lock of another. -/
theorem free (inv : config.Inv system ok terms) (found : config.procs tid = some proc)
    (other : ℕ) (q : Proc σ X system.Job) (at_ : config.procs other = some q)
    (different : other ≠ tid) : Compatible proc.own.locks q.own.locks :=
  inv.compatible tid other proc q found at_ (Ne.symm different)

/-- A statement takes its snapshot. -/
theorem start (inv : config.Inv system ok terms) (keeps : Keeps system ok terms)
    (found : config.procs tid = some proc) (moved : startProc config tid proc = some next) :
    next.Inv system ok terms := by
  obtain ⟨job, own, life⟩ := proc
  rcases life with ⟨prog, _ | flight⟩ | _ | _ <;> try (simp [startProc] at moved; done)
  cases prog with
  | exec inTxn stmt rest =>
      obtain rfl := Option.some.inj moved
      have safe := inv.safe tid _ found _ Rely.refl inv.wellFormed
      have free := inv.free found
      have covered := inv.covered tid _ found
      have drawn := inv.drawn tid _ found
      have begun := inv.begun tid _ found
      have whole := inv.whole tid _ found
      have referenced := inv.referenced tid _ found
      refine inv.act keeps found {
        job := rfl
        named := rfl
        clock := Nat.le_succ _
        next := fun _ => Nat.le_refl _
        history := Or.inl rfl
        compatible := free
        covered := covered
        drawn := drawn
        begun := begun
        flown := ?_
        nodup := ?_
        starts := ?_
        calls := Or.inl rfl
        safe := safe.2
        whole := whole
        referenced := referenced }
      · rintro flight ⟨⟩
        exact ⟨⟨_, List.suffix_rfl, rfl, inv.wellFormed.stopped⟩, List.suffix_rfl⟩
      · have opened := (inv.fresh tid _ found).2
        have apart : config.world.clock ∉ (own.txn.map Txn.start).toList := fun member =>
          lt_irrefl _ (opened _ (List.mem_append_left _ member)).1
        refine List.Nodup.append (inv.fresh tid _ found).1.of_append_left (by simp [Proc.flight]) ?_
        simpa [Proc.flight] using apart
      · intro start member
        rcases List.mem_append.mp member with mine | now
        · exact Or.inl (List.mem_append_left _ mine)
        · refine Or.inr ⟨?_, Nat.lt_succ_self _⟩
          simpa [Proc.flight] using now
  | _ => simp [startProc] at moved

/-- A statement, or BEGIN, fails. -/
theorem fail (inv : config.Inv system ok terms) (keeps : Keeps system ok terms)
    (found : config.procs tid = some proc) {failure : SqlFailure}
    (moved : failProc config tid proc failure = some next) : next.Inv system ok terms := by
  obtain ⟨job, own, life⟩ := proc
  rcases life with ⟨prog, flight⟩ | _ | _ <;> try (simp [failProc] at moved; done)
  have safe := inv.safe tid _ found
  cases prog with
  | exec inTxn stmt rest =>
      obtain rfl := Option.some.inj moved
      cases flight with
      | none => exact inv.carryOn keeps found inTxn _ rfl ((safe _ Rely.refl inv.wellFormed).1 failure)
      | some flight =>
          exact inv.carryOn keeps found inTxn _ rfl ((safe _ Rely.refl inv.wellFormed).1 failure)
  | beginTxn rest =>
      cases flight with
      | none =>
          obtain rfl := Option.some.inj moved
          exact inv.carryOn keeps found false _ rfl ((safe _ Rely.refl inv.wellFormed).1 failure)
      | some flight => simp [failProc] at moved
  | _ => simp [failProc] at moved

/-- A process dies. -/
theorem crash (inv : config.Inv system ok terms) (keeps : Keeps system ok terms)
    (found : config.procs tid = some proc) (moved : crashProc config tid proc = some next) :
    next.Inv system ok terms := by
  obtain ⟨job, own, life⟩ := proc
  rcases life with ⟨prog, flight⟩ | _ | _ <;> try (simp [crashProc] at moved; done)
  obtain rfl := Option.some.inj moved
  exact inv.drop keeps found .crashed rfl trivial

/-- An outside call is answered. -/
theorem reply (inv : config.Inv system ok terms) (keeps : Keeps system ok terms)
    (found : config.procs tid = some proc) {answer : (c : X.Call) → X.Reply c}
    (moved : replyProc config tid proc answer = some next) : next.Inv system ok terms := by
  obtain ⟨job, own, life⟩ := proc
  rcases life with ⟨prog, _ | flight⟩ | _ | _ <;> try (simp [replyProc] at moved; done)
  cases prog with
  | call c rest =>
      obtain rfl := Option.some.inj moved
      have safe := inv.safe tid _ found _ Rely.refl inv.wellFormed
      have free := inv.free found
      have covered := inv.covered tid _ found
      have drawn := inv.drawn tid _ found
      have begun := inv.begun tid _ found
      have whole := inv.whole tid _ found
      have referenced := inv.referenced tid _ found
      exact inv.act keeps found {
        job := rfl
        named := rfl
        clock := Nat.le_refl _
        next := fun _ => Nat.le_refl _
        history := Or.inl rfl
        compatible := free
        covered := covered
        drawn := drawn
        begun := begun
        flown := fun flight atFlight => by simp [Proc.flight] at atFlight
        nodup := (inv.fresh tid _ found).1
        starts := fun start member => Or.inl member
        calls := Or.inr ⟨⟨c, answer c⟩, rfl, safe.1⟩
        safe := safe.2 _
        whole := whole
        referenced := referenced }
  | _ => simp [replyProc] at moved

/-- A new process. -/
theorem spawn (inv : config.Inv system ok terms) (keeps : Keeps system ok terms)
    {job : system.Job} (isReady : terms.ready job config.world.history)
    (known : terms.jobs config.tids = some job) :
    (Config.spawn system config job).Inv system ok terms := by
  have split : ∀ other q, (Config.spawn system config job).procs other = some q →
      (other = config.tids ∧ q.own = { tid := config.tids } ∧
        q.life = .running (system.prog job) none ∧ q.job = job) ∨
      config.procs other = some q := by
    intro other q at_
    by_cases same : other = config.tids
    · subst same
      simp only [Config.spawn, Function.update_self, Option.some.injEq] at at_
      exact Or.inl ⟨rfl, by rw [← at_], by rw [← at_], by rw [← at_]⟩
    · simp only [Config.spawn, Function.update_of_ne same] at at_
      exact Or.inr at_
  have closed : ∀ {q : Proc σ X system.Job}, q.own = { tid := config.tids } →
      q.own.txn = none := fun own => by rw [own]
  have idle : ∀ {q : Proc σ X system.Job}, q.own = { tid := config.tids } →
      q.life = .running (system.prog job) none → q.starts = [] := fun own life => by
    simp [Proc.starts, Proc.flight, own, life]
  constructor
  case wellFormed => exact inv.wellFormed
  case numbered =>
    exact fun commit member => (inv.numbered commit member).trans (Nat.lt_succ_self _)
  case kept => exact inv.kept
  case timely => exact inv.timely
  case named =>
    intro other q at_
    rcases split other q at_ with ⟨rfl, own, -⟩ | old
    · exact ⟨Nat.lt_succ_self _, by rw [own]⟩
    · obtain ⟨below, named⟩ := inv.named other q old
      exact ⟨below.trans (Nat.lt_succ_self _), named⟩
  case compatible =>
    intro i j p q atI atJ different
    rcases split i p atI with ⟨-, own, -⟩ | oldI
    · exact fun lock held => by simp [Local.locks, closed own] at held
    · rcases split j q atJ with ⟨-, own, -⟩ | oldJ
      · exact fun _ _ lock held => by simp [Local.locks, closed own] at held
      · exact inv.compatible i j p q oldI oldJ different
  case covered =>
    intro other q at_
    rcases split other q at_ with ⟨-, own, -⟩ | old
    · exact Local.Covered.of_none (closed own)
    · exact inv.covered other q old
  case drawn =>
    intro other q at_
    rcases split other q at_ with ⟨-, own, -⟩ | old
    · exact fun write member => by simp [Local.writes, closed own] at member
    · exact inv.drawn other q old
  case begun =>
    intro other q at_
    rcases split other q at_ with ⟨-, own, -⟩ | old
    · exact fun txn atTxn => by simp [closed own] at atTxn
    · exact inv.begun other q old
  case flown =>
    intro other q at_
    rcases split other q at_ with ⟨-, own, life, -⟩ | old
    · exact fun flight atFlight => by simp [Proc.flight, life] at atFlight
    · exact inv.flown other q old
  case fresh =>
    intro other q at_
    rcases split other q at_ with ⟨-, own, life, -⟩ | old
    · rw [idle own life]
      exact ⟨List.nodup_nil, fun start member => by simp at member⟩
    · exact inv.fresh other q old
  case apart =>
    intro i j p q atI atJ different
    rcases split i p atI with ⟨-, own, life, -⟩ | oldI
    · rw [idle own life]
      exact List.disjoint_nil_left _
    · rcases split j q atJ with ⟨-, own, life, -⟩ | oldJ
      · rw [idle own life]
        exact List.disjoint_nil_right _
      · exact inv.apart i j p q oldI oldJ different
  case recorded =>
    intro other q at_ commit member named
    rcases split other q at_ with ⟨rfl, -⟩ | old
    · exact absurd named (inv.numbered commit member).ne
    · exact inv.recorded other q old commit member named
  case spoken =>
    intro other q at_
    rcases split other q at_ with ⟨-, own, -⟩ | old
    · exact fun c earlier suffix => by simp [own] at suffix
    · exact inv.spoken other q old
  case safe =>
    intro other q at_
    rcases split other q at_ with ⟨-, own, life, same⟩ | old
    · simp only [Proc.Safe, life, own, same]
      refine keeps.safe job config.tids config.world known isReady inv.wellFormed ?_
      exact List.filter_eq_nil_iff.mpr fun commit member => by
        simpa using (inv.numbered commit member).ne
    · exact inv.safe other q old
  case prepared =>
    intro other q at_
    rcases split other q at_ with ⟨-, -, -, same⟩ | old
    · rw [same]
      exact isReady
    · exact inv.prepared other q old
  case intact => exact inv.intact
  case whole =>
    intro other q at_
    rcases split other q at_ with ⟨-, own, -⟩ | old
    · rw [own]
      exact inv.intact _ List.suffix_rfl
    · exact inv.whole other q old
  case referenced =>
    intro other q at_
    rcases split other q at_ with ⟨-, own, -⟩ | old
    · exact fun write member => by simp [Local.writes, closed own] at member
    · exact inv.referenced other q old

/-- New processes, one after another. -/
theorem spawnAll (inv : config.Inv system ok terms) (keeps : Keeps system ok terms)
    {jobs : List system.Job} (isReady : ∀ job ∈ jobs, terms.ready job config.world.history)
    (agrees : (jobs.foldl (Config.spawn system) config).Agrees terms.jobs) :
    (jobs.foldl (Config.spawn system) config).Inv system ok terms := by
  induction jobs generalizing config with
  | nil => exact inv
  | cons job rest ih =>
      have numbered : config.Numbered := fun tid proc found => (inv.named tid proc found).1
      have known := ((numbered.spawn job).numbered.spawnAll rest).agrees agrees
      exact ih (inv.spawn keeps (isReady job List.mem_cons_self) known.spawned)
        (fun other member => isReady other (List.mem_cons_of_mem _ member)) agrees

/-- The locks a statement was granted exclude no lock of another process. -/
theorem granted (inv : config.Inv system ok terms) {locks : List (Lock σ)}
    (compatible : Compatible locks (config.otherLocks tid)) (other : ℕ)
    (q : Proc σ X system.Job) (at_ : config.procs other = some q) (different : other ≠ tid) :
    Compatible locks q.own.locks := by
  refine compatible.mono (List.Subset.refl _) fun lock held => ?_
  refine List.mem_flatMap.mpr ⟨q, List.mem_filterMap.mpr ⟨other, ?_, at_⟩, held⟩
  simp [(inv.named other q at_).1, different]

/-- A statement finishes on the open transaction. -/
theorem extend (inv : config.Inv system ok terms) (keeps : Keeps system ok terms)
    (found : config.procs tid = some proc) {β : Type} {outcome : Outcome σ β} {txn : Txn σ}
    (atTxn : proc.own.txn = some txn) {locks : List (Lock σ)} {span : ℕ × ℕ}
    {others : List (Lock σ)}
    (settled : system.schema.Settled others (proc.own.view config.world.history) outcome locks)
    (compatible : Compatible locks (config.otherLocks tid)) {life : Life σ X system.Job}
    (grounded : ({ proc with own := proc.own.extend txn outcome locks span, life := life } :
      Proc σ X system.Job).flight = none)
    (safe : ({ proc with own := proc.own.extend txn outcome locks span, life := life } :
      Proc σ X system.Job).Safe ok system.schema terms (config.world.pass outcome)) :
    (config.update tid { proc with own := proc.own.extend txn outcome locks span, life := life }
      (config.world.pass outcome)).Inv system ok terms := by
  have locksNow : (proc.own.extend txn outcome locks span).locks = proc.own.locks ++ locks := by
    simp [Local.extend, Local.locks, atTxn]
  have writesNow : (proc.own.extend txn outcome locks span).writes =
      proc.own.writes ++ outcome.writes := by
    simp [Local.extend, Local.writes, atTxn]
  have starts : ({ proc with own := proc.own.extend txn outcome locks span, life := life } :
      Proc σ X system.Job).starts = [txn.start] := by
    rw [Proc.starts, grounded]
    rfl
  refine inv.act keeps found {
    job := rfl
    named := rfl
    clock := by simp only [World.pass]; omega
    next := fun table => le_advance _ _ table
    history := Or.inl rfl
    compatible := fun other q at_ different => ?_
    covered := ?_
    drawn := fun write member => ?_
    begun := fun now atNow => ?_
    flown := fun flight atFlight => by simp [grounded] at atFlight
    nodup := by simp [starts]
    starts := fun start member => ?_
    calls := Or.inl rfl
    safe := safe
    whole := ?_
    referenced := ?_ }
  · intro lock held
    rw [locksNow] at held
    rcases List.mem_append.mp held with before | fresh
    · exact inv.free found other q at_ different lock before
    · exact inv.granted compatible other q at_ different lock fresh
  · intro write member
    rw [locksNow]
    rw [writesNow] at member
    rcases List.mem_append.mp member with before | fresh
    · obtain ⟨lock, held, cover⟩ := inv.covered tid _ found write before
      exact ⟨lock, List.mem_append_left _ held, cover⟩
    · obtain ⟨lock, held, cover⟩ := inv.covered tid _ found |>.locksFor system.schema fresh
      exact ⟨lock, settled.took ▸ held, cover⟩
  · rw [writesNow] at member
    rcases List.mem_append.mp member with before | fresh
    · exact (inv.drawn tid _ found write before).trans_le (le_advance _ _ _)
    · exact lt_advance fresh
  · obtain rfl := Option.some.inj atNow
    exact inv.begun tid _ found txn atTxn
  · rw [starts] at member
    obtain rfl := List.mem_singleton.mp member
    exact Or.inl (by simp [Proc.starts, atTxn])
  · have after := settled.intact (inv.whole tid _ found)
    rwa [Local.view, writesNow, Db.writes_append]
  · rw [locksNow, writesNow, settled.took]
    exact (inv.referenced tid _ found).extend

/-- A statement finishes on the plain client. -/
theorem single (inv : config.Inv system ok terms) (keeps : Keeps system ok terms)
    (found : config.procs tid = some proc) {β : Type} {outcome : Outcome σ β}
    {flight : Flight σ X} (atFlight : proc.flight = some flight) {locks : List (Lock σ)}
    {others : List (Lock σ)}
    (settled : system.schema.Settled others (proc.own.drop.view config.world.history) outcome locks)
    (compatible : Compatible locks (config.otherLocks tid))
    (apart : Compatible locks proc.own.locks) {life : Life σ X system.Job}
    (grounded : ({ proc with life := life } : Proc σ X system.Job).flight = none)
    {history : History σ X} (grown : history = config.world.history ∨
      history = proc.own.singleCommit flight config.world outcome locks :: config.world.history)
    (extends_ : Extends ok config.world.history history)
    (safe : ({ proc with life := life } : Proc σ X system.Job).Safe ok system.schema terms
      { config.world.pass outcome with history := history }) :
    (config.update tid { proc with life := life }
      { config.world.pass outcome with history := history }).Inv system ok terms := by
  have covers : Covers config.world.history locks outcome.writes := by
    have alone : proc.own.drop.Covered config.world.history := Local.Covered.of_none rfl
    intro write member
    obtain ⟨lock, held, cover⟩ := alone.locksFor system.schema member
    rw [← settled.took] at held
    exact ⟨lock, held, cover⟩
  have intact : Intact system.schema
      (History.db (proc.own.singleCommit flight config.world outcome locks ::
        config.world.history)) :=
    settled.intact (inv.intact _ List.suffix_rfl)
  have referenced : Referenced system.schema config.world.history locks outcome.writes := by
    have none : Referenced system.schema config.world.history proc.own.drop.locks
        proc.own.drop.writes := fun write member => by simp at member
    rw [settled.took]
    exact none.extend
  have starts : ({ proc with life := life } : Proc σ X system.Job).starts =
      (proc.own.txn.map Txn.start).toList := by
    simp [Proc.starts, grounded]
  have startsBefore : proc.starts = (proc.own.txn.map Txn.start).toList ++ [flight.start] := by
    simp [Proc.starts, atFlight]
  have free := inv.free found
  have mine := inv.covered tid _ found
  have view := inv.whole tid _ found
  have references := inv.referenced tid _ found
  have nodup := (inv.fresh tid _ found).1
  rw [startsBefore] at nodup
  have longer : config.world.history <:+ history := by
    rcases grown with rfl | rfl
    · exact List.suffix_rfl
    · exact List.suffix_cons _ _
  refine inv.act keeps found {
    job := rfl
    named := rfl
    clock := by simp only [World.pass]; omega
    next := fun table => le_advance _ _ table
    history := grown.imp_right fun grownBy => ⟨_, {
      grown := grownBy
      named := (inv.named tid _ found).2
      calls := rfl
      covered := covers
      good := ?_
      compatible := inv.granted compatible
      started := ?_
      gone := ?_
      began := (inv.flown tid _ found flight atFlight).1
      late := Nat.le_add_right _ _
      passed := Nat.lt_succ_self _
      drawn := fun write member => lt_advance member
      intact := intact
      referenced := referenced }⟩
    compatible := free
    covered := ?_
    drawn := fun write member => (inv.drawn tid _ found write member).trans_le (le_advance _ _ _)
    begun := fun txn atTxn => (inv.begun tid _ found txn atTxn).mono longer
    flown := fun flight atFlight => by simp [grounded] at atFlight
    nodup := ?_
    starts := fun start member => ?_
    calls := Or.inl rfl
    safe := safe
    whole := ?_
    referenced := ?_ }
  · rcases extends_ with same | ⟨commit, grownBy', good⟩
    · exact absurd (grownBy.symm.trans same) (List.cons_ne_self _ _)
    · obtain ⟨rfl, -⟩ := List.cons.inj (grownBy.symm.trans grownBy')
      exact good
  · simp [startsBefore, Local.singleCommit]
  · rw [starts]
    intro member
    exact (List.nodup_append.mp nodup).2.2 _ member _ (List.mem_singleton.mpr rfl) rfl
  · rcases grown with rfl | rfl
    · exact mine
    · exact mine.grow covers apart
  · rw [starts]
    exact nodup.of_append_left
  · rw [starts] at member
    exact Or.inl (by simp [startsBefore, member])
  · rcases grown with rfl | rfl
    · exact view
    · exact view.grow mine references covers apart referenced intact
  · rcases grown with rfl | rfl
    · exact references
    · exact references.grow mine covers apart

/-- A statement finishes. -/
theorem finish (inv : config.Inv system ok terms) (keeps : Keeps system ok terms)
    (found : config.procs tid = some proc)
    (moved : finishProc system.schema config tid proc = some next) :
    next.Inv system ok terms := by
  obtain ⟨job, own, life⟩ := proc
  rcases life with ⟨prog, _ | flight⟩ | _ | _ <;> try (simp [finishProc] at moved; done)
  cases prog with
  | exec inTxn stmt rest =>
      have safe := inv.safe tid _ found _ Rely.refl inv.wellFormed
      simp only [finishProc] at moved
      split at moved
      · simp at moved
      · rename_i reply own' world' finished
        obtain rfl := Option.some.inj moved
        obtain ⟨extends_, after⟩ := safe.2 _ _ _ _ _ finished
        rcases finish_cases finished with ⟨failure, rfl, rfl, rfl⟩ |
          ⟨outcome, locks, -, settled, rfl, ⟨rfl, txn, atTxn, -, rfl, rfl⟩ | ⟨rfl, rfl, passed⟩⟩
        · exact inv.carryOn keeps found inTxn _ rfl after
        · have settled := Schema.settle_eq_some settled
          have compatible := settled.compatible
          simp only [Bool.not_true, Local.sender_false, Local.locks_drop, List.append_nil]
            at compatible
          exact inv.extend keeps found atTxn settled compatible rfl after
        · have settled := Schema.settle_eq_some settled
          have others := settled.compatible.mono (List.Subset.refl _) (List.subset_append_left _ _)
          have apart := settled.compatible.mono (List.Subset.refl _) (List.subset_append_right _ _)
          rcases passed with ⟨-, rfl⟩ | ⟨-, rfl⟩
          · exact inv.single keeps found rfl settled others apart rfl (Or.inl rfl) extends_ after
          · exact inv.single keeps found rfl settled others apart rfl (Or.inr rfl) extends_ after
  | _ => simp [finishProc] at moved

/-- BEGIN. -/
theorem beginTxn (inv : config.Inv system ok terms) (keeps : Keeps system ok terms)
    (found : config.procs tid = some proc) {life : Life σ X system.Job}
    (grounded : ({ proc with own := proc.own.beginTxn config.world, life := life } :
      Proc σ X system.Job).flight = none)
    (safe : ({ proc with own := proc.own.beginTxn config.world, life := life } :
      Proc σ X system.Job).Safe ok system.schema terms config.world.tick) :
    (config.update tid { proc with own := proc.own.beginTxn config.world, life := life }
      config.world.tick).Inv system ok terms := by
  have starts : ({ proc with own := proc.own.beginTxn config.world, life := life } :
      Proc σ X system.Job).starts = [config.world.clock] := by
    rw [Proc.starts, grounded]
    rfl
  refine inv.act keeps found {
    job := rfl
    named := rfl
    clock := Nat.le_succ _
    next := fun _ => Nat.le_refl _
    history := Or.inl rfl
    compatible := fun _ _ _ _ lock held => by simp [Local.beginTxn, Local.locks] at held
    covered := fun write member => by simp [Local.beginTxn, Local.writes] at member
    drawn := fun write member => by simp [Local.beginTxn, Local.writes] at member
    begun := fun txn atTxn => ?_
    flown := fun flight atFlight => by simp [grounded] at atFlight
    nodup := by simp [starts]
    starts := fun start member => ?_
    calls := Or.inl rfl
    safe := safe
    whole := inv.intact _ List.suffix_rfl
    referenced := fun write member => by simp [Local.beginTxn, Local.writes] at member }
  · obtain rfl := Option.some.inj atTxn
    exact ⟨_, List.suffix_rfl, rfl, inv.wellFormed.stopped⟩
  · rw [starts] at member
    exact Or.inr ⟨List.mem_singleton.mp member, Nat.lt_succ_self _⟩

/-- COMMIT. -/
theorem commit (inv : config.Inv system ok terms) (keeps : Keeps system ok terms)
    (found : config.procs tid = some proc) {life : Life σ X system.Job}
    (grounded : ({ proc with own := proc.own.drop, life := life } :
      Proc σ X system.Job).flight = none)
    (extends_ : Extends ok config.world.history (proc.own.committed config.world).history)
    (safe : ({ proc with own := proc.own.drop, life := life } : Proc σ X system.Job).Safe ok
      system.schema terms (proc.own.committed config.world)) :
    (config.update tid { proc with own := proc.own.drop, life := life }
      (proc.own.committed config.world)).Inv system ok terms := by
  have starts : ({ proc with own := proc.own.drop, life := life } : Proc σ X system.Job).starts =
      [] := by
    rw [Proc.starts, grounded]
    rfl
  have clock : (proc.own.committed config.world).clock = config.world.clock + 1 :=
    proc.own.clock_committed _
  have next : (proc.own.committed config.world).next = config.world.next :=
    proc.own.next_committed _
  refine inv.act keeps found {
    job := rfl
    named := rfl
    clock := by rw [clock]; omega
    next := fun table => by rw [next]
    history := ?_
    compatible := fun _ _ _ _ lock held => by simp at held
    covered := Local.Covered.of_none rfl
    drawn := fun write member => by simp at member
    begun := fun txn atTxn => by simp at atTxn
    flown := fun flight atFlight => by simp [grounded] at atFlight
    nodup := by simp [starts]
    starts := fun start member => by simp [starts] at member
    calls := Or.inl rfl
    safe := safe
    whole := ?_
    referenced := fun write member => by simp at member }
  rcases proc.own.committed_cases config.world with same | ⟨txn, atTxn, grown⟩
  · exact Or.inl same
  · right
    rcases extends_ with same | ⟨last, grownBy, good⟩
    · exact absurd (grown.symm.trans same) (List.cons_ne_self _ _)
    · obtain ⟨rfl, -⟩ := List.cons.inj (grown.symm.trans grownBy)
      have free := inv.free found
      have drawn := inv.drawn tid _ found
      have covered := inv.covered tid _ found
      have started : txn.start ∈ proc.starts := by simp [Proc.starts, atTxn]
      refine ⟨_, {
        grown := grown
        named := (inv.named tid _ found).2
        calls := rfl
        covered := ?_
        good := good
        compatible := ?_
        started := started
        gone := by simp [starts]
        began := inv.begun tid _ found txn atTxn
        late := Nat.le_refl _
        passed := by rw [clock]; exact Nat.lt_succ_self _
        drawn := ?_
        intact := ?_
        referenced := ?_ }⟩
      · simpa [Local.Covered, Local.locks, Local.writes, Commit.Covered, Local.commitOf, atTxn]
          using covered
      · simpa [Local.locks, atTxn, Local.commitOf] using free
      · simpa [Local.writes, atTxn, Local.commitOf, next] using drawn
      · simpa [Local.view, Local.writes, atTxn, Local.commitOf] using inv.whole tid _ found
      · simpa [Local.locks, Local.writes, atTxn, Local.commitOf] using inv.referenced tid _ found
  · rcases proc.own.committed_cases config.world with same | ⟨txn, atTxn, grown⟩
    · rw [same]
      exact inv.intact _ List.suffix_rfl
    · rw [grown]
      simpa [Local.view, Local.writes, atTxn, Local.commitOf] using inv.whole tid _ found

/-- A process reaches the end of its program and leaves its jobs to run. -/
theorem finished (inv : config.Inv system ok terms) (keeps : Keeps system ok terms)
    (found : config.procs tid = some proc) {jobs : List system.Job}
    {answer : X.Answer} (holds : Proc.post terms proc.job (answer, jobs) proc.own config.world)
    (agrees : (jobs.foldl (Config.spawn system)
      (config.update tid { proc with life := .ended answer } config.world)).Agrees terms.jobs) :
    (jobs.foldl (Config.spawn system)
      (config.update tid { proc with life := .ended answer } config.world)).Inv
        system ok terms := by
  have free := inv.free found
  have mine := inv.covered tid _ found
  have drawn := inv.drawn tid _ found
  have begun := inv.begun tid _ found
  have whole := inv.whole tid _ found
  have referenced := inv.referenced tid _ found
  have nodup := (inv.fresh tid _ found).1
  have ended : (config.update tid { proc with life := .ended answer } config.world).Inv
      system ok terms := by
    refine inv.act keeps found {
      job := rfl
      named := rfl
      clock := Nat.le_refl _
      next := fun _ => Nat.le_refl _
      history := Or.inl rfl
      compatible := free
      covered := mine
      drawn := drawn
      begun := begun
      flown := fun flight atFlight => by simp [Proc.flight] at atFlight
      nodup := ?_
      starts := fun start member => ?_
      calls := Or.inl rfl
      safe := holds.2
      whole := whole
      referenced := referenced }
    · rw [Proc.starts] at nodup
      simpa [Proc.starts, Proc.flight] using nodup.of_append_left
    · have before : start ∈ (proc.own.txn.map Txn.start).toList := by
        simpa [Proc.starts, Proc.flight] using member
      exact Or.inl (List.mem_append_left _ before)
  exact ended.spawnAll keeps holds.1 agrees

/-- A process takes the step of its node. -/
theorem step (inv : config.Inv system ok terms) (keeps : Keeps system ok terms)
    (found : config.procs tid = some proc)
    (moved : stepProc system config tid proc = some next) (agrees : next.Agrees terms.jobs) :
    next.Inv system ok terms := by
  obtain ⟨job, own, life⟩ := proc
  rcases life with ⟨prog, _ | flight⟩ | _ | _ <;> try (simp [stepProc] at moved; done)
  have safe := inv.safe tid _ found
  cases prog with
  | done ending =>
      obtain ⟨answer, jobs⟩ := ending
      obtain rfl := Option.some.inj moved
      exact inv.finished keeps found safe agrees
  | beginTxn rest =>
      obtain rfl := Option.some.inj moved
      exact inv.beginTxn keeps found rfl (safe _ Rely.refl inv.wellFormed).2
  | commit rest =>
      obtain rfl := Option.some.inj moved
      obtain ⟨extends_, after⟩ := safe _ Rely.refl inv.wellFormed
      exact inv.commit keeps found rfl extends_ after
  | rollback rest =>
      obtain rfl := Option.some.inj moved
      exact inv.drop keeps found _ rfl (safe _ Rely.refl inv.wellFormed)
  | _ => simp [stepProc] at moved

/-- Time passes. -/
theorem wait (inv : config.Inv system ok terms) (keeps : Keeps system ok terms) (ticks : ℕ) :
    ({ config with world := { config.world with clock := config.world.clock + ticks } } :
      Config σ X system.Job).Inv system ok terms := by
  have later : config.world.clock ≤ config.world.clock + ticks := Nat.le_add_right _ _
  have wf : ({ config.world with clock := config.world.clock + ticks } : World σ X).WellFormed :=
    ⟨inv.wellFormed.started,
      fun commit member => (inv.wellFormed.stopped commit member).trans_le later,
      inv.wellFormed.drawn⟩
  exact {
    wellFormed := wf
    kept := inv.kept
    timely := inv.timely
    numbered := inv.numbered
    recorded := inv.recorded
    spoken := inv.spoken
    named := inv.named
    compatible := inv.compatible
    covered := inv.covered
    drawn := inv.drawn
    begun := inv.begun
    flown := inv.flown
    fresh := fun other q at_ => ⟨(inv.fresh other q at_).1, fun start member =>
      ⟨((inv.fresh other q at_).2 start member).1.trans_le later,
        ((inv.fresh other q at_).2 start member).2⟩⟩
    apart := inv.apart
    safe := fun other q at_ => (inv.safe other q at_).interfere keeps
      { clock := later
        next := fun _ => Nat.le_refl _
        history := Or.inl rfl
        wellFormed := wf }
    prepared := inv.prepared
    intact := inv.intact
    whole := inv.whole
    referenced := inv.referenced }

/-- Nothing has run. -/
theorem initial : (Config.initial system).Inv system ok terms where
  wellFormed := ⟨fun _ member => absurd member List.not_mem_nil,
    fun _ member => absurd member List.not_mem_nil,
    fun _ member => absurd member List.not_mem_nil⟩
  numbered _ member := absurd member List.not_mem_nil
  recorded _ _ found := by simp [Config.initial] at found
  spoken _ _ found := by simp [Config.initial] at found
  kept _ _ suffix := by simp [Config.initial] at suffix
  timely := ⟨fun _ _ suffix => by simp [Config.initial] at suffix, List.Pairwise.nil,
    List.Pairwise.nil, fun _ member => absurd member List.not_mem_nil⟩
  named _ _ found := by simp [Config.initial] at found
  compatible _ _ _ _ found := by simp [Config.initial] at found
  covered _ _ found := by simp [Config.initial] at found
  drawn _ _ found := by simp [Config.initial] at found
  begun _ _ found := by simp [Config.initial] at found
  flown _ _ found := by simp [Config.initial] at found
  fresh _ _ found := by simp [Config.initial] at found
  apart _ _ _ _ found := by simp [Config.initial] at found
  safe _ _ found := by simp [Config.initial] at found
  prepared _ _ found := by simp [Config.initial] at found
  intact earlier suffix := by
    obtain rfl := List.suffix_nil.mp suffix
    exact Intact.empty _
  whole _ _ found := by simp [Config.initial] at found
  referenced _ _ found := by simp [Config.initial] at found

/-- Every move keeps the invariant. -/
theorem move (inv : config.Inv system ok terms) (keeps : Keeps system ok terms)
    {choice : Move X system.Job} (moved : Config.move system config choice = some next)
    (agrees : next.Agrees terms.jobs) : next.Inv system ok terms := by
  cases choice with
  | spawn job =>
      simp only [Config.move] at moved
      split at moved
      · rename_i isRoot
        obtain rfl := Option.some.inj moved
        exact inv.spawn keeps (keeps.root job _ isRoot) agrees.spawned
      · cases moved
  | start tid =>
      obtain ⟨proc, found, moved⟩ := Option.bind_eq_some_iff.mp moved
      exact inv.start keeps found moved
  | finish tid =>
      obtain ⟨proc, found, moved⟩ := Option.bind_eq_some_iff.mp moved
      exact inv.finish keeps found moved
  | fail tid failure =>
      obtain ⟨proc, found, moved⟩ := Option.bind_eq_some_iff.mp moved
      exact inv.fail keeps found moved
  | step tid =>
      obtain ⟨proc, found, moved⟩ := Option.bind_eq_some_iff.mp moved
      exact inv.step keeps found moved agrees
  | reply tid answer =>
      obtain ⟨proc, found, moved⟩ := Option.bind_eq_some_iff.mp moved
      exact inv.reply keeps found moved
  | crash tid =>
      obtain ⟨proc, found, moved⟩ := Option.bind_eq_some_iff.mp moved
      exact inv.crash keeps found moved
  | wait ticks =>
      obtain rfl := Option.some.inj moved
      exact inv.wait keeps ticks

end Config.Inv

namespace Keeps

variable {config : Config σ X system.Job}

/-- A verified system keeps its invariant in every reachable state. -/
theorem inv (keeps : Keeps system ok terms) (reachable : Config.Reachable system config)
    (agrees : config.Agrees terms.jobs) : config.Inv system ok terms := by
  induction reachable with
  | initial => exact Config.Inv.initial
  | move prior _ moved ih =>
      have before := (prior.numbered.move moved).agrees agrees
      exact (ih before).move keeps moved agrees

/-- Every commit of every run keeps the guarantee, after the commits before it. -/
theorem sound (keeps : Keeps system ok terms) (reachable : Config.Reachable system config)
    (agrees : config.Agrees terms.jobs) {commit : Commit σ X} {earlier : History σ X}
    (suffix : commit :: earlier <:+ config.world.history) : ok.commits earlier commit :=
  (keeps.inv reachable agrees).kept commit earlier suffix

/-- Every call of every process was allowed when it was made. -/
theorem spoken (keeps : Keeps system ok terms) (reachable : Config.Reachable system config)
    (agrees : config.Agrees terms.jobs) {tid : ℕ} {proc : Proc σ X system.Job}
    (found : config.procs tid = some proc) :
    Spoken ok tid proc.own.calls config.world.history := by
  have inv := keeps.inv reachable agrees
  rw [← (inv.named tid proc found).2]
  exact inv.spoken tid proc found

/-- A process whose program has ended has kept its terms. -/
theorem done (keeps : Keeps system ok terms) (reachable : Config.Reachable system config)
    (agrees : config.Agrees terms.jobs) {tid : ℕ} {proc : Proc σ X system.Job}
    (found : config.procs tid = some proc) {answer : X.Answer}
    (ended : proc.life = .ended answer) :
    terms.done proc.job answer tid proc.own.calls config.world.history := by
  have inv := keeps.inv reachable agrees
  have safe := inv.safe tid proc found
  rw [Proc.Safe, ended, (inv.named tid proc found).2] at safe
  exact safe

/-- Every database that was ever committed keeps its declared constraints. -/
theorem intact (keeps : Keeps system ok terms) (reachable : Config.Reachable system config)
    (agrees : config.Agrees terms.jobs) {earlier : History σ X}
    (suffix : earlier <:+ config.world.history) : Intact system.schema earlier.db :=
  (keeps.inv reachable agrees).intact earlier suffix

/-- Start times order the commits of every run. -/
theorem timely (keeps : Keeps system ok terms) (reachable : Config.Reachable system config)
    (agrees : config.Agrees terms.jobs) : Timely config.world.history :=
  (keeps.inv reachable agrees).timely

end Keeps

end ReadCommitted

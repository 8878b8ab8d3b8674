import ReceiptScanner.ReadCommitted.Scope

/-!
# Rules for tasks

`Svc.wp` is `Prog.wp` with one condition on the value a task returns and one on
the exception it raises; `Svc.Yields` is `Prog.Yields` of a task. The body of a
transaction is taken apart by the `yields` lemmas, everything around it by the `wp`
lemmas, and `wp_transaction` is where the two meet.
-/

namespace ReadCommitted

variable {σ : Signature} {X : Interface}

namespace Svc

variable {ε α β γ : Type}

section Body

/-- A task that may stand in the body of a transaction. -/
def Inside (ok : Guarantee σ X) (task : Svc σ X ε α) : Prop := Prog.Inside ok task.run

/-- The task can end with this result and leave this scope. -/
def Yields (schema : Schema σ) (start : ℕ) (task : Svc σ X ε α) (scope : Scope σ X)
    (result : Except ε α) (scope' : Scope σ X) : Prop :=
  Prog.Yields schema start task.run scope result scope'

section Inside

variable {ok : Guarantee σ X}

theorem inside_pure (value : α) : Inside ok (pure value : Svc σ X ε α) := trivial

theorem inside_throw (exception : ε) : Inside ok (throw exception : Svc σ X ε α) := trivial

theorem inside_bind {first : Svc σ X ε β} {rest : β → Svc σ X ε α} (before : Inside ok first)
    (after : ∀ value, Inside ok (rest value)) : Inside ok (first >>= rest) := by
  refine Prog.inside_bind before fun result => ?_
  cases result with
  | ok value => exact after value
  | error exception => trivial

theorem inside_tryCatch {body : Svc σ X ε α} {handler : ε → Svc σ X ε α}
    (inside : Inside ok body) (handled : ∀ exception, Inside ok (handler exception)) :
    Inside ok (tryCatch body handler) := by
  refine Prog.inside_bind inside fun result => ?_
  cases result with
  | ok value => trivial
  | error exception => exact handled exception

theorem inside_exec (raise : SqlFailure → ε) (stmt : Stmt σ β) :
    Inside ok (exec raise true stmt : Svc σ X ε β) :=
  ⟨rfl, fun reply => by cases reply <;> trivial⟩

theorem inside_call {c : X.Call} {read : X.Reply c → Except ε α} (free : ok.Free c) :
    Inside ok (call c read : Svc σ X ε α) := ⟨free, fun _ => trivial⟩

theorem inside_rollback : Inside ok (rollback : Svc σ X ε Unit) := trivial

theorem inside_rollingBack {body : Svc σ X ε α} (inside : Inside ok body) :
    Inside ok (rollingBack body) :=
  inside_tryCatch inside fun exception => inside_bind inside_rollback fun _ =>
    inside_throw exception

theorem inside_forM {round : β → Svc σ X ε PUnit} (items : List β)
    (inside : ∀ item, Inside ok (round item)) : Inside ok (items.forM round) := by
  induction items with
  | nil => exact inside_pure _
  | cons item rest ih => exact inside_bind (inside item) fun _ => ih

theorem inside_forM_option {round : β → Svc σ X ε PUnit} (item : Option β)
    (inside : ∀ item, Inside ok (round item)) : Inside ok (item.forM round) := by
  cases item with
  | none => exact inside_pure _
  | some value => exact inside value

end Inside

variable {schema : Schema σ} {start : ℕ} {scope scope' : Scope σ X}

@[simp] theorem yields_pure {value : α} {result : Except ε α} :
    Yields schema start (pure value) scope result scope' ↔ result = .ok value ∧ scope' = scope :=
  ⟨fun ran => ⟨ran.1.symm, ran.2.symm⟩, fun ran => ⟨ran.1.symm, ran.2.symm⟩⟩

@[simp] theorem yields_throw {exception : ε} {result : Except ε α} :
    Yields schema start (throw exception) scope result scope' ↔
      result = .error exception ∧ scope' = scope :=
  ⟨fun ran => ⟨ran.1.symm, ran.2.symm⟩, fun ran => ⟨ran.1.symm, ran.2.symm⟩⟩

/-- A sequence that returns had a first part that returned. -/
theorem yields_bind {first : Svc σ X ε β} {rest : β → Svc σ X ε α} {value : α} :
    Yields schema start (first >>= rest) scope (.ok value) scope' ↔
      ∃ middle between, Yields schema start first scope (.ok middle) between ∧
        Yields schema start (rest middle) between (.ok value) scope' := by
  refine Prog.yields_bind.trans ?_
  constructor
  · rintro ⟨middle | middle, between, before, after⟩
    · exact absurd after.1 (by simp)
    · exact ⟨middle, between, before, after⟩
  · rintro ⟨middle, between, before, after⟩
    exact ⟨.ok middle, between, before, after⟩

/-- A sequence raises what its first part raises, or its second part. -/
theorem yields_bind_error {first : Svc σ X ε β} {rest : β → Svc σ X ε α} {exception : ε} :
    Yields schema start (first >>= rest) scope (.error exception) scope' ↔
      Yields schema start first scope (.error exception) scope' ∨
      ∃ middle between, Yields schema start first scope (.ok middle) between ∧
        Yields schema start (rest middle) between (.error exception) scope' := by
  refine Prog.yields_bind.trans ?_
  constructor
  · rintro ⟨middle | middle, between, before, after⟩
    · obtain ⟨same, rfl⟩ := after
      obtain rfl := Except.error.inj same
      exact Or.inl before
    · exact Or.inr ⟨middle, between, before, after⟩
  · rintro (before | ⟨middle, between, before, after⟩)
    · exact ⟨.error exception, scope', before, rfl, rfl⟩
    · exact ⟨.ok middle, between, before, after⟩

/-- A handler leaves what is returned alone. -/
theorem yields_tryCatch {body : Svc σ X ε α} {handler : ε → Svc σ X ε α} {result : Except ε α} :
    Yields schema start (tryCatch body handler) scope result scope' ↔
      (∃ value, result = .ok value ∧ Yields schema start body scope (.ok value) scope') ∨
      ∃ exception between, Yields schema start body scope (.error exception) between ∧
        Yields schema start (handler exception) between result scope' := by
  refine Prog.yields_bind.trans ?_
  constructor
  · rintro ⟨exception | value, between, before, after⟩
    · exact Or.inr ⟨exception, between, before, after⟩
    · obtain ⟨rfl, rfl⟩ := after
      exact Or.inl ⟨value, rfl, before⟩
  · rintro (⟨value, rfl, before⟩ | ⟨exception, between, before, after⟩)
    · exact ⟨.ok value, scope', before, rfl, rfl⟩
    · exact ⟨.error exception, between, before, after⟩

/-- A statement that returns has become the latest log entry. -/
theorem yields_exec {raise : SqlFailure → ε} {inTxn : Bool} {stmt : Stmt σ β} {value : β} :
    Yields schema start (exec raise inTxn stmt) scope (.ok value) scope' ↔
      ∃ log entry ctx, scope.phase = .live log ∧
        Entry.Ran schema start log.writes stmt entry ctx ∧ value = (stmt ctx).result ∧
        scope' = ⟨scope.calls, .live (entry :: log)⟩ := by
  constructor
  · rintro (⟨log, entry, ctx, live, ran, same, rfl⟩ | ⟨failure, same, -⟩)
    · exact ⟨log, entry, ctx, live, ran, (Except.ok.inj same).symm, rfl⟩
    · simp at same
  · rintro ⟨log, entry, ctx, live, ran, rfl, rfl⟩
    exact Or.inl ⟨log, entry, ctx, live, ran, rfl, rfl⟩

/-- A statement that raises has aborted its transaction. -/
theorem yields_exec_error {raise : SqlFailure → ε} {inTxn : Bool} {stmt : Stmt σ β}
    {exception : ε}
    (ran : Yields schema start (exec raise inTxn stmt) scope (.error exception) scope') :
    scope' = ⟨scope.calls, scope.phase.fail⟩ := by
  rcases ran with ⟨_, _, _, -, -, same, -⟩ | ⟨failure, -, rfl⟩
  · simp at same
  · rfl

/-- An outside call. -/
theorem yields_call {c : X.Call} {read : X.Reply c → Except ε α} {result : Except ε α} :
    Yields schema start (call c read) scope result scope' ↔
      ∃ reply, result = read reply ∧ scope' = ⟨⟨c, reply⟩ :: scope.calls, scope.phase⟩ := by
  constructor
  · rintro ⟨reply, same, rfl⟩
    exact ⟨reply, same.symm, rfl⟩
  · rintro ⟨reply, rfl, rfl⟩
    exact ⟨reply, rfl, rfl⟩

@[simp] theorem yields_rollback {result : Except ε Unit} :
    Yields schema start rollback scope result scope' ↔
      result = .ok () ∧ scope' = ⟨scope.calls, .closed⟩ :=
  ⟨fun ran => ⟨ran.1.symm, ran.2.symm⟩, fun ran => ⟨ran.1.symm, ran.2.symm⟩⟩

/-- What a body returns, it returns when it rolls back on exceptions. -/
theorem yields_rollingBack {body : Svc σ X ε α} {value : α} :
    Yields schema start (rollingBack body) scope (.ok value) scope' ↔
      Yields schema start body scope (.ok value) scope' := by
  refine yields_tryCatch.trans ?_
  constructor
  · rintro (⟨other, same, ran⟩ | ⟨exception, between, -, ran⟩)
    · obtain rfl := Except.ok.inj same
      exact ran
    · obtain ⟨_, _, -, ran⟩ := yields_bind.mp ran
      exact absurd (yields_throw.mp ran).1 (by simp)
  · exact fun ran => Or.inl ⟨value, rfl, ran⟩

/-- A body that rolls back on exceptions raises with no transaction open. -/
theorem yields_rollingBack_error {body : Svc σ X ε α} {exception : ε}
    (ran : Yields schema start (rollingBack body) scope (.error exception) scope') :
    scope'.phase = .closed := by
  rcases yields_tryCatch.mp ran with ⟨_, same, -⟩ | ⟨raised, between, -, handled⟩
  · simp at same
  · rcases yields_bind_error.mp handled with rolled | ⟨_, middle, rolled, thrown⟩
    · exact absurd (yields_rollback.mp rolled).1 (by simp)
    · rw [(yields_throw.mp thrown).2, (yields_rollback.mp rolled).2]

@[simp] theorem yields_forM_nil {round : β → Svc σ X ε PUnit} {result : Except ε PUnit} :
    Yields schema start (([] : List β).forM round) scope result scope' ↔
      result = .ok ⟨⟩ ∧ scope' = scope := yields_pure

theorem yields_forM_cons {round : β → Svc σ X ε PUnit} {item : β} {rest : List β} :
    Yields schema start ((item :: rest).forM round) scope (.ok ⟨⟩) scope' ↔
      ∃ between, Yields schema start (round item) scope (.ok ⟨⟩) between ∧
        Yields schema start (rest.forM round) between (.ok ⟨⟩) scope' := by
  refine yields_bind.trans ⟨?_, ?_⟩
  · rintro ⟨_, between, first, second⟩
    exact ⟨between, first, second⟩
  · rintro ⟨between, first, second⟩
    exact ⟨⟨⟩, between, first, second⟩

end Body

section Wp

variable (ok : Guarantee σ X) (schema : Schema σ)

/-- A condition on the value and one on the exception, as one on the result. -/
def either (post : Post σ X α) (raised : Post σ X ε) : Post σ X (Except ε α)
  | .ok value => post value
  | .error exception => raised exception

/-- The weakest precondition of a task. -/
def wp (task : Svc σ X ε α) (post : Post σ X α) (raised : Post σ X ε) (own : Local σ X)
    (world : World σ X) : Prop :=
  task.run.wp ok schema (either post raised) own world

end Wp

variable {ok : Guarantee σ X} {schema : Schema σ} {post : Post σ X α} {raised : Post σ X ε}
  {own : Local σ X} {world : World σ X}

theorem wp_mono {post' : Post σ X α} {raised' : Post σ X ε} {task : Svc σ X ε α}
    (safe : task.wp ok schema post raised own world)
    (returns : ∀ value own world, post value own world → post' value own world)
    (raises : ∀ exception own world, raised exception own world → raised' exception own world) :
    task.wp ok schema post' raised' own world := by
  refine Prog.wp_mono (fun result own world => ?_) safe
  cases result with
  | ok value => exact returns value own world
  | error exception => exact raises exception own world

/-- A safe task ends with a longer history than it began with. -/
theorem wp_grows {task : Svc σ X ε α} (safe : task.wp ok schema post raised own world) :
    task.wp ok schema
      (fun value own later => post value own later ∧ world.history <:+ later.history) raised
      own world := by
  refine Prog.wp_mono (fun result own later => ?_) (Prog.wp_grows List.suffix_rfl safe)
  cases result with
  | ok value => exact id
  | error exception => exact And.left

theorem wp_pure {value : α} (holds : post value own world) :
    (pure value : Svc σ X ε α).wp ok schema post raised own world := holds

theorem wp_throw {exception : ε} (holds : raised exception own world) :
    (throw exception : Svc σ X ε α).wp ok schema post raised own world := holds

theorem wp_bind {first : Svc σ X ε β} {rest : β → Svc σ X ε α}
    (safe : first.wp ok schema (fun value => (rest value).wp ok schema post raised) raised
      own world) : (first >>= rest).wp ok schema post raised own world := by
  refine Prog.wp_bind.mpr (Prog.wp_mono (fun result own world => ?_) safe)
  cases result with
  | ok value => exact id
  | error exception => exact id

theorem wp_tryCatch {body : Svc σ X ε α} {handler : ε → Svc σ X ε α}
    (safe : body.wp ok schema post (fun exception => (handler exception).wp ok schema post raised)
      own world) : (tryCatch body handler).wp ok schema post raised own world := by
  refine Prog.wp_bind.mpr (Prog.wp_mono (fun result own world => ?_) safe)
  cases result with
  | ok value => exact id
  | error exception => exact id

/-- A loop over a list: an invariant that each round keeps. -/
theorem wp_forM {round : β → Svc σ X ε PUnit} {items : List β}
    (invariant : List β → Local σ X → World σ X → Prop)
    (step : ∀ item rest own world, item :: rest <:+ items → invariant (item :: rest) own world →
      (round item).wp ok schema (fun _ => invariant rest) raised own world)
    (begins : invariant items own world) :
    (items.forM round).wp ok schema (fun _ => invariant []) raised own world := by
  induction items generalizing own world with
  | nil => exact wp_pure begins
  | cons item rest ih =>
      change (round item >>= fun _ => rest.forM round).wp ok schema (fun _ => invariant []) raised
        own world
      refine wp_bind (wp_mono (step item rest own world List.suffix_rfl begins) ?_
        fun _ _ _ => id)
      intro _ own world holds
      exact ih (fun other more own world suffix => step other more own world
        (suffix.trans (List.suffix_cons _ _))) holds

/-- An outside call. -/
theorem wp_call {c : X.Call} {read : X.Reply c → Except ε α}
    (allowed : ∀ history, Foreign own.tid world.history history →
      ok.calls own.tid own.calls c history)
    (answered : ∀ (later : World σ X) reply, Foreign own.tid world.history later.history →
      either post raised (read reply) (own.called ⟨c, reply⟩) later) :
    (Svc.call c read).wp ok schema post raised own world :=
  fun later rely _ => ⟨allowed later.history rely.foreign, fun reply => answered _ reply rely.foreign⟩

variable {tid : ℕ} {calls : List (Said X)}

/-- What a process has committed while a scope was open: its log, if that is live
and has writes. -/
def Ended (opening : Opening) (scope : Scope σ X) (before after : History σ X) : Prop :=
  match scope.phase with
  | .live log =>
      if log.writes = [] then Foreign opening.tid before after
      else ∃ earlier stop, after = opening.commit scope.calls log stop :: earlier ∧
        Foreign opening.tid before earlier
  | _ => Foreign opening.tid before after

/-- The end of a scope, with the log that it leaves: the process has committed that log, if
it has writes, and nothing else. -/
def Closed (opening : Opening) (scope : Scope σ X) (before after : History σ X) : Prop :=
  match scope.phase with
  | .live log => ∃ earlier stop, Foreign opening.tid before earlier ∧ Linked opening earlier log ∧
      after = if log.writes = [] then earlier else opening.commit scope.calls log stop :: earlier
  | _ => Foreign opening.tid before after

theorem closed_of_committed {opening : Opening} {scope : Scope σ X} {own : Local σ X}
    {before : History σ X} {after : World σ X} (matched : scope.Matches opening own after)
    (foreign : Foreign opening.tid before after.history) :
    Closed opening scope before (own.committed after).history := by
  have phase := matched.phase
  obtain ⟨calls, log | _ | _⟩ := scope
  · obtain ⟨rfl, linked⟩ := phase
    refine ⟨after.history, after.clock, foreign, linked, ?_⟩
    by_cases silent : log.writes = []
    · simp [Local.committed, Opening.own, silent, World.tick]
    · simp [Local.committed, Opening.own, silent, Local.commitOf, Opening.commit]
  · obtain ⟨txn, atTxn, dead⟩ := phase
    simpa [Closed, Local.committed, atTxn, dead, World.tick] using foreign
  · have closed : own.txn = none := phase
    simpa [Closed, Local.committed, closed, World.tick] using foreign

theorem Closed.ended {opening : Opening} {scope : Scope σ X} {before after : History σ X}
    (closed : Closed opening scope before after) : Ended opening scope before after := by
  obtain ⟨calls, log | _ | _⟩ := scope
  · obtain ⟨earlier, stop, foreign, -, rfl⟩ := closed
    by_cases silent : log.writes = []
    · simpa only [Ended, silent, if_true] using foreign
    · simp only [Ended, silent, if_false]
      exact ⟨earlier, stop, rfl, foreign⟩
  · exact closed
  · exact closed

theorem Ended.suffix {opening : Opening} {scope : Scope σ X} {before after : History σ X}
    (ended : Ended opening scope before after) : before <:+ after := by
  obtain ⟨calls, log | _ | _⟩ := scope
  · by_cases silent : log.writes = []
    · simp only [Ended, silent, if_true] at ended
      exact ended.suffix
    · simp only [Ended, silent, if_false] at ended
      obtain ⟨earlier, stop, rfl, foreign⟩ := ended
      exact foreign.suffix.trans (List.suffix_cons _ _)
  · exact Foreign.suffix ended
  · exact Foreign.suffix ended

/-- The scope of a transaction: whatever its body yields, the log it leaves live
may be committed. -/
theorem wp_transactionClosed {raise : SqlFailure → ε} {body : Svc σ X ε α} (inside : Inside ok body)
    (commits : ∀ (opening : Opening) result calls' log (later : World σ X), opening.tid = tid →
      body.Yields schema opening.start ⟨calls, .live []⟩ result ⟨calls', .live log⟩ →
      log.writes ≠ [] → world.history <:+ later.history →
      world.history.length ≤ opening.began → Linked opening later.history log →
      ok.commits later.history (opening.commit calls' log later.clock))
    (ends : ∀ (opening : Opening) result scope (later : World σ X), opening.tid = tid →
      body.Yields schema opening.start ⟨calls, .live []⟩ result scope →
      world.history.length ≤ opening.began → Closed opening scope world.history later.history →
      either post raised result (idle tid scope.calls) later)
    (refused : ∀ failure (later : World σ X), Foreign tid world.history later.history →
      raised (raise failure) (idle tid calls) later) :
    (transaction raise body).wp ok schema post raised (idle tid calls) world := by
  intro first relyFirst wfFirst
  have toFirst : Foreign tid world.history first.history := relyFirst.foreign
  refine ⟨fun failure => refused failure first toFirst, ?_⟩
  let opening : Opening := ⟨tid, first.clock, first.history.length⟩
  have begun : Scope.Matches opening ⟨calls, .live []⟩ (opening.own calls []) first.tick :=
    ⟨rfl, rfl, fun _ member => absurd member List.not_mem_nil, rfl,
      Linked.nil (Nat.le_refl _)⟩
  refine Prog.wp_bind.mpr (Prog.wp_yields inside begun fun result scope own last ran matched
    foreign => ?_)
  intro later rely wf
  have there := matched.rely rely
  have toLater : Foreign opening.tid world.history later.history :=
    toFirst.trans (foreign.trans (matched.tid ▸ rely.foreign))
  constructor
  · obtain ⟨calls', log | _ | _⟩ := scope
    · obtain ⟨rfl, linked⟩ := there.phase
      by_cases silent : log.writes = []
      · exact Or.inl (by simp [Local.committed, Opening.own, silent, World.tick])
      · refine Or.inr ⟨_, ?_, commits opening result calls' log later rfl ran silent
          toLater.suffix toFirst.suffix.length_le linked⟩
        simp [Local.committed, Opening.own, silent, Local.commitOf, Opening.commit]
    · obtain ⟨txn, atTxn, dead⟩ := there.phase
      exact Or.inl (by simp [Local.committed, atTxn, dead, World.tick])
    · have closed : own.txn = none := there.phase
      exact Or.inl (by simp [Local.committed, closed, World.tick])
  · have dropped : own.drop = idle tid scope.calls := by
      simp [Local.drop, idle, matched.tid, matched.calls, opening]
    rw [dropped]
    exact ends opening result scope _ rfl ran toFirst.suffix.length_le
      (closed_of_committed there toLater)

/-- A statement under way on the plain client: a transaction with one log entry. -/
theorem flightSafe_exec {stmt : Stmt σ α} {flight : Flight σ X}
    {next : Post σ X (Except SqlFailure α)} (past : flight.history <:+ world.history)
    (failed : ∀ failure (later : World σ X), Foreign tid world.history later.history →
      next (.error failure) (idle tid calls) later)
    (commits : ∀ (entry : Entry σ X) ctx, entry.snap = flight.history →
      Entry.RanFirst schema flight.start stmt entry ctx →
      Linked ⟨tid, flight.start, flight.history.length⟩ entry.cur [entry] → entry.writes ≠ [] →
      ok.commits entry.cur (Opening.commit ⟨tid, flight.start, flight.history.length⟩ calls [entry]
        (ctx.clock + (stmt ctx).ticks)))
    (returns : ∀ (entry : Entry σ X) ctx (later : World σ X), entry.snap = flight.history →
      Entry.RanFirst schema flight.start stmt entry ctx → Foreign tid world.history entry.cur →
      world.clock ≤ later.clock → later.history = (if entry.writes = [] then entry.cur
        else Opening.commit ⟨tid, flight.start, flight.history.length⟩ calls [entry]
          (ctx.clock + (stmt ctx).ticks) :: entry.cur) →
      next (.ok (stmt ctx).result) (idle tid calls) later) :
    FlightSafe ok schema false stmt flight next (idle tid calls) world := by
  intro last rely wf
  have toLast : Foreign tid world.history last.history := rely.foreign
  refine ⟨fun failure => failed failure last toLast, ?_⟩
  intro others pending reply own' world' finished
  rcases finish_cases finished with ⟨failure, rfl, rfl, rfl⟩ |
    ⟨outcome, locks, rfl, settled, rfl, ⟨impossible, -⟩ | ⟨-, rfl, passed⟩⟩
  · exact ⟨Or.inl rfl, failed failure _ toLast⟩
  · exact absurd impossible (by decide)
  · have idleLocks : (idle tid calls : Local σ X).locks = [] := rfl
    simp only [Bool.not_false, Local.sender_true, Local.sender_false, idleLocks,
      List.append_nil] at settled passed ⊢
    let opening : Opening := ⟨tid, flight.start, flight.history.length⟩
    let ctx := ctxOf (idle tid calls : Local σ X).drop flight last others
    let entry : Entry σ X := ⟨flight.history, last.history, locks, (stmt ctx).writes⟩
    have ran : Entry.RanFirst schema flight.start stmt entry ctx := {
      snap := rfl
      cur := rfl
      now := rfl
      writes := rfl
      settled := Schema.settle_eq_some settled
      unused := fun table id undrawn => wf.unused undrawn
      stopped := wf.stopped
      drawn := fun _ member => absurd member List.not_mem_nil }
    have between : flight.history <:+ last.history := past.trans toLast.suffix
    have linked : Linked opening entry.cur [entry] :=
      Linked.cons (Linked.nil (Nat.le_refl _)) List.suffix_rfl between
        (Linked.nil between.length_le)
    have isCommit : (idle tid calls : Local σ X).singleCommit flight last (stmt ctx) locks =
        opening.commit calls [entry] (ctx.clock + (stmt ctx).ticks) := rfl
    have clock : world.clock ≤ (last.pass (stmt ctx)).clock :=
      rely.clock.trans (by simp only [World.pass]; omega)
    rcases passed with ⟨silent, rfl⟩ | ⟨written, rfl⟩
    · refine ⟨Or.inl rfl, returns entry ctx _ rfl ran toLast clock ?_⟩
      rw [if_pos silent]
      rfl
    · refine ⟨Or.inr ⟨_, rfl, ?_⟩, returns entry ctx _ rfl ran toLast clock ?_⟩
      · rw [isCommit]
        exact commits entry ctx rfl ran linked written
      · rw [if_neg written]
        rfl

/-- A statement on the plain client, which does not begin before the clock says so. -/
theorem wp_execTimed {raise : SqlFailure → ε} {stmt : Stmt σ α}
    (failed : ∀ failure (later : World σ X), Foreign tid world.history later.history →
      raised (raise failure) (idle tid calls) later)
    (commits : ∀ (opening : Opening) (entry : Entry σ X) ctx, opening.tid = tid →
      world.clock ≤ opening.start → Entry.RanFirst schema opening.start stmt entry ctx →
      world.history <:+ entry.snap → Linked opening entry.cur [entry] → entry.writes ≠ [] →
      ok.commits entry.cur (opening.commit calls [entry] (ctx.clock + (stmt ctx).ticks)))
    (returns : ∀ (opening : Opening) (entry : Entry σ X) ctx (later : World σ X),
      opening.tid = tid → world.clock ≤ opening.start →
      Entry.RanFirst schema opening.start stmt entry ctx →
      Foreign tid world.history entry.snap → Foreign tid entry.snap entry.cur →
      opening.start ≤ later.clock → later.history = (if entry.writes = [] then entry.cur
        else opening.commit calls [entry] (ctx.clock + (stmt ctx).ticks) :: entry.cur) →
      post (stmt ctx).result (idle tid calls) later) :
    (exec raise false stmt).wp ok schema post raised (idle tid calls) world := by
  intro first rely wf
  have toFirst : Foreign tid world.history first.history := rely.foreign
  refine ⟨fun failure => failed failure first toFirst, ?_⟩
  refine flightSafe_exec (List.suffix_rfl : first.history <:+ first.tick.history)
    (fun failure later foreign => failed failure later (toFirst.trans foreign)) ?_ ?_
  · intro entry ctx same ran linked written
    exact commits _ entry ctx rfl rely.clock ran (same ▸ toFirst.suffix) linked written
  · intro entry ctx later same ran during clock after
    exact returns _ entry ctx later rfl rely.clock ran (same ▸ toFirst) (same ▸ during)
      ((Nat.le_succ first.clock).trans clock) after

/-- A statement on the plain client: a transaction with one log entry. -/
theorem wp_exec {raise : SqlFailure → ε} {stmt : Stmt σ α}
    (failed : ∀ failure (later : World σ X), Foreign tid world.history later.history →
      raised (raise failure) (idle tid calls) later)
    (commits : ∀ (opening : Opening) (entry : Entry σ X) ctx, opening.tid = tid →
      Entry.RanFirst schema opening.start stmt entry ctx → world.history <:+ entry.snap →
      Linked opening entry.cur [entry] → entry.writes ≠ [] →
      ok.commits entry.cur (opening.commit calls [entry] (ctx.clock + (stmt ctx).ticks)))
    (returns : ∀ (opening : Opening) (entry : Entry σ X) ctx (later : World σ X),
      opening.tid = tid → Entry.RanFirst schema opening.start stmt entry ctx →
      Foreign tid world.history entry.snap → Foreign tid entry.snap entry.cur →
      later.history = (if entry.writes = [] then entry.cur
        else opening.commit calls [entry] (ctx.clock + (stmt ctx).ticks) :: entry.cur) →
      post (stmt ctx).result (idle tid calls) later) :
    (exec raise false stmt).wp ok schema post raised (idle tid calls) world :=
  wp_execTimed failed (fun opening entry ctx same _ => commits opening entry ctx same)
    fun opening entry ctx later same _ ran before during _ =>
      returns opening entry ctx later same ran before during

end Svc

end ReadCommitted

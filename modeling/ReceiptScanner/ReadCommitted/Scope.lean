import ReceiptScanner.ReadCommitted.Session

/-!
# What the body of a transaction can do

`Prog.Yields` runs the body of a transaction against every answer that the server
and the services can give, and relates the scope before to the result and the
scope after. It names no interference: that is in the log entries. `wp_yields`
connects it to `Prog.wp`, so that a body is verified by taking its run apart.
-/

namespace ReadCommitted

variable {σ : Signature} {X : Interface} {α β : Type}

/-- The state of the transaction of a scope. -/
inductive Phase (σ : Signature) (X : Interface) where
  | live (log : Log σ X)
  | aborted
  | closed

/-- A failed statement aborts a live transaction. -/
def Phase.fail : Phase σ X → Phase σ X
  | .live _ => .aborted
  | .aborted => .aborted
  | .closed => .closed

/-- The state of a scope: the process's calls so far, and the transaction. -/
structure Scope (σ : Signature) (X : Interface) where
  calls : List (Said X)
  phase : Phase σ X

/-- What may stand in the body of a transaction: no plain statement, BEGIN or COMMIT,
and only calls that are allowed at any time. -/
def Prog.Inside (ok : Guarantee σ X) : Prog σ X α → Prop
  | .done _ => True
  | .exec inTxn _ next => inTxn = true ∧ ∀ reply, (next reply).Inside ok
  | .beginTxn _ => False
  | .commit _ => False
  | .rollback next => next.Inside ok
  | .call c next => ok.Free c ∧ ∀ reply, (next reply).Inside ok

/-- The body can end with this result and leave this scope. -/
def Prog.Yields (schema : Schema σ) (start : ℕ) :
    Prog σ X α → Scope σ X → α → Scope σ X → Prop
  | .done value, scope, result, scope' => value = result ∧ scope = scope'
  | .exec _ stmt next, scope, result, scope' =>
      (∃ log entry ctx, scope.phase = .live log ∧
        Entry.Ran schema start log.writes stmt entry ctx ∧
        (next (.ok (stmt ctx).result)).Yields schema start ⟨scope.calls, .live (entry :: log)⟩
          result scope') ∨
      ∃ failure, (next (.error failure)).Yields schema start ⟨scope.calls, scope.phase.fail⟩
        result scope'
  | .beginTxn _, _, _, _ => False
  | .commit _, _, _, _ => False
  | .rollback next, scope, result, scope' =>
      next.Yields schema start ⟨scope.calls, .closed⟩ result scope'
  | .call c next, scope, result, scope' =>
      ∃ reply, (next reply).Yields schema start ⟨⟨c, reply⟩ :: scope.calls, scope.phase⟩ result scope'

namespace Prog

variable {ok : Guarantee σ X} {schema : Schema σ} {start : ℕ}

theorem inside_bind {prog : Prog σ X α} {rest : α → Prog σ X β} (first : prog.Inside ok)
    (second : ∀ value, (rest value).Inside ok) : (prog.bind rest).Inside ok := by
  induction prog with
  | done value => exact second value
  | exec inTxn stmt next ih => exact ⟨first.1, fun reply => ih reply (first.2 reply)⟩
  | beginTxn next => exact first.elim
  | commit next => exact first.elim
  | rollback next ih => exact ih first
  | call c next ih => exact ⟨first.1, fun reply => ih reply (first.2 reply)⟩

/-- A body that makes no call that a second guarantee restricts. -/
theorem Inside.mono {other : Guarantee σ X} {prog : Prog σ X α} (inside : prog.Inside ok)
    (free : ∀ c, ok.Free c → other.Free c) : prog.Inside other := by
  induction prog with
  | done value => trivial
  | exec inTxn stmt next ih => exact ⟨inside.1, fun reply => ih reply (inside.2 reply)⟩
  | beginTxn next => exact inside.elim
  | commit next => exact inside.elim
  | rollback next ih => exact ih inside
  | call c next ih => exact ⟨free c inside.1, fun reply => ih reply (inside.2 reply)⟩

/-- A sequence yields what its second part does from where its first part ends. -/
theorem yields_bind {prog : Prog σ X α} {rest : α → Prog σ X β} {scope scope' : Scope σ X}
    {result : β} :
    (prog.bind rest).Yields schema start scope result scope' ↔
      ∃ value middle, prog.Yields schema start scope value middle ∧
        (rest value).Yields schema start middle result scope' := by
  induction prog generalizing scope with
  | done value =>
      constructor
      · exact fun ran => ⟨value, scope, ⟨rfl, rfl⟩, ran⟩
      · rintro ⟨_, _, ⟨rfl, rfl⟩, ran⟩
        exact ran
  | exec inTxn stmt next ih =>
      simp only [bind, Yields, ih]
      constructor
      · rintro (⟨log, entry, ctx, live, ran, value, middle, first, second⟩ |
          ⟨failure, value, middle, first, second⟩)
        · exact ⟨value, middle, Or.inl ⟨log, entry, ctx, live, ran, first⟩, second⟩
        · exact ⟨value, middle, Or.inr ⟨failure, first⟩, second⟩
      · rintro ⟨value, middle, ⟨log, entry, ctx, live, ran, first⟩ | ⟨failure, first⟩, second⟩
        · exact Or.inl ⟨log, entry, ctx, live, ran, value, middle, first, second⟩
        · exact Or.inr ⟨failure, value, middle, first, second⟩
  | beginTxn next => simp [bind, Yields]
  | commit next => simp [bind, Yields]
  | rollback next ih => exact ih
  | call c next ih =>
      simp only [bind, Yields, ih]
      constructor
      · rintro ⟨reply, value, middle, first, second⟩
        exact ⟨value, middle, ⟨reply, first⟩, second⟩
      · rintro ⟨value, middle, ⟨reply, first⟩, second⟩
        exact ⟨reply, value, middle, first, second⟩

/-- A transaction that the body leaves live it has found so, and its log only grew. -/
theorem Yields.suffix {prog : Prog σ X α} {scope scope' : Scope σ X} {result : α} {log : Log σ X}
    (ran : prog.Yields schema start scope result scope') (live : scope'.phase = .live log) :
    ∃ older, scope.phase = .live older ∧ older <:+ log := by
  induction prog generalizing scope with
  | done value =>
      obtain ⟨-, rfl⟩ := ran
      exact ⟨log, live, List.suffix_rfl⟩
  | exec inTxn stmt next ih =>
      rcases ran with ⟨older, entry, ctx, was, -, ran⟩ | ⟨failure, ran⟩
      · obtain ⟨middle, now, inside⟩ := ih _ ran
        obtain rfl := Phase.live.inj now
        exact ⟨older, was, (List.suffix_cons _ _).trans inside⟩
      · obtain ⟨middle, now, -⟩ := ih _ ran
        obtain ⟨calls, phase⟩ := scope
        cases phase <;> cases now
  | beginTxn next => exact ran.elim
  | commit next => exact ran.elim
  | rollback next ih =>
      obtain ⟨middle, now, -⟩ := ih ran
      cases now
  | call c next ih =>
      obtain ⟨reply, ran⟩ := ran
      obtain ⟨older, was, inside⟩ := ih reply ran
      exact ⟨older, was, inside⟩

/-- The body makes only calls that are allowed at any time. -/
theorem Inside.calls {prog : Prog σ X α} {scope scope' : Scope σ X} {result : α}
    (inside : prog.Inside ok) (ran : prog.Yields schema start scope result scope') :
    ∃ made, scope'.calls = made ++ scope.calls ∧ ∀ said ∈ made, ok.Free said.call := by
  induction prog generalizing scope with
  | done value =>
      obtain ⟨-, rfl⟩ := ran
      exact ⟨[], rfl, fun _ member => absurd member List.not_mem_nil⟩
  | exec inTxn stmt next ih =>
      rcases ran with ⟨log, entry, ctx, -, -, ran⟩ | ⟨failure, ran⟩
      · have after := ih _ (inside.2 _) ran
        exact after
      · have after := ih _ (inside.2 _) ran
        exact after
  | beginTxn next => exact inside.elim
  | commit next => exact inside.elim
  | rollback next ih =>
      have after := ih inside ran
      exact after
  | call c next ih =>
      obtain ⟨reply, ran⟩ := ran
      obtain ⟨made, same, free⟩ := ih reply (inside.2 reply) ran
      refine ⟨made ++ [⟨c, reply⟩], by simp [same], fun other member => ?_⟩
      rcases List.mem_append.mp member with later | now
      · exact free other later
      · exact List.mem_singleton.mp now ▸ inside.1

end Prog

/-- The process is in this scope. -/
structure Scope.Matches (opening : Opening) (scope : Scope σ X) (own : Local σ X)
    (world : World σ X) : Prop where
  tid : own.tid = opening.tid
  calls : own.calls = scope.calls
  drawn : ∀ write ∈ own.writes, write.id < world.next write.table
  phase : match scope.phase with
    | .live log => own = opening.own scope.calls log ∧ Linked opening world.history log
    | .aborted => ∃ txn, own.txn = some txn ∧ txn.aborted = true
    | .closed => own.txn = none

namespace Scope.Matches

variable {opening : Opening} {scope : Scope σ X} {own : Local σ X} {before after : World σ X}

theorem rely {ok : Guarantee σ X} (matched : scope.Matches opening own before)
    (rely : Rely ok own before after) : scope.Matches opening own after where
  tid := matched.tid
  calls := matched.calls
  drawn write member := (matched.drawn write member).trans_le (rely.next _)
  phase := by
    have phase := matched.phase
    split at phase
    · obtain ⟨same, linked⟩ := phase
      exact ⟨same, linked.rely (same ▸ rely)⟩
    · exact phase
    · exact phase

/-- The world matters only for the history and the sequences. -/
theorem of_history (matched : scope.Matches opening own before)
    (same : after.history = before.history) (sameNext : after.next = before.next) :
    scope.Matches opening own after where
  tid := matched.tid
  calls := matched.calls
  drawn := by simpa [sameNext] using matched.drawn
  phase := by
    have phase := matched.phase
    rw [← same] at phase
    exact phase

theorem fail (matched : scope.Matches opening own before) :
    Scope.Matches opening ⟨scope.calls, scope.phase.fail⟩ (own.fail true) before where
  tid := matched.tid
  calls := matched.calls
  drawn := by
    have writes : (own.fail true).writes = own.writes := by
      cases atTxn : own.txn <;> simp [Local.fail, Local.writes, atTxn]
    simpa [writes] using matched.drawn
  phase := by
    have phase := matched.phase
    obtain ⟨calls, _ | _ | _⟩ := scope
    · obtain ⟨rfl, -⟩ := phase
      exact ⟨_, rfl, rfl⟩
    · obtain ⟨txn, atTxn, -⟩ := phase
      exact ⟨{ txn with aborted := true }, by simp [Local.fail, atTxn], rfl⟩
    · have closed : own.txn = none := phase
      simp [Local.fail, Phase.fail, closed]

theorem closed (matched : scope.Matches opening own before) :
    Scope.Matches opening ⟨scope.calls, .closed⟩ own.drop before :=
  ⟨matched.tid, matched.calls, fun _ member => absurd member List.not_mem_nil, rfl⟩

theorem called (matched : scope.Matches opening own before) (said : Said X) :
    Scope.Matches opening ⟨said :: scope.calls, scope.phase⟩ (own.called said) before where
  tid := matched.tid
  calls := congrArg (said :: ·) matched.calls
  drawn := matched.drawn
  phase := by
    have phase := matched.phase
    obtain ⟨calls, _ | _ | _⟩ := scope
    · obtain ⟨rfl, linked⟩ := phase
      exact ⟨rfl, linked⟩
    · exact phase
    · exact phase

end Scope.Matches

/-- A statement that finishes on a live transaction runs as a log entry. -/
theorem Scope.Matches.finish {ok : Guarantee σ X} {schema : Schema σ} {opening : Opening}
    {log : Log σ X} {calls : List (Said X)} {first last world' : World σ X} {own' : Local σ X}
    {stmt : Stmt σ β} {others : List (Lock σ)} {pending : List (Write σ)}
    {reply : Except SqlFailure β} (linkedFirst : Linked opening first.history log)
    (rely : Rely ok (opening.own calls log) first.tick last) (wf : last.WellFormed)
    (drawn : ∀ write ∈ log.writes, write.id < last.next write.table)
    (finished : finish schema others pending true stmt ⟨first.history, first.clock⟩
      (opening.own calls log) last = some (reply, own', world')) :
    (∃ failure, reply = .error failure ∧ own' = (opening.own calls log).fail true ∧
      world' = last) ∨
    ∃ entry ctx, Entry.Ran schema opening.start log.writes stmt entry ctx ∧
      reply = .ok (stmt ctx).result ∧ own' = opening.own calls (entry :: log) ∧
      world'.history = last.history ∧ Linked opening last.history (entry :: log) ∧
      ∀ write ∈ Log.writes (entry :: log), write.id < world'.next write.table := by
  have linkedLast : Linked opening last.history log :=
    (show Linked opening first.tick.history log from linkedFirst).rely rely
  rcases finish_cases finished with failed |
    ⟨outcome, locks, rfl, settled, rfl, ⟨-, txn, atTxn, -, rfl, rfl⟩ | ⟨impossible, -⟩⟩
  · exact Or.inl failed
  · obtain rfl := Option.some.inj atTxn
    simp only [Bool.not_true, Local.sender_true, Local.sender_false, Local.locks_drop,
      Local.writes_drop, List.append_nil] at settled
    refine Or.inr ⟨⟨first.history, last.history, locks, _⟩, ctxOf (opening.own calls log)
      ⟨first.history, first.clock⟩ last others, {
        snap := rfl
        cur := rfl
        now := rfl
        writes := rfl
        settled := Schema.settle_eq_some settled
        unused := fun table id undrawn => wf.unused undrawn
        stopped := wf.stopped
        drawn := drawn }, ?_, ?_, rfl, ?_, ?_⟩
    · simp
    · simp [Opening.own, Local.extend, Flight.span, Log.spans]
    · exact linkedFirst.cons List.suffix_rfl rely.suffix linkedLast
    · intro write member
      rcases List.mem_append.mp member with old | new
      · exact (drawn write old).trans_le (le_advance _ _ _)
      · simpa [World.pass] using lt_advance new
  · exact absurd impossible (by decide)

/-- Every way the body can end is one it yields. -/
theorem Prog.wp_yields {ok : Guarantee σ X} {schema : Schema σ} {opening : Opening}
    {prog : Prog σ X α} {post : Post σ X α} {scope : Scope σ X} {own : Local σ X}
    {world : World σ X} (inside : prog.Inside ok) (matched : scope.Matches opening own world)
    (ends : ∀ result scope' own' (world' : World σ X),
      prog.Yields schema opening.start scope result scope' →
      scope'.Matches opening own' world' → Foreign opening.tid world.history world'.history →
      post result own' world') : prog.wp ok schema post own world := by
  induction prog generalizing scope own world with
  | done value => exact ends value scope own world ⟨rfl, rfl⟩ matched Foreign.refl
  | beginTxn next => exact inside.elim
  | commit next => exact inside.elim
  | rollback next ih =>
      intro later rely wf
      have before := matched.tid ▸ rely.foreign
      exact ih inside (matched.rely rely).closed fun result scope' own' world' ran there foreign =>
        ends result scope' own' world' ran there (before.trans foreign)
  | call c next ih =>
      intro later rely wf
      refine ⟨inside.1 _ _ _, fun reply => ?_⟩
      have before := matched.tid ▸ rely.foreign
      exact ih reply (inside.2 reply) (((matched.rely rely).called _).of_history rfl rfl)
        fun result scope' own' world' ran there foreign =>
          ends result scope' own' world' ⟨reply, ran⟩ there (before.trans foreign)
  | exec inTxn stmt next ih =>
      obtain ⟨rfl, inside⟩ := inside
      have failing : ∀ failure (later : World σ X), scope.Matches opening own later →
          Foreign opening.tid world.history later.history →
          (next (.error failure)).wp ok schema post (own.fail true) later :=
        fun failure later there before => ih _ (inside _) there.fail
          fun result scope' own' world' ran there foreign =>
            ends result scope' own' world' (Or.inr ⟨failure, ran⟩) there (before.trans foreign)
      intro first relyFirst wfFirst
      have atFirst := matched.rely relyFirst
      have toFirst : Foreign opening.tid world.history first.history :=
        matched.tid ▸ relyFirst.foreign
      refine ⟨fun failure => failing failure first atFirst toFirst, ?_⟩
      intro last relyLast wfLast
      have ticked : scope.Matches opening own first.tick := atFirst.of_history rfl rfl
      have atLast := ticked.rely relyLast
      have toLast : Foreign opening.tid world.history last.history :=
        toFirst.trans (matched.tid ▸ relyLast.foreign)
      refine ⟨fun failure => failing failure last atLast toLast, ?_⟩
      intro others pending reply own' world' finished
      have phase := atFirst.phase
      obtain ⟨calls, log | _ | _⟩ := scope
      · obtain ⟨rfl, linked⟩ := phase
        rcases Scope.Matches.finish linked relyLast wfLast
          atLast.drawn finished with
          ⟨failure, rfl, rfl, rfl⟩ | ⟨entry, ctx, ran, rfl, rfl, same, linked, drawn⟩
        · exact ⟨Or.inl rfl, failing failure _ atLast toLast⟩
        · refine ⟨Or.inl same, ?_⟩
          rw [← same] at linked toLast
          have there : Scope.Matches opening ⟨calls, .live (entry :: log)⟩
              (opening.own calls (entry :: log)) world' :=
            ⟨rfl, rfl, drawn, rfl, linked⟩
          exact ih _ (inside _) there fun result scope' own' after' yielded there foreign =>
            ends result scope' own' after' (Or.inl ⟨log, entry, ctx, rfl, ran, yielded⟩) there
              (toLast.trans foreign)
      · obtain ⟨txn, atTxn, dead⟩ := phase
        rcases finish_cases finished with ⟨failure, rfl, rfl, rfl⟩ |
          ⟨_, _, -, -, -, ⟨-, other, atOther, alive, -⟩ | ⟨impossible, -⟩⟩
        · exact ⟨Or.inl rfl, failing failure _ atLast toLast⟩
        · rw [atTxn] at atOther
          obtain rfl := Option.some.inj atOther
          exact absurd dead (by simp [alive])
        · exact absurd impossible (by decide)
      · have closed : own.txn = none := phase
        rcases finish_cases finished with ⟨failure, rfl, rfl, rfl⟩ |
          ⟨_, _, -, -, -, ⟨-, other, atOther, -⟩ | ⟨impossible, -⟩⟩
        · exact ⟨Or.inl rfl, failing failure _ atLast toLast⟩
        · simp [closed] at atOther
        · exact absurd impossible (by decide)

end ReadCommitted

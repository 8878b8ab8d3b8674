import ReceiptScanner.ReadCommitted.Rules
import ReceiptScanner.ReadCommitted.Soundness

/-!
# What a program can do at all

A footprint bounds what a program may write and which calls it may make, whatever
it reads and whatever it is answered. It is checked on the text of the program, with
no regard to locks or to others, and it ties every commit of a run to the job that
made it.
-/

namespace ReadCommitted

variable {σ : Signature} {X : Interface}

/-- The writes that a program may make, and the calls. -/
structure Footprint (σ : Signature) (X : Interface) where
  writes : Write σ → Prop
  calls : X.Call → Prop

variable {print : Footprint σ X} {α β : Type}

/-- Whatever it is answered, the program stays within the footprint. -/
def Prog.Within (print : Footprint σ X) : Prog σ X α → Prop
  | .done _ => True
  | .exec _ stmt next =>
      (∀ ctx, ∀ write ∈ (stmt ctx).writes, print.writes write) ∧
        ∀ reply, (next reply).Within print
  | .beginTxn next => ∀ reply, (next reply).Within print
  | .commit next => next.Within print
  | .rollback next => next.Within print
  | .call c next => print.calls c ∧ ∀ reply, (next reply).Within print

theorem Prog.within_bind {prog : Prog σ X α} {rest : α → Prog σ X β} (first : prog.Within print)
    (second : ∀ value, (rest value).Within print) : (prog.bind rest).Within print := by
  induction prog with
  | done value => exact second value
  | exec inTxn stmt next ih => exact ⟨first.1, fun reply => ih reply (first.2 reply)⟩
  | beginTxn next ih => exact fun reply => ih reply (first reply)
  | commit next ih => exact ih first
  | rollback next ih => exact ih first
  | call c next ih => exact ⟨first.1, fun reply => ih reply (first.2 reply)⟩

/-- A footprint that allows more. -/
theorem Prog.Within.mono {wider : Footprint σ X} {prog : Prog σ X α} (within : prog.Within print)
    (writes : ∀ write, print.writes write → wider.writes write)
    (calls : ∀ c, print.calls c → wider.calls c) : prog.Within wider := by
  induction prog with
  | done value => trivial
  | exec inTxn stmt next ih =>
      exact ⟨fun ctx write member => writes write (within.1 ctx write member),
        fun reply => ih reply (within.2 reply)⟩
  | beginTxn next ih => exact fun reply => ih reply (within reply)
  | commit next ih => exact ih within
  | rollback next ih => exact ih within
  | call c next ih => exact ⟨calls c within.1, fun reply => ih reply (within.2 reply)⟩

/-- Every program stays within a footprint that allows everything. -/
theorem Prog.within_all (prog : Prog σ X α) (writes : ∀ write, print.writes write)
    (calls : ∀ c, print.calls c) : prog.Within print := by
  induction prog with
  | done value => trivial
  | exec inTxn stmt next ih => exact ⟨fun _ write _ => writes write, ih⟩
  | beginTxn next ih => exact ih
  | commit next ih => exact ih
  | rollback next ih => exact ih
  | call c next ih => exact ⟨calls c, ih⟩

namespace Svc

variable {ε : Type}

/-- Whatever it is answered, the task stays within the footprint. -/
def Within (print : Footprint σ X) (task : Svc σ X ε α) : Prop := Prog.Within print task.run

theorem within_pure (value : α) : Within print (pure value : Svc σ X ε α) := trivial

theorem within_throw (exception : ε) : Within print (throw exception : Svc σ X ε α) := trivial

theorem within_bind {first : Svc σ X ε β} {rest : β → Svc σ X ε α} (before : Within print first)
    (after : ∀ value, Within print (rest value)) : Within print (first >>= rest) :=
  Prog.within_bind before fun result => match result with
    | .ok value => after value
    | .error _ => trivial

theorem within_tryCatch {body : Svc σ X ε α} {handler : ε → Svc σ X ε α}
    (inside : Within print body) (handled : ∀ exception, Within print (handler exception)) :
    Within print (tryCatch body handler) :=
  Prog.within_bind inside fun result => match result with
    | .ok _ => trivial
    | .error exception => handled exception

theorem within_exec {raise : SqlFailure → ε} {inTxn : Bool} {stmt : Stmt σ α}
    (writes : ∀ ctx, ∀ write ∈ (stmt ctx).writes, print.writes write) :
    Within print (exec raise inTxn stmt : Svc σ X ε α) :=
  ⟨writes, fun reply => match reply with
    | .ok _ => trivial
    | .error _ => trivial⟩

theorem within_call {c : X.Call} {read : X.Reply c → Except ε α} (allowed : print.calls c) :
    Within print (call c read) := ⟨allowed, fun _ => trivial⟩

theorem within_rollback : Within print (rollback : Svc σ X ε Unit) := trivial

theorem within_rollingBack {body : Svc σ X ε α} (inside : Within print body) :
    Within print (rollingBack body) :=
  within_tryCatch inside fun exception =>
    within_bind within_rollback fun _ => within_throw exception

theorem within_transaction {raise : SqlFailure → ε} {body : Svc σ X ε α}
    (inside : Within print body) : Within print (transaction raise body) := fun reply =>
  match reply with
  | .ok () => Prog.within_bind inside fun _ => trivial
  | .error _ => trivial

theorem within_forM {round : β → Svc σ X ε PUnit} (items : List β)
    (inside : ∀ item, Within print (round item)) : Within print (items.forM round) := by
  induction items with
  | nil => exact within_pure _
  | cons item rest ih => exact within_bind (inside item) fun _ => ih

theorem within_forM_option {round : β → Svc σ X ε PUnit} (item : Option β)
    (inside : ∀ item, Within print (round item)) : Within print (item.forM round) := by
  cases item with
  | none => exact within_pure _
  | some item => exact inside item

theorem within_mapM {round : β → Svc σ X ε α} (items : List β)
    (inside : ∀ item, Within print (round item)) : Within print (items.mapM round) := by
  induction items with
  | nil =>
      rw [List.mapM_nil]
      exact within_pure _
  | cons item rest ih =>
      rw [List.mapM_cons]
      exact within_bind (inside item) fun _ => within_bind ih fun _ => within_pure _

end Svc

/-- What a process has done so far is within the footprint. -/
structure Local.Stays (print : Footprint σ X) (tid : ℕ) (own : Local σ X) : Prop where
  named : own.tid = tid
  writes : ∀ write ∈ own.writes, print.writes write
  calls : ∀ said ∈ own.calls, print.calls said.call

namespace Local.Stays

variable {tid : ℕ} {own : Local σ X}

theorem fresh (print : Footprint σ X) (tid : ℕ) : Local.Stays print tid { tid := tid } :=
  ⟨rfl, fun _ member => absurd member List.not_mem_nil,
    fun _ member => absurd member List.not_mem_nil⟩

theorem fail (stays : own.Stays print tid) (inTxn : Bool) : (own.fail inTxn).Stays print tid := by
  obtain ⟨named, writes, calls⟩ := stays
  cases inTxn with
  | false => exact ⟨named, writes, calls⟩
  | true =>
      refine ⟨named, ?_, calls⟩
      cases atTxn : own.txn <;> simp_all [Local.fail, Local.writes]

theorem drop (stays : own.Stays print tid) : own.drop.Stays print tid :=
  ⟨stays.named, fun _ member => absurd member List.not_mem_nil, stays.calls⟩

theorem beginTxn (stays : own.Stays print tid) (world : World σ X) :
    (own.beginTxn world).Stays print tid :=
  ⟨stays.named, fun _ member => absurd member List.not_mem_nil, stays.calls⟩

theorem called (stays : own.Stays print tid) {said : Said X} (allowed : print.calls said.call) :
    (own.called said).Stays print tid :=
  ⟨stays.named, stays.writes, List.forall_mem_cons.mpr ⟨allowed, stays.calls⟩⟩

end Local.Stays

variable {ok : Guarantee σ X} {schema : Schema σ} {tid : ℕ}

/-- A program that stays within a footprint keeps every guarantee that asks for no
more than that. -/
theorem Prog.wp_of_within {prog : Prog σ X α} {post : Post σ X α} {own : Local σ X}
    {world : World σ X} (within : prog.Within print)
    (commits : ∀ history (c : Commit σ X), c.tid = tid → (∀ write ∈ c.writes, print.writes write) →
      (∀ said ∈ c.calls, print.calls said.call) → ok.commits history c)
    (calls : ∀ made c history, print.calls c → ok.calls tid made c history)
    (ends : ∀ value own world, own.Stays print tid → post value own world)
    (stays : own.Stays print tid) : prog.wp ok schema post own world := by
  induction prog generalizing own world with
  | done value => exact ends value own world stays
  | exec inTxn stmt next ih =>
      intro first _ _
      refine ⟨fun failure => ih _ (within.2 _) (stays.fail inTxn), fun last _ _ =>
        ⟨fun failure => ih _ (within.2 _) (stays.fail inTxn), ?_⟩⟩
      intro others pending reply own' world' finished
      rcases finish_cases finished with ⟨failure, rfl, rfl, rfl⟩ |
        ⟨outcome, locks, ran, -, rfl, ⟨-, txn, atTxn, -, rfl, rfl⟩ | ⟨-, rfl, which⟩⟩
      · exact ⟨Or.inl rfl, ih _ (within.2 _) (stays.fail inTxn)⟩
      · refine ⟨Or.inl rfl, ih _ (within.2 _) ⟨stays.named, ?_, stays.calls⟩⟩
        have mine := stays.writes
        simp only [Local.writes, atTxn] at mine
        intro write member
        rcases List.mem_append.mp member with before | now
        · exact mine write before
        · exact within.1 _ write (ran ▸ now)
      · rcases which with ⟨-, rfl⟩ | ⟨-, rfl⟩
        · exact ⟨Or.inl rfl, ih _ (within.2 _) stays⟩
        · exact ⟨Or.inr ⟨_, rfl, commits _ _ stays.named
            (fun write member => within.1 _ write (ran ▸ member)) stays.calls⟩,
            ih _ (within.2 _) stays⟩
  | beginTxn next ih =>
      exact fun later _ _ => ⟨fun failure => ih _ (within _) stays,
        ih _ (within _) (stays.beginTxn later)⟩
  | commit next ih =>
      intro later _ _
      refine ⟨?_, ih within stays.drop⟩
      have mine := stays.writes
      simp only [Local.committed]
      split
      · rename_i txn atTxn
        simp only [Local.writes, atTxn] at mine
        split
        · exact Or.inl rfl
        · exact Or.inr ⟨_, rfl, commits _ _ stays.named mine stays.calls⟩
      · exact Or.inl rfl
  | rollback next ih => exact fun later _ _ => ih within stays.drop
  | call c next ih =>
      intro later _ _
      exact ⟨stays.named ▸ calls _ _ _ within.1,
        fun reply => ih reply (within.2 reply) (stays.called within.1)⟩

/-- A program that makes no call that a guarantee is about, which is about no commit. -/
theorem Prog.wp_of_silent {prog : Prog σ X α} {own : Local σ X} {world : World σ X}
    (within : prog.Within print) (commits : ∀ history c, ok.commits history c)
    (calls : ∀ c, print.calls c → ok.Free c) :
    prog.wp ok schema (fun _ _ _ => True) own world := by
  have extends_ : ∀ (before : History σ X) c, Extends ok before (c :: before) :=
    fun before c => Or.inr ⟨c, rfl, commits before c⟩
  induction prog generalizing own world with
  | done value => trivial
  | exec inTxn stmt next ih =>
      intro first _ _
      refine ⟨fun failure => ih _ (within.2 _), fun last _ _ => ⟨fun failure => ih _ (within.2 _), ?_⟩⟩
      intro others pending reply own' world' finished
      refine ⟨?_, ih _ (within.2 _)⟩
      rcases finish_cases finished with ⟨failure, -, -, rfl⟩ |
        ⟨outcome, locks, -, -, -, ⟨-, txn, -, -, -, rfl⟩ | ⟨-, -, ⟨-, rfl⟩ | ⟨-, rfl⟩⟩⟩
      · exact Or.inl rfl
      · exact Or.inl rfl
      · exact Or.inl rfl
      · exact extends_ _ _
  | beginTxn next ih => exact fun _ _ _ => ⟨fun _ => ih _ (within _), ih _ (within _)⟩
  | commit next ih =>
      intro later _ _
      refine ⟨?_, ih within⟩
      rcases own.committed_cases later with same | ⟨txn, -, grown⟩
      · exact Or.inl same
      · exact grown ▸ extends_ _ _
  | rollback next ih => exact fun _ _ _ => ih within
  | call c next ih =>
      exact fun later _ _ => ⟨calls c within.1 _ _ _, fun reply => ih reply (within.2 reply)⟩

/-- What a program adds to an open transaction is within its footprint. -/
theorem Prog.Within.yields {prog : Prog σ X α} {start : ℕ} {scope scope' : Scope σ X} {value : α}
    (within : prog.Within print) (ran : prog.Yields schema start scope value scope')
    (before : ∀ log, scope.phase = .live log → ∀ write ∈ log.writes, print.writes write) :
    ∀ log, scope'.phase = .live log → ∀ write ∈ log.writes, print.writes write := by
  induction prog generalizing scope with
  | done result =>
      obtain ⟨-, rfl⟩ := ran
      exact before
  | exec inTxn stmt next ih =>
      rcases ran with ⟨log, entry, ctx, live, sent, rest⟩ | ⟨failure, rest⟩
      · refine ih _ (within.2 _) rest fun log' same write member => ?_
        obtain rfl := Phase.live.inj same
        rw [Log.writes_cons] at member
        rcases List.mem_append.mp member with old | new
        · exact before log live write old
        · exact within.1 ctx write (sent.writes ▸ new)
      · refine ih _ (within.2 _) rest fun log same => ?_
        cases atPhase : scope.phase with
        | live earlier => simp [atPhase, Phase.fail] at same
        | aborted => simp [atPhase, Phase.fail] at same
        | closed => simp [atPhase, Phase.fail] at same
  | beginTxn next ih => exact ran.elim
  | commit next ih => exact ran.elim
  | rollback next ih =>
      exact ih within ran fun log same => by cases same
  | call c next ih =>
      obtain ⟨reply, rest⟩ := ran
      exact ih reply (within.2 reply) rest before

section Runs

variable {system : System σ X} (prints : system.Job → Footprint σ X)

/-- A commit is within the footprint of the job of its process. -/
def printed (jobs : ℕ → Option system.Job) : Guarantee σ X where
  commits _ c := ∃ job, jobs c.tid = some job ∧ (∀ write ∈ c.writes, (prints job).writes write) ∧
    ∀ said ∈ c.calls, (prints job).calls said.call
  calls _ _ _ _ := True

/-- Jobs that stay within their footprints. -/
theorem keeps_printed (jobs : ℕ → Option system.Job)
    (within : ∀ job, (system.prog job).Within (prints job)) :
    Keeps system (printed prints jobs) (Terms.free jobs) :=
  Keeps.of_free fun job _ _ assigned => Prog.wp_of_within (within job)
    (fun _ _ same writes calls => ⟨job, same ▸ assigned, writes, calls⟩)
    (fun _ _ _ _ => trivial) (fun _ _ _ _ => trivial) (Local.Stays.fresh _ _)

/-- Every commit of every run is within the footprint of the job that made it. -/
theorem Config.printed_of_reachable {config : Config σ X system.Job}
    (within : ∀ job, (system.prog job).Within (prints job))
    (reachable : Config.Reachable system config) {c : Commit σ X} (member : c ∈ config.world.history) :
    ∃ job, config.jobs c.tid = some job ∧ (∀ write ∈ c.writes, (prints job).writes write) ∧
      ∀ said ∈ c.calls, (prints job).calls said.call := by
  obtain ⟨later, earlier, whole⟩ := List.append_of_mem member
  exact (keeps_printed prints config.jobs within).sound reachable config.agrees_jobs
    (⟨later, whole.symm⟩ : c :: earlier <:+ config.world.history)

end Runs

end ReadCommitted

import ReceiptScanner.ReadCommitted.Calls

/-!
# A reader beside a run

A program that only reads changes nothing for the processes of a run, so it need not be one of
them. `Prog.Beside` serves it while the run goes on: between any two of its steps, and while a
statement of it is under way, the others make as many moves as they like. Each statement reads
one state, and finishes in a later one.
-/

namespace ReadCommitted

variable {σ : Signature} {X : Interface} {system : System σ X} {ε α β : Type}

/-- `prog.Beside system replies first value last`: begun in the state `first`, the program ends
with `value` in the state `last`. `replies` says what a call may be answered, by what there is
outside at that moment. -/
inductive Prog.Beside (system : System σ X) (replies : X.Env → (c : X.Call) → X.Reply c → Prop) :
    Prog σ X α → Config σ X system.Job → α → Config σ X system.Job → Prop where
  | done {value : α} {first : Config σ X system.Job} :
      Beside system replies (.done value) first value first
  | exec {β : Type} {stmt : Stmt σ β} {next : Except SqlFailure β → Prog σ X α} {value : α}
      {first began ended last : Config σ X system.Job} {ctx : Ctx σ}
      (waited : Config.Leads system first began) (took : Config.Leads system began ended)
      (snap : ctx.snap = began.world.history.db) (cur : ctx.cur = ended.world.history.db)
      (silent : (stmt ctx).writes = [])
      (rest : Beside system replies (next (.ok (stmt ctx).result)) ended value last) :
      Beside system replies (.exec false stmt next) first value last
  | refused {β : Type} {stmt : Stmt σ β} {next : Except SqlFailure β → Prog σ X α} {value : α}
      {first ended last : Config σ X system.Job} (failure : SqlFailure)
      (waited : Config.Leads system first ended)
      (rest : Beside system replies (next (.error failure)) ended value last) :
      Beside system replies (.exec false stmt next) first value last
  | call {c : X.Call} {next : X.Reply c → Prog σ X α} {value : α}
      {first asked last : Config σ X system.Job} {reply : X.Reply c}
      (waited : Config.Leads system first asked) (replied : replies asked.world.env c reply)
      (rest : Beside system replies (next reply) asked value last) :
      Beside system replies (.call c next) first value last

namespace Prog.Beside

variable {replies : X.Env → (c : X.Call) → X.Reply c → Prop}
  {first last : Config σ X system.Job}

/-- A sequence is served part by part. -/
theorem bind_inv {prog : Prog σ X α} {rest : α → Prog σ X β} {value : β}
    (served : (prog.bind rest).Beside system replies first value last) :
    ∃ result middle, prog.Beside system replies first result middle ∧
      (rest result).Beside system replies middle value last := by
  induction prog generalizing first with
  | done result => exact ⟨result, first, .done, served⟩
  | exec inTxn stmt next ih =>
      cases served with
      | exec waited took snap cur silent later =>
          obtain ⟨result, middle, part, later⟩ := ih _ later
          exact ⟨result, middle, .exec waited took snap cur silent part, later⟩
      | refused failure waited later =>
          obtain ⟨result, middle, part, later⟩ := ih _ later
          exact ⟨result, middle, .refused failure waited part, later⟩
  | beginTxn next ih => cases served
  | commit next ih => cases served
  | rollback next ih => cases served
  | call c next ih =>
      cases served with
      | call waited replied later =>
          obtain ⟨result, middle, part, later⟩ := ih _ later
          exact ⟨result, middle, .call waited replied part, later⟩

/-- A statement is answered from one state, or refused. -/
theorem exec_inv {raise : SqlFailure → ε} {inTxn : Bool} {stmt : Stmt σ α} {value : Except ε α}
    (served : (Svc.exec (X := X) raise inTxn stmt).run.Beside system replies first value last) :
    (∃ began, ∃ ctx : Ctx σ, Config.Leads system first began ∧ Config.Leads system began last ∧
        ctx.snap = began.world.history.db ∧ value = .ok (stmt ctx).result) ∨
      ∃ failure, value = .error (raise failure) := by
  cases served with
  | exec waited took snap cur silent rest =>
      cases rest
      exact Or.inl ⟨_, _, waited, took, snap, rfl⟩
  | refused failure waited rest =>
      cases rest
      exact Or.inr ⟨failure, rfl⟩

/-- A call is answered at one moment. -/
theorem call_inv {c : X.Call} {read : X.Reply c → Except ε α} {value : Except ε α}
    (served : (Svc.call (σ := σ) c read).run.Beside system replies first value last) :
    ∃ reply, Config.Leads system first last ∧ replies last.world.env c reply ∧
      value = read reply := by
  cases served with
  | call waited replied rest =>
      cases rest
      exact ⟨_, waited, replied, rfl⟩

end Prog.Beside

/-- A sequence that ends well has gone well so far. -/
theorem Prog.Beside.svc_bind {replies : X.Env → (c : X.Call) → X.Reply c → Prop}
    {first last : Config σ X system.Job} {task : Svc σ X ε α} {rest : α → Svc σ X ε β} {value : β}
    (served : (task >>= rest).run.Beside system replies first (.ok value) last) :
    ∃ result middle, task.run.Beside system replies first (.ok result) middle ∧
      (rest result).run.Beside system replies middle (.ok value) last := by
  obtain ⟨result, middle, part, later⟩ := bind_inv served
  cases result with
  | error raised => cases later
  | ok result => exact ⟨result, middle, part, later⟩

end ReadCommitted

import ReceiptScanner.ReadCommitted.Statement

/-!
# Programs over a database client

A program issues statements, opens and closes a transaction, and calls services
outside the database. It is a tree: every node carries the continuation for each
possible answer, so that the same program is run alone, interleaved with others,
or stopped at any point.

Exceptions are `ExceptT` over programs. `transaction` is the life time of a
transaction object whose destructor commits unless `rollback` was called.
-/

namespace ReadCommitted

/-- The world outside the database: the calls, the type of each reply, what a
completed call does to the state outside, and what a program may answer whoever
started it. -/
structure Interface where
  Call : Type
  Reply : Call → Type
  Env : Type
  perform : (call : Call) → Reply call → Env → Env
  Answer : Type

/-- A call and the reply to it. -/
structure Said (X : Interface) where
  call : X.Call
  reply : X.Reply call

/-- A program with a result of type `α`. `inTxn` tells a statement sent on the
open transaction from one sent on the plain client, a transaction of its own. -/
inductive Prog (σ : Signature) (X : Interface) (α : Type) : Type 1 where
  | done (value : α)
  | exec {β : Type} (inTxn : Bool) (stmt : Stmt σ β)
      (next : Except SqlFailure β → Prog σ X α)
  | beginTxn (next : Except SqlFailure Unit → Prog σ X α)
  | commit (next : Prog σ X α)
  | rollback (next : Prog σ X α)
  | call (c : X.Call) (next : X.Reply c → Prog σ X α)

namespace Prog

variable {σ : Signature} {X : Interface} {α β : Type}

/-- Sequencing: continue at every leaf. -/
def bind : Prog σ X α → (α → Prog σ X β) → Prog σ X β
  | .done value, rest => rest value
  | .exec inTxn stmt next, rest => .exec inTxn stmt fun reply => (next reply).bind rest
  | .beginTxn next, rest => .beginTxn fun reply => (next reply).bind rest
  | .commit next, rest => .commit (next.bind rest)
  | .rollback next, rest => .rollback (next.bind rest)
  | .call c next, rest => .call c fun reply => (next reply).bind rest

instance : Monad (Prog σ X) where
  pure := .done
  bind := bind

@[simp] theorem pure_eq (value : α) : (pure value : Prog σ X α) = .done value := rfl

@[simp] theorem bind_eq (first : Prog σ X α) (rest : α → Prog σ X β) :
    first >>= rest = first.bind rest := rfl

theorem bind_done (prog : Prog σ X α) : prog.bind .done = prog := by
  induction prog <;> simp_all [bind]

theorem bind_assoc {γ : Type} (prog : Prog σ X α) (first : α → Prog σ X β)
    (second : β → Prog σ X γ) :
    (prog.bind first).bind second = prog.bind fun value => (first value).bind second := by
  induction prog <;> simp_all [bind]

instance : LawfulMonad (Prog σ X) :=
  LawfulMonad.mk' (Prog σ X) bind_done (fun _ _ => rfl) bind_assoc

end Prog

/-- A program that may raise an exception of type `ε`. -/
abbrev Svc (σ : Signature) (X : Interface) (ε : Type) (α : Type) := ExceptT ε (Prog σ X) α

namespace Svc

variable {σ : Signature} {X : Interface} {ε α β : Type}

/-- Send one statement; a refusal is raised as an exception. -/
def exec (raise : SqlFailure → ε) (inTxn : Bool) (stmt : Stmt σ β) : Svc σ X ε β :=
  ExceptT.mk (.exec inTxn stmt fun
    | .ok value => .done (.ok value)
    | .error failure => .done (.error (raise failure)))

/-- Call a service whose answer may be an exception. -/
def call (c : X.Call) (read : X.Reply c → Except ε α) : Svc σ X ε α :=
  ExceptT.mk (.call c fun reply => .done (read reply))

/-- Roll the open transaction back. -/
def rollback : Svc σ X ε Unit :=
  ExceptT.mk (.rollback (.done (.ok ())))

/-- `try { body } catch (...) { transaction->rollback(); throw; }` -/
def rollingBack (body : Svc σ X ε α) : Svc σ X ε α :=
  tryCatch body fun raised => do
    rollback
    throw raised

/-- The scope of a transaction object: it is opened, and whichever way the body
ends, leaving the scope commits what was not rolled back. The object itself does not wait for
the COMMIT that it sends, so that the source may answer before it is done; here the result
comes after it. The COMMIT does not fail: a process that stops before it stands for one that does. -/
def transaction (raise : SqlFailure → ε) (body : Svc σ X ε α) : Svc σ X ε α :=
  ExceptT.mk (.beginTxn fun
    | .error failure => .done (.error (raise failure))
    | .ok () => body.run.bind fun result => .commit (.done result))

end Svc

end ReadCommitted

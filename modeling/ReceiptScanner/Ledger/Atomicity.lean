import ReceiptScanner.Ledger.Claims
import ReceiptScanner.Runs.Atomic

/-!
# All or nothing

Ten operations write several rows. In any run, with any statement, put or check failing at
any point, such an operation has either committed nothing or everything it wrote. When its
caller is not told of success, it has committed nothing.
-/

namespace ReceiptScanner

open ReadCommitted

variable {setup : Setup} {jobs : ℕ → Option Job}

/-- The application, with the operations that only its workers call open to anyone. -/
@[reducible] def everyOperation (setup : Setup) : System store outside :=
  { application setup with root := fun _ => true }

/-- What the commits of a process are, in view of what it had once written. -/
structure AllOrNothing (past : List (Write store)) (life : Life store outside Job)
    (mine : History store outside) : Prop where
  whole : mine = [] ∨ ∃ commit, mine = [commit] ∧ past <+: commit.writes
  failed : ∀ answer, life = .ended answer → answer.isDone = false → mine = []
  succeeded : ∀ answer, life = .ended answer → answer.isDone = true →
    past = [] ∨ ∃ commit, mine = [commit] ∧ past <+: commit.writes

/-- In any run, whatever fails: at no time is a part of an operation committed. A process whose
caller is told of a failure has committed nothing. One whose caller is told of success has
committed, in one commit, whatever it had written at any time. A result is committed only
while its claim stands. -/
theorem all_or_nothing {before after : Config store outside Job}
    (reachable : Config.Reachable (everyOperation setup) before)
    (leads : Config.Leads (everyOperation setup) before after) {tid : ℕ}
    {proc last : Proc store outside Job} (found : before.procs tid = some proc)
    (there : after.procs tid = some last) (several : proc.job.severalWrites = true) :
    AllOrNothing proc.own.writes last.life (History.ofTid tid after.world.history) ∧
    ∀ claim result, proc.job = .applyResult claim result →
      ∀ commit earlier, commit :: earlier <:+ after.world.history → commit.tid = tid →
        Carries earlier claim claim.receiptId := by
  have arrived := leads.reachable reachable
  obtain ⟨stage, at_, fits⟩ := leads.tracked reachable found there
    (concludes_prog several)
  have named : last.own.tid = tid := (arrived.inv_anything.named tid last there).2
  rw [named] at fits
  refine ⟨⟨?_, ?_, ?_⟩, ?_⟩
  · cases stage with
    | settled => exact fits.2.imp And.left id
    | idle => exact Or.inl fits.2.1
    | clean => exact Or.inl fits.2.1
    | dirty => exact Or.inl fits.2
    | dead => exact Or.inl fits.2
  · intro answer ended notDone
    simp only [Proc.At, ended, Concludes, notDone] at at_
    obtain ⟨-, rfl | rfl⟩ := at_
    · exact fits.2.1
    · exact fits.2
  · intro answer ended isDone
    simp only [Proc.At, ended, Concludes, isDone] at at_
    obtain ⟨-, rfl | rfl⟩ := at_
    · exact Or.inl fits.2.2
    · exact fits.2.imp And.right id
  · intro claim result isJob commit earlier suffix same
    obtain ⟨last', at', sameJob⟩ := (leads.continues reachable.numbered).jobs tid proc found
    obtain rfl := Option.some.inj (there.symm.trans at')
    have isJob : after.jobs commit.tid = some (.applyResult claim result) := by
      rw [same, after.agrees_jobs tid last there, sameJob, isJob]
    exact ((keeps_whileClaimed setup _ after.jobs).sound arrived after.agrees_jobs suffix _ _
      isJob rfl).1

section Demo

/-- A registration has written the user's row. -/
def halfRegistered : Config store outside Job :=
  Config.ran (everyOperation demo) ([.spawn (.registerUser "ann" "secret"),
    .reply 0 (plainly "" { kind := "" }), .step 0] ++ statements 0 1) (by decide +kernel)

/-- The next statement is refused, the transaction rolled back, and the caller told. -/
def refusing : List (Move outside Job) :=
  [.start 0, .fail 0 .other, .step 0, .step 0, .step 0]

theorem refused_halfRegistered :
    (Config.run (everyOperation demo) refusing halfRegistered).isSome = true := by decide +kernel

/-- Where that ends. -/
def unregistered : Config store outside Job :=
  (Config.run (everyOperation demo) refusing halfRegistered).get refused_halfRegistered

/-- The user's row was written, and it is not committed. -/
theorem all_or_nothing_of_refusal :
    (halfRegistered.procs 0).any (fun proc => !proc.own.writes.isEmpty) = true ∧
      History.ofTid 0 unregistered.world.history = [] := by
  refine ⟨by decide +kernel, ?_⟩
  have begun : (halfRegistered.procs 0).any (fun proc => proc.job.severalWrites) = true := by
    decide +kernel
  have ended : (unregistered.procs 0).any
      (fun proc => proc.life.answer?.any fun answer => !answer.isDone) = true := by decide +kernel
  obtain ⟨proc, found, several⟩ := (Option.any_eq_true _ _).mp begun
  obtain ⟨last, there, told⟩ := (Option.any_eq_true _ _).mp ended
  obtain ⟨answer, isAnswer, failed⟩ := (Option.any_eq_true _ _).mp told
  exact (all_or_nothing (Config.reachable_ran _)
    (Config.Leads.run (Option.some_get refused_halfRegistered).symm) found there several).1.failed
    answer (Life.answer?_eq_some.mp isAnswer) (by simpa using failed)

end Demo

end ReceiptScanner

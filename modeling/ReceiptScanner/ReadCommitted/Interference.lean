import ReceiptScanner.ReadCommitted.System
import Mathlib.Logic.Relation
import Mathlib.Order.Lattice

/-!
# What other processes can do meanwhile

Between two steps of a process, others commit. `Interferes` bounds one such
commit: it writes only rows it has locked, its locks exclude none of this
process's, and it satisfies the guarantee `ok` that every process of the system
gives. The lemmas about `Rely` are what a lock is for: the row under it stays.
-/

namespace ReadCommitted

variable {σ : Signature} {X : Interface}

/-- Every write is to a row under one of the locks. Only a row that exists, and
that the write keeps, may be locked below UPDATE. -/
def Covers (history : History σ X) (locks : List (Lock σ)) (writes : List (Write σ)) : Prop :=
  ∀ write ∈ writes, ∃ lock ∈ locks,
    lock.table = write.table ∧ lock.id = write.id ∧
      (lock.mode = .update ∨ (lock.mode = .noKeyUpdate ∧ write.row ≠ none ∧
        (history.db write.table).get write.id ≠ none))

/-- Every write of the commit is to a row it has locked. -/
abbrev Commit.Covered (history : History σ X) (commit : Commit σ X) : Prop :=
  Covers history commit.locks commit.writes

/-- All commits are over, and no sequence will give out an id in use. -/
structure World.WellFormed (world : World σ X) : Prop where
  started : ∀ commit ∈ world.history, commit.start < commit.stop
  stopped : ∀ commit ∈ world.history, commit.stop < world.clock
  drawn : ∀ commit ∈ world.history, ∀ write ∈ commit.writes, write.id < world.next write.table

/-- An id not yet drawn has no row. -/
theorem World.WellFormed.fresh {world : World σ X} (wf : world.WellFormed) {table : σ.Table}
    {id : ℕ} (undrawn : world.next table ≤ id) : (world.history.db table).get id = none := by
  have drawn := wf.drawn
  generalize world.history = history at drawn ⊢
  induction history with
  | nil => rfl
  | cons commit earlier ih =>
      rw [History.db_cons, Db.get_writes_untouched]
      · exact ih fun other member => drawn other (List.mem_cons_of_mem _ member)
      · rintro write member ⟨rfl, rfl⟩
        have below := drawn commit List.mem_cons_self write member
        omega

/-- The guarantee of a system: what it may commit after which history, and which
outside calls a process may make, after its earlier calls and after which history. -/
structure Guarantee (σ : Signature) (X : Interface) where
  commits : History σ X → Commit σ X → Prop
  calls : ℕ → List (Said X) → X.Call → History σ X → Prop

/-- Any process may make the call at any time. -/
def Guarantee.Free (ok : Guarantee σ X) (c : X.Call) : Prop :=
  ∀ tid calls history, ok.calls tid calls c history

/-- A history grew by nothing, or by one commit that keeps the guarantee. -/
def Extends (ok : Guarantee σ X) (before after : History σ X) : Prop :=
  after = before ∨ ∃ commit, after = commit :: before ∧ ok.commits before commit

/-- The commits of one process. -/
def History.ofTid (tid : ℕ) (history : History σ X) : History σ X :=
  history.filter fun commit => commit.tid = tid

@[simp] theorem History.ofTid_nil (tid : ℕ) :
    History.ofTid tid ([] : History σ X) = [] := rfl

theorem History.ofTid_cons_same (commit : Commit σ X) (earlier : History σ X) :
    History.ofTid commit.tid (commit :: earlier) = commit :: History.ofTid commit.tid earlier := by
  simp [History.ofTid]

theorem History.ofTid_cons_other {tid : ℕ} {commit : Commit σ X} (foreign : commit.tid ≠ tid)
    (earlier : History σ X) : History.ofTid tid (commit :: earlier) = History.ofTid tid earlier := by
  simp [History.ofTid, foreign]

/-- The history grew by commits of other processes only. -/
structure Foreign (tid : ℕ) (before after : History σ X) : Prop where
  suffix : before <:+ after
  same : History.ofTid tid after = History.ofTid tid before

namespace Foreign

variable {tid : ℕ} {before middle after : History σ X}

theorem refl : Foreign tid before before := ⟨List.suffix_rfl, rfl⟩

theorem trans (first : Foreign tid before middle) (second : Foreign tid middle after) :
    Foreign tid before after :=
  ⟨first.suffix.trans second.suffix, second.same.trans first.same⟩

end Foreign

/-- One step of another process, as far as `own` can tell. -/
structure Interferes (ok : Guarantee σ X) (own : Local σ X) (before after : World σ X) :
    Prop where
  clock : before.clock ≤ after.clock
  next : ∀ table, before.next table ≤ after.next table
  history : after.history = before.history ∨ ∃ commit,
    after.history = commit :: before.history ∧ commit.tid ≠ own.tid ∧
      commit.Covered before.history ∧ Compatible commit.locks own.locks ∧
      ok.commits before.history commit
  wellFormed : after.WellFormed

/-- Any number of steps of other processes. -/
def Rely (ok : Guarantee σ X) (own : Local σ X) : World σ X → World σ X → Prop :=
  Relation.ReflTransGen (Interferes ok own)

namespace Rely

variable {ok : Guarantee σ X} {own : Local σ X} {before middle after : World σ X}

theorem refl : Rely ok own before before := Relation.ReflTransGen.refl

theorem trans (first : Rely ok own before middle) (second : Rely ok own middle after) :
    Rely ok own before after := Relation.ReflTransGen.trans first second

theorem single (step : Interferes ok own before after) : Rely ok own before after :=
  Relation.ReflTransGen.single step

theorem clock (rely : Rely ok own before after) : before.clock ≤ after.clock := by
  induction rely with
  | refl => exact Nat.le_refl _
  | tail _ step ih => exact ih.trans step.clock

theorem next (rely : Rely ok own before after) (table : σ.Table) :
    before.next table ≤ after.next table := by
  induction rely with
  | refl => exact Nat.le_refl _
  | tail _ step ih => exact ih.trans (step.next table)

/-- What every commit of the others keeps, all of them keep. -/
theorem preserves (rely : Rely ok own before after) {P : History σ X → Prop}
    (step : ∀ history commit, before.history <:+ history → P history →
      commit.tid ≠ own.tid → commit.Covered history → Compatible commit.locks own.locks →
      ok.commits history commit → P (commit :: history))
    (start : P before.history) : P after.history := by
  have both : before.history <:+ after.history ∧ P after.history := by
    induction rely with
    | refl => exact ⟨List.suffix_rfl, start⟩
    | tail _ interferes ih =>
        rcases interferes.history with same | ⟨commit, grown, foreign, covered, compatible, good⟩
        · rw [same]
          exact ih
        · rw [grown]
          exact ⟨ih.1.trans (List.suffix_cons _ _),
            step _ commit ih.1 ih.2 foreign covered compatible good⟩
  exact both.2

/-- History only grows. -/
theorem suffix (rely : Rely ok own before after) : before.history <:+ after.history :=
  rely.preserves (P := fun history => before.history <:+ history)
    (fun _ commit _ earlier _ _ _ _ => earlier.trans (List.suffix_cons commit _))
    List.suffix_rfl

/-- Others do not commit under this process's number. -/
theorem foreign (rely : Rely ok own before after) : Foreign own.tid before.history after.history :=
  ⟨rely.suffix, rely.preserves
    (P := fun history => History.ofTid own.tid history = History.ofTid own.tid before.history)
    (fun history _ _ same foreign _ _ _ => by
      rw [History.ofTid_cons_other foreign, same]) rfl⟩

/-- A commit that is compatible with a lock on a row does not touch the row,
unless the lock is a key-share lock: then it may change the row, not remove it. -/
theorem untouched_of_locked {history : History σ X} {commit : Commit σ X} {locks : List (Lock σ)}
    {table : σ.Table} {id : ℕ} {mode : LockMode} (strong : mode ≠ .keyShare)
    (held : ⟨table, id, mode⟩ ∈ locks) (covered : commit.Covered history)
    (compatible : Compatible commit.locks locks) :
    ∀ write ∈ commit.writes, ¬ write.Touches table id := by
  rintro write member ⟨rfl, rfl⟩
  obtain ⟨lock, present, sameTable, sameId, strength⟩ := covered write member
  have excluded := compatible lock present _ held
  obtain ⟨lockTable, lockId, lockMode⟩ := lock
  simp only at sameTable sameId strength
  subst sameTable sameId
  rcases strength with rfl | ⟨rfl, -⟩ <;> cases mode <;>
    simp_all [Lock.conflicts, LockMode.conflicts]

/-- A commit that is compatible with any lock on a row does not remove it. -/
theorem get_ne_none_of_locked {history : History σ X} {commit : Commit σ X}
    {locks : List (Lock σ)} {table : σ.Table} {id : ℕ} {mode : LockMode}
    (held : ⟨table, id, mode⟩ ∈ locks) (covered : commit.Covered history)
    (compatible : Compatible commit.locks locks)
    (stored : (History.db history table).get id ≠ none) :
    (History.db (commit :: history) table).get id ≠ none := by
  rw [History.db_cons]
  rcases Db.get_writes_cases (History.db history) commit.writes table id with
    ⟨same, -⟩ | ⟨row, label, member, now⟩
  · rwa [same]
  · obtain ⟨lock, locked, sameTable, sameId, strength⟩ := covered _ member
    obtain ⟨lockTable, lockId, lockMode⟩ := lock
    simp only at sameTable sameId strength
    subst sameTable sameId
    rw [now]
    rcases strength with rfl | ⟨-, keeps, -⟩
    · have excluded := compatible _ locked _ held
      simp [Lock.conflicts, LockMode.conflicts] at excluded
    · exact keeps

end Rely

end ReadCommitted

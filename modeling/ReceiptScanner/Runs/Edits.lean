import ReceiptScanner.Runs.Labels
import ReceiptScanner.Runs.Verified

/-!
# What the request of a job has to do with its commit

The labels of a commit tell the kind of its job. Here is what the arguments of the job
say about the writes: a PATCH commits its own body, applied to the row as it stands, and
a removal removes the row it is asked to, and no other of its table.
-/

namespace ReceiptScanner

open ReadCommitted

/-- The row that a job is asked to remove. -/
def Job.removes : Job → Option (Table × ℕ)
  | .removeCategory _ id => some (.categories, id)
  | .removeTag _ id => some (.tags, id)
  | .removePaymentMethod _ id => some (.paymentMethods, id)
  | .deleteReceipt _ receiptId => some (.receipts, receiptId)
  | _ => none

/-- The commit removes this row of the table, and no other. -/
structure RemovesOnly (c : Commit store outside) (table : Table) (asked : ℕ) : Prop where
  gone : ∃ label, ⟨table, asked, none, label⟩ ∈ c.writes
  only : ∀ id label, ⟨table, id, none, label⟩ ∈ c.writes → id = asked

/-- What the arguments of a job say about a commit of its process. -/
def Edited (setup : Setup) (h : History store outside) (c : Commit store outside) : Job → Prop
  | .updateReceipt _ receiptId body => PatchedReceipt setup h c receiptId body
  | .updateItem _ receiptId itemId body => PatchedItem h c receiptId itemId body
  | job => ∀ table asked, job.removes = some (table, asked) → RemovesOnly c table asked

/-- Every commit is by the request of its process. -/
def edits (setup : Setup) (jobs : ℕ → Option Job) : Guarantee store outside where
  commits h c := ∀ job, jobs c.tid = some job → Edited setup h c job
  calls _ _ _ _ := True

section Removals

variable {regime : Regime} {table : Table} {label : Label} {asked : ℕ}
  {keep : Db store → ℕ → table.Row → Bool}

/-- The ON DELETE actions on other tables, and on the links between receipts, remove no
further row of the table itself. -/
theorem onDelete_spares {job : Job} (db : Db store) (removes : job.removes = some (table, asked))
    (id other : ℕ) : (⟨table, other, none, label⟩ : Write store) ∉ onDelete db label table id := by
  intro member
  cases job <;> simp only [Job.removes, Option.some.injEq, Prod.mk.injEq, reduceCtorEq] at removes
  all_goals
    obtain ⟨rfl, rfl⟩ := removes
    simp [onDelete, mem_sweep, onDeleteItem] at member

/-- The DELETE of one row. -/
theorem promises_deleteAsked (job : Job) (removes : job.removes = some (table, asked))
    (only : ∀ db id row, keep db id row = true → id = asked)
    (commits : ∀ (h : History store outside) c, regime.who c.tid → RemovesOnly c table asked →
      regime.ok.commits h c) :
    Promises regime (execSql .db (.delete (schema regime.setup.lower) label table keep)) := by
  refine promises_exec fun opening entry ctx calls stop who ran _ written => commits _ _ who ?_
  have made := ran.writes
  rw [Stmt.delete] at made
  rcases ctx.targets_of_id (only ctx.snap) with none | ⟨row, one⟩
  · rw [none] at made
    exact absurd made written
  · rw [one, List.flatMap_singleton] at made
    have writes : (opening.commit calls [entry] stop).writes =
        ⟨table, asked, none, label⟩ :: onDelete ctx.cur label table asked := made
    refine ⟨⟨label, writes ▸ List.mem_cons_self⟩, fun id label' member => ?_⟩
    rw [writes] at member
    rcases List.mem_cons.mp member with same | action
    · cases same
      rfl
    · obtain rfl : label' = label := label_onDelete action
      exact absurd action (onDelete_spares _ removes _ _)

/-- The removal of one row of the user's, as the reference services send it. -/
theorem promises_removeAsked (job : Job) {noun : String}
    (removes : job.removes = some (table, asked))
    (only : ∀ db id row, keep db id row = true → id = asked)
    (commits : ∀ (h : History store outside) c, regime.who c.tid → RemovesOnly c table asked →
      regime.ok.commits h c) :
    Promises regime (removeOwned noun (.delete (schema regime.setup.lower) label table keep)) :=
  promises_bind (promises_deleteAsked job removes only commits) fun _ =>
    promises_bind (promises_firstRow _ _) fun _ => promises_pure _

end Removals

variable {setup : Setup} {jobs : ℕ → Option Job}

/-- A task that is verified for the process of its job. -/
theorem wp_job {ok : Guarantee store outside} {job : Job} {α : Type} {tell : α → Answer}
    {task : Task α} {tid : ℕ} {world : World store outside} (assigned : jobs tid = some job)
    (promises : Promises ⟨setup, ok, fun tid => jobs tid = some job⟩ task) :
    (Job.serve tell task).wp ok (schema setup.lower) (fun _ _ _ => True)
      { tid := tid } world := by
  refine @wp_serve _ ⟨setup, ok, fun tid => jobs tid = some job⟩ _ _ _ _
    (fun _ _ _ => True) ?_
  exact Svc.wp_mono (promises tid [] world assigned) (fun _ _ _ _ => trivial) fun _ _ _ _ => trivial

/-- Every job commits what it is asked to. -/
theorem keeps_edits (setup : Setup) (jobs : ℕ → Option Job) :
    Keeps (application setup) (edits setup jobs) (Terms.free jobs) := by
  refine Keeps.of_free fun job tid world assigned => ?_
  have key {id asked : ℕ} {owned : Bool} (kept : (id == asked && owned) = true) : id = asked :=
    beq_iff_eq.mp (Bool.and_eq_true_iff.mp kept).1
  -- A removal, for the process whose job it is.
  have removed {table : Table} {asked : ℕ} (removes : job.removes = some (table, asked))
      (plain : ∀ (h : History store outside) c, (∀ table asked, job.removes = some (table, asked) →
        RemovesOnly c table asked) → Edited setup h c job) (h : History store outside)
      (c : Commit store outside) (mine : jobs c.tid = some job) (only : RemovesOnly c table asked) :
      (edits setup jobs).commits h c := by
    intro job' is
    obtain rfl := Option.some.inj (mine.symm.trans is)
    refine plain h c fun table' asked' asks => ?_
    obtain ⟨rfl, rfl⟩ := Prod.mk.inj (Option.some.inj (removes.symm.trans asks))
    exact only
  cases job with
  | updateReceipt userId receiptId body =>
      refine wp_job assigned (ReceiptService.promises_patch fun h c mine _ patched job' is => ?_)
      obtain rfl := Option.some.inj (mine.symm.trans is)
      exact patched
  | updateItem userId receiptId itemId body =>
      refine wp_job assigned (ItemService.promises_patch fun h c mine _ patched job' is => ?_)
      obtain rfl := Option.some.inj (mine.symm.trans is)
      exact patched
  | removeCategory userId id =>
      exact wp_job assigned (promises_removeAsked (.removeCategory userId id) rfl
        (fun _ _ _ => key) (removed rfl fun _ _ all => all))
  | removeTag userId id =>
      exact wp_job assigned (promises_removeAsked (.removeTag userId id) rfl
        (fun _ _ _ => key) (removed rfl fun _ _ all => all))
  | removePaymentMethod userId id =>
      exact wp_job assigned (promises_removeAsked (.removePaymentMethod userId id) rfl
        (fun _ _ _ => key) (removed rfl fun _ _ all => all))
  | deleteReceipt userId receiptId =>
      refine wp_job assigned (promises_bind (promises_read fun _ => rfl) fun images =>
        promises_bind (promises_deleteAsked (.deleteReceipt userId receiptId) rfl
          (fun _ _ _ => key) (removed rfl fun _ _ all => all)) fun result => ?_)
      cases result with
      | nil => exact promises_pure _
      | cons id rest =>
          exact promises_bind (promises_forM _ fun _ =>
            ReceiptService.promises_removeQuietly fun _ _ _ => trivial) fun _ => promises_pure _
  | _ =>
      refine Prog.wp_of_within (@Prog.within_all _ _ ⟨fun _ => True, fun _ => True⟩ _ _
        (fun _ => trivial) fun _ => trivial) (fun h c same _ _ job' is => ?_)
        (fun _ _ _ _ => trivial) (fun _ _ _ _ => trivial) (Local.Stays.fresh _ _)
      obtain rfl := same
      obtain rfl := Option.some.inj (assigned.symm.trans is)
      exact fun _ _ asks => nomatch asks

/-- Every commit of every run is what its process was asked for. -/
theorem edited_of_reachable {config : Config store outside Job} {c : Commit store outside}
    {earlier : History store outside} (reachable : Config.Reachable (application setup) config)
    (suffix : c :: earlier <:+ config.world.history) {job : Job}
    (isJob : config.jobs c.tid = some job) : Edited setup earlier c job :=
  (keeps_edits setup config.jobs).sound reachable config.agrees_jobs suffix job isJob

end ReceiptScanner

import ReceiptScanner.Ledger.Tokens
import ReceiptScanner.Runs.Labels

/-!
# No scan is stuck or retried forever

A scanning row has a token, so `reclaimStuck` can see it. A row that the workers put back
on the lane has spent a unit of one budget, so a run of workers alone claims each receipt
at most as often as both budgets together have units.
-/

namespace ReceiptScanner

open ReadCommitted

variable {setup : Setup} {before config : Config store outside Job} {c : Commit store outside}
  {h : History store outside} {id : ℕ}

section Runs

/-- The jobs of a worker. -/
def Job.isWorker : Job → Bool
  | .tick => true
  | .process _ => true
  | _ => false

/-- A move that is no user's: a poll begins, a process of a worker moves, a process dies,
or time passes. -/
def workerMove (config : Config store outside Job) : Move outside Job → Bool
  | .spawn job => job.isWorker
  | .start tid => (config.jobs tid).any Job.isWorker
  | .finish tid => (config.jobs tid).any Job.isWorker
  | .fail tid _ => (config.jobs tid).any Job.isWorker
  | .step tid => (config.jobs tid).any Job.isWorker
  | .reply tid _ => (config.jobs tid).any Job.isWorker
  | .crash _ => true
  | .wait _ => true

/-- Perform moves of workers in order. -/
def runWorkers (setup : Setup) : List (Move outside Job) → Config store outside Job →
    Option (Config store outside Job)
  | [], config => some config
  | first :: rest, config =>
      if workerMove config first then
        (Config.move (application setup) config first).bind (runWorkers setup rest)
      else none

/-- A commit of a worker. -/
def WorkerCommit (config : Config store outside Job) (c : Commit store outside) : Prop :=
  ∃ job, config.jobs c.tid = some job ∧ job.isWorker

/-- A move of a worker adds commits of workers. -/
theorem worker_commits_move (reachable : Config.Reachable (application setup) before)
    {choice : Move outside Job} (worker : workerMove before choice)
    (moved : Config.move (application setup) before choice = some config) :
    ∃ newer, config.world.history = newer ++ before.world.history ∧
      ∀ c ∈ newer, WorkerCommit config c := by
  have named := ((keeps_promise setup before.jobs).inv reachable before.agrees_jobs).named
  obtain same | ⟨c, grown, acted⟩ :=
    Config.history_move (fun tid proc found => (named tid proc found).2) moved
  · exact ⟨[], same, by simp⟩
  · refine ⟨[c], grown, ?_⟩
    intro other among
    obtain rfl := List.mem_singleton.mp among
    have isWorker : (before.jobs other.tid).any Job.isWorker ∨ config.world.history =
        before.world.history := by
      cases choice with
      | spawn job => cases acted
      | wait ticks => cases acted
      | crash tid =>
          right
          obtain ⟨proc, found, moved⟩ := Option.bind_eq_some_iff.mp moved
          simp only [Config.crashProc] at moved
          split at moved
          · obtain rfl := Option.some.inj moved
            rfl
          · cases moved
      | _ => exact Or.inl (Option.some.inj acted ▸ worker)
    obtain isWorker | unchanged := isWorker
    · obtain ⟨job, isJob, works⟩ := (Option.any_eq_true _ _).mp isWorker
      obtain ⟨proc, found, rfl⟩ := Option.map_eq_some_iff.mp isJob
      obtain ⟨proc', later, same⟩ := (reachable.numbered.move moved).jobs _ proc found
      exact ⟨proc'.job, by simp [Config.jobs, later], same ▸ works⟩
    · rw [grown] at unchanged
      exact absurd (congrArg List.length unchanged) (by simp)

/-- So does a run of workers. -/
theorem worker_commits (reachable : Config.Reachable (application setup) before)
    {moves : List (Move outside Job)} (ran : runWorkers setup moves before = some config) :
    Config.Reachable (application setup) config ∧ before.Continues config ∧
      ∃ newer, config.world.history = newer ++ before.world.history ∧
        ∀ c ∈ newer, WorkerCommit config c := by
  induction moves generalizing before with
  | nil =>
      obtain rfl := Option.some.inj ran
      exact ⟨reachable, ⟨reachable.numbered, fun _ proc found => ⟨proc, found, rfl⟩⟩, [], rfl,
        by simp⟩
  | cons first rest inductionHypothesis =>
      simp only [runWorkers] at ran
      split at ran
      · next worker =>
          obtain ⟨middle, moved, ran⟩ := Option.bind_eq_some_iff.mp ran
          obtain ⟨end_, continues, newer, grown, later⟩ :=
            inductionHypothesis (.move reachable first moved) ran
          obtain ⟨newest, grown', now⟩ := worker_commits_move reachable worker moved
          refine ⟨end_, (reachable.numbered.move moved).trans continues, newer ++ newest, ?_, ?_⟩
          · rw [grown, grown', List.append_assoc]
          · intro c among
            obtain among | among := List.mem_append.mp among
            · exact later c among
            · obtain ⟨job, isJob, works⟩ := now c among
              obtain ⟨proc, found, rfl⟩ := Option.map_eq_some_iff.mp isJob
              obtain ⟨proc', there, same⟩ := continues.jobs _ proc found
              exact ⟨proc'.job, by simp [Config.jobs, there], same ▸ works⟩
      · cases ran

end Runs

section Budgets

/-- The receipts that a commit claims. -/
def claims (c : Commit store outside) : List ℕ :=
  (c.writes.filter fun write => write.table = Table.receipts && write.label = .claim).map Write.id

/-- The units of both budgets that a row can still spend and be put back on the lane. -/
def spare (setup : Setup) (row : ReceiptRow) : ℕ :=
  (setup.maxScanAttempts - 1 - row.scanAttempts).toNat +
    (setup.maxReclaims - 1 - row.reclaimCount).toNat

/-- How often the workers can still claim the receipt. -/
def claimsLeft (setup : Setup) : Option ReceiptRow → ℕ
  | none => 0
  | some row =>
      match row.scanState with
      | .uploaded => spare setup row + 1
      | .scanning => spare setup row
      | _ => 0

/-- A commit claims a receipt once. -/
theorem nodup_claims (promised : Promised setup h c) : (claims c).Nodup := by
  have apart := promised.singly
  rw [Singly, Apart, List.pairwise_filter] at apart
  apply List.Pairwise.map
  · exact fun _ _ differ => differ
  · rw [List.pairwise_filter]
    refine apart.imp ?_
    intro left right apart isLeft isRight same
    simp only [Bool.and_eq_true, decide_eq_true_eq] at isLeft isRight
    exact apart (by simp [isLeft.1]) (by simp [isRight.1]) ⟨isRight.1.trans isLeft.1.symm, same.symm⟩

theorem claimed_of_mem (claimed : id ∈ claims c) :
    ∃ row : Option ReceiptRow, ⟨.receipts, id, row, .claim⟩ ∈ c.writes := by
  obtain ⟨⟨table, other, row, label⟩, member, rfl⟩ := List.mem_map.mp claimed
  obtain ⟨among, which⟩ := List.mem_filter.mp member
  simp only [Bool.and_eq_true, decide_eq_true_eq] at which
  obtain ⟨rfl, rfl⟩ := which
  exact ⟨row, among⟩

/-- A failure that puts the row back on the lane spends a unit of its budget. -/
theorem spare_failedRow {row : ReceiptRow} {scanError terminal : Bool}
    (queued : (ScanWorker.failedRow scanError
      (ScanWorker.failureCap setup scanError terminal) row).scanState = .uploaded) :
    spare setup (ScanWorker.failedRow scanError
      (ScanWorker.failureCap setup scanError terminal) row) + 1 ≤ spare setup row := by
  have below : ((if scanError then row.scanAttempts else row.reclaimCount : ℕ) : ℤ) + 1 <
      ScanWorker.failureCap setup scanError terminal := by
    by_contra spent
    have failed : (ScanWorker.failedRow scanError
        (ScanWorker.failureCap setup scanError terminal) row).scanState = .scanFailed := by
      simp only [ScanWorker.failedRow]
      exact if_pos (by omega)
    rw [failed] at queued
    cases queued
  have real : terminal = false := by
    by_contra isTerminal
    simp only [ScanWorker.failureCap, Bool.not_eq_false _ ▸ isTerminal, if_true] at below
    omega
  cases scanError with
  | true =>
      simp only [ScanWorker.failureCap, real, Bool.false_eq_true, if_false, if_true] at below
      simp only [spare, ScanWorker.failedRow, if_true]
      omega
  | false =>
      simp only [ScanWorker.failureCap, real, Bool.false_eq_true, if_false] at below
      simp only [spare, ScanWorker.failedRow, Bool.false_eq_true, if_false]
      omega

/-- So does a reclaim. -/
theorem spare_reclaimedRow {row : ReceiptRow}
    (queued : (ScanWorker.reclaimedRow setup row).scanState = .uploaded) :
    spare setup (ScanWorker.reclaimedRow setup row) + 1 ≤ spare setup row := by
  have below : (row.reclaimCount + 1 : ℤ) < setup.maxReclaims := by
    by_contra spent
    have failed : (ScanWorker.reclaimedRow setup row).scanState = .scanFailed := by
      simp only [ScanWorker.reclaimedRow]
      exact if_pos (by omega)
    rw [failed] at queued
    cases queued
  simp only [spare, ScanWorker.reclaimedRow]
  omega

/-- A row off the lane is not claimed any more, and one that waits has a claim to come. -/
theorem claimsLeft_le {row : ReceiptRow} {bound : ℕ}
    (fine : row.scanState = .scanFailed ∨ row.scanState = .uploaded)
    (spends : row.scanState = .uploaded → spare setup row + 1 ≤ bound) :
    claimsLeft setup (some row) ≤ bound := by
  obtain failed | queued := fine
  · simp only [claimsLeft, failed]
    omega
  · simp only [claimsLeft, queued]
    exact spends queued

/-- What the statements of a worker leave of a receipt's claims. -/
theorem ReceiptWrote.claimsLeft {row : Option ReceiptRow} {label : Label}
    (wrote : ReceiptWrote setup h c id row label)
    (worker : label ∈ Job.tick.labels ∨ label ∈ (Job.process ⟨0, 0, 0⟩).labels) :
    (if label = .claim then 1 else 0) + claimsLeft setup row ≤
      ReceiptScanner.claimsLeft setup ((h.db .receipts).get id) := by
  cases wrote with
  | reclaimed stored scanning =>
      rw [stored]
      simp only [reduceCtorEq, if_false, Nat.zero_add]
      apply (claimsLeft_le (ScanWorker.scanState_reclaimedRow rfl) spare_reclaimedRow).trans
      simp only [ReceiptScanner.claimsLeft, scanning, le_refl]
  | claimed stored queued =>
      rw [stored]
      simp only [ReceiptScanner.claimsLeft, ScanWorker.claimedRow, queued, if_true]
      exact (Nat.add_comm _ _).le
  | failed stored holds =>
      rw [stored]
      simp only [reduceCtorEq, if_false, Nat.zero_add]
      apply (claimsLeft_le (ScanWorker.scanState_failedRow rfl) spare_failedRow).trans
      simp only [ReceiptScanner.claimsLeft, (holds_iff.mp holds).2.1, le_refl]
  | extracted stored scanned => exact Nat.zero_le _
  | verified stored scanned => exact Nat.zero_le _
  | _ => simp [Job.labels] at worker

/-- A commit of a worker uses up the claims it makes. -/
theorem claims_step (reachable : Config.Reachable (application setup) config)
    (past : c :: h <:+ config.world.history) (worker : WorkerCommit config c) (id : ℕ) :
    (claims c).count id + claimsLeft setup ((History.db (c :: h) .receipts).get id) ≤
      claimsLeft setup ((h.db .receipts).get id) := by
  have promised := promised_of_reachable reachable past
  obtain ⟨same, untouched⟩ | ⟨row, label, member, isNow, wrote⟩ := promised.row_cases .receipts id
  · have unclaimed : (claims c).count id = 0 := by
      rw [List.count_eq_zero]
      intro claimed
      obtain ⟨row, member⟩ := claimed_of_mem claimed
      exact untouched _ member ⟨rfl, rfl⟩
    rw [unclaimed, same, Nat.zero_add]
  · obtain ⟨job, isJob, within⟩ := labels_of_reachable reachable (past.subset List.mem_cons_self)
    obtain ⟨_, isJob', works⟩ := worker
    obtain rfl := Option.some.inj (isJob.symm.trans isJob')
    have labelled : label ∈ Job.tick.labels ∨ label ∈ (Job.process ⟨0, 0, 0⟩).labels := by
      cases job with
      | tick => exact Or.inl (within _ member)
      | process claim => exact Or.inr (within _ member)
      | _ => cases works
    have counted : (claims c).count id ≤ if label = .claim then 1 else 0 := by
      split
      · exact List.nodup_iff_count_le_one.mp (nodup_claims promised) id
      · next other =>
          apply (List.count_eq_zero.mpr _).le
          intro claimed
          obtain ⟨row', member'⟩ := claimed_of_mem claimed
          exact other (promised.unique (by decide) member member').2
    have spent := ReceiptWrote.claimsLeft wrote labelled
    rw [isNow]
    omega

/-- The workers claim a receipt no more often than it has claims left. -/
theorem claims_le (reachable : Config.Reachable (application setup) config)
    {newer base : History store outside} (past : newer ++ base <:+ config.world.history)
    (workers : ∀ c ∈ newer, WorkerCommit config c) (id : ℕ) :
    (newer.flatMap claims).count id +
        claimsLeft setup ((History.db (newer ++ base) .receipts).get id) ≤
      claimsLeft setup ((base.db .receipts).get id) := by
  induction newer with
  | nil => simp
  | cons c rest inductionHypothesis =>
      have earlier := inductionHypothesis ((List.suffix_cons c _).trans past)
        fun other among => workers other (by simp [among])
      have now : (claims c).count id +
          claimsLeft setup ((History.db (c :: (rest ++ base)) .receipts).get id) ≤
            claimsLeft setup ((History.db (rest ++ base) .receipts).get id) :=
        claims_step reachable past (workers c (by simp)) id
      rw [List.flatMap_cons, List.count_append, List.cons_append]
      omega

/-- The receipts that are queued or scanning. -/
def onLane (h : History store outside) : List (ℕ × ReceiptRow) :=
  (h.db .receipts).list.filter fun item =>
    item.2.scanState = .uploaded || item.2.scanState = .scanning

/-- With both caps at least 1, a receipt on the lane has no more claims left than both
budgets have units, and any other has none. -/
theorem claimsLeft_bounded (attempts : 1 ≤ setup.maxScanAttempts) (reclaims : 1 ≤ setup.maxReclaims)
    (h : History store outside) (id : ℕ) :
    claimsLeft setup ((h.db .receipts).get id) ≤
      if id ∈ (onLane h).map Prod.fst then (setup.maxScanAttempts + setup.maxReclaims).toNat
      else 0 := by
  cases stored : (h.db .receipts).get id with
  | none => exact Nat.zero_le _
  | some row =>
      have spares : spare setup row + 1 ≤ (setup.maxScanAttempts + setup.maxReclaims).toNat := by
        unfold spare
        omega
      by_cases lane : row.scanState = .uploaded ∨ row.scanState = .scanning
      · have listed : id ∈ (onLane h).map Prod.fst := by
          refine List.mem_map.mpr ⟨(id, row), List.mem_filter.mpr ⟨Rows.mem_list.mpr stored, ?_⟩, rfl⟩
          simpa using lane
        rw [if_pos listed]
        obtain queued | scanning := lane
        · simpa only [claimsLeft, queued] using spares
        · simp only [claimsLeft, scanning]
          omega
      · have off : claimsLeft setup (some row) = 0 := by
          simp only [claimsLeft]
          cases state : row.scanState with
          | uploaded => exact absurd (Or.inl state) lane
          | scanning => exact absurd (Or.inr state) lane
          | _ => rfl
        rw [off]
        exact Nat.zero_le _

/-- A list whose members are all among `keys`, each at most `most` times. -/
theorem length_le_of_count_le {most : ℕ} (keys : List ℕ) {list : List ℕ}
    (among : ∀ id ∈ list, id ∈ keys) (bounded : ∀ id, list.count id ≤ most) :
    list.length ≤ keys.length * most := by
  induction keys generalizing list with
  | nil =>
      have empty : list = [] := List.eq_nil_iff_forall_not_mem.mpr fun id member =>
        absurd (among id member) List.not_mem_nil
      simp [empty]
  | cons key rest inductionHypothesis =>
      have others := @inductionHypothesis (list.filter fun id => id ≠ key)
        (fun id member => by
          obtain ⟨isThere, differs⟩ := List.mem_filter.mp member
          simpa [of_decide_eq_true differs] using among id isThere)
        (fun id => (List.filter_sublist.count_le id).trans (bounded id))
      have split : list.length = list.count key + (list.filter fun id => id ≠ key).length := by
        rw [List.length_eq_countP_add_countP (· == key), List.count, List.countP_eq_length_filter,
          List.countP_eq_length_filter]
        simp
      have here := bounded key
      rw [List.length_cons, Nat.succ_mul]
      omega

/-- No scan is stuck: a scanning row has a token. And none is retried forever: from any
state that is reached, a run of workers claims at most as many rows, in all, as the
receipts queued or scanning then have units of both budgets. -/
theorem scans_end (attempts : 1 ≤ setup.maxScanAttempts) (reclaims : 1 ≤ setup.maxReclaims)
    (reachable : Config.Reachable (application setup) before) :
    (∀ (id : ℕ) (row : ReceiptRow), (before.world.history.db .receipts).get id = some row →
      row.scanState = .scanning → row.scanStartedAt ≠ none) ∧
    ∀ (moves : List (Move outside Job)) (config : Config store outside Job),
      runWorkers setup moves before = some config →
      ∃ newer, config.world.history = newer ++ before.world.history ∧
        ((newer.flatMap claims).length : ℤ) ≤ ((onLane before.world.history).map fun _ =>
          setup.maxScanAttempts + setup.maxReclaims).sum := by
  constructor
  · intro id row stored scanning
    obtain ⟨token, carried, -⟩ :=
      tokened_of_reachable reachable List.suffix_rfl id row stored scanning
    simp [carried]
  · intro moves config ran
    obtain ⟨reached, -, newer, grown, workers⟩ := worker_commits reachable ran
    refine ⟨newer, grown, ?_⟩
    have counted : ∀ id, (newer.flatMap claims).count id ≤
        if id ∈ (onLane before.world.history).map Prod.fst
        then (setup.maxScanAttempts + setup.maxReclaims).toNat else 0 := by
      intro id
      have most := claims_le reached ⟨[], grown.symm⟩ workers id
      have left := claimsLeft_bounded attempts reclaims before.world.history id
      omega
    have most := @length_le_of_count_le (setup.maxScanAttempts + setup.maxReclaims).toNat
      ((onLane before.world.history).map Prod.fst) _ (fun id member => by
        by_contra off
        have none := counted id
        rw [if_neg off] at none
        exact absurd member (List.count_eq_zero.mp (Nat.le_zero.mp none)))
      (fun id => (counted id).trans (by split <;> simp))
    rw [List.map_const', List.sum_replicate, nsmul_eq_mul]
    rw [List.length_map] at most
    have cast : ((setup.maxScanAttempts + setup.maxReclaims).toNat : ℤ) =
        setup.maxScanAttempts + setup.maxReclaims := Int.toNat_of_nonneg (by omega)
    calc ((newer.flatMap claims).length : ℤ)
        ≤ (((onLane before.world.history).length *
            (setup.maxScanAttempts + setup.maxReclaims).toNat : ℕ) : ℤ) := by exact_mod_cast most
      _ = (onLane before.world.history).length *
            (setup.maxScanAttempts + setup.maxReclaims) := by rw [Nat.cast_mul, cast]

/-- The state in which one user has uploaded one image. -/
def oneQueued : Config store outside Job :=
  Config.ran (application demo) (registering 0 "ann" "secret" ++ uploading 1 1 ["image"])
    (by decide +kernel)

theorem scans_end_of_oneQueued : ∃ (config : Config store outside Job)
    (newer : History store outside),
    runWorkers demo (polling 2 ++ extracting 3 1 { kind := "purchase" }) oneQueued = some config ∧
      config.world.history = newer ++ oneQueued.world.history ∧
      ((newer.flatMap claims).length : ℤ) ≤ ((onLane oneQueued.world.history).map fun _ =>
        demo.maxScanAttempts + demo.maxReclaims).sum := by
  have possible : (runWorkers demo (polling 2 ++ extracting 3 1 { kind := "purchase" })
      oneQueued).isSome := by decide +kernel
  obtain ⟨config, ran⟩ := Option.isSome_iff_exists.mp possible
  have reachable : Config.Reachable (application demo) oneQueued := Config.reachable_ran _
  obtain ⟨newer, grown, bounded⟩ :=
    (scans_end (by decide) (by decide) reachable).2 _ config ran
  exact ⟨config, newer, ran, grown, bounded⟩

end Budgets

end ReceiptScanner

import ReceiptScanner.Ledger.Tokens
import ReceiptScanner.Runs.Labels

/-!
# What belongs to a claim

A scan writes its result, or records its failure, only while the row carries the very
claim that the process was given: a plain UPDATE asks for the token, and a result is
written under the lock of a row that was found with it.
-/

namespace ReceiptScanner

open ReadCommitted

variable {setup : Setup} {jobs : ℕ → Option Job}

/-- The claim that a job works on. -/
def Job.claim : Job → Option Claim
  | .process claim => some claim
  | .applyResult claim _ => some claim
  | _ => none

/-- Of the receipts, this is a write to that of the claim. -/
def Claim.Covers (claim : Claim) (write : Write store) : Prop :=
  write.table = .receipts → write.id = claim.receiptId

/-- A job that works on a claim commits while the claim stands, and writes its receipt only. -/
def whileClaimed (jobs : ℕ → Option Job) : Guarantee store outside where
  commits h c := ∀ job claim, jobs c.tid = some job → job.claim = some claim →
    Carries h claim claim.receiptId ∧ ∀ write ∈ c.writes, claim.Covers write
  calls _ _ _ _ := True

/-- The processes that work on this claim. -/
abbrev workingOn (setup : Setup) (jobs : ℕ → Option Job) (claim : Claim) : Regime where
  setup := setup
  ok := whileClaimed jobs
  who tid := ∃ job, jobs tid = some job ∧ job.claim = some claim

namespace ScanWorker

variable {regime : Regime}

theorem promises_similarity (left right : String) :
    Promises regime (similarity setup left right) := promises_read fun _ => rfl

theorem promises_merchantMatches (merchant : String) (result : ScanResult) :
    Promises regime (merchantMatches setup merchant result) := by
  unfold merchantMatches
  cases result.storeNameRaw with
  | none =>
      cases result.merchant with
      | none => exact promises_pure _
      | some scanned => exact promises_bind (promises_similarity _ _) fun _ => promises_pure _
  | some storeName =>
      have further : ∀ ofMerchant : ℚ, Promises regime
          (if ofMerchant < setup.merchantMatchThreshold then do
            let ofStore ← similarity setup merchant storeName
            let best ← pure (max ofMerchant ofStore)
            pure (!decide (best < setup.merchantMatchThreshold))
          else do
            let best ← pure ofMerchant
            pure (!decide (best < setup.merchantMatchThreshold)) : Task Bool) := by
        intro ofMerchant
        split
        · exact promises_bind (promises_similarity _ _) fun _ => promises_pure _
        · exact promises_pure _
      cases result.merchant with
      | none => exact further 0
      | some scanned => exact promises_bind (promises_similarity _ _) further

theorem promises_compareResult (before : Snapshot) (result : ScanResult) :
    Promises regime (compareResult setup before result) := by
  unfold compareResult
  split
  · refine promises_ofExcept_bind fun dates _ => promises_bind ?_ fun _ => promises_pure _
    unfold merchantsMatch
    split
    · exact promises_pure _
    · split
      · exact promises_merchantMatches _ _
      · exact promises_pure _
  · exact promises_pure _

variable {claim : Claim} {result : ScanResult} {taxonomy : Taxonomy}

/-- A commit of a process that works on the claim, made while the row carries it. -/
theorem whileClaimed_commits {h : History store outside} {c : Commit store outside}
    (who : (workingOn setup jobs claim).who c.tid) (carries : Carries h claim claim.receiptId)
    (covers : ∀ write ∈ c.writes, claim.Covers write) : (whileClaimed jobs).commits h c := by
  obtain ⟨job, isJob, works⟩ := who
  intro job' claim' isJob' works'
  obtain rfl := Option.some.inj (isJob.symm.trans isJob')
  obtain rfl := Option.some.inj (works.symm.trans works')
  exact ⟨carries, covers⟩

section Covers

/-- What stays on the receipt of the claim. -/
abbrev covered (claim : Claim) : Footprint store outside := ⟨claim.Covers, fun _ => True⟩

/-- An UPDATE of one receipt. -/
theorem within_updateClaimed {client : Client} {label : Label} {α : Type}
    {keep : Db store → ℕ → ReceiptRow → Bool} {set : ℕ → ReceiptRow → ReceiptRow}
    {returning : ℕ → ReceiptRow → α} (only : ∀ db id row, keep db id row = true →
      id = claim.receiptId) :
    Svc.Within (covered claim) (execSql client (.update label .receipts keep set returning)) := by
  refine Svc.within_exec fun ctx write made _ => ?_
  have cases := @Stmt.update_of_id store α label .receipts keep set returning ctx _ (only ctx.snap)
  rcases cases with ⟨none, -⟩ | ⟨before, one, -⟩
  · simp [none] at made
  · rw [one, List.mem_singleton] at made
    exact congrArg Write.id made

/-- What writes items and their tags only. -/
theorem covers_of_marks (labels : List Label) {α : Type} {task : Task α} (items : ∀ label ∈ labels,
      label = .clearItems ∨ label = .insertItem ∨ label = .clearTags ∨ label = .insertTag)
    (within : Svc.Within (marks labels fun _ => true) task) :
    Svc.Within (covered claim) task := by
  refine within.mono (fun write ⟨labelled, onTable⟩ isReceipt => ?_) fun _ _ => trivial
  rw [isReceipt] at onTable
  rcases items _ labelled with same | same | same | same <;> simp [same, Label.tables] at onTable

theorem within_insertClaimed (kind : Kind) (items : List ScannedItem) :
    Svc.Within (covered claim) (insertScannedItems setup claim kind items taxonomy) := by
  refine covers_of_marks [.insertItem, .clearTags, .insertTag] (by simp) ?_
  exact Svc.within_forM _ fun _ => Svc.within_bind
    (ItemService.within_insert _ _ _ _ (by decide) (by decide) (by decide)) fun _ =>
      Svc.within_pure _

/-- Once its row is locked, a scan writes no other receipt. -/
theorem within_writeClaimed (before : Snapshot) (allMatch : Bool) (locked : Option Snapshot) :
    Svc.Within (covered claim) (writeLocked setup claim result taxonomy before allMatch locked) := by
  cases locked with
  | none => exact Svc.within_bind Svc.within_rollback fun _ => Svc.within_pure _
  | some locked =>
      refine within_if (within_if (Svc.within_bind ?_ fun _ => Svc.within_pure _)
          (Svc.within_bind ?_ fun _ => Svc.within_pure _))
        (Svc.within_bind Svc.within_rollback fun _ => Svc.within_pure _)
      · exact Svc.within_bind (within_ofExcept _) fun _ =>
          Svc.within_bind (within_updateClaimed fun _ _ _ => beq_iff_eq.mp) fun _ =>
            within_if (within_insertClaimed _ _) (Svc.within_pure _)
      · exact Svc.within_bind (within_ofExcept _) fun _ =>
          Svc.within_bind (within_ofExcept _) fun _ =>
            Svc.within_bind (within_updateClaimed fun _ _ _ => beq_iff_eq.mp) fun _ =>
              Svc.within_bind (covers_of_marks [.clearItems] (by simp) (within_delete (by decide)))
                fun _ => within_insertClaimed _ _

end Covers

/-- An attempt that leaves something to commit has the claimed row locked. -/
theorem promises_writeResult (before : Snapshot) (allMatch : Bool) :
    Promises (workingOn setup jobs claim)
      (writeResult setup claim result taxonomy before allMatch) := by
  refine promises_rollingBack
    ((inside_writeResult claim result taxonomy before allMatch).mono fun _ _ _ _ _ => trivial) ?_
  intro opening attempt calls calls' log h stop who ran linked written
  obtain ⟨found, _, read, rest⟩ := returns_bind.mp ran
  obtain ⟨lock, rfl, silent, locked⟩ := returns_readSnapshot read
  obtain ⟨older, live, within⟩ := Prog.Yields.suffix rest rfl
  obtain rfl := Phase.live.inj live
  cases found with
  | none =>
      obtain ⟨_, _, rolled, rest⟩ := returns_bind.mp rest
      obtain rfl := returns_rollback.mp rolled
      obtain ⟨-, impossible⟩ := returns_pure.mp rest
      cases impossible
  | some snapshot =>
      obtain ⟨row, taken, stored, held, -⟩ := locked snapshot rfl
      have member := within.subset (List.mem_singleton_self lock)
      refine whileClaimed_commits who ⟨row, ?_, held⟩ ?_
      · rw [← stored]
        exact (linked.held lock member).get (linked.past lock member) (by decide) taken
      · refine (within_writeClaimed before allMatch (some snapshot)).yields rest ?_ log rfl
        rintro _ same write sent
        obtain rfl := Phase.live.inj same
        simp [silent] at sent

theorem promises_attempts (left : ℕ) :
    Promises (workingOn setup jobs claim)
      (attempts setup claim result taxonomy left) := by
  induction left with
  | zero => exact promises_throw _
  | succ left ih =>
      refine promises_bind (promises_bind (promises_read fun _ => rfl) fun _ => promises_pure _)
        fun before => ?_
      cases before with
      | none => exact promises_pure _
      | some before =>
          refine promises_bind (promises_compareResult _ _) fun allMatch =>
            promises_bind (promises_writeResult _ _) fun attempt => ?_
          split
          · exact ih
          · exact promises_pure _

theorem promises_applyResult :
    Promises (workingOn setup jobs claim)
      (applyResult setup claim result) :=
  promises_bind (promises_bind (promises_read fun _ => rfl) fun _ =>
    promises_bind (promises_read fun _ => rfl) fun _ => promises_pure _)
    fun _ => promises_attempts 2

/-- A failure is recorded on a row that carries the claim. -/
theorem promises_recordFailure (scanError terminal : Bool) (error : String) :
    Promises (workingOn setup jobs claim)
      (recordFailure setup claim scanError terminal error) := by
  refine promises_bind (promises_exec fun opening entry ctx calls stop who ran linked written => ?_)
    fun rows => ?_
  · have covers : ∀ write ∈ entry.writes, claim.Covers write := by
      intro write made _
      obtain ⟨id, before, rfl, -, kept, -⟩ := ran.mem_update (Log.clean_nil _) made
      exact (holds_iff.mp kept).1
    obtain ⟨write, made⟩ := List.exists_mem_of_ne_nil _ written
    obtain ⟨id, before, rfl, stored, kept, -⟩ := ran.mem_update (Log.clean_nil _) made
    obtain rfl : id = claim.receiptId := (holds_iff.mp kept).1
    refine whileClaimed_commits who ⟨before, stored, kept⟩ fun write made => covers write ?_
    simpa [Opening.commit] using made
  · split
    · refine promises_tryCatch (promises_call fun _ _ _ => trivial) fun raised => ?_
      split
      · exact promises_throw _
      · exact promises_pure _
    · exact promises_pure _

theorem promises_settle (outcome : Except Err Bool) :
    Promises (workingOn setup jobs claim) (settle setup claim outcome) := by
  unfold settle
  split
  · exact promises_pure _
  all_goals exact promises_recordFailure _ _ _

theorem promises_scan : Promises (workingOn setup jobs claim) (scan setup claim) := by
  refine promises_bind (promises_bind (promises_read fun _ => rfl) fun _ => promises_pure _)
    fun snapshot => ?_
  cases snapshot with
  | none => exact promises_pure _
  | some snapshot =>
      refine promises_bind (promises_read fun _ => rfl) fun keys => ?_
      split
      · exact promises_pure _
      · refine promises_bind (promises_mapM _ fun _ =>
          promises_bind (promises_call fun _ _ _ => trivial) fun _ => promises_pure _)
          fun images => ?_
        refine promises_bind (promises_bind (promises_read fun _ => rfl) fun _ =>
          promises_bind (promises_read fun _ => rfl) fun _ => promises_pure _) fun taxonomy => ?_
        refine promises_bind (promises_call fun _ _ _ => trivial) fun result => ?_
        exact promises_ofExcept_bind fun result _ =>
          promises_bind promises_applyResult fun _ => promises_pure _

end ScanWorker

/-- Whoever may start a job, what a process commits belongs to a claim that stands, if it is
given one. -/
theorem keeps_whileClaimed (setup : Setup) (root : Job → Bool) (jobs : ℕ → Option Job) :
    Keeps { application setup with root := root } (whileClaimed jobs) (Terms.free jobs) := by
  refine Keeps.of_free fun job tid world assigned => ?_
  cases isClaim : job.claim with
  | none =>
      refine Prog.wp_of_within (@Prog.within_all _ _ ⟨fun _ => True, fun _ => True⟩ _ _
        (fun _ => trivial) fun _ => trivial) (fun h c same _ _ job' claim other works => ?_)
        (fun _ _ _ _ => trivial) (fun _ _ _ _ => trivial) (Local.Stays.fresh _ _)
      rw [same, assigned] at other
      obtain rfl := Option.some.inj other
      exact nomatch isClaim.symm.trans works
  | some claim =>
      have who : (workingOn setup jobs claim).who tid := ⟨job, assigned, isClaim⟩
      cases job with
      | applyResult other result =>
          obtain rfl := Option.some.inj isClaim
          have safe := @ScanWorker.promises_applyResult setup jobs other result tid [] world who
          exact wp_serve (Svc.wp_mono safe (fun _ _ _ _ => trivial) fun _ _ _ _ => trivial)
      | process other =>
          obtain rfl := Option.some.inj isClaim
          refine Prog.wp_bind.mpr (Prog.wp_bind.mpr (Prog.wp_mono (fun outcome own later ended => ?_)
            (@ScanWorker.promises_scan setup jobs other tid [] world who)))
          obtain ⟨calls, rfl⟩ : ∃ calls, own = idle tid calls := by
            cases outcome <;> exact ended
          exact Prog.wp_bind.mpr (Prog.wp_mono (fun _ _ _ _ => trivial)
            (ScanWorker.promises_settle outcome tid calls later who))
      | _ => cases isClaim

end ReceiptScanner

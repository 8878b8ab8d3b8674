import ReceiptScanner.Ledger.ImageCap
import ReceiptScanner.ReadCommitted.Follow

/-!
# The same image twice

Unless it is forced, a request looks for every one of its images among those of the user, under
the user's lock. It does not look for them in its own batch.
-/

namespace ReceiptScanner

open ReadCommitted

variable {setup : Setup} {config : Config store outside Job} {c : Commit store outside}
  {h : History store outside}

/-- No user has two images with one hash. -/
def Distinct (db : Db store) : Prop :=
  ∀ first second : ℕ, ∀ row other : ReceiptImageRow,
    (db .receiptImages).get first = some row → (db .receiptImages).get second = some other →
      row.userId = other.userId → row.imageSha256 = other.imageSha256 → first = second

/-- No request is forced. -/
def Unforced (config : Config store outside Job) : Prop :=
  ∀ tid job userId force, config.jobs tid = some job → job.deposit = some (userId, force) →
    force = false

/-- The images of the request of a commit, as they are normalized, have different hashes. -/
def Varied (setup : Setup) (c : Commit store outside) : Prop :=
  storesOf c.writes ≠ [] →
    ((normalized c.calls).map fun image => setup.sha256Hex image.2).Nodup

instance (setup : Setup) (c : Commit store outside) : Decidable (Varied setup c) :=
  inferInstanceAs (Decidable (_ → _))

/-- A check of all processes that there are. -/
theorem unforced_of_all (reachable : Config.Reachable (application setup) config)
    (checked : ∀ tid ∈ List.range config.tids,
      ((config.jobs tid).bind Job.deposit).map Prod.snd ≠ some true) : Unforced config := by
  intro tid job userId force assigned isDeposit
  obtain ⟨proc, found, -⟩ := Option.map_eq_some_iff.mp assigned
  have known := checked tid (List.mem_range.mpr (reachable.numbered tid proc found))
  simpa [assigned, isDeposit] using known

/-- An image that is stored when it is not forced was not there under the user's lock. -/
theorem novel_of_stored (reachable : Config.Reachable (application setup) config)
    (past : c :: h <:+ config.world.history) (unforced : Unforced config)
    {image : ℕ × ReceiptImageRow} (member : image ∈ storesOf c.writes) {id : ℕ}
    {row : ReceiptImageRow} (stored : (h.db .receiptImages).get id = some row)
    (owner : row.userId = image.2.userId) : row.imageSha256 ≠ image.2.imageSha256 := by
  obtain ⟨job, batch, force, assigned, -, isDeposit, -, deposited⟩ :=
    deposited_of_reachable reachable past member
  obtain ⟨seen, locked, absent⟩ :=
    deposited.novel (unforced _ _ _ _ assigned isDeposit) image member
  have past' := (List.suffix_cons c h).trans past
  exact absent id row (image_of_lockedSince reachable past' locked stored owner) owner

/-- The hashes that a commit stores are those of its request. -/
theorem varied_iff (reachable : Config.Reachable (application setup) config)
    (past : c :: h <:+ config.world.history) :
    Varied setup c ↔ ((storesOf c.writes).map fun image => image.2.imageSha256).Nodup := by
  rcases List.eq_nil_or_concat (storesOf c.writes) with empty | ⟨_, image, isStored⟩
  · simp [Varied, empty]
  · have member : image ∈ storesOf c.writes := by simp [isStored]
    obtain ⟨_, _, _, -, -, -, stores, -⟩ := deposited_of_reachable reachable past member
    rw [stores.hashes]
    exact ⟨fun varied => varied (List.ne_nil_of_mem member), fun nodup _ => nodup⟩

/-- A batch without a repetition keeps the images of every user apart. -/
theorem Distinct.cons (reachable : Config.Reachable (application setup) config)
    (past : c :: h <:+ config.world.history) (unforced : Unforced config)
    (varied : Varied setup c) (distinct : Distinct h.db) :
    Distinct (History.db (c :: h)) := by
  have promised := promised_of_reachable reachable past
  have nodup := (varied_iff reachable past).mp varied
  intro first second row other atFirst atSecond owner same
  rcases promised.image_before atFirst with before | ⟨stored, -⟩
  · rcases promised.image_before atSecond with before' | ⟨stored', -⟩
    · exact distinct first second row other before before' owner same
    · exact absurd same (novel_of_stored reachable past unforced stored' before owner)
  · rcases promised.image_before atSecond with before' | ⟨stored', -⟩
    · exact absurd same.symm (novel_of_stored reachable past unforced stored before' owner.symm)
    · exact congrArg Prod.fst (List.inj_on_of_nodup_map nodup stored stored' same)

/-- A commit that leaves the images of every user apart has stored a batch without one. -/
theorem Distinct.varied (reachable : Config.Reachable (application setup) config)
    (past : c :: h <:+ config.world.history) (distinct : Distinct (History.db (c :: h))) :
    Varied setup c := by
  have promised := promised_of_reachable reachable past
  rw [varied_iff reachable past, List.Nodup, List.pairwise_map]
  apply (increasing_storesOf reachable (past.subset List.mem_cons_self)).imp_of_mem
  intro first second inFirst inSecond less same
  have stands : ∀ image ∈ storesOf c.writes,
      ((History.db (c :: h)) .receiptImages).get image.1 = some image.2 := fun image member =>
    promised.get (by decide) (mem_storesOf.mp member)
  obtain ⟨_, _, _, -, -, -, -, deposited⟩ := deposited_of_reachable reachable past inFirst
  have owner := (deposited.owned second inSecond).1.symm
  exact less.ne (distinct _ _ _ _ (stands first inFirst) (stands second inSecond) owner same)

/-- Without force, the images of every user stay apart just where no batch repeats one; and a
request that is told of a conflict has put no object, and has committed nothing. -/
theorem duplicates (reachable : Config.Reachable (application setup) config)
    (unforced : Unforced config) :
    ((∀ h, h <:+ config.world.history → Distinct (History.db h)) ↔
      ∀ c ∈ config.world.history, Varied setup c) ∧
    ∀ tid proc, config.procs tid = some proc → proc.job.deposit.isSome →
      proc.life = .ended .conflict →
      (∀ said ∈ proc.own.calls, ∀ key type bytes, said.call ≠ .putImage key type bytes) ∧
        ∀ c ∈ config.world.history, c.tid ≠ tid := by
  refine ⟨⟨fun distinct c member => ?_, fun varied h past => ?_⟩, ?_⟩
  · obtain ⟨later, earlier, whole⟩ := List.append_of_mem member
    have past : c :: earlier <:+ config.world.history := ⟨later, whole.symm⟩
    exact (distinct _ past).varied reachable past
  · induction h with
    | nil => exact fun _ _ _ _ atFirst => by simp at atFirst
    | cons c earlier ih =>
        exact (ih ((List.suffix_cons c earlier).trans past)).cons reachable past unforced
          (varied c (past.subset List.mem_cons_self))
  · intro tid proc found isDeposit ended
    obtain ⟨⟨done, calls⟩, none⟩ := (keeps_deposits setup config.jobs).done reachable
      config.agrees_jobs found ended isDeposit rfl
    constructor
    · intro said member key type bytes isPut
      rw [calls, normalizing, List.mem_reverse] at member
      obtain ⟨image, -, rfl⟩ := List.mem_map.mp member
      cases isPut
    · intro c member same
      have mine : c ∈ History.ofTid tid config.world.history :=
        List.mem_filter.mpr ⟨member, by simp [same]⟩
      rw [none] at mine
      exact List.not_mem_nil mine

section Demo

/-- One user uploads two images at once, and then one of them again. -/
def repeatedUpload : List (Move outside Job) :=
  pairUpload ++ [.spawn (.uploadReceipt 1 ["front"] false), answered 2 "" { kind := "" }, .step 2] ++
    statements 2 2 ++ [.step 2, .step 2, .step 2]

/-- Where that run ends. -/
def oneRefused : Config store outside Job :=
  Config.ran (application demo) repeatedUpload (by decide +kernel)

/-- The second upload is told of the conflict. -/
theorem duplicates_of_oneRefused : Distinct oneRefused.world.history.db ∧
    (oneRefused.procs 2).any (fun proc => proc.life.answer? == some .conflict) = true ∧
    History.ofTid 2 oneRefused.world.history = [] := by
  have reachable : Config.Reachable (application demo) oneRefused := Config.reachable_ran _
  have told : (oneRefused.procs 2).any (fun proc => proc.job.deposit.isSome &&
      proc.life.answer? == some .conflict) = true := by decide +kernel
  obtain ⟨stored, refused⟩ := duplicates reachable (unforced_of_all reachable (by decide +kernel))
  obtain ⟨proc, found, both⟩ := (Option.any_eq_true _ _).mp told
  obtain ⟨isDeposit, answer⟩ := Bool.and_eq_true_iff.mp both
  obtain ⟨-, none⟩ := refused 2 proc found isDeposit (Life.answer?_eq_some.mp (beq_iff_eq.mp answer))
  refine ⟨stored.mpr (by decide +kernel) _ List.suffix_rfl, by decide +kernel, ?_⟩
  exact List.filter_eq_nil_iff.mpr fun c member => by simp [none c member]

/-- One user uploads the same image twice at once. -/
def twinUpload : List (Move outside Job) :=
  registering 0 "ann" "secret" ++ uploading 1 1 ["front", "front"]

/-- Where that run ends. -/
def oneTwin : Config store outside Job :=
  Config.ran (application demo) twinUpload (by decide +kernel)

/-- Both are stored. -/
theorem not_distinct_of_oneTwin : ¬ ∀ (setup : Setup) (config : Config store outside Job),
    Config.Reachable (application setup) config → Unforced config →
    Distinct config.world.history.db := by
  intro always
  have reachable : Config.Reachable (application demo) oneTwin := Config.reachable_ran _
  have distinct := always demo oneTwin reachable (unforced_of_all reachable (by decide +kernel))
  have twins : ((oneTwin.world.history.db .receiptImages).get 1).isSome = true ∧
      ((oneTwin.world.history.db .receiptImages).get 1).map
        (fun row => (row.userId, row.imageSha256)) =
      ((oneTwin.world.history.db .receiptImages).get 2).map
        fun row => (row.userId, row.imageSha256) := by decide +kernel
  obtain ⟨some, same⟩ := twins
  obtain ⟨row, first⟩ := Option.isSome_iff_exists.mp some
  rw [first, Option.map_some] at same
  obtain ⟨other, second, isOther⟩ := Option.map_eq_some_iff.mp same.symm
  obtain ⟨owner, hash⟩ := Prod.mk.inj isOther
  exact absurd (distinct 1 2 row other first second owner.symm hash.symm) (by decide)

end Demo

end ReceiptScanner

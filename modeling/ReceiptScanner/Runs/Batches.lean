import Mathlib.Data.Prod.Lex
import ReceiptScanner.ReadCommitted.Inserts
import ReceiptScanner.Runs.Labels
import ReceiptScanner.Runs.Verified
import ReceiptScanner.Sql.Order

/-!
# Batches of images

An upload and an addition store the images of their batch one by one, in the order of the
request, each stamped with the start of the transaction. A scan sends the images of its receipt
in the order of `created_at` and id.
-/

namespace ReceiptScanner

open ReadCommitted

variable {setup : Setup} {jobs : ℕ → Option Job} {tid : ℕ} {calls : List (Said outside)}
  {log : Log store outside} {world : World store outside}

/-- Each image is stored by an INSERT of its own, and stamped in `created_at`. -/
def storedImages : Serial store := ⟨.receiptImages, .storeImage, ReceiptImageRow.createdAt⟩

section Serial

variable {α : Type}

/-- A task that stores no image. -/
theorem sent_quiet {task : Task α}
    (within : Svc.Within (marks [.uploadReceipt, .addImages] fun _ => true) task) :
    Svc.Sent storedImages task := by
  apply Serial.sent_of_within within
  rintro write ⟨labelled, -⟩ same
  rw [same] at labelled
  exact absurd labelled (by decide)

namespace ReceiptService

theorem sent_storeImages (userId receiptId : ℕ) (prepared : List PreparedImage) :
    Svc.Sent storedImages (storeImages userId receiptId prepared) := by
  apply Svc.sent_forM
  intro prep
  refine Svc.sent_bind (sent_quiet (Svc.within_call rfl)) fun random => ?_
  refine Svc.sent_bind (sent_quiet (Svc.within_call rfl)) fun _ => ?_
  refine Svc.sent_bind (Svc.sent_exec ?_) fun _ => sent_quiet (Svc.within_pure _)
  exact @Serial.draws_insert store storedImages _ fun _ => rfl

theorem sent_uploadReceipt (userId : ℕ) (batch : List String) (force : Bool) :
    Svc.Sent storedImages (uploadReceipt setup userId batch force) := by
  refine Svc.sent_bind (sent_quiet (within_ofExcept _)) fun _ => ?_
  refine Svc.sent_bind (sent_quiet (within_prepareImages (fun _ => rfl) _)) fun prepared => ?_
  apply Svc.sent_transaction
  apply Svc.sent_rollingBack
  refine Svc.sent_bind (sent_quiet (within_lockUserImages _)) fun _ => ?_
  refine Svc.sent_bind (sent_quiet (within_conflictUnlessForced _ _ _)) fun conflict => ?_
  cases conflict with
  | some conflict =>
      exact sent_quiet (Svc.within_bind Svc.within_rollback fun _ => Svc.within_pure _)
  | none =>
      refine Svc.sent_bind (sent_quiet (within_insert (by decide))) fun receiptId => ?_
      exact Svc.sent_bind (sent_storeImages _ _ _) fun _ => sent_quiet (Svc.within_pure _)

theorem sent_addImages (userId receiptId : ℕ) (batch : List String) (force : Bool) :
    Svc.Sent storedImages (addImages setup userId receiptId batch force) := by
  refine Svc.sent_bind (sent_quiet within_select) fun _ => ?_
  refine Svc.sent_bind (sent_quiet (within_firstRow _ _)) fun _ => ?_
  refine Svc.sent_bind (sent_quiet (within_prepareImages (fun _ => rfl) _)) fun prepared => ?_
  apply Svc.sent_transaction
  apply Svc.sent_rollingBack
  refine Svc.sent_bind (sent_quiet (within_lockUserImages _)) fun _ => ?_
  refine Svc.sent_bind (sent_quiet (within_read fun _ => rfl)) fun _ => ?_
  refine Svc.sent_bind (sent_quiet (within_ofExcept _)) fun _ => ?_
  refine Svc.sent_bind (sent_quiet (within_conflictUnlessForced _ _ _)) fun conflict => ?_
  cases conflict with
  | some conflict =>
      exact sent_quiet (Svc.within_bind Svc.within_rollback fun _ => Svc.within_pure _)
  | none =>
      refine Svc.sent_bind (sent_storeImages _ _ _) fun _ => sent_quiet ?_
      exact Svc.within_bind (within_update (by decide)) fun _ => Svc.within_pure _

end ReceiptService

/-- Every job stores images one by one. -/
theorem sent_prog (setup : Setup) (job : Job) : storedImages.Sent (Job.prog setup job) := by
  by_cases stores : Label.storeImage ∈ job.labels
  · have served : ∀ {α : Type} {tell : α → Answer} {task : Task α}, Svc.Sent storedImages task →
        storedImages.Sent (Job.serve tell task) := fun sent =>
      Serial.sent_bind sent fun result => match result with
        | .ok _ => trivial
        | .error _ => trivial
    cases job with
    | uploadReceipt userId batch force => exact served (ReceiptService.sent_uploadReceipt _ _ _)
    | addImages userId receiptId batch force =>
        exact served (ReceiptService.sent_addImages _ _ _ _)
    | _ => simp [Job.labels] at stores
  · apply Serial.sent_of_within (within_prog setup job)
    rintro write ⟨labelled, -⟩ same
    rw [same] at labelled
    exact stores labelled

end Serial

section Sends

/-- The images of a receipt. -/
def imagesOf (db : Db store) (id : ℕ) : List (ℕ × ReceiptImageRow) :=
  (db .receiptImages).list.filter fun (_, row) => row.receiptId == id

/-- ORDER BY created_at -/
def listOrder (image : ℕ × ReceiptImageRow) : ℕ := image.2.createdAt

/-- ORDER BY created_at, id -/
def workerOrder (image : ℕ × ReceiptImageRow) : ℕ ×ₗ ℕ := toLex (image.2.createdAt, image.1)

theorem mem_imagesOf {db : Db store} {id : ℕ} {image : ℕ × ReceiptImageRow} :
    image ∈ imagesOf db id ↔
      (db .receiptImages).get image.1 = some image.2 ∧ image.2.receiptId = id := by
  obtain ⟨imageId, row⟩ := image
  simp [imagesOf, List.mem_filter]

/-- The query of the worker lists the images in its order. -/
theorem permits_selectKeys (id : ℕ) (ctx : Ctx store) :
    ∃ listed, Sql.Permits workerOrder (imagesOf ctx.snap id) listed ∧
      (ScanWorker.selectKeys id ctx).result.map Prod.fst = listed.map Prod.fst := by
  refine ⟨_, Sql.permits_insertionSort workerOrder _, ?_⟩
  have sorted : (imagesOf ctx.snap id).insertionSort
      (fun left right => left.2.createdAt ≤ right.2.createdAt) =
      (imagesOf ctx.snap id).insertionSort
        fun left right => workerOrder left ≤ workerOrder right := by
    apply Sql.insertionSort_congr
    apply ((ctx.snap .receiptImages).sorted_list.filter _).imp
    intro left right before
    simp only [workerOrder, Prod.Lex.toLex_le_toLex]
    omega
  rw [← sorted]
  simp [ScanWorker.selectKeys, Stmt.query, imagesOf]

/-- These are the images of a receipt as the worker listed them, and there are some. -/
def Listed (h : History store outside) (id : ℕ) (sent : List ℕ) : Prop :=
  sent ≠ [] ∧ ∃ (seen : History store outside) (listed : List (ℕ × ReceiptImageRow)),
    seen <:+ h ∧ Sql.Permits workerOrder (imagesOf seen.db id) listed ∧ sent = listed.map Prod.fst

/-- Every scan is of a claim, and sends the images of its receipt in the order of the worker. -/
def sends (jobs : ℕ → Option Job) : Guarantee store outside where
  commits _ _ := True
  calls tid _ c h := match c with
    | .scanReceipt images _ => ∃ claim, jobs tid = some (.process claim) ∧
        Listed h claim.receiptId (images.map SentImage.row)
    | _ => True

theorem free_sends {c : Call} (other : ∀ images context, c ≠ .scanReceipt images context) :
    (sends jobs).Free c := by
  intro _ _ _
  cases c with
  | scanReceipt images context => exact absurd rfl (other images context)
  | _ => trivial

/-- Everything but a scan. -/
def unscanned : Call → Bool
  | .scanReceipt _ _ => false
  | _ => true

theorem free_unscanned {c : Call} (other : unscanned c = true) : (sends jobs).Free c := by
  apply free_sends
  rintro images context rfl
  exact Bool.false_ne_true other

namespace ScanWorker

/-- A scan sends the images as it listed them. -/
theorem wp_scan {claim : Claim} (assigned : jobs tid = some (.process claim)) :
    Safe ⟨setup, sends jobs, fun _ => True⟩ (scan setup claim) (fun _ _ _ => True)
      (fun _ _ _ => True) (idle tid calls) world := by
  refine Svc.wp_bind (safe_readSnapshot (fun _ _ found _ _ _ => ?_) fun _ _ _ => trivial)
  cases found with
  | none => exact Svc.wp_pure trivial
  | some snapshot =>
      refine Svc.wp_bind (safe_read (fun _ => rfl) (fun start entry ctx between ran _ during => ?_)
        fun _ _ _ => trivial)
      obtain ⟨listed, permits, same⟩ := permits_selectKeys claim.receiptId ctx
      rw [show ctx.snap = entry.snap.db from ran.snap] at permits
      split
      · exact Svc.wp_pure trivial
      · rename_i nonempty
        refine Svc.wp_bind (Svc.wp_mono (safe_fetchImages
          (fun _ later => entry.snap <:+ later.history) (fun key => free_sends (by simp))
          (fun _ _ _ _ _ past foreign => past.trans foreign.suffix) _ during.suffix) ?_
          fun _ _ _ _ => trivial)
        rintro images _ fetched ⟨⟨made, rfl, past⟩, rows⟩
        refine Svc.wp_bind (safe_loadTaxonomy (fun taxonomy later foreign => ?_)
          fun _ _ _ => trivial)
        refine Svc.wp_bind (Svc.wp_call (fun history toHistory => ?_) fun answered reply _ => ?_)
        · refine ⟨claim, assigned, ?_, entry.snap, listed,
            (past.trans foreign.suffix).trans toHistory.suffix, permits, rows.trans same⟩
          rw [rows]
          intro empty
          simp [List.map_eq_nil_iff.mp empty] at nonempty
        · cases reply with
          | error exception => trivial
          | ok raw =>
              refine safe_ofExcept_bind (fun result _ => ?_) fun _ _ => trivial
              have rest : Svc.Within (marks scanLabels unscanned)
                  (applyResult setup claim result >>= fun _ => pure false) :=
                Svc.within_bind (within_applyResult _ _) fun _ => Svc.within_pure _
              exact Prog.wp_mono (fun result _ _ _ => by cases result <;> trivial)
                (Prog.wp_of_silent rest (fun _ _ => trivial) fun _ => free_unscanned)

end ScanWorker

/-- Every job sends images as its claim listed them. -/
theorem keeps_sends (setup : Setup) (jobs : ℕ → Option Job) :
    Keeps (application setup) (sends jobs) (Terms.free jobs) := by
  apply Keeps.of_free
  intro job tid world assigned
  by_cases scans : ∃ claim, job = .process claim
  · obtain ⟨claim, rfl⟩ := scans
    refine Prog.wp_bind.mpr (Prog.wp_bind.mpr (Prog.wp_mono (fun outcome _ _ _ => ?_)
      (ScanWorker.wp_scan assigned)))
    refine Prog.wp_bind.mpr (Prog.wp_mono (fun _ _ _ _ => trivial)
      (Prog.wp_of_silent (ScanWorker.within_settle claim outcome ?_) (fun _ _ => trivial)
        fun _ => free_unscanned))
    exact fun _ _ _ _ => rfl
  · apply Prog.wp_of_silent (within_asks setup job) (fun _ _ => trivial)
    intro c asks
    apply free_sends
    rintro images context rfl
    cases job with
    | process claim => exact scans ⟨claim, rfl⟩
    | _ => exact Bool.false_ne_true asks

end Sends

end ReceiptScanner

import ReceiptScanner.ReadCommitted.System
import ReceiptScanner.Services.AuthService
import ReceiptScanner.Services.ReferenceDataService
import ReceiptScanner.Services.ScanWorker

/-!
# The running application

Any user may call any operation at any time, and any number of workers may poll;
a poll leaves one process for each receipt it claimed. A run interleaves them
statement by statement and may stop any of them at any point.
-/

namespace ReceiptScanner

open ReadCommitted

/-- The operations. The last two cannot be called from outside: a poll starts `process`,
which calls `applyResult`. -/
inductive Job where
  | registerUser (email password : String)
  | login (email password : String)
  | validateSession (rawToken : String)
  | logout (rawToken : String)
  | requestPasswordReset (email : String)
  | confirmPasswordReset (rawToken newPassword : String)
  | requestEmailVerification (userId : ℕ)
  | confirmEmailVerification (rawToken : String)
  | listCategories (userId : ℕ)
  | createCategory (userId : ℕ) (body : Json)
  | updateCategory (userId id : ℕ) (body : Json)
  | removeCategory (userId id : ℕ)
  | listTags (userId : ℕ)
  | createTag (userId : ℕ) (body : Json)
  | updateTag (userId id : ℕ) (body : Json)
  | removeTag (userId id : ℕ)
  | listPaymentMethods (userId : ℕ)
  | createPaymentMethod (userId : ℕ) (body : Json)
  | updatePaymentMethod (userId id : ℕ) (body : Json)
  | removePaymentMethod (userId id : ℕ)
  | uploadReceipt (userId : ℕ) (images : List String) (force : Bool)
  | addImages (userId receiptId : ℕ) (images : List String) (force : Bool)
  | createManual (userId : ℕ) (body : Json)
  | updateReceipt (userId receiptId : ℕ) (body : Json)
  | retryScan (userId receiptId : ℕ)
  | getReceipt (userId receiptId : ℕ)
  | listReceipts (userId : ℕ) (limit offset : ℤ)
  | listImages (userId receiptId : ℕ)
  | deleteReceipt (userId receiptId : ℕ)
  | findImage (imageId : ℕ)
  | listItems (userId receiptId : ℕ)
  | createItem (userId receiptId : ℕ) (body : Json)
  | updateItem (userId receiptId itemId : ℕ) (body : Json)
  | removeItem (userId receiptId itemId : ℕ)
  | tick
  | process (claim : Claim)
  | applyResult (claim : Claim) (result : ScanResult)

namespace Job

/-- Run a task for a caller, who is told of its result. -/
def serve {α : Type} (tell : α → Answer) (task : Task α) : Routine (Ending outside Job) :=
  task.run.bind fun
    | .ok value => pure (tell value, [])
    | .error raised => pure (.raised raised, [])

/-- Run a task whose result is only data. -/
def respond {α : Type} (task : Task α) : Routine (Ending outside Job) :=
  serve (fun _ => .returned) task

/-- A result that may be an image conflict. -/
def orConflict {α : Type} : α ⊕ ImageConflict → Answer
  | .inl _ => .returned
  | .inr _ => .conflict

variable (setup : Setup)

/-- The program of a job, and the jobs it leaves. -/
def prog : Job → Routine (Ending outside Job)
  | .registerUser email password => respond (AuthService.registerUser email password)
  | .login email password => respond (AuthService.login setup email password)
  | .validateSession rawToken =>
      serve (fun user => .told user.isSome) (AuthService.validateSession setup rawToken)
  | .logout rawToken => respond (AuthService.logout setup rawToken)
  | .requestPasswordReset email => respond (AuthService.requestPasswordReset setup email)
  | .confirmPasswordReset rawToken newPassword =>
      serve .told (AuthService.confirmPasswordReset setup rawToken newPassword)
  | .requestEmailVerification userId =>
      respond (AuthService.requestEmailVerification setup userId)
  | .confirmEmailVerification rawToken =>
      serve .told (AuthService.confirmEmailVerification setup rawToken)
  | .listCategories userId => respond (CategoryService.list setup userId)
  | .createCategory userId body => respond (CategoryService.create userId body)
  | .updateCategory userId id body => respond (CategoryService.update userId id body)
  | .removeCategory userId id => respond (CategoryService.remove setup userId id)
  | .listTags userId => respond (TagService.list setup userId)
  | .createTag userId body => respond (TagService.create userId body)
  | .updateTag userId id body => respond (TagService.update userId id body)
  | .removeTag userId id => respond (TagService.remove setup userId id)
  | .listPaymentMethods userId => respond (PaymentMethodService.list setup userId)
  | .createPaymentMethod userId body => respond (PaymentMethodService.create userId body)
  | .updatePaymentMethod userId id body => respond (PaymentMethodService.update userId id body)
  | .removePaymentMethod userId id => respond (PaymentMethodService.remove setup userId id)
  | .uploadReceipt userId images force =>
      serve orConflict (ReceiptService.uploadReceipt setup userId images force)
  | .addImages userId receiptId images force =>
      serve orConflict (ReceiptService.addImages setup userId receiptId images force)
  | .createManual userId body => respond (ReceiptService.createManual setup userId body)
  | .updateReceipt userId receiptId body =>
      respond (ReceiptService.updateReceipt setup userId receiptId body)
  | .retryScan userId receiptId => respond (ReceiptService.retryScan userId receiptId)
  | .getReceipt userId receiptId => respond (ReceiptService.getReceipt userId receiptId)
  | .listReceipts userId limit offset =>
      respond (ReceiptService.listReceipts userId limit offset)
  | .listImages userId receiptId => respond (ReceiptService.listImages userId receiptId)
  | .deleteReceipt userId receiptId =>
      serve .told (ReceiptService.deleteReceipt setup userId receiptId)
  | .findImage imageId => respond (ReceiptService.findImage imageId)
  | .listItems userId receiptId => respond (ItemService.list userId receiptId)
  | .createItem userId receiptId body => respond (ItemService.create setup userId receiptId body)
  | .updateItem userId receiptId itemId body =>
      respond (ItemService.update setup userId receiptId itemId body)
  | .removeItem userId receiptId itemId =>
      respond (ItemService.remove setup userId receiptId itemId)
  | .tick => (ScanWorker.tick setup).bind fun claims => pure (.returned, claims.map .process)
  | .process claim => (ScanWorker.process setup claim).bind fun _ => pure (.returned, [])
  | .applyResult claim result => respond (ScanWorker.applyResult setup claim result)

/-- Jobs that anyone may start. -/
def root : Job → Bool
  | .process _ => false
  | .applyResult _ _ => false
  | _ => true

end Job

/-- The application under a setup. -/
@[reducible] def application (setup : Setup) : System store outside where
  schema := schema setup.lower
  Job := Job
  root := Job.root
  prog := Job.prog setup
  env := fun _ => none

end ReceiptScanner

import ReceiptScanner.ReadCommitted.Program
import ReceiptScanner.Receipts.JsonInput
import ReceiptScanner.Store.Tables

/-!
# Tasks

A `Task` is what the source writes as a coroutine: it sends statements, calls
the services outside the database, and may throw. Everything that is neither SQL
nor code of the repository is either a call, whose answer a run chooses, or a
field of `Setup`, which a deployment fixes.
-/

namespace ReceiptScanner

open ReadCommitted

/-- What a deployment fixes: the environment variables, and the deterministic
functions of the server and of the libraries. Instants are in microseconds. -/
structure Setup where
  maxImagesPerReceipt : ℤ
  sessionTouchIntervalSeconds : ℤ
  concurrency : ℤ
  maxScanAttempts : ℤ
  maxReclaims : ℤ
  reclaimAfterSeconds : ℤ
  matchDateDays : ℤ
  merchantMatchThreshold : ℚ
  /-- The server's `lower()`. -/
  lower : String → String
  /-- The server's collation: the first text sorts no later than the second. -/
  collate : String → String → Bool
  /-- `similarity()` of pg_trgm. -/
  similarity : String → String → ℚ
  /-- The SHA-256 digest, in hex. -/
  sha256Hex : String → String
  /-- `(now() AT TIME ZONE 'Australia/Sydney')::date`. -/
  sydneyDate : ℕ → Date
  /-- What the `::date` cast makes of a text that is not as the server prints a date, if it takes
  it: of dashes in a row it skips all but one, and it reads the numbers in the order of DateStyle. -/
  castUnprinted : String → Option Date

/-- An interval of whole seconds, in microseconds. -/
def seconds (n : ℤ) : ℤ := n * 1000000

/-- What the provider is told about the receipt and the user's taxonomy. -/
structure ScanContext where
  knownKind : Option Kind := none
  expenseCategories : List String := []
  incomeCategories : List String := []
  tags : List String := []
deriving DecidableEq

/-- An item the provider read. -/
structure ScannedItem where
  name : Option String := none
  quantity : Option ℚ := none
  unitPriceCents : Option ℤ := none
  amountCents : ℤ := 0
  category : Option String := none
  informational : Bool := false
  tags : List String := []
deriving DecidableEq

/-- What the provider read. `raw` is the text of its raw response. -/
structure ScanResult where
  kind : String
  currency : String := "AUD"
  totalCents : ℤ := 0
  merchant : Option String := none
  storeNameRaw : Option String := none
  purchaseDate : Option String := none
  items : List ScannedItem := []
  raw : String := ""
deriving DecidableEq

/-- The bytes of one image sent to the provider. `row` is the `receipt_images`
row whose key they were read under; the provider does not see it. -/
structure SentImage where
  row : ℕ
  bytes : String
deriving DecidableEq

/-- The calls out of the database. -/
inductive Call where
  | generateToken
  | hashPassword (password : String)
  | verifyPassword (password hash : String)
  | normalize (bytes : String)
  | putImage (key contentType bytes : String)
  | getImage (key : String)
  | removeImage (key : String)
  | scanReceipt (images : List SentImage) (context : ScanContext)
  | notify (userId : ℕ) (event : String) (receiptId : ℕ) (reason : String)
deriving DecidableEq

/-- The answers. -/
@[reducible] def Call.Reply : Call → Type
  | .generateToken => String
  | .hashPassword _ => Except Err String
  | .verifyPassword _ _ => Bool
  | .normalize _ => Except Err String
  | .putImage _ _ _ => Except Err Unit
  | .getImage _ => Except Err String
  | .removeImage _ => Except Err Unit
  | .scanReceipt _ _ => Except Err ScanResult
  | .notify _ _ _ _ => Except String Unit

/-- The objects in the image store, by key. -/
abbrev Objects := String → Option String

/-- What a call does to the image store. One that fails does nothing. -/
def perform : (call : Call) → call.Reply → Objects → Objects
  | .putImage key _ bytes, .ok _, objects => Function.update objects key (some bytes)
  | .removeImage key, .ok _, objects => Function.update objects key none
  | _, _, objects => objects

/-- What an operation tells its caller, without the data of a response. -/
inductive Answer where
  | raised (exception : Err)
  | returned
  | told (yes : Bool)
  | conflict
deriving DecidableEq

/-- The services outside, the image store among them. -/
abbrev outside : Interface where
  Call := Call
  Reply := Call.Reply
  Env := Objects
  perform := perform
  Answer := Answer

/-- A coroutine of the repository. -/
abbrev Task (α : Type) := Svc store outside Err α

/-- The program of a task that nobody awaits the outcome of. -/
abbrev Routine (α : Type) := Prog store outside α

/-- A client handle: the plain client, or an open transaction. -/
inductive Client where
  | db
  | transaction
deriving DecidableEq

/-- `client->execSqlCoro(...)`. -/
def execSql {β : Type} (client : Client) (stmt : Stmt store β) : Task β :=
  Svc.exec Err.sql (client = .transaction) stmt

/-- `auto transaction = newTransactionCoro(); ...` to the end of the scope. -/
def withTransaction {α : Type} (body : Task α) : Task α := Svc.transaction Err.sql body

/-- `transaction->rollback()`. -/
def rollback : Task Unit := Svc.rollback

/-- `try { ... } catch (...) { transaction->rollback(); throw; }`. -/
def rollingBack {α : Type} (body : Task α) : Task α := Svc.rollingBack body

/-- `try { body } catch (const std::exception &e) { handler }`. -/
def catchStd {α : Type} (body : Task α) (handler : Err → Task α) : Task α :=
  tryCatch body fun raised => if raised = .nonStd then throw raised else handler raised

/-- A plain function that throws. -/
def ofExcept {α : Type} (result : Except Err α) : Task α := ExceptT.mk (pure result)

/-- `result[0]`, where an empty result throws. -/
def firstRow {α : Type} (missing : Err) : List α → Task α
  | [] => throw missing
  | row :: _ => pure row

/-- Random hex. -/
def generateToken : Task String := Svc.call .generateToken fun token => .ok token

/-- `PasswordHasher::hash`. -/
def hashPassword (password : String) : Task String := Svc.call (.hashPassword password) id

/-- `PasswordHasher::verify`. -/
def verifyPassword (password hash : String) : Task Bool :=
  Svc.call (.verifyPassword password hash) fun same => .ok same

/-- `ImageNormalizer::normalize`. -/
def normalize (bytes : String) : Task String := Svc.call (.normalize bytes) id

/-- `ImageStore::put`. -/
def putImage (key contentType bytes : String) : Task Unit :=
  Svc.call (.putImage key contentType bytes) id

/-- `ImageStore::get`. -/
def getImage (key : String) : Task String := Svc.call (.getImage key) id

/-- `ImageStore::remove`. -/
def removeImage (key : String) : Task Unit := Svc.call (.removeImage key) id

/-- `ScanProvider::scanReceipt`. -/
def scanReceipt (images : List SentImage) (context : ScanContext) : Task ScanResult :=
  Svc.call (.scanReceipt images context) id

/-- `Notifier::notify`. Delivery failures are the implementation's to swallow; what it
may still throw is a `std::exception` with this text. -/
def notify (userId : ℕ) (event : String) (receiptId : ℕ) (reason : String) : Task Unit :=
  Svc.call (.notify userId event receiptId reason) fun reply => reply.mapError Err.runtime

/-- The `::date` cast of a statement's parameter. `JsonInput.date` has let the text through,
perhaps with dashes in the place of digits, or of the year 0. -/
def castDate (setup : Setup) (text : String) : Except Err Date :=
  if printed : printsDate text = true then .ok ⟨text, printed⟩
  else match setup.castUnprinted text with
    | some day => .ok day
    | none => .error (.sql .other)

/-- The cast of a parameter that may be NULL. -/
def castDate? (setup : Setup) (text : Option String) : Except Err (Option Date) :=
  match text with
  | none => .ok none
  | some text => some <$> castDate setup text

/-- A date that is read and sent back is the same. -/
theorem castDate?_val (setup : Setup) (day : Option Date) :
    castDate? setup (day.map Subtype.val) = .ok day := by
  cases day with
  | none => rfl
  | some day =>
      simp only [castDate?, castDate, Option.map_some, day.property, dif_pos]
      rfl

end ReceiptScanner

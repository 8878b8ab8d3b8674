import ReceiptScanner.Runs.Scan

/-!
# The application keeps its promise

Every job is verified, so every commit of every run, from the first, promises what
`promise` says, every notification is owed, and every poll and scan that ends has
notified of all its failures.
-/

namespace ReceiptScanner

open ReadCommitted

variable {setup : Setup} {jobs : ℕ → Option Job} {tid : ℕ} {world : World store outside}

/-- A job that runs a task for a caller. -/
theorem wp_serve {regime : Regime} {α : Type} {tell : α → Answer} {task : Task α}
    {own : Local store outside} {ending : Post store outside (Ending outside Job)}
    (safe : Safe regime task (fun value => ending (tell value, []))
      (fun raised => ending (.raised raised, [])) own world) :
    (Job.serve tell task).wp regime.ok (schema regime.setup.lower) ending own world := by
  refine Prog.wp_bind.mpr (Prog.wp_mono (fun result own world => ?_) safe)
  cases result with
  | ok value => exact id
  | error raised => exact id

/-- A job without terms of its own. -/
theorem served {job : Job} {α : Type} {tell : α → Answer} {task : Task α}
    (free : ∀ answer calls (h : History store outside), Settled job answer tid calls h)
    (promises : Promises (ledger setup) task) :
    (Job.serve tell task).wp (promise setup) (schema setup.lower)
      (Proc.post (terms jobs) job) { tid := tid } world := by
  have ends : ∀ answer own (later : World store outside), (∃ calls, own = idle tid calls) →
      Proc.post (terms jobs) job (answer, []) own later := by
    rintro answer _ later ⟨calls, rfl⟩
    exact ⟨fun other member => absurd member List.not_mem_nil, free answer calls later.history⟩
  refine wp_serve (Svc.wp_mono (promises tid [] world trivial) ?_ ?_)
  · exact fun value own later => ends (tell value) own later
  · exact fun raised own later => ends (.raised raised) own later

/-- Every job of the application keeps the promise and ends on its terms. -/
theorem keeps_promise (setup : Setup) (jobs : ℕ → Option Job) :
    Keeps (application setup) (promise setup) (terms jobs) where
  root job history isRoot := by cases job <;> trivial
  mono job history later past ready := by
    cases job with
    | process claim => exact Claimed.grow ready past
    | applyResult claim result => exact ready
    | _ => trivial
  lasting job answer tid calls history later foreign done := by
    cases job with
    | tick => exact done.trans (failures_foreign foreign).symm
    | process claim => exact done.trans (failures_foreign foreign).symm
    | _ => trivial
  safe job tid world _ ready _ unused := by
    have told : notified [] = failures world.history tid := by
      rw [failures, unused]
      rfl
    cases job with
    | registerUser email password =>
        exact served (fun _ _ _ => trivial) (AuthService.promises_registerUser email password)
    | login email password => exact served (fun _ _ _ => trivial) (AuthService.promises_login _ _)
    | validateSession rawToken =>
        exact served (fun _ _ _ => trivial) (AuthService.promises_validateSession _)
    | logout rawToken => exact served (fun _ _ _ => trivial) (AuthService.promises_logout _)
    | requestPasswordReset email =>
        exact served (fun _ _ _ => trivial) (AuthService.promises_requestPasswordReset _)
    | confirmPasswordReset rawToken newPassword =>
        exact served (fun _ _ _ => trivial) (AuthService.promises_confirmPasswordReset _ _)
    | requestEmailVerification userId =>
        exact served (fun _ _ _ => trivial) (AuthService.promises_requestEmailVerification _)
    | confirmEmailVerification rawToken =>
        exact served (fun _ _ _ => trivial) (AuthService.promises_confirmEmailVerification _)
    | listCategories userId =>
        exact served (fun _ _ _ => trivial) (CategoryService.promises_list _)
    | createCategory userId body =>
        exact served (fun _ _ _ => trivial) (CategoryService.promises_create _ _)
    | updateCategory userId id body =>
        exact served (fun _ _ _ => trivial) (CategoryService.promises_update _ _ _)
    | removeCategory userId id =>
        exact served (fun _ _ _ => trivial) (CategoryService.promises_remove _ _)
    | listTags userId => exact served (fun _ _ _ => trivial) (TagService.promises_list _)
    | createTag userId body => exact served (fun _ _ _ => trivial) (TagService.promises_create _ _)
    | updateTag userId id body =>
        exact served (fun _ _ _ => trivial) (TagService.promises_update _ _ _)
    | removeTag userId id => exact served (fun _ _ _ => trivial) (TagService.promises_remove _ _)
    | listPaymentMethods userId =>
        exact served (fun _ _ _ => trivial) (PaymentMethodService.promises_list _)
    | createPaymentMethod userId body =>
        exact served (fun _ _ _ => trivial) (PaymentMethodService.promises_create _ _)
    | updatePaymentMethod userId id body =>
        exact served (fun _ _ _ => trivial) (PaymentMethodService.promises_update _ _ _)
    | removePaymentMethod userId id =>
        exact served (fun _ _ _ => trivial) (PaymentMethodService.promises_remove _ _)
    | uploadReceipt userId images force =>
        exact served (fun _ _ _ => trivial) (ReceiptService.promises_uploadReceipt _ _ _)
    | addImages userId receiptId images force =>
        exact served (fun _ _ _ => trivial) (ReceiptService.promises_addImages _ _ _ _)
    | createManual userId body =>
        exact served (fun _ _ _ => trivial) (ReceiptService.promises_createManual _ _)
    | updateReceipt userId receiptId body =>
        exact served (fun _ _ _ => trivial) (ReceiptService.promises_updateReceipt _ _ _)
    | retryScan userId receiptId =>
        exact served (fun _ _ _ => trivial) (ReceiptService.promises_retryScan _ _)
    | getReceipt userId receiptId =>
        exact served (fun _ _ _ => trivial) (ReceiptService.promises_getReceipt _ _)
    | listReceipts userId limit offset =>
        exact served (fun _ _ _ => trivial) (ReceiptService.promises_listReceipts _ _ _)
    | listImages userId receiptId =>
        exact served (fun _ _ _ => trivial) (ReceiptService.promises_listImages _ _)
    | deleteReceipt userId receiptId =>
        exact served (fun _ _ _ => trivial) (ReceiptService.promises_deleteReceipt _ _)
    | findImage imageId => exact served (fun _ _ _ => trivial) (ReceiptService.promises_findImage _)
    | listItems userId receiptId =>
        exact served (fun _ _ _ => trivial) (ItemService.promises_list _ _)
    | createItem userId receiptId body =>
        exact served (fun _ _ _ => trivial) (ItemService.promises_create _ _ _)
    | updateItem userId receiptId itemId body =>
        exact served (fun _ _ _ => trivial) (ItemService.promises_update _ _ _ _)
    | removeItem userId receiptId itemId =>
        exact served (fun _ _ _ => trivial) (ItemService.promises_remove _ _ _)
    | tick =>
        refine Prog.wp_bind.mpr (Prog.wp_mono ?_ (ScanWorker.wp_tick told))
        rintro claims own later ⟨⟨calls, rfl, done⟩, claimed⟩
        refine ⟨fun job member => ?_, done⟩
        obtain ⟨claim, wasClaimed, rfl⟩ := List.mem_map.mp member
        exact claimed claim wasClaimed
    | process claim =>
        refine Prog.wp_bind.mpr (Prog.wp_mono ?_ (ScanWorker.wp_process told ready))
        rintro _ own later ⟨calls, rfl, done⟩
        exact ⟨fun job member => absurd member List.not_mem_nil, done⟩
    | applyResult claim result => exact ready.elim

section Commits

variable {c : Commit store outside} {h : History store outside} {table : Table} {id : ℕ}
  {row row' : Option table.Row} {label label' : Label}

/-- The write of a row is the only one. -/
theorem Promised.unique (promised : Promised setup h c) (other : table ≠ .itemTags)
    (first : ⟨table, id, row, label⟩ ∈ c.writes) (second : ⟨table, id, row', label'⟩ ∈ c.writes) :
    row = row' ∧ label = label' :=
  promised.singly.unique (List.mem_filter.mpr ⟨first, by simpa using other⟩)
    (List.mem_filter.mpr ⟨second, by simpa using other⟩)

/-- A written row is as its write left it. -/
theorem Promised.get (promised : Promised setup h c) (other : table ≠ .itemTags)
    (member : ⟨table, id, row, label⟩ ∈ c.writes) :
    ((History.db (c :: h)) table).get id = row := by
  rw [History.db_cons]
  rcases (History.db h).get_writes_cases c.writes table id with ⟨-, untouched⟩ | ⟨last, _, there, now⟩
  · exact absurd ⟨rfl, rfl⟩ (untouched _ member)
  · rw [now, (promised.unique other member there).1]

/-- What a commit makes of a row: it leaves it, or one promised write decides. -/
theorem Promised.row_cases (promised : Promised setup h c) (table : Table) (id : ℕ) :
    (((History.db (c :: h)) table).get id = ((History.db h) table).get id ∧
      ∀ write ∈ c.writes, ¬ write.Touches table id) ∨
    ∃ row label, ⟨table, id, row, label⟩ ∈ c.writes ∧
      ((History.db (c :: h)) table).get id = row ∧ Wrote setup h c ⟨table, id, row, label⟩ := by
  rw [History.db_cons]
  rcases (History.db h).get_writes_cases c.writes table id with left | ⟨row, label, member, now⟩
  · exact Or.inl left
  · exact Or.inr ⟨row, label, member, now, promised.wrote _ member⟩

end Commits

section Runs

variable {config : Config store outside Job} {c : Commit store outside}
  {earlier : History store outside}

/-- Every commit of every run promises what it writes. -/
theorem promised_of_reachable (reachable : Config.Reachable (application setup) config)
    (suffix : c :: earlier <:+ config.world.history) : Promised setup earlier c :=
  (keeps_promise setup config.jobs).sound reachable config.agrees_jobs suffix

/-- What holds at first and what every commit keeps holds in every reachable state. -/
theorem invariant_of_reachable {P : History store outside → Prop}
    (reachable : Config.Reachable (application setup) config) (nil : P [])
    (step : ∀ c earlier, c :: earlier <:+ config.world.history → Promised setup earlier c →
      P earlier → P (c :: earlier)) : ∀ h, h <:+ config.world.history → P h := by
  intro h past
  induction h with
  | nil => exact nil
  | cons c earlier ih =>
      exact step c earlier past (promised_of_reachable reachable past)
        (ih ((List.suffix_cons c earlier).trans past))

/-- Start times order the commits of every run. -/
theorem timely_of_reachable (reachable : Config.Reachable (application setup) config) :
    Timely config.world.history :=
  (keeps_promise setup config.jobs).timely reachable config.agrees_jobs

/-- Every committed database keeps its declared constraints. -/
theorem intact_of_reachable (reachable : Config.Reachable (application setup) config)
    (suffix : earlier <:+ config.world.history) : Intact (schema setup.lower) earlier.db :=
  (keeps_promise setup config.jobs).intact reachable config.agrees_jobs suffix

end Runs

section Demo

/-- A small deployment, for runs on fixed inputs. -/
def demo : Setup where
  maxImagesPerReceipt := 2
  sessionTouchIntervalSeconds := 3600
  concurrency := 2
  maxScanAttempts := 2
  maxReclaims := 2
  reclaimAfterSeconds := 600
  matchDateDays := 3
  merchantMatchThreshold := 1 / 2
  lower := id
  collate _ _ := true
  similarity left right := if left = right then 1 else 0
  sha256Hex := id
  sydneyDate _ := ⟨"2026-01-01", by decide⟩
  castUnprinted _ := none

/-- Services that do what they are asked, with this random text and this scan. -/
def plainly (random : String) (scanned : ScanResult) : (call : Call) → call.Reply
  | .generateToken => random
  | .hashPassword password => .ok password
  | .verifyPassword password hash => password == hash
  | .normalize bytes => .ok bytes
  | .putImage _ _ _ => .ok ()
  | .getImage key => .ok key
  | .removeImage _ => .ok ()
  | .scanReceipt _ _ => .ok scanned
  | .notify _ _ _ _ => .ok ()

/-- A call of process `tid` is answered. -/
def answered (tid : ℕ) (random : String) (scanned : ScanResult) : Move outside Job :=
  .reply tid (plainly random scanned)

/-- The next statements of process `tid`, each finished as soon as it has started. -/
def statements (tid count : ℕ) : List (Move outside Job) :=
  (List.replicate count [.start tid, .finish tid]).flatten

/-- Process `tid` registers a user, with 23 categories and a payment method. -/
def registering (tid : ℕ) (email password : String) : List (Move outside Job) :=
  [.spawn (.registerUser email password), .reply tid (plainly "" { kind := "" }), .step tid] ++
    statements tid 25 ++ [.step tid, .step tid]

/-- Process `tid` uploads a batch of images for a user, as a new receipt. -/
def uploading (tid userId : ℕ) (images : List String) : List (Move outside Job) :=
  [.spawn (.uploadReceipt userId images false)] ++
    images.map (fun _ => answered tid "" { kind := "" }) ++ [.step tid] ++
    statements tid (images.length + 2) ++
    images.zipIdx.flatMap (fun (_, index) =>
      [answered tid (toString index) { kind := "" }, answered tid "" { kind := "" }] ++
        statements tid 1) ++ [.step tid, .step tid]

/-- Process `tid` patches a receipt, naming no payment method, no offset target and
no kind of another side. -/
def patching (tid userId receiptId : ℕ) (body : Json) : List (Move outside Job) :=
  [.spawn (.updateReceipt userId receiptId body), .step tid] ++ statements tid 3 ++
    [.step tid, .step tid]

/-- Process `tid` makes a manual entry, which takes this many statements. -/
def entering (tid userId count : ℕ) (body : Json) : List (Move outside Job) :=
  [.spawn (.createManual userId body), .step tid] ++ statements tid count ++ [.step tid, .step tid]

/-- Process `tid` polls once. -/
def polling (tid : ℕ) : List (Move outside Job) :=
  [.spawn .tick] ++ statements tid 2 ++ [.step tid]

/-- Process `tid` scans its claim of an unreviewed receipt with this many images, and
writes a result without items. -/
def extracting (tid images : ℕ) (scanned : ScanResult) : List (Move outside Job) :=
  statements tid 2 ++ List.replicate images (answered tid "" scanned) ++ statements tid 2 ++
    [answered tid "" scanned] ++ statements tid 3 ++ [.step tid] ++ statements tid 3 ++
    [.step tid, .step tid]

/-- Process `tid` scans its claim of a reviewed receipt with one image, compares the
result, and begins to write it. -/
def comparing (tid : ℕ) (scanned : ScanResult) : List (Move outside Job) :=
  statements tid 2 ++ [answered tid "" scanned] ++ statements tid 2 ++ [answered tid "" scanned] ++
    statements tid 3 ++ [.step tid]

/-- One user uploads one image, and a worker scans it. -/
def oneScan : List (Move outside Job) :=
  registering 0 "ann" "secret" ++ uploading 1 1 ["image"] ++ polling 2 ++
    extracting 3 1 { kind := "purchase" }

/-- Where that run ends. -/
def oneScanned : Config store outside Job :=
  Config.ran (application demo) oneScan (by decide +kernel)

theorem reachable_oneScanned : Config.Reachable (application demo) oneScanned :=
  Config.reachable_ran _

end Demo

end ReceiptScanner

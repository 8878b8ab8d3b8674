import ReceiptScanner.Application
import ReceiptScanner.Tenancy.Owners
import ReceiptScanner.Tenancy.Services

/-!
# Tenants do not interfere

Whatever a user asks, one request after another, the replies are a function of that user's
rows: the rows of others, and whether there are any, make no difference, and stay as they
are. An id that is another user's is then the same to a user as one that does not exist.
-/

namespace ReceiptScanner

open ReadCommitted

/-- What a user may ask about receipts, items and reference data. -/
inductive Operation where
  | listCategories
  | createCategory (body : Json)
  | updateCategory (id : ℕ) (body : Json)
  | removeCategory (id : ℕ)
  | listTags
  | createTag (body : Json)
  | updateTag (id : ℕ) (body : Json)
  | removeTag (id : ℕ)
  | listPaymentMethods
  | createPaymentMethod (body : Json)
  | updatePaymentMethod (id : ℕ) (body : Json)
  | removePaymentMethod (id : ℕ)
  | uploadReceipt (images : List String) (force : Bool)
  | addImages (receiptId : ℕ) (images : List String) (force : Bool)
  | createManual (body : Json)
  | updateReceipt (receiptId : ℕ) (body : Json)
  | retryScan (receiptId : ℕ)
  | getReceipt (receiptId : ℕ)
  | listReceipts (limit offset : ℤ)
  | listImages (receiptId : ℕ)
  | deleteReceipt (receiptId : ℕ)
  | image (imageId : ℕ)
  | listItems (receiptId : ℕ)
  | createItem (receiptId : ℕ) (body : Json)
  | updateItem (receiptId itemId : ℕ) (body : Json)
  | removeItem (receiptId itemId : ℕ)

namespace Operation

/-- What the user is told when nothing is thrown. -/
@[reducible] def Reply : Operation → Type
  | .listCategories => List Category
  | .createCategory _ | .updateCategory _ _ => Category
  | .listTags => List Tag
  | .createTag _ | .updateTag _ _ => Tag
  | .listPaymentMethods => List PaymentMethod
  | .createPaymentMethod _ | .updatePaymentMethod _ _ => PaymentMethod
  | .removeCategory _ | .removeTag _ | .removePaymentMethod _ | .removeItem _ _ => Unit
  | .uploadReceipt _ _ => ℕ ⊕ ImageConflict
  | .addImages _ _ _ => Unit ⊕ ImageConflict
  | .createManual _ => ℕ
  | .updateReceipt _ _ | .retryScan _ => ReceiptSummary
  | .getReceipt _ => Option ReceiptSummary
  | .listReceipts _ _ => List ReceiptSummary
  | .listImages _ => List ImageRef
  | .deleteReceipt _ => Bool
  | .image _ => Option String
  | .listItems _ => List Item
  | .createItem _ _ | .updateItem _ _ _ => Item

variable (setup : Setup) (userId : ℕ)

/-- The operation, for this user. -/
def task : (operation : Operation) → Task operation.Reply
  | .listCategories => CategoryService.list setup userId
  | .createCategory body => CategoryService.create userId body
  | .updateCategory id body => CategoryService.update userId id body
  | .removeCategory id => CategoryService.remove setup userId id
  | .listTags => TagService.list setup userId
  | .createTag body => TagService.create userId body
  | .updateTag id body => TagService.update userId id body
  | .removeTag id => TagService.remove setup userId id
  | .listPaymentMethods => PaymentMethodService.list setup userId
  | .createPaymentMethod body => PaymentMethodService.create userId body
  | .updatePaymentMethod id body => PaymentMethodService.update userId id body
  | .removePaymentMethod id => PaymentMethodService.remove setup userId id
  | .uploadReceipt images force => ReceiptService.uploadReceipt setup userId images force
  | .addImages receiptId images force =>
      ReceiptService.addImages setup userId receiptId images force
  | .createManual body => ReceiptService.createManual setup userId body
  | .updateReceipt receiptId body => ReceiptService.updateReceipt setup userId receiptId body
  | .retryScan receiptId => ReceiptService.retryScan userId receiptId
  | .getReceipt receiptId => ReceiptService.getReceipt userId receiptId
  | .listReceipts limit offset => ReceiptService.listReceipts userId limit offset
  | .listImages receiptId => ReceiptService.listImages userId receiptId
  | .deleteReceipt receiptId => ReceiptService.deleteReceipt setup userId receiptId
  | .image imageId => ReceiptController.image userId imageId
  | .listItems receiptId => ItemService.list userId receiptId
  | .createItem receiptId body => ItemService.create setup userId receiptId body
  | .updateItem receiptId itemId body => ItemService.update setup userId receiptId itemId body
  | .removeItem receiptId itemId => ItemService.remove setup userId receiptId itemId

/-- What process `tid` comes to when it carries out the operation by itself. -/
def carry (script : Script outside) (tid : ℕ) (operation : Operation)
    (world : World store outside) :
    Option (Except Err operation.Reply × Solo store outside) :=
  (operation.task setup userId).run.alone (schema setup.lower) script ⟨{ tid := tid }, world⟩

/-- The job of an operation: that of an image reads its row, and the proxy then fetches it. -/
def job : Operation → Job
  | .listCategories => .listCategories userId
  | .createCategory body => .createCategory userId body
  | .updateCategory id body => .updateCategory userId id body
  | .removeCategory id => .removeCategory userId id
  | .listTags => .listTags userId
  | .createTag body => .createTag userId body
  | .updateTag id body => .updateTag userId id body
  | .removeTag id => .removeTag userId id
  | .listPaymentMethods => .listPaymentMethods userId
  | .createPaymentMethod body => .createPaymentMethod userId body
  | .updatePaymentMethod id body => .updatePaymentMethod userId id body
  | .removePaymentMethod id => .removePaymentMethod userId id
  | .uploadReceipt images force => .uploadReceipt userId images force
  | .addImages receiptId images force => .addImages userId receiptId images force
  | .createManual body => .createManual userId body
  | .updateReceipt receiptId body => .updateReceipt userId receiptId body
  | .retryScan receiptId => .retryScan userId receiptId
  | .getReceipt receiptId => .getReceipt userId receiptId
  | .listReceipts limit offset => .listReceipts userId limit offset
  | .listImages receiptId => .listImages userId receiptId
  | .deleteReceipt receiptId => .deleteReceipt userId receiptId
  | .image imageId => .findImage imageId
  | .listItems receiptId => .listItems userId receiptId
  | .createItem receiptId body => .createItem userId receiptId body
  | .updateItem receiptId itemId body => .updateItem userId receiptId itemId body
  | .removeItem receiptId itemId => .removeItem userId receiptId itemId

/-- What a user asks, what the services answer meanwhile, and how long the steps take. -/
structure Ask where
  operation : Operation
  script : Script outside

/-- The replies to requests that are served one after another, and what they leave. -/
def serve : ℕ → List Ask → World store outside →
    Option (List (Σ operation : Operation, Except Err operation.Reply) × World store outside)
  | _, [], world => some ([], world)
  | tid, ask :: rest, world =>
      (ask.operation.carry setup userId ask.script tid world).bind fun carried =>
        (serve (tid + 1) rest carried.2.world).map fun served =>
          (⟨ask.operation, carried.1⟩ :: served.1, served.2)

/-- The scheduler serves requests one after another, with these replies. -/
structure Runs (config : Config store outside Job) (asks : List Ask)
    (replies : List (Σ operation : Operation, Except Err operation.Reply))
    (next : Config store outside Job) : Prop where
  /-- What the calls return, and what they leave. -/
  told : serve setup userId config.tids asks config.world = some (replies, next.world)
  ran : ∃ moves, Config.run (application setup) moves config = some next
  serves : ∃ served, Config.Serves (application setup) config served next ∧
    served.map Prod.fst = asks.map fun ask => ask.operation.job userId
  closed : next.Closed

variable {setup : Setup} {userId : ℕ} {region : Region store} {base base' : Db store}
  {script : Script outside}

/-- A job that serves a task leaves what the task leaves. -/
theorem serve_of_alone {α : Type} {task : Task α} {tell : α → Answer} {result : Except Err α}
    {solo after : Solo store outside}
    (ran : task.run.alone (schema setup.lower) script solo = some (result, after)) :
    ∃ answer, (Job.serve tell task).alone (schema setup.lower) script solo =
      some ((answer, []), after) := by
  cases result with
  | ok value => exact ⟨tell value, Prog.alone_bind_of ran⟩
  | error raised => exact ⟨.raised raised, Prog.alone_bind_of ran⟩

/-- The proxy of an image leaves what the query for its row leaves. -/
theorem findImage_of_image {imageId : ℕ} {solo after : Solo store outside}
    {result : Except Err (Option String)}
    (ran : (ReceiptController.image userId imageId).run.alone (schema setup.lower) script solo =
      some (result, after)) :
    ∃ located middle, (ReceiptService.findImage imageId).run.alone (schema setup.lower) script
        solo = some (located, middle) ∧
      middle.world = after.world ∧ middle.own.txn = after.own.txn := by
  have split := (Prog.alone_bind _ _ solo).symm.trans ran
  obtain ⟨⟨located, middle⟩, first, rest⟩ := Option.bind_eq_some_iff.mp split
  refine ⟨located, middle, first, ?_⟩
  rcases located with raised | _ | location
  · obtain ⟨-, rfl⟩ := Prod.mk.inj (Option.some.inj rest)
    exact ⟨rfl, rfl⟩
  · obtain ⟨-, rfl⟩ := Prod.mk.inj (Option.some.inj rest)
    exact ⟨rfl, rfl⟩
  · replace rest : (if location.ownerUserId ≠ userId then pure none
        else some <$> getImage location.imageKey : Task (Option String)).run.alone
          (schema setup.lower) script middle = some (result, after) := rest
    split at rest
    · obtain ⟨-, rfl⟩ := Prod.mk.inj (Option.some.inj rest)
      exact ⟨rfl, rfl⟩
    · let reply := script.reply middle.own.calls (.getImage location.imageKey)
      have fetched : (getImage location.imageKey).run.alone (schema setup.lower) script middle =
          some (reply, ⟨middle.own.called ⟨.getImage location.imageKey, reply⟩, middle.world⟩) := rfl
      obtain ⟨-, rfl⟩ := Prod.mk.inj (Option.some.inj ((Svc.alone_map some fetched).symm.trans rest))
      exact ⟨rfl, rfl⟩

/-- What an operation comes to by itself, its job leaves too. -/
theorem job_of_carry {operation : Operation} {tid : ℕ} {world : World store outside}
    {result : Except Err operation.Reply} {after : Solo store outside}
    (carried : operation.carry setup userId script tid world = some (result, after)) :
    ∃ answer last, ((application setup).prog (operation.job userId)).alone (schema setup.lower)
        script ⟨{ tid := tid }, world⟩ = some ((answer, []), last) ∧
      last.world = after.world ∧ last.own.txn = after.own.txn := by
  cases operation with
  | image imageId =>
      obtain ⟨located, middle, ran, same⟩ := findImage_of_image carried
      obtain ⟨answer, served⟩ := serve_of_alone ran
      exact ⟨answer, middle, served, same⟩
  | _ =>
      obtain ⟨answer, served⟩ := serve_of_alone carried
      exact ⟨answer, after, served, rfl, rfl⟩

/-- What an operation comes to by itself, the scheduler brings about by running its job while
no transaction is open. -/
theorem carry_runs {config : Config store outside Job} {operation : Operation}
    {result : Except Err operation.Reply} {after : Solo store outside} (closed : config.Closed)
    (carried : operation.carry setup userId script config.tids config.world =
      some (result, after)) (ends : after.own.txn = none) :
    ∃ answer next, Config.Runs (application setup) config (operation.job userId) answer next ∧
      next.world = after.world := by
  obtain ⟨answer, last, ran, isWorld, isTxn⟩ := job_of_carry carried
  have root : (application setup).root (operation.job userId) = true := by
    cases operation <;> rfl
  obtain ⟨next, runs, leaves⟩ := Config.runs_of_alone root closed ran (isTxn.trans ends)
  exact ⟨answer, next, runs, leaves.trans isWorld⟩

/-- The first request, and then the others. -/
theorem Runs.next {config middle last : Config store outside Job} {ask : Ask} {rest : List Ask}
    {result : Except Err ask.operation.Reply} {after : Solo store outside} {answer : Answer}
    {replies : List (Σ operation : Operation, Except Err operation.Reply)}
    (carried : ask.operation.carry setup userId ask.script config.tids config.world =
      some (result, after))
    (first : Config.Runs (application setup) config (ask.operation.job userId) answer middle)
    (isWorld : middle.world = after.world) (runs : Runs setup userId middle rest replies last) :
    Runs setup userId config (ask :: rest) (⟨ask.operation, result⟩ :: replies) last := by
  obtain ⟨served, serves, jobs⟩ := runs.serves
  have serves := Config.Serves.next first serves
  refine ⟨?_, serves.run, ⟨_, serves, ?_⟩, runs.closed⟩
  · have later := runs.told
    rw [first.tids, isWorld] at later
    simp only [serve, carried, later, Option.bind_some, Option.map_some]
  · rw [List.map_cons, List.map_cons, jobs]

/-- Every operation keeps to the estate of its user. -/
theorem keeping_task (holds : HoldsOnly region userId) (operation : Operation) :
    Keeping setup region base base' script .db (operation.task setup userId)
      fun _ => True := by
  cases operation with
  | listCategories => exact CategoryService.keeping_list holds
  | createCategory body => exact CategoryService.keeping_create holds body
  | updateCategory id body => exact CategoryService.keeping_update holds id body
  | removeCategory id => exact CategoryService.keeping_remove holds id
  | listTags => exact TagService.keeping_list holds
  | createTag body => exact TagService.keeping_create holds body
  | updateTag id body => exact TagService.keeping_update holds id body
  | removeTag id => exact TagService.keeping_remove holds id
  | listPaymentMethods => exact PaymentMethodService.keeping_list holds
  | createPaymentMethod body => exact PaymentMethodService.keeping_create holds body
  | updatePaymentMethod id body => exact PaymentMethodService.keeping_update holds id body
  | removePaymentMethod id => exact PaymentMethodService.keeping_remove holds id
  | uploadReceipt images force => exact ReceiptService.keeping_uploadReceipt holds images force
  | addImages receiptId images force =>
      exact ReceiptService.keeping_addImages holds receiptId images force
  | createManual body => exact ReceiptService.keeping_createManual holds body
  | updateReceipt receiptId body => exact ReceiptService.keeping_updateReceipt holds receiptId body
  | retryScan receiptId => exact ReceiptService.keeping_retryScan holds receiptId
  | getReceipt receiptId => exact ReceiptService.keeping_getReceipt holds receiptId
  | listReceipts limit offset => exact ReceiptService.keeping_listReceipts holds limit offset
  | listImages receiptId => exact ReceiptService.keeping_listImages holds receiptId
  | deleteReceipt receiptId => exact ReceiptService.keeping_deleteReceipt holds receiptId
  | image imageId => exact ReceiptController.keeping_image holds imageId
  | listItems receiptId => exact ItemService.keeping_list holds receiptId
  | createItem receiptId body => exact ItemService.keeping_create holds receiptId body
  | updateItem receiptId itemId body => exact ItemService.keeping_update holds receiptId itemId body
  | removeItem receiptId itemId => exact ItemService.keeping_remove holds receiptId itemId

/-- Between two requests the states differ outside the region only. -/
abbrev Worlds (setup : Setup) (region : Region store) (base base' : Db store)
    (world world' : World store outside) : Prop :=
  ∀ tid tid' : ℕ, ReadCommitted.Idle (estate setup region) base base' ⟨{ tid := tid }, world⟩
    ⟨{ tid := tid' }, world'⟩

/-- One request is answered alike, and leaves the states as close. -/
theorem carry_alike {world world' : World store outside} (script : Script outside)
    (holds : HoldsOnly region userId) (operation : Operation) (tid tid' : ℕ)
    (worlds : Worlds setup region base base' world world') :
    ∃ result after after',
      operation.carry setup userId script tid world = some (result, after) ∧
      operation.carry setup userId script tid' world' = some (result, after') ∧
      Worlds setup region base base' after.world after'.world ∧
      after.own.txn = none ∧ after'.own.txn = none := by
  have keeping : Keeping setup region base base' script .db (operation.task setup userId)
      fun _ => True := keeping_task holds operation
  obtain ⟨result, after, after', ran, ran', returned, thrown⟩ := keeping _ _ (worlds tid tid')
  have idle : ReadCommitted.Idle (estate setup region) base base' after after' := by
    cases result with
    | ok value => exact (returned value rfl).2
    | error exception => exact thrown exception rfl
  exact ⟨result, after, after', ran, ran', fun _ _ =>
    { idle with calls := rfl, leftIdle := rfl, rightIdle := rfl }, idle.leftIdle, idle.rightIdle⟩

/-- So are any number of requests. -/
theorem runs_alike {config config' : Config store outside Job} (holds : HoldsOnly region userId)
    (asks : List Ask) (closed : config.Closed) (closed' : config'.Closed)
    (worlds : Worlds setup region base base' config.world config'.world) :
    ∃ replies next next', Runs setup userId config asks replies next ∧
      Runs setup userId config' asks replies next' ∧
      Worlds setup region base base' next.world next'.world := by
  induction asks generalizing config config' with
  | nil =>
      exact ⟨[], config, config',
        ⟨rfl, ⟨[], rfl⟩, ⟨[], @Config.Serves.none _ _ (application setup) config, rfl⟩, closed⟩,
        ⟨rfl, ⟨[], rfl⟩, ⟨[], @Config.Serves.none _ _ (application setup) config', rfl⟩, closed'⟩,
        worlds⟩
  | cons ask rest ih =>
      obtain ⟨result, after, after', carried, carried', between, ends, ends'⟩ :=
        carry_alike ask.script holds ask.operation config.tids config'.tids worlds
      obtain ⟨answer, middle, first, isWorld⟩ := carry_runs closed carried ends
      obtain ⟨answer', middle', first', isWorld'⟩ := carry_runs closed' carried' ends'
      obtain ⟨replies, next, next', runs, runs', last⟩ := ih first.closed first'.closed
        (isWorld ▸ isWorld' ▸ between)
      exact ⟨_, next, next', runs.next carried first isWorld, runs'.next carried' first' isWorld',
        last⟩

end Operation

section Runs

variable {setup : Setup} {config config' : Config store outside Job} {userId : ℕ}

/-- Two reachable states with the same rows of the user differ outside the estate only. -/
theorem worlds_of_reachable (reachable : Config.Reachable (application setup) config)
    (reachable' : Config.Reachable (application setup) config')
    (clock : config.world.clock = config'.world.clock)
    (next : config.world.next = config'.world.next)
    (same : SameFor userId config.world.history.db config'.world.history.db) :
    Operation.Worlds setup (estateOf userId config.world.history.db config.world.next)
      config.world.history.db config'.world.history.db config.world config'.world := by
  have inv := (keeps_promise setup config.jobs).inv reachable config.agrees_jobs
  have inv' := (keeps_promise setup config'.jobs).inv reachable' config'.agrees_jobs
  have fresh : ∀ table id, config.world.next table ≤ id →
      (config.world.history.db table).get id = none :=
    fun _ _ undrawn => inv.wellFormed.fresh undrawn
  have fresh' : ∀ table id, config.world.next table ≤ id →
      (config'.world.history.db table).get id = none :=
    fun _ _ undrawn => inv'.wellFormed.fresh (next ▸ undrawn)
  have walled' : Walled (schema setup.lower)
      (estateOf userId config.world.history.db config.world.next) config'.world.history.db := by
    rw [estateOf_congr same]
    exact walled_estateOf fresh' (owned_of_reachable reachable' List.suffix_rfl)
  exact fun _ _ => {
    calls := rfl
    clock := clock
    next := next
    fresh := fun table id grows beyond => Or.inr (Or.inr ⟨grows, beyond⟩)
    agree := same.agree fresh fresh'
    leftFenced := {
      intact := intact_of_reachable reachable List.suffix_rfl
      walled := walled_estateOf fresh (owned_of_reachable reachable List.suffix_rfl)
      spared := Agree.refl }
    rightFenced := {
      intact := intact_of_reachable reachable' List.suffix_rfl
      walled := walled'
      spared := Agree.refl }
    leftIdle := rfl
    rightIdle := rfl }

/-- What a user is told depends on that user's rows alone, and so do these afterwards; and
no row of anyone else changes. -/
theorem noninterference (reachable : Config.Reachable (application setup) config)
    (reachable' : Config.Reachable (application setup) config')
    (closed : config.Closed) (closed' : config'.Closed)
    (clock : config.world.clock = config'.world.clock)
    (next : config.world.next = config'.world.next)
    (same : SameFor userId config.world.history.db config'.world.history.db)
    (asks : List Operation.Ask) :
    ∃ replies last last',
      Operation.Runs setup userId config asks replies last ∧
      Operation.Runs setup userId config' asks replies last' ∧
      SameFor userId last.world.history.db last'.world.history.db ∧
      OthersUntouched userId config.world.history.db last.world.history.db ∧
      OthersUntouched userId config'.world.history.db last'.world.history.db := by
  have worlds := worlds_of_reachable reachable reachable' clock next same
  have holds : HoldsOnly (estateOf userId config.world.history.db config.world.next) userId :=
    holdsOnly_estateOf config.world.next
  obtain ⟨replies, last, last', runs, runs', still⟩ :=
    Operation.runs_alike holds asks closed closed' worlds
  have before := worlds 0 0
  have after := still 0 0
  exact ⟨replies, last, last', runs, runs',
    sameFor_of_agree holds after.agree after.leftFenced.walled after.rightFenced.walled,
    othersUntouched_of_spared holds after.leftFenced.spared before.leftFenced.walled
      after.leftFenced.walled,
    othersUntouched_of_spared holds after.rightFenced.spared before.rightFenced.walled
      after.rightFenced.walled⟩

/-- Process `tid` makes a tag for a user. -/
def tagging (tid userId : ℕ) (name : String) : List (Move outside Job) :=
  [.spawn (.createTag userId (.object [("name", .string name)]))] ++ statements tid 1 ++ [.step tid]

/-- One user has a tag, and then another user makes one under this name. -/
def besides (name : String) : List (Move outside Job) :=
  registering 0 "ann" "secret" ++ registering 1 "bob" "secret" ++ tagging 2 1 "own" ++
    tagging 3 2 name

@[irreducible] def besideRent : Config store outside Job :=
  Config.ran (application demo) (besides "rent") (by decide +kernel)

@[irreducible] def besideFood : Config store outside Job :=
  Config.ran (application demo) (besides "food") (by decide +kernel)

theorem reachable_besideRent : Config.Reachable (application demo) besideRent := by
  unfold besideRent
  exact Config.reachable_ran _

theorem reachable_besideFood : Config.Reachable (application demo) besideFood := by
  unfold besideFood
  exact Config.reachable_ran _

theorem next_besides : besideRent.world.next = besideFood.world.next := by
  have same : ∀ table ∈ (schema demo.lower).tables,
      besideRent.world.next table = besideFood.world.next table := by decide +kernel
  funext table
  exact same table ((schema demo.lower).complete table)

theorem sameFor_besides :
    SameFor 1 besideRent.world.history.db besideFood.world.history.db :=
  sameFor_of_below (by decide +kernel : ∀ table ∈ (schema demo.lower).tables, _)

theorem closed_besideRent : besideRent.Closed :=
  Config.closed_of_closes reachable_besideRent.numbered (by decide +kernel)

theorem closed_besideFood : besideFood.Closed :=
  Config.closed_of_closes reachable_besideFood.numbered (by decide +kernel)

/-- The first user tries to rename and to remove the other's tag, and lists the tags. -/
def prying : List Operation.Ask :=
  [⟨.updateTag 2 (.object [("name", .string "mine")]), fun _ => plainly "" { kind := "" },
      fun _ => 3⟩,
    ⟨.removeTag 2, fun _ => plainly "" { kind := "" }, fun clock => clock % 4⟩,
    ⟨.listTags, fun _ => plainly "" { kind := "" }, fun _ => 0⟩]

/-- The other user's tag has id 2 in both runs, and what the first asks about it is refused
in the same words, whatever its name. -/
theorem noninterference_of_besides :
    (besideRent.world.history.db .tags).get 2 ≠ (besideFood.world.history.db .tags).get 2 ∧
    ∃ replies last last',
      Operation.Runs demo 1 besideRent prying replies last ∧
      Operation.Runs demo 1 besideFood prying replies last' ∧
      SameFor 1 last.world.history.db last'.world.history.db ∧
      OthersUntouched 1 besideRent.world.history.db last.world.history.db ∧
      OthersUntouched 1 besideFood.world.history.db last'.world.history.db :=
  ⟨by decide +kernel, noninterference reachable_besideRent reachable_besideFood
    closed_besideRent closed_besideFood (by decide +kernel) next_besides sameFor_besides prying⟩

end Runs

end ReceiptScanner

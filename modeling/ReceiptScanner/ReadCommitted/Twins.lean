import ReceiptScanner.ReadCommitted.Alone
import ReceiptScanner.ReadCommitted.Regions

/-!
# Two runs of one task

`Svc.Twin` runs a task by itself on two states that agree on a walled region, and says
that both runs end, with the same result, in states that agree again; what is outside the
region stays as it was in each. It is enough that every statement of the task is `Confined`
to the region. What a task learns on the way about ids, it learns for good: the region
does not change while the task runs.
-/

namespace ReadCommitted

variable {σ : Signature} {X : Interface}

/-- A walled region, and the tables whose new rows belong to it. -/
structure Estate (σ : Signature) where
  schema : Schema σ
  region : Region σ
  grows : σ.Table → Prop

/-- What a confined statement can see in two runs. -/
structure Ctx.Beside (estate : Estate σ) (left right : Ctx σ) : Prop where
  agree : Agree estate.region left.snap right.snap
  leftSeen : left.cur = left.snap
  rightSeen : right.cur = right.snap
  leftIntact : Intact estate.schema left.snap
  rightIntact : Intact estate.schema right.snap
  leftWalled : Walled estate.schema estate.region left.snap
  rightWalled : Walled estate.schema estate.region right.snap
  now : left.now = right.now
  clock : left.clock = right.clock
  next : left.next = right.next
  fresh : ∀ table id, estate.grows table → left.next table ≤ id → estate.region table id

/-- What a confined statement does in two runs. -/
structure Outcome.Alike {β : Type} (estate : Estate σ) (ensures : β → Prop)
    (left right : Outcome σ β) : Prop where
  result : left.result = right.result
  writes : left.writes = right.writes
  ticks : left.ticks = right.ticks
  within : ∀ write ∈ left.writes, write.Within estate.schema estate.region
  ensured : ensures left.result

/-- A statement that reads and writes nothing outside the region, and what it tells. -/
def Stmt.Confined {β : Type} (estate : Estate σ) (stmt : Stmt σ β) (ensures : β → Prop) : Prop :=
  ∀ left right, Ctx.Beside estate left right →
    Outcome.Alike estate ensures (stmt left) (stmt right)

/-- One of the two databases: what it was at first outside the region it still is. -/
structure Fenced (estate : Estate σ) (base db : Db σ) : Prop where
  intact : Intact estate.schema db
  walled : Walled estate.schema estate.region db
  spared : Spared estate.region db base

/-- A statement that settles keeps the fence. -/
theorem Fenced.writes {β : Type} {estate : Estate σ} {base db : Db σ} {outcome : Outcome σ β}
    {locks : List (Lock σ)} (fenced : Fenced estate base db)
    (within : ∀ write ∈ outcome.writes, write.Within estate.schema estate.region)
    (settled : estate.schema.settle [] [] db outcome = .ok (some locks)) :
    Fenced estate base (db.writes outcome.writes) where
  intact := (Schema.settle_eq_some settled).intact fenced.intact
  walled := fenced.walled.writes within
  spared := (Spared.writes fun write member => (within write member).here).trans fenced.spared

section Pairs

variable (estate : Estate σ) (base base' : Db σ)

/-- Two states that differ outside the region only. -/
structure Beside (left right : Solo σ X) : Prop where
  calls : left.own.calls = right.own.calls
  clock : left.world.clock = right.world.clock
  next : left.world.next = right.world.next
  fresh : ∀ table id, estate.grows table → left.world.next table ≤ id → estate.region table id
  agree : Agree estate.region left.world.history.db right.world.history.db
  leftFenced : Fenced estate base left.world.history.db
  rightFenced : Fenced estate base' right.world.history.db

/-- No transaction is open. -/
structure Idle (left right : Solo σ X) : Prop extends Beside estate base base' left right where
  leftIdle : left.own.txn = none
  rightIdle : right.own.txn = none

/-- A transaction is open in both, and has written the same. -/
structure Opened (left right : Solo σ X) (txn txn' : Txn σ) : Prop extends
    Beside estate base base' left right where
  leftOpen : left.own.txn = some txn
  rightOpen : right.own.txn = some txn'
  leftLive : txn.aborted = false
  rightLive : txn'.aborted = false
  start : txn.start = txn'.start
  writes : txn.writes = txn'.writes
  leftView : Fenced estate base (left.own.view left.world.history)
  rightView : Fenced estate base' (right.own.view right.world.history)

/-- A transaction is open in both. -/
def Open (left right : Solo σ X) : Prop :=
  ∃ txn txn', Opened estate base base' left right txn txn'

/-- A transaction is open in both, and aborted. -/
structure Broken (left right : Solo σ X) : Prop extends Beside estate base base' left right where
  leftBroken : ∃ txn, left.own.txn = some txn ∧ txn.aborted = true
  rightBroken : ∃ txn, right.own.txn = some txn ∧ txn.aborted = true

/-- However the body of a transaction may have left it. -/
def Settling (left right : Solo σ X) : Prop :=
  Open estate base base' left right ∨ Broken estate base base' left right ∨
    Idle estate base base' left right

end Pairs

section Steps

variable {estate : Estate σ} {base base' : Db σ} {left right : Solo σ X} {β : Type}
  {stmt : Stmt σ β} {ensures : β → Prop}

/-- Where the clocks show the same, the same time passes. -/
theorem Beside.paused (beside : Beside estate base base' left right) (pause : Pause) :
    Beside estate base base' ⟨left.own, left.world.paused pause⟩
      ⟨right.own, right.world.paused pause⟩ :=
  { beside with clock := congrArg pause.instant beside.clock }

theorem Idle.ticked (idle : Idle estate base base' left right) :
    Idle estate base base' ⟨left.own, left.world.tick⟩ ⟨right.own, right.world.tick⟩ :=
  { idle with clock := congrArg (· + 1) idle.clock }

theorem Idle.paused (idle : Idle estate base base' left right) (pause : Pause) :
    Idle estate base base' ⟨left.own, left.world.paused pause⟩
      ⟨right.own, right.world.paused pause⟩ :=
  { idle with toBeside := idle.toBeside.paused pause }

theorem Open.paused (opened : Open estate base base' left right) (pause : Pause) :
    Open estate base base' ⟨left.own, left.world.paused pause⟩
      ⟨right.own, right.world.paused pause⟩ := by
  obtain ⟨txn, txn', opened⟩ := opened
  exact ⟨txn, txn', { opened with toBeside := opened.toBeside.paused pause }⟩

theorem Settling.paused (settling : Settling estate base base' left right) (pause : Pause) :
    Settling estate base base' ⟨left.own, left.world.paused pause⟩
      ⟨right.own, right.world.paused pause⟩ := by
  rcases settling with opened | broken | idle
  · exact Or.inl (opened.paused pause)
  · exact Or.inr (Or.inl { broken with toBeside := broken.toBeside.paused pause })
  · exact Or.inr (Or.inr (idle.paused pause))

/-- After a statement whose writes are committed, if it has any, the states are as close. -/
theorem Beside.pass {outcome outcome' : Outcome σ β} {history history' : History σ X}
    (beside : Beside estate base base' left right)
    (alike : Outcome.Alike estate ensures outcome outcome')
    (own own' : Local σ X) (calls : own.calls = left.own.calls) (calls' : own'.calls = right.own.calls)
    (agree : Agree estate.region history.db history'.db) (fenced : Fenced estate base history.db)
    (fenced' : Fenced estate base' history'.db) :
    Beside estate base base'
      ⟨own, { left.world.pass outcome with history := history }⟩
      ⟨own', { right.world.pass outcome' with history := history' }⟩ where
  calls := by rw [calls, calls', beside.calls]
  clock := by simp only [World.pass, beside.clock, alike.ticks]
  next := by simp only [World.pass, beside.next, alike.writes]
  fresh table id grows beyond :=
    beside.fresh table id grows ((le_advance _ outcome.writes table).trans beyond)
  agree := agree
  leftFenced := fenced
  rightFenced := fenced'

/-- A statement on the plain client finishes alike in both runs. -/
theorem Idle.finish (idle : Idle estate base base' left right) (pause : Pause)
    (confined : stmt.Confined estate ensures) : ∃ reply own own' world world',
    finish estate.schema [] [] false stmt ⟨left.world.history, left.world.clock⟩ left.own
      (left.world.tick.paused pause) = some (reply, own, world) ∧
    finish estate.schema [] [] false stmt ⟨right.world.history, right.world.clock⟩ right.own
      (right.world.tick.paused pause) = some (reply, own', world') ∧
    Idle estate base base' ⟨own, world⟩ ⟨own', world'⟩ ∧
      ∀ value, reply = .ok value → ensures value := by
  have locks : left.own.locks = [] := by simp [Local.locks, idle.leftIdle]
  have locks' : right.own.locks = [] := by simp [Local.locks, idle.rightIdle]
  have writes : left.own.writes = [] := by simp [Local.writes, idle.leftIdle]
  have writes' : right.own.writes = [] := by simp [Local.writes, idle.rightIdle]
  have later : Idle estate base base' ⟨left.own, left.world.tick.paused pause⟩
      ⟨right.own, right.world.tick.paused pause⟩ :=
    idle.ticked.paused pause
  have ctxs : Ctx.Beside estate
      (ctxOf left.own.drop ⟨left.world.history, left.world.clock⟩
        (left.world.tick.paused pause) [])
      (ctxOf right.own.drop ⟨right.world.history, right.world.clock⟩
        (right.world.tick.paused pause) []) := {
    agree := idle.agree
    leftSeen := rfl
    rightSeen := rfl
    leftIntact := idle.leftFenced.intact
    rightIntact := idle.rightFenced.intact
    leftWalled := idle.leftFenced.walled
    rightWalled := idle.rightFenced.walled
    now := idle.clock
    clock := later.clock
    next := idle.next
    fresh := idle.fresh }
  have alike := confined _ _ ctxs
  rcases Schema.settle_alike alike.writes alike.within idle.agree idle.leftFenced.walled
    idle.rightFenced.walled with ⟨failure, here, there⟩ | ⟨taken, taken', here, there⟩
  · refine ⟨_, _, _, _, _, finish_plain_error idle.leftIdle here,
      finish_plain_error idle.rightIdle there, ?_, fun _ isOk => by cases isOk⟩
    exact later
  · obtain ⟨history, finished, isDb⟩ := finish_plain idle.leftIdle here
    obtain ⟨history', finished', isDb'⟩ := finish_plain idle.rightIdle there
    have fenced : Fenced estate base history.db :=
      isDb ▸ idle.leftFenced.writes alike.within here
    have fenced' : Fenced estate base' history'.db :=
      isDb' ▸ idle.rightFenced.writes (fun write member =>
        alike.within write (alike.writes ▸ member)) there
    have agree : Agree estate.region history.db history'.db := by
      rw [isDb, isDb', ← alike.writes]
      exact idle.agree.writes _
    rw [← alike.result] at finished'
    refine ⟨_, _, _, _, _, finished, finished', ?_, ?_⟩
    · exact { toBeside := later.pass alike left.own right.own rfl rfl agree fenced fenced'
              leftIdle := idle.leftIdle
              rightIdle := idle.rightIdle }
    · rintro value isOk
      obtain rfl := Except.ok.inj isOk
      exact alike.ensured

/-- A statement on the open transaction finishes alike in both runs. -/
theorem Open.finish (opened : Open estate base base' left right) (pause : Pause)
    (confined : stmt.Confined estate ensures) : ∃ reply own own' world world',
    finish estate.schema [] [] true stmt ⟨left.world.history, left.world.clock⟩ left.own
      (left.world.tick.paused pause) = some (reply, own, world) ∧
    finish estate.schema [] [] true stmt ⟨right.world.history, right.world.clock⟩ right.own
      (right.world.tick.paused pause) = some (reply, own', world') ∧
    (∀ value, reply = .ok value →
      ensures value ∧ Open estate base base' ⟨own, world⟩ ⟨own', world'⟩) ∧
    ∀ failure, reply = .error failure →
      Broken estate base base' ⟨own, world⟩ ⟨own', world'⟩ := by
  obtain ⟨txn, txn', opened⟩ := opened
  have isWrites : left.own.writes = txn.writes := by simp [Local.writes, opened.leftOpen]
  have isWrites' : right.own.writes = txn'.writes := by simp [Local.writes, opened.rightOpen]
  have agree : Agree estate.region (left.own.view left.world.history)
      (right.own.view right.world.history) := by
    rw [Local.view, Local.view, isWrites, isWrites', ← opened.writes]
    exact opened.agree.writes _
  have ctxs : Ctx.Beside estate
      (ctxOf left.own ⟨left.world.history, left.world.clock⟩ (left.world.tick.paused pause) [])
      (ctxOf right.own ⟨right.world.history, right.world.clock⟩
        (right.world.tick.paused pause) []) := {
    agree := agree
    leftSeen := rfl
    rightSeen := rfl
    leftIntact := opened.leftView.intact
    rightIntact := opened.rightView.intact
    leftWalled := opened.leftView.walled
    rightWalled := opened.rightView.walled
    now := by simp only [ctxOf, opened.leftOpen, opened.rightOpen, opened.start]
    clock := congrArg (fun clock => pause.instant (clock + 1)) opened.clock
    next := opened.next
    fresh := opened.fresh }
  have alike := confined _ _ ctxs
  have later : Beside estate base base' ⟨left.own, left.world.tick.paused pause⟩
      ⟨right.own, right.world.tick.paused pause⟩ := { opened with clock := ctxs.clock }
  rcases Schema.settle_alike alike.writes alike.within agree opened.leftView.walled
    opened.rightView.walled with ⟨failure, here, there⟩ | ⟨taken, taken', here, there⟩
  · refine ⟨_, _, _, _, _, finish_open_error here, finish_open_error there,
      ⟨fun _ isOk => (by cases isOk), fun _ _ => ?_⟩⟩
    exact { toBeside := { later with }
            leftBroken := ⟨{ txn with aborted := true }, by simp [Local.fail, opened.leftOpen], rfl⟩
            rightBroken := ⟨{ txn' with aborted := true },
              by simp [Local.fail, opened.rightOpen], rfl⟩ }
  · have finished := finish_open opened.leftOpen opened.leftLive here
    have finished' := finish_open opened.rightOpen opened.rightLive there
    rw [← alike.result] at finished'
    refine ⟨_, _, _, _, _, finished, finished', fun value isOk => ?_,
      fun _ isError => by cases isError⟩
    obtain rfl := Except.ok.inj isOk
    refine ⟨alike.ensured, _, _, {
      toBeside := later.pass alike (left.own.extend txn _ taken _)
        (right.own.extend txn' _ taken' _) rfl rfl opened.agree opened.leftFenced opened.rightFenced
      leftOpen := rfl
      rightOpen := rfl
      leftLive := opened.leftLive
      rightLive := opened.rightLive
      start := opened.start
      writes := by simp only [opened.writes, alike.writes]
      leftView := ?_
      rightView := ?_ }⟩
    · have fenced := opened.leftView.writes alike.within here
      rwa [Local.view, isWrites, ← Db.writes_append] at fenced
    · have fenced := opened.rightView.writes
        (fun write member => alike.within write (alike.writes ▸ member)) there
      rwa [Local.view, isWrites', ← Db.writes_append] at fenced

/-- A transaction begins in both runs. -/
theorem Idle.begun (idle : Idle estate base base' left right) :
    Open estate base base' ⟨left.own.beginTxn left.world, left.world.tick⟩
      ⟨right.own.beginTxn right.world, right.world.tick⟩ :=
  ⟨_, _, {
    toBeside := { idle with clock := congrArg (· + 1) idle.clock }
    leftOpen := rfl
    rightOpen := rfl
    leftLive := rfl
    rightLive := rfl
    start := idle.clock
    writes := rfl
    leftView := idle.leftFenced
    rightView := idle.rightFenced }⟩

/-- The transaction is forgotten. -/
theorem Settling.dropped (settling : Settling estate base base' left right) :
    Idle estate base base' ⟨left.own.drop, left.world⟩ ⟨right.own.drop, right.world⟩ := by
  have beside : Beside estate base base' left right := by
    rcases settling with ⟨_, _, opened⟩ | broken | idle
    · exact opened.toBeside
    · exact broken.toBeside
    · exact idle.toBeside
  exact { toBeside := { beside with }, leftIdle := rfl, rightIdle := rfl }

/-- COMMIT makes the same of both. -/
theorem Settling.committed (settling : Settling estate base base' left right) :
    Idle estate base base' ⟨left.own.drop, left.own.committed left.world⟩
      ⟨right.own.drop, right.own.committed right.world⟩ := by
  have ticked : Idle estate base base' ⟨left.own.drop, left.world.tick⟩
      ⟨right.own.drop, right.world.tick⟩ :=
    { settling.dropped with clock := congrArg (· + 1) settling.dropped.clock }
  rcases settling with ⟨txn, txn', opened⟩ | broken | idle
  · simp only [Local.committed, opened.leftOpen, opened.rightOpen, opened.leftLive,
      opened.rightLive, Bool.false_or, opened.writes]
    split
    · exact ticked
    · have isView : left.own.view left.world.history = left.world.history.db.writes txn.writes := by
        simp [Local.view, Local.writes, opened.leftOpen]
      have isView' : right.own.view right.world.history =
          right.world.history.db.writes txn'.writes := by
        simp [Local.view, Local.writes, opened.rightOpen]
      have leftAfter : Fenced estate base (left.world.history.db.writes txn.writes) :=
        isView ▸ opened.leftView
      have rightAfter : Fenced estate base' (right.world.history.db.writes txn'.writes) :=
        isView' ▸ opened.rightView
      have agree : Agree estate.region (left.world.history.db.writes txn.writes)
          (right.world.history.db.writes txn'.writes) := by
        rw [← opened.writes]
        exact opened.agree.writes _
      exact { ticked with agree := agree, leftFenced := leftAfter, rightFenced := rightAfter }
  · obtain ⟨txn, isTxn, aborted⟩ := broken.leftBroken
    obtain ⟨txn', isTxn', aborted'⟩ := broken.rightBroken
    simp only [Local.committed, isTxn, isTxn', aborted, aborted', Bool.true_or, if_true]
    exact ticked
  · simp only [Local.committed, idle.leftIdle, idle.rightIdle]
    exact ticked

theorem Beside.called (beside : Beside estate base base' left right) (c : X.Call)
    (reply : X.Reply c) : Beside estate base base'
      ⟨left.own.called ⟨c, reply⟩,
        { left.world with env := X.perform c reply left.world.env }⟩
      ⟨right.own.called ⟨c, reply⟩,
        { right.world with env := X.perform c reply right.world.env }⟩ :=
  { beside with calls := congrArg (List.cons (⟨c, reply⟩ : Said X)) beside.calls }

theorem Idle.called (idle : Idle estate base base' left right) (c : X.Call)
    (reply : X.Reply c) : Idle estate base base'
      ⟨left.own.called ⟨c, reply⟩,
        { left.world with env := X.perform c reply left.world.env }⟩
      ⟨right.own.called ⟨c, reply⟩,
        { right.world with env := X.perform c reply right.world.env }⟩ :=
  { idle with toBeside := idle.toBeside.called c reply }

theorem Open.called (opened : Open estate base base' left right) (c : X.Call)
    (reply : X.Reply c) : Open estate base base'
      ⟨left.own.called ⟨c, reply⟩,
        { left.world with env := X.perform c reply left.world.env }⟩
      ⟨right.own.called ⟨c, reply⟩,
        { right.world with env := X.perform c reply right.world.env }⟩ := by
  obtain ⟨txn, txn', opened⟩ := opened
  exact ⟨txn, txn', { opened with toBeside := opened.toBeside.called c reply }⟩

end Steps

/-- What holds of two states. -/
abbrev Pairing (σ : Signature) (X : Interface) := Solo σ X → Solo σ X → Prop

namespace Svc

variable {ε α β γ : Type}

/-- From two states of `pre`, both runs of the task end alike: they return the same value,
of which `ensures` holds, in states of `post`, or raise the same exception in states of
`raised`. -/
def Twin (schema : Schema σ) (script : Script X) (pre : Pairing σ X) (task : Svc σ X ε α)
    (ensures : α → Prop) (post raised : Pairing σ X) : Prop :=
  ∀ left right, pre left right → ∃ result left' right',
    Prog.alone schema script task.run left = some (result, left') ∧
    Prog.alone schema script task.run right = some (result, right') ∧
    (∀ value, result = .ok value → ensures value ∧ post left' right') ∧
    ∀ exception, result = .error exception → raised left' right'

section Rules

variable {schema : Schema σ} {script : Script X} {pre middle post post' raised raised' : Pairing σ X}
  {ensures ensures' : α → Prop} {known : γ → Prop}

theorem twin_mono {task : Svc σ X ε α} (twin : Twin schema script pre task ensures post raised)
    (tells : ∀ value, ensures value → ensures' value)
    (ends : ∀ left right, post left right → post' left right)
    (raises : ∀ left right, raised left right → raised' left right) :
    Twin schema script pre task ensures' post' raised' := by
  intro left right related
  obtain ⟨result, left', right', ran, ran', returned, thrown⟩ := twin left right related
  exact ⟨result, left', right', ran, ran',
    fun value isOk => ⟨tells value (returned value isOk).1, ends _ _ (returned value isOk).2⟩,
    fun exception isError => raises _ _ (thrown exception isError)⟩

theorem twin_pure {value : α} (holds : ensures value) :
    Twin schema script pre (pure value : Svc σ X ε α) ensures pre raised := by
  intro left right related
  refine ⟨.ok value, left, right, rfl, rfl, fun other isOk => ?_, fun _ isError => by cases isError⟩
  obtain rfl := Except.ok.inj isOk
  exact ⟨holds, related⟩

theorem twin_throw {exception : ε} :
    Twin schema script pre (throw exception : Svc σ X ε α) ensures post pre :=
  fun left right related => ⟨.error exception, left, right, rfl, rfl,
    fun _ isOk => (by cases isOk), fun _ _ => related⟩

/-- A sequence goes on with what its first part tells. -/
theorem twin_bind {first : Svc σ X ε γ} {rest : γ → Svc σ X ε α}
    (before : Twin schema script pre first known middle raised)
    (after : ∀ value, known value → Twin schema script middle (rest value) ensures post raised) :
    Twin schema script pre (first >>= rest) ensures post raised := by
  intro left right related
  obtain ⟨result, left', right', ran, ran', returned, thrown⟩ := before left right related
  cases result with
  | ok value =>
      obtain ⟨told, between⟩ := returned value rfl
      obtain ⟨last, left'', right'', rest, rest', which⟩ := after value told _ _ between
      refine ⟨last, left'', right'', ?_, ?_, which⟩
      · exact (Prog.alone_bind_of ran).trans rest
      · exact (Prog.alone_bind_of ran').trans rest'
  | error exception =>
      refine ⟨.error exception, left', right', ?_, ?_, fun _ isOk => (by cases isOk),
        fun _ _ => thrown exception rfl⟩
      · exact (Prog.alone_bind_of ran).trans rfl
      · exact (Prog.alone_bind_of ran').trans rfl

theorem twin_tryCatch {body : Svc σ X ε α} {handler : ε → Svc σ X ε α}
    (tried : Twin schema script pre body ensures post middle)
    (handled : ∀ exception,
      Twin schema script middle (handler exception) ensures post raised) :
    Twin schema script pre (tryCatch body handler) ensures post raised := by
  intro left right related
  obtain ⟨result, left', right', ran, ran', returned, thrown⟩ := tried left right related
  cases result with
  | ok value =>
      refine ⟨.ok value, left', right', ?_, ?_, returned, fun _ isError => by cases isError⟩
      · exact (Prog.alone_bind_of ran).trans rfl
      · exact (Prog.alone_bind_of ran').trans rfl
  | error exception =>
      obtain ⟨last, left'', right'', rest, rest', which⟩ :=
        handled exception _ _ (thrown exception rfl)
      refine ⟨last, left'', right'', ?_, ?_, which⟩
      · exact (Prog.alone_bind_of ran).trans rest
      · exact (Prog.alone_bind_of ran').trans rest'

theorem twin_forM_option {round : γ → Svc σ X ε PUnit} {item : Option γ}
    (rounds : ∀ value, item = some value →
      Twin schema script pre (round value) (fun _ => known value) pre raised) :
    Twin schema script pre (item.forM round) (fun _ => ∀ value, item = some value → known value)
      pre raised := by
  cases item with
  | none => exact twin_pure fun _ none => by cases none
  | some value =>
      refine twin_mono (rounds value rfl) (fun _ told other same => ?_) (fun _ _ => id)
        fun _ _ => id
      obtain rfl := Option.some.inj same
      exact told

theorem twin_mapM {round : γ → Svc σ X ε α} {items : List γ}
    (rounds : ∀ item, Twin schema script pre (round item) (fun _ => True) pre raised) :
    Twin schema script pre (items.mapM round) (fun _ => True) pre raised := by
  induction items with
  | nil => exact twin_pure trivial
  | cons item rest ih =>
      rw [List.mapM_cons]
      exact twin_bind (rounds item) fun _ _ => twin_bind ih fun _ _ => twin_pure trivial

end Rules

section Database

variable {estate : Estate σ} {base base' : Db σ} {script : Script X} {raise : SqlFailure → ε}
  {stmt : Stmt σ α} {ensures : α → Prop} {pre post raised : Pairing σ X}

/-- A confined statement on the plain client. -/
theorem twin_exec (confined : stmt.Confined estate ensures) :
    Twin estate.schema script (Idle estate base base') (exec raise false stmt : Svc σ X ε α) ensures
      (Idle estate base base') (Idle estate base base') := by
  intro left right idle
  obtain ⟨reply, own, own', world, world', ran, ran', after, told⟩ :=
    (idle.paused script.pause).finish script.pause confined
  cases reply with
  | ok value =>
      refine ⟨.ok value, ⟨own, world⟩, ⟨own', world'⟩, ?_, ?_, fun other isOk => ?_,
        fun _ isError => by cases isError⟩
      · simp only [exec, ExceptT.run_mk, Prog.alone, ran, Option.bind_some]
      · simp only [exec, ExceptT.run_mk, Prog.alone, ran', Option.bind_some]
      · obtain rfl := Except.ok.inj isOk
        exact ⟨told value rfl, after⟩
  | error failure =>
      refine ⟨.error (raise failure), ⟨own, world⟩, ⟨own', world'⟩, ?_, ?_,
        fun _ isOk => (by cases isOk), fun _ _ => after⟩
      · simp only [exec, ExceptT.run_mk, Prog.alone, ran, Option.bind_some]
      · simp only [exec, ExceptT.run_mk, Prog.alone, ran', Option.bind_some]

/-- A confined statement on the open transaction, which a failure aborts. -/
theorem twin_execOpen (confined : stmt.Confined estate ensures) :
    Twin estate.schema script (Open estate base base') (exec raise true stmt : Svc σ X ε α) ensures
      (Open estate base base') (Settling estate base base') := by
  intro left right opened
  obtain ⟨reply, own, own', world, world', ran, ran', returned, failed⟩ :=
    (opened.paused script.pause).finish script.pause confined
  cases reply with
  | ok value =>
      refine ⟨.ok value, ⟨own, world⟩, ⟨own', world'⟩, ?_, ?_, fun other isOk => ?_,
        fun _ isError => by cases isError⟩
      · simp only [exec, ExceptT.run_mk, Prog.alone, ran, Option.bind_some]
      · simp only [exec, ExceptT.run_mk, Prog.alone, ran', Option.bind_some]
      · obtain rfl := Except.ok.inj isOk
        exact returned value rfl
  | error failure =>
      refine ⟨.error (raise failure), ⟨own, world⟩, ⟨own', world'⟩, ?_, ?_,
        fun _ isOk => (by cases isOk), fun _ _ => Or.inr (Or.inl (failed failure rfl))⟩
      · simp only [exec, ExceptT.run_mk, Prog.alone, ran, Option.bind_some]
      · simp only [exec, ExceptT.run_mk, Prog.alone, ran', Option.bind_some]

/-- What a task makes of the rows of a statement is part of the statement. -/
theorem alone_exec_map {schema : Schema σ} {inTxn : Bool} {f : α → γ} {rest : γ → Svc σ X ε β}
    (solo : Solo σ X) :
    Prog.alone schema script (exec raise inTxn stmt >>= fun value => rest (f value)).run solo =
      Prog.alone schema script (exec raise inTxn (stmt.map f) >>= rest).run solo := by
  change Prog.alone schema script (.exec inTxn stmt _) solo =
    Prog.alone schema script (.exec inTxn (stmt.map f) _) solo
  simp only [Prog.alone, finish_map, Option.bind_map]
  refine congrArg (Option.bind _) (funext fun finished => ?_)
  obtain ⟨reply, own, world⟩ := finished
  cases reply with
  | ok value => rfl
  | error failure => rfl

theorem twin_exec_map {schema : Schema σ} {inTxn : Bool} {f : α → γ} {rest : γ → Svc σ X ε β}
    {ensures : β → Prop}
    (twin : Twin schema script pre (exec raise inTxn (stmt.map f) >>= rest) ensures post raised) :
    Twin schema script pre (exec raise inTxn stmt >>= fun value => rest (f value)) ensures post
      raised := by
  intro left right related
  obtain ⟨result, left', right', ran, ran', which⟩ := twin left right related
  exact ⟨result, left', right', (alone_exec_map left).trans ran, (alone_exec_map right).trans ran',
    which⟩

/-- A service answers alike, since the calls before were alike. -/
theorem twin_call {c : X.Call} {read : X.Reply c → Except ε α} :
    Twin estate.schema script (Idle estate base base') (call c read) (fun _ => True)
      (Idle estate base base') (Idle estate base base') := by
  intro left right idle
  have after := idle.called c (script.reply left.own.calls c)
  refine ⟨read (script.reply left.own.calls c), _, _, rfl, ?_, fun _ _ => ⟨trivial, after⟩,
    fun _ _ => after⟩
  simp only [call, ExceptT.run_mk, Prog.alone, ← idle.calls]

theorem twin_callOpen {c : X.Call} {read : X.Reply c → Except ε α} :
    Twin estate.schema script (Open estate base base') (call c read) (fun _ => True)
      (Open estate base base') (Settling estate base base') := by
  intro left right opened
  have after := opened.called c (script.reply left.own.calls c)
  refine ⟨read (script.reply left.own.calls c), _, _, rfl, ?_, fun _ _ => ⟨trivial, after⟩,
    fun _ _ => Or.inl after⟩
  obtain ⟨txn, txn', opened⟩ := opened
  simp only [call, ExceptT.run_mk, Prog.alone, ← opened.calls]

theorem twin_rollback :
    Twin estate.schema script (Settling estate base base') (rollback : Svc σ X ε Unit)
      (fun _ => True) (Idle estate base base') raised :=
  fun left right settling => ⟨.ok (), _, _, rfl, rfl, fun _ _ => ⟨trivial, settling.dropped⟩,
    fun _ isError => by cases isError⟩

theorem twin_rollingBack {body : Svc σ X ε α}
    (twin : Twin estate.schema script pre body ensures post (Settling estate base base')) :
    Twin estate.schema script pre (rollingBack body) ensures post (Idle estate base base') :=
  twin_tryCatch twin fun _ => twin_bind twin_rollback fun _ _ => twin_throw

/-- The scope of a transaction object. -/
theorem twin_transaction {body : Svc σ X ε α}
    (twin : Twin estate.schema script (Open estate base base') body ensures
      (Settling estate base base') (Settling estate base base')) :
    Twin estate.schema script (Idle estate base base') (transaction raise body) ensures
      (Idle estate base base') (Idle estate base base') := by
  intro left right idle
  obtain ⟨result, left', right', ran, ran', returned, thrown⟩ := twin _ _ (idle.paused script.pause).begun
  have settling : Settling estate base base' left' right' := by
    cases result with
    | ok value => exact (returned value rfl).2
    | error exception => exact thrown exception rfl
  have after := (settling.paused script.pause).committed
  refine ⟨result, _, _, (Prog.alone_bind_of ran).trans rfl, (Prog.alone_bind_of ran').trans rfl,
    fun value isOk => ⟨(returned value isOk).1, after⟩, fun _ _ => after⟩

end Database

end Svc

end ReadCommitted

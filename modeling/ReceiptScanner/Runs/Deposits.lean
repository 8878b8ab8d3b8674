import ReceiptScanner.Runs.Batches

/-!
# What it takes to store an image

Uploads and additions take the user's advisory lock before they look: at the number of images
of the receipt, and, unless forced, for an image with the same hash. They put each object in
the image store before they insert its row. A removal of an object comes after the row's
receipt is gone.
-/

namespace ReceiptScanner

open ReadCommitted

variable {setup : Setup} {jobs : ℕ → Option Job} {opening : Opening} {tid : ℕ}
  {calls : List (Said outside)} {log : Log store outside} {world : World store outside}
  {scope' : Scope store outside}

section Calls

/-- The images that have been normalized, with what became of each. -/
def normalized (calls : List (Said outside)) : List (String × String) :=
  calls.reverse.filterMap fun
    | ⟨.normalize raw, .ok bytes⟩ => some (raw, bytes)
    | _ => none

/-- The image that a write stores. -/
def storeOf : Write store → Option (ℕ × ReceiptImageRow)
  | ⟨.receiptImages, id, some row, .storeImage⟩ => some (id, row)
  | _ => none

/-- The images that are stored, in order. -/
def storesOf (changes : List (Write store)) : List (ℕ × ReceiptImageRow) :=
  changes.filterMap storeOf

/-- The images of a request. -/
def Job.batch : Job → Option (List String)
  | .uploadReceipt _ batch _ => some batch
  | .addImages _ _ batch _ => some batch
  | _ => none

/-- The commit stores this batch on one receipt, in the order of the request. -/
structure StoresBatch (setup : Setup) (batch : List String) (c : Commit store outside) : Prop where
  request : (normalized c.calls).map Prod.fst = batch
  hashes : (storesOf c.writes).map (fun image => image.2.imageSha256) =
    (normalized c.calls).map fun image => setup.sha256Hex image.2
  receipt : ∃ receiptId, ∀ image ∈ storesOf c.writes, image.2.receiptId = receiptId

/-- The objects that were put in the store, in order. -/
def putsOf (calls : List (Said outside)) : List (String × String) :=
  calls.reverse.filterMap fun
    | ⟨.putImage key _ bytes, .ok _⟩ => some (key, bytes)
    | _ => none

theorem putsOf_append (later earlier : List (Said outside)) :
    putsOf (later ++ earlier) = putsOf earlier ++ putsOf later := by
  simp [putsOf, List.filterMap_append]

theorem storeOf_eq_some {write : Write store} {image : ℕ × ReceiptImageRow} :
    storeOf write = some image ↔
      write = ⟨.receiptImages, image.1, some image.2, .storeImage⟩ := by
  constructor
  · intro found
    unfold storeOf at found
    split at found
    · cases found
      rfl
    · cases found
  · rintro rfl
    rfl

theorem mem_storesOf {changes : List (Write store)} {image : ℕ × ReceiptImageRow} :
    image ∈ storesOf changes ↔
      ⟨.receiptImages, image.1, some image.2, .storeImage⟩ ∈ changes := by
  simp [storesOf, List.mem_filterMap, storeOf_eq_some]

/-- Writes under other labels store no image. -/
theorem storesOf_eq_nil {changes : List (Write store)}
    (other : ∀ write ∈ changes, write.label ≠ .storeImage) : storesOf changes = [] := by
  apply List.eq_nil_iff_forall_not_mem.mpr
  intro image member
  exact other _ (mem_storesOf.mp member) rfl

theorem storesOf_append (first second : List (Write store)) :
    storesOf (first ++ second) = storesOf first ++ storesOf second := List.filterMap_append

/-- The calls that normalize a batch, with what became of each image. -/
def normalizing (done : List (String × String)) : List (Said outside) :=
  (done.map fun image => (⟨.normalize image.1, .ok image.2⟩ : Said outside)).reverse

theorem normalized_normalizing (done : List (String × String)) :
    normalized (normalizing done ++ calls) = normalized calls ++ done := by
  simp only [normalized, normalizing, List.reverse_append, List.reverse_reverse,
    List.filterMap_append, List.filterMap_map]
  exact congrArg _ List.filterMap_some

theorem putsOf_normalizing (done : List (String × String)) :
    putsOf (normalizing done) = [] := by
  simp only [putsOf, normalizing, List.reverse_reverse, List.filterMap_map]
  exact List.filterMap_eq_nil_iff.mpr fun _ _ => rfl

end Calls

section Deposits

variable (setup) (h : History store outside) (c : Commit store outside)

/-- How a commit comes to store images of a user on a receipt: under the user's lock, for
objects it has put, with room left under the cap, and with new hashes unless forced. -/
structure Deposited (userId receiptId : ℕ) (force : Bool) : Prop where
  locked : ⟨.advisory, userId, .update⟩ ∈ c.locks
  owned : ∀ image ∈ storesOf c.writes, image.2.userId = userId ∧ image.2.receiptId = receiptId
  objects : (storesOf c.writes).map (fun image => (image.2.imageKey, image.2.imageSha256)) =
    (putsOf c.calls).map fun put => (put.1, setup.sha256Hex put.2)
  room : (Unused h .receipts receiptId ∧
      ((storesOf c.writes).length : ℤ) ≤ setup.maxImagesPerReceipt) ∨
    ∃ seen, LockedSince h .advisory userId seen ∧
      (((imagesOf seen.db receiptId).length + (storesOf c.writes).length : ℕ) : ℤ) ≤
        setup.maxImagesPerReceipt
  novel : force = false → ∀ image ∈ storesOf c.writes, ∃ seen, LockedSince h .advisory userId seen ∧
    ∀ id row, (seen.db .receiptImages).get id = some row → row.userId = userId →
      row.imageSha256 ≠ image.2.imageSha256

/-- Some time so far there was a row with this key, and later its receipt was removed. -/
def Removable (key : String) (h : History store outside) : Prop :=
  ∃ (seen earlier : History store outside) (c : Commit store outside) (id : ℕ)
    (row : ReceiptImageRow), seen <:+ earlier ∧ c :: earlier <:+ h ∧
    (seen.db .receiptImages).get id = some row ∧ row.imageKey = key ∧
    ⟨.receipts, row.receiptId, none, .deleteReceipt⟩ ∈ c.writes

/-- A deletion removed the receipt, and asked for the removal of each object that it had seen
before, though not before `base`. -/
def Erased (userId receiptId : ℕ) (base : History store outside) (calls : List (Said outside)) :
    Prop :=
  ∃ (seen earlier : History store outside) (c : Commit store outside) (receipt : ReceiptRow),
    base <:+ seen ∧ seen <:+ earlier ∧ c :: earlier <:+ h ∧
    (earlier.db .receipts).get receiptId = some receipt ∧ receipt.userId = userId ∧
    ⟨.receipts, receiptId, none, .deleteReceipt⟩ ∈ c.writes ∧
    ∀ id row, (seen.db .receiptImages).get id = some row → row.receiptId = receiptId →
      ((seen.db .receipts).get receiptId).map ReceiptRow.userId = some userId →
      ∃ said ∈ calls, said.call = .removeImage row.imageKey

/-- For whom a request stores its images, and whether it is forced. -/
def Job.deposit : Job → Option (ℕ × Bool)
  | .uploadReceipt userId _ force => some (userId, force)
  | .addImages userId _ _ force => some (userId, force)
  | _ => none

end Deposits

/-- Images are stored and removed in this way only. -/
def deposits (setup : Setup) (jobs : ℕ → Option Job) : Guarantee store outside where
  commits h c := storesOf c.writes ≠ [] → ∃ job batch userId force receiptId,
    jobs c.tid = some job ∧ job.batch = some batch ∧ job.deposit = some (userId, force) ∧
      StoresBatch setup batch c ∧ Deposited setup h c userId receiptId force
  calls _ _ c h := ∀ key, c = .removeImage key → Removable key h

/-- Any call but a removal may be made at any time. -/
theorem free_deposits {c : Call} (other : ∀ key, c ≠ .removeImage key) :
    (deposits setup jobs).Free c := fun _ _ _ key same => absurd same (other key)

namespace ReceiptService

/-- A statement that follows one under a lock runs under it. -/
theorem lockedSince_of_linked {h : History store outside} {later earlier : Log store outside}
    (linked : ReadCommitted.Linked opening h (later ++ earlier)) {query lock : Entry store outside}
    (isLater : query ∈ later) (isEarlier : lock ∈ earlier) {table : Table} {id : ℕ}
    (taken : ⟨table, id, .update⟩ ∈ lock.locks) : LockedSince h table id query.snap := by
  have here : query ∈ later ++ earlier := List.mem_append_left _ isLater
  have there : lock ∈ later ++ earlier := List.mem_append_right _ isEarlier
  exact ⟨(linked.spanned query here).trans (linked.past query here), lock.cur,
    (List.pairwise_append.mp linked.ordered).2.2 query isLater lock isEarlier,
    (linked.held lock there).mono (List.cons_subset.mpr ⟨taken, List.nil_subset _⟩)⟩

/-- The duplicate check that finds nothing has looked for every image, unless it is forced. -/
theorem returns_noConflict {start userId : ℕ} {prepared : List PreparedImage} {force : Bool}
    (silent : Log.writes log = [])
    (ran : Returns setup start (conflictUnlessForced userId prepared force)
      ⟨calls, .live log⟩ none scope') :
    ∃ extra : Log store outside, scope' = ⟨calls, .live (extra ++ log)⟩ ∧
      Log.writes extra = [] ∧ (force = false → ∀ prep ∈ prepared, ∃ query ∈ extra, ∀ id row,
        (query.snap.db .receiptImages).get id = some row → row.userId = userId →
          row.imageSha256 ≠ prep.sha256Hex) := by
  unfold conflictUnlessForced at ran
  split at ran
  · rename_i forced
    obtain ⟨-, rfl⟩ := returns_pure.mp ran
    exact ⟨[], rfl, rfl, fun unforced => absurd forced (by simp [unforced])⟩
  induction prepared generalizing log with
  | nil =>
      obtain ⟨-, rfl⟩ := returns_pure.mp ran
      exact ⟨[], rfl, rfl, by simp⟩
  | cons prep rest ih =>
      obtain ⟨entry, ctx, query, after⟩ := returns_exec_bind.mp ran
      have quiet : Log.writes (entry :: log) = [] := by simp [silent, query.writes_query]
      split at after
      · cases (returns_pure.mp after).1
      · rename_i nothing
        obtain ⟨extra, rfl, still, looked⟩ := ih quiet after
        refine ⟨extra ++ [entry], by simp, ?_, fun unforced => List.forall_mem_cons.mpr
          ⟨⟨entry, by simp, fun id row stored owner same => ?_⟩, ?_⟩⟩
        · simp [Log.writes_append, still, query.writes_query]
        · have inSnap : (ctx.snap .receiptImages).get id = some row := by
            rw [query.snap, silent]
            exact stored
          have found : (id, row) ∈ (ctx.snap .receiptImages).list.filter fun image =>
              image.2.userId == userId && image.2.imageSha256 == prep.sha256Hex :=
            List.mem_filter.mpr ⟨Rows.mem_list.mpr inSnap, by simp [owner, same]⟩
          rcases List.take_eq_nil_iff.mp (List.map_eq_nil_iff.mp nothing) with zero | empty
          · cases zero
          · exact absurd (empty ▸ found) List.not_mem_nil
        · intro other member
          obtain ⟨earlier, among, looked⟩ := looked unforced other member
          exact ⟨earlier, List.mem_append_left _ among, looked⟩

/-- A batch is stored in its order, each object before its row. -/
theorem returns_storeImages {start userId receiptId : ℕ} {prepared : List PreparedImage}
    (hashed : ∀ prep ∈ prepared, prep.sha256Hex = setup.sha256Hex prep.bytes)
    (ran : Returns setup start (storeImages userId receiptId prepared) ⟨calls, .live log⟩ ⟨⟩
      scope') :
    ∃ calls' log', scope' = ⟨calls', .live log'⟩ ∧ normalized calls' = normalized calls ∧
      ∃ rows puts, storesOf (Log.writes log') = storesOf (Log.writes log) ++ rows ∧
        putsOf calls' = putsOf calls ++ puts ∧
        rows.map (fun image => image.2.imageSha256) = prepared.map PreparedImage.sha256Hex ∧
        rows.map (fun image => (image.2.imageKey, image.2.imageSha256)) =
          puts.map (fun put => (put.1, setup.sha256Hex put.2)) ∧
        ∀ image ∈ rows, image.2.userId = userId ∧ image.2.receiptId = receiptId := by
  induction prepared generalizing calls log with
  | nil =>
      obtain ⟨-, rfl⟩ := Svc.yields_forM_nil.mp ran
      exact ⟨calls, log, rfl, rfl, [], [], (List.append_nil _).symm, (List.append_nil _).symm,
        rfl, rfl, by simp⟩
  | cons prep rest ih =>
      obtain ⟨middle, one, others⟩ := Svc.yields_forM_cons.mp ran
      obtain ⟨random, _, drawn, after⟩ := returns_bind.mp one
      obtain ⟨token, -, rfl⟩ := returns_call.mp drawn
      obtain ⟨_, _, put, after⟩ := returns_bind.mp after
      obtain ⟨answer, isOk, rfl⟩ := returns_call.mp put
      obtain rfl : answer = .ok () := isOk
      obtain ⟨entry, ctx, insert, after⟩ := returns_exec_bind.mp after
      obtain ⟨-, rfl⟩ := returns_pure.mp after
      obtain ⟨isHashed, hashed⟩ := List.forall_mem_cons.mp hashed
      obtain ⟨calls', log', rfl, same, rows, puts, stored, isPut, hashes, objects, owned⟩ :=
        ih hashed others
      have made := insert.insert.1
      let row : ReceiptImageRow := {
        receiptId := receiptId, userId := userId, imageKey := imageKey userId receiptId random
        imageSha256 := prep.sha256Hex, createdAt := start }
      refine ⟨calls', log', rfl, ?_, (ctx.next .receiptImages, row) :: rows,
        (imageKey userId receiptId random, prep.bytes) :: puts, ?_, ?_,
        congrArg (prep.sha256Hex :: ·) hashes, ?_, ?_⟩
      · rw [same]
        simp [normalized, List.filterMap_append]
      · rw [stored, Log.writes_cons, storesOf_append, made, List.append_assoc]
        rfl
      · rw [isPut]
        simp [putsOf, List.filterMap_append]
      · simp [objects, row, isHashed]
      · exact List.forall_mem_cons.mpr ⟨⟨rfl, rfl⟩, owned⟩

/-- A batch is normalized in its order. -/
theorem safe_prepareImages {regime : Regime} (free : ∀ raw, regime.ok.Free (.normalize raw))
    (batch : List String) :
    Safe regime (prepareImages setup batch)
      (fun prepared own later => ∃ done, own = idle tid (normalizing done ++ calls) ∧
        done.map Prod.fst = batch ∧ prepared = done.map (fun image =>
          (⟨image.2, setup.sha256Hex image.2⟩ : PreparedImage)) ∧
        Foreign tid world.history later.history)
      (fun _ own later => ∃ done, own = idle tid (done ++ calls) ∧
        Foreign tid world.history later.history) (idle tid calls) world := by
  induction batch generalizing calls world with
  | nil => exact ⟨[], rfl, rfl, rfl, Foreign.refl⟩
  | cons raw rest ih =>
      rw [prepareImages, List.mapM_cons]
      refine Svc.wp_bind (Svc.wp_bind (Svc.wp_call (fun h _ => free _ _ _ h)
        fun later reply foreign => ?_))
      cases reply with
      | error exception => exact ⟨[⟨.normalize raw, .error exception⟩], rfl, foreign⟩
      | ok bytes =>
          refine Svc.wp_pure (Svc.wp_bind (Svc.wp_mono ih ?_ ?_))
          · rintro prepared _ last ⟨done, rfl, rfl, rfl, toLast⟩
            refine Svc.wp_pure ⟨(raw, bytes) :: done, ?_, rfl, rfl, foreign.trans toLast⟩
            simp [normalizing, idle]
          · rintro exception _ last ⟨done, rfl, toLast⟩
            exact ⟨done ++ [⟨.normalize raw, .ok bytes⟩], by simp [idle],
              foreign.trans toLast⟩

variable {userId receiptId : ℕ} {batch : List String} {force : Bool}

/-- What a transaction stores after it has taken the lock and looked. -/
theorem deposited {h : History store outside} {stop : ℕ} {lock : Entry store outside}
    {later log' : Log store outside} {rows : List (ℕ × ReceiptImageRow)}
    {prepared : List PreparedImage} (linked : ReadCommitted.Linked opening h log')
    (within : later ++ [lock] <:+ log') (taken : ⟨.advisory, userId, .update⟩ ∈ lock.locks)
    (stored : storesOf (Log.writes log') = rows)
    (owned : ∀ image ∈ rows, image.2.userId = userId ∧ image.2.receiptId = receiptId)
    (objects : rows.map (fun image => (image.2.imageKey, image.2.imageSha256)) =
      (putsOf calls).map fun put => (put.1, setup.sha256Hex put.2))
    (hashes : rows.map (fun image => image.2.imageSha256) =
      prepared.map PreparedImage.sha256Hex)
    (looked : force = false → ∀ prep ∈ prepared, ∃ query ∈ later, ∀ id row,
      (query.snap.db .receiptImages).get id = some row → row.userId = userId →
        row.imageSha256 ≠ prep.sha256Hex)
    (room : (Unused h .receipts receiptId ∧ (prepared.length : ℤ) ≤ setup.maxImagesPerReceipt) ∨
      ∃ count ∈ later, (((imagesOf count.snap.db receiptId).length + prepared.length : ℕ) : ℤ) ≤
        setup.maxImagesPerReceipt) :
    Deposited setup h (opening.commit calls log' stop) userId receiptId force := by
  subst stored
  have under : ∀ query ∈ later, LockedSince h .advisory userId query.snap := fun query member =>
    lockedSince_of_linked (linked.of_suffix within) member (List.mem_singleton_self lock) taken
  have count : (storesOf (Log.writes log')).length = prepared.length := by
    simpa using congrArg List.length hashes
  constructor
  case locked => exact Log.mem_locks (within.subset (by simp)) taken
  case owned => exact owned
  case objects => exact objects
  case room =>
      rw [show (opening.commit calls log' stop).writes = Log.writes log' from rfl, count]
      exact room.imp_right fun ⟨query, member, fits⟩ => ⟨query.snap, under query member, fits⟩
  case novel =>
      intro unforced image member
      change image ∈ storesOf (Log.writes log') at member
      have isHash := List.mem_map_of_mem (f := fun image => image.2.imageSha256) member
      rw [hashes] at isHash
      obtain ⟨prep, among, same⟩ := List.mem_map.mp isHash
      obtain ⟨query, inLater, absent⟩ := looked unforced prep among
      exact ⟨query.snap, under query inLater, fun id row there mine =>
        same ▸ absent id row there mine⟩

/-- A transaction that stored what was prepared has stored the batch of its request. -/
theorem storesBatch {stop : ℕ} {done : List (String × String)}
    {prepared : List PreparedImage} {rows : List (ℕ × ReceiptImageRow)}
    (isPrepared : prepared = done.map fun image => ⟨image.2, setup.sha256Hex image.2⟩)
    (made : normalized calls = done) (raws : done.map Prod.fst = batch)
    (stored : storesOf (Log.writes log) = rows)
    (hashes : rows.map (fun image => image.2.imageSha256) =
      prepared.map PreparedImage.sha256Hex)
    (owned : ∀ image ∈ rows, image.2.userId = userId ∧ image.2.receiptId = receiptId) :
    StoresBatch setup batch (opening.commit calls log stop) := by
  subst stored made
  refine ⟨raws, ?_, receiptId, fun image member => (owned image member).2⟩
  rw [isPrepared, List.map_map] at hashes
  exact hashes

/-- Every image is prepared with its hash. -/
theorem hashed_of_prepared {prepared : List PreparedImage} {done : List (String × String)}
    (isPrepared : prepared = done.map fun image => ⟨image.2, setup.sha256Hex image.2⟩) :
    ∀ prep ∈ prepared, prep.sha256Hex = setup.sha256Hex prep.bytes := by
  subst isPrepared
  intro prep member
  obtain ⟨image, -, rfl⟩ := List.mem_map.mp member
  rfl

/-- A batch that is let through fits. -/
theorem fits_of_tooManyImages {count : ℕ} {value : Unit}
    (checked : tooManyImages setup count = .ok value) :
    (count : ℤ) ≤ setup.maxImagesPerReceipt := by
  unfold tooManyImages at checked
  split at checked
  · cases checked
  · rename_i fits
    exact not_lt.mp fits

/-- What a transaction has stored once it has put and inserted a batch. -/
theorem commits_storeImages {job : Job} {h : History store outside} {stop : ℕ}
    {lock : Entry store outside} (later : Log store outside) {log' final : Log store outside}
    {prepared : List PreparedImage} {done : List (String × String)}
    {calls' : List (Said outside)} (assigned : jobs opening.tid = some job)
    (isBatch : job.batch = some batch) (isDeposit : job.deposit = some (userId, force))
    (isPrepared : prepared = done.map fun image => ⟨image.2, setup.sha256Hex image.2⟩)
    (raws : done.map Prod.fst = batch)
    (ran : Returns setup opening.start (storeImages userId receiptId prepared)
      ⟨normalizing done, .live (later ++ [lock])⟩ ⟨⟩ ⟨calls', .live log'⟩)
    (silent : storesOf (Log.writes (later ++ [lock])) = [])
    (taken : ⟨.advisory, userId, .update⟩ ∈ lock.locks) (linked : ReadCommitted.Linked opening h final)
    (inside : log' <:+ final) (rest : storesOf (Log.writes final) = storesOf (Log.writes log'))
    (looked : force = false → ∀ prep ∈ prepared, ∃ query ∈ later, ∀ id row,
      (query.snap.db .receiptImages).get id = some row → row.userId = userId →
        row.imageSha256 ≠ prep.sha256Hex)
    (room : (Unused h .receipts receiptId ∧ (prepared.length : ℤ) ≤ setup.maxImagesPerReceipt) ∨
      ∃ count ∈ later, (((imagesOf count.snap.db receiptId).length + prepared.length : ℕ) : ℤ) ≤
        setup.maxImagesPerReceipt) :
    (deposits setup jobs).commits h (opening.commit calls' final stop) := by
  have hashed := hashed_of_prepared isPrepared
  obtain ⟨log, same, within⟩ := Prog.Yields.suffix ran rfl
  obtain rfl := Phase.live.inj same
  obtain ⟨_, _, ended, kept, rows, puts, stored, isPut, hashes, objects, owned⟩ :=
    returns_storeImages hashed ran
  obtain ⟨rfl, live⟩ := Scope.mk.inj ended
  obtain rfl := Phase.live.inj live
  rw [silent, List.nil_append] at stored
  have isFinal : storesOf (Log.writes final) = rows := rest.trans stored
  have made : normalized calls' = done := by
    rw [kept]
    rw [← List.append_nil (normalizing done), normalized_normalizing]
    rfl
  have isPut' : putsOf calls' = puts := by rw [isPut, putsOf_normalizing, List.nil_append]
  exact fun _ => ⟨job, batch, userId, force, receiptId, assigned, isBatch, isDeposit,
    storesBatch isPrepared made raws isFinal hashes owned,
    deposited linked (within.trans inside) taken isFinal owned (isPut' ▸ objects) hashes looked
      room⟩

/-- A call that puts nothing, and no commit. -/
def Untouched {α : Type} : Post store outside α := fun _ own later =>
  (∃ done, own.calls = normalizing done) ∧ History.ofTid own.tid later.history = []

/-- What an upload stores is its batch, on a receipt of its own. -/
theorem safe_uploadReceipt (assigned : jobs tid = some (.uploadReceipt userId batch force))
    (unborn : History.ofTid tid world.history = []) :
    Safe ⟨setup, deposits setup jobs, fun _ => True⟩ (uploadReceipt setup userId batch force)
      (fun value own later => value.isRight = true → Untouched value own later)
      (fun _ _ _ => True) (idle tid []) world := by
  refine safe_ofExcept_bind (fun _ fits => ?_) fun _ _ => trivial
  refine Svc.wp_bind (Svc.wp_mono (safe_prepareImages (fun _ => free_deposits (by simp)) batch) ?_
    fun _ _ _ _ => trivial)
  rintro prepared _ later ⟨done, rfl, raws, isPrepared, toLater⟩
  rw [List.append_nil]
  refine safe_transaction (Svc.inside_rollingBack ?_) (abandons_rollingBack _) ?_ ?_
    fun _ _ _ _ _ => trivial
  · exact Svc.inside_bind (inside_execSql _) fun _ =>
      Svc.inside_bind (inside_conflictUnlessForced _ _ _) (inside_unlessConflict
        (Svc.inside_bind (inside_execSql _) fun _ => Svc.inside_bind (inside_storeImages _ _ _
          (free_deposits (by simp)) fun _ _ _ => free_deposits (by simp)) fun _ =>
            Svc.inside_pure _))
  · intro opening value calls' log history stop same ran _ _ linked _
    obtain ⟨lock, ctx, advisory, rest⟩ := returns_exec_bind.mp (returns_rollingBack.mp ran)
    obtain ⟨conflict, _, checked, rest⟩ := returns_bind.mp rest
    cases conflict with
    | some conflict =>
        obtain ⟨_, _, rolled, rest⟩ := returns_bind.mp rest
        obtain rfl := returns_rollback.mp rolled
        simp at rest
    | none =>
        obtain ⟨extra, rfl, quiet, looked⟩ :=
          returns_noConflict (by simp [advisory.writes, advisoryLock]) checked
        obtain ⟨entry, ctx', insert, rest⟩ := returns_exec_bind.mp rest
        obtain ⟨_, _, stored, rest⟩ := returns_bind.mp rest
        obtain ⟨-, ended⟩ := returns_pure.mp rest
        obtain rfl := ended
        have new := insert.insert
        refine commits_storeImages (entry :: extra) (same ▸ assigned) rfl rfl isPrepared
          raws stored ?_ (advisory.lock_mem (List.mem_singleton_self _)) linked List.suffix_rfl rfl
          (fun unforced prep member => ?_) (Or.inl ⟨?_, ?_⟩)
        · apply storesOf_eq_nil
          simp [Log.writes_append, quiet, advisory.writes, advisoryLock, new.1]
        · obtain ⟨query, among, absent⟩ := looked unforced prep member
          exact ⟨query, List.mem_cons_of_mem _ among, absent⟩
        · have member : entry ∈ log := by
            obtain ⟨_, same, within⟩ := Prog.Yields.suffix stored rfl
            obtain rfl := Phase.live.inj same
            exact within.subset List.mem_cons_self
          exact (linked.held entry member).unused (linked.past entry member) new.2.2.1 new.2.1
        · have count : prepared.length = batch.length := by
            rw [isPrepared, List.length_map, ← raws, List.length_map]
          exact count ▸ fits_of_tooManyImages fits
  · intro opening value scope last same ran ended isConflict
    obtain ⟨lock, ctx, -, rest⟩ := returns_exec_bind.mp (returns_rollingBack.mp ran)
    obtain ⟨conflict, _, checked, rest⟩ := returns_bind.mp rest
    obtain ⟨extra, rfl, -⟩ := returns_conflictUnlessForced checked
    cases conflict with
    | some conflict =>
        obtain ⟨_, _, rolled, rest⟩ := returns_bind.mp rest
        obtain rfl := returns_rollback.mp rolled
        obtain ⟨-, rfl⟩ := returns_pure.mp rest
        have untouched : Foreign opening.tid later.history last.history := ended
        exact ⟨⟨done, rfl⟩, (same ▸ untouched).same.trans (toLater.same.trans unborn)⟩
    | none =>
        obtain ⟨_, _, -, rest⟩ := returns_bind.mp rest
        obtain ⟨_, _, -, rest⟩ := returns_bind.mp rest
        obtain ⟨rfl, -⟩ := returns_pure.mp rest
        cases isConflict

/-- So is what an addition stores, on a receipt that has room for it. -/
theorem safe_addImages (assigned : jobs tid = some (.addImages userId receiptId batch force))
    (unborn : History.ofTid tid world.history = []) :
    Safe ⟨setup, deposits setup jobs, fun _ => True⟩
      (addImages setup userId receiptId batch force)
      (fun value own later => value.isRight = true → Untouched value own later)
      (fun _ _ _ => True) (idle tid []) world := by
  refine Svc.wp_bind (safe_read (fun _ => rfl) (fun start entry ctx before _ toEntry toBefore => ?_)
    fun _ _ _ => trivial)
  cases owned : ((selectOwned userId receiptId) ctx).result with
  | nil => exact Svc.wp_throw trivial
  | cons _ rest =>
      refine Svc.wp_bind (Svc.wp_pure (Svc.wp_bind (Svc.wp_mono
        (safe_prepareImages (fun _ => free_deposits (by simp)) batch) ?_ fun _ _ _ _ => trivial)))
      rintro prepared _ later ⟨done, rfl, raws, isPrepared, toLater⟩
      rw [List.append_nil]
      refine safe_transaction (Svc.inside_rollingBack ?_) (abandons_rollingBack _) ?_ ?_
        fun _ _ _ _ _ => trivial
      · exact Svc.inside_bind (inside_execSql _) fun _ => Svc.inside_bind (inside_execSql _)
          fun _ => Svc.inside_bind (inside_ofExcept _) fun _ =>
            Svc.inside_bind (inside_conflictUnlessForced _ _ _) (inside_unlessConflict
              (Svc.inside_bind (inside_storeImages _ _ _ (free_deposits (by simp))
                fun _ _ _ => free_deposits (by simp)) fun _ =>
                Svc.inside_bind (inside_execSql _) fun _ => Svc.inside_pure _))
      · intro opening value calls' log history stop same ran _ _ linked _
        obtain ⟨lock, ctx', advisory, rest⟩ := returns_exec_bind.mp (returns_rollingBack.mp ran)
        obtain ⟨count, ctx'', counted, rest⟩ := returns_exec_bind.mp rest
        obtain ⟨_, fits, rest⟩ := returns_ofExcept_bind.mp rest
        obtain ⟨conflict, _, checked, rest⟩ := returns_bind.mp rest
        cases conflict with
        | some conflict =>
            obtain ⟨_, _, rolled, rest⟩ := returns_bind.mp rest
            obtain rfl := returns_rollback.mp rolled
            simp at rest
        | none =>
            obtain ⟨extra, rfl, quiet, looked⟩ := returns_noConflict
              (by simp [advisory.writes, advisoryLock, counted.writes_query]) checked
            obtain ⟨_, _, stored, rest⟩ := returns_bind.mp rest
            obtain ⟨_, log', rfl, -⟩ := returns_storeImages (hashed_of_prepared isPrepared) stored
            obtain ⟨requeued, last, update, rest⟩ := returns_exec_bind.mp rest
            obtain ⟨-, ended⟩ := returns_pure.mp rest
            obtain ⟨rfl, live⟩ := Scope.mk.inj ended
            obtain rfl := Phase.live.inj live
            have snapshot : ctx''.snap = count.snap.db := by
              rw [counted.snap]
              simp [advisory.writes, advisoryLock]
            refine commits_storeImages (extra ++ [count]) (same ▸ assigned) rfl rfl
              isPrepared raws (by simpa using stored) ?_
              (advisory.lock_mem (List.mem_singleton_self _)) linked (List.suffix_cons _ _) ?_
              (fun unforced prep member => ?_) (Or.inr ⟨count, by simp, ?_⟩)
            · apply storesOf_eq_nil
              simp [Log.writes_append, quiet, advisory.writes, advisoryLock, counted.writes_query]
            · have none : storesOf requeued.writes = [] := by
                apply storesOf_eq_nil
                rw [update.writes]
                intro write member
                obtain ⟨_, -, rfl⟩ := List.mem_map.mp member
                simp
              rw [Log.writes_cons, storesOf_append, none, List.append_nil]
            · obtain ⟨query, among, absent⟩ := looked unforced prep member
              exact ⟨query, List.mem_append_left _ among, absent⟩
            · rw [← snapshot]
              exact fits_of_tooManyImages fits
      · intro opening value scope last same ran ended isConflict
        obtain ⟨lock, ctx', -, rest⟩ := returns_exec_bind.mp (returns_rollingBack.mp ran)
        obtain ⟨count, ctx'', -, rest⟩ := returns_exec_bind.mp rest
        obtain ⟨_, -, rest⟩ := returns_ofExcept_bind.mp rest
        obtain ⟨conflict, _, checked, rest⟩ := returns_bind.mp rest
        obtain ⟨extra, rfl, -⟩ := returns_conflictUnlessForced checked
        cases conflict with
        | some conflict =>
            obtain ⟨_, _, rolled, rest⟩ := returns_bind.mp rest
            obtain rfl := returns_rollback.mp rolled
            obtain ⟨-, rfl⟩ := returns_pure.mp rest
            have untouched : Foreign opening.tid later.history last.history := ended
            refine ⟨⟨done, rfl⟩, (same ▸ untouched).same.trans (toLater.same.trans ?_)⟩
            exact toBefore.same.trans (toEntry.same.trans unborn)
        | none =>
            obtain ⟨_, _, -, rest⟩ := returns_bind.mp rest
            obtain ⟨_, _, -, rest⟩ := returns_bind.mp rest
            obtain ⟨rfl, -⟩ := returns_pure.mp rest
            cases isConflict

/-- The keys of a receipt of the user's. -/
theorem mem_selectOwnedKeys {ctx : Ctx store} {key : String} :
    key ∈ (selectOwnedKeys userId receiptId ctx).result ↔
      ∃ id row, (ctx.snap .receiptImages).get id = some row ∧ row.imageKey = key ∧
        row.receiptId = receiptId ∧
        ((ctx.snap .receipts).get receiptId).map ReceiptRow.userId = some userId := by
  simp only [selectOwnedKeys, Stmt.query, List.mem_map, List.mem_filter, Rows.mem_list,
    Prod.exists, Bool.and_eq_true, beq_iff_eq]
  constructor
  · rintro ⟨id, row, ⟨stored, rfl, owned⟩, rfl⟩
    exact ⟨id, row, stored, rfl, rfl, owned⟩
  · rintro ⟨id, row, stored, rfl, rfl, owned⟩
    exact ⟨id, row, ⟨stored, rfl, owned⟩, rfl⟩

/-- What a DELETE removes it finds under its lock. -/
theorem deleted {start : ℕ} {entry : Entry store outside} {ctx : Ctx store} {id : ℕ}
    (ran : Entry.RanFirst (schema setup.lower) start (deleteOwned setup userId receiptId) entry ctx)
    (member : id ∈ (deleteOwned setup userId receiptId ctx).result) :
    ⟨.receipts, receiptId, none, .deleteReceipt⟩ ∈ entry.writes ∧ ∃ receipt : ReceiptRow,
      (entry.cur.db .receipts).get receiptId = some receipt ∧ receipt.userId = userId := by
  obtain ⟨⟨other, receipt⟩, found, rfl⟩ := List.mem_map.mp member
  obtain ⟨-, stored, kept⟩ := Ctx.mem_targets.mp found
  obtain ⟨isId, owner⟩ := Bool.and_eq_true_iff.mp kept
  obtain rfl : other = receiptId := beq_iff_eq.mp isId
  rw [ran.cur] at stored
  refine ⟨?_, receipt, stored, beq_iff_eq.mp owner⟩
  rw [ran.writes]
  exact List.mem_flatMap.mpr ⟨_, found, List.mem_cons_self⟩

/-- A removal whose failure is only logged. -/
theorem safe_removeQuietly {regime : Regime} {key : String} {post : Post store outside Unit}
    {raised : Post store outside Err} (allowed : ∀ history, world.history <:+ history →
      regime.ok.calls tid calls (.removeImage key) history)
    (removed : ∀ reply (later : World store outside), world.history <:+ later.history →
      post () (idle tid (⟨.removeImage key, reply⟩ :: calls)) later)
    (raises : ∀ exception own later, raised exception own later) :
    Safe regime (removeQuietly key) post raised (idle tid calls) world := by
  refine Svc.wp_tryCatch (Svc.wp_call (fun history foreign => allowed history foreign.suffix)
    fun later reply foreign => ?_)
  cases reply with
  | ok value => exact removed (.ok value) later foreign.suffix
  | error exception =>
      change Safe regime (if exception = .nonStd then throw exception else pure ()) post raised _ _
      split
      · exact Svc.wp_throw (raises _ _ _)
      · exact Svc.wp_pure (removed (.error exception) later foreign.suffix)

/-- A deletion removes the objects that it has seen, once the receipt is gone. -/
theorem safe_deleteReceipt {base : History store outside} (past : base <:+ world.history) :
    Safe ⟨setup, deposits setup jobs, fun _ => True⟩ (deleteReceipt setup userId receiptId)
      (fun value own later => value = true →
        Erased later.history userId receiptId base own.calls)
      (fun _ _ _ => True) (idle tid calls) world := by
  refine Svc.wp_bind (safe_read (fun _ => rfl) (fun start entry ctx before ran toSeen toBefore => ?_)
    fun _ _ _ => trivial)
  refine Svc.wp_bind (Svc.wp_exec (fun _ _ _ => trivial) ?_ ?_)
  · intro opening last ctx' _ delete _ _ _ some
    refine absurd (storesOf_eq_nil fun write member => ?_) some
    obtain ⟨id, rfl | action⟩ :=
      delete.delete_cases ((List.mem_append.mp member).resolve_left (by simp))
    · simp
    · change write ∈ onDelete ctx'.cur .deleteReceipt .receipts id at action
      simp [label_onDelete action]
  · intro opening last ctx' later _ delete toSnap toCur grown
    cases isResult : (deleteOwned setup userId receiptId ctx').result with
    | nil => exact Svc.wp_pure fun impossible => by cases impossible
    | cons other rest =>
        obtain ⟨removes, receipt, stored, owner⟩ := deleted delete (isResult ▸ List.mem_cons_self)
        rw [if_neg (List.ne_nil_of_mem removes)] at grown
        have inside : entry.snap <:+ last.cur :=
          toBefore.suffix.trans (toSnap.suffix.trans toCur.suffix)
        refine Svc.wp_bind (Svc.wp_mono (Svc.wp_forM (fun left own now => ∃ made,
          own = idle tid made ∧ later.history <:+ now.history ∧
            ∀ key ∈ (selectOwnedKeys userId receiptId ctx).result, key ∈ left ∨
              ∃ said ∈ made, said.call = .removeImage key)
          ?_ ⟨calls, rfl, List.suffix_rfl, fun key member => Or.inl member⟩) ?_
          fun _ _ _ => id)
        · rintro key left _ now suffix ⟨made, rfl, old, asked⟩
          refine safe_removeQuietly (fun history grew => ?_) (fun reply then_ grew => ?_)
            fun _ _ _ => trivial
          · obtain ⟨image, row, there, isKey, receipt', -⟩ :=
              mem_selectOwnedKeys.mp (suffix.subset List.mem_cons_self)
            rintro other same
            obtain rfl := Call.removeImage.inj same
            rw [ran.snap] at there
            exact ⟨entry.snap, last.cur, _, image, row, inside,
              grown ▸ old.trans grew, there, isKey, List.mem_append_right _ (receipt'.symm ▸ removes)⟩
          · refine ⟨_, rfl, old.trans grew, fun other member => ?_⟩
            rcases asked other member with waiting | ⟨said, before', same⟩
            · rcases List.mem_cons.mp waiting with rfl | still
              · exact Or.inr ⟨_, List.mem_cons_self, rfl⟩
              · exact Or.inl still
            · exact Or.inr ⟨said, List.mem_cons_of_mem _ before', same⟩
        · rintro _ _ now ⟨made, rfl, old, asked⟩
          refine Svc.wp_pure fun _ => ?_
          refine ⟨entry.snap, last.cur, _, receipt, past.trans toSeen.suffix, inside,
            grown ▸ old, stored, owner, List.mem_append_right _ removes, ?_⟩
          intro image row there on owned
          refine (asked row.imageKey (mem_selectOwnedKeys.mpr
            ⟨image, row, ?_, rfl, on, ?_⟩)).resolve_left List.not_mem_nil
          · rw [ran.snap]
            exact there
          · rw [ran.snap]
            exact owned

end ReceiptService

/-- A request that ends with a conflict has put nothing, and committed nothing. -/
def refusals (jobs : ℕ → Option Job) : Terms store outside Job where
  jobs := jobs
  ready _ _ := True
  done job answer tid calls h := job.deposit.isSome → answer = .conflict →
    (∃ done, calls = normalizing done) ∧ History.ofTid tid h = []

/-- Only a conflict is told as one. -/
theorem isRight_of_conflict {α : Type} {value : α ⊕ ImageConflict}
    (answer : Job.orConflict value = .conflict) : value.isRight = true := by
  cases value with
  | inl returned => cases answer
  | inr conflict => rfl

/-- A job that neither stores nor removes an image. -/
theorem wp_of_neither {job : Job} {world : World store outside}
    (stores : Label.storeImage ∉ job.labels)
    (removes : ∀ key, job.mayCall (.removeImage key) = false) (none : job.deposit = none) :
    ((application setup).prog job).wp (deposits setup jobs) (application setup).schema
      (Proc.post (refusals jobs) job) { tid := tid } world := by
  apply Prog.wp_of_within (within_prog setup job)
  · intro h c _ writes _ some
    refine absurd (storesOf_eq_nil fun write made same => ?_) some
    exact stores (same ▸ (writes write made).1)
  · intro made c h mayCall key same
    rw [same] at mayCall
    exact absurd ((removes key).symm.trans mayCall) Bool.false_ne_true
  · intro ending own later _
    exact ⟨fun _ _ => trivial, fun some => by simp [none] at some⟩
  · exact Local.Stays.fresh _ _

/-- Every job stores and removes images so. -/
theorem keeps_deposits (setup : Setup) (jobs : ℕ → Option Job) :
    Keeps (application setup) (deposits setup jobs) (refusals jobs) where
  root _ _ _ := trivial
  mono _ _ _ _ _ := trivial
  lasting _ _ _ _ _ _ foreign done isDeposit refused :=
    (done isDeposit refused).imp_right foreign.same.trans
  safe job tid world assigned _ _ unborn := by
    cases job with
    | uploadReceipt userId batch force =>
        refine wp_serve (Svc.wp_mono (ReceiptService.safe_uploadReceipt assigned unborn) ?_ ?_)
        · exact fun value own later untouched => ⟨fun _ member => absurd member List.not_mem_nil,
            fun _ answer => untouched (isRight_of_conflict answer)⟩
        · exact fun _ _ _ _ => ⟨fun _ member => absurd member List.not_mem_nil,
            fun _ answer => nomatch answer⟩
    | addImages userId receiptId batch force =>
        refine wp_serve (Svc.wp_mono (ReceiptService.safe_addImages assigned unborn) ?_ ?_)
        · exact fun value own later untouched => ⟨fun _ member => absurd member List.not_mem_nil,
            fun _ answer => untouched (isRight_of_conflict answer)⟩
        · exact fun _ _ _ _ => ⟨fun _ member => absurd member List.not_mem_nil,
            fun _ answer => nomatch answer⟩
    | deleteReceipt userId receiptId =>
        exact wp_serve (Svc.wp_mono (ReceiptService.safe_deleteReceipt List.suffix_rfl)
          (fun _ _ _ _ => ⟨fun _ member => absurd member List.not_mem_nil, fun some => nomatch some⟩)
          fun _ _ _ _ => ⟨fun _ member => absurd member List.not_mem_nil, fun some => nomatch some⟩)
    | _ =>
        apply wp_of_neither
        · simp [Job.labels]
        · exact fun _ => rfl
        · rfl

end ReceiptScanner

import ReceiptScanner.Runs.Items
import ReceiptScanner.Runs.Reference

/-!
# What the receipt operations promise

Upload and its images, manual entry, PATCH, retry and delete.
-/

namespace ReceiptScanner

open ReadCommitted

variable {setup : Setup} {opening : Opening} {calls calls' : List (Said outside)} {log : Log store outside}
  {scope scope' : Scope store outside}

namespace ReceiptService

section Inside

variable {ok : Guarantee store outside}

theorem inside_findConflict (userId : ℕ) (prepared : List PreparedImage) :
    Svc.Inside ok (findConflict userId prepared) := by
  induction prepared with
  | nil => exact Svc.inside_pure _
  | cons prep rest ih =>
      refine Svc.inside_bind (inside_execSql _) fun dup => ?_
      cases dup with
      | nil => exact ih
      | cons conflict more => exact Svc.inside_pure _

theorem inside_conflictUnlessForced (userId : ℕ) (prepared : List PreparedImage) (force : Bool) :
    Svc.Inside ok (conflictUnlessForced userId prepared force) := by
  unfold conflictUnlessForced
  split
  · exact Svc.inside_pure _
  · exact inside_findConflict _ _

/-- Whoever may draw a token and put an image at any time may store images. -/
theorem inside_storeImages (userId receiptId : ℕ) (prepared : List PreparedImage)
    (draws : ok.Free .generateToken)
    (puts : ∀ key contentType bytes, ok.Free (.putImage key contentType bytes)) :
    Svc.Inside ok (storeImages userId receiptId prepared) :=
  Svc.inside_forM _ fun _ => Svc.inside_bind (Svc.inside_call draws) fun _ =>
    Svc.inside_bind (Svc.inside_call (puts _ _ _)) fun _ =>
      Svc.inside_bind (inside_execSql _) fun _ => Svc.inside_pure _

/-- What follows the duplicate check, which rolls back when it hits. -/
theorem inside_unlessConflict {β : Type} {next : Task (β ⊕ ImageConflict)}
    (inside : Svc.Inside ok next) (conflict : Option ImageConflict) :
    Svc.Inside ok (match conflict with
      | some conflict => do
          rollback
          pure (.inr conflict)
      | none => next) := by
  cases conflict with
  | some conflict => exact Svc.inside_bind Svc.inside_rollback fun _ => Svc.inside_pure _
  | none => exact inside

theorem inside_validateReferences (userId : ℕ) (receiptId : Option ℕ) (r : EditableReceipt) :
    Svc.Inside ok (validateReferences userId receiptId r) :=
  Svc.inside_bind
    (Svc.inside_forM_option _ fun _ => Svc.inside_bind (inside_execSql _) fun _ =>
      Svc.inside_bind (inside_firstRow _ _) fun _ => Svc.inside_pure _)
    fun _ => Svc.inside_forM_option _ fun _ => Svc.inside_bind (inside_ofExcept _) fun _ =>
      Svc.inside_bind (inside_execSql _) fun _ => Svc.inside_bind (inside_firstRow _ _) fun _ =>
        inside_ofExcept _

theorem inside_checkSideChange (receiptId : ℕ) (wasIncomeSide isIncomeSide : Bool) :
    Svc.Inside ok (checkSideChange receiptId wasIncomeSide isIncomeSide) := by
  unfold checkSideChange
  split
  · exact Svc.inside_bind (inside_execSql _) fun _ => inside_ofExcept _
  · exact Svc.inside_pure _

end Inside

section Images

/-- The duplicate check only reads. -/
theorem returns_conflictUnlessForced {userId : ℕ} {prepared : List PreparedImage} {force : Bool}
    {found : Option ImageConflict}
    (ran : Returns setup opening.start (conflictUnlessForced userId prepared force)
      ⟨calls, .live log⟩ found scope') :
    ∃ extra : Log store outside, scope' = ⟨calls, .live (extra ++ log)⟩ ∧
      Log.writes extra = [] := by
  unfold conflictUnlessForced at ran
  split at ran
  · obtain ⟨-, rfl⟩ := returns_pure.mp ran
    exact ⟨[], rfl, rfl⟩
  · induction prepared generalizing log with
    | nil =>
        obtain ⟨-, rfl⟩ := returns_pure.mp ran
        exact ⟨[], rfl, rfl⟩
    | cons prep rest ih =>
        obtain ⟨entry, ctx, query, after⟩ := returns_exec_bind.mp ran
        split at after
        · obtain ⟨-, rfl⟩ := returns_pure.mp after
          exact ⟨[entry], rfl, by simp [query.writes_query]⟩
        · obtain ⟨extra, rfl, silent⟩ := ih after
          refine ⟨extra ++ [entry], by simp, ?_⟩
          simp [Log.writes_append, silent, query.writes_query]

/-- What the commit must show for the images of a receipt that it queues. -/
def Queued (userId receiptId : ℕ) (h : History store outside) (c : Commit store outside) : Prop :=
  OwnedReceipt h c receiptId userId ∧ ∃ (row : ReceiptRow) (label : Label),
    ⟨.receipts, receiptId, some row, label⟩ ∈ c.writes ∧ row.scanState = .uploaded

/-- One image: the object first, then its row, which locks the receipt. -/
theorem returns_storeImage {userId receiptId : ℕ} {prep : PreparedImage}
    (ran : Returns setup opening.start (storeImage userId receiptId prep) ⟨calls, .live log⟩ ⟨⟩
      scope') :
    Adds setup opening (Queued userId receiptId) [.receiptImages] ⟨calls, .live log⟩ scope' ∧
      ∃ (entry : Entry store outside) (made : List (Said outside)), scope' = ⟨made, .live (entry :: log)⟩ ∧
        ⟨.receipts, receiptId, .keyShare⟩ ∈ entry.locks ∧
        (Log.Clean log .receipts → (entry.cur.db .receipts).get receiptId ≠ none) := by
  obtain ⟨random, _, drawn, rest⟩ := returns_bind.mp ran
  obtain ⟨_, -, rfl⟩ := returns_call.mp drawn
  obtain ⟨_, _, put, rest⟩ := returns_bind.mp rest
  obtain ⟨_, -, rfl⟩ := returns_call.mp put
  obtain ⟨entry, ctx, insert, rest⟩ := returns_exec_bind.mp rest
  obtain ⟨-, rfl⟩ := returns_pure.mp rest
  obtain ⟨made, unused, locked, refs⟩ := insert.insert
  obtain ⟨parent, present⟩ :=
    refs (.receipts, receiptId) (by simp [schema, ReceiptScanner.refs])
  refine ⟨⟨rfl, fun log' live => ?_⟩, entry, _, rfl, parent, fun clean => ?_⟩
  · obtain rfl := Phase.live.inj live
    refine ⟨[entry], rfl, by simp [made], singly_insert insert,
      fun final h calls stop inside linked given write isMade => ?_⟩
    simp only [Log.writes_cons, Log.writes_nil, List.nil_append, made,
      List.mem_singleton] at isMade
    subst isMade
    obtain ⟨owned, row, label, queued, state⟩ := given
    exact ImageWrote.stored owned queued state
      (Pledged.unused List.mem_cons_self locked unused final h calls stop inside linked)
  · rw [← insert.cur_table clean]
    exact present (by simp)

/-- The images of a batch. -/
theorem adds_storeImages {userId receiptId : ℕ} {prepared : List PreparedImage}
    (live : ∃ log, scope.phase = .live log)
    (ran : Returns setup opening.start (storeImages userId receiptId prepared) scope ⟨⟩ scope') :
    Adds setup opening (Queued userId receiptId) [.receiptImages] scope scope' := by
  have apart : ∀ table ∈ ([] : List Table), table ∉ [Table.receiptImages] := by simp
  refine Adds.forM apart (fun prep _ scope scope' live _ ran => ?_) live (by simp) ran
  obtain ⟨calls, phase⟩ := scope
  obtain ⟨log, rfl⟩ := live
  exact (returns_storeImage ran).1

/-- Normalizing a batch keeps the promise. -/
theorem promises_prepareImages (rawImages : List String) :
    Promises (ledger setup) (prepareImages setup rawImages) :=
  promises_mapM _ fun _ => promises_bind (promises_call (free_call (by simp))) fun _ =>
    promises_pure _

/-- POST /receipts keeps the promise. -/
theorem promises_uploadReceipt (userId : ℕ) (images : List String) (force : Bool) :
    Promises (ledger setup) (uploadReceipt setup userId images force) := by
  refine promises_ofExcept_bind fun _ _ => promises_bind (promises_prepareImages _) fun prepared =>
    promises_rollingBack ?_ ?_
  · exact Svc.inside_bind (inside_execSql _) fun _ =>
      Svc.inside_bind (inside_conflictUnlessForced _ _ _) (inside_unlessConflict
        (Svc.inside_bind (inside_execSql _) fun _ =>
          Svc.inside_bind (inside_storeImages _ _ _ (free_call (by simp))
            fun _ _ _ => free_call (by simp)) fun _ => Svc.inside_pure _))
  · intro opening value calls calls' log history stop _ ran linked _
    obtain ⟨lock, ctx, advisory, rest⟩ := returns_exec_bind.mp ran
    obtain ⟨conflict, _, checked, rest⟩ := returns_bind.mp rest
    obtain ⟨extra, rfl, quiet⟩ := returns_conflictUnlessForced checked
    have silent : Log.writes (extra ++ [lock]) = [] := by
      simp [Log.writes_append, quiet, advisory.writes, advisoryLock]
    cases conflict with
    | some conflict =>
        obtain ⟨_, _, rolled, rest⟩ := returns_bind.mp rest
        obtain rfl := returns_rollback.mp rolled
        simp at rest
    | none =>
        obtain ⟨entry, ctx', insert, rest⟩ := returns_exec_bind.mp rest
        obtain ⟨_, _, stored, rest⟩ := returns_bind.mp rest
        obtain ⟨-, rfl⟩ := returns_pure.mp rest
        obtain ⟨made, unused, locked, -⟩ := insert.insert
        have isMade : (⟨.receipts, ctx'.next .receipts, some (uploadedRow userId opening.start),
            .uploadReceipt⟩ : Write store) ∈ entry.writes := by simp [made]
        have queued : Pledged opening (entry :: (extra ++ [lock]))
            (Queued userId (ctx'.next .receipts)) :=
          (Pledged.wrote List.mem_cons_self isMade).mono fun _ _ wrote =>
            ⟨⟨_, rfl, Or.inr ⟨_, wrote⟩⟩, _, _, wrote, rfl⟩
        have uploaded : Adds setup opening (fun _ _ => True) [.receipts, .receiptImages]
            ⟨calls, .live (extra ++ [lock])⟩ ⟨calls, .live (entry :: (extra ++ [lock]))⟩ := by
          refine Adds.single (by simp [made]) (singly_insert insert)
            fun final h calls stop inside linked _ write member => ?_
          rw [made, List.mem_singleton] at member
          subst member
          exact ReceiptWrote.uploaded
            (Pledged.unused List.mem_cons_self locked unused final h calls stop inside linked)
        exact (uploaded.trans (((adds_storeImages ⟨_, rfl⟩ stored).under queued
          fun _ _ fact _ => fact).widen (by simp))).due silent linked trivial

/-- The requeued row is the committed one. -/
theorem adds_requeue {receiptId : ℕ} {entry : Entry store outside} {ctx : Ctx store}
    {given : History store outside → Commit store outside → Prop}
    (clean : Log.Clean log .receipts)
    (update : Entry.Ran (schema setup.lower) opening.start log.writes (requeue receiptId) entry
      ctx) :
    Adds setup opening given [.receipts] ⟨calls, .live log⟩ ⟨calls, .live (entry :: log)⟩ := by
  refine Adds.single (fun write made => ?_) (singly_cons (singly_of_apart update.apart_update)
    fun write made _ => ?_) fun final h calls stop inside linked _ write made => ?_
  · obtain ⟨id, before, rfl, -⟩ := update.mem_update clean made
    exact List.mem_cons_self
  · obtain ⟨id, before, rfl, -⟩ := update.mem_update clean made
    exact clean
  · obtain ⟨id, before, rfl, stored, -, locked⟩ := update.mem_update clean made
    have still := Pledged.get List.mem_cons_self (by decide) locked final h calls stop inside linked
    exact ReceiptWrote.requeued (still.trans stored)

/-- The receipt that an image was stored for is still there, and is queued. -/
theorem queued_of_locked {userId receiptId : ℕ} {row : ReceiptRow} {seen : History store outside}
    {h : History store outside} {stop : ℕ} {image entry : Entry store outside} {ctx : Ctx store}
    (clean : Log.Clean log .receipts)
    (update : Entry.Ran (schema setup.lower) opening.start log.writes (requeue receiptId) entry ctx)
    (linked : Linked opening h (entry :: log)) (member : image ∈ log)
    (locked : ⟨.receipts, receiptId, .keyShare⟩ ∈ image.locks)
    (stored : (image.cur.db .receipts).get receiptId ≠ none) (past : seen <:+ h)
    (saw : (seen.db .receipts).get receiptId = some row) (owner : row.userId = userId) :
    Queued userId receiptId h (opening.commit calls (entry :: log) stop) := by
  obtain ⟨inSnap, inCur⟩ := present_of_locked linked member locked stored
  obtain ⟨first, atSnap⟩ := Option.ne_none_iff_exists'.mp inSnap
  obtain ⟨before, atCur⟩ := Option.ne_none_iff_exists'.mp inCur
  rw [← update.snap_table clean] at atSnap
  rw [← update.cur_table clean] at atCur
  have hit := update.update_hit atSnap (by simp) atCur (by simp)
  exact ⟨⟨row, owner, Or.inl ⟨seen, past, saw⟩⟩, _, _,
    Log.mem_writes.mpr ⟨entry, List.mem_cons_self, hit⟩, rfl⟩

/-- What follows the checks of `addImages` promises what it writes. -/
theorem wrote_addImages {userId receiptId : ℕ} {prepared : List PreparedImage} {row : ReceiptRow}
    {seen history : History store outside} {stop : ℕ} {log' : Log store outside}
    {returned : Unit ⊕ ImageConflict} (silent : Log.writes log = [])
    (ran : Returns setup opening.start (do
      storeImages userId receiptId prepared
      let _ ← execSql .transaction (requeue receiptId)
      pure (.inl ())) ⟨calls, .live log⟩ returned ⟨calls', .live log'⟩)
    (past : seen <:+ history) (saw : (seen.db .receipts).get receiptId = some row)
    (owner : row.userId = userId) (linked : Linked opening history log') :
    Promised setup history (opening.commit calls' log' stop) := by
  obtain ⟨_, between, stored, rest⟩ := returns_bind.mp ran
  have clean : Log.Clean log .receipts := by simp [Log.Clean, silent]
  cases prepared with
  | nil =>
      obtain ⟨-, rfl⟩ := Svc.yields_forM_nil.mp stored
      obtain ⟨entry, ctx, update, rest⟩ := returns_exec_bind.mp rest
      obtain ⟨-, same⟩ := returns_pure.mp rest
      obtain ⟨rfl, rfl⟩ := same
      have requeued : Adds setup opening (fun _ _ => True) [.receipts] ⟨calls, .live log⟩
          ⟨calls, .live (entry :: log)⟩ := adds_requeue clean update
      exact requeued.due silent linked trivial
  | cons prep more =>
      -- The first image locks the receipt, so the requeue finds it.
      obtain ⟨middle, one, others⟩ := Svc.yields_forM_cons.mp stored
      obtain ⟨first, image, made, rfl, locked, present⟩ := returns_storeImage one
      have second := adds_storeImages ⟨image :: log, rfl⟩ others
      obtain ⟨extra, after, within, -⟩ := second.2 (image :: log) rfl
      obtain ⟨made', phase⟩ := between
      obtain rfl : phase = .live (extra ++ image :: log) := after
      have images := first.trans second
      have imageClean := images.clean (fun _ live => Phase.live.inj live ▸ clean) (by decide)
        ⟨log, rfl⟩ _ rfl
      obtain ⟨entry, ctx, update, rest⟩ := returns_exec_bind.mp rest
      obtain ⟨-, same⟩ := returns_pure.mp rest
      obtain ⟨rfl, rfl⟩ := same
      have requeued : Adds setup opening (Queued userId receiptId) [.receipts, .receiptImages]
          ⟨calls', .live (extra ++ image :: log)⟩ ⟨calls', .live (entry :: (extra ++ image :: log))⟩ :=
        (adds_requeue imageClean update).widen (by simp)
      exact ((images.widen (by simp)).trans requeued).due silent linked
        (queued_of_locked imageClean update linked (by simp) locked (present clean) past saw owner)

/-- The images go to a receipt that was seen as the user's. -/
theorem promises_addImages (userId receiptId : ℕ) (images : List String) (force : Bool) :
    Promises (ledger setup) (addImages setup userId receiptId images force) := by
  intro tid calls world _
  refine Svc.wp_bind (safe_read (fun _ => rfl) (fun start entry ctx later ran before during => ?_)
    fun _ _ _ => ⟨calls, rfl⟩)
  cases owned : ((selectOwned userId receiptId) ctx).result with
  | nil => exact ⟨calls, rfl⟩
  | cons _ rest =>
      obtain ⟨id, row, saw, kept, -⟩ := ran.mem_select (Log.clean_nil _)
        (show () ∈ ((selectOwned userId receiptId) ctx).result by simp [owned])
      simp only [Bool.and_eq_true, beq_iff_eq] at kept
      obtain ⟨rfl, owner⟩ := kept
      refine Svc.wp_bind (Svc.wp_pure (safe_bind (promises_prepareImages _) trivial
        (fun _ calls _ => ⟨calls, rfl⟩) fun prepared calls between toBetween => ?_))
      refine safe_transaction (Svc.inside_rollingBack ?_) (abandons_rollingBack _) ?_
        (fun _ _ scope' _ _ _ _ => ⟨scope'.calls, rfl⟩) fun _ made _ _ _ => ⟨made ++ calls, rfl⟩
      · exact Svc.inside_bind (inside_execSql _) fun _ => Svc.inside_bind (inside_execSql _)
          fun _ => Svc.inside_bind (inside_ofExcept _) fun _ =>
            Svc.inside_bind (inside_conflictUnlessForced _ _ _) (inside_unlessConflict
              (Svc.inside_bind (inside_storeImages _ _ _ (free_call (by simp))
                fun _ _ _ => free_call (by simp)) fun _ =>
                Svc.inside_bind (inside_execSql _) fun _ => Svc.inside_pure _))
      · intro opening returned calls' log history stop _ ran toHistory _ linked _
        obtain ⟨lock, ctx', advisory, rest⟩ := returns_exec_bind.mp (returns_rollingBack.mp ran)
        obtain ⟨count, ctx'', counted, rest⟩ := returns_exec_bind.mp rest
        obtain ⟨_, -, rest⟩ := returns_ofExcept_bind.mp rest
        obtain ⟨conflict, _, checked, rest⟩ := returns_bind.mp rest
        obtain ⟨extra, rfl, quiet⟩ := returns_conflictUnlessForced checked
        have silent : Log.writes (extra ++ [count, lock]) = [] := by
          simp [Log.writes_append, quiet, advisory.writes, advisoryLock, counted.writes_query]
        cases conflict with
        | some conflict =>
            obtain ⟨_, _, rolled, rest⟩ := returns_bind.mp rest
            obtain rfl := returns_rollback.mp rolled
            simp at rest
        | none =>
            have past := during.suffix.trans (toBetween.trans toHistory)
            exact wrote_addImages silent rest past saw owner linked

end Images

section References

variable {userId : ℕ} {self : Option ℕ} {r : EditableReceipt}

/-- The payment method of a receipt, if it has one, was seen as the user's. -/
theorem returns_paymentMethod {id : Option ℕ} (clean : Log.Clean log .paymentMethods)
    (ran : Returns setup opening.start (id.forM (checkPaymentMethod userId)) ⟨calls, .live log⟩ ⟨⟩
      scope') :
    ∃ extra : Log store outside, scope' = ⟨calls, .live (extra ++ log)⟩ ∧
      Log.writes extra = [] ∧ Pledged opening (extra ++ log) fun h _ => ∀ methodId, id = some methodId →
        ∃ (seen : History store outside) (row : PaymentMethodRow), seen <:+ h ∧
          (seen.db .paymentMethods).get methodId = some row ∧ row.userId = userId := by
  cases id with
  | none =>
      obtain ⟨-, rfl⟩ := returns_pure.mp ran
      exact ⟨[], rfl, rfl, fun _ _ _ _ _ _ methodId impossible => by simp at impossible⟩
  | some id =>
      obtain ⟨entry, ctx, select, rest⟩ := returns_exec_bind.mp ran
      obtain ⟨_, found, rest⟩ := returns_firstRow_bind.mp rest
      obtain ⟨-, rfl⟩ := returns_pure.mp rest
      obtain ⟨methodId, row, saw, kept, -⟩ := select.mem_select clean (List.mem_of_head? found)
      simp only [Bool.and_eq_true, beq_iff_eq] at kept
      obtain ⟨rfl, owner⟩ := kept
      refine ⟨[entry], rfl, by simp [select.writes_select], ?_⟩
      refine (Pledged.saw List.mem_cons_self).mono fun h _ seen other same => ?_
      obtain rfl := Option.some.inj same
      exact ⟨entry.snap, row, seen.1, saw, owner⟩

/-- The offset target, if there is one, was seen as the user's and of a target kind. -/
theorem returns_offsetTarget {id : Option ℕ} (clean : Log.Clean log .receipts)
    (ran : Returns setup opening.start (id.forM (checkOffsetTarget userId self)) ⟨calls, .live log⟩
      ⟨⟩ scope') :
    ∃ extra : Log store outside, scope' = ⟨calls, .live (extra ++ log)⟩ ∧
      Log.writes extra = [] ∧ Pledged opening (extra ++ log) fun h c => ∀ target, id = some target →
        self ≠ some target ∧ ∃ (seen : History store outside) (row : ReceiptRow), Saw h c seen ∧
          (seen.db .receipts).get target = some row ∧ row.userId = userId ∧
          (rulesFor row.kind).isOffsetTarget = true := by
  cases id with
  | none =>
      obtain ⟨-, rfl⟩ := returns_pure.mp ran
      exact ⟨[], rfl, rfl, fun _ _ _ _ _ _ target impossible => by simp at impossible⟩
  | some id =>
      obtain ⟨_, other, rest⟩ := returns_ofExcept_bind.mp ran
      obtain ⟨entry, ctx, select, rest⟩ := returns_exec_bind.mp rest
      obtain ⟨kind, found, rest⟩ := returns_firstRow_bind.mp rest
      obtain ⟨allowed, rfl⟩ := returns_ofExcept.mp rest
      obtain ⟨target, row, saw, kept, rfl⟩ := select.mem_select clean (List.mem_of_head? found)
      simp only [Bool.and_eq_true, beq_iff_eq] at kept
      obtain ⟨rfl, owner⟩ := kept
      refine ⟨[entry], rfl, by simp [select.writes_select], ?_⟩
      refine (Pledged.saw List.mem_cons_self).mono fun h c seen found same => ?_
      obtain rfl := Option.some.inj same
      exact ⟨by simpa using other, entry.snap, row, seen, saw, owner, by simpa using allowed⟩

/-- The reference checks only read, and what they saw stands. -/
theorem returns_validateReferences (silent : Log.writes log = [])
    (ran : Returns setup opening.start (validateReferences userId self r) ⟨calls, .live log⟩ ⟨⟩
      scope') :
    ∃ extra : Log store outside, scope' = ⟨calls, .live (extra ++ log)⟩ ∧
      Log.writes extra = [] ∧
      Pledged opening (extra ++ log) fun h c => References h c userId self r := by
  obtain ⟨_, between, first, second⟩ := returns_bind.mp ran
  obtain ⟨methods, rfl, quiet, paymentMethod⟩ :=
    returns_paymentMethod (by simp [Log.Clean, silent]) first
  obtain ⟨targets, rfl, alsoQuiet, offset⟩ :=
    returns_offsetTarget (by simp [Log.Clean, Log.writes_append, silent, quiet]) second
  refine ⟨targets ++ methods, by simp, by simp [Log.writes_append, quiet, alsoQuiet], ?_⟩
  rw [List.append_assoc]
  intro final h made stop inside linked
  exact {
    paymentMethod := paymentMethod final h made stop ((List.suffix_append _ _).trans inside) linked
    offset := offset final h made stop inside linked }

end References

/-- The items of a manual entry. -/
theorem adds_manualItems {userId receiptId : ℕ} {kind : Kind} {items : List ItemInput}
    (clean : ∀ table ∈ [Table.tags, .categories], CleanOf scope table)
    (live : ∃ log, scope.phase = .live log)
    (ran : Returns setup opening.start (items.forM fun item => do
      let _ ← ItemService.insert setup userId receiptId kind item) scope ⟨⟩ scope') :
    Adds setup opening
      (fun h c => OwnedReceipt h c receiptId userId ∧ KindKnown h c receiptId kind)
      [.items, .itemTags] scope scope' := by
  refine Adds.forM (by decide) (fun item _ scope scope' live clean ran => ?_) live clean ran
  obtain ⟨_, between, inserted, rest⟩ := returns_bind.mp ran
  obtain ⟨-, rfl⟩ := returns_pure.mp rest
  exact ItemService.adds_insert clean live inserted

/-- What a manual entry commits of receipts: the one that its body describes. -/
def EnteredReceipt (setup : Setup) (c : Commit store outside) (userId : ℕ) (body : Json) : Prop :=
  ∀ id (row : ReceiptRow) label, ⟨.receipts, id, some row, label⟩ ∈ c.writes →
    ∃ input purchaseDate, parseManualEntry body = .ok input ∧
      castDate? setup input.receipt.purchaseDate = .ok purchaseDate ∧
      row = manualRow setup userId input.receipt purchaseDate c.start

/-- POST /receipts/manual keeps any guarantee that allows the promised entry. -/
theorem promises_entry {regime : Regime} {userId : ℕ} {body : Json}
    (commits : ∀ (h : History store outside) c, regime.who c.tid → Promised regime.setup h c →
      EnteredReceipt regime.setup c userId body → regime.ok.commits h c) :
    Promises regime (createManual regime.setup userId body) := by
  refine promises_ofExcept_bind fun input parsed => promises_rollingBack ?_ ?_
  · exact Svc.inside_bind (inside_validateReferences _ _ _) fun _ =>
      Svc.inside_bind (inside_ofExcept _) fun _ => Svc.inside_bind (inside_execSql _) fun _ =>
        Svc.inside_bind (Svc.inside_forM _ fun _ => Svc.inside_bind
          (ItemService.inside_insert _ _ _ _) fun _ => Svc.inside_pure _) fun _ => Svc.inside_pure _
  · intro opening receiptId calls calls' log history stop who ran linked _
    obtain ⟨_, between, checked, rest⟩ := returns_bind.mp ran
    obtain ⟨extra, rfl, quiet, references⟩ := returns_validateReferences rfl checked
    rw [List.append_nil] at rest references
    obtain ⟨purchaseDate, dated, rest⟩ := returns_ofExcept_bind.mp rest
    obtain ⟨entry, ctx, insert, rest⟩ := returns_exec_bind.mp rest
    obtain ⟨_, after, items, rest⟩ := returns_bind.mp rest
    obtain ⟨-, rfl⟩ := returns_pure.mp rest
    obtain ⟨made, unused, locked, -⟩ := insert.insert
    have isMade : (⟨.receipts, ctx.next .receipts,
        some (manualRow regime.setup userId input.receipt purchaseDate opening.start),
          .createManual⟩ : Write store) ∈ entry.writes := by simp [made]
    have created : Adds regime.setup opening (fun _ _ => True) [.receipts, .items, .itemTags]
        ⟨calls, .live extra⟩ ⟨calls, .live (entry :: extra)⟩ := by
      refine Adds.single (by simp [made]) (singly_insert insert)
        fun final h calls stop inside linked _ write member => ?_
      rw [made, List.mem_singleton] at member
      subst member
      exact ReceiptWrote.created
        (Pledged.unused List.mem_cons_self locked unused final h calls stop inside linked)
        (parseManualEntry_valid parsed)
        (references.grow (List.suffix_cons _ _) final h calls stop inside linked)
    have clean : ∀ table ∈ [Table.tags, .categories], CleanOf ⟨calls, .live (entry :: extra)⟩ table :=
      fun table member => created.clean (cleanOf_silent quiet table)
        (by revert table; decide) ⟨_, rfl⟩
    have owned : Pledged opening (entry :: extra) fun h c =>
        OwnedReceipt h c (ctx.next .receipts) userId ∧
          KindKnown h c (ctx.next .receipts) input.receipt.kind :=
      (Pledged.wrote List.mem_cons_self isMade).mono fun _ _ wrote =>
        ⟨⟨_, rfl, Or.inr ⟨_, wrote⟩⟩, KindKnown.written wrote rfl⟩
    have added := adds_manualItems clean ⟨_, rfl⟩ items
    refine commits _ _ who ((created.trans ((added.under owned fun _ _ fact _ => fact).widen
      (by simp))).due quiet linked trivial) fun id row label member => ?_
    -- What is not the receipt's own row is of other tables.
    obtain ⟨more, isAfter, within, -⟩ := added.2 _ rfl
    obtain rfl : log = more ++ entry :: extra := Phase.live.inj isAfter
    change _ ∈ Log.writes (more ++ entry :: extra) at member
    rw [Log.writes_append, Log.writes_cons, quiet, List.nil_append, made] at member
    rcases List.mem_append.mp member with own | other
    · obtain ⟨-, -, isRow, -⟩ := Write.mk.inj (List.mem_singleton.mp own)
      exact ⟨input, purchaseDate, parsed, dated, Option.some.inj (eq_of_heq isRow)⟩
    · exact absurd (within _ other) (by simp)

/-- POST /receipts/manual keeps the promise. -/
theorem promises_createManual (userId : ℕ) (body : Json) :
    Promises (ledger setup) (createManual setup userId body) :=
  @promises_entry (ledger setup) _ _ fun _ _ _ promised _ => promised

/-- The categories of the items are locked, and were read under the lock. -/
theorem mem_selectItemCategories {receiptId itemId categoryId : ℕ} {item : ItemRow}
    {row : CategoryRow} {entry : Entry store outside} {ctx : Ctx store}
    (silent : Log.writes log = [])
    (ran : Entry.Ran (schema setup.lower) opening.start log.writes (selectItemCategories receiptId)
      entry ctx)
    (stored : (entry.snap.db .items).get itemId = some item) (parent : item.receiptId = receiptId)
    (used : item.categoryId = some categoryId)
    (before : (entry.snap.db .categories).get categoryId ≠ none)
    (now : (entry.cur.db .categories).get categoryId = some row) :
    ⟨.categories, categoryId, .share⟩ ∈ entry.locks ∧
      row.isIncome ∈ (selectItemCategories receiptId ctx).result := by
  have clean : ∀ table, Log.Clean log table := by simp [Log.Clean, silent]
  rw [← ran.snap_table (clean _)] at stored before
  rw [← ran.cur_table (clean _)] at now
  have found : (categoryId, row) ∈
      ((((ctx.snap .items).list.filter fun item => item.2.receiptId == receiptId).filterMap
        fun item => item.2.categoryId.filter fun id => ((ctx.snap .categories).get id).isSome)
          |>.filterMap fun id => ((ctx.cur .categories).get id).map fun row => (id, row)) := by
    refine List.mem_filterMap.mpr ⟨categoryId, List.mem_filterMap.mpr ⟨(itemId, item),
      List.mem_filter.mpr ⟨Rows.mem_list.mpr stored, by simp [parent]⟩, ?_⟩, by simp [now]⟩
    simp [used, Option.isSome_iff_ne_none, before]
  exact ⟨ran.lock_mem (List.mem_map.mpr ⟨_, found, rfl⟩), List.mem_map.mpr ⟨_, found, rfl⟩⟩

/-- The side check of a kind change, once the receipt is locked. -/
theorem returns_checkSideChange {receiptId : ℕ} {before after : Kind} {lock : Entry store outside}
    (member : lock ∈ log) (locked : ⟨.receipts, receiptId, .update⟩ ∈ lock.locks)
    (silent : Log.writes log = [])
    (ran : Returns setup opening.start (checkSideChange receiptId
      (rulesFor before).usesIncomeCategories (rulesFor after).usesIncomeCategories)
        ⟨calls, .live log⟩ ⟨⟩ scope') :
    ∃ extra : Log store outside, scope' = ⟨calls, .live (extra ++ log)⟩ ∧
      Log.writes extra = [] ∧
      Pledged opening (extra ++ log) fun h c =>
        (∀ check, extra = [check] → spanOfCheck c = some (check.snap.length, check.cur.length)) →
          SideChecked h c receiptId before after := by
  unfold checkSideChange at ran
  split at ran
  · obtain ⟨entry, ctx, select, rest⟩ := returns_exec_bind.mp ran
    obtain ⟨passed, rfl⟩ := returns_ofExcept.mp rest
    simp only [rejectIf_eq_ok] at passed
    refine ⟨[entry], rfl, by simp [select.writes, selectItemCategories], ?_⟩
    intro final h made stop inside linked isCheck _
    obtain ⟨since, span, past⟩ := pledged_lockedSince member locked final h made stop inside linked
    refine ⟨entry.snap, entry.cur, since, isCheck entry rfl, span, past, ?_⟩
    intro itemId categoryId item stored parent used atSnap atCur
    obtain ⟨row, now⟩ := Option.ne_none_iff_exists'.mp atCur
    obtain ⟨taken, result⟩ := mem_selectItemCategories silent select stored parent used atSnap now
    refine ⟨Pledged.locked List.mem_cons_self taken final h made stop inside linked, ?_⟩
    intro final' atEnd
    have still := Pledged.get List.mem_cons_self (by decide) taken final h made stop inside linked
    obtain rfl : final' = row := Option.some.inj (atEnd.symm.trans (still.trans now))
    simpa using List.any_eq_false.mp passed _ result
  · rename_i same
    obtain ⟨-, rfl⟩ := returns_pure.mp ran
    exact ⟨[], rfl, rfl, fun _ _ _ _ _ _ _ differs => absurd differs same⟩

/-- PATCH /receipts/:id keeps any guarantee that allows the promised patch. -/
theorem promises_patch {regime : Regime} {userId receiptId : ℕ} {body : Json}
    (commits : ∀ (h : History store outside) c, regime.who c.tid → Promised regime.setup h c →
      PatchedReceipt regime.setup h c receiptId body → regime.ok.commits h c) :
    Promises regime (updateReceipt regime.setup userId receiptId body) := by
  refine promises_rollingBack ?_ ?_
  · exact Svc.inside_bind (inside_execSql _) fun _ => Svc.inside_bind (inside_firstRow _ _)
      fun _ => Svc.inside_bind (inside_ofExcept _) fun _ =>
        Svc.inside_bind (inside_validateReferences _ _ _) fun _ =>
        Svc.inside_bind (inside_checkSideChange _ _ _) fun _ =>
        Svc.inside_bind (inside_ofExcept _) fun _ => Svc.inside_bind (inside_execSql _) fun _ =>
        Svc.inside_bind (inside_execSql _) fun _ => inside_firstRow _ _
  · intro opening summary calls calls' log history stop who ran linked _
    obtain ⟨lock, ctx, select, rest⟩ := returns_exec_bind.mp ran
    obtain ⟨editable, found, rest⟩ := returns_firstRow_bind.mp rest
    obtain ⟨⟨r, markReviewed⟩, applied, rest⟩ := returns_ofExcept_bind.mp rest
    obtain ⟨_, _, checked, rest⟩ := returns_bind.mp rest
    obtain ⟨_, _, sided, rest⟩ := returns_bind.mp rest
    obtain ⟨id, before, stored, kept, rfl, locked⟩ :=
      select.mem_selectLocked (Log.clean_nil _) (List.mem_of_head? found)
    simp only [Bool.and_eq_true, beq_iff_eq] at kept
    obtain ⟨rfl, rfl⟩ := kept
    have locking : Log.writes [lock] = [] := by simp [select.writes_select]
    obtain ⟨seen, rfl, quiet, references⟩ := returns_validateReferences locking checked
    have stillQuiet : Log.writes (seen ++ [lock]) = [] := by
      simp [Log.writes_append, quiet, locking]
    obtain ⟨extra, rfl, alsoQuiet, side⟩ :=
      returns_checkSideChange (by simp) locked stillQuiet sided
    have silent : Log.writes (extra ++ (seen ++ [lock])) = [] := by
      rw [Log.writes_append, stillQuiet, alsoQuiet, List.nil_append]
    have clean : ∀ table, Log.Clean (extra ++ (seen ++ [lock])) table := by
      simp [Log.Clean, silent]
    obtain ⟨purchaseDate, dated, rest⟩ := returns_ofExcept_bind.mp rest
    obtain ⟨entry, ctx', update, rest⟩ := returns_exec_bind.mp rest
    obtain ⟨summarized, ctx'', read, rest⟩ := returns_exec_bind.mp rest
    obtain ⟨-, same⟩ := returns_firstRow.mp rest
    obtain ⟨rfl, rfl⟩ := same
    -- The row that the UPDATE found is the one that was locked, and is committed.
    obtain ⟨committed, one, -⟩ := (pledged_rewritten (clean _) (by simp) locked stored update).grow
      (List.suffix_cons summarized _) |>.due linked calls stop
    have writes : (opening.commit calls (summarized :: entry :: (extra ++ (seen ++ [lock])))
        stop).writes = [⟨.receipts, id,
          some (patchedRow r purchaseDate markReviewed opening.start before), .updateReceipt⟩] := by
      simp [Opening.commit, silent, one, read.writes_select]
    refine commits _ _ who ⟨?_, fun write made => ?_⟩ (.intro committed applied dated writes)
    · rw [writes]
      exact singly_of_apart (Apart.singleton _)
    · rw [writes, List.mem_singleton] at made
      subst made
      refine ReceiptWrote.patched committed applied (references.grow ?_ |>.due linked calls stop)
        ((side.grow ?_).due linked calls stop fun check only => ?_) dated
      · exact (List.suffix_append _ _).trans ((List.suffix_cons _ _).trans (List.suffix_cons _ _))
      · exact (List.suffix_cons _ _).trans (List.suffix_cons _ _)
      · simp [spanOfCheck, Opening.commit, Log.spans, only]

/-- PATCH /receipts/:id keeps the promise. -/
theorem promises_updateReceipt (userId receiptId : ℕ) (body : Json) :
    Promises (ledger setup) (updateReceipt setup userId receiptId body) :=
  promises_patch fun _ _ _ promised _ => promised

/-- POST /receipts/:id/retry-scan keeps the promise. -/
theorem promises_retryScan (userId receiptId : ℕ) : Promises (ledger setup) (retryScan userId receiptId) := by
  refine promises_bind (promises_updateRows fun h c _ id before stored kept => ?_) fun _ =>
    promises_bind (promises_bind (promises_read fun _ => rfl) fun _ => promises_pure _) fun _ =>
    promises_bind (promises_firstRow _ _) fun _ => promises_bind (promises_firstRow _ _) fun _ =>
      promises_pure _
  simp only [Bool.and_eq_true, beq_iff_eq] at kept
  exact ReceiptWrote.retried stored kept.2

section Reads

theorem promises_getReceipt (userId receiptId : ℕ) :
    Promises (ledger setup) (getReceipt userId receiptId) :=
  promises_bind (promises_read fun _ => rfl) fun _ => promises_pure _

theorem promises_listReceipts (userId : ℕ) (limit offset : ℤ) :
    Promises (ledger setup) (listReceipts userId limit offset) := by
  unfold listReceipts
  split
  · exact promises_throw _
  · exact promises_read fun _ => rfl

theorem promises_listImages (userId receiptId : ℕ) :
    Promises (ledger setup) (listImages userId receiptId) :=
  promises_bind (promises_read fun _ => rfl) fun _ => promises_bind (promises_firstRow _ _)
    fun _ => promises_read fun _ => rfl

theorem promises_findImage (imageId : ℕ) : Promises (ledger setup) (findImage imageId) :=
  promises_bind (promises_read fun _ => rfl) fun _ => promises_pure _

end Reads

/-- A failure to remove a stored object is only logged. -/
theorem promises_removeQuietly {regime : Regime} {key : String}
    (free : regime.ok.Free (.removeImage key)) : Promises regime (removeQuietly key) := by
  refine promises_tryCatch (promises_call free) fun raised => ?_
  split
  · exact promises_throw _
  · exact promises_pure _

/-- DELETE /receipts/:id keeps the promise, for all that hangs on the receipt. -/
theorem promises_deleteReceipt (userId receiptId : ℕ) :
    Promises (ledger setup) (deleteReceipt setup userId receiptId) := by
  refine promises_bind (promises_read fun _ => rfl) fun images => promises_bind
    (promises_removeRows (Or.inl ⟨receiptId, fun _ _ _ kept => ?_⟩)
      (fun _ _ _ _ => ReceiptWrote.removed) ?_) fun result => ?_
  · exact beq_iff_eq.mp (Bool.and_eq_true_iff.mp kept).1
  · intro h c id write made action
    have gone := made _ List.mem_cons_self
    simp only [onDelete, List.mem_append, mem_sweep] at action
    rcases action with (⟨imageId, image, stored, parent, rfl⟩ | cascaded) |
      ⟨other, row, stored, linked, rfl⟩
    · obtain rfl : image.receiptId = id := by simpa using parent
      exact ImageWrote.cascaded stored gone
    · obtain ⟨⟨itemId, item⟩, found, which⟩ := List.mem_flatMap.mp cascaded
      obtain ⟨stored, parent⟩ := List.mem_filter.mp found
      obtain rfl : item.receiptId = id := by simpa using parent
      rcases List.mem_cons.mp which with rfl | tag
      · exact ItemWrote.cascaded (Rows.mem_list.mp stored) gone
      · have itemGone : ⟨.items, itemId, none, .deleteReceipt⟩ ∈ c.writes := by
          refine made _ (List.mem_cons_of_mem _ ?_)
          simp only [onDelete, List.mem_append]
          exact Or.inl (Or.inr (List.mem_flatMap.mpr ⟨(itemId, item), found, List.mem_cons_self⟩))
        obtain ⟨_, row, onItem, rfl, rfl⟩ := mem_onDeleteItem tag
        exact ItemTagWrote.cascaded onItem (Or.inl itemGone)
    · simp only [Bool.and_eq_true, bne_iff_ne, beq_iff_eq] at linked
      exact ReceiptWrote.unlinked stored linked.2 gone
  · cases result with
    | nil => exact promises_pure _
    | cons id rest =>
        exact promises_bind (promises_forM _ fun _ => promises_removeQuietly (free_call (by simp)))
          fun _ => promises_pure _

end ReceiptService

end ReceiptScanner

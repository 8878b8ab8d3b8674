import ReceiptScanner.Runs.Receipts

/-!
# What the scan worker promises

A poll, a scan, and the write of its result. Two things are followed through the
worker: what a result rests on, from the first read of the claim to the commit that
writes it, and that every failure has been notified.
-/

namespace ReceiptScanner

open ReadCommitted

variable {setup : Setup} {opening : Opening} {calls calls' : List (Said outside)}
  {log : Log store outside} {scope scope' : Scope store outside} {tid : ℕ}
  {world : World store outside}

section Notified

variable {h later : History store outside}

/-- The process has no transaction open, and has notified of all its failures. -/
def Told {α : Type} (tid : ℕ) : Post store outside α := fun _ own world =>
  ∃ calls, own = idle tid calls ∧ notified calls = failures world.history tid

theorem failures_foreign (foreign : Foreign tid h later) : failures later tid = failures h tid := by
  rw [failures, foreign.same, failures]

theorem failures_cons {c : Commit store outside} (mine : c.tid = tid) :
    failures (c :: h) tid = failures h tid ++ failedBy c := by
  subst mine
  rw [failures, History.ofTid_cons_same, List.reverse_cons, List.flatMap_append, failures]
  simp

theorem notified_cons (said : Said outside) :
    notified (said :: calls) = notified calls ++ (notice said.call).toList := by
  simp only [notified, List.reverse_cons, List.filterMap_append]
  cases found : notice said.call <;> simp [found]

/-- A call that is always allowed is no notification. -/
theorem notice_free {c : Call} (free : (promise setup).Free c) : notice c = none := by
  cases c with
  | notify userId event receiptId reason =>
      obtain ⟨-, seen, row, past, stored, -⟩ := free 0 [] []
      obtain rfl := List.suffix_nil.mp past
      simp at stored
  | _ => rfl

theorem notified_free {made : List (Said outside)}
    (free : ∀ said ∈ made, (promise setup).Free said.call) :
    notified (made ++ calls) = notified calls := by
  induction made with
  | nil => rfl
  | cons said made ih =>
      rw [List.cons_append, notified_cons, notice_free (free said List.mem_cons_self),
        ih fun other member => free other (List.mem_cons_of_mem _ member)]
      simp

/-- A call that notifies of nothing, among the commits of others. -/
theorem told_call {said : Said outside} (told : notified calls = failures h tid)
    (other : notice said.call = none) (foreign : Foreign tid h later) :
    notified (said :: calls) = failures later tid := by
  rw [notified_cons, other, failures_foreign foreign]
  simpa using told

/-- A commit whose receipts are all written by other statements fails none. -/
theorem failedBy_eq_nil {c : Commit store outside}
    (other : ∀ write ∈ c.writes, write.table = .receipts →
      write.label ≠ .reclaimStuck ∧ write.label ≠ .recordFailure) : failedBy c = [] := by
  refine List.filterMap_eq_nil_iff.mpr fun write member => ?_
  obtain ⟨table, id, row, label⟩ := write
  cases table with
  | receipts =>
      obtain ⟨notReclaimed, notFailed⟩ := other _ member rfl
      cases row <;> simp_all
  | _ => rfl

/-- The end of a transaction that fails no receipt. -/
theorem failures_ended (ended : Svc.Ended opening scope' h later)
    (other : ∀ log, scope'.phase = .live log → ∀ write ∈ Log.writes log,
      write.table = .receipts → write.label ≠ .reclaimStuck ∧ write.label ≠ .recordFailure) :
    failures later opening.tid = failures h opening.tid := by
  obtain ⟨calls, log | _ | _⟩ := scope'
  · by_cases silent : Log.writes log = []
    · simp only [Svc.Ended, silent, if_true] at ended
      exact failures_foreign ended
    · simp only [Svc.Ended, silent, if_false] at ended
      obtain ⟨earlier, stop, rfl, foreign⟩ := ended
      have none : failedBy (opening.commit calls log stop) = [] := failedBy_eq_nil (other log rfl)
      have grown : failures (opening.commit calls log stop :: earlier) opening.tid =
          failures earlier opening.tid ++ failedBy (opening.commit calls log stop) :=
        failures_cons rfl
      rw [grown, none, List.append_nil, failures_foreign foreign]
  · exact failures_foreign ended
  · exact failures_foreign ended

/-- A plain statement leaves the history or adds one commit to it. -/
theorem suffix_of_committed {c : Commit store outside} {silent : Prop} [Decidable silent]
    (after : later = if silent then h else c :: h) : h <:+ later := by
  rw [after]
  split
  · exact List.suffix_rfl
  · exact List.suffix_cons _ _

end Notified

theorem Claimed.grow {claim : Claim} {h later : History store outside} (claimed : Claimed h claim)
    (past : h <:+ later) : Claimed later claim := by
  obtain ⟨seen, row, inside, rest⟩ := claimed
  exact ⟨seen, row, inside.trans past, rest⟩

namespace ScanWorker

/-- The images of a claim were scanned, while it held, and this is the result. -/
def Sent (claim : Claim) (result : ScanResult) (calls : List (Said outside))
    (h : History store outside) : Prop :=
  ∃ (first keys : History store outside) (row : ReceiptRow) (raw : ScanResult)
      (images : List SentImage), first <:+ keys ∧ keys <:+ h ∧
    (first.db .receipts).get claim.receiptId = some row ∧
    holds claim claim.receiptId row = true ∧ lastScan calls = some (images, .ok raw) ∧
    (∀ image, image ∈ images.map SentImage.row ↔ image ∈ imageRows keys.db claim.receiptId) ∧
    validateResult raw row.reviewedAt.isSome = .ok result

theorem Sent.grow {claim : Claim} {result : ScanResult} {h later : History store outside}
    (sent : Sent claim result calls h) (same : lastScan calls' = lastScan calls)
    (past : h <:+ later) : Sent claim result calls' later := by
  obtain ⟨first, keys, row, raw, images, order, inside, stored, held, isSent, rest⟩ := sent
  exact ⟨first, keys, row, raw, images, order, inside.trans past, stored, held,
    same.trans isSent, rest⟩

section Compare

/-- The row that a snapshot was taken of. -/
def Shows (claim : Claim) (snapshot : Snapshot) (row : ReceiptRow) (h : History store outside) :
    Prop :=
  (h.db .receipts).get claim.receiptId = some row ∧ holds claim claim.receiptId row = true ∧
    snapshot = rowToSnapshot h.db claim.receiptId row

/-- The unlocked read of a claimed receipt. -/
theorem safe_readSnapshot {regime : Regime} {claim : Claim}
    {post : Post store outside (Option Snapshot)}
    {raised : Post store outside Err}
    (returns : ∀ (seen : History store outside) (later : World store outside) found,
      Foreign tid world.history seen → Foreign tid seen later.history →
      (∀ snapshot, found = some snapshot → ∃ row, Shows claim snapshot row seen) →
      post found (idle tid calls) later)
    (raises : ∀ failure (later : World store outside), Foreign tid world.history later.history →
      raised (.sql failure) (idle tid calls) later) :
    Safe regime (readSnapshot .db claim false) post raised (idle tid calls) world := by
  refine Svc.wp_bind (safe_read (fun _ => rfl) (fun start entry ctx later ran before during => ?_)
    raises)
  refine Svc.wp_pure (returns entry.snap later _ before during fun snapshot found => ?_)
  obtain ⟨id, row, stored, kept, rfl⟩ := ran.mem_select (Log.clean_nil _) (List.mem_of_head? found)
  have same : ctx.snap = entry.snap.db := ran.snap
  simp only [same]
  obtain rfl : id = claim.receiptId := by
    simp only [holds, Bool.and_eq_true, beq_iff_eq] at kept
    exact kept.1.1
  exact ⟨row, stored, kept, rfl⟩

/-- One similarity is asked of the server. -/
theorem safe_similarity {left right : String} {post : Post store outside ℚ}
    {raised : Post store outside Err}
    (returns : ∀ later : World store outside, Foreign tid world.history later.history →
      post (setup.similarity left right) (idle tid calls) later)
    (raises : ∀ exception (later : World store outside), Foreign tid world.history later.history →
      raised exception (idle tid calls) later) :
    Safe (ledger setup) (similarity setup left right) post raised (idle tid calls) world :=
  safe_read (fun _ => rfl) (fun _ _ _ later _ before during => returns later (before.trans during))
    fun _ => raises _

/-- The short cut leaves the verdict as it is: a second similarity is asked for only
when the first does not suffice. -/
theorem safe_merchantMatches {merchant : String} {result : ScanResult} {post : Post store outside Bool}
    {raised : Post store outside Err}
    (returns : ∀ (later : World store outside) verdict, Foreign tid world.history later.history →
      (Bounded setup → (verdict = true ↔
        setup.merchantMatchThreshold ≤ closest setup merchant result)) →
      post verdict (idle tid calls) later)
    (raises : ∀ exception (later : World store outside), Foreign tid world.history later.history →
      raised exception (idle tid calls) later) :
    Safe (ledger setup) (merchantMatches setup merchant result) post raised (idle tid calls)
      world := by
  have answered : ∀ (best : ℚ) (later : World store outside),
      Foreign tid world.history later.history →
      (Bounded setup → (setup.merchantMatchThreshold ≤ best ↔
        setup.merchantMatchThreshold ≤ closest setup merchant result)) →
      post (!decide (best < setup.merchantMatchThreshold)) (idle tid calls) later := by
    intro best later foreign same
    refine returns later _ foreign fun bounded => ?_
    simp [← same bounded]
  unfold merchantMatches
  cases found : result.storeNameRaw with
  | none =>
      cases named : result.merchant with
      | none =>
          refine answered 0 world Foreign.refl fun _ => ?_
          simp [closest, named, found]
      | some scanned =>
          refine Svc.wp_bind (safe_similarity (fun later foreign =>
            answered _ later foreign fun bounded => ?_) raises)
          simp [closest, named, found, (bounded _ _).1]
  | some storeName =>
      -- The raw store name is compared only when the merchant is not close enough.
      have further : ∀ (ofMerchant : ℚ) (later : World store outside),
          Foreign tid world.history later.history →
          (Bounded setup → closest setup merchant result = max ofMerchant
            (setup.similarity merchant storeName)) →
          Safe (ledger setup) (if ofMerchant < setup.merchantMatchThreshold then do
              let ofStore ← similarity setup merchant storeName
              let best ← pure (max ofMerchant ofStore)
              pure (!decide (best < setup.merchantMatchThreshold))
            else do
              let best ← pure ofMerchant
              pure (!decide (best < setup.merchantMatchThreshold))) post raised (idle tid calls)
            later := by
        intro ofMerchant later foreign isMax
        by_cases short : ofMerchant < setup.merchantMatchThreshold
        · simp only [short, if_true]
          refine Svc.wp_bind (safe_similarity (fun last toLast => ?_) fun exception last toLast =>
            raises exception last (foreign.trans toLast))
          exact answered _ last (foreign.trans toLast) fun bounded => by rw [isMax bounded]
        · simp only [short, if_false]
          refine answered ofMerchant later foreign fun bounded => ?_
          simp [isMax bounded, not_lt.mp short]
      cases named : result.merchant with
      | none =>
          refine further 0 world Foreign.refl fun _ => ?_
          simp [closest, named, found]
      | some scanned =>
          refine Svc.wp_bind (safe_similarity (fun later foreign =>
            further _ later foreign fun bounded => ?_) raises)
          simp [closest, named, found, (bounded _ _).1]

/-- The dates agree exactly when the plain statement says so. -/
theorem datesMatch_eq_true {before : Option Date} {scanned : Option String} {agree : Bool}
    (compared : datesMatch setup (before.map Subtype.val) scanned = .ok agree) :
    agree = true ↔ ∀ left right, before = some left → scanned = some right →
      ∃ days, daysBetween left.val right = .ok days ∧ |days| ≤ setup.matchDateDays := by
  rcases before with _ | left
  · obtain rfl := Except.ok.inj compared
    simp
  · rcases scanned with _ | right
    · obtain rfl := Except.ok.inj compared
      simp
    · cases found : daysBetween left.val right with
      | error raised => simp [datesMatch, found] at compared
      | ok days =>
          simp only [datesMatch, Option.map_some, found] at compared
          obtain rfl := Except.ok.inj compared
          simp [found]

/-- The verdict on a reviewed row. -/
theorem safe_compareResult {claim : Claim} {before : Snapshot} {row : ReceiptRow}
    {seen : History store outside} {result : ScanResult} {post : Post store outside Bool}
    {raised : Post store outside Err} (shows : Shows claim before row seen)
    (returns : ∀ (later : World store outside) verdict, Foreign tid world.history later.history →
      (row.reviewedAt.isSome → Bounded setup → (verdict = true ↔ Agrees setup row result)) →
      post verdict (idle tid calls) later)
    (raises : ∀ exception (later : World store outside), Foreign tid world.history later.history →
      raised exception (idle tid calls) later) :
    Safe (ledger setup) (compareResult setup before result) post raised (idle tid calls) world := by
  obtain ⟨-, -, rfl⟩ := shows
  unfold compareResult
  split
  · refine safe_ofExcept_bind (fun dates compared => ?_) fun exception _ =>
      raises exception world Foreign.refl
    have isDates := datesMatch_eq_true compared
    have verdict : ∀ (merchants : Bool) (later : World store outside),
        Foreign tid world.history later.history →
        (Bounded setup → (merchants = true ↔ ∀ merchant, row.merchant = some merchant →
          (result.merchant.isSome ∨ result.storeNameRaw.isSome) →
          setup.merchantMatchThreshold ≤ closest setup merchant result)) →
        post (result.totalCents == row.totalCents && result.currency == row.currency &&
          dates && merchants) (idle tid calls) later := by
      intro merchants later foreign isMerchants
      refine returns later _ foreign fun _ bounded => ?_
      simp only [Bool.and_eq_true, beq_iff_eq, isDates, isMerchants bounded]
      exact ⟨fun ⟨⟨⟨total, currency⟩, dates⟩, merchants⟩ => ⟨total, currency, dates, merchants⟩,
        fun agrees => ⟨⟨⟨agrees.total, agrees.currency⟩, agrees.dates⟩, agrees.merchants⟩⟩
    refine Svc.wp_bind ?_
    unfold merchantsMatch
    simp only [rowToSnapshot]
    cases named : row.merchant with
    | none => exact verdict true world Foreign.refl fun _ => by simp [named]
    | some merchant =>
        by_cases scanned : result.merchant.isSome ∨ result.storeNameRaw.isSome
        · simp only [Bool.or_eq_true, scanned, if_true]
          refine safe_merchantMatches (fun later close foreign isClose => ?_) raises
          refine verdict close later foreign fun bounded => (isClose bounded).trans ?_
          simp [named, scanned]
        · simp only [Bool.or_eq_true, scanned, if_false]
          exact verdict true world Foreign.refl fun _ => by simp [named, scanned]
  · rename_i unreviewed
    exact returns world true Foreign.refl fun reviewed => absurd reviewed unreviewed

end Compare

section Write

variable {lock : Entry store outside} {row : ReceiptRow} {receiptId : ℕ}

/-- The scanned items of a receipt. -/
theorem adds_insertScannedItems {claim : Claim} {kind : Kind} {items : List ScannedItem}
    {taxonomy : Taxonomy} (clean : ∀ table ∈ [Table.tags, .categories], CleanOf scope table)
    (live : ∃ log, scope.phase = .live log)
    (ran : Returns setup opening.start (insertScannedItems setup claim kind items taxonomy) scope ⟨⟩
      scope') :
    Adds setup opening (fun h c => OwnedReceipt h c claim.receiptId claim.userId ∧
      KindKnown h c claim.receiptId kind) [.items, .itemTags] scope scope' := by
  refine Adds.forM (by decide) (fun scanned _ scope scope' live clean ran => ?_) live clean ran
  obtain ⟨_, between, inserted, rest⟩ := returns_bind.mp ran
  obtain ⟨-, rfl⟩ := returns_pure.mp rest
  exact ItemService.adds_insert clean live inserted

/-- Of the receipts, the log rewrites only what a scan found. -/
def OfScan (log : Log store outside) : Prop := ∀ write ∈ Log.writes log,
  write.table = .receipts → write.label = .writeExtraction ∨ write.label = .writeVerify

/-- What comes after the write of the receipt is about its items. -/
theorem ofScan_of_adds {given : History store outside → Commit store outside → Prop}
    (written : OfScan log) {log' : Log store outside}
    (adds : Adds setup opening given [.items, .itemTags] ⟨calls, .live log⟩ ⟨calls', .live log'⟩) :
    OfScan log' := by
  obtain ⟨extra, rfl, within⟩ := adds.added
  intro write member isReceipt
  rw [Log.writes_append] at member
  rcases List.mem_append.mp member with old | new
  · exact written write old isReceipt
  · have other := within write new
    simp [isReceipt] at other

/-- The items of the receipt go, and their tags. -/
theorem adds_deleteItems {entry : Entry store outside} {ctx : Ctx store}
    (clean : Log.Clean log .items) (cleanTags : Log.Clean log .itemTags)
    (delete : Entry.Ran (schema setup.lower) opening.start log.writes (deleteItems setup receiptId)
      entry ctx) :
    Adds setup opening (fun _ c => ∃ row : ReceiptRow,
      ⟨.receipts, receiptId, some row, .writeExtraction⟩ ∈ c.writes) [.items, .itemTags]
      ⟨calls, .live log⟩ ⟨calls, .live (entry :: log)⟩ := by
  have cases : ∀ write ∈ entry.writes, (∃ id before, write = ⟨.items, id, none, .clearItems⟩ ∧
      (entry.cur.db .items).get id = some before ∧ before.receiptId = receiptId ∧
      ⟨.items, id, .update⟩ ∈ entry.locks) ∨ ∃ id tag, write = ⟨.itemTags, id, none, .clearItems⟩ ∧
      (entry.cur.db .itemTags).get id = some tag ∧ ⟨.itemTags, id, .update⟩ ∈ entry.locks ∧
      ⟨.items, tag.itemId, none, .clearItems⟩ ∈ entry.writes := by
    intro write made
    obtain ⟨id, before, stored, kept, gone, locked, rfl | cascaded⟩ := delete.mem_delete clean made
    · exact Or.inl ⟨id, before, rfl, stored, by simpa using kept, locked⟩
    · have lock := delete.lockOf_mem made
      obtain ⟨tagId, tag, onItem, rfl, rfl⟩ := mem_onDeleteItem cascaded
      refine Or.inr ⟨tagId, tag, rfl, ?_, ?_, gone _ List.mem_cons_self⟩
      · rwa [delete.cur_table cleanTags] at onItem
      · simpa [Schema.lockOf, onItem] using lock
  refine Adds.single (fun write made => ?_)
    (singly_cons (singly_delete delete fun _ _ => table_onDeleteItem) fun write made other => ?_)
    fun final h made stop inside linked given write sent => ?_
  · rcases cases write made with ⟨id, before, rfl, -⟩ | ⟨id, tag, rfl, -⟩ <;> simp
  · rcases cases write made with ⟨id, before, rfl, -⟩ | ⟨id, tag, rfl, -⟩
    · exact clean
    · exact absurd rfl other
  · rcases cases write sent with ⟨id, before, rfl, stored, rfl, locked⟩ |
      ⟨id, tag, rfl, stored, locked, gone⟩
    · have still := Pledged.get List.mem_cons_self (by decide) locked final h made stop inside linked
      obtain ⟨row, replaced⟩ := given
      exact ItemWrote.cleared (still.trans stored) replaced
    · have still := Pledged.get List.mem_cons_self (by decide) locked final h made stop inside linked
      exact ItemTagWrote.cascaded (still.trans stored)
        (Or.inl (Pledged.wrote List.mem_cons_self gone final h made stop inside linked))

theorem kindNamed_eq_ok {name : String} {kind : Kind} (named : kindNamed name = .ok kind) :
    findKind name = some kind := by
  unfold kindNamed at named
  split at named
  · obtain rfl := Except.ok.inj named
    assumption
  · simp at named

/-- What an extraction writes after its receipt is locked. -/
theorem wrote_writeExtraction {claim : Claim} {result : ScanResult} {taxonomy : Taxonomy}
    {db : Db store} (silent : lock.writes = [])
    (taken : ⟨.receipts, claim.receiptId, .update⟩ ∈ lock.locks)
    (stored : (lock.cur.db .receipts).get claim.receiptId = some row)
    (unreviewed : row.reviewedAt = none)
    (ran : Returns setup opening.start
      (writeExtraction setup claim result taxonomy (rowToSnapshot db claim.receiptId row))
      ⟨calls, .live [lock]⟩ ⟨⟩ scope') :
    lastScan scope'.calls = lastScan calls ∧ ∃ log', scope'.phase = .live log' ∧ OfScan log' ∧
      ∀ (h : History store outside) made stop, Linked opening h log' → Claimed h claim →
        Scanned h (opening.commit made log' stop) claim claim.receiptId row result →
        Promised setup h (opening.commit made log' stop) := by
  obtain ⟨kind, named, rest⟩ := returns_ofExcept_bind.mp ran
  obtain ⟨purchaseDate, dated, rest⟩ := returns_ofExcept_bind.mp rest
  obtain ⟨entry, ctx, update, rest⟩ := returns_exec_bind.mp rest
  obtain ⟨dropped, ctx', delete, items⟩ := returns_exec_bind.mp rest
  have quiet : Log.writes [lock] = [] := by simp [silent]
  have clean : ∀ table, Log.Clean [lock] table := by simp [Log.Clean, quiet]
  have rewritten := pledged_rewritten (clean _) List.mem_cons_self taken stored update
  have labelled : ∀ write ∈ entry.writes,
      write.table = .receipts ∧ write.label = .writeExtraction := by
    intro write made
    obtain ⟨id, before, rfl, -⟩ := update.mem_update (clean _) made
    exact ⟨rfl, rfl⟩
  have stillClean : ∀ table ≠ .receipts, Log.Clean [entry, lock] table := fun table other =>
    Log.clean_cons.mpr ⟨clean _, fun write made same => other (same.symm.trans (labelled write made).1)⟩
  let given : History store outside → Commit store outside → Prop := fun h c =>
    Claimed h claim ∧ Scanned h c claim claim.receiptId row result ∧ Cleared h c claim.receiptId
  have updated : Adds setup opening given [.receipts, .items, .itemTags] ⟨calls, .live [lock]⟩
      ⟨calls, .live [entry, lock]⟩ := by
    refine Adds.single (fun write made => by simp [(labelled write made).1])
      (singly_cons (singly_of_apart update.apart_update) fun _ _ _ => clean _) ?_
    intro final h made stop inside linked holds write sent
    obtain ⟨now, same, -⟩ := rewritten final h made stop inside linked
    rw [same, List.mem_singleton] at sent
    subst sent
    exact ReceiptWrote.extracted now holds.2.1 unreviewed (kindNamed_eq_ok named) holds.2.2
      dated
  have cleared : Adds setup opening given [.items, .itemTags] ⟨calls, .live [entry, lock]⟩
      ⟨calls, .live [dropped, entry, lock]⟩ :=
    (adds_deleteItems (stillClean _ (by decide)) (stillClean _ (by decide)) delete).under
      rewritten fun _ _ wrote _ => ⟨_, wrote.2.2⟩
  have tagsClean : ∀ table ∈ [Table.tags, .categories],
      CleanOf ⟨calls, .live [dropped, entry, lock]⟩ table := by
    intro table member
    refine cleared.clean (fun log live => ?_) (by revert table; decide) ⟨_, rfl⟩
    obtain rfl := Phase.live.inj live
    exact stillClean table (by revert table; decide)
  have inserted : Adds setup opening given [.items, .itemTags]
      ⟨calls, .live [dropped, entry, lock]⟩ scope' := by
    refine (adds_insertScannedItems tagsClean ⟨_, rfl⟩ items).under
      (rewritten.grow (List.suffix_cons dropped _)) ?_
    rintro h c wrote ⟨⟨seen, row, past, saw, owner⟩, -⟩
    exact ⟨⟨row, owner, Or.inl ⟨seen, past, saw⟩⟩, KindKnown.written wrote.2.2 rfl⟩
  obtain ⟨log', live⟩ := inserted.live ⟨_, rfl⟩
  obtain ⟨calls', phase⟩ := scope'
  obtain rfl : phase = .live log' := live
  have after := cleared.trans inserted
  have all := updated.trans (after.widen (by simp))
  refine ⟨all.1, log', rfl, ofScan_of_adds (fun write member _ => ?_) after, ?_⟩
  · rw [Log.writes_cons, quiet, List.nil_append] at member
    exact Or.inl (labelled write member).2
  · obtain ⟨extra, rfl, -⟩ := inserted.added
    have gone : Pledged opening (extra ++ [dropped, entry, lock]) fun h c =>
        Cleared h c claim.receiptId :=
      (pledged_swept (stillClean _ (by decide)) (by simp) taken delete).grow
        (List.suffix_append _ _)
    intro h made stop linked claimed scanned
    exact all.due quiet linked ⟨claimed, scanned, gone.due linked made stop⟩

/-- What a verify scan writes after its receipt is locked. -/
theorem wrote_writeVerify {claim : Claim} {result : ScanResult} {taxonomy : Taxonomy}
    {allMatch : Bool} (silent : lock.writes = [])
    (taken : ⟨.receipts, claim.receiptId, .update⟩ ∈ lock.locks)
    (stored : (lock.cur.db .receipts).get claim.receiptId = some row)
    (reviewed : row.reviewedAt.isSome)
    (ran : Returns setup opening.start (writeVerify setup claim result taxonomy
      (rowToSnapshot lock.snap.db claim.receiptId row) allMatch)
      ⟨calls, .live [lock]⟩ ⟨⟩ scope') :
    lastScan scope'.calls = lastScan calls ∧ ∃ log', scope'.phase = .live log' ∧ OfScan log' ∧
      ∀ (h : History store outside) made stop, Linked opening h log' → Claimed h claim →
        Scanned h (opening.commit made log' stop) claim claim.receiptId row result →
        Judged setup h claim.receiptId row.updatedAt result allMatch →
        Promised setup h (opening.commit made log' stop) := by
  obtain ⟨purchaseDate, dated, rest⟩ := returns_ofExcept_bind.mp ran
  obtain ⟨entry, ctx, update, items⟩ := returns_exec_bind.mp rest
  have quiet : Log.writes [lock] = [] := by simp [silent]
  have clean : ∀ table, Log.Clean [lock] table := by simp [Log.Clean, quiet]
  have rewritten := pledged_rewritten (clean _) List.mem_cons_self taken stored update
  have labelled : ∀ write ∈ entry.writes,
      write.table = .receipts ∧ write.label = .writeVerify := by
    intro write made
    obtain ⟨id, before, rfl, -⟩ := update.mem_update (clean _) made
    exact ⟨rfl, rfl⟩
  let given : History store outside → Commit store outside → Prop := fun h c =>
    Claimed h claim ∧ Scanned h c claim claim.receiptId row result ∧
      Judged setup h claim.receiptId row.updatedAt result allMatch ∧
      c.spans.head? = some (lock.snap.length, lock.cur.length) ∧ ((∃ write ∈ c.writes,
        write.table = .items) → itemCount lock.snap.db claim.receiptId = 0)
  have updated : Adds setup opening given [.receipts, .items, .itemTags] ⟨calls, .live [lock]⟩
      ⟨calls, .live [entry, lock]⟩ := by
    refine Adds.single (fun write made => by simp [(labelled write made).1])
      (singly_cons (singly_of_apart update.apart_update) fun _ _ _ => clean _) ?_
    intro final h made stop inside linked holds write sent
    obtain ⟨now, same, -⟩ := rewritten final h made stop inside linked
    obtain ⟨-, scanned, judged, first, filled⟩ := holds
    rw [same, List.mem_singleton] at sent
    subst sent
    have here : lock ∈ final := inside.subset (by simp)
    exact ReceiptWrote.verified now scanned reviewed first (linked.spanned lock here)
      ⟨linked.past lock here, lock.cur, List.suffix_rfl,
        (linked.held lock here).mono (List.cons_subset.mpr ⟨taken, List.nil_subset _⟩)⟩ filled judged
      dated
  have stillClean : ∀ table ∈ [Table.tags, .categories],
      CleanOf ⟨calls, .live [entry, lock]⟩ table := by
    intro table member
    refine updated.clean (fun log live => ?_) (by revert table; decide) ⟨_, rfl⟩
    obtain rfl := Phase.live.inj live
    exact clean table
  have after : Adds setup opening given [.items, .itemTags] ⟨calls, .live [entry, lock]⟩ scope' ∧
      ∀ log', scope'.phase = .live log' → (∃ write ∈ Log.writes log', write.table = .items) →
        itemCount lock.snap.db claim.receiptId = 0 := by
    split at items
    · rename_i empty
      refine ⟨(adds_insertScannedItems stillClean ⟨_, rfl⟩ items).under rewritten ?_,
        fun _ _ _ => empty⟩
      rintro h c wrote ⟨⟨seen, row, past, saw, owner⟩, -⟩
      exact ⟨⟨row, owner, Or.inl ⟨seen, past, saw⟩⟩, KindKnown.written wrote.2.2 rfl⟩
    · obtain ⟨-, rfl⟩ := returns_pure.mp items
      refine ⟨Adds.refl, fun log' live written => ?_⟩
      obtain ⟨write, member, isItem⟩ := written
      obtain rfl := Phase.live.inj live
      rw [Log.writes_cons, quiet, List.nil_append] at member
      simp [(labelled write member).1] at isItem
  obtain ⟨log', live⟩ := after.1.live ⟨_, rfl⟩
  obtain ⟨calls', phase⟩ := scope'
  obtain rfl : phase = .live log' := live
  have all := updated.trans (after.1.widen (by simp))
  refine ⟨all.1, log', rfl, ofScan_of_adds (fun write member _ => ?_) after.1, ?_⟩
  · rw [Log.writes_cons, quiet, List.nil_append] at member
    exact Or.inr (labelled write member).2
  · intro h made stop linked claimed scanned judged
    obtain ⟨extra, sameLog, -⟩ := after.1.added
    refine all.due quiet linked ⟨claimed, scanned, judged, ?_, after.2 log' rfl⟩
    change (Log.spans log').head? = _
    rw [sameLog, List.append_cons]
    exact Log.head_spans (extra ++ [entry]) lock

/-- The locked read of a claimed receipt. -/
theorem returns_readSnapshot {claim : Claim} {found : Option Snapshot}
    (ran : Returns setup opening.start (readSnapshot .transaction claim true) ⟨calls, .live []⟩ found
      scope') :
    ∃ lock : Entry store outside, scope' = ⟨calls, .live [lock]⟩ ∧ lock.writes = [] ∧
      ∀ snapshot, found = some snapshot → ∃ row : ReceiptRow,
        ⟨.receipts, claim.receiptId, .update⟩ ∈ lock.locks ∧
        (lock.cur.db .receipts).get claim.receiptId = some row ∧
        holds claim claim.receiptId row = true ∧
        snapshot = rowToSnapshot lock.snap.db claim.receiptId row := by
  obtain ⟨lock, ctx, select, rest⟩ := returns_exec_bind.mp ran
  obtain ⟨rfl, rfl⟩ := returns_pure.mp rest
  refine ⟨lock, rfl, select.writes_select, fun snapshot found => ?_⟩
  obtain ⟨id, row, stored, kept, rfl, taken⟩ :=
    select.mem_selectLocked (Log.clean_nil _) (List.mem_of_head? found)
  have same : ctx.snap = lock.snap.db := select.snap
  simp only [same]
  obtain rfl : id = claim.receiptId := by
    simp only [holds, Bool.and_eq_true, beq_iff_eq] at kept
    exact kept.1.1
  exact ⟨row, taken, stored, kept, rfl⟩

/-- What a write attempt leaves to commit: nothing, or what its mode writes. -/
theorem returns_writeResult {claim : Claim} {result : ScanResult} {taxonomy : Taxonomy}
    {before : Snapshot} {allMatch : Bool} {attempt : Attempt} {seen : History store outside}
    (shows : Shows claim before row seen)
    (ran : Returns setup opening.start (do
      let locked ← readSnapshot .transaction claim true
      writeLocked setup claim result taxonomy before allMatch locked) ⟨calls, .live []⟩ attempt scope') :
    lastScan scope'.calls = lastScan calls ∧ ∀ log', scope'.phase = .live log' → OfScan log' ∧
      ∀ (h : History store outside) made stop, Linked opening h log' → seen <:+ h →
        seen.length ≤ opening.began → Claimed h claim → Sent claim result made h →
        (row.reviewedAt.isSome → Bounded setup → (allMatch = true ↔ Agrees setup row result)) →
        Promised setup h (opening.commit made log' stop) := by
  obtain ⟨found, _, read, rest⟩ := returns_bind.mp ran
  obtain ⟨lock, rfl, silent, locked⟩ := returns_readSnapshot read
  cases found with
  | none =>
      obtain ⟨_, _, rolled, rest⟩ := returns_bind.mp rest
      obtain rfl := returns_rollback.mp rolled
      obtain ⟨-, rfl⟩ := returns_pure.mp rest
      exact ⟨rfl, fun log' live => by simp at live⟩
  | some snapshot =>
      obtain ⟨now, taken, stored, held, rfl⟩ := locked snapshot rfl
      obtain ⟨saw, -, rfl⟩ := shows
      simp only [writeLocked] at rest
      split at rest
      · rename_i unchanged
        simp only [Bool.and_eq_true, decide_eq_true_eq, beq_iff_eq] at unchanged
        have sameTime : now.updatedAt = row.updatedAt := unchanged.1.1
        have sameReview : now.reviewedAt.isSome = row.reviewedAt.isSome := unchanged.1.2
        have scanned : ∀ (h : History store outside) made stop log', seen <:+ h →
            seen.length ≤ opening.began → Claimed h claim → Sent claim result made h →
            Scanned h (opening.commit made log' stop) claim claim.receiptId now result := by
          intro h made stop log' past short claimed sent
          exact {
            claimed := claimed
            holds := held
            sent := sent
            compared := ⟨seen, row, past, short, saw, sameTime.symm, sameReview.symm⟩ }
        split at rest
        · rename_i reviewed
          obtain ⟨_, _, written, rest⟩ := returns_bind.mp rest
          obtain ⟨-, rfl⟩ := returns_pure.mp rest
          obtain ⟨sameSent, log, live, ofScan, wrote⟩ :=
            wrote_writeVerify silent taken stored reviewed written
          refine ⟨sameSent, fun log' live' => ?_⟩
          obtain rfl := Phase.live.inj (live.symm.trans live')
          refine ⟨ofScan, fun h made stop linked past short claimed sent judged => ?_⟩
          exact wrote h made stop linked claimed (scanned h made stop _ past short claimed sent)
            ⟨seen, row, past, saw, sameTime.symm, judged (sameReview ▸ reviewed)⟩
        · rename_i unreviewed
          obtain ⟨_, _, written, rest⟩ := returns_bind.mp rest
          obtain ⟨-, rfl⟩ := returns_pure.mp rest
          obtain ⟨sameSent, log, live, ofScan, wrote⟩ :=
            wrote_writeExtraction silent taken stored (by simpa [rowToSnapshot] using unreviewed) written
          refine ⟨sameSent, fun log' live' => ?_⟩
          obtain rfl := Phase.live.inj (live.symm.trans live')
          exact ⟨ofScan, fun h made stop linked past short claimed sent _ =>
            wrote h made stop linked claimed (scanned h made stop _ past short claimed sent)⟩
      · obtain ⟨_, _, rolled, rest⟩ := returns_bind.mp rest
        obtain rfl := returns_rollback.mp rolled
        obtain ⟨-, rfl⟩ := returns_pure.mp rest
        exact ⟨rfl, fun log' live => by simp at live⟩

theorem inside_insertScannedItems (claim : Claim) (kind : Kind) (items : List ScannedItem)
    (taxonomy : Taxonomy) :
    Svc.Inside (promise setup) (insertScannedItems setup claim kind items taxonomy) :=
  Svc.inside_forM _ fun _ => Svc.inside_bind (ItemService.inside_insert _ _ _ _) fun _ =>
    Svc.inside_pure _

theorem inside_writeVerify (claim : Claim) (result : ScanResult) (taxonomy : Taxonomy)
    (snapshot : Snapshot) (allMatch : Bool) :
    Svc.Inside (promise setup) (writeVerify setup claim result taxonomy snapshot allMatch) := by
  refine Svc.inside_bind (inside_ofExcept _) fun _ => Svc.inside_bind (inside_execSql _) fun _ => ?_
  split
  · exact inside_insertScannedItems _ _ _ _
  · exact Svc.inside_pure _

theorem inside_writeExtraction (claim : Claim) (result : ScanResult) (taxonomy : Taxonomy)
    (snapshot : Snapshot) :
    Svc.Inside (promise setup) (writeExtraction setup claim result taxonomy snapshot) :=
  Svc.inside_bind (inside_ofExcept _) fun _ => Svc.inside_bind (inside_ofExcept _) fun _ =>
    Svc.inside_bind (inside_execSql _) fun _ => Svc.inside_bind (inside_execSql _) fun _ =>
      inside_insertScannedItems _ _ _ _

theorem inside_writeResult (claim : Claim) (result : ScanResult) (taxonomy : Taxonomy)
    (before : Snapshot) (allMatch : Bool) : Svc.Inside (promise setup) (do
      let locked ← readSnapshot .transaction claim true
      writeLocked setup claim result taxonomy before allMatch locked) := by
  refine Svc.inside_bind (Svc.inside_bind (inside_execSql _) fun _ => Svc.inside_pure _)
    fun locked => ?_
  cases locked with
  | none => exact Svc.inside_bind Svc.inside_rollback fun _ => Svc.inside_pure _
  | some locked =>
      simp only [writeLocked]
      split
      · split
        · exact Svc.inside_bind (inside_writeVerify _ _ _ _ _) fun _ => Svc.inside_pure _
        · exact Svc.inside_bind (inside_writeExtraction _ _ _ _) fun _ => Svc.inside_pure _
      · exact Svc.inside_bind Svc.inside_rollback fun _ => Svc.inside_pure _

end Write

section Apply

variable {claim : Claim} {result : ScanResult} {taxonomy : Taxonomy}

/-- The process has notified of all its failures, and its scan is what it may write. -/
def Scanning (tid : ℕ) (claim : Claim) (result : ScanResult) (own : Local store outside)
    (world : World store outside) : Prop :=
  ∃ calls, own = idle tid calls ∧ notified calls = failures world.history tid ∧
    Claimed world.history claim ∧ Sent claim result calls world.history

theorem Scanning.foreign {later : World store outside}
    (scanning : Scanning tid claim result (idle tid calls) world)
    (foreign : Foreign tid world.history later.history) :
    Scanning tid claim result (idle tid calls) later := by
  obtain ⟨_, same, told, claimed, sent⟩ := scanning
  obtain rfl : calls = _ := congrArg Local.calls same
  exact ⟨calls, rfl, told.trans (failures_foreign foreign).symm, claimed.grow foreign.suffix,
    sent.grow rfl foreign.suffix⟩

theorem Scanning.told (scanning : Scanning tid claim result (idle tid calls) world) {α : Type}
    (value : α) : Told tid value (idle tid calls) world := by
  obtain ⟨calls, same, told, -⟩ := scanning
  exact ⟨calls, same, told⟩

/-- One write attempt, for a row that was compared before. -/
theorem safe_writeResult {before : Snapshot} {allMatch : Bool} {row : ReceiptRow}
    {seen : History store outside} (scanning : Scanning tid claim result (idle tid calls) world)
    (past : seen <:+ world.history) (shows : Shows claim before row seen)
    (judged : row.reviewedAt.isSome → Bounded setup → (allMatch = true ↔ Agrees setup row result)) :
    Safe (ledger setup) (writeResult setup claim result taxonomy before allMatch)
      (fun _ => Scanning tid claim result) (Told tid) (idle tid calls) world := by
  obtain ⟨_, same, told, claimed, sent⟩ := scanning
  obtain rfl : calls = _ := congrArg Local.calls same
  have inside := @inside_writeResult setup claim result taxonomy before allMatch
  refine safe_transaction (Svc.inside_rollingBack inside) (abandons_rollingBack _) ?_ ?_ ?_
  · intro opening attempt calls' log h stop _ ran toHistory short linked _
    obtain ⟨sameSent, writes⟩ := returns_writeResult shows (returns_rollingBack.mp ran)
    obtain ⟨-, wrote⟩ := writes log rfl
    have still : Sent claim result calls' h := sent.grow sameSent toHistory
    exact wrote h calls' stop linked (past.trans toHistory) (past.length_le.trans short)
      (claimed.grow toHistory) still judged
  · intro opening attempt scope' later mine ran ended
    obtain ⟨sameSent, writes⟩ := returns_writeResult shows (returns_rollingBack.mp ran)
    obtain ⟨made, sameCalls, free⟩ := inside.calls (returns_rollingBack.mp ran)
    have noFailure : failures later.history opening.tid = failures world.history opening.tid := by
      refine failures_ended ended fun log live write member isReceipt => ?_
      rcases (writes log live).1 write member isReceipt with same | same <;> simp [same]
    refine ⟨scope'.calls, rfl, ?_, claimed.grow ended.suffix, sent.grow sameSent ended.suffix⟩
    rw [sameCalls, notified_free free, told, ← mine, noFailure]
  · intro exception made later free foreign
    exact ⟨made ++ calls, rfl,
      (notified_free free).trans (told.trans (failures_foreign foreign).symm)⟩

/-- Compare and write, until the row holds still. -/
theorem safe_attempts {left : ℕ}
    (scanning : Scanning tid claim result (idle tid calls) world) :
    Safe (ledger setup) (attempts setup claim result taxonomy left) (Told tid) (Told tid)
      (idle tid calls) world := by
  induction left generalizing calls world with
  | zero => exact Svc.wp_throw (scanning.told _)
  | succ left ih =>
      refine Svc.wp_bind (safe_readSnapshot (fun seen later found before during shown => ?_)
        fun _ later foreign => (scanning.foreign foreign).told _)
      have stillScanning := scanning.foreign (before.trans during)
      cases found with
      | none => exact Svc.wp_pure (stillScanning.told _)
      | some snapshot =>
          obtain ⟨row, shows⟩ := shown snapshot rfl
          refine Svc.wp_bind (safe_compareResult shows (fun last allMatch foreign judged => ?_)
            fun _ last foreign => (stillScanning.foreign foreign).told _)
          refine Svc.wp_bind (Svc.wp_mono (safe_writeResult (stillScanning.foreign foreign)
            (during.suffix.trans foreign.suffix) shows judged) ?_ fun _ _ _ => id)
          rintro attempt own ended ⟨made, rfl, told, rest⟩
          have again : Scanning tid claim result (idle tid made) ended := ⟨made, rfl, told, rest⟩
          split
          · exact ih again
          · exact Svc.wp_pure ⟨made, rfl, told⟩

/-- The user's lists are read, and nothing else happens. -/
theorem safe_loadTaxonomy {regime : Regime} {userId : ℕ} {post : Post store outside Taxonomy}
    {raised : Post store outside Err}
    (returns : ∀ taxonomy (later : World store outside), Foreign tid world.history later.history →
      post taxonomy (idle tid calls) later)
    (raises : ∀ exception (later : World store outside), Foreign tid world.history later.history →
      raised exception (idle tid calls) later) :
    Safe regime (loadTaxonomy .db userId) post raised (idle tid calls) world := by
  refine Svc.wp_bind (safe_read (fun _ => rfl) (fun _ _ _ between _ before during => ?_)
    fun _ => raises _)
  have toBetween := before.trans during
  refine Svc.wp_bind (safe_read (fun _ => rfl) (fun _ _ _ later _ before' during' => ?_)
    fun _ later foreign => raises _ later (toBetween.trans foreign))
  exact Svc.wp_pure (returns _ later (toBetween.trans (before'.trans during')))

/-- The result of a scan is written, or nothing is. -/
theorem safe_applyResult (scanning : Scanning tid claim result (idle tid calls) world) :
    Safe (ledger setup) (applyResult setup claim result) (Told tid) (Told tid) (idle tid calls)
      world :=
  Svc.wp_bind (safe_loadTaxonomy
    (fun _ _ foreign => safe_attempts (scanning.foreign foreign))
    fun _ _ foreign => (scanning.foreign foreign).told _)

end Apply

section Process

variable {claim : Claim}

/-- The bytes under each key are fetched, in the order of the keys. -/
theorem safe_fetchImages {regime : Regime} (holds : List (Said outside) → World store outside → Prop)
    (free : ∀ key, regime.ok.Free (.getImage key))
    (kept : ∀ key reply calls before (after : World store outside), holds calls before →
      Foreign tid before.history after.history → holds (⟨.getImage key, reply⟩ :: calls) after)
    (keys : List (ℕ × String)) (begins : holds calls world) :
    Safe regime (fetchImages keys)
      (fun images own later => (∃ calls', own = idle tid calls' ∧ holds calls' later) ∧
        images.map SentImage.row = keys.map Prod.fst)
      (fun _ own later => ∃ calls', own = idle tid calls' ∧ holds calls' later)
      (idle tid calls) world := by
  induction keys generalizing calls world with
  | nil => exact ⟨⟨calls, rfl, begins⟩, rfl⟩
  | cons key rest ih =>
      rw [fetchImages, List.mapM_cons]
      refine Svc.wp_bind (Svc.wp_bind (Svc.wp_call (fun h _ => free _ _ _ h)
        fun later reply foreign => ?_))
      have still := kept key.2 reply calls world later begins foreign
      cases reply with
      | error exception => exact ⟨_, rfl, still⟩
      | ok bytes =>
          refine Svc.wp_pure (Svc.wp_bind (Svc.wp_mono (ih still) ?_ fun _ _ _ => id))
          rintro images own last ⟨ended, same⟩
          exact Svc.wp_pure ⟨ended, by simp [same]⟩

/-- The keys of a snapshot are those of the image rows of the receipt. -/
theorem mem_selectKeys {receiptId : ℕ} {start : ℕ} {entry : Entry store outside} {ctx : Ctx store}
    (ran : Entry.RanFirst (schema setup.lower) start (selectKeys receiptId) entry ctx) (image : ℕ) :
    image ∈ (selectKeys receiptId ctx).result.map Prod.fst ↔
      image ∈ imageRows entry.snap.db receiptId := by
  have same : ctx.snap = entry.snap.db := ran.snap
  simp [selectKeys, Stmt.query, imageRows, same, List.mem_insertionSort]

/-- The scan of a claim: what it writes rests on the claim and on the images it sent. -/
theorem safe_scan (told : notified calls = failures world.history tid)
    (claimed : Claimed world.history claim) :
    Safe (ledger setup) (scan setup claim) (Told tid) (Told tid) (idle tid calls) world := by
  have stillTold : ∀ (later : World store outside) {α : Type} (value : α),
      Foreign tid world.history later.history → Told tid value (idle tid calls) later :=
    fun later _ _ foreign => ⟨calls, rfl, told.trans (failures_foreign foreign).symm⟩
  refine Svc.wp_bind (safe_readSnapshot (fun first later found before during shown => ?_)
    fun _ later foreign => stillTold later _ foreign)
  have toLater := before.trans during
  cases found with
  | none => exact Svc.wp_pure (stillTold later _ toLater)
  | some snapshot =>
      obtain ⟨row, stored, held, isSnapshot⟩ := shown snapshot rfl
      refine Svc.wp_bind (safe_read (fun _ => rfl) (fun start entry ctx between ran before' during' =>
        ?_) fun _ last foreign => stillTold last _ (toLater.trans foreign))
      have toBetween := toLater.trans (before'.trans during')
      split
      · exact Svc.wp_pure (stillTold between _ toBetween)
      · refine Svc.wp_bind (Svc.wp_mono (safe_fetchImages
          (fun calls later => Foreign tid between.history later.history ∧
            notified calls = failures later.history tid)
          (fun key => free_call (by simp))
          (fun key reply calls before after holds foreign =>
            ⟨holds.1.trans foreign, told_call holds.2 rfl foreign⟩) _
          ⟨Foreign.refl, told.trans (failures_foreign toBetween).symm⟩) ?_
          fun _ _ _ ⟨calls, same, holds⟩ => ⟨calls, same, holds.2⟩)
        rintro images _ fetched ⟨⟨made, rfl, toFetched, wasTold⟩, sameRows⟩
        refine Svc.wp_bind (safe_loadTaxonomy (fun taxonomy listed foreign => ?_)
          fun _ last foreign => ⟨made, rfl, wasTold.trans (failures_foreign foreign).symm⟩)
        refine Svc.wp_bind (Svc.wp_call (fun _ _ => trivial) fun answered reply toAnswered => ?_)
        have toEnd : Foreign tid fetched.history answered.history := foreign.trans toAnswered
        have finallyTold : notified (⟨.scanReceipt images (makeContext taxonomy
            (if snapshot.reviewed then some snapshot.kind else none)), reply⟩ :: made) =
            failures answered.history tid := told_call wasTold rfl toEnd
        cases reply with
        | error exception => exact ⟨_, rfl, finallyTold⟩
        | ok raw =>
            refine safe_ofExcept_bind (fun result valid => ?_) fun exception _ =>
              ⟨_, rfl, finallyTold⟩
            have past : entry.snap <:+ answered.history :=
              during'.suffix.trans (toFetched.suffix.trans toEnd.suffix)
            refine Svc.wp_bind (Svc.wp_mono (safe_applyResult ⟨_, rfl, finallyTold,
              claimed.grow (toBetween.trans (toFetched.trans toEnd)).suffix, first, entry.snap, row,
              raw, images, during.suffix.trans before'.suffix, past, stored, held, rfl, fun image => ?_,
              ?_⟩) ?_ fun _ _ _ => id)
            · rw [sameRows, mem_selectKeys ran]
            · rw [isSnapshot] at valid
              exact valid
            · exact fun _ _ _ done => Svc.wp_pure done

/-- A failure of the process that it has not notified of yet. -/
theorem safe_notifyScanFailed {userId receiptId : ℕ} {reason : String} {pending : List ℕ}
    (told : notified calls ++ receiptId :: pending = failures world.history tid)
    (owned : ∃ row : ReceiptRow, (∃ seen : History store outside, seen <:+ world.history ∧
      (seen.db .receipts).get receiptId = some row) ∧ row.userId = userId) :
    Safe (ledger setup) (notifyScanFailed userId receiptId reason)
      (fun _ own later => Foreign tid world.history later.history ∧ ∃ made, own = idle tid made ∧
        notified made ++ pending = failures later.history tid)
      (Told tid) (idle tid calls) world := by
  refine Svc.wp_tryCatch (Svc.wp_call (fun history foreign => ?_) fun later reply foreign => ?_)
  · obtain ⟨row, ⟨seen, past, stored⟩, owner⟩ := owned
    refine ⟨?_, seen, row, past.trans foreign.suffix, stored, owner⟩
    have same : failures history tid = failures world.history tid := failures_foreign foreign
    change notified calls ++ [receiptId] <+: failures history tid
    rw [same, ← told]
    exact ⟨pending, by simp⟩
  · have foreign : Foreign tid world.history later.history := foreign
    have now : notified (⟨.notify userId "scan_failed" receiptId reason, reply⟩ :: calls) ++ pending =
        failures later.history tid := by
      rw [notified_cons, failures_foreign foreign, ← told]
      simp [notice]
    cases reply with
    | error text => exact ⟨foreign, _, rfl, now⟩
    | ok done => exact ⟨foreign, _, rfl, now⟩

/-- A failure is recorded on the row of the claim, or nowhere. -/
theorem updateFailed_cases (claim : Claim) (scanError : Bool) (cap : ℤ) (ctx : Ctx store) :
    ((updateFailed claim scanError cap ctx).writes = [] ∧
      (updateFailed claim scanError cap ctx).result = []) ∨ ∃ before : ReceiptRow,
    (updateFailed claim scanError cap ctx).writes = [⟨.receipts, claim.receiptId,
        some (failedRow scanError cap before), .recordFailure⟩] ∧
      (updateFailed claim scanError cap ctx).result =
        [(failedRow scanError cap before).scanState] := by
  refine Stmt.update_of_id (fun id (row : ReceiptRow) held => ?_)
  simp only [holds, Bool.and_eq_true, beq_iff_eq] at held
  exact held.1.1

/-- A failure is recorded under the claim, and notified if it is final. -/
theorem safe_recordFailure {scanError terminal : Bool} {error : String}
    (told : notified calls = failures world.history tid) (claimed : Claimed world.history claim) :
    Safe (ledger setup) (recordFailure setup claim scanError terminal error) (Told tid) (Told tid)
      (idle tid calls) world := by
  refine Svc.wp_bind (Svc.wp_exec (fun failure later foreign => ?_)
    (fun opening entry ctx mine ran past linked written => ?_)
    fun opening entry ctx later mine ran before during after => ?_)
  · exact ⟨calls, rfl, told.trans (failures_foreign foreign).symm⟩
  · refine promised_of_entry (singly_of_apart ran.apart_update) fun write made => ?_
    obtain ⟨id, before, rfl, stored, kept, -⟩ := ran.mem_update (Log.clean_nil _) made
    exact ReceiptWrote.failed stored kept
  · have toCur := before.trans during
    have stillTold := told.trans (failures_foreign toCur).symm
    have wrote := ran.writes
    rcases updateFailed_cases claim scanError (failureCap setup scanError terminal) ctx with
      ⟨none, result⟩ | ⟨before, one, result⟩
    · rw [if_pos (wrote.trans none)] at after
      rw [result]
      exact Svc.wp_pure ⟨calls, rfl, after ▸ stillTold⟩
    · replace wrote := wrote.trans one
      rw [if_neg (by simp [wrote])] at after
      rw [result]
      have now : failures later.history tid = failures world.history tid ++
          if (failedRow scanError (failureCap setup scanError terminal) before).scanState = .scanFailed
          then [claim.receiptId] else [] := by
        rw [after, failures_cons mine, failures_foreign toCur]
        simp only [failedBy, Opening.commit, Log.writes_cons, Log.writes_nil, wrote]
        by_cases final : (failedRow scanError (failureCap setup scanError terminal)
          before).scanState = .scanFailed <;> simp [final]
      by_cases final : (failedRow scanError (failureCap setup scanError terminal)
          before).scanState = .scanFailed
      · rw [if_pos final, ← told] at now
        obtain ⟨seen, row, past, stored, owner⟩ := claimed
        have past' : seen <:+ later.history :=
          past.trans (toCur.suffix.trans (after ▸ List.suffix_cons _ _))
        rw [final]
        refine Svc.wp_mono (safe_notifyScanFailed now.symm ⟨row, ⟨seen, past', stored⟩, owner⟩) ?_
          fun _ _ _ => id
        rintro _ _ last ⟨-, made, rfl, same⟩
        exact ⟨made, rfl, by simpa using same⟩
      · rw [if_neg final, List.append_nil, ← told] at now
        split
        · rename_i rest isFailed
          exact absurd (List.cons.inj isFailed).1 final
        · exact Svc.wp_pure ⟨calls, rfl, now.symm⟩

/-- However the scan went, its failure is recorded. -/
theorem safe_settle {outcome : Except Err Bool}
    (told : notified calls = failures world.history tid) (claimed : Claimed world.history claim) :
    Safe (ledger setup) (settle setup claim outcome) (Told tid) (Told tid) (idle tid calls)
      world := by
  unfold settle
  split
  · exact Svc.wp_pure ⟨calls, rfl, told⟩
  all_goals exact safe_recordFailure told claimed

/-- The processing of a claim ends with every failure notified. -/
theorem wp_process (told : notified calls = failures world.history tid)
    (claimed : Claimed world.history claim) :
    (process setup claim).wp (promise setup) (schema setup.lower) (Told tid) (idle tid calls)
      world := by
  have scanned := Prog.wp_grows List.suffix_rfl (@safe_scan setup _ _ _ _ told claimed)
  refine Prog.wp_bind.mpr (Prog.wp_mono (fun outcome own later ended => ?_) scanned)
  obtain ⟨made, rfl, stillTold⟩ : Told tid () own later := by
    cases outcome <;> exact ended.1
  refine Prog.wp_bind.mpr (Prog.wp_mono (fun settled own last ended => ?_)
    (safe_settle stillTold (claimed.grow ended.2)))
  cases settled <;> exact ended

end Process

section Poll

/-- What is left to notify of after a reclaim: these rows, with their owners. -/
def Pending (tid : ℕ) (rows : List (ℕ × ℕ × ScanState)) (own : Local store outside)
    (world : World store outside) : Prop :=
  (∃ calls, own = idle tid calls ∧ notified calls ++
    (rows.filter fun row => row.2.2 = .scanFailed).map Prod.fst = failures world.history tid) ∧
  ∀ row ∈ rows, ∃ receipt : ReceiptRow, (∃ seen : History store outside, seen <:+ world.history ∧
    (seen.db .receipts).get row.1 = some receipt) ∧ receipt.userId = row.2.1

/-- One reclaimed row. -/
theorem safe_notifyReclaimed {row : ℕ × ℕ × ScanState} {rest : List (ℕ × ℕ × ScanState)}
    {own : Local store outside} (pending : Pending tid (row :: rest) own world) :
    Safe (ledger setup) (notifyReclaimed row) (fun _ => Pending tid rest) (Told tid) own world := by
  obtain ⟨⟨calls, rfl, told⟩, owners⟩ := pending
  have others := fun other member => owners other (List.mem_cons_of_mem _ member)
  unfold notifyReclaimed
  split
  · rename_i failed
    simp only [List.filter_cons, failed, decide_true, if_true, List.map_cons] at told
    refine Svc.wp_mono (safe_notifyScanFailed told (owners row List.mem_cons_self)) ?_
      fun _ _ _ => id
    rintro _ _ later ⟨foreign, made, rfl, same⟩
    refine ⟨⟨made, rfl, same⟩, fun other member => ?_⟩
    obtain ⟨receipt, ⟨seen, past, stored⟩, owner⟩ := others other member
    exact ⟨receipt, ⟨seen, past.trans foreign.suffix, stored⟩, owner⟩
  · rename_i requeued
    simp only [List.filter_cons, requeued, decide_false] at told
    exact Svc.wp_pure ⟨⟨calls, rfl, by simpa using told⟩, others⟩

/-- A reclaim fails the receipts that it returns as failed. -/
theorem failedBy_reclaimed (targets : List (ℕ × ReceiptRow)) {c : Commit store outside}
    (writes : c.writes = targets.map fun (id, row) =>
      ⟨.receipts, id, some (reclaimedRow setup row), .reclaimStuck⟩) :
    failedBy c = ((targets.map fun (id, row) =>
      (id, (reclaimedRow setup row).userId, (reclaimedRow setup row).scanState)).filter
        fun row => row.2.2 = .scanFailed).map Prod.fst := by
  rw [failedBy, writes]
  clear writes
  induction targets with
  | nil => rfl
  | cons target rest ih =>
      by_cases failed : (reclaimedRow setup target.2).scanState = .scanFailed <;>
        simp_all

/-- A reclaim notifies of every receipt that it fails. -/
theorem safe_reclaimStuck (told : notified calls = failures world.history tid) :
    Safe (ledger setup) (reclaimStuck setup) (Told tid) (Told tid) (idle tid calls) world := by
  refine Svc.wp_bind (Svc.wp_exec (fun failure later foreign => ?_)
    (fun opening entry ctx mine ran past linked written => ?_)
    fun opening entry ctx later mine ran before during after => ?_)
  · exact ⟨calls, rfl, told.trans (failures_foreign foreign).symm⟩
  · refine promised_of_entry (singly_of_apart ?_) fun write made => ?_
    · rw [ran.writes]
      exact Apart.map (ctx.pairwise_targets _ _)
    rw [ran.writes] at made
    obtain ⟨⟨id, row⟩, found, rfl⟩ := List.mem_map.mp made
    obtain ⟨-, stored, kept⟩ := Ctx.mem_targets.mp found
    obtain ⟨scanning, timedOut⟩ := Bool.and_eq_true_iff.mp kept
    rw [ran.cur_table (Log.clean_nil _)] at stored
    rw [ran.now] at timedOut
    cases startedAt : row.scanStartedAt with
    | none => simp [startedAt] at timedOut
    | some started =>
        exact ReceiptWrote.reclaimed stored (by simpa using scanning) startedAt
          (by simpa [startedAt, Opening.commit] using timedOut)
  · have toCur := before.trans during
    have begins : Pending tid (updateStuck setup ctx).result (idle tid calls) later := by
      have isFailed : ∀ stop, failedBy (opening.commit calls [entry] stop) = _ := fun stop =>
        failedBy_reclaimed _ (show (opening.commit calls [entry] stop).writes = _ from
          (List.nil_append _).trans ran.writes)
      refine ⟨⟨calls, rfl, ?_⟩, fun row member => ?_⟩
      · by_cases written : entry.writes = []
        · rw [if_pos written] at after
          have none : (updateStuck setup ctx).result = [] := by
            have silent := ran.writes.symm.trans written
            simpa [updateStuck, Stmt.update] using silent
          rw [none, after]
          simpa using told.trans (failures_foreign toCur).symm
        · rw [if_neg written] at after
          rw [after, failures_cons mine, isFailed, failures_foreign toCur, told]
          rfl
      · obtain ⟨⟨id, receipt⟩, found, rfl⟩ := List.mem_map.mp member
        obtain ⟨-, stored, -⟩ := Ctx.mem_targets.mp found
        rw [ran.cur_table (Log.clean_nil _)] at stored
        exact ⟨receipt, ⟨entry.cur, suffix_of_committed after, stored⟩, rfl⟩
    refine Svc.wp_mono (Svc.wp_forM (Pending tid) (fun row rest own world _ pending =>
      safe_notifyReclaimed pending) begins) ?_ fun _ _ _ => id
    rintro _ own last ⟨⟨made, rfl, same⟩, -⟩
    exact ⟨made, rfl, by simpa using same⟩

/-- A row that the sub-select of a claim can lock. -/
theorem lockable_eq_some {ctx : Ctx store} {id : ℕ} {found : ℕ × ReceiptRow}
    (locks : (if ctx.others.any (Lock.conflicts ⟨.receipts, id, .update⟩) then none
      else ((ctx.cur .receipts).get id).bind fun latest =>
        if latest.scanState == .uploaded then some (id, latest) else none) = some found) :
    found.1 = id ∧ (ctx.cur .receipts).get id = some found.2 ∧ found.2.scanState = .uploaded := by
  split at locks
  · cases locks
  · obtain ⟨latest, stored, kept⟩ := Option.bind_eq_some_iff.mp locks
    split at kept
    · rename_i queued
      obtain rfl := Option.some.inj kept
      exact ⟨rfl, stored, by simpa using queued⟩
    · cases kept

/-- The rows that a claim takes are uploaded when they are locked. -/
theorem mem_claimable {ctx : Ctx store} {id : ℕ} {row : ReceiptRow}
    (member : (id, row) ∈ claimable setup ctx) :
    (ctx.cur .receipts).get id = some row ∧ row.scanState = .uploaded := by
  obtain ⟨⟨seenId, seen⟩, -, found⟩ := List.mem_filterMap.mp (List.mem_of_mem_take member)
  obtain ⟨rfl, stored, queued⟩ := lockable_eq_some found
  exact ⟨stored, queued⟩

/-- A poll claims no receipt twice. -/
theorem apart_claimRows (setup : Setup) (ctx : Ctx store) : Apart (claimRows setup ctx).writes := by
  have sorted : (((ctx.snap .receipts).list.filter fun receipt =>
      receipt.2.scanState == .uploaded).insertionSort fun left right =>
        left.2.createdAt ≤ right.2.createdAt).Pairwise fun left right => left.1 ≠ right.1 :=
    (List.perm_insertionSort _ _).symm.pairwise ((ctx.snap .receipts).pairwise_list.filter _)
      fun differ => Ne.symm differ
  have different : (claimable setup ctx).Pairwise fun left right => left.1 ≠ right.1 := by
    refine (sorted.filterMap _ fun left right apart found isLeft other isRight => ?_).sublist
      (List.take_sublist _ _)
    rw [(lockable_eq_some isLeft).1, (lockable_eq_some isRight).1]
    exact apart
  rw [← List.zipIdx_map_fst 0 (claimable setup ctx)] at different
  exact (List.pairwise_map.mp different).map _ fun _ _ apart touches => apart touches.2.symm

/-- Every claim is of an uploaded receipt, under a token that no claim before had. -/
theorem safe_claim (told : notified calls = failures world.history tid) :
    Safe (ledger setup) (claim setup)
      (fun claims own later => Told tid () own later ∧ ∀ claim ∈ claims, Claimed later.history claim)
      (Told tid) (idle tid calls) world := by
  refine Svc.wp_exec (fun failure later foreign => ?_)
    (fun opening entry ctx mine ran past linked written => ?_)
    fun opening entry ctx later mine ran before during after => ?_
  · exact ⟨calls, rfl, told.trans (failures_foreign foreign).symm⟩
  · refine promised_of_entry (singly_of_apart ?_) fun write made => ?_
    · rw [ran.writes]
      exact apart_claimRows setup ctx
    have same : ctx.cur = entry.cur.db := ran.cur
    rw [ran.writes] at made
    obtain ⟨⟨⟨id, row⟩, index⟩, found, rfl⟩ := List.mem_map.mp made
    obtain ⟨stored, queued⟩ := mem_claimable (List.fst_mem_of_mem_zipIdx found)
    rw [same] at stored
    refine ReceiptWrote.claimed stored queued (fun other old => ?_) ?_
    · have := ran.stopped other old
      omega
    · have below : index < (claimRows setup ctx).ticks := by
        have := List.snd_lt_of_mem_zipIdx found
        simpa [claimRows] using this
      change ctx.clock + index ≤ ctx.clock + (claimRows setup ctx).ticks
      omega
  · have toCur := before.trans during
    have same : ctx.cur = entry.cur.db := ran.cur
    refine ⟨⟨calls, rfl, ?_⟩, fun claim member => ?_⟩
    · by_cases written : entry.writes = []
      · rw [after, if_pos written, failures_foreign toCur, told]
      · have none : failedBy (opening.commit calls [entry] (ctx.clock + (claimRows setup ctx).ticks)) =
            [] := by
          refine failedBy_eq_nil fun write (made : write ∈ entry.writes) _ => ?_
          rw [ran.writes] at made
          obtain ⟨_, -, rfl⟩ := List.mem_map.mp made
          simp
        rw [after, if_neg written, failures_cons mine, none, List.append_nil,
          failures_foreign toCur, told]
    · obtain ⟨⟨⟨id, row⟩, index⟩, found, rfl⟩ := List.mem_map.mp member
      obtain ⟨stored, -⟩ := mem_claimable (List.fst_mem_of_mem_zipIdx found)
      rw [same] at stored
      exact ⟨entry.cur, row, suffix_of_committed after, stored, rfl⟩

/-- A poll ends with every failure notified, and leaves claims that were made. -/
theorem wp_tick (told : notified calls = failures world.history tid) :
    (tick setup).wp (promise setup) (schema setup.lower)
      (fun claims own later => Told tid () own later ∧ ∀ claim ∈ claims, Claimed later.history claim)
      (idle tid calls) world := by
  have polled : Safe (ledger setup) (reclaimStuck setup >>= fun _ => claim setup)
      (fun claims own later => Told tid () own later ∧ ∀ claim ∈ claims, Claimed later.history claim)
      (Told tid) (idle tid calls) world := by
    refine Svc.wp_bind (Svc.wp_mono (safe_reclaimStuck told) ?_ fun _ _ _ => id)
    rintro _ _ later ⟨made, rfl, stillTold⟩
    exact safe_claim stillTold
  refine Prog.wp_bind.mpr (Prog.wp_mono (fun outcome own later ended => ?_) polled)
  cases outcome with
  | ok claims => exact ended
  | error exception => exact ⟨ended, fun claim member => absurd member List.not_mem_nil⟩

end Poll

end ScanWorker

end ReceiptScanner

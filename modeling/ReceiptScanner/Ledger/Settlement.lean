import ReceiptScanner.Ledger.Claims
import ReceiptScanner.Ledger.Identity

/-!
# Every claim is settled once

What each commit does to the scan lane of one receipt is a `LaneEvent`. A claim begins
with one event and ends with one of six others, and no event begins two claims or ends
two; so the events of a receipt balance, and the events of one claim, known by its
token, are one beginning and at most one end. A result is applied, and a failure counted,
by a process that was given the claim which the row carries just then.
-/

namespace ReceiptScanner

open ReadCommitted

variable {setup : Setup} {config : Config store outside Job} {c : Commit store outside}
  {h earlier : History store outside} {id : ℕ}

/-- What a commit does to the scan lane of a receipt. -/
inductive LaneEvent where
  | claimed
  | applied
  | attempt
  | reclaim
  | stuck
  | superseded
  | deleted
  | reset
  | kept
deriving DecidableEq, Repr

/-- The ways a claim ends: its result is applied, a failure is counted against either
budget, it is reclaimed, images are added, or the receipt is deleted. -/
def LaneEvent.ends : LaneEvent → Bool
  | .applied | .attempt | .reclaim | .stuck | .superseded | .deleted => true
  | _ => false

/-- The ways by which the process that was given a claim ends it. -/
def LaneEvent.isOwn : LaneEvent → Bool
  | .applied | .attempt | .reclaim => true
  | _ => false

/-- The row is scanning. -/
def isScanning (row : Option ReceiptRow) : Bool :=
  row.any fun row => row.scanState = .scanning

/-- The event of a statement that leaves `after` of `before`. -/
def laneEvent (before after : Option ReceiptRow) : Label → LaneEvent
  | .claim => .claimed
  | .writeExtraction | .writeVerify => .applied
  | .recordFailure =>
      if after.map ReceiptRow.scanAttempts = before.map ReceiptRow.scanAttempts then .reclaim
      else .attempt
  | .reclaimStuck => .stuck
  | .retryScan => .reset
  | .addImages => if isScanning before then .superseded else .kept
  | .deleteReceipt => if isScanning before && after.isNone then .deleted else .kept
  | _ => .kept

/-- The statement by which a commit writes a receipt. -/
def labelOf (c : Commit store outside) (id : ℕ) : Option Label :=
  (c.writes.find? fun write => write.table = Table.receipts && write.id = id).map Write.label

/-- What a commit does to the scan lane of a receipt. -/
def eventOf (h : History store outside) (c : Commit store outside) (id : ℕ) : LaneEvent :=
  match labelOf c id with
  | some label => laneEvent ((h.db .receipts).get id) ((History.db (c :: h) .receipts).get id) label
  | none => .kept

/-- What an event means for the row: where it was in the lane, where it is then, and
what has become of the two counters. -/
def LaneEvent.Means (before after : Option ReceiptRow) : LaneEvent → Prop
  | .claimed => ∃ row token, before = some row ∧ row.scanState = .uploaded ∧
      after = some (ScanWorker.claimedRow token row)
  | .applied => ∃ row row', before = some row ∧ after = some row' ∧ row.scanState = .scanning ∧
      row'.scanState = .idle ∧ row'.scanAttempts = row.scanAttempts ∧
      row'.reclaimCount = row.reclaimCount
  | .attempt => ∃ row row', before = some row ∧ after = some row' ∧ row.scanState = .scanning ∧
      (row'.scanState = .scanFailed ∨ row'.scanState = .uploaded) ∧
      row'.scanAttempts = row.scanAttempts + 1 ∧ row'.reclaimCount = row.reclaimCount
  | .reclaim | .stuck => ∃ row row', before = some row ∧ after = some row' ∧
      row.scanState = .scanning ∧ (row'.scanState = .scanFailed ∨ row'.scanState = .uploaded) ∧
      row'.scanAttempts = row.scanAttempts ∧ row'.reclaimCount = row.reclaimCount + 1
  | .superseded => ∃ row row', before = some row ∧ after = some row' ∧ row.scanState = .scanning ∧
      row'.scanState = .uploaded ∧ row'.scanAttempts = row.scanAttempts ∧
      row'.reclaimCount = row.reclaimCount
  | .deleted => (∃ row, before = some row ∧ row.scanState = .scanning) ∧ after = none
  | .reset => ∃ row row', before = some row ∧ after = some row' ∧ row.scanState = .scanFailed ∧
      row'.scanState = .uploaded ∧ row'.scanAttempts = 0 ∧ row'.reclaimCount = 0
  | .kept => isScanning after = isScanning before ∧
      (∀ row row', before = some row → after = some row' → row'.scanAttempts = row.scanAttempts ∧
        row'.reclaimCount = row.reclaimCount ∧ (row'.scanState = .scanning →
          row'.scanStartedAt = row.scanStartedAt)) ∧
      ∀ row', before = none → after = some row' → row'.scanAttempts = 0 ∧ row'.reclaimCount = 0

/-- The label by which a receipt is written is that of its write. -/
theorem Promised.labelOf_eq (promised : Promised setup h c) {row : Option ReceiptRow}
    {label : Label} (member : ⟨.receipts, id, row, label⟩ ∈ c.writes) :
    labelOf c id = some label := by
  have found : (c.writes.find? fun write =>
      write.table = Table.receipts && write.id = id).isSome := by
    refine List.find?_isSome.mpr ⟨_, member, ?_⟩
    simp
  obtain ⟨⟨table, other, row', label'⟩, isFirst⟩ := Option.isSome_iff_exists.mp found
  have is := List.find?_some isFirst
  simp only [Bool.and_eq_true, decide_eq_true_eq] at is
  obtain ⟨rfl, rfl⟩ := is
  have same := promised.unique (by decide) member (List.mem_of_find?_eq_some isFirst)
  simp [labelOf, isFirst, same.2]

theorem labelOf_of_untouched (untouched : ∀ write ∈ c.writes, ¬ write.Touches .receipts id) :
    labelOf c id = none := by
  have none : (c.writes.find? fun write => write.table = Table.receipts && write.id = id) = none := by
    refine List.find?_eq_none.mpr fun write member => ?_
    simpa using fun same => not_and.mp (untouched write member) same
  simp [labelOf, none]

/-- Every event means what it says. -/
theorem Promised.means (promised : Promised setup h c) (id : ℕ) :
    (eventOf h c id).Means ((h.db .receipts).get id) ((History.db (c :: h) .receipts).get id) := by
  rcases promised.row_cases .receipts id with ⟨same, untouched⟩ | ⟨after, label, member, isAfter, wrote⟩
  · rw [eventOf, labelOf_of_untouched untouched, same]
    refine ⟨rfl, ?_, ?_⟩
    · rintro row row' stored stored'
      obtain rfl := Option.some.inj (stored.symm.trans stored')
      exact ⟨rfl, rfl, fun _ => rfl⟩
    · rintro row' missing stored
      exact absurd (missing.symm.trans stored) (by simp)
  rw [eventOf, promised.labelOf_eq member, isAfter]
  -- a row whose lane columns are kept
  have same : ∀ row row' : ReceiptRow, (h.db .receipts).get id = some row →
      row'.scanState = row.scanState → row'.scanAttempts = row.scanAttempts →
      row'.reclaimCount = row.reclaimCount → row'.scanStartedAt = row.scanStartedAt →
      LaneEvent.kept.Means ((h.db .receipts).get id) (some row') := by
    intro row row' stored state attempts reclaims token
    rw [stored]
    refine ⟨by simp [isScanning, state], ?_, by simp⟩
    rintro _ _ ⟨⟩ ⟨⟩
    exact ⟨attempts, reclaims, fun _ => token⟩
  have first : ∀ row' : ReceiptRow, Unused h .receipts id → row'.scanState ≠ .scanning →
      row'.scanAttempts = 0 → row'.reclaimCount = 0 →
      LaneEvent.kept.Means ((h.db .receipts).get id) (some row') := by
    intro row' fresh idle attempts reclaims
    rw [fresh.get List.suffix_rfl]
    refine ⟨by simp [isScanning, idle], by simp, ?_⟩
    rintro _ - ⟨⟩
    exact ⟨attempts, reclaims⟩
  cases wrote with
  | uploaded fresh => exact first _ fresh (by simp [ReceiptService.uploadedRow]) rfl rfl
  | created fresh => exact first _ fresh (by simp [ReceiptService.manualRow]) rfl rfl
  | @requeued before stored =>
      by_cases scanning : before.scanState = .scanning
      · simp only [laneEvent, stored, isScanning, Option.any_some, scanning, decide_true, if_true]
        exact ⟨_, _, rfl, rfl, scanning, rfl, rfl, rfl⟩
      · simp only [laneEvent, stored, isScanning, Option.any_some, scanning, decide_false,
          Bool.false_eq_true, if_false]
        refine ⟨by simp [isScanning, scanning], ?_, by simp⟩
        rintro _ _ ⟨⟩ ⟨⟩
        exact ⟨rfl, rfl, fun _ => rfl⟩
  | patched stored => exact same _ _ stored rfl rfl rfl rfl
  | retried stored failed =>
      rw [stored]
      exact ⟨_, _, rfl, rfl, failed, rfl, rfl, rfl⟩
  | @removed before stored =>
      rw [stored]
      by_cases scanning : before.scanState = .scanning
      · simp only [laneEvent, isScanning, Option.any_some, scanning, decide_true, Option.isNone_none,
          Bool.and_self, if_true]
        exact ⟨⟨_, rfl, scanning⟩, rfl⟩
      · simp only [laneEvent, isScanning, Option.any_some, scanning, decide_false, Bool.false_and,
          Bool.false_eq_true, if_false]
        exact ⟨by simp [isScanning, scanning], by simp, by simp⟩
  | unlinked stored =>
      simp only [laneEvent, Option.isNone_some, Bool.and_false, Bool.false_eq_true, if_false]
      exact same _ _ stored rfl rfl rfl rfl
  | detached stored => exact same _ _ stored rfl rfl rfl rfl
  | reclaimed stored scanning =>
      rw [stored]
      exact ⟨_, _, rfl, rfl, scanning, ScanWorker.scanState_reclaimedRow rfl, rfl, rfl⟩
  | claimed stored queued =>
      rw [stored]
      exact ⟨_, _, rfl, queued, rfl⟩
  | @failed before claim scanError terminal stored holds =>
      rw [stored]
      have scanning := (holds_iff.mp holds).2.1
      have state := ScanWorker.scanState_failedRow
        (rfl : (ScanWorker.failedRow scanError (ScanWorker.failureCap setup scanError terminal)
          before).scanState = _)
      cases scanError with
      | true =>
          have counted : laneEvent (some before) (some (ScanWorker.failedRow true
              (ScanWorker.failureCap setup true terminal) before)) .recordFailure = .attempt := by
            simp [laneEvent, ScanWorker.failedRow]
          simp only [counted]
          exact ⟨_, _, rfl, rfl, scanning, state, rfl, rfl⟩
      | false =>
          have counted : laneEvent (some before) (some (ScanWorker.failedRow false
              (ScanWorker.failureCap setup false terminal) before)) .recordFailure = .reclaim := by
            simp [laneEvent, ScanWorker.failedRow]
          simp only [counted]
          exact ⟨_, _, rfl, rfl, scanning, state, rfl, rfl⟩
  | extracted stored scanned =>
      rw [stored]
      exact ⟨_, _, rfl, rfl, (holds_iff.mp scanned.holds).2.1, rfl, rfl, rfl⟩
  | verified stored scanned =>
      rw [stored]
      exact ⟨_, _, rfl, rfl, (holds_iff.mp scanned.holds).2.1, rfl, rfl, rfl⟩

section Counts

/-- How many commits so far were such an event for the receipt. -/
def countEvents (counts : LaneEvent → Bool) (id : ℕ) : History store outside → ℕ
  | [] => 0
  | c :: earlier => countEvents counts id earlier + (counts (eventOf earlier c id)).toNat

/-- Every claim so far has ended, but the live one. -/
theorem claims_balance (reachable : Config.Reachable (application setup) config)
    (past : h <:+ config.world.history) (id : ℕ) :
    countEvents (· = .claimed) id h =
      countEvents LaneEvent.ends id h + (isScanning ((h.db .receipts).get id)).toNat := by
  refine invariant_of_reachable reachable
    (P := fun h => countEvents (· = .claimed) id h =
      countEvents LaneEvent.ends id h + (isScanning ((h.db .receipts).get id)).toNat)
    (by simp [countEvents, isScanning]) ?_ h past
  intro c earlier _ promised balance
  have means := promised.means id
  simp only [countEvents]
  generalize eventOf earlier c id = event at means
  cases event with
  | claimed =>
      obtain ⟨row, token, before, queued, after⟩ := means
      simp_all [isScanning, ScanWorker.claimedRow, LaneEvent.ends]
  | applied =>
      obtain ⟨row, row', before, after, scanning, idle, -⟩ := means
      simp_all [isScanning, LaneEvent.ends]
  | attempt =>
      obtain ⟨row, row', before, after, scanning, failed | queued, -⟩ := means <;>
        simp_all [isScanning, LaneEvent.ends]
  | reclaim =>
      obtain ⟨row, row', before, after, scanning, failed | queued, -⟩ := means <;>
        simp_all [isScanning, LaneEvent.ends]
  | stuck =>
      obtain ⟨row, row', before, after, scanning, failed | queued, -⟩ := means <;>
        simp_all [isScanning, LaneEvent.ends]
  | superseded =>
      obtain ⟨row, row', before, after, scanning, queued, -⟩ := means
      simp_all [isScanning, LaneEvent.ends]
  | deleted =>
      obtain ⟨⟨row, before, scanning⟩, after⟩ := means
      simp_all [isScanning, LaneEvent.ends]
  | reset =>
      obtain ⟨row, row', before, after, failed, queued, -⟩ := means
      simp_all [isScanning, LaneEvent.ends]
  | kept =>
      rw [means.1]
      simpa [LaneEvent.ends] using balance

/-- The ends of claims, each by its own kind. -/
theorem countEvents_ends (id : ℕ) (h : History store outside) :
    countEvents LaneEvent.ends id h = countEvents (· = .applied) id h +
      (countEvents (· = .attempt) id h + countEvents (· = .reclaim) id h +
        countEvents (· = .stuck) id h) +
      countEvents (· = .superseded) id h + countEvents (· = .deleted) id h := by
  induction h with
  | nil => rfl
  | cons c earlier ih =>
      simp only [countEvents, ih]
      cases eventOf earlier c id <;> simp [LaneEvent.ends] <;> omega

/-- A receipt that was never stored has had no event of its lane. -/
theorem countEvents_of_unused {counts : LaneEvent → Bool} (notKept : counts .kept = false)
    (fresh : Unused h .receipts id) : countEvents counts id h = 0 := by
  induction h with
  | nil => rfl
  | cons c earlier ih =>
      have untouched := labelOf_of_untouched (fresh c List.mem_cons_self)
      rw [countEvents, ih fun other member => fresh other (List.mem_cons_of_mem _ member),
        eventOf, untouched]
      simp [notKept]

/-- A receipt that stands was never deleted. -/
theorem not_deleted (reachable : Config.Reachable (application setup) config)
    (past : h <:+ config.world.history) (stands : (h.db .receipts).get id ≠ none) :
    countEvents (· = .deleted) id h = 0 := by
  refine invariant_of_reachable reachable
    (P := fun h => (h.db .receipts).get id ≠ none → countEvents (· = .deleted) id h = 0)
    (fun _ => rfl) ?_ h past stands
  intro c earlier _ promised before stands
  have notNow : eventOf earlier c id ≠ .deleted := by
    intro now
    have means := promised.means id
    rw [now] at means
    exact stands means.2
  rw [countEvents, decide_eq_false notNow, Bool.toNat_false, Nat.add_zero]
  rcases promised.row_cases .receipts id with ⟨same, -⟩ | ⟨row, label, member, isNow, wrote⟩
  · exact before (same ▸ stands)
  · obtain ⟨row, rfl⟩ := Option.ne_none_iff_exists'.mp (isNow ▸ stands)
    rcases ReceiptWrote.before wrote with ⟨fresh, -⟩ | ⟨was, stored, -⟩
    · exact countEvents_of_unused rfl fresh
    · exact before (by simp [stored])

end Counts

section Claims

/-- The receipt is scanning under this token. -/
def carriesToken (id token : ℕ) (h : History store outside) : Bool :=
  ((h.db .receipts).get id).any fun row : ReceiptRow =>
    row.scanState = .scanning && row.scanStartedAt = some token

/-- How many commits so far made a check succeed, or fail. -/
def countTurns (check : History store outside → Bool) (turned : Bool) : History store outside → ℕ
  | [] => 0
  | c :: earlier => countTurns check turned earlier +
      (check (c :: earlier) == turned && check earlier != turned).toNat

/-- A check that failed at first has succeeded as often as it has failed again, but for
now. -/
theorem turns_balance {check : History store outside → Bool} (first : check [] = false)
    (h : History store outside) :
    countTurns check true h = countTurns check false h + (check h).toNat := by
  induction h with
  | nil => simp [countTurns, first]
  | cons c earlier ih =>
      simp only [countTurns, ih]
      cases check earlier <;> cases check (c :: earlier) <;> simp

theorem carriesToken_iff {token : ℕ} : carriesToken id token h = true ↔ ∃ row : ReceiptRow,
    (h.db .receipts).get id = some row ∧ row.scanState = .scanning ∧
      row.scanStartedAt = some token := by
  simp [carriesToken, Option.any_eq_true]

/-- A receipt loses its token by one of the ends of a claim. -/
theorem Promised.token_lost (promised : Promised setup h c) {token : ℕ}
    (before : carriesToken id token h = true) (after : carriesToken id token (c :: h) = false) :
    (eventOf h c id).ends = true := by
  obtain ⟨row, stored, scanning, carried⟩ := carriesToken_iff.mp before
  have means := promised.means id
  generalize eventOf h c id = event at means
  cases event with
  | claimed =>
      obtain ⟨row', token', stored', queued, -⟩ := means
      obtain rfl := Option.some.inj (stored.symm.trans stored')
      exact absurd (scanning.symm.trans queued) (by decide)
  | reset =>
      obtain ⟨row', _, stored', -, failed, -⟩ := means
      obtain rfl := Option.some.inj (stored.symm.trans stored')
      exact absurd (scanning.symm.trans failed) (by decide)
  | kept =>
      obtain ⟨lane, same, -⟩ := means
      have still : isScanning ((History.db (c :: h) .receipts).get id) = true := by
        rw [lane, stored, isScanning, Option.any_some, decide_eq_true scanning]
      obtain ⟨row', stored', still⟩ := (Option.any_eq_true _ _).mp still
      have still := of_decide_eq_true still
      have token := (same row row' stored stored').2.2 still
      exact absurd (carriesToken_iff.mpr ⟨row', stored', still, token.trans carried⟩) (by
        rw [after]
        decide)
  | _ => rfl

/-- An end of a claim takes the token away. -/
theorem Promised.not_carries_of_ends (promised : Promised setup h c) {token : ℕ}
    (ends : (eventOf h c id).ends = true) : carriesToken id token (c :: h) = false := by
  rw [Bool.eq_false_iff, ne_eq, carriesToken_iff]
  rintro ⟨row, stored, scanning, -⟩
  have means := promised.means id
  generalize eventOf h c id = event at means ends
  have elsewhere : ∀ row' : ReceiptRow, (History.db (c :: h) .receipts).get id = some row' →
      row'.scanState = .scanning := by
    intro row' stored'
    obtain rfl := Option.some.inj (stored.symm.trans stored')
    exact scanning
  cases event with
  | applied =>
      obtain ⟨_, row', -, after, -, idle, -⟩ := means
      exact absurd (elsewhere row' after) (by simp [idle])
  | attempt | reclaim | stuck =>
      obtain ⟨_, row', -, after, -, failed | queued, -⟩ := means
      · exact absurd (elsewhere row' after) (by simp [failed])
      · exact absurd (elsewhere row' after) (by simp [queued])
  | superseded =>
      obtain ⟨_, row', -, after, -, queued, -⟩ := means
      exact absurd (elsewhere row' after) (by simp [queued])
  | deleted => exact absurd (means.2.symm.trans stored) (by simp)
  | _ => cases ends

/-- A receipt takes a token by a claim, which gives a token later than every commit
so far. -/
theorem Promised.token_taken (promised : Promised setup h c) {token : ℕ}
    (before : carriesToken id token h = false) (after : carriesToken id token (c :: h) = true) :
    eventOf h c id = .claimed ∧ (∀ other ∈ h, other.stop < token) ∧ token ≤ c.stop := by
  obtain ⟨row, stored, scanning, carried⟩ := carriesToken_iff.mp after
  rcases promised.row_cases .receipts id with ⟨same, -⟩ | ⟨now, label, member, isNow, wrote⟩
  · have still := carriesToken_iff.mpr ⟨row, same ▸ stored, scanning, carried⟩
    exact absurd (before.symm.trans still) (by decide)
  obtain rfl := isNow.symm.trans stored
  obtain ⟨row', stored', ⟨was, kept, -⟩ | ⟨-, rfl, token', rfl, late, inTime⟩⟩ :=
    ReceiptWrote.of_scanning wrote scanning
  · have still := carriesToken_iff.mpr ⟨row', stored', was, kept.trans carried⟩
    exact absurd (before.symm.trans still) (by decide)
  · obtain rfl := Option.some.inj carried
    exact ⟨by rw [eventOf, promised.labelOf_eq member]; rfl, late, inTime⟩

/-- A token is given to a receipt once at most. -/
theorem token_taken_once (reachable : Config.Reachable (application setup) config)
    (past : h <:+ config.world.history) (id token : ℕ) :
    countTurns (carriesToken id token) true h ≤ 1 ∧
      (0 < countTurns (carriesToken id token) true h → ∃ commit ∈ h, token ≤ commit.stop) := by
  refine invariant_of_reachable reachable
    (P := fun h => countTurns (carriesToken id token) true h ≤ 1 ∧
      (0 < countTurns (carriesToken id token) true h → ∃ commit ∈ h, token ≤ commit.stop))
    (by simp [countTurns]) ?_ h past
  rintro c earlier - promised ⟨once, given⟩
  by_cases turns : carriesToken id token (c :: earlier) = true ∧ carriesToken id token earlier = false
  · obtain ⟨-, late, inTime⟩ := promised.token_taken turns.2 turns.1
    have none : countTurns (carriesToken id token) true earlier = 0 := by
      by_contra some
      obtain ⟨commit, member, early⟩ := given (Nat.pos_of_ne_zero some)
      have := late commit member
      omega
    rw [countTurns, none, turns.1, turns.2]
    exact ⟨by decide, fun _ => ⟨c, List.mem_cons_self, inTime⟩⟩
  · have same : countTurns (carriesToken id token) true (c :: earlier) =
        countTurns (carriesToken id token) true earlier := by
      simp_all [countTurns]
    rw [same]
    exact ⟨once, fun some => (given some).imp fun _ => And.imp_left (List.mem_cons_of_mem _)⟩

/-- A turn that a commit of the history makes is counted. -/
theorem countTurns_pos {check : History store outside → Bool} {turned : Bool}
    (past : c :: earlier <:+ h) (after : check (c :: earlier) = turned)
    (before : check earlier ≠ turned) : 0 < countTurns check turned h := by
  induction h with
  | nil => simp at past
  | cons c' h ih =>
      rcases List.suffix_cons_iff.mp past with equal | inside
      · obtain ⟨rfl, rfl⟩ := List.cons.inj equal
        have turns : (check earlier != turned) = true := bne_iff_ne.mpr before
        simp [countTurns, after, turns]
      · have counted := ih inside
        simp only [countTurns]
        omega

/-- What a process does to a claim of its own, it does by writing the row. -/
theorem write_of_isOwn (own : (eventOf h c id).isOwn = true) : ∃ write ∈ c.writes,
    write.table = .receipts ∧ write.id = id ∧
      write.label ∈ [Label.writeExtraction, .writeVerify, .recordFailure] := by
  unfold eventOf at own
  cases isLabel : labelOf c id with
  | none => simp [isLabel, LaneEvent.isOwn] at own
  | some label =>
      obtain ⟨write, first, rfl⟩ := Option.map_eq_some_iff.mp isLabel
      have is := List.find?_some first
      simp only [Bool.and_eq_true, decide_eq_true_eq] at is
      refine ⟨write, List.mem_of_find?_eq_some first, is.1, is.2, ?_⟩
      rw [isLabel] at own
      generalize write.label = label at own
      -- the other statements leave events of another kind
      cases label <;> simp only [laneEvent] at own <;> (try split at own) <;>
        simp_all [LaneEvent.isOwn]

/-- A result is applied, and a failure counted, by a process that has been given the claim
which the row carries. -/
theorem given_of_isOwn (reachable : Config.Reachable (application setup) config)
    (past : c :: earlier <:+ config.world.history) (own : (eventOf earlier c id).isOwn = true) :
    ∃ claim, config.jobs c.tid = some (.process claim) ∧ claim.receiptId = id ∧
      carriesToken id claim.claimedAt earlier = true := by
  obtain ⟨write, made, onTable, rfl, labelled⟩ := write_of_isOwn own
  obtain ⟨job, isJob, within⟩ := labels_of_reachable reachable (past.subset List.mem_cons_self)
  obtain ⟨proc, found, rfl⟩ := Option.map_eq_some_iff.mp isJob
  have prepared := ((keeps_promise setup config.jobs).inv reachable config.agrees_jobs).prepared
    c.tid proc found
  have label := within write made
  have process : ∃ claim, proc.job = .process claim := by
    generalize proc.job = job at label prepared
    cases job with
    | process claim => exact ⟨claim, rfl⟩
    | applyResult claim result => exact prepared.elim
    | _ => simp only [List.mem_cons, List.not_mem_nil, or_false] at labelled
           rcases labelled with same | same | same <;> simp [same, Job.labels] at label
  obtain ⟨claim, process⟩ := process
  rw [process] at isJob
  obtain ⟨⟨row, stored, held⟩, covers⟩ := (keeps_whileClaimed setup Job.root config.jobs).sound
    reachable config.agrees_jobs past _ claim isJob rfl
  have isId := covers write made onTable
  obtain ⟨-, scanning, token⟩ := holds_iff.mp held
  exact ⟨claim, isJob, isId.symm, carriesToken_iff.mpr ⟨row, isId ▸ stored, scanning, token⟩⟩

end Claims

section Notices

/-- Nothing is notified twice, and nothing before it has failed. -/
theorem notified_initial {calls : List (Said outside)} {tid : ℕ}
    (spoken : Spoken (promise setup) tid calls h) : notified calls <+: failures h tid := by
  induction calls with
  | nil => exact List.nil_prefix
  | cons said calls ih =>
      have before : Spoken (promise setup) tid calls h := fun other prior inside =>
        spoken other prior (inside.trans (List.suffix_cons _ _))
      obtain ⟨seen, past, allowed⟩ := spoken said calls List.suffix_rfl
      rw [notified_cons]
      cases found : notice said.call with
      | none => simpa using ih before
      | some receiptId =>
          obtain ⟨call, reply⟩ := said
          cases call with
          | notify userId event receiptId' reason =>
              obtain rfl : receiptId' = receiptId := Option.some.inj found
              refine allowed.1.trans ?_
              obtain ⟨later, rfl⟩ := past
              exact ⟨failures later tid, by simp [failures, History.ofTid]⟩
          | _ => cases found

/-- The receipts that a commit fails are those that were not failed before it and are
after. -/
theorem Promised.mem_failedBy (promised : Promised setup h c) (id : ℕ) :
    id ∈ failedBy c ↔ ∃ before after : ReceiptRow, (h.db .receipts).get id = some before ∧
      (History.db (c :: h) .receipts).get id = some after ∧ before.scanState ≠ .scanFailed ∧
      after.scanState = .scanFailed := by
  have isWritten : id ∈ failedBy c ↔ ∃ (row : ReceiptRow) (label : Label),
      ⟨.receipts, id, some row, label⟩ ∈ c.writes ∧ row.scanState = .scanFailed ∧
        (label = .reclaimStuck ∨ label = .recordFailure) := by
    simp only [failedBy, List.mem_filterMap]
    constructor
    · rintro ⟨⟨table, other, row, label⟩, member, found⟩
      cases table with
      | receipts =>
          cases row with
          | none => cases found
          | some row =>
              simp only [Option.ite_none_right_eq_some, Option.some.injEq] at found
              obtain ⟨⟨failed, which⟩, rfl⟩ := found
              exact ⟨row, label, member, failed, which⟩
      | _ => cases found
    · rintro ⟨row, label, member, failed, which⟩
      exact ⟨_, member, by simp [failed, which]⟩
  rw [isWritten]
  constructor
  · rintro ⟨row, label, member, failed, which⟩
    have after := promised.get (by decide) member
    have wrote := promised.wrote _ member
    cases wrote with
    | reclaimed stored scanning => exact ⟨_, _, stored, after, by simp [scanning], failed⟩
    | failed stored holds =>
        exact ⟨_, _, stored, after, by simp [(holds_iff.mp holds).2.1], failed⟩
    | _ => simp at which
  · rintro ⟨before, after, stored, now, notFailed, failed⟩
    rcases promised.row_cases .receipts id with ⟨same, -⟩ | ⟨row, label, member, isNow, wrote⟩
    · obtain rfl := Option.some.inj ((same ▸ stored).symm.trans now)
      exact absurd failed notFailed
    obtain rfl := isNow.symm.trans now
    refine ⟨after, label, member, failed, ?_⟩
    have kept : ∀ row : ReceiptRow, (h.db .receipts).get id = some row →
        row.scanState ≠ .scanFailed := by
      intro row stored'
      obtain rfl := Option.some.inj (stored.symm.trans stored')
      exact notFailed
    cases wrote with
    | uploaded => cases failed
    | created => cases failed
    | requeued => cases failed
    | @patched was _ _ _ _ stored' =>
        exact absurd (failed : was.scanState = .scanFailed) (kept was stored')
    | retried => cases failed
    | @unlinked was _ stored' =>
        exact absurd (failed : was.scanState = .scanFailed) (kept was stored')
    | @detached was _ stored' =>
        exact absurd (failed : was.scanState = .scanFailed) (kept was stored')
    | claimed => cases failed
    | extracted => cases failed
    | verified => cases failed
    | reclaimed => exact Or.inl rfl
    | failed => exact Or.inr rfl

theorem mem_failedBy_of (failed : id ∈ failedBy c) : ∃ (row : ReceiptRow) (label : Label),
    ⟨.receipts, id, some row, label⟩ ∈ c.writes ∧ (label = .reclaimStuck ∨ label = .recordFailure) := by
  obtain ⟨⟨table, other, row, label⟩, member, found⟩ := List.mem_filterMap.mp failed
  cases table with
  | receipts =>
      cases row with
      | none => cases found
      | some row =>
          simp only [Option.ite_none_right_eq_some, Option.some.injEq] at found
          obtain ⟨⟨-, which⟩, rfl⟩ := found
          exact ⟨row, label, member, which⟩
  | _ => cases found

/-- A commit fails a receipt once. -/
theorem Promised.nodup_failedBy (promised : Promised setup h c) : (failedBy c).Nodup := by
  have apart := promised.singly
  rw [Singly, Apart, List.pairwise_filter] at apart
  refine List.Pairwise.filterMap _ ?_ apart
  rintro ⟨table, id, row, label⟩ ⟨table', id', row', label'⟩ apart failed found failed' found' rfl
  cases table <;> cases row <;> try cases found
  cases table' <;> cases row' <;> try cases found'
  simp only [Option.ite_none_right_eq_some, Option.some.injEq] at found found'
  exact apart (by simp) (by simp) ⟨rfl, found'.2.trans found.2.symm⟩

/-- A process has notified of nothing it has not failed, and of everything once it has
ended. -/
theorem notified_of_reachable (reachable : Config.Reachable (application setup) config) {tid : ℕ}
    {proc : Proc store outside Job} (found : config.procs tid = some proc) :
    notified proc.own.calls <+: failures config.world.history tid ∧
      ∀ answer, proc.life = .ended answer →
        notified proc.own.calls = failures config.world.history tid := by
  have keeps := keeps_promise setup config.jobs
  have spoken := keeps.spoken reachable config.agrees_jobs found
  refine ⟨notified_initial spoken, fun answer ended => ?_⟩
  have done := keeps.done reachable config.agrees_jobs found ended
  have isJob : config.jobs tid = some proc.job := by simp [Config.jobs, found]
  -- only the worker's jobs fail a receipt
  have silent : (.reclaimStuck ∉ proc.job.labels ∧ .recordFailure ∉ proc.job.labels) →
      notified proc.own.calls = failures config.world.history tid := by
    rintro ⟨noReclaim, noFailure⟩
    have none : failures config.world.history tid = [] := by
      refine List.flatMap_eq_nil_iff.mpr fun c member => List.eq_nil_iff_forall_not_mem.mpr ?_
      intro id failed
      obtain ⟨there, isTid⟩ := List.mem_filter.mp (List.mem_reverse.mp member)
      obtain ⟨job, same, within⟩ := labels_of_reachable reachable there
      rw [of_decide_eq_true isTid, isJob] at same
      obtain rfl := Option.some.inj same
      obtain ⟨row, label, written, rfl | rfl⟩ := mem_failedBy_of failed
      · exact noReclaim (within _ written)
      · exact noFailure (within _ written)
    have before := notified_initial spoken
    rw [none] at before ⊢
    exact List.prefix_nil.mp before
  have prepared := (keeps.inv reachable config.agrees_jobs).prepared tid proc found
  generalize proc.job = job at done silent prepared
  cases job with
  | tick => exact done
  | process => exact done
  | applyResult claim result => exact prepared.elim
  | _ => exact silent (by simp [Job.labels])

/-- A notification is to the owner that the receipt has had all the time. -/
theorem notice_to_owner (reachable : Config.Reachable (application setup) config) {tid : ℕ}
    {proc : Proc store outside Job} (found : config.procs tid = some proc) {said : Said outside}
    (made : said ∈ proc.own.calls) {userId receiptId : ℕ} {event reason : String}
    (isNotice : said.call = .notify userId event receiptId reason) {seen : History store outside}
    (past : seen <:+ config.world.history) {row : ReceiptRow}
    (stored : (seen.db .receipts).get receiptId = some row) : row.userId = userId := by
  have spoken := (keeps_promise setup config.jobs).spoken reachable config.agrees_jobs found
  obtain ⟨later, prior, split⟩ := List.append_of_mem made
  obtain ⟨then_, old, allowed⟩ := spoken said prior ⟨later, split.symm⟩
  rw [isNotice] at allowed
  obtain ⟨-, first, firstRow, older, firstStored, owner⟩ := allowed
  rcases List.suffix_or_suffix_of_suffix past (older.trans old) with before | after
  · obtain ⟨same, there, isOwner⟩ := receipt_between reachable (older.trans old)
      List.suffix_rfl before stored firstStored
    obtain rfl := Option.some.inj (there.symm.trans stored)
    exact isOwner.trans owner
  · obtain ⟨same, there, isOwner⟩ := receipt_between reachable past List.suffix_rfl after
      firstStored stored
    obtain rfl := Option.some.inj (there.symm.trans firstStored)
    exact isOwner.symm.trans owner

end Notices

/-- Every claim of the run so far has been settled exactly once, or is live; and every
failure has been told exactly once, or is about to be. -/
structure SettledOnce (config : Config store outside Job) : Prop where
  /-- what each commit does to the lane of a receipt and to its counters -/
  events : ∀ (c : Commit store outside) (earlier : History store outside) (id : ℕ),
    c :: earlier <:+ config.world.history → (eventOf earlier c id).Means
      ((earlier.db .receipts).get id) ((History.db (c :: earlier) .receipts).get id)
  balance : ∀ id, countEvents (· = .claimed) id config.world.history =
    countEvents (· = .applied) id config.world.history +
      (countEvents (· = .attempt) id config.world.history +
        countEvents (· = .reclaim) id config.world.history +
        countEvents (· = .stuck) id config.world.history) +
      countEvents (· = .superseded) id config.world.history +
      countEvents (· = .deleted) id config.world.history +
      (isScanning ((config.world.history.db .receipts).get id)).toNat
  undeleted : ∀ id, (config.world.history.db .receipts).get id ≠ none →
    countEvents (· = .deleted) id config.world.history = 0
  /-- one claim, known by its token, has begun once, and has ended once or is live -/
  once : ∀ (c : Commit store outside) (earlier : History store outside) (id token : ℕ),
    c :: earlier <:+ config.world.history → eventOf earlier c id = .claimed →
    carriesToken id token (c :: earlier) = true →
    countTurns (carriesToken id token) true config.world.history = 1 ∧
      countTurns (carriesToken id token) false config.world.history +
        (carriesToken id token config.world.history).toNat = 1
  ends : ∀ (c : Commit store outside) (earlier : History store outside) (id token : ℕ),
    c :: earlier <:+ config.world.history → carriesToken id token earlier = true →
    (carriesToken id token (c :: earlier) = false ↔ (eventOf earlier c id).ends = true)
  /-- a result is applied, and a failure counted, by the process of the claim that is live -/
  given : ∀ (c : Commit store outside) (earlier : History store outside) (id : ℕ),
    c :: earlier <:+ config.world.history → (eventOf earlier c id).isOwn = true →
    ∃ claim, config.jobs c.tid = some (.process claim) ∧ claim.receiptId = id ∧
      carriesToken id claim.claimedAt earlier = true
  alone : ∀ (earlier : History store outside) (id token other : ℕ),
    carriesToken id token earlier = true → carriesToken id other earlier = true → token = other
  /-- the failures of a commit are its transitions into scan_failed, each once -/
  failing : ∀ (c : Commit store outside) (earlier : History store outside) (id : ℕ),
    c :: earlier <:+ config.world.history → (id ∈ failedBy c ↔ ∃ before after : ReceiptRow,
      (earlier.db .receipts).get id = some before ∧
      (History.db (c :: earlier) .receipts).get id = some after ∧
      before.scanState ≠ .scanFailed ∧ after.scanState = .scanFailed)
  single : ∀ c ∈ config.world.history, (failedBy c).Nodup
  made : ∀ c ∈ config.world.history, ∃ proc, config.procs c.tid = some proc
  /-- a process tells of its failures in order, and of all of them before it ends -/
  told : ∀ tid proc, config.procs tid = some proc →
    notified proc.own.calls <+: failures config.world.history tid ∧
      ∀ answer, proc.life = .ended answer →
        notified proc.own.calls = failures config.world.history tid
  owner : ∀ tid proc, config.procs tid = some proc → ∀ said ∈ proc.own.calls,
    ∀ userId event receiptId reason, said.call = .notify userId event receiptId reason →
    ∀ seen : History store outside, seen <:+ config.world.history → ∀ row : ReceiptRow,
      (seen.db .receipts).get receiptId = some row → row.userId = userId

/-- Every claim is settled exactly once. -/
theorem claims_settled (reachable : Config.Reachable (application setup) config) :
    SettledOnce config where
  events _ _ id past := (promised_of_reachable reachable past).means id
  balance id := by
    rw [claims_balance reachable List.suffix_rfl, countEvents_ends]
  undeleted id stands := not_deleted reachable List.suffix_rfl stands
  once c earlier id token past claimed carried := by
    have balance := @turns_balance (carriesToken id token) (by simp [carriesToken])
      config.world.history
    have most := (token_taken_once reachable List.suffix_rfl id token).1
    have before : carriesToken id token earlier ≠ true := by
      intro carries
      obtain ⟨row, stored, scanning, -⟩ := carriesToken_iff.mp carries
      have means := (promised_of_reachable reachable past).means id
      rw [claimed] at means
      obtain ⟨row', -, stored', queued, -⟩ := means
      obtain rfl := Option.some.inj (stored.symm.trans stored')
      exact absurd (scanning.symm.trans queued) (by decide)
    have least := countTurns_pos past carried before
    omega
  ends c earlier id token past carried :=
    ⟨(promised_of_reachable reachable past).token_lost carried,
      (promised_of_reachable reachable past).not_carries_of_ends⟩
  given _ _ _ past own := given_of_isOwn reachable past own
  alone earlier id token other carries carries' := by
    obtain ⟨row, stored, -, isToken⟩ := carriesToken_iff.mp carries
    obtain ⟨row', stored', -, isOther⟩ := carriesToken_iff.mp carries'
    obtain rfl := Option.some.inj (stored.symm.trans stored')
    exact Option.some.inj (isToken.symm.trans isOther)
  failing c earlier id past := (promised_of_reachable reachable past).mem_failedBy id
  single c member := by
    obtain ⟨later, earlier, split⟩ := List.append_of_mem member
    exact (promised_of_reachable reachable ⟨later, split.symm⟩).nodup_failedBy
  made c member := by
    obtain ⟨job, isJob, -⟩ := labels_of_reachable reachable member
    obtain ⟨proc, found, -⟩ := Option.map_eq_some_iff.mp isJob
    exact ⟨proc, found⟩
  told _ _ found := notified_of_reachable reachable found
  owner _ _ found _ made _ _ _ _ isNotice _ past _ stored :=
    notice_to_owner reachable found made isNotice past stored

theorem claims_of_oneScanned :
    countEvents (· = .claimed) 1 oneScanned.world.history = 1 ∧
      SettledOnce oneScanned :=
  ⟨by decide +kernel, claims_settled reachable_oneScanned⟩

end ReceiptScanner

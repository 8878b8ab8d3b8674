import ReceiptScanner.Ledger.Tokens
import ReceiptScanner.ReadCommitted.Quota
import ReceiptScanner.Runs.Edits

/-!
# Slots of the scanner

A poll claims no more receipts than there are free slots, counted from the rows that are
scanning in its snapshot. Polls that race do not see each other's claims, so the cap is soft:
it is exceeded by one poll's worth of claims for each rival.
-/

namespace ReceiptScanner

open ReadCommitted

variable {setup : Setup} {config : Config store outside Job} {c : Commit store outside}
  {h earlier : History store outside} {id : ℕ}

section Count

/-- The receipts that are being scanned. -/
def scanningIds (db : Db store) : List ℕ :=
  ((db .receipts).list.filter fun (_, row) => row.scanState == .scanning).map Prod.fst

theorem mem_scanningIds {db : Db store} : id ∈ scanningIds db ↔
    ∃ row : ReceiptRow, (db .receipts).get id = some row ∧ row.scanState = .scanning := by
  simp [scanningIds]

theorem nodup_scanningIds (db : Db store) : (scanningIds db).Nodup :=
  List.pairwise_map.mpr ((db .receipts).pairwise_list.filter _)

theorem freeSlots_eq (setup : Setup) (db : Db store) :
    ScanWorker.freeSlots setup db = (setup.concurrency - (scanningIds db).length).toNat := by
  rw [scanningIds, List.length_map]
  rfl

/-- The receipts that a commit claims. -/
def claimedBy (c : Commit store outside) : List ℕ :=
  (c.writes.filter fun write => write.label == .claim).map Write.id

theorem mem_claimedBy : id ∈ claimedBy c ↔ ∃ write ∈ c.writes, write.label = .claim ∧ write.id = id := by
  simp [claimedBy, and_assoc]

/-- Only a claim puts a receipt on the lane. -/
theorem Promised.scanning_added (promised : Promised setup h c)
    (now : id ∈ scanningIds (History.db (c :: h))) : id ∈ scanningIds h.db ∨ id ∈ claimedBy c := by
  obtain ⟨row, stored, scanning⟩ := mem_scanningIds.mp now
  rcases promised.row_cases .receipts id with ⟨same, -⟩ | ⟨now, label, written, isNow, wrote⟩
  · exact Or.inl (mem_scanningIds.mpr ⟨row, same ▸ stored, scanning⟩)
  · obtain rfl := isNow.symm.trans stored
    obtain ⟨before, was, ⟨still, -, -⟩ | ⟨-, rfl, -⟩⟩ := ReceiptWrote.of_scanning wrote scanning
    · exact Or.inl (mem_scanningIds.mpr ⟨before, was, still⟩)
    · exact Or.inr (mem_claimedBy.mpr ⟨_, written, rfl, rfl⟩)

theorem Promised.scanning_grows (promised : Promised setup h c) :
    (scanningIds (History.db (c :: h))).length ≤
      (scanningIds h.db).length + (claimedBy c).length := by
  have within : scanningIds (History.db (c :: h)) ⊆ scanningIds h.db ++ claimedBy c :=
    fun id now => List.mem_append.mpr (promised.scanning_added now)
  rw [← List.length_append]
  exact ((nodup_scanningIds _).subperm within).length_le

end Count

section Claims

variable {jobs : ℕ → Option Job}

/-- How many commits the first statement of a commit saw. -/
def snapshotOf (c : Commit store outside) : ℕ := (c.spans.headD (0, 0)).1

/-- A commit that claims receipts has counted the free slots in its snapshot. -/
def counted (setup : Setup) : Guarantee store outside where
  commits h c := claimedBy c ≠ [] → ∃ seen : History store outside, seen <:+ h ∧
    snapshotOf c = seen.length ∧ (claimedBy c).length ≤ ScanWorker.freeSlots setup seen.db
  calls _ _ _ _ := True

theorem claimedBy_eq_nil (other : ∀ write ∈ c.writes, write.label ≠ .claim) : claimedBy c = [] := by
  refine List.map_eq_nil_iff.mpr (List.filter_eq_nil_iff.mpr fun write member => ?_)
  simpa using other write member

namespace ScanWorker

theorem length_claimRows (setup : Setup) (ctx : Ctx store) :
    (claimRows setup ctx).writes.length ≤ freeSlots setup ctx.snap := by
  simp [claimRows, claimable]

theorem promises_claim (setup : Setup) :
    Promises ⟨setup, counted setup, fun _ => True⟩ (claim setup) := by
  refine promises_exec fun opening entry ctx calls stop _ ran linked _ _ => ?_
  refine ⟨entry.snap, linked.spanned entry (List.mem_singleton_self entry), rfl, ?_⟩
  have snap : ctx.snap = entry.snap.db := ran.snap
  have writes : (opening.commit calls [entry] stop).writes = (claimRows setup ctx).writes := ran.writes
  rw [← snap]
  refine le_trans ?_ (length_claimRows setup ctx)
  rw [claimedBy, List.length_map, writes]
  exact List.length_filter_le _ _

theorem promises_notifyReclaimed (row : ℕ × ℕ × ScanState) :
    Promises ⟨setup, counted setup, fun _ => True⟩ (notifyReclaimed row) := by
  unfold notifyReclaimed
  split
  · refine promises_tryCatch (promises_call fun _ _ _ => trivial) fun raised => ?_
    split
    · exact promises_throw _
    · exact promises_pure _
  · exact promises_pure _

theorem promises_reclaimStuck (setup : Setup) :
    Promises ⟨setup, counted setup, fun _ => True⟩ (reclaimStuck setup) := by
  refine promises_bind (promises_exec fun opening entry ctx calls stop _ ran _ _ claims => ?_)
    fun rows => promises_forM rows promises_notifyReclaimed
  refine absurd (claimedBy_eq_nil fun write member => ?_) claims
  have made : write ∈ (updateStuck setup ctx).writes := ran.writes ▸ member
  obtain ⟨target, -, rfl⟩ := List.mem_map.mp made
  simp

end ScanWorker

/-- Every job counts the free slots before it claims. -/
theorem keeps_counted (setup : Setup) (jobs : ℕ → Option Job) :
    Keeps (application setup) (counted setup) (Terms.free jobs) := by
  refine Keeps.of_free fun job tid world assigned => ?_
  by_cases polls : job = .tick
  · subst polls
    have polled : Promises ⟨setup, counted setup, fun _ => True⟩
        (ScanWorker.reclaimStuck setup >>= fun _ => ScanWorker.claim setup) :=
      promises_bind (ScanWorker.promises_reclaimStuck setup) fun _ => ScanWorker.promises_claim setup
    refine Prog.wp_bind.mpr (Prog.wp_bind.mpr (Prog.wp_mono (fun outcome own later _ => ?_)
      (polled tid [] world trivial)))
    cases outcome <;> trivial
  · refine Prog.wp_of_within (within_prog setup job) (fun h c _ writes _ claims => ?_)
      (fun _ _ _ _ => trivial) (fun _ _ _ _ => trivial) (Local.Stays.fresh _ tid)
    refine absurd (claimedBy_eq_nil fun write member isClaim => ?_) claims
    have listed := (writes write member).1
    rw [isClaim] at listed
    cases job with
    | tick => exact polls rfl
    | _ => simp [Job.labels] at listed

end Claims

section Cap

/-- How many receipts a commit claims. -/
def claimCount (c : Commit store outside) : ℕ := (claimedBy c).length

theorem claimCount_eq_zero : claimCount c = 0 ↔ claimedBy c = [] := List.length_eq_zero_iff

/-- The slots are a quota of the claims. -/
theorem quota_of_reachable (reachable : Config.Reachable (application setup) config) :
    Quota setup.concurrency.toNat (fun h : History store outside => (scanningIds h.db).length)
      claimCount snapshotOf config.world.history where
  empty := rfl
  grows c earlier past := (promised_of_reachable reachable past).scanning_grows
  fits c earlier past takes := by
    have claims : claimedBy c ≠ [] := fun none => takes (claimCount_eq_zero.mpr none)
    obtain ⟨seen, before, first, few⟩ :=
      (keeps_counted setup config.jobs).sound reachable config.agrees_jobs past claims
    have some : 0 < (claimedBy c).length := List.length_pos_of_ne_nil claims
    rw [freeSlots_eq] at few
    rw [first, ← List.suffix_iff_eq_drop.mp before, claimCount]
    omega

/-- A commit that claims is a poll's. -/
theorem tick_of_claimedBy (reachable : Config.Reachable (application setup) config)
    (member : c ∈ config.world.history) (claims : id ∈ claimedBy c) :
    config.jobs c.tid = some .tick := by
  obtain ⟨write, made, isClaim, -⟩ := mem_claimedBy.mp claims
  obtain ⟨job, isJob, within⟩ := labels_of_reachable reachable member
  have listed := within write made
  rw [isClaim] at listed
  cases job with
  | tick => exact isJob
  | _ => simp [Job.labels] at listed

/-- The scanner never holds more receipts than its slots, and as many again for each poll that
one poll races with: the claims that others committed since its snapshot. What a commit adds
to the receipts that are being scanned, it claims, for a poll. -/
theorem slots_soft (reachable : Config.Reachable (application setup) config) {most : ℕ}
    (racing : ∀ c earlier, c :: earlier <:+ config.world.history → claimedBy c ≠ [] →
      rivals claimCount (snapshotOf c) earlier ≤ most) :
    (scanningIds config.world.history.db).length ≤ setup.concurrency.toNat * (most + 1) ∧
    ∀ (c : Commit store outside) (earlier : History store outside),
      c :: earlier <:+ config.world.history →
      ∀ id ∈ scanningIds (History.db (c :: earlier)), id ∉ scanningIds earlier.db →
        id ∈ claimedBy c ∧ config.jobs c.tid = some .tick := by
  constructor
  · refine (quota_of_reachable reachable).used_le fun c earlier past takes => ?_
    exact racing c earlier past fun none => takes (claimCount_eq_zero.mpr none)
  · intro c earlier past id now new
    have claims := ((promised_of_reachable reachable past).scanning_added now).resolve_left new
    exact ⟨claims, tick_of_claimedBy reachable (past.subset List.mem_cons_self) claims⟩

/-- Three receipts wait, and two polls take their snapshots before either claims. -/
@[irreducible] def polledTwice : Config store outside Job :=
  Config.ran (application demo) (registering 0 "ann" "secret" ++ uploading 1 1 ["first"] ++
    uploading 2 1 ["second"] ++ uploading 3 1 ["third"] ++ [.spawn .tick, .spawn .tick] ++
    statements 4 1 ++ statements 5 1 ++ [.start 4, .start 5, .finish 4, .finish 5])
    (by decide +kernel)

theorem reachable_polledTwice : Config.Reachable (application demo) polledTwice := by
  unfold polledTwice
  exact Config.reachable_ran _

/-- There are two slots, and three receipts are being scanned: four would be the most. -/
theorem slots_soft_of_polledTwice : demo.concurrency = 2 ∧
    (scanningIds polledTwice.world.history.db).length = 3 ∧
      (scanningIds polledTwice.world.history.db).length ≤ 2 * (1 + 1) := by
  have racing : polledTwice.world.history.every (fun earlier c =>
      (claimedBy c).isEmpty || rivals claimCount (snapshotOf c) earlier ≤ 1) = true := by
    decide +kernel
  refine ⟨rfl, by decide +kernel,
    (slots_soft reachable_polledTwice fun c earlier past claims => ?_).1⟩
  simpa [claims] using History.every_iff.mp racing c earlier past

end Cap

end ReceiptScanner

import ReceiptScanner.Ledger.Tenants

/-!
# What an offset link points at

A link is checked where it is written, and by that statement's transaction alone: the
target is read without a lock, and a later change of the target's kind does not look
for links to it. `linksStand` says that a link is committed while its target is still a
purchase, and that a purchase which is reclassified has no link to it.
-/

namespace ReceiptScanner

open ReadCommitted

variable {setup : Setup} {config : Config store outside Job} {c : Commit store outside}
  {h : History store outside} {id target : ℕ}

/-- The receipt can be the target of a link. -/
def isTarget (db : Db store) (id : ℕ) : Bool :=
  ((db .receipts).get id).any fun row : ReceiptRow => (rulesFor row.kind).isOffsetTarget

/-- The receipt has this link. -/
def hasLink (db : Db store) (id target : ℕ) : Bool :=
  ((db .receipts).get id).any fun row : ReceiptRow => row.offsetsReceiptId == some target

/-- A link that the commit writes anew is to a receipt that can be a target when the
commit is made, and a receipt that can no longer be one is then nobody's target. -/
def linksStand (h : History store outside) (c : Commit store outside) : Bool :=
  c.writes.all fun
    | ⟨.receipts, id, some row, _⟩ =>
        row.offsetsReceiptId.all (fun target => hasLink h.db id target || isTarget h.db target) &&
          ((rulesFor row.kind).isOffsetTarget || !isTarget h.db id ||
            (History.db (c :: h) .receipts).list.all fun (_, other) =>
              other.offsetsReceiptId != some id)
    | _ => true

/-- What can be a target has no link of its own. -/
theorem not_canOffset_of_isOffsetTarget {kind : Kind}
    (target : (rulesFor kind).isOffsetTarget = true) : (rulesFor kind).canOffset = false := by
  cases kind <;> first | rfl | cases target

theorem isTarget_iff {db : Db store} : isTarget db id = true ↔ ∃ row : ReceiptRow,
    (db .receipts).get id = some row ∧ (rulesFor row.kind).isOffsetTarget = true := by
  simp [isTarget, Option.any_eq_true]

theorem hasLink_iff {db : Db store} : hasLink db id target = true ↔ ∃ row : ReceiptRow,
    (db .receipts).get id = some row ∧ row.offsetsReceiptId = some target := by
  simp [hasLink, Option.any_eq_true]

/-- A link that is written was there before, on a kind that could have it, or has been
checked by the statement that writes it. -/
theorem ReceiptWrote.link {row : ReceiptRow} {label : Label}
    (wrote : ReceiptWrote setup h c id (some row) label)
    (names : row.offsetsReceiptId = some target) :
    (∃ before : ReceiptRow, (h.db .receipts).get id = some before ∧
      before.offsetsReceiptId = some target ∧ ((rulesFor before.kind).canOffset = true →
        (rulesFor row.kind).canOffset = true)) ∨
      ((rulesFor row.kind).canOffset = true ∧ target ≠ id) := by
  cases wrote with
  | uploaded => cases names
  | unlinked => cases names
  | @created userId r purchaseDate fresh valid references =>
      obtain ⟨-, offset⟩ := references
      obtain ⟨-, seen, other, saw, stored, -⟩ := offset target names
      refine Or.inr ⟨valid.offsets (Option.isSome_iff_exists.mpr ⟨target, names⟩), ?_⟩
      rintro rfl
      simp [fresh.get saw.1] at stored
  | @patched before body r reviewed purchaseDate stored applied references =>
      obtain ⟨-, offset⟩ := references
      obtain ⟨different, -⟩ := offset target names
      refine Or.inr ⟨(applyReceiptPatch_valid applied).offsets
        (Option.isSome_iff_exists.mpr ⟨target, names⟩), ?_⟩
      rintro rfl
      exact different rfl
  | @extracted before claim result kind purchaseDate db stored =>
      change (if (rulesFor kind).canOffset then before.offsetsReceiptId else none) = some target
        at names
      split at names
      · rename_i can
        exact Or.inl ⟨before, stored, names, fun _ => can⟩
      · cases names
  | requeued stored => exact Or.inl ⟨_, stored, names, fun could => could⟩
  | retried stored => exact Or.inl ⟨_, stored, names, fun could => could⟩
  | detached stored => exact Or.inl ⟨_, stored, names, fun could => could⟩
  | reclaimed stored => exact Or.inl ⟨_, stored, names, fun could => could⟩
  | claimed stored => exact Or.inl ⟨_, stored, names, fun could => could⟩
  | failed stored => exact Or.inl ⟨_, stored, names, fun could => could⟩
  | verified stored => exact Or.inl ⟨_, stored, names, fun could => could⟩

/-- Every link is on a kind that can have one, and to another receipt that can be its
target. -/
def Linked (h : History store outside) : Prop :=
  ∀ id target, ∀ row : ReceiptRow, (h.db .receipts).get id = some row →
    row.offsetsReceiptId = some target →
    (rulesFor row.kind).canOffset = true ∧ target ≠ id ∧ isTarget h.db target = true

/-- A target stays one while the links to it stand. -/
theorem isTarget_cons (reachable : Config.Reachable (application setup) config)
    (past : c :: h <:+ config.world.history) (stand : linksStand h c = true) {row : ReceiptRow}
    (stored : (History.db (c :: h) .receipts).get id = some row)
    (names : row.offsetsReceiptId = some target) (before : isTarget h.db target = true) :
    isTarget (History.db (c :: h)) target = true := by
  have promised := promised_of_reachable reachable past
  have stands := intact_of_reachable reachable past .receipts id row stored
    (.receipts, target) (by simp [schema, refs, names])
  rcases promised.row_cases .receipts target with ⟨same, -⟩ | ⟨now, label, member, isNow, -⟩
  · rwa [isTarget, same]
  · obtain ⟨other, rfl⟩ := Option.ne_none_iff_exists'.mp (isNow ▸ stands)
    have here := (Bool.and_eq_true_iff.mp (List.all_eq_true.mp stand _ member)).2
    simp only [before, Bool.not_true, Bool.or_false, Bool.or_eq_true, List.all_eq_true] at here
    rcases here with still | unnamed
    · exact isTarget_iff.mpr ⟨other, isNow, still⟩
    · exact absurd names (bne_iff_ne.mp (unnamed (id, row) (Rows.mem_list.mpr stored)))

/-- A commit keeps every link meaningful. -/
theorem Linked.cons (reachable : Config.Reachable (application setup) config)
    (past : c :: h <:+ config.world.history) (stand : linksStand h c = true) (linked : Linked h) :
    Linked (c :: h) := by
  intro id target row stored names
  have promised := promised_of_reachable reachable past
  rcases promised.row_cases .receipts id with ⟨same, -⟩ | ⟨now, label, member, isNow, wrote⟩
  · obtain ⟨can, other, isTarget⟩ := linked id target row (same ▸ stored) names
    exact ⟨can, other, isTarget_cons reachable past stand stored names isTarget⟩
  obtain rfl := isNow.symm.trans stored
  have here := (Bool.and_eq_true_iff.mp (List.all_eq_true.mp stand _ member)).1
  simp only [names, Option.all_some, Bool.or_eq_true] at here
  have wasTarget : isTarget h.db target = true := by
    rcases here with linkedBefore | isTarget
    · obtain ⟨before, wasStored, named⟩ := hasLink_iff.mp linkedBefore
      exact (linked id target before wasStored named).2.2
    · exact isTarget
  have after := isTarget_cons reachable past stand stored names wasTarget
  rcases ReceiptWrote.link wrote names with ⟨before, wasStored, named, keeps⟩ | ⟨can, other⟩
  · obtain ⟨could, other, -⟩ := linked id target before wasStored named
    exact ⟨keeps could, other, after⟩
  · exact ⟨can, other, after⟩

/-- Offset links stay meaningful, in every run in which no receipt that is linked to
ceases to be a purchase. -/
theorem offsets_meaningful (reachable : Config.Reachable (application setup) config)
    (stand : ∀ (c : Commit store outside) (earlier : History store outside),
      c :: earlier <:+ config.world.history → linksStand earlier c = true) :
    ∀ id target, ∀ row : ReceiptRow, (config.world.history.db .receipts).get id = some row →
      row.offsetsReceiptId = some target →
      (rulesFor row.kind).canOffset = true ∧ target ≠ id ∧ ∃ other : ReceiptRow,
        (config.world.history.db .receipts).get target = some other ∧
        other.userId = row.userId ∧ (rulesFor other.kind).isOffsetTarget = true ∧
        other.offsetsReceiptId = none := by
  have linked : Linked config.world.history :=
    invariant_of_reachable reachable (P := Linked) (fun _ _ _ stored => by simp at stored)
      (fun c earlier past _ before => before.cons reachable past (stand c earlier past)) _
      List.suffix_rfl
  intro id target row stored names
  obtain ⟨can, different, target'⟩ := linked id target row stored names
  obtain ⟨other, there, isTarget⟩ := isTarget_iff.mp target'
  obtain ⟨other', there', owner⟩ :=
    (references_isolated reachable List.suffix_rfl).offset id row stored target names
  obtain rfl := Option.some.inj (there.symm.trans there')
  refine ⟨can, different, other, there, owner, isTarget, ?_⟩
  by_contra links
  obtain ⟨next, isNext⟩ := Option.ne_none_iff_exists'.mp links
  have could := (linked target next other there isNext).1
  simp [not_canOffset_of_isOffsetTarget isTarget] at could

/-- A purchase, and a refund of it. -/
def refunding : List (Move outside Job) :=
  registering 0 "ann" "secret" ++ entering 1 1 3 (.object [("total_cents", .unsigned 100)]) ++
    entering 2 1 4 (.object [("total_cents", .unsigned 100), ("kind", .string "refund"),
      ("offsets_receipt_id", .unsigned 1)])

/-- Where that run ends. -/
@[irreducible] def refunded : Config store outside Job :=
  Config.ran (application demo) refunding (by decide +kernel)

theorem reachable_refunded : Config.Reachable (application demo) refunded := by
  unfold refunded
  exact Config.reachable_ran _

theorem offsets_meaningful_of_refunded : ∃ row : ReceiptRow,
    (refunded.world.history.db .receipts).get 2 = some row ∧ row.offsetsReceiptId = some 1 ∧
      (rulesFor row.kind).canOffset = true := by
  have link : hasLink refunded.world.history.db 2 1 = true := by decide +kernel
  obtain ⟨row, stored, names⟩ := hasLink_iff.mp link
  exact ⟨row, stored, names, (offsets_meaningful reachable_refunded
    (History.every_iff.mp (by decide +kernel)) 2 1 row stored names).1⟩

/-- Then the purchase is made a transfer. -/
@[irreducible] def reclassified : Config store outside Job :=
  Config.ran (application demo)
    (refunding ++ patching 3 1 1 (.object [("kind", .string "transfer")])) (by decide +kernel)

theorem reachable_reclassified : Config.Reachable (application demo) reclassified := by
  unfold reclassified
  exact Config.reachable_ran _

theorem not_offsets_meaningful_of_reclassified : ¬ ∀ config : Config store outside Job,
    Config.Reachable (application demo) config →
    ∀ id target, ∀ row : ReceiptRow, (config.world.history.db .receipts).get id = some row →
      row.offsetsReceiptId = some target →
      (rulesFor row.kind).canOffset = true ∧ target ≠ id ∧ ∃ other : ReceiptRow,
        (config.world.history.db .receipts).get target = some other ∧
        other.userId = row.userId ∧ (rulesFor other.kind).isOffsetTarget = true ∧
        other.offsetsReceiptId = none := by
  intro always
  have link : hasLink reclassified.world.history.db 2 1 = true ∧
      isTarget reclassified.world.history.db 1 = false := by decide +kernel
  obtain ⟨row, stored, names⟩ := hasLink_iff.mp link.1
  obtain ⟨-, -, other, there, -, target, -⟩ :=
    always reclassified reachable_reclassified 2 1 row stored names
  exact absurd (link.2.symm.trans (isTarget_iff.mpr ⟨other, there, target⟩)) (by decide)

end ReceiptScanner

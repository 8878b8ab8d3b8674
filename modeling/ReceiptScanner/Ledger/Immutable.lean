import ReceiptScanner.Ledger.Objects
import ReceiptScanner.ReadCommitted.Bystander
import ReceiptScanner.Services.ReceiptController

/-!
# An image never changes

The image proxy lets browsers keep what it sends, for good. No statement changes a row of
`receipt_images`, ids are not given again, and no object is put under a key twice: whatever
is sent for an image id, at whatever time, is the same bytes, and sent to the same user.
-/

namespace ReceiptScanner

open ReadCommitted

variable {setup : Setup} {config first last first' last' latest : Config store outside Job}
  {h later seen : History store outside} {id userId imageId : ℕ}

section Images

/-- An image row that is there at two times is the same row. -/
theorem image_between (reachable : Config.Reachable (application setup) config)
    (past : h <:+ config.world.history) (before : seen <:+ h) {row row' : ReceiptImageRow}
    (was : (seen.db .receiptImages).get id = some row)
    (still : (h.db .receiptImages).get id = some row') : row' = row := by
  induction h with
  | nil =>
      obtain rfl := List.suffix_nil.mp before
      exact Option.some.inj (still.symm.trans was)
  | cons c h ih =>
      rcases List.suffix_cons_iff.mp before with rfl | inside
      · exact Option.some.inj (still.symm.trans was)
      rcases (promised_of_reachable reachable past).image_before still with there | ⟨-, fresh⟩
      · exact ih ((List.suffix_cons c h).trans past) inside there
      · exact absurd (was.symm.trans (fresh.get inside)) (by simp)

/-- In whichever order the two times come. -/
theorem image_alike (reachable : Config.Reachable (application setup) config)
    (past : h <:+ config.world.history) (past' : later <:+ config.world.history)
    {row row' : ReceiptImageRow} (was : (h.db .receiptImages).get id = some row)
    (still : (later.db .receiptImages).get id = some row') : row' = row := by
  rcases List.suffix_or_suffix_of_suffix past past' with before | after
  · exact image_between reachable past' before was still
  · exact (image_between reachable past after still was).symm

/-- A receipt has the same owner at any two times. -/
theorem receipt_alike (reachable : Config.Reachable (application setup) config)
    (past : h <:+ config.world.history) (past' : later <:+ config.world.history)
    {row row' : ReceiptRow} (was : (h.db .receipts).get id = some row)
    (still : (later.db .receipts).get id = some row') : row'.userId = row.userId := by
  have alike : ∀ {h later : History store outside} {row row' : ReceiptRow},
      later <:+ config.world.history → h <:+ later → (h.db .receipts).get id = some row →
        (later.db .receipts).get id = some row' → row'.userId = row.userId := by
    intro h later row row' past before was still
    obtain ⟨middle, there, owner⟩ := receipt_between reachable past List.suffix_rfl before was still
    obtain rfl := Option.some.inj (was.symm.trans there)
    exact owner.symm
  rcases List.suffix_or_suffix_of_suffix past past' with before | after
  · exact alike past' before was still
  · exact (alike past after still was).symm

/-- Every object was put. -/
theorem put_of_object (reachable : Config.Reachable (application setup) config) :
    ∀ key bytes, config.world.env key = some bytes →
      ∃ tid, (key, bytes) ∈ putsOf (config.said tid) := by
  apply Config.Reachable.always reachable
  · intro key bytes there
    cases there
  · intro config next choice prior moved ih key bytes there
    have again : ∀ {key bytes}, config.world.env key = some bytes →
        ∃ tid, (key, bytes) ∈ putsOf (next.said tid) := by
      intro key bytes held
      obtain ⟨tid, isPut⟩ := ih key bytes held
      exact ⟨tid, (putsOf_subset (Config.said_suffix prior.numbered moved tid)).subset isPut⟩
    rcases Config.said_move prior.numbered moved with ⟨-, env⟩ | ⟨actor, said, grown, env⟩
    · exact again (env ▸ there)
    rw [env] at there
    rcases perform_cases said config.world.env with ⟨name, type, content, rfl, performed⟩ |
      ⟨name, -, performed⟩ | ⟨-, -, performed⟩
    · rw [performed, Function.update_apply] at there
      split_ifs at there with same
      · obtain rfl := Option.some.inj there
        refine ⟨actor, mem_putsOf.mpr ⟨type, ?_⟩⟩
        rw [grown, Function.update_self, same]
        exact List.mem_cons_self
      · exact again there
    · rw [performed, Function.update_apply] at there
      split_ifs at there
      exact again there
    · exact again (performed ▸ there)

end Images

section Requests

/-- The image store sends the object under the key, or fails. -/
def fetched (objects : Objects) : (c : Call) → c.Reply → Prop
  | .getImage key, .ok bytes => objects key = some bytes
  | _, _ => True

/-- The proxy sends these bytes to the user, in a request of this time. -/
def Sends (setup : Setup) (userId imageId : ℕ) (bytes : String)
    (first last : Config store outside Job) : Prop :=
  (ReceiptController.image userId imageId).run.Beside (application setup) fetched first
    (.ok (some bytes)) last

/-- A location is of an image row and its receipt. -/
theorem located {ctx : Ctx store} {location : ImageLocation} {db : Db store}
    (snap : ctx.snap = db)
    (member : location ∈ (ReceiptService.selectImageLocation imageId ctx).result) :
    ∃ image : ReceiptImageRow, ∃ receipt : ReceiptRow, (db .receiptImages).get imageId = some image ∧
      (db .receipts).get image.receiptId = some receipt ∧
      { ownerUserId := receipt.userId, imageKey := image.imageKey } = location := by
  subst snap
  obtain ⟨image, stored, same⟩ := List.mem_filterMap.mp member
  obtain ⟨receipt, parent, rfl⟩ := Option.map_eq_some_iff.mp same
  exact ⟨image, receipt, Option.mem_toList.mp stored, parent, rfl⟩

/-- What is sent was the user's, and is the object of the image. -/
theorem Sends.found {bytes : String} (sends : Sends setup userId imageId bytes first last) :
    ∃ began : Config store outside Job, ∃ image : ReceiptImageRow, ∃ receipt : ReceiptRow,
      Config.Leads (application setup) first began ∧ Config.Leads (application setup) began last ∧
      (began.world.history.db .receiptImages).get imageId = some image ∧
      (began.world.history.db .receipts).get image.receiptId = some receipt ∧
      receipt.userId = userId ∧ last.world.env image.imageKey = some bytes := by
  obtain ⟨location, middle, finds, rest⟩ := Prog.Beside.svc_bind sends
  obtain ⟨result, middle', looks, picks⟩ := Prog.Beside.svc_bind finds
  cases picks
  rcases Prog.Beside.exec_inv looks with ⟨began, ctx, waited, took, snap, same⟩ | ⟨_, refused⟩
  · obtain rfl := Except.ok.inj same
    cases atHead : (ReceiptService.selectImageLocation imageId ctx).result.head? with
    | none =>
        rw [atHead] at rest
        cases rest
    | some location =>
        rw [atHead] at rest
        have rest : (if location.ownerUserId ≠ userId then pure none else do
            let bytes ← getImage location.imageKey
            pure (some bytes) : Task (Option String)).run.Beside (application setup) fetched middle
              (.ok (some bytes)) last := rest
        obtain ⟨image, receipt, stored, parent, rfl⟩ := located snap (List.mem_of_head? atHead)
        split at rest
        · cases rest
        · rename_i owner
          obtain ⟨sent, asked, gets, ends⟩ := Prog.Beside.svc_bind rest
          cases ends
          obtain ⟨reply, later, held, isReply⟩ := Prog.Beside.call_inv gets
          obtain rfl : reply = .ok bytes := isReply.symm
          exact ⟨began, image, receipt, waited, took.trans later, stored, parent,
            not_not.mp owner, held⟩
  · cases refused

/-- The owner of an image that is there can be sent it. -/
theorem sends_of_stored {image : ReceiptImageRow} {receipt : ReceiptRow} {bytes : String}
    (stored : (first.world.history.db .receiptImages).get imageId = some image)
    (parent : (first.world.history.db .receipts).get image.receiptId = some receipt)
    (owner : receipt.userId = userId) (held : first.world.env image.imageKey = some bytes) :
    Sends setup userId imageId bytes first first := by
  subst owner
  let ctx : Ctx store :=
    { snap := first.world.history.db, cur := first.world.history.db, now := 0, clock := 0
      next := fun _ => 0, others := [] }
  have located : (ReceiptService.selectImageLocation imageId ctx).result =
      [{ ownerUserId := receipt.userId, imageKey := image.imageKey }] := by
    simp [ReceiptService.selectImageLocation, Stmt.query, ctx, stored, parent]
  have snap : ctx.snap = first.world.history.db := rfl
  have cur : ctx.cur = first.world.history.db := rfl
  have silent : (ReceiptService.selectImageLocation imageId ctx).writes = [] := rfl
  refine Prog.Beside.exec .refl .refl snap cur silent ?_
  rw [located]
  have replied : fetched first.world.env (.getImage image.imageKey) (.ok bytes) := held
  have sent : (getImage image.imageKey >>= fun bytes => pure (some bytes)).run.Beside
      (application setup) fetched first (.ok (some bytes)) first := .call .refl replied .done
  have owned : (if receipt.userId ≠ receipt.userId then pure none else
      getImage image.imageKey >>= fun bytes => pure (some bytes) : Task (Option String)).run.Beside
      (application setup) fetched first (.ok (some bytes)) first := by
    rwa [if_neg (not_not.mpr rfl)]
  exact owned

/-- What is sent for an image is the same at any two times, and it is sent to the same user. -/
theorem image_immutable {userId' : ℕ} {bytes bytes' : String}
    (sends : Sends setup userId imageId bytes first last)
    (again : Sends setup userId' imageId bytes' first' last')
    (reachable : Config.Reachable (application setup) first)
    (reachable' : Config.Reachable (application setup) first')
    (leads : Config.Leads (application setup) last latest)
    (leads' : Config.Leads (application setup) last' latest) (apart : KeysApart latest.said) :
    userId = userId' ∧ bytes = bytes' := by
  obtain ⟨began, image, receipt, toBegan, toLast, stored, parent, owner, held⟩ := sends.found
  obtain ⟨began', image', receipt', toBegan', toLast', stored', parent', owner', held'⟩ :=
    again.found
  have arrived : Config.Reachable (application setup) latest :=
    Config.Leads.reachable ((toBegan.trans toLast).trans leads) reachable
  have grows : ∀ {middle : Config store outside Job}, Config.Reachable (application setup) middle →
      Config.Leads (application setup) middle latest →
      middle.world.history <:+ latest.world.history := fun there onward =>
    (onward.grows (keeps_promise setup latest.jobs) there (Config.agrees_jobs _)).1
  have past := grows (toBegan.reachable reachable) (toLast.trans leads)
  have past' := grows (toBegan'.reachable reachable') (toLast'.trans leads')
  obtain rfl := image_alike arrived past past' stored stored'
  have same := receipt_alike arrived past past' parent parent'
  -- The object was put under the key of the row, which was put once.
  have put : ∀ {middle : Config store outside Job} {key bytes : String},
      Config.Reachable (application setup) middle →
      Config.Leads (application setup) middle latest → middle.world.env key = some bytes →
      ∃ tid, (key, bytes) ∈ putsOf (latest.said tid) := by
    intro middle key bytes there onward stands
    obtain ⟨tid, isPut⟩ := put_of_object there key bytes stands
    exact ⟨tid, (putsOf_subset (onward.said_suffix there.numbered tid)).subset isPut⟩
  obtain ⟨tid, told⟩ := put (Config.Leads.reachable (toBegan.trans toLast) reachable) leads held
  obtain ⟨tid', told'⟩ :=
    put (Config.Leads.reachable (toBegan'.trans toLast') reachable') leads' held'
  exact ⟨owner.symm.trans (same.symm.trans owner'), (apart.unique told told').2⟩

/-- One user uploads two images. -/
@[irreducible] def twoSent : Config store outside Job :=
  Config.ran (application demo)
    (registering 0 "ann" "secret" ++ uploading 1 1 ["front", "back"]) (by decide +kernel)

theorem reachable_twoSent : Config.Reachable (application demo) twoSent := by
  unfold twoSent
  exact Config.reachable_ran _

/-- The second image is sent, and again when a deletion of the receipt is about to begin. -/
theorem image_immutable_of_twoSent : ∃ bytes bytes', Sends demo 1 2 bytes twoSent twoSent ∧
    Sends demo 1 2 bytes' (Config.spawn (application demo) twoSent (.deleteReceipt 1 1))
      (Config.spawn (application demo) twoSent (.deleteReceipt 1 1)) ∧ bytes = bytes' := by
  have there : (((twoSent.world.history.db .receiptImages).get 2).map fun row =>
        (row.receiptId, twoSent.world.env row.imageKey)) = some (1, some "back") ∧
      ((twoSent.world.history.db .receipts).get 1).map ReceiptRow.userId = some 1 := by
    decide +kernel
  obtain ⟨image, stored, same⟩ := Option.map_eq_some_iff.mp there.1
  obtain ⟨onReceipt, held⟩ := Prod.mk.inj same
  obtain ⟨receipt, parent, owner⟩ := Option.map_eq_some_iff.mp there.2
  rw [← onReceipt] at parent
  have first : Sends demo 1 2 "back" twoSent twoSent := sends_of_stored stored parent owner held
  have moved : Config.move (application demo) twoSent (.spawn (.deleteReceipt 1 1)) =
      some (Config.spawn (application demo) twoSent (.deleteReceipt 1 1)) := rfl
  have second : Sends demo 1 2 "back"
      (Config.spawn (application demo) twoSent (.deleteReceipt 1 1)) _ :=
    sends_of_stored stored parent owner held
  have apart : KeysApart (Config.spawn (application demo) twoSent (.deleteReceipt 1 1)).said :=
    keysApart_of_nodup (reachable_twoSent.move _ moved) (by decide +kernel)
  exact ⟨"back", "back", first, second, (image_immutable first second reachable_twoSent
    (reachable_twoSent.move _ moved) (.tail .refl ⟨_, moved⟩) .refl apart).2⟩

end Requests

end ReceiptScanner

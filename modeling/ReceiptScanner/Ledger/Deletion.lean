import ReceiptScanner.Ledger.Objects

/-!
# The pictures of a deleted receipt

A deletion reads the keys of a receipt's images, deletes the receipt, and removes the objects
whose keys it has read. Nothing ties the first statement to the second: an image that is stored
in between goes with the receipt, and its object stays.
-/

namespace ReceiptScanner

open ReadCommitted

variable {setup : Setup} {before after : Config store outside Job} {tid userId receiptId : ℕ}

/-- A deletion that stands at its first statement in one state has, by a later one, told its
caller of success, and none of its removals has failed. -/
structure Deletes (setup : Setup) (before after : Config store outside Job)
    (tid userId receiptId : ℕ) : Prop where
  reachable : Config.Reachable (application setup) before
  fresh : before.procs tid =
    some (Proc.fresh (application setup) tid (.deleteReceipt userId receiptId))
  leads : Config.Leads (application setup) before after
  told : ∃ last, after.procs tid = some last ∧ last.life = .ended (.told true)
  removed : ∀ said ∈ after.said tid, ∀ key reply, said = ⟨.removeImage key, reply⟩ → reply = .ok ()

/-- No object is left whose row was ever committed for the receipt. -/
def Cleaned (config : Config store outside Job) (receiptId : ℕ) : Prop :=
  ∀ c ∈ config.world.history, ∀ image ∈ batchOf receiptId c,
    config.world.env image.2.imageKey = none

/-- No image was stored for the receipt since. -/
def Undisturbed (before after : History store outside) (receiptId : ℕ) : Prop :=
  ∀ c h, c :: h <:+ after → before <:+ h → batchOf receiptId c = []

/-- A check of all commits since. -/
theorem undisturbed_of_all {before after : History store outside}
    (checked : ∀ c ∈ after.take (after.length - before.length), batchOf receiptId c = []) :
    Undisturbed before after receiptId :=
  fun _ _ suffix since => checked _ (History.mem_since suffix since)

theorem Erased.mono {h later base : History store outside} {calls : List (Said outside)}
    (erased : Erased h userId receiptId base calls) (suffix : h <:+ later) :
    Erased later userId receiptId base calls := by
  obtain ⟨seen, earlier, c, receipt, past, old, within, rest⟩ := erased
  exact ⟨seen, earlier, c, receipt, past, old, within.trans suffix, rest⟩

namespace Deletes

theorem arrived (deletes : Deletes setup before after tid userId receiptId) :
    Config.Reachable (application setup) after :=
  Config.Leads.reachable deletes.leads deletes.reachable

theorem grew (deletes : Deletes setup before after tid userId receiptId) :
    before.world.history <:+ after.world.history :=
  (Config.Leads.grows deletes.leads (keeps_deposits setup after.jobs) deletes.reachable
    after.agrees_jobs).1

/-- What a successful deletion has done since its start. -/
theorem erased (deletes : Deletes setup before after tid userId receiptId) :
    Erased after.world.history userId receiptId before.world.history (after.said tid) := by
  obtain ⟨last, found, ended⟩ := deletes.told
  let mine : Guarantee store outside := deposits setup after.jobs
  let post : Post store outside (Ending outside Job) := fun ending own later =>
    ending.1 = .told true → Erased later.history userId receiptId before.world.history own.calls
  have aims : (Proc.fresh (application setup) tid (.deleteReceipt userId receiptId)).Aims mine
      (schema setup.lower) post before.world :=
    wp_serve (Svc.wp_mono (ReceiptService.safe_deleteReceipt List.suffix_rfl)
      (fun value _ _ done answer => done (Answer.told.inj answer)) fun _ _ _ _ answer => nomatch answer)
  have stable : Stable mine post := fun _ _ _ _ rely done told => (done told).mono rely.suffix
  obtain ⟨⟨last', at_, -, aims⟩, -⟩ := aims.follow stable (fun _ _ _ allowed => allowed)
    (keeps_deposits setup after.jobs) deletes.reachable deletes.leads after.agrees_jobs
    deletes.fresh
  obtain rfl := Option.some.inj (found.symm.trans at_)
  simp only [Proc.Aims, ended] at aims
  obtain ⟨_, done⟩ := aims
  rw [Config.said_of_found found]
  exact done rfl

end Deletes

/-- If no image is stored for the receipt once the deletion is about to read the keys, then a
deletion that succeeds, with all its removals, leaves no object of the receipt. -/
theorem picturesDeleted (deletes : Deletes setup before after tid userId receiptId)
    (apart : KeysApart after.said)
    (undisturbed : Undisturbed before.world.history after.world.history receiptId) :
    Cleaned after receiptId := by
  intro c member image among
  have arrived := deletes.arrived
  obtain ⟨seen, earlier, d, receipt, past, old, within, stored, owner, removes, asked⟩ :=
    deletes.erased
  have inside : earlier <:+ after.world.history := (List.suffix_cons d earlier).trans within
  -- The image was stored before the deletion read the keys.
  obtain ⟨later, h, whole⟩ := List.append_of_mem member
  have suffix : c :: h <:+ after.world.history := ⟨later, whole.symm⟩
  have before_ : c :: h <:+ seen := by
    rcases List.suffix_or_suffix_of_suffix suffix deletes.grew with within | beyond
    · exact within.trans past
    · rcases List.suffix_cons_iff.mp beyond with same | since
      · exact same ▸ past
      · exact absurd among (by simp [undisturbed c h suffix since])
  obtain ⟨wrote, rfl⟩ := mem_batchOf.mp among
  -- So the receipt was there, then and when the keys were read.
  have first : ∃ row, ((History.db (c :: h)) .receipts).get image.2.receiptId = some row :=
    Option.ne_none_iff_exists'.mp (intact_of_reachable arrived suffix .receiptImages _ _
      ((promised_of_reachable arrived suffix).get (by decide) wrote)
      (.receipts, image.2.receiptId) (by simp [schema, refs]))
  obtain ⟨_, first⟩ := first
  obtain ⟨row, present, same⟩ := receipt_between arrived inside before_ old first stored
  have listed : image ∈ imagesOf seen.db image.2.receiptId :=
    (mem_imagesOf_iff_batch arrived (old.trans inside) (by simp [present]) image).mpr
      ⟨c, before_.subset List.mem_cons_self, among⟩
  obtain ⟨there, -⟩ := mem_imagesOf.mp listed
  obtain ⟨said, isSaid, removal⟩ := asked image.1 image.2 there rfl (by simp [present, same, owner])
  obtain ⟨made, reply⟩ := said
  obtain rfl : made = .removeImage image.2.imageKey := removal
  obtain rfl := deletes.removed _ isSaid _ reply rfl
  exact (stocked arrived apart).gone tid _ isSaid

section Demo

/-- What a check of the end of a run shows of a deletion. -/
theorem deletes_of_run {moves : List (Move outside Job)}
    (reachable : Config.Reachable (application setup) before)
    (fresh : before.procs tid =
      some (Proc.fresh (application setup) tid (.deleteReceipt userId receiptId)))
    (ran : Config.run (application setup) moves before = some after)
    (told : (after.procs tid).any (fun proc => proc.life.answer? == some (.told true)) = true)
    (removed : ((after.said tid).all fun
      | ⟨.removeImage _, .error _⟩ => false
      | _ => true) = true) : Deletes setup before after tid userId receiptId where
  reachable := reachable
  fresh := fresh
  leads := Config.Leads.run ran
  told := by
    obtain ⟨last, found, answer⟩ := (Option.any_eq_true _ _).mp told
    exact ⟨last, found, Life.answer?_eq_some.mp (beq_iff_eq.mp answer)⟩
  removed said member key reply isRemoval := by
    have fine := List.all_eq_true.mp removed said member
    subst isRemoval
    cases reply with
    | ok value => rfl
    | error exception => cases fine

theorem fresh_spawn {config : Config store outside Job} {job : Job} (last : config.tids = tid) :
    (Config.spawn (application setup) config job).procs tid =
      some (Proc.fresh (application setup) tid job) := by
  subst last
  exact Function.update_self _ _ _

/-- Two images of a receipt are stored, and its deletion is about to begin. -/
def pairDeletion : Config store outside Job :=
  Config.spawn (application demo) onePair (.deleteReceipt 1 1)

theorem reachable_pairDeletion : Config.Reachable (application demo) pairDeletion :=
  .move reachable_onePair (.spawn (.deleteReceipt 1 1)) rfl

theorem fresh_pairDeletion : pairDeletion.procs 2 =
    some (Proc.fresh (application demo) 2 (.deleteReceipt 1 1)) :=
  fresh_spawn (by decide +kernel)

/-- The deletion reads two keys, deletes the receipt, and removes two objects. -/
def deletingPair : List (Move outside Job) :=
  statements 2 2 ++ [answered 2 "" { kind := "" }, answered 2 "" { kind := "" }, .step 2]

theorem ran_deletingPair :
    (Config.run (application demo) deletingPair pairDeletion).isSome = true := by decide +kernel

/-- Where that ends. -/
def pairDeleted : Config store outside Job :=
  (Config.run (application demo) deletingPair pairDeletion).get ran_deletingPair

theorem picturesDeleted_of_pairDeleted : Cleaned pairDeleted 1 := by
  have ran := (Option.some_get ran_deletingPair).symm
  have deletes : Deletes demo pairDeletion pairDeleted 2 1 1 :=
    deletes_of_run reachable_pairDeletion fresh_pairDeletion ran (by decide +kernel)
      (by decide +kernel)
  exact picturesDeleted deletes (keysApart_of_nodup deletes.arrived (by decide +kernel))
    (undisturbed_of_all (by decide +kernel))

/-- One image of a receipt is stored. -/
def oneSolo : Config store outside Job :=
  Config.ran (application demo) (registering 0 "ann" "secret" ++ uploading 1 1 ["front"])
    (by decide +kernel)

/-- Its deletion is about to begin. -/
def soloDeletion : Config store outside Job :=
  Config.spawn (application demo) oneSolo (.deleteReceipt 1 1)

theorem reachable_soloDeletion : Config.Reachable (application demo) soloDeletion :=
  .move (Config.reachable_ran _) (.spawn (.deleteReceipt 1 1)) rfl

theorem fresh_soloDeletion : soloDeletion.procs 2 =
    some (Proc.fresh (application demo) 2 (.deleteReceipt 1 1)) :=
  fresh_spawn (by decide +kernel)

/-- The deletion reads one key; another image is added; the deletion goes on. -/
def addingMeanwhile : List (Move outside Job) :=
  statements 2 1 ++ [.spawn (.addImages 1 1 ["back"] false)] ++ statements 3 1 ++
    [answered 3 "" { kind := "" }, .step 3] ++ statements 3 3 ++
    [answered 3 "key" { kind := "" }, answered 3 "" { kind := "" }] ++ statements 3 2 ++
    [.step 3, .step 3] ++ statements 2 1 ++ [answered 2 "" { kind := "" }, .step 2]

theorem ran_addingMeanwhile :
    (Config.run (application demo) addingMeanwhile soloDeletion).isSome = true := by
  decide +kernel

/-- Where that ends. -/
def soloDeleted : Config store outside Job :=
  (Config.run (application demo) addingMeanwhile soloDeletion).get ran_addingMeanwhile

/-- All calls have finished, and the object of the added image is left. -/
theorem not_cleaned_of_soloDeleted : ¬ ∀ (setup : Setup) (before after : Config store outside Job)
    (tid userId receiptId : ℕ), Deletes setup before after tid userId receiptId →
    KeysApart after.said →
    (∀ other < after.tids, (after.procs other).any (fun proc => proc.life.answer?.isSome) = true) →
    Cleaned after receiptId := by
  intro always
  have ran := (Option.some_get ran_addingMeanwhile).symm
  have deletes : Deletes demo soloDeletion soloDeleted 2 1 1 :=
    deletes_of_run reachable_soloDeletion fresh_soloDeletion ran (by decide +kernel)
      (by decide +kernel)
  have cleaned := always demo soloDeletion soloDeleted 2 1 1 deletes
    (keysApart_of_nodup deletes.arrived (by decide +kernel)) (by decide +kernel)
  have left : (soloDeleted.world.history.any fun c => (batchOf 1 c).any fun image =>
      (soloDeleted.world.env image.2.imageKey).isSome) = true := by decide +kernel
  obtain ⟨c, member, some⟩ := List.any_eq_true.mp left
  obtain ⟨image, among, there⟩ := List.any_eq_true.mp some
  rw [cleaned c member image among] at there
  cases there

end Demo

end ReceiptScanner

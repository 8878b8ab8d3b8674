import ReceiptScanner.Ledger.ImageCap
import ReceiptScanner.ReadCommitted.Calls
import ReceiptScanner.Runs.Atomic

/-!
# No image without its object

The object of an image is put before the row is stored, and it is removed only once the
receipt of a row with its key is gone. Keys are generated, so no other object was put under
the same key; and a request stores its images in one commit, so no other row has it.
-/

namespace ReceiptScanner

open ReadCommitted

variable {setup : Setup} {config next : Config store outside Job} {c : Commit store outside}
  {h later : History store outside} {key : String} {id tid : ℕ} {row : ReceiptImageRow}

section Calls

variable {calls : List (Said outside)} {said : ℕ → List (Said outside)}

/-- The keys under which objects were put. -/
def keysPut (calls : List (Said outside)) : List String := (putsOf calls).map Prod.fst

/-- No two objects were put under one key. -/
structure KeysApart (said : ℕ → List (Said outside)) : Prop where
  own : ∀ tid, (keysPut (said tid)).Nodup
  others : ∀ tid other, tid ≠ other → (keysPut (said tid)).Disjoint (keysPut (said other))

theorem mem_putsOf {put : String × String} :
    put ∈ putsOf calls ↔ ∃ type, ⟨.putImage put.1 type put.2, .ok ()⟩ ∈ calls := by
  simp only [putsOf, List.mem_filterMap, List.mem_reverse]
  constructor
  · rintro ⟨said, member, isPut⟩
    split at isPut
    · rename_i key type bytes value
      obtain rfl := Option.some.inj isPut
      exact ⟨type, member⟩
    · cases isPut
  · rintro ⟨type, member⟩
    exact ⟨_, member, rfl⟩

theorem mem_keysPut : key ∈ keysPut calls ↔ ∃ bytes, (key, bytes) ∈ putsOf calls := by
  simp [keysPut]

theorem putsOf_subset {earlier : List (Said outside)} (suffix : earlier <:+ calls) :
    putsOf earlier <+: putsOf calls := by
  obtain ⟨more, rfl⟩ := suffix
  rw [putsOf_append]
  exact List.prefix_append _ _

/-- The keys are apart if they are apart after more calls. -/
theorem KeysApart.earlier {before : ℕ → List (Said outside)} (apart : KeysApart said)
    (suffix : ∀ tid, before tid <:+ said tid) : KeysApart before where
  own tid := (apart.own tid).sublist ((putsOf_subset (suffix tid)).sublist.map _)
  others tid other differ := by
    have within : ∀ tid, keysPut (before tid) ⊆ keysPut (said tid) := fun tid =>
      List.map_subset _ (putsOf_subset (suffix tid)).subset
    exact List.disjoint_of_subset_left (within tid)
      (List.disjoint_of_subset_right (within other) (apart.others tid other differ))

/-- One key was put by one process, once. -/
theorem KeysApart.unique (apart : KeysApart said) {other : ℕ} {bytes content : String}
    (first : (key, bytes) ∈ putsOf (said tid)) (second : (key, content) ∈ putsOf (said other)) :
    tid = other ∧ bytes = content := by
  have same : tid = other := by
    by_contra differ
    exact apart.others tid other differ (mem_keysPut.mpr ⟨_, first⟩) (mem_keysPut.mpr ⟨_, second⟩)
  subst same
  exact ⟨rfl, congrArg Prod.snd (List.inj_on_of_nodup_map (apart.own tid) first second rfl)⟩

/-- A key that was put before is not put again. -/
theorem KeysApart.not_again (apart : KeysApart (Function.update said tid
    (⟨.putImage key type bytes, .ok ()⟩ :: said tid))) {other : ℕ} :
    key ∉ keysPut (said other) := by
  intro before
  by_cases same : other = tid
  · subst same
    have nodup := apart.own other
    rw [Function.update_self, ← List.singleton_append, keysPut, putsOf_append,
      List.map_append] at nodup
    exact (List.nodup_append.mp nodup).2.2 key before key (by simp [putsOf]) rfl
  · refine apart.others tid other (Ne.symm same) (a := key) ?_ ?_
    · rw [Function.update_self]
      exact mem_keysPut.mpr ⟨bytes, mem_putsOf.mpr ⟨type, List.mem_cons_self⟩⟩
    · rwa [Function.update_of_ne same]

/-- A check of all processes that there are. -/
theorem keysApart_of_nodup (reachable : Config.Reachable (application setup) config)
    (nodup : ((List.range config.tids).flatMap fun tid => keysPut (config.said tid)).Nodup) :
    KeysApart config.said := by
  obtain ⟨own, others⟩ := List.nodup_flatMap.mp nodup
  have silent : ∀ tid, ¬ tid < config.tids → config.said tid = [] := by
    intro tid beyond
    cases found : config.procs tid with
    | none => exact Config.said_of_absent found
    | some proc => exact absurd (reachable.numbered tid proc found) beyond
  constructor
  · intro tid
    by_cases there : tid < config.tids
    · exact own tid (List.mem_range.mpr there)
    · simp [silent tid there, keysPut, putsOf]
  · intro tid other differ
    by_cases there : tid < config.tids
    · by_cases there' : other < config.tids
      · have symmetric : Std.Symm (Function.onFun List.Disjoint fun tid =>
            keysPut (config.said tid)) := ⟨fun _ _ disjoint => List.disjoint_symm disjoint⟩
        exact others.forall (List.mem_range.mpr there) (List.mem_range.mpr there') differ
      · simp [silent other there', keysPut, putsOf]
    · simp [silent tid there, keysPut, putsOf]

/-- A call puts an object, removes one, or leaves the objects alone. -/
theorem perform_cases (said : Said outside) (objects : Objects) :
    (∃ key type bytes, said = ⟨.putImage key type bytes, .ok ()⟩ ∧
      outside.perform said.call said.reply objects = Function.update objects key (some bytes)) ∨
    (∃ key, said = ⟨.removeImage key, .ok ()⟩ ∧
      outside.perform said.call said.reply objects = Function.update objects key none) ∨
    ((∀ key type bytes, said ≠ ⟨.putImage key type bytes, .ok ()⟩) ∧
      (∀ key, said ≠ ⟨.removeImage key, .ok ()⟩) ∧
      outside.perform said.call said.reply objects = objects) := by
  obtain ⟨made, reply⟩ := said
  cases made with
  | putImage key type bytes =>
      cases reply with
      | ok value => exact Or.inl ⟨key, type, bytes, rfl, rfl⟩
      | error exception => exact Or.inr (Or.inr ⟨by simp, by simp, rfl⟩)
  | removeImage key =>
      cases reply with
      | ok value => exact Or.inr (Or.inl ⟨key, rfl, rfl⟩)
      | error exception => exact Or.inr (Or.inr ⟨by simp, by simp, rfl⟩)
  | _ => exact Or.inr (Or.inr ⟨by simp, by simp, rfl⟩)

end Calls

section Images

/-- An image that was ever stored was stored by a commit. -/
theorem exists_stored (reachable : Config.Reachable (application setup) config)
    (past : h <:+ config.world.history) (stored : (h.db .receiptImages).get id = some row) :
    ∃ c earlier, c :: earlier <:+ h ∧ (id, row) ∈ storesOf c.writes := by
  induction h with
  | nil => simp at stored
  | cons c earlier ih =>
      rcases (promised_of_reachable reachable past).image_before stored with before | ⟨member, -⟩
      · obtain ⟨other, past', within, member⟩ :=
          ih ((List.suffix_cons c earlier).trans past) before
        exact ⟨other, past', within.trans (List.suffix_cons c earlier), member⟩
      · exact ⟨c, earlier, List.suffix_rfl, member⟩

/-- Its process had put an object with its hash under its key. -/
theorem put_of_stored (reachable : Config.Reachable (application setup) config)
    (past : c :: h <:+ config.world.history) (member : (id, row) ∈ storesOf c.writes) :
    ∃ bytes, (row.imageKey, bytes) ∈ putsOf c.calls ∧ setup.sha256Hex bytes = row.imageSha256 ∧
      (row.imageKey, bytes) ∈ putsOf (config.said c.tid) := by
  obtain ⟨_, _, _, -, -, -, -, deposited⟩ := deposited_of_reachable reachable past member
  have object : (row.imageKey, row.imageSha256) ∈
      (putsOf c.calls).map fun put => (put.1, setup.sha256Hex put.2) := by
    rw [← deposited.objects]
    exact List.mem_map_of_mem member
  obtain ⟨⟨key, bytes⟩, isPut, same⟩ := List.mem_map.mp object
  obtain ⟨rfl, hash⟩ := Prod.mk.inj same
  have recorded := (keeps_deposits setup config.jobs).recorded reachable config.agrees_jobs
    (past.subset List.mem_cons_self)
  exact ⟨bytes, isPut, hash, (putsOf_subset recorded).subset isPut⟩

/-- A process stores its images in one commit. -/
theorem commits_once (reachable : Config.Reachable (application setup) config)
    {other : Commit store outside} (member : c ∈ config.world.history)
    (member' : other ∈ config.world.history) (same : c.tid = other.tid)
    {job : Job} (assigned : config.jobs c.tid = some job) (several : job.severalWrites = true) :
    c = other := by
  obtain ⟨proc, found, rfl⟩ := Option.map_eq_some_iff.mp assigned
  obtain ⟨stage, -, fits⟩ := Config.Leads.tracked (.refl) reachable found found
    (concludes_prog several)
  have named : proc.own.tid = c.tid := (reachable.inv_anything.named c.tid proc found).2
  rw [named] at fits
  have mine : ∀ d ∈ config.world.history, d.tid = c.tid →
      d ∈ History.ofTid c.tid config.world.history := fun d there isMine =>
    List.mem_filter.mpr ⟨there, by simp [isMine]⟩
  have one := fits.length_le
  have first := mine c member rfl
  have second := mine other member' same.symm
  obtain ⟨only, isOnly⟩ := List.length_eq_one_iff.mp
    (Nat.le_antisymm one (List.length_pos_of_mem first))
  rw [isOnly] at first second
  exact (List.mem_singleton.mp first).trans (List.mem_singleton.mp second).symm

/-- Rows with one key are one row. -/
theorem stored_once (reachable : Config.Reachable (application setup) config)
    (apart : KeysApart config.said) (past : h <:+ config.world.history)
    (past' : later <:+ config.world.history) {other : ℕ} {row' : ReceiptImageRow}
    (stored : (h.db .receiptImages).get id = some row)
    (stored' : (later.db .receiptImages).get other = some row')
    (same : row.imageKey = row'.imageKey) : row = row' := by
  obtain ⟨c, earlier, within, member⟩ := exists_stored reachable past stored
  obtain ⟨d, before, within', member'⟩ := exists_stored reachable past' stored'
  have suffix := within.trans past
  have suffix' := within'.trans past'
  obtain ⟨bytes, isPut, -, told⟩ := put_of_stored reachable suffix member
  obtain ⟨content, -, -, told'⟩ := put_of_stored reachable suffix' member'
  obtain ⟨sameTid, -⟩ := apart.unique told (same ▸ told')
  obtain ⟨job, _, _, assigned, -, isDeposit, -, deposited⟩ :=
    deposited_of_reachable reachable suffix member
  have several : job.severalWrites = true := by
    cases job with
    | uploadReceipt | addImages => rfl
    | _ => cases isDeposit
  obtain rfl := commits_once reachable (suffix.subset List.mem_cons_self)
    (suffix'.subset List.mem_cons_self) sameTid assigned several
  -- Within the commit, the keys are those of the objects, and each was put once.
  have keys : (storesOf c.writes).map (fun image => image.2.imageKey) = keysPut c.calls := by
    have first := congrArg (List.map Prod.fst) deposited.objects
    simpa [keysPut, Function.comp_def] using first
  have recorded := (keeps_deposits setup config.jobs).recorded reachable config.agrees_jobs
    (suffix.subset List.mem_cons_self)
  have nodup : ((storesOf c.writes).map fun image => image.2.imageKey).Nodup := by
    rw [keys]
    exact (apart.own c.tid).sublist ((putsOf_subset recorded).sublist.map _)
  exact congrArg Prod.snd (List.inj_on_of_nodup_map nodup member member' same)

theorem Removable.mono (removable : Removable key h) (suffix : h <:+ later) :
    Removable key later := by
  obtain ⟨seen, earlier, c, id, row, old, within, rest⟩ := removable
  exact ⟨seen, earlier, c, id, row, old, within.trans suffix, rest⟩

/-- A key that may be removed was put. -/
theorem put_of_removable (reachable : Config.Reachable (application setup) config)
    (removable : Removable key config.world.history) :
    ∃ tid, key ∈ keysPut (config.said tid) := by
  obtain ⟨seen, earlier, c, id, row, old, within, stored, rfl, -⟩ := removable
  have past := (old.trans (List.suffix_cons c earlier)).trans within
  obtain ⟨d, before, suffix, member⟩ := exists_stored reachable past stored
  obtain ⟨bytes, -, -, told⟩ := put_of_stored reachable (suffix.trans past) member
  exact ⟨d.tid, mem_keysPut.mpr ⟨bytes, told⟩⟩

/-- The key of a stored image may not be removed. -/
theorem not_removable (reachable : Config.Reachable (application setup) config)
    (apart : KeysApart config.said)
    (stored : (config.world.history.db .receiptImages).get id = some row) :
    ¬ Removable row.imageKey config.world.history := by
  rintro ⟨seen, earlier, c, other, row', old, within, was, same, removes⟩
  have past : seen <:+ c :: earlier := old.trans (List.suffix_cons c earlier)
  obtain rfl := stored_once reachable apart (past.trans within) List.suffix_rfl was stored same
  have parent : ∀ {h : History store outside} {id : ℕ}, h <:+ config.world.history →
      (h.db .receiptImages).get id = some row' →
      ∃ receipt, (h.db .receipts).get row'.receiptId = some receipt := fun inside there =>
    Option.ne_none_iff_exists'.mp (intact_of_reachable reachable inside .receiptImages _ _ there
      (.receipts, row'.receiptId) (by simp [schema, refs]))
  obtain ⟨first, before⟩ := parent (past.trans within) was
  obtain ⟨last, now⟩ := parent List.suffix_rfl stored
  obtain ⟨receipt, between, -⟩ := receipt_between reachable List.suffix_rfl past within before now
  have gone := (promised_of_reachable reachable within).get (by decide) removes
  exact absurd (gone.symm.trans between) (by simp)

end Images

section Stock

/-- Every object that was put is there until it may be removed, and one that was removed is
gone. -/
structure Stocked (config : Config store outside Job) : Prop where
  held : ∀ tid, ∀ put ∈ putsOf (config.said tid),
    config.world.env put.1 = some put.2 ∨ Removable put.1 config.world.history
  gone : ∀ tid key, ⟨.removeImage key, .ok ()⟩ ∈ config.said tid → config.world.env key = none

/-- A key that was asked to be removed may be. -/
theorem removable_of_said (reachable : Config.Reachable (application setup) config)
    {reply : Except Err Unit} (member : ⟨.removeImage key, reply⟩ ∈ config.said tid) :
    Removable key config.world.history := by
  obtain ⟨seen, _, old, allowed⟩ :=
    (keeps_deposits setup config.jobs).allowed reachable config.agrees_jobs member
  exact Removable.mono (allowed key rfl) old

/-- Every move keeps the stock, if keys are not put again. -/
theorem Stocked.move (stocked : Stocked config)
    (reachable : Config.Reachable (application setup) config) {choice : Move outside Job}
    (moved : Config.move (application setup) config choice = some next)
    (apart : KeysApart next.said) : Stocked next := by
  have grows : config.world.history <:+ next.world.history :=
    (reachable.inv_anything.advances moved).suffix
  have still : ∀ {key : String}, Removable key config.world.history →
      Removable key next.world.history := fun removable => removable.mono grows
  rcases Config.said_move reachable.numbered moved with ⟨same, env⟩ | ⟨actor, said, grown, env⟩
  · constructor
    · rw [same, env]
      exact fun tid put member => (stocked.held tid put member).imp_right still
    · rw [same, env]
      exact stocked.gone
  have was : ∀ {tid : ℕ} {other : Said outside}, other ∈ next.said tid →
      other = said ∨ other ∈ config.said tid := fun member =>
    Config.mem_said_update (grown ▸ member)
  have wasPut : ∀ {tid : ℕ} {put : String × String}, put ∈ putsOf (next.said tid) →
      (∃ type, said = ⟨.putImage put.1 type put.2, .ok ()⟩) ∨ put ∈ putsOf (config.said tid) := by
    intro tid put member
    obtain ⟨type, isPut⟩ := mem_putsOf.mp member
    exact (was isPut).imp (fun isSaid => ⟨type, isSaid.symm⟩)
      fun before => mem_putsOf.mpr ⟨type, before⟩
  rcases perform_cases said config.world.env with ⟨key, type, bytes, rfl, performed⟩ |
    ⟨key, rfl, performed⟩ | ⟨notPut, notRemoved, performed⟩
  · -- No earlier object has the key, put or removed.
    have unput : ∀ other, key ∉ keysPut (config.said other) := fun other =>
      KeysApart.not_again (grown ▸ apart)
    constructor
    · intro tid put member
      rw [env, performed]
      rcases wasPut member with ⟨_, same⟩ | before
      · obtain ⟨rfl, -, rfl⟩ := Call.putImage.inj (congrArg Said.call same)
        exact Or.inl (Function.update_self _ _ _)
      · have differs : put.1 ≠ key := by
          rintro rfl
          exact unput tid (mem_keysPut.mpr ⟨put.2, before⟩)
        rw [Function.update_of_ne differs]
        exact (stocked.held tid put before).imp_right still
    · intro tid other member
      have before := (was member).resolve_left (by simp)
      have differs : other ≠ key := by
        rintro rfl
        obtain ⟨putter, isPut⟩ := put_of_removable reachable (removable_of_said reachable before)
        exact unput putter isPut
      rw [env, performed, Function.update_of_ne differs]
      exact stocked.gone tid other before
  · have asked : (⟨.removeImage key, .ok ()⟩ : Said outside) ∈ next.said actor := by
      rw [grown, Function.update_self]
      exact List.mem_cons_self
    constructor
    · intro tid put member
      have before := (wasPut member).resolve_left (by simp)
      by_cases isKey : put.1 = key
      · exact Or.inr (isKey ▸ removable_of_said (reachable.move choice moved) asked)
      · rw [env, performed, Function.update_of_ne isKey]
        exact (stocked.held tid put before).imp_right still
    · intro tid other member
      rw [env, performed]
      by_cases isKey : other = key
      · rw [isKey, Function.update_self]
      · rw [Function.update_of_ne isKey]
        refine stocked.gone tid other ((was member).resolve_left fun same => isKey ?_)
        exact Call.removeImage.inj (congrArg Said.call same)
  · constructor
    · intro tid put member
      rw [env, performed]
      have before := (wasPut member).resolve_left fun isPut => notPut _ _ _ isPut.choose_spec
      exact (stocked.held tid put before).imp_right still
    · intro tid key member
      rw [env, performed]
      exact stocked.gone tid key ((was member).resolve_left fun same => notRemoved key same.symm)

theorem stocked (reachable : Config.Reachable (application setup) config)
    (apart : KeysApart config.said) : Stocked config := by
  revert apart
  apply Config.Reachable.always reachable
  · have silent : ∀ tid, (Config.initial (application setup)).said tid = [] := fun _ => rfl
    exact fun _ => ⟨fun tid put member => absurd member (by simp [silent, putsOf]),
      fun tid key member => absurd member (by simp [silent])⟩
  · intro config next choice prior moved ih apart
    have earlier := apart.earlier (Config.said_suffix prior.numbered moved)
    exact (ih earlier).move prior moved apart

/-- No row of an image dangles: its object was put, with the row's hash, and it is there;
nobody has asked for its removal. -/
theorem noDangling (reachable : Config.Reachable (application setup) config)
    (apart : KeysApart config.said)
    (stored : (config.world.history.db .receiptImages).get id = some row) :
    ∃ tid bytes, (row.imageKey, bytes) ∈ putsOf (config.said tid) ∧
      config.world.env row.imageKey = some bytes ∧ setup.sha256Hex bytes = row.imageSha256 ∧
      ∀ other reply, ⟨.removeImage row.imageKey, reply⟩ ∉ config.said other := by
  obtain ⟨c, earlier, past, member⟩ := exists_stored reachable List.suffix_rfl stored
  obtain ⟨bytes, -, hash, told⟩ := put_of_stored reachable past member
  have kept := not_removable reachable apart stored
  exact ⟨c.tid, bytes, told, ((stocked reachable apart).held c.tid _ told).resolve_right kept, hash,
    fun other reply asked => kept (removable_of_said reachable asked)⟩

theorem noDangling_of_onePair : ∃ row : ReceiptImageRow,
    (onePair.world.history.db .receiptImages).get 2 = some row ∧
      ∃ bytes, onePair.world.env row.imageKey = some bytes ∧
        demo.sha256Hex bytes = row.imageSha256 := by
  have there : ((onePair.world.history.db .receiptImages).get 2).isSome = true := by
    decide +kernel
  have apart : KeysApart onePair.said :=
    keysApart_of_nodup reachable_onePair (by decide +kernel)
  obtain ⟨row, stored⟩ := Option.isSome_iff_exists.mp there
  obtain ⟨_, bytes, -, held, hash, -⟩ := noDangling reachable_onePair apart stored
  exact ⟨row, stored, bytes, held, hash⟩

end Stock

end ReceiptScanner

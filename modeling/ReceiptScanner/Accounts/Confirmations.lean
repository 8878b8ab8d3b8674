import ReceiptScanner.Accounts.SingleUse

/-!
# Confirmations in turn

What single use asks of the confirmations: no two for one row, none for another purpose or for a
token that has expired. Two that look the token up before either removes it are both told yes.
In every run in which they take their turns, and remove what they have found in time, none of
this happens.
-/

namespace ReceiptScanner

open ReadCommitted

variable {setup : Setup} {tid : ℕ} {id : ℕ}

/-- The confirmations of one token take their turns, and are not too late. -/
structure TurnsInTime (setup : Setup) (config : Config store outside Job)
    (onsets : Onsets store outside) (choice : Move outside Job) : Prop
    extends SingleFile setup config onsets choice where
  /-- What a call has found has not expired when the call removes it. -/
  timely : ∀ next c found id row, Config.move (application setup) config choice = some next →
    next.world.history = c :: config.world.history → Drops c id →
    Holds setup config onsets c.tid found id row → next.world.clock ≤ row.expiresAt

/-- Each token is used once, for its purpose and before it expires. -/
structure UsedOnce (setup : Setup) (config : Config store outside Job)
    (onsets : Onsets store outside) : Prop where
  /-- a row makes one call answer yes at most -/
  once : ∀ tid other found found' id row row', ToldYes config tid → ToldYes config other →
    Holds setup config onsets tid found id row → Holds setup config onsets other found' id row' →
    tid = other
  /-- so does a token, unless it was drawn again later -/
  single : ∀ tokenHash, (∀ h h' id id', ∀ row row' : AuthTokenRow, h <:+ config.world.history →
      h' <:+ config.world.history → (History.db h .authTokens).get id = some row →
      (History.db h' .authTokens).get id' = some row' → row.tokenHash = tokenHash →
      row'.tokenHash = tokenHash → id = id') →
    ∀ tid other purpose purpose', Presents setup config tid tokenHash purpose →
      Presents setup config other tokenHash purpose' → ToldYes config tid →
      ToldYes config other → tid = other
  /-- who is told yes has found a row of the purpose, not expired when its lookup began, and has
  removed it before it expired -/
  honoured : ∀ tid tokenHash purpose, Presents setup config tid tokenHash purpose →
    ToldYes config tid → ∃ found id row c h, Holds setup config onsets tid found id row ∧
      row.tokenHash = tokenHash ∧ row.purpose = purpose ∧ found.clock < row.expiresAt ∧
      c :: h <:+ config.world.history ∧ found.history <:+ h ∧ c.tid = tid ∧ Drops c id ∧
      c.stop < row.expiresAt

section Timely

variable {config next : Config store outside (application setup).Job} {onsets : Onsets store outside}
  {choice : Move outside (application setup).Job} {found : World store outside} {row : AuthTokenRow}
  {c : Commit store outside} {h : History store outside}

/-- What a move removes has not expired. -/
theorem stop_lt_of_move (paced : Config.Paced (application setup) (TurnsInTime setup) config onsets)
    (allowed : TurnsInTime setup config onsets choice)
    (moved : Config.move (application setup) config choice = some next)
    (grown : next.world.history = c :: config.world.history) (drops : Drops c id)
    (holds : Holds setup config onsets c.tid found id row) : c.stop < row.expiresAt := by
  have after := paced.reachable.move choice moved
  have stopped := ((keeps_access setup next.jobs).inv after next.agrees_jobs).wellFormed.stopped
  have member : c ∈ next.world.history := grown ▸ List.mem_cons_self
  exact (stopped c member).trans_le (allowed.timely next c found id row moved grown drops holds)

/-- Whatever a call has found and removed had not expired then. -/
theorem stop_lt_of_paced (paced : Config.Paced (application setup) (TurnsInTime setup) config onsets)
    (holds : Holds setup config onsets c.tid found id row) (suffix : c :: h <:+ config.world.history)
    (since : found.history <:+ h) (drops : Drops c id) : c.stop < row.expiresAt := by
  induction paced with
  | initial => simp [Config.initial] at suffix
  | @move config next onsets prior choice allowed moved ih =>
      rcases holds.back prior moved with before | ⟨isStart, -, rfl, -⟩
      · rcases history_cases prior moved suffix with old | ⟨-, grown⟩
        · exact ih before old
        · exact stop_lt_of_move prior allowed moved grown drops before
      · -- A call that has just begun has removed nothing.
        subst isStart
        rw [Config.Paced.history_of_start moved] at suffix
        exact absurd (suffix.length_le.trans since.length_le) (by simp)

end Timely

/-- In every run in which the confirmations take their turns, in time, each token is used once,
for its purpose and before it expires. -/
theorem usedOnce {config : Config store outside (application setup).Job}
    {onsets : Onsets store outside}
    (paced : Config.Paced (application setup) (TurnsInTime setup) config onsets) :
    UsedOnce setup config onsets := by
  have turns := paced.weaken fun _ _ _ inTime => inTime.toSingleFile
  refine ⟨fun _ _ _ _ _ _ _ => eq_of_told turns, fun _ single _ _ _ _ => eq_of_presents turns single,
    fun tid tokenHash purpose presents told => ?_⟩
  obtain ⟨found, id, row, holds, isHash, isPurpose⟩ := holds_of_told turns presents told
  obtain ⟨c, h, past, since, rfl, drops⟩ := drops_of_told turns holds told
  have live : found.clock < row.expiresAt := holds.finds.2.2.2
  exact ⟨found, id, row, c, h, holds, isHash, isPurpose, live, past, since, rfl, drops,
    stop_lt_of_paced paced holds past since drops⟩

section Demo

/-- Only one process presents a token at a lookup, and no stored token is about to expire. -/
def ordersInTime (setup : Setup) (config : Config store outside Job)
    (onsets : Onsets store outside) (choice : Move outside (application setup).Job) : Bool :=
  ordersConfirmations config onsets choice &&
    (Config.move (application setup) config choice).all fun next =>
      (config.world.history.db .authTokens).list.all fun entry =>
        decide (next.world.clock ≤ AuthTokenRow.expiresAt entry.2)

theorem turnsInTime_of_orders (config : Config store outside (application setup).Job)
    (onsets : Onsets store outside) (choice : Move outside (application setup).Job)
    (paced : Config.Paced (application setup) (TurnsInTime setup) config onsets)
    (orders : ordersInTime setup config onsets choice = true) :
    TurnsInTime setup config onsets choice := by
  obtain ⟨single, early⟩ := Bool.and_eq_true_iff.mp orders
  have turns := paced.weaken fun _ _ _ inTime => inTime.toSingleFile
  refine ⟨singleFile_of_orders config onsets choice turns single, ?_⟩
  intro next c found id row moved grown drops holds
  have suffix : c :: config.world.history <:+ next.world.history := by
    simp only [grown, List.suffix_rfl]
  obtain ⟨now, stored, -⟩ := presents_of_drops (paced.reachable.move choice moved) suffix drops
  have used : ¬ Unused found.history .authTokens id := fun unused =>
    absurd (holds.finds.1.symm.trans (unused.get List.suffix_rfl)) (by simp)
  have before := token_before paced.reachable List.suffix_rfl (past_of_onset paced holds.onset)
    used stored
  obtain rfl := Option.some.inj (before.symm.trans holds.finds.1)
  rw [moved] at early
  exact of_decide_eq_true (List.all_eq_true.mp early (id, now) (Rows.mem_list.mpr stored))

theorem usedOnce_of_oneSpent : ∃ onsets found id row c, Holds demo oneSpent onsets 2 found id row ∧
    c ∈ oneSpent.world.history ∧ c.tid = 2 ∧ Drops c id ∧ c.stop < row.expiresAt := by
  have paced : ∃ onsets, Config.Paced (application demo) (TurnsInTime demo) oneSpent onsets := by
    unfold oneSpent
    have checked : Config.paces (application demo) (ordersInTime demo)
        (forgetting ++ resetting 2) (Config.initial (application demo)) (fun _ => none) = true := by
      decide +kernel
    exact Config.Paced.initial.run turnsInTime_of_orders checked (Option.some_get _).symm
  obtain ⟨onsets, paced⟩ := paced
  obtain ⟨presents, told⟩ := told_oneSpent
  obtain ⟨found, id, row, c, h, holds, -, -, -, past, -, mine, drops, early⟩ :=
    (usedOnce paced).honoured 2 "ticket" .reset presents told
  exact ⟨onsets, found, id, row, c, holds, past.subset List.mem_cons_self, mine, drops, early⟩

/-- Process `tid` has looked a token up. -/
def lookingUp (tid : ℕ) : List (Move outside Job) :=
  [.spawn (.confirmPasswordReset "ticket" "new")] ++ statements tid 1

/-- Process `tid` goes on to reset the password. -/
def goingOn (tid : ℕ) : List (Move outside Job) :=
  [answered tid "" { kind := "" }, .step tid] ++ statements tid 3 ++ [.step tid, .step tid]

/-- Two look one token up, and then both go on. -/
@[irreducible] def twoAtOnce : Config store outside Job :=
  Config.ran (application demo)
    (forgetting ++ lookingUp 2 ++ lookingUp 3 ++ goingOn 2 ++ goingOn 3) (by decide +kernel)

/-- Both are told yes, though only one row was ever stored. -/
theorem not_usedOnce_of_twoAtOnce : ¬ ∀ (setup : Setup) (config : Config store outside Job),
    Config.Reachable (application setup) config → ∀ tokenHash,
    (∀ h h' id id', ∀ row row' : AuthTokenRow, h <:+ config.world.history →
      h' <:+ config.world.history → (History.db h .authTokens).get id = some row →
      (History.db h' .authTokens).get id' = some row' → row.tokenHash = tokenHash →
      row'.tokenHash = tokenHash → id = id') →
    ∀ tid other purpose purpose', Presents setup config tid tokenHash purpose →
      Presents setup config other tokenHash purpose' → ToldYes config tid →
      ToldYes config other → tid = other := by
  intro always
  have reachable : Config.Reachable (application demo) twoAtOnce := by
    unfold twoAtOnce
    exact Config.reachable_ran _
  have only : ∀ h ∈ twoAtOnce.world.history.tails,
      ∀ entry ∈ (History.db h .authTokens).list, entry.1 = 1 := by decide +kernel
  have isOne : ∀ h : History store outside, h <:+ twoAtOnce.world.history → ∀ id,
      ∀ row : AuthTokenRow, (h.db .authTokens).get id = some row → id = 1 :=
    fun h past id row stored =>
      only h ((List.mem_tails _ _).mpr past) (id, row) (Rows.mem_list.mpr stored)
  have presents : ∀ tid ∈ [2, 3],
      (twoAtOnce.procs tid).bind (·.job.presents) = some ("ticket", .reset) := by decide +kernel
  have told : ∀ tid ∈ [2, 3],
      (twoAtOnce.procs tid).bind (·.life.answer?) = some (.told true) := by decide +kernel
  have presented : ∀ tid ∈ [2, 3], Presents demo twoAtOnce tid "ticket" .reset := by
    intro tid member
    obtain ⟨proc, found, isToken⟩ := Option.bind_eq_some_iff.mp (presents tid member)
    exact ⟨proc, "ticket", found, isToken, rfl⟩
  have toldYes : ∀ tid ∈ [2, 3], ToldYes twoAtOnce tid := by
    intro tid member
    obtain ⟨proc, found, ended⟩ := Option.bind_eq_some_iff.mp (told tid member)
    exact ⟨proc, found, Life.answer?_eq_some.mp ended⟩
  have same := always demo twoAtOnce reachable "ticket"
    (fun h h' id id' row row' past past' stored stored' _ _ =>
      (isOne h past id row stored).trans (isOne h' past' id' row' stored').symm)
    2 3 .reset .reset (presented 2 (by decide)) (presented 3 (by decide)) (toldYes 2 (by decide))
    (toldYes 3 (by decide))
  exact absurd same (by decide)

end Demo

end ReceiptScanner

import ReceiptScanner.Accounts.Expiry

/-!
# Sessions after a password reset

A reset writes the new hash and drops the user's sessions in one transaction. A login reads
the hash in one statement and inserts its session in a later one, and shares no lock with a
reset: the hash may be replaced in between, and the DELETE may have its snapshot before the
session is there.
-/

namespace ReceiptScanner

open ReadCommitted

variable {setup : Setup} {config : Config store outside Job} {c r : Commit store outside}
  {h earlier since : History store outside} {id userId : ℕ} {hash : String}

section Commits

/-- The session that a write opens. -/
def openOf : Write store → Option (ℕ × SessionRow)
  | ⟨.sessions, id, some row, .login⟩ => some (id, row)
  | _ => none

/-- The sessions that a commit opens. -/
def opensOf (c : Commit store outside) : List (ℕ × SessionRow) := c.writes.filterMap openOf

/-- The user whose password a write resets, and the new hash. -/
def resetOf : Write store → Option (ℕ × String)
  | ⟨.users, id, some row, .resetPassword⟩ => some (id, row.passwordHash)
  | _ => none

/-- The users whose passwords a commit resets, and the new hashes. -/
def resetsOf (c : Commit store outside) : List (ℕ × String) := c.writes.filterMap resetOf

/-- The hashes against which a password was found right. -/
def verifiedOf (calls : List (Said outside)) : List String :=
  calls.filterMap fun
    | ⟨.verifyPassword _ hash, true⟩ => some hash
    | _ => none

theorem mem_opensOf {row : SessionRow} :
    (id, row) ∈ opensOf c ↔ ⟨.sessions, id, some row, .login⟩ ∈ c.writes := by
  simp only [opensOf, List.mem_filterMap]
  constructor
  · rintro ⟨write, member, isOpen⟩
    unfold openOf at isOpen
    split at isOpen
    · cases isOpen
      exact member
    · cases isOpen
  · exact fun member => ⟨_, member, rfl⟩

theorem mem_resetsOf : (userId, hash) ∈ resetsOf c ↔
    ∃ row : UserRow, row.passwordHash = hash ∧
      ⟨.users, userId, some row, .resetPassword⟩ ∈ c.writes := by
  simp only [resetsOf, List.mem_filterMap]
  constructor
  · rintro ⟨write, member, isReset⟩
    unfold resetOf at isReset
    split at isReset
    · cases isReset
      exact ⟨_, rfl, member⟩
    · cases isReset
  · rintro ⟨row, rfl, member⟩
    exact ⟨_, member, rfl⟩

theorem mem_verifiedOf {calls : List (Said outside)} : hash ∈ verifiedOf calls ↔
    ∃ password, (⟨.verifyPassword password hash, true⟩ : Said outside) ∈ calls := by
  simp only [verifiedOf, List.mem_filterMap]
  constructor
  · rintro ⟨said, member, isVerified⟩
    split at isVerified
    · cases isVerified
      exact ⟨_, member⟩
    · cases isVerified
  · rintro ⟨password, member⟩
    exact ⟨_, member, rfl⟩

end Commits

/-- The session was opened by a login, after its password was found right against the hash
that this reset, or a later one, has set for the user. -/
def OpenedUnder (since h : History store outside) (id userId : ℕ) : Prop :=
  ∃ c earlier row hash r before, c :: earlier <:+ h ∧ (id, row) ∈ opensOf c ∧
    hash ∈ verifiedOf c.calls ∧ since <:+ r :: before ∧ r :: before <:+ earlier ∧
    (userId, hash) ∈ resetsOf r

/-- A commit does not fall between the steps of another request of the same user. -/
structure Orderly (h : History store outside) (c : Commit store outside) : Prop where
  /-- When a login inserts its session, the hash is still the one that it has verified. -/
  current : ∀ opened ∈ opensOf c, ∀ hash ∈ verifiedOf c.calls,
    ((h.db .users).get opened.2.userId).map UserRow.passwordHash = some hash
  /-- When a reset commits, no login has inserted a session since its DELETE looked. -/
  apart : ∀ reset ∈ resetsOf c, ∀ span ∈ c.spans[1]?, ∀ other ∈ h.take (h.length - span.1),
    ∀ opened ∈ opensOf other, opened.2.userId ≠ reset.1

instance : Decidable (Orderly h c) :=
  decidable_of_iff
    ((∀ opened ∈ opensOf c, ∀ hash ∈ verifiedOf c.calls,
      ((h.db .users).get opened.2.userId).map UserRow.passwordHash = some hash) ∧
    ∀ reset ∈ resetsOf c, ∀ span ∈ c.spans[1]?, ∀ other ∈ h.take (h.length - span.1),
      ∀ opened ∈ opensOf other, opened.2.userId ≠ reset.1)
    ⟨fun both => ⟨both.1, both.2⟩, fun ordered => ⟨ordered.current, ordered.apart⟩⟩

section Rows

/-- A stored session was opened by some login. -/
theorem opened_of_stored (reachable : Config.Reachable (application setup) config)
    (suffix : h <:+ config.world.history) {row : SessionRow}
    (stored : (h.db .sessions).get id = some row) :
    ∃ c earlier first, c :: earlier <:+ h ∧ (id, first) ∈ opensOf c ∧
      first.userId = row.userId := by
  induction h generalizing row with
  | nil => simp at stored
  | cons c earlier ih =>
      have before := (List.suffix_cons c earlier).trans suffix
      have onward := List.suffix_cons c earlier
      rcases session_cases reachable suffix stored with
        old | ⟨-, -, ⟨member, -⟩, -⟩ | ⟨old, was, rfl, -⟩
      · obtain ⟨d, past, first, within, rest⟩ := ih before old
        exact ⟨d, past, first, within.trans onward, rest⟩
      · exact ⟨c, earlier, row, List.suffix_rfl, mem_opensOf.mpr member, rfl⟩
      · obtain ⟨d, past, first, within, rest⟩ := ih before was
        exact ⟨d, past, first, within.trans onward, rest⟩

/-- From a reset on, the hash of the user is the one that this reset or a later one has set. -/
theorem hash_since_reset (reachable : Config.Reachable (application setup) config)
    (suffix : h <:+ config.world.history) (past : r :: earlier <:+ h)
    (resets : (userId, hash) ∈ resetsOf r) {user : UserRow}
    (stored : (h.db .users).get userId = some user) :
    ∃ last before, r :: earlier <:+ last :: before ∧ last :: before <:+ h ∧
      (userId, user.passwordHash) ∈ resetsOf last := by
  induction h generalizing user with
  | nil => simp at past
  | cons c h ih =>
      have onward := List.suffix_cons c h
      have promised := promised_of_reachable reachable suffix
      rcases List.suffix_cons_iff.mp past with same | inside
      · obtain ⟨rfl, rfl⟩ := List.cons.inj same
        obtain ⟨row, rfl, member⟩ := mem_resetsOf.mp resets
        obtain rfl := Option.some.inj (stored.symm.trans (promised.get (by decide) member))
        exact ⟨r, earlier, List.suffix_rfl, List.suffix_rfl, resets⟩
      · have before : ∀ {user : UserRow}, ((History.db h) .users).get userId = some user →
            ∃ last before, r :: earlier <:+ last :: before ∧ last :: before <:+ c :: h ∧
              (userId, user.passwordHash) ∈ resetsOf last := by
          intro user was
          obtain ⟨last, before, since, within, rest⟩ := ih (onward.trans suffix) inside was
          exact ⟨last, before, since, within.trans onward, rest⟩
        rcases promised.row_cases .users userId with ⟨same, -⟩ | ⟨now, label, member, isNow, -⟩
        · exact before (same ▸ stored)
        · obtain rfl := isNow.symm.trans stored
          have wrote : UserWrote h c userId (some user) label :=
            access_of_reachable reachable suffix _ member
          cases wrote with
          | registered fresh =>
              obtain ⟨row, -, written⟩ := mem_resetsOf.mp resets
              exact absurd ⟨rfl, rfl⟩
                (fresh r (inside.subset List.mem_cons_self) _ written)
          | reset was drops =>
              exact ⟨c, h, inside.trans onward, List.suffix_rfl,
                mem_resetsOf.mpr ⟨_, rfl, member⟩⟩
          | verified was =>
              obtain ⟨last, past, rest⟩ := before was
              exact ⟨last, past, rest⟩

/-- No commit opens a session and resets a password. -/
theorem not_both (reachable : Config.Reachable (application setup) config)
    (member : c ∈ config.world.history) {opened : ℕ × SessionRow} (opens : opened ∈ opensOf c)
    {reset : ℕ × String} (resets : reset ∈ resetsOf c) : False := by
  obtain ⟨job, -, labels⟩ := labels_of_reachable reachable member
  obtain ⟨row, -, written⟩ := mem_resetsOf.mp resets
  have login := labels _ (mem_opensOf.mp opens)
  have reset := labels _ written
  cases job <;> simp [Job.labels] at login reset

/-- A session that was opened before the DELETE of a reset had its snapshot is gone with it. -/
theorem dropped_of_reset (reachable : Config.Reachable (application setup) config)
    (suffix : r :: earlier <:+ config.world.history) (ordered : Orderly earlier r)
    (resets : (userId, hash) ∈ resetsOf r) {before : History store outside} {first : SessionRow}
    (past : c :: before <:+ earlier) (opens : (id, first) ∈ opensOf c)
    (owner : first.userId = userId) {row : SessionRow} (mine : row.userId = userId) :
    ((History.db (r :: earlier)) .sessions).get id ≠ some row := by
  intro stored
  have inside := (List.suffix_cons r earlier).trans suffix
  have promised := promised_of_reachable reachable suffix
  obtain ⟨user, -, written⟩ := mem_resetsOf.mp resets
  have wrote : UserWrote earlier r userId (some user) .resetPassword :=
    access_of_reachable reachable suffix _ written
  cases wrote with
  | reset was drops =>
      obtain ⟨snap, cur, during, upTo, span, dropped⟩ := drops
      have seen : c :: before <:+ snap := by
        rcases List.suffix_or_suffix_of_suffix past (during.trans upTo) with within | beyond
        · exact within
        · rcases List.suffix_cons_iff.mp beyond with same | since
          · exact same ▸ List.suffix_rfl
          · have newer := History.mem_since past since
            exact absurd owner (ordered.apart _ resets _ span c newer (id, first) opens)
      have used : ¬ Unused snap .sessions id := fun unused =>
        unused c (seen.subset List.mem_cons_self) _ (mem_opensOf.mp opens) ⟨rfl, rfl⟩
      obtain ⟨inCur, atCur, -, sameCur, -⟩ := session_between reachable
        (upTo.trans (List.suffix_cons r earlier)) suffix
        (fun unused => used (unused.earlier during)) stored
      obtain ⟨inSnap, atSnap, -, sameSnap, -⟩ := session_between reachable
        ((during.trans upTo).trans (List.suffix_cons r earlier)) suffix used stored
      have removed := dropped id inSnap inCur atSnap (sameSnap.trans mine) atCur
        (sameCur.trans mine)
      have gone := promised.get (by decide) removed
      exact absurd (gone.symm.trans stored) (by simp)

end Rows

/-- What the sessions are, in view of the resets. -/
def Renewed (h : History store outside) : Prop :=
  ∀ r earlier userId hash, r :: earlier <:+ h → (userId, hash) ∈ resetsOf r →
    ∀ id, ∀ row : SessionRow, (h.db .sessions).get id = some row → row.userId = userId →
      OpenedUnder (r :: earlier) h id userId

/-- In a run whose commits are all orderly, every session of a user was opened under the hash
of the latest reset before it, or of a later one. -/
theorem renewed_of_orderly (reachable : Config.Reachable (application setup) config)
    (suffix : h <:+ config.world.history)
    (ordered : ∀ c earlier, c :: earlier <:+ h → Orderly earlier c) : Renewed h := by
  intro r earlier userId hash past resets id row stored owner
  obtain ⟨c, before, first, within, opens, sameUser⟩ := opened_of_stored reachable suffix stored
  have owned : first.userId = userId := sameUser.trans owner
  have latest := within.trans suffix
  have since : r :: earlier <:+ before := by
    rcases List.suffix_or_suffix_of_suffix within past with below | above
    · rcases List.suffix_cons_iff.mp below with same | inside
      · obtain ⟨rfl, -⟩ := List.cons.inj same
        exact (not_both reachable (latest.subset List.mem_cons_self) opens resets).elim
      · -- The reset has dropped the session.
        have used : ¬ Unused (r :: earlier) .sessions id := fun unused =>
          unused c (List.mem_cons_of_mem _ (inside.subset List.mem_cons_self)) _
            (mem_opensOf.mp opens) ⟨rfl, rfl⟩
        obtain ⟨left, there, -, same, -⟩ :=
          session_between reachable past suffix used stored
        exact absurd there (dropped_of_reset reachable (past.trans suffix)
          (ordered r earlier past) resets inside opens owned (same.trans owner))
    · rcases List.suffix_cons_iff.mp above with same | since
      · obtain ⟨rfl, -⟩ := List.cons.inj same
        exact (not_both reachable (latest.subset List.mem_cons_self) opens resets).elim
      · exact since
  have wrote : SessionWrote setup config.jobs before c id (some first) .login :=
    access_of_reachable reachable latest _ (mem_opensOf.mp opens)
  have verified : ∃ hash, hash ∈ verifiedOf c.calls := by
    cases wrote with
    | opened verified => exact ⟨_, mem_verifiedOf.mpr verified⟩
  obtain ⟨hash', verified⟩ := verified
  obtain ⟨user, there, same⟩ :=
    Option.map_eq_some_iff.mp ((ordered c before within).current _ opens hash' verified)
  rw [owned] at there
  obtain ⟨last, beforeLast, onward, past', sets⟩ :=
    hash_since_reset reachable ((List.suffix_cons c before).trans latest) since resets there
  exact ⟨c, before, first, hash', last, beforeLast, within, opens, verified, onward, past',
    same ▸ sets⟩

/-- So are the sessions that calls of `validateSession` accept. -/
theorem resetsEnd (reachable : Config.Reachable (application setup) config)
    (ordered : ∀ c earlier, c :: earlier <:+ config.world.history → Orderly earlier c) :
    (∀ h, h <:+ config.world.history → Renewed h) ∧
    ∀ before begun tid rawToken proc, Checks setup before tid rawToken begun →
      Config.Leads (application setup) begun config → config.procs tid = some proc →
      proc.life = .ended (.told true) →
      ∃ id, ∃ row : SessionRow, (before.world.history.db .sessions).get id = some row ∧
        row.tokenHash = setup.sha256Hex rawToken ∧ ∀ r earlier hash,
          r :: earlier <:+ before.world.history → (row.userId, hash) ∈ resetsOf r →
          OpenedUnder (r :: earlier) before.world.history id row.userId := by
  have renewed : ∀ h, h <:+ config.world.history → Renewed h := fun h suffix =>
    renewed_of_orderly reachable suffix fun c earlier past => ordered c earlier (past.trans suffix)
  refine ⟨renewed, fun before begun tid rawToken proc checks leads found ended => ?_⟩
  obtain ⟨_, accepted, -⟩ := checks.answered leads found ended
  obtain ⟨⟨id, row, stored, token, -⟩, -⟩ := accepted rfl
  exact ⟨id, row, stored, token, fun r earlier hash past resets =>
    renewed _ (checks.past leads).1 r earlier row.userId hash past resets id row stored rfl⟩

section Demo

/-- A user registers, and asks for a password reset. -/
def forgetting : List (Move outside Job) :=
  registering 0 "ann" "secret" ++ [.spawn (.requestPasswordReset "ann")] ++ statements 1 1 ++
    [answered 1 "ticket" { kind := "" }] ++ statements 1 1 ++ [.step 1]

/-- Process `tid` resets the password. -/
def resetting (tid : ℕ) : List (Move outside Job) :=
  [.spawn (.confirmPasswordReset "ticket" "new")] ++ statements tid 1 ++
    [answered tid "" { kind := "" }, .step tid] ++ statements tid 3 ++ [.step tid, .step tid]

/-- Process `tid` checks the old password, and is about to insert its session. -/
def verifying (tid : ℕ) : List (Move outside Job) :=
  [.spawn (.login "ann" "secret")] ++ statements tid 1 ++
    [answered tid "" { kind := "" }, answered tid "pass" { kind := "" }]

/-- A login after the reset. -/
@[irreducible] def oneRenewed : Config store outside Job :=
  Config.ran (application demo) (forgetting ++ resetting 2 ++ loggingIn 3 "ann" "new" "pass")
    (by decide +kernel)

theorem reachable_oneRenewed : Config.Reachable (application demo) oneRenewed := by
  unfold oneRenewed
  exact Config.reachable_ran _

theorem renewed_of_oneRenewed : ((oneRenewed.world.history.db .sessions).get 1).isSome = true ∧
    Renewed oneRenewed.world.history := by
  have ordered : oneRenewed.world.history.every (fun h c => decide (Orderly h c)) = true := by
    decide +kernel
  obtain ⟨renewed, -⟩ := resetsEnd reachable_oneRenewed fun c earlier past =>
    of_decide_eq_true (History.every_iff.mp ordered c earlier past)
  exact ⟨by decide +kernel, renewed _ List.suffix_rfl⟩

/-- A login that has checked the old password before the reset inserts its session after it. -/
@[irreducible] def oneKept : Config store outside Job :=
  Config.ran (application demo) (forgetting ++ verifying 2 ++ resetting 3 ++ statements 2 1 ++
    [.step 2]) (by decide +kernel)

/-- Its session has not expired, and nobody has opened it under the new hash. -/
theorem not_renewed_of_oneKept : ¬ ∀ (setup : Setup) (config : Config store outside Job),
    Config.Reachable (application setup) config →
    ∀ r earlier userId hash, r :: earlier <:+ config.world.history →
      (userId, hash) ∈ resetsOf r → ∀ id, ∀ row : SessionRow,
      (config.world.history.db .sessions).get id = some row → row.userId = userId →
      config.world.clock < row.expiresAt →
      OpenedUnder (r :: earlier) config.world.history id userId := by
  intro always
  have reachable : Config.Reachable (application demo) oneKept := by
    unfold oneKept
    exact Config.reachable_ran _
  have session : ((oneKept.world.history.db .sessions).get 1).any (fun row : SessionRow =>
      row.userId == 1 && decide (oneKept.world.clock < row.expiresAt)) = true := by
    decide +kernel
  have reset : (oneKept.world.history.flatMap resetsOf) = [(1, "new")] := by decide +kernel
  have verified : (oneKept.world.history.flatMap fun c => verifiedOf c.calls) = ["secret"] := by
    decide +kernel
  obtain ⟨row, stored, both⟩ := (Option.any_eq_true _ _).mp session
  obtain ⟨owner, live⟩ := Bool.and_eq_true_iff.mp both
  have one : (1, "new") ∈ oneKept.world.history.flatMap resetsOf := by simp [reset]
  obtain ⟨r, member, resets⟩ := List.mem_flatMap.mp one
  obtain ⟨later, earlier, whole⟩ := List.append_of_mem member
  obtain ⟨c, before, _, hash, last, _, past, -, wasVerified, -, past', sets⟩ :=
    always demo oneKept reachable r earlier 1 "new" ⟨later, whole.symm⟩ resets 1 row stored
      (beq_iff_eq.mp owner) (of_decide_eq_true live)
  have isOld : hash ∈ oneKept.world.history.flatMap fun c => verifiedOf c.calls :=
    List.mem_flatMap.mpr ⟨c, past.subset List.mem_cons_self, wasVerified⟩
  have isNew : (1, hash) ∈ oneKept.world.history.flatMap resetsOf :=
    List.mem_flatMap.mpr ⟨last, past.subset (List.mem_cons_of_mem _
      (past'.subset List.mem_cons_self)), sets⟩
  rw [verified, List.mem_singleton] at isOld
  rw [reset, isOld] at isNew
  exact absurd isNew (by decide)

end Demo

end ReceiptScanner

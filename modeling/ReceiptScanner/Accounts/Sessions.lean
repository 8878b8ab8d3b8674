import ReceiptScanner.Accounts.Access
import ReceiptScanner.ReadCommitted.Follow

/-!
# Sliding expiry

A session keeps its token and its user, and its expiry only moves on. From that, and from
what one call of `validateSession` does after its check, follow the bounds on the expiry,
the throttle, and that a session found expired or gone stays so.
-/

namespace ReceiptScanner

open ReadCommitted

variable {setup : Setup} {config : Config store outside Job} {c : Commit store outside}
  {h later : History store outside} {id : ℕ}

/-- Every commit of every run says what it does to the accounts. -/
theorem access_of_reachable (reachable : Config.Reachable (application setup) config)
    (suffix : c :: h <:+ config.world.history) :
    ∀ write ∈ c.writes, AccessWrote setup config.jobs h c write :=
  (keeps_access setup config.jobs).sound reachable config.agrees_jobs suffix

/-- The calls extend a session when less than this is left, and that is no more than its
life. -/
theorem refreshThreshold_le (throttle : 0 ≤ setup.sessionTouchIntervalSeconds) :
    refreshThreshold setup ≤ sessionLifetime := by
  unfold refreshThreshold seconds sessionLifetime
  generalize AuthService.kSessionLifetimeSeconds = lifetime
  push_cast
  omega

section Rows

/-- Where a stored session comes from: it was there, it was opened, or its call moved it. -/
theorem session_cases (reachable : Config.Reachable (application setup) config)
    (suffix : c :: h <:+ config.world.history) {row : SessionRow}
    (stored : ((History.db (c :: h)) .sessions).get id = some row) :
    (h.db .sessions).get id = some row ∨
    (Unused h .sessions id ∧ row.expiresAt = c.start + sessionLifetime ∧
      (⟨.sessions, id, some row, .login⟩ ∈ c.writes ∧ ∀ write ∈ c.writes, write.id = id) ∧
      (∀ other, ∀ row' : SessionRow, (h.db .sessions).get other = some row' →
        row'.tokenHash ≠ row.tokenHash)) ∨
    ∃ before : SessionRow, (h.db .sessions).get id = some before ∧
      row = { before with expiresAt := c.start + sessionLifetime } ∧
      (before.expiresAt : ℤ) < c.start + refreshThreshold setup ∧
      ∃ rawToken, config.jobs c.tid = some (.validateSession rawToken) ∧
        before.tokenHash = setup.sha256Hex rawToken := by
  have wrote := access_of_reachable reachable suffix
  rw [History.db_cons] at stored
  rcases (History.db h).get_writes_cases c.writes .sessions id with
    ⟨same, -⟩ | ⟨written, label, member, now⟩
  · exact Or.inl (same ▸ stored)
  · obtain rfl : written = some row := now.symm.trans stored
    have said : SessionWrote setup config.jobs h c id (some row) label := wrote _ member
    cases said with
    | opened _ _ _ _ fresh alone apart =>
        exact Or.inr (Or.inl ⟨fresh, rfl, ⟨member, alone⟩, apart⟩)
    | touched asked token before due =>
        exact Or.inr (Or.inr ⟨_, before, rfl, due, _, asked, token⟩)

/-- A session whose id had been used before was there before, with the same token and the
same user; and its expiry has not moved back, if the throttle is not negative. -/
theorem session_between (reachable : Config.Reachable (application setup) config)
    (past : h <:+ later) (suffix : later <:+ config.world.history)
    (used : ¬ Unused h .sessions id) {row : SessionRow}
    (stored : (later.db .sessions).get id = some row) :
    ∃ before : SessionRow, (h.db .sessions).get id = some before ∧
      before.tokenHash = row.tokenHash ∧ before.userId = row.userId ∧
      (0 ≤ setup.sessionTouchIntervalSeconds → before.expiresAt ≤ row.expiresAt) := by
  induction later generalizing row with
  | nil =>
      obtain rfl := List.suffix_nil.mp past
      exact ⟨row, stored, rfl, rfl, fun _ => Nat.le_refl _⟩
  | cons c earlier ih =>
      rcases List.suffix_cons_iff.mp past with rfl | inside
      · exact ⟨row, stored, rfl, rfl, fun _ => Nat.le_refl _⟩
      · have before := (List.suffix_cons c earlier).trans suffix
        rcases session_cases reachable suffix stored with
          same | ⟨fresh, -⟩ | ⟨old, was, rfl, due, -⟩
        · exact ih inside before same
        · exact absurd (fun other member => fresh other (inside.subset member)) used
        · obtain ⟨first, there, token, user, moved⟩ := ih inside before was
          refine ⟨first, there, token, user, fun throttle => ?_⟩
          have gap := refreshThreshold_le throttle
          have kept := moved throttle
          dsimp only
          omega

theorem session_before (throttle : 0 ≤ setup.sessionTouchIntervalSeconds)
    (reachable : Config.Reachable (application setup) config)
    (past : h <:+ later) (suffix : later <:+ config.world.history)
    (used : ¬ Unused h .sessions id) {row : SessionRow}
    (stored : (later.db .sessions).get id = some row) :
    ∃ before : SessionRow, (h.db .sessions).get id = some before ∧
      before.tokenHash = row.tokenHash ∧ before.userId = row.userId ∧
      before.expiresAt ≤ row.expiresAt := by
  obtain ⟨before, was, token, user, moved⟩ := session_between reachable past suffix used stored
  exact ⟨before, was, token, user, moved throttle⟩

/-- A stored session has been given its expiry by some commit. -/
theorem session_expiry (reachable : Config.Reachable (application setup) config)
    (suffix : h <:+ config.world.history) {row : SessionRow}
    (stored : (h.db .sessions).get id = some row) :
    ∃ commit ∈ h, row.expiresAt = commit.start + sessionLifetime := by
  induction h generalizing row with
  | nil => simp at stored
  | cons c earlier ih =>
      have before := (List.suffix_cons c earlier).trans suffix
      rcases session_cases reachable suffix stored with same | ⟨-, expiry, -⟩ | ⟨_, -, rfl, -⟩
      · obtain ⟨commit, member, expiry⟩ := ih before same
        exact ⟨commit, List.mem_cons_of_mem _ member, expiry⟩
      · exact ⟨c, List.mem_cons_self, expiry⟩
      · exact ⟨c, List.mem_cons_self, rfl⟩

/-- No two stored sessions have the same token. -/
theorem session_unique (reachable : Config.Reachable (application setup) config)
    (suffix : h <:+ config.world.history) {other : ℕ} {row row' : SessionRow}
    (stored : (h.db .sessions).get id = some row)
    (stored' : (h.db .sessions).get other = some row')
    (same : row.tokenHash = row'.tokenHash) : id = other := by
  induction h generalizing id other row row' with
  | nil => simp at stored
  | cons c earlier ih =>
      have before := (List.suffix_cons c earlier).trans suffix
      rcases session_cases reachable suffix stored with
        old | ⟨-, -, alone, apart⟩ | ⟨old, was, rfl, -⟩ <;>
      rcases session_cases reachable suffix stored' with
        old' | ⟨-, -, alone', apart'⟩ | ⟨old', was', rfl, -⟩
      · exact ih before old old' same
      · exact absurd same (apart' id row old)
      · exact ih before old was' same
      · exact absurd same.symm (apart other row' old')
      · exact alone'.2 _ alone.1
      · exact absurd same.symm (apart other old' was')
      · exact ih before was old' same
      · exact absurd same (apart' id old was)
      · exact ih before was was' same

end Rows

end ReceiptScanner

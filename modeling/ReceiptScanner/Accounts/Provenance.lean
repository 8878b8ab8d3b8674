import ReceiptScanner.Accounts.Resets
import ReceiptScanner.Accounts.Sources
import ReceiptScanner.ReadCommitted.Calls

/-!
# Where credentials come from

Over a whole run: who can have set the password of a user, proven the email, opened a session, or
asked for a token. Every chain ends with a registration, a right password, or a random text drawn
for the user.
-/

namespace ReceiptScanner

open ReadCommitted

section Runs

variable {setup : Setup} {config : Config store outside Job} {c : Commit store outside}
  {h seen : History store outside} {id : ℕ}

/-- Every commit of every run says where the credentials come from that it stores. -/
theorem provenance_of_reachable (reachable : Config.Reachable (application setup) config)
    (past : c :: h <:+ config.world.history) :
    ∀ write ∈ c.writes, Sourced setup config.jobs h c write :=
  (keeps_provenance setup config.jobs).sound reachable config.agrees_jobs past

/-- What a commit says that was called before, its process has called. -/
theorem said_of_committed (reachable : Config.Reachable (application setup) config)
    (past : c :: h <:+ config.world.history) {said : Said outside} (member : said ∈ c.calls) :
    said ∈ config.said c.tid :=
  ((keeps_provenance setup config.jobs).recorded reachable config.agrees_jobs
    (past.subset List.mem_cons_self)).subset member

/-- A user who is there was there, or registers; and the email stays. -/
theorem user_cases (reachable : Config.Reachable (application setup) config)
    (past : c :: h <:+ config.world.history) {row : UserRow}
    (stored : ((History.db (c :: h)) .users).get id = some row) :
    (h.db .users).get id = some row ∨ ∃ label, UserSource setup config.jobs h c id row label ∧
      ((label = .registerUser ∧ Unused h .users id) ∨
        ∃ before : UserRow, (h.db .users).get id = some before ∧ row.email = before.email ∧
          ((label = .resetPassword ∧ row.emailVerifiedAt = before.emailVerifiedAt) ∨
            (label = .verifyEmail ∧ row.passwordHash = before.passwordHash))) := by
  rw [History.db_cons] at stored
  rcases (History.db h).get_writes_cases c.writes .users id with
    ⟨same, -⟩ | ⟨written, label, member, now⟩
  · exact Or.inl (same ▸ stored)
  · obtain rfl : written = some row := now.symm.trans stored
    have source : UserSource setup config.jobs h c id row label :=
      provenance_of_reachable reachable past _ member
    have wrote : UserWrote h c id (some row) label := access_of_reachable reachable past _ member
    cases wrote with
    | registered fresh => exact Or.inr ⟨_, source, Or.inl ⟨rfl, fresh⟩⟩
    | reset before _ => exact Or.inr ⟨_, source, Or.inr ⟨_, before, rfl, Or.inl ⟨rfl, rfl⟩⟩⟩
    | verified before => exact Or.inr ⟨_, source, Or.inr ⟨_, before, rfl, Or.inr ⟨rfl, rfl⟩⟩⟩

/-- Users are not removed, and keep their email. -/
theorem user_stays (reachable : Config.Reachable (application setup) config)
    (past : h <:+ config.world.history) (before : seen <:+ h) {first : UserRow}
    (was : (seen.db .users).get id = some first) :
    ∃ last : UserRow, (h.db .users).get id = some last ∧ last.email = first.email := by
  induction h with
  | nil => exact ⟨first, List.suffix_nil.mp before ▸ was, rfl⟩
  | cons c h ih =>
      rcases List.suffix_cons_iff.mp before with rfl | inside
      · exact ⟨first, was, rfl⟩
      obtain ⟨middle, there, same⟩ := ih ((List.suffix_cons c h).trans past) inside
      have kept : ∃ last : UserRow, ((History.db (c :: h)) .users).get id = some last := by
        rw [History.db_cons]
        rcases (History.db h).get_writes_cases c.writes .users id with
          ⟨unchanged, -⟩ | ⟨written, label, member, now⟩
        · exact ⟨middle, unchanged ▸ there⟩
        · have wrote : UserWrote h c id written label := access_of_reachable reachable past _ member
          cases wrote <;> exact ⟨_, now⟩
      obtain ⟨last, stored⟩ := kept
      refine ⟨last, stored, ?_⟩
      rcases user_cases reachable past stored with
        still | ⟨label, -, ⟨-, fresh⟩ | ⟨other, stands, email, -⟩⟩
      · obtain rfl := Option.some.inj (there.symm.trans still)
        exact same
      · exact absurd (was.symm.trans (fresh.get inside)) (by simp)
      · obtain rfl := Option.some.inj (there.symm.trans stands)
        exact email.trans same

/-- The process drew a random text with this hash. -/
def Drew (setup : Setup) (config : Config store outside Job) (tid : ℕ) (hash : String) : Prop :=
  ∃ rawToken, ⟨.generateToken, rawToken⟩ ∈ config.said tid ∧ setup.sha256Hex rawToken = hash

/-- The process was asked for a reset token for the address of this user. -/
def ResetAsked (setup : Setup) (config : Config store outside Job) (tid userId : ℕ) : Prop :=
  ∃ email, config.jobs tid = some (.requestPasswordReset email) ∧ ∃ user : UserRow,
    (config.world.history.db .users).get userId = some user ∧
      setup.lower user.email = setup.lower email

/-- A user who was seen under an address still has it. -/
theorem Addressed.still (reachable : Config.Reachable (application setup) config)
    (past : h <:+ config.world.history) {userId : ℕ} {email : String}
    (addressed : Addressed setup h userId email) : ∃ user : UserRow,
      (config.world.history.db .users).get userId = some user ∧
        setup.lower user.email = setup.lower email := by
  obtain ⟨seen, user, before, stored, address⟩ := addressed
  obtain ⟨last, there, same⟩ :=
    user_stays reachable List.suffix_rfl (before.trans past) stored
  exact ⟨last, there, same ▸ address⟩

/-- Every token was drawn by a call that asked for it. -/
theorem token_drawn (reachable : Config.Reachable (application setup) config)
    (past : h <:+ config.world.history) {row : AuthTokenRow}
    (stored : (h.db .authTokens).get id = some row) :
    ∃ tid, Drew setup config tid row.tokenHash ∧
      ((row.purpose = .reset ∧ ResetAsked setup config tid row.userId) ∨
        (row.purpose = .verify ∧ config.jobs tid = some (.requestEmailVerification row.userId))) := by
  induction h with
  | nil => simp at stored
  | cons c h ih =>
      have past' := (List.suffix_cons c h).trans past
      rw [History.db_cons] at stored
      rcases (History.db h).get_writes_cases c.writes .authTokens id with
        ⟨same, -⟩ | ⟨written, label, member, now⟩
      · exact ih past' (same ▸ stored)
      obtain rfl : written = some row := now.symm.trans stored
      have source : TokenSource setup config.jobs h c row label :=
        provenance_of_reachable reachable past _ member
      cases source with
      | reset asked addressed purpose drawn token =>
          exact ⟨c.tid, ⟨_, said_of_committed reachable past drawn, token.symm⟩,
            Or.inl ⟨purpose, _, asked, addressed.still reachable past'⟩⟩
      | verify asked purpose drawn token =>
          exact ⟨c.tid, ⟨_, said_of_committed reachable past drawn, token.symm⟩,
            Or.inr ⟨purpose, asked⟩⟩

/-- A token that was presented was drawn for its user. -/
theorem Presented.drawn (reachable : Config.Reachable (application setup) config)
    (past : h <:+ config.world.history) {rawToken : String} {purpose : Purpose} {userId : ℕ}
    (presented : Presented setup h rawToken purpose userId) :
    ∃ tid, Drew setup config tid (setup.sha256Hex rawToken) ∧
      ((purpose = .reset ∧ ResetAsked setup config tid userId) ∨
        (purpose = .verify ∧ config.jobs tid = some (.requestEmailVerification userId))) := by
  obtain ⟨seen, id, row, before, stored, token, rfl, rfl⟩ := presented
  exact token ▸ token_drawn reachable (before.trans past) stored

/-- The password of the user's hash was given by the user's registration, or by a call that
presented a reset token drawn for the user's address. -/
def PasswordGiven (setup : Setup) (config : Config store outside Job) (userId : ℕ)
    (row : UserRow) : Prop :=
  ∃ tid password, ⟨.hashPassword password, .ok row.passwordHash⟩ ∈ config.said tid ∧
    (config.jobs tid = some (.registerUser row.email password) ∨ ∃ rawToken requester,
      config.jobs tid = some (.confirmPasswordReset rawToken password) ∧
      Drew setup config requester (setup.sha256Hex rawToken) ∧
      ResetAsked setup config requester userId)

/-- The email of the user was verified with a token drawn for the user. -/
def EmailProven (setup : Setup) (config : Config store outside Job) (userId : ℕ) : Prop :=
  ∃ tid rawToken requester, config.jobs tid = some (.confirmEmailVerification rawToken) ∧
    Drew setup config requester (setup.sha256Hex rawToken) ∧
    config.jobs requester = some (.requestEmailVerification userId)

theorem user_provenance (reachable : Config.Reachable (application setup) config)
    (past : h <:+ config.world.history) {row : UserRow}
    (stored : (h.db .users).get id = some row) : PasswordGiven setup config id row ∧
      (row.emailVerifiedAt ≠ none → EmailProven setup config id) := by
  induction h generalizing row with
  | nil => simp at stored
  | cons c h ih =>
      have past' := (List.suffix_cons c h).trans past
      rcases user_cases reachable past stored with same | ⟨label, source, which⟩
      · exact ih past' same
      cases source with
      | registered asked hashed unverified =>
          exact ⟨⟨c.tid, _, said_of_committed reachable past hashed, Or.inl asked⟩,
            fun verified => absurd unverified verified⟩
      | reset asked presented hashed =>
          obtain ⟨requester, drew, ⟨-, isAsked⟩ | ⟨impossible, -⟩⟩ :=
            presented.drawn reachable past'
          · refine ⟨⟨c.tid, _, said_of_committed reachable past hashed,
              Or.inr ⟨_, requester, asked, drew, isAsked⟩⟩, fun verified => ?_⟩
            obtain ⟨before, was, -, ⟨-, same⟩ | ⟨impossible, -⟩⟩ :=
              which.resolve_left fun registers => by cases registers.1
            · exact (ih past' was).2 (same ▸ verified)
            · cases impossible
          · cases impossible
      | verified asked presented =>
          obtain ⟨before, was, email, ⟨impossible, -⟩ | ⟨-, same⟩⟩ :=
            which.resolve_left fun registers => by cases registers.1
          · cases impossible
          obtain ⟨requester, drew, ⟨impossible, -⟩ | ⟨-, isAsked⟩⟩ :=
            presented.drawn reachable past'
          · cases impossible
          · have given := (ih past' was).1
            rw [PasswordGiven, ← same, ← email] at given
            exact ⟨given, fun _ => ⟨c.tid, _, requester, asked, drew, isAsked⟩⟩

/-- The session was opened by a login under the user's address, with a random text that it drew,
after the password was found right against a hash that the user had. -/
def LoggedIn (setup : Setup) (config : Config store outside Job) (row : SessionRow) : Prop :=
  ∃ tid email password, config.jobs tid = some (.login email password) ∧
    Drew setup config tid row.tokenHash ∧
    ∃ seen : History store outside, ∃ user : UserRow, seen <:+ config.world.history ∧
      (seen.db .users).get row.userId = some user ∧ setup.lower user.email = setup.lower email ∧
      ⟨.verifyPassword password user.passwordHash, true⟩ ∈ config.said tid

theorem session_provenance (reachable : Config.Reachable (application setup) config)
    (past : h <:+ config.world.history) {row : SessionRow}
    (stored : (h.db .sessions).get id = some row) : LoggedIn setup config row := by
  induction h generalizing row with
  | nil => simp at stored
  | cons c h ih =>
      have past' := (List.suffix_cons c h).trans past
      rcases session_cases reachable past stored with same | ⟨-, -, ⟨member, -⟩, -⟩ |
        ⟨before, was, rfl, -⟩
      · exact ih past' same
      · have source : SessionSource setup config.jobs h c row .login :=
          provenance_of_reachable reachable past _ member
        cases source with
        | opened asked suffix there address verified drawn token =>
            exact ⟨c.tid, _, _, asked, ⟨_, said_of_committed reachable past drawn, token.symm⟩, _, _,
              suffix.trans past', there, address, said_of_committed reachable past verified⟩
      · have loggedIn := ih past' was
        exact loggedIn

/-- Where every credential of a state comes from. -/
structure Provenance (setup : Setup) (config : Config store outside Job) : Prop where
  users : ∀ id, ∀ row : UserRow, (config.world.history.db .users).get id = some row →
    PasswordGiven setup config id row ∧ (row.emailVerifiedAt ≠ none → EmailProven setup config id)
  sessions : ∀ id, ∀ row : SessionRow, (config.world.history.db .sessions).get id = some row →
    LoggedIn setup config row
  tokens : ∀ id, ∀ row : AuthTokenRow, (config.world.history.db .authTokens).get id = some row →
    ∃ tid, Drew setup config tid row.tokenHash ∧
      ((row.purpose = .reset ∧ ResetAsked setup config tid row.userId) ∨
        (row.purpose = .verify ∧ config.jobs tid = some (.requestEmailVerification row.userId)))

/-- In every state of every run, every credential comes from whom it should. -/
theorem credentials_provenance (reachable : Config.Reachable (application setup) config) :
    Provenance setup config where
  users _ _ stored := user_provenance reachable List.suffix_rfl stored
  sessions _ _ stored := session_provenance reachable List.suffix_rfl stored
  tokens _ _ stored := token_drawn reachable List.suffix_rfl stored

/-- The password is that of the reset, and the session that of the login after it. -/
theorem credentials_provenance_of_oneRenewed :
    ∃ user : UserRow, ∃ session : SessionRow,
      (oneRenewed.world.history.db .users).get 1 = some user ∧
      PasswordGiven demo oneRenewed 1 user ∧
      (oneRenewed.world.history.db .sessions).get 1 = some session ∧
      LoggedIn demo oneRenewed session := by
  have there : ((oneRenewed.world.history.db .users).get 1).isSome = true ∧
      ((oneRenewed.world.history.db .sessions).get 1).isSome = true := by decide +kernel
  obtain ⟨user, isUser⟩ := Option.isSome_iff_exists.mp there.1
  obtain ⟨session, isSession⟩ := Option.isSome_iff_exists.mp there.2
  have all := credentials_provenance reachable_oneRenewed
  exact ⟨user, session, isUser, (all.users 1 user isUser).1, isSession,
    all.sessions 1 session isSession⟩

end Runs

end ReceiptScanner

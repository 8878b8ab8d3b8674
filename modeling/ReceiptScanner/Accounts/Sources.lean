import ReceiptScanner.Accounts.Access

/-!
# What is stored as a credential

`provenance` is the guarantee about what is written to users, sessions and auth tokens: which
call asked for it, and from which hash, which random text and which row the value was made.
-/

namespace ReceiptScanner

open ReadCommitted

section Sources

variable (setup : Setup) (jobs : ℕ → Option Job) (h : History store outside)
  (c : Commit store outside) (id : ℕ)

/-- The user was seen with this email. -/
def Addressed (userId : ℕ) (email : String) : Prop :=
  ∃ seen : History store outside, ∃ user : UserRow, seen <:+ h ∧
    (seen.db .users).get userId = some user ∧ setup.lower user.email = setup.lower email

/-- A token of the user was found, for this purpose. -/
def Presented (rawToken : String) (purpose : Purpose) (userId : ℕ) : Prop :=
  ∃ seen : History store outside, ∃ other, ∃ row : AuthTokenRow, seen <:+ h ∧
    (seen.db .authTokens).get other = some row ∧ row.tokenHash = setup.sha256Hex rawToken ∧
    row.purpose = purpose ∧ row.userId = userId

/-- What a commit that stores a `users` row says of it. -/
inductive UserSource (row : UserRow) : Label → Prop where
  | registered {password : String} (asked : jobs c.tid = some (.registerUser row.email password))
      (hashed : ⟨.hashPassword password, .ok row.passwordHash⟩ ∈ c.calls)
      (unverified : row.emailVerifiedAt = none) : UserSource row .registerUser
  | reset {rawToken password : String}
      (asked : jobs c.tid = some (.confirmPasswordReset rawToken password))
      (presented : Presented setup h rawToken .reset id)
      (hashed : ⟨.hashPassword password, .ok row.passwordHash⟩ ∈ c.calls) :
      UserSource row .resetPassword
  | verified {rawToken : String} (asked : jobs c.tid = some (.confirmEmailVerification rawToken))
      (presented : Presented setup h rawToken .verify id) : UserSource row .verifyEmail

/-- What a commit that stores a session says of it. -/
inductive SessionSource (row : SessionRow) : Label → Prop where
  | opened {email password rawToken : String} {seen : History store outside} {user : UserRow}
      (asked : jobs c.tid = some (.login email password)) (suffix : seen <:+ h)
      (stored : (seen.db .users).get row.userId = some user)
      (address : setup.lower user.email = setup.lower email)
      (verified : ⟨.verifyPassword password user.passwordHash, true⟩ ∈ c.calls)
      (drawn : ⟨.generateToken, rawToken⟩ ∈ c.calls)
      (token : row.tokenHash = setup.sha256Hex rawToken) : SessionSource row .login
  | touched : SessionSource row .touchSession

/-- What a commit that stores an auth token says of it. -/
inductive TokenSource (row : AuthTokenRow) : Label → Prop where
  | reset {email rawToken : String} (asked : jobs c.tid = some (.requestPasswordReset email))
      (addressed : Addressed setup h row.userId email) (purpose : row.purpose = .reset)
      (drawn : ⟨.generateToken, rawToken⟩ ∈ c.calls)
      (token : row.tokenHash = setup.sha256Hex rawToken) : TokenSource row .requestPasswordReset
  | verify {rawToken : String} (asked : jobs c.tid = some (.requestEmailVerification row.userId))
      (purpose : row.purpose = .verify) (drawn : ⟨.generateToken, rawToken⟩ ∈ c.calls)
      (token : row.tokenHash = setup.sha256Hex rawToken) : TokenSource row .requestEmailVerification

/-- What a commit says of one of its writes, if that stores a credential. -/
def Sourced : Write store → Prop
  | ⟨.users, id, some row, label⟩ => UserSource setup jobs h c id row label
  | ⟨.sessions, _, some row, label⟩ => SessionSource setup jobs h c row label
  | ⟨.authTokens, _, some row, label⟩ => TokenSource setup jobs h c row label
  | _ => True

theorem sourced_other {write : Write store}
    (other : write.table ∉ [Table.users, .sessions, .authTokens]) : Sourced setup jobs h c write := by
  obtain ⟨table, id, row, label⟩ := write
  cases table <;> first | trivial | exact absurd (by simp) other

theorem sourced_removed {table : Table} {label : Label} :
    Sourced setup jobs h c ⟨table, id, none, label⟩ := by
  cases table <;> trivial

/-- Every commit says where the credentials come from that it stores. -/
def provenance : Guarantee store outside where
  commits h c := ∀ write ∈ c.writes, Sourced setup jobs h c write
  calls _ _ _ _ := True

end Sources

section Tasks

variable {setup : Setup} {jobs : ℕ → Option Job} {job : Job}

/-- The credentials, for the processes of a job. -/
abbrev credentials (setup : Setup) (jobs : ℕ → Option Job) (job : Job) : Regime :=
  ⟨setup, provenance setup jobs, fun tid => jobs tid = some job⟩

/-- Writes of these kinds, and any calls. -/
def writing (writes : Write store → Prop) : Footprint store outside := ⟨writes, fun _ => True⟩

namespace AuthService

/-- Registration stores the hash of its own password. -/
theorem sourced_registerUser {email password : String} :
    Promises (credentials setup jobs (.registerUser email password))
      (registerUser email password) := by
  intro tid calls world who
  refine Svc.wp_bind (Svc.wp_call (fun _ _ => trivial) fun asked reply _ => ?_)
  cases reply with
  | error raised => exact ⟨_, rfl⟩
  | ok passwordHash =>
      let body : Task ℕ := do
        let userId ← execSql .transaction (insertUser email passwordHash)
        kExpenseCategories.forM fun name => do
          let _ ← execSql .transaction (seedCategory userId false name)
        kIncomeCategories.forM fun name => do
          let _ ← execSql .transaction (seedCategory userId true name)
        let _ ← execSql .transaction (seedPaymentMethod userId kDefaultPaymentMethod)
        pure userId
      have inside : Svc.Inside (provenance setup jobs) (duplicateEmail (rollingBack body)) := by
        refine inside_rethrow (Svc.inside_rollingBack ?_) rethrows_if
        exact Svc.inside_bind (inside_execSql _) fun _ =>
          Svc.inside_bind (Svc.inside_forM _ fun _ => Svc.inside_bind (inside_execSql _) fun _ =>
            Svc.inside_pure _) fun _ =>
          Svc.inside_bind (Svc.inside_forM _ fun _ => Svc.inside_bind (inside_execSql _) fun _ =>
            Svc.inside_pure _) fun _ =>
          Svc.inside_bind (inside_execSql _) fun _ => Svc.inside_pure _
      have within : Svc.Within (writing fun write => write.table ∈ [Table.categories, .paymentMethods] ∨
          ∃ id, write = ⟨.users, id, some { email := email, passwordHash := passwordHash },
            .registerUser⟩) body := by
        have seeds : ∀ {names : List String} {userId : ℕ} {isIncome : Bool}, Svc.Within
            (writing fun write => write.table ∈ [Table.categories, .paymentMethods] ∨
              ∃ id, write = ⟨.users, id, some { email := email, passwordHash := passwordHash },
                .registerUser⟩)
            (names.forM fun name => do
              let _ ← execSql .transaction (seedCategory userId isIncome name)) := by
          intro names userId isIncome
          refine Svc.within_forM names fun name => Svc.within_bind (Svc.within_exec ?_) fun _ =>
            Svc.within_pure _
          intro ctx write member
          obtain rfl := List.mem_singleton.mp member
          exact Or.inl (by simp)
        refine Svc.within_bind (Svc.within_exec fun ctx write member => ?_) fun userId =>
          Svc.within_bind seeds fun _ => Svc.within_bind seeds fun _ =>
            Svc.within_bind (Svc.within_exec fun ctx write member => ?_) fun _ => Svc.within_pure _
        · exact Or.inr ⟨_, List.mem_singleton.mp member⟩
        · obtain rfl := List.mem_singleton.mp member
          exact Or.inl (by simp)
      refine safe_transaction inside (abandons_rethrow (abandons_rollingBack _) rethrows_if) ?_
        (fun _ _ scope' _ _ _ _ => ⟨scope'.calls, rfl⟩) fun _ made _ _ _ => ⟨_, rfl⟩
      intro opening userId calls' log history stop same whole _ _ linked _ write member
      obtain ⟨made, isCalls, -⟩ := inside.calls whole
      have ran := returns_rollingBack.mp ((returns_rethrow rethrows_if).mp whole)
      rcases Prog.Within.yields within ran (fun log live write old => by
        obtain rfl := Phase.live.inj live
        exact absurd old List.not_mem_nil) log rfl write member with elsewhere | ⟨id, rfl⟩
      · refine sourced_other setup jobs _ _ fun account => ?_
        simp only [List.mem_cons, List.not_mem_nil, or_false] at elsewhere account
        rcases elsewhere with isTable | isTable <;> simp [isTable] at account
      · have hashed : ⟨.hashPassword password, .ok passwordHash⟩ ∈ calls' :=
          (show calls' = _ from isCalls) ▸ List.mem_append_right _ List.mem_cons_self
        exact UserSource.registered ((congrArg jobs same).trans who) hashed rfl

/-- What the lookup of a user returns, it has found under the email. -/
theorem found_of_selectUser {email storedHash : String} {userId start : ℕ}
    {rest : List (ℕ × String)} {entry : Entry store outside} {ctx : Ctx store}
    (ran : Entry.RanFirst (schema setup.lower) start (selectUser setup email) entry ctx)
    (found : (selectUser setup email ctx).result = (userId, storedHash) :: rest) :
    ∃ user : UserRow, (entry.snap.db .users).get userId = some user ∧
      setup.lower user.email = setup.lower email ∧ user.passwordHash = storedHash := by
  obtain ⟨id, user, stored, kept, same⟩ := ran.mem_select (Log.clean_nil _)
    (found ▸ List.mem_cons_self)
  obtain ⟨rfl, rfl⟩ := Prod.mk.inj same
  exact ⟨user, stored, by simpa using kept, rfl⟩

/-- A session is opened with a random token, on a password that was found right. -/
theorem sourced_login {email password : String} :
    Promises (credentials setup jobs (.login email password)) (login setup email password) := by
  intro tid calls world who
  refine Svc.wp_bind (safe_read (fun _ => rfl) ?_ fun _ _ _ => ⟨calls, rfl⟩)
  intro start entry ctx read ran _ during
  cases found : (selectUser setup email ctx).result with
  | nil => exact Svc.wp_pure ⟨calls, rfl⟩
  | cons first rest =>
      obtain ⟨userId, storedHash⟩ := first
      obtain ⟨user, stored, address, rfl⟩ := found_of_selectUser ran found
      refine Svc.wp_bind (Svc.wp_call (fun _ _ => trivial) fun asked verified past => ?_)
      cases verified with
      | false => exact Svc.wp_pure ⟨_, rfl⟩
      | true =>
          refine Svc.wp_bind (Svc.wp_call (fun _ _ => trivial) fun drawn rawToken later => ?_)
          refine Svc.wp_bind (Svc.wp_exec (fun _ _ _ => ⟨_, rfl⟩) ?_ fun _ _ _ _ _ _ _ _ _ =>
            Svc.wp_pure ⟨_, rfl⟩)
          intro opening last ctx' same insert suffix linked _ write made
          obtain ⟨writes, -, -⟩ := insert.insert
          have member : write ∈ last.writes := made
          rw [writes, List.mem_singleton] at member
          subst member
          have between : entry.snap <:+ last.cur := (during.suffix.trans past.suffix).trans
            (later.suffix.trans (suffix.trans (linked.spanned last List.mem_cons_self)))
          exact SessionSource.opened ((congrArg jobs same).trans who) between stored address
            (List.mem_cons_of_mem _ List.mem_cons_self) List.mem_cons_self rfl

/-- A reset token is drawn for the user who was found under the email. -/
theorem sourced_requestPasswordReset {email : String} :
    Promises (credentials setup jobs (.requestPasswordReset email))
      (requestPasswordReset setup email) := by
  intro tid calls world who
  refine Svc.wp_bind (safe_read (fun _ => rfl) ?_ fun _ _ _ => ⟨calls, rfl⟩)
  intro start entry ctx read ran _ during
  cases found : (selectUser setup email ctx).result with
  | nil => exact Svc.wp_call (fun _ _ => trivial) fun _ _ _ => ⟨_, rfl⟩
  | cons first rest =>
      obtain ⟨userId, storedHash⟩ := first
      obtain ⟨user, stored, address, -⟩ := found_of_selectUser ran found
      refine Svc.wp_bind (Svc.wp_call (fun _ _ => trivial) fun drawn rawToken later => ?_)
      refine Svc.wp_bind (Svc.wp_exec (fun _ _ _ => ⟨_, rfl⟩) ?_ fun _ _ _ _ _ _ _ _ _ =>
        Svc.wp_pure ⟨_, rfl⟩)
      intro opening last ctx' same insert suffix linked _ write made
      obtain ⟨writes, -, -⟩ := insert.insert
      have member : write ∈ last.writes := made
      rw [writes, List.mem_singleton] at member
      subst member
      have between : entry.snap <:+ last.cur := (during.suffix.trans later.suffix).trans
        (suffix.trans (linked.spanned last List.mem_cons_self))
      exact TokenSource.reset ((congrArg jobs same).trans who) ⟨entry.snap, user, between, stored, address⟩
        rfl List.mem_cons_self rfl

/-- A verification token is drawn for the user who asks. -/
theorem sourced_requestEmailVerification {userId : ℕ} :
    Promises (credentials setup jobs (.requestEmailVerification userId))
      (requestEmailVerification setup userId) := by
  intro tid calls world who
  refine Svc.wp_bind (Svc.wp_call (fun _ _ => trivial) fun drawn rawToken later => ?_)
  refine Svc.wp_bind (Svc.wp_exec (fun _ _ _ => ⟨_, rfl⟩) ?_ fun _ _ _ _ _ _ _ _ _ =>
    Svc.wp_pure ⟨_, rfl⟩)
  intro opening last ctx' same insert suffix linked _ write made
  obtain ⟨writes, -, -⟩ := insert.insert
  have member : write ∈ last.writes := made
  rw [writes, List.mem_singleton] at member
  subst member
  exact TokenSource.verify ((congrArg jobs same).trans who) rfl List.mem_cons_self rfl

/-- What the lookup of a token returns is the user it was presented for. -/
theorem presented_of_selectToken {rawToken : String} {purpose : Purpose} {userId start : ℕ}
    {rest : List ℕ} {entry : Entry store outside} {ctx : Ctx store} {h : History store outside}
    (ran : Entry.RanFirst (schema setup.lower) start
      (selectToken (setup.sha256Hex rawToken) purpose) entry ctx)
    (found : (selectToken (setup.sha256Hex rawToken) purpose ctx).result = userId :: rest)
    (past : entry.snap <:+ h) : Presented setup h rawToken purpose userId := by
  have member : userId ∈ (selectToken (setup.sha256Hex rawToken) purpose ctx).result :=
    found ▸ List.mem_cons_self
  obtain ⟨⟨id, row⟩, kept, rfl⟩ := List.mem_map.mp member
  obtain ⟨stored, selected⟩ := List.mem_filter.mp kept
  simp only [Bool.and_eq_true, beq_iff_eq] at selected
  have isSnap : ctx.snap = entry.snap.db := ran.snap
  exact ⟨entry.snap, id, row, past, isSnap ▸ Rows.mem_list.mp stored, selected.1.1, selected.1.2,
    rfl⟩

/-- A DELETE from a table that no other references stores nothing. -/
theorem removed_of_delete {table : Table} {label : Label} {keep : Db store → ℕ → table.Row → Bool}
    {ctx : Ctx store} (alone : ∀ id, onDelete ctx.cur label table id = []) {write : Write store}
    (member : write ∈ (Stmt.delete (schema setup.lower) label table keep ctx).writes) :
    write.row = none := by
  obtain ⟨⟨id, row⟩, -, made⟩ := List.mem_flatMap.mp member
  have cascade : (schema setup.lower).onDelete ctx.cur table id label = [] := alone id
  simp only [cascade, List.mem_singleton] at made
  rw [made]

/-- What removes a row stores no credential. -/
theorem sourced_of_removed {h : History store outside} {c : Commit store outside}
    {write : Write store} (removed : write.row = none) : Sourced setup jobs h c write := by
  obtain ⟨table, id, row, label⟩ := write
  obtain rfl : row = none := removed
  exact sourced_removed setup jobs h c id

/-- The statements of a password change store the new hash for the user, and nothing else. -/
theorem within_changePassword (userId : ℕ) (newHash tokenHash : String) :
    Svc.Within (writing fun write => write.row = none ∨ ∃ row : UserRow,
        write = ⟨.users, userId, some row, .resetPassword⟩ ∧ row.passwordHash = newHash)
      (do
        let _ ← execSql .transaction (updatePassword userId newHash)
        let _ ← execSql .transaction (deleteSessionsOf setup userId)
        let _ ← execSql .transaction (deleteToken setup tokenHash)
        pure true : Task Bool) := by
  refine Svc.within_bind (Svc.within_exec fun ctx write member => ?_) fun _ =>
    Svc.within_bind (Svc.within_exec fun ctx write member => ?_) fun _ =>
      Svc.within_bind (Svc.within_exec fun ctx write member => ?_) fun _ => Svc.within_pure _
  · obtain ⟨⟨id, row⟩, target, rfl⟩ := List.mem_map.mp member
    obtain rfl : id = userId := by simpa using (Ctx.mem_targets.mp target).2.2
    exact Or.inr ⟨_, rfl, rfl⟩
  · exact Or.inl (removed_of_delete (fun _ => rfl) member)
  · exact Or.inl (removed_of_delete (fun _ => rfl) member)

/-- A password is changed for the user of the token, to the hash of the new one. -/
theorem sourced_confirmPasswordReset {rawToken newPassword : String} :
    Promises (credentials setup jobs (.confirmPasswordReset rawToken newPassword))
      (confirmPasswordReset setup rawToken newPassword) := by
  intro tid calls world who
  refine Svc.wp_bind (safe_read (fun _ => rfl) ?_ fun _ _ _ => ⟨calls, rfl⟩)
  intro start entry ctx read ran _ during
  cases found : (selectToken (setup.sha256Hex rawToken) .reset ctx).result with
  | nil => exact Svc.wp_pure ⟨calls, rfl⟩
  | cons userId rest =>
      refine Svc.wp_bind (Svc.wp_call (fun _ _ => trivial) fun asked reply past => ?_)
      cases reply with
      | error raised => exact ⟨_, rfl⟩
      | ok newHash =>
          have inside : Svc.Inside (provenance setup jobs) (do
              let _ ← execSql .transaction (updatePassword userId newHash)
              let _ ← execSql .transaction (deleteSessionsOf setup userId)
              let _ ← execSql .transaction (deleteToken setup (setup.sha256Hex rawToken))
              pure true : Task Bool) :=
            Svc.inside_bind (inside_execSql _) fun _ => Svc.inside_bind (inside_execSql _)
              fun _ => Svc.inside_bind (inside_execSql _) fun _ => Svc.inside_pure _
          refine safe_transaction inside ?_ ?_
            (fun _ _ scope' _ _ _ _ => ⟨scope'.calls, rfl⟩) fun _ made _ _ _ => ⟨_, rfl⟩
          · exact abandons_bind (abandons_execSql _) fun _ => abandons_bind (abandons_execSql _)
              fun _ => abandons_bind (abandons_execSql _) fun _ => abandons_pure _
          · intro opening done calls' log h stop same whole began _ linked _ write member
            obtain ⟨made, isCalls, -⟩ := inside.calls whole
            rcases Prog.Within.yields (within_changePassword _ _ _) whole (fun log live write old => by
              obtain rfl := Phase.live.inj live
              exact absurd old List.not_mem_nil) log rfl write member with
              removed | ⟨row, rfl, isHash⟩
            · exact sourced_of_removed removed
            · have hashed : ⟨.hashPassword newPassword, .ok row.passwordHash⟩ ∈ calls' := by
                rw [isHash]
                exact (show calls' = _ from isCalls) ▸ List.mem_append_right _ List.mem_cons_self
              exact UserSource.reset ((congrArg jobs same).trans who)
                (presented_of_selectToken ran found
                  (during.suffix.trans (past.suffix.trans began))) hashed

/-- An email is verified for the user of the token. -/
theorem sourced_confirmEmailVerification {rawToken : String} :
    Promises (credentials setup jobs (.confirmEmailVerification rawToken))
      (confirmEmailVerification setup rawToken) := by
  intro tid calls world who
  refine Svc.wp_bind (safe_read (fun _ => rfl) ?_ fun _ _ _ => ⟨calls, rfl⟩)
  intro start entry ctx read ran _ during
  cases found : (selectToken (setup.sha256Hex rawToken) .verify ctx).result with
  | nil => exact Svc.wp_pure ⟨calls, rfl⟩
  | cons userId rest =>
      have drops : Promises (credentials setup jobs (.confirmEmailVerification rawToken))
          (execSql .db (deleteToken setup (setup.sha256Hex rawToken)) >>= fun _ => pure true) := by
        refine promises_bind (promises_exec fun opening last ctx' calls stop _ use _ _ write made => ?_)
          fun _ => promises_pure _
        exact sourced_of_removed (removed_of_delete (fun _ => rfl)
          (use.writes ▸ show write ∈ last.writes from made))
      refine Svc.wp_bind (Svc.wp_exec (fun _ _ _ => ⟨calls, rfl⟩) ?_
        fun _ _ _ later _ _ _ _ _ => drops tid calls later who)
      intro opening last ctx' same update suffix linked _ write member
      obtain ⟨id, before, rfl, stored, kept, -⟩ := update.mem_update (Log.clean_nil _)
        (show write ∈ last.writes from member)
      obtain rfl : id = userId := by simpa using kept
      exact UserSource.verified ((congrArg jobs same).trans who)
        (presented_of_selectToken ran found (during.suffix.trans
          (suffix.trans (linked.spanned last List.mem_cons_self))))

/-- An end of sessions stores nothing. -/
theorem sourced_logout {rawToken : String} :
    Promises (credentials setup jobs (.logout rawToken)) (logout setup rawToken) := by
  refine promises_bind (promises_exec fun opening last ctx' calls stop _ drop _ _ write made => ?_)
    fun _ => promises_pure _
  exact sourced_of_removed (removed_of_delete (fun _ => rfl)
    (drop.writes ▸ show write ∈ last.writes from made))

end AuthService

/-- Every job says where the credentials come from that it stores. -/
theorem keeps_provenance (setup : Setup) (jobs : ℕ → Option Job) :
    Keeps (application setup) (provenance setup jobs) (Terms.free jobs) := by
  refine Keeps.of_free fun job tid world assigned => ?_
  have other : (∀ label ∈ job.labels, label ∈ accountLabels → label = .touchSession) →
      (Job.prog setup job).wp (provenance setup jobs) (schema setup.lower) (fun _ _ _ => True)
        { tid := tid } world := by
    intro others
    refine Prog.wp_of_within (within_prog setup job) (fun h c _ writes _ write made => ?_)
      (fun _ _ _ _ => trivial) (fun _ _ _ _ => trivial) (Local.Stays.fresh _ tid)
    obtain ⟨listed, at_⟩ := writes write made
    by_cases account : write.label ∈ accountLabels
    · have touches := others _ listed account
      obtain ⟨table, id, row, label⟩ := write
      obtain rfl : label = .touchSession := touches
      obtain rfl : table = .sessions := List.mem_singleton.mp at_
      cases row with
      | none => exact sourced_removed setup jobs h c id
      | some row => exact SessionSource.touched
    · exact sourced_other setup jobs h c (spares_accounts _ account _ at_)
  cases job with
  | registerUser email password => exact wp_job assigned AuthService.sourced_registerUser
  | login email password => exact wp_job assigned AuthService.sourced_login
  | logout rawToken => exact wp_job assigned AuthService.sourced_logout
  | requestPasswordReset email => exact wp_job assigned AuthService.sourced_requestPasswordReset
  | confirmPasswordReset rawToken newPassword =>
      exact wp_job assigned AuthService.sourced_confirmPasswordReset
  | requestEmailVerification userId =>
      exact wp_job assigned AuthService.sourced_requestEmailVerification
  | confirmEmailVerification rawToken =>
      exact wp_job assigned AuthService.sourced_confirmEmailVerification
  | _ => exact other (by simp [Job.labels, accountLabels])

end Tasks

end ReceiptScanner

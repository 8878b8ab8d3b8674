import ReceiptScanner.Runs.Edits

/-!
# What every commit says of the accounts

The promise of the ledger leaves users, sessions and auth tokens open. `access` is the
guarantee about these three tables: who opened a session on which hash, who moved its
expiry and how far it had run, what a password change found to remove, and whose token a
confirmation drops. `Heard` is what a confirmation that was told yes has found.
-/

namespace ReceiptScanner

open ReadCommitted

/-- The life of a session in microseconds. -/
def sessionLifetime : ℕ := AuthService.kSessionLifetimeSeconds * 1000000

/-- How much of its life a session has left when it is due for an extension. -/
def refreshThreshold (setup : Setup) : ℤ :=
  seconds (AuthService.kSessionLifetimeSeconds - setup.sessionTouchIntervalSeconds)

/-- The auth token that a job presents, and what for. -/
def Job.presents : Job → Option (String × Purpose)
  | .confirmPasswordReset rawToken _ => some (rawToken, .reset)
  | .confirmEmailVerification rawToken => some (rawToken, .verify)
  | _ => none

section Wrote

variable (setup : Setup) (jobs : ℕ → Option Job) (h : History store outside)
  (c : Commit store outside) (id : ℕ)

/-- The password that the commit's process presented was found right against this hash. -/
def VerifiedAgainst (hash : String) : Prop :=
  ∃ password, (⟨.verifyPassword password hash, true⟩ : Said outside) ∈ c.calls

/-- What a commit that writes a `sessions` row says of it. -/
inductive SessionWrote : Option SessionRow → Label → Prop where
  | opened {userId : ℕ} {rawToken hash : String} {seen : History store outside} {user : UserRow}
      (verified : VerifiedAgainst c hash) (suffix : seen <:+ h)
      (stored : (seen.db .users).get userId = some user) (same : user.passwordHash = hash)
      (fresh : Unused h .sessions id) (alone : ∀ write ∈ c.writes, write.id = id)
      (apart : ∀ other, ∀ row : SessionRow, (h.db .sessions).get other = some row →
        row.tokenHash ≠ setup.sha256Hex rawToken) :
      SessionWrote (some ⟨userId, setup.sha256Hex rawToken, c.start + sessionLifetime⟩) .login
  | touched {before : SessionRow} {rawToken : String}
      (asked : jobs c.tid = some (.validateSession rawToken))
      (token : before.tokenHash = setup.sha256Hex rawToken)
      (stored : (h.db .sessions).get id = some before)
      (due : (before.expiresAt : ℤ) < c.start + refreshThreshold setup) :
      SessionWrote (some { before with expiresAt := c.start + sessionLifetime }) .touchSession
  | ended {before : SessionRow} {label : Label}
      (stored : (h.db .sessions).get id = some before) : SessionWrote none label

/-- The DELETE of a password change removes every session of the user that it found in its
snapshot and found again. -/
def DropsSessions (userId : ℕ) : Prop :=
  ∃ seen cur : History store outside, seen <:+ cur ∧ cur <:+ h ∧
    c.spans[1]? = some (seen.length, cur.length) ∧
    ∀ other, ∀ before now : SessionRow, (seen.db .sessions).get other = some before →
      before.userId = userId → (cur.db .sessions).get other = some now → now.userId = userId →
      ⟨.sessions, other, none, .dropSessions⟩ ∈ c.writes

/-- What a commit that writes a `users` row says of it. -/
inductive UserWrote : Option UserRow → Label → Prop where
  | registered {row : UserRow} (fresh : Unused h .users id) : UserWrote (some row) .registerUser
  | reset {before : UserRow} {hash : String} (stored : (h.db .users).get id = some before)
      (drops : DropsSessions h c id) :
      UserWrote (some { before with passwordHash := hash }) .resetPassword
  | verified {before : UserRow} {at_ : Option ℕ} (stored : (h.db .users).get id = some before) :
      UserWrote (some { before with emailVerifiedAt := at_ }) .verifyEmail

/-- What a commit that writes an `auth_tokens` row says of it. -/
inductive TokenWrote : Option AuthTokenRow → Label → Prop where
  | issued {row : AuthTokenRow} {label : Label} (fresh : Unused h .authTokens id) :
      TokenWrote (some row) label
  | dropped {before : AuthTokenRow} {job : Job} {rawToken : String} {purpose : Purpose}
      (isJob : jobs c.tid = some job) (presents : job.presents = some (rawToken, purpose))
      (token : before.tokenHash = setup.sha256Hex rawToken)
      (stored : (h.db .authTokens).get id = some before) : TokenWrote none .dropToken

/-- What a commit says of one of its writes, if that is about an account. -/
def AccessWrote : Write store → Prop
  | ⟨.sessions, id, row, label⟩ => SessionWrote setup jobs h c id row label
  | ⟨.users, id, row, label⟩ => UserWrote h c id row label
  | ⟨.authTokens, id, row, label⟩ => TokenWrote setup jobs h c id row label
  | _ => True

theorem accessWrote_other {write : Write store}
    (other : write.table ∉ [Table.users, .sessions, .authTokens]) :
    AccessWrote setup jobs h c write := by
  obtain ⟨table, id, row, label⟩ := write
  cases table <;> first | trivial | exact absurd (by simp) other

/-- The token was found, for this purpose. -/
def FoundToken (rawToken : String) (purpose : Purpose) : Prop :=
  ∃ (seen : History store outside) (id : ℕ) (row : AuthTokenRow), seen <:+ h ∧
    (seen.db .authTokens).get id = some row ∧ row.tokenHash = setup.sha256Hex rawToken ∧
    row.purpose = purpose

/-- A confirmation that was told yes has found its token. -/
def Heard (job : Job) (answer : Answer) : Prop :=
  answer = .told true → ∀ rawToken purpose, job.presents = some (rawToken, purpose) →
    FoundToken setup h rawToken purpose

end Wrote

/-- Every commit says what it does to the accounts. -/
def access (setup : Setup) (jobs : ℕ → Option Job) : Guarantee store outside where
  commits h c := ∀ write ∈ c.writes, AccessWrote setup jobs h c write
  calls _ _ _ _ := True

/-- The terms of the jobs with regard to the accounts. -/
def accessTerms (setup : Setup) (jobs : ℕ → Option Job) : Terms store outside Job where
  jobs := jobs
  ready _ _ := True
  done job answer _ _ h := Heard setup h job answer

section Tasks

variable {setup : Setup} {jobs : ℕ → Option Job} {job : Job}

/-- The accounts, for the processes of a job. -/
abbrev accounts (setup : Setup) (jobs : ℕ → Option Job) (job : Job) : Regime :=
  ⟨setup, access setup jobs, fun tid => jobs tid = some job⟩

theorem free_access (c : Call) : (access setup jobs).Free c := fun _ _ _ => trivial

namespace AuthService

/-- Registration stores a user under a new id. -/
theorem access_registerUser (email password : String) :
    Promises (accounts setup jobs job) (registerUser email password) := by
  refine promises_bind (promises_call (free_access _)) fun passwordHash =>
    promises_transaction (inside_rethrow (Svc.inside_rollingBack ?_) rethrows_if)
      (abandons_rethrow (abandons_rollingBack _) rethrows_if) ?_
  · exact Svc.inside_bind (inside_execSql _) fun _ =>
      Svc.inside_bind (Svc.inside_forM _ fun _ => Svc.inside_bind (inside_execSql _) fun _ =>
        Svc.inside_pure _) fun _ =>
      Svc.inside_bind (Svc.inside_forM _ fun _ => Svc.inside_bind (inside_execSql _) fun _ =>
        Svc.inside_pure _) fun _ =>
      Svc.inside_bind (inside_execSql _) fun _ => Svc.inside_pure _
  · intro opening userId calls calls' log history stop _ ran linked _
    have ran := returns_rollingBack.mp ((returns_rethrow rethrows_if).mp ran)
    obtain ⟨user, ctx, insert, rest⟩ := returns_exec_bind.mp ran
    obtain ⟨_, first, expenses, rest⟩ := returns_bind.mp rest
    obtain ⟨_, second, incomes, rest⟩ := returns_bind.mp rest
    have spending : Adds setup opening (fun _ _ => True) [.categories, .paymentMethods]
        ⟨calls, .live [user]⟩ first := (adds_seedCategories ⟨_, rfl⟩ expenses).widen (by simp)
    have earning : Adds setup opening (fun _ _ => True) [.categories, .paymentMethods]
        first second := (adds_seedCategories (spending.live ⟨_, rfl⟩) incomes).widen (by simp)
    obtain ⟨between, live⟩ := earning.live (spending.live ⟨_, rfl⟩)
    obtain ⟨calls'', phase⟩ := second
    obtain rfl : phase = .live between := live
    obtain ⟨method, ctx', seed, rest⟩ := returns_exec_bind.mp rest
    obtain ⟨rfl, same⟩ := returns_pure.mp rest
    obtain ⟨rfl, rfl⟩ := same
    have paying : Adds setup opening (fun _ _ => True) [.categories, .paymentMethods]
        ⟨calls', .live between⟩ ⟨calls', .live (method :: between)⟩ :=
      (adds_seed (fun _ _ _ _ => PaymentMethodWrote.created) seed).widen (by simp)
    obtain ⟨extra, isLog, elsewhere⟩ := (spending.trans (earning.trans paying)).added
    obtain ⟨made, unused, locked, -⟩ := insert.insert
    intro write member
    have member : write ∈ Log.writes (method :: between) := member
    rw [isLog, Log.writes_append] at member
    rcases List.mem_append.mp member with stored | seeded
    · rw [Log.writes_cons, Log.writes_nil, List.nil_append, made, List.mem_singleton] at stored
      subst stored
      have inside : [user] <:+ method :: between := isLog ▸ List.suffix_append _ _
      exact UserWrote.registered
        (Pledged.unused List.mem_cons_self locked unused _ _ calls' stop inside linked)
    · refine accessWrote_other setup jobs _ _ fun account => ?_
      have kept := elsewhere write seeded
      simp only [List.mem_cons, List.not_mem_nil, or_false] at kept account
      rcases kept with same | same <;> simp [same] at account

/-- A session is opened on the hash that the password was verified against. -/
theorem access_login (email password : String) :
    Promises (accounts setup jobs job) (login setup email password) := by
  intro tid calls world who
  refine Svc.wp_bind (safe_read (fun _ => rfl) ?_ fun _ _ _ => ⟨calls, rfl⟩)
  intro start entry ctx read ran _ during
  cases found : (selectUser setup email ctx).result with
  | nil => exact Svc.wp_pure ⟨calls, rfl⟩
  | cons user rest =>
      obtain ⟨userId, storedHash⟩ := user
      obtain ⟨id, row, stored, -, same⟩ := ran.mem_select (Log.clean_nil _)
        (found ▸ List.mem_cons_self)
      obtain ⟨rfl, rfl⟩ := Prod.mk.inj same
      refine Svc.wp_bind (Svc.wp_call (fun _ _ => trivial) fun asked verified past => ?_)
      cases verified with
      | false => exact Svc.wp_pure ⟨_, rfl⟩
      | true =>
          refine Svc.wp_bind (Svc.wp_call (fun _ _ => trivial) fun drawn rawToken later => ?_)
          refine Svc.wp_bind (Svc.wp_exec (fun _ _ _ => ⟨_, rfl⟩) ?_ fun _ _ _ _ _ _ _ _ _ =>
            Svc.wp_pure ⟨_, rfl⟩)
          intro opening last ctx' _ insert suffix linked _ write made
          obtain ⟨writes, unused, -⟩ := insert.insert
          have member : write ∈ last.writes := made
          rw [writes, List.mem_singleton] at member
          subst member
          have between : entry.snap <:+ last.cur := (during.suffix.trans past.suffix).trans
            (later.suffix.trans (suffix.trans (linked.spanned last List.mem_cons_self)))
          refine SessionWrote.opened ⟨password, by simp [idle, Opening.commit, Local.called]⟩
            between stored rfl unused (fun write made => ?_) fun other row' stored' sameHash => ?_
          · have member : write ∈ last.writes := by simpa [Opening.commit] using made
            rw [writes, List.mem_singleton] at member
            rw [member]
          have here : (ctx'.cur .sessions).get other = some row' := by
            rw [insert.cur_table (Log.clean_nil _)]
            exact stored'
          have apart := insert.insert_unique here
          simp [schema, clash, sameHash] at apart

/-- Only the call of a session's own token moves its expiry, and only when it is due. -/
theorem access_validateSession (rawToken : String) :
    Promises (accounts setup jobs (.validateSession rawToken)) (validateSession setup rawToken) := by
  refine promises_bind (promises_read fun _ => rfl) fun result => ?_
  cases result with
  | nil => exact promises_pure _
  | cons userId rest =>
      refine promises_bind (promises_exec fun opening entry ctx calls stop who ran _ _ => ?_)
        fun _ => promises_pure _
      intro write member
      have made : write ∈ entry.writes := member
      rw [ran.writes] at made
      obtain ⟨⟨id, before⟩, found, rfl⟩ := List.mem_map.mp made
      obtain ⟨-, stored, kept⟩ := Ctx.mem_targets.mp found
      rw [ran.cur_table (Log.clean_nil _)] at stored
      simp only [ran.now, Bool.and_eq_true, beq_iff_eq, decide_eq_true_eq] at kept
      simp only [ran.now]
      exact SessionWrote.touched who kept.1 stored kept.2

/-- A DELETE of sessions ends them. -/
theorem access_endSessions {label : Label} {keep : Db store → ℕ → SessionRow → Bool} :
    Promises (accounts setup jobs job)
      (execSql .db (.delete (schema setup.lower) label .sessions keep)) := by
  refine promises_exec fun opening entry ctx calls stop who ran _ _ write member => ?_
  obtain ⟨id, before, stored, -, -, -, rfl | action⟩ :=
    ran.mem_delete (Log.clean_nil _) (show write ∈ entry.writes from member)
  · exact SessionWrote.ended stored
  · exact absurd action List.not_mem_nil

theorem access_logout (rawToken : String) :
    Promises (accounts setup jobs job) (logout setup rawToken) :=
  promises_bind access_endSessions fun _ => promises_pure _

/-- A token is stored under a new id. -/
theorem access_insertToken (label : Label) (userId : ℕ) (tokenHash : String) (purpose : Purpose)
    (lifetimeSeconds : ℕ) :
    Promises (accounts setup jobs job)
      (execSql .db (insertToken label userId tokenHash purpose lifetimeSeconds)) := by
  refine promises_exec fun opening entry ctx calls stop who ran _ _ write member => ?_
  obtain ⟨writes, unused, -⟩ := ran.insert
  have made : write ∈ entry.writes := member
  rw [writes, List.mem_singleton] at made
  subst made
  exact TokenWrote.issued unused

theorem access_requestPasswordReset (email : String) :
    Promises (accounts setup jobs job) (requestPasswordReset setup email) := by
  refine promises_bind (promises_read fun _ => rfl) fun result => ?_
  cases result with
  | nil => exact promises_call (free_access _)
  | cons user rest =>
      exact promises_bind (promises_call (free_access _)) fun _ =>
        promises_bind (access_insertToken _ _ _ _ _) fun _ => promises_pure _

theorem access_requestEmailVerification (userId : ℕ) :
    Promises (accounts setup jobs job) (requestEmailVerification setup userId) :=
  promises_bind (promises_call (free_access _)) fun _ =>
    promises_bind (access_insertToken _ _ _ _ _) fun _ => promises_pure _

/-- What the lookup of a token returns, it has found for its purpose. -/
theorem found_of_selectToken {rawToken : String} {purpose : Purpose} {userId : ℕ} {rest : List ℕ}
    {start : ℕ} {entry : Entry store outside} {ctx : Ctx store}
    (ran : Entry.RanFirst (schema setup.lower) start
      (selectToken (setup.sha256Hex rawToken) purpose) entry ctx)
    (found : (selectToken (setup.sha256Hex rawToken) purpose ctx).result = userId :: rest)
    {h : History store outside} (past : entry.snap <:+ h) : FoundToken setup h rawToken purpose := by
  have member : userId ∈ (selectToken (setup.sha256Hex rawToken) purpose ctx).result :=
    found ▸ List.mem_cons_self
  obtain ⟨⟨id, row⟩, kept, -⟩ := List.mem_map.mp member
  obtain ⟨stored, selected⟩ := List.mem_filter.mp kept
  simp only [Bool.and_eq_true, beq_iff_eq] at selected
  have isSnap : ctx.snap = entry.snap.db := ran.snap
  exact ⟨entry.snap, id, row, past, isSnap ▸ Rows.mem_list.mp stored, selected.1.1, selected.1.2⟩

/-- A confirmation that answers yes has found its token. -/
def Confirms (setup : Setup) (rawToken : String) (purpose : Purpose) (tid : ℕ) :
    Post store outside Bool := fun yes own later =>
  (∃ calls, own = idle tid calls) ∧ (yes = true → FoundToken setup later.history rawToken purpose)

/-- The rows that a DELETE on an open transaction removes are as they were when they were
locked. -/
theorem pledged_removed {opening : Opening} {log final : Log store outside}
    {entry : Entry store outside} {ctx : Ctx store} {table : Table} {label : Label}
    {keep : Db store → ℕ → table.Row → Bool} {h : History store outside}
    (ran : Entry.Ran (schema setup.lower) opening.start log.writes
      (.delete (schema setup.lower) label table keep) entry ctx) (clean : Log.Clean log table)
    (alone : ∀ db id, onDelete db label table id = []) (inside : entry :: log <:+ final)
    (linked : ReadCommitted.Linked opening h final) {write : Write store}
    (made : write ∈ entry.writes) :
    ∃ id before, write = ⟨table, id, none, label⟩ ∧ (h.db table).get id = some before ∧
      keep ctx.snap id before = true := by
  obtain ⟨id, before, stored, kept, -, locked, rfl | action⟩ := ran.mem_delete clean made
  · refine ⟨id, before, rfl, ?_, kept⟩
    have pledged : Pledged opening final _ :=
      Pledged.get (inside.subset List.mem_cons_self) (by decide) locked
    rw [pledged final h [] 0 List.suffix_rfl linked, stored]
  · have none : (schema setup.lower).onDelete ctx.cur table id label = [] := alone ctx.cur id
    simp [none] at action

/-- A password change writes users, then sessions. -/
theorem clean_of_reset {start userId : ℕ} {newHash : String} {user sessions : Entry store outside}
    {atUser atSessions : Ctx store}
    (update : Entry.Ran (schema setup.lower) start (Log.writes ([] : Log store outside))
      (updatePassword userId newHash) user atUser)
    (drop : Entry.Ran (schema setup.lower) start (Log.writes [user])
      (deleteSessionsOf setup userId) sessions atSessions) :
    Log.Clean [user] .sessions ∧ Log.Clean [sessions, user] .authTokens := by
  have ofUser : ∀ write ∈ user.writes, write.table = .users := by
    intro write made
    obtain ⟨id, before, rfl, -⟩ := update.mem_update (Log.clean_nil _) made
    rfl
  have cleanSessions : Log.Clean [user] .sessions := by
    intro write made
    simp [ofUser write (by simpa using made)]
  refine ⟨cleanSessions, Log.clean_cons.mpr ⟨fun write made => ?_, fun write made => ?_⟩⟩
  · simp [ofUser write (by simpa using made)]
  · obtain ⟨id, before, -, -, -, -, rfl | action⟩ := drop.mem_delete cleanSessions made
    · simp
    · exact absurd action List.not_mem_nil

/-- A password change says what it found to remove. -/
theorem access_confirmPasswordReset {rawToken newPassword : String} {tid : ℕ}
    {calls : List (Said outside)} {world : World store outside}
    (who : jobs tid = some (.confirmPasswordReset rawToken newPassword)) :
    Safe (accounts setup jobs (.confirmPasswordReset rawToken newPassword))
      (confirmPasswordReset setup rawToken newPassword) (Confirms setup rawToken .reset tid)
      (Idle tid) (idle tid calls) world := by
  refine Svc.wp_bind (safe_read (fun _ => rfl) ?_ fun _ _ _ => ⟨calls, rfl⟩)
  intro start entry ctx read ran _ during
  cases found : (selectToken (setup.sha256Hex rawToken) .reset ctx).result with
  | nil => exact Svc.wp_pure ⟨⟨calls, rfl⟩, fun yes => absurd yes (by decide)⟩
  | cons userId rest =>
      have holds : ∀ {h : History store outside}, read.history <:+ h →
          FoundToken setup h rawToken .reset := fun past =>
        found_of_selectToken ran found (during.suffix.trans past)
      refine Svc.wp_bind (Svc.wp_call (fun _ _ => trivial) fun asked newHash past => ?_)
      cases newHash with
      | error raised => exact ⟨_, rfl⟩
      | ok newHash =>
          refine safe_transaction ?_ ?_ ?_ ?_ fun _ _ _ _ _ => ⟨_, rfl⟩
          · exact Svc.inside_bind (inside_execSql _) fun _ => Svc.inside_bind (inside_execSql _)
              fun _ => Svc.inside_bind (inside_execSql _) fun _ => Svc.inside_pure _
          · exact abandons_bind (abandons_execSql _) fun _ => abandons_bind (abandons_execSql _)
              fun _ => abandons_bind (abandons_execSql _) fun _ => abandons_pure _
          · intro opening done calls' log h stop same ran _ _ linked _
            obtain ⟨user, atUser, update, rest⟩ := returns_exec_bind.mp ran
            obtain ⟨sessions, atSessions, drop, rest⟩ := returns_exec_bind.mp rest
            obtain ⟨token, atToken, use, rest⟩ := returns_exec_bind.mp rest
            obtain ⟨-, at_⟩ := returns_pure.mp rest
            obtain ⟨rfl, rfl⟩ := at_
            obtain ⟨cleanSessions, cleanTokens⟩ := clean_of_reset update drop
            intro write member
            have member : write ∈ Log.writes [token, sessions, user] := member
            simp only [Log.writes_cons, Log.writes_nil, List.nil_append, List.mem_append] at member
            rcases member with (isUser | isSession) | isToken
            · obtain ⟨id, before, rfl, stored, kept, locked⟩ :=
                update.mem_update (Log.clean_nil _) isUser
              obtain rfl : id = userId := by simpa using kept
              have stays : Pledged opening [token, sessions, user] _ := Pledged.get
                (List.mem_cons_of_mem _ (List.mem_cons_of_mem _ List.mem_cons_self)) (by decide)
                locked
              have isNow := stays _ h [] 0 List.suffix_rfl linked
              refine UserWrote.reset (isNow.trans stored) ⟨sessions.snap, sessions.cur,
                linked.spanned _ (by simp), linked.past _ (by simp), rfl, ?_⟩
              intro other before now inSnap mine inCur still
              refine Log.mem_writes.mpr ⟨sessions, by simp, ?_⟩
              rw [← drop.snap_table cleanSessions] at inSnap
              rw [← drop.cur_table cleanSessions] at inCur
              exact drop.delete_hit inSnap (by simpa using mine) inCur (by simpa using still)
            · obtain ⟨id, before, rfl, stored, -⟩ := pledged_removed drop cleanSessions
                (fun _ _ => rfl) (List.suffix_cons _ _) linked isSession
              exact SessionWrote.ended stored
            · obtain ⟨id, before, rfl, stored, kept⟩ := pledged_removed use cleanTokens
                (fun _ _ => rfl) List.suffix_rfl linked isToken
              exact TokenWrote.dropped ((congrArg jobs same).trans who) rfl (by simpa using kept)
                stored
          · intro opening yes scope' later same _ ended
            exact ⟨⟨_, rfl⟩, fun _ => holds (past.suffix.trans ended.suffix)⟩

/-- A verification says whose token it drops. -/
theorem access_confirmEmailVerification {rawToken : String} {tid : ℕ}
    {calls : List (Said outside)} {world : World store outside}
    (who : jobs tid = some (.confirmEmailVerification rawToken)) :
    Safe (accounts setup jobs (.confirmEmailVerification rawToken))
      (confirmEmailVerification setup rawToken) (Confirms setup rawToken .verify tid)
      (Idle tid) (idle tid calls) world := by
  refine Svc.wp_bind (safe_read (fun _ => rfl) ?_ fun _ _ _ => ⟨calls, rfl⟩)
  intro start entry ctx read ran _ during
  cases found : (selectToken (setup.sha256Hex rawToken) .verify ctx).result with
  | nil => exact Svc.wp_pure ⟨⟨calls, rfl⟩, fun yes => absurd yes (by decide)⟩
  | cons userId rest =>
      have marks : Promises (accounts setup jobs (.confirmEmailVerification rawToken))
          (execSql .db (verifyEmail userId)) := by
        refine promises_exec fun opening last ctx' calls stop _ update _ _ write member => ?_
        obtain ⟨id, before, rfl, stored, -⟩ := update.mem_update (Log.clean_nil _)
          (show write ∈ last.writes from member)
        exact UserWrote.verified stored
      have drops : Promises (accounts setup jobs (.confirmEmailVerification rawToken))
          (execSql .db (deleteToken setup (setup.sha256Hex rawToken))) := by
        refine promises_exec fun opening last ctx' calls stop mine use _ _ write member => ?_
        obtain ⟨id, before, stored, kept, -, -, rfl | action⟩ :=
          use.mem_delete (Log.clean_nil _) (show write ∈ last.writes from member)
        · exact TokenWrote.dropped mine rfl (by simpa using kept) stored
        · exact absurd action List.not_mem_nil
      refine safe_bind marks who (fun _ calls _ => ⟨calls, rfl⟩) fun _ _ middle first => ?_
      refine safe_bind drops who (fun _ calls _ => ⟨calls, rfl⟩) fun _ calls last second => ?_
      exact Svc.wp_pure ⟨⟨calls, rfl⟩, fun _ =>
        found_of_selectToken ran found (during.suffix.trans (first.trans second))⟩

end AuthService

/-- A job that presents no token. -/
theorem access_served {α : Type} {tell : α → Answer} {task : Task α} {tid : ℕ}
    {world : World store outside} (assigned : jobs tid = some job)
    (none : job.presents = none) (promises : Promises (accounts setup jobs job) task) :
    (Job.serve tell task).wp (access setup jobs) (schema setup.lower)
      (Proc.post (accessTerms setup jobs) job) { tid := tid } world := by
  have ends : ∀ answer own (later : World store outside),
      Proc.post (accessTerms setup jobs) job (answer, []) own later := fun answer _ _ =>
    ⟨fun other member => absurd member List.not_mem_nil, fun _ _ _ presents => by
      simp [none] at presents⟩
  refine @wp_serve _ (accounts setup jobs job) _ _ _ _ _ ?_
  exact Svc.wp_mono (promises tid [] world assigned) (fun _ own later _ => ends _ own later)
    fun _ own later _ => ends _ own later

/-- A confirmation. -/
theorem access_confirmed {rawToken : String} {purpose : Purpose} {task : Task Bool} {tid : ℕ}
    {world : World store outside} (presents : job.presents = some (rawToken, purpose))
    (safe : Safe (accounts setup jobs job) task (AuthService.Confirms setup rawToken purpose tid)
      (Idle tid) (idle tid []) world) :
    (Job.serve .told task).wp (access setup jobs) (schema setup.lower)
      (Proc.post (accessTerms setup jobs) job) { tid := tid } world := by
  refine @wp_serve _ (accounts setup jobs job) _ _ _ _ _ (Svc.wp_mono safe ?_ ?_)
  · rintro yes own later ⟨-, found⟩
    refine ⟨fun other member => absurd member List.not_mem_nil, fun isYes raw why same => ?_⟩
    obtain ⟨rfl, rfl⟩ := Prod.mk.inj (Option.some.inj (presents.symm.trans same))
    exact found (Answer.told.inj isYes)
  · rintro raised own later -
    exact ⟨fun other member => absurd member List.not_mem_nil, fun isYes => by cases isYes⟩

/-- The labels of the statements that write users, sessions and auth tokens. -/
def accountLabels : List Label :=
  [.registerUser, .login, .touchSession, .logout, .requestPasswordReset, .resetPassword,
    .dropSessions, .dropToken, .requestEmailVerification, .verifyEmail]

/-- No other statement writes them. -/
theorem spares_accounts (label : Label) (other : label ∉ accountLabels) :
    ∀ table ∈ label.tables, table ∉ [Table.users, .sessions, .authTokens] := by
  revert other
  cases label <;> decide

/-- A job that sends no statement about an account. -/
theorem access_other {tid : ℕ} {world : World store outside} (none : job.presents = none)
    (others : ∀ label ∈ job.labels, label ∉ accountLabels) :
    (Job.prog setup job).wp (access setup jobs) (schema setup.lower)
      (Proc.post (accessTerms setup jobs) job) { tid := tid } world := by
  refine Prog.wp_of_within (within_prog setup job) (fun h c _ writes _ write made => ?_)
    (fun _ _ _ _ => trivial) (fun ending own later _ => ?_) (Local.Stays.fresh _ tid)
  · exact accessWrote_other setup jobs h c
      (spares_accounts _ (others _ (writes write made).1) _ (writes write made).2)
  · exact ⟨fun _ _ => trivial, fun _ _ _ presents => by simp [none] at presents⟩

/-- Every job of the application says what it does to the accounts. -/
theorem keeps_access (setup : Setup) (jobs : ℕ → Option Job) :
    Keeps (application setup) (access setup jobs) (accessTerms setup jobs) where
  root _ _ _ := trivial
  mono _ _ _ _ _ := trivial
  lasting job answer tid calls h later foreign heard := by
    intro yes rawToken purpose presents
    obtain ⟨seen, id, row, past, rest⟩ := heard yes rawToken purpose presents
    exact ⟨seen, id, row, past.trans foreign.suffix, rest⟩
  safe job tid world assigned _ _ _ := by
    have other := @access_other setup jobs job tid world
    cases job with
    | registerUser email password =>
        exact access_served assigned rfl (AuthService.access_registerUser _ _)
    | login email password => exact access_served assigned rfl (AuthService.access_login _ _)
    | validateSession rawToken =>
        exact access_served assigned rfl (AuthService.access_validateSession _)
    | logout rawToken => exact access_served assigned rfl (AuthService.access_logout _)
    | requestPasswordReset email =>
        exact access_served assigned rfl (AuthService.access_requestPasswordReset _)
    | confirmPasswordReset rawToken newPassword =>
        exact access_confirmed rfl (AuthService.access_confirmPasswordReset assigned)
    | requestEmailVerification userId =>
        exact access_served assigned rfl (AuthService.access_requestEmailVerification _)
    | confirmEmailVerification rawToken =>
        exact access_confirmed rfl (AuthService.access_confirmEmailVerification assigned)
    | _ => exact other rfl (by simp [Job.labels, accountLabels])

end Tasks

end ReceiptScanner

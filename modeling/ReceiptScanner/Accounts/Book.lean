import ReceiptScanner.ReadCommitted.Index
import ReceiptScanner.ReadCommitted.Serial
import ReceiptScanner.Services.AuthService

/-!
# The account book

What the account tables amount to, without row ids and statements: users by address, sessions
and auth tokens by hash. Each call of the service is a function on the book, and the service,
served one call after another, computes just that.
-/

namespace ReceiptScanner

open ReadCommitted

/-- Users by folded address, sessions and auth tokens by the hash of their text. -/
@[ext] structure Book where
  users : String → Option (ℕ × UserRow)
  sessions : String → Option SessionRow
  tokens : String → Option AuthTokenRow

/-- The book that a database keeps. -/
def bookOf (setup : Setup) (db : Db store) : Book where
  users := (db .users).seek fun row : UserRow => setup.lower row.email
  sessions hash := ((db .sessions).seek SessionRow.tokenHash hash).map Prod.snd
  tokens hash := ((db .authTokens).seek AuthTokenRow.tokenHash hash).map Prod.snd

/-- The UNIQUE indexes do not care for the order of two rows. -/
theorem schema_symmetric (lower : String → String) : (schema lower).Symmetric := by
  intro table row row'
  cases table <;> simp [schema, clash, Bool.beq_comm]

section Reading

variable {setup : Setup} {db : Db store}

theorem users_bookOf (address : String) : (bookOf setup db).users address =
    (db .users).seek (fun row : UserRow => setup.lower row.email) address := rfl

theorem sessions_bookOf (hash : String) : (bookOf setup db).sessions hash =
    ((db .sessions).seek SessionRow.tokenHash hash).map Prod.snd := rfl

theorem tokens_bookOf (hash : String) : (bookOf setup db).tokens hash =
    ((db .authTokens).seek AuthTokenRow.tokenHash hash).map Prod.snd := rfl

end Reading

namespace Book

section Changes

variable (book : Book)

/-- A new session. -/
def openSession (row : SessionRow) : Book :=
  { book with sessions := Function.update book.sessions row.tokenHash (some row) }

/-- A session used at `now` is extended when it has less than `threshold` to go. -/
def touch (hash : String) (now : ℕ) (threshold : ℤ) : Book :=
  { book with sessions := fun k => (book.sessions k).map fun row =>
      if row.tokenHash == hash && (row.expiresAt : ℤ) < now + threshold then
        { row with expiresAt := now + AuthService.kSessionLifetimeSeconds * 1000000 }
      else row }

/-- One session ends. -/
def endSession (hash : String) : Book :=
  { book with sessions := fun k => (book.sessions k).filter fun row => !(row.tokenHash == hash) }

/-- Every session of a user ends. -/
def endSessionsOf (userId : ℕ) : Book :=
  { book with sessions := fun k => (book.sessions k).filter fun row => !(row.userId == userId) }

/-- A new auth token. -/
def issue (row : AuthTokenRow) : Book :=
  { book with tokens := Function.update book.tokens row.tokenHash (some row) }

/-- An auth token is used up. -/
def spend (hash : String) : Book :=
  { book with tokens := fun k => (book.tokens k).filter fun row => !(row.tokenHash == hash) }

/-- A change to one user. -/
def changeUser (userId : ℕ) (change : UserRow → UserRow) : Book :=
  { book with users := fun k => (book.users k).map fun entry =>
      (entry.1, if entry.1 == userId then change entry.2 else entry.2) }

/-- The user of a session that is live at `now`. -/
def sessionUser (now : ℕ) (hash : String) : Option ℕ :=
  ((book.sessions hash).filter fun row => now < row.expiresAt).map SessionRow.userId

/-- The user of an auth token that is good for the purpose at `now`. -/
def tokenUser (now : ℕ) (purpose : Purpose) (hash : String) : Option ℕ :=
  ((book.tokens hash).filter fun row => row.purpose == purpose && now < row.expiresAt).map
    AuthTokenRow.userId

end Changes

end Book

/-- What a caller may ask of an account. -/
inductive AccountRequest where
  | login (email password : String)
  | validateSession (rawToken : String)
  | logout (rawToken : String)
  | requestPasswordReset (email : String)
  | confirmPasswordReset (rawToken newPassword : String)
  | confirmEmailVerification (rawToken : String)

/-- Whether a request may draw a text: a login for its session, a reset for its token. -/
def AccountRequest.draws : AccountRequest → Bool
  | .login _ _ | .requestPasswordReset _ => true
  | _ => false

/-- What the caller is told. -/
inductive AccountReply where
  | session (rawToken : Option String)
  | user (userId : Option ℕ)
  | done
  | token (rawToken : String)
  | confirmed (yes : Bool)
deriving DecidableEq

namespace AccountRequest

/-- The call of the service that a request makes. -/
def task (setup : Setup) : AccountRequest → Task AccountReply
  | .login email password => .session <$> AuthService.login setup email password
  | .validateSession rawToken => .user <$> AuthService.validateSession setup rawToken
  | .logout rawToken => (fun _ => .done) <$> AuthService.logout setup rawToken
  | .requestPasswordReset email => .token <$> AuthService.requestPasswordReset setup email
  | .confirmPasswordReset rawToken newPassword =>
      .confirmed <$> AuthService.confirmPasswordReset setup rawToken newPassword
  | .confirmEmailVerification rawToken =>
      .confirmed <$> AuthService.confirmEmailVerification setup rawToken

section Spec

variable (setup : Setup) (answers : (c : Call) → c.Reply) (now later : ℕ)

/-- What a request is told whose first statement is sent at `now` and the second, if there is
one, at `later`, and what it makes of the book. -/
def spec (book : Book) : AccountRequest → Except Err AccountReply × Book
  | .login email password =>
      match book.users (setup.lower email) with
      | none => (.ok (.session none), book)
      | some (userId, row) =>
          if answers (.verifyPassword password row.passwordHash) then
            let rawToken : String := answers .generateToken
            (.ok (.session (some rawToken)), book.openSession
              { userId := userId, tokenHash := setup.sha256Hex rawToken
                expiresAt := later + AuthService.kSessionLifetimeSeconds * 1000000 })
          else (.ok (.session none), book)
  | .validateSession rawToken =>
      match book.sessionUser now (setup.sha256Hex rawToken) with
      | none => (.ok (.user none), book)
      | some userId => (.ok (.user (some userId)), book.touch (setup.sha256Hex rawToken)
          later
          (seconds (AuthService.kSessionLifetimeSeconds - setup.sessionTouchIntervalSeconds)))
  | .logout rawToken => (.ok .done, book.endSession (setup.sha256Hex rawToken))
  | .requestPasswordReset email =>
      let rawToken : String := answers .generateToken
      match book.users (setup.lower email) with
      | none => (.ok (.token rawToken), book)
      | some (userId, _) => (.ok (.token rawToken), book.issue
          { userId := userId, tokenHash := setup.sha256Hex rawToken, purpose := .reset
            expiresAt := later + 60 * 60 * 1000000 })
  | .confirmPasswordReset rawToken newPassword =>
      match book.tokenUser now .reset (setup.sha256Hex rawToken) with
      | none => (.ok (.confirmed false), book)
      | some userId =>
          match (answers (.hashPassword newPassword) : Except Err String) with
          | .error raised => (.error raised, book)
          | .ok newHash => (.ok (.confirmed true),
              (((book.changeUser userId fun row =>
                { row with passwordHash := newHash }).endSessionsOf userId).spend
                  (setup.sha256Hex rawToken)))
  | .confirmEmailVerification rawToken =>
      match book.tokenUser now .verify (setup.sha256Hex rawToken) with
      | none => (.ok (.confirmed false), book)
      | some userId => (.ok (.confirmed true), (book.changeUser userId fun row =>
          { row with emailVerifiedAt := some later }).spend
            (setup.sha256Hex rawToken))

end Spec

end AccountRequest

section Statements

variable {setup : Setup} {answers : (c : Call) → c.Reply} {pause : Pause} {start : Option ℕ}
  {ground : Ground store} {label : Label} {now : ℕ}

/-- No two account rows have one key. -/
theorem unique_of_sound (sound : ground.Sound (schema setup.lower)) :
    Rows.Unique (fun row : UserRow => setup.lower row.email) (ground.db .users) ∧
      Rows.Unique SessionRow.tokenHash (ground.db .sessions) ∧
      Rows.Unique AuthTokenRow.tokenHash (ground.db .authTokens) := by
  refine ⟨?_, ?_, ?_⟩ <;> intro id other row row' stored stored' equal <;> by_contra differ
  · simpa [schema, clash, equal] using sound.distinct .users id other row row' stored stored' differ
  · simpa [schema, clash, equal] using
      sound.distinct .sessions id other row row' stored stored' differ
  · simpa [schema, clash, equal] using
      sound.distinct .authTokens id other row row' stored stored' differ

/-- What a statement leaves, which is sent in one step and finishes in the next. -/
structure Turned (setup : Setup) (pause : Pause) (ground last : Ground store) (book : Book) :
    Prop where
  sound : last.Sound (schema setup.lower)
  isBook : bookOf setup last.db = book
  clock : last.clock = pause.past (pause.past ground.clock)

/-- A statement that settles turns the book to what it makes of the tables. -/
theorem leads_statement {β : Type} {client : Client} {stmt : Stmt store β} {book : Book}
    (inside : decide (client = .transaction) = start.isSome)
    (sound : ground.Sound (schema setup.lower))
    (settles : ∃ locks, (schema setup.lower).settle [] [] ground.db
      (stmt (ground.seen pause start)) = .ok (some locks))
    (still : (stmt (ground.seen pause start)).ticks = 0)
    (isBook : bookOf setup
      (ground.db.writes (stmt (ground.seen pause start)).writes) = book) :
    ∃ last, Svc.Leads (schema setup.lower) answers pause start (execSql client stmt) ground
      (.ok (stmt (ground.seen pause start)).result) last ∧
        Turned setup pause ground last book := by
  obtain ⟨locks, settled⟩ := settles
  refine ⟨_, ?_, (sound.finishing pause).after (schema_symmetric setup.lower) settled, isBook, ?_⟩
  · rw [execSql, inside]
    exact Svc.leads_exec rfl settled
  · simp only [Ground.after, still]
    rfl

/-- A statement that only reads. -/
theorem leads_read {β : Type} (answers : (c : Call) → c.Reply) (pause : Pause) (start : Option ℕ)
    (client : Client) (stmt : Stmt store β) (inside : decide (client = .transaction) = start.isSome)
    (sound : ground.Sound (schema setup.lower))
    (reads : (stmt (ground.seen pause start)).writes = [])
    (still : (stmt (ground.seen pause start)).ticks = 0) :
    ∃ last, Svc.Leads (schema setup.lower) answers pause start (execSql client stmt) ground
      (.ok (stmt (ground.seen pause start)).result) last ∧
        Turned setup pause ground last (bookOf setup ground.db) := by
  apply leads_statement inside sound (Schema.settles_read reads) still
  rw [reads, Db.writes_nil]

/-- Writes to one table spare the others. -/
theorem writes_spare (other : Table) {writes : List (Write store)} {table : Table}
    (here : ∀ write ∈ writes, write.table = table) (differ : other ≠ table) :
    ground.db.writes writes other = ground.db other :=
  Db.writes_other_table _ fun write member isOther =>
    differ (isOther.symm.trans (here write member))

/-- The rows of one table are all that such writes change. -/
theorem bookOf_sessions {writes : List (Write store)} {sessions : String → Option SessionRow}
    (here : ∀ write ∈ writes, write.table = .sessions)
    (become : ∀ hash, ((ground.db.writes writes .sessions).seek SessionRow.tokenHash hash).map
      Prod.snd = sessions hash) :
    bookOf setup (ground.db.writes writes) =
      { bookOf setup ground.db with sessions := sessions } := by
  apply Book.ext
  · simp only [bookOf, writes_spare .users here (by decide)]
  · funext hash
    exact become hash
  · simp only [bookOf, writes_spare .authTokens here (by decide)]

theorem bookOf_tokens {writes : List (Write store)} {tokens : String → Option AuthTokenRow}
    (here : ∀ write ∈ writes, write.table = .authTokens)
    (become : ∀ hash, ((ground.db.writes writes .authTokens).seek AuthTokenRow.tokenHash hash).map
      Prod.snd = tokens hash) :
    bookOf setup (ground.db.writes writes) = { bookOf setup ground.db with tokens := tokens } := by
  apply Book.ext
  · simp only [bookOf, writes_spare .users here (by decide)]
  · simp only [bookOf, writes_spare .sessions here (by decide)]
  · funext hash
    exact become hash

theorem bookOf_users {writes : List (Write store)} {users : String → Option (ℕ × UserRow)}
    (here : ∀ write ∈ writes, write.table = .users)
    (become : ∀ address, (ground.db.writes writes .users).seek
      (fun row : UserRow => setup.lower row.email) address = users address) :
    bookOf setup (ground.db.writes writes) = { bookOf setup ground.db with users := users } := by
  apply Book.ext
  · funext address
    exact become address
  · simp only [bookOf, writes_spare .sessions here (by decide)]
  · simp only [bookOf, writes_spare .authTokens here (by decide)]

end Statements

namespace AuthService

section Statements

variable {setup : Setup} {answers : (c : Call) → c.Reply} {pause : Pause} {start : Option ℕ}
  {ground : Ground store} {label : Label} {now : ℕ}

/-- The user of an address, and the hash of the password. -/
theorem result_selectUser (sound : ground.Sound (schema setup.lower)) (email : String) :
    (selectUser setup email (ground.seen pause start)).result =
      (((bookOf setup ground.db).users (setup.lower email)).map fun entry =>
        (entry.1, entry.2.passwordHash)).toList := by
  have found := Rows.filter_list_of_seek (k := setup.lower email) (unique_of_sound sound).1
    fun _ => true
  simp only [Bool.and_true] at found
  have here : (selectUser setup email (ground.seen pause start)).result =
    ((ground.db .users).list.filter fun entry =>
      decide (setup.lower entry.2.email = setup.lower email)).map
        fun entry => (entry.1, entry.2.passwordHash) := rfl
  rw [here, found, users_bookOf]
  cases (ground.db .users).seek (fun row : UserRow => setup.lower row.email)
    (setup.lower email) <;> rfl

theorem result_selectSession (sound : ground.Sound (schema setup.lower)) (hash : String) :
    (selectSession hash (ground.seen pause start)).result =
      ((bookOf setup ground.db).sessionUser (ground.now pause start) hash).toList := by
  have found := Rows.filter_list_of_seek (k := hash) (unique_of_sound sound).2.1
    fun row => ground.now pause start < row.expiresAt
  have here : (selectSession hash (ground.seen pause start)).result =
    ((ground.db .sessions).list.filter fun entry =>
      decide (entry.2.tokenHash = hash) && decide (ground.now pause start < entry.2.expiresAt)).map
        fun entry => entry.2.userId := rfl
  rw [here, found, Book.sessionUser, sessions_bookOf]
  cases (ground.db .sessions).seek SessionRow.tokenHash hash with
  | none => rfl
  | some entry => by_cases live : ground.now pause start < entry.2.expiresAt <;> simp [Option.filter, live]

theorem result_selectToken (sound : ground.Sound (schema setup.lower)) (hash : String)
    (purpose : Purpose) :
    (selectToken hash purpose (ground.seen pause start)).result =
      ((bookOf setup ground.db).tokenUser (ground.now pause start) purpose hash).toList := by
  have found := Rows.filter_list_of_seek (k := hash) (unique_of_sound sound).2.2
    fun row => row.purpose == purpose && ground.now pause start < row.expiresAt
  have here : (selectToken hash purpose (ground.seen pause start)).result =
    ((ground.db .authTokens).list.filter fun entry =>
      decide (entry.2.tokenHash = hash) && entry.2.purpose == purpose &&
        decide (ground.now pause start < entry.2.expiresAt)).map fun entry => entry.2.userId := rfl
  simp only [Bool.and_assoc] at here
  rw [here, found, Book.tokenUser, tokens_bookOf]
  cases (ground.db .authTokens).seek AuthTokenRow.tokenHash hash with
  | none => rfl
  | some entry =>
      by_cases live : entry.2.purpose == purpose && ground.now pause start < entry.2.expiresAt <;>
        simp [Option.filter, live]

theorem leads_insertSession (answers : (c : Call) → c.Reply) (pause : Pause)
    (sound : ground.Sound (schema setup.lower)) {userId : ℕ} {hash : String}
    (there : (ground.db .users).get userId ≠ none)
    (free : (bookOf setup ground.db).sessions hash = none) :
    ∃ id last, Svc.Leads (schema setup.lower) answers pause none
      (execSql .db (insertSession userId hash)) ground (.ok id) last ∧
        Turned setup pause ground last ((bookOf setup ground.db).openSession
          { userId := userId, tokenHash := hash
            expiresAt := pause.instant ground.clock + kSessionLifetimeSeconds * 1000000 }) := by
  have unkeyed : (ground.db .sessions).seek SessionRow.tokenHash hash = none :=
    Option.map_eq_none_iff.mp free
  refine ⟨_, leads_statement rfl sound (sound.settles_insert ?_ rfl ?_) rfl ?_⟩
  · simpa [schema, refs] using there
  · intro id other stored
    simpa [schema, clash] using (Rows.ne_of_seek_eq_none unkeyed stored).symm
  · apply bookOf_sessions
    · simp [insertSession, Stmt.insert]
    · intro k
      let row : SessionRow := { userId := userId, tokenHash := hash
                                expiresAt := pause.instant ground.clock +
                                  kSessionLifetimeSeconds * 1000000 }
      refine (congrArg (Option.map Prod.snd) (Rows.seek_insert row
        (unique_of_sound sound).2.1 unkeyed (sound.fresh .sessions _ le_rfl)
          Ground.get_insert)).trans ?_
      by_cases isHash : k = hash
      · simp [isHash, row]
      · simp [isHash, row, sessions_bookOf]

theorem leads_insertToken (answers : (c : Call) → c.Reply) (pause : Pause)
    (sound : ground.Sound (schema setup.lower)) {userId : ℕ} {hash : String}
    (there : (ground.db .users).get userId ≠ none)
    (free : (bookOf setup ground.db).tokens hash = none) (label : Label) (purpose : Purpose)
    (lifetimeSeconds : ℕ) :
    ∃ id last, Svc.Leads (schema setup.lower) answers pause none
      (execSql .db (insertToken label userId hash purpose lifetimeSeconds)) ground (.ok id) last ∧
        Turned setup pause ground last ((bookOf setup ground.db).issue
          { userId := userId, tokenHash := hash, purpose := purpose
            expiresAt := pause.instant ground.clock + lifetimeSeconds * 1000000 }) := by
  have unkeyed : (ground.db .authTokens).seek AuthTokenRow.tokenHash hash = none :=
    Option.map_eq_none_iff.mp free
  refine ⟨_, leads_statement rfl sound (sound.settles_insert ?_ rfl ?_) rfl ?_⟩
  · simpa [schema, refs] using there
  · intro id other stored
    simpa [schema, clash] using (Rows.ne_of_seek_eq_none unkeyed stored).symm
  · apply bookOf_tokens
    · simp [insertToken, Stmt.insert]
    · intro k
      let row : AuthTokenRow := { userId := userId, tokenHash := hash, purpose := purpose
                                  expiresAt := pause.instant ground.clock +
                                    lifetimeSeconds * 1000000 }
      refine (congrArg (Option.map Prod.snd) (Rows.seek_insert row
        (unique_of_sound sound).2.2 unkeyed (sound.fresh .authTokens _ le_rfl)
          Ground.get_insert)).trans ?_
      by_cases isHash : k = hash
      · simp [isHash, row]
      · simp [isHash, row, tokens_bookOf]

/-- A DELETE of sessions, whichever they are. -/
theorem leads_deleteSessions (answers : (c : Call) → c.Reply) (pause : Pause) (start : Option ℕ) (client : Client)
    (inside : decide (client = .transaction) = start.isSome)
    (sound : ground.Sound (schema setup.lower)) (label : Label) (gone : SessionRow → Bool) :
    ∃ ids last, Svc.Leads (schema setup.lower) answers pause start
      (execSql client (.delete (schema setup.lower) label .sessions
        fun _ _ (row : SessionRow) => gone row)) ground (.ok ids) last ∧
        Turned setup pause ground last { bookOf setup ground.db with
          sessions := fun k =>
            ((bookOf setup ground.db).sessions k).filter fun row => !gone row } := by
  have alone : ∀ db id, (schema setup.lower).onDelete db .sessions id label = [] := fun _ _ => rfl
  refine ⟨_, leads_statement inside sound (Ground.settles_delete alone ?_) rfl ?_⟩
  · rintro (_ | _ | _ | _ | _ | _ | _ | _ | _ | _ | _) row id <;> simp [schema, refs]
  · apply bookOf_sessions
    · intro write member
      obtain ⟨id, row, -, -, rfl⟩ := (Ground.mem_delete alone).mp member
      rfl
    · intro k
      refine (congrArg (Option.map Prod.snd) (Rows.seek_filter (unique_of_sound sound).2.1
        (Ground.get_delete alone))).trans ?_
      rw [sessions_bookOf]
      cases (ground.db .sessions).seek SessionRow.tokenHash k with
      | none => rfl
      | some entry => simp [Option.filter, apply_ite]

/-- A DELETE of auth tokens, whichever they are. -/
theorem leads_deleteTokens (answers : (c : Call) → c.Reply) (pause : Pause) (start : Option ℕ) (client : Client)
    (inside : decide (client = .transaction) = start.isSome)
    (sound : ground.Sound (schema setup.lower)) (label : Label) (gone : AuthTokenRow → Bool) :
    ∃ ids last, Svc.Leads (schema setup.lower) answers pause start
      (execSql client (.delete (schema setup.lower) label .authTokens
        fun _ _ (row : AuthTokenRow) => gone row)) ground (.ok ids) last ∧
        Turned setup pause ground last { bookOf setup ground.db with
          tokens := fun k =>
            ((bookOf setup ground.db).tokens k).filter fun row => !gone row } := by
  have alone : ∀ db id, (schema setup.lower).onDelete db .authTokens id label = [] :=
    fun _ _ => rfl
  refine ⟨_, leads_statement inside sound (Ground.settles_delete alone ?_) rfl ?_⟩
  · rintro (_ | _ | _ | _ | _ | _ | _ | _ | _ | _ | _) row id <;> simp [schema, refs]
  · apply bookOf_tokens
    · intro write member
      obtain ⟨id, row, -, -, rfl⟩ := (Ground.mem_delete alone).mp member
      rfl
    · intro k
      refine (congrArg (Option.map Prod.snd) (Rows.seek_filter (unique_of_sound sound).2.2
        (Ground.get_delete alone))).trans ?_
      rw [tokens_bookOf]
      cases (ground.db .authTokens).seek AuthTokenRow.tokenHash k with
      | none => rfl
      | some entry => simp [Option.filter, apply_ite]

/-- A session that is used. -/
theorem leads_touchSession (answers : (c : Call) → c.Reply) (pause : Pause)
    (sound : ground.Sound (schema setup.lower)) (hash : String) (refreshThresholdSeconds : ℤ) :
    ∃ rows last, Svc.Leads (schema setup.lower) answers pause none
      (execSql .db (touchSession hash refreshThresholdSeconds)) ground (.ok rows) last ∧
        Turned setup pause ground last
          ((bookOf setup ground.db).touch hash (pause.instant ground.clock) (seconds refreshThresholdSeconds)) := by
  refine ⟨_, leads_statement rfl sound (sound.settles_update (schema_symmetric setup.lower)
    (fun _ => rfl) (fun _ => rfl) fun _ _ => rfl) rfl ?_⟩
  apply bookOf_sessions
  · intro write member
    obtain ⟨id, row, -, -, rfl⟩ := Ground.mem_update.mp member
    rfl
  · intro k
    refine (congrArg (Option.map Prod.snd) (Rows.seek_map (unique_of_sound sound).2.1 ?_
      Ground.get_update)).trans ?_
    · intro id row
      split <;> rfl
    · rw [sessions_bookOf, Option.map_map, Option.map_map]
      rfl

/-- An UPDATE of one user that leaves the address. -/
theorem leads_changeUser (answers : (c : Call) → c.Reply) (pause : Pause) (start : Option ℕ) (client : Client)
    (inside : decide (client = .transaction) = start.isSome)
    (sound : ground.Sound (schema setup.lower)) (label : Label) (userId : ℕ)
    (set : ℕ → UserRow → UserRow) (keeps : ∀ now row, (set now row).email = row.email) :
    ∃ rows last, Svc.Leads (schema setup.lower) answers pause start
      (execSql client (.update label .users (fun _ id _ => id == userId) set fun _ _ => ()))
        ground (.ok rows) last ∧
      Turned setup pause ground last ((bookOf setup ground.db).changeUser userId
        (set (start.getD (pause.instant ground.clock)))) := by
  refine ⟨_, leads_statement inside sound (sound.settles_update (schema_symmetric setup.lower)
    (fun _ => rfl) (fun _ => rfl) fun row other => ?_) rfl ?_⟩
  · simp [schema, clash, keeps]
  apply bookOf_users
  · intro write member
    obtain ⟨id, row, -, -, rfl⟩ := Ground.mem_update.mp member
    rfl
  · intro address
    refine (Rows.seek_map (unique_of_sound sound).1 ?_ Ground.get_update).trans rfl
    intro id row
    split <;> simp [keeps]

end Statements

end AuthService

end ReceiptScanner

import ReceiptScanner.Accounts.Visits

/-!
# Whether an account exists does not show

`Book.hide` is the book without one user. Requests that know nothing of the user are served
alike from both books, and leave books that differ in the user only.
-/

namespace ReceiptScanner

open ReadCommitted

namespace Book

/-- The book without one user. -/
def hide (userId : ℕ) (book : Book) : Book where
  users k := (book.users k).filter fun entry => !(entry.1 == userId)
  sessions k := (book.sessions k).filter fun row => !(row.userId == userId)
  tokens k := (book.tokens k).filter fun row => !(row.userId == userId)

variable {book : Book} {userId other now : ℕ} {hash : String} {purpose : Purpose}

/-- A hash of the user's own is as good as none. -/
theorem filter_update {α : Type} {rows : String → Option α} {keep : α → Bool} {row : α}
    (k : String) :
    (Function.update rows hash (some row) k).filter keep =
      Function.update (fun k => (rows k).filter keep) hash ((some row).filter keep) k := by
  by_cases same : k = hash
  · simp [same]
  · simp [same]

theorem hide_openSession_other {row : SessionRow} (differ : row.userId ≠ userId) :
    (book.openSession row).hide userId = (book.hide userId).openSession row := by
  apply Book.ext <;> try rfl
  funext k
  refine (filter_update k).trans ?_
  simp [openSession, hide, differ, Option.filter]

theorem hide_issue_other {row : AuthTokenRow} (differ : row.userId ≠ userId) :
    (book.issue row).hide userId = (book.hide userId).issue row := by
  apply Book.ext <;> try rfl
  funext k
  refine (filter_update k).trans ?_
  simp [issue, hide, differ, Option.filter]

/-- A token issued to the hidden user does not show. -/
theorem hide_issue_own {row : AuthTokenRow} (own : row.userId = userId)
    (free : book.tokens row.tokenHash = none) :
    (book.issue row).hide userId = book.hide userId := by
  apply Book.ext <;> try rfl
  funext k
  refine (filter_update k).trans ?_
  by_cases same : k = row.tokenHash
  · simp [same, hide, own, free, Option.filter]
  · simp [same, hide]

theorem hide_endSession :
    (book.endSession hash).hide userId = (book.hide userId).endSession hash := by
  apply Book.ext <;> try rfl
  funext k
  simp [endSession, hide, Option.filter_filter, Bool.and_comm]

theorem hide_endSessionsOf :
    (book.endSessionsOf other).hide userId = (book.hide userId).endSessionsOf other := by
  apply Book.ext <;> try rfl
  funext k
  simp [endSessionsOf, hide, Option.filter_filter, Bool.and_comm]

theorem hide_spend : (book.spend hash).hide userId = (book.hide userId).spend hash := by
  apply Book.ext <;> try rfl
  funext k
  simp [spend, hide, Option.filter_filter, Bool.and_comm]

theorem hide_touch {threshold : ℤ} :
    (book.touch hash now threshold).hide userId = (book.hide userId).touch hash now threshold := by
  apply Book.ext <;> try rfl
  funext k
  simp only [touch, hide]
  cases book.sessions k with
  | none => rfl
  | some row => simp only [Option.map_some, Option.filter]; grind

theorem hide_changeUser {change : UserRow → UserRow} :
    (book.changeUser other change).hide userId = (book.hide userId).changeUser other change := by
  apply Book.ext <;> try rfl
  funext k
  simp only [changeUser, hide]
  cases book.users k with
  | none => rfl
  | some entry => simp only [Option.map_some, Option.filter]; grind

/-- The hidden user is not found; any other is found as before. -/
theorem sessionUser_hide (stranger : ∀ row, book.sessions hash = some row → row.userId ≠ userId) :
    (book.hide userId).sessionUser now hash = book.sessionUser now hash := by
  simp only [sessionUser, hide]
  cases found : book.sessions hash with
  | none => rfl
  | some row => simp [Option.filter, stranger row found]

theorem tokenUser_hide (stranger : ∀ row, book.tokens hash = some row → row.userId ≠ userId) :
    (book.hide userId).tokenUser now purpose hash = book.tokenUser now purpose hash := by
  simp only [tokenUser, hide]
  cases found : book.tokens hash with
  | none => rfl
  | some row => simp [Option.filter, stranger row found]

theorem users_hide_own {address : String} {row : UserRow}
    (found : book.users address = some (userId, row)) :
    (book.hide userId).users address = none := by
  simp [hide, found, Option.filter]

theorem users_hide_other {address : String} {row : UserRow}
    (found : book.users address = some (other, row)) (differ : other ≠ userId) :
    (book.hide userId).users address = some (other, row) := by
  simp [hide, found, Option.filter, differ]

end Book

namespace Visit

variable {setup : Setup} {userId : ℕ} {visit : Visit} {visits rest : List Visit} {book : Book}

/-- A request that knows nothing of a user: not the password, not the text of a session, not that
of an auth token, be it one there was or one that a request of `visits` has drawn. -/
def Blind (setup : Setup) (userId : ℕ) (visits : List Visit) (book : Book)
    (visit : Visit) : Prop :=
  match visit.request with
  | .login email password => ∀ row, book.users (setup.lower email) = some (userId, row) →
      visit.answers (.verifyPassword password row.passwordHash) = false
  | .validateSession rawToken => ∀ row, book.sessions (setup.sha256Hex rawToken) = some row →
      row.userId ≠ userId
  | .confirmPasswordReset rawToken _ | .confirmEmailVerification rawToken =>
      (∀ row, book.tokens (setup.sha256Hex rawToken) = some row → row.userId ≠ userId) ∧
        ∀ other ∈ visits, ∀ email row, other.request = .requestPasswordReset email →
          book.users (setup.lower email) = some (userId, row) →
            setup.sha256Hex other.draw ≠ setup.sha256Hex rawToken
  | .logout _ | .requestPasswordReset _ => True

/-- A request that is blind to a user is served alike without the user. -/
theorem spec_hide (blind : Blind setup userId visits book visit)
    (unused : visit.request.draws = true → AccountRequest.Unused setup book visit.draw) :
    visit.spec setup (book.hide userId) =
      ((visit.spec setup book).1, (visit.spec setup book).2.hide userId) := by
  unfold Blind at blind
  cases isRequest : visit.request <;> simp only [isRequest] at blind <;>
    simp only [spec, AccountRequest.paced, isRequest, AccountRequest.spec]
  case login email password =>
    cases found : book.users (setup.lower email) with
    | none => simp [Book.hide, found]
    | some entry =>
        obtain ⟨other, row⟩ := entry
        by_cases own : other = userId
        · subst own
          simp [Book.users_hide_own found, blind row found]
        · rw [Book.users_hide_other found own]
          dsimp only
          split
          · rw [Book.hide_openSession_other (by exact own)]
          · rfl
  case validateSession rawToken =>
    rw [Book.sessionUser_hide blind]
    split
    · rfl
    · rw [Book.hide_touch]
  case logout => rw [Book.hide_endSession]
  case requestPasswordReset email =>
    cases found : book.users (setup.lower email) with
    | none => simp [Book.hide, found]
    | some entry =>
        obtain ⟨other, row⟩ := entry
        by_cases own : other = userId
        · subst own
          simp only [Book.users_hide_own found]
          refine congrArg (Prod.mk _) (Eq.symm (Book.hide_issue_own ?_ ?_))
          · rfl
          · exact (unused (by rw [isRequest]; rfl)).token
        · rw [Book.users_hide_other found own]
          dsimp only
          rw [Book.hide_issue_other (by exact own)]
  case confirmPasswordReset rawToken newPassword =>
    rw [Book.tokenUser_hide blind.1]
    split
    · rfl
    · split
      · rfl
      · rw [Book.hide_spend, Book.hide_endSessionsOf, Book.hide_changeUser]
  case confirmEmailVerification rawToken =>
    rw [Book.tokenUser_hide blind.1]
    split
    · rfl
    · rw [Book.hide_spend, Book.hide_changeUser]

/-- What a blind request leaves of the user: the row, no new session, and of tokens at most the
one that it has drawn for the user. -/
structure Stays (setup : Setup) (userId : ℕ) (visit : Visit) (book after : Book) : Prop where
  users : ∀ k row, after.users k = some (userId, row) → book.users k = some (userId, row)
  sessions : ∀ k row, after.sessions k = some row → row.userId = userId →
    ∃ before, book.sessions k = some before ∧ before.userId = userId
  tokens : ∀ k row, after.tokens k = some row → row.userId = userId →
    (∃ before, book.tokens k = some before ∧ before.userId = userId) ∨
      (k = setup.sha256Hex visit.draw ∧ ∃ email row, visit.request = .requestPasswordReset email ∧
        book.users (setup.lower email) = some (userId, row))

theorem Stays.refl : Stays setup userId visit book book where
  users _ _ found := found
  sessions _ row found own := ⟨row, found, own⟩
  tokens _ row found own := Or.inl ⟨row, found, own⟩

/-- A change to another user. -/
theorem users_changeUser {other : ℕ} {change : UserRow → UserRow} (differ : other ≠ userId)
    {k : String} {row : UserRow}
    (found : (book.changeUser other change).users k = some (userId, row)) :
    book.users k = some (userId, row) := by
  obtain ⟨⟨id, before⟩, there, same⟩ := Option.map_eq_some_iff.mp found
  obtain ⟨rfl, isRow⟩ := Prod.mk.inj same
  rw [there, ← isRow, if_neg (by simpa using Ne.symm differ)]

/-- The user of a token that strangers present is a stranger. -/
theorem stranger_of_tokenUser {purpose : Purpose} {hash : String} {other now : ℕ}
    (stranger : ∀ row, book.tokens hash = some row → row.userId ≠ userId)
    (found : book.tokenUser now purpose hash = some other) : other ≠ userId := by
  obtain ⟨row, kept, rfl⟩ := Option.map_eq_some_iff.mp found
  exact stranger row (Option.filter_eq_some_iff.mp kept).1

theorem stays_spec (blind : Blind setup userId visits book visit) : Stays setup userId visit book
    (visit.spec setup book).2 := by
  unfold Blind at blind
  cases isRequest : visit.request <;> simp only [isRequest] at blind <;>
    simp only [spec, AccountRequest.paced, isRequest, AccountRequest.spec]
  case login email password =>
    split
    · exact Stays.refl
    · rename_i other row found
      split
      · rename_i right
        have differ : other ≠ userId := by
          rintro rfl
          rw [blind row found] at right
          cases right
        refine ⟨fun _ _ there => there, fun k row there own => ?_, fun _ row there own =>
          Or.inl ⟨row, there, own⟩⟩
        by_cases same : k = setup.sha256Hex (visit.answers .generateToken)
        · simp only [Book.openSession, same, Function.update_self, Option.some.injEq] at there
          subst there
          exact absurd own differ
        · exact ⟨row, (Function.update_of_ne same _ _).symm.trans there, own⟩
      · exact Stays.refl
  case validateSession rawToken =>
    split
    · exact Stays.refl
    · refine ⟨fun _ _ there => there, fun k row there own => ?_, fun _ row there own =>
        Or.inl ⟨row, there, own⟩⟩
      obtain ⟨before, found, rfl⟩ := Option.map_eq_some_iff.mp there
      refine ⟨before, found, ?_⟩
      split at own <;> exact own
  case logout rawToken =>
    exact ⟨fun _ _ there => there, fun k row there own =>
      ⟨row, (Option.filter_eq_some_iff.mp there).1, own⟩, fun _ row there own =>
        Or.inl ⟨row, there, own⟩⟩
  case requestPasswordReset email =>
    split
    · exact Stays.refl
    · rename_i other row found
      refine ⟨fun _ _ there => there, fun _ row there own => ⟨row, there, own⟩,
        fun k token there own => ?_⟩
      by_cases same : k = setup.sha256Hex (visit.answers .generateToken)
      · simp only [Book.issue, same, Function.update_self, Option.some.injEq] at there
        subst there
        obtain rfl : other = userId := own
        exact Or.inr ⟨same, email, row, isRequest, found⟩
      · exact Or.inl ⟨token, (Function.update_of_ne same _ _).symm.trans there, own⟩
  case confirmPasswordReset rawToken newPassword =>
    split
    · exact Stays.refl
    · rename_i other found
      have differ := stranger_of_tokenUser blind.1 found
      split
      · exact Stays.refl
      · refine ⟨fun k row there => ?_,
          fun k row there own => ⟨row, (Option.filter_eq_some_iff.mp there).1, own⟩,
          fun k row there own => Or.inl ⟨row, (Option.filter_eq_some_iff.mp there).1, own⟩⟩
        simp only [Book.spend, Book.endSessionsOf] at there
        exact users_changeUser differ there
  case confirmEmailVerification rawToken =>
    split
    · exact Stays.refl
    · rename_i other found
      have differ := stranger_of_tokenUser blind.1 found
      refine ⟨fun k row there => ?_, fun k row there own => ⟨row, there, own⟩,
        fun k row there own => Or.inl ⟨row, (Option.filter_eq_some_iff.mp there).1, own⟩⟩
      simp only [Book.spend] at there
      exact users_changeUser differ there

/-- The tokens of the user are the old ones and those of the request. -/
theorem Stays.strange {after : Book} (stays : Stays setup userId visit book after) {hash : String}
    (stranger : ∀ row, book.tokens hash = some row → row.userId ≠ userId)
    (unknown : ∀ email row, visit.request = .requestPasswordReset email →
      book.users (setup.lower email) = some (userId, row) → setup.sha256Hex visit.draw ≠ hash) :
    ∀ row, after.tokens hash = some row → row.userId ≠ userId := by
  intro row there own
  rcases stays.tokens hash row there own with
    ⟨before, was, owner⟩ | ⟨same, email, user, asked, found⟩
  · exact stranger before was owner
  · exact unknown email user asked found same.symm

/-- A later request stays blind. -/
theorem Blind.later {after : Book} {later : Visit} (stays : Stays setup userId visit book after)
    (blind : Blind setup userId (visit :: rest) book later) :
    Blind setup userId rest after later := by
  unfold Blind at blind ⊢
  cases isRequest : later.request <;> simp only [isRequest] at blind ⊢
  case login email password => exact fun row found => blind row (stays.users _ row found)
  case validateSession rawToken =>
    intro row found own
    obtain ⟨before, was, owner⟩ := stays.sessions _ row found own
    exact blind before was owner
  case confirmPasswordReset rawToken newPassword =>
    exact ⟨stays.strange blind.1 (blind.2 visit List.mem_cons_self),
      fun other member email row asked found =>
        blind.2 other (List.mem_cons_of_mem _ member) email row asked (stays.users _ row found)⟩
  case confirmEmailVerification rawToken =>
    exact ⟨stays.strange blind.1 (blind.2 visit List.mem_cons_self),
      fun other member email row asked found =>
        blind.2 other (List.mem_cons_of_mem _ member) email row asked (stays.users _ row found)⟩

/-- Any number of blind requests are served alike without the user. -/
theorem run_hide (blind : ∀ visit ∈ visits, Blind setup userId visits book visit)
    (drawn : Drawn setup visits book) :
    run setup visits (book.hide userId) =
      ((run setup visits book).1, (run setup visits book).2.hide userId) := by
  induction visits generalizing book with
  | nil => rfl
  | cons visit rest ih =>
      have first : Blind setup userId (visit :: rest) book visit := blind visit List.mem_cons_self
      have blind' : ∀ later ∈ rest, Blind setup userId rest
          (visit.spec setup book).2 later :=
        fun later member => (blind later (List.mem_cons_of_mem _ member)).later (stays_spec first)
      simp only [run, spec_hide first (drawn.unused visit List.mem_cons_self),
        ih blind' drawn.tail]

/-- What is unused is so without a user too. -/
theorem unused_hide {rawToken : String} (unused : AccountRequest.Unused setup book rawToken) :
    AccountRequest.Unused setup (book.hide userId) rawToken := by
  obtain ⟨session, token⟩ := unused
  exact ⟨by simp [Book.hide, session], by simp [Book.hide, token]⟩

theorem Drawn.hide (drawn : Drawn setup visits book) : Drawn setup visits (book.hide userId) where
  apart := drawn.apart
  unused visit member draws := unused_hide (drawn.unused visit member draws)

/-- Two states that differ in the account of one user serve a request alike that is blind to the
user, and differ in nothing else afterwards. -/
theorem turns_alike {config config' : Config store outside Job}
    (sound : (groundOf config.world).Sound (schema setup.lower))
    (sound' : (groundOf config'.world).Sound (schema setup.lower))
    (closed : config.Closed) (closed' : config'.Closed)
    (hidden : bookOf setup config'.world.history.db =
      (bookOf setup config.world.history.db).hide userId)
    (arrived : config.world.clock ≤ visit.time) (arrived' : config'.world.clock ≤ visit.time)
    (unused : visit.request.draws = true →
      AccountRequest.Unused setup (bookOf setup config.world.history.db) visit.draw)
    (blind : Blind setup userId visits (bookOf setup config.world.history.db) visit) :
    ∃ middle middle', Turns setup config visit middle ∧ Turns setup config' visit middle' ∧
      (visit.spec setup (bookOf setup config'.world.history.db)).1 =
        (visit.spec setup (bookOf setup config.world.history.db)).1 ∧
      bookOf setup middle'.world.history.db =
        (bookOf setup middle.world.history.db).hide userId := by
  obtain ⟨middle, turns⟩ := turns_of_sound sound closed arrived unused
  obtain ⟨middle', turns'⟩ := turns_of_sound sound' closed' arrived' fun draws =>
    hidden ▸ unused_hide (unused draws)
  refine ⟨middle, middle', turns, turns', ?_, ?_⟩
  · rw [hidden, spec_hide blind unused]
  · rw [turns'.isBook, hidden, spec_hide blind unused, turns.isBook]

end Visit

section Rows

variable {setup : Setup} {ground : Ground store} {db : Db store} {userId : ℕ}

/-- A database with the rows of all users but one keeps the book without that user. -/
theorem bookOf_eq_hide (sound : ground.Sound (schema setup.lower))
    (users : ∀ id, (db .users).get id =
      ((ground.db .users).get id).filter fun _ => !(id == userId))
    (sessions : ∀ id, (db .sessions).get id =
      ((ground.db .sessions).get id).filter fun row => !(row.userId == userId))
    (tokens : ∀ id, (db .authTokens).get id =
      ((ground.db .authTokens).get id).filter fun row => !(row.userId == userId)) :
    bookOf setup db = (bookOf setup ground.db).hide userId := by
  obtain ⟨byAddress, bySession, byToken⟩ := unique_of_sound sound
  apply Book.ext <;> funext k
  · exact Rows.seek_filter byAddress users
  · refine (congrArg (Option.map Prod.snd) (Rows.seek_filter bySession sessions)).trans ?_
    simp only [Book.hide, sessions_bookOf]
    cases (ground.db .sessions).seek SessionRow.tokenHash k with
    | none => rfl
    | some entry => simp [Option.filter, apply_ite]
  · refine (congrArg (Option.map Prod.snd) (Rows.seek_filter byToken tokens)).trans ?_
    simp only [Book.hide, tokens_bookOf]
    cases (ground.db .authTokens).seek AuthTokenRow.tokenHash k with
    | none => rfl
    | some entry => simp [Option.filter, apply_ite]

/-- The second database is the first without the account of this email: without the user, and the
sessions and auth tokens of the user. -/
structure WithoutAccount (setup : Setup) (email : String) (userId : ℕ) (db db' : Db store) :
    Prop where
  account : ∃ row : UserRow, (db .users).get userId = some row ∧
    setup.lower row.email = setup.lower email
  users : ∀ id, (db' .users).get id = ((db .users).get id).filter fun _ => !(id == userId)
  sessions : ∀ id, (db' .sessions).get id =
    ((db .sessions).get id).filter fun row => !(row.userId == userId)
  tokens : ∀ id, (db' .authTokens).get id =
    ((db .authTokens).get id).filter fun row => !(row.userId == userId)

/-- Their books differ in that user. -/
theorem WithoutAccount.hidden {email : String} (sound : ground.Sound (schema setup.lower))
    (without : WithoutAccount setup email userId ground.db db) :
    bookOf setup db = (bookOf setup ground.db).hide userId :=
  bookOf_eq_hide sound without.users without.sessions without.tokens

end Rows

section Runs

variable {setup : Setup} {config config' : Config store outside Job} {userId : ℕ}
  {visits : List Visit}

/-- Two reachable states without an open transaction that differ in the account of one user, and
in whether there is one at all, give the same replies to any requests that know nothing of that
user and are served one after another at the same pace, and differ in nothing else afterwards. -/
theorem account_unseen (reachable : Config.Reachable (application setup) config)
    (reachable' : Config.Reachable (application setup) config')
    (closed : config.Closed) (closed' : config'.Closed)
    (hidden : bookOf setup config'.world.history.db =
      (bookOf setup config.world.history.db).hide userId)
    (spaced : Visit.Spaced config.world.clock visits)
    (spaced' : Visit.Spaced config'.world.clock visits)
    (drawn : Visit.Drawn setup visits (bookOf setup config.world.history.db))
    (blind : ∀ visit ∈ visits,
      visit.Blind setup userId visits (bookOf setup config.world.history.db)) :
    ∃ replies next next', Visit.Runs setup config visits replies next ∧
      Visit.Runs setup config' visits replies next' ∧
      bookOf setup next'.world.history.db = (bookOf setup next.world.history.db).hide userId := by
  obtain ⟨next, runs, isBook⟩ := Visit.runs_refine (Visit.sound_of_reachable reachable) closed
    spaced drawn
  obtain ⟨next', runs', isBook'⟩ := Visit.runs_refine (Visit.sound_of_reachable reachable')
    closed' spaced' (hidden ▸ drawn.hide)
  rw [hidden, Visit.run_hide blind drawn] at runs' isBook'
  exact ⟨_, next, next', runs, runs', isBook' ▸ isBook ▸ rfl⟩

/-- Only the second of the two: the registration of the first broke off. -/
@[irreducible] def otherUser : Config store outside Job :=
  Config.ran (application demo) ([.spawn (.registerUser "ann" "secret"),
    answered 0 "" { kind := "" }, .step 0] ++ statements 0 1 ++ [.crash 0] ++
      registering 1 "bob" "secret") (by decide +kernel)

theorem reachable_otherUser : Config.Reachable (application demo) otherUser := by
  unfold otherUser
  exact Config.reachable_ran _

theorem first_apart :
    (twoUsers.world.history.db .users).get 1 ≠ (otherUser.world.history.db .users).get 1 := by
  decide +kernel

theorem withoutAccount_otherUser : WithoutAccount demo "ann" 1 twoUsers.world.history.db
    otherUser.world.history.db := by
  have within : ∀ table ∈ [Table.users, .sessions, .authTokens],
      (twoUsers.world.history.db table).bound ≤ 4 ∧
        (otherUser.world.history.db table).bound ≤ 4 := by decide +kernel
  have users := within .users (by decide)
  have sessions := within .sessions (by decide)
  have tokens := within .authTokens (by decide)
  have stored : ((twoUsers.world.history.db .users).get 1).map UserRow.email = some "ann" := by
    decide +kernel
  obtain ⟨row, isRow, isEmail⟩ := Option.map_eq_some_iff.mp stored
  refine ⟨⟨row, isRow, congrArg demo.lower isEmail⟩, ?_, ?_, ?_⟩
  · apply Rows.get_filter_of_below users.1 users.2
    decide +kernel
  · apply Rows.get_filter_of_below sessions.1 sessions.2
    decide +kernel
  · apply Rows.get_filter_of_below tokens.1 tokens.2
    decide +kernel

theorem hidden_otherUser : bookOf demo otherUser.world.history.db =
    (bookOf demo twoUsers.world.history.db).hide 1 :=
  withoutAccount_otherUser.hidden (Visit.sound_of_reachable reachable_twoUsers)

theorem blind_callers : ∀ visit ∈ callers,
    visit.Blind demo 1 callers (bookOf demo twoUsers.world.history.db) := by
  have users : ((bookOf demo twoUsers.world.history.db).users "ann").map
      (fun entry => entry.2.passwordHash) = some "secret" ∧
    ((bookOf demo twoUsers.world.history.db).users "bob").map Prod.fst = some 2 ∧
      (bookOf demo twoUsers.world.history.db).tokens "c" = none := by decide +kernel
  obtain ⟨password, second, unissued⟩ := users
  have notFirst : ∀ row, (bookOf demo twoUsers.world.history.db).users "bob" ≠ some (1, row) := by
    intro row found
    rw [found] at second
    cases second
  intro visit member
  simp only [callers, List.mem_cons, List.not_mem_nil, or_false] at member
  rcases member with rfl | rfl | rfl | rfl | rfl
  · intro row found
    have isPassword : row.passwordHash = "secret" :=
      Option.some.inj ((congrArg (Option.map fun entry : ℕ × UserRow => entry.2.passwordHash)
        found).symm.trans password)
    have wrong : ("guess" == row.passwordHash) = false := by rw [isPassword]; decide
    exact wrong
  · trivial
  · trivial
  · refine ⟨fun row found => absurd (found.symm.trans unissued) (by simp), ?_⟩
    intro other listed email row asked found
    simp only [callers, List.mem_cons, List.not_mem_nil, or_false] at listed
    rcases listed with rfl | rfl | rfl | rfl | rfl
    · cases asked
    · decide
    · obtain rfl : "bob" = email := AccountRequest.requestPasswordReset.inj asked
      exact absurd found (notFirst row)
    · cases asked
    · cases asked
  · exact fun row found => absurd found (notFirst row)

theorem spaced_callers' : Visit.Spaced otherUser.world.clock callers := by
  have early : otherUser.world.clock ≤ 1000 := by decide +kernel
  exact ⟨early, by decide, by decide, by decide, by decide, trivial⟩

theorem closed_otherUser : otherUser.Closed :=
  Config.closed_of_closes reachable_otherUser.numbered (by decide +kernel)

/-- The second user cannot tell whether there is a first. -/
theorem account_unseen_of_callers :
    (twoUsers.world.history.db .users).get 1 ≠ (otherUser.world.history.db .users).get 1 ∧
    ∃ replies next next', Visit.Runs demo twoUsers callers replies next ∧
      Visit.Runs demo otherUser callers replies next' ∧
      bookOf demo next'.world.history.db = (bookOf demo next.world.history.db).hide 1 :=
  ⟨first_apart, account_unseen reachable_twoUsers reachable_otherUser closed_twoUsers
    closed_otherUser hidden_otherUser spaced_callers spaced_callers' drawn_callers blind_callers⟩

end Runs

end ReceiptScanner

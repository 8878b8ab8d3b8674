import ReceiptScanner.Accounts.Book

/-!
# Requests do what the book says

Each call of the account service, served by itself, tells its caller what the book tells, and
leaves the book as the specification leaves it.
-/

namespace ReceiptScanner

open ReadCommitted

section Served

variable {setup : Setup} {pause : Pause} {ground : Ground store}

/-- What a whole request leaves, in ten steps at most. -/
structure Served (setup : Setup) (pause : Pause) (ground last : Ground store) (book : Book) :
    Prop where
  sound : last.Sound (schema setup.lower)
  isBook : bookOf setup last.db = book
  clock : ∃ steps ≤ 10, last.clock = pause.past^[steps] ground.clock

/-- What a statement leaves is left by a request that sends no other. -/
theorem Turned.served {last : Ground store} {book : Book}
    (turned : Turned setup pause ground last book) : Served setup pause ground last book :=
  ⟨turned.sound, turned.isBook, 2, by decide, turned.clock⟩

/-- A second statement. -/
theorem Turned.next {middle last : Ground store} {book book' : Book}
    (first : Turned setup pause ground middle book)
    (second : Turned setup pause middle last book') : Served setup pause ground last book' :=
  ⟨second.sound, second.isBook, 4, by decide, by rw [second.clock, first.clock]; rfl⟩

/-- A user in the book has a row. -/
theorem stored_of_found {address : String} {userId : ℕ} {row : UserRow}
    (found : (bookOf setup ground.db).users address = some (userId, row)) :
    (ground.db .users).get userId ≠ none := by
  rw [users_bookOf] at found
  simp [(Rows.get_of_seek found).1]

end Served

namespace AccountRequest

variable {setup : Setup} {answers : (c : Call) → c.Reply} {pause : Pause} {ground : Ground store}

/-- What the book says of a request that begins on this clock: its first statement is the next
step, and takes two steps. -/
def paced (setup : Setup) (answers : (c : Call) → c.Reply) (pause : Pause) (clock : ℕ)
    (book : Book) (request : AccountRequest) : Except Err AccountReply × Book :=
  request.spec setup answers (pause.instant clock) (pause.instant (pause.past (pause.past clock)))
    book

/-- A request does what the book says. -/
def Refines (setup : Setup) (answers : (c : Call) → c.Reply) (pause : Pause)
    (ground : Ground store) (request : AccountRequest) : Prop :=
  ∃ last, Svc.Leads (schema setup.lower) answers pause none (request.task setup) ground
    (request.paced setup answers pause ground.clock (bookOf setup ground.db)).1 last ∧
      Served setup pause ground last
        (request.paced setup answers pause ground.clock (bookOf setup ground.db)).2

theorem refines_login (sound : ground.Sound (schema setup.lower)) (email password : String)
    (fresh : (bookOf setup ground.db).sessions (setup.sha256Hex (answers .generateToken)) = none) :
    Refines setup answers pause ground (.login email password) := by
  obtain ⟨middle, selects, turned⟩ := leads_read answers pause none .db
    (AuthService.selectUser setup email) rfl sound rfl rfl
  rw [AuthService.result_selectUser sound] at selects
  cases found : (bookOf setup ground.db).users (setup.lower email) with
  | none =>
      rw [found] at selects
      have leads : Svc.Leads (schema setup.lower) answers pause none
          (AuthService.login setup email password) ground (.ok none) middle :=
        Svc.leads_bind selects (Svc.leads_pure _)
      simp only [Refines, paced, spec, found]
      exact ⟨middle, Svc.leads_map (f := AccountReply.session) leads, turned.served⟩
  | some entry =>
      obtain ⟨userId, row⟩ := entry
      rw [found] at selects
      have asked : Svc.Leads (schema setup.lower) answers pause none
          (verifyPassword password row.passwordHash) middle
            (.ok (answers (.verifyPassword password row.passwordHash))) middle :=
        Svc.leads_call _ _
      cases right : (answers (.verifyPassword password row.passwordHash) : Bool) with
      | false =>
          rw [right] at asked
          have leads : Svc.Leads (schema setup.lower) answers pause none
              (AuthService.login setup email password) ground (.ok none) middle :=
            Svc.leads_bind selects (Svc.leads_bind asked (Svc.leads_pure _))
          simp only [Refines, paced, spec, found, right]
          exact ⟨middle, Svc.leads_map (f := AccountReply.session) leads, turned.served⟩
      | true =>
          rw [right] at asked
          have drawn : Svc.Leads (schema setup.lower) answers pause none generateToken middle
            (.ok (answers .generateToken)) middle := Svc.leads_call _ _
          have isBook := turned.isBook
          have there : (middle.db .users).get userId ≠ none :=
            stored_of_found ((congrFun (congrArg Book.users isBook) _).trans found)
          obtain ⟨id, last, inserts, opened⟩ := AuthService.leads_insertSession answers pause
            turned.sound there (by rw [isBook]; exact fresh)
          have leads : Svc.Leads (schema setup.lower) answers pause none
              (AuthService.login setup email password) ground
                (.ok (some (answers .generateToken))) last :=
            Svc.leads_bind selects (Svc.leads_bind asked (Svc.leads_bind drawn
              (Svc.leads_bind inserts (Svc.leads_pure _))))
          rw [isBook, turned.clock] at opened
          simp only [Refines, paced, spec, found, right, if_true]
          exact ⟨last, Svc.leads_map (f := AccountReply.session) leads, turned.next opened⟩

theorem refines_validateSession (sound : ground.Sound (schema setup.lower)) (rawToken : String) :
    Refines setup answers pause ground (.validateSession rawToken) := by
  obtain ⟨middle, selects, turned⟩ := leads_read answers pause none .db
    (AuthService.selectSession (setup.sha256Hex rawToken)) rfl sound rfl rfl
  rw [AuthService.result_selectSession sound] at selects
  cases found : (bookOf setup ground.db).sessionUser (pause.instant ground.clock) (setup.sha256Hex rawToken) with
  | none =>
      rw [Ground.now, Option.getD_none, found] at selects
      have leads : Svc.Leads (schema setup.lower) answers pause none
          (AuthService.validateSession setup rawToken) ground (.ok none) middle :=
        Svc.leads_bind selects (Svc.leads_pure _)
      simp only [Refines, paced, spec, found]
      exact ⟨middle, Svc.leads_map (f := AccountReply.user) leads, turned.served⟩
  | some userId =>
      rw [Ground.now, Option.getD_none, found] at selects
      obtain ⟨rows, last, touches, touched⟩ := AuthService.leads_touchSession answers pause
        turned.sound (setup.sha256Hex rawToken)
          (AuthService.kSessionLifetimeSeconds - setup.sessionTouchIntervalSeconds)
      have leads : Svc.Leads (schema setup.lower) answers pause none
          (AuthService.validateSession setup rawToken) ground (.ok (some userId)) last :=
        Svc.leads_bind selects (Svc.leads_bind touches (Svc.leads_pure _))
      rw [turned.isBook, turned.clock] at touched
      simp only [Refines, paced, spec, found]
      exact ⟨last, Svc.leads_map (f := AccountReply.user) leads, turned.next touched⟩

theorem refines_logout (sound : ground.Sound (schema setup.lower)) (rawToken : String) :
    Refines setup answers pause ground (.logout rawToken) := by
  obtain ⟨ids, last, deletes, turned⟩ := AuthService.leads_deleteSessions answers pause none .db rfl
    sound .logout fun row => row.tokenHash == setup.sha256Hex rawToken
  have leads : Svc.Leads (schema setup.lower) answers pause none
      (AuthService.logout setup rawToken) ground (.ok ()) last :=
    Svc.leads_bind deletes (Svc.leads_pure _)
  exact ⟨last, Svc.leads_map (f := fun _ => AccountReply.done) leads, turned.served⟩

theorem refines_requestPasswordReset (sound : ground.Sound (schema setup.lower)) (email : String)
    (fresh : (bookOf setup ground.db).tokens (setup.sha256Hex (answers .generateToken)) = none) :
    Refines setup answers pause ground (.requestPasswordReset email) := by
  obtain ⟨middle, selects, turned⟩ := leads_read answers pause none .db
    (AuthService.selectUser setup email) rfl sound rfl rfl
  rw [AuthService.result_selectUser sound] at selects
  have drawn : Svc.Leads (schema setup.lower) answers pause none generateToken middle
    (.ok (answers .generateToken)) middle := Svc.leads_call _ _
  cases found : (bookOf setup ground.db).users (setup.lower email) with
  | none =>
      rw [found] at selects
      have leads : Svc.Leads (schema setup.lower) answers pause none
          (AuthService.requestPasswordReset setup email) ground (.ok (answers .generateToken))
            middle :=
        Svc.leads_bind selects drawn
      simp only [Refines, paced, spec, found]
      exact ⟨middle, Svc.leads_map (f := AccountReply.token) leads, turned.served⟩
  | some entry =>
      obtain ⟨userId, row⟩ := entry
      rw [found] at selects
      have isBook := turned.isBook
      have there : (middle.db .users).get userId ≠ none :=
        stored_of_found ((congrFun (congrArg Book.users isBook) _).trans found)
      obtain ⟨id, last, inserts, issued⟩ := AuthService.leads_insertToken answers pause
        turned.sound there (by rw [isBook]; exact fresh) .requestPasswordReset .reset (60 * 60)
      have leads : Svc.Leads (schema setup.lower) answers pause none
          (AuthService.requestPasswordReset setup email) ground (.ok (answers .generateToken))
            last :=
        Svc.leads_bind selects (Svc.leads_bind drawn (Svc.leads_bind inserts (Svc.leads_pure _)))
      rw [isBook, turned.clock] at issued
      simp only [Refines, paced, spec, found]
      exact ⟨last, Svc.leads_map (f := AccountReply.token) leads, turned.next issued⟩

theorem refines_confirmEmailVerification (sound : ground.Sound (schema setup.lower))
    (rawToken : String) : Refines setup answers pause ground (.confirmEmailVerification rawToken) := by
  obtain ⟨middle, selects, turned⟩ := leads_read answers pause none .db
    (AuthService.selectToken (setup.sha256Hex rawToken) .verify) rfl sound rfl rfl
  rw [AuthService.result_selectToken sound] at selects
  cases found : (bookOf setup ground.db).tokenUser (pause.instant ground.clock) .verify
      (setup.sha256Hex rawToken) with
  | none =>
      rw [Ground.now, Option.getD_none, found] at selects
      have leads : Svc.Leads (schema setup.lower) answers pause none
          (AuthService.confirmEmailVerification setup rawToken) ground (.ok false) middle :=
        Svc.leads_bind selects (Svc.leads_pure _)
      simp only [Refines, paced, spec, found]
      exact ⟨middle, Svc.leads_map (f := AccountReply.confirmed) leads, turned.served⟩
  | some userId =>
      rw [Ground.now, Option.getD_none, found] at selects
      obtain ⟨rows, after, marks, marked⟩ := AuthService.leads_changeUser answers pause none .db rfl
        turned.sound .verifyEmail userId (fun now row => { row with emailVerifiedAt := some now })
          fun _ _ => rfl
      obtain ⟨ids, last, deletes, spent⟩ := AuthService.leads_deleteTokens answers pause none .db rfl
        marked.sound .dropToken fun row => row.tokenHash == setup.sha256Hex rawToken
      have leads : Svc.Leads (schema setup.lower) answers pause none
          (AuthService.confirmEmailVerification setup rawToken) ground (.ok true) last :=
        Svc.leads_bind selects (Svc.leads_bind marks (Svc.leads_bind deletes (Svc.leads_pure _)))
      have isBook := spent.isBook
      rw [marked.isBook, Option.getD_none, turned.isBook, turned.clock] at isBook
      simp only [Refines, paced, spec, found]
      refine ⟨last, Svc.leads_map (f := AccountReply.confirmed) leads, spent.sound, isBook, 6,
        by decide, ?_⟩
      rw [spent.clock, marked.clock, turned.clock]
      rfl

theorem refines_confirmPasswordReset (sound : ground.Sound (schema setup.lower))
    (rawToken newPassword : String) :
    Refines setup answers pause ground (.confirmPasswordReset rawToken newPassword) := by
  obtain ⟨middle, selects, turned⟩ := leads_read answers pause none .db
    (AuthService.selectToken (setup.sha256Hex rawToken) .reset) rfl sound rfl rfl
  rw [AuthService.result_selectToken sound] at selects
  cases found : (bookOf setup ground.db).tokenUser (pause.instant ground.clock) .reset
      (setup.sha256Hex rawToken) with
  | none =>
      rw [Ground.now, Option.getD_none, found] at selects
      have leads : Svc.Leads (schema setup.lower) answers pause none
          (AuthService.confirmPasswordReset setup rawToken newPassword) ground (.ok false) middle :=
        Svc.leads_bind selects (Svc.leads_pure _)
      simp only [Refines, paced, spec, found]
      exact ⟨middle, Svc.leads_map (f := AccountReply.confirmed) leads, turned.served⟩
  | some userId =>
      rw [Ground.now, Option.getD_none, found] at selects
      have hashed : Svc.Leads (schema setup.lower) answers pause none (hashPassword newPassword) middle
        (answers (.hashPassword newPassword)) middle := Svc.leads_call _ _
      cases hash : (answers (.hashPassword newPassword) : Except Err String) with
      | error raised =>
          rw [hash] at hashed
          have leads : Svc.Leads (schema setup.lower) answers pause none
              (AuthService.confirmPasswordReset setup rawToken newPassword) ground
                (.error raised) middle :=
            Svc.leads_bind selects (Svc.leads_bind_error hashed)
          simp only [Refines, paced, spec, found, hash]
          exact ⟨middle, Svc.leads_map (f := AccountReply.confirmed) leads, turned.served⟩
      | ok newHash =>
          rw [hash] at hashed
          -- The three statements of the transaction, from where it has begun.
          let start := pause.instant middle.clock
          let begun := (middle.paused pause).tick
          have isBegun : begun.Sound (schema setup.lower) := turned.sound.at _
          obtain ⟨rows, first, sets, changed⟩ := AuthService.leads_changeUser answers pause
            (some start) .transaction rfl isBegun .resetPassword userId
              (fun _ row => { row with passwordHash := newHash }) fun _ _ => rfl
          obtain ⟨ids, second, ends, ended⟩ := AuthService.leads_deleteSessions answers pause
            (some start) .transaction rfl changed.sound .dropSessions
              fun row => row.userId == userId
          obtain ⟨ids', third, deletes, spent⟩ := AuthService.leads_deleteTokens answers pause
            (some start) .transaction rfl ended.sound .dropToken
              fun row => row.tokenHash == setup.sha256Hex rawToken
          have leads : Svc.Leads (schema setup.lower) answers pause none
              (AuthService.confirmPasswordReset setup rawToken newPassword) ground (.ok true)
                (third.paused pause).tick :=
            Svc.leads_bind selects (Svc.leads_bind hashed (Svc.leads_transaction
              (Svc.leads_bind sets (Svc.leads_bind ends (Svc.leads_bind deletes
                (Svc.leads_pure _))))))
          have isBook := spent.isBook
          rw [ended.isBook, changed.isBook] at isBook
          have before : bookOf setup begun.db = bookOf setup ground.db := turned.isBook
          rw [before] at isBook
          simp only [Refines, paced, spec, found, hash]
          refine ⟨(third.paused pause).tick, Svc.leads_map (f := AccountReply.confirmed) leads,
            spent.sound.at _, isBook, 10, by decide, ?_⟩
          have later : begun.clock = pause.past middle.clock := rfl
          have last : (third.paused pause).tick.clock = pause.past third.clock := rfl
          rw [last, spent.clock, ended.clock, changed.clock, later, turned.clock]
          rfl

/-- A text that is drawn anew: no session and no auth token has its hash. -/
structure Unused (setup : Setup) (book : Book) (rawToken : String) : Prop where
  session : book.sessions (setup.sha256Hex rawToken) = none
  token : book.tokens (setup.sha256Hex rawToken) = none

/-- Every request does what the book says. -/
theorem refines (sound : ground.Sound (schema setup.lower))
    (request : AccountRequest)
    (unused : request.draws = true → Unused setup (bookOf setup ground.db)
      (answers .generateToken)) : Refines setup answers pause ground request := by
  cases request with
  | login email password => exact refines_login sound email password (unused rfl).session
  | validateSession rawToken => exact refines_validateSession sound rawToken
  | logout rawToken => exact refines_logout sound rawToken
  | requestPasswordReset email => exact refines_requestPasswordReset sound email (unused rfl).token
  | confirmPasswordReset rawToken newPassword =>
      exact refines_confirmPasswordReset sound rawToken newPassword
  | confirmEmailVerification rawToken => exact refines_confirmEmailVerification sound rawToken

end AccountRequest

end ReceiptScanner

import ReceiptScanner.Accounts.Hiding
import ReceiptScanner.Services.AuthForms

/-!
# The forms tell no account from none

What `Accounts.Hiding` says of the service, for the responses of the handlers: a form is turned
away before it reaches the service, for a reason that the database has no part in, or it makes one
account request and its response is made of the reply.
-/

namespace ReceiptScanner

open ReadCommitted AuthController

/-- A form that is sent without a session, or to end one. -/
inductive Form where
  | login (request : LoginRequest)
  | logout (token : String)
  | verifyEmail (body : Json)
  | requestPasswordReset (body : Json)
  | confirmPasswordReset (body : Json)

namespace Form

section Handler

variable (setup : Setup) (cookieSecure : String)

/-- The handler of a form, and the limiters after it. -/
def handler (limiters : LoginLimiters) : Form → Task Reply × LoginLimiters
  | .login request => loginReply setup cookieSecure limiters request
  | .logout token => (AuthController.logout setup token, limiters)
  | .verifyEmail body => (AuthController.verifyEmail setup body, limiters)
  | .requestPasswordReset body => (AuthController.requestPasswordReset setup body, limiters)
  | .confirmPasswordReset body => (AuthController.confirmPasswordReset setup body, limiters)

end Handler

/-- A member of the body that is text. -/
def member (body : Json) (key : String) : Option String :=
  (body.find key).bind fun value => (text value).toOption

/-- The account request in a form that is well formed. -/
def asks : Form → Option AccountRequest
  | .login request => (member request.body "email").bind fun email =>
      (member request.body "password").map fun password => .login email password
  | .logout token => some (.logout token)
  | .verifyEmail body => (member body "token").map .confirmEmailVerification
  | .requestPasswordReset body => (member body "email").map .requestPasswordReset
  | .confirmPasswordReset body => (member body "token").bind fun rawToken =>
      (member body "password").map fun newPassword => .confirmPasswordReset rawToken newPassword

/-- The limiters let through whatever is no login. -/
def passes (limiters : LoginLimiters) : Form → Bool
  | .login request => (member request.body "email").any fun email =>
      (checkRateLimit limiters request.ip email request.atIp request.atAccount).1
  | _ => true

/-- The account request that a form comes to. -/
def sends (limiters : LoginLimiters) (form : Form) : Option AccountRequest :=
  if form.passes limiters then form.asks else none

/-- The response that a login makes of what the service tells it. -/
def answersLogin (cookieSecure : String) : AccountReply → Reply
  | .session (some rawToken) => ⟨okResponse, some (makeSessionCookie cookieSecure rawToken)⟩
  | _ => ⟨errorResponse 401 "invalid_credentials" "wrong email or password", none⟩

/-- That of a form which presents a token. -/
def answersToken (refusal : String) : AccountReply → Reply
  | .confirmed true => ⟨okResponse, none⟩
  | _ => ⟨errorResponse 400 "invalid_token" refusal, none⟩

section Cases

variable {setup : Setup} {sent : Option AccountRequest} {task : Task Reply}

/-- A handler that makes its response of the reply alone. -/
theorem answered {α : Type} {op : Task α} {f : α → AccountReply} {rest : α → Task Reply}
    {respond : AccountReply → Reply} (same : ∀ value, rest value = pure (respond (f value))) :
    op >>= rest = respond <$> f <$> op := by
  rw [← bind_pure_comp, bind_map_left]
  exact congrArg _ (funext same)

/-- How a handler goes on: the form is turned away, or served as an account request. -/
inductive Goes (setup : Setup) (sent : Option AccountRequest) (task : Task Reply) : Prop where
  | turned (result : Except Err Reply) (sends : sent = none) (isTask : task = ofExcept result)
  | served (request : AccountRequest) (respond : AccountReply → Reply)
      (sends : sent = some request) (isTask : task = respond <$> request.task setup)

theorem turned_pure (reply : Reply) (turned : sent = none) : Goes setup sent (pure reply) :=
  .turned (.ok reply) turned rfl

theorem turned_throw (raised : Err) (turned : sent = none) : Goes setup sent (throw raised) :=
  .turned (.error raised) turned rfl

/-- A member that is no text ends the handler. -/
theorem goes_text {value : Json} {rest : String → Task Reply}
    (turned : (text value).toOption = none → sent = none)
    (goesOn : ∀ read, text value = .ok read → Goes setup sent (rest read)) :
    Goes setup sent (ofExcept (text value) >>= rest) := by
  cases isText : text value with
  | error raised => exact turned_throw raised (turned (by rw [isText]; rfl))
  | ok read => exact goesOn read isText

/-- Every handler goes one of the two ways. -/
theorem handler_goes (setup : Setup) (cookieSecure : String) (limiters : LoginLimiters)
    (form : Form) :
    Goes setup (form.sends limiters) (form.handler setup cookieSecure limiters).1 := by
  cases form with
  | login request =>
      simp only [handler, loginReply]
      cases hasEmail : request.body.find "email" with
      | none => exact turned_pure _ (by simp [sends, asks, member, hasEmail])
      | some email =>
      cases hasPassword : request.body.find "password" with
      | none => exact turned_pure _ (by simp [sends, asks, member, hasPassword])
      | some password =>
      cases isEmail : text email with
      | error raised =>
          simpa [isEmail] using turned_throw raised
            (by simp [sends, asks, member, hasEmail, isEmail, Except.toOption])
      | ok email' =>
      cases isPassword : text password with
      | error raised =>
          simpa [isEmail, isPassword] using turned_throw raised
            (by simp [sends, asks, member, hasPassword, isPassword, Except.toOption])
      | ok password' =>
      simp only [isEmail, isPassword]
      split
      · rename_i allowed
        refine .served (.login email' password') (answersLogin cookieSecure)
          (by simp [sends, passes, asks, member, hasEmail, isEmail, hasPassword, isPassword,
            allowed, Except.toOption])
          (answered fun session => ?_)
        cases session <;> rfl
      · rename_i refused
        exact turned_pure _
          (by simp [sends, passes, member, hasEmail, isEmail, refused, Except.toOption])
  | logout token =>
      exact .served (.logout token) (fun _ => ⟨okResponse, some
          { key := "session", value := "", path := "/", maxAge := some 0 }⟩) rfl
        (answered fun _ => rfl)
  | verifyEmail body =>
      simp only [handler, AuthController.verifyEmail, sends, asks, passes, member, if_true]
      cases body.find "token" with
      | none => exact turned_pure _ rfl
      | some token =>
      refine goes_text (fun none => by simp [none]) fun rawToken isToken => ?_
      refine .served (.confirmEmailVerification rawToken)
        (answersToken "verification token is invalid or expired")
        (by simp [isToken, Except.toOption]) (answered fun ok => ?_)
      cases ok <;> rfl
  | requestPasswordReset body =>
      simp only [handler, AuthController.requestPasswordReset, sends, asks, passes, member, if_true]
      cases body.find "email" with
      | none => exact turned_pure _ rfl
      | some email =>
      refine goes_text (fun none => by simp [none]) fun email' isEmail => ?_
      exact .served (.requestPasswordReset email') (fun _ => ⟨okResponse, none⟩)
        (by simp [isEmail, Except.toOption]) (answered fun _ => rfl)
  | confirmPasswordReset body =>
      simp only [handler, AuthController.confirmPasswordReset, sends, asks, passes, member, if_true]
      cases body.find "token" with
      | none => exact turned_pure _ rfl
      | some token =>
      cases body.find "password" with
      | none => exact turned_pure _ (by simp)
      | some password =>
      refine goes_text (fun none => by simp [none]) fun rawToken isToken => ?_
      refine goes_text (fun none => by simp [none]) fun newPassword isPassword => ?_
      refine .served (.confirmPasswordReset rawToken newPassword)
        (answersToken "reset token is invalid or expired")
        (by simp [isToken, isPassword, Except.toOption]) (answered fun ok => ?_)
      cases ok <;> rfl

end Cases

end Form

/-- A form that is filed at an instant, what the libraries answer while it is served, and how
long the steps take. -/
structure Filing where
  form : Form
  time : ℕ
  answers : (c : Call) → c.Reply
  pause : Pause := fun _ => 0

namespace Filing

/-- What the service has to do with a form. -/
def visit (filing : Filing) (limiters : LoginLimiters) : Option Visit :=
  (filing.form.sends limiters).map fun request =>
    ⟨request, filing.time, filing.answers, filing.pause⟩

/-- Each form comes when the one before it has been served. -/
def Spaced : ℕ → List Filing → Prop
  | _, [] => True
  | clock, filing :: rest => clock ≤ filing.time ∧ Spaced (filing.pause.past^[10] filing.time) rest

section Runs

variable (setup : Setup) (cookieSecure : String)

/-- What the service has to do with several. -/
def visits : LoginLimiters → List Filing → List Visit
  | _, [] => []
  | limiters, filing :: rest => (filing.visit limiters).toList ++
      visits (filing.form.handler setup cookieSecure limiters).2 rest

/-- What process `tid` answers to a form that it serves by itself. -/
def carry (tid : ℕ) (limiters : LoginLimiters) (filing : Filing) (world : World store outside) :
    Option (Except Err Reply × Solo store outside) :=
  if world.clock ≤ filing.time then
    (filing.form.handler setup cookieSecure limiters).1.run.alone (schema setup.lower)
      ⟨fun _ => filing.answers, filing.pause⟩ ⟨{ tid := tid }, { world with clock := filing.time }⟩
  else none

/-- The responses to forms that are served one after another, the limiters after them, and what
they leave. A form that is turned away is no process's. -/
def serve : ℕ → LoginLimiters → List Filing → World store outside →
    Option (List (Except Err Reply) × LoginLimiters × World store outside)
  | _, limiters, [], world => some ([], limiters, world)
  | tid, limiters, filing :: rest, world =>
      (filing.carry setup cookieSecure tid limiters world).bind fun carried =>
        (serve (tid + (filing.visit limiters).toList.length)
          (filing.form.handler setup cookieSecure limiters).2 rest carried.2.world).map
            fun served => (carried.1 :: served.1, served.2)

/-- The scheduler serves forms one after another, with these responses. -/
structure Runs (config : Config store outside Job) (limiters : LoginLimiters)
    (filings : List Filing) (replies : List (Except Err Reply)) (left : LoginLimiters)
    (next : Config store outside Job) : Prop where
  /-- What the handlers answer, and what they leave. -/
  told : serve setup cookieSecure config.tids limiters filings config.world =
    some (replies, left, next.world)
  ran : ∃ moves, Config.run (application setup) moves config = some next
  serves : ∃ served, Config.Serves (application setup) config served next ∧
    served.map Prod.fst =
      (visits setup cookieSecure limiters filings).map fun visit => Visit.job visit.request
  closed : next.Closed

end Runs

section Alike

variable {setup : Setup} {cookieSecure : String} {userId : ℕ} {filing : Filing}
  {filings rest : List Filing} {limiters left : LoginLimiters}
  {config config' middle last : Config store outside Job} {replies : List (Except Err Reply)}

theorem Spaced.mono {clock earlier : ℕ} (spaced : Spaced clock filings) (le : earlier ≤ clock) :
    Spaced earlier filings := by
  cases filings with
  | nil => trivial
  | cons filing rest => exact ⟨le.trans spaced.1, spaced.2⟩

/-- A form that is turned away leaves the state as it is. -/
theorem Runs.turned {result : Except Err Reply} (arrived : config.world.clock ≤ filing.time)
    (sends : filing.form.sends limiters = none)
    (isTask : (filing.form.handler setup cookieSecure limiters).1 = ofExcept result)
    (runs : Runs setup cookieSecure
      { config with world := { config.world with clock := filing.time } }
      (filing.form.handler setup cookieSecure limiters).2 rest replies left last) :
    Runs setup cookieSecure config limiters (filing :: rest) (result :: replies) left last := by
  have isVisit : filing.visit limiters = none := by rw [visit, sends]; rfl
  have carried : filing.carry setup cookieSecure config.tids limiters config.world = some (result,
      ⟨{ tid := config.tids }, { config.world with clock := filing.time }⟩) := by
    rw [carry, if_pos arrived, isTask]
    cases result <;> rfl
  obtain ⟨served, serves, jobs⟩ := runs.serves
  have serves := Config.Serves.wait arrived serves
  refine ⟨?_, serves.run, ⟨served, serves, ?_⟩, runs.closed⟩
  · have later := runs.told
    simp only [serve, carried, isVisit, Option.bind_some]
    exact congrArg (Option.map _) later
  · rw [visits, isVisit]
    exact jobs

/-- A form that is let through runs the job of its account request. -/
theorem Runs.served {request : AccountRequest} {respond : AccountReply → Reply}
    {result : Except Err AccountReply}
    (sends : filing.form.sends limiters = some request)
    (isTask : (filing.form.handler setup cookieSecure limiters).1 =
      respond <$> request.task setup)
    (turns : Visit.Turns setup config ⟨request, filing.time, filing.answers, filing.pause⟩ middle)
    (isResult : (Visit.spec setup ⟨request, filing.time, filing.answers, filing.pause⟩
      (bookOf setup config.world.history.db)).1 = result)
    (runs : Runs setup cookieSecure middle (filing.form.handler setup cookieSecure limiters).2 rest
      replies left last) :
    Runs setup cookieSecure config limiters (filing :: rest) (result.map respond :: replies) left
      last := by
  have isVisit : filing.visit limiters =
      some ⟨request, filing.time, filing.answers, filing.pause⟩ := by rw [visit, sends]; rfl
  obtain ⟨after, carried, isWorld⟩ := turns.carried
  rw [isResult] at carried
  have told : filing.carry setup cookieSecure config.tids limiters config.world =
      some (result.map respond, after) := by
    unfold Visit.carry at carried
    split at carried
    · rename_i arrived
      rw [carry, if_pos arrived, isTask]
      exact Svc.alone_map respond carried
    · cases carried
  obtain ⟨served, serves, jobs⟩ := runs.serves
  have serves := Config.Serves.next turns.runs serves
  refine ⟨?_, serves.run, ⟨_, serves, ?_⟩, runs.closed⟩
  · have later := runs.told
    rw [turns.runs.tids, ← isWorld] at later
    simp only [serve, told, isVisit, Option.bind_some, Option.toList_some, List.length_singleton,
      later, Option.map_some]
  · rw [visits, isVisit, List.map_cons, jobs]
    rfl

/-- Forms that are blind to a user are answered alike without the user. -/
theorem runs_alike (sound : (Visit.groundOf config.world).Sound (schema setup.lower))
    (sound' : (Visit.groundOf config'.world).Sound (schema setup.lower))
    (closed : config.Closed) (closed' : config'.Closed)
    (hidden : bookOf setup config'.world.history.db =
      (bookOf setup config.world.history.db).hide userId)
    (spaced : Spaced config.world.clock filings) (spaced' : Spaced config'.world.clock filings)
    (drawn : Visit.Drawn setup (visits setup cookieSecure limiters filings)
      (bookOf setup config.world.history.db))
    (blind : ∀ visit ∈ visits setup cookieSecure limiters filings, visit.Blind setup userId
      (visits setup cookieSecure limiters filings) (bookOf setup config.world.history.db)) :
    ∃ replies left next next', Runs setup cookieSecure config limiters filings replies left next ∧
      Runs setup cookieSecure config' limiters filings replies left next' ∧
      bookOf setup next'.world.history.db = (bookOf setup next.world.history.db).hide userId := by
  induction filings generalizing config config' limiters with
  | nil =>
      exact ⟨[], limiters, config, config',
        ⟨rfl, ⟨[], rfl⟩, ⟨[], @Config.Serves.none _ _ (application setup) config, rfl⟩, closed⟩,
        ⟨rfl, ⟨[], rfl⟩, ⟨[], @Config.Serves.none _ _ (application setup) config', rfl⟩, closed'⟩,
        hidden⟩
  | cons filing rest ih =>
      cases Form.handler_goes setup cookieSecure limiters filing.form with
      | turned result sends isTask =>
          have isRest : visits setup cookieSecure limiters (filing :: rest) =
              visits setup cookieSecure (filing.form.handler setup cookieSecure limiters).2
                rest := by
            rw [visits, visit, sends]
            rfl
          rw [isRest] at drawn blind
          have soon : filing.time ≤ filing.pause.past^[10] filing.time :=
            filing.pause.past_le filing.time (Nat.zero_le 10)
          let waited : Config store outside Job :=
            { config with world := { config.world with clock := filing.time } }
          let waited' : Config store outside Job :=
            { config' with world := { config'.world with clock := filing.time } }
          have ground : (Visit.groundOf waited.world).Sound (schema setup.lower) := sound.at _
          have ground' : (Visit.groundOf waited'.world).Sound (schema setup.lower) := sound'.at _
          obtain ⟨replies, left, next, next', runs, runs', apart⟩ := ih ground ground' closed
            closed' hidden (spaced.2.mono soon) (spaced'.2.mono soon) drawn blind
          exact ⟨_, left, next, next', runs.turned spaced.1 sends isTask,
            runs'.turned spaced'.1 sends isTask, apart⟩
      | served request respond sends isTask =>
          let first : Visit := ⟨request, filing.time, filing.answers, filing.pause⟩
          have isCons : visits setup cookieSecure limiters (filing :: rest) = first ::
              visits setup cookieSecure (filing.form.handler setup cookieSecure limiters).2
                rest := by
            rw [visits, visit, sends]
            rfl
          rw [isCons] at drawn blind
          have unseen := blind first List.mem_cons_self
          obtain ⟨middle, middle', turns, turns', told, hidden'⟩ := Visit.turns_alike sound sound'
            closed closed' hidden spaced.1 spaced'.1
            (drawn.unused first List.mem_cons_self) unseen
          have stays := Visit.stays_spec unseen
          have drawn' := drawn.tail
          rw [← turns.isBook] at drawn' stays
          obtain ⟨replies, left, next, next', runs, runs', apart⟩ := ih turns.sound turns'.sound
            turns.runs.closed turns'.runs.closed hidden' (spaced.2.mono turns.clock)
            (spaced'.2.mono turns'.clock) drawn' fun visit member =>
              (blind visit (List.mem_cons_of_mem _ member)).later stays
          exact ⟨_, left, next, next', runs.served sends isTask turns rfl,
            runs'.served sends isTask turns' told, apart⟩

end Alike

end Filing

section Runs

variable {setup : Setup} {config config' : Config store outside Job} {userId : ℕ}
  {filings : List Filing} {cookieSecure : String} {limiters : LoginLimiters}

/-- Over HTTP, two reachable states without an open transaction that differ in the account of one
user, and in whether there is one at all, give the same responses, cookies and exceptions to any
forms that know nothing of the user and are served one after another at the same pace, and the
same limiters. -/
theorem forms_unseen (reachable : Config.Reachable (application setup) config)
    (reachable' : Config.Reachable (application setup) config')
    (closed : config.Closed) (closed' : config'.Closed)
    (hidden : bookOf setup config'.world.history.db =
      (bookOf setup config.world.history.db).hide userId)
    (spaced : Filing.Spaced config.world.clock filings)
    (spaced' : Filing.Spaced config'.world.clock filings)
    (drawn : Visit.Drawn setup (Filing.visits setup cookieSecure limiters filings)
      (bookOf setup config.world.history.db))
    (blind : ∀ visit ∈ Filing.visits setup cookieSecure limiters filings,
      visit.Blind setup userId (Filing.visits setup cookieSecure limiters filings)
        (bookOf setup config.world.history.db)) :
    ∃ replies left next next',
      Filing.Runs setup cookieSecure config limiters filings replies left next ∧
      Filing.Runs setup cookieSecure config' limiters filings replies left next' ∧
      bookOf setup next'.world.history.db = (bookOf setup next.world.history.db).hide userId :=
  Filing.runs_alike (Visit.sound_of_reachable reachable) (Visit.sound_of_reachable reachable')
    closed closed' hidden spaced spaced' drawn blind

/-- Whether there is an account with an email shows in no response: two reachable states that
differ in that account only, under the same limiters, serve the same forms alike, as long as none
that reaches the service holds the account's password or the text of one of its tokens. -/
theorem no_account_oracle {email : String}
    (reachable : Config.Reachable (application setup) config)
    (reachable' : Config.Reachable (application setup) config')
    (closed : config.Closed) (closed' : config'.Closed)
    (without : WithoutAccount setup email userId config.world.history.db config'.world.history.db)
    (spaced : Filing.Spaced config.world.clock filings)
    (spaced' : Filing.Spaced config'.world.clock filings)
    (drawn : Visit.Drawn setup (Filing.visits setup cookieSecure limiters filings)
      (bookOf setup config.world.history.db))
    (blind : ∀ visit ∈ Filing.visits setup cookieSecure limiters filings,
      visit.Blind setup userId (Filing.visits setup cookieSecure limiters filings)
        (bookOf setup config.world.history.db)) :
    ∃ replies left next next',
      Filing.Runs setup cookieSecure config limiters filings replies left next ∧
      Filing.Runs setup cookieSecure config' limiters filings replies left next' := by
  have sound := Visit.sound_of_reachable reachable
  obtain ⟨replies, left, next, next', runs, runs', -⟩ := Filing.runs_alike sound
    (Visit.sound_of_reachable reachable') closed closed' (without.hidden sound) spaced spaced' drawn
    blind
  exact ⟨replies, left, next, next', runs, runs'⟩

/-- A body with text members. -/
def texts (members : List (String × String)) : Json :=
  .object (members.map fun member => (member.1, .string member.2))

/-- What `callers` ask, over HTTP from one address, and a form without a body at the end. -/
def filed : List Filing :=
  [⟨.login ⟨"ip", texts [("email", "ann"), ("password", "guess")], ⟨0, 0⟩, ⟨1, 1⟩⟩, 1000,
      plainly "a" { kind := "" }, fun _ => 0⟩,
    ⟨.requestPasswordReset (texts [("email", "ann")]), 2000, plainly "b" { kind := "" },
      fun _ => 7⟩,
    ⟨.requestPasswordReset (texts [("email", "bob")]), 3000, plainly "c" { kind := "" },
      fun clock => clock % 5⟩,
    ⟨.confirmPasswordReset (texts [("token", "c"), ("password", "new")]), 4000,
      plainly "d" { kind := "" }, fun _ => 0⟩,
    ⟨.login ⟨"ip", texts [("email", "bob"), ("password", "new")], ⟨2, 2⟩, ⟨3, 3⟩⟩, 5000,
      plainly "e" { kind := "" }, fun _ => 50⟩,
    ⟨.verifyEmail .discarded, 6000, plainly "f" { kind := "" }, fun _ => 0⟩]

theorem visits_filed : Filing.visits demo "true" (loginLimiters 10 300) filed = callers := rfl

theorem spaced_filed : Filing.Spaced twoUsers.world.clock filed :=
  ⟨spaced_callers.1, by decide, by decide, by decide, by decide, by decide, trivial⟩

theorem spaced_filed' : Filing.Spaced otherUser.world.clock filed :=
  ⟨spaced_callers'.1, by decide, by decide, by decide, by decide, by decide, trivial⟩

/-- The guess is refused, and each of the others is told what it would be without the first user. -/
theorem forms_unseen_of_filed :
    (twoUsers.world.history.db .users).get 1 ≠ (otherUser.world.history.db .users).get 1 ∧
    ((Filing.serve demo "true" 2 (loginLimiters 10 300) filed twoUsers.world).map fun served =>
      served.1.map fun reply => reply.toOption.map fun reply => reply.response.status) =
        some [some 401, some 200, some 200, some 200, some 200, some 400] ∧
    ∃ replies left next next',
      Filing.Runs demo "true" twoUsers (loginLimiters 10 300) filed replies left next ∧
      Filing.Runs demo "true" otherUser (loginLimiters 10 300) filed replies left next' ∧
      bookOf demo next'.world.history.db = (bookOf demo next.world.history.db).hide 1 :=
  ⟨first_apart, by decide +kernel, forms_unseen reachable_twoUsers reachable_otherUser
    closed_twoUsers closed_otherUser hidden_otherUser spaced_filed spaced_filed'
    (visits_filed ▸ drawn_callers) (visits_filed ▸ blind_callers)⟩

/-- So it is for an account with the email of the first user. -/
theorem no_account_oracle_of_filed : ∃ replies left next next',
    Filing.Runs demo "true" twoUsers (loginLimiters 10 300) filed replies left next ∧
    Filing.Runs demo "true" otherUser (loginLimiters 10 300) filed replies left next' :=
  no_account_oracle reachable_twoUsers reachable_otherUser closed_twoUsers closed_otherUser
    withoutAccount_otherUser spaced_filed spaced_filed' (visits_filed ▸ drawn_callers)
    (visits_filed ▸ blind_callers)

end Runs

end ReceiptScanner

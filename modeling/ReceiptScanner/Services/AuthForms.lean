import ReceiptScanner.Services.AuthController

/-!
# The account forms over HTTP

The handlers of `AuthController` that a caller without a session reaches, with the cookies they
set. What they log is left out.
-/

namespace ReceiptScanner

open ReadCommitted

namespace AuthController

/-- `drogon::Cookie::SameSite`. -/
inductive SameSite where
  | kNull
  | kLax
  | kStrict
  | kNone

/-- A cookie. What a handler does not set is as the library makes it. -/
structure Cookie where
  key : String
  value : String
  httpOnly : Bool := true
  secure : Bool := false
  sameSite : SameSite := .kNull
  path : String := ""
  maxAge : Option ℤ := none

/-- A response, and the cookie it sets. -/
structure Reply where
  response : Response
  cookie : Option Cookie := none

/-- The cookie of a new session, under `COOKIE_SECURE`. -/
def makeSessionCookie (cookieSecure rawToken : String) : Cookie where
  key := "session"
  value := rawToken
  httpOnly := true
  secure := cookieSecure == "true"
  sameSite := .kLax
  path := "/"
  maxAge := some AuthService.kSessionLifetimeSeconds

/-- The body of a response that has nothing to tell. -/
def okResponse : Response := ⟨200, .object [("status", .string "ok")]⟩

/-- `get<std::string>()` on a member of the body. -/
def text : Json → Except Err String
  | .string value => .ok value
  | _ => .error (.runtime "type must be string")

/-- What remains of a login that the limiters have let through, with its cookie. -/
def replyLogin (setup : Setup) (cookieSecure email password : String) : Task Reply := do
  let session ← AuthService.login setup email password
  match session with
  | none => pure ⟨errorResponse 401 "invalid_credentials" "wrong email or password", none⟩
  | some rawToken => pure ⟨okResponse, some (makeSessionCookie cookieSecure rawToken)⟩

/-- `login`, with the cookie. -/
def loginReply (setup : Setup) (cookieSecure : String) (limiters : LoginLimiters)
    (request : LoginRequest) : Task Reply × LoginLimiters :=
  match request.body.find "email", request.body.find "password" with
  | some email, some password =>
      match text email, text password with
      | .ok email, .ok password =>
          let (allowed, limiters) :=
            checkRateLimit limiters request.ip email request.atIp request.atAccount
          (if allowed then replyLogin setup cookieSecure email password
            else pure ⟨errorResponse 429 "rate_limited" "too many login attempts", none⟩, limiters)
      | .error raised, _ | _, .error raised => (throw raised, limiters)
  | _, _ =>
      (pure ⟨errorResponse 400 "invalid_request" "email and password are required", none⟩,
        limiters)

/-- `logout`, with the token of the request's cookie. -/
def logout (setup : Setup) (token : String) : Task Reply := do
  AuthService.logout setup token
  pure ⟨okResponse, some { key := "session", value := "", path := "/", maxAge := some 0 }⟩

/-- `verifyEmail`, with the token of the request's body. -/
def verifyEmail (setup : Setup) (body : Json) : Task Reply :=
  match body.find "token" with
  | none => pure ⟨errorResponse 400 "invalid_request" "token is required", none⟩
  | some token => do
      let rawToken ← ofExcept (text token)
      let ok ← AuthService.confirmEmailVerification setup rawToken
      if ok then pure ⟨okResponse, none⟩
      else pure ⟨errorResponse 400 "invalid_token" "verification token is invalid or expired", none⟩

/-- `requestPasswordReset`, with the address of the request's body. -/
def requestPasswordReset (setup : Setup) (body : Json) : Task Reply :=
  match body.find "email" with
  | none => pure ⟨errorResponse 400 "invalid_request" "email is required", none⟩
  | some email => do
      let email ← ofExcept (text email)
      let _resetToken ← AuthService.requestPasswordReset setup email
      -- The same response whether the address is known or not.
      pure ⟨okResponse, none⟩

/-- `confirmPasswordReset`, with the token and the new password of the request's body. -/
def confirmPasswordReset (setup : Setup) (body : Json) : Task Reply :=
  match body.find "token", body.find "password" with
  | some token, some password => do
      let rawToken ← ofExcept (text token)
      let newPassword ← ofExcept (text password)
      let ok ← AuthService.confirmPasswordReset setup rawToken newPassword
      if ok then pure ⟨okResponse, none⟩
      else pure ⟨errorResponse 400 "invalid_token" "reset token is invalid or expired", none⟩
  | _, _ => pure ⟨errorResponse 400 "invalid_request" "token and password are required", none⟩

/-- Without the cookie, a login is answered as `login` answers it. -/
theorem response_loginReply (setup : Setup) (cookieSecure : String) (limiters : LoginLimiters)
    (request : LoginRequest) :
    Reply.response <$> (loginReply setup cookieSecure limiters request).1 =
        (login setup limiters request).1 ∧
      (loginReply setup cookieSecure limiters request).2 = (login setup limiters request).2 := by
  have answered (email password : String) : Reply.response <$>
      replyLogin setup cookieSecure email password = answerLogin setup email password := by
    simp only [replyLogin, answerLogin, map_bind]
    congr 1
    funext session
    cases session <;> rfl
  unfold loginReply login
  rcases request.body.find "email" with _ | email <;>
    rcases request.body.find "password" with _ | password
  · exact ⟨rfl, rfl⟩
  · exact ⟨rfl, rfl⟩
  · cases email <;> exact ⟨rfl, rfl⟩
  · cases email <;> cases password <;> try exact ⟨rfl, rfl⟩
    rename_i email password
    refine ⟨?_, rfl⟩
    cases allowed : (checkRateLimit limiters request.ip email request.atIp request.atAccount).1 with
    | true => simpa [text, allowed] using answered email password
    | false =>
        simp only [text, allowed]
        rfl

end AuthController

end ReceiptScanner

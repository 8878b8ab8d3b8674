import ReceiptScanner.Services.AuthService

/-!
# Login over HTTP

The in-memory limiters of `RateLimiter.h` and the controller that asks them before it
calls `AuthService::login`. Instants of the steady clock are in nanoseconds.
-/

namespace ReceiptScanner

open ReadCommitted

/-- The window of one key. -/
structure RateLimiter.Entry where
  windowStart : ℤ
  count : ℕ := 0

/-- A fixed-window limiter; `window` is in seconds. -/
structure RateLimiter where
  maxAttempts : ℤ
  window : ℤ
  attempts : String → Option RateLimiter.Entry := fun _ => none

/-- What one call of `allow` reads from the clock: on entry, and, for a key it has not
met, once more when the entry is made. -/
structure Reading where
  now : ℤ
  made : ℤ

namespace RateLimiter

variable (limiter : RateLimiter)

/-- The window in ticks of the clock, to which the comparison converts it. The window is an
`int64_t` of seconds and the ticks are one of nanoseconds: what it does not hold (undefined
behaviour of the source) wraps around, as compiled code does. -/
def span : ℤ := (limiter.window * 1000000000).bmod (2 ^ 64)

/-- The entry of a key after one more attempt. -/
def charged (key : String) (reading : Reading) : Entry :=
  let entry := (limiter.attempts key).getD { windowStart := reading.made }
  let entry := if limiter.span < reading.now - entry.windowStart then
    { windowStart := reading.now } else entry
  { entry with count := entry.count + 1 }

/-- Record one attempt, and tell whether it is within the limit. -/
def allow (key : String) (reading : Reading) : Bool × RateLimiter :=
  let entry := limiter.charged key reading
  (entry.count ≤ limiter.maxAttempts,
    { limiter with attempts := Function.update limiter.attempts key (some entry) })

end RateLimiter

namespace AuthController

/-- A response without its cookie. -/
structure Response where
  status : ℕ
  body : Json

/-- The body of every error response. -/
def errorResponse (status : ℕ) (code message : String) : Response :=
  ⟨status, .object [("error", .object [("code", .string code), ("message", .string message)])]⟩

/-- The two limiters of login. -/
structure LoginLimiters where
  byIp : RateLimiter
  byAccount : RateLimiter

/-- The limiters of a new process, under `RATE_LIMIT_MAX_ATTEMPTS` and
`RATE_LIMIT_WINDOW_SECONDS`. -/
def loginLimiters (maxAttempts window : ℤ) : LoginLimiters where
  byIp := { maxAttempts := maxAttempts, window := window }
  byAccount := { maxAttempts := maxAttempts, window := window }

/-- Both limiters record the attempt, and both must allow it. -/
def checkRateLimit (limiters : LoginLimiters) (ip email : String) (atIp atAccount : Reading) :
    Bool × LoginLimiters :=
  let (ipOk, byIp) := limiters.byIp.allow ip atIp
  let (accountOk, byAccount) := limiters.byAccount.allow email atAccount
  (ipOk && accountOk, ⟨byIp, byAccount⟩)

/-- A login request, with the readings of the two limiters. -/
structure LoginRequest where
  ip : String
  body : Json
  atIp : Reading
  atAccount : Reading

/-- What remains of a login once the limiters have let it through. -/
def answerLogin (setup : Setup) (email password : String) : Task Response := do
  let session ← AuthService.login setup email password
  match session with
  | none => pure (errorResponse 401 "invalid_credentials" "wrong email or password")
  | some _ => pure ⟨200, .object [("status", .string "ok")]⟩

/-- `POST` of the login form: what the handler goes on to do, and the limiters after it.
A member that is no string throws out of the handler. -/
def login (setup : Setup) (limiters : LoginLimiters) (request : LoginRequest) :
    Task Response × LoginLimiters :=
  match request.body.find "email", request.body.find "password" with
  | some (.string email), some (.string password) =>
      let (allowed, limiters) :=
        checkRateLimit limiters request.ip email request.atIp request.atAccount
      (if allowed then answerLogin setup email password
        else pure (errorResponse 429 "rate_limited" "too many login attempts"), limiters)
  | some _, some _ => (throw (.runtime "type must be string"), limiters)
  | _, _ =>
      (pure (errorResponse 400 "invalid_request" "email and password are required"), limiters)

end AuthController

end ReceiptScanner

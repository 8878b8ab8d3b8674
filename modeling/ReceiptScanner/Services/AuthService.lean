import ReceiptScanner.Store.Task

/-!
# Accounts

Registration with its seeds, sessions, and the two kinds of auth token.
-/

namespace ReceiptScanner

open ReadCommitted

namespace AuthService

/-- `kExpenseCategories`. -/
def kExpenseCategories : List String :=
  ["groceries", "dining/takeaway", "transport", "fuel", "household", "utilities", "subscriptions",
    "insurance", "health", "clothing", "entertainment", "gifts", "fees", "bonds/deposits",
    "rewards", "work-expenses", "junk food", "hobby", "other"]

/-- `kIncomeCategories`. -/
def kIncomeCategories : List String :=
  ["salary", "interest", "dividends/distributions", "other-income"]

/-- `kDefaultPaymentMethod`. -/
def kDefaultPaymentMethod : String := "cash"

/-- `kSessionLifetimeSeconds`. -/
def kSessionLifetimeSeconds : ℕ := 30 * 24 * 60 * 60

section Statements

/-- INSERT INTO users (email, password_hash) VALUES ($1, $2) RETURNING id -/
def insertUser (email passwordHash : String) : Stmt store ℕ :=
  .insert .registerUser .users fun _ => { email := email, passwordHash := passwordHash }

/-- INSERT INTO categories (user_id, name, is_income) VALUES ($1, $2, ...) -/
def seedCategory (userId : ℕ) (isIncome : Bool) (name : String) : Stmt store ℕ :=
  .insert .seedCategory .categories fun _ =>
    { userId := userId, name := name, isIncome := isIncome }

/-- INSERT INTO payment_methods (user_id, name, stored_value) VALUES ($1, $2, false) -/
def seedPaymentMethod (userId : ℕ) (name : String) : Stmt store ℕ :=
  .insert .seedPaymentMethod .paymentMethods fun _ =>
    { userId := userId, name := name, storedValue := false }

/-- SELECT id, password_hash FROM users WHERE email = $1 -/
def selectUser (setup : Setup) (email : String) : Stmt store (List (ℕ × String)) :=
  .select none .users (fun _ _ (row : UserRow) => setup.lower row.email == setup.lower email)
    fun _ id (row : UserRow) => (id, row.passwordHash)

/-- INSERT INTO sessions (user_id, token_hash, expires_at) VALUES ($1, $2, now() + $3) -/
def insertSession (userId : ℕ) (tokenHash : String) : Stmt store ℕ :=
  .insert .login .sessions fun now =>
    { userId := userId, tokenHash := tokenHash
      expiresAt := now + kSessionLifetimeSeconds * 1000000 }

/-- SELECT user_id FROM sessions WHERE token_hash = $1 AND expires_at > now() -/
def selectSession (tokenHash : String) : Stmt store (List ℕ) := .query fun now db =>
  ((db .sessions).list.filter fun (_, row) => row.tokenHash == tokenHash && now < row.expiresAt).map
    fun (_, row) => row.userId

/-- UPDATE sessions SET expires_at = now() + $2 WHERE token_hash = $1 AND expires_at < now() + $3 -/
def touchSession (tokenHash : String) (refreshThresholdSeconds : ℤ) : Stmt store (List Unit) :=
  fun ctx => Stmt.update .touchSession .sessions
    (fun _ _ (row : SessionRow) => row.tokenHash == tokenHash &&
      (row.expiresAt : ℤ) < ctx.now + seconds refreshThresholdSeconds)
    (fun now (row : SessionRow) =>
      { row with expiresAt := now + kSessionLifetimeSeconds * 1000000 }) (fun _ _ => ()) ctx

/-- DELETE FROM sessions WHERE token_hash = $1 -/
def deleteSession (setup : Setup) (tokenHash : String) : Stmt store (List ℕ) :=
  .delete (schema setup.lower) .logout .sessions fun _ _ (row : SessionRow) =>
    row.tokenHash == tokenHash

/-- INSERT INTO auth_tokens (user_id, token_hash, purpose, expires_at) VALUES (...) -/
def insertToken (label : Label) (userId : ℕ) (tokenHash : String) (purpose : Purpose)
    (lifetimeSeconds : ℕ) : Stmt store ℕ :=
  .insert label .authTokens fun now =>
    { userId := userId, tokenHash := tokenHash, purpose := purpose
      expiresAt := now + lifetimeSeconds * 1000000 }

/-- SELECT user_id FROM auth_tokens WHERE token_hash = $1 AND purpose = ... AND expires_at > now() -/
def selectToken (tokenHash : String) (purpose : Purpose) : Stmt store (List ℕ) :=
  .query fun now db =>
    ((db .authTokens).list.filter fun (_, row) =>
        row.tokenHash == tokenHash && row.purpose == purpose && now < row.expiresAt).map
      fun (_, row) => row.userId

/-- UPDATE users SET password_hash = $1 WHERE id = $2 -/
def updatePassword (userId : ℕ) (passwordHash : String) : Stmt store (List Unit) :=
  .update .resetPassword .users (fun _ id _ => id == userId)
    (fun _ (row : UserRow) => { row with passwordHash := passwordHash }) fun _ _ => ()

/-- DELETE FROM sessions WHERE user_id = $1 -/
def deleteSessionsOf (setup : Setup) (userId : ℕ) : Stmt store (List ℕ) :=
  .delete (schema setup.lower) .dropSessions .sessions fun _ _ (row : SessionRow) =>
    row.userId == userId

/-- DELETE FROM auth_tokens WHERE token_hash = $1 -/
def deleteToken (setup : Setup) (tokenHash : String) : Stmt store (List ℕ) :=
  .delete (schema setup.lower) .dropToken .authTokens fun _ _ (row : AuthTokenRow) =>
    row.tokenHash == tokenHash

/-- UPDATE users SET email_verified_at = now() WHERE id = $1 -/
def verifyEmail (userId : ℕ) : Stmt store (List Unit) :=
  .update .verifyEmail .users (fun _ id _ => id == userId)
    (fun now (row : UserRow) => { row with emailVerifiedAt := some now }) fun _ _ => ()

end Statements

/-- A duplicate email is rethrown as such. -/
def duplicateEmail {α : Type} (body : Task α) : Task α :=
  tryCatch body fun raised =>
    if raised.isDuplicateKey then throw .duplicateEmail else throw raised

/-- Create the user with its own categories and payment method. -/
def registerUser (email password : String) : Task ℕ := do
  let passwordHash ← hashPassword password
  withTransaction (duplicateEmail (rollingBack do
    let userId ← execSql .transaction (insertUser email passwordHash)
    kExpenseCategories.forM fun name => do
      let _ ← execSql .transaction (seedCategory userId false name)
    kIncomeCategories.forM fun name => do
      let _ ← execSql .transaction (seedCategory userId true name)
    let _ ← execSql .transaction (seedPaymentMethod userId kDefaultPaymentMethod)
    pure userId))

/-- A session token for the right password. -/
def login (setup : Setup) (email password : String) : Task (Option String) := do
  let result ← execSql .db (selectUser setup email)
  match result with
  | [] => pure none
  | (userId, storedHash) :: _ => do
      let verified ← verifyPassword password storedHash
      if verified then do
        let rawToken ← generateToken
        let _ ← execSql .db (insertSession userId (setup.sha256Hex rawToken))
        pure (some rawToken)
      else pure none

/-- The user of a live session, which is extended when it is due. -/
def validateSession (setup : Setup) (rawToken : String) : Task (Option ℕ) := do
  let tokenHash := setup.sha256Hex rawToken
  let result ← execSql .db (selectSession tokenHash)
  match result with
  | [] => pure none
  | userId :: _ => do
      let _ ← execSql .db (touchSession tokenHash
        (kSessionLifetimeSeconds - setup.sessionTouchIntervalSeconds))
      pure (some userId)

/-- End a session. -/
def logout (setup : Setup) (rawToken : String) : Task Unit := do
  let _ ← execSql .db (deleteSession setup (setup.sha256Hex rawToken))

/-- A reset token, whether or not the account exists. -/
def requestPasswordReset (setup : Setup) (email : String) : Task String := do
  let result ← execSql .db (selectUser setup email)
  match result with
  | [] => generateToken
  | (userId, _) :: _ => do
      let rawToken ← generateToken
      let _ ← execSql .db
        (insertToken .requestPasswordReset userId (setup.sha256Hex rawToken) .reset (60 * 60))
      pure rawToken

/-- Set a new password and end every session. The transaction is not rolled back
by hand. -/
def confirmPasswordReset (setup : Setup) (rawToken newPassword : String) : Task Bool := do
  let tokenHash := setup.sha256Hex rawToken
  let result ← execSql .db (selectToken tokenHash .reset)
  match result with
  | [] => pure false
  | userId :: _ => do
      let newHash ← hashPassword newPassword
      withTransaction do
        let _ ← execSql .transaction (updatePassword userId newHash)
        let _ ← execSql .transaction (deleteSessionsOf setup userId)
        let _ ← execSql .transaction (deleteToken setup tokenHash)
        pure true

/-- A verification token. -/
def requestEmailVerification (setup : Setup) (userId : ℕ) : Task String := do
  let rawToken ← generateToken
  let _ ← execSql .db (insertToken .requestEmailVerification userId (setup.sha256Hex rawToken)
    .verify (24 * 60 * 60))
  pure rawToken

/-- Mark the address verified. -/
def confirmEmailVerification (setup : Setup) (rawToken : String) : Task Bool := do
  let tokenHash := setup.sha256Hex rawToken
  let result ← execSql .db (selectToken tokenHash .verify)
  match result with
  | [] => pure false
  | userId :: _ => do
      let _ ← execSql .db (verifyEmail userId)
      let _ ← execSql .db (deleteToken setup tokenHash)
      pure true

end AuthService

end ReceiptScanner

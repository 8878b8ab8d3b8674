import ReceiptScanner.Runs.Verified
import ReceiptScanner.Accounts.Limits

/-!
# How often a password can be tried

Login keys its limiter by the email as it was sent, while the database compares emails
without regard to case. So what the limiter bounds in any interval no longer than its
window is the attempts with one spelling.
-/

namespace ReceiptScanner

open ReadCommitted

/-- A statement reads this database. -/
def reading (db : Db store) : Ctx store where
  snap := db
  cur := db
  now := 0
  clock := 0
  next _ := 0
  others := []

/-- The first outside call of a program whose statements up to then read `db`. -/
def firstCall {α : Type} (db : Db store) : Routine α → Option Call
  | .done _ => none
  | .exec _ stmt next => firstCall db (next (.ok (stmt (reading db)).result))
  | .beginTxn next => firstCall db (next (.ok ()))
  | .commit next => firstCall db next
  | .rollback next => firstCall db next
  | .call c _ => some c

namespace AuthController

/-- A login request, and the database that its lookup reads. -/
structure Arrival where
  request : LoginRequest
  db : Db store

namespace Arrival

variable (setup : Setup) (arrival : Arrival)

/-- When the request came. -/
def time : ℤ := arrival.request.atAccount.now

/-- The email as it was sent. -/
def email : Option String :=
  match arrival.request.body.find "email" with
  | some (.string email) => some email
  | _ => none

/-- What the request charges the account limiter with. -/
def attempt : Option RateLimiter.Attempt :=
  match arrival.request.body.find "email", arrival.request.body.find "password" with
  | some (.string email), some (.string _) => some ⟨email, arrival.request.atAccount⟩
  | _, _ => none

/-- The email is the account's, as the database compares emails. -/
def resolves (account : ℕ) : Bool :=
  arrival.email.any fun email =>
    ((AuthService.selectUser setup email (reading arrival.db)).result.head?).any (·.1 == account)

/-- The handler goes on to `PasswordHasher::verify`. -/
def reachesVerify (task : Task Response) : Bool :=
  (firstCall arrival.db task.run).any fun
    | .verifyPassword _ _ => true
    | _ => false

end Arrival

/-- The requests of a sequence that reach `PasswordHasher::verify`. -/
def verified (setup : Setup) : LoginLimiters → List Arrival → List Arrival
  | _, [] => []
  | limiters, arrival :: rest =>
      let (task, limiters) := login setup limiters arrival.request
      if arrival.reachesVerify task then arrival :: verified setup limiters rest
      else verified setup limiters rest

section Bound

variable {setup : Setup} {limiters : LoginLimiters} {arrival : Arrival} {arrivals : List Arrival}
  {key : String} {opens closes : ℤ}

/-- The request came in the interval, with this email. -/
def Arrival.within (key : String) (opens closes : ℤ) (arrival : Arrival) : Bool :=
  arrival.email == some key && opens ≤ arrival.time && arrival.time ≤ closes

theorem Arrival.sent_of_attempt {attempt : RateLimiter.Attempt}
    (charged : arrival.attempt = some attempt) :
    ∃ email password, arrival.request.body.find "email" = some (.string email) ∧
      arrival.request.body.find "password" = some (.string password) ∧
      attempt = ⟨email, arrival.request.atAccount⟩ := by
  unfold Arrival.attempt at charged
  split at charged
  · rename_i email password sentEmail sentPassword
    exact ⟨email, password, sentEmail, sentPassword, (Option.some.inj charged).symm⟩
  · exact absurd charged nofun

theorem Arrival.now_of_attempt {attempt : RateLimiter.Attempt}
    (charged : arrival.attempt = some attempt) : attempt.reading.now = arrival.time := by
  obtain ⟨email, password, -, -, rfl⟩ := Arrival.sent_of_attempt charged
  rfl

/-- A request charges the account limiter for its email or not at all, and it reaches the
verification only if that limiter allows it. -/
theorem login_cases (setup : Setup) (limiters : LoginLimiters) (arrival : Arrival) :
    (arrival.attempt = none ∧
      (login setup limiters arrival.request).2.byAccount = limiters.byAccount ∧
      arrival.reachesVerify (login setup limiters arrival.request).1 = false) ∨
    ∃ email, arrival.email = some email ∧
      arrival.attempt = some ⟨email, arrival.request.atAccount⟩ ∧
      (login setup limiters arrival.request).2.byAccount =
        (limiters.byAccount.allow email arrival.request.atAccount).2 ∧
      (arrival.reachesVerify (login setup limiters arrival.request).1 = true →
        (limiters.byAccount.allow email arrival.request.atAccount).1 = true) := by
  cases charged : arrival.attempt with
  | none =>
      refine Or.inl ⟨rfl, ?_⟩
      unfold login
      split
      · rename_i email password sentEmail sentPassword
        simp [Arrival.attempt, sentEmail, sentPassword] at charged
      · exact ⟨rfl, rfl⟩
      · exact ⟨rfl, rfl⟩
  | some attempt =>
      obtain ⟨email, password, sentEmail, sentPassword, rfl⟩ := Arrival.sent_of_attempt charged
      refine Or.inr ⟨email, by simp [Arrival.email, sentEmail], rfl, ?_⟩
      simp only [login, sentEmail, sentPassword]
      refine ⟨rfl, fun reaches => ?_⟩
      by_contra refused
      simp [checkRateLimit, refused, Arrival.reachesVerify, firstCall] at reaches

/-- Only requests of the sequence get through. -/
theorem mem_of_mem_verified (passed : arrival ∈ verified setup limiters arrivals) :
    arrival ∈ arrivals := by
  induction arrivals generalizing limiters with
  | nil => simp [verified] at passed
  | cons first rest ih =>
      simp only [verified] at passed
      split at passed
      · exact (List.mem_cons.mp passed).elim (· ▸ List.mem_cons_self)
          fun later => List.mem_cons_of_mem _ (ih later)
      · exact List.mem_cons_of_mem _ (ih passed)

/-- What gets through with an email is what the account limiter lets through for it. -/
theorem verified_le_passed (setup : Setup) (limiters : LoginLimiters) (key : String)
    (opens closes : ℤ) :
    (verified setup limiters arrivals).countP (Arrival.within key opens closes) ≤
      (limiters.byAccount.answers (arrivals.filterMap Arrival.attempt)).countP
        (RateLimiter.passes key opens closes) := by
  induction arrivals generalizing limiters with
  | nil => exact le_rfl
  | cons first rest inductionHypothesis =>
      have others := inductionHypothesis (login setup limiters first.request).2
      simp only [verified]
      rcases login_cases setup limiters first with
        ⟨uncharged, same, unreached⟩ | ⟨email, sent, charged, same, allowed⟩
      · rw [same] at others
        rwa [if_neg (by simp [unreached]), List.filterMap_cons_none uncharged]
      · rw [same] at others
        rw [List.filterMap_cons_some charged, RateLimiter.answers, List.countP_cons]
        split
        · rename_i reaches
          rw [List.countP_cons]
          refine Nat.add_le_add others ?_
          by_cases inside : Arrival.within key opens closes first = true
          · have passes : RateLimiter.passes key opens closes (⟨email, first.request.atAccount⟩,
                (limiters.byAccount.allow email first.request.atAccount).1) = true := by
              simp only [Arrival.within, sent, Bool.and_eq_true, decide_eq_true_eq] at inside
              obtain ⟨⟨isKey, after⟩, before⟩ := inside
              simp only [RateLimiter.passes, allowed reaches, Bool.true_and, Bool.and_eq_true,
                decide_eq_true_eq]
              exact ⟨⟨by simpa using isKey, after⟩, before⟩
            rw [if_pos inside, if_pos passes]
          · rw [if_neg inside]
            exact Nat.zero_le _
        · exact others.trans (Nat.le_add_right _ _)

/-- In an interval no longer than the window, a spelling of an email gets through at most
`2 * maxAttempts` times. -/
theorem verified_le (setup : Setup) (limiters : LoginLimiters) (key : String)
    (sorted : arrivals.Pairwise (·.time ≤ ·.time))
    (short : closes ≤ opens + limiters.byAccount.span) :
    (verified setup limiters arrivals).countP (Arrival.within key opens closes) ≤
      2 * limiters.byAccount.maxAttempts.toNat := by
  refine (verified_le_passed setup limiters key opens closes).trans
    (RateLimiter.passed_le limiters.byAccount key ?_ short)
  refine List.Pairwise.filterMap Arrival.attempt (fun first second ordered => ?_) sorted
  intro attempt isFirst attempt' isSecond
  rwa [Arrival.now_of_attempt isFirst, Arrival.now_of_attempt isSecond]

/-- The request came in the interval, and its email resolves to the account. -/
def Arrival.against (setup : Setup) (account : ℕ) (opens closes : ℤ) (arrival : Arrival) : Bool :=
  arrival.resolves setup account && opens ≤ arrival.time && arrival.time ≤ closes

/-- In any interval no longer than the window, the password of an account is tried at most
`2 * maxAttempts` times, if the clock holds the window and all requests of the interval that
resolve to the account spell its email the same. -/
theorem attempts_bounded (setup : Setup) (maxAttempts window : ℤ)
    (fits : window * 1000000000 < 2 ^ 63) (arrivals : List Arrival)
    (sorted : arrivals.Pairwise (·.time ≤ ·.time)) (account : ℕ) (opens closes : ℤ)
    (short : closes - opens ≤ window * 1000000000)
    (spelled : ∀ first ∈ arrivals, ∀ second ∈ arrivals,
      first.against setup account opens closes = true →
      second.against setup account opens closes = true → first.email = second.email) :
    (verified setup (loginLimiters maxAttempts window) arrivals).countP
      (Arrival.against setup account opens closes) ≤ 2 * maxAttempts.toNat := by
  by_cases any : ∃ first ∈ arrivals, first.against setup account opens closes = true
  · have held : RateLimiter.Holds window := by
      obtain ⟨first, -, counted⟩ := any
      simp only [Arrival.against, Bool.and_eq_true, decide_eq_true_eq] at counted
      exact ⟨by omega, fits⟩
    obtain ⟨first, member, counted⟩ := any
    obtain ⟨key, sent⟩ : ∃ key, first.email = some key := by
      simp only [Arrival.against, Arrival.resolves, Bool.and_eq_true, Option.any_eq_true] at counted
      obtain ⟨⟨⟨key, sent, -⟩, -⟩, -⟩ := counted
      exact ⟨key, sent⟩
    have near : closes ≤ opens + (loginLimiters maxAttempts window).byAccount.span := by
      rw [RateLimiter.span_eq held]
      simp only [loginLimiters]
      omega
    have bound := verified_le setup (loginLimiters maxAttempts window) key sorted near
    refine le_trans (List.countP_mono_left fun arrival passed against => ?_) bound
    have same := spelled arrival (mem_of_mem_verified passed) first member against counted
    simp only [Arrival.against, Bool.and_eq_true] at against
    simp [Arrival.within, same, sent, against.1.2, against.2]
  · rw [List.countP_eq_zero.mpr fun arrival passed counted =>
      any ⟨arrival, mem_of_mem_verified passed, counted⟩]
    exact Nat.zero_le _

end Bound

section Demo

/-- A server that lowers one name. -/
def lowering : Setup :=
  { demo with lower := fun text => if text = "Ann" ∨ text = "ANN" then "ann" else text }

/-- The database after one registration. -/
@[irreducible] def registered : Db store :=
  History.db (Config.ran (application lowering) (registering 0 "ann" "secret")
    (by decide +kernel)).world.history

/-- Somebody tries this spelling from this address. -/
def trying (ip email : String) (instant : ℤ) : Arrival where
  request :=
    { ip := ip
      body := .object [("email", .string email), ("password", .string "guess")]
      atIp := ⟨instant, instant⟩
      atAccount := ⟨instant, instant⟩ }
  db := registered

theorem attempts_bounded_of_trying :
    (verified lowering (loginLimiters 1 300) [trying "a" "ann" 0, trying "b" "ann" 1]).countP
      (Arrival.against lowering 1 0 1) ≤ 2 :=
  attempts_bounded lowering 1 300 (by decide) [trying "a" "ann" 0, trying "b" "ann" 1]
    (by decide +kernel) 1 0 1 (by decide) (by decide +kernel)

/-- Three spellings, each once, are three attempts where two are allowed. -/
theorem not_attempts_bounded_of_trying :
    ¬ ∀ (setup : Setup) (maxAttempts window : ℤ) (arrivals : List Arrival),
      arrivals.Pairwise (·.time ≤ ·.time) → ∀ (account : ℕ) (opens closes : ℤ),
      closes - opens ≤ window * 1000000000 →
      (verified setup (loginLimiters maxAttempts window) arrivals).countP
        (Arrival.against setup account opens closes) ≤ 2 * maxAttempts.toNat := by
  intro bounded
  have tried : (verified lowering (loginLimiters 1 300)
      [trying "a" "ann" 0, trying "b" "Ann" 0, trying "c" "ANN" 0]).countP
      (Arrival.against lowering 1 0 0) = 3 := by decide +kernel
  have bound := bounded lowering 1 300 [trying "a" "ann" 0, trying "b" "Ann" 0, trying "c" "ANN" 0]
    (by decide +kernel) 1 0 0 (by decide)
  rw [tried] at bound
  exact absurd bound (by decide)

end Demo

end AuthController

end ReceiptScanner

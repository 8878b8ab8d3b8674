import ReceiptScanner.Services.AnthropicTransport
import ReceiptScanner.Provider.Replies

/-!
# A scan and the reclaim window

The configuration is refused unless every attempt and every wait fits before a scan is taken
for dead. The waits are up to the server: each is clamped to thirty seconds, but for NaN.
-/

namespace ReceiptScanner

namespace AnthropicScanProvider

open Numerals

section Window

/-- The seconds an event takes. -/
def Event.seconds : Event → Double
  | .attempt seconds => .finite seconds
  | .wait delay => delay

/-- The seconds all the events take. -/
def elapsed (events : List Event) : Double :=
  events.foldr (fun event total => event.seconds.add total) (.finite 0)

/-- The waits among what happened. -/
def waitsOf (events : List Event) : ℕ :=
  events.countP fun event => match event with
    | .attempt _ => false
    | .wait _ => true

/-- A number of seconds that a retry may wait. -/
def FitsWait (delay : Double) : Prop := ∃ q, delay = .finite q ∧ 0 ≤ q ∧ q ≤ 30

/-- A scan is over before it is taken for dead. -/
structure FitsWindow (config : Config) (reclaimAfterSeconds : ℤ) (events : List Event) : Prop where
  attempts : attemptsOf events ≤ config.maxRetries + 2
  waits : ∀ delay, .wait delay ∈ events → FitsWait delay
  elapsed : (elapsed events).lt (.finite reclaimAfterSeconds)

/-- Every HTTP attempt ends within the timeout. -/
def Punctual (config : Config) (server : ℕ → Exchange) : Prop :=
  ∀ n, 0 ≤ (server n).seconds ∧ config.timeoutSeconds.ge (.finite (server n).seconds)

/-- The response is one after which the request may be sent again. -/
def retried (json : JsonText) (exchange : Exchange) : Bool :=
  match exchange.response with
  | .ok response =>
      retryable response.status && (apiErrorMessage json response.body).toOption.isSome
  | .error _ => false

/-- The Retry-After header of the response. -/
def retryAfterOf (exchange : Exchange) : String :=
  match exchange.response with
  | .ok response => response.retryAfter
  | .error _ => ""

end Window

section Waits

variable (json : JsonText) (server : ℕ → Exchange)

theorem replyOf_tryAgain (exchange : Exchange) :
    (retried json exchange = true ∧
        ∃ message, replyOf json exchange = .ok (.tryAgain message (retryAfterOf exchange))) ∨
      (retried json exchange = false ∧
        ∀ message retryAfter, replyOf json exchange ≠ .ok (.tryAgain message retryAfter)) := by
  unfold replyOf retried retryAfterOf
  cases exchange.response with
  | error what => exact .inr ⟨rfl, by simp⟩
  | ok response =>
      by_cases isOk : response.status = 200
      · right
        simp [isOk, retryable]
      cases read : apiErrorMessage json response.body with
      | error raised =>
          right
          simp [isOk, read, bind, Except.bind, Except.toOption]
      | ok error =>
          by_cases again : retryable response.status
          · left
            simp [isOk, again, read, bind, Except.bind, pure, Except.pure, Except.toOption]
          · right
            simp [isOk, again, read, bind, Except.bind, throw, throwThe, MonadExceptOf.throw]

/-- An attempt that is not followed by another. -/
theorem send_events_last {attempt retries : ℕ}
    (last : retried json (server attempt) = false ∨ retries = 0) :
    (send json server attempt retries).events = [.attempt (server attempt).seconds] := by
  unfold send
  split
  · rfl
  · rfl
  · next message retryAfter again =>
      obtain ⟨_, _⟩ | ⟨_, never⟩ := replyOf_tryAgain json (server attempt)
      · obtain stops | rfl := last
        · simp_all
        · rfl
      · exact absurd again (never message retryAfter)

/-- An attempt that is followed by a wait and another. -/
theorem send_events_again {attempt retries : ℕ} (again : retried json (server attempt) = true) :
    (send json server attempt (retries + 1)).events =
      .attempt (server attempt).seconds ::
        .wait (retryDelay attempt (retryAfterOf (server attempt))) ::
          (send json server (attempt + 1) retries).events := by
  obtain ⟨_, message, isReply⟩ | ⟨stops, _⟩ := replyOf_tryAgain json (server attempt)
  · rw [send, isReply]
  · rw [again] at stops
    cases stops

/-- A request waits after each attempt up to the first that ends it, while there are retries
left. -/
theorem wait_mem_send_iff (attempt retries : ℕ) (delay : Double) :
    .wait delay ∈ (send json server attempt retries).events ↔
      ∃ n < retries, (∀ m ≤ n, retried json (server (attempt + m)) = true) ∧
        delay = retryDelay (attempt + n) (retryAfterOf (server (attempt + n))) := by
  induction retries generalizing attempt with
  | zero =>
      have none : (send json server attempt 0).events = [.attempt (server attempt).seconds] :=
        send_events_last json server (.inr rfl)
      simp [none]
  | succ retries inductionHypothesis =>
      by_cases again : retried json (server attempt) = true
      · rw [send_events_again json server again]
        simp only [List.mem_cons, reduceCtorEq, false_or, Event.wait.injEq,
          inductionHypothesis (attempt + 1)]
        constructor
        · rintro (rfl | ⟨n, less, all, rfl⟩)
          · exact ⟨0, by omega, fun m first => by simpa [Nat.le_zero.mp first] using again, rfl⟩
          · refine ⟨n + 1, by omega, ?_, by rw [Nat.add_right_comm, Nat.add_assoc]⟩
            intro m upTo
            cases m with
            | zero => exact again
            | succ m =>
                have later := all m (by omega)
                rwa [Nat.add_right_comm, Nat.add_assoc] at later
        · rintro ⟨n, less, all, rfl⟩
          cases n with
          | zero => exact .inl rfl
          | succ n =>
              refine .inr ⟨n, by omega, ?_, by rw [Nat.add_right_comm, Nat.add_assoc]⟩
              intro m upTo
              rw [Nat.add_right_comm, Nat.add_assoc]
              exact all (m + 1) (by omega)
      · rw [send_events_last json server (.inl (by simpa using again))]
        simp only [List.mem_singleton, reduceCtorEq, false_iff]
        rintro ⟨n, _, all, _⟩
        exact again (all 0 (Nat.zero_le n))

/-- A request makes an attempt more than it has retries at most, and a wait for each. -/
theorem send_counts (attempt retries : ℕ) :
    attemptsOf (send json server attempt retries).events ≤ retries + 1 ∧
      waitsOf (send json server attempt retries).events ≤ retries := by
  induction retries generalizing attempt with
  | zero =>
      rw [send_events_last json server (.inr rfl)]
      exact ⟨le_refl 1, le_refl 0⟩
  | succ retries inductionHypothesis =>
      by_cases again : retried json (server attempt) = true
      · obtain ⟨attempts, waits⟩ := inductionHypothesis (attempt + 1)
        rw [send_events_again json server again]
        simp only [attemptsOf, waitsOf, List.countP_cons] at attempts waits ⊢
        constructor
        · simpa using attempts
        · simpa using waits
      · rw [send_events_last json server (.inl (by simpa using again))]
        constructor
        · simp [attemptsOf]
        · simp [waitsOf]

/-- The attempts of a request take as long as the server's. -/
theorem attempt_mem_send {attempt retries : ℕ} {seconds : ℚ}
    (among : .attempt seconds ∈ (send json server attempt retries).events) :
    ∃ n, seconds = (server n).seconds := by
  induction retries generalizing attempt with
  | zero =>
      rw [send_events_last json server (.inr rfl)] at among
      simp only [List.mem_singleton, Event.attempt.injEq] at among
      exact ⟨attempt, among⟩
  | succ retries inductionHypothesis =>
      by_cases again : retried json (server attempt) = true
      · rw [send_events_again json server again] at among
        simp only [List.mem_cons, Event.attempt.injEq, reduceCtorEq, false_or] at among
        obtain rfl | later := among
        · exact ⟨attempt, rfl⟩
        · exact inductionHypothesis later
      · rw [send_events_last json server (.inl (by simpa using again))] at among
        simp only [List.mem_singleton, Event.attempt.injEq] at among
        exact ⟨attempt, among⟩

end Waits

section Time

/-- The wait before an early retry is one that is allowed, unless the server asks for NaN. -/
theorem fitsWait_retryDelay_iff {attempt : ℕ} (early : attempt < 4) (retryAfter : String) :
    FitsWait (retryDelay attempt retryAfter) ↔ stod retryAfter ≠ some .nan := by
  have backoff : FitsWait (.finite (2 <<< attempt : ℕ)) := by
    have power : 2 ^ attempt ≤ 2 ^ 3 := Nat.pow_le_pow_right (by decide) (by omega)
    have small : 2 <<< attempt ≤ 30 := by
      rw [Nat.shiftLeft_eq]
      omega
    exact ⟨_, rfl, by positivity, by exact_mod_cast small⟩
  unfold retryDelay
  by_cases absent : retryAfter = ""
  · subst absent
    have unread : stod "" = none := by decide +kernel
    simp [backoff, unread]
  · cases read : stod retryAfter with
    | none => simpa [absent] using backoff
    | some value =>
        simp only [absent, if_false, ne_eq, Option.some.injEq]
        exact Double.clamp_finite_iff value (by norm_num)

/-- Events of bounded length take no longer than their number allows. -/
theorem elapsed_le {events : List Event} {timeout : ℚ}
    (attempts : ∀ seconds, .attempt seconds ∈ events → 0 ≤ seconds ∧ seconds ≤ timeout)
    (waits : ∀ delay, .wait delay ∈ events → FitsWait delay) :
    ∃ q, elapsed events = .finite q ∧ q ≤ attemptsOf events * timeout + waitsOf events * 30 := by
  induction events with
  | nil => exact ⟨0, rfl, by simp [attemptsOf, waitsOf]⟩
  | cons event rest inductionHypothesis =>
      obtain ⟨q, total, bound⟩ := inductionHypothesis
        (fun seconds among => attempts seconds (by simp [among]))
        (fun delay among => waits delay (by simp [among]))
      cases event with
      | attempt seconds =>
          have small := (attempts seconds (by simp)).2
          refine ⟨seconds + q, ?_, ?_⟩
          · show (Double.finite seconds).add (elapsed rest) = _
            rw [total]
            rfl
          · simp only [attemptsOf, waitsOf, List.countP_cons, if_true, Bool.false_eq_true,
              if_false] at bound ⊢
            push_cast
            linarith
      | wait delay =>
          obtain ⟨wait, rfl, _, small⟩ := waits delay (by simp)
          refine ⟨wait + q, ?_, ?_⟩
          · show (Double.finite wait).add (elapsed rest) = _
            rw [total]
            rfl
          · simp only [attemptsOf, waitsOf, List.countP_cons, if_true, Bool.false_eq_true,
              if_false] at bound ⊢
            push_cast
            linarith

end Time

section Scan

variable (json : JsonText) (context : ScanContext)

/-- A scan is its first request, and where the items do not add up and a rescan is wanted,
one more attempt. -/
theorem scanReceipt_events (config : Config) (server : ℕ → Exchange) :
    (scanReceipt json config server context).events =
        (send json server 0 config.maxRetries).events ∨
      config.rescanEffort ≠ "" ∧ ∃ n, (scanReceipt json config server context).events =
        (send json server 0 config.maxRetries).events ++ [.attempt (server n).seconds] := by
  unfold scanReceipt
  dsimp only
  split
  · exact .inl rfl
  · split
    · exact .inl rfl
    · next mismatched =>
        right
        simp only [Bool.or_eq_true, decide_eq_true_eq, not_or] at mismatched
        refine ⟨mismatched.2, attemptsOf (send json server 0 config.maxRetries).events + 0, ?_⟩
        split <;> rw [send_events_last json _ (.inr rfl)]

variable {json context} {config : Config} {server : ℕ → Exchange}

theorem wait_mem_scanReceipt_iff (delay : Double) :
    .wait delay ∈ (scanReceipt json config server context).events ↔
      .wait delay ∈ (send json server 0 config.maxRetries).events := by
  obtain same | ⟨_, n, same⟩ := scanReceipt_events json context config server
  · rw [same]
  · simp [same]

/-- A scan within the timeout, whose waits are allowed, takes less than the worst case. -/
theorem scanReceipt_elapsed {timeout : ℚ} (finite : config.timeoutSeconds = .finite timeout)
    (punctual : Punctual config server)
    (waits : ∀ delay, .wait delay ∈ (scanReceipt json config server context).events →
      FitsWait delay) :
    ∃ q, elapsed (scanReceipt json config server context).events = .finite q ∧
      q + 30 ≤ (timeout + 30) * (config.maxRetries + 1) +
        (if config.rescanEffort = "" then 0 else timeout) := by
  have bounded : ∀ n, 0 ≤ (server n).seconds ∧ (server n).seconds ≤ timeout := by
    intro n
    obtain ⟨nonneg, within⟩ := punctual n
    rw [finite] at within
    simpa [Double.ge, Double.lt, nonneg] using within
  have nonneg : 0 ≤ timeout := (bounded 0).1.trans (bounded 0).2
  obtain ⟨attempts, pauses⟩ := send_counts json server 0 config.maxRetries
  have attemptsLe : (attemptsOf (send json server 0 config.maxRetries).events : ℚ) * timeout ≤
      (config.maxRetries + 1) * timeout := by
    apply mul_le_mul_of_nonneg_right _ nonneg
    exact_mod_cast attempts
  have pausesLe : (waitsOf (send json server 0 config.maxRetries).events : ℚ) * 30 ≤
      config.maxRetries * 30 := by
    apply mul_le_mul_of_nonneg_right _ (by norm_num)
    exact_mod_cast pauses
  have durations : ∀ seconds,
      .attempt seconds ∈ (scanReceipt json config server context).events →
        0 ≤ seconds ∧ seconds ≤ timeout := by
    intro seconds among
    obtain same | ⟨_, n, same⟩ := scanReceipt_events json context config server
    · rw [same] at among
      obtain ⟨n, rfl⟩ := attempt_mem_send json server among
      exact bounded n
    · rw [same, List.mem_append, List.mem_singleton] at among
      obtain first | second := among
      · obtain ⟨n, rfl⟩ := attempt_mem_send json server first
        exact bounded n
      · cases second
        exact bounded n
  obtain ⟨q, total, bound⟩ := elapsed_le durations waits
  refine ⟨q, total, ?_⟩
  obtain same | ⟨rescans, n, same⟩ := scanReceipt_events json context config server
  · rw [same] at bound
    split <;> linarith
  · rw [if_neg rescans]
    simp only [same, attemptsOf, waitsOf, List.countP_append, List.countP_singleton, if_true,
      Bool.false_eq_true, if_false] at bound attemptsLe pausesLe
    push_cast at bound
    linarith

/-- A scan makes two attempts more than it has retries at most. -/
theorem scanReceipt_attempts :
    attemptsOf (scanReceipt json config server context).events ≤ config.maxRetries + 2 := by
  have first := (send_counts json server 0 config.maxRetries).1
  obtain same | ⟨_, n, same⟩ := scanReceipt_events json context config server
  · rw [same]
    omega
  · rw [same]
    unfold attemptsOf at first ⊢
    rw [List.countP_append, List.countP_singleton, if_pos rfl]
    omega

end Scan

section Accepted

variable {environment : Environment} {config : Config}

/-- An accepted configuration retries twice, and its worst case is over before the scan is
taken for dead. -/
theorem checkedAnthropicConfig_eq_ok
    (accepted : checkedAnthropicConfig environment = .ok config) :
    config.maxRetries = 2 ∧ ∃ worker, ScanWorkerConfig.fromEnv environment = .ok worker ∧
      (worstCase config).ge (.finite worker.reclaimAfterSeconds) = false := by
  unfold checkedAnthropicConfig at accepted
  obtain ⟨read, isRead, accepted⟩ := bind_eq_ok.mp accepted
  obtain ⟨worker, isWorker, accepted⟩ := bind_eq_ok.mp accepted
  dsimp only at accepted
  split at accepted
  · cases accepted
  · next fits =>
      cases accepted
      refine ⟨?_, worker, isWorker, by simpa using fits⟩
      unfold Config.fromEnv at isRead
      dsimp only at isRead
      split at isRead
      · cases isRead
      · obtain ⟨timeout, _, isRead⟩ := bind_eq_ok.mp isRead
        obtain ⟨maxTokens, _, same⟩ := bind_eq_ok.mp isRead
        cases same
        rfl

/-- Attempts can only end within a timeout that is a number. -/
theorem timeout_finite {server : ℕ → Exchange} {reclaimAfterSeconds : ℤ}
    (checked : (worstCase config).ge (.finite reclaimAfterSeconds) = false)
    (punctual : Punctual config server) : ∃ timeout, config.timeoutSeconds = .finite timeout := by
  have within := (punctual 0).2
  unfold worstCase at checked
  generalize config.timeoutSeconds = timeout at checked within ⊢
  cases timeout with
  | finite timeout => exact ⟨timeout, rfl⟩
  | nan => cases within
  | infinite negative =>
      cases negative with
      | true => cases within
      | false => split at checked <;> cases checked

variable (json : JsonText) (context : ScanContext)

/-- With an accepted configuration and attempts that end within the timeout, a scan fits in
the reclaim window exactly when no response after which the request is sent again asks for
NaN seconds. -/
theorem fitsWindow_iff {worker : ScanWorkerConfig} {server : ℕ → Exchange}
    (accepted : checkedAnthropicConfig environment = .ok config)
    (configured : ScanWorkerConfig.fromEnv environment = .ok worker)
    (punctual : Punctual config server) :
    FitsWindow config worker.reclaimAfterSeconds
        (scanReceipt json config server context).events ↔
      ∀ n < config.maxRetries, (∀ m ≤ n, retried json (server m) = true) →
        stod (retryAfterOf (server n)) ≠ some .nan := by
  obtain ⟨retries, other, isOther, checked⟩ := checkedAnthropicConfig_eq_ok accepted
  obtain rfl : worker = other := Except.ok.inj (configured.symm.trans isOther)
  constructor
  · intro fits n less all
    have early : n < 4 := by omega
    rw [← fitsWait_retryDelay_iff early]
    apply fits.waits
    rw [wait_mem_scanReceipt_iff, wait_mem_send_iff]
    exact ⟨n, less, by simpa using all, by rw [Nat.zero_add]⟩
  · intro numbers
    have waits : ∀ delay, .wait delay ∈ (scanReceipt json config server context).events →
        FitsWait delay := by
      intro delay among
      rw [wait_mem_scanReceipt_iff, wait_mem_send_iff] at among
      obtain ⟨n, less, all, rfl⟩ := among
      simp only [Nat.zero_add] at all ⊢
      exact (fitsWait_retryDelay_iff (by omega) _).mpr (numbers n less all)
    refine ⟨scanReceipt_attempts, waits, ?_⟩
    obtain ⟨timeout, finite⟩ := timeout_finite checked punctual
    obtain ⟨q, total, bound⟩ := scanReceipt_elapsed finite punctual waits
    rw [total]
    have fitsWorst : (timeout + 30) * (config.maxRetries + 1) +
        (if config.rescanEffort = "" then 0 else timeout) < worker.reclaimAfterSeconds := by
      unfold worstCase at checked
      rw [finite] at checked
      split at checked
      · next never => simpa [Double.ge, Double.add, Double.scale, Double.lt, never] using checked
      · next rescans =>
          simpa [Double.ge, Double.add, Double.scale, Double.lt, rescans] using checked
    simp only [Double.lt, decide_eq_true_eq]
    linarith

end Accepted

section Overload

/-- A server that is overloaded once, and then fails. -/
def overloadedOnce (retryAfter : String) (n : ℕ) : Exchange where
  seconds := 1
  response :=
    if n = 0 then .ok { status := 529, body := "", retryAfter := retryAfter }
    else .error "network failure"

/-- The key is all that is set. -/
def keyOnly : Environment := fun name =>
  if name = "ANTHROPIC_API_KEY" then some "sk" else none

/-- The configuration that this gives. -/
def defaultConfig : Config where
  apiKey := "sk"
  model := "claude-haiku-5-5"
  baseUrl := "https://api.anthropic.com"
  timeoutSeconds := .finite 120
  maxTokens := 16000
  effort := "low"
  rescanEffort := "medium"

/-- And what the worker gets. -/
def defaultWorker : ScanWorkerConfig where
  concurrency := 2
  maxScanAttempts := 3
  maxReclaims := 10
  reclaimAfterSeconds := 600
  matchDateDays := 3
  merchantMatchThreshold := .finite (3 / 10)

theorem keyOnly_accepted : checkedAnthropicConfig keyOnly = .ok defaultConfig := by
  decide +kernel

theorem keyOnly_configured : ScanWorkerConfig.fromEnv keyOnly = .ok defaultWorker := by
  decide +kernel

theorem overloadedOnce_punctual (retryAfter : String) :
    Punctual defaultConfig (overloadedOnce retryAfter) := by
  intro n
  constructor
  · exact zero_le_one
  · simp only [overloadedOnce, defaultConfig]
    decide +kernel

theorem overloadedOnce_retried_iff (retryAfter : String) (n : ℕ) :
    retried (readerOf []) (overloadedOnce retryAfter n) = true ↔ n = 0 := by
  by_cases first : n = 0
  · simp only [overloadedOnce, first, if_true, iff_true]
    rfl
  · simp [overloadedOnce, first, retried]

end Overload

/-- The server asks for seven seconds, and the scan fits. -/
theorem fitsWindow_of_sevenSeconds :
    FitsWindow defaultConfig 600
      (scanReceipt (readerOf []) defaultConfig (overloadedOnce "7") {}).events := by
  apply (fitsWindow_iff (readerOf []) {} keyOnly_accepted keyOnly_configured
    (overloadedOnce_punctual "7")).mpr
  intro n _ all
  have first := (overloadedOnce_retried_iff "7" n).mp (all n (le_refl n))
  subst first
  decide +kernel

/-- The server asks for `nan` seconds, which is what the client is told to wait. -/
theorem not_fitsWindow_of_nan :
    ¬∀ (json : JsonText) (environment : Environment) (config : Config) (worker : ScanWorkerConfig)
      (server : ℕ → Exchange) (context : ScanContext),
      checkedAnthropicConfig environment = .ok config →
      ScanWorkerConfig.fromEnv environment = .ok worker → Punctual config server →
        FitsWindow config worker.reclaimAfterSeconds
          (scanReceipt json config server context).events := by
  intro always
  have fits := always (readerOf []) keyOnly defaultConfig defaultWorker (overloadedOnce "nan") {}
    keyOnly_accepted keyOnly_configured (overloadedOnce_punctual "nan")
  obtain ⟨q, isNaN, _⟩ := fits.waits (retryDelay 0 "nan") (by
    rw [wait_mem_scanReceipt_iff, wait_mem_send_iff]
    refine ⟨0, by decide, ?_, rfl⟩
    intro m upTo
    exact (overloadedOnce_retried_iff "nan" _).mpr (by omega))
  have delay : retryDelay 0 "nan" = .nan := by decide +kernel
  rw [delay] at isNaN
  cases isNaN

end AnthropicScanProvider

end ReceiptScanner

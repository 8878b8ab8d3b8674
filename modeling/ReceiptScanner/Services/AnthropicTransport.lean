import ReceiptScanner.Services.AnthropicScanProvider
import ReceiptScanner.Numerals.Strto

/-!
# Calls of the Claude Messages API

A scan sends one request, and a second one when the items do not add up. A request that the
server cannot take now is sent again after a wait. The server is what comes back to the
first, the second, ... HTTP attempt of a scan; the text of the requests is left out.
-/

namespace ReceiptScanner

open Numerals

section Environment

/-- The environment variables that are set. -/
abbrev Environment := String → Option String

/-- `envOr`. -/
def envOr (environment : Environment) (name fallback : String) : String :=
  (environment name).getD fallback

/-- `std::stod` of a variable. -/
def envDouble (environment : Environment) (name fallback : String) : Except Err Double :=
  match stod (envOr environment name fallback) with
  | some value => .ok value
  | none => .error (.runtime "stod")

/-- `envInt`. -/
def envInt (environment : Environment) (name fallback : String) : Except Err ℤ :=
  match stoi (envOr environment name fallback) with
  | some value => .ok value
  | none => .error (.runtime "stoi")

/-- What the worker is configured with. -/
structure ScanWorkerConfig where
  concurrency : ℤ
  maxScanAttempts : ℤ
  maxReclaims : ℤ
  reclaimAfterSeconds : ℤ
  matchDateDays : ℤ
  merchantMatchThreshold : Double
deriving DecidableEq

/-- `ScanWorkerConfig::fromEnv`. -/
def ScanWorkerConfig.fromEnv (environment : Environment) : Except Err ScanWorkerConfig := do
  let concurrency ← envInt environment "SCAN_CONCURRENCY" "2"
  let maxScanAttempts ← envInt environment "SCAN_MAX_ATTEMPTS" "3"
  let maxReclaims ← envInt environment "SCAN_MAX_RECLAIMS" "10"
  let reclaimAfterSeconds ← envInt environment "SCAN_RECLAIM_SECONDS" "600"
  let matchDateDays ← envInt environment "MATCH_DATE_DAYS" "3"
  let merchantMatchThreshold ← envDouble environment "MERCHANT_MATCH_THRESHOLD" "0.300000"
  pure { concurrency, maxScanAttempts, maxReclaims, reclaimAfterSeconds, matchDateDays,
         merchantMatchThreshold }

end Environment

namespace AnthropicScanProvider

section Configuration

/-- `AnthropicScanProvider::Config`. -/
structure Config where
  apiKey : String
  model : String
  baseUrl : String
  timeoutSeconds : Double
  maxRetries : ℕ := 2
  maxTokens : ℤ
  effort : String
  rescanEffort : String
deriving DecidableEq

/-- `Config::fromEnv`; the number of retries is not read from the environment. -/
def Config.fromEnv (environment : Environment) : Except Err Config := do
  let apiKey := envOr environment "ANTHROPIC_API_KEY" ""
  if apiKey = "" then throw (.runtime "SCAN_PROVIDER=anthropic needs ANTHROPIC_API_KEY")
  let timeoutSeconds ← envDouble environment "SCAN_TIMEOUT_SECONDS" "120.000000"
  let maxTokens ← envInt environment "ANTHROPIC_MAX_TOKENS" "16000"
  pure { apiKey := apiKey
         model := envOr environment "ANTHROPIC_MODEL" "claude-haiku-5-5"
         baseUrl := envOr environment "ANTHROPIC_BASE_URL" "https://api.anthropic.com"
         timeoutSeconds := timeoutSeconds
         maxTokens := maxTokens
         effort := envOr environment "ANTHROPIC_EFFORT" "low"
         rescanEffort := envOr environment "ANTHROPIC_RESCAN_EFFORT" "medium" }

/-- Every attempt plus up to 30s of backoff each, then the rescan's single attempt. -/
def worstCase (config : Config) : Double :=
  ((config.timeoutSeconds.add (.finite 30)).scale (config.maxRetries + 1)).add
    (if config.rescanEffort = "" then .finite 0 else config.timeoutSeconds)

/-- `checkedAnthropicConfig`. -/
def checkedAnthropicConfig (environment : Environment) : Except Err Config := do
  let config ← Config.fromEnv environment
  let worker ← ScanWorkerConfig.fromEnv environment
  if (worstCase config).ge (.finite worker.reclaimAfterSeconds) then
    throw (.runtime ("SCAN_TIMEOUT_SECONDS is too long for SCAN_RECLAIM_SECONDS: a slow call " ++
      "would be re-queued and scanned twice"))
  pure config

end Configuration

section Sending

/-- A response; a header that is absent is empty. -/
structure Response where
  status : ℕ
  body : String
  retryAfter : String := ""

/-- What comes back to an HTTP attempt, and after how many seconds. A timeout or a network
failure is the text of an exception. -/
structure Exchange where
  seconds : ℚ
  response : Except String Response

/-- What takes time in a call. -/
inductive Event where
  | attempt (seconds : ℚ)
  | wait (delay : Double)

/-- What a call did, and what it came to. -/
structure Call (α : Type) where
  events : List Event
  outcome : Except Err α

/-- `apiErrorMessage`. -/
def apiErrorMessage (json : JsonText) (body : String) : Except Err String :=
  match json.parse body with
  | .ok parsed =>
      match parsed.find "error" with
      | some (.object members) => do
          let type ← (Json.object members).valueString "type" ""
          let message ← (Json.object members).valueString "message" ""
          pure (type ++ ": " ++ message)
      | _ => .ok (String.ofList (body.toList.take 300))
  | .error _ => .ok (String.ofList (body.toList.take 300))

/-- `retryable`. -/
def retryable (status : ℕ) : Bool := status = 408 || status = 429 || 500 ≤ status

/-- A response that ends the request with a body, or says to try again. -/
inductive Reply where
  | body (text : String)
  | tryAgain (message retryAfter : String)

/-- What an exchange means for the request. -/
def replyOf (json : JsonText) (exchange : Exchange) : Except Err Reply :=
  match exchange.response with
  | .error what => .error (.runtime what)
  | .ok response =>
      if response.status = 200 then .ok (.body response.body)
      else do
        let error ← apiErrorMessage json response.body
        let message := "Anthropic API HTTP " ++ toString response.status ++ ": " ++ error
        if retryable response.status then pure (.tryAgain message response.retryAfter)
        else throw (.scanError message)

/-- The wait after an attempt: `2 << attempt` seconds, or what the server asks for. -/
def retryDelay (attempt : ℕ) (retryAfter : String) : Double :=
  match if retryAfter = "" then none else stod retryAfter with
  | some value => value.clamp (.finite 0) (.finite 30)
  | none => .finite (2 <<< attempt : ℕ)

/-- `send` from an attempt on, with so many retries left. -/
def send (json : JsonText) (server : ℕ → Exchange) (attempt retries : ℕ) : Call String :=
  let sent := Event.attempt (server attempt).seconds
  match replyOf json (server attempt) with
  | .error raised => ⟨[sent], .error raised⟩
  | .ok (.body text) => ⟨[sent], .ok text⟩
  | .ok (.tryAgain message retryAfter) =>
      match retries with
      | 0 => ⟨[sent], .error (.runtime message)⟩
      | retries + 1 =>
          let rest := send json server (attempt + 1) retries
          ⟨sent :: .wait (retryDelay attempt retryAfter) :: rest.events, rest.outcome⟩

end Sending

section Scanning

/-- The HTTP attempts among what happened. -/
def attemptsOf (events : List Event) : ℕ :=
  events.countP fun event => match event with
    | .attempt _ => true
    | .wait _ => false

/-- `object[key] = member`. -/
def withMember (object : Json) (key : String) (member : Json) : Json :=
  match object with
  | .object members =>
      .object (members.filter (fun other => other.1 != key) ++ [(key, member)])
  | other => other

/-- `parseResponse`, with the record behind `result.raw`. -/
def parseRecorded (json : JsonText) (body : String) (context : ScanContext) :
    Except Err (ScanResult × Json) := do
  let result ← parseResponse json body context
  pure (result, (recordOf json body).getD (.object []))

/-- `scanReceipt`. The rescan goes on with the exchanges after the first request's. -/
def scanReceipt (json : JsonText) (config : Config) (server : ℕ → Exchange)
    (context : ScanContext) : Call ScanResult :=
  let first := send json server 0 config.maxRetries
  match first.outcome >>= fun body => parseRecorded json body context with
  | .error raised => ⟨first.events, .error raised⟩
  | .ok (result, raw) =>
      if itemsAddUp raw result || config.rescanEffort = "" then ⟨first.events, .ok result⟩
      else
        let second := send json (fun n => server (attemptsOf first.events + n)) 0 0
        match second.outcome >>= fun body => parseRecorded json body context with
        | .ok (rescanned, again) =>
            ⟨first.events ++ second.events,
              .ok { rescanned with raw := json.dump (withMember again "first_scan" raw) }⟩
        | .error raised =>
            ⟨first.events ++ second.events,
              .ok { result with
                raw := json.dump (withMember raw "rescan_error" (.string raised.what)) }⟩

end Scanning

end AnthropicScanProvider

end ReceiptScanner

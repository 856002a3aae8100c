import SlurmLink.Breaker
import SlurmLink.Credentials
import SlurmLink.Decimal.Shortest
import SlurmLink.Retry
import SlurmLink.Text.Record

/-!
The configuration of a client: its server, limits and credentials; how it is checked; how it is read
from variables; and how it is shown in a log, where secrets are left out.
-/

namespace SlurmLink

/-- The configuration of a client. -/
structure ClientConfig where
  baseUrl : String := "http://localhost:6820"
  /-- The version to use without asking the server. -/
  apiVersion : Option ApiVersion := none
  timeout : Span := .ofSeconds 30
  retry : RetryPolicy := {}
  breaker : BreakerConfig := {}
  userName : Option String := none
  jwt : Option String := none
  /-- A matrix to use in place of the known one. -/
  matrix : Option Matrix := none
  deriving DecidableEq, Repr

namespace ClientConfig

/-- The base address without slashes at its end, by which sessions and breakers are known. -/
def endpoint (c : ClientConfig) : String :=
  String.ofList (Text.dropTrailing (· == '/') c.baseUrl.toList)

/-- Checks the address. -/
def validateUrl (c : ClientConfig) : Except ConfigError Unit :=
  match Url.read c.endpoint with
  | .error fault => .error (.badUrl c.baseUrl fault)
  | .ok (.foreign scheme) => .error (.badScheme scheme)
  | .ok (.web _) => .ok ()

def validate (c : ClientConfig) : Except ConfigError Unit := do
  c.validateUrl
  if c.timeout.nanos = 0 then throw .zeroTimeout
  c.retry.validate
  c.breaker.validate

/-! ### Variables -/

/-- The value of a variable without the blanks around it, unless nothing is left. -/
def trimmed (lookup : String → Option String) (name : String) : Option String :=
  (lookup name).bind fun s =>
    let cs := Text.trim s.toList
    if cs.isEmpty then none else some (String.ofList cs)

/-- Reads a number up to `limit` from a variable. -/
def readNumber (lookup : String → Option String) (name : String) (limit : Nat) :
    Except ConfigError (Option Nat) :=
  match trimmed lookup name with
  | none => .ok none
  | some s =>
    match Text.readUnsigned limit s.toList with
    | .ok n => .ok (some n)
    | .error fault => .error (.badVariable name fault.message)

/-- Reads a version from a variable. -/
def readVersion (lookup : String → Option String) (name : String) :
    Except ConfigError (Option ApiVersion) :=
  match trimmed lookup name with
  | none => .ok none
  | some s =>
    match ApiVersion.parse s with
    | .ok v => .ok (some v)
    | .error e => .error (.badVariable name e.message)

/-- The variable's value as it is, unless it is empty. -/
def nonEmptyVariable (lookup : String → Option String) (name : String) : Option String :=
  (lookup name).filter fun s => !s.isEmpty

def limit32 : Nat := 4294967295
def limit64 : Nat := 18446744073709551615

/-- The configuration given by variables; what no variable gives has its default. -/
def ofVariables (lookup : String → Option String) : Except ConfigError ClientConfig := do
  let d : ClientConfig := {}
  let apiVersion ← readVersion lookup "SLURM_API_VERSION"
  let timeout ← readNumber lookup "SLURM_TIMEOUT_MS" limit64
  let attempts ← readNumber lookup "SLURM_MAX_ATTEMPTS" limit32
  let baseDelay ← readNumber lookup "SLURM_RETRY_BASE_DELAY_MS" limit64
  let maxDelay ← readNumber lookup "SLURM_RETRY_MAX_DELAY_MS" limit64
  let threshold ← readNumber lookup "SLURM_BREAKER_FAILURE_THRESHOLD" limit32
  let openTimeout ← readNumber lookup "SLURM_BREAKER_OPEN_TIMEOUT_MS" limit64
  let config : ClientConfig := {
    baseUrl := (trimmed lookup "SLURM_REST_URL").getD d.baseUrl
    apiVersion
    timeout := (timeout.map Span.ofMillis).getD d.timeout
    retry := { d.retry with
      maxAttempts := attempts.getD d.retry.maxAttempts
      baseDelay := (baseDelay.map Span.ofMillis).getD d.retry.baseDelay
      maxDelay := (maxDelay.map Span.ofMillis).getD d.retry.maxDelay }
    breaker := {
      failureThreshold := threshold.getD d.breaker.failureThreshold
      openTimeout := (openTimeout.map Span.ofMillis).getD d.breaker.openTimeout }
    userName := nonEmptyVariable lookup "SLURM_USER_NAME"
    jwt := nonEmptyVariable lookup "SLURM_JWT" }
  config.validate
  return config

end ClientConfig

/-! ### Logs -/

/-- A version on a line of a log. -/
def ApiVersion.describe (v : ApiVersion) : String :=
  Text.record "ApiVersion" [("major", toString v.triple.major.toNat),
    ("minor", toString v.triple.minor.toNat), ("patch", toString v.triple.patch.toNat)] false

/-- A policy on a line of a log. -/
def RetryPolicy.describe (p : RetryPolicy) : String :=
  Text.record "RetryPolicy" [("max_attempts", toString p.maxAttempts),
    ("base_delay", p.baseDelay.toText), ("max_delay", p.maxDelay.toText),
    ("multiplier", p.multiplier.toText), ("jitter_fraction", p.jitterFraction.toText)] false

def BreakerConfig.describe (c : BreakerConfig) : String :=
  Text.record "BreakerConfig" [("failure_threshold", toString c.failureThreshold),
    ("open_timeout", c.openTimeout.toText)] false

/-- A configuration on a line of a log, without its token. -/
def ClientConfig.describe (c : ClientConfig) : String :=
  Text.record "ClientConfig" [("base_url", Text.quoted c.baseUrl),
    ("api_version", Text.optional (c.apiVersion.map ApiVersion.describe)),
    ("timeout", c.timeout.toText), ("retry", c.retry.describe), ("breaker", c.breaker.describe),
    ("user_name", Text.optional (c.userName.map Text.quoted)),
    ("jwt", Text.optional (c.jwt.map fun _ => Text.quoted "<redacted>")),
    ("custom_matrix", if c.matrix.isSome then "true" else "false")] false

end SlurmLink

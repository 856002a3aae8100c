import SlurmLink.Compatibility
import SlurmLink.Failure
import SlurmLink.Revision
import SlurmLink.Url.Basic

/-!
Errors of the client's operations. Every error has a kind, so that a caller can decide by the kind
alone.
-/

namespace SlurmLink

/-- Why a configuration cannot be used. -/
inductive ConfigError where
  | badUrl (baseUrl : String) (fault : UrlFault)
  | badScheme (scheme : String)
  | zeroTimeout
  | noAttempts
  | badMultiplier
  | badJitter
  | delaysReversed
  | zeroThreshold
  | zeroOpenTimeout
  /-- A variable of the environment cannot be read. -/
  | badVariable (name reason : String)
  | badMatrix (fault : MatrixFault)
  | noVersions
  | badEndpoint (endpoint : String) (fault : UrlFault)
  /-- Nothing can be added to the path of the endpoint. -/
  | noBase (endpoint : String)
  deriving DecidableEq, Repr

def ConfigError.message : ConfigError → String
  | .badUrl baseUrl fault => "invalid base URL '" ++ baseUrl ++ "': " ++ fault.message
  | .badScheme scheme => "base URL must be http or https, got '" ++ scheme ++ "'"
  | .zeroTimeout => "timeout must be positive"
  | .noAttempts => "max_attempts must be at least 1"
  | .badMultiplier => "multiplier must be at least 1.0"
  | .badJitter => "jitter_fraction must be in [0, 1]"
  | .delaysReversed => "base_delay must not exceed max_delay"
  | .zeroThreshold => "failure_threshold must be at least 1"
  | .zeroOpenTimeout => "open_timeout must be positive"
  | .badVariable name reason => "invalid " ++ name ++ ": " ++ reason
  | .badMatrix fault => fault.message
  | .noVersions => "no API versions are compiled in"
  | .badEndpoint endpoint fault => "invalid endpoint '" ++ endpoint ++ "': " ++ fault.message
  | .noBase endpoint => "endpoint '" ++ endpoint ++ "' cannot be a base"

/-- An error of the client. -/
inductive Error where
  /-- A call failed; before negotiation is over there is no version to name. -/
  | api (endpoint : String) (version : Option ApiVersion) (failure : Failure)
  /-- The negotiated revision does not offer the operation. -/
  | notImplemented (operation : Operation) (version : ApiVersion)
  /-- There is no adapter for what was asked. -/
  | unsupportedVersion (requested : String) (nearest : ApiVersion)
  /-- No entry of the matrix covers the release. -/
  | noMatch (release : ProductVersion)
  | parse (e : VersionError)
  | config (e : ConfigError)
  deriving DecidableEq, Repr

namespace Error

def kind : Error → ErrorKind
  | .api _ _ failure => failure.kind
  | .notImplemented .. => .notImplemented
  | .unsupportedVersion .. => .unsupportedVersion
  | .noMatch _ => .unsupportedVersion
  | .parse _ => .validation
  | .config _ => .validation

def isRetryable : Error → Bool
  | .api _ _ failure => failure.isRetryable
  | _ => false

def message : Error → String
  | .api endpoint _ failure => "request to " ++ endpoint ++ " failed: " ++ failure.message
  | .notImplemented operation version =>
    operation.name ++ " is not available in Slurm REST API " ++ version.toText
  | .unsupportedVersion requested nearest =>
    "no adapter for " ++ requested ++ "; nearest available is " ++ nearest.toText
  | .noMatch release => "no compatibility entry covers Slurm " ++ release.toText
  | .parse e => e.message
  | .config e => "invalid configuration: " ++ e.message

/-- The failure of a call that the error reports. -/
def failure? : Error → Option Failure
  | .api _ _ failure => some failure
  | _ => none

/-- The status of the response that failed. -/
def statusCode (e : Error) : Option Nat := e.failure?.bind Failure.statusCode

/-- The version in effect. -/
def apiVersion? : Error → Option ApiVersion
  | .api _ version _ => version
  | .notImplemented _ version => some version
  | _ => none

end Error

end SlurmLink

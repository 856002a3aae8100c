import SlurmLink.Http
import SlurmLink.Json.Reader
import SlurmLink.Json.Record
import SlurmLink.Rejection

/-!
Failures of calls and how they are judged: each failure has a kind, and the kind decides whether
trying again may help.
-/

namespace SlurmLink

/-- The kinds of failure. -/
inductive ErrorKind where
  /-- No response came. -/
  | network
  /-- The server is overloaded or broken for now. -/
  | serverTransient
  | authentication
  /-- The request was rejected, here or by the server. -/
  | validation
  | notFound
  | notImplemented
  | circuitOpen
  | cancelled
  | unsupportedVersion
  | unknown
  deriving DecidableEq, Repr

namespace ErrorKind

def name : ErrorKind → String
  | .network => "network"
  | .serverTransient => "server_transient"
  | .authentication => "authentication"
  | .validation => "validation"
  | .notFound => "not_found"
  | .notImplemented => "not_implemented"
  | .circuitOpen => "circuit_open"
  | .cancelled => "cancelled"
  | .unsupportedVersion => "unsupported_version"
  | .unknown => "unknown"

def all : List ErrorKind :=
  [.network, .serverTransient, .authentication, .validation, .notFound, .notImplemented,
    .circuitOpen, .cancelled, .unsupportedVersion, .unknown]

/-- The kind with the given name. -/
def ofName? (name : String) : Option ErrorKind := all.find? (fun k => k.name == name)

/-- Only a lost request and a server in trouble are worth another try. -/
def isRetryable : ErrorKind → Bool
  | .network | .serverTransient => true
  | _ => false

/-- The kind of failure that a status means. -/
def ofStatus (status : Nat) : ErrorKind :=
  if [429, 500, 502, 503, 504].contains status then .serverTransient
  else if [401, 403].contains status then .authentication
  else if [400, 422].contains status then .validation
  else if status = 404 then .notFound
  else .unknown

/-- A kind is written by its name, or as the only key of an object with `null`. -/
def ofJson? : Json → Option ErrorKind
  | .str s => ofName? s
  | .obj [(key, .null)] => ofName? key
  | _ => none

end ErrorKind

/-- One entry of the error list in the body of a failed response. -/
structure ErrorDetail where
  number : Option Int := none
  error : Option String := none
  description : Option String := none
  source : Option String := none
  deriving DecidableEq, Repr

namespace ErrorDetail

/-- The description, or else the error's name, and its number unless that is zero. -/
def toText (d : ErrorDetail) : String :=
  let text := ((d.description.filter (fun s => !s.isEmpty)).or d.error).getD "unspecified error"
  match d.number with
  | some n => if n = 0 then text else text ++ " (error " ++ toString n ++ ")"
  | none => text

def ofJson? (v : Json) : Option ErrorDetail := do
  let r ← Json.Record.read ["error_number", "error", "description", "source"] v
  let number ← r.setting "error_number" Json.readInt64
  let error ← r.setting "error" Json.readText
  let description ← r.setting "description" Json.readText
  let source ← r.setting "source" Json.readText
  return { number, error, description, source }

def toJson (d : ErrorDetail) : Json :=
  .ofSet [("error_number", d.number.map .int), ("error", d.error.map .str),
    ("description", d.description.map .str), ("source", d.source.map .str)]

/-- The error list of a body, which is empty if there is none that can be read. -/
def listOfBody (body : List UInt8) : List ErrorDetail :=
  (do
    let v ← Json.ofBytes? body
    let r ← Json.Record.read ["errors"] v
    r.withDefault "errors" [] (Json.readList ofJson?)).getD []

end ErrorDetail

/-- Why a call stopped before it was over. -/
inductive CancelReason where
  | cancelled
  | deadlineExceeded
  deriving DecidableEq, Repr

def CancelReason.message : CancelReason → String
  | .cancelled => "call cancelled"
  | .deadlineExceeded => "deadline exceeded"

/-- Credentials could not be had. -/
structure AuthError where
  reason : String
  deriving DecidableEq, Repr

def AuthError.message (e : AuthError) : String := "authentication failed: " ++ e.reason

/-- A failure of a call. -/
inductive Failure where
  | transport (e : TransportError)
  /-- A response with a status that is no success, and the errors that its body lists. -/
  | status (code : Nat) (details : List ErrorDetail)
  | auth (e : AuthError)
  | cancelled (reason : CancelReason)
  | circuitOpen (endpoint : String)
  /-- A successful response to the named request could not be read. -/
  | malformed (what : String)
  /-- A successful response does not hold the wanted record. -/
  | missing (what key : String)
  /-- A discovery document does not say which release the server runs. -/
  | noRelease
  /-- The answer to a submission does not name the job. -/
  | noJobId
  | rejected (r : Rejection)
  deriving DecidableEq, Repr

namespace Failure

/-- The failure that a response without success means. -/
def ofResponse (r : Response) : Failure := .status r.status (ErrorDetail.listOfBody r.body)

def kind : Failure → ErrorKind
  | .transport (.invalidRequest _) => .validation
  | .transport _ => .network
  | .status code _ => .ofStatus code
  | .auth _ => .authentication
  | .cancelled _ => .cancelled
  | .circuitOpen _ => .circuitOpen
  | .malformed _ => .unknown
  | .missing .. => .notFound
  | .noRelease => .unknown
  | .noJobId => .unknown
  | .rejected _ => .validation

def isRetryable (f : Failure) : Bool := f.kind.isRetryable

/-- The text of a failure without its kind. -/
def text : Failure → String
  | .transport e => e.message
  | .status code [] => "HTTP " ++ toString code
  | .status code (d :: _) => "HTTP " ++ toString code ++ ": " ++ d.toText
  | .auth e => e.message
  | .cancelled reason => reason.message
  | .circuitOpen endpoint => "circuit breaker for " ++ endpoint ++ " is open"
  | .malformed what => "malformed " ++ what ++ " response"
  | .missing what key => what ++ " '" ++ key ++ "' not found"
  | .noRelease => "discovery document does not report a Slurm release"
  | .noJobId => "submit response carried no job id"
  | .rejected r => r.message

def message (f : Failure) : String := f.kind.name ++ ": " ++ f.text

/-- The status of the response, if a response was the failure. -/
def statusCode : Failure → Option Nat
  | .status code _ => some code
  | _ => none

def details : Failure → List ErrorDetail
  | .status _ details => details
  | _ => []

/-- The text of what lies beneath: the fault of the transport or of the credentials. -/
def cause : Failure → Option String
  | .transport e => some e.message
  | .auth e => some e.message
  | _ => none

end Failure

end SlurmLink

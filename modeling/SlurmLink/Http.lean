import SlurmLink.Json.Basic

/-!
Requests and responses of the REST interface, as far as a caller sees them.
-/

namespace SlurmLink

inductive Method where
  | get
  | post
  | delete
  deriving DecidableEq, Repr

def Method.name : Method → String
  | .get => "GET"
  | .post => "POST"
  | .delete => "DELETE"

/-- A header line. -/
abbrev Header := String × String

/-- A request with its full address. -/
structure Request where
  method : Method
  url : String
  headers : List Header := []
  body : Option Json := none

/-- Attaches a JSON body and says so in a header. -/
def Request.withJson (r : Request) (body : Json) : Request :=
  { r with body := some body, headers := r.headers ++ [("Content-Type", "application/json")] }

/-- A response of any status. -/
structure Response where
  status : Nat
  body : List UInt8
  deriving DecidableEq, Repr

/-- Holds for the statuses from 200 to 299. -/
def Response.isSuccess (r : Response) : Bool := 200 ≤ r.status && r.status < 300

/-- Why a request got no response. -/
inductive TransportError where
  | connect (reason : String)
  | timeout (reason : String)
  | io (reason : String)
  | invalidRequest (reason : String)
  deriving DecidableEq, Repr

def TransportError.message : TransportError → String
  | .connect reason => "connection failed: " ++ reason
  | .timeout reason => "request timed out: " ++ reason
  | .io reason => "I/O error: " ++ reason
  | .invalidRequest reason => "invalid request: " ++ reason

end SlurmLink

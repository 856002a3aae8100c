import SlurmLink.Error
import SlurmLink.Http

/-!
Sessions: what negotiation with a server has come to. A session never changes; negotiating again makes
a new one.
-/

namespace SlurmLink

/-- A session with the server at an endpoint. -/
structure Session where
  /-- Sessions are numbered in the order in which they are made, so that no two are the same. -/
  serial : Nat
  revision : Revision
  endpoint : String
  /-- The release that the server reported, if it was asked. -/
  release : Option ProductVersion
  deriving DecidableEq, Repr

/-- The parts of the REST interface. -/
inductive Plugin where
  /-- Jobs, nodes and the like, served by the controller. -/
  | slurm
  /-- Accounting, served by the database. -/
  | slurmdb
  deriving DecidableEq, Repr

def Plugin.name : Plugin → String
  | .slurm => "slurm"
  | .slurmdb => "slurmdb"

/-- A request before it has an address. -/
structure Draft where
  method : Method := .get
  plugin : Plugin := .slurm
  path : List String
  body : Option Json := none

namespace Session

def apiVersion (s : Session) : ApiVersion := s.revision.apiVersion

/-- A failure of a call within the session. -/
def fail (s : Session) (f : Failure) : Error := .api s.endpoint (some s.apiVersion) f

/-- Refuses an operation that the revision does not offer. -/
def ensure (s : Session) (op : Operation) : Except Error Unit :=
  if s.revision.supports op then .ok () else .error (.notImplemented op s.apiVersion)

/-- The address of a path below the endpoint, under the plugin and the version. -/
def url (s : Session) (plugin : Plugin) (path : List String) : Except Error String :=
  match Url.read s.endpoint with
  | .error fault => .error (.config (.badEndpoint s.endpoint fault))
  | .ok (.foreign _) => .error (.config (.noBase s.endpoint))
  | .ok (.web u) => .ok (u.extend (plugin.name :: s.apiVersion.toText :: path)).toText

/-- The request of a draft. -/
def request (s : Session) (d : Draft) : Except Error Request := do
  let url ← s.url d.plugin d.path
  let bare : Request := { method := d.method, url }
  return match d.body with
    | some body => bare.withJson body
    | none => bare

end Session

end SlurmLink

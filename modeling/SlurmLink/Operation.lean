import SlurmLink.Text.Blank

/-!
The operations of the client: an action on a family of resources.
-/

namespace SlurmLink

/-- A family of resources. -/
inductive Resource where
  | jobs
  | nodes
  | partitions
  | accounts
  | users
  | qos
  | reservations
  | cluster
  deriving DecidableEq, Repr

namespace Resource

def name : Resource → String
  | .jobs => "jobs"
  | .nodes => "nodes"
  | .partitions => "partitions"
  | .accounts => "accounts"
  | .users => "users"
  | .qos => "qos"
  | .reservations => "reservations"
  | .cluster => "cluster"

def all : List Resource :=
  [.jobs, .nodes, .partitions, .accounts, .users, .qos, .reservations, .cluster]

/-- The resource with the given name. -/
def ofName? (name : String) : Option Resource := all.find? (fun r => r.name == name)

end Resource

inductive Action where
  | list
  | get
  | create
  | update
  | delete
  | watch
  | ping
  deriving DecidableEq, Repr

namespace Action

def name : Action → String
  | .list => "list"
  | .get => "get"
  | .create => "create"
  | .update => "update"
  | .delete => "delete"
  | .watch => "watch"
  | .ping => "ping"

def all : List Action := [.list, .get, .create, .update, .delete, .watch, .ping]

/-- The action with the given name. -/
def ofName? (name : String) : Option Action := all.find? (fun a => a.name == name)

end Action

/-- One operation, such as updating jobs. -/
structure Operation where
  resource : Resource
  action : Action
  deriving DecidableEq, Repr

namespace Operation

/-- An operation is named by its resource and action, such as `jobs.update`. -/
def name (op : Operation) : String := op.resource.name ++ "." ++ op.action.name

/-- The operation with the given name. -/
def ofName? (name : String) : Option Operation :=
  match (Text.pieces '.' name.toList).map String.ofList with
  | [r, a] => do return ⟨← Resource.ofName? r, ← Action.ofName? a⟩
  | _ => none

end Operation

end SlurmLink

import SlurmLink.Operation
import SlurmLink.Version

/-!
The revisions of the REST interface that this client speaks, and what each of them can do.
-/

namespace SlurmLink

/-- A revision with an adapter, named by the last component of its version. -/
inductive Revision where
  | v40
  | v41
  | v42
  | v43
  | v44
  deriving DecidableEq, Repr

namespace Revision

/-- Every revision, the oldest first. -/
def all : List Revision := [.v40, .v41, .v42, .v43, .v44]

/-- The last component of the revision's version. -/
def patch : Revision → UInt32
  | .v40 => 40
  | .v41 => 41
  | .v42 => 42
  | .v43 => 43
  | .v44 => 44

def apiVersion (r : Revision) : ApiVersion := .ofPatch r.patch

instance : ToString Revision := ⟨fun r => toString r.apiVersion⟩

/-- The revision `r` is `s` or newer. -/
def atLeast (r s : Revision) : Bool := s.patch ≤ r.patch

/-- The revision of a version, if there is an adapter for it. -/
def ofApiVersion? (v : ApiVersion) : Option Revision := all.find? (fun r => r.apiVersion = v)

/-- The version of every revision, in ascending order. -/
def versions : List ApiVersion := all.map apiVersion

/-- The greatest of an ascending list of versions that is not above `target`, or else the first. -/
def nearestIn (versions : List ApiVersion) (target : ApiVersion) : Option ApiVersion :=
  (versions.reverse.find? (fun v => v ≤ target)).or versions.head?

/-- The version of a revision nearest to `target`: the newest one not above it, or else the oldest
    one. -/
def nearest (target : ApiVersion) : ApiVersion :=
  (nearestIn versions target).getD (apiVersion .v40)

/-- Whether the revision offers an operation. -/
def supports (r : Revision) (op : Operation) : Bool :=
  match op.resource, op.action with
  | .jobs, .list | .jobs, .get | .jobs, .create | .jobs, .delete => true
  | .jobs, .update => r.atLeast .v41
  | .jobs, .watch | .nodes, .watch => r.atLeast .v42
  | .nodes, .list | .nodes, .get | .nodes, .update | .nodes, .delete => true
  | .partitions, .list | .partitions, .get => true
  | .accounts, .list | .accounts, .get | .accounts, .create | .accounts, .update
  | .accounts, .delete => true
  | .users, .list | .users, .get | .users, .create | .users, .update | .users, .delete => true
  | .qos, .list | .qos, .get | .qos, .create | .qos, .update => true
  | .qos, .delete => r.atLeast .v43
  | .reservations, .list | .reservations, .get => true
  | .reservations, .create | .reservations, .update | .reservations, .delete => r.atLeast .v43
  | .cluster, .get | .cluster, .ping => true
  | _, _ => false

/-- The name of a job's switch count. -/
def switchesField : Revision → String
  | .v40 => "minimum_switches"
  | _ => "required_switches"

/-- Whether a job may ask for nodes of its own. -/
def acceptsExclusive (r : Revision) : Bool := Revision.v41.atLeast r

end Revision

end SlurmLink

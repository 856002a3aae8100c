import SlurmLink.Command.Basic

/-!
What can be watched: a list of items, each with a key by which it is known again and a state whose
change is of interest.
-/

namespace SlurmLink

/-- What a watch lists, and how it tells the items and their states apart. -/
structure Subject (α : Type) where
  resource : Resource
  /-- The command that lists the items. -/
  command : Command
  /-- The items in the answer to the command. -/
  items : Answer → List α
  key : α → String
  state : α → String

namespace Subject

/-- The jobs that a filter lets pass. -/
def jobs (filter : JobFilter) : Subject Job where
  resource := .jobs
  command := .listJobs filter {}
  items
    | .jobs page => page.items
    | _ => []
  key job := toString job.jobId
  state job := job.state.toText

def nodes : Subject Node where
  resource := .nodes
  command := .listNodes {}
  items
    | .nodes page => page.items
    | _ => []
  key := Node.name
  state := Node.stateLabel

def partitions : Subject Partition where
  resource := .partitions
  command := .listPartitions {}
  items
    | .partitions page => page.items
    | _ => []
  key := Partition.name
  state := Partition.stateLabel

def accounts : Subject Account where
  resource := .accounts
  command := .listAccounts {}
  items
    | .accounts page => page.items
    | _ => []
  key := Account.name
  state := Account.description

def users : Subject User where
  resource := .users
  command := .listUsers {}
  items
    | .users page => page.items
    | _ => []
  key := User.name
  state user := user.defaultAccount.getD ""

def qos : Subject Qos where
  resource := .qos
  command := .listQos {}
  items
    | .qualities page => page.items
    | _ => []
  key := Qos.name
  state quality := Text.joinWith "," quality.flags

def reservations : Subject Reservation where
  resource := .reservations
  command := .listReservations {}
  items
    | .reservations page => page.items
    | _ => []
  key := Reservation.name
  state reservation := Text.joinWith "," reservation.flags

end Subject

end SlurmLink

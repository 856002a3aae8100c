import SlurmLink.Command.Basic

/-!
Commands from the name of an operation and its arguments.
-/

namespace SlurmLink

/-- The arguments that commands take; each command uses those that it needs. -/
structure Arguments where
  filter : JobFilter := {}
  options : ListOptions := {}
  id : Nat := 0
  name : String := ""
  submission : JobSubmission := {}
  jobUpdate : JobUpdate := {}
  nodeUpdate : NodeUpdate := {}
  account : Account := {}
  user : User := {}
  qos : Qos := {}
  reservation : Reservation := {}

namespace Command

/-- The command that performs an operation once, if there is one. -/
def of? (a : Arguments) (op : Operation) : Option Command :=
  match op.resource, op.action with
  | .jobs, .list => some (.listJobs a.filter a.options)
  | .jobs, .get => some (.getJob a.id)
  | .jobs, .create => some (.submitJob a.submission)
  | .jobs, .update => some (.updateJob a.id a.jobUpdate)
  | .jobs, .delete => some (.cancelJob a.id)
  | .nodes, .list => some (.listNodes a.options)
  | .nodes, .get => some (.getNode a.name)
  | .nodes, .create => some .createNode
  | .nodes, .update => some (.updateNode a.name a.nodeUpdate)
  | .nodes, .delete => some (.deleteNode a.name)
  | .partitions, .list => some (.listPartitions a.options)
  | .partitions, .get => some (.getPartition a.name)
  | .partitions, .create => some .createPartition
  | .partitions, .update => some .updatePartition
  | .partitions, .delete => some .deletePartition
  | .accounts, .list => some (.listAccounts a.options)
  | .accounts, .get => some (.getAccount a.name)
  | .accounts, .create => some (.createAccount a.account)
  | .accounts, .update => some (.updateAccount a.account)
  | .accounts, .delete => some (.deleteAccount a.name)
  | .users, .list => some (.listUsers a.options)
  | .users, .get => some (.getUser a.name)
  | .users, .create => some (.createUser a.user)
  | .users, .update => some (.updateUser a.user)
  | .users, .delete => some (.deleteUser a.name)
  | .qos, .list => some (.listQos a.options)
  | .qos, .get => some (.getQos a.name)
  | .qos, .create => some (.createQos a.qos)
  | .qos, .update => some (.updateQos a.qos)
  | .qos, .delete => some (.deleteQos a.name)
  | .reservations, .list => some (.listReservations a.options)
  | .reservations, .get => some (.getReservation a.name)
  | .reservations, .create => some (.createReservation a.reservation)
  | .reservations, .update => some (.updateReservation a.reservation)
  | .reservations, .delete => some (.deleteReservation a.name)
  | .cluster, .ping => some .ping
  | .cluster, .get => some .describeCluster
  | _, _ => none

end Command

end SlurmLink

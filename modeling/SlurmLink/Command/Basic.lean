import SlurmLink.Resource.Accounting
import SlurmLink.Resource.Cluster
import SlurmLink.Resource.Node
import SlurmLink.Resource.Reservation
import SlurmLink.Session.Basic

/-!
Commands: what can be asked of a server within a session. A command says which operation it is, which
request it makes, and how the answer is read. The revision's offer comes before the check of the
arguments, and both come before anything is sent.
-/

namespace SlurmLink

/-- A command. Those that no revision offers carry no arguments. -/
inductive Command where
  | listJobs (filter : JobFilter) (options : ListOptions)
  | getJob (id : Nat)
  | submitJob (job : JobSubmission)
  | updateJob (id : Nat) (update : JobUpdate)
  | cancelJob (id : Nat)
  | listNodes (options : ListOptions)
  | getNode (name : String)
  | createNode
  | updateNode (name : String) (update : NodeUpdate)
  | deleteNode (name : String)
  | listPartitions (options : ListOptions)
  | getPartition (name : String)
  | createPartition
  | updatePartition
  | deletePartition
  | listAccounts (options : ListOptions)
  | getAccount (name : String)
  | createAccount (account : Account)
  | updateAccount (account : Account)
  | deleteAccount (name : String)
  | listUsers (options : ListOptions)
  | getUser (name : String)
  | createUser (user : User)
  | updateUser (user : User)
  | deleteUser (name : String)
  | listQos (options : ListOptions)
  | getQos (name : String)
  | createQos (qos : Qos)
  | updateQos (qos : Qos)
  | deleteQos (name : String)
  | listReservations (options : ListOptions)
  | getReservation (name : String)
  | createReservation (reservation : Reservation)
  | updateReservation (reservation : Reservation)
  | deleteReservation (name : String)
  | ping
  | describeCluster
  deriving DecidableEq, Repr

/-- What a command comes to. -/
inductive Answer where
  | done
  | jobs (page : Page Job)
  | job (job : Job)
  | submitted (result : SubmitResult)
  | nodes (page : Page Node)
  | node (node : Node)
  | partitions (page : Page Partition)
  | partition (partition : Partition)
  | accounts (page : Page Account)
  | account (account : Account)
  | users (page : Page User)
  | user (user : User)
  | qualities (page : Page Qos)
  | quality (qos : Qos)
  | reservations (page : Page Reservation)
  | reservation (reservation : Reservation)
  | pings (pings : List ControllerPing)
  | cluster (info : ClusterInfo)
  deriving DecidableEq, Repr

namespace Command

/-- The operation that a command is. -/
def operation : Command → Operation
  | .listJobs .. => ⟨.jobs, .list⟩
  | .getJob _ => ⟨.jobs, .get⟩
  | .submitJob _ => ⟨.jobs, .create⟩
  | .updateJob .. => ⟨.jobs, .update⟩
  | .cancelJob _ => ⟨.jobs, .delete⟩
  | .listNodes _ => ⟨.nodes, .list⟩
  | .getNode _ => ⟨.nodes, .get⟩
  | .createNode => ⟨.nodes, .create⟩
  | .updateNode .. => ⟨.nodes, .update⟩
  | .deleteNode _ => ⟨.nodes, .delete⟩
  | .listPartitions _ => ⟨.partitions, .list⟩
  | .getPartition _ => ⟨.partitions, .get⟩
  | .createPartition => ⟨.partitions, .create⟩
  | .updatePartition => ⟨.partitions, .update⟩
  | .deletePartition => ⟨.partitions, .delete⟩
  | .listAccounts _ => ⟨.accounts, .list⟩
  | .getAccount _ => ⟨.accounts, .get⟩
  | .createAccount _ => ⟨.accounts, .create⟩
  | .updateAccount _ => ⟨.accounts, .update⟩
  | .deleteAccount _ => ⟨.accounts, .delete⟩
  | .listUsers _ => ⟨.users, .list⟩
  | .getUser _ => ⟨.users, .get⟩
  | .createUser _ => ⟨.users, .create⟩
  | .updateUser _ => ⟨.users, .update⟩
  | .deleteUser _ => ⟨.users, .delete⟩
  | .listQos _ => ⟨.qos, .list⟩
  | .getQos _ => ⟨.qos, .get⟩
  | .createQos _ => ⟨.qos, .create⟩
  | .updateQos _ => ⟨.qos, .update⟩
  | .deleteQos _ => ⟨.qos, .delete⟩
  | .listReservations _ => ⟨.reservations, .list⟩
  | .getReservation _ => ⟨.reservations, .get⟩
  | .createReservation _ => ⟨.reservations, .create⟩
  | .updateReservation _ => ⟨.reservations, .update⟩
  | .deleteReservation _ => ⟨.reservations, .delete⟩
  | .ping => ⟨.cluster, .ping⟩
  | .describeCluster => ⟨.cluster, .get⟩

/-! ### Requests -/

/-- A request that changes something, with a checked body. -/
def post (plugin : Plugin) (path : List String) (body : Except Rejection Json) :
    Except Rejection (Option Draft) := do
  return some { method := .post, plugin, path, body := some (← body) }

/-- A request that reads. -/
def get (plugin : Plugin) (path : List String) : Except Rejection (Option Draft) :=
  .ok (some { plugin, path })

/-- A request that deletes. -/
def delete (plugin : Plugin) (path : List String) : Except Rejection (Option Draft) :=
  .ok (some { method := .delete, plugin, path })

/-- The request of a command to a revision, if it makes one. -/
def draft (revision : Revision) : Command → Except Rejection (Option Draft)
  | .listJobs .. => get .slurm ["jobs"]
  | .getJob id => get .slurm ["job", toString id]
  | .submitJob job => post .slurm ["job", "submit"] (job.body revision)
  | .updateJob id update => post .slurm ["job", toString id] update.body
  | .cancelJob id => delete .slurm ["job", toString id]
  | .listNodes _ => get .slurm ["nodes"]
  | .getNode name => get .slurm ["node", name]
  | .updateNode name update => post .slurm ["node", name] update.body
  | .deleteNode name => delete .slurm ["node", name]
  | .listPartitions _ => get .slurm ["partitions"]
  | .getPartition name => get .slurm ["partition", name]
  | .createNode | .createPartition | .updatePartition | .deletePartition => .ok none
  | .listAccounts _ => get .slurmdb ["accounts"]
  | .getAccount name => get .slurmdb ["account", name]
  | .createAccount account | .updateAccount account => post .slurmdb ["accounts"] account.body
  | .deleteAccount name => delete .slurmdb ["account", name]
  | .listUsers _ => get .slurmdb ["users"]
  | .getUser name => get .slurmdb ["user", name]
  | .createUser user | .updateUser user => post .slurmdb ["users"] user.body
  | .deleteUser name => delete .slurmdb ["user", name]
  | .listQos _ => get .slurmdb ["qos"]
  | .getQos name => get .slurmdb ["qos", name]
  | .createQos qos | .updateQos qos => post .slurmdb ["qos"] qos.body
  | .deleteQos name => delete .slurmdb ["qos", name]
  | .listReservations _ => get .slurm ["reservations"]
  | .getReservation name => get .slurm ["reservation", name]
  | .createReservation r => post .slurm ["reservation"] r.createBody
  | .updateReservation r => post .slurm ["reservations"] r.updateBody
  | .deleteReservation name => delete .slurm ["reservation", name]
  | .ping | .describeCluster => get .slurm ["ping"]

/-- The request of a command within a session, if it makes one: first the revision must offer the
    operation, then the arguments must pass their check. -/
def prepare (s : Session) (c : Command) : Except Error (Option Request) :=
  match s.ensure c.operation with
  | .error e => .error e
  | .ok _ =>
    match c.draft s.revision with
    | .error r => .error (s.fail (.rejected r))
    | .ok none => .ok none
    | .ok (some d) => (s.request d).map some

/-! ### Answers -/

/-- Reads the body of an answer to the named request. -/
def decode {α : Type} (what : String) (read : Json → Option α) (body : List UInt8) :
    Except Failure α :=
  match (Json.ofBytes? body).bind read with
  | some a => .ok a
  | none => .error (.malformed what)

/-- Reads a list and cuts the wanted page out of it. -/
def decodePage {α : Type} (what : String) (read : Json → Option (List α)) (options : ListOptions)
    (body : List UInt8) : Except Failure (Page α) :=
  (decode what read body).map fun items => Page.slice items options

/-- Reads a list and takes its first record. The key is only named if there is none. -/
def decodeFirst {α : Type} (what key : String) (read : Json → Option (List α))
    (body : List UInt8) : Except Failure α :=
  match decode what read body with
  | .error f => .error f
  | .ok [] => .error (.missing what key)
  | .ok (a :: _) => .ok a

/-- Reads the answer to a submission, which must name the job. -/
def decodeSubmission (body : List UInt8) : Except Failure SubmitResult :=
  match decode "job submit" SubmitResult.ofWire body with
  | .error f => .error f
  | .ok none => .error .noJobId
  | .ok (some r) => .ok r

/-- Reads the body of a successful answer to a command. What comes back for a change is not read. -/
def read (version : ApiVersion) (body : List UInt8) : Command → Except Failure Answer
  | .listJobs filter options =>
    (decode "jobs" Job.listOfWire body).map fun jobs =>
      .jobs (Page.slice (jobs.filter filter.accepts) options)
  | .getJob id => (decodeFirst "job" (toString id) Job.listOfWire body).map .job
  | .submitJob _ => (decodeSubmission body).map .submitted
  | .listNodes options => (decodePage "nodes" Node.listOfWire options body).map .nodes
  | .getNode name => (decodeFirst "node" name Node.listOfWire body).map .node
  | .listPartitions options =>
    (decodePage "partitions" Partition.listOfWire options body).map .partitions
  | .getPartition name => (decodeFirst "partition" name Partition.listOfWire body).map .partition
  | .listAccounts options => (decodePage "accounts" Account.listOfWire options body).map .accounts
  | .getAccount name => (decodeFirst "account" name Account.listOfWire body).map .account
  | .listUsers options => (decodePage "users" User.listOfWire options body).map .users
  | .getUser name => (decodeFirst "user" name User.listOfWire body).map .user
  | .listQos options => (decodePage "qos" Qos.listOfWire options body).map .qualities
  | .getQos name => (decodeFirst "qos" name Qos.listOfWire body).map .quality
  | .listReservations options =>
    (decodePage "reservations" Reservation.listOfWire options body).map .reservations
  | .getReservation name =>
    (decodeFirst "reservation" name Reservation.listOfWire body).map .reservation
  | .ping => (decode "ping" PingReport.ofWire body).map fun report => .pings report.pings
  | .describeCluster => (decode "ping" PingReport.ofWire body).map fun report =>
      .cluster {
        clusterName := report.cluster
        release := report.release
        apiVersion := version
        controllers := report.pings }
  | .updateJob .. | .cancelJob _ | .createNode | .updateNode .. | .deleteNode _ | .createPartition
  | .updatePartition | .deletePartition | .createAccount _ | .updateAccount _ | .deleteAccount _
  | .createUser _ | .updateUser _ | .deleteUser _ | .createQos _ | .updateQos _ | .deleteQos _
  | .createReservation _ | .updateReservation _ | .deleteReservation _ => .ok .done

/-- What a command comes to, from the outcome of its call. -/
def conclude (s : Session) (c : Command) : Except Failure Response → Except Error Answer
  | .error f => .error (s.fail f)
  | .ok r => (c.read s.apiVersion r.body).mapError s.fail

end Command

end SlurmLink

import SlurmLink.Rejection
import SlurmLink.Resource.Page
import SlurmLink.Resource.Quantity
import SlurmLink.Revision

/-!
Jobs: their states, what the server tells about them, submissions and changes.
-/

namespace SlurmLink

/-- The state of a job; a state without a name here is kept as it is written. -/
inductive JobState where
  | pending
  | running
  | suspended
  | completing
  | completed
  | cancelled
  | failed
  | timeout
  | nodeFail
  | preempted
  | outOfMemory
  | bootFail
  | deadline
  | other (text : String)
  deriving DecidableEq, Repr, Inhabited

namespace JobState

def toText : JobState → String
  | .pending => "PENDING"
  | .running => "RUNNING"
  | .suspended => "SUSPENDED"
  | .completing => "COMPLETING"
  | .completed => "COMPLETED"
  | .cancelled => "CANCELLED"
  | .failed => "FAILED"
  | .timeout => "TIMEOUT"
  | .nodeFail => "NODE_FAIL"
  | .preempted => "PREEMPTED"
  | .outOfMemory => "OUT_OF_MEMORY"
  | .bootFail => "BOOT_FAIL"
  | .deadline => "DEADLINE"
  | .other text => text

/-- The state of a name. What is no such name is a state of its own. -/
def ofName : String → JobState
  | "PENDING" => .pending
  | "RUNNING" => .running
  | "SUSPENDED" => .suspended
  | "COMPLETING" => .completing
  | "COMPLETED" => .completed
  | "CANCELLED" => .cancelled
  | "FAILED" => .failed
  | "TIMEOUT" => .timeout
  | "NODE_FAIL" => .nodeFail
  | "PREEMPTED" => .preempted
  | "OUT_OF_MEMORY" => .outOfMemory
  | "BOOT_FAIL" => .bootFail
  | "DEADLINE" => .deadline
  | text => .other text

/-- A state is compared without the blanks around it and in upper case. -/
def normalize (s : String) : String := Text.upper (String.ofList (Text.trim s.toList))

def parse (s : String) : JobState := ofName (normalize s)

/-- Holds when the job will not run again. -/
def isTerminal : JobState → Bool
  | .completed | .cancelled | .failed | .timeout | .nodeFail | .preempted | .outOfMemory
  | .bootFail | .deadline => true
  | _ => false

def isOther : JobState → Bool
  | .other _ => true
  | _ => false

def ofJson? (v : Json) : Option JobState := (Json.readText v).map parse
def toJson (s : JobState) : Json := .str s.toText

end JobState

namespace Json

def readTime (v : Json) : Option Timestamp := (readText v).bind Timestamp.ofText?
def ofTime (t : Timestamp) : Json := .str t.toText

end Json

/-- A job as the server lists it. A missing time limit means that there is none. -/
structure Job where
  jobId : Nat
  name : String
  userName : Option String
  account : Option String
  partition : Option String
  qos : Option String
  state : JobState
  stateReason : Option String
  nodes : Option String
  nodeCount : Option Nat
  cpus : Option Nat
  timeLimitMinutes : Option Nat
  priority : Option Nat
  submitTime : Option Timestamp
  startTime : Option Timestamp
  endTime : Option Timestamp
  exitCode : Option Int
  requiredSwitches : Option Nat
  workingDirectory : Option String
  deriving DecidableEq, Repr, Inhabited

namespace Job

def toJson (j : Job) : Json :=
  .obj [("job_id", .ofNat j.jobId), ("name", .str j.name),
    ("user_name", .ofOption .str j.userName), ("account", .ofOption .str j.account),
    ("partition", .ofOption .str j.partition), ("qos", .ofOption .str j.qos),
    ("state", j.state.toJson), ("state_reason", .ofOption .str j.stateReason),
    ("nodes", .ofOption .str j.nodes), ("node_count", .ofOption .ofNat j.nodeCount),
    ("cpus", .ofOption .ofNat j.cpus),
    ("time_limit_minutes", .ofOption .ofNat j.timeLimitMinutes),
    ("priority", .ofOption .ofNat j.priority), ("submit_time", .ofOption .ofTime j.submitTime),
    ("start_time", .ofOption .ofTime j.startTime), ("end_time", .ofOption .ofTime j.endTime),
    ("exit_code", .ofOption .int j.exitCode),
    ("required_switches", .ofOption .ofNat j.requiredSwitches),
    ("working_directory", .ofOption .str j.workingDirectory)]

def ofJson? (v : Json) : Option Job := do
  let r ← Json.Record.read ["job_id", "name", "user_name", "account", "partition", "qos", "state",
    "state_reason", "nodes", "node_count", "cpus", "time_limit_minutes", "priority", "submit_time",
    "start_time", "end_time", "exit_code", "required_switches", "working_directory"] v
  let jobId ← r.required "job_id" Json.readNat32
  let name ← r.required "name" Json.readText
  let userName ← r.optional "user_name" Json.readText
  let account ← r.optional "account" Json.readText
  let partition ← r.optional "partition" Json.readText
  let qos ← r.optional "qos" Json.readText
  let state ← r.required "state" JobState.ofJson?
  let stateReason ← r.optional "state_reason" Json.readText
  let nodes ← r.optional "nodes" Json.readText
  let nodeCount ← r.optional "node_count" Json.readNat32
  let cpus ← r.optional "cpus" Json.readNat32
  let timeLimitMinutes ← r.optional "time_limit_minutes" Json.readNat32
  let priority ← r.optional "priority" Json.readNat32
  let submitTime ← r.optional "submit_time" Json.readTime
  let startTime ← r.optional "start_time" Json.readTime
  let endTime ← r.optional "end_time" Json.readTime
  let exitCode ← r.optional "exit_code" Json.readInt32
  let requiredSwitches ← r.optional "required_switches" Json.readNat32
  let workingDirectory ← r.optional "working_directory" Json.readText
  return {
    jobId, name, userName, account, partition, qos, state, stateReason, nodes, nodeCount, cpus,
    timeLimitMinutes, priority, submitTime, startTime, endTime, exitCode, requiredSwitches,
    workingDirectory }

/-- The exit code in a job's record, which is nested once more. -/
def readExitCode (level : Nat) (v : Json) : Option (Option Quantity) := do
  let r ← Json.Record.read ["return_code"] v
  r.setting "return_code" (Quantity.read level)

/-- Reads a job's record in a message. A record without an id is no job; a job without any state is
    in an unknown one. -/
def ofWire (v : Json) : Option (Option Job) := do
  let r ← Json.Record.read ["job_id", "name", "user_name", "account", "partition", "qos",
    "job_state", "state_reason", "nodes", "node_count", "cpus", "time_limit", "priority",
    "submit_time", "start_time", "end_time", "exit_code", "required_switches",
    "current_working_directory"] (Json.Record.withAlias "minimum_switches" "required_switches" v)
  let jobId ← r.setting "job_id" Json.readNat32
  let name ← r.withDefault "name" "" Json.readText
  let userName ← r.setting "user_name" Json.readText
  let account ← r.setting "account" Json.readText
  let partition ← r.setting "partition" Json.readText
  let qos ← r.setting "qos" Json.readText
  let states ← r.withDefault "job_state" [] (Json.readTexts 3)
  let stateReason ← r.setting "state_reason" Json.readText
  let nodes ← r.setting "nodes" Json.readText
  let nodeCount ← r.setting "node_count" (Quantity.read 3)
  let cpus ← r.setting "cpus" (Quantity.read 3)
  let timeLimit ← r.setting "time_limit" (Quantity.read 3)
  let priority ← r.setting "priority" (Quantity.read 3)
  let submitTime ← r.setting "submit_time" (Quantity.read 3)
  let startTime ← r.setting "start_time" (Quantity.read 3)
  let endTime ← r.setting "end_time" (Quantity.read 3)
  let exitCode ← r.setting "exit_code" (readExitCode 4)
  let requiredSwitches ← r.setting "required_switches" (Quantity.read 3)
  let workingDirectory ← r.setting "current_working_directory" Json.readText
  return jobId.map fun jobId => {
      jobId, name
      userName := nonEmpty userName
      account := nonEmpty account
      partition := nonEmpty partition
      qos := nonEmpty qos
      state := (states.head?.map JobState.parse).getD (.other "UNKNOWN")
      stateReason := (nonEmpty stateReason).filter (· != "None")
      nodes := nonEmpty nodes
      nodeCount := Quantity.nat32? nodeCount
      cpus := Quantity.nat32? cpus
      timeLimitMinutes := Quantity.nat32? timeLimit
      priority := Quantity.nat32? priority
      submitTime := Quantity.time? submitTime
      startTime := Quantity.time? startTime
      endTime := Quantity.time? endTime
      exitCode := Quantity.int32? (exitCode.bind id)
      requiredSwitches := Quantity.nat32? requiredSwitches
      workingDirectory := nonEmpty workingDirectory }

/-- Reads a message that lists jobs. -/
def listOfWire (v : Json) : Option (List Job) := readRecords "jobs" ofWire v

end Job

/-- Which jobs of a list are wanted; an empty filter lets all pass. -/
structure JobFilter where
  users : List String := []
  accounts : List String := []
  partitions : List String := []
  states : List JobState := []
  deriving DecidableEq, Repr

namespace JobFilter

def passes (filter : List String) (value : Option String) : Bool :=
  filter.isEmpty || value.any fun v => filter.contains v

def accepts (f : JobFilter) (j : Job) : Bool :=
  passes f.users j.userName && passes f.accounts j.account && passes f.partitions j.partition &&
    (f.states.isEmpty || f.states.contains j.state)

end JobFilter

/-! ### Submissions -/

/-- Variables with their values, in ascending order of the names, each name once. -/
abbrev Environment := List (String × String)

namespace Environment

/-- Sets a variable. -/
def insert (key value : String) : Environment → Environment
  | [] => [(key, value)]
  | (k, v) :: rest =>
    if key < k then (key, value) :: (k, v) :: rest
    else if key = k then (key, value) :: rest
    else (k, v) :: insert key value rest

/-- The variables of a list; of several values for a name the last one counts. -/
def ofPairs (pairs : List (String × String)) : Environment :=
  pairs.foldl (fun env p => insert p.1 p.2 env) []

def ofJson? : Json → Option Environment
  | .obj members =>
    (members.mapM fun m => (Json.readText m.2).map fun s => (m.1, s)).map ofPairs
  | _ => none

def toJson (env : Environment) : Json := .obj (env.map fun p => (p.1, .str p.2))

end Environment

/-- A batch job to submit. -/
structure JobSubmission where
  name : String := ""
  script : String := ""
  account : Option String := none
  partition : Option String := none
  qos : Option String := none
  workingDirectory : Option String := none
  environment : Environment := []
  timeLimitMinutes : Option Nat := none
  nodes : Option Nat := none
  tasks : Option Nat := none
  cpusPerTask : Option Nat := none
  memoryPerNodeMb : Option Nat := none
  requiredSwitches : Option Nat := none
  exclusive : Option Bool := none
  standardOutput : Option String := none
  standardError : Option String := none
  deriving DecidableEq, Repr, Inhabited

namespace JobSubmission

def validate (j : JobSubmission) : Except Rejection Unit :=
  if Text.allBlank j.name.toList then .error .unnamedJob
  else if j.script.toList.take 2 ≠ ['#', '!'] then .error .noInterpreter
  else if j.nodes = some 0 then .error .zeroNodes
  else if j.timeLimitMinutes = some 0 then .error .zeroTime
  else .ok ()

/-- The variables as they are sent. Batch jobs do not start without any, so a search path is put in
    front unless one is given. -/
def environmentTexts (j : JobSubmission) : List String :=
  (if j.environment.any (fun p => p.1 == "PATH") then [] else ["PATH=/usr/bin:/bin"]) ++
    j.environment.map fun p => p.1 ++ "=" ++ p.2

/-- The body of a submission in the shape of a revision. -/
def description (revision : Revision) (j : JobSubmission) : Json :=
  .ofSet [
    ("name", some (.str j.name)),
    ("script", some (.str j.script)),
    ("account", j.account.map .str),
    ("partition", j.partition.map .str),
    ("qos", j.qos.map .str),
    ("standard_output", j.standardOutput.map .str),
    ("standard_error", j.standardError.map .str),
    ("current_working_directory", some (.str (j.workingDirectory.getD "/tmp"))),
    ("environment", some (.ofTexts j.environmentTexts)),
    ("time_limit", j.timeLimitMinutes.map .ofQuantity),
    ("tasks", j.tasks.map .ofQuantity),
    ("cpus_per_task", j.cpusPerTask.map .ofQuantity),
    ("memory_per_node", j.memoryPerNodeMb.map .ofQuantity),
    ("nodes", j.nodes.map fun n => .str (toString n)),
    (revision.switchesField, j.requiredSwitches.map .ofQuantity),
    ("exclusive", j.exclusive.map fun b => .ofTexts [if b then "true" else "false"])]

/-- The body of a checked submission. -/
def body (revision : Revision) (j : JobSubmission) : Except Rejection Json := do
  j.validate
  if j.exclusive.isSome && !revision.acceptsExclusive then
    throw (.exclusiveFlag revision.apiVersion)
  return .obj [("job", j.description revision)]

def toJson (j : JobSubmission) : Json :=
  .obj [("name", .str j.name), ("script", .str j.script), ("account", .ofOption .str j.account),
    ("partition", .ofOption .str j.partition), ("qos", .ofOption .str j.qos),
    ("working_directory", .ofOption .str j.workingDirectory),
    ("environment", j.environment.toJson),
    ("time_limit_minutes", .ofOption .ofNat j.timeLimitMinutes),
    ("nodes", .ofOption .ofNat j.nodes), ("tasks", .ofOption .ofNat j.tasks),
    ("cpus_per_task", .ofOption .ofNat j.cpusPerTask),
    ("memory_per_node_mb", .ofOption .ofNat j.memoryPerNodeMb),
    ("required_switches", .ofOption .ofNat j.requiredSwitches),
    ("exclusive", .ofOption .bool j.exclusive),
    ("standard_output", .ofOption .str j.standardOutput),
    ("standard_error", .ofOption .str j.standardError)]

def ofJson? (v : Json) : Option JobSubmission := do
  let r ← Json.Record.read ["name", "script", "account", "partition", "qos", "working_directory",
    "environment", "time_limit_minutes", "nodes", "tasks", "cpus_per_task", "memory_per_node_mb",
    "required_switches", "exclusive", "standard_output", "standard_error"] v
  let name ← r.required "name" Json.readText
  let script ← r.required "script" Json.readText
  let account ← r.optional "account" Json.readText
  let partition ← r.optional "partition" Json.readText
  let qos ← r.optional "qos" Json.readText
  let workingDirectory ← r.optional "working_directory" Json.readText
  let environment ← r.required "environment" Environment.ofJson?
  let timeLimitMinutes ← r.optional "time_limit_minutes" Json.readNat32
  let nodes ← r.optional "nodes" Json.readNat32
  let tasks ← r.optional "tasks" Json.readNat32
  let cpusPerTask ← r.optional "cpus_per_task" Json.readNat32
  let memoryPerNodeMb ← r.optional "memory_per_node_mb" Json.readNat64
  let requiredSwitches ← r.optional "required_switches" Json.readNat32
  let exclusive ← r.optional "exclusive" Json.readBool
  let standardOutput ← r.optional "standard_output" Json.readText
  let standardError ← r.optional "standard_error" Json.readText
  return {
    name, script, account, partition, qos, workingDirectory, environment, timeLimitMinutes, nodes,
    tasks, cpusPerTask, memoryPerNodeMb, requiredSwitches, exclusive, standardOutput,
    standardError }

end JobSubmission

/-- The answer to a submission. -/
structure SubmitResult where
  jobId : Nat
  stepId : Option String
  /-- A message of the server's submission plugin. -/
  userMessage : Option String
  deriving DecidableEq, Repr

namespace SubmitResult

def toJson (s : SubmitResult) : Json :=
  .obj [("job_id", .ofNat s.jobId), ("step_id", .ofOption .str s.stepId),
    ("user_message", .ofOption .str s.userMessage)]

def ofJson? (v : Json) : Option SubmitResult := do
  let r ← Json.Record.read ["job_id", "step_id", "user_message"] v
  let jobId ← r.required "job_id" Json.readNat32
  let stepId ← r.optional "step_id" Json.readText
  let userMessage ← r.optional "user_message" Json.readText
  return { jobId, stepId, userMessage }

/-- Reads the answer; it may fail to name the job. -/
def ofWire (v : Json) : Option (Option SubmitResult) := do
  let r ← Json.Record.read ["job_id", "step_id", "job_submit_user_msg"] v
  let jobId ← r.setting "job_id" Json.readNat32
  let stepId ← r.setting "step_id" Json.readText
  let userMessage ← r.setting "job_submit_user_msg" Json.readText
  return jobId.map fun jobId =>
    { jobId, stepId := nonEmpty stepId, userMessage := nonEmpty userMessage }

end SubmitResult

/-! ### Changes -/

/-- Changes to a job; what is not set stays. -/
structure JobUpdate where
  name : Option String := none
  timeLimitMinutes : Option Nat := none
  priority : Option Nat := none
  partition : Option String := none
  qos : Option String := none
  comment : Option String := none
  hold : Option Bool := none
  deriving DecidableEq, Repr, Inhabited

namespace JobUpdate

def isEmpty (u : JobUpdate) : Bool := u = {}

def validate (u : JobUpdate) : Except Rejection Unit :=
  if u.isEmpty then .error .emptyJobUpdate
  else if u.timeLimitMinutes = some 0 then .error .zeroTime
  else .ok ()

/-- The fields that are set. -/
def description (u : JobUpdate) : Json :=
  .ofSet [
    ("name", u.name.map .str),
    ("partition", u.partition.map .str),
    ("qos", u.qos.map .str),
    ("comment", u.comment.map .str),
    ("time_limit", u.timeLimitMinutes.map .ofQuantity),
    ("priority", u.priority.map .ofQuantity),
    ("hold", u.hold.map .bool)]

/-- The body of a checked change. -/
def body (u : JobUpdate) : Except Rejection Json := do
  u.validate
  return u.description

def toJson (u : JobUpdate) : Json :=
  .obj [("name", .ofOption .str u.name),
    ("time_limit_minutes", .ofOption .ofNat u.timeLimitMinutes),
    ("priority", .ofOption .ofNat u.priority), ("partition", .ofOption .str u.partition),
    ("qos", .ofOption .str u.qos), ("comment", .ofOption .str u.comment),
    ("hold", .ofOption .bool u.hold)]

def ofJson? (v : Json) : Option JobUpdate := do
  let r ← Json.Record.read ["name", "time_limit_minutes", "priority", "partition", "qos",
    "comment", "hold"] v
  let name ← r.optional "name" Json.readText
  let timeLimitMinutes ← r.optional "time_limit_minutes" Json.readNat32
  let priority ← r.optional "priority" Json.readNat32
  let partition ← r.optional "partition" Json.readText
  let qos ← r.optional "qos" Json.readText
  let comment ← r.optional "comment" Json.readText
  let hold ← r.optional "hold" Json.readBool
  return { name, timeLimitMinutes, priority, partition, qos, comment, hold }

end JobUpdate

end SlurmLink

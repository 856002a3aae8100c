import SlurmLink.Rejection
import SlurmLink.Resource.Page
import SlurmLink.Resource.Quantity

/-!
Nodes and partitions: what the server tells about them, and changes to nodes. Partitions are only
read.
-/

namespace SlurmLink

/-- A node as the server lists it. The first state is the basic one, and flags follow it. -/
structure Node where
  name : String
  state : List String
  cpus : Option Nat
  realMemoryMb : Option Nat
  partitions : List String
  features : List String
  reason : Option String
  architecture : Option String
  deriving DecidableEq, Repr, Inhabited

namespace Node

/-- The states joined by plus signs. -/
def stateLabel (n : Node) : String := Text.joinWith "+" n.state

def isDrained (n : Node) : Bool := n.state.any fun s => s == "DRAIN" || s == "DRAINED"

def toJson (n : Node) : Json :=
  .obj [("name", .str n.name), ("state", .ofTexts n.state), ("cpus", .ofOption .ofNat n.cpus),
    ("real_memory_mb", .ofOption .ofNat n.realMemoryMb), ("partitions", .ofTexts n.partitions),
    ("features", .ofTexts n.features), ("reason", .ofOption .str n.reason),
    ("architecture", .ofOption .str n.architecture)]

def ofJson? (v : Json) : Option Node := do
  let r ← Json.Record.read ["name", "state", "cpus", "real_memory_mb", "partitions", "features",
    "reason", "architecture"] v
  let name ← r.required "name" Json.readText
  let state ← r.required "state" (Json.readList Json.readText)
  let cpus ← r.optional "cpus" Json.readNat32
  let realMemoryMb ← r.optional "real_memory_mb" Json.readNat64
  let partitions ← r.required "partitions" (Json.readList Json.readText)
  let features ← r.required "features" (Json.readList Json.readText)
  let reason ← r.optional "reason" Json.readText
  let architecture ← r.optional "architecture" Json.readText
  return { name, state, cpus, realMemoryMb, partitions, features, reason, architecture }

/-- Reads a node's record in a message; a record without a name is no node. -/
def ofWire (v : Json) : Option (Option Node) := do
  let r ← Json.Record.read ["name", "state", "cpus", "real_memory", "partitions", "features",
    "reason", "architecture"] v
  let name ← r.withDefault "name" "" Json.readText
  let state ← r.withDefault "state" [] (Json.readTexts 3)
  let cpus ← r.setting "cpus" (Quantity.read 3)
  let realMemory ← r.setting "real_memory" (Quantity.read 3)
  let partitions ← r.withDefault "partitions" [] (Json.readTexts 3)
  let features ← r.withDefault "features" [] (Json.readTexts 3)
  let reason ← r.setting "reason" Json.readText
  let architecture ← r.setting "architecture" Json.readText
  return if name.isEmpty then none else some {
    name, state, partitions, features
    cpus := Quantity.nat32? cpus
    realMemoryMb := Quantity.nat64? realMemory
    reason := nonEmpty reason
    architecture := nonEmpty architecture }

/-- Reads a message that lists nodes. -/
def listOfWire (v : Json) : Option (List Node) := readRecords "nodes" ofWire v

end Node

/-- Changes to a node; what is not set stays. -/
structure NodeUpdate where
  /-- The wanted state, such as `DRAIN`, `RESUME` or `DOWN`. -/
  state : Option String := none
  reason : Option String := none
  features : Option (List String) := none
  comment : Option String := none
  deriving DecidableEq, Repr, Inhabited

namespace NodeUpdate

/-- Takes a node out of service when its jobs are over. -/
def drain (reason : String) : NodeUpdate := { state := some "DRAIN", reason := some reason }

/-- Puts a node back into service. -/
def resume : NodeUpdate := { state := some "RESUME" }

/-- The states that nobody should wonder about. -/
def needsReason (state : String) : Bool :=
  Text.sameLetters state "DRAIN" || Text.sameLetters state "DOWN"

def validate (u : NodeUpdate) : Except Rejection Unit :=
  if u = {} then .error .emptyNodeUpdate
  else if u.state.any needsReason && u.reason.all (fun r => Text.allBlank r.toList) then
    .error .noReason
  else .ok ()

/-- The fields that are set; the state is sent in upper case. -/
def description (u : NodeUpdate) : Json :=
  .ofSet [
    ("state", u.state.map fun s => .ofTexts [Text.upper s]),
    ("reason", u.reason.map .str),
    ("features", u.features.map .ofTexts),
    ("comment", u.comment.map .str)]

/-- The body of a checked change. -/
def body (u : NodeUpdate) : Except Rejection Json := do
  u.validate
  return u.description

def toJson (u : NodeUpdate) : Json :=
  .obj [("state", .ofOption .str u.state), ("reason", .ofOption .str u.reason),
    ("features", .ofOption .ofTexts u.features), ("comment", .ofOption .str u.comment)]

def ofJson? (v : Json) : Option NodeUpdate := do
  let r ← Json.Record.read ["state", "reason", "features", "comment"] v
  let state ← r.optional "state" Json.readText
  let reason ← r.optional "reason" Json.readText
  let features ← r.optional "features" (Json.readList Json.readText)
  let comment ← r.optional "comment" Json.readText
  return { state, reason, features, comment }

end NodeUpdate

/-- A partition as the server lists it. A missing time limit means that there is none. -/
structure Partition where
  name : String
  state : List String
  nodes : Option String
  totalNodes : Option Nat
  totalCpus : Option Nat
  maxTimeMinutes : Option Nat
  isDefault : Bool
  deriving DecidableEq, Repr

namespace Partition

def stateLabel (p : Partition) : String := Text.joinWith "+" p.state

def toJson (p : Partition) : Json :=
  .obj [("name", .str p.name), ("state", .ofTexts p.state), ("nodes", .ofOption .str p.nodes),
    ("total_nodes", .ofOption .ofNat p.totalNodes), ("total_cpus", .ofOption .ofNat p.totalCpus),
    ("max_time_minutes", .ofOption .ofNat p.maxTimeMinutes), ("is_default", .bool p.isDefault)]

def ofJson? (v : Json) : Option Partition := do
  let r ← Json.Record.read ["name", "state", "nodes", "total_nodes", "total_cpus",
    "max_time_minutes", "is_default"] v
  let name ← r.required "name" Json.readText
  let state ← r.required "state" (Json.readList Json.readText)
  let nodes ← r.optional "nodes" Json.readText
  let totalNodes ← r.optional "total_nodes" Json.readNat32
  let totalCpus ← r.optional "total_cpus" Json.readNat32
  let maxTimeMinutes ← r.optional "max_time_minutes" Json.readNat32
  let isDefault ← r.required "is_default" Json.readBool
  return { name, state, nodes, totalNodes, totalCpus, maxTimeMinutes, isDefault }

/-- A part of a partition's record that holds one list of texts. -/
def readTextsPart (field : String) (v : Json) : Option (List String) := do
  let r ← Json.Record.read [field] v
  r.withDefault field [] (Json.readTexts 4)

/-- A part of a partition's record that holds one number. -/
def readQuantityPart (field : String) (v : Json) : Option (Option Quantity) := do
  let r ← Json.Record.read [field] v
  r.setting field (Quantity.read 4)

/-- The part of a partition's record about its nodes: their names and their number. -/
def readNodesPart (v : Json) : Option (Option String × Option Quantity) := do
  let r ← Json.Record.read ["configured", "total"] v
  let configured ← r.setting "configured" Json.readText
  let total ← r.setting "total" (Quantity.read 4)
  return (configured, total)

/-- Reads a partition's record in a message; a record without a name is no partition. -/
def ofWire (v : Json) : Option (Option Partition) := do
  let r ← Json.Record.read ["name", "partition", "nodes", "cpus", "maximums", "flags"] v
  let name ← r.withDefault "name" "" Json.readText
  let state ← r.withDefault "partition" [] (readTextsPart "state")
  let nodes ← r.withDefault "nodes" (none, none) readNodesPart
  let cpus ← r.withDefault "cpus" none (readQuantityPart "total")
  let maximums ← r.withDefault "maximums" none (readQuantityPart "time")
  let flags ← r.withDefault "flags" [] (Json.readTexts 3)
  return if name.isEmpty then none else some {
    name, state
    nodes := nonEmpty nodes.1
    totalNodes := Quantity.nat32? nodes.2
    totalCpus := Quantity.nat32? cpus
    maxTimeMinutes := Quantity.nat32? maximums
    isDefault := flags.any fun f => Text.sameLetters f "DEFAULT" }

/-- Reads a message that lists partitions. -/
def listOfWire (v : Json) : Option (List Partition) := readRecords "partitions" ofWire v

end Partition

end SlurmLink

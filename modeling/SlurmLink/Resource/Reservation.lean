import SlurmLink.Resource.Job

/-!
Reservations of nodes for users or accounts, in a window of time.
-/

namespace SlurmLink

/-- A reservation. -/
structure Reservation where
  name : String := ""
  nodeList : Option String := none
  nodeCount : Option Nat := none
  startTime : Option Timestamp := none
  endTime : Option Timestamp := none
  users : List String := []
  accounts : List String := []
  partition : Option String := none
  flags : List String := []
  deriving DecidableEq, Repr, Inhabited

namespace Reservation

/-- Whether the window is empty; without both times there is no window to judge. -/
def windowIsEmpty (r : Reservation) : Bool :=
  match r.startTime, r.endTime with
  | some start, some stop => !start.before stop
  | _, _ => false

def validate (r : Reservation) : Except Rejection Unit := do
  checkName "reservation" r.name
  if r.windowIsEmpty then throw .emptyWindow
  if r.users.isEmpty && r.accounts.isEmpty then throw .noHolder
  if r.nodeList.isNone && r.nodeCount.isNone && r.partition.isNone then throw .noPlace

def toJson (r : Reservation) : Json :=
  .obj [("name", .str r.name), ("node_list", .ofOption .str r.nodeList),
    ("node_count", .ofOption .ofNat r.nodeCount), ("start_time", .ofOption .ofTime r.startTime),
    ("end_time", .ofOption .ofTime r.endTime), ("users", .ofTexts r.users),
    ("accounts", .ofTexts r.accounts), ("partition", .ofOption .str r.partition),
    ("flags", .ofTexts r.flags)]

def ofJson? (v : Json) : Option Reservation := do
  let r ← Json.Record.read ["name", "node_list", "node_count", "start_time", "end_time", "users",
    "accounts", "partition", "flags"] v
  let name ← r.required "name" Json.readText
  let nodeList ← r.optional "node_list" Json.readText
  let nodeCount ← r.optional "node_count" Json.readNat32
  let startTime ← r.optional "start_time" Json.readTime
  let endTime ← r.optional "end_time" Json.readTime
  let users ← r.required "users" (Json.readList Json.readText)
  let accounts ← r.required "accounts" (Json.readList Json.readText)
  let partition ← r.optional "partition" Json.readText
  let flags ← r.required "flags" (Json.readList Json.readText)
  return {
    name, nodeList, nodeCount, startTime, endTime, users, accounts, partition, flags }

/-- Reads a reservation's record in a message; a record without a name is no reservation. -/
def ofWire (v : Json) : Option (Option Reservation) := do
  let r ← Json.Record.read ["name", "node_list", "node_count", "start_time", "end_time", "users",
    "accounts", "partition", "flags"] v
  let name ← r.withDefault "name" "" Json.readText
  let nodeList ← r.setting "node_list" Json.readText
  let nodeCount ← r.setting "node_count" (Quantity.read 3)
  let startTime ← r.setting "start_time" (Quantity.read 3)
  let endTime ← r.setting "end_time" (Quantity.read 3)
  let users ← r.withDefault "users" [] (Json.readTexts 3)
  let accounts ← r.withDefault "accounts" [] (Json.readTexts 3)
  let partition ← r.setting "partition" Json.readText
  let flags ← r.withDefault "flags" [] (Json.readTexts 3)
  return if name.isEmpty then none else some {
    name, users, accounts, flags
    nodeList := nonEmpty nodeList
    nodeCount := Quantity.nat32? nodeCount
    startTime := Quantity.time? startTime
    endTime := Quantity.time? endTime
    partition := nonEmpty partition }

/-- Reads a message that lists reservations. -/
def listOfWire (v : Json) : Option (List Reservation) := readRecords "reservations" ofWire v

/-- The texts of a list, unless it is empty. -/
def someTexts (texts : List String) : Option Json :=
  if texts.isEmpty then none else some (.ofTexts texts)

/-- The fields of a reservation that are set; times are sent in whole seconds. -/
def description (r : Reservation) : Json :=
  .ofSet [
    ("name", some (.str r.name)),
    ("start_time", r.startTime.map fun t => (Quantity.ofTime t).toJson),
    ("end_time", r.endTime.map fun t => (Quantity.ofTime t).toJson),
    ("node_list", r.nodeList.map .str),
    ("node_count", r.nodeCount.map .ofQuantity),
    ("partition", r.partition.map .str),
    ("users", someTexts r.users),
    ("accounts", someTexts r.accounts),
    ("flags", someTexts r.flags)]

/-- The document that changes a reservation. -/
def document (r : Reservation) : Json := .obj [("reservations", .arr [r.description])]

/-- The body that creates a checked reservation. -/
def createBody (r : Reservation) : Except Rejection Json := do
  r.validate
  return r.description

/-- The body that changes a checked reservation. -/
def updateBody (r : Reservation) : Except Rejection Json := do
  r.validate
  return r.document

end Reservation

end SlurmLink

import SlurmLink.Rejection
import SlurmLink.Resource.Page
import SlurmLink.Resource.Quantity

/-!
Accounting: accounts, users and qualities of service. Creating and changing one sends the same
document.
-/

namespace SlurmLink

/-- An account. -/
structure Account where
  name : String := ""
  description : String := ""
  organization : String := ""
  coordinators : List String := []
  deriving DecidableEq, Repr, Inhabited

namespace Account

def validate (a : Account) : Except Rejection Unit := do
  checkName "account" a.name
  if Text.allBlank a.description.toList || Text.allBlank a.organization.toList then
    throw .incompleteAccount

def toJson (a : Account) : Json :=
  .obj [("name", .str a.name), ("description", .str a.description),
    ("organization", .str a.organization), ("coordinators", .ofTexts a.coordinators)]

def ofJson? (v : Json) : Option Account := do
  let r ← Json.Record.read ["name", "description", "organization", "coordinators"] v
  let name ← r.required "name" Json.readText
  let description ← r.required "description" Json.readText
  let organization ← r.required "organization" Json.readText
  let coordinators ← r.required "coordinators" (Json.readList Json.readText)
  return { name, description, organization, coordinators }

/-- The name of a coordinator in a message. -/
def readCoordinator (v : Json) : Option String := do
  let r ← Json.Record.read ["name"] v
  r.withDefault "name" "" Json.readText

/-- Reads an account's record in a message; a record without a name is no account. -/
def ofWire (v : Json) : Option (Option Account) := do
  let r ← Json.Record.read ["name", "description", "organization", "coordinators"] v
  let name ← r.withDefault "name" "" Json.readText
  let description ← r.withDefault "description" "" Json.readText
  let organization ← r.withDefault "organization" "" Json.readText
  let coordinators ← r.withDefault "coordinators" [] (Json.readList readCoordinator)
  return if name.isEmpty then none else some { name, description, organization, coordinators }

/-- Reads a message that lists accounts. -/
def listOfWire (v : Json) : Option (List Account) := readRecords "accounts" ofWire v

/-- The document that creates or changes an account. -/
def document (a : Account) : Json :=
  .obj [("accounts", .arr [.obj [("name", .str a.name), ("description", .str a.description),
    ("organization", .str a.organization)]])]

/-- The body of a checked account. -/
def body (a : Account) : Except Rejection Json := do
  a.validate
  return a.document

end Account

/-- A user. The level of administration is `None`, `Operator` or `Administrator`. -/
structure User where
  name : String := ""
  defaultAccount : Option String := none
  defaultWckey : Option String := none
  adminLevel : Option String := none
  deriving DecidableEq, Repr, Inhabited

namespace User

def validate (u : User) : Except Rejection Unit := checkName "user" u.name

def toJson (u : User) : Json :=
  .obj [("name", .str u.name), ("default_account", .ofOption .str u.defaultAccount),
    ("default_wckey", .ofOption .str u.defaultWckey), ("admin_level", .ofOption .str u.adminLevel)]

def ofJson? (v : Json) : Option User := do
  let r ← Json.Record.read ["name", "default_account", "default_wckey", "admin_level"] v
  let name ← r.required "name" Json.readText
  let defaultAccount ← r.optional "default_account" Json.readText
  let defaultWckey ← r.optional "default_wckey" Json.readText
  let adminLevel ← r.optional "admin_level" Json.readText
  return { name, defaultAccount, defaultWckey, adminLevel }

/-- The defaults in a user's record: account and workload key. -/
def readDefaults (v : Json) : Option (Option String × Option String) := do
  let r ← Json.Record.read ["account", "wckey"] v
  let account ← r.setting "account" Json.readText
  let wckey ← r.setting "wckey" Json.readText
  return (account, wckey)

/-- Reads a user's record in a message; a record without a name is no user. -/
def ofWire (v : Json) : Option (Option User) := do
  let r ← Json.Record.read ["name", "default", "administrator_level"] v
  let name ← r.withDefault "name" "" Json.readText
  let defaults ← r.withDefault "default" (none, none) readDefaults
  let levels ← r.withDefault "administrator_level" [] (Json.readTexts 3)
  return if name.isEmpty then none else some {
    name
    defaultAccount := nonEmpty defaults.1
    defaultWckey := nonEmpty defaults.2
    adminLevel := levels.head? }

/-- Reads a message that lists users. -/
def listOfWire (v : Json) : Option (List User) := readRecords "users" ofWire v

/-- The defaults of a user, if there are any. -/
def defaults (u : User) : Option Json :=
  if u.defaultAccount.isNone && u.defaultWckey.isNone then none
  else some (.ofSet [("account", u.defaultAccount.map .str), ("wckey", u.defaultWckey.map .str)])

/-- The document that creates or changes a user. -/
def document (u : User) : Json :=
  .obj [("users", .arr [.ofSet [
    ("name", some (.str u.name)),
    ("default", u.defaults),
    ("administrator_level", u.adminLevel.map fun level => .ofTexts [level])]])]

/-- The body of a checked user. -/
def body (u : User) : Except Rejection Json := do
  u.validate
  return u.document

end User

/-- A quality of service. A missing limit of the wall clock means that there is none. -/
structure Qos where
  name : String := ""
  description : Option String := none
  priority : Option Nat := none
  maxWallMinutesPerJob : Option Nat := none
  flags : List String := []
  deriving DecidableEq, Repr, Inhabited

namespace Qos

def validate (q : Qos) : Except Rejection Unit := checkName "qos" q.name

def toJson (q : Qos) : Json :=
  .obj [("name", .str q.name), ("description", .ofOption .str q.description),
    ("priority", .ofOption .ofNat q.priority),
    ("max_wall_minutes_per_job", .ofOption .ofNat q.maxWallMinutesPerJob),
    ("flags", .ofTexts q.flags)]

def ofJson? (v : Json) : Option Qos := do
  let r ← Json.Record.read ["name", "description", "priority", "max_wall_minutes_per_job",
    "flags"] v
  let name ← r.required "name" Json.readText
  let description ← r.optional "description" Json.readText
  let priority ← r.optional "priority" Json.readNat32
  let maxWallMinutesPerJob ← r.optional "max_wall_minutes_per_job" Json.readNat32
  let flags ← r.required "flags" (Json.readList Json.readText)
  return { name, description, priority, maxWallMinutesPerJob, flags }

/-- A record with one field that is a record again. -/
def readNested {α : Type} (field : String) (default : α) (read : Json → Option α) (v : Json) :
    Option α := do
  let r ← Json.Record.read [field] v
  r.withDefault field default read

/-- The number of a quality's wall-clock limit within the record of its job limits. -/
def readJobLimit (v : Json) : Option (Option Quantity) := do
  let r ← Json.Record.read ["job"] v
  r.setting "job" (Quantity.read 7)

/-- The limits of a quality, of which one is known here: `max.wall_clock.per.job`. -/
def readLimits : Json → Option (Option Quantity) :=
  readNested "max" none (readNested "wall_clock" none (readNested "per" none readJobLimit))

/-- Reads a quality's record in a message; a record without a name is no quality. -/
def ofWire (v : Json) : Option (Option Qos) := do
  let r ← Json.Record.read ["name", "description", "priority", "limits", "flags"] v
  let name ← r.withDefault "name" "" Json.readText
  let description ← r.setting "description" Json.readText
  let priority ← r.setting "priority" (Quantity.read 3)
  let limit ← r.withDefault "limits" none readLimits
  let flags ← r.withDefault "flags" [] (Json.readTexts 3)
  return if name.isEmpty then none else some {
    name, flags
    description := nonEmpty description
    priority := Quantity.nat32? priority
    maxWallMinutesPerJob := Quantity.nat32? limit }

/-- Reads a message that lists qualities of service. -/
def listOfWire (v : Json) : Option (List Qos) := readRecords "qos" ofWire v

/-- The limits with a wall-clock limit in them. -/
def limits (minutes : Nat) : Json :=
  .obj [("max", .obj [("wall_clock", .obj [("per", .obj [("job", .ofQuantity minutes)])])])]

/-- The document that creates or changes a quality of service. -/
def document (q : Qos) : Json :=
  .obj [("qos", .arr [.ofSet [
    ("name", some (.str q.name)),
    ("description", q.description.map .str),
    ("priority", q.priority.map .ofQuantity),
    ("limits", q.maxWallMinutesPerJob.map limits),
    ("flags", if q.flags.isEmpty then none else some (.ofTexts q.flags))]])]

/-- The body of a checked quality of service. -/
def body (q : Qos) : Except Rejection Json := do
  q.validate
  return q.document

end Qos

end SlurmLink

import SlurmLink.Json.Basic

/-!
Reading records from JSON. A record is written as an object, whose members come in any order and may
include unknown ones, or as an array, which gives the fields in the order of their declaration. A
field given twice, or an array that is too long, makes the record unreadable.
-/

namespace SlurmLink.Json

/-- What a record says about one of its fields. -/
inductive Slot where
  | given (v : Json)
  /-- The object has no such member. -/
  | absent
  /-- The array ends before the field. -/
  | beyond

/-- The fields of a record, by name. -/
structure Record where
  slots : List (String × Slot)

namespace Record

/-- The slot of a field among the members of an object; nothing if the field is given twice. -/
def slotOf (members : List (String × Json)) (name : String) : Option Slot :=
  match members.filter (fun m => m.1 == name) with
  | [] => some .absent
  | [m] => some (.given m.2)
  | _ => none

/-- The slots of the fields of an array. -/
def positional : List String → List Json → Option (List (String × Slot))
  | [], [] => some []
  | [], _ :: _ => none
  | name :: names, [] => (positional names []).map ((name, .beyond) :: ·)
  | name :: names, v :: vs => (positional names vs).map ((name, .given v) :: ·)

/-- Reads a record of the named fields. -/
def read (names : List String) : Json → Option Record
  | .obj members =>
    (names.mapM fun name => (slotOf members name).map fun s => (name, s)).map Record.mk
  | .arr items => (positional names items).map Record.mk
  | _ => none

/-- Renames members of an object before its fields are looked up. -/
def withAlias (other name : String) : Json → Json
  | .obj members => .obj (members.map fun m => if m.1 == other then (name, m.2) else m)
  | v => v

def slot (r : Record) (name : String) : Slot := (r.slots.lookup name).getD .absent

/-- A field that must be given. -/
def required {α : Type} (r : Record) (name : String) (read : Json → Option α) : Option α :=
  match r.slot name with
  | .given v => read v
  | _ => none

/-- A field that may be `null` or missing from an object, but not cut off an array. -/
def optional {α : Type} (r : Record) (name : String) (read : Json → Option α) :
    Option (Option α) :=
  match r.slot name with
  | .given .null => some none
  | .given v => (read v).map some
  | .absent => some none
  | .beyond => none

/-- A field with a default that stands in wherever it is not given. -/
def withDefault {α : Type} (r : Record) (name : String) (default : α) (read : Json → Option α) :
    Option α :=
  match r.slot name with
  | .given v => read v
  | _ => some default

/-- A field that is unset wherever it is not given, and when it is `null`. -/
def setting {α : Type} (r : Record) (name : String) (read : Json → Option α) : Option (Option α) :=
  match r.slot name with
  | .given .null => some none
  | .given v => (read v).map some
  | _ => some none

end Record

/-! ### Readers of simple values -/

def readText : Json → Option String
  | .str s => some s
  | _ => none

def readBool : Json → Option Bool
  | .bool b => some b
  | _ => none

/-- An integer between two bounds. -/
def readInt (low high : Int) : Json → Option Int
  | .int n => if low ≤ n ∧ n ≤ high then some n else none
  | _ => none

/-- A signed integer of 64 bits. -/
def readInt64 : Json → Option Int := readInt (-9223372036854775808) 9223372036854775807

/-- A signed integer of 32 bits. -/
def readInt32 : Json → Option Int := readInt (-2147483648) 2147483647

/-- An unsigned integer of 32 bits. -/
def readNat32 (v : Json) : Option Nat := v.natUpTo? 4294967295

/-- An unsigned integer of 64 bits. -/
def readNat64 (v : Json) : Option Nat := v.natUpTo? 18446744073709551615

/-- An array of values of one sort. -/
def readList {α : Type} (read : Json → Option α) : Json → Option (List α)
  | .arr items => items.mapM read
  | _ => none

/-- An optional value on its own. -/
def ofOption {α : Type} (write : α → Json) : Option α → Json
  | some a => write a
  | none => .null

def ofNat (n : Nat) : Json := .int n

end SlurmLink.Json

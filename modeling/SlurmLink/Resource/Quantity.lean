import SlurmLink.Json.Record
import SlurmLink.Time.Timestamp

/-!
The shapes that values have in the messages of the server: numbers in an envelope that says whether
they are set and finite, or bare; and lists of texts that may also be one text with commas.
-/

namespace SlurmLink

/-- A value that is read after it was kept as a whole: it must be readable throughout, and together
    with the `level` values around it must not be nested too deep. -/
def Json.isKept (level : Nat) (v : Json) : Bool := v.readable && level + v.depth ≤ Json.maxDepth

/-- A number that may be unset or infinite. -/
structure Quantity where
  set : Bool
  infinite : Bool
  number : Int
  deriving DecidableEq, Repr

namespace Quantity

/-- A number that is set and finite. -/
def ofInt (n : Int) : Quantity := ⟨true, false, n⟩

/-- The number, if it is set and finite. -/
def value? (q : Quantity) : Option Int := if q.set && !q.infinite then some q.number else none

def toJson (q : Quantity) : Json :=
  .obj [("set", .bool q.set), ("infinite", .bool q.infinite), ("number", .int q.number)]

/-- Reads a bare number or an envelope at the given level of nesting. -/
def read (level : Nat) (v : Json) : Option Quantity :=
  if !v.isKept level then none
  else match v with
    | .int n => (Json.readInt64 (.int n)).map ofInt
    | .obj members => do
      let r ← Json.Record.read ["set", "infinite", "number"] (.obj members)
      let set ← r.withDefault "set" false Json.readBool
      let infinite ← r.withDefault "infinite" false Json.readBool
      let number ← r.withDefault "number" 0 Json.readInt64
      return { set, infinite, number }
    | _ => none

/-- The number as an unsigned one up to `limit`. -/
def natUpTo? (limit : Nat) (q : Quantity) : Option Nat :=
  q.value?.bind fun n => if 0 ≤ n ∧ n ≤ limit then some n.toNat else none

def nat32? (q : Option Quantity) : Option Nat := q.bind (natUpTo? 4294967295)
def nat64? (q : Option Quantity) : Option Nat := q.bind (natUpTo? 18446744073709551615)

/-- The number as a signed one of 32 bits. -/
def int32? (q : Option Quantity) : Option Int :=
  (q.bind value?).bind fun n => if -2147483648 ≤ n ∧ n ≤ 2147483647 then some n else none

/-- The number as seconds since 1970; zero and less mean that there is no time yet. -/
def time? (q : Option Quantity) : Option Timestamp :=
  (q.bind value?).bind fun n => if 0 < n then Timestamp.ofSeconds? n else none

/-- The whole seconds of a time. -/
def ofTime (t : Timestamp) : Quantity := ofInt t.seconds

end Quantity

namespace Json

/-- A list of texts: an array, one text with commas between the items, or `null` for none. -/
def readTexts (level : Nat) (v : Json) : Option (List String) :=
  if !v.isKept level then none
  else match v with
    | .str s => some ((Text.splitList s.toList).map String.ofList)
    | .arr items => items.mapM readText
    | .null => some []
    | _ => none

/-- A number with its envelope. -/
def ofQuantity (n : Nat) : Json := (Quantity.ofInt n).toJson

end Json

/-- An empty text in a message means that there is none. -/
def nonEmpty (s : Option String) : Option String := s.filter fun t => !t.isEmpty

/-- The records in the named list of a message. Records without what identifies them are left
    out. -/
def readRecords {α : Type} (field : String) (read : Json → Option (Option α)) (v : Json) :
    Option (List α) := do
  let r ← Json.Record.read [field] v
  let records ← r.withDefault field [] (Json.readList read)
  return records.filterMap id

end SlurmLink

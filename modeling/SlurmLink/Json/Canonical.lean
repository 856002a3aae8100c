import SlurmLink.Decimal.Shortest
import SlurmLink.Json.Double

/-!
The canonical form of a value: the members of its objects in the order of their keys, each key once,
and its numbers as integers of 64 bits or as doubles. Also records with defaults for what they leave
out.
-/

namespace SlurmLink.Json

/-- Puts a member into sorted members, in place of one with the same key. -/
def putMember (key : String) (v : Json) : List (String × Json) → List (String × Json)
  | [] => [(key, v)]
  | (k, w) :: rest =>
    if key < k then (key, v) :: (k, w) :: rest
    else if key = k then (key, v) :: rest
    else (k, w) :: putMember key v rest

/-- The number with the text of a double; one that is out of range cannot be read. -/
def ofDouble? : Option Binary64 → Json
  | some x => .decimal x.toJsonText
  | none => .garbled

mutual

/-- A value with its members sorted; of members with one key the last one stays. Numbers that are no
    integers of 64 bits become doubles. -/
def canonical : Json → Json
  | .int n => if fits n then .int n else ofDouble? (double? (.int n))
  | .decimal text => ofDouble? (doubleOfText? text)
  | .arr items => .arr (canonicalList items)
  | .obj members => .obj (canonicalMembers members [])
  | v => v

def canonicalList : List Json → List Json
  | [] => []
  | v :: vs => canonical v :: canonicalList vs

/-- Sorts members into those sorted already. -/
def canonicalMembers : List (String × Json) → List (String × Json) → List (String × Json)
  | [], sorted => sorted
  | (k, v) :: ms, sorted => canonicalMembers ms (putMember k (canonical v) sorted)

end

/-- Whether a member says something. -/
def isSet (m : String × Json) : Bool :=
  match m.2 with
  | .null => false
  | _ => true

/-- A record in which members that are missing or `null` have their default. -/
def withDefaults (defaults : List (String × Json)) : Json → Json
  | .obj members =>
    let given := members.filter isSet
    .obj (given ++ defaults.filter fun d => (given.lookup d.1).isNone)
  | v => v

end SlurmLink.Json

import SlurmLink.Text.Blank

/-!
JSON values as they are read and written. Objects keep their members in order and may name a key
twice, since what a repeated key means depends on the reader.
-/

namespace SlurmLink

/-- A JSON value. -/
inductive Json where
  | null
  | bool (b : Bool)
  /-- A number written as an integer, of any size. -/
  | int (n : Int)
  /-- A number with a fraction or an exponent, and the integer `-0`, as it is written. -/
  | decimal (text : String)
  | str (s : String)
  | arr (items : List Json)
  | obj (members : List (String × Json))
  /-- A value that can be skipped but not read: a string that is no Unicode text, an object with
      such a key, or a number beyond the range of doubles. -/
  | garbled
  deriving Inhabited

namespace Json

mutual

/-- How many arrays and objects are nested in a value. -/
def depth : Json → Nat
  | .arr items => depthList items + 1
  | .obj members => depthMembers members + 1
  | _ => 0

def depthList : List Json → Nat
  | [] => 0
  | v :: vs => max (depth v) (depthList vs)

def depthMembers : List (String × Json) → Nat
  | [] => 0
  | (_, v) :: ms => max (depth v) (depthMembers ms)

end

mutual

/-- Holds when every part of a value can be read. -/
def readable : Json → Bool
  | .garbled => false
  | .arr items => readableList items
  | .obj members => readableMembers members
  | _ => true

def readableList : List Json → Bool
  | [] => true
  | v :: vs => readable v && readableList vs

def readableMembers : List (String × Json) → Bool
  | [] => true
  | (_, v) :: ms => readable v && readableMembers ms

end

/-- How deep arrays and objects may be nested in a value that is kept. -/
def maxDepth : Nat := 127

/-- The member of an object with the given key; of several the last one counts. -/
def member? (key : String) : Json → Option Json
  | .obj members => (members.reverse.find? (fun m => m.1 == key)).map Prod.snd
  | _ => none

/-- The value reached by following keys from an object to its members. -/
def path? : List String → Json → Option Json
  | [], v => some v
  | key :: keys, v => (v.member? key).bind (path? keys)

def text? : Json → Option String
  | .str s => some s
  | _ => none

/-- An integer from 0 to `limit`. -/
def natUpTo? (limit : Nat) : Json → Option Nat
  | .int n => if 0 ≤ n ∧ n ≤ limit then some n.toNat else none
  | _ => none

/-- An object of the members that are set. -/
def ofSet (members : List (String × Option Json)) : Json :=
  .obj (members.filterMap fun m => m.2.map (fun v => (m.1, v)))

/-- An array of strings. -/
def ofTexts (texts : List String) : Json := .arr (texts.map .str)

end Json

end SlurmLink

import SlurmLink.Text.Blank
import SlurmLink.Text.Number

/-!
Tables of code points, written as text: words between blanks, with code points in hexadecimal. The
word of a range is its first code point and, after a hyphen, its last one; a set of characters is a
table of ranges.
-/

namespace SlurmLink.Unicode

/-- Puts a character in front of the first word, or begins another word at a blank. -/
def putChar (c : Char) : List (List Char) → List (List Char)
  | [] => [[c]]
  | word :: words => if Text.isBlank c then [] :: word :: words else (c :: word) :: words

/-- The words of a table. -/
def tableWords (table : String) : List (List Char) :=
  (table.toList.foldr putChar [[]]).filter fun word => !word.isEmpty

/-- What stands before the first `mark` and after it. -/
def cutAt (mark : Char) (word : List Char) : List Char × List Char :=
  (word.takeWhile (· != mark), (word.dropWhile (· != mark)).drop 1)

/-- The code points from the first to the last. -/
structure CodeRange where
  first : Nat
  last : Nat
  deriving DecidableEq, Repr

namespace CodeRange

def contains (r : CodeRange) (n : Nat) : Bool := r.first ≤ n && n ≤ r.last

def ofWord (word : List Char) : CodeRange :=
  let (first, last) := cutAt '-' word
  ⟨Text.hexDigitsValue first, Text.hexDigitsValue (if last.isEmpty then first else last)⟩

end CodeRange

/-- A set of characters. -/
structure CharSet where
  ranges : List CodeRange
  deriving DecidableEq, Repr

namespace CharSet

def ofTable (table : String) : CharSet := ⟨(tableWords table).map CodeRange.ofWord⟩

def contains (s : CharSet) (c : Char) : Bool := s.ranges.any fun r => r.contains c.toNat

end CharSet

end SlurmLink.Unicode

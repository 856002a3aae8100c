import SlurmLink.Unicode.CombiningClass
import SlurmLink.Unicode.Composition

/-!
The composed form of a text: characters are taken apart, marks are put in the order of their
classes, and characters and marks are put together again wherever one character stands for both.
-/

namespace SlurmLink.Unicode

/-- What a character stands for when it is taken apart at most `cuts` times. -/
def partsWithin : Nat → Char → List Char
  | 0, c => [c]
  | cuts + 1, c =>
    match split? c with
    | some (first, second) => partsWithin cuts first ++ [second]
    | none => [c]

/-- What a character stands for. No character stands for more than four, and a second part is never
    a composite, so three cuts do. -/
def parts (c : Char) : List Char := partsWithin 3 c

/-- Puts a character in front of ordered ones. A mark moves behind the marks of lower classes that
    follow it at once. -/
def place (c : Char) : List Char → List Char
  | [] => [c]
  | d :: rest =>
    if combiningClass d ≠ 0 ∧ combiningClass d < combiningClass c then d :: place c rest
    else c :: d :: rest

/-- The marks after each character in ascending order of their classes; those of one class keep
    their order. -/
def reorder (cs : List Char) : List Char := cs.foldr place []

/-- Joins `base` with what follows it. `kept` are the marks since then that did not join, and a mark
    reaches the base only past marks of lower classes. -/
def composeAfter (base : Char) (kept : List Char) : List Char → List Char
  | [] => base :: kept
  | c :: rest =>
    let joined :=
      if kept.getLast?.all fun m => combiningClass m < combiningClass c then join? base c else none
    match joined with
    | some whole => composeAfter whole kept rest
    | none =>
      if combiningClass c = 0 then base :: kept ++ composeAfter c [] rest
      else composeAfter base (kept ++ [c]) rest

/-- Joins what joins, from left to right. Marks at the start have nothing to join. -/
def compose : List Char → List Char
  | [] => []
  | c :: rest => if combiningClass c = 0 then composeAfter c [] rest else c :: compose rest

/-- The composed form of a text. -/
def normalize (cs : List Char) : List Char := compose (reorder (cs.flatMap parts))

end SlurmLink.Unicode

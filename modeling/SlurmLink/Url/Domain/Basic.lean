import SlurmLink.Url.Domain.Label

/-!
Domain names of all scripts and their ASCII form.
-/

namespace SlurmLink.Domain

/-- The ASCII characters that no domain name holds. -/
def isForbidden (c : Char) : Bool :=
  c.toNat ≤ 0x20 || c.toNat == 0x7F ||
    ['#', '%', '/', ':', '<', '>', '?', '@', '[', '\\', ']', '^', '|'].contains c

/-- The labels of a name, folded and composed. -/
def labels? (cs : List Char) : Option (List Label) := do
  let text := Unicode.normalize (← fold cs)
  if text.any isForbidden then none else (Text.pieces '.' text).mapM Label.ofText?

/-- Holds when labels may stand in one name. If a character in one of them turns the line, the
    directions of all must fit. -/
def fitTogether (labels : List Label) : Bool :=
  !labels.any (fun l => l.text.any Unicode.turnsLine) ||
    labels.all fun l => Label.directionsFit l.text

/-- The ASCII form of a name. -/
def ascii? (cs : List Char) : Option (List Char) := do
  let labels ← labels? cs
  if fitTogether labels then some (List.intercalate ['.'] (labels.map (·.written))) else none

end SlurmLink.Domain

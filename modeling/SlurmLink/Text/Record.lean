import SlurmLink.Text.Blank
import SlurmLink.Text.Quoted

/-!
Records on one line of a log: a name, and the fields in braces.
-/

namespace SlurmLink.Text

/-- A record with its fields. With `more`, two dots say that there are fields that are not shown. -/
def record (name : String) (fields : List (String × String)) (more : Bool) : String :=
  name ++ " \x7b " ++
    joinWith ", " (fields.map (fun f => f.1 ++ ": " ++ f.2) ++ (if more then [".."] else [])) ++
    " \x7d"

/-- A value that may be missing. -/
def optional (s : Option String) : String :=
  match s with
  | some t => "Some(" ++ t ++ ")"
  | none => "None"

end SlurmLink.Text

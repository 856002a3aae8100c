import SlurmLink.Version

/-!
Why an argument is not sent: every resource and every change is checked before a request is made.
-/

namespace SlurmLink

/-- What is wrong with an argument. -/
inductive Rejection where
  | unnamedJob
  /-- A job's script does not say which program runs it. -/
  | noInterpreter
  | zeroNodes
  | zeroTime
  | emptyJobUpdate
  | emptyNodeUpdate
  /-- A node is to be drained or taken down without a reason. -/
  | noReason
  /-- The name of a resource of the given sort is empty. -/
  | unnamed (sort : String)
  /-- A name holds a slash or a blank. -/
  | badName (sort name : String)
  /-- An account lacks its description or organization. -/
  | incompleteAccount
  /-- A reservation ends when it starts, or before. -/
  | emptyWindow
  /-- A reservation is for nobody. -/
  | noHolder
  /-- A reservation is for no nodes. -/
  | noPlace
  /-- A job asks for nodes of its own, which the revision does not offer. -/
  | exclusiveFlag (version : ApiVersion)
  deriving DecidableEq, Repr

def Rejection.message : Rejection → String
  | .unnamedJob => "job name must not be empty"
  | .noInterpreter => "job script must start with a '#!' interpreter line"
  | .zeroNodes => "node count must be positive"
  | .zeroTime => "time limit must be positive"
  | .emptyJobUpdate => "job update changes nothing"
  | .emptyNodeUpdate => "node update changes nothing"
  | .noReason => "a reason is required to drain or down a node"
  | .unnamed sort => sort ++ " name must not be empty"
  | .badName sort name => sort ++ " name '" ++ name ++ "' contains '/' or whitespace"
  | .incompleteAccount => "account description and organization are required"
  | .emptyWindow => "reservation must end after it starts"
  | .noHolder => "reservation needs at least one user or account"
  | .noPlace => "reservation needs a node list, node count or partition"
  | .exclusiveFlag version => "the exclusive flag is not accepted by " ++ version.toText

/-- Checks the name of a resource: something other than blanks, and neither slash nor blank in it. -/
def checkName (sort name : String) : Except Rejection Unit :=
  if Text.allBlank name.toList then .error (.unnamed sort)
  else if name.toList.any (fun c => c == '/' || Text.isBlank c) then .error (.badName sort name)
  else .ok ()

end SlurmLink

import SlurmLink.Failure

/-!
Contexts of calls: a token by which a call can be cancelled, and a deadline. Cancelling a token
cancels the tokens derived from it. Instants are in milliseconds of the clock.
-/

namespace SlurmLink

/-- A token: the number of the one it is derived from, and whether it has been cancelled itself. -/
structure Token where
  parent : Option Nat
  cancelled : Bool
  deriving DecidableEq, Repr

/-- The tokens there are, by number. A token is derived only from one with a smaller number. -/
structure Tokens where
  cells : List Token := []
  deriving DecidableEq, Repr

namespace Tokens

/-- A token of its own. -/
def fresh (ts : Tokens) : Nat × Tokens := (ts.cells.length, ⟨ts.cells ++ [⟨none, false⟩]⟩)

/-- A token derived from another. -/
def derive (ts : Tokens) (id : Nat) : Nat × Tokens :=
  (ts.cells.length, ⟨ts.cells ++ [⟨some id, false⟩]⟩)

/-- Cancels a token. -/
def cancel (ts : Tokens) (id : Nat) : Tokens :=
  ⟨ts.cells.modify id fun t => { t with cancelled := true }⟩

/-- Whether a token, or one that it is derived from, has been cancelled. -/
def isCancelled (ts : Tokens) (id : Nat) : Bool :=
  match ts.cells[id]? with
  | none => false
  | some t =>
    t.cancelled || match t.parent with
      | some p => if p < id then isCancelled ts p else false
      | none => false
termination_by id

end Tokens

/-- The context of a call. -/
structure Context where
  token : Nat
  deadline : Option Nat := none
  deriving DecidableEq, Repr

namespace Context

/-- Sets a deadline; an earlier one that is set already stays. -/
def withDeadline (c : Context) (deadline : Nat) : Context :=
  { c with deadline := some (match c.deadline with
    | some d => if d < deadline then d else deadline
    | none => deadline) }

/-- Sets a deadline `timeout` after `now`. -/
def withTimeout (c : Context) (now timeout : Nat) : Context := c.withDeadline (now + timeout)

/-- A context with the same deadline and a token derived from this one's. -/
def child (c : Context) (ts : Tokens) : Context × Tokens :=
  let (id, ts) := ts.derive c.token
  ({ c with token := id }, ts)

/-- Why a call has to stop at the instant `now`, if it has to. -/
def check (c : Context) (ts : Tokens) (now : Nat) : Option CancelReason :=
  if ts.isCancelled c.token then some .cancelled
  else match c.deadline with
    | some d => if d ≤ now then some .deadlineExceeded else none
    | none => none

end Context

end SlurmLink

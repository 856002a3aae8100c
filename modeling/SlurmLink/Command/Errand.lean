import SlurmLink.Call
import SlurmLink.Command.Basic

/-!
Errands: commands on their way. An errand is refused at once, or makes one call and reads what comes
back.
-/

namespace SlurmLink

/-- How far an errand has got. -/
inductive ErrandPhase where
  | starting
  | calling (call : Call)
  | finished (outcome : Except Error Answer)

/-- A command within a session. -/
structure Errand where
  context : Context
  session : Session
  command : Command
  phase : ErrandPhase := .starting

namespace Errand

/-- The outcome, once there is one. -/
def outcome? (e : Errand) : Option (Except Error Answer) :=
  match e.phase with
  | .finished outcome => some outcome
  | _ => none

/-- Makes the call, unless the command is refused or needs none. -/
def start (e : Errand) : Errand :=
  { e with phase := match e.command.prepare e.session with
    | .error f => .finished (.error f)
    | .ok none => .finished (.ok .done)
    | .ok (some request) =>
      .calling { context := e.context, endpoint := e.session.endpoint, request } }

/-- One step of an errand, unless it waits or is over. -/
def step (p : CallPolicy) (e : Errand) (l : Link) : Option (Errand × Link) :=
  match e.phase with
  | .starting => some (e.start, l)
  | .calling call =>
    match call.outcome? with
    | some outcome => some ({ e with phase := .finished (e.command.conclude e.session outcome) }, l)
    | none => (call.step p l).map fun r => ({ e with phase := .calling r.1 }, r.2)
  | .finished _ => none

/-- The instant up to which an errand waits, if it does. -/
def wake (e : Errand) : Option Nat :=
  match e.phase with
  | .calling call => call.wake
  | _ => none

/-- Errands over a link. -/
def machine (p : CallPolicy) : Machine Link Errand := ⟨step p, fun e _ => e.wake⟩

end Errand

end SlurmLink

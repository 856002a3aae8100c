import SlurmLink.Call
import SlurmLink.Discovery
import SlurmLink.Session.Basic

/-!
Negotiation: a server is asked for its release, and the newest revision that both the server and the
client know is bound. A client that names a version explicitly does not ask.
-/

namespace SlurmLink

/-- How a client negotiates. -/
structure SessionPolicy where
  calls : CallPolicy := {}
  matrix : Matrix := .builtin
  explicit : Option ApiVersion := none

namespace Discovery

/-- The call that asks a server for its interface document. -/
def call (context : Context) (endpoint : String) : Call :=
  { context, endpoint, request := { method := .get, url := url endpoint } }

/-- The release that a call for the interface document has found. -/
def conclude (endpoint : String) : Except Failure Response → Except Error ProductVersion
  | .error f => .error (.api endpoint none f)
  | .ok r => release endpoint r.body

end Discovery

/-- How far a negotiation has got. -/
inductive NegotiationPhase where
  | starting
  | discovering (call : Call)
  | finished (outcome : Except Error Session)

/-- A negotiation with the server at an endpoint. -/
structure Negotiation where
  context : Context
  endpoint : String
  phase : NegotiationPhase := .starting

namespace Negotiation

/-- The outcome, once there is one. -/
def outcome? (n : Negotiation) : Option (Except Error Session) :=
  match n.phase with
  | .finished outcome => some outcome
  | _ => none

/-- Whether the call for the interface document has panicked. -/
def hasPanicked (n : Negotiation) : Bool :=
  match n.phase with
  | .discovering call => call.hasPanicked
  | _ => false

/-- The revision for what discovery has found. -/
def choose (p : SessionPolicy) (endpoint : String) (outcome : Except Failure Response) :
    Except Error (Revision × Option ProductVersion) :=
  match Discovery.conclude endpoint outcome with
  | .error e => .error e
  | .ok release =>
    match chooseRevision p.matrix release with
    | .error e => .error e
    | .ok revision => .ok (revision, some release)

/-- Ends a negotiation, with a new session if it was successful. -/
def conclude (choice : Except Error (Revision × Option ProductVersion)) (n : Negotiation)
    (l : Link) : Negotiation × Link :=
  match choice with
  | .error e => ({ n with phase := .finished (.error e) }, l)
  | .ok (revision, release) =>
    let session := { serial := l.sessions, revision, endpoint := n.endpoint, release }
    ({ n with phase := .finished (.ok session) }, { l with sessions := l.sessions + 1 })

/-- One step of a negotiation, unless it waits or is over. -/
def step (p : SessionPolicy) (n : Negotiation) (l : Link) : Option (Negotiation × Link) :=
  match n.phase with
  | .starting =>
    match p.explicit with
    | some v => some (n.conclude ((explicitRevision v).map fun r => (r, none)) l)
    | none => some ({ n with phase := .discovering (Discovery.call n.context n.endpoint) }, l)
  | .discovering call =>
    match call.outcome? with
    | some outcome => some (n.conclude (choose p n.endpoint outcome) l)
    | none => (call.step p.calls l).map fun r => ({ n with phase := .discovering r.1 }, r.2)
  | .finished _ => none

/-- The instant up to which a negotiation waits, if it does. -/
def wake (n : Negotiation) : Option Nat :=
  match n.phase with
  | .discovering call => call.wake
  | _ => none

/-- Negotiations over a link. -/
def machine (p : SessionPolicy) : Machine Link Negotiation := ⟨step p, fun n _ => n.wake⟩

end Negotiation

end SlurmLink

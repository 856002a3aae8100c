import SlurmLink.Command.Errand
import SlurmLink.Config
import SlurmLink.Session.Table
import SlurmLink.Watch.Receiver

/-!
A client of one server. Connecting negotiates a session; commands and watches run within the session
that is current when they start, and negotiating again replaces it.
-/

namespace SlurmLink

/-- What a client is made from. -/
structure ClientSetup where
  config : ClientConfig
  credentials : Credentials := .none
  /-- The factor that chance draws for the `n`-th wait between attempts. -/
  draw : Nat → Binary64 := fun _ => .one

namespace ClientSetup

/-- The setup of a client that takes its credentials from its configuration. -/
def ofConfig (config : ClientConfig) : ClientSetup where
  config
  credentials := match config.jwt with
    | some token => .ofToken ⟨config.userName.getD "", token⟩
    | none => .none

def callPolicy (c : ClientSetup) : CallPolicy where
  retry := c.config.retry
  breaker := c.config.breaker
  credentials := c.credentials
  draw := c.draw

def sessionPolicy (c : ClientSetup) : SessionPolicy where
  calls := c.callPolicy
  matrix := c.config.matrix.getD .builtin
  explicit := c.config.apiVersion

end ClientSetup

/-- A connected client: its link, the sessions made over it, and the one in use. -/
structure Client where
  hub : Hub
  current : Session

instance : HasLink Client :=
  ⟨fun c => c.hub.link, fun f c => { c with hub := HasLink.onLink f c.hub }⟩

namespace Client

/-- Drops all sessions and breakers. The session in use stays usable. -/
def close (c : Client) : Client :=
  { c with hub := {
      link := { c.hub.link with breakers := c.hub.link.breakers.clear }
      table := c.hub.table.clear } }

end Client

/-- How far a renegotiation has got. -/
inductive RenewalPhase where
  | starting
  | acquiring (a : Acquisition)
  | finished (outcome : Except Error ApiVersion)

/-- A renegotiation of the session in use. -/
structure Renewal where
  context : Context
  phase : RenewalPhase := .starting

namespace Renewal

/-- One step of a renegotiation, unless it waits or is over. The session that is current when it
    starts counts as outdated; the one it gets in the end becomes current. -/
def step (p : SessionPolicy) (r : Renewal) (c : Client) : Option (Renewal × Client) :=
  match r.phase with
  | .starting =>
    let a := { context := r.context, wish := .other c.current }
    some ({ r with phase := .acquiring a }, c)
  | .acquiring a =>
    match a.outcome? with
    | some (.ok s) =>
      some ({ r with phase := .finished (.ok s.apiVersion) }, { c with current := s })
    | some (.error e) => some ({ r with phase := .finished (.error e) }, c)
    | none => (a.step p c.hub).map fun x =>
      ({ r with phase := .acquiring x.1 }, { c with hub := x.2 })
  | .finished _ => none

/-- The instant up to which a renegotiation waits, if it waits for one. -/
def wake (r : Renewal) : Option Nat :=
  match r.phase with
  | .acquiring a => a.wake
  | _ => none

end Renewal

/-- What is done with a client. -/
inductive Task where
  /-- A command that has not started, and the session it is held to, if any. -/
  | command (context : Context) (held : Option Session) (order : Command)
  | errand (e : Errand)
  | renewal (r : Renewal)

namespace Task

/-- One step of a task, unless it waits or is over. -/
def step (c : ClientSetup) (t : Task) (client : Client) : Option (Task × Client) :=
  match t with
  | .command context held order =>
    some (.errand { context, session := held.getD client.current, command := order }, client)
  | .errand e => (e.step c.callPolicy client.hub.link).map fun x =>
    (.errand x.1, { client with hub := { client.hub with link := x.2 } })
  | .renewal r => (r.step c.sessionPolicy client).map fun x => (.renewal x.1, x.2)

/-- The instant up to which a task waits, if it waits for one. -/
def wake : Task → Option Nat
  | .command .. => none
  | .errand e => e.wake
  | .renewal r => r.wake

/-- Tasks of a client. -/
def machine (c : ClientSetup) : Machine Client Task := ⟨step c, fun t _ => t.wake⟩

end Task

/-! ### Connecting -/

namespace ClientSetup

/-- The acquisition with which a client connects. -/
def connection (c : ClientSetup) (context : Context) : Acquisition :=
  { context, wish := .any c.config.endpoint }

/-- Connects a client: checks its configuration and gets a session, in at most `fuel` steps. `none`
    if that takes longer. -/
def connect (c : ClientSetup) (fuel : Nat) (context : Context) (h : Hub) :
    Option (Except Error Session) × Hub :=
  match c.config.validate with
  | .error e => (some (.error (.config e)), h)
  | .ok _ =>
    let (a, h) := (Acquisition.machine c.sessionPolicy).runOne fuel (c.connection context) h
    (a.outcome?, h)

end ClientSetup

/-! ### Logs -/

/-- How calls are made, on a line of a log: the policy and how many endpoints have a breaker. -/
def CallPolicy.describe (p : CallPolicy) (l : Link) : String :=
  Text.record "Pipeline" [("retry", p.retry.describe), ("breakers", toString l.breakers.size)] true

/-- A client on a line of a log. -/
def Client.describe (c : Client) (setup : ClientSetup) : String :=
  Text.record "SlurmClient" [("endpoint", Text.quoted setup.config.endpoint),
    ("api_version", c.current.apiVersion.describe)] true

end SlurmLink

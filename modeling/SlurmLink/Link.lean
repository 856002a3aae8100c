import SlurmLink.Breaker
import SlurmLink.Context

/-!
The link to a server: what the calls of a client share. It holds the clock, the tokens by which calls
are cancelled, the breakers, the answers that the server is going to give, and a record of what was
sent. Instants and latencies are in milliseconds; the clock moves only when everything waits.
-/

namespace SlurmLink

/-- What comes back for a request, and how long it takes. -/
structure Delivery where
  outcome : Except TransportError Response
  latency : Nat := 0

namespace Delivery

/-- An empty object, with success. -/
def empty (latency : Nat) : Delivery := ⟨.ok ⟨200, Text.Utf8.encode ['\x7b', '\x7d']⟩, latency⟩

end Delivery

/-- A server, as the answers it has ready: those for its interface document, of which the last one
    stays for good, and those for everything else, which are used up. -/
structure Server where
  script : List Delivery := []
  discovery : List Delivery := []
  /-- How long an answer takes when none is ready. -/
  latency : Nat := 0

namespace Server

/-- Whether an address is that of an interface document. -/
def isDiscovery (url : String) : Bool := "/openapi/v3".toList.isSuffixOf url.toList

/-- The answer to a request, and what the server has ready after it. -/
def deliver (s : Server) (url : String) : Delivery × Server :=
  if isDiscovery url then
    match s.discovery with
    | [] => (.empty s.latency, s)
    | [d] => (d, s)
    | d :: rest => (d, { s with discovery := rest })
  else
    match s.script with
    | [] => (.empty s.latency, s)
    | d :: rest => (d, { s with script := rest })

end Server

/-- A request as it was sent, and when. -/
structure Sent where
  time : Nat
  request : Request

/-- A token that is going to be cancelled, and when. -/
structure Cancellation where
  time : Nat
  token : Nat
  deriving DecidableEq, Repr

/-- What the calls of a client share. -/
structure Link where
  now : Nat := 0
  tokens : Tokens := {}
  agenda : List Cancellation := []
  breakers : Breakers := {}
  server : Server := {}
  /-- Every request so far, in order. -/
  sent : List Sent := []
  /-- How often the credentials have been asked for. -/
  queries : Nat := 0
  /-- How many waits between attempts there have been. -/
  pauses : Nat := 0
  /-- How many sessions have been made. -/
  sessions : Nat := 0

namespace Link

/-- Moves the clock to an instant, but not back, and cancels what is due by then. -/
def arrive (l : Link) (time : Nat) : Link :=
  let now := max l.now time
  { l with
    now
    tokens := (l.agenda.filter (·.time ≤ now)).foldl (fun ts c => ts.cancel c.token) l.tokens
    agenda := l.agenda.filter (now < ·.time) }

/-- Lets time pass. -/
def pass (l : Link) (duration : Nat) : Link := l.arrive (l.now + duration)

/-- A context of its own, without a deadline. -/
def newContext (l : Link) : Context × Link :=
  let (token, tokens) := l.tokens.fresh
  (⟨token, none⟩, { l with tokens })

/-- A context that is cancelled with the given one, but can also be cancelled alone. -/
def childContext (l : Link) (c : Context) : Context × Link :=
  let (child, tokens) := c.child l.tokens
  (child, { l with tokens })

/-- Cancels a context and all that share or derive its token. -/
def cancel (l : Link) (c : Context) : Link := { l with tokens := l.tokens.cancel c.token }

/-- Plans to cancel a context after a while. -/
def cancelAfter (l : Link) (c : Context) (duration : Nat) : Link :=
  { l with agenda := l.agenda ++ [⟨l.now + duration, c.token⟩] }

/-- The first instant for which a cancellation is planned. -/
def nextCancellation (l : Link) : Option Nat := (l.agenda.map Cancellation.time).min?

/-- The first instant at which a planned cancellation reaches a token. -/
def cancelledAt (l : Link) (token : Nat) : Option Nat :=
  ((l.agenda.filter fun c => (l.tokens.cancel c.token).isCancelled token).map
    fun c => max l.now c.time).min?

/-- When a context will be done, and why, if it ever will: at once if it has been cancelled, else at
    its deadline or when it is planned to be cancelled, whichever is first. In a tie it counts as
    cancelled. -/
def done (l : Link) (c : Context) : Option (Nat × CancelReason) :=
  if l.tokens.isCancelled c.token then some (l.now, .cancelled)
  else match l.cancelledAt c.token, c.deadline.map (max l.now) with
    | some t, some d => if t ≤ d then some (t, .cancelled) else some (d, .deadlineExceeded)
    | some t, none => some (t, .cancelled)
    | none, some d => some (d, .deadlineExceeded)
    | none, none => none

end Link

/-- The earlier of two instants, where there may be none. -/
def earlier : Option Nat → Option Nat → Option Nat
  | some a, some b => some (min a b)
  | some a, none => some a
  | none, b => b

end SlurmLink

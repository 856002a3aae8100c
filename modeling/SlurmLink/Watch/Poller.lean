import SlurmLink.Command.Errand
import SlurmLink.Watch.Diff
import SlurmLink.Watch.Subject

/-!
Watches: a poller lists the items again and again and puts what has changed into a buffer, from which
the events are received. When the buffer is full the poller waits, and does not list meanwhile. It
stops when its context is done or nobody receives any more.
-/

namespace SlurmLink

/-- How a watch goes about it. -/
structure WatchSettings where
  /-- The time between the last event of a listing and the next listing. -/
  interval : Span := .ofSeconds 5
  /-- How many events are kept for the receiver. -/
  buffer : Nat := 100
  /-- Reports everything on the first listing as new. -/
  initial : Bool := false
  deriving DecidableEq, Repr

/-- How many events fit into the buffer: at least one. -/
def WatchSettings.capacity (o : WatchSettings) : Nat := max o.buffer 1

/-- What the poller of a watch is doing. -/
inductive PollerPhase (α : Type) where
  | listing (errand : Errand)
  | delivering (events : List (WatchEvent α))
  | resting (due : Nat)
  | stopped

/-- A watch. -/
structure Watch (α : Type) where
  /-- The context of the poller, which the receiver's context can cancel. -/
  context : Context
  session : Session
  subject : Subject α
  settings : WatchSettings
  known : Known := []
  /-- There has been no listing to compare with. -/
  baseline : Bool
  phase : PollerPhase α
  /-- The events that wait to be received. -/
  buffer : List (WatchEvent α) := []
  /-- Somebody receives the events. -/
  receiving : Bool := true

namespace Watch

variable {α : Type}

/-- The errand that lists the items once. -/
def listing (context : Context) (session : Session) (subject : Subject α) : Errand :=
  { context, session, command := subject.command }

/-- Starts a watch under a context derived from the receiver's, if the revision offers it. -/
def start (c : Context) (session : Session) (subject : Subject α) (settings : WatchSettings)
    (l : Link) : Except Error (Watch α × Link) :=
  match session.ensure ⟨subject.resource, .watch⟩ with
  | .error e => .error e
  | .ok _ =>
    let (context, l) := l.childContext c
    let phase := .listing (listing context session subject)
    .ok ({ context, session, subject, settings, baseline := !settings.initial, phase }, l)

/-- Takes note of a listing, or of its failure. A watch that was cancelled stops. -/
def note (outcome : Except Error Answer) (w : Watch α) : Watch α :=
  match outcome with
  | .ok answer =>
    let (events, known) := WatchEvent.ofListing w.subject.key w.subject.state w.baseline w.known
      (w.subject.items answer)
    { w with known, baseline := false, phase := .delivering events }
  | .error e =>
    if e.kind = .cancelled then { w with phase := .stopped }
    else { w with phase := .delivering [.failed e] }

/-- Whether the poller has to stop: its context is done, or nobody receives. -/
def mustStop (w : Watch α) (l : Link) : Bool :=
  (w.context.check l.tokens l.now).isSome || !w.receiving

/-- One step of the poller, unless it waits or has stopped. A listing that is under way when the
    poller stops is dropped where it stands. -/
def step (p : CallPolicy) (w : Watch α) (l : Link) : Option (Watch α × Link) :=
  match w.phase with
  | .stopped => none
  | .listing errand =>
    if w.mustStop l then some ({ w with phase := .stopped }, l)
    else match errand.outcome? with
      | some outcome => some (w.note outcome, l)
      | none => (errand.step p l).map fun r => ({ w with phase := .listing r.1 }, r.2)
  | .delivering [] =>
    some ({ w with phase := .resting (l.now + w.settings.interval.ticks) }, l)
  | .delivering (e :: events) =>
    if w.mustStop l then some ({ w with phase := .stopped }, l)
    else if w.buffer.length < w.settings.capacity then
      some ({ w with buffer := w.buffer ++ [e], phase := .delivering events }, l)
    else none
  | .resting due =>
    if w.mustStop l then some ({ w with phase := .stopped }, l)
    else if due ≤ l.now then
      some ({ w with phase := .listing (listing w.context w.session w.subject) }, l)
    else none

/-- The instant up to which the poller waits, if it waits for one. -/
def wake (w : Watch α) : Option Nat :=
  match w.phase with
  | .stopped => none
  | .listing errand => earlier errand.wake w.context.deadline
  | .delivering _ => w.context.deadline
  | .resting due => earlier (some due) w.context.deadline

/-- Receives the first event in the buffer. -/
def receive (w : Watch α) : Option (WatchEvent α × Watch α) :=
  match w.buffer with
  | [] => none
  | e :: rest => some (e, { w with buffer := rest })

/-- No more events can come. -/
def isOver (w : Watch α) : Bool :=
  match w.phase with
  | .stopped => w.buffer.isEmpty
  | _ => false

/-- Stops receiving. -/
def close (w : Watch α) : Watch α := { w with receiving := false, buffer := [] }

end Watch

end SlurmLink

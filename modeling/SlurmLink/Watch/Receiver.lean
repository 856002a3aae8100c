import SlurmLink.Watch.Poller

/-!
Receiving the events of a watch for some time. Whoever receives goes first when both it and the poller
could go on; it stops when it has had enough, when no more events can come, or when its time is over.
-/

namespace SlurmLink

/-- Why no more events are received. -/
inductive WatchEnd where
  /-- As many as were wanted have come. -/
  | enough
  /-- The watch has stopped. -/
  | closed
  /-- The time is over, and the watch goes on. -/
  | timeOver
  deriving DecidableEq, Repr

/-- The receiver of a watch. -/
structure Receiver (α : Type) where
  watch : Watch α
  /-- The instant from which events are received. -/
  opens : Nat
  /-- The instant at which the time is over. -/
  closes : Nat
  /-- How many events are wanted at most. -/
  limit : Option Nat := none
  /-- The events received, each with its instant. -/
  received : List (Nat × WatchEvent α) := []
  ending : Option WatchEnd := none

namespace Receiver

variable {α : Type}

/-- Receives from a watch after a wait, for some time. -/
def start (watch : Watch α) (now wait time : Nat) (limit : Option Nat) : Receiver α :=
  { watch, opens := now + wait, closes := now + wait + time, limit }

/-- Stops receiving. -/
def finish (ending : WatchEnd) (r : Receiver α) : Receiver α :=
  { r with ending := some ending, watch := r.watch.close }

/-- What the receiver does at an instant, if anything. -/
def act (r : Receiver α) (now : Nat) : Option (Receiver α) :=
  if now < r.opens then none
  else if r.limit.any (· ≤ r.received.length) then some (r.finish .enough)
  else match r.watch.receive with
    | some (e, watch) => some { r with watch, received := r.received ++ [(now, e)] }
    | none =>
      if r.watch.isOver then some (r.finish .closed)
      else if r.closes ≤ now then some (r.finish .timeOver)
      else none

/-- One step of the receiver, or else of the poller, until the receiver has stopped. -/
def step (p : CallPolicy) (r : Receiver α) (l : Link) : Option (Receiver α × Link) :=
  match r.ending with
  | some _ => none
  | none =>
    match r.act l.now with
    | some r => some (r, l)
    | none => (r.watch.step p l).map fun w => ({ r with watch := w.1 }, w.2)

/-- The instant up to which both wait. -/
def wake (r : Receiver α) (l : Link) : Option Nat :=
  match r.ending with
  | some _ => none
  | none => earlier (some (if l.now < r.opens then r.opens else r.closes)) r.watch.wake

/-- Receivers over a link. -/
def machine (p : CallPolicy) : Machine Link (Receiver α) := ⟨step p, wake⟩

end Receiver

end SlurmLink

import SlurmLink.Link

/-!
Running activities side by side on one clock. Of the activities that can go on, the first one does;
when none can, the clock moves to the next instant for which one of them waits or a cancellation is
planned.
-/

namespace SlurmLink

/-- A state with a link in it. -/
class HasLink (σ : Type) where
  link : σ → Link
  onLink : (Link → Link) → σ → σ

instance : HasLink Link := ⟨id, id⟩

/-- A kind of activity `τ` over a state `σ`. -/
structure Machine (σ τ : Type) where
  /-- One step, unless the activity waits or is over. -/
  step : τ → σ → Option (τ × σ)
  /-- The instant up to which it waits, if it waits for one. -/
  wake : τ → σ → Option Nat

namespace Machine

variable {σ τ : Type}

/-- One step of the first activity that can go on. -/
def stepFirst (m : Machine σ τ) : List τ → σ → Option (List τ × σ)
  | [], _ => none
  | t :: ts, s =>
    match m.step t s with
    | some (t, s) => some (t :: ts, s)
    | none => (stepFirst m ts s).map fun r => (t :: r.1, r.2)

/-- The first instant for which one of the activities waits. -/
def nextWake (m : Machine σ τ) (ts : List τ) (s : σ) : Option Nat :=
  (ts.filterMap fun t => m.wake t s).min?

/-- One step of one activity, or else a move of the clock. -/
def next [HasLink σ] (m : Machine σ τ) (ts : List τ) (s : σ) : Option (List τ × σ) :=
  match m.stepFirst ts s with
  | some r => some r
  | none => (m.nextWake ts s).map fun t =>
    let t := match (HasLink.link s).nextCancellation with
      | some c => min t c
      | none => t
    (ts, HasLink.onLink (·.arrive t) s)

/-- Runs activities until none of them can go on or waits, but no more than `fuel` steps. -/
def run [HasLink σ] (m : Machine σ τ) : Nat → List τ → σ → List τ × σ
  | 0, ts, s => (ts, s)
  | fuel + 1, ts, s =>
    match m.next ts s with
    | some (ts, s) => run m fuel ts s
    | none => (ts, s)

/-- Runs one activity. -/
def runOne [HasLink σ] (m : Machine σ τ) (fuel : Nat) (t : τ) (s : σ) : τ × σ :=
  match m.run fuel [t] s with
  | (t :: _, s) => (t, s)
  | ([], s) => (t, s)

end Machine

end SlurmLink

import SlurmLink.Error
import SlurmLink.Time.Span

/-!
Circuit breakers. A breaker counts the failures of an endpoint in a row and opens when there are too
many; while it is open, calls are refused. After a while it lets one call through on trial, and the
outcome of that call closes or opens it again. Instants are in milliseconds of the clock.
-/

namespace SlurmLink

/-- When a breaker opens and for how long. -/
structure BreakerConfig where
  failureThreshold : Nat := 5
  openTimeout : Span := .ofSeconds 30
  deriving DecidableEq, Repr

def BreakerConfig.validate (c : BreakerConfig) : Except ConfigError Unit :=
  if c.failureThreshold < 1 then .error .zeroThreshold
  else if c.openTimeout.nanos = 0 then .error .zeroOpenTimeout
  else .ok ()

inductive BreakerState where
  | closed
  | opened
  | halfOpen
  deriving DecidableEq, Repr

def BreakerState.name : BreakerState → String
  | .closed => "closed"
  | .opened => "open"
  | .halfOpen => "half_open"

/-- The right to send a call, which is given back with the call's outcome. -/
inductive Permit where
  /-- Given while the breaker was closed. -/
  | normal
  /-- The one call that tries whether the endpoint works again. -/
  | trial
  deriving DecidableEq, Repr

/-- A circuit breaker. -/
structure Breaker where
  state : BreakerState := .closed
  /-- Failures since the last success. -/
  failures : Nat := 0
  openedAt : Option Nat := none
  /-- A trial call is on its way. -/
  trialInFlight : Bool := false
  deriving DecidableEq, Repr, Inhabited

namespace Breaker

/-- The greatest count of failures. -/
def maxFailures : Nat := 4294967295

/-- One failure more; the count stops at the greatest. -/
def countFailure (b : Breaker) : Nat := min (b.failures + 1) maxFailures

/-- Whether a breaker opened at the given instant has been open long enough. -/
def isDue (config : BreakerConfig) (now : Nat) : Option Nat → Bool
  | some openedAt => config.openTimeout.nanos ≤ (now - openedAt) * 1000000
  | none => true

/-- Asks for a permit. -/
def acquire (config : BreakerConfig) (now : Nat) (b : Breaker) : Option Permit × Breaker :=
  match b.state with
  | .closed => (some .normal, b)
  | .opened =>
    if isDue config now b.openedAt then
      (some .trial, { b with state := .halfOpen, trialInFlight := true })
    else (none, b)
  | .halfOpen =>
    if b.trialInFlight then (none, b) else (some .trial, { b with trialInFlight := true })

/-- Gives a permit back after a success. A success on trial closes the breaker; any other one counts
    only while it is closed. -/
def succeed (permit : Permit) (b : Breaker) : Breaker :=
  match permit with
  | .trial => {}
  | .normal => if b.state = .closed then { b with failures := 0 } else b

/-- Gives a permit back after a failure. A failure on trial opens the breaker again; any other one
    counts only while it is closed, and opens it when it is one too many. -/
def fail (config : BreakerConfig) (now : Nat) (permit : Permit) (b : Breaker) : Breaker :=
  match permit with
  | .trial =>
    { state := .opened, failures := b.countFailure, openedAt := some now, trialInFlight := false }
  | .normal =>
    if b.state = .closed then
      if config.failureThreshold ≤ b.countFailure then
        { b with state := .opened, failures := b.countFailure, openedAt := some now }
      else { b with failures := b.countFailure }
    else b

/-- Gives a permit back without an outcome. -/
def release (permit : Permit) (b : Breaker) : Breaker :=
  match permit with
  | .trial => { b with trialInFlight := false }
  | .normal => b

end Breaker

/-- The outcome of a call, as far as a breaker is concerned. -/
inductive Outcome where
  | success
  | failure
  /-- The call was given up, which says nothing about the endpoint. -/
  | abandoned
  deriving DecidableEq, Repr

/-- Gives a permit back with the outcome of the call. -/
def Breaker.settle (config : BreakerConfig) (now : Nat) (permit : Permit) (outcome : Outcome)
    (b : Breaker) : Breaker :=
  match outcome with
  | .success => b.succeed permit
  | .failure => b.fail config now permit
  | .abandoned => b.release permit

/-! ### Breakers of many endpoints -/

/-- The breakers of a client. A call keeps the breaker that admitted it, so breakers stay when their
    endpoints are forgotten. -/
structure Breakers where
  /-- All breakers there have been, by number. -/
  cells : List Breaker := []
  /-- The number of the current breaker of an endpoint. -/
  index : List (String × Nat) := []
  deriving Repr

namespace Breakers

/-- The number of an endpoint's breaker. -/
def find? (bs : Breakers) (endpoint : String) : Option Nat := bs.index.lookup endpoint

/-- The breaker of an endpoint, if there has been a call to it. -/
def get? (bs : Breakers) (endpoint : String) : Option Breaker :=
  (bs.find? endpoint).bind fun id => bs.cells[id]?

/-- The number of an endpoint's breaker, which is made if there is none. -/
def obtain (bs : Breakers) (endpoint : String) : Nat × Breakers :=
  match bs.find? endpoint with
  | some id => (id, bs)
  | none =>
    (bs.cells.length,
      { cells := bs.cells ++ [{}], index := bs.index ++ [(endpoint, bs.cells.length)] })

/-- Changes the breaker with the given number. -/
def modify (bs : Breakers) (id : Nat) (f : Breaker → Breaker) : Breakers :=
  { bs with cells := bs.cells.modify id f }

/-- Forgets all endpoints. -/
def clear (bs : Breakers) : Breakers := { bs with index := [] }

/-- How many endpoints have a breaker. -/
def size (bs : Breakers) : Nat := bs.index.length

/-- Asks the breaker of an endpoint for a permit. Looking the breaker up and asking it are assumed to be
    one event: nothing else happens to the breakers in between, neither a step of another call nor
    `clear`. -/
def acquire (config : BreakerConfig) (now : Nat) (endpoint : String) (bs : Breakers) :
    Option (Nat × Permit) × Breakers :=
  let (id, bs) := bs.obtain endpoint
  let (permit, b) := (bs.cells[id]?.getD {}).acquire config now
  (permit.map fun p => (id, p), bs.modify id fun _ => b)

end Breakers

end SlurmLink

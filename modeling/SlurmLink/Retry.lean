import SlurmLink.Error
import SlurmLink.Time.Span

/-!
How often a failed call is tried again, and how long it waits before that. The wait grows by a factor
from one attempt to the next, up to a limit, and is spread by chance around that value.
-/

namespace SlurmLink

/-- A policy of retries. -/
structure RetryPolicy where
  /-- All attempts, the first one included. -/
  maxAttempts : Nat := 3
  baseDelay : Span := .ofMillis 100
  maxDelay : Span := .ofSeconds 5
  multiplier : Binary64 := .ofNat 2
  /-- How far the wait is spread, as a part of it. -/
  jitterFraction : Binary64 := .ofDecimal false 2 (-1)
  deriving DecidableEq, Repr

namespace RetryPolicy

/-- One attempt only. -/
def noRetry : RetryPolicy := { maxAttempts := 1 }

def validate (p : RetryPolicy) : Except ConfigError Unit :=
  if p.maxAttempts < 1 then .error .noAttempts
  else if !p.multiplier.isFinite || p.multiplier.lt .one then .error .badMultiplier
  else if !(Binary64.le (.ofNat 0) p.jitterFraction && p.jitterFraction.le .one) then
    .error .badJitter
  else if p.maxDelay.nanos < p.baseDelay.nanos then .error .delaysReversed
  else .ok ()

/-- The longest wait in nanoseconds. -/
def maxNanos : Nat := 18446744073709551615

/-- The wait after the failure of attempt `k`, counted from 0, before it is spread:
    `baseDelay * multiplier ^ k`, but at most `maxDelay`, in whole nanoseconds. A power beyond the
    doubles counts as `maxDelay`. -/
def nominalDelay (p : RetryPolicy) (k : Nat) : Span :=
  let limit := Binary64.ofNat p.maxDelay.nanos
  let grown := Binary64.mul (.ofNat p.baseDelay.nanos) (p.multiplier.pow k)
  ⟨(if grown.isFinite then grown.least limit else limit).toNatUpTo maxNanos⟩

/-- The least and the greatest wait after attempt `k`. There are none if a bound is negative. -/
def delayBounds (p : RetryPolicy) (k : Nat) : Option (Span × Span) := do
  let nominal := (p.nominalDelay k).seconds
  let low ← Span.ofSeconds64? (nominal.mul (Binary64.one.sub p.jitterFraction))
  let high ← Span.ofSeconds64? (nominal.mul (Binary64.one.add p.jitterFraction))
  return (low, high)

/-- Whether chance may draw the factor: one from `1 - jitterFraction` up to `1 + jitterFraction`. -/
def draws (p : RetryPolicy) (factor : Binary64) : Bool :=
  (Binary64.one.sub p.jitterFraction).le factor && factor.le (Binary64.one.add p.jitterFraction)

/-- Whether there is a factor to draw: the bounds have to be in order and a finite distance apart. -/
def canDraw (p : RetryPolicy) : Bool :=
  let least := Binary64.one.sub p.jitterFraction
  let greatest := Binary64.one.add p.jitterFraction
  least.le greatest && (greatest.sub least).isFinite

/-- The wait after attempt `k` when chance has drawn the given factor. Without spread nothing is drawn,
    and the factor does not matter. There is no wait if there is no factor to draw, nor with a factor
    that makes the wait negative or too long. -/
def delay (p : RetryPolicy) (factor : Binary64) (k : Nat) : Option Span :=
  if p.jitterFraction.le (.ofNat 0) then some (p.nominalDelay k)
  else if p.canDraw then Span.ofSeconds64? ((p.nominalDelay k).seconds.mul factor)
  else none

end RetryPolicy

end SlurmLink

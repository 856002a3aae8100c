import SlurmLink.Decimal.Binary64
import SlurmLink.Text.Number

/-!
Lengths of time in nanoseconds, their text, and their conversion to and from seconds in double
precision.
-/

namespace SlurmLink

/-- A length of time in nanoseconds. -/
structure Span where
  nanos : Nat
  deriving DecidableEq, Repr, Inhabited

namespace Span

def ofMillis (n : Nat) : Span := ⟨n * 1000000⟩
def ofSeconds (n : Nat) : Span := ⟨n * 1000000000⟩

/-- The milliseconds a timer waits for this span: timers tick once a millisecond and never fire
    early. -/
def ticks (s : Span) : Nat := (s.nanos + 999999) / 1000000

/-- Drops zeros from the end of a fraction. -/
def dropZeros (cs : List Char) : List Char := (cs.reverse.dropWhile (· == '0')).reverse

/-- A number of units with a fraction of up to `places` digits. -/
def inUnits (nanos unit places : Nat) : String :=
  let fraction := dropZeros (Text.padded places (nanos % unit)).toList
  toString (nanos / unit) ++ (if fraction.isEmpty then "" else "." ++ String.ofList fraction)

/-- The text of a span in the largest unit that it reaches. -/
def toText (s : Span) : String :=
  if 1000000000 ≤ s.nanos then inUnits s.nanos 1000000000 9 ++ "s"
  else if 1000000 ≤ s.nanos then inUnits s.nanos 1000000 6 ++ "ms"
  else if 1000 ≤ s.nanos then inUnits s.nanos 1000 3 ++ "µs"
  else toString s.nanos ++ "ns"

/-- The seconds of a span: the whole seconds and the rest are converted each on its own, and then
    added. -/
def seconds (s : Span) : Binary64 :=
  .add (.ofNat (s.nanos / 1000000000))
    (.div (.ofNat (s.nanos % 1000000000)) (.ofNat 1000000000))

/-- The number of seconds that no span reaches. -/
def secondsLimit : Nat := 18446744073709551616

/-- The span of the given seconds, to the nearest nanosecond and the even one on a tie. Nothing for
    a negative number, for `nan`, and for what is too long. -/
def ofSeconds64? : Binary64 → Option Span
  | .finite negative m e =>
    if negative && m != 0 then none
    else if secondsLimit * Binary64.down e ≤ m * Binary64.up e then none
    else some ⟨Binary64.divEven (m * Binary64.up e * 1000000000) (Binary64.down e)⟩
  | _ => none

end Span

end SlurmLink

import SlurmLink.Decimal.Binary64
import SlurmLink.Json.Basic
import SlurmLink.Text.Number

/-!
Numbers of JSON text as doubles. The digits are gathered into an integer of 64 bits as far as it
holds them, and the integer is multiplied or divided by a power of ten; each of the two steps
rounds, so the result can be a neighbour of the double nearest to the number.
-/

namespace SlurmLink.Json

/-- The greatest integer of 64 bits. -/
def greatestWord : Nat := 18446744073709551615

/-- Whether 64 bits hold an integer, with a sign or without. -/
def fits (n : Int) : Bool := -9223372036854775808 ≤ n && n ≤ (greatestWord : Int)

/-- Adds digits to an integer up to the first that no longer fits 64 bits, and counts those left. -/
def gather : Nat → List Char → Nat × Nat
  | n, [] => (n, 0)
  | n, c :: cs =>
    if 10 * n + Text.digitValue c ≤ greatestWord then gather (10 * n + Text.digitValue c) cs
    else (n, cs.length + 1)

/-- The integer and the power of ten that the digits on both sides of a point make. -/
def significand (whole fraction : List Char) : Nat × Int :=
  let (n, extra) := gather 0 whole
  let (m, unread) := gather n fraction
  (m, (extra : Int) - ((fraction.length - unread : Nat) : Int))

/-- Divides by a power of ten, but never by more than `10 ^ 308` at once. -/
def divPower : Nat → Binary64 → Nat → Binary64
  | 0, x, _ => x
  | steps + 1, x, e =>
    if e ≤ 308 then .div x (.ofNat (Nat.pow 10 e))
    else divPower steps (.div x (.ofNat (Nat.pow 10 308))) (e - 308)

/-- The double for `n * 10 ^ e`, if it is finite. Whatever 64 bits hold is zero after three
    divisions. -/
def scaled? (n : Nat) (e : Int) : Option Binary64 :=
  if e ≤ 0 then some (divPower 3 (.ofNat n) (-e).toNat)
  else if n = 0 then some (.ofNat 0)
  else if 308 < e then none
  else
    let x := Binary64.mul (.ofNat n) (.ofNat (Nat.pow 10 e.toNat))
    if x.isFinite then some x else none

/-- The double for a number in parts, if it is in the range of doubles. -/
def doubleOfParts? (negative : Bool) (whole fraction : List Char) (exponent : Int) :
    Option Binary64 :=
  let (n, e) := significand whole fraction
  (scaled? n (e + exponent)).map fun x => if negative then x.neg else x

/-- The characters of a number without its sign, and whether the sign is a minus. -/
def splitSign : List Char → Bool × List Char
  | '-' :: rest => (true, rest)
  | '+' :: rest => (false, rest)
  | cs => (false, cs)

/-- The double for the number that a text writes, which may have a fraction and an exponent. -/
def doubleOfText? (text : String) : Option Binary64 :=
  let (negative, cs) := splitSign text.toList
  let mantissa := cs.takeWhile fun c => c != 'e' && c != 'E'
  let (down, digits) := splitSign ((cs.drop mantissa.length).drop 1)
  let exponent : Int := Text.digitsValue digits
  let whole := mantissa.takeWhile (· != '.')
  doubleOfParts? negative whole ((mantissa.drop whole.length).drop 1)
    (if down then -exponent else exponent)

/-- The double for a number. -/
def double? : Json → Option Binary64
  | .int n => if fits n then some (.ofRatio (n < 0) n.natAbs 1) else doubleOfText? (toString n)
  | .decimal text => doubleOfText? text
  | _ => none

end SlurmLink.Json

/-!
Double-precision numbers, computed exactly: a finite double is a sign, a significand and a power of
two, and every operation rounds the exact result once, to the nearest double and to the even
significand on a tie. Overflow gives an infinity, and an operation without a meaning gives `nan`.
-/

namespace SlurmLink

/-- A double. The value of `finite s m e` is `m * 2 ^ e`, negated when `s` holds. -/
inductive Binary64 where
  | nan
  | infinite (negative : Bool)
  | finite (negative : Bool) (significand : Nat) (exponent : Int)
  deriving DecidableEq, Repr, Inhabited

namespace Binary64

/-- The least exponent of a finite double. -/
def minExponent : Int := -1074

/-- The greatest exponent of a finite double. -/
def maxExponent : Int := 971

/-- The least significand of 53 bits. -/
def leastFull : Nat := 4503599627370496

/-- The power of two in the numerator of `2 ^ e`. -/
def up (e : Int) : Nat := Nat.pow 2 e.toNat

/-- The power of two in the denominator of `2 ^ e`. -/
def down (e : Int) : Nat := Nat.pow 2 (-e).toNat

/-- The quotient `n / d` rounded to a whole number; a half goes to the even neighbour. -/
def divEven (n d : Nat) : Nat :=
  let q := n / d
  let twice := 2 * (n % d)
  if twice < d then q
  else if d < twice then q + 1
  else if q % 2 = 0 then q else q + 1

/-- The exponent at which `n / d` has a significand of 53 bits, but never below the least. -/
def exponentOf (n d : Nat) : Int :=
  let k : Int := (Nat.log2 n : Int) - Nat.log2 d
  let k := if n * down k < d * up k then k - 1 else k
  max minExponent (k - 52)

/-- The double nearest to `n / d` with the given sign, for a positive `d`. -/
def ofRatio (negative : Bool) (n d : Nat) : Binary64 :=
  if n = 0 then .finite negative 0 0
  else
    let e := exponentOf n d
    let m := divEven (n * down e) (d * up e)
    let (m, e) := if m = 2 * leastFull then (leastFull, e + 1) else (m, e)
    if maxExponent < e then .infinite negative else .finite negative m e

/-- The double nearest to a whole number. -/
def ofNat (n : Nat) : Binary64 := ofRatio false n 1

/-- The double nearest to `digits * 10 ^ exponent`. -/
def ofDecimal (negative : Bool) (digits : Nat) (exponent : Int) : Binary64 :=
  ofRatio negative (digits * Nat.pow 10 exponent.toNat) (Nat.pow 10 (-exponent).toNat)

def one : Binary64 := ofNat 1

def isFinite : Binary64 → Bool
  | .finite .. => true
  | _ => false

/-- The product, rounded once. -/
def mul : Binary64 → Binary64 → Binary64
  | .nan, _ => .nan
  | _, .nan => .nan
  | .infinite s, .infinite t => .infinite (s != t)
  | .infinite s, .finite t m _ => if m = 0 then .nan else .infinite (s != t)
  | .finite s m _, .infinite t => if m = 0 then .nan else .infinite (s != t)
  | .finite s m e, .finite t n f => ofRatio (s != t) (m * n * up (e + f)) (down (e + f))

/-- The quotient, rounded once; both arguments are meant to be finite. -/
def div : Binary64 → Binary64 → Binary64
  | .finite s m e, .finite t n f =>
    if n = 0 then (if m = 0 then .nan else .infinite (s != t))
    else ofRatio (s != t) (m * up (e - f)) (n * down (e - f))
  | .finite s _ _, .infinite t => .finite (s != t) 0 0
  | .infinite s, .finite t _ _ => .infinite (s != t)
  | _, _ => .nan

def neg : Binary64 → Binary64
  | .nan => .nan
  | .infinite s => .infinite (!s)
  | .finite s m e => .finite (!s) m e

/-- The signed significand at the exponent `f`, for `f` at most the number's own. -/
def scaled (negative : Bool) (m : Nat) (e f : Int) : Int :=
  let n : Int := ((m * up (e - f) : Nat) : Int)
  if negative then -n else n

/-- The sum, rounded once. A sum of zero is negative only if both terms are. -/
def add : Binary64 → Binary64 → Binary64
  | .finite s m e, .finite t n f =>
    let g := min e f
    let sum := scaled s m e g + scaled t n f g
    if sum = 0 then .finite (s && t) 0 0
    else ofRatio (sum < 0) (sum.natAbs * up g) (down g)
  | .infinite s, .infinite t => if s = t then .infinite s else .nan
  | .infinite s, .finite .. => .infinite s
  | .finite .., .infinite t => .infinite t
  | _, _ => .nan

def sub (a b : Binary64) : Binary64 := add a (neg b)

/-- The order of the values; `nan` is not in it. -/
def le : Binary64 → Binary64 → Bool
  | .nan, _ => false
  | _, .nan => false
  | .infinite true, _ => true
  | _, .infinite false => true
  | .infinite false, _ => false
  | _, .infinite true => false
  | .finite s m e, .finite t n f =>
    let g := min e f
    scaled s m e g ≤ scaled t n f g

def lt (a b : Binary64) : Bool := le a b && !le b a

/-- The smaller of two numbers. -/
def least (a b : Binary64) : Binary64 := if le b a then b else a

/-- Raises to a power by squaring, the lowest bit of the exponent first. `steps` is at least the
    number of bits of `n`. -/
def powLoop : Nat → Binary64 → Binary64 → Nat → Binary64
  | 0, r, _, _ => r
  | steps + 1, r, a, n =>
    let r := if n % 2 = 1 then mul r a else r
    if n / 2 = 0 then r else powLoop steps r (mul a a) (n / 2)

/-- The greatest exponent of a power. -/
def maxPower : Nat := 2147483647

/-- The power `a ^ n`, rounded at every multiplication; an exponent above the greatest counts as
    the greatest. -/
def pow (a : Binary64) (n : Nat) : Binary64 := powLoop 32 one a (min n maxPower)

/-- The nearest whole number from 0 to `limit`; a half goes up, and `nan` gives 0. -/
def toNatUpTo (limit : Nat) : Binary64 → Nat
  | .nan => 0
  | .infinite negative => if negative then 0 else limit
  | .finite negative m e =>
    if negative then 0 else min limit ((2 * m * up e + down e) / (2 * down e))

end Binary64

end SlurmLink

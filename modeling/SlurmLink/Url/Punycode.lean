/-!
Punycode: a label of a host name that is not ASCII is written with ASCII letters and digits. The
ASCII characters come first, and then, in ascending order, the others, each as its distance from the
one before in the space of all positions and code points.
-/

namespace SlurmLink.Url.Punycode

/-- The digit of value `d`: the letters, and then 0 to 9. -/
def digit (d : Nat) : Char := if d < 26 then Char.ofNat (97 + d) else Char.ofNat (22 + d)

/-- The least value that a digit has when it is not the last one of a number. -/
def threshold (k bias : Nat) : Nat := if k ≤ bias then 1 else min 26 (k - bias)

/-- The digits of a number of variable length, the lowest first. The first argument bounds their
    number, which the number's own bits do. -/
def number : Nat → Nat → Nat → Nat → List Char
  | 0, _, _, _ => []
  | steps + 1, bias, k, q =>
    let t := threshold k bias
    if q < t then [digit q]
    else digit (t + (q - t) % (36 - t)) :: number steps bias (k + 36) ((q - t) / (36 - t))

/-- Divides by 35 until at most 455 is left, and counts the divisions in steps of 36. -/
def shrink : Nat → Nat → Nat → Nat × Nat
  | 0, delta, k => (delta, k)
  | steps + 1, delta, k => if 455 < delta then shrink steps (delta / 35) (k + 36) else (delta, k)

/-- The bias after a distance `delta`, when `handled` characters are written. -/
def adapt (delta handled : Nat) (first : Bool) : Nat :=
  let d := if first then delta / 700 else delta / 2
  let (d, k) := shrink (d + d / handled) (d + d / handled) 0
  k + 36 * d / (d + 38)

/-- What is written so far. -/
structure State where
  text : List Char
  delta : Nat
  bias : Nat
  handled : Nat

/-- Passes one character of the label while the code point `n` is due. -/
def pass (basic n : Nat) (s : State) (c : Char) : State :=
  if c.toNat < n then { s with delta := s.delta + 1 }
  else if c.toNat = n then
    { text := s.text ++ number (s.delta.log2 + 2) s.bias 36 s.delta
      delta := 0
      bias := adapt s.delta (s.handled + 1) (s.handled = basic)
      handled := s.handled + 1 }
  else s

/-- Passes the label once for every code point that is not ASCII, in ascending order. -/
def passAll (basic : Nat) (label : List Char) : List Nat → Nat → State → State
  | [], _, s => s
  | n :: rest, due, s =>
    let s := { s with delta := s.delta + (n - due) * (s.handled + 1) }
    let s := label.foldl (pass basic n) s
    passAll basic label rest (n + 1) { s with delta := s.delta + 1 }

/-- The written form of a label. -/
def encode (label : List Char) : List Char :=
  let basic := label.filter (fun c => c.toNat < 128)
  let others := ((label.map Char.toNat).filter (fun n => 128 ≤ n)).mergeSort.eraseDups
  let lead := basic ++ (if basic.isEmpty then [] else ['-'])
  (passAll basic.length label others 128 ⟨lead, 0, 72, basic.length⟩).text

/-! ### Reading -/

/-- The value of a digit. -/
def digitValue (c : Char) : Option Nat :=
  if c.isAlpha then some (c.toLower.toNat - 97)
  else if c.isDigit then some (c.toNat - 22)
  else none

/-- The limit of the numbers of a code. -/
def limit : Nat := 4294967295

/-- What is read so far: the text, the code point and the place of the character before, and the
    number under way: the threshold's argument, the weight of the next digit, and the sum of the
    place and of the digits so far. -/
structure Reading where
  text : List Char
  code : Nat := 128
  place : Nat := 0
  bias : Nat := 72
  k : Nat := 36
  weight : Nat := 1
  sum : Nat := 0

/-- Puts a character into the text when its number is complete. The sum counts the places of the text
    over and over; each time round raises the code point by one. -/
def Reading.insert (r : Reading) (sum : Nat) : Option Reading :=
  let places := r.text.length + 1
  let code := r.code + sum / places
  if code.isValidChar then
    some { text := r.text.insertIdx (sum % places) (Char.ofNat code)
           code
           place := sum % places + 1
           bias := adapt (sum - r.place) places (r.place = 0)
           sum := sum % places + 1 }
  else none

/-- Reads one digit; a digit below the threshold is the last one of its number. -/
def Reading.step (r : Reading) (c : Char) : Option Reading := do
  let d ← digitValue c
  let sum := r.sum + d * r.weight
  let t := threshold r.k r.bias
  if limit < sum then none
  else if d < t then r.insert sum
  else if limit < r.weight * (36 - t) then none
  else some { r with k := r.k + 36, weight := r.weight * (36 - t), sum }

/-- The label that a code is written for. The ASCII characters stand before the last hyphen, unless
    nothing does. -/
def decode (code : List Char) : Option (List Char) := do
  let digits := (code.reverse.takeWhile (· != '-')).reverse
  let basic := code.take (code.length - digits.length - 1)
  let start : Reading := { text := basic }
  let r ← (if basic.isEmpty then code else digits).foldlM Reading.step start
  if r.weight = 1 then some r.text else none

end SlurmLink.Url.Punycode

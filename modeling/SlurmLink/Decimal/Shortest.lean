import SlurmLink.Decimal.Binary64

/-!
The decimal text of a double: the fewest digits that read back as the same double, of those the ones
nearest to it. Small and large magnitudes are written with an exponent.
-/

namespace SlurmLink.Binary64

/-- The exponent of ten of the leading digit of `n / d`, for positive numbers. -/
def leadingPower (n d : Nat) : Int :=
  if d ≤ n then ((toString (n / d)).length : Int) - 1
  else
    match (List.range 330).find? (fun j => d ≤ n * Nat.pow 10 j) with
    | some j => -(j : Int)
    | none => -330

/-- The two decimals of `count` digits next to `n / d` that read back as `x`, the nearer one
    first. -/
def decimalWith (x : Binary64) (n d : Nat) (count : Nat) : Option (Nat × Int) :=
  let p := leadingPower n d - count + 1
  let num := n * Nat.pow 10 (-p).toNat
  let den := d * Nat.pow 10 p.toNat
  let below := num / den
  let candidates := if 2 * (num % den) ≤ den then [below, below + 1] else [below + 1, below]
  (candidates.find? (fun c => ofDecimal false c p = x)).map (fun c => (c, p))

/-- The shortest decimal that reads back: digits and exponent of ten. -/
def shortest (m : Nat) (e : Int) : Nat × Int :=
  let n := m * up e
  let d := down e
  ((List.range 17).findSome? (fun k => decimalWith (ofRatio false n d) n d (k + 1))).getD (0, 0)

/-- Drops zeros at the end of a decimal's digits. -/
def dropZeros : Nat → Nat × Int → Nat × Int
  | 0, r => r
  | steps + 1, (c, p) => if c % 10 = 0 ∧ c ≠ 0 then dropZeros steps (c / 10, p + 1) else (c, p)

/-- Writes `digits * 10 ^ p` without an exponent, with one decimal place at least. -/
def positional (digits : List Char) (p : Int) : List Char :=
  if 0 ≤ p then digits ++ List.replicate p.toNat '0' ++ ['.', '0']
  else
    let places := (-p).toNat
    if digits.length ≤ places then
      ['0', '.'] ++ List.replicate (places - digits.length) '0' ++ digits
    else digits.take (digits.length - places) ++ ['.'] ++ digits.drop (digits.length - places)

/-- How a text of doubles is written: the least power of ten whose numbers are written without an
    exponent, and whether an exponent that is not negative has a plus sign. -/
structure Style where
  leastPositional : Int
  plusSign : Bool
  deriving DecidableEq, Repr

/-- Writes `digits * 10 ^ p` with one digit before the point and an exponent. -/
def scientific (style : Style) (digits : List Char) (p : Int) : List Char :=
  let exponent := p + digits.length - 1
  let fraction := digits.drop 1
  digits.take 1 ++ (if fraction.isEmpty then [] else '.' :: fraction) ++ ['e'] ++
    (if style.plusSign && 0 ≤ exponent then ['+'] else []) ++ (toString exponent).toList

/-- The text of a double: positional from the least power of the style to below `1e16`, with an
    exponent elsewhere. -/
def toTextWith (style : Style) : Binary64 → String
  | .nan => "NaN"
  | .infinite negative => if negative then "-inf" else "inf"
  | .finite negative m e =>
    let sign := if negative then "-" else ""
    if m = 0 then sign ++ "0.0"
    else
      let (c, p) := dropZeros 17 (shortest m e)
      let digits := (toString c).toList
      let leading := p + digits.length - 1
      sign ++ String.ofList
        (if style.leastPositional ≤ leading ∧ leading < 16 then positional digits p
          else scientific style digits p)

/-- The text of a double on a line of a log. -/
def toText (x : Binary64) : String := toTextWith ⟨-4, false⟩ x

/-- The text of a double in JSON. -/
def toJsonText (x : Binary64) : String := toTextWith ⟨-5, true⟩ x

end SlurmLink.Binary64

import SlurmLink.Text.Number
import SlurmLink.Time.Calendar

/-!
Points in time, counted from 1970-01-01T00:00:00Z, and their text: a date, a time of day and an
offset from UTC. Reading is lenient about blanks and field widths; writing always gives UTC.
-/

namespace SlurmLink

/-- A point in time. `nanos` reaches two thousand million within a leap second, which belongs to the
    second before it. -/
structure Timestamp where
  seconds : Int
  nanos : Nat
  deriving DecidableEq, Repr, Inhabited

namespace Timestamp

/-- The order in time. -/
def before (a b : Timestamp) : Bool :=
  a.seconds < b.seconds || (a.seconds == b.seconds && a.nanos < b.nanos)

/-- The first second of the year -262143. -/
def minSeconds : Int := -8334601228800

/-- The last second of the year 262142. -/
def maxSeconds : Int := 8210266876799

def inRange (seconds : Int) : Bool := minSeconds ≤ seconds && seconds ≤ maxSeconds

/-- The point at a whole second, if it is within the range of years. -/
def ofSeconds? (seconds : Int) : Option Timestamp :=
  if inRange seconds then some ⟨seconds, 0⟩ else none

/-! ### Reading -/

/-- Digits in front, at least one and at most `width`, and what follows them. -/
def takeDigits (width : Nat) (cs : List Char) : Option (Nat × List Char) :=
  match (cs.take width).takeWhile Text.isDigit with
  | [] => none
  | digits => some (Text.digitsValue digits, cs.drop digits.length)

def skipBlanks (cs : List Char) : List Char := cs.dropWhile Text.isBlank

/-- A field of one or two digits between two bounds, with blanks before it. -/
def takeField (low high : Nat) (cs : List Char) : Option (Nat × List Char) := do
  let (n, rest) ← takeDigits 2 (skipBlanks cs)
  if low ≤ n ∧ n ≤ high then some (n, rest) else none

/-- A mark between two fields, with blanks before it. -/
def takeMark (mark : Char) (cs : List Char) : Option (List Char) :=
  match skipBlanks cs with
  | c :: rest => if c = mark then some rest else none
  | [] => none

/-- A year: four digits at most, or a sign and any number of digits. -/
def takeYear (cs : List Char) : Option (Int × List Char) :=
  match skipBlanks cs with
  | '-' :: rest => (takeDigits rest.length rest).map fun r => (-(r.1 : Int), r.2)
  | '+' :: rest => (takeDigits rest.length rest).map fun r => ((r.1 : Int), r.2)
  | rest => (takeDigits 4 rest).map fun r => ((r.1 : Int), r.2)

/-- A fraction of a second in nanoseconds; digits after the ninth are skipped. -/
def takeFraction : List Char → Option (Nat × List Char)
  | '.' :: rest =>
    match (rest.take 9).takeWhile Text.isDigit with
    | [] => none
    | digits => some (Text.digitsValue digits * Nat.pow 10 (9 - digits.length),
        (rest.drop digits.length).dropWhile Text.isDigit)
  | rest => some (0, rest)

/-- The hours and minutes of an offset, in seconds. -/
def takeClock : List Char → Option (Int × List Char)
  | h₁ :: h₂ :: rest =>
    if Text.isDigit h₁ && Text.isDigit h₂ then
      match rest.dropWhile (fun c => c == ':' || Text.isBlank c) with
      | m₁ :: m₂ :: rest =>
        if '0' ≤ m₁ && m₁ ≤ '5' && Text.isDigit m₂ then
          some (((Text.digitsValue [h₁, h₂] * 60 + Text.digitsValue [m₁, m₂]) * 60 : Nat), rest)
        else none
      | _ => none
    else none
  | _ => none

/-- The offset from UTC in seconds: `UTC`, `Z`, or a sign with hours and minutes. -/
def takeOffset (cs : List Char) : Option (Int × List Char) :=
  if (cs.take 3).map Char.toUpper = ['U', 'T', 'C'] then some (0, cs.drop 3)
  else
    match cs with
    | 'Z' :: rest => some (0, rest)
    | 'z' :: rest => some (0, rest)
    | '+' :: rest => takeClock rest
    | '-' :: rest => (takeClock rest).map fun r => (-r.1, r.2)
    | '\u2212' :: rest => (takeClock rest).map fun r => (-r.1, r.2)
    | _ => none

/-- Reads a date and time with an offset. The sixtieth second counts as a leap second. -/
def ofChars? (cs : List Char) : Option Timestamp := do
  let (year, cs) ← takeYear cs
  let cs ← takeMark '-' cs
  let (month, cs) ← takeField 1 12 cs
  let cs ← takeMark '-' cs
  let (day, cs) ← takeField 1 31 cs
  let cs ← match cs with
    | c :: rest => if c = 'T' ∨ c = 't' ∨ c = ' ' then some rest else none
    | [] => none
  let (hour, cs) ← takeField 0 23 cs
  let cs ← takeMark ':' cs
  let (minute, cs) ← takeField 0 59 cs
  let cs ← takeMark ':' cs
  let (second, cs) ← takeField 0 60 cs
  let (fraction, cs) ← takeFraction cs
  let (offset, cs) ← takeOffset (skipBlanks cs)
  let date : Calendar.Date := ⟨year, month, day⟩
  let (second, nanos) := if second = 60 then (59, fraction + 1000000000) else (second, fraction)
  let localSeconds : Int :=
    Calendar.dayNumber date * 86400 + ((hour * 60 + minute) * 60 + second : Nat)
  let seconds := localSeconds - offset
  if (skipBlanks cs).isEmpty && Calendar.isDate date && offset.natAbs < 86400 &&
      inRange localSeconds && inRange seconds then
    some ⟨seconds, nanos⟩
  else none

/-- Reads a date and time with an offset. -/
def ofText? (s : String) : Option Timestamp := ofChars? s.toList

/-! ### Writing -/

/-- A year with four digits at least, and with a sign outside the years 0 to 9999. -/
def yearText (year : Int) : String :=
  if 0 ≤ year ∧ year ≤ 9999 then Text.padded 4 year.toNat
  else (if year < 0 then "-" else "+") ++ Text.padded 4 year.natAbs

/-- A fraction of a second with three, six or nine digits, and nothing for zero. -/
def fractionText (nanos : Nat) : String :=
  if nanos = 0 then ""
  else if nanos % 1000000 = 0 then "." ++ Text.padded 3 (nanos / 1000000)
  else if nanos % 1000 = 0 then "." ++ Text.padded 6 (nanos / 1000)
  else "." ++ Text.padded 9 nanos

/-- The date and time in UTC. -/
def toText (t : Timestamp) : String :=
  let date := Calendar.dateOf (t.seconds / 86400)
  let second := (t.seconds % 86400).toNat
  let leap := t.nanos / 1000000000
  yearText date.year ++ "-" ++ Text.padded 2 date.month ++ "-" ++ Text.padded 2 date.day ++ "T" ++
    Text.padded 2 (second / 3600) ++ ":" ++ Text.padded 2 (second / 60 % 60) ++ ":" ++
    Text.padded 2 (second % 60 + leap) ++ fractionText (t.nanos % 1000000000) ++ "Z"

end Timestamp

end SlurmLink

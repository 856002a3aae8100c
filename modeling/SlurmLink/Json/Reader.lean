import SlurmLink.Json.Double
import SlurmLink.Text.Utf8

/-!
Reading JSON text. The grammar is strict: blanks are space, tab, line feed and carriage return only,
control characters are refused inside strings, and nothing may follow the value. What a string or a
number means is judged separately: a broken string or a number beyond the doubles is still JSON and
is read as a garbled value.
-/

namespace SlurmLink.Json.Reader

/-- What is left to read: characters, and empty items for broken bytes. -/
abbrev Input := List (Option Char)

def isSpace (c : Char) : Bool := c == ' ' || c == '\t' || c == '\n' || c == '\r'

/-- Drops the blanks in front. -/
def skipSpace : Input → Input
  | some c :: rest => if isSpace c then skipSpace rest else some c :: rest
  | rest => rest

/-- Takes the given characters off the front. -/
def expect : List Char → Input → Option Input
  | [], rest => some rest
  | c :: cs, some d :: rest => if c = d then expect cs rest else none
  | _ :: _, _ => none

/-- The digits in front and the rest. -/
def spanDigits : Input → List Char × Input
  | some c :: rest =>
    if Text.isDigit c then ((c :: (spanDigits rest).1), (spanDigits rest).2)
    else ([], some c :: rest)
  | rest => ([], rest)

/-- The unit of sixteen bits written by four hexadecimal digits. -/
def hexUnit (a b c d : Char) : Option Nat := do
  let a ← Text.hexValue a
  let b ← Text.hexValue b
  let c ← Text.hexValue c
  let d ← Text.hexValue d
  some (((a * 16 + b) * 16 + c) * 16 + d)

/-- One item of a string: a character, a unit written in hexadecimal, or a broken byte. -/
inductive Item where
  | char (c : Char)
  | unit (u : Nat)
  | broken

/-- The character after a backslash that stands for one character. -/
def shortEscape : Char → Option Char
  | '"' => some '"'
  | '\\' => some '\\'
  | '/' => some '/'
  | 'b' => some '\x08'
  | 'f' => some '\x0c'
  | 'n' => some '\n'
  | 'r' => some '\r'
  | 't' => some '\t'
  | _ => none

/-- The items of a string up to its closing quote. -/
def items : Input → Option (List Item × Input)
  | [] => none
  | none :: rest => (items rest).map (fun r => (.broken :: r.1, r.2))
  | some '"' :: rest => some ([], rest)
  | some '\\' :: some 'u' :: some a :: some b :: some c :: some d :: rest =>
    match hexUnit a b c d with
    | some u => (items rest).map (fun r => (.unit u :: r.1, r.2))
    | none => none
  | some '\\' :: some e :: rest =>
    match shortEscape e with
    | some c => (items rest).map (fun r => (.char c :: r.1, r.2))
    | none => none
  | [some '\\'] => none
  | some '\\' :: none :: _ => none
  | some c :: rest =>
    if c.toNat < 0x20 then none else (items rest).map (fun r => (.char c :: r.1, r.2))

def isHigh (u : Nat) : Bool := 0xD800 ≤ u && u < 0xDC00
def isLow (u : Nat) : Bool := 0xDC00 ≤ u && u < 0xE000

/-- The text of a string's items: a high unit and the low unit after it make one character, and a
    unit of either sort on its own makes none. -/
def assemble : List Item → Option (List Char)
  | [] => some []
  | .broken :: _ => none
  | .char c :: rest => (assemble rest).map (c :: ·)
  | .unit u :: .unit v :: rest =>
    if isHigh u then
      if isLow v then
        (assemble rest).map (Char.ofNat (0x10000 + (u - 0xD800) * 0x400 + (v - 0xDC00)) :: ·)
      else none
    else if isLow u then none
    else (assemble (.unit v :: rest)).map (Char.ofNat u :: ·)
  | .unit u :: rest =>
    if isHigh u || isLow u then none else (assemble rest).map (Char.ofNat u :: ·)

/-- A string after its opening quote; the text is missing if the string is no Unicode text. -/
def string (input : Input) : Option (Option String × Input) :=
  (items input).map (fun r => ((assemble r.1).map String.ofList, r.2))

/-- The fraction of a number, if there is one: a point and at least one digit. -/
def fractionPart : Input → Option (List Char × Input)
  | some '.' :: rest =>
    match spanDigits rest with
    | ([], _) => none
    | r => some r
  | rest => some ([], rest)

/-- The exponent of a number, if there is one: its sign and at least one digit. -/
def exponentPart : Input → Option (Option (Bool × List Char) × Input)
  | some c :: rest =>
    if c = 'e' ∨ c = 'E' then
      let (negative, rest) := match rest with
        | some '-' :: rest => (true, rest)
        | some '+' :: rest => (false, rest)
        | rest => (false, rest)
      match spanDigits rest with
      | ([], _) => none
      | (digits, rest) => some (some (negative, digits), rest)
    else some (none, some c :: rest)
  | rest => some (none, rest)

/-- A number: no zero in front of other digits, and digits on both sides of a point. -/
def number (input : Input) : Option (Json × Input) := do
  let (negative, rest) := match input with
    | some '-' :: rest => (true, rest)
    | rest => (false, rest)
  let (whole, rest) := spanDigits rest
  if whole.isEmpty || (whole.head? == some '0' && 1 < whole.length) then none
  let (fraction, rest) ← fractionPart rest
  let (exponent, rest) ← exponentPart rest
  let (down, digits) := exponent.getD (false, [])
  let power : Int := Text.digitsValue digits
  let value : Json :=
    if (doubleOfParts? negative whole fraction (if down then -power else power)).isNone then
      .garbled
    else if fraction.isEmpty && exponent.isNone && !(negative && whole == ['0']) then
      .int (if negative then -(Text.digitsValue whole : Int) else Text.digitsValue whole)
    else
      .decimal (String.ofList ((if negative then ['-'] else []) ++ whole ++
        (if fraction.isEmpty then [] else '.' :: fraction) ++
        (match exponent with
          | none => []
          | some (s, ds) => 'e' :: (if s then '-' :: ds else ds))))
  some (value, rest)

/-- An object of the given members, if all its keys are texts. -/
def object (members : List (Option String × Json)) : Json :=
  match members.mapM (fun m => m.1.map (fun key => (key, m.2))) with
  | some ms => .obj ms
  | none => .garbled

mutual

/-- One value. The first argument bounds the steps, of which a text needs no more than two a
    character. -/
def value : Nat → Input → Option (Json × Input)
  | 0, _ => none
  | n + 1, input =>
    match skipSpace input with
    | some '{' :: rest =>
      match skipSpace rest with
      | some '}' :: rest => some (.obj [], rest)
      | rest => (members n rest).map (fun r => (object r.1, r.2))
    | some '[' :: rest =>
      match skipSpace rest with
      | some ']' :: rest => some (.arr [], rest)
      | rest => (elements n rest).map (fun r => (.arr r.1, r.2))
    | some '"' :: rest =>
      (string rest).map (fun r => ((r.1.map Json.str).getD .garbled, r.2))
    | some 't' :: rest => (expect ['r', 'u', 'e'] rest).map (fun rest => (.bool true, rest))
    | some 'f' :: rest => (expect ['a', 'l', 's', 'e'] rest).map (fun rest => (.bool false, rest))
    | some 'n' :: rest => (expect ['u', 'l', 'l'] rest).map (fun rest => (.null, rest))
    | rest => number rest

/-- The values of an array, from the first one on, up to its closing bracket. -/
def elements : Nat → Input → Option (List Json × Input)
  | 0, _ => none
  | n + 1, input =>
    match value n input with
    | none => none
    | some (v, rest) =>
      match skipSpace rest with
      | some ',' :: rest => (elements n rest).map (fun r => (v :: r.1, r.2))
      | some ']' :: rest => some ([v], rest)
      | _ => none

/-- The members of an object, from the first one on, up to its closing brace. -/
def members : Nat → Input → Option (List (Option String × Json) × Input)
  | 0, _ => none
  | n + 1, input =>
    match skipSpace input with
    | some '"' :: rest =>
      match string rest with
      | none => none
      | some (key, rest) =>
        match skipSpace rest with
        | some ':' :: rest =>
          match value n rest with
          | none => none
          | some (v, rest) =>
            match skipSpace rest with
            | some ',' :: rest => (members n rest).map (fun r => ((key, v) :: r.1, r.2))
            | some '}' :: rest => some ([(key, v)], rest)
            | _ => none
        | _ => none
    | _ => none

end

/-- Reads a text that holds one value and blanks around it. -/
def document (input : Input) : Option Json :=
  match value (2 * input.length + 2) input with
  | some (v, rest) => if (skipSpace rest).isEmpty then some v else none
  | none => none

end Reader

/-- Reads the bytes of a JSON text. -/
def ofBytes? (bytes : List UInt8) : Option Json := Reader.document (Text.Utf8.decode bytes)

/-- Reads a JSON text. -/
def ofText? (s : String) : Option Json := Reader.document (s.toList.map some)

end SlurmLink.Json

import SlurmLink.Text.Number
import SlurmLink.Text.Utf8

/-!
Percent-encoding: characters that may not stand in a part of a URL are written as the bytes of their
UTF-8 form, two hexadecimal digits each.
-/

namespace SlurmLink.Url

/-- An upper-case hexadecimal digit. -/
def upperHex (n : Nat) : Char := if n < 10 then Char.ofNat (48 + n) else Char.ofNat (55 + n)

/-- A byte as a percent sign and two digits. -/
def escapeByte (b : UInt8) : List Char := ['%', upperHex (b.toNat / 16), upperHex (b.toNat % 16)]

/-- Escapes the characters that `special` selects. -/
def encodeWith (special : Char → Bool) (cs : List Char) : List Char :=
  cs.flatMap fun c => if special c then (Text.Utf8.encodeChar c).flatMap escapeByte else [c]

/-- The bytes that a text stands for; a percent sign without two digits after it is kept. -/
def decode : List Char → List UInt8
  | [] => []
  | '%' :: a :: b :: rest =>
    match Text.hexValue a, Text.hexValue b with
    | some x, some y => (16 * x + y).toUInt8 :: decode rest
    | _, _ => Text.Utf8.encodeChar '%' ++ decode (a :: b :: rest)
  | c :: rest => Text.Utf8.encodeChar c ++ decode rest

/-- Controls and what is not ASCII; these are escaped everywhere. -/
def isControl (c : Char) : Bool := c.toNat < 0x20 || 0x7E < c.toNat

def inFragment (c : Char) : Bool :=
  isControl c || c == ' ' || c == '"' || c == '<' || c == '>' || c == '`'

def inQuery (c : Char) : Bool :=
  isControl c || c == ' ' || c == '"' || c == '#' || c == '<' || c == '>' || c == '\x27'

def inPath (c : Char) : Bool :=
  inFragment c || c == '#' || c == '?' || c == '\x7b' || c == '\x7d'

/-- What is escaped in a segment that is added to a path: also the marks that would end it or read
    as an escape. -/
def inSegment (c : Char) : Bool := inPath c || c == '/' || c == '%' || c == '\\'

def inUserinfo (c : Char) : Bool :=
  inPath c || c == '/' || c == ':' || c == ';' || c == '=' || c == '@' || c == '[' || c == '\\' ||
    c == ']' || c == '^' || c == '|'

end SlurmLink.Url

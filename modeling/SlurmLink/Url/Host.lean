import SlurmLink.Text.Number
import SlurmLink.Url.Domain.Basic
import SlurmLink.Url.Percent

/-!
The host of a URL: a domain name, an IPv4 address in any of its spellings, or an IPv6 address in
brackets.
-/

namespace SlurmLink

/-- Why a text is not a URL. -/
inductive UrlFault where
  | relative
  | emptyHost
  | invalidPort
  | invalidIpv4
  | invalidIpv6
  | invalidDomain
  | invalidHostCharacter
  deriving DecidableEq, Repr

def UrlFault.message : UrlFault → String
  | .relative => "relative URL without a base"
  | .emptyHost => "empty host"
  | .invalidPort => "invalid port number"
  | .invalidIpv4 => "invalid IPv4 address"
  | .invalidIpv6 => "invalid IPv6 address"
  | .invalidDomain => "invalid international domain name"
  | .invalidHostCharacter => "invalid domain character"

/-- The host of a URL. -/
inductive Host where
  | domain (name : String)
  | ipv4 (address : Nat)
  /-- The eight pieces of an address. -/
  | ipv6 (pieces : List Nat)
  deriving DecidableEq, Repr

namespace Host

/-! ### IPv4 -/

/-- A part of an address: decimal, octal after a zero, or hexadecimal after `0x`. -/
def ipv4Part (cs : List Char) : Option Nat :=
  let value (base : Nat) (digits : List Char) : Option Nat :=
    digits.foldlM (fun n c => do
      let d ← Text.hexValue c
      if d < base then some (base * n + d) else none) 0
  match cs with
  | [] => none
  | '0' :: x :: rest => if x = 'x' ∨ x = 'X' then value 16 rest else value 8 (x :: rest)
  | cs => value 10 cs

/-- The parts of an address; a dot at the end does not count. -/
def ipv4Parts (cs : List Char) : List (List Char) :=
  let parts := Text.pieces '.' cs
  if parts.getLast? = some [] then parts.dropLast else parts

/-- Names whose last label is a number are addresses. -/
def endsInNumber (cs : List Char) : Bool :=
  match (ipv4Parts cs).getLast? with
  | some last => Text.isDigits last || (ipv4Part last).isSome
  | none => false

/-- An address of one to four parts; the last part fills the bytes that the others leave. -/
def ipv4Address (cs : List Char) : Option Nat := do
  let numbers ← (ipv4Parts cs).mapM ipv4Part
  let last ← numbers.getLast?
  let leading := numbers.dropLast
  if 3 < leading.length || leading.any (fun n => 255 < n) ||
      Nat.pow 256 (4 - leading.length) ≤ last then none
  else some (leading.foldr (fun n acc => (acc.1 + n * Nat.pow 256 acc.2, acc.2 + 1))
    (last, 4 - leading.length)).1

/-! ### IPv6 -/

/-- One byte of an address at the end of an IPv6 address. -/
def dottedByte (cs : List Char) : Option Nat :=
  if Text.isDigits cs && (cs.length == 1 || cs.head? != some '0') && Text.digitsValue cs ≤ 255 then
    some (Text.digitsValue cs)
  else none

/-- Four bytes between dots make two pieces. -/
def dottedPieces (cs : List Char) : Option (List Nat) :=
  match (Text.pieces '.' cs).mapM dottedByte with
  | some [a, b, c, d] => some [256 * a + b, 256 * c + d]
  | _ => none

/-- One to four hexadecimal digits. -/
def hexPiece (cs : List Char) : Option Nat :=
  if cs.isEmpty || 4 < cs.length then none
  else cs.foldlM (fun n c => (Text.hexValue c).map (16 * n + ·)) 0

/-- The pieces between colons; the last one may be written with dots if `final` holds. -/
def colonPieces (final : Bool) : List (List Char) → Option (List Nat)
  | [] => some []
  | [cs] =>
    if final && cs.contains '.' then dottedPieces cs else (hexPiece cs).map ([·])
  | cs :: rest => do
    let piece ← hexPiece cs
    let pieces ← colonPieces final rest
    some (piece :: pieces)

/-- The pieces of a side of a double colon, which may be empty. -/
def sidePieces (final : Bool) (cs : List Char) : Option (List Nat) :=
  if cs.isEmpty then some [] else colonPieces final (Text.pieces ':' cs)

/-- Splits at the first double colon. -/
def splitDouble : List Char → Option (List Char × List Char)
  | ':' :: ':' :: rest => some ([], rest)
  | c :: rest => (splitDouble rest).map fun r => (c :: r.1, r.2)
  | [] => none

/-- The eight pieces of an address; a double colon stands for one or more zeros. -/
def ipv6Pieces (cs : List Char) : Option (List Nat) :=
  match splitDouble cs with
  | none => (sidePieces true cs).bind fun ps => if ps.length = 8 then some ps else none
  | some (left, right) => do
    let before ← sidePieces false left
    let after ← sidePieces true right
    if before.length + after.length ≤ 7 then
      some (before ++ List.replicate (8 - before.length - after.length) 0 ++ after)
    else none

/-- The length of the run of zeros in front. -/
def zeroRun (ps : List Nat) : Nat := (ps.takeWhile (· == 0)).length

/-- The longest run of zeros: where it starts and how long it is; of two the first one. -/
def longestRun (ps : List Nat) : Nat × Nat :=
  (List.range ps.length).foldl
    (fun best i => if best.2 < zeroRun (ps.drop i) then (i, zeroRun (ps.drop i)) else best) (0, 0)

def hexText (n : Nat) : String := String.ofList (Nat.toDigits 16 n)

/-- The text of the pieces, with the longest run of two zeros or more left out. -/
def ipv6Text (ps : List Nat) : String :=
  let (start, count) := longestRun ps
  if count < 2 then Text.joinWith ":" (ps.map hexText)
  else Text.joinWith ":" ((ps.take start).map hexText) ++ "::" ++
    Text.joinWith ":" ((ps.drop (start + count)).map hexText)

def ipv4Text (n : Nat) : String :=
  Text.joinWith "." ([n / 16777216, n / 65536 % 256, n / 256 % 256, n % 256].map toString)

/-! ### Reading and writing -/

/-- Reads the host of a URL of the web. -/
def read (cs : List Char) : Except UrlFault Host :=
  match cs with
  | [] => .error .emptyHost
  | '[' :: rest =>
    if rest.getLast? = some ']' then
      match ipv6Pieces rest.dropLast with
      | some ps => .ok (.ipv6 ps)
      | none => .error .invalidIpv6
    else .error .invalidIpv6
  | cs =>
    match (Text.Utf8.decode? (Url.decode cs)).bind Domain.ascii? with
    | none => .error .invalidDomain
    | some [] => .error .emptyHost
    | some name =>
      if endsInNumber name then
        match ipv4Address name with
        | some n => .ok (.ipv4 n)
        | none => .error .invalidIpv4
      else .ok (.domain (String.ofList name))

/-- Checks the host of a URL of another kind, where any text without marks will do. -/
def checkPlain (cs : List Char) : Except UrlFault Unit :=
  match cs with
  | '[' :: rest =>
    if rest.getLast? = some ']' && (ipv6Pieces rest.dropLast).isSome then .ok ()
    else .error .invalidIpv6
  | cs =>
    if cs.any (fun c => Domain.isForbidden c && c != '%' && (0x20 ≤ c.toNat && c.toNat != 0x7F ||
        c.toNat == 0)) then
      .error .invalidHostCharacter
    else .ok ()

def toText : Host → String
  | .domain name => name
  | .ipv4 n => ipv4Text n
  | .ipv6 ps => "[" ++ ipv6Text ps ++ "]"

end Host

end SlurmLink

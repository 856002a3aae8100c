import SlurmLink.Unicode.Bidi
import SlurmLink.Unicode.Joining
import SlurmLink.Unicode.Mark
import SlurmLink.Unicode.Normalization
import SlurmLink.Url.Domain.Mapping
import SlurmLink.Url.Punycode

/-!
Labels: the parts of a domain name between its dots. A label of other characters than ASCII is
written as `xn--` and a Punycode text; a label that is written so stands for the characters that the
text decodes to.
-/

namespace SlurmLink.Domain

/-- A label: its ASCII form and the characters that it stands for. -/
structure Label where
  written : List Char
  text : List Char
  deriving DecidableEq, Repr

namespace Label

def isAscii (cs : List Char) : Bool := cs.all fun c => c.toNat < 0x80

/-- What a label in Punycode starts with. -/
def codeMark : List Char := ['x', 'n', '-', '-']

/-- The text of a label in Punycode, read from what follows the mark. Folding and composing leave it
    alone, and it is not all ASCII, as the text of a code that ends in a hyphen would be. -/
def decode (code : List Char) : Option (List Char) := do
  if code.isEmpty || code.getLast? == some '-' || 2000 < code.length || !isAscii code then none
  let text ← Url.Punycode.decode code
  if (fold text).map Unicode.normalize = some text then some text else none

/-! ### Joiners -/

def nonJoiner : Char := '\u200c'
def joiner : Char := '\u200d'

/-- The first character that joining does not pass over. -/
def nearest (cs : List Char) : Option Char := cs.find? fun c => !Unicode.isTransparent c

/-- Checks a joiner that stands between `before`, its last character first, and `after`. A joiner of
    either sort may follow a virama, and the non-joiner may part two letters that would join. -/
def joinerFits (c : Char) (before after : List Char) : Bool :=
  match before with
  | [] => false
  | d :: _ =>
    Unicode.combiningClass d == Unicode.viramaClass ||
      c == nonJoiner && (nearest before).any Unicode.joinsFollowing &&
        (nearest after).any Unicode.joinsPreceding

/-- Checks the joiners of a text whose characters `before` are passed. -/
def joinersFit (before : List Char) : List Char → Bool
  | [] => true
  | c :: rest =>
    (!(c == nonJoiner || c == joiner) || joinerFits c before rest) && joinersFit (c :: before) rest

/-! ### Directions -/

/-- Checks the directions of a label in a name that turns the line. The label starts with a letter.
    From left to right, it holds nothing that turns the line and ends in a letter or a European
    number; from right to left, it holds no letter of the other direction, ends in a letter or a
    number, and has numbers of one kind only. Marks at the end do not count. -/
def directionsFit (text : List Char) : Bool :=
  let directions := text.map Unicode.Direction.ofChar
  let tail := (directions.drop 1).reverse.dropWhile (· == .nonspacingMark)
  match directions.head? with
  | none => true
  | some .leftToRight =>
    tail.all (fun d => d != .rightToLeft && d != .arabicNumber) &&
      tail.head?.all fun d => d == .leftToRight || d == .europeanNumber
  | some .rightToLeft =>
    tail.all (fun d => d != .leftToRight) &&
      tail.head?.all (fun d => d == .rightToLeft || d == .europeanNumber || d == .arabicNumber) &&
      !(tail.contains .europeanNumber && tail.contains .arabicNumber)
  | some _ => false

/-! ### Reading -/

/-- Checks a label that is not ASCII on its own: it starts with no mark, its joiners fit, and it is
    not too long. -/
def isSound (text : List Char) : Bool :=
  !text.head?.any Unicode.isMark && joinersFit [] text && text.length ≤ 1000

/-- Reads a label of folded and composed text. -/
def ofText? (cs : List Char) : Option Label := do
  if codeMark.isPrefixOf cs then
    let text ← decode (cs.drop codeMark.length)
    if isSound text then some ⟨cs, text⟩ else none
  else if isAscii cs then some ⟨cs, cs⟩
  else if isSound cs then some ⟨codeMark ++ Url.Punycode.encode cs, cs⟩
  else none

end Label

end SlurmLink.Domain

import SlurmLink.Text.Printable

/-!
Texts in double quotes for a log line: quotes, backslashes and what cannot be shown are escaped.
-/

namespace SlurmLink.Text

/-- A character inside quotes: a short escape where there is one, its number in hexadecimal if it
    cannot be shown, or the character itself. -/
def quoteChar (c : Char) : List Char :=
  if c = '"' then ['\\', '"']
  else if c = '\\' then ['\\', '\\']
  else if c = '\n' then ['\\', 'n']
  else if c = '\r' then ['\\', 'r']
  else if c = '\t' then ['\\', 't']
  else if c = '\x00' then ['\\', '0']
  else if isPrintable c then [c]
  else ['\\', 'u', '\x7b'] ++ Nat.toDigits 16 c.toNat ++ ['\x7d']

/-- A text with its quotes. -/
def quoted (s : String) : String := String.ofList ('"' :: s.toList.flatMap quoteChar ++ ['"'])

end SlurmLink.Text

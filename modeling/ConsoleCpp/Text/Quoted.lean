/-
Quoted text: the form in which a text stands inside a structured listing. Single quotes are used
unless the text has a single quote and no double quote; a backslash, the quote in use and every
character that is not printable are written as escapes.
-/
import ConsoleCpp.Text.Printable

namespace ConsoleCpp.Text

/-- A hexadecimal digit in lower case. -/
def hexDigit (n : Nat) : Char :=
  if n < 10 then Char.ofNat ('0'.toNat + n) else Char.ofNat ('a'.toNat + (n - 10))

/-- The last `width` hexadecimal digits of a number. -/
def hex : (width : Nat) → Nat → List Char
  | 0, _ => []
  | width + 1, n => hex width (n / 16) ++ [hexDigit (n % 16)]

/-- How one character is written between the quotes `quote`. -/
def quotedChar (quote c : Char) : List Char :=
  if c == '\\' || c == quote then ['\\', c]
  else if c == '\n' then ['\\', 'n']
  else if c == '\r' then ['\\', 'r']
  else if c == '\t' then ['\\', 't']
  else if isPrintable c then [c]
  else if c.toNat < 0x100 then '\\' :: 'x' :: hex 2 c.toNat
  else if c.toNat < 0x10000 then '\\' :: 'u' :: hex 4 c.toNat
  else '\\' :: 'U' :: hex 8 c.toNat

/-- The quote that a text is written with. -/
def quoteFor (cs : List Char) : Char :=
  if cs.contains '\'' && !cs.contains '"' then '"' else '\''

/-- The text between quotes. -/
def quoted (s : String) : String :=
  let quote := quoteFor s.toList
  String.ofList (quote :: (s.toList.flatMap (quotedChar quote) ++ [quote]))

end ConsoleCpp.Text

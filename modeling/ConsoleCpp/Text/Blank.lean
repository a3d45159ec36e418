/-
Blank characters: what separates tokens of a source text and words of a program's input. Besides the
ASCII blanks this takes in the four information separators, next line, the no-break space and the
Unicode space separators.
-/
import ConsoleCpp.Text.Runs

namespace ConsoleCpp.Text

/-- The blanks past ASCII. -/
def blankRuns : Runs := ⟨[
  0x85, 0x86, 0xa0, 0xa1, 0x1680, 0x1681, 0x2000, 0x200b, 0x2028, 0x202a, 0x202f, 0x2030, 0x205f,
  0x2060, 0x3000, 0x3001]⟩

/-- A blank of the ASCII range: tab to carriage return, the separators 1C to 1F, or a space. -/
def isAsciiBlank (code : Nat) : Bool :=
  (9 ≤ code && code ≤ 13) || (28 ≤ code && code ≤ 32)

/-- A character that only separates. -/
def isBlank (c : Char) : Bool :=
  if c.toNat < 0x80 then isAsciiBlank c.toNat else blankRuns.contains c.toNat

end ConsoleCpp.Text

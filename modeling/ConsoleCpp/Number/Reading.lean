/-
Numbers written in text, as a program's input has them: blanks around, a sign, digits of any script,
and single underscores between digits. What is no integer may be a decimal, with a point and an
exponent, or a word for infinity or for no number.
-/
import ConsoleCpp.Number.Double
import ConsoleCpp.Number.Limit
import ConsoleCpp.Text.Blank
import ConsoleCpp.Text.Digit
import ConsoleCpp.Text.Words

namespace ConsoleCpp.Number

open Text

/-- A blank that may stand around a number: any but the four information separators. -/
def isPadding (c : Char) : Bool := isBlank c && !(28 ≤ c.toNat && c.toNat ≤ 31)

/-- Digits of any script as `0` to `9`, and without the underscores between digits. `afterDigit`
says whether a digit stands just before. An underscore anywhere else, and any other character past
ASCII, makes the text no number. -/
def plainDigits (afterDigit : Bool) : List Char → Option (List Char)
  | [] => some []
  | c :: rest =>
    match digitValue? c with
    | some d => (plainDigits true rest).map (Char.ofNat ('0'.toNat + d) :: ·)
    | none =>
      if c == '_' then
        if afterDigit && (rest.head?.any isDigit) then plainDigits false rest else none
      else if c.toNat < 0x80 then (plainDigits false rest).map (c :: ·)
      else none

/-- The sign at the front, and what follows it. -/
def takeSign : List Char → Bool × List Char
  | '-' :: rest => (true, rest)
  | '+' :: rest => (false, rest)
  | cs => (false, cs)

/-- The number that the digits `0` to `9` write. -/
def natOfDigits (digits : List Char) : Nat :=
  digits.foldl (fun n c => 10 * n + (c.toNat - '0'.toNat)) 0

/-- What a text is as an integer. -/
inductive IntReading where
  | value (n : Int)
  | malformed
  /-- There are more digits than are read. -/
  | tooLong (digits : Nat)
deriving DecidableEq, Repr, Inhabited

/-- Reads an integer. -/
def readInt (s : String) : IntReading :=
  match plainDigits false (trimBoth isPadding s.toList) with
  | none => .malformed
  | some cs =>
    let (negative, digits) := takeSign cs
    if digits.isEmpty || !digits.all isAsciiDigit then .malformed
    else if maxDigits < digits.length then .tooLong digits.length
    else .value (signed negative (natOfDigits digits))

/-- The exponent at the front of a text, if that is all there is. -/
def readExponent? : List Char → Option Int
  | [] => some 0
  | mark :: rest =>
    if mark == 'e' || mark == 'E' then
      let (negative, digits) := takeSign rest
      if digits.isEmpty || !digits.all isAsciiDigit then none
      else some (signed negative (natOfDigits digits))
    else none

/-- An unsigned decimal: digits, a point, digits and an exponent, where one of the two runs of
digits may be missing. -/
def readUnsigned? (negative : Bool) (cs : List Char) : Option Float :=
  let whole := cs.takeWhile isAsciiDigit
  let rest := cs.dropWhile isAsciiDigit
  let (fraction, rest) := match rest with
    | '.' :: after => (after.takeWhile isAsciiDigit, after.dropWhile isAsciiDigit)
    | _ => ([], rest)
  if whole.isEmpty && fraction.isEmpty then none
  else
    (readExponent? rest).map fun exponent =>
      ofDecimal negative (natOfDigits (whole ++ fraction)) (exponent - fraction.length)

/-- A letter of the ASCII range in lower case. -/
def lowerAscii (c : Char) : Char :=
  if 'A'.toNat ≤ c.toNat && c.toNat ≤ 'Z'.toNat then Char.ofNat (c.toNat + 32) else c

/-- Reads a decimal. -/
def readFloat? (s : String) : Option Float :=
  (plainDigits false (trimBoth isPadding s.toList)).bind fun cs =>
    let (negative, rest) := takeSign cs
    match String.ofList (rest.map lowerAscii) with
    | "inf" | "infinity" => some (infinity negative)
    | "nan" => some nan
    | _ => readUnsigned? negative rest

end ConsoleCpp.Number

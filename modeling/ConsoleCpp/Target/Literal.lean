/-
Literals in generated Python. A string or character literal keeps its quotes; the escapes that the
two languages read differently are respelled. An integer literal with a leading zero is octal in the
source and becomes a decimal one.
-/
import ConsoleCpp.Error
import ConsoleCpp.Text.Digit
import ConsoleCpp.Text.Quoted

namespace ConsoleCpp.Target

open Text

/-! ## Escapes -/

/-- The value of a hexadecimal digit. -/
def hexValue? (c : Char) : Option Nat :=
  let n := c.toNat
  if '0'.toNat ≤ n && n ≤ '9'.toNat then some (n - '0'.toNat)
  else if 'a'.toNat ≤ n && n ≤ 'f'.toNat then some (n - 'a'.toNat + 10)
  else if 'A'.toNat ≤ n && n ≤ 'F'.toNat then some (n - 'A'.toNat + 10)
  else none

def isHexDigit (c : Char) : Bool := (hexValue? c).isSome

/-- The number that hexadecimal digits write. -/
def hexNumber (digits : List Char) : Nat :=
  digits.foldl (fun n c => 16 * n + (hexValue? c).getD 0) 0

/-- The characters after a backslash that both languages read alike. -/
def sharedEscapes : List Char := "\\'\"abfnrtvuU01234567".toList

/-- Respells the escapes of a literal. A hexadecimal escape takes all the digits after it in the
source but two in Python; of an escape that only the source has, the character itself is left. -/
def respell : List Char → List Char
  | [] => []
  | ['\\'] => ['\\']
  | '\\' :: c :: rest =>
    if c == 'x' && rest.head?.any isHexDigit then
      '\\' :: 'x' :: (hex 2 (hexNumber (rest.takeWhile isHexDigit) % 256) ++
        respell (rest.dropWhile isHexDigit))
    else if sharedEscapes.contains c || c == '\n' then '\\' :: c :: respell rest
    else c :: respell rest
  | c :: rest => c :: respell rest
termination_by cs => cs.length
decreasing_by
  all_goals simp only [List.length_cons]
  · have := (List.dropWhile_suffix isHexDigit (l := rest)).length_le
    omega
  · omega
  · omega
  · omega

/-- The generated spelling of a string or character literal. -/
def literal (text : String) : String := String.ofList (respell text.toList)

/-- What is wrong with an escape: the columns it takes, and which digits it should have. -/
inductive EscapeFault where
  | truncated (first last : Nat) (long : Bool)
  | noCharacter (first last : Nat)
deriving DecidableEq, Repr, Inhabited

/-- The complaint about an escape. -/
def EscapeFault.reason : EscapeFault → String
  | .truncated first last long =>
    columnsText first last ++
      (if long then "truncated \\UXXXXXXXX escape" else "truncated \\uXXXX escape")
  | .noCharacter first last => columnsText first last ++ "illegal Unicode character"
where
  columnsText (first last : Nat) : String :=
    "(unicode error) 'unicodeescape' codec can't decode bytes in position " ++ toString first ++
      "-" ++ toString last ++ ": "

/-- Why a literal stands for no text. -/
inductive LiteralFault where
  | refused (fault : EscapeFault)
  /-- It has half of a surrogate pair, which is no character. Python takes it. -/
  | surrogate
deriving DecidableEq, Repr, Inhabited

/-- Whether a code point is half of a surrogate pair. -/
def isSurrogate (n : Nat) : Bool := 0xd800 ≤ n && n ≤ 0xdfff

/-- A code point before the characters of the rest. What is refused in the rest is refused anyway. -/
def pointBefore (n : Nat) : Except LiteralFault (List Char) → Except LiteralFault (List Char)
  | .ok cs => if isSurrogate n then .error .surrogate else .ok (Char.ofNat n :: cs)
  | .error f => .error f

/-- The character of a one-letter escape. -/
def letterEscape? (c : Char) : Option Char :=
  match c with
  | '\\' => some '\\'
  | '\'' => some '\''
  | '"' => some '"'
  | 'a' => some '\x07'
  | 'b' => some '\x08'
  | 'f' => some '\x0c'
  | 'n' => some '\n'
  | 'r' => some '\r'
  | 't' => some '\t'
  | 'v' => some '\x0b'
  | _ => none

def isOctalDigit (c : Char) : Bool := '0'.toNat ≤ c.toNat && c.toNat ≤ '7'.toNat

/-- The number that octal digits write. -/
def octalNumber (digits : List Char) : Nat :=
  digits.foldl (fun n c => 8 * n + (c.toNat - '0'.toNat)) 0

/-- The columns that a character takes where escape faults are counted: one past ASCII is written
out as an escape of ten. -/
def columns (c : Char) : Nat := if c.toNat < 0x80 then 1 else 10

/-- The characters that the body of a generated literal stands for. `column` is where it starts. -/
def readBody (column : Nat) : List Char → Except LiteralFault (List Char)
  | [] => .ok []
  | ['\\'] => .ok ['\\']
  | '\\' :: c :: rest =>
    if c == 'u' || c == 'U' then
      let width := if c == 'u' then 4 else 8
      let digits := (rest.take width).takeWhile isHexDigit
      if digits.length < width then
        .error (.refused (.truncated column (column + 1 + digits.length) (c == 'U')))
      else if 0x10ffff < hexNumber digits then
        .error (.refused (.noCharacter column (column + 1 + width)))
      else pointBefore (hexNumber digits) (readBody (column + 2 + width) (rest.drop width))
    else if c == 'x' then
      (readBody (column + 4) (rest.drop 2)).map (Char.ofNat (hexNumber (rest.take 2)) :: ·)
    else if isOctalDigit c then
      let digits := ((c :: rest).take 3).takeWhile isOctalDigit
      (readBody (column + 1 + digits.length) (rest.drop (digits.length - 1))).map
        (Char.ofNat (octalNumber digits) :: ·)
    else
      match letterEscape? c with
      | some d => (readBody (column + 2) rest).map (d :: ·)
      | none => (readBody (column + 1 + columns c) rest).map ('\\' :: c :: ·)
  | c :: rest => (readBody (column + columns c) rest).map (c :: ·)
termination_by cs => cs.length
decreasing_by all_goals (simp only [List.length_cons, List.length_drop]; omega)

/-- A literal without the quotes around it. -/
def bodyOf (spelling : String) : List Char := (spelling.toList.drop 1).dropLast

/-- The text that a generated literal stands for. -/
def readLiteral (spelling : String) : Except LiteralFault String :=
  (readBody 0 (bodyOf spelling)).map String.ofList

/-! ## Numbers -/

/-- The number that decimal digits of any script write. -/
def decimalNumber (digits : List Char) : Nat :=
  digits.foldl (fun n c => 10 * n + (digitValue? c).getD 0) 0

/-- Whether a number literal has a leading zero and digits alone. -/
def hasLeadingZero (cs : List Char) : Bool :=
  match cs with
  | '0' :: rest => !rest.isEmpty && rest.all isDigit
  | _ => false

/-- The generated spelling of a number literal. -/
def numberLiteral (text : String) : Except CompileError String :=
  let cs := text.toList
  if hasLeadingZero cs then
    if cs.all isOctalDigit then
      let value := toString (octalNumber cs)
      if Number.maxDigits < value.length then .error (.literalTooLong none) else .ok value
    else if Number.maxDigits < cs.length then .error (.literalTooLong (some cs.length))
    else .ok (toString (decimalNumber cs))
  else .ok text

end ConsoleCpp.Target

/-
The lexical rules. A rule looks at the text from some position on, and at the character before that
position, and says how many characters it takes, if it applies. The table lists the rules in the
order in which they are tried; the first that applies wins.
-/
import ConsoleCpp.Text.Blank
import ConsoleCpp.Text.Digit
import ConsoleCpp.Text.Word
import ConsoleCpp.Token

namespace ConsoleCpp.Token

open Text

/-- A lexical rule. `span before text` is the number of characters taken from the front of `text`,
where `before` is the character just before it. A rule without a kind skips what it takes. -/
structure Rule where
  kind : Option Kind
  span : Option Char → List Char → Option Nat

/-! ## Spans -/

/-- The number of characters at the front that satisfy `p`. -/
def run (p : Char → Bool) (cs : List Char) : Nat := (cs.takeWhile p).length

/-- Length of the text up to and including the first `*/`. -/
def untilCommentEnd : List Char → Option Nat
  | [] => none
  | '*' :: '/' :: _ => some 2
  | _ :: rest => (untilCommentEnd rest).map (· + 1)

/-- A `//` comment: everything up to the end of the line. -/
def lineComment : List Char → Option Nat
  | '/' :: '/' :: rest => some (2 + run (· != '\n') rest)
  | _ => none

/-- A closed block comment. -/
def blockComment : List Char → Option Nat
  | '/' :: '*' :: rest => (untilCommentEnd rest).map (· + 2)
  | _ => none

/-- Blanks. -/
def blanks (cs : List Char) : Option Nat :=
  match run isBlank cs with
  | 0 => none
  | n => some n

/-- A bracketed path after `#include`: blanks, then `<`, at least one character other than `>`, then
`>`. -/
def bracketedPath (cs : List Char) : Option Nat :=
  let gap := run isBlank cs
  match cs.drop gap with
  | '<' :: rest =>
    let path := run (· != '>') rest
    match path, rest.drop path with
    | _ + 1, '>' :: _ => some (gap + path + 2)
    | _, _ => none
  | _ => none

/-- A directive that includes a header. -/
def headerDirective : List Char → Option Nat
  | '#' :: 'i' :: 'n' :: 'c' :: 'l' :: 'u' :: 'd' :: 'e' :: rest => (bracketedPath rest).map (· + 8)
  | _ => none

/-- The reserved words. -/
def keywords : List String :=
  ["int", "float", "double", "char", "string", "void", "bool",
   "if", "else", "while", "for", "do", "return", "break", "continue",
   "cout", "cin", "endl",
   "class", "struct", "public", "private", "protected",
   "new", "delete", "true", "false",
   "auto", "const", "static", "namespace", "using"]

/-- A reserved word that stands alone: no word character directly before or after it. -/
def keyword (before : Option Char) (cs : List Char) : Option Nat :=
  if before.any isWord then none
  else
    let word := cs.takeWhile isWord
    if keywords.contains (String.ofList word) then some word.length else none

/-- A letter or underscore and the word characters after it. -/
def identifier : List Char → Option Nat
  | c :: rest => if isNameStart c then some (1 + run isWord rest) else none
  | [] => none

/-- Length of an exponent: `e` or `E`, an optional sign, and at least one digit. -/
def exponent : List Char → Nat
  | mark :: rest =>
    if mark == 'e' || mark == 'E' then
      let sign := match rest with
        | '+' :: _ => 1
        | '-' :: _ => 1
        | _ => 0
      match run isDigit (rest.drop sign) with
      | 0 => 0
      | digits => 1 + sign + digits
    else 0
  | [] => 0

/-- Digits, an optional point, more digits, an optional exponent. -/
def number (cs : List Char) : Option Nat :=
  match run isDigit cs with
  | 0 => none
  | whole =>
    let afterWhole := cs.drop whole
    let point := match afterWhole with
      | '.' :: _ => 1
      | _ => 0
    let fraction := run isDigit (afterWhole.drop point)
    some (whole + point + fraction + exponent (afterWhole.drop (point + fraction)))

/-- One character or one backslash pair between single quotes. -/
def charLiteral : List Char → Option Nat
  | '\'' :: '\\' :: c :: '\'' :: _ => if c == '\n' then none else some 4
  | '\'' :: c :: '\'' :: _ => if c == '\'' || c == '\\' then none else some 3
  | _ => none

/-- Length of the rest of a string literal, with its closing quote. -/
def stringRest : List Char → Option Nat
  | '"' :: _ => some 1
  | '\\' :: c :: rest => if c == '\n' then none else (stringRest rest).map (· + 2)
  | c :: rest => if c == '\n' || c == '\\' then none else (stringRest rest).map (· + 1)
  | [] => none

/-- A string literal on one line; a backslash takes the next character with it. -/
def stringLiteral : List Char → Option Nat
  | '"' :: rest => (stringRest rest).map (· + 1)
  | _ => none

/-- The first of some fixed texts that stands at the front. -/
def oneOf (texts : List String) (cs : List Char) : Option Nat :=
  (texts.find? fun text => text.toList.isPrefixOf cs).map String.length

/-! ## The table -/

/-- The rules in the order in which they are tried. -/
def rules : List Rule := [
  ⟨none, fun _ => lineComment⟩,
  ⟨none, fun _ => blockComment⟩,
  ⟨some .header, fun _ => headerDirective⟩,
  ⟨some .keyword, keyword⟩,
  ⟨some .identifier, fun _ => identifier⟩,
  ⟨some .number, fun _ => number⟩,
  ⟨some .char, fun _ => charLiteral⟩,
  ⟨some .string, fun _ => stringLiteral⟩,
  ⟨some .stream, fun _ => oneOf ["<<", ">>"]⟩,
  ⟨some .operator, fun _ => oneOf ["++", "--"]⟩,
  ⟨some .operator, fun _ => oneOf ["==", "!=", "<=", ">=", "&&", "||", "->",
    "+=", "-=", "*=", "/=", "%=", "."]⟩,
  ⟨some .operator, fun _ => oneOf ["+", "-", "*", "/", "=", "<", ">", "!", "%", "&", "|", "~",
    "^"]⟩,
  ⟨some .scope, fun _ => oneOf ["::"]⟩,
  ⟨some .delimiter, fun _ => oneOf ["[", "]", "(", ")", "\x7b", "\x7d", ";", ",", ":"]⟩,
  ⟨none, fun _ => blanks⟩]

/-- The first rule of a table that applies: its kind and the number of characters it takes. -/
def firstMatch (table : List Rule) (before : Option Char) (cs : List Char) :
    Option (Option Kind × Nat) :=
  table.findSome? fun rule => (rule.span before cs).map (rule.kind, ·)

end ConsoleCpp.Token

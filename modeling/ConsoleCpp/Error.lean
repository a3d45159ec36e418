/-
What can make a source text unacceptable: each cause is a constructor, and the wording of its
diagnostic stands in one place.
-/
import ConsoleCpp.Number.Limit
import ConsoleCpp.Source.Expr
import ConsoleCpp.Token.Lexer

namespace ConsoleCpp

/-- Where a nesting limit was passed. -/
inductive NestingSite where
  | token (t : Token)
  | expression
  | blocks
deriving DecidableEq, Repr, Inhabited

inductive CompileError where
  /-- No lexical rule applies. -/
  | stray (place : Token.Stray)
  /-- A token of this kind, with this text if one is given, should stand here. -/
  | expected (kind : Token.Kind) (text : Option String) (found : Option Token)
  /-- The input ends where a statement should start. -/
  | statementMissing
  /-- The input ends where an operand should start. -/
  | operandMissing
  /-- A keyword that starts no statement. -/
  | unsupportedKeyword (found : Token)
  /-- A token that starts no operand. -/
  | notAnOperand (found : Token)
  /-- Input is read into something that is no place. -/
  | notReadable (target : Expr) (found : Option Token)
  /-- Neither a printed part nor the end of an output statement. -/
  | notPrintable (found : Option Token)
  /-- The value of an operation is assigned to. -/
  | assignedOperation (found : Token)
  /-- Assignment to, or a step of, something that is no place. -/
  | notAssignable (found : Token)
  /-- A step before something that is no place. -/
  | notSteppable (found : Token)
  /-- An expression statement, named by its first token, with what is wrong in it. -/
  | invalidStatement (first : Token) (cause : CompileError)
  | tooDeep (limit : Int) (site : NestingSite)
  | undeclared (name : String)
  /-- A string is assigned to a number variable of the type `declared`. -/
  | stringAssigned (declared name : String)
  /-- A number with a point or exponent is assigned to an integer variable. -/
  | decimalAssigned (name : String)
  /-- A number is assigned to a string variable. -/
  | numberAssigned (name : String)
  /-- An integer literal has more digits than are converted; the count is given if the digits were
  not even read. -/
  | literalTooLong (digits : Option Nat)
  /-- A store to something that is no place; the parser lets none through. -/
  | noPlace (target : Expr)
deriving Inhabited

namespace CompileError

/-- How a diagnostic names the token that should stand here. -/
def expectedLabel (kind : Token.Kind) : Option String → String
  | none => kind.label
  | some text => kind.label ++ " '" ++ text ++ "'"

/-- What should have stood at the place of the error, if the error says so. -/
def wanted : CompileError → Option String
  | .expected kind text _ => some (expectedLabel kind text)
  | .statementMissing | .unsupportedKeyword _ => some "statement"
  | .operandMissing | .notAnOperand _ => some "expression"
  | .notReadable _ _ | .assignedOperation _ | .notAssignable _ | .notSteppable _ =>
    some "assignable expression"
  | .notPrintable _ => some (expectedLabel .stream (some "<<"))
  | _ => none

/-- The token at the place of the error, if there is one. -/
def found : CompileError → Option Token
  | .expected _ _ found | .notReadable _ found | .notPrintable found => found
  | .unsupportedKeyword t | .notAnOperand t | .assignedOperation t | .notAssignable t
  | .notSteppable t | .invalidStatement t _ | .tooDeep _ (.token t) => some t
  | _ => none

/-- Where a nesting limit was passed, in words. -/
def siteText : NestingSite → String
  | .token t => "at " ++ Token.describe (some t)
  | .expression => "in an expression"
  | .blocks => "of blocks"

/-- The text of the diagnostic. -/
def message : CompileError → String
  | .stray place =>
    "Syntax error at position " ++ toString place.offset ++ ": '" ++ place.character.toString ++ "'"
  | .expected kind text found =>
    "Expected " ++ expectedLabel kind text ++ ", got " ++ Token.describe found
  | .statementMissing => "Unexpected end of input, expected a statement"
  | .operandMissing => "Unexpected end of input in expression"
  | .unsupportedKeyword t => "Unsupported keyword: " ++ t.text
  | .notAnOperand t => "Unexpected token in expression: " ++ t.text
  | .notReadable target _ => "Cannot read input into " ++ target.render
  | .notPrintable found => "Expected '<<' or 'endl' in cout, got " ++ Token.describe found
  | .assignedOperation _ => "Invalid left-hand side for assignment"
  | .notAssignable t => "Invalid left-hand side for " ++ t.text
  | .notSteppable t => "Invalid operand for " ++ t.text
  | .invalidStatement t _ => "Invalid statement: " ++ t.text
  | .tooDeep limit site => "Nesting deeper than " ++ toString limit ++ " levels " ++ siteText site
  | .undeclared name => "Undeclared variable '" ++ name ++ "'"
  | .stringAssigned declared name =>
    "Type error: cannot assign string to " ++ declared ++ " '" ++ name ++ "'"
  | .decimalAssigned name => "Type error: cannot assign float to int '" ++ name ++ "'"
  | .numberAssigned name => "Type error: cannot assign number to string '" ++ name ++ "'"
  | .literalTooLong digits => Number.limitMessage digits
  | .noPlace target => "Cannot store to " ++ target.render

/-- Whether an error is reported as one of the source text. An integer literal that is not converted
stops the work on the text instead. -/
def isDiagnostic : CompileError → Bool
  | .literalTooLong _ => false
  | _ => true

/-- An error inside the expression statement that starts with `first`. A passed nesting limit and a
mismatch of types are reported as they are. -/
def inStatement (first : Token) : CompileError → CompileError
  | .tooDeep limit site => .tooDeep limit site
  | .undeclared name => .undeclared name
  | .stringAssigned declared name => .stringAssigned declared name
  | .decimalAssigned name => .decimalAssigned name
  | .numberAssigned name => .numberAssigned name
  | cause => .invalidStatement first cause

end CompileError

end ConsoleCpp

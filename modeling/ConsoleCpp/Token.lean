/-
Tokens of the source language: what kinds there are, and a token as a piece of the source text with
the position where it starts.
-/

namespace ConsoleCpp

namespace Token

/-- What a token is. Comments and blanks are skipped and have no kind. -/
inductive Kind where
  | header
  | keyword
  | identifier
  | number
  | char
  | string
  | stream
  | operator
  | scope
  | delimiter
deriving DecidableEq, Repr, Inhabited

/-- The name of a kind in diagnostics. -/
def Kind.label : Kind → String
  | .header => "INCLUDE"
  | .keyword => "KEYWORD"
  | .identifier => "IDENTIFIER"
  | .number => "NUMBER"
  | .char => "CHAR"
  | .string => "STRING"
  | .stream => "STREAM"
  | .operator => "OPERATOR"
  | .scope => "SCOPE"
  | .delimiter => "DELIMITER"

end Token

/-- A piece of source text. `offset` counts the characters before it. -/
structure Token where
  kind : Token.Kind
  text : String
  offset : Nat
deriving DecidableEq, Repr, Inhabited

namespace Token

/-- Whether the token has this kind and this text. -/
def isA (t : Token) (kind : Kind) (text : String) : Bool :=
  t.kind == kind && t.text == text

/-- How a diagnostic names what it met: a token by kind and text, or the end of the input. -/
def describe : Option Token → String
  | none => "end of input"
  | some t => t.kind.label ++ " '" ++ t.text ++ "'"

end Token

end ConsoleCpp

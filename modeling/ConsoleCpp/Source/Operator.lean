/-
Operators of the source language, each family a type of its own, with the spelling of every operator
and the precedence of those that join two operands.
-/

namespace ConsoleCpp

/-- Steps a variable up or down by one. -/
inductive StepOp where
  | increment
  | decrement
deriving DecidableEq, Repr, Inhabited

/-- Operators that make a new value of their operand. -/
inductive SignOp where
  | plus
  | minus
  | not
  | complement
deriving DecidableEq, Repr, Inhabited

/-- Operators that stand before their operand. -/
inductive UnaryOp where
  | step (op : StepOp)
  | sign (op : SignOp)
deriving DecidableEq, Repr, Inhabited

/-- Operators that join two values. -/
inductive BinaryOp where
  | or
  | and
  | bitOr
  | bitXor
  | bitAnd
  | eq
  | ne
  | lt
  | le
  | gt
  | ge
  | shiftLeft
  | shiftRight
  | add
  | sub
  | mul
  | div
  | mod
deriving DecidableEq, Repr, Inhabited

/-- The five operations of arithmetic, which a compound assignment combines with its store. -/
inductive ArithOp where
  | add
  | sub
  | mul
  | div
  | mod
deriving DecidableEq, Repr, Inhabited

/-- Plain assignment or a compound one. -/
inductive AssignOp where
  | set
  | update (op : ArithOp)
deriving DecidableEq, Repr, Inhabited

/-- The two ways to write access to a member. -/
inductive MemberOp where
  | dot
  | arrow
deriving DecidableEq, Repr, Inhabited

namespace StepOp

def text : StepOp → String
  | .increment => "++"
  | .decrement => "--"

def all : List StepOp := [.increment, .decrement]

def ofText? (s : String) : Option StepOp := all.find? fun op => op.text == s

/-- The arithmetic of a step. -/
def arith : StepOp → ArithOp
  | .increment => .add
  | .decrement => .sub

end StepOp

namespace SignOp

def text : SignOp → String
  | .plus => "+"
  | .minus => "-"
  | .not => "!"
  | .complement => "~"

def all : List SignOp := [.plus, .minus, .not, .complement]

end SignOp

namespace UnaryOp

def text : UnaryOp → String
  | .step op => op.text
  | .sign op => op.text

def all : List UnaryOp := StepOp.all.map .step ++ SignOp.all.map .sign

def ofText? (s : String) : Option UnaryOp := all.find? fun op => op.text == s

end UnaryOp

namespace BinaryOp

def text : BinaryOp → String
  | .or => "||"
  | .and => "&&"
  | .bitOr => "|"
  | .bitXor => "^"
  | .bitAnd => "&"
  | .eq => "=="
  | .ne => "!="
  | .lt => "<"
  | .le => "<="
  | .gt => ">"
  | .ge => ">="
  | .shiftLeft => "<<"
  | .shiftRight => ">>"
  | .add => "+"
  | .sub => "-"
  | .mul => "*"
  | .div => "/"
  | .mod => "%"

/-- A higher number binds tighter. -/
def precedence : BinaryOp → Nat
  | .or => 1
  | .and => 2
  | .bitOr => 3
  | .bitXor => 4
  | .bitAnd => 5
  | .eq | .ne => 6
  | .lt | .le | .gt | .ge => 7
  | .shiftLeft | .shiftRight => 8
  | .add | .sub => 9
  | .mul | .div | .mod => 10

def all : List BinaryOp :=
  [.or, .and, .bitOr, .bitXor, .bitAnd, .eq, .ne, .lt, .le, .gt, .ge, .shiftLeft, .shiftRight,
   .add, .sub, .mul, .div, .mod]

def ofText? (s : String) : Option BinaryOp := all.find? fun op => op.text == s

/-- Whether the operator is one of the two that also move data through streams. -/
def isShift : BinaryOp → Bool
  | .shiftLeft | .shiftRight => true
  | _ => false

end BinaryOp

namespace ArithOp

def text : ArithOp → String
  | .add => "+"
  | .sub => "-"
  | .mul => "*"
  | .div => "/"
  | .mod => "%"

def all : List ArithOp := [.add, .sub, .mul, .div, .mod]

def ofText? (s : String) : Option ArithOp := all.find? fun op => op.text == s

/-- The same operation between two values. -/
def toBinary : ArithOp → BinaryOp
  | .add => .add
  | .sub => .sub
  | .mul => .mul
  | .div => .div
  | .mod => .mod

end ArithOp

namespace AssignOp

def text : AssignOp → String
  | .set => "="
  | .update op => op.text ++ "="

def all : List AssignOp := .set :: ArithOp.all.map .update

def ofText? (s : String) : Option AssignOp := all.find? fun op => op.text == s

end AssignOp

namespace MemberOp

def text : MemberOp → String
  | .dot => "."
  | .arrow => "->"

def all : List MemberOp := [.dot, .arrow]

def ofText? (s : String) : Option MemberOp := all.find? fun op => op.text == s

end MemberOp

end ConsoleCpp

/-
Expressions of the source language, their fully parenthesised text, and their equality test.
Literals keep the text they were written with.
-/
import ConsoleCpp.Source.Operator

namespace ConsoleCpp

inductive Expr where
  | number (text : String)
  /-- A string literal with its quotes. `isEndl` marks the line break that `endl` stands for. -/
  | string (text : String) (isEndl : Bool)
  | char (text : String)
  | bool (value : Bool)
  | name (id : String)
  | unary (op : UnaryOp) (operand : Expr)
  | stepAfter (op : StepOp) (operand : Expr)
  | binary (op : BinaryOp) (left right : Expr)
  | assign (op : AssignOp) (target value : Expr)
  | call (callee : Expr) (args : List Expr)
  | member (op : MemberOp) (target : Expr) (field : String)
  | scope (left right : Expr)
  | index (target key : Expr)
  | list (element : Expr)
  | newObject (typeName : String)
  | newArray (typeName : String) (size : Expr)
deriving Inhabited

namespace Expr

/-- The line break of `endl`. -/
def endl : Expr := .string "\"\\n\"" true

/-- Whether the expression names a place that can be stored to: a variable, element or member. -/
def isAssignable : Expr → Bool
  | .name _ | .index _ _ | .member _ _ _ => true
  | _ => false

/-- Whether a number literal is written with a point or an exponent. -/
def isDecimal (text : String) : Bool :=
  text.toList.any fun c => c == '.' || c == 'e' || c == 'E'

/-! ## Text -/

mutual

/-- The source text with every operation in parentheses. -/
def render : Expr → String
  | .number text => text
  | .string text _ => text
  | .char text => text
  | .bool value => if value then "true" else "false"
  | .name id => id
  | .unary op operand => "(" ++ op.text ++ render operand ++ ")"
  | .stepAfter op operand => "(" ++ render operand ++ op.text ++ ")"
  | .binary op left right => "(" ++ render left ++ " " ++ op.text ++ " " ++ render right ++ ")"
  | .assign op target value => "(" ++ render target ++ " " ++ op.text ++ " " ++ render value ++ ")"
  | .call callee args => render callee ++ "(" ++ String.intercalate ", " (renderAll args) ++ ")"
  | .member op target field => "(" ++ render target ++ op.text ++ field ++ ")"
  | .scope left right => "(" ++ render left ++ "::" ++ render right ++ ")"
  | .index target key => render target ++ "[" ++ render key ++ "]"
  | .list element => "[" ++ render element ++ "]"
  | .newObject typeName => "new " ++ typeName ++ "()"
  | .newArray typeName size => "new " ++ typeName ++ "[" ++ render size ++ "]"

def renderAll : List Expr → List String
  | [] => []
  | e :: rest => render e :: renderAll rest

end

/-! ## Equality -/

mutual

/-- Whether two expressions are the same tree. -/
def beq : Expr → Expr → Bool
  | .number a, .number b => a == b
  | .string a m, .string b n => a == b && m == n
  | .char a, .char b => a == b
  | .bool a, .bool b => a == b
  | .name a, .name b => a == b
  | .unary o a, .unary p b => o == p && beq a b
  | .stepAfter o a, .stepAfter p b => o == p && beq a b
  | .binary o a c, .binary p b d => o == p && beq a b && beq c d
  | .assign o a c, .assign p b d => o == p && beq a b && beq c d
  | .call a xs, .call b ys => beq a b && beqAll xs ys
  | .member o a m, .member p b n => o == p && beq a b && m == n
  | .scope a c, .scope b d => beq a b && beq c d
  | .index a c, .index b d => beq a b && beq c d
  | .list a, .list b => beq a b
  | .newObject a, .newObject b => a == b
  | .newArray a c, .newArray b d => a == b && beq c d
  | _, _ => false

def beqAll : List Expr → List Expr → Bool
  | [], [] => true
  | a :: as, b :: bs => beq a b && beqAll as bs
  | _, _ => false

end

instance : BEq Expr := ⟨beq⟩

end Expr

end ConsoleCpp

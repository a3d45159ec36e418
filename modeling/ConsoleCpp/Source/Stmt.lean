/-
Statements of the source language and their equality test.
-/
import ConsoleCpp.Source.Expr

namespace ConsoleCpp

/-- A parameter of a function, with its type as it was written. -/
structure Parameter where
  type : String
  name : String
deriving DecidableEq, Repr, Inhabited

inductive Stmt where
  | header (path : String)
  | usingSpace (space : String)
  | declaration (type name : String) (initializer : Option Expr)
  /-- A function announced without a body. -/
  | prototype (returnType name : String) (params : List Parameter)
  | function (returnType name : String) (params : List Parameter) (body : List Stmt)
  | block (statements : List Stmt)
  | input (targets : List Expr)
  | print (parts : List Expr)
  | ifElse (condition : Expr) (thenStmt : Stmt) (elseStmt : Option Stmt)
  | whileLoop (condition : Expr) (body : Stmt)
  | doLoop (condition : Expr) (body : Stmt)
  | forLoop (init : Option Stmt) (condition : Expr) (update : Option Expr) (body : Stmt)
  | ret (value : Option Expr)
  | breakLoop
  | continueLoop
  | expression (expr : Expr)
deriving Inhabited

namespace Stmt

/-! ## Equality -/

mutual

/-- Whether two statements are the same tree. -/
def beq : Stmt → Stmt → Bool
  | .header a, .header b => a == b
  | .usingSpace a, .usingSpace b => a == b
  | .declaration s a x, .declaration t b y => s == t && a == b && x == y
  | .prototype s a xs, .prototype t b ys => s == t && a == b && xs == ys
  | .function s a xs c, .function t b ys d => s == t && a == b && xs == ys && beqAll c d
  | .block a, .block b => beqAll a b
  | .input a, .input b => a == b
  | .print a, .print b => a == b
  | .ifElse x a c, .ifElse y b d => x == y && beq a b && beqOption c d
  | .whileLoop x a, .whileLoop y b => x == y && beq a b
  | .doLoop x a, .doLoop y b => x == y && beq a b
  | .forLoop a x u c, .forLoop b y v d => beqOption a b && x == y && u == v && beq c d
  | .ret a, .ret b => a == b
  | .breakLoop, .breakLoop => true
  | .continueLoop, .continueLoop => true
  | .expression a, .expression b => a == b
  | _, _ => false

def beqAll : List Stmt → List Stmt → Bool
  | [], [] => true
  | a :: as, b :: bs => beq a b && beqAll as bs
  | _, _ => false

def beqOption : Option Stmt → Option Stmt → Bool
  | none, none => true
  | some a, some b => beq a b
  | _, _ => false

end

instance : BEq Stmt := ⟨beq⟩

end Stmt

end ConsoleCpp

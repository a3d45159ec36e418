/-
Names that a statement list binds: by declaring them, and by assigning to them. Nothing inside
nested functions counts, for they have variables of their own.
-/
import ConsoleCpp.Source.Walk

namespace ConsoleCpp

/-- The name that a node declares, if it is a declaration, a function or a prototype. -/
def Node.declaredName? : Node → Option String
  | .stmt (.declaration _ name _) => some name
  | .stmt (.prototype _ name _) => some name
  | .stmt (.function _ name _ _) => some name
  | _ => none

/-- The places that a node itself stores to. -/
def Node.storeTargets : Node → List Expr
  | .expr (.assign _ target _) => [target]
  | .expr (.unary (.step _) operand) => [operand]
  | .expr (.stepAfter _ operand) => [operand]
  | .stmt (.input targets) => targets
  | _ => []

/-- The variable that an expression is, if it is one. -/
def Expr.variable? : Expr → Option String
  | .name id => some id
  | _ => none

/-- The names that the statements declare. -/
def declaredNames (statements : List Stmt) : List String :=
  (walk false statements).filterMap Node.declaredName?

/-- The names of the variables that the statements store to. -/
def assignedNames (statements : List Stmt) : List String :=
  (walk false statements).flatMap fun node => node.storeTargets.filterMap Expr.variable?

/-- Whether a text comes before another one or equals it, by the code points of their characters. -/
def textLE : List Char → List Char → Bool
  | [], _ => true
  | _ :: _, [] => false
  | a :: as, b :: bs =>
    if a.toNat < b.toNat then true else if b.toNat < a.toNat then false else textLE as bs

/-- The different names of a list in the order of their characters. -/
def sortedNames (names : List String) : List String :=
  names.eraseDups.mergeSort fun a b => textLE a.toList b.toList

end ConsoleCpp

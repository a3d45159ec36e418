/-
Names that Python statements bind. A name that is bound anywhere in a function, by an assignment,
inside an expression, or by a definition, is a variable of that function, unless the function says
that it belongs to one around it.
-/
import ConsoleCpp.Target.Stmt

namespace ConsoleCpp.Target

namespace Expr

mutual

/-- The names that an expression binds, in the order of its text. -/
def bindings : Expr → List String
  | .bind id value => id :: bindings value
  | .step _ _ id => [id]
  | .sign _ operand => bindings operand
  | .binary _ left right | .misjoined left right => bindings left ++ bindings right
  | .call callee args => bindings callee ++ bindingsAll args
  | .attr owner _ => bindings owner
  | .item owner key => bindings owner ++ bindings key
  | .list element | .adjoined _ element => bindings element
  | .shown value => bindings value
  | .store owner key value => bindings owner ++ bindings key ++ bindings value
  | .update owner key _ value _ => bindings owner ++ bindings key ++ bindings value
  | .storeAttr owner _ value | .updateAttr owner _ _ value _ => bindings owner ++ bindings value
  | .newArray size _ => bindings size
  | .number _ | .text _ | .bool _ | .nothing | .name _ | .input | .newObject _ => []

def bindingsAll : List Expr → List String
  | [] => []
  | e :: rest => bindings e ++ bindingsAll rest

end

end Expr

/-- The names that a store to a place binds. -/
def Place.bindings : Place → List String
  | .name id => [id]
  | .attr owner _ => owner.bindings
  | .item owner key => owner.bindings ++ key.bindings

namespace Stmt

mutual

/-- The names that a statement binds. The body of a definition has names of its own. -/
def bindings : Stmt → List String
  | .assign target value | .augment target _ value => target.bindings ++ value.bindings
  | .eval e => e.bindings
  | .print pieces => pieces.flatMap Expr.bindings
  | .define header _ _ => [header.name]
  | .ifElse condition thenSuite elseSuite _ =>
    condition.bindings ++ bindingsAll thenSuite ++ bindingsAll elseSuite
  | .whileLoop condition body => condition.bindings ++ bindingsAll body
  | .leaveUnless condition => condition.bindings
  | .ret value => value.toList.flatMap Expr.bindings
  | .unimplemented _ | .breakLoop | .continueLoop | .pass => []

def bindingsAll : List Stmt → List String
  | [] => []
  | s :: rest => bindings s ++ bindingsAll rest

end

end Stmt

/-- The variables of a function: its parameters and what its body binds, except what belongs to a
function around it. -/
def localNames (params nonlocals : List String) (body : List Stmt) : List String :=
  (params ++ (Stmt.bindingsAll body).filter fun name => !nonlocals.contains name).eraseDups

end ConsoleCpp.Target

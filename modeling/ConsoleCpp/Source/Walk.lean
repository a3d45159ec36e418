/-
Traversal of source trees. Statements, parameters and expressions are all nodes; `walk` lists the
nodes of a statement list from a stack of nodes still to visit, each before what stands below it. A
function's parameters and body are listed only on request.
-/
import ConsoleCpp.Source.Stmt

namespace ConsoleCpp

/-- A node of a source tree. -/
inductive Node where
  | expr (e : Expr)
  | stmt (s : Stmt)
  | param (p : Parameter)
deriving Inhabited

namespace Expr

/-- The expressions directly below, in the order in which they are written. -/
def children : Expr → List Expr
  | .unary _ operand | .stepAfter _ operand => [operand]
  | .binary _ left right | .scope left right => [left, right]
  | .assign _ target value => [target, value]
  | .call callee args => callee :: args
  | .member _ target _ => [target]
  | .index target key => [target, key]
  | .list element => [element]
  | .newArray _ size => [size]
  | .number _ | .string _ _ | .char _ | .bool _ | .name _ | .newObject _ => []

mutual

/-- The number of nodes of an expression. -/
def nodeCount : Expr → Nat
  | .unary _ operand | .stepAfter _ operand => nodeCount operand + 1
  | .binary _ left right | .scope left right => nodeCount left + nodeCount right + 1
  | .assign _ target value => nodeCount target + nodeCount value + 1
  | .call callee args => nodeCount callee + nodeCountAll args + 1
  | .member _ target _ => nodeCount target + 1
  | .index target key => nodeCount target + nodeCount key + 1
  | .list element => nodeCount element + 1
  | .newArray _ size => nodeCount size + 1
  | .number _ | .string _ _ | .char _ | .bool _ | .name _ | .newObject _ => 1

def nodeCountAll : List Expr → Nat
  | [] => 0
  | e :: rest => nodeCount e + nodeCountAll rest

end

end Expr

namespace Stmt

mutual

/-- The number of nodes of a statement, where the body of a function counts as a block. -/
def nodeCount : Stmt → Nat
  | .header _ | .usingSpace _ | .breakLoop | .continueLoop => 1
  | .declaration _ _ initializer => Expr.nodeCountAll initializer.toList + 1
  | .prototype _ _ params => params.length + 1
  | .function _ _ params body => params.length + nodeCountAll body + 2
  | .block statements => nodeCountAll statements + 1
  | .input targets => Expr.nodeCountAll targets + 1
  | .print parts => Expr.nodeCountAll parts + 1
  | .ifElse condition thenStmt elseStmt =>
    condition.nodeCount + nodeCount thenStmt + nodeCountOption elseStmt + 1
  | .whileLoop condition body | .doLoop condition body => condition.nodeCount + nodeCount body + 1
  | .forLoop init condition update body =>
    nodeCountOption init + condition.nodeCount + Expr.nodeCountAll update.toList + nodeCount body +
      1
  | .ret value => Expr.nodeCountAll value.toList + 1
  | .expression e => e.nodeCount + 1

def nodeCountAll : List Stmt → Nat
  | [] => 0
  | s :: rest => nodeCount s + nodeCountAll rest

def nodeCountOption : Option Stmt → Nat
  | none => 0
  | some s => nodeCount s

end

end Stmt

namespace Node

/-- The nodes directly below, in the order of the fields of the node. A function has its parameters
and its body, as a block, below it. -/
def children : Node → List Node
  | .expr e => e.children.map .expr
  | .param _ => []
  | .stmt s =>
    match s with
    | .header _ | .usingSpace _ | .breakLoop | .continueLoop => []
    | .declaration _ _ initializer => initializer.toList.map .expr
    | .prototype _ _ params => params.map .param
    | .function _ _ params body => params.map .param ++ [.stmt (.block body)]
    | .block statements => statements.map .stmt
    | .input targets => targets.map .expr
    | .print parts => parts.map .expr
    | .ifElse condition thenStmt elseStmt =>
      .expr condition :: .stmt thenStmt :: elseStmt.toList.map .stmt
    | .whileLoop condition body | .doLoop condition body => [.expr condition, .stmt body]
    | .forLoop init condition update body =>
      init.toList.map .stmt ++ .expr condition :: (update.toList.map .expr ++ [.stmt body])
    | .ret value => value.toList.map .expr
    | .expression e => [.expr e]

/-- The nodes below that a traversal visits: none below a function unless it enters functions. -/
def visited (intoFunctions : Bool) : Node → List Node
  | .stmt (.function returnType name params body) =>
    if intoFunctions then (Node.stmt (.function returnType name params body)).children else []
  | node => node.children

/-- The number of nodes from this one down. -/
def count : Node → Nat
  | .expr e => e.nodeCount
  | .stmt s => s.nodeCount
  | .param _ => 1

/-- The number of nodes of all the trees of a list. -/
def countAll : List Node → Nat
  | [] => 0
  | node :: rest => node.count + countAll rest

theorem countAll_append (xs ys : List Node) : countAll (xs ++ ys) = countAll xs + countAll ys := by
  induction xs with
  | nil => simp [countAll]
  | cons x xs ih => simp [countAll, ih, Nat.add_assoc]

theorem countAll_map_expr (es : List Expr) : countAll (es.map .expr) = Expr.nodeCountAll es := by
  induction es with
  | nil => rfl
  | cons e es ih => simp [countAll, count, Expr.nodeCountAll, ih]

theorem countAll_map_stmt (ss : List Stmt) : countAll (ss.map .stmt) = Stmt.nodeCountAll ss := by
  induction ss with
  | nil => rfl
  | cons s ss ih => simp [countAll, count, Stmt.nodeCountAll, ih]

theorem countAll_map_param (ps : List Parameter) : countAll (ps.map .param) = ps.length := by
  induction ps with
  | nil => rfl
  | cons p ps ih => simp [countAll, count, ih]; omega

theorem countAll_option (s : Option Stmt) :
    countAll (s.toList.map .stmt) = Stmt.nodeCountOption s := by
  cases s <;> simp [countAll, count, Stmt.nodeCountOption]

/-- A node counts one more than what stands below it. -/
theorem count_eq (node : Node) : node.count = countAll node.children + 1 := by
  cases node with
  | param p => rfl
  | expr e =>
    cases e <;>
      simp [count, children, Expr.children, Expr.nodeCount, countAll, countAll_map_expr]
  | stmt s =>
    cases s with
    | ifElse c t e => simp [count, children, Stmt.nodeCount, countAll, countAll_option]; omega
    | forLoop i c u b =>
      simp only [count, children, Stmt.nodeCount, countAll, countAll_append, countAll_option,
        countAll_map_expr]
      omega
    | function r n ps b =>
      simp [count, children, Stmt.nodeCount, countAll, countAll_append, countAll_map_param]; omega
    | _ =>
      simp [count, children, Stmt.nodeCount, countAll, countAll_map_expr, countAll_map_stmt,
        countAll_map_param]

theorem countAll_visited_lt (intoFunctions : Bool) (node : Node) :
    countAll (node.visited intoFunctions) < node.count := by
  rw [count_eq]
  unfold visited
  split
  · split <;> simp [countAll]
  · omega

/-- Every node that can be reached from a stack of nodes, each before the nodes below it. -/
def walkFrom (intoFunctions : Bool) : List Node → List Node
  | [] => []
  | node :: stack => node :: walkFrom intoFunctions (node.visited intoFunctions ++ stack)
termination_by stack => countAll stack
decreasing_by
  rw [countAll_append]
  have := countAll_visited_lt intoFunctions node
  simp only [countAll]
  omega

end Node

/-- The nodes of a statement list, each before the nodes below it. -/
def walk (intoFunctions : Bool) (statements : List Stmt) : List Node :=
  Node.walkFrom intoFunctions (statements.map .stmt)

end ConsoleCpp

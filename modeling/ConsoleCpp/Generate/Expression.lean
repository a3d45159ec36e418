/-
From source expressions to generated ones. The nesting of an expression is limited, so that the
brackets of its spelling stay within what Python takes.
-/
import ConsoleCpp.Target.Name
import ConsoleCpp.Target.Stmt

namespace ConsoleCpp.Generate

open Target (safeName)

/-- The generated names of the variables that the loops around a place declare, innermost loop
first. A loop that declares none has an empty list. -/
abbrev Renames := List (List (String × String))

/-- The generated name of a source name: that of the innermost loop that declares it, otherwise the
plain one. -/
def bind (renames : Renames) (name : String) : String :=
  (renames.findSome? (·.lookup name)).getD (safeName name)

/-- The deepest nesting of expressions that is generated. -/
def maxExpressionDepth : Nat := 150

/-- One level further into an expression that has `depth` levels around it. -/
def deeper (depth : Nat) : Except CompileError Nat :=
  if maxExpressionDepth < depth + 1 then .error (.tooDeep maxExpressionDepth .expression)
  else .ok (depth + 1)

mutual

/-- The generated form of an expression with `depth` levels around it. -/
def expr (renames : Renames) (depth : Nat) : Expr → Except CompileError Target.Expr
  | .number text => do
    let _ ← deeper depth
    return .number (← Target.numberLiteral text)
  | .string text _ => do
    let _ ← deeper depth
    return .text (Target.literal text)
  | .char text => do
    let _ ← deeper depth
    return .text (Target.literal text)
  | .bool value => do
    let _ ← deeper depth
    return .bool value
  | .name id => do
    let _ ← deeper depth
    return .name (bind renames id)
  | .unary (.step op) operand => do
    let depth ← deeper depth
    step renames depth op false operand
  | .unary (.sign op) operand => do
    let depth ← deeper depth
    return .sign op (← expr renames depth operand)
  | .stepAfter op operand => do
    let depth ← deeper depth
    step renames depth op true operand
  | .binary op left right => do
    let depth ← deeper depth
    return .binary op (← expr renames depth left) (← expr renames depth right)
  | .assign op target value => do
    let depth ← deeper depth
    let value ← expr renames depth value
    store renames depth op value target
  | .call callee args => do
    let depth ← deeper depth
    return .call (← expr renames depth callee) (← exprs renames depth args)
  | .member _ target field => do
    let depth ← deeper depth
    return .dot (← expr renames depth target) (safeName field)
  | .scope (.name id) right => do
    let depth ← deeper depth
    if id == "std" then expr renames depth right
    else
      let _ ← deeper depth
      return .under (.name (bind renames id)) (← expr renames depth right)
  | .scope left right => do
    let depth ← deeper depth
    return .under (← expr renames depth left) (← expr renames depth right)
  | .index target key => do
    let depth ← deeper depth
    return .item (← expr renames depth target) (← expr renames depth key)
  | .list element => do
    let depth ← deeper depth
    return .list (← expr renames depth element)
  | .newObject typeName => do
    let _ ← deeper depth
    return .newObject typeName
  | .newArray typeName size => do
    let depth ← deeper depth
    return .newArray (← expr renames depth size) typeName

def exprs (renames : Renames) (depth : Nat) : List Expr → Except CompileError (List Target.Expr)
  | [] => .ok []
  | e :: rest => do return (← expr renames depth e) :: (← exprs renames depth rest)

/-- A step of a place, as a value. -/
def step (renames : Renames) (depth : Nat) (op : StepOp) (keepsOld : Bool) :
    Expr → Except CompileError Target.Expr
  | .name id => .ok (.step op keepsOld (bind renames id))
  | .index target key => do
    return .update (← expr renames depth target) (← expr renames depth key) op.arith (.number "1")
      (some keepsOld)
  | .member _ target field => do
    return .updateAttr (← expr renames depth target) (safeName field) op.arith (.number "1")
      (some keepsOld)
  | e => .error (.noPlace e)

/-- An assignment of a value to a place, as a value. -/
def store (renames : Renames) (depth : Nat) (op : AssignOp) (value : Target.Expr) :
    Expr → Except CompileError Target.Expr
  | .name id =>
    let id := bind renames id
    match op with
    | .set => .ok (.bind id value)
    | .update op => .ok (.bind id (.binary op.toBinary (.name id) value))
  | .index target key => do
    let owner ← expr renames depth target
    let key ← expr renames depth key
    match op with
    | .set => return .store owner key value
    | .update op => return .update owner key op value none
  | .member _ target field => do
    let owner ← expr renames depth target
    match op with
    | .set => return .storeAttr owner (safeName field) value
    | .update op => return .updateAttr owner (safeName field) op value none
  | e => .error (.noPlace e)

end

/-- A place that a statement stores to. -/
def place (renames : Renames) : Expr → Except CompileError Target.Place
  | .name id => .ok (.name (bind renames id))
  | .index target key => do return .item (← expr renames 1 target) (← expr renames 1 key)
  | .member _ target field => do return .attr (← expr renames 1 target) (safeName field)
  | e => .error (.noPlace e)

end ConsoleCpp.Generate

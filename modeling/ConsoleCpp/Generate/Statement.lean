/-
From source statements to generated ones, which know no block scope, so a variable that a `for` loop
declares gets a name of its own for the extent of the loop, and a function says which of the
variables it stores to belong to the functions around it.
-/
import ConsoleCpp.Generate.Expression
import ConsoleCpp.Source.Names
import ConsoleCpp.Source.Symbols

namespace ConsoleCpp.Generate

open Target (safeName)

/-- What runs at the end of each round of a loop, also when the round is cut short. -/
inductive RoundEnd where
  | nothing
  /-- The update of a `for` loop. -/
  | update (e : Expr)
  /-- The test of a `do` loop. -/
  | leaveUnless (condition : Target.Expr)
deriving Inhabited

/-- What surrounds a statement. -/
structure Context where
  /-- Levels of indentation. -/
  indent : Nat
  /-- The names bound by each function around, innermost first. -/
  scopes : List (List String)
  renames : Renames
  roundEnd : RoundEnd
deriving Inhabited

/-- The deepest indentation of a suite that is generated. -/
def maxIndent : Nat := 90

/-- Generated statements, and the number of loops that have declared a variable so far. -/
abbrev Generated := Except CompileError (List Target.Stmt × Nat)

/-! ## Statements without statements inside -/

/-- The value of a declaration without initializer. -/
def defaultOf (typeName : String) : Target.Expr :=
  match typeName with
  | "int" => .number "0"
  | "float" | "double" => .number "0.0"
  | "char" | "string" => .text "\"\""
  | "bool" => .bool false
  | _ => .nothing

/-- Whether a type is written with a pointer, reference or array mark at its end. -/
def isMarked (type : String) : Bool :=
  match type.toList.reverse with
  | '*' :: _ | '&' :: _ | ']' :: '[' :: _ => true
  | _ => false

/-- The value that a variable of this type starts out with. -/
def defaultValue (type : String) : Target.Expr :=
  if isMarked type then .nothing else ((typeWords type).getLast?.map defaultOf).getD .nothing

/-- Whether a printed part is a line break, which takes no blank next to it. -/
def isLineBreak : Expr → Bool
  | .string _ isEndl => isEndl
  | .scope _ right => isLineBreak right
  | _ => false

/-- The text of a printed part. A literal is its own text. -/
def shown (renames : Renames) (part : Expr) : Except CompileError Target.Expr := do
  let value ← expr renames 0 part
  match part with
  | .string _ _ => return value
  | _ => return .shown value

/-- The texts of printed parts, with a blank between neighbours neither of which is a line break.
`previous` is the part before. -/
def pieces (renames : Renames) (previous : Option Expr) :
    List Expr → Except CompileError (List Target.Expr)
  | [] => .ok []
  | part :: rest => do
    let piece ← shown renames part
    let others ← pieces renames (some part) rest
    if previous.all isLineBreak || isLineBreak part then return piece :: others
    else return .text "\" \"" :: piece :: others

/-- An expression in the place of a statement. -/
def expressionStatement (renames : Renames) (e : Expr) : Except CompileError Target.Stmt :=
  match e with
  | .assign op target value => do
    let place ← place renames target
    let result ← expr renames 0 value
    match op, target with
    | .set, _ => return .assign place result
    | .update .div, .name _ => return .assign place (.binary .div place.expr result)
    | .update .mod, .name _ => return .assign place (.binary .mod place.expr result)
    | .update .div, _ | .update .mod, _ => return .eval (← expr renames 0 e)
    | .update op, _ => return .augment place op result
  | .unary (.step op) operand | .stepAfter op operand => do
    return .augment (← place renames operand) op.arith (.number "1")
  | _ => do return .eval (← expr renames 0 e)

/-- Reads input words into the targets, in order. -/
def inputs (renames : Renames) : List Expr → Except CompileError (List Target.Stmt)
  | [] => .ok []
  | target :: rest => do
    return .assign (← place renames target) .input :: (← inputs renames rest)

/-- What runs at the end of a round, in the context where the round ends. -/
def roundEndStatements (renames : Renames) : RoundEnd → Except CompileError (List Target.Stmt)
  | .nothing => .ok []
  | .update e => do return [← expressionStatement renames e]
  | .leaveUnless condition => .ok [.leaveUnless condition]

/-- The head of the definition of a function. The parameters of the main function may be left out,
for the program calls it without arguments. -/
def header (name : String) (params : List Parameter) : Target.Header :=
  ⟨safeName name, params.map fun p => safeName p.name, name == "main"⟩

/-- The definition that stands for a function announced and not yet defined. -/
def stub (name : String) (params : List Parameter) : Target.Stmt :=
  .define (header name params) [] [.unimplemented name]

/-- The names that a function stores to and that belong to a function around it. -/
def nonlocals (scopes : List (List String)) (params : List Parameter) (body : List Stmt) :
    List String :=
  let bound := params.map Parameter.name ++ declaredNames body
  sortedNames ((assignedNames body).filter fun name =>
    !bound.contains name && scopes.any (·.contains name))

/-! ## Suites -/

/-- One level further in, unless that is too deep. -/
def Context.indented (ctx : Context) : Except CompileError Context :=
  if maxIndent < ctx.indent + 1 then .error (.tooDeep maxIndent .blocks)
  else .ok { ctx with indent := ctx.indent + 1 }

/-- A suite with what `generate` makes of the indented context, and the end of a round after it. -/
def suite (ctx : Context) (count : Nat) (ending : RoundEnd)
    (generate : Context → Nat → Generated) : Generated := do
  let ctx ← ctx.indented
  let (body, count) ← generate ctx count
  let whole := body ++ (← roundEndStatements ctx.renames ending)
  return (if whole.isEmpty then [.pass] else whole, count)

/-- The definition of a function. -/
def function (ctx : Context) (count : Nat) (name : String) (params : List Parameter)
    (body : List Stmt) (generate : Context → Nat → Generated) : Generated := do
  let bound := params.map Parameter.name ++ declaredNames body
  let outer := (nonlocals ctx.scopes params body).map (bind ctx.renames)
  let inner := { ctx with scopes := bound :: ctx.scopes, roundEnd := .nothing }
  let (suite, count) ← suite inner count .nothing generate
  return ([.define (header name params) outer suite], count)

/-- A loop with what `generate` makes of the context of its body. -/
def loop (ctx : Context) (count : Nat) (condition : Target.Expr) (ending : RoundEnd)
    (generate : Context → Nat → Generated) : Generated := do
  let (body, count) ← suite { ctx with roundEnd := ending } count ending generate
  return ([.whileLoop condition body], count)

/-! ## Statements -/

/-- Statements come in three groups: prototypes, functions, and the rest. -/
inductive Group where
  | prototypes
  | functions
  | others
deriving DecidableEq, Repr, Inhabited

def groupOf : Stmt → Group
  | .prototype _ _ _ => .prototypes
  | .function _ _ _ _ => .functions
  | _ => .others

/-- Puts the groups together. Definitions come first, so that calls may precede them. -/
def arranged (count : Nat) (generate : Group → Nat → Generated) : Generated := do
  let (prototypes, count) ← generate .prototypes count
  let (functions, count) ← generate .functions count
  let (others, count) ← generate .others count
  return (prototypes ++ functions ++ others, count)

/-- Whether a statement is a conditional. -/
def isConditional : Stmt → Bool
  | .ifElse _ _ _ => true
  | _ => false

/-- The variable that the initializer of a loop declares. -/
def loopVariable? : Option Stmt → Option String
  | some (.declaration _ name _) => some name
  | _ => none

mutual

/-- The generated form of a statement. `count` is the number of loops so far that declared a
variable. -/
def stmt (ctx : Context) (count : Nat) : Stmt → Generated
  | .header _ | .usingSpace _ => .ok ([], count)
  | .prototype _ name params => .ok ([stub name params], count)
  | .function _ name params body =>
    function ctx count name params body fun ctx count =>
      arranged count fun which count => group ctx count which body
  | .declaration type name initializer => do
    let value ← match initializer with
      | some e => expr ctx.renames 0 e
      | none => .ok (defaultValue type)
    return ([.assign (.name (bind ctx.renames name)) value], count)
  | .block statements => arranged count fun which count => group ctx count which statements
  | .input targets => do return (← inputs ctx.renames targets, count)
  | .print parts => do
    if parts.isEmpty then return ([], count)
    else return ([.print (← pieces ctx.renames none parts)], count)
  | .ifElse condition thenStmt elseStmt => do
    let condition ← expr ctx.renames 0 condition
    let (thenSuite, count) ← suite ctx count .nothing fun ctx count => stmt ctx count thenStmt
    let (elseSuite, chained, count) ← alternative ctx count elseStmt
    return ([.ifElse condition thenSuite elseSuite chained], count)
  | .whileLoop condition body => do
    let condition ← expr ctx.renames 0 condition
    loop ctx count condition .nothing fun ctx count => stmt ctx count body
  | .doLoop condition body => do
    let condition ← expr ctx.renames 0 condition
    loop ctx count (.bool true) (.leaveUnless condition) fun ctx count => stmt ctx count body
  | .forLoop init condition update body => do
    let count := if (loopVariable? init).isSome then count + 1 else count
    let renames := (loopVariable? init).map (fun name => (name, Target.loopName name count))
    let ctx := { ctx with renames := renames.toList :: ctx.renames }
    let (before, count) ← optional ctx count init
    let condition ← expr ctx.renames 0 condition
    let ending := (update.map RoundEnd.update).getD .nothing
    let (loop, count) ← loop ctx count condition ending fun ctx count => stmt ctx count body
    return (before ++ loop, count)
  | .ret value => do
    match value with
    | none => return ([.ret none], count)
    | some e => return ([.ret (some (← expr ctx.renames 0 e))], count)
  | .breakLoop => .ok ([.breakLoop], count)
  | .continueLoop => do
    return ((← roundEndStatements ctx.renames ctx.roundEnd) ++ [.continueLoop], count)
  | .expression e => do return ([← expressionStatement ctx.renames e], count)

/-- The second suite of a conditional, and whether it is written as a further branch. -/
def alternative (ctx : Context) (count : Nat) :
    Option Stmt → Except CompileError (List Target.Stmt × Bool × Nat)
  | none => .ok ([], false, count)
  | some s => do
    if isConditional s then
      let (branch, count) ← stmt ctx count s
      return (branch, true, count)
    else
      let (suite, count) ← suite ctx count .nothing fun ctx count => stmt ctx count s
      return (suite, false, count)

def optional (ctx : Context) (count : Nat) : Option Stmt → Generated
  | none => .ok ([], count)
  | some s => stmt ctx count s

/-- The statements of one group, in order. -/
def group (ctx : Context) (count : Nat) (which : Group) : List Stmt → Generated
  | [] => .ok ([], count)
  | s :: rest => do
    if groupOf s == which then
      let (first, count) ← stmt ctx count s
      let (others, count) ← group ctx count which rest
      return (first ++ others, count)
    else group ctx count which rest

end

/-- A sequence of statements. -/
def sequence (ctx : Context) (count : Nat) (statements : List Stmt) : Generated :=
  arranged count fun which count => group ctx count which statements

end ConsoleCpp.Generate

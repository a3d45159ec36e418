/-
Statements of generated Python, whole programs, and their lines. A suite is never empty: where
nothing is to be done it holds `pass`.
-/
import ConsoleCpp.Target.Expr

namespace ConsoleCpp.Target

/-- What can be stored to. -/
inductive Place where
  | name (id : String)
  | attr (owner : Expr) (field : String)
  | item (owner key : Expr)
deriving Inhabited

/-- A place as an expression that reads it. -/
def Place.expr : Place → Expr
  | .name id => .name id
  | .attr owner field => .attr owner field
  | .item owner key => .item owner key

def Place.spell (p : Place) : String := p.expr.spell

/-- The head of a function definition. -/
structure Header where
  name : String
  params : List String
  /-- Whether the parameters may be left out. -/
  optional : Bool
deriving DecidableEq, Repr, Inhabited

inductive Stmt where
  | assign (target : Place) (value : Expr)
  | augment (target : Place) (op : ArithOp) (value : Expr)
  | eval (e : Expr)
  /-- Appends the texts of the pieces, joined, to the output. -/
  | print (pieces : List Expr)
  | define (header : Header) (nonlocals : List String) (body : List Stmt)
  /-- Faults because the function of this name was announced and never defined. -/
  | unimplemented (name : String)
  /-- `chained` says that the second suite is a single conditional, written as a further branch. -/
  | ifElse (condition : Expr) (thenSuite elseSuite : List Stmt) (chained : Bool)
  | whileLoop (condition : Expr) (body : List Stmt)
  /-- Leaves the loop unless the condition holds. -/
  | leaveUnless (condition : Expr)
  | ret (value : Option Expr)
  | breakLoop
  | continueLoop
  | pass
deriving Inhabited

/-- A program: the definitions that stand for functions announced at its top, and the rest. -/
structure Program where
  stubs : List Stmt
  body : List Stmt
deriving Inhabited

/-! ## Lines -/

/-- A line of generated text. -/
structure Line where
  depth : Nat
  text : String
deriving DecidableEq, Repr, Inhabited

/-- A line with its indentation, four blanks a level. -/
def Line.spell (line : Line) : String :=
  String.ofList (List.replicate (4 * line.depth) ' ') ++ line.text

def Header.spell (header : Header) : String :=
  let mark := if header.optional then "=None" else ""
  "def " ++ header.name ++ "(" ++ String.intercalate ", " (header.params.map (· ++ mark)) ++ "):"

namespace Stmt

mutual

/-- The lines of a statement at a depth. A conditional is opened by the word `opener`. -/
def linesFrom (opener : String) (depth : Nat) : Stmt → List Line
  | .assign target value => [⟨depth, target.spell ++ " = " ++ value.spell⟩]
  | .augment target op value => [⟨depth, target.spell ++ " " ++ op.text ++ "= " ++ value.spell⟩]
  | .eval e => [⟨depth, e.spell⟩]
  | .print pieces =>
    [⟨depth, "__outputs.append(" ++ String.intercalate " + " (pieces.map Expr.spell) ++ ")"⟩]
  | .define header nonlocals body =>
    ⟨depth, header.spell⟩ ::
      ((if nonlocals.isEmpty then []
        else [⟨depth + 1, "nonlocal " ++ String.intercalate ", " nonlocals⟩]) ++
        suiteLines (depth + 1) body)
  | .unimplemented name => [⟨depth, "raise __rt.UnimplementedFunction(" ++ Text.quoted name ++ ")"⟩]
  | .ifElse condition thenSuite elseSuite chained =>
    ⟨depth, opener ++ " " ++ condition.spell ++ ":"⟩ ::
      (suiteLines (depth + 1) thenSuite ++
        (if chained then chainLines depth elseSuite
         else if elseSuite.isEmpty then []
         else ⟨depth, "else:"⟩ :: suiteLines (depth + 1) elseSuite))
  | .whileLoop condition body =>
    ⟨depth, "while " ++ condition.spell ++ ":"⟩ :: suiteLines (depth + 1) body
  | .leaveUnless condition => [⟨depth, "if not " ++ condition.spell ++ ":"⟩, ⟨depth + 1, "break"⟩]
  | .ret none => [⟨depth, "return"⟩]
  | .ret (some value) => [⟨depth, "return " ++ value.spell⟩]
  | .breakLoop => [⟨depth, "break"⟩]
  | .continueLoop => [⟨depth, "continue"⟩]
  | .pass => [⟨depth, "pass"⟩]

/-- The lines of a suite. -/
def suiteLines (depth : Nat) : List Stmt → List Line
  | [] => []
  | s :: rest => linesFrom "if" depth s ++ suiteLines depth rest

/-- The lines of a further branch of a conditional. -/
def chainLines (depth : Nat) : List Stmt → List Line
  | [] => []
  | s :: rest => linesFrom "elif" depth s ++ chainLines depth rest

end

/-- The lines of a statement at a depth. -/
def lines (depth : Nat) (s : Stmt) : List Line := linesFrom "if" depth s

end Stmt

namespace Program

/-- The lines before the program's own: the reader of input words and the list of outputs. -/
def prologue : List Line := [
  ⟨0, "def __program(__input):"⟩,
  ⟨1, "def __read():"⟩,
  ⟨2, "if not __input:"⟩,
  ⟨3, "raise __rt.InputExhausted()"⟩,
  ⟨2, "return __rt.number(__input.pop(0))"⟩,
  ⟨1, "__outputs = []"⟩]

/-- The lines after the program's own: the call of its main function and its result. -/
def epilogue : List Line := [⟨1, "main()"⟩, ⟨1, "return \"\".join(__outputs)"⟩]

def lines (p : Program) : List Line :=
  prologue ++ Stmt.suiteLines 1 (p.stubs ++ p.body) ++ epilogue

end Program

/-- The text of lines, each ended by a line break. Without lines there is one line break still. -/
def textOf (lines : List Line) : String := String.intercalate "\n" (lines.map Line.spell) ++ "\n"

/-- The text of a program. -/
def Program.text (p : Program) : String := textOf p.lines

end ConsoleCpp.Target

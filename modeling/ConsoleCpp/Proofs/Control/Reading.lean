/-
The structured reading of source statements. Conditionals, loops and jumps mean what they mean in
C: `break` leaves the innermost loop; `continue` in a `for` loop runs the update and then tests the
condition again; `continue` in a `do` loop tests the condition and leaves if it does not hold. A
statement without statements inside, and a condition, mean what their own generated lines mean. As
everywhere in the machine, a loop takes at most a given number of rounds and what a call does is
given from outside.
-/
import ConsoleCpp.Machine.Program
import ConsoleCpp.Proofs.Generate.Cases

namespace ConsoleCpp

namespace Stmt

/-! ## Shapes of statements -/

mutual

/-- Whether a statement holds no function, defined or announced. -/
def isPlain : Stmt → Bool
  | .prototype _ _ _ | .function _ _ _ _ => false
  | .block statements => arePlain statements
  | .ifElse _ thenStmt elseStmt => isPlain thenStmt && isPlainOption elseStmt
  | .whileLoop _ body | .doLoop _ body => isPlain body
  | .forLoop init _ _ body => isPlainOption init && isPlain body
  | .header _ | .usingSpace _ | .declaration _ _ _ | .input _ | .print _ | .ret _ | .breakLoop
  | .continueLoop | .expression _ => true

def arePlain : List Stmt → Bool
  | [] => true
  | s :: rest => isPlain s && arePlain rest

def isPlainOption : Option Stmt → Bool
  | none => true
  | some s => isPlain s

end

mutual

/-- Whether every jump in a statement stays in a loop of the statement. -/
def isClosed : Stmt → Bool
  | .breakLoop | .continueLoop => false
  | .block statements => areClosed statements
  | .ifElse _ thenStmt elseStmt => isClosed thenStmt && isClosedOption elseStmt
  | .forLoop init _ _ _ => isClosedOption init
  | .whileLoop _ _ | .doLoop _ _ | .header _ | .usingSpace _ | .declaration _ _ _
  | .prototype _ _ _ | .function _ _ _ _ | .input _ | .print _ | .ret _ | .expression _ => true

def areClosed : List Stmt → Bool
  | [] => true
  | s :: rest => isClosed s && areClosed rest

def isClosedOption : Option Stmt → Bool
  | none => true
  | some s => isClosed s

end

mutual

/-- How deep loops are nested in a statement, not counting those in functions. -/
def loopDepth : Stmt → Nat
  | .block statements => loopDepthAll statements
  | .ifElse _ thenStmt elseStmt => max (loopDepth thenStmt) (loopDepthOption elseStmt)
  | .whileLoop _ body | .doLoop _ body => loopDepth body + 1
  | .forLoop init _ _ body => max (loopDepthOption init) (loopDepth body + 1)
  | .header _ | .usingSpace _ | .declaration _ _ _ | .prototype _ _ _ | .function _ _ _ _
  | .input _ | .print _ | .ret _ | .breakLoop | .continueLoop | .expression _ => 0

def loopDepthAll : List Stmt → Nat
  | [] => 0
  | s :: rest => max (loopDepth s) (loopDepthAll rest)

def loopDepthOption : Option Stmt → Nat
  | none => 0
  | some s => loopDepth s

end

end Stmt

namespace Structured

open Machine Generate

/-! ## Sequences and loops -/

/-- Goes on with `rest` after a normal end only. -/
def andThen (rest : Run Flow) : Flow → Run Flow
  | .next => rest
  | other => return other

/-- Rounds of a loop that tests before each round and runs `update` after it, also when the round
was cut short. -/
def testFirst (test : Run Bool) (body : Run Flow) (update : Run Unit) : (rounds : Nat) → Run Flow
  | 0 => throw .outOfSteps
  | rounds + 1 => do
    if ← test then
      match ← body with
      | .next | .continued =>
        update
        testFirst test body update rounds
      | .broke => return .next
      | .returned v => return .returned v
    else return .next

/-- Rounds of a loop that tests after each round, also when the round was cut short. -/
def testLast (body : Run Flow) (test : Run Bool) : (rounds : Nat) → Run Flow
  | 0 => throw .outOfSteps
  | rounds + 1 => do
    match ← body with
    | .next | .continued => if ← test then testLast body test rounds else return .next
    | .broke => return .next
    | .returned v => return .returned v

/-! ## Statements -/

section

variable (call : Caller) (rounds : Nat) (path : String) (env : List Nat)

/-- Runs what is generated. A part that is not generated has no end. -/
def generated {α β : Type} (part : Except CompileError α) (run : α → Run β) : Run β :=
  match part with
  | .ok a => run a
  | .error _ => throw .outOfSteps

/-- What the generated form of a condition says. -/
def condition (renames : Renames) (e : Expr) : Run Bool :=
  generated (Generate.expr renames 0 e) (holds call env)

/-- The generated lines of a statement without statements inside. -/
def simple (renames : Renames) (count : Nat) (s : Stmt) : Run Flow :=
  generated (Generate.stmt ⟨0, [], renames, .nothing⟩ count s) fun lines =>
    execAll call rounds path env lines.1

/-- The update of a `for` loop, as a statement. -/
def update (renames : Renames) : Option Expr → Run Unit
  | none => return
  | some e => generated (Generate.expressionStatement renames e) fun line => do
    let _ ← exec call rounds path env line

mutual

/-- Runs a statement by its structure. `renames` holds the names that the loops around it introduce
and `count` the number of loops before it that declare a variable. -/
def run (renames : Renames) (count : Nat) : Stmt → Run Flow
  | .block statements => runAll renames count statements
  | .ifElse test thenStmt elseStmt => do
    if ← condition call env renames test then run renames count thenStmt
    else runOption renames (count + thenStmt.declaringLoops) elseStmt
  | .whileLoop test body =>
    testFirst (condition call env renames test) (run renames count body) (return) rounds
  | .doLoop test body =>
    testLast (run renames count body) (condition call env renames test) rounds
  | .forLoop init test change body =>
    let count := countLoop init count
    let renames := loopRenames init count :: renames
    runOption renames count init >>=
      andThen (testFirst (condition call env renames test)
        (run renames (count + Stmt.declaringLoopsOption init) body)
        (update call rounds path env renames change) rounds)
  | .ret none => return .returned .none
  | .ret (some e) => do
    return .returned (← generated (Generate.expr renames 0 e) (eval call env))
  | .breakLoop => return .broke
  | .continueLoop => return .continued
  | s => simple call rounds path env renames count s

def runAll (renames : Renames) (count : Nat) : List Stmt → Run Flow
  | [] => return .next
  | s :: rest =>
    run renames count s >>= andThen (runAll renames (count + s.declaringLoops) rest)

def runOption (renames : Renames) (count : Nat) : Option Stmt → Run Flow
  | none => return .next
  | some s => run renames count s

end

/-! ## Generated lines -/

/-- Runs generated lines the way a program made of them runs: not at all if their text is
refused. -/
def runLines (lines : List Target.Stmt) : Run Flow :=
  match (⟨[], lines⟩ : Target.Program).refusal? with
  | some l => fault (.refused l.reason l.namedLine)
  | none => execAll call rounds path env lines

end

/-- Whether nothing is wrong with the text of any single line of generated lines. -/
def linesTaken (lines : List Target.Stmt) : Bool :=
  (Target.Stmt.suiteItemLines lines).all fun items => items.all fun item =>
    item.nullFault.isNone && item.pieceFault.isNone && item.grammarFault.isNone

end Structured

end ConsoleCpp

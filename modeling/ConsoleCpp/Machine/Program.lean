/-
Running a whole program on the words of its input. Calls are bounded in depth and loops in rounds by
one number, so that every run ends; a program that would go on is told apart from one that faults.
-/
import ConsoleCpp.Machine.Eval
import ConsoleCpp.Target.Check

namespace ConsoleCpp.Machine

/-! ## Calls -/

/-- The variables of a call: the arguments in the parameters, the others without a value. -/
def frameFor (f : Closure) (args : List Value) : Frame :=
  f.locals.map fun name => (name,
    match (f.params.zip args).lookup name with
    | some v => some v
    | none => if f.optional && f.params.contains name then some .none else none)

/-- What is wrong with the number of arguments of a call. -/
def argumentFault? (f : Closure) (args : List Value) : Option Fault :=
  let least := if f.optional then 0 else f.params.length
  if f.params.length < args.length then
    some (.excess f.path least f.params.length args.length)
  else if args.length < least then some (.missing f.path (f.params.drop args.length))
  else none

/-- A call of a value. `steps` bounds the calls open at once and the rounds of each loop. -/
def call : (steps : Nat) → Value → List Value → Run Value
  | 0, _, _ => throw .outOfSteps
  | steps + 1, f, args =>
    match f with
    | .function f =>
      match argumentFault? f args with
      | some complaint => fault complaint
      | none => do
        let frame ← newFrame (frameFor f args)
        match ← execAll (call steps) steps f.path (frame :: f.env) f.body with
        | .returned v => return v
        | _ => return .none
    | .builtin b => callBuiltin b args
    | .method m => callMethod m args
    | v => fault (.notCallable v.typeName)

/-! ## Runs -/

/-- The name of the function that a program is. -/
def programPath : String := "__program"

/-- Runs a program: its statements, then its main function; the result is its output, unless one of
its own statements returns something. -/
def runBody (steps : Nat) (p : Target.Program) : Run Value := do
  let frame ← newFrame (p.locals.map fun name => (name, none))
  match ← execAll (call steps) steps programPath [frame] (p.stubs ++ p.body) with
  | .returned v => return v
  | _ =>
    let _ ← eval (call steps) [frame] (.call (.name "main") [])
    return .text (← get).output

/-- Runs a program from a state, unless it is refused. -/
def runFrom (steps : Nat) (p : Target.Program) : Run Value :=
  match p.refusal? with
  | some l => fault (.refused l.reason l.namedLine)
  | none => runBody steps p

/-- How a run ends, and in which state. -/
inductive Outcome where
  /-- With a value, parts of which live in the state. -/
  | finished (v : Value) (s : State)
  | faulted (f : Fault) (s : State)
  /-- At something that is not described, so that it is not known how it goes on. -/
  | undescribed (part : Undescribed) (s : State)
  | outOfSteps
deriving Inhabited

/-- How a run ends that gives this result. -/
def Outcome.of : EStateM.Result Stop State Value → Outcome
  | .ok v s => .finished v s
  | .error (.fault (.undescribed part)) s => .undescribed part s
  | .error (.fault f) s => .faulted f s
  | .error .outOfSteps _ => .outOfSteps

/-- Runs a program on the words of its input, with functions and lists at these addresses. -/
def runWithin (steps : Nat) (p : Target.Program) (input : List String)
    (addresses : Addresses := .unknown) : Outcome :=
  .of (runFrom steps p (.empty input addresses))

/-- The number of steps that runs are given. -/
def stepLimit : Nat := Number.pow10 15

/-- Runs a program on the words of its input. -/
def run (p : Target.Program) (input : List String) : Outcome := runWithin stepLimit p input

end ConsoleCpp.Machine

/-
Running statements and evaluating expressions. Both follow the tree; what cannot be read off the
tree is given from outside: what a call of a value does, and how many rounds a loop may take.
-/
import ConsoleCpp.Machine.Builtin
import ConsoleCpp.Target.Scope

namespace ConsoleCpp.Machine

/-! ## Variables -/

/-- The value of a variable of the functions around, by their frames from the inside out. -/
def freeVariable (s : State) (id : String) : List Nat → Except Fault Value
  | [] =>
    match Builtin.ofName? id with
    | some b => .ok (.builtin b)
    | none =>
      .error (if Builtin.otherNames.contains id then .undescribed (.name id) else .undefined id)
  | frame :: rest =>
    match (s.frames.getD frame []).lookup id with
    | some (some v) => .ok v
    | some none => .error (.unboundFree id)
    | none => freeVariable s id rest

/-- The value of a variable, looked for in the frames `env` from the inside out. -/
def lookup (s : State) (id : String) : List Nat → Except Fault Value
  | [] => freeVariable s id []
  | frame :: rest =>
    match (s.frames.getD frame []).lookup id with
    | some (some v) => .ok v
    | some none => .error (.unboundLocal id)
    | none => freeVariable s id rest

/-- A frame with a value for a variable that it has. -/
def withVariable (id : String) (v : Value) : Frame → Frame
  | [] => []
  | (name, old) :: rest =>
    if name == id then (name, some v) :: rest else (name, old) :: withVariable id v rest

/-- The innermost frame that has a variable. -/
def frameOf? (s : State) (id : String) (env : List Nat) : Option Nat :=
  env.find? fun frame => (s.frames.getD frame []).any fun entry => entry.1 == id

/-- Gives a variable a value. -/
def assign (env : List Nat) (id : String) (v : Value) : Run Unit := do
  match frameOf? (← get) id env with
  | some frame => modify fun s => { s with frames := s.frames.modify frame (withVariable id v) }
  | none => fault (.undefined id)

/-- A new frame with these variables, none of which has a value. -/
def newFrame (vars : Frame) : Run Nat :=
  modifyGet fun s => (s.frames.size, { s with frames := s.frames.push vars })

/-! ## Expressions -/

/-- The value of a number literal. -/
def literalNumber (digits : String) : Value :=
  if Expr.isDecimal digits then .float ((Number.readFloat? digits).getD Number.nan)
  else
    match Number.readInt digits with
    | .value n => .int n
    | _ => .int 0

/-- The value of a quoted literal. -/
def literalText (spelling : String) : Except Fault Value :=
  match Target.readLiteral spelling with
  | .ok t => .ok (.text t)
  | .error .surrogate => .error (.undescribed .surrogate)
  | .error (.refused f) => .error (.refused f.reason none)

/-- The next word of the input, as a number. -/
def nextInput : Run Value := do
  match (← get).input with
  | [] => fault .inputExhausted
  | word :: rest =>
    modify fun s => { s with input := rest }
    return number word

/-- What a value prints as. -/
def shown (v : Value) : Run Value := do
  return .text (← orFault ((← get).shown v))

/-- A step of a variable. -/
def stepVariable (env : List Nat) (op : StepOp) (keepsOld : Bool) (id : String) : Run Value := do
  let old ← orFault (lookup (← get) id env)
  let new ← arith op.arith old (.int 1)
  assign env id new
  if keepsOld then
    match op with
    | .increment => arith .sub new (.int 1)
    | .decrement => arith .add new (.int 1)
  else return new

/-- The fault of a number that is applied to what stands in brackets after it. -/
def notApplicable (v : Value) : Target.Expr → Fault
  | .list _ => .notSubscriptable v.typeName
  | _ => .notCallable v.typeName

/-- What a call of a value with arguments does. -/
abbrev Caller := Value → List Value → Run Value

mutual

/-- The value of an expression in the frames `env`. -/
def eval (call : Caller) (env : List Nat) : Target.Expr → Run Value
  | .number digits => pure (literalNumber digits)
  | .text spelling => orFault (literalText spelling)
  | .bool b => pure (.bool b)
  | .nothing => pure .none
  | .name id => do orFault (lookup (← get) id env)
  | .sign op operand => do sign op (← eval call env operand)
  | .binary .and left right => do
    let a ← eval call env left
    if (← get).truthy a then eval call env right else return a
  | .binary .or left right => do
    let a ← eval call env left
    if (← get).truthy a then return a else eval call env right
  | .binary op left right => do
    let a ← eval call env left
    let b ← eval call env right
    binary op a b
  | .bind id value => do
    let v ← eval call env value
    assign env id v
    return v
  | .step op keepsOld id => stepVariable env op keepsOld id
  | .call callee args => do
    let f ← eval call env callee
    let vs ← evalAll call env args
    call f vs
  | .attr owner field => do
    let o ← eval call env owner
    orFault (getAttr (← get) o field)
  | .item owner key => do
    let o ← eval call env owner
    let k ← eval call env key
    orFault (getItem (← get) o k)
  | .list element => do newList #[← eval call env element]
  | .input => nextInput
  | .shown value => do shown (← eval call env value)
  | .store owner key value => do
    let o ← eval call env owner
    let k ← eval call env key
    let v ← eval call env value
    storeItem o k v
  | .update owner key op value keepsOld => do
    let o ← eval call env owner
    let k ← eval call env key
    let v ← eval call env value
    updateItem o k (fun old => arith op old v) (keepsOld.getD false)
  | .storeAttr owner field value => do
    let o ← eval call env owner
    let v ← eval call env value
    storeAttr o field v
  | .updateAttr owner field op value keepsOld => do
    let o ← eval call env owner
    let v ← eval call env value
    updateAttr o field (fun old => arith op old v) (keepsOld.getD false)
  | .newArray size typeName => do newArray (← eval call env size) typeName
  | .newObject typeName => newInstance (.text typeName)
  | .misjoined _ _ => fault (.refused "invalid syntax" none)
  | .adjoined digits next => do
    let _ ← eval call env next
    fault (notApplicable (literalNumber digits) next)

def evalAll (call : Caller) (env : List Nat) : List Target.Expr → Run (List Value)
  | [] => pure []
  | e :: rest => do
    let v ← eval call env e
    return v :: (← evalAll call env rest)

end

/-! ## Statements -/

/-- How a statement ends. -/
inductive Flow where
  | next
  | broke
  | continued
  | returned (v : Value)

/-- Stores the value that `value` computes in a place. The value is computed before the parts of the
place. -/
def execAssign (call : Caller) (env : List Nat) (target : Target.Place) (value : Target.Expr) :
    Run Flow := do
  let v ← eval call env value
  match target with
  | .name id => assign env id v
  | .attr owner field =>
    let o ← eval call env owner
    setAttr o field v
  | .item owner key =>
    let o ← eval call env owner
    let k ← eval call env key
    setItem o k v
  return .next

/-- Combines what a place holds with a value. The place is read before the value is computed. -/
def execAugment (call : Caller) (env : List Nat) (target : Target.Place) (op : ArithOp)
    (value : Target.Expr) : Run Flow := do
  match target with
  | .name id =>
    let old ← orFault (lookup (← get) id env)
    let v ← eval call env value
    assign env id (← inPlace op old v)
  | .attr owner field =>
    let o ← eval call env owner
    let old ← orFault (getAttr (← get) o field)
    let v ← eval call env value
    setAttr o field (← inPlace op old v)
  | .item owner key =>
    let o ← eval call env owner
    let k ← eval call env key
    let old ← orFault (getItem (← get) o k)
    let v ← eval call env value
    setItem o k (← inPlace op old v)
  return .next

/-- The text of a value that is one. -/
def textOf : Value → String
  | .text t => t
  | _ => ""

/-- Appends the texts of values to the output. -/
def emit (pieces : List Value) : Run Unit :=
  modify fun s => { s with output := s.output ++ String.join (pieces.map textOf) }

/-- Whether the value of a condition counts as true. -/
def holds (call : Caller) (env : List Nat) (condition : Target.Expr) : Run Bool := do
  let v ← eval call env condition
  return (← get).truthy v

/-- Rounds of a loop, at most `rounds` of them: as long as `test` holds, `body` runs. -/
def loop (test : Run Bool) (body : Run Flow) : (rounds : Nat) → Run Flow
  | 0 => throw .outOfSteps
  | rounds + 1 => do
    if ← test then
      match ← body with
      | .next | .continued => loop test body rounds
      | .broke => return .next
      | .returned v => return .returned v
    else return .next

/-- The function that a definition makes, in a function with the name `path`, with its fields at
`ref`. -/
def closure (path : String) (env : List Nat) (header : Target.Header) (nonlocals : List String)
    (body : List Target.Stmt) (ref : Nat) : Closure :=
  { path := path ++ ".<locals>." ++ header.name
    params := header.params
    optional := header.optional
    locals := Target.localNames header.params nonlocals body
    body := body
    env := env
    ref := ref }

mutual

/-- Runs a statement in the frames `env` of a function with the name `path`. A loop takes at most
`rounds` rounds. -/
def exec (call : Caller) (rounds : Nat) (path : String) (env : List Nat) : Target.Stmt → Run Flow
  | .assign target value => execAssign call env target value
  | .augment target op value => execAugment call env target op value
  | .eval e => do
    let _ ← eval call env e
    return .next
  | .print pieces => do
    emit (← evalAll call env pieces)
    return .next
  | .define header nonlocals body => do
    let ref ← newFields []
    assign env header.name (.function (closure path env header nonlocals body ref))
    return .next
  | .unimplemented name => fault (.unimplemented name)
  | .ifElse condition thenSuite elseSuite _ => do
    if ← holds call env condition then execAll call rounds path env thenSuite
    else execAll call rounds path env elseSuite
  | .whileLoop condition body =>
    loop (holds call env condition) (execAll call rounds path env body) rounds
  | .leaveUnless condition => do
    if ← holds call env condition then return .next else return .broke
  | .ret none => return .returned .none
  | .ret (some e) => return .returned (← eval call env e)
  | .breakLoop => return .broke
  | .continueLoop => return .continued
  | .pass => return .next

/-- Runs statements in order until one does not end normally. -/
def execAll (call : Caller) (rounds : Nat) (path : String) (env : List Nat) :
    List Target.Stmt → Run Flow
  | [] => return .next
  | s :: rest => do
    match ← exec call rounds path env s with
    | .next => execAll call rounds path env rest
    | other => return other

end

/-- A line that is an expression is evaluated for its effects alone. -/
theorem exec_eval (call : Caller) (rounds : Nat) (path : String) (env : List Nat) (e : Target.Expr) :
    exec call rounds path env (.eval e) = (do
      let _ ← eval call env e
      return .next) := by
  rw [exec]

/-- A variable that is stored to as a value is stored to last. -/
theorem eval_bind (call : Caller) (env : List Nat) (id : String) (value : Target.Expr) :
    eval call env (.bind id value) = (do
      let v ← eval call env value
      assign env id v
      return v) := by
  rw [eval]

end ConsoleCpp.Machine

/-
The expression parser: operands with their chains of calls, elements and members, and operators by
precedence climbing. `expression ctx floor` reads an operand and then every operator whose
precedence is at least `floor`.
-/
import ConsoleCpp.Parser.Basic

namespace ConsoleCpp.Parser

/-- What joins an operand with what follows it. -/
inductive Link where
  | member (op : MemberOp)
  | assign (op : AssignOp)
  | scope
  | binary (op : BinaryOp)
deriving DecidableEq, Repr, Inhabited

namespace Link

/-- A higher number binds tighter. -/
def precedence : Link → Nat
  | .assign _ => 0
  | .binary op => op.precedence
  | .member _ | .scope => 11

def ofText? (text : String) : Option Link :=
  match MemberOp.ofText? text, AssignOp.ofText? text, BinaryOp.ofText? text with
  | some op, _, _ => some (.member op)
  | _, some op, _ => some (.assign op)
  | _, _, some op => some (.binary op)
  | _, _, _ => if text == "::" then some .scope else none

end Link

/-- The joining role of a token. A stream operator has none in an operand of a stream. -/
def link? (inStream : Bool) (t : Token) : Option Link :=
  match t.kind with
  | .operator | .scope => Link.ofText? t.text
  | .stream => if inStream then none else Link.ofText? t.text
  | _ => none

/-- The types that `new` takes besides those the program names. -/
def datatypes : List String := ["int", "float", "double", "char", "string", "bool", "void"]

/-- The type after `new`. -/
def newType : (ts : List Token) → Except CompileError (Read String ts)
  | [] => .error (.expected .identifier none none)
  | t :: rest =>
    if t.kind == .keyword && datatypes.contains t.text then .ok ⟨t.text, rest, tail_shorter t rest⟩
    else if t.kind == .identifier then .ok ⟨t.text, rest, tail_shorter t rest⟩
    else .error (.expected .identifier none (some t))

mutual

/-- An operand: a literal, a variable with its chain and the assignment or step after it, something
in brackets, or a new object or array. -/
def primary (ctx : Context) (ts : List Token) : Except CompileError (Read Expr ts) :=
  match ts with
  | [] => .error .operandMissing
  | t :: rest => do
    let ctx ← ctx.enter t
    match t.kind with
    | .operator =>
      match UnaryOp.ofText? t.text with
      | none => .error (.notAnOperand t)
      | some op =>
        let ⟨operand, rest, h⟩ ← primary ctx rest
        match op, operand.isAssignable with
        | .step _, false => .error (.notSteppable t)
        | _, _ => .ok ⟨.unary op operand, rest, by simp only [List.length_cons]; omega⟩
    | .number => .ok ⟨.number t.text, rest, by simp⟩
    | .string => .ok ⟨.string t.text false, rest, by simp⟩
    | .char => .ok ⟨.char t.text, rest, by simp⟩
    | .identifier =>
      let ⟨operand, rest, h⟩ ← variableOperand ctx t.text rest
      .ok ⟨operand, rest, by simp only [List.length_cons]; omega⟩
    | .keyword =>
      if t.text == "true" then .ok ⟨.bool true, rest, by simp⟩
      else if t.text == "false" then .ok ⟨.bool false, rest, by simp⟩
      else if t.text == "endl" then .ok ⟨.endl, rest, by simp⟩
      else if t.text == "new" then
        let ⟨typeName, rest, h⟩ ← newType rest
        if startsWith .delimiter "[" rest then
          let ⟨_, rest, h₁⟩ ← consume .delimiter "[" rest
          let ⟨size, rest, h₂⟩ ← expression ctx.bracketed 1 rest
          let ⟨_, rest, h₃⟩ ← consume .delimiter "]" rest
          .ok ⟨.newArray typeName size, rest, by simp only [List.length_cons]; omega⟩
        else if startsWith .delimiter "(" rest then
          let ⟨_, rest, h₁⟩ ← consume .delimiter "(" rest
          let ⟨_, rest, h₂⟩ ← consume .delimiter ")" rest
          .ok ⟨.newObject typeName, rest, by simp only [List.length_cons]; omega⟩
        else .ok ⟨.newObject typeName, rest, by simp only [List.length_cons]; omega⟩
      else .error (.notAnOperand t)
    | .delimiter =>
      if t.text == "(" then
        let ⟨inner, rest, h₁⟩ ← expression ctx.bracketed 1 rest
        let ⟨_, rest, h₂⟩ ← consume .delimiter ")" rest
        .ok ⟨inner, rest, by simp only [List.length_cons]; omega⟩
      else if t.text == "[" then
        let ⟨inner, rest, h₁⟩ ← expression ctx.bracketed 1 rest
        let ⟨_, rest, h₂⟩ ← consume .delimiter "]" rest
        .ok ⟨.list inner, rest, by simp only [List.length_cons]; omega⟩
      else .error (.notAnOperand t)
    | _ => .error (.notAnOperand t)
termination_by (ts.length, 0)

/-- What follows the name of a variable: its chain, and an assignment or a step of the whole. -/
def variableOperand (ctx : Context) (id : String) (ts : List Token) :
    Except CompileError (Peek Expr ts) := do
  let ⟨node, rest, h₁⟩ ← chain ctx (.name id) ts
  match rest, h₁ with
  | [], _ => .ok ⟨node, [], by simp⟩
  | t :: rest, h₁ =>
    match t.kind, StepOp.ofText? t.text, AssignOp.ofText? t.text with
    | .operator, some op, _ =>
      if node.isAssignable then
        .ok ⟨.stepAfter op node, rest, by simp only [List.length_cons] at h₁; omega⟩
      else .error (.notAssignable t)
    | .operator, none, some op =>
      if node.isAssignable then
        let ⟨value, rest, h₂⟩ ← expression ctx 0 rest
        .ok ⟨.assign op node value, rest, by simp only [List.length_cons] at h₁; omega⟩
      else .error (.notAssignable t)
    | _, _, _ => .ok ⟨node, t :: rest, h₁⟩
termination_by (ts.length, 3)

/-- The calls, elements and members that follow a node. -/
def chain (ctx : Context) (node : Expr) (ts : List Token) : Except CompileError (Peek Expr ts) :=
  match ts with
  | [] => .ok ⟨node, [], by simp⟩
  | t :: rest =>
    if t.isA .delimiter "(" then do
      let ⟨args, rest, h₁⟩ ← arguments ctx.bracketed rest
      let ⟨_, rest, h₂⟩ ← consume .delimiter ")" rest
      let ⟨node, rest, h₃⟩ ← chain ctx (.call node args) rest
      .ok ⟨node, rest, by simp only [List.length_cons]; omega⟩
    else if t.isA .delimiter "[" then do
      let ⟨key, rest, h₁⟩ ← expression ctx.bracketed 1 rest
      let ⟨_, rest, h₂⟩ ← consume .delimiter "]" rest
      let ⟨node, rest, h₃⟩ ← chain ctx (.index node key) rest
      .ok ⟨node, rest, by simp only [List.length_cons]; omega⟩
    else
      match t.kind, MemberOp.ofText? t.text with
      | .operator, some op => do
        let ⟨field, rest, h₁⟩ ← consumeKind .identifier rest
        let ⟨node, rest, h₂⟩ ← chain ctx (.member op node field.text) rest
        .ok ⟨node, rest, by simp only [List.length_cons]; omega⟩
      | _, _ => .ok ⟨node, t :: rest, by simp⟩
termination_by (ts.length, 0)

/-- The arguments of a call, up to its closing parenthesis. -/
def arguments (ctx : Context) (ts : List Token) : Except CompileError (Peek (List Expr) ts) :=
  if startsWith .delimiter ")" ts then .ok ⟨[], ts, by simp⟩
  else do
    let ⟨args, rest, h⟩ ← expressions ctx ts
    .ok ⟨args, rest, by omega⟩
termination_by (ts.length, 3)

/-- One or more expressions with commas between them. -/
def expressions (ctx : Context) (ts : List Token) : Except CompileError (Read (List Expr) ts) := do
  let ⟨first, rest, h₁⟩ ← expression ctx 1 ts
  if startsWith .delimiter "," rest then
    let ⟨_, rest, h₂⟩ ← consume .delimiter "," rest
    let ⟨others, rest, h₃⟩ ← expressions ctx rest
    .ok ⟨first :: others, rest, by omega⟩
  else .ok ⟨[first], rest, h₁⟩
termination_by (ts.length, 2)

/-- An operand and every operator after it that binds at least as tightly as `floor`. -/
def expression (ctx : Context) (floor : Int) (ts : List Token) :
    Except CompileError (Read Expr ts) := do
  let ⟨left, rest, h₁⟩ ← primary ctx ts
  let ⟨whole, rest, h₂⟩ ← climb ctx floor left rest
  .ok ⟨whole, rest, by omega⟩
termination_by (ts.length, 1)

/-- Extends the operand `left` by the operators that bind at least as tightly as `floor`. -/
def climb (ctx : Context) (floor : Int) (left : Expr) (ts : List Token) :
    Except CompileError (Peek Expr ts) :=
  match ts with
  | [] => .ok ⟨left, [], by simp⟩
  | t :: rest =>
    match link? ctx.inStream t with
    | none => .ok ⟨left, t :: rest, by simp⟩
    | some link =>
      if (link.precedence : Int) < floor then .ok ⟨left, t :: rest, by simp⟩
      else
        match link with
        | .member op => do
          let ⟨field, rest, h₁⟩ ← consumeKind .identifier rest
          let ⟨node, rest, h₂⟩ ← chain ctx (.member op left field.text) rest
          let ⟨whole, rest, h₃⟩ ← climb ctx floor node rest
          .ok ⟨whole, rest, by simp only [List.length_cons]; omega⟩
        | .assign op =>
          if left.isAssignable then do
            let ⟨value, rest, h₁⟩ ← expression ctx 0 rest
            let ⟨whole, rest, h₂⟩ ← climb ctx floor (.assign op left value) rest
            .ok ⟨whole, rest, by simp only [List.length_cons]; omega⟩
          else .error (.assignedOperation t)
        | .scope => do
          let ⟨right, rest, h₁⟩ ← expression ctx (Link.scope.precedence + 1) rest
          let ⟨whole, rest, h₂⟩ ← climb ctx floor (.scope left right) rest
          .ok ⟨whole, rest, by simp only [List.length_cons]; omega⟩
        | .binary op => do
          let ⟨right, rest, h₁⟩ ← expression ctx (op.precedence + 1) rest
          let ⟨whole, rest, h₂⟩ ← climb ctx floor (.binary op left right) rest
          .ok ⟨whole, rest, by simp only [List.length_cons]; omega⟩
termination_by (ts.length, 0)

end

end ConsoleCpp.Parser

/-
The expression parsers without the lengths their results carry. A view of a result is the value
with the tokens left over, and each parser has one equation between views: its own steps, and the
views of the parsers it calls. Facts about parsers are proved from these equations.
-/
import ConsoleCpp.Parser.Expression

namespace ConsoleCpp.Parser

/-! ## Results -/

variable {α : Type} {ts : List Token}

/-- What was read and the tokens after it. -/
def seen (result : Except CompileError (Read α ts)) : Except CompileError (α × List Token) :=
  result.map fun r => (r.value, r.rest)

/-- What was read, if anything, and the tokens after it. -/
def glimpsed (result : Except CompileError (Peek α ts)) : Except CompileError (α × List Token) :=
  result.map fun r => (r.value, r.rest)

theorem ok_of_seen {result : Except CompileError (Read α ts)} {value : α} {rest : List Token}
    (h : seen result = .ok (value, rest)) : ∃ shorter, result = .ok ⟨value, rest, shorter⟩ := by
  cases result with
  | error _ => cases h
  | ok read =>
    obtain ⟨v, r, hl⟩ := read
    cases h
    exact ⟨hl, rfl⟩

theorem error_of_seen {result : Except CompileError (Read α ts)} {e : CompileError}
    (h : seen result = .error e) : result = .error e := by
  cases result with
  | error _ =>
    cases h
    rfl
  | ok _ => cases h

/-- A view of two steps is two views, if the second step only looks at the view of the first. -/
theorem map_bind_of {ε α α' β β' : Type} {x : Except ε α} {k : α → Except ε β} {f : α → α'}
    {g : β → β'} {k' : α' → Except ε β'} (h : ∀ a, (k a).map g = k' (f a)) :
    (x >>= k).map g = x.map f >>= k' := by
  cases x with
  | error _ => rfl
  | ok a => exact h a

/-- The same when the first step has no view of its own. -/
theorem map_then_of {ε α β β' : Type} {x : Except ε α} {k : α → Except ε β} {g : β → β'}
    {k' : α → Except ε β'} (h : ∀ a, (k a).map g = k' a) : (x >>= k).map g = x >>= k' := by
  cases x with
  | error _ => rfl
  | ok a => exact h a

/-- The same when the second step only packs the result of the first. -/
theorem map_last_of {ε α β β' : Type} {x : Except ε α} {k : α → Except ε β} {f : α → β'}
    {g : β → β'} (h : ∀ a, (k a).map g = .ok (f a)) : (x >>= k).map g = x.map f := by
  cases x with
  | error _ => rfl
  | ok a => exact h a

/-! ## Tokens -/

theorem seen_consume (kind : Token.Kind) (text : String) {t : Token} (rest : List Token)
    (h : t.isA kind text = true) : seen (consume kind text (t :: rest)) = .ok (t, rest) := by
  simp only [consume, if_pos h]
  rfl

theorem Context.enter_ok {ctx : Context} {t : Token} (h : (ctx.depth + 1 : Nat) ≤ ctx.maxDepth) :
    ctx.enter t = .ok { ctx with depth := ctx.depth + 1 } := by
  unfold Context.enter
  rw [if_neg (by omega)]

/-! ## Operands -/

/-- Something between two brackets, the first of which is taken already. -/
def enclosed (ctx : Context) (close : String) (ts : List Token) :
    Except CompileError (Expr × List Token) := do
  let inner ← seen (expression ctx.bracketed 1 ts)
  let last ← seen (consume .delimiter close inner.2)
  return (inner.1, last.2)

/-- What `new` makes, from its type on. -/
def created (ctx : Context) (ts : List Token) : Except CompileError (Expr × List Token) := do
  let typeName ← seen (newType ts)
  if startsWith .delimiter "[" typeName.2 then
    let open' ← seen (consume .delimiter "[" typeName.2)
    let size ← enclosed ctx "]" open'.2
    return (.newArray typeName.1 size.1, size.2)
  else if startsWith .delimiter "(" typeName.2 then
    let open' ← seen (consume .delimiter "(" typeName.2)
    let close ← seen (consume .delimiter ")" open'.2)
    return (.newObject typeName.1, close.2)
  else return (.newObject typeName.1, typeName.2)

/-- An operand that starts with `t`, by the kind of `t`. -/
def operand (ctx : Context) (t : Token) (rest : List Token) :
    Except CompileError (Expr × List Token) :=
  match t.kind with
  | .operator =>
    match UnaryOp.ofText? t.text with
    | none => .error (.notAnOperand t)
    | some op => do
      let inner ← seen (primary ctx rest)
      match op, inner.1.isAssignable with
      | .step _, false => .error (.notSteppable t)
      | _, _ => return (.unary op inner.1, inner.2)
  | .number => return (.number t.text, rest)
  | .string => return (.string t.text false, rest)
  | .char => return (.char t.text, rest)
  | .identifier => glimpsed (variableOperand ctx t.text rest)
  | .keyword =>
    if t.text == "true" then return (.bool true, rest)
    else if t.text == "false" then return (.bool false, rest)
    else if t.text == "endl" then return (.endl, rest)
    else if t.text == "new" then created ctx rest
    else .error (.notAnOperand t)
  | .delimiter =>
    if t.text == "(" then enclosed ctx ")" rest
    else if t.text == "[" then do
      let inner ← enclosed ctx "]" rest
      return (.list inner.1, inner.2)
    else .error (.notAnOperand t)
  | _ => .error (.notAnOperand t)

theorem seen_primary_cons (ctx : Context) (t : Token) (rest : List Token) :
    seen (primary ctx (t :: rest)) = ctx.enter t >>= fun ctx => operand ctx t rest := by
  rw [primary]
  refine map_then_of fun ctx => ?_
  unfold operand
  cases t.kind with
  | operator =>
    cases UnaryOp.ofText? t.text with
    | none => rfl
    | some op =>
      refine map_bind_of fun read => ?_
      obtain ⟨inner, _, _⟩ := read
      dsimp only
      cases op <;> cases inner.isAssignable <;> rfl
  | identifier => exact map_last_of fun _ => rfl
  | keyword =>
    dsimp only
    split
    · rfl
    split
    · rfl
    split
    · rfl
    split
    · refine map_bind_of fun read => ?_
      obtain ⟨_, _, _⟩ := read
      dsimp only
      split
      · refine map_bind_of fun _ => ?_
        simp only [enclosed, bind_assoc]
        exact map_bind_of fun _ => map_bind_of fun _ => rfl
      · split
        · exact map_bind_of fun _ => map_bind_of fun _ => rfl
        · rfl
    · rfl
  | delimiter =>
    dsimp only
    split
    · exact map_bind_of fun _ => map_bind_of fun _ => rfl
    split
    · simp only [enclosed, bind_assoc]
      exact map_bind_of fun _ => map_bind_of fun _ => rfl
    · rfl
  | header | number | string | char | stream | scope => rfl

section

variable {ctx : Context} {t : Token} {rest : List Token}

theorem operand_number (hk : t.kind = .number) : operand ctx t rest = .ok (.number t.text, rest) := by
  unfold operand
  rw [hk]
  rfl

theorem operand_identifier (hk : t.kind = .identifier) :
    operand ctx t rest = glimpsed (variableOperand ctx t.text rest) := by
  unfold operand
  rw [hk]

theorem operand_paren (h : t.isA .delimiter "(" = true) : operand ctx t rest = enclosed ctx ")" rest := by
  rw [Token.isA, Bool.and_eq_true, beq_iff_eq, beq_iff_eq] at h
  unfold operand
  rw [h.1, h.2]
  rfl

/-- A prefix operator takes an operand, and a step only one that can be stored to. -/
theorem operand_unary {op : UnaryOp} {inner : Expr} {after : List Token} (hk : t.kind = .operator)
    (ho : UnaryOp.ofText? t.text = some op) (hi : seen (primary ctx rest) = .ok (inner, after))
    (ha : ∀ step, op = .step step → inner.isAssignable = true) :
    operand ctx t rest = .ok (.unary op inner, after) := by
  unfold operand
  rw [hk, ho]
  dsimp only
  rw [hi]
  cases op with
  | step op =>
    simp only [bind, Except.bind, ha op rfl]
    rfl
  | sign op => rfl

end

/-! ## Variables -/

/-- An assignment or a step of `node`, if one follows. -/
def stored (ctx : Context) (node : Expr) : List Token → Except CompileError (Expr × List Token)
  | [] => return (node, [])
  | t :: rest =>
    match t.kind, StepOp.ofText? t.text, AssignOp.ofText? t.text with
    | .operator, some op, _ =>
      if node.isAssignable then return (.stepAfter op node, rest) else .error (.notAssignable t)
    | .operator, none, some op =>
      if node.isAssignable then do
        let value ← seen (expression ctx 0 rest)
        return (.assign op node value.1, value.2)
      else .error (.notAssignable t)
    | _, _, _ => return (node, t :: rest)

theorem glimpsed_variableOperand (ctx : Context) (id : String) (ts : List Token) :
    glimpsed (variableOperand ctx id ts) =
      glimpsed (chain ctx (.name id) ts) >>= fun node => stored ctx node.1 node.2 := by
  rw [variableOperand]
  refine map_bind_of fun read => ?_
  obtain ⟨node, rest, h⟩ := read
  unfold stored
  cases rest with
  | nil => rfl
  | cons t rest =>
    dsimp only
    cases t.kind with
    | operator =>
      cases StepOp.ofText? t.text with
      | some op => cases node.isAssignable <;> rfl
      | none =>
        cases AssignOp.ofText? t.text with
        | none => rfl
        | some op =>
          cases node.isAssignable with
          | false => rfl
          | true => exact map_bind_of fun _ => rfl
    | header | keyword | identifier | number | char | string | stream | scope | delimiter => rfl

/-- The next call, element or member of `node`, or `none` if no such thing follows. -/
def extended (ctx : Context) (node : Expr) (t : Token) (rest : List Token) :
    Option (Except CompileError (Expr × List Token)) :=
  if t.isA .delimiter "(" then some do
    let args ← glimpsed (arguments ctx.bracketed rest)
    let close ← seen (consume .delimiter ")" args.2)
    return (.call node args.1, close.2)
  else if t.isA .delimiter "[" then some do
    let key ← enclosed ctx "]" rest
    return (.index node key.1, key.2)
  else
    match t.kind, MemberOp.ofText? t.text with
    | .operator, some op => some do
      let field ← seen (consumeKind .identifier rest)
      return (.member op node field.1.text, field.2)
    | _, _ => none

theorem glimpsed_chain_nil (ctx : Context) (node : Expr) :
    glimpsed (chain ctx node []) = .ok (node, []) := by
  rw [chain]
  rfl

theorem glimpsed_chain_cons (ctx : Context) (node : Expr) (t : Token) (rest : List Token) :
    glimpsed (chain ctx node (t :: rest)) =
      match extended ctx node t rest with
      | none => .ok (node, t :: rest)
      | some more => more >>= fun longer => glimpsed (chain ctx longer.1 longer.2) := by
  rw [chain]
  unfold extended
  split
  · simp only [bind_assoc]
    exact map_bind_of fun _ => map_bind_of fun _ => map_last_of fun _ => rfl
  split
  · simp only [enclosed, bind_assoc]
    exact map_bind_of fun _ => map_bind_of fun _ => map_last_of fun _ => rfl
  cases t.kind with
  | operator =>
    cases MemberOp.ofText? t.text with
    | none => rfl
    | some op =>
      simp only [bind_assoc]
      exact map_bind_of fun _ => map_last_of fun _ => rfl
  | header | keyword | identifier | number | char | string | stream | scope | delimiter => rfl

/-- An operator after a variable that is not the start of a member. -/
theorem glimpsed_variableOperand_operator {ctx : Context} {id : String} {t : Token}
    {rest : List Token} (hk : t.kind = .operator) (hm : MemberOp.ofText? t.text = none) :
    glimpsed (variableOperand ctx id (t :: rest)) = stored ctx (.name id) (t :: rest) := by
  have he : extended ctx (.name id) t rest = none := by
    simp [extended, Token.isA, hk, hm]
  rw [glimpsed_variableOperand, glimpsed_chain_cons, he]
  rfl

/-! ## Operators -/

theorem seen_expression (ctx : Context) (floor : Int) (ts : List Token) :
    seen (expression ctx floor ts) =
      seen (primary ctx ts) >>= fun left => glimpsed (climb ctx floor left.1 left.2) := by
  rw [expression]
  exact map_bind_of fun _ => map_last_of fun _ => rfl

/-- The arguments of a call: none before the closing parenthesis. -/
theorem glimpsed_arguments (ctx : Context) (ts : List Token) :
    glimpsed (arguments ctx ts) =
      if startsWith .delimiter ")" ts then .ok ([], ts) else seen (expressions ctx ts) := by
  rw [arguments]
  split
  · rfl
  · exact map_last_of fun _ => rfl

theorem seen_expressions (ctx : Context) (ts : List Token) :
    seen (expressions ctx ts) = do
      let first ← seen (expression ctx 1 ts)
      if startsWith .delimiter "," first.2 then
        let comma ← seen (consume .delimiter "," first.2)
        let others ← seen (expressions ctx comma.2)
        return (first.1 :: others.1, others.2)
      else return ([first.1], first.2) := by
  rw [expressions]
  refine map_bind_of fun read => ?_
  obtain ⟨first, rest, _⟩ := read
  dsimp only
  split
  · exact map_bind_of fun _ => map_bind_of fun _ => rfl
  · rfl

/-- The operand `left` with what `link`, written as `t`, joins to it. -/
def joined (ctx : Context) (left : Expr) (t : Token) (rest : List Token) :
    Link → Except CompileError (Expr × List Token)
  | .member op => do
    let field ← seen (consumeKind .identifier rest)
    glimpsed (chain ctx (.member op left field.1.text) field.2)
  | .assign op =>
    if left.isAssignable then do
      let value ← seen (expression ctx 0 rest)
      return (.assign op left value.1, value.2)
    else .error (.assignedOperation t)
  | .scope => do
    let right ← seen (expression ctx (Link.scope.precedence + 1) rest)
    return (.scope left right.1, right.2)
  | .binary op => do
    let right ← seen (expression ctx (op.precedence + 1) rest)
    return (.binary op left right.1, right.2)

theorem glimpsed_climb_nil (ctx : Context) (floor : Int) (left : Expr) :
    glimpsed (climb ctx floor left []) = .ok (left, []) := by
  rw [climb]
  rfl

theorem glimpsed_climb_cons (ctx : Context) (floor : Int) (left : Expr) (t : Token)
    (rest : List Token) :
    glimpsed (climb ctx floor left (t :: rest)) =
      match link? ctx.inStream t with
      | none => .ok (left, t :: rest)
      | some link =>
        if (link.precedence : Int) < floor then .ok (left, t :: rest)
        else
          joined ctx left t rest link >>= fun whole => glimpsed (climb ctx floor whole.1 whole.2) := by
  rw [climb]
  cases link? ctx.inStream t with
  | none => rfl
  | some link =>
    dsimp only
    split
    · rfl
    unfold joined
    cases link with
    | member op =>
      simp only [bind_assoc]
      exact map_bind_of fun _ => map_bind_of fun _ => map_last_of fun _ => rfl
    | assign op =>
      dsimp only
      split
      · simp only [bind_assoc]
        exact map_bind_of fun _ => map_last_of fun _ => rfl
      · rfl
    | scope =>
      simp only [bind_assoc]
      exact map_bind_of fun _ => map_last_of fun _ => rfl
    | binary op =>
      simp only [bind_assoc]
      exact map_bind_of fun _ => map_last_of fun _ => rfl

end ConsoleCpp.Parser

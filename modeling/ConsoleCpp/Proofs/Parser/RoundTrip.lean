/-
The tokens of a rendered expression are parsed into this expression. The parser takes every rendered
expression as one operand. One that stands in parentheses ends there; a variable, a call and an
element are followed by more of their chain, or by a step or an assignment, and what is read then is
the same as if the parser had stood behind the expression with the expression in its hands. The
induction is over the expression.
-/
import ConsoleCpp.Proofs.Parser.Rendering

namespace ConsoleCpp.Parser

/-! ## Behind an operand -/

/-- What is read once the parser stands behind the operand `e`. -/
def continued (ctx : Context) (e : Expr) (rest : List Token) :
    Except CompileError (Expr × List Token) :=
  if e.isBare then glimpsed (chain ctx e rest) >>= fun node => stored ctx node.1 node.2
  else .ok (e, rest)

/-- A token that neither continues a chain nor stores. -/
structure Stops (t : Token) (rest : List Token) : Prop where
  chain : ∀ ctx node, extended ctx node t rest = none
  store : ∀ ctx node, stored ctx node (t :: rest) = .ok (node, t :: rest)

section

variable {ctx : Context} {e : Expr} {t : Token} {ts rest : List Token}

theorem isA_of_ne {kind kind' : Token.Kind} {text text' : String}
    (h : t.spelling = (kind, text)) (hne : (kind', text') ≠ (kind, text)) :
    t.isA kind' text' = false := by
  obtain ⟨rfl, rfl⟩ := Prod.mk.inj h
  by_contra hi
  rw [Bool.not_eq_false, Token.isA, Bool.and_eq_true, beq_iff_eq, beq_iff_eq] at hi
  exact hne (by rw [hi.1, hi.2])

theorem stops_close {text : String} (hm : text ∈ closers) (h : t.spelling = (.delimiter, text)) :
    Stops t rest :=
  ⟨fun ctx node => (spelling_close hm h).2.1 ctx node rest,
    fun ctx node => (spelling_close hm h).2.2 ctx node rest⟩

theorem stops_operator {op : BinaryOp} (h : t.spelling = op.spelling) : Stops t rest :=
  ⟨fun ctx node => (spelling_operator h).2.1 ctx node rest,
    fun ctx node => (spelling_operator h).2.2 ctx node rest⟩

theorem link_scope (h : t.spelling = (.scope, "::")) : link? false t = some .scope := by
  obtain ⟨kind, text, offset⟩ := t
  obtain ⟨rfl, rfl⟩ := Prod.mk.inj h
  rfl

theorem stops_scope (h : t.spelling = (.scope, "::")) : Stops t rest := by
  obtain ⟨kind, text, offset⟩ := t
  obtain ⟨rfl, rfl⟩ := Prod.mk.inj h
  exact ⟨fun _ _ => rfl, fun _ _ => rfl⟩

theorem continued_bare (h : e.isBare = true) : continued ctx e rest =
    glimpsed (chain ctx e rest) >>= fun node => stored ctx node.1 node.2 :=
  if_pos h

/-- An operator that starts no member ends the chain. -/
theorem continued_operator (h : e.isBare = true) (hk : t.kind = .operator)
    (hm : MemberOp.ofText? t.text = none) :
    continued ctx e (t :: rest) = stored ctx e (t :: rest) := by
  have he : extended ctx e t rest = none := by
    simp [extended, Token.isA, hk, hm]
  rw [continued_bare h, glimpsed_chain_cons, he]
  rfl

/-- A call, an element or a member that follows belongs to the chain. -/
theorem continued_extended {longer : Expr} {after : List Token} (h : e.isBare = true)
    (he : extended ctx e t rest = some (.ok (longer, after))) : continued ctx e (t :: rest) =
      glimpsed (chain ctx longer after) >>= fun node => stored ctx node.1 node.2 := by
  rw [continued_bare h, glimpsed_chain_cons, he]
  rfl

theorem chain_stops (h : Stops t rest) :
    glimpsed (chain ctx e (t :: rest)) = .ok (e, t :: rest) := by
  rw [glimpsed_chain_cons, h.chain]

theorem continued_stops (h : Stops t rest) : continued ctx e (t :: rest) = .ok (e, t :: rest) := by
  unfold continued
  split
  · rw [chain_stops h]
    exact h.store ctx e
  · rfl

theorem continued_nil : continued ctx e [] = .ok (e, []) := by
  unfold continued
  split
  · rw [glimpsed_chain_nil]
    rfl
  · rfl

/-- There is room for as many levels as there are tokens. -/
def Room (ctx : Context) (ts : List Token) : Prop := (ctx.depth + ts.length : Nat) ≤ ctx.maxDepth

theorem Room.deeper {inner : List Token} (h : Room ctx ts) (hl : inner.length < ts.length) :
    Room ctx.deeper inner := by
  unfold Room at *
  simp only [Context.deeper]
  omega

theorem Room.part {inner : List Token} (h : Room ctx ts) (hl : inner.length ≤ ts.length) :
    Room ctx inner := by
  unfold Room at *
  omega

/-- Between brackets there is room for what stands there. -/
theorem Room.inside {left right : Token} {inner : List Token}
    (h : Room ctx (left :: (inner ++ [right]))) : Room ctx.deeper.bracketed inner := by
  refine h.deeper ?_
  rw [List.length_cons, List.length_append]
  omega

theorem Room.seen_primary {us : List Token} (h : Room ctx (t :: ts)) :
    seen (primary ctx (t :: us)) = operand ctx.deeper t us := by
  have he : ctx.enter t = .ok ctx.deeper := by
    unfold Room at h
    rw [List.length_cons] at h
    exact Context.enter_ok (by omega)
  rw [seen_primary_cons, he]
  rfl

end

/-! ## Operands -/

/-- The tokens of the expression are taken as one operand, and what follows continues it. -/
def Operand (e : Expr) : Prop :=
  ∀ ⦃ctx ts rest⦄, ts.map Token.spelling = e.written → Room ctx ts →
    seen (primary ctx (ts ++ rest)) = continued ctx.deeper e rest

namespace Operand

variable {e : Expr} {ctx : Context} {close : Token} {ts rest : List Token} {text : String}

theorem primary (h : Operand e) (hs : ts.map Token.spelling = e.written) (hr : Room ctx ts)
    (ht : Stops close rest) :
    seen (Parser.primary ctx (ts ++ close :: rest)) = .ok (e, close :: rest) := by
  rw [h hs hr, continued_stops ht]

/-- An expression that is an operand and ends at a closing token. -/
theorem expression (h : Operand e) (hs : ts.map Token.spelling = e.written) (hr : Room ctx ts)
    (ho : ctx.inStream = false) (hm : text ∈ closers) (hc : close.spelling = (.delimiter, text))
    (floor : Int) :
    seen (Parser.expression ctx floor (ts ++ close :: rest)) = .ok (e, close :: rest) := by
  rw [seen_expression, h.primary hs hr (stops_close hm hc)]
  show glimpsed (climb ctx floor e (close :: rest)) = _
  rw [glimpsed_climb_cons, ho, (spelling_close hm hc).1]

end Operand

/-- The tokens between a first and a last one. -/
theorem split_brackets {ts : List Token} {first last : Token.Kind × String}
    {middle : List (Token.Kind × String)}
    (h : ts.map Token.spelling = first :: (middle ++ [last])) :
    ∃ left inner right, ts = left :: (inner ++ [right]) ∧ left.spelling = first ∧
      inner.map Token.spelling = middle ∧ right.spelling = last := by
  obtain ⟨left, others, rfl, hl, hothers⟩ := List.map_eq_cons_iff.1 h
  obtain ⟨inner, ends, rfl, hi, hends⟩ := List.map_eq_append_iff.1 hothers
  obtain ⟨right, rfl, hr⟩ := List.map_eq_singleton_iff.1 hends
  exact ⟨left, inner, right, rfl, hl, hi, hr⟩

section

variable {e : Expr} {ctx : Context} {left right : Token} {inner rest : List Token}

theorem enclosed_ok {text : String} (hr : right.spelling = (.delimiter, text))
    (h : seen (expression ctx.bracketed 1 (inner ++ right :: rest)) = .ok (e, right :: rest)) :
    enclosed ctx text (inner ++ right :: rest) = .ok (e, rest) := by
  unfold enclosed
  rw [h]
  show (seen (consume .delimiter text (right :: rest)) >>= _) = _
  rw [seen_consume _ _ rest (isA_of_spelling hr)]
  rfl

/-- What is read in parentheses is an operand. -/
theorem primary_enclosed (hl : left.spelling = (.delimiter, "("))
    (hr : right.spelling = (.delimiter, ")")) (hroom : Room ctx (left :: (inner ++ [right])))
    (h : seen (expression ctx.deeper.bracketed 1 (inner ++ right :: rest)) =
      .ok (e, right :: rest)) :
    seen (primary ctx (left :: (inner ++ [right]) ++ rest)) = .ok (e, rest) := by
  rw [List.cons_append, List.append_assoc, hroom.seen_primary, operand_paren (isA_of_spelling hl)]
  exact enclosed_ok hr h

/-- At a closing token an expression ends. -/
theorem climb_close {floor : Int} {text : String} (ho : ctx.inStream = false)
    (hm : text ∈ closers) (hr : right.spelling = (.delimiter, text)) :
    glimpsed (climb ctx floor e (right :: rest)) = .ok (e, right :: rest) := by
  rw [glimpsed_climb_cons, ho, (spelling_close hm hr).1]

/-- An operator and its right side are joined to the operand before them. -/
theorem climb_joined {t : Token} {after : List Token} {link : Link} {whole : Expr} {text : String}
    (ho : ctx.inStream = false) (hl : link? false t = some link) (hp : 1 ≤ link.precedence)
    (hj : joined ctx e t after link = .ok (whole, right :: rest)) (hm : text ∈ closers)
    (hr : right.spelling = (.delimiter, text)) :
    glimpsed (climb ctx 1 e (t :: after)) = .ok (whole, right :: rest) := by
  rw [glimpsed_climb_cons, ho, hl]
  dsimp only
  rw [if_neg (by omega), hj]
  exact climb_close ho hm hr

theorem seen_consumeKind {t : Token} {kind : Token.Kind} (h : t.kind = kind) :
    seen (consumeKind kind (t :: rest)) = .ok (t, rest) := by
  rw [consumeKind, if_pos (by rw [h]; exact beq_self_eq_true kind)]
  rfl

/-- The token of a member operator. -/
theorem spelling_member {t : Token} {op : MemberOp} (h : t.spelling = (.operator, op.text)) :
    link? false t = some (.member op) ∧ ∀ ctx node rest, extended ctx node t rest = some do
      let field ← seen (consumeKind .identifier rest)
      return (.member op node field.1.text, field.2) := by
  obtain ⟨kind, text, offset⟩ := t
  obtain ⟨rfl, rfl⟩ := Prod.mk.inj h
  cases op <;> exact ⟨rfl, fun _ _ _ => rfl⟩

theorem seen_newType {t : Token} {typeName : String} (h : t.spelling = Expr.typeSpelling typeName) :
    seen (newType (t :: rest)) = .ok (typeName, rest) := by
  unfold Expr.typeSpelling at h
  obtain ⟨hk, rfl⟩ := Prod.mk.inj h
  unfold newType
  dsimp only
  split at hk
  · rename_i hd
    rw [hk, hd, if_pos (by decide)]
    rfl
  · rw [hk, if_neg (by simp), if_pos (by decide)]
    rfl

end

/-! ## Arguments -/

theorem expressions_written {others : List Expr} : ∀ {e : Expr} {ctx : Context} {ts : List Token}
    {right : Token} {rest : List Token}, (∀ arg ∈ e :: others, Operand arg) →
    ts.map Token.spelling = Expr.writtenAll (e :: others) → Room ctx ts → ctx.inStream = false →
    right.spelling = (.delimiter, ")") →
    seen (expressions ctx (ts ++ right :: rest)) = .ok (e :: others, right :: rest) := by
  induction others with
  | nil =>
    intro e ctx ts right rest h hs hr ho hright
    have hno : startsWith .delimiter "," (right :: rest) = false := isA_of_ne hright (by decide)
    rw [seen_expressions, (h e List.mem_cons_self).expression hs hr ho (by decide) hright]
    show (if startsWith .delimiter "," (right :: rest) then _ else _) = _
    rw [hno, if_neg Bool.false_ne_true]
    rfl
  | cons next others ih =>
    intro e ctx ts right rest h hs hr ho hright
    rw [Expr.writtenAll] at hs
    obtain ⟨before, tail, rfl, hbefore, htail⟩ := List.map_eq_append_iff.1 hs
    obtain ⟨comma, after, rfl, hcomma, hafter⟩ := List.map_eq_cons_iff.1 htail
    -- the first argument ends at the comma, and behind it the others are read alike
    have hfirst : seen (expression ctx 1 (before ++ comma :: (after ++ right :: rest))) =
        .ok (e, comma :: (after ++ right :: rest)) :=
      (h e List.mem_cons_self).expression hbefore (hr.part (by simp)) ho (by decide) hcomma _
    have hrest : seen (expressions ctx (after ++ right :: rest)) =
        .ok (next :: others, right :: rest) :=
      ih (fun arg hm => h arg (.tail _ hm)) hafter (hr.part (by simp; omega)) ho hright
    rw [List.append_assoc, List.cons_append, seen_expressions, hfirst]
    show (if startsWith .delimiter "," (comma :: (after ++ right :: rest)) then _ else _) = _
    rw [startsWith, isA_of_spelling hcomma, if_pos rfl, seen_consume _ _ _ (isA_of_spelling hcomma)]
    show (seen (expressions ctx (after ++ right :: rest)) >>= _) = _
    rw [hrest]
    rfl

/-- No expression starts with a closing parenthesis. -/
theorem written_head : ∀ e : Expr, ∃ first rest, e.written = first :: rest ∧
    (.delimiter, ")") ≠ first
  | .call callee args => by
    obtain ⟨first, rest, hw, hne⟩ := written_head callee
    exact ⟨first, _, by rw [Expr.written, hw]; rfl, hne⟩
  | .index target key => by
    obtain ⟨first, rest, hw, hne⟩ := written_head target
    exact ⟨first, _, by rw [Expr.written, hw]; rfl, hne⟩
  | .number _ | .string _ _ | .char _ | .bool _ | .name _ | .newObject _ | .newArray _ _ => by
    rw [Expr.written]
    exact ⟨_, _, rfl, nofun⟩
  | .unary _ _ | .stepAfter _ _ | .binary _ _ _ | .assign _ _ _ | .member _ _ _ | .scope _ _
  | .list _ => by
    rw [Expr.written]
    exact ⟨_, _, rfl, by decide⟩

theorem writtenAll_head (e : Expr) (others : List Expr) : ∃ first rest,
    Expr.writtenAll (e :: others) = first :: rest ∧ (.delimiter, ")") ≠ first := by
  obtain ⟨first, rest, hw, hne⟩ := written_head e
  cases others with
  | nil => exact ⟨first, rest, hw, hne⟩
  | cons next others => exact ⟨first, _, by rw [Expr.writtenAll, hw]; rfl, hne⟩

/-- The arguments of a call are read up to its closing parenthesis. -/
theorem arguments_written {args : List Expr} {ctx : Context} {ts : List Token} {right : Token}
    {rest : List Token} (h : ∀ arg ∈ args, Operand arg)
    (hs : ts.map Token.spelling = Expr.writtenAll args) (hr : Room ctx ts)
    (ho : ctx.inStream = false) (hright : right.spelling = (.delimiter, ")")) :
    glimpsed (arguments ctx (ts ++ right :: rest)) = .ok (args, right :: rest) := by
  cases args with
  | nil =>
    obtain rfl := List.map_eq_nil_iff.1 hs
    have hstart : startsWith .delimiter ")" (right :: rest) = true := isA_of_spelling hright
    rw [glimpsed_arguments, List.nil_append, hstart, if_pos rfl]
  | cons e others =>
    obtain ⟨first, tail, hw, hne⟩ := writtenAll_head e others
    have hstart : startsWith .delimiter ")" (ts ++ right :: rest) = false := by
      obtain ⟨t, after, rfl, ht, -⟩ := List.map_eq_cons_iff.1 (hs.trans hw)
      exact isA_of_ne ht hne
    rw [glimpsed_arguments, hstart, if_neg Bool.false_ne_true]
    exact expressions_written h hs hr ho hright

/-! ## One form after another -/

/-- The tokens of two parts in parentheses with a token between them. -/
theorem split_between {ts : List Token} {first second : List (Token.Kind × String)}
    {middle : Token.Kind × String}
    (h : ts.map Token.spelling = Expr.bracketed "(" ")" (first ++ middle :: second)) :
    ∃ left before t after right, ts = left :: (before ++ t :: after ++ [right]) ∧
      left.spelling = (.delimiter, "(") ∧ before.map Token.spelling = first ∧
      t.spelling = middle ∧ after.map Token.spelling = second ∧
      right.spelling = (.delimiter, ")") := by
  obtain ⟨left, inner, right, rfl, hleft, hinner, hright⟩ := split_brackets h
  obtain ⟨before, others, rfl, hbefore, hothers⟩ := List.map_eq_append_iff.1 hinner
  obtain ⟨t, after, rfl, ht, hafter⟩ := List.map_eq_cons_iff.1 hothers
  exact ⟨left, before, t, after, right, rfl, hleft, hbefore, ht, hafter, hright⟩

namespace Operand

variable {e target value key callee size : Expr}

/-- A token that is an operand on its own. -/
theorem of_token {kind : Token.Kind} {text : String} (hw : e.written = [(kind, text)])
    (h : ∀ ctx t rest, t.kind = kind → t.text = text →
      operand ctx t rest = continued ctx e rest) : Operand e := by
  intro ctx ts rest hs hr
  rw [hw] at hs
  obtain ⟨t, rfl, ht⟩ := List.map_eq_singleton_iff.1 hs
  obtain ⟨hk, ht⟩ := Prod.mk.inj ht
  rw [List.singleton_append, hr.seen_primary]
  exact h ctx.deeper t rest hk ht

theorem number (text : String) : Operand (.number text) := by
  refine of_token rfl fun ctx t rest hk ht => ?_
  subst ht
  exact operand_number hk

theorem string (text : String) : Operand (.string text false) := by
  refine of_token rfl fun ctx t rest hk ht => ?_
  rw [operand, hk, ht]
  rfl

theorem char (text : String) : Operand (.char text) := by
  refine of_token rfl fun ctx t rest hk ht => ?_
  rw [operand, hk, ht]
  rfl

theorem bool (value : Bool) : Operand (.bool value) := by
  refine of_token rfl fun ctx t rest hk ht => ?_
  rw [operand, hk, ht]
  cases value <;> rfl

theorem name (id : String) : Operand (.name id) := by
  refine of_token rfl fun ctx t rest hk ht => ?_
  rw [operand_identifier hk, ht, glimpsed_variableOperand]
  rfl

/-- An operator before its operand. A step needs one that can be stored to. -/
theorem unary {op : UnaryOp} (he : Operand e)
    (ha : ∀ step, op = .step step → e.isAssignable = true) : Operand (.unary op e) := by
  intro ctx ts rest hs hr
  change ts.map Token.spelling = Expr.bracketed "(" ")" ((.operator, op.text) :: e.written) at hs
  obtain ⟨left, inner, right, rfl, hl, hi, hright⟩ := split_brackets hs
  obtain ⟨t, ts, rfl, ht, hts⟩ := List.map_eq_cons_iff.1 hi
  obtain ⟨hk, ht⟩ := Prod.mk.inj ht
  have hroom : Room ctx.deeper.bracketed (t :: ts) := hr.inside
  -- the operand of a prefix is read alone, so the climb behind it finds the closing parenthesis
  have hop : seen (Parser.primary ctx.deeper.bracketed.deeper (ts ++ right :: rest)) =
      .ok (e, right :: rest) :=
    he.primary hts (hroom.deeper (by simp)) (stops_close (by decide) hright)
  refine primary_enclosed hl hright hr ?_
  rw [seen_expression, List.cons_append, hroom.seen_primary,
    operand_unary hk (by rw [ht, unaryOp_ofText]) hop ha]
  exact climb_close rfl (by decide) hright

/-- A step after its operand. -/
theorem stepAfter (op : StepOp) (he : Operand e) (hb : e.isBare = true)
    (ha : e.isAssignable = true) : Operand (.stepAfter op e) := by
  intro ctx ts rest hs hr
  change ts.map Token.spelling = Expr.bracketed "(" ")" (e.written ++ [(.operator, op.text)]) at hs
  obtain ⟨left, before, t, after, right, rfl, hl, hbefore, ht, hafter, hright⟩ := split_between hs
  obtain rfl := List.map_eq_nil_iff.1 hafter
  obtain ⟨hk, ht⟩ := Prod.mk.inj ht
  obtain ⟨ho, hm⟩ := stepOp_ofText op
  have hroom : Room ctx.deeper.bracketed (before ++ [t]) := hr.inside
  refine primary_enclosed hl hright hr ?_
  rw [seen_expression, List.append_assoc, List.singleton_append,
    he hbefore (hroom.part (by simp)), continued_operator hb hk (by rw [ht, hm])]
  simp only [stored, hk, ht, ho, ha]
  exact climb_close rfl (by decide) hright

/-- Two operands that the token between them joins. -/
theorem of_link (link : Link) (middle : Token.Kind × String) {first second : Expr}
    (hfirst : Operand first) (hsecond : Operand second) (hb : e.isBare = false)
    (hw : e.written = Expr.bracketed "(" ")" (first.written ++ middle :: second.written))
    (hm : ∀ t, t.spelling = middle → link? false t = some link ∧ ∀ rest, Stops t rest)
    (hp : 1 ≤ link.precedence)
    (hj : ∀ ctx t after rest,
      seen (Parser.expression ctx (link.precedence + 1) after) = .ok (second, rest) →
      joined ctx first t after link = .ok (e, rest)) : Operand e := by
  intro ctx ts rest hs hr
  rw [hw] at hs
  obtain ⟨left, before, t, after, right, rfl, hl, hbefore, ht, hafter, hright⟩ := split_between hs
  obtain ⟨hlink, hstops⟩ := hm t ht
  have hroom : Room ctx.deeper.bracketed (before ++ t :: after) := hr.inside
  have hvalue : seen (Parser.expression ctx.deeper.bracketed (link.precedence + 1)
      (after ++ right :: rest)) = .ok (second, right :: rest) :=
    hsecond.expression hafter (hroom.part (by simp; omega)) rfl (by decide) hright _
  rw [continued, hb, if_neg Bool.false_ne_true]
  refine primary_enclosed hl hright hr ?_
  rw [seen_expression, List.append_assoc, List.cons_append,
    hfirst.primary hbefore (hroom.part (by simp)) (hstops _)]
  exact climb_joined rfl hlink hp (hj _ _ _ _ hvalue) (by decide) hright

theorem binary (op : BinaryOp) {left right : Expr} (hl : Operand left) (hr : Operand right) :
    Operand (.binary op left right) := by
  refine of_link (.binary op) op.spelling hl hr rfl rfl
    (fun t ht => ⟨(spelling_operator ht).1, fun _ => stops_operator ht⟩)
    (Expr.precedence_bounds op).1 fun ctx t after rest h => ?_
  rw [Link.precedence] at h
  rw [joined, h]
  rfl

theorem scope {left right : Expr} (hl : Operand left) (hr : Operand right) :
    Operand (.scope left right) := by
  refine of_link .scope (.scope, "::") hl hr rfl rfl
    (fun t ht => ⟨link_scope ht, fun _ => stops_scope ht⟩) (by decide) fun ctx t after rest h => ?_
  rw [joined, h]
  rfl

/-- An assignment belongs to the operand that it stores to. -/
theorem assign (op : AssignOp) (ht : Operand target) (hv : Operand value)
    (hb : target.isBare = true) (ha : target.isAssignable = true) :
    Operand (.assign op target value) := by
  intro ctx ts rest hs hr
  change ts.map Token.spelling =
    Expr.bracketed "(" ")" (target.written ++ (.operator, op.text) :: value.written) at hs
  obtain ⟨left, before, t, after, right, rfl, hl, hbefore, ht', hafter, hright⟩ := split_between hs
  obtain ⟨hk, ht'⟩ := Prod.mk.inj ht'
  obtain ⟨hstep, ho, hm⟩ := assignOp_ofText op
  -- the value is read one level down, and from the floor 0
  have hroom : Room ctx.deeper.bracketed (before ++ t :: after) := hr.inside
  have hvalue : seen (Parser.expression ctx.deeper.bracketed.deeper 0 (after ++ right :: rest)) =
      .ok (value, right :: rest) :=
    hv.expression hafter (hroom.deeper (by simp; omega)) rfl (by decide) hright _
  refine primary_enclosed hl hright hr ?_
  rw [seen_expression, List.append_assoc, List.cons_append, ht hbefore (hroom.part (by simp)),
    continued_operator hb hk (by rw [ht', hm])]
  simp only [stored, hk, ht', hstep, ho, ha, hvalue]
  exact climb_close rfl (by decide) hright

/-- A variable, call or element goes on with what stands in brackets after it. -/
theorem of_suffix {opening closing : String} {middle : List (Token.Kind × String)} {longer : Expr}
    (he : Operand e) (hb : e.isBare = true) (hl : longer.isBare = true)
    (hw : longer.written = e.written ++ Expr.bracketed opening closing middle)
    (hx : ∀ ctx left inner right rest, left.spelling = (.delimiter, opening) →
      inner.map Token.spelling = middle → right.spelling = (.delimiter, closing) →
      Room ctx.bracketed inner →
      extended ctx e left (inner ++ right :: rest) = some (.ok (longer, rest))) :
    Operand longer := by
  intro ctx ts rest hs hr
  rw [hw] at hs
  obtain ⟨before, others, rfl, hbefore, hothers⟩ := List.map_eq_append_iff.1 hs
  obtain ⟨left, inner, right, rfl, hleft, hinner, hright⟩ := split_brackets hothers
  have hpart : Room ctx (left :: (inner ++ [right])) := hr.part (by simp)
  rw [List.append_assoc, List.cons_append, List.append_assoc, he hbefore (hr.part (by simp)),
    List.singleton_append,
    continued_extended hb (hx _ left inner right rest hleft hinner hright hpart.inside),
    continued_bare hl]

theorem call {args : List Expr} (hc : Operand callee) (hb : callee.isBare = true)
    (hargs : ∀ arg ∈ args, Operand arg) : Operand (.call callee args) := by
  refine of_suffix hc hb rfl rfl
    fun ctx left inner right rest hleft hinner hright hroom => ?_
  unfold extended
  rw [if_pos (isA_of_spelling hleft), arguments_written hargs hinner hroom rfl hright]
  show some (seen (consume .delimiter ")" (right :: rest)) >>= _) = _
  rw [seen_consume _ _ rest (isA_of_spelling hright)]
  rfl

theorem index (ht : Operand target) (hb : target.isBare = true) (hk : Operand key) :
    Operand (.index target key) := by
  refine of_suffix ht hb rfl rfl
    fun ctx left inner right rest hleft hinner hright hroom => ?_
  have hno : left.isA .delimiter "(" = false := isA_of_ne hleft (by decide)
  have hinner : seen (Parser.expression ctx.bracketed 1 (inner ++ right :: rest)) =
      .ok (key, right :: rest) :=
    hk.expression hinner hroom rfl (by decide) hright _
  unfold extended
  rw [hno, if_neg Bool.false_ne_true, if_pos (isA_of_spelling hleft), enclosed_ok hright hinner]
  rfl

/-- A member continues the chain of a bare operand, and is joined to one in parentheses. -/
theorem member (op : MemberOp) (field : String) (ht : Operand target) :
    Operand (.member op target field) := by
  intro ctx ts rest hs hr
  change ts.map Token.spelling =
    Expr.bracketed "(" ")" (target.written ++ [(.operator, op.text), (.identifier, field)]) at hs
  obtain ⟨left, before, t, after, right, rfl, hl, hbefore, ht', hafter, hright⟩ := split_between hs
  obtain ⟨name, rfl, hname⟩ := List.map_eq_singleton_iff.1 hafter
  obtain ⟨hk, rfl⟩ := Prod.mk.inj hname
  obtain ⟨hlink, hext⟩ := spelling_member ht'
  have hroom : Room ctx.deeper.bracketed (before ++ [t, name]) := hr.inside
  have hstop : Stops right rest := stops_close (by decide) hright
  have hfield : seen (consumeKind .identifier (name :: right :: rest)) =
      .ok (name, right :: rest) := seen_consumeKind hk
  refine primary_enclosed hl hright hr ?_
  rw [seen_expression, List.append_assoc, ht hbefore (hroom.part (by simp))]
  show (continued _ target (t :: name :: right :: rest) >>= _) = _
  cases hb : target.isBare with
  | true =>
    -- a bare operand is continued by the chain, and nothing is left for the climb
    have hx := hext ctx.deeper.bracketed.deeper target (name :: right :: rest)
    rw [hfield] at hx
    rw [continued_extended hb hx, chain_stops hstop]
    show (stored _ _ (right :: rest) >>= _) = _
    rw [hstop.store]
    exact climb_close rfl (by decide) hright
  | false =>
    -- no chain starts at an operand in parentheses: here the climb joins the member
    rw [continued, hb, if_neg Bool.false_ne_true]
    refine climb_joined rfl hlink (show 1 ≤ 11 by decide) ?_ (by decide) hright
    rw [joined, hfield]
    exact chain_stops hstop

theorem list (he : Operand e) : Operand (.list e) := by
  intro ctx ts rest hs hr
  change ts.map Token.spelling = Expr.bracketed "[" "]" e.written at hs
  obtain ⟨left, inner, right, rfl, hl, hi, hright⟩ := split_brackets hs
  have hinner : seen (Parser.expression ctx.deeper.bracketed 1 (inner ++ right :: rest)) =
      .ok (e, right :: rest) :=
    he.expression hi hr.inside rfl (by decide) hright _
  obtain ⟨hk, ht⟩ := Prod.mk.inj hl
  rw [List.cons_append, List.append_assoc, hr.seen_primary, operand, hk, ht]
  show (enclosed ctx.deeper "]" (inner ++ right :: rest) >>= _) = _
  rw [enclosed_ok hright hinner]
  rfl

/-- What `new` makes of a type and what stands in brackets after it. -/
theorem of_new {opening closing typeName : String} {middle : List (Token.Kind × String)}
    (hbare : e.isBare = false) (hw : e.written =
      (.keyword, "new") :: Expr.typeSpelling typeName :: Expr.bracketed opening closing middle)
    (h : ∀ ctx t left inner right rest, t.spelling = Expr.typeSpelling typeName →
      left.spelling = (.delimiter, opening) → inner.map Token.spelling = middle →
      right.spelling = (.delimiter, closing) → Room ctx.bracketed inner →
      created ctx (t :: left :: (inner ++ right :: rest)) = .ok (e, rest)) : Operand e := by
  intro ctx ts rest hs hr
  rw [hw] at hs
  obtain ⟨new, others, rfl, hnew, hothers⟩ := List.map_eq_cons_iff.1 hs
  obtain ⟨t, brackets, rfl, ht, hbrackets⟩ := List.map_eq_cons_iff.1 hothers
  obtain ⟨left, inner, right, rfl, hleft, hinner, hright⟩ := split_brackets hbrackets
  obtain ⟨hk, hn⟩ := Prod.mk.inj hnew
  have hpart : Room ctx (left :: (inner ++ [right])) := hr.part (by simp)
  rw [List.cons_append, hr.seen_primary, operand, hk, hn, continued, hbare, if_neg (by decide)]
  show created ctx.deeper (t :: left :: (inner ++ [right] ++ rest)) = _
  rw [List.append_assoc]
  exact h _ _ _ _ _ _ ht hleft hinner hright hpart.inside

theorem newObject (typeName : String) : Operand (.newObject typeName) := by
  refine of_new rfl rfl
    fun ctx t left inner right rest ht hleft hinner hright _ => ?_
  obtain rfl := List.map_eq_nil_iff.1 hinner
  have hno : left.isA .delimiter "[" = false := isA_of_ne hleft (by decide)
  rw [List.nil_append, created, seen_newType ht]
  show (if startsWith .delimiter "[" (left :: right :: rest) then _ else _) = _
  rw [startsWith, hno, if_neg Bool.false_ne_true, startsWith, isA_of_spelling hleft, if_pos rfl,
    seen_consume _ _ _ (isA_of_spelling hleft)]
  show (seen (consume .delimiter ")" (right :: rest)) >>= _) = _
  rw [seen_consume _ _ _ (isA_of_spelling hright)]
  rfl

theorem newArray (typeName : String) (hsize : Operand size) :
    Operand (.newArray typeName size) := by
  refine of_new rfl rfl
    fun ctx t left inner right rest ht hleft hinner hright hroom => ?_
  have hinner : seen (Parser.expression ctx.bracketed 1 (inner ++ right :: rest)) =
      .ok (size, right :: rest) :=
    hsize.expression hinner hroom rfl (by decide) hright _
  rw [created, seen_newType ht]
  show (if startsWith .delimiter "[" (left :: (inner ++ right :: rest)) then _ else _) = _
  rw [startsWith, isA_of_spelling hleft, if_pos rfl, seen_consume _ _ _ (isA_of_spelling hleft)]
  show (enclosed ctx "]" (inner ++ right :: rest) >>= _) = _
  rw [enclosed_ok hright hinner]
  rfl

end Operand

mutual

/-- Every renderable expression is taken as one operand. -/
theorem operand_written : ∀ {e : Expr}, e.Renderable → Operand e
  | .number text, _ => .number text
  | .string text isEndl, h => by
    have hplain := (Expr.renderable_iff.1 h).1.2
    cases isEndl with
    | false => exact .string text
    | true => cases hplain
  | .char text, _ => .char text
  | .bool value, _ => .bool value
  | .name id, _ => .name id
  | .unary op e, h => by
    have he : Operand e := operand_written (h.child e (by simp [Expr.children]))
    refine he.unary ?_
    rintro step rfl
    exact (Expr.renderable_iff.1 h).1.1
  | .stepAfter op e, h => by
    have he : Operand e := operand_written (h.child e (by simp [Expr.children]))
    exact he.stepAfter op (h.bare_held rfl) (Expr.renderable_iff.1 h).1.1
  | .binary op left right, h => by
    have hl : Operand left := operand_written (h.child left (by simp [Expr.children]))
    have hr : Operand right := operand_written (h.child right (by simp [Expr.children]))
    exact hl.binary op hr
  | .assign op target value, h => by
    have ht : Operand target := operand_written (h.child target (by simp [Expr.children]))
    have hv : Operand value := operand_written (h.child value (by simp [Expr.children]))
    exact ht.assign op hv (h.bare_held rfl) (Expr.renderable_iff.1 h).1.1
  | .call callee args, h => by
    have hc : Operand callee := operand_written (h.child callee (by simp [Expr.children]))
    refine hc.call (h.bare_held rfl) (operands_written fun arg hm => ?_)
    exact h.child arg (by simp [Expr.children, hm])
  | .member op target field, h => by
    have ht : Operand target := operand_written (h.child target (by simp [Expr.children]))
    exact ht.member op field
  | .scope left right, h => by
    have hl : Operand left := operand_written (h.child left (by simp [Expr.children]))
    have hr : Operand right := operand_written (h.child right (by simp [Expr.children]))
    exact hl.scope hr
  | .index target key, h => by
    have ht : Operand target := operand_written (h.child target (by simp [Expr.children]))
    have hk : Operand key := operand_written (h.child key (by simp [Expr.children]))
    exact ht.index (h.bare_held rfl) hk
  | .list element, h => by
    have he : Operand element := operand_written (h.child element (by simp [Expr.children]))
    exact he.list
  | .newObject typeName, _ => .newObject typeName
  | .newArray typeName size, h => by
    have hs : Operand size := operand_written (h.child size (by simp [Expr.children]))
    exact hs.newArray typeName

theorem operands_written : ∀ {args : List Expr}, (∀ arg ∈ args, arg.Renderable) →
    ∀ arg ∈ args, Operand arg
  | [], _ => nofun
  | e :: rest, h => by
    refine List.forall_mem_cons.2 ⟨operand_written (h e List.mem_cons_self), ?_⟩
    exact operands_written fun arg hm => h arg (.tail _ hm)

end

/-! ## The rendered text -/

/-- Everything that the parser makes of settled tokens is renderable, if it can be told from its
text. -/
theorem Made.renderable {e : Expr} (h : Made e)
    (hf : ∀ node ∈ Node.walkFrom true [.expr e], node.isFaithful = true) : e.Renderable := by
  rintro _ hn part rfl
  exact ⟨h _ hn, hf _ hn⟩

/-- The tokens of the rendered text. -/
theorem tokensOf_render {e : Expr} (h : e.Renderable) :
    ∃ tokens, tokensOf e.render = .ok tokens ∧ tokens.map Token.spelling = e.written := by
  have hread : Token.Rereads none (e.render.toList ++ []) (e.written ++ []) :=
    Expr.rereads_render h rfl nofun (fun _ => nofun) fun _ => .nil
  rw [List.append_nil, List.append_nil] at hread
  obtain ⟨tokens, hscan, hspelled⟩ := hread.scans 0
  refine ⟨tokens, ?_, hspelled⟩
  rw [tokensOf, hread.plain.normalize_eq, Token.scan, hscan]
  rfl

/-- The tokens of a rendered expression are read back as this expression, to their end. -/
theorem expression_written {e : Expr} (h : e.Renderable) {ctx : Context} {tokens : List Token}
    (hs : tokens.map Token.spelling = e.written)
    (hr : (ctx.depth + tokens.length : Nat) ≤ ctx.maxDepth) :
    ∃ shorter, expression ctx 1 tokens = .ok ⟨e, [], shorter⟩ := by
  have hread : seen (primary ctx (tokens ++ [])) = continued ctx.deeper e [] :=
    operand_written h hs hr
  rw [List.append_nil, continued_nil] at hread
  refine ok_of_seen ?_
  rw [seen_expression, hread]
  exact glimpsed_climb_nil ctx 1 e

/-- An expression that the parser returns, wherever in a source text it starts, is read back from
its rendered text as a whole, inside a stream or not, if there is room for as many levels as the
text has tokens. This leaves out what the text does not tell: an `endl`, a member that is called,
indexed, assigned to or stepped, and a point after a number of digits only. No expression starts
right after a number, where a reserved word would be an identifier. -/
theorem expression_render {source : String} {before tokens : List Token}
    (hsource : tokensOf source = .ok (before ++ tokens))
    (hbefore : ∀ t ∈ before.getLast?, t.kind ≠ .number) {ctx : Context} {floor : Int} {e : Expr}
    {rest : List Token} {shorter : rest.length < tokens.length}
    (hparse : expression ctx floor tokens = .ok ⟨e, rest, shorter⟩)
    (hfaithful : ∀ node ∈ Node.walkFrom true [.expr e], node.isFaithful = true) :
    ∃ rendered, tokensOf e.render = .ok rendered ∧
      ∀ again : Context, (again.depth + rendered.length : Nat) ≤ again.maxDepth →
        ∃ shorter, expression again 1 rendered = .ok ⟨e, [], shorter⟩ := by
  have hsettled : Token.Settled false tokens :=
    settled_append (tokensOf_settled hsource) (fun _ => rfl) hbefore
  have hmade : Made e := ((expression_made ctx floor tokens hsettled).ok hparse).1
  have hrenderable : e.Renderable := hmade.renderable hfaithful
  obtain ⟨rendered, htokens, hspelled⟩ := tokensOf_render hrenderable
  exact ⟨rendered, htokens, fun again hroom => expression_written hrenderable hspelled hroom⟩

/-- `a[i] += f(p->q)` -/
def raisedElement : Expr :=
  .assign (.update .add) (.index (.name "a") (.name "i"))
    (.call (.name "f") [.member .arrow (.name "p") "q"])

/-- The tokens of `raisedElement` and the semicolon after it, after `cout << `. -/
def raisedElementTokens : List Token :=
  [⟨.identifier, "a", 8⟩, ⟨.delimiter, "[", 9⟩, ⟨.identifier, "i", 10⟩, ⟨.delimiter, "]", 11⟩,
   ⟨.operator, "+=", 13⟩, ⟨.identifier, "f", 16⟩, ⟨.delimiter, "(", 17⟩, ⟨.identifier, "p", 18⟩,
   ⟨.operator, "->", 19⟩, ⟨.identifier, "q", 21⟩, ⟨.delimiter, ")", 22⟩, ⟨.delimiter, ";", 23⟩]

/-- The tokens are followed through the views of the parsers. -/
theorem seen_raisedElement :
    seen (expression (Context.start 3).streamed 1 raisedElementTokens) =
      .ok (raisedElement, [⟨.delimiter, ";", 23⟩]) := by
  have hmember : MemberOp.ofText? "+=" = none ∧ MemberOp.ofText? "->" = some .arrow := by decide
  have hstore : StepOp.ofText? "+=" = none ∧ AssignOp.ofText? "+=" = some (.update .add) := by
    decide
  simp [raisedElementTokens, raisedElement, Context.enter, Context.start, Context.streamed,
    Context.bracketed, Expr.isAssignable, Token.isA, link?, startsWith, hmember, hstore,
    seen_expression, seen_primary_cons, operand_identifier, glimpsed_variableOperand,
    glimpsed_chain_cons, extended, enclosed, stored, glimpsed_arguments, seen_expressions,
    glimpsed_climb_cons, seen_consume, seen_consumeKind, bind, Except.bind, pure, Except.pure]

theorem expression_render_raisedElement :
    tokensOf "cout << a[i] += f(p->q);" =
      .ok ([⟨.keyword, "cout", 0⟩, ⟨.stream, "<<", 5⟩] ++ raisedElementTokens) ∧
    (∃ shorter, expression (Context.start 3).streamed 1 raisedElementTokens =
      .ok ⟨raisedElement, [⟨.delimiter, ";", 23⟩], shorter⟩) ∧
    ∃ rendered, tokensOf raisedElement.render = .ok rendered ∧
      ∀ again : Context, (again.depth + rendered.length : Nat) ≤ again.maxDepth →
        ∃ shorter, expression again 1 rendered = .ok ⟨raisedElement, [], shorter⟩ := by
  have hsource : tokensOf "cout << a[i] += f(p->q);" =
      .ok ([⟨.keyword, "cout", 0⟩, ⟨.stream, "<<", 5⟩] ++ raisedElementTokens) := by
    cbv
  have hparse : ∃ shorter, expression (Context.start 3).streamed 1 raisedElementTokens =
      .ok ⟨raisedElement, [⟨.delimiter, ";", 23⟩], shorter⟩ :=
    ok_of_seen seen_raisedElement
  have hfaithful : (Node.walkFrom true [.expr raisedElement]).all Node.isFaithful = true := by
    cbv
  obtain ⟨shorter, hparsed⟩ := hparse
  refine ⟨hsource, ⟨shorter, hparsed⟩, ?_⟩
  refine expression_render hsource ?_ hparsed (List.all_eq_true.1 hfaithful)
  intro t ht
  cases ht
  decide

end ConsoleCpp.Parser

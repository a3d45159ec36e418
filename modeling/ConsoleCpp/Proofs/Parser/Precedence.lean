/-
Precedence climbing. An expression is printed with parentheses only where the precedences call for
them, and the parser reads back exactly that expression. An operand that is printed at some floor is
followed by a closing bracket, by the end, or by an operator that does not bind tighter than the
floor; with this much known of what follows, reading an expression is the same as having it and
going on behind it, and the induction is over the expression.
-/
import ConsoleCpp.Proofs.Parser.Views

namespace ConsoleCpp

/-! ## Printing -/

/-- The kind and the text of a token, without its place in the source. -/
def Token.spelling (t : Token) : Token.Kind × String := (t.kind, t.text)

/-- The token of an operator. The shifts share theirs with the streams. -/
def BinaryOp.spelling (op : BinaryOp) : Token.Kind × String :=
  (if op.isShift then .stream else .operator, op.text)

namespace Expr

/-- How tightly the outermost operation holds an expression together. -/
def level : Expr → Nat
  | .assign _ _ _ => 0
  | .binary op _ _ => op.precedence
  | _ => 11

/-- Puts parentheses around what binds less tightly than `floor`. -/
def guarded (floor level : Nat) (tokens : List (Token.Kind × String)) :
    List (Token.Kind × String) :=
  if level < floor then (.delimiter, "(") :: (tokens ++ [(.delimiter, ")")]) else tokens

/-- The tokens of an expression at a place where only what binds at least as tightly as `floor` may
stand without parentheses. -/
def spelled (floor : Nat) : Expr → List (Token.Kind × String)
  | .number text => [(.number, text)]
  | .name id => [(.identifier, id)]
  | .unary op operand => (.operator, op.text) :: spelled 11 operand
  | .stepAfter op operand => spelled 11 operand ++ [(.operator, op.text)]
  | .binary op left right =>
    guarded floor op.precedence
      (spelled op.precedence left ++ op.spelling :: spelled (op.precedence + 1) right)
  | .assign op target value =>
    guarded floor 0 (spelled 11 target ++ (.operator, op.text) :: spelled 0 value)
  | _ => []

/-- Whether an expression is made of numbers, variables, operators, and assignments to and steps of
variables. -/
def isOperation : Expr → Bool
  | .number _ | .name _ | .unary (.step _) (.name _) | .stepAfter _ (.name _) => true
  | .unary (.sign _) operand => isOperation operand
  | .binary _ left right => isOperation left && isOperation right
  | .assign _ (.name _) value => isOperation value
  | _ => false

theorem spelled_of_le {floor : Nat} {e : Expr} (h : floor ≤ e.level) :
    e.spelled floor = e.spelled 0 := by
  cases e with
  | binary op left right | assign op target value =>
    simp only [level] at h
    unfold spelled guarded
    rw [if_neg (by omega), if_neg (by omega)]
  | _ => rfl

theorem spelled_of_lt {floor : Nat} {e : Expr} (h : e.level < floor) (hf : floor ≤ 11) :
    e.spelled floor = (.delimiter, "(") :: (e.spelled 0 ++ [(.delimiter, ")")]) := by
  cases e with
  | binary op left right | assign op target value =>
    simp only [level] at h
    unfold spelled guarded
    rw [if_pos h, if_neg (by omega)]
  | _ => simp only [level] at h; omega

theorem precedence_bounds (op : BinaryOp) : 1 ≤ op.precedence ∧ op.precedence ≤ 10 := by
  cases op <;> decide

end Expr

namespace Parser

open ConsoleCpp.Expr (precedence_bounds)

/-! ## What follows an operand -/

theorem isA_of_spelling {t : Token} {kind : Token.Kind} {text : String}
    (h : t.spelling = (kind, text)) : t.isA kind text = true := by
  obtain ⟨rfl, rfl⟩ := Prod.mk.inj h
  simp [Token.isA]

/-- The token of an operator between operands joins them, and continues neither a chain nor an
assignment. -/
theorem spelling_operator {t : Token} {op : BinaryOp} (h : t.spelling = op.spelling) :
    link? false t = some (.binary op) ∧ (∀ ctx node rest, extended ctx node t rest = none) ∧
      ∀ ctx node rest, stored ctx node (t :: rest) = .ok (node, t :: rest) := by
  obtain ⟨kind, text, offset⟩ := t
  obtain ⟨rfl, rfl⟩ := Prod.mk.inj h
  cases op <;> exact ⟨rfl, fun _ _ _ => rfl, fun _ _ _ => rfl⟩

/-- What closes or separates. -/
def closers : List String := [")", "]", "\x7d", ";", ","]

/-- A closing token joins nothing. -/
theorem spelling_close {t : Token} {text : String} (hm : text ∈ closers)
    (h : t.spelling = (.delimiter, text)) :
    link? false t = none ∧ (∀ ctx node rest, extended ctx node t rest = none) ∧
      ∀ ctx node rest, stored ctx node (t :: rest) = .ok (node, t :: rest) := by
  obtain ⟨kind, text', offset⟩ := t
  obtain ⟨rfl, rfl⟩ := Prod.mk.inj h
  refine ⟨rfl, fun ctx node rest => ?_, fun _ _ _ => rfl⟩
  simp only [closers, List.mem_cons, List.not_mem_nil, or_false] at hm
  rcases hm with rfl | rfl | rfl | rfl | rfl <;> rfl

/-- What may come after an operand that stands at a place with this floor: the end, a closing
bracket or separator, or an operator that does not bind tighter than the floor. -/
inductive Follows (floor : Nat) : List Token → Prop
  | nil : Follows floor []
  | close {t : Token} {text : String} (rest : List Token) :
    text ∈ closers → t.spelling = (.delimiter, text) → Follows floor (t :: rest)
  | operator {t : Token} {op : BinaryOp} (rest : List Token) :
    t.spelling = op.spelling → op.precedence ≤ floor → Follows floor (t :: rest)

namespace Follows

variable {ctx : Context} {floor : Nat} {node : Expr} {rest : List Token}

theorem mono {higher : Nat} (h : Follows floor rest) (hf : floor ≤ higher) : Follows higher rest := by
  cases h with
  | nil => exact .nil
  | close rest hm ht => exact .close rest hm ht
  | operator rest ht hp => exact .operator rest ht (by omega)

/-- A variable is not extended, stored to or stepped by what follows it. -/
theorem variableOperand {id : String} (h : Follows floor rest) :
    glimpsed (Parser.variableOperand ctx id rest) = .ok (.name id, rest) := by
  rw [glimpsed_variableOperand]
  cases h with
  | nil => rw [glimpsed_chain_nil]; rfl
  | close rest hm ht =>
    obtain ⟨-, he, hs⟩ := spelling_close hm ht
    rw [glimpsed_chain_cons, he]
    exact hs ctx (.name id) rest
  | operator rest ht hp =>
    obtain ⟨-, he, hs⟩ := spelling_operator ht
    rw [glimpsed_chain_cons, he]
    exact hs ctx (.name id) rest

/-- A place with a higher floor ends before what follows. -/
theorem climb {higher : Int} (h : Follows floor rest) (hs : ctx.inStream = false)
    (hf : floor < higher ∨ floor = 0) :
    glimpsed (Parser.climb ctx higher node rest) = .ok (node, rest) := by
  cases h with
  | nil => exact glimpsed_climb_nil ctx higher node
  | close rest hm ht => rw [glimpsed_climb_cons, hs, (spelling_close hm ht).1]
  | @operator t op rest ht hp =>
    have hb := (precedence_bounds op).1
    rw [glimpsed_climb_cons, hs, (spelling_operator ht).1]
    exact if_pos (by simp only [Link.precedence]; omega)

end Follows

/-! ## Reading back -/

/-- The tokens stand outside a stream, and there is room for as many levels as there are tokens. -/
structure Fits (ctx : Context) (ts : List Token) : Prop where
  outside : ctx.inStream = false
  room : (ctx.depth + ts.length : Nat) ≤ ctx.maxDepth

/-- One level further in. -/
def Context.deeper (ctx : Context) : Context := { ctx with depth := ctx.depth + 1 }

namespace Fits

variable {ctx : Context} {t : Token} {ts us : List Token}

theorem enter (h : Fits ctx (t :: ts)) : ctx.enter t = .ok ctx.deeper := by
  have hr := h.room
  rw [List.length_cons] at hr
  exact Context.enter_ok (by omega)

theorem seen_primary (h : Fits ctx (t :: ts)) {us : List Token} :
    seen (primary ctx (t :: us)) = operand ctx.deeper t us := by
  rw [seen_primary_cons, h.enter]
  rfl

theorem part (h : Fits ctx ts) (hl : us.length ≤ ts.length) : Fits ctx us := by
  have hr := h.room
  exact ⟨h.outside, by omega⟩

theorem deeper (h : Fits ctx ts) (hl : us.length < ts.length) : Fits ctx.deeper us := by
  have hr := h.room
  exact ⟨h.outside, by simp only [Context.deeper]; omega⟩

theorem bracketed (h : Fits ctx ts) : Fits ctx.bracketed ts := ⟨rfl, h.room⟩

end Fits

/-- The tokens of an expression without parentheses around it are read as this expression: as an
operand, unless it is an operation between two, and as the start of a longer expression. -/
structure ReadBack (e : Expr) : Prop where
  operand : (∀ op left right, e ≠ .binary op left right) → ∀ {ctx ts rest},
    ts.map Token.spelling = e.spelled 0 → Follows e.level rest → Fits ctx ts →
    seen (primary ctx (ts ++ rest)) = .ok (e, rest)
  whole : ∀ {ctx ts rest} {floor : Int}, ts.map Token.spelling = e.spelled 0 →
    floor ≤ max e.level 1 → Follows e.level rest → Fits ctx ts →
    seen (expression ctx floor (ts ++ rest)) = glimpsed (climb ctx floor e rest)

namespace ReadBack

variable {ctx : Context} {e : Expr} {ts rest : List Token} {floor : Nat}

theorem of_operand (h : ∀ {ctx ts rest}, ts.map Token.spelling = e.spelled 0 →
    Follows e.level rest → Fits ctx ts → seen (primary ctx (ts ++ rest)) = .ok (e, rest)) :
    ReadBack e := by
  refine ⟨fun _ => h, fun hs _ hf hc => ?_⟩
  rw [seen_expression, h hs hf hc]
  rfl

/-- In parentheses, every expression is an operand. -/
theorem enclosed (h : ReadBack e)
    (hs : ts.map Token.spelling = (.delimiter, "(") :: (e.spelled 0 ++ [(.delimiter, ")")]))
    (hc : Fits ctx ts) : seen (primary ctx (ts ++ rest)) = .ok (e, rest) := by
  obtain ⟨first, others, rfl, hfirst, hothers⟩ := List.map_eq_cons_iff.1 hs
  obtain ⟨inner, last, rfl, hinner, hlast⟩ := List.map_eq_append_iff.1 hothers
  obtain ⟨close, none, rfl, hl, hnone⟩ := List.map_eq_cons_iff.1 hlast
  obtain rfl := List.map_eq_nil_iff.1 hnone
  have hf : Follows 0 (close :: rest) := .close rest (by decide) hl
  have hlt : inner.length < (first :: (inner ++ [close])).length := by
    rw [List.length_cons, List.length_append]
    omega
  have hi : Fits ctx.deeper.bracketed inner := (hc.deeper hlt).bracketed
  have he : seen (expression ctx.deeper.bracketed 1 (inner ++ close :: rest)) =
      .ok (e, close :: rest) := by
    -- inside the brackets the floor is the lowest one, and the bracket ends the expression
    rw [h.whole hinner (by omega) (hf.mono (by omega)) hi]
    exact hf.climb rfl (.inl (by decide))
  rw [List.cons_append, List.append_assoc, hc.seen_primary, operand_paren (isA_of_spelling hfirst)]
  show Parser.enclosed ctx.deeper ")" (inner ++ close :: rest) = _
  unfold Parser.enclosed
  rw [he]
  show (seen (consume .delimiter ")" (close :: rest)) >>= _) = _
  rw [seen_consume _ _ rest (isA_of_spelling hl)]
  rfl

/-- Every expression is read back as the start of a longer one. -/
theorem expression (h : ReadBack e) {higher : Int} (hl : floor ≤ 11)
    (hs : ts.map Token.spelling = e.spelled floor) (hh : higher ≤ max floor 1)
    (hf : Follows floor rest) (hc : Fits ctx ts) :
    seen (Parser.expression ctx higher (ts ++ rest)) = glimpsed (climb ctx higher e rest) := by
  by_cases he : floor ≤ e.level
  · rw [Expr.spelled_of_le he] at hs
    exact h.whole hs (by omega) (hf.mono he) hc
  · rw [Expr.spelled_of_lt (by omega) hl] at hs
    rw [seen_expression, h.enclosed hs hc]
    rfl

/-- Every expression that stands as an operand of a prefix operator is read back as an operand. -/
theorem primary (h : ReadBack e) (hs : ts.map Token.spelling = e.spelled 11)
    (hf : Follows 11 rest) (hc : Fits ctx ts) :
    seen (Parser.primary ctx (ts ++ rest)) = .ok (e, rest) := by
  by_cases he : 11 ≤ e.level
  · rw [Expr.spelled_of_le he] at hs
    refine h.operand ?_ hs (hf.mono he) hc
    -- an operation between two binds less tightly than a prefix operator
    rintro op left right rfl
    have := (precedence_bounds op).2
    simp only [Expr.level] at he
    omega
  · rw [Expr.spelled_of_lt (by omega) (Nat.le_refl _)] at hs
    exact h.enclosed hs hc

end ReadBack

theorem unaryOp_ofText (op : UnaryOp) : UnaryOp.ofText? op.text = some op := by
  rcases op with op | op <;> cases op <;> rfl

theorem stepOp_ofText (op : StepOp) :
    StepOp.ofText? op.text = some op ∧ MemberOp.ofText? op.text = none := by
  cases op <;> exact ⟨rfl, rfl⟩

theorem assignOp_ofText (op : AssignOp) : StepOp.ofText? op.text = none ∧
    AssignOp.ofText? op.text = some op ∧ MemberOp.ofText? op.text = none := by
  rcases op with _ | op
  · exact ⟨rfl, rfl, rfl⟩
  · cases op <;> exact ⟨rfl, rfl, rfl⟩

/-- A step takes a variable only. -/
theorem steppable {op : UnaryOp} {e : Expr} (h : (Expr.unary op e).isOperation = true) :
    e.isOperation = true ∧ ∀ step, op = .step step → e.isAssignable = true := by
  cases op with
  | sign op => exact ⟨h, fun _ => nofun⟩
  | step op =>
    cases e with
    | name id => exact ⟨rfl, fun _ _ => rfl⟩
    | _ => cases h

/-- Every expression made of operations is read back. -/
theorem readBack : ∀ {e : Expr}, e.isOperation = true → ReadBack e
  | .number text, _ => .of_operand fun hs hf hc => by
    obtain ⟨t, rfl, ht⟩ := List.map_eq_singleton_iff.1 hs
    obtain ⟨hk, rfl⟩ := Prod.mk.inj ht
    rw [List.singleton_append, hc.seen_primary]
    exact operand_number hk
  | .name id, _ => .of_operand fun hs hf hc => by
    obtain ⟨t, rfl, ht⟩ := List.map_eq_singleton_iff.1 hs
    obtain ⟨hk, rfl⟩ := Prod.mk.inj ht
    rw [List.singleton_append, hc.seen_primary, operand_identifier hk]
    exact hf.variableOperand
  | .unary op e, h => .of_operand fun hs hf hc => by
    obtain ⟨t, others, rfl, ht, hothers⟩ := List.map_eq_cons_iff.1 hs
    obtain ⟨hk, ht⟩ := Prod.mk.inj ht
    obtain ⟨he, ha⟩ := steppable h
    rw [List.cons_append, hc.seen_primary]
    refine operand_unary hk (by rw [ht, unaryOp_ofText]) ?_ ha
    exact (readBack he).primary hothers hf (hc.deeper (by simp))
  | .stepAfter op (.name id), _ => .of_operand fun hs hf hc => by
    obtain ⟨t, others, rfl, ht, hothers⟩ := List.map_eq_cons_iff.1 hs
    obtain ⟨step, rfl, hstep⟩ := List.map_eq_singleton_iff.1 hothers
    obtain ⟨hk, rfl⟩ := Prod.mk.inj ht
    obtain ⟨hk', ht'⟩ := Prod.mk.inj hstep
    obtain ⟨ho, hm⟩ := stepOp_ofText op
    rw [List.cons_append, List.singleton_append, hc.seen_primary, operand_identifier hk,
      glimpsed_variableOperand_operator hk' (by rw [ht', hm])]
    simp only [stored, hk', ht', ho]
    rfl
  | .assign op (.name id) value, h => .of_operand fun {ctx ts rest} hs hf hc => by
    obtain ⟨t, others, rfl, ht, hothers⟩ := List.map_eq_cons_iff.1 hs
    obtain ⟨equals, text, rfl, hequals, htext⟩ := List.map_eq_cons_iff.1 hothers
    obtain ⟨hk, rfl⟩ := Prod.mk.inj ht
    obtain ⟨hk', ht'⟩ := Prod.mk.inj hequals
    obtain ⟨hs', ho, hm⟩ := assignOp_ofText op
    have hv : seen (expression ctx.deeper 0 (text ++ rest)) = .ok (value, rest) := by
      have hlt : text.length < (t :: equals :: text).length := by
        rw [List.length_cons, List.length_cons]
        omega
      have hd : Fits ctx.deeper text := hc.deeper hlt
      have hb : value.isOperation = true := h
      have hf : Follows 0 rest := hf
      rw [(readBack hb).expression (by omega) htext (by omega) hf hd]
      exact hf.climb hd.outside (.inr rfl)
    rw [List.cons_append, List.cons_append, hc.seen_primary, operand_identifier hk,
      glimpsed_variableOperand_operator hk' (by rw [ht', hm])]
    simp only [stored, hk', ht', hs', ho, hv]
    rfl
  | .binary op left right, h => ⟨fun hb => absurd rfl (hb op left right),
    fun {ctx ts rest floor} hs hh hf hc => by
    rw [Expr.isOperation, Bool.and_eq_true] at h
    rw [Expr.spelled, Expr.guarded, if_neg (by omega)] at hs
    obtain ⟨before, others, rfl, hbefore, hothers⟩ := List.map_eq_append_iff.1 hs
    obtain ⟨t, after, rfl, ht, hafter⟩ := List.map_eq_cons_iff.1 hothers
    have hp := precedence_bounds op
    have hh : floor ≤ op.precedence := by simp only [Expr.level] at hh; omega
    have hf : Follows op.precedence rest := hf
    -- The left operand ends at the operator, and the right one at what follows the whole.
    have hl : Follows op.precedence (t :: (after ++ rest)) := .operator _ ht (Nat.le_refl _)
    have hr : seen (expression ctx (op.precedence + 1) (after ++ rest)) = .ok (right, rest) := by
      rw [(readBack h.2).expression (by omega) hafter (by omega) (hf.mono (by omega))
        (hc.part (by rw [List.length_append, List.length_cons]; omega))]
      exact hf.climb hc.outside (.inl (by omega))
    rw [List.append_assoc, List.cons_append,
      (readBack h.1).expression (by omega) hbefore (by omega) hl (hc.part (by simp)),
      glimpsed_climb_cons, hc.outside, (spelling_operator ht).1]
    dsimp only
    rw [if_neg (by simp only [Link.precedence]; omega), joined, hr]
    rfl⟩

/-- The tokens of an expression, printed with no more parentheses than the precedences call for, are
read back as this expression, and reading stops at their end: at the end of the input or at a
closing bracket or separator. -/
theorem expression_spelled {e : Expr} (h : e.isOperation = true) {ctx : Context}
    {ts rest : List Token} (hs : ts.map Token.spelling = e.spelled 0)
    (ho : ctx.inStream = false) (hd : (ctx.depth + ts.length : Nat) ≤ ctx.maxDepth)
    (hr : ∀ t ∈ rest.head?, t.kind = .delimiter ∧ t.text ∈ closers) :
    ∃ shorter, expression ctx 1 (ts ++ rest) = .ok ⟨e, rest, shorter⟩ := by
  have hf : Follows 0 rest := by
    cases rest with
    | nil => exact .nil
    | cons t rest =>
      obtain ⟨hk, ht⟩ := hr t rfl
      exact .close rest ht (by rw [Token.spelling, hk])
  refine ok_of_seen ?_
  rw [(readBack h).expression (by omega) hs (by omega) hf ⟨ho, hd⟩]
  exact hf.climb ho (.inl (by decide))

/-- `a = 1 << (b += -c++ - (2 - 3))` -/
def shiftedSum : Expr :=
  .assign .set (.name "a") (.binary .shiftLeft (.number "1")
    (.assign (.update .add) (.name "b") (.binary .sub
      (.unary (.sign .minus) (.stepAfter .increment (.name "c")))
      (.binary .sub (.number "2") (.number "3")))))

/-- The tokens of `shiftedSum`. -/
def shiftedSumTokens : List Token :=
  [⟨.identifier, "a", 0⟩, ⟨.operator, "=", 2⟩, ⟨.number, "1", 4⟩, ⟨.stream, "<<", 6⟩,
   ⟨.delimiter, "(", 9⟩, ⟨.identifier, "b", 10⟩, ⟨.operator, "+=", 12⟩, ⟨.operator, "-", 15⟩,
   ⟨.identifier, "c", 16⟩, ⟨.operator, "++", 17⟩, ⟨.operator, "-", 20⟩, ⟨.delimiter, "(", 22⟩,
   ⟨.number, "2", 23⟩, ⟨.operator, "-", 25⟩, ⟨.number, "3", 27⟩, ⟨.delimiter, ")", 28⟩,
   ⟨.delimiter, ")", 29⟩]

theorem expression_spelled_shiftedSum :
    shiftedSum.isOperation = true ∧ shiftedSumTokens.map Token.spelling = shiftedSum.spelled 0 ∧
    ∃ shorter, expression (Context.start 17) 1 (shiftedSumTokens ++ [⟨.delimiter, ";", 30⟩]) =
      .ok ⟨shiftedSum, [⟨.delimiter, ";", 30⟩], shorter⟩ := by
  have hb : shiftedSum.isOperation = true := rfl
  have hs : shiftedSumTokens.map Token.spelling = shiftedSum.spelled 0 := by decide
  refine ⟨hb, hs, expression_spelled hb hs rfl (by decide) ?_⟩
  intro t ht
  cases ht
  decide

end Parser

end ConsoleCpp

/-
The nesting limit only cuts off. Two parses of the same tokens, one of which may nest deeper, take
the same steps up to the point where the stricter one gives up; so what the stricter one accepts or
refuses for another reason, the other accepts or refuses in the same way. The report of a passed
limit is never turned into that of another error: a statement hands it on as it is.
-/
import ConsoleCpp.Parser.Statement
import ConsoleCpp.Proofs.Parser.Views
import Mathlib

namespace ConsoleCpp

/-! ## Reports -/

namespace CompileError

/-- A passed nesting limit. -/
def isTooDeep : CompileError → Bool
  | .tooDeep _ _ => true
  | _ => false

/-- No passed nesting limit stands behind the error as its cause. -/
def Frank : CompileError → Prop
  | .invalidStatement _ cause => cause.isTooDeep = false ∧ cause.Frank
  | _ => True

/-- A passed limit is handed on. -/
theorem inStatement_tooDeep {e : CompileError} (first : Token) (h : e.isTooDeep = true) :
    e.inStatement first = e := by
  cases e <;> first | rfl | cases h

/-- An error that becomes the cause of another is no passed limit, for such a one is handed on. -/
theorem Frank.inStatement {e : CompileError} (first : Token) (h : e.Frank) :
    (e.inStatement first).Frank := by
  cases e <;> trivial

end CompileError

namespace Parser

/-- `strict` is `loose`, except that it may have been cut off at a nesting limit, which it then
reports openly. -/
def CutOff {α : Type} (strict loose : Except CompileError α) : Prop :=
  match strict with
  | .ok a => loose = .ok a
  | .error e => e.Frank ∧ (e.isTooDeep = true ∨ loose = .error e)

namespace CutOff

variable {α β : Type} {x y : Except CompileError α} {f g : α → Except CompileError β}

/-- Two parses that take the same step are not cut off in it. -/
theorem ok (a : α) : CutOff (.ok a : Except CompileError α) (.ok a) := rfl

/-- A refusal for a reason of its own is the same with any limit. -/
theorem error {e : CompileError} (h : e.Frank) :
    CutOff (.error e : Except CompileError α) (.error e) :=
  ⟨h, .inr rfl⟩

/-- Where the stricter parse goes on, the other has come to the same result and goes on from there.
-/
theorem bind (h : CutOff x y) (hf : ∀ a, CutOff (f a) (g a)) : CutOff (x >>= f) (y >>= g) := by
  cases x with
  | ok a =>
    obtain rfl : y = .ok a := h
    exact hf a
  | error e =>
    refine ⟨h.1, h.2.imp_right ?_⟩
    rintro rfl
    rfl

/-- Without a passed limit there has been no cut. -/
theorem eq_of_ne (h : CutOff x y) (hn : ∀ e, x = .error e → e.isTooDeep = false) : y = x := by
  cases x with
  | ok a => exact h
  | error e =>
    rcases h.2 with hd | rfl
    · rw [hn e rfl] at hd
      cases hd
    · rfl

theorem frank {e : CompileError} (h : CutOff x y) (he : x = .error e) : e.Frank := by
  subst he
  exact h.1

end CutOff

/-- The same place with another nesting limit. -/
def Context.allowing (ctx : Context) (limit : Int) : Context := { ctx with maxDepth := limit }

/-- Going one level further in is where a limit cuts off. -/
theorem CutOff.enter {α : Type} {ctx : Context} {limit : Int} {t : Token}
    {f g : Context → Except CompileError α} (h : ctx.maxDepth ≤ limit)
    (hf : ∀ inner : Context, inner.maxDepth ≤ limit → CutOff (f inner) (g (inner.allowing limit))) :
    CutOff (ctx.enter t >>= f) ((ctx.allowing limit).enter t >>= g) := by
  by_cases hd : ctx.maxDepth < (ctx.depth + 1 : Nat)
  · -- here the stricter parse gives up, whatever the other does
    rw [Context.enter, if_pos hd]
    exact ⟨trivial, .inl rfl⟩
  · have hl : ((ctx.allowing limit).depth + 1 : Nat) ≤ (ctx.allowing limit).maxDepth :=
      Int.le_trans (Int.not_lt.1 hd) h
    rw [Context.enter_ok (Int.not_lt.1 hd), Context.enter_ok hl]
    exact hf _ h

/-- Where as many tokens can be nested at least. -/
structure Roomier (ctx ctx' : Context) : Prop where
  stream : ctx'.inStream = ctx.inStream
  room : ctx.maxDepth - ctx.depth ≤ ctx'.maxDepth - ctx'.depth

namespace Roomier

variable {ctx ctx' : Context}

/-- A higher limit leaves more room at every place. -/
theorem allowing {limit : Int} (h : ctx.maxDepth ≤ limit) : Roomier ctx (ctx.allowing limit) :=
  ⟨rfl, Int.sub_le_sub_right h _⟩

/-- Brackets end a stream and take no room. -/
theorem bracketed (h : Roomier ctx ctx') : Roomier ctx.bracketed ctx'.bracketed := ⟨rfl, h.room⟩

/-- A stream takes no room either. -/
theorem streamed (h : Roomier ctx ctx') : Roomier ctx.streamed ctx'.streamed := ⟨rfl, h.room⟩

/-- One level further in there is one token less to go, on either side. -/
theorem enter {α : Type} {t : Token} {f g : Context → Except CompileError α} (h : Roomier ctx ctx')
    (hf : ∀ {inner inner' : Context}, Roomier inner inner' → CutOff (f inner) (g inner')) :
    CutOff (ctx.enter t >>= f) (ctx'.enter t >>= g) := by
  have hroom := h.room
  by_cases hd : ctx.maxDepth < (ctx.depth + 1 : Nat)
  · rw [Context.enter, if_pos hd]
    exact ⟨trivial, .inl rfl⟩
  · rw [Context.enter_ok (Int.not_lt.1 hd), Context.enter_ok (by omega)]
    exact hf ⟨h.stream, by simp only; omega⟩

end Roomier

/-! ## Single tokens -/

section

variable {ts : List Token}

/-- A token that is missing is no matter of nesting. -/
theorem cutOff_consume (kind : Token.Kind) (text : String) :
    CutOff (consume kind text ts) (consume kind text ts) := by
  unfold consume
  split
  · exact .error trivial
  · split
    · exact .ok _
    · exact .error trivial

theorem cutOff_consumeKind (kind : Token.Kind) :
    CutOff (consumeKind kind ts) (consumeKind kind ts) := by
  unfold consumeKind
  split
  · exact .error trivial
  · split
    · exact .ok _
    · exact .error trivial

theorem cutOff_newType : CutOff (newType ts) (newType ts) := by
  unfold newType
  split
  · exact .error trivial
  · split
    · exact .ok _
    · split
      · exact .ok _
      · exact .error trivial

theorem cutOff_typeName : CutOff (typeName ts) (typeName ts) := by
  unfold typeName
  dsimp only
  split
  · exact .error trivial
  · split
    · exact .ok _
    · exact .error trivial

end

/-! ## Expressions -/

mutual

/-- An operand is where expressions go one level further in. -/
theorem primary_cutOff {ctx ctx' : Context} (ts : List Token) (h : Roomier ctx ctx') :
    CutOff (primary ctx ts) (primary ctx' ts) := by
  match ts with
  | [] =>
    rw [primary, primary]
    exact .error trivial
  | t :: rest =>
    rw [primary, primary]
    refine h.enter fun h => ?_
    cases t.kind with
    | operator =>
      cases UnaryOp.ofText? t.text with
      | none => exact .error trivial
      | some op =>
        refine (primary_cutOff rest h).bind fun ⟨operand, after, _⟩ => ?_
        dsimp only
        split
        · exact .error trivial
        · exact .ok _
    | number | string | char => exact .ok _
    | identifier =>
      exact (variableOperand_cutOff t.text rest h).bind fun _ => .ok _
    | keyword =>
      dsimp only
      split
      · exact .ok _
      split
      · exact .ok _
      split
      · exact .ok _
      split
      · refine cutOff_newType.bind fun ⟨typeName, after, _⟩ => ?_
        dsimp only
        split
        · refine (cutOff_consume _ _).bind fun ⟨_, after, _⟩ => ?_
          refine (expression_cutOff 1 after h.bracketed).bind fun _ => ?_
          exact (cutOff_consume _ _).bind fun _ => .ok _
        · split
          · exact (cutOff_consume _ _).bind fun _ => (cutOff_consume _ _).bind fun _ => .ok _
          · exact .ok _
      · exact .error trivial
    | delimiter =>
      dsimp only
      split
      · refine (expression_cutOff 1 rest h.bracketed).bind fun _ => ?_
        exact (cutOff_consume _ _).bind fun _ => .ok _
      split
      · refine (expression_cutOff 1 rest h.bracketed).bind fun _ => ?_
        exact (cutOff_consume _ _).bind fun _ => .ok _
      · exact .error trivial
    | header | stream | scope => exact .error trivial
termination_by (ts.length, 0)
decreasing_by all_goals decreasing_with omega

/-- An assignment to a variable reads its value at the level of the variable. -/
theorem variableOperand_cutOff {ctx ctx' : Context} (id : String) (ts : List Token)
    (h : Roomier ctx ctx') :
    CutOff (variableOperand ctx id ts) (variableOperand ctx' id ts) := by
  rw [variableOperand, variableOperand]
  refine (chain_cutOff (.name id) ts h).bind fun ⟨node, rest, h₁⟩ => ?_
  match rest, h₁ with
  | [], _ => exact .ok _
  | t :: rest, h₁ =>
    dsimp only
    split
    · split
      · exact .ok _
      · exact .error trivial
    · split
      · exact (expression_cutOff 0 rest h).bind fun _ => .ok _
      · exact .error trivial
    · exact .ok _
termination_by (ts.length, 3)

/-- Calls, elements and members that follow an operand are no deeper than it. -/
theorem chain_cutOff {ctx ctx' : Context} (node : Expr) (ts : List Token)
    (h : Roomier ctx ctx') :
    CutOff (chain ctx node ts) (chain ctx' node ts) := by
  match ts with
  | [] =>
    rw [chain, chain]
    exact .ok _
  | t :: rest =>
    rw [chain, chain]
    split
    · refine (arguments_cutOff rest h.bracketed).bind fun ⟨args, after, _⟩ => ?_
      refine (cutOff_consume _ _).bind fun ⟨_, after, _⟩ => ?_
      exact (chain_cutOff (.call node args) after h).bind fun _ => .ok _
    split
    · refine (expression_cutOff 1 rest h.bracketed).bind fun ⟨key, after, _⟩ => ?_
      refine (cutOff_consume _ _).bind fun ⟨_, after, _⟩ => ?_
      exact (chain_cutOff (.index node key) after h).bind fun _ => .ok _
    split
    · rename_i op _ _
      refine (cutOff_consumeKind _).bind fun ⟨field, after, _⟩ => ?_
      exact (chain_cutOff (.member op node field.text) after h).bind fun _ => .ok _
    · exact .ok _
termination_by (ts.length, 0)
decreasing_by all_goals decreasing_with omega

theorem arguments_cutOff {ctx ctx' : Context} (ts : List Token)
    (h : Roomier ctx ctx') : CutOff (arguments ctx ts) (arguments ctx' ts) := by
  rw [arguments, arguments]
  split
  · exact .ok _
  · exact (expressions_cutOff ts h).bind fun _ => .ok _
termination_by (ts.length, 3)
decreasing_by all_goals decreasing_with omega

theorem expressions_cutOff {ctx ctx' : Context} (ts : List Token)
    (h : Roomier ctx ctx') :
    CutOff (expressions ctx ts) (expressions ctx' ts) := by
  rw [expressions, expressions]
  refine (expression_cutOff 1 ts h).bind fun ⟨first, after, _⟩ => ?_
  dsimp only
  split
  · refine (cutOff_consume _ _).bind fun ⟨_, after, _⟩ => ?_
    exact (expressions_cutOff after h).bind fun _ => .ok _
  · exact .ok _
termination_by (ts.length, 2)
decreasing_by all_goals decreasing_with omega

theorem expression_cutOff {ctx ctx' : Context} (floor : Int) (ts : List Token)
    (h : Roomier ctx ctx') :
    CutOff (expression ctx floor ts) (expression ctx' floor ts) := by
  rw [expression, expression]
  refine (primary_cutOff ts h).bind fun ⟨left, after, _⟩ => ?_
  exact (climb_cutOff floor left after h).bind fun _ => .ok _
termination_by (ts.length, 1)
decreasing_by all_goals decreasing_with omega

/-- Operators that follow an operand are no deeper than it either. Which they are depends on the
stream alone, and both parses are in the same. -/
theorem climb_cutOff {ctx ctx' : Context} (floor : Int) (left : Expr) (ts : List Token)
    (h : Roomier ctx ctx') :
    CutOff (climb ctx floor left ts) (climb ctx' floor left ts) := by
  match ts with
  | [] =>
    rw [climb, climb]
    exact .ok _
  | t :: rest =>
    rw [climb, climb, h.stream]
    cases link? ctx.inStream t with
    | none => exact .ok _
    | some link =>
      dsimp only
      split
      · exact .ok _
      cases link with
      | member op =>
        refine (cutOff_consumeKind _).bind fun ⟨field, after, _⟩ => ?_
        refine (chain_cutOff (.member op left field.text) after h).bind
          fun ⟨node, after, _⟩ => ?_
        exact (climb_cutOff floor node after h).bind fun _ => .ok _
      | assign op =>
        dsimp only
        split
        · refine (expression_cutOff 0 rest h).bind fun ⟨value, after, _⟩ => ?_
          exact (climb_cutOff floor (.assign op left value) after h).bind fun _ => .ok _
        · exact .error trivial
      | scope =>
        refine (expression_cutOff (Link.scope.precedence + 1) rest h).bind
          fun ⟨right, after, _⟩ => ?_
        exact (climb_cutOff floor (.scope left right) after h).bind fun _ => .ok _
      | binary op =>
        refine (expression_cutOff (op.precedence + 1) rest h).bind
          fun ⟨right, after, _⟩ => ?_
        exact (climb_cutOff floor (.binary op left right) after h).bind fun _ => .ok _
termination_by (ts.length, 0)
decreasing_by all_goals decreasing_with omega

end

/-! ## Parts of statements -/

section

variable {ctx : Context} {limit : Int} {ts : List Token}

/-- The size of an array is an expression at the level of its declaration. -/
theorem cutOff_arraySuffix (type : String) (h : ctx.maxDepth ≤ limit) :
    CutOff (arraySuffix ctx type ts) (arraySuffix (ctx.allowing limit) type ts) := by
  unfold arraySuffix
  split
  · refine (cutOff_consume _ _).bind fun ⟨_, after, _⟩ => ?_
    dsimp only
    split
    · exact (cutOff_consume _ _).bind fun _ => .ok _
    · refine (expression_cutOff 1 after (.allowing h)).bind fun _ => ?_
      exact (cutOff_consume _ _).bind fun _ => .ok _
  · exact .ok _

theorem parameters_cutOff (ctx : Context) (limit : Int) (symbols : SymbolTable) (ts : List Token)
    (h : ctx.maxDepth ≤ limit) :
    CutOff (parameters ctx symbols ts) (parameters (ctx.allowing limit) symbols ts) := by
  rw [parameters, parameters]
  refine cutOff_typeName.bind fun ⟨type, after, _⟩ => ?_
  refine (cutOff_consumeKind _).bind fun ⟨name, after, _⟩ => ?_
  refine (cutOff_arraySuffix type h).bind fun ⟨suffix, after, _⟩ => ?_
  dsimp only
  split
  · refine (cutOff_consume _ _).bind fun ⟨_, after, _⟩ => ?_
    exact (parameters_cutOff ctx limit _ after h).bind fun _ => .ok _
  · exact .ok _
termination_by ts.length
decreasing_by all_goals decreasing_with omega

theorem cutOff_parameterList (symbols : SymbolTable) (h : ctx.maxDepth ≤ limit) :
    CutOff (parameterList ctx symbols ts) (parameterList (ctx.allowing limit) symbols ts) := by
  unfold parameterList
  refine (cutOff_consume _ _).bind fun ⟨_, after, _⟩ => ?_
  dsimp only
  split
  · exact (cutOff_consume _ _).bind fun _ => .ok _
  · refine (parameters_cutOff ctx limit symbols after h).bind fun _ => ?_
    exact (cutOff_consume _ _).bind fun _ => .ok _

/-- A target that cannot be assigned is refused after it has been read. -/
theorem inputTargets_cutOff (ctx : Context) (limit : Int) (ts : List Token)
    (h : ctx.maxDepth ≤ limit) :
    CutOff (inputTargets ctx ts) (inputTargets (ctx.allowing limit) ts) := by
  rw [inputTargets, inputTargets]
  split
  · refine (cutOff_consume _ _).bind fun ⟨_, after, _⟩ => ?_
    refine (expression_cutOff 1 after (Roomier.allowing h).streamed).bind fun ⟨target, after, _⟩ => ?_
    dsimp only
    split
    · exact (inputTargets_cutOff ctx limit after h).bind fun _ => .ok _
    · exact .error trivial
  · exact .ok _
termination_by ts.length
decreasing_by all_goals decreasing_with omega

theorem printParts_cutOff (ctx : Context) (limit : Int) (ts : List Token)
    (h : ctx.maxDepth ≤ limit) :
    CutOff (printParts ctx ts) (printParts (ctx.allowing limit) ts) := by
  rw [printParts, printParts]
  split
  · exact .ok _
  split
  · refine (cutOff_consume _ _).bind fun ⟨_, after, _⟩ => ?_
    refine (expression_cutOff 1 after (Roomier.allowing h).streamed).bind fun ⟨_, after, _⟩ => ?_
    exact (printParts_cutOff ctx limit after h).bind fun _ => .ok _
  split
  · refine (cutOff_consume _ _).bind fun ⟨_, after, _⟩ => ?_
    exact (printParts_cutOff ctx limit after h).bind fun _ => .ok _
  · exact .error trivial
termination_by ts.length
decreasing_by all_goals decreasing_with omega

theorem cutOff_condition (h : ctx.maxDepth ≤ limit) :
    CutOff (condition ctx ts) (condition (ctx.allowing limit) ts) := by
  unfold condition
  refine (cutOff_consume _ _).bind fun ⟨_, after, _⟩ => ?_
  refine (expression_cutOff 1 after (.allowing h)).bind fun _ => ?_
  exact (cutOff_consume _ _).bind fun _ => .ok _

/-- The expression may pass the limit, its absence may not. -/
theorem cutOff_optionalExpression (close : String) (h : ctx.maxDepth ≤ limit) :
    CutOff (optionalExpression ctx close ts) (optionalExpression (ctx.allowing limit) close ts) := by
  unfold optionalExpression
  split
  · exact (cutOff_consume _ _).bind fun _ => .ok _
  · refine (expression_cutOff 1 ts (.allowing h)).bind fun _ => ?_
    exact (cutOff_consume _ _).bind fun _ => .ok _

/-! ## Statements without statements inside -/

/-- The check of an assignment looks at types and never at depths. -/
theorem cutOff_checkAssignment (symbols : SymbolTable) (e : Expr) :
    CutOff (checkAssignment symbols e) (checkAssignment symbols e) := by
  cases hc : checkAssignment symbols e with
  | ok _ => exact .ok _
  | error error =>
    refine .error ?_
    -- only a mismatch of types or an undeclared name is reported here
    unfold checkAssignment at hc
    split at hc
    · split at hc
      · split at hc
        · cases hc
          trivial
        · cases hc
          trivial
        · split at hc
          · cases hc
            trivial
          · cases hc
        · cases hc
          trivial
        · cases hc
      · cases hc
        trivial
    · cases hc

/-- A statement turns the errors of its expression into its own, all but a passed limit. -/
theorem cutOff_expressionStatement (symbols : SymbolTable) (first : Token)
    (h : ctx.maxDepth ≤ limit) :
    CutOff (expressionStatement ctx symbols first ts)
      (expressionStatement (ctx.allowing limit) symbols first ts) := by
  have hc : CutOff (checkedExpression ctx symbols ts)
      (checkedExpression (ctx.allowing limit) symbols ts) := by
    unfold checkedExpression
    refine (expression_cutOff 1 ts (.allowing h)).bind fun ⟨e, after, _⟩ => ?_
    refine (cutOff_checkAssignment symbols e).bind fun _ => ?_
    exact (cutOff_consume _ _).bind fun _ => .ok _
  unfold expressionStatement
  cases hx : checkedExpression ctx symbols ts with
  | ok read =>
    rw [hx] at hc
    rw [show checkedExpression (ctx.allowing limit) symbols ts = .ok read from hc]
    exact .ok _
  | error cause =>
    rw [hx] at hc
    obtain ⟨hf, hd | hy⟩ := hc
    -- a passed limit is handed on, any other error is the same on both sides
    · exact ⟨hf.inStatement first, .inl (by rw [cause.inStatement_tooDeep first hd, hd])⟩
    · rw [hy]
      exact .error (hf.inStatement first)

/-- The initial value is where a declaration may be cut off. -/
theorem cutOff_variableRest (symbols : SymbolTable) (type name : String)
    (h : ctx.maxDepth ≤ limit) :
    CutOff (variableRest ctx symbols type name ts)
      (variableRest (ctx.allowing limit) symbols type name ts) := by
  unfold variableRest
  refine (cutOff_arraySuffix type h).bind fun ⟨suffix, after, _⟩ => ?_
  dsimp only
  split
  · refine (cutOff_consume _ _).bind fun ⟨_, after, _⟩ => ?_
    refine (expression_cutOff 1 after (.allowing h)).bind fun _ => ?_
    exact (cutOff_consume _ _).bind fun _ => .ok _
  · exact (cutOff_consume _ _).bind fun _ => .ok _

theorem cutOff_usingDirective : CutOff (usingDirective ts) (usingDirective ts) := by
  unfold usingDirective
  refine (cutOff_consume _ _).bind fun _ => (cutOff_consume _ _).bind fun _ => ?_
  exact (cutOff_consumeKind _).bind fun _ => (cutOff_consume _ _).bind fun _ => .ok _

theorem cutOff_inputStatement (h : ctx.maxDepth ≤ limit) :
    CutOff (inputStatement ctx ts) (inputStatement (ctx.allowing limit) ts) := by
  unfold inputStatement
  refine (cutOff_consume _ _).bind fun ⟨_, after, _⟩ => ?_
  refine (inputTargets_cutOff ctx limit after h).bind fun _ => ?_
  exact (cutOff_consume _ _).bind fun _ => .ok _

theorem cutOff_printStatement (h : ctx.maxDepth ≤ limit) :
    CutOff (printStatement ctx ts) (printStatement (ctx.allowing limit) ts) := by
  unfold printStatement
  refine (cutOff_consume _ _).bind fun ⟨_, after, _⟩ => ?_
  refine (printParts_cutOff ctx limit after h).bind fun _ => ?_
  exact (cutOff_consume _ _).bind fun _ => .ok _

theorem cutOff_returnStatement (h : ctx.maxDepth ≤ limit) :
    CutOff (returnStatement ctx ts) (returnStatement (ctx.allowing limit) ts) := by
  unfold returnStatement
  refine (cutOff_consume _ _).bind fun _ => ?_
  exact (cutOff_optionalExpression ";" h).bind fun _ => .ok _

theorem cutOff_bareStatement (keyword : String) (s : Stmt) :
    CutOff (bareStatement keyword s ts) (bareStatement keyword s ts) := by
  unfold bareStatement
  exact (cutOff_consume _ _).bind fun _ => (cutOff_consume _ _).bind fun _ => .ok _

/-- The symbols that are put beside a statement make no difference. -/
theorem CutOff.keeping {x y : Except CompileError (Read Stmt ts)} (symbols : SymbolTable)
    (h : CutOff x y) : CutOff (keeping symbols x) (keeping symbols y) :=
  h.bind fun _ => .ok _

end

/-! ## Statements -/

mutual

/-- A statement goes one level further in and is then of one of the forms, by its first token. -/
theorem statement_cutOff (ctx : Context) (limit : Int) (symbols : SymbolTable) (ts : List Token)
    (h : ctx.maxDepth ≤ limit) :
    CutOff (statement ctx symbols ts) (statement (ctx.allowing limit) symbols ts) := by
  match ts with
  | [] =>
    rw [statement, statement]
    exact .error trivial
  | t :: rest =>
    rw [statement, statement]
    refine .enter h fun ctx h => ?_
    cases t.kind with
    | header => exact .ok _
    | keyword =>
      dsimp only
      split
      · exact ifStatement_cutOff ctx limit symbols (t :: rest) h
      · exact whileStatement_cutOff ctx limit symbols (t :: rest) h
      · exact doStatement_cutOff ctx limit symbols (t :: rest) h
      · exact forStatement_cutOff ctx limit symbols (t :: rest) h
      · exact (cutOff_returnStatement h).keeping symbols
      · exact (cutOff_bareStatement _ _).keeping symbols
      · exact (cutOff_bareStatement _ _).keeping symbols
      · exact (cutOff_inputStatement h).keeping symbols
      · exact (cutOff_printStatement h).keeping symbols
      · exact cutOff_usingDirective.keeping symbols
      · split
        · exact declaration_cutOff ctx limit symbols (t :: rest) h
        · exact .error trivial
    | delimiter =>
      dsimp only
      split
      · exact (block_cutOff ctx limit symbols (t :: rest) h).bind fun _ => .ok _
      · exact (cutOff_expressionStatement symbols t h).keeping symbols
    | _ => exact (cutOff_expressionStatement symbols t h).keeping symbols
termination_by (ts.length, 2)
decreasing_by all_goals decreasing_with omega

/-- A body is deeper than its head by its statements only. -/
theorem declaration_cutOff (ctx : Context) (limit : Int) (symbols : SymbolTable) (ts : List Token)
    (h : ctx.maxDepth ≤ limit) :
    CutOff (declaration ctx symbols ts) (declaration (ctx.allowing limit) symbols ts) := by
  rw [declaration, declaration]
  refine cutOff_typeName.bind fun ⟨type, after, _⟩ => ?_
  refine (cutOff_consumeKind _).bind fun ⟨name, after, _⟩ => ?_
  dsimp only
  split
  · refine (cutOff_parameterList _ h).bind fun ⟨made, after, _⟩ => ?_
    dsimp only
    split
    · exact (block_cutOff ctx limit made.2 after h).bind fun _ => .ok _
    · exact (cutOff_consume _ _).bind fun _ => .ok _
  · exact (cutOff_variableRest symbols type name.text h).bind fun _ => .ok _
termination_by (ts.length, 1)
decreasing_by all_goals decreasing_with omega

theorem block_cutOff (ctx : Context) (limit : Int) (symbols : SymbolTable) (ts : List Token)
    (h : ctx.maxDepth ≤ limit) :
    CutOff (block ctx symbols ts) (block (ctx.allowing limit) symbols ts) := by
  rw [block, block]
  refine (cutOff_consume _ _).bind fun ⟨_, after, _⟩ => ?_
  refine (blockBody_cutOff ctx limit symbols after h).bind fun _ => ?_
  exact (cutOff_consume _ _).bind fun _ => .ok _
termination_by (ts.length, 0)
decreasing_by all_goals decreasing_with omega

/-- The symbols that a statement leaves are the same for both parses, so the next one starts alike.
-/
theorem blockBody_cutOff (ctx : Context) (limit : Int) (symbols : SymbolTable) (ts : List Token)
    (h : ctx.maxDepth ≤ limit) :
    CutOff (blockBody ctx symbols ts) (blockBody (ctx.allowing limit) symbols ts) := by
  rw [blockBody, blockBody]
  split
  · exact .ok _
  · refine (statement_cutOff ctx limit symbols ts h).bind fun ⟨first, after, _⟩ => ?_
    exact (blockBody_cutOff ctx limit first.2 after h).bind fun _ => .ok _
termination_by (ts.length, 3)
decreasing_by all_goals decreasing_with omega

theorem ifStatement_cutOff (ctx : Context) (limit : Int) (symbols : SymbolTable) (ts : List Token)
    (h : ctx.maxDepth ≤ limit) :
    CutOff (ifStatement ctx symbols ts) (ifStatement (ctx.allowing limit) symbols ts) := by
  rw [ifStatement, ifStatement]
  refine (cutOff_consume _ _).bind fun ⟨_, after, _⟩ => ?_
  refine (cutOff_condition h).bind fun ⟨_, after, _⟩ => ?_
  refine (statement_cutOff ctx limit symbols after h).bind fun ⟨made, after, _⟩ => ?_
  dsimp only
  split
  · refine (cutOff_consume _ _).bind fun ⟨_, after, _⟩ => ?_
    exact (statement_cutOff ctx limit made.2 after h).bind fun _ => .ok _
  · exact .ok _
termination_by (ts.length, 0)
decreasing_by all_goals decreasing_with omega

theorem whileStatement_cutOff (ctx : Context) (limit : Int) (symbols : SymbolTable)
    (ts : List Token) (h : ctx.maxDepth ≤ limit) :
    CutOff (whileStatement ctx symbols ts) (whileStatement (ctx.allowing limit) symbols ts) := by
  rw [whileStatement, whileStatement]
  refine (cutOff_consume _ _).bind fun ⟨_, after, _⟩ => ?_
  refine (cutOff_condition h).bind fun ⟨_, after, _⟩ => ?_
  exact (statement_cutOff ctx limit symbols after h).bind fun _ => .ok _
termination_by (ts.length, 0)
decreasing_by all_goals decreasing_with omega

theorem doStatement_cutOff (ctx : Context) (limit : Int) (symbols : SymbolTable) (ts : List Token)
    (h : ctx.maxDepth ≤ limit) :
    CutOff (doStatement ctx symbols ts) (doStatement (ctx.allowing limit) symbols ts) := by
  rw [doStatement, doStatement]
  refine (cutOff_consume _ _).bind fun ⟨_, after, _⟩ => ?_
  refine (statement_cutOff ctx limit symbols after h).bind fun _ => ?_
  refine (cutOff_consume _ _).bind fun _ => (cutOff_condition h).bind fun _ => ?_
  exact (cutOff_consume _ _).bind fun _ => .ok _
termination_by (ts.length, 0)
decreasing_by all_goals decreasing_with omega

theorem forStatement_cutOff (ctx : Context) (limit : Int) (symbols : SymbolTable) (ts : List Token)
    (h : ctx.maxDepth ≤ limit) :
    CutOff (forStatement ctx symbols ts) (forStatement (ctx.allowing limit) symbols ts) := by
  rw [forStatement, forStatement]
  refine (cutOff_consume _ _).bind fun ⟨_, after, _⟩ => ?_
  refine (cutOff_consume _ _).bind fun ⟨_, after, _⟩ => ?_
  refine (forInit_cutOff ctx limit symbols after h).bind fun ⟨init, after, _⟩ => ?_
  refine (cutOff_optionalExpression ";" h).bind fun ⟨cond, after, _⟩ => ?_
  refine (cutOff_optionalExpression ")" h).bind fun ⟨update, after, _⟩ => ?_
  exact (statement_cutOff ctx limit init.2 after h).bind fun _ => .ok _
termination_by (ts.length, 0)
decreasing_by all_goals decreasing_with omega

theorem forInit_cutOff (ctx : Context) (limit : Int) (symbols : SymbolTable) (ts : List Token)
    (h : ctx.maxDepth ≤ limit) :
    CutOff (forInit ctx symbols ts) (forInit (ctx.allowing limit) symbols ts) := by
  rw [forInit, forInit]
  split
  · exact (cutOff_consume _ _).bind fun _ => .ok _
  · exact (statement_cutOff ctx limit symbols ts h).bind fun _ => .ok _
termination_by (ts.length, 3)
decreasing_by all_goals decreasing_with omega

end

/-! ## Programs -/

/-- The statements of a program follow one another as those of a block do. -/
theorem programFrom_cutOff (ctx : Context) (limit : Int) (symbols : SymbolTable) (ts : List Token)
    (h : ctx.maxDepth ≤ limit) :
    CutOff (programFrom ctx symbols ts) (programFrom (ctx.allowing limit) symbols ts) := by
  rw [programFrom, programFrom]
  split
  · exact .ok _
  · refine (statement_cutOff ctx limit symbols ts h).bind fun ⟨first, after, _⟩ => ?_
    exact (programFrom_cutOff ctx limit first.2 after h).bind fun _ => .ok _
termination_by ts.length
decreasing_by all_goals decreasing_with omega

/-- A program that is parsed without passing the nesting limit `d`, accepted or refused for another
reason, is parsed in the same way with every higher limit `d'`; and an error of a statement never
has a passed limit as its cause. -/
theorem program_of_higher_limit {d d' : Int} (ts : List Token) (h : d ≤ d') :
    ((∀ limit site, program d ts ≠ .error (.tooDeep limit site)) →
      program d' ts = program d ts) ∧
    ∀ error, program d ts = .error error → error.Frank := by
  have hc : CutOff (program d ts) (program d' ts) := programFrom_cutOff (.start d) d' .empty ts h
  refine ⟨fun hn => hc.eq_of_ne fun e he => ?_, fun e he => hc.frank he⟩
  cases e with
  | tooDeep limit site => exact absurd he (hn limit site)
  | _ => rfl

/-- The tokens of `(1) 2;` -/
def strayNumber : List Token :=
  [⟨.delimiter, "(", 0⟩, ⟨.number, "1", 1⟩, ⟨.delimiter, ")", 2⟩, ⟨.number, "2", 4⟩,
   ⟨.delimiter, ";", 5⟩]

/-- What is wrong with `(1) 2;` -/
def strayNumberError : CompileError :=
  .invalidStatement ⟨.delimiter, "(", 0⟩ (.expected .delimiter (some ";") (some ⟨.number, "2", 4⟩))

theorem program_of_higher_limit_strayNumber :
    (3 : Int) ≤ 200 ∧ program 2 strayNumber = .error (.tooDeep 2 (.token ⟨.number, "1", 1⟩)) ∧
    program 3 strayNumber = .error strayNumberError ∧
    program 200 strayNumber = .error strayNumberError ∧ strayNumberError.Frank := by
  have hl : (3 : Int) ≤ 200 := by decide
  have h₂ : program 2 strayNumber = .error (.tooDeep 2 (.token ⟨.number, "1", 1⟩)) := by cbv
  have h₃ : program 3 strayNumber = .error strayNumberError := by cbv
  obtain ⟨hs, hf⟩ := program_of_higher_limit strayNumber hl
  refine ⟨hl, h₂, h₃, ?_, hf _ h₃⟩
  rw [hs, h₃]
  intro limit site he
  rw [h₃] at he
  cases he

end Parser

end ConsoleCpp

/-
Programs are parsed piece by piece. A statement ends with a token of its own, unless it ends with an
`if` that an `else` could still go on; so the statements of a program are read the same whatever
comes after them, as long as that does not start with `else`, and what comes after them is parsed
with the symbols that they declare.
-/
import ConsoleCpp.Proofs.Parser.Locality
import Mathlib

namespace ConsoleCpp.Parser

/-! ## Parts of statements -/

/-- A type is read up to the first token that is no mark. -/
theorem seen_typeName {modifiers marks rest : List Token} {t : Token}
    (hms : ∀ m ∈ modifiers, isModifier m = true) (hm : isModifier t = false)
    (ht : ((t.kind == .keyword && declarationKeywords.contains t.text) || t.kind == .identifier) = true)
    (hks : ∀ m ∈ marks, isMark m = true) (hk : ∀ u ∈ rest.head?, isMark u = false) :
    seen (typeName (modifiers ++ t :: (marks ++ rest))) =
      .ok (String.join (String.intercalate " " (modifiers.map Token.text ++ [t.text]) ::
        marks.map Token.text), rest) := by
  have hmod : (modifiers ++ t :: (marks ++ rest)).dropWhile isModifier = t :: (marks ++ rest) := by
    rw [List.dropWhile_append_of_pos hms, List.dropWhile_cons_of_neg (by rw [hm]; decide)]
  have htake : (modifiers ++ t :: (marks ++ rest)).takeWhile isModifier = modifiers := by
    rw [List.takeWhile_append_of_pos hms, List.takeWhile_cons_of_neg (by rw [hm]; decide),
      List.append_nil]
  have hrest : rest.dropWhile isMark = rest ∧ rest.takeWhile isMark = [] := by
    cases rest with
    | nil => exact ⟨rfl, rfl⟩
    | cons u rest =>
      have hu := hk u rfl
      exact ⟨List.dropWhile_cons_of_neg (by rw [hu]; decide),
        List.takeWhile_cons_of_neg (by rw [hu]; decide)⟩
  unfold typeName
  dsimp only
  split
  · rename_i h
    rw [hmod] at h
    cases h
  · rename_i t' rest' h
    rw [hmod] at h
    cases h
    rw [if_pos ht, htake]
    simp only [seen, Except.map, List.takeWhile_append_of_pos hks, List.dropWhile_append_of_pos hks,
      hrest, List.append_nil]

theorem dropWhile_head {p : Token → Bool} {ts rest : List Token} {t : Token}
    (h : ts.dropWhile p = t :: rest) : p t = false := by
  have := List.head?_dropWhile_not p ts
  rw [h] at this
  exact this

section

variable {takes : Bool} {also : List Token → Prop} {ctx : Context} {symbols : SymbolTable}
  {ts : List Token}

/-- A type ends at the first token that is no mark, which stands behind it. -/
theorem local_typeName : Local takes Nothing Structural (fun ts => seen (typeName ts)) ts := by
  cases hd : ts.dropWhile isModifier with
  | nil =>
    refine .of_error (e := .expected .identifier none none) ?_ rfl
    unfold typeName
    dsimp only
    split
    · rfl
    · rename_i h
      rw [hd] at h
      cases h
  | cons t rest =>
    by_cases ht : ((t.kind == .keyword && declarationKeywords.contains t.text) ||
        t.kind == .identifier) = true
    · have he : ts = ts.takeWhile isModifier ++ t :: rest.takeWhile isMark ++ rest.dropWhile isMark := by
        rw [List.append_assoc, List.cons_append, List.takeWhile_append_dropWhile, ← hd,
          List.takeWhile_append_dropWhile]
      have hm : ∀ rest' : List Token, rest'.head? = (rest.dropWhile isMark).head? →
          ∀ u ∈ rest'.head?, isMark u = false := fun rest' h u hu => by
        obtain ⟨after, ha⟩ := List.head?_eq_some_iff.1 (h.symm.trans hu)
        exact dropWhile_head ha
      have hms : ∀ m ∈ ts.takeWhile isModifier, isModifier m = true :=
        List.all_eq_true.1 List.all_takeWhile
      have hks : ∀ m ∈ rest.takeWhile isMark, isMark m = true :=
        List.all_eq_true.1 List.all_takeWhile
      obtain ⟨type, hr⟩ : ∃ type, ∀ rest', rest'.head? = (rest.dropWhile isMark).head? →
          seen (typeName (ts.takeWhile isModifier ++ t :: (rest.takeWhile isMark ++ rest'))) =
            .ok (type, rest') :=
        ⟨_, fun rest' h => seen_typeName hms (dropWhile_head hd) ht hks (hm rest' h)⟩
      refine .of_taken _ (type, _) he (fun _ => by simp) fun rest' h => ?_
      rw [List.append_assoc, List.cons_append]
      exact hr rest' (h.resolve_right id)
    · refine .of_error (e := .expected .identifier none (some t)) ?_ rfl
      unfold typeName
      dsimp only
      split
      · rename_i h
        rw [hd] at h
        cases h
      · rename_i h
        rw [hd] at h
        cases h
        rw [if_neg ht]
        rfl

theorem local_arraySuffix {type : String} :
    Local false Nothing Structural (fun ts => glimpsed (arraySuffix ctx type ts)) ts := by
  refine .of_eq (fun ts => glimpsed_arraySuffix ctx ts type) ?_
  refine .choose startsWith_head (fun _ => ?_) fun _ => .pure _
  refine local_consume.bind (fun _ after _ => ?_) fun _ h => h
  refine .choose startsWith_head (fun _ => ?_) fun _ => ?_
  · exact local_consume.bind (fun _ _ _ => .pure _) fun _ h => h
  · refine .bind (expression_local false ctx 1 after) (fun _ _ _ => ?_) fun _ h => h
    exact local_consume.bind (fun _ _ _ => .pure _) fun _ h => h

/-- A list of parameters goes on only behind a comma. -/
theorem parameters_local (takes : Bool) (ctx : Context) (symbols : SymbolTable) (ts : List Token) :
    Local takes Nothing Structural (fun ts => seen (parameters ctx symbols ts)) ts := by
  refine .of_eq (seen_parameters ctx symbols) ?_
  refine local_typeName.bind (fun type after h => ?_) fun _ h => h
  have hl : after.length < ts.length := seen_shorter h
  refine local_consumeKind.bind (fun name after h => ?_) fun _ h => h
  have hl : after.length < ts.length := Nat.lt_trans (seen_shorter h) hl
  refine local_arraySuffix.bind (fun suffix after h => ?_) fun _ h => h
  have hl : after.length < ts.length := Nat.lt_of_le_of_lt (glimpsed_notLonger h) hl
  refine .choose startsWith_head (fun _ => ?_) fun _ => .pure _
  refine local_consume.bind (fun _ after h => ?_) fun _ h => h
  have hl : after.length < ts.length := Nat.lt_trans (seen_shorter h) hl
  exact (parameters_local false ctx _ after).bind (fun _ _ _ => .pure _) fun _ h => h
termination_by ts.length
decreasing_by all_goals decreasing_with omega

theorem local_parameterList :
    Local takes also Structural (fun ts => seen (parameterList ctx symbols ts)) ts := by
  refine .of_eq (seen_parameterList ctx symbols) ?_
  refine local_consume.bind (fun _ after _ => ?_) fun _ h => h
  refine .either startsWith_head (fun _ => ?_) fun _ => ?_
  · exact local_consume.bind (fun _ _ _ => .pure _) fun _ h => h
  · refine (parameters_local false ctx symbols after).before fun _ _ _ => ?_
    exact local_consume.bind (fun _ _ _ => .pure _) fun _ h => h

theorem local_inputTarget : Local takes Nothing Structural (fun ts => inputTarget ctx ts) ts := by
  have h := expression_local takes ctx.streamed 1 ts
  cases hs : seen (expression ctx.streamed 1 ts) with
  | error e => exact .of_error (by rw [inputTarget, hs]; rfl) (h.error hs)
  | ok made =>
    cases ha : made.1.isAssignable with
    | false =>
      refine .of_error (e := .notReadable made.1 ts.head?) ?_ rfl
      rw [inputTarget, hs]
      exact if_neg (by rw [ha]; decide)
    | true =>
      obtain ⟨taken, he, ht, hr⟩ := h.ok hs
      refine .of_taken taken made he ht fun rest hrest => ?_
      dsimp only at hr ⊢
      rw [inputTarget, hr rest hrest]
      exact if_pos ha

theorem inputTarget_notLonger {target : Expr} {rest : List Token}
    (h : inputTarget ctx ts = .ok (target, rest)) : rest.length ≤ ts.length :=
  have hl : Local false Nothing Structural (fun ts => inputTarget ctx ts) ts := local_inputTarget
  hl.length_le h

theorem inputTargets_local (ctx : Context) (ts : List Token) :
    Local false Nothing Structural (fun ts => glimpsed (inputTargets ctx ts)) ts := by
  refine .of_eq (glimpsed_inputTargets ctx) ?_
  refine .choose startsWith_head (fun _ => ?_) fun _ => .pure _
  refine local_consume.bind (fun _ after h => ?_) fun _ h => h
  have hl : after.length < ts.length := seen_shorter h
  refine local_inputTarget.bind (fun target after h => ?_) fun _ h => h
  have hl : after.length < ts.length := Nat.lt_of_le_of_lt (inputTarget_notLonger h) hl
  exact (inputTargets_local ctx after).bind (fun _ _ _ => .pure _) fun _ h => h
termination_by ts.length
decreasing_by all_goals decreasing_with omega

/-- The parts that are printed end at a semicolon. -/
theorem printParts_local (ctx : Context) (ts : List Token) :
    Local false Nothing Structural (fun ts => glimpsed (printParts ctx ts)) ts := by
  refine .of_eq (glimpsed_printParts ctx) ?_
  refine .choose startsWith_head (fun _ => .pure _) fun _ => ?_
  refine .choose startsWith_head (fun _ => ?_) fun _ => .choose startsWith_head (fun _ => ?_) fun _ => ?_
  · refine local_consume.bind (fun _ after h => ?_) fun _ h => h
    have hl : after.length < ts.length := seen_shorter h
    refine .bind (expression_local false ctx.streamed 1 after) (fun _ after h => ?_) fun _ h => h
    have hl : after.length < ts.length := Nat.lt_trans (seen_shorter h) hl
    exact (printParts_local ctx after).bind (fun _ _ _ => .pure _) fun _ h => h
  · refine local_consume.bind (fun _ after h => ?_) fun _ h => h
    have hl : after.length < ts.length := seen_shorter h
    exact (printParts_local ctx after).bind (fun _ _ _ => .pure _) fun _ h => h
  · exact .of_error rfl rfl
termination_by ts.length
decreasing_by all_goals decreasing_with omega

theorem local_condition : Local takes also Structural (fun ts => seen (condition ctx ts)) ts := by
  refine .of_eq (seen_condition ctx) ?_
  refine local_consume.bind (fun _ after _ => ?_) fun _ h => h
  refine (expression_local false ctx 1 after).before fun _ _ _ => ?_
  exact local_consume.bind (fun _ _ _ => .pure _) fun _ h => h

theorem local_optionalExpression {close : String} :
    Local takes also Structural (fun ts => seen (optionalExpression ctx close ts)) ts := by
  refine .of_eq (fun ts => seen_optionalExpression ctx ts close) ?_
  refine .either startsWith_head (fun _ => ?_) fun _ => ?_
  · exact local_consume.bind (fun _ _ _ => .pure _) fun _ h => h
  · refine (expression_local false ctx 1 ts).before fun _ _ _ => ?_
    exact local_consume.bind (fun _ _ _ => .pure _) fun _ h => h

/-! ## Statements without statements inside -/

theorem local_variableRest {type name : String} :
    Local takes also Structural (fun ts => seen (variableRest ctx symbols type name ts)) ts := by
  refine .of_eq (fun ts => seen_variableRest ctx symbols ts type name) ?_
  refine local_arraySuffix.before fun suffix after _ => ?_
  refine .either startsWith_head (fun _ => ?_) fun _ => ?_
  · refine local_consume.bind (fun _ after _ => ?_) fun _ h => h
    refine (expression_local false ctx 1 after).before fun _ _ _ => ?_
    exact local_consume.bind (fun _ _ _ => .pure _) fun _ h => h
  · exact local_consume.bind (fun _ _ _ => .pure _) fun _ h => h

theorem local_usingDirective :
    Local takes also Structural (fun ts => seen (usingDirective ts)) ts := by
  refine .of_eq seen_usingDirective ?_
  refine local_consume.bind (fun _ _ _ => ?_) fun _ h => h
  refine local_consume.bind (fun _ _ _ => ?_) fun _ h => h
  refine local_consumeKind.bind (fun _ _ _ => ?_) fun _ h => h
  exact local_consume.bind (fun _ _ _ => .pure _) fun _ h => h

theorem local_inputStatement :
    Local takes also Structural (fun ts => seen (inputStatement ctx ts)) ts := by
  refine .of_eq (seen_inputStatement ctx) ?_
  refine local_consume.bind (fun _ after _ => ?_) fun _ h => h
  refine (inputTargets_local ctx after).before fun _ _ _ => ?_
  exact local_consume.bind (fun _ _ _ => .pure _) fun _ h => h

theorem local_printStatement :
    Local takes also Structural (fun ts => seen (printStatement ctx ts)) ts := by
  refine .of_eq (seen_printStatement ctx) ?_
  refine local_consume.bind (fun _ after _ => ?_) fun _ h => h
  refine (printParts_local ctx after).before fun _ _ _ => ?_
  exact local_consume.bind (fun _ _ _ => .pure _) fun _ h => h

theorem local_returnStatement :
    Local takes also Structural (fun ts => seen (returnStatement ctx ts)) ts := by
  refine .of_eq (seen_returnStatement ctx) ?_
  refine local_consume.bind (fun _ _ _ => ?_) fun _ h => h
  exact local_optionalExpression.bind (fun _ _ _ => .pure _) fun _ h => h

theorem local_bareStatement {keyword : String} {s : Stmt} :
    Local takes also Structural (fun ts => seen (bareStatement keyword s ts)) ts := by
  refine .of_eq (fun ts => seen_bareStatement ts keyword s) ?_
  refine local_consume.bind (fun _ _ _ => ?_) fun _ h => h
  exact local_consume.bind (fun _ _ _ => .pure _) fun _ h => h

/-- An expression is parsed up to its semicolon, and an error inside is wrapped the same. -/
theorem local_expressionStatement {first : Token} :
    Local takes also (fun _ => True) (fun ts => seen (expressionStatement ctx symbols first ts)) ts := by
  refine .of_eq (fun ts => seen_expressionStatement ctx symbols ts first) ?_
  refine .map Stmt.expression (.mapError (fun _ h => h) ?_)
  refine .of_eq (seen_checkedExpression ctx symbols) ?_
  refine (expression_local false ctx 1 ts).any.before fun e after _ => ?_
  dsimp only
  refine .check (fun _ _ => trivial) fun _ => ?_
  exact local_consume.any.bind (fun _ _ _ => .pure _) fun _ h => h

theorem Local.kept {fails : CompileError → Prop}
    {read : List Token → Except CompileError (Stmt × List Token)}
    (h : Local takes also fails read ts) :
    Local takes also fails (fun ts => kept symbols (read ts)) ts :=
  h.map fun s => (s, symbols)

end

/-! ## Statements -/

/-- Tokens that do not go on an `if`. -/
def NoElse (ts : List Token) : Prop := startsWith .keyword "else" ts = false

/-- Where a list of statements ends. -/
theorem closes_head (xs ys : List Token) (h : xs.head? = ys.head?) :
    (xs.isEmpty || startsWith .delimiter "\x7d" xs) = (ys.isEmpty || startsWith .delimiter "\x7d" ys) := by
  rw [startsWith_head xs ys h]
  cases xs <;> cases ys <;> first | rfl | cases h

mutual

/-- By the tokens that are left: a statement is parsed from its own tokens, up to an `else` that
could still belong to it. -/
theorem statement_local (takes : Bool) (ctx : Context) (symbols : SymbolTable) (ts : List Token) :
    Local takes NoElse (fun _ => True) (fun ts => seen (statement ctx symbols ts)) ts := by
  match ts with
  | [] => exact .of_error (seen_statement_nil ctx symbols) trivial
  | t :: rest =>
    refine .cons (seen_statement_cons ctx symbols t) (.check (fun _ _ => trivial) fun ctx => ?_)
    unfold started
    cases t.kind with
    | header => exact .pure _
    | keyword =>
      dsimp only
      split
      · exact (ifStatement_local ctx symbols (t :: rest)).tail
      · exact (whileStatement_local ctx symbols (t :: rest)).tail
      · exact (doStatement_local ctx symbols (t :: rest)).tail
      · exact (forStatement_local ctx symbols (t :: rest)).tail
      · exact local_returnStatement.any.kept.tail
      · exact local_bareStatement.any.kept.tail
      · exact local_bareStatement.any.kept.tail
      · exact local_inputStatement.any.kept.tail
      · exact local_printStatement.any.kept.tail
      · exact local_usingDirective.any.kept.tail
      · split
        · exact (declaration_local ctx symbols (t :: rest)).tail
        · exact .of_error rfl trivial
    | delimiter =>
      dsimp only
      split
      · exact ((block_local ctx symbols (t :: rest)).map fun body => (Stmt.block body.1, body.2)).tail
      · exact local_expressionStatement.kept.tail
    | operator | identifier | number | char | string | stream | scope =>
      exact local_expressionStatement.kept.tail
termination_by (ts.length, 2)
decreasing_by all_goals decreasing_with omega

theorem declaration_local (ctx : Context) (symbols : SymbolTable) (ts : List Token) :
    Local true NoElse (fun _ => True) (fun ts => seen (declaration ctx symbols ts)) ts := by
  refine .of_eq (seen_declaration ctx symbols) ?_
  refine local_typeName.any.before fun type after h => ?_
  have hl : after.length < ts.length := seen_shorter h
  refine local_consumeKind.any.bind (fun name after h => ?_) fun _ h => h
  have hl : after.length < ts.length := Nat.lt_trans (seen_shorter h) hl
  refine .either startsWith_head (fun _ => ?_) fun _ => local_variableRest.any
  refine local_parameterList.any.bind (fun params after h => ?_) fun _ h => h
  have hl : after.length < ts.length := Nat.lt_trans (seen_shorter h) hl
  refine .either startsWith_head (fun _ => ?_) fun _ => ?_
  · exact (block_local ctx _ after).bind (fun _ _ _ => .pure _) fun _ h => h
  · exact local_consume.any.bind (fun _ _ _ => .pure _) fun _ h => h
termination_by (ts.length, 1)
decreasing_by all_goals decreasing_with omega

theorem block_local (ctx : Context) (symbols : SymbolTable) (ts : List Token) :
    Local true NoElse (fun _ => True) (fun ts => seen (block ctx symbols ts)) ts := by
  refine .of_eq (seen_block ctx symbols) ?_
  refine local_consume.any.bind (fun _ after h => ?_) fun _ h => h
  have hl : after.length < ts.length := seen_shorter h
  refine (blockBody_local ctx symbols after).before fun _ _ _ => ?_
  exact local_consume.any.bind (fun _ _ _ => .pure _) fun _ h => h
termination_by (ts.length, 0)
decreasing_by all_goals decreasing_with omega

theorem blockBody_local (ctx : Context) (symbols : SymbolTable) (ts : List Token) :
    Local false Nothing (fun _ => True) (fun ts => glimpsed (blockBody ctx symbols ts)) ts := by
  refine .of_eq (glimpsed_blockBody ctx symbols) ?_
  refine .choose closes_head (fun _ => .pure _) fun _ => ?_
  refine (statement_local false ctx symbols ts).bind (fun first after h => ?_) fun _ h => h.elim
  have hl : after.length < ts.length := seen_shorter h
  exact (blockBody_local ctx _ after).bind (fun _ _ _ => .pure _) fun _ h => h
termination_by (ts.length, 3)
decreasing_by all_goals decreasing_with omega

/-- Only here what follows can make a difference, as an `else` would be taken. -/
theorem ifStatement_local (ctx : Context) (symbols : SymbolTable) (ts : List Token) :
    Local true NoElse (fun _ => True) (fun ts => seen (ifStatement ctx symbols ts)) ts := by
  refine .of_eq (seen_ifStatement ctx symbols) ?_
  refine local_consume.any.bind (fun _ after h => ?_) fun _ h => h
  have hl : after.length < ts.length := seen_shorter h
  refine local_condition.any.bind (fun cond after h => ?_) fun _ h => h
  have hl : after.length < ts.length := Nat.lt_trans (seen_shorter h) hl
  refine (statement_local false ctx symbols after).bind (fun thenStmt after h => ?_) fun _ h => h
  have hl : after.length < ts.length := Nat.lt_trans (seen_shorter h) hl
  -- without the branch, only an `else` could have been read otherwise
  refine .ite startsWith_head (fun _ => ?_) (fun _ => .pure _) (.inl rfl) (.inr fun _ h => h)
    fun h => ⟨rfl, h⟩
  refine local_consume.any.bind (fun _ after h => ?_) fun _ h => h
  have hl : after.length < ts.length := Nat.lt_trans (seen_shorter h) hl
  exact (statement_local false ctx _ after).bind (fun _ _ _ => .pure _) fun _ h => h
termination_by (ts.length, 0)
decreasing_by all_goals decreasing_with omega

theorem whileStatement_local (ctx : Context) (symbols : SymbolTable) (ts : List Token) :
    Local true NoElse (fun _ => True) (fun ts => seen (whileStatement ctx symbols ts)) ts := by
  refine .of_eq (seen_whileStatement ctx symbols) ?_
  refine local_consume.any.bind (fun _ after h => ?_) fun _ h => h
  have hl : after.length < ts.length := seen_shorter h
  refine local_condition.any.bind (fun cond after h => ?_) fun _ h => h
  have hl : after.length < ts.length := Nat.lt_trans (seen_shorter h) hl
  exact (statement_local false ctx symbols after).bind (fun _ _ _ => .pure _) fun _ h => h
termination_by (ts.length, 0)
decreasing_by all_goals decreasing_with omega

theorem doStatement_local (ctx : Context) (symbols : SymbolTable) (ts : List Token) :
    Local true NoElse (fun _ => True) (fun ts => seen (doStatement ctx symbols ts)) ts := by
  refine .of_eq (seen_doStatement ctx symbols) ?_
  refine local_consume.any.bind (fun _ after h => ?_) fun _ h => h
  have hl : after.length < ts.length := seen_shorter h
  refine (statement_local false ctx symbols after).before fun _ _ _ => ?_
  refine local_consume.any.bind (fun _ _ _ => ?_) fun _ h => h
  refine local_condition.any.bind (fun _ _ _ => ?_) fun _ h => h
  exact local_consume.any.bind (fun _ _ _ => .pure _) fun _ h => h
termination_by (ts.length, 0)
decreasing_by all_goals decreasing_with omega

theorem forStatement_local (ctx : Context) (symbols : SymbolTable) (ts : List Token) :
    Local true NoElse (fun _ => True) (fun ts => seen (forStatement ctx symbols ts)) ts := by
  refine .of_eq (seen_forStatement ctx symbols) ?_
  refine local_consume.any.bind (fun _ after h => ?_) fun _ h => h
  have hl : after.length < ts.length := seen_shorter h
  refine local_consume.any.bind (fun _ after h => ?_) fun _ h => h
  have hl : after.length < ts.length := Nat.lt_trans (seen_shorter h) hl
  refine (forInit_local ctx symbols after).bind (fun init after h => ?_) fun _ h => h
  have hl : after.length < ts.length := Nat.lt_trans (seen_shorter h) hl
  refine local_optionalExpression.any.bind (fun cond after h => ?_) fun _ h => h
  have hl : after.length < ts.length := Nat.lt_trans (seen_shorter h) hl
  refine local_optionalExpression.any.bind (fun update after h => ?_) fun _ h => h
  have hl : after.length < ts.length := Nat.lt_trans (seen_shorter h) hl
  exact (statement_local false ctx _ after).bind (fun _ _ _ => .pure _) fun _ h => h
termination_by (ts.length, 0)
decreasing_by all_goals decreasing_with omega

theorem forInit_local (ctx : Context) (symbols : SymbolTable) (ts : List Token) :
    Local false NoElse (fun _ => True) (fun ts => seen (forInit ctx symbols ts)) ts := by
  refine .of_eq (seen_forInit ctx symbols) ?_
  refine .either startsWith_head (fun _ => ?_) fun _ => ?_
  · exact local_consume.any.bind (fun _ _ _ => .pure _) fun _ h => h
  · exact (statement_local true ctx symbols ts).bind (fun _ _ _ => .pure _) fun _ h => h
termination_by (ts.length, 3)
decreasing_by all_goals decreasing_with omega

end

/-! ## Programs -/

/-- The tokens left after a statement with more of them at the end. -/
theorem head_append {rest more : List Token} (he : NoElse more) :
    (rest ++ more).head? = rest.head? ∨ NoElse (rest ++ more) := by
  cases rest with
  | nil => exact .inr he
  | cons t rest => exact .inl rfl

/-- A program starts with a statement, unless it is empty. -/
theorem programFrom_cons (ctx : Context) (symbols : SymbolTable) (t : Token) (rest : List Token) :
    programFrom ctx symbols (t :: rest) =
      seen (statement ctx symbols (t :: rest)) >>= fun first =>
        (programFrom ctx first.1.2 first.2).map fun others => (first.1.1 :: others.1, others.2) := by
  rw [programFrom_eq, if_neg (by simp)]
  cases seen (statement ctx symbols (t :: rest)) with
  | error _ => rfl
  | ok first =>
    cases programFrom ctx first.1.2 first.2 <;> rfl

/-- After statements that are parsed to the end, the parser goes on with the symbols they declare. -/
theorem programFrom_append (ctx : Context) (symbols : SymbolTable) (ts more : List Token)
    {statements : List Stmt} {symbols' : SymbolTable} (he : NoElse more)
    (h : programFrom ctx symbols ts = .ok (statements, symbols')) :
    programFrom ctx symbols (ts ++ more) =
      (programFrom ctx symbols' more).map fun made => (statements ++ made.1, made.2) := by
  match ts with
  | [] =>
    rw [programFrom_eq] at h
    cases h
    cases hm : programFrom ctx symbols more <;> simp [Except.map, hm]
  | t :: rest =>
    rw [programFrom_cons] at h
    cases hs : seen (statement ctx symbols (t :: rest)) with
    | error _ =>
      rw [hs] at h
      cases h
    | ok first =>
      obtain ⟨⟨s, symbols₁⟩, after⟩ := first
      have hl : after.length < rest.length + 1 := seen_shorter hs
      -- the first statement is parsed from the tokens that it takes, whatever comes after them
      obtain ⟨taken, ht, -, hr⟩ := (statement_local false ctx symbols (t :: rest)).ok hs
      rw [hs] at h
      cases ho : programFrom ctx symbols₁ after with
      | error _ =>
        simp only [bind, Except.bind, ho] at h
        cases h
      | ok others =>
        simp only [bind, Except.bind, ho] at h
        cases h
        have hfirst := hr (after ++ more) (head_append he)
        dsimp only at ht hfirst
        rw [← List.append_assoc, ← ht, List.cons_append] at hfirst
        rw [List.cons_append, programFrom_cons, hfirst]
        change (programFrom ctx symbols₁ (after ++ more)).map _ = _
        rw [programFrom_append ctx symbols₁ after more he ho]
        cases programFrom ctx others.2 more <;> rfl
termination_by ts.length
decreasing_by all_goals decreasing_with omega

/-- Parsing is compositional: where a list of tokens is a whole program, the parser goes on after
it as it does on its own, from the symbols declared until then; only an `else` could be taken for
a part of the program before it. -/
theorem program_append {maxDepth : Int} {ts more : List Token} {statements : List Stmt}
    {symbols : SymbolTable} (h : program maxDepth ts = .ok (statements, symbols))
    (he : startsWith .keyword "else" more = false) :
    program maxDepth (ts ++ more) =
      (programFrom (.start maxDepth) symbols more).map fun made => (statements ++ made.1, made.2) :=
  programFrom_append (.start maxDepth) .empty ts more he h

/-- The tokens of `int n; if (n) n = 1;` -/
def openIf : List Token :=
  [⟨.keyword, "int", 0⟩, ⟨.identifier, "n", 4⟩, ⟨.delimiter, ";", 5⟩, ⟨.keyword, "if", 7⟩,
   ⟨.delimiter, "(", 10⟩, ⟨.identifier, "n", 11⟩, ⟨.delimiter, ")", 12⟩, ⟨.identifier, "n", 14⟩,
   ⟨.operator, "=", 16⟩, ⟨.number, "1", 18⟩, ⟨.delimiter, ";", 19⟩]

/-- The statements of `openIf`. -/
def openIfStatements : List Stmt :=
  [.declaration "int" "n" none,
   .ifElse (.name "n") (.expression (.assign .set (.name "n") (.number "1"))) none]

/-- The tokens of `n = "a";` -/
def textAssigned : List Token :=
  [⟨.identifier, "n", 21⟩, ⟨.operator, "=", 23⟩, ⟨.string, "\"a\"", 25⟩, ⟨.delimiter, ";", 28⟩]

/-- What comes after is refused for a declaration that stands before it. -/
theorem program_append_openIf :
    program 4 openIf = .ok (openIfStatements, ⟨[("n", "int")]⟩) ∧
    startsWith .keyword "else" textAssigned = false ∧
    programFrom (.start 4) ⟨[("n", "int")]⟩ textAssigned = .error (.stringAssigned "int" "n") ∧
    program 4 (openIf ++ textAssigned) = .error (.stringAssigned "int" "n") := by
  have hp : program 4 openIf = .ok (openIfStatements, ⟨[("n", "int")]⟩) := by cbv
  have he : startsWith .keyword "else" textAssigned = false := rfl
  have hm : programFrom (.start 4) ⟨[("n", "int")]⟩ textAssigned =
      .error (.stringAssigned "int" "n") := by cbv
  refine ⟨hp, he, hm, ?_⟩
  rw [program_append hp he, hm]
  rfl

end ConsoleCpp.Parser

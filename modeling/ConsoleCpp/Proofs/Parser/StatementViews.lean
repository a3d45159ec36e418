/-
The statement parsers without the lengths their results carry, in the same way as those of
expressions: each has one equation between views.
-/
import ConsoleCpp.Parser.Statement
import ConsoleCpp.Proofs.Parser.Views

namespace ConsoleCpp.Parser

/-! ## Lengths of views -/

section

variable {α : Type} {ts rest : List Token} {value : α}

/-- What is read is gone: fewer tokens follow. -/
theorem seen_shorter {result : Except CompileError (Read α ts)}
    (h : seen result = .ok (value, rest)) : rest.length < ts.length := by
  obtain ⟨hl, -⟩ := ok_of_seen h
  exact hl

/-- What may be absent takes no tokens away if it is. -/
theorem glimpsed_notLonger {result : Except CompileError (Peek α ts)}
    (h : glimpsed result = .ok (value, rest)) : rest.length ≤ ts.length := by
  cases result with
  | error _ => cases h
  | ok peek =>
    obtain ⟨v, r, hl⟩ := peek
    cases h
    exact hl

end

/-! ## Parts of statements -/

section

variable (ctx : Context) (symbols : SymbolTable) (ts : List Token)

/-- A pair of square brackets behind a name makes its type that of an array. There may be a size in
it. -/
theorem glimpsed_arraySuffix (type : String) :
    glimpsed (arraySuffix ctx type ts) =
      if startsWith .delimiter "[" ts then do
        let open' ← seen (consume .delimiter "[" ts)
        if startsWith .delimiter "]" open'.2 then
          let close ← seen (consume .delimiter "]" open'.2)
          return ((type ++ "[]", none), close.2)
        else
          let size ← seen (expression ctx 1 open'.2)
          let close ← seen (consume .delimiter "]" size.2)
          return ((type ++ "[]", some size.1), close.2)
      else return ((type, none), ts) := by
  unfold arraySuffix
  split
  · refine map_bind_of fun read => ?_
    obtain ⟨_, _, _⟩ := read
    dsimp only
    split
    · exact map_bind_of fun _ => rfl
    · exact map_bind_of fun _ => map_bind_of fun _ => rfl
  · rfl

/-- Each parameter is declared before the next one is read. -/
theorem seen_parameters :
    seen (parameters ctx symbols ts) = do
      let type ← seen (typeName ts)
      let name ← seen (consumeKind .identifier type.2)
      let suffix ← glimpsed (arraySuffix ctx type.1 name.2)
      let symbols := symbols.declare name.1.text suffix.1.1
      if startsWith .delimiter "," suffix.2 then
        let comma ← seen (consume .delimiter "," suffix.2)
        let others ← seen (parameters ctx symbols comma.2)
        return ((⟨suffix.1.1, name.1.text⟩ :: others.1.1, others.1.2), others.2)
      else return (([⟨suffix.1.1, name.1.text⟩], symbols), suffix.2) := by
  rw [parameters]
  refine map_bind_of fun _ => map_bind_of fun _ => map_bind_of fun read => ?_
  obtain ⟨⟨_, _⟩, _, _⟩ := read
  dsimp only
  split
  · refine map_bind_of fun _ => map_bind_of fun read => ?_
    obtain ⟨⟨_, _⟩, _, _⟩ := read
    rfl
  · rfl

/-- Parameters in their brackets, or none at all. -/
theorem seen_parameterList :
    seen (parameterList ctx symbols ts) = do
      let open' ← seen (consume .delimiter "(" ts)
      if startsWith .delimiter ")" open'.2 then
        let close ← seen (consume .delimiter ")" open'.2)
        return (([], symbols), close.2)
      else
        let params ← seen (parameters ctx symbols open'.2)
        let close ← seen (consume .delimiter ")" params.2)
        return (params.1, close.2) := by
  unfold parameterList
  refine map_bind_of fun read => ?_
  obtain ⟨_, _, _⟩ := read
  dsimp only
  split
  · exact map_bind_of fun _ => rfl
  · refine map_bind_of fun read => ?_
    obtain ⟨⟨_, _⟩, _, _⟩ := read
    exact map_bind_of fun _ => rfl

/-- A place that input is read into. -/
def inputTarget : Except CompileError (Expr × List Token) := do
  let target ← seen (expression ctx.streamed 1 ts)
  if target.1.isAssignable then return target else .error (.notReadable target.1 ts.head?)

/-- Places with a `>>` before each, as far as these go. -/
theorem glimpsed_inputTargets :
    glimpsed (inputTargets ctx ts) =
      if startsWith .stream ">>" ts then do
        let op ← seen (consume .stream ">>" ts)
        let target ← inputTarget ctx op.2
        let others ← glimpsed (inputTargets ctx target.2)
        return (target.1 :: others.1, others.2)
      else return ([], ts) := by
  rw [inputTargets]
  split
  · refine map_bind_of fun _ => ?_
    unfold inputTarget
    rw [bind_assoc]
    refine map_bind_of fun read => ?_
    obtain ⟨target, _, _⟩ := read
    dsimp only
    split
    · exact map_bind_of fun _ => rfl
    · rfl
  · rfl

/-- Parts up to the semicolon, which stays. Each has a `<<` before it, but an `endl` may do without.
-/
theorem glimpsed_printParts :
    glimpsed (printParts ctx ts) =
      if startsWith .delimiter ";" ts then return ([], ts)
      else if startsWith .stream "<<" ts then do
        let op ← seen (consume .stream "<<" ts)
        let part ← seen (expression ctx.streamed 1 op.2)
        let others ← glimpsed (printParts ctx part.2)
        return (part.1 :: others.1, others.2)
      else if startsWith .keyword "endl" ts then do
        let word ← seen (consume .keyword "endl" ts)
        let others ← glimpsed (printParts ctx word.2)
        return (.endl :: others.1, others.2)
      else .error (.notPrintable ts.head?) := by
  rw [printParts]
  split
  · rfl
  split
  · exact map_bind_of fun _ => map_bind_of fun _ => map_bind_of fun _ => rfl
  split
  · exact map_bind_of fun _ => map_bind_of fun _ => rfl
  · rfl

/-- A condition is an expression in round brackets. -/
theorem seen_condition :
    seen (condition ctx ts) = do
      let open' ← seen (consume .delimiter "(" ts)
      let cond ← seen (expression ctx 1 open'.2)
      let close ← seen (consume .delimiter ")" cond.2)
      return (cond.1, close.2) := by
  unfold condition
  exact map_bind_of fun _ => map_bind_of fun _ => map_bind_of fun _ => rfl

/-- An expression and what closes it, or the closing alone. -/
theorem seen_optionalExpression (close : String) :
    seen (optionalExpression ctx close ts) =
      if startsWith .delimiter close ts then do
        let last ← seen (consume .delimiter close ts)
        return (none, last.2)
      else do
        let value ← seen (expression ctx 1 ts)
        let last ← seen (consume .delimiter close value.2)
        return (some value.1, last.2) := by
  unfold optionalExpression
  split
  · exact map_bind_of fun _ => rfl
  · exact map_bind_of fun _ => map_bind_of fun _ => rfl

/-! ## Statements without statements inside -/

/-- An assignment is checked against the symbols before its semicolon is looked for. -/
theorem seen_checkedExpression :
    seen (checkedExpression ctx symbols ts) = do
      let e ← seen (expression ctx 1 ts)
      checkAssignment symbols e.1
      let last ← seen (consume .delimiter ";" e.2)
      return (e.1, last.2) := by
  unfold checkedExpression
  exact map_bind_of fun _ => map_then_of fun _ => map_bind_of fun _ => rfl

/-- An error inside is reported as one of the statement. -/
theorem seen_expressionStatement (first : Token) :
    seen (expressionStatement ctx symbols first ts) =
      ((seen (checkedExpression ctx symbols ts)).mapError (·.inStatement first)).map
        fun e => (.expression e.1, e.2) := by
  unfold expressionStatement
  cases checkedExpression ctx symbols ts <;> rfl

/-- A variable is declared with its suffix before its value is read, so the value may use it. -/
theorem seen_variableRest (type name : String) :
    seen (variableRest ctx symbols type name ts) = do
      let suffix ← glimpsed (arraySuffix ctx type ts)
      let symbols := symbols.declare name suffix.1.1
      let array := suffix.1.2.map (.newArray (dropMarks ((Text.words type).getLast?.getD "")))
      if startsWith .operator "=" suffix.2 then
        let mark ← seen (consume .operator "=" suffix.2)
        let value ← seen (expression ctx 1 mark.2)
        let last ← seen (consume .delimiter ";" value.2)
        return ((.declaration suffix.1.1 name (some value.1), symbols), last.2)
      else
        let last ← seen (consume .delimiter ";" suffix.2)
        return ((.declaration suffix.1.1 name array, symbols), last.2) := by
  unfold variableRest
  refine map_bind_of fun read => ?_
  obtain ⟨⟨_, _⟩, _, _⟩ := read
  dsimp only
  split
  · exact map_bind_of fun _ => map_bind_of fun _ => map_bind_of fun _ => rfl
  · exact map_bind_of fun _ => rfl

theorem seen_usingDirective :
    seen (usingDirective ts) = do
      let word ← seen (consume .keyword "using" ts)
      let word ← seen (consume .keyword "namespace" word.2)
      let space ← seen (consumeKind .identifier word.2)
      let last ← seen (consume .delimiter ";" space.2)
      return (.usingSpace space.1.text, last.2) := by
  unfold usingDirective
  exact map_bind_of fun _ => map_bind_of fun _ => map_bind_of fun _ => map_bind_of fun _ => rfl

theorem seen_inputStatement :
    seen (inputStatement ctx ts) = do
      let word ← seen (consume .keyword "cin" ts)
      let targets ← glimpsed (inputTargets ctx word.2)
      let last ← seen (consume .delimiter ";" targets.2)
      return (.input targets.1, last.2) := by
  unfold inputStatement
  exact map_bind_of fun _ => map_bind_of fun _ => map_bind_of fun _ => rfl

theorem seen_printStatement :
    seen (printStatement ctx ts) = do
      let word ← seen (consume .keyword "cout" ts)
      let parts ← glimpsed (printParts ctx word.2)
      let last ← seen (consume .delimiter ";" parts.2)
      return (.print parts.1, last.2) := by
  unfold printStatement
  exact map_bind_of fun _ => map_bind_of fun _ => map_bind_of fun _ => rfl

theorem seen_returnStatement :
    seen (returnStatement ctx ts) = do
      let word ← seen (consume .keyword "return" ts)
      let value ← seen (optionalExpression ctx ";" word.2)
      return (.ret value.1, value.2) := by
  unfold returnStatement
  exact map_bind_of fun _ => map_bind_of fun _ => rfl

theorem seen_bareStatement (keyword : String) (s : Stmt) :
    seen (bareStatement keyword s ts) = do
      let word ← seen (consume .keyword keyword ts)
      let last ← seen (consume .delimiter ";" word.2)
      return (s, last.2) := by
  unfold bareStatement
  exact map_bind_of fun _ => map_bind_of fun _ => rfl

/-- A statement that declares nothing, with the symbols as they were. -/
def kept (symbols : SymbolTable) (made : Except CompileError (Stmt × List Token)) :
    Except CompileError ((Stmt × SymbolTable) × List Token) :=
  made.map fun s => ((s.1, symbols), s.2)

variable {ts} in
/-- What declares nothing is read as it is, and the symbols are put beside it. -/
theorem seen_keeping (read : Except CompileError (Read Stmt ts)) :
    seen (keeping symbols read) = kept symbols (seen read) := by
  cases read <;> rfl

/-! ## Statements -/

/-- A statement that starts with `t`, by the kind and the text of `t`. -/
def started (t : Token) (rest : List Token) :
    Except CompileError ((Stmt × SymbolTable) × List Token) :=
  match t.kind with
  | .header => return ((.header (headerPath t.text), symbols), rest)
  | .keyword =>
    match t.text with
    | "if" => seen (ifStatement ctx symbols (t :: rest))
    | "while" => seen (whileStatement ctx symbols (t :: rest))
    | "do" => seen (doStatement ctx symbols (t :: rest))
    | "for" => seen (forStatement ctx symbols (t :: rest))
    | "return" => kept symbols (seen (returnStatement ctx (t :: rest)))
    | "break" => kept symbols (seen (bareStatement "break" .breakLoop (t :: rest)))
    | "continue" => kept symbols (seen (bareStatement "continue" .continueLoop (t :: rest)))
    | "cin" => kept symbols (seen (inputStatement ctx (t :: rest)))
    | "cout" => kept symbols (seen (printStatement ctx (t :: rest)))
    | "using" => kept symbols (seen (usingDirective (t :: rest)))
    | text =>
      if declarationKeywords.contains text then seen (declaration ctx symbols (t :: rest))
      else .error (.unsupportedKeyword t)
  | .delimiter =>
    if t.text == "\x7b" then do
      let body ← seen (block ctx symbols (t :: rest))
      return ((.block body.1.1, body.1.2), body.2)
    else kept symbols (seen (expressionStatement ctx symbols t (t :: rest)))
  | _ => kept symbols (seen (expressionStatement ctx symbols t (t :: rest)))

theorem seen_statement_nil : seen (statement ctx symbols []) = .error .statementMissing := by
  rw [statement]
  rfl

/-- A statement lies one level deeper than what it stands in, and its first token tells its form. -/
theorem seen_statement_cons (t : Token) (rest : List Token) :
    seen (statement ctx symbols (t :: rest)) =
      ctx.enter t >>= fun ctx => started ctx symbols t rest := by
  rw [statement]
  refine map_then_of fun ctx => ?_
  unfold started
  cases t.kind with
  | header => rfl
  | keyword =>
    generalize t.text = text
    dsimp only
    split
    -- the four statements that have statements inside pass the symbols on
    · rfl
    · rfl
    · rfl
    · rfl
    -- the others keep them
    · exact seen_keeping symbols _
    · exact seen_keeping symbols _
    · exact seen_keeping symbols _
    · exact seen_keeping symbols _
    · exact seen_keeping symbols _
    · exact seen_keeping symbols _
    -- any other keyword starts a declaration or nothing
    · cases hd : declarationKeywords.contains text with
      | true =>
        simp only [*, if_true]
        rfl
      | false =>
        simp only [*, Bool.false_eq_true, if_false]
        rfl
  | delimiter =>
    dsimp only
    split
    · refine map_bind_of fun read => ?_
      obtain ⟨⟨_, _⟩, _, _⟩ := read
      rfl
    · exact seen_keeping symbols _
  | operator | identifier | number | char | string | stream | scope => exact seen_keeping symbols _

/-- A bracket behind the name tells a function from a variable, and a block behind the parameters
its definition from a prototype. The name of a function is declared before its parameters. -/
theorem seen_declaration :
    seen (declaration ctx symbols ts) = (do
      let type ← seen (typeName ts)
      let name ← seen (consumeKind .identifier type.2)
      if startsWith .delimiter "(" name.2 then
        let params ← seen (parameterList ctx (symbols.declare name.1.text type.1) name.2)
        if startsWith .delimiter "\x7b" params.2 then
          let body ← seen (block ctx params.1.2 params.2)
          return ((.function type.1 name.1.text params.1.1 body.1.1, body.1.2), body.2)
        else
          let last ← seen (consume .delimiter ";" params.2)
          return ((.prototype type.1 name.1.text params.1.1, params.1.2), last.2)
      else seen (variableRest ctx symbols type.1 name.1.text name.2)) := by
  rw [declaration]
  refine map_bind_of fun _ => map_bind_of fun name => ?_
  obtain ⟨_, _, _⟩ := name
  dsimp only
  split
  · refine map_bind_of fun params => ?_
    obtain ⟨⟨_, _⟩, _, _⟩ := params
    dsimp only
    split
    · refine map_bind_of fun body => ?_
      obtain ⟨⟨_, _⟩, _, _⟩ := body
      rfl
    · exact map_bind_of fun _ => rfl
  · exact map_last_of fun _ => rfl

theorem seen_block :
    seen (block ctx symbols ts) = do
      let open' ← seen (consume .delimiter "\x7b" ts)
      let body ← glimpsed (blockBody ctx symbols open'.2)
      let close ← seen (consume .delimiter "\x7d" body.2)
      return (body.1, close.2) := by
  rw [block]
  exact map_bind_of fun _ => map_bind_of fun _ => map_bind_of fun _ => rfl

/-- Statements up to the closing brace or the end of the tokens, each with the symbols of those
before it. -/
theorem glimpsed_blockBody :
    glimpsed (blockBody ctx symbols ts) =
      if ts.isEmpty || startsWith .delimiter "\x7d" ts then return (([], symbols), ts)
      else do
        let first ← seen (statement ctx symbols ts)
        let others ← glimpsed (blockBody ctx first.1.2 first.2)
        return ((first.1.1 :: others.1.1, others.1.2), others.2) := by
  rw [blockBody]
  split
  · rfl
  · refine map_bind_of fun read => ?_
    obtain ⟨⟨_, _⟩, _, _⟩ := read
    refine map_bind_of fun read => ?_
    obtain ⟨⟨_, _⟩, _, _⟩ := read
    rfl

/-- An `else` that follows is taken, by whichever conditional sees it first. -/
theorem seen_ifStatement :
    seen (ifStatement ctx symbols ts) = do
      let word ← seen (consume .keyword "if" ts)
      let cond ← seen (condition ctx word.2)
      let thenStmt ← seen (statement ctx symbols cond.2)
      if startsWith .keyword "else" thenStmt.2 then
        let word ← seen (consume .keyword "else" thenStmt.2)
        let elseStmt ← seen (statement ctx thenStmt.1.2 word.2)
        return ((.ifElse cond.1 thenStmt.1.1 (some elseStmt.1.1), elseStmt.1.2), elseStmt.2)
      else return ((.ifElse cond.1 thenStmt.1.1 none, thenStmt.1.2), thenStmt.2) := by
  rw [ifStatement]
  refine map_bind_of fun _ => map_bind_of fun _ => map_bind_of fun read => ?_
  obtain ⟨⟨_, _⟩, _, _⟩ := read
  dsimp only
  split
  · refine map_bind_of fun _ => map_bind_of fun read => ?_
    obtain ⟨⟨_, _⟩, _, _⟩ := read
    rfl
  · rfl

theorem seen_whileStatement :
    seen (whileStatement ctx symbols ts) = do
      let word ← seen (consume .keyword "while" ts)
      let cond ← seen (condition ctx word.2)
      let body ← seen (statement ctx symbols cond.2)
      return ((.whileLoop cond.1 body.1.1, body.1.2), body.2) := by
  rw [whileStatement]
  refine map_bind_of fun _ => map_bind_of fun _ => map_bind_of fun read => ?_
  obtain ⟨⟨_, _⟩, _, _⟩ := read
  rfl

theorem seen_doStatement :
    seen (doStatement ctx symbols ts) = do
      let word ← seen (consume .keyword "do" ts)
      let body ← seen (statement ctx symbols word.2)
      let word ← seen (consume .keyword "while" body.2)
      let cond ← seen (condition ctx word.2)
      let last ← seen (consume .delimiter ";" cond.2)
      return ((.doLoop cond.1 body.1.1, body.1.2), last.2) := by
  rw [doStatement]
  refine map_bind_of fun _ => map_bind_of fun read => ?_
  obtain ⟨⟨_, _⟩, _, _⟩ := read
  exact map_bind_of fun _ => map_bind_of fun _ => map_bind_of fun _ => rfl

/-- A loop without a condition goes on forever. -/
theorem seen_forStatement :
    seen (forStatement ctx symbols ts) = do
      let word ← seen (consume .keyword "for" ts)
      let open' ← seen (consume .delimiter "(" word.2)
      let init ← seen (forInit ctx symbols open'.2)
      let cond ← seen (optionalExpression ctx ";" init.2)
      let update ← seen (optionalExpression ctx ")" cond.2)
      let body ← seen (statement ctx init.1.2 update.2)
      return ((.forLoop init.1.1 (cond.1.getD (.bool true)) update.1 body.1.1, body.1.2),
        body.2) := by
  rw [forStatement]
  refine map_bind_of fun _ => map_bind_of fun _ => map_bind_of fun read => ?_
  obtain ⟨⟨_, _⟩, _, _⟩ := read
  refine map_bind_of fun _ => map_bind_of fun _ => map_bind_of fun read => ?_
  obtain ⟨⟨_, _⟩, _, _⟩ := read
  rfl

/-- The semicolon behind the first part of a head belongs to the statement in it. -/
theorem seen_forInit :
    seen (forInit ctx symbols ts) =
      if startsWith .delimiter ";" ts then do
        let last ← seen (consume .delimiter ";" ts)
        return ((none, symbols), last.2)
      else do
        let init ← seen (statement ctx symbols ts)
        return ((some init.1.1, init.1.2), init.2) := by
  rw [forInit]
  split
  · exact map_bind_of fun _ => rfl
  · refine map_bind_of fun read => ?_
    obtain ⟨⟨_, _⟩, _, _⟩ := read
    rfl

/-- A program is statements to the end of its tokens. -/
theorem programFrom_eq :
    programFrom ctx symbols ts =
      if ts.isEmpty then .ok ([], symbols)
      else do
        let first ← seen (statement ctx symbols ts)
        let others ← programFrom ctx first.1.2 first.2
        return (first.1.1 :: others.1, others.2) := by
  rw [programFrom]
  split
  · rfl
  · cases statement ctx symbols ts with
    | error _ => rfl
    | ok read =>
      obtain ⟨⟨_, _⟩, _, _⟩ := read
      rfl

end

end ConsoleCpp.Parser

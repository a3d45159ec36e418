/-
What the statements look like that the parser makes of the tokens of a source text: everywhere in
them names are names, what is stored to is a place, and a header has a path. A statement ends where
no number stands, so the next one starts on settled tokens again.
-/
import ConsoleCpp.Compile
import ConsoleCpp.Proofs.Parser.Sourced

namespace ConsoleCpp

open Token (Settled HeaderText)

namespace Parser

/-- Everything from the node down is as the parser makes it. Of the type of an array that a
declaration makes nothing is said. -/
def Built (node : Node) : Prop := node.Everywhere (Node.Sourced fun _ => True)

theorem built_iff {node : Node} :
    Built node ↔ node.Sourced (fun _ => True) ∧ ∀ child ∈ node.children, Built child :=
  Node.everywhere_iff

/-- In a statement less is asked of an expression, as nothing is said of types. -/
theorem Made.built {e : Expr} (h : Made e) : Built (.expr e) := by
  refine Node.Everywhere.imp h fun node hn => ?_
  cases node with
  | param p => exact hn
  | stmt s => cases s <;> exact hn
  | expr e =>
    cases e with
    | newObject typeName | newArray typeName size => trivial
    | unary op operand => cases op <;> exact hn
    | _ => exact hn

/-! ## Parts of statements -/

section

variable {afterNumber : Bool} {ctx : Context} {ts : List Token}

/-- Modifiers and marks can be left out of a type, since none of them is a number. -/
theorem settled_dropWhile {p : Token → Bool} (hp : ∀ t, p t = true → t.kind ≠ .number)
    (hs : Settled false ts) : Settled false (ts.dropWhile p) := by
  induction ts with
  | nil => exact hs
  | cons t rest ih =>
    rw [List.dropWhile_cons]
    split
    · rename_i ht
      exact ih (settled_tail hs (hp t ht))
    · exact hs

theorem number_of_isModifier (t : Token) (h : isModifier t = true) : t.kind ≠ .number := by
  rw [isModifier, Bool.and_eq_true, beq_iff_eq] at h
  rw [h.1]
  decide

theorem number_of_isMark (t : Token) (h : isMark t = true) : t.kind ≠ .number := by
  have hk : t.kind = .operator := by
    simp only [isMark, Token.isA, Bool.or_eq_true, Bool.and_eq_true, beq_iff_eq] at h
    rcases h with h | h <;> exact h.1
  rw [hk]
  decide

/-- A type is a word between its modifiers and its marks. -/
theorem leaves_typeName (hs : Settled false ts) : Leaves false (fun _ => True) (typeName ts) := by
  unfold typeName
  dsimp only
  split
  · trivial
  · rename_i t rest hd
    split
    · rename_i ht
      have hs' : Settled false (t :: rest) := hd ▸ settled_dropWhile number_of_isModifier hs
      refine ⟨trivial, settled_dropWhile number_of_isMark (settled_tail hs' fun hk => ?_)⟩
      simp [hk] at ht
    · trivial

/-- Without a size there is nothing to be made. -/
theorem passes_arraySuffix {type : String} (hs : Settled false ts) :
    Passes false (fun suffix => ∀ size ∈ suffix.2, Made size) (arraySuffix ctx type ts) := by
  unfold arraySuffix
  split
  · refine (leaves_consume .delimiter hs (by decide)).bind fun _ after _ _ hr => ?_
    dsimp only at hr ⊢
    split
    · refine (leaves_consume .delimiter hr (by decide)).bind fun _ _ _ _ hr => ?_
      exact ⟨nofun, hr⟩
    · refine (expression_made ctx 1 after hr).bind fun size _ _ hm hr => ?_
      refine (leaves_consume .delimiter hr (by decide)).bind fun _ _ _ _ hr => ?_
      exact ⟨by rintro _ ⟨⟩; exact hm, hr⟩
  · exact ⟨nofun, hs⟩

theorem parameters_made (ctx : Context) (symbols : SymbolTable) (ts : List Token)
    (hs : Settled false ts) :
    Leaves false (fun made => ∀ p ∈ made.1, IsName p.name) (parameters ctx symbols ts) := by
  rw [parameters]
  refine (leaves_typeName hs).bind fun type after h₁ _ hr => ?_
  refine (leaves_consumeKind hr).bind fun name after h₂ hn hr => ?_
  refine (passes_arraySuffix hr).bind fun suffix after h₃ _ hr => ?_
  dsimp only at hr ⊢
  split
  · refine (leaves_consume .delimiter hr (by decide)).bind fun _ after h₄ _ hr => ?_
    refine (parameters_made ctx _ after hr).bind fun others after h₅ ho hr => ?_
    exact ⟨List.forall_mem_cons.2 ⟨hn, ho⟩, hr⟩
  · exact ⟨List.forall_mem_singleton.2 hn, hr⟩
termination_by ts.length
decreasing_by all_goals decreasing_with omega

theorem leaves_parameterList {symbols : SymbolTable} (hs : Settled false ts) :
    Leaves false (fun made => ∀ p ∈ made.1, IsName p.name) (parameterList ctx symbols ts) := by
  unfold parameterList
  refine (leaves_consume .delimiter hs (by decide)).bind fun _ after _ _ hr => ?_
  dsimp only at hr ⊢
  split
  · refine (leaves_consume .delimiter hr (by decide)).bind fun _ _ _ _ hr => ?_
    exact ⟨nofun, hr⟩
  · refine (parameters_made ctx symbols after hr).bind fun made _ _ hm hr => ?_
    refine (leaves_consume .delimiter hr (by decide)).bind fun _ _ _ _ hr => ?_
    exact ⟨hm, hr⟩

/-- The parser checks here that each target is a place. -/
theorem inputTargets_made (ctx : Context) (ts : List Token) (hs : Settled true ts) :
    Passes true (fun targets => ∀ target ∈ targets, Made target ∧ target.isAssignable = true)
      (inputTargets ctx ts) := by
  rw [inputTargets]
  split
  · refine (leaves_consume .stream hs (by decide)).bind fun _ after h₁ _ hr => ?_
    refine (expression_made ctx.streamed 1 after hr).bind fun target after h₂ hm hr => ?_
    dsimp only at hm hr ⊢
    split
    · rename_i ha
      refine (inputTargets_made ctx after hr).bind fun others _ _ ho hr => ?_
      exact ⟨List.forall_mem_cons.2 ⟨⟨hm, ha⟩, ho⟩, hr⟩
    · trivial
  · exact ⟨nofun, hs⟩
termination_by ts.length
decreasing_by all_goals decreasing_with omega

/-- What is printed is read expression by expression. A last number may stand before the semicolon.
-/
theorem printParts_made (ctx : Context) (ts : List Token) (hs : Settled true ts) :
    Passes true (fun parts => ∀ part ∈ parts, Made part) (printParts ctx ts) := by
  rw [printParts]
  split
  · exact ⟨nofun, hs⟩
  split
  · refine (leaves_consume .stream hs (by decide)).bind fun _ after h₁ _ hr => ?_
    refine (expression_made ctx.streamed 1 after hr).bind fun part after h₂ hm hr => ?_
    refine (printParts_made ctx after hr).bind fun others _ _ ho hr => ?_
    exact ⟨List.forall_mem_cons.2 ⟨hm, ho⟩, hr⟩
  split
  · refine (leaves_consume .keyword hs (by decide)).bind fun _ after h₁ _ hr => ?_
    refine (printParts_made ctx after (settled_true hr)).bind fun others _ _ ho hr => ?_
    exact ⟨List.forall_mem_cons.2 ⟨made_endl, ho⟩, hr⟩
  · trivial
termination_by ts.length
decreasing_by all_goals decreasing_with omega

/-- The bracket at the end settles what follows, whatever the condition ends with. -/
theorem leaves_condition (hs : Settled afterNumber ts) : Leaves false Made (condition ctx ts) := by
  unfold condition
  refine (leaves_consume .delimiter hs (by decide)).bind fun _ after _ _ hr => ?_
  refine (expression_made ctx 1 after hr).bind fun cond _ _ hm hr => ?_
  refine (leaves_consume .delimiter hr (by decide)).bind fun _ _ _ _ hr => ?_
  exact ⟨hm, hr⟩

theorem leaves_optionalExpression {close : String} (hs : Settled false ts) :
    Leaves false (fun value => ∀ e ∈ value, Made e) (optionalExpression ctx close ts) := by
  unfold optionalExpression
  split
  · refine (leaves_consume .delimiter hs (by decide)).bind fun _ _ _ _ hr => ?_
    exact ⟨nofun, hr⟩
  · refine (expression_made ctx 1 ts hs).bind fun value _ _ hm hr => ?_
    refine (leaves_consume .delimiter hr (by decide)).bind fun _ _ _ _ hr => ?_
    exact ⟨by rintro _ ⟨⟩; exact hm, hr⟩

end

/-! ## Statements without statements inside -/

section

variable {afterNumber : Bool} {ctx : Context} {symbols : SymbolTable} {ts : List Token}

/-- The path of a header is what stands between its brackets, without the blanks around it. -/
theorem headerPath_of_text {text : String} {path : List Char} (h : HeaderText path text.toList) :
    headerPath text = Text.trimBlanks (String.ofList path) := by
  obtain ⟨gap, hg, -, hp, ht⟩ := h
  have hd : ∀ c ∈ "#include".toList ++ gap, (c != '<') = true := by
    refine List.forall_mem_append.2 ⟨List.all_eq_true.1 (by decide), fun c hc => ?_⟩
    rw [bne_iff_ne]
    rintro rfl
    exact absurd (hg _ hc) (by decide)
  have hp' : ∀ c ∈ path, (c != '>') = true := fun c hc => by
    rw [bne_iff_ne]
    rintro rfl
    exact hp hc
  rw [headerPath, ht, List.dropWhile_append_of_pos hd]
  simp [List.takeWhile_append_of_pos hp']

/-- A header is one token, and its text has the path in it. -/
theorem built_header {t : Token} (ht : t.Genuine) (hk : t.kind = .header) :
    Built (.stmt (.header (headerPath t.text))) := by
  have hg := ht.text
  rw [hk] at hg
  obtain ⟨path, hp⟩ := hg
  refine built_iff.2 ⟨⟨path, ?_, ?_, headerPath_of_text hp⟩, nofun⟩
  · obtain ⟨_, _, h, _⟩ := hp
    exact h
  · obtain ⟨_, _, _, h, _⟩ := hp
    exact h

/-- A statement, with the symbols after it, in which everything is as the parser makes it. -/
def StmtBuilt (made : Stmt × SymbolTable) : Prop := Built (.stmt made.1)

/-- The check of an assignment may refuse the expression but does not change it. -/
theorem leaves_expressionStatement {first : Token} (hs : Settled false ts) :
    Leaves false (fun s => Built (.stmt s)) (expressionStatement ctx symbols first ts) := by
  have hc : Leaves false Made (checkedExpression ctx symbols ts) := by
    unfold checkedExpression
    refine (expression_made ctx 1 ts hs).bind fun e _ _ hm hr => ?_
    refine .bind_any fun _ => ?_
    refine (leaves_consume .delimiter hr (by decide)).bind fun _ _ _ _ hr => ?_
    exact ⟨hm, hr⟩
  unfold expressionStatement
  split
  · trivial
  · rename_i e rest h he
    obtain ⟨hm, hr⟩ := hc.ok he
    exact ⟨built_iff.2 ⟨trivial, List.forall_mem_singleton.2 hm.built⟩, hr⟩

/-- The initial value is an expression of the source, or the array that the suffix stands for. -/
theorem leaves_variableRest {type name : String} (hn : IsName name) (hs : Settled false ts) :
    Leaves false StmtBuilt (variableRest ctx symbols type name ts) := by
  unfold variableRest
  refine (passes_arraySuffix hs).bind fun suffix after _ hz hr => ?_
  obtain ⟨varType, size⟩ := suffix
  dsimp only at hz hr ⊢
  split
  · refine (leaves_consume .operator hr (by decide)).bind fun _ after _ _ hr => ?_
    refine (expression_made ctx 1 after hr).bind fun value _ _ hm hr => ?_
    refine (leaves_consume .delimiter hr (by decide)).bind fun _ _ _ _ hr => ?_
    exact ⟨built_iff.2 ⟨hn, List.forall_mem_singleton.2 hm.built⟩, hr⟩
  · refine (leaves_consume .delimiter hr (by decide)).bind fun _ _ _ _ hr => ?_
    refine ⟨built_iff.2 ⟨hn, ?_⟩, hr⟩
    cases size with
    | none => nofun
    | some size =>
      -- the array that the declaration makes
      refine List.forall_mem_singleton.2 (built_iff.2 ⟨trivial, ?_⟩)
      exact List.forall_mem_singleton.2 (hz size rfl).built

theorem leaves_usingDirective (hs : Settled false ts) :
    Leaves false (fun s => Built (.stmt s)) (usingDirective ts) := by
  unfold usingDirective
  refine (leaves_consume .keyword hs (by decide)).bind fun _ _ _ _ hr => ?_
  refine (leaves_consume .keyword hr (by decide)).bind fun _ _ _ _ hr => ?_
  refine (leaves_consumeKind hr).bind fun space _ _ hn hr => ?_
  refine (leaves_consume .delimiter hr (by decide)).bind fun _ _ _ _ hr => ?_
  exact ⟨built_iff.2 ⟨hn, nofun⟩, hr⟩

theorem leaves_inputStatement (hs : Settled false ts) :
    Leaves false (fun s => Built (.stmt s)) (inputStatement ctx ts) := by
  unfold inputStatement
  refine (leaves_consume .keyword hs (by decide)).bind fun _ after _ _ hr => ?_
  refine (inputTargets_made ctx after (settled_true hr)).bind fun targets _ _ hm hr => ?_
  refine (leaves_consume .delimiter hr (by decide)).bind fun _ _ _ _ hr => ?_
  refine ⟨built_iff.2 ⟨fun target ht => (hm target ht).2, ?_⟩, hr⟩
  exact List.forall_mem_map.2 fun target ht => (hm target ht).1.built

theorem leaves_printStatement (hs : Settled false ts) :
    Leaves false (fun s => Built (.stmt s)) (printStatement ctx ts) := by
  unfold printStatement
  refine (leaves_consume .keyword hs (by decide)).bind fun _ after _ _ hr => ?_
  refine (printParts_made ctx after (settled_true hr)).bind fun parts _ _ hm hr => ?_
  refine (leaves_consume .delimiter hr (by decide)).bind fun _ _ _ _ hr => ?_
  exact ⟨built_iff.2 ⟨trivial, List.forall_mem_map.2 fun part hp => (hm part hp).built⟩, hr⟩

theorem leaves_returnStatement (hs : Settled false ts) :
    Leaves false (fun s => Built (.stmt s)) (returnStatement ctx ts) := by
  unfold returnStatement
  refine (leaves_consume .keyword hs (by decide)).bind fun _ after _ _ hr => ?_
  refine (leaves_optionalExpression hr).bind fun value _ _ hm hr => ?_
  refine ⟨built_iff.2 ⟨trivial, List.forall_mem_map.2 fun e he => ?_⟩, hr⟩
  exact (hm e (Option.mem_toList.1 he)).built

theorem leaves_bareStatement {keyword : String} {s : Stmt} (hb : Built (.stmt s))
    (hs : Settled false ts) :
    Leaves false (fun s => Built (.stmt s)) (bareStatement keyword s ts) := by
  unfold bareStatement
  refine (leaves_consume .keyword hs (by decide)).bind fun _ _ _ _ hr => ?_
  refine (leaves_consume .delimiter hr (by decide)).bind fun _ _ _ _ hr => ?_
  exact ⟨hb, hr⟩

theorem leaves_keeping {read : Except CompileError (Read Stmt ts)}
    (h : Leaves false (fun s => Built (.stmt s)) read) :
    Leaves false StmtBuilt (keeping symbols read) := by
  cases read with
  | error _ => trivial
  | ok read => exact h

end

/-! ## Statements -/

/-- A list of statements, with the symbols after them, in which everything is as the parser makes
it. -/
def BodyBuilt (made : List Stmt × SymbolTable) : Prop := ∀ s ∈ made.1, Built (.stmt s)

mutual

/-- By the tokens that are left: each form of a statement ends behind a semicolon, a brace or a
bracket, where the next one can start. -/
theorem statement_built (ctx : Context) (symbols : SymbolTable) (ts : List Token)
    (hs : Settled false ts) : Leaves false StmtBuilt (statement ctx symbols ts) := by
  match ts, hs with
  | [], _ =>
    rw [statement]
    trivial
  | t :: rest, hs =>
    rw [statement]
    refine .bind_any fun ctx => ?_
    cases hk : t.kind with
    | header => exact ⟨built_header hs.1 hk, settled_tail hs (by rw [hk]; decide)⟩
    | keyword =>
      dsimp only
      split
      · exact ifStatement_built ctx symbols (t :: rest) hs
      · exact whileStatement_built ctx symbols (t :: rest) hs
      · exact doStatement_built ctx symbols (t :: rest) hs
      · exact forStatement_built ctx symbols (t :: rest) hs
      · exact leaves_keeping (leaves_returnStatement hs)
      · exact leaves_keeping (leaves_bareStatement (built_iff.2 ⟨trivial, nofun⟩) hs)
      · exact leaves_keeping (leaves_bareStatement (built_iff.2 ⟨trivial, nofun⟩) hs)
      · exact leaves_keeping (leaves_inputStatement hs)
      · exact leaves_keeping (leaves_printStatement hs)
      · exact leaves_keeping (leaves_usingDirective hs)
      · split
        · exact declaration_built ctx symbols (t :: rest) hs
        · trivial
    | delimiter =>
      dsimp only
      split
      · refine (block_built ctx symbols (t :: rest) hs).bind fun body _ _ hb hr => ?_
        exact ⟨built_iff.2 ⟨trivial, List.forall_mem_map.2 hb⟩, hr⟩
      · exact leaves_keeping (leaves_expressionStatement hs)
    | _ => exact leaves_keeping (leaves_expressionStatement hs)
termination_by (ts.length, 2)
decreasing_by all_goals decreasing_with omega

/-- Each parameter is a node of its own, with its name. -/
theorem declaration_built (ctx : Context) (symbols : SymbolTable) (ts : List Token)
    (hs : Settled false ts) : Leaves false StmtBuilt (declaration ctx symbols ts) := by
  rw [declaration]
  refine (leaves_typeName hs).bind fun type after h₁ _ hr => ?_
  refine (leaves_consumeKind hr).bind fun name after h₂ hn hr => ?_
  dsimp only at hn hr ⊢
  split
  · refine (leaves_parameterList hr).bind fun made after h₃ hp hr => ?_
    have hps : ∀ p ∈ made.1, Built (.param p) := fun p hm => built_iff.2 ⟨hp p hm, nofun⟩
    dsimp only at hr ⊢
    split
    · refine (block_built ctx made.2 after hr).bind fun body after h₄ hb hr => ?_
      refine ⟨built_iff.2 ⟨hn, List.forall_mem_append.2 ⟨List.forall_mem_map.2 hps, ?_⟩⟩, hr⟩
      exact List.forall_mem_singleton.2 (built_iff.2 ⟨trivial, List.forall_mem_map.2 hb⟩)
    · refine (leaves_consume .delimiter hr (by decide)).bind fun _ _ _ _ hr => ?_
      exact ⟨built_iff.2 ⟨hn, List.forall_mem_map.2 hps⟩, hr⟩
  · exact (leaves_variableRest hn hr).bind fun _ _ _ hd hr => ⟨hd, hr⟩
termination_by (ts.length, 1)
decreasing_by all_goals decreasing_with omega

theorem block_built (ctx : Context) (symbols : SymbolTable) (ts : List Token)
    (hs : Settled false ts) : Leaves false BodyBuilt (block ctx symbols ts) := by
  rw [block]
  refine (leaves_consume .delimiter hs (by decide)).bind fun _ after h₁ _ hr => ?_
  refine (blockBody_built ctx symbols after hr).bind fun body _ _ hb hr => ?_
  refine (leaves_consume .delimiter hr (by decide)).bind fun _ _ _ _ hr => ?_
  exact ⟨hb, hr⟩
termination_by (ts.length, 0)
decreasing_by all_goals decreasing_with omega

theorem blockBody_built (ctx : Context) (symbols : SymbolTable) (ts : List Token)
    (hs : Settled false ts) : Passes false BodyBuilt (blockBody ctx symbols ts) := by
  rw [blockBody]
  split
  · exact ⟨nofun, hs⟩
  · refine (statement_built ctx symbols ts hs).bind fun first after h₁ hf hr => ?_
    refine (blockBody_built ctx first.2 after hr).bind fun others _ _ ho hr => ?_
    exact ⟨List.forall_mem_cons.2 ⟨hf, ho⟩, hr⟩
termination_by (ts.length, 3)
decreasing_by all_goals decreasing_with omega

theorem ifStatement_built (ctx : Context) (symbols : SymbolTable) (ts : List Token)
    (hs : Settled false ts) : Leaves false StmtBuilt (ifStatement ctx symbols ts) := by
  rw [ifStatement]
  refine (leaves_consume .keyword hs (by decide)).bind fun _ after h₁ _ hr => ?_
  refine (leaves_condition hr).bind fun cond after h₂ hc hr => ?_
  refine (statement_built ctx symbols after hr).bind fun thenStmt after h₃ ht hr => ?_
  dsimp only at hr ⊢
  split
  · refine (leaves_consume .keyword hr (by decide)).bind fun _ after h₄ _ hr => ?_
    refine (statement_built ctx thenStmt.2 after hr).bind fun elseStmt _ _ he hr => ?_
    refine ⟨built_iff.2 ⟨trivial, List.forall_mem_cons.2 ⟨hc.built, ?_⟩⟩, hr⟩
    exact List.forall_mem_cons.2 ⟨ht, List.forall_mem_singleton.2 he⟩
  · refine ⟨built_iff.2 ⟨trivial, List.forall_mem_cons.2 ⟨hc.built, ?_⟩⟩, hr⟩
    exact List.forall_mem_singleton.2 ht
termination_by (ts.length, 0)
decreasing_by all_goals decreasing_with omega

theorem whileStatement_built (ctx : Context) (symbols : SymbolTable) (ts : List Token)
    (hs : Settled false ts) : Leaves false StmtBuilt (whileStatement ctx symbols ts) := by
  rw [whileStatement]
  refine (leaves_consume .keyword hs (by decide)).bind fun _ after h₁ _ hr => ?_
  refine (leaves_condition hr).bind fun cond after h₂ hc hr => ?_
  refine (statement_built ctx symbols after hr).bind fun body _ _ hb hr => ?_
  refine ⟨built_iff.2 ⟨trivial, ?_⟩, hr⟩
  exact List.forall_mem_cons.2 ⟨hc.built, List.forall_mem_singleton.2 hb⟩
termination_by (ts.length, 0)
decreasing_by all_goals decreasing_with omega

theorem doStatement_built (ctx : Context) (symbols : SymbolTable) (ts : List Token)
    (hs : Settled false ts) : Leaves false StmtBuilt (doStatement ctx symbols ts) := by
  rw [doStatement]
  refine (leaves_consume .keyword hs (by decide)).bind fun _ after h₁ _ hr => ?_
  refine (statement_built ctx symbols after hr).bind fun body after _ hb hr => ?_
  refine (leaves_consume .keyword hr (by decide)).bind fun _ after _ _ hr => ?_
  refine (leaves_condition hr).bind fun cond _ _ hc hr => ?_
  refine (leaves_consume .delimiter hr (by decide)).bind fun _ _ _ _ hr => ?_
  refine ⟨built_iff.2 ⟨trivial, ?_⟩, hr⟩
  exact List.forall_mem_cons.2 ⟨hc.built, List.forall_mem_singleton.2 hb⟩
termination_by (ts.length, 0)
decreasing_by all_goals decreasing_with omega

/-- A condition that is left out is the literal `true`, which is nothing to check. -/
theorem forStatement_built (ctx : Context) (symbols : SymbolTable) (ts : List Token)
    (hs : Settled false ts) : Leaves false StmtBuilt (forStatement ctx symbols ts) := by
  rw [forStatement]
  refine (leaves_consume .keyword hs (by decide)).bind fun _ after h₁ _ hr => ?_
  refine (leaves_consume .delimiter hr (by decide)).bind fun _ after h₂ _ hr => ?_
  refine (forInit_built ctx symbols after hr).bind fun init after h₃ hi hr => ?_
  refine (leaves_optionalExpression hr).bind fun cond after h₄ hc hr => ?_
  refine (leaves_optionalExpression hr).bind fun update after h₅ hu hr => ?_
  refine (statement_built ctx init.2 after hr).bind fun body _ _ hb hr => ?_
  have hcond : Made (cond.getD (.bool true)) := by
    cases cond with
    | none => exact .of trivial nofun
    | some e => exact hc e rfl
  refine ⟨built_iff.2 ⟨trivial, List.forall_mem_append.2 ⟨?_, ?_⟩⟩, hr⟩
  · exact List.forall_mem_map.2 fun s h => hi s (Option.mem_toList.1 h)
  · refine List.forall_mem_cons.2 ⟨hcond.built, List.forall_mem_append.2 ⟨?_, ?_⟩⟩
    · exact List.forall_mem_map.2 fun e h => (hu e (Option.mem_toList.1 h)).built
    · exact List.forall_mem_singleton.2 hb
termination_by (ts.length, 0)
decreasing_by all_goals decreasing_with omega

theorem forInit_built (ctx : Context) (symbols : SymbolTable) (ts : List Token)
    (hs : Settled false ts) :
    Leaves false (fun made => ∀ s ∈ made.1, Built (.stmt s)) (forInit ctx symbols ts) := by
  rw [forInit]
  split
  · refine (leaves_consume .delimiter hs (by decide)).bind fun _ _ _ _ hr => ?_
    exact ⟨nofun, hr⟩
  · refine (statement_built ctx symbols ts hs).bind fun init _ _ hi hr => ?_
    exact ⟨by rintro _ ⟨⟩; exact hi, hr⟩
termination_by (ts.length, 3)
decreasing_by all_goals decreasing_with omega

end

/-- Statement by statement to the end of the tokens. -/
theorem programFrom_built (ctx : Context) (symbols : SymbolTable) (ts : List Token)
    (hs : Settled false ts) : Ends BodyBuilt (fun _ => True) (programFrom ctx symbols ts) := by
  rw [programFrom]
  split
  · exact nofun
  · refine (statement_built ctx symbols ts hs).bind fun first after h₁ hf hr => ?_
    refine .bind (programFrom_built ctx first.2 after hr) fun others ho => ?_
    exact List.forall_mem_cons.2 ⟨hf, ho⟩
termination_by ts.length
decreasing_by all_goals decreasing_with omega

end Parser

/-- The tokens of a source text. -/
theorem tokensOf_settled {source : String} {tokens : List Token}
    (h : tokensOf source = .ok tokens) : Settled false tokens := by
  unfold tokensOf at h
  cases hs : Token.scan (Token.normalize Token.invisibles source) with
  | error _ => rw [hs] at h; cases h
  | ok found =>
    rw [hs] at h
    cases h
    exact Token.scan_settled hs

/-- Everything in the statements of a source text is as the parser makes it. -/
theorem statementsOf_built {maxDepth : Int} {source : String} {statements : List Stmt}
    {symbols : SymbolTable} (h : statementsOf maxDepth source = .ok (statements, symbols)) :
    ∀ s ∈ statements, Parser.Built (.stmt s) := by
  unfold statementsOf at h
  cases ht : tokensOf source with
  | error _ => rw [ht] at h; cases h
  | ok tokens =>
    rw [ht] at h
    exact (Parser.programFrom_built _ _ tokens (tokensOf_settled ht)).ok h

end ConsoleCpp

/-
The symbol table that the parser fills while it reads, and the tree that it makes. The table is
changed in the middle of recursive parsers; but it changes in the order in which a traversal of the
tree comes to the declarations, and each assignment is checked when the traversal would have come to
it. So what the parsers do to the table is what one pass over the nodes of the tree does to it.
-/
import ConsoleCpp.Proofs.Outcome
import ConsoleCpp.Proofs.Parser.StatementViews
import ConsoleCpp.Proofs.Source.Declared
import ConsoleCpp.Proofs.Source.Everywhere
import Mathlib

namespace ConsoleCpp

open Node (walkFrom)

namespace Parser

/-! ## Passes over nodes -/

/-- A pass over nodes, which takes the symbols from those before to those after: an assignment is
checked against what is declared until then, and a declaration adds to it. -/
inductive Declares : SymbolTable → List Node → SymbolTable → Prop
  | nil {symbols : SymbolTable} : Declares symbols [] symbols
  | cons {symbols symbols' : SymbolTable} {node : Node} {nodes : List Node}
      (here : ∀ e, node = .stmt (.expression e) → checkAssignment symbols e = .ok ())
      (there : Declares (symbols.declareAll (declarations [node])) nodes symbols') :
      Declares symbols (node :: nodes) symbols'

namespace Declares

variable {symbols symbols₁ symbols' : SymbolTable} {nodes xs ys : List Node}

theorem append (hx : Declares symbols xs symbols₁) (hy : Declares symbols₁ ys symbols') :
    Declares symbols (xs ++ ys) symbols' := by
  induction hx with
  | nil => exact hy
  | cons here _ ih => exact .cons here (ih hy)

/-- The symbols after a pass are those before with all that the nodes declare. -/
theorem symbols_eq (h : Declares symbols nodes symbols') :
    symbols' = symbols.declareAll (declarations nodes) := by
  induction h with
  | nil => rfl
  | @cons symbols symbols' node nodes here there ih =>
    rw [ih, ← SymbolTable.declareAll_append, ← declarations_append, List.singleton_append]

/-- Every assignment on the way was checked against what the nodes before it declare. -/
theorem checked (h : Declares symbols nodes symbols') {before after : List Node} {e : Expr}
    (he : nodes = before ++ .stmt (.expression e) :: after) :
    checkAssignment (symbols.declareAll (declarations before)) e = .ok () := by
  induction h generalizing before with
  | nil => simp at he
  | @cons symbols symbols' node nodes here there ih =>
    cases before with
    | nil =>
      obtain ⟨rfl, -⟩ := List.cons.inj he
      exact here e rfl
    | cons first before =>
      obtain ⟨rfl, rest⟩ := List.cons.inj he
      rw [← List.singleton_append, declarations_append, SymbolTable.declareAll_append]
      exact ih rest

end Declares

/-! ## Passes over trees -/

/-- A pass over everything in the trees of a stack. -/
def Enters (symbols : SymbolTable) (stack : List Node) (symbols' : SymbolTable) : Prop :=
  Declares symbols (walkFrom true stack) symbols'

namespace Enters

variable {symbols symbols₁ symbols' : SymbolTable}

theorem nil : Enters symbols [] symbols := by
  unfold Enters
  rw [walkFrom]
  exact .nil

theorem append {xs ys : List Node} (hx : Enters symbols xs symbols₁) (hy : Enters symbols₁ ys symbols') :
    Enters symbols (xs ++ ys) symbols' := by
  unfold Enters
  rw [Node.walkFrom_append]
  exact Declares.append hx hy

theorem cons {node : Node} {stack : List Node} (hn : Enters symbols [node] symbols₁)
    (hs : Enters symbols₁ stack symbols') : Enters symbols (node :: stack) symbols' :=
  append hn hs

theorem node {node : Node}
    (here : ∀ e, node = .stmt (.expression e) → checkAssignment symbols e = .ok ())
    (below : Enters (symbols.declareAll (declarations [node])) node.children symbols') :
    Enters symbols [node] symbols' := by
  unfold Enters
  rw [walkFrom, List.append_nil, Node.visited_true]
  exact .cons here below

/-- Expressions declare nothing, and no assignment stands below them as a statement. -/
theorem exprs (es : List Expr) : Enters symbols (es.map .expr) symbols := by
  have silent : ∀ stack : List Node, (∀ node ∈ stack, ∃ e, node = .expr e) →
      Enters symbols stack symbols := by
    intro stack hs
    unfold Enters
    fun_induction walkFrom true stack with
    | case1 => exact .nil
    | case2 node stack ih =>
      obtain ⟨⟨e, rfl⟩, rest⟩ := List.forall_mem_cons.1 hs
      refine .cons (fun _ h => by cases h) (ih (List.forall_mem_append.2 ⟨?_, rest⟩))
      exact List.forall_mem_map.2 fun child _ => ⟨child, rfl⟩
  exact silent _ (List.forall_mem_map.2 fun e _ => ⟨e, rfl⟩)

theorem expr (e : Expr) : Enters symbols [.expr e] symbols := exprs [e]

theorem params (ps : List Parameter) :
    Enters symbols (ps.map .param) (symbols.declareAll (ps.map fun p => (p.name, p.type))) := by
  induction ps generalizing symbols with
  | nil => exact nil
  | cons p ps ih => exact cons (node (fun _ h => by cases h) nil) ih

end Enters

/-- A statement, with the symbols after it. -/
def Entered (symbols : SymbolTable) (made : (Stmt × SymbolTable) × List Token) : Prop :=
  Enters symbols [.stmt made.1.1] made.1.2

/-! ## Statements without statements inside -/

section

variable {ctx : Context} {symbols : SymbolTable} {ts : List Token}

/-- Each parameter is declared in the order of the list. -/
theorem parameters_declared (ctx : Context) (symbols : SymbolTable) (ts : List Token) :
    Ends (fun made => made.1.2 = symbols.declareAll (made.1.1.map fun p => (p.name, p.type)))
      (fun _ => True) (seen (parameters ctx symbols ts)) := by
  rw [seen_parameters]
  refine .step fun type h => ?_
  have hl : type.2.length < ts.length := seen_shorter h
  refine .step fun name h => ?_
  have hl : name.2.length < ts.length := Nat.lt_trans (seen_shorter h) hl
  refine .step fun suffix h => ?_
  have hl : suffix.2.length < ts.length := Nat.lt_of_le_of_lt (glimpsed_notLonger h) hl
  dsimp only
  split
  · refine .step fun comma h => ?_
    have hl : comma.2.length < ts.length := Nat.lt_trans (seen_shorter h) hl
    exact (parameters_declared ctx _ comma.2).bind fun others ho => ho
  · rfl
termination_by ts.length
decreasing_by all_goals decreasing_with omega

theorem parameterList_declared :
    Ends (fun made => made.1.2 = symbols.declareAll (made.1.1.map fun p => (p.name, p.type)))
      (fun _ => True) (seen (parameterList ctx symbols ts)) := by
  rw [seen_parameterList]
  refine .bind_any fun open' => ?_
  split
  · exact .bind_any fun _ => rfl
  · exact (parameters_declared ctx symbols open'.2).bind fun params hp => .bind_any fun _ => hp

/-- A statement that is neither a declaration nor an assignment. -/
theorem Enters.plain {symbols' : SymbolTable} {s : Stmt} (hd : declarations [.stmt s] = [])
    (he : ∀ e, s ≠ .expression e) (below : Enters symbols (Node.stmt s).children symbols') :
    Enters symbols [.stmt s] symbols' := by
  refine .node (fun e h => absurd (Node.stmt.inj h) (he e)) ?_
  rw [hd]
  exact below

/-- A statement that declares nothing, as it is read. -/
def Plain (symbols : SymbolTable) (made : Stmt × List Token) : Prop :=
  Enters symbols [.stmt made.1] symbols

theorem entered_kept {read : Except CompileError (Stmt × List Token)}
    (h : Ends (Plain symbols) (fun _ => True) read) :
    Ends (Entered symbols) (fun _ => True) (kept symbols read) := by
  cases read with
  | error _ => trivial
  | ok made => exact h

theorem usingDirective_plain : Ends (Plain symbols) (fun _ => True) (seen (usingDirective ts)) := by
  rw [seen_usingDirective]
  refine .bind_any fun _ => .bind_any fun _ => .bind_any fun _ => .bind_any fun _ => ?_
  exact .plain rfl (fun _ h => by cases h) .nil

theorem inputStatement_plain :
    Ends (Plain symbols) (fun _ => True) (seen (inputStatement ctx ts)) := by
  rw [seen_inputStatement]
  refine .bind_any fun _ => .bind_any fun targets => .bind_any fun _ => ?_
  exact .plain rfl (fun _ h => by cases h) (.exprs targets.1)

theorem printStatement_plain :
    Ends (Plain symbols) (fun _ => True) (seen (printStatement ctx ts)) := by
  rw [seen_printStatement]
  refine .bind_any fun _ => .bind_any fun parts => .bind_any fun _ => ?_
  exact .plain rfl (fun _ h => by cases h) (.exprs parts.1)

theorem returnStatement_plain :
    Ends (Plain symbols) (fun _ => True) (seen (returnStatement ctx ts)) := by
  rw [seen_returnStatement]
  refine .bind_any fun _ => .bind_any fun value => ?_
  exact .plain rfl (fun _ h => by cases h) (.exprs value.1.toList)

theorem bareStatement_plain {keyword : String} {s : Stmt} (hs : Enters symbols [.stmt s] symbols) :
    Ends (Plain symbols) (fun _ => True) (seen (bareStatement keyword s ts)) := by
  rw [seen_bareStatement]
  exact .bind_any fun _ => .bind_any fun _ => hs

theorem expressionStatement_plain {first : Token} :
    Ends (Plain symbols) (fun _ => True) (seen (expressionStatement ctx symbols first ts)) := by
  have hc : Ends (fun made : Expr × List Token => checkAssignment symbols made.1 = .ok ())
      (fun _ => True) (seen (checkedExpression ctx symbols ts)) := by
    rw [seen_checkedExpression]
    exact .bind_any fun e => .step fun _ he => .bind_any fun _ => he
  rw [seen_expressionStatement]
  cases he : seen (checkedExpression ctx symbols ts) with
  | error _ => trivial
  | ok made =>
    have hm := hc.ok he
    refine Enters.node (fun e h => ?_) (.expr made.1)
    cases h
    exact hm

/-- The variable is declared before its value is read, so the value is checked against the symbols
with it. -/
theorem variableRest_entered {type name : String} :
    Ends (Entered symbols) (fun _ => True) (seen (variableRest ctx symbols type name ts)) := by
  rw [seen_variableRest]
  refine .bind_any fun suffix => ?_
  dsimp only
  split
  · refine .bind_any fun _ => .bind_any fun value => .bind_any fun _ => ?_
    exact Enters.node (fun _ h => by cases h) (.exprs [value.1])
  · refine .bind_any fun _ => ?_
    exact Enters.node (fun _ h => by cases h) (.exprs (Option.toList _))

end

/-! ## Statements -/

/-- Statements, with the symbols after them. -/
def BodyEntered (symbols : SymbolTable) (made : (List Stmt × SymbolTable) × List Token) : Prop :=
  Enters symbols (made.1.1.map .stmt) made.1.2

mutual

/-- By the tokens that are left: the symbols after a statement are those before it with what the
walk finds declared. -/
theorem statement_entered (ctx : Context) (symbols : SymbolTable) (ts : List Token) :
    Ends (Entered symbols) (fun _ => True) (seen (statement ctx symbols ts)) := by
  match ts with
  | [] =>
    rw [seen_statement_nil]
    trivial
  | t :: rest =>
    rw [seen_statement_cons]
    refine .bind_any fun ctx => ?_
    unfold started
    cases t.kind with
    | header => exact Enters.plain rfl (fun _ h => by cases h) .nil
    | keyword =>
      dsimp only
      split
      · exact ifStatement_entered ctx symbols (t :: rest)
      · exact whileStatement_entered ctx symbols (t :: rest)
      · exact doStatement_entered ctx symbols (t :: rest)
      · exact forStatement_entered ctx symbols (t :: rest)
      · exact entered_kept returnStatement_plain
      · exact entered_kept (bareStatement_plain (.plain rfl (fun _ h => by cases h) .nil))
      · exact entered_kept (bareStatement_plain (.plain rfl (fun _ h => by cases h) .nil))
      · exact entered_kept inputStatement_plain
      · exact entered_kept printStatement_plain
      · exact entered_kept usingDirective_plain
      · split
        · exact declaration_entered ctx symbols (t :: rest)
        · trivial
    | delimiter =>
      dsimp only
      split
      · exact (block_entered ctx symbols (t :: rest)).bind fun body hb =>
          Enters.plain rfl (fun _ h => by cases h) hb
      · exact entered_kept expressionStatement_plain
    | operator | identifier | number | char | string | stream | scope =>
      exact entered_kept expressionStatement_plain
termination_by (ts.length, 2)
decreasing_by all_goals decreasing_with omega

/-- The function comes before its parameters, and these before its body. -/
theorem declaration_entered (ctx : Context) (symbols : SymbolTable) (ts : List Token) :
    Ends (Entered symbols) (fun _ => True) (seen (declaration ctx symbols ts)) := by
  rw [seen_declaration]
  refine .step fun type h => ?_
  have hl : type.2.length < ts.length := seen_shorter h
  refine .step fun name h => ?_
  have hl : name.2.length < ts.length := Nat.lt_trans (seen_shorter h) hl
  split
  · refine .step fun params h => ?_
    have hl : params.2.length < ts.length := Nat.lt_trans (seen_shorter h) hl
    have hp := parameterList_declared.ok h
    -- the function, then its parameters, then its body
    have below : Enters (symbols.declare name.1.text type.1) (params.1.1.map .param) params.1.2 :=
      hp ▸ .params params.1.1
    split
    · refine (block_entered ctx params.1.2 params.2).bind fun body hb => ?_
      refine Enters.node (fun _ h => by cases h) (below.append ?_)
      exact .plain rfl (fun _ h => by cases h) hb
    · exact .bind_any fun _ => Enters.node (fun _ h => by cases h) below
  · exact variableRest_entered
termination_by (ts.length, 1)
decreasing_by all_goals decreasing_with omega

theorem block_entered (ctx : Context) (symbols : SymbolTable) (ts : List Token) :
    Ends (BodyEntered symbols) (fun _ => True) (seen (block ctx symbols ts)) := by
  rw [seen_block]
  refine .step fun open' h => ?_
  have hl : open'.2.length < ts.length := seen_shorter h
  exact (blockBody_entered ctx symbols open'.2).bind fun body hb => .bind_any fun _ => hb
termination_by (ts.length, 0)
decreasing_by all_goals decreasing_with omega

theorem blockBody_entered (ctx : Context) (symbols : SymbolTable) (ts : List Token) :
    Ends (BodyEntered symbols) (fun _ => True) (glimpsed (blockBody ctx symbols ts)) := by
  rw [glimpsed_blockBody]
  split
  · exact Enters.nil
  · refine .step fun first h => ?_
    have hl : first.2.length < ts.length := seen_shorter h
    have hf := (statement_entered ctx symbols ts).ok h
    exact (blockBody_entered ctx first.1.2 first.2).bind fun others ho => hf.cons ho
termination_by (ts.length, 3)
decreasing_by all_goals decreasing_with omega

theorem ifStatement_entered (ctx : Context) (symbols : SymbolTable) (ts : List Token) :
    Ends (Entered symbols) (fun _ => True) (seen (ifStatement ctx symbols ts)) := by
  rw [seen_ifStatement]
  refine .step fun word h => ?_
  have hl : word.2.length < ts.length := seen_shorter h
  refine .step fun cond h => ?_
  have hl : cond.2.length < ts.length := Nat.lt_trans (seen_shorter h) hl
  refine .step fun thenStmt h => ?_
  have hl' : thenStmt.2.length < ts.length := Nat.lt_trans (seen_shorter h) hl
  have ht := (statement_entered ctx symbols cond.2).ok h
  split
  · refine .step fun word h => ?_
    have hl : word.2.length < ts.length := Nat.lt_trans (seen_shorter h) hl'
    refine (statement_entered ctx thenStmt.1.2 word.2).bind fun elseStmt he => ?_
    exact Enters.plain rfl (fun _ h => by cases h) ((Enters.expr _).cons (ht.cons he))
  · exact Enters.plain rfl (fun _ h => by cases h) ((Enters.expr _).cons ht)
termination_by (ts.length, 0)
decreasing_by all_goals decreasing_with omega

theorem whileStatement_entered (ctx : Context) (symbols : SymbolTable) (ts : List Token) :
    Ends (Entered symbols) (fun _ => True) (seen (whileStatement ctx symbols ts)) := by
  rw [seen_whileStatement]
  refine .step fun word h => ?_
  have hl : word.2.length < ts.length := seen_shorter h
  refine .step fun cond h => ?_
  have hl : cond.2.length < ts.length := Nat.lt_trans (seen_shorter h) hl
  refine (statement_entered ctx symbols cond.2).bind fun body hb => ?_
  exact Enters.plain rfl (fun _ h => by cases h) ((Enters.expr _).cons hb)
termination_by (ts.length, 0)
decreasing_by all_goals decreasing_with omega

theorem doStatement_entered (ctx : Context) (symbols : SymbolTable) (ts : List Token) :
    Ends (Entered symbols) (fun _ => True) (seen (doStatement ctx symbols ts)) := by
  rw [seen_doStatement]
  refine .step fun word h => ?_
  have hl : word.2.length < ts.length := seen_shorter h
  refine (statement_entered ctx symbols word.2).bind fun body hb => ?_
  refine .bind_any fun _ => .bind_any fun cond => .bind_any fun _ => ?_
  -- the condition is visited before the body, after which it is read
  exact Enters.plain rfl (fun _ h => by cases h) ((Enters.expr _).cons hb)
termination_by (ts.length, 0)
decreasing_by all_goals decreasing_with omega

theorem forStatement_entered (ctx : Context) (symbols : SymbolTable) (ts : List Token) :
    Ends (Entered symbols) (fun _ => True) (seen (forStatement ctx symbols ts)) := by
  rw [seen_forStatement]
  refine .step fun word h => ?_
  have hl : word.2.length < ts.length := seen_shorter h
  refine .step fun open' h => ?_
  have hl : open'.2.length < ts.length := Nat.lt_trans (seen_shorter h) hl
  refine .step fun init h => ?_
  have hi := (forInit_entered ctx symbols open'.2).ok h
  have hl : init.2.length < ts.length := Nat.lt_trans (seen_shorter h) hl
  refine .step fun cond h => ?_
  have hl : cond.2.length < ts.length := Nat.lt_trans (seen_shorter h) hl
  refine .step fun update h => ?_
  have hl : update.2.length < ts.length := Nat.lt_trans (seen_shorter h) hl
  refine (statement_entered ctx init.1.2 update.2).bind fun body hb => ?_
  refine Enters.plain rfl (fun _ h => by cases h) (hi.append ((Enters.expr _).cons ?_))
  exact (Enters.exprs update.1.toList).append hb
termination_by (ts.length, 0)
decreasing_by all_goals decreasing_with omega

theorem forInit_entered (ctx : Context) (symbols : SymbolTable) (ts : List Token) :
    Ends (fun made => Enters symbols (made.1.1.toList.map .stmt) made.1.2) (fun _ => True)
      (seen (forInit ctx symbols ts)) := by
  rw [seen_forInit]
  split
  · exact .bind_any fun _ => Enters.nil
  · exact (statement_entered ctx symbols ts).bind fun init hi => hi
termination_by (ts.length, 3)
decreasing_by all_goals decreasing_with omega

end

/-! ## Programs -/

/-- What one statement declares is known to the next. -/
theorem programFrom_entered (ctx : Context) (symbols : SymbolTable) (ts : List Token) :
    Ends (fun made => Enters symbols (made.1.map .stmt) made.2) (fun _ => True)
      (programFrom ctx symbols ts) := by
  rw [programFrom_eq]
  split
  · exact Enters.nil
  · refine .step fun first h => ?_
    have hl : first.2.length < ts.length := seen_shorter h
    have hf := (statement_entered ctx symbols ts).ok h
    exact (programFrom_entered ctx first.1.2 first.2).bind fun others ho => hf.cons ho
termination_by ts.length
decreasing_by all_goals decreasing_with omega

/-- The pass over the nodes of a program that the parser makes. -/
theorem declares_of_program {maxDepth : Int} {ts : List Token} {statements : List Stmt}
    {symbols : SymbolTable} (h : program maxDepth ts = .ok (statements, symbols)) :
    Declares .empty (walk true statements) symbols :=
  (programFrom_entered (.start maxDepth) .empty ts).ok h

/-- The symbol table of a program is exactly what the nodes of its tree declare one after the
other: its names are those that some node declares, and each has the type of its last
declaration. -/
theorem symbols_of_program {maxDepth : Int} {ts : List Token} {statements : List Stmt}
    {symbols : SymbolTable} (h : program maxDepth ts = .ok (statements, symbols)) :
    symbols = SymbolTable.empty.declareAll (declarations (walk true statements)) ∧
    (∀ name, name ∈ symbols.entries.map Prod.fst ↔
      ∃ type, (name, type) ∈ declarations (walk true statements)) ∧
    ∀ name, symbols.lookup name = lastDeclared (walk true statements) name := by
  have hs := (declares_of_program h).symbols_eq
  have hl : ∀ name, symbols.lookup name = lastDeclared (walk true statements) name := fun name => by
    rw [hs, SymbolTable.lookup_empty_declareAll]
  refine ⟨hs, fun name => ?_, hl⟩
  rw [SymbolTable.mem_keys_iff, hl, lastDeclared_isSome_iff]

/-- The tokens of `int n; float f(string n) { int n[3]; }` -/
def redeclared : List Token :=
  [⟨.keyword, "int", 0⟩, ⟨.identifier, "n", 4⟩, ⟨.delimiter, ";", 5⟩, ⟨.keyword, "float", 7⟩,
   ⟨.identifier, "f", 13⟩, ⟨.delimiter, "(", 14⟩, ⟨.keyword, "string", 15⟩, ⟨.identifier, "n", 22⟩,
   ⟨.delimiter, ")", 23⟩, ⟨.delimiter, "\x7b", 25⟩, ⟨.keyword, "int", 27⟩, ⟨.identifier, "n", 31⟩,
   ⟨.delimiter, "[", 32⟩, ⟨.number, "3", 33⟩, ⟨.delimiter, "]", 34⟩, ⟨.delimiter, ";", 35⟩,
   ⟨.delimiter, "\x7d", 37⟩]

/-- The statements of `redeclared`. -/
def redeclaredStatements : List Stmt :=
  [.declaration "int" "n" none,
   .function "float" "f" [⟨"string", "n"⟩]
     [.declaration "int[]" "n" (some (.newArray "int" (.number "3")))]]

/-- A name that is declared as a variable, a parameter and an array. -/
theorem symbols_of_program_redeclared :
    program 9 redeclared = .ok (redeclaredStatements, ⟨[("n", "int[]"), ("f", "float")]⟩) ∧
    ⟨[("n", "int[]"), ("f", "float")]⟩ =
      SymbolTable.empty.declareAll (declarations (walk true redeclaredStatements)) ∧
    (∃ type, ("f", type) ∈ declarations (walk true redeclaredStatements)) ∧
    lastDeclared (walk true redeclaredStatements) "n" = some "int[]" := by
  have hp : program 9 redeclared =
      .ok (redeclaredStatements, ⟨[("n", "int[]"), ("f", "float")]⟩) := by cbv
  obtain ⟨hs, hk, hl⟩ := symbols_of_program hp
  exact ⟨hp, hs, (hk "f").1 (by decide), (hl "n").symm⟩

end Parser

end ConsoleCpp

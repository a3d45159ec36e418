/-
An `else` belongs to the nearest `if` that can have it. A statement is open if there is an `if`
without `else` at its right edge, so that an `else` right after the statement would go with that
`if`. The parser never leaves such an `else` behind: where it returns an open statement, the next
token is no `else`. So the statement before an `else`, which is returned while that `else` is still
to be read, is never an open one.

The two halves are one invariant. What the parser returns has it at its right edge and everywhere
below, by the recursion of the statement parsers: a loop passes the edge of its body on, an `if`
without `else` was returned because no `else` came next, and everything else ends with its own
token.
-/
import ConsoleCpp.Proofs.Outcome
import ConsoleCpp.Proofs.Parser.StatementViews
import ConsoleCpp.Proofs.Source.Everywhere
import Mathlib

namespace ConsoleCpp

/-- There is an `if` without `else` at the right edge of the statement. -/
inductive Stmt.Open : Stmt → Prop
  | loneIf {condition : Expr} {thenStmt : Stmt} : Open (.ifElse condition thenStmt none)
  | elseStmt {condition : Expr} {thenStmt elseStmt : Stmt} :
    Open elseStmt → Open (.ifElse condition thenStmt (some elseStmt))
  | whileLoop {condition : Expr} {body : Stmt} : Open body → Open (.whileLoop condition body)
  | forLoop {init : Option Stmt} {condition : Expr} {update : Option Expr} {body : Stmt} :
    Open body → Open (.forLoop init condition update body)

namespace Node

/-- If this is an `if` with an `else`, no nearer `if` could have had the `else`. -/
def ElseNearest : Node → Prop
  | .stmt (.ifElse _ thenStmt (some _)) => ¬ thenStmt.Open
  | _ => True

/-- No statement stands below an expression or a parameter. -/
theorem everywhere_elseNearest {node : Node} (h : ∀ s, node ≠ .stmt s) :
    node.Everywhere ElseNearest := by
  -- what is on the stack of the walk stays free of statements
  have silent : ∀ stack : List Node, (∀ node ∈ stack, ∀ s, node ≠ .stmt s) →
      ∀ n ∈ walkFrom true stack, n.ElseNearest := by
    intro stack hs
    fun_induction walkFrom true stack with
    | case1 => exact List.forall_mem_nil _
    | case2 node stack ih =>
      obtain ⟨hnode, hrest⟩ := List.forall_mem_cons.1 hs
      cases node with
      | stmt s => exact absurd rfl (hnode s)
      | param p => exact List.forall_mem_cons.2 ⟨trivial, ih hrest⟩
      | expr e =>
        refine List.forall_mem_cons.2 ⟨trivial, ih (List.forall_mem_append.2 ⟨?_, hrest⟩)⟩
        exact List.forall_mem_map.2 fun child _ s h => by cases h
  exact silent [node] (List.forall_mem_singleton.2 h)

end Node

namespace Parser

/-- What the parser returns, with the tokens after it: every `else` in the statement belongs to the
nearest `if`, and if the statement is open, no `else` comes next. -/
structure Nearest (s : Stmt) (rest : List Token) : Prop where
  inside : (Node.stmt s).Everywhere Node.ElseNearest
  edge : s.Open → startsWith .keyword "else" rest = false

namespace Nearest

variable {s : Stmt} {rest : List Token}

theorem node (here : (Node.stmt s).ElseNearest)
    (below : ∀ child ∈ (Node.stmt s).children, child.Everywhere Node.ElseNearest)
    (edge : s.Open → startsWith .keyword "else" rest = false) : Nearest s rest :=
  ⟨Node.everywhere_iff.2 ⟨here, below⟩, edge⟩

/-- A statement without statements inside. -/
theorem plain (here : (Node.stmt s).ElseNearest) (closed : ¬ s.Open)
    (below : ∀ child ∈ (Node.stmt s).children, ∀ inner, child ≠ .stmt inner) : Nearest s rest :=
  node here (fun child hc => Node.everywhere_elseNearest (below child hc)) fun h => absurd h closed

/-- A statement that ends with a token of its own after the statements in it. -/
theorem closed (here : (Node.stmt s).ElseNearest) (closed : ¬ s.Open)
    (below : ∀ child ∈ (Node.stmt s).children, child.Everywhere Node.ElseNearest) :
    Nearest s rest :=
  node here below fun h => absurd h closed

end Nearest

/-- A statement that is read, with what is left after it. -/
def NearestRead (made : (Stmt × SymbolTable) × List Token) : Prop := Nearest made.1.1 made.2

/-- The same where nothing is declared. -/
def NearestPlain (made : Stmt × List Token) : Prop := Nearest made.1 made.2

/-- Statements in braces. Any of them may be open. -/
def NearestBody (made : (List Stmt × SymbolTable) × List Token) : Prop :=
  ∀ s ∈ made.1.1, (Node.stmt s).Everywhere Node.ElseNearest

/-! ## Statements without statements inside -/

section

variable {ctx : Context} {symbols : SymbolTable} {ts : List Token}

theorem nearest_kept {read : Except CompileError (Stmt × List Token)}
    (h : Ends NearestPlain (fun _ => True) read) :
    Ends NearestRead (fun _ => True) (kept symbols read) := by
  cases read with
  | error _ => trivial
  | ok made => exact h

theorem usingDirective_nearest : Ends NearestPlain (fun _ => True) (seen (usingDirective ts)) := by
  rw [seen_usingDirective]
  refine .bind_any fun _ => .bind_any fun _ => .bind_any fun _ => .bind_any fun _ => ?_
  exact .plain trivial nofun (by simp [Node.children])

theorem inputStatement_nearest :
    Ends NearestPlain (fun _ => True) (seen (inputStatement ctx ts)) := by
  rw [seen_inputStatement]
  refine .bind_any fun _ => .bind_any fun targets => .bind_any fun _ => ?_
  exact .plain trivial nofun (by simp [Node.children])

theorem printStatement_nearest :
    Ends NearestPlain (fun _ => True) (seen (printStatement ctx ts)) := by
  rw [seen_printStatement]
  refine .bind_any fun _ => .bind_any fun parts => .bind_any fun _ => ?_
  exact .plain trivial nofun (by simp [Node.children])

theorem returnStatement_nearest :
    Ends NearestPlain (fun _ => True) (seen (returnStatement ctx ts)) := by
  rw [seen_returnStatement]
  refine .bind_any fun _ => .bind_any fun value => ?_
  exact .plain trivial nofun (by simp [Node.children])

theorem bareStatement_nearest {keyword : String} {s : Stmt} (hs : ∀ rest, Nearest s rest) :
    Ends NearestPlain (fun _ => True) (seen (bareStatement keyword s ts)) := by
  rw [seen_bareStatement]
  exact .bind_any fun _ => .bind_any fun last => hs last.2

theorem expressionStatement_nearest {first : Token} :
    Ends NearestPlain (fun _ => True) (seen (expressionStatement ctx symbols first ts)) := by
  rw [seen_expressionStatement]
  cases seen (checkedExpression ctx symbols ts) with
  | error _ => trivial
  | ok made => exact Nearest.plain trivial nofun (by simp [Node.children])

theorem variableRest_nearest {type name : String} :
    Ends NearestRead (fun _ => True) (seen (variableRest ctx symbols type name ts)) := by
  rw [seen_variableRest]
  refine .bind_any fun suffix => ?_
  dsimp only
  split
  · refine .bind_any fun _ => .bind_any fun value => .bind_any fun _ => ?_
    exact Nearest.plain trivial nofun (by simp [Node.children])
  · refine .bind_any fun _ => ?_
    exact Nearest.plain trivial nofun (by simp [Node.children])

end

/-! ## Statements -/

theorem expr_elseNearest (e : Expr) : (Node.expr e).Everywhere Node.ElseNearest :=
  Node.everywhere_elseNearest nofun

mutual

theorem statement_nearest (ctx : Context) (symbols : SymbolTable) (ts : List Token) :
    Ends NearestRead (fun _ => True) (seen (statement ctx symbols ts)) := by
  match ts with
  | [] =>
    rw [seen_statement_nil]
    trivial
  | t :: rest =>
    rw [seen_statement_cons]
    refine .bind_any fun ctx => ?_
    unfold started
    cases t.kind with
    | header => exact Nearest.plain trivial nofun (by simp [Node.children])
    | keyword =>
      dsimp only
      split
      · exact ifStatement_nearest ctx symbols (t :: rest)
      · exact whileStatement_nearest ctx symbols (t :: rest)
      · exact doStatement_nearest ctx symbols (t :: rest)
      · exact forStatement_nearest ctx symbols (t :: rest)
      · exact nearest_kept returnStatement_nearest
      · exact nearest_kept
          (bareStatement_nearest fun _ => .plain trivial nofun (by simp [Node.children]))
      · exact nearest_kept
          (bareStatement_nearest fun _ => .plain trivial nofun (by simp [Node.children]))
      · exact nearest_kept inputStatement_nearest
      · exact nearest_kept printStatement_nearest
      · exact nearest_kept usingDirective_nearest
      · split
        · exact declaration_nearest ctx symbols (t :: rest)
        · trivial
    | delimiter =>
      dsimp only
      split
      · exact (block_nearest ctx symbols (t :: rest)).bind fun body hb =>
          Nearest.closed trivial nofun (List.forall_mem_map.2 hb)
      · exact nearest_kept expressionStatement_nearest
    | operator | identifier | number | char | string | stream | scope =>
      exact nearest_kept expressionStatement_nearest
termination_by (ts.length, 2)
decreasing_by all_goals decreasing_with omega

theorem declaration_nearest (ctx : Context) (symbols : SymbolTable) (ts : List Token) :
    Ends NearestRead (fun _ => True) (seen (declaration ctx symbols ts)) := by
  rw [seen_declaration]
  refine .step fun type h => ?_
  have hl : type.2.length < ts.length := seen_shorter h
  refine .step fun name h => ?_
  have hl : name.2.length < ts.length := Nat.lt_trans (seen_shorter h) hl
  split
  · refine .step fun params h => ?_
    have hl : params.2.length < ts.length := Nat.lt_trans (seen_shorter h) hl
    split
    · refine (block_nearest ctx params.1.2 params.2).bind fun body hb => ?_
      refine Nearest.closed trivial nofun (List.forall_mem_append.2 ⟨?_, ?_⟩)
      · exact List.forall_mem_map.2 fun p _ => Node.everywhere_elseNearest nofun
      · refine List.forall_mem_singleton.2 (Node.everywhere_iff.2 ⟨trivial, ?_⟩)
        exact List.forall_mem_map.2 hb
    · exact .bind_any fun _ => Nearest.plain trivial nofun (by simp [Node.children])
  · exact variableRest_nearest
termination_by (ts.length, 1)
decreasing_by all_goals decreasing_with omega

theorem block_nearest (ctx : Context) (symbols : SymbolTable) (ts : List Token) :
    Ends NearestBody (fun _ => True) (seen (block ctx symbols ts)) := by
  rw [seen_block]
  refine .step fun open' h => ?_
  have hl : open'.2.length < ts.length := seen_shorter h
  exact (blockBody_nearest ctx symbols open'.2).bind fun body hb => .bind_any fun _ => hb
termination_by (ts.length, 0)
decreasing_by all_goals decreasing_with omega

theorem blockBody_nearest (ctx : Context) (symbols : SymbolTable) (ts : List Token) :
    Ends NearestBody (fun _ => True) (glimpsed (blockBody ctx symbols ts)) := by
  rw [glimpsed_blockBody]
  split
  · exact nofun
  · refine .step fun first h => ?_
    have hl : first.2.length < ts.length := seen_shorter h
    have hf := (statement_nearest ctx symbols ts).ok h
    exact (blockBody_nearest ctx first.1.2 first.2).bind fun others ho =>
      List.forall_mem_cons.2 ⟨hf.inside, ho⟩
termination_by (ts.length, 3)
decreasing_by all_goals decreasing_with omega

theorem ifStatement_nearest (ctx : Context) (symbols : SymbolTable) (ts : List Token) :
    Ends NearestRead (fun _ => True) (seen (ifStatement ctx symbols ts)) := by
  rw [seen_ifStatement]
  refine .step fun word h => ?_
  have hl : word.2.length < ts.length := seen_shorter h
  refine .step fun cond h => ?_
  have hl : cond.2.length < ts.length := Nat.lt_trans (seen_shorter h) hl
  refine .step fun thenStmt h => ?_
  have hl' : thenStmt.2.length < ts.length := Nat.lt_trans (seen_shorter h) hl
  have ht := (statement_nearest ctx symbols cond.2).ok h
  split
  · rename_i helse
    refine .step fun word h => ?_
    have hl : word.2.length < ts.length := Nat.lt_trans (seen_shorter h) hl'
    refine (statement_nearest ctx thenStmt.1.2 word.2).bind fun elseStmt he => ?_
    refine Nearest.node (fun hopen => ?_) ?_ ?_
    · -- an open statement does not leave an `else` behind
      rw [ht.edge hopen] at helse
      cases helse
    · exact List.forall_mem_cons.2 ⟨expr_elseNearest _,
        List.forall_mem_cons.2 ⟨ht.inside, List.forall_mem_singleton.2 he.inside⟩⟩
    · intro hopen
      cases hopen with
      | elseStmt hopen => exact he.edge hopen
  · -- an `if` without `else` is open, and the token after it was looked at
    rename_i helse
    refine Nearest.node trivial ?_ fun _ => by simpa using helse
    exact List.forall_mem_cons.2 ⟨expr_elseNearest _, List.forall_mem_singleton.2 ht.inside⟩
termination_by (ts.length, 0)
decreasing_by all_goals decreasing_with omega

theorem whileStatement_nearest (ctx : Context) (symbols : SymbolTable) (ts : List Token) :
    Ends NearestRead (fun _ => True) (seen (whileStatement ctx symbols ts)) := by
  rw [seen_whileStatement]
  refine .step fun word h => ?_
  have hl : word.2.length < ts.length := seen_shorter h
  refine .step fun cond h => ?_
  have hl : cond.2.length < ts.length := Nat.lt_trans (seen_shorter h) hl
  refine (statement_nearest ctx symbols cond.2).bind fun body hb => ?_
  refine Nearest.node trivial ?_ ?_
  · exact List.forall_mem_cons.2 ⟨expr_elseNearest _, List.forall_mem_singleton.2 hb.inside⟩
  · intro hopen
    cases hopen with
    | whileLoop hopen => exact hb.edge hopen
termination_by (ts.length, 0)
decreasing_by all_goals decreasing_with omega

theorem doStatement_nearest (ctx : Context) (symbols : SymbolTable) (ts : List Token) :
    Ends NearestRead (fun _ => True) (seen (doStatement ctx symbols ts)) := by
  rw [seen_doStatement]
  refine .step fun word h => ?_
  have hl : word.2.length < ts.length := seen_shorter h
  refine (statement_nearest ctx symbols word.2).bind fun body hb => ?_
  refine .bind_any fun _ => .bind_any fun cond => .bind_any fun _ => ?_
  refine Nearest.closed trivial nofun ?_
  exact List.forall_mem_cons.2 ⟨expr_elseNearest _, List.forall_mem_singleton.2 hb.inside⟩
termination_by (ts.length, 0)
decreasing_by all_goals decreasing_with omega

theorem forStatement_nearest (ctx : Context) (symbols : SymbolTable) (ts : List Token) :
    Ends NearestRead (fun _ => True) (seen (forStatement ctx symbols ts)) := by
  rw [seen_forStatement]
  refine .step fun word h => ?_
  have hl : word.2.length < ts.length := seen_shorter h
  refine .step fun open' h => ?_
  have hl : open'.2.length < ts.length := Nat.lt_trans (seen_shorter h) hl
  refine .step fun init h => ?_
  have hi := (forInit_nearest ctx symbols open'.2).ok h
  have hl : init.2.length < ts.length := Nat.lt_trans (seen_shorter h) hl
  refine .step fun cond h => ?_
  have hl : cond.2.length < ts.length := Nat.lt_trans (seen_shorter h) hl
  refine .step fun update h => ?_
  have hl : update.2.length < ts.length := Nat.lt_trans (seen_shorter h) hl
  refine (statement_nearest ctx init.1.2 update.2).bind fun body hb => ?_
  refine Nearest.node trivial (List.forall_mem_append.2 ⟨?_, ?_⟩) ?_
  · exact List.forall_mem_map.2 fun s hs => hi s (by simpa using hs)
  · refine List.forall_mem_cons.2 ⟨expr_elseNearest _, List.forall_mem_append.2 ⟨?_, ?_⟩⟩
    · exact List.forall_mem_map.2 fun e _ => expr_elseNearest e
    · exact List.forall_mem_singleton.2 hb.inside
  · intro hopen
    cases hopen with
    | forLoop hopen => exact hb.edge hopen
termination_by (ts.length, 0)
decreasing_by all_goals decreasing_with omega

/-- The first part of a `for` is any statement, which may be open too. -/
theorem forInit_nearest (ctx : Context) (symbols : SymbolTable) (ts : List Token) :
    Ends (fun made => ∀ s ∈ made.1.1, (Node.stmt s).Everywhere Node.ElseNearest) (fun _ => True)
      (seen (forInit ctx symbols ts)) := by
  rw [seen_forInit]
  split
  · exact .bind_any fun _ => nofun
  · refine (statement_nearest ctx symbols ts).bind fun init hi => ?_
    rintro _ ⟨⟩
    exact hi.inside
termination_by (ts.length, 3)
decreasing_by all_goals decreasing_with omega

end

/-! ## Programs -/

theorem programFrom_nearest (ctx : Context) (symbols : SymbolTable) (ts : List Token) :
    Ends (fun made => ∀ s ∈ made.1, (Node.stmt s).Everywhere Node.ElseNearest) (fun _ => True)
      (programFrom ctx symbols ts) := by
  rw [programFrom_eq]
  split
  · exact nofun
  · refine .step fun first h => ?_
    have hl : first.2.length < ts.length := seen_shorter h
    have hf := (statement_nearest ctx symbols ts).ok h
    exact (programFrom_nearest ctx first.1.2 first.2).bind fun others ho =>
      List.forall_mem_cons.2 ⟨hf.inside, ho⟩
termination_by ts.length
decreasing_by all_goals decreasing_with omega

/-- In the statements of a program, wherever an `if` has an `else`, the statement between them is
not open: the `else` could not have gone with an `if` nearer to it. -/
theorem else_nearest {maxDepth : Int} {ts : List Token} {statements : List Stmt}
    {symbols : SymbolTable} (h : program maxDepth ts = .ok (statements, symbols)) :
    ∀ condition thenStmt elseStmt,
      .stmt (.ifElse condition thenStmt (some elseStmt)) ∈ walk true statements →
        ¬ thenStmt.Open := by
  have hall := forall_walk_iff.2 ((programFrom_nearest (.start maxDepth) .empty ts).ok h)
  exact fun condition thenStmt elseStmt hm => hall _ hm

/-- The tokens of `if (a) while (b) if (c) break; else continue; else break;` -/
def twoElses : List Token :=
  [⟨.keyword, "if", 0⟩, ⟨.delimiter, "(", 3⟩, ⟨.identifier, "a", 4⟩, ⟨.delimiter, ")", 5⟩,
   ⟨.keyword, "while", 7⟩, ⟨.delimiter, "(", 13⟩, ⟨.identifier, "b", 14⟩, ⟨.delimiter, ")", 15⟩,
   ⟨.keyword, "if", 17⟩, ⟨.delimiter, "(", 20⟩, ⟨.identifier, "c", 21⟩, ⟨.delimiter, ")", 22⟩,
   ⟨.keyword, "break", 24⟩, ⟨.delimiter, ";", 29⟩, ⟨.keyword, "else", 31⟩,
   ⟨.keyword, "continue", 36⟩, ⟨.delimiter, ";", 44⟩, ⟨.keyword, "else", 46⟩,
   ⟨.keyword, "break", 51⟩, ⟨.delimiter, ";", 56⟩]

/-- The loop of `twoElses`, up to the second `else`. -/
def loopBeforeElse : Stmt :=
  .whileLoop (.name "b") (.ifElse (.name "c") .breakLoop (some .continueLoop))

/-- The second `else` goes with the first `if`, as the one in the loop has its own. -/
theorem else_nearest_twoElses :
    program 9 twoElses =
      .ok ([.ifElse (.name "a") loopBeforeElse (some .breakLoop)], .empty) ∧
    .stmt (.ifElse (.name "a") loopBeforeElse (some .breakLoop)) ∈
      walk true [.ifElse (.name "a") loopBeforeElse (some .breakLoop)] ∧
    ¬ loopBeforeElse.Open := by
  have hp : program 9 twoElses =
      .ok ([.ifElse (.name "a") loopBeforeElse (some .breakLoop)], .empty) := by cbv
  have hm : .stmt (.ifElse (.name "a") loopBeforeElse (some .breakLoop)) ∈
      walk true [.ifElse (.name "a") loopBeforeElse (some .breakLoop)] := by
    simp [walk, Node.walkFrom]
  exact ⟨hp, hm, else_nearest hp _ _ _ hm⟩

end Parser

end ConsoleCpp

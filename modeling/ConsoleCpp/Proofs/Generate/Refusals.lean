/-
Why statements are not generated. Where whatever is stored to is a place, the generator refuses
statements for three reasons only: an expression or the blocks are nested too deep, or a number
literal among them cannot be converted. The statements of a source text are of this kind, since the
parser checks every place it builds a store at.
-/
import Mathlib
import ConsoleCpp.Proofs.Generate.Renames
import ConsoleCpp.Proofs.Parser.SourcedStmt

namespace ConsoleCpp

/-- A place is a variable, an element or a member. -/
theorem Expr.isAssignable_iff {e : Expr} : e.isAssignable = true ↔
    (∃ id, e = .name id) ∨ (∃ owner key, e = .index owner key) ∨
      ∃ op owner field, e = .member op owner field := by
  cases e <;> simp [isAssignable]

/-- Whatever the node stores to is a place, and if it is a number literal, `literals` has it. -/
structure Node.Storable (literals : String → Prop) (node : Node) : Prop where
  targets : ∀ target ∈ node.storeTargets, target.isAssignable = true
  number : ∀ text, node = .expr (.number text) → literals text

namespace Generate

/-- The reasons for which the generator may refuse statements with these number literals. -/
inductive Refusal (literals : String → Prop) : CompileError → Prop
  | expression : Refusal literals (.tooDeep maxExpressionDepth .expression)
  | blocks : Refusal literals (.tooDeep maxIndent .blocks)
  | literal {text : String} {e : CompileError} (hl : literals text)
      (h : Target.numberLiteral text = .error e) : Refusal literals e

/-- The generation succeeds, or is refused for one of the reasons. -/
def Answers {α : Type} (literals : String → Prop) (result : Except CompileError α) : Prop :=
  Ends (fun _ => True) (Refusal literals) result

variable {literals : String → Prop}

theorem Answers.ok {α : Type} (a : α) : Answers literals (.ok a) := trivial

theorem Answers.bind {α β : Type} {first : Except CompileError α} {next : α → Except CompileError β}
    (hf : Answers literals first) (hn : ∀ a, Answers literals (next a)) :
    Answers literals (first >>= next) :=
  Ends.bind hf fun a _ => hn a

/-! ## Expressions -/

variable {renames : Renames}

/-- Everywhere in the expression what is stored to is a place. -/
def Sound (literals : String → Prop) (e : Expr) : Prop :=
  (Node.expr e).Everywhere (Node.Storable literals)

theorem Sound.child {e child : Expr} (h : Sound literals e) (hc : child ∈ e.children) :
    Sound literals child :=
  Node.Everywhere.child h (List.mem_map_of_mem hc)

theorem Sound.target {e target : Expr} (h : Sound literals e)
    (ht : target ∈ (Node.expr e).storeTargets) : target.isAssignable = true :=
  h.here.targets target ht

/-- An expression that is nested too deep is refused on its way in. -/
theorem deeper_answers (depth : Nat) : Answers literals (deeper depth) := by
  unfold deeper
  split
  · exact .expression
  · exact .ok _

/-- A number may be refused by its literal alone. -/
theorem numberLiteral_answers {text : String} (h : Sound literals (.number text)) :
    Answers literals (Target.numberLiteral text) := by
  have hl : literals text := h.here.number text rfl
  cases hn : Target.numberLiteral text with
  | ok _ => exact .ok _
  | error e => exact .literal hl hn

mutual

/-- By the tree. What is stored to has a form for each place, so no store is refused. -/
theorem expr_answers : ∀ (e : Expr) (depth : Nat), Sound literals e →
    Answers literals (expr renames depth e)
  | .number _, _, h => by
    rw [expr]
    exact (deeper_answers _).bind fun _ => (numberLiteral_answers h).bind fun _ => .ok _
  | .string _ _, _, _ | .char _, _, _ | .bool _, _, _ | .name _, _, _ | .newObject _, _, _ => by
    rw [expr]
    exact (deeper_answers _).bind fun _ => .ok _
  | .unary (.step op) operand, _, h => by
    rw [expr]
    exact (deeper_answers _).bind fun depth =>
      step_answers op false operand depth (h.target (.head _)) (h.child (.head _))
  | .stepAfter op operand, _, h => by
    rw [expr]
    exact (deeper_answers _).bind fun depth =>
      step_answers op true operand depth (h.target (.head _)) (h.child (.head _))
  | .unary (.sign _) e, _, h | .member _ e _, _, h | .list e, _, h | .newArray _ e, _, h => by
    rw [expr]
    exact (deeper_answers _).bind fun depth =>
      (expr_answers e depth (h.child (.head _))).bind fun _ => .ok _
  | .binary _ left right, _, h | .index left right, _, h => by
    rw [expr]
    exact (deeper_answers _).bind fun depth =>
      (expr_answers left depth (h.child (.head _))).bind fun _ =>
        (expr_answers right depth (h.child (.tail _ (.head _)))).bind fun _ => .ok _
  | .assign op target value, _, h => by
    rw [expr]
    exact (deeper_answers _).bind fun depth =>
      (expr_answers value depth (h.child (.tail _ (.head _)))).bind fun result =>
        store_answers op result target depth (h.target (.head _)) (h.child (.head _))
  | .call callee args, _, h => by
    rw [expr]
    exact (deeper_answers _).bind fun depth =>
      (expr_answers callee depth (h.child (.head _))).bind fun _ =>
        (exprs_answers args depth fun e he => h.child (.tail _ he)).bind fun _ => .ok _
  | .scope left right, _, h => by
    have hr : Sound literals right := h.child (.tail _ (.head _))
    by_cases hl : left = .name "std"
    · subst hl
      rw [expr_std]
      exact (deeper_answers _).bind fun depth => expr_answers right depth hr
    · rw [expr_scope _ _ right hl]
      exact (deeper_answers _).bind fun depth =>
        (expr_answers left depth (h.child (.head _))).bind fun _ =>
          (expr_answers right depth hr).bind fun _ => .ok _

theorem exprs_answers : ∀ (es : List Expr) (depth : Nat), (∀ e ∈ es, Sound literals e) →
    Answers literals (exprs renames depth es)
  | [], _, _ => .ok _
  | e :: rest, depth, h => by
    rw [exprs]
    exact (expr_answers e depth (h e (.head _))).bind fun _ =>
      (exprs_answers rest depth fun e he => h e (.tail _ he)).bind fun _ => .ok _

theorem step_answers (op : StepOp) (keepsOld : Bool) : ∀ (e : Expr) (depth : Nat),
    e.isAssignable = true → Sound literals e → Answers literals (step renames depth op keepsOld e)
  | .name _, _, _, _ => .ok _
  | .index target key, depth, _, h => by
    rw [step]
    exact (expr_answers target depth (h.child (.head _))).bind fun _ =>
      (expr_answers key depth (h.child (.tail _ (.head _)))).bind fun _ => .ok _
  | .member _ target _, depth, _, h => by
    rw [step]
    exact (expr_answers target depth (h.child (.head _))).bind fun _ => .ok _

theorem store_answers (op : AssignOp) (value : Target.Expr) : ∀ (e : Expr) (depth : Nat),
    e.isAssignable = true → Sound literals e → Answers literals (store renames depth op value e)
  | .name _, _, _, _ => by
    simp only [store]
    cases op <;> exact .ok _
  | .index target key, depth, _, h => by
    rw [store]
    refine (expr_answers target depth (h.child (.head _))).bind fun _ =>
      (expr_answers key depth (h.child (.tail _ (.head _)))).bind fun _ => ?_
    cases op <;> exact .ok _
  | .member _ target _, depth, _, h => by
    rw [store]
    refine (expr_answers target depth (h.child (.head _))).bind fun _ => ?_
    cases op <;> exact .ok _

end

/-- The parts of a place are expressions of their own, one level further in. -/
theorem place_answers : ∀ {e : Expr}, e.isAssignable = true → Sound literals e →
    Answers literals (place renames e)
  | .name _, _, _ => .ok _
  | .index target key, _, h =>
    (expr_answers target 1 (h.child (.head _))).bind fun _ =>
      (expr_answers key 1 (h.child (.tail _ (.head _)))).bind fun _ => .ok _
  | .member _ target _, _, h => (expr_answers target 1 (h.child (.head _))).bind fun _ => .ok _

/-! ## Statements without statements inside -/

/-- An expression on a line of its own goes by its outermost form: stores and steps to places have
lines of their own, all else is generated as it is. -/
theorem expressionStatement_answers {e : Expr} (h : Sound literals e) :
    Answers literals (expressionStatement renames e) := by
  unfold expressionStatement
  split
  · -- an assignment is a line of its own, or one that evaluates it as a value
    rename_i op target value
    refine (place_answers (h.target (.head _)) (h.child (.head _))).bind fun spot => ?_
    refine (expr_answers value 0 (h.child (.tail _ (.head _)))).bind fun result => ?_
    split
    · exact .ok _
    · exact .ok _
    · exact .ok _
    · exact (expr_answers _ 0 h).bind fun _ => .ok _
    · exact (expr_answers _ 0 h).bind fun _ => .ok _
    · exact .ok _
  · exact (place_answers (h.target (.head _)) (h.child (.head _))).bind fun _ => .ok _
  · exact (place_answers (h.target (.head _)) (h.child (.head _))).bind fun _ => .ok _
  · exact (expr_answers e 0 h).bind fun _ => .ok _

theorem inputs_answers : ∀ {targets : List Expr}, (∀ e ∈ targets, e.isAssignable = true) →
    (∀ e ∈ targets, Sound literals e) → Answers literals (inputs renames targets)
  | [], _, _ => .ok _
  | target :: rest, ht, h => by
    rw [inputs]
    refine (place_answers (ht target (.head _)) (h target (.head _))).bind fun _ => ?_
    exact (inputs_answers (fun e he => ht e (.tail _ he)) fun e he => h e (.tail _ he)).bind
      fun _ => .ok _

theorem shown_answers {part : Expr} (h : Sound literals part) :
    Answers literals (shown renames part) := by
  unfold shown
  refine (expr_answers part 0 h).bind fun _ => ?_
  split <;> exact .ok _

theorem pieces_answers : ∀ {parts : List Expr} (previous : Option Expr),
    (∀ e ∈ parts, Sound literals e) → Answers literals (pieces renames previous parts)
  | [], _, _ => .ok _
  | part :: rest, _, h => by
    rw [pieces]
    refine (shown_answers (h part (.head _))).bind fun _ => ?_
    refine (pieces_answers (some part) fun e he => h e (.tail _ he)).bind fun _ => ?_
    split <;> exact .ok _

/-- The expression that ends each round stores to places only. -/
def RoundEnd.Sound (literals : String → Prop) : RoundEnd → Prop
  | .update e => Generate.Sound literals e
  | .nothing | .leaveUnless _ => True

theorem RoundEnd.sound_nothing : RoundEnd.nothing.Sound literals := trivial

theorem roundEndStatements_answers : ∀ {ending : RoundEnd}, ending.Sound literals →
    Answers literals (roundEndStatements renames ending)
  | .nothing, _ | .leaveUnless _, _ => .ok _
  | .update _, h => (expressionStatement_answers h).bind fun _ => .ok _

/-! ## Suites -/

section

variable {ctx : Context} {count : Nat} {generate : Context → Nat → Generated}

/-- Another level of blocks is there or the blocks are too deep. -/
theorem indented_ends : Ends (· = ctx.inner) (Refusal literals) ctx.indented := by
  unfold Context.indented
  split
  · exact .blocks
  · rfl

/-- The lines at the end of a round are generated behind those of the body. -/
theorem suite_answers {ending : RoundEnd} (he : ending.Sound literals)
    (hg : Answers literals (generate ctx.inner count)) :
    Answers literals (suite ctx count ending generate) := by
  unfold suite
  refine Ends.bind indented_ends fun ctx' hc => ?_
  subst hc
  exact hg.bind fun _ => (roundEndStatements_answers he).bind fun _ => .ok _

theorem loop_answers {condition : Target.Expr} {ending : RoundEnd} (he : ending.Sound literals)
    (hg : Answers literals (generate (ctx.inLoop ending).inner count)) :
    Answers literals (loop ctx count condition ending generate) := by
  unfold loop
  exact (suite_answers he hg).bind fun _ => .ok _

theorem function_answers {name : String} {params : List Parameter} {body : List Stmt}
    (hg : Answers literals (generate (ctx.inFunction params body).inner count)) :
    Answers literals (function ctx count name params body generate) := by
  unfold function
  exact (suite_answers RoundEnd.sound_nothing hg).bind fun _ => .ok _

/-- Prototypes, functions and others are generated one group after the other. -/
theorem arranged_answers {generate : Group → Nat → Generated}
    (hg : ∀ which count, Answers literals (generate which count)) :
    Answers literals (arranged count generate) := by
  unfold arranged
  exact (hg _ _).bind fun _ => (hg _ _).bind fun _ => (hg _ _).bind fun _ => .ok _

end

/-! ## Statements -/

/-- Everywhere in the statement what is stored to is a place. -/
def SoundStmt (literals : String → Prop) (s : Stmt) : Prop :=
  (Node.stmt s).Everywhere (Node.Storable literals)

mutual

/-- By the tree, with the update of the loop around it, which is generated again at each jump to the
next round. -/
theorem stmt_answers : ∀ (s : Stmt) (ctx : Context) {count : Nat}, SoundStmt literals s →
    ctx.roundEnd.Sound literals → Answers literals (stmt ctx count s)
  | .header _, _, _, _, _ | .usingSpace _, _, _, _, _ | .prototype _ _ _, _, _, _, _
  | .breakLoop, _, _, _, _ => by
    rw [stmt]
    exact .ok _
  | .function _ _ params body, _, _, h, _ => by
    rw [stmt]
    have hb : SoundStmt literals (.block body) := h.child (by simp [Node.children])
    refine function_answers (arranged_answers fun which count => ?_)
    exact group_answers body _ (fun s hs => hb.child (List.mem_map_of_mem hs)) trivial
  | .declaration _ _ none, _, _, _, _ => by
    rw [stmt]
    exact .ok _
  | .declaration _ _ (some e), _, _, h, _ => by
    rw [stmt]
    exact (expr_answers e 0 (h.child (.head _))).bind fun _ => .ok _
  | .block statements, _, _, h, hr => by
    rw [stmt]
    refine arranged_answers fun which count => ?_
    exact group_answers statements _ (fun s hs => h.child (List.mem_map_of_mem hs)) hr
  | .input targets, _, _, h, _ => by
    rw [stmt]
    have ht : ∀ target ∈ targets, target.isAssignable = true := h.here.targets
    exact (inputs_answers ht fun e he => h.child (List.mem_map_of_mem he)).bind fun _ => .ok _
  | .print parts, _, _, h, _ => by
    rw [stmt]
    split
    · exact .ok _
    · exact (pieces_answers none fun e he => h.child (List.mem_map_of_mem he)).bind fun _ => .ok _
  | .ifElse condition thenStmt elseStmt, ctx, _, h, hr => by
    rw [stmt]
    refine (expr_answers condition 0 (h.child (.head _))).bind fun _ => ?_
    refine (suite_answers RoundEnd.sound_nothing
      (stmt_answers thenStmt ctx.inner (h.child (.tail _ (.head _))) hr)).bind fun _ => ?_
    refine (alternative_answers elseStmt ctx (fun s hs => ?_) hr).bind fun _ => .ok _
    exact h.child (.tail _ (.tail _ (List.mem_map_of_mem (Option.mem_toList.2 hs))))
  | .whileLoop condition body, _, _, h, _ => by
    rw [stmt]
    refine (expr_answers condition 0 (h.child (.head _))).bind fun _ => ?_
    exact loop_answers trivial (stmt_answers body _ (h.child (.tail _ (.head _))) trivial)
  | .doLoop condition body, _, _, h, _ => by
    rw [stmt]
    refine (expr_answers condition 0 (h.child (.head _))).bind fun _ => ?_
    exact loop_answers trivial (stmt_answers body _ (h.child (.tail _ (.head _))) trivial)
  | .forLoop init condition update body, ctx, count, h, hr => by
    rw [stmt]
    -- each jump to the next round in the body generates the update too, so it comes first
    have hu : (updateEnd update).Sound literals := by
      cases update with
      | none => trivial
      | some e => exact h.child (by simp [Node.children])
    refine (optional_answers init (ctx.inFor init count) (fun s hs => ?_) hr).bind fun _ => ?_
    · exact h.child (List.mem_append_left _ (List.mem_map_of_mem (Option.mem_toList.2 hs)))
    · refine (expr_answers condition 0 (h.child (by simp [Node.children]))).bind fun _ => ?_
      refine (loop_answers hu ?_).bind fun _ => .ok _
      exact stmt_answers body _ (h.child (by simp [Node.children])) hu
  | .ret none, _, _, _, _ => by
    rw [stmt]
    exact .ok _
  | .ret (some e), _, _, h, _ => by
    rw [stmt]
    exact (expr_answers e 0 (h.child (.head _))).bind fun _ => .ok _
  | .continueLoop, _, _, _, hr => by
    rw [stmt]
    exact (roundEndStatements_answers hr).bind fun _ => .ok _
  | .expression e, _, _, h, _ => by
    rw [stmt]
    exact (expressionStatement_answers (h.child (.head _))).bind fun _ => .ok _

theorem alternative_answers : ∀ (s : Option Stmt) (ctx : Context) {count : Nat},
    (∀ inner ∈ s, SoundStmt literals inner) → ctx.roundEnd.Sound literals →
    Answers literals (alternative ctx count s)
  | none, _, _, _, _ => by
    rw [alternative]
    exact .ok _
  | some s, ctx, _, h, hr => by
    rw [alternative]
    split
    · exact (stmt_answers s ctx (h s rfl) hr).bind fun _ => .ok _
    · exact (suite_answers RoundEnd.sound_nothing
        (stmt_answers s ctx.inner (h s rfl) hr)).bind fun _ => .ok _

theorem optional_answers : ∀ (s : Option Stmt) (ctx : Context) {count : Nat},
    (∀ inner ∈ s, SoundStmt literals inner) → ctx.roundEnd.Sound literals →
    Answers literals (optional ctx count s)
  | none, _, _, _, _ => by
    rw [optional]
    exact .ok _
  | some s, _, _, h, hr => by
    rw [optional]
    exact stmt_answers s _ (h s rfl) hr

theorem group_answers : ∀ (statements : List Stmt) (ctx : Context) {count : Nat} {which : Group},
    (∀ s ∈ statements, SoundStmt literals s) → ctx.roundEnd.Sound literals →
    Answers literals (group ctx count which statements)
  | [], _, _, _, _, _ => by
    rw [group]
    exact .ok _
  | s :: rest, _, _, _, h, hr => by
    have hrest : ∀ s ∈ rest, SoundStmt literals s := fun s hs => h s (.tail _ hs)
    rw [group]
    split
    · refine (stmt_answers s _ (h s (.head _)) hr).bind fun _ => ?_
      exact (group_answers rest _ hrest hr).bind fun _ => .ok _
    · exact group_answers rest _ hrest hr

end

/-! ## Programs -/

variable {statements : List Stmt}

theorem sequence_answers (ctx : Context) {count : Nat} (h : ∀ s ∈ statements, SoundStmt literals s)
    (hr : ctx.roundEnd.Sound literals) : Answers literals (sequence ctx count statements) :=
  arranged_answers fun _ _ => group_answers statements ctx h hr

/-- The top level is a main function, or statements that are made into one. -/
theorem program_answers (h : ∀ s ∈ statements, SoundStmt literals s) :
    Answers literals (program statements) := by
  have hrest : ∀ s ∈ withoutPrototypes statements, SoundStmt literals s :=
    fun s hs => h s ((List.mem_filter.1 hs).1)
  unfold program
  dsimp only
  split
  · refine (function_answers ?_).bind fun _ => .ok _
    exact sequence_answers _ hrest trivial
  · refine Answers.bind ?_ fun _ => .ok _
    exact sequence_answers _ hrest trivial

theorem fragment_answers (h : ∀ s ∈ statements, SoundStmt literals s) :
    Answers literals (fragment statements) := by
  unfold fragment
  refine Answers.bind ?_ fun _ => .ok _
  exact sequence_answers _ h trivial

/-! ## Statements of a source text -/

/-- In the statements of a source text, what is stored to is a place. -/
theorem storable_of_sourced {types : String → Prop} {node : Node} (h : node.Sourced types)
    (hn : ∀ text, node = .expr (.number text) → literals text) : node.Storable literals := by
  refine ⟨fun target ht => ?_, hn⟩
  unfold Node.storeTargets at ht
  split at ht
  · rwa [List.mem_singleton.1 ht]
  · rwa [List.mem_singleton.1 ht]
  · rwa [List.mem_singleton.1 ht]
  · exact h target ht
  · cases ht

/-- An operator between two values is no assignment and no access to a member, and its text is read
as this operator. -/
theorem binaryOp_link (op : BinaryOp) :
    AssignOp.ofText? op.text = none ∧ MemberOp.ofText? op.text = none ∧
      Parser.Link.ofText? op.text = some (.binary op) := by
  cases op <;> decide

/-- The statements of a source text can be generated. -/
structure Generable (source : String) (statements : List Stmt) : Prop where
  /-- Whatever is stored to is a variable, an element or a member. -/
  places : ∀ node ∈ walk true statements, ∀ target ∈ node.storeTargets,
    (∃ id, target = .name id) ∨ (∃ owner key, target = .index owner key) ∨
      ∃ op owner field, target = .member op owner field
  /-- An operator between two values is one that joins values by its precedence, no assignment and
  no access to a member. -/
  operators : ∀ op left right, Node.expr (.binary op left right) ∈ walk true statements →
    AssignOp.ofText? op.text = none ∧ MemberOp.ofText? op.text = none ∧
      Parser.Link.ofText? op.text = some (.binary op)
  /-- Every include directive has a path between its brackets. -/
  headers : ∀ tokens, tokensOf source = .ok tokens → ∀ t ∈ tokens, t.kind = .header →
    ∃ path, Token.HeaderText path t.text.toList ∧
      Parser.headerPath t.text = Text.trimBlanks (String.ofList path)
  /-- A whole program is generated unless it is nested too deep or has a number literal that cannot
  be converted. -/
  program : Answers (fun text => Node.expr (.number text) ∈ walk true statements)
    (Generate.program statements)
  /-- So is a part of a program. -/
  fragment : Answers (fun text => Node.expr (.number text) ∈ walk true statements)
    (Generate.fragment statements)

/-- Whatever nesting the parser is allowed, the statements that it accepts can be generated. -/
theorem generable_of_statementsOf {maxDepth : Int} {source : String} {symbols : SymbolTable}
    (h : statementsOf maxDepth source = .ok (statements, symbols)) :
    Generable source statements := by
  have hsourced := forall_walk_iff.2 (statementsOf_built h)
  have hstorable : ∀ node ∈ walk true statements,
      node.Storable fun text => Node.expr (.number text) ∈ walk true statements := by
    intro node hn
    exact storable_of_sourced (hsourced node hn) fun text he => he ▸ hn
  -- what holds at every node that the walk visits holds everywhere in each statement
  have hsound := forall_walk_iff.1 hstorable
  refine ⟨fun node hn target ht => ?_, fun op _ _ _ => binaryOp_link op, ?_,
    program_answers hsound, fragment_answers hsound⟩
  · exact Expr.isAssignable_iff.1 ((hstorable node hn).targets target ht)
  · intro tokens ht t hm hk
    have htext := ((tokensOf_settled ht).genuine hm).text
    rw [hk] at htext
    obtain ⟨path, hp⟩ := htext
    exact ⟨path, hp, Parser.headerPath_of_text hp⟩

/-- A header, and a store to an element whose value steps a member. -/
def steppedMember : String := "#include <io>\na[0] = p.x++ + 010;"

def steppedMemberStatements : List Stmt :=
  [.header "io",
   .expression (.assign .set (.index (.name "a") (.number "0"))
     (.binary .add (.stepAfter .increment (.member .dot (.name "p") "x")) (.number "010")))]

theorem generable_steppedMember :
    statementsOf 3 steppedMember = .ok (steppedMemberStatements, ⟨[]⟩) ∧
    Generable steppedMember steppedMemberStatements := by
  have hparsed : statementsOf 3 steppedMember = .ok (steppedMemberStatements, ⟨[]⟩) := by
    cbv
  exact ⟨hparsed, generable_of_statementsOf hparsed⟩

end Generate

end ConsoleCpp

/-
The block structure of what is generated. Whatever statements are generated from, their suites hold
something, and no suite is deeper than the limit of the generator, so the lines of a generated
program or part of one form blocks. A few lines are a level deeper than the limit: those in the
definition that stands for an announced function, and the `break` of a `do` loop's test. In what is
generated from a source text, names are words of their own, and each line that opens a block is
known by its first word.
-/
import ConsoleCpp.Proofs.Generate.Renames
import ConsoleCpp.Proofs.Parser.SourcedStmt
import ConsoleCpp.Proofs.Target.Blocks

namespace ConsoleCpp

/-! ## What lines open with -/

namespace Generate

open Target (LineKind safeName)

theorem ofText_safeName {name : String} (h : IsName name) :
    LineKind.ofText (safeName name) = .plain := by
  have hwords : ∀ c ∈ name.toList, Text.isWord c = true := h.word.all_word
  unfold safeName
  split
  · -- no word that opens a block ends in an underscore
    refine LineKind.ofText_of_word ?_ fun kind hk he => ?_
    · rw [String.toList_append]
      exact List.forall_mem_append.2 ⟨hwords, List.all_eq_true.1 (by decide)⟩
    · have hlast : ∀ kind ∈ LineKind.headers, kind.word.toList.getLast? ≠ some '_' := by decide
      refine hlast kind hk ?_
      rw [← he, String.toList_append]
      simp
  · rename_i hr
    refine LineKind.ofText_of_word hwords fun kind hk he => ?_
    have hreserved : ∀ kind ∈ LineKind.headers, Target.reservedWords.contains kind.word = true := by
      decide
    rw [he, hreserved kind hk] at hr
    exact hr rfl

/-- Names of loop variables start with an underscore, as the names of the generator do. -/
def LoopNames (renames : Renames) : Prop :=
  ∀ names ∈ renames, ∀ entry ∈ names, entry.2.toList.head? = some '_'

theorem loopNames_loopRenames {renames : Renames} (h : LoopNames renames) (init : Option Stmt)
    (count : Nat) : LoopNames (loopRenames init count :: renames) := by
  refine List.forall_mem_cons.2 ⟨fun entry he => ?_, h⟩
  unfold loopRenames at he
  cases hl : loopVariable? init with
  | none => rw [hl] at he; cases he
  | some name =>
    rw [hl] at he
    rw [List.mem_singleton.1 he]
    simp [Target.loopName]

section

variable {renames : Renames}

theorem ofText_bind {name : String} (hr : LoopNames renames) (hn : IsName name) :
    LineKind.ofText (bind renames name) = .plain := by
  rcases bind_cases renames name with hb | ⟨names, hm, id, he, hb⟩
  · rw [hb]
    exact ofText_safeName hn
  · have hhead : id.toList.head? = some '_' := hr names hm (name, id) he
    refine LineKind.ofText_of_head fun c hc => ?_
    rw [hb, hhead] at hc
    cases hc
    decide

theorem ofText_toString (n : Nat) : LineKind.ofText (toString n) = .plain := by
  refine LineKind.ofText_of_head fun c hc => ?_
  rw [Nat.toString_eq_repr, Nat.repr_eq_ofList_toDigits, String.toList_ofList] at hc
  have hdigit := Nat.isDigit_of_mem_toDigits (by decide) (by decide) (List.mem_of_head? hc)
  have hletters : ∀ c ∈ ['d', 'e', 'i', 'w'], (!c.isDigit) = true := List.all_eq_true.1 (by decide)
  intro hd
  have hnot := hletters c hd
  rw [hdigit] at hnot
  cases hnot

theorem ofText_numberLiteral {text spelling : String} (ht : Token.NumberText text.toList)
    (h : Target.numberLiteral text = .ok spelling) : LineKind.ofText spelling = .plain := by
  unfold Target.numberLiteral at h
  dsimp only at h
  split at h
  · split at h
    · split at h
      · cases h
      · cases h
        exact ofText_toString _
    · split at h
      · cases h
      · cases h
        exact ofText_toString _
  · cases h
    refine LineKind.ofText_of_head fun c hc hd => ?_
    have hletters : ∀ c ∈ ['d', 'e', 'i', 'w'], (!Text.isDigit c) = true :=
      List.all_eq_true.1 (by decide)
    have hdigit : Text.isDigit c = true := by
      obtain ⟨first, rest, he, hf⟩ := Token.NumberText.head ht
      rw [he] at hc
      cases hc
      exact hf
    have hnot := hletters c hd
    rw [hdigit] at hnot
    cases hnot

/-- A literal keeps its first quote. -/
theorem ofText_literal {text : String} {rest : List Char} {quote : Char}
    (hq : quote = '"' ∨ quote = '\'') (ht : text.toList = quote :: rest) :
    LineKind.ofText (Target.literal text) = .plain := by
  refine LineKind.ofText_of_head fun c hc => ?_
  rw [Target.literal, String.toList_ofList, ht] at hc
  rcases hq with rfl | rfl <;> simp [Target.respell] at hc <;> subst hc <;> decide

theorem ofText_helper (helper : String) (args : List String) :
    LineKind.ofText (Target.Expr.helperSpelling helper args) = .plain := by
  simp only [Target.Expr.helperSpelling, String.append_assoc]
  exact LineKind.ofText_append_of_head rfl (by decide)

/-- The text of what is generated opens no block. -/
def Opens (result : Except CompileError Target.Expr) : Prop :=
  Ends (fun form => LineKind.ofText form.spell = .plain) (fun _ => True) result

theorem Opens.of_form {form : Target.Expr} (h : LineKind.ofText form.spell = .plain) :
    Opens (.ok form) :=
  h

/-- Where nothing can be said of a first step. -/
theorem Opens.after {α : Type} {first : Except CompileError α}
    {next : α → Except CompileError Target.Expr} (h : ∀ a, Opens (next a)) :
    Opens (first >>= next) :=
  Ends.bind_any h

theorem Opens.bind {first : Except CompileError Target.Expr}
    {next : Target.Expr → Except CompileError Target.Expr} (hf : Opens first)
    (hn : ∀ form, LineKind.ofText form.spell = .plain → Opens (next form)) :
    Opens (first >>= next) :=
  Ends.bind hf hn

/-- A bracket opens no block. -/
theorem ofText_bracket (inside : String) : LineKind.ofText ("(" ++ inside) = .plain :=
  LineKind.ofText_append_of_head rfl (by decide)

/-- What goes on with a bracket or a point opens what it starts with. -/
theorem ofText_joined {text sign after : String} (h : LineKind.ofText text = .plain)
    (hs : sign.toList.head?.any (!Text.isWord ·) = true) :
    LineKind.ofText (text ++ (sign ++ after)) = .plain := by
  rw [LineKind.ofText_append, h]
  obtain ⟨c, hc, hw⟩ := (Option.any_eq_true _ _).1 hs
  intro d hd
  rw [String.toList_append, List.head?_append, hc, Option.some_or] at hd
  cases hd
  simpa using hw

theorem step_opens (depth : Nat) (op : StepOp) (keepsOld : Bool) (e : Expr) :
    Opens (step renames depth op keepsOld e) := by
  unfold step
  split
  · refine .of_form ?_
    cases keepsOld <;> simp only [Target.Expr.spell, String.append_assoc]
    · exact ofText_bracket _
    · exact LineKind.ofText_append_of_head rfl (by decide)
  · exact .after fun _ => .after fun _ => ofText_helper _ _
  · exact .after fun _ => ofText_helper _ _
  · trivial

theorem store_opens (depth : Nat) (op : AssignOp) (value : Target.Expr) (e : Expr) :
    Opens (store renames depth op value e) := by
  unfold store
  split
  · cases op <;>
    · refine .of_form ?_
      simp only [Target.Expr.spell, String.append_assoc]
      exact ofText_bracket _
  · refine .after fun _ => .after fun _ => ?_
    cases op <;> exact ofText_helper _ _
  · refine .after fun _ => ?_
    cases op <;> exact ofText_helper _ _
  · trivial

theorem built_child {e child : Expr} (h : Parser.Built (.expr e)) (hc : child ∈ e.children) :
    Parser.Built (.expr child) :=
  h.child (List.mem_map_of_mem hc)

theorem expr_opens (hr : LoopNames renames) : ∀ (e : Expr) (depth : Nat), Parser.Built (.expr e) →
    Opens (expr renames depth e)
  | .number _, _, h => by
    rw [expr]
    have ht := h.here
    refine .after fun _ => Ends.bind (Ends.of_ok fun _ hn => ofText_numberLiteral ht hn) ?_
    exact fun _ hs => hs
  | .string _ _, _, h => by
    rw [expr]
    obtain ⟨⟨_, ht, _⟩, _⟩ := h.here
    exact .after fun _ => ofText_literal (.inl rfl) ht
  | .char text, _, h => by
    rw [expr]
    obtain ⟨ht, _⟩ := h.here
    obtain ⟨rest, hrest⟩ : ∃ rest, text.toList = '\'' :: rest := by
      generalize text.toList = cs at ht
      cases ht with
      | pair _ | plain _ _ => exact ⟨_, rfl⟩
    exact .after fun _ => ofText_literal (.inr rfl) hrest
  | .bool value, _, _ => by
    rw [expr]
    have ht : ∀ value, LineKind.ofText (Target.Expr.boolSpelling value) = .plain := by decide
    exact .after fun _ => ht value
  | .name _, _, h => by
    rw [expr]
    exact .after fun _ => ofText_bind hr h.here
  | .unary (.step op) operand, _, _ => by
    rw [expr]
    exact .after fun _ => step_opens _ _ _ _
  | .stepAfter op operand, _, _ => by
    rw [expr]
    exact .after fun _ => step_opens _ _ _ _
  | .assign op target value, _, _ => by
    rw [expr]
    exact .after fun _ => .after fun _ => store_opens _ _ _ _
  | .unary (.sign _) _, _, _ => by
    rw [expr]
    refine .after fun _ => .after fun _ => .of_form ?_
    simp only [Target.Expr.spell, String.append_assoc]
    exact ofText_bracket _
  | .binary op _ _, _, _ => by
    rw [expr]
    refine .after fun _ => .after fun _ => .after fun _ => .of_form ?_
    cases op with
    | div | mod => exact ofText_helper _ _
    | _ =>
      simp only [Target.Expr.spell, String.append_assoc]
      exact ofText_bracket _
  | .list _, _, _ => by
    rw [expr]
    refine .after fun _ => .after fun _ => .of_form ?_
    simp only [Target.Expr.spell, String.append_assoc]
    exact LineKind.ofText_append_of_head rfl (by decide)
  | .newObject _, _, _ => by
    rw [expr]
    exact .after fun _ => ofText_helper _ _
  | .newArray _ _, _, _ => by
    rw [expr]
    exact .after fun _ => .after fun _ => ofText_helper _ _
  | .call callee args, _, h => by
    rw [expr]
    -- the text starts like that of what is called
    refine .after fun depth => (expr_opens hr callee depth (built_child h (.head _))).bind ?_
    refine fun owner ho => .after fun _ => .of_form ?_
    simp only [Target.Expr.spell, String.append_assoc]
    exact ofText_joined ho (by decide)
  | .member _ target _, _, h => by
    rw [expr]
    refine .after fun depth => (expr_opens hr target depth (built_child h (.head _))).bind ?_
    refine fun owner ho => .of_form ?_
    rw [Target.Expr.spell_dot, String.append_assoc]
    exact ofText_joined ho (by decide)
  | .index target key, _, h => by
    rw [expr]
    refine .after fun depth => (expr_opens hr target depth (built_child h (.head _))).bind ?_
    refine fun owner ho => .after fun _ => .of_form ?_
    simp only [Target.Expr.spell, String.append_assoc]
    exact ofText_joined ho (by decide)
  | .scope left right, _, h => by
    by_cases hl : left = .name "std"
    · subst hl
      rw [expr_std]
      exact .after fun depth => expr_opens hr right depth (built_child h (.tail _ (.head _)))
    · rw [expr_scope _ _ right hl]
      refine .after fun depth => (expr_opens hr left depth (built_child h (.head _))).bind ?_
      refine fun owner ho => .after fun _ => .of_form ?_
      rw [Target.Expr.spell_under, String.append_assoc]
      exact ofText_joined ho (by decide)

theorem place_opens (hr : LoopNames renames) {e : Expr} (h : Parser.Built (.expr e)) :
    Ends (fun spot => LineKind.ofText spot.spell = .plain) (fun _ => True) (place renames e) := by
  unfold place
  split
  · exact ofText_bind hr h.here
  · refine Ends.bind (expr_opens hr _ 1 (built_child h (.head _))) fun owner ho => ?_
    refine Ends.bind_any fun key => ?_
    show LineKind.ofText (Target.Expr.spell _) = _
    simp only [Target.Place.expr, Target.Expr.spell, String.append_assoc]
    exact ofText_joined ho (by decide)
  · refine Ends.bind (expr_opens hr _ 1 (built_child h (.head _))) fun owner ho => ?_
    show LineKind.ofText (Target.Expr.spell _) = _
    simp only [Target.Place.expr, Target.Expr.spell, String.append_assoc]
    exact ofText_joined ho (by decide)
  · trivial

end

/-! ## Statements without statements inside -/

open Target.Stmt (Fits FitsAll fitsAll_append)

/-- The deepest indentation of a generated line. -/
def maxLineDepth : Nat := maxIndent + 1

section

variable {clear : Prop} {renames : Renames} {depth : Nat}

theorem place_clear {e : Expr} (hr : clear → LoopNames renames)
    (h : clear → Parser.Built (.expr e)) :
    Ends (fun spot => clear → LineKind.ofText spot.spell = .plain) (fun _ => True)
      (place renames e) :=
  .of_ok fun _ hs hc => (place_opens (hr hc) (h hc)).ok hs

theorem expr_clear {e : Expr} (hr : clear → LoopNames renames)
    (h : clear → Parser.Built (.expr e)) :
    Ends (fun form => clear → LineKind.ofText form.spell = .plain) (fun _ => True)
      (expr renames 0 e) :=
  .of_ok fun _ hf hc => (expr_opens (hr hc) e 0 (h hc)).ok hf

theorem expressionStatement_fits {e : Expr} (hd : depth ≤ maxLineDepth)
    (hr : clear → LoopNames renames) (h : clear → Parser.Built (.expr e)) :
    Ends (Fits clear maxLineDepth depth) (fun _ => True) (expressionStatement renames e) := by
  have hchild : ∀ child ∈ e.children, clear → Parser.Built (.expr child) :=
    fun child hm hc => built_child (h hc) hm
  unfold expressionStatement
  split
  · refine .bind (place_clear hr (hchild _ (.head _))) fun spot hs => .bind_any fun result => ?_
    split
    · exact ⟨hs, hd⟩
    · exact ⟨hs, hd⟩
    · exact ⟨hs, hd⟩
    · exact .bind (expr_clear hr h) fun _ hf => ⟨hf, hd⟩
    · exact .bind (expr_clear hr h) fun _ hf => ⟨hf, hd⟩
    · exact ⟨hs, hd⟩
  · exact .bind (place_clear hr (hchild _ (.head _))) fun _ hs => ⟨hs, hd⟩
  · exact .bind (place_clear hr (hchild _ (.head _))) fun _ hs => ⟨hs, hd⟩
  · exact .bind (expr_clear hr h) fun _ hf => ⟨hf, hd⟩

theorem inputs_fit (hd : depth ≤ maxLineDepth) (hr : clear → LoopNames renames) :
    ∀ {targets : List Expr}, (clear → ∀ e ∈ targets, Parser.Built (.expr e)) →
    Ends (FitsAll clear maxLineDepth depth) (fun _ => True) (inputs renames targets)
  | [], _ => trivial
  | target :: rest, h => by
    rw [inputs]
    refine .bind (place_clear hr fun hc => h hc target (.head _)) fun _ hs => ?_
    refine .bind (inputs_fit hd hr fun hc e he => h hc e (.tail _ he)) fun _ ho => ?_
    exact ⟨⟨hs, hd⟩, ho⟩

/-- What runs at the end of each round is as the parser makes it. -/
def RoundEnd.Built : RoundEnd → Prop
  | .update e => Parser.Built (.expr e)
  | .nothing | .leaveUnless _ => True

theorem roundEndStatements_fit {ending : RoundEnd} (hd : depth ≤ maxIndent)
    (hr : clear → LoopNames renames) (h : clear → ending.Built) :
    Ends (FitsAll clear maxLineDepth depth) (fun _ => True)
      (roundEndStatements renames ending) := by
  cases ending with
  | nothing => trivial
  | update e =>
    exact .bind (expressionStatement_fits (Nat.le_succ_of_le hd) hr h) fun _ hl => ⟨hl, trivial⟩
  | leaveUnless _ => exact ⟨Nat.succ_le_succ hd, trivial⟩

end

/-! ## Suites -/

/-- What a statement may be generated in: there is room for its lines, and what it takes from around
it is as the parser makes it, where `clear` holds. -/
structure Ready (clear : Prop) (ctx : Context) : Prop where
  room : ctx.indent ≤ maxIndent
  names : clear → LoopNames ctx.renames
  ending : clear → ctx.roundEnd.Built

/-- The generated statements fit at this depth. -/
def Placed (clear : Prop) (depth : Nat) (result : Generated) : Prop :=
  Ends (fun made => FitsAll clear maxLineDepth depth made.1) (fun _ => True) result

/-- The generated statements are a suite at this depth. -/
def Filled (clear : Prop) (depth : Nat) (result : Generated) : Prop :=
  Ends (fun made => made.1 ≠ [] ∧ FitsAll clear maxLineDepth depth made.1) (fun _ => True) result

section

variable {clear : Prop} {ctx : Context} {count : Nat} {generate : Context → Nat → Generated}

theorem Ready.line (h : Ready clear ctx) : ctx.indent ≤ maxLineDepth := Nat.le_succ_of_le h.room

/-- One level further in there is still room, or nothing is generated. -/
theorem indented_ready (hr : Ready clear ctx) :
    Ends (fun inner => inner = ctx.inner ∧ Ready clear inner) (fun _ => True) ctx.indented := by
  unfold Context.indented
  split
  · trivial
  · rename_i hroom
    exact ⟨rfl, Nat.not_lt.1 hroom, hr.names, hr.ending⟩

theorem suite_filled {ending : RoundEnd} (hr : Ready clear ctx) (he : clear → ending.Built)
    (hg : Ready clear ctx.inner → Placed clear (ctx.indent + 1) (generate ctx.inner count)) :
    Filled clear (ctx.indent + 1) (suite ctx count ending generate) := by
  unfold suite
  refine .bind (indented_ready hr) ?_
  rintro _ ⟨rfl, hready⟩
  refine .bind (hg hready) fun made hm => ?_
  refine .bind (roundEndStatements_fit hready.room hr.names he) fun ends hends => ?_
  show _ ∧ _
  split
  · exact ⟨nofun, hready.line, trivial⟩
  · rename_i hne
    exact ⟨by simpa using hne, fitsAll_append.2 ⟨hm, hends⟩⟩

theorem loop_placed {condition : Target.Expr} {ending : RoundEnd} (hr : Ready clear ctx)
    (he : clear → ending.Built) (hg : Ready clear (ctx.inLoop ending).inner →
      Placed clear (ctx.indent + 1) (generate (ctx.inLoop ending).inner count)) :
    Placed clear ctx.indent (loop ctx count condition ending generate) := by
  have hready : Ready clear (ctx.inLoop ending) := ⟨hr.room, hr.names, he⟩
  unfold loop
  exact .bind (suite_filled hready he hg) fun _ hs => ⟨hs, trivial⟩

theorem function_placed {name : String} {params : List Parameter} {body : List Stmt}
    (hr : Ready clear ctx) (hg : Ready clear (ctx.inFunction params body).inner →
      Placed clear (ctx.indent + 1) (generate (ctx.inFunction params body).inner count)) :
    Placed clear ctx.indent (function ctx count name params body generate) := by
  have hready : Ready clear (ctx.inFunction params body) := ⟨hr.room, hr.names, fun _ => trivial⟩
  unfold function
  exact .bind (suite_filled hready (fun _ => trivial) hg) fun _ hs => ⟨hs, trivial⟩

theorem arranged_placed {depth : Nat} {generate : Group → Nat → Generated}
    (hg : ∀ which count, Placed clear depth (generate which count)) :
    Placed clear depth (arranged count generate) := by
  unfold arranged
  refine .bind (hg _ _) fun _ h₁ => .bind (hg _ _) fun _ h₂ => .bind (hg _ _) fun _ h₃ => ?_
  exact fitsAll_append.2 ⟨fitsAll_append.2 ⟨h₁, h₂⟩, h₃⟩

end

/-! ## Statements -/

variable {clear : Prop}

theorem stub_fits {name : String} {params : List Parameter} {depth : Nat} (h : depth ≤ maxIndent) :
    Fits clear maxLineDepth depth (stub name params) :=
  ⟨nofun, Nat.succ_le_succ h, trivial⟩

/-- A conditional becomes a single one. -/
theorem conditional_chained {ctx : Context} {count : Nat} {s : Stmt} (hs : isConditional s = true)
    (h : Placed clear ctx.indent (stmt ctx count s)) :
    Ends (fun made => Target.Stmt.FitsChain clear maxLineDepth ctx.indent made.1) (fun _ => True)
      (stmt ctx count s) := by
  refine .of_ok fun made hm => ?_
  have hfit := h.ok hm
  cases s with
  | ifElse condition thenStmt elseStmt =>
    obtain ⟨_, _, _, _, _, -, -, -, hl⟩ := stmt_ifElse_ok hm
    rw [hl] at hfit ⊢
    exact ⟨rfl, hfit.1⟩
  | _ => cases hs

theorem built_below {node child : Node} (h : clear → Parser.Built node)
    (hc : child ∈ node.children) : clear → Parser.Built child :=
  fun hclear => (h hclear).child hc

mutual

theorem stmt_placed : ∀ (s : Stmt) {ctx : Context} {count : Nat},
    (clear → Parser.Built (.stmt s)) → Ready clear ctx →
    Placed clear ctx.indent (stmt ctx count s)
  | .header _, _, _, _, _ | .usingSpace _, _, _, _, _ => by
    rw [stmt]
    trivial
  | .prototype _ _ _, _, _, _, hr => by
    rw [stmt]
    exact ⟨stub_fits hr.room, trivial⟩
  | .function _ _ params body, _, _, h, hr => by
    rw [stmt]
    have hb : clear → Parser.Built (.stmt (.block body)) := built_below h (by simp [Node.children])
    refine function_placed hr fun hready => arranged_placed fun which count => ?_
    exact group_placed body (fun s hs => built_below hb (List.mem_map_of_mem hs)) hready
  | .declaration _ name initializer, ctx, _, h, hr => by
    have hname : clear → LineKind.ofText (bind ctx.renames name) = .plain :=
      fun hc => ofText_bind (hr.names hc) (h hc).here
    cases initializer with
    | none =>
      rw [stmt]
      exact ⟨⟨hname, hr.line⟩, trivial⟩
    | some e =>
      rw [stmt]
      exact .bind_any fun _ => ⟨⟨hname, hr.line⟩, trivial⟩
  | .block statements, _, _, h, hr => by
    rw [stmt]
    refine arranged_placed fun which count => ?_
    exact group_placed statements (fun s hs => built_below h (List.mem_map_of_mem hs)) hr
  | .input targets, _, _, h, hr => by
    rw [stmt]
    refine .bind (inputs_fit hr.line hr.names fun hc e he => ?_) fun _ hl => hl
    exact built_below h (List.mem_map_of_mem he) hc
  | .print parts, _, _, _, hr => by
    rw [stmt]
    split
    · trivial
    · exact .bind_any fun _ => ⟨hr.line, trivial⟩
  | .ifElse condition thenStmt elseStmt, ctx, _, h, hr => by
    rw [stmt]
    refine .bind_any fun test => ?_
    refine .bind (suite_filled hr (fun _ => trivial)
      (stmt_placed thenStmt (built_below h (.tail _ (.head _))))) fun made hm => ?_
    refine .bind (alternative_placed elseStmt (fun s hs => built_below h ?_) hr) fun other ho => ?_
    · exact .tail _ (.tail _ (List.mem_map_of_mem (Option.mem_toList.2 hs)))
    · exact ⟨⟨hm.1, hm.2, ho⟩, trivial⟩
  | .whileLoop condition body, _, _, h, hr => by
    rw [stmt]
    refine .bind_any fun test => loop_placed hr (fun _ => trivial) ?_
    exact stmt_placed body (built_below h (.tail _ (.head _)))
  | .doLoop condition body, _, _, h, hr => by
    rw [stmt]
    refine .bind_any fun test => loop_placed hr (fun _ => trivial) ?_
    exact stmt_placed body (built_below h (.tail _ (.head _)))
  | .forLoop init condition update body, ctx, count, h, hr => by
    rw [stmt]
    -- the names that the loop makes count in all of its parts
    have hfor : Ready clear (ctx.inFor init count) :=
      ⟨hr.room, fun hc => loopNames_loopRenames (hr.names hc) _ _, hr.ending⟩
    have hu : clear → (updateEnd update).Built := by
      cases update with
      | none => exact fun _ => trivial
      | some e => exact built_below h (by simp [Node.children])
    refine .bind (optional_placed init (fun s hs => built_below h ?_) hfor) fun before hb => ?_
    · exact List.mem_append_left _ (List.mem_map_of_mem (Option.mem_toList.2 hs))
    · refine .bind_any fun test => .bind (loop_placed hfor hu ?_) fun made hm => ?_
      · exact stmt_placed body (built_below h (by simp [Node.children]))
      · exact fitsAll_append.2 ⟨hb, hm⟩
  | .ret none, _, _, _, hr => by
    rw [stmt]
    exact ⟨hr.line, trivial⟩
  | .ret (some e), _, _, _, hr => by
    rw [stmt]
    exact .bind_any fun _ => ⟨hr.line, trivial⟩
  | .breakLoop, _, _, _, hr => by
    rw [stmt]
    exact ⟨hr.line, trivial⟩
  | .continueLoop, _, _, _, hr => by
    rw [stmt]
    refine .bind (roundEndStatements_fit hr.room hr.names hr.ending) fun _ he => ?_
    exact fitsAll_append.2 ⟨he, hr.line, trivial⟩
  | .expression e, _, _, h, hr => by
    rw [stmt]
    have hb := built_below h (.head _)
    refine .bind (expressionStatement_fits hr.line hr.names hb) fun _ hl => ?_
    exact ⟨hl, trivial⟩

/-- The second suite of a conditional, which is a single conditional where it is written as a
further branch. -/
theorem alternative_placed : ∀ (s : Option Stmt) {ctx : Context} {count : Nat},
    (∀ inner ∈ s, clear → Parser.Built (.stmt inner)) → Ready clear ctx →
    Ends (fun made => if made.2.1 then Target.Stmt.FitsChain clear maxLineDepth ctx.indent made.1
      else FitsAll clear maxLineDepth (ctx.indent + 1) made.1) (fun _ => True)
      (alternative ctx count s)
  | none, _, _, _, _ => by
    rw [alternative]
    trivial
  | some s, _, _, h, hr => by
    rw [alternative]
    split
    · rename_i hs
      exact .bind (conditional_chained hs (stmt_placed s (h s rfl) hr)) fun _ hb => hb
    · exact .bind (suite_filled hr (fun _ => trivial) (stmt_placed s (h s rfl))) fun _ hs => hs.2

theorem optional_placed : ∀ (s : Option Stmt) {ctx : Context} {count : Nat},
    (∀ inner ∈ s, clear → Parser.Built (.stmt inner)) → Ready clear ctx →
    Placed clear ctx.indent (optional ctx count s)
  | none, _, _, _, _ => by
    rw [optional]
    trivial
  | some s, _, _, h, hr => by
    rw [optional]
    exact stmt_placed s (h s rfl) hr

theorem group_placed : ∀ (statements : List Stmt) {ctx : Context} {count : Nat} {which : Group},
    (∀ s ∈ statements, clear → Parser.Built (.stmt s)) → Ready clear ctx →
    Placed clear ctx.indent (group ctx count which statements)
  | [], _, _, _, _, _ => by
    rw [group]
    trivial
  | s :: rest, _, _, _, h, hr => by
    have hrest : ∀ s ∈ rest, clear → Parser.Built (.stmt s) := fun s hs => h s (.tail _ hs)
    rw [group]
    split
    · refine .bind (stmt_placed s (h s (.head _)) hr) fun _ h₁ => ?_
      exact .bind (group_placed rest hrest hr) fun _ h₂ => fitsAll_append.2 ⟨h₁, h₂⟩
    · exact group_placed rest hrest hr

end

/-! ## Programs -/

section

variable {statements : List Stmt}

theorem sequence_placed {ctx : Context} {count : Nat}
    (h : ∀ s ∈ statements, clear → Parser.Built (.stmt s)) (hr : Ready clear ctx) :
    Placed clear ctx.indent (sequence ctx count statements) :=
  arranged_placed fun _ _ => group_placed statements h hr

theorem stubs_fit (statements : List Stmt) : FitsAll clear maxLineDepth 1 (stubs statements) := by
  induction statements with
  | nil => trivial
  | cons s rest ih =>
    cases s with
    | prototype _ name params => exact ⟨stub_fits (by decide), ih⟩
    | _ => exact ih

/-- Outside any statement. -/
theorem ready_outside {indent : Nat} {scopes : List (List String)} (h : indent ≤ maxIndent) :
    Ready clear ⟨indent, scopes, [], .nothing⟩ :=
  ⟨h, fun _ => nofun, fun _ => trivial⟩

theorem program_fits (h : ∀ s ∈ statements, clear → Parser.Built (.stmt s)) :
    Ends (fun p => FitsAll clear maxLineDepth 1 (p.stubs ++ p.body)) (fun _ => True)
      (program statements) := by
  have hrest : ∀ s ∈ withoutPrototypes statements, clear → Parser.Built (.stmt s) :=
    fun s hs => h s (List.mem_filter.1 hs).1
  have hstubs : FitsAll clear maxLineDepth 1 (stubs statements) := stubs_fit statements
  unfold program
  dsimp only
  split
  · refine .bind (function_placed (ready_outside (by decide)) fun hr => sequence_placed hrest hr) ?_
    exact fun _ hm => fitsAll_append.2 ⟨hstubs, hm⟩
  · refine .bind (sequence_placed hrest (ready_outside (by decide))) ?_
    exact fun _ hm => fitsAll_append.2 ⟨hstubs, hm⟩

theorem fragment_fits (h : ∀ s ∈ statements, clear → Parser.Built (.stmt s)) :
    Ends (FitsAll clear maxLineDepth 0) (fun _ => True) (fragment statements) := by
  unfold fragment
  exact .bind (sequence_placed h (ready_outside (by decide))) fun _ hm => hm

end

/-- The statements are those of a source text. -/
def Parsed (statements : List Stmt) : Prop :=
  ∃ maxDepth source symbols, statementsOf maxDepth source = .ok (statements, symbols)

/-- Generated lines form blocks, those of a whole program and those of a part of one, whatever
statements they are generated from: the first is not indented, a line that opens a block is followed
by one a level deeper and no other line is, a further branch of a conditional goes on with the
branch before it, and no line is deeper than 91 levels. A line that opens a block starts with the
word for it, and if the statements are those of a source text, no other line does. -/
theorem generated_blocked (statements : List Stmt) :
    (∀ p, program statements = .ok p →
      Target.Blocked 91 p.marks ∧
      List.Forall₂ (Target.Line.Reads (Parsed statements)) p.lines p.marks) ∧
    (∀ body, fragment statements = .ok body →
      Target.Blocked 91 (Target.Stmt.suiteMarks 0 body) ∧
      List.Forall₂ (Target.Line.Reads (Parsed statements)) (Target.Stmt.suiteLines 0 body)
        (Target.Stmt.suiteMarks 0 body)) := by
  have hbuilt : ∀ s ∈ statements, Parsed statements → Parser.Built (.stmt s) := by
    rintro s hs ⟨_, _, _, h⟩
    exact statementsOf_built h s hs
  refine ⟨fun p hp => ?_, fun body hf => ?_⟩
  · have hfits := (program_fits hbuilt).ok hp
    exact ⟨Target.Program.blocked (by decide) hfits, Target.Program.lines_read hfits⟩
  · have hfits := (fragment_fits hbuilt).ok hf
    exact ⟨.of_suite (Target.Stmt.suiteMarks_suite body hfits),
      Target.Stmt.suiteLines_reads body hfits⟩

/-- `void f(); do { if (x) continue; else if (y) { } else cout; } while (x);` -/
def testedLoop : List Stmt :=
  [.prototype "void" "f" [],
   .doLoop (.name "x")
     (.block [.ifElse (.name "x") .continueLoop
       (some (.ifElse (.name "y") (.block []) (some (.print []))))])]

theorem generated_blocked_testedLoop :
    (∃ p, program testedLoop = .ok p ∧ Target.Blocked 91 p.marks ∧
      List.Forall₂ (Target.Line.Reads (Parsed testedLoop)) p.lines p.marks) ∧
    ∃ body, fragment testedLoop = .ok body ∧
      Target.Stmt.suiteMarks 0 body =
        [⟨0, .definition⟩, ⟨1, .plain⟩, ⟨0, .loop⟩, ⟨1, .branch⟩, ⟨2, .branch⟩, ⟨3, .plain⟩,
         ⟨2, .plain⟩, ⟨1, .further⟩, ⟨2, .plain⟩, ⟨1, .otherwise⟩, ⟨2, .plain⟩, ⟨1, .branch⟩,
         ⟨2, .plain⟩] ∧
      Target.Blocked 91 (Target.Stmt.suiteMarks 0 body) := by
  obtain ⟨p, hp⟩ : ∃ p, program testedLoop = .ok p := ⟨_, rfl⟩
  have hb := (generated_blocked testedLoop).1 p hp
  refine ⟨⟨p, hp, hb⟩, ⟨_, rfl, rfl, ?_⟩⟩
  exact ((generated_blocked testedLoop).2 _ rfl).1

end Generate

end ConsoleCpp

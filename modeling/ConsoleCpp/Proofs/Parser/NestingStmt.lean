/-
How deep the parsed statements nest. A statement pays for its level when it is entered, whatever
its form, so only the late operators of its expressions can take a path down from it beyond the
limit; and as many of them as one likes can be piled up in one expression.
-/
import ConsoleCpp.Proofs.Parser.Nesting
import ConsoleCpp.Proofs.Parser.Views

namespace ConsoleCpp

open Node (Within)

namespace Parser

/-! ## Parts of statements -/

section

variable {ctx : Context} {ts : List Token}

theorem reached_dropWhile {p : Token → Bool} (hp : ∀ t, p t = true → t.kind ≠ .delimiter)
    (σ : Reading) (ts : List Token) : ∃ n σ', Reached σ ts n σ' (ts.dropWhile p) := by
  induction ts generalizing σ with
  | nil => exact ⟨0, σ, .refl _ _⟩
  | cons t rest ih =>
    rw [List.dropWhile_cons]
    split
    · rename_i ht
      obtain ⟨n, σ', h⟩ := ih (σ.after t)
      exact ⟨_, σ', (reached_token (around_after (hp t ht))).trans h⟩
    · exact ⟨0, σ, .refl _ _⟩

theorem reads_typeName (σ : Reading) : Reads σ (fun _ _ _ _ => True) (typeName ts) := by
  have hmod : ∀ t, isModifier t = true → t.kind ≠ .delimiter := by
    intro t h hk
    simp [isModifier, hk] at h
  have hmark : ∀ t, isMark t = true → t.kind ≠ .delimiter := by
    intro t h hk
    simp [isMark, Token.isA, hk] at h
  unfold typeName
  dsimp only
  split
  · trivial
  · rename_i t rest hd
    split
    · rename_i ht
      obtain ⟨n, σ₁, h₁⟩ := reached_dropWhile hmod σ ts
      rw [hd] at h₁
      have hk : t.kind ≠ .delimiter := by
        intro hk
        simp [hk] at ht
      obtain ⟨m, σ₂, h₂⟩ := reached_dropWhile hmark (σ₁.after t) rest
      exact ⟨_, σ₂, (h₁.trans (reached_token (around_after hk))).trans h₂, trivial⟩
    · trivial

/-- An array mark is one pair of brackets. -/
theorem glimpses_arraySuffix (σ : Reading) {type : String} :
    Glimpses σ (fun n _ _ suffix => ∀ size ∈ suffix.2, Within (ctx.room - 1 + n) (.expr size))
      (arraySuffix ctx type ts) := by
  unfold arraySuffix
  split
  · refine consume_bind fun o after h₁ he hok hot => ?_
    subst he
    dsimp only
    split
    · refine consume_bind fun c after h₂ he hck hct => ?_
      subst he
      have hs := (Reached.refl σ.opened (c :: after)).bracketed hok (.inr hot) hck (.inr hct)
      exact ⟨_, σ, hs, nofun⟩
    · refine (expression_nesting ctx 1 σ.opened after rfl).bind fun size after h₂ n σ' hr hf => ?_
      refine consume_bind fun c after h₃ he hck hct => ?_
      subst he
      refine ⟨n, σ, hr.bracketed hok (.inr hot) hck (.inr hct), ?_⟩
      rintro _ ⟨⟩
      exact hf.2
  · exact ⟨0, σ, .refl _ _, nofun⟩

theorem parameters_nesting (ctx : Context) (symbols : SymbolTable) (σ : Reading)
    (ts : List Token) : Reads σ (fun _ _ _ _ => True) (parameters ctx symbols ts) := by
  rw [parameters]
  refine (reads_typeName σ).bind fun type after h₁ n σ₁ hr₁ _ => ?_
  refine (reads_identifier σ₁).bind fun name after h₂ m σ₂ hr₂ _ => ?_
  refine (glimpses_arraySuffix σ₂).bind fun suffix after h₃ k σ₃ hr₃ _ => ?_
  dsimp only
  split
  · refine (reads_consume σ₃ fun _ => rfl).bind fun _ after h₄ l σ₄ hr₄ _ => ?_
    refine (parameters_nesting ctx _ σ₄ after).bind fun _ _ _ i σ' hr _ => ?_
    exact ⟨_, σ', (((hr₁.trans hr₂).trans hr₃).trans hr₄).trans hr, trivial⟩
  · exact ⟨_, σ₃, (hr₁.trans hr₂).trans hr₃, trivial⟩
termination_by ts.length
decreasing_by all_goals decreasing_with omega

theorem reads_parameterList (σ : Reading) {symbols : SymbolTable} :
    Reads σ (fun _ _ _ _ => True) (parameterList ctx symbols ts) := by
  unfold parameterList
  refine consume_bind fun o after h₁ he hok hot => ?_
  subst he
  dsimp only
  split
  · refine consume_bind fun c after h₂ he hck hct => ?_
    subst he
    have hs := (Reached.refl σ.opened (c :: after)).bracketed hok (.inl hot) hck (.inl hct)
    exact ⟨_, σ, hs, trivial⟩
  · refine (parameters_nesting ctx symbols σ.opened after).bind fun _ after h₂ n σ' hr _ => ?_
    refine consume_bind fun c after h₃ he hck hct => ?_
    subst he
    exact ⟨n, σ, hr.bracketed hok (.inl hot) hck (.inl hct), trivial⟩

/-- Expressions of a stream, each of which is bounded. -/
def AllBounded (room : Int) (n : Nat) (_ : Reading) (_ : List Token) (es : List Expr) : Prop :=
  ∀ e ∈ es, Within (room + n) (.expr e)

theorem inputTargets_nesting (ctx : Context) (σ : Reading) (ts : List Token) :
    Glimpses σ (AllBounded ctx.room) (inputTargets ctx ts) := by
  have hb : ctx.streamed.room = ctx.room := rfl
  rw [inputTargets]
  split
  · refine (reads_consume σ fun _ => rfl).bind fun _ after h₁ n σ₁ hr₁ hs => ?_
    refine (expression_nesting ctx.streamed 1 σ₁ after (by rw [hs]; rfl)).bind
      fun target after h₂ m σ₂ hr₂ hf => ?_
    dsimp only
    split
    · refine (inputTargets_nesting ctx σ₂ after).bind fun others _ _ k σ' hr hos => ?_
      refine ⟨_, σ', (hr₁.trans hr₂).trans hr, List.forall_mem_cons.2 ⟨hf.2.mono (by omega), ?_⟩⟩
      exact fun e he => (hos e he).mono (by omega)
    · trivial
  · exact ⟨0, σ, .refl _ _, nofun⟩
termination_by ts.length
decreasing_by all_goals decreasing_with omega

theorem printParts_nesting (ctx : Context) (σ : Reading) (ts : List Token) (h₀ : 0 ≤ ctx.room) :
    Glimpses σ (AllBounded ctx.room) (printParts ctx ts) := by
  have hb : ctx.streamed.room = ctx.room := rfl
  rw [printParts]
  split
  · exact ⟨0, σ, .refl _ _, nofun⟩
  split
  · refine (reads_consume σ fun _ => rfl).bind fun _ after h₁ n σ₁ hr₁ hs => ?_
    refine (expression_nesting ctx.streamed 1 σ₁ after (by rw [hs]; rfl)).bind
      fun part after h₂ m σ₂ hr₂ hf => ?_
    refine (printParts_nesting ctx σ₂ after h₀).bind fun others _ _ k σ' hr hos => ?_
    refine ⟨_, σ', (hr₁.trans hr₂).trans hr, List.forall_mem_cons.2 ⟨hf.2.mono (by omega), ?_⟩⟩
    exact fun e he => (hos e he).mono (by omega)
  split
  · refine (reads_consume σ fun _ => rfl).bind fun _ after h₁ n σ₁ hr₁ hs => ?_
    refine (printParts_nesting ctx σ₁ after h₀).bind fun others _ _ k σ' hr hos => ?_
    refine ⟨_, σ', hr₁.trans hr, List.forall_mem_cons.2 ⟨within_leaf (by omega) rfl rfl, ?_⟩⟩
    exact fun e he => (hos e he).mono (by omega)
  · trivial
termination_by ts.length
decreasing_by all_goals decreasing_with omega

/-- A condition leaves what stands before its parenthesis. -/
theorem reads_condition (σ : Reading) :
    Reads σ (fun n σ' _ e => σ' = σ ∧ Within (ctx.room - 1 + n) (.expr e)) (condition ctx ts) := by
  unfold condition
  refine consume_bind fun o after h₁ he hok hot => ?_
  subst he
  refine (expression_nesting ctx 1 σ.opened after rfl).bind fun cond after h₂ n σ' hr hf => ?_
  refine consume_bind fun c after h₃ he hck hct => ?_
  subst he
  exact ⟨n, σ, hr.bracketed hok (.inl hot) hck (.inl hct), rfl, hf.2⟩

/-- An expression that may be left out, up to the delimiter after it. -/
theorem ends_optionalExpression (σ : Reading) (close : String) (hσ : σ.operand = .other) :
    Ends (fun read => ∃ n σ' c, Reached σ ts n σ' (c :: read.rest) ∧ c.kind = .delimiter ∧
        c.text = close ∧ ∀ e ∈ read.value, Within (ctx.room - 1 + n) (.expr e))
      (fun _ => True) (optionalExpression ctx close ts) := by
  unfold optionalExpression
  split
  · refine consume_bind fun c after h₁ he hck hct => ?_
    subst he
    exact ⟨0, σ, c, .refl _ _, hck, hct, nofun⟩
  · refine (expression_nesting ctx 1 σ ts hσ).bind fun value after h₁ n σ' hr hf => ?_
    refine consume_bind fun c after h₂ he hck hct => ?_
    subst he
    refine ⟨n, σ', c, hr, hck, hct, ?_⟩
    rintro _ ⟨⟩
    exact hf.2

/-! ## Statements without statements inside -/

/-- A statement read with so much room, in which `n` late operators stand, and after which nothing
is left to be continued. -/
def StmtBounded (room : Int) (n : Nat) (σ : Reading) (_ : List Token) (s : Stmt) : Prop :=
  σ.operand = .other ∧ Within (room + n) (.stmt s)

/-- A statement with no statement inside. -/
theorem within_simple {most : Int} {s : Stmt} (h₀ : 0 ≤ most) (hi : (Node.stmt s).inside = [])
    (hb : ∀ child ∈ (Node.stmt s).beside, Within most child) : Within most (.stmt s) :=
  .of h₀ hb (by rw [hi]; nofun)

theorem within_params {most : Int} {params : List Parameter} (h₀ : 0 ≤ most) :
    ∀ child ∈ params.map Node.param, Within most child :=
  List.forall_mem_map.2 fun _ _ => .of h₀ nofun nofun

theorem reads_expressionStatement (σ : Reading) {symbols : SymbolTable} {first : Token}
    (hσ : σ.operand = .other) (h₀ : 0 ≤ ctx.room) :
    Reads σ (StmtBounded ctx.room) (expressionStatement ctx symbols first ts) := by
  have hc : Reads σ (fun n σ' _ e => σ'.operand = .other ∧ Within (ctx.room - 1 + n) (.expr e))
      (checkedExpression ctx symbols ts) := by
    unfold checkedExpression
    refine (expression_nesting ctx 1 σ ts hσ).bind fun e after h₁ n σ₁ hr₁ hf => ?_
    refine .bind_any fun _ => ?_
    refine (reads_consume σ₁ fun _ => rfl).bind fun _ _ _ m σ₂ hr₂ hs => ?_
    exact ⟨_, σ₂, hr₁.trans hr₂, by rw [hs]; rfl, hf.2.mono (by omega)⟩
  unfold expressionStatement
  split
  · trivial
  · rename_i e rest h he
    obtain ⟨n, σ', hr, ho, hw⟩ := hc.ok he
    refine ⟨n, σ', hr, ho, within_simple (by omega) rfl ?_⟩
    exact List.forall_mem_singleton.2 (hw.mono (by omega))

theorem reads_variableRest (σ : Reading) {symbols : SymbolTable} {type name : String}
    (h₀ : 0 ≤ ctx.room) :
    Reads σ (fun n σ' rest made => StmtBounded ctx.room n σ' rest made.1)
      (variableRest ctx symbols type name ts) := by
  unfold variableRest
  refine (glimpses_arraySuffix σ).bind fun suffix after _ n σ₁ hr₁ hz => ?_
  obtain ⟨varType, size⟩ := suffix
  dsimp only at hz ⊢
  split
  · refine (reads_consume σ₁ fun _ => rfl).bind fun _ after _ m σ₂ hr₂ hs₂ => ?_
    refine (expression_nesting ctx 1 σ₂ after (by rw [hs₂]; rfl)).bind
      fun value _ _ k σ₃ hr₃ hf => ?_
    refine (reads_consume σ₃ fun _ => rfl).bind fun _ _ _ l σ₄ hr₄ hs₄ => ?_
    refine ⟨_, σ₄, ((hr₁.trans hr₂).trans hr₃).trans hr₄, by rw [hs₄]; rfl, ?_⟩
    exact within_simple (by omega) rfl (List.forall_mem_singleton.2 (hf.2.mono (by omega)))
  · refine (reads_consume σ₁ fun _ => rfl).bind fun _ after _ m σ₂ hr₂ hs₂ => ?_
    refine ⟨_, σ₂, hr₁.trans hr₂, by rw [hs₂]; rfl, within_simple (by omega) rfl ?_⟩
    cases size with
    | none => nofun
    | some size =>
      -- the array that the declaration makes
      refine List.forall_mem_singleton.2 (within_over rfl rfl ?_)
      exact (hz size rfl).mono (by omega)

theorem reads_usingDirective (σ : Reading) (h₀ : 0 ≤ ctx.room) :
    Reads σ (StmtBounded ctx.room) (usingDirective ts) := by
  unfold usingDirective
  refine (reads_consume σ fun _ => rfl).bind fun _ _ _ n σ₁ hr₁ _ => ?_
  refine (reads_consume σ₁ fun _ => rfl).bind fun _ _ _ m σ₂ hr₂ _ => ?_
  refine (reads_identifier σ₂).bind fun _ _ _ k σ₃ hr₃ _ => ?_
  refine (reads_consume σ₃ fun _ => rfl).bind fun _ _ _ l σ₄ hr₄ hs => ?_
  refine ⟨_, σ₄, ((hr₁.trans hr₂).trans hr₃).trans hr₄, by rw [hs]; rfl, ?_⟩
  exact within_simple (by omega) rfl nofun

theorem reads_inputStatement (σ : Reading) (h₀ : 0 ≤ ctx.room) :
    Reads σ (StmtBounded ctx.room) (inputStatement ctx ts) := by
  unfold inputStatement
  refine (reads_consume σ fun _ => rfl).bind fun _ after _ n σ₁ hr₁ _ => ?_
  refine (inputTargets_nesting ctx σ₁ after).bind fun targets _ _ m σ₂ hr₂ ht => ?_
  refine (reads_consume σ₂ fun _ => rfl).bind fun _ _ _ k σ₃ hr₃ hs => ?_
  refine ⟨_, σ₃, (hr₁.trans hr₂).trans hr₃, by rw [hs]; rfl, within_simple (by omega) rfl ?_⟩
  exact List.forall_mem_map.2 fun e he => (ht e he).mono (by omega)

theorem reads_printStatement (σ : Reading) (h₀ : 0 ≤ ctx.room) :
    Reads σ (StmtBounded ctx.room) (printStatement ctx ts) := by
  unfold printStatement
  refine (reads_consume σ fun _ => rfl).bind fun _ after _ n σ₁ hr₁ _ => ?_
  refine (printParts_nesting ctx σ₁ after h₀).bind fun parts _ _ m σ₂ hr₂ hp => ?_
  refine (reads_consume σ₂ fun _ => rfl).bind fun _ _ _ k σ₃ hr₃ hs => ?_
  refine ⟨_, σ₃, (hr₁.trans hr₂).trans hr₃, by rw [hs]; rfl, within_simple (by omega) rfl ?_⟩
  exact List.forall_mem_map.2 fun e he => (hp e he).mono (by omega)

theorem reads_returnStatement (σ : Reading) (h₀ : 0 ≤ ctx.room) :
    Reads σ (StmtBounded ctx.room) (returnStatement ctx ts) := by
  unfold returnStatement
  refine (reads_consume σ fun _ => rfl).bind fun _ after _ n σ₁ hr₁ hs => ?_
  refine Ends.bind (ends_optionalExpression σ₁ ";" (by rw [hs]; rfl)) ?_
  rintro ⟨value, rest, _⟩ ⟨m, σ₂, ⟨_, _, offset⟩, hr₂, rfl, rfl, hv⟩
  have hc : Reached σ₂ (⟨.delimiter, ";", offset⟩ :: rest) _ σ₂.reset rest := reached_token rfl
  refine ⟨_, σ₂.reset, (hr₁.trans hr₂).trans hc, rfl, within_simple (by omega) rfl ?_⟩
  refine List.forall_mem_map.2 fun e he => (hv e (Option.mem_toList.1 he)).mono (by omega)

theorem reads_bareStatement (σ : Reading) {keyword : String} {s : Stmt}
    (hk : ∀ offset, σ.after ⟨.keyword, keyword, offset⟩ = σ.reset)
    (hb : (Node.stmt s).beside = []) (hi : (Node.stmt s).inside = []) (h₀ : 0 ≤ ctx.room) :
    Reads σ (StmtBounded ctx.room) (bareStatement keyword s ts) := by
  unfold bareStatement
  refine (reads_consume σ hk).bind fun _ _ _ n σ₁ hr₁ _ => ?_
  refine (reads_consume σ₁ fun _ => rfl).bind fun _ _ _ m σ₂ hr₂ hs => ?_
  refine ⟨_, σ₂, hr₁.trans hr₂, by rw [hs]; rfl, within_simple (by omega) hi ?_⟩
  rw [hb]
  nofun

/-- A statement that declares nothing. -/
theorem Reads.keeping {σ : Reading} {symbols : SymbolTable} {room : Int}
    {read : Except CompileError (Read Stmt ts)} (h : Reads σ (StmtBounded room) read) :
    Reads σ (fun n σ' rest made => StmtBounded room n σ' rest made.1) (keeping symbols read) := by
  cases read with
  | error _ => trivial
  | ok read => exact h

end

/-! ## Statements -/

/-- A statement, with the symbols after it, that is bounded. -/
def MadeBounded (room : Int) (n : Nat) (σ : Reading) (rest : List Token) (made : Stmt × SymbolTable) :
    Prop :=
  StmtBounded room n σ rest made.1

/-- Statements, with the symbols after them, each of which is bounded. -/
def BodyBounded (room : Int) (n : Nat) (σ : Reading) (_ : List Token)
    (made : List Stmt × SymbolTable) : Prop :=
  σ.operand = .other ∧ ∀ s ∈ made.1, Within (room - 1 + n) (.stmt s)

mutual

theorem statement_nesting (ctx : Context) (symbols : SymbolTable) (σ : Reading) (ts : List Token)
    (hσ : σ.operand = .other) : Reads σ (MadeBounded (ctx.room - 1)) (statement ctx symbols ts) := by
  match ts with
  | [] =>
    rw [statement]
    trivial
  | t :: rest =>
    rw [statement]
    refine enter_bind fun inner hr h₀ => ?_
    rw [← hr]
    cases hk : t.kind with
    | header =>
      have ht : Reached σ (t :: rest) _ σ.reset rest := reached_reset (by rw [hk]; decide)
      exact ⟨_, _, ht, rfl, within_simple (by omega) rfl nofun⟩
    | keyword =>
      dsimp only
      split
      · exact ifStatement_nesting inner symbols σ (t :: rest)
      · exact whileStatement_nesting inner symbols σ (t :: rest)
      · exact doStatement_nesting inner symbols σ (t :: rest)
      · exact forStatement_nesting inner symbols σ (t :: rest)
      · exact (reads_returnStatement σ h₀).keeping
      · exact (reads_bareStatement σ (fun _ => rfl) rfl rfl h₀).keeping
      · exact (reads_bareStatement σ (fun _ => rfl) rfl rfl h₀).keeping
      · exact (reads_inputStatement σ h₀).keeping
      · exact (reads_printStatement σ h₀).keeping
      · exact (reads_usingDirective σ h₀).keeping
      · split
        · exact declaration_nesting inner symbols σ (t :: rest) h₀
        · trivial
    | delimiter =>
      dsimp only
      split
      · refine (block_nesting inner symbols σ (t :: rest)).bind fun body _ _ n σ' hr hb => ?_
        refine ⟨n, σ', hr, hb.1, .of (by omega) nofun (List.forall_mem_map.2 fun s hs => ?_)⟩
        exact (hb.2 s hs).mono (by omega)
      · exact (reads_expressionStatement σ hσ h₀).keeping
    | _ => exact (reads_expressionStatement σ hσ h₀).keeping
termination_by (ts.length, 2)
decreasing_by all_goals decreasing_with omega

theorem declaration_nesting (ctx : Context) (symbols : SymbolTable) (σ : Reading)
    (ts : List Token) (h₀ : 0 ≤ ctx.room) :
    Reads σ (MadeBounded ctx.room) (declaration ctx symbols ts) := by
  rw [declaration]
  refine (reads_typeName σ).bind fun type after h₁ n σ₁ hr₁ _ => ?_
  refine (reads_identifier σ₁).bind fun name after h₂ m σ₂ hr₂ _ => ?_
  dsimp only
  split
  · refine (reads_parameterList σ₂).bind fun made after h₃ k σ₃ hr₃ _ => ?_
    have hr := (hr₁.trans hr₂).trans hr₃
    dsimp only
    split
    · refine (block_nesting ctx made.2 σ₃ after).bind fun body after h₄ l σ₄ hr₄ hb => ?_
      refine ⟨_, σ₄, hr.trans hr₄, hb.1, .of (by omega) (within_params (by omega)) ?_⟩
      exact List.forall_mem_map.2 fun s hs => (hb.2 s hs).mono (by omega)
    · refine (reads_consume σ₃ fun _ => rfl).bind fun _ _ _ l σ₄ hr₄ hs => ?_
      refine ⟨_, σ₄, hr.trans hr₄, by rw [hs]; rfl, ?_⟩
      exact within_simple (by omega) rfl (within_params (by omega))
  · refine (reads_variableRest σ₂ h₀).bind fun made _ _ k σ₃ hr₃ hm => ?_
    exact ⟨_, σ₃, (hr₁.trans hr₂).trans hr₃, hm.1, hm.2.mono (by omega)⟩
termination_by (ts.length, 1)
decreasing_by all_goals decreasing_with omega

theorem block_nesting (ctx : Context) (symbols : SymbolTable) (σ : Reading) (ts : List Token) :
    Reads σ (BodyBounded ctx.room) (block ctx symbols ts) := by
  rw [block]
  refine (reads_consume σ fun _ => rfl).bind fun _ after h₁ n σ₁ hr₁ hs₁ => ?_
  refine (blockBody_nesting ctx symbols σ₁ after (by rw [hs₁]; rfl)).bind
    fun body _ _ m σ₂ hr₂ hb => ?_
  refine (reads_consume σ₂ fun _ => rfl).bind fun _ _ _ k σ₃ hr₃ hs₃ => ?_
  refine ⟨_, σ₃, (hr₁.trans hr₂).trans hr₃, by rw [hs₃]; rfl, fun s hs => ?_⟩
  exact (hb.2 s hs).mono (by omega)
termination_by (ts.length, 0)
decreasing_by all_goals decreasing_with omega

theorem blockBody_nesting (ctx : Context) (symbols : SymbolTable) (σ : Reading) (ts : List Token)
    (hσ : σ.operand = .other) : Glimpses σ (BodyBounded ctx.room) (blockBody ctx symbols ts) := by
  rw [blockBody]
  split
  · exact ⟨0, σ, .refl _ _, hσ, nofun⟩
  · refine (statement_nesting ctx symbols σ ts hσ).bind fun first after h₁ n σ₁ hr₁ hf => ?_
    refine (blockBody_nesting ctx first.2 σ₁ after hf.1).bind fun others _ _ m σ₂ hr₂ ho => ?_
    refine ⟨_, σ₂, hr₁.trans hr₂, ho.1, List.forall_mem_cons.2 ⟨hf.2.mono (by omega), ?_⟩⟩
    exact fun s hs => (ho.2 s hs).mono (by omega)
termination_by (ts.length, 3)
decreasing_by all_goals decreasing_with omega

theorem ifStatement_nesting (ctx : Context) (symbols : SymbolTable) (σ : Reading)
    (ts : List Token) : Reads σ (MadeBounded ctx.room) (ifStatement ctx symbols ts) := by
  rw [ifStatement]
  refine (reads_consume σ fun _ => rfl).bind fun _ after h₁ n σ₁ hr₁ hs₁ => ?_
  refine (reads_condition σ₁).bind fun cond after h₂ m σ₂ hr₂ hc => ?_
  obtain ⟨rfl, hc⟩ := hc
  refine (statement_nesting ctx symbols σ₂ after (by rw [hs₁]; rfl)).bind
    fun made after h₃ k σ₃ hr₃ ht => ?_
  have hr := (hr₁.trans hr₂).trans hr₃
  have h₀ := hc.nonneg
  dsimp only
  split
  · refine (reads_consume σ₃ fun _ => rfl).bind fun _ after h₄ l σ₄ hr₄ hs₄ => ?_
    refine (statement_nesting ctx made.2 σ₄ after (by rw [hs₄]; rfl)).bind
      fun other _ _ i σ₅ hr₅ he => ?_
    refine ⟨_, σ₅, (hr.trans hr₄).trans hr₅, he.1, .of (by omega) ?_ ?_⟩
    · exact List.forall_mem_singleton.2 (hc.mono (by omega))
    · refine List.forall_mem_cons.2 ⟨ht.2.mono (by omega), ?_⟩
      exact List.forall_mem_singleton.2 (he.2.mono (by omega))
  · refine ⟨_, σ₃, hr, ht.1, .of (by omega) ?_ ?_⟩
    · exact List.forall_mem_singleton.2 (hc.mono (by omega))
    · exact List.forall_mem_singleton.2 (ht.2.mono (by omega))
termination_by (ts.length, 0)
decreasing_by all_goals decreasing_with omega

theorem whileStatement_nesting (ctx : Context) (symbols : SymbolTable) (σ : Reading)
    (ts : List Token) : Reads σ (MadeBounded ctx.room) (whileStatement ctx symbols ts) := by
  rw [whileStatement]
  refine (reads_consume σ fun _ => rfl).bind fun _ after h₁ n σ₁ hr₁ hs₁ => ?_
  refine (reads_condition σ₁).bind fun cond after h₂ m σ₂ hr₂ hc => ?_
  obtain ⟨rfl, hc⟩ := hc
  refine (statement_nesting ctx symbols σ₂ after (by rw [hs₁]; rfl)).bind
    fun made _ _ k σ₃ hr₃ hb => ?_
  have h₀ := hc.nonneg
  refine ⟨_, σ₃, (hr₁.trans hr₂).trans hr₃, hb.1, .of (by omega) ?_ ?_⟩
  · exact List.forall_mem_singleton.2 (hc.mono (by omega))
  · exact List.forall_mem_singleton.2 (hb.2.mono (by omega))
termination_by (ts.length, 0)
decreasing_by all_goals decreasing_with omega

theorem doStatement_nesting (ctx : Context) (symbols : SymbolTable) (σ : Reading)
    (ts : List Token) : Reads σ (MadeBounded ctx.room) (doStatement ctx symbols ts) := by
  rw [doStatement]
  refine (reads_consume σ fun _ => rfl).bind fun _ after h₁ n σ₁ hr₁ hs₁ => ?_
  refine (statement_nesting ctx symbols σ₁ after (by rw [hs₁]; rfl)).bind
    fun made after _ m σ₂ hr₂ hb => ?_
  refine (reads_consume σ₂ fun _ => rfl).bind fun _ after _ k σ₃ hr₃ _ => ?_
  refine (reads_condition σ₃).bind fun cond _ _ l σ₄ hr₄ hc => ?_
  refine (reads_consume σ₄ fun _ => rfl).bind fun _ _ _ i σ₅ hr₅ hs₅ => ?_
  have hr := ((hr₁.trans hr₂).trans hr₃).trans hr₄
  have h₀ := hc.2.nonneg
  refine ⟨_, σ₅, hr.trans hr₅, by rw [hs₅]; rfl, .of (by omega) ?_ ?_⟩
  · exact List.forall_mem_singleton.2 (hc.2.mono (by omega))
  · exact List.forall_mem_singleton.2 (hb.2.mono (by omega))
termination_by (ts.length, 0)
decreasing_by all_goals decreasing_with omega

/-- The parenthesis after `for` holds a statement and up to two expressions, the second of which
reaches to the closing one. -/
theorem forStatement_nesting (ctx : Context) (symbols : SymbolTable) (σ : Reading)
    (ts : List Token) : Reads σ (MadeBounded ctx.room) (forStatement ctx symbols ts) := by
  rw [forStatement]
  refine (reads_consume σ fun _ => rfl).bind fun _ after h₁ n σ₁ hr₁ hs₁ => ?_
  refine consume_bind fun o after h₂ he hok hot => ?_
  subst he
  refine (forInit_nesting ctx symbols σ₁.opened after rfl).bind fun init after h₃ m σ₂ hr₂ hi => ?_
  refine Ends.bind (ends_optionalExpression σ₂ ";" hi.1) ?_
  rintro ⟨cond, after, h₄⟩ ⟨k, σ₃, ⟨_, _, offset⟩, hr₃, rfl, rfl, hc⟩
  have hs : Reached σ₃ (⟨.delimiter, ";", offset⟩ :: after) _ σ₃.reset after := reached_token rfl
  refine Ends.bind (ends_optionalExpression σ₃.reset ")" rfl) ?_
  rintro ⟨update, after, h₅⟩ ⟨l, σ₄, c, hr₄, hck, hct, hu⟩
  -- all between the parentheses is read on its own, and from outside they are one closed part
  have hin := ((hr₂.trans hr₃).trans hs).trans hr₄
  have hr := hr₁.trans (hin.bracketed hok (.inl hot) hck (.inl hct))
  refine (statement_nesting ctx init.2 σ₁ after (by rw [hs₁]; rfl)).bind
    fun made _ _ i σ₅ hr₅ hb => ?_
  have h₀ := hb.2.nonneg
  refine ⟨_, σ₅, hr.trans hr₅, hb.1, .of (by omega) ?_ ?_⟩
  · refine List.forall_mem_cons.2 ⟨?_, List.forall_mem_map.2 fun e he => ?_⟩
    · cases cond with
      | none => exact within_leaf (by omega) rfl rfl
      | some e => exact (hc e rfl).mono (by omega)
    · exact (hu e (Option.mem_toList.1 he)).mono (by omega)
  · refine List.forall_mem_cons.2 ⟨hb.2.mono (by omega), List.forall_mem_map.2 fun s hs => ?_⟩
    exact (hi.2 s (Option.mem_toList.1 hs)).mono (by omega)
termination_by (ts.length, 0)
decreasing_by all_goals decreasing_with omega

theorem forInit_nesting (ctx : Context) (symbols : SymbolTable) (σ : Reading) (ts : List Token)
    (hσ : σ.operand = .other) :
    Reads σ (fun n σ' _ made => σ'.operand = .other ∧
        ∀ s ∈ made.1, Within (ctx.room - 1 + n) (.stmt s))
      (forInit ctx symbols ts) := by
  rw [forInit]
  split
  · refine (reads_consume σ fun _ => rfl).bind fun _ _ _ n σ' hr hs => ?_
    exact ⟨n, σ', hr, by rw [hs]; rfl, nofun⟩
  · refine (statement_nesting ctx symbols σ ts hσ).bind fun made _ _ n σ' hr hf => ?_
    refine ⟨n, σ', hr, hf.1, ?_⟩
    rintro _ ⟨⟩
    exact hf.2
termination_by (ts.length, 3)
decreasing_by all_goals decreasing_with omega

end

/-! ## Programs -/

theorem programFrom_nesting (ctx : Context) (symbols : SymbolTable) (σ : Reading)
    (ts : List Token) (hσ : σ.operand = .other) :
    Ends (fun made => ∀ s ∈ made.1, Within (ctx.room - 1 + σ.lateFrom ts) (.stmt s))
      (fun _ => True) (programFrom ctx symbols ts) := by
  rw [programFrom]
  split
  · exact nofun
  · refine (statement_nesting ctx symbols σ ts hσ).bind fun first after h₁ n σ₁ hr hf => ?_
    refine .bind (programFrom_nesting ctx first.2 σ₁ after hf.1) fun others ho => ?_
    have hp := hr.passed
    refine List.forall_mem_cons.2 ⟨hf.2.mono (by omega), fun s hs => ?_⟩
    exact (ho s hs).mono (by omega)
termination_by ts.length
decreasing_by all_goals decreasing_with omega

/-! ## A tower of late assignments -/

/-- The tokens of `(b) = (b) = … = 1;` with `n` assignments. -/
def tower : Nat → List Token
  | 0 => [⟨.number, "1", 0⟩, ⟨.delimiter, ";", 0⟩]
  | n + 1 => ⟨.delimiter, "(", 0⟩ :: ⟨.identifier, "b", 0⟩ :: ⟨.delimiter, ")", 0⟩ ::
      ⟨.operator, "=", 0⟩ :: tower n

/-- What the parser makes of them. -/
def towerExpr : Nat → Expr
  | 0 => .number "1"
  | n + 1 => .assign .set (.name "b") (towerExpr n)

theorem glimpsed_climb_delimiter {ctx : Context} {floor : Int} {left : Expr} {t : Token}
    {rest : List Token} (h : t.kind = .delimiter) :
    glimpsed (climb ctx floor left (t :: rest)) = .ok (left, t :: rest) := by
  have hl : link? ctx.inStream t = none := by rw [link?, h]
  rw [glimpsed_climb_cons, hl]

theorem seen_primary_of_depth {ctx : Context} {t : Token} {rest : List Token}
    (h : (ctx.depth + 1 : Nat) ≤ ctx.maxDepth) :
    seen (primary ctx (t :: rest)) = operand { ctx with depth := ctx.depth + 1 } t rest := by
  rw [seen_primary_cons, Context.enter_ok h]
  rfl

/-- The climbing loop takes each assignment without going deeper. -/
theorem expression_tower {ctx : Context} (h : (ctx.depth + 2 : Nat) ≤ ctx.maxDepth) (n : Nat) :
    seen (expression ctx 0 (tower n)) = .ok (towerExpr n, [⟨.delimiter, ";", 0⟩]) := by
  have hd : (ctx.depth + 1 : Nat) ≤ ctx.maxDepth := by omega
  induction n with
  | zero =>
    rw [tower, seen_expression, seen_primary_of_depth hd]
    exact glimpsed_climb_delimiter rfl
  | succ n ih =>
    have hv : ∀ rest, seen (primary { ctx with depth := ctx.depth + 1, inStream := false }
        (⟨.identifier, "b", 0⟩ :: ⟨.delimiter, ")", 0⟩ :: rest)) =
          .ok (.name "b", ⟨.delimiter, ")", 0⟩ :: rest) := by
      intro rest
      rw [seen_primary_of_depth h, operand_identifier rfl, glimpsed_variableOperand,
        glimpsed_chain_cons]
      rfl
    have hb : seen (primary ctx (tower (n + 1))) =
        .ok (.name "b", ⟨.operator, "=", 0⟩ :: tower n) := by
      rw [tower, seen_primary_of_depth hd, operand_paren rfl, enclosed, seen_expression]
      simp only [Context.bracketed, hv, bind, Except.bind, glimpsed_climb_delimiter]
      rfl
    have hl : link? ctx.inStream ⟨.operator, "=", 0⟩ = some (.assign .set) := rfl
    rw [seen_expression, hb]
    simp only [bind, Except.bind, glimpsed_climb_cons, hl, joined, ih, towerExpr]
    exact glimpsed_climb_delimiter rfl

/-- The tokens of `a += (b) = (b) = … = 1;` with `n` late assignments. -/
def towerTokens (n : Nat) : List Token := ⟨.identifier, "a", 0⟩ :: ⟨.operator, "+=", 0⟩ :: tower n

/-- What the parser makes of them. -/
def towerStmt (n : Nat) : Stmt := .expression (.assign (.update .add) (.name "a") (towerExpr n))

theorem expression_towerTokens {d : Int} (h : 4 ≤ d) (n : Nat) :
    seen (expression ⟨d, 1, false⟩ 1 (towerTokens n)) =
      .ok (.assign (.update .add) (.name "a") (towerExpr n), [⟨.delimiter, ";", 0⟩]) := by
  have hv : seen (expression ⟨d, 2, false⟩ 0 (tower n)) = _ := expression_tower h n
  have ho : stored ⟨d, 2, false⟩ (.name "a") (⟨.operator, "+=", 0⟩ :: tower n) =
      .ok (.assign (.update .add) (.name "a") (towerExpr n), [⟨.delimiter, ";", 0⟩]) := by
    change (seen (expression ⟨d, 2, false⟩ 0 (tower n)) >>= _) = _
    rw [hv]
    rfl
  have h₂ : (2 : Int) ≤ d := by omega
  rw [towerTokens, seen_expression, seen_primary_of_depth h₂, operand_identifier rfl,
    glimpsed_variableOperand_operator rfl rfl, ho]
  exact glimpsed_climb_delimiter rfl

theorem program_tower {d : Int} (h : 4 ≤ d) (n : Nat) :
    program d (towerTokens n) = .ok ([towerStmt n], .empty) := by
  obtain ⟨hs, he⟩ := ok_of_seen (expression_towerTokens h n)
  have hc : checkedExpression ⟨d, 1, false⟩ .empty (towerTokens n) =
      .ok ⟨.assign (.update .add) (.name "a") (towerExpr n), [], by simp [towerTokens]⟩ := by
    rw [checkedExpression, he]
    rfl
  have hst : statement (.start d) .empty (towerTokens n) =
      .ok ⟨(towerStmt n, .empty), [], by simp [towerTokens]⟩ := by
    have h₁ : (1 : Int) ≤ d := by omega
    change statement _ _ (⟨.identifier, "a", 0⟩ :: ⟨.operator, "+=", 0⟩ :: tower n) = _
    rw [statement, Context.enter_ok h₁]
    change keeping .empty (expressionStatement ⟨d, 1, false⟩ .empty _ (towerTokens n)) = _
    rw [expressionStatement, hc]
    rfl
  rw [program, programFrom, if_neg (by simp [towerTokens]), hst]
  change (programFrom (.start d) .empty [] >>= _) = _
  rw [programFrom]
  rfl

theorem path_towerExpr (n : Nat) : Node.Path (.expr (towerExpr n)) n := by
  induction n with
  | zero => exact .here _
  | succ n ih => exact .inside List.mem_cons_self ih

theorem lateFrom_tower (σ : Reading) (n : Nat) (h : σ.operand = .other) : σ.lateFrom (tower n) = n := by
  induction n generalizing σ with
  | zero => rfl
  | succ n ih =>
    have hv : Reached σ.opened
        (⟨.identifier, "b", 0⟩ :: ⟨.delimiter, ")", 0⟩ :: ⟨.operator, "=", 0⟩ :: tower n) 0
        ⟨.named, σ.operand :: σ.around⟩
        (⟨.delimiter, ")", 0⟩ :: ⟨.operator, "=", 0⟩ :: tower n) := reached_token rfl
    have hb : Reached σ (tower (n + 1)) 0 σ (⟨.operator, "=", 0⟩ :: tower n) :=
      hv.bracketed rfl (.inl rfl) rfl (.inl rfl)
    have hl : σ.late ⟨.operator, "=", 0⟩ = true := by
      rw [Reading.late, h]
      rfl
    -- what stands in parentheses counts for nothing, and the operator behind them is late
    rw [hb.passed, Reading.lateFrom, hl]
    change 0 + (1 + σ.reset.lateFrom (tower n)) = _
    rw [ih σ.reset rfl]
    omega

theorem lateOperators_tower (n : Nat) : lateOperators (towerTokens n) = n := by
  change 0 + (0 + Reading.lateFrom ⟨.other, []⟩ (tower n)) = n
  rw [lateFrom_tower _ n rfl, Nat.zero_add, Nat.zero_add]

/-- A path down from a statement of a parsed program has fewer nesting steps than the limit and the
late operators of the program together, so without late operators it stays below the limit. With
them it need not: at every limit from four on there are programs with any number of late operators
and a path of more nesting steps than that. -/
theorem steps_of_program (d : Int) :
    (∀ (ts : List Token) (statements : List Stmt) (symbols : SymbolTable),
      program d ts = .ok (statements, symbols) → ∀ s ∈ statements, ∀ steps,
        Node.Path (.stmt s) steps → (steps : Int) < d + lateOperators ts) ∧
    (4 ≤ d → ∀ n, ∃ ts s, program d ts = .ok ([s], .empty) ∧ lateOperators ts = n ∧
      Node.Path (.stmt s) (n + 1)) := by
  refine ⟨?_, fun hd n => ?_⟩
  · intro ts statements symbols h s hs steps path
    have hw := (programFrom_nesting (.start d) .empty ⟨.other, []⟩ ts rfl).ok h s hs steps path
    simp only [Context.room, Context.start] at hw
    rw [lateOperators]
    omega
  · refine ⟨towerTokens n, towerStmt n, program_tower hd n, lateOperators_tower n, ?_⟩
    exact .beside List.mem_cons_self (.inside List.mem_cons_self (path_towerExpr n))

/-- The limit of four levels, passed by `a += (b) = (b) = (b) = (b) = (b) = 1;` -/
theorem steps_of_program_fiveAssigned :
    program 4 (towerTokens 5) = .ok ([towerStmt 5], .empty) ∧ lateOperators (towerTokens 5) = 5 ∧
    Node.Path (.stmt (towerStmt 5)) 6 ∧
    ∀ steps, Node.Path (.stmt (towerStmt 5)) steps → (steps : Int) < 9 := by
  have hp : program 4 (towerTokens 5) = .ok ([towerStmt 5], .empty) := program_tower (by decide) 5
  have hl : lateOperators (towerTokens 5) = 5 := lateOperators_tower 5
  refine ⟨hp, hl, ?_, fun steps path => ?_⟩
  · exact .beside List.mem_cons_self (.inside List.mem_cons_self (path_towerExpr 5))
  · have := (steps_of_program 4).1 _ _ _ hp _ List.mem_cons_self steps path
    rwa [hl] at this

end Parser

end ConsoleCpp

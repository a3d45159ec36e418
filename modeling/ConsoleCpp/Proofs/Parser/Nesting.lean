/-
How deep the parsed trees nest. Statements and operands pay for a level of nesting when they are
entered, and so do the assignments and chains that follow a variable, as parts of its operand. The
loop that joins operands pays for nothing: an assignment to something in brackets, or a chain on a
member of it, is a level for free. `lateOperators` counts the operators that this concerns by a scan
of the tokens, with no parser at hand; a path down a parsed tree has fewer nesting steps than the
limit and this count together.
-/
import ConsoleCpp.Parser.Statement
import ConsoleCpp.Proofs.Outcome
import ConsoleCpp.Source.Walk

namespace ConsoleCpp

/-! ## Paths down a tree -/

namespace Node

/-- The nodes directly below that do not nest deeper. -/
def beside : Node → List Node
  | .expr (.stepAfter _ operand) => [.expr operand]
  | .expr (.binary _ left right) | .expr (.scope left right) => [.expr left, .expr right]
  | .expr (.assign _ target _) | .expr (.call target _) | .expr (.member _ target _)
  | .expr (.index target _) => [.expr target]
  | .expr _ => []
  | .param _ => []
  | .stmt (.declaration _ _ value) | .stmt (.ret value) => value.toList.map .expr
  | .stmt (.prototype _ _ params) | .stmt (.function _ _ params _) => params.map .param
  | .stmt (.input parts) | .stmt (.print parts) => parts.map .expr
  | .stmt (.ifElse condition _ _) | .stmt (.whileLoop condition _)
  | .stmt (.doLoop condition _) => [.expr condition]
  | .stmt (.forLoop _ condition update _) => .expr condition :: update.toList.map .expr
  | .stmt (.expression e) => [.expr e]
  | .stmt _ => []

/-- The nodes directly below that nest one level deeper. -/
def inside : Node → List Node
  | .expr (.unary _ inner) | .expr (.assign _ _ inner) | .expr (.index _ inner)
  | .expr (.list inner) | .expr (.newArray _ inner) => [.expr inner]
  | .expr (.call _ args) => args.map .expr
  | .expr _ => []
  | .param _ => []
  | .stmt (.function _ _ _ body) | .stmt (.block body) => body.map .stmt
  | .stmt (.ifElse _ thenStmt elseStmt) => .stmt thenStmt :: elseStmt.toList.map .stmt
  | .stmt (.whileLoop _ body) | .stmt (.doLoop _ body) => [.stmt body]
  | .stmt (.forLoop init _ _ body) => .stmt body :: init.toList.map .stmt
  | .stmt _ => []

/-- A path down from the node has this many nesting steps. -/
inductive Path : Node → Nat → Prop where
  | here (node : Node) : Path node 0
  | beside {node child : Node} {steps : Nat} (h : child ∈ node.beside) (path : Path child steps) :
    Path node steps
  | inside {node child : Node} {steps : Nat} (h : child ∈ node.inside) (path : Path child steps) :
    Path node (steps + 1)

/-- No path down from the node has more nesting steps than `most`. -/
def Within (most : Int) (node : Node) : Prop := ∀ steps, Path node steps → (steps : Int) ≤ most

theorem Within.of {most : Int} {node : Node} (h : 0 ≤ most)
    (hb : ∀ child ∈ node.beside, Within most child)
    (hi : ∀ child ∈ node.inside, Within (most - 1) child) : Within most node := by
  intro steps path
  cases path with
  | here => exact h
  | beside hc path => exact hb _ hc _ path
  | inside hc path =>
    have := hi _ hc _ path
    omega

theorem Within.mono {most more : Int} {node : Node} (h : Within most node) (hm : most ≤ more) :
    Within more node :=
  fun steps path => Int.le_trans (h steps path) hm

theorem Within.nonneg {most : Int} {node : Node} (h : Within most node) : 0 ≤ most := h 0 (.here node)

end Node

open Node (Within)

namespace Parser

/-! ## Late operators -/

/-- What the tokens before a point leave to be continued: a variable with its chain, the word `new`,
or anything else. -/
inductive Preceding where
  | named
  | created
  | other
deriving DecidableEq, Repr

/-- What stands before a point of the input, and before each bracket that is open there. -/
structure Reading where
  operand : Preceding
  around : List Preceding

/-- Whether the token takes a member or assigns. -/
def joins (t : Token) : Bool :=
  match link? false t with
  | some (.member _) | some (.assign _) => true
  | _ => false

namespace Reading

/-- The same brackets, with nothing to be continued. -/
def reset (σ : Reading) : Reading := ⟨.other, σ.around⟩

/-- Inside a bracket that opens here. -/
def opened (σ : Reading) : Reading := ⟨.other, σ.operand :: σ.around⟩

/-- After the bracket that is open here. -/
def closed (σ : Reading) : Reading := ⟨σ.around.headD .other, σ.around.tail⟩

/-- One token on. The word after `new` is no variable. -/
def after (σ : Reading) (t : Token) : Reading :=
  match t.kind with
  | .identifier => ⟨if σ.operand = .created then .other else .named, σ.around⟩
  | .keyword => ⟨if t.text == "new" then .created else .other, σ.around⟩
  | .delimiter =>
    if t.text == "(" || t.text == "[" then σ.opened
    else if t.text == ")" || t.text == "]" then σ.closed
    else σ.reset
  | _ => σ.reset

/-- Whether the token takes a member of, or assigns to, something else than a variable with its
chain. -/
def late (σ : Reading) (t : Token) : Bool :=
  joins t && !(σ.operand == .named && t.kind == .operator)

/-- The number of late operators from a point on. -/
def lateFrom (σ : Reading) : List Token → Nat
  | [] => 0
  | t :: rest => (σ.late t).toNat + (σ.after t).lateFrom rest

end Reading

open Reading (lateFrom)

/-- The number of member and assignment operators that do not follow a variable with its chain. -/
def lateOperators (ts : List Token) : Nat := lateFrom ⟨.other, []⟩ ts

/-- From `ts`, read as `σ` says, to `rest`, read as `σ'` says, there are `n` late operators, and
every bracket opened in between is closed. -/
structure Reached (σ : Reading) (ts : List Token) (n : Nat) (σ' : Reading) (rest : List Token) :
    Prop where
  passed : lateFrom σ ts = n + lateFrom σ' rest
  around : σ'.around = σ.around

section

variable {σ σ' σ'' : Reading} {ts rest end' : List Token} {m n : Nat} {t : Token}

theorem Reached.refl (σ : Reading) (ts : List Token) : Reached σ ts 0 σ ts :=
  ⟨(Nat.zero_add _).symm, rfl⟩

theorem Reached.trans (h : Reached σ ts m σ' rest) (h' : Reached σ' rest n σ'' end') :
    Reached σ ts (m + n) σ'' end' :=
  ⟨by rw [h.passed, h'.passed, Nat.add_assoc], h'.around.trans h.around⟩

/-- A token that is no bracket. -/
theorem reached_token (h : (σ.after t).around = σ.around) :
    Reached σ (t :: rest) (σ.late t).toNat (σ.after t) rest :=
  ⟨rfl, h⟩

theorem late_of_joins (h : joins t = false) : σ.late t = false := by
  rw [Reading.late, h, Bool.false_and]

theorem joins_of_kind (h : t.kind ≠ .operator) (h₁ : t.kind ≠ .stream) (h₂ : t.kind ≠ .scope) :
    joins t = false := by
  unfold joins link?
  cases hk : t.kind <;> first | rfl | contradiction

theorem joins_operator (hk : t.kind = .operator) (hm : MemberOp.ofText? t.text = none)
    (ha : AssignOp.ofText? t.text = none) : joins t = false := by
  simp only [joins, link?, hk, Link.ofText?, hm, ha]
  cases BinaryOp.ofText? t.text with
  | some op => rfl
  | none =>
    dsimp only
    split <;> simp_all

theorem around_after (h : t.kind ≠ .delimiter) : (σ.after t).around = σ.around := by
  unfold Reading.after
  cases hk : t.kind <;> first | rfl | contradiction

/-- What stands between brackets, from the opening bracket to the closing one, leaves what stands
before it to be continued. -/
theorem Reached.bracketed {c : Token} (ho : t.kind = .delimiter) (ho' : t.text = "(" ∨ t.text = "[")
    (hc : c.kind = .delimiter) (hc' : c.text = ")" ∨ c.text = "]")
    (h : Reached σ.opened ts n σ' (c :: rest)) : Reached σ (t :: ts) n σ rest := by
  have hjo : joins t = false := joins_of_kind (by simp [ho]) (by simp [ho]) (by simp [ho])
  have hjc : joins c = false := joins_of_kind (by simp [hc]) (by simp [hc]) (by simp [hc])
  have hso : σ.after t = σ.opened := by
    unfold Reading.after
    rw [ho]
    rcases ho' with ht | ht <;> simp [ht]
  have hsc : σ'.after c = σ := by
    unfold Reading.after
    rw [hc]
    rcases hc' with ht | ht <;> simp [ht, Reading.closed, h.around, Reading.opened]
  refine ⟨?_, rfl⟩
  have hp := h.passed
  rw [lateFrom, late_of_joins hjc, hsc] at hp
  rw [lateFrom, late_of_joins hjo, hso, hp]
  simp

end

/-- What was read is fine, for the late operators passed and for what stands before the rest. -/
def Reads {α : Type} {ts : List Token} (σ : Reading)
    (fine : Nat → Reading → List Token → α → Prop) (result : Except CompileError (Read α ts)) :
    Prop :=
  Ends (fun read => ∃ n σ', Reached σ ts n σ' read.rest ∧ fine n σ' read.rest read.value)
    (fun _ => True) result

/-- The same for what may be nothing. -/
def Glimpses {α : Type} {ts : List Token} (σ : Reading)
    (fine : Nat → Reading → List Token → α → Prop) (result : Except CompileError (Peek α ts)) :
    Prop :=
  Ends (fun read => ∃ n σ', Reached σ ts n σ' read.rest ∧ fine n σ' read.rest read.value)
    (fun _ => True) result

section

variable {α β : Type} {σ : Reading} {ts : List Token}
  {fine : Nat → Reading → List Token → α → Prop} {good : β → Prop}

theorem Reads.bind {first : Except CompileError (Read α ts)}
    {next : Read α ts → Except CompileError β} (hf : Reads σ fine first)
    (hn : ∀ value rest shorter n σ', Reached σ ts n σ' rest → fine n σ' rest value →
      Ends good (fun _ => True) (next ⟨value, rest, shorter⟩)) :
    Ends good (fun _ => True) (first >>= next) :=
  Ends.bind hf fun ⟨value, rest, shorter⟩ ⟨n, σ', h, hv⟩ => hn value rest shorter n σ' h hv

theorem Glimpses.bind {first : Except CompileError (Peek α ts)}
    {next : Peek α ts → Except CompileError β} (hf : Glimpses σ fine first)
    (hn : ∀ value rest notLonger n σ', Reached σ ts n σ' rest → fine n σ' rest value →
      Ends good (fun _ => True) (next ⟨value, rest, notLonger⟩)) :
    Ends good (fun _ => True) (first >>= next) :=
  Ends.bind hf fun ⟨value, rest, notLonger⟩ ⟨n, σ', h, hv⟩ => hn value rest notLonger n σ' h hv

/-- What is read from a later point on is read from here on. -/
theorem Glimpses.onward {σ₁ : Reading} {rest : List Token} {m k : Nat}
    {first : Except CompileError (Peek α rest)}
    {next : Peek α rest → Except CompileError (Peek α ts)}
    (hf : Glimpses σ₁ (fun n => fine (m + k + n)) first) (hr : Reached σ ts k σ₁ rest)
    (hn : ∀ value after h, ∃ h', next ⟨value, after, h⟩ = .ok ⟨value, after, h'⟩) :
    Glimpses σ (fun n => fine (m + n)) (first >>= next) := by
  refine hf.bind fun value after h n σ' hr' hv => ?_
  obtain ⟨h', he⟩ := hn value after h
  rw [he]
  rw [Nat.add_assoc] at hv
  exact ⟨k + n, σ', hr.trans hr', hv⟩

/-! ## Single tokens -/

/-- A token of a fixed kind and text is where the rest starts. -/
theorem consume_bind {kind : Token.Kind} {text : String}
    {next : Read Token ts → Except CompileError β}
    (hn : ∀ t rest shorter, ts = t :: rest → t.kind = kind → t.text = text →
      Ends good (fun _ => True) (next ⟨t, rest, shorter⟩)) :
    Ends good (fun _ => True) (consume kind text ts >>= next) := by
  unfold consume
  cases ts with
  | nil => trivial
  | cons t rest =>
    dsimp only
    split
    · rename_i h
      rw [Token.isA, Bool.and_eq_true, beq_iff_eq, beq_iff_eq] at h
      exact hn t rest _ rfl h.1 h.2
    · trivial

/-- A token after which nothing is left to be continued. -/
theorem reads_consume (σ : Reading) {kind : Token.Kind} {text : String}
    (h : ∀ offset, σ.after ⟨kind, text, offset⟩ = σ.reset) :
    Reads σ (fun _ σ' _ _ => σ' = σ.reset) (consume kind text ts) := by
  rw [Reads, ← bind_pure (consume kind text ts)]
  refine consume_bind ?_
  rintro ⟨_, _, offset⟩ rest shorter rfl rfl rfl
  exact ⟨_, _, reached_token (by rw [h offset]; rfl), h offset⟩

theorem reads_identifier (σ : Reading) :
    Reads σ (fun _ σ' _ _ => σ.operand ≠ .created → σ'.operand = .named)
      (consumeKind .identifier ts) := by
  unfold consumeKind
  cases ts with
  | nil => trivial
  | cons t rest =>
    dsimp only
    split
    · rename_i hk
      rw [beq_iff_eq] at hk
      refine ⟨_, _, reached_token ?_, fun hc => ?_⟩
      · rw [Reading.after, hk]
      · rw [Reading.after, hk]
        exact if_neg hc
    · trivial

/-- The type after `new` is no variable. -/
theorem reads_newType (h : σ.operand = .created) :
    Reads σ (fun _ σ' _ _ => σ'.operand = .other) (newType ts) := by
  unfold newType
  cases ts with
  | nil => trivial
  | cons t rest =>
    dsimp only
    split
    · rename_i hi
      rw [Bool.and_eq_true, beq_iff_eq] at hi
      have hn : t.text ≠ "new" := by
        intro ht
        rw [ht] at hi
        exact absurd hi.2 (by decide)
      refine ⟨_, _, reached_token ?_, ?_⟩
      · rw [Reading.after, hi.1]
      · simp [Reading.after, hi.1, hn]
    split
    · rename_i hk
      rw [beq_iff_eq] at hk
      refine ⟨_, _, reached_token ?_, ?_⟩
      · rw [Reading.after, hk]
      · simp [Reading.after, hk, h]
    · trivial

end

/-- How many more levels may be entered here. -/
def Context.room (ctx : Context) : Int := ctx.maxDepth - ctx.depth

theorem enter_bind {β : Type} {good : β → Prop} {ctx : Context} {t : Token}
    {next : Context → Except CompileError β}
    (hn : ∀ inner : Context, inner.room = ctx.room - 1 → 0 ≤ inner.room →
      Ends good (fun _ => True) (next inner)) :
    Ends good (fun _ => True) (ctx.enter t >>= next) := by
  unfold Context.enter
  split
  · trivial
  · rename_i hd
    refine hn _ ?_ ?_
    · simp only [Context.room]
      omega
    · simp only [Context.room]
      omega

/-! ## Expressions -/

/-- Unless a level is paid for already, an operator that joins next is late. -/
def Due (n : Nat) (σ : Reading) (rest : List Token) : Prop :=
  0 < n ∨ ∀ t ∈ rest.head?, joins t = true → σ.late t = true

/-- An expression read with so much room, in which `n` late operators stand. -/
def Bounded (room : Int) (n : Nat) (σ : Reading) (rest : List Token) (e : Expr) : Prop :=
  Due n σ rest ∧ Within (room - 1 + n) (.expr e)

section

variable {σ : Reading} {n : Nat} {rest : List Token} {t : Token} {most : Int}

theorem due_of_operand (h : σ.operand ≠ .named) : Due n σ rest := by
  refine .inr fun t _ hj => ?_
  rw [Reading.late, hj, beq_false_of_ne h]
  rfl

theorem within_leaf {e : Expr} (h : 0 ≤ most) (hb : (Node.expr e).beside = [])
    (hi : (Node.expr e).inside = []) : Within most (.expr e) :=
  .of h (by rw [hb]; nofun) (by rw [hi]; nofun)

/-- An expression with one expression inside and none beside it. -/
theorem within_over {e inner : Expr} (hb : (Node.expr e).beside = [])
    (hi : (Node.expr e).inside = [.expr inner]) (h : Within (most - 1) (.expr inner)) :
    Within most (.expr e) := by
  refine .of ?_ (by rw [hb]; nofun) (by rw [hi]; exact List.forall_mem_singleton.2 h)
  have := h.nonneg
  omega

/-- An expression with one expression beside it and some inside. -/
theorem within_target {e target : Expr} (inner : List Expr)
    (hb : (Node.expr e).beside = [.expr target]) (hi : (Node.expr e).inside = inner.map .expr)
    (ht : Within most (.expr target)) (h : ∀ e ∈ inner, Within (most - 1) (.expr e)) :
    Within most (.expr e) :=
  .of ht.nonneg (by rw [hb]; exact List.forall_mem_singleton.2 ht)
    (by rw [hi]; exact List.forall_mem_map.2 h)

/-- Two expressions side by side. -/
theorem within_pair {e left right : Expr} (hb : (Node.expr e).beside = [.expr left, .expr right])
    (hi : (Node.expr e).inside = []) (hl : Within most (.expr left))
    (hr : Within most (.expr right)) : Within most (.expr e) :=
  .of hl.nonneg
    (by rw [hb]; exact List.forall_mem_cons.2 ⟨hl, List.forall_mem_singleton.2 hr⟩)
    (by rw [hi]; nofun)

/-- A token of any other kind leaves nothing to be continued. -/
theorem after_reset (h : t.kind ∉ [Token.Kind.identifier, .keyword, .delimiter]) :
    σ.after t = σ.reset := by
  unfold Reading.after
  cases hk : t.kind <;> first | rfl | simp [hk] at h

theorem reached_reset (h : t.kind ∉ [Token.Kind.identifier, .keyword, .delimiter]) :
    Reached σ (t :: rest) (σ.late t).toNat σ.reset rest := by
  have ht : Reached σ (t :: rest) (σ.late t).toNat (σ.after t) rest :=
    reached_token (by rw [after_reset h]; rfl)
  rwa [after_reset h] at ht

/-- The role of a joining token does not change outside a stream. -/
theorem link?_false {inStream : Bool} {link : Link} (h : link? inStream t = some link) :
    link? false t = some link := by
  cases inStream with
  | false => exact h
  | true =>
    unfold link? at h ⊢
    cases hk : t.kind <;> rw [hk] at h <;> first | exact h | cases h

theorem reached_link {inStream : Bool} {link : Link} (h : link? inStream t = some link) :
    Reached σ (t :: rest) (σ.late t).toNat σ.reset rest := by
  refine reached_reset fun hk => ?_
  unfold link? at h
  cases hk' : t.kind <;> rw [hk'] at h hk <;> first | cases h | simp at hk

/-- An operator that joins is late, unless a level is paid for already. -/
theorem Due.late {inStream : Bool} {link : Link} (h : Due n σ (t :: rest))
    (hl : link? inStream t = some link) (hj : ∀ op, link ≠ .binary op) (hs : link ≠ .scope) :
    1 ≤ n + (σ.late t).toNat := by
  rcases h with h | h
  · omega
  · have hlate : σ.late t = true := by
      refine h t rfl ?_
      rw [joins, link?_false hl]
      cases link with
      | member op | assign op => rfl
      | scope => exact absurd rfl hs
      | binary op => exact absurd rfl (hj op)
    rw [hlate]
    exact Nat.le_add_left _ _

end

/-- The chain of a variable, or of a member of something else, with a level more to go. -/
def Chained (room : Int) (n : Nat) (σ : Reading) (rest : List Token) (e : Expr) : Prop :=
  σ.operand = .named ∧
  (∀ t ∈ rest.head?, t.kind = .operator → MemberOp.ofText? t.text = none) ∧
  Within (room + n) (.expr e)

mutual

theorem primary_nesting (ctx : Context) (σ : Reading) (ts : List Token)
    (hσ : σ.operand = .other) : Reads σ (Bounded ctx.room) (primary ctx ts) := by
  match ts with
  | [] =>
    rw [primary]
    trivial
  | t :: rest =>
    rw [primary]
    refine enter_bind fun inner hr h₀ => ?_
    have hb : inner.bracketed.room = inner.room := rfl
    -- behind something in brackets it is as in front of it: no variable, so what joins next is late
    have hdue : ∀ n rest', Due n σ rest' := fun n rest' => due_of_operand (by rw [hσ]; nofun)
    cases hk : t.kind with
    | operator =>
      have ht : Reached σ (t :: rest) _ σ.reset rest := reached_reset (by rw [hk]; decide)
      cases UnaryOp.ofText? t.text with
      | none => trivial
      | some op =>
        refine (primary_nesting inner σ.reset rest rfl).bind fun operand after h₁ n σ' ho hf => ?_
        have hw : Within (ctx.room - 1 + ((σ.late t).toNat + n : Nat)) (.expr (.unary op operand)) :=
          within_over rfl rfl (hf.2.mono (by omega))
        have hd : Due ((σ.late t).toNat + n) σ' after := hf.1.imp_left (by omega)
        dsimp only
        split
        · trivial
        · exact ⟨_, σ', ht.trans ho, hd, hw⟩
    | number | string | char =>
      have ht : Reached σ (t :: rest) _ σ.reset rest := reached_reset (by rw [hk]; decide)
      exact ⟨_, _, ht, due_of_operand nofun, within_leaf (by omega) rfl rfl⟩
    | identifier =>
      have hs : σ.after t = ⟨.named, σ.around⟩ := by simp [Reading.after, hk, hσ]
      have ht : Reached σ (t :: rest) _ (σ.after t) rest := reached_token (by rw [hs])
      refine (variableOperand_nesting inner t.text (σ.after t) rest (by rw [hs]) h₀).bind
        fun value after h₁ n σ' ho hf => ?_
      exact ⟨_, σ', ht.trans ho, hf.1.imp_left (by omega), hf.2.mono (by omega)⟩
    | keyword =>
      have ht : Reached σ (t :: rest) _ (σ.after t) rest :=
        reached_token (by rw [Reading.after, hk])
      dsimp only
      split
      · rename_i hx
        refine ⟨_, _, ht, due_of_operand ?_, within_leaf (by omega) rfl rfl⟩
        simp [Reading.after, hk, eq_of_beq hx]
      split
      · rename_i hx
        refine ⟨_, _, ht, due_of_operand ?_, within_leaf (by omega) rfl rfl⟩
        simp [Reading.after, hk, eq_of_beq hx]
      split
      · rename_i hx
        refine ⟨_, _, ht, due_of_operand ?_, within_leaf (by omega) rfl rfl⟩
        simp [Reading.after, hk, eq_of_beq hx]
      split
      · rename_i hx
        have hc : (σ.after t).operand = .created := by simp [Reading.after, hk, eq_of_beq hx]
        refine (reads_newType hc).bind fun typeName after h₁ n σ₁ hn ho => ?_
        -- the word after `new` is no variable: what continues the object continues it late
        have hdue₁ : ∀ n rest', Due n σ₁ rest' := fun n rest' => due_of_operand (by rw [ho]; nofun)
        dsimp only
        split
        · refine consume_bind fun o after h₂ he hok hot => ?_
          subst he
          refine (expression_nesting inner.bracketed 1 σ₁.opened after rfl).bind
            fun size after h₃ m σ' hi hf => ?_
          refine consume_bind fun c after h₄ he hck hct => ?_
          subst he
          have hs := hi.bracketed hok (.inr hot) hck (.inr hct)
          refine ⟨_, σ₁, (ht.trans hn).trans hs, hdue₁ _ _, ?_⟩
          exact within_over rfl rfl (hf.2.mono (by omega))
        · split
          · refine consume_bind fun o after h₂ he hok hot => ?_
            subst he
            refine consume_bind fun c after h₃ he hck hct => ?_
            subst he
            have hs := (Reached.refl σ₁.opened (c :: after)).bracketed hok (.inl hot) hck (.inl hct)
            exact ⟨_, σ₁, (ht.trans hn).trans hs, hdue₁ _ _, within_leaf (by omega) rfl rfl⟩
          · exact ⟨_, σ₁, ht.trans hn, hdue₁ _ _, within_leaf (by omega) rfl rfl⟩
      · trivial
    | delimiter =>
      dsimp only
      split
      · rename_i ht
        refine (expression_nesting inner.bracketed 1 σ.opened rest rfl).bind
          fun value after h₁ n σ' ho hf => ?_
        refine consume_bind fun c after h₂ he hck hct => ?_
        subst he
        have hs := ho.bracketed hk (.inl (eq_of_beq ht)) hck (.inl hct)
        exact ⟨n, σ, hs, hdue _ _, hf.2.mono (by omega)⟩
      split
      · rename_i ht
        refine (expression_nesting inner.bracketed 1 σ.opened rest rfl).bind
          fun value after h₁ n σ' ho hf => ?_
        refine consume_bind fun c after h₂ he hck hct => ?_
        subst he
        have hs := ho.bracketed hk (.inr (eq_of_beq ht)) hck (.inr hct)
        exact ⟨n, σ, hs, hdue _ _, within_over rfl rfl (hf.2.mono (by omega))⟩
      · trivial
    | header | stream | scope => trivial
termination_by (ts.length, 0)
decreasing_by all_goals decreasing_with omega

theorem variableOperand_nesting (ctx : Context) (id : String) (σ : Reading) (ts : List Token)
    (hσ : σ.operand = .named) (h₀ : 0 ≤ ctx.room) :
    Glimpses σ (Bounded (ctx.room + 1)) (variableOperand ctx id ts) := by
  rw [variableOperand]
  refine (chain_nesting ctx 0 (.name id) σ ts hσ (within_leaf (by omega) rfl rfl)).bind
    fun node rest h₁ n σ' hc hf => ?_
  obtain ⟨hn, hm, hw⟩ := hf
  rw [Nat.zero_add] at hw
  match rest, h₁, hc, hm with
  | [], _, hc, _ => exact ⟨n, σ', hc, .inr nofun, hw.mono (by omega)⟩
  | t :: rest, h₁, hc, hm =>
    dsimp only
    cases hk : t.kind with
    | operator =>
      have ht : Reached σ' (t :: rest) _ σ'.reset rest := reached_reset (by rw [hk]; decide)
      cases StepOp.ofText? t.text with
      | some op =>
        dsimp only
        split
        · refine ⟨_, _, hc.trans ht, due_of_operand nofun, ?_⟩
          exact within_target [] rfl rfl (hw.mono (by omega)) nofun
        · trivial
      | none =>
        cases ha : AssignOp.ofText? t.text with
        | none =>
          refine ⟨n, σ', hc, .inr fun t' ht' hj => ?_, hw.mono (by omega)⟩
          -- the chain has taken all members, and there is nothing to assign
          obtain rfl : t = t' := Option.some.inj ht'
          rw [joins_operator hk (hm t rfl hk) ha] at hj
          cases hj
        | some op =>
          dsimp only
          split
          · refine (expression_nesting ctx 0 σ'.reset rest rfl).bind
              fun value after h₂ m σ'' hv hf => ?_
            refine ⟨_, σ'', (hc.trans ht).trans hv, hf.1.imp_left (by omega), ?_⟩
            refine within_target [value] rfl rfl (hw.mono (by omega)) ?_
            exact List.forall_mem_singleton.2 (hf.2.mono (by omega))
          · trivial
    | _ =>
      refine ⟨n, σ', hc, .inr fun t' ht' hj => ?_, hw.mono (by omega)⟩
      obtain rfl : t = t' := Option.some.inj ht'
      rw [Reading.late, hj, hk]
      simp
termination_by (ts.length, 3)

theorem chain_nesting (ctx : Context) (m : Nat) (node : Expr) (σ : Reading) (ts : List Token)
    (hσ : σ.operand = .named) (hw : Within (ctx.room + m) (.expr node)) :
    Glimpses σ (fun n => Chained ctx.room (m + n)) (chain ctx node ts) := by
  match ts with
  | [] =>
    rw [chain]
    exact ⟨0, σ, .refl _ _, hσ, nofun, hw⟩
  | t :: rest =>
    have hb : ctx.bracketed.room = ctx.room := rfl
    rw [chain]
    split
    · rename_i hi
      rw [Token.isA, Bool.and_eq_true, beq_iff_eq, beq_iff_eq] at hi
      refine (arguments_nesting ctx.bracketed σ.opened rest rfl).bind
        fun args after h₁ n σ' ha hf => ?_
      refine consume_bind fun c after h₂ he hck hct => ?_
      subst he
      have hs := ha.bracketed hi.1 (.inl hi.2) hck (.inl hct)
      have hn : Within (ctx.room + (m + n : Nat)) (.expr (.call node args)) :=
        within_target args rfl rfl (hw.mono (by omega)) fun arg h => (hf arg h).mono (by omega)
      exact (chain_nesting ctx _ (.call node args) σ after hσ hn).onward hs fun _ _ _ => ⟨_, rfl⟩
    split
    · rename_i hi
      rw [Token.isA, Bool.and_eq_true, beq_iff_eq, beq_iff_eq] at hi
      refine (expression_nesting ctx.bracketed 1 σ.opened rest rfl).bind
        fun key after h₁ n σ' ha hf => ?_
      refine consume_bind fun c after h₂ he hck hct => ?_
      subst he
      have hs := ha.bracketed hi.1 (.inr hi.2) hck (.inr hct)
      have hn : Within (ctx.room + (m + n : Nat)) (.expr (.index node key)) :=
        within_target [key] rfl rfl (hw.mono (by omega))
          (List.forall_mem_singleton.2 (hf.2.mono (by omega)))
      exact (chain_nesting ctx _ (.index node key) σ after hσ hn).onward hs fun _ _ _ => ⟨_, rfl⟩
    · cases hk : t.kind with
      | operator =>
        have ht : Reached σ (t :: rest) _ σ.reset rest := reached_reset (by rw [hk]; decide)
        cases hm : MemberOp.ofText? t.text with
        | none =>
          refine ⟨0, σ, .refl _ _, hσ, fun t' ht' _ => ?_, hw⟩
          obtain rfl : t = t' := Option.some.inj ht'
          exact hm
        | some op =>
          refine (reads_identifier σ.reset).bind fun field after h₁ n σ₁ hi ho => ?_
          have hn : Within (ctx.room + (m + ((σ.late t).toNat + n) : Nat))
              (.expr (.member op node field.text)) :=
            within_target [] rfl rfl (hw.mono (by omega)) nofun
          exact (chain_nesting ctx _ (.member op node field.text) σ₁ after (ho nofun) hn).onward
            (ht.trans hi) fun _ _ _ => ⟨_, rfl⟩
      | _ =>
        refine ⟨0, σ, .refl _ _, hσ, fun t' ht' hk' => ?_, hw⟩
        obtain rfl : t = t' := Option.some.inj ht'
        rw [hk] at hk'
        cases hk'
termination_by (ts.length, 0)
decreasing_by all_goals decreasing_with omega

theorem arguments_nesting (ctx : Context) (σ : Reading) (ts : List Token)
    (hσ : σ.operand = .other) :
    Glimpses σ (fun n _ _ args => ∀ arg ∈ args, Within (ctx.room - 1 + n) (.expr arg))
      (arguments ctx ts) := by
  rw [arguments]
  split
  · exact ⟨0, σ, .refl _ _, nofun⟩
  · exact (expressions_nesting ctx σ ts hσ).bind fun _ _ _ n σ' hr hf => ⟨n, σ', hr, hf⟩
termination_by (ts.length, 3)
decreasing_by all_goals decreasing_with omega

theorem expressions_nesting (ctx : Context) (σ : Reading) (ts : List Token)
    (hσ : σ.operand = .other) :
    Reads σ (fun n _ _ args => ∀ arg ∈ args, Within (ctx.room - 1 + n) (.expr arg))
      (expressions ctx ts) := by
  rw [expressions]
  refine (expression_nesting ctx 1 σ ts hσ).bind fun first after h₁ n σ' hr hf => ?_
  dsimp only
  split
  · refine (reads_consume σ' fun _ => rfl).bind fun _ after h₂ m σ'' hc hs => ?_
    refine (expressions_nesting ctx σ'' after (by rw [hs]; rfl)).bind
      fun others after h₃ k τ ho hos => ?_
    refine ⟨_, τ, (hr.trans hc).trans ho, List.forall_mem_cons.2 ⟨hf.2.mono (by omega), ?_⟩⟩
    exact fun arg h => (hos arg h).mono (by omega)
  · exact ⟨n, σ', hr, List.forall_mem_singleton.2 hf.2⟩
termination_by (ts.length, 2)
decreasing_by all_goals decreasing_with omega

theorem expression_nesting (ctx : Context) (floor : Int) (σ : Reading) (ts : List Token)
    (hσ : σ.operand = .other) : Reads σ (Bounded ctx.room) (expression ctx floor ts) := by
  rw [expression]
  refine (primary_nesting ctx σ ts hσ).bind fun left after h₁ m σ' hl hf => ?_
  refine (climb_nesting ctx floor m left σ' after hf).bind fun whole rest h₂ n σ'' hr hf => ?_
  exact ⟨m + n, σ'', hl.trans hr, hf⟩
termination_by (ts.length, 1)
decreasing_by all_goals decreasing_with omega

theorem climb_nesting (ctx : Context) (floor : Int) (m : Nat) (left : Expr) (σ : Reading)
    (ts : List Token) (hf : Bounded ctx.room m σ ts left) :
    Glimpses σ (fun n => Bounded ctx.room (m + n)) (climb ctx floor left ts) := by
  match ts, hf with
  | [], hf =>
    rw [climb]
    exact ⟨0, σ, .refl _ _, hf⟩
  | t :: rest, hf =>
    rw [climb]
    cases hl : link? ctx.inStream t with
    | none => exact ⟨0, σ, .refl _ _, hf⟩
    | some link =>
      dsimp only
      split
      · exact ⟨0, σ, .refl _ _, hf⟩
      have ht : Reached σ (t :: rest) _ σ.reset rest := reached_link hl
      obtain ⟨hd, hw⟩ := hf
      cases link with
      | member op =>
        -- no level is entered for this member: its operator is late, or a level is paid for already
        have hlate := hd.late hl nofun nofun
        refine (reads_identifier σ.reset).bind fun field after h₁ n σ₁ hi ho => ?_
        have hn : Within (ctx.room + (m + (σ.late t).toNat + n - 1 : Nat))
            (.expr (.member op left field.text)) :=
          within_target [] rfl rfl (hw.mono (by omega)) nofun
        refine (chain_nesting ctx _ (.member op left field.text) σ₁ after (ho nofun) hn).bind
          fun node after h₂ k σ₂ hc hf => ?_
        obtain ⟨-, -, hw⟩ := hf
        have hbound : Bounded ctx.room (m + ((σ.late t).toNat + n + k)) σ₂ after node :=
          ⟨.inl (by omega), hw.mono (by omega)⟩
        exact (climb_nesting ctx floor _ node σ₂ after hbound).onward ((ht.trans hi).trans hc)
          fun _ _ _ => ⟨_, rfl⟩
      | assign op =>
        have hlate := hd.late hl nofun nofun
        dsimp only
        split
        · refine (expression_nesting ctx 0 σ.reset rest rfl).bind
            fun value after h₁ n σ₁ hv hf => ?_
          have hw : Within (ctx.room - 1 + (m + ((σ.late t).toNat + n) : Nat))
              (.expr (.assign op left value)) := by
            refine within_target [value] rfl rfl (hw.mono (by omega)) ?_
            exact List.forall_mem_singleton.2 (hf.2.mono (by omega))
          exact (climb_nesting ctx floor _ (.assign op left value) σ₁ after
            ⟨.inl (by omega), hw⟩).onward (ht.trans hv) fun _ _ _ => ⟨_, rfl⟩
        · trivial
      | scope =>
        refine (expression_nesting ctx (Link.scope.precedence + 1) σ.reset rest rfl).bind
          fun right after h₁ n σ₁ hv hf => ?_
        have hw : Within (ctx.room - 1 + (m + ((σ.late t).toNat + n) : Nat))
            (.expr (.scope left right)) :=
          within_pair rfl rfl (hw.mono (by omega)) (hf.2.mono (by omega))
        exact (climb_nesting ctx floor _ (.scope left right) σ₁ after
          ⟨hf.1.imp_left (by omega), hw⟩).onward (ht.trans hv) fun _ _ _ => ⟨_, rfl⟩
      | binary op =>
        refine (expression_nesting ctx (op.precedence + 1) σ.reset rest rfl).bind
          fun right after h₁ n σ₁ hv hf => ?_
        have hw : Within (ctx.room - 1 + (m + ((σ.late t).toNat + n) : Nat))
            (.expr (.binary op left right)) :=
          within_pair rfl rfl (hw.mono (by omega)) (hf.2.mono (by omega))
        exact (climb_nesting ctx floor _ (.binary op left right) σ₁ after
          ⟨hf.1.imp_left (by omega), hw⟩).onward (ht.trans hv) fun _ _ _ => ⟨_, rfl⟩
termination_by (ts.length, 0)
decreasing_by all_goals decreasing_with omega

end

end Parser

end ConsoleCpp

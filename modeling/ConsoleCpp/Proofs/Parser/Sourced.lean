/-
What the trees look like that the parser makes of the tokens of a source text. Literals and names
keep texts of their kind, what is stored to is a place, and calls and elements belong to a chain
that starts with a name. The parsers are followed step by step: each takes settled tokens and leaves
settled tokens, and since no expression starts right after a number, no name in a tree is a reserved
word.
-/
import ConsoleCpp.Parser.Statement
import ConsoleCpp.Proofs.Outcome
import ConsoleCpp.Proofs.Source.Everywhere
import ConsoleCpp.Proofs.Token.Classes

namespace ConsoleCpp

open Token (Settled WordText NumberText CharText StringBody keywords invisibles)
open scoped Token

/-! ## Trees -/

/-- A word that is not reserved. -/
structure IsName (id : String) : Prop where
  word : WordText id.toList
  free : id ∉ keywords

/-- All characters of the text can be seen. -/
def Visible (text : String) : Prop := ∀ c ∈ text.toList, c ∉ invisibles

namespace Expr

/-- Whether the expression belongs to a chain that starts with a name. -/
def isChained : Expr → Bool
  | .name _ | .call _ _ | .index _ _ | .member _ _ _ => true
  | _ => false

/-- What the parser makes sure of at an expression, apart from the expressions below it. What holds
of the types of new objects and arrays is a parameter. -/
def Sourced (types : String → Prop) : Expr → Prop
  | .number text => NumberText text.toList
  | .string text _ => (∃ body, text.toList = '"' :: body ∧ StringBody body) ∧ Visible text
  | .char text => CharText text.toList ∧ Visible text
  | .name id => IsName id
  | .unary (.step _) operand | .stepAfter _ operand => operand.isAssignable = true
  | .assign _ target _ => target.isAssignable = true
  | .call callee _ => callee.isChained = true
  | .member _ _ field => IsName field
  | .index target _ => target.isChained = true
  | .newObject typeName | .newArray typeName _ => types typeName
  | .bool _ | .unary (.sign _) _ | .binary _ _ _ | .scope _ _ | .list _ => True

end Expr

/-- What the parser makes sure of at a node, apart from the nodes below it. -/
def Node.Sourced (types : String → Prop) : Node → Prop
  | .expr e => e.Sourced types
  | .param p => IsName p.name
  | .stmt (.header path) =>
    ∃ inner, inner ≠ [] ∧ '>' ∉ inner ∧ path = Text.trimBlanks (String.ofList inner)
  | .stmt (.declaration _ name _) | .stmt (.prototype _ name _) | .stmt (.function _ name _ _)
  | .stmt (.usingSpace name) => IsName name
  | .stmt (.input targets) => ∀ target ∈ targets, target.isAssignable = true
  | .stmt _ => True

namespace Parser

/-- A type that `new` takes. -/
def NewType (typeName : String) : Prop := typeName ∈ datatypes ∨ IsName typeName

/-- Everything in the expression is as the parser makes it. -/
def Made (e : Expr) : Prop := (Node.expr e).Everywhere (Node.Sourced NewType)

/-- An expression is as the parser makes it if it is so itself and what is below it is. -/
theorem made_iff {e : Expr} : Made e ↔ e.Sourced NewType ∧ ∀ child ∈ e.children, Made child := by
  rw [Made, Node.everywhere_iff, Node.children, List.forall_mem_map]
  rfl

theorem Made.of {e : Expr} (h : e.Sourced NewType) (hc : ∀ child ∈ e.children, Made child) :
    Made e :=
  made_iff.2 ⟨h, hc⟩

theorem Made.over {e child : Expr} (hc : e.children = [child]) (h : e.Sourced NewType)
    (hm : Made child) : Made e :=
  .of h (hc ▸ List.forall_mem_singleton.2 hm)

theorem Made.join {e left right : Expr} (hc : e.children = [left, right]) (h : e.Sourced NewType)
    (hl : Made left) (hr : Made right) : Made e :=
  .of h (hc ▸ List.forall_mem_cons.2 ⟨hl, List.forall_mem_singleton.2 hr⟩)

/-- The end of a line is the string of a line break, which is put in by the parser itself. -/
theorem made_endl : Made .endl := by
  refine .of ⟨⟨_, rfl, .pair (by decide) .close⟩, ?_⟩ nofun
  unfold Visible
  decide

/-! ## Single tokens -/

section

variable {afterNumber : Bool} {t : Token} {ts rest : List Token}

/-- Settled tokens are settled behind a number too, where less is asked of them. -/
theorem settled_true (h : Settled afterNumber ts) : Settled true ts := by
  cases ts with
  | nil => trivial
  | cons t rest => exact ⟨h.1, fun _ _ => rfl, h.2.2⟩

/-- Behind a token that is no number the rest is settled without a number before it. -/
theorem settled_tail (h : Settled afterNumber (t :: rest)) (hk : t.kind ≠ .number) :
    Settled false rest := by
  have := h.2.2
  rwa [beq_eq_false_iff_ne.2 hk] at this

/-- From a place on where no number stands before, the tokens are settled again. -/
theorem settled_append {before : List Token} (h : Settled afterNumber (before ++ ts))
    (hn : before = [] → afterNumber = false) (hb : ∀ t ∈ before.getLast?, t.kind ≠ .number) :
    Settled false ts := by
  induction before generalizing afterNumber with
  | nil => exact hn rfl ▸ h
  | cons t before ih =>
    refine ih h.2.2 (fun he => ?_) fun last hl => hb last ?_
    · rw [beq_eq_false_iff_ne]
      exact hb t (by rw [he]; rfl)
    · rw [List.getLast?_cons, Option.mem_def.1 hl]
      rfl

theorem settled_rest (h : Settled afterNumber (t :: rest)) : Settled true rest :=
  settled_true h.2.2

theorem settled_isA {kind : Token.Kind} {text : String} (h : Settled afterNumber (t :: rest))
    (hi : t.isA kind text = true) (hk : kind ≠ .number) : Settled false rest := by
  rw [Token.isA, Bool.and_eq_true, beq_iff_eq] at hi
  exact settled_tail h (hi.1 ▸ hk)

/-- A number joins nothing. -/
theorem number_of_link {inStream : Bool} {link : Link} (h : link? inStream t = some link) :
    t.kind ≠ .number := by
  intro hk
  rw [link?, hk] at h
  cases h

/-- An identifier that does not follow a number is no reserved word. -/
theorem isName_of_settled (h : Settled false (t :: rest)) (hk : t.kind = .identifier) :
    IsName t.text := by
  have ht := h.1.text
  rw [hk] at ht
  exact ⟨ht, fun hw => nomatch h.2.1 hk hw⟩

/-- What was read is fine, and the tokens after it are settled. -/
def Leaves {α : Type} (afterNumber : Bool) (fine : α → Prop)
    (result : Except CompileError (Read α ts)) : Prop :=
  Ends (fun read => fine read.value ∧ Settled afterNumber read.rest) (fun _ => True) result

/-- What comes next may count on fine results and settled tokens. -/
theorem Leaves.bind {α β : Type} {fine : α → Prop} {good : β → Prop}
    {first : Except CompileError (Read α ts)} {next : Read α ts → Except CompileError β}
    (hf : Leaves afterNumber fine first)
    (hn : ∀ value rest shorter, fine value → Settled afterNumber rest →
      Ends good (fun _ => True) (next ⟨value, rest, shorter⟩)) :
    Ends good (fun _ => True) (first >>= next) :=
  Ends.bind hf fun ⟨value, rest, shorter⟩ h => hn value rest shorter h.1 h.2

/-- The same for what may be nothing. -/
def Passes {α : Type} (afterNumber : Bool) (fine : α → Prop)
    (result : Except CompileError (Peek α ts)) : Prop :=
  Ends (fun read => fine read.value ∧ Settled afterNumber read.rest) (fun _ => True) result

theorem Passes.bind {α β : Type} {fine : α → Prop}
    {good : β → Prop} {first : Except CompileError (Peek α ts)}
    {next : Peek α ts → Except CompileError β} (hf : Passes afterNumber fine first)
    (hn : ∀ value rest notLonger, fine value → Settled afterNumber rest →
      Ends good (fun _ => True) (next ⟨value, rest, notLonger⟩)) :
    Ends good (fun _ => True) (first >>= next) :=
  Ends.bind hf fun ⟨value, rest, notLonger⟩ h => hn value rest notLonger h.1 h.2

/-- A token that is asked for by its text is no number. -/
theorem leaves_consume (kind : Token.Kind) {text : String} (hs : Settled afterNumber ts)
    (hk : kind ≠ .number) : Leaves false (fun _ => True) (consume kind text ts) := by
  unfold consume
  split
  · trivial
  · split
    · rename_i hi
      exact ⟨trivial, settled_isA hs hi hk⟩
    · trivial

theorem leaves_consumeKind (hs : Settled false ts) :
    Leaves false (fun t => IsName t.text) (consumeKind .identifier ts) := by
  unfold consumeKind
  split
  · trivial
  · split
    · rename_i hi
      rw [beq_iff_eq] at hi
      exact ⟨isName_of_settled hs hi, settled_tail hs (by rw [hi]; decide)⟩
    · trivial

/-- The types of `new` are the words for types and names. -/
theorem leaves_newType (hs : Settled false ts) : Leaves false NewType (newType ts) := by
  unfold newType
  split
  · trivial
  · split
    · rename_i hi
      rw [Bool.and_eq_true, beq_iff_eq] at hi
      exact ⟨.inl (by simpa using hi.2), settled_tail hs (by rw [hi.1]; decide)⟩
    · split
      · rename_i hi
        rw [beq_iff_eq] at hi
        exact ⟨.inr (isName_of_settled hs hi), settled_tail hs (by rw [hi]; decide)⟩
      · trivial

end

/-! ## Expressions -/

mutual

/-- An operand that starts at settled tokens. What follows it may follow a number. -/
theorem primary_made (ctx : Context) (ts : List Token) (hs : Settled false ts) :
    Leaves true Made (primary ctx ts) := by
  match ts, hs with
  | [], _ =>
    rw [primary]
    trivial
  | t :: rest, hs =>
    rw [primary]
    refine .bind_any fun ctx => ?_
    have hg := hs.1.text
    have hv := hs.1.visible
    have hr := settled_rest hs
    cases hk : t.kind with
    | operator =>
      have hs' := settled_tail hs (by rw [hk]; decide)
      cases UnaryOp.ofText? t.text with
      | none => trivial
      | some op =>
        refine (primary_made ctx rest hs').bind fun operand after h₁ hm hr => ?_
        cases op with
        | sign op => exact ⟨.over rfl trivial hm, hr⟩
        | step op =>
          dsimp only
          cases ha : operand.isAssignable with
          | false => trivial
          | true => exact ⟨.over rfl ha hm, hr⟩
    | number =>
      -- the one token behind which a word need not be settled, as `hr` allows
      rw [hk] at hg
      exact ⟨.of hg nofun, hr⟩
    | string =>
      rw [hk] at hg
      exact ⟨.of ⟨hg, hv⟩ nofun, hr⟩
    | char =>
      rw [hk] at hg
      exact ⟨.of ⟨hg, hv⟩ nofun, hr⟩
    | identifier =>
      have hid := isName_of_settled hs hk
      exact (variableOperand_made ctx t.text rest hid hr).bind fun _ _ _ hm hr => ⟨hm, hr⟩
    | keyword =>
      have hs' := settled_tail hs (by rw [hk]; decide)
      dsimp only
      split
      · exact ⟨.of trivial nofun, hr⟩
      split
      · exact ⟨.of trivial nofun, hr⟩
      split
      · exact ⟨made_endl, hr⟩
      split
      · -- `new`: the brackets are no numbers, so what they enclose starts at settled tokens
        refine (leaves_newType hs').bind fun typeName after hl ht hr => ?_
        dsimp only at ht hr ⊢
        split
        · refine (leaves_consume .delimiter hr (by decide)).bind fun _ after h₁ _ hr => ?_
          refine (expression_made ctx.bracketed 1 after hr).bind fun size after h₂ hm hr => ?_
          refine (leaves_consume .delimiter hr (by decide)).bind fun _ _ _ _ hr => ?_
          exact ⟨.over rfl ht hm, settled_true hr⟩
        · split
          · refine (leaves_consume .delimiter hr (by decide)).bind fun _ after h₁ _ hr => ?_
            refine (leaves_consume .delimiter hr (by decide)).bind fun _ after h₂ _ hr => ?_
            exact ⟨.of ht nofun, settled_true hr⟩
          · exact ⟨.of ht nofun, settled_true hr⟩
      · trivial
    | delimiter =>
      have hs' := settled_tail hs (by rw [hk]; decide)
      dsimp only
      split
      · refine (expression_made ctx.bracketed 1 rest hs').bind fun inner after h₁ hm hr => ?_
        refine (leaves_consume .delimiter hr (by decide)).bind fun _ after h₂ _ hr => ?_
        exact ⟨hm, settled_true hr⟩
      split
      · refine (expression_made ctx.bracketed 1 rest hs').bind fun inner after h₁ hm hr => ?_
        refine (leaves_consume .delimiter hr (by decide)).bind fun _ after h₂ _ hr => ?_
        exact ⟨.over rfl trivial hm, settled_true hr⟩
      · trivial
    | header | stream | scope => trivial
termination_by (ts.length, 0)
decreasing_by all_goals decreasing_with omega

theorem variableOperand_made (ctx : Context) (id : String) (ts : List Token) (hid : IsName id)
    (hs : Settled true ts) : Passes true Made (variableOperand ctx id ts) := by
  rw [variableOperand]
  refine (chain_made ctx (.name id) ts (.of hid nofun) rfl hs).bind fun node rest h₁ hc hr => ?_
  obtain ⟨hm, -⟩ := hc
  match rest, h₁, hr with
  | [], _, _ => exact ⟨hm, trivial⟩
  | t :: rest, h₁, hr =>
    dsimp only
    cases hk : t.kind with
    | operator =>
      have hr' := settled_tail hr (by rw [hk]; decide)
      cases StepOp.ofText? t.text with
      | some op =>
        dsimp only
        split
        · rename_i ha
          exact ⟨.over rfl ha hm, settled_true hr'⟩
        · trivial
      | none =>
        cases AssignOp.ofText? t.text with
        | none => exact ⟨hm, hr⟩
        | some op =>
          dsimp only
          split
          · rename_i ha
            refine (expression_made ctx 0 rest hr').bind fun value after h₂ hv hr => ?_
            exact ⟨.join rfl ha hm hv, hr⟩
          · trivial
    | _ => exact ⟨hm, hr⟩
termination_by (ts.length, 3)

/-- A chain only grows from a node that belongs to one. -/
theorem chain_made (ctx : Context) (node : Expr) (ts : List Token) (hm : Made node)
    (hc : node.isChained = true) (hs : Settled true ts) :
    Passes true (fun e => Made e ∧ e.isChained = true) (chain ctx node ts) := by
  match ts, hs with
  | [], _ =>
    rw [chain]
    exact ⟨⟨hm, hc⟩, trivial⟩
  | t :: rest, hs =>
    rw [chain]
    split
    · rename_i hi
      have hs' := settled_isA hs hi (by decide)
      refine (arguments_made ctx.bracketed rest hs').bind fun args after h₁ ha hr => ?_
      refine (leaves_consume .delimiter hr (by decide)).bind fun _ after h₂ _ hr => ?_
      have hn : Made (.call node args) := .of hc (List.forall_mem_cons.2 ⟨hm, ha⟩)
      exact (chain_made ctx (.call node args) after hn rfl (settled_true hr)).bind
        fun _ _ _ hm hr => ⟨hm, hr⟩
    split
    · rename_i hi
      have hs' := settled_isA hs hi (by decide)
      refine (expression_made ctx.bracketed 1 rest hs').bind fun key after h₁ hk hr => ?_
      refine (leaves_consume .delimiter hr (by decide)).bind fun _ after h₂ _ hr => ?_
      have hn : Made (.index node key) := .join rfl hc hm hk
      exact (chain_made ctx (.index node key) after hn rfl (settled_true hr)).bind
        fun _ _ _ hm hr => ⟨hm, hr⟩
    · cases hk : t.kind with
      | operator =>
        have hs' := settled_tail hs (by rw [hk]; decide)
        cases MemberOp.ofText? t.text with
        | none => exact ⟨⟨hm, hc⟩, hs⟩
        | some op =>
          refine (leaves_consumeKind hs').bind fun field after h₁ hf hr => ?_
          have hn : Made (.member op node field.text) := .over rfl hf hm
          exact (chain_made ctx (.member op node field.text) after hn rfl (settled_true hr)).bind
            fun _ _ _ hm hr => ⟨hm, hr⟩
      | _ => exact ⟨⟨hm, hc⟩, hs⟩
termination_by (ts.length, 0)
decreasing_by all_goals decreasing_with omega

theorem arguments_made (ctx : Context) (ts : List Token) (hs : Settled false ts) :
    Passes true (fun args => ∀ arg ∈ args, Made arg) (arguments ctx ts) := by
  rw [arguments]
  split
  · exact ⟨nofun, settled_true hs⟩
  · exact (expressions_made ctx ts hs).bind fun _ _ _ hm hr => ⟨hm, hr⟩
termination_by (ts.length, 3)
decreasing_by all_goals decreasing_with omega

theorem expressions_made (ctx : Context) (ts : List Token) (hs : Settled false ts) :
    Leaves true (fun args => ∀ arg ∈ args, Made arg) (expressions ctx ts) := by
  rw [expressions]
  refine (expression_made ctx 1 ts hs).bind fun first after h₁ hm hr => ?_
  dsimp only at hm hr ⊢
  split
  · refine (leaves_consume .delimiter hr (by decide)).bind fun _ after h₂ _ hr => ?_
    refine (expressions_made ctx after hr).bind fun others after h₃ ho hr => ?_
    exact ⟨List.forall_mem_cons.2 ⟨hm, ho⟩, hr⟩
  · exact ⟨List.forall_mem_singleton.2 hm, hr⟩
termination_by (ts.length, 2)
decreasing_by all_goals decreasing_with omega

theorem expression_made (ctx : Context) (floor : Int) (ts : List Token) (hs : Settled false ts) :
    Leaves true Made (expression ctx floor ts) := by
  rw [expression]
  refine (primary_made ctx ts hs).bind fun left after h₁ hm hr => ?_
  exact (climb_made ctx floor left after hm hr).bind fun _ _ _ hm hr => ⟨hm, hr⟩
termination_by (ts.length, 1)
decreasing_by all_goals decreasing_with omega

/-- Each operator is no number, so the operand behind it starts at settled tokens again. -/
theorem climb_made (ctx : Context) (floor : Int) (left : Expr) (ts : List Token) (hm : Made left)
    (hs : Settled true ts) : Passes true Made (climb ctx floor left ts) := by
  match ts, hs with
  | [], _ =>
    rw [climb]
    exact ⟨hm, trivial⟩
  | t :: rest, hs =>
    rw [climb]
    cases hl : link? ctx.inStream t with
    | none => exact ⟨hm, hs⟩
    | some link =>
      have hs' := settled_tail hs (number_of_link hl)
      dsimp only
      split
      · exact ⟨hm, hs⟩
      cases link with
      | member op =>
        refine (leaves_consumeKind hs').bind fun field after h₁ hf hr => ?_
        have hn : Made (.member op left field.text) := .over rfl hf hm
        refine (chain_made ctx (.member op left field.text) after hn rfl (settled_true hr)).bind
          fun node after h₂ hc hr => ?_
        exact (climb_made ctx floor node after hc.1 hr).bind fun _ _ _ hm hr => ⟨hm, hr⟩
      | assign op =>
        dsimp only
        split
        · rename_i ha
          refine (expression_made ctx 0 rest hs').bind fun value after h₁ hv hr => ?_
          have hw : Made (.assign op left value) := .join rfl ha hm hv
          exact (climb_made ctx floor (.assign op left value) after hw hr).bind
            fun _ _ _ hm hr => ⟨hm, hr⟩
        · trivial
      | scope =>
        refine (expression_made ctx (Link.scope.precedence + 1) rest hs').bind
          fun right after h₁ hv hr => ?_
        have hw : Made (.scope left right) := .join rfl trivial hm hv
        exact (climb_made ctx floor (.scope left right) after hw hr).bind
          fun _ _ _ hm hr => ⟨hm, hr⟩
      | binary op =>
        refine (expression_made ctx (op.precedence + 1) rest hs').bind
          fun right after h₁ hv hr => ?_
        have hw : Made (.binary op left right) := .join rfl trivial hm hv
        exact (climb_made ctx floor (.binary op left right) after hw hr).bind
          fun _ _ _ hm hr => ⟨hm, hr⟩
termination_by (ts.length, 0)
decreasing_by all_goals decreasing_with omega

end

end Parser

end ConsoleCpp

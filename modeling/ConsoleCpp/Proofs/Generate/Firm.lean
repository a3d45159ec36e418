/-
Expressions of generated text. Whatever an expression is generated from, its text is firm: outside
brackets and literals there are only names and points, so no operator in it can take an operand from
its neighbours or give one to them. Each operator stands in brackets of the node that writes it. The
nesting of expressions is limited, and a level opens one bracket, except for an assignment with an
operator to a variable: its value is the variable combined with the value assigned, in brackets,
stored in brackets around these.
-/
import ConsoleCpp.Proofs.Generate.Blocks
import ConsoleCpp.Proofs.Generate.Emitted
import ConsoleCpp.Proofs.Target.Firm
import Mathlib

namespace ConsoleCpp

open Text (isWord)
open Target (Balanced Firm Grouped)
open scoped Token

/-! ## Assignments that open two brackets -/

/-- The additional bracket of an assignment: one if it combines a variable with a value. -/
def AssignOp.rebinds : AssignOp → Expr → Nat
  | .update _, .name _ => 1
  | _, _ => 0

theorem AssignOp.rebinds_le_one (op : AssignOp) (target : Expr) : op.rebinds target ≤ 1 := by
  unfold rebinds
  split <;> decide

namespace Expr

mutual

/-- The most assignments with an operator to variables that stand one inside another. -/
def rebinds : Expr → Nat
  | .assign op target value => max (rebinds target) (rebinds value) + op.rebinds target
  | .unary _ e | .stepAfter _ e | .member _ e _ | .list e | .newArray _ e => rebinds e
  | .binary _ left right | .scope left right | .index left right => max (rebinds left) (rebinds right)
  | .call callee args => max (rebinds callee) (rebindsAll args)
  | .number _ | .string _ _ | .char _ | .bool _ | .name _ | .newObject _ => 0

def rebindsAll : List Expr → Nat
  | [] => 0
  | e :: rest => max (rebinds e) (rebindsAll rest)

end

end Expr

/-- The most such assignments inside one another in a node that is an expression. -/
def Node.rebinds : Node → Nat
  | .expr e => e.rebinds
  | .stmt _ | .param _ => 0

/-! ## Operations and literals -/

/-- Whether the generated text of an expression has an operator that its parts do not have. Division
and remainder are generated as calls, and so are steps of elements and fields and assignments to
them. -/
def Expr.writesOperator : Expr → Bool
  | .unary (.sign _) _ => true
  | .unary (.step _) target | .stepAfter _ target | .assign _ target _ => target.variable?.isSome
  | .binary op _ _ => op != .div && op != .mod
  | _ => false

/-- The text that a literal is generated as. -/
def Node.Spells : Node → List Char → Prop
  | .expr (.number text), cs => ∃ spelling, Target.numberLiteral text = .ok spelling ∧ cs = spelling.toList
  | .expr (.string text _), cs | .expr (.char text), cs => cs = (Target.literal text).toList
  | _, _ => False

/-- A literal of the expression is generated as this text. -/
def Expr.LiteralIn (e : Expr) (cs : List Char) : Prop :=
  ∃ node ∈ Node.walkFrom true [.expr e], node.Spells cs

/-- The node is as the parser makes it, and if it is a literal, it is generated as one of these. -/
structure Node.Written (literals : List Char → Prop) (node : Node) : Prop where
  sourced : node.Sourced fun _ => True
  literal : ∀ cs, node.Spells cs → literals cs

theorem Node.Spells.balanced {node : Node} {cs : List Char} (h : node.Spells cs)
    (hs : node.Sourced fun _ => True) : Balanced 0 cs := by
  unfold Node.Spells at h
  split at h
  · obtain ⟨spelling, hn, rfl⟩ := h
    exact Target.balanced_numberLiteral hs hn
  · cases h
    exact .delimited (Target.delimited_literal .string hs.1 rfl)
  · cases h
    exact .delimited (Target.delimited_literal .char hs.1 rfl)
  · cases h

namespace Generate

open Target.Expr

/-! ## Room for brackets -/

/-- The most brackets of an expression with `depth` levels around it and at most `k` assignments with
an operator to variables inside one another: two for each level that is left, or one for each level
and assignment and one more. -/
def bracketRoom (depth k : Nat) : Nat :=
  min (2 * (maxExpressionDepth - depth)) (maxExpressionDepth + 1 - depth + k)

section

variable {depth k : Nat}

/-- A level takes one bracket of the room, and one more where it is such an assignment. -/
theorem bracketRoom_deeper (h : depth < maxExpressionDepth) {more : Nat} (hm : more ≤ 1) :
    bracketRoom (depth + 1) k + 1 + more ≤ bracketRoom depth (k + more) := by
  unfold bracketRoom maxExpressionDepth at *
  omega

theorem two_le_bracketRoom (h : depth < maxExpressionDepth) : 2 ≤ bracketRoom depth k := by
  unfold bracketRoom maxExpressionDepth at *
  omega

theorem deeper_ends (depth : Nat) :
    Ends (fun next => next = depth + 1 ∧ depth < maxExpressionDepth) (fun _ => True)
      (deeper depth) := by
  unfold deeper
  split
  · trivial
  · exact ⟨rfl, by omega⟩

end

/-! ## Names -/

section

variable {renames : Renames}

theorem words_bind (hr : LoopNamed renames) {name : String} (h : IsName name) :
    ∀ c ∈ (Generate.bind renames name).toList, isWord c = true := by
  have hword := h.word.all_word
  rcases bind_cases renames name with hb | ⟨names, hm, id, he, hb⟩
  · rw [hb]
    exact Target.words_safeName hword
  · obtain ⟨count, hc⟩ := hr names hm (name, id) he
    rw [hb, show id = Target.loopName name count from hc]
    exact Target.words_loopName hword count

end

/-! ## Expressions -/

/-- The text of a form is firm, and it is a group where it has to be one. -/
structure FirmForm (literals : List Char → Prop) (most : Nat) (grouped : Bool) (form : Target.Expr) :
    Prop where
  firm : Firm literals most form.spell.toList
  group : grouped = true → Grouped most form.spell.toList

namespace FirmForm

variable {literals : List Char → Prop} {most more : Nat} {grouped : Bool} {form : Target.Expr}

theorem of_firm (h : Firm literals most form.spell.toList) : FirmForm literals most false form :=
  ⟨h, fun hg => absurd hg Bool.false_ne_true⟩

theorem of_grouped (h : Grouped most form.spell.toList) : FirmForm literals most grouped form :=
  ⟨h.firm, fun _ => h⟩

theorem mono (h : FirmForm literals most grouped form) (hm : most ≤ more) :
    FirmForm literals more grouped form :=
  ⟨h.firm.mono hm, fun hg => (h.group hg).mono hm⟩

end FirmForm

section

variable {renames : Renames} {depth k most : Nat} {literals : List Char → Prop} {grouped : Bool}

/-- What is generated is such a form. -/
abbrev EndsFirm (literals : List Char → Prop) (most : Nat) (grouped : Bool)
    (result : Except CompileError Target.Expr) : Prop :=
  Ends (FirmForm literals most grouped) (fun _ => True) result

/-- One level further in, where generation goes on there. -/
theorem endsFirm_deeper {next : Nat → Except CompileError Target.Expr}
    (h : depth < maxExpressionDepth → EndsFirm literals most grouped (next (depth + 1))) :
    EndsFirm literals most grouped (deeper depth >>= next) := by
  refine (deeper_ends depth).bind ?_
  rintro _ ⟨rfl, hd⟩
  exact h hd

/-- A level opens one bracket at most around parts that are one level deeper. -/
theorem endsFirm_level {next : Nat → Except CompileError Target.Expr}
    (h : EndsFirm literals (bracketRoom (depth + 1) k + 1) grouped (next (depth + 1))) :
    EndsFirm literals (bracketRoom depth k) grouped (deeper depth >>= next) :=
  endsFirm_deeper fun hd => h.imp fun _ hf => hf.mono (bracketRoom_deeper hd (Nat.zero_le 1))

/-- The step of a variable opens two brackets, whatever room there is. -/
theorem endsFirm_step {next : Nat → Except CompileError Target.Expr}
    (h : EndsFirm literals (max 2 (bracketRoom (depth + 1) k + 1)) grouped (next (depth + 1))) :
    EndsFirm literals (bracketRoom depth k) grouped (deeper depth >>= next) :=
  endsFirm_deeper fun hd => h.imp fun _ hf =>
    hf.mono (max_le (two_le_bracketRoom hd) (bracketRoom_deeper hd (Nat.zero_le 1)))

theorem written_child {e child : Expr} (h : (Node.expr e).Everywhere (Node.Written literals))
    (hc : child ∈ e.children) : (Node.expr child).Everywhere (Node.Written literals) :=
  h.child (List.mem_map_of_mem hc)

theorem name_word {id : String} (h : (Node.expr (.name id)).Everywhere (Node.Written literals)) :
    IsName id := h.here.sourced

mutual

theorem expr_endsFirm (hl : ∀ cs, literals cs → Balanced 0 cs) (hr : LoopNamed renames) :
    ∀ (e : Expr) (depth k : Nat), (Node.expr e).Everywhere (Node.Written literals) → e.rebinds ≤ k →
    EndsFirm literals (bracketRoom depth k) e.writesOperator (expr renames depth e)
  | .number _, _, _, h, _ => by
    rw [expr]
    refine .bind_any fun _ => .step fun spelling hs => .of_firm (.literal ?_)
    exact h.here.literal _ ⟨spelling, hs, by rw [spell]⟩
  | .string _ _, _, _, h, _ | .char _, _, _, h, _ => by
    rw [expr]
    exact .bind_any fun _ => .of_firm (.literal (h.here.literal _ (by rw [spell]; rfl)))
  | .bool value, _, _, _, _ => by
    rw [expr]
    have hbool : ∀ value, ∀ c ∈ (boolSpelling value).toList, isWord c = true := by decide
    exact .bind_any fun _ => .of_firm (.of_words (hbool value))
  | .name _, _, _, h, _ => by
    rw [expr]
    exact .bind_any fun _ => .of_firm (.of_words (words_bind hr h.here.sourced))
  | .newObject typeName, _, _, _, _ => by
    rw [expr]
    exact endsFirm_level (.of_firm (firm_newObject typeName))
  | .unary (.step op) operand, _, k, h, hk => by
    rw [expr]
    exact endsFirm_step (step_endsFirm hl hr op false operand _ k (written_child h (.head _)) hk)
  | .stepAfter op operand, _, k, h, hk => by
    rw [expr]
    exact endsFirm_step (step_endsFirm hl hr op true operand _ k (written_child h (.head _)) hk)
  | .unary (.sign op) operand, _, k, h, hk => by
    rw [expr]
    refine endsFirm_level ?_
    exact (expr_endsFirm hl hr operand _ k (written_child h (.head _)) hk).bind fun _ hf =>
      .of_grouped (grouped_sign op (hf.firm.balanced hl))
  | .list operand, _, k, h, hk => by
    rw [expr]
    refine endsFirm_level ?_
    exact (expr_endsFirm hl hr operand _ k (written_child h (.head _)) hk).bind fun _ hf =>
      .of_firm (firm_list (hf.firm.balanced hl))
  | .newArray typeName operand, _, k, h, hk => by
    rw [expr]
    refine endsFirm_level ?_
    exact (expr_endsFirm hl hr operand _ k (written_child h (.head _)) hk).bind fun _ hf =>
      .of_firm (firm_newArray typeName (hf.firm.balanced hl))
  | .binary op left right, _, k, h, hk => by
    rw [expr]
    rw [Expr.rebinds] at hk
    refine endsFirm_level ?_
    refine (expr_endsFirm hl hr left _ k (written_child h (.head _)) (by omega)).bind fun _ h₁ => ?_
    refine (expr_endsFirm hl hr right _ k (written_child h (.tail _ (.head _))) (by omega)).bind
      fun _ h₂ => ?_
    have hleft := h₁.firm.balanced hl
    have hright := h₂.firm.balanced hl
    refine ⟨firm_binary op hleft hright, fun hop => grouped_binary ?_ hleft hright⟩
    simpa [Expr.writesOperator] using hop
  | .index left right, _, k, h, hk => by
    rw [expr]
    rw [Expr.rebinds] at hk
    refine endsFirm_level ?_
    refine (expr_endsFirm hl hr left _ k (written_child h (.head _)) (by omega)).bind fun _ h₁ => ?_
    refine (expr_endsFirm hl hr right _ k (written_child h (.tail _ (.head _))) (by omega)).bind
      fun _ h₂ => ?_
    exact .of_firm (firm_item (h₁.firm.mono (Nat.le_succ _)) (h₂.firm.balanced hl))
  | .assign op target value, depth, k, h, hk => by
    rw [Expr.rebinds] at hk
    -- with a variable an operator opens a bracket more, and the parts rebind once less
    obtain ⟨k, rfl⟩ := Nat.exists_eq_add_of_le' (Nat.le_of_add_left_le hk)
    rw [expr]
    refine endsFirm_deeper fun hd => ?_
    refine (expr_endsFirm hl hr value (depth + 1) k (written_child h (.tail _ (.head _)))
      (by omega)).bind fun form hv => ?_
    refine (store_endsFirm hl hr op target _ k (written_child h (.head _)) (by omega)
      (hv.firm.balanced hl)).imp fun _ hf => hf.mono ?_
    exact bracketRoom_deeper hd (op.rebinds_le_one target)
  | .call callee args, _, k, h, hk => by
    rw [expr]
    rw [Expr.rebinds] at hk
    refine endsFirm_level ?_
    refine (expr_endsFirm hl hr callee _ k (written_child h (.head _)) (by omega)).bind fun _ h₁ => ?_
    refine (exprs_endsFirm hl hr args _ k (fun e he => written_child h (.tail _ he)) (by omega)).bind
      fun _ h₂ => ?_
    exact .of_firm (firm_call (h₁.firm.mono (Nat.le_succ _)) h₂)
  | .member _ target field, _, k, h, hk => by
    rw [expr]
    refine endsFirm_level ?_
    refine (expr_endsFirm hl hr target _ k (written_child h (.head _)) hk).bind fun owner ho => ?_
    have hfield : IsName field := h.here.sourced
    refine .of_firm ?_
    rw [spell_dot]
    exact (Target.firm_joined ho.firm (.of_words (Target.words_safeName hfield.word.all_word))).mono
      (Nat.le_succ _)
  | .scope left right, _, k, h, hk => by
    rw [Expr.rebinds] at hk
    have hright := fun depth =>
      expr_endsFirm hl hr right depth k (written_child h (.tail _ (.head _))) (by omega)
    -- `std::` is not written, and the text is that of the right side
    by_cases hs : left = .name "std"
    · rw [hs, expr_std]
      refine endsFirm_level ?_
      exact (hright _).imp fun _ hf => .of_firm (hf.firm.mono (Nat.le_succ _))
    · rw [expr_scope _ _ right hs]
      refine endsFirm_level ?_
      refine (expr_endsFirm hl hr left _ k (written_child h (.head _)) (by omega)).bind fun first h₁ => ?_
      refine (hright _).bind fun second h₂ => .of_firm ?_
      rw [spell_under]
      exact (Target.firm_joined h₁.firm h₂.firm).mono (Nat.le_succ _)

theorem exprs_endsFirm (hl : ∀ cs, literals cs → Balanced 0 cs) (hr : LoopNamed renames) :
    ∀ (es : List Expr) (depth k : Nat),
    (∀ e ∈ es, (Node.expr e).Everywhere (Node.Written literals)) → Expr.rebindsAll es ≤ k →
    Ends (fun forms => ∀ form ∈ forms, Balanced (bracketRoom depth k) form.spell.toList)
      (fun _ => True) (exprs renames depth es)
  | [], _, _, _, _ => by
    rw [exprs]
    exact List.forall_mem_nil _
  | e :: rest, depth, k, h, hk => by
    rw [exprs]
    rw [Expr.rebindsAll] at hk
    refine (expr_endsFirm hl hr e depth k (h e (.head _)) (by omega)).bind fun _ h₁ => ?_
    refine (exprs_endsFirm hl hr rest depth k (fun e he => h e (.tail _ he)) (by omega)).bind
      fun _ h₂ => ?_
    exact List.forall_mem_cons.2 ⟨h₁.firm.balanced hl, h₂⟩

theorem step_endsFirm (hl : ∀ cs, literals cs → Balanced 0 cs) (hr : LoopNamed renames) (op : StepOp)
    (keepsOld : Bool) : ∀ (e : Expr) (depth k : Nat),
    (Node.expr e).Everywhere (Node.Written literals) → e.rebinds ≤ k →
    EndsFirm literals (max 2 (bracketRoom depth k + 1)) e.variable?.isSome
      (step renames depth op keepsOld e)
  | .name id, _, _, h, _ => by
    rw [step]
    have hid := words_bind hr (name_word h)
    exact .of_grouped ((grouped_step op keepsOld hid).mono (Nat.le_max_left _ _))
  | .index target key, depth, k, h, hk => by
    rw [step]
    rw [Expr.rebinds] at hk
    refine (expr_endsFirm hl hr target depth k (written_child h (.head _)) (by omega)).bind
      fun _ h₁ => ?_
    refine (expr_endsFirm hl hr key depth k (written_child h (.tail _ (.head _))) (by omega)).bind
      fun _ h₂ => .of_firm ?_
    have hone : Balanced (bracketRoom depth k) (number "1").spell.toList := .of_words (by decide)
    exact (firm_update op.arith (some keepsOld) (h₁.firm.balanced hl) (h₂.firm.balanced hl) hone).mono
      (Nat.le_max_right _ _)
  | .member _ target field, depth, k, h, hk => by
    rw [step]
    refine (expr_endsFirm hl hr target depth k (written_child h (.head _)) hk).bind
      fun _ h₁ => .of_firm ?_
    have hone : Balanced (bracketRoom depth k) (number "1").spell.toList := .of_words (by decide)
    exact (firm_updateAttr _ op.arith (some keepsOld) (h₁.firm.balanced hl) hone).mono
      (Nat.le_max_right _ _)
  | .number _, _, _, _, _ | .string _ _, _, _, _, _ | .char _, _, _, _, _ | .bool _, _, _, _, _
  | .unary _ _, _, _, _, _ | .stepAfter _ _, _, _, _, _ | .binary _ _ _, _, _, _, _
  | .assign _ _ _, _, _, _, _ | .call _ _, _, _, _, _ | .scope _ _, _, _, _, _ | .list _, _, _, _, _
  | .newObject _, _, _, _, _ | .newArray _ _, _, _, _, _ => by
    rw [step]
    · trivial
    all_goals nofun

theorem store_endsFirm (hl : ∀ cs, literals cs → Balanced 0 cs) (hr : LoopNamed renames)
    (op : AssignOp) : ∀ (e : Expr) (depth k : Nat) {value : Target.Expr},
    (Node.expr e).Everywhere (Node.Written literals) → e.rebinds ≤ k →
    Balanced (bracketRoom depth k) value.spell.toList →
    EndsFirm literals (bracketRoom depth k + 1 + op.rebinds e) e.variable?.isSome
      (store renames depth op value e)
  | .name id, depth, k, _, h, _, hv => by
    have hid := words_bind hr (name_word h)
    cases op with
    | set =>
      rw [store]
      exact .of_grouped (grouped_bind hid hv)
    | update op =>
      rw [store]
      have hold : Balanced (bracketRoom depth k) (name (Generate.bind renames id)).spell.toList := by
        rw [spell]
        exact .of_words hid
      have hcombined := balanced_binary op.toBinary hold hv
      exact .of_grouped (grouped_bind hid hcombined)
  | .index target key, depth, k, _, h, hk, hv => by
    rw [store]
    rw [Expr.rebinds] at hk
    refine (expr_endsFirm hl hr target depth k (written_child h (.head _)) (by omega)).bind
      fun _ h₁ => ?_
    refine (expr_endsFirm hl hr key depth k (written_child h (.tail _ (.head _))) (by omega)).bind
      fun _ h₂ => ?_
    have howner := h₁.firm.balanced hl
    have hkey := h₂.firm.balanced hl
    cases op with
    | set => exact .of_firm (firm_store howner hkey hv)
    | update op => exact .of_firm (firm_update op none howner hkey hv)
  | .member _ target field, depth, k, _, h, hk, hv => by
    rw [store]
    refine (expr_endsFirm hl hr target depth k (written_child h (.head _)) hk).bind fun _ h₁ => ?_
    have howner := h₁.firm.balanced hl
    cases op with
    | set => exact .of_firm (firm_storeAttr _ howner hv)
    | update op => exact .of_firm (firm_updateAttr _ op none howner hv)
  | .number _, _, _, _, _, _, _ | .string _ _, _, _, _, _, _, _ | .char _, _, _, _, _, _, _
  | .bool _, _, _, _, _, _, _ | .unary _ _, _, _, _, _, _, _ | .stepAfter _ _, _, _, _, _, _, _
  | .binary _ _ _, _, _, _, _, _, _ | .assign _ _ _, _, _, _, _, _, _ | .call _ _, _, _, _, _, _, _
  | .scope _ _, _, _, _, _, _, _ | .list _, _, _, _, _, _, _ | .newObject _, _, _, _, _, _, _
  | .newArray _ _, _, _, _, _, _, _ => by
    rw [store]
    · trivial
    all_goals nofun

end

/-- The text of an expression closes the brackets that it opens. -/
theorem expr_balanced (hr : LoopNamed renames) {e : Expr} (h : Parser.Built (.expr e))
    (hk : e.rebinds ≤ k) (depth : Nat) :
    Ends (fun form => Balanced (bracketRoom depth k) form.spell.toList) (fun _ => True)
      (expr renames depth e) := by
  have hwritten : (Node.expr e).Everywhere (Node.Written (Balanced 0)) :=
    h.imp fun _ hs => ⟨hs, fun _ hc => hc.balanced hs⟩
  exact (expr_endsFirm (fun _ hc => hc) hr e depth k hwritten hk).imp fun _ hf =>
    hf.firm.balanced fun _ hc => hc

end

/-! ## Expressions of source texts -/

/-- The text of any expression of a source closes its brackets, each by one of its own kind. Outside
them it has literals of the expression, word characters and points, and nothing else. If the
expression has an operator to write, all of its text stands in brackets that it opens itself. -/
theorem expr_firm {maxDepth : Int} {source : String} {statements : List Stmt} {symbols : SymbolTable}
    (hs : statementsOf maxDepth source = .ok (statements, symbols)) {e : Expr}
    (he : Node.expr e ∈ walk true statements) {renames : Renames} (hr : LoopNamed renames)
    {depth : Nat} {form : Target.Expr} (h : expr renames depth e = .ok form) :
    ∃ most, Balanced most form.spell.toList ∧ Firm e.LiteralIn most form.spell.toList ∧
      (e.writesOperator = true → Grouped most form.spell.toList) := by
  have hbuilt : Parser.Built (.expr e) :=
    Node.everywhere_of_mem_walkFrom (List.forall_mem_map.2 (statementsOf_built hs)) _ he
  have hwritten : (Node.expr e).Everywhere (Node.Written e.LiteralIn) := fun node hn =>
    ⟨hbuilt node hn, fun _ hc => ⟨node, hn, hc⟩⟩
  have hl : ∀ cs, e.LiteralIn cs → Balanced 0 cs := fun _ ⟨node, hn, hc⟩ =>
    hc.balanced (hbuilt node hn)
  have hform := (expr_endsFirm hl hr e depth e.rebinds hwritten (Nat.le_refl _)).ok h
  exact ⟨_, hform.firm.balanced hl, hform.firm, hform.group⟩

/-- `x = -(1.5e+3 + x--) / f("(", !x).y` -/
def quotient : Expr :=
  .assign .set (.name "x") (.binary .div
    (.unary (.sign .minus) (.binary .add (.number "1.5e+3") (.stepAfter .decrement (.name "x"))))
    (.member .dot (.call (.name "f") [.string "\"(\"" false, .unary (.sign .not) (.name "x")]) "y"))

/-- A source in which it stands. -/
def quotientSource : String := "int x; int f(); x = -(1.5e+3 + x--) / f(\"(\", !x).y;"

theorem expr_firm_quotient :
    ∃ statements symbols form, statementsOf 200 quotientSource = .ok (statements, symbols) ∧
      Node.expr quotient ∈ walk true statements ∧ expr [] 0 quotient = .ok form ∧
      form.spell = "(x := __rt.div((-(1.5e+3 + ((x := x - 1) + 1))), f(\"(\", (not x)).y))" ∧
      ∃ most, Balanced most form.spell.toList ∧ Firm quotient.LiteralIn most form.spell.toList ∧
        Grouped most form.spell.toList := by
  obtain ⟨symbols, hs⟩ : ∃ symbols, statementsOf 200 quotientSource =
      .ok ([.declaration "int" "x" none, .prototype "int" "f" [], .expression quotient], symbols) :=
    ⟨_, by cbv⟩
  have he : Node.expr quotient ∈ walk true
      [.declaration "int" "x" none, .prototype "int" "f" [], .expression quotient] := by
    simp [walk, Node.walkFrom, Node.visited, Node.children]
  have hf : expr [] 0 quotient = .ok _ := rfl
  obtain ⟨most, hbalanced, hfirm, hgrouped⟩ := expr_firm hs he .nil hf
  exact ⟨_, symbols, _, hs, he, hf, by decide +kernel, most, hbalanced, hfirm, hgrouped rfl⟩

end Generate

end ConsoleCpp

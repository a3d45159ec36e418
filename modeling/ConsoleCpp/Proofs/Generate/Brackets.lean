/-
Brackets in generated lines. What is open at once in an expression is bounded by the limit on nesting
and the number of assignments with an operator to variables inside one another, and a line adds two
brackets at most. The limit on nesting alone does not keep the brackets below it.
-/
import ConsoleCpp.Proofs.Generate.Firm
import Mathlib

namespace ConsoleCpp

open Target (Balanced Closes Plain)

/-! ## Lines -/

namespace Target.Stmt

/-- The texts in the lines of a statement, apart from the statements inside it, close what they
open. -/
def TextsClose (most : Nat) : Stmt → Prop
  | .assign target value | .augment target _ value =>
    Closes most target.spell ∧ Closes most value.spell
  | .eval e => Closes most e.spell
  | .print pieces =>
    Closes most ("__outputs.append(" ++ String.intercalate " + " (pieces.map Expr.spell) ++ ")")
  | .define header nonlocals _ =>
    Closes most header.spell ∧ Closes most (String.intercalate ", " nonlocals)
  | .unimplemented name =>
    Closes most ("raise __rt.UnimplementedFunction(" ++ Text.quoted name ++ ")")
  | .ifElse condition _ _ _ | .whileLoop condition _ | .leaveUnless condition =>
    Closes most condition.spell
  | .ret value => ∀ e ∈ value, Closes most e.spell
  | .breakLoop | .continueLoop | .pass => True

variable {most : Nat}

/-- The lines that are one word. -/
theorem closes_word {word : String} (h : word ∈ ["else:", "return", "break", "continue", "pass"]) :
    Closes most word := by
  have hplain : ∀ word ∈ ["else:", "return", "break", "continue", "pass"], Plain word := by decide
  exact (hplain word h).closes

/-- Between plain texts. -/
theorem closes_between {before text after : String} (h : Closes most text) (hb : Plain before)
    (ha : Plain after) : Closes most (before ++ text ++ after) :=
  (hb.closes.append h).append ha.closes

mutual

theorem linesFrom_close : ∀ (s : Stmt) {opener : String} {depth : Nat}, Plain opener →
    Throughout (TextsClose most) s → ∀ line ∈ linesFrom opener depth s, Closes most line.text
  | .assign target value, _, _, _, h => by
    obtain ⟨ht, hv⟩ := h.here
    rw [linesFrom]
    exact List.forall_mem_singleton.2 ((ht.append (Plain.closes (by decide))).append hv)
  | .augment target op value, _, _, _, h => by
    obtain ⟨ht, hv⟩ := h.here
    have hop : Plain op.text := by cases op <;> decide
    rw [linesFrom]
    refine List.forall_mem_singleton.2 (Closes.append ?_ hv)
    exact ((ht.append (Plain.closes (by decide))).append hop.closes).append (Plain.closes (by decide))
  | .eval _, _, _, _, h | .print _, _, _, _, h | .unimplemented _, _, _, _, h => by
    rw [linesFrom]
    exact List.forall_mem_singleton.2 h.here
  | .define header nonlocals body, _, depth, _, h => by
    obtain ⟨hh, hn⟩ := h.here
    rw [linesFrom]
    refine List.forall_mem_cons.2 ⟨hh, List.forall_mem_append.2 ⟨?_, suiteLines_close body h.inside⟩⟩
    split
    · exact List.forall_mem_nil _
    · exact List.forall_mem_singleton.2 ((Plain.closes (by decide)).append hn)
  | .ifElse condition thenSuite elseSuite chained, _, depth, ho, h => by
    have hc : Closes most condition.spell := h.here
    obtain ⟨hthen, helse⟩ := List.forall_mem_append.1 h.inside
    have hhead := closes_between hc (ho.append (show Plain " " by decide)) (show Plain ":" by decide)
    rw [linesFrom]
    refine List.forall_mem_cons.2 ⟨hhead, List.forall_mem_append.2 ⟨suiteLines_close _ hthen, ?_⟩⟩
    split
    · exact chainLines_close _ helse
    · split
      · exact List.forall_mem_nil _
      · exact List.forall_mem_cons.2 ⟨closes_word (by simp), suiteLines_close _ helse⟩
  | .whileLoop condition body, _, depth, _, h => by
    have hhead := closes_between (show Closes most condition.spell from h.here)
      (show Plain "while " by decide) (show Plain ":" by decide)
    rw [linesFrom]
    exact List.forall_mem_cons.2 ⟨hhead, suiteLines_close body h.inside⟩
  | .leaveUnless condition, _, _, _, h => by
    have hhead := closes_between (show Closes most condition.spell from h.here)
      (show Plain "if not " by decide) (show Plain ":" by decide)
    rw [linesFrom]
    exact List.forall_mem_cons.2 ⟨hhead, List.forall_mem_singleton.2 (closes_word (by simp))⟩
  | .ret none, _, _, _, _ | .breakLoop, _, _, _, _ | .continueLoop, _, _, _, _ | .pass, _, _, _, _ => by
    rw [linesFrom]
    exact List.forall_mem_singleton.2 (closes_word (by simp))
  | .ret (some value), _, _, _, h => by
    have hv : Closes most value.spell := h.here value rfl
    rw [linesFrom]
    exact List.forall_mem_singleton.2 ((Plain.closes (by decide)).append hv)

theorem suiteLines_close : ∀ (statements : List Stmt) {depth : Nat},
    ThroughoutAll (TextsClose most) statements →
    ∀ line ∈ suiteLines depth statements, Closes most line.text
  | [], _, _ => by
    rw [suiteLines]
    exact List.forall_mem_nil _
  | s :: rest, _, h => by
    obtain ⟨hs, hrest⟩ := List.forall_mem_cons.1 h
    rw [suiteLines]
    exact List.forall_mem_append.2 ⟨linesFrom_close s (by decide) hs, suiteLines_close rest hrest⟩

theorem chainLines_close : ∀ (statements : List Stmt) {depth : Nat},
    ThroughoutAll (TextsClose most) statements →
    ∀ line ∈ chainLines depth statements, Closes most line.text
  | [], _, _ => by
    rw [chainLines]
    exact List.forall_mem_nil _
  | s :: rest, _, h => by
    obtain ⟨hs, hrest⟩ := List.forall_mem_cons.1 h
    rw [chainLines]
    exact List.forall_mem_append.2 ⟨linesFrom_close s (by decide) hs, chainLines_close rest hrest⟩

end

end Target.Stmt

/-! ## Statements -/

namespace Generate

open Target.Expr

section

variable {renames : Renames} {k : Nat}

/-- The node is as the parser makes it, and in an expression there are at most `k` assignments with
an operator to variables inside one another. -/
def Rebinding (k : Nat) (node : Node) : Prop :=
  node.Sourced (fun _ => True) ∧ node.rebinds ≤ k

theorem rebinding_built {node : Node} (h : node.Everywhere (Rebinding k)) : Parser.Built node :=
  h.imp fun _ hn => hn.1

theorem rebinding_le {e : Expr} (h : (Node.expr e).Everywhere (Rebinding k)) : e.rebinds ≤ k :=
  h.here.2

theorem plain_name {id : String} (h : IsName id) : Plain id := Target.plain_word h.word

theorem plain_bind (hr : LoopNamed renames) {name : String} (h : IsName name) :
    Plain (bind renames name) :=
  Target.plain_of_words (words_bind hr h)

theorem value_balanced (hr : LoopNamed renames) {e : Expr}
    (he : (Node.expr e).Everywhere (Rebinding k)) :
    Ends (fun form => Balanced (bracketRoom 0 k) form.spell.toList) (fun _ => True)
      (expr renames 0 e) :=
  expr_balanced hr (rebinding_built he) (rebinding_le he) 0

theorem place_balanced (hr : LoopNamed renames) {e : Expr}
    (he : (Node.expr e).Everywhere (Rebinding k)) :
    Ends (fun spot => Balanced (bracketRoom 0 k) spot.spell.toList) (fun _ => True)
      (place renames e) := by
  have hb := rebinding_built he
  have hk := rebinding_le he
  have hlevel : bracketRoom 1 k + 1 ≤ bracketRoom 0 k := bracketRoom_deeper (by decide) (Nat.zero_le 1)
  unfold place
  split
  · exact .of_words (words_bind hr hb.here)
  · rw [Expr.rebinds] at hk
    refine (expr_balanced (k := k) hr (built_child hb (.head _)) (by omega) 1).bind fun owner h₁ => ?_
    refine (expr_balanced (k := k) hr (built_child hb (.tail _ (.head _))) (by omega) 1).bind
      fun key h₂ => ?_
    have hall := ((h₁.mono (Nat.le_succ _)).join h₂.squared).mono hlevel
    show Balanced (bracketRoom 0 k) (item owner key).spell.toList
    simpa only [spell, String.append_assoc] using hall
  · rw [Expr.rebinds] at hk
    refine (expr_balanced hr (built_child hb (.head _)) hk 1).bind fun owner h₁ => ?_
    have hfield : IsName _ := hb.here
    have hword := Target.words_safeName hfield.word.all_word
    exact (Target.balanced_joined h₁ (.of_words hword)).mono (Nat.le_of_succ_le hlevel)
  · trivial

theorem line_closes (hr : LoopNamed renames) {e : Expr} {t : Target.Stmt}
    (he : (Node.expr e).Everywhere (Rebinding k)) (h : LineOf renames e t) :
    t.TextsClose (bracketRoom 0 k + 1) := by
  have hone : Closes (bracketRoom 0 k + 1) (number "1").spell := Plain.closes (by decide)
  have hwider : bracketRoom 0 k ≤ bracketRoom 0 k + 1 := Nat.le_succ _
  cases h with
  | assign hd hm hp hv =>
    rename_i op _ _ _ _
    have hspot := (((place_balanced hr (he.child (.head _))).ok hp).mono hwider).closes
    have hvalue := (((value_balanced hr (he.child (.tail _ (.head _)))).ok hv).mono hwider).closes
    cases op <;> exact ⟨hspot, hvalue⟩
  | divide ho hv =>
    have hid := words_bind hr (rebinding_built (he.child (.head _))).here
    have hvalue := (value_balanced hr (he.child (.tail _ (.head _)))).ok hv
    have hold : Balanced (bracketRoom 0 k) (name _).spell.toList := .of_words hid
    exact ⟨(Balanced.of_words hid).closes, (balanced_binary _ hold hvalue).closes⟩
  | step hp | stepAfter hp =>
    exact ⟨(((place_balanced hr (he.child (.head _))).ok hp).mono hwider).closes, hone⟩
  | value hf => exact (((value_balanced hr he).ok hf).mono hwider).closes

theorem pieces_close (hr : LoopNamed renames) : ∀ (parts : List Expr) (previous : Option Expr),
    (∀ e ∈ parts, (Node.expr e).Everywhere (Rebinding k)) →
    Ends (fun texts => ∀ text ∈ texts, Closes (bracketRoom 0 k + 1) text.spell) (fun _ => True)
      (pieces renames previous parts)
  | [], _, _ => List.forall_mem_nil _
  | part :: rest, previous, he => by
    obtain ⟨hpart, hrest⟩ := List.forall_mem_cons.1 he
    have hshown : Ends (fun text => Closes (bracketRoom 0 k + 1) text.spell) (fun _ => True)
        (shown renames part) := by
      unfold shown
      refine (value_balanced hr hpart).bind fun value hv => ?_
      split
      · exact (hv.mono (Nat.le_succ _)).closes
      · exact (balanced_shown hv).closes
    have hblank : Closes (bracketRoom 0 k + 1) (text "\" \"").spell := fun _ _ _ => rfl
    rw [pieces]
    refine hshown.bind fun _ h₁ => (pieces_close hr rest (some part) hrest).bind fun _ h₂ => ?_
    split
    · exact List.forall_mem_cons.2 ⟨h₁, h₂⟩
    · exact List.forall_mem_cons.2 ⟨hblank, List.forall_mem_cons.2 ⟨h₁, h₂⟩⟩

theorem TextsClose.mono {t : Target.Stmt} {most more : Nat} (h : t.TextsClose most)
    (hm : most ≤ more) : t.TextsClose more := by
  cases t with
  | assign _ _ | augment _ _ _ | define _ _ _ => exact ⟨h.1.mono hm, h.2.mono hm⟩
  | ret value => exact fun e he => (h e he).mono hm
  | breakLoop | continueLoop | pass => trivial
  | _ => exact Closes.mono h hm

theorem closes_header {name : String} {params : List Parameter} {most : Nat} (hn : Plain name)
    (hp : ∀ p ∈ params, Plain p.name) : Closes (most + 1) (header name params).spell := by
  have hmark : Plain (if (header name params).optional then "=None" else "") := by
    split <;> decide
  -- the parentheses of the parameters are the one level more
  have hparams : ∀ t ∈ (header name params).params.map
      (· ++ (if (header name params).optional then "=None" else "")), Closes most t := by
    simp only [header, List.map_map, List.forall_mem_map]
    exact fun p hm => ((Target.plain_safeName (hp p hm)).append hmark).closes
  have hlist := (Closes.intercalate (show Plain ", " by decide) hparams).round
  have hname : Plain ("def " ++ (header name params).name) :=
    (show Plain "def " by decide).append (Target.plain_safeName hn)
  have hall := (hname.closes.append hlist).append (Plain.closes (show Plain ":" by decide))
  have hclosing : "):" = ")" ++ ":" := rfl
  rw [Target.Header.spell, hclosing]
  simpa only [String.append_assoc] using hall

theorem mem_children_of_storeTargets {node : Node} {target : Expr} (h : target ∈ node.storeTargets) :
    Node.expr target ∈ node.children := by
  unfold Node.storeTargets at h
  split at h
  · rw [List.mem_singleton.1 h]
    exact .head _
  · rw [List.mem_singleton.1 h]
    exact .head _
  · rw [List.mem_singleton.1 h]
    exact .head _
  · exact List.mem_map_of_mem h
  · cases h

/-- The names of a `nonlocal` line are variables that the body stores to. -/
theorem name_of_mem_nonlocals {scopes : List (List String)} {params : List Parameter} {body : List Stmt}
    (hb : ∀ s ∈ body, (Node.stmt s).Everywhere (Rebinding k)) :
    ∀ name ∈ nonlocals scopes params body, IsName name := by
  intro name hn
  simp only [nonlocals, sortedNames, List.mem_mergeSort, List.mem_eraseDups, List.mem_filter,
    assignedNames, List.mem_flatMap, List.mem_filterMap] at hn
  obtain ⟨⟨node, hnode, target, ht, hv⟩, -⟩ := hn
  have heverywhere : node.Everywhere (Rebinding k) :=
    Node.everywhere_of_mem_walkFrom (List.forall_mem_map.2 hb) node hnode
  -- only a variable gives a name to the line
  obtain rfl : target = .name name := by
    cases target with
    | name id => cases hv; rfl
    | _ => cases hv
  exact (rebinding_built (heverywhere.child (mem_children_of_storeTargets ht))).here

theorem closes_defaultValue (type : String) {most : Nat} : Closes most (defaultValue type).spell := by
  have hd : ∀ typeName, Closes most (defaultOf typeName).spell := by
    intro typeName
    unfold defaultOf
    split
    · exact Plain.closes (by decide)
    · exact Plain.closes (by decide)
    · exact Plain.closes (by decide)
    · exact fun _ _ _ => rfl
    · exact fun _ _ _ => rfl
    · exact Plain.closes (by decide)
    · exact Plain.closes (by decide)
  unfold defaultValue
  split
  · exact Plain.closes (by decide)
  · cases (typeWords type).getLast? with
    | none => exact Plain.closes (by decide)
    | some typeName => exact hd typeName

/-- What is printed stands in two brackets more. -/
theorem closes_print {pieces : List Target.Expr} {most : Nat}
    (h : ∀ e ∈ pieces, Closes most e.spell) :
    Closes (most + 1)
      ("__outputs.append(" ++ String.intercalate " + " (pieces.map Target.Expr.spell) ++ ")") := by
  have hlist := (Closes.intercalate (show Plain " + " by decide)
    (List.forall_mem_map.2 h)).round
  have hall := Closes.append (Plain.closes (show Plain "__outputs.append" by decide)) hlist
  have hopening : "__outputs.append(" = "__outputs.append" ++ "(" := rfl
  rw [hopening]
  simpa only [String.append_assoc] using hall

theorem closes_unimplemented (name : String) :
    Closes 1 ("raise __rt.UnimplementedFunction(" ++ Text.quoted name ++ ")") := by
  have hquoted : Closes 1 ("(" ++ Text.quoted name ++ ")") := (Target.closes_quoted name).round
  have hall := Closes.append
    (Plain.closes (show Plain "raise __rt.UnimplementedFunction" by decide)) hquoted
  have hopening : "raise __rt.UnimplementedFunction(" = "raise __rt.UnimplementedFunction" ++ "(" := rfl
  rw [hopening]
  simpa only [String.append_assoc] using hall

/-- The texts of a form close what they open. The most brackets are open in what is printed. -/
theorem form_closes (hr : LoopNamed renames) {t : Target.Stmt} (h : Form (Rebinding k) renames t) :
    t.TextsClose (bracketRoom 0 k + 2) := by
  have hwider : bracketRoom 0 k ≤ bracketRoom 0 k + 2 := Nat.le_add_right _ 2
  have hvalue {e : Expr} {form : Target.Expr} (he : (Node.expr e).Everywhere (Rebinding k))
      (hf : expr renames 0 e = .ok form) : Closes (bracketRoom 0 k + 2) form.spell :=
    (((value_balanced hr he).ok hf).mono hwider).closes
  have hdefine {name : String} {params : List Parameter} {body : List Stmt}
      {scopes : List (List String)} {inside : List Target.Stmt} (hn : Plain name)
      (hp : ∀ p ∈ params, Plain p.name) (hb : ∀ s ∈ body, (Node.stmt s).Everywhere (Rebinding k)) :
      (Target.Stmt.define (header name params)
        ((nonlocals scopes params body).map (Generate.bind renames)) inside).TextsClose
          (bracketRoom 0 k + 2) := by
    refine ⟨closes_header hn hp, Closes.intercalate (by decide) (List.forall_mem_map.2 ?_)⟩
    exact fun name hm => (plain_bind hr (name_of_mem_nonlocals hb name hm)).closes
  cases h with
  | default hs =>
    exact ⟨(plain_bind hr (rebinding_built hs).here).closes, closes_defaultValue _⟩
  | initial hs hv =>
    exact ⟨(plain_bind hr (rebinding_built hs).here).closes, hvalue (hs.child (.head _)) hv⟩
  | line he hl => exact TextsClose.mono (line_closes hr he hl) (Nat.le_succ _)
  | input he hp =>
    exact ⟨(((place_balanced hr he).ok hp).mono hwider).closes, (balanced_input.mono (Nat.le_add_left _ _)).closes⟩
  | print hs ht => exact closes_print ((pieces_close hr _ none hs).ok ht)
  | stub hs =>
    refine ⟨closes_header (plain_name (rebinding_built hs).here) fun p hp => ?_, fun _ _ _ => rfl⟩
    exact plain_name (rebinding_built (hs.child (List.mem_map_of_mem hp))).here
  | unimplemented => exact (closes_unimplemented _).mono (Nat.le_add_left _ _)
  | define hs =>
    refine hdefine (plain_name (rebinding_built hs).here) (fun p hp => ?_) ?_
    · have hchild := hs.child (List.mem_append_left _ (List.mem_map_of_mem hp))
      exact plain_name (rebinding_built hchild).here
    · have hbody := hs.child (List.mem_append_right _ (.head _))
      exact fun s hm => hbody.child (List.mem_map_of_mem hm)
  | main hs => exact hdefine (by decide) nofun hs
  | ifElse he ht | whileLoop he ht | leaveUnless he ht => exact hvalue he ht
  | forever => exact Plain.closes (by decide)
  | ret he hv => exact fun e hm => by cases hm; exact hvalue he hv
  | plain hp =>
    simp only [List.mem_cons, List.not_mem_nil, or_false] at hp
    rcases hp with rfl | rfl | rfl | rfl
    · trivial
    · trivial
    · trivial
    · exact nofun

theorem throughout_closes {t : Target.Stmt}
    (h : Target.Stmt.Throughout (Emitted (Rebinding k)) t) :
    Target.Stmt.Throughout (Target.Stmt.TextsClose (bracketRoom 0 k + 2)) t := by
  induction h with
  | intro top _ ih =>
    obtain ⟨renames, hr, hf⟩ := top
    exact ⟨form_closes hr hf, ih⟩

/-- The lines of a program in which there are at most `k` assignments with an operator to variables
inside one another. -/
theorem program_closes {statements : List Stmt} {p : Target.Program}
    (hq : ∀ s ∈ statements, (Node.stmt s).Everywhere (Rebinding k))
    (h : program statements = .ok p) :
    ∀ line ∈ p.lines, line.deepest ≤ bracketRoom 0 k + 2 := by
  have hframe : ∀ line ∈ Target.Program.prologue ++ Target.Program.epilogue, line.deepest ≤ 2 := by
    decide
  obtain ⟨hprologue, hepilogue⟩ := List.forall_mem_append.1 hframe
  have htexts : Target.Stmt.ThroughoutAll (Target.Stmt.TextsClose (bracketRoom 0 k + 2))
      (p.stubs ++ p.body) := fun t ht => throughout_closes (program_emitted hq h t ht)
  refine List.forall_mem_append.2 ⟨List.forall_mem_append.2 ⟨?_, ?_⟩, ?_⟩
  · exact fun line hl => Nat.le_trans (hprologue line hl) (Nat.le_add_left _ _)
  · exact fun line hl => (Target.Stmt.suiteLines_close _ htexts line hl).deepest_le
  · exact fun line hl => Nat.le_trans (hepilogue line hl) (Nat.le_add_left _ _)

end

/-! ## Programs with as many brackets as there can be -/

section

/-- `x += x += … x++`, with `k` assignments. -/
def rebinding : Nat → Expr
  | 0 => .stepAfter .increment (.name "x")
  | k + 1 => .assign (.update .add) (.name "x") (rebinding k)

/-- An expression with so many signs before it. -/
def negated : Nat → Expr → Expr
  | 0, e => e
  | n + 1, e => .unary (.sign .minus) (negated n e)

/-- Prints an expression with `k` assignments inside one another that is nested as deep as an
expression may be. -/
def densest (k : Nat) : Stmt := .print [negated (149 - k) (rebinding k)]

/-- An expression is generated at this depth, and somewhere in it so many brackets are open. -/
def Generates (depth least : Nat) (e : Expr) : Prop :=
  ∃ form, expr [] depth e = .ok form ∧ Target.Reaches least form.spell

theorem deeper_ok {depth : Nat} (h : depth < maxExpressionDepth) : deeper depth = .ok (depth + 1) :=
  if_neg (by omega)

theorem rebinding_generates : ∀ k depth : Nat, depth + k < maxExpressionDepth →
    Generates depth (2 * k + 2) (rebinding k)
  | 0, depth, hd => by
    refine ⟨.step .increment true "x", ?_, (Target.reaches_one "x := x + 1) - 1").round⟩
    rw [rebinding, expr, deeper_ok (show depth < maxExpressionDepth from hd)]
    rfl
  | k + 1, depth, hd => by
    obtain ⟨form, hf, hreach⟩ := rebinding_generates k (depth + 1) (by omega)
    have hinner := (hreach.behind (show Plain "x + " by decide)).round
    refine ⟨.bind "x" (.binary .add (.name "x") form), ?_, ?_⟩
    · rw [rebinding, expr, deeper_ok (by omega)]
      show (expr [] (depth + 1) (rebinding k) >>= _) = _
      rw [hf]
      rfl
    · exact (hinner.behind (show Plain "x := " by decide)).round

theorem negated_generates {e : Expr} {least : Nat} : ∀ n depth : Nat,
    Generates (depth + n) least e → depth + n < maxExpressionDepth →
    Generates depth (least + n) (negated n e)
  | 0, _, h, _ => h
  | n + 1, depth, h, hd => by
    obtain ⟨form, hf, hreach⟩ := negated_generates n (depth + 1)
      (by rwa [Nat.add_right_comm]) (by omega)
    refine ⟨.sign .minus form, ?_, (hreach.behind (show Plain "-" by decide)).round⟩
    rw [negated, expr, deeper_ok (by omega)]
    show (expr [] (depth + 1) (negated n e) >>= _) = _
    rw [hf]
    rfl

/-- A statement that is no definition stands alone in its sequence. -/
theorem sequence_single {ctx : Context} {count n : Nat} {s : Stmt} {lines : List Target.Stmt}
    (hs : groupOf s = .others) (h : stmt ctx count s = .ok (lines, n)) :
    sequence ctx count [s] = .ok (lines, n) := by
  -- two of the three groups are empty, whatever the count they start from
  have habsent : ∀ which count, which ≠ .others → group ctx count which [s] = .ok ([], count) := by
    intro which count hw
    have hb : (groupOf s == which) = false := by rw [hs]; simpa using hw.symm
    rw [group, hb]
    rfl
  have hothers : group ctx count .others [s] = .ok (lines, n) := by
    have hb : (groupOf s == .others) = true := by rw [hs]; rfl
    rw [group, hb, h]
    show Except.ok (lines ++ [], n) = _
    rw [List.append_nil]
  show (group ctx count .prototypes [s] >>= _) = _
  rw [habsent _ _ (by decide)]
  show (group ctx count .functions [s] >>= _) = _
  rw [habsent _ _ (by decide)]
  show (group ctx count .others [s] >>= _) = _
  rw [hothers]
  rfl

theorem program_print {e : Expr} {piece : Target.Expr} (h : shown [] e = .ok piece) :
    program [.print [e]] =
      .ok ⟨[], [.define (header "main" []) ((nonlocals [[]] [] [.print [e]]).map (Generate.bind []))
        [.print [piece]]]⟩ := by
  have hprint (ctx : Context) (hr : ctx.renames = []) (count : Nat) :
      sequence ctx count [.print [e]] = .ok ([.print [piece]], count) := by
    refine sequence_single rfl ?_
    rw [stmt, pieces, hr, h]
    rfl
  have hm : needsImplicitMain [.print [e]] = true := rfl
  have hw : withoutPrototypes [.print [e]] = [.print [e]] := rfl
  unfold program
  dsimp only
  rw [hm, hw, if_pos rfl]
  unfold function suite
  show (((sequence ((programContext []).inFunction [] [.print [e]]).inner 0 [.print [e]] >>= _) >>=
    _) >>= _) = _
  rw [hprint _ rfl]
  rfl

/-- A value that is no string literal is printed as a text. -/
theorem shown_negated {n k : Nat} {form : Target.Expr}
    (h : expr [] 0 (negated n (rebinding k)) = .ok form) :
    shown [] (negated n (rebinding k)) = .ok (.shown form) := by
  unfold shown
  rw [h]
  cases n with
  | succ n => rfl
  | zero => cases k <;> rfl

/-- The line that prints an expression has two brackets around it, those of the list of outputs and
of the text of the value. -/
theorem densest_generates {k : Nat} (hk : k ≤ 149) : ∃ p, program [densest k] = .ok p ∧
    ∃ line ∈ p.lines, 153 + k ≤ line.deepest := by
  have hd : 149 - k + k < maxExpressionDepth := by rw [maxExpressionDepth]; omega
  obtain ⟨form, hf, hreach⟩ := negated_generates (149 - k) 0
    (by rw [Nat.zero_add]; exact rebinding_generates k _ hd) (by rw [maxExpressionDepth]; omega)
  have hshown : Target.Reaches (2 * k + 2 + (149 - k) + 1) (Target.Expr.shown form).spell := by
    have hall := (hreach.round.behind (show Plain "show" by decide)).behind
      (show Plain "__rt." by decide)
    simpa only [Target.Expr.spell, Target.Expr.helperSpelling, String.intercalate_singleton,
      String.append_assoc] using hall
  -- one bracket of `show` is open by now, and that of the list of outputs comes around it
  have hline : Target.Reaches (2 * k + 2 + (149 - k) + 1 + 1) ("__outputs.append(" ++
      String.intercalate " + " ([Target.Expr.shown form].map Target.Expr.spell) ++ ")") := by
    have hopening : "__outputs.append(" = "__outputs.append" ++ "(" := rfl
    have hall := hshown.round.behind (show Plain "__outputs.append" by decide)
    rw [List.map_singleton, String.intercalate_singleton, hopening]
    simpa only [String.append_assoc] using hall
  have hcount : 153 + k = 2 * k + 2 + (149 - k) + 1 + 1 := by omega
  rw [hcount]
  have hp := program_print (shown_negated hf)
  rw [densest]
  refine ⟨_, hp, _, ?_, hline.le_deepest 2⟩
  simp [Target.Program.lines, Target.Stmt.suiteLines, Target.Stmt.linesFrom]

theorem rebinds_rebinding (k : Nat) : (rebinding k).rebinds = k := by
  induction k with
  | zero => rfl
  | succ k ih => rw [rebinding, Expr.rebinds, ih, Expr.rebinds, Nat.zero_max, AssignOp.rebinds]

theorem rebinds_negated (n : Nat) (e : Expr) : (negated n e).rebinds = e.rebinds := by
  induction n with
  | zero => rfl
  | succ n ih => rw [negated, Expr.rebinds, ih]

theorem everywhere_rebinding {k : Nat} : ∀ j ≤ k,
    (Node.expr (rebinding j)).Everywhere fun node => node.rebinds ≤ k
  | 0, _ => by
    have hname : (Node.expr (.name "x")).Everywhere fun node => node.rebinds ≤ k :=
      Node.everywhere_iff.2 ⟨Nat.zero_le k, nofun⟩
    exact Node.everywhere_iff.2 ⟨Nat.zero_le k, List.forall_mem_singleton.2 hname⟩
  | j + 1, hj => by
    have hname : (Node.expr (.name "x")).Everywhere fun node => node.rebinds ≤ k :=
      Node.everywhere_iff.2 ⟨Nat.zero_le k, nofun⟩
    have hvalue : (Node.expr (rebinding j)).Everywhere fun node => node.rebinds ≤ k :=
      everywhere_rebinding j (by omega)
    refine Node.everywhere_iff.2 ⟨?_, List.forall_mem_cons.2 ⟨hname, List.forall_mem_singleton.2 hvalue⟩⟩
    show (rebinding (j + 1)).rebinds ≤ k
    rw [rebinds_rebinding]
    exact hj

theorem everywhere_negated {k : Nat} {e : Expr}
    (he : (Node.expr e).Everywhere fun node => node.rebinds ≤ k) (n : Nat) :
    (Node.expr (negated n e)).Everywhere fun node => node.rebinds ≤ k := by
  induction n with
  | zero => exact he
  | succ n ih =>
    refine Node.everywhere_iff.2 ⟨?_, List.forall_mem_singleton.2 ih⟩
    show (negated (n + 1) e).rebinds ≤ k
    rw [rebinds_negated]
    exact he.here

theorem walk_densest (k : Nat) : ∀ node ∈ walk true [densest k], node.rebinds ≤ k := by
  refine forall_walk_iff.2 (List.forall_mem_singleton.2 ?_)
  have hprinted := everywhere_negated (everywhere_rebinding k (Nat.le_refl k)) (149 - k)
  exact Node.everywhere_iff.2 ⟨Nat.zero_le k, List.forall_mem_singleton.2 hprinted⟩

end

/-! ## Programs of source texts -/

/-- Where at most `k` assignments with an operator to variables stand inside one another in a source
text, no line of its program has more than `153 + k` brackets open at once, and no line of any
program has more than 302. So up to 47 such assignments never take a line past 200 brackets. Neither
bound can be lowered: for each `k` that can be generated there are statements with a line that has
`153 + k` brackets open, 302 where `k` is 149. -/
theorem brackets_of_program (k : Nat) :
    (∀ {maxDepth : Int} {source : String} {statements : List Stmt} {symbols : SymbolTable}
      {p : Target.Program}, statementsOf maxDepth source = .ok (statements, symbols) →
      program statements = .ok p → (∀ node ∈ walk true statements, node.rebinds ≤ k) →
      ∀ line ∈ p.lines, line.deepest ≤ min 302 (153 + k)) ∧
    (k ≤ 149 → (∀ node ∈ walk true [densest k], node.rebinds ≤ k) ∧
      ∃ p, program [densest k] = .ok p ∧ ∃ line ∈ p.lines, 153 + k ≤ line.deepest) := by
  refine ⟨fun {_ _ statements _ p} hs hp hk line hl => ?_, fun hk => ?_⟩
  · have hq : ∀ s ∈ statements, (Node.stmt s).Everywhere (Rebinding k) := by
      refine forall_walk_iff.1 fun node hn => ⟨?_, hk node hn⟩
      exact forall_walk_iff.2 (statementsOf_built hs) node hn
    have hle := program_closes hq hp line hl
    have hroom : bracketRoom 0 k + 2 = min 302 (153 + k) := by
      unfold bracketRoom maxExpressionDepth
      omega
    rwa [hroom] at hle
  · exact ⟨walk_densest k, densest_generates hk⟩

/-- `int x; int y = x += x -= 2;` -/
def twiceRebound : List Stmt :=
  [.declaration "int" "x" none,
   .declaration "int" "y" (some (.assign (.update .add) (.name "x")
     (.assign (.update .sub) (.name "x") (.number "2"))))]

theorem brackets_of_program_twiceRebound :
    ∃ symbols p, statementsOf 200 "int x; int y = x += x -= 2;" = .ok (twiceRebound, symbols) ∧
      program twiceRebound = .ok p ∧ (∀ node ∈ walk true twiceRebound, node.rebinds ≤ 2) ∧
      ∀ line ∈ p.lines, line.deepest ≤ min 302 (153 + 2) := by
  obtain ⟨symbols, hs⟩ : ∃ symbols,
      statementsOf 200 "int x; int y = x += x -= 2;" = .ok (twiceRebound, symbols) := ⟨_, by cbv⟩
  obtain ⟨p, hp⟩ : ∃ p, program twiceRebound = .ok p := ⟨_, rfl⟩
  have hk : ∀ node ∈ walk true twiceRebound, node.rebinds ≤ 2 := by
    simp [walk, Node.walkFrom, Node.visited, Node.children, Expr.children, twiceRebound,
      Node.rebinds, Expr.rebinds, AssignOp.rebinds]
  exact ⟨symbols, p, hs, hp, hk, (brackets_of_program 2).1 hs hp hk⟩

end Generate

end ConsoleCpp

/-
What each generated statement is made of. The generator is followed once, here: whatever it emits,
at the top or inside other statements, is one of few forms, each put together from expressions,
places and names of the source. A property of all generated statements is then shown form by form,
without another induction over the generator.
-/
import ConsoleCpp.Proofs.Generate.Cases
import ConsoleCpp.Proofs.Outcome
import ConsoleCpp.Proofs.Source.Everywhere

namespace ConsoleCpp

/-! ## Statements inside statements -/

namespace Target.Stmt

/-- The statements directly inside a statement. -/
def inner : Stmt → List Stmt
  | .define _ _ body | .whileLoop _ body => body
  | .ifElse _ thenSuite elseSuite _ => thenSuite ++ elseSuite
  | .assign _ _ | .augment _ _ _ | .eval _ | .print _ | .unimplemented _ | .leaveUnless _ | .ret _
  | .breakLoop | .continueLoop | .pass => []

/-- The property holds of a statement and of all statements inside it. -/
inductive Throughout (p : Stmt → Prop) : Stmt → Prop where
  | intro {s : Stmt} (top : p s) (rest : ∀ t ∈ s.inner, Throughout p t) : Throughout p s

/-- The property holds of all statements of a list and of all inside them. -/
def ThroughoutAll (p : Stmt → Prop) (statements : List Stmt) : Prop :=
  ∀ s ∈ statements, Throughout p s

variable {p : Stmt → Prop} {s : Stmt} {xs ys : List Stmt}

theorem Throughout.here (h : Throughout p s) : p s := by
  cases h
  assumption

/-- What holds throughout a statement holds throughout its suites. -/
theorem Throughout.inside (h : Throughout p s) : ThroughoutAll p s.inner := by
  cases h
  assumption

/-- A statement without statements inside. -/
theorem Throughout.of_flat (hs : s.inner = []) (h : p s) : Throughout p s :=
  ⟨h, by rw [hs]; exact nofun⟩

theorem ThroughoutAll.nil : ThroughoutAll p [] := nofun

theorem ThroughoutAll.single (h : Throughout p s) : ThroughoutAll p [s] := by
  simpa [ThroughoutAll] using h

theorem ThroughoutAll.append (h₁ : ThroughoutAll p xs) (h₂ : ThroughoutAll p ys) :
    ThroughoutAll p (xs ++ ys) :=
  List.forall_mem_append.2 ⟨h₁, h₂⟩

end Target.Stmt

namespace Generate

open Target.Stmt (Throughout ThroughoutAll)

/-! ## Forms -/

/-- The loops around a place give their variables names of loop variables. -/
def LoopNamed (renames : Renames) : Prop :=
  ∀ names ∈ renames, ∀ entry ∈ names, ∃ count, entry.2 = Target.loopName entry.1 count

theorem LoopNamed.nil : LoopNamed [] := nofun

/-- A form of generated statement, apart from the statements inside it: what it is put together from
under these names of loop variables. Of the source trees that it comes from, `q` holds
everywhere. -/
inductive Form (q : Node → Prop) (renames : Renames) : Target.Stmt → Prop where
  | default {type name : String}
      (hs : (Node.stmt (.declaration type name none)).Everywhere q) :
    Form q renames (.assign (.name (bind renames name)) (defaultValue type))
  | initial {type name : String} {e : Expr} {value : Target.Expr}
      (hs : (Node.stmt (.declaration type name (some e))).Everywhere q)
      (hv : expr renames 0 e = .ok value) :
    Form q renames (.assign (.name (bind renames name)) value)
  | line {e : Expr} {t : Target.Stmt} (he : (Node.expr e).Everywhere q) (h : LineOf renames e t) :
    Form q renames t
  | input {e : Expr} {spot : Target.Place} (he : (Node.expr e).Everywhere q)
      (hp : place renames e = .ok spot) :
    Form q renames (.assign spot .input)
  | print {parts : List Expr} {texts : List Target.Expr}
      (hs : ∀ e ∈ parts, (Node.expr e).Everywhere q) (ht : pieces renames none parts = .ok texts) :
    Form q renames (.print texts)
  | stub {returnType name : String} {params : List Parameter}
      (hs : (Node.stmt (.prototype returnType name params)).Everywhere q) :
    Form q renames (stub name params)
  | unimplemented {name : String} : Form q renames (.unimplemented name)
  | define {returnType name : String} {params : List Parameter} {body : List Stmt}
      {scopes : List (List String)} {inside : List Target.Stmt}
      (hs : (Node.stmt (.function returnType name params body)).Everywhere q) :
    Form q renames
      (.define (header name params) ((nonlocals scopes params body).map (bind renames)) inside)
  /-- The definition around statements without a main function. -/
  | main {body : List Stmt} {scopes : List (List String)} {inside : List Target.Stmt}
      (hs : ∀ s ∈ body, (Node.stmt s).Everywhere q) :
    Form q renames
      (.define (header "main" []) ((nonlocals scopes [] body).map (bind renames)) inside)
  | ifElse {e : Expr} {test : Target.Expr} {thenSuite elseSuite : List Target.Stmt} {chained : Bool}
      (he : (Node.expr e).Everywhere q) (ht : expr renames 0 e = .ok test) :
    Form q renames (.ifElse test thenSuite elseSuite chained)
  | whileLoop {e : Expr} {test : Target.Expr} {body : List Target.Stmt}
      (he : (Node.expr e).Everywhere q) (ht : expr renames 0 e = .ok test) :
    Form q renames (.whileLoop test body)
  /-- The loop of a `do` loop, which its test leaves. -/
  | forever {body : List Target.Stmt} : Form q renames (.whileLoop (.bool true) body)
  | leaveUnless {e : Expr} {test : Target.Expr} (he : (Node.expr e).Everywhere q)
      (ht : expr renames 0 e = .ok test) :
    Form q renames (.leaveUnless test)
  | ret {e : Expr} {value : Target.Expr} (he : (Node.expr e).Everywhere q)
      (hv : expr renames 0 e = .ok value) :
    Form q renames (.ret (some value))
  | plain {t : Target.Stmt} (h : t ∈ [.pass, .breakLoop, .continueLoop, .ret none]) :
    Form q renames t

/-- What is emitted from source trees of which `q` holds everywhere. -/
def Emitted (q : Node → Prop) (t : Target.Stmt) : Prop :=
  ∃ renames, LoopNamed renames ∧ Form q renames t

/-! ## Contexts -/

/-- The names of loop variables around a statement, and what ends the rounds of the loop around it,
are such as the generator makes them. -/
structure Surrounds (q : Node → Prop) (ctx : Context) : Prop where
  names : LoopNamed ctx.renames
  update : ∀ e, ctx.roundEnd = .update e → (Node.expr e).Everywhere q
  leave : ∀ test, ctx.roundEnd = .leaveUnless test → Emitted q (.leaveUnless test)

/-- A loop adds the name of its own variable to those around it. -/
theorem loopNamed_loopRenames {renames : Renames} (h : LoopNamed renames) (init : Option Stmt)
    (count : Nat) : LoopNamed (loopRenames init count :: renames) := by
  refine List.forall_mem_cons.2 ⟨fun entry he => ?_, h⟩
  unfold loopRenames at he
  cases hl : loopVariable? init with
  | none => rw [hl] at he; cases he
  | some name =>
    rw [hl] at he
    rw [List.mem_singleton.1 he]
    exact ⟨count, rfl⟩

namespace Surrounds

variable {q : Node → Prop} {ctx : Context}

theorem inner (h : Surrounds q ctx) : Surrounds q ctx.inner := ⟨h.names, h.update, h.leave⟩

theorem inLoop_nothing (h : Surrounds q ctx) : Surrounds q (ctx.inLoop .nothing) :=
  ⟨h.names, nofun, nofun⟩

theorem inLoop_leave (h : Surrounds q ctx) {test : Target.Expr}
    (ht : Emitted q (.leaveUnless test)) : Surrounds q (ctx.inLoop (.leaveUnless test)) :=
  ⟨h.names, nofun, fun _ he => by cases he; exact ht⟩

theorem inLoop_update (h : Surrounds q ctx) {update : Option Expr}
    (hu : ∀ e ∈ update, (Node.expr e).Everywhere q) : Surrounds q (ctx.inLoop (updateEnd update)) := by
  cases update with
  | none => exact h.inLoop_nothing
  | some e => exact ⟨h.names, fun _ he => by cases he; exact hu e rfl, nofun⟩

theorem inFor (h : Surrounds q ctx) (init : Option Stmt) (count : Nat) :
    Surrounds q (ctx.inFor init count) :=
  ⟨loopNamed_loopRenames h.names _ _, h.update, h.leave⟩

theorem inFunction (h : Surrounds q ctx) (params : List Parameter) (body : List Stmt) :
    Surrounds q (ctx.inFunction params body) :=
  ⟨h.names, nofun, nofun⟩

/-- Around a whole program or part of one. -/
theorem outside (indent : Nat) (scopes : List (List String)) :
    Surrounds q ⟨indent, scopes, [], .nothing⟩ :=
  ⟨.nil, nofun, nofun⟩

end Surrounds

/-! ## Statements -/

variable {q : Node → Prop}

/-- Each statement, those inside included, is emitted from source trees of which `q` holds. -/
abbrev AllEmitted (q : Node → Prop) (lines : List Target.Stmt) : Prop :=
  ThroughoutAll (Emitted q) lines

/-- A suite that would be empty has the line that does nothing. -/
theorem emitted_orPass {lines : List Target.Stmt} (h : AllEmitted q lines) :
    AllEmitted q (orPass lines) := by
  unfold orPass
  split
  · exact .single (.of_flat rfl ⟨[], .nil, .plain (by simp)⟩)
  · exact h

section

variable {ctx : Context} {count n : Nat} {lines : List Target.Stmt}

theorem lineOf_inner {renames : Renames} {e : Expr} {t : Target.Stmt} (h : LineOf renames e t) :
    t.inner = [] := by
  cases h with
  | assign =>
    rename_i op _ _ _ _ _ _ _ _
    cases op <;> rfl
  | divide | step | stepAfter | value => rfl

/-- What stands without statements inside. -/
theorem emitted_flat {renames : Renames} {t : Target.Stmt} (hr : LoopNamed renames)
    (ht : t.inner = []) (h : Form q renames t) : AllEmitted q [t] :=
  .single (.of_flat ht ⟨renames, hr, h⟩)

theorem emitted_stub {renames : Renames} {returnType name : String} {params : List Parameter}
    (hr : LoopNamed renames) (hs : (Node.stmt (.prototype returnType name params)).Everywhere q) :
    AllEmitted q [stub name params] :=
  .single ⟨⟨renames, hr, .stub hs⟩, emitted_flat hr rfl .unimplemented⟩

theorem emitted_line {renames : Renames} {e : Expr} {t : Target.Stmt} (hr : LoopNamed renames)
    (he : (Node.expr e).Everywhere q) (h : expressionStatement renames e = .ok t) :
    AllEmitted q [t] :=
  emitted_flat hr (lineOf_inner (lineOf h)) (.line he (lineOf h))

theorem emitted_inputs {renames : Renames} (hr : LoopNamed renames) :
    ∀ {targets : List Expr} {lines : List Target.Stmt},
      (∀ e ∈ targets, (Node.expr e).Everywhere q) → inputs renames targets = .ok lines →
      AllEmitted q lines
  | [], _, _, h => by
    cases h
    exact .nil
  | target :: rest, _, hs, h => by
    rw [inputs] at h
    obtain ⟨spot, hp, h⟩ := bind_ok h
    obtain ⟨others, ho, h⟩ := bind_ok h
    cases h
    have hfirst := emitted_flat hr rfl (.input (hs target (.head _)) hp)
    exact hfirst.append (emitted_inputs hr (fun e he => hs e (.tail _ he)) ho)

/-- What ends a round was fixed by the loop around, outside the suites in between. -/
theorem emitted_roundEnd (hs : Surrounds q ctx)
    (h : roundEndStatements ctx.renames ctx.roundEnd = .ok lines) : AllEmitted q lines := by
  cases hr : ctx.roundEnd with
  | nothing =>
    rw [hr] at h
    cases h
    exact .nil
  | update e =>
    rw [hr] at h
    obtain ⟨line, hl, h⟩ := bind_ok h
    cases h
    exact emitted_line hs.names (hs.update e hr) hl
  | leaveUnless test =>
    rw [hr] at h
    cases h
    exact .single (.of_flat rfl (hs.leave test hr))

/-- A sequence is emitted as its groups are. -/
theorem emitted_sequence {statements : List Stmt}
    (hg : ∀ {count n : Nat} {which : Group} {lines : List Target.Stmt},
      group ctx count which statements = .ok (lines, n) → AllEmitted q lines)
    (h : sequence ctx count statements = .ok (lines, n)) : AllEmitted q lines := by
  obtain ⟨prototypes, _, functions, _, others, h₁, h₂, h₃, rfl⟩ := arranged_ok h
  exact ((hg h₁).append (hg h₂)).append (hg h₃)

end

mutual

/-- By the tree: each line that a statement is generated as has one of the forms, under the names of
the loops around it. -/
theorem stmt_emitted : ∀ (s : Stmt) {ctx : Context} {count n : Nat} {lines : List Target.Stmt},
    (Node.stmt s).Everywhere q → Surrounds q ctx → stmt ctx count s = .ok (lines, n) →
    AllEmitted q lines
  | .header _, _, _, _, _, _, _, h | .usingSpace _, _, _, _, _, _, _, h => by
    rw [stmt] at h
    cases h
    exact .nil
  | .prototype _ _ _, _, _, _, _, hq, hs, h => by
    rw [stmt] at h
    cases h
    exact emitted_stub hs.names hq
  | .function _ _ params body, _, _, _, _, hq, hs, h => by
    obtain ⟨inside, hi, rfl⟩ := stmt_function_ok h
    have hbody : (Node.stmt (.block body)).Everywhere q := hq.child (by simp [Node.children])
    have hgroup := emitted_sequence (group_emitted body
      (fun s hm => hbody.child (List.mem_map_of_mem hm)) (hs.inFunction params body).inner) hi
    exact .single ⟨⟨_, hs.names, .define hq⟩, emitted_orPass hgroup⟩
  | .declaration _ _ initializer, _, _, _, _, hq, hs, h => by
    obtain ⟨-, value, rfl, ⟨rfl, rfl⟩ | ⟨e, rfl, hv⟩⟩ := stmt_declaration_ok h
    · exact emitted_flat hs.names rfl (.default hq)
    · exact emitted_flat hs.names rfl (.initial hq hv)
  | .block statements, _, _, _, _, hq, hs, h => by
    rw [stmt_block_eq] at h
    exact emitted_sequence
      (group_emitted statements (fun s hm => hq.child (List.mem_map_of_mem hm)) hs) h
  | .input targets, _, _, _, _, hq, hs, h =>
    emitted_inputs hs.names (fun e he => hq.child (List.mem_map_of_mem he)) (stmt_input_ok h).2
  | .print parts, _, _, _, _, hq, hs, h => by
    rcases stmt_print_ok h with ⟨-, ⟨-, rfl⟩ | ⟨texts, ht, rfl⟩⟩
    · exact .nil
    · refine emitted_flat hs.names rfl (.print (fun e he => ?_) ht)
      exact hq.child (List.mem_map_of_mem he)
  | .ifElse condition thenStmt elseStmt, _, _, _, _, hq, hs, h => by
    obtain ⟨test, first, k, second, chained, ht, hf, ha, rfl⟩ := stmt_ifElse_ok h
    have htest := hq.child (.head _)
    have hthen := stmt_emitted thenStmt (hq.child (.tail _ (.head _))) hs.inner hf
    have helse := alternative_emitted elseStmt (fun s hm =>
      hq.child (.tail _ (.tail _ (List.mem_map_of_mem (Option.mem_toList.2 hm))))) hs ha
    exact .single ⟨⟨_, hs.names, .ifElse htest ht⟩, (emitted_orPass hthen).append helse⟩
  | .whileLoop condition body, _, _, _, _, hq, hs, h => by
    obtain ⟨test, inside, ht, hi, rfl⟩ := stmt_whileLoop_ok h
    have hbody := stmt_emitted body (hq.child (.tail _ (.head _))) hs.inLoop_nothing.inner hi
    exact .single ⟨⟨_, hs.names, .whileLoop (hq.child (.head _)) ht⟩, emitted_orPass hbody⟩
  | .doLoop condition body, _, _, _, _, hq, hs, h => by
    obtain ⟨test, inside, ht, hi, rfl⟩ := stmt_doLoop_ok h
    -- the test at the end is also what a `continue` in the body leaves the loop by
    have hleave : Emitted q (.leaveUnless test) :=
      ⟨_, hs.names, .leaveUnless (hq.child (.head _)) ht⟩
    have hbody := stmt_emitted body (hq.child (.tail _ (.head _))) (hs.inLoop_leave hleave).inner hi
    refine .single ⟨⟨_, hs.names, .forever⟩, emitted_orPass (hbody.append ?_)⟩
    exact .single (.of_flat rfl hleave)
  | .forLoop init condition update body, ctx, count, _, _, hq, hs, h => by
    obtain ⟨before, k, test, inside, ends, hb, ht, hi, he, rfl⟩ := stmt_forLoop_ok h
    -- the whole loop stands under the new name, its first statement and its update too
    have hfor := hs.inFor init count
    have hloop : Surrounds q ((ctx.inFor init count).inLoop (updateEnd update)) :=
      hfor.inLoop_update fun e he => hq.child (by simp [Node.children, Option.mem_def.1 he])
    have hinit := optional_emitted init (fun s hm =>
      hq.child (List.mem_append_left _ (List.mem_map_of_mem (Option.mem_toList.2 hm)))) hfor hb
    have hbody := stmt_emitted body (hq.child (by simp [Node.children])) hloop.inner hi
    have hends : AllEmitted q ends := emitted_roundEnd hloop he
    refine hinit.append (.single ⟨⟨_, hfor.names, .whileLoop (hq.child ?_) ht⟩, ?_⟩)
    · simp [Node.children]
    · exact emitted_orPass (hbody.append hends)
  | .ret value, _, _, _, _, hq, hs, h => by
    rcases stmt_ret_ok h with ⟨-, ⟨-, rfl⟩ | ⟨e, result, rfl, hv, rfl⟩⟩
    · exact emitted_flat hs.names rfl (.plain (by simp))
    · exact emitted_flat hs.names rfl (.ret (hq.child (.head _)) hv)
  | .breakLoop, _, _, _, _, _, hs, h => by
    rw [stmt] at h
    cases h
    exact emitted_flat hs.names rfl (.plain (by simp))
  | .continueLoop, _, _, _, _, _, hs, h => by
    obtain ⟨-, ends, he, rfl⟩ := stmt_continueLoop_ok h
    exact (emitted_roundEnd hs he).append (emitted_flat hs.names rfl (.plain (by simp)))
  | .expression e, _, _, _, _, hq, hs, h => by
    obtain ⟨-, line, hl, rfl⟩ := stmt_expression_ok h
    exact emitted_line hs.names (hq.child (.head _)) hl

theorem alternative_emitted : ∀ (s : Option Stmt) {ctx : Context} {count n : Nat}
    {lines : List Target.Stmt} {chained : Bool}, (∀ t ∈ s, (Node.stmt t).Everywhere q) →
    Surrounds q ctx → alternative ctx count s = .ok (lines, chained, n) → AllEmitted q lines
  | none, _, _, _, _, _, _, _, h => by
    rw [alternative] at h
    cases h
    exact .nil
  | some s, _, _, _, _, _, hq, hs, h => by
    rcases alternative_some_ok h with ⟨hb, -⟩ | ⟨-, body, hb, rfl⟩
    · exact stmt_emitted s (hq s rfl) hs hb
    · exact emitted_orPass (stmt_emitted s (hq s rfl) hs.inner hb)

theorem optional_emitted : ∀ (s : Option Stmt) {ctx : Context} {count n : Nat}
    {lines : List Target.Stmt}, (∀ t ∈ s, (Node.stmt t).Everywhere q) → Surrounds q ctx →
    optional ctx count s = .ok (lines, n) → AllEmitted q lines
  | none, _, _, _, _, _, _, h => by
    rw [optional] at h
    cases h
    exact .nil
  | some s, _, _, _, _, hq, hs, h => by
    rw [optional] at h
    exact stmt_emitted s (hq s rfl) hs h

/-- The statements of a group are generated in their order, and so are the lines. -/
theorem group_emitted : ∀ (statements : List Stmt) {ctx : Context},
    (∀ s ∈ statements, (Node.stmt s).Everywhere q) → Surrounds q ctx →
    ∀ {count n : Nat} {which : Group} {lines : List Target.Stmt},
    group ctx count which statements = .ok (lines, n) → AllEmitted q lines
  | [], _, _, _, _, _, _, _, h => by
    rw [group] at h
    cases h
    exact .nil
  | s :: rest, _, hq, hs, _, _, _, _, h => by
    have hrest : ∀ s ∈ rest, (Node.stmt s).Everywhere q := fun s hm => hq s (.tail _ hm)
    rcases group_cons_ok h with ⟨-, first, k, others, h₁, h₂, rfl⟩ | ⟨-, h⟩
    · exact (stmt_emitted s (hq s (.head _)) hs h₁).append (group_emitted rest hrest hs h₂)
    · exact group_emitted rest hrest hs h

end

/-! ## Programs -/

theorem stubs_emitted {statements : List Stmt}
    (hq : ∀ s ∈ statements, (Node.stmt s).Everywhere q) : AllEmitted q (stubs statements) := by
  intro t ht
  obtain ⟨s, hm, hs⟩ := List.mem_filterMap.1 ht
  have hsource := hq s hm
  cases s with
  | prototype returnType name params =>
    cases hs
    exact emitted_stub .nil hsource _ (.head _)
  | _ => cases hs

/-- Every statement of a generated program has one of the forms. -/
theorem program_emitted {statements : List Stmt} {p : Target.Program}
    (hq : ∀ s ∈ statements, (Node.stmt s).Everywhere q) (h : program statements = .ok p) :
    AllEmitted q (p.stubs ++ p.body) := by
  have hrest : ∀ s ∈ withoutPrototypes statements, (Node.stmt s).Everywhere q :=
    fun s hs => hq s (List.mem_filter.1 hs).1
  have hsequence {ctx : Context} {count n : Nat} {lines : List Target.Stmt} (hs : Surrounds q ctx)
      (hl : sequence ctx count (withoutPrototypes statements) = .ok (lines, n)) :
      AllEmitted q lines :=
    emitted_sequence (group_emitted _ hrest hs) hl
  have houtside : ∀ bound, Surrounds q (programContext bound) := fun _ => .outside _ _
  unfold program at h
  dsimp only at h
  split at h
  · obtain ⟨⟨body, n⟩, hb, h⟩ := bind_ok h
    cases h
    obtain ⟨inside, hi, rfl⟩ := function_ok hb
    have hbody := hsequence ((houtside _).inFunction _ _).inner hi
    refine (stubs_emitted hq).append ?_
    exact .single ⟨⟨_, LoopNamed.nil, .main hrest⟩, emitted_orPass hbody⟩
  · obtain ⟨⟨body, n⟩, hb, h⟩ := bind_ok h
    cases h
    exact (stubs_emitted hq).append (hsequence (houtside _) hb)

end Generate

end ConsoleCpp

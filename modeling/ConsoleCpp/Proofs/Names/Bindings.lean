/-
Names that generated lines bind. They are exactly the generated names of the occurrences in the
source: an expression binds the variables it stores to, each under the name that the loops around
the expression give it, and a statement what its occurrences bind. Only a jump to the next round of
a loop binds more, for the end of the round stands before it; in the loop as a whole that adds
nothing, since the end of the round is also part of the loop.
-/
import ConsoleCpp.Proofs.Generate.Renames
import ConsoleCpp.Proofs.Names.Occurrences
import ConsoleCpp.Target.Scope

namespace ConsoleCpp.Target.Expr

/-! ## Expressions joined by a point -/

theorem bindings_dot (owner : Expr) (field : String) : (owner.dot field).bindings = owner.bindings := by
  unfold dot
  split
  · split <;> rfl
  · rfl

theorem bindings_join (left e : Expr) : (left.join e).bindings = left.bindings ++ e.bindings := by
  unfold join
  split
  · split <;> rfl
  · rfl

/-- The arguments of a helper bind what the call of the helper binds. -/
theorem bindings_helperCall {e : Expr} {helper : String} {args : List Expr}
    (h : e.helperCall? = some (helper, args)) : bindingsAll args = e.bindings := by
  unfold helperCall? at h
  split at h <;> cases h <;> simp [bindingsAll, bindings]
  · rename_i keepsOld
    cases keepsOld <;> simp [bindingsAll, bindings]
  · rename_i keepsOld
    cases keepsOld <;> simp [bindingsAll, bindings]

theorem bindings_under (left : Expr) : ∀ e : Expr,
    (under left e).bindings = left.bindings ++ e.bindings
  | .name id => by simp [under, bindings_dot, bindings]
  | .call callee args => by simp [under, bindings, bindings_under left callee]
  | .attr owner field => by simp [under, bindings, bindings_under left owner]
  | .item owner key => by simp [under, bindings, bindings_under left owner]
  | .number digits => by
    cases left with
    | number whole =>
      simp only [under]
      split <;> rfl
    | _ => rfl
  | .text _ | .bool _ | .nothing | .sign _ _ | .binary _ _ _ | .bind _ _ | .step _ _ _ | .list _
  | .input | .shown _ | .store _ _ _ | .update _ _ _ _ _ | .storeAttr _ _ _ | .updateAttr _ _ _ _ _
  | .newArray _ _ | .newObject _ | .misjoined _ _ | .adjoined _ _ => by
    simp only [under]
    split
    · rename_i helper args hc
      show left.bindings ++ bindingsAll args = _
      rw [bindings_helperCall hc]
    · exact bindings_join left _

end ConsoleCpp.Target.Expr

namespace ConsoleCpp.Generate

open Target (Place)

/-! ## Expressions -/

variable {renames : Renames}

mutual

/-- A generated expression binds the variables that the source expression stores to. -/
theorem expr_bindings : ∀ (e : Expr) {depth : Nat} {result : Target.Expr},
    expr renames depth e = .ok result → result.bindings = e.stores.map (bind renames)
  | .number _, _, _, h => by
    rw [expr] at h
    obtain ⟨_, -, h⟩ := bind_ok h
    obtain ⟨_, -, h⟩ := bind_ok h
    cases h
    rfl
  | .string _ _, _, _, h | .char _, _, _, h | .bool _, _, _, h | .name _, _, _, h
  | .newObject _, _, _, h => by
    rw [expr] at h
    obtain ⟨_, -, h⟩ := bind_ok h
    cases h
    rfl
  | .unary (.step _) operand, _, _, h | .stepAfter _ operand, _, _, h => by
    rw [expr] at h
    obtain ⟨_, -, h⟩ := bind_ok h
    exact step_bindings operand h
  | .unary (.sign _) operand, _, _, h | .list operand, _, _, h | .newArray _ operand, _, _, h => by
    rw [expr] at h
    obtain ⟨_, -, h⟩ := bind_ok h
    obtain ⟨inner, hi, h⟩ := bind_ok h
    cases h
    rw [Target.Expr.bindings, Expr.stores, expr_bindings operand hi]
  | .binary _ left right, _, _, h | .index left right, _, _, h => by
    rw [expr] at h
    obtain ⟨_, -, h⟩ := bind_ok h
    obtain ⟨first, hl, h⟩ := bind_ok h
    obtain ⟨second, hr, h⟩ := bind_ok h
    cases h
    rw [Target.Expr.bindings, Expr.stores, List.map_append, expr_bindings left hl,
      expr_bindings right hr]
  | .assign op target value, _, _, h => by
    rw [expr] at h
    obtain ⟨_, -, h⟩ := bind_ok h
    obtain ⟨result, hv, h⟩ := bind_ok h
    rw [store_bindings target h, expr_bindings value hv, ← List.map_append]
    rfl
  | .call callee args, _, _, h => by
    rw [expr] at h
    obtain ⟨_, -, h⟩ := bind_ok h
    obtain ⟨first, hc, h⟩ := bind_ok h
    obtain ⟨others, ha, h⟩ := bind_ok h
    cases h
    rw [Target.Expr.bindings, Expr.stores, List.map_append, expr_bindings callee hc,
      exprs_bindings args ha]
  | .member _ target _, _, _, h => by
    rw [expr] at h
    obtain ⟨_, -, h⟩ := bind_ok h
    obtain ⟨owner, ho, h⟩ := bind_ok h
    cases h
    rw [Target.Expr.bindings_dot]
    exact expr_bindings target ho
  | .scope left right, depth, _, h => by
    by_cases hs : left = .name "std"
    · subst hs
      rw [expr_std] at h
      obtain ⟨_, -, h⟩ := bind_ok h
      exact expr_bindings right h
    · rw [expr_scope renames depth right hs] at h
      obtain ⟨_, -, h⟩ := bind_ok h
      obtain ⟨first, hl, h⟩ := bind_ok h
      obtain ⟨second, hr, h⟩ := bind_ok h
      cases h
      rw [Target.Expr.bindings_under, Expr.stores, List.map_append, expr_bindings left hl,
        expr_bindings right hr]

theorem exprs_bindings : ∀ (es : List Expr) {depth : Nat} {results : List Target.Expr},
    exprs renames depth es = .ok results →
    Target.Expr.bindingsAll results = (Expr.storesAll es).map (bind renames)
  | [], _, _, h => by
    rw [exprs] at h
    cases h
    rfl
  | e :: rest, _, _, h => by
    rw [exprs] at h
    obtain ⟨first, hf, h⟩ := bind_ok h
    obtain ⟨others, ho, h⟩ := bind_ok h
    cases h
    rw [Target.Expr.bindingsAll, Expr.storesAll, List.map_append, expr_bindings e hf,
      exprs_bindings rest ho]

theorem step_bindings : ∀ (e : Expr) {depth : Nat} {op : StepOp} {keepsOld : Bool}
    {result : Target.Expr}, step renames depth op keepsOld e = .ok result →
    result.bindings = (e.ownName ++ e.stores).map (bind renames)
  | .name _, _, _, _, _, h => by
    rw [step] at h
    cases h
    rfl
  | .index target key, _, _, _, _, h => by
    rw [step] at h
    obtain ⟨owner, ho, h⟩ := bind_ok h
    obtain ⟨place, hp, h⟩ := bind_ok h
    cases h
    rw [Target.Expr.bindings, expr_bindings target ho, expr_bindings key hp]
    simp [Expr.ownName, Expr.stores, Target.Expr.bindings]
  | .member _ target _, _, _, _, _, h => by
    rw [step] at h
    obtain ⟨owner, ho, h⟩ := bind_ok h
    cases h
    rw [Target.Expr.bindings, expr_bindings target ho]
    simp [Expr.ownName, Expr.stores, Target.Expr.bindings]
  | .number _, _, _, _, _, h | .string _ _, _, _, _, _, h | .char _, _, _, _, _, h
  | .bool _, _, _, _, _, h | .unary _ _, _, _, _, _, h | .stepAfter _ _, _, _, _, _, h
  | .binary _ _ _, _, _, _, _, h | .assign _ _ _, _, _, _, _, h | .call _ _, _, _, _, _, h
  | .scope _ _, _, _, _, _, h | .list _, _, _, _, _, h | .newObject _, _, _, _, _, h
  | .newArray _ _, _, _, _, _, h => by
    rw [step] at h
    · cases h
    all_goals nofun

theorem store_bindings : ∀ (e : Expr) {depth : Nat} {op : AssignOp} {value result : Target.Expr},
    store renames depth op value e = .ok result →
    result.bindings = (e.ownName ++ e.stores).map (bind renames) ++ value.bindings
  | .name _, _, op, _, _, h => by
    cases op <;> (rw [store] at h; cases h; rfl)
  | .index target key, _, op, _, _, h => by
    rw [store] at h
    obtain ⟨owner, ho, h⟩ := bind_ok h
    obtain ⟨place, hp, h⟩ := bind_ok h
    cases op <;> cases h <;>
      simp [Target.Expr.bindings, expr_bindings target ho, expr_bindings key hp, Expr.ownName,
        Expr.stores]
  | .member _ target _, _, op, _, _, h => by
    rw [store] at h
    obtain ⟨owner, ho, h⟩ := bind_ok h
    cases op <;> cases h <;>
      simp [Target.Expr.bindings, expr_bindings target ho, Expr.ownName, Expr.stores]
  | .number _, _, _, _, _, h | .string _ _, _, _, _, _, h | .char _, _, _, _, _, h
  | .bool _, _, _, _, _, h | .unary _ _, _, _, _, _, h | .stepAfter _ _, _, _, _, _, h
  | .binary _ _ _, _, _, _, _, h | .assign _ _ _, _, _, _, _, h | .call _ _, _, _, _, _, h
  | .scope _ _, _, _, _, _, h | .list _, _, _, _, _, h | .newObject _, _, _, _, _, h
  | .newArray _ _, _, _, _, _, h => by
    rw [store] at h
    · cases h
    all_goals nofun

end

/-- A store to a place binds its variable, if it is one, and what finding the place stores to. -/
theorem place_bindings {e : Expr} {result : Place} (h : place renames e = .ok result) :
    result.bindings = (e.ownName ++ e.stores).map (bind renames) := by
  unfold place at h
  split at h
  · cases h
    rfl
  · rename_i target key
    obtain ⟨owner, ho, h⟩ := bind_ok h
    obtain ⟨index, hk, h⟩ := bind_ok h
    cases h
    rw [Place.bindings, expr_bindings target ho, expr_bindings key hk, ← List.map_append]
    rfl
  · rename_i target field
    obtain ⟨owner, ho, h⟩ := bind_ok h
    cases h
    exact expr_bindings target ho
  · cases h

/-! ## Lines -/

open Target.Stmt (bindings bindingsAll)

theorem bindingsAll_append (xs ys : List Target.Stmt) :
    bindingsAll (xs ++ ys) = bindingsAll xs ++ bindingsAll ys := by
  induction xs with
  | nil => rfl
  | cons s rest ih => rw [List.cons_append, bindingsAll, bindingsAll, ih, List.append_assoc]

theorem bindingsAll_singleton (s : Target.Stmt) : bindingsAll [s] = bindings s := by
  rw [bindingsAll, bindingsAll, List.append_nil]

theorem bindingsAll_orPass (lines : List Target.Stmt) :
    bindingsAll (orPass lines) = bindingsAll lines := by
  cases lines <;> rfl

theorem expressionStatement_bindings {e : Expr} {line : Target.Stmt}
    (h : expressionStatement renames e = .ok line) :
    bindings line = e.stores.map (bind renames) := by
  cases lineOf h with
  | assign hd hm hp hv =>
    rename_i op target value _ _
    have hb := place_bindings hp
    have hr := expr_bindings value hv
    cases op <;> simp [assignLine, bindings, hb, hr, Expr.stores]
  | divide ho hv =>
    -- the variable is read once more, which binds nothing
    simp [bindings, expr_bindings _ hv, Expr.stores, Expr.ownName, Target.Expr.bindings,
      Place.bindings]
  | step hp =>
    rw [bindings, place_bindings hp]
    exact List.append_nil _
  | stepAfter hp =>
    rw [bindings, place_bindings hp]
    exact List.append_nil _
  | value hf => exact expr_bindings e hf

/-- Input is stored to its targets. -/
theorem inputs_bindings (name : String) : ∀ {targets : List Expr} {lines : List Target.Stmt},
    inputs renames targets = .ok lines →
    (name ∈ bindingsAll lines ↔
      name ∈ (targets.flatMap Expr.ownName ++ Expr.storesAll targets).map (bind renames))
  | [], _, h => by
    cases h
    rfl
  | target :: rest, _, h => by
    rw [inputs] at h
    obtain ⟨place, hp, h⟩ := bind_ok h
    obtain ⟨others, ho, h⟩ := bind_ok h
    cases h
    have ih := inputs_bindings name ho
    rw [bindingsAll, bindings, place_bindings hp, List.flatMap_cons, Expr.storesAll, List.mem_append, ih]
    simp only [Target.Expr.bindings, List.append_nil, List.map_append, List.mem_append]
    grind

theorem shown_bindings {part : Expr} {text : Target.Expr} (h : shown renames part = .ok text) :
    text.bindings = part.stores.map (bind renames) := by
  unfold shown at h
  obtain ⟨value, hv, h⟩ := bind_ok h
  split at h
  · cases h
    exact expr_bindings _ hv
  · cases h
    rw [Target.Expr.bindings, expr_bindings _ hv]

theorem pieces_bindings : ∀ {parts : List Expr} {previous : Option Expr}
    {texts : List Target.Expr}, pieces renames previous parts = .ok texts →
    texts.flatMap Target.Expr.bindings = (Expr.storesAll parts).map (bind renames)
  | [], _, _, h => by
    cases h
    rfl
  | part :: rest, previous, _, h => by
    rw [pieces] at h
    obtain ⟨piece, hp, h⟩ := bind_ok h
    obtain ⟨others, ho, h⟩ := bind_ok h
    rw [Expr.storesAll, List.map_append, ← shown_bindings hp, ← pieces_bindings ho]
    split at h
    · cases h
      rfl
    · cases h
      rfl

theorem roundEnd_bindings {update : Option Expr} {ends : List Target.Stmt}
    (h : roundEndStatements renames (updateEnd update) = .ok ends) :
    bindingsAll ends = (Expr.storesAll update.toList).map (bind renames) := by
  cases update with
  | none =>
    cases h
    rfl
  | some e =>
    obtain ⟨line, hl, h⟩ := bind_ok h
    cases h
    rw [bindingsAll_singleton, expressionStatement_bindings hl]
    simp [Expr.storesAll]

/-! ## Statements -/

/-- Whether the end of a round of the loop around a place binds a name. -/
def EndBinds (ctx : Context) (name : String) : Prop :=
  ∃ ends, roundEndStatements ctx.renames ctx.roundEnd = .ok ends ∧ name ∈ bindingsAll ends

/-- The lines bind the given names, and apart from the ends of rounds nothing else. -/
structure Binds (ctx : Context) (names : List String) (lines : List Target.Stmt) : Prop where
  all : ∀ name ∈ names, name ∈ bindingsAll lines
  only : ∀ name ∈ bindingsAll lines, name ∈ names ∨ EndBinds ctx name

namespace Binds

variable {ctx : Context} {names others : List String} {lines more : List Target.Stmt}

theorem of_iff (h : ∀ name, name ∈ bindingsAll lines ↔ name ∈ names) : Binds ctx names lines :=
  ⟨fun name hn => (h name).2 hn, fun name hn => .inl ((h name).1 hn)⟩

theorem nil : Binds ctx [] [] := of_iff fun _ => Iff.rfl

theorem of_inner (h : Binds ctx.inner names lines) : Binds ctx names lines := ⟨h.all, h.only⟩

/-- The end of a round binds the same where each source name gets the same name. -/
theorem of_bind_eq {inside : Context} (h : Binds inside names lines)
    (hb : bind inside.renames = bind ctx.renames) (he : inside.roundEnd = ctx.roundEnd) :
    Binds ctx names lines := by
  refine ⟨h.all, fun name hn => (h.only name hn).imp_right ?_⟩
  rintro ⟨ends, hends, hn⟩
  rw [roundEndStatements_congr hb, he] at hends
  exact ⟨ends, hends, hn⟩

theorem append (h₁ : Binds ctx names lines) (h₂ : Binds ctx others more) :
    Binds ctx (names ++ others) (lines ++ more) := by
  constructor
  · intro name hn
    rw [bindingsAll_append, List.mem_append]
    exact (List.mem_append.1 hn).imp (h₁.all name) (h₂.all name)
  · intro name hn
    rw [bindingsAll_append, List.mem_append] at hn
    rw [List.mem_append]
    rcases hn with hn | hn
    · exact (h₁.only name hn).imp_left .inl
    · exact (h₂.only name hn).imp_left .inr

theorem orPass (h : Binds ctx names lines) : Binds ctx names (orPass lines) :=
  ⟨by rw [bindingsAll_orPass]; exact h.all, by rw [bindingsAll_orPass]; exact h.only⟩

theorem ifElse (h₁ : Binds ctx names lines) (h₂ : Binds ctx others more) (test : Target.Expr)
    (chained : Bool) :
    Binds ctx (test.bindings ++ names ++ others) [.ifElse test lines more chained] := by
  have hb : bindingsAll [.ifElse test lines more chained] =
      test.bindings ++ bindingsAll (lines ++ more) := by
    rw [bindingsAll_singleton, bindings, bindingsAll_append, List.append_assoc]
  have h := h₁.append h₂
  constructor
  · intro name hn
    rw [List.append_assoc, List.mem_append] at hn
    rw [hb, List.mem_append]
    exact hn.imp_right (h.all name)
  · intro name hn
    rw [hb, List.mem_append] at hn
    rw [List.append_assoc, List.mem_append, or_assoc]
    exact hn.imp_right (h.only name)

/-- A loop binds what its test, its body and the end of its rounds bind. -/
theorem loop {inside : Context} {ends : List Target.Stmt} (h : Binds inside names lines)
    (he : roundEndStatements inside.renames inside.roundEnd = .ok ends) (test : Target.Expr) :
    Binds ctx (test.bindings ++ names ++ bindingsAll ends)
      [.whileLoop test (Generate.orPass (lines ++ ends))] := by
  refine of_iff fun name => ?_
  rw [bindingsAll_singleton, bindings, bindingsAll_orPass, bindingsAll_append]
  simp only [List.mem_append]
  constructor
  · rintro (hn | hn | hn)
    · exact .inl (.inl hn)
    · -- what the body binds before a jump is the end of this loop's round
      rcases h.only name hn with hn | ⟨ends', he', hn⟩
      · exact .inl (.inr hn)
      · rw [he] at he'
        cases he'
        exact .inr hn
    · exact .inr hn
  · rintro ((hn | hn) | hn)
    · exact .inl hn
    · exact .inr (.inl (h.all name hn))
    · exact .inr (.inr hn)

theorem congr (h : Binds ctx names lines) (hn : ∀ name, name ∈ names ↔ name ∈ others) :
    Binds ctx others lines :=
  ⟨fun name ho => h.all name ((hn name).2 ho), fun name hl => (h.only name hl).imp_left (hn name).1⟩

end Binds

open Stmt (stored occurrences groupOccurrences optionOccurrences occurrencesAll groupStart)

/-- The generated names at occurrences. -/
def generatedNames (outer : Renames) (found : List Occurrence) : List String :=
  found.map (Occurrence.generated outer)

@[simp] theorem generatedNames_append (outer : Renames) (xs ys : List Occurrence) :
    generatedNames outer (xs ++ ys) = generatedNames outer xs ++ generatedNames outer ys :=
  List.map_append

@[simp] theorem generatedNames_stored (outer loops : Renames) (names : List String) :
    generatedNames outer (stored loops names) = names.map (bind (loops ++ outer)) := by
  rw [generatedNames, stored, List.map_map]
  rfl

theorem group_start {ctx : Context} {count n : Nat} {statements : List Stmt}
    {lines : List Target.Stmt} (h : sequence ctx count statements = .ok (lines, n)) :
    ∃ prototypes functions others,
      (∃ k, group ctx (groupStart count statements .prototypes) .prototypes statements =
        .ok (prototypes, k)) ∧
      (∃ k, group ctx (groupStart count statements .functions) .functions statements =
        .ok (functions, k)) ∧
      (∃ k, group ctx (groupStart count statements .others) .others statements = .ok (others, k)) ∧
      lines = prototypes ++ functions ++ others := by
  obtain ⟨prototypes, n₁, functions, n₂, others, h₁, h₂, h₃, rfl⟩ := arranged_ok h
  have e₁ := group_count statements h₁
  have e₂ := group_count statements h₂
  rw [e₁] at h₂ e₂
  rw [e₂] at h₃
  exact ⟨prototypes, functions, others, ⟨_, h₁⟩, ⟨_, h₂⟩, ⟨_, h₃⟩, rfl⟩

/-- Values that variables start out with bind nothing. -/
theorem defaultValue_bindings (type : String) : (defaultValue type).bindings = [] := by
  unfold defaultValue
  split
  · rfl
  · cases (typeWords type).getLast? with
    | none => rfl
    | some word =>
      show (defaultOf word).bindings = []
      unfold defaultOf
      split <;> rfl

/-- The line of a declaration binds the variable and what its value stores to. -/
theorem declaration_binds (outer : Renames) {type name : String} {initializer : Option Expr}
    {own : Role} {loops : Renames} {ctx around : Context} {count n : Nat} {lines : List Target.Stmt}
    (ho : own ≠ .defined) (h : stmt ctx count (.declaration type name initializer) = .ok (lines, n))
    (hr : ctx.renames = loops ++ outer) :
    Binds around (generatedNames outer
      ((Stmt.declaration type name initializer).occurrences own loops count)) lines := by
  obtain ⟨-, value, rfl, hv⟩ := stmt_declaration_ok h
  have hs : value.bindings = (Expr.storesAll initializer.toList).map (bind (loops ++ outer)) := by
    rcases hv with ⟨rfl, rfl⟩ | ⟨e, rfl, he⟩
    · exact defaultValue_bindings type
    · rw [expr_bindings e he, hr]
      simp [Expr.storesAll]
  have hg : Occurrence.generated outer ⟨name, own, loops⟩ = bind ctx.renames name := by
    rw [hr]
    cases own with
    | defined => exact absurd rfl ho
    | declared | counter | stored => rfl
  refine .of_iff fun x => ?_
  rw [occurrences, bindingsAll_singleton, bindings, hs, ← generatedNames_stored, ← hg]
  rfl

mutual

/-- The lines of a statement bind the generated names at its occurrences. -/
theorem stmt_binds (outer : Renames) : ∀ (s : Stmt) (own : Role) {loops : Renames} {ctx : Context}
    {count n : Nat} {lines : List Target.Stmt}, own ≠ .defined →
    stmt ctx count s = .ok (lines, n) → ctx.renames = loops ++ outer →
    Binds ctx (generatedNames outer (s.occurrences own loops count)) lines
  | .header _, _, _, _, _, _, _, _, h, _ | .usingSpace _, _, _, _, _, _, _, _, h, _
  | .breakLoop, _, _, _, _, _, _, _, h, _ | .prototype _ _ _, _, _, _, _, _, _, _, h, _ => by
    rw [stmt] at h
    cases h
    exact .of_iff fun _ => Iff.rfl
  | .function _ _ _ _, _, _, _, _, _, _, _, h, _ => by
    obtain ⟨inside, -, rfl⟩ := stmt_function_ok h
    exact .of_iff fun _ => Iff.rfl
  | .declaration _ _ _, _, _, _, _, _, _, ho, h, hr => declaration_binds outer ho h hr
  | .block statements, _, _, _, _, _, _, _, h, hr => by
    rw [stmt_block_eq] at h
    obtain ⟨prototypes, functions, others, ⟨_, h₁⟩, ⟨_, h₂⟩, ⟨_, h₃⟩, rfl⟩ := group_start h
    rw [occurrences, generatedNames_append, generatedNames_append]
    exact ((group_binds outer statements h₁ hr).append (group_binds outer statements h₂ hr)).append
      (group_binds outer statements h₃ hr)
  | .input targets, _, _, _, _, _, _, _, h, hr => by
    obtain ⟨-, hi⟩ := stmt_input_ok h
    refine .of_iff fun name => ?_
    rw [inputs_bindings name hi, occurrences, generatedNames_stored, hr]
  | .print parts, _, _, _, _, _, _, _, h, hr => by
    rcases stmt_print_ok h with ⟨-, ⟨rfl, rfl⟩ | ⟨texts, ht, rfl⟩⟩
    · exact .nil
    · refine .of_iff fun name => ?_
      rw [bindingsAll_singleton, bindings, pieces_bindings ht, occurrences, generatedNames_stored, hr]
  | .ifElse condition thenStmt elseStmt, _, _, _, _, _, _, _, h, hr => by
    obtain ⟨test, first, k, second, chained, ht, hf, ha, rfl⟩ := stmt_ifElse_ok h
    obtain rfl := stmt_count thenStmt hf
    have h₁ := (stmt_binds outer thenStmt .declared (by decide) hf hr).of_inner
    have h₂ := alternative_binds outer elseStmt ha hr
    rw [occurrences, generatedNames_append, generatedNames_append, generatedNames_stored, ← hr,
      ← expr_bindings condition ht]
    exact h₁.orPass.ifElse h₂ test chained
  | .whileLoop condition body, _, _, ctx, _, _, _, _, h, hr => by
    obtain ⟨test, inside, ht, hi, rfl⟩ := stmt_whileLoop_ok h
    have hb := stmt_binds outer body .declared (by decide) hi hr
    -- the rounds of this loop end with nothing
    have hl : Binds ctx _ [.whileLoop test (orPass (inside ++ []))] := hb.loop rfl test
    rw [occurrences, generatedNames_append, generatedNames_stored, ← hr, ← expr_bindings condition ht]
    rw [List.append_nil] at hl
    exact hl.congr fun name => by simp [bindingsAll]
  | .doLoop condition body, _, _, ctx, _, _, _, _, h, hr => by
    obtain ⟨test, inside, ht, hi, rfl⟩ := stmt_doLoop_ok h
    have hb := stmt_binds outer body .declared (by decide) hi hr
    have hl : Binds ctx _ [.whileLoop (.bool true) (orPass (inside ++ [.leaveUnless test]))] :=
      hb.loop rfl (.bool true)
    rw [occurrences, generatedNames_append, generatedNames_stored, ← hr, ← expr_bindings condition ht]
    exact hl.congr fun name => by
      simp [bindingsAll, bindings, Target.Expr.bindings, or_comm]
  | .forLoop init condition update body, _, loops, ctx, count, _, _, _, h, hr => by
    obtain ⟨before, k, test, inside, ends, hi, ht, hb, he, rfl⟩ := stmt_forLoop_ok h
    obtain rfl := optional_count init hi
    -- all parts of the loop, its initializer too, stand under the names that it introduces
    have hr' : (ctx.inFor init count).renames =
        (loopRenames init (countLoop init count) :: loops) ++ outer := by
      rw [List.cons_append, ← hr]
      rfl
    have h₁ := init_binds outer init hi hr'
    have h₂ := stmt_binds outer body .declared (by decide) hb hr'
    have hl : Binds ctx _ [.whileLoop test (orPass (inside ++ ends))] := h₂.loop he test
    rw [roundEnd_bindings he, expr_bindings condition ht, hr'] at hl
    rw [occurrences]
    refine (h₁.append hl).congr fun name => ?_
    simp only [generatedNames_append, generatedNames_stored, List.map_append, List.mem_append]
    grind
  | .ret value, _, _, _, _, _, _, _, h, hr => by
    rcases stmt_ret_ok h with ⟨-, ⟨rfl, rfl⟩ | ⟨e, result, rfl, he, rfl⟩⟩
    · exact .of_iff fun _ => Iff.rfl
    · refine .of_iff fun name => ?_
      rw [bindingsAll_singleton, occurrences, generatedNames_stored, ← hr]
      simp [bindings, Expr.storesAll, expr_bindings e he]
  | .continueLoop, _, _, _, _, _, _, _, h, hr => by
    -- the one form of statement that binds more than occurs in it
    obtain ⟨-, ends, he, rfl⟩ := stmt_continueLoop_ok h
    refine ⟨nofun, fun name hn => .inr ⟨ends, he, ?_⟩⟩
    simpa [bindingsAll_append, bindingsAll, bindings] using hn
  | .expression e, _, _, _, _, _, _, _, h, hr => by
    obtain ⟨-, line, hl, rfl⟩ := stmt_expression_ok h
    refine .of_iff fun name => ?_
    rw [bindingsAll_singleton, expressionStatement_bindings hl, occurrences, generatedNames_stored, hr]

theorem alternative_binds (outer : Renames) : ∀ (s : Option Stmt) {loops : Renames} {ctx : Context}
    {count n : Nat} {lines : List Target.Stmt} {chained : Bool},
    alternative ctx count s = .ok (lines, chained, n) → ctx.renames = loops ++ outer →
    Binds ctx (generatedNames outer (optionOccurrences .declared loops count s)) lines
  | none, _, _, _, _, _, _, h, _ => by
    rw [alternative] at h
    cases h
    exact .nil
  | some s, _, _, _, _, _, _, h, hr => by
    rcases alternative_some_ok h with ⟨hs, -⟩ | ⟨-, body, hs, rfl⟩
    · exact stmt_binds outer s .declared (by decide) hs hr
    · exact (stmt_binds outer s .declared (by decide) hs hr).of_inner.orPass

/-- The initializer of a `for` loop stands under the names of the loop, and the end of a round in it
belongs to the loop around. -/
theorem init_binds (outer : Renames) : ∀ (init : Option Stmt) {loops : Renames} {ctx : Context}
    {count n : Nat} {lines : List Target.Stmt},
    optional (ctx.inFor init count) (countLoop init count) init = .ok (lines, n) →
    (ctx.inFor init count).renames = loops ++ outer →
    Binds ctx (generatedNames outer
      (optionOccurrences .counter loops (countLoop init count) init)) lines
  | none, _, _, _, _, _, h, _ => by
    rw [optional] at h
    cases h
    exact .nil
  | some s, _, ctx, count, _, _, h, hr => by
    rw [optional] at h
    rcases declares_or_bind_inFor s ctx count with ⟨type, name, initializer, rfl⟩ | hb
    · -- a declaration has no jumps, so it does not matter which round it is in
      exact declaration_binds outer (by decide) h hr
    · exact (stmt_binds outer s .counter (by decide) h hr).of_bind_eq hb rfl

theorem group_binds (outer : Renames) : ∀ (statements : List Stmt) {loops : Renames} {ctx : Context}
    {count n : Nat} {which : Group} {lines : List Target.Stmt},
    group ctx count which statements = .ok (lines, n) → ctx.renames = loops ++ outer →
    Binds ctx (generatedNames outer (groupOccurrences loops count which statements)) lines
  | [], _, _, _, _, _, _, h, _ => by
    rw [group] at h
    cases h
    exact .nil
  | s :: rest, _, _, _, _, which, _, h, hr => by
    rw [groupOccurrences]
    rcases group_cons_ok h with ⟨rfl, first, k, others, hs, hg, rfl⟩ | ⟨hw, hg⟩
    · obtain rfl := stmt_count s hs
      rw [if_pos (beq_self_eq_true _), generatedNames_append]
      exact (stmt_binds outer s .declared (by decide) hs hr).append (group_binds outer rest hg hr)
    · rw [if_neg (by simpa using hw)]
      exact group_binds outer rest hg hr

end

/-- Outside loops, a sequence binds exactly the generated names at its occurrences. -/
theorem sequence_bindings {ctx : Context} {count n : Nat} {statements : List Stmt}
    {lines : List Target.Stmt} (h : sequence ctx count statements = .ok (lines, n))
    (he : ctx.roundEnd = .nothing) (name : String) : name ∈ bindingsAll lines ↔
      name ∈ generatedNames ctx.renames (occurrencesAll [] count statements) := by
  rw [← stmt_block_eq] at h
  have hb := stmt_binds ctx.renames (.block statements) .declared (by decide) h (List.nil_append _).symm
  refine ⟨fun hn => ?_, hb.all name⟩
  rcases hb.only name hn with hn | ⟨ends, hends, hn⟩
  · exact hn
  · rw [he] at hends
    cases hends
    cases hn

end ConsoleCpp.Generate

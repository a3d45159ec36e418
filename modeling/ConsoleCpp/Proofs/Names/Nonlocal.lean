/-
Which variables of the functions around it a function names as not its own. The functions of a
program and the definitions generated for them come in the same order, and the names that a
definition lists are those that its function stores to, does not bind, and finds among the names of
a function around it. Here a `for` loop counts as binding the variable it declares, although it is
generated under a name of its own: so a function with such a loop does not list the variable of that
name that it also stores to outside the loop, and a function may list a variable that only such a
loop around it declares. The second case is bound exactly if some text around binds the name.
-/
import ConsoleCpp.Proofs.Names.Bindings
import ConsoleCpp.Target.Check
import Mathlib.Data.List.Forall2

namespace ConsoleCpp

/-! ## Definitions in generated text -/

namespace Target

/-- A definition in generated text: its head, the names it says are not its own, and the variables
of all the functions around it. -/
structure Definition where
  header : Header
  nonlocals : List String
  around : List String
deriving Inhabited

namespace Stmt

mutual

/-- The definitions in a statement, in the order of the text. `around` holds the variables of the
functions around the statement. -/
def definitions (around : List String) : Stmt → List Definition
  | .define header nonlocals body =>
    ⟨header, nonlocals, around⟩ ::
      definitionsAll (localNames header.params nonlocals body ++ around) body
  | .ifElse _ thenSuite elseSuite _ =>
    definitionsAll around thenSuite ++ definitionsAll around elseSuite
  | .whileLoop _ body => definitionsAll around body
  | .assign _ _ | .augment _ _ _ | .eval _ | .print _ | .unimplemented _ | .leaveUnless _ | .ret _
  | .breakLoop | .continueLoop | .pass => []

def definitionsAll (around : List String) : List Stmt → List Definition
  | [] => []
  | s :: rest => definitions around s ++ definitionsAll around rest

end

end Stmt

/-- The definitions in a program, in the order of its text. -/
def Program.definitions (p : Program) : List Definition :=
  Stmt.definitionsAll p.locals (p.stubs ++ p.body)

end Target

/-! ## Functions in source text -/

open Generate (Renames countLoop loopRenames groupOf)
open Target (safeName)

/-- The parameters and the body of a function, with the names that the loops around it introduce and
the number of declaring loops before it. -/
structure Frame where
  params : List Parameter
  body : List Stmt
  renames : Renames
  count : Nat
deriving Inhabited

namespace Frame

/-- The names that count as bound by a function. -/
def names (f : Frame) : List String := f.params.map Parameter.name ++ declaredNames f.body

/-- The occurrences of names in a function. -/
def occurrences (f : Frame) : List Occurrence := Stmt.occurrencesAll [] f.count f.body

/-- Whether a function has a parameter of this name or declares it, other than by a `for` loop. -/
def Declares (f : Frame) (name : String) : Prop :=
  name ∈ f.params.map Parameter.name ∨
    ∃ o ∈ f.occurrences, (o.role = .declared ∨ o.role = .defined) ∧ o.name = name

/-- Whether a `for` loop of a function declares this name. -/
def Counts (f : Frame) (name : String) : Prop :=
  ∃ o ∈ f.occurrences, o.role = .counter ∧ o.name = name

/-- Whether a function stores to a variable of this name outside the loops that declare it. -/
def Stores (f : Frame) (name : String) : Prop :=
  ∃ o ∈ f.occurrences, o.role = .stored ∧ o.name = name ∧ ∀ loop ∈ o.loops, name ∉ loop.map Prod.fst

instance (f : Frame) (name : String) : Decidable (f.Declares name) :=
  inferInstanceAs (Decidable (_ ∨ ∃ o ∈ f.occurrences, _))

instance (f : Frame) (name : String) : Decidable (f.Counts name) :=
  inferInstanceAs (Decidable (∃ o ∈ f.occurrences, _))

instance (f : Frame) (name : String) : Decidable (f.Stores name) :=
  inferInstanceAs (Decidable (∃ o ∈ f.occurrences, _))

/-- The generated names that a function says belong to the functions around it. -/
def nonlocals (around : List Frame) (f : Frame) : List String :=
  (Generate.nonlocals (around.map names) f.params f.body).map (Generate.bind f.renames)

/-- The generated names of the variables of a function: its parameters, and what occurs in it and is
not said to belong to a function around it. -/
def locals (around : List Frame) (f : Frame) : List String :=
  f.params.map (fun p => safeName p.name) ++
    (Generate.generatedNames f.renames f.occurrences).filter fun name =>
      !(f.nonlocals around).contains name

/-- The generated names of the variables of functions inside each other, innermost first. -/
def localsAll : List Frame → List String
  | [] => []
  | f :: around => f.locals around ++ localsAll around

end Frame

/-- A function of a program and the functions around it, innermost first. The outermost one is the
top level. -/
structure Function where
  name : String
  frame : Frame
  around : List Frame
deriving Inhabited

namespace Stmt

mutual

/-- The functions and prototypes in a statement, in the order in which they are generated. A
prototype has an empty body. -/
def functions (around : List Frame) (renames : Renames) (count : Nat) : Stmt → List Function
  | .prototype _ name params => [⟨name, ⟨params, [], renames, count⟩, around⟩]
  | .function _ name params body =>
    ⟨name, ⟨params, body, renames, count⟩, around⟩ ::
      (groupFunctions (⟨params, body, renames, count⟩ :: around) renames
          (groupStart count body .prototypes) .prototypes body ++
        groupFunctions (⟨params, body, renames, count⟩ :: around) renames
          (groupStart count body .functions) .functions body ++
        groupFunctions (⟨params, body, renames, count⟩ :: around) renames
          (groupStart count body .others) .others body)
  | .block statements =>
    groupFunctions around renames (groupStart count statements .prototypes) .prototypes statements ++
      groupFunctions around renames (groupStart count statements .functions) .functions statements ++
      groupFunctions around renames (groupStart count statements .others) .others statements
  | .ifElse _ thenStmt elseStmt =>
    functions around renames count thenStmt ++
      optionFunctions around renames (count + thenStmt.declaringLoops) elseStmt
  | .whileLoop _ body | .doLoop _ body => functions around renames count body
  | .forLoop init _ _ body =>
    let count := countLoop init count
    let renames := loopRenames init count :: renames
    optionFunctions around renames count init ++
      functions around renames (count + declaringLoopsOption init) body
  | .header _ | .usingSpace _ | .declaration _ _ _ | .input _ | .print _ | .ret _ | .breakLoop
  | .continueLoop | .expression _ => []

/-- The functions in the statements of one group. -/
def groupFunctions (around : List Frame) (renames : Renames) (count : Nat) (which : Generate.Group) :
    List Stmt → List Function
  | [] => []
  | s :: rest =>
    if groupOf s == which then
      functions around renames count s ++
        groupFunctions around renames (count + s.declaringLoops) which rest
    else groupFunctions around renames count which rest

def optionFunctions (around : List Frame) (renames : Renames) (count : Nat) :
    Option Stmt → List Function
  | none => []
  | some s => functions around renames count s

end

/-- The functions in a sequence of statements. -/
def functionsAll (around : List Frame) (renames : Renames) (count : Nat) (statements : List Stmt) :
    List Function :=
  functions around renames count (.block statements)

end Stmt

/-! ## Programs -/

/-- The prototypes among statements. -/
def prototypes (statements : List Stmt) : List Stmt :=
  statements.filter fun s => groupOf s == .prototypes

/-- The statements at the top level of a program, where those of a program without a main function
are the body of one. -/
def topStatements (statements : List Stmt) : List Stmt :=
  if Generate.needsImplicitMain statements then
    prototypes statements ++ [.function "" "main" [] (Generate.withoutPrototypes statements)]
  else statements

/-- The top level of a program as a function. A main function that the program does not define is
not counted as declared there. -/
def topFrame (statements : List Stmt) : Frame :=
  ⟨[], if Generate.needsImplicitMain statements then prototypes statements else statements, [], 0⟩

/-- The functions of a program, in the order in which they are generated. -/
def programFunctions (statements : List Stmt) : List Function :=
  Stmt.functionsAll [topFrame statements] [] 0 (topStatements statements)

end ConsoleCpp

namespace ConsoleCpp.Generate

open Target (Definition)
open Target.Stmt (definitions definitionsAll)
open Stmt (functions groupFunctions optionFunctions functionsAll groupStart groupOccurrences
  occurrencesAll)

/-! ## Functions and their definitions -/

/-- The definition generated for a function: its head, the names it lists, and that exactly the
variables of the functions around it, and the main function, are bound around it. -/
structure Defines (f : Function) (d : Definition) : Prop where
  header : d.header = Generate.header f.name f.frame.params
  nonlocals : d.nonlocals = f.frame.nonlocals f.around
  around : ∀ name, name ∈ d.around ↔ name = "main" ∨ name ∈ Frame.localsAll f.around

theorem definitionsAll_append (around : List String) (xs ys : List Target.Stmt) :
    definitionsAll around (xs ++ ys) = definitionsAll around xs ++ definitionsAll around ys := by
  induction xs with
  | nil => rfl
  | cons s rest ih => rw [List.cons_append, definitionsAll, definitionsAll, ih, List.append_assoc]

theorem definitionsAll_singleton (around : List String) (s : Target.Stmt) :
    definitionsAll around [s] = definitions around s := by
  rw [definitionsAll, definitionsAll, List.append_nil]

theorem definitionsAll_orPass (around : List String) (lines : List Target.Stmt) :
    definitionsAll around (orPass lines) = definitionsAll around lines := by
  cases lines <;> rfl

theorem definitionsAll_straight (around : List String) : ∀ {lines : List Target.Stmt},
    lines.all isStraight = true → definitionsAll around lines = []
  | [], _ => rfl
  | s :: rest, h => by
    rw [List.all_cons, Bool.and_eq_true] at h
    rw [definitionsAll, definitionsAll_straight around h.2]
    cases s <;> first | rfl | cases h.1

/-- The end of a round defines nothing. -/
theorem definitionsAll_roundEnd (around : List String) {renames : Renames} {ending : RoundEnd}
    {ends : List Target.Stmt} (h : roundEndStatements renames ending = .ok ends) :
    definitionsAll around ends = [] := by
  cases ending with
  | nothing | leaveUnless _ =>
    cases h
    rfl
  | update e =>
    obtain ⟨line, hl, h⟩ := bind_ok h
    cases h
    exact definitionsAll_straight around (by simp [expressionStatement_straight hl])

/-- The context of statements inside these functions, where the variables of the functions, and the
main function, are what is bound around. -/
structure Inside (ctx : Context) (around : List Frame) (bound : List String) : Prop where
  scopes : ctx.scopes = around.map Frame.names
  bound : ∀ name, name ∈ bound ↔ name = "main" ∨ name ∈ Frame.localsAll around

theorem mem_nonlocals {scopes : List (List String)} {params : List Parameter} {body : List Stmt}
    {name : String} : name ∈ nonlocals scopes params body ↔
      name ∈ assignedNames body ∧ name ∉ params.map Parameter.name ++ declaredNames body ∧
        ∃ scope ∈ scopes, name ∈ scope := by
  simp [nonlocals, sortedNames]

/-- A function without a body lists nothing. -/
theorem nonlocals_nil (around : List Frame) (params : List Parameter) (renames : Renames)
    (count : Nat) : Frame.nonlocals around ⟨params, [], renames, count⟩ = [] := by
  have hn : nonlocals (around.map Frame.names) params [] = [] := by
    refine List.eq_nil_iff_forall_not_mem.2 fun name hm => ?_
    obtain ⟨o, ho, -⟩ := (mem_assignedNames [] [] 0 name).1 (mem_nonlocals.1 hm).1
    cases ho
  rw [Frame.nonlocals, hn]
  rfl

theorem mem_localNames {params nonlocals : List String} {body : List Target.Stmt} {name : String} :
    name ∈ Target.localNames params nonlocals body ↔
      name ∈ params ∨ (name ∈ Target.Stmt.bindingsAll body ∧ name ∉ nonlocals) := by
  simp [Target.localNames]

namespace Inside

variable {ctx : Context} {around : List Frame} {bound : List String}

theorem inner (h : Inside ctx around bound) : Inside ctx.inner around bound := ⟨h.scopes, h.bound⟩

theorem inLoop (h : Inside ctx around bound) (ending : RoundEnd) :
    Inside (ctx.inLoop ending) around bound := ⟨h.scopes, h.bound⟩

theorem inFor (h : Inside ctx around bound) (init : Option Stmt) (count : Nat) :
    Inside (ctx.inFor init count) around bound := ⟨h.scopes, h.bound⟩

/-- Inside a function, its variables are bound around as well. -/
theorem inFunction {params : List Parameter} {body : List Stmt} {count n : Nat}
    {inside : List Target.Stmt} (h : Inside ctx around bound)
    (hs : sequence (ctx.inFunction params body).inner count body = .ok (inside, n)) :
    Inside (ctx.inFunction params body).inner (⟨params, body, ctx.renames, count⟩ :: around)
      (Target.localNames (params.map fun p => Target.safeName p.name)
        ((nonlocals ctx.scopes params body).map (bind ctx.renames)) (orPass inside) ++ bound) := by
  constructor
  · show _ :: ctx.scopes = _
    rw [h.scopes]
    rfl
  · intro name
    have hb := sequence_bindings hs rfl name
    rw [List.mem_append, mem_localNames, bindingsAll_orPass, hb, h.bound, h.scopes, Frame.localsAll,
      List.mem_append, Frame.locals, List.mem_append, List.mem_filter, Bool.not_eq_true',
      List.contains_eq_mem, decide_eq_false_iff_not]
    exact or_left_comm

end Inside

mutual

/-- The definitions in the lines of a statement are those of its functions. -/
theorem stmt_defines : ∀ (s : Stmt) {ctx : Context} {count n : Nat} {lines : List Target.Stmt}
    {around : List Frame} {bound : List String}, stmt ctx count s = .ok (lines, n) →
    Inside ctx around bound →
    List.Forall₂ Defines (s.functions around ctx.renames count) (definitionsAll bound lines)
  | .header _, _, _, _, _, _, _, h, _ | .usingSpace _, _, _, _, _, _, _, h, _
  | .declaration _ _ _, _, _, _, _, _, _, h, _ | .input _, _, _, _, _, _, _, h, _
  | .print _, _, _, _, _, _, _, h, _ | .expression _, _, _, _, _, _, _, h, _ => by
    rw [definitionsAll_straight _ (simple_straight rfl h)]
    exact .nil
  | .prototype _ name params, ctx, count, _, _, _, bound, h, hi => by
    rw [stmt] at h
    cases h
    exact .cons ⟨rfl, (nonlocals_nil _ _ _ _).symm, hi.bound⟩ .nil
  | .function _ name params body, _, _, _, _, _, _, h, hi => by
    obtain ⟨inside, hs, rfl⟩ := stmt_function_ok h
    rw [definitionsAll_singleton, definitions, functions, definitionsAll_orPass]
    refine .cons ⟨rfl, ?_, hi.bound⟩ ?_
    · rw [hi.scopes]
      rfl
    · -- the functions in the body see one more frame, and its variables as bound
      have hf := hi.inFunction hs
      obtain ⟨prototypes, fns, others, ⟨_, h₁⟩, ⟨_, h₂⟩, ⟨_, h₃⟩, rfl⟩ := group_start hs
      have h₁ := group_defines body h₁ hf
      have h₂ := group_defines body h₂ hf
      have h₃ := group_defines body h₃ hf
      rw [definitionsAll_append, definitionsAll_append]
      exact List.rel_append (List.rel_append h₁ h₂) h₃
  | .block statements, _, _, _, _, _, _, h, hi => by
    rw [stmt_block_eq] at h
    obtain ⟨prototypes, fns, others, ⟨_, h₁⟩, ⟨_, h₂⟩, ⟨_, h₃⟩, rfl⟩ := group_start h
    rw [definitionsAll_append, definitionsAll_append, functions]
    exact List.rel_append (List.rel_append (group_defines statements h₁ hi)
      (group_defines statements h₂ hi)) (group_defines statements h₃ hi)
  | .ifElse _ thenStmt elseStmt, _, _, _, _, _, _, h, hi => by
    obtain ⟨test, first, k, second, chained, -, hf, ha, rfl⟩ := stmt_ifElse_ok h
    obtain rfl := stmt_count thenStmt hf
    rw [definitionsAll_singleton, definitions, definitionsAll_orPass, functions]
    have h₁ := stmt_defines thenStmt hf hi.inner
    exact List.rel_append h₁ (alternative_defines elseStmt ha hi)
  | .whileLoop _ body, _, _, _, _, _, _, h, hi => by
    obtain ⟨test, inside, -, hb, rfl⟩ := stmt_whileLoop_ok h
    have h₁ := stmt_defines body hb (hi.inLoop _).inner
    rw [definitionsAll_singleton, definitions, definitionsAll_orPass, functions]
    exact h₁
  | .doLoop _ body, _, _, _, _, _, _, h, hi => by
    obtain ⟨test, inside, -, hb, rfl⟩ := stmt_doLoop_ok h
    have h₁ := stmt_defines body hb (hi.inLoop _).inner
    rw [definitionsAll_singleton, definitions, definitionsAll_orPass, definitionsAll_append, functions,
      definitionsAll_singleton, definitions, List.append_nil]
    exact h₁
  | .forLoop init _ _ body, _, _, _, _, _, _, h, hi => by
    obtain ⟨before, k, test, inside, ends, hb, -, hs, he, rfl⟩ := stmt_forLoop_ok h
    obtain rfl := optional_count init hb
    have h₁ := optional_defines init hb (hi.inFor init _)
    have h₂ := stmt_defines body hs ((hi.inFor init _).inLoop _).inner
    rw [definitionsAll_append, definitionsAll_singleton, definitions, definitionsAll_orPass,
      definitionsAll_append, definitionsAll_roundEnd _ he, List.append_nil, functions]
    exact List.rel_append h₁ h₂
  | .ret _, _, _, _, _, _, _, h, _ => by
    rcases stmt_ret_ok h with ⟨-, ⟨-, rfl⟩ | ⟨e, result, -, -, rfl⟩⟩ <;> exact .nil
  | .breakLoop, _, _, _, _, _, _, h, _ => by
    rw [stmt] at h
    cases h
    exact .nil
  | .continueLoop, _, _, _, _, _, _, h, _ => by
    obtain ⟨-, ends, he, rfl⟩ := stmt_continueLoop_ok h
    rw [definitionsAll_append, definitionsAll_roundEnd _ he]
    exact .nil

theorem alternative_defines : ∀ (s : Option Stmt) {ctx : Context} {count n : Nat}
    {lines : List Target.Stmt} {chained : Bool} {around : List Frame} {bound : List String},
    alternative ctx count s = .ok (lines, chained, n) → Inside ctx around bound →
    List.Forall₂ Defines (optionFunctions around ctx.renames count s) (definitionsAll bound lines)
  | none, _, _, _, _, _, _, _, h, _ => by
    rw [alternative] at h
    cases h
    exact .nil
  | some s, _, _, _, _, _, _, _, h, hi => by
    rcases alternative_some_ok h with ⟨hs, -⟩ | ⟨-, body, hs, rfl⟩
    · exact stmt_defines s hs hi
    · have h₁ := stmt_defines s hs hi.inner
      rw [definitionsAll_orPass]
      exact h₁

theorem optional_defines : ∀ (s : Option Stmt) {ctx : Context} {count n : Nat}
    {lines : List Target.Stmt} {around : List Frame} {bound : List String},
    optional ctx count s = .ok (lines, n) → Inside ctx around bound →
    List.Forall₂ Defines (optionFunctions around ctx.renames count s) (definitionsAll bound lines)
  | none, _, _, _, _, _, _, h, _ => by
    rw [optional] at h
    cases h
    exact .nil
  | some s, _, _, _, _, _, _, h, hi => by
    rw [optional] at h
    exact stmt_defines s h hi

theorem group_defines : ∀ (statements : List Stmt) {ctx : Context} {count n : Nat} {which : Group}
    {lines : List Target.Stmt} {around : List Frame} {bound : List String},
    group ctx count which statements = .ok (lines, n) → Inside ctx around bound →
    List.Forall₂ Defines (groupFunctions around ctx.renames count which statements)
      (definitionsAll bound lines)
  | [], _, _, _, _, _, _, _, h, _ => by
    rw [group] at h
    cases h
    exact .nil
  | s :: rest, _, _, _, _, _, _, _, h, hi => by
    rw [groupFunctions]
    rcases group_cons_ok h with ⟨rfl, first, k, others, hs, hg, rfl⟩ | ⟨hw, hg⟩
    · obtain rfl := stmt_count s hs
      rw [if_pos (beq_self_eq_true _), definitionsAll_append]
      exact List.rel_append (stmt_defines s hs hi) (group_defines rest hg hi)
    · rw [if_neg (by simpa using hw)]
      exact group_defines rest hg hi

end

/-! ## Top level -/

section

variable {ctx : Context} {count : Nat}

theorem group_prototypes : ∀ statements : List Stmt,
    group ctx count .prototypes statements = .ok (stubs statements, count)
  | [] => by rw [group]; rfl
  | s :: rest => by
    have ih := group_prototypes rest
    cases s with
    | prototype returnType name params =>
      simp only [group, groupOf, beq_self_eq_true, if_true, stmt]
      show (group ctx count .prototypes rest >>= _) = _
      rw [ih]
      rfl
    | _ =>
      rw [group, if_neg (by simp [groupOf]), ih]
      rfl

theorem group_absent {which : Group} : ∀ {statements : List Stmt},
    (∀ s ∈ statements, groupOf s ≠ which) → group ctx count which statements = .ok ([], count)
  | [], _ => by rw [group]
  | s :: rest, h => by
    rw [group, if_neg (by simpa using h s (by simp))]
    exact group_absent fun s hs => h s (by simp [hs])

theorem sequence_of_groups {statements : List Stmt} {n₁ n₂ n : Nat}
    {prototypes functions others : List Target.Stmt}
    (h₁ : group ctx count .prototypes statements = .ok (prototypes, n₁))
    (h₂ : group ctx n₁ .functions statements = .ok (functions, n₂))
    (h₃ : group ctx n₂ .others statements = .ok (others, n)) :
    sequence ctx count statements = .ok (prototypes ++ functions ++ others, n) := by
  unfold sequence arranged
  simp only [h₁]
  show (group ctx n₁ .functions statements >>= _) = _
  rw [h₂]
  show (group ctx n₂ .others statements >>= _) = _
  rw [h₃]
  rfl

/-- Statements of other groups make no difference. -/
theorem group_filter {which : Group} {keep : Stmt → Bool}
    (hk : ∀ s, groupOf s = which → keep s = true) : ∀ (statements : List Stmt) (count : Nat),
    group ctx count which (statements.filter keep) = group ctx count which statements
  | [], _ => rfl
  | s :: rest, count => by
    by_cases hw : groupOf s = which
    · simp only [List.filter_cons, hk s hw, if_true, group, group_filter hk rest]
    · have hg : ¬ (groupOf s == which) = true := by simpa using hw
      rw [List.filter_cons]
      split
      · simp only [group, if_neg hg, group_filter hk rest]
      · rw [group, if_neg hg, group_filter hk rest]

end

theorem declaredNames_prototypes (statements : List Stmt) :
    declaredNames (prototypes statements) = prototypeNames statements := by
  rw [declaredNames_eq]
  induction statements with
  | nil => exact Node.namesFrom_nil
  | cons s rest ih =>
    cases s with
    | prototype returnType name params =>
      show Node.namesFrom false ([.stmt (.prototype returnType name params)] ++
        (prototypes rest).map .stmt) = name :: prototypeNames rest
      rw [Node.namesFrom_append, Node.namesFrom_node, ih]
      show ([name] ++ Node.namesFrom false (params.map .param)) ++ _ = _
      rw [Node.namesFrom_params]
      rfl
    | _ => exact ih

theorem groupOf_prototypes {statements : List Stmt} {s : Stmt} (h : s ∈ prototypes statements) :
    groupOf s = .prototypes := by
  simpa using (List.mem_filter.1 h).2

/-- The one function after prototypes is all there is of its group. -/
theorem group_function {ctx : Context} {count n : Nat} {statements body : List Stmt}
    {lines : List Target.Stmt} (h : stmt ctx count (.function "" "main" [] body) = .ok (lines, n)) :
    group ctx count .functions (prototypes statements ++ [.function "" "main" [] body]) =
      .ok (lines, n) := by
  have hf : (prototypes statements ++ [Stmt.function "" "main" [] body]).filter
      (fun s => groupOf s == Group.functions) = [.function "" "main" [] body] := by
    have hp : (prototypes statements).filter (fun s => groupOf s == .functions) = [] := by
      rw [List.filter_eq_nil_iff]
      intro s hs
      simp [groupOf_prototypes hs]
    rw [List.filter_append, hp]
    rfl
  rw [← group_filter (fun s hs => beq_iff_eq.2 hs), hf]
  simp only [group, groupOf, beq_self_eq_true, if_true, h]
  show Except.ok (lines ++ [], n) = _
  rw [List.append_nil]

theorem stubs_append_function (statements body : List Stmt) :
    stubs (prototypes statements ++ [.function "" "main" [] body]) = stubs statements := by
  induction statements with
  | nil => rfl
  | cons s rest ih =>
    cases s with
    | prototype returnType name params => exact congrArg (stub name params :: ·) ih
    | _ => exact ih

/-- A program is its top level in sequence, in the context of the names bound there. -/
theorem program_ok {statements : List Stmt} {p : Target.Program} (h : program statements = .ok p) :
    ∃ n, sequence (programContext (topFrame statements).names) 0 (topStatements statements) =
      .ok (p.stubs ++ p.body, n) := by
  have hk : ∀ which ≠ Group.prototypes, ∀ s, groupOf s = which →
      (groupOf s != .prototypes) = true := by
    rintro which hw s rfl
    simpa using hw
  unfold program at h
  unfold topFrame topStatements Frame.names
  split at h
  · rename_i hm
    obtain ⟨⟨body, n⟩, hb, h⟩ := bind_ok h
    cases h
    -- without a main function, all but the prototypes is the body of one
    rw [if_pos hm, if_pos hm, List.map_nil, List.nil_append, declaredNames_prototypes]
    refine ⟨n, ?_⟩
    have hs : stubs statements ++ body = stubs (prototypes statements ++
        [.function "" "main" [] (withoutPrototypes statements)]) ++ body ++ [] := by
      rw [stubs_append_function, List.append_nil]
    show _ = Except.ok (stubs statements ++ body, n)
    rw [hs]
    refine sequence_of_groups (group_prototypes _) (group_function ?_) (group_absent ?_)
    · rw [stmt]
      exact hb
    · intro s hs
      rcases List.mem_append.1 hs with hs | hs
      · simp [groupOf_prototypes hs]
      · cases List.mem_singleton.1 hs
        simp [groupOf]
  · rename_i hm
    obtain ⟨⟨body, n⟩, hb, h⟩ := bind_ok h
    cases h
    -- the prototypes are generated apart, and the other groups do not see them
    rw [if_neg hm, if_neg hm, List.map_nil, List.nil_append]
    obtain ⟨none, n₁, functions, n₂, others, h₁, h₂, h₃, rfl⟩ := arranged_ok hb
    rw [withoutPrototypes, group_absent (by simp)] at h₁
    cases h₁
    rw [withoutPrototypes, group_filter (hk .functions (by decide))] at h₂
    rw [withoutPrototypes, group_filter (hk .others (by decide))] at h₃
    refine ⟨n, ?_⟩
    rw [List.nil_append, ← List.append_assoc]
    exact sequence_of_groups (group_prototypes statements) h₂ h₃

section

variable {loops : Renames} {o : Occurrence}

/-- Functions and prototypes occur wherever loops are counted from. -/
theorem mem_groupOccurrences {which : Group} (hw : which ≠ .others) :
    ∀ (statements : List Stmt) (count : Nat),
    o ∈ groupOccurrences loops count which statements ↔
      ∃ s ∈ statements, groupOf s = which ∧ o ∈ s.occurrences .declared loops 0
  | [], _ => by simp [groupOccurrences]
  | s :: rest, count => by
    have ih := mem_groupOccurrences hw rest
    rw [groupOccurrences]
    split
    · rename_i hs
      obtain rfl : groupOf s = which := by simpa using hs
      have hc : s.occurrences .declared loops count = s.occurrences .declared loops 0 := by
        cases s with
        | prototype _ _ _ | function _ _ _ _ => simp only [Stmt.occurrences]
        | _ => exact absurd rfl hw
      simp [hc, ih]
    · rename_i hs
      have hs : groupOf s ≠ which := by simpa using hs
      simp [hs, ih]

theorem groupOccurrences_absent {which : Group} : ∀ {statements : List Stmt} {count : Nat},
    (∀ s ∈ statements, groupOf s ≠ which) → groupOccurrences loops count which statements = []
  | [], _, _ => rfl
  | s :: rest, count, h => by
    rw [groupOccurrences, if_neg (by simpa using h s (by simp))]
    exact groupOccurrences_absent fun s hs => h s (by simp [hs])

theorem mem_occurrencesAll {count : Nat} {statements : List Stmt} :
    o ∈ occurrencesAll loops count statements ↔
      ((∃ s ∈ statements, groupOf s = .prototypes ∧ o ∈ s.occurrences .declared loops 0) ∨
        ∃ s ∈ statements, groupOf s = .functions ∧ o ∈ s.occurrences .declared loops 0) ∨
      o ∈ groupOccurrences loops (groupStart count statements .others) .others statements := by
  rw [occurrencesAll, Stmt.occurrences, List.mem_append, List.mem_append,
    mem_groupOccurrences (by decide), mem_groupOccurrences (by decide)]

end

theorem main_mem {statements : List Stmt} (h : ¬ needsImplicitMain statements = true) :
    ∃ returnType params body, .function returnType "main" params body ∈ statements := by
  unfold needsImplicitMain at h
  rw [Bool.not_eq_true', Bool.not_eq_false, List.any_eq_true] at h
  obtain ⟨s, hs, hn⟩ := h
  cases s with
  | function returnType name params body =>
    obtain rfl : name = "main" := by simpa using hn
    exact ⟨returnType, params, body, hs⟩
  | _ => cases hn

/-- An implicit main function occurs beside the prototypes. -/
theorem mem_occurrences_implicit {statements body : List Stmt} {o : Occurrence} :
    o ∈ occurrencesAll [] 0 (prototypes statements ++ [.function "" "main" [] body]) ↔
      o = ⟨"main", .defined, []⟩ ∨ o ∈ occurrencesAll [] 0 (prototypes statements) := by
  have ha : ∀ which ≠ Group.prototypes, ∀ s ∈ prototypes statements, groupOf s ≠ which := by
    intro which hw s hs
    rw [groupOf_prototypes hs]
    exact hw.symm
  have hf : ∀ s ∈ prototypes statements ++ [.function "" "main" [] body],
      groupOf s ≠ .others := by
    intro s hs
    rcases List.mem_append.1 hs with hs | hs
    · exact ha .others (by decide) s hs
    · cases List.mem_singleton.1 hs
      simp [groupOf]
  rw [mem_occurrencesAll, mem_occurrencesAll, groupOccurrences_absent hf,
    groupOccurrences_absent (ha .others (by decide))]
  simp only [List.mem_append, List.mem_singleton, List.not_mem_nil, or_false]
  constructor
  · rintro (⟨s, hs | rfl, hg, ho⟩ | ⟨s, hs | rfl, hg, ho⟩)
    · exact .inr (.inl ⟨s, hs, hg, ho⟩)
    · cases hg
    · exact absurd hg (ha .functions (by decide) s hs)
    · exact .inl (by simpa [Stmt.occurrences] using ho)
  · rintro (rfl | ⟨s, hs, hg, ho⟩ | ⟨s, hs, hg, ho⟩)
    · exact .inr ⟨_, .inr rfl, rfl, by simp [Stmt.occurrences]⟩
    · exact .inl ⟨s, .inl hs, hg, ho⟩
    · exact .inr ⟨s, .inl hs, hg, ho⟩

/-- The top level binds the main function and what is counted as its own. -/
theorem mem_generated_top (statements : List Stmt) (name : String) :
    name ∈ generatedNames [] (occurrencesAll [] 0 (topStatements statements)) ↔
      name = "main" ∨ name ∈ generatedNames [] (topFrame statements).occurrences := by
  have hg : Occurrence.generated [] ⟨"main", .defined, []⟩ = "main" := by decide +kernel
  unfold generatedNames Frame.occurrences topStatements topFrame
  by_cases hm : needsImplicitMain statements = true
  · simp only [if_pos hm, List.mem_map, mem_occurrences_implicit]
    constructor
    · rintro ⟨o, rfl | ho, rfl⟩
      · exact .inl hg
      · exact .inr ⟨o, ho, rfl⟩
    · rintro (rfl | ⟨o, ho, rfl⟩)
      · exact ⟨_, .inl rfl, hg⟩
      · exact ⟨o, .inr ho, rfl⟩
  · simp only [if_neg hm]
    refine ⟨.inr, ?_⟩
    rintro (rfl | h)
    · obtain ⟨returnType, params, body, hs⟩ := main_mem hm
      refine List.mem_map.2 ⟨_, ?_, hg⟩
      exact mem_occurrencesAll.2 (.inl (.inr ⟨_, hs, rfl, by simp [Stmt.occurrences]⟩))
    · exact h

/-- The definitions in a generated program are those of the functions of the source program. -/
theorem program_defines {statements : List Stmt} {p : Target.Program}
    (h : program statements = .ok p) :
    List.Forall₂ Defines (programFunctions statements) p.definitions := by
  obtain ⟨n, hs⟩ := program_ok h
  have hi : Inside (programContext (topFrame statements).names) [topFrame statements] p.locals := by
    refine ⟨rfl, fun name => ?_⟩
    -- nothing is around the top level, so nothing there is taken out of its locals
    have hn : (topFrame statements).nonlocals [] = [] := by
      refine List.eq_nil_iff_forall_not_mem.2 fun x hx => ?_
      obtain ⟨y, hy, -⟩ := List.mem_map.1 hx
      obtain ⟨-, -, scope, hscope, -⟩ := mem_nonlocals.1 hy
      cases hscope
    rw [Target.Program.locals, mem_localNames, sequence_bindings hs rfl, Frame.localsAll, Frame.locals,
      hn]
    simpa [Frame.localsAll, topFrame, programContext] using mem_generated_top statements name
  rw [← stmt_block_eq] at hs
  exact stmt_defines (.block (topStatements statements)) hs hi

/-! ## Names listed and names bound -/

/-- What counts as bound by a function: what it declares, and what its `for` loops declare. -/
theorem mem_names {f : Frame} {name : String} :
    name ∈ f.names ↔ f.Declares name ∨ f.Counts name := by
  rw [Frame.names, List.mem_append, mem_declaredNames f.body [] f.count]
  constructor
  · rintro (hp | ⟨o, ho, hr, hn⟩)
    · exact .inl (.inl hp)
    · cases h : o.role with
      | declared => exact .inl (.inr ⟨o, ho, .inl h, hn⟩)
      | defined => exact .inl (.inr ⟨o, ho, .inr h, hn⟩)
      | counter => exact .inr ⟨o, ho, h, hn⟩
      | stored => exact absurd h hr
  · rintro ((hp | ⟨o, ho, hr, hn⟩) | ⟨o, ho, hr, hn⟩)
    · exact .inl hp
    · refine .inr ⟨o, ho, ?_, hn⟩
      rcases hr with hr | hr <;> simp [hr]
    · exact .inr ⟨o, ho, by simp [hr], hn⟩

/-- The definition of each function of a program lists, under their generated names, the variables
that it stores to and that belong to the functions around it: of those that it does not declare
outside its `for` loops and that a function around it, or the top level, declares outside `for`
loops, all but the ones that a `for` loop of its own declares. A name that is listed is bound around
the definition exactly if it is the generated name of a variable of a function around it. -/
theorem nonlocal_lines {statements : List Stmt} {p : Target.Program}
    (h : program statements = .ok p) :
    List.Forall₂ (fun f d => d.header = header f.name f.frame.params ∧
      ∃ names : List String, d.nonlocals = names.map (bind f.frame.renames) ∧
        (∀ x, f.frame.Stores x → ¬ f.frame.Declares x → (∃ g ∈ f.around, g.Declares x) →
          (x ∈ names ↔ ¬ f.frame.Counts x)) ∧
        ∀ name ∈ d.nonlocals,
          (name ∈ d.around ↔ name = "main" ∨ name ∈ Frame.localsAll f.around))
      (programFunctions statements) p.definitions := by
  refine (program_defines h).imp fun f d hd =>
    ⟨hd.header, _, hd.nonlocals, ?_, fun name _ => hd.around name⟩
  rintro x ⟨o, ho, hr, hn, -⟩ hx ⟨g, hg, hgx⟩
  have ha : x ∈ assignedNames f.frame.body :=
    (mem_assignedNames f.frame.body [] f.frame.count x).2 ⟨o, ho, hr, hn⟩
  have hs : ∃ scope ∈ f.around.map Frame.names, x ∈ scope :=
    ⟨g.names, List.mem_map_of_mem hg, mem_names.2 (.inl hgx)⟩
  -- a counter of a loop counts as bound by the function, though it is generated under another name
  have hb : x ∉ f.frame.names ↔ ¬ f.frame.Counts x := by
    rw [mem_names, not_or]
    exact and_iff_right hx
  rw [mem_nonlocals, ← hb]
  exact ⟨fun hl => hl.2.1, fun hl => ⟨ha, hl, hs⟩⟩

/-- `x = 5;` -/
def storing : Frame := ⟨[], [.expression (.assign .set (.name "x") (.number "5"))], [], 0⟩

/-- `x = 5; for (int x = 0; x < 3; x++) { }` -/
def counting : Frame :=
  ⟨[], storing.body ++ [.forLoop (some (.declaration "int" "x" (some (.number "0"))))
    (.binary .lt (.name "x") (.number "3")) (some (.stepAfter .increment (.name "x"))) (.block [])],
    [], 0⟩

/-- `int x; void f() { x = 5; } void g() { x = 5; for (int x = 0; x < 3; x++) { } } int main() { }` -/
def countingProgram : List Stmt :=
  [.declaration "int" "x" none, .function "void" "f" [] storing.body,
   .function "void" "g" [] counting.body, .function "int" "main" [] []]

theorem nonlocal_lines_countingProgram : ∃ p, program countingProgram = .ok p ∧
    ∃ f g main, p.definitions = [f, g, main] ∧ "x" ∈ f.nonlocals ∧
      ∃ names : List String, g.nonlocals = names.map (bind []) ∧ "x" ∉ names := by
  obtain ⟨p, h⟩ : ∃ p, program countingProgram = .ok p := ⟨_, rfl⟩
  have hp : programFunctions countingProgram = [⟨"f", storing, [topFrame countingProgram]⟩,
    ⟨"g", counting, [topFrame countingProgram]⟩, ⟨"main", ⟨[], [], [], 1⟩, [topFrame countingProgram]⟩] := rfl
  have hl := nonlocal_lines h
  rw [hp] at hl
  obtain ⟨f, ds, ⟨-, inF, hf, hF, -⟩, hl₁, he⟩ := List.forall₂_cons_left_iff.1 hl
  obtain ⟨g, ds₁, ⟨-, inG, hg, hG, -⟩, hl₂, rfl⟩ := List.forall₂_cons_left_iff.1 hl₁
  obtain ⟨main, ds₂, -, hl₃, rfl⟩ := List.forall₂_cons_left_iff.1 hl₂
  cases hl₃
  have ht : ∃ top ∈ [topFrame countingProgram], top.Declares "x" :=
    ⟨_, List.mem_singleton_self _, by decide +kernel⟩
  have hxF : "x" ∈ inF ↔ ¬ storing.Counts "x" := hF "x" (by decide +kernel) (by decide +kernel) ht
  have hxG : "x" ∈ inG ↔ ¬ counting.Counts "x" := hG "x" (by decide +kernel) (by decide +kernel) ht
  refine ⟨p, h, f, g, main, he, ?_, inG, hg, fun hx => hxG.1 hx (by decide +kernel)⟩
  rw [hf]
  exact List.mem_map.2 ⟨"x", hxF.2 (by decide +kernel), by decide +kernel⟩

end ConsoleCpp.Generate

/-
Where statements bind names. An occurrence is a declaration, a loop's own variable, a definition or
a store, with the loops around it that give names of their own to what they declare. The names that
the traversal of a source tree finds declared and stored are exactly the names of the occurrences:
the traversal lists a node before what stands below it, so its list for a node falls apart into the
lists for the parts of the node, and the induction is over the statements.
-/
import ConsoleCpp.Proofs.Generate.Cases
import ConsoleCpp.Proofs.Source.Everywhere
import Mathlib.Data.List.Basic

namespace ConsoleCpp

/-! ## Stores in expressions -/

namespace Expr

/-- The name of a variable, none of anything else. -/
def ownName : Expr → List String
  | .name id => [id]
  | _ => []

/-- The variables among expressions. -/
theorem filterMap_variable (es : List Expr) : es.filterMap Expr.variable? = es.flatMap ownName := by
  induction es with
  | nil => rfl
  | cons e rest ih => cases e <;> simp [List.filterMap_cons, Expr.variable?, ownName, ih]

mutual

/-- The variables that an expression stores to, in the order of its text. -/
def stores : Expr → List String
  | .unary (.step _) operand | .stepAfter _ operand => ownName operand ++ stores operand
  | .unary (.sign _) operand => stores operand
  | .assign _ target value => ownName target ++ stores target ++ stores value
  | .binary _ left right | .scope left right => stores left ++ stores right
  | .call callee args => stores callee ++ storesAll args
  | .member _ target _ => stores target
  | .index target key => stores target ++ stores key
  | .list element => stores element
  | .newArray _ size => stores size
  | .number _ | .string _ _ | .char _ | .bool _ | .name _ | .newObject _ => []

def storesAll : List Expr → List String
  | [] => []
  | e :: rest => stores e ++ storesAll rest

end

end Expr

/-! ## Occurrences -/

open Generate (Renames groupOf countLoop loopRenames)

/-- How an occurrence binds its name. -/
inductive Role where
  /-- By a declaration that is no loop's. -/
  | declared
  /-- By the declaration of a `for` loop. -/
  | counter
  /-- As the name of a function or prototype. -/
  | defined
  | stored
deriving DecidableEq, Repr, Inhabited

/-- A place where a statement binds a name, with the names that the loops around it introduce,
innermost loop first. -/
structure Occurrence where
  name : String
  role : Role
  loops : Renames
deriving Inhabited

/-- The generated name at an occurrence, given the names that the loops around the statement
introduce. Functions keep their names in loops. -/
def Occurrence.generated (renames : Renames) (o : Occurrence) : String :=
  match o.role with
  | .defined => Target.safeName o.name
  | .declared | .counter | .stored => Generate.bind (o.loops ++ renames) o.name

namespace Stmt

/-- The occurrences of stored variables. -/
def stored (loops : Renames) (names : List String) : List Occurrence :=
  names.map fun name => ⟨name, .stored, loops⟩

/-- The number of declaring loops before the first statement of a group, where `count` loops come
before the statements. -/
def groupStart (count : Nat) (statements : List Stmt) : Generate.Group → Nat
  | .prototypes => count
  | .functions =>
    count + declaringLoopsAll (statements.filter fun s => groupOf s == .prototypes)
  | .others =>
    count + declaringLoopsAll (statements.filter fun s => groupOf s == .prototypes) +
      declaringLoopsAll (statements.filter fun s => groupOf s == .functions)

mutual

/-- The occurrences of a statement with these loops around it and with `count` declaring loops
before it. A declaration has the role `own`. What functions inside bind is not counted. -/
def occurrences (own : Role) (loops : Renames) (count : Nat) : Stmt → List Occurrence
  | .header _ | .usingSpace _ | .breakLoop | .continueLoop => []
  | .declaration _ name initializer =>
    ⟨name, own, loops⟩ :: stored loops (Expr.storesAll initializer.toList)
  | .prototype _ name _ | .function _ name _ _ => [⟨name, .defined, loops⟩]
  | .block statements =>
    groupOccurrences loops (groupStart count statements .prototypes) .prototypes statements ++
      groupOccurrences loops (groupStart count statements .functions) .functions statements ++
      groupOccurrences loops (groupStart count statements .others) .others statements
  | .input targets => stored loops (targets.flatMap Expr.ownName ++ Expr.storesAll targets)
  | .print parts => stored loops (Expr.storesAll parts)
  | .ifElse condition thenStmt elseStmt =>
    stored loops condition.stores ++ occurrences .declared loops count thenStmt ++
      optionOccurrences .declared loops (count + thenStmt.declaringLoops) elseStmt
  | .whileLoop condition body | .doLoop condition body =>
    stored loops condition.stores ++ occurrences .declared loops count body
  | .forLoop init condition update body =>
    let count := countLoop init count
    let loops := loopRenames init count :: loops
    optionOccurrences .counter loops count init ++
      stored loops (condition.stores ++ Expr.storesAll update.toList) ++
      occurrences .declared loops (count + declaringLoopsOption init) body
  | .ret value => stored loops (Expr.storesAll value.toList)
  | .expression e => stored loops e.stores

/-- The occurrences of the statements of one group. -/
def groupOccurrences (loops : Renames) (count : Nat) (which : Generate.Group) :
    List Stmt → List Occurrence
  | [] => []
  | s :: rest =>
    if groupOf s == which then
      occurrences .declared loops count s ++
        groupOccurrences loops (count + s.declaringLoops) which rest
    else groupOccurrences loops count which rest

def optionOccurrences (own : Role) (loops : Renames) (count : Nat) : Option Stmt → List Occurrence
  | none => []
  | some s => occurrences own loops count s

end

/-- The occurrences of a sequence of statements. -/
def occurrencesAll (loops : Renames) (count : Nat) (statements : List Stmt) : List Occurrence :=
  occurrences .declared loops count (.block statements)

end Stmt

/-! ## Traversal -/

namespace Node

/-- The names that a node itself stores to, or those that it declares. -/
def ownNames : (stores : Bool) → Node → List String
  | true, node => node.storeTargets.flatMap Expr.ownName
  | false, node => node.declaredName?.toList

/-- The names that the nodes of a stack and what stands below them store to, or declare. -/
def namesFrom (stores : Bool) (stack : List Node) : List String :=
  (walkFrom false stack).flatMap (ownNames stores)

variable {stores : Bool}

@[simp] theorem namesFrom_nil : namesFrom stores [] = [] := by
  rw [namesFrom, walkFrom]
  rfl

@[simp] theorem namesFrom_append (xs ys : List Node) :
    namesFrom stores (xs ++ ys) = namesFrom stores xs ++ namesFrom stores ys := by
  rw [namesFrom, walkFrom_append, List.flatMap_append]
  rfl

theorem namesFrom_node (node : Node) :
    namesFrom stores [node] = node.ownNames stores ++ namesFrom stores (node.visited false) := by
  rw [namesFrom, walkFrom, List.append_nil, List.flatMap_cons]
  rfl

theorem namesFrom_expr_eq (e : Expr) : namesFrom stores [.expr e] =
    (Node.expr e).ownNames stores ++ namesFrom stores (e.children.map .expr) :=
  namesFrom_node (.expr e)

mutual

/-- The traversal finds the variables that an expression stores to. -/
theorem namesFrom_expr : ∀ e : Expr, namesFrom true [.expr e] = e.stores
  | .number _ | .string _ _ | .char _ | .bool _ | .name _ | .newObject _ => by
    rw [namesFrom_expr_eq]
    exact namesFrom_nil
  | .unary (.step _) operand | .stepAfter _ operand => by
    rw [namesFrom_expr_eq, Expr.stores, ← namesFrom_expr operand]
    cases operand <;> rfl
  | .unary (.sign _) operand | .member _ operand _ | .list operand | .newArray _ operand => by
    rw [namesFrom_expr_eq, Expr.stores, ← namesFrom_expr operand]
    rfl
  | .assign _ target value => by
    rw [namesFrom_expr_eq, Expr.stores, ← namesFrom_expr target, ← namesFrom_expr value,
      List.append_assoc, ← namesFrom_append]
    cases target <;> rfl
  | .binary _ left right | .scope left right | .index left right => by
    rw [namesFrom_expr_eq, Expr.stores, ← namesFrom_expr left, ← namesFrom_expr right,
      ← namesFrom_append]
    rfl
  | .call callee args => by
    rw [namesFrom_expr_eq, Expr.stores, ← namesFrom_expr callee, ← namesFrom_exprs args,
      ← namesFrom_append]
    rfl

theorem namesFrom_exprs : ∀ es : List Expr, namesFrom true (es.map .expr) = Expr.storesAll es
  | [] => namesFrom_nil
  | e :: rest => by
    rw [Expr.storesAll, ← namesFrom_expr e, ← namesFrom_exprs rest, ← namesFrom_append]
    rfl

end

/-- Expressions declare nothing. -/
theorem namesFrom_declared_of_exprs (stack : List Node) (h : ∀ node ∈ stack, ∃ e, node = .expr e) :
    namesFrom false stack = [] := by
  unfold namesFrom
  fun_induction walkFrom false stack with
  | case1 => rfl
  | case2 node stack ih =>
    obtain ⟨e, rfl⟩ := h node (by simp)
    -- the children of an expression are expressions, so the stack keeps its shape
    rw [List.flatMap_cons, ih]
    · rfl
    · intro node hn
      rcases List.mem_append.1 hn with hn | hn
      · obtain ⟨child, -, rfl⟩ := List.mem_map.1 hn
        exact ⟨child, rfl⟩
      · exact h node (by simp [hn])

/-- What the traversal finds in expressions. -/
theorem namesFrom_exprs_eq (stores : Bool) (es : List Expr) :
    namesFrom stores (es.map .expr) = if stores then Expr.storesAll es else [] := by
  cases stores with
  | true => exact namesFrom_exprs es
  | false =>
    refine namesFrom_declared_of_exprs _ fun node hn => ?_
    obtain ⟨e, -, rfl⟩ := List.mem_map.1 hn
    exact ⟨e, rfl⟩

theorem namesFrom_expr_single (stores : Bool) (e : Expr) :
    namesFrom stores [.expr e] = if stores then e.stores else [] := by
  cases stores with
  | true => exact namesFrom_expr e
  | false => exact namesFrom_declared_of_exprs [.expr e] (by simp)

/-- Parameters neither store nor declare. -/
theorem namesFrom_params (params : List Parameter) : namesFrom stores (params.map .param) = [] := by
  induction params with
  | nil => exact namesFrom_nil
  | cons p rest ih =>
    rw [List.map_cons, ← List.singleton_append, namesFrom_append, ih, namesFrom_node, List.append_nil]
    cases stores <;> exact namesFrom_nil

end Node

/-! ## The names of occurrences -/

namespace Stmt

/-- The names of the occurrences that store, or of those that declare. -/
def occurring (stores : Bool) (found : List Occurrence) : List String :=
  (found.filter fun o => (o.role == .stored) == stores).map Occurrence.name

variable {stores : Bool} {loops : Renames}

@[simp] theorem occurring_nil : occurring stores [] = [] := rfl

@[simp] theorem occurring_append (xs ys : List Occurrence) :
    occurring stores (xs ++ ys) = occurring stores xs ++ occurring stores ys := by
  simp [occurring]

@[simp] theorem occurring_stored (names : List String) :
    occurring stores (stored loops names) = if stores then names else [] := by
  cases stores <;> simp [occurring, stored, List.filter_map, Function.comp_def]

theorem occurring_cons_declaring {o : Occurrence} (ho : o.role ≠ .stored) (found : List Occurrence) :
    occurring stores (o :: found) =
      (if stores then [] else [o.name]) ++ occurring stores found := by
  have hr : (o.role == .stored) = false := by simpa using ho
  cases stores <;> simp [occurring, hr]

open Node (namesFrom namesFrom_node namesFrom_append namesFrom_exprs_eq namesFrom_expr_single
  namesFrom_params)

/-- What the traversal finds in a statement: what it does itself, and what is found below it. -/
theorem mem_namesFrom_stmt_iff {name : String} {s : Stmt} : name ∈ namesFrom stores [.stmt s] ↔
    name ∈ (Node.stmt s).ownNames stores ∨ name ∈ namesFrom stores ((Node.stmt s).visited false) := by
  rw [namesFrom_node, List.mem_append]

/-- In a statement that neither stores nor declares itself, it is what is found in its parts. -/
theorem mem_namesFrom_parts {name : String} {s : Stmt} (parts : List Node)
    (hd : (Node.stmt s).declaredName? = none) (ht : (Node.stmt s).storeTargets = [])
    (hv : (Node.stmt s).visited false = parts) :
    name ∈ namesFrom stores [.stmt s] ↔ name ∈ namesFrom stores parts := by
  rw [mem_namesFrom_stmt_iff, hv]
  cases stores <;> simp [Node.ownNames, hd, ht]

mutual

/-- The traversal finds exactly the names of the occurrences. -/
theorem mem_namesFrom_stmt (stores : Bool) (name : String) : ∀ (s : Stmt) (own : Role)
    (loops : Renames) (count : Nat), own ≠ .stored →
    (name ∈ namesFrom stores [.stmt s] ↔ name ∈ occurring stores (s.occurrences own loops count))
  | .header _, _, _, _, _ | .usingSpace _, _, _, _, _ | .breakLoop, _, _, _, _
  | .continueLoop, _, _, _, _ | .input _, _, _, _, _ | .print _, _, _, _, _ | .ret _, _, _, _, _
  | .expression _, _, _, _, _ => by
    rw [mem_namesFrom_stmt_iff, occurrences]
    cases stores <;> simp [Node.ownNames, Node.declaredName?, Node.storeTargets, Node.visited,
      Node.children, namesFrom_exprs_eq, namesFrom_expr_single]
  | .declaration _ _ _, _, _, _, ho => by
    rw [mem_namesFrom_stmt_iff, occurrences, occurring_cons_declaring ho]
    cases stores <;> simp [Node.ownNames, Node.declaredName?, Node.storeTargets, Node.visited,
      Node.children, namesFrom_exprs_eq]
  | .prototype _ _ _, _, _, _, _ | .function _ _ _ _, _, _, _, _ => by
    rw [mem_namesFrom_stmt_iff, occurrences, occurring_cons_declaring (by simp)]
    cases stores <;> simp [Node.ownNames, Node.declaredName?, Node.storeTargets, Node.visited,
      Node.children, namesFrom_params]
  | .block statements, _, loops, count, _ => by
    rw [mem_namesFrom_parts (statements.map .stmt) rfl rfl rfl, occurrences,
      mem_namesFrom_group stores name statements loops (groupStart count statements)]
    simp only [occurring_append, List.mem_append]
    -- the groups are not in the order of the statements, so only membership carries over
    constructor
    · rintro ⟨which, h⟩
      cases which with
      | prototypes => exact .inl (.inl h)
      | functions => exact .inl (.inr h)
      | others => exact .inr h
    · rintro ((h | h) | h)
      · exact ⟨_, h⟩
      · exact ⟨_, h⟩
      · exact ⟨_, h⟩
  | .ifElse condition thenStmt elseStmt, _, loops, count, _ => by
    have h₁ := mem_namesFrom_stmt stores name thenStmt .declared loops count (by decide)
    have h₂ := mem_namesFrom_option stores name elseStmt .declared loops
      (count + thenStmt.declaringLoops) (by decide)
    rw [mem_namesFrom_parts ([.expr condition] ++ [.stmt thenStmt] ++ elseStmt.toList.map .stmt)
      rfl rfl rfl, occurrences]
    simp only [namesFrom_append, occurring_append, List.mem_append, namesFrom_expr_single,
      occurring_stored, h₁, h₂]
  | .whileLoop condition body, _, loops, count, _ | .doLoop condition body, _, loops, count, _ => by
    have h₁ := mem_namesFrom_stmt stores name body .declared loops count (by decide)
    rw [mem_namesFrom_parts ([.expr condition] ++ [.stmt body]) rfl rfl rfl, occurrences]
    simp only [namesFrom_append, occurring_append, List.mem_append, namesFrom_expr_single,
      occurring_stored, h₁]
  | .forLoop init condition update body, _, loops, count, _ => by
    have h₁ := mem_namesFrom_option stores name init .counter
      (loopRenames init (countLoop init count) :: loops) (countLoop init count) (by decide)
    have h₂ := mem_namesFrom_stmt stores name body .declared
      (loopRenames init (countLoop init count) :: loops)
      (countLoop init count + declaringLoopsOption init) (by decide)
    rw [mem_namesFrom_parts (init.toList.map .stmt ++ ([.expr condition] ++
      (update.toList.map .expr ++ [.stmt body]))) rfl rfl rfl, occurrences]
    simp only [namesFrom_append, occurring_append, List.mem_append, namesFrom_expr_single,
      namesFrom_exprs_eq, occurring_stored, h₁, h₂]
    cases stores <;> simp [or_assoc]

/-- The groups of a list have all its names between them, wherever their counts start. -/
theorem mem_namesFrom_group (stores : Bool) (name : String) : ∀ (statements : List Stmt)
    (loops : Renames) (start : Generate.Group → Nat),
    name ∈ namesFrom stores (statements.map .stmt) ↔
      ∃ which, name ∈ occurring stores (groupOccurrences loops (start which) which statements)
  | [], _, _ => by simp [groupOccurrences]
  | s :: rest, loops, start => by
    have h₁ := mem_namesFrom_stmt stores name s .declared loops (start (groupOf s)) (by decide)
    -- the count moves on in the group of `s` and stays where it is in the others
    have h₂ := mem_namesFrom_group stores name rest loops fun which =>
      if groupOf s == which then start which + s.declaringLoops else start which
    rw [List.map_cons, ← List.singleton_append, namesFrom_append, List.mem_append, h₁, h₂]
    simp only [groupOccurrences]
    constructor
    · rintro (h | ⟨which, h⟩)
      · exact ⟨groupOf s, by simp [h]⟩
      · refine ⟨which, ?_⟩
        split at h
        · rename_i hw
          rw [if_pos hw, occurring_append, List.mem_append]
          exact .inr h
        · rename_i hw
          rw [if_neg hw]
          exact h
    · rintro ⟨which, h⟩
      split at h
      · rename_i hw
        obtain rfl : groupOf s = which := by simpa using hw
        rw [occurring_append, List.mem_append] at h
        rcases h with h | h
        · exact .inl h
        · exact .inr ⟨groupOf s, by simpa using h⟩
      · rename_i hw
        exact .inr ⟨which, by simpa [hw] using h⟩

theorem mem_namesFrom_option (stores : Bool) (name : String) : ∀ (s : Option Stmt) (own : Role)
    (loops : Renames) (count : Nat), own ≠ .stored →
    (name ∈ namesFrom stores (s.toList.map .stmt) ↔
      name ∈ occurring stores (optionOccurrences own loops count s))
  | none, _, _, _, _ => by simp [optionOccurrences]
  | some s, own, loops, count, ho => by
    rw [optionOccurrences]
    exact mem_namesFrom_stmt stores name s own loops count ho

end

end Stmt

theorem declaredNames_eq (statements : List Stmt) :
    declaredNames statements = Node.namesFrom false (statements.map .stmt) :=
  List.filterMap_eq_flatMap_toList _ _

theorem assignedNames_eq (statements : List Stmt) :
    assignedNames statements = Node.namesFrom true (statements.map .stmt) := by
  simp only [assignedNames, Expr.filterMap_variable]
  rfl

/-- The occurrences by role are the names that the traversal finds in the statements. -/
theorem mem_walk_iff (stores : Bool) (statements : List Stmt) (loops : Renames) (count : Nat)
    (name : String) : name ∈ Node.namesFrom stores (statements.map .stmt) ↔
      ∃ o ∈ Stmt.occurrencesAll loops count statements,
        (o.role == .stored) = stores ∧ o.name = name := by
  have h := Stmt.mem_namesFrom_stmt stores name (.block statements) .declared loops count (by decide)
  rw [Stmt.mem_namesFrom_parts (statements.map .stmt) rfl rfl rfl] at h
  rw [h]
  simp [Stmt.occurring, Stmt.occurrencesAll, and_assoc]

/-- A name is declared where an occurrence other than a store has it. -/
theorem mem_declaredNames (statements : List Stmt) (loops : Renames) (count : Nat) (name : String) :
    name ∈ declaredNames statements ↔
      ∃ o ∈ Stmt.occurrencesAll loops count statements, o.role ≠ .stored ∧ o.name = name := by
  rw [declaredNames_eq, mem_walk_iff false statements loops count]
  simp only [beq_eq_false_iff_ne]

/-- A variable is stored to where an occurrence that stores has it. -/
theorem mem_assignedNames (statements : List Stmt) (loops : Renames) (count : Nat) (name : String) :
    name ∈ assignedNames statements ↔
      ∃ o ∈ Stmt.occurrencesAll loops count statements, o.role = .stored ∧ o.name = name := by
  rw [assignedNames_eq, mem_walk_iff true statements loops count]
  simp only [beq_iff_eq]

end ConsoleCpp

/-
What the generation of a statement does when it succeeds, said once for each form of statement: the
parts that were generated, in which context, and how the result is put together from them. Later
proofs take a successful generation apart by these lemmas and never unfold the generator.
-/
import ConsoleCpp.Generate.Program

namespace ConsoleCpp.Generate

/-- Where a first step and what follows it succeed, each of them does. -/
theorem bind_ok {ε α β : Type} {next : α → Except ε β} {result : β} :
    ∀ {first : Except ε α}, (first >>= next) = .ok result →
      ∃ a, first = .ok a ∧ next a = .ok result
  | .ok a, h => ⟨a, rfl, h⟩

/-! ## Contexts -/

/-- One level of indentation further in. -/
def Context.inner (ctx : Context) : Context := { ctx with indent := ctx.indent + 1 }

@[simp] theorem Context.inner_renames (ctx : Context) : ctx.inner.renames = ctx.renames := rfl

@[simp] theorem Context.inner_roundEnd (ctx : Context) : ctx.inner.roundEnd = ctx.roundEnd := rfl

@[simp] theorem Context.inner_scopes (ctx : Context) : ctx.inner.scopes = ctx.scopes := rfl

theorem indented_ok {ctx ctx' : Context} (h : ctx.indented = .ok ctx') : ctx' = ctx.inner := by
  unfold Context.indented at h
  split at h
  · cases h
  · cases h; rfl

/-- The context of the body of a loop whose rounds end this way. -/
def Context.inLoop (ctx : Context) (ending : RoundEnd) : Context := { ctx with roundEnd := ending }

@[simp] theorem Context.inLoop_renames (ctx : Context) (ending : RoundEnd) :
    (ctx.inLoop ending).renames = ctx.renames := rfl

@[simp] theorem Context.inLoop_roundEnd (ctx : Context) (ending : RoundEnd) :
    (ctx.inLoop ending).roundEnd = ending := rfl

@[simp] theorem Context.inLoop_scopes (ctx : Context) (ending : RoundEnd) :
    (ctx.inLoop ending).scopes = ctx.scopes := rfl

/-- The number of declaring loops once the loop with this initializer is counted. -/
def countLoop (init : Option Stmt) (count : Nat) : Nat :=
  if (loopVariable? init).isSome then count + 1 else count

/-- The names that the loop with this initializer introduces, as the `count`-th declaring loop. -/
def loopRenames (init : Option Stmt) (count : Nat) : List (String × String) :=
  ((loopVariable? init).map fun name => (name, Target.loopName name count)).toList

/-- The context of the parts of a `for` loop. -/
def Context.inFor (ctx : Context) (init : Option Stmt) (count : Nat) : Context :=
  { ctx with renames := loopRenames init (countLoop init count) :: ctx.renames }

/-- What runs at the end of each round of a `for` loop. -/
def updateEnd (update : Option Expr) : RoundEnd := (update.map RoundEnd.update).getD .nothing

/-- The context inside the definition of a function. -/
def Context.inFunction (ctx : Context) (params : List Parameter) (body : List Stmt) : Context :=
  { ctx with
    scopes := (params.map Parameter.name ++ declaredNames body) :: ctx.scopes
    roundEnd := .nothing }

/-! ## Suites, loops and functions -/

/-- The lines of a suite, which are never none. -/
def orPass (lines : List Target.Stmt) : List Target.Stmt := if lines.isEmpty then [.pass] else lines

/-- The lines of a suite are those of its body and then those that end a round. -/
theorem suite_ok {ctx : Context} {count n : Nat} {ending : RoundEnd}
    {generate : Context → Nat → Generated} {lines : List Target.Stmt}
    (h : suite ctx count ending generate = .ok (lines, n)) :
    ∃ body ends, generate ctx.inner count = .ok (body, n) ∧
      roundEndStatements ctx.renames ending = .ok ends ∧ lines = orPass (body ++ ends) := by
  unfold suite at h
  obtain ⟨ctx', hc, h⟩ := bind_ok h
  cases indented_ok hc
  obtain ⟨⟨body, k⟩, hb, h⟩ := bind_ok h
  obtain ⟨ends, he, h⟩ := bind_ok h
  cases h
  exact ⟨body, ends, hb, he, rfl⟩

theorem suite_nothing_ok {ctx : Context} {count n : Nat} {generate : Context → Nat → Generated}
    {lines : List Target.Stmt} (h : suite ctx count .nothing generate = .ok (lines, n)) :
    ∃ body, generate ctx.inner count = .ok (body, n) ∧ lines = orPass body := by
  obtain ⟨body, ends, hb, he, rfl⟩ := suite_ok h
  cases he
  exact ⟨body, hb, by rw [List.append_nil]⟩

/-- A loop is one line with its rounds as a suite. -/
theorem loop_ok {ctx : Context} {count n : Nat} {condition : Target.Expr} {ending : RoundEnd}
    {generate : Context → Nat → Generated} {lines : List Target.Stmt}
    (h : loop ctx count condition ending generate = .ok (lines, n)) :
    ∃ body ends, generate (ctx.inLoop ending).inner count = .ok (body, n) ∧
      roundEndStatements ctx.renames ending = .ok ends ∧
      lines = [.whileLoop condition (orPass (body ++ ends))] := by
  unfold loop at h
  obtain ⟨⟨suite, k⟩, hs, h⟩ := bind_ok h
  cases h
  obtain ⟨body, ends, hb, he, rfl⟩ := suite_ok hs
  exact ⟨body, ends, hb, he, rfl⟩

/-- A function is its head, the names that it takes from around it, and its body as a suite. -/
theorem function_ok {ctx : Context} {count n : Nat} {name : String} {params : List Parameter}
    {body : List Stmt} {generate : Context → Nat → Generated} {lines : List Target.Stmt}
    (h : function ctx count name params body generate = .ok (lines, n)) :
    ∃ inside, generate (ctx.inFunction params body).inner count = .ok (inside, n) ∧
      lines = [.define (header name params)
        ((nonlocals ctx.scopes params body).map (bind ctx.renames)) (orPass inside)] := by
  unfold function at h
  obtain ⟨⟨suite, k⟩, hs, h⟩ := bind_ok h
  cases h
  obtain ⟨inside, hi, rfl⟩ := suite_nothing_ok hs
  exact ⟨inside, hi, rfl⟩

/-- The groups are generated one after another, each counting on from where the one before ended. -/
theorem arranged_ok {count n : Nat} {generate : Group → Nat → Generated}
    {lines : List Target.Stmt} (h : arranged count generate = .ok (lines, n)) :
    ∃ prototypes n₁ functions n₂ others, generate .prototypes count = .ok (prototypes, n₁) ∧
      generate .functions n₁ = .ok (functions, n₂) ∧ generate .others n₂ = .ok (others, n) ∧
      lines = prototypes ++ functions ++ others := by
  unfold arranged at h
  obtain ⟨⟨prototypes, n₁⟩, h₁, h⟩ := bind_ok h
  obtain ⟨⟨functions, n₂⟩, h₂, h⟩ := bind_ok h
  obtain ⟨⟨others, n₃⟩, h₃, h⟩ := bind_ok h
  cases h
  exact ⟨prototypes, n₁, functions, n₂, others, h₁, h₂, h₃, rfl⟩

/-- A statement is generated with its own group and left out of the others. -/
theorem group_cons_ok {ctx : Context} {count n : Nat} {which : Group} {s : Stmt} {rest : List Stmt}
    {lines : List Target.Stmt} (h : group ctx count which (s :: rest) = .ok (lines, n)) :
    (groupOf s = which ∧ ∃ first k others, stmt ctx count s = .ok (first, k) ∧
      group ctx k which rest = .ok (others, n) ∧ lines = first ++ others) ∨
    (groupOf s ≠ which ∧ group ctx count which rest = .ok (lines, n)) := by
  rw [group] at h
  split at h
  · rename_i hw
    obtain ⟨⟨first, k⟩, h₁, h⟩ := bind_ok h
    obtain ⟨⟨others, m⟩, h₂, h⟩ := bind_ok h
    cases h
    exact .inl ⟨by simpa using hw, first, k, others, h₁, h₂, rfl⟩
  · rename_i hw
    exact .inr ⟨by simpa using hw, h⟩

/-! ## Statements -/

variable {ctx : Context} {count n : Nat} {lines : List Target.Stmt}

theorem stmt_ifElse_ok {condition : Expr} {thenStmt : Stmt} {elseStmt : Option Stmt}
    (h : stmt ctx count (.ifElse condition thenStmt elseStmt) = .ok (lines, n)) :
    ∃ test first k second chained, expr ctx.renames 0 condition = .ok test ∧
      stmt ctx.inner count thenStmt = .ok (first, k) ∧
      alternative ctx k elseStmt = .ok (second, chained, n) ∧
      lines = [.ifElse test (orPass first) second chained] := by
  rw [stmt] at h
  obtain ⟨test, ht, h⟩ := bind_ok h
  obtain ⟨⟨thenSuite, k⟩, hs, h⟩ := bind_ok h
  obtain ⟨⟨second, chained, m⟩, ha, h⟩ := bind_ok h
  cases h
  obtain ⟨first, hf, rfl⟩ := suite_nothing_ok hs
  exact ⟨test, first, k, second, chained, ht, hf, ha, rfl⟩

/-- The other branch continues the chain if it is a conditional itself, or is a suite of its own. -/
theorem alternative_some_ok {s : Stmt} {chained : Bool}
    (h : alternative ctx count (some s) = .ok (lines, chained, n)) :
    (stmt ctx count s = .ok (lines, n) ∧ chained = true) ∨
    (chained = false ∧ ∃ body, stmt ctx.inner count s = .ok (body, n) ∧ lines = orPass body) := by
  rw [alternative] at h
  split at h
  · obtain ⟨⟨branch, k⟩, hb, h⟩ := bind_ok h
    cases h
    exact .inl ⟨hb, rfl⟩
  · obtain ⟨⟨suite, k⟩, hs, h⟩ := bind_ok h
    cases h
    obtain ⟨body, hb, rfl⟩ := suite_nothing_ok hs
    exact .inr ⟨rfl, body, hb, rfl⟩

theorem stmt_whileLoop_ok {condition : Expr} {body : Stmt}
    (h : stmt ctx count (.whileLoop condition body) = .ok (lines, n)) :
    ∃ test inside, expr ctx.renames 0 condition = .ok test ∧
      stmt (ctx.inLoop .nothing).inner count body = .ok (inside, n) ∧
      lines = [.whileLoop test (orPass inside)] := by
  rw [stmt] at h
  obtain ⟨test, ht, h⟩ := bind_ok h
  obtain ⟨inside, ends, hi, he, rfl⟩ := loop_ok h
  cases he
  exact ⟨test, inside, ht, hi, by rw [List.append_nil]⟩

theorem stmt_doLoop_ok {condition : Expr} {body : Stmt}
    (h : stmt ctx count (.doLoop condition body) = .ok (lines, n)) :
    ∃ test inside, expr ctx.renames 0 condition = .ok test ∧
      stmt (ctx.inLoop (.leaveUnless test)).inner count body = .ok (inside, n) ∧
      lines = [.whileLoop (.bool true) (orPass (inside ++ [.leaveUnless test]))] := by
  rw [stmt] at h
  obtain ⟨test, ht, h⟩ := bind_ok h
  obtain ⟨inside, ends, hi, he, rfl⟩ := loop_ok h
  cases he
  exact ⟨test, inside, ht, hi, rfl⟩

/-- The first part of the head stands before the loop and has the names of the loop already. -/
theorem stmt_forLoop_ok {init : Option Stmt} {condition : Expr} {update : Option Expr} {body : Stmt}
    (h : stmt ctx count (.forLoop init condition update body) = .ok (lines, n)) :
    ∃ before k test inside ends,
      optional (ctx.inFor init count) (countLoop init count) init = .ok (before, k) ∧
      expr (ctx.inFor init count).renames 0 condition = .ok test ∧
      stmt ((ctx.inFor init count).inLoop (updateEnd update)).inner k body = .ok (inside, n) ∧
      roundEndStatements (ctx.inFor init count).renames (updateEnd update) = .ok ends ∧
      lines = before ++ [.whileLoop test (orPass (inside ++ ends))] := by
  rw [stmt] at h
  obtain ⟨⟨before, k⟩, hb, h⟩ := bind_ok h
  obtain ⟨test, ht, h⟩ := bind_ok h
  obtain ⟨⟨loop, m⟩, hl, h⟩ := bind_ok h
  cases h
  obtain ⟨inside, ends, hi, he, rfl⟩ := loop_ok hl
  exact ⟨before, k, test, inside, ends, hb, ht, hi, he, rfl⟩

theorem stmt_function_ok {returnType name : String} {params : List Parameter} {body : List Stmt}
    (h : stmt ctx count (.function returnType name params body) = .ok (lines, n)) :
    ∃ inside, sequence (ctx.inFunction params body).inner count body = .ok (inside, n) ∧
      lines = [.define (header name params)
        ((nonlocals ctx.scopes params body).map (bind ctx.renames)) (orPass inside)] := by
  rw [stmt] at h
  exact function_ok h

theorem stmt_block_eq (statements : List Stmt) :
    stmt ctx count (.block statements) = sequence ctx count statements := by
  rw [stmt, sequence]

theorem stmt_ret_ok {value : Option Expr} (h : stmt ctx count (.ret value) = .ok (lines, n)) :
    n = count ∧ ((value = none ∧ lines = [.ret none]) ∨
      ∃ e result, value = some e ∧ expr ctx.renames 0 e = .ok result ∧
        lines = [.ret (some result)]) := by
  cases value with
  | none =>
    rw [stmt] at h
    cases h
    exact ⟨rfl, .inl ⟨rfl, rfl⟩⟩
  | some e =>
    rw [stmt] at h
    obtain ⟨result, hr, h⟩ := bind_ok h
    cases h
    exact ⟨rfl, .inr ⟨e, result, rfl, hr, rfl⟩⟩

theorem stmt_continueLoop_ok (h : stmt ctx count .continueLoop = .ok (lines, n)) :
    n = count ∧ ∃ ends, roundEndStatements ctx.renames ctx.roundEnd = .ok ends ∧
      lines = ends ++ [.continueLoop] := by
  rw [stmt] at h
  obtain ⟨ends, he, h⟩ := bind_ok h
  cases h
  exact ⟨rfl, ends, he, rfl⟩

theorem stmt_declaration_ok {type name : String} {initializer : Option Expr}
    (h : stmt ctx count (.declaration type name initializer) = .ok (lines, n)) :
    n = count ∧ ∃ value, lines = [.assign (.name (bind ctx.renames name)) value] ∧
      ((initializer = none ∧ value = defaultValue type) ∨
        ∃ e, initializer = some e ∧ expr ctx.renames 0 e = .ok value) := by
  cases initializer with
  | none =>
    rw [stmt] at h
    cases h
    exact ⟨rfl, _, rfl, .inl ⟨rfl, rfl⟩⟩
  | some e =>
    rw [stmt] at h
    obtain ⟨value, hv, h⟩ := bind_ok h
    cases h
    exact ⟨rfl, value, rfl, .inr ⟨e, rfl, hv⟩⟩

theorem stmt_input_ok {targets : List Expr} (h : stmt ctx count (.input targets) = .ok (lines, n)) :
    n = count ∧ inputs ctx.renames targets = .ok lines := by
  rw [stmt] at h
  obtain ⟨reads, hr, h⟩ := bind_ok h
  cases h
  exact ⟨rfl, hr⟩

theorem stmt_print_ok {parts : List Expr} (h : stmt ctx count (.print parts) = .ok (lines, n)) :
    n = count ∧ ((parts = [] ∧ lines = []) ∨
      ∃ texts, pieces ctx.renames none parts = .ok texts ∧ lines = [.print texts]) := by
  rw [stmt] at h
  split at h
  · rename_i hp
    cases h
    exact ⟨rfl, .inl ⟨by simpa using hp, rfl⟩⟩
  · obtain ⟨texts, ht, h⟩ := bind_ok h
    cases h
    exact ⟨rfl, .inr ⟨texts, ht, rfl⟩⟩

theorem stmt_expression_ok {e : Expr} (h : stmt ctx count (.expression e) = .ok (lines, n)) :
    n = count ∧ ∃ line, expressionStatement ctx.renames e = .ok line ∧ lines = [line] := by
  rw [stmt] at h
  obtain ⟨line, hl, h⟩ := bind_ok h
  cases h
  exact ⟨rfl, line, hl, rfl⟩

/-! ## Expressions as statements -/

/-- The line of an assignment that the target language has a statement for. -/
def assignLine (place : Target.Place) (value : Target.Expr) : AssignOp → Target.Stmt
  | .set => .assign place value
  | .update op => .augment place op value

/-- The line that is generated for an expression in the place of a statement. -/
inductive LineOf (renames : Renames) : Expr → Target.Stmt → Prop where
  | assign {op : AssignOp} {target value : Expr} {spot : Target.Place} {result : Target.Expr}
      (hd : op ≠ .update .div) (hm : op ≠ .update .mod) (hp : place renames target = .ok spot)
      (hv : expr renames 0 value = .ok result) :
    LineOf renames (.assign op target value) (assignLine spot result op)
  /-- Division and remainder have no statement of their own: a variable is assigned the result. -/
  | divide {op : ArithOp} {id : String} {value : Expr} {result : Target.Expr}
      (ho : op = .div ∨ op = .mod) (hv : expr renames 0 value = .ok result) :
    LineOf renames (.assign (.update op) (.name id) value)
      (.assign (.name (bind renames id)) (.binary op.toBinary (.name (bind renames id)) result))
  | step {op : StepOp} {operand : Expr} {spot : Target.Place}
      (hp : place renames operand = .ok spot) :
    LineOf renames (.unary (.step op) operand) (.augment spot op.arith (.number "1"))
  | stepAfter {op : StepOp} {operand : Expr} {spot : Target.Place}
      (hp : place renames operand = .ok spot) :
    LineOf renames (.stepAfter op operand) (.augment spot op.arith (.number "1"))
  | value {e : Expr} {form : Target.Expr} (h : expr renames 0 e = .ok form) :
    LineOf renames e (.eval form)

theorem lineOf {renames : Renames} {e : Expr} {line : Target.Stmt}
    (h : expressionStatement renames e = .ok line) : LineOf renames e line := by
  unfold expressionStatement at h
  split at h
  · rename_i op target value
    obtain ⟨spot, hp, h⟩ := bind_ok h
    obtain ⟨result, hv, h⟩ := bind_ok h
    cases op with
    | set =>
      cases h
      exact .assign nofun nofun hp hv
    | update op =>
      cases op with
      | add | sub | mul =>
        cases h
        exact .assign nofun nofun hp hv
      | div | mod =>
        cases target with
        | name id =>
          cases hp
          cases h
          exact .divide (by decide) hv
        | _ =>
          -- an element or field is divided as a value, by a call that stores too
          obtain ⟨form, hf, h⟩ := bind_ok h
          cases h
          exact .value hf
  · obtain ⟨spot, hp, h⟩ := bind_ok h
    cases h
    exact .step hp
  · obtain ⟨spot, hp, h⟩ := bind_ok h
    cases h
    exact .stepAfter hp
  · obtain ⟨form, hf, h⟩ := bind_ok h
    cases h
    exact .value hf

/-! ## Straight lines -/

/-- Whether a generated line is one that always goes on to the next. -/
def isStraight : Target.Stmt → Bool
  | .assign _ _ | .augment _ _ _ | .eval _ | .print _ => true
  | _ => false

theorem expressionStatement_straight {renames : Renames} {e : Expr} {line : Target.Stmt}
    (h : expressionStatement renames e = .ok line) : isStraight line = true := by
  cases lineOf h with
  | assign =>
    rename_i op _ _ _ _ _ _ _ _
    cases op <;> rfl
  | divide | step | stepAfter | value => rfl

theorem inputs_straight {renames : Renames} : ∀ {targets : List Expr} {lines : List Target.Stmt},
    inputs renames targets = .ok lines → lines.all isStraight = true
  | [], _, h => by
    rw [inputs] at h
    cases h
    rfl
  | target :: rest, _, h => by
    rw [inputs] at h
    obtain ⟨place, -, h⟩ := bind_ok h
    obtain ⟨others, ho, h⟩ := bind_ok h
    cases h
    rw [List.all_cons, inputs_straight ho]
    rfl

/-- Whether no statement stands inside a statement, and it does not jump. -/
def isSimple : Stmt → Bool
  | .header _ | .usingSpace _ | .declaration _ _ _ | .input _ | .print _ | .expression _ => true
  | _ => false

theorem simple_straight {ctx : Context} {count n : Nat} {s : Stmt} {lines : List Target.Stmt}
    (hs : isSimple s = true) (h : stmt ctx count s = .ok (lines, n)) :
    lines.all isStraight = true := by
  cases s with
  | header _ | usingSpace _ =>
    rw [stmt] at h
    cases h
    rfl
  | declaration _ _ _ =>
    obtain ⟨-, value, rfl, -⟩ := stmt_declaration_ok h
    rfl
  | input _ => exact inputs_straight (stmt_input_ok h).2
  | print _ => rcases stmt_print_ok h with ⟨-, ⟨-, rfl⟩ | ⟨texts, -, rfl⟩⟩ <;> rfl
  | expression _ =>
    obtain ⟨-, line, hl, rfl⟩ := stmt_expression_ok h
    simp [expressionStatement_straight hl]
  | _ => cases hs

end ConsoleCpp.Generate

/-! ## The number of declaring loops -/

namespace ConsoleCpp.Stmt

mutual

/-- The number of `for` loops in a statement that declare a variable. -/
def declaringLoops : Stmt → Nat
  | .function _ _ _ body => declaringLoopsAll body
  | .block statements => declaringLoopsAll statements
  | .ifElse _ thenStmt elseStmt => declaringLoops thenStmt + declaringLoopsOption elseStmt
  | .whileLoop _ body | .doLoop _ body => declaringLoops body
  | .forLoop init _ _ body =>
    (if (Generate.loopVariable? init).isSome then 1 else 0) + declaringLoopsOption init +
      declaringLoops body
  | .header _ | .usingSpace _ | .declaration _ _ _ | .prototype _ _ _ | .input _ | .print _
  | .ret _ | .breakLoop | .continueLoop | .expression _ => 0

def declaringLoopsAll : List Stmt → Nat
  | [] => 0
  | s :: rest => declaringLoops s + declaringLoopsAll rest

def declaringLoopsOption : Option Stmt → Nat
  | none => 0
  | some s => declaringLoops s

end

end ConsoleCpp.Stmt

namespace ConsoleCpp.Generate

theorem countLoop_eq (init : Option Stmt) (count : Nat) :
    countLoop init count = count + (if (loopVariable? init).isSome then 1 else 0) := by
  unfold countLoop
  split <;> rfl

/-- The three groups of a list of statements have all its loops between them. -/
theorem declaringLoopsAll_groups : ∀ statements : List Stmt,
    Stmt.declaringLoopsAll statements =
      Stmt.declaringLoopsAll (statements.filter fun s => groupOf s == .prototypes) +
      Stmt.declaringLoopsAll (statements.filter fun s => groupOf s == .functions) +
      Stmt.declaringLoopsAll (statements.filter fun s => groupOf s == .others)
  | [] => rfl
  | s :: rest => by
    have ih := declaringLoopsAll_groups rest
    cases hg : groupOf s <;> simp only [List.filter_cons, hg, Stmt.declaringLoopsAll, ih] <;>
      simp [Stmt.declaringLoopsAll] <;> omega

/-- A sequence counts all the loops of its statements, if each group counts those of its own. -/
theorem sequence_count_of {statements : List Stmt} {ctx : Context} {count n : Nat}
    {lines : List Target.Stmt} (hg : ∀ {count n : Nat} {which : Group} {lines : List Target.Stmt},
      group ctx count which statements = .ok (lines, n) →
      n = count + Stmt.declaringLoopsAll (statements.filter fun s => groupOf s == which))
    (h : sequence ctx count statements = .ok (lines, n)) :
    n = count + Stmt.declaringLoopsAll statements := by
  -- the count goes on from one group to the next, so the three sums add up
  obtain ⟨prototypes, n₁, functions, n₂, others, h₁, h₂, h₃, rfl⟩ := arranged_ok h
  have e₁ := hg h₁
  have e₂ := hg h₂
  have e₃ := hg h₃
  rw [declaringLoopsAll_groups statements]
  omega

mutual

/-- The generator counts exactly the loops that declare a variable. -/
theorem stmt_count : ∀ (s : Stmt) {ctx : Context} {count n : Nat} {lines : List Target.Stmt},
    stmt ctx count s = .ok (lines, n) → n = count + s.declaringLoops
  | .header _, _, _, _, _, h | .usingSpace _, _, _, _, _, h | .prototype _ _ _, _, _, _, _, h
  | .breakLoop, _, _, _, _, h => by
    rw [stmt] at h
    cases h
    rfl
  | .function _ _ _ body, _, _, _, _, h => by
    obtain ⟨inside, hi, rfl⟩ := stmt_function_ok h
    exact sequence_count_of (group_count body) hi
  | .declaration _ _ _, _, _, _, _, h => (stmt_declaration_ok h).1
  | .block statements, _, _, _, _, h => by
    rw [stmt_block_eq] at h
    exact sequence_count_of (group_count statements) h
  | .input _, _, _, _, _, h => (stmt_input_ok h).1
  | .print _, _, _, _, _, h => (stmt_print_ok h).1
  | .ifElse _ thenStmt elseStmt, _, _, _, _, h => by
    obtain ⟨test, first, k, second, chained, -, hf, ha, rfl⟩ := stmt_ifElse_ok h
    have h₁ := stmt_count thenStmt hf
    have h₂ := alternative_count elseStmt ha
    simp only [Stmt.declaringLoops]
    omega
  | .whileLoop _ body, _, _, _, _, h => by
    obtain ⟨test, inside, -, hi, rfl⟩ := stmt_whileLoop_ok h
    exact stmt_count body hi
  | .doLoop _ body, _, _, _, _, h => by
    obtain ⟨test, inside, -, hi, rfl⟩ := stmt_doLoop_ok h
    exact stmt_count body hi
  | .forLoop init _ _ body, _, _, _, _, h => by
    obtain ⟨before, k, test, inside, ends, hb, -, hi, -, rfl⟩ := stmt_forLoop_ok h
    have h₁ := optional_count init hb
    have h₂ := stmt_count body hi
    simp only [Stmt.declaringLoops]
    rw [countLoop_eq] at h₁
    omega
  | .ret _, _, _, _, _, h => (stmt_ret_ok h).1
  | .continueLoop, _, _, _, _, h => (stmt_continueLoop_ok h).1
  | .expression _, _, _, _, _, h => (stmt_expression_ok h).1

theorem alternative_count : ∀ (s : Option Stmt) {ctx : Context} {count n : Nat}
    {lines : List Target.Stmt} {chained : Bool}, alternative ctx count s = .ok (lines, chained, n) →
    n = count + Stmt.declaringLoopsOption s
  | none, _, _, _, _, _, h => by
    rw [alternative] at h
    cases h
    rfl
  | some s, _, _, _, _, _, h => by
    rcases alternative_some_ok h with ⟨hs, -⟩ | ⟨-, body, hs, -⟩
    · exact stmt_count s hs
    · exact stmt_count s hs

theorem optional_count : ∀ (s : Option Stmt) {ctx : Context} {count n : Nat}
    {lines : List Target.Stmt}, optional ctx count s = .ok (lines, n) →
    n = count + Stmt.declaringLoopsOption s
  | none, _, _, _, _, h => by
    rw [optional] at h
    cases h
    rfl
  | some s, _, _, _, _, h => by
    rw [optional] at h
    exact stmt_count s h

/-- One group counts the loops of its own statements. -/
theorem group_count : ∀ (statements : List Stmt) {ctx : Context} {count n : Nat} {which : Group}
    {lines : List Target.Stmt}, group ctx count which statements = .ok (lines, n) →
    n = count + Stmt.declaringLoopsAll (statements.filter fun s => groupOf s == which)
  | [], _, _, _, _, _, h => by
    rw [group] at h
    cases h
    rfl
  | s :: rest, _, _, _, which, _, h => by
    rcases group_cons_ok h with ⟨hw, first, k, others, hs, hr, -⟩ | ⟨hw, hr⟩
    · have h₁ := stmt_count s hs
      have h₂ := group_count rest hr
      simp only [List.filter_cons, hw, beq_self_eq_true, if_true, Stmt.declaringLoopsAll]
      omega
    · have hw' : (groupOf s == which) = false := by simpa using hw
      simp only [List.filter_cons, hw', Bool.false_eq_true, if_false]
      exact group_count rest hr

end

end ConsoleCpp.Generate

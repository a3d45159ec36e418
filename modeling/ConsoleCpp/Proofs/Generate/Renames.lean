/-
Generated forms and the names that the loops around a place introduce: a generated form depends on
these only through the name that each source name gets, so a loop that declares nothing changes
nothing.
-/
import ConsoleCpp.Proofs.Generate.Cases

namespace ConsoleCpp.Generate

/-! ## Scopes -/

theorem expr_std (renames : Renames) (depth : Nat) (right : Expr) :
    expr renames depth (.scope (.name "std") right) = (do
      let depth ← deeper depth
      expr renames depth right) := by
  rw [expr]; rfl

theorem expr_scope (renames : Renames) (depth : Nat) {left : Expr} (right : Expr)
    (h : left ≠ .name "std") :
    expr renames depth (.scope left right) = (do
      let depth ← deeper depth
      return .under (← expr renames depth left) (← expr renames depth right)) := by
  cases left with
  | name id =>
    have hid : (id == "std") = false := by simpa using fun hid => h (by rw [hid])
    simp only [expr, hid, Bool.false_eq_true, if_false, bind_assoc, pure_bind]
  | _ => rw [expr]; intro id hid; cases hid

/-! ## Names of loops -/

/-- The generated name of a source name is its plain one or one that a loop around it introduces. -/
theorem bind_cases (renames : Renames) (name : String) : bind renames name = Target.safeName name ∨
    ∃ names ∈ renames, ∃ id, (name, id) ∈ names ∧ bind renames name = id := by
  unfold bind
  cases hf : renames.findSome? (·.lookup name) with
  | none => exact .inl rfl
  | some id =>
    obtain ⟨names, hm, hl⟩ := List.exists_of_findSome?_eq_some hf
    obtain ⟨before, after, rfl, -⟩ := List.lookup_eq_some_iff.1 hl
    exact .inr ⟨_, hm, id, by simp, rfl⟩

/-- A loop that declares nothing leaves every name as it is. -/
theorem bind_nil_cons (renames : Renames) : bind ([] :: renames) = bind renames := rfl

theorem declares_or_bind_inFor (s : Stmt) (ctx : Context) (count : Nat) :
    (∃ type name initializer, s = .declaration type name initializer) ∨
      bind (ctx.inFor (some s) count).renames = bind ctx.renames := by
  cases s with
  | declaration type name initializer => exact .inl ⟨type, name, initializer, rfl⟩
  | _ => exact .inr (bind_nil_cons ctx.renames)

section

variable {renames renames' : Renames}

mutual

/-- Expressions are generated alike where each source name gets the same name. -/
theorem expr_congr (h : bind renames = bind renames') :
    ∀ (depth : Nat) (e : Expr), expr renames depth e = expr renames' depth e
  | _, .number _ | _, .string _ _ | _, .char _ | _, .bool _ | _, .newObject _ => by simp only [expr]
  | _, .name _ => by simp only [expr, h]
  | _, .unary (.step op) operand => by simp only [expr, fun d => step_congr h d op false operand]
  | _, .unary (.sign _) operand => by simp only [expr, fun d => expr_congr h d operand]
  | _, .stepAfter op operand => by simp only [expr, fun d => step_congr h d op true operand]
  | _, .binary _ left right => by
    simp only [expr, fun d => expr_congr h d left, fun d => expr_congr h d right]
  | _, .assign op target value => by
    simp only [expr, fun d => expr_congr h d value, fun d v => store_congr h d op v target]
  | _, .call callee args => by
    simp only [expr, fun d => expr_congr h d callee, fun d => exprs_congr h d args]
  | _, .member _ target _ => by simp only [expr, fun d => expr_congr h d target]
  | _, .scope left right => by
    by_cases hs : left = .name "std"
    · subst hs
      simp only [expr_std, fun d => expr_congr h d right]
    · simp only [expr_scope _ _ right hs, fun d => expr_congr h d left,
        fun d => expr_congr h d right]
  | _, .index target key => by
    simp only [expr, fun d => expr_congr h d target, fun d => expr_congr h d key]
  | _, .list element => by simp only [expr, fun d => expr_congr h d element]
  | _, .newArray _ size => by simp only [expr, fun d => expr_congr h d size]

theorem exprs_congr (h : bind renames = bind renames') :
    ∀ (depth : Nat) (es : List Expr), exprs renames depth es = exprs renames' depth es
  | _, [] => rfl
  | depth, e :: rest => by simp only [exprs, expr_congr h depth e, exprs_congr h depth rest]

theorem step_congr (h : bind renames = bind renames') (depth : Nat) (op : StepOp)
    (keepsOld : Bool) : ∀ e : Expr, step renames depth op keepsOld e = step renames' depth op keepsOld e
  | .name _ => by simp only [step, h]
  | .index target key => by simp only [step, expr_congr h depth target, expr_congr h depth key]
  | .member _ target _ => by simp only [step, expr_congr h depth target]
  | .number _ | .string _ _ | .char _ | .bool _ | .unary _ _ | .stepAfter _ _ | .binary _ _ _
  | .assign _ _ _ | .call _ _ | .scope _ _ | .list _ | .newObject _ | .newArray _ _ => by
    simp only [step]

theorem store_congr (h : bind renames = bind renames') (depth : Nat) (op : AssignOp)
    (value : Target.Expr) : ∀ e : Expr, store renames depth op value e = store renames' depth op value e
  | .name _ => by simp only [store, h]
  | .index target key => by simp only [store, expr_congr h depth target, expr_congr h depth key]
  | .member _ target _ => by simp only [store, expr_congr h depth target]
  | .number _ | .string _ _ | .char _ | .bool _ | .unary _ _ | .stepAfter _ _ | .binary _ _ _
  | .assign _ _ _ | .call _ _ | .scope _ _ | .list _ | .newObject _ | .newArray _ _ => by
    simp only [store]

end

theorem place_congr (h : bind renames = bind renames') (e : Expr) :
    place renames e = place renames' e := by
  cases e <;> simp only [place, expr_congr h, h]

theorem expressionStatement_congr (h : bind renames = bind renames') (e : Expr) :
    expressionStatement renames e = expressionStatement renames' e := by
  unfold expressionStatement
  simp only [place_congr h, expr_congr h]

theorem roundEndStatements_congr (h : bind renames = bind renames') (ending : RoundEnd) :
    roundEndStatements renames ending = roundEndStatements renames' ending := by
  cases ending with
  | nothing | leaveUnless _ => rfl
  | update e => simp only [roundEndStatements, expressionStatement_congr h]

end

end ConsoleCpp.Generate

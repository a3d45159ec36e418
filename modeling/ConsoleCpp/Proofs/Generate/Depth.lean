/-
Generated forms, the nesting around them and `std::` in them. How deep an expression stands decides
whether it is generated, and nothing else; and qualifying operands with `std::` does nothing but
nest them one level deeper. So a form that is generated is generated the same at any other depth and
with any operands qualified, or the limit is passed there.
-/
import ConsoleCpp.Proofs.Generate.Renames
import ConsoleCpp.Proofs.Outcome
import ConsoleCpp.Proofs.Source.Qualified

namespace ConsoleCpp.Generate

open ConsoleCpp.Expr (Qualifies QualifiesAll)

/-! ## Results up to the limit -/

/-- Two generations give the same result where both of them succeed. -/
def Agree {ε α : Type} (x y : Except ε α) : Prop := ∀ a b, x = .ok a → y = .ok b → a = b

/-- What the first generation gives, the second gives too, unless it passes the limit. -/
def UpToDepth {α : Type} (x y : Except CompileError α) : Prop :=
  ∀ a, x = .ok a → Ends (· = a) (· = .tooDeep maxExpressionDepth .expression) y

namespace UpToDepth

variable {α β : Type} {x y : Except CompileError α} {f g : α → Except CompileError β}

theorem refl (x : Except CompileError α) : UpToDepth x x := by
  rintro a rfl
  exact rfl

theorem bind (h : UpToDepth x y) (hf : ∀ a, UpToDepth (f a) (g a)) :
    UpToDepth (x >>= f) (y >>= g) := by
  intro b hb
  obtain ⟨a, ha, hb⟩ := bind_ok hb
  exact (h a ha).bind fun a' he => he ▸ hf a b hb

theorem agree (h : UpToDepth x y) : Agree x y := fun a _ ha hb => ((h a ha).ok hb).symm

end UpToDepth

section

variable {β : Type} {x : Except CompileError β} {f g : Nat → Except CompileError β}

theorem deeper_tooDeep (depth : Nat) :
    Ends (fun _ => True) (· = .tooDeep maxExpressionDepth .expression) (deeper depth) := by
  unfold deeper
  split
  · exact rfl
  · trivial

/-- Only the second generation goes a level deeper. -/
theorem UpToDepth.further {depth : Nat} (h : ∀ d, UpToDepth x (g d)) :
    UpToDepth x (deeper depth >>= g) :=
  fun b hb => (deeper_tooDeep depth).bind fun d _ => h d b hb

/-- Both generations go a level deeper. -/
theorem UpToDepth.deeper {depth depth' : Nat} (h : ∀ d d', UpToDepth (f d) (g d')) :
    UpToDepth (deeper depth >>= f) (deeper depth' >>= g) := by
  intro b hb
  obtain ⟨d, -, hb⟩ := bind_ok hb
  exact (deeper_tooDeep depth').bind fun d' _ => h d d' b hb

end

/-! ## Expressions -/

section

variable {renames : Renames} {e e' : Expr} {depth : Nat}

theorem isAssignable_of_step {op : StepOp} {keepsOld : Bool} {x : Target.Expr}
    (h : step renames depth op keepsOld e = .ok x) : e.isAssignable = true := by
  cases e with
  | name _ | index _ _ | member _ _ _ => rfl
  | _ => simp only [step, reduceCtorEq] at h

theorem isAssignable_of_store {op : AssignOp} {value x : Target.Expr}
    (h : store renames depth op value e = .ok x) : e.isAssignable = true := by
  cases e with
  | name _ | index _ _ | member _ _ _ => rfl
  | _ => simp only [store, reduceCtorEq] at h

mutual

/-- Qualified operands change neither the form of an expression nor what it is made of. -/
theorem expr_qualified (depth depth' : Nat) {e e' : Expr} : Qualifies e e' →
    UpToDepth (expr renames depth e) (expr renames depth' e')
  | .std _ h => by
    rw [expr_std]
    exact .further fun d => expr_qualified depth d h
  | .number _ | .string _ _ | .char _ | .bool _ | .name _ | .newObject _ => by
    simp only [expr]
    exact .deeper fun _ _ => .refl _
  | .step op h hp => by
    simp only [expr]
    exact .deeper fun d d' => step_qualified op false d d' h hp
  | .stepAfter op h hp => by
    simp only [expr]
    exact .deeper fun d d' => step_qualified op true d d' h hp
  | .sign _ h | .member _ h _ | .list h | .newArray _ h => by
    simp only [expr]
    exact .deeper fun d d' => (expr_qualified d d' h).bind fun _ => .refl _
  | .binary _ ha hb | .index ha hb => by
    simp only [expr]
    exact .deeper fun d d' => (expr_qualified d d' ha).bind fun _ =>
      (expr_qualified d d' hb).bind fun _ => .refl _
  | .assign op ha hp hb => by
    simp only [expr]
    exact .deeper fun d d' => (expr_qualified d d' hb).bind fun v => store_qualified op v d d' ha hp
  | .call ha hs => by
    simp only [expr]
    exact .deeper fun d d' => (expr_qualified d d' ha).bind fun _ =>
      (exprs_qualified d d' hs).bind fun _ => .refl _
  | @Qualifies.scope left left' right right' ha hb => by
    by_cases hl : left = .name "std"
    · obtain rfl := (ha.name_iff "std").1 hl
      subst hl
      rw [expr_std, expr_std]
      exact .deeper fun d d' => expr_qualified d d' hb
    · rw [expr_scope _ _ right hl, expr_scope _ _ right' fun hl' => hl ((ha.name_iff "std").2 hl')]
      exact .deeper fun d d' => (expr_qualified d d' ha).bind fun _ =>
        (expr_qualified d d' hb).bind fun _ => .refl _

theorem exprs_qualified (depth depth' : Nat) {es es' : List Expr} : QualifiesAll es es' →
    UpToDepth (exprs renames depth es) (exprs renames depth' es')
  | .nil => .refl _
  | .cons h hs => by
    simp only [exprs]
    exact (expr_qualified depth depth' h).bind fun _ =>
      (exprs_qualified depth depth' hs).bind fun _ => .refl _

theorem step_qualified (op : StepOp) (keepsOld : Bool) (depth depth' : Nat) {e e' : Expr} :
    Qualifies e e' → (e.isAssignable = true → e'.isAssignable = true) →
      UpToDepth (step renames depth op keepsOld e) (step renames depth' op keepsOld e')
  | .name _, _ => by
    simp only [step]
    exact .refl _
  | .index ha hb, _ => by
    simp only [step]
    exact (expr_qualified depth depth' ha).bind fun _ =>
      (expr_qualified depth depth' hb).bind fun _ => .refl _
  | .member _ h _, _ => by
    simp only [step]
    exact (expr_qualified depth depth' h).bind fun _ => .refl _
  | .std _ _, hp => fun _ hx => by cases hp (isAssignable_of_step hx)
  | .number _, _ | .string _ _, _ | .char _, _ | .bool _, _ | .newObject _, _ | .sign _ _, _
  | .step _ _ _, _ | .stepAfter _ _ _, _ | .binary _ _ _, _ | .assign _ _ _ _, _ | .call _ _, _
  | .scope _ _, _ | .list _, _ | .newArray _ _, _ => fun _ hx => by cases isAssignable_of_step hx

theorem store_qualified (op : AssignOp) (value : Target.Expr) (depth depth' : Nat) {e e' : Expr} :
    Qualifies e e' → (e.isAssignable = true → e'.isAssignable = true) →
      UpToDepth (store renames depth op value e) (store renames depth' op value e')
  | .name _, _ => by
    simp only [store]
    exact .refl _
  | .index ha hb, _ => by
    simp only [store]
    exact (expr_qualified depth depth' ha).bind fun _ =>
      (expr_qualified depth depth' hb).bind fun _ => .refl _
  | .member _ h _, _ => by
    simp only [store]
    exact (expr_qualified depth depth' h).bind fun _ => .refl _
  | .std _ _, hp => fun _ hx => by cases hp (isAssignable_of_store hx)
  | .number _, _ | .string _ _, _ | .char _, _ | .bool _, _ | .newObject _, _ | .sign _ _, _
  | .step _ _ _, _ | .stepAfter _ _ _, _ | .binary _ _ _, _ | .assign _ _ _ _, _ | .call _ _, _
  | .scope _ _, _ | .list _, _ | .newArray _ _, _ => fun _ hx => by cases isAssignable_of_store hx

end

/-- How deep an expression stands does not change its form. -/
theorem expr_depth (e : Expr) (depth depth' : Nat) :
    Agree (expr renames depth e) (expr renames depth' e) :=
  (expr_qualified depth depth' (.refl e)).agree

end

end ConsoleCpp.Generate

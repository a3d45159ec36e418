/-
Where a source expression uses a name and what stands there in its generated form. The variables of
the form are, in order, the generated names of the names that the expression uses; only a combined
assignment in the middle of an expression has its variable twice. A name behind a `::` is a member and
no use, and the form has a field there: so the two sides are followed together, once for the form on
its own and once for the form behind a point.
-/
import ConsoleCpp.Proofs.Names.Hygiene

namespace ConsoleCpp

/-! ## Matching lists -/

/-- A list of things and a list of names for them, in the same order. A thing can have its name
twice. -/
inductive Spelled {α : Type} (r : α → String → Prop) : List α → List String → Prop
  | nil : Spelled r [] []
  | once {a : α} {id : String} {as : List α} {ids : List String} :
    r a id → Spelled r as ids → Spelled r (a :: as) (id :: ids)
  | twice {a : α} {id : String} {as : List α} {ids : List String} :
    r a id → Spelled r as ids → Spelled r (a :: as) (id :: id :: ids)

namespace Spelled

variable {α β : Type} {r : α → String → Prop} {as bs : List α} {ids others : List String}

theorem single {a : α} {id : String} (h : r a id) : Spelled r [a] [id] := .once h .nil

/-- Two lists that are spelled out one after the other. -/
theorem append (h₁ : Spelled r as ids) (h₂ : Spelled r bs others) :
    Spelled r (as ++ bs) (ids ++ others) := by
  induction h₁ with
  | nil => exact h₂
  | once h _ ih => exact .once h ih
  | twice h _ ih => exact .twice h ih

/-- What the names are to the things may be told less exactly. -/
theorem imp {q : α → String → Prop} (h : Spelled r as ids)
    (hq : ∀ a ∈ as, ∀ id, r a id → q a id) : Spelled q as ids := by
  induction h with
  | nil => exact .nil
  | once h _ ih => exact .once (hq _ (.head _) _ h) (ih fun a ha => hq a (.tail _ ha))
  | twice h _ ih => exact .twice (hq _ (.head _) _ h) (ih fun a ha => hq a (.tail _ ha))

/-- The things may be replaced by others that have the same names. -/
theorem map {q : β → String → Prop} (f : α → β) (h : Spelled r as ids)
    (hq : ∀ a id, r a id → q (f a) id) : Spelled q (as.map f) ids := by
  induction h with
  | nil => exact .nil
  | once h _ ih => exact .once (hq _ _ h) ih
  | twice h _ ih => exact .twice (hq _ _ h) ih

/-- Taken once for each thing, the names stand in the list in their order. -/
theorem sublist {f : α → String} (h : Spelled r as ids) (hr : ∀ a id, r a id → id = f a) :
    (as.map f).Sublist ids := by
  induction h with
  | nil => exact List.Sublist.refl _
  | once h _ ih =>
    rw [hr _ _ h]
    exact ih.cons_cons _
  | twice h _ ih =>
    rw [hr _ _ h]
    exact (ih.cons_cons _).cons _

end Spelled

/-! ## Uses in source expressions -/

namespace Expr

/-- Whether an expression is the name of the space that needs no mention. -/
def isStd : Expr → Bool
  | .name id => id == "std"
  | _ => false

theorem isStd_iff (e : Expr) : e.isStd = true ↔ e = .name "std" := by
  cases e <;> simp [isStd]

mutual

/-- The names that an expression uses as variables or functions. One that stands first `behind` a
`::` is the member of something. -/
def names (behind : Bool) : Expr → List String
  | .name id => bif behind then [] else [id]
  | .unary _ operand | .stepAfter _ operand => names false operand
  | .binary _ left right => names false left ++ names false right
  | .assign _ target value => names false target ++ names false value
  | .call callee args => names behind callee ++ namesAll args
  | .member _ target _ => names behind target
  | .scope left right =>
    if left.isStd then names behind right else names behind left ++ names true right
  | .index target key => names behind target ++ names false key
  | .list element | .newArray _ element => names false element
  | .number _ | .string _ _ | .char _ | .bool _ | .newObject _ => []

def namesAll : List Expr → List String
  | [] => []
  | e :: rest => names false e ++ namesAll rest

end

/-- The standard space is not written and uses nothing. -/
theorem names_std (behind : Bool) (right : Expr) :
    names behind (.scope (.name "std") right) = names behind right := by
  rw [names, if_pos ((isStd_iff _).2 rfl)]

/-- Any other space is used, and what stands behind it is a member of it. -/
theorem names_scope (behind : Bool) {left : Expr} (right : Expr) (h : left ≠ .name "std") :
    names behind (.scope left right) = names behind left ++ names true right := by
  rw [names, if_neg (mt (isStd_iff left).1 h)]

end Expr

/-! ## Uses in generated lines -/

namespace Target.Stmt

mutual

/-- The variables of a statement in the order of its text, those of functions inside apart. -/
def uses : Stmt → List String
  | .assign target value | .augment target _ value => target.expr.uses false ++ value.uses false
  | .eval e => e.uses false
  | .print pieces => Expr.usesAll pieces
  | .define header _ _ => [header.name]
  | .ifElse condition thenSuite elseSuite _ =>
    condition.uses false ++ usesAll thenSuite ++ usesAll elseSuite
  | .whileLoop condition body => condition.uses false ++ usesAll body
  | .leaveUnless condition => condition.uses false
  | .ret value => Expr.usesAll value.toList
  | .unimplemented _ | .breakLoop | .continueLoop | .pass => []

def usesAll : List Stmt → List String
  | [] => []
  | s :: rest => uses s ++ usesAll rest

end

mutual

/-- What a statement uses outside the functions inside it is among all its variables. -/
theorem uses_sublist : ∀ s : Stmt, s.uses.Sublist s.vars
  | .assign target value | .augment target _ value =>
    (Expr.varsAt_sublist true false target.expr).append (Expr.varsAt_sublist true false value)
  | .eval e | .leaveUnless e => Expr.varsAt_sublist true false e
  | .print pieces => Expr.varsAllAt_sublist true pieces
  | .ret value => Expr.varsAllAt_sublist true value.toList
  | .define header _ _ => (List.nil_sublist _).cons_cons header.name
  | .ifElse condition thenSuite elseSuite _ =>
    ((Expr.varsAt_sublist true false condition).append (usesAll_sublist thenSuite)).append
      (usesAll_sublist elseSuite)
  | .whileLoop condition body =>
    (Expr.varsAt_sublist true false condition).append (usesAll_sublist body)
  | .unimplemented _ | .breakLoop | .continueLoop | .pass => List.Sublist.refl _

theorem usesAll_sublist : ∀ ss : List Stmt, (usesAll ss).Sublist (varsAll ss)
  | [] => List.Sublist.refl _
  | s :: rest => (uses_sublist s).append (usesAll_sublist rest)

end

theorem usesAll_append (xs ys : List Stmt) : usesAll (xs ++ ys) = usesAll xs ++ usesAll ys := by
  induction xs with
  | nil => rfl
  | cons s rest ih => rw [List.cons_append, usesAll, usesAll, ih, List.append_assoc]

theorem usesAll_singleton (s : Stmt) : usesAll [s] = uses s := by
  rw [usesAll, usesAll, List.append_nil]

/-- A suite without lines is filled with one that uses nothing. -/
theorem usesAll_orPass (lines : List Stmt) : usesAll (Generate.orPass lines) = usesAll lines := by
  cases lines <;> rfl

end Target.Stmt

/-! ## Generated forms -/

namespace Generate

open Target.Expr (uses usesAll)

/-- The variables are the generated names of these source names. -/
abbrev Bound (renames : Renames) : List String → List String → Prop :=
  Spelled fun name id => id = bind renames name

/-- A generated form uses the names that the expression uses, also behind a point. -/
def Follows (renames : Renames) (e : Expr) (form : Target.Expr) : Prop :=
  ∀ behind, Bound renames (e.names behind) (form.uses behind)

section

variable {renames : Renames}

mutual

/-- By the tree, at once for the form on its own and for the form behind a point. -/
theorem expr_follows : ∀ (e : Expr) (depth : Nat),
    Ends (Follows renames e) (fun _ => True) (expr renames depth e)
  | .number _, _ => by
    rw [expr]
    exact .bind_any fun _ => .bind_any fun _ _ => .nil
  | .string _ _, _ | .char _, _ | .bool _, _ | .newObject _, _ => by
    rw [expr]
    exact .bind_any fun _ _ => .nil
  | .name id, _ => by
    rw [expr]
    refine .bind_any fun _ behind => ?_
    cases behind with
    | true => exact .nil
    | false => exact .single rfl
  | .unary (.step op) operand, _ => by
    rw [expr]
    exact .bind_any fun depth => step_follows op false operand depth
  | .stepAfter op operand, _ => by
    rw [expr]
    exact .bind_any fun depth => step_follows op true operand depth
  | .unary (.sign _) operand, _ | .list operand, _ | .newArray _ operand, _ => by
    rw [expr]
    exact .bind_any fun depth => (expr_follows operand depth).bind fun _ h _ => h false
  | .binary _ left right, _ => by
    rw [expr]
    refine .bind_any fun depth => (expr_follows left depth).bind fun _ h₁ => ?_
    exact (expr_follows right depth).bind fun _ h₂ _ => (h₁ false).append (h₂ false)
  | .index left right, _ => by
    rw [expr]
    refine .bind_any fun depth => (expr_follows left depth).bind fun _ h₁ => ?_
    exact (expr_follows right depth).bind fun _ h₂ behind => (h₁ behind).append (h₂ false)
  | .assign op target value, _ => by
    rw [expr]
    refine .bind_any fun depth => (expr_follows value depth).bind fun _ hv => ?_
    exact store_follows op target depth (hv false)
  | .call callee args, _ => by
    rw [expr]
    refine .bind_any fun depth => (expr_follows callee depth).bind fun _ h₁ => ?_
    exact (exprs_follows args depth).bind fun _ h₂ behind => (h₁ behind).append h₂
  | .member _ target _, _ => by
    rw [expr]
    refine .bind_any fun depth => (expr_follows target depth).bind fun owner ho behind => ?_
    rw [uses, Target.Expr.varsAt_dot]
    exact ho behind
  | .scope left right, _ => by
    by_cases hs : left = .name "std"
    · subst hs
      rw [expr_std]
      refine .bind_any fun depth => ?_
      -- the standard space leaves no trace in the form, and counts for nothing among the names
      have hright : Follows renames (.scope (.name "std") right) = Follows renames right := by
        funext form
        simp only [Follows, Expr.names_std]
      rw [hright]
      exact expr_follows right depth
    · rw [expr_scope _ _ right hs]
      refine .bind_any fun depth => (expr_follows left depth).bind fun first h₁ => ?_
      refine (expr_follows right depth).bind fun second h₂ behind => ?_
      rw [Expr.names_scope _ right hs, uses, Target.Expr.varsAt_under true behind first (Bool.and_true _)]
      exact (h₁ behind).append (h₂ true)

theorem exprs_follows : ∀ (es : List Expr) (depth : Nat),
    Ends (fun forms => Bound renames (Expr.namesAll es) (usesAll forms)) (fun _ => True)
      (exprs renames depth es)
  | [], _ => by
    rw [exprs]
    exact .nil
  | e :: rest, depth => by
    rw [exprs]
    refine (expr_follows e depth).bind fun _ h₁ => ?_
    exact (exprs_follows rest depth).bind fun _ h₂ => (h₁ false).append h₂

/-- A step is a variable with its step, or a call of a helper with what the place consists of. -/
theorem step_follows (op : StepOp) (keepsOld : Bool) : ∀ (e : Expr) (depth : Nat),
    Ends (fun form => ∀ behind, Bound renames (e.names false) (form.uses behind)) (fun _ => True)
      (step renames depth op keepsOld e)
  | .name id, _ => by
    rw [step]
    exact fun _ => .single rfl
  | .index target key, depth => by
    rw [step]
    refine (expr_follows target depth).bind fun _ h₁ => (expr_follows key depth).bind fun _ h₂ _ => ?_
    show Bound renames _ (_ ++ _ ++ [])
    rw [List.append_nil]
    exact (h₁ false).append (h₂ false)
  | .member _ target _, depth => by
    rw [step]
    refine (expr_follows target depth).bind fun _ h _ => ?_
    show Bound renames _ (_ ++ [])
    rw [List.append_nil]
    exact h false
  | .number _, _ | .string _ _, _ | .char _, _ | .bool _, _ | .unary _ _, _ | .stepAfter _ _, _
  | .binary _ _ _, _ | .assign _ _ _, _ | .call _ _, _ | .scope _ _, _ | .list _, _
  | .newObject _, _ | .newArray _ _, _ => by
    rw [step]
    · trivial
    all_goals
      intros
      contradiction

/-- An assignment to a variable binds it, and a combined one reads it too. -/
theorem store_follows (op : AssignOp) {source : Expr} : ∀ (e : Expr) (depth : Nat)
    {value : Target.Expr}, Bound renames (source.names false) (value.uses false) →
    Ends (Follows renames (.assign op e source)) (fun _ => True) (store renames depth op value e)
  | .name id, _, _, hv => by
    cases op with
    | set =>
      rw [store]
      exact fun _ => .once rfl hv
    | update op =>
      rw [store]
      exact fun _ => .twice rfl hv
  | .index target key, depth, _, hv => by
    rw [store]
    refine (expr_follows target depth).bind fun _ h₁ => (expr_follows key depth).bind fun _ h₂ => ?_
    have h := ((h₁ false).append (h₂ false)).append hv
    cases op <;> exact fun _ => h
  | .member _ target _, depth, _, hv => by
    rw [store]
    refine (expr_follows target depth).bind fun _ h => ?_
    have h := (h false).append hv
    cases op <;> exact fun _ => h
  | .number _, _, _, _ | .string _ _, _, _, _ | .char _, _, _, _ | .bool _, _, _, _
  | .unary _ _, _, _, _ | .stepAfter _ _, _, _, _ | .binary _ _ _, _, _, _ | .assign _ _ _, _, _, _
  | .call _ _, _, _, _ | .scope _ _, _, _, _ | .list _, _, _, _ | .newObject _, _, _, _
  | .newArray _ _, _, _, _ => by
    rw [store]
    · trivial
    all_goals
      intros
      contradiction

end

theorem expr_bound {e : Expr} {depth : Nat} {form : Target.Expr}
    (h : expr renames depth e = .ok form) : Bound renames (e.names false) (form.uses false) :=
  (expr_follows e depth).ok h false

theorem place_bound {e : Expr} {spot : Target.Place} (h : place renames e = .ok spot) :
    Bound renames (e.names false) (spot.expr.uses false) := by
  unfold place at h
  split at h
  · cases h
    exact .single rfl
  · obtain ⟨owner, ho, h⟩ := bind_ok h
    obtain ⟨key, hk, h⟩ := bind_ok h
    cases h
    exact (expr_bound ho).append (expr_bound hk)
  · obtain ⟨owner, ho, h⟩ := bind_ok h
    cases h
    have hb := expr_bound ho
    exact hb
  · cases h

/-- The pieces of a line that is printed, with blanks in between. -/
theorem pieces_bound : ∀ {parts : List Expr} {previous : Option Expr} {texts : List Target.Expr},
    pieces renames previous parts = .ok texts →
    Bound renames (Expr.namesAll parts) (usesAll texts)
  | [], _, _, h => by
    cases h
    exact .nil
  | part :: rest, _, _, h => by
    rw [pieces] at h
    obtain ⟨text, ht, h⟩ := bind_ok h
    obtain ⟨others, ho, h⟩ := bind_ok h
    have hshown : Bound renames (part.names false) (text.uses false) := by
      unfold shown at ht
      obtain ⟨value, hv, ht⟩ := bind_ok ht
      have hb := expr_bound hv
      split at ht <;> cases ht <;> exact hb
    -- a blank in between has no variables
    have hall := hshown.append (pieces_bound ho)
    split at h <;> cases h <;> exact hall

/-- As a line, a division assigned to a variable is the only assignment that has the variable twice.
-/
theorem line_bound {e : Expr} {line : Target.Stmt} (h : LineOf renames e line) :
    Bound renames (e.names false) line.uses := by
  cases h with
  | assign hd hm hp hv =>
    rename_i op _ _ _ _
    have h := (place_bound hp).append (expr_bound hv)
    cases op <;> exact h
  | divide ho hv => exact .twice rfl (expr_bound hv)
  | step hp | stepAfter hp =>
    have h := (place_bound hp).append .nil
    rw [List.append_nil] at h
    exact h
  | value hf => exact expr_bound hf

theorem roundEnd_bound {update : Option Expr} {ends : List Target.Stmt}
    (h : roundEndStatements renames (updateEnd update) = .ok ends) :
    Bound renames (Expr.namesAll update.toList) (Target.Stmt.usesAll ends) := by
  cases update with
  | none =>
    cases h
    exact .nil
  | some e =>
    obtain ⟨line, hl, h⟩ := bind_ok h
    cases h
    exact (line_bound (lineOf hl)).append .nil

/-- Each place that is read into is a line of its own. -/
theorem inputs_bound : ∀ {targets : List Expr} {lines : List Target.Stmt},
    inputs renames targets = .ok lines → Bound renames (Expr.namesAll targets) (Target.Stmt.usesAll lines)
  | [], _, h => by
    cases h
    exact .nil
  | target :: rest, _, h => by
    rw [inputs] at h
    obtain ⟨spot, hs, h⟩ := bind_ok h
    obtain ⟨others, ho, h⟩ := bind_ok h
    cases h
    show Bound renames _ ((_ ++ []) ++ _)
    rw [List.append_nil]
    exact (place_bound hs).append (inputs_bound ho)

end

end Generate

end ConsoleCpp

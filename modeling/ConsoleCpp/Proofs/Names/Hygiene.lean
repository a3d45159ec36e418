/-
Variables of generated programs. Each is the generated name of a source name, plain or that of a
loop variable, and none of these is a name that the lines around the program bind. So no program can
read or replace its own input, the reader of words or the list of outputs by naming it.
-/
import ConsoleCpp.Proofs.Generate.Emitted
import ConsoleCpp.Proofs.Generate.Renames

namespace ConsoleCpp

/-! ## Variables -/

namespace Target

namespace Expr

mutual

/-- The variables that an expression reads or binds, in the order of its text. Fields are none, and
the name at the front of an expression that is itself `behind` a point is a field. Where a point or
the digits before it stand at something that they cannot be joined to, this is read on its own or,
`through` the point, as what stands behind one. -/
def varsAt (through behind : Bool) : Expr → List String
  | .name id => bif behind then [] else [id]
  | .step _ _ id => [id]
  | .bind id value => id :: varsAt through false value
  | .sign _ operand => varsAt through false operand
  | .binary _ left right => varsAt through false left ++ varsAt through false right
  | .call callee args => varsAt through behind callee ++ varsAllAt through args
  | .attr owner _ => varsAt through behind owner
  | .item owner key => varsAt through behind owner ++ varsAt through false key
  | .list element | .shown element => varsAt through false element
  | .store owner key value | .update owner key _ value _ =>
    varsAt through false owner ++ varsAt through false key ++ varsAt through false value
  | .storeAttr owner _ value | .updateAttr owner _ _ value _ =>
    varsAt through false owner ++ varsAt through false value
  | .newArray size _ => varsAt through false size
  | .misjoined left right =>
    varsAt through (behind && through) left ++ varsAt through through right
  | .adjoined _ next => varsAt through through next
  | .number _ | .text _ | .bool _ | .nothing | .input | .newObject _ => []

def varsAllAt (through : Bool) : List Expr → List String
  | [] => []
  | e :: rest => varsAt through false e ++ varsAllAt through rest

end

/-- The variables of an expression, where pieces that cannot be joined are read apart. -/
def vars (e : Expr) : List String := e.varsAt false false

def varsAll (es : List Expr) : List String := varsAllAt false es

/-- The variables of an expression, where each point makes a field of the name behind it. -/
def uses (behind : Bool) (e : Expr) : List String := e.varsAt true behind

def usesAll (es : List Expr) : List String := varsAllAt true es

section

variable (through behind : Bool)

/-- A field adds nothing and hides nothing. -/
theorem varsAt_dot (owner : Expr) (field : String) :
    (owner.dot field).varsAt through behind = owner.varsAt through behind := by
  unfold dot
  split
  · split <;> rfl
  · rfl

/-- What cannot be joined is where the two readings differ. -/
theorem varsAt_join (left e : Expr) :
    (left.join e).varsAt through behind =
      left.varsAt through (behind && through) ++ e.varsAt through through := by
  unfold join
  split
  · split <;> rfl
  · rfl

/-- The arguments of a helper have the variables that the call of the helper has. -/
theorem varsAt_helperCall {e : Expr} {helper : String} {args : List Expr}
    (h : e.helperCall? = some (helper, args)) :
    varsAllAt through args = e.varsAt through behind := by
  unfold helperCall? at h
  split at h <;> cases h <;> simp [varsAllAt, varsAt]
  · rename_i keepsOld
    cases keepsOld <;> simp [varsAllAt, varsAt]
  · rename_i keepsOld
    cases keepsOld <;> simp [varsAllAt, varsAt]

/-- A point makes the name behind it a field and leaves all other variables where they are. -/
theorem varsAt_under (left : Expr) (h : (behind && through) = behind) : ∀ e : Expr,
    (under left e).varsAt through behind = left.varsAt through behind ++ e.varsAt through true
  | .name id => by
    rw [under, varsAt_dot, varsAt, cond_true, List.append_nil]
  | .call callee args => by
    rw [under, varsAt, varsAt_under left h callee, varsAt, List.append_assoc]
  | .attr owner field => varsAt_under left h owner
  | .item owner key => by
    rw [under, varsAt, varsAt_under left h owner, varsAt, List.append_assoc]
  | .number digits => by
    cases left with
    | number whole =>
      simp only [under]
      split <;> rfl
    | _ => exact congrArg (fun front => varsAt through front _ ++ []) h
  | .text _ | .bool _ | .nothing | .sign _ _ | .binary _ _ _ | .bind _ _ | .step _ _ _ | .list _
  | .input | .shown _ | .store _ _ _ | .update _ _ _ _ _ | .storeAttr _ _ _ | .updateAttr _ _ _ _ _
  | .newArray _ _ | .newObject _ | .misjoined _ _ | .adjoined _ _ => by
    simp only [under]
    split
    · rename_i helper args hc
      show left.varsAt through behind ++ varsAllAt through args = _
      rw [varsAt_helperCall through true hc]
    · -- none of these has a name at its front that a point could reach
      rw [varsAt_join, h]
      cases through <;> rfl

end

mutual

/-- Every other reading leaves some of the variables out and keeps the order. -/
theorem varsAt_sublist (through behind : Bool) : ∀ e : Expr,
    (e.varsAt through behind).Sublist e.vars
  | .name id => by
    cases behind with
    | true => exact List.nil_sublist _
    | false => exact List.Sublist.refl _
  | .bind id value => (varsAt_sublist through false value).cons_cons id
  | .sign _ e | .list e | .shown e | .newArray e _ => varsAt_sublist through false e
  | .binary _ left right =>
    (varsAt_sublist through false left).append (varsAt_sublist through false right)
  | .call callee args => (varsAt_sublist through behind callee).append (varsAllAt_sublist through args)
  | .attr owner _ => varsAt_sublist through behind owner
  | .item owner key => (varsAt_sublist through behind owner).append (varsAt_sublist through false key)
  | .store owner key value | .update owner key _ value _ =>
    ((varsAt_sublist through false owner).append (varsAt_sublist through false key)).append
      (varsAt_sublist through false value)
  | .storeAttr owner _ value | .updateAttr owner _ _ value _ =>
    (varsAt_sublist through false owner).append (varsAt_sublist through false value)
  | .misjoined left right =>
    (varsAt_sublist through (behind && through) left).append (varsAt_sublist through through right)
  | .adjoined _ next => varsAt_sublist through through next
  | .step _ _ _ | .number _ | .text _ | .bool _ | .nothing | .input | .newObject _ =>
    List.Sublist.refl _

theorem varsAllAt_sublist (through : Bool) : ∀ es : List Expr,
    (varsAllAt through es).Sublist (varsAll es)
  | [] => List.Sublist.refl _
  | e :: rest => (varsAt_sublist through false e).append (varsAllAt_sublist through rest)

end

end Expr

namespace Stmt

mutual

/-- The variables that a statement reads, binds or takes from the functions around it, those of
functions inside included. -/
def vars : Stmt → List String
  | .assign target value | .augment target _ value => target.expr.vars ++ value.vars
  | .eval e => e.vars
  | .print pieces => Expr.varsAll pieces
  | .define header nonlocals body =>
    header.name :: header.params ++ nonlocals ++ varsAll body
  | .ifElse condition thenSuite elseSuite _ =>
    condition.vars ++ varsAll thenSuite ++ varsAll elseSuite
  | .whileLoop condition body => condition.vars ++ varsAll body
  | .leaveUnless condition => condition.vars
  | .ret value => Expr.varsAll value.toList
  | .unimplemented _ | .breakLoop | .continueLoop | .pass => []

def varsAll : List Stmt → List String
  | [] => []
  | s :: rest => vars s ++ varsAll rest

end

end Stmt

/-- The variables of a program. -/
def Program.vars (p : Program) : List String := Stmt.varsAll (p.stubs ++ p.body)

/-! ## Names of the generator -/

/-- The names that the lines around a program bind: the function that the program is, its input, the
reader of words, the list of outputs, and the module of helpers. -/
def ownNames : List String := ["__program", "__input", "__read", "__outputs", "__rt"]

/-- The generated name of a source name, plain or that of the variable of a loop. -/
def Given (id : String) : Prop :=
  ∃ name, id = safeName name ∨ ∃ count, id = loopName name count

/-- A changed name ends in an underscore, and one that is kept does not start with two of them. -/
theorem safeName_not_own (name : String) : safeName name ∉ ownNames := by
  unfold safeName
  intro hm
  split at hm
  · -- none of the names ends in an underscore
    have hlast : ∀ id ∈ ownNames, id.toList.getLast? ≠ some '_' := by decide
    exact hlast _ hm (by simp [String.toList_append])
  · rename_i hplain
    have hprivate : ∀ id ∈ ownNames, isPrivate id = true := by decide
    rw [hprivate _ hm, Bool.or_true] at hplain
    exact hplain rfl

/-- The name of a loop variable ends in its number. -/
theorem loopName_not_own (name : String) (count : Nat) : loopName name count ∉ ownNames := by
  intro hm
  -- none of the names has a digit in it
  have hdigits : ∀ id ∈ ownNames, (id.toList.any Char.isDigit) = false := by decide
  obtain ⟨c, hc⟩ := List.exists_mem_of_ne_nil _ (Nat.toDigits_ne_nil (n := count) (b := 10))
  have hd : c.isDigit = true := Nat.isDigit_of_mem_toDigits (by decide) (by decide) hc
  have hin : c ∈ (loopName name count).toList := by
    rw [loopName, String.toList_append, Nat.toString_eq_repr, Nat.repr_eq_ofList_toDigits,
      String.toList_ofList]
    exact List.mem_append_right _ hc
  have hany := List.any_eq_true.2 ⟨c, hin, hd⟩
  rw [hdigits _ hm] at hany
  cases hany

theorem Given.safe (name : String) : Given (safeName name) := ⟨name, .inl rfl⟩

end Target

/-! ## Expressions -/

namespace Generate

open Target (Given)
open Target.Expr (vars varsAll)

/-- A property of the generated names of source names, at a place with these names of loop
variables. -/
abbrev HoldsOfNames (P : String → Prop) (renames : Renames) : Prop := ∀ name, P (bind renames name)

/-- The variables of a generated expression have a property. -/
abbrev Yields (P : String → Prop) (result : Except CompileError Target.Expr) : Prop :=
  Ends (fun form => ∀ id ∈ form.vars, P id) (fun _ => True) result

section

variable {P : String → Prop} {renames : Renames}

/-- It is enough to have the property for plain names and for those that the loops introduce. -/
theorem holdsOfNames (hs : ∀ name, P (Target.safeName name))
    (hr : ∀ names ∈ renames, ∀ entry ∈ names, P entry.2) : HoldsOfNames P renames := by
  intro name
  rcases bind_cases renames name with hb | ⟨names, hm, id, he, hb⟩
  · rw [hb]
    exact hs name
  · rw [hb]
    exact hr names hm (name, id) he

mutual

/-- Whatever form an expression has, its variables come from its names and from those of its parts.
-/
theorem expr_vars (hp : HoldsOfNames P renames) : ∀ (e : Expr) (depth : Nat),
    Yields P (expr renames depth e)
  | .number _, _ => by
    rw [expr]
    exact .bind_any fun _ => .bind_any fun _ => List.forall_mem_nil _
  | .string _ _, _ | .char _, _ | .bool _, _ | .newObject _, _ => by
    rw [expr]
    exact .bind_any fun _ => List.forall_mem_nil _
  | .name id, _ => by
    rw [expr]
    exact .bind_any fun _ => List.forall_mem_singleton.2 (hp id)
  | .unary (.step op) operand, _ => by
    rw [expr]
    exact .bind_any fun depth => step_vars hp op false operand depth
  | .stepAfter op operand, _ => by
    rw [expr]
    exact .bind_any fun depth => step_vars hp op true operand depth
  | .unary (.sign _) operand, _ | .list operand, _ | .newArray _ operand, _ => by
    rw [expr]
    exact .bind_any fun depth => (expr_vars hp operand depth).bind fun _ h => h
  | .binary _ left right, _ | .index left right, _ => by
    rw [expr]
    refine .bind_any fun depth => (expr_vars hp left depth).bind fun _ h₁ => ?_
    exact (expr_vars hp right depth).bind fun _ h₂ => List.forall_mem_append.2 ⟨h₁, h₂⟩
  | .assign op target value, _ => by
    rw [expr]
    refine .bind_any fun depth => (expr_vars hp value depth).bind fun _ hv => ?_
    exact store_vars hp op target depth hv
  | .call callee args, _ => by
    rw [expr]
    refine .bind_any fun depth => (expr_vars hp callee depth).bind fun _ h₁ => ?_
    exact (exprs_vars hp args depth).bind fun _ h₂ => List.forall_mem_append.2 ⟨h₁, h₂⟩
  | .member _ target _, _ => by
    rw [expr]
    refine .bind_any fun depth => (expr_vars hp target depth).bind fun owner ho => ?_
    show ∀ id ∈ vars _, P id
    rw [vars, Target.Expr.varsAt_dot]
    exact ho
  | .scope left right, _ => by
    by_cases hs : left = .name "std"
    · subst hs
      rw [expr_std]
      exact .bind_any fun depth => expr_vars hp right depth
    · rw [expr_scope _ _ right hs]
      refine .bind_any fun depth => (expr_vars hp left depth).bind fun first h₁ => ?_
      refine (expr_vars hp right depth).bind fun second h₂ => ?_
      show ∀ id ∈ vars _, P id
      rw [vars, Target.Expr.varsAt_under false false first rfl]
      exact List.forall_mem_append.2
        ⟨h₁, fun id hid => h₂ id ((Target.Expr.varsAt_sublist false true second).subset hid)⟩

theorem exprs_vars (hp : HoldsOfNames P renames) : ∀ (es : List Expr) (depth : Nat),
    Ends (fun forms => ∀ id ∈ varsAll forms, P id) (fun _ => True) (exprs renames depth es)
  | [], _ => by
    rw [exprs]
    exact List.forall_mem_nil _
  | e :: rest, depth => by
    rw [exprs]
    refine (expr_vars hp e depth).bind fun _ h₁ => ?_
    exact (exprs_vars hp rest depth).bind fun _ h₂ => List.forall_mem_append.2 ⟨h₁, h₂⟩

theorem step_vars (hp : HoldsOfNames P renames) (op : StepOp) (keepsOld : Bool) :
    ∀ (e : Expr) (depth : Nat), Yields P (step renames depth op keepsOld e)
  | .name id, _ => by
    rw [step]
    exact List.forall_mem_singleton.2 (hp id)
  | .index target key, depth => by
    rw [step]
    refine (expr_vars hp target depth).bind fun _ h₁ => (expr_vars hp key depth).bind fun _ h₂ => ?_
    exact List.forall_mem_append.2 ⟨List.forall_mem_append.2 ⟨h₁, h₂⟩, List.forall_mem_nil _⟩
  | .member _ target _, depth => by
    rw [step]
    refine (expr_vars hp target depth).bind fun _ h => ?_
    exact List.forall_mem_append.2 ⟨h, List.forall_mem_nil _⟩
  | .number _, _ | .string _ _, _ | .char _, _ | .bool _, _ | .unary _ _, _ | .stepAfter _ _, _
  | .binary _ _ _, _ | .assign _ _ _, _ | .call _ _, _ | .scope _ _, _ | .list _, _
  | .newObject _, _ | .newArray _ _, _ => by
    rw [step]
    · trivial
    all_goals nofun

theorem store_vars (hp : HoldsOfNames P renames) (op : AssignOp) :
    ∀ (e : Expr) (depth : Nat) {value : Target.Expr},
    (∀ id ∈ value.vars, P id) → Yields P (store renames depth op value e)
  | .name id, _, _, hv => by
    have hid := hp id
    cases op with
    | set =>
      rw [store]
      exact List.forall_mem_cons.2 ⟨hid, hv⟩
    | update op =>
      rw [store]
      exact List.forall_mem_cons.2 ⟨hid, List.forall_mem_cons.2 ⟨hid, hv⟩⟩
  | .index target key, depth, _, hv => by
    rw [store]
    refine (expr_vars hp target depth).bind fun _ h₁ => (expr_vars hp key depth).bind fun _ h₂ => ?_
    cases op <;> exact List.forall_mem_append.2 ⟨List.forall_mem_append.2 ⟨h₁, h₂⟩, hv⟩
  | .member _ target _, depth, _, hv => by
    rw [store]
    refine (expr_vars hp target depth).bind fun _ h => ?_
    cases op <;> exact List.forall_mem_append.2 ⟨h, hv⟩
  | .number _, _, _, _ | .string _ _, _, _, _ | .char _, _, _, _ | .bool _, _, _, _
  | .unary _ _, _, _, _ | .stepAfter _ _, _, _, _ | .binary _ _ _, _, _, _ | .assign _ _ _, _, _, _
  | .call _ _, _, _, _ | .scope _ _, _, _, _ | .list _, _, _, _ | .newObject _, _, _, _
  | .newArray _ _, _, _, _ => by
    rw [store]
    · trivial
    all_goals nofun

end

/-- A place to assign to is a variable, or an element or field of an expression. -/
theorem place_vars (hp : HoldsOfNames P renames) (e : Expr) :
    Ends (fun spot => ∀ id ∈ spot.expr.vars, P id) (fun _ => True) (place renames e) := by
  unfold place
  split
  · exact List.forall_mem_singleton.2 (hp _)
  · refine (expr_vars hp _ _).bind fun _ h₁ => (expr_vars hp _ _).bind fun _ h₂ => ?_
    exact List.forall_mem_append.2 ⟨h₁, h₂⟩
  · exact (expr_vars hp _ _).bind fun _ h => h
  · trivial

theorem pieces_vars (hp : HoldsOfNames P renames) : ∀ (parts : List Expr) (previous : Option Expr),
    Ends (fun texts => ∀ id ∈ varsAll texts, P id) (fun _ => True)
      (pieces renames previous parts)
  | [], _ => List.forall_mem_nil _
  | part :: rest, previous => by
    have hshown : Yields P (shown renames part) := by
      unfold shown
      refine (expr_vars hp part 0).bind fun _ h => ?_
      split <;> exact h
    rw [pieces]
    refine hshown.bind fun _ h₁ => (pieces_vars hp rest (some part)).bind fun _ h₂ => ?_
    -- a blank in between has no variables
    have hall := List.forall_mem_append.2 ⟨h₁, h₂⟩
    split <;> exact hall

end

/-! ## Statements -/

section

variable {P : String → Prop} {q : Node → Prop} {renames : Renames}

theorem header_vars (hs : ∀ name, P (Target.safeName name)) (name : String)
    (params : List Parameter) :
    ∀ id ∈ (header name params).name :: (header name params).params, P id :=
  List.forall_mem_cons.2 ⟨hs name, List.forall_mem_map.2 fun p _ => hs p.name⟩

theorem line_vars (hp : HoldsOfNames P renames) {e : Expr} {t : Target.Stmt}
    (h : LineOf renames e t) : ∀ id ∈ t.vars, P id := by
  cases h with
  | assign hd hm ht hv =>
    rename_i op _ _ _ _
    have hspot := (place_vars hp _).ok ht
    have hvalue := (expr_vars hp _ _).ok hv
    cases op <;> exact List.forall_mem_append.2 ⟨hspot, hvalue⟩
  | divide ho hv =>
    have hid := fun name => List.forall_mem_singleton.2 (hp name)
    have hvalue := (expr_vars hp _ _).ok hv
    exact List.forall_mem_append.2 ⟨hid _, List.forall_mem_append.2 ⟨hid _, hvalue⟩⟩
  | step ht | stepAfter ht =>
    exact List.forall_mem_append.2 ⟨(place_vars hp _).ok ht, List.forall_mem_nil _⟩
  | value hf => exact (expr_vars hp _ _).ok hf

theorem varsAll_append (xs ys : List Target.Stmt) :
    Target.Stmt.varsAll (xs ++ ys) =
      Target.Stmt.varsAll xs ++ Target.Stmt.varsAll ys := by
  induction xs with
  | nil => rfl
  | cons s rest ih =>
    rw [List.cons_append, Target.Stmt.varsAll, Target.Stmt.varsAll, ih, List.append_assoc]

/-- The value that a variable starts with has no variables. -/
theorem varsAt_defaultValue (through behind : Bool) (type : String) :
    (defaultValue type).varsAt through behind = [] := by
  have hd : ∀ typeName, (defaultOf typeName).varsAt through behind = [] := by
    intro typeName
    unfold defaultOf
    split <;> rfl
  unfold defaultValue
  split
  · rfl
  · cases (typeWords type).getLast? with
    | none => rfl
    | some typeName => exact hd typeName

end

/-! ## Given names -/

end Generate

end ConsoleCpp

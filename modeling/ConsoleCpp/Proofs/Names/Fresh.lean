/-
Names of loop variables. Each `for` loop that declares a variable gets a name of its own for it, with
the number of the loop at its end, and the generator counts these loops through a whole program. So
the names of two loops differ in their numbers, however the variables are called, and a name that ends
in a digit and starts with two underscores is no plain generated name.

The proof follows the generator once. What a part of a program creates is the numbered list of the
variables of its loops; its lines assign these names in this order, and all other variables of the
lines are names from outside.
-/
import ConsoleCpp.Proofs.Names.Distinct

namespace ConsoleCpp

/-! ## Shapes of names -/

namespace Target

theorem toList_loopName (name : String) (count : Nat) :
    (loopName name count).toList = '_' :: '_' :: (name.toList ++ '_' :: Nat.toDigits 10 count) := by
  rw [loopName, Nat.toString_eq_repr]
  simp [String.toList_append, Nat.toList_repr]

theorem isPrivate_loopName (name : String) (count : Nat) : isPrivate (loopName name count) = true := by
  rw [isPrivate, toList_loopName]
  rfl

/-- The number of the loop can be read off the end of the name: it goes back to the first character
that is no digit. -/
theorem digits_loopName (name : String) (count : Nat) :
    (loopName name count).toList.reverse.takeWhile Char.isDigit = (Nat.toDigits 10 count).reverse := by
  have hd : ∀ c ∈ (Nat.toDigits 10 count).reverse, c.isDigit = true := fun c hc =>
    Nat.isDigit_of_mem_toDigits (by decide) (by decide) (List.mem_reverse.1 hc)
  have hr : (loopName name count).toList.reverse =
      (Nat.toDigits 10 count).reverse ++ '_' :: (name.toList.reverse ++ ['_', '_']) := by
    rw [toList_loopName]
    simp
  have hu : ('_' : Char).isDigit = false := by decide
  rw [hr, List.takeWhile_append_of_pos hd, List.takeWhile_cons, hu]
  exact List.append_nil _

theorem count_of_loopName_eq {x y : String} {m n : Nat} (h : loopName x m = loopName y n) : m = n := by
  have hd := digits_loopName x m
  rw [h, digits_loopName] at hd
  have hr : (n.repr).toList = (m.repr).toList := by
    rw [Nat.toList_repr, Nat.toList_repr]
    exact List.reverse_injective hd
  exact (Nat.repr_inj.1 (String.toList_injective hr)).symm

theorem loopName_ne_append_underscore (x y : String) (count : Nat) : loopName x count ≠ y ++ "_" := by
  intro h
  have hd := digits_loopName x count
  rw [h, String.toList_append, List.reverse_append] at hd
  exact Nat.toDigits_ne_nil (List.reverse_eq_nil_iff.1 hd.symm)

theorem loopName_ne_safeName (x y : String) (count : Nat) : loopName x count ≠ safeName y := by
  rcases safeName_cases y with ⟨-, hy⟩ | ⟨-, hy⟩ | ⟨-, hp, hy⟩
  · rw [hy]
    exact loopName_ne_append_underscore x y count
  · rw [hy]
    exact loopName_ne_append_underscore x y count
  · -- a name that is kept does not start with two underscores
    rw [hy]
    rintro rfl
    rw [isPrivate_loopName] at hp
    cases hp

theorem loopName_not_reserved (x : String) (count : Nat) : loopName x count ∉ reservedWords := by
  have hprivate : ∀ word ∈ reservedWords, isPrivate word = false := by decide
  intro hm
  have hp := hprivate _ hm
  rw [isPrivate_loopName] at hp
  cases hp

theorem safeName_not_reserved (x : String) : safeName x ∉ reservedWords := by
  rcases safeName_cases x with ⟨-, hx⟩ | ⟨-, hx⟩ | ⟨hr, -, hx⟩
  · rw [hx]
    exact append_underscore_not_reserved x
  · rw [hx]
    exact append_underscore_not_reserved x
  · rw [hx]
    exact hr

/-! ## Assigned variables -/

namespace Stmt

mutual

/-- The variables that the lines of a statement assign, in the order of the text, those of functions
inside included. -/
def assigned : Stmt → List String
  | .assign (.name id) _ => [id]
  | .define _ _ body | .whileLoop _ body => assignedAll body
  | .ifElse _ thenSuite elseSuite _ => assignedAll thenSuite ++ assignedAll elseSuite
  | .assign (.attr _ _) _ | .assign (.item _ _) _ | .augment _ _ _ | .eval _ | .print _
  | .unimplemented _ | .leaveUnless _ | .ret _ | .breakLoop | .continueLoop | .pass => []

def assignedAll : List Stmt → List String
  | [] => []
  | s :: rest => assigned s ++ assignedAll rest

end

end Stmt

/-- The variables that the lines of a program assign. -/
def Program.assigned (p : Program) : List String := Stmt.assignedAll (p.stubs ++ p.body)

end Target

/-! ## Loops in source text -/

namespace Stmt

open Generate (loopVariable? groupOf)

mutual

/-- The variables of the `for` loops of a statement that declare one, in the order in which the loops
are generated, those in functions inside included. -/
def loopVariables : Stmt → List String
  | .function _ _ _ statements | .block statements =>
    groupLoopVariables .prototypes statements ++ groupLoopVariables .functions statements ++
      groupLoopVariables .others statements
  | .ifElse _ thenStmt elseStmt => loopVariables thenStmt ++ optionLoopVariables elseStmt
  | .whileLoop _ body | .doLoop _ body => loopVariables body
  | .forLoop init _ _ body =>
    (loopVariable? init).toList ++ optionLoopVariables init ++ loopVariables body
  | .header _ | .usingSpace _ | .declaration _ _ _ | .prototype _ _ _ | .input _ | .print _ | .ret _
  | .breakLoop | .continueLoop | .expression _ => []

def groupLoopVariables (which : Generate.Group) : List Stmt → List String
  | [] => []
  | s :: rest =>
    if groupOf s == which then loopVariables s ++ groupLoopVariables which rest
    else groupLoopVariables which rest

def optionLoopVariables : Option Stmt → List String
  | none => []
  | some s => loopVariables s

end

end Stmt

namespace Generate

open Target (safeName loopName reservedWords ownNames count_of_loopName_eq)
open Target.Stmt (assigned assignedAll varsAll)
open Stmt (loopVariables groupLoopVariables optionLoopVariables)

/-- The names of the variables of consecutive declaring loops, of which `count` come before. -/
def numbered : (count : Nat) → (names : List String) → List String
  | _, [] => []
  | count, name :: rest => loopName name (count + 1) :: numbered (count + 1) rest

/-- The names of loop variables that the generator creates for a program, in order. -/
def loopNames (statements : List Stmt) : List String :=
  numbered 0 (loopVariables (.block (topStatements statements)))

theorem numbered_append : ∀ (count : Nat) (xs ys : List String),
    numbered count (xs ++ ys) = numbered count xs ++ numbered (count + xs.length) ys
  | _, [], _ => rfl
  | count, x :: xs, ys => by
    rw [List.cons_append, numbered, numbered, numbered_append (count + 1) xs ys, List.cons_append,
      List.length_cons, Nat.add_right_comm, Nat.add_assoc count]

theorem mem_numbered {id : String} : ∀ {count : Nat} {names : List String},
    id ∈ numbered count names → ∃ name n, count < n ∧ id = loopName name n
  | _, [], h => nomatch h
  | count, name :: rest, h => by
    rcases List.mem_cons.1 h with rfl | h
    · exact ⟨name, count + 1, by omega, rfl⟩
    · obtain ⟨other, n, hn, rfl⟩ := mem_numbered h
      exact ⟨other, n, by omega, rfl⟩

theorem nodup_numbered : ∀ (count : Nat) (names : List String),
    (numbered count names).Nodup
  | _, [] => List.nodup_nil
  | count, name :: rest => by
    refine List.nodup_cons.2 ⟨fun h => ?_, nodup_numbered (count + 1) rest⟩
    -- the names that follow have higher numbers
    obtain ⟨other, n, hn, he⟩ := mem_numbered h
    have := count_of_loopName_eq he
    omega

/-! ## Lines -/

theorem assignedAll_append (xs ys : List Target.Stmt) :
    assignedAll (xs ++ ys) = assignedAll xs ++ assignedAll ys := by
  induction xs with
  | nil => rfl
  | cons s rest ih => rw [List.cons_append, assignedAll, assignedAll, ih, List.append_assoc]

theorem assignedAll_singleton (s : Target.Stmt) : assignedAll [s] = assigned s := by
  rw [assignedAll, assignedAll, List.append_nil]

theorem assignedAll_orPass (lines : List Target.Stmt) :
    assignedAll (orPass lines) = assignedAll lines := by
  cases lines <;> rfl

theorem varsAll_singleton (s : Target.Stmt) : varsAll [s] = s.vars := by
  rw [varsAll, varsAll, List.append_nil]

/-! ## Contexts -/

/-- The names that a part of a program finds around it have a property: the plain generated names,
those of the loops around it, and those in the test that ends the rounds of the loop around it. -/
structure Known (P : String → Prop) (ctx : Context) : Prop where
  safe : ∀ name, P (safeName name)
  loops : ∀ names ∈ ctx.renames, ∀ entry ∈ names, P entry.2
  leave : ∀ test, ctx.roundEnd = .leaveUnless test → ∀ id ∈ test.vars, P id

namespace Known

variable {P : String → Prop} {ctx : Context}

theorem names (h : Known P ctx) : HoldsOfNames P ctx.renames := holdsOfNames h.safe h.loops

theorem inner (h : Known P ctx) : Known P ctx.inner := ⟨h.safe, h.loops, h.leave⟩

theorem inLoop_nothing (h : Known P ctx) : Known P (ctx.inLoop .nothing) := ⟨h.safe, h.loops, nofun⟩

theorem inLoop_leave (h : Known P ctx) {test : Target.Expr} (ht : ∀ id ∈ test.vars, P id) :
    Known P (ctx.inLoop (.leaveUnless test)) :=
  ⟨h.safe, h.loops, fun _ he => by cases he; exact ht⟩

theorem inLoop_update (h : Known P ctx) (update : Option Expr) :
    Known P (ctx.inLoop (updateEnd update)) := by
  cases update with
  | none => exact h.inLoop_nothing
  | some e => exact ⟨h.safe, h.loops, nofun⟩

theorem inFunction (h : Known P ctx) (params : List Parameter) (body : List Stmt) :
    Known P (ctx.inFunction params body) :=
  ⟨h.safe, h.loops, nofun⟩

theorem inFor (h : Known P ctx) {init : Option Stmt} {count : Nat}
    (hn : ∀ id ∈ numbered count (loopVariable? init).toList, P id) :
    Known P (ctx.inFor init count) := by
  refine ⟨h.safe, List.forall_mem_cons.2 ⟨fun entry he => ?_, h.loops⟩, h.leave⟩
  cases hl : loopVariable? init with
  | none =>
    simp only [loopRenames, hl] at he
    cases he
  | some name =>
    simp only [loopRenames, countLoop, hl] at he
    rw [List.mem_singleton.1 he]
    exact hn _ (by rw [hl]; exact List.mem_singleton_self _)

theorem roundEnd (h : Known P ctx) {ends : List Target.Stmt}
    (he : roundEndStatements ctx.renames ctx.roundEnd = .ok ends) : ∀ id ∈ varsAll ends, P id := by
  cases hr : ctx.roundEnd with
  | nothing =>
    rw [hr] at he
    cases he
    exact List.forall_mem_nil _
  | update e =>
    rw [hr] at he
    obtain ⟨line, hl, he⟩ := bind_ok he
    cases he
    rw [varsAll_singleton]
    exact line_vars h.names (lineOf hl)
  | leaveUnless test =>
    rw [hr] at he
    cases he
    rw [varsAll_singleton]
    exact h.leave test hr

end Known

/-! ## What a part of a program creates -/

/-- Lines of which the loops that declare a variable are numbered from `count` to `n`, in the order
of these variables: they assign the numbered names in this order, and all their variables are numbered
names or known from outside. -/
structure Creates (ctx : Context) (count n : Nat) (names : List String)
    (lines : List Target.Stmt) : Prop where
  counted : n = count + names.length
  assigned : (numbered count names).Sublist (assignedAll lines)
  vars : ∀ P : String → Prop, Known P ctx → (∀ id ∈ numbered count names, P id) →
    ∀ id ∈ varsAll lines, P id

namespace Creates

variable {ctx : Context} {count k n : Nat} {xs ys : List String} {lines more : List Target.Stmt}

/-- Lines without loops. -/
theorem nothing (h : ∀ P, Known P ctx → ∀ id ∈ varsAll lines, P id) :
    Creates ctx count count [] lines :=
  ⟨rfl, List.nil_sublist _, fun P hp _ => h P hp⟩

/-- Lines with more behind them, where the names of the first are known. -/
theorem appendInside {inside : Context} (h₁ : Creates ctx count k xs lines)
    (h₂ : Creates inside k n ys more)
    (hk : ∀ P, Known P ctx → (∀ id ∈ numbered count xs, P id) → Known P inside) :
    Creates ctx count n (xs ++ ys) (lines ++ more) := by
  obtain rfl := h₁.counted
  refine ⟨?_, ?_, fun P hp hc => ?_⟩
  · rw [h₂.counted, List.length_append, Nat.add_assoc]
  · rw [numbered_append, assignedAll_append]
    exact h₁.assigned.append h₂.assigned
  · rw [numbered_append] at hc
    obtain ⟨hx, hy⟩ := List.forall_mem_append.1 hc
    rw [varsAll_append]
    exact List.forall_mem_append.2 ⟨h₁.vars P hp hx, h₂.vars P (hk P hp hx) hy⟩

theorem append (h₁ : Creates ctx count k xs lines) (h₂ : Creates ctx k n ys more) :
    Creates ctx count n (xs ++ ys) (lines ++ more) :=
  h₁.appendInside h₂ fun _ hp _ => hp

theorem orPass (h : Creates ctx count n xs lines) : Creates ctx count n xs (orPass lines) := by
  refine ⟨h.counted, ?_, fun P hp hc => ?_⟩
  · rw [assignedAll_orPass]
    exact h.assigned
  · rw [varsAll_orPass]
    exact h.vars P hp hc

/-- What is known outside is known inside. -/
theorem mono {inside : Context} (h : Creates inside count n xs lines)
    (hk : ∀ P, Known P ctx → Known P inside) : Creates ctx count n xs lines :=
  ⟨h.counted, h.assigned, fun P hp => h.vars P (hk P hp)⟩

theorem ifElse (h₁ : Creates ctx count k xs lines) (h₂ : Creates ctx k n ys more) {e : Expr}
    {test : Target.Expr} (ht : expr ctx.renames 0 e = .ok test) (chained : Bool) :
    Creates ctx count n (xs ++ ys) [.ifElse test lines more chained] := by
  have h := h₁.append h₂
  refine ⟨h.counted, ?_, fun P hp hc => ?_⟩
  · rw [assignedAll_singleton, Target.Stmt.assigned, ← assignedAll_append]
    exact h.assigned
  · rw [varsAll_singleton, Target.Stmt.vars, List.append_assoc, ← varsAll_append]
    exact List.forall_mem_append.2 ⟨(expr_vars hp.names e 0).ok ht, h.vars P hp hc⟩

/-- A loop, with what may end its rounds. -/
theorem loop {inside : Context} {ends : List Target.Stmt} {test : Target.Expr}
    (h : Creates inside count n xs lines)
    (he : roundEndStatements inside.renames inside.roundEnd = .ok ends)
    (hk : ∀ P, Known P ctx → Known P inside ∧ ∀ id ∈ test.vars, P id) :
    Creates ctx count n xs [.whileLoop test (Generate.orPass (lines ++ ends))] := by
  refine ⟨h.counted, ?_, fun P hp hc => ?_⟩
  · rw [assignedAll_singleton, Target.Stmt.assigned, assignedAll_orPass, assignedAll_append]
    exact h.assigned.trans (List.sublist_append_left _ _)
  · obtain ⟨hi, ht⟩ := hk P hp
    rw [varsAll_singleton, Target.Stmt.vars, varsAll_orPass, varsAll_append]
    exact List.forall_mem_append.2 ⟨ht, List.forall_mem_append.2 ⟨h.vars P hi hc, hi.roundEnd he⟩⟩

theorem define {inside : Context} (h : Creates inside count n xs lines)
    (hk : ∀ P, Known P ctx → Known P inside) (name : String) (params : List Parameter)
    (outer : List String) :
    Creates ctx count n xs
      [.define (header name params) (outer.map (bind ctx.renames)) (Generate.orPass lines)] := by
  refine ⟨h.counted, ?_, fun P hp hc => ?_⟩
  · rw [assignedAll_singleton, Target.Stmt.assigned, assignedAll_orPass]
    exact h.assigned
  · rw [varsAll_singleton, Target.Stmt.vars, varsAll_orPass]
    refine List.forall_mem_append.2 ⟨List.forall_mem_append.2 ⟨header_vars hp.safe name params, ?_⟩,
      h.vars P (hk P hp) hc⟩
    exact List.forall_mem_map.2 fun name _ => hp.names name

end Creates

section

variable {ctx : Context} {count n : Nat} {lines : List Target.Stmt}

theorem inputs_vars {P : String → Prop} {renames : Renames} (hp : HoldsOfNames P renames) :
    ∀ {targets : List Expr} {lines : List Target.Stmt}, inputs renames targets = .ok lines →
      ∀ id ∈ varsAll lines, P id
  | [], _, h => by
    cases h
    exact List.forall_mem_nil _
  | target :: rest, _, h => by
    rw [inputs] at h
    obtain ⟨spot, hs, h⟩ := bind_ok h
    obtain ⟨others, ho, h⟩ := bind_ok h
    cases h
    have hspot := (place_vars hp target).ok hs
    exact List.forall_mem_append.2
      ⟨List.forall_mem_append.2 ⟨hspot, List.forall_mem_nil _⟩, inputs_vars hp ho⟩

/-- Only a declaration declares the variable of a loop. -/
theorem declaration_of_loopVariable {init : Option Stmt} {name : String}
    (h : loopVariable? init = some name) :
    ∃ type initializer, init = some (.declaration type name initializer) := by
  unfold loopVariable? at h
  split at h
  · cases h
    exact ⟨_, _, rfl⟩
  · cases h

theorem declaration_creates {type name : String} {initializer : Option Expr}
    (h : stmt ctx count (.declaration type name initializer) = .ok (lines, n)) :
    Creates ctx count n [] lines := by
  obtain ⟨rfl, value, rfl, hv⟩ := stmt_declaration_ok h
  refine .nothing fun P hp => ?_
  rw [varsAll_singleton]
  refine List.forall_mem_append.2 ⟨List.forall_mem_singleton.2 (hp.names name), ?_⟩
  rcases hv with ⟨-, rfl⟩ | ⟨e, -, he⟩
  · rw [Target.Expr.vars, varsAt_defaultValue]
    exact List.forall_mem_nil _
  · exact (expr_vars hp.names e 0).ok he

/-- A sequence creates what its groups create. -/
theorem sequence_creates {statements : List Stmt}
    (hg : ∀ {count n : Nat} {which : Group} {lines : List Target.Stmt},
      group ctx count which statements = .ok (lines, n) →
      Creates ctx count n (groupLoopVariables which statements) lines)
    (h : sequence ctx count statements = .ok (lines, n)) :
    Creates ctx count n (loopVariables (.block statements)) lines := by
  obtain ⟨prototypes, _, functions, _, others, h₁, h₂, h₃, rfl⟩ := arranged_ok h
  rw [loopVariables]
  exact ((hg h₁).append (hg h₂)).append (hg h₃)

/-- The initializer of a `for` loop creates the name of the variable that it declares, and otherwise
what it creates as a statement. -/
theorem init_creates {init : Option Stmt}
    (h : optional (ctx.inFor init count) (countLoop init count) init = .ok (lines, n))
    (hc : Creates (ctx.inFor init count) (countLoop init count) n (optionLoopVariables init) lines) :
    Creates ctx count n ((loopVariable? init).toList ++ optionLoopVariables init) lines := by
  cases hl : loopVariable? init with
  | none =>
    have hcount : countLoop init count = count := by simp [countLoop, hl]
    rw [hcount] at hc
    exact hc.mono fun P hp => hp.inFor (by rw [hl]; exact List.forall_mem_nil _)
  | some name =>
    obtain ⟨type, initializer, rfl⟩ := declaration_of_loopVariable hl
    obtain ⟨rfl, value, rfl, -⟩ := stmt_declaration_ok h
    refine ⟨rfl, ?_, fun P hp hn => hc.vars P (hp.inFor hn) (List.forall_mem_nil _)⟩
    have hb : bind (ctx.inFor (some (.declaration type name initializer)) count).renames name =
        loopName name (count + 1) := by
      simp [bind, Context.inFor, loopRenames, countLoop, loopVariable?]
    rw [assignedAll_singleton, Target.Stmt.assigned, hb]
    exact List.Sublist.refl _

end

mutual

/-- The lines of a statement create the numbered names of its loop variables. -/
theorem stmt_creates : ∀ (s : Stmt) {ctx : Context} {count n : Nat} {lines : List Target.Stmt},
    stmt ctx count s = .ok (lines, n) → Creates ctx count n (loopVariables s) lines
  | .header _, _, _, _, _, h | .usingSpace _, _, _, _, _, h => by
    rw [stmt] at h
    cases h
    exact .nothing fun _ _ => List.forall_mem_nil _
  | .prototype _ name params, _, _, _, _, h => by
    rw [stmt] at h
    cases h
    refine .nothing fun P hp => ?_
    rw [varsAll_singleton]
    refine List.forall_mem_append.2 ⟨List.forall_mem_append.2 ⟨header_vars hp.safe name params, ?_⟩,
      List.forall_mem_nil _⟩
    exact List.forall_mem_nil _
  | .function _ name params body, _, _, _, _, h => by
    obtain ⟨inside, hs, rfl⟩ := stmt_function_ok h
    have hb := sequence_creates (group_creates body) hs
    rw [loopVariables] at hb
    rw [loopVariables]
    exact hb.define (fun P hp => (hp.inFunction params body).inner) name params _
  | .declaration _ _ _, _, _, _, _, h => declaration_creates h
  | .block statements, _, _, _, _, h => by
    rw [stmt_block_eq] at h
    exact sequence_creates (group_creates statements) h
  | .input _, _, _, _, _, h => by
    obtain ⟨rfl, hi⟩ := stmt_input_ok h
    exact .nothing fun P hp => inputs_vars hp.names hi
  | .print parts, _, _, _, _, h => by
    rcases stmt_print_ok h with ⟨rfl, ⟨-, rfl⟩ | ⟨texts, ht, rfl⟩⟩
    · exact .nothing fun _ _ => List.forall_mem_nil _
    · refine .nothing fun P hp => ?_
      rw [varsAll_singleton]
      exact (pieces_vars hp.names parts none).ok ht
  | .ifElse condition thenStmt elseStmt, _, _, _, _, h => by
    obtain ⟨test, first, k, second, chained, ht, hf, ha, rfl⟩ := stmt_ifElse_ok h
    have h₁ := (stmt_creates thenStmt hf).mono fun _ hp => hp.inner
    exact h₁.orPass.ifElse (alternative_creates elseStmt ha) ht chained
  | .whileLoop condition body, _, _, _, _, h => by
    obtain ⟨test, inside, ht, hi, rfl⟩ := stmt_whileLoop_ok h
    rw [loopVariables, ← List.append_nil inside]
    exact (stmt_creates body hi).loop rfl fun P hp =>
      ⟨hp.inLoop_nothing.inner, (expr_vars hp.names condition 0).ok ht⟩
  | .doLoop condition body, ctx, _, _, _, h => by
    obtain ⟨test, inside, ht, hi, rfl⟩ := stmt_doLoop_ok h
    refine (stmt_creates body hi).loop rfl fun P hp => ⟨?_, List.forall_mem_nil _⟩
    exact (hp.inLoop_leave ((expr_vars hp.names condition 0).ok ht)).inner
  | .forLoop init condition update body, ctx, count, _, _, h => by
    obtain ⟨before, k, test, inside, ends, hi, ht, hb, he, rfl⟩ := stmt_forLoop_ok h
    have hbefore := init_creates hi (optional_creates init hi)
    have hloop := (stmt_creates body hb).loop he fun P hp =>
      ⟨(hp.inLoop_update update).inner, (expr_vars hp.names condition 0).ok ht⟩
    -- the loop is in the scope of the name that stands first among those of its initializer
    refine hbefore.appendInside hloop fun P hp hn => hp.inFor fun id hid => hn id ?_
    rw [numbered_append]
    exact List.mem_append_left _ hid
  | .ret _, _, _, _, _, h => by
    rcases stmt_ret_ok h with ⟨rfl, ⟨-, rfl⟩ | ⟨e, result, -, hv, rfl⟩⟩
    · exact .nothing fun _ _ => List.forall_mem_nil _
    · refine .nothing fun P hp => ?_
      rw [varsAll_singleton]
      exact List.forall_mem_append.2 ⟨(expr_vars hp.names e 0).ok hv, List.forall_mem_nil _⟩
  | .breakLoop, _, _, _, _, h => by
    rw [stmt] at h
    cases h
    exact .nothing fun _ _ => List.forall_mem_nil _
  | .continueLoop, _, _, _, _, h => by
    obtain ⟨rfl, ends, he, rfl⟩ := stmt_continueLoop_ok h
    refine .nothing fun P hp => ?_
    rw [varsAll_append]
    exact List.forall_mem_append.2 ⟨hp.roundEnd he, List.forall_mem_nil _⟩
  | .expression _, _, _, _, _, h => by
    obtain ⟨rfl, line, hl, rfl⟩ := stmt_expression_ok h
    refine .nothing fun P hp => ?_
    rw [varsAll_singleton]
    exact line_vars hp.names (lineOf hl)

theorem alternative_creates : ∀ (s : Option Stmt) {ctx : Context} {count n : Nat}
    {lines : List Target.Stmt} {chained : Bool},
    alternative ctx count s = .ok (lines, chained, n) →
    Creates ctx count n (optionLoopVariables s) lines
  | none, _, _, _, _, _, h => by
    rw [alternative] at h
    cases h
    exact .nothing fun _ _ => List.forall_mem_nil _
  | some s, _, _, _, _, _, h => by
    rcases alternative_some_ok h with ⟨hs, -⟩ | ⟨-, body, hs, rfl⟩
    · exact stmt_creates s hs
    · exact ((stmt_creates s hs).mono fun _ hp => hp.inner).orPass

theorem optional_creates : ∀ (s : Option Stmt) {ctx : Context} {count n : Nat}
    {lines : List Target.Stmt}, optional ctx count s = .ok (lines, n) →
    Creates ctx count n (optionLoopVariables s) lines
  | none, _, _, _, _, h => by
    rw [optional] at h
    cases h
    exact .nothing fun _ _ => List.forall_mem_nil _
  | some s, _, _, _, _, h => by
    rw [optional] at h
    exact stmt_creates s h

theorem group_creates : ∀ (statements : List Stmt) {ctx : Context} {count n : Nat} {which : Group}
    {lines : List Target.Stmt}, group ctx count which statements = .ok (lines, n) →
    Creates ctx count n (groupLoopVariables which statements) lines
  | [], _, _, _, _, _, h => by
    rw [group] at h
    cases h
    exact .nothing fun _ _ => List.forall_mem_nil _
  | s :: rest, _, _, _, _, _, h => by
    rw [groupLoopVariables]
    rcases group_cons_ok h with ⟨rfl, first, k, others, hs, hg, rfl⟩ | ⟨hw, hg⟩
    · rw [if_pos (beq_self_eq_true _)]
      exact (stmt_creates s hs).append (group_creates rest hg)
    · rw [if_neg (by simpa using hw)]
      exact group_creates rest hg

end

/-! ## Programs -/

/-- The names of the loop variables of a program are new. They are pairwise different, and the program
assigns each of them; all other variables of the program have plain generated names. None of them is
the plain generated name of any identifier, and neither they nor plain generated names are reserved
words or names of the generator. -/
theorem loopNames_fresh {statements : List Stmt} {p : Target.Program}
    (h : program statements = .ok p) :
    (loopNames statements).Nodup ∧
    (loopNames statements).Sublist p.assigned ∧
    (∀ id ∈ p.vars, id ∈ loopNames statements ∨ ∃ x, id = safeName x) ∧
    (∀ id ∈ loopNames statements,
      (∀ x, id ≠ safeName x) ∧ id ∉ reservedWords ∧ id ∉ ownNames) ∧
    (∀ x, safeName x ∉ reservedWords ∧ safeName x ∉ ownNames) := by
  obtain ⟨n, hs⟩ := program_ok h
  have hc := sequence_creates (group_creates _) hs
  refine ⟨nodup_numbered _ _, hc.assigned, ?_, fun id hid => ?_, fun x => ?_⟩
  · refine hc.vars _ ⟨fun name => .inr ⟨name, rfl⟩, nofun, nofun⟩ fun id hid => .inl hid
  · obtain ⟨name, count, -, rfl⟩ := mem_numbered hid
    exact ⟨fun x => Target.loopName_ne_safeName name x count, Target.loopName_not_reserved name count,
      Target.loopName_not_own name count⟩
  · exact ⟨Target.safeName_not_reserved x, Target.safeName_not_own x⟩

/-- `for (int name = 0; name < 3; name++) body` -/
def loopOver (name : String) (body : Stmt) : Stmt :=
  .forLoop (some (.declaration "int" name (some (.number "0")))) (.binary .lt (.name name) (.number "3"))
    (some (.stepAfter .increment (.name name))) body

/-- Loops in a function, beside each other and inside each other, with variables that look like the
names of others. -/
def loopsEverywhere : List Stmt :=
  [.declaration "int" "__i_1" none, loopOver "i" (loopOver "i_1" (.block [])),
   .function "void" "f" [] [loopOver "i" (.block [])], .function "int" "main" [] [loopOver "_i" (.block [])]]

theorem loopNames_fresh_loopsEverywhere : ∃ p, program loopsEverywhere = .ok p ∧
    ["__i_1", "___i_2", "__i_3", "__i_1_4"].Sublist p.assigned ∧ "__i_1" ≠ safeName "__i_1" := by
  obtain ⟨p, h⟩ : ∃ p, program loopsEverywhere = .ok p := ⟨_, rfl⟩
  have hn : loopNames loopsEverywhere = ["__i_1", "___i_2", "__i_3", "__i_1_4"] := by decide +kernel
  obtain ⟨-, hassigned, -, hplain, -⟩ := loopNames_fresh h
  rw [hn] at hassigned hplain
  exact ⟨p, h, hassigned, (hplain "__i_1" (List.mem_cons_self ..)).1 "__i_1"⟩

end Generate

end ConsoleCpp

/-
Generated forms and the names that are bound around a place. They only decide which of the variables
that a function stores to are those of a function around it. So statements are generated alike in
scopes that bind the same of the variables they store to, and a program without a main function is
that program written out as the body of one.
-/
import ConsoleCpp.Proofs.Generate.Cases
import ConsoleCpp.Proofs.Source.Everywhere

namespace ConsoleCpp.Generate

/-! ## Scopes -/

/-- The context with other scopes around. -/
def Context.within (ctx : Context) (scopes : List (List String)) : Context :=
  { ctx with scopes := scopes }

/-- Of the names with the property, one list of scopes binds the same as the other. -/
def BindAlike (p : String → Prop) (scopes scopes' : List (List String)) : Prop :=
  ∀ name, p name → ((∃ scope ∈ scopes, name ∈ scope) ↔ ∃ scope ∈ scopes', name ∈ scope)

/-- Every variable that the node itself stores to has the property. -/
def StoresOnly (p : String → Prop) (node : Node) : Prop :=
  ∀ name ∈ node.storeTargets.filterMap Expr.variable?, p name

section

variable {p : String → Prop} {scopes scopes' : List (List String)}

theorem BindAlike.cons (h : BindAlike p scopes scopes') (bound : List String) :
    BindAlike p (bound :: scopes) (bound :: scopes') := by
  intro name hname
  simp only [List.mem_cons, or_and_right, exists_or, exists_eq_left, h name hname]

theorem nonlocals_alike (h : BindAlike p scopes scopes') (params : List Parameter)
    {body : List Stmt} (hbody : (Node.stmt (.block body)).Everywhere (StoresOnly p)) :
    nonlocals scopes params body = nonlocals scopes' params body := by
  have hstored : ∀ name ∈ assignedNames body, p name := by
    intro name hname
    obtain ⟨node, hnode, hname⟩ := List.mem_flatMap.1 hname
    have hstmts : ∀ node ∈ body.map Node.stmt, node.Everywhere (StoresOnly p) :=
      fun node hm => hbody.child hm
    exact Node.everywhere_of_mem_walkFrom hstmts node hnode |>.here name hname
  unfold nonlocals
  refine congrArg sortedNames (List.filter_congr fun name hname => ?_)
  have hany : scopes.any (·.contains name) = scopes'.any (·.contains name) := by
    rw [Bool.eq_iff_iff]
    simpa using h name (hstored name hname)
  rw [hany]

end

/-! ## Suites -/

section

variable {ctx : Context} {scopes : List (List String)} {count : Nat} {ending : RoundEnd}
  {generate : Context → Nat → Generated}

theorem suite_within
    (h : ∀ count, generate (ctx.inner.within scopes) count = generate ctx.inner count) :
    suite (ctx.within scopes) count ending generate = suite ctx count ending generate := by
  unfold suite Context.indented
  show (if maxIndent < ctx.indent + 1 then _ else _) >>= _ = (if _ then _ else _) >>= _
  split
  · rfl
  · show (generate (ctx.inner.within scopes) count >>= _) = (generate ctx.inner count >>= _)
    rw [h]
    rfl

theorem loop_within (condition : Target.Expr)
    (h : ∀ count, generate ((ctx.inLoop ending).inner.within scopes) count =
      generate (ctx.inLoop ending).inner count) :
    loop (ctx.within scopes) count condition ending generate =
      loop ctx count condition ending generate := by
  have hs : suite ((ctx.inLoop ending).within scopes) count ending generate =
      suite (ctx.inLoop ending) count ending generate := suite_within h
  unfold loop
  show (suite ((ctx.inLoop ending).within scopes) count ending generate >>= _) = _
  rw [hs]
  rfl

theorem function_within {p : String → Prop} (h : BindAlike p ctx.scopes scopes) (name : String)
    {params : List Parameter} {body : List Stmt}
    (hbody : (Node.stmt (.block body)).Everywhere (StoresOnly p))
    (hg : ∀ count, generate ((ctx.inFunction params body).inner.within
        ((params.map Parameter.name ++ declaredNames body) :: scopes)) count =
      generate (ctx.inFunction params body).inner count) :
    function (ctx.within scopes) count name params body generate =
      function ctx count name params body generate := by
  have hs : suite ((ctx.inFunction params body).within
      ((params.map Parameter.name ++ declaredNames body) :: scopes)) count .nothing generate =
      suite (ctx.inFunction params body) count .nothing generate := suite_within hg
  unfold function
  rw [show (ctx.within scopes).scopes = scopes from rfl, ← nonlocals_alike h params hbody]
  show (suite ((ctx.inFunction params body).within
    ((params.map Parameter.name ++ declaredNames body) :: scopes)) count .nothing generate >>= _) = _
  rw [hs]
  rfl

theorem arranged_congr {generate generate' : Group → Nat → Generated}
    (h : ∀ which count, generate' which count = generate which count) :
    arranged count generate' = arranged count generate := by
  rw [funext fun which => funext (h which)]

end

/-! ## Statements -/

section

variable {p : String → Prop}

mutual

theorem stmt_within : ∀ (s : Stmt) {ctx : Context} {scopes : List (List String)} (count : Nat),
    BindAlike p ctx.scopes scopes → (Node.stmt s).Everywhere (StoresOnly p) →
    stmt (ctx.within scopes) count s = stmt ctx count s
  | .header _, _, _, _, _, _ | .usingSpace _, _, _, _, _, _ | .prototype _ _ _, _, _, _, _, _
  | .declaration _ _ _, _, _, _, _, _ | .input _, _, _, _, _, _ | .print _, _, _, _, _, _
  | .ret _, _, _, _, _, _ | .breakLoop, _, _, _, _, _ | .continueLoop, _, _, _, _, _
  | .expression _, _, _, _, _, _ => by
    simp only [stmt, Context.within]
  | .function _ name params body, ctx, scopes, count, h, hs => by
    have hbody : (Node.stmt (.block body)).Everywhere (StoresOnly p) :=
      hs.child (by simp [Node.children])
    simp only [stmt]
    -- inside, the scope of the function itself comes first in both lists
    refine function_within h name hbody fun count => arranged_congr fun which count => ?_
    exact group_within body count which (h.cons _) fun s hm => hbody.child (List.mem_map_of_mem hm)
  | .block statements, ctx, scopes, count, h, hs => by
    simp only [stmt]
    exact arranged_congr fun which count =>
      group_within statements count which h fun s hm => hs.child (List.mem_map_of_mem hm)
  | .ifElse condition thenStmt elseStmt, ctx, scopes, count, h, hs => by
    have hthen : suite (ctx.within scopes) count .nothing (fun ctx count => stmt ctx count thenStmt) =
        suite ctx count .nothing fun ctx count => stmt ctx count thenStmt :=
      suite_within fun count => stmt_within thenStmt count h (hs.child (.tail _ (.head _)))
    have helse : ∀ count, _ := fun count => alternative_within elseStmt count h fun s hm =>
      hs.child (.tail _ (.tail _ (List.mem_map_of_mem (Option.mem_toList.2 hm))))
    simp only [stmt, hthen, helse]
    rfl
  | .whileLoop condition body, ctx, scopes, count, h, hs => by
    have hbody : (Node.stmt body).Everywhere (StoresOnly p) := hs.child (.tail _ (.head _))
    simp only [stmt]
    refine congrArg (expr ctx.renames 0 condition >>= ·) (funext fun test => ?_)
    exact loop_within test fun count => stmt_within body count h hbody
  | .doLoop condition body, ctx, scopes, count, h, hs => by
    have hbody : (Node.stmt body).Everywhere (StoresOnly p) := hs.child (.tail _ (.head _))
    simp only [stmt]
    refine congrArg (expr ctx.renames 0 condition >>= ·) (funext fun test => ?_)
    exact loop_within _ fun count => stmt_within body count h hbody
  | .forLoop init condition update body, ctx, scopes, count, h, hs => by
    have hbody : (Node.stmt body).Everywhere (StoresOnly p) := hs.child (by simp [Node.children])
    have hinit : ∀ k, optional ((ctx.inFor init count).within scopes) k init =
        optional (ctx.inFor init count) k init := fun k => optional_within init k h fun s hm =>
      hs.child (List.mem_append_left _ (List.mem_map_of_mem (Option.mem_toList.2 hm)))
    simp only [stmt]
    -- the new name does not depend on the scopes: `inFor` commutes with `within`
    show (optional ((ctx.inFor init count).within scopes) (countLoop init count) init >>= _) =
      (optional (ctx.inFor init count) (countLoop init count) init >>= _)
    rw [hinit]
    refine congrArg (_ >>= ·) (funext fun before => ?_)
    refine congrArg (expr (ctx.inFor init count).renames 0 condition >>= ·) (funext fun test => ?_)
    have hloop : loop ((ctx.inFor init count).within scopes) before.2 test (updateEnd update)
          (fun ctx count => stmt ctx count body) =
        loop (ctx.inFor init count) before.2 test (updateEnd update)
          fun ctx count => stmt ctx count body :=
      loop_within test fun count => stmt_within body count h hbody
    exact congrArg (· >>= _) hloop

theorem alternative_within : ∀ (s : Option Stmt) {ctx : Context} {scopes : List (List String)}
    (count : Nat), BindAlike p ctx.scopes scopes →
    (∀ t ∈ s, (Node.stmt t).Everywhere (StoresOnly p)) →
    alternative (ctx.within scopes) count s = alternative ctx count s
  | none, _, _, _, _, _ => by simp only [alternative]
  | some s, ctx, scopes, count, h, hs => by
    have hbranch := stmt_within s count h (hs s rfl)
    have hsuite : suite (ctx.within scopes) count .nothing (fun ctx count => stmt ctx count s) =
        suite ctx count .nothing fun ctx count => stmt ctx count s :=
      suite_within fun count => stmt_within s count h (hs s rfl)
    simp only [alternative, hbranch, hsuite]

theorem optional_within : ∀ (s : Option Stmt) {ctx : Context} {scopes : List (List String)}
    (count : Nat), BindAlike p ctx.scopes scopes →
    (∀ t ∈ s, (Node.stmt t).Everywhere (StoresOnly p)) →
    optional (ctx.within scopes) count s = optional ctx count s
  | none, _, _, _, _, _ => by simp only [optional]
  | some s, _, _, count, h, hs => by simp only [optional, stmt_within s count h (hs s rfl)]

theorem group_within : ∀ (statements : List Stmt) {ctx : Context} {scopes : List (List String)}
    (count : Nat) (which : Group), BindAlike p ctx.scopes scopes →
    (∀ s ∈ statements, (Node.stmt s).Everywhere (StoresOnly p)) →
    group (ctx.within scopes) count which statements = group ctx count which statements
  | [], _, _, _, _, _, _ => by simp only [group]
  | s :: rest, _, _, count, which, h, hs => by
    have hfirst := stmt_within s count h (hs s (.head _))
    have hrest : ∀ count, _ := fun count =>
      group_within rest count which h fun s hm => hs s (.tail _ hm)
    simp only [group, hfirst, hrest]

end

end

/-! ## The main function -/

section

variable {statements : List Stmt}

/-- A main function alone is generated where its own name is bound. -/
theorem program_main (statements : List Stmt) :
    program [.function "int" "main" [] statements] = (do
      let (body, _) ← stmt (programContext ["main"]) 0 (.function "int" "main" [] statements)
      return ⟨[], body⟩) := by
  have hbound : declaredNames [.function "int" "main" [] statements] = ["main"] := by
    simp [declaredNames, walk, Node.walkFrom, Node.visited, Node.declaredName?]
  unfold program
  rw [if_neg (by simp [needsImplicitMain]), hbound]
  show (sequence _ 0 [.function "int" "main" [] statements] >>= _) = _
  simp only [sequence, arranged, group, groupOf]
  show (((stmt _ 0 _ >>= _) >>= _) >>= _) = _
  cases stmt (programContext ["main"]) 0 (.function "int" "main" [] statements) with
  | error e => rfl
  | ok result =>
    show Except.ok (Target.Program.mk [] ((result.1 ++ []) ++ [])) = _
    rw [List.append_nil, List.append_nil]
    rfl

/-- Statements without a main function are generated where nothing is bound. -/
theorem program_implicit (hmain : needsImplicitMain statements = true)
    (hproto : ∀ s ∈ statements, groupOf s ≠ .prototypes) :
    program statements = (do
      let (body, _) ← stmt (programContext []) 0 (.function "int" "main" [] statements)
      return ⟨[], body⟩) := by
  have hrest : withoutPrototypes statements = statements :=
    List.filter_eq_self.2 fun s hs => by simpa using hproto s hs
  have hnone {α : Type} {f : Stmt → Option α} (hf : ∀ s, groupOf s ≠ .prototypes → f s = none) :
      statements.filterMap f = [] :=
    List.filterMap_eq_nil_iff.2 fun s hs => hf s (hproto s hs)
  have hnames : prototypeNames statements = [] := hnone fun s hs => by
    cases s <;> simp_all [groupOf]
  have hstubs : stubs statements = [] := hnone fun s hs => by
    cases s <;> simp_all [groupOf]
  unfold program
  rw [if_pos hmain, hrest, hnames, hstubs, stmt]
  rfl

/-- Statements without a main function are generated like a main function with these statements as
its body, also in what they are refused for. None of them announces a function, and nothing in them
stores to the name of the main function. -/
theorem program_eq_main (hproto : ∀ s ∈ statements, groupOf s ≠ .prototypes)
    (hmain : needsImplicitMain statements = true)
    (hstores : ∀ node ∈ walk true statements, .name "main" ∉ node.storeTargets) :
    program statements = program [.function "int" "main" [] statements] := by
  have halike : BindAlike (· ≠ "main") (programContext []).scopes [["main"]] := by
    intro name hname
    simp [programContext, hname]
  -- the lists of bound names differ only in `main`, which nothing in the body stores to
  have hbody : (Node.stmt (.function "int" "main" [] statements)).Everywhere
      (StoresOnly (· ≠ "main")) := by
    have hnode : ∀ node ∈ walk true statements, StoresOnly (· ≠ "main") node := by
      rintro node hnode _ hname rfl
      obtain ⟨target, htarget, hvariable⟩ := List.mem_filterMap.1 hname
      cases target with
      | name id =>
        cases hvariable
        exact hstores node hnode htarget
      | _ => cases hvariable
    have hblock : (Node.stmt (.block statements)).Everywhere (StoresOnly (· ≠ "main")) :=
      Node.everywhere_iff.2 ⟨nofun, List.forall_mem_map.2 (forall_walk_iff.1 hnode)⟩
    exact Node.everywhere_iff.2 ⟨nofun, fun child hc => List.mem_singleton.1 hc ▸ hblock⟩
  have hs := stmt_within _ 0 halike hbody
  rw [program_implicit hmain hproto, program_main, ← hs]
  rfl

end

/-- `int x = 1; void f() { x += 2; } f(); cout << x;` -/
def updating : List Stmt :=
  [.declaration "int" "x" (some (.number "1")),
   .function "void" "f" [] [.expression (.assign (.update .add) (.name "x") (.number "2"))],
   .expression (.call (.name "f") []), .print [.name "x"]]

theorem program_eq_main_updating :
    ∃ p, program updating = .ok p ∧ program [.function "int" "main" [] updating] = .ok p := by
  have hstores : ∀ node ∈ walk true updating, Expr.name "main" ∉ node.storeTargets := by
    simp [updating, walk, Node.walkFrom, Node.visited, Node.children, Expr.children,
      Node.storeTargets]
  have heq : program updating = program [.function "int" "main" [] updating] :=
    program_eq_main (by decide) (by decide) hstores
  obtain ⟨p, hp⟩ : ∃ p, program updating = .ok p := ⟨_, rfl⟩
  exact ⟨p, hp, heq ▸ hp⟩

end ConsoleCpp.Generate

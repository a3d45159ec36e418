/-
The functions of a program and the definitions generated for them, in pairs. Both come in the same
order, so what holds of each function and the definition that is generated for it at its place holds
along the two lists. The induction over the statements is done here once, for any such relation.
-/
import ConsoleCpp.Proofs.Generate.Emitted
import ConsoleCpp.Proofs.Names.Nonlocal

namespace ConsoleCpp

/-! ## Definitions in generated text -/

namespace Target

namespace Stmt

mutual

/-- The heads and bodies of the definitions in a statement, in the order of the text. -/
def defined : Stmt → List (Header × List Stmt)
  | .define header _ body => (header, body) :: definedAll body
  | .ifElse _ thenSuite elseSuite _ => definedAll thenSuite ++ definedAll elseSuite
  | .whileLoop _ body => definedAll body
  | .assign _ _ | .augment _ _ _ | .eval _ | .print _ | .unimplemented _ | .leaveUnless _ | .ret _
  | .breakLoop | .continueLoop | .pass => []

def definedAll : List Stmt → List (Header × List Stmt)
  | [] => []
  | s :: rest => defined s ++ definedAll rest

end

end Stmt

/-- The heads and bodies of the definitions in a program, in the order of its text. -/
def Program.defined (p : Program) : List (Header × List Stmt) := Stmt.definedAll (p.stubs ++ p.body)

end Target

namespace Generate

open Target.Stmt (defined definedAll)
open Stmt (functions groupFunctions optionFunctions)

theorem definedAll_append (xs ys : List Target.Stmt) :
    definedAll (xs ++ ys) = definedAll xs ++ definedAll ys := by
  induction xs with
  | nil => rfl
  | cons s rest ih => rw [List.cons_append, definedAll, definedAll, ih, List.append_assoc]

theorem definedAll_singleton (s : Target.Stmt) : definedAll [s] = defined s := by
  rw [definedAll, definedAll, List.append_nil]

theorem definedAll_orPass (lines : List Target.Stmt) :
    definedAll (orPass lines) = definedAll lines := by
  cases lines <;> rfl

theorem definedAll_straight : ∀ {lines : List Target.Stmt}, lines.all isStraight = true →
    definedAll lines = []
  | [], _ => rfl
  | s :: rest, h => by
    rw [List.all_cons, Bool.and_eq_true] at h
    rw [definedAll, definedAll_straight h.2]
    cases s <;> first | rfl | cases h.1

theorem definedAll_roundEnd {renames : Renames} {ending : RoundEnd} {ends : List Target.Stmt}
    (h : roundEndStatements renames ending = .ok ends) : definedAll ends = [] := by
  cases ending with
  | nothing | leaveUnless _ =>
    cases h
    rfl
  | update e =>
    obtain ⟨line, hl, h⟩ := bind_ok h
    cases h
    exact definedAll_straight (by simp [expressionStatement_straight hl])

/-! ## Pairs -/

/-- A relation that holds of each function and the definition generated for it: of one that is only
announced, and of one with the lines that are generated for its body, under names that the loops
around it introduce. -/
structure Relates (P : Function → Target.Header × List Target.Stmt → Prop) : Prop where
  announced : ∀ (name : String) (params : List Parameter) (around : List Frame) (renames : Renames)
    (count : Nat),
    P ⟨name, ⟨params, [], renames, count⟩, around⟩ (header name params, [.unimplemented name])
  function : ∀ (name : String) {params : List Parameter} {body : List Stmt} (around : List Frame)
    {ctx : Context} {count n : Nat} {inside : List Target.Stmt}, LoopNamed ctx.renames →
    sequence (ctx.inFunction params body).inner count body = .ok (inside, n) →
    P ⟨name, ⟨params, body, ctx.renames, count⟩, around⟩ (header name params, orPass inside)

section

variable {P : Function → Target.Header × List Target.Stmt → Prop} {ctx : Context} {count n : Nat}
  {lines : List Target.Stmt}

/-- A sequence is in pairs as its groups are. -/
theorem sequence_paired_of {around : List Frame} {statements : List Stmt}
    (h : sequence ctx count statements = .ok (lines, n))
    (hg : ∀ {count n : Nat} {which : Group} {lines : List Target.Stmt},
      group ctx count which statements = .ok (lines, n) →
      List.Forall₂ P (groupFunctions around ctx.renames count which statements)
        (definedAll lines)) :
    List.Forall₂ P (Stmt.functionsAll around ctx.renames count statements) (definedAll lines) := by
  obtain ⟨prototypes, fns, others, ⟨_, h₁⟩, ⟨_, h₂⟩, ⟨_, h₃⟩, rfl⟩ := group_start h
  rw [definedAll_append, definedAll_append, Stmt.functionsAll, functions]
  exact List.rel_append (List.rel_append (hg h₁) (hg h₂)) (hg h₃)

end

section

variable {P : Function → Target.Header × List Target.Stmt → Prop}

mutual

/-- The definitions in the lines of a statement are in such pairs with its functions. -/
theorem stmt_paired (hP : Relates P) : ∀ (s : Stmt) (around : List Frame) {ctx : Context}
    {count n : Nat} {lines : List Target.Stmt}, stmt ctx count s = .ok (lines, n) →
    LoopNamed ctx.renames →
    List.Forall₂ P (s.functions around ctx.renames count) (definedAll lines)
  | .header _, _, _, _, _, _, h, _ | .usingSpace _, _, _, _, _, _, h, _
  | .declaration _ _ _, _, _, _, _, _, h, _ | .input _, _, _, _, _, _, h, _
  | .print _, _, _, _, _, _, h, _ | .expression _, _, _, _, _, _, h, _ => by
    rw [definedAll_straight (simple_straight rfl h)]
    exact .nil
  | .prototype _ name params, around, ctx, count, _, _, h, _ => by
    rw [stmt] at h
    cases h
    exact .cons (hP.announced name params around ctx.renames count) .nil
  | .function _ name params body, around, ctx, count, _, _, h, hr => by
    obtain ⟨inside, hs, rfl⟩ := stmt_function_ok h
    rw [definedAll_singleton, defined, functions, definedAll_orPass]
    have hb := sequence_paired_of hs fun hg =>
      group_paired hP body (⟨params, body, ctx.renames, count⟩ :: around) hg hr
    rw [Stmt.functionsAll, functions] at hb
    exact .cons (hP.function name around hr hs) hb
  | .block statements, around, _, _, _, _, h, hr => by
    rw [stmt_block_eq] at h
    exact sequence_paired_of h fun hg => group_paired hP statements around hg hr
  | .ifElse _ thenStmt elseStmt, around, _, _, _, _, h, hr => by
    obtain ⟨test, first, k, second, chained, -, hf, ha, rfl⟩ := stmt_ifElse_ok h
    obtain rfl := stmt_count thenStmt hf
    rw [definedAll_singleton, defined, definedAll_orPass, functions]
    have h₁ := stmt_paired hP thenStmt around hf hr
    exact List.rel_append h₁ (alternative_paired hP elseStmt around ha hr)
  | .whileLoop _ body, around, _, _, _, _, h, hr => by
    obtain ⟨test, inside, -, hb, rfl⟩ := stmt_whileLoop_ok h
    have h₁ := stmt_paired hP body around hb hr
    rw [definedAll_singleton, defined, definedAll_orPass, functions]
    exact h₁
  | .doLoop _ body, around, _, _, _, _, h, hr => by
    obtain ⟨test, inside, -, hb, rfl⟩ := stmt_doLoop_ok h
    have h₁ := stmt_paired hP body around hb hr
    rw [definedAll_singleton, defined, definedAll_orPass, definedAll_append, functions,
      definedAll_singleton, defined, List.append_nil]
    exact h₁
  | .forLoop init _ _ body, around, _, count, _, _, h, hr => by
    obtain ⟨before, k, test, inside, ends, hb, -, hs, he, rfl⟩ := stmt_forLoop_ok h
    obtain rfl := optional_count init hb
    -- the loop is counted before its parts, and its names count in all of them
    have hr' := loopNamed_loopRenames hr init (countLoop init count)
    have h₁ := optional_paired hP init around hb hr'
    have h₂ := stmt_paired hP body around hs hr'
    rw [definedAll_append, definedAll_singleton, defined, definedAll_orPass, definedAll_append,
      definedAll_roundEnd he, List.append_nil, functions]
    exact List.rel_append h₁ h₂
  | .ret _, _, _, _, _, _, h, _ => by
    rcases stmt_ret_ok h with ⟨-, ⟨-, rfl⟩ | ⟨e, result, -, -, rfl⟩⟩
    · exact .nil
    · exact .nil
  | .breakLoop, _, _, _, _, _, h, _ => by
    rw [stmt] at h
    cases h
    exact .nil
  | .continueLoop, _, _, _, _, _, h, _ => by
    obtain ⟨-, ends, he, rfl⟩ := stmt_continueLoop_ok h
    rw [definedAll_append, definedAll_roundEnd he]
    exact .nil

theorem alternative_paired (hP : Relates P) : ∀ (s : Option Stmt) (around : List Frame)
    {ctx : Context} {count n : Nat} {lines : List Target.Stmt} {chained : Bool},
    alternative ctx count s = .ok (lines, chained, n) → LoopNamed ctx.renames →
    List.Forall₂ P (optionFunctions around ctx.renames count s) (definedAll lines)
  | none, _, _, _, _, _, _, h, _ => by
    rw [alternative] at h
    cases h
    exact .nil
  | some s, around, _, _, _, _, _, h, hr => by
    rcases alternative_some_ok h with ⟨hs, -⟩ | ⟨-, body, hs, rfl⟩
    · exact stmt_paired hP s around hs hr
    · have h₁ := stmt_paired hP s around hs hr
      rw [definedAll_orPass]
      exact h₁

theorem optional_paired (hP : Relates P) : ∀ (s : Option Stmt) (around : List Frame)
    {ctx : Context} {count n : Nat} {lines : List Target.Stmt},
    optional ctx count s = .ok (lines, n) → LoopNamed ctx.renames →
    List.Forall₂ P (optionFunctions around ctx.renames count s) (definedAll lines)
  | none, _, _, _, _, _, h, _ => by
    rw [optional] at h
    cases h
    exact .nil
  | some s, around, _, _, _, _, h, hr => by
    rw [optional] at h
    exact stmt_paired hP s around h hr

theorem group_paired (hP : Relates P) : ∀ (statements : List Stmt) (around : List Frame)
    {ctx : Context} {count n : Nat} {which : Group} {lines : List Target.Stmt},
    group ctx count which statements = .ok (lines, n) → LoopNamed ctx.renames →
    List.Forall₂ P (groupFunctions around ctx.renames count which statements) (definedAll lines)
  | [], _, _, _, _, _, _, h, _ => by
    rw [group] at h
    cases h
    exact .nil
  | s :: rest, around, _, _, _, _, _, h, hr => by
    rw [groupFunctions]
    rcases group_cons_ok h with ⟨rfl, first, k, others, hs, hg, rfl⟩ | ⟨hw, hg⟩
    · obtain rfl := stmt_count s hs
      rw [if_pos (beq_self_eq_true _), definedAll_append]
      exact List.rel_append (stmt_paired hP s around hs hr) (group_paired hP rest around hg hr)
    · rw [if_neg (by simpa using hw)]
      exact group_paired hP rest around hg hr

end

/-- Such a relation holds along the functions of a program, the main function that the program may
leave out included, and the definitions generated for them. -/
theorem program_paired (hP : Relates P) {statements : List Stmt} {p : Target.Program}
    (h : program statements = .ok p) : List.Forall₂ P (programFunctions statements) p.defined := by
  obtain ⟨n, hs⟩ := program_ok h
  exact sequence_paired_of hs fun hg => group_paired hP _ _ hg LoopNamed.nil

/-- The same among statements that are no whole program. -/
theorem fragment_paired (hP : Relates P) {statements : List Stmt} {lines : List Target.Stmt}
    (h : fragment statements = .ok lines) :
    List.Forall₂ P (Stmt.functionsAll [] [] 0 statements) (definedAll lines) := by
  obtain ⟨⟨body, n⟩, hs, h⟩ := bind_ok h
  cases h
  exact sequence_paired_of hs fun hg => group_paired hP _ _ hg LoopNamed.nil

end

end Generate

end ConsoleCpp

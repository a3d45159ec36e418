/-
What the analysis of a function finds and what the lines of the function bind. The analysis traverses
the body with a stack, the generator follows it by recursion and writes the end of a round once more
before each jump to the next one; for each function of a program both come to the same names, those
of the occurrences in its body.
-/
import ConsoleCpp.Proofs.Names.Paired

namespace ConsoleCpp

/-! ## Bodies in generated text -/

namespace Target

/-- The bodies of the definitions in lines, in the order of the text. -/
def Stmt.bodiesAll (lines : List Stmt) : List (List Stmt) := (definedAll lines).map Prod.snd

/-- The bodies of the definitions in a program, in the order of its text. -/
def Program.bodies (p : Program) : List (List Stmt) := p.defined.map Prod.snd

end Target

/-! ## What the analysis finds -/

namespace Frame

variable {f : Frame}

/-- The names that the analysis of a function finds: those that its body declares and those that it
stores to. -/
def found (f : Frame) : List String := declaredNames f.body ++ assignedNames f.body

theorem mem_found {name : String} : name ∈ f.found ↔ ∃ o ∈ f.occurrences, o.name = name := by
  rw [found, List.mem_append, mem_declaredNames f.body [] f.count, mem_assignedNames f.body [] f.count]
  constructor
  · rintro (⟨o, ho, -, hn⟩ | ⟨o, ho, -, hn⟩)
    · exact ⟨o, ho, hn⟩
    · exact ⟨o, ho, hn⟩
  · rintro ⟨o, ho, hn⟩
    by_cases hr : o.role = .stored
    · exact .inr ⟨o, ho, hr, hn⟩
    · exact .inl ⟨o, ho, hr, hn⟩

/-- The analysis of a function misses nothing that lines bind. They bind names generated at
occurrences of what it finds only, they bind all of those, and each name that it finds has one. -/
structure Covers (f : Frame) (lines : List Target.Stmt) : Prop where
  bound : ∀ id ∈ Target.Stmt.bindingsAll lines,
    ∃ o ∈ f.occurrences, id = o.generated f.renames ∧ o.name ∈ f.found
  emitted : ∀ o ∈ f.occurrences, o.generated f.renames ∈ Target.Stmt.bindingsAll lines
  occurring : ∀ name ∈ f.found, ∃ o ∈ f.occurrences, o.name = name

/-- Lines that bind exactly what is generated at the occurrences are covered. -/
theorem Covers.of_iff {lines : List Target.Stmt}
    (h : ∀ id, id ∈ Target.Stmt.bindingsAll lines ↔
      id ∈ Generate.generatedNames f.renames f.occurrences) : f.Covers lines := by
  refine ⟨fun id hid => ?_, fun o ho => ?_, fun name hn => mem_found.1 hn⟩
  · obtain ⟨o, ho, rfl⟩ := List.mem_map.1 ((h id).1 hid)
    exact ⟨o, ho, rfl, mem_found.2 ⟨o, ho, rfl⟩⟩
  · exact (h _).2 (List.mem_map_of_mem ho)

theorem Covers.mem_iff {lines : List Target.Stmt} (h : f.Covers lines) (id : String) :
    id ∈ Target.Stmt.bindingsAll lines ↔ id ∈ Generate.generatedNames f.renames f.occurrences := by
  constructor
  · intro hid
    obtain ⟨o, ho, rfl, -⟩ := h.bound id hid
    exact List.mem_map_of_mem ho
  · intro hid
    obtain ⟨o, ho, rfl⟩ := List.mem_map.1 hid
    exact h.emitted o ho

/-- A function that is only announced binds nothing, and nothing is found in it. -/
theorem Covers.announced (params : List Parameter) (renames : Generate.Renames) (count : Nat)
    (name : String) : Covers ⟨params, [], renames, count⟩ [.unimplemented name] :=
  .of_iff fun _ => Iff.rfl

end Frame

namespace Generate

open Target.Stmt (bodiesAll bindings bindingsAll definedAll)

/-! ## Functions and their bodies -/

theorem covers_sequence {ctx : Context} {count n : Nat} {params : List Parameter}
    {body : List Stmt} {inside : List Target.Stmt}
    (h : sequence (ctx.inFunction params body).inner count body = .ok (inside, n)) :
    Frame.Covers ⟨params, body, ctx.renames, count⟩ (orPass inside) := by
  refine .of_iff fun id => ?_
  rw [bindingsAll_orPass]
  exact sequence_bindings h rfl id

/-- Functions and bodies in the same order, where each body is covered. -/
abbrev AllCovered (fs : List Function) (suites : List (List Target.Stmt)) : Prop :=
  List.Forall₂ (fun f suite => f.frame.Covers suite) fs suites

/-- The analysis of a function covers the body that is generated for it. -/
theorem relates_covers : Relates fun f d => f.frame.Covers d.2 where
  announced name params _ renames count := .announced params renames count name
  function _ _ _ _ _ _ _ _ _ hs := covers_sequence hs

/-- The analysis of each function of a program, the main function that the program may leave out
included, covers the body that is generated for it; and so does that of each function among
statements that are no whole program. -/
theorem functions_covered (statements : List Stmt) :
    (∀ p, program statements = .ok p → AllCovered (programFunctions statements) p.bodies) ∧
    (∀ lines, fragment statements = .ok lines →
      AllCovered (Stmt.functionsAll [] [] 0 statements) (bodiesAll lines)) := by
  constructor
  · exact fun p h => List.forall₂_map_right_iff.2 (program_paired relates_covers h)
  · exact fun lines h => List.forall₂_map_right_iff.2 (fragment_paired relates_covers h)

/-- `for (int i = 0; i < 3; i++) { if (i) continue; std::max(total = i, 0); }` -/
def scopedLoop : Stmt :=
  .forLoop (some (.declaration "int" "i" (some (.number "0")))) (.binary .lt (.name "i") (.number "3"))
    (some (.stepAfter .increment (.name "i"))) (.block [.ifElse (.name "i") .continueLoop none,
      .expression (.scope (.name "std")
        (.call (.name "max") [.assign .set (.name "total") (.name "i"), .number "0"]))])

/-- `void g() { total++; }` -/
def totalling : Stmt := .function "void" "g" [] [.expression (.stepAfter .increment (.name "total"))]

/-- The body of the main function that this program leaves out binds the function, the variable of
the loop under a name of its own and the variable behind the scope, and no other name; the body of
`g` binds the variable that it stores to and no other. -/
theorem functions_covered_scopedLoop : ∃ p, program [scopedLoop, totalling] = .ok p ∧
    ∃ main g, p.bodies = [main, g] ∧
      (∀ id, id ∈ bindingsAll main ↔ id ∈ ["g", "__i_1", "total"]) ∧
      (∀ id, id ∈ bindingsAll g ↔ id ∈ ["total"]) := by
  obtain ⟨p, h⟩ : ∃ p, program [scopedLoop, totalling] = .ok p := ⟨_, rfl⟩
  have hp : programFunctions [scopedLoop, totalling] =
      [⟨"main", ⟨[], [scopedLoop, totalling], [], 0⟩, [topFrame [scopedLoop, totalling]]⟩,
       ⟨"g", ⟨[], [.expression (.stepAfter .increment (.name "total"))], [], 0⟩,
        [⟨[], [scopedLoop, totalling], [], 0⟩, topFrame [scopedLoop, totalling]]⟩] := rfl
  have hc := (functions_covered [scopedLoop, totalling]).1 p h
  rw [hp] at hc
  obtain ⟨main, _, hmain, hc₁, hb⟩ := List.forall₂_cons_left_iff.1 hc
  obtain ⟨g, _, hg, hc₂, rfl⟩ := List.forall₂_cons_left_iff.1 hc₁
  cases hc₂
  refine ⟨p, h, main, g, hb, fun id => ?_, fun id => ?_⟩
  · have hn : generatedNames [] (Frame.occurrences ⟨[], [scopedLoop, totalling], [], 0⟩) =
        ["g", "__i_1", "__i_1", "total"] := by decide +kernel
    rw [hmain.mem_iff, hn]
    simp
  · exact hg.mem_iff id

end Generate

end ConsoleCpp

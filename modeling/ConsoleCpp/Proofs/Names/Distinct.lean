/-
When two source names share a generated name. Outside the loops that declare it, every use of a name
is generated as its plain generated name. Two different names have the same one exactly if one of
them is a reserved word and the other is that word with an underscore at its end: the renaming gets
out of the way of the target language, but into that of the program itself.
-/
import ConsoleCpp.Proofs.Names.Nonlocal
import ConsoleCpp.Proofs.Names.Uses
import Mathlib

namespace ConsoleCpp

/-! ## Renamed words -/

namespace Target

/-- A reserved word and the name that it is changed to. -/
def Renamed (word name : String) : Prop := word ∈ reservedWords ∧ name = word ++ "_"

theorem isPrivate_append {name : String} (h : isPrivate name = true) :
    isPrivate (name ++ "_") = true := by
  unfold isPrivate at h
  split at h
  · rename_i hn
    rw [isPrivate, String.toList_append, hn]
    rfl
  · cases h

theorem append_underscore_inj {a b : String} (h : a ++ "_" = b ++ "_") : a = b := by
  have ht := congrArg String.toList h
  rw [String.toList_append, String.toList_append] at ht
  exact String.toList_injective (List.append_cancel_right ht)

/-- A name with an underscore at its end is no reserved word. -/
theorem append_underscore_not_reserved (name : String) : name ++ "_" ∉ reservedWords := by
  have hlast : ∀ word ∈ reservedWords, word.toList.getLast? ≠ some '_' := by decide
  intro hm
  exact hlast _ hm (by simp [String.toList_append])

theorem safeName_reserved {word : String} (h : word ∈ reservedWords) :
    safeName word = word ++ "_" := by
  rw [safeName, if_pos (by simp [h])]

theorem safeName_private {name : String} (h : isPrivate name = true) :
    safeName name = name ++ "_" := by
  rw [safeName, if_pos (by simp [h])]

theorem safeName_plain {name : String} (hr : name ∉ reservedWords) (hp : isPrivate name = false) :
    safeName name = name := by
  rw [safeName, if_neg (by simp [hr, hp])]

/-- The three kinds of names. -/
theorem safeName_cases (name : String) :
    (name ∈ reservedWords ∧ safeName name = name ++ "_") ∨
      (isPrivate name = true ∧ safeName name = name ++ "_") ∨
      (name ∉ reservedWords ∧ isPrivate name = false ∧ safeName name = name) := by
  by_cases hr : name ∈ reservedWords
  · exact .inl ⟨hr, safeName_reserved hr⟩
  · cases hp : isPrivate name with
    | true => exact .inr (.inl ⟨rfl, safeName_private hp⟩)
    | false => exact .inr (.inr ⟨hr, rfl, safeName_plain hr hp⟩)

/-- Only a reserved word gets the name of a name that is kept. -/
theorem renamed_of_safeName_eq {a b : String} (hb : isPrivate b = false)
    (h : a ++ "_" = b) (ha : a ∈ reservedWords ∨ isPrivate a = true) : Renamed a b := by
  rcases ha with ha | ha
  · exact ⟨ha, h.symm⟩
  · -- what starts with two underscores still does with a third one at its end
    rw [← h, isPrivate_append ha] at hb
    cases hb

theorem Renamed.safeName_eq {word name : String} (h : Renamed word name) :
    safeName word = safeName name := by
  obtain ⟨hw, rfl⟩ := h
  have hp : isPrivate (word ++ "_") = false := by
    revert word
    decide
  rw [safeName_reserved hw, safeName_plain (append_underscore_not_reserved word) hp]

/-- Two different names share their generated name exactly if one is what the other, a reserved
word, is changed to. -/
theorem safeName_eq_iff {a b : String} (hab : a ≠ b) :
    safeName a = safeName b ↔ Renamed a b ∨ Renamed b a := by
  constructor
  · intro h
    rcases safeName_cases a with ⟨ha, ea⟩ | ⟨ha, ea⟩ | ⟨-, ha, ea⟩ <;>
      rcases safeName_cases b with ⟨hb, eb⟩ | ⟨hb, eb⟩ | ⟨-, hb, eb⟩ <;> rw [ea, eb] at h
    -- both are changed, and then in the same way
    · exact absurd (append_underscore_inj h) hab
    · exact absurd (append_underscore_inj h) hab
    · exact .inl (renamed_of_safeName_eq hb h (.inl ha))
    · exact absurd (append_underscore_inj h) hab
    · exact absurd (append_underscore_inj h) hab
    · exact .inl (renamed_of_safeName_eq hb h (.inr ha))
    · exact .inr (renamed_of_safeName_eq ha h.symm (.inl hb))
    · exact .inr (renamed_of_safeName_eq ha h.symm (.inr hb))
    · exact absurd h hab
  · rintro (h | h)
    · exact h.safeName_eq
    · exact h.safeName_eq.symm

end Target

/-! ## Names of the source -/

namespace Stmt

mutual

/-- The names that a statement uses as variables, functions or parameters outside the `for` loops in
it that declare them. -/
def outside : Stmt → List String
  | .prototype _ name params => name :: params.map Parameter.name
  | .function _ name params body => name :: params.map Parameter.name ++ outsideAll body
  | .declaration _ name initializer => name :: Expr.namesAll initializer.toList
  | .block statements => outsideAll statements
  | .input targets => Expr.namesAll targets
  | .print parts => Expr.namesAll parts
  | .ifElse condition thenStmt elseStmt =>
    condition.names false ++ outside thenStmt ++ outsideOption elseStmt
  | .whileLoop condition body => condition.names false ++ outside body
  | .doLoop condition body => outside body ++ condition.names false
  | .forLoop init condition update body =>
    (outsideOption init ++ (condition.names false ++ (outside body ++
      Expr.namesAll update.toList))).filter (Generate.loopVariable? init != some ·)
  | .ret value => Expr.namesAll value.toList
  | .expression e => e.names false
  | .header _ | .usingSpace _ | .breakLoop | .continueLoop => []

def outsideAll : List Stmt → List String
  | [] => []
  | s :: rest => outside s ++ outsideAll rest

def outsideOption : Option Stmt → List String
  | none => []
  | some s => outside s

end

theorem outsideAll_eq (statements : List Stmt) :
    outsideAll statements = statements.flatMap outside := by
  induction statements with
  | nil => rfl
  | cons s rest ih => rw [outsideAll, ih, List.flatMap_cons]

/-- The uses of statements are those of the ones with a property and those of the others. -/
theorem outsideAll_filter (p : Stmt → Bool) (statements : List Stmt) :
    (outsideAll (statements.filter p) ++ outsideAll (statements.filter fun s => !p s)).Perm
      (outsideAll statements) := by
  rw [outsideAll_eq, outsideAll_eq, outsideAll_eq, ← List.flatMap_append]
  exact (List.filter_append_perm p statements).flatMap_right outside

end Stmt

/-! ## Generated names -/

namespace Generate

open Target (Renamed safeName)
open Target.Expr (varsAll)

/-- Each of the source names has its generated name among these variables, in a place of its own. -/
def Covers (renames : Renames) (names ids : List String) : Prop :=
  (names.map (bind renames)).Subperm ids

namespace Covers

variable {renames : Renames} {names more ids others : List String}

theorem nil : Covers renames [] ids := List.nil_subperm

theorem single (name : String) : Covers renames [name] [bind renames name] := List.Subperm.refl _

theorem append (h₁ : Covers renames names ids) (h₂ : Covers renames more others) :
    Covers renames (names ++ more) (ids ++ others) := by
  unfold Covers
  rw [List.map_append]
  exact List.Subperm.append h₁ h₂

/-- Names that stand for their uses in order are among all variables that these are among. -/
theorem of_bound (h : Bound renames names ids) (hs : ids.Sublist others) :
    Covers renames names others :=
  ((h.sublist fun _ _ hid => hid).trans hs).subperm

/-- The names of one expression are those of a list of it. -/
theorem one {e : Expr} (h : Covers renames (e.names false) ids) :
    Covers renames (Expr.namesAll [e]) ids := by
  rw [Expr.namesAll, Expr.namesAll, List.append_nil]
  exact h

end Covers

section

variable {renames : Renames}

theorem expr_covers {e : Expr} {depth : Nat} {form : Target.Expr}
    (h : expr renames depth e = .ok form) : Covers renames (e.names false) form.vars :=
  .of_bound (expr_bound h) (Target.Expr.varsAt_sublist true false form)

theorem pieces_covers {parts : List Expr} {previous : Option Expr} {texts : List Target.Expr}
    (h : pieces renames previous parts = .ok texts) :
    Covers renames (Expr.namesAll parts) (varsAll texts) :=
  .of_bound (pieces_bound h) (Target.Expr.varsAllAt_sublist true texts)

theorem inputs_covers {targets : List Expr} {lines : List Target.Stmt}
    (h : inputs renames targets = .ok lines) :
    Covers renames (Expr.namesAll targets) (Target.Stmt.varsAll lines) :=
  .of_bound (inputs_bound h) (Target.Stmt.usesAll_sublist lines)

theorem line_covers {e : Expr} {line : Target.Stmt} (h : LineOf renames e line) :
    Covers renames (e.names false) line.vars :=
  .of_bound (line_bound h) (Target.Stmt.uses_sublist line)

theorem roundEnd_covers {update : Option Expr} {ends : List Target.Stmt}
    (h : roundEndStatements renames (updateEnd update) = .ok ends) :
    Covers renames (Expr.namesAll update.toList) (Target.Stmt.varsAll ends) :=
  .of_bound (roundEnd_bound h) (Target.Stmt.usesAll_sublist ends)

end

/-! ## Statements -/

theorem varsAll_orPass (lines : List Target.Stmt) :
    Target.Stmt.varsAll (orPass lines) = Target.Stmt.varsAll lines := by
  cases lines <;> rfl

/-- Each of the source names that are bound plainly has its plain generated name among these
variables, in a place of its own. -/
def Plain (renames : Renames) (names ids : List String) : Prop :=
  ((names.filter fun name => bind renames name == safeName name).map safeName).Subperm ids

namespace Plain

variable {renames : Renames} {names more ids others : List String}

theorem nil : Plain renames [] ids := List.nil_subperm

theorem append (h₁ : Plain renames names ids) (h₂ : Plain renames more others) :
    Plain renames (names ++ more) (ids ++ others) := by
  unfold Plain
  rw [List.filter_append, List.map_append]
  exact List.Subperm.append h₁ h₂

theorem mono (h : Plain renames names ids) (hs : ids.Sublist others) : Plain renames names others :=
  List.Subperm.trans h hs.subperm

theorem perm (h : Plain renames names ids) (hp : more.Perm names) : Plain renames more ids :=
  ((hp.filter _).map safeName).subperm.trans h

/-- Names that are generated plainly in any case. -/
theorem safe (renames : Renames) (names : List String) : Plain renames names (names.map safeName) :=
  (List.filter_sublist.map safeName).subperm

theorem of_covers (h : Covers renames names ids) : Plain renames names ids := by
  unfold Plain
  have hmap : (names.filter fun name => bind renames name == safeName name).map safeName =
      (names.filter fun name => bind renames name == safeName name).map (bind renames) :=
    List.map_congr_left fun name hm => (beq_iff_eq.1 (List.mem_filter.1 hm).2).symm
  rw [hmap]
  exact (List.filter_sublist.map _).subperm.trans h

theorem orPass {lines : List Target.Stmt} (h : Plain renames names (Target.Stmt.varsAll lines)) :
    Plain renames names (Target.Stmt.varsAll (orPass lines)) := by
  rw [varsAll_orPass]
  exact h

theorem one {line : Target.Stmt} (h : Plain renames names line.vars) :
    Plain renames names (Target.Stmt.varsAll [line]) :=
  h.mono (List.sublist_append_left _ _)

theorem lines {xs ys : List Target.Stmt} (h₁ : Plain renames names (Target.Stmt.varsAll xs))
    (h₂ : Plain renames more (Target.Stmt.varsAll ys)) :
    Plain renames (names ++ more) (Target.Stmt.varsAll (xs ++ ys)) := by
  rw [varsAll_append]
  exact h₁.append h₂

theorem whileLoop {test : Target.Expr} {lines : List Target.Stmt} (ht : Plain renames names test.vars)
    (hl : Plain renames more (Target.Stmt.varsAll lines)) :
    Plain renames (names ++ more)
      (Target.Stmt.varsAll [.whileLoop test (Generate.orPass lines)]) :=
  .one (ht.append hl.orPass)

end Plain

/-- Inside a loop, a name that the loop does not declare is bound as around it. -/
theorem bind_inFor {ctx : Context} {init : Option Stmt} (count : Nat) {name : String}
    (h : (loopVariable? init != some name) = true) :
    bind (ctx.inFor init count).renames name = bind ctx.renames name := by
  unfold Context.inFor loopRenames bind
  cases hl : loopVariable? init with
  | none => rfl
  | some declared =>
    have hn : (name == declared) = false := by
      rw [hl, bne_iff_ne] at h
      exact beq_eq_false_iff_ne.2 fun he => h (congrArg some he.symm)
    simp only [Option.map_some, Option.toList_some, List.findSome?_cons, List.lookup_cons, hn,
      List.lookup_nil]

/-- What is bound plainly around a loop and not declared by it is bound plainly in the loop. -/
theorem Plain.inFor {ctx : Context} {init : Option Stmt} {count : Nat} {names ids : List String}
    (h : Plain (ctx.inFor init count).renames names ids) :
    Plain ctx.renames (names.filter (loopVariable? init != some ·)) ids := by
  unfold Plain
  rw [List.filter_filter]
  refine List.Subperm.trans (List.Sublist.subperm (List.Sublist.map safeName ?_)) h
  refine List.monotone_filter_right names fun name hn => ?_
  obtain ⟨hb, hl⟩ := Bool.and_eq_true_iff.1 hn
  rw [bind_inFor count hl]
  exact hb

/-- The head of a function has the generated names of the function and its parameters. -/
theorem header_plain (renames : Renames) (name : String) (params : List Parameter) :
    Plain renames (name :: params.map Parameter.name)
      ((header name params).name :: (header name params).params) := by
  have h := Plain.safe renames (name :: params.map Parameter.name)
  rw [List.map_cons, List.map_map] at h
  exact h

/-- The uses of statements by the groups of these. -/
theorem outsideAll_groups (statements : List Stmt) :
    (Stmt.outsideAll statements).Perm
      (Stmt.outsideAll (statements.filter fun s => groupOf s == .prototypes) ++
        Stmt.outsideAll (statements.filter fun s => groupOf s == .functions) ++
        Stmt.outsideAll (statements.filter fun s => groupOf s == .others)) := by
  induction statements with
  | nil => exact List.Perm.refl _
  | cons s rest ih =>
    rw [List.perm_iff_count] at ih ⊢
    intro name
    have ihn := ih name
    cases hg : groupOf s <;>
      simp [hg, Stmt.outsideAll, List.count_append] at ihn ⊢ <;> omega

/-- A sequence has the uses of its statements, if each group has those of its own. -/
theorem sequence_plain_of {statements : List Stmt} {ctx : Context} {count n : Nat}
    {lines : List Target.Stmt} (h : sequence ctx count statements = .ok (lines, n))
    (hg : ∀ {count n : Nat} {which : Group} {lines : List Target.Stmt},
      group ctx count which statements = .ok (lines, n) →
      Plain ctx.renames (Stmt.outsideAll (statements.filter fun s => groupOf s == which))
        (Target.Stmt.varsAll lines)) :
    Plain ctx.renames (Stmt.outsideAll statements) (Target.Stmt.varsAll lines) := by
  obtain ⟨prototypes, n₁, functions, n₂, others, h₁, h₂, h₃, rfl⟩ := arranged_ok h
  exact (((hg h₁).lines (hg h₂)).lines (hg h₃)).perm (outsideAll_groups statements)

mutual

/-- What a statement uses outside the loops that declare it has its plain generated name there, where
no loop around the statement declares it. -/
theorem stmt_plain : ∀ (s : Stmt) {ctx : Context} {count n : Nat} {lines : List Target.Stmt},
    stmt ctx count s = .ok (lines, n) →
    Plain ctx.renames s.outside (Target.Stmt.varsAll lines)
  | .header _, _, _, _, _, _ | .usingSpace _, _, _, _, _, _ | .breakLoop, _, _, _, _, _
  | .continueLoop, _, _, _, _, _ => .nil
  | .prototype _ name params, ctx, _, _, _, h => by
    rw [stmt] at h
    cases h
    have hhead := header_plain ctx.renames name params
    exact .one ((hhead.mono (List.sublist_append_left _ [])).mono (List.sublist_append_left _ _))
  | .function _ name params body, ctx, _, _, _, h => by
    obtain ⟨inside, hi, rfl⟩ := stmt_function_ok h
    have hbody := sequence_plain_of hi fun hg => group_plain body hg
    have hhead := header_plain ctx.renames name params
    exact .one ((hhead.mono (List.sublist_append_left _ _)).append hbody.orPass)
  | .declaration _ name initializer, ctx, _, _, _, h => by
    obtain ⟨-, value, rfl, hv⟩ := stmt_declaration_ok h
    refine .one (.of_covers ((Covers.single name).append ?_))
    rcases hv with ⟨rfl, -⟩ | ⟨e, rfl, hv⟩
    · exact .nil
    · exact (expr_covers hv).one
  | .block statements, _, _, _, _, h => by
    rw [stmt_block_eq] at h
    exact sequence_plain_of h fun hg => group_plain statements hg
  | .input _, _, _, _, _, h => .of_covers (inputs_covers (stmt_input_ok h).2)
  | .print _, _, _, _, _, h => by
    rcases stmt_print_ok h with ⟨-, ⟨rfl, -⟩ | ⟨texts, ht, rfl⟩⟩
    · exact .nil
    · exact .one (.of_covers (pieces_covers ht))
  | .ifElse _ thenStmt elseStmt, _, _, _, _, h => by
    obtain ⟨test, first, k, second, chained, ht, hf, ha, rfl⟩ := stmt_ifElse_ok h
    have htest := Plain.of_covers (expr_covers ht)
    exact .one ((htest.append (stmt_plain thenStmt hf).orPass).append (alternative_plain elseStmt ha))
  | .whileLoop _ body, _, _, _, _, h => by
    obtain ⟨test, inside, ht, hi, rfl⟩ := stmt_whileLoop_ok h
    have htest := Plain.of_covers (expr_covers ht)
    have hbody := stmt_plain body hi
    exact htest.whileLoop hbody
  | .doLoop _ body, ctx, _, _, _, h => by
    obtain ⟨test, inside, ht, hi, rfl⟩ := stmt_doLoop_ok h
    have htest := Plain.of_covers (expr_covers ht)
    have hleave : Plain ctx.renames _ (Target.Stmt.varsAll [.leaveUnless test]) := .one htest
    exact .one ((stmt_plain body hi).lines hleave).orPass
  | .forLoop init _ update body, ctx, count, _, _, h => by
    obtain ⟨before, k, test, inside, ends, hi, ht, hs, he, rfl⟩ := stmt_forLoop_ok h
    have htest := Plain.of_covers (expr_covers ht)
    -- the lines of the update stand behind the body, as part of each round
    have hround := (stmt_plain body hs).lines (.of_covers (roundEnd_covers he))
    exact ((optional_plain init hi).lines (htest.whileLoop hround)).inFor
  | .ret _, _, _, _, _, h => by
    rcases stmt_ret_ok h with ⟨-, ⟨rfl, -⟩ | ⟨e, result, rfl, hr, rfl⟩⟩
    · exact .nil
    · exact .one (.of_covers ((expr_covers hr).append .nil))
  | .expression _, _, _, _, _, h => by
    obtain ⟨-, line, hl, rfl⟩ := stmt_expression_ok h
    exact .one (.of_covers (line_covers (lineOf hl)))

theorem alternative_plain : ∀ (s : Option Stmt) {ctx : Context} {count n : Nat}
    {lines : List Target.Stmt} {chained : Bool}, alternative ctx count s = .ok (lines, chained, n) →
    Plain ctx.renames (Stmt.outsideOption s) (Target.Stmt.varsAll lines)
  | none, _, _, _, _, _, _ => .nil
  | some s, _, _, _, _, _, h => by
    rcases alternative_some_ok h with ⟨hs, -⟩ | ⟨-, body, hs, rfl⟩
    · exact stmt_plain s hs
    · exact (stmt_plain s hs).orPass

theorem optional_plain : ∀ (s : Option Stmt) {ctx : Context} {count n : Nat}
    {lines : List Target.Stmt}, optional ctx count s = .ok (lines, n) →
    Plain ctx.renames (Stmt.outsideOption s) (Target.Stmt.varsAll lines)
  | none, _, _, _, _, _ => .nil
  | some s, _, _, _, _, h => by
    rw [optional] at h
    exact stmt_plain s h

theorem group_plain : ∀ (statements : List Stmt) {ctx : Context} {count n : Nat} {which : Group}
    {lines : List Target.Stmt}, group ctx count which statements = .ok (lines, n) →
    Plain ctx.renames (Stmt.outsideAll (statements.filter fun s => groupOf s == which))
      (Target.Stmt.varsAll lines)
  | [], _, _, _, _, _, _ => .nil
  | s :: rest, _, _, _, which, _, h => by
    rcases group_cons_ok h with ⟨hw, first, k, others, hf, hr, rfl⟩ | ⟨hw, hr⟩
    · rw [List.filter_cons_of_pos (by simpa using hw)]
      exact (stmt_plain s hf).lines (group_plain rest hr)
    · rw [List.filter_cons_of_neg (by simpa using hw)]
      exact group_plain rest hr

end

/-- What the statements use at the top level is used there also if they are the body of a main
function. -/
theorem outsideAll_topStatements (statements : List Stmt) :
    (Stmt.outsideAll statements).Subperm (Stmt.outsideAll (topStatements statements)) := by
  unfold topStatements
  split
  · rw [Stmt.outsideAll_eq (_ ++ _), List.flatMap_append, ← Stmt.outsideAll_eq, List.flatMap_singleton]
    refine (Stmt.outsideAll_filter (fun s => groupOf s == .prototypes) statements).symm.subperm.trans ?_
    exact (List.Subperm.refl _).append (List.sublist_append_right ["main"] _).subperm
  · exact List.Subperm.refl _

/-- Each use of a name in a program, outside the loops that declare it, has its plain generated name
in a place of its own in what is generated. -/
theorem program_plain {statements : List Stmt} {p : Target.Program}
    (h : program statements = .ok p) :
    ((Stmt.outsideAll statements).map safeName).Subperm p.vars := by
  obtain ⟨n, h⟩ := program_ok h
  have htop := sequence_plain_of h fun hg => group_plain _ hg
  -- no loop is around the program, so all names are bound plainly
  have hall : (Stmt.outsideAll (topStatements statements)).filter (fun name =>
      bind (programContext (topFrame statements).names).renames name == safeName name) =
      Stmt.outsideAll (topStatements statements) :=
    List.filter_eq_self.2 fun name _ => beq_self_eq_true (safeName name)
  rw [Plain, hall] at htop
  obtain ⟨uses, hp, hs⟩ := outsideAll_topStatements statements
  exact List.Subperm.trans ⟨_, hp.map safeName, hs.map safeName⟩ htop

/-- The uses of names in a program, outside the loops that declare them, as variables, functions or
parameters are generated as their plain generated names. For two different ones these are the same
exactly if one of the names is a reserved word and the other is that word with an underscore at its
end. -/
theorem names_collide_iff {statements : List Stmt} {p : Target.Program}
    (h : program statements = .ok p) :
    ((Stmt.outsideAll statements).map safeName).Subperm p.vars ∧
    ∀ a b, a ≠ b → (safeName a = safeName b ↔ Renamed a b ∨ Renamed b a) :=
  ⟨program_plain h, fun _ _ => Target.safeName_eq_iff⟩

/-- The statements of `int main() \x7b int from = 1; int from_ = 2; cout << from << from_; \x7d` -/
def underscored : List Stmt :=
  [.function "int" "main" []
    [.declaration "int" "from" (some (.number "1")),
     .declaration "int" "from_" (some (.number "2")),
     .print [.name "from", .name "from_"]]]

/-- What is generated for `underscored`. -/
def underscoredProgram : Target.Program :=
  ⟨[], [.define ⟨"main", [], true⟩ []
    [.assign (.name "from_") (.number "1"), .assign (.name "from_") (.number "2"),
     .print [.shown (.name "from_"), .text "\" \"", .shown (.name "from_")]]]⟩

/-- The two variables of `underscored` are one variable of what is generated for it. -/
theorem names_collide_iff_underscored :
    program underscored = .ok underscoredProgram ∧
      ((Stmt.outsideAll underscored).map safeName).Subperm underscoredProgram.vars ∧
      safeName "from" = safeName "from_" := by
  have hp : program underscored = .ok underscoredProgram := by cbv
  obtain ⟨huses, h⟩ := names_collide_iff hp
  exact ⟨hp, huses, (h "from" "from_" (by decide)).2 (.inl ⟨by decide, rfl⟩)⟩

end Generate

end ConsoleCpp

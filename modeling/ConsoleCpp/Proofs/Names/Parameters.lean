/-
By which names a function refers to its parameters. The head of a definition has the plain generated
name of each parameter, and so has the definition of a function inside; every other mention of a
name in the body goes by the loops around it, and the loops around the whole function count among
these.
So a parameter is referred to by its name in the head, except where a `for` loop around the function
declares a variable of that name.
-/
import ConsoleCpp.Proofs.Names.Fresh
import ConsoleCpp.Proofs.Names.Paired
import ConsoleCpp.Proofs.Names.Uses

namespace ConsoleCpp

open Generate (Renames groupOf loopVariable?)

/-! ## Mentions -/

/-- A mention of a name in a body, with the variables of the loops of the body around it. -/
structure Mention where
  name : String
  /-- Whether it is the name that a function or prototype is defined by. -/
  defines : Bool
  loops : List String
deriving DecidableEq, Repr, Inhabited

/-- The generated name at a mention outside the loops of the body that declare the name, given the
names that the loops around the body introduce. -/
def Mention.generated (renames : Renames) (m : Mention) : String :=
  if m.defines then Target.safeName m.name else Generate.bind renames m.name

namespace Stmt

/-- Mentions of variables. -/
def used (loops : List String) (names : List String) : List Mention :=
  names.map fun name => ⟨name, false, loops⟩

mutual

/-- The mentions in a statement with the variables of these loops around it, in the order in which
they are generated: what ends a round comes again before each jump to the next one. What functions
inside mention is not counted. -/
def mentions (loops : List String) (ending : List Mention) : Stmt → List Mention
  | .header _ | .usingSpace _ | .breakLoop => []
  | .continueLoop => ending
  | .declaration _ name initializer => used loops (name :: Expr.namesAll initializer.toList)
  | .prototype _ name _ | .function _ name _ _ => [⟨name, true, loops⟩]
  | .block statements =>
    groupMentions loops ending .prototypes statements ++
      groupMentions loops ending .functions statements ++
      groupMentions loops ending .others statements
  | .input targets => used loops (Expr.namesAll targets)
  | .print parts => used loops (Expr.namesAll parts)
  | .ifElse condition thenStmt elseStmt =>
    used loops (condition.names false) ++ mentions loops ending thenStmt ++
      optionMentions loops ending elseStmt
  | .whileLoop condition body => used loops (condition.names false) ++ mentions loops [] body
  | .doLoop condition body =>
    mentions loops (used loops (condition.names false)) body ++ used loops (condition.names false)
  | .forLoop init condition update body =>
    let loops := (loopVariable? init).toList ++ loops
    let round := used loops (Expr.namesAll update.toList)
    optionMentions loops ending init ++ used loops (condition.names false) ++
      mentions loops round body ++ round
  | .ret value => used loops (Expr.namesAll value.toList)
  | .expression e => used loops (e.names false)

/-- The mentions in the statements of one group. -/
def groupMentions (loops : List String) (ending : List Mention) (which : Generate.Group) :
    List Stmt → List Mention
  | [] => []
  | s :: rest =>
    if groupOf s == which then mentions loops ending s ++ groupMentions loops ending which rest
    else groupMentions loops ending which rest

def optionMentions (loops : List String) (ending : List Mention) : Option Stmt → List Mention
  | none => []
  | some s => mentions loops ending s

end

end Stmt

/-- The mentions in the body of a function, outside the functions in it. -/
def Frame.mentions (f : Frame) : List Mention := Stmt.mentions [] [] (.block f.body)

/-- Whether a `for` loop around a function declares this name. -/
def Frame.Looped (f : Frame) (name : String) : Prop := ∃ loop ∈ f.renames, name ∈ loop.map Prod.fst

namespace Generate

open Target (safeName)
open Target.Stmt (uses usesAll usesAll_append usesAll_singleton usesAll_orPass)
open Stmt (used mentions groupMentions optionMentions)

/-! ## Lines -/

/-- A name stands for a mention, unless a loop of the body around the mention declares the name. -/
def StandsFor (outer : Renames) (m : Mention) (id : String) : Prop :=
  m.name ∉ m.loops → id = m.generated outer

/-- The lines mention these names in this order, in a body with these names of loop variables
around it. -/
abbrev Mentions (outer : Renames) (ms : List Mention) (lines : List Target.Stmt) : Prop :=
  Spelled (StandsFor outer) ms (usesAll lines)

/-- Names that no loop of the body declares are bound as around the body. -/
def Surrounded (outer : Renames) (loops : List String) (renames : Renames) : Prop :=
  ∀ name ∉ loops, bind renames name = bind outer name

theorem Surrounded.inFor {outer : Renames} {loops : List String} {ctx : Context}
    (h : Surrounded outer loops ctx.renames) (init : Option Stmt) (count : Nat) :
    Surrounded outer ((loopVariable? init).toList ++ loops) (ctx.inFor init count).renames := by
  intro name hn
  rw [List.mem_append, not_or, Option.mem_toList] at hn
  rw [bind_inFor count (by simpa using hn.1), h name hn.2]

section

variable {outer renames : Renames} {loops : List String}

/-- The variables of an expression stand for its mentions. -/
theorem mentions_bound {names ids : List String} (h : Bound renames names ids)
    (hr : Surrounded outer loops renames) : Spelled (StandsFor outer) (used loops names) ids :=
  h.map _ fun name _ hid hn => hid.trans (hr name hn)

theorem mentions_expr {e : Expr} {form : Target.Expr} (h : expr renames 0 e = .ok form)
    (hr : Surrounded outer loops renames) :
    Spelled (StandsFor outer) (used loops (e.names false)) (form.uses false) :=
  mentions_bound (expr_bound h) hr

theorem mentions_roundEnd {update : Option Expr} {ends : List Target.Stmt}
    (h : roundEndStatements renames (updateEnd update) = .ok ends)
    (hr : Surrounded outer loops renames) :
    Mentions outer (used loops (Expr.namesAll update.toList)) ends :=
  mentions_bound (roundEnd_bound h) hr

end

/-! ## Statements -/

/-- The end of a round of the loop around a statement has these mentions. -/
def EndMentions (outer : Renames) (ctx : Context) (ending : List Mention) : Prop :=
  ∀ ends, roundEndStatements ctx.renames ctx.roundEnd = .ok ends → Mentions outer ending ends

theorem EndMentions.nothing {outer : Renames} {ctx : Context} (h : ctx.roundEnd = .nothing) :
    EndMentions outer ctx [] := by
  intro ends he
  rw [h] at he
  cases he
  exact .nil

theorem EndMentions.of_bind_eq {outer : Renames} {ctx inside : Context} {ending : List Mention}
    (h : EndMentions outer ctx ending) (hb : bind inside.renames = bind ctx.renames)
    (he : inside.roundEnd = ctx.roundEnd) : EndMentions outer inside ending := by
  intro ends hends
  rw [roundEndStatements_congr hb, he] at hends
  exact h ends hends

theorem mentions_declaration {outer : Renames} (ending : List Mention) {type name : String}
    {initializer : Option Expr} {loops : List String} {ctx : Context} {count n : Nat}
    {lines : List Target.Stmt}
    (h : stmt ctx count (.declaration type name initializer) = .ok (lines, n))
    (hr : Surrounded outer loops ctx.renames) :
    Mentions outer (mentions loops ending (.declaration type name initializer)) lines := by
  obtain ⟨-, value, rfl, hv⟩ := stmt_declaration_ok h
  have hvalue : Bound ctx.renames (Expr.namesAll initializer.toList) (value.uses false) := by
    rcases hv with ⟨rfl, rfl⟩ | ⟨e, rfl, he⟩
    · rw [Target.Expr.uses, varsAt_defaultValue]
      exact .nil
    · have h := (expr_bound he).append .nil
      rw [List.append_nil (value.uses false)] at h
      exact h
  rw [Mentions, usesAll_singleton, mentions]
  exact mentions_bound (.once rfl hvalue) hr

section

variable {outer : Renames} {loops : List String} {ending : List Mention} {ctx : Context}
  {count n : Nat} {lines : List Target.Stmt}

/-- A sequence has the mentions of its groups. -/
theorem sequence_mentions_of {statements : List Stmt}
    (h : sequence ctx count statements = .ok (lines, n))
    (hg : ∀ {count n : Nat} {which : Group} {lines : List Target.Stmt},
      group ctx count which statements = .ok (lines, n) →
      Mentions outer (groupMentions loops ending which statements) lines) :
    Mentions outer (mentions loops ending (.block statements)) lines := by
  obtain ⟨prototypes, n₁, functions, n₂, others, h₁, h₂, h₃, rfl⟩ := arranged_ok h
  rw [Mentions, usesAll_append, usesAll_append, mentions]
  exact ((hg h₁).append (hg h₂)).append (hg h₃)

end

mutual

/-- The lines of a statement have its mentions, each by its generated name. -/
theorem stmt_mentions {outer : Renames} : ∀ (s : Stmt) {loops : List String} {ending : List Mention}
    {ctx : Context} {count n : Nat} {lines : List Target.Stmt}, stmt ctx count s = .ok (lines, n) →
    Surrounded outer loops ctx.renames → EndMentions outer ctx ending →
    Mentions outer (s.mentions loops ending) lines
  | .header _, _, _, _, _, _, _, h, _, _ | .usingSpace _, _, _, _, _, _, _, h, _, _
  | .breakLoop, _, _, _, _, _, _, h, _, _ => by
    rw [stmt] at h
    cases h
    exact .nil
  | .prototype _ name _, _, _, _, _, _, _, h, _, _ => by
    rw [stmt] at h
    cases h
    exact .single fun _ => rfl
  | .function _ name _ _, _, _, _, _, _, _, h, _, _ => by
    obtain ⟨inside, -, rfl⟩ := stmt_function_ok h
    exact .single fun _ => rfl
  | .declaration _ _ _, _, _, _, _, _, _, h, hr, _ => mentions_declaration _ h hr
  | .block statements, _, _, _, _, _, _, h, hr, he => by
    rw [stmt_block_eq] at h
    exact sequence_mentions_of h fun hg => group_mentions statements hg hr he
  | .input targets, _, _, _, _, _, _, h, hr, _ =>
    mentions_bound (inputs_bound (stmt_input_ok h).2) hr
  | .print parts, _, _, _, _, _, _, h, hr, _ => by
    rcases stmt_print_ok h with ⟨-, ⟨rfl, rfl⟩ | ⟨texts, ht, rfl⟩⟩
    · exact .nil
    · rw [Mentions, usesAll_singleton]
      exact mentions_bound (pieces_bound ht) hr
  | .ifElse condition thenStmt elseStmt, _, _, _, _, _, _, h, hr, he => by
    obtain ⟨test, first, k, second, chained, ht, hf, ha, rfl⟩ := stmt_ifElse_ok h
    have h₁ := stmt_mentions thenStmt hf hr he
    have h₂ := alternative_mentions elseStmt ha hr he
    rw [Mentions, usesAll_singleton, uses, usesAll_orPass, mentions]
    exact ((mentions_expr ht hr).append h₁).append h₂
  | .whileLoop condition body, _, _, _, _, _, _, h, hr, _ => by
    obtain ⟨test, inside, ht, hi, rfl⟩ := stmt_whileLoop_ok h
    have hb := stmt_mentions body hi hr (.nothing rfl)
    rw [Mentions, usesAll_singleton, uses, usesAll_orPass, mentions]
    exact (mentions_expr ht hr).append hb
  | .doLoop condition body, _, _, _, _, _, _, h, hr, _ => by
    obtain ⟨test, inside, ht, hi, rfl⟩ := stmt_doLoop_ok h
    have htest := mentions_expr ht hr
    have hleave : usesAll [.leaveUnless test] = test.uses false := usesAll_singleton _
    -- the test stands at the end of each round, whether the round is cut short or not
    have hb := stmt_mentions body hi hr fun ends hends => by
      cases hends
      rw [Mentions, hleave]
      exact htest
    rw [Mentions, usesAll_singleton, uses, usesAll_orPass, usesAll_append, hleave, mentions]
    exact hb.append htest
  | .forLoop init condition update body, loops, _, ctx, count, _, _, h, hr, he => by
    obtain ⟨before, k, test, inside, ends, hi, ht, hs, hends, rfl⟩ := stmt_forLoop_ok h
    have hr' := hr.inFor init count
    have hround := mentions_roundEnd hends hr'
    have h₁ := init_mentions init hi hr' he
    have h₂ := stmt_mentions body hs hr' fun ends' hends' => by
      cases hends.symm.trans hends'
      exact hround
    rw [Mentions, usesAll_append, usesAll_singleton, uses, usesAll_orPass, usesAll_append, mentions,
      List.append_assoc, List.append_assoc]
    exact h₁.append ((mentions_expr ht hr').append (h₂.append hround))
  | .ret value, _, _, _, _, _, _, h, hr, _ => by
    rcases stmt_ret_ok h with ⟨-, ⟨rfl, rfl⟩ | ⟨e, result, rfl, hv, rfl⟩⟩
    · exact .nil
    · rw [Mentions, usesAll_singleton]
      exact mentions_bound ((expr_bound hv).append .nil) hr
  | .continueLoop, _, _, _, _, _, _, h, _, he => by
    obtain ⟨-, ends, hends, rfl⟩ := stmt_continueLoop_ok h
    rw [Mentions, usesAll_append]
    show Spelled _ _ (_ ++ [])
    rw [List.append_nil]
    exact he ends hends
  | .expression e, _, _, _, _, _, _, h, hr, _ => by
    obtain ⟨-, line, hl, rfl⟩ := stmt_expression_ok h
    rw [Mentions, usesAll_singleton]
    exact mentions_bound (line_bound (lineOf hl)) hr

theorem alternative_mentions {outer : Renames} : ∀ (s : Option Stmt) {loops : List String}
    {ending : List Mention} {ctx : Context} {count n : Nat} {lines : List Target.Stmt}
    {chained : Bool}, alternative ctx count s = .ok (lines, chained, n) →
    Surrounded outer loops ctx.renames → EndMentions outer ctx ending →
    Mentions outer (optionMentions loops ending s) lines
  | none, _, _, _, _, _, _, _, h, _, _ => by
    rw [alternative] at h
    cases h
    exact .nil
  | some s, _, _, _, _, _, _, _, h, hr, he => by
    rcases alternative_some_ok h with ⟨hs, -⟩ | ⟨-, body, hs, rfl⟩
    · exact stmt_mentions s hs hr he
    · have h₁ := stmt_mentions s hs hr he
      rw [Mentions, usesAll_orPass]
      exact h₁

/-- The initializer of a `for` loop stands under the names of the loop, and the end of a round in it
belongs to the loop around. -/
theorem init_mentions {outer : Renames} : ∀ (init : Option Stmt) {loops : List String}
    {ending : List Mention} {ctx : Context} {count n : Nat} {lines : List Target.Stmt},
    optional (ctx.inFor init count) (countLoop init count) init = .ok (lines, n) →
    Surrounded outer loops (ctx.inFor init count).renames → EndMentions outer ctx ending →
    Mentions outer (optionMentions loops ending init) lines
  | none, _, _, _, _, _, _, h, _, _ => by
    rw [optional] at h
    cases h
    exact .nil
  | some s, _, ending, ctx, count, _, _, h, hr, he => by
    rw [optional] at h
    rcases declares_or_bind_inFor s ctx count with ⟨type, name, initializer, rfl⟩ | hb
    · -- a declaration has no jumps, so it does not matter which round it is in
      exact mentions_declaration ending h hr
    · exact stmt_mentions s h hr (he.of_bind_eq hb rfl)

theorem group_mentions {outer : Renames} : ∀ (statements : List Stmt) {loops : List String}
    {ending : List Mention} {ctx : Context} {count n : Nat} {which : Group}
    {lines : List Target.Stmt}, group ctx count which statements = .ok (lines, n) →
    Surrounded outer loops ctx.renames → EndMentions outer ctx ending →
    Mentions outer (groupMentions loops ending which statements) lines
  | [], _, _, _, _, _, _, _, h, _, _ => by
    rw [group] at h
    cases h
    exact .nil
  | s :: rest, _, _, _, _, _, _, _, h, hr, he => by
    rw [groupMentions]
    rcases group_cons_ok h with ⟨rfl, first, k, others, hs, hg, rfl⟩ | ⟨hw, hg⟩
    · rw [if_pos (beq_self_eq_true _), Mentions, usesAll_append]
      exact (stmt_mentions s hs hr he).append (group_mentions rest hg hr he)
    · rw [if_neg (by simpa using hw)]
      exact group_mentions rest hg hr he

end

/-! ## Functions -/

/-- The plain generated name is the one outside loops that declare the name, and never the one
inside such a loop. -/
theorem bind_eq_safeName_iff {renames : Renames} (h : LoopNamed renames) (name : String) :
    bind renames name = safeName name ↔ ¬ ∃ loop ∈ renames, name ∈ loop.map Prod.fst := by
  constructor
  · rintro hb ⟨loop, hl, hn⟩
    unfold bind at hb
    cases hf : renames.findSome? (·.lookup name) with
    | none =>
      obtain ⟨entry, he, rfl⟩ := List.mem_map.1 hn
      have hnone := List.findSome?_eq_none_iff.1 hf loop hl
      rw [List.lookup_eq_none_iff] at hnone
      exact absurd (hnone entry he) (by simp)
    | some id =>
      obtain ⟨names, hm, hlook⟩ := List.exists_of_findSome?_eq_some hf
      obtain ⟨_, _, rfl, -⟩ := List.lookup_eq_some_iff.1 hlook
      obtain ⟨count, hid⟩ : ∃ count, id = Target.loopName name count := h _ hm (name, id) (by simp)
      rw [hf, Option.getD_some, hid] at hb
      exact Target.loopName_ne_safeName _ _ _ hb
  · intro hn
    have hf : renames.findSome? (·.lookup name) = none := by
      refine List.findSome?_eq_none_iff.2 fun loop hl =>
        List.lookup_eq_none_iff.2 fun entry he => ?_
      rw [bne_iff_ne]
      rintro rfl
      exact hn ⟨loop, hl, List.mem_map_of_mem he⟩
    rw [bind, hf, Option.getD_none]

/-- Outside the loops of the body that declare the name, what stands for a mention in a function is
the plain generated name exactly if no loop around the function declares the name too, or a function
is defined there. -/
def PlainUnlessLooped (f : Frame) (m : Mention) (id : String) : Prop :=
  m.name ∉ m.loops → (id = safeName m.name ↔ m.defines = true ∨ ¬ f.Looped m.name)

/-- How a definition refers to the parameters of its function. Its head has their plain generated
names. Its body has a variable for each mention of a name in the function, by the plain generated
name unless a loop is in the way. -/
structure Refers (f : Function) (d : Target.Header × List Target.Stmt) : Prop where
  header : d.1.params = f.frame.params.map fun p => safeName p.name
  body : Spelled (PlainUnlessLooped f.frame) f.frame.mentions (usesAll d.2)

theorem relates_refers : Relates Refers where
  announced _ _ _ _ _ := ⟨rfl, .nil⟩
  function name params body around ctx count n inside hr hs := by
    refine ⟨rfl, ?_⟩
    have hb : Mentions ctx.renames (mentions [] [] (.block body)) inside :=
      sequence_mentions_of hs fun hg => group_mentions body hg (fun _ _ => rfl) (.nothing rfl)
    show Spelled _ _ (usesAll (orPass inside))
    rw [usesAll_orPass]
    refine hb.imp fun m _ id hid hn => ?_
    rw [hid hn, Mention.generated]
    cases m.defines with
    | true => simp
    | false =>
      simp only [Bool.false_eq_true, if_false, false_or]
      exact bind_eq_safeName_iff hr m.name

/-- In every program, each function refers to its parameters by the names in the head of its
definition, except where a loop around the function declares a variable of that name: then the
parameter has its name in the head and another one wherever the body mentions it. -/
theorem parameters_referred {statements : List Stmt} {p : Target.Program}
    (h : program statements = .ok p) :
    List.Forall₂ Refers (programFunctions statements) p.defined :=
  program_paired relates_refers h

/-- `int main() \x7b for (int x = 0; x < 1; x++) \x7b int f(int x) \x7b return x; \x7d
cout << f(5); \x7d \x7d` -/
def parameterInLoop : List Stmt :=
  [.function "int" "main" []
    [.forLoop (some (.declaration "int" "x" (some (.number "0"))))
      (.binary .lt (.name "x") (.number "1")) (some (.stepAfter .increment (.name "x")))
      (.block [.function "int" "f" [⟨"int", "x"⟩] [.ret (some (.name "x"))],
        .print [.call (.name "f") [.number "5"]]])]]

/-- The function in the loop of `parameterInLoop`. -/
def inLoopFrame : Frame := ⟨[⟨"int", "x"⟩], [.ret (some (.name "x"))], [[("x", "__x_1")]], 1⟩

/-- The parameter of the function in the loop is `x` in the head of the definition, and something
else where the body returns it. -/
theorem parameters_referred_parameterInLoop : ∃ p, program parameterInLoop = .ok p ∧
    ∃ main f, p.defined = [main, f] ∧ f.1.params = ["x"] ∧
      usesAll f.2 ≠ [] ∧ ∀ id ∈ usesAll f.2, id ≠ "x" := by
  obtain ⟨p, h⟩ : ∃ p, program parameterInLoop = .ok p := ⟨_, rfl⟩
  obtain ⟨main, _, -, hr₁, hd⟩ := List.forall₂_cons_left_iff.1 (parameters_referred h)
  obtain ⟨f, _, hf, hr₂, rfl⟩ := List.forall₂_cons_left_iff.1 hr₁
  cases hr₂
  refine ⟨p, h, main, f, hd, hf.header, ?_⟩
  have hlooped : inLoopFrame.Looped "x" := ⟨_, .head _, by decide⟩
  have hne : ∀ id, PlainUnlessLooped inLoopFrame ⟨"x", false, []⟩ id → id ≠ "x" := by
    rintro id hid rfl
    rcases (hid nofun).1 rfl with hfalse | hnot
    · cases hfalse
    · exact hnot hlooped
  -- the one mention in the body is that of the parameter
  have hbody : Spelled (PlainUnlessLooped inLoopFrame) [⟨"x", false, []⟩] (usesAll f.2) := hf.body
  generalize usesAll f.2 = ids at hbody
  cases hbody with
  | once hid hrest =>
    cases hrest
    exact ⟨List.cons_ne_nil _ _, by simpa using hne _ hid⟩
  | twice hid hrest =>
    cases hrest
    exact ⟨List.cons_ne_nil _ _, by simpa using hne _ hid⟩

end Generate

end ConsoleCpp

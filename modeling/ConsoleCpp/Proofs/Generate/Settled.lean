/-
Lines in which every announced function is defined. Where the statements of a sequence define each
function that they announce, so do the lines generated for them, before any line that could call it:
what is announced comes first, then the definitions, then the rest. A program whose top level is the
body of a main function is the exception: there the announced functions stay outside, and the main
function has variables of the same names.
-/
import ConsoleCpp.Proofs.Generate.Cases
import ConsoleCpp.Proofs.Names.Distinct
import Mathlib

/-! ## Sequences of statements -/

namespace ConsoleCpp

/-- The names of the functions that the statements define. -/
def functionNames (statements : List Stmt) : List String :=
  statements.filterMap fun s => match s with
    | .function _ name _ _ => some name
    | _ => none

/-- Every function that the statements announce they define as well. -/
def DefinesAnnounced (statements : List Stmt) : Prop :=
  ∀ name ∈ Generate.prototypeNames statements, name ∈ functionNames statements

instance (statements : List Stmt) : Decidable (DefinesAnnounced statements) :=
  inferInstanceAs (Decidable (∀ name ∈ Generate.prototypeNames statements, _))

namespace Stmt

mutual

/-- The sequences of statements inside a statement: bodies of functions and blocks, and each
statement that is a branch or a part of a loop as a sequence of its own. -/
def sequences : Stmt → List (List Stmt)
  | .function _ _ _ body | .block body => body :: sequencesAll body
  | .ifElse _ thenStmt elseStmt => ([thenStmt] :: sequences thenStmt) ++ sequencesOption elseStmt
  | .whileLoop _ body | .doLoop _ body => [body] :: sequences body
  | .forLoop init _ _ body => sequencesOption init ++ [body] :: sequences body
  | .header _ | .usingSpace _ | .declaration _ _ _ | .prototype _ _ _ | .input _ | .print _ | .ret _
  | .breakLoop | .continueLoop | .expression _ => []

def sequencesAll : List Stmt → List (List Stmt)
  | [] => []
  | s :: rest => sequences s ++ sequencesAll rest

def sequencesOption : Option Stmt → List (List Stmt)
  | none => []
  | some s => [s] :: sequences s

end

end Stmt

end ConsoleCpp

namespace ConsoleCpp.Generate

open Target (safeName)
open Stmt (sequences sequencesAll sequencesOption)

/-! ## Settled lines -/

mutual

/-- The line defines all functions that are announced in it, and announces none itself. -/
inductive Settled : Target.Stmt → Prop where
  | straight {s : Target.Stmt} (h : isStraight s = true) : Settled s
  | ifElse {condition : Target.Expr} {thenSuite elseSuite : List Target.Stmt} {chained : Bool}
      (ht : SettledAll [] thenSuite) (he : SettledAll [] elseSuite) :
    Settled (.ifElse condition thenSuite elseSuite chained)
  | whileLoop {condition : Target.Expr} {body : List Target.Stmt} (h : SettledAll [] body) :
    Settled (.whileLoop condition body)
  | leaveUnless {condition : Target.Expr} : Settled (.leaveUnless condition)
  | ret {value : Option Target.Expr} : Settled (.ret value)
  | breakLoop : Settled .breakLoop
  | continueLoop : Settled .continueLoop
  | pass : Settled .pass

/-- The lines define all functions that are announced in them, and those of the names `pending`.
Until all are defined, there are no other lines. -/
inductive SettledAll : List String → List Target.Stmt → Prop where
  | nil : SettledAll [] []
  | announced {pending nonlocals : List String} {header : Target.Header}
      {body rest : List Target.Stmt} (h : SettledAll (header.name :: pending) rest) :
    SettledAll pending (.define header nonlocals body :: rest)
  | defined {pending nonlocals : List String} {header : Target.Header}
      {body rest : List Target.Stmt} (hb : SettledAll [] body)
      (h : SettledAll (pending.filter (· ≠ header.name)) rest) :
    SettledAll pending (.define header nonlocals body :: rest)
  | line {s : Target.Stmt} {rest : List Target.Stmt} (hs : Settled s) (h : SettledAll [] rest) :
    SettledAll [] (s :: rest)

end

namespace SettledAll

theorem one {s : Target.Stmt} (h : Settled s) : SettledAll [] [s] := .line h .nil

/-- What defines many functions defines fewer. -/
theorem mono : ∀ {lines : List Target.Stmt} {some all : List String}, SettledAll all lines →
    some ⊆ all → SettledAll some lines
  | [], _, _, h, hs => by
    cases h
    rw [List.subset_nil.1 hs]
    exact .nil
  | _ :: rest, _, _, h, hs => by
    cases h with
    | announced h => exact .announced (mono h (List.cons_subset_cons _ hs))
    | defined hb h => exact .defined hb (mono h (List.filter_subset _ hs))
    | line hl h =>
      rw [List.subset_nil.1 hs]
      exact .line hl h

theorem append {ys : List Target.Stmt} : ∀ {xs : List Target.Stmt} {pending : List String},
    SettledAll pending xs → SettledAll [] ys → SettledAll pending (xs ++ ys)
  | [], _, h, hy => by
    cases h
    exact hy
  | _ :: _, _, h, hy => by
    cases h with
    | announced h => exact .announced (append h hy)
    | defined hb h => exact .defined hb (append h hy)
    | line hs h => exact .line hs (append h hy)

theorem straight : ∀ {lines : List Target.Stmt}, lines.all isStraight = true →
    SettledAll [] lines
  | [], _ => .nil
  | s :: rest, h => by
    rw [List.all_cons, Bool.and_eq_true] at h
    exact .line (.straight h.1) (straight h.2)

theorem orPass {lines : List Target.Stmt} (h : SettledAll [] lines) :
    SettledAll [] (Generate.orPass lines) := by
  unfold Generate.orPass
  split
  · exact .one .pass
  · exact h

theorem of_define {header : Target.Header} {nonlocals : List String} {body : List Target.Stmt}
    (h : SettledAll [] [.define header nonlocals body]) : SettledAll [] body := by
  cases h with
  | announced h => cases h
  | defined hb h => exact hb
  | line hs h => cases hs with | straight hs => cases hs

end SettledAll

theorem roundEnd_settled {renames : Renames} {ending : RoundEnd} {ends : List Target.Stmt}
    (h : roundEndStatements renames ending = .ok ends) : SettledAll [] ends := by
  cases ending with
  | nothing =>
    cases h
    exact .nil
  | leaveUnless condition =>
    cases h
    exact .one .leaveUnless
  | update e =>
    obtain ⟨line, hl, h⟩ := bind_ok h
    cases h
    exact .one (.straight (expressionStatement_straight hl))

/-! ## Sequences -/

theorem prototypes_settled {after : List Target.Stmt} : ∀ (block : List Stmt) {ctx : Context}
    {count n : Nat} {lines : List Target.Stmt} {pending : List String},
    group ctx count .prototypes block = .ok (lines, n) →
    SettledAll ((prototypeNames block).map safeName ++ pending) after →
    SettledAll pending (lines ++ after)
  | [], _, _, _, _, _, h, ha => by
    cases h
    exact ha
  | s :: rest, _, _, _, _, pending, h, ha => by
    rcases group_cons_ok h with ⟨hw, first, k, others, hs, ho, rfl⟩ | ⟨hw, h⟩
    · cases s with
      | prototype returnType name params =>
        rw [stmt] at hs
        cases hs
        refine .announced (prototypes_settled rest ho (ha.mono ?_))
        -- the two lists of names differ in their order only
        show _ ++ safeName name :: pending ⊆ safeName name :: _ ++ pending
        intro other
        simp only [List.mem_append, List.mem_cons]
        tauto
      | _ => cases hw
    · have he : prototypeNames (s :: rest) = prototypeNames rest := by
        cases s with
        | prototype => exact absurd rfl hw
        | _ => rfl
      rw [he] at ha
      exact prototypes_settled rest h ha

/-- The lines of a sequence are settled if those of its functions and of its other statements
are. -/
theorem sequence_settled_of {block : List Stmt} {ctx : Context} {count n : Nat}
    {lines : List Target.Stmt} (hd : DefinesAnnounced block)
    (hf : ∀ {k m : Nat} {fs after : List Target.Stmt} {pending : List String},
      group ctx k .functions block = .ok (fs, m) →
      pending ⊆ (functionNames block).map safeName → SettledAll [] after →
      SettledAll pending (fs ++ after))
    (ho : ∀ {k m : Nat} {others : List Target.Stmt},
      group ctx k .others block = .ok (others, m) → SettledAll [] others)
    (h : sequence ctx count block = .ok (lines, n)) : SettledAll [] lines := by
  obtain ⟨prototypes, n₁, functions, n₂, others, h₁, h₂, h₃, rfl⟩ := arranged_ok h
  rw [List.append_assoc]
  refine prototypes_settled block h₁ (hf h₂ ?_ (ho h₃))
  rw [List.append_nil]
  exact List.map_subset _ hd

/-! ## Statements -/

theorem sequencesAll_cons {s : Stmt} {rest : List Stmt}
    (h : ∀ block ∈ sequencesAll (s :: rest), DefinesAnnounced block) :
    (∀ block ∈ sequences s, DefinesAnnounced block) ∧
      ∀ block ∈ sequencesAll rest, DefinesAnnounced block := by
  rw [sequencesAll] at h
  exact List.forall_mem_append.1 h

/-- A prototype that is a statement of its own announces a function that is not defined there. -/
theorem not_definesAnnounced_prototype {returnType name : String} {params : List Parameter} :
    ¬ DefinesAnnounced [.prototype returnType name params] :=
  fun h => nomatch h name List.mem_cons_self

/-- A statement that is a branch or the body of a loop is a sequence of its own. -/
theorem branch_settled {s : Stmt} {lines : List Target.Stmt}
    (h : groupOf s ≠ .prototypes → (∀ block ∈ sequences s, DefinesAnnounced block) →
      SettledAll [] lines)
    (hd : ∀ block ∈ [s] :: sequences s, DefinesAnnounced block) : SettledAll [] lines := by
  obtain ⟨hs, hd⟩ := List.forall_mem_cons.1 hd
  refine h (fun hg => ?_) hd
  cases s with
  | prototype => exact not_definesAnnounced_prototype hs
  | _ => cases hg

mutual

/-- The lines of a statement that is no prototype are settled, if the sequences inside it define
what they announce. -/
theorem stmt_settled : ∀ (s : Stmt) {ctx : Context} {count n : Nat} {lines : List Target.Stmt},
    stmt ctx count s = .ok (lines, n) → groupOf s ≠ .prototypes →
    (∀ block ∈ sequences s, DefinesAnnounced block) → SettledAll [] lines
  | .header _, _, _, _, _, h, _, _ | .usingSpace _, _, _, _, _, h, _, _
  | .declaration _ _ _, _, _, _, _, h, _, _ | .input _, _, _, _, _, h, _, _
  | .print _, _, _, _, _, h, _, _ | .expression _, _, _, _, _, h, _, _ =>
    .straight (simple_straight rfl h)
  | .prototype _ _ _, _, _, _, _, _, hg, _ => absurd rfl hg
  | .function _ name params body, _, _, _, _, h, _, hd => by
    obtain ⟨inside, hs, rfl⟩ := stmt_function_ok h
    rw [sequences] at hd
    obtain ⟨hb, hd⟩ := List.forall_mem_cons.1 hd
    -- the body is a sequence of its own, and outside it nothing is left to be defined
    refine .defined (SettledAll.orPass ?_) .nil
    exact sequence_settled_of hb (fun h => functions_settled body h hd)
      (fun h => others_settled body h hd) hs
  | .block body, _, _, _, _, h, _, hd => by
    rw [stmt_block_eq] at h
    rw [sequences] at hd
    obtain ⟨hb, hd⟩ := List.forall_mem_cons.1 hd
    exact sequence_settled_of hb (fun h => functions_settled body h hd)
      (fun h => others_settled body h hd) h
  | .ifElse _ thenStmt elseStmt, _, _, _, _, h, _, hd => by
    obtain ⟨test, first, k, second, chained, -, hf, ha, rfl⟩ := stmt_ifElse_ok h
    rw [sequences] at hd
    obtain ⟨ht, he⟩ := List.forall_mem_append.1 hd
    have hthen := branch_settled (stmt_settled thenStmt hf) ht
    exact .one (.ifElse hthen.orPass (alternative_settled elseStmt ha he))
  | .whileLoop _ body, _, _, _, _, h, _, hd => by
    obtain ⟨test, inside, -, hb, rfl⟩ := stmt_whileLoop_ok h
    rw [sequences] at hd
    exact .one (.whileLoop (branch_settled (stmt_settled body hb) hd).orPass)
  | .doLoop _ body, _, _, _, _, h, _, hd => by
    obtain ⟨test, inside, -, hb, rfl⟩ := stmt_doLoop_ok h
    rw [sequences] at hd
    have hinside := branch_settled (stmt_settled body hb) hd
    exact .one (.whileLoop (hinside.append (.one .leaveUnless)).orPass)
  | .forLoop init _ _ body, _, _, _, _, h, _, hd => by
    obtain ⟨before, k, test, inside, ends, hi, -, hb, he, rfl⟩ := stmt_forLoop_ok h
    rw [sequences] at hd
    obtain ⟨hdi, hdb⟩ := List.forall_mem_append.1 hd
    have hloop := (branch_settled (stmt_settled body hb) hdb).append (roundEnd_settled he)
    exact (optional_settled init hi hdi).append (.one (.whileLoop hloop.orPass))
  | .ret _, _, _, _, _, h, _, _ => by
    rcases stmt_ret_ok h with ⟨-, ⟨-, rfl⟩ | ⟨e, result, -, -, rfl⟩⟩ <;> exact .one .ret
  | .breakLoop, _, _, _, _, h, _, _ => by
    rw [stmt] at h
    cases h
    exact .one .breakLoop
  | .continueLoop, _, _, _, _, h, _, _ => by
    obtain ⟨-, ends, he, rfl⟩ := stmt_continueLoop_ok h
    exact (roundEnd_settled he).append (.one .continueLoop)

theorem alternative_settled : ∀ (s : Option Stmt) {ctx : Context} {count n : Nat}
    {lines : List Target.Stmt} {chained : Bool},
    alternative ctx count s = .ok (lines, chained, n) →
    (∀ block ∈ sequencesOption s, DefinesAnnounced block) → SettledAll [] lines
  | none, _, _, _, _, _, h, _ => by
    rw [alternative] at h
    cases h
    exact .nil
  | some s, _, _, _, _, _, h, hd => by
    rw [sequencesOption] at hd
    rcases alternative_some_ok h with ⟨hs, -⟩ | ⟨-, body, hs, rfl⟩
    · exact branch_settled (stmt_settled s hs) hd
    · exact (branch_settled (stmt_settled s hs) hd).orPass

theorem optional_settled : ∀ (s : Option Stmt) {ctx : Context} {count n : Nat}
    {lines : List Target.Stmt}, optional ctx count s = .ok (lines, n) →
    (∀ block ∈ sequencesOption s, DefinesAnnounced block) → SettledAll [] lines
  | none, _, _, _, _, h, _ => by
    rw [optional] at h
    cases h
    exact .nil
  | some s, _, _, _, _, h, hd => by
    rw [optional] at h
    rw [sequencesOption] at hd
    exact branch_settled (stmt_settled s h) hd

/-- The definitions of a sequence define its functions. -/
theorem functions_settled : ∀ (block : List Stmt) {ctx : Context} {count n : Nat}
    {lines after : List Target.Stmt} {pending : List String},
    group ctx count .functions block = .ok (lines, n) →
    (∀ inner ∈ sequencesAll block, DefinesAnnounced inner) →
    pending ⊆ (functionNames block).map safeName → SettledAll [] after →
    SettledAll pending (lines ++ after)
  | [], _, _, _, _, _, pending, h, _, hp, ha => by
    rw [group] at h
    cases h
    rw [List.subset_nil.1 hp]
    exact ha
  | s :: rest, _, _, _, _, _, pending, h, hd, hp, ha => by
    obtain ⟨hds, hdr⟩ := sequencesAll_cons hd
    rcases group_cons_ok h with ⟨hw, first, k, others, hs, ho, rfl⟩ | ⟨hw, h⟩
    · have hfirst := stmt_settled s hs (by rw [hw]; nofun) hds
      cases s with
      | function returnType name params body =>
        obtain ⟨inside, -, rfl⟩ := stmt_function_ok hs
        refine .defined hfirst.of_define (functions_settled rest ho hdr (fun other hother => ?_) ha)
        obtain ⟨hm, hne⟩ := List.mem_filter.1 hother
        exact (List.mem_cons.1 (hp hm)).resolve_left (of_decide_eq_true hne)
      | _ => cases hw
    · have he : functionNames (s :: rest) = functionNames rest := by
        cases s with
        | function => exact absurd rfl hw
        | _ => rfl
      rw [he] at hp
      exact functions_settled rest h hdr hp ha

theorem others_settled : ∀ (block : List Stmt) {ctx : Context} {count n : Nat}
    {lines : List Target.Stmt}, group ctx count .others block = .ok (lines, n) →
    (∀ inner ∈ sequencesAll block, DefinesAnnounced inner) → SettledAll [] lines
  | [], _, _, _, _, h, _ => by
    rw [group] at h
    cases h
    exact .nil
  | s :: rest, _, _, _, _, h, hd => by
    obtain ⟨hds, hdr⟩ := sequencesAll_cons hd
    rcases group_cons_ok h with ⟨hw, first, k, others, hs, ho, rfl⟩ | ⟨-, h⟩
    · exact (stmt_settled s hs (by rw [hw]; nofun) hds).append (others_settled rest ho hdr)
    · exact others_settled rest h hdr

end

theorem sequence_settled {block : List Stmt} {ctx : Context} {count n : Nat}
    {lines : List Target.Stmt} (h : sequence ctx count block = .ok (lines, n))
    (hd : ∀ inner ∈ block :: sequencesAll block, DefinesAnnounced inner) : SettledAll [] lines := by
  obtain ⟨hb, hd⟩ := List.forall_mem_cons.1 hd
  exact sequence_settled_of hb (fun h => functions_settled block h hd)
    (fun h => others_settled block h hd) h

/-! ## Programs -/

/-- Definitions beside a main function that hides what they announce: each has one of the names
`hidden`, or it is settled inside and has variables of all these names. -/
inductive Hides (hidden : List String) : Target.Stmt → Prop where
  | named {header : Target.Header} {nonlocals : List String} {body : List Target.Stmt}
      (h : header.name ∈ hidden) : Hides hidden (.define header nonlocals body)
  | inside {header : Target.Header} {nonlocals : List String} {body : List Target.Stmt}
      (hb : SettledAll [] body)
      (h : ∀ id ∈ hidden, id ∈ Target.localNames header.params nonlocals body) :
    Hides hidden (.define header nonlocals body)

/-- A program whose functions are all defined before a line can call them, or hidden from the lines
that could. -/
inductive Implemented (p : Target.Program) : Prop where
  | settled (h : SettledAll [] (p.stubs ++ p.body))
  | hidden {hidden : List String} (hm : "main" ∉ hidden)
      (h : ∀ line ∈ p.stubs ++ p.body, Hides hidden line)

theorem mem_functionNames {statements : List Stmt} {name : String} :
    name ∈ functionNames statements ↔
      ∃ returnType params body, .function returnType name params body ∈ statements := by
  unfold functionNames
  rw [List.mem_filterMap]
  constructor
  · rintro ⟨s, hs, hn⟩
    cases s with
    | function returnType id params body =>
      cases hn
      exact ⟨returnType, params, body, hs⟩
    | _ => cases hn
  · rintro ⟨returnType, params, body, hs⟩
    exact ⟨_, hs, rfl⟩

theorem functionNames_withoutPrototypes (statements : List Stmt) :
    functionNames (withoutPrototypes statements) = functionNames statements := by
  induction statements with
  | nil => rfl
  | cons s rest ih =>
    cases s with
    | function returnType name params body => exact congrArg (name :: ·) ih
    | _ => exact ih

theorem function_occurs {statements : List Stmt} {name : String} (count : Nat)
    (h : name ∈ functionNames statements) :
    ⟨name, .defined, []⟩ ∈ Stmt.occurrencesAll [] count statements := by
  obtain ⟨returnType, params, body, hs⟩ := mem_functionNames.1 h
  exact mem_occurrencesAll.2 (.inl (.inr ⟨_, hs, rfl, by simp [Stmt.occurrences]⟩))

/-- No other name than that of the main function is generated as it. -/
theorem eq_main_of_safeName {name : String} (h : safeName name = "main") : name = "main" := by
  unfold safeName at h
  split at h
  · have hlast : (name ++ "_").toList.getLast? = some '_' := by simp [String.toList_append]
    rw [h] at hlast
    exact absurd hlast (by decide)
  · exact h

/-- The names of the functions that are announced at the top of a program. -/
def announcedNames (statements : List Stmt) : List String :=
  (prototypeNames statements).map safeName

theorem main_not_announced {statements : List Stmt} (hm : needsImplicitMain statements = true)
    (hd : DefinesAnnounced statements) : "main" ∉ announcedNames statements := by
  intro h
  obtain ⟨name, hname, he⟩ := List.mem_map.1 h
  obtain rfl := eq_main_of_safeName he
  obtain ⟨returnType, params, body, hs⟩ := mem_functionNames.1 (hd _ hname)
  unfold needsImplicitMain at hm
  rw [Bool.not_eq_true', List.any_eq_false] at hm
  exact hm _ hs rfl

theorem stubs_named {statements : List Stmt} {line : Target.Stmt} (h : line ∈ stubs statements) :
    Hides (announcedNames statements) line := by
  obtain ⟨s, hs, hl⟩ := List.mem_filterMap.1 h
  cases s with
  | prototype returnType name params =>
    cases hl
    exact .named (List.mem_map.2 ⟨name, List.mem_filterMap.2 ⟨_, hs, rfl⟩, rfl⟩)
  | _ => cases hl

theorem sequencesAll_filter (keep : Stmt → Bool) : ∀ statements : List Stmt,
    sequencesAll (statements.filter keep) ⊆ sequencesAll statements
  | [] => List.Subset.refl _
  | s :: rest => by
    have ih := sequencesAll_filter keep rest
    rw [List.filter_cons, sequencesAll]
    split
    · rw [sequencesAll]
      have hs := List.subset_append_left (sequences s) (sequencesAll rest)
      exact List.append_subset.2 ⟨hs, List.subset_append_of_subset_right _ ih⟩
    · exact List.subset_append_of_subset_right _ ih

/-- The body of the main function that a program is given defines all that is announced at the top,
and takes none of it from outside. -/
theorem implicitMain_hides {statements : List Stmt} {ctx : Context} {inside : List Target.Stmt}
    {n : Nat} (hd : ∀ block ∈ statements :: sequencesAll statements, DefinesAnnounced block)
    (hr : ctx.renames = []) (he : ctx.roundEnd = .nothing)
    (h : sequence ctx 0 (withoutPrototypes statements) = .ok (inside, n)) :
    Hides (announcedNames statements) (.define (header "main" [])
      ((nonlocals [prototypeNames statements] [] (withoutPrototypes statements)).map (bind []))
      (orPass inside)) := by
  obtain ⟨htop, hd⟩ := List.forall_mem_cons.1 hd
  have hdefined : ∀ name ∈ prototypeNames statements,
      ⟨name, .defined, []⟩ ∈ Stmt.occurrencesAll [] 0 (withoutPrototypes statements) := by
    intro name hn
    refine function_occurs 0 ?_
    rw [functionNames_withoutPrototypes]
    exact htop name hn
  refine .inside (SettledAll.orPass (sequence_settled h ?_)) fun id hid => ?_
  · refine List.forall_mem_cons.2 ⟨?_, fun block hb => hd block (sequencesAll_filter _ _ hb)⟩
    intro name hn
    obtain ⟨s, hs, hname⟩ := List.mem_filterMap.1 hn
    cases s with
    | prototype => simp [withoutPrototypes, groupOf] at hs
    | _ => cases hname
  · obtain ⟨name, hname, rfl⟩ := List.mem_map.1 hid
    refine mem_localNames.2 (.inr ⟨?_, fun hout => ?_⟩)
    · rw [bindingsAll_orPass, sequence_bindings h he, hr]
      exact List.mem_map.2 ⟨_, hdefined name hname, rfl⟩
    · -- a name from outside would be announced there and not declared inside
      obtain ⟨other, hother, -⟩ := List.mem_map.1 hout
      obtain ⟨-, hdeclared, scope, hs, hin⟩ := mem_nonlocals.1 hother
      rw [List.mem_singleton.1 hs] at hin
      refine hdeclared (List.mem_append_right _ ?_)
      refine (mem_declaredNames _ [] 0 other).2 ⟨_, hdefined other hin, fun hr => ?_, rfl⟩
      cases hr

/-- The functions of a program are implemented if all sequences of statements in it define what they
announce. -/
theorem program_implemented {statements : List Stmt} {p : Target.Program}
    (h : program statements = .ok p)
    (hd : ∀ block ∈ statements :: sequencesAll statements, DefinesAnnounced block) :
    Implemented p := by
  by_cases hm : needsImplicitMain statements = true
  · unfold program at h
    rw [if_pos hm] at h
    obtain ⟨⟨body, n⟩, hb, h⟩ := bind_ok h
    cases h
    obtain ⟨inside, hi, rfl⟩ := function_ok hb
    refine .hidden (main_not_announced hm (hd _ List.mem_cons_self)) ?_
    rw [List.forall_mem_append]
    refine ⟨fun line hl => stubs_named hl, fun line hl => ?_⟩
    rw [List.mem_singleton.1 hl]
    exact implicitMain_hides hd rfl rfl hi
  · obtain ⟨n, hs⟩ := program_ok h
    rw [topStatements, if_neg hm] at hs
    exact .settled (sequence_settled hs hd)

end ConsoleCpp.Generate

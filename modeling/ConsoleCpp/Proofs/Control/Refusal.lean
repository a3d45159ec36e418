/-
Which generated lines of a statement are refused, and what that makes of their run. A statement
without functions can be refused for two reasons only: the text of one of its lines is no line of the
target language, or its loops are nested deeper than the target language takes, which the generator
does not check. Where neither is the case its lines run like the structured reading of the statement;
otherwise nothing runs at all.
-/
import ConsoleCpp.Proofs.Control.Translation

namespace ConsoleCpp.Structured

open Machine Generate
open Target (Located)
open Target.Stmt (parameterFault parameterFaultAll nonlocalFault nonlocalFaultAll jumpFault
  jumpFaultAll parameterFaultAll_nil parameterFaultAll_cons nonlocalFaultAll_nil
  nonlocalFaultAll_cons jumpFaultAll_nil jumpFaultAll_cons suiteItemLines maxLoops)

/-! ## Faults of names and of jumps -/

/-- A check that goes through lines one by one goes through one list after another. -/
theorem faults_append (check : Nat → Target.Stmt → Option Located)
    (faults : Nat → List Target.Stmt → Option Located) (hn : ∀ line, faults line [] = none)
    (hc : ∀ line s rest, faults line (s :: rest) =
      (check line s).or (faults (line + s.lineCount) rest)) :
    ∀ (first second : List Target.Stmt) (line : Nat), faults line (first ++ second) =
      (faults line first).or (faults (line + (suiteItemLines first).length) second)
  | [], _, _ => by simp [hn, suiteItemLines]
  | s :: rest, second, line => by
    rw [List.cons_append, hc, hc, faults_append check faults hn hc rest second, Option.or_assoc, suiteItemLines,
      List.length_append, ← Nat.add_assoc, Target.Stmt.lineCount]

/-- Nothing is wrong with the names in generated lines, and with `loops` loops around them their
jumps and loops are in order exactly when `depth` further loops fit into each other. -/
structure Nested (loops depth : Nat) (lines : List Target.Stmt) : Prop where
  params : ∀ line, parameterFaultAll line lines = none
  outer : ∀ bound line, nonlocalFaultAll bound line lines = none
  jumps : ∀ line, jumpFaultAll loops line lines = none ↔ depth = 0 ∨ loops + depth ≤ maxLoops

namespace Nested

variable {loops depth depth' : Nat}

theorem append {first second : List Target.Stmt} (h₁ : Nested loops depth first)
    (h₂ : Nested loops depth' second) : Nested loops (max depth depth') (first ++ second) where
  params line := by
    rw [faults_append parameterFault parameterFaultAll parameterFaultAll_nil parameterFaultAll_cons,
      h₁.params, h₂.params]
    rfl
  outer bound line := by
    rw [faults_append (nonlocalFault bound) (nonlocalFaultAll bound) (nonlocalFaultAll_nil bound)
      (nonlocalFaultAll_cons bound), h₁.outer, h₂.outer]
    rfl
  jumps line := by
    rw [faults_append (jumpFault loops) (jumpFaultAll loops) (jumpFaultAll_nil loops)
      (jumpFaultAll_cons loops), Option.or_eq_none_iff, h₁.jumps, h₂.jumps]
    omega

theorem nil : Nested loops 0 [] where
  params line := parameterFaultAll_nil line
  outer bound line := nonlocalFaultAll_nil bound line
  jumps line := by simp [jumpFaultAll_nil]

/-- A line on its own that is in order. -/
theorem single {s : Target.Stmt} (hp : ∀ line, parameterFault line s = none)
    (ho : ∀ bound line, nonlocalFault bound line s = none)
    (hj : ∀ line, jumpFault loops line s = none) : Nested loops 0 [s] where
  params line := by rw [parameterFaultAll_cons, parameterFaultAll_nil, hp]; rfl
  outer bound line := by rw [nonlocalFaultAll_cons, nonlocalFaultAll_nil, ho]; rfl
  jumps line := by simp [jumpFaultAll_cons, jumpFaultAll_nil, hj]

theorem straight {s : Target.Stmt} (hs : isStraight s = true) : Nested loops 0 [s] := by
  cases s with
  | assign _ _ | augment _ _ _ | eval _ | print _ =>
    exact single (fun _ => rfl) (fun _ _ => rfl) (fun _ => rfl)
  | _ => cases hs

theorem straights : ∀ {lines : List Target.Stmt}, lines.all isStraight = true →
    Nested loops 0 lines
  | [], _ => nil
  | s :: rest, h => by
    rw [List.all_cons, Bool.and_eq_true] at h
    exact (straight h.1).append (straights h.2)

theorem ret (value : Option Target.Expr) : Nested loops 0 [.ret value] :=
  single (fun _ => rfl) (fun _ _ => rfl) (fun _ => rfl)

theorem pass : Nested loops 0 [.pass] :=
  single (fun _ => rfl) (fun _ _ => rfl) (fun _ => rfl)

/-- A jump in a loop is in order. -/
theorem jump {s : Target.Stmt} (hs : s = .breakLoop ∨ s = .continueLoop ∨ ∃ test, s = .leaveUnless test)
    (hl : loops ≠ 0) : Nested loops 0 [s] := by
  have hl' : ¬ (loops == 0) = true := by simpa using hl
  rcases hs with rfl | rfl | ⟨test, rfl⟩ <;>
    exact single (fun _ => rfl) (fun _ _ => rfl) (fun _ => if_neg hl')

theorem orPass {lines : List Target.Stmt} (h : Nested loops depth lines) :
    Nested loops depth (Generate.orPass lines) := by
  unfold Generate.orPass
  split
  · rename_i he
    rw [List.isEmpty_iff] at he
    subst he
    -- no lines say of `depth` only what `pass` says of it
    have hp : Nested loops 0 [.pass] := pass
    refine ⟨hp.params, hp.outer, fun line => ?_⟩
    rw [← h.jumps line, hp.jumps, nil.jumps]
  · exact h

theorem whileLoop (test : Target.Expr) {body : List Target.Stmt}
    (h : Nested (loops + 1) depth body) : Nested loops (depth + 1) [.whileLoop test body] where
  params line := by
    show (parameterFaultAll (line + 1) body).or none = none
    rw [h.params]
    rfl
  outer bound line := by
    show (nonlocalFaultAll bound (line + 1) body).or none = none
    rw [h.outer]
    rfl
  jumps line := by
    show (if maxLoops ≤ loops then some _ else jumpFaultAll (loops + 1) (line + 1) body).or none =
      none ↔ _
    -- the check stops at the loop that is one too many, before it looks inside
    by_cases hm : maxLoops ≤ loops
    · rw [if_pos hm]
      constructor
      · intro h; cases h
      · intro h; omega
    · rw [if_neg hm, Option.or_none, h.jumps]
      omega

theorem ifElse {test : Target.Expr} {first second : List Target.Stmt} {chained : Bool}
    (h₁ : Nested loops depth first) (h₂ : Nested loops depth' second) :
    Nested loops (max depth depth') [.ifElse test first second chained] where
  params line := by
    show ((parameterFaultAll (line + 1) first).or (parameterFaultAll _ second)).or none = none
    rw [h₁.params, h₂.params]
    rfl
  outer bound line := by
    show ((nonlocalFaultAll bound (line + 1) first).or (nonlocalFaultAll bound _ second)).or none =
      none
    rw [h₁.outer, h₂.outer]
    rfl
  jumps line := by
    show ((jumpFaultAll loops (line + 1) first).or (jumpFaultAll loops _ second)).or none = none ↔ _
    rw [Option.or_none, Option.or_eq_none_iff, h₁.jumps, h₂.jumps]
    omega

theorem roundEnd {renames : Renames} {ending : RoundEnd} {ends : List Target.Stmt}
    (h : roundEndStatements renames ending = .ok ends) (hl : loops ≠ 0) : Nested loops 0 ends := by
  cases ending with
  | nothing => cases h; exact nil
  | update e =>
    obtain ⟨line, hs, h⟩ := bind_ok h
    cases h
    exact straight (expressionStatement_straight hs)
  | leaveUnless test => cases h; exact jump (.inr (.inr ⟨test, rfl⟩)) hl

end Nested

mutual

/-- The lines of a statement without functions, whose jumps stay in its own loops or in one of the
`loops` loops around it. -/
theorem nested_stmt : ∀ (s : Stmt) {ctx : Context} {count n loops : Nat} {lines : List Target.Stmt},
    s.isPlain = true → (loops = 0 → s.isClosed = true) → stmt ctx count s = .ok (lines, n) →
    Nested loops s.loopDepth lines
  | .header _, _, _, _, _, _, _, _, h | .usingSpace _, _, _, _, _, _, _, _, h
  | .declaration _ _ _, _, _, _, _, _, _, _, h | .input _, _, _, _, _, _, _, _, h
  | .print _, _, _, _, _, _, _, _, h | .expression _, _, _, _, _, _, _, _, h =>
    Nested.straights (simple_straight rfl h)
  | .prototype _ _ _, _, _, _, _, _, hp, _, _ => by cases hp
  | .function _ _ _ _, _, _, _, _, _, hp, _, _ => by cases hp
  | .ret _, _, _, _, _, _, _, _, h => by
    rcases stmt_ret_ok h with ⟨-, ⟨-, rfl⟩ | ⟨e, result, -, -, rfl⟩⟩
    · exact Nested.ret none
    · exact Nested.ret (some result)
  | .breakLoop, _, _, _, _, _, _, hc, h => by
    rw [stmt] at h
    cases h
    exact Nested.jump (.inl rfl) fun h₀ => by cases hc h₀
  | .continueLoop, _, _, _, loops, _, _, hc, h => by
    have hl : loops ≠ 0 := fun h₀ => by cases hc h₀
    obtain ⟨-, ends, he, rfl⟩ := stmt_continueLoop_ok h
    exact (Nested.roundEnd he hl).append (Nested.jump (.inr (.inl rfl)) hl)
  | .block statements, _, _, _, _, _, hp, hc, h => by
    rw [stmt_block_eq] at h
    exact nested_group statements hp hc (sequence_plain hp h)
  | .ifElse _ thenStmt elseStmt, _, _, _, _, _, hp, hc, h => by
    rw [Stmt.isPlain, Bool.and_eq_true] at hp
    rw [Stmt.isClosed, Bool.and_eq_true] at hc
    obtain ⟨test, first, k, second, chained, -, hf, ha, rfl⟩ := stmt_ifElse_ok h
    have h₁ := nested_stmt thenStmt hp.1 (fun h₀ => (hc h₀).1) hf
    have h₂ := nested_alternative elseStmt hp.2 (fun h₀ => (hc h₀).2) ha
    exact h₁.orPass.ifElse h₂
  | .whileLoop _ body, _, _, _, loops, _, hp, _, h => by
    obtain ⟨test, inside, -, hi, rfl⟩ := stmt_whileLoop_ok h
    -- in a loop, jumps need no loop of their own
    have hb : Nested (loops + 1) body.loopDepth inside := nested_stmt body hp (fun h₀ => by omega) hi
    exact hb.orPass.whileLoop test
  | .doLoop _ body, _, _, _, loops, _, hp, _, h => by
    obtain ⟨test, inside, -, hi, rfl⟩ := stmt_doLoop_ok h
    have hb : Nested (loops + 1) body.loopDepth inside := nested_stmt body hp (fun h₀ => by omega) hi
    have he : Nested (loops + 1) 0 [.leaveUnless test] :=
      Nested.jump (.inr (.inr ⟨test, rfl⟩)) (by omega)
    have hw := (hb.append he).orPass.whileLoop (.bool true)
    simpa [Stmt.loopDepth] using hw
  | .forLoop init _ _ body, _, _, _, loops, _, hp, hc, h => by
    rw [Stmt.isPlain, Bool.and_eq_true] at hp
    obtain ⟨before, k, test, inside, ends, hi, -, hb, he, rfl⟩ := stmt_forLoop_ok h
    have h₁ := nested_optional init hp.1 hc hi
    have h₂ : Nested (loops + 1) body.loopDepth inside :=
      nested_stmt body hp.2 (fun h₀ => by omega) hb
    have hw := (h₂.append (Nested.roundEnd he (by omega))).orPass.whileLoop test
    simpa [Stmt.loopDepth] using h₁.append hw

theorem nested_alternative : ∀ (s : Option Stmt) {ctx : Context} {count n loops : Nat}
    {lines : List Target.Stmt} {chained : Bool}, Stmt.isPlainOption s = true →
    (loops = 0 → Stmt.isClosedOption s = true) →
    alternative ctx count s = .ok (lines, chained, n) → Nested loops (Stmt.loopDepthOption s) lines
  | none, _, _, _, _, _, _, _, _, h => by
    rw [alternative] at h
    cases h
    exact Nested.nil
  | some s, _, _, _, _, _, _, hp, hc, h => by
    rcases alternative_some_ok h with ⟨hs, -⟩ | ⟨-, body, hs, rfl⟩
    · exact nested_stmt s hp hc hs
    · exact (nested_stmt s hp hc hs).orPass

theorem nested_optional : ∀ (s : Option Stmt) {ctx : Context} {count n loops : Nat}
    {lines : List Target.Stmt}, Stmt.isPlainOption s = true →
    (loops = 0 → Stmt.isClosedOption s = true) →
    Generate.optional ctx count s = .ok (lines, n) → Nested loops (Stmt.loopDepthOption s) lines
  | none, _, _, _, _, _, _, _, h => by
    rw [Generate.optional] at h
    cases h
    exact Nested.nil
  | some s, _, _, _, _, _, hp, hc, h => by
    rw [Generate.optional] at h
    exact nested_stmt s hp hc h

theorem nested_group : ∀ (statements : List Stmt) {ctx : Context} {count n loops : Nat}
    {lines : List Target.Stmt}, Stmt.arePlain statements = true →
    (loops = 0 → Stmt.areClosed statements = true) →
    group ctx count .others statements = .ok (lines, n) →
    Nested loops (Stmt.loopDepthAll statements) lines
  | [], _, _, _, _, _, _, _, h => by
    rw [group] at h
    cases h
    exact Nested.nil
  | s :: rest, _, _, _, _, _, hp, hc, h => by
    rw [Stmt.arePlain, Bool.and_eq_true] at hp
    rw [Stmt.areClosed, Bool.and_eq_true] at hc
    rcases group_cons_ok h with ⟨-, first, k, others, hs, hr, rfl⟩ | ⟨hg, -⟩
    · have h₁ := nested_stmt s hp.1 (fun h₀ => (hc h₀).1) hs
      have h₂ := nested_group rest hp.2 (fun h₀ => (hc h₀).2) hr
      exact h₁.append h₂
    · exact absurd (plain_group hp.1) hg

end

/-! ## Refusal -/

theorem firstIn_eq_none_iff (check : Target.Item → Option Target.Refusal) :
    ∀ (lines : List (List Target.Item)) (line : Nat),
    Target.firstIn check line lines = none ↔ ∀ items ∈ lines, ∀ item ∈ items, check item = none
  | [], _ => by simp [Target.firstIn]
  | items :: rest, line => by
    rw [Target.firstIn, List.forall_mem_cons, ← firstIn_eq_none_iff check rest (line + 1)]
    cases h : items.findSome? check with
    | some refusal =>
      rw [List.findSome?_eq_some_iff] at h
      obtain ⟨before, item, after, rfl, hi, -⟩ := h
      constructor
      · intro hf; cases hf
      · intro hf
        have := hf.1 item (by simp)
        rw [hi] at this
        cases this
    | none =>
      rw [List.findSome?_eq_none_iff] at h
      simpa using fun _ => h

/-- A statement without functions and with jumps in its own loops is refused exactly when the text
of a line is, or when its loops are nested too deep. -/
theorem refusal_eq_none_iff {ctx : Context} {count n : Nat} {s : Stmt} {lines : List Target.Stmt}
    (hp : s.isPlain = true) (hc : s.isClosed = true) (h : stmt ctx count s = .ok (lines, n)) :
    (⟨[], lines⟩ : Target.Program).refusal? = none ↔
      linesTaken lines = true ∧ s.loopDepth ≤ maxLoops := by
  have hn : Nested 0 s.loopDepth lines := nested_stmt s hp (fun _ => hc) h
  unfold Target.Program.refusal? linesTaken
  simp only [Option.or_eq_none_iff, firstIn_eq_none_iff, List.nil_append, hn.params, hn.outer,
    hn.jumps, List.all_eq_true, Bool.and_eq_true, Option.isNone_iff_eq_none]
  have hm : 0 ≤ maxLoops := by decide
  constructor
  · rintro ⟨h₁, h₂, h₃, -, -, h₄⟩
    exact ⟨fun items hi item hm => ⟨⟨h₁ items hi item hm, h₂ items hi item hm⟩, h₃ items hi item hm⟩,
      by omega⟩
  · rintro ⟨h₁, h₂⟩
    exact ⟨fun items hi item hm => (h₁ items hi item hm).1.1,
      fun items hi item hm => (h₁ items hi item hm).1.2,
      fun items hi item hm => (h₁ items hi item hm).2, trivial, trivial, by omega⟩

/-- Generated lines run like the structured reading of their statement, from every state, with every
bound on the rounds and whatever calls do, exactly as far as their text is taken: no line is refused
by itself, and loops are nested at most as deep as the target takes. Lines that are not taken do not
run at all: a fault, and the state is as it was. A reading that ends, ends normally or by returning. -/
theorem runLines_stmt {ctx : Context} {count n : Nat} {s : Stmt} {lines : List Target.Stmt}
    (hp : s.isPlain = true) (hc : s.isClosed = true) (h : stmt ctx count s = .ok (lines, n)) :
    (linesTaken lines = true ∧ s.loopDepth ≤ maxLoops → ∀ call rounds path env,
      runLines call rounds path env lines = run call rounds path env ctx.renames count s) ∧
    (¬ (linesTaken lines = true ∧ s.loopDepth ≤ maxLoops) → ∃ reason line,
      ∀ call rounds path env σ,
        runLines call rounds path env lines σ = .error (.fault (.refused reason line)) σ) ∧
    ∀ call rounds path env, Leaves (run call rounds path env ctx.renames count s) := by
  refine ⟨fun ht call rounds path env => ?_, fun ht => ?_, fun call rounds path env =>
    leaves_run call rounds path env s hp hc⟩
  · rw [runLines, (refusal_eq_none_iff hp hc h).2 ht]
    exact execAll_closed call rounds path env hp hc h
  · rw [← refusal_eq_none_iff hp hc h, ← Ne, Option.ne_none_iff_exists'] at ht
    obtain ⟨l, hl⟩ := ht
    refine ⟨l.reason, l.namedLine, fun call rounds path env σ => ?_⟩
    rw [runLines, hl]
    rfl

/-- `for (int i = 0; i < 3; i++) do { if (i == 1) continue; break; } while (i);` -/
def skippingLoop : Stmt :=
  .forLoop (some (.declaration "int" "i" (some (.number "0"))))
    (.binary .lt (.name "i") (.number "3")) (some (.stepAfter .increment (.name "i")))
    (.doLoop (.name "i")
      (.block [.ifElse (.binary .eq (.name "i") (.number "1")) .continueLoop none, .breakLoop]))

/-- Loops inside each other, with a jump out of the innermost one. -/
def loopNest : Nat → Stmt
  | 0 => .breakLoop
  | n + 1 => .whileLoop (.bool true) (loopNest n)

/-- A loop that is taken, and a nest of 21 loops that is not. -/
theorem runLines_stmt_skippingLoop_loopNest :
    (skippingLoop.isPlain = true ∧ skippingLoop.isClosed = true ∧
      ∃ lines, stmt ⟨0, [], [], .nothing⟩ 0 skippingLoop = .ok (lines, 1) ∧
        (linesTaken lines = true ∧ skippingLoop.loopDepth ≤ maxLoops) ∧
        ∀ call rounds path env,
          runLines call rounds path env lines = run call rounds path env [] 0 skippingLoop) ∧
    ((loopNest 21).isPlain = true ∧ (loopNest 21).isClosed = true ∧
      ∃ lines, stmt ⟨0, [], [], .nothing⟩ 0 (loopNest 21) = .ok (lines, 0) ∧
        ∃ reason line, ∀ call rounds path env σ,
          runLines call rounds path env lines σ = .error (.fault (.refused reason line)) σ) := by
  constructor
  · have hp : skippingLoop.isPlain = true := rfl
    have hc : skippingLoop.isClosed = true := rfl
    have hd : skippingLoop.loopDepth ≤ maxLoops := by decide +kernel
    obtain ⟨lines, h, ht⟩ : ∃ lines, stmt ⟨0, [], [], .nothing⟩ 0 skippingLoop = .ok (lines, 1) ∧
        linesTaken lines = true := ⟨_, rfl, by decide +kernel⟩
    exact ⟨hp, hc, lines, h, ⟨ht, hd⟩, (runLines_stmt hp hc h).1 ⟨ht, hd⟩⟩
  · have hp : (loopNest 21).isPlain = true := rfl
    have hc : (loopNest 21).isClosed = true := rfl
    have hd : ¬ (loopNest 21).loopDepth ≤ maxLoops := by decide +kernel
    obtain ⟨lines, h⟩ : ∃ lines, stmt ⟨0, [], [], .nothing⟩ 0 (loopNest 21) = .ok (lines, 0) :=
      ⟨_, rfl⟩
    exact ⟨hp, hc, lines, h, (runLines_stmt hp hc h).2.1 fun ht => hd ht.2⟩

end ConsoleCpp.Structured

/-
Generated statements run like the structured reading of their source. A generated loop tests first
and repeats the end of its round before every `continue`, so what carries the proof is an equation
for statements inside a loop: the generated lines do what the reading does, except that where the
reading ends by `continue` they first end the round (`cutShort`). The context of the generator says
which end that is.
-/
import ConsoleCpp.Proofs.Control.Reading
import ConsoleCpp.Proofs.Generate.Renames
import ConsoleCpp.Proofs.Machine.Runs

namespace ConsoleCpp.Structured

open Machine Generate

/-! ## Flows -/

theorem andThen_bind (first second : Run Flow) (flow : Flow) :
    andThen first flow >>= andThen second = andThen (first >>= andThen second) flow := by
  cases flow <;> simp [andThen]

/-- Ends the round before what the reading ends by `continue`. -/
def cutShort (finish : Run Flow) : Flow → Run Flow
  | .continued => finish >>= andThen (return .continued)
  | other => return other

theorem cutShort_andThen (finish first rest : Run Flow) :
    (first >>= cutShort finish) >>= andThen (rest >>= cutShort finish) =
      (first >>= andThen rest) >>= cutShort finish := by
  simp only [bind_assoc]
  refine bind_congr fun flow => ?_
  cases flow with
  | continued =>
    simp only [cutShort, andThen, pure_bind, bind_assoc]
    refine bind_congr fun ending => ?_
    cases ending <;> simp [andThen]
  | _ => simp [cutShort, andThen]

/-- Goes on with further rounds of a loop after the body has ended. -/
def again (more : Run Flow) : Flow → Run Flow
  | .next | .continued => more
  | .broke => return .next
  | .returned v => return .returned v

theorem loop_succ (test : Run Bool) (body : Run Flow) (rounds : Nat) :
    Machine.loop test body (rounds + 1) = (do
      if ← test then body >>= again (Machine.loop test body rounds) else return .next) := by
  rw [Machine.loop]
  refine bind_congr fun holds => ?_
  split
  · refine bind_congr fun flow => ?_
    cases flow <;> rfl
  · rfl

theorem testFirst_succ (test : Run Bool) (body : Run Flow) (change : Run Unit) (rounds : Nat) :
    testFirst test body change (rounds + 1) = (do
      if ← test then
        body >>= again (do change; testFirst test body change rounds)
      else return .next) := by
  rw [testFirst]
  refine bind_congr fun holds => ?_
  split
  · refine bind_congr fun flow => ?_
    cases flow <;> rfl
  · rfl

theorem testLast_succ (body : Run Flow) (test : Run Bool) (rounds : Nat) :
    testLast body test (rounds + 1) =
      body >>= again (do if ← test then testLast body test rounds else return .next) := by
  rw [testLast]
  refine bind_congr fun flow => ?_
  cases flow <;> rfl

/-- A round of a generated loop: its body, in which the end of the round stands before every
`continue`, and that end. -/
def round (finish body : Run Flow) : Run Flow := (body >>= cutShort finish) >>= andThen finish

/-- However the body of a round ends, unless it leaves the loop, the end of the round runs once. -/
theorem round_again (finish body more : Run Flow) :
    round finish body >>= again more = body >>= again (finish >>= again more) := by
  unfold round
  simp only [bind_assoc]
  refine bind_congr fun flow => ?_
  cases flow with
  | continued =>
    simp only [cutShort, bind_assoc]
    refine bind_congr fun ending => ?_
    cases ending <;> simp [andThen, again]
  | _ => simp [cutShort, andThen, again]

theorem loop_round_update (test : Run Bool) (body : Run Flow) (change : Run Unit) :
    ∀ rounds, Machine.loop test (round (do change; return .next) body) rounds =
      testFirst test body change rounds
  | 0 => rfl
  | rounds + 1 => by
    rw [loop_succ, testFirst_succ, round_again, loop_round_update test body change rounds]
    simp only [bind_assoc, pure_bind, again]

theorem loop_round_test (test : Run Bool) (body : Run Flow) :
    ∀ rounds, Machine.loop (return true)
        (round (do if ← test then return .next else return .broke) body) rounds =
      testLast body test rounds
  | 0 => rfl
  | rounds + 1 => by
    rw [loop_succ, testLast_succ, pure_bind, if_pos rfl, round_again,
      loop_round_test test body rounds, bind_assoc]
    congr 2
    refine bind_congr fun holds => ?_
    cases holds <;> simp [again]

theorem bind_andThen_next (first : Run Flow) : first >>= andThen (return .next) = first := by
  have h : andThen (return .next) = (pure : Flow → Run Flow) := by
    funext flow
    cases flow <;> rfl
  rw [h, bind_pure]

/-- A loop takes the jumps of its rounds in, so nothing is left to cut short. -/
theorem testFirst_cutShort (finish : Run Flow) (test : Run Bool) (body : Run Flow)
    (change : Run Unit) : ∀ rounds,
    testFirst test body change rounds >>= cutShort finish = testFirst test body change rounds
  | 0 => rfl
  | rounds + 1 => by
    rw [testFirst_succ, bind_assoc]
    refine bind_congr fun holds => ?_
    split
    · rw [bind_assoc]
      refine bind_congr fun flow => ?_
      cases flow <;> simp [again, cutShort, testFirst_cutShort finish test body change rounds]
    · simp [cutShort]

theorem testLast_cutShort (finish : Run Flow) (body : Run Flow) (test : Run Bool) : ∀ rounds,
    testLast body test rounds >>= cutShort finish = testLast body test rounds
  | 0 => rfl
  | rounds + 1 => by
    rw [testLast_succ, bind_assoc]
    refine bind_congr fun flow => ?_
    cases flow with
    | next | continued =>
      simp only [again, bind_assoc]
      refine bind_congr fun holds => ?_
      cases holds <;> simp [cutShort, testLast_cutShort finish body test rounds]
    | _ => simp [again, cutShort]

/-! ## Lines -/

section

variable (call : Caller) (rounds : Nat) (path : String) (env : List Nat)

theorem execAll_cons (line : Target.Stmt) (rest : List Target.Stmt) :
    execAll call rounds path env (line :: rest) =
      exec call rounds path env line >>= andThen (execAll call rounds path env rest) := by
  rw [execAll]
  refine bind_congr fun flow => ?_
  cases flow <;> rfl

theorem execAll_append : ∀ first second : List Target.Stmt,
    execAll call rounds path env (first ++ second) =
      execAll call rounds path env first >>= andThen (execAll call rounds path env second)
  | [], second => by simp [execAll, andThen]
  | line :: rest, second => by
    rw [List.cons_append, execAll_cons, execAll_cons, execAll_append rest second, bind_assoc]
    simp only [andThen_bind]

theorem execAll_singleton (line : Target.Stmt) :
    execAll call rounds path env [line] = exec call rounds path env line := by
  rw [execAll_cons, execAll, bind_andThen_next]

theorem execAll_orPass (lines : List Target.Stmt) :
    execAll call rounds path env (orPass lines) = execAll call rounds path env lines := by
  unfold orPass
  split
  · rename_i h
    rw [List.isEmpty_iff] at h
    subst h
    rw [execAll_singleton, exec, execAll]
  · rfl

theorem exec_straight {line : Target.Stmt} (h : isStraight line = true) :
    exec call rounds path env line = (do
      let _ ← exec call rounds path env line
      return .next) := by
  cases line with
  | assign target value => cases target <;> simp [exec, execAssign]
  | augment target op value => cases target <;> simp [exec, execAugment]
  | eval e => simp [exec]
  | print texts => simp [exec]
  | _ => cases h

theorem execAll_straight : ∀ {lines : List Target.Stmt}, lines.all isStraight = true →
    execAll call rounds path env lines = (do
      let _ ← execAll call rounds path env lines
      return .next)
  | [], _ => by simp [execAll]
  | line :: rest, h => by
    rw [List.all_cons, Bool.and_eq_true] at h
    rw [execAll_cons, exec_straight call rounds path env h.1]
    simp only [bind_assoc, pure_bind, andThen]
    refine bind_congr fun _ => ?_
    exact execAll_straight h.2

end

/-! ## Statements without statements inside -/

/-- Of the context, only the names of the loops around matter to such a statement. -/
theorem simple_context {ctx : Context} {count : Nat} {s : Stmt} (hs : isSimple s = true) :
    stmt ctx count s = stmt ⟨0, [], ctx.renames, .nothing⟩ count s := by
  cases s with
  | declaration type name initializer => cases initializer <;> simp only [stmt]
  | header _ | usingSpace _ | input _ | print _ | expression _ => simp only [stmt]
  | _ => cases hs

theorem run_simple (call : Caller) (rounds : Nat) (path : String) (env : List Nat)
    {renames : Renames} {count : Nat} {s : Stmt} (hs : isSimple s = true) :
    run call rounds path env renames count s = simple call rounds path env renames count s := by
  cases s with
  | header _ | usingSpace _ | declaration _ _ _ | input _ | print _ | expression _ =>
    simp only [run]
  | _ => cases hs

/-! ## Statements -/

section

variable (call : Caller) (rounds : Nat) (path : String) (env : List Nat)

/-- What the end of a round does. -/
def endOfRound (renames : Renames) : RoundEnd → Run Flow
  | .nothing => do
    update call rounds path env renames none
    return .next
  | .update e => do
    update call rounds path env renames (some e)
    return .next
  | .leaveUnless test => do
    if ← holds call env test then return .next else return .broke

theorem endOfRound_updateEnd (renames : Renames) (change : Option Expr) :
    endOfRound call rounds path env renames (updateEnd change) = (do
      update call rounds path env renames change
      return .next) := by
  cases change <;> rfl

theorem execAll_roundEnd {renames : Renames} {ending : RoundEnd} {ends : List Target.Stmt}
    (h : roundEndStatements renames ending = .ok ends) :
    execAll call rounds path env ends = endOfRound call rounds path env renames ending := by
  cases ending with
  | nothing => cases h; rfl
  | update e =>
    obtain ⟨line, hl, h⟩ := bind_ok h
    cases h
    rw [execAll_singleton, exec_straight call rounds path env (expressionStatement_straight hl)]
    simp only [endOfRound, update, generated, hl, bind_assoc, pure_bind]
  | leaveUnless test => cases h; rw [execAll_singleton, exec, endOfRound]

theorem endOfRound_congr {renames renames' : Renames} (h : Generate.bind renames = Generate.bind renames')
    (ending : RoundEnd) : endOfRound call rounds path env renames ending =
      endOfRound call rounds path env renames' ending := by
  cases ending with
  | nothing | leaveUnless _ => rfl
  | update e => simp only [endOfRound, update, expressionStatement_congr h]

/-- The lines of a statement without statements inside. -/
theorem execAll_simple {ctx : Context} {count n : Nat} {s : Stmt} {lines : List Target.Stmt}
    (hs : isSimple s = true) (h : stmt ctx count s = .ok (lines, n)) (finish : Run Flow) :
    execAll call rounds path env lines =
      run call rounds path env ctx.renames count s >>= cutShort finish := by
  have hl := simple_straight hs h
  rw [simple_context hs] at h
  rw [run_simple call rounds path env hs, simple, h, generated,
    execAll_straight call rounds path env hl]
  simp only [bind_assoc, pure_bind, cutShort]

theorem plain_group {s : Stmt} (h : s.isPlain = true) : groupOf s = .others := by
  cases s <;> first | rfl | cases h

/-- Where there are no functions, a group other than the main one is empty. -/
theorem group_plain {which : Group} (hw : which ≠ .others) :
    ∀ {statements : List Stmt} {ctx : Context} {count : Nat}, Stmt.arePlain statements = true →
      group ctx count which statements = .ok ([], count)
  | [], _, _, _ => by rw [group]
  | s :: rest, ctx, count, hp => by
    rw [Stmt.arePlain, Bool.and_eq_true] at hp
    have hs : (groupOf s == which) = false := by
      rw [plain_group hp.1]
      simpa using hw.symm
    rw [group, hs]
    exact group_plain hw hp.2

theorem sequence_plain {statements : List Stmt} {ctx : Context} {count n : Nat}
    {lines : List Target.Stmt} (hp : Stmt.arePlain statements = true)
    (h : sequence ctx count statements = .ok (lines, n)) :
    group ctx count .others statements = .ok (lines, n) := by
  obtain ⟨prototypes, n₁, functions, n₂, others, h₁, h₂, h₃, rfl⟩ := arranged_ok h
  rw [group_plain (by decide) hp] at h₁
  cases h₁
  rw [group_plain (by decide) hp] at h₂
  cases h₂
  exact h₃

mutual

/-- Generated lines do what the reading of their statement does, and end the round before what the
reading ends by `continue`. -/
theorem execAll_stmt : ∀ (s : Stmt) {ctx : Context} {count n : Nat} {lines : List Target.Stmt},
    s.isPlain = true → stmt ctx count s = .ok (lines, n) →
    execAll call rounds path env lines =
      run call rounds path env ctx.renames count s >>=
        cutShort (endOfRound call rounds path env ctx.renames ctx.roundEnd)
  | .header _, _, _, _, _, _, h | .usingSpace _, _, _, _, _, _, h
  | .declaration _ _ _, _, _, _, _, _, h | .input _, _, _, _, _, _, h | .print _, _, _, _, _, _, h
  | .expression _, _, _, _, _, _, h => execAll_simple call rounds path env rfl h _
  | .prototype _ _ _, _, _, _, _, hp, _ => by cases hp
  | .function _ _ _ _, _, _, _, _, hp, _ => by cases hp
  | .ret value, _, _, _, _, _, h => by
    rcases stmt_ret_ok h with ⟨-, ⟨rfl, rfl⟩ | ⟨e, result, rfl, hr, rfl⟩⟩
    · rw [execAll_singleton, exec, run]
      simp only [pure_bind, cutShort]
    · rw [execAll_singleton, exec, run, hr]
      simp only [generated, bind_assoc, pure_bind, cutShort]
  | .breakLoop, _, _, _, _, _, h => by
    rw [stmt] at h
    cases h
    rw [execAll_singleton, exec, run]
    simp only [pure_bind, cutShort]
  | .continueLoop, _, _, _, _, _, h => by
    -- the end of the round stands before the jump, which is what `cutShort` says
    obtain ⟨-, ends, he, rfl⟩ := stmt_continueLoop_ok h
    rw [execAll_append, execAll_roundEnd call rounds path env he, execAll_singleton, exec, run]
    simp only [pure_bind, cutShort]
  | .block statements, _, _, _, _, hp, h => by
    rw [stmt_block_eq] at h
    exact execAll_group statements hp (sequence_plain hp h)
  | .ifElse test thenStmt elseStmt, ctx, _, _, _, hp, h => by
    rw [Stmt.isPlain, Bool.and_eq_true] at hp
    obtain ⟨condition', first, k, second, chained, hc, hf, ha, rfl⟩ := stmt_ifElse_ok h
    have h₁ := execAll_stmt thenStmt hp.1 hf
    have h₂ := execAll_alternative elseStmt hp.2 ha
    cases stmt_count thenStmt hf
    rw [execAll_singleton, exec, execAll_orPass, h₁, h₂, run, condition, hc, generated, bind_assoc]
    refine bind_congr fun yes => ?_
    cases yes <;> rfl
  | .whileLoop test body, ctx, _, _, _, hp, h => by
    obtain ⟨condition', inside, hc, hi, rfl⟩ := stmt_whileLoop_ok h
    have hb := execAll_stmt body hp hi
    -- a loop never ends by `continue`, so nothing is cut short around it
    rw [run, testFirst_cutShort, condition, hc, generated, execAll_singleton, exec, execAll_orPass, hb,
      ← loop_round_update, round]
    exact congrArg (Machine.loop _ · rounds) (bind_andThen_next _).symm
  | .doLoop test body, ctx, _, _, _, hp, h => by
    obtain ⟨condition', inside, hc, hi, rfl⟩ := stmt_doLoop_ok h
    have hb := execAll_stmt body hp hi
    rw [run, testLast_cutShort, condition, hc, generated, execAll_singleton, exec, execAll_orPass,
      execAll_append, hb, execAll_singleton, exec, ← loop_round_test]
    rfl
  | .forLoop init test change body, ctx, _, _, _, hp, h => by
    rw [Stmt.isPlain, Bool.and_eq_true] at hp
    obtain ⟨before, k, condition', inside, ends, hi, hc, hb, he, rfl⟩ := stmt_forLoop_ok h
    have h₁ := execAll_init init hp.1 hi
    have h₂ := execAll_stmt body hp.2 hb
    rw [Context.inner_roundEnd, Context.inLoop_roundEnd, endOfRound_updateEnd] at h₂
    cases optional_count init hi
    -- inside, the update ends a round; the initializer still belongs to the round around the loop
    rw [execAll_append, h₁, execAll_singleton, exec, execAll_orPass, execAll_append, h₂,
      execAll_roundEnd call rounds path env he, endOfRound_updateEnd, run, ← cutShort_andThen,
      testFirst_cutShort, ← loop_round_update, condition]
    simp only [Context.inFor] at hc
    simp only [Context.inner_renames, Context.inLoop_renames, Context.inFor, round, hc, generated]

theorem execAll_alternative : ∀ (s : Option Stmt) {ctx : Context} {count n : Nat}
    {lines : List Target.Stmt} {chained : Bool},
    Stmt.isPlainOption s = true → alternative ctx count s = .ok (lines, chained, n) →
    execAll call rounds path env lines =
      runOption call rounds path env ctx.renames count s >>=
        cutShort (endOfRound call rounds path env ctx.renames ctx.roundEnd)
  | none, _, _, _, _, _, _, h => by
    rw [alternative] at h
    cases h
    rw [execAll, runOption]
    simp only [pure_bind, cutShort]
  | some s, _, _, _, _, _, hp, h => by
    rcases alternative_some_ok h with ⟨hs, -⟩ | ⟨-, body, hs, rfl⟩
    · exact execAll_stmt s hp hs
    · rw [execAll_orPass, execAll_stmt s hp hs]
      rfl

/-- The initializer of a `for` loop stands under the names of the loop, and its jumps belong to the
loop around. -/
theorem execAll_init : ∀ (init : Option Stmt) {ctx : Context} {count n : Nat}
    {lines : List Target.Stmt}, Stmt.isPlainOption init = true →
    Generate.optional (ctx.inFor init count) (countLoop init count) init = .ok (lines, n) →
    execAll call rounds path env lines =
      runOption call rounds path env (ctx.inFor init count).renames (countLoop init count) init >>=
        cutShort (endOfRound call rounds path env ctx.renames ctx.roundEnd)
  | none, _, _, _, _, _, h => by
    rw [Generate.optional] at h
    cases h
    rw [execAll, runOption]
    simp only [pure_bind, cutShort]
  | some s, ctx, count, _, _, hp, h => by
    rw [Generate.optional] at h
    rw [runOption]
    rcases declares_or_bind_inFor s ctx count with ⟨type, name, initializer, rfl⟩ | hr
    · exact execAll_simple call rounds path env rfl h _
    · rw [execAll_stmt s hp h, ← endOfRound_congr call rounds path env hr]
      rfl

theorem execAll_group : ∀ (statements : List Stmt) {ctx : Context} {count n : Nat}
    {lines : List Target.Stmt},
    Stmt.arePlain statements = true → group ctx count .others statements = .ok (lines, n) →
    execAll call rounds path env lines =
      runAll call rounds path env ctx.renames count statements >>=
        cutShort (endOfRound call rounds path env ctx.renames ctx.roundEnd)
  | [], _, _, _, _, _, h => by
    rw [group] at h
    cases h
    rw [execAll, runAll]
    simp only [pure_bind, cutShort]
  | s :: rest, _, _, _, _, hp, h => by
    rw [Stmt.arePlain, Bool.and_eq_true] at hp
    rcases group_cons_ok h with ⟨-, first, k, others, hs, hr, rfl⟩ | ⟨hg, -⟩
    · have h₁ := execAll_stmt s hp.1 hs
      have h₂ := execAll_group rest hp.2 hr
      cases stmt_count s hs
      rw [execAll_append, h₁, h₂, runAll, cutShort_andThen]
    · exact absurd (plain_group hp.1) hg

end

end

/-! ## Closed statements -/

/-- A run that ends, ends normally or by returning. -/
def Leaves (flows : Run Flow) : Prop :=
  ∀ σ flow τ, flows σ = .ok flow τ → flow = .next ∨ ∃ v, flow = .returned v

theorem leaves_next : Leaves (return .next) := by
  intro σ flow τ h
  cases h
  exact .inl rfl

theorem leaves_returned (v : Value) : Leaves (return .returned v) := by
  intro σ flow τ h
  cases h
  exact .inr ⟨v, rfl⟩

theorem leaves_bind {α : Type} {first : Run α} {next : α → Run Flow} (h : ∀ a, Leaves (next a)) :
    Leaves (first >>= next) := by
  intro σ flow τ hf
  obtain ⟨a, ρ, -, hn⟩ := run_bind_ok hf
  exact h a ρ flow τ hn

theorem leaves_andThen {first rest : Run Flow} (hf : Leaves first) (hr : Leaves rest) :
    Leaves (first >>= andThen rest) := by
  intro σ flow τ h
  obtain ⟨flow', ρ, h₁, h₂⟩ := run_bind_ok h
  rcases hf σ flow' ρ h₁ with rfl | ⟨v, rfl⟩
  · exact hr ρ flow τ h₂
  · exact leaves_returned v ρ flow τ h₂

theorem leaves_again {more : Run Flow} (h : Leaves more) (flow : Flow) :
    Leaves (again more flow) := by
  cases flow with
  | next | continued => exact h
  | broke => exact leaves_next
  | returned v => exact leaves_returned v

theorem leaves_testFirst (test : Run Bool) (body : Run Flow) (change : Run Unit) :
    ∀ rounds, Leaves (testFirst test body change rounds)
  | 0 => by intro σ flow τ h; cases h
  | rounds + 1 => by
    rw [testFirst_succ]
    refine leaves_bind fun holds => ?_
    split
    · refine leaves_bind fun flow => leaves_again (leaves_bind fun _ => ?_) flow
      exact leaves_testFirst test body change rounds
    · exact leaves_next

theorem leaves_testLast (body : Run Flow) (test : Run Bool) :
    ∀ rounds, Leaves (testLast body test rounds)
  | 0 => by intro σ flow τ h; cases h
  | rounds + 1 => by
    rw [testLast_succ]
    refine leaves_bind fun flow => leaves_again (leaves_bind fun holds => ?_) flow
    split
    · exact leaves_testLast body test rounds
    · exact leaves_next

theorem cutShort_of_leaves {flows : Run Flow} (h : Leaves flows) (finish : Run Flow) :
    flows >>= cutShort finish = flows := by
  funext σ
  change EStateM.bind flows (cutShort finish) σ = flows σ
  unfold EStateM.bind
  cases hf : flows σ with
  | error e τ => rfl
  | ok flow τ => rcases h σ flow τ hf with rfl | ⟨v, rfl⟩ <;> rfl

section

variable (call : Caller) (rounds : Nat) (path : String) (env : List Nat)

theorem leaves_simple {renames : Renames} {count : Nat} {s : Stmt} (hs : isSimple s = true) :
    Leaves (run call rounds path env renames count s) := by
  rw [run_simple call rounds path env hs, simple]
  cases h : stmt ⟨0, [], renames, .nothing⟩ count s with
  | error e => intro σ flow τ hf; cases hf
  | ok lines =>
    rw [generated, execAll_straight call rounds path env (simple_straight hs h)]
    exact leaves_bind fun _ => leaves_next

mutual

/-- The reading of a statement whose jumps stay in its own loops ends normally or by returning. -/
theorem leaves_run : ∀ (s : Stmt) {renames : Renames} {count : Nat},
    s.isPlain = true → s.isClosed = true → Leaves (run call rounds path env renames count s)
  | .header _, _, _, _, _ | .usingSpace _, _, _, _, _ | .declaration _ _ _, _, _, _, _
  | .input _, _, _, _, _ | .print _, _, _, _, _ | .expression _, _, _, _, _ =>
    leaves_simple call rounds path env rfl
  | .prototype _ _ _, _, _, hp, _ => by cases hp
  | .function _ _ _ _, _, _, hp, _ => by cases hp
  | .breakLoop, _, _, _, hc => by cases hc
  | .continueLoop, _, _, _, hc => by cases hc
  | .ret none, _, _, _, _ => by
    rw [run]
    exact leaves_returned _
  | .ret (some e), _, _, _, _ => by
    rw [run]
    exact leaves_bind fun v => leaves_returned v
  | .block statements, _, _, hp, hc => by
    rw [run]
    exact leaves_runAll statements hp hc
  | .ifElse test thenStmt elseStmt, _, _, hp, hc => by
    rw [Stmt.isPlain, Bool.and_eq_true] at hp
    rw [Stmt.isClosed, Bool.and_eq_true] at hc
    rw [run]
    refine leaves_bind fun holds => ?_
    split
    · exact leaves_run thenStmt hp.1 hc.1
    · exact leaves_runOption elseStmt hp.2 hc.2
  | .whileLoop _ _, _, _, _, _ => by
    rw [run]
    exact leaves_testFirst _ _ _ rounds
  | .doLoop _ _, _, _, _, _ => by
    rw [run]
    exact leaves_testLast _ _ rounds
  | .forLoop init _ _ _, _, _, hp, hc => by
    rw [Stmt.isPlain, Bool.and_eq_true] at hp
    rw [run]
    exact leaves_andThen (leaves_runOption init hp.1 hc) (leaves_testFirst _ _ _ rounds)

theorem leaves_runAll : ∀ (statements : List Stmt) {renames : Renames} {count : Nat},
    Stmt.arePlain statements = true → Stmt.areClosed statements = true →
    Leaves (runAll call rounds path env renames count statements)
  | [], _, _, _, _ => by
    rw [runAll]
    exact leaves_next
  | s :: rest, _, _, hp, hc => by
    rw [Stmt.arePlain, Bool.and_eq_true] at hp
    rw [Stmt.areClosed, Bool.and_eq_true] at hc
    rw [runAll]
    exact leaves_andThen (leaves_run s hp.1 hc.1) (leaves_runAll rest hp.2 hc.2)

theorem leaves_runOption : ∀ (s : Option Stmt) {renames : Renames} {count : Nat},
    Stmt.isPlainOption s = true → Stmt.isClosedOption s = true →
    Leaves (runOption call rounds path env renames count s)
  | none, _, _, _, _ => by
    rw [runOption]
    exact leaves_next
  | some s, _, _, hp, hc => by
    rw [runOption]
    exact leaves_run s hp hc

end

/-- Generated lines run like the reading of their statement where the jumps of the statement stay in
its own loops. -/
theorem execAll_closed {ctx : Context} {count n : Nat} {s : Stmt} {lines : List Target.Stmt}
    (hp : s.isPlain = true) (hc : s.isClosed = true) (h : stmt ctx count s = .ok (lines, n)) :
    execAll call rounds path env lines = run call rounds path env ctx.renames count s := by
  rw [execAll_stmt call rounds path env s hp h]
  exact cutShort_of_leaves (leaves_run call rounds path env s hp hc) _

end

end ConsoleCpp.Structured

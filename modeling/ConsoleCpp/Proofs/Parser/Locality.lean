/-
What a parser reads is decided by the tokens it takes and by the one after them: with anything else
from there on it reads the same. The operators of an expression are looked for until the next token
is none, so for the parsers of expressions that token has to stay as it is; what ends with a token
of its own is read the same whatever comes after it.
-/
import ConsoleCpp.Proofs.Outcome
import ConsoleCpp.Proofs.Parser.StatementViews

namespace ConsoleCpp

/-- The variable to which an assignment is refused, if that is the error. -/
def CompileError.mismatched : CompileError → Option String
  | .undeclared name | .stringAssigned _ name | .decimalAssigned name | .numberAssigned name =>
    some name
  | _ => none

namespace Parser

/-- The error is not that an assignment is refused. -/
def Structural (e : CompileError) : Prop := e.mismatched = none

/-- No way to go on but those that start with the same token. -/
def Nothing (_ : List Token) : Prop := False

/-- The reading of `ts` takes tokens from its front, at least one if `takes`, and reads the same
before anything that starts with the same token as what is left, or that is one of `also`. -/
def Local {α : Type} (takes : Bool) (also : List Token → Prop) (fails : CompileError → Prop)
    (read : List Token → Except CompileError (α × List Token)) (ts : List Token) : Prop :=
  Ends (fun made => ∃ taken, ts = taken ++ made.2 ∧ (takes = true → taken ≠ []) ∧
      ∀ rest, rest.head? = made.2.head? ∨ also rest → read (taken ++ rest) = .ok (made.1, rest))
    fails (read ts)

namespace Local

variable {α β : Type} {takes : Bool} {also also' : List Token → Prop} {fails : CompileError → Prop}
  {read : List Token → Except CompileError (α × List Token)} {ts : List Token}

/-! ## Results -/

theorem of_taken (taken : List Token) (made : α × List Token) (he : ts = taken ++ made.2)
    (ht : takes = true → taken ≠ [])
    (hr : ∀ rest, rest.head? = made.2.head? ∨ also rest →
      read (taken ++ rest) = .ok (made.1, rest)) :
    Local takes also fails read ts := by
  unfold Local
  rw [he, hr made.2 (.inl rfl)]
  exact ⟨taken, rfl, ht, hr⟩

theorem of_error {e : CompileError} (he : read ts = .error e) (hf : fails e) :
    Local takes also fails read ts := by
  unfold Local
  rw [he]
  exact hf

/-- A result for which nothing is taken. -/
theorem pure (value : α) : Local false also fails (fun ts => .ok (value, ts)) ts :=
  of_taken [] (value, ts) rfl (fun h => by cases h) fun _ _ => rfl

/-- A result for which nothing is taken, but for which the next token is looked at. -/
theorem stay_nil {value : α} (h : read [] = .ok (value, [])) : Local false Nothing fails read [] :=
  of_taken [] (value, []) rfl (fun h => by cases h) fun rest hr => by
    rw [List.head?_eq_none_iff.1 (hr.resolve_right id)]
    exact h

theorem stay_cons {value : α} {t : Token} {rest : List Token}
    (h : ∀ rest, read (t :: rest) = .ok (value, t :: rest)) :
    Local false Nothing fails read (t :: rest) := by
  refine of_taken [] (value, t :: rest) rfl (fun h => by cases h) fun rest' hr => ?_
  obtain ⟨tail, rfl⟩ := List.head?_eq_some_iff.1 (hr.resolve_right id)
  exact h tail

theorem of_eq {read' : List Token → Except CompileError (α × List Token)}
    (he : ∀ ts, read ts = read' ts) (h : Local takes also fails read' ts) :
    Local takes also fails read ts :=
  (funext he : read = read') ▸ h

theorem length_le (h : Local takes also fails read ts) {value : α} {rest : List Token}
    (hr : read ts = .ok (value, rest)) : rest.length ≤ ts.length := by
  obtain ⟨taken, he, -, -⟩ := h.ok hr
  rw [he, List.length_append]
  exact Nat.le_add_left _ _

theorem map (f : α → β) (h : Local takes also fails read ts) :
    Local takes also fails (fun ts => (read ts).map fun made => (f made.1, made.2)) ts := by
  cases hs : read ts with
  | error e => exact of_error (by rw [hs]; rfl) (h.error hs)
  | ok made =>
    obtain ⟨taken, he, ht, hr⟩ := h.ok hs
    refine of_taken taken (f made.1, made.2) he ht fun rest hrest => ?_
    rw [hr rest hrest]
    rfl

theorem mapError {fails' : CompileError → Prop} {f : CompileError → CompileError}
    (hf : ∀ e, fails e → fails' (f e)) (h : Local takes also fails read ts) :
    Local takes also fails' (fun ts => (read ts).mapError f) ts := by
  cases hs : read ts with
  | error e => exact of_error (by rw [hs]; rfl) (hf e (h.error hs))
  | ok made =>
    obtain ⟨taken, he, ht, hr⟩ := h.ok hs
    refine of_taken taken made he ht fun rest hrest => ?_
    rw [hr rest hrest]
    rfl

theorem any (h : Local takes also Structural read ts) : Local takes also (fun _ => True) read ts := by
  unfold Local at h ⊢
  cases hr : read ts with
  | error e => trivial
  | ok made => exact h.ok hr

/-! ## Steps -/

/-- With a first token that is taken. -/
theorem cons {t : Token} {rest : List Token}
    {step : List Token → Except CompileError (α × List Token)}
    (hc : ∀ rest, read (t :: rest) = step rest) (h : Local false also fails step rest) :
    Local takes also fails read (t :: rest) := by
  unfold Local at h
  cases hs : step rest with
  | error e => exact of_error ((hc rest).trans hs) (h.error hs)
  | ok made =>
    obtain ⟨taken, he, -, hr⟩ := h.ok hs
    refine of_taken (t :: taken) made (congrArg (t :: ·) he) (fun _ => List.cons_ne_nil _ _) ?_
    intro rest' hrest
    exact (hc _).trans (hr rest' hrest)

/-- Of a reading that takes a token, what it does after that token. -/
theorem tail {t : Token} {rest : List Token} (h : Local true also fails read (t :: rest)) :
    Local false also fails (fun rest => read (t :: rest)) rest := by
  unfold Local at h
  cases hs : read (t :: rest) with
  | error e => exact of_error hs (h.error hs)
  | ok made =>
    obtain ⟨taken, he, ht, hr⟩ := h.ok hs
    cases taken with
    | nil => exact absurd rfl (ht rfl)
    | cons u taken =>
      obtain ⟨rfl, rfl⟩ := List.cons.inj he
      exact of_taken taken made rfl (fun h => by cases h) hr

/-- After a check that does not look at the tokens. -/
theorem check {γ : Type} {x : Except CompileError γ}
    {next : γ → List Token → Except CompileError (α × List Token)}
    (hx : ∀ e, x = .error e → fails e) (hn : ∀ c, Local takes also fails (next c) ts) :
    Local takes also fails (fun ts => x >>= fun c => next c ts) ts := by
  cases x with
  | error e => exact of_error rfl (hx e rfl)
  | ok c => exact hn c

section

variable {first : List Token → Except CompileError (β × List Token)}
  {next : β × List Token → Except CompileError (α × List Token)}

/-- Two steps, the second of which may look beyond its own tokens only where the first may. -/
theorem seq {n m : Bool} (hf : Local n also' fails first ts)
    (hn : ∀ value rest, first ts = .ok (value, rest) →
      Local m also fails (fun ts => next (value, ts)) rest)
    (ht : takes = true → n = true ∨ m = true) (hs : m = true ∨ ∀ rest, also rest → also' rest) :
    Local takes also fails (fun ts => first ts >>= next) ts := by
  unfold Local at hf
  cases hfirst : first ts with
  | error e => exact of_error (by rw [hfirst]; rfl) (hf.error hfirst)
  | ok got =>
    obtain ⟨value, rest⟩ := got
    have hnext := hn value rest hfirst
    unfold Local at hnext
    obtain ⟨taken, he, hn₁, hr₁⟩ := hf.ok hfirst
    cases hmade : next (value, rest) with
    | error e => exact of_error (by rw [hfirst]; exact hmade) (hnext.error hmade)
    | ok made =>
      obtain ⟨taken', he', hn₂, hr₂⟩ := hnext.ok hmade
      dsimp only at he he'
      refine of_taken (taken ++ taken') made ?_ ?_ ?_
      · rw [List.append_assoc, ← he', ← he]
      · intro h hnil
        obtain ⟨rfl, rfl⟩ := List.append_eq_nil_iff.1 hnil
        exact (ht h).elim (fun h => hn₁ h rfl) fun h => hn₂ h rfl
      · intro rest' hrest
        have hfirst' : first (taken ++ (taken' ++ rest')) = .ok (value, taken' ++ rest') := by
          refine hr₁ _ ?_
          rw [he']
          cases taken' with
          | cons u taken' => exact .inl rfl
          | nil =>
            refine hrest.imp id fun h => ?_
            exact hs.elim (fun h => absurd rfl (hn₂ h)) fun hs => hs rest' h
        rw [List.append_assoc]
        exact (congrArg (· >>= next) hfirst').trans (hr₂ rest' hrest)

/-- Two steps, the second of which may take nothing. -/
theorem bind (hf : Local takes also' fails first ts)
    (hn : ∀ value rest, first ts = .ok (value, rest) →
      Local false also fails (fun ts => next (value, ts)) rest)
    (hs : ∀ rest, also rest → also' rest) :
    Local takes also fails (fun ts => first ts >>= next) ts :=
  hf.seq hn .inl (.inr hs)

/-- Two steps, the second of which takes a token. -/
theorem before (hf : Local false also' fails first ts)
    (hn : ∀ value rest, first ts = .ok (value, rest) →
      Local true also fails (fun ts => next (value, ts)) rest) :
    Local takes also fails (fun ts => first ts >>= next) ts :=
  hf.seq hn (fun _ => .inr rfl) (.inl rfl)

end

section

variable {test : List Token → Bool}
  {yes no : List Token → Except CompileError (α × List Token)}

/-- A choice by the next token; a branch that may take nothing has to be chosen again. -/
theorem ite {n m : Bool} (ht : ∀ xs ys : List Token, xs.head? = ys.head? → test xs = test ys)
    (hy : test ts = true → Local n also fails yes ts)
    (hn : test ts = false → Local m also fails no ts)
    (hys : n = true ∨ ∀ rest, also rest → test rest = true)
    (hns : m = true ∨ ∀ rest, also rest → test rest = false)
    (hnm : takes = true → n = true ∧ m = true) :
    Local takes also fails (fun ts => if test ts = true then yes ts else no ts) ts := by
  -- which branch is chosen before other tokens
  have again : ∀ {taken rest rest' : List Token}, ts = taken ++ rest →
      rest'.head? = rest.head? ∨ (taken = [] → test rest' = test ts) →
      test (taken ++ rest') = test ts := by
    intro taken rest rest' he hrest
    cases taken with
    | cons u taken => exact ht _ _ (by rw [he]; rfl)
    | nil =>
      rcases hrest with hrest | hrest
      · exact ht _ _ (by rw [he]; exact hrest)
      · exact hrest rfl
  unfold Local at hy hn
  cases hc : test ts with
  | true =>
    cases hs : yes ts with
    | error e => exact of_error (by rw [if_pos hc]; exact hs) ((hy hc).error hs)
    | ok made =>
      obtain ⟨taken, he, ht', hr⟩ := (hy hc).ok hs
      refine of_taken taken made he (fun h => ht' (hnm h).1) fun rest hrest => ?_
      have hagain := again he (hrest.imp id fun ha hnil =>
        (hys.elim (fun h => absurd hnil (ht' h)) fun h => h rest ha).trans hc.symm)
      rw [if_pos (hagain.trans hc)]
      exact hr rest hrest
  | false =>
    cases hs : no ts with
    | error e => exact of_error (by rw [if_neg (by rw [hc]; decide)]; exact hs) ((hn hc).error hs)
    | ok made =>
      obtain ⟨taken, he, ht', hr⟩ := (hn hc).ok hs
      refine of_taken taken made he (fun h => ht' (hnm h).2) fun rest hrest => ?_
      have hagain := again he (hrest.imp id fun ha hnil =>
        (hns.elim (fun h => absurd hnil (ht' h)) fun h => h rest ha).trans hc.symm)
      rw [if_neg (by rw [hagain.trans hc]; decide)]
      exact hr rest hrest

/-- A choice between two branches that take a token. -/
theorem either (ht : ∀ xs ys : List Token, xs.head? = ys.head? → test xs = test ys)
    (hy : test ts = true → Local true also fails yes ts)
    (hn : test ts = false → Local true also fails no ts) :
    Local takes also fails (fun ts => if test ts = true then yes ts else no ts) ts :=
  ite ht hy hn (.inl rfl) (.inl rfl) fun _ => ⟨rfl, rfl⟩

/-- A choice where the next token has to stay. -/
theorem choose (ht : ∀ xs ys : List Token, xs.head? = ys.head? → test xs = test ys)
    (hy : test ts = true → Local takes Nothing fails yes ts)
    (hn : test ts = false → Local takes Nothing fails no ts) :
    Local takes Nothing fails (fun ts => if test ts = true then yes ts else no ts) ts :=
  ite ht hy hn (.inr fun _ h => h.elim) (.inr fun _ h => h.elim) fun h => ⟨h, h⟩

end

end Local

/-! ## Tokens -/

section

variable {takes : Bool} {also : List Token → Prop} {kind : Token.Kind} {text : String}
  {ts : List Token}

theorem startsWith_head (xs ys : List Token) (h : xs.head? = ys.head?) :
    startsWith kind text xs = startsWith kind text ys := by
  cases xs with
  | nil =>
    cases ys with
    | nil => rfl
    | cons _ _ => cases h
  | cons x xs =>
    cases ys with
    | nil => cases h
    | cons y ys =>
      cases h
      rfl

theorem local_consume :
    Local takes also Structural (fun ts => seen (consume kind text ts)) ts := by
  cases ts with
  | nil => exact .of_error rfl rfl
  | cons t rest =>
    cases ht : t.isA kind text with
    | false =>
      refine .of_error (e := .expected kind (some text) (some t)) ?_ rfl
      rw [consume, if_neg (by rw [ht]; decide)]
      rfl
    | true => exact .cons (fun rest => seen_consume kind text rest ht) (.pure t)

theorem local_consumeKind :
    Local takes also Structural (fun ts => seen (consumeKind kind ts)) ts := by
  cases ts with
  | nil => exact .of_error rfl rfl
  | cons t rest =>
    cases ht : t.kind == kind with
    | false =>
      refine .of_error (e := .expected kind none (some t)) ?_ rfl
      rw [consumeKind, if_neg (by rw [ht]; decide)]
      rfl
    | true =>
      refine .cons (fun rest => ?_) (.pure t)
      rw [consumeKind, if_pos ht]
      rfl

theorem local_newType : Local takes also Structural (fun ts => seen (newType ts)) ts := by
  cases ts with
  | nil => exact .of_error rfl rfl
  | cons t rest =>
    by_cases hd : (t.kind == .keyword && datatypes.contains t.text) = true
    · refine .cons (fun rest => ?_) (.pure t.text)
      rw [newType, if_pos hd]
      rfl
    by_cases hi : (t.kind == .identifier) = true
    · refine .cons (fun rest => ?_) (.pure t.text)
      rw [newType, if_neg hd, if_pos hi]
      rfl
    · refine .of_error (e := .expected .identifier none (some t)) ?_ rfl
      rw [newType, if_neg hd, if_neg hi]
      rfl

theorem structural_enter {ctx : Context} {t : Token} (e : CompileError) (h : ctx.enter t = .error e) :
    Structural e := by
  unfold Context.enter at h
  split at h
  · cases h
    rfl
  · cases h

end

/-! ## Expressions -/

section

variable {takes : Bool} {also : List Token → Prop} {ctx : Context} {ts : List Token}

theorem local_enclosed {close : String}
    (h : Local false Nothing Structural (fun ts => seen (expression ctx.bracketed 1 ts)) ts) :
    Local takes also Structural (fun ts => enclosed ctx close ts) ts :=
  h.before fun _ _ _ => local_consume.bind (fun _ _ _ => .pure _) fun _ h => h

/-- A chain with a link: what the next token starts does not depend on the tokens after it. -/
theorem local_chain_cons {node : Expr} {t : Token} {rest : List Token}
    {more : List Token → Except CompileError (Expr × List Token)}
    (he : ∀ rest, extended ctx node t rest = some (more rest))
    (hm : Local false Nothing Structural more rest)
    (hc : ∀ longer after, after.length ≤ rest.length →
      Local false Nothing Structural (fun ts => glimpsed (chain ctx longer ts)) after) :
    Local takes Nothing Structural (fun ts => glimpsed (chain ctx node ts)) (t :: rest) := by
  have hs : ∀ rest, glimpsed (chain ctx node (t :: rest)) =
      more rest >>= fun longer => glimpsed (chain ctx longer.1 longer.2) := fun rest => by
    rw [glimpsed_chain_cons, he]
  refine .cons hs (hm.bind (fun longer after h => hc longer after ?_) fun _ h => h)
  exact hm.length_le h

theorem local_chain_stop {node : Expr} {t : Token} {rest : List Token}
    (he : ∀ rest, extended ctx node t rest = none) :
    Local false Nothing Structural (fun ts => glimpsed (chain ctx node ts)) (t :: rest) :=
  .stay_cons fun rest => by rw [glimpsed_chain_cons, he]

/-- What a link joins to an operand. -/
theorem local_joined {left : Expr} {t : Token} {link : Link}
    (he : ∀ floor, Local false Nothing Structural (fun ts => seen (expression ctx floor ts)) ts)
    (hc : ∀ longer after, after.length < ts.length →
      Local false Nothing Structural (fun ts => glimpsed (chain ctx longer ts)) after) :
    Local false Nothing Structural (fun ts => joined ctx left t ts link) ts := by
  cases link with
  | member op =>
    refine local_consumeKind.bind (fun field after h => ?_) fun _ h => h
    exact hc _ after (seen_shorter h)
  | assign op =>
    cases ha : left.isAssignable with
    | true =>
      refine .of_eq (fun rest => if_pos ha) ?_
      exact .bind (he 0) (fun _ _ _ => .pure _) fun _ h => h
    | false => exact .of_error (if_neg (by rw [ha]; decide)) rfl
  | scope => exact .bind (he _) (fun _ _ _ => .pure _) fun _ h => h
  | binary op => exact .bind (he _) (fun _ _ _ => .pure _) fun _ h => h

/-- Operators after an operand, one of which comes next. -/
theorem local_climb_cons {floor : Int} {left : Expr} {t : Token} {rest : List Token} {link : Link}
    (hl : link? ctx.inStream t = some link) (hf : ¬ (link.precedence : Int) < floor)
    (hm : Local false Nothing Structural (fun rest => joined ctx left t rest link) rest)
    (hc : ∀ whole after, after.length ≤ rest.length →
      Local false Nothing Structural (fun ts => glimpsed (climb ctx floor whole ts)) after) :
    Local takes Nothing Structural (fun ts => glimpsed (climb ctx floor left ts)) (t :: rest) := by
  have hs : ∀ rest, glimpsed (climb ctx floor left (t :: rest)) =
      joined ctx left t rest link >>= fun whole => glimpsed (climb ctx floor whole.1 whole.2) :=
    fun rest => by rw [glimpsed_climb_cons, hl]; exact if_neg hf
  refine .cons hs (hm.bind (fun whole after h => hc whole after ?_) fun _ h => h)
  exact hm.length_le h

end

mutual

theorem primary_local (takes : Bool) (ctx : Context) (ts : List Token) :
    Local takes Nothing Structural (fun ts => seen (primary ctx ts)) ts := by
  match ts with
  | [] =>
    refine .of_error (e := .operandMissing) ?_ rfl
    rw [primary]
    rfl
  | t :: rest =>
    refine .cons (seen_primary_cons ctx t) (.check structural_enter fun ctx => ?_)
    unfold operand
    cases t.kind with
    | operator =>
      cases UnaryOp.ofText? t.text with
      | none => exact .of_error rfl rfl
      | some op =>
        refine .bind (primary_local false ctx rest) (fun inner after _ => ?_) fun _ h => h
        dsimp only
        split
        · exact .of_error rfl rfl
        · exact .pure _
    | number | string | char => exact .pure _
    | identifier => exact variableOperand_local ctx t.text rest
    | keyword =>
      dsimp only
      split
      · exact .pure _
      split
      · exact .pure _
      split
      · exact .pure _
      split
      · refine .bind local_newType (fun type after h₁ => ?_) fun _ h => h
        have hl := seen_shorter h₁
        dsimp only
        refine .choose startsWith_head (fun _ => ?_) fun _ => ?_
        · refine .bind local_consume (fun _ after h₂ => ?_) fun _ h => h
          have hl := seen_shorter h₂
          refine .bind (local_enclosed ?_) (fun _ _ _ => .pure _) fun _ h => h
          exact expression_local false ctx.bracketed 1 after
        · refine .choose startsWith_head (fun _ => ?_) fun _ => .pure _
          refine .bind local_consume (fun _ _ _ => ?_) fun _ h => h
          exact .bind local_consume (fun _ _ _ => .pure _) fun _ h => h
      · exact .of_error rfl rfl
    | delimiter =>
      dsimp only
      split
      · exact local_enclosed (expression_local false ctx.bracketed 1 rest)
      split
      · refine .bind (local_enclosed ?_) (fun _ _ _ => .pure _) fun _ h => h
        exact expression_local false ctx.bracketed 1 rest
      · exact .of_error rfl rfl
    | header | stream | scope => exact .of_error rfl rfl
termination_by (ts.length, 0)
decreasing_by all_goals decreasing_with omega

theorem variableOperand_local (ctx : Context) (id : String) (ts : List Token) :
    Local false Nothing Structural (fun ts => glimpsed (variableOperand ctx id ts)) ts := by
  refine .of_eq (glimpsed_variableOperand ctx id) ?_
  refine .bind (chain_local ctx (.name id) ts) (fun node after h₁ => ?_) fun _ h => h
  have hl := glimpsed_notLonger h₁
  dsimp only
  -- whether anything is stored is told by the next token alone
  match after with
  | [] => exact .stay_nil rfl
  | t :: after =>
    rw [List.length_cons] at hl
    cases hk : t.kind with
    | operator =>
      cases ho : StepOp.ofText? t.text with
      | some op =>
        have hs : ∀ rest, stored ctx node (t :: rest) =
            if node.isAssignable then .ok (.stepAfter op node, rest) else .error (.notAssignable t) := by
          intro rest
          simp only [stored, hk, ho]
          rfl
        refine .cons hs ?_
        split
        · exact .pure _
        · exact .of_error rfl rfl
      | none =>
        cases ha : AssignOp.ofText? t.text with
        | none => exact .stay_cons fun rest => by simp only [stored, hk, ho, ha]; rfl
        | some op =>
          have hs : ∀ rest, stored ctx node (t :: rest) =
              if node.isAssignable then
                seen (expression ctx 0 rest) >>= fun value => .ok (.assign op node value.1, value.2)
              else .error (.notAssignable t) := by
            intro rest
            simp only [stored, hk, ho, ha]
            rfl
          refine .cons hs ?_
          split
          · exact .bind (expression_local false ctx 0 after) (fun _ _ _ => .pure _) fun _ h => h
          · exact .of_error rfl rfl
    | _ => exact .stay_cons fun rest => by simp only [stored, hk]; rfl
termination_by (ts.length, 3)

theorem chain_local (ctx : Context) (node : Expr) (ts : List Token) :
    Local false Nothing Structural (fun ts => glimpsed (chain ctx node ts)) ts := by
  match ts with
  | [] => exact .stay_nil (glimpsed_chain_nil ctx node)
  | t :: rest =>
    -- the chain goes on in the same way behind each of the three kinds of links
    have again : ∀ longer after, after.length ≤ rest.length →
        Local false Nothing Structural (fun ts => glimpsed (chain ctx longer ts)) after :=
      fun longer after hl => chain_local ctx longer after
    by_cases hp : t.isA .delimiter "(" = true
    · refine local_chain_cons (fun rest => by rw [extended, if_pos hp]) ?_ again
      refine .before (arguments_local ctx.bracketed rest) fun args after _ => ?_
      exact local_consume.bind (fun _ _ _ => .pure _) fun _ h => h
    by_cases hb : t.isA .delimiter "[" = true
    · refine local_chain_cons (fun rest => by rw [extended, if_neg hp, if_pos hb]) ?_ again
      refine (local_enclosed ?_).bind (fun _ _ _ => .pure _) fun _ h => h
      exact expression_local false ctx.bracketed 1 rest
    cases hk : t.kind with
    | operator =>
      cases ho : MemberOp.ofText? t.text with
      | some op =>
        have he : ∀ rest, extended ctx node t rest = some (seen (consumeKind .identifier rest) >>=
            fun field => .ok (.member op node field.1.text, field.2)) := by
          intro rest
          rw [extended, if_neg hp, if_neg hb, hk, ho]
          rfl
        refine local_chain_cons he ?_ again
        exact local_consumeKind.bind (fun _ _ _ => .pure _) fun _ h => h
      | none =>
        exact local_chain_stop fun rest => by rw [extended, if_neg hp, if_neg hb, hk, ho]
    | _ => exact local_chain_stop fun rest => by rw [extended, if_neg hp, if_neg hb, hk]
termination_by (ts.length, 0)
decreasing_by all_goals decreasing_with omega

theorem arguments_local (ctx : Context) (ts : List Token) :
    Local false Nothing Structural (fun ts => glimpsed (arguments ctx ts)) ts := by
  refine .of_eq (glimpsed_arguments ctx) ?_
  exact .choose startsWith_head (fun _ => .pure _) fun _ => expressions_local ctx ts
termination_by (ts.length, 3)
decreasing_by all_goals decreasing_with omega

theorem expressions_local (ctx : Context) (ts : List Token) :
    Local false Nothing Structural (fun ts => seen (expressions ctx ts)) ts := by
  refine .of_eq (seen_expressions ctx) ?_
  refine .bind (expression_local false ctx 1 ts) (fun first after h₁ => ?_) fun _ h => h
  have hl := seen_shorter h₁
  dsimp only
  refine .choose startsWith_head (fun _ => ?_) fun _ => .pure _
  refine .bind local_consume (fun _ after h₂ => ?_) fun _ h => h
  have hl := seen_shorter h₂
  exact .bind (expressions_local ctx after) (fun _ _ _ => .pure _) fun _ h => h
termination_by (ts.length, 2)
decreasing_by all_goals decreasing_with omega

theorem expression_local (takes : Bool) (ctx : Context) (floor : Int) (ts : List Token) :
    Local takes Nothing Structural (fun ts => seen (expression ctx floor ts)) ts := by
  refine .of_eq (seen_expression ctx floor) ?_
  refine .bind (primary_local takes ctx ts) (fun left after h₁ => ?_) fun _ h => h
  have hl := seen_shorter h₁
  exact climb_local ctx floor left after
termination_by (ts.length, 1)
decreasing_by all_goals decreasing_with omega

theorem climb_local (ctx : Context) (floor : Int) (left : Expr) (ts : List Token) :
    Local false Nothing Structural (fun ts => glimpsed (climb ctx floor left ts)) ts := by
  match ts with
  | [] => exact .stay_nil (glimpsed_climb_nil ctx floor left)
  | t :: rest =>
    cases hl : link? ctx.inStream t with
    | none => exact .stay_cons fun rest => by rw [glimpsed_climb_cons, hl]
    | some link =>
      by_cases hf : (link.precedence : Int) < floor
      · exact .stay_cons fun rest => by rw [glimpsed_climb_cons, hl]; exact if_pos hf
      refine local_climb_cons hl hf ?_ fun whole after hlen => climb_local ctx floor whole after
      exact local_joined (fun floor => expression_local false ctx floor rest) fun longer after hlen =>
        chain_local ctx longer after
termination_by (ts.length, 0)
decreasing_by all_goals decreasing_with omega

end

end Parser

end ConsoleCpp

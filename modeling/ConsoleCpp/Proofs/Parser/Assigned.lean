/-
The check of plain assignments to variables. In a program that is accepted each of them is to a
declared variable, and its value does not clash with the last type declared before it. And where a
program is refused for such an assignment, the statement at that place is one that breaks the rule:
to tell what is declared before it, a directive is put in its place and the program completed, which
gives a tree with the directive where the assignment would stand.
-/
import ConsoleCpp.Proofs.Parser.Append
import ConsoleCpp.Proofs.Parser.Declared
import Mathlib

namespace ConsoleCpp

open Node (walkFrom)

/-! ## The rule -/

/-- The word that a type is based on, without modifiers and marks. -/
def baseOf (type : String) : Option String := (typeWords (dropMarks type)).getLast?

/-- A value that must not be assigned to a variable whose type has this base: a string to a number,
a number to a string, and a number with a point or exponent to an integer. -/
def Clashes (base : Option String) : Expr → Prop
  | .string _ _ => base = some "int" ∨ base = some "float"
  | .number text =>
    base = some "string" ∨
      base = some "int" ∧ ('.' ∈ text.toList ∨ 'e' ∈ text.toList ∨ 'E' ∈ text.toList)
  | _ => False

theorem isDecimal_iff (text : String) :
    Expr.isDecimal text = true ↔ '.' ∈ text.toList ∨ 'e' ∈ text.toList ∨ 'E' ∈ text.toList := by
  simp only [Expr.isDecimal, List.any_eq_true, Bool.or_eq_true, beq_iff_eq]
  constructor
  · rintro ⟨c, hc, (rfl | rfl) | rfl⟩
    · exact .inl hc
    · exact .inr (.inl hc)
    · exact .inr (.inr hc)
  · rintro (hc | hc | hc)
    · exact ⟨_, hc, .inl (.inl rfl)⟩
    · exact ⟨_, hc, .inl (.inr rfl)⟩
    · exact ⟨_, hc, .inr rfl⟩

theorem CompileError.mismatched_inStatement (first : Token) (e : CompileError) :
    (e.inStatement first).mismatched = e.mismatched := by
  cases e <;> rfl

namespace Parser

/-- The check lets through exactly the assignments to declared variables that do not clash. -/
theorem checkAssignment_set (symbols : SymbolTable) (name : String) (value : Expr) :
    Ends (fun _ => ∃ type, symbols.lookup name = some type ∧ ¬ Clashes (baseOf type) value)
      (fun e => e.mismatched = some name ∧
        ∀ type, symbols.lookup name = some type → Clashes (baseOf type) value)
      (checkAssignment symbols (.assign .set (.name name) value)) := by
  cases hl : symbols.lookup name with
  | none =>
    have hc : symbols.contains name = false := by rw [SymbolTable.contains, hl]; rfl
    simp only [checkAssignment, hc]
    exact ⟨rfl, fun _ h => by cases h⟩
  | some type =>
    have hc : symbols.contains name = true := by rw [SymbolTable.contains, hl]; rfl
    have hb : symbols.baseType name = baseOf type := by
      rw [SymbolTable.baseType, hl, Option.bind_some, baseOf]
    simp only [checkAssignment, hc, if_true, hb]
    -- the last type that was declared decides
    have known : ∀ {p : String → Prop}, p type → ∀ t, some type = some t → p t := by
      rintro p h _ ⟨⟩
      exact h
    split
    · rename_i h
      exact ⟨rfl, known (.inl h)⟩
    · rename_i h
      exact ⟨rfl, known (.inr h)⟩
    · rename_i text h
      split
      · rename_i hd
        exact ⟨rfl, known (.inr ⟨h, (isDecimal_iff text).1 hd⟩)⟩
      · rename_i hd
        refine ⟨type, rfl, ?_⟩
        rintro (hs | hs)
        · rw [h] at hs
          exact absurd hs (by decide)
        · exact hd ((isDecimal_iff text).2 hs.2)
    · rename_i h
      exact ⟨rfl, known (.inl h)⟩
    · rename_i value _ _ h₁ h₂ h₃ h₄
      refine ⟨type, rfl, fun hc => ?_⟩
      cases value with
      | string text isEndl => exact hc.elim (fun h => h₁ _ _ h rfl) fun h => h₂ _ _ h rfl
      | number text => exact hc.elim (fun h => h₄ _ h rfl) fun h => h₃ _ h.1 rfl
      | _ => exact hc

/-- What the check refuses is a plain assignment to a variable. -/
theorem checkAssignment_refused (symbols : SymbolTable) (e : Expr) :
    Ends (fun _ => True)
      (fun c => ∃ name value, e = .assign .set (.name name) value ∧ c.mismatched = some name ∧
        ∀ type, symbols.lookup name = some type → Clashes (baseOf type) value)
      (checkAssignment symbols e) := by
  cases hc : checkAssignment symbols e with
  | ok _ => trivial
  | error c =>
    unfold checkAssignment at hc
    split at hc
    · rename_i name value
      exact ⟨name, value, rfl, (checkAssignment_set symbols name value).error hc⟩
    · cases hc

/-! ## Accepted programs -/

theorem assignment_of_program {maxDepth : Int} {ts : List Token} {statements : List Stmt}
    {symbols : SymbolTable} (h : program maxDepth ts = .ok (statements, symbols))
    {before after : List Node} {name : String} {value : Expr}
    (he : walk true statements =
      before ++ .stmt (.expression (.assign .set (.name name) value)) :: after) :
    ∃ type, lastDeclared before name = some type ∧ ¬ Clashes (baseOf type) value := by
  have hc := (declares_of_program h).checked he
  rw [← SymbolTable.lookup_empty_declareAll]
  exact (checkAssignment_set _ name value).ok hc

theorem Structural.elim {e : CompileError} {name : String} {P : Prop} (h : Structural e)
    (hm : e.mismatched = some name) : P := by
  rw [show e.mismatched = none from h] at hm
  cases hm

/-! ## The place of a refused assignment -/

section

variable {α β γ : Type}

/-- Of two steps that fail, the first fails or the second does after it. -/
theorem bind_error {ε : Type} {x : Except ε α} {k : α → Except ε β} {e : ε}
    (h : x >>= k = .error e) : x = .error e ∨ ∃ a, x = .ok a ∧ k a = .error e := by
  cases x with
  | error _ =>
    cases h
    exact .inl rfl
  | ok a => exact .inr ⟨a, rfl, h⟩

/-- What is read has the directive `t` somewhere, and with what is declared before it something is
`bad`. -/
def Marked (symbols : SymbolTable) (bad : SymbolTable → Prop) (nodes : α → List Node) (t : Token)
    (made : α × SymbolTable) : Prop :=
  ∃ above below here, walkFrom true (nodes made.1) =
      above ++ .stmt (.header (headerPath t.text)) :: below ∧
    Declares symbols above here ∧ bad here

/-- After some of the tokens, at least one if `deep`, a statement starts; if a directive stands in
its place, the reading can be completed, and the rest of the tokens is `bad` with the symbols that
are declared before the directive. -/
def Blames (deep : Bool) (bad : List Token → SymbolTable → Prop) (symbols : SymbolTable)
    (also : List Token → Prop)
    (read : List Token → Except CompileError ((α × SymbolTable) × List Token))
    (nodes : α → List Node) (ts : List Token) : Prop :=
  ∃ before rest closing, ts = before ++ rest ∧ (deep = true → before ≠ []) ∧
    ∀ t more, t.kind = .header → also more →
      ∃ made, read (before ++ t :: (closing ++ more)) = .ok (made, more) ∧
        Marked symbols (bad rest) nodes t made

/-- The statement that starts here fails with the error `e`, because it is a plain assignment to
`name` that is not allowed with these symbols. -/
def Refused (ctx : Context) (e : CompileError) (name : String) (ts : List Token)
    (symbols : SymbolTable) : Prop :=
  ∃ depth value after, seen (statement { ctx with depth := depth } symbols ts) = .error e ∧
    seen (expression { ctx with depth := depth + 1 } 1 ts) =
      .ok (.assign .set (.name name) value, after) ∧
    ∀ type, symbols.lookup name = some type → Clashes (baseOf type) value

/-- Where the reading fails for a refused assignment, that assignment is to blame. -/
def Blaming (deep : Bool) (ctx : Context) (symbols : SymbolTable) (also : List Token → Prop)
    (read : List Token → Except CompileError ((α × SymbolTable) × List Token))
    (nodes : α → List Node) (ts : List Token) : Prop :=
  ∀ e name, read ts = .error e → e.mismatched = some name →
    Blames deep (Refused ctx e name) symbols also read nodes ts

variable {deep takes : Bool} {bad : List Token → SymbolTable → Prop} {ctx : Context}
  {symbols symbols₁ : SymbolTable} {also also₁ : List Token → Prop} {ts : List Token}
  {nodes : α → List Node} {nodes₁ : β → List Node}
  {read read' : List Token → Except CompileError ((α × SymbolTable) × List Token)}

theorem noElse_header {t : Token} (ht : t.kind = .header) (rest : List Token) : NoElse (t :: rest) := by
  simp [NoElse, startsWith, Token.isA, ht]

/-- A mark below is a mark of the whole, after the nodes that the traversal comes to first. -/
theorem Marked.below {t : Token} {made : β × SymbolTable} {made' : α × SymbolTable}
    {pre post : List Node} {bad : SymbolTable → Prop} (h : Marked symbols₁ bad nodes₁ t made)
    (hw : walkFrom true (nodes made'.1) = pre ++ walkFrom true (nodes₁ made.1) ++ post)
    (hp : Declares symbols pre symbols₁) : Marked symbols bad nodes t made' := by
  obtain ⟨above, below, here, hm, hd, hc⟩ := h
  refine ⟨pre ++ above, below ++ post, here, ?_, hp.append hd, hc⟩
  rw [hw, hm]
  simp only [List.append_assoc, List.cons_append]

namespace Blaming

theorem of_structural (h : Local false NoElse Structural read ts) :
    Blaming deep ctx symbols also read nodes ts := by
  intro e name hr hm
  exact Structural.elim (h.error hr) hm

theorem of_deep (h : Blaming true ctx symbols also read nodes ts) :
    Blaming deep ctx symbols also read nodes ts := by
  intro e name hr hm
  obtain ⟨before, rest, closing, he, hd, hb⟩ := h e name hr hm
  exact ⟨before, rest, closing, he, fun _ => hd rfl, hb⟩

theorem of_eq (he : ∀ ts, read ts = read' ts) (h : Blaming deep ctx symbols also read' nodes ts) :
    Blaming deep ctx symbols also read nodes ts :=
  (funext he : read = read') ▸ h

/-- Of two readings that are the same before a directive and before the tokens themselves. -/
theorem congr (hs : ∀ xs : List Token, xs.head? = ts.head? ∨
      deep = false ∧ (∃ t rest, t.kind = .header ∧ xs = t :: rest) → read xs = read' xs)
    (h : Blaming deep ctx symbols also read' nodes ts) :
    Blaming deep ctx symbols also read nodes ts := by
  intro e name hr hm
  obtain ⟨before, rest, closing, he, hd, hb⟩ := h e name ((hs ts (.inl rfl)).symm.trans hr) hm
  refine ⟨before, rest, closing, he, hd, fun t more ht hm => ?_⟩
  rw [hs]
  · exact hb t more ht hm
  · cases before with
    | nil =>
      cases deep with
      | false => exact .inr ⟨rfl, t, _, ht, rfl⟩
      | true => exact absurd rfl (hd rfl)
    | cons u before =>
      rw [he]
      exact .inl rfl

end Blaming

/-- The blame for what comes after a part that is read, where that part is read the same before a
directive, or something stands between the two. -/
theorem Blames.after {fails : CompileError → Prop}
    {first : List Token → Except CompileError (γ × List Token)}
    {next : γ × List Token → Except CompileError ((α × SymbolTable) × List Token)} {got : γ}
    {left : List Token} (hf : Local takes also₁ fails first ts) (hr : first ts = .ok (got, left))
    (ha : deep = true ∨ ∀ xs, NoElse xs → also₁ xs)
    (h : Blames deep bad symbols also (fun ts => next (got, ts)) nodes left) :
    Blames takes bad symbols also (fun ts => first ts >>= next) nodes ts := by
  obtain ⟨taken, rfl, ht, hl⟩ := hf.ok hr
  obtain ⟨before, rest, closing, he, hd, hb⟩ := h
  dsimp only at he hl
  refine ⟨taken ++ before, rest, closing, ?_, ?_, fun t more hk hm => ?_⟩
  · rw [List.append_assoc, ← he]
  · intro h hnil
    exact ht h (List.append_eq_nil_iff.1 hnil).1
  · have hfirst : first (taken ++ (before ++ t :: (closing ++ more))) =
        .ok (got, before ++ t :: (closing ++ more)) := by
      refine hl _ ?_
      rw [he]
      cases before with
      | nil => exact .inr (ha.elim (fun h => absurd rfl (hd h)) fun ha => ha _ (noElse_header hk _))
      | cons u before => exact .inl rfl
    rw [List.append_assoc]
    obtain ⟨made, hmade, hmark⟩ := hb t more hk hm
    exact ⟨made, (congrArg (· >>= next) hfirst).trans hmade, hmark⟩

/-- `closing`, put after a part, completes the whole, and the nodes of the part come after others in
the traversal, which take the symbols from those before the whole to those before the part. -/
def Completes (symbols symbols₁ : SymbolTable) (also also₁ : List Token → Prop)
    (next : (β × SymbolTable) × List Token → Except CompileError ((α × SymbolTable) × List Token))
    (nodes : α → List Node) (nodes₁ : β → List Node) (closing : List Token) : Prop :=
  ∀ more, also more → also₁ (closing ++ more) ∧
    ∀ made, ∃ made' pre post, next (made, closing ++ more) = .ok (made', more) ∧
      walkFrom true (nodes made'.1) = pre ++ walkFrom true (nodes₁ made.1) ++ post ∧
      Declares symbols pre symbols₁

/-- The blame for a part is one for the whole, if the whole can be completed after the part. -/
theorem Blames.inside {first : List Token → Except CompileError ((β × SymbolTable) × List Token)}
    {next : (β × SymbolTable) × List Token → Except CompileError ((α × SymbolTable) × List Token)}
    {closing : List Token} (h : Blames deep bad symbols₁ also₁ first nodes₁ ts)
    (hc : Completes symbols symbols₁ also also₁ next nodes nodes₁ closing) :
    Blames deep bad symbols also (fun ts => first ts >>= next) nodes ts := by
  obtain ⟨before, rest, ending, he, hd, hb⟩ := h
  refine ⟨before, rest, ending ++ closing, he, hd, fun t more hk hm => ?_⟩
  obtain ⟨ha, hc⟩ := hc more hm
  obtain ⟨made, hmade, hmark⟩ := hb t (closing ++ more) hk ha
  obtain ⟨made', pre, post, hnext, hw, hp⟩ := hc made
  refine ⟨made', ?_, hmark.below hw hp⟩
  rw [List.append_assoc]
  exact (congrArg (· >>= next) hmade).trans hnext

namespace Blaming

/-- After a part that is read without a refused assignment. -/
theorem after {first : List Token → Except CompileError (γ × List Token)}
    {next : γ × List Token → Except CompileError ((α × SymbolTable) × List Token)}
    (hf : Local takes NoElse Structural first ts)
    (hn : ∀ got rest, first ts = .ok (got, rest) →
      Blaming false ctx symbols also (fun ts => next (got, ts)) nodes rest) :
    Blaming takes ctx symbols also (fun ts => first ts >>= next) nodes ts := by
  intro e name hr hm
  rcases bind_error hr with hr | ⟨got, hr, hx⟩
  · exact Structural.elim (hf.error hr) hm
  · exact .after hf hr (.inr fun _ h => h) (hn got.1 got.2 hr e name hx hm)

/-- The same after a part that looks at the next token, if something is read before the place of an
assignment. -/
theorem afterPeek {first : List Token → Except CompileError (γ × List Token)}
    {next : γ × List Token → Except CompileError ((α × SymbolTable) × List Token)}
    (hf : Local takes Nothing Structural first ts)
    (hn : ∀ got rest, first ts = .ok (got, rest) →
      Blaming true ctx symbols also (fun ts => next (got, ts)) nodes rest) :
    Blaming takes ctx symbols also (fun ts => first ts >>= next) nodes ts := by
  intro e name hr hm
  rcases bind_error hr with hr | ⟨got, hr, hx⟩
  · exact Structural.elim (hf.error hr) hm
  · exact .after hf hr (.inl rfl) (hn got.1 got.2 hr e name hx hm)

/-- A part in which an assignment may be refused, and what comes after it. -/
theorem inside {first : List Token → Except CompileError ((β × SymbolTable) × List Token)}
    {next : (β × SymbolTable) × List Token → Except CompileError ((α × SymbolTable) × List Token)}
    (hf : Local takes NoElse (fun _ => True) first ts)
    (hb : Blaming takes ctx symbols₁ also₁ first nodes₁ ts)
    (hc : ∀ e name, first ts = .error e → e.mismatched = some name →
      ∃ closing, Completes symbols symbols₁ also also₁ next nodes nodes₁ closing)
    (hn : ∀ got rest, first ts = .ok (got, rest) →
      Blaming false ctx symbols also (fun ts => next (got, ts)) nodes rest) :
    Blaming takes ctx symbols also (fun ts => first ts >>= next) nodes ts := by
  intro e name hr hm
  rcases bind_error hr with hr | ⟨got, hr, hx⟩
  · obtain ⟨closing, hc⟩ := hc e name hr hm
    exact (hb e name hr hm).inside hc
  · exact .after hf hr (.inr fun _ h => h) (hn got.1 got.2 hr e name hx hm)

/-- The same if after the part no other assignment may be refused. -/
theorem last {first : List Token → Except CompileError ((β × SymbolTable) × List Token)}
    {next : (β × SymbolTable) × List Token → Except CompileError ((α × SymbolTable) × List Token)}
    (hb : Blaming deep ctx symbols₁ also₁ first nodes₁ ts)
    (hc : ∀ e name, first ts = .error e → e.mismatched = some name →
      ∃ closing, Completes symbols symbols₁ also also₁ next nodes nodes₁ closing)
    (hn : ∀ got rest, Local false NoElse Structural (fun ts => next (got, ts)) rest) :
    Blaming deep ctx symbols also (fun ts => first ts >>= next) nodes ts := by
  intro e name hr hm
  rcases bind_error hr with hr | ⟨got, hr, hx⟩
  · obtain ⟨closing, hc⟩ := hc e name hr hm
    exact (hb e name hr hm).inside hc
  · exact Structural.elim ((hn got.1 got.2).error hx) hm

/-- A choice by the next token, which is made in the same way where a directive comes next. -/
theorem skip {test : List Token → Bool}
    {yes no : List Token → Except CompileError ((α × SymbolTable) × List Token)}
    (ht : ∀ xs ys : List Token, xs.head? = ys.head? → test xs = test ys)
    (hh : ∀ t rest, t.kind = .header → test (t :: rest) = false)
    (hy : test ts = true → Local false NoElse Structural yes ts)
    (hn : test ts = false → Blaming false ctx symbols also no nodes ts) :
    Blaming false ctx symbols also (fun ts => if test ts = true then yes ts else no ts) nodes ts := by
  cases hc : test ts with
  | true =>
    intro e name hr hm
    dsimp only at hr
    rw [if_pos hc] at hr
    exact Structural.elim ((hy hc).error hr) hm
  | false =>
    refine .congr (fun xs hx => if_neg ?_) (hn hc)
    rcases hx with hx | ⟨-, t, rest, hk, rfl⟩
    · rw [ht xs ts hx, hc]
      decide
    · rw [hh t rest hk]
      decide

/-- A choice by the next token, which is read before the place of an assignment. -/
theorem pick {test : List Token → Bool}
    {yes no : List Token → Except CompileError ((α × SymbolTable) × List Token)}
    (ht : ∀ xs ys : List Token, xs.head? = ys.head? → test xs = test ys)
    (hy : test ts = true → Blaming true ctx symbols also yes nodes ts)
    (hn : test ts = false → Local false NoElse Structural no ts) :
    Blaming deep ctx symbols also (fun ts => if test ts = true then yes ts else no ts) nodes ts := by
  cases hc : test ts with
  | true =>
    refine of_deep (.congr (fun xs hx => if_pos ?_) (hy hc))
    rcases hx with hx | ⟨h, -⟩
    · rw [ht xs ts hx, hc]
    · cases h
  | false =>
    intro e name hr hm
    dsimp only at hr
    rw [if_neg (by rw [hc]; decide)] at hr
    exact Structural.elim ((hn hc).error hr) hm

end Blaming

end

/-! ## Statements that fail -/

section

variable {ctx ctx' : Context} {symbols : SymbolTable} {t : Token} {rest : List Token}

theorem enter_ok {e : Context} (h : ctx.enter t = .ok e) :
    (ctx.depth + 1 : Nat) ≤ ctx.maxDepth ∧ e = { ctx with depth := ctx.depth + 1 } := by
  unfold Context.enter at h
  split at h
  · cases h
  · rename_i hd
    cases h
    exact ⟨by omega, rfl⟩

theorem walk_node (node : Node) : walkFrom true [node] = node :: walkFrom true node.children := by
  rw [walkFrom, List.append_nil, Node.visited_true]

theorem walk_leaf {node : Node} (h : node.children = []) : walkFrom true [node] = [node] := by
  rw [walk_node, h, walkFrom]

/-- A statement that fails for a refused assignment was entered. -/
theorem room_of_refused {ts : List Token} {e : CompileError} {name : String}
    (h : seen (statement ctx symbols ts) = .error e) (hm : e.mismatched = some name) :
    (ctx.depth + 1 : Nat) ≤ ctx.maxDepth := by
  cases ts with
  | nil =>
    rw [seen_statement_nil] at h
    cases h
    cases hm
  | cons t rest =>
    rw [seen_statement_cons] at h
    rcases bind_error h with h | ⟨ctx', h, -⟩
    · exact Structural.elim (structural_enter e h) hm
    · exact (enter_ok h).1

/-- An expression statement is refused for its own assignment. -/
theorem expressionStatement_refused {ts : List Token} {e : CompileError} {name : String}
    (h : seen (expressionStatement ctx symbols t ts) = .error e) (hm : e.mismatched = some name) :
    ∃ value after, seen (expression ctx 1 ts) = .ok (.assign .set (.name name) value, after) ∧
      ∀ type, symbols.lookup name = some type → Clashes (baseOf type) value := by
  rw [seen_expressionStatement] at h
  cases hc : seen (checkedExpression ctx symbols ts) with
  | ok _ =>
    rw [hc] at h
    cases h
  | error cause =>
    rw [hc] at h
    cases h
    rw [CompileError.mismatched_inStatement] at hm
    rw [seen_checkedExpression] at hc
    rcases bind_error hc with hx | ⟨⟨e, after⟩, hx, hc⟩
    · exact Structural.elim ((expression_local false ctx 1 ts).error hx) hm
    rcases bind_error hc with ha | ⟨_, -, hc⟩
    · obtain ⟨found, value, rfl, hf, hv⟩ := (checkAssignment_refused symbols e).error ha
      rw [hf] at hm
      cases hm
      exact ⟨value, after, hx, hv⟩
    rcases bind_error hc with hl | ⟨_, -, hc⟩
    · have hs : Local false NoElse Structural (fun ts => seen (consume .delimiter ";" ts)) after :=
        local_consume
      exact Structural.elim (hs.error hl) hm
    · cases hc

theorem seen_statement_header {u : Token} (hd : (ctx.depth + 1 : Nat) ≤ ctx.maxDepth)
    (hk : u.kind = .header) :
    seen (statement ctx symbols (u :: rest)) = .ok ((.header (headerPath u.text), symbols), rest) := by
  rw [seen_statement_cons, Context.enter_ok hd]
  unfold started
  rw [hk]
  rfl

theorem blaming_expressionStatement
    (hs : ∀ ctx rest, started ctx symbols t rest =
      kept symbols (seen (expressionStatement ctx symbols t (t :: rest)))) :
    Blaming false ctx symbols NoElse (fun ts => seen (statement ctx symbols ts))
      (fun s => [.stmt s]) (t :: rest) := by
  intro e name hr hm
  have hd := room_of_refused hr hm
  have hx := hr
  dsimp only at hx
  rw [seen_statement_cons, Context.enter_ok hd] at hx
  change started _ symbols t rest = .error e at hx
  rw [hs] at hx
  cases he : seen (expressionStatement _ symbols t (t :: rest)) with
  | error _ =>
    rw [he] at hx
    cases hx
    obtain ⟨value, after, hv, hc⟩ := expressionStatement_refused he hm
    refine ⟨[], t :: rest, [], rfl, fun h => (by cases h), fun u more hk _ => ?_⟩
    refine ⟨_, seen_statement_header hd hk, [], [], symbols, walk_leaf rfl, .nil, ?_⟩
    exact ⟨ctx.depth, value, after, hr, hv, hc⟩
  | ok made =>
    rw [he] at hx
    cases hx

/-- A statement whose parser goes by its first token. -/
theorem Blaming.cons
    (h : ∀ ctx, Blaming false ctx symbols NoElse (fun rest => started ctx symbols t rest)
      (fun s => [.stmt s]) rest) :
    Blaming false ctx symbols NoElse (fun ts => seen (statement ctx symbols ts))
      (fun s => [.stmt s]) (t :: rest) := by
  intro e name hr hm
  have hd := room_of_refused hr hm
  have hs : ∀ rest, seen (statement ctx symbols (t :: rest)) =
      started { ctx with depth := ctx.depth + 1 } symbols t rest := fun rest => by
    rw [seen_statement_cons, Context.enter_ok hd]
    rfl
  obtain ⟨before, rest', closing, rfl, -, hb⟩ := h _ e name ((hs rest).symm.trans hr) hm
  refine ⟨t :: before, rest', closing, rfl, fun h => (by cases h), fun u more hk hmore => ?_⟩
  obtain ⟨made, hmade, hmark⟩ := hb u more hk hmore
  exact ⟨made, (hs _).trans hmade, hmark⟩

/-- Of a reading that takes a token, what it does after that token. -/
theorem Blaming.tail {α : Type} {nodes : α → List Node} {also : List Token → Prop}
    {read : List Token → Except CompileError ((α × SymbolTable) × List Token)}
    (h : Blaming true ctx symbols also read nodes (t :: rest)) :
    Blaming false ctx symbols also (fun rest => read (t :: rest)) nodes rest := by
  intro e name hr hm
  obtain ⟨before, rest', closing, he, hd, hb⟩ := h e name hr hm
  cases before with
  | nil => exact absurd rfl (hd rfl)
  | cons u before =>
    obtain ⟨rfl, rfl⟩ := List.cons.inj he
    exact ⟨before, rest', closing, rfl, fun h => (by cases h), hb⟩

end

/-! ## Statements -/

section

variable {ctx : Context} {symbols : SymbolTable}

/-- The end of a `do` loop. -/
def doEnding : List Token :=
  [⟨.keyword, "while", 0⟩, ⟨.delimiter, "(", 0⟩, ⟨.number, "1", 0⟩, ⟨.delimiter, ")", 0⟩,
   ⟨.delimiter, ";", 0⟩]

/-- The rest of a `for` loop after its initializer. -/
def forEnding : List Token :=
  [⟨.delimiter, ";", 0⟩, ⟨.delimiter, ")", 0⟩, ⟨.delimiter, "\x7b", 0⟩, ⟨.delimiter, "\x7d", 0⟩]

/-- The condition of `doEnding`. -/
theorem seen_condition_one (hd : (ctx.depth + 1 : Nat) ≤ ctx.maxDepth) (more : List Token) :
    seen (condition ctx (⟨.delimiter, "(", 0⟩ :: ⟨.number, "1", 0⟩ :: ⟨.delimiter, ")", 0⟩ :: more)) =
      .ok (.number "1", more) := by
  have he : seen (expression ctx 1 (⟨.number, "1", 0⟩ :: ⟨.delimiter, ")", 0⟩ :: more)) =
      .ok (.number "1", ⟨.delimiter, ")", 0⟩ :: more) := by
    rw [seen_expression, seen_primary_cons, Context.enter_ok hd]
    change glimpsed (climb ctx 1 (.number "1") _) = _
    rw [glimpsed_climb_cons]
    rfl
  rw [seen_condition]
  change seen (expression ctx 1 _) >>= _ = _
  rw [he]
  rfl

/-- A condition or update that is left out, as in `forEnding`. -/
theorem seen_optionalExpression_none (close : String) (more : List Token) :
    seen (optionalExpression ctx close (⟨.delimiter, close, 0⟩ :: more)) = .ok (none, more) := by
  have ht : Token.isA ⟨.delimiter, close, 0⟩ .delimiter close = true := by simp [Token.isA]
  rw [seen_optionalExpression, startsWith, if_pos ht, seen_consume .delimiter close more ht]
  rfl

/-- An initializer that fails for a refused assignment was entered. -/
theorem room_of_forInit_refused {ts : List Token} {e : CompileError} {name : String}
    (h : seen (forInit ctx symbols ts) = .error e) (hm : e.mismatched = some name) :
    (ctx.depth + 1 : Nat) ≤ ctx.maxDepth := by
  rw [seen_forInit] at h
  split at h
  · rcases bind_error h with h | ⟨_, -, h⟩
    · have hc : Local false NoElse Structural (fun ts => seen (consume .delimiter ";" ts)) ts :=
        local_consume
      exact Structural.elim (hc.error h) hm
    · cases h
  · rcases bind_error h with h | ⟨_, -, h⟩
    · exact room_of_refused h hm
    · cases h

/-- The body of `forEnding`. -/
theorem seen_statement_braces (hd : (ctx.depth + 1 : Nat) ≤ ctx.maxDepth) (more : List Token) :
    seen (statement ctx symbols (⟨.delimiter, "\x7b", 0⟩ :: ⟨.delimiter, "\x7d", 0⟩ :: more)) =
      .ok ((.block [], symbols), more) := by
  rw [seen_statement_cons, Context.enter_ok hd]
  dsimp only [bind, Except.bind, started]
  rw [if_pos (by decide), seen_block]
  dsimp only [consume, seen, Except.map, bind, Except.bind]
  rw [if_pos (by decide)]
  dsimp only
  rw [glimpsed_blockBody]
  rfl

/-- A part of a statement: the statement has the part below it, after nodes that are read before. -/
theorem Completes.part {β : Type} {symbols symbols₁ : SymbolTable} {also also₁ : List Token → Prop}
    {next : (β × SymbolTable) × List Token → Except CompileError ((Stmt × SymbolTable) × List Token)}
    {nodes₁ : β → List Node} {closing : List Token}
    (ha : ∀ more, also more → also₁ (closing ++ more))
    (hx : ∀ made more, also more → ∃ s symbols' before after,
      next (made, closing ++ more) = .ok ((s, symbols'), more) ∧
      (Node.stmt s).children = before ++ nodes₁ made.1 ++ after ∧ (∀ e, s ≠ .expression e) ∧
      Enters (symbols.declareAll (declarations [.stmt s])) before symbols₁) :
    Completes symbols symbols₁ also also₁ next (fun s => [.stmt s]) nodes₁ closing := by
  refine fun more hm => ⟨ha more hm, fun made => ?_⟩
  obtain ⟨s, symbols', before, after, hn, hc, hs, hb⟩ := hx made more hm
  refine ⟨(s, symbols'), .stmt s :: walkFrom true before, walkFrom true after, hn, ?_, ?_⟩
  · rw [walk_node, hc, Node.walkFrom_append, Node.walkFrom_append]
    rfl
  · exact .cons (fun e h => absurd (Node.stmt.inj h) (hs e)) hb

/-- Tokens at which a list of statements ends. -/
def Closing (ts : List Token) : Prop := (ts.isEmpty || startsWith .delimiter "\x7d" ts) = true

theorem noElse_of_closing {ts : List Token} (h : Closing ts) : NoElse ts := by
  cases ts with
  | nil => rfl
  | cons t rest =>
    have ht : t.isA .delimiter "\x7d" = true := h
    rw [Token.isA, Bool.and_eq_true, beq_iff_eq, beq_iff_eq] at ht
    simp [NoElse, startsWith, Token.isA, ht.1]

theorem glimpsed_blockBody_closing {ts : List Token} (h : Closing ts) :
    glimpsed (blockBody ctx symbols ts) = .ok (([], symbols), ts) := by
  rw [glimpsed_blockBody]
  exact if_pos h

mutual

theorem statement_blames (ctx : Context) (symbols : SymbolTable) (ts : List Token) :
    Blaming false ctx symbols NoElse (fun ts => seen (statement ctx symbols ts))
      (fun s => [.stmt s]) ts := by
  match ts with
  | [] =>
    intro e name hr hm
    dsimp only at hr
    rw [seen_statement_nil] at hr
    cases hr
    cases hm
  | t :: rest =>
    cases hk : t.kind with
    | header =>
      refine .cons fun ctx => ?_
      unfold started
      rw [hk]
      exact .of_structural (.pure _)
    | keyword =>
      refine .cons fun ctx => ?_
      unfold started
      rw [hk]
      dsimp only
      split
      · exact (ifStatement_blames ctx symbols (t :: rest)).tail
      · exact (whileStatement_blames ctx symbols (t :: rest)).tail
      · exact (doStatement_blames ctx symbols (t :: rest)).tail
      · exact (forStatement_blames ctx symbols (t :: rest)).tail
      · exact .of_structural local_returnStatement.kept.tail
      · exact .of_structural local_bareStatement.kept.tail
      · exact .of_structural local_bareStatement.kept.tail
      · exact .of_structural local_inputStatement.kept.tail
      · exact .of_structural local_printStatement.kept.tail
      · exact .of_structural local_usingDirective.kept.tail
      · split
        · exact (declaration_blames ctx symbols (t :: rest)).tail
        · exact .of_structural (.of_error rfl rfl)
    | delimiter =>
      by_cases hb : (t.text == "\x7b") = true
      · refine .cons fun ctx => ?_
        unfold started
        rw [hk]
        simp only [hb, if_true]
        have hr : Blaming true ctx symbols NoElse (fun ts => seen (block ctx symbols ts) >>=
            fun body => .ok ((.block body.1.1, body.1.2), body.2)) (fun s => [.stmt s]) (t :: rest) := by
          refine .last (block_blames ctx symbols (t :: rest)) (fun _ _ _ _ => ?_) fun _ _ => .pure _
          refine ⟨[], .part (fun _ h => h) fun made more _ => ?_⟩
          exact ⟨_, _, [], [], rfl, (List.append_nil _).symm, fun _ h => (by cases h), .nil⟩
        exact hr.tail
      · refine blaming_expressionStatement fun ctx rest => ?_
        unfold started
        rw [hk]
        exact if_neg hb
    | operator | identifier | number | char | string | stream | scope =>
      refine blaming_expressionStatement fun ctx rest => ?_
      unfold started
      rw [hk]
termination_by (ts.length, 2)
decreasing_by all_goals decreasing_with omega

theorem declaration_blames (ctx : Context) (symbols : SymbolTable) (ts : List Token) :
    Blaming true ctx symbols NoElse (fun ts => seen (declaration ctx symbols ts))
      (fun s => [.stmt s]) ts := by
  refine .of_eq (seen_declaration ctx symbols) ?_
  refine .afterPeek local_typeName fun type after h => ?_
  have hl : after.length < ts.length := seen_shorter h
  refine .after local_consumeKind fun name after h => ?_
  have hl : after.length < ts.length := Nat.lt_trans (seen_shorter h) hl
  refine .pick startsWith_head (fun _ => ?_) fun _ => local_variableRest
  refine .after local_parameterList fun params after h => ?_
  have hp := parameterList_declared.ok h
  have hl : after.length < ts.length := Nat.lt_trans (seen_shorter h) hl
  refine .pick startsWith_head (fun _ => ?_) fun _ =>
    local_consume.bind (fun _ _ _ => .pure _) fun _ h => h
  refine .last (block_blames ctx params.2 after) (fun _ _ _ _ => ?_) fun _ _ => .pure _
  refine ⟨[], fun more hm => ⟨hm, fun made => ?_⟩⟩
  -- the function, its parameters and its body, as a block
  have below : Enters (symbols.declare name.text type) (params.1.map .param) params.2 :=
    hp ▸ .params params.1
  refine ⟨(.function type name.text params.1 made.1, made.2),
    .stmt (.function type name.text params.1 made.1) ::
      (walkFrom true (params.1.map .param) ++ [.stmt (.block made.1)]), [], rfl, ?_, ?_⟩
  · rw [List.append_nil, walk_node]
    change _ :: walkFrom true (params.1.map .param ++ [.stmt (.block made.1)]) = _
    rw [Node.walkFrom_append, walk_node (.stmt (.block made.1))]
    simp only [List.cons_append, List.append_assoc, List.nil_append]
    rfl
  · refine .cons (fun e h => (by cases h)) (Declares.append below ?_)
    exact .cons (fun e h => (by cases h)) .nil
termination_by (ts.length, 1)
decreasing_by all_goals decreasing_with omega

theorem block_blames (ctx : Context) (symbols : SymbolTable) (ts : List Token) :
    Blaming true ctx symbols NoElse (fun ts => seen (block ctx symbols ts)) (·.map .stmt) ts := by
  refine .of_eq (seen_block ctx symbols) ?_
  refine .after local_consume fun _ after h => ?_
  have hl : after.length < ts.length := seen_shorter h
  refine .last (blockBody_blames ctx symbols after) (fun _ _ _ _ => ?_) fun _ _ =>
    local_consume.bind (fun _ _ _ => .pure _) fun _ h => h
  refine ⟨[⟨.delimiter, "\x7d", 0⟩], fun more _ => ⟨rfl, fun made => ?_⟩⟩
  exact ⟨made, [], [], rfl, (List.append_nil _).symm, .nil⟩
termination_by (ts.length, 0)
decreasing_by all_goals decreasing_with omega

theorem blockBody_blames (ctx : Context) (symbols : SymbolTable) (ts : List Token) :
    Blaming false ctx symbols Closing (fun ts => glimpsed (blockBody ctx symbols ts))
      (·.map .stmt) ts := by
  refine .of_eq (glimpsed_blockBody ctx symbols) ?_
  refine .skip closes_head (fun t rest hk => by simp [startsWith, Token.isA, hk]) (fun _ => .pure _)
    fun _ => ?_
  refine .inside (statement_local false ctx symbols ts) (statement_blames ctx symbols ts) ?_ ?_
  · -- the statement is the last one
    refine fun _ _ _ _ => ⟨[], fun more hm => ⟨noElse_of_closing hm, fun made => ?_⟩⟩
    refine ⟨([made.1], made.2), [], [], ?_, (List.append_nil _).symm, .nil⟩
    change glimpsed (blockBody ctx made.2 more) >>= _ = _
    rw [glimpsed_blockBody_closing hm]
    rfl
  · intro first after h
    have hl : after.length < ts.length := seen_shorter h
    have hf := (statement_entered ctx symbols ts).ok h
    refine .last (blockBody_blames ctx first.2 after) (fun _ _ _ _ => ?_) fun _ _ => .pure _
    refine ⟨[], fun more hm => ⟨hm, fun made => ?_⟩⟩
    refine ⟨(first.1 :: made.1, made.2), walkFrom true [.stmt first.1], [], rfl, ?_, hf⟩
    rw [List.append_nil, ← Node.walkFrom_append]
    rfl
termination_by (ts.length, 3)
decreasing_by all_goals decreasing_with omega

theorem ifStatement_blames (ctx : Context) (symbols : SymbolTable) (ts : List Token) :
    Blaming true ctx symbols NoElse (fun ts => seen (ifStatement ctx symbols ts))
      (fun s => [.stmt s]) ts := by
  refine .of_eq (seen_ifStatement ctx symbols) ?_
  refine .after local_consume fun _ after h => ?_
  have hl : after.length < ts.length := seen_shorter h
  refine .after local_condition fun cond after h => ?_
  have hl : after.length < ts.length := Nat.lt_trans (seen_shorter h) hl
  refine .inside (statement_local false ctx symbols after) (statement_blames ctx symbols after) ?_ ?_
  · -- the branch is the only one
    refine fun _ _ _ _ => ⟨[], .part (fun _ h => h) fun made more hm => ?_⟩
    refine ⟨_, _, [.expr cond], [], if_neg ?_, rfl, fun _ h => (by cases h), .expr cond⟩
    rw [List.nil_append, hm]
    decide
  · intro thenStmt after h
    have ht := (statement_entered ctx symbols _).ok h
    have hl : after.length < ts.length := Nat.lt_trans (seen_shorter h) hl
    refine .pick startsWith_head (fun _ => ?_) fun _ => .pure _
    refine .after local_consume fun _ after h => ?_
    have hl : after.length < ts.length := Nat.lt_trans (seen_shorter h) hl
    refine .last (statement_blames ctx thenStmt.2 after) (fun _ _ _ _ => ?_) fun _ _ => .pure _
    refine ⟨[], .part (fun _ h => h) fun made more _ => ?_⟩
    exact ⟨_, _, [.expr cond, .stmt thenStmt.1], [], rfl, rfl, fun _ h => (by cases h),
      (Enters.expr cond).cons ht⟩
termination_by (ts.length, 0)
decreasing_by all_goals decreasing_with omega

theorem whileStatement_blames (ctx : Context) (symbols : SymbolTable) (ts : List Token) :
    Blaming true ctx symbols NoElse (fun ts => seen (whileStatement ctx symbols ts))
      (fun s => [.stmt s]) ts := by
  refine .of_eq (seen_whileStatement ctx symbols) ?_
  refine .after local_consume fun _ after h => ?_
  have hl : after.length < ts.length := seen_shorter h
  refine .after local_condition fun cond after h => ?_
  have hl : after.length < ts.length := Nat.lt_trans (seen_shorter h) hl
  refine .last (statement_blames ctx symbols after) (fun _ _ _ _ => ?_) fun _ _ => .pure _
  refine ⟨[], .part (fun _ h => h) fun made more _ => ?_⟩
  exact ⟨_, _, [.expr cond], [], rfl, rfl, fun _ h => (by cases h), .expr cond⟩
termination_by (ts.length, 0)
decreasing_by all_goals decreasing_with omega

theorem doStatement_blames (ctx : Context) (symbols : SymbolTable) (ts : List Token) :
    Blaming true ctx symbols NoElse (fun ts => seen (doStatement ctx symbols ts))
      (fun s => [.stmt s]) ts := by
  refine .of_eq (seen_doStatement ctx symbols) ?_
  refine .after local_consume fun _ after h => ?_
  have hl : after.length < ts.length := seen_shorter h
  refine .last (statement_blames ctx symbols after) (fun e name hr hm => ?_) fun _ _ => ?_
  · refine ⟨doEnding, .part (fun _ _ => rfl) fun made more _ => ?_⟩
    refine ⟨.doLoop (.number "1") made.1, made.2, [.expr (.number "1")], [], ?_, rfl,
      fun _ h => (by cases h), .expr _⟩
    change (seen (condition ctx (⟨.delimiter, "(", 0⟩ :: ⟨.number, "1", 0⟩ ::
      ⟨.delimiter, ")", 0⟩ :: ⟨.delimiter, ";", 0⟩ :: more)) >>= fun cond => _) = _
    rw [seen_condition_one (room_of_refused hr hm)]
    rfl
  · refine local_consume.bind (fun _ _ _ => ?_) fun _ h => h
    refine local_condition.bind (fun _ _ _ => ?_) fun _ h => h
    exact local_consume.bind (fun _ _ _ => .pure _) fun _ h => h
termination_by (ts.length, 0)
decreasing_by all_goals decreasing_with omega

theorem forStatement_blames (ctx : Context) (symbols : SymbolTable) (ts : List Token) :
    Blaming true ctx symbols NoElse (fun ts => seen (forStatement ctx symbols ts))
      (fun s => [.stmt s]) ts := by
  refine .of_eq (seen_forStatement ctx symbols) ?_
  refine .after local_consume fun _ after h => ?_
  have hl : after.length < ts.length := seen_shorter h
  refine .after local_consume fun _ after h => ?_
  have hl : after.length < ts.length := Nat.lt_trans (seen_shorter h) hl
  refine .inside (forInit_local ctx symbols after) (forInit_blames ctx symbols after) ?_ ?_
  · refine fun e name hr hm => ⟨forEnding, .part (fun _ _ => rfl) fun made more _ => ?_⟩
    -- a refused initializer is completed by a loop without condition, update and body
    refine ⟨.forLoop made.1 (.bool true) none (.block []), made.2, [],
      [.expr (.bool true), .stmt (.block [])], ?_, rfl, fun _ h => (by cases h), .nil⟩
    change (seen (optionalExpression ctx ";" (⟨.delimiter, ";", 0⟩ :: ⟨.delimiter, ")", 0⟩ ::
      ⟨.delimiter, "\x7b", 0⟩ :: ⟨.delimiter, "\x7d", 0⟩ :: more)) >>= fun cond => _) = _
    rw [seen_optionalExpression_none]
    change (seen (optionalExpression ctx ")" (⟨.delimiter, ")", 0⟩ ::
      ⟨.delimiter, "\x7b", 0⟩ :: ⟨.delimiter, "\x7d", 0⟩ :: more)) >>= fun update => _) = _
    rw [seen_optionalExpression_none]
    change (seen (statement ctx made.2 (⟨.delimiter, "\x7b", 0⟩ :: ⟨.delimiter, "\x7d", 0⟩ ::
      more)) >>= fun body => _) = _
    rw [seen_statement_braces (room_of_forInit_refused hr hm)]
    rfl
  · intro init after h
    have hi := (forInit_entered ctx symbols _).ok h
    have hl : after.length < ts.length := Nat.lt_trans (seen_shorter h) hl
    refine .after local_optionalExpression fun cond after h => ?_
    have hl : after.length < ts.length := Nat.lt_trans (seen_shorter h) hl
    refine .after local_optionalExpression fun update after h => ?_
    have hl : after.length < ts.length := Nat.lt_trans (seen_shorter h) hl
    refine .last (statement_blames ctx init.2 after) (fun _ _ _ _ => ?_) fun _ _ => .pure _
    refine ⟨[], .part (fun _ h => h) fun made more _ => ?_⟩
    refine ⟨.forLoop init.1 (cond.getD (.bool true)) update made.1, made.2,
      init.1.toList.map Node.stmt ++ Node.expr (cond.getD (.bool true)) ::
        update.toList.map Node.expr, [], rfl, ?_, fun _ h => (by cases h), ?_⟩
    · simp [Node.children]
    · exact Enters.append hi ((Enters.expr _).cons (.exprs update.toList))
termination_by (ts.length, 0)
decreasing_by all_goals decreasing_with omega

theorem forInit_blames (ctx : Context) (symbols : SymbolTable) (ts : List Token) :
    Blaming false ctx symbols NoElse (fun ts => seen (forInit ctx symbols ts))
      (·.toList.map .stmt) ts := by
  refine .of_eq (seen_forInit ctx symbols) ?_
  refine .skip startsWith_head (fun t rest hk => by simp [startsWith, Token.isA, hk]) (fun _ => ?_)
    fun _ => ?_
  · exact local_consume.bind (fun _ _ _ => .pure _) fun _ h => h
  · refine .last (statement_blames ctx symbols ts) (fun _ _ _ _ => ?_) fun _ _ => .pure _
    refine ⟨[], fun more hm => ⟨hm, fun made => ?_⟩⟩
    exact ⟨(some made.1, made.2), [], [], rfl, (List.append_nil _).symm, .nil⟩
termination_by (ts.length, 3)
decreasing_by all_goals decreasing_with omega

end

/-! ## Programs -/

/-- A program, of which no tokens are left. -/
def whole (ctx : Context) (symbols : SymbolTable) (ts : List Token) :
    Except CompileError ((List Stmt × SymbolTable) × List Token) :=
  (programFrom ctx symbols ts).map fun made => (made, [])

theorem whole_nil : whole ctx symbols [] = .ok (([], symbols), []) := by
  rw [whole, programFrom_eq]
  rfl

theorem whole_cons (t : Token) (rest : List Token) :
    whole ctx symbols (t :: rest) =
      seen (statement ctx symbols (t :: rest)) >>= fun first =>
        whole ctx first.1.2 first.2 >>= fun others =>
          .ok ((first.1.1 :: others.1.1, others.1.2), others.2) := by
  unfold whole
  rw [programFrom_cons]
  cases seen (statement ctx symbols (t :: rest)) with
  | error _ => rfl
  | ok first =>
    simp only [bind, Except.bind]
    cases programFrom ctx first.1.2 first.2 <;> rfl

theorem whole_blames (ctx : Context) (symbols : SymbolTable) (ts : List Token) :
    Blaming false ctx symbols (· = []) (fun ts => whole ctx symbols ts) (·.map .stmt) ts := by
  match ts with
  | [] =>
    intro e name hr hm
    dsimp only at hr
    rw [whole_nil] at hr
    cases hr
  | t :: rest =>
    have hs : Blaming false ctx symbols (· = []) (fun ts => seen (statement ctx symbols ts) >>=
        fun first => whole ctx first.1.2 first.2 >>= fun others =>
          .ok ((first.1.1 :: others.1.1, others.1.2), others.2)) (·.map .stmt) (t :: rest) := by
      refine .inside (statement_local false ctx symbols (t :: rest))
        (statement_blames ctx symbols (t :: rest)) ?_ ?_
      · -- the statement is the last one
        refine fun _ _ _ _ => ⟨[], fun more hm => ?_⟩
        subst hm
        refine ⟨rfl, fun made => ⟨([made.1], made.2), [], [], ?_, (List.append_nil _).symm, .nil⟩⟩
        change whole ctx made.2 [] >>= _ = _
        rw [whole_nil]
        rfl
      · intro first after h
        have hl : after.length < rest.length + 1 := seen_shorter h
        have hf := (statement_entered ctx symbols (t :: rest)).ok h
        refine .last (whole_blames ctx first.2 after) (fun _ _ _ _ => ?_) fun _ _ => .pure _
        refine ⟨[], fun more hm => ⟨hm, fun made => ?_⟩⟩
        refine ⟨(first.1 :: made.1, made.2), walkFrom true [.stmt first.1], [], rfl, ?_, hf⟩
        rw [List.append_nil, ← Node.walkFrom_append]
        rfl
    refine .congr (fun xs hx => ?_) hs
    -- neither is at the end of the tokens
    obtain ⟨u, us, rfl⟩ : ∃ u us, xs = u :: us := by
      rcases hx with hx | ⟨-, u, us, -, rfl⟩
      · obtain ⟨us, rfl⟩ := List.head?_eq_some_iff.1 hx
        exact ⟨t, us, rfl⟩
      · exact ⟨u, us, rfl⟩
    exact whole_cons u us
termination_by ts.length
decreasing_by all_goals decreasing_with omega

end

/-- At `rest`, after the tokens `before`, a statement fails with the error `e`, and it is a plain
assignment to `name` that breaks the rule. For if any directive stands in its place and `closing`
completes the program, then before the directive `name` is not declared, or the value clashes with
the last type declared for it. -/
def FailsForAssignment (maxDepth : Int) (e : CompileError) (name : String)
    (before rest closing : List Token) : Prop :=
  ∀ t, t.kind = .header → ∃ statements symbols above below depth value after,
    program maxDepth (before ++ t :: closing) = .ok (statements, symbols) ∧
    walk true statements = above ++ .stmt (.header (headerPath t.text)) :: below ∧
    seen (statement ⟨maxDepth, depth, false⟩
      (SymbolTable.empty.declareAll (declarations above)) rest) = .error e ∧
    seen (expression ⟨maxDepth, depth + 1, false⟩ 1 rest) =
      .ok (.assign .set (.name name) value, after) ∧
    ∀ type, lastDeclared above name = some type → Clashes (baseOf type) value

theorem program_fails {maxDepth : Int} {ts : List Token} {e : CompileError} {name : String}
    (he : program maxDepth ts = .error e) (hm : e.mismatched = some name) :
    ∃ before rest closing, ts = before ++ rest ∧
      FailsForAssignment maxDepth e name before rest closing := by
  have hw : whole (.start maxDepth) .empty ts = .error e := by
    rw [whole, ← program, he]
    rfl
  obtain ⟨before, rest, closing, rfl, -, hb⟩ := whole_blames (.start maxDepth) .empty ts e name hw hm
  refine ⟨before, rest, closing, rfl, fun t ht => ?_⟩
  obtain ⟨made, hmade, above, below, here, hwalk, hd, depth, value, after, hs, hx, hc⟩ :=
    hb t [] ht rfl
  rw [hd.symbols_eq] at hs hc
  refine ⟨made.1, made.2, above, below, depth, value, after, ?_, hwalk, hs, hx, fun type hl => ?_⟩
  · dsimp only at hmade
    rw [List.append_nil, whole, ← program] at hmade
    cases hp : program maxDepth (before ++ t :: closing) with
    | error _ =>
      rw [hp] at hmade
      cases hmade
    | ok _ =>
      rw [hp] at hmade
      cases hmade
      rfl
  · exact hc type (by rw [SymbolTable.lookup_empty_declareAll]; exact hl)

/-- Plain assignments to variables are checked wherever they stand. In a program that is accepted,
each one as a statement is to a variable that some node before it declares, and its value does not
clash with the last type declared before it. And where a program is refused for an assignment to a
variable, the statement that fails is such an assignment, which breaks the rule. -/
theorem assignments_checked (maxDepth : Int) (ts : List Token) :
    (∀ statements symbols, program maxDepth ts = .ok (statements, symbols) →
      ∀ before after name value,
        walk true statements =
            before ++ .stmt (.expression (.assign .set (.name name) value)) :: after →
        ∃ type, lastDeclared before name = some type ∧ ¬ Clashes (baseOf type) value) ∧
    ∀ e name, program maxDepth ts = .error e → e.mismatched = some name →
      ∃ before rest closing, ts = before ++ rest ∧
        FailsForAssignment maxDepth e name before rest closing :=
  ⟨fun _ _ h _ _ _ _ => assignment_of_program h, fun _ _ => program_fails⟩

/-- The tokens of `string n; for (int n;;) n = 1;` -/
def narrowed : List Token :=
  [⟨.keyword, "string", 0⟩, ⟨.identifier, "n", 7⟩, ⟨.delimiter, ";", 8⟩, ⟨.keyword, "for", 10⟩,
   ⟨.delimiter, "(", 14⟩, ⟨.keyword, "int", 15⟩, ⟨.identifier, "n", 19⟩, ⟨.delimiter, ";", 20⟩,
   ⟨.delimiter, ";", 21⟩, ⟨.delimiter, ")", 22⟩, ⟨.identifier, "n", 24⟩, ⟨.operator, "=", 26⟩,
   ⟨.number, "1", 28⟩, ⟨.delimiter, ";", 29⟩]

/-- The statements of `narrowed`. -/
def narrowedStatements : List Stmt :=
  [.declaration "string" "n" none,
   .forLoop (some (.declaration "int" "n" none)) (.bool true) none
     (.expression (.assign .set (.name "n") (.number "1")))]

/-- The nodes of `narrowed` before the assignment. -/
def narrowedBefore : List Node :=
  [.stmt (.declaration "string" "n" none),
   .stmt (.forLoop (some (.declaration "int" "n" none)) (.bool true) none
     (.expression (.assign .set (.name "n") (.number "1")))),
   .stmt (.declaration "int" "n" none), .expr (.bool true)]

/-- The tokens of `int f(string n) { n = 1;` -/
def numberToText : List Token :=
  [⟨.keyword, "int", 0⟩, ⟨.identifier, "f", 4⟩, ⟨.delimiter, "(", 5⟩, ⟨.keyword, "string", 6⟩,
   ⟨.identifier, "n", 13⟩, ⟨.delimiter, ")", 14⟩, ⟨.delimiter, "\x7b", 16⟩, ⟨.identifier, "n", 18⟩,
   ⟨.operator, "=", 20⟩, ⟨.number, "1", 22⟩, ⟨.delimiter, ";", 23⟩]

/-- The last type before the assignment counts, and in a function that is not even closed the
assignment is refused. -/
theorem assignments_checked_narrowed :
    program 9 narrowed = .ok (narrowedStatements, ⟨[("n", "int")]⟩) ∧
    (∃ type, lastDeclared narrowedBefore "n" = some type ∧
      ¬ Clashes (baseOf type) (.number "1")) ∧
    program 9 numberToText = .error (.numberAssigned "n") ∧
    ∃ before rest closing, numberToText = before ++ rest ∧
      FailsForAssignment 9 (.numberAssigned "n") "n" before rest closing := by
  have hp : program 9 narrowed = .ok (narrowedStatements, ⟨[("n", "int")]⟩) := by cbv
  have hw : walk true narrowedStatements = narrowedBefore ++
      .stmt (.expression (.assign .set (.name "n") (.number "1"))) ::
        [.expr (.assign .set (.name "n") (.number "1")), .expr (.name "n"), .expr (.number "1")] := by
    cbv
  have he : program 9 numberToText = .error (.numberAssigned "n") := by cbv
  exact ⟨hp, (assignments_checked 9 narrowed).1 _ _ hp _ _ _ _ hw, he,
    (assignments_checked 9 numberToText).2 _ _ he rfl⟩

end Parser

end ConsoleCpp

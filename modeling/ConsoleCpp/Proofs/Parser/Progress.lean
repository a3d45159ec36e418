/-
Parsing comes to an end, in a program or in an error. The tokens after the cursor are all that a
parser reads, so a cursor in the tokens stands for the tokens from it on. Whatever is read there
leaves the cursor further ahead and not past the end, and a program is as many rounds of reading a
statement as that leaves room for.
-/
import ConsoleCpp.Proofs.Parser.Append

namespace ConsoleCpp.Parser

/-! ## The cursor -/

section

variable {α : Type} {tokens : List Token} {cursor : Nat}

/-- Reading from `cursor` on ends: in something read, with the cursor further ahead and still in the
bounds of `tokens`, or in an error. -/
def Advances (tokens : List Token) (cursor : Nat)
    (result : Except CompileError (Read α (tokens.drop cursor))) : Prop :=
  (∃ value next shorter, cursor < next ∧ next ≤ tokens.length ∧
    result = .ok ⟨value, tokens.drop next, shorter⟩) ∨
  ∃ e, result = .error e

/-- The cursor is moved over the tokens that are taken. -/
theorem Local.moved {also : List Token → Prop} {fails : CompileError → Prop}
    {read : List Token → Except CompileError (α × List Token)} {value : α} {rest : List Token}
    (h : Local true also fails read (tokens.drop cursor))
    (hr : read (tokens.drop cursor) = .ok (value, rest)) :
    ∃ next, cursor < next ∧ next ≤ tokens.length ∧ rest = tokens.drop next := by
  obtain ⟨taken, he, ht, -⟩ := h.ok hr
  have hpos : 0 < taken.length := List.length_pos_iff.2 (ht rfl)
  have hlen : tokens.length - cursor = taken.length + rest.length := by
    rw [← List.length_drop, he, List.length_append]
  refine ⟨cursor + taken.length, ?_, ?_, ?_⟩
  · omega
  · omega
  · rw [← List.drop_drop, he, List.drop_left]

theorem Local.advances {also : List Token → Prop} {fails : CompileError → Prop}
    {read : (ts : List Token) → Except CompileError (Read α ts)}
    (h : Local true also fails (fun ts => seen (read ts)) (tokens.drop cursor)) :
    Advances tokens cursor (read (tokens.drop cursor)) := by
  cases hr : read (tokens.drop cursor) with
  | error e => exact .inr ⟨e, rfl⟩
  | ok made =>
    obtain ⟨value, rest, shorter⟩ := made
    have hseen : seen (read (tokens.drop cursor)) = .ok (value, rest) := by
      rw [hr]
      rfl
    obtain ⟨next, hlt, hle, rfl⟩ := h.moved hseen
    exact .inl ⟨value, next, shorter, hlt, hle, rfl⟩

end

/-! ## Rounds of statements -/

/-- Statements read one after the other, the first from `cursor` on with the declarations of
`symbols` before it, and each of the others from where the one before it left the cursor; they
leave it at `last`. -/
inductive Rounds (ctx : Context) (tokens : List Token) :
    (cursor : Nat) → (symbols : SymbolTable) → List Stmt → (last : Nat) → SymbolTable → Prop where
  | done (cursor : Nat) (symbols : SymbolTable) : Rounds ctx tokens cursor symbols [] cursor symbols
  | round {cursor next last : Nat} {symbols declared symbols' : SymbolTable} {first : Stmt}
      {others : List Stmt}
      (reads : seen (statement ctx symbols (tokens.drop cursor)) =
        .ok ((first, declared), tokens.drop next))
      (forward : cursor < next) (inside : next ≤ tokens.length)
      (goesOn : Rounds ctx tokens next declared others last symbols') :
      Rounds ctx tokens cursor symbols (first :: others) last symbols'

section

variable {tokens : List Token}

/-- Each round takes a token at least. -/
theorem Rounds.length_le {ctx : Context} {cursor last : Nat} {symbols symbols' : SymbolTable}
    {statements : List Stmt} (h : Rounds ctx tokens cursor symbols statements last symbols') :
    cursor + statements.length ≤ last := by
  induction h with
  | done cursor symbols => simp
  | round _ hlt _ _ ih =>
    rw [List.length_cons]
    omega

/-- One round: unless the end is reached, a program starts with a statement that takes the cursor
ahead, or with the error of that statement. -/
theorem programFrom_step (ctx : Context) (symbols : SymbolTable) {cursor : Nat} (hc : cursor < tokens.length) :
    (∃ first declared next, cursor < next ∧ next ≤ tokens.length ∧
      seen (statement ctx symbols (tokens.drop cursor)) =
        .ok ((first, declared), tokens.drop next) ∧
      programFrom ctx symbols (tokens.drop cursor) =
        (programFrom ctx declared (tokens.drop next)).map fun others =>
          (first :: others.1, others.2)) ∨
    ∃ e, statement ctx symbols (tokens.drop cursor) = .error e ∧
      programFrom ctx symbols (tokens.drop cursor) = .error e := by
  have hp := programFrom_cons ctx symbols tokens[cursor] (tokens.drop (cursor + 1))
  rw [← List.drop_eq_getElem_cons hc] at hp
  rw [hp]
  cases hs : seen (statement ctx symbols (tokens.drop cursor)) with
  | error e => exact .inr ⟨e, error_of_seen hs, rfl⟩
  | ok made =>
    obtain ⟨⟨first, declared⟩, rest⟩ := made
    obtain ⟨next, hlt, hle, rfl⟩ :=
      (statement_local true ctx symbols (tokens.drop cursor)).moved hs
    exact .inl ⟨first, declared, next, hlt, hle, rfl, rfl⟩

/-- The rounds of a program go on to the end of the tokens, or to the statement whose error is
that of the program. -/
theorem programFrom_rounds (ctx : Context) (symbols : SymbolTable) {cursor : Nat}
    (hc : cursor ≤ tokens.length) :
    ∃ statements last symbols', Rounds ctx tokens cursor symbols statements last symbols' ∧
      ((last = tokens.length ∧
          programFrom ctx symbols (tokens.drop cursor) = .ok (statements, symbols')) ∨
        (last < tokens.length ∧ ∃ e, statement ctx symbols' (tokens.drop last) = .error e ∧
          programFrom ctx symbols (tokens.drop cursor) = .error e)) := by
  rcases Nat.eq_or_lt_of_le hc with rfl | hlt
  · refine ⟨[], tokens.length, symbols, .done _ _, .inl ⟨rfl, ?_⟩⟩
    rw [List.drop_length, programFrom_eq]
    rfl
  · rcases programFrom_step ctx symbols hlt with
      ⟨first, declared, next, hn, hle, hs, hp⟩ | ⟨e, hs, hp⟩
    · -- the cursor is closer to the end for the rounds that are left
      obtain ⟨others, last, symbols', hr, hend⟩ := programFrom_rounds ctx declared hle
      refine ⟨first :: others, last, symbols', .round hs hn hle hr, ?_⟩
      rcases hend with ⟨hl, ho⟩ | ⟨hl, e, he, ho⟩
      · left
        refine ⟨hl, ?_⟩
        rw [hp, ho]
        rfl
      · right
        refine ⟨hl, e, he, ?_⟩
        rw [hp, ho]
        rfl
    · exact ⟨[], cursor, symbols, .done _ _, .inr ⟨hlt, e, hs, hp⟩⟩
termination_by tokens.length - cursor

end

/-! ## The parsers -/

/-- Parsing makes progress and stays in bounds. From anywhere in any tokens, in any context and with
any declarations before it, an operand, an expression and a statement are read with the cursor moved
ahead by a token at least and not past the end, or end in an error. So a program is read in at most
as many rounds as there are tokens: to the end of them, or to a statement that ends in an error. -/
theorem parsing_advances (tokens : List Token) :
    (∀ ctx cursor, Advances tokens cursor (primary ctx (tokens.drop cursor))) ∧
    (∀ ctx floor cursor, Advances tokens cursor (expression ctx floor (tokens.drop cursor))) ∧
    (∀ ctx symbols cursor, Advances tokens cursor (statement ctx symbols (tokens.drop cursor))) ∧
    ∀ maxDepth, ∃ statements last symbols,
      Rounds (.start maxDepth) tokens 0 .empty statements last symbols ∧ statements.length ≤ last ∧
      ((last = tokens.length ∧ program maxDepth tokens = .ok (statements, symbols)) ∨
        (last < tokens.length ∧ ∃ e,
          statement (.start maxDepth) symbols (tokens.drop last) = .error e ∧
          program maxDepth tokens = .error e)) := by
  refine ⟨fun ctx cursor => ?_, fun ctx floor cursor => ?_, fun ctx symbols cursor => ?_,
    fun maxDepth => ?_⟩
  · exact (primary_local true ctx (tokens.drop cursor)).advances
  · exact (expression_local true ctx floor (tokens.drop cursor)).advances
  · exact (statement_local true ctx symbols (tokens.drop cursor)).advances
  · obtain ⟨statements, last, symbols, hr, hend⟩ :=
      programFrom_rounds (.start maxDepth) .empty (Nat.zero_le tokens.length)
    have hl := hr.length_le
    rw [Nat.zero_add] at hl
    exact ⟨statements, last, symbols, hr, hl, hend⟩

end ConsoleCpp.Parser

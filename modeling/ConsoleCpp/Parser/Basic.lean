/-
What the parsers share: the context they run in, results that carry the tokens left over, and the
consumption of single tokens. A parser takes the tokens from some point on and gives back those
after what it has read; the result type records that there are fewer, which is why all parsers end.
-/
import ConsoleCpp.Error

namespace ConsoleCpp.Parser

/-- What surrounds the tokens being parsed: how many statements and operands are open around them,
how many may be, and whether they are an operand of an input or output statement. -/
structure Context where
  maxDepth : Int
  depth : Nat
  inStream : Bool
deriving Repr, Inhabited

namespace Context

/-- The context at the start of a program or of a separate expression. -/
def start (maxDepth : Int) : Context := ⟨maxDepth, 0, false⟩

/-- One level further in, at the statement or operand that starts with `t`. -/
def enter (ctx : Context) (t : Token) : Except CompileError Context :=
  if ctx.maxDepth < (ctx.depth + 1 : Nat) then .error (.tooDeep ctx.maxDepth (.token t))
  else .ok { ctx with depth := ctx.depth + 1 }

/-- Between brackets the stream operators shift again. -/
def bracketed (ctx : Context) : Context := { ctx with inStream := false }

/-- In an operand of an input or output statement. -/
def streamed (ctx : Context) : Context := { ctx with inStream := true }

end Context

/-- Something read from the front of `ts`, at least one token long. -/
structure Read (α : Type) (ts : List Token) where
  value : α
  rest : List Token
  shorter : rest.length < ts.length

/-- Something read from the front of `ts`, possibly nothing of it. -/
structure Peek (α : Type) (ts : List Token) where
  value : α
  rest : List Token
  notLonger : rest.length ≤ ts.length

/-! ## Lengths -/

theorem tail_shorter (t : Token) (rest : List Token) : rest.length < (t :: rest).length := by
  simp

theorem notLonger_self (ts : List Token) : ts.length ≤ ts.length := Nat.le_refl _

theorem shorter_of_two {ts a b : List Token} (h₁ : a.length < ts.length)
    (h₂ : b.length < a.length) : b.length < ts.length := by
  omega

theorem shorter_of_three {ts a b c : List Token} (h₁ : a.length < ts.length)
    (h₂ : b.length < a.length) (h₃ : c.length < b.length) : c.length < ts.length := by
  omega

theorem shorter_of_four {ts a b c d : List Token} (h₁ : a.length < ts.length)
    (h₂ : b.length < a.length) (h₃ : c.length < b.length) (h₄ : d.length < c.length) :
    d.length < ts.length := by
  omega

theorem notLonger_of_three {ts a b c : List Token} (h₁ : a.length < ts.length)
    (h₂ : b.length < a.length) (h₃ : c.length ≤ b.length) : c.length ≤ ts.length := by
  omega

/-- What was read need not be more than nothing. -/
def Read.toPeek {α : Type} {ts : List Token} (r : Read α ts) : Peek α ts :=
  ⟨r.value, r.rest, Nat.le_of_lt r.shorter⟩

/-! ## Single tokens -/

/-- Whether the next token has this kind and text. -/
def startsWith (kind : Token.Kind) (text : String) : List Token → Bool
  | [] => false
  | t :: _ => t.isA kind text

/-- Takes a token of this kind and text. -/
def consume (kind : Token.Kind) (text : String) :
    (ts : List Token) → Except CompileError (Read Token ts)
  | [] => .error (.expected kind (some text) none)
  | t :: rest =>
    if t.isA kind text then .ok ⟨t, rest, tail_shorter t rest⟩
    else .error (.expected kind (some text) (some t))

/-- Takes a token of this kind. -/
def consumeKind (kind : Token.Kind) : (ts : List Token) → Except CompileError (Read Token ts)
  | [] => .error (.expected kind none none)
  | t :: rest =>
    if t.kind == kind then .ok ⟨t, rest, tail_shorter t rest⟩ else .error (.expected kind none (some t))

end ConsoleCpp.Parser

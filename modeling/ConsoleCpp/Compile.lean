/-
From a source text to a program that can be run, through tokens and statements.
-/
import ConsoleCpp.Generate.Program
import ConsoleCpp.Parser.Statement

namespace ConsoleCpp

/-- The deepest nesting of statements and expressions unless another is asked for. -/
def defaultMaxDepth : Int := 200

/-- The tokens of a source text. -/
def tokensOf (source : String) : Except CompileError (List Token) :=
  (Token.scan (Token.normalize Token.invisibles source)).mapError .stray

/-- The statements of a source text and the names that they declare. -/
def statementsOf (maxDepth : Int) (source : String) :
    Except CompileError (List Stmt × SymbolTable) :=
  (tokensOf source).bind (Parser.program maxDepth)

/-- The program that a source text stands for. -/
def compile (maxDepth : Int) (source : String) : Except CompileError Target.Program := do
  let (statements, _) ← statementsOf maxDepth source
  Generate.program statements

end ConsoleCpp

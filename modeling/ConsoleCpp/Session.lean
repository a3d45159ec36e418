/-
A session answers source texts one by one: it compiles each, runs it on its input, and says what
came of it. No answer depends on the texts before.
-/
import ConsoleCpp.Compile
import ConsoleCpp.Machine.Program
import ConsoleCpp.Session.Event
import ConsoleCpp.Text.Words

namespace ConsoleCpp.Session

/-! ## Answers -/

/-- What a session says to a source text or a run: a value, and the state that holds its parts. -/
structure Answer where
  value : Machine.Value
  state : Machine.State
deriving Inhabited

namespace Answer

def text (t : String) : Answer := ⟨.text t, .empty []⟩

/-- The answer to a run that faulted. -/
def faulted (f : Machine.Fault) : Answer := text ("Runtime error: " ++ f.message)

/-- The answer to a source text that does not compile. -/
def rejected (e : CompileError) : Answer := text ("Error: " ++ e.message)

/-- The answer to a run; there is none as long as the run goes on, and none is known to a run that is
not described to its end. -/
def ofOutcome? : Machine.Outcome → Option Answer
  | .finished v s => some ⟨v, s⟩
  | .faulted f _ => some (faulted f)
  | .undescribed _ _ | .outOfSteps => none

end Answer

/-- Runs a program on an input text. -/
def runOn (p : Target.Program) (input : String) : Machine.Outcome :=
  Machine.run p (Text.words input)

/-! ## Events -/

/-- What is reported about statements from which a program is generated. -/
def generationEvents (statements : List Stmt) : List Event :=
  let headers := Generate.headers statements
  let prototypes := Generate.prototypeNames statements
  (if headers.isEmpty then [] else [.included headers]) ++
    (if prototypes.isEmpty then [] else [.stubbed prototypes]) ++
    (if Generate.needsImplicitMain statements then
      [.wrapped (Generate.withoutPrototypes statements).length] else [])

/-- What is reported while a source text is compiled. -/
def compileEvents (maxDepth : Int) (source : String) : List Event :=
  match tokensOf source with
  | .error _ => []
  | .ok ts =>
    .lexed ts.length (Token.normalize Token.invisibles source).length ::
      match Parser.program maxDepth ts with
      | .error _ => []
      | .ok (statements, symbols) =>
        .parsed statements.length symbols.size :: (generationEvents statements ++
          match Generate.program statements with
          | .error _ => []
          | .ok p => [.generated (p.text.toList.count '\n')])

/-- What is reported about a run. -/
def runEvents : Machine.Outcome → List Event
  | .faulted f _ => [.faulted f]
  | _ => []

/-! ## Steps -/

/-- What comes of a source text and an input text. -/
structure Step where
  events : List Event
  /-- There is no answer to a program that does not end as far as is known. -/
  answer : Option Answer
deriving Inhabited

/-- Compiles a source text and runs it on an input text. An error that is not one of the source text
ends the session. -/
def step (maxDepth : Int) (source input : String) : Except CompileError Step :=
  let events := compileEvents maxDepth source
  match compile maxDepth source with
  | .error e =>
    if e.isDiagnostic then .ok ⟨events ++ [.rejected e], some (.rejected e)⟩ else .error e
  | .ok p =>
    let outcome := runOn p input
    .ok ⟨events ++ runEvents outcome, Answer.ofOutcome? outcome⟩

end ConsoleCpp.Session

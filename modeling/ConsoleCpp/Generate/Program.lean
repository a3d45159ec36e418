/-
From a whole source program to a generated program. Top-level statements without a main function
become the body of one.
-/
import ConsoleCpp.Generate.Statement

namespace ConsoleCpp.Generate

/-- Whether the statements define no main function. -/
def needsImplicitMain (statements : List Stmt) : Bool :=
  !statements.any fun s => match s with
    | .function _ name _ _ => name == "main"
    | _ => false

/-- The headers that the statements include. -/
def headers (statements : List Stmt) : List String :=
  statements.filterMap fun s => match s with
    | .header path => some path
    | _ => none

/-- The names of the functions that the statements announce. -/
def prototypeNames (statements : List Stmt) : List String :=
  statements.filterMap fun s => match s with
    | .prototype _ name _ => some name
    | _ => none

/-- The definitions that stand for announced functions. -/
def stubs (statements : List Stmt) : List Target.Stmt :=
  statements.filterMap fun s => match s with
    | .prototype _ name params => some (stub name params)
    | _ => none

/-- The statements other than prototypes. -/
def withoutPrototypes (statements : List Stmt) : List Stmt :=
  statements.filter fun s => groupOf s != .prototypes

/-- The context of the statements of a program, in which the given names are bound around them. -/
def programContext (bound : List String) : Context := ⟨1, [bound], [], .nothing⟩

/-- The generated form of a program. -/
def program (statements : List Stmt) : Except CompileError Target.Program := do
  let rest := withoutPrototypes statements
  let (body, _) ←
    if needsImplicitMain statements then
      function (programContext (prototypeNames statements)) 0 "main" [] rest
        fun ctx count => sequence ctx count rest
    else sequence (programContext (declaredNames statements)) 0 rest
  return ⟨stubs statements, body⟩

/-- The generated form of statements that are no whole program. -/
def fragment (statements : List Stmt) : Except CompileError (List Target.Stmt) := do
  let (body, _) ← sequence ⟨0, [], [], .nothing⟩ 0 statements
  return body

/-- The text of statements that are no whole program. -/
def fragmentText (statements : List Target.Stmt) : String :=
  Target.textOf (Target.Stmt.suiteLines 0 statements)

end ConsoleCpp.Generate

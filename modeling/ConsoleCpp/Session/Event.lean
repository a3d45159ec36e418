/-
What a session reports while it works on a source text: each event has a level and a message.
-/
import ConsoleCpp.Error
import ConsoleCpp.Machine.Fault

namespace ConsoleCpp.Session

/-- How grave an event is. -/
inductive Level where
  | debug
  | info
  | warning
  | error
deriving DecidableEq, Repr, Inhabited

namespace Level

def name : Level → String
  | .debug => "DEBUG"
  | .info => "INFO"
  | .warning => "WARNING"
  | .error => "ERROR"

/-- Graver levels have greater ranks. -/
def rank : Level → Nat
  | .debug => 0
  | .info => 1
  | .warning => 2
  | .error => 3

end Level

inductive Event where
  /-- A text of some length was cut into tokens. -/
  | lexed (tokens characters : Nat)
  | parsed (statements symbols : Nat)
  | included (paths : List String)
  /-- Announced functions got definitions that fault. -/
  | stubbed (names : List String)
  /-- Statements became the body of a main function. -/
  | wrapped (statements : Nat)
  | generated (lines : Nat)
  | faulted (f : Machine.Fault)
  | rejected (e : CompileError)
deriving Inhabited

namespace Event

def level : Event → Level
  | .faulted _ => .info
  | .rejected _ => .error
  | _ => .debug

def message : Event → String
  | .lexed tokens characters =>
    "Lexed " ++ toString tokens ++ " tokens from " ++ toString characters ++ " characters"
  | .parsed statements symbols =>
    "Parsed " ++ toString statements ++ " top-level statements, " ++ toString symbols ++ " symbols"
  | .included paths => "Includes: " ++ String.intercalate ", " paths
  | .stubbed names => "Stubbing prototypes: " ++ String.intercalate ", " names
  | .wrapped statements =>
    "No main() defined, wrapping " ++ toString statements ++ " top-level statements"
  | .generated lines => "Generated " ++ toString lines ++ " lines of Python"
  | .faulted f => "Program faulted: " ++ f.className ++ ": " ++ f.message
  | .rejected e => "Compilation failed: " ++ e.message

/-- Whether an event is reported when those below `least` are not. -/
def isReported (least : Level) (e : Event) : Bool := least.rank ≤ e.level.rank

end Event

end ConsoleCpp.Session

/-
What a command line asks for. The source file is the one argument that is no option; of an option
given more than once the last counts; input comes as a text or from a file but not both.
-/
import ConsoleCpp.CommandLine.Option
import ConsoleCpp.Compile
import ConsoleCpp.Number.Reading

namespace ConsoleCpp.CommandLine

/-- What a run of the command is to do. -/
structure Request where
  source : String
  input : String
  inputFile : Option String
  emit : Bool
  verbose : Bool
  maxDepth : Int
deriving DecidableEq, Repr, Inhabited

/-- A request of which the source file may not be known yet. -/
structure Draft where
  source : Option String
  input : String
  /-- Whether an input text was given that is not empty. -/
  hasInput : Bool
  inputFile : Option String
  emit : Bool
  verbose : Bool
  maxDepth : Int
deriving DecidableEq, Repr, Inhabited

/-- Why no request is made. -/
inductive Stop where
  | help
  | misuse (e : UsageError)
deriving DecidableEq, Repr, Inhabited

namespace Draft

def empty : Draft := ⟨none, "", false, none, false, false, defaultMaxDepth⟩

/-- Raises a flag. -/
def raise (d : Draft) : Flag → Except Stop Draft
  | .help => .error .help
  | .emit => .ok { d with emit := true }
  | .verbose => .ok { d with verbose := true }

/-- Gives a setting a value. An empty input text counts as none. -/
def set (d : Draft) : Setting → String → Except Stop Draft
  | .input, text =>
    if text.isEmpty then .ok { d with input := text }
    else if d.inputFile.isSome then .error (.misuse .twoInputs)
    else .ok { d with input := text, hasInput := true }
  | .inputFile, path =>
    if d.hasInput then .error (.misuse .twoInputs) else .ok { d with inputFile := some path }
  | .maxDepth, text =>
    match Number.readInt text with
    | .value n => .ok { d with maxDepth := n }
    | _ => .error (.misuse (.badDepth text))

/-- Sets the source file. -/
def setSource (d : Draft) (path : String) : Except Stop Draft :=
  match d.source with
  | none => .ok { d with source := some path }
  | some _ => .error (.misuse (.extraArgument path))

/-- Takes the arguments after the mark that ends the options. The mark stands just before the source
file or, when `afterSource` holds, just after it. -/
def close (d : Draft) (afterSource : Bool) : List String → Except Stop Draft
  | [] => if d.source.isNone || afterSource then .ok d else .error (.misuse (.extraArgument "--"))
  | [path] => d.setSource path
  | _ :: extra :: _ => .error (.misuse (.extraArgument extra))

/-- Takes the words of a command line. `afterSource` says whether the word before is the source
file. -/
def read (d : Draft) (afterSource : Bool) : List Word → Except Stop Draft
  | [] => .ok d
  | .value path :: rest => do read (← d.setSource path) true rest
  | .flag f :: rest => do read (← d.raise f) false rest
  | .setting s (some value) :: rest => do read (← d.set s value) false rest
  | .setting s none :: .value value :: rest => do read (← d.set s value) false rest
  | .setting s none :: _ => .error (.misuse (.missingValue s))
  | .divider values :: _ => d.close afterSource values

/-- The request, once all words are taken. -/
def finish (d : Draft) : Except Stop Request :=
  match d.source with
  | none => .error (.misuse .missingSource)
  | some source => .ok ⟨source, d.input, d.inputFile, d.emit, d.verbose, d.maxDepth⟩

end Draft

namespace Request

/-- The request of a command line. -/
def ofArgs (args : List String) : Except Stop Request := do
  let words ← (allWords args).mapError .misuse
  (← Draft.empty.read false words).finish

/-- The file with the input; an empty name is none. -/
def inputPath? (r : Request) : Option String := r.inputFile.filter fun path => !path.isEmpty

/-- The files to read, in order. -/
def paths (r : Request) : List String := r.source :: r.inputPath?.toList

end Request

end ConsoleCpp.CommandLine

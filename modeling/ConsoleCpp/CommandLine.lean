/-
The command as a function: from the arguments and the texts of files to what is printed and the exit
code. A file called `-` is the standard input, which can be read once.
-/
import ConsoleCpp.CommandLine.Request
import ConsoleCpp.Session

namespace ConsoleCpp.CommandLine

/-- How a run of the command ends. -/
structure Reply where
  exitCode : Nat
  output : String
  /-- Lines for the error output. -/
  log : List String
deriving DecidableEq, Repr, Inhabited

/-- What stops the command before it can reply. -/
inductive Crash where
  | missingFile (name : String)
  /-- The program gave a value of this type in place of its output. -/
  | notText (type : String)
  /-- The source text is not at fault. -/
  | compiler (e : CompileError)
  /-- The program does not end, or it is not known how. -/
  | endless

def Crash.message : Crash → String
  | .missingFile name => "[Errno 2] No such file or directory: " ++ Text.quoted name
  | .notText type => "write() argument must be str, not " ++ type
  | .compiler e => e.message
  | .endless => "the program does not end as far as is known"

/-! ## Files -/

/-- The text with every line break written as a line feed. -/
def unifyBreaks : List Char → List Char
  | [] => []
  | '\r' :: '\n' :: rest => '\n' :: unifyBreaks rest
  | '\r' :: rest => '\n' :: unifyBreaks rest
  | c :: rest => c :: unifyBreaks rest

/-- The texts that the command can read. -/
structure Files where
  named : String → Option String
  standardInput : String

/-- The text of a file. -/
def Files.read (files : Files) (path : String) : Except Crash String :=
  if path == "-" then .ok (String.ofList (unifyBreaks files.standardInput.toList))
  else
    match files.named path with
    | some text => .ok (String.ofList (unifyBreaks text.toList))
    | none => .error (.missingFile path)

/-- The texts left after a file was read. -/
def Files.after (files : Files) (path : String) : Files :=
  if path == "-" then { files with standardInput := "" } else files

/-! ## Replies -/

def helpText : String :=
  "usage: minicpp [-h] [-i INPUT | -f INPUT_FILE] [--emit] [--max-depth MAX_DEPTH] [-v]\n" ++
  "               source\n\n" ++
  "Compile a small C++ subset to Python and run it.\n\n" ++
  "positional arguments:\n" ++
  "  source                source file, or - for stdin\n\n" ++
  "options:\n" ++
  "  -h, --help            show this help message and exit\n" ++
  "  -i INPUT, --input INPUT\n" ++
  "                        program input text\n" ++
  "  -f INPUT_FILE, --input-file INPUT_FILE\n" ++
  "                        read program input from a file\n" ++
  "  --emit                print the generated Python instead of running it\n" ++
  "  --max-depth MAX_DEPTH\n" ++
  "                        maximum statement/expression nesting\n" ++
  "  -v, --verbose         log compiler stages\n"

/-- The reply to a command line that makes no request. -/
def Stop.reply : Stop → Reply
  | .help => ⟨0, helpText, []⟩
  | .misuse e => ⟨2, "", ["minicpp: error: " ++ e.message]⟩

/-- The log of a request: all events when it is to be verbose, else the grave ones. -/
def Request.log (r : Request) (events : List Session.Event) : List String :=
  let least := if r.verbose then .debug else .warning
  (events.filter (Session.Event.isReported least)).map fun e => e.level.name ++ ": " ++ e.message

/-- The reply to a run. What the program has printed comes first. -/
def ofOutcome (log : List String) : Machine.Outcome → Except Crash Reply
  | .finished (.text output) s => .ok ⟨0, s.printed ++ output, log⟩
  | .finished v _ => .error (.notText v.typeName)
  | .faulted f s => .ok ⟨2, s.printed ++ "Runtime error: " ++ f.message ++ "\n", log⟩
  | .undescribed _ _ | .outOfSteps => .error .endless

/-- The reply to a request, given the source text and the input text. -/
def Request.reply (r : Request) (source input : String) : Except Crash Reply :=
  let events := Session.compileEvents r.maxDepth source
  match compile r.maxDepth source with
  | .error e =>
    if e.isDiagnostic then
      .ok ⟨1, "Error: " ++ e.message ++ "\n", r.log (events ++ [.rejected e])⟩
    else .error (.compiler e)
  | .ok p =>
    if r.emit then .ok ⟨0, p.text, r.log events⟩
    else ofOutcome (r.log events) (Session.runOn p input)

/-- Runs the command. -/
def run (files : Files) (args : List String) : Except Crash Reply :=
  match Request.ofArgs args with
  | .error stop => .ok stop.reply
  | .ok r => do
    let source ← files.read r.source
    let input ← match r.inputPath? with
      | none => .ok r.input
      | some path => (files.after r.source).read path
    r.reply source input

end ConsoleCpp.CommandLine

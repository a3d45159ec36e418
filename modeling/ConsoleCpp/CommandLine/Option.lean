/-
The options of the command line and how arguments spell them. Short options are single letters, of
which several may share a dash; long options may be cut short as long as one option alone fits. A
value follows as the next argument, after an equals sign, or right after the letter.
-/
import ConsoleCpp.Text.Digit

namespace ConsoleCpp.CommandLine

/-- An option without a value. -/
inductive Flag where
  | help
  /-- Print the generated program instead of running it. -/
  | emit
  | verbose
deriving DecidableEq, Repr, Inhabited

/-- An option with a value. -/
inductive Setting where
  /-- The input of the program. -/
  | input
  /-- The file with the input of the program. -/
  | inputFile
  | maxDepth
deriving DecidableEq, Repr, Inhabited

inductive Opt where
  | flag (f : Flag)
  | setting (s : Setting)
deriving DecidableEq, Repr, Inhabited

namespace Opt

def all : List Opt := [
  .flag .help, .setting .input, .setting .inputFile, .flag .emit, .setting .maxDepth,
  .flag .verbose]

/-- The letter that stands for an option after one dash. -/
def letter? : Opt → Option Char
  | .flag .help => some 'h'
  | .setting .input => some 'i'
  | .setting .inputFile => some 'f'
  | .flag .verbose => some 'v'
  | .flag .emit | .setting .maxDepth => none

/-- The name that stands for an option after two dashes. -/
def name : Opt → String
  | .flag .help => "help"
  | .setting .input => "input"
  | .setting .inputFile => "input-file"
  | .flag .emit => "emit"
  | .setting .maxDepth => "max-depth"
  | .flag .verbose => "verbose"

def ofLetter? (c : Char) : Option Opt := all.find? fun opt => opt.letter? == some c

/-- The options that a name may mean: the one it spells out, or else all that it is the start of. -/
def candidates (spelling : List Char) : List Opt :=
  match all.find? fun opt => opt.name.toList == spelling with
  | some opt => [opt]
  | none => all.filter fun opt => spelling.isPrefixOf opt.name.toList

end Opt

/-- What is wrong with a command line. -/
inductive UsageError where
  | unknownOption (arg : String)
  | ambiguousOption (arg : String)
  /-- A value is given to an option that takes none. -/
  | unusedValue (arg : String)
  | missingValue (s : Setting)
  /-- Input is given both as a text and as a file. -/
  | twoInputs
  | badDepth (text : String)
  | extraArgument (arg : String)
  | missingSource
deriving DecidableEq, Repr, Inhabited

def UsageError.message : UsageError → String
  | .unknownOption arg => "unrecognized arguments: " ++ arg
  | .ambiguousOption arg => "ambiguous option: " ++ arg
  | .unusedValue arg => "ignored explicit argument: " ++ arg
  | .missingValue s => "argument --" ++ (Opt.setting s).name ++ ": expected one argument"
  | .twoInputs => "argument --input: not allowed with argument --input-file"
  | .badDepth text => "argument --max-depth: invalid int value: '" ++ text ++ "'"
  | .extraArgument arg => "unrecognized arguments: " ++ arg
  | .missingSource => "the following arguments are required: source"

/-! ## Arguments -/

/-- What an argument, or a part of one, is. -/
inductive Word where
  | value (text : String)
  | flag (f : Flag)
  | setting (s : Setting) (attached : Option String)
  /-- The mark that ends the options, with the arguments after it. -/
  | divider (values : List String)
deriving DecidableEq, Repr, Inhabited

/-- Whether a text is digits with at most one point in them, not at the end. -/
def isPlainNumber (cs : List Char) : Bool :=
  match cs.dropWhile Text.isDigit with
  | [] => !cs.isEmpty
  | c :: fraction => c == '.' && !fraction.isEmpty && fraction.all Text.isDigit

/-- A text without the line break at its end. -/
def withoutFinalBreak (cs : List Char) : List Char :=
  if cs.getLast? == some '\n' then cs.dropLast else cs

/-- Whether an argument that starts with a dash and is no option is a value: a negative number, or a
text with a blank in it. -/
def isDashedValue (arg : String) : Bool :=
  isPlainNumber (withoutFinalBreak (arg.toList.drop 1)) || arg.toList.contains ' '

/-- The words of an argument that starts with a dash and is no option. -/
def unnamed (arg : String) : Except UsageError (List Word) :=
  if isDashedValue arg then .ok [.value arg] else .error (.unknownOption arg)

/-- The words of a short option with what follows its letter: further flags, or its value. -/
def shortWords (arg : String) : Opt → List Char → Except UsageError (List Word)
  | .flag f, [] => .ok [.flag f]
  | .flag f, c :: rest =>
    match Opt.ofLetter? c with
    | some opt => (shortWords arg opt rest).map (.flag f :: ·)
    | none => .error (.unusedValue arg)
  | .setting s, [] => .ok [.setting s none]
  | .setting s, '=' :: rest => .ok [.setting s (some (String.ofList rest))]
  | .setting s, rest => .ok [.setting s (some (String.ofList rest))]

/-- The words of a long option with the value given after an equals sign. -/
def longWords (arg : String) (spelling : List Char) (attached : Option String) :
    Except UsageError (List Word) :=
  match Opt.candidates spelling, attached with
  | [.flag f], none => .ok [.flag f]
  | [.flag _], some _ => .error (.unusedValue arg)
  | [.setting s], attached => .ok [.setting s attached]
  | [], _ => unnamed arg
  | _, _ => .error (.ambiguousOption arg)

/-- The words of an argument. -/
def wordsOf (arg : String) : Except UsageError (List Word) :=
  match arg.toList with
  | '-' :: '-' :: rest =>
    longWords arg (rest.takeWhile (· != '=')) <|
      match rest.dropWhile (· != '=') with
      | [] => none
      | _ :: value => some (String.ofList value)
  | '-' :: c :: rest =>
    match Opt.ofLetter? c with
    | some opt => shortWords arg opt rest
    | none => unnamed arg
  | _ => .ok [.value arg]

/-- The words of a command line. -/
def allWords : List String → Except UsageError (List Word)
  | [] => .ok []
  | arg :: rest => do
    if arg == "--" then return [.divider rest]
    return (← wordsOf arg) ++ (← allWords rest)

end ConsoleCpp.CommandLine

/-
The values of a running program and the state it runs in. Lists and objects live in the state and
are values by reference, so that all who hold one see a change of it.
-/
import ConsoleCpp.Machine.Fault
import ConsoleCpp.Target.Stmt

namespace ConsoleCpp.Machine

/-- The functions that a program finds without defining them. -/
inductive Builtin where
  | max
  | min
  | abs
  | len
  | pow
  | int
  | float
  | str
  | sum
  | print
deriving DecidableEq, Repr, Inhabited

namespace Builtin

def name : Builtin → String
  | .max => "max"
  | .min => "min"
  | .abs => "abs"
  | .len => "len"
  | .pow => "pow"
  | .int => "int"
  | .float => "float"
  | .str => "str"
  | .sum => "sum"
  | .print => "print"

def all : List Builtin := [.max, .min, .abs, .len, .pow, .int, .float, .str, .sum, .print]

def ofName? (s : String) : Option Builtin := all.find? fun b => b.name == s

/-- The other names that have a meaning in Python without a definition. -/
def otherNames : List String :=
  ["ArithmeticError", "AssertionError", "AttributeError", "BaseException", "BaseExceptionGroup",
    "BlockingIOError", "BrokenPipeError", "BufferError", "BytesWarning", "ChildProcessError",
    "ConnectionAbortedError", "ConnectionError", "ConnectionRefusedError",
    "ConnectionResetError", "DeprecationWarning", "EOFError", "Ellipsis", "EncodingWarning",
    "EnvironmentError", "Exception", "ExceptionGroup", "FileExistsError", "FileNotFoundError",
    "FloatingPointError", "FutureWarning", "GeneratorExit", "IOError", "ImportError",
    "ImportWarning", "IndentationError", "IndexError", "InterruptedError", "IsADirectoryError",
    "KeyError", "KeyboardInterrupt", "LookupError", "MemoryError", "ModuleNotFoundError",
    "NameError", "NotADirectoryError", "NotImplemented", "NotImplementedError", "OSError",
    "OverflowError", "PendingDeprecationWarning", "PermissionError", "ProcessLookupError",
    "RecursionError", "ReferenceError", "ResourceWarning", "RuntimeError", "RuntimeWarning",
    "StopAsyncIteration", "StopIteration", "SyntaxError", "SyntaxWarning", "SystemError",
    "SystemExit", "TabError", "TimeoutError", "TypeError", "UnboundLocalError",
    "UnicodeDecodeError", "UnicodeEncodeError", "UnicodeError", "UnicodeTranslateError",
    "UnicodeWarning", "UserWarning", "ValueError", "Warning", "ZeroDivisionError", "aiter",
    "all", "anext", "any", "ascii", "bin", "bool", "breakpoint", "bytearray", "bytes",
    "callable", "chr", "classmethod", "compile", "complex", "copyright", "credits", "delattr",
    "dict", "dir", "divmod", "enumerate", "eval", "exec", "exit", "filter", "format",
    "frozenset", "getattr", "globals", "hasattr", "hash", "help", "hex", "id", "input",
    "isinstance", "issubclass", "iter", "license", "list", "locals", "map", "memoryview", "next",
    "object", "oct", "open", "ord", "property", "quit", "range", "repr", "reversed", "round",
    "set", "setattr", "slice", "sorted", "staticmethod", "super", "tuple", "type", "vars", "zip"]

/-- Whether the function is a type too. -/
def isType : Builtin → Bool
  | .int | .float | .str => true
  | _ => false

end Builtin

/-- A method of a text or of a list, with what it is a method of. -/
inductive Method where
  | upper (text : String)
  | lower (text : String)
  | append (list : Nat)
deriving DecidableEq, Repr, Inhabited

/-- A function of the program with the variables it can reach: those of the frames `env`, innermost
first. -/
structure Closure where
  /-- The name with the names of the functions around. -/
  path : String
  params : List String
  /-- Whether the arguments may be left out. -/
  optional : Bool
  /-- The variables of a call. -/
  locals : List String
  body : List Target.Stmt
  env : List Nat
  /-- Where its fields are: a function can have some, as an object can. -/
  ref : Nat
deriving Inhabited

inductive Value where
  | none
  | bool (b : Bool)
  | int (n : Int)
  | float (x : Float)
  | text (s : String)
  | list (ref : Nat)
  | object (ref : Nat)
  | function (f : Closure)
  | builtin (b : Builtin)
  | method (m : Method)
deriving Inhabited

/-- Where Python keeps functions, by the place of their fields, and lists, as far as that is known. The
address is part of the text of a function or method. -/
structure Addresses where
  function : Nat → Option Nat
  list : Nat → Option Nat
deriving Inhabited

/-- No address is known. -/
def Addresses.unknown : Addresses := ⟨fun _ => none, fun _ => none⟩

/-- The variables of a call; one that has no value yet is there without one. -/
abbrev Frame := List (String × Option Value)

/-- What a program has at a point of its run. -/
structure State where
  lists : Array (Array Value)
  objects : Array (List (String × Value))
  frames : Array Frame
  /-- The input words not yet read. -/
  input : List String
  output : String
  /-- What the program has printed past its output. -/
  printed : String
  addresses : Addresses
deriving Inhabited

/-- Why a run stops before its end: a fault, or the bound on its steps. -/
inductive Stop where
  | fault (f : Fault)
  | outOfSteps
deriving DecidableEq, Repr, Inhabited

/-- A computation that may change the state and may stop. -/
abbrev Run := EStateM Stop State

/-- Stops with a fault. -/
def fault {α : Type} (f : Fault) : Run α := throw (.fault f)

/-- Goes on with a result or stops with a fault. -/
def orFault {α : Type} : Except Fault α → Run α
  | .ok a => pure a
  | .error f => fault f

namespace Value

/-- The name of the type of a value. -/
def typeName : Value → String
  | .none => "NoneType"
  | .bool _ => "bool"
  | .int _ => "int"
  | .float _ => "float"
  | .text _ => "str"
  | .list _ => "list"
  | .object _ => "types.SimpleNamespace"
  | .function _ => "function"
  | .builtin b => if b.isType then "type" else "builtin_function_or_method"
  | .method _ => "builtin_function_or_method"

/-- The integer that a value is; truth values count as 0 and 1. -/
def int? : Value → Option Int
  | .int n => some n
  | .bool b => some (if b then 1 else 0)
  | _ => Option.none

end Value

/-- A number: an integer or a double. -/
inductive Num where
  | int (n : Int)
  | float (x : Float)
deriving Inhabited

/-- The number that a value is. -/
def Value.num? : Value → Option Num
  | .int n => some (.int n)
  | .bool b => some (.int (if b then 1 else 0))
  | .float x => some (.float x)
  | _ => Option.none

namespace State

def empty (input : List String) (addresses : Addresses := .unknown) : State :=
  ⟨#[], #[], #[], input, "", "", addresses⟩

def list (s : State) (ref : Nat) : Array Value := s.lists.getD ref #[]

/-- The fields of an object or function. -/
def object (s : State) (ref : Nat) : List (String × Value) := s.objects.getD ref []

/-- More than the deepest nesting of lists and objects that does not come back to itself. -/
def depth (s : State) : Nat := s.lists.size + s.objects.size + 1

/-- Whether a value counts as true. -/
def truthy (s : State) : Value → Bool
  | .none => false
  | .bool b => b
  | .int n => n != 0
  | .float x => x != 0.0
  | .text t => !t.isEmpty
  | .list ref => !(s.list ref).isEmpty
  | _ => true

end State

/-- A new list. -/
def newList (items : Array Value) : Run Value :=
  modifyGet fun s => (.list s.lists.size, { s with lists := s.lists.push items })

/-- A new place for fields. -/
def newFields (fields : List (String × Value)) : Run Nat :=
  modifyGet fun s => (s.objects.size, { s with objects := s.objects.push fields })

/-- A new object. -/
def newObject (fields : List (String × Value)) : Run Value := do
  return .object (← newFields fields)

/-- Changes the elements of a list. -/
def changeList (ref : Nat) (f : Array Value → Array Value) : Run Unit :=
  modify fun s => { s with lists := s.lists.modify ref f }

/-- Changes the fields of an object. -/
def changeObject (ref : Nat) (f : List (String × Value) → List (String × Value)) : Run Unit :=
  modify fun s => { s with objects := s.objects.modify ref f }

end ConsoleCpp.Machine

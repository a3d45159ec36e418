/-
What can go wrong when a generated program runs: each cause is a constructor. The class of a fault
and its message are what Python reports for it. A run can also come to a part of Python that is not
described here, and then it is not known how it goes on.
-/
import ConsoleCpp.Number.Limit
import ConsoleCpp.Text.Quoted

namespace ConsoleCpp.Machine

/-- What of Python is not described. -/
inductive Undescribed where
  /-- What a name of Python stands for that is not one of the functions described. -/
  | name (id : String)
  /-- An attribute that values of this type have and that is no method described. -/
  | attribute (type field : String)
  /-- The address of a function or list, where it is not known. -/
  | address
  /-- Which object a value of this type is, or whether two are the same one. -/
  | identity (type : String)
  /-- Where the stack ends while a list that holds itself is printed. -/
  | stackEnd
  /-- A text with half of a surrogate pair. -/
  | surrogate
  /-- A power of a negative number that is no real number. -/
  | complexPower
  /-- A type put together from two. -/
  | typeUnion
deriving DecidableEq, Repr, Inhabited

/-- A fault. Types are given by name. -/
inductive Fault where
  /-- The program text is refused at this line, where that is known. -/
  | refused (reason : String) (line : Option Nat)
  | inputExhausted
  | unimplemented (name : String)
  | integerDivision
  | floatDivision
  /-- Zero to a negative power. -/
  | zeroPower
  | zeroModulus
  /-- A negative power by a modulus of something that has no inverse. -/
  | notInvertible
  /-- A power too large for a double. -/
  | powerRange
  /-- A remainder that is not defined. -/
  | domain
  | tooLargeForFloat
  | negativeShift
  /-- A shift whose result is too large. -/
  | shiftRange
  | notReal (type : String)
  | unsupported (op left right : String)
  /-- Something of another type is appended to a text or list. -/
  | notConcatenable (sequence other : String)
  /-- A text or list is repeated a number of times that is no integer. -/
  | notRepeatable (type : String)
  | notOrdered (op left right : String)
  | badSign (op type : String)
  | badAbs (type : String)
  | listRange
  | listStoreRange
  | textRange
  | listKey (type : String)
  | textKey (type : String)
  /-- An index with too many digits. -/
  | hugeIndex
  /-- A number of repetitions with too many digits. -/
  | hugeCount
  | outOfMemory
  | notSubscriptable (type : String)
  | typeNotSubscriptable (name : String)
  | noItemStore (type : String)
  | noAttribute (type field : String)
  | typeNoAttribute (name field : String)
  | readOnlyAttribute (type field : String)
  /-- An attribute that is computed from a number. -/
  | computedAttribute (type field : String)
  | immutableType (name field : String)
  | attributeName (type : String)
  | notCallable (type : String)
  | noLength (type : String)
  | notIterable (type : String)
  /-- The greatest or least of nothing. -/
  | emptySequence (function : String)
  | textSum
  | badInteger (base : Nat) (text : String)
  /-- A base in which no integer is read. -/
  | badBase
  | badFloat (text : String)
  | notInteger (type : String)
  | notFloat (type : String)
  | nanToInteger
  | infinityToInteger
  /-- A call without these parameters. -/
  | missing (function : String) (params : List String)
  /-- A call with more arguments than parameters, of which at least `least` are needed. -/
  | excess (function : String) (least most given : Nat)
  /-- A call of a built-in function with the wrong number of arguments; the complaint is given. -/
  | badCall (complaint : String)
  | unboundLocal (name : String)
  | unboundFree (name : String)
  | undefined (name : String)
  | unknownOperator (key : String)
  | digitLimit (digits : Option Nat)
  /-- Lists or objects that hold themselves are compared without end. -/
  | endlessComparison
  /-- No fault of the program, but the end of what is described. -/
  | undescribed (part : Undescribed)
deriving DecidableEq, Repr, Inhabited

/-- A part of Python in words. -/
def Undescribed.text : Undescribed → String
  | .name id => "the meaning of " ++ id
  | .attribute type field => "the attribute " ++ field ++ " of " ++ type
  | .address => "the address of an object"
  | .identity type => "the identity of two objects of type " ++ type
  | .stackEnd => "the end of the stack"
  | .surrogate => "half of a surrogate pair"
  | .complexPower => "a complex number"
  | .typeUnion => "a union of types"

namespace Fault

/-- The class of a fault. -/
def className : Fault → String
  | .refused _ _ => "SyntaxError"
  | .inputExhausted => "InputExhausted"
  | .unimplemented _ => "UnimplementedFunction"
  | .integerDivision | .floatDivision | .zeroPower => "ZeroDivisionError"
  | .powerRange | .tooLargeForFloat | .shiftRange | .hugeCount | .infinityToInteger =>
    "OverflowError"
  | .domain | .negativeShift | .emptySequence _ | .badInteger _ _ | .badFloat _ | .nanToInteger
  | .digitLimit _ | .zeroModulus | .notInvertible | .badBase => "ValueError"
  | .notReal _ | .unsupported _ _ _ | .notConcatenable _ _ | .notRepeatable _ | .notOrdered _ _ _
  | .badSign _ _ | .badAbs _ | .listKey _ | .textKey _ | .notSubscriptable _
  | .typeNotSubscriptable _ | .noItemStore _ | .immutableType _ _ | .attributeName _
  | .notCallable _ | .noLength _ | .notIterable _ | .textSum | .notInteger _ | .notFloat _
  | .missing _ _ | .excess _ _ _ _ | .badCall _ => "TypeError"
  | .listRange | .listStoreRange | .textRange | .hugeIndex => "IndexError"
  | .outOfMemory => "MemoryError"
  | .noAttribute _ _ | .typeNoAttribute _ _ | .readOnlyAttribute _ _ | .computedAttribute _ _ =>
    "AttributeError"
  | .unboundLocal _ => "UnboundLocalError"
  | .unboundFree _ | .undefined _ => "NameError"
  | .unknownOperator _ => "KeyError"
  | .endlessComparison => "RecursionError"
  | .undescribed _ => "Undescribed"

/-- A name in single quotes. -/
def named (name : String) : String := "'" ++ name ++ "'"

/-- A list of names in quotes as a sentence has it. -/
def enumerated : List String → String
  | [] => ""
  | [a] => named a
  | [a, b] => named a ++ " and " ++ named b
  | names =>
    String.intercalate ", " (names.dropLast.map named) ++ ", and " ++ named (names.getLast?.getD "")

/-- `s` after a noun unless there is one of it. -/
def plural (n : Nat) : String := if n == 1 then "" else "s"

/-- The message of a fault. -/
def message : Fault → String
  | .refused reason none => reason
  | .refused reason (some line) => reason ++ " (<minicpp>, line " ++ toString line ++ ")"
  | .inputExhausted => "No more input"
  | .unimplemented name => name ++ " not implemented"
  | .integerDivision => "integer division or modulo by zero"
  | .floatDivision => "float division by zero"
  | .zeroPower => "0.0 cannot be raised to a negative power"
  | .powerRange => "(34, 'Numerical result out of range')"
  | .domain => "math domain error"
  | .tooLargeForFloat => "int too large to convert to float"
  | .negativeShift => "negative shift count"
  | .shiftRange => "too many digits in integer"
  | .notReal type => "must be real number, not " ++ type
  | .unsupported op left right =>
    "unsupported operand type(s) for " ++ op ++ ": " ++ named left ++ " and " ++ named right
  | .notConcatenable sequence other =>
    "can only concatenate " ++ sequence ++ " (not \"" ++ other ++ "\") to " ++ sequence
  | .notRepeatable type => "can't multiply sequence by non-int of type " ++ named type
  | .notOrdered op left right =>
    named op ++ " not supported between instances of " ++ named left ++ " and " ++ named right
  | .badSign op type => "bad operand type for unary " ++ op ++ ": " ++ named type
  | .badAbs type => "bad operand type for abs(): " ++ named type
  | .listRange => "list index out of range"
  | .listStoreRange => "list assignment index out of range"
  | .textRange => "string index out of range"
  | .listKey type => "list indices must be integers or slices, not " ++ type
  | .textKey type => "string indices must be integers, not " ++ named type
  | .hugeIndex | .hugeCount => "cannot fit 'int' into an index-sized integer"
  | .outOfMemory => ""
  | .notSubscriptable type => named type ++ " object is not subscriptable"
  | .typeNotSubscriptable name => "type " ++ named name ++ " is not subscriptable"
  | .noItemStore type => named type ++ " object does not support item assignment"
  | .noAttribute type field => named type ++ " object has no attribute " ++ named field
  | .typeNoAttribute name field =>
    "type object " ++ named name ++ " has no attribute " ++ named field
  | .readOnlyAttribute type field =>
    named type ++ " object attribute " ++ named field ++ " is read-only"
  | .computedAttribute type field =>
    "attribute " ++ named field ++ " of " ++ named type ++ " objects is not writable"
  | .immutableType name field =>
    "cannot set " ++ named field ++ " attribute of immutable type " ++ named name
  | .attributeName type => "attribute name must be string, not " ++ named type
  | .notCallable type => named type ++ " object is not callable"
  | .noLength type => "object of type " ++ named type ++ " has no len()"
  | .notIterable type => named type ++ " object is not iterable"
  | .emptySequence function => function ++ "() arg is an empty sequence"
  | .textSum => "sum() can't sum strings [use ''.join(seq) instead]"
  | .zeroModulus => "pow() 3rd argument cannot be 0"
  | .notInvertible => "base is not invertible for the given modulus"
  | .badBase => "int() base must be >= 2 and <= 36, or 0"
  | .badInteger base text =>
    "invalid literal for int() with base " ++ toString base ++ ": " ++
      String.ofList ((Text.quoted text).toList.take 200)
  | .badFloat text => "could not convert string to float: " ++ Text.quoted text
  | .notInteger type =>
    "int() argument must be a string, a bytes-like object or a real number, not " ++ named type
  | .notFloat type => "float() argument must be a string or a real number, not " ++ named type
  | .nanToInteger => "cannot convert float NaN to integer"
  | .infinityToInteger => "cannot convert float infinity to integer"
  | .missing function params =>
    function ++ "() missing " ++ toString params.length ++ " required positional argument" ++
      plural params.length ++ ": " ++ enumerated params
  | .excess function least most given =>
    let range := if least == most then toString most
      else "from " ++ toString least ++ " to " ++ toString most
    function ++ "() takes " ++ range ++ " positional argument" ++
      (if least == most then plural most else "s") ++ " but " ++ toString given ++
      (if given == 1 then " was" else " were") ++ " given"
  | .badCall complaint => complaint
  | .unboundLocal name =>
    "cannot access local variable " ++ named name ++ " where it is not associated with a value"
  | .unboundFree name =>
    "cannot access free variable " ++ named name ++
      " where it is not associated with a value in enclosing scope"
  | .undefined name => "name " ++ named name ++ " is not defined"
  | .unknownOperator key => key
  | .digitLimit digits => Number.limitMessage digits
  | .endlessComparison => "maximum recursion depth exceeded in comparison"
  | .undescribed part => part.text

end Fault

end ConsoleCpp.Machine

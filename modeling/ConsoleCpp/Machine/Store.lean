/-
Elements and fields: reading them, storing to them, and updating them as part of an expression; and
the creation of arrays and objects.
-/
import ConsoleCpp.Machine.Arith
import ConsoleCpp.Number.Reading
import ConsoleCpp.Target.Name

namespace ConsoleCpp.Machine

/-! ## Elements -/

/-- The place of an index among `size` elements; a negative one counts from the end. -/
def position? (size : Nat) (n : Int) : Option Nat :=
  let i := if n < 0 then n + size else n
  if 0 ≤ i && i < size then some i.toNat else none

/-- Whether an integer is too large for an index. -/
def isHuge (n : Int) : Bool := n < -(Number.pow2 63 : Int) || (Number.pow2 63 : Int) ≤ n

/-- The element of a list or text at a key. -/
def getItem (s : State) (owner key : Value) : Except Fault Value :=
  match owner with
  | .list ref =>
    match key.int? with
    | none => .error (.listKey key.typeName)
    | some n =>
      if isHuge n then .error .hugeIndex
      else
        match (position? (s.list ref).size n).bind ((s.list ref)[·]?) with
        | some v => .ok v
        | none => .error .listRange
  | .text t =>
    match key.int? with
    | none => .error (.textKey key.typeName)
    | some n =>
      if isHuge n then .error .hugeIndex
      else
        match (position? t.length n).bind (t.toList[·]?) with
        | some c => .ok (.text c.toString)
        | none => .error .textRange
  | .builtin b =>
    .error (if b.isType then .typeNotSubscriptable b.name else .notSubscriptable owner.typeName)
  | _ => .error (.notSubscriptable owner.typeName)

/-- The list and the place in it that a store to an element goes to. -/
def itemCell (s : State) (owner key : Value) : Except Fault (Nat × Nat) :=
  match owner with
  | .list ref =>
    match key.int? with
    | none => .error (.listKey key.typeName)
    | some n =>
      if isHuge n then .error .hugeIndex
      else
        match position? (s.list ref).size n with
        | some i => .ok (ref, i)
        | none => .error .listStoreRange
  | .text _ =>
    .error (if key.int?.any isHuge then .hugeIndex else .noItemStore owner.typeName)
  | _ => .error (.noItemStore owner.typeName)

/-- Stores a value in an element of a list. -/
def setItem (owner key v : Value) : Run Unit := do
  let (ref, i) ← orFault (itemCell (← get) owner key)
  changeList ref (·.setIfInBounds i v)

/-! ## Attributes -/

/-- The names that Python gives a meaning of its own as attributes. -/
def specialNames : List String :=
  ["__abs__", "__abstractmethods__", "__add__", "__and__", "__annotations__", "__base__",
    "__bases__", "__basicsize__", "__bool__", "__builtins__", "__call__", "__ceil__", "__class__",
    "__class_getitem__", "__closure__", "__code__", "__contains__", "__defaults__", "__delattr__",
    "__delitem__", "__dict__", "__dictoffset__", "__dir__", "__divmod__", "__doc__", "__eq__",
    "__flags__", "__float__", "__floor__", "__floordiv__", "__format__", "__ge__", "__get__",
    "__getattribute__", "__getformat__", "__getitem__", "__getnewargs__", "__getstate__",
    "__globals__", "__gt__", "__hash__", "__iadd__", "__imul__", "__index__", "__init__",
    "__init_subclass__", "__instancecheck__", "__int__", "__invert__", "__itemsize__", "__iter__",
    "__kwdefaults__", "__le__", "__len__", "__lshift__", "__lt__", "__mod__", "__module__", "__mro__",
    "__mul__", "__name__", "__ne__", "__neg__", "__new__", "__or__", "__pos__", "__pow__",
    "__prepare__", "__qualname__", "__radd__", "__rand__", "__rdivmod__", "__reduce__",
    "__reduce_ex__", "__repr__", "__reversed__", "__rfloordiv__", "__rlshift__", "__rmod__",
    "__rmul__", "__ror__", "__round__", "__rpow__", "__rrshift__", "__rshift__", "__rsub__",
    "__rtruediv__", "__rxor__", "__self__", "__setattr__", "__setitem__", "__sizeof__", "__str__",
    "__sub__", "__subclasscheck__", "__subclasses__", "__subclasshook__", "__text_signature__",
    "__truediv__", "__trunc__", "__weakrefoffset__", "__xor__"]

def isSpecial (field : String) : Bool := Target.isPrivate field && specialNames.contains field

def textMethods : List String :=
  ["capitalize", "casefold", "center", "count", "encode", "endswith", "expandtabs", "find",
    "format", "format_map", "index", "isalnum", "isalpha", "isascii", "isdecimal", "isdigit",
    "isidentifier", "islower", "isnumeric", "isprintable", "isspace", "istitle", "isupper", "join",
    "ljust", "lower", "lstrip", "maketrans", "partition", "removeprefix", "removesuffix", "replace",
    "rfind", "rindex", "rjust", "rpartition", "rsplit", "rstrip", "split", "splitlines", "startswith",
    "strip", "swapcase", "title", "translate", "upper", "zfill"]

def listMethods : List String :=
  ["append", "clear", "copy", "count", "extend", "index", "insert", "pop", "remove", "reverse",
    "sort"]

/-- The attributes of integers that are parts of them. -/
def integerParts : List String := ["denominator", "imag", "numerator", "real"]

def integerMethods : List String :=
  ["as_integer_ratio", "bit_count", "bit_length", "conjugate", "from_bytes", "to_bytes"]

/-- The attributes of doubles that are parts of them. -/
def floatParts : List String := ["imag", "real"]

def floatMethods : List String :=
  ["as_integer_ratio", "conjugate", "fromhex", "hex", "is_integer"]

/-- The attributes of a value that are computed from it and cannot be set. -/
def partsOf : Value → List String
  | .int _ | .bool _ => integerParts
  | .float _ => floatParts
  | _ => []

def methodsOf : Value → List String
  | .text _ => textMethods
  | .list _ => listMethods
  | .int _ | .bool _ => integerMethods
  | .float _ => floatMethods
  | _ => []

/-- The attributes of a type. -/
def typeAttributes : Builtin → List String
  | .str => "mro" :: textMethods
  | .int => "mro" :: (integerParts ++ integerMethods)
  | .float => "mro" :: (floatParts ++ floatMethods)
  | _ => []

/-- The attributes of a value that it has without being given them. -/
def attributesOf : Value → List String
  | .builtin b => typeAttributes b
  | v => partsOf v ++ methodsOf v

/-! ## Fields -/

/-- The complaint about an attribute that is neither a field nor one of the methods described. -/
def missingAttr (owner : Value) (field : String) : Fault :=
  if (attributesOf owner).contains field then .undescribed (.attribute owner.typeName field)
  else
    match owner with
    | .builtin b =>
      if b.isType then .typeNoAttribute b.name field else .noAttribute owner.typeName field
    | _ => .noAttribute owner.typeName field

/-- The field of an object, or the method of a text or list. -/
def getAttr (s : State) (owner : Value) (field : String) : Except Fault Value :=
  if isSpecial field then .error (.undescribed (.attribute owner.typeName field))
  else
    match owner, field with
    | .object ref, field =>
      match (s.object ref).lookup field with
      | some v => .ok v
      | none => .error (missingAttr owner field)
    | .function f, field =>
      match (s.object f.ref).lookup field with
      | some v => .ok v
      | none => .error (missingAttr owner field)
    | .text t, "upper" => .ok (.method (.upper t))
    | .text t, "lower" => .ok (.method (.lower t))
    | .list ref, "append" => .ok (.method (.append ref))
    | _, field => .error (missingAttr owner field)

/-- A table of fields with a value in a field, in place of the one it had. -/
def withField (fields : List (String × Value)) (field : String) (v : Value) :
    List (String × Value) :=
  match fields with
  | [] => [(field, v)]
  | (f, old) :: rest =>
    if f == field then (field, v) :: rest else (f, old) :: withField rest field v

/-- The complaint about a store to a field of a value that takes none. -/
def noStore (owner : Value) (field : String) : Fault :=
  if (methodsOf owner).contains field then .readOnlyAttribute owner.typeName field
  else if (partsOf owner).contains field then
    .computedAttribute (if owner.int?.isSome then "int" else owner.typeName) field
  else
    match owner with
    | .builtin b =>
      if b.isType then .immutableType b.name field else .noAttribute owner.typeName field
    | _ => .noAttribute owner.typeName field

/-- The object that a store to a field goes to. -/
def attrCell (owner : Value) (field : String) : Except Fault Nat :=
  if isSpecial field then .error (.undescribed (.attribute owner.typeName field))
  else
    match owner with
    | .object ref => .ok ref
    | .function f => .ok f.ref
    | _ => .error (noStore owner field)

/-- Stores a value in a field of an object. -/
def setAttr (owner : Value) (field : String) (v : Value) : Run Unit := do
  let ref ← orFault (attrCell owner field)
  changeObject ref (withField · field v)

/-! ## Stores in expressions -/

/-- Stores a value in an element and gives it back. -/
def storeItem (owner key v : Value) : Run Value := do
  setItem owner key v
  return v

/-- Stores a value in a field and gives it back. -/
def storeAttr (owner : Value) (field : String) (v : Value) : Run Value := do
  setAttr owner field v
  return v

/-- Replaces an element by what `combine` makes of it, and gives back the old or the new one. -/
def updateItem (owner key : Value) (combine : Value → Run Value) (keepsOld : Bool) : Run Value := do
  let old ← orFault (getItem (← get) owner key)
  let new ← combine old
  setItem owner key new
  if keepsOld then return old else orFault (getItem (← get) owner key)

/-- Replaces a field by what `combine` makes of it, and gives back the old or the new one. -/
def updateAttr (owner : Value) (field : String) (combine : Value → Run Value) (keepsOld : Bool) :
    Run Value := do
  let old ← orFault (getAttr (← get) owner field)
  let new ← combine old
  setAttr owner field new
  if keepsOld then return old else orFault (getAttr (← get) owner field)

/-! ## Numbers, arrays and objects -/

/-- The number that an input word stands for; a word that is none gives the double that is no
number. -/
def number (word : String) : Value :=
  match Number.readInt word with
  | .value n => .int n
  | _ => .float ((Number.readFloat? word).getD Number.nan)

/-- A value as an integer, doubles truncated. -/
def integerOf (v : Value) : Except Fault Int :=
  match v with
  | .int n => .ok n
  | .bool b => .ok (if b then 1 else 0)
  | .float x =>
    match Number.parts x, Number.truncate? x with
    | .nan, _ => .error .nanToInteger
    | _, some n => .ok n
    | _, none => .error .infinityToInteger
  | .text t =>
    match Number.readInt t with
    | .value n => .ok n
    | .malformed => .error (.badInteger 10 t)
    | .tooLong digits => .error (.digitLimit (some digits))
  | v => .error (.notInteger v.typeName)

/-- A value as a number; what is none gives a double that is no number. -/
def numberOf (v : Value) : Except Fault Value :=
  match v with
  | .text word => .ok (number word)
  | v =>
    match integerOf v with
    | .ok n => .ok (.int n)
    | .error .nanToInteger => .ok (.float Number.nan)
    | .error f => .error f

/-- The value that the elements of a new array of this type have. -/
def defaultElement (typeName : String) : Value :=
  match typeName with
  | "int" => .int 0
  | "float" | "double" => .float 0.0
  | "char" | "string" => .text ""
  | "bool" => .bool false
  | _ => .none

/-- A new array. -/
def newArray (size : Value) (typeName : String) : Run Value := do
  let n ← orFault (integerOf size)
  let count ← orFault (repetitions 1 n)
  newList (Array.replicate count (defaultElement typeName))

/-- A new object, which has its type in a field. -/
def newInstance (type : Value) : Run Value := newObject [("__type__", type)]

end ConsoleCpp.Machine

/-
Operators on values. Integers are unbounded and divide as in C, truncating; an operation with a
double is one on doubles. Texts and lists are joined by `+` and repeated by `*`.
-/
import ConsoleCpp.Machine.Compare
import ConsoleCpp.Source.Operator

namespace ConsoleCpp.Machine

/-! ## Numbers -/

/-- A number as a double. -/
def Num.toFloat : Num → Except Fault Float
  | .float x => .ok x
  | .int n =>
    match Number.ofInt? n with
    | some x => .ok x
    | none => .error .tooLargeForFloat

/-- An operation on doubles applied to two numbers of which one is a double. -/
def onFloats (f : Float → Float → Float) (x y : Num) : Except Fault Value := do
  let a ← x.toFloat
  let b ← y.toFloat
  return .float (f a b)

/-- Sum, difference or product of two numbers. -/
def plainArith (onInt : Int → Int → Int) (onFloat : Float → Float → Float) :
    Num → Num → Except Fault Value
  | .int a, .int b => .ok (.int (onInt a b))
  | x, y => onFloats onFloat x y

/-- The quotient of two integers, truncated: that of their sizes, negative where one of them is. -/
def intQuotient (a b : Int) : Except Fault Int :=
  if b == 0 then .error .integerDivision
  else
    let size := a.natAbs / b.natAbs
    .ok (if decide (a < 0) == decide (b < 0) then size else -size)

/-- The remainder that belongs to the truncated quotient; it has the sign of the dividend. -/
def intRemainder (a b : Int) : Except Fault Int := do
  return a - b * (← intQuotient a b)

/-- The quotient of two numbers. -/
def numQuotient : Num → Num → Except Fault Value
  | .int a, .int b => return .int (← intQuotient a b)
  | x, y => do
    let a ← x.toFloat
    let b ← y.toFloat
    if b == 0.0 then .error .floatDivision else return .float (a / b)

/-- The remainder of two doubles. -/
def floatRemainder (a b : Float) : Except Fault Value :=
  match Number.remainder? a b with
  | some r => .ok (.float r)
  | none => .error .domain

/-- A value as a real number. -/
def realOf (v : Value) : Except Fault Float :=
  match v.num? with
  | some x => x.toFloat
  | none => .error (.notReal v.typeName)

/-- The remainder of two values. -/
def remainder (a b : Value) : Except Fault Value :=
  match a.int?, b.int? with
  | some m, some n => return .int (← intRemainder m n)
  | _, _ => do floatRemainder (← realOf a) (← realOf b)

/-- The quotient of two values. -/
def divide (a b : Value) : Except Fault Value :=
  match a.num?, b.num? with
  | some x, some y => numQuotient x y
  | _, _ => .error (.unsupported "/" a.typeName b.typeName)

/-! ## Bits -/

/-- The bits in both of two integers in two's complement. -/
def intAnd (a b : Int) : Int :=
  match a, b with
  | .ofNat m, .ofNat n => Int.ofNat (m &&& n)
  | .ofNat m, .negSucc n => Int.ofNat (m ^^^ (m &&& n))
  | .negSucc m, .ofNat n => Int.ofNat (n ^^^ (n &&& m))
  | .negSucc m, .negSucc n => .negSucc (m ||| n)

/-- The bits in one or both of two integers. -/
def intOr (a b : Int) : Int := -1 - intAnd (-1 - a) (-1 - b)

/-- The bits in exactly one of two integers. -/
def intXor (a b : Int) : Int :=
  match a, b with
  | .ofNat m, .ofNat n => Int.ofNat (m ^^^ n)
  | .ofNat m, .negSucc n => .negSucc (m ^^^ n)
  | .negSucc m, .ofNat n => .negSucc (m ^^^ n)
  | .negSucc m, .negSucc n => Int.ofNat (m ^^^ n)

/-- A bit operation; of two truth values it is a truth value. -/
def bitwise (op : String) (onBool : Bool → Bool → Bool) (onInt : Int → Int → Int) (a b : Value) :
    Except Fault Value :=
  match a, b with
  | .bool x, .bool y => .ok (.bool (onBool x y))
  | _, _ =>
    match a.int?, b.int? with
    | some m, some n => .ok (.int (onInt m n))
    | _, _ => .error (.unsupported op a.typeName b.typeName)

/-- Whether two values make a type that has the values of both. Nothing stands for its type. -/
def formsUnion : Value → Value → Bool
  | .builtin b, .builtin c => b.isType && c.isType
  | .builtin b, .none | .none, .builtin b => b.isType
  | _, _ => false

/-- The bits in one or both of two values. -/
def bitOr (a b : Value) : Except Fault Value :=
  if formsUnion a b then .error (.undescribed .typeUnion) else bitwise "|" (· || ·) intOr a b

/-- The widest shift that is computed. -/
def maxShift : Nat := Number.pow2 40

/-- A shift of an integer to the left. -/
def shiftLeft (m : Int) (n : Nat) : Except Fault Value :=
  if m == 0 then .ok (.int 0)
  else if maxShift < n then .error .shiftRange
  else .ok (.int (m * Number.pow2 n))

/-- A shift of an integer to the right, rounding down. -/
def shiftRight (m : Int) (n : Nat) : Value :=
  if maxShift < n then .int (if m < 0 then -1 else 0) else .int (m.fdiv (Number.pow2 n))

/-- A shift of two values. -/
def shift (op : String) (onInt : Int → Nat → Except Fault Value) (a b : Value) :
    Except Fault Value :=
  match a.int?, b.int? with
  | some m, some n => if n < 0 then .error .negativeShift else onInt m n.toNat
  | _, _ => .error (.unsupported op a.typeName b.typeName)

/-! ## Texts and lists -/

/-- The most repetitions that fit an index. -/
def maxCount : Nat := Number.pow2 63

/-- The most elements that a repetition may make. -/
def maxElements : Nat := Number.pow2 36

/-- How often a sequence of `size` elements is repeated. -/
def repetitions (size : Nat) (n : Int) : Except Fault Nat :=
  if maxCount ≤ n.natAbs && n != -maxCount then .error .hugeCount
  else if maxElements < size * n.toNat then .error .outOfMemory
  else .ok n.toNat

/-- The elements of a list, some number of times over. -/
def repeated (items : Array Value) (n : Nat) : Array Value :=
  n.fold (fun _ _ acc => acc ++ items) #[]

/-- A text some number of times over. -/
def repeatedText (t : String) (n : Nat) : String :=
  n.fold (fun _ _ acc => acc ++ t) ""

/-- A text or list repeated. -/
def repeatSequence (sequence : Value) (n : Int) : Run Value := do
  match sequence with
  | .text t => return .text (repeatedText t (← orFault (repetitions t.length n)))
  | .list ref =>
    let items := (← get).list ref
    newList (repeated items (← orFault (repetitions items.size n)))
  | v => return v

def isSequence : Value → Bool
  | .text _ | .list _ => true
  | _ => false

/-- The sum of two values. `op` is the operator that a complaint names. -/
def sum (op : String) (a b : Value) : Run Value :=
  match a, b with
  | .text x, .text y => pure (.text (x ++ y))
  | .list p, .list q => do
    let s ← get
    newList (s.list p ++ s.list q)
  | .text _, _ => fault (.notConcatenable "str" b.typeName)
  | .list _, _ => fault (.notConcatenable "list" b.typeName)
  | _, _ =>
    match a.num?, b.num? with
    | some x, some y => orFault (plainArith (· + ·) (· + ·) x y)
    | _, _ => fault (.unsupported op a.typeName b.typeName)

/-- The difference of two values. -/
def difference (op : String) (a b : Value) : Run Value :=
  match a.num?, b.num? with
  | some x, some y => orFault (plainArith (· - ·) (· - ·) x y)
  | _, _ => fault (.unsupported op a.typeName b.typeName)

/-- The product of two values. -/
def product (op : String) (a b : Value) : Run Value :=
  match a.num?, b.num? with
  | some x, some y => orFault (plainArith (· * ·) (· * ·) x y)
  | _, _ =>
    if isSequence a then
      match b.int? with
      | some n => repeatSequence a n
      | none => fault (.notRepeatable b.typeName)
    else if isSequence b then
      match a.int? with
      | some n => repeatSequence b n
      | none => fault (.notRepeatable a.typeName)
    else fault (.unsupported op a.typeName b.typeName)

/-! ## Operators -/

/-- An operation of arithmetic. -/
def arith (op : ArithOp) (a b : Value) : Run Value :=
  match op with
  | .add => sum "+" a b
  | .sub => difference "-" a b
  | .mul => product "*" a b
  | .div => orFault (divide a b)
  | .mod => orFault (remainder a b)

/-- A test of order as a value. -/
def orderTest (op : OrderOp) (a b : Value) : Run Value := do
  return .bool (← orFault ((← get).ordered op a b))

/-- An operator between two values that are both needed. -/
def binary (op : BinaryOp) (a b : Value) : Run Value :=
  match op with
  | .add => arith .add a b
  | .sub => arith .sub a b
  | .mul => arith .mul a b
  | .div => arith .div a b
  | .mod => arith .mod a b
  | .eq => do return .bool (← orFault ((← get).equal a b))
  | .ne => do return .bool (!(← orFault ((← get).equal a b)))
  | .lt => orderTest .lt a b
  | .le => orderTest .le a b
  | .gt => orderTest .gt a b
  | .ge => orderTest .ge a b
  | .bitAnd => orFault (bitwise "&" (· && ·) intAnd a b)
  | .bitOr => orFault (bitOr a b)
  | .bitXor => orFault (bitwise "^" (· != ·) intXor a b)
  | .shiftLeft => orFault (shift "<<" shiftLeft a b)
  | .shiftRight => orFault (shift ">>" (fun m n => .ok (shiftRight m n)) a b)
  | .and => do return if (← get).truthy a then b else a
  | .or => do return if (← get).truthy a then a else b

/-- An operator before a value. -/
def sign (op : SignOp) (v : Value) : Run Value :=
  match op with
  | .not => do return .bool (!(← get).truthy v)
  | .plus =>
    match v.num? with
    | some (.int n) => pure (.int n)
    | some (.float x) => pure (.float x)
    | none => fault (.badSign op.text v.typeName)
  | .minus =>
    match v.num? with
    | some (.int n) => pure (.int (-n))
    | some (.float x) => pure (.float (-x))
    | none => fault (.badSign op.text v.typeName)
  | .complement =>
    match v.int? with
    | some n => pure (.int (-1 - n))
    | none => fault (.badSign op.text v.typeName)

/-- The elements of a value that can be gone through. -/
def elements (v : Value) : Run (Array Value) :=
  match v with
  | .list ref => do return (← get).list ref
  | .text t => pure (t.toList.map fun c => Value.text c.toString).toArray
  | v => fault (.notIterable v.typeName)

/-- The new value of a place under a compound assignment statement. A list is extended or repeated
in place; anything else is combined as usual. -/
def inPlace (op : ArithOp) (old v : Value) : Run Value :=
  match op, old with
  | .add, .list ref => do
    let more ← elements v
    changeList ref (· ++ more)
    return old
  | .mul, .list ref =>
    match v.int? with
    | some n => do
      let count ← orFault (repetitions ((← get).list ref).size n)
      changeList ref (repeated · count)
      return old
    | none => fault (.notRepeatable v.typeName)
  | .add, _ => sum "+=" old v
  | .sub, _ => difference "-=" old v
  | .mul, _ => product "*=" old v
  | op, _ => arith op old v

end ConsoleCpp.Machine

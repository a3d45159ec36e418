/-
The functions that a program finds without defining them, and the methods of texts and lists.
-/
import ConsoleCpp.Machine.Show
import ConsoleCpp.Machine.Store
import ConsoleCpp.Text.Case

namespace ConsoleCpp.Machine

/-- The complaint about a function of one parameter called with some other number of arguments. -/
def exactlyOne (name : String) (given : Nat) : Fault :=
  .badCall (name ++ "() takes exactly one argument (" ++ toString given ++ " given)")

/-- The element that is in order `op` to all before it, starting from `best`; of equal ones the
first. -/
def extreme (op : OrderOp) (best : Value) : List Value → Run Value
  | [] => pure best
  | v :: rest => do
    if ← orFault ((← get).ordered op v best) then extreme op v rest else extreme op best rest

/-- The greatest or least of several arguments, or of the elements of one. -/
def extremeOf (name : String) (op : OrderOp) (args : List Value) : Run Value :=
  match args with
  | [] => fault (.badCall (name ++ " expected at least 1 argument, got 0"))
  | [v] => do
    match (← elements v).toList with
    | [] => fault (.emptySequence name)
    | first :: rest => extreme op first rest
  | first :: rest => extreme op first rest

/-- A finite double to a power of a finite double. That of a negative one is no real number, unless
the exponent is an integer. -/
def finitePower (x y : Float) : Except Fault Value :=
  if x == 0.0 && y < 0.0 then .error .zeroPower
  else if x < 0.0 && !Number.isIntegral y then .error (.undescribed .complexPower)
  else
    let result := Float.pow x y
    match Number.parts result with
    | .infinite _ => .error .powerRange
    | _ => .ok (.float result)

/-- A double to a power of a double. -/
def floatPower (x y : Float) : Except Fault Value :=
  if x.isFinite && y.isFinite then finitePower x y else .ok (.float (Float.pow x y))

/-- A number to a power of a number. An integer to a negative integer is a double. -/
def power : Num → Num → Except Fault Value
  | .int a, .int b =>
    if 0 ≤ b then .ok (.int (a.pow b.toNat))
    else do floatPower (← (Num.int a).toFloat) (← (Num.int b).toFloat)
  | x, y => do floatPower (← x.toFloat) (← y.toFloat)

/-- `base` to the power `n`, reduced by the modulus `m` at every step. -/
def powerMod (m : Nat) (base n : Nat) : Nat :=
  if n == 0 then 1 % m
  else
    let half := powerMod m (base * base % m) (n / 2)
    if n % 2 == 1 then base * half % m else half
termination_by n
decreasing_by simp_all; omega

/-- The number in `[0, m)` whose product with `a` leaves the remainder 1 by `m`. -/
def inverseMod? (a m : Nat) : Option Nat :=
  if Nat.gcd a m == 1 then
    some ((gcdCoefficient m a 0 1 m).emod m).toNat
  else none
where
  /-- The Euclidean algorithm on `r` and `s`, which are `t * a` and `u * a` by the modulus; it takes
  at most `steps` steps. -/
  gcdCoefficient (r s : Nat) (t u : Int) : Nat → Int
    | 0 => t
    | steps + 1 => if s == 0 then t else gcdCoefficient s (r % s) u (t - (r / s : Nat) * u) steps

def isFloat : Value → Bool
  | .float _ => true
  | _ => false

/-- A power by a modulus. The result has the sign of the modulus. -/
def modularPower (a b modulus : Value) : Except Fault Value :=
  match a.int?, b.int?, modulus.int? with
  | some x, some n, some m =>
    if m == 0 then .error .zeroModulus
    else
      let size := m.natAbs
      let reduced := (x.emod size).toNat
      let base := if n < 0 then inverseMod? reduced size else some reduced
      match base with
      | none => .error .notInvertible
      | some base => .ok (.int (((powerMod size base n.natAbs : Nat) : Int).fmod m))
  | _, _, _ =>
    if [a, b, modulus].any isFloat then
      .error (.badCall "pow() 3rd argument not allowed unless all arguments are integers")
    else
      let types := [a, b, modulus].map fun v => Fault.named v.typeName
      .error (.badCall ("unsupported operand type(s) for ** or pow(): " ++
        String.intercalate ", " types))

/-- A value to the power of another. -/
def plainPower (a b : Value) : Except Fault Value :=
  match a.num?, b.num? with
  | some x, some y => power x y
  | _, _ => .error (.unsupported "** or pow()" a.typeName b.typeName)

/-- A value to a power. -/
def powerOf (args : List Value) : Run Value :=
  match args with
  | [] => fault (.badCall "pow() missing required argument 'base' (pos 1)")
  | [_] => fault (.badCall "pow() missing required argument 'exp' (pos 2)")
  | [a, b] | [a, b, .none] => orFault (plainPower a b)
  | [a, b, modulus] => orFault (modularPower a b modulus)
  | _ =>
    fault (.badCall ("pow() takes at most 3 arguments (" ++ toString args.length ++ " given)"))

/-- The absolute value. -/
def absolute (v : Value) : Run Value :=
  match v.num? with
  | some (.int n) => pure (.int n.natAbs)
  | some (.float x) => pure (.float x.abs)
  | none => fault (.badAbs v.typeName)

/-- The number of elements. -/
def lengthOf (v : Value) : Run Value := do
  match v with
  | .text t => return .int t.length
  | .list ref => return .int ((← get).list ref).size
  | v => fault (.noLength v.typeName)

/-- A value as a double. -/
def floatOf (v : Value) : Except Fault Value :=
  match v with
  | .text t =>
    match Number.readFloat? t with
    | some x => .ok (.float x)
    | none => .error (.badFloat t)
  | v =>
    match v.num? with
    | some x => return .float (← x.toFloat)
    | none => .error (.notFloat v.typeName)

/-- The value of a digit: letters of either case count on from ten. -/
def letterDigit? (c : Char) : Option Nat :=
  match Text.digitValue? c with
  | some d => some d
  | none =>
    let letter := (Number.lowerAscii c).toNat
    if 'a'.toNat ≤ letter && letter ≤ 'z'.toNat then some (letter - 'a'.toNat + 10) else none

/-- The number that digits write in a base. -/
def natInBase? (base : Nat) (digits : List Char) : Option Nat :=
  if digits.isEmpty then none
  else
    digits.foldlM (fun n c => (letterDigit? c).bind fun d =>
      if d < base then some (n * base + d) else none) 0

/-- A text as an integer in a base. -/
def integerInBase (text base : Value) : Except Fault Value :=
  match base.int?, text with
  | none, _ =>
    .error (.badCall (Fault.named base.typeName ++ " object cannot be interpreted as an integer"))
  | some base, .text t =>
    if base < 2 || 36 < base then .error .badBase
    else if base == 10 then return .int (← integerOf text)
    else
      let (negative, digits) :=
        Number.takeSign (Text.trimBoth Number.isPadding t.toList)
      match natInBase? base.toNat digits with
      | some n => .ok (.int (Number.signed negative n))
      | none => .error (.badInteger base.toNat t)
  | some _, _ => .error (.badCall "int() can't convert non-string with explicit base")

/-- What is wrong with the second and third argument of a conversion to a text. Only raw bytes can
be decoded, and no value is any. -/
def decodingComplaint (v : Value) (options : List Value) : String :=
  match (["encoding", "errors"].zip options).find? fun (_, x) => !isText x with
  | some (option, x) => "str() argument '" ++ option ++ "' must be str, not " ++ x.typeName
  | none =>
    if isText v then "decoding str is not supported"
    else "decoding to str: need a bytes-like object, " ++ v.typeName ++ " found"
where
  isText : Value → Bool
    | .text _ => true
    | _ => false

/-- The sum of values after a first one. -/
def sumFrom (total : Value) : List Value → Run Value
  | [] => pure total
  | v :: rest => do sumFrom (← sum "+" total v) rest

/-- The sum of the elements of a value. -/
def sumOf (args : List Value) : Run Value :=
  match args with
  | [] => fault (.badCall "sum() takes at least 1 positional argument (0 given)")
  | [v] => do sumFrom (.int 0) (← elements v).toList
  | [v, start] => do
    let items ← elements v
    match start with
    | .text _ => fault .textSum
    | start => sumFrom start items.toList
  | _ =>
    fault (.badCall ("sum() takes at most 2 arguments (" ++ toString args.length ++ " given)"))

/-- Appends a text to what is printed past the output. -/
def printText (t : String) : Run Unit :=
  modify fun s => { s with printed := s.printed ++ t }

/-- Prints values past the output, each after the text `gap` and the ones that follow after a space.
What stands before a value that has no text is printed all the same. -/
def printValues (gap : String) : List Value → Run Unit
  | [] => pure ()
  | v :: rest => do
    printText gap
    printText (← orFault ((← get).asText v))
    printValues " " rest

/-- Prints values on a line past the output. -/
def printLine (args : List Value) : Run Value := do
  printValues "" args
  printText "\n"
  return .none

/-- A call of a built-in function. -/
def callBuiltin (b : Builtin) (args : List Value) : Run Value :=
  match b, args with
  | .max, args => extremeOf "max" .gt args
  | .min, args => extremeOf "min" .lt args
  | .abs, [v] => absolute v
  | .len, [v] => lengthOf v
  | .pow, args => powerOf args
  | .sum, args => sumOf args
  | .print, args => printLine args
  | .int, [] => pure (.int 0)
  | .int, [v] => do return .int (← orFault (integerOf v))
  | .float, [] => pure (.float 0.0)
  | .float, [v] => orFault (floatOf v)
  | .str, [] => pure (.text "")
  | .str, [v] => do return .text (← orFault ((← get).asText v))
  | .int, [text, base] => orFault (integerInBase text base)
  | .int, args =>
    fault (.badCall ("int() takes at most 2 arguments (" ++ toString args.length ++ " given)"))
  | .str, [v, encoding] => fault (.badCall (decodingComplaint v [encoding]))
  | .str, [v, encoding, errors] => fault (.badCall (decodingComplaint v [encoding, errors]))
  | .str, args =>
    fault (.badCall ("str() takes at most 3 arguments (" ++ toString args.length ++ " given)"))
  | .abs, args | .len, args => fault (exactlyOne b.name args.length)
  | _, args =>
    fault (.badCall (b.name ++ " expected at most 1 argument, got " ++ toString args.length))

/-- A call of a method. -/
def callMethod (m : Method) (args : List Value) : Run Value :=
  match m, args with
  | .upper t, [] => pure (.text (Text.upper t))
  | .lower t, [] => pure (.text (Text.lower t))
  | .append ref, [v] => do
    changeList ref (·.push v)
    return .none
  | .upper _, args =>
    fault (.badCall ("str.upper() takes no arguments (" ++ toString args.length ++ " given)"))
  | .lower _, args =>
    fault (.badCall ("str.lower() takes no arguments (" ++ toString args.length ++ " given)"))
  | .append _, args => fault (exactlyOne "list.append" args.length)

end ConsoleCpp.Machine

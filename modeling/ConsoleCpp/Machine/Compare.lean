/-
Comparison of values. Any two values can be tested for equality; lists and objects are equal when
what they hold is. Only numbers, texts and lists are ordered, each among themselves.
-/
import ConsoleCpp.Machine.Value
import ConsoleCpp.Number.Double

namespace ConsoleCpp.Machine

/-- How two numbers compare, exactly, unless one of them is no number. -/
def Num.compare : Num → Num → Option Ordering
  | .int a, .int b => some (Ord.compare a b)
  | .int a, .float y => Number.compareInt a y
  | .float x, .int b => (Number.compareInt b x).map Ordering.swap
  | .float x, .float y => Number.compareFloat x y

/-- How two texts compare by the code points of their characters. -/
def compareText : List Char → List Char → Ordering
  | [], [] => .eq
  | [], _ :: _ => .lt
  | _ :: _, [] => .gt
  | a :: as, b :: bs =>
    match Ord.compare a.toNat b.toNat with
    | .eq => compareText as bs
    | other => other

/-- Whether two values are both the double that is no number. -/
def bothNan : Value → Value → Bool
  | .float x, .float y => x.isNaN && y.isNaN
  | _, _ => false

/-- Whether the values that two lists hold at a place, or two objects in a field, count as equal. What
is no number equals nothing, but one that both hold does count. -/
def heldEqual (equal : Value → Value → Except Fault Bool) (x y : Value) : Except Fault Bool :=
  if bothNan x y then .error (.undescribed (.identity "float")) else equal x y

/-- Whether two methods are equal: they are if they are the same of one object. -/
def equalMethods : Method → Method → Except Fault Bool
  | .append p, .append q => .ok (p == q)
  | .upper t, .upper u | .lower t, .lower u =>
    if t == u then .error (.undescribed (.identity "str")) else .ok false
  | _, _ => .ok false

/-- Whether two values are equal, looking at most `depth` levels into lists and objects. -/
def equalTo (s : State) : (depth : Nat) → Value → Value → Except Fault Bool
  | 0, _, _ => .error .endlessComparison
  | depth + 1, a, b =>
    match a, b with
    | .none, .none => .ok true
    | .text x, .text y => .ok (x == y)
    | .list p, .list q =>
      if p == q then .ok true
      else if (s.list p).size != (s.list q).size then .ok false
      else
        ((s.list p).toList.zip (s.list q).toList).allM fun (x, y) =>
          heldEqual (equalTo s depth) x y
    | .object p, .object q =>
      if p == q then .ok true
      else if (s.object p).length != (s.object q).length then .ok false
      else
        (s.object p).allM fun (field, x) =>
          match (s.object q).lookup field with
          | some y => heldEqual (equalTo s depth) x y
          | none => .ok false
    | .function f, .function g => .ok (f.ref == g.ref)
    | .builtin f, .builtin g => .ok (f == g)
    | .method f, .method g => equalMethods f g
    | a, b =>
      match a.num?, b.num? with
      | some x, some y => .ok (x.compare y == some .eq)
      | _, _ => .ok false

/-- More than the deepest nesting of pairs of lists or objects that does not come back to itself. -/
def State.pairDepth (s : State) : Nat := s.depth * s.depth

/-- Whether two values are equal. -/
def State.equal (s : State) (a b : Value) : Except Fault Bool := equalTo s s.pairDepth a b

/-- The tests of order. -/
inductive OrderOp where
  | lt
  | le
  | gt
  | ge
deriving DecidableEq, Repr, Inhabited

namespace OrderOp

def text : OrderOp → String
  | .lt => "<"
  | .le => "<="
  | .gt => ">"
  | .ge => ">="

def holds : OrderOp → Ordering → Bool
  | .lt, o => o == .lt
  | .le, o => o != .gt
  | .gt, o => o == .gt
  | .ge, o => o != .lt

end OrderOp

/-- The first two elements at the same place that differ. -/
def firstDifference (s : State) : List Value → List Value → Except Fault (Option (Value × Value))
  | a :: as, b :: bs => do
    if ← heldEqual s.equal a b then firstDifference s as bs else return some (a, b)
  | _, _ => .ok none

/-- The name of the type in a complaint about the order of two values. Two objects are compared by
the tables of their fields. -/
def orderTypes (a b : Value) : String × String :=
  match a, b with
  | .object _, .object _ => ("dict", "dict")
  | _, _ => (a.typeName, b.typeName)

/-- Whether one value stands in some order to another, looking at most `depth` levels into lists. -/
def orderedTo (s : State) (op : OrderOp) : (depth : Nat) → Value → Value → Except Fault Bool
  | 0, _, _ => .error .endlessComparison
  | depth + 1, a, b =>
    match a, b with
    | .text x, .text y => .ok (op.holds (compareText x.toList y.toList))
    | .list p, .list q =>
      if p == q then .ok (op.holds .eq)
      else do
        match ← firstDifference s (s.list p).toList (s.list q).toList with
        | some (x, y) => orderedTo s op depth x y
        | none => return op.holds (Ord.compare (s.list p).size (s.list q).size)
    | a, b =>
      match a.num?, b.num? with
      | some x, some y => .ok ((x.compare y).any op.holds)
      | _, _ => .error (.notOrdered op.text (orderTypes a b).1 (orderTypes a b).2)

/-- Whether one value stands in some order to another. -/
def State.ordered (s : State) (op : OrderOp) (a b : Value) : Except Fault Bool :=
  orderedTo s op s.pairDepth a b

end ConsoleCpp.Machine

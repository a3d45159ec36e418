/-
The shortest decimal of a double: of the decimals with the fewest digits that round to the double,
the one nearest to it. A double is the nearest one to every quantity in the interval halfway to its
neighbours; the ends belong to it when its mantissa is even.
-/
import ConsoleCpp.Number.Double

namespace ConsoleCpp.Number

/-- The decimal `0.d₁d₂… * 10 ^ point` with these digits. -/
structure Decimal where
  digits : Nat
  point : Int
deriving DecidableEq, Repr, Inhabited

/-- Compares `a * 10 ^ p` with `b * 2 ^ e`. -/
def compareScaled (a : Nat) (p : Int) (b : Nat) (e : Int) : Ordering :=
  compare (a * pow10 p.toNat * pow2 (-e).toNat) (b * pow2 e.toNat * pow10 (-p).toNat)

/-- The quantities that round to a double, as `low * 2 ^ exponent` to `high * 2 ^ exponent`. -/
structure Interval where
  low : Nat
  high : Nat
  exponent : Int
  inclusive : Bool
deriving DecidableEq, Repr, Inhabited

/-- The interval of the positive double `mantissa * 2 ^ exponent`. The neighbour below a power of
two is nearer than the one above. -/
def intervalOf (mantissa : Nat) (exponent : Int) : Interval :=
  let near := mantissa == pow2 52 && -1074 < exponent
  ⟨if near then 4 * mantissa - 1 else 4 * mantissa - 2, 4 * mantissa + 2, exponent - 2,
    mantissa % 2 == 0⟩

/-- Whether `a * 10 ^ p` lies in an interval. -/
def Interval.contains (i : Interval) (a : Nat) (p : Int) : Bool :=
  match compareScaled a p i.low i.exponent, compareScaled a p i.high i.exponent with
  | .lt, _ | _, .gt => false
  | .eq, _ | _, .eq => i.inclusive
  | .gt, .lt => true

/-- The number of decimal digits of a number. -/
def digitCount (n : Nat) : Nat := (toString n).length

/-- The number of digits before the point, or minus the number of zeros after it, of a quantity
below one: the least `p` with the quantity below `10 ^ p`, looked for in the `fuel` numbers
below. -/
def pointBelow (num den : Nat) (p : Int) : (fuel : Nat) → Int
  | 0 => p
  | fuel + 1 => if 10 * num < den then pointBelow (10 * num) den (p - 1) fuel else p

/-- The place of the point of a quantity. -/
def pointOf (num den : Nat) : Int :=
  if den ≤ num then digitCount (num / den) else pointBelow num den 0 400

/-- The nearer of the two neighbours on the grid of `10 ^ p` that lie in the interval; a tie goes to
the even one. -/
def onGrid (i : Interval) (num den : Nat) (p : Int) : Option Nat :=
  let low := (num * pow10 (-p).toNat) / (den * pow10 p.toNat)
  let twice := 2 * ((num * pow10 (-p).toNat) % (den * pow10 p.toNat))
  let isAbove := compare twice (den * pow10 p.toNat)
  match i.contains low p, i.contains (low + 1) p with
  | false, false => none
  | true, false => some low
  | false, true => some (low + 1)
  | true, true =>
    match isAbove with
    | .lt => some low
    | .gt => some (low + 1)
    | .eq => some (if low % 2 == 0 then low else low + 1)

/-- Tries the grids from `count` digits on. -/
def firstGrid (i : Interval) (num den : Nat) (point : Int) (count : Nat) : (fuel : Nat) → Decimal
  | 0 => ⟨(num * pow10 (count - point).toNat) / (den * pow10 (point - count).toNat), point⟩
  | fuel + 1 =>
    match onGrid i num den (point - count) with
    | some digits => if digits == pow10 count then ⟨1, point + 1⟩ else ⟨digits, point⟩
    | none => firstGrid i num den point (count + 1) fuel

/-- The shortest decimal of the positive double `mantissa * 2 ^ exponent`. -/
def shortest (mantissa : Nat) (exponent : Int) : Decimal :=
  let (num, den) := quotient mantissa exponent
  firstGrid (intervalOf mantissa exponent) num den (pointOf num den) 1 17

end ConsoleCpp.Number

/-
How numbers are written. A double is written with the digits of its shortest decimal, positionally
or with an exponent, by the rules of a layout. Integers are written in full, up to a limit.
-/
import ConsoleCpp.Number.Limit
import ConsoleCpp.Number.Shortest

namespace ConsoleCpp.Number

/-- The decisions of a number format. -/
structure Layout where
  /-- The least power of ten that is written positionally. -/
  positionalFrom : Int
  /-- The least power of ten above it that is not. -/
  positionalBelow : Int
  /-- What follows the digits of an integer. -/
  wholeSuffix : String
  /-- The least number of digits of an exponent, whose sign is always written. -/
  exponentWidth : Nat
  nan : String
  infinity : String
deriving Repr, Inhabited

/-- The format of doubles in listings: positional from a ten-thousandth up to 10^16, with a point
always. -/
def listing : Layout := ⟨-4, 16, ".0", 2, "nan", "inf"⟩

/-- Digits padded with zeros at the front. -/
def padded (width n : Nat) : String :=
  let digits := toString n
  String.ofList (List.replicate (width - digits.length) '0') ++ digits

def zeros (n : Nat) : String := String.ofList (List.replicate n '0')

/-- A decimal with the point among its digits. -/
def positional (layout : Layout) (d : Decimal) : String :=
  let digits := (toString d.digits).toList
  if d.point ≤ 0 then "0." ++ zeros (-d.point).toNat ++ String.ofList digits
  else
    let whole := d.point.toNat
    if digits.length ≤ whole then
      String.ofList digits ++ zeros (whole - digits.length) ++ layout.wholeSuffix
    else String.ofList (digits.take whole) ++ "." ++ String.ofList (digits.drop whole)

/-- A decimal with one digit before the point and an exponent. -/
def scientific (layout : Layout) (d : Decimal) : String :=
  let digits := (toString d.digits).toList
  let power := d.point - 1
  let fraction := if digits.length ≤ 1 then "" else "." ++ String.ofList (digits.drop 1)
  String.ofList (digits.take 1) ++ fraction ++ "e" ++ (if power < 0 then "-" else "+") ++
    padded layout.exponentWidth power.natAbs

/-- A double in a layout. -/
def Layout.write (layout : Layout) (x : Float) : String :=
  match parts x with
  | .nan => layout.nan
  | .infinite negative => (if negative then "-" else "") ++ layout.infinity
  | .finite negative mantissa exponent =>
    let sign := if negative then "-" else ""
    if mantissa == 0 then sign ++ "0" ++ layout.wholeSuffix
    else
      let d := shortest mantissa exponent
      sign ++ (if layout.positionalFrom ≤ d.point - 1 && d.point - 1 < layout.positionalBelow then
        positional layout d else scientific layout d)

/-- An integer in decimal, unless it has too many digits. -/
def writeInt? (n : Int) : Option String :=
  if pow10 maxDigits ≤ n.natAbs then none else some (toString n)

end ConsoleCpp.Number

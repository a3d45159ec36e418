/-
Double-precision numbers as exact quantities: the mantissa and the power of two that a double is
made of, the double nearest to a quotient, truncation, exact comparison with integers, and the exact
remainder.
-/
import ConsoleCpp.Number.Power

namespace ConsoleCpp.Number

/-- What a double stands for. A finite one is `mantissa * 2 ^ exponent`, negated if `negative`. -/
inductive Parts where
  | nan
  | infinite (negative : Bool)
  | finite (negative : Bool) (mantissa : Nat) (exponent : Int)
deriving DecidableEq, Repr, Inhabited

/-- The parts of a double. -/
def parts (x : Float) : Parts :=
  let bits := x.toBits.toNat
  let negative := bits / pow2 63 == 1
  let biased : Nat := bits / pow2 52 % pow2 11
  let fraction := bits % pow2 52
  if biased == 2047 then
    if fraction == 0 then .infinite negative else .nan
  else if biased == 0 then .finite negative fraction (-1074)
  else .finite negative (pow2 52 + fraction) ((biased : Int) - 1075)

/-- The quantity `mantissa * 2 ^ exponent` as a quotient. -/
def quotient (mantissa : Nat) (exponent : Int) : Nat × Nat :=
  if 0 ≤ exponent then (mantissa * pow2 exponent.toNat, 1) else (mantissa, pow2 (-exponent).toNat)

/-- The integer nearest to a quotient; a tie goes to the even neighbour. -/
def roundQuotient (num den : Nat) : Nat :=
  let low := num / den
  let twice := 2 * (num % den)
  if den < twice || (twice == den && low % 2 == 1) then low + 1 else low

/-! ## The nearest double -/

/-- The bits of the nonnegative double nearest to a quotient; a tie goes to the even mantissa, and
what is too large is infinite. -/
def nearestBits (num den : Nat) : Nat :=
  if num == 0 then 0
  else
    let start : Int := (num.log2 : Int) - den.log2 - 53
    let scaled (exponent : Int) : Nat × Nat :=
      if 0 ≤ exponent then (num, den * pow2 exponent.toNat) else (num * pow2 (-exponent).toNat, den)
    let wide := scaled start
    let fitting := if pow2 53 ≤ wide.1 / wide.2 then start + 1 else start
    let exponent := max fitting (-1074)
    let mantissa := roundQuotient (scaled exponent).1 (scaled exponent).2
    let bits := if mantissa < pow2 52 then mantissa
      else (exponent + 1075).toNat * pow2 52 + (mantissa - pow2 52)
    min bits (2047 * pow2 52)

/-- The double with these bits, negated if `negative`. -/
def withSign (negative : Bool) (bits : Nat) : Float :=
  Float.ofBits (UInt64.ofNat (if negative then bits + pow2 63 else bits))

/-- The double nearest to a quotient. -/
def ofQuotient (negative : Bool) (num den : Nat) : Float := withSign negative (nearestBits num den)

def infinity (negative : Bool) : Float := withSign negative (2047 * pow2 52)

def nan : Float := withSign false (2047 * pow2 52 + pow2 51)

/-- The double nearest to an integer, unless that is infinite. -/
def ofInt? (n : Int) : Option Float :=
  let bits := nearestBits n.natAbs 1
  if bits == 2047 * pow2 52 then none else some (withSign (n < 0) bits)

/-- The double nearest to `digits * 10 ^ exponent`. -/
def ofDecimal (negative : Bool) (digits : Nat) (exponent : Int) : Float :=
  let size : Int := (toString digits).length + exponent
  if digits == 0 || size < -400 then withSign negative 0
  else if 400 < size then infinity negative
  else if 0 ≤ exponent then ofQuotient negative (digits * pow10 exponent.toNat) 1
  else ofQuotient negative digits (pow10 (-exponent).toNat)

/-! ## Exact operations -/

/-- An integer with the sign of a double. -/
def signed (negative : Bool) (n : Nat) : Int := if negative then -n else n

/-- The integer part of a finite double. -/
def truncate? (x : Float) : Option Int :=
  match parts x with
  | .finite negative mantissa exponent =>
    let (num, den) := quotient mantissa exponent
    some (signed negative (num / den))
  | _ => none

/-- Whether a double is an integer. -/
def isIntegral (x : Float) : Bool :=
  match parts x with
  | .finite _ mantissa exponent =>
    let (num, den) := quotient mantissa exponent
    num % den == 0
  | _ => false

/-- How an integer compares with a double, unless that is no number. -/
def compareInt (n : Int) (x : Float) : Option Ordering :=
  match parts x with
  | .nan => none
  | .infinite negative => some (if negative then .gt else .lt)
  | .finite negative mantissa exponent =>
    let (num, den) := quotient mantissa exponent
    some (compare (n * den) (signed negative num))

/-- How two doubles compare, unless one of them is no number. -/
def compareFloat (x y : Float) : Option Ordering :=
  if x < y then some .lt else if y < x then some .gt else if x == y then some .eq else none

/-- The remainder of a division that truncates, with the sign of the dividend, computed without
rounding. There is none for an infinite dividend or a zero divisor. -/
def remainder? (x y : Float) : Option Float :=
  match parts x, parts y with
  | .nan, _ | _, .nan => some nan
  | .infinite _, _ => none
  | .finite _ _ _, .infinite _ => some x
  | .finite negative m e, .finite _ n f =>
    if n == 0 then none
    else
      let unit := min e f
      let rest := (m * pow2 (e - unit).toNat) % (n * pow2 (f - unit).toNat)
      let (num, den) := quotient rest unit
      some (ofQuotient negative num den)

end ConsoleCpp.Number

/-
The limit on conversions between integers and decimal text, and the complaint when it is passed.
-/

namespace ConsoleCpp.Number

/-- The largest number of decimal digits in a conversion. -/
def maxDigits : Nat := 4300

/-- The complaint about a conversion of too many digits, which tells their number if it is known. -/
def limitMessage (digits : Option Nat) : String :=
  let count := match digits with
    | none => ""
    | some n => ": value has " ++ toString n ++ " digits"
  "Exceeds the limit (" ++ toString maxDigits ++ " digits) for integer string conversion" ++
    count ++
    "; use sys.set_int_max_str_digits() to increase the limit"

end ConsoleCpp.Number

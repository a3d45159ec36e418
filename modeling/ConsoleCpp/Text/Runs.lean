/-
Sets of code points given by the borders of their runs: the first code point of a run, the first one
past it, the first of the next run, and so on upwards. A code point is in the set when an odd number
of borders lie at or below it.
-/

namespace ConsoleCpp.Text

/-- A set of code points, written as the ascending borders of its runs. -/
structure Runs where
  borders : List Nat

namespace Runs

/-- Scans the borders, changing sides at each one that is not above the code point. -/
def containsFrom (inside : Bool) (code : Nat) : List Nat → Bool
  | [] => inside
  | border :: rest => if border ≤ code then containsFrom (!inside) code rest else inside

/-- Whether the code point lies in one of the runs. -/
def contains (runs : Runs) (code : Nat) : Bool :=
  containsFrom false code runs.borders

end Runs

end ConsoleCpp.Text

/-
Powers of the two bases in which numbers are held and written.
-/

namespace ConsoleCpp.Number

def pow2 (n : Nat) : Nat := Nat.pow 2 n

def pow10 (n : Nat) : Nat := Nat.pow 10 n

end ConsoleCpp.Number

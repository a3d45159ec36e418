/-
Names in generated Python. An identifier that is a Python keyword, or that starts with two
underscores as the names of the generator do, gets an underscore at its end.
-/

namespace ConsoleCpp.Target

/-- The keywords of Python. -/
def reservedWords : List String :=
  ["False", "None", "True", "and", "as", "assert", "async", "await", "break", "class", "continue",
   "def", "del", "elif", "else", "except", "finally", "for", "from", "global", "if", "import", "in",
   "is", "lambda", "nonlocal", "not", "or", "pass", "raise", "return", "try", "while", "with",
   "yield"]

/-- Whether a text starts with two underscores. -/
def isPrivate (name : String) : Bool :=
  match name.toList with
  | '_' :: '_' :: _ => true
  | _ => false

/-- The generated name of a source identifier. -/
def safeName (name : String) : String :=
  if reservedWords.contains name || isPrivate name then name ++ "_" else name

/-- The generated name of the variable that the `count`-th declaring loop introduces. -/
def loopName (name : String) (count : Nat) : String := "__" ++ name ++ "_" ++ toString count

end ConsoleCpp.Target

/-
Words of a text: the pieces between runs of blanks, and a text without the blanks around it.
-/
import ConsoleCpp.Text.Blank

namespace ConsoleCpp.Text

/-- The words of a text, where `word` holds the characters of an unfinished word in reverse. -/
def wordsFrom (word : List Char) : List Char → List (List Char)
  | [] => if word.isEmpty then [] else [word.reverse]
  | c :: rest =>
    if isBlank c then
      if word.isEmpty then wordsFrom [] rest else word.reverse :: wordsFrom [] rest
    else wordsFrom (c :: word) rest

/-- The maximal pieces without blanks, in order. -/
def words (s : String) : List String := (wordsFrom [] s.toList).map String.ofList

/-- The characters without those at both ends that satisfy `p`. -/
def trimBoth (p : Char → Bool) (cs : List Char) : List Char :=
  ((cs.dropWhile p).reverse.dropWhile p).reverse

/-- The text without the blanks at both ends. -/
def trimBlanks (s : String) : String := String.ofList (trimBoth isBlank s.toList)

/-- The text without the characters at its end that satisfy `p`. -/
def dropEnd (p : Char → Bool) (s : String) : String :=
  String.ofList ((s.toList.reverse.dropWhile p).reverse)

end ConsoleCpp.Text

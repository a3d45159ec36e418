/-
From source text to tokens. The text is first normalised: line ends CR LF become LF and the
invisible characters are dropped. Then the rules are applied from the front until the text is used
up; a position where none applies is an error.
-/
import ConsoleCpp.Token.Rule

namespace ConsoleCpp.Token

/-- Line ends CR LF become LF; a lone CR stays. -/
def foldLineEnds : List Char → List Char
  | '\r' :: '\n' :: rest => '\n' :: foldLineEnds rest
  | c :: rest => c :: foldLineEnds rest
  | [] => []

/-- The characters that are dropped unless the caller names others: the zero-width space, the two
joiners and the byte order mark. -/
def invisibles : List Char := ['\u200b', '\u200c', '\u200d', '\ufeff']

/-- The text that the rules see, and in which offsets count. -/
def normalize (invisible : List Char) (source : String) : List Char :=
  (foldLineEnds source.toList).filter fun c => !invisible.contains c

/-- No rule applies at this offset, where this character stands. -/
structure Stray where
  offset : Nat
  character : Char
deriving DecidableEq, Repr, Inhabited

/-- Tokens of `cs`, a text that starts `offset` characters into the source, after the character
`before`. -/
def scanFrom (offset : Nat) (before : Option Char) : List Char → Except Stray (List Token)
  | [] => .ok []
  | c :: rest =>
    match firstMatch rules before (c :: rest) with
    | none => .error ⟨offset, c⟩
    | some (kind, length) =>
      let piece := (c :: rest).take length
      match scanFrom (offset + length) piece.getLast? (rest.drop (length - 1)) with
      | .error stray => .error stray
      | .ok tokens =>
        match kind with
        | none => .ok tokens
        | some kind => .ok (⟨kind, String.ofList piece, offset⟩ :: tokens)
termination_by cs => cs.length
decreasing_by simp only [List.length_drop, List.length_cons]; omega

/-- The tokens of a normalised text. -/
def scan (text : List Char) : Except Stray (List Token) := scanFrom 0 none text

end ConsoleCpp.Token

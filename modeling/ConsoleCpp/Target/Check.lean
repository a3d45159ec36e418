/-
What Python refuses before it runs a program. The text is taken apart first, so what is wrong with a
piece of text comes before all else; then come faults of grammar and of literals, then faults of
names, then jumps that lead nowhere and loops nested too deep. Within each group the first in the
text is reported, with its line.
-/
import ConsoleCpp.Target.Scope
import ConsoleCpp.Text.Word

namespace ConsoleCpp.Target

/-- Why a program text is refused. -/
inductive Refusal where
  | nullCharacter
  | unterminatedLiteral
  | invalidCharacter (c : Char)
  | invalidDecimal
  | invalidImaginary
  /-- A number other than zero starts with a zero. -/
  | leadingZero
  | tooManyBrackets
  | escape (fault : EscapeFault)
  | literalTooLong (digits : Nat)
  /-- Text that is no expression; `hint` says that a comma may be missing. -/
  | malformed (hint : Bool)
  | duplicateParameter (name : String)
  | parameterAndNonlocal (name : String)
  | nonlocalUnbound (name : String)
  | breakOutsideLoop
  | continueOutsideLoop
  | tooManyLoops
deriving DecidableEq, Repr, Inhabited

/-- A refusal and the line that it is about. -/
structure Located where
  refusal : Refusal
  line : Nat
deriving DecidableEq, Repr, Inhabited

/-- The number of a character as it is written in a complaint. -/
def codePoint (c : Char) : String :=
  let width := if c.toNat < 0x10000 then 4 else if c.toNat < 0x100000 then 5 else 6
  String.ofList ((Text.hex width c.toNat).map fun d =>
    if 'a'.toNat ≤ d.toNat && d.toNat ≤ 'f'.toNat then Char.ofNat (d.toNat - 32) else d)

/-- The complaint. -/
def Located.reason (l : Located) : String :=
  match l.refusal with
  | .nullCharacter => "source code string cannot contain null bytes"
  | .unterminatedLiteral =>
    "unterminated string literal (detected at line " ++ toString l.line ++ ")"
  | .invalidCharacter c => "invalid character '" ++ c.toString ++ "' (U+" ++ codePoint c ++ ")"
  | .invalidDecimal => "invalid decimal literal"
  | .invalidImaginary => "invalid imaginary literal"
  | .leadingZero =>
    "leading zeros in decimal integer literals are not permitted; " ++
      "use an 0o prefix for octal integers"
  | .tooManyBrackets => "too many nested parentheses"
  | .escape f => f.reason
  | .literalTooLong digits =>
    Number.limitMessage (some digits) ++
      " - Consider hexadecimal for huge integer literals to avoid decimal conversion limits."
  | .malformed hint =>
    if hint then "invalid syntax. Perhaps you forgot a comma?" else "invalid syntax"
  | .duplicateParameter name => "duplicate argument '" ++ name ++ "' in function definition"
  | .parameterAndNonlocal name => "name '" ++ name ++ "' is parameter and nonlocal"
  | .nonlocalUnbound name => "no binding for nonlocal '" ++ name ++ "' found"
  | .breakOutsideLoop => "'break' outside loop"
  | .continueOutsideLoop => "'continue' not properly in loop"
  | .tooManyLoops => "too many statically nested blocks"

/-- The line that a complaint names. A null character is found before lines are told apart. -/
def Located.namedLine (l : Located) : Option Nat :=
  match l.refusal with
  | .nullCharacter => none
  | _ => some l.line

/-! ## Pieces of text -/

/-- The most brackets that may be open at once. -/
def maxBrackets : Nat := 200

/-- What is wrong with the text of a name. -/
def nameFault (id : String) : Option Refusal :=
  (id.toList.find? Text.isUnnameable).map .invalidCharacter

/-- What is wrong with the text of a number past its first digits: a digit of another script.
`afterMark` says whether an exponent starts just before. -/
def foreignDigitFault (afterMark : Bool) : List Char → Option Refusal
  | [] => none
  | c :: rest =>
    if c.toNat < 0x80 then foreignDigitFault (c == 'e' || c == 'E' || c == '+' || c == '-') rest
    else some (if afterMark then .invalidDecimal else .invalidCharacter c)

/-- What is wrong with the text of a number. Where digits of another script follow, the digits
before them are taken for a number of their own. -/
def numberFault (cs : List Char) : Option Refusal :=
  let whole := cs.takeWhile Text.isAsciiDigit
  let next := (cs.dropWhile Text.isAsciiDigit).head?
  if whole.head? == some '0' && whole.any (· != '0') && next.any (0x80 ≤ ·.toNat) then
    some .leadingZero
  else foreignDigitFault false cs

/-- What is wrong with a name that stands after a whole number and a point, as it does not become a
field. -/
def fieldOfNumberFault (field : String) : Option Refusal :=
  match field.toList with
  | 'i' :: 'f' :: _ | 'i' :: 'n' :: _ | 'i' :: 's' :: _ | ['j'] | ['J'] => none
  | 'j' :: _ | 'J' :: _ => some .invalidImaginary
  | _ => some .invalidDecimal

/-- Whether an expression is a whole number, so that a point after it belongs to it. -/
def isWholeNumber : Expr → Bool
  | .number digits => Expr.isWhole digits
  | _ => false

namespace Expr

/-- Goes on inside a bracket that opens with `depth` brackets open around it. -/
def opened (depth : Nat) (inside : Nat → Option Refusal) : Option Refusal :=
  if maxBrackets ≤ depth then some .tooManyBrackets else inside (depth + 1)

mutual

/-- The first thing wrong with the pieces of an expression's text, with `depth` brackets open. -/
def pieceFault (depth : Nat) : Expr → Option Refusal
  | .number digits => numberFault digits.toList
  | .text spelling =>
    if spelling.toList.any (fun c => c == '\n' || c == '\r') then some .unterminatedLiteral
    else none
  | .name id => nameFault id
  | .sign _ operand => opened depth fun depth => pieceFault depth operand
  | .binary _ left right =>
    opened depth fun depth => (pieceFault depth left).or (pieceFault depth right)
  | .bind id value => opened depth fun depth => (nameFault id).or (pieceFault depth value)
  | .step _ keepsOld id =>
    opened depth fun depth =>
      if keepsOld then opened depth fun _ => nameFault id else nameFault id
  | .call callee args =>
    (pieceFault depth callee).or (opened depth fun depth => pieceFaultAll depth args)
  | .attr owner field =>
    (pieceFault depth owner).or
      (if isWholeNumber owner then fieldOfNumberFault field else nameFault field)
  | .item owner key => (pieceFault depth owner).or (opened depth fun depth => pieceFault depth key)
  | .list element => opened depth fun depth => pieceFault depth element
  | .input | .newObject _ => opened depth fun _ => none
  | .shown value => opened depth fun depth => pieceFault depth value
  | .store owner key value =>
    opened depth fun depth =>
      ((pieceFault depth owner).or (pieceFault depth key)).or (pieceFault depth value)
  | .update owner key _ value _ =>
    opened depth fun depth =>
      ((pieceFault depth owner).or (pieceFault depth key)).or (pieceFault depth value)
  | .storeAttr owner _ value | .updateAttr owner _ _ value _ =>
    opened depth fun depth => (pieceFault depth owner).or (pieceFault depth value)
  | .newArray size _ => opened depth fun depth => pieceFault depth size
  | .misjoined left right => (pieceFault depth left).or (pieceFault depth right)
  | .adjoined digits next =>
    (numberFault digits.toList).or <|
      match next with
      | .bool _ | .nothing => some .invalidDecimal
      | _ => pieceFault depth next
  | .bool _ | .nothing => none

def pieceFaultAll (depth : Nat) : List Expr → Option Refusal
  | [] => none
  | e :: rest => (pieceFault depth e).or (pieceFaultAll depth rest)

end

/-- What is wrong with a literal that is complete as text. -/
def literalFault (spelling : String) : Option Refusal :=
  match readLiteral spelling with
  | .error (.refused f) => some (.escape f)
  | .error .surrogate | .ok _ => none

/-- What is wrong with a whole number that is complete as text. -/
def wholeFault (digits : String) : Option Refusal :=
  if isWhole digits && Number.maxDigits < digits.length then some (.literalTooLong digits.length)
  else none

/-- Whether the text of an expression opens with a bracket and ends with the one that closes it. -/
def isBracketed : Expr → Bool
  | .sign _ _ | .binary _ _ _ | .bind _ _ | .step _ _ _ | .list _ => true
  | _ => false

/-- Whether an expression starts with a number. -/
def startsWithNumber : Expr → Bool
  | .number _ => true
  | .call e _ | .attr e _ | .item e _ | .misjoined e _ => startsWithNumber e
  | .adjoined _ _ => true
  | _ => false

/-- Whether two expressions with a point between them are read as one expression and a number after
it. A whole number takes in the digits up to the second point. -/
def splitsAtNumber (left right : Expr) : Bool :=
  match left, right with
  | .number whole, .number digits =>
    if isWhole whole then
      ((digits.toList.dropWhile (· != '.')).drop 1).head?.any Text.isAsciiDigit
    else true
  | _, right => startsWithNumber right

mutual

/-- The first thing wrong with the grammar and the literals of an expression. `inner` says whether a
bracket is open around it. -/
def grammarFault (inner : Bool) : Expr → Option Refusal
  | .number digits => wholeFault digits
  | .text spelling => literalFault spelling
  | .sign _ operand => grammarFault true operand
  | .binary _ left right => (grammarFault true left).or (grammarFault true right)
  | .bind _ value => grammarFault true value
  | .call callee args => (grammarFault inner callee).or (grammarFaultAll args)
  | .attr owner field =>
    (grammarFault inner owner).or
      (if isWholeNumber owner && field != "j" && field != "J" then some (.malformed inner)
       else none)
  | .item owner key => (grammarFault inner owner).or (grammarFault true key)
  | .list element => grammarFault true element
  | .shown value => grammarFault true value
  | .store owner key value =>
    ((grammarFault true owner).or (grammarFault true key)).or (grammarFault true value)
  | .update owner key _ value _ =>
    ((grammarFault true owner).or (grammarFault true key)).or (grammarFault true value)
  | .storeAttr owner _ value | .updateAttr owner _ _ value _ =>
    (grammarFault true owner).or (grammarFault true value)
  | .newArray size _ => grammarFault true size
  | .misjoined left right =>
    (grammarFault inner left).or (some (.malformed (inner && splitsAtNumber left right)))
  | .adjoined _ next => if isBracketed next then grammarFault true next else some (.malformed inner)
  | .bool _ | .nothing | .name _ | .step _ _ _ | .input | .newObject _ => none

def grammarFaultAll : List Expr → Option Refusal
  | [] => none
  | e :: rest => (grammarFault true e).or (grammarFaultAll rest)

end

mutual

/-- Whether a literal in an expression holds a null character. -/
def hasNull : Expr → Bool
  | .text spelling => spelling.toList.contains '\x00'
  | .sign _ e | .bind _ e | .attr e _ | .list e | .shown e | .newArray e _ | .adjoined _ e =>
    hasNull e
  | .binary _ a b | .item a b | .misjoined a b => hasNull a || hasNull b
  | .storeAttr a _ b | .updateAttr a _ _ b _ => hasNull a || hasNull b
  | .call callee args => hasNull callee || hasNullAny args
  | .store a b c => hasNull a || hasNull b || hasNull c
  | .update a b _ c _ => hasNull a || hasNull b || hasNull c
  | .number _ | .bool _ | .nothing | .name _ | .step _ _ _ | .input | .newObject _ => false

def hasNullAny : List Expr → Bool
  | [] => false
  | e :: rest => hasNull e || hasNullAny rest

end

end Expr

/-! ## Lines -/

/-- What stands in a line of a program. -/
inductive Item where
  | expr (e : Expr)
  /-- An expression in brackets of the line. -/
  | inner (e : Expr)
  | name (id : String)

namespace Item

def pieceFault : Item → Option Refusal
  | .expr e => e.pieceFault 0
  | .inner e => e.pieceFault 1
  | .name id => nameFault id

def grammarFault : Item → Option Refusal
  | .expr e => e.grammarFault false
  | .inner e => e.grammarFault true
  | .name _ => none

def nullFault : Item → Option Refusal
  | .expr e | .inner e => if e.hasNull then some .nullCharacter else none
  | .name _ => none

end Item

namespace Stmt

mutual

/-- What stands in each of the lines of a statement. -/
def itemLines : Stmt → List (List Item)
  | .assign target value | .augment target _ value => [[.expr target.expr, .expr value]]
  | .eval e => [[.expr e]]
  | .print pieces => [pieces.map .inner]
  | .define header nonlocals body =>
    (.name header.name :: header.params.map .name) ::
      ((if nonlocals.isEmpty then [] else [nonlocals.map .name]) ++ suiteItemLines body)
  | .ifElse condition thenSuite elseSuite chained =>
    [.expr condition] :: (suiteItemLines thenSuite ++
      (if chained || elseSuite.isEmpty then suiteItemLines elseSuite
       else [] :: suiteItemLines elseSuite))
  | .whileLoop condition body => [.expr condition] :: suiteItemLines body
  | .leaveUnless condition => [[.expr condition], []]
  | .ret value => [(value.map Item.expr).toList]
  | .unimplemented _ | .breakLoop | .continueLoop | .pass => [[]]

def suiteItemLines : List Stmt → List (List Item)
  | [] => []
  | s :: rest => itemLines s ++ suiteItemLines rest

end

end Stmt

/-- The first refusal in numbered lines that `check` finds. -/
def firstIn (check : Item → Option Refusal) (line : Nat) : List (List Item) → Option Located
  | [] => none
  | items :: rest =>
    match items.findSome? check with
    | some refusal => some ⟨refusal, line⟩
    | none => firstIn check (line + 1) rest

/-! ## Names -/

/-- The first name that is in a list twice. -/
def firstRepeated (seen : List String) : List String → Option String
  | [] => none
  | name :: rest => if seen.contains name then some name else firstRepeated (name :: seen) rest

/-- The number of lines of a statement. -/
def Stmt.lineCount (s : Stmt) : Nat := s.itemLines.length

namespace Stmt

mutual

/-- The first fault of parameters in the definitions of a statement that starts at a line. -/
def parameterFault (line : Nat) : Stmt → Option Located
  | .define header nonlocals body =>
    ((firstRepeated [] header.params).map fun name =>
        (⟨.duplicateParameter name, line⟩ : Located)).or <|
      ((nonlocals.find? header.params.contains).map fun name =>
        (⟨.parameterAndNonlocal name, line + 1⟩ : Located)).or <|
        parameterFaultAll (line + (if nonlocals.isEmpty then 1 else 2)) body
  | .ifElse _ thenSuite elseSuite chained =>
    (parameterFaultAll (line + 1) thenSuite).or
      (parameterFaultAll
        (line + 1 + (suiteItemLines thenSuite).length + (if chained then 0 else 1)) elseSuite)
  | .whileLoop _ body => parameterFaultAll (line + 1) body
  | _ => none

def parameterFaultAll (line : Nat) : List Stmt → Option Located
  | [] => none
  | s :: rest => (parameterFault line s).or (parameterFaultAll (line + s.lineCount) rest)

end

mutual

/-- The first name that a definition says belongs to a function around it where none binds it.
`bound` holds the variables of the functions around. -/
def nonlocalFault (bound : List String) (line : Nat) : Stmt → Option Located
  | .define header nonlocals body =>
    ((nonlocals.find? fun name => !bound.contains name).map fun name =>
      (⟨.nonlocalUnbound name, line + 1⟩ : Located)).or
      (nonlocalFaultAll (localNames header.params nonlocals body ++ bound)
        (line + (if nonlocals.isEmpty then 1 else 2)) body)
  | .ifElse _ thenSuite elseSuite chained =>
    (nonlocalFaultAll bound (line + 1) thenSuite).or
      (nonlocalFaultAll bound
        (line + 1 + (suiteItemLines thenSuite).length + (if chained then 0 else 1)) elseSuite)
  | .whileLoop _ body => nonlocalFaultAll bound (line + 1) body
  | _ => none

def nonlocalFaultAll (bound : List String) (line : Nat) : List Stmt → Option Located
  | [] => none
  | s :: rest => (nonlocalFault bound line s).or (nonlocalFaultAll bound (line + s.lineCount) rest)

end

/-! ## Jumps -/

/-- The most loops that may be nested in one function. -/
def maxLoops : Nat := 20

mutual

/-- The first jump outside a loop, or loop nested too deep, in a statement with `loops` loops of its
function around it. -/
def jumpFault (loops line : Nat) : Stmt → Option Located
  | .define _ nonlocals body => jumpFaultAll 0 (line + (if nonlocals.isEmpty then 1 else 2)) body
  | .ifElse _ thenSuite elseSuite chained =>
    (jumpFaultAll loops (line + 1) thenSuite).or
      (jumpFaultAll loops
        (line + 1 + (suiteItemLines thenSuite).length + (if chained then 0 else 1)) elseSuite)
  | .whileLoop _ body =>
    if maxLoops ≤ loops then some ⟨.tooManyLoops, line⟩
    else jumpFaultAll (loops + 1) (line + 1) body
  | .leaveUnless _ => if loops == 0 then some ⟨.breakOutsideLoop, line + 1⟩ else none
  | .breakLoop => if loops == 0 then some ⟨.breakOutsideLoop, line⟩ else none
  | .continueLoop => if loops == 0 then some ⟨.continueOutsideLoop, line⟩ else none
  | _ => none

def jumpFaultAll (loops line : Nat) : List Stmt → Option Located
  | [] => none
  | s :: rest => (jumpFault loops line s).or (jumpFaultAll loops (line + s.lineCount) rest)

end

/-! ## Checks of one line after another -/

theorem parameterFaultAll_nil (line : Nat) : parameterFaultAll line [] = none := by
  rw [parameterFaultAll]

theorem parameterFaultAll_cons (line : Nat) (s : Stmt) (rest : List Stmt) :
    parameterFaultAll line (s :: rest) =
      (parameterFault line s).or (parameterFaultAll (line + s.lineCount) rest) := by
  rw [parameterFaultAll]

theorem nonlocalFaultAll_nil (bound : List String) (line : Nat) : nonlocalFaultAll bound line [] = none := by
  rw [nonlocalFaultAll]

theorem nonlocalFaultAll_cons (bound : List String) (line : Nat) (s : Stmt) (rest : List Stmt) :
    nonlocalFaultAll bound line (s :: rest) =
      (nonlocalFault bound line s).or (nonlocalFaultAll bound (line + s.lineCount) rest) := by
  rw [nonlocalFaultAll]

theorem jumpFaultAll_nil (loops : Nat) (line : Nat) : jumpFaultAll loops line [] = none := by
  rw [jumpFaultAll]

theorem jumpFaultAll_cons (loops : Nat) (line : Nat) (s : Stmt) (rest : List Stmt) :
    jumpFaultAll loops line (s :: rest) =
      (jumpFault loops line s).or (jumpFaultAll loops (line + s.lineCount) rest) := by
  rw [jumpFaultAll]

end Stmt

/-! ## Programs -/

/-- The variables of the function that a program is. -/
def Program.locals (p : Program) : List String := localNames [] [] (p.stubs ++ p.body)

/-- What Python refuses about a program. -/
def Program.refusal? (p : Program) : Option Located :=
  let statements := p.stubs ++ p.body
  let first := Program.prologue.length + 1
  let lines := Stmt.suiteItemLines statements
  (firstIn Item.nullFault first lines).or <|
    (firstIn Item.pieceFault first lines).or <|
      (firstIn Item.grammarFault first lines).or <|
        (Stmt.parameterFaultAll first statements).or <|
          (Stmt.nonlocalFaultAll p.locals first statements).or <|
            Stmt.jumpFaultAll 0 first statements

end ConsoleCpp.Target

/-
Expressions of generated Python and how they are spelled. Every operation is spelled in brackets of
its own, so no spelling depends on what stands around it. Division, remainder, stores inside
expressions and the creation of arrays and objects are calls of helpers, which the program reaches
through `__rt`.
-/
import ConsoleCpp.Source.Operator
import ConsoleCpp.Target.Literal

namespace ConsoleCpp.Target

open Text (quoted)

/-- The spelling of an operator before its operand. -/
def signSpelling : SignOp → String
  | .not => "not "
  | op => op.text

/-- The spelling of an operator between its operands. -/
def operatorSpelling : BinaryOp → String
  | .and => "and"
  | .or => "or"
  | op => op.text

inductive Expr where
  | number (text : String)
  /-- A quoted literal as it is spelled. -/
  | text (spelling : String)
  | bool (value : Bool)
  | nothing
  | name (id : String)
  | sign (op : SignOp) (operand : Expr)
  | binary (op : BinaryOp) (left right : Expr)
  /-- Stores a value in a variable and is that value. -/
  | bind (id : String) (value : Expr)
  /-- Steps a variable; its value is the old one if `keepsOld`, otherwise the new one. -/
  | step (op : StepOp) (keepsOld : Bool) (id : String)
  | call (callee : Expr) (args : List Expr)
  | attr (owner : Expr) (field : String)
  | item (owner key : Expr)
  | list (element : Expr)
  /-- The next word of the program's input, as a number. -/
  | input
  /-- The text that a value prints as. -/
  | shown (value : Expr)
  | store (owner key value : Expr)
  /-- Combines an element with a value. Where `keepsOld` is given, the result is the old value if it
  is true. -/
  | update (owner key : Expr) (op : ArithOp) (value : Expr) (keepsOld : Option Bool)
  | storeAttr (owner : Expr) (field : String) (value : Expr)
  | updateAttr (owner : Expr) (field : String) (op : ArithOp) (value : Expr)
    (keepsOld : Option Bool)
  | newArray (size : Expr) (typeName : String)
  | newObject (typeName : String)
  /-- A point between two expressions of which the second is no name: text that Python refuses. -/
  | misjoined (left right : Expr)
  /-- Something right after a number that ends in a point: in brackets it is taken for arguments or
  a key, otherwise Python refuses it. -/
  | adjoined (digits : String) (next : Expr)
deriving Inhabited

namespace Expr

/-! ## Spelling -/

def boolSpelling (b : Bool) : String := if b then "True" else "False"

/-- A call of a helper. -/
def helperSpelling (helper : String) (args : List String) : String :=
  "__rt." ++ helper ++ "(" ++ String.intercalate ", " args ++ ")"

/-- The last argument of an update, where it is given. -/
def keepsOldSpelling (keepsOld : Option Bool) : List String := (keepsOld.map boolSpelling).toList

mutual

/-- The text of an expression. -/
def spell : Expr → String
  | .number digits => digits
  | .text spelling => spelling
  | .bool value => boolSpelling value
  | .nothing => "None"
  | .name id => id
  | .sign op operand => "(" ++ signSpelling op ++ spell operand ++ ")"
  | .binary .div left right => helperSpelling "div" [spell left, spell right]
  | .binary .mod left right => helperSpelling "mod" [spell left, spell right]
  | .binary op left right =>
    "(" ++ spell left ++ " " ++ operatorSpelling op ++ " " ++ spell right ++ ")"
  | .bind id value => "(" ++ id ++ " := " ++ spell value ++ ")"
  | .step op false id => "(" ++ id ++ " := " ++ id ++ " " ++ op.arith.text ++ " 1)"
  | .step op true id =>
    let undo := match op with
      | .increment => "-"
      | .decrement => "+"
    "((" ++ id ++ " := " ++ id ++ " " ++ op.arith.text ++ " 1) " ++ undo ++ " 1)"
  | .call callee args => spell callee ++ "(" ++ String.intercalate ", " (spellAll args) ++ ")"
  | .attr owner field => spell owner ++ "." ++ field
  | .item owner key => spell owner ++ "[" ++ spell key ++ "]"
  | .list element => "[" ++ spell element ++ "]"
  | .input => "__read()"
  | .shown value => helperSpelling "show" [spell value]
  | .store owner key value => helperSpelling "store" [spell owner, spell key, spell value]
  | .update owner key op value keepsOld =>
    helperSpelling "update"
      ([spell owner, spell key, quoted op.text, spell value] ++ keepsOldSpelling keepsOld)
  | .storeAttr owner field value =>
    helperSpelling "storeAttr" [spell owner, quoted field, spell value]
  | .updateAttr owner field op value keepsOld =>
    helperSpelling "updateAttr"
      ([spell owner, quoted field, quoted op.text, spell value] ++ keepsOldSpelling keepsOld)
  | .newArray size typeName => helperSpelling "newArray" [spell size, quoted typeName]
  | .newObject typeName => helperSpelling "newObject" [quoted typeName]
  | .misjoined left right => spell left ++ "." ++ spell right
  | .adjoined digits next => digits ++ spell next

def spellAll : List Expr → List String
  | [] => []
  | e :: rest => spell e :: spellAll rest

end

/-! ## Joining by a point -/

/-- Whether a number literal is written by the digits `0` to `9` alone, so that a point after it
belongs to it. -/
def isWhole (text : String) : Bool := text.toList.all Text.isAsciiDigit

/-- Whether a text is an exponent with digits, which after a number and a point belongs to the
number. -/
def isExponent (field : String) : Bool :=
  match field.toList with
  | mark :: digits =>
    (mark == 'e' || mark == 'E') && !digits.isEmpty && digits.all Text.isAsciiDigit
  | [] => false

/-- Access to a field. A whole number takes in a point and an exponent after it. -/
def dot (owner : Expr) (field : String) : Expr :=
  match owner with
  | .number whole =>
    if isWhole whole && isExponent field then .number (whole ++ "." ++ field) else .attr owner field
  | _ => .attr owner field

/-- The name and the arguments of the helper that an expression calls, if it calls one. -/
def helperCall? : Expr → Option (String × List Expr)
  | .binary .div left right => some ("div", [left, right])
  | .binary .mod left right => some ("mod", [left, right])
  | .shown value => some ("show", [value])
  | .store owner key value => some ("store", [owner, key, value])
  | .update owner key op value keepsOld =>
    some ("update", [owner, key, .text (quoted op.text), value] ++ (keepsOld.map .bool).toList)
  | .storeAttr owner field value => some ("storeAttr", [owner, .text (quoted field), value])
  | .updateAttr owner field op value keepsOld =>
    some ("updateAttr",
      [owner, .text (quoted field), .text (quoted op.text), value] ++ (keepsOld.map .bool).toList)
  | .newArray size typeName => some ("newArray", [size, .text (quoted typeName)])
  | .newObject typeName => some ("newObject", [.text (quoted typeName)])
  | _ => none

/-- The expression that is spelled `left`, a point, and an expression that does not start with a
name or number. -/
def join (left e : Expr) : Expr :=
  match left with
  | .number whole => if isWhole whole then .adjoined (whole ++ ".") e else .misjoined left e
  | _ => .misjoined left e

/-- The expression that is spelled `left`, a point, and the given expression: the point makes the
name at the front of that expression a field of `left`. -/
def under (left : Expr) : Expr → Expr
  | .name id => dot left id
  | .call callee args => .call (under left callee) args
  | .attr owner field => .attr (under left owner) field
  | .item owner key => .item (under left owner) key
  | .number digits =>
    match left with
    | .number whole =>
      if isWhole whole && !digits.toList.contains '.' then .number (whole ++ "." ++ digits)
      else .misjoined left (.number digits)
    | _ => .misjoined left (.number digits)
  | e =>
    match helperCall? e with
    | some (helper, args) => .call (.attr (.attr left "__rt") helper) args
    | none => join left e

/-! ## Spelling of joined expressions -/

theorem spell_dot (owner : Expr) (field : String) :
    (dot owner field).spell = owner.spell ++ "." ++ field := by
  unfold dot
  split
  · split <;> simp only [spell]
  · simp only [spell]

theorem spell_join (left e : Expr) : (join left e).spell = left.spell ++ "." ++ e.spell := by
  unfold join
  split
  · split <;> simp only [spell]
  · simp only [spell]

/-- A call of a helper is spelled by the name of the helper and its arguments. -/
theorem spell_helperCall {e : Expr} {helper : String} {args : List Expr}
    (h : e.helperCall? = some (helper, args)) :
    e.spell = helperSpelling helper (spellAll args) := by
  unfold helperCall? at h
  split at h
  case h_5 | h_7 =>
    rename_i keepsOld
    cases h
    rcases keepsOld with _ | keepsOld <;> simp [spell, spellAll, keepsOldSpelling]
  case h_10 => cases h
  all_goals
    cases h
    simp only [spell, spellAll]

/-- The point stands between the two spellings. -/
theorem spell_under (left : Expr) : ∀ e : Expr,
    (under left e).spell = left.spell ++ "." ++ e.spell
  | .name id => by rw [under, spell_dot, spell]
  | .call callee args => by simp only [under, spell, spell_under left callee, String.append_assoc]
  | .attr owner field => by simp only [under, spell, spell_under left owner, String.append_assoc]
  | .item owner key => by simp only [under, spell, spell_under left owner, String.append_assoc]
  | .number digits => by
    cases left with
    | number whole =>
      simp only [under]
      split <;> simp only [spell]
    | _ => simp only [under, spell]
  | .text _ | .bool _ | .nothing | .sign _ _ | .binary _ _ _ | .bind _ _ | .step _ _ _ | .list _
  | .input | .shown _ | .store _ _ _ | .update _ _ _ _ _ | .storeAttr _ _ _
  | .updateAttr _ _ _ _ _ | .newArray _ _ | .newObject _ | .misjoined _ _ | .adjoined _ _ => by
    rw [under]
    · split
      · rename_i helper args hh
        have hrt : "__rt." = "__rt" ++ "." := rfl
        rw [spell_helperCall hh]
        simp only [spell, helperSpelling, hrt, String.append_assoc]
      · exact spell_join left _
    all_goals nofun

end Expr

end ConsoleCpp.Target

/-
The statement parser. Parsing a statement also declares its names in the symbol table, which the
check of assignments looks at.
-/
import ConsoleCpp.Parser.Expression
import ConsoleCpp.Source.Stmt
import ConsoleCpp.Source.Symbols

namespace ConsoleCpp.Parser

/-! ## Types, parameters and the parts of streams -/

/-- The keywords that start a declaration. -/
def declarationKeywords : List String := datatypes ++ typeModifiers ++ ["auto"]

/-- A word before the type proper. -/
def isModifier (t : Token) : Bool := t.kind == .keyword && typeModifiers.contains t.text

/-- A pointer or reference mark after the type proper. -/
def isMark (t : Token) : Bool := t.isA .operator "*" || t.isA .operator "&"

theorem length_dropWhile_le (p : Token → Bool) (ts : List Token) :
    (ts.dropWhile p).length ≤ ts.length :=
  (List.dropWhile_suffix p).length_le

/-- A type: modifiers, a type keyword or a name, and marks. Single spaces join the words. -/
def typeName (ts : List Token) : Except CompileError (Read String ts) :=
  let modifiers := (ts.takeWhile isModifier).map Token.text
  match h : ts.dropWhile isModifier with
  | [] => .error (.expected .identifier none none)
  | t :: rest =>
    if (t.kind == .keyword && declarationKeywords.contains t.text) || t.kind == .identifier then
      let marks := (rest.takeWhile isMark).map Token.text
      .ok ⟨String.join (String.intercalate " " (modifiers ++ [t.text]) :: marks),
        rest.dropWhile isMark, by
          have h₁ := length_dropWhile_le isModifier ts
          have h₂ := length_dropWhile_le isMark rest
          rw [h, List.length_cons] at h₁
          omega⟩
    else .error (.expected .identifier none (some t))

/-- An array mark after the name of a variable, with the size in it if there is one. -/
def arraySuffix (ctx : Context) (type : String) (ts : List Token) :
    Except CompileError (Peek (String × Option Expr) ts) :=
  if startsWith .delimiter "[" ts then do
    let ⟨_, rest, h₁⟩ ← consume .delimiter "[" ts
    if startsWith .delimiter "]" rest then
      let ⟨_, rest, h₂⟩ ← consume .delimiter "]" rest
      .ok (Read.toPeek ⟨(type ++ "[]", none), rest, shorter_of_two h₁ h₂⟩)
    else
      let ⟨size, rest, h₂⟩ ← expression ctx 1 rest
      let ⟨_, rest, h₃⟩ ← consume .delimiter "]" rest
      .ok (Read.toPeek ⟨(type ++ "[]", some size), rest, shorter_of_three h₁ h₂ h₃⟩)
  else .ok ⟨(type, none), ts, notLonger_self ts⟩

/-- One or more parameters with commas between them; each declares its name. -/
def parameters (ctx : Context) (symbols : SymbolTable) (ts : List Token) :
    Except CompileError (Read (List Parameter × SymbolTable) ts) := do
  let ⟨type, rest, h₁⟩ ← typeName ts
  let ⟨name, rest, h₂⟩ ← consumeKind .identifier rest
  let ⟨(type, _), rest, h₃⟩ ← arraySuffix ctx type rest
  let symbols := symbols.declare name.text type
  if startsWith .delimiter "," rest then
    let ⟨_, rest, h₄⟩ ← consume .delimiter "," rest
    let ⟨(others, symbols), rest, h₅⟩ ← parameters ctx symbols rest
    .ok ⟨(⟨type, name.text⟩ :: others, symbols), rest, by omega⟩
  else .ok ⟨([⟨type, name.text⟩], symbols), rest, by omega⟩
termination_by ts.length

/-- The parameters of a function with the parentheses around them. -/
def parameterList (ctx : Context) (symbols : SymbolTable) (ts : List Token) :
    Except CompileError (Read (List Parameter × SymbolTable) ts) := do
  let ⟨_, rest, h₁⟩ ← consume .delimiter "(" ts
  if startsWith .delimiter ")" rest then
    let ⟨_, rest, h₂⟩ ← consume .delimiter ")" rest
    .ok ⟨([], symbols), rest, shorter_of_two h₁ h₂⟩
  else
    let ⟨(params, symbols), rest, h₂⟩ ← parameters ctx symbols rest
    let ⟨_, rest, h₃⟩ ← consume .delimiter ")" rest
    .ok ⟨(params, symbols), rest, shorter_of_three h₁ h₂ h₃⟩

/-- The targets of an input statement, each after its `>>`. -/
def inputTargets (ctx : Context) (ts : List Token) : Except CompileError (Peek (List Expr) ts) :=
  if startsWith .stream ">>" ts then do
    let ⟨_, rest, h₁⟩ ← consume .stream ">>" ts
    let found := rest.head?
    let ⟨target, rest, h₂⟩ ← expression ctx.streamed 1 rest
    if target.isAssignable then
      let ⟨others, rest, h₃⟩ ← inputTargets ctx rest
      .ok ⟨target :: others, rest, notLonger_of_three h₁ h₂ h₃⟩
    else .error (.notReadable target found)
  else .ok ⟨[], ts, notLonger_self ts⟩
termination_by ts.length

/-- The parts of an output statement, each after its `<<`, except that `endl` needs none. -/
def printParts (ctx : Context) (ts : List Token) : Except CompileError (Peek (List Expr) ts) :=
  if startsWith .delimiter ";" ts then .ok ⟨[], ts, notLonger_self ts⟩
  else if startsWith .stream "<<" ts then do
    let ⟨_, rest, h₁⟩ ← consume .stream "<<" ts
    let ⟨part, rest, h₂⟩ ← expression ctx.streamed 1 rest
    let ⟨others, rest, h₃⟩ ← printParts ctx rest
    .ok ⟨part :: others, rest, notLonger_of_three h₁ h₂ h₃⟩
  else if startsWith .keyword "endl" ts then do
    let ⟨_, rest, h₁⟩ ← consume .keyword "endl" ts
    let ⟨others, rest, h₂⟩ ← printParts ctx rest
    .ok ⟨.endl :: others, rest, by omega⟩
  else .error (.notPrintable ts.head?)
termination_by ts.length

/-- A condition in parentheses. -/
def condition (ctx : Context) (ts : List Token) : Except CompileError (Read Expr ts) := do
  let ⟨_, rest, h₁⟩ ← consume .delimiter "(" ts
  let ⟨cond, rest, h₂⟩ ← expression ctx 1 rest
  let ⟨_, rest, h₃⟩ ← consume .delimiter ")" rest
  .ok ⟨cond, rest, shorter_of_three h₁ h₂ h₃⟩

/-- An expression that may be left out before the delimiter `close`, which is taken too. -/
def optionalExpression (ctx : Context) (close : String) (ts : List Token) :
    Except CompileError (Read (Option Expr) ts) := do
  if startsWith .delimiter close ts then
    let ⟨_, rest, h₁⟩ ← consume .delimiter close ts
    .ok ⟨none, rest, h₁⟩
  else
    let ⟨value, rest, h₁⟩ ← expression ctx 1 ts
    let ⟨_, rest, h₂⟩ ← consume .delimiter close rest
    .ok ⟨some value, rest, shorter_of_two h₁ h₂⟩

/-! ## Statements without statements inside -/

/-- The path of an include directive. -/
def headerPath (text : String) : String :=
  Text.trimBlanks (String.ofList (((text.toList.dropWhile (· != '<')).drop 1).takeWhile (· != '>')))

/-- What is wrong with a plain assignment of `value` to the variable `name`, if anything is. -/
def checkAssignment (symbols : SymbolTable) : Expr → Except CompileError Unit
  | .assign .set (.name name) value =>
    if symbols.contains name then
      match symbols.baseType name, value with
      | some "int", .string _ _ => .error (.stringAssigned "int" name)
      | some "float", .string _ _ => .error (.stringAssigned "float" name)
      | some "int", .number text =>
        if Expr.isDecimal text then .error (.decimalAssigned name) else .ok ()
      | some "string", .number _ => .error (.numberAssigned name)
      | _, _ => .ok ()
    else .error (.undeclared name)
  | _ => .ok ()

/-- An expression, checked as a statement, and its semicolon. -/
def checkedExpression (ctx : Context) (symbols : SymbolTable) (ts : List Token) :
    Except CompileError (Read Expr ts) := do
  let ⟨e, rest, h₁⟩ ← expression ctx 1 ts
  checkAssignment symbols e
  let ⟨_, rest, h₂⟩ ← consume .delimiter ";" rest
  .ok ⟨e, rest, shorter_of_two h₁ h₂⟩

/-- An expression as a statement, whose first token is `first`. -/
def expressionStatement (ctx : Context) (symbols : SymbolTable) (first : Token) (ts : List Token) :
    Except CompileError (Read Stmt ts) :=
  match checkedExpression ctx symbols ts with
  | .error cause => .error (cause.inStatement first)
  | .ok ⟨e, rest, h⟩ => .ok ⟨.expression e, rest, h⟩

/-- A variable whose type and name were just read: its array mark, its initializer and the
semicolon. -/
def variableRest (ctx : Context) (symbols : SymbolTable) (type name : String) (ts : List Token) :
    Except CompileError (Read (Stmt × SymbolTable) ts) := do
  let ⟨(varType, size), rest, h₁⟩ ← arraySuffix ctx type ts
  let symbols := symbols.declare name varType
  let array := size.map (.newArray (dropMarks ((Text.words type).getLast?.getD "")))
  if startsWith .operator "=" rest then
    let ⟨_, rest, h₂⟩ ← consume .operator "=" rest
    let ⟨value, rest, h₃⟩ ← expression ctx 1 rest
    let ⟨_, rest, h₄⟩ ← consume .delimiter ";" rest
    .ok ⟨(.declaration varType name (some value), symbols), rest, by omega⟩
  else
    let ⟨_, rest, h₂⟩ ← consume .delimiter ";" rest
    .ok ⟨(.declaration varType name array, symbols), rest, by omega⟩

/-- A directive to use a namespace. -/
def usingDirective (ts : List Token) : Except CompileError (Read Stmt ts) := do
  let ⟨_, rest, h₁⟩ ← consume .keyword "using" ts
  let ⟨_, rest, h₂⟩ ← consume .keyword "namespace" rest
  let ⟨space, rest, h₃⟩ ← consumeKind .identifier rest
  let ⟨_, rest, h₄⟩ ← consume .delimiter ";" rest
  .ok ⟨.usingSpace space.text, rest, shorter_of_four h₁ h₂ h₃ h₄⟩

/-- An input statement. -/
def inputStatement (ctx : Context) (ts : List Token) : Except CompileError (Read Stmt ts) := do
  let ⟨_, rest, h₁⟩ ← consume .keyword "cin" ts
  let ⟨targets, rest, h₂⟩ ← inputTargets ctx rest
  let ⟨_, rest, h₃⟩ ← consume .delimiter ";" rest
  .ok ⟨.input targets, rest, by omega⟩

/-- An output statement. -/
def printStatement (ctx : Context) (ts : List Token) : Except CompileError (Read Stmt ts) := do
  let ⟨_, rest, h₁⟩ ← consume .keyword "cout" ts
  let ⟨parts, rest, h₂⟩ ← printParts ctx rest
  let ⟨_, rest, h₃⟩ ← consume .delimiter ";" rest
  .ok ⟨.print parts, rest, by omega⟩

/-- A return statement. -/
def returnStatement (ctx : Context) (ts : List Token) : Except CompileError (Read Stmt ts) := do
  let ⟨_, rest, h₁⟩ ← consume .keyword "return" ts
  let ⟨value, rest, h₂⟩ ← optionalExpression ctx ";" rest
  .ok ⟨.ret value, rest, shorter_of_two h₁ h₂⟩

/-- A statement that is one keyword and a semicolon. -/
def bareStatement (keyword : String) (s : Stmt) (ts : List Token) :
    Except CompileError (Read Stmt ts) := do
  let ⟨_, rest, h₁⟩ ← consume .keyword keyword ts
  let ⟨_, rest, h₂⟩ ← consume .delimiter ";" rest
  .ok ⟨s, rest, shorter_of_two h₁ h₂⟩

/-- A statement that declares nothing leaves the symbol table as it is. -/
def keeping (symbols : SymbolTable) {ts : List Token} (read : Except CompileError (Read Stmt ts)) :
    Except CompileError (Read (Stmt × SymbolTable) ts) :=
  read.map fun ⟨s, rest, h⟩ => ⟨(s, symbols), rest, h⟩

/-! ## Statements -/

mutual

/-- A statement of any kind. -/
def statement (ctx : Context) (symbols : SymbolTable) (ts : List Token) :
    Except CompileError (Read (Stmt × SymbolTable) ts) :=
  match ts with
  | [] => .error .statementMissing
  | t :: rest => do
    let ctx ← ctx.enter t
    match t.kind with
    | .header => .ok ⟨(.header (headerPath t.text), symbols), rest, by simp⟩
    | .keyword =>
      match t.text with
      | "if" => ifStatement ctx symbols (t :: rest)
      | "while" => whileStatement ctx symbols (t :: rest)
      | "do" => doStatement ctx symbols (t :: rest)
      | "for" => forStatement ctx symbols (t :: rest)
      | "return" => keeping symbols (returnStatement ctx (t :: rest))
      | "break" => keeping symbols (bareStatement "break" .breakLoop (t :: rest))
      | "continue" => keeping symbols (bareStatement "continue" .continueLoop (t :: rest))
      | "cin" => keeping symbols (inputStatement ctx (t :: rest))
      | "cout" => keeping symbols (printStatement ctx (t :: rest))
      | "using" => keeping symbols (usingDirective (t :: rest))
      | text =>
        if declarationKeywords.contains text then declaration ctx symbols (t :: rest)
        else .error (.unsupportedKeyword t)
    | .delimiter =>
      if t.text == "\x7b" then
        let ⟨(statements, symbols), rest, h⟩ ← block ctx symbols (t :: rest)
        .ok ⟨(.block statements, symbols), rest, h⟩
      else keeping symbols (expressionStatement ctx symbols t (t :: rest))
    | _ => keeping symbols (expressionStatement ctx symbols t (t :: rest))
termination_by (ts.length, 2)

/-- A declaration of a variable, a prototype or a function. -/
def declaration (ctx : Context) (symbols : SymbolTable) (ts : List Token) :
    Except CompileError (Read (Stmt × SymbolTable) ts) := do
  let ⟨type, rest, h₁⟩ ← typeName ts
  let ⟨name, rest, h₂⟩ ← consumeKind .identifier rest
  if startsWith .delimiter "(" rest then
    let ⟨(params, symbols), rest, h₃⟩ ← parameterList ctx (symbols.declare name.text type) rest
    if startsWith .delimiter "\x7b" rest then
      let ⟨(body, symbols), rest, h₄⟩ ← block ctx symbols rest
      .ok ⟨(.function type name.text params body, symbols), rest, by omega⟩
    else
      let ⟨_, rest, h₄⟩ ← consume .delimiter ";" rest
      .ok ⟨(.prototype type name.text params, symbols), rest, by omega⟩
  else
    let ⟨declared, rest, h₃⟩ ← variableRest ctx symbols type name.text rest
    .ok ⟨declared, rest, by omega⟩
termination_by (ts.length, 1)

/-- Statements in braces. -/
def block (ctx : Context) (symbols : SymbolTable) (ts : List Token) :
    Except CompileError (Read (List Stmt × SymbolTable) ts) := do
  let ⟨_, rest, h₁⟩ ← consume .delimiter "\x7b" ts
  let ⟨body, rest, h₂⟩ ← blockBody ctx symbols rest
  let ⟨_, rest, h₃⟩ ← consume .delimiter "\x7d" rest
  .ok ⟨body, rest, by omega⟩
termination_by (ts.length, 0)

/-- Statements up to a closing brace or the end of the input. -/
def blockBody (ctx : Context) (symbols : SymbolTable) (ts : List Token) :
    Except CompileError (Peek (List Stmt × SymbolTable) ts) :=
  if ts.isEmpty || startsWith .delimiter "\x7d" ts then .ok ⟨([], symbols), ts, by simp⟩
  else do
    let ⟨(first, symbols), rest, h₁⟩ ← statement ctx symbols ts
    let ⟨(others, symbols), rest, h₂⟩ ← blockBody ctx symbols rest
    .ok ⟨(first :: others, symbols), rest, by omega⟩
termination_by (ts.length, 3)

def ifStatement (ctx : Context) (symbols : SymbolTable) (ts : List Token) :
    Except CompileError (Read (Stmt × SymbolTable) ts) := do
  let ⟨_, rest, h₁⟩ ← consume .keyword "if" ts
  let ⟨cond, rest, h₂⟩ ← condition ctx rest
  let ⟨(thenStmt, symbols), rest, h₃⟩ ← statement ctx symbols rest
  if startsWith .keyword "else" rest then
    let ⟨_, rest, h₄⟩ ← consume .keyword "else" rest
    let ⟨(elseStmt, symbols), rest, h₅⟩ ← statement ctx symbols rest
    .ok ⟨(.ifElse cond thenStmt (some elseStmt), symbols), rest, by omega⟩
  else .ok ⟨(.ifElse cond thenStmt none, symbols), rest, by omega⟩
termination_by (ts.length, 0)

def whileStatement (ctx : Context) (symbols : SymbolTable) (ts : List Token) :
    Except CompileError (Read (Stmt × SymbolTable) ts) := do
  let ⟨_, rest, h₁⟩ ← consume .keyword "while" ts
  let ⟨cond, rest, h₂⟩ ← condition ctx rest
  let ⟨(body, symbols), rest, h₃⟩ ← statement ctx symbols rest
  .ok ⟨(.whileLoop cond body, symbols), rest, by omega⟩
termination_by (ts.length, 0)

def doStatement (ctx : Context) (symbols : SymbolTable) (ts : List Token) :
    Except CompileError (Read (Stmt × SymbolTable) ts) := do
  let ⟨_, rest, h₁⟩ ← consume .keyword "do" ts
  let ⟨(body, symbols), rest, h₂⟩ ← statement ctx symbols rest
  let ⟨_, rest, h₃⟩ ← consume .keyword "while" rest
  let ⟨cond, rest, h₄⟩ ← condition ctx rest
  let ⟨_, rest, h₅⟩ ← consume .delimiter ";" rest
  .ok ⟨(.doLoop cond body, symbols), rest, by omega⟩
termination_by (ts.length, 0)

/-- A `for` loop. Its initializer is a whole statement with its own semicolon; a missing condition
is true. -/
def forStatement (ctx : Context) (symbols : SymbolTable) (ts : List Token) :
    Except CompileError (Read (Stmt × SymbolTable) ts) := do
  let ⟨_, rest, h₁⟩ ← consume .keyword "for" ts
  let ⟨_, rest, h₂⟩ ← consume .delimiter "(" rest
  let ⟨(init, symbols), rest, h₃⟩ ← forInit ctx symbols rest
  let ⟨cond, rest, h₄⟩ ← optionalExpression ctx ";" rest
  let ⟨update, rest, h₅⟩ ← optionalExpression ctx ")" rest
  let ⟨(body, symbols), rest, h₆⟩ ← statement ctx symbols rest
  .ok ⟨(.forLoop init (cond.getD (.bool true)) update body, symbols), rest, by omega⟩
termination_by (ts.length, 0)

/-- The initializer of a `for` loop: a semicolon alone, or a statement. -/
def forInit (ctx : Context) (symbols : SymbolTable) (ts : List Token) :
    Except CompileError (Read (Option Stmt × SymbolTable) ts) :=
  if startsWith .delimiter ";" ts then do
    let ⟨_, rest, h₁⟩ ← consume .delimiter ";" ts
    .ok ⟨(none, symbols), rest, h₁⟩
  else do
    let ⟨(init, symbols), rest, h₁⟩ ← statement ctx symbols ts
    .ok ⟨(some init, symbols), rest, h₁⟩
termination_by (ts.length, 3)

end

/-- Statements up to the end of the input, with the declarations of `symbols` before them. -/
def programFrom (ctx : Context) (symbols : SymbolTable) (ts : List Token) :
    Except CompileError (List Stmt × SymbolTable) :=
  if ts.isEmpty then .ok ([], symbols)
  else do
    let ⟨(first, symbols), rest, _⟩ ← statement ctx symbols ts
    let (others, symbols) ← programFrom ctx symbols rest
    .ok (first :: others, symbols)
termination_by ts.length

/-- A whole program. -/
def program (maxDepth : Int) (ts : List Token) : Except CompileError (List Stmt × SymbolTable) :=
  programFrom (.start maxDepth) .empty ts

end ConsoleCpp.Parser

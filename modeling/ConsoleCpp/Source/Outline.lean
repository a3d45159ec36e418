/-
The outline of a source tree: its constructors with their fields in parentheses, texts quoted.
-/
import ConsoleCpp.Source.Walk
import ConsoleCpp.Text.Quoted
import ConsoleCpp.Token

namespace ConsoleCpp

open Text (quoted)

namespace Expr

/-- The name of the form of an expression. -/
def form : Expr → String
  | .number _ => "Number"
  | .string _ _ => "String"
  | .char _ => "Char"
  | .bool _ => "Boolean"
  | .name _ => "Identifier"
  | .unary _ _ => "Unary"
  | .stepAfter _ _ => "Postfix"
  | .binary _ _ _ => "Binary"
  | .assign _ _ _ => "Assign"
  | .call _ _ => "Call"
  | .member _ _ _ => "Member"
  | .scope _ _ => "Scope"
  | .index _ _ => "Index"
  | .list _ => "ListLiteral"
  | .newObject _ | .newArray _ _ => "New"

end Expr

/-- The name of the form of a statement. -/
def Stmt.form : Stmt → String
  | .header _ => "Include"
  | .usingSpace _ => "Using"
  | .declaration _ _ _ => "Declaration"
  | .prototype _ _ _ => "FunctionDecl"
  | .function _ _ _ _ => "Function"
  | .block _ => "Block"
  | .input _ => "Input"
  | .print _ => "Print"
  | .ifElse _ _ _ => "If"
  | .whileLoop _ _ => "While"
  | .doLoop _ _ => "DoWhile"
  | .forLoop _ _ _ _ => "For"
  | .ret _ => "Return"
  | .breakLoop => "Break"
  | .continueLoop => "Continue"
  | .expression _ => "ExpressionStatement"

/-- A form with its fields. -/
def outlined (form : String) (fields : List String) : String :=
  form ++ "(" ++ String.intercalate ", " fields ++ ")"

/-- A list of outlines. -/
def outlinedList (items : List String) : String :=
  "[" ++ String.intercalate ", " items ++ "]"

/-- A truth value in an outline. -/
def outlinedBool (b : Bool) : String := if b then "True" else "False"

/-- The outline of a field that may be absent. -/
def outlinedOption : Option String → String
  | none => "None"
  | some text => text

def Parameter.outline (p : Parameter) : String :=
  outlined "Parameter" [quoted p.type, quoted p.name]

namespace Expr

mutual

def outline (e : Expr) : String :=
  match e with
  | .number text => outlined e.form [quoted text]
  | .string text isEndl => outlined e.form [quoted text, outlinedBool isEndl]
  | .char text => outlined e.form [quoted text]
  | .bool value => outlined e.form [outlinedBool value]
  | .name id => outlined e.form [quoted id]
  | .unary op operand => outlined e.form [quoted op.text, outline operand]
  | .stepAfter op operand => outlined e.form [quoted op.text, outline operand]
  | .binary op left right => outlined e.form [quoted op.text, outline left, outline right]
  | .assign op target value => outlined e.form [quoted op.text, outline target, outline value]
  | .call callee args => outlined e.form [outline callee, outlinedList (outlineAll args)]
  | .member op target field => outlined e.form [quoted op.text, outline target, quoted field]
  | .scope left right => outlined e.form [outline left, outline right]
  | .index target key => outlined e.form [outline target, outline key]
  | .list element => outlined e.form [outline element]
  | .newObject typeName => outlined e.form [quoted typeName, "None"]
  | .newArray typeName size => outlined e.form [quoted typeName, outline size]

def outlineAll : List Expr → List String
  | [] => []
  | e :: rest => outline e :: outlineAll rest

end

end Expr

namespace Stmt

mutual

def outline (s : Stmt) : String :=
  match s with
  | .header path => outlined s.form [quoted path]
  | .usingSpace space => outlined s.form [quoted space]
  | .declaration type name initializer =>
    outlined s.form [quoted type, quoted name, outlinedOption (initializer.map Expr.outline)]
  | .prototype returnType name params =>
    outlined s.form [quoted returnType, quoted name, outlinedList (params.map Parameter.outline)]
  | .function returnType name params body =>
    outlined s.form [quoted returnType, quoted name, outlinedList (params.map Parameter.outline),
      outlined "Block" [outlinedList (outlineAll body)]]
  | .block statements => outlined s.form [outlinedList (outlineAll statements)]
  | .input targets => outlined s.form [outlinedList (targets.map Expr.outline)]
  | .print parts => outlined s.form [outlinedList (parts.map Expr.outline)]
  | .ifElse condition thenStmt elseStmt =>
    outlined s.form [condition.outline, outline thenStmt, outlineOption elseStmt]
  | .whileLoop condition body => outlined s.form [condition.outline, outline body]
  | .doLoop condition body => outlined s.form [condition.outline, outline body]
  | .forLoop init condition update body =>
    outlined s.form [outlineOption init, condition.outline,
      outlinedOption (update.map Expr.outline), outline body]
  | .ret value => outlined s.form [outlinedOption (value.map Expr.outline)]
  | .breakLoop => outlined s.form []
  | .continueLoop => outlined s.form []
  | .expression e => outlined s.form [e.outline]

def outlineAll : List Stmt → List String
  | [] => []
  | s :: rest => outline s :: outlineAll rest

def outlineOption : Option Stmt → String
  | none => "None"
  | some s => outline s

end

end Stmt

/-- How a traversal shows a node: an expression by its text, any other node by its form. -/
def Node.label : Node → String
  | .expr e => e.render
  | .stmt s => s.form
  | .param _ => "Parameter"

/-- A token in a listing, its text as it is. -/
def Token.outline (t : Token) : String := "Token(" ++ t.kind.label ++ ", " ++ t.text ++ ")"

end ConsoleCpp

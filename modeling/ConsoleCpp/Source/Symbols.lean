/-
The symbol table: the declared type of each name, in the order of first declaration. There are no
scopes; a later declaration of a name replaces the type of the earlier one.
-/
import ConsoleCpp.Text.Words

namespace ConsoleCpp

structure SymbolTable where
  entries : List (String × String)
deriving DecidableEq, Repr, Inhabited

/-- Words that qualify a type without changing what it is based on. -/
def typeModifiers : List String := ["const", "static"]

/-- The words of a type that are not modifiers. -/
def typeWords (type : String) : List String :=
  (Text.words type).filter fun word => !typeModifiers.contains word

/-- The type without the pointer and reference marks at its end. -/
def dropMarks (type : String) : String := Text.dropEnd (fun c => c == '*' || c == '&') type

namespace SymbolTable

def empty : SymbolTable := ⟨[]⟩

def size (table : SymbolTable) : Nat := table.entries.length

/-- The declared type of a name. -/
def lookup (table : SymbolTable) (name : String) : Option String := table.entries.lookup name

def contains (table : SymbolTable) (name : String) : Bool := (table.lookup name).isSome

/-- Gives a name a type, in place of the one it had. -/
def declare (table : SymbolTable) (name type : String) : SymbolTable :=
  if table.contains name then
    ⟨table.entries.map fun entry => if entry.1 == name then (name, type) else entry⟩
  else ⟨table.entries ++ [(name, type)]⟩

/-- The type that a name's declared type is based on: without marks and modifiers. -/
def baseType (table : SymbolTable) (name : String) : Option String :=
  (table.lookup name).bind fun type => (typeWords (dropMarks type)).getLast?

end SymbolTable

end ConsoleCpp

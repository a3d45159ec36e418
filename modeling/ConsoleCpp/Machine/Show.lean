/-
Values as text: how a program prints them, and how they stand in a listing, where texts are quoted.
An object prints as a listing of its fields.
-/
import ConsoleCpp.Machine.Value
import ConsoleCpp.Number.Layout

namespace ConsoleCpp.Machine

/-- An integer in decimal. -/
def writeInt (n : Int) : Except Fault String :=
  match Number.writeInt? n with
  | some text => .ok text
  | none => .error (.digitLimit none)

/-- An address in a text. -/
def writeAddress : Option Nat → Except Fault String
  | some n => .ok (" at 0x" ++ String.ofList (Nat.toDigits 16 n) ++ ">")
  | none => .error (.undescribed .address)

/-- A method in a listing. -/
def listedMethod (s : State) : Method → Except Fault String
  | .append ref => do
    return "<built-in method append of list object" ++ (← writeAddress (s.addresses.list ref))
  | .upper _ | .lower _ => .error (.undescribed (.identity "str"))

/-- A value in a listing. `openLists` and `openObjects` are the lists and objects that the value
stands in, which are not listed again inside themselves; at most `depth` levels are listed. -/
def listed (s : State) : (depth : Nat) → (openLists openObjects : List Nat) → Value →
    Except Fault String
  | 0, _, _, _ => .ok "..."
  | depth + 1, openLists, openObjects, v =>
    match v with
    | .none => .ok "None"
    | .bool b => .ok (if b then "True" else "False")
    | .int n => writeInt n
    | .float x => .ok (Number.listing.write x)
    | .text t => .ok (Text.quoted t)
    | .list ref =>
      if openLists.contains ref then .ok "[...]"
      else do
        let items ← (s.list ref).toList.mapM (listed s depth (ref :: openLists) openObjects)
        return "[" ++ String.intercalate ", " items ++ "]"
    | .object ref =>
      if openObjects.contains ref then .ok "namespace(...)"
      else do
        let fields ← (s.object ref).mapM fun (field, x) => do
          return field ++ "=" ++ (← listed s depth openLists (ref :: openObjects) x)
        return "namespace(" ++ String.intercalate ", " fields ++ ")"
    | .function f => do
      return "<function " ++ f.path ++ (← writeAddress (s.addresses.function f.ref))
    | .builtin b =>
      .ok (if b.isType then "<class '" ++ b.name ++ "'>"
        else "<built-in function " ++ b.name ++ ">")
    | .method m => listedMethod s m

/-- A value in a listing. -/
def State.listing (s : State) (v : Value) : Except Fault String := listed s s.depth [] [] v

/-- A value as a text: a text is itself, anything else its listing. -/
def State.asText (s : State) : Value → Except Fault String
  | .text t => .ok t
  | v => s.listing v

/-- What a double prints as: an integer in full, otherwise its shortest decimal. -/
def showFloat (x : Float) : Except Fault String :=
  match Number.parts x with
  | .nan => .ok "NaN"
  | .infinite negative => .ok (if negative then "-Infinity" else "Infinity")
  | .finite _ _ _ =>
    match Number.isIntegral x, Number.truncate? x with
    | true, some n => writeInt n
    | _, _ => .ok (Number.listing.write x)

/-- What a value prints as, looking at most `depth` levels into lists. A list deeper than that holds
itself, and Python stops in the middle of it with a message that depends on the calls open. -/
def shownTo (s : State) : (depth : Nat) → Value → Except Fault String
  | 0, _ => .error (.undescribed .stackEnd)
  | depth + 1, v =>
    match v with
    | .none => .ok ""
    | .bool b => .ok (if b then "true" else "false")
    | .float x => showFloat x
    | .list ref => do
      let items ← (s.list ref).toList.mapM (shownTo s depth)
      return String.intercalate "," items
    | v => s.asText v

/-- What a value prints as. -/
def State.shown (s : State) (v : Value) : Except Fault String := shownTo s s.depth v

end ConsoleCpp.Machine

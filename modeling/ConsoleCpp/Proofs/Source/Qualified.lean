/-
Expressions in which parts are qualified: `std::` stands in front of any number of operands that are
not plain names. A place that is stepped or assigned stays one, since only a variable, element or
member can be stored to, and none of them can once it is qualified as a whole.
-/
import ConsoleCpp.Source.Expr

namespace ConsoleCpp

namespace Expr

mutual

/-- The second expression is the first with `std::` in front of some of its operands. -/
inductive Qualifies : Expr → Expr → Prop
  | std {e e' : Expr} (hn : ∀ id, e ≠ .name id) (h : Qualifies e e') :
    Qualifies e (.scope (.name "std") e')
  | number (text : String) : Qualifies (.number text) (.number text)
  | string (text : String) (isEndl : Bool) : Qualifies (.string text isEndl) (.string text isEndl)
  | char (text : String) : Qualifies (.char text) (.char text)
  | bool (value : Bool) : Qualifies (.bool value) (.bool value)
  | name (id : String) : Qualifies (.name id) (.name id)
  | newObject (typeName : String) : Qualifies (.newObject typeName) (.newObject typeName)
  | sign (op : SignOp) {e e' : Expr} (h : Qualifies e e') :
    Qualifies (.unary (.sign op) e) (.unary (.sign op) e')
  | step (op : StepOp) {e e' : Expr} (h : Qualifies e e')
    (hp : e.isAssignable = true → e'.isAssignable = true) :
    Qualifies (.unary (.step op) e) (.unary (.step op) e')
  | stepAfter (op : StepOp) {e e' : Expr} (h : Qualifies e e')
    (hp : e.isAssignable = true → e'.isAssignable = true) :
    Qualifies (.stepAfter op e) (.stepAfter op e')
  | binary (op : BinaryOp) {a a' b b' : Expr} (ha : Qualifies a a') (hb : Qualifies b b') :
    Qualifies (.binary op a b) (.binary op a' b')
  | assign (op : AssignOp) {a a' b b' : Expr} (ha : Qualifies a a')
    (hp : a.isAssignable = true → a'.isAssignable = true) (hb : Qualifies b b') :
    Qualifies (.assign op a b) (.assign op a' b')
  | call {a a' : Expr} {args args' : List Expr} (ha : Qualifies a a')
    (hs : QualifiesAll args args') : Qualifies (.call a args) (.call a' args')
  | member (op : MemberOp) {e e' : Expr} (h : Qualifies e e') (field : String) :
    Qualifies (.member op e field) (.member op e' field)
  | scope {a a' b b' : Expr} (ha : Qualifies a a') (hb : Qualifies b b') :
    Qualifies (.scope a b) (.scope a' b')
  | index {a a' b b' : Expr} (ha : Qualifies a a') (hb : Qualifies b b') :
    Qualifies (.index a b) (.index a' b')
  | list {e e' : Expr} (h : Qualifies e e') : Qualifies (.list e) (.list e')
  | newArray (typeName : String) {e e' : Expr} (h : Qualifies e e') :
    Qualifies (.newArray typeName e) (.newArray typeName e')

/-- The same of lists of expressions. -/
inductive QualifiesAll : List Expr → List Expr → Prop
  | nil : QualifiesAll [] []
  | cons {e e' : Expr} {rest rest' : List Expr} (h : Qualifies e e')
    (hs : QualifiesAll rest rest') : QualifiesAll (e :: rest) (e' :: rest')

end

mutual

/-- Nothing has to be qualified. -/
theorem Qualifies.refl : ∀ e : Expr, Qualifies e e
  | .number text => .number text
  | .string text isEndl => .string text isEndl
  | .char text => .char text
  | .bool value => .bool value
  | .name id => .name id
  | .newObject typeName => .newObject typeName
  | .unary (.sign op) e => .sign op (.refl e)
  | .unary (.step op) e => .step op (.refl e) id
  | .stepAfter op e => .stepAfter op (.refl e) id
  | .binary op a b => .binary op (.refl a) (.refl b)
  | .assign op a b => .assign op (.refl a) id (.refl b)
  | .call a args => .call (.refl a) (.refl args)
  | .member op e field => .member op (.refl e) field
  | .scope a b => .scope (.refl a) (.refl b)
  | .index a b => .index (.refl a) (.refl b)
  | .list e => .list (.refl e)
  | .newArray typeName e => .newArray typeName (.refl e)

theorem QualifiesAll.refl : ∀ es : List Expr, QualifiesAll es es
  | [] => .nil
  | e :: rest => .cons (.refl e) (.refl rest)

end

/-- A name is not qualified and nothing else becomes one. -/
theorem Qualifies.name_iff {e e' : Expr} (h : Qualifies e e') (id : String) :
    e = .name id ↔ e' = .name id := by
  cases h with
  | std hn _ => exact ⟨fun he => absurd he (hn id), nofun⟩
  | name _ => exact Iff.rfl
  | _ => exact ⟨nofun, nofun⟩

end Expr

end ConsoleCpp

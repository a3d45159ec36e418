/-
Reading a rendered expression back. The rendered text is lexed into the tokens it was put together
from, for each of them is followed by something that cannot go on with it; and since every operation
stands in parentheses, the parser takes each part as one operand, whatever the precedences and
wherever the stream operators shift. A variable, a call and an element stand without parentheses:
what follows them continues their chain, so they are followed up to that point.
-/
import ConsoleCpp.Proofs.Parser.Precedence
import ConsoleCpp.Proofs.Parser.SourcedStmt
import ConsoleCpp.Proofs.Token.Respelling

namespace ConsoleCpp

open Token (Rereads Starter enders signs longOperators delimiters)
open Text (isWord isDigit)

namespace Expr

/-! ## The tokens of the rendered text -/

/-- The token of a type after `new`. -/
def typeSpelling (typeName : String) : Token.Kind × String :=
  (if Parser.datatypes.contains typeName then .keyword else .identifier, typeName)

/-- Tokens between two delimiters. -/
def bracketed (opening closing : String) (tokens : List (Token.Kind × String)) :
    List (Token.Kind × String) :=
  (.delimiter, opening) :: (tokens ++ [(.delimiter, closing)])

mutual

/-- The tokens of the source text with every operation in parentheses. -/
def written : Expr → List (Token.Kind × String)
  | .number text => [(.number, text)]
  | .string text _ => [(.string, text)]
  | .char text => [(.char, text)]
  | .bool value => [(.keyword, if value then "true" else "false")]
  | .name id => [(.identifier, id)]
  | .unary op operand => bracketed "(" ")" ((.operator, op.text) :: written operand)
  | .stepAfter op operand => bracketed "(" ")" (written operand ++ [(.operator, op.text)])
  | .binary op left right => bracketed "(" ")" (written left ++ op.spelling :: written right)
  | .assign op target value =>
    bracketed "(" ")" (written target ++ (.operator, op.text) :: written value)
  | .call callee args => written callee ++ bracketed "(" ")" (writtenAll args)
  | .member op target field =>
    bracketed "(" ")" (written target ++ [(.operator, op.text), (.identifier, field)])
  | .scope left right => bracketed "(" ")" (written left ++ (.scope, "::") :: written right)
  | .index target key => written target ++ bracketed "[" "]" (written key)
  | .list element => bracketed "[" "]" (written element)
  | .newObject typeName => (.keyword, "new") :: typeSpelling typeName :: bracketed "(" ")" []
  | .newArray typeName size =>
    (.keyword, "new") :: typeSpelling typeName :: bracketed "[" "]" (written size)

def writtenAll : List Expr → List (Token.Kind × String)
  | [] => []
  | [e] => written e
  | e :: next :: rest => written e ++ (.delimiter, ",") :: writtenAll (next :: rest)

end

/-! ## Expressions that can be told from their text -/

/-- Whether the text of an expression tells what it is, apart from the expressions below it. The
line break of `endl` is written like a string; a member in parentheses is neither called nor
indexed nor stored to; and a point after digits belongs to the number. -/
def isFaithful : Expr → Bool
  | .string _ isEndl => !isEndl
  | .unary (.step _) (.member _ _ _) | .stepAfter _ (.member _ _ _) | .assign _ (.member _ _ _) _
  | .call (.member _ _ _) _ | .index (.member _ _ _) _ => false
  | .member .dot (.number text) _ => !text.toList.all isDigit
  | _ => true

end Expr

/-- Whether the text of a node tells what it is, if the node is an expression. -/
def Node.isFaithful : Node → Bool
  | .expr e => e.isFaithful
  | _ => true

namespace Expr

/-- Whether the text is a number of digits only. -/
def isWhole : Expr → Bool
  | .number text => text.toList.all isDigit
  | _ => false

/-- Whether the text has no parentheses around it and goes on with what follows. -/
def isBare : Expr → Bool
  | .name _ | .call _ _ | .index _ _ => true
  | _ => false

/-- The part at the front that has to be a chain: what is called, indexed, assigned to or
stepped. -/
def held? : Expr → Option Expr
  | .call callee _ => some callee
  | .index target _ | .assign _ target _ => some target
  | .stepAfter _ operand => some operand
  | _ => none

/-- Everything in the expression is as the parser makes it, and can be told from its text. -/
def Renderable (e : Expr) : Prop :=
  (Node.expr e).Everywhere fun node =>
    ∀ part, node = .expr part → part.Sourced Parser.NewType ∧ part.isFaithful = true

theorem renderable_iff {e : Expr} : e.Renderable ↔
    (e.Sourced Parser.NewType ∧ e.isFaithful = true) ∧ ∀ child ∈ e.children, child.Renderable := by
  rw [Renderable, Node.everywhere_iff, Node.children, List.forall_mem_map]
  refine and_congr_left fun _ => ⟨fun h => h e rfl, ?_⟩
  rintro h part ⟨⟩
  exact h

/-- What belongs to a chain or can be stored to has no parentheses around it, unless it is a
member. -/
theorem isBare_of_isChained {e : Expr} (h : e.isChained = true ∨ e.isAssignable = true)
    (hm : ∀ op target field, e ≠ .member op target field) : e.isBare = true := by
  cases e with
  | name _ | call _ _ | index _ _ => rfl
  | member op target field => exact absurd rfl (hm op target field)
  | _ => rcases h with h | h <;> cases h

namespace Renderable

theorem child {e : Expr} (h : e.Renderable) (child : Expr) (hc : child ∈ e.children) :
    child.Renderable :=
  (renderable_iff.1 h).2 child hc

theorem bare_held {e part : Expr} (h : e.Renderable) (hp : e.held? = some part) :
    part.isBare = true := by
  obtain ⟨⟨hs, hf⟩, -⟩ := renderable_iff.1 h
  cases e with
  | call _ _ | index _ _ =>
    cases hp
    refine isBare_of_isChained (.inl hs) ?_
    rintro op target field rfl
    cases hf
  | assign _ _ _ | stepAfter _ _ =>
    cases hp
    refine isBare_of_isChained (.inr hs) ?_
    rintro op target field rfl
    cases hf
  | _ => cases hp

end Renderable

/-! ## Lexing -/

/-- A text that starts with a character that ends operands. -/
theorem ends_of_head {text : String} (ht : text.toList.head?.any enders.contains = true)
    {after : List Char} : ∀ c ∈ (text.toList ++ after).head?, c ∈ enders := by
  cases hl : text.toList with
  | nil => rw [hl] at ht; cases ht
  | cons d rest =>
    rintro _ ⟨⟩
    rw [hl] at ht
    simpa using ht

/-- A rendered expression starts with a character that no operator and no blank goes on with. -/
theorem starter_render : ∀ {e : Expr}, e.Renderable →
    ∃ c, e.render.toList.head? = some c ∧ Starter c
  | .number text, h => by
    obtain ⟨⟨hs, -⟩, -⟩ := renderable_iff.1 h
    obtain ⟨c, rest, hc, hd⟩ := Token.NumberText.head hs
    exact ⟨c, by rw [render, hc]; rfl, Token.starter_of_isDigit hd⟩
  | .string text isEndl, h => by
    obtain ⟨⟨⟨⟨body, hb, -⟩, -⟩, -⟩, -⟩ := renderable_iff.1 h
    exact ⟨'"', by rw [render, hb]; rfl, ⟨by decide, by decide⟩⟩
  | .char text, h => by
    obtain ⟨⟨⟨hc, -⟩, -⟩, -⟩ := renderable_iff.1 h
    exact ⟨'\'', hc.head, ⟨by decide, by decide⟩⟩
  | .bool value, _ => by
    cases value
    · exact ⟨'f', rfl, ⟨by decide, by decide⟩⟩
    · exact ⟨'t', rfl, ⟨by decide, by decide⟩⟩
  | .name id, h => by
    obtain ⟨⟨hs, -⟩, -⟩ := renderable_iff.1 h
    obtain ⟨c, rest, hc, hn⟩ := Token.WordText.head hs.word
    exact ⟨c, by rw [render, hc]; rfl, Token.starter_of_isNameStart hn⟩
  | .call callee args, h => by
    have hcallee := h.child callee (by simp [children])
    obtain ⟨c, hr, hc⟩ := starter_render hcallee
    exact ⟨c, by simp [render, hr], hc⟩
  | .index target key, h => by
    have htarget := h.child target (by simp [children])
    obtain ⟨c, hr, hc⟩ := starter_render htarget
    exact ⟨c, by simp [render, hr], hc⟩
  | .unary _ _, _ | .stepAfter _ _, _ | .binary _ _ _, _ | .assign _ _ _, _ | .member _ _ _, _
  | .scope _ _, _ => ⟨'(', by simp [render], ⟨by decide, by decide⟩⟩
  | .list _, _ => ⟨'[', by simp [render], ⟨by decide, by decide⟩⟩
  | .newObject _, _ | .newArray _ _, _ => ⟨'n', by simp [render], ⟨by decide, by decide⟩⟩

/-- What the text of an expression starts with, with more text after it. -/
theorem starter_of_mem {e : Expr} (h : e.Renderable) {after : List Char} :
    ∀ c ∈ (e.render.toList ++ after).head?, Starter c := by
  obtain ⟨d, hd, hs⟩ := starter_render h
  intro c hc
  rw [List.head?_append, hd] at hc
  cases hc
  exact hs

theorem starter_args {e : Expr} (h : e.Renderable) {rest : List Expr} {after : List Char} :
    ∀ c ∈ ((String.intercalate ", " (renderAll (e :: rest))).toList ++ after).head?, Starter c := by
  cases rest with
  | nil => exact starter_of_mem h
  | cons next rest =>
    rw [renderAll, renderAll, String.intercalate_cons_cons, String.toList_append,
      String.toList_append, List.append_assoc, List.append_assoc]
    exact starter_of_mem h

/-- A space before an expression. -/
theorem rereads_space {e : Expr} (he : e.Renderable) {before : Option Char} {after : List Char}
    {spelled : List (Token.Kind × String)}
    (h : ∀ before, before.any isWord = false → Rereads before (e.render.toList ++ after) spelled) :
    Rereads before (" ".toList ++ (e.render.toList ++ after)) spelled :=
  .space (fun c hc => (starter_of_mem he c hc).noBlank) h

/-- A space before an operator. -/
theorem rereads_gap {text : String} (ht : text.toList.head?.any (fun c => !Text.isBlank c) = true)
    {before : Option Char} {after : List Char} {spelled : List (Token.Kind × String)}
    (h : ∀ before, Rereads before (text.toList ++ after) spelled) :
    Rereads before (" ".toList ++ (text.toList ++ after)) spelled := by
  refine .space (fun c hc => ?_) fun before _ => h before
  cases hl : text.toList with
  | nil => rw [hl] at ht; cases ht
  | cons d rest =>
    rw [hl] at hc ht
    cases hc
    simpa using ht

theorem rereads_type {typeName : String} (ht : Parser.NewType typeName) {before : Option Char}
    {after : List Char} {spelled : List (Token.Kind × String)} (hb : before.any isWord = false)
    (ha : ∀ c ∈ after.head?, c ∈ enders) (h : ∀ before, Rereads before after spelled) :
    Rereads before (typeName.toList ++ after) (typeSpelling typeName :: spelled) := by
  have hall : ∀ typeName ∈ Parser.datatypes, typeName ∈ Token.keywords := by decide
  unfold typeSpelling
  split
  · rename_i hd
    exact .reserved (hall typeName (by simpa using hd)) hb ha h
  · rename_i hd
    rcases ht with ht | ht
    · exact absurd (by simpa using ht) hd
    · exact .word ht.word ht.free ha h

theorem newType_head {typeName : String} (ht : Parser.NewType typeName) :
    ∃ c rest, typeName.toList = c :: rest ∧ Text.isNameStart c = true := by
  have hall : ∀ typeName ∈ Parser.datatypes, Token.WordText typeName.toList := by
    intro typeName hm
    simp only [Parser.datatypes, List.mem_cons, List.not_mem_nil, or_false] at hm
    rcases hm with rfl | rfl | rfl | rfl | rfl | rfl | rfl <;>
      exact .mk (by decide) (List.all_eq_true.1 (by decide))
  rcases ht with ht | ht
  · -- a reserved type is spelled like a name all the same
    exact (hall typeName ht).head
  · exact ht.word.head

theorem rereads_new {typeName : String} (ht : Parser.NewType typeName) {before : Option Char}
    {after : List Char} {spelled : List (Token.Kind × String)} (hb : before.any isWord = false)
    (ha : ∀ c ∈ after.head?, c ∈ enders) (h : ∀ before, Rereads before after spelled) :
    Rereads before ("new ".toList ++ (typeName.toList ++ after))
      ((.keyword, "new") :: typeSpelling typeName :: spelled) := by
  show Rereads before ("new".toList ++ (" ".toList ++ (typeName.toList ++ after))) _
  refine .reserved (by decide) hb (ends_of_head (by decide)) fun _ => ?_
  refine .space (fun c hc => ?_) fun _ hb => rereads_type ht hb ha h
  obtain ⟨d, rest, hd, hn⟩ := newType_head ht
  rw [hd] at hc
  cases hc
  exact (Token.starter_of_isNameStart hn).noBlank

theorem rereads_binaryOp {op : BinaryOp} {before : Option Char} {after : List Char}
    {spelled : List (Token.Kind × String)} (ha : ∀ c ∈ after.head?, c ∉ signs)
    (h : ∀ before, before.any isWord = false → Rereads before after spelled) :
    Rereads before (op.text.toList ++ after) (op.spelling :: spelled) := by
  unfold BinaryOp.spelling
  split
  · rename_i hs
    refine .stream ?_ h
    cases op with
    | shiftLeft => exact .inl rfl
    | shiftRight => exact .inr rfl
    | _ => cases hs
  · rename_i hs
    refine .operator ?_ ha h
    cases op <;> first | exact absurd rfl hs | decide

/-! ## One form after another -/

/-- Behind a character that belongs to no word and in front of what ends an operand, the rendered
text is lexed into the tokens it was put together from. A point must not follow digits only. -/
def Relexed (e : Expr) : Prop :=
  ∀ ⦃before : Option Char⦄ ⦃after : List Char⦄ ⦃spelled : List (Token.Kind × String)⦄,
    before.any isWord = false → (∀ c ∈ after.head?, c ∈ enders) →
    (e.isWhole = true → after.head? ≠ some '.') → (∀ before, Rereads before after spelled) →
    Rereads before (e.render.toList ++ after) (e.written ++ spelled)

namespace Relexed

variable {e target value key callee left right size : Expr} {before : Option Char}
  {after : List Char} {spelled : List (Token.Kind × String)} {text : String}

/-- A text follows that ends operands and does not start with a point. -/
theorem upTo (h : Relexed e) (hb : before.any isWord = false)
    (ht : text.toList.head?.any (fun c => enders.contains c && c != '.') = true)
    (hr : ∀ before, Rereads before (text.toList ++ after) spelled) :
    Rereads before (e.render.toList ++ (text.toList ++ after)) (e.written ++ spelled) := by
  obtain ⟨d, hd, hends⟩ := (Option.any_eq_true _ _).1 ht
  rw [Bool.and_eq_true, bne_iff_ne] at hends
  refine h hb (ends_of_head ?_) (fun _ => ?_) hr
  · rw [hd]
    exact hends.1
  · rw [List.head?_append, hd]
    exact fun he => hends.2 (Option.some.inj he)

/-- What stands last in brackets. -/
theorem closed (h : Relexed e) (hb : before.any isWord = false) (ht : text = ")" ∨ text = "]")
    (hr : ∀ before, Rereads before after spelled) :
    Rereads before (e.render.toList ++ (text.toList ++ after))
      (e.written ++ (.delimiter, text) :: spelled) := by
  rcases ht with rfl | rfl
  · exact h.upTo hb (by decide) fun _ => .delimiter (by decide) fun _ _ => hr _
  · exact h.upTo hb (by decide) fun _ => .delimiter (by decide) fun _ _ => hr _

theorem bool (value : Bool) : Relexed (.bool value) := by
  intro before after spelled hb ha hw hr
  cases value with
  | false => exact .reserved (by decide) hb ha hr
  | true => exact .reserved (by decide) hb ha hr

theorem unary (op : UnaryOp) (he : e.Renderable) (h : Relexed e) : Relexed (.unary op e) := by
  intro before after spelled hb ha hw hr
  show Rereads before (("(" ++ op.text ++ e.render ++ ")").toList ++ after)
    (bracketed "(" ")" ((.operator, op.text) :: e.written) ++ spelled)
  simp only [bracketed, String.toList_append, List.append_assoc, List.cons_append, List.nil_append]
  refine .delimiter (by decide) fun _ _ => ?_
  -- no sign comes right behind the operator, or the two could be one longer operator
  refine .operator ?_ (fun c hc => (starter_of_mem he c hc).noSign) fun _ hb => ?_
  · rcases op with op | op <;> cases op <;> decide
  exact h.closed hb (.inl rfl) hr

theorem stepAfter (op : StepOp) (h : Relexed e) : Relexed (.stepAfter op e) := by
  intro before after spelled hb ha hw hr
  show Rereads before (("(" ++ e.render ++ op.text ++ ")").toList ++ after)
    (bracketed "(" ")" (e.written ++ [(.operator, op.text)]) ++ spelled)
  simp only [bracketed, String.toList_append, List.append_assoc, List.cons_append, List.nil_append]
  refine .delimiter (by decide) fun _ hb => h.upTo hb ?_ fun _ => ?_
  · cases op <;> decide
  refine .operator ?_ (by simp [signs]) fun _ _ => .delimiter (by decide) fun _ _ => hr _
  cases op <;> decide

/-- Two parts in parentheses and an operator between them, with a space on each side. -/
theorem of_spaced {op : String} {spelling : Token.Kind × String} (hl : Relexed left)
    (he : right.Renderable) (hright : Relexed right)
    (hrender : e.render = "(" ++ left.render ++ " " ++ op ++ " " ++ right.render ++ ")")
    (hwritten : e.written = bracketed "(" ")" (left.written ++ spelling :: right.written))
    (hblank : op.toList.head?.any (fun c => !Text.isBlank c) = true)
    (hop : ∀ {before after spelled}, (∀ c ∈ after.head?, c ∉ signs) →
      (∀ before, before.any isWord = false → Rereads before after spelled) →
      Rereads before (op.toList ++ after) (spelling :: spelled)) : Relexed e := by
  intro before after spelled hb ha hw hr
  rw [hrender, hwritten]
  simp only [bracketed, String.toList_append, List.append_assoc, List.cons_append, List.nil_append]
  refine .delimiter (by decide) fun _ hb => hl.upTo hb (by decide) fun _ => ?_
  refine rereads_gap hblank fun _ => hop (by simp [signs]) fun _ _ => ?_
  exact rereads_space he fun _ hb => hright.closed hb (.inl rfl) hr

theorem binary (op : BinaryOp) (hl : Relexed left) (he : right.Renderable)
    (hright : Relexed right) : Relexed (.binary op left right) := by
  refine of_spaced hl he hright rfl rfl ?_ rereads_binaryOp
  cases op <;> decide

theorem assign (op : AssignOp) (ht : Relexed target) (he : value.Renderable)
    (hv : Relexed value) : Relexed (.assign op target value) := by
  refine of_spaced ht he hv rfl rfl ?_ fun ha h => .operator ?_ ha h
  · rcases op with _ | op
    · decide
    · cases op <;> decide
  · rcases op with _ | op
    · decide
    · cases op <;> decide

theorem call {args : List Expr} (hc : Relexed callee)
    (hargs : ∀ ⦃before : Option Char⦄ ⦃after : List Char⦄ ⦃spelled : List (Token.Kind × String)⦄,
      before.any isWord = false → (∀ c ∈ after.head?, c = ')') →
      (∀ before, Rereads before after spelled) →
      Rereads before ((String.intercalate ", " (renderAll args)).toList ++ after)
        (writtenAll args ++ spelled)) : Relexed (.call callee args) := by
  intro before after spelled hb ha hw hr
  show Rereads before
    ((callee.render ++ "(" ++ String.intercalate ", " (renderAll args) ++ ")").toList ++ after)
    (callee.written ++ bracketed "(" ")" (writtenAll args) ++ spelled)
  simp only [bracketed, String.toList_append, List.append_assoc, List.cons_append, List.nil_append]
  refine hc.upTo hb (by decide) fun _ => .delimiter (by decide) fun _ hb => ?_
  exact hargs hb (by simp) fun _ => .delimiter (by decide) fun _ _ => hr _

theorem member (op : MemberOp) {field : String} (ht : Relexed target) (hs : IsName field)
    (hf : (Expr.member op target field).isFaithful = true) : Relexed (.member op target field) := by
  intro before after spelled hb ha hw hr
  obtain ⟨c, rest, hfield, hname⟩ := Token.WordText.head hs.word
  show Rereads before (("(" ++ target.render ++ op.text ++ field ++ ")").toList ++ after)
    (bracketed "(" ")" (target.written ++ [(.operator, op.text), (.identifier, field)]) ++ spelled)
  simp only [bracketed, String.toList_append, List.append_assoc, List.cons_append, List.nil_append]
  refine .delimiter (by decide) fun _ hb => ht hb (ends_of_head ?_) (fun hwhole => ?_) fun _ => ?_
  · cases op <;> decide
  · -- a point after digits would belong to the number
    cases op with
    | arrow => simp [MemberOp.text]
    | dot =>
      cases target with
      | number text =>
        rw [isWhole] at hwhole
        rw [isFaithful, hwhole] at hf
        cases hf
      | _ => cases hwhole
  refine .operator ?_ ?_ fun _ _ => ?_
  · cases op <;> decide
  · rw [hfield]
    rintro _ ⟨⟩
    exact (Token.starter_of_isNameStart hname).noSign
  refine .word hs.word hs.free (ends_of_head (by decide)) fun _ => ?_
  exact .delimiter (by decide) fun _ _ => hr _

theorem scope (hl : Relexed left) (hright : Relexed right) : Relexed (.scope left right) := by
  intro before after spelled hb ha hw hr
  show Rereads before (("(" ++ left.render ++ "::" ++ right.render ++ ")").toList ++ after)
    (bracketed "(" ")" (left.written ++ (.scope, "::") :: right.written) ++ spelled)
  simp only [bracketed, String.toList_append, List.append_assoc, List.cons_append, List.nil_append]
  refine .delimiter (by decide) fun _ hb => hl.upTo hb (by decide) fun _ => ?_
  exact .scope fun _ hb => hright.closed hb (.inl rfl) hr

theorem index (ht : Relexed target) (hk : Relexed key) : Relexed (.index target key) := by
  intro before after spelled hb ha hw hr
  show Rereads before ((target.render ++ "[" ++ key.render ++ "]").toList ++ after)
    (target.written ++ bracketed "[" "]" key.written ++ spelled)
  simp only [bracketed, String.toList_append, List.append_assoc, List.cons_append, List.nil_append]
  refine ht.upTo hb (by decide) fun _ => .delimiter (by decide) fun _ hb => ?_
  exact hk.closed hb (.inr rfl) hr

theorem list (h : Relexed e) : Relexed (.list e) := by
  intro before after spelled hb ha hw hr
  show Rereads before (("[" ++ e.render ++ "]").toList ++ after)
    (bracketed "[" "]" e.written ++ spelled)
  simp only [bracketed, String.toList_append, List.append_assoc, List.cons_append, List.nil_append]
  exact .delimiter (by decide) fun _ hb => h.closed hb (.inr rfl) hr

theorem newObject {typeName : String} (hs : Parser.NewType typeName) :
    Relexed (.newObject typeName) := by
  intro before after spelled hb ha hw hr
  show Rereads before (("new " ++ typeName ++ "()").toList ++ after)
    ((.keyword, "new") :: typeSpelling typeName :: bracketed "(" ")" [] ++ spelled)
  simp only [bracketed, String.toList_append, List.append_assoc, List.cons_append, List.nil_append]
  refine rereads_new hs hb (ends_of_head (by decide)) fun _ => ?_
  show Rereads _ ("(".toList ++ (")".toList ++ after)) _
  exact .delimiter (by decide) fun _ _ => .delimiter (by decide) fun _ _ => hr _

theorem newArray {typeName : String} (hs : Parser.NewType typeName) (hsize : Relexed size) :
    Relexed (.newArray typeName size) := by
  intro before after spelled hb ha hw hr
  show Rereads before (("new " ++ typeName ++ "[" ++ size.render ++ "]").toList ++ after)
    ((.keyword, "new") :: typeSpelling typeName :: bracketed "[" "]" size.written ++ spelled)
  simp only [bracketed, String.toList_append, List.append_assoc, List.cons_append, List.nil_append]
  refine rereads_new hs hb (ends_of_head (by decide)) fun _ => .delimiter (by decide) fun _ hb => ?_
  exact hsize.closed hb (.inr rfl) hr

end Relexed

mutual

/-- The rendered text is lexed into the tokens it was put together from. -/
theorem rereads_render : ∀ {e : Expr}, e.Renderable → Relexed e
  | .number text, h => fun _ _ _ _ ha hw hr => by
    obtain ⟨⟨hs, -⟩, -⟩ := renderable_iff.1 h
    exact .number hs ha (fun hd => hw (List.all_eq_true.2 hd)) hr
  | .string text isEndl, h => fun _ _ _ _ _ _ hr => by
    obtain ⟨⟨⟨⟨body, ht, hs⟩, hv⟩, -⟩, -⟩ := renderable_iff.1 h
    exact .string ht hs hv hr
  | .char text, h => fun _ _ _ _ _ _ hr => by
    obtain ⟨⟨⟨hc, hv⟩, -⟩, -⟩ := renderable_iff.1 h
    exact .char hc hv hr
  | .bool value, _ => .bool value
  | .name id, h => fun _ _ _ _ ha _ hr => by
    obtain ⟨⟨hs, -⟩, -⟩ := renderable_iff.1 h
    exact .word hs.word hs.free ha hr
  | .unary op operand, h => by
    have he : operand.Renderable := h.child operand (by simp [children])
    exact .unary op he (rereads_render he)
  | .stepAfter op operand, h => by
    have he : operand.Renderable := h.child operand (by simp [children])
    exact .stepAfter op (rereads_render he)
  | .binary op left right, h => by
    have hl : left.Renderable := h.child left (by simp [children])
    have hr : right.Renderable := h.child right (by simp [children])
    exact .binary op (rereads_render hl) hr (rereads_render hr)
  | .assign op target value, h => by
    have ht : target.Renderable := h.child target (by simp [children])
    have hv : value.Renderable := h.child value (by simp [children])
    exact .assign op (rereads_render ht) hv (rereads_render hv)
  | .call callee args, h => by
    have hc : callee.Renderable := h.child callee (by simp [children])
    refine .call (rereads_render hc) fun _ _ _ => rereads_args fun arg hm => ?_
    exact h.child arg (by simp [children, hm])
  | .member op target field, h => by
    have ht : target.Renderable := h.child target (by simp [children])
    obtain ⟨⟨hs, hf⟩, -⟩ := renderable_iff.1 h
    exact .member op (rereads_render ht) hs hf
  | .scope left right, h => by
    have hl : left.Renderable := h.child left (by simp [children])
    have hr : right.Renderable := h.child right (by simp [children])
    exact .scope (rereads_render hl) (rereads_render hr)
  | .index target key, h => by
    have ht : target.Renderable := h.child target (by simp [children])
    have hk : key.Renderable := h.child key (by simp [children])
    exact .index (rereads_render ht) (rereads_render hk)
  | .list element, h => by
    have he : element.Renderable := h.child element (by simp [children])
    exact .list (rereads_render he)
  | .newObject typeName, h => .newObject (renderable_iff.1 h).1.1
  | .newArray typeName size, h => by
    have he : size.Renderable := h.child size (by simp [children])
    exact .newArray (renderable_iff.1 h).1.1 (rereads_render he)

theorem rereads_args : ∀ {args : List Expr}, (∀ arg ∈ args, arg.Renderable) →
    ∀ {before : Option Char} {after : List Char} {spelled : List (Token.Kind × String)},
    before.any isWord = false → (∀ c ∈ after.head?, c = ')') →
    (∀ before, Rereads before after spelled) →
    Rereads before ((String.intercalate ", " (renderAll args)).toList ++ after)
      (writtenAll args ++ spelled)
  | [], h, before, after, spelled, hb, ha, hr => hr before
  | [e], h, before, after, spelled, hb, ha, hr => by
    have he := h e List.mem_cons_self
    rw [renderAll, renderAll, String.intercalate_singleton, writtenAll]
    -- the closing parenthesis ends an operand and is no point
    refine rereads_render he hb (fun c hc => ?_) (fun _ hd => ?_) hr
    · rw [ha c hc]
      decide
    · exact absurd (ha _ hd) (by decide)
  | e :: next :: rest, h, before, after, spelled, hb, ha, hr => by
    have he := h e List.mem_cons_self
    have hrest : ∀ arg ∈ next :: rest, arg.Renderable := fun arg hm => h arg (.tail _ hm)
    rw [renderAll, renderAll, String.intercalate_cons_cons, writtenAll, ← renderAll]
    simp only [String.toList_append, List.append_assoc, List.cons_append]
    refine (rereads_render he).upTo hb (by decide) fun _ => ?_
    show Rereads _ (",".toList ++ (" ".toList ++ _)) _
    refine .delimiter (by decide) fun _ _ => ?_
    refine .space (fun c hc => ?_) fun _ hb => rereads_args hrest hb ha hr
    exact (starter_args (h next (by simp)) c hc).noBlank

end

end Expr

end ConsoleCpp

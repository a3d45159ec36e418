/-
What `std::` does in front of a call. The tokens up to the call are read as before. At the call,
`::` binds tighter than all operators but those in front of an operand, so the call with its chain
becomes the right side of a scope, and what follows joins to the scope as it did to the call. It is
different right behind an operator in front of the call, which takes `std` for its operand; and a
place in brackets that starts with the call is no place any more, so it is not stepped and nothing
is assigned to it.
-/
import ConsoleCpp.Proofs.Generate.Depth
import ConsoleCpp.Proofs.Parser.Locality
import Mathlib

namespace ConsoleCpp.Parser

open ConsoleCpp.Expr (Qualifies QualifiesAll)
open Generate (bind_ok)

/-- A call of a plain name with all tokens after its bracket, and the two tokens that qualify it. -/
structure NamedCall where
  name : Token
  bracket : Token
  after : List Token
  std : Token
  colons : Token
  isName : name.kind = .identifier
  isBracket : bracket.isA .delimiter "(" = true
  isStd : std.isA .identifier "std" = true
  isColons : colons.isA .scope "::" = true

namespace NamedCall

/-- The tokens from the call on. -/
def plain (c : NamedCall) : List Token := c.name :: c.bracket :: c.after

/-- The tokens from the call on, qualified. -/
def qualified (c : NamedCall) : List Token := c.std :: c.colons :: c.plain

end NamedCall

/-! ## Tokens before a call -/

/-- Whether an operand can end with this token. -/
def endsOperand (t : Token) : Bool :=
  match t.kind with
  | .number | .string | .char | .identifier | .keyword => true
  | .delimiter => t.text == ")" || t.text == "]"
  | .operator => t.text == "++" || t.text == "--"
  | .header | .stream | .scope => false

theorem endsOperand_operator {t : Token} (hk : t.kind = .operator) (hp : t.text ≠ "++")
    (hm : t.text ≠ "--") : endsOperand t = false := by
  simp [endsOperand, hk, hp, hm]

/-- Whether the last token is an operator in front of an operand, where `ended` tells whether an
operand ends right before the tokens. Between two operands an operator is not in front of one. -/
def prefixedAfter (ended : Bool) : List Token → Bool
  | [] => false
  | [t] =>
    t.kind == .operator && (UnaryOp.ofText? t.text).isSome &&
      !(ended && (BinaryOp.ofText? t.text).isSome)
  | t :: u :: rest => prefixedAfter (endsOperand t) (u :: rest)

/-- Whether tokens at the start of an expression end with an operator in front of an operand. -/
def prefixed (ts : List Token) : Bool := prefixedAfter false ts

/-- Whether a name right after the token is that of a member, of a part of a scope or of a type. -/
def takesName (t : Token) : Bool := [".", "->", "::", "new"].contains t.text

/-- The last token opens a bracket. -/
def Opened (ts : List Token) : Prop := ∃ t ∈ ts.getLast?, t.isA .delimiter "(" = true

theorem prefixedAfter_append (ended : Bool) (t u : Token) (rest : List Token) :
    ∀ taken : List Token, prefixedAfter ended (taken ++ t :: u :: rest) =
      prefixedAfter (endsOperand t) (u :: rest)
  | [] => rfl
  | [_] => rfl
  | _ :: v :: taken => prefixedAfter_append _ t u rest (v :: taken)

/-- Tokens somewhere in an expression that the call follows. -/
structure Before (opened : Prop) (ts : List Token) : Prop where
  unnamed : ∀ t ∈ ts.getLast?, takesName t = false
  unprefixed : ∀ taken t rest, ts = taken ++ t :: rest → endsOperand t = false →
    prefixed rest = false
  open_of : Opened ts → opened

/-- Tokens from the start of an operand on that the call follows. -/
structure Starts (opened : Prop) (ts : List Token) : Prop extends Before opened ts where
  plainly : prefixed ts = false

section

variable {opened : Prop} {ts : List Token}

theorem getLast?_append_of_ne {taken : List Token} (hne : ts ≠ []) :
    (taken ++ ts).getLast? = ts.getLast? := by
  rw [List.getLast?_append, List.getLast?_eq_some_getLast hne]
  rfl

theorem Before.suffix {taken : List Token} (h : Before opened (taken ++ ts)) :
    Before opened ts := by
  by_cases hne : ts = []
  · subst hne
    refine ⟨nofun, ?_, fun ⟨_, ht, _⟩ => nomatch ht⟩
    intro taken t rest he
    exact absurd he.symm (by simp)
  · refine ⟨fun t ht => h.unnamed t (by rwa [getLast?_append_of_ne hne]), ?_, ?_⟩
    · intro more t rest he hend
      exact h.unprefixed (taken ++ more) t rest (by rw [he, List.append_assoc]) hend
    · rintro ⟨t, ht, hto⟩
      exact h.open_of ⟨t, by rwa [getLast?_append_of_ne hne], hto⟩

theorem Before.tail {t : Token} (h : Before opened (t :: ts)) : Before opened ts :=
  Before.suffix (show Before opened ([t] ++ ts) from h)

/-- After a token that ends no operand an operand starts. -/
theorem Before.after {t : Token} (h : Before opened (t :: ts)) (ht : endsOperand t = false) :
    Starts opened ts :=
  ⟨h.tail, h.unprefixed [] t ts rfl ht⟩

theorem Starts.of (hn : ∀ t ∈ ts.getLast?, takesName t = false) (hp : prefixed ts = false) :
    Starts (Opened ts) ts := by
  refine ⟨⟨hn, ?_, id⟩, hp⟩
  rintro taken t (_ | ⟨u, rest⟩) rfl ht
  · rfl
  · rw [prefixed, prefixedAfter_append, ht] at hp
    exact hp

end

/-! ## Readings that pass the call -/

/-- What is read of the qualified tokens, if the same tokens are left over. -/
def Mirrors {α : Type} (rel : α → α → Prop) (fails : CompileError → Prop)
    (x y : Except CompileError (α × List Token)) : Prop :=
  ∀ value rest, x = .ok (value, rest) →
    Ends (fun made => rel value made.1 ∧ made.2 = rest) fails y

/-- A reading that starts before the call and takes it makes the same of the qualified call, up to
`rel`, or fails. -/
def Carries {α : Type} (c : NamedCall) (rel : α → α → Prop) (fails : CompileError → Prop)
    (read : List Token → Except CompileError (α × List Token)) (ts : List Token) : Prop :=
  ∀ value rest, read (ts ++ c.plain) = .ok (value, rest) → rest.length < c.plain.length →
    Ends (fun made => rel value made.1 ∧ made.2 = rest) fails (read (ts ++ c.qualified))

namespace Carries

variable {α β γ : Type} {c : NamedCall} {rel : α → α → Prop} {rel' : β → β → Prop}
  {fails : CompileError → Prop} {read : List Token → Except CompileError (α × List Token)}
  {first : List Token → Except CompileError (β × List Token)}
  {next : β × List Token → Except CompileError (α × List Token)} {ts : List Token}

/-- A reading that does not take the call. -/
theorem never (h : ∀ made, read (ts ++ c.plain) = .ok made → c.plain.length ≤ made.2.length) :
    Carries c rel fails read ts :=
  fun value rest hr hlt => absurd (h (value, rest) hr) (Nat.not_le.2 hlt)

theorem of_error {e : CompileError} (h : read (ts ++ c.plain) = .error e) :
    Carries c rel fails read ts :=
  never fun made hm => by
    rw [h] at hm
    cases hm

theorem pure (value : α) : Carries c rel fails (fun ts => .ok (value, ts)) ts :=
  never fun made hm => by
    cases hm
    rw [List.length_append]
    exact Nat.le_add_left _ _

theorem of_eq {read' : List Token → Except CompileError (α × List Token)}
    (he : ∀ ts, read ts = read' ts) (h : Carries c rel fails read' ts) :
    Carries c rel fails read ts :=
  (funext he : read = read') ▸ h

theorem weaken {rel₁ : α → α → Prop} (hr : ∀ a b, rel₁ a b → rel a b)
    (h : Carries c rel₁ fails read ts) : Carries c rel fails read ts :=
  fun value rest hv hlt => (h value rest hv hlt).imp fun _ hm => ⟨hr _ _ hm.1, hm.2⟩

/-- With a first token that is taken. -/
theorem cons {t : Token} {step : List Token → Except CompileError (α × List Token)}
    (hc : ∀ rest, read (t :: rest) = step rest) (h : Carries c rel fails step ts) :
    Carries c rel fails read (t :: ts) := by
  intro value rest hr hlt
  rw [List.cons_append, hc] at hr ⊢
  exact h value rest hr hlt

/-- After a check that does not look at the tokens. -/
theorem check {x : Except CompileError γ}
    {next : γ → List Token → Except CompileError (α × List Token)}
    (hn : ∀ a, Carries c rel fails (next a) ts) :
    Carries c rel fails (fun ts => x >>= fun a => next a ts) ts := by
  cases x with
  | error e => exact of_error rfl
  | ok a => exact hn a

/-- With a step after it that only looks at the value. -/
theorem map {f : β → α} (h : Carries c rel' fails first ts)
    (hf : ∀ a b, rel' a b → rel (f a) (f b)) :
    Carries c rel fails (fun ts => first ts >>= fun made => .ok (f made.1, made.2)) ts := by
  intro value rest hr hlt
  obtain ⟨⟨a, after⟩, ha, hv⟩ := bind_ok hr
  cases hv
  exact (h a after ha hlt).bind fun made hm => ⟨hf _ _ hm.1, hm.2⟩

/-- Two steps. Either the first takes the call, and then the second starts with the same tokens, or
it stops before the call, and then it reads the same. It does not stop right at the call, where the
second could only stop too. -/
theorem bind {takes : Bool} (hl : Local takes Nothing Structural first (ts ++ c.plain))
    (hf : Carries c rel' fails first ts)
    (hsame : ∀ a b rest, rel' a b → Mirrors rel fails (next (a, rest)) (next (b, rest)))
    (hstop : ∀ a made, next (a, c.plain) = .ok made → c.plain.length ≤ made.2.length)
    (hlater : ∀ a taken t rest, ts = taken ++ t :: rest → (takes = true → taken ≠ []) →
      Carries c rel fails (fun ts => next (a, ts)) (t :: rest)) :
    Carries c rel fails (fun ts => first ts >>= next) ts := by
  intro value rest hr hlt
  obtain ⟨⟨a, middle⟩, ha, hv⟩ := bind_ok hr
  obtain ⟨taken, he, ht, hagain⟩ := hl.ok ha
  by_cases hm : middle.length < c.plain.length
  · exact (hf a middle ha hm).bind fun ⟨b, middle'⟩ ⟨hab, heq⟩ => by
      cases heq
      exact hsame a b middle' hab value rest hv
  rcases List.append_eq_append_iff.1 he with ⟨more, rfl, hp⟩ | ⟨more, rfl, hp⟩
  · -- the first step ends in the call or right before it
    have hnil : more = [] := by
      have hlen := congrArg List.length hp
      rw [List.length_append] at hlen
      dsimp only at hlen
      exact List.length_eq_zero_iff.1 (by omega)
    subst hnil
    obtain rfl : c.plain = middle := hp
    exact absurd (hstop a _ hv) (Nat.not_le.2 hlt)
  · dsimp only at hp
    subst hp
    cases more with
    | nil => exact absurd (hstop a _ hv) (Nat.not_le.2 hlt)
    | cons u more =>
      have hagain := hagain (u :: more ++ c.qualified) (.inl rfl)
      dsimp only
      rw [List.append_assoc, hagain]
      exact hlater a taken u more rfl ht value rest hv hlt

end Carries

namespace Mirrors

variable {α β : Type} {rel : α → α → Prop} {rel' : β → β → Prop} {fails : CompileError → Prop}

theorem refl (h : ∀ a, rel a a) (x : Except CompileError (α × List Token)) :
    Mirrors rel fails x x := by
  rintro value rest rfl
  exact ⟨h value, rfl⟩

theorem ok {a b : α} (h : rel a b) (rest : List Token) :
    Mirrors rel fails (.ok (a, rest)) (.ok (b, rest)) := by
  rintro value rest' hv
  cases hv
  exact ⟨h, rfl⟩

theorem of_error {e : CompileError} {y : Except CompileError (α × List Token)} :
    Mirrors rel fails (.error e) y := nofun

theorem bind {x y : Except CompileError (β × List Token)}
    {f g : β × List Token → Except CompileError (α × List Token)} (h : Mirrors rel' fails x y)
    (hn : ∀ a b rest, x = .ok (a, rest) → rel' a b →
      Mirrors rel fails (f (a, rest)) (g (b, rest))) :
    Mirrors rel fails (x >>= f) (y >>= g) := by
  intro value rest hv
  obtain ⟨⟨a, middle⟩, ha, hv⟩ := bind_ok hv
  exact (h a middle ha).bind fun ⟨b, middle'⟩ ⟨hab, he⟩ => by
    cases he
    exact hn a b middle' ha hab value rest hv

/-- After the same first step. -/
theorem after {x : Except CompileError (β × List Token)}
    {f g : β × List Token → Except CompileError (α × List Token)}
    (hn : ∀ made, x = .ok made → Mirrors rel fails (f made) (g made)) :
    Mirrors rel fails (x >>= f) (x >>= g) := by
  intro value rest hv
  obtain ⟨made, rfl, hv⟩ := bind_ok hv
  exact hn made rfl value rest hv

theorem weaken {rel₁ : α → α → Prop} {x y : Except CompileError (α × List Token)}
    (hr : ∀ a b, rel₁ a b → rel a b) (h : Mirrors rel₁ fails x y) : Mirrors rel fails x y :=
  fun value rest hv => (h value rest hv).imp fun _ hm => ⟨hr _ _ hm.1, hm.2⟩

end Mirrors

/-! ## The same tokens after a qualified operand -/

/-- A qualified expression that is a place where the other is one, unless it is spoilt. -/
structure Near (spoilt : Prop) (e e' : Expr) : Prop where
  qualifies : Qualifies e e'
  place : e'.isAssignable = e.isAssignable ∨ spoilt

theorem Near.weaken {spoilt spoilt' : Prop} (hs : spoilt → spoilt') (e e' : Expr)
    (h : Near spoilt e e') : Near spoilt' e e' :=
  ⟨h.qualifies, h.place.imp id hs⟩

theorem Near.refl (e : Expr) : Near False e e := ⟨.refl e, .inl rfl⟩

section

variable {ctx : Context} {fails : CompileError → Prop}

/-! ### Lengths -/

theorem extended_ok {node : Expr} {t : Token} {rest : List Token}
    {more : Except CompileError (Expr × List Token)} (he : extended ctx node t rest = some more)
    {longer : Expr} {after : List Token} (hm : more = .ok (longer, after)) :
    after.length < rest.length ∧ ∀ id, longer ≠ .name id := by
  unfold extended enclosed at he
  split at he
  · cases he
    obtain ⟨args, ha, hm⟩ := bind_ok hm
    obtain ⟨close, hc, hm⟩ := bind_ok hm
    cases hm
    refine ⟨Nat.lt_of_lt_of_le (seen_shorter hc) (glimpsed_notLonger ha), fun id hid => ?_⟩
    cases hid
  split at he
  · cases he
    obtain ⟨_, hk, hm⟩ := bind_ok hm
    obtain ⟨_, hi, hk⟩ := bind_ok hk
    obtain ⟨_, hc, hk⟩ := bind_ok hk
    cases hk
    cases hm
    refine ⟨Nat.lt_trans (seen_shorter hc) (seen_shorter hi), fun id hid => ?_⟩
    cases hid
  split at he
  · cases he
    obtain ⟨_, hf, hm⟩ := bind_ok hm
    cases hm
    refine ⟨seen_shorter hf, fun id hid => ?_⟩
    cases hid
  · cases he

theorem joined_shorter {left whole : Expr} {t : Token} {rest after : List Token} :
    ∀ {link : Link}, joined ctx left t rest link = .ok (whole, after) → after.length < rest.length
  | .member _, h => by
    obtain ⟨_, hf, h⟩ := bind_ok h
    exact Nat.lt_of_le_of_lt (glimpsed_notLonger h) (seen_shorter hf)
  | .assign _, h => by
    simp only [joined] at h
    split at h
    · obtain ⟨_, hv, h⟩ := bind_ok h
      cases h
      exact seen_shorter hv
    · cases h
  | .scope, h | .binary _, h => by
    obtain ⟨_, hr, h⟩ := bind_ok h
    cases h
    exact seen_shorter hr

/-! ### Steps -/

theorem extended_mirrors (fails : CompileError → Prop) {node node' : Expr}
    (h : Qualifies node node') (t : Token) (rest : List Token) :
    (extended ctx node t rest = none ∧ extended ctx node' t rest = none) ∨
      ∃ more more', extended ctx node t rest = some more ∧ extended ctx node' t rest = some more' ∧
        Mirrors (Near False) fails more more' := by
  unfold extended
  split
  · refine .inr ⟨_, _, rfl, rfl, .after fun args _ => .after fun close _ => ?_⟩
    exact .ok ⟨.call h (.refl _), .inl rfl⟩ _
  split
  · refine .inr ⟨_, _, rfl, rfl, .after fun key _ => ?_⟩
    exact .ok ⟨.index h (.refl _), .inl rfl⟩ _
  split
  · refine .inr ⟨_, _, rfl, rfl, .after fun field _ => ?_⟩
    exact .ok ⟨.member _ h _, .inl rfl⟩ _
  · exact .inl ⟨rfl, rfl⟩

theorem chain_mirrors : ∀ {node node' : Expr} (ts : List Token), Near False node node' →
    Mirrors (Near False) fails (glimpsed (chain ctx node ts)) (glimpsed (chain ctx node' ts))
  | _, _, [], h => by
    rw [glimpsed_chain_nil, glimpsed_chain_nil]
    exact .ok h []
  | _, _, t :: rest, h => by
    rw [glimpsed_chain_cons, glimpsed_chain_cons]
    rcases extended_mirrors fails h.qualifies t rest with
      ⟨hn, hn'⟩ | ⟨more, more', hm, hm', hf⟩
    · rw [hn, hn']
      exact .ok h _
    · rw [hm, hm']
      refine hf.bind fun longer longer' after ha hl => ?_
      have hlt := (extended_ok hm ha).1
      exact chain_mirrors after hl
termination_by _ _ ts => ts.length

/-- A variable is stepped or assigned by the next token, or by that token neither is done. -/
theorem stored_cases (ctx : Context) (t : Token) :
    (∃ op, ∀ node rest, stored ctx node (t :: rest) =
      if node.isAssignable then .ok (.stepAfter op node, rest) else .error (.notAssignable t)) ∨
    (endsOperand t = false ∧ ∃ op, ∀ node rest, stored ctx node (t :: rest) =
      if node.isAssignable then
        seen (expression ctx 0 rest) >>= fun value => .ok (.assign op node value.1, value.2)
      else .error (.notAssignable t)) ∨
    ((t.kind = .operator → AssignOp.ofText? t.text = none) ∧
      ∀ node rest, stored ctx node (t :: rest) = .ok (node, t :: rest)) := by
  cases hk : t.kind with
  | operator =>
    cases ho : StepOp.ofText? t.text with
    | some op =>
      refine .inl ⟨op, fun node rest => ?_⟩
      simp only [stored, hk, ho]
      rfl
    | none =>
      cases ha : AssignOp.ofText? t.text with
      | some op =>
        refine .inr (.inl ⟨?_, op, fun node rest => ?_⟩)
        · refine endsOperand_operator hk ?_ ?_ <;>
          · intro hb
            rw [hb] at ho
            exact absurd ho (by decide)
        · simp only [stored, hk, ho, ha]
          rfl
      | none =>
        refine .inr (.inr ⟨fun _ => rfl, fun node rest => ?_⟩)
        simp only [stored, hk, ho, ha]
        rfl
  | _ =>
    refine .inr (.inr ⟨nofun, fun node rest => ?_⟩)
    simp only [stored, hk]
    rfl

/-- An assignment or a step of a place that is still one. -/
theorem stored_mirrors {node node' : Expr} (ts : List Token) (h : Near False node node') :
    Mirrors (Near False) fails (stored ctx node ts) (stored ctx node' ts) := by
  have hp : node'.isAssignable = node.isAssignable := h.place.resolve_right id
  have hq : node.isAssignable = true → node'.isAssignable = true := fun ha => hp.trans ha
  cases ts with
  | nil => exact .ok h []
  | cons t rest =>
    rcases stored_cases ctx t with ⟨op, hs⟩ | ⟨-, op, hs⟩ | ⟨-, hs⟩
    · rw [hs, hs, hp]
      split
      · exact .ok ⟨.stepAfter op h.qualifies hq, .inl rfl⟩ _
      · exact .of_error
    · rw [hs, hs, hp]
      split
      · exact .after fun value _ => .ok ⟨.assign op h.qualifies hq (.refl _), .inl rfl⟩ _
      · exact .of_error
    · rw [hs, hs]
      exact .ok h _

/-- What a link joins to an operand, which an assignment refuses if it is a place no more. -/
theorem joined_mirrors {left left' : Expr} {t : Token} (rest : List Token) (link : Link)
    (h : Qualifies left left')
    (hp : left'.isAssignable = left.isAssignable ∨
      ∀ op, link = .assign op → fails (.assignedOperation t)) :
    Mirrors (Near False) fails (joined ctx left t rest link) (joined ctx left' t rest link) := by
  cases link with
  | member op => exact .after fun field _ => chain_mirrors _ ⟨.member op h _, .inl rfl⟩
  | scope => exact .after fun right _ => .ok ⟨.scope h (.refl _), .inl rfl⟩ _
  | binary op => exact .after fun right _ => .ok ⟨.binary op h (.refl _), .inl rfl⟩ _
  | assign op =>
    simp only [joined]
    cases ha : left.isAssignable with
    | false => exact .of_error
    | true =>
      cases ha' : left'.isAssignable with
      | true =>
        exact .after fun value _ => .ok ⟨.assign op h (fun _ => ha') (.refl _), .inl rfl⟩ _
      | false =>
        refine fun _ _ _ => hp.elim (fun he => ?_) fun hf => hf op rfl
        rw [ha, ha'] at he
        cases he

/-- Operators after an operand. Once one of them is taken, the whole is a place as before. -/
theorem climb_mirrors {floor : Int} {left left' : Expr} (ts : List Token) (h : Qualifies left left')
    (hp : left'.isAssignable = left.isAssignable ∨ ∀ t ∈ ts.head?, ∀ op,
      link? ctx.inStream t = some (.assign op) → fails (.assignedOperation t)) :
    Mirrors (Near (left'.isAssignable ≠ left.isAssignable)) fails
      (glimpsed (climb ctx floor left ts)) (glimpsed (climb ctx floor left' ts)) := by
  have hself : Near (left'.isAssignable ≠ left.isAssignable) left left' := ⟨h, Decidable.em _⟩
  match ts with
  | [] =>
    rw [glimpsed_climb_nil, glimpsed_climb_nil]
    exact .ok hself []
  | t :: rest =>
    rw [glimpsed_climb_cons, glimpsed_climb_cons]
    cases hl : link? ctx.inStream t with
    | none => exact .ok hself _
    | some link =>
      dsimp only
      split
      · exact .ok hself _
      have hj : Mirrors (Near False) fails (joined ctx left t rest link)
          (joined ctx left' t rest link) :=
        joined_mirrors rest link h (hp.imp id fun hf op he => hf t rfl op (he ▸ hl))
      refine hj.bind fun whole whole' after ha hw => ?_
      have hlt := joined_shorter ha
      have hsame : whole'.isAssignable = whole.isAssignable := hw.place.resolve_right id
      exact (climb_mirrors after hw.qualifies (.inl hsame)).weaken (Near.weaken (absurd hsame))
termination_by ts.length

end

/-! ## At the call -/

/-- The errors of a place in brackets that is stepped or assigned. `opened` tells whether the call
comes right after a bracket. -/
inductive PlaceLost (opened : Prop) : CompileError → Prop
  | step (t : Token) (h : opened) : PlaceLost opened (.notSteppable t)
  | assignment (t : Token) (h : opened ∨ t.kind ≠ .operator) :
    PlaceLost opened (.assignedOperation t)

theorem Link.precedence_le (link : Link) : link.precedence ≤ Link.scope.precedence := by
  cases link with
  | binary op => cases op <;> decide
  | assign _ => exact Nat.zero_le _
  | member _ | scope => exact Nat.le_refl _

theorem ofText?_of_link {inStream : Bool} {t : Token} {link : Link}
    (h : link? inStream t = some link) : Link.ofText? t.text = some link := by
  unfold link? at h
  split at h
  · exact h
  · exact h
  · split at h
    · cases h
    · exact h
  · cases h

theorem assignOp_of_link {inStream : Bool} {t : Token} {op : AssignOp}
    (h : link? inStream t = some (.assign op)) : AssignOp.ofText? t.text = some op := by
  have hof := ofText?_of_link h
  unfold Link.ofText? at hof
  split at hof
  · cases hof
  · rename_i ha _
    cases hof
    exact ha
  · cases hof
  · split at hof <;> cases hof

theorem takesName_of_memberOp {t : Token} {op : MemberOp} (h : MemberOp.ofText? t.text = some op) :
    takesName t = true := by
  have ht := List.find?_some
    (show MemberOp.all.find? (fun op => op.text == t.text) = some op from h)
  rw [takesName, ← beq_iff_eq.1 ht]
  cases op <;> decide

/-- A link that takes no operand takes a name. -/
theorem takesName_of_link {inStream : Bool} {t : Token} {link : Link}
    (h : link? inStream t = some link) (hl : (∃ op, link = .member op) ∨ link = .scope) :
    takesName t = true := by
  have hof := ofText?_of_link h
  unfold Link.ofText? at hof
  split at hof
  · rename_i hm
    exact takesName_of_memberOp hm
  · rcases hl with ⟨_, rfl⟩ | rfl <;> cases hof
  · rcases hl with ⟨_, rfl⟩ | rfl <;> cases hof
  · split at hof
    · rename_i ht
      rw [takesName, beq_iff_eq.1 ht]
      decide
    · cases hof

/-- No operator binds tighter than `::`. -/
theorem expression_tight (ctx : Context) (ts : List Token) :
    seen (expression ctx (Link.scope.precedence + 1) ts) = seen (primary ctx ts) := by
  have hstop : ∀ (left : Expr) (rest : List Token),
      glimpsed (climb ctx (Link.scope.precedence + 1) left rest) = .ok (left, rest) := by
    intro left rest
    cases rest with
    | nil => exact glimpsed_climb_nil _ _ _
    | cons t rest =>
      rw [glimpsed_climb_cons]
      cases link? ctx.inStream t with
      | none => rfl
      | some link =>
        exact if_pos (Int.lt_add_one_of_le (Int.ofNat_le.2 link.precedence_le))
  rw [seen_expression]
  cases hp : seen (primary ctx ts) with
  | error e => rfl
  | ok made => exact hstop made.1 made.2

section

variable {ctx : Context} {node e : Expr} {ts rest : List Token}

/-- What a chain makes of an operation is no name. -/
theorem chain_operation {node : Expr} {ts : List Token}
    (h : glimpsed (chain ctx node ts) = .ok (e, rest)) (hn : ∀ id, node ≠ .name id) :
    ∀ id, e ≠ .name id := by
  match ts with
  | [] =>
    rw [glimpsed_chain_nil] at h
    cases h
    exact hn
  | t :: after =>
    rw [glimpsed_chain_cons] at h
    cases hx : extended ctx node t after with
    | none =>
      rw [hx] at h
      cases h
      exact hn
    | some more =>
      rw [hx] at h
      obtain ⟨⟨longer, middle⟩, hm, h⟩ := bind_ok h
      obtain ⟨hlt, hl⟩ := extended_ok hx hm
      exact chain_operation h hl
termination_by ts.length

/-- A place is neither stepped nor assigned any further. -/
theorem stored_place (h : stored ctx node ts = .ok (e, rest)) (ha : e.isAssignable = true) :
    e = node ∧ ∀ t ∈ rest.head?, t.kind = .operator → AssignOp.ofText? t.text = none := by
  cases ts with
  | nil =>
    cases h
    exact ⟨rfl, nofun⟩
  | cons t after =>
    rcases stored_cases ctx t with ⟨op, hs⟩ | ⟨-, op, hs⟩ | ⟨hn, hs⟩
    · rw [hs] at h
      split at h
      · cases h
        cases ha
      · cases h
    · rw [hs] at h
      split at h
      · obtain ⟨value, -, h⟩ := bind_ok h
        cases h
        cases ha
      · cases h
    · rw [hs] at h
      cases h
      refine ⟨rfl, ?_⟩
      rintro t' ⟨⟩
      exact hn

end

section

variable {opened : Prop} {c : NamedCall}

theorem NamedCall.extended_bracket (c : NamedCall) (ctx : Context) (node : Expr) :
    ∃ more, extended ctx node c.bracket c.after = some more := by
  rw [extended, if_pos c.isBracket]
  exact ⟨_, rfl⟩

/-- The operand that starts with the call is no name, and if it is a place, no assignment
follows. -/
theorem primary_plain {ctx : Context} {e : Expr} {rest : List Token}
    (h : seen (primary ctx c.plain) = .ok (e, rest)) :
    (∀ id, e ≠ .name id) ∧ (e.isAssignable = true → ∀ t ∈ rest.head?, t.kind = .operator →
      AssignOp.ofText? t.text = none) := by
  rw [NamedCall.plain, seen_primary_cons] at h
  obtain ⟨inner, -, h⟩ := bind_ok h
  rw [operand_identifier c.isName, glimpsed_variableOperand] at h
  obtain ⟨⟨node, middle⟩, hc, h⟩ := bind_ok h
  obtain ⟨more, hx⟩ := c.extended_bracket inner (.name c.name.text)
  rw [glimpsed_chain_cons, hx] at hc
  obtain ⟨⟨longer, after⟩, hm, hc⟩ := bind_ok hc
  have hnode := chain_operation hc (extended_ok hx hm).2
  refine ⟨?_, fun ha => (stored_place h ha).2⟩
  rintro id rfl
  exact hnode id (stored_place h rfl).1.symm

/-- In front of the call `std` is an operand of its own. -/
theorem primary_qualified {ctx : Context} {made : Expr × List Token}
    (h : seen (primary ctx c.plain) = .ok made) :
    seen (primary ctx c.qualified) = .ok (.name "std", c.colons :: c.plain) := by
  have hs := c.isStd
  have hc := c.isColons
  simp only [Token.isA, Bool.and_eq_true, beq_iff_eq] at hs hc
  rw [NamedCall.plain, seen_primary_cons] at h
  obtain ⟨inner, hi, -⟩ := bind_ok h
  have he : ctx.enter c.std = .ok inner := by
    unfold Context.enter at hi ⊢
    split at hi
    · cases hi
    · rename_i hd
      rw [if_neg hd]
      exact hi
  have hx : extended inner (.name c.std.text) c.colons c.plain = none := by
    simp [extended, Token.isA, hc.1]
  have hst : stored inner (.name c.std.text) (c.colons :: c.plain) =
      .ok (.name c.std.text, c.colons :: c.plain) := by
    simp only [stored, hc.1]
    rfl
  rw [NamedCall.qualified, seen_primary_cons, he]
  show operand inner c.std (c.colons :: c.plain) = _
  rw [operand_identifier hs.1, glimpsed_variableOperand, glimpsed_chain_cons, hx]
  show stored inner (.name c.std.text) (c.colons :: c.plain) = _
  rw [hst, hs.2]

/-- An expression that starts with the call, where `::` may join. -/
theorem expression_here {ctx : Context} {floor : Int} (hfloor : floor ≤ Link.scope.precedence)
    {spoilt : Prop} (hs : spoilt) {e : Expr} {rest : List Token}
    (h : seen (expression ctx floor c.plain) = .ok (e, rest)) :
    Ends (fun made => Near spoilt e made.1 ∧ made.2 = rest) (PlaceLost opened)
      (seen (expression ctx floor c.qualified)) := by
  rw [seen_expression] at h ⊢
  obtain ⟨⟨operand, after⟩, ho, h⟩ := bind_ok h
  obtain ⟨hname, hplace⟩ := primary_plain ho
  have hlink : link? ctx.inStream c.colons = some .scope := by
    have hc := c.isColons
    simp only [Token.isA, Bool.and_eq_true, beq_iff_eq] at hc
    simp only [link?, hc.1, hc.2]
    rfl
  have hjoin : joined ctx (.name "std") c.colons c.plain .scope =
      .ok (.scope (.name "std") operand, after) := by
    rw [joined, expression_tight, ho]
    rfl
  have hp : (Expr.scope (.name "std") operand).isAssignable = operand.isAssignable ∨
      ∀ t ∈ after.head?, ∀ op, link? ctx.inStream t = some (.assign op) →
        PlaceLost opened (.assignedOperation t) := by
    cases ha : operand.isAssignable with
    | false => exact .inl rfl
    | true =>
      refine .inr fun t ht op hl => .assignment t (.inr fun hk => ?_)
      have hnone := hplace ha t ht hk
      rw [assignOp_of_link hl] at hnone
      cases hnone
  rw [primary_qualified ho]
  show Ends _ _ (glimpsed (climb ctx floor (.name "std") (c.colons :: c.plain)))
  rw [glimpsed_climb_cons, hlink]
  dsimp only
  rw [if_neg (Int.not_lt.2 hfloor), hjoin]
  exact (climb_mirrors after (.std hname (.refl operand)) hp).weaken (Near.weaken fun _ => hs)
    e rest h

end

/-! ## Before the call -/

section

variable {opened : Prop} {c : NamedCall} {α : Type} {rel : α → α → Prop}
  {fails : CompileError → Prop} {ctx : Context} {ts : List Token}

theorem startsWith_plain (kind : Token.Kind) (text : String) (hk : kind ≠ .identifier) :
    startsWith kind text c.plain = false := by
  rw [NamedCall.plain, startsWith, Token.isA, c.isName, Bool.and_eq_false_iff]
  exact .inl (beq_eq_false_iff_ne.2 hk.symm)

/-- A token that is consumed is not the call. -/
theorem consume_stays {kind : Token.Kind} {text : String} (hk : kind ≠ .identifier)
    {made : Token × List Token} (h : seen (consume kind text (ts ++ c.plain)) = .ok made) :
    c.plain.length ≤ made.2.length := by
  cases ts with
  | nil =>
    rw [List.nil_append, NamedCall.plain, consume, if_neg] at h
    · cases h
    · exact Bool.eq_false_iff.1 (startsWith_plain kind text hk)
  | cons t rest =>
    rw [List.cons_append, consume] at h
    split at h
    · cases h
      simp
    · cases h

/-- With a closing bracket after it. -/
theorem Carries.closed {β : Type} {rel' : β → β → Prop} {takes : Bool} {close : String} {f : β → α}
    {first : List Token → Except CompileError (β × List Token)}
    (hl : Local takes Nothing Structural first (ts ++ c.plain)) (h : Carries c rel' fails first ts)
    (hf : ∀ a b, rel' a b → rel (f a) (f b)) :
    Carries c rel fails (fun ts => first ts >>= fun made =>
      seen (consume .delimiter close made.2) >>= fun last => .ok (f made.1, last.2)) ts := by
  have never : ∀ (a : β) (ts : List Token) (made : α × List Token),
      (seen (consume .delimiter close (ts ++ c.plain)) >>= fun last => .ok (f a, last.2)) =
        .ok made → c.plain.length ≤ made.2.length := by
    intro a ts made hm
    obtain ⟨last, hl, hm⟩ := bind_ok hm
    cases hm
    exact consume_stays (by decide) hl
  refine .bind hl h (fun a b rest hab => ?_) (fun a made hm => never a [] made hm)
    fun a taken t rest _ _ => .never fun made hm => never a (t :: rest) made hm
  exact .after fun last _ => .ok (hf a b hab) last.2

theorem carries_enclosed {close : String} {spoilt : Prop}
    (h : Carries c (Near spoilt) fails (fun ts => seen (expression ctx.bracketed 1 ts)) ts) :
    Carries c (Near spoilt) fails (fun ts => enclosed ctx close ts) ts :=
  .closed (expression_local false ctx.bracketed 1 _) h fun _ _ hab => hab

theorem chain_plain (c : NamedCall) (ctx : Context) (node : Expr) :
    glimpsed (chain ctx node c.plain) = .ok (node, c.plain) := by
  have hx : extended ctx node c.name (c.bracket :: c.after) = none := by
    simp [extended, Token.isA, c.isName]
  rw [NamedCall.plain, glimpsed_chain_cons, hx]

theorem stored_plain (c : NamedCall) (ctx : Context) (node : Expr) :
    stored ctx node c.plain = .ok (node, c.plain) := by
  simp only [NamedCall.plain, stored, c.isName]
  rfl

theorem climb_plain (c : NamedCall) (ctx : Context) (floor : Int) (left : Expr) :
    glimpsed (climb ctx floor left c.plain) = .ok (left, c.plain) := by
  have hl : link? ctx.inStream c.name = none := by
    simp only [link?, c.isName]
  rw [NamedCall.plain, glimpsed_climb_cons, hl]

/-- A chain with a link. -/
theorem carries_chain_cons {node : Expr} {t : Token} {rest : List Token}
    {more : List Token → Except CompileError (Expr × List Token)}
    (he : ∀ rest, extended ctx node t rest = some (more rest))
    (hl : Local false Nothing Structural more (rest ++ c.plain))
    (hm : Carries c (Near False) fails more rest)
    (hc : ∀ longer taken u after, rest = taken ++ u :: after →
      Carries c (Near False) fails (fun ts => glimpsed (chain ctx longer ts)) (u :: after)) :
    Carries c (Near False) fails (fun ts => glimpsed (chain ctx node ts)) (t :: rest) := by
  have hs : ∀ rest, glimpsed (chain ctx node (t :: rest)) =
      more rest >>= fun longer => glimpsed (chain ctx longer.1 longer.2) := fun rest => by
    rw [glimpsed_chain_cons, he]
  refine .cons hs (.bind hl hm (fun a b rest hab => chain_mirrors rest hab) ?_
    fun longer taken u after h _ => hc longer taken u after h)
  intro a made h
  dsimp only at h
  rw [chain_plain] at h
  cases h
  exact Nat.le_refl _

/-- Operators after an operand, one of which comes next. -/
theorem carries_climb_cons {floor : Int} {left : Expr} {t : Token} {rest : List Token} {link : Link}
    (hk : link? ctx.inStream t = some link) (hf : ¬ (link.precedence : Int) < floor)
    (hl : Local false Nothing Structural (fun rest => joined ctx left t rest link)
      (rest ++ c.plain))
    (hm : Carries c (Near False) fails (fun rest => joined ctx left t rest link) rest)
    (hc : ∀ whole taken u after, rest = taken ++ u :: after →
      Carries c (Near False) fails (fun ts => glimpsed (climb ctx floor whole ts)) (u :: after)) :
    Carries c (Near False) fails (fun ts => glimpsed (climb ctx floor left ts)) (t :: rest) := by
  have hs : ∀ rest, glimpsed (climb ctx floor left (t :: rest)) =
      joined ctx left t rest link >>= fun whole => glimpsed (climb ctx floor whole.1 whole.2) :=
    fun rest => by rw [glimpsed_climb_cons, hk]; exact if_neg hf
  refine .cons hs (.bind hl hm (fun a b rest hab => ?_) ?_
    fun whole taken u after h _ => hc whole taken u after h)
  · have hsame : b.isAssignable = a.isAssignable := hab.place.resolve_right id
    exact (climb_mirrors rest hab.qualifies (.inl hsame)).weaken (Near.weaken (absurd hsame))
  · intro a made h
    dsimp only at h
    rw [climb_plain] at h
    cases h
    exact Nat.le_refl _

/-! ### Tokens before the call -/

theorem endsOperand_of_link {inStream : Bool} {t : Token} {link : Link}
    (h : link? inStream t = some link) : endsOperand t = false := by
  unfold link? at h
  split at h
  · rename_i hk
    have step : ∀ text, Link.ofText? text = none → t.text ≠ text := by
      rintro text hn rfl
      rw [hn] at h
      cases h
    exact endsOperand_operator hk (step "++" (by decide)) (step "--" (by decide))
  · rename_i hk
    rw [endsOperand, hk]
  · rename_i hk
    rw [endsOperand, hk]
  · cases h

theorem endsOperand_of_sign {t : Token} {op : SignOp} (hk : t.kind = .operator)
    (h : UnaryOp.ofText? t.text = some (.sign op)) : endsOperand t = false := by
  have step : ∀ (text : String) (op' : StepOp), UnaryOp.ofText? text = some (.step op') →
      t.text ≠ text := by
    rintro text op' hs rfl
    rw [hs] at h
    cases h
  exact endsOperand_operator hk (step "++" .increment (by decide))
    (step "--" .decrement (by decide))

/-- An operand that starts with an operator is no place. -/
theorem primary_operator {t : Token} {rest after : List Token} {e : Expr} (hk : t.kind = .operator)
    (h : seen (primary ctx (t :: rest)) = .ok (e, after)) : e.isAssignable = false := by
  rw [seen_primary_cons] at h
  obtain ⟨inner, -, h⟩ := bind_ok h
  unfold operand at h
  rw [hk] at h
  cases ho : UnaryOp.ofText? t.text with
  | none =>
    rw [ho] at h
    cases h
  | some op =>
    rw [ho] at h
    obtain ⟨made, -, h⟩ := bind_ok h
    split at h
    · cases h
    · cases h
      rfl

/-- Behind an operator in front of an operand another operand starts, but a step is followed by no
further operator. -/
theorem Starts.behind {t : Token} {rest : List Token} {op : UnaryOp}
    (h : Starts opened (t :: rest)) (hk : t.kind = .operator)
    (ho : UnaryOp.ofText? t.text = some op)
    (hu : ∀ step, op = .step step → ∀ u ∈ rest.head?, u.kind ≠ .operator) : Starts opened rest := by
  cases op with
  | sign op => exact h.toBefore.after (endsOperand_of_sign hk ho)
  | step op =>
    refine ⟨h.toBefore.tail, ?_⟩
    match rest, hu op rfl, h.plainly with
    | [], _, _ => rfl
    | [u], hu, _ =>
      have hu := hu u rfl
      simp [prefixed, prefixedAfter, hu]
    | _ :: _ :: _, _, hp => exact hp

/-- An operator in front of an operand does not stand right in front of the call. -/
theorem Starts.ne_nil {t : Token} {rest : List Token} {op : UnaryOp}
    (h : Starts opened (t :: rest)) (hk : t.kind = .operator)
    (ho : UnaryOp.ofText? t.text = some op) : rest ≠ [] := by
  rintro rfl
  have hp := h.plainly
  simp [prefixed, prefixedAfter, hk, ho] at hp

theorem endsOperand_opening {t : Token} {text : String} (h : t.isA .delimiter text = true)
    (ht : text = "(" ∨ text = "[" ∨ text = ",") : endsOperand t = false := by
  rw [Token.isA, Bool.and_eq_true, beq_iff_eq, beq_iff_eq] at h
  rcases ht with rfl | rfl | rfl <;> simp [endsOperand, h.1, h.2]

/-! ### Readings -/

theorem carries_created {t : Token} {rest : List Token} (ht : t.text = "new")
    (h : Before opened (t :: rest))
    (he : ∀ taken u after, rest = taken ++ u :: after → Starts opened after →
      Carries c (Near (opened ∨ after = [])) fails
        (fun ts => seen (expression ctx.bracketed 1 ts)) after) :
    Carries c (Near False) fails (fun ts => created ctx ts) rest := by
  match rest with
  | [] =>
    have hn := h.unnamed t rfl
    rw [takesName, ht] at hn
    exact absurd hn (by decide)
  | type :: rest =>
    have hl : Local true Nothing Structural (fun ts => seen (newType ts))
        (type :: rest ++ c.plain) :=
      local_newType
    have hf : Carries c Eq fails (fun ts => seen (newType ts)) (type :: rest) :=
      .never fun made hm => by
        rw [List.cons_append, newType] at hm
        split at hm
        · cases hm
          simp
        · split at hm
          · cases hm
            simp
          · cases hm
    refine .bind hl hf ?_ ?_ ?_
    · rintro a b after rfl
      exact .refl Near.refl _
    · intro a made hm
      dsimp only at hm
      rw [startsWith_plain _ _ (by decide), startsWith_plain _ _ (by decide)] at hm
      cases hm
      exact Nat.le_refl _
    · intro a taken u after hu _
      by_cases hb : u.isA .delimiter "[" = true
      · have hs : Starts opened after :=
          (hu ▸ h.tail).suffix.after (endsOperand_opening hb (.inr (.inl rfl)))
        have hsize : Carries c (Near False) fails (fun ts => enclosed ctx "]" ts >>=
            fun size => .ok (Expr.newArray a size.1, size.2)) after :=
          .map (carries_enclosed (he taken u after hu hs)) fun x y hxy =>
            ⟨.newArray a hxy.qualifies, .inl rfl⟩
        refine .cons (fun ts => ?_) hsize
        have hstart : startsWith .delimiter "[" (u :: ts) = true := hb
        dsimp only
        rw [if_pos hstart, seen_consume _ _ _ hb]
        rfl
      · refine .never fun made hm => ?_
        have hstart : ¬ startsWith .delimiter "[" (u :: after ++ c.plain) = true := hb
        dsimp only at hm
        rw [if_neg hstart] at hm
        split at hm
        · rename_i hp
          rw [List.cons_append, seen_consume _ _ _ hp] at hm
          obtain ⟨_, ho, hm⟩ := bind_ok hm
          cases ho
          obtain ⟨close, hc, hm⟩ := bind_ok hm
          cases hm
          exact consume_stays (by decide) hc
        · cases hm
          rw [List.length_append]
          exact Nat.le_add_left _ _

theorem startsWith_qualified (c : NamedCall) (kind : Token.Kind) (text : String)
    (hk : kind ≠ .identifier) : startsWith kind text c.qualified = false := by
  have hs := c.isStd
  rw [Token.isA, Bool.and_eq_true, beq_iff_eq] at hs
  rw [NamedCall.qualified, startsWith, Token.isA, hs.1, Bool.and_eq_false_iff]
  exact .inl (beq_eq_false_iff_ne.2 hk.symm)

/-- The name of a member is not that of the call. -/
theorem field_stays {t : Token} {rest : List Token} {made : Token × List Token}
    (h : seen (consumeKind .identifier (t :: rest ++ c.plain)) = .ok made) :
    c.plain.length ≤ made.2.length := by
  rw [List.cons_append, consumeKind] at h
  split at h
  · cases h
    simp
  · cases h

/-- A place is stepped with the call qualified in it too, unless it is in brackets. -/
theorem carries_stepped {rest : List Token} (t : Token) (op : StepOp)
    (hi : ∀ inner middle, seen (primary ctx (rest ++ c.plain)) = .ok (inner, middle) →
      inner.isAssignable = true →
        Carries c (Near opened) (PlaceLost opened) (fun ts => seen (primary ctx ts)) rest) :
    Carries c (Near opened) (PlaceLost opened) (fun ts => seen (primary ctx ts) >>= fun inner =>
      if inner.1.isAssignable then .ok (.unary (.step op) inner.1, inner.2)
      else .error (.notSteppable t)) rest := by
  intro value after hv hlt
  obtain ⟨⟨inner, middle⟩, hp, hv⟩ := bind_ok hv
  cases ha : inner.isAssignable with
  | false =>
    simp only [ha] at hv
    cases hv
  | true =>
    simp only [ha] at hv
    cases hv
    refine (hi inner after hp ha inner after hp hlt).bind ?_
    rintro ⟨inner', middle'⟩ ⟨hn, he⟩
    cases ha' : inner'.isAssignable with
    | false =>
      refine PlaceLost.step t (hn.place.resolve_left fun hp => ?_)
      rw [ha, ha'] at hp
      cases hp
    | true => exact ⟨⟨.step op hn.qualifies fun _ => ha', .inl rfl⟩, he⟩

/-- The call is not the member behind an operator, but may come in the chain of the member. -/
theorem carries_member {left : Expr} {t : Token} {op : MemberOp} {rest : List Token}
    (hne : rest ≠ [])
    (hc : ∀ longer taken u after, rest = taken ++ u :: after →
      Carries c (Near False) fails (fun ts => glimpsed (chain ctx longer ts)) (u :: after)) :
    Carries c (Near False) fails (fun rest => joined ctx left t rest (.member op)) rest := by
  obtain ⟨u, more, hu⟩ := List.exists_cons_of_ne_nil hne
  have hk : Carries c Eq fails (fun ts => seen (consumeKind .identifier ts)) rest :=
    .never fun made hm => field_stays (hu ▸ hm)
  have hl : Local true Nothing Structural (fun ts => seen (consumeKind .identifier ts))
    (rest ++ c.plain) := local_consumeKind
  refine .bind hl hk ?_ ?_ fun field taken v after hv _ => hc _ taken v after hv
  · rintro a b after rfl
    exact .refl Near.refl _
  · intro field made hm
    dsimp only at hm
    rw [chain_plain] at hm
    cases hm
    exact Nat.le_refl _

theorem length_of_split {ts taken rest : List Token} {t : Token} (h : ts = taken ++ t :: rest) :
    rest.length < ts.length := by
  rw [h, List.length_append, List.length_cons]
  omega

mutual

theorem primary_carries (ctx : Context) (ts : List Token) (hne : ts ≠ []) (h : Starts opened ts) :
    Carries c (Near opened) (PlaceLost opened) (fun ts => seen (primary ctx ts)) ts := by
  match ts, hne with
  | t :: rest, _ =>
    refine .cons (seen_primary_cons ctx t) (.check fun ctx => ?_)
    unfold operand
    cases hk : t.kind with
    | operator =>
      cases ho : UnaryOp.ofText? t.text with
      | none => exact .of_error rfl
      | some op =>
        have hne : rest ≠ [] := h.ne_nil hk ho
        cases op with
        | sign op =>
          exact .map (primary_carries ctx rest hne (h.behind hk ho nofun)) fun a b hab =>
            ⟨.sign op hab.qualifies, .inl rfl⟩
        | step op =>
          have hp : ∀ inner middle, seen (primary ctx (rest ++ c.plain)) = .ok (inner, middle) →
              inner.isAssignable = true →
                Carries c (Near opened) (PlaceLost opened) (fun ts => seen (primary ctx ts)) rest :=
            fun inner middle hi ha => by
              refine primary_carries ctx rest hne (h.behind hk ho fun _ _ u hu hk => ?_)
              obtain ⟨more, rfl⟩ := List.head?_eq_some_iff.1 hu
              rw [primary_operator hk hi] at ha
              cases ha
          refine .of_eq (fun ts => ?_) (carries_stepped t op hp)
          refine congrArg (seen (primary ctx ts) >>= ·) (funext fun inner => ?_)
          cases inner.1.isAssignable <;> rfl
    | number | string | char => exact .pure _
    | identifier =>
      exact (variableOperand_carries ctx t.text rest h.toBefore.tail).weaken
        (Near.weaken False.elim)
    | keyword =>
      dsimp only
      split
      · exact .pure _
      split
      · exact .pure _
      split
      · exact .pure _
      split
      · rename_i hnew
        refine (carries_created (beq_iff_eq.1 hnew) h.toBefore fun taken u after hr hs => ?_).weaken
          (Near.weaken False.elim)
        have hlen := length_of_split hr
        exact expression_carries ctx.bracketed 1 after (.inl (by decide)) hs
      · exact .of_error rfl
    | delimiter =>
      dsimp only
      split
      · rename_i hp
        have hp : t.isA .delimiter "(" = true := by rw [Token.isA, hk, hp]; rfl
        refine (carries_enclosed (expression_carries ctx.bracketed 1 rest (.inl (by decide))
          (h.toBefore.after (endsOperand_opening hp (.inl rfl))))).weaken (Near.weaken ?_)
        rintro (ho | rfl)
        · exact ho
        · exact h.open_of ⟨t, rfl, hp⟩
      split
      · rename_i hb
        have hb : t.isA .delimiter "[" = true := by rw [Token.isA, hk, hb]; rfl
        refine .map (carries_enclosed (expression_carries ctx.bracketed 1 rest (.inl (by decide))
          (h.toBefore.after (endsOperand_opening hb (.inr (.inl rfl)))))) fun a b hab =>
            ⟨.list hab.qualifies, .inl rfl⟩
      · exact .of_error rfl
    | header | stream | scope => exact .of_error rfl
termination_by (ts.length, 0)
decreasing_by all_goals decreasing_with omega

theorem variableOperand_carries (ctx : Context) (id : String) (ts : List Token)
    (h : Before opened ts) :
    Carries c (Near False) (PlaceLost opened) (fun ts => glimpsed (variableOperand ctx id ts))
      ts := by
  refine .of_eq (glimpsed_variableOperand ctx id) ?_
  refine .bind (chain_local ctx (.name id) _) (chain_carries ctx (.name id) ts h)
    (fun a b rest hab => stored_mirrors rest hab) ?_ ?_
  · intro node made hm
    dsimp only at hm
    rw [stored_plain] at hm
    cases hm
    exact Nat.le_refl _
  · intro node taken t rest ht _
    have hlen := length_of_split ht
    rcases stored_cases ctx t with ⟨op, hs⟩ | ⟨he, op, hs⟩ | ⟨-, hs⟩
    · refine .cons (hs node) ?_
      split
      · exact .pure _
      · exact .of_error rfl
    · refine .cons (hs node) ?_
      split
      · have hb : Before opened (t :: rest) := (ht ▸ h).suffix
        exact .map (expression_carries ctx 0 rest (.inl (by decide)) (hb.after he)) fun a b hab =>
          ⟨.assign op (.refl node) (fun ha => ha) hab.qualifies, .inl rfl⟩
      · exact .of_error rfl
    · exact .never fun made hm => by
        dsimp only at hm
        rw [List.cons_append, hs] at hm
        cases hm
        rw [← List.cons_append, List.length_append]
        exact Nat.le_add_left _ _
termination_by (ts.length, 3)
decreasing_by all_goals decreasing_with omega

theorem chain_carries (ctx : Context) (node : Expr) (ts : List Token) (h : Before opened ts) :
    Carries c (Near False) (PlaceLost opened) (fun ts => glimpsed (chain ctx node ts)) ts := by
  match ts with
  | [] =>
    exact .never fun made hm => by
      rw [List.nil_append, chain_plain] at hm
      cases hm
      exact Nat.le_refl _
  | t :: rest =>
    have again : ∀ longer taken u after, rest = taken ++ u :: after →
        Carries c (Near False) (PlaceLost opened) (fun ts => glimpsed (chain ctx longer ts))
          (u :: after) := by
      intro longer taken u after hu
      have hlen := length_of_split hu
      exact chain_carries ctx longer (u :: after) (hu ▸ h.tail).suffix
    by_cases hp : t.isA .delimiter "(" = true
    · refine carries_chain_cons (fun rest => by rw [extended, if_pos hp]) ?_ ?_ again
      · refine .before (arguments_local ctx.bracketed _) fun args after _ => ?_
        exact local_consume.bind (fun _ _ _ => .pure _) fun _ h => h
      · have hs : Starts opened rest := h.after (endsOperand_opening hp (.inl rfl))
        exact .closed (arguments_local ctx.bracketed _) (arguments_carries ctx.bracketed rest hs)
          fun a b hab => ⟨.call (.refl node) hab, .inl rfl⟩
    by_cases hb : t.isA .delimiter "[" = true
    · refine carries_chain_cons (fun rest => by rw [extended, if_neg hp, if_pos hb]) ?_ ?_ again
      · refine (local_enclosed ?_).bind (fun _ _ _ => .pure _) fun _ h => h
        exact expression_local false ctx.bracketed 1 _
      · refine .map (carries_enclosed (expression_carries ctx.bracketed 1 rest (.inl (by decide))
          (h.after (endsOperand_opening hb (.inr (.inl rfl)))))) fun a b hab => ?_
        exact ⟨.index (.refl node) hab.qualifies, .inl rfl⟩
    have stop : (∀ rest, extended ctx node t rest = none) →
        Carries c (Near False) (PlaceLost opened) (fun ts => glimpsed (chain ctx node ts))
          (t :: rest) :=
      fun he => .never fun made hm => by
        rw [List.cons_append, glimpsed_chain_cons, he] at hm
        cases hm
        rw [← List.cons_append, List.length_append]
        exact Nat.le_add_left _ _
    cases hk : t.kind with
    | operator =>
      cases ho : MemberOp.ofText? t.text with
      | none => exact stop fun rest => by rw [extended, if_neg hp, if_neg hb, hk, ho]
      | some op =>
        have he : ∀ rest, extended ctx node t rest = some (seen (consumeKind .identifier rest) >>=
            fun field => .ok (.member op node field.1.text, field.2)) := by
          intro rest
          rw [extended, if_neg hp, if_neg hb, hk, ho]
          rfl
        refine carries_chain_cons he ?_ (.never fun made hm => ?_) again
        · exact local_consumeKind.bind (fun _ _ _ => .pure _) fun _ h => h
        · obtain ⟨field, hf, hm⟩ := bind_ok hm
          cases hm
          cases hr : rest with
          | nil =>
            -- the call would be a member then, and no call of a plain name
            have hn := h.unnamed t (by rw [hr]; rfl)
            rw [takesName_of_memberOp ho] at hn
            cases hn
          | cons u more =>
            rw [hr] at hf
            exact field_stays hf
    | _ => exact stop fun rest => by rw [extended, if_neg hp, if_neg hb, hk]
termination_by (ts.length, 0)
decreasing_by all_goals decreasing_with omega

theorem arguments_carries (ctx : Context) (ts : List Token) (h : Starts opened ts) :
    Carries c QualifiesAll (PlaceLost opened) (fun ts => glimpsed (arguments ctx ts)) ts := by
  refine .of_eq (glimpsed_arguments ctx) ?_
  intro args rest hv hlt
  have hs : startsWith .delimiter ")" (ts ++ c.qualified) =
      startsWith .delimiter ")" (ts ++ c.plain) := by
    cases ts with
    | cons t rest => rfl
    | nil =>
      exact (startsWith_qualified c _ _ (by decide)).trans
        (startsWith_plain .delimiter ")" (by decide)).symm
  dsimp only at hv ⊢
  rw [hs]
  split at hv
  · cases hv
    rw [List.length_append] at hlt
    omega
  · rename_i hn
    rw [if_neg hn]
    exact expressions_carries ctx ts h args rest hv hlt
termination_by (ts.length, 3)
decreasing_by all_goals decreasing_with omega

theorem expressions_carries (ctx : Context) (ts : List Token) (h : Starts opened ts) :
    Carries c QualifiesAll (PlaceLost opened) (fun ts => seen (expressions ctx ts)) ts := by
  refine .of_eq (seen_expressions ctx) ?_
  refine .bind (expression_local true ctx 1 _)
    (expression_carries ctx 1 ts (.inl (by decide)) h) ?_ ?_ ?_
  · intro a b rest hab
    dsimp only
    split
    · exact .after fun comma _ => .after fun others _ => .ok (.cons hab.qualifies (.refl _)) _
    · exact .ok (.cons hab.qualifies .nil) _
  · intro a made hm
    dsimp only at hm
    rw [startsWith_plain _ _ (by decide)] at hm
    cases hm
    exact Nat.le_refl _
  · intro a taken t rest ht _
    have hlen := length_of_split ht
    by_cases hc : t.isA .delimiter "," = true
    · have hb : Before opened (t :: rest) := (ht ▸ h.toBefore).suffix
      have hs : Starts opened rest := hb.after (endsOperand_opening hc (.inr (.inr rfl)))
      have hmore : Carries c QualifiesAll (PlaceLost opened)
          (fun ts => seen (expressions ctx ts) >>= fun others => .ok (a :: others.1, others.2))
          rest :=
        .map (expressions_carries ctx rest hs) fun x y hxy => .cons (.refl a) hxy
      refine .cons (fun ts => ?_) hmore
      have hstart : startsWith .delimiter "," (t :: ts) = true := hc
      dsimp only
      rw [if_pos hstart, seen_consume _ _ _ hc]
      rfl
    · refine .never fun made hm => ?_
      have hstart : ¬ startsWith .delimiter "," (t :: rest ++ c.plain) = true := hc
      dsimp only at hm
      rw [if_neg hstart] at hm
      cases hm
      rw [List.length_append]
      exact Nat.le_add_left _ _
termination_by (ts.length, 2)
decreasing_by all_goals decreasing_with omega

theorem expression_carries (ctx : Context) (floor : Int) (ts : List Token)
    (hfloor : floor ≤ Link.scope.precedence ∨ ts ≠ []) (h : Starts opened ts) :
    Carries c (Near (opened ∨ ts = [])) (PlaceLost opened)
      (fun ts => seen (expression ctx floor ts)) ts := by
  by_cases hne : ts = []
  · subst hne
    intro e rest hv _
    have hf := hfloor.resolve_right fun hn => hn rfl
    exact expression_here hf (.inr rfl) hv
  · refine .of_eq (seen_expression ctx floor) ?_
    refine .bind (primary_local true ctx _) (primary_carries ctx ts hne h) ?_ ?_ ?_
    · intro a b rest hab
      refine (climb_mirrors rest hab.qualifies (hab.place.imp id fun ho t _ op _ => ?_)).weaken
        (Near.weaken fun hn => ?_)
      · exact .assignment t (.inl ho)
      · exact .inl (hab.place.resolve_left hn)
    · intro left made hm
      dsimp only at hm
      rw [climb_plain] at hm
      cases hm
      exact Nat.le_refl _
    · intro left taken t rest ht htaken
      have hlen : (t :: rest).length < ts.length := by
        have hpos := List.length_pos_iff.2 (htaken rfl)
        rw [ht, List.length_append]
        omega
      exact (climb_carries ctx floor left (t :: rest) (ht ▸ h.toBefore).suffix).weaken
        (Near.weaken False.elim)
termination_by (ts.length, 1)
decreasing_by all_goals decreasing_with omega

theorem climb_carries (ctx : Context) (floor : Int) (left : Expr) (ts : List Token)
    (h : Before opened ts) :
    Carries c (Near False) (PlaceLost opened) (fun ts => glimpsed (climb ctx floor left ts))
      ts := by
  match ts with
  | [] =>
    exact .never fun made hm => by
      rw [List.nil_append, climb_plain] at hm
      cases hm
      exact Nat.le_refl _
  | t :: rest =>
    have stop : (∀ rest, glimpsed (climb ctx floor left (t :: rest)) = .ok (left, t :: rest)) →
        Carries c (Near False) (PlaceLost opened) (fun ts => glimpsed (climb ctx floor left ts))
          (t :: rest) :=
      fun he => .never fun made hm => by
        rw [List.cons_append, he] at hm
        cases hm
        rw [← List.cons_append, List.length_append]
        exact Nat.le_add_left _ _
    cases hl : link? ctx.inStream t with
    | none => exact stop fun rest => by rw [glimpsed_climb_cons, hl]
    | some link =>
      by_cases hf : (link.precedence : Int) < floor
      · exact stop fun rest => by rw [glimpsed_climb_cons, hl]; exact if_pos hf
      refine carries_climb_cons hl hf ?_ ?_ fun whole taken u after hu => ?_
      · exact local_joined (fun floor => expression_local false ctx floor _) fun longer after _ =>
          chain_local ctx longer after
      · have hs : Starts opened rest := h.after (endsOperand_of_link hl)
        -- after these operators the call would not be one of a plain name
        have named : (∃ op, link = .member op) ∨ link = .scope → rest ≠ [] := by
          rintro hn rfl
          have ht := h.unnamed t rfl
          rw [takesName_of_link hl hn] at ht
          cases ht
        cases link with
        | member op =>
          refine carries_member (named (.inl ⟨op, rfl⟩)) fun longer taken v after hv => ?_
          have hlen := length_of_split hv
          exact chain_carries ctx longer (v :: after) (hv ▸ h.tail).suffix
        | assign op =>
          cases ha : left.isAssignable with
          | false => exact .of_error (if_neg (by rw [ha]; decide))
          | true =>
            refine .of_eq (fun rest => if_pos ha) ?_
            exact .map (expression_carries ctx 0 rest (.inl (by decide)) hs) fun a b hab =>
              ⟨.assign op (.refl left) id hab.qualifies, .inl rfl⟩
        | scope =>
          exact .map (expression_carries ctx _ rest (.inr (named (.inr rfl))) hs) fun a b hab =>
            ⟨.scope (.refl left) hab.qualifies, .inl rfl⟩
        | binary op =>
          have hle : ((op.precedence + 1 : Nat) : Int) ≤ Link.scope.precedence := by
            cases op <;> decide
          exact .map (expression_carries ctx _ rest (.inl hle) hs) fun a b hab =>
            ⟨.binary op (.refl left) hab.qualifies, .inl rfl⟩
      · have hlen := length_of_split hu
        exact climb_carries ctx floor whole (u :: after) (hu ▸ h.tail).suffix
termination_by (ts.length, 0)
decreasing_by all_goals decreasing_with omega

end

end

/-! ## The whole expression -/

open Generate (expr maxExpressionDepth) in
/-- `std::` in front of a call changes nothing that is generated, whatever stands before and after
the call, unless an operator in front of an operand stands right before it. Where the call is in
brackets, what is in them may have been stepped or assigned as a place, and this is refused then. -/
theorem std_transparent {ctx : Context} {floor : Int} (hfloor : floor ≤ Link.scope.precedence)
    {before : List Token} (c : NamedCall) {e : Expr}
    (h : seen (expression ctx floor (before ++ c.plain)) = .ok (e, []))
    (hname : ∀ t ∈ before.getLast?, takesName t = false) (hsign : prefixed before = false) :
    Ends (fun made => made.2 = [] ∧ ∀ renames depth depth' x, expr renames depth e = .ok x →
        Ends (· = x) (· = .tooDeep maxExpressionDepth .expression) (expr renames depth' made.1))
      (PlaceLost (Opened before)) (seen (expression ctx floor (before ++ c.qualified))) := by
  have hcall : ([] : List Token).length < c.plain.length := Nat.zero_lt_succ _
  have hends := expression_carries ctx floor before (.inl hfloor) (.of hname hsign) e [] h hcall
  refine hends.imp fun made hmade => ⟨hmade.2, fun renames depth depth' x hx => ?_⟩
  exact Generate.expr_qualified depth depth' hmade.1.qualifies x hx

/-- `f(1)[0] += 2`, and `std::` for it. -/
def raisedCall : NamedCall where
  name := ⟨.identifier, "f", 4⟩
  bracket := ⟨.delimiter, "(", 5⟩
  after := [⟨.number, "1", 6⟩, ⟨.delimiter, ")", 7⟩, ⟨.delimiter, "[", 8⟩, ⟨.number, "0", 9⟩,
    ⟨.delimiter, "]", 10⟩, ⟨.operator, "+=", 12⟩, ⟨.number, "2", 15⟩]
  std := ⟨.identifier, "std", 4⟩
  colons := ⟨.scope, "::", 7⟩
  isName := rfl
  isBracket := rfl
  isStd := rfl
  isColons := rfl

/-- What `f(1)[0] += 2` stands for. -/
def raised : Expr :=
  .assign (.update .add) (.index (.call (.name "f") [.number "1"]) (.number "0")) (.number "2")

/-- `a -`, in which the sign stands between two operands. -/
def minuend : List Token := [⟨.identifier, "a", 0⟩, ⟨.operator, "-", 2⟩]

open Generate (expr maxExpressionDepth) in
theorem std_transparent_subtrahend :
    (1 : Int) ≤ Link.scope.precedence ∧
    seen (expression (.start 3) 1 (minuend ++ raisedCall.plain)) =
      .ok (.binary .sub (.name "a") raised, []) ∧
    (∀ t ∈ minuend.getLast?, takesName t = false) ∧ prefixed minuend = false ∧
    Ends (fun made => made.2 = [] ∧ ∀ renames depth depth' x,
        expr renames depth (.binary .sub (.name "a") raised) = .ok x →
          Ends (· = x) (· = .tooDeep maxExpressionDepth .expression) (expr renames depth' made.1))
      (PlaceLost (Opened minuend))
      (seen (expression (.start 3) 1 (minuend ++ raisedCall.qualified))) := by
  have hfloor : (1 : Int) ≤ Link.scope.precedence := by decide
  have hparse : seen (expression (.start 3) 1 (minuend ++ raisedCall.plain)) =
      .ok (.binary .sub (.name "a") raised, []) := by
    cbv
  have hname : ∀ t ∈ minuend.getLast?, takesName t = false := by
    rintro t ⟨⟩
    rfl
  have hsign : prefixed minuend = false := by decide
  exact ⟨hfloor, hparse, hname, hsign, std_transparent hfloor raisedCall hparse hname hsign⟩

-- A sign in front of the call takes `std` for its operand.
example : seen (expression (.start 3) 1 (⟨.operator, "-", 0⟩ :: raisedCall.qualified)) =
    .ok (.scope (.unary (.sign .minus) (.name "std")) raised, []) := by
  cbv

end ConsoleCpp.Parser

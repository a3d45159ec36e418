/-
Texts that no operator around them can take apart. Outside brackets and literals, a firm text has
only word characters and points. So whatever is written next to it, its operators keep their
operands: each of them stands in brackets that the text closes again. How many brackets are open at
once is counted along, so such a text closes what it opens also when it is read as a line is.
-/
import ConsoleCpp.Proofs.Target.Brackets
import ConsoleCpp.Target.Expr

namespace ConsoleCpp.Target

open Text (isWord)
open Token (NumberText)
open scoped Token
open BracketCount (outside)

/-! ## Balanced and firm texts -/

/-- The characters that brackets and literals are told by. -/
def fences : List Char := ['(', ')', '[', ']', '{', '}', '"', '\'']

/-- The text closes the brackets that it opens, each by one of its own kind, with at most so many
open at once. Outside literals it has no braces. -/
inductive Balanced : (most : Nat) → List Char → Prop
  | nil {most : Nat} : Balanced most []
  | ordinary {most : Nat} {c : Char} : c ∉ fences → Balanced most [c]
  | delimited {most : Nat} {cs : List Char} : Delimited cs → Balanced most cs
  | round {most : Nat} {inner : List Char} : Balanced most inner →
    Balanced (most + 1) ('(' :: (inner ++ [')']))
  | square {most : Nat} {inner : List Char} : Balanced most inner →
    Balanced (most + 1) ('[' :: (inner ++ [']']))
  | append {most : Nat} {before after : List Char} : Balanced most before → Balanced most after →
    Balanced most (before ++ after)

/-- The text consists of word characters, points, literals of the given spellings, and balanced texts
in brackets. -/
inductive Firm (literals : List Char → Prop) : (most : Nat) → List Char → Prop
  | nil {most : Nat} : Firm literals most []
  | ordinary {most : Nat} {c : Char} : isWord c = true ∨ c = '.' → Firm literals most [c]
  | literal {most : Nat} {cs : List Char} : literals cs → Firm literals most cs
  | round {most : Nat} {inner : List Char} : Balanced most inner →
    Firm literals (most + 1) ('(' :: (inner ++ [')']))
  | square {most : Nat} {inner : List Char} : Balanced most inner →
    Firm literals (most + 1) ('[' :: (inner ++ [']']))
  | append {most : Nat} {before after : List Char} : Firm literals most before →
    Firm literals most after → Firm literals most (before ++ after)

/-- The whole text stands in round brackets of its own. -/
def Grouped (most : Nat) (cs : List Char) : Prop :=
  ∃ inner, cs = '(' :: (inner ++ [')']) ∧ ∃ fewer < most, Balanced fewer inner

section

variable {literals : List Char → Prop} {most more : Nat} {cs : List Char} {text other : String}

/-- More brackets may be open than are. -/
theorem Balanced.mono (h : Balanced most cs) : ∀ {more : Nat}, most ≤ more → Balanced more cs := by
  induction h with
  | nil => exact fun _ => .nil
  | ordinary hc => exact fun _ => .ordinary hc
  | delimited h => exact fun _ => .delimited h
  | append _ _ ih₁ ih₂ => exact fun hm => (ih₁ hm).append (ih₂ hm)
  | round _ ih =>
    intro more hm
    obtain ⟨more, rfl⟩ := Nat.exists_eq_add_of_le' (Nat.le_of_add_left_le hm)
    exact .round (ih (Nat.le_of_succ_le_succ hm))
  | square _ ih =>
    intro more hm
    obtain ⟨more, rfl⟩ := Nat.exists_eq_add_of_le' (Nat.le_of_add_left_le hm)
    exact .square (ih (Nat.le_of_succ_le_succ hm))

/-- A text without brackets, quotes and braces has nothing to close. -/
theorem Balanced.of_ordinary (h : ∀ c ∈ cs, c ∉ fences) : Balanced most cs := by
  induction cs with
  | nil => exact .nil
  | cons c cs ih =>
    obtain ⟨hc, hcs⟩ := List.forall_mem_cons.1 h
    exact (Balanced.ordinary hc).append (ih hcs)

theorem Firm.of_ordinary (h : ∀ c ∈ cs, isWord c = true ∨ c = '.') : Firm literals most cs := by
  induction cs with
  | nil => exact .nil
  | cons c cs ih =>
    obtain ⟨hc, hcs⟩ := List.forall_mem_cons.1 h
    exact (Firm.ordinary hc).append (ih hcs)

theorem Firm.of_words (h : ∀ c ∈ cs, isWord c = true) : Firm literals most cs :=
  .of_ordinary fun c hc => .inl (h c hc)

/-- Word characters and points are no brackets and no quotes. -/
theorem ordinary_of_firm {c : Char} (h : isWord c = true ∨ c = '.') : c ∉ fences := by
  have hall : ∀ c ∈ fences, ¬ (isWord c = true ∨ c = '.') := by decide
  exact fun hc => hall c hc h

theorem Balanced.of_words (h : ∀ c ∈ cs, isWord c = true) : Balanced most cs :=
  .of_ordinary fun c hc => ordinary_of_firm (.inl (h c hc))

/-- A firm text is balanced where its literals are. -/
theorem Firm.balanced (hl : ∀ cs, literals cs → Balanced 0 cs) (h : Firm literals most cs) :
    Balanced most cs := by
  induction h with
  | nil => exact .nil
  | ordinary hc => exact .ordinary (ordinary_of_firm hc)
  | literal h => exact (hl _ h).mono (Nat.zero_le _)
  | round hi => exact .round hi
  | square hi => exact .square hi
  | append _ _ ih₁ ih₂ => exact ih₁.append ih₂

theorem Firm.mono (h : Firm literals most cs) : ∀ {more : Nat}, most ≤ more →
    Firm literals more cs := by
  induction h with
  | nil => exact fun _ => .nil
  | ordinary hc => exact fun _ => .ordinary hc
  | literal h => exact fun _ => .literal h
  | append _ _ ih₁ ih₂ => exact fun hm => (ih₁ hm).append (ih₂ hm)
  | round hi =>
    intro more hm
    obtain ⟨more, rfl⟩ := Nat.exists_eq_add_of_le' (Nat.le_of_add_left_le hm)
    exact .round (hi.mono (Nat.le_of_succ_le_succ hm))
  | square hi =>
    intro more hm
    obtain ⟨more, rfl⟩ := Nat.exists_eq_add_of_le' (Nat.le_of_add_left_le hm)
    exact .square (hi.mono (Nat.le_of_succ_le_succ hm))

/-- A text in brackets of its own has nothing outside them. -/
theorem Grouped.firm (h : Grouped most cs) : Firm literals most cs := by
  obtain ⟨inner, rfl, fewer, hf, hi⟩ := h
  exact (Firm.round hi).mono hf

theorem Grouped.balanced (h : Grouped most cs) : Balanced most cs := by
  obtain ⟨inner, rfl, fewer, hf, hi⟩ := h
  exact (Balanced.round hi).mono hf

theorem Grouped.mono (h : Grouped most cs) (hm : most ≤ more) : Grouped more cs := by
  obtain ⟨inner, hcs, fewer, hf, hi⟩ := h
  exact ⟨inner, hcs, fewer, Nat.lt_of_lt_of_le hf hm, hi⟩

/-- A balanced text is read as one that closes what it opens. -/
theorem Balanced.read (h : Balanced most cs) : ∀ {opened deepest : Nat}, opened + most ≤ deepest →
    (outside opened deepest).read cs = outside opened deepest := by
  -- a bracket, whichever kind it is, counts while what stands in it is read
  have hbracket : ∀ {most opened deepest : Nat} {inner : List Char} {left right : Char},
      (left = '(' ∧ right = ')') ∨ (left = '[' ∧ right = ']') → opened + (most + 1) ≤ deepest →
      (outside (opened + 1) deepest).read inner = outside (opened + 1) deepest →
      (outside opened deepest).read (left :: (inner ++ [right])) = outside opened deepest := by
    intro most opened deepest inner left right hkind hd hi
    have hmax : max deepest (opened + 1) = deepest := by omega
    have hopen : (outside opened deepest).next left = outside (opened + 1) deepest := by
      rcases hkind with ⟨rfl, -⟩ | ⟨rfl, -⟩ <;> simp [BracketCount.next, outside, hmax]
    have hclose : (outside (opened + 1) deepest).next right = outside opened deepest := by
      rcases hkind with ⟨-, rfl⟩ | ⟨-, rfl⟩ <;> rfl
    rw [BracketCount.read_cons, hopen, BracketCount.read_append, hi, BracketCount.read_cons, hclose,
      BracketCount.read_nil]
  induction h with
  | nil => exact fun _ => rfl
  | ordinary hc =>
    intro opened deepest _
    simp only [fences, List.mem_cons, List.not_mem_nil, or_false, not_or] at hc
    simp [BracketCount.next, outside, hc]
  | delimited h => exact fun _ => h.read _ _
  | round _ ih => exact fun hd => hbracket (.inl ⟨rfl, rfl⟩) hd (ih (by omega))
  | square _ ih => exact fun hd => hbracket (.inr ⟨rfl, rfl⟩) hd (ih (by omega))
  | append _ _ ih₁ ih₂ => exact fun hd => by rw [BracketCount.read_append, ih₁ hd, ih₂ hd]

/-- So such a text leaves the count of a line where it was. -/
theorem Balanced.closes (h : Balanced most text.toList) : Closes most text :=
  fun _ _ hd => h.read hd

/-! ## Texts put together -/

theorem Balanced.join (h₁ : Balanced most text.toList) (h₂ : Balanced most other.toList) :
    Balanced most (text ++ other).toList := by
  rw [String.toList_append]
  exact h₁.append h₂

theorem Firm.join (h₁ : Firm literals most text.toList) (h₂ : Firm literals most other.toList) :
    Firm literals most (text ++ other).toList := by
  rw [String.toList_append]
  exact h₁.append h₂

theorem Grouped.of_inner (h : Balanced most text.toList) :
    Grouped (most + 1) ("(" ++ text ++ ")").toList :=
  ⟨text.toList, by simp, most, Nat.lt_succ_self most, h⟩

theorem Balanced.squared (h : Balanced most text.toList) :
    Balanced (most + 1) ("[" ++ text ++ "]").toList := by
  simpa using Balanced.square h

theorem Firm.squared (h : Balanced most text.toList) :
    Firm literals (most + 1) ("[" ++ text ++ "]").toList := by
  simpa using Firm.square h

/-- Commas are no brackets, so a list of balanced texts is balanced. -/
theorem balanced_commas : ∀ {texts : List String}, (∀ t ∈ texts, Balanced most t.toList) →
    Balanced most (String.intercalate ", " texts).toList
  | [], _ => .nil
  | [t], h => by
    rw [String.intercalate_singleton]
    exact h t (.head _)
  | t :: u :: rest, h => by
    obtain ⟨ht, hrest⟩ := List.forall_mem_cons.1 h
    rw [String.intercalate_cons_cons]
    exact (ht.join (.of_ordinary (by decide))).join (balanced_commas hrest)

/-- Arguments in the brackets of a call. -/
theorem firm_arguments {texts : List String} (h : ∀ t ∈ texts, Balanced most t.toList) :
    Firm literals (most + 1) ("(" ++ String.intercalate ", " texts ++ ")").toList :=
  (Grouped.of_inner (balanced_commas h)).firm

theorem balanced_joined (h₁ : Balanced most text.toList) (h₂ : Balanced most other.toList) :
    Balanced most (text ++ "." ++ other).toList :=
  (h₁.join (.of_ordinary (by decide))).join h₂

theorem firm_joined (h₁ : Firm literals most text.toList) (h₂ : Firm literals most other.toList) :
    Firm literals most (text ++ "." ++ other).toList :=
  (h₁.join (.of_ordinary (by decide))).join h₂

end

/-! ## Words and literals -/

section

variable {name : String} {most : Nat}

/-- A changed name is the name with an underscore, which is a word character too. -/
theorem words_safeName (h : ∀ c ∈ name.toList, isWord c = true) :
    ∀ c ∈ (safeName name).toList, isWord c = true := by
  unfold safeName
  split
  · rw [String.toList_append]
    exact List.forall_mem_append.2 ⟨h, by decide⟩
  · exact h

/-- The name of a loop variable is made of two underscores, the name and a number. -/
theorem words_loopName (h : ∀ c ∈ name.toList, isWord c = true) (count : Nat) :
    ∀ c ∈ (loopName name count).toList, isWord c = true := by
  have hdigits : ∀ c ∈ (toString count).toList, isWord c = true := by
    intro c hc
    rw [Nat.toString_eq_repr, Nat.repr_eq_ofList_toDigits, String.toList_ofList] at hc
    have hdigit := Nat.isDigit_of_mem_toDigits (by decide) (by decide) hc
    have hascii : c.toNat < 128 := by
      have hr := Number.toNat_of_isDigit hdigit
      omega
    exact Token.ascii_all (p := fun c => c.isDigit = true → isWord c = true) (by decide) hascii hdigit
  simp only [loopName, String.toList_append, List.forall_mem_append]
  exact ⟨⟨⟨by decide, h⟩, by decide⟩, hdigits⟩

/-- A quoted name is one literal, whatever is in it. -/
theorem balanced_quoted (name : String) : Balanced most (Text.quoted name).toList :=
  .delimited (delimited_quoted name)

/-- A number has digits, letters, signs and points. -/
theorem balanced_numberLiteral {text spelling : String} (ht : NumberText text.toList)
    (h : numberLiteral text = .ok spelling) : Balanced most spelling.toList := by
  have hall : ∀ c ∈ fences, isNumberChar c = false := by decide
  refine .of_ordinary fun c hc hm => ?_
  have hn := isNumberChar_numberLiteral ht h c hc
  rw [hall c hm] at hn
  cases hn

end

/-! ## Expressions -/

namespace Expr

theorem spellAll_eq_map (es : List Expr) : spellAll es = es.map spell := by
  induction es with
  | nil => rfl
  | cons e rest ih => rw [spellAll, ih, List.map_cons]

variable {literals : List Char → Prop} {most : Nat} {left right value owner key callee : Expr}

/-- A call of a helper is its name behind that of the module, and brackets around the arguments. -/
theorem firm_helper {helper : String} {args : List String} (hh : ∀ c ∈ helper.toList, isWord c = true)
    (h : ∀ a ∈ args, Balanced most a.toList) :
    Firm literals (most + 1) (helperSpelling helper args).toList := by
  have hprefix : ∀ c ∈ "__rt.".toList, isWord c = true ∨ c = '.' := by decide
  have hargs : Firm literals (most + 1) ("(" ++ String.intercalate ", " args ++ ")").toList :=
    firm_arguments h
  have hall := ((Firm.of_ordinary hprefix).join (.of_words hh)).join hargs
  simpa only [helperSpelling, String.append_assoc] using hall

/-- Of a call, only the arguments stand in brackets. -/
theorem firm_call {args : List Expr} (hc : Firm literals (most + 1) callee.spell.toList)
    (ha : ∀ a ∈ args, Balanced most a.spell.toList) :
    Firm literals (most + 1) (call callee args).spell.toList := by
  have hall := hc.join (firm_arguments (List.forall_mem_map.2 ha))
  rw [spell, spellAll_eq_map]
  simpa only [String.append_assoc] using hall

/-- Behind the owner, the key stands in brackets. -/
theorem firm_item (ho : Firm literals (most + 1) owner.spell.toList)
    (hk : Balanced most key.spell.toList) :
    Firm literals (most + 1) (item owner key).spell.toList := by
  have hall := ho.join (Firm.squared hk)
  simpa only [spell, String.append_assoc] using hall

theorem firm_list (h : Balanced most value.spell.toList) :
    Firm literals (most + 1) (list value).spell.toList := by
  rw [spell]
  exact Firm.squared h

/-- A sign and its operand stand in brackets together. -/
theorem grouped_sign (op : SignOp) (h : Balanced most value.spell.toList) :
    Grouped (most + 1) (sign op value).spell.toList := by
  have hsign : Balanced most (signSpelling op).toList := .of_ordinary (by cases op <;> decide)
  have hall := Grouped.of_inner (hsign.join h)
  simpa only [spell, String.append_assoc] using hall

/-- So do the operands of an operator with the operator between them. -/
theorem grouped_binary {op : BinaryOp} (hop : op ≠ .div ∧ op ≠ .mod)
    (h₁ : Balanced most left.spell.toList) (h₂ : Balanced most right.spell.toList) :
    Grouped (most + 1) (binary op left right).spell.toList := by
  have hblank : Balanced most " ".toList := .of_ordinary (by decide)
  have hoperator : Balanced most (operatorSpelling op).toList :=
    .of_ordinary (by cases op <;> decide)
  have hall := Grouped.of_inner ((((h₁.join hblank).join hoperator).join hblank).join h₂)
  cases op with
  | div => exact absurd rfl hop.1
  | mod => exact absurd rfl hop.2
  | _ => simpa only [spell, String.append_assoc] using hall

/-- Division and remainder are calls of helpers. -/
theorem firm_binary (op : BinaryOp) (h₁ : Balanced most left.spell.toList)
    (h₂ : Balanced most right.spell.toList) :
    Firm literals (most + 1) (binary op left right).spell.toList := by
  have hargs : ∀ a ∈ [left.spell, right.spell], Balanced most a.toList := by simp [h₁, h₂]
  cases op with
  | div | mod =>
    rw [spell]
    exact firm_helper (by decide) hargs
  | _ => exact (grouped_binary (by decide) h₁ h₂).firm

theorem balanced_binary (op : BinaryOp) (h₁ : Balanced most left.spell.toList)
    (h₂ : Balanced most right.spell.toList) :
    Balanced (most + 1) (binary op left right).spell.toList :=
  (firm_binary op h₁ h₂).balanced (fun _ h => h)

/-- A binding stands in brackets of its own, as everywhere in an expression. -/
theorem grouped_bind {id : String} (hid : ∀ c ∈ id.toList, isWord c = true)
    (h : Balanced most value.spell.toList) : Grouped (most + 1) (bind id value).spell.toList := by
  have hstore : Balanced most " := ".toList := .of_ordinary (by decide)
  have hall := Grouped.of_inner (((Balanced.of_words hid).join hstore).join h)
  simpa only [spell, String.append_assoc] using hall

/-- A step that keeps the old value takes the step back around the store. -/
theorem grouped_step (op : StepOp) (keepsOld : Bool) {id : String}
    (hid : ∀ c ∈ id.toList, isWord c = true) : Grouped 2 (step op keepsOld id).spell.toList := by
  have hop : Balanced 0 op.arith.text.toList := .of_ordinary (by cases op <;> decide)
  have hname : Balanced 0 id.toList := .of_words hid
  have hstored : Grouped 1
      ("(" ++ (id ++ " := " ++ id ++ " " ++ op.arith.text ++ " 1") ++ ")").toList := by
    refine Grouped.of_inner (Balanced.join (Balanced.join ?_ hop) (.of_ordinary (by decide)))
    refine Balanced.join (Balanced.join ?_ hname) (.of_ordinary (by decide))
    exact hname.join (.of_ordinary (by decide))
  have hopening : "((" = "(" ++ "(" := rfl
  have hbetween : " 1) " = " 1" ++ (")" ++ " ") := rfl
  have hclosing : " 1)" = " 1" ++ ")" := rfl
  cases keepsOld with
  | false =>
    rw [spell, hclosing]
    simpa only [String.append_assoc] using hstored.mono (by decide)
  | true =>
    -- the step is taken back around the brackets of the store
    have htaken {undo : String} (hu : Balanced 1 undo.toList) := Grouped.of_inner
      (hstored.balanced.join (((Balanced.of_ordinary (by decide : ∀ c ∈ " ".toList, c ∉ fences)).join
        hu).join (.of_ordinary (by decide : ∀ c ∈ " 1".toList, c ∉ fences))))
    cases op <;> rw [spell, hopening, hbetween, hclosing]
    · have hall := htaken (.of_ordinary (by decide : ∀ c ∈ "-".toList, c ∉ fences))
      simpa only [String.append_assoc] using hall
    · have hall := htaken (.of_ordinary (by decide : ∀ c ∈ "+".toList, c ∉ fences))
      simpa only [String.append_assoc] using hall

theorem balanced_keepsOld (keepsOld : Option Bool) :
    ∀ t ∈ keepsOldSpelling keepsOld, Balanced most t.toList := by
  have hbool : ∀ b, ∀ c ∈ (boolSpelling b).toList, c ∉ fences := by decide
  cases keepsOld with
  | none => exact nofun
  | some b => exact List.forall_mem_singleton.2 (.of_ordinary (hbool b))

/-- A store to an element is a call of a helper, with the parts in its brackets. -/
theorem firm_store (ho : Balanced most owner.spell.toList) (hk : Balanced most key.spell.toList)
    (hv : Balanced most value.spell.toList) :
    Firm literals (most + 1) (store owner key value).spell.toList := by
  rw [spell]
  exact firm_helper (by decide) (by simp [ho, hk, hv])

theorem firm_update (op : ArithOp) (keepsOld : Option Bool) (ho : Balanced most owner.spell.toList)
    (hk : Balanced most key.spell.toList) (hv : Balanced most value.spell.toList) :
    Firm literals (most + 1) (update owner key op value keepsOld).spell.toList := by
  rw [spell]
  refine firm_helper (by decide) (List.forall_mem_append.2 ⟨?_, balanced_keepsOld keepsOld⟩)
  simp [ho, hk, hv, balanced_quoted]

theorem firm_storeAttr (field : String) (ho : Balanced most owner.spell.toList)
    (hv : Balanced most value.spell.toList) :
    Firm literals (most + 1) (storeAttr owner field value).spell.toList := by
  rw [spell]
  exact firm_helper (by decide) (by simp [ho, hv, balanced_quoted])

theorem firm_updateAttr (field : String) (op : ArithOp) (keepsOld : Option Bool)
    (ho : Balanced most owner.spell.toList) (hv : Balanced most value.spell.toList) :
    Firm literals (most + 1) (updateAttr owner field op value keepsOld).spell.toList := by
  rw [spell]
  refine firm_helper (by decide) (List.forall_mem_append.2 ⟨?_, balanced_keepsOld keepsOld⟩)
  simp [ho, hv, balanced_quoted]

theorem firm_newArray (typeName : String) (h : Balanced most value.spell.toList) :
    Firm literals (most + 1) (newArray value typeName).spell.toList := by
  rw [spell]
  exact firm_helper (by decide) (by simp [h, balanced_quoted])

theorem firm_newObject (typeName : String) :
    Firm literals (most + 1) (newObject typeName).spell.toList := by
  rw [spell]
  exact firm_helper (by decide) (by simp [balanced_quoted])

theorem balanced_shown (h : Balanced most value.spell.toList) :
    Balanced (most + 1) (shown value).spell.toList := by
  rw [spell]
  exact (firm_helper (by decide) (by simp [h])).balanced fun _ h => h

theorem balanced_input : Balanced 1 input.spell.toList := by
  have hname : Balanced 1 "__read".toList := .of_words (by decide)
  have harguments : Balanced 1 ("(" ++ "" ++ ")").toList := (Grouped.of_inner .nil).balanced
  rw [spell]
  exact hname.join harguments

end Expr

end ConsoleCpp.Target

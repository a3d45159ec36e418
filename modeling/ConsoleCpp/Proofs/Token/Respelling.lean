/-
Lexing a text that is put together from the texts of tokens. A text of some kind is taken as a whole
again, and as a token of its kind, if what follows it cannot go on with it; this is said once for
each kind. `Rereads` joins such pieces from the back: a text that is read back as some tokens, with
one more piece in front of it, is read back as one more token.
-/
import ConsoleCpp.Proofs.Token.Classes

namespace ConsoleCpp.Token

open Text

/-! ## Characters -/

/-- The operators of one character. With some of them a longer operator or a comment goes on. -/
def signs : List Char := ['+', '-', '*', '/', '=', '<', '>', '!', '%', '&', '|', '~', '^']

/-- The characters that can stand right after an operand in a text put together from tokens. -/
def enders : List Char := [')', ']', ',', ' ', ':', '.', '-', '+', '(', '[']

/-- A character that no operator and no run of blanks goes on with. -/
structure Starter (c : Char) : Prop where
  noSign : c ∉ signs
  noBlank : isBlank c = false

theorem isDigit_of_isBlank {c : Char} (h : isBlank c = true) : isDigit c = false := by
  by_cases hc : c.toNat < 128
  · exact ascii_all (p := fun c => isBlank c = true → isDigit c = false) (by decide) hc h
  · have hd : ∀ code ∈ blankCodes,
        (digitZeros.find? fun nought => nought ≤ code && code < nought + 10) = none := by
      decide +kernel
    unfold isDigit digitValue?
    rw [if_neg hc, hd _ (mem_blankCodes h hc)]
    rfl

theorem starter_of_isDigit {c : Char} (h : isDigit c = true) : Starter c := by
  refine ⟨fun hc => ?_, ?_⟩
  · have : ∀ d ∈ signs, isDigit d = false := by decide
    rw [this c hc] at h
    cases h
  · cases hb : isBlank c with
    | false => rfl
    | true => rw [isDigit_of_isBlank hb] at h; cases h

theorem starter_of_isNameStart {c : Char} (h : isNameStart c = true) : Starter c := by
  have hs := ascii_all (p := fun c => isNameStart c = true → c ∉ signs ∧ isBlank c = false)
    (by decide) (isNameStart_ascii h) h
  exact ⟨hs.1, hs.2⟩

/-! ## What a text can be followed by -/

/-- The rule for reserved words is the only one that looks back. -/
theorem firstMatch_of_keyword {before : Option Char} {cs : List Char}
    (h : keyword before cs = none) :
    firstMatch rules before cs = firstMatch rules (some '_') cs := by
  have h' : keyword (some '_') cs = none := rfl
  simp only [firstMatch, rules, List.findSome?_cons, List.findSome?_nil, h, h']

/-- Reserved words start like names. -/
theorem keyword_eq_none {before : Option Char} {c : Char} {rest : List Char}
    (h : isNameStart c = false) : keyword before (c :: rest) = none := by
  have hk : ∀ word ∈ keywords, ∀ d ∈ word.toList.head?, isNameStart d = true := by decide
  have hne : "" ∉ keywords := by decide
  unfold keyword
  split
  · rfl
  · dsimp only
    rw [if_neg]
    rw [List.contains_iff_mem]
    intro hm
    rw [List.takeWhile_cons] at hm
    split at hm
    · have := hk _ hm c (by rw [String.toList_ofList]; rfl)
      rw [h] at this
      cases this
    · exact hne hm

section

variable {before : Option Char} {after : List Char}

/-- A whole word that is not reserved. -/
theorem firstMatch_word {cs : List Char} (hw : WordText cs) (hk : String.ofList cs ∉ keywords)
    (ha : ∀ c ∈ after.head?, isWord c = false) :
    firstMatch rules before (cs ++ after) = some (some .identifier, cs.length) := by
  have hnone : keyword before (cs ++ after) = none := by
    unfold keyword
    split
    · rfl
    · dsimp only
      rw [hw.takeWhile_eq ha, if_neg (by simpa using hk)]
  cases hw with
  | @mk c rest hc hr =>
    have hi : identifier (c :: (rest ++ after)) = some (c :: rest).length := by
      rw [identifier, if_pos hc, run_append hr ha, List.length_cons, Nat.add_comm]
    obtain ⟨h₁, h₂⟩ : c ≠ '/' ∧ c ≠ '#' := by
      constructor <;> rintro rfl <;> exact absurd hc (by decide)
    rw [List.cons_append] at hnone ⊢
    simp [firstMatch, rules, lineComment, blockComment, headerDirective, hnone, hi, h₁, h₂]

/-- A reserved word that stands apart from what is before it. -/
theorem firstMatch_keyword {word : String} (hk : word ∈ keywords) (hb : before.any isWord = false)
    (ha : ∀ c ∈ after.head?, isWord c = false) :
    firstMatch rules before (word.toList ++ after) = some (some .keyword, word.toList.length) := by
  have hall : ∀ word ∈ keywords, (∀ c ∈ word.toList, isWord c = true) ∧
      word.toList.head?.any (fun c => c != '/' && c != '#') = true := by decide
  obtain ⟨hword, hfirst⟩ := hall word hk
  have htake : (word.toList ++ after).takeWhile isWord = word.toList := by
    rw [← take_run, run_append hword ha, List.take_left]
  have hsome : keyword before (word.toList ++ after) = some word.toList.length := by
    rw [keyword, hb, if_neg Bool.false_ne_true]
    dsimp only
    rw [htake, String.ofList_toList, if_pos (by simpa using hk)]
  cases hl : word.toList with
  | nil => rw [hl] at hfirst; cases hfirst
  | cons c rest =>
    rw [hl] at hfirst hsome
    have hc : c ≠ '/' ∧ c ≠ '#' := by simpa using hfirst
    rw [List.cons_append] at hsome ⊢
    simp [firstMatch, rules, lineComment, blockComment, headerDirective, hsome, hc]

/-- Digits are no reserved word and no name. -/
theorem firstMatch_of_number {c : Char} {rest : List Char} {n : Nat} (hc : isDigit c = true)
    (hn : number (c :: rest) = some n) :
    firstMatch rules before (c :: rest) = some (some .number, n) := by
  have hs := isNameStart_of_isDigit hc
  have hk : keyword before (c :: rest) = none := keyword_eq_none hs
  have hi : identifier (c :: rest) = none := by rw [identifier, hs, if_neg Bool.false_ne_true]
  obtain ⟨h₁, h₂⟩ : c ≠ '/' ∧ c ≠ '#' := by
    constructor <;> rintro rfl <;> exact absurd hc (by decide)
  simp [firstMatch, rules, lineComment, blockComment, headerDirective, hk, hi, hn, h₁, h₂]

/-- An exponent is taken as a whole where no digit and no other exponent follows. -/
theorem exponent_append {cs : List Char} (h : ExponentText cs)
    (ha : ∀ c ∈ after.head?, c ∈ enders) : exponent (cs ++ after) = cs.length := by
  have hd : ∀ c ∈ after.head?, isDigit c = false := fun c hc =>
    (by decide : ∀ c ∈ enders, isDigit c = false) c (ha c hc)
  cases h with
  | none =>
    cases after with
    | nil => rfl
    | cons c rest =>
      have hc : c ≠ 'e' ∧ c ≠ 'E' :=
        (by decide : ∀ c ∈ enders, c ≠ 'e' ∧ c ≠ 'E') c (ha c rfl)
      simp [exponent_cons, hc]
  | @some mark sign digits hm hs hne hdigits =>
    have hsign : signLength (sign ++ (digits ++ after)) = sign.length := by
      simp only [List.mem_cons, List.not_mem_nil, or_false] at hs
      rcases hs with rfl | rfl | rfl
      · obtain ⟨d, rest, rfl⟩ := List.exists_cons_of_ne_nil hne
        have hd := hdigits d (List.mem_cons_self)
        unfold signLength
        split
        · rename_i heq; cases heq; exact absurd hd (by decide)
        · rename_i heq; cases heq; exact absurd hd (by decide)
        · rfl
      · rfl
      · rfl
    have hrun : run isDigit (digits ++ after) = digits.length := run_append hdigits hd
    have hpos : 0 < digits.length := List.length_pos_iff.2 hne
    rw [List.cons_append, List.append_assoc, exponent_cons, hsign, List.drop_left, hrun,
      if_pos (by simpa using hm), List.length_cons, List.length_append]
    split
    · omega
    · show 1 + sign.length + digits.length = _
      omega

/-- A number is taken as a whole, unless it has digits only and a point follows. -/
theorem number_append {cs : List Char} (h : NumberText cs) (ha : ∀ c ∈ after.head?, c ∈ enders)
    (hp : (∀ c ∈ cs, isDigit c = true) → after.head? ≠ some '.') :
    number (cs ++ after) = some cs.length := by
  have hd : ∀ c ∈ after.head?, isDigit c = false := fun c hc =>
    (by decide : ∀ c ∈ enders, isDigit c = false) c (ha c hc)
  have hexp : ∀ {ex : List Char}, ExponentText ex →
      ∀ c ∈ (ex ++ after).head?, isDigit c = false := by
    intro ex hex
    cases hex with
    | none => exact hd
    | some hm =>
      rintro _ ⟨⟩
      rcases hm with rfl | rfl <;> decide
  cases h with
  | @whole digits ex hne hdigits hex =>
    have hrun : run isDigit (digits ++ (ex ++ after)) = digits.length :=
      run_append hdigits (hexp hex)
    have hzero : run isDigit ([] ++ (ex ++ after)) = 0 := run_append nofun (hexp hex)
    rw [List.nil_append] at hzero
    -- without an exponent, what follows must not be taken for the point of the number
    have hpoint : pointLength (ex ++ after) = 0 := by
      cases hex with
      | none =>
        unfold pointLength
        split
        · rename_i heq
          rw [List.append_nil] at hp
          rw [List.nil_append] at heq
          exact absurd (by rw [heq]; rfl) (hp hdigits)
        · rfl
      | some hm => rcases hm with rfl | rfl <;> rfl
    obtain ⟨n, hn⟩ := Nat.exists_eq_succ_of_ne_zero (mt List.length_eq_zero_iff.1 hne)
    rw [List.append_assoc, number_eq, hrun]
    simp only [hn]
    rw [← hn, List.drop_left, hpoint, List.drop_zero, hzero]
    simp only [List.drop_zero, Nat.add_zero, exponent_append hex ha, List.length_append]
  | @point digits fraction ex hne hdigits hfraction hex =>
    have hrun : run isDigit (digits ++ '.' :: (fraction ++ (ex ++ after))) = digits.length := by
      refine run_append hdigits ?_
      rintro _ ⟨⟩
      decide
    have hfrac : run isDigit (fraction ++ (ex ++ after)) = fraction.length :=
      run_append hfraction (hexp hex)
    have hpoint : pointLength ('.' :: (fraction ++ (ex ++ after))) = 1 := rfl
    obtain ⟨n, hn⟩ := Nat.exists_eq_succ_of_ne_zero (mt List.length_eq_zero_iff.1 hne)
    rw [List.append_assoc, List.cons_append, List.append_assoc, number_eq, hrun]
    simp only [hn]
    rw [← hn, List.drop_left, hpoint, List.drop_succ_cons, List.drop_zero, hfrac,
      Nat.add_comm 1, List.drop_succ_cons, List.drop_left, exponent_append hex ha]
    simp only [List.length_append, List.length_cons]
    congr 1
    omega

theorem firstMatch_number {cs : List Char} (h : NumberText cs) (ha : ∀ c ∈ after.head?, c ∈ enders)
    (hp : (∀ c ∈ cs, isDigit c = true) → after.head? ≠ some '.') :
    firstMatch rules before (cs ++ after) = some (some .number, cs.length) := by
  have hn := number_append h ha hp
  obtain ⟨c, rest, rfl, hc⟩ := h.head
  exact firstMatch_of_number hc hn

/-- A quote starts a literal and nothing else. -/
theorem firstMatch_quote {q : Char} {rest : List Char} (hq : q = '\'' ∨ q = '"') :
    firstMatch rules before (q :: rest) = firstMatch (rules.drop 6) (some '_') (q :: rest) := by
  have hk : keyword before (q :: rest) = none := by
    rcases hq with rfl | rfl <;> exact keyword_eq_none (by decide)
  rw [firstMatch_of_keyword hk]
  rcases hq with rfl | rfl <;> rfl

theorem firstMatch_char {cs : List Char} (h : CharText cs) :
    firstMatch rules before (cs ++ after) = some (some .char, cs.length) := by
  cases h with
  | @pair c hc =>
    show firstMatch rules before ('\'' :: '\\' :: c :: '\'' :: after) = some (some .char, 4)
    have hl : charLiteral ('\'' :: '\\' :: c :: '\'' :: after) = some 4 := by
      simp [charLiteral, hc]
    rw [firstMatch_quote (.inl rfl)]
    simp [firstMatch, rules, hl]
  | @plain c h₁ h₂ =>
    show firstMatch rules before ('\'' :: c :: '\'' :: after) = some (some .char, 3)
    have hl : charLiteral ('\'' :: c :: '\'' :: after) = some 3 := by
      unfold charLiteral
      split
      · rename_i heq
        cases heq
        exact absurd rfl h₂
      · rename_i heq
        cases heq
        simp [h₁, h₂]
      · rename_i hno
        exact absurd rfl (hno c after)
    rw [firstMatch_quote (.inl rfl)]
    simp [firstMatch, rules, hl]

theorem stringRest_append {body : List Char} (h : StringBody body) :
    stringRest (body ++ after) = some body.length := by
  induction h with
  | close => rfl
  | pair hc _ ih => simp [stringRest, hc, ih]
  | @plain c rest hq hb hn _ ih =>
    rw [List.cons_append, stringRest.eq_def]
    split
    · rename_i heq
      exact absurd (List.cons.inj heq).1 hq
    · rename_i heq
      exact absurd (List.cons.inj heq).1 hb
    · rename_i heq
      obtain ⟨rfl, rfl⟩ := List.cons.inj heq
      simp [hb, hn, ih]
    · rename_i heq
      cases heq

theorem firstMatch_string {body : List Char} (h : StringBody body) :
    firstMatch rules before ('"' :: body ++ after) = some (some .string, ('"' :: body).length) := by
  have hl : stringLiteral ('"' :: (body ++ after)) = some (body.length + 1) := by
    rw [stringLiteral, stringRest_append h]
    rfl
  have hc : charLiteral ('"' :: (body ++ after)) = none := rfl
  rw [List.cons_append, firstMatch_quote (.inr rfl)]
  simp [firstMatch, rules, hl, hc]

/-! ## Signs -/

/-- The operators of two characters, and the point. -/
def longOperators : List String :=
  ["++", "--", "==", "!=", "<=", ">=", "&&", "||", "->", "+=", "-=", "*=", "/=", "%=", "."]

/-- The delimiters of expressions. -/
def delimiters : List String := ["(", ")", "[", "]", ","]

theorem oneOf_eq_none {texts : List String} {cs : List Char}
    (h : ∀ text ∈ texts, text.toList.isPrefixOf cs = false) : oneOf texts cs = none := by
  rw [oneOf, Option.map_eq_none_iff, List.find?_eq_none]
  intro text ht
  rw [h text ht]
  decide

/-- An operator of one character where no sign follows. -/
theorem firstMatch_shortOperator {c : Char} (hc : c ∈ signs) (ha : ∀ d ∈ after.head?, d ∉ signs) :
    firstMatch rules before (c :: after) = some (some .operator, 1) := by
  have hplain : ∀ c ∈ signs, isNameStart c = false ∧ ('.' == c) = false := by decide
  obtain ⟨hname, hdot⟩ := hplain c hc
  rw [firstMatch_of_keyword (keyword_eq_none hname)]
  cases after with
  | nil =>
    have hall : ∀ c ∈ signs, firstMatch rules (some '_') [c] = some (some .operator, 1) := by decide
    exact hall c hc
  | cons d rest =>
    -- the rules before the operators of one character need a sign in second place
    have hd : ∀ b ∈ signs, (b == d) = false := by
      intro b hb
      rw [beq_eq_false_iff_ne]
      rintro rfl
      exact ha b rfl hb
    have h₁ : lineComment (c :: d :: rest) = none := by
      unfold lineComment
      split
      · rename_i heq
        cases heq
        exact absurd (hd '/' (by decide)) (by decide)
      · rfl
    have h₂ : blockComment (c :: d :: rest) = none := by
      unfold blockComment
      split
      · rename_i heq
        cases heq
        exact absurd (hd '*' (by decide)) (by decide)
      · rfl
    simp only [signs, List.forall_mem_cons] at hd
    have h₃ : oneOf ["<<", ">>"] (c :: d :: rest) = none :=
      oneOf_eq_none (by simp [List.isPrefixOf, hd])
    have h₄ : oneOf ["++", "--"] (c :: d :: rest) = none :=
      oneOf_eq_none (by simp [List.isPrefixOf, hd])
    have h₅ : oneOf ["==", "!=", "<=", ">=", "&&", "||", "->", "+=", "-=", "*=", "/=", "%=", "."]
        (c :: d :: rest) = none :=
      oneOf_eq_none (by simp [List.isPrefixOf, hd, hdot])
    simp only [signs, List.mem_cons, List.not_mem_nil, or_false] at hc
    rcases hc with rfl | rfl | rfl | rfl | rfl | rfl | rfl | rfl | rfl | rfl | rfl | rfl | rfl <;>
    · simp only [firstMatch, rules, List.findSome?_cons, h₁, h₂, h₃, h₄, h₅]
      rfl

/-- Longer operators, delimiters and the scope mark are taken wherever they stand. -/
theorem firstMatch_longOperator {text : String} (ht : text ∈ longOperators) :
    firstMatch rules before (text.toList ++ after) = some (some .operator, text.toList.length) := by
  simp only [longOperators, List.mem_cons, List.not_mem_nil, or_false] at ht
  rcases ht with rfl | rfl | rfl | rfl | rfl | rfl | rfl | rfl | rfl | rfl | rfl | rfl | rfl | rfl |
    rfl <;> exact firstMatch_of_keyword (keyword_eq_none (by decide))

theorem firstMatch_delimiter {text : String} (ht : text ∈ delimiters) :
    firstMatch rules before (text.toList ++ after) =
      some (some .delimiter, text.toList.length) := by
  simp only [delimiters, List.mem_cons, List.not_mem_nil, or_false] at ht
  rcases ht with rfl | rfl | rfl | rfl | rfl <;>
    exact firstMatch_of_keyword (keyword_eq_none (by decide))

theorem firstMatch_stream {text : String} (ht : text = "<<" ∨ text = ">>") :
    firstMatch rules before (text.toList ++ after) = some (some .stream, text.toList.length) := by
  rcases ht with rfl | rfl <;> exact firstMatch_of_keyword (keyword_eq_none (by decide))

theorem firstMatch_scope :
    firstMatch rules before (':' :: ':' :: after) = some (some .scope, 2) :=
  firstMatch_of_keyword (keyword_eq_none (by decide))

/-- A single space before something else. -/
theorem firstMatch_space (ha : ∀ c ∈ after.head?, isBlank c = false) :
    firstMatch rules before (' ' :: after) = some (none, 1) := by
  have hr : run isBlank ([' '] ++ after) = 1 := run_append (by decide) ha
  have hb : blanks (' ' :: after) = some 1 := by
    rw [List.singleton_append] at hr
    simp [blanks, hr]
  have hlast : firstMatch rules (some '_') (' ' :: after) =
      firstMatch (rules.drop 14) (some '_') (' ' :: after) := rfl
  rw [firstMatch_of_keyword (keyword_eq_none (by decide)), hlast]
  simp [firstMatch, rules, hb]

end

/-! ## Normal texts -/

/-- A text that normalisation leaves as it is, also behind another one. -/
structure Plain (cs : List Char) : Prop where
  folded : foldLineEnds cs = cs
  first : cs.head? ≠ some '\n'
  visible : ∀ c ∈ cs, c ∉ invisibles

theorem foldLineEnds_of_not_mem {c : Char} (hc : c = '\r' ∨ c = '\n') {cs : List Char}
    (h : c ∉ cs) : foldLineEnds cs = cs := by
  fun_induction foldLineEnds cs with
  | case1 rest =>
    rcases hc with rfl | rfl <;> simp at h
  | case2 d rest _ ih => rw [ih fun hm => h (List.mem_cons_of_mem _ hm)]
  | case3 => rfl

theorem foldLineEnds_append {cs after : List Char} (h : foldLineEnds cs = cs)
    (ha : after.head? ≠ some '\n') : foldLineEnds (cs ++ after) = cs ++ foldLineEnds after := by
  fun_induction foldLineEnds cs with
  | case1 rest => cases h
  | case2 c rest hc ih =>
    have hrest := (List.cons.inj h).2
    rw [List.cons_append, List.cons_append, ← ih hrest, foldLineEnds.eq_def]
    split
    · rename_i heq
      obtain ⟨hr, hn⟩ := List.cons.inj heq
      cases rest with
      | nil =>
        rw [List.nil_append] at hn
        rw [hn] at ha
        exact absurd rfl ha
      | cons d rest =>
        obtain ⟨hd, -⟩ := List.cons.inj hn
        exact absurd (by rw [hd]) (hc rest hr)
    · rename_i heq
      obtain ⟨rfl, rfl⟩ := List.cons.inj heq
      rfl
    · rename_i heq
      cases heq
  | case3 => rfl

namespace Plain

theorem nil : Plain [] := ⟨rfl, nofun, nofun⟩

theorem append {cs after : List Char} (h : Plain cs) (hne : cs ≠ []) (ha : Plain after) :
    Plain (cs ++ after) := by
  refine ⟨by rw [foldLineEnds_append h.folded ha.first, ha.folded], ?_, ?_⟩
  · obtain ⟨c, rest, rfl⟩ := List.exists_cons_of_ne_nil hne
    exact h.first
  · exact List.forall_mem_append.2 ⟨h.visible, ha.visible⟩

/-- A text of characters that are neither line ends nor invisible. -/
theorem of_forall {cs : List Char} (h : ∀ c ∈ cs, c ≠ '\n' ∧ c ∉ invisibles) : Plain cs := by
  refine ⟨foldLineEnds_of_not_mem (.inr rfl) fun hm => (h _ hm).1 rfl, ?_, fun c hc => (h c hc).2⟩
  intro hf
  exact (h _ (List.mem_of_head? hf)).1 rfl

/-- Normalisation leaves the text as it is. -/
theorem normalize_eq {text : String} (h : Plain text.toList) :
    normalize invisibles text = text.toList := by
  rw [normalize, h.folded, List.filter_eq_self]
  intro c hc
  simpa using h.visible c hc

end Plain

theorem WordText.head {cs : List Char} (h : WordText cs) :
    ∃ c rest, cs = c :: rest ∧ isNameStart c = true := by
  cases h with
  | mk hc _ => exact ⟨_, _, rfl, hc⟩

theorem WordText.ne_nil {cs : List Char} (h : WordText cs) : cs ≠ [] := by
  obtain ⟨c, rest, rfl, -⟩ := h.head
  exact nofun

theorem WordText.isPlain {cs : List Char} (h : WordText cs) : Plain cs := by
  have hw : isWord '\n' = false ∧ ∀ c ∈ invisibles, isWord c = false := by decide +kernel
  refine .of_forall fun c hc => ⟨?_, fun hi => ?_⟩
  · rintro rfl
    have := h.all_word _ hc
    rw [hw.1] at this
    cases this
  · have := h.all_word _ hc
    rw [hw.2 c hi] at this
    cases this

/-- The characters of numbers that are no digits. -/
def numberMarks : List Char := ['.', 'e', 'E', '+', '-']

theorem ExponentText.chars {cs : List Char} (h : ExponentText cs) :
    ∀ c ∈ cs, isDigit c = true ∨ c ∈ numberMarks := by
  cases h with
  | none => nofun
  | @some mark sign digits hm hs _ hd =>
    have hsign : ∀ sign ∈ [[], ['+'], ['-']], ∀ c ∈ sign, c ∈ numberMarks := by decide
    refine List.forall_mem_cons.2 ⟨.inr ?_, List.forall_mem_append.2 ⟨?_, ?_⟩⟩
    · rcases hm with rfl | rfl <;> decide
    · exact fun c hc => .inr (hsign sign hs c hc)
    · exact fun c hc => .inl (hd c hc)

theorem NumberText.chars {cs : List Char} (h : NumberText cs) :
    ∀ c ∈ cs, isDigit c = true ∨ c ∈ numberMarks := by
  cases h with
  | whole _ hd he => exact List.forall_mem_append.2 ⟨fun c hc => .inl (hd c hc), he.chars⟩
  | point _ hd hf he =>
    refine List.forall_mem_append.2 ⟨fun c hc => .inl (hd c hc), ?_⟩
    refine List.forall_mem_cons.2 ⟨.inr (by decide), ?_⟩
    exact List.forall_mem_append.2 ⟨fun c hc => .inl (hf c hc), he.chars⟩

theorem NumberText.ne_nil {cs : List Char} (h : NumberText cs) : cs ≠ [] := by
  obtain ⟨c, rest, rfl, -⟩ := h.head
  exact nofun

theorem NumberText.isPlain {cs : List Char} (h : NumberText cs) : Plain cs := by
  have hd : ∀ c ∈ '\n' :: invisibles, isDigit c = false ∧ c ∉ numberMarks := by decide
  refine .of_forall fun c hc => ?_
  have hno : c ∉ '\n' :: invisibles := by
    intro hm
    obtain ⟨h₁, h₂⟩ := hd c hm
    rcases h.chars c hc with h | h
    · rw [h₁] at h
      cases h
    · exact h₂ h
  simpa using hno

theorem CharText.head {cs : List Char} (h : CharText cs) : cs.head? = some '\'' := by
  cases h <;> rfl

theorem CharText.isPlain {cs : List Char} (h : CharText cs) (hv : ∀ c ∈ cs, c ∉ invisibles) :
    Plain cs := by
  cases h with
  | @pair c hc =>
    refine ⟨foldLineEnds_of_not_mem (.inr rfl) ?_, nofun, hv⟩
    simp [Ne.symm hc]
  | @plain c _ _ =>
    refine ⟨?_, nofun, hv⟩
    by_cases hc : c = '\n'
    · exact foldLineEnds_of_not_mem (.inl rfl) (by simp [hc])
    · exact foldLineEnds_of_not_mem (.inr rfl) (by simp [Ne.symm hc])

theorem StringBody.not_mem {body : List Char} (h : StringBody body) : '\n' ∉ body := by
  induction h with
  | close => decide
  | pair hc _ ih => simp [Ne.symm hc, ih]
  | plain _ _ hc _ ih => simp [Ne.symm hc, ih]

/-! ## Reading back -/

/-- After the character `before`, the text is lexed into tokens of these kinds and texts. -/
structure Rereads (before : Option Char) (text : List Char) (spelled : List (Kind × String)) :
    Prop where
  plain : Plain text
  scans : ∀ offset, ∃ tokens, scanFrom offset before text = .ok tokens ∧
    tokens.map (fun t => (t.kind, t.text)) = spelled

namespace Rereads

variable {before : Option Char} {piece after : List Char} {spelled : List (Kind × String)}

theorem nil : Rereads before [] [] := ⟨.nil, fun offset => ⟨[], scanFrom_nil offset before, rfl⟩⟩

/-- One more token in front. -/
theorem cons {kind : Kind} {text : String} (hp : Plain text.toList) (hne : text.toList ≠ [])
    (hm : firstMatch rules before (text.toList ++ after) = some (some kind, text.toList.length))
    (h : Rereads text.toList.getLast? after spelled) :
    Rereads before (text.toList ++ after) ((kind, text) :: spelled) := by
  refine ⟨hp.append hne h.plain, fun offset => ?_⟩
  obtain ⟨tokens, hs, ht⟩ := h.scans (offset + text.toList.length)
  refine ⟨⟨kind, text, offset⟩ :: tokens, ?_, by rw [List.map_cons, ht]⟩
  rw [scanFrom_piece offset hne hm, hs]
  show Except.ok (emitted (some kind) text.toList offset ++ tokens) = _
  simp only [emitted, Option.map_some, Option.toList_some, String.ofList_toList,
    List.singleton_append]

/-- A space in front. -/
theorem space (ha : ∀ c ∈ after.head?, isBlank c = false)
    (h : ∀ before, before.any isWord = false → Rereads before after spelled) :
    Rereads before (" ".toList ++ after) spelled := by
  have hm : firstMatch rules before ([' '] ++ after) = some (none, 1) := firstMatch_space ha
  have hp : Plain [' '] := .of_forall (by decide)
  refine ⟨hp.append (by decide) (h none rfl).plain, fun offset => ?_⟩
  obtain ⟨tokens, hs, ht⟩ := (h (some ' ') (by decide)).scans (offset + 1)
  refine ⟨tokens, ?_, ht⟩
  show scanFrom offset before ([' '] ++ after) = .ok tokens
  rw [scanFrom_piece offset (by decide) hm]
  show (scanFrom (offset + 1) (some ' ') after).map _ = _
  rw [hs]
  rfl

/-- A token without word characters in front. -/
theorem sign {kind : Kind} {text : String} (hne : text.toList ≠ [])
    (hs : ∀ c ∈ text.toList, isWord c = false ∧ c ≠ '\n' ∧ c ∉ invisibles)
    (hm : firstMatch rules before (text.toList ++ after) = some (some kind, text.toList.length))
    (h : ∀ before, before.any isWord = false → Rereads before after spelled) :
    Rereads before (text.toList ++ after) ((kind, text) :: spelled) := by
  refine cons (.of_forall fun c hc => (hs c hc).2) hne hm (h _ ?_)
  cases hl : text.toList.getLast? with
  | none => rfl
  | some c => exact (hs c (List.mem_of_getLast? hl)).1

theorem delimiter {text : String} (ht : text ∈ delimiters)
    (h : ∀ before, before.any isWord = false → Rereads before after spelled) :
    Rereads before (text.toList ++ after) ((.delimiter, text) :: spelled) := by
  have hall : ∀ text ∈ delimiters, text.toList ≠ [] ∧
      ∀ c ∈ text.toList, isWord c = false ∧ c ≠ '\n' ∧ c ∉ invisibles := by decide
  exact sign (hall text ht).1 (hall text ht).2 (firstMatch_delimiter ht) h

theorem scope (h : ∀ before, before.any isWord = false → Rereads before after spelled) :
    Rereads before ("::".toList ++ after) ((.scope, "::") :: spelled) :=
  sign (by decide) (by decide) firstMatch_scope h

theorem stream {text : String} (ht : text = "<<" ∨ text = ">>")
    (h : ∀ before, before.any isWord = false → Rereads before after spelled) :
    Rereads before (text.toList ++ after) ((.stream, text) :: spelled) := by
  refine sign ?_ ?_ (firstMatch_stream ht) h
  · rcases ht with rfl | rfl <;> decide
  · rcases ht with rfl | rfl <;> decide

/-- An operator in front of what it does not go on with. -/
theorem operator {text : String} (ht : text ∈ longOperators ∨ text ∈ signs.map String.singleton)
    (ha : ∀ c ∈ after.head?, c ∉ signs)
    (h : ∀ before, before.any isWord = false → Rereads before after spelled) :
    Rereads before (text.toList ++ after) ((.operator, text) :: spelled) := by
  have hall : ∀ text ∈ longOperators ++ signs.map String.singleton, text.toList ≠ [] ∧
      ∀ c ∈ text.toList, isWord c = false ∧ c ≠ '\n' ∧ c ∉ invisibles := by decide
  obtain ⟨hne, hs⟩ := hall text (List.mem_append.2 ht)
  refine sign hne hs ?_ h
  rcases ht with ht | ht
  · exact firstMatch_longOperator ht
  · obtain ⟨c, hc, rfl⟩ := List.mem_map.1 ht
    rw [String.toList_singleton]
    exact firstMatch_shortOperator hc ha

/-- A word in front of what ends an operand. -/
theorem word {id : String} (hw : WordText id.toList) (hk : id ∉ keywords)
    (ha : ∀ c ∈ after.head?, c ∈ enders) (h : ∀ before, Rereads before after spelled) :
    Rereads before (id.toList ++ after) ((.identifier, id) :: spelled) := by
  have hend : ∀ c ∈ enders, isWord c = false := by decide
  refine cons hw.isPlain hw.ne_nil (firstMatch_word hw ?_ fun c hc => hend c (ha c hc)) (h _)
  rwa [String.ofList_toList]

theorem reserved {word : String} (hk : word ∈ keywords) (hb : before.any isWord = false)
    (ha : ∀ c ∈ after.head?, c ∈ enders) (h : ∀ before, Rereads before after spelled) :
    Rereads before (word.toList ++ after) ((.keyword, word) :: spelled) := by
  have hend : ∀ c ∈ enders, isWord c = false := by decide
  have hall : ∀ word ∈ keywords, word.toList ≠ [] ∧
      ∀ c ∈ word.toList, c ≠ '\n' ∧ c ∉ invisibles := by decide
  exact cons (.of_forall (hall word hk).2) (hall word hk).1
    (firstMatch_keyword hk hb fun c hc => hend c (ha c hc)) (h _)

theorem number {text : String} (hn : NumberText text.toList) (ha : ∀ c ∈ after.head?, c ∈ enders)
    (hp : (∀ c ∈ text.toList, isDigit c = true) → after.head? ≠ some '.')
    (h : ∀ before, Rereads before after spelled) :
    Rereads before (text.toList ++ after) ((.number, text) :: spelled) :=
  cons hn.isPlain hn.ne_nil (firstMatch_number hn ha hp) (h _)

theorem char {text : String} (hc : CharText text.toList) (hv : ∀ c ∈ text.toList, c ∉ invisibles)
    (h : ∀ before, Rereads before after spelled) :
    Rereads before (text.toList ++ after) ((.char, text) :: spelled) := by
  refine cons (hc.isPlain hv) ?_ (firstMatch_char hc) (h _)
  intro hnil
  have := hc.head
  rw [hnil] at this
  cases this

theorem string {text : String} {body : List Char} (ht : text.toList = '"' :: body)
    (hb : StringBody body) (hv : ∀ c ∈ text.toList, c ∉ invisibles)
    (h : ∀ before, Rereads before after spelled) :
    Rereads before (text.toList ++ after) ((.string, text) :: spelled) := by
  have hn : '\n' ∉ text.toList := by
    rw [ht]
    simp [hb.not_mem]
  refine cons (.of_forall fun c hc => ⟨fun he => hn (he ▸ hc), hv c hc⟩) (by simp [ht]) ?_ (h _)
  rw [ht]
  exact firstMatch_string hb

end Rereads

end ConsoleCpp.Token

/-
What the text of a token looks like, by the kind of the token, and where a reserved word can be an
identifier. The text of each kind is described without regard to what stands around it. A reserved
word is taken for an identifier only where a word character stands before it, and since every other
kind ends where no word goes on, that is only right after a number.
-/
import ConsoleCpp.Proofs.Token.Spans

namespace ConsoleCpp.Token

open Text

/-! ## Characters -/

/-- What holds of the characters of a list is decided along the list, also where every character
there is could be tried. -/
scoped instance (priority := 2000) decidableForallMemList {p : Char → Prop} [DecidablePred p]
    (chars : List Char) : Decidable (∀ c ∈ chars, p c) :=
  List.decidableBAll p chars

@[inherit_doc decidableForallMemList]
scoped instance (priority := 2000) decidableForallMemOption {p : Char → Prop} [DecidablePred p]
    (char : Option Char) : Decidable (∀ c ∈ char, p c) :=
  Option.decidableForallMem char

/-- What holds of every character of the ASCII range is found by trying them all. -/
theorem ascii_all {p : Char → Prop} (h : ∀ n < 128, p (Char.ofNat n)) {c : Char}
    (hc : c.toNat < 128) : p c := by
  have := h c.toNat hc
  rwa [Char.ofNat_toNat] at this

theorem isNameStart_ascii {c : Char} (h : isNameStart c = true) : c.toNat < 128 := by
  have hc : c.toNat = c.val.toNat := rfl
  simp only [isNameStart, Bool.or_eq_true, Bool.and_eq_true, decide_eq_true_eq, beq_iff_eq,
    Char.le_def, UInt32.le_iff_toNat_le] at h
  rcases h with (⟨-, h⟩ | ⟨-, h⟩) | rfl
  · have hz : 'z'.val.toNat = 122 := rfl
    omega
  · have hz : 'Z'.val.toNat = 90 := rfl
    omega
  · decide

theorem isWord_of_isNameStart {c : Char} (h : isNameStart c = true) : isWord c = true := by
  unfold isWord isAsciiWord
  rw [if_pos (isNameStart_ascii h), h, Bool.true_or]

/-- A digit starts no name. -/
theorem isNameStart_of_isDigit {c : Char} (h : isDigit c = true) : isNameStart c = false := by
  cases hs : isNameStart c with
  | false => rfl
  | true =>
    have hd := ascii_all (p := fun c => isNameStart c = true → isDigit c = false) (by decide)
      (isNameStart_ascii hs) hs
    rw [h] at hd
    cases hd

/-- The blanks past ASCII, one by one. -/
def blankCodes : List Nat :=
  [0x85, 0xa0, 0x1680, 0x2000, 0x2001, 0x2002, 0x2003, 0x2004, 0x2005, 0x2006, 0x2007, 0x2008,
   0x2009, 0x200a, 0x2028, 0x2029, 0x202f, 0x205f, 0x3000]

theorem mem_blankCodes {c : Char} (h : isBlank c = true) (hc : ¬ c.toNat < 128) :
    c.toNat ∈ blankCodes := by
  unfold isBlank at h
  rw [if_neg hc] at h
  simp only [Runs.contains, blankRuns, Runs.containsFrom] at h
  simp [blankCodes] at h ⊢
  omega

/-- Blanks belong to no word. -/
theorem isWord_of_isBlank {c : Char} (h : isBlank c = true) : isWord c = false := by
  by_cases hc : c.toNat < 128
  · exact ascii_all (p := fun c => isBlank c = true → isWord c = false) (by decide) hc h
  · have hw : ∀ code ∈ blankCodes, wordRuns.contains code = false := by decide +kernel
    unfold isWord
    rw [if_neg hc]
    exact hw _ (mem_blankCodes h hc)

/-! ## Texts by kind -/

/-- A letter or underscore and word characters after it. -/
inductive WordText : List Char → Prop
  | mk {c : Char} {rest : List Char} :
    isNameStart c = true → (∀ d ∈ rest, isWord d = true) → WordText (c :: rest)

/-- An exponent, or nothing. -/
inductive ExponentText : List Char → Prop
  | none : ExponentText []
  | some {mark : Char} {sign digits : List Char} :
    mark = 'e' ∨ mark = 'E' → sign ∈ [[], ['+'], ['-']] → digits ≠ [] →
    (∀ d ∈ digits, isDigit d = true) → ExponentText (mark :: (sign ++ digits))

/-- A number: digits, a point and more digits or neither, and an exponent or none. -/
inductive NumberText : List Char → Prop
  | whole {digits exponent : List Char} :
    digits ≠ [] → (∀ d ∈ digits, isDigit d = true) → ExponentText exponent →
    NumberText (digits ++ exponent)
  | point {digits fraction exponent : List Char} :
    digits ≠ [] → (∀ d ∈ digits, isDigit d = true) → (∀ d ∈ fraction, isDigit d = true) →
    ExponentText exponent → NumberText (digits ++ '.' :: (fraction ++ exponent))

/-- One character or one backslash pair in single quotes. -/
inductive CharText : List Char → Prop
  | pair {c : Char} : c ≠ '\n' → CharText ['\'', '\\', c, '\'']
  | plain {c : Char} : c ≠ '\'' → c ≠ '\\' → CharText ['\'', c, '\'']

/-- What follows the opening quote of a string literal, with its closing quote. -/
inductive StringBody : List Char → Prop
  | close : StringBody ['"']
  | pair {c : Char} {rest : List Char} : c ≠ '\n' → StringBody rest → StringBody ('\\' :: c :: rest)
  | plain {c : Char} {rest : List Char} :
    c ≠ '"' → c ≠ '\\' → c ≠ '\n' → StringBody rest → StringBody (c :: rest)

/-- A directive that includes the header with this path. -/
def HeaderText (path cs : List Char) : Prop :=
  ∃ gap, (∀ c ∈ gap, isBlank c = true) ∧ path ≠ [] ∧ '>' ∉ path ∧
    cs = "#include".toList ++ gap ++ '<' :: (path ++ ['>'])

/-- The texts of a kind. Of the signs it matters only that no word goes on after them. -/
def TextOf : Kind → List Char → Prop
  | .header, cs => ∃ path, HeaderText path cs
  | .keyword, cs => String.ofList cs ∈ keywords
  | .identifier, cs => WordText cs
  | .number, cs => NumberText cs
  | .char, cs => CharText cs
  | .string, cs => ∃ body, cs = '"' :: body ∧ StringBody body
  | .stream, cs | .operator, cs | .scope, cs | .delimiter, cs => ∀ c ∈ cs, isWord c = false

/-! ## What the rules take -/

section

variable {piece after : List Char}

/-- A run that ends inside the text it is taken from. -/
theorem run_append {p : Char → Bool} (hp : ∀ c ∈ piece, p c = true)
    (ha : ∀ c ∈ after.head?, p c = false) : run p (piece ++ after) = piece.length := by
  unfold run
  rw [List.takeWhile_append_of_pos hp]
  cases after with
  | nil => simp
  | cons c rest => simp [ha c rfl]

/-- What a run that is as long as the piece says about the piece and the text after it. -/
theorem of_run_eq {p : Char → Bool} (h : run p (piece ++ after) = piece.length) :
    (∀ c ∈ piece, p c = true) ∧ ∀ c ∈ after.head?, p c = false := by
  have ht : (piece ++ after).takeWhile p = piece := by rw [← take_run, h, List.take_left]
  have hd : (piece ++ after).dropWhile p = after := by rw [← drop_run, h, List.drop_left]
  refine ⟨fun c hc => List.mem_takeWhile_imp (ht ▸ hc), fun c hc => ?_⟩
  have := List.head?_dropWhile_not p (piece ++ after)
  rw [hd] at this
  cases after with
  | nil => cases hc
  | cons d rest => cases hc; simpa using this

theorem identifier_text (h : identifier (piece ++ after) = some piece.length) :
    WordText piece ∧ ∀ c ∈ after.head?, isWord c = false := by
  cases piece with
  | nil => exact absurd (identifier_measured _ _ h).1 (by simp)
  | cons c rest =>
    rw [List.cons_append, identifier] at h
    split at h
    · rename_i hc
      have hr : run isWord (rest ++ after) = rest.length := by
        have := Option.some.inj h
        rw [List.length_cons] at this
        omega
      exact ⟨.mk hc (of_run_eq hr).1, (of_run_eq hr).2⟩
    · cases h

theorem keyword_text {before : Option Char}
    (h : keyword before (piece ++ after) = some piece.length) :
    String.ofList piece ∈ keywords ∧ ∀ c ∈ after.head?, isWord c = false := by
  unfold keyword at h
  split at h
  · cases h
  · dsimp only at h
    split at h
    · rename_i hk
      have hr : run isWord (piece ++ after) = piece.length := Option.some.inj h
      rw [← take_run, hr, List.take_left] at hk
      exact ⟨by simpa using hk, (of_run_eq hr).2⟩
    · cases h

/-- The length of a sign, if there is one. -/
def signLength : List Char → Nat
  | '+' :: _ | '-' :: _ => 1
  | _ => 0

/-- The length of a point, if there is one. -/
def pointLength : List Char → Nat
  | '.' :: _ => 1
  | _ => 0

theorem exponent_cons (mark : Char) (rest : List Char) : exponent (mark :: rest) =
    if mark == 'e' || mark == 'E' then
      match run isDigit (rest.drop (signLength rest)) with
      | 0 => 0
      | digits => 1 + signLength rest + digits
    else 0 := by
  unfold signLength
  rfl

theorem number_eq (cs : List Char) : number cs =
    match run isDigit cs with
    | 0 => none
    | whole =>
      let rest := cs.drop whole
      let fraction := run isDigit (rest.drop (pointLength rest))
      some (whole + pointLength rest + fraction +
        exponent (rest.drop (pointLength rest + fraction))) := by
  unfold pointLength
  rfl

theorem take_signLength (cs : List Char) : cs.take (signLength cs) ∈ [[], ['+'], ['-']] := by
  unfold signLength
  split <;> simp

theorem take_pointLength (cs : List Char) :
    cs.take (pointLength cs) = [] ∧ pointLength cs = 0 ∨ cs.take (pointLength cs) = ['.'] := by
  unfold pointLength
  split <;> simp

theorem exponent_text (cs : List Char) : ExponentText (cs.take (exponent cs)) := by
  cases cs with
  | nil => exact .none
  | cons mark rest =>
    rw [exponent_cons]
    split
    · rename_i hm
      split
      · exact .none
      · rename_i hn
        rw [Nat.add_assoc, Nat.add_comm 1, List.take_succ_cons, List.take_add, take_run]
        refine .some (by simpa using hm) (take_signLength rest) (fun h0 => hn ?_) fun d hd => ?_
        · rw [run, h0, List.length_nil]
        · exact List.mem_takeWhile_imp hd
    · exact .none

/-- After all the digits at the front there is none. -/
theorem run_drop_run (p : Char → Bool) (cs : List Char) : run p (cs.drop (run p cs)) = 0 := by
  have h := List.head?_dropWhile_not p cs
  rw [drop_run, run]
  cases hd : cs.dropWhile p with
  | nil => rfl
  | cons c rest =>
    rw [hd] at h
    have hc : p c = false := by simpa using h
    rw [List.takeWhile_cons_of_neg (by simp [hc]), List.length_nil]

theorem number_text (h : number (piece ++ after) = some piece.length) : NumberText piece := by
  rw [number_eq] at h
  split at h
  · cases h
  · rename_i hw
    dsimp only at h
    have hl := Option.some.inj h
    -- the piece is the parts of the number, one after the other
    have hp : piece = (piece ++ after).take piece.length := List.take_left.symm
    generalize piece ++ after = cs at *
    have hd : ∀ d ∈ cs.takeWhile isDigit, isDigit d = true := fun d hd => List.mem_takeWhile_imp hd
    have hne : cs.takeWhile isDigit ≠ [] := fun h0 => hw (by rw [run, h0, List.length_nil])
    have hr := run_drop_run isDigit cs
    rw [hp, ← hl, Nat.add_assoc, Nat.add_assoc, List.take_add, take_run]
    generalize cs.drop (run isDigit cs) = rest at *
    rcases take_pointLength rest with ⟨-, hz⟩ | hpoint
    · rw [hz, List.drop_zero, hr]
      simp only [Nat.zero_add]
      exact .whole hne hd (exponent_text rest)
    · rw [List.take_add, hpoint, List.take_add, take_run, ← List.drop_drop,
        List.singleton_append]
      exact .point hne hd (fun d hd => List.mem_takeWhile_imp hd) (exponent_text _)

theorem charLiteral_text (h : charLiteral (piece ++ after) = some piece.length) :
    CharText piece := by
  have hp : piece = (piece ++ after).take piece.length := List.take_left.symm
  generalize piece ++ after = cs at *
  rw [hp]
  unfold charLiteral at h
  split at h
  · rename_i c rest
    split at h
    · cases h
    · rename_i hc
      rw [← Option.some.inj h]
      exact .pair (by simpa using hc)
  · rename_i c rest _
    split at h
    · cases h
    · rename_i hc
      rw [← Option.some.inj h]
      simp only [Bool.or_eq_true, beq_iff_eq, not_or] at hc
      exact .plain hc.1 hc.2
  · cases h

theorem stringRest_text {cs : List Char} {n : Nat} (h : stringRest cs = some n) :
    StringBody (cs.take n) := by
  fun_induction stringRest cs generalizing n with
  | case1 rest =>
    cases h
    exact .close
  | case2 => cases h
  | case3 c rest hc ih =>
    obtain ⟨m, hm, rfl⟩ := Option.map_eq_some_iff.1 h
    exact .pair (by simpa using hc) (ih hm)
  | case4 => cases h
  | case5 c rest hq hb hc ih =>
    obtain ⟨m, hm, rfl⟩ := Option.map_eq_some_iff.1 h
    simp only [Bool.or_eq_true, beq_iff_eq, not_or] at hc
    exact .plain hq hc.2 hc.1 (ih hm)
  | case6 => cases h

theorem stringLiteral_text (h : stringLiteral (piece ++ after) = some piece.length) :
    ∃ body, piece = '"' :: body ∧ StringBody body := by
  have hp : piece = (piece ++ after).take piece.length := List.take_left.symm
  generalize piece ++ after = cs at *
  rw [hp]
  unfold stringLiteral at h
  split at h
  · rename_i rest
    obtain ⟨m, hm, he⟩ := Option.map_eq_some_iff.1 h
    exact ⟨rest.take m, by rw [← he, List.take_succ_cons], stringRest_text hm⟩
  · cases h

theorem bracketedPath_text {cs : List Char} {n : Nat} (h : bracketedPath cs = some n) :
    ∃ gap path, (∀ c ∈ gap, isBlank c = true) ∧ path ≠ [] ∧ '>' ∉ path ∧
      cs.take n = gap ++ '<' :: (path ++ ['>']) := by
  unfold bracketedPath at h
  dsimp only at h
  split at h
  · rename_i rest hrest
    split at h
    · rename_i m after hm hafter
      refine ⟨cs.takeWhile isBlank, rest.takeWhile (· != '>'),
        fun c hc => List.mem_takeWhile_imp hc, fun h0 => ?_, fun hc => ?_, ?_⟩
      · rw [run, h0, List.length_nil] at hm
        cases hm
      · simpa using List.mem_takeWhile_imp hc
      · rw [← Option.some.inj h, Nat.add_assoc, List.take_add, take_run, hrest,
          List.take_succ_cons, List.take_add, take_run, hafter, List.take_succ_cons, List.take_zero]
    · cases h
  · cases h

theorem headerDirective_text (h : headerDirective (piece ++ after) = some piece.length) :
    ∃ path, HeaderText path piece := by
  have hp : piece = (piece ++ after).take piece.length := List.take_left.symm
  generalize piece ++ after = cs at *
  rw [hp]
  unfold headerDirective at h
  split at h
  · obtain ⟨m, hm, he⟩ := Option.map_eq_some_iff.1 h
    obtain ⟨gap, path, hg, hpath, hc, ht⟩ := bracketedPath_text hm
    refine ⟨path, gap, hg, hpath, hc, ?_⟩
    rw [← he]
    simp only [List.take_succ_cons, ht]
    rfl
  · cases h

theorem oneOf_text {texts : List String} (ht : ∀ text ∈ texts, ∀ c ∈ text.toList, isWord c = false)
    (h : oneOf texts (piece ++ after) = some piece.length) : ∀ c ∈ piece, isWord c = false := by
  obtain ⟨text, hm, hp, hl⟩ := oneOf_eq_some h
  have he : text.toList = piece := by
    rw [List.prefix_iff_eq_take.1 hp, String.length_toList, hl, List.take_left]
  exact he ▸ ht text hm

/-- What the first rule takes is a text of its kind. -/
theorem firstMatch_text {before : Option Char} {kind : Kind}
    (h : firstMatch rules before (piece ++ after) = some (some kind, piece.length)) :
    TextOf kind piece := by
  obtain ⟨rule, hr, hk, hs⟩ := firstMatch_eq_some h
  simp only [rules, List.mem_cons, List.not_mem_nil, or_false] at hr
  rcases hr with rfl | rfl | rfl | rfl | rfl | rfl | rfl | rfl | rfl | rfl | rfl | rfl | rfl |
    rfl | rfl
  all_goals cases hk
  · exact headerDirective_text hs
  · exact (keyword_text hs).1
  · exact (identifier_text hs).1
  · exact number_text hs
  · exact charLiteral_text hs
  · exact stringLiteral_text hs
  all_goals exact oneOf_text (by decide) hs

/-! ## Where words end -/

/-- No word goes on from the character before a text into the text. -/
def Apart (before : Option Char) (cs : List Char) : Prop :=
  before.any isWord = true → ∀ c ∈ cs.head?, isWord c = false

theorem apart_of_getLast {c : Char} (hl : piece.getLast? = some c) (hc : isWord c = false) :
    Apart piece.getLast? after := by
  intro h
  rw [hl, Option.any_some, hc] at h
  cases h

theorem StringBody.getLast_eq {body : List Char} (h : StringBody body) :
    body.getLast? = some '"' := by
  induction h with
  | close => rfl
  | pair _ _ ih | plain _ _ _ _ ih => simp [List.getLast?_cons, ih]

theorem apart_of_signs (h : ∀ c ∈ piece, isWord c = false) : Apart piece.getLast? after := by
  intro ha
  cases hl : piece.getLast? with
  | none => rw [hl] at ha; cases ha
  | some c =>
    rw [hl, Option.any_some, h c (List.mem_of_getLast? hl)] at ha
    cases ha

theorem Skip.apart (h : Skip piece after) : Apart piece.getLast? after := by
  cases h with
  | blanks _ hb => exact apart_of_signs fun c hc => isWord_of_isBlank (hb c hc)
  | line _ hn =>
    intro _ c hc
    rw [hn c hc]
    decide
  | @block body _ _ =>
    refine apart_of_getLast (c := '/') ?_ (by decide)
    rw [← List.cons_append, ← List.cons_append, List.getLast?_append]
    rfl

/-- Only after a number can a word go on: every other kind ends where its last word does. -/
theorem firstMatch_apart {before : Option Char} {kind : Option Kind}
    (h : firstMatch rules before (piece ++ after) = some (kind, piece.length))
    (hk : kind ≠ some .number) : Apart piece.getLast? after := by
  cases kind with
  | none =>
    have hs := firstMatch_skip h
    rw [List.take_left, List.drop_left] at hs
    exact hs.apart
  | some kind =>
    have ht := firstMatch_text h
    cases kind with
    | number => exact absurd rfl hk
    | header =>
      obtain ⟨path, gap, -, -, -, rfl⟩ := ht
      refine apart_of_getLast (c := '>') ?_ (by decide)
      rw [← List.cons_append, ← List.append_assoc, List.getLast?_append]
      rfl
    | char =>
      cases ht <;> exact apart_of_getLast (c := '\'') rfl (by decide)
    | string =>
      obtain ⟨body, rfl, hb⟩ := ht
      refine apart_of_getLast (c := '"') ?_ (by decide)
      rw [List.getLast?_cons, hb.getLast_eq, Option.getD_some]
    | stream | operator | scope | delimiter => exact apart_of_signs ht
    | keyword | identifier =>
      -- words are taken whole
      obtain ⟨rule, hr, hk, hs⟩ := firstMatch_eq_some h
      simp only [rules, List.mem_cons, List.not_mem_nil, or_false] at hr
      intro _
      rcases hr with rfl | rfl | rfl | rfl | rfl | rfl | rfl | rfl | rfl | rfl | rfl | rfl | rfl |
        rfl | rfl <;> cases hk
      first | exact (keyword_text hs).2 | exact (identifier_text hs).2

/-- The rule for reserved words comes before the one for identifiers. -/
theorem keyword_of_firstMatch_identifier {before : Option Char} {cs : List Char} {n : Nat}
    (h : firstMatch rules before cs = some (some .identifier, n)) : keyword before cs = none := by
  have hsplit : rules = rules.take 4 ++ rules.drop 4 := (List.take_append_drop 4 rules).symm
  cases hfour : firstMatch (rules.take 4) before cs with
  | none => exact firstMatch_eq_none_iff.1 hfour ⟨some .keyword, keyword⟩ (by simp [rules])
  | some found =>
    have hf : firstMatch rules before cs = some found := by
      rw [firstMatch] at hfour ⊢
      rw [hsplit, List.findSome?_append, hfour, Option.some_or]
    rw [h] at hf
    cases hf
    obtain ⟨rule, hr, hk, -⟩ := firstMatch_eq_some hfour
    simp only [rules, List.take_succ_cons, List.take_zero, List.mem_cons, List.not_mem_nil,
      or_false] at hr
    rcases hr with rfl | rfl | rfl | rfl <;> cases hk

theorem NumberText.head {cs : List Char} (h : NumberText cs) :
    ∃ c rest, cs = c :: rest ∧ isDigit c = true := by
  cases h with
  | whole hne hd _ | point hne hd _ _ =>
    obtain ⟨c, rest, rfl⟩ := List.exists_cons_of_ne_nil hne
    exact ⟨c, _, rfl, hd c List.mem_cons_self⟩

theorem WordText.all_word (h : WordText piece) : ∀ c ∈ piece, isWord c = true := by
  cases h with
  | mk hc hr =>
    intro d hd
    rcases List.mem_cons.1 hd with rfl | hd
    · exact isWord_of_isNameStart hc
    · exact hr d hd

/-- The word at the front of a text that starts with a whole word. -/
theorem WordText.takeWhile_eq (h : WordText piece) (ha : ∀ c ∈ after.head?, isWord c = false) :
    (piece ++ after).takeWhile isWord = piece := by
  rw [← take_run, run_append h.all_word ha, List.take_left]

/-- An identifier that stands apart from what is before it is no reserved word. -/
theorem firstMatch_identifier {before : Option Char}
    (h : firstMatch rules before (piece ++ after) = some (some .identifier, piece.length))
    (ha : Apart before (piece ++ after)) : String.ofList piece ∉ keywords := by
  intro hk
  have ht : WordText piece := firstMatch_text h
  obtain ⟨c, rest, hc, hword⟩ : ∃ c rest, piece = c :: rest ∧ isWord c = true := by
    cases ht with
    | mk hc _ => exact ⟨_, _, rfl, isWord_of_isNameStart hc⟩
  have hlast : piece.getLast?.any isWord = true := by
    cases hl : piece.getLast? with
    | none => rw [hc] at hl; simp at hl
    | some d => exact ht.all_word d (List.mem_of_getLast? hl)
  have hbefore : before.any isWord = false := by
    cases hb : before.any isWord with
    | false => rfl
    | true => rw [← hword, ha hb c (by rw [hc]; rfl)]
  have hw := ht.takeWhile_eq (firstMatch_apart h (by simp) hlast)
  have hn := keyword_of_firstMatch_identifier h
  rw [keyword, hbefore, hw] at hn
  simp [hk] at hn

end

/-! ## The tokens of a text -/

/-- The text is one of the kind of the token, and all of it can be seen. -/
structure Genuine (t : Token) : Prop where
  text : TextOf t.kind t.text.toList
  visible : ∀ c ∈ t.text.toList, c ∉ invisibles

/-- Genuine tokens, where a reserved word is an identifier only right after a number. The flag says
whether a number stands before the first of them. -/
def Settled : (afterNumber : Bool) → List Token → Prop
  | _, [] => True
  | afterNumber, t :: rest =>
    t.Genuine ∧ (t.kind = .identifier → t.text ∈ keywords → afterNumber = true) ∧
      Settled (t.kind == .number) rest

theorem Settled.of_false {afterNumber : Bool} {ts : List Token} (h : Settled false ts) :
    Settled afterNumber ts := by
  cases ts with
  | nil => trivial
  | cons t rest => exact ⟨h.1, fun hk hw => absurd (h.2.1 hk hw) nofun, h.2.2⟩

theorem Settled.genuine {afterNumber : Bool} {t : Token} {ts : List Token}
    (h : Settled afterNumber ts) (ht : t ∈ ts) : t.Genuine := by
  induction ts generalizing afterNumber with
  | nil => cases ht
  | cons u rest ih =>
    cases ht with
    | head => exact h.1
    | tail _ ht => exact ih h.2.2 ht

theorem scanFrom_settled {offset : Nat} {before : Option Char} {cs : List Char}
    {tokens : List Token} {afterNumber : Bool} (hv : ∀ c ∈ cs, c ∉ invisibles)
    (ha : afterNumber = false → Apart before cs)
    (h : scanFrom offset before cs = .ok tokens) : Settled afterNumber tokens := by
  induction hn : cs.length using Nat.strong_induction_on
    generalizing offset before cs tokens afterNumber with
  | _ n ih =>
    cases cs with
    | nil =>
      rw [scanFrom_nil] at h
      cases h
      trivial
    | cons c rest =>
      cases hf : firstMatch rules before (c :: rest) with
      | none =>
        rw [scanFrom_stray _ hf] at h
        cases h
      | some taken =>
        obtain ⟨kind, length⟩ := taken
        obtain ⟨piece, after, hsplit, hpiece, rfl⟩ := firstMatch_split hf
        have hpos : 0 < piece.length := List.length_pos_iff.2 hpiece
        rw [hsplit] at hf hn hv ha h
        rw [scanFrom_piece _ hpiece hf] at h
        have hlt : after.length < n := by rw [← hn, List.length_append]; omega
        have hvafter : ∀ c ∈ after, c ∉ invisibles := fun c hc => hv c (List.mem_append_right _ hc)
        -- what was taken, a token or not, keeps the rest apart unless it is a number
        cases hscan : scanFrom (offset + piece.length) piece.getLast? after with
        | error _ => rw [hscan] at h; cases h
        | ok others =>
          rw [hscan] at h
          cases h
          cases kind with
          | none => exact (ih _ hlt hvafter (fun _ => firstMatch_apart hf nofun) hscan rfl).of_false
          | some kind =>
            refine ⟨⟨?_, ?_⟩, ?_, ?_⟩
            · rw [String.toList_ofList]
              exact firstMatch_text hf
            · rw [String.toList_ofList]
              exact fun c hc => hv c (List.mem_append_left _ hc)
            · intro hk hw
              cases hk
              cases afterNumber with
              | true => rfl
              | false => exact absurd hw (firstMatch_identifier hf (ha rfl))
            · refine ih _ hlt hvafter (fun hk => firstMatch_apart hf ?_) hscan rfl
              simpa using hk

/-- The tokens of a source text. -/
theorem scan_settled {source : String} {tokens : List Token}
    (h : scan (normalize invisibles source) = .ok tokens) : Settled false tokens := by
  refine scanFrom_settled (fun c hc => ?_) (fun _ hb => by cases hb) h
  have := (List.mem_filter.1 hc).2
  simpa using this

end ConsoleCpp.Token

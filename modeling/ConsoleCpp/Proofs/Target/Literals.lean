/-
What literals stand for. The source reads all the hexadecimal digits after `\x` and keeps the number
modulo 256; the generated literal is read with exactly two. Respelling drops backslashes and digits,
so each escape has to be looked at with what comes to stand right after it: it must not take in more
than before.
-/
import ConsoleCpp.Proofs.Token.Classes
import ConsoleCpp.Target.Literal
import Mathlib.Data.List.TakeWhile
import Mathlib.Tactic.SplitIfs

namespace ConsoleCpp.Target

open Text
open Token (Kind CharText StringBody TextOf)
open scoped Token

/-! ## The source's reading -/

/-- The characters that the text between the quotes of a source literal stands for: all hexadecimal
digits after `\x`, up to three octal digits, a letter, or else the escaped character itself. -/
def meaning : List Char → List Char
  | [] => []
  | ['\\'] => ['\\']
  | '\\' :: c :: rest =>
    if c == 'x' && rest.head?.any isHexDigit then
      Char.ofNat (hexNumber (rest.takeWhile isHexDigit) % 256) ::
        meaning (rest.dropWhile isHexDigit)
    else if isOctalDigit c then
      let digits := ((c :: rest).take 3).takeWhile isOctalDigit
      Char.ofNat (octalNumber digits) :: meaning (rest.drop (digits.length - 1))
    else (letterEscape? c).getD c :: meaning rest
  | c :: rest => c :: meaning rest
termination_by cs => cs.length
decreasing_by
  all_goals simp only [List.length_cons, List.length_drop]
  · have := (List.dropWhile_suffix isHexDigit (l := rest)).length_le
    omega
  all_goals omega

/-- The characters that stand right after the backslash of an escape. -/
def escapeMarks : List Char → List Char
  | [] => []
  | ['\\'] => []
  | '\\' :: c :: rest => c :: escapeMarks rest
  | _ :: rest => escapeMarks rest

/-! ## Between the quotes -/

/-- A text that can stand between two quotes: a backslash takes the next character with it. -/
inductive Within (quote : Char) : List Char → Prop
  | nil : Within quote []
  | pair {c : Char} {rest : List Char} : Within quote rest → Within quote ('\\' :: c :: rest)
  | plain {c : Char} {rest : List Char} :
    c ≠ quote → c ≠ '\\' → Within quote rest → Within quote (c :: rest)

variable {quote : Char} {body rest more chars digits : List Char} {c d : Char}

theorem Within.of_plain (hc : c ≠ '\\') (h : Within quote (c :: rest)) :
    c ≠ quote ∧ Within quote rest := by
  cases h with
  | pair _ => exact absurd rfl hc
  | plain hq _ h => exact ⟨hq, h⟩

/-- Characters that are no backslashes can go from the front. -/
theorem Within.of_append (hd : ∀ d ∈ digits, d ≠ '\\') (h : Within quote (digits ++ rest)) :
    Within quote rest := by
  induction digits with
  | nil => exact h
  | cons d digits ih =>
    obtain ⟨hd, hdigits⟩ := List.forall_mem_cons.1 hd
    exact ih hdigits (h.of_plain hd).2

/-- The text between the quotes of a string literal. -/
theorem within_of_stringBody (h : StringBody body) :
    ∃ inner, body = inner ++ ['"'] ∧ Within '"' inner := by
  induction h with
  | close => exact ⟨[], rfl, .nil⟩
  | pair _ _ ih =>
    obtain ⟨inner, rfl, hi⟩ := ih
    exact ⟨_, rfl, .pair hi⟩
  | plain hq hb _ _ ih =>
    obtain ⟨inner, rfl, hi⟩ := ih
    exact ⟨_, rfl, .plain hq hb hi⟩

/-- The text between the quotes of a character literal. -/
theorem within_of_charText {cs : List Char} (h : CharText cs) :
    ∃ inner, cs = '\'' :: (inner ++ ['\'']) ∧ Within '\'' inner := by
  cases h with
  | pair _ => exact ⟨_, rfl, .pair .nil⟩
  | plain hq hb => exact ⟨_, rfl, .plain hq hb .nil⟩

/-! ## Escapes one by one -/

/-- A text between two quotes, escape by escape as the source reads it. -/
inductive Escapes (quote : Char) : List Char → Prop
  | nil : Escapes quote []
  | plain {c : Char} {rest : List Char} :
    c ≠ quote → c ≠ '\\' → Escapes quote rest → Escapes quote (c :: rest)
  | hex {digits rest : List Char} :
    digits ≠ [] → (∀ d ∈ digits, isHexDigit d = true) → (∀ d ∈ rest.head?, isHexDigit d = false) →
    Escapes quote rest → Escapes quote ('\\' :: 'x' :: (digits ++ rest))
  | octal {digits rest : List Char} :
    digits ≠ [] → digits.length ≤ 3 → (∀ d ∈ digits, isOctalDigit d = true) →
    (digits.length = 3 ∨ ∀ d ∈ rest.head?, isOctalDigit d = false) → Escapes quote rest →
    Escapes quote ('\\' :: (digits ++ rest))
  | letter {c d : Char} {rest : List Char} :
    letterEscape? c = some d → Escapes quote rest → Escapes quote ('\\' :: c :: rest)
  | other {c : Char} {rest : List Char} :
    letterEscape? c = none → isOctalDigit c = false →
    (c == 'x' && rest.head?.any isHexDigit) = false → Escapes quote rest →
    Escapes quote ('\\' :: c :: rest)

/-- The target's reading of a text between two quotes, with no leniency: it has no bare quote, no
line end and no other escapes than those with two hexadecimal digits, with up to three octal digits
(as many as there are) and with one of the letters. -/
inductive Reads (quote : Char) : List Char → List Char → Prop
  | nil : Reads quote [] []
  | plain {c : Char} {rest chars : List Char} :
    c ∉ [quote, '\\', '\n', '\r'] → Reads quote rest chars → Reads quote (c :: rest) (c :: chars)
  | hex {a b : Char} {rest chars : List Char} :
    isHexDigit a = true → isHexDigit b = true → Reads quote rest chars →
    Reads quote ('\\' :: 'x' :: a :: b :: rest) (Char.ofNat (hexNumber [a, b]) :: chars)
  | octal {digits rest chars : List Char} :
    digits ≠ [] → digits.length ≤ 3 → (∀ d ∈ digits, isOctalDigit d = true) →
    (digits.length = 3 ∨ ∀ d ∈ rest.head?, isOctalDigit d = false) → Reads quote rest chars →
    Reads quote ('\\' :: (digits ++ rest)) (Char.ofNat (octalNumber digits) :: chars)
  | letter {c d : Char} {rest chars : List Char} :
    letterEscape? c = some d → Reads quote rest chars → Reads quote ('\\' :: c :: rest) (d :: chars)

/-! ## Digits -/

theorem isHexDigit_ne_backslash (h : isHexDigit c = true) : c ≠ '\\' := by
  rintro rfl
  cases h

theorem isOctalDigit_ne_backslash (h : isOctalDigit c = true) : c ≠ '\\' := by
  rintro rfl
  cases h

/-- The octal digits, one by one. -/
theorem mem_of_isOctalDigit (h : isOctalDigit c = true) : c ∈ "01234567".toList := by
  have hc : c.toNat < 128 := by
    have h7 : '7'.toNat = 55 := rfl
    simp only [isOctalDigit, Bool.and_eq_true, decide_eq_true_eq] at h
    omega
  exact Token.ascii_all (p := fun c => isOctalDigit c = true → c ∈ "01234567".toList)
    (by decide) hc h

theorem hexDigit_spec : ∀ n < 16, hexValue? (hexDigit n) = some n := by decide

/-- A number below 256 is read back from its two digits. -/
theorem hex_two {n : Nat} (hn : n < 256) : ∃ a b, hex 2 n = [a, b] ∧ isHexDigit a = true ∧
    isHexDigit b = true ∧ hexNumber [a, b] = n := by
  have ha := hexDigit_spec (n / 16 % 16) (Nat.mod_lt _ (by decide))
  have hb := hexDigit_spec (n % 16) (Nat.mod_lt _ (by decide))
  refine ⟨hexDigit (n / 16 % 16), hexDigit (n % 16), rfl, ?_, ?_, ?_⟩
  · rw [isHexDigit, ha]
    rfl
  · rw [isHexDigit, hb]
    rfl
  · simp only [hexNumber, List.foldl_cons, List.foldl_nil, ha, hb, Option.getD_some]
    omega

/-- The digits at the front of a text, up to a number of them. -/
theorem split_digits (p : Char → Bool) : ∀ (most : Nat) (cs : List Char), ∃ digits rest,
    cs = digits ++ rest ∧ digits.length ≤ most ∧ (∀ d ∈ digits, p d = true) ∧
      (digits.length = most ∨ ∀ d ∈ rest.head?, p d = false)
  | 0, cs => ⟨[], cs, rfl, Nat.le_refl _, nofun, .inl rfl⟩
  | most + 1, [] => ⟨[], [], rfl, Nat.zero_le _, nofun, .inr nofun⟩
  | most + 1, c :: cs => by
    by_cases hc : p c = true
    · obtain ⟨digits, rest, rfl, hl, hd, hr⟩ := split_digits p most cs
      refine ⟨c :: digits, rest, rfl, Nat.succ_le_succ hl, List.forall_mem_cons.2 ⟨hc, hd⟩, ?_⟩
      exact hr.imp (fun h => by rw [List.length_cons, h]) id
    · refine ⟨[], c :: cs, rfl, Nat.zero_le _, nofun, .inr ?_⟩
      rintro d hd
      cases hd
      simpa using hc

/-- All the digits at the front of a text that starts with one. -/
theorem split_all_digits {p : Char → Bool} {cs : List Char} (h : cs.head?.any p = true) :
    ∃ digits rest, cs = digits ++ rest ∧ digits ≠ [] ∧ (∀ d ∈ digits, p d = true) ∧
      ∀ d ∈ rest.head?, p d = false := by
  refine ⟨cs.takeWhile p, cs.dropWhile p, List.takeWhile_append_dropWhile.symm, ?_,
    fun d hd => List.mem_takeWhile_imp hd, fun d hd => ?_⟩
  · cases cs with
    | nil => cases h
    | cons c cs =>
      rw [List.takeWhile_cons_of_pos (show p c = true from h)]
      exact List.cons_ne_nil _ _
  · have hnot := List.head?_dropWhile_not p cs
    rw [hd] at hnot
    simpa using hnot

theorem takeWhile_digits {p : Char → Bool} (hd : ∀ d ∈ digits, p d = true)
    (hr : ∀ d ∈ rest.head?, p d = false) :
    (digits ++ rest).takeWhile p = digits ∧ (digits ++ rest).dropWhile p = rest := by
  rw [List.takeWhile_append_of_pos hd, List.dropWhile_append_of_pos hd]
  cases rest with
  | nil => simp
  | cons c rest => simp [hr c rfl]

theorem Within.escapes (h : Within quote body) : Escapes quote body := by
  induction hn : body.length using Nat.strong_induction_on generalizing body with
  | _ n ih =>
    subst hn
    cases h with
    | nil => exact .nil
    | plain hq hb h => exact .plain hq hb (ih _ (Nat.lt_succ_self _) h rfl)
    | @pair c rest h =>
      -- the digits of an escape hide no backslash, so what follows them is again such a text
      have hafter : ∀ {digits more : List Char}, (∀ d ∈ digits, d ≠ '\\') → rest = digits ++ more →
          Escapes quote more := by
        rintro digits more hd rfl
        refine ih _ ?_ (h.of_append hd) rfl
        simp only [List.length_cons, List.length_append]
        omega
      have hrest : Escapes quote rest := ih _ (Nat.lt_succ_of_lt (Nat.lt_succ_self _)) h rfl
      by_cases hx : (c == 'x' && rest.head?.any isHexDigit) = true
      · obtain ⟨hc, hhead⟩ := Bool.and_eq_true_iff.1 hx
        obtain rfl : c = 'x' := by simpa using hc
        obtain ⟨digits, more, hsplit, hne, hd, hm⟩ := split_all_digits hhead
        rw [hsplit]
        exact .hex hne hd hm (hafter (fun d h => isHexDigit_ne_backslash (hd d h)) hsplit)
      by_cases ho : isOctalDigit c = true
      · obtain ⟨digits, more, hsplit, hl, hd, hm⟩ := split_digits isOctalDigit 2 rest
        rw [hsplit]
        have hall : ∀ d ∈ c :: digits, isOctalDigit d = true := List.forall_mem_cons.2 ⟨ho, hd⟩
        refine .octal (List.cons_ne_nil c digits) (Nat.succ_le_succ hl) hall ?_ ?_
        · exact hm.imp (fun h => by rw [List.length_cons, h]) id
        · exact hafter (fun d h => isOctalDigit_ne_backslash (hd d h)) hsplit
      cases hl : letterEscape? c with
      | some d => exact .letter hl hrest
      | none => exact .other hl (by simpa using ho) (by simpa using hx) hrest

/-! ## Respelling, escape by escape -/

theorem respell_nil : respell [] = [] := by
  rw [respell]

theorem respell_plain (hc : c ≠ '\\') (rest : List Char) :
    respell (c :: rest) = c :: respell rest := by
  rw [respell]
  · exact fun h _ => hc h
  · exact fun _ _ h _ => hc h

theorem respell_plains (hd : ∀ d ∈ digits, d ≠ '\\') (rest : List Char) :
    respell (digits ++ rest) = digits ++ respell rest := by
  induction digits with
  | nil => rfl
  | cons d digits ih =>
    obtain ⟨hd, hdigits⟩ := List.forall_mem_cons.1 hd
    rw [List.cons_append, respell_plain hd, ih hdigits, List.cons_append]

theorem respell_hex (hne : digits ≠ []) (hd : ∀ d ∈ digits, isHexDigit d = true)
    (hr : ∀ d ∈ rest.head?, isHexDigit d = false) : respell ('\\' :: 'x' :: (digits ++ rest)) =
      '\\' :: 'x' :: (hex 2 (hexNumber digits % 256) ++ respell rest) := by
  obtain ⟨htake, hdrop⟩ := takeWhile_digits hd hr
  have hhead : (digits ++ rest).head?.any isHexDigit = true := by
    cases digits with
    | nil => exact absurd rfl hne
    | cons d digits => exact hd d (.head _)
  rw [respell, hhead, htake, hdrop]
  rfl

/-- An escape that both languages have keeps its backslash. -/
theorem respell_shared (hc : c ∈ sharedEscapes) (rest : List Char) :
    respell ('\\' :: c :: rest) = '\\' :: c :: respell rest := by
  have hx : (c == 'x') = false := by
    rw [beq_eq_false_iff_ne]
    rintro rfl
    exact absurd hc (by decide)
  rw [respell, hx, Bool.false_and, if_neg Bool.false_ne_true, if_pos (by simp [hc])]

/-- The backslash of an escape that only the source has goes. -/
theorem respell_other (hc : c ∉ sharedEscapes) (hn : c ≠ '\n')
    (hx : (c == 'x' && rest.head?.any isHexDigit) = false) :
    respell ('\\' :: c :: rest) = c :: respell rest := by
  rw [respell, hx, if_neg Bool.false_ne_true, if_neg (by simp [hc, hn])]

/-- A line end keeps its backslash. -/
theorem respell_lineEnd (rest : List Char) :
    respell ('\\' :: '\n' :: rest) = '\\' :: '\n' :: respell rest := by
  rw [respell]
  rfl

theorem shared_of_isOctalDigit (h : isOctalDigit c = true) : c ∈ sharedEscapes :=
  List.mem_of_mem_drop (i := 12) (mem_of_isOctalDigit h)

theorem shared_of_letterEscape (h : letterEscape? c = some d) : c ∈ sharedEscapes := by
  unfold letterEscape? at h
  split at h
  all_goals first | decide | cases h

theorem letterEscape_not_digit (h : letterEscape? c = some d) :
    isOctalDigit c = false ∧ (c == 'x') = false := by
  unfold letterEscape? at h
  split at h
  all_goals first | decide | cases h

/-- What both languages have after a backslash: a letter, `u`, `U` or an octal digit. -/
theorem mem_sharedEscapes (h : c ∈ sharedEscapes) :
    (letterEscape? c).isSome ∨ c = 'u' ∨ c = 'U' ∨ isOctalDigit c = true := by
  have hall : ∀ c ∈ sharedEscapes,
      ((letterEscape? c).isSome || c == 'u' || c == 'U' || isOctalDigit c) = true := by decide
  simpa [or_assoc] using hall c h

/-- The closing quote stays where it is: no escape of the text takes it in. -/
theorem Escapes.respell_close (hq : quote = '"' ∨ quote = '\'') (h : Escapes quote body) :
    respell (body ++ [quote]) = respell body ++ [quote] := by
  have hb : quote ≠ '\\' := by rcases hq with rfl | rfl <;> decide
  have hx : isHexDigit quote = false := by rcases hq with rfl | rfl <;> rfl
  induction h with
  | nil => rw [List.nil_append, respell_plain hb, respell_nil, List.nil_append]
  | plain _ hb _ ih =>
    rw [List.cons_append, respell_plain hb, respell_plain hb, ih]
    rfl
  | @hex digits rest hne hd hr _ ih =>
    have hr' : ∀ d ∈ (rest ++ [quote]).head?, isHexDigit d = false := by
      cases rest with
      | nil => exact fun d hd => by cases hd; exact hx
      | cons c rest => exact hr
    rw [List.cons_append, List.cons_append, List.append_assoc, respell_hex hne hd hr',
      respell_hex hne hd hr, ih]
    simp
  | @octal digits rest hne _ hd _ _ ih =>
    obtain ⟨c, digits, rfl⟩ := List.exists_cons_of_ne_nil hne
    obtain ⟨hc, hdigits⟩ := List.forall_mem_cons.1 hd
    -- respelling looks at the first digit only and takes the others for plain characters
    have hplain : ∀ d ∈ digits, d ≠ '\\' := fun d h => isOctalDigit_ne_backslash (hdigits d h)
    rw [List.cons_append, List.cons_append, List.cons_append,
      respell_shared (shared_of_isOctalDigit hc), respell_shared (shared_of_isOctalDigit hc),
      List.append_assoc, respell_plains hplain, respell_plains hplain, ih]
    simp
  | letter hl _ ih =>
    rw [List.cons_append, List.cons_append, respell_shared (shared_of_letterEscape hl),
      respell_shared (shared_of_letterEscape hl), ih]
    rfl
  | @other c rest _ _ hc _ ih =>
    -- a quote is no hexadecimal digit, so an `x` at the end has none after it either way
    have hx' : (c == 'x' && (rest ++ [quote]).head?.any isHexDigit) = false := by
      cases rest with
      | nil => rw [List.nil_append, List.head?_cons, Option.any_some, hx, Bool.and_false]
      | cons d rest => exact hc
    rw [List.cons_append, List.cons_append]
    by_cases hs : c ∈ sharedEscapes
    · rw [respell_shared hs, respell_shared hs, ih]
      rfl
    by_cases hn : c = '\n'
    · rw [hn, respell_lineEnd, respell_lineEnd, ih]
      rfl
    · rw [respell_other hs hn hx', respell_other hs hn hc, ih]
      rfl

/-! ## Generated text between quotes -/

/-- A text in quotes of which none but the last ends it. -/
def Delimited (cs : List Char) : Prop :=
  ∃ quote inner, (quote = '"' ∨ quote = '\'') ∧ cs = quote :: (inner ++ [quote]) ∧
    Within quote inner

theorem Within.append (h₁ : Within quote body) (h₂ : Within quote rest) :
    Within quote (body ++ rest) := by
  induction h₁ with
  | nil => exact h₂
  | pair _ ih => exact .pair ih
  | plain hq hb _ ih => exact .plain hq hb ih

theorem Within.of_ordinary (h : ∀ d ∈ digits, d ≠ '\\' ∧ d ≠ quote) : Within quote digits := by
  induction digits with
  | nil => exact .nil
  | cons d digits ih =>
    obtain ⟨hd, hdigits⟩ := List.forall_mem_cons.1 h
    exact .plain hd.2 hd.1 (ih hdigits)

/-- Hexadecimal digits are neither quotes nor backslashes. -/
theorem within_hex (hq : quote = '"' ∨ quote = '\'') (width n : Nat) :
    Within quote (hex width n) := by
  have hdigit : ∀ n < 16, hexDigit n ≠ '\\' ∧ hexDigit n ≠ '"' ∧ hexDigit n ≠ '\'' := by decide
  induction width generalizing n with
  | zero => exact .nil
  | succ width ih =>
    obtain ⟨hb, hd, hs⟩ := hdigit (n % 16) (Nat.mod_lt _ (by decide))
    refine (ih (n / 16)).append (.plain ?_ hb .nil)
    rcases hq with rfl | rfl
    · exact hd
    · exact hs

theorem within_quotedChar (hq : quote = '"' ∨ quote = '\'') (c : Char) :
    Within quote (quotedChar quote c) := by
  have hhex (mark : Char) (width n : Nat) : Within quote ('\\' :: mark :: hex width n) :=
    .pair (within_hex hq width n)
  unfold quotedChar
  split_ifs with hc
  · exact .pair .nil
  · exact .pair .nil
  · exact .pair .nil
  · exact .pair .nil
  · simp only [Bool.or_eq_true, beq_iff_eq, not_or] at hc
    exact .plain hc.2 hc.1 .nil
  · exact hhex _ _ _
  · exact hhex _ _ _
  · exact hhex _ _ _

theorem delimited_quoted (name : String) : Delimited (quoted name).toList := by
  have hq : quoteFor name.toList = '"' ∨ quoteFor name.toList = '\'' := by
    unfold quoteFor
    split
    · exact .inl rfl
    · exact .inr rfl
  have hw : ∀ cs : List Char,
      Within (quoteFor name.toList) (cs.flatMap (quotedChar (quoteFor name.toList))) := by
    intro cs
    induction cs with
    | nil => exact .nil
    | cons c cs ih => exact (within_quotedChar hq c).append ih
  refine ⟨_, _, hq, ?_, hw name.toList⟩
  rw [quoted, String.toList_ofList]

/-- Respelling takes no quote and no backslash out of its escape. -/
theorem Escapes.within_respell (hq : quote = '"' ∨ quote = '\'') (h : Escapes quote body) :
    Within quote (respell body) := by
  induction h with
  | nil =>
    rw [respell_nil]
    exact .nil
  | plain hquote hb _ ih =>
    rw [respell_plain hb]
    exact .plain hquote hb ih
  | hex hne hd hr _ ih =>
    rw [respell_hex hne hd hr]
    exact .pair ((within_hex hq 2 _).append ih)
  | @octal digits rest hne _ hd _ _ ih =>
    obtain ⟨c, digits, rfl⟩ := List.exists_cons_of_ne_nil hne
    obtain ⟨hc, hdigits⟩ := List.forall_mem_cons.1 hd
    have hplain : ∀ d ∈ digits, d ≠ '\\' ∧ d ≠ quote := by
      refine fun d hm => ⟨isOctalDigit_ne_backslash (hdigits d hm), ?_⟩
      rintro rfl
      rcases hq with rfl | rfl <;> cases hdigits _ hm
    rw [List.cons_append, respell_shared (shared_of_isOctalDigit hc),
      respell_plains fun d hm => (hplain d hm).1]
    exact .pair ((Within.of_ordinary hplain).append ih)
  | letter hl _ ih =>
    rw [respell_shared (shared_of_letterEscape hl)]
    exact .pair ih
  | @other c rest hl _ hx _ ih =>
    by_cases hs : c ∈ sharedEscapes
    · rw [respell_shared hs]
      exact .pair ih
    by_cases hn : c = '\n'
    · rw [hn, respell_lineEnd]
      exact .pair ih
    · rw [respell_other hs hn hx]
      refine .plain ?_ ?_ ih
      · rintro rfl
        rcases hq with rfl | rfl <;> cases hl
      · rintro rfl
        cases hl

/-! ## The source's reading, escape by escape -/

theorem meaning_nil : meaning [] = [] := by
  rw [meaning]

theorem meaning_plain (hc : c ≠ '\\') (rest : List Char) :
    meaning (c :: rest) = c :: meaning rest := by
  rw [meaning]
  · exact fun h _ => hc h
  · exact fun _ _ h _ => hc h

theorem meaning_hex (hne : digits ≠ []) (hd : ∀ d ∈ digits, isHexDigit d = true)
    (hr : ∀ d ∈ rest.head?, isHexDigit d = false) : meaning ('\\' :: 'x' :: (digits ++ rest)) =
      Char.ofNat (hexNumber digits % 256) :: meaning rest := by
  obtain ⟨htake, hdrop⟩ := takeWhile_digits hd hr
  have hhead : (digits ++ rest).head?.any isHexDigit = true := by
    cases digits with
    | nil => exact absurd rfl hne
    | cons d digits => exact hd d (.head _)
  rw [meaning, hhead, htake, hdrop]
  rfl

/-- The digits of an octal escape are found again in the text. -/
theorem takeWhile_octal (hl : digits.length ≤ 3) (hd : ∀ d ∈ digits, isOctalDigit d = true)
    (hr : digits.length = 3 ∨ ∀ d ∈ rest.head?, isOctalDigit d = false) :
    ((digits ++ rest).take 3).takeWhile isOctalDigit = digits := by
  rw [List.take_append, List.take_of_length_le hl]
  rcases hr with hr | hr
  · rw [hr, Nat.sub_self, List.take_zero, List.append_nil]
    exact List.takeWhile_eq_self_iff.2 hd
  · refine (takeWhile_digits hd fun d hm => hr d ?_).1
    rw [List.head?_take] at hm
    split at hm
    · cases hm
    · exact hm

theorem meaning_octal (hne : digits ≠ []) (hl : digits.length ≤ 3)
    (hd : ∀ d ∈ digits, isOctalDigit d = true)
    (hr : digits.length = 3 ∨ ∀ d ∈ rest.head?, isOctalDigit d = false) :
    meaning ('\\' :: (digits ++ rest)) = Char.ofNat (octalNumber digits) :: meaning rest := by
  have htake := takeWhile_octal hl hd hr
  obtain ⟨c, digits, rfl⟩ := List.exists_cons_of_ne_nil hne
  have hx : (c == 'x') = false := by
    rw [beq_eq_false_iff_ne]
    rintro rfl
    exact absurd (hd 'x' (.head _)) (by decide)
  rw [List.cons_append] at htake ⊢
  rw [meaning, hx, Bool.false_and, if_neg Bool.false_ne_true, if_pos (hd c (.head _)), htake]
  dsimp only
  rw [List.length_cons, Nat.add_sub_cancel, List.drop_left]

theorem meaning_single (ho : isOctalDigit c = false)
    (hx : (c == 'x' && rest.head?.any isHexDigit) = false) :
    meaning ('\\' :: c :: rest) = (letterEscape? c).getD c :: meaning rest := by
  rw [meaning, hx, ho, if_neg Bool.false_ne_true, if_neg Bool.false_ne_true]

/-! ## The target's reading -/

/-- A text that does not start with an octal digit does not come to start with one. -/
theorem Escapes.head_respell (h : Escapes quote body) (hn : ∀ c ∈ body, c ≠ '\n')
    (hb : ∀ d ∈ body.head?, isOctalDigit d = false) :
    ∀ d ∈ (respell body).head?, isOctalDigit d = false := by
  have hslash : isOctalDigit '\\' = false := rfl
  cases h with
  | nil => rw [respell_nil]; exact nofun
  | plain _ hc _ => rw [respell_plain hc]; exact hb
  | hex hne hd hr _ => rw [respell_hex hne hd hr]; exact hb
  | @octal digits rest hne _ hd _ _ =>
    obtain ⟨c, digits, rfl⟩ := List.exists_cons_of_ne_nil hne
    rw [List.cons_append, respell_shared (shared_of_isOctalDigit (hd c (.head _)))]
    exact hb
  | letter hl _ => rw [respell_shared (shared_of_letterEscape hl)]; exact hb
  | @other c rest _ ho hx _ =>
    by_cases hs : c ∈ sharedEscapes
    · rw [respell_shared hs]; exact hb
    · rw [respell_other hs (hn c (by simp)) hx]
      rintro d hd
      cases hd
      exact ho

theorem escapeMarks_plain (hc : c ≠ '\\') (rest : List Char) :
    escapeMarks (c :: rest) = escapeMarks rest := by
  rw [escapeMarks]
  · exact fun h _ => hc h
  · exact fun _ _ h _ => hc h

theorem escapeMarks_pair (c : Char) (rest : List Char) :
    escapeMarks ('\\' :: c :: rest) = c :: escapeMarks rest := by
  rw [escapeMarks]

theorem escapeMarks_plains (hd : ∀ d ∈ digits, d ≠ '\\') (rest : List Char) :
    escapeMarks (digits ++ rest) = escapeMarks rest := by
  induction digits with
  | nil => rfl
  | cons d digits ih =>
    obtain ⟨hd, hdigits⟩ := List.forall_mem_cons.1 hd
    rw [List.cons_append, escapeMarks_plain hd, ih hdigits]

/-- The text has no line end, and none of its escapes gives a character by its code point. -/
structure Ordinary (body : List Char) : Prop where
  lines : ∀ c ∈ body, c ≠ '\n' ∧ c ≠ '\r'
  marks : ∀ c ∈ escapeMarks body, c ≠ 'u' ∧ c ≠ 'U'

theorem Ordinary.of_plains (hd : ∀ d ∈ digits, d ≠ '\\') (h : Ordinary (digits ++ rest)) :
    Ordinary rest :=
  ⟨fun c hc => h.lines c (List.mem_append_right _ hc), escapeMarks_plains hd rest ▸ h.marks⟩

theorem Ordinary.of_pair (h : Ordinary ('\\' :: c :: rest)) :
    ((c ≠ '\n' ∧ c ≠ '\r') ∧ c ≠ 'u' ∧ c ≠ 'U') ∧ Ordinary rest := by
  have hm := h.marks
  rw [escapeMarks_pair] at hm
  exact ⟨⟨h.lines c (by simp), hm c (.head _)⟩, fun d hd => h.lines d (by simp [hd]),
    fun d hd => hm d (.tail _ hd)⟩

/-- Respelled, a text is read as the source reads it. -/
theorem Escapes.reads (hq : quote = '"' ∨ quote = '\'') (h : Escapes quote body) :
    Ordinary body → Reads quote (respell body) (meaning body) := by
  induction h with
  | nil =>
    intro _
    rw [respell_nil, meaning_nil]
    exact .nil
  | @plain c rest hquote hb _ ih =>
    intro hn
    rw [respell_plain hb, meaning_plain hb]
    have hc : ∀ d ∈ [c], d ≠ '\\' := by simp [hb]
    refine .plain ?_ (ih (Ordinary.of_plains hc hn))
    simp [hquote, hb, hn.lines c (.head _)]
  | @hex digits rest hne hd hr _ ih =>
    intro hn
    obtain ⟨a, b, hab, ha, hb, hnumber⟩ :=
      hex_two (Nat.mod_lt (hexNumber digits) (by decide : 0 < 256))
    rw [respell_hex hne hd hr, meaning_hex hne hd hr, hab, ← hnumber]
    exact .hex ha hb (ih (hn.of_pair.2.of_plains fun d h => isHexDigit_ne_backslash (hd d h)))
  | @octal digits rest hne hl hd hr h ih =>
    intro hn
    have hplain : ∀ d ∈ digits, d ≠ '\\' := fun d h => isOctalDigit_ne_backslash (hd d h)
    have hrespell : respell ('\\' :: (digits ++ rest)) = '\\' :: (digits ++ respell rest) := by
      obtain ⟨c, digits, rfl⟩ := List.exists_cons_of_ne_nil hne
      rw [List.cons_append, respell_shared (shared_of_isOctalDigit (hd c (.head _))),
        respell_plains fun d h => hplain d (.tail _ h)]
      rfl
    have hordinary : Ordinary rest := by
      obtain ⟨c, digits, rfl⟩ := List.exists_cons_of_ne_nil hne
      exact hn.of_pair.2.of_plains fun d h => hplain d (.tail _ h)
    rw [hrespell, meaning_octal hne hl hd hr]
    -- the digits still end where they did
    exact .octal hne hl hd (hr.imp id (h.head_respell fun c hc => (hordinary.lines c hc).1))
      (ih hordinary)
  | letter hl _ ih =>
    intro hn
    obtain ⟨ho, hx⟩ := letterEscape_not_digit hl
    rw [respell_shared (shared_of_letterEscape hl), meaning_single ho (by rw [hx, Bool.false_and]),
      hl]
    exact .letter hl (ih hn.of_pair.2)
  | @other c rest hl ho hx _ ih =>
    intro hn
    obtain ⟨⟨⟨hnl, hcr⟩, hu, hU⟩, hrest⟩ := hn.of_pair
    have hs : c ∉ sharedEscapes := fun h => by
      rcases mem_sharedEscapes h with h | h | h | h
      · rw [hl] at h; cases h
      · exact hu h
      · exact hU h
      · rw [ho] at h; cases h
    rw [respell_other hs hnl hx, meaning_single ho hx, hl, Option.getD_none]
    -- quotes and backslashes have escapes of their own
    have hquote : c ≠ quote := by
      rintro rfl
      rcases hq with rfl | rfl <;> cases hl
    have hb : c ≠ '\\' := by
      rintro rfl
      cases hl
    exact .plain (by simp [hquote, hb, hnl, hcr]) (ih hrest)

/-- What the strict reading takes is read so. -/
theorem Reads.readBody (h : Reads quote body chars) :
    ∀ column, readBody column body = .ok chars := by
  induction h with
  | nil => intro column; rw [Target.readBody]
  | plain hc _ ih =>
    intro column
    simp only [List.mem_cons, not_or] at hc
    rw [Target.readBody, ih]
    · rfl
    · exact fun h _ => hc.2.1 h
    · exact fun _ _ h _ => hc.2.1 h
  | hex ha hb _ ih =>
    intro column
    rw [Target.readBody]
    simp [ih, Except.map]
  | @octal digits rest chars hne hl hd hr _ ih =>
    intro column
    have htake := takeWhile_octal hl hd hr
    obtain ⟨c, digits, rfl⟩ := List.exists_cons_of_ne_nil hne
    have hc := hd c (.head _)
    -- the marks of the other escapes are tried first
    have hmark : ∀ mark ∈ ['u', 'U', 'x'], (c == mark) = false := by
      intro mark hm
      rw [beq_eq_false_iff_ne]
      rintro rfl
      have hno : ∀ mark ∈ ['u', 'U', 'x'], isOctalDigit mark = false := by decide
      rw [hno c hm] at hc
      cases hc
    rw [List.cons_append] at htake ⊢
    rw [Target.readBody, hmark 'u' (by simp), hmark 'U' (by simp), hmark 'x' (by simp), hc, htake]
    simp [ih, Except.map]
  | @letter c d rest chars hl _ ih =>
    intro column
    obtain ⟨ho, hx⟩ := letterEscape_not_digit hl
    have hmark : (c == 'u' || c == 'U') = false := by
      rw [Bool.or_eq_false_iff, beq_eq_false_iff_ne, beq_eq_false_iff_ne]
      constructor
      · rintro rfl; cases hl
      · rintro rfl; cases hl
    rw [Target.readBody, hmark, hx, ho, hl]
    simp [ih, Except.map]

/-! ## Literals of a source -/

/-- The quotes around the literals of a kind. -/
def quoteOf : Kind → Option Char
  | .string => some '"'
  | .char => some '\''
  | _ => none

theorem bodyOf_eq {text : String} (h : text.toList = quote :: (body ++ [quote])) :
    bodyOf text = body := by
  rw [bodyOf, h, List.drop_one, List.tail_cons, List.dropLast_concat]

/-- A literal is its quotes and a text that can stand between them. -/
theorem literal_within {kind : Kind} {text : String} (h : TextOf kind text.toList)
    (hq : quoteOf kind = some quote) :
    (quote = '"' ∨ quote = '\'') ∧ text.toList = quote :: (bodyOf text ++ [quote]) ∧
      Within quote (bodyOf text) := by
  cases kind with
  | string =>
    cases hq
    obtain ⟨body, hbody, h⟩ := h
    obtain ⟨inner, rfl, hw⟩ := within_of_stringBody h
    rw [bodyOf_eq hbody]
    exact ⟨.inl rfl, hbody, hw⟩
  | char =>
    cases hq
    obtain ⟨inner, hinner, hw⟩ := within_of_charText h
    rw [bodyOf_eq hinner]
    exact ⟨.inr rfl, hinner, hw⟩
  | _ => cases hq

theorem literal_eq {text : String} (hquote : quote = '"' ∨ quote = '\'')
    (htext : text.toList = quote :: (body ++ [quote])) (hw : Within quote body) :
    (literal text).toList = quote :: (respell body ++ [quote]) := by
  have hne : quote ≠ '\\' := by rcases hquote with rfl | rfl <;> decide
  rw [literal, String.toList_ofList, htext, respell_plain hne, hw.escapes.respell_close hquote]

/-- A literal is generated in the quotes that it has in the source. -/
theorem delimited_literal (kind : Kind) {text : String} (h : TextOf kind text.toList)
    (hq : quoteOf kind = some quote) : Delimited (literal text).toList := by
  obtain ⟨hquote, htext, hw⟩ := literal_within h hq
  exact ⟨_, _, hquote, literal_eq hquote htext hw, hw.escapes.within_respell hquote⟩

/-- Whatever the source, a string or character literal in it that has no line end and gives no
character by its code point is generated as a literal in the same quotes. Nothing between these ends
the literal, and it is read strictly as what the source literal means; the run of a generated
program reads it so too. -/
theorem literal_meaning {source : String} {tokens : List Token} {t : Token} {quote : Char}
    (hscan : Token.scan (Token.normalize Token.invisibles source) = .ok tokens) (ht : t ∈ tokens)
    (hq : quoteOf t.kind = some quote) (hb : Ordinary (bodyOf t.text)) :
    t.text.toList = quote :: (bodyOf t.text ++ [quote]) ∧
      (literal t.text).toList = quote :: (bodyOf (literal t.text) ++ [quote]) ∧
      Reads quote (bodyOf (literal t.text)) (meaning (bodyOf t.text)) ∧
      readLiteral (literal t.text) = .ok (String.ofList (meaning (bodyOf t.text))) := by
  obtain ⟨hquote, htext, hw⟩ := literal_within ((Token.scan_settled hscan).genuine ht).text hq
  have hliteral := literal_eq hquote htext hw
  have hreads := hw.escapes.reads hquote hb
  rw [readLiteral, bodyOf_eq hliteral, hreads.readBody 0]
  exact ⟨htext, hliteral, hreads, rfl⟩

/-- A literal where what stands after each escape would go on with it if it could: a digit after
three hexadecimal digits, an octal digit after a dropped backslash, digits that are not octal or are
one too many, and at the end an escaped quote. -/
def crowdedLiteral : String := "\"\\x1041\\g\\08\\1234\\?\\\"\""

theorem literal_meaning_crowded :
    Token.scan (Token.normalize Token.invisibles crowdedLiteral) =
      .ok [⟨.string, crowdedLiteral, 0⟩] ∧
    Ordinary (bodyOf crowdedLiteral) ∧
    literal crowdedLiteral = "\"\\x41g\\08\\1234?\\\"\"" ∧
    Reads '"' (bodyOf (literal crowdedLiteral)) "Ag\x008S4?\"".toList := by
  have hscan : Token.scan (Token.normalize Token.invisibles crowdedLiteral) =
      .ok [⟨.string, crowdedLiteral, 0⟩] := by decide +kernel
  have hb : Ordinary (bodyOf crowdedLiteral) := ⟨by decide +kernel, by decide +kernel⟩
  have hmeaning : meaning (bodyOf crowdedLiteral) = "Ag\x008S4?\"".toList := by decide +kernel
  obtain ⟨-, -, hreads, -⟩ := literal_meaning hscan (.head _) rfl hb
  refine ⟨hscan, hb, by decide +kernel, ?_⟩
  rw [← hmeaning]
  exact hreads

end ConsoleCpp.Target

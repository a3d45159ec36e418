/-
Integer literals keep their value. In the source a zero in front makes a literal octal, unless there
is a digit 8 or 9 in it, and then it is decimal like any other; in the generated text every literal
is decimal, and a zero in front of other digits is refused. The value of digits is told by their
places, so the reading of the source, the conversion and the reading of the generated text are all
compared with the same sums. A number in another base is no longer in decimal than it was in octal,
which keeps the conversion within the limit on digits.
-/
import ConsoleCpp.Generate.Expression
import ConsoleCpp.Machine.Eval
import ConsoleCpp.Proofs.Number.Reading
import Mathlib.Data.Nat.Digits.Lemmas

namespace ConsoleCpp

/-! ## Place values -/

namespace Number

open Text (trimBoth isAsciiDigit)

/-- The number that the digits `0` to `9` write in a base: the last one counts units, and each one
before it the next power of the base. -/
def placeValue (base : Nat) (cs : List Char) : Nat :=
  Nat.ofDigits base (cs.reverse.map fun c => c.toNat - '0'.toNat)

section

variable {base : Nat} {c : Char} {cs : List Char}

theorem placeValue_nil : placeValue base [] = 0 := rfl

theorem placeValue_cons :
    placeValue base (c :: cs) = (c.toNat - '0'.toNat) * base ^ cs.length + placeValue base cs := by
  rw [placeValue, List.reverse_cons, List.map_append, Nat.ofDigits_append, List.length_map,
    List.length_reverse, List.map_singleton, Nat.ofDigits_singleton, Nat.add_comm, Nat.mul_comm]
  rfl

/-- Reading digits from the front adds up the same sum. -/
theorem foldl_digits (value : Char → Nat) (h : ∀ c ∈ cs, value c = c.toNat - '0'.toNat)
    (n : Nat) :
    cs.foldl (fun n c => base * n + value c) n = n * base ^ cs.length + placeValue base cs := by
  induction cs generalizing n with
  | nil => simp [placeValue_nil]
  | cons c cs ih =>
    obtain ⟨hc, hcs⟩ := List.forall_mem_cons.1 h
    calc (c :: cs).foldl (fun n c => base * n + value c) n
        = (base * n + value c) * base ^ cs.length + placeValue base cs := ih hcs _
      _ = n * base ^ (c :: cs).length +
            ((c.toNat - '0'.toNat) * base ^ cs.length + placeValue base cs) := by
          rw [hc, List.length_cons, Nat.pow_succ', Nat.add_mul]
          ring
      _ = n * base ^ (c :: cs).length + placeValue base (c :: cs) := by rw [placeValue_cons]

theorem placeValue_lt (hb : 1 < base) (h : ∀ c ∈ cs, c.toNat - '0'.toNat < base) :
    placeValue base cs < base ^ cs.length := by
  have hlt := Nat.ofDigits_lt_base_pow_length (b := base)
    (l := cs.reverse.map fun c => c.toNat - '0'.toNat) hb (by simpa using h)
  rwa [List.length_map, List.length_reverse] at hlt

theorem natOfDigits_eq (cs : List Char) : natOfDigits cs = placeValue 10 cs := by
  rw [natOfDigits, foldl_digits (fun c => c.toNat - '0'.toNat) fun _ _ => rfl,
    Nat.zero_mul, Nat.zero_add]

theorem placeValue_toDigits (n : Nat) : placeValue 10 (Nat.toDigits 10 n) = n := by
  rw [← natOfDigits_eq, natOfDigits_toDigits]

end

/-! ## Decimal literals -/

/-- Decimal digits with no zero in front, unless the zero is all there is. -/
structure DecimalLiteral (cs : List Char) : Prop where
  nonempty : cs ≠ []
  digits : ∀ c ∈ cs, c.isDigit
  plain : cs.head? = some '0' → cs = ['0']

/-- A printed number has no zero in front. -/
theorem head_toDigits (n : Nat) (h : (Nat.toDigits 10 n).head? = some '0') : n = 0 := by
  induction n using Nat.strongRecOn with
  | ind n ih =>
    by_cases hn : n < 10
    · rw [Nat.toDigits_of_lt_base hn, List.head?_cons, Option.some.injEq] at h
      have hvalue := Nat.toNat_digitChar_of_lt_ten hn
      rw [h] at hvalue
      have hzero : '0'.toNat = 48 := rfl
      omega
    · rw [Nat.toDigits_of_base_le (by decide) (Nat.not_lt.1 hn),
        List.head?_append_of_ne_nil _ Nat.toDigits_ne_nil] at h
      have := ih (n / 10) (by omega) h
      omega

theorem decimalLiteral_toDigits (n : Nat) : DecimalLiteral (Nat.toDigits 10 n) := by
  refine ⟨Nat.toDigits_ne_nil, isDigit_of_mem_toDigits, fun h => ?_⟩
  rw [head_toDigits n h]
  rfl

/-! ## Reading -/

/-- Digits are read as the number that they write. -/
theorem readInt_digits {s : String} (hne : s.toList ≠ []) (hd : ∀ c ∈ s.toList, c.isDigit)
    (hl : s.toList.length ≤ maxDigits) : readInt s = .value (placeValue 10 s.toList) := by
  have htrim : trimBoth isPadding s.toList = s.toList :=
    trimBoth_eq_self fun c hc => isPadding_of_isDigit (hd c hc)
  have hempty : s.toList.isEmpty = false := List.isEmpty_eq_false_iff.2 hne
  have hall : s.toList.all isAsciiDigit := by
    simpa using fun c hc => isAsciiDigit_of_isDigit (hd c hc)
  simp only [readInt, htrim, plainDigits_digits false hd, takeSign_digits hd, hempty, hall,
    natOfDigits_eq, Nat.not_lt.2 hl, signed, Bool.not_true, Bool.or_self, Bool.false_eq_true,
    if_false]

end Number

open Number (placeValue DecimalLiteral)

/-! ## Literals of the source -/

namespace Target

/-- The number that an integer literal of digits stands for in the source. -/
def integerValue (cs : List Char) : Nat :=
  if cs.head? = some '0' ∧ cs.all fun c => '0' ≤ c ∧ c ≤ '7' then placeValue 8 cs
  else placeValue 10 cs

section

variable {c : Char} {cs : List Char}

/-- The octal digits are those from `0` to `7`. -/
theorem all_isOctalDigit (cs : List Char) :
    cs.all isOctalDigit = cs.all fun c => '0' ≤ c ∧ c ≤ '7' := by
  have hdigit : isOctalDigit = fun c => decide ('0' ≤ c ∧ c ≤ '7') := by
    funext c
    simp [isOctalDigit, Char.le_def, UInt32.le_iff_toNat_le]
  rw [hdigit]

theorem octalValue_lt (h : isOctalDigit c = true) : c.toNat - '0'.toNat < 8 := by
  simp only [isOctalDigit, Bool.and_eq_true, decide_eq_true_eq] at h
  have hseven : '7'.toNat = 55 := rfl
  have hzero : '0'.toNat = 48 := rfl
  omega

theorem octalNumber_eq (cs : List Char) : octalNumber cs = placeValue 8 cs := by
  rw [octalNumber, Number.foldl_digits (fun c => c.toNat - '0'.toNat) fun _ _ => rfl,
    Nat.zero_mul, Nat.zero_add]

theorem decimalNumber_eq (h : ∀ c ∈ cs, c.isDigit) : decimalNumber cs = placeValue 10 cs := by
  rw [decimalNumber, Number.foldl_digits fun c => (Text.digitValue? c).getD 0,
    Nat.zero_mul, Nat.zero_add]
  intro c hc
  rw [Number.digitValue?_of_isDigit (h c hc), Option.getD_some]

/-- A zero with digits after it. -/
theorem hasLeadingZero_iff (h : ∀ c ∈ cs, c.isDigit) :
    hasLeadingZero cs = true ↔ cs.head? = some '0' ∧ cs ≠ ['0'] := by
  have hdigit : ∀ c ∈ cs, Text.isDigit c = true := by
    intro c hc
    rw [Text.isDigit, Number.digitValue?_of_isDigit (h c hc), Option.isSome_some]
  unfold hasLeadingZero
  split
  · next rest =>
    have hrest : rest.all Text.isDigit = true :=
      List.all_eq_true.2 fun c hc => hdigit c (List.mem_cons_of_mem _ hc)
    simp [hrest]
  · next hzero =>
    constructor
    · intro hfalse
      cases hfalse
    · rintro ⟨hhead, -⟩
      obtain ⟨rest, rfl⟩ := List.head?_eq_some_iff.1 hhead
      exact absurd rfl (hzero rest)

theorem integerValue_octal (hz : cs.head? = some '0') (ho : cs.all isOctalDigit = true) :
    integerValue cs = placeValue 8 cs := by
  rw [all_isOctalDigit] at ho
  exact if_pos ⟨hz, ho⟩

theorem integerValue_decimal (h : cs.head? = some '0' → cs.all isOctalDigit = false) :
    integerValue cs = placeValue 10 cs := by
  refine if_neg ?_
  rintro ⟨hz, ho⟩
  rw [← all_isOctalDigit, h hz] at ho
  cases ho

end

/-! ## Literals of the generated text -/

/-- A spelling that stands for the number in decimal, within the limit on digits. -/
structure Decimal (spelling : String) (n : Nat) : Prop where
  literal : DecimalLiteral spelling.toList
  short : spelling.toList.length ≤ Number.maxDigits
  value : placeValue 10 spelling.toList = n

theorem decimal_toString {n : Nat} (h : n < 10 ^ Number.maxDigits) : Decimal (toString n) n := by
  have hdigits : (toString n).toList = Nat.toDigits 10 n := Nat.toList_repr
  refine ⟨?_, ?_, ?_⟩
  · rw [hdigits]
    exact Number.decimalLiteral_toDigits n
  · rw [hdigits, Nat.length_toDigits_le_iff (by decide) (by decide)]
    exact h
  · rw [hdigits, Number.placeValue_toDigits]

/-- A literal of digits is spelled in decimal. -/
theorem numberLiteral_decimal {text : String} (hne : text.toList ≠ [])
    (hd : ∀ c ∈ text.toList, c.isDigit) (hl : text.toList.length ≤ Number.maxDigits) :
    ∃ spelling, numberLiteral text = .ok spelling ∧
      Decimal spelling (integerValue text.toList) := by
  have hroom : 10 ^ text.toList.length ≤ 10 ^ Number.maxDigits :=
    Nat.pow_le_pow_right (by decide) hl
  cases hz : hasLeadingZero text.toList with
  | true =>
    obtain ⟨hhead, -⟩ := (hasLeadingZero_iff hd).1 hz
    cases ho : text.toList.all isOctalDigit with
    | true =>
      have hvalue := integerValue_octal hhead ho
      have hlt : integerValue text.toList < 10 ^ Number.maxDigits := by
        have height : ∀ c ∈ text.toList, c.toNat - '0'.toNat < 8 := fun c hc =>
          octalValue_lt (List.all_eq_true.1 ho c hc)
        calc integerValue text.toList
            = placeValue 8 text.toList := hvalue
          _ < 8 ^ text.toList.length := Number.placeValue_lt (by decide) height
          _ ≤ 10 ^ text.toList.length := Nat.pow_le_pow_left (by decide) _
          _ ≤ 10 ^ Number.maxDigits := hroom
      have hdecimal := decimal_toString hlt
      refine ⟨_, ?_, hdecimal⟩
      have hshort := hdecimal.short
      rw [String.length_toList] at hshort
      simp only [numberLiteral, hz, ho, octalNumber_eq, ← hvalue, Nat.not_lt.2 hshort, if_true,
        if_false]
    | false =>
      have hvalue := integerValue_decimal fun _ => ho
      -- an eight or a nine makes it decimal, and it loses its zeros
      have hlt : integerValue text.toList < 10 ^ Number.maxDigits := by
        have hten : ∀ c ∈ text.toList, c.toNat - '0'.toNat < 10 := fun c hc =>
          Number.toNat_of_isAsciiDigit (Number.isAsciiDigit_of_isDigit (hd c hc))
        calc integerValue text.toList
            = placeValue 10 text.toList := hvalue
          _ < 10 ^ text.toList.length := Number.placeValue_lt (by decide) hten
          _ ≤ 10 ^ Number.maxDigits := hroom
      refine ⟨_, ?_, decimal_toString hlt⟩
      simp only [numberLiteral, hz, ho, decimalNumber_eq hd, ← hvalue, Nat.not_lt.2 hl, if_true,
        Bool.false_eq_true, if_false]
  | false =>
    have hplain : text.toList.head? = some '0' → text.toList = ['0'] := by
      intro hhead
      by_contra hne
      rw [(hasLeadingZero_iff hd).2 ⟨hhead, hne⟩] at hz
      cases hz
    -- the text is its own spelling
    refine ⟨text, ?_, ⟨hne, hd, hplain⟩, hl, ?_⟩
    · simp only [numberLiteral, hz, Bool.false_eq_true, if_false]
    · by_cases hhead : text.toList.head? = some '0'
      · rw [hplain hhead]
        rfl
      · exact (integerValue_decimal fun h => absurd h hhead).symm

end Target

namespace Machine

theorem isDecimal_of_isDigit {text : String} (h : ∀ c ∈ text.toList, c.isDigit) :
    ConsoleCpp.Expr.isDecimal text = false := by
  refine List.any_eq_false.2 fun c hc => ?_
  have hdigit := h c hc
  have hpoint : c ≠ '.' := by rintro rfl; cases hdigit
  have hsmall : c ≠ 'e' := by rintro rfl; cases hdigit
  have hlarge : c ≠ 'E' := by rintro rfl; cases hdigit
  simp [hpoint, hsmall, hlarge]

/-- What stands for a number in decimal is evaluated to that number. -/
theorem literalNumber_decimal {spelling : String} {n : Nat} (h : Target.Decimal spelling n) :
    literalNumber spelling = .int n := by
  have hread := Number.readInt_digits h.literal.nonempty h.literal.digits h.short
  simp only [literalNumber, isDecimal_of_isDigit h.literal.digits, hread, h.value,
    Bool.false_eq_true, if_false]

end Machine

namespace Generate

/-- An integer literal keeps its value. Any digits, as many as are converted at all, are generated
as a decimal literal without superfluous zeros, wherever an expression is generated; and its value,
told by the places of its digits and found when it is evaluated, is the one that the source gives to
the digits. -/
theorem integer_literal_value {text : String} (hne : text ≠ "")
    (hd : ∀ c ∈ text.toList, c.isDigit) (hl : text.length ≤ Number.maxDigits) :
    ∃ spelling,
      (∀ renames depth, depth < maxExpressionDepth →
        expr renames depth (.number text) = .ok (.number spelling)) ∧
      (Target.Expr.number spelling).spell = spelling ∧
      DecimalLiteral spelling.toList ∧
      placeValue 10 spelling.toList = Target.integerValue text.toList ∧
      ∀ call env, Machine.eval call env (.number spelling) =
        pure (.int (Target.integerValue text.toList)) := by
  have hnil : text.toList ≠ [] := fun h => hne (String.toList_eq_nil_iff.1 h)
  obtain ⟨spelling, hspelling, hdecimal⟩ :=
    Target.numberLiteral_decimal hnil hd (by rwa [String.length_toList])
  refine ⟨spelling, ?_, by rw [Target.Expr.spell], hdecimal.literal, hdecimal.value, ?_⟩
  · intro renames depth hdepth
    have hdeeper : deeper depth = .ok (depth + 1) := if_neg (by omega)
    rw [expr, hdeeper, hspelling]
    rfl
  · intro call env
    rw [Machine.eval, Machine.literalNumber_decimal hdecimal]

/-- Zeros in front do not make a literal octal in which there is an 8. -/
theorem integer_literal_value_notOctal :
    "00178" ≠ "" ∧ (∀ c ∈ "00178".toList, c.isDigit) ∧ "00178".length ≤ Number.maxDigits ∧
    ∃ spelling,
      expr [] 0 (.number "00178") = .ok (.number spelling) ∧
      DecimalLiteral spelling.toList ∧
      placeValue 10 spelling.toList = 178 ∧
      ∀ call env, Machine.eval call env (.number spelling) = pure (.int 178) := by
  have hne : "00178" ≠ "" := by decide
  have hd : ∀ c ∈ "00178".toList, c.isDigit := by simp
  have hl : "00178".length ≤ Number.maxDigits := by decide
  have hvalue : Target.integerValue "00178".toList = 178 := by decide
  obtain ⟨spelling, hexpr, -, hliteral, hplace, heval⟩ := integer_literal_value hne hd hl
  rw [hvalue] at hplace heval
  exact ⟨hne, hd, hl, spelling, hexpr [] 0 (by decide), hliteral, hplace, heval⟩

end Generate

end ConsoleCpp

/-
Reading back a printed integer: a sign and the digits `0` to `9` are read as what they were printed
from, as long as there are not more digits than are read at all.
-/
import ConsoleCpp.Number.Reading
import Mathlib.Algebra.Group.Nat.Defs

namespace ConsoleCpp.Number

open Text

/-! ## Digits -/

section Digits

variable {c : Char} {cs : List Char}

theorem toNat_of_isDigit (h : c.isDigit) : 48 ≤ c.toNat ∧ c.toNat ≤ 57 := by
  simpa [Char.isDigit, UInt32.le_iff_toNat_le] using h

theorem digitValue?_of_isDigit (h : c.isDigit) : digitValue? c = some (c.toNat - '0'.toNat) := by
  have hr := toNat_of_isDigit h
  have hascii : c.toNat < 0x80 := by omega
  simpa [digitValue?, hascii] using hr

theorem isPadding_of_isDigit (h : c.isDigit) : isPadding c = false := by
  have hr := toNat_of_isDigit h
  have hascii : c.toNat < 0x80 := by omega
  simp only [isPadding, isBlank, isAsciiBlank, hascii, if_true, Bool.and_eq_false_iff,
    Bool.or_eq_false_iff, decide_eq_false_iff_not]
  omega

theorem isAsciiDigit_of_isDigit (h : c.isDigit) : isAsciiDigit c := by
  simpa [isAsciiDigit, Char.isDigit, Char.le_def] using h

theorem plainDigits_digits (b : Bool) (h : ∀ c ∈ cs, c.isDigit) : plainDigits b cs = some cs := by
  induction cs generalizing b with
  | nil => rfl
  | cons c cs ih =>
    obtain ⟨hc, hcs⟩ := List.forall_mem_cons.mp h
    have hr := toNat_of_isDigit hc
    have same : '0'.toNat + (c.toNat - '0'.toNat) = c.toNat :=
      Nat.add_sub_cancel' hr.1
    simp only [plainDigits, digitValue?_of_isDigit hc, ih true hcs, Option.map_some, same,
      Char.ofNat_toNat]

theorem natOfDigits_toDigits (n : Nat) : natOfDigits (Nat.toDigits 10 n) = n :=
  Nat.ofDigitChars_toDigits (by decide) (by decide)

theorem toNat_of_isAsciiDigit (h : isAsciiDigit c) : c.toNat - '0'.toNat < 10 := by
  have hr : '0' ≤ c ∧ c ≤ '9' := by simpa [isAsciiDigit] using h
  have hnine : c.toNat ≤ '9'.toNat := by simpa [Char.le_def, UInt32.le_iff_toNat_le] using hr.2
  have hvalue : '9'.toNat = 57 ∧ '0'.toNat = 48 := ⟨rfl, rfl⟩
  omega

theorem natOfDigits_lt (h : ∀ c ∈ cs, isAsciiDigit c) : natOfDigits cs < 10 ^ cs.length := by
  -- over any number read so far
  have more : ∀ (cs : List Char) (n : Nat), (∀ c ∈ cs, isAsciiDigit c) →
      cs.foldl (fun n c => 10 * n + (c.toNat - '0'.toNat)) n < (n + 1) * 10 ^ cs.length := by
    intro cs
    induction cs with
    | nil => intro n _; simp
    | cons c cs ih =>
      intro n h
      obtain ⟨hc, hcs⟩ := List.forall_mem_cons.mp h
      have hdigit := toNat_of_isAsciiDigit hc
      calc cs.foldl (fun n c => 10 * n + (c.toNat - '0'.toNat)) (10 * n + (c.toNat - '0'.toNat))
          < (10 * n + (c.toNat - '0'.toNat) + 1) * 10 ^ cs.length := ih _ hcs
        _ ≤ ((n + 1) * 10) * 10 ^ cs.length := Nat.mul_le_mul_right _ (by omega)
        _ = (n + 1) * 10 ^ (c :: cs).length := by
          rw [List.length_cons, Nat.pow_succ', Nat.mul_assoc]
  simpa [natOfDigits] using more cs 0 h

end Digits

/-! ## Printed integers -/

theorem trimBoth_eq_self {p : Char → Bool} {cs : List Char} (h : ∀ c ∈ cs, p c = false) :
    trimBoth p cs = cs := by
  have keep : ∀ xs : List Char, (∀ c ∈ xs, p c = false) → xs.dropWhile p = xs := by
    intro xs hxs
    cases xs with
    | nil => rfl
    | cons x xs => simp [List.dropWhile, hxs x (by simp)]
  rw [trimBoth, keep cs h, keep _ (by simpa using h), List.reverse_reverse]

theorem toList_toString (n : Int) :
    (toString n).toList = (if n < 0 then ['-'] else []) ++ Nat.toDigits 10 n.natAbs := by
  cases n with
  | ofNat n => simp [toString, Int.repr, Nat.toList_repr]
  | negSucc n => simp [toString, Int.repr, Nat.toList_repr, String.toList_append]

theorem isDigit_of_mem_toDigits {n : Nat} : ∀ c ∈ Nat.toDigits 10 n, c.isDigit := fun _ hc =>
  Nat.isDigit_of_mem_toDigits (by decide) (by decide) hc

theorem trimBoth_toString (n : Int) :
    trimBoth isPadding (toString n).toList = (toString n).toList := by
  refine trimBoth_eq_self fun c hc => ?_
  rw [toList_toString, List.mem_append] at hc
  rcases hc with hc | hc
  · have hminus : c = '-' := by split at hc <;> simp_all
    subst hminus
    rfl
  · exact isPadding_of_isDigit (isDigit_of_mem_toDigits c hc)

theorem plainDigits_toString (n : Int) :
    plainDigits false (toString n).toList = some (toString n).toList := by
  have hdigits : ∀ b, plainDigits b (Nat.toDigits 10 n.natAbs) = some (Nat.toDigits 10 n.natAbs) :=
    fun b => plainDigits_digits b isDigit_of_mem_toDigits
  rw [toList_toString]
  split
  · simp [plainDigits, digitValue?, hdigits]
  · exact hdigits false

/-- A digit is no sign. -/
theorem takeSign_digits {cs : List Char} (h : ∀ c ∈ cs, c.isDigit) : takeSign cs = (false, cs) := by
  cases cs with
  | nil => rfl
  | cons c cs =>
    have hc : c.isDigit := h c List.mem_cons_self
    have hminus : c ≠ '-' := by rintro rfl; cases hc
    have hplus : c ≠ '+' := by rintro rfl; cases hc
    simp [takeSign, hminus, hplus]

theorem takeSign_toString (n : Int) :
    takeSign (toString n).toList = (decide (n < 0), Nat.toDigits 10 n.natAbs) := by
  rw [toList_toString]
  split
  · next hneg => simp [takeSign, hneg]
  · next hneg =>
    rw [List.nil_append, takeSign_digits isDigit_of_mem_toDigits, decide_eq_false hneg]

/-- A printed integer is read back, unless it has more digits than are read. -/
theorem readInt_toString {n : Int} (h : (Nat.toDigits 10 n.natAbs).length ≤ maxDigits) :
    readInt (toString n) = .value n := by
  have hne : (Nat.toDigits 10 n.natAbs).isEmpty = false := by simp [Nat.toDigits_ne_nil]
  have hall : (Nat.toDigits 10 n.natAbs).all isAsciiDigit := by
    simpa using fun c hc => isAsciiDigit_of_isDigit (isDigit_of_mem_toDigits c hc)
  have hvalue : signed (decide (n < 0)) n.natAbs = n := by
    by_cases hneg : n < 0
    · simp only [signed, hneg, decide_true, if_true]
      omega
    · simp only [signed, hneg, decide_false, Bool.false_eq_true, if_false]
      omega
  simp only [readInt, trimBoth_toString, plainDigits_toString, takeSign_toString, hne, hall,
    natOfDigits_toDigits, hvalue, Nat.not_lt.mpr h, Bool.not_true, Bool.or_self, Bool.false_eq_true,
    if_false]

/-- What is read as an integer has no more digits than are read. -/
theorem length_toDigits_of_readInt {s : String} {n : Int} (h : readInt s = .value n) :
    (Nat.toDigits 10 n.natAbs).length ≤ maxDigits := by
  unfold readInt at h
  split at h
  · cases h
  · next cs _ =>
    dsimp only at h
    split at h
    · cases h
    next hform =>
    split at h
    · cases h
    next hlength =>
    cases h
    simp only [Bool.or_eq_true, Bool.not_eq_true', not_or, Bool.not_eq_false] at hform
    have hlt : natOfDigits (takeSign cs).2 < 10 ^ (takeSign cs).2.length :=
      natOfDigits_lt fun c hc => List.all_eq_true.mp hform.2 c hc
    have habs : (signed (takeSign cs).1 (natOfDigits (takeSign cs).2)).natAbs =
        natOfDigits (takeSign cs).2 := by
      unfold signed
      split <;> simp
    rw [habs, Nat.length_toDigits_le_iff (by decide) (by decide)]
    exact Nat.lt_of_lt_of_le hlt (Nat.pow_le_pow_right (by decide) (Nat.not_lt.mp hlength))

end ConsoleCpp.Number

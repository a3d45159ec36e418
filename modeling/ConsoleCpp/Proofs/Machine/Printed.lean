/-
Printed integers as input. A program may print integers with blanks of any kind between them; the
words of that text are the printed integers again, and as numbers they are the integers themselves.
-/
import ConsoleCpp.Machine.Show
import ConsoleCpp.Machine.Store
import ConsoleCpp.Proofs.Number.Reading

namespace ConsoleCpp.Text

/-! ## Words and the gaps between them -/

/-- A text of blanks alone. -/
def IsGap (cs : List Char) : Prop := ∀ c ∈ cs, isBlank c = true

instance (cs : List Char) : Decidable (IsGap cs) := List.decidableBAll _ cs

/-- A text without blanks that is not empty. -/
structure IsWord (cs : List Char) : Prop where
  ne_nil : cs ≠ []
  solid : ∀ c ∈ cs, isBlank c = false

variable {gap rest word : List Char}

theorem wordsFrom_solid {cs : List Char} (h : ∀ c ∈ cs, isBlank c = false) (word rest : List Char) :
    wordsFrom word (cs ++ rest) = wordsFrom (cs.reverse ++ word) rest := by
  induction cs generalizing word with
  | nil => rfl
  | cons c cs ih =>
    obtain ⟨hc, hcs⟩ := List.forall_mem_cons.1 h
    simp [wordsFrom, hc, ih hcs]

/-- Blanks before a word say nothing. -/
theorem wordsFrom_gap (h : IsGap gap) (rest : List Char) :
    wordsFrom [] (gap ++ rest) = wordsFrom [] rest := by
  induction gap with
  | nil => rfl
  | cons c gap ih =>
    obtain ⟨hc, hgap⟩ := List.forall_mem_cons.1 h
    simp [wordsFrom, hc, ih hgap]

/-- The first blank after a word ends it. -/
theorem wordsFrom_word_gap (hword : word ≠ []) (h : IsGap gap) (hne : gap ≠ []) (rest : List Char) :
    wordsFrom word (gap ++ rest) = word.reverse :: wordsFrom [] rest := by
  cases gap with
  | nil => exact absurd rfl hne
  | cons c gap =>
    obtain ⟨hc, hgap⟩ := List.forall_mem_cons.1 h
    simp [wordsFrom, hc, hword, wordsFrom_gap hgap]

/-- The end of the text ends a word too. -/
theorem wordsFrom_word_end (hword : word ≠ []) (h : IsGap gap) :
    wordsFrom word gap = [word.reverse] := by
  cases gap with
  | nil => simp [wordsFrom, hword]
  | cons c gap => simpa [wordsFrom] using wordsFrom_word_gap hword h (List.cons_ne_nil c gap) []

section

variable {α : Type} {pieces : List α}

/-- Words with gaps between them, where only the gap after the last word may be missing. -/
theorem wordsFrom_pieces {word gap : α → List Char} (hwords : ∀ p ∈ pieces, IsWord (word p))
    (hgaps : ∀ p ∈ pieces, IsGap (gap p)) (hapart : ∀ p ∈ pieces.dropLast, gap p ≠ []) :
    wordsFrom [] (pieces.flatMap fun p => word p ++ gap p) = pieces.map word := by
  induction pieces with
  | nil => rfl
  | cons p pieces ih =>
    obtain ⟨hword, hwords⟩ := List.forall_mem_cons.1 hwords
    obtain ⟨hgap, hgaps⟩ := List.forall_mem_cons.1 hgaps
    have hne : (word p).reverse ≠ [] := by simpa using hword.ne_nil
    rw [List.flatMap_cons, List.append_assoc, wordsFrom_solid hword.solid, List.append_nil,
      List.map_cons]
    cases pieces with
    | nil => simp [wordsFrom_word_end hne hgap]
    | cons q pieces =>
      obtain ⟨hfirst, hapart⟩ := List.forall_mem_cons.1 hapart
      rw [wordsFrom_word_gap hne hgap hfirst, ih hwords hgaps hapart, List.reverse_reverse]

theorem words_join {lead : String} {word gap : α → String} (hlead : IsGap lead.toList)
    (hwords : ∀ p ∈ pieces, IsWord (word p).toList) (hgaps : ∀ p ∈ pieces, IsGap (gap p).toList)
    (hapart : ∀ p ∈ pieces.dropLast, gap p ≠ "") :
    words (lead ++ String.join (pieces.map fun p => word p ++ gap p)) = pieces.map word := by
  have hjoin : (String.join (pieces.map fun p => word p ++ gap p)).toList =
      pieces.flatMap fun p => (word p).toList ++ (gap p).toList := by
    simp only [String.toList_join, List.flatMap_map, String.toList_append]
  have happart : ∀ p ∈ pieces.dropLast, (gap p).toList ≠ [] := by simpa using hapart
  rw [words, String.toList_append, hjoin, wordsFrom_gap hlead,
    wordsFrom_pieces hwords hgaps happart, List.map_map]
  exact List.map_congr_left fun p _ => String.ofList_toList

end

end ConsoleCpp.Text

namespace ConsoleCpp.Machine

open Text

/-! ## Printed integers -/

section

variable {n : Int}

/-- A printed integer has no blanks in it. -/
theorem isWord_toString (n : Int) : IsWord (toString n).toList := by
  rw [Number.toList_toString]
  refine ⟨by simp [Nat.toDigits_ne_nil], fun c hc => ?_⟩
  rcases List.mem_append.1 hc with hc | hc
  · split at hc
    · cases List.mem_singleton.1 hc
      rfl
    · cases hc
  · have hdigit := Number.toNat_of_isDigit (Number.isDigit_of_mem_toDigits c hc)
    have hascii : c.toNat < 0x80 := by omega
    simp only [isBlank, isAsciiBlank, hascii, if_true, Bool.or_eq_false_iff, Bool.and_eq_false_iff,
      decide_eq_false_iff_not]
    omega

theorem lt_pow10 {size digits : Nat} (hpos : 0 < digits)
    (h : (Nat.toDigits 10 size).length ≤ digits) : size < Number.pow10 digits :=
  (Nat.length_toDigits_le_iff (by decide) hpos).1 h

theorem writeInt?_eq (h : n.natAbs < Number.pow10 Number.maxDigits) :
    Number.writeInt? n = some (toString n) := by
  unfold Number.writeInt?
  -- the bound is too large a number to compute
  generalize Number.pow10 Number.maxDigits = bound at h ⊢
  exact if_neg (Nat.not_le.2 h)

/-- Integers that are read are printed too: the limit on digits is the same both ways. -/
theorem shown_int (s : State) (h : (Nat.toDigits 10 n.natAbs).length ≤ Number.maxDigits) :
    s.shown (.int n) = .ok (toString n) := by
  show writeInt n = _
  unfold writeInt
  rw [writeInt?_eq (lt_pow10 (by decide) h)]

theorem number_toString (h : (Nat.toDigits 10 n.natAbs).length ≤ Number.maxDigits) :
    number (toString n) = .int n := by
  rw [number, Number.readInt_toString h]

end

theorem mapM_ok {α β : Type} {f : α → Except Fault β} {g : α → β} {as : List α}
    (h : ∀ a ∈ as, f a = .ok (g a)) : as.mapM f = .ok (as.map g) := by
  induction as with
  | nil => rfl
  | cons a as ih =>
    obtain ⟨ha, has⟩ := List.forall_mem_cons.1 h
    rw [List.mapM_cons, ha, ih has]
    rfl

/-- Printed integers read back. Integers of no more digits than are printed at all are printed each
with a gap after it, the first with a gap before it. If only the gaps at both ends may be missing,
then the words of this text are the integers as they were printed, and as numbers they are the
integers. -/
theorem number_words_shown (s : State) {lead : String} {pieces : List (Int × String)}
    (hsize : ∀ p ∈ pieces, (Nat.toDigits 10 p.1.natAbs).length ≤ Number.maxDigits)
    (hlead : IsGap lead.toList) (hgaps : ∀ p ∈ pieces, IsGap p.2.toList)
    (hapart : ∀ p ∈ pieces.dropLast, p.2 ≠ "") :
    ∃ texts, pieces.mapM (fun p => s.shown (.int p.1)) = .ok texts ∧
      words (lead ++ String.join (List.zipWith (fun text p => text ++ p.2) texts pieces)) = texts ∧
      texts.map number = pieces.map fun p => .int p.1 := by
  refine ⟨pieces.map fun p => toString p.1, mapM_ok fun p hp => shown_int s (hsize p hp), ?_, ?_⟩
  · rw [List.zipWith_map_left, List.zipWith_self]
    exact words_join hlead (fun p _ => isWord_toString p.1) hgaps hapart
  · rw [List.map_map]
    exact List.map_congr_left fun p hp => number_toString (hsize p hp)

/-- -7, 0 and 42, with a tab before them, a no-break space and a line break between them, and nothing
after them. -/
theorem number_words_shown_three :
    ∃ texts, [(-7, "\u00a0"), (0, " \n"), ((42 : Int), "")].mapM
        (fun p => (default : State).shown (.int p.1)) = .ok texts ∧
      words ("\t" ++ String.join (List.zipWith (fun text p => text ++ p.2) texts
        [((-7 : Int), "\u00a0"), (0, " \n"), (42, "")])) = texts ∧
      texts.map number = [.int (-7), .int 0, .int 42] :=
  number_words_shown default (by decide) (by decide +kernel) (by decide +kernel) (by decide)

end ConsoleCpp.Machine

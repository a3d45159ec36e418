/-
The first rule that applies is the one that takes the most. The table is ordered, so this is a fact
about its order: of two rules that both apply at a text, the earlier takes more than the later, and
only a reserved word is also an identifier of the same length.

Rules are not compared on the texts they take but on how such a text can start. Letters, digits and
blanks each start the texts of their own rules. All other rules take texts that start with one of a
few marks, and of two marks that stand at the front of one text the longer has the shorter as its
front. So it is enough to look at the marks of each two rules, of which there are finitely many.
-/
import ConsoleCpp.Proofs.Token.Respelling
import ConsoleCpp.Proofs.Token.Tiling
import Mathlib.Data.List.Forall2

namespace ConsoleCpp.Token

open Text

/-! ## How a text starts -/

/-- What the first character of a text is. -/
inductive Lead where
  | letter
  | digit
  | blank
  | sign
deriving DecidableEq

/-- A character starts a name or a number, or it is blank, or none of these. -/
def lead (c : Char) : Lead :=
  if isNameStart c then .letter
  else if isDigit c then .digit
  else if isBlank c then .blank
  else .sign

/-- What the texts that a rule takes have in common at their front. -/
structure Front where
  kind : Option Kind
  lead : Lead
  /-- If the texts start with a sign, each starts with one of these. -/
  marks : List String
  /-- Each text is such a mark and no more. -/
  exact : Bool

/-- The first `n` characters of a text are such that a rule with this front may take them. What
starts with a letter is the whole word. -/
structure Front.Fits (front : Front) (cs : List Char) (n : Nat) : Prop where
  lead : ∃ c, cs.head? = some c ∧ Token.lead c = front.lead
  word : front.lead = .letter → n = run isWord cs
  mark : front.lead = .sign → ∃ mark ∈ front.marks, mark.toList <+: cs ∧ mark.length ≤ n ∧
    (front.exact = true → mark.length = n)

/-- All that the rule takes has this front. -/
structure Front.Of (front : Front) (rule : Rule) : Prop where
  kind : rule.kind = front.kind
  fits : ∀ before cs n, rule.span before cs = some n → front.Fits cs n

/-- The fronts of the rules, in the order of the table. -/
def fronts : List Front := [
  ⟨none, .sign, ["//"], false⟩,
  ⟨none, .sign, ["/*"], false⟩,
  ⟨some .header, .sign, ["#include"], false⟩,
  ⟨some .keyword, .letter, [], false⟩,
  ⟨some .identifier, .letter, [], false⟩,
  ⟨some .number, .digit, [], false⟩,
  ⟨some .char, .sign, ["'"], false⟩,
  ⟨some .string, .sign, ["\""], false⟩,
  ⟨some .stream, .sign, ["<<", ">>"], true⟩,
  ⟨some .operator, .sign, ["++", "--"], true⟩,
  ⟨some .operator, .sign, ["==", "!=", "<=", ">=", "&&", "||", "->", "+=", "-=", "*=", "/=", "%=",
    "."], true⟩,
  ⟨some .operator, .sign, ["+", "-", "*", "/", "=", "<", ">", "!", "%", "&", "|", "~", "^"], true⟩,
  ⟨some .scope, .sign, ["::"], true⟩,
  ⟨some .delimiter, .sign, ["[", "]", "(", ")", "\x7b", "\x7d", ";", ",", ":"], true⟩,
  ⟨none, .blank, [], false⟩]

theorem lead_of_isNameStart {c : Char} (h : isNameStart c = true) : lead c = .letter := if_pos h

theorem lead_of_isDigit {c : Char} (h : isDigit c = true) : lead c = .digit := by
  rw [lead, isNameStart_of_isDigit h, if_neg Bool.false_ne_true, if_pos h]

theorem lead_of_isBlank {c : Char} (h : isBlank c = true) : lead c = .blank := by
  have hn : isNameStart c = false := by
    cases hs : isNameStart c with
    | false => rfl
    | true => exact absurd (isWord_of_isNameStart hs) (by rw [isWord_of_isBlank h]; decide)
  rw [lead, hn, if_neg Bool.false_ne_true, isDigit_of_isBlank h, if_neg Bool.false_ne_true,
    if_pos h]

/-- The first character of a text with a mark at its front is that of the mark. -/
theorem head_of_prefix {mark : String} {cs : List Char} {c : Char}
    (hc : mark.toList.head? = some c) (hp : mark.toList <+: cs) : cs.head? = some c := by
  obtain ⟨after, rfl⟩ := hp
  cases hm : mark.toList with
  | nil => rw [hm] at hc; cases hc
  | cons d rest => rw [hm] at hc; exact hc

/-- What is taken by a rule whose marks start with signs. -/
theorem Front.Fits.of_marks {kind : Option Kind} {marks : List String} {exact : Bool}
    {cs : List Char} {n : Nat} {mark : String}
    (hs : ∀ mark ∈ marks, mark.toList.head?.map Token.lead = some .sign) (hm : mark ∈ marks)
    (hp : mark.toList <+: cs) (hl : mark.length ≤ n) (he : exact = true → mark.length = n) :
    Front.Fits ⟨kind, .sign, marks, exact⟩ cs n := by
  obtain ⟨c, hc, hlead⟩ := Option.map_eq_some_iff.1 (hs mark hm)
  exact ⟨⟨c, head_of_prefix hc hp, hlead⟩, nofun, fun _ => ⟨mark, hm, hp, hl, he⟩⟩

/-- What is taken by a rule that has one mark and may take more. -/
theorem Front.Fits.of_mark {kind : Option Kind} {mark : String} {cs : List Char} {n : Nat}
    (hs : mark.toList.head?.map Token.lead = some .sign) (hp : mark.toList <+: cs)
    (hl : mark.length ≤ n) : Front.Fits ⟨kind, .sign, [mark], false⟩ cs n :=
  .of_marks (List.forall_mem_singleton.2 hs) (List.mem_singleton.2 rfl) hp hl nofun

/-! ## The fronts of the rules -/

theorem lineComment_front : Front.Of ⟨none, .sign, ["//"], false⟩ ⟨none, fun _ => lineComment⟩ := by
  refine ⟨rfl, fun _ cs n h => ?_⟩
  simp only [lineComment] at h
  split at h
  · rename_i rest
    cases h
    exact .of_mark (by decide) ⟨rest, rfl⟩ (Nat.le_add_right ..)
  · cases h

theorem blockComment_front :
    Front.Of ⟨none, .sign, ["/*"], false⟩ ⟨none, fun _ => blockComment⟩ := by
  refine ⟨rfl, fun _ cs n h => ?_⟩
  simp only [blockComment] at h
  split at h
  · rename_i rest
    obtain ⟨m, -, rfl⟩ := Option.map_eq_some_iff.1 h
    exact .of_mark (by decide) ⟨rest, rfl⟩ (Nat.le_add_left ..)
  · cases h

theorem headerDirective_front :
    Front.Of ⟨some .header, .sign, ["#include"], false⟩
      ⟨some .header, fun _ => headerDirective⟩ := by
  refine ⟨rfl, fun _ cs n h => ?_⟩
  simp only [headerDirective] at h
  split at h
  · rename_i rest
    obtain ⟨m, -, rfl⟩ := Option.map_eq_some_iff.1 h
    exact .of_mark (by decide) ⟨rest, rfl⟩ (Nat.le_add_left ..)
  · cases h

theorem keyword_front :
    Front.Of ⟨some .keyword, .letter, [], false⟩ ⟨some .keyword, keyword⟩ := by
  refine ⟨rfl, fun before cs n (h : keyword before cs = some n) => ⟨?_, ?_, nofun⟩⟩
  · obtain ⟨hpos, hle⟩ := keyword_measured before cs n h
    obtain ⟨c, rest, rfl⟩ := List.exists_cons_of_length_pos (hpos.trans_le hle)
    refine ⟨c, rfl, ?_⟩
    by_cases hc : isNameStart c = true
    · exact lead_of_isNameStart hc
    · -- reserved words start like names
      rw [keyword_eq_none (by simpa using hc)] at h
      cases h
  · intro _
    unfold keyword at h
    split at h
    · cases h
    · dsimp only at h
      split at h
      · exact (Option.some.inj h).symm
      · cases h

theorem identifier_front :
    Front.Of ⟨some .identifier, .letter, [], false⟩ ⟨some .identifier, fun _ => identifier⟩ := by
  refine ⟨rfl, fun _ cs n (h : identifier cs = some n) => ?_⟩
  cases cs with
  | nil => cases h
  | cons c rest =>
    by_cases hc : isNameStart c = true
    · rw [identifier, if_pos hc] at h
      cases h
      refine ⟨⟨c, rfl, lead_of_isNameStart hc⟩, fun _ => ?_, (absurd · (by decide))⟩
      rw [run, run, List.takeWhile_cons_of_pos (isWord_of_isNameStart hc), List.length_cons,
        Nat.add_comm]
    · rw [identifier, if_neg hc] at h
      cases h

/-- A run that takes something starts at the front. -/
theorem head_of_run {p : Char → Bool} {cs : List Char} (h : run p cs ≠ 0) :
    ∃ c, cs.head? = some c ∧ p c = true := by
  cases cs with
  | nil => exact absurd rfl h
  | cons c rest =>
    refine ⟨c, rfl, ?_⟩
    by_contra hc
    exact h (by rw [run, List.takeWhile_cons_of_neg hc, List.length_nil])

theorem number_front :
    Front.Of ⟨some .number, .digit, [], false⟩ ⟨some .number, fun _ => number⟩ := by
  refine ⟨rfl, fun _ cs n h => ⟨?_, nofun, nofun⟩⟩
  simp only [number] at h
  split at h
  · cases h
  · rename_i hw
    obtain ⟨c, hc, hd⟩ := head_of_run hw
    exact ⟨c, hc, lead_of_isDigit hd⟩

theorem charLiteral_front :
    Front.Of ⟨some .char, .sign, ["'"], false⟩ ⟨some .char, fun _ => charLiteral⟩ := by
  refine ⟨rfl, fun _ cs n h => ?_⟩
  have hn := (charLiteral_measured cs n h).1
  simp only [charLiteral] at h
  split at h
  · exact .of_mark (by decide) ⟨_, rfl⟩ hn
  · exact .of_mark (by decide) ⟨_, rfl⟩ hn
  · cases h

theorem stringLiteral_front :
    Front.Of ⟨some .string, .sign, ["\""], false⟩ ⟨some .string, fun _ => stringLiteral⟩ := by
  refine ⟨rfl, fun _ cs n h => ?_⟩
  have hn := (stringLiteral_measured cs n h).1
  simp only [stringLiteral] at h
  split at h
  · exact .of_mark (by decide) ⟨_, rfl⟩ hn
  · cases h

/-- A rule that takes one of some fixed texts. -/
theorem oneOf_front {kind : Kind} {texts : List String}
    (hs : ∀ text ∈ texts, text.toList.head?.map lead = some .sign) :
    Front.Of ⟨some kind, .sign, texts, true⟩ ⟨some kind, fun _ => oneOf texts⟩ := by
  refine ⟨rfl, fun _ cs n h => ?_⟩
  obtain ⟨text, ht, hp, hl⟩ := oneOf_eq_some h
  exact .of_marks hs ht hp hl.le fun _ => hl

theorem blanks_front : Front.Of ⟨none, .blank, [], false⟩ ⟨none, fun _ => blanks⟩ := by
  refine ⟨rfl, fun _ cs n h => ⟨?_, nofun, nofun⟩⟩
  simp only [blanks] at h
  split at h
  · cases h
  · rename_i hb
    obtain ⟨c, hc, hblank⟩ := head_of_run hb
    exact ⟨c, hc, lead_of_isBlank hblank⟩

theorem fronts_of_rules : List.Forall₂ Front.Of fronts rules :=
  .cons lineComment_front <| .cons blockComment_front <| .cons headerDirective_front <|
  .cons keyword_front <| .cons identifier_front <| .cons number_front <|
  .cons charLiteral_front <| .cons stringLiteral_front <|
  .cons (oneOf_front (by decide)) <| .cons (oneOf_front (by decide)) <|
  .cons (oneOf_front (by decide)) <| .cons (oneOf_front (by decide)) <|
  .cons (oneOf_front (by decide)) <| .cons (oneOf_front (by decide)) <|
  .cons blanks_front .nil

theorem exists_front {rule : Rule} (h : rule ∈ rules) : ∃ front ∈ fronts, front.Of rule := by
  obtain ⟨hlen, hof⟩ := List.forall₂_iff_get.1 fronts_of_rules
  obtain ⟨i, rfl⟩ := List.mem_iff_get.1 h
  exact ⟨fronts.get ⟨i, by omega⟩, List.get_mem .., hof i (by omega) i.isLt⟩

/-! ## Fronts compared -/

/-- Of two marks at the front of one text this one is the longer, and the rule of the other takes no
more than its mark. -/
def Outdoes (mark other : String) (exact : Bool) : Prop :=
  ¬ mark.toList <+: other.toList ∧ (other.toList <+: mark.toList → exact = true)

instance (mark other : String) (exact : Bool) : Decidable (Outdoes mark other exact) :=
  inferInstanceAs (Decidable (_ ∧ _))

/-- The rule of the one front takes more than the rule of the other wherever both apply, or both
take the same word and the one is for reserved words and the other for identifiers. -/
def Front.Before (front other : Front) : Prop :=
  match front.lead, other.lead with
  | .letter, .letter => front.kind = some .keyword ∧ other.kind = some .identifier
  | .sign, .sign => ∀ mark ∈ front.marks, ∀ mark' ∈ other.marks, Outdoes mark mark' other.exact
  | lead, lead' => lead ≠ lead'

instance (front other : Front) : Decidable (front.Before other) := by
  unfold Front.Before
  split <;> infer_instance

theorem fronts_pairwise : fronts.Pairwise Front.Before := by decide

/-- Two marks at the front of one text, of which the one outdoes the other. -/
theorem Outdoes.length_lt {mark other : String} {exact : Bool} {cs : List Char}
    (h : Outdoes mark other exact) (hp : mark.toList <+: cs) (ho : other.toList <+: cs) :
    other.length < mark.length ∧ exact = true := by
  have hlt : other.toList.length < mark.toList.length := by
    by_contra hge
    exact h.1 (List.prefix_of_prefix_length_le hp ho (Nat.le_of_not_lt hge))
  refine ⟨?_, h.2 (List.prefix_of_prefix_length_le ho hp hlt.le)⟩
  rwa [String.length_toList, String.length_toList] at hlt

theorem Front.Before.length_le {front other : Front} (h : front.Before other) {cs : List Char}
    {n m : Nat} (hf : front.Fits cs n) (ho : other.Fits cs m) :
    m < n ∨ m = n ∧ front.kind = some .keyword ∧ other.kind = some .identifier := by
  have hlead : front.lead = other.lead := by
    obtain ⟨c, hc, h₁⟩ := hf.lead
    obtain ⟨d, hd, h₂⟩ := ho.lead
    rw [hc] at hd
    cases hd
    rw [← h₁, ← h₂]
  unfold Front.Before at h
  split at h
  · -- both take the whole word
    rename_i hl hl'
    exact .inr ⟨by rw [hf.word hl, ho.word hl'], h⟩
  · -- the other takes no more than its mark, which is shorter than a mark of this one
    rename_i hl hl'
    obtain ⟨mark, hm, hp, hle, -⟩ := hf.mark hl
    obtain ⟨mark', hm', hp', -, hexact⟩ := ho.mark hl'
    obtain ⟨hlt, hx⟩ := (h mark hm mark' hm').length_lt hp hp'
    exact .inl (hexact hx ▸ hlt.trans_le hle)
  · exact absurd hlead h

/-! ## The first match -/

/-- Of two rules of the table that both apply, the earlier one takes more, or they take the same
word, as a reserved word and as an identifier. -/
theorem rules_longer {before : Option Char} {cs : List Char} {i j : Fin rules.length} {n m : Nat}
    (hij : i < j) (hi : rules[i].span before cs = some n) (hj : rules[j].span before cs = some m) :
    m < n ∨ m = n ∧ rules[i].kind = some .keyword ∧ rules[j].kind = some .identifier := by
  obtain ⟨hlen, hof⟩ := List.forall₂_iff_get.1 fronts_of_rules
  have hfi : Front.Of (fronts.get ⟨i, by omega⟩) rules[i] := hof i (by omega) i.isLt
  have hfj : Front.Of (fronts.get ⟨j, by omega⟩) rules[j] := hof j (by omega) j.isLt
  have hbefore := List.pairwise_iff_getElem.1 fronts_pairwise i j (by omega) (by omega) hij
  rw [hfi.kind, hfj.kind]
  exact hbefore.length_le (hfi.fits _ _ _ hi) (hfj.fits _ _ _ hj)

/-- Which rule of a table is the first that applies. -/
theorem firstMatch_index {table : List Rule} {before : Option Char} {cs : List Char}
    {kind : Option Kind} {n : Nat} (h : firstMatch table before cs = some (kind, n)) :
    ∃ first : Fin table.length, table[first].kind = kind ∧ table[first].span before cs = some n ∧
      ∀ rule < first, table[rule].span before cs = none := by
  obtain ⟨earlier, rule, later, rfl, hs, hnone⟩ := List.findSome?_eq_some_iff.1 h
  obtain ⟨m, hm, he⟩ := Option.map_eq_some_iff.1 hs
  cases he
  refine ⟨⟨earlier.length, by simp⟩, by simp, by simpa using hm, fun i hi => ?_⟩
  have hlt : i.val < earlier.length := hi
  have hget : (earlier ++ rule :: later)[i] = earlier[i.val] := List.getElem_append_left hlt
  rw [hget]
  exact Option.map_eq_none_iff.1 (hnone _ (List.getElem_mem hlt))

/-- At every position of every text, if the first rule that applies takes `n` characters, then no
other rule of the table takes more than `n` there, and another takes exactly `n` only where the
first is the rule for reserved words and the other the rule for identifiers. -/
theorem firstMatch_longest (text : List Char) (offset : Nat) {kind : Option Kind} {n : Nat}
    (h : firstMatch rules (charBefore text offset) (text.drop offset) = some (kind, n)) :
    ∃ first : Fin rules.length, rules[first].kind = kind ∧
      rules[first].span (charBefore text offset) (text.drop offset) = some n ∧
      (∀ rule < first, rules[rule].span (charBefore text offset) (text.drop offset) = none) ∧
      ∀ other ≠ first, ∀ m,
        rules[other].span (charBefore text offset) (text.drop offset) = some m →
        m < n ∨ m = n ∧ rules[first].kind = some .keyword ∧
          rules[other].kind = some .identifier := by
  obtain ⟨first, hkind, hspan, hnone⟩ := firstMatch_index h
  refine ⟨first, hkind, hspan, hnone, fun other hne m hm => ?_⟩
  -- an earlier rule does not apply, and a later one is outdone
  rcases Nat.lt_or_gt_of_ne (Fin.val_ne_of_ne hne) with hlt | hgt
  · rw [hnone other hlt] at hm
    cases hm
  · exact rules_longer hgt hspan hm

/-- In the text `3 int` the reserved word at position 2 is taken by the first rule that applies, and
the rule for identifiers takes as much; no rule takes more. -/
theorem firstMatch_longest_reserved :
    firstMatch rules (charBefore "3 int".toList 2) ("3 int".toList.drop 2) =
      some (some .keyword, 3) ∧
    identifier ("3 int".toList.drop 2) = some 3 ∧
    ∃ first : Fin rules.length, rules[first].kind = some .keyword ∧
      rules[first].span (charBefore "3 int".toList 2) ("3 int".toList.drop 2) = some 3 ∧
      (∀ rule < first,
        rules[rule].span (charBefore "3 int".toList 2) ("3 int".toList.drop 2) = none) ∧
      ∀ other ≠ first, ∀ m,
        rules[other].span (charBefore "3 int".toList 2) ("3 int".toList.drop 2) = some m →
        m < 3 ∨ m = 3 ∧ rules[first].kind = some .keyword ∧
          rules[other].kind = some .identifier := by
  have h : firstMatch rules (charBefore "3 int".toList 2) ("3 int".toList.drop 2) =
      some (some .keyword, 3) := by decide
  exact ⟨h, by decide, firstMatch_longest "3 int".toList 2 h⟩

end ConsoleCpp.Token

/-
What the lexical rules take. A rule that applies takes at least one character and no more than there
are, so a scan always gets on and never runs past the end. What a rule without a kind takes is a run
of blanks, a comment up to the end of its line, or a block comment that its first closing mark ends.
-/
import ConsoleCpp.Token.Lexer
import Mathlib.Data.List.TakeWhile

namespace ConsoleCpp.Token

open Text

/-! ## Lengths -/

/-- Whatever the rule takes is something, and no more than there is. -/
def Measured (span : List Char → Option Nat) : Prop :=
  ∀ cs n, span cs = some n → 0 < n ∧ n ≤ cs.length

theorem run_le (p : Char → Bool) (cs : List Char) : run p cs ≤ cs.length :=
  (List.takeWhile_prefix p).length_le

theorem take_run (p : Char → Bool) (cs : List Char) : cs.take (run p cs) = cs.takeWhile p :=
  (List.prefix_iff_eq_take.1 (List.takeWhile_prefix p)).symm

theorem drop_run (p : Char → Bool) (cs : List Char) : cs.drop (run p cs) = cs.dropWhile p := by
  have h := List.takeWhile_append_dropWhile (p := p) (l := cs)
  calc cs.drop (run p cs) = (cs.takeWhile p ++ cs.dropWhile p).drop (cs.takeWhile p).length := by
        rw [h, run]
    _ = cs.dropWhile p := List.drop_left

theorem run_pos {p : Char → Bool} {cs : List Char} (h : run p cs ≠ 0) :
    0 < run p cs ∧ run p cs ≤ cs.length :=
  ⟨Nat.pos_of_ne_zero h, run_le p cs⟩

theorem untilCommentEnd_measured : Measured untilCommentEnd := by
  intro cs
  fun_induction untilCommentEnd cs with
  | case1 => intro n h; cases h
  | case2 rest =>
    intro n h
    cases h
    simp
  | case3 c rest _ ih =>
    intro n h
    obtain ⟨m, hm, rfl⟩ := Option.map_eq_some_iff.1 h
    have := ih m hm
    rw [List.length_cons]
    omega

theorem lineComment_measured : Measured lineComment := by
  intro cs n h
  unfold lineComment at h
  split at h
  · rename_i rest
    cases h
    have := run_le (· != '\n') rest
    simp only [List.length_cons]
    omega
  · cases h

theorem blockComment_measured : Measured blockComment := by
  intro cs n h
  unfold blockComment at h
  split at h
  · obtain ⟨m, hm, rfl⟩ := Option.map_eq_some_iff.1 h
    have := untilCommentEnd_measured _ m hm
    simp only [List.length_cons]
    omega
  · cases h

theorem blanks_measured : Measured blanks := by
  intro cs n h
  unfold blanks at h
  split at h
  · cases h
  · rename_i hn
    cases h
    exact run_pos hn

theorem bracketedPath_le {cs : List Char} {n : Nat} (h : bracketedPath cs = some n) :
    n ≤ cs.length := by
  unfold bracketedPath at h
  dsimp only at h
  split at h
  · rename_i rest hrest
    split at h
    · rename_i m after hm hafter
      cases h
      have h₁ := congrArg List.length hrest
      have h₂ := congrArg List.length hafter
      simp only [List.length_drop, List.length_cons] at h₁ h₂
      omega
    · cases h
  · cases h

theorem headerDirective_measured : Measured headerDirective := by
  intro cs n h
  unfold headerDirective at h
  split at h
  · obtain ⟨m, hm, rfl⟩ := Option.map_eq_some_iff.1 h
    have := bracketedPath_le hm
    simp only [List.length_cons]
    omega
  · cases h

theorem keyword_measured (before : Option Char) : Measured (keyword before) := by
  intro cs n h
  unfold keyword at h
  split at h
  · cases h
  · dsimp only at h
    split at h
    · rename_i hk
      cases h
      refine run_pos fun h0 => ?_
      -- no keyword is empty
      rw [List.length_eq_zero_iff.1 h0] at hk
      exact absurd hk (by decide)
    · cases h

theorem identifier_measured : Measured identifier := by
  intro cs n h
  unfold identifier at h
  split at h
  · rename_i c rest
    split at h
    · cases h
      have := run_le isWord rest
      rw [List.length_cons]
      omega
    · cases h
  · cases h

theorem exponent_le (cs : List Char) : exponent cs ≤ cs.length := by
  unfold exponent
  split
  · rename_i mark rest
    split
    · dsimp only
      split
      · omega
      · rename_i sign hn
        have h₁ := run_pos hn
        rw [List.length_drop] at h₁
        rw [List.length_cons]
        omega
    · omega
  · omega

theorem number_measured : Measured number := by
  intro cs n h
  unfold number at h
  split at h
  · cases h
  · rename_i hw
    have h₁ := run_pos hw
    dsimp only at h
    cases h
    split
    · rename_i rest heq
      have h₂ := run_le isDigit rest
      have h₃ := exponent_le ((rest.drop (run isDigit rest)))
      have h₄ := congrArg List.length heq
      simp only [List.length_drop, List.length_cons] at h₂ h₃ h₄
      rw [heq, Nat.add_comm 1, List.drop_succ_cons, List.drop_succ_cons, List.drop_zero]
      omega
    · have h₂ := run_le isDigit (cs.drop (run isDigit cs))
      have h₃ := exponent_le ((cs.drop (run isDigit cs)).drop
        (run isDigit (cs.drop (run isDigit cs))))
      simp only [List.length_drop] at h₂ h₃
      rw [Nat.zero_add, List.drop_zero]
      omega

theorem charLiteral_measured : Measured charLiteral := by
  intro cs n h
  unfold charLiteral at h
  split at h
  · split at h
    · cases h
    · cases h; simp
  · split at h
    · cases h
    · cases h; simp
  · cases h

theorem stringRest_measured : Measured stringRest := by
  intro cs
  fun_induction stringRest cs with
  | case1 rest => intro n h; cases h; simp
  | case2 => intro n h; cases h
  | case3 c rest _ ih | case5 c rest _ _ _ ih =>
    intro n h
    obtain ⟨m, hm, rfl⟩ := Option.map_eq_some_iff.1 h
    have := ih m hm
    simp only [List.length_cons]
    omega
  | case4 => intro n h; cases h
  | case6 => intro n h; cases h

theorem stringLiteral_measured : Measured stringLiteral := by
  intro cs n h
  unfold stringLiteral at h
  split at h
  · obtain ⟨m, hm, rfl⟩ := Option.map_eq_some_iff.1 h
    have := stringRest_measured _ m hm
    rw [List.length_cons]
    omega
  · cases h

/-- A fixed text that is found stands at the front. -/
theorem oneOf_eq_some {texts : List String} {cs : List Char} {n : Nat}
    (h : oneOf texts cs = some n) :
    ∃ text ∈ texts, text.toList <+: cs ∧ text.length = n := by
  obtain ⟨text, hf, rfl⟩ := Option.map_eq_some_iff.1 h
  have hp : text.toList.isPrefixOf cs = true := by simpa using List.find?_some hf
  exact ⟨text, List.mem_of_find?_eq_some hf, List.isPrefixOf_iff_prefix.1 hp, rfl⟩

theorem oneOf_measured {texts : List String} (ht : ∀ text ∈ texts, 0 < text.length) :
    Measured (oneOf texts) := by
  intro cs n h
  obtain ⟨text, hm, hp, rfl⟩ := oneOf_eq_some h
  exact ⟨ht text hm, by simpa [String.length_toList] using hp.length_le⟩

/-- Every rule of the table takes something, and no more than there is. -/
theorem rules_measured {rule : Rule} (h : rule ∈ rules) (before : Option Char) :
    Measured (rule.span before) := by
  simp only [rules, List.mem_cons, List.not_mem_nil, or_false] at h
  rcases h with rfl | rfl | rfl | rfl | rfl | rfl | rfl | rfl | rfl | rfl | rfl | rfl | rfl |
    rfl | rfl
  · exact lineComment_measured
  · exact blockComment_measured
  · exact headerDirective_measured
  · exact keyword_measured before
  · exact identifier_measured
  · exact number_measured
  · exact charLiteral_measured
  · exact stringLiteral_measured
  all_goals first | exact oneOf_measured (by decide) | exact blanks_measured

/-! ## The first rule that applies -/

theorem firstMatch_eq_some {table : List Rule} {before : Option Char} {cs : List Char}
    {kind : Option Kind} {n : Nat} (h : firstMatch table before cs = some (kind, n)) :
    ∃ rule ∈ table, rule.kind = kind ∧ rule.span before cs = some n := by
  obtain ⟨rule, hr, hs⟩ := List.exists_of_findSome?_eq_some h
  obtain ⟨m, hm, he⟩ := Option.map_eq_some_iff.1 hs
  cases he
  exact ⟨rule, hr, rfl, hm⟩

theorem firstMatch_eq_none_iff {table : List Rule} {before : Option Char} {cs : List Char} :
    firstMatch table before cs = none ↔ ∀ rule ∈ table, rule.span before cs = none := by
  simp [firstMatch, List.findSome?_eq_none_iff]

theorem firstMatch_measured {before : Option Char} {cs : List Char} {kind : Option Kind} {n : Nat}
    (h : firstMatch rules before cs = some (kind, n)) : 0 < n ∧ n ≤ cs.length := by
  obtain ⟨rule, hr, -, hs⟩ := firstMatch_eq_some h
  exact rules_measured hr before cs n hs

/-! ## What is skipped -/

/-- A piece of text that carries no token, with the text after it. -/
inductive Skip : List Char → List Char → Prop
  | blanks {piece after : List Char} :
    piece ≠ [] → (∀ c ∈ piece, isBlank c = true) → Skip piece after
  /-- A comment that goes on to the end of its line. -/
  | line {body after : List Char} :
    '\n' ∉ body → (∀ c ∈ after.head?, c = '\n') → Skip ('/' :: '/' :: body) after
  /-- A comment that goes on to the first closing mark. -/
  | block {body after : List Char} :
    ¬ ['*', '/'] <:+: body ++ ['*'] → Skip ('/' :: '*' :: (body ++ ['*', '/'])) after

/-- The text up to the first closing mark, and no mark before it. -/
theorem untilCommentEnd_eq_some {cs : List Char} {n : Nat} (h : untilCommentEnd cs = some n) :
    ∃ body, cs.take n = body ++ ['*', '/'] ∧ ¬ ['*', '/'] <:+: body ++ ['*'] := by
  fun_induction untilCommentEnd cs generalizing n with
  | case1 => cases h
  | case2 rest =>
    cases h
    exact ⟨[], by simp, by decide⟩
  | case3 c rest hc ih =>
    obtain ⟨m, hm, rfl⟩ := Option.map_eq_some_iff.1 h
    obtain ⟨body, hb, hn⟩ := ih hm
    refine ⟨c :: body, by rw [List.take_succ_cons, hb]; rfl, fun hi => ?_⟩
    rw [List.cons_append, List.infix_cons_iff] at hi
    rcases hi with hp | hi
    · -- a mark at the front would have been taken
      obtain ⟨rfl, hs⟩ := List.cons_prefix_cons.1 hp
      have ht : (body ++ ['*', '/']) <+: rest := hb ▸ List.take_prefix m rest
      obtain ⟨after, rfl⟩ := (hs.trans ⟨['/'], by simp⟩ : ['/'] <+: body ++ ['*', '/']).trans ht
      exact hc after rfl rfl
    · exact hn hi

theorem lineComment_skip {cs : List Char} {n : Nat} (h : lineComment cs = some n) :
    Skip (cs.take n) (cs.drop n) := by
  unfold lineComment at h
  split at h
  · rename_i rest
    cases h
    rw [Nat.add_comm, List.take_succ_cons, List.take_succ_cons, List.drop_succ_cons,
      List.drop_succ_cons, take_run, drop_run]
    refine .line (fun hm => ?_) fun c hc => ?_
    · simpa using List.mem_takeWhile_imp hm
    · have := List.head?_dropWhile_not (· != '\n') rest
      simp_all
  · cases h

theorem blockComment_skip {cs : List Char} {n : Nat} (h : blockComment cs = some n) :
    Skip (cs.take n) (cs.drop n) := by
  unfold blockComment at h
  split at h
  · obtain ⟨m, hm, rfl⟩ := Option.map_eq_some_iff.1 h
    obtain ⟨body, hb, hn⟩ := untilCommentEnd_eq_some hm
    rw [List.take_succ_cons, List.take_succ_cons, hb]
    exact .block hn
  · cases h

theorem blanks_skip {cs : List Char} {n : Nat} (h : blanks cs = some n) :
    Skip (cs.take n) (cs.drop n) := by
  unfold blanks at h
  split at h
  · cases h
  · rename_i hn
    cases h
    rw [take_run]
    refine .blanks (fun h0 => hn ?_) fun c hc => ?_
    · rw [run, h0, List.length_nil]
    · exact List.mem_takeWhile_imp hc

/-- What is taken without a kind carries no token. -/
theorem firstMatch_skip {before : Option Char} {cs : List Char} {n : Nat}
    (h : firstMatch rules before cs = some (none, n)) : Skip (cs.take n) (cs.drop n) := by
  obtain ⟨rule, hr, hk, hs⟩ := firstMatch_eq_some h
  simp only [rules, List.mem_cons, List.not_mem_nil, or_false] at hr
  rcases hr with rfl | rfl | rfl | rfl | rfl | rfl | rfl | rfl | rfl | rfl | rfl | rfl | rfl |
    rfl | rfl
  · exact lineComment_skip hs
  · exact blockComment_skip hs
  all_goals first | exact blanks_skip hs | cases hk

/-! ## One step of a scan -/

/-- The token that is made of a piece with a kind; without one there is none. -/
def emitted (kind : Option Kind) (piece : List Char) (offset : Nat) : List Token :=
  (kind.map fun kind => ⟨kind, String.ofList piece, offset⟩).toList

/-- The piece that the first rule takes, and the text after it. -/
theorem firstMatch_split {before : Option Char} {cs : List Char} {kind : Option Kind} {n : Nat}
    (h : firstMatch rules before cs = some (kind, n)) :
    ∃ piece after, cs = piece ++ after ∧ piece ≠ [] ∧ piece.length = n := by
  obtain ⟨hpos, hle⟩ := firstMatch_measured h
  have hn : (cs.take n).length = n := List.length_take_of_le hle
  refine ⟨cs.take n, cs.drop n, (List.take_append_drop n cs).symm, ?_, hn⟩
  exact List.ne_nil_of_length_pos (by omega)

theorem scanFrom_nil (offset : Nat) (before : Option Char) :
    scanFrom offset before [] = .ok [] := by
  rw [scanFrom]

/-- Where no rule applies, the scan fails. -/
theorem scanFrom_stray {before : Option Char} {c : Char} {rest : List Char} (offset : Nat)
    (h : firstMatch rules before (c :: rest) = none) :
    scanFrom offset before (c :: rest) = .error ⟨offset, c⟩ := by
  rw [scanFrom, h]

/-- Where a rule applies, the scan goes on after the piece it takes. -/
theorem scanFrom_piece {before : Option Char} {piece after : List Char} {kind : Option Kind}
    (offset : Nat) (hp : piece ≠ [])
    (h : firstMatch rules before (piece ++ after) = some (kind, piece.length)) :
    scanFrom offset before (piece ++ after) =
      (scanFrom (offset + piece.length) piece.getLast? after).map
        (emitted kind piece offset ++ ·) := by
  obtain ⟨c, cs, rfl⟩ := List.exists_cons_of_ne_nil hp
  rw [List.cons_append] at h ⊢
  have hd : (cs ++ after).drop ((c :: cs).length - 1) = after := by
    rw [List.length_cons, Nat.add_sub_cancel, List.drop_left]
  rw [scanFrom, h]
  dsimp only
  rw [hd, ← List.cons_append, List.take_left]
  cases scanFrom (offset + (c :: cs).length) (c :: cs).getLast? after with
  | error _ => rfl
  | ok _ => cases kind <;> rfl

end ConsoleCpp.Token

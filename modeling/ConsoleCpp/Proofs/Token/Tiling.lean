/-
Scanning loses nothing. The tokens of a text and what is skipped around them tile the text: each
token is the piece of the text at its offset that the first rule to apply there takes, the next one
starts no earlier than it ends, and all between them is blanks and comments. Where a scan fails, no
rule applies at the place it names, and the text before that place is tiled in the same way.

The induction is on the text still to be scanned. It is stated over the whole text, of which
`seen` is already scanned, so that offsets and the character before a position mean the same in
every step.
-/
import ConsoleCpp.Proofs.Token.Spans
import Mathlib.Data.List.Basic

namespace ConsoleCpp.Token

/-! ## Tilings -/

/-- The text from one position up to another. -/
def slice (text : List Char) (start stop : Nat) : List Char := (text.drop start).take (stop - start)

/-- The character before a position, if there is one. -/
def charBefore (text : List Char) (offset : Nat) : Option Char := (text.take offset).getLast?

/-- The position right after a token. -/
def stop (t : Token) : Nat := t.offset + t.text.length

/-- A text that is made of blanks and comments, with the text after it. -/
inductive Skipped : List Char → List Char → Prop
  | none {after : List Char} : Skipped [] after
  | more {piece rest after : List Char} :
    Skip piece (rest ++ after) → Skipped rest after → Skipped (piece ++ rest) after

/-- The token stands at its offset in the text, as the first rule that applies there has it. -/
structure StandsIn (text : List Char) (t : Token) : Prop where
  nonempty : t.text ≠ ""
  slice : t.text.toList = slice text t.offset t.stop
  first : firstMatch rules (charBefore text t.offset) (text.drop t.offset) =
    some (some t.kind, t.text.length)

/-- Between the two positions, the text is these tokens in this order with what is skipped before,
between and after them. -/
def Tiled (text : List Char) (start stop : Nat) : List Token → Prop
  | [] => start ≤ stop ∧ Skipped (slice text start stop) (text.drop stop)
  | t :: rest =>
    start ≤ t.offset ∧ Skipped (slice text start t.offset) (text.drop t.offset) ∧
      StandsIn text t ∧ Tiled text t.stop stop rest

/-- The place lies in the text, and no rule applies there. -/
structure Stray.StandsIn (text : List Char) (place : Stray) : Prop where
  character : text[place.offset]? = some place.character
  unmatched : ∀ rule ∈ rules,
    rule.span (charBefore text place.offset) (text.drop place.offset) = none

theorem slice_self (text : List Char) (start : Nat) : slice text start start = [] := by
  rw [slice, Nat.sub_self, List.take_zero]

theorem slice_append_drop (text : List Char) {start stop : Nat} (h : start ≤ stop) :
    slice text start stop ++ text.drop stop = text.drop start := by
  have hd : text.drop stop = (text.drop start).drop (stop - start) := by
    rw [List.drop_drop, Nat.add_sub_cancel' h]
  rw [slice, hd, List.take_append_drop]

section

variable {text seen piece after : List Char} {stop : Nat} {tokens : List Token}

/-- The slice that starts with a piece. -/
theorem slice_piece (h : text = seen ++ piece ++ after) (hs : (seen ++ piece).length ≤ stop) :
    slice text seen.length stop = piece ++ slice text (seen ++ piece).length stop := by
  subst h
  rw [List.length_append] at hs ⊢
  rw [slice, slice, List.append_assoc, List.drop_left, ← List.append_assoc,
    ← List.length_append, List.drop_left, List.take_append, List.length_append]
  rw [List.take_of_length_le (by omega)]
  congr 2
  omega

theorem Skipped.extend (h : text = seen ++ piece ++ after) (hp : Skip piece after)
    (hs : (seen ++ piece).length ≤ stop)
    (ht : Skipped (slice text (seen ++ piece).length stop) (text.drop stop)) :
    Skipped (slice text seen.length stop) (text.drop stop) := by
  rw [slice_piece h hs]
  refine .more ?_ ht
  rw [slice_append_drop text hs, h, List.drop_left]
  exact hp

/-- What is skipped goes in front of a tiling. -/
theorem Tiled.skip (h : text = seen ++ piece ++ after) (hp : Skip piece after)
    (ht : Tiled text (seen ++ piece).length stop tokens) : Tiled text seen.length stop tokens := by
  have hle : seen.length ≤ (seen ++ piece).length := by simp
  cases tokens with
  | nil => exact ⟨hle.trans ht.1, .extend h hp ht.1 ht.2⟩
  | cons t rest => exact ⟨hle.trans ht.1, .extend h hp ht.1 ht.2.1, ht.2.2⟩

theorem charBefore_length (h : text = seen ++ after) :
    charBefore text seen.length = seen.getLast? := by
  rw [charBefore, h, List.take_left]

/-- A token goes in front of a tiling that starts where it ends. -/
theorem Tiled.token {kind : Kind} (h : text = seen ++ piece ++ after) (hp : piece ≠ [])
    (hf : firstMatch rules seen.getLast? (piece ++ after) = some (some kind, piece.length))
    (ht : Tiled text (seen ++ piece).length stop tokens) :
    Tiled text seen.length stop (⟨kind, String.ofList piece, seen.length⟩ :: tokens) := by
  have hl : (String.ofList piece).length = piece.length := by simp
  have he : Token.stop ⟨kind, String.ofList piece, seen.length⟩ = (seen ++ piece).length := by
    rw [Token.stop, hl, List.length_append]
  refine ⟨Nat.le_refl _, ?_, ⟨?_, ?_, ?_⟩, he ▸ ht⟩
  · rw [slice_self]
    exact .none
  · simpa using hp
  · rw [he, slice_piece h (Nat.le_refl _), slice_self, List.append_nil, String.toList_ofList]
  · have hs : text = seen ++ (piece ++ after) := by rw [h, List.append_assoc]
    rw [charBefore_length hs, hl, hs, List.drop_left]
    exact hf

end

/-- Each token of a tiling ends before the next ones start. -/
theorem Tiled.pairwise {text : List Char} {start stop : Nat} {tokens : List Token}
    (h : Tiled text start stop tokens) :
    (∀ t ∈ tokens, start ≤ t.offset) ∧ tokens.Pairwise fun s t => s.stop ≤ t.offset := by
  induction tokens generalizing start with
  | nil => exact ⟨by simp, .nil⟩
  | cons t rest ih =>
    obtain ⟨ho, -, -, hr⟩ := h
    obtain ⟨hge, hp⟩ := ih hr
    have hs : t.offset ≤ t.stop := Nat.le_add_right _ _
    refine ⟨fun s hm => ?_, .cons hge hp⟩
    rcases List.mem_cons.1 hm with rfl | hm
    · exact ho
    · exact (ho.trans hs).trans (hge s hm)

/-! ## Scanning -/

/-- What a scan from a position on says about the text. -/
def Tells (text : List Char) (start : Nat) : Except Stray (List Token) → Prop
  | .ok tokens => Tiled text start text.length tokens
  | .error place => place.StandsIn text ∧ ∃ tokens, Tiled text start place.offset tokens

/-- A piece goes in front of what is said about the text after it. -/
theorem Tells.piece {text seen piece after : List Char} {kind : Option Kind}
    {result : Except Stray (List Token)} (h : text = seen ++ piece ++ after) (hp : piece ≠ [])
    (hf : firstMatch rules seen.getLast? (piece ++ after) = some (kind, piece.length))
    (ht : Tells text (seen ++ piece).length result) :
    Tells text seen.length (result.map (emitted kind piece seen.length ++ ·)) := by
  have hstep : ∀ {stop : Nat} {tokens : List Token}, Tiled text (seen ++ piece).length stop tokens →
      Tiled text seen.length stop (emitted kind piece seen.length ++ tokens) := by
    intro stop tokens htokens
    cases kind with
    | none =>
      have hskip := firstMatch_skip hf
      rw [List.take_left, List.drop_left] at hskip
      exact htokens.skip h hskip
    | some kind => exact htokens.token h hp hf
  cases result with
  | ok tokens => exact hstep ht
  | error place =>
    obtain ⟨hplace, tokens, htokens⟩ := ht
    exact ⟨hplace, _, hstep htokens⟩

theorem scanFrom_tells (seen cs : List Char) :
    Tells (seen ++ cs) seen.length (scanFrom seen.length seen.getLast? cs) := by
  -- the rest gets shorter by each piece, which what was seen takes up
  induction hn : cs.length using Nat.strong_induction_on generalizing seen cs with
  | _ n ih =>
    cases cs with
    | nil =>
      rw [scanFrom_nil, List.append_nil]
      exact ⟨Nat.le_refl _, by rw [slice_self]; exact .none⟩
    | cons c rest =>
      cases hf : firstMatch rules seen.getLast? (c :: rest) with
      | none =>
        rw [scanFrom_stray _ hf]
        refine ⟨⟨by simp, ?_⟩, [], Nat.le_refl _, by rw [slice_self]; exact .none⟩
        rw [charBefore_length rfl, List.drop_left]
        exact firstMatch_eq_none_iff.1 hf
      | some taken =>
        obtain ⟨kind, length⟩ := taken
        obtain ⟨piece, after, hsplit, hpiece, rfl⟩ := firstMatch_split hf
        have hpos : 0 < piece.length := List.length_pos_of_ne_nil hpiece
        rw [hsplit] at hf hn ⊢
        have htell := ih after.length (by rw [← hn, List.length_append]; omega)
          (seen ++ piece) after rfl
        rw [List.getLast?_append_of_ne_nil _ hpiece, List.append_assoc] at htell
        rw [scanFrom_piece _ hpiece hf, ← List.length_append]
        exact htell.piece (List.append_assoc ..).symm hpiece hf

/-- Whatever the source, its tokens and what is skipped around them tile the normalised text, in
order and without overlap; or the scan names a place in that text where no rule applies, and the
text before it is tiled so. -/
theorem scan_tiled (invisible : List Char) (source : String) :
    let text := normalize invisible source
    match scan text with
    | .ok tokens =>
      Tiled text 0 text.length tokens ∧ tokens.Pairwise fun s t => s.stop ≤ t.offset
    | .error place =>
      place.StandsIn text ∧ ∃ tokens, Tiled text 0 place.offset tokens ∧
        tokens.Pairwise fun s t => s.stop ≤ t.offset := by
  intro text
  have htell := scanFrom_tells [] text
  rw [List.nil_append, List.length_nil, List.getLast?_nil] at htell
  unfold scan
  cases hscan : scanFrom 0 none text with
  | ok tokens =>
    rw [hscan] at htell
    exact ⟨htell, htell.pairwise.2⟩
  | error place =>
    rw [hscan] at htell
    obtain ⟨hplace, tokens, ht⟩ := htell
    exact ⟨hplace, tokens, ht, ht.pairwise.2⟩

end ConsoleCpp.Token

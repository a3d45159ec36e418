/-
Brackets in lines. A line is read character by character, with a count of the brackets that are open
outside literals and of the most that were open so far. A text that closes what it opens, read where
so many brackets have been open before that it adds none to the most, leaves everything as it is; so
such texts can be put one after another, and in brackets at the price of one bracket more.
-/
import ConsoleCpp.Proofs.Number.Reading
import ConsoleCpp.Proofs.Target.Literals
import ConsoleCpp.Target.Name
import ConsoleCpp.Target.Stmt
import Mathlib.Tactic.SplitIfs

namespace ConsoleCpp.Target

open Token (WordText NumberText)
open scoped Token

/-! ## Reading a line -/

/-- Where the reading of a line stands: how many brackets are open and how many were at most, and
inside a literal its quote and whether a backslash came just before. -/
structure BracketCount where
  opened : Nat
  deepest : Nat
  quote : Option Char
  escaped : Bool
deriving DecidableEq, Repr, Inhabited

namespace BracketCount

/-- Outside literals, with so many brackets open now and at most. -/
def outside (opened deepest : Nat) : BracketCount := ⟨opened, deepest, none, false⟩

/-- Inside a literal with this quote. -/
def inside (opened deepest : Nat) (quote : Char) : BracketCount := ⟨opened, deepest, some quote, false⟩

/-- The next character. A character after a backslash does not end a literal. -/
def next (r : BracketCount) (c : Char) : BracketCount :=
  match r.quote with
  | some quote =>
    if r.escaped then { r with escaped := false }
    else if c == '\\' then { r with escaped := true }
    else if c == quote then { r with quote := none }
    else r
  | none =>
    if c == '"' || c == '\'' then { r with quote := some c }
    else if c == '(' || c == '[' then
      { r with opened := r.opened + 1, deepest := max r.deepest (r.opened + 1) }
    else if c == ')' || c == ']' then { r with opened := r.opened - 1 }
    else r

/-- Reads characters one by one. -/
def read (r : BracketCount) (cs : List Char) : BracketCount := cs.foldl next r

variable {r : BracketCount}

@[simp] theorem read_nil : r.read [] = r := rfl

@[simp] theorem read_cons (c : Char) (cs : List Char) : r.read (c :: cs) = (r.next c).read cs := rfl

@[simp] theorem read_append (xs ys : List Char) : r.read (xs ++ ys) = (r.read xs).read ys :=
  List.foldl_append

/-- More brackets in the past change nothing but the record of them. -/
theorem read_deepest (cs : List Char) : ∀ {r : BracketCount} {most : Nat}, r.deepest ≤ most →
    (r.read cs).deepest ≤ ({ r with deepest := most }.read cs).deepest := by
  induction cs with
  | nil => exact fun h => h
  | cons c cs ih =>
    intro r most h
    have hstep : ∃ later, ({ r with deepest := most }.next c) = { r.next c with deepest := later } ∧
        (r.next c).deepest ≤ later := by
      obtain ⟨opened, deepest, quote, escaped⟩ := r
      unfold next
      dsimp only at h ⊢
      split
      · split_ifs <;> exact ⟨most, rfl, h⟩
      · split_ifs
        · exact ⟨most, rfl, h⟩
        · exact ⟨max most (opened + 1), rfl, by dsimp only; omega⟩
        · exact ⟨most, rfl, h⟩
        · exact ⟨most, rfl, h⟩
    -- one character later the two counts still differ in nothing but the record
    obtain ⟨later, he, hl⟩ := hstep
    rw [read_cons, read_cons, he]
    exact ih hl

end BracketCount

/-- The most brackets that are open at once in a line, outside literals. -/
def Line.deepest (line : Line) : Nat := ((BracketCount.outside 0 0).read line.text.toList).deepest

example : Line.deepest ⟨1, "x = f((a), \"((\", b[0])"⟩ = 2 := by decide

/-! ## Texts that close what they open -/

open BracketCount (outside inside)

/-- The text closes the brackets and literals that it opens, and has at most `most` brackets open at
once. -/
def Closes (most : Nat) (text : String) : Prop :=
  ∀ opened deepest, opened + most ≤ deepest →
    (outside opened deepest).read text.toList = outside opened deepest

/-- Brackets and quotes. -/
def delimiters : List Char := ['(', ')', '[', ']', '"', '\'']

/-- The text has no brackets and no quotes. -/
def Plain (text : String) : Prop := ∀ c ∈ text.toList, c ∉ delimiters

instance (text : String) : Decidable (Plain text) :=
  inferInstanceAs (Decidable (∀ c ∈ text.toList, c ∉ delimiters))

variable {most more : Nat} {text other : String}

theorem Closes.deepest_le {line : Line} (h : Closes most line.text) : line.deepest ≤ most := by
  have hread : (outside 0 most).read line.text.toList = outside 0 most := h 0 most (by omega)
  have hle := BracketCount.read_deepest line.text.toList (r := outside 0 0) (Nat.zero_le most)
  rw [Line.deepest]
  exact Nat.le_trans hle (by rw [show ({ outside 0 0 with deepest := most } : BracketCount) =
    outside 0 most from rfl, hread]; exact Nat.le_refl _)

theorem Closes.mono (h : Closes most text) (hm : most ≤ more) : Closes more text :=
  fun opened deepest hd => h opened deepest (by omega)

theorem Closes.append (h₁ : Closes most text) (h₂ : Closes most other) :
    Closes most (text ++ other) := by
  intro opened deepest hd
  rw [String.toList_append, BracketCount.read_append, h₁ opened deepest hd, h₂ opened deepest hd]

theorem Plain.read (h : Plain text) (opened deepest : Nat) :
    (outside opened deepest).read text.toList = outside opened deepest := by
  have hplain : ∀ cs : List Char, (∀ c ∈ cs, c ∉ delimiters) →
      (outside opened deepest).read cs = outside opened deepest := by
    intro cs
    induction cs with
    | nil => exact fun _ => rfl
    | cons c cs ih =>
      intro hcs
      obtain ⟨hc, hcs⟩ := List.forall_mem_cons.1 hcs
      have hn : (outside opened deepest).next c = outside opened deepest := by
        simp only [delimiters, List.mem_cons, List.not_mem_nil, or_false, not_or] at hc
        simp [BracketCount.next, outside, hc]
      rw [BracketCount.read_cons, hn, ih hcs]
  exact hplain _ h

theorem Plain.closes (h : Plain text) : Closes most text := fun opened deepest _ =>
  h.read opened deepest

theorem Plain.append (h₁ : Plain text) (h₂ : Plain other) : Plain (text ++ other) := by
  intro c hc
  rw [String.toList_append] at hc
  exact (List.mem_append.1 hc).elim (h₁ c) (h₂ c)

/-- In brackets there is one bracket more open. -/
theorem Closes.round (h : Closes most text) : Closes (most + 1) ("(" ++ text ++ ")") := by
  intro opened deepest hd
  -- the record holds already, since there was room for one bracket more
  have hmax : max deepest (opened + 1) = deepest := by omega
  have hopen : (outside opened deepest).read "(".toList = outside (opened + 1) deepest := by
    simp [BracketCount.next, outside, hmax]
  have hclose : (outside (opened + 1) deepest).read ")".toList = outside opened deepest := rfl
  rw [String.toList_append, String.toList_append, BracketCount.read_append,
    BracketCount.read_append, hopen, h (opened + 1) deepest (by omega), hclose]

theorem Closes.intercalate {separator : String} (hs : Plain separator) :
    ∀ {texts : List String}, (∀ t ∈ texts, Closes most t) →
      Closes most (String.intercalate separator texts)
  | [], _ => fun _ _ _ => rfl
  | [t], h => by
    rw [String.intercalate_singleton]
    exact h t (.head _)
  | t :: u :: rest, h => by
    obtain ⟨ht, hrest⟩ := List.forall_mem_cons.1 h
    rw [String.intercalate_cons_cons]
    exact (ht.append hs.closes).append (Closes.intercalate hs hrest)

/-! ## Texts that open brackets -/

/-- Somewhere in the text at least so many brackets are open. -/
def Reaches (least : Nat) (text : String) : Prop :=
  ∀ opened deepest, opened + least ≤ ((outside opened deepest).read text.toList).deepest

variable {least : Nat}

theorem BracketCount.deepest_le_read (cs : List Char) : ∀ r : BracketCount,
    r.deepest ≤ (r.read cs).deepest := by
  induction cs with
  | nil => exact fun r => Nat.le_refl _
  | cons c cs ih =>
    intro r
    have hnext : r.deepest ≤ (r.next c).deepest := by
      unfold BracketCount.next
      split
      · split_ifs <;> exact Nat.le_refl _
      · split_ifs
        · exact Nat.le_refl _
        · exact Nat.le_max_left _ _
        · exact Nat.le_refl _
        · exact Nat.le_refl _
    exact Nat.le_trans hnext (ih _)

theorem Reaches.le_deepest (h : Reaches least text) (depth : Nat) :
    least ≤ Line.deepest ⟨depth, text⟩ := by
  have hl := h 0 0
  rwa [Nat.zero_add] at hl

theorem Reaches.append (h : Reaches least text) (after : String) :
    Reaches least (text ++ after) := by
  intro opened deepest
  rw [String.toList_append, BracketCount.read_append]
  exact Nat.le_trans (h opened deepest) (BracketCount.deepest_le_read _ _)

/-- Behind a text without brackets. -/
theorem Reaches.behind (h : Reaches least text) {before : String} (hb : Plain before) :
    Reaches least (before ++ text) := by
  intro opened deepest
  rw [String.toList_append, BracketCount.read_append, hb.read]
  exact h opened deepest

/-- The first bracket. -/
theorem reaches_one (text : String) : Reaches 1 ("(" ++ text) := by
  intro opened deepest
  rw [String.toList_append, BracketCount.read_append]
  have hl := BracketCount.deepest_le_read text.toList (outside (opened + 1) (max deepest (opened + 1)))
  exact Nat.le_trans (Nat.le_max_right deepest (opened + 1)) hl

theorem Reaches.round (h : Reaches least text) : Reaches (least + 1) ("(" ++ text ++ ")") := by
  -- the deepest place comes before the closing bracket, so that may be left out
  have hopened : Reaches (least + 1) ("(" ++ text) := by
    intro opened deepest
    have hl := h (opened + 1) (max deepest (opened + 1))
    rw [String.toList_append, BracketCount.read_append]
    show _ ≤ ((outside (opened + 1) (max deepest (opened + 1))).read text.toList).deepest
    omega
  exact hopened.append ")"

/-! ## Words and numbers -/

/-- Characters of a class without brackets and quotes. -/
theorem plain_of_class {p : Char → Bool} (hp : ∀ c ∈ delimiters, p c = false)
    (h : ∀ c ∈ text.toList, p c = true) : Plain text := by
  intro c hc hm
  have ht := h c hc
  rw [hp c hm] at ht
  cases ht

theorem plain_of_words (h : ∀ c ∈ text.toList, Text.isWord c = true) : Plain text :=
  plain_of_class (by decide) h

theorem plain_word {name : String} (h : WordText name.toList) : Plain name :=
  plain_of_words h.all_word

/-- What number literals consist of. -/
def isNumberChar (c : Char) : Bool := Text.isDigit c || ['.', 'e', 'E', '+', '-'].contains c

theorem isNumberChar_toString (n : Nat) : ∀ c ∈ (toString n).toList, isNumberChar c = true := by
  intro c hc
  rw [Nat.toString_eq_repr, Nat.repr_eq_ofList_toDigits, String.toList_ofList] at hc
  have hdigit := Nat.isDigit_of_mem_toDigits (by decide) (by decide) hc
  rw [isNumberChar, Text.isDigit, Number.digitValue?_of_isDigit hdigit]
  rfl

theorem isNumberChar_of_numberText {cs : List Char} (h : NumberText cs) :
    ∀ c ∈ cs, isNumberChar c = true := by
  have hdigits : ∀ {cs : List Char}, (∀ d ∈ cs, Text.isDigit d = true) →
      ∀ c ∈ cs, isNumberChar c = true := fun hd c hc => by rw [isNumberChar, hd c hc, Bool.true_or]
  have hexponent : ∀ {cs : List Char}, Token.ExponentText cs → ∀ c ∈ cs, isNumberChar c = true := by
    rintro cs (_ | ⟨hm, hs, -, hd⟩)
    · exact nofun
    · refine List.forall_mem_cons.2 ⟨?_, List.forall_mem_append.2 ⟨?_, hdigits hd⟩⟩
      · rcases hm with rfl | rfl <;> decide
      · simp only [List.mem_cons, List.not_mem_nil, or_false] at hs
        rcases hs with rfl | rfl | rfl <;> decide
  cases h with
  | whole _ hd he => exact List.forall_mem_append.2 ⟨hdigits hd, hexponent he⟩
  | point _ hd hf he =>
    refine List.forall_mem_append.2 ⟨hdigits hd, List.forall_mem_cons.2 ⟨by decide, ?_⟩⟩
    exact List.forall_mem_append.2 ⟨hdigits hf, hexponent he⟩

theorem isNumberChar_numberLiteral {spelling : String} (ht : NumberText text.toList)
    (h : numberLiteral text = .ok spelling) : ∀ c ∈ spelling.toList, isNumberChar c = true := by
  unfold numberLiteral at h
  dsimp only at h
  split at h
  · split at h
    · split at h
      · cases h
      · cases h
        exact isNumberChar_toString _
    · split at h
      · cases h
      · cases h
        exact isNumberChar_toString _
  · cases h
    exact isNumberChar_of_numberText ht

theorem plain_safeName {name : String} (h : Plain name) : Plain (safeName name) := by
  unfold safeName
  split
  · exact h.append (by decide)
  · exact h

/-! ## Literals -/

/-- What stands between two quotes does not end the literal. -/
theorem read_within {opened deepest : Nat} {quote : Char} {inner : List Char}
    (h : Within quote inner) :
    (inside opened deepest quote).read inner = inside opened deepest quote := by
  induction h with
  | nil => rfl
  | pair _ ih =>
    rw [BracketCount.read_cons, BracketCount.read_cons]
    simpa [BracketCount.next, inside] using ih
  | plain hq hb _ ih =>
    rw [BracketCount.read_cons]
    simpa [BracketCount.next, inside, hq, hb] using ih

theorem Delimited.read {cs : List Char} (h : Delimited cs) (opened deepest : Nat) :
    (outside opened deepest).read cs = outside opened deepest := by
  obtain ⟨quote, inner, hq, rfl, hw⟩ := h
  have hopen : (outside opened deepest).next quote = inside opened deepest quote := by
    rcases hq with rfl | rfl <;> rfl
  have hclose : (inside opened deepest quote).next quote = outside opened deepest := by
    rcases hq with rfl | rfl <;> rfl
  rw [BracketCount.read_cons, hopen, BracketCount.read_append, read_within hw,
    BracketCount.read_cons, hclose, BracketCount.read_nil]

theorem closes_quoted (name : String) : Closes most (Text.quoted name) :=
  fun opened deepest _ => (delimited_quoted name).read opened deepest

end ConsoleCpp.Target

/-
The block structure of generated lines. Each line is marked with its depth and with what it does to
the blocks around it. Statements whose suites hold something give lines in which every line that
opens a block is followed by one a level deeper, no other line is, and every further branch of a
conditional continues the branch before it. This holds of a suite by itself, so it is put together
suite by suite.
-/
import ConsoleCpp.Target.Stmt
import ConsoleCpp.Text.Word
import Mathlib.Data.List.Chain
import Mathlib.Data.List.TakeWhile

namespace ConsoleCpp.Target

open Text (isWord)

/-! ## Kinds of lines -/

/-- What a line does to the blocks around it. -/
inductive LineKind where
  | definition
  | branch
  /-- A further branch of a conditional, with a condition of its own. -/
  | further
  /-- The last branch of a conditional, without condition. -/
  | otherwise
  | loop
  /-- A line that opens no block. -/
  | plain
deriving DecidableEq, Repr, Inhabited

namespace LineKind

/-- The word that a line of the kind starts with, if it opens a block. -/
def word : LineKind → String
  | .definition => "def"
  | .branch => "if"
  | .further => "elif"
  | .otherwise => "else"
  | .loop => "while"
  | .plain => ""

/-- The kinds that open a block. -/
def headers : List LineKind := [.definition, .branch, .further, .otherwise, .loop]

/-- Whether a line of the kind opens a block. -/
def isHeader (kind : LineKind) : Bool := headers.contains kind

/-- Whether a line of the kind has a condition that another branch may follow. -/
def isBranch : LineKind → Bool
  | .branch | .further => true
  | _ => false

/-- Whether a line of the kind goes on with a conditional. -/
def continues : LineKind → Bool
  | .further | .otherwise => true
  | _ => false

theorem isHeader_of_isBranch {kind : LineKind} (h : kind.isBranch = true) :
    kind.isHeader = true := by
  cases kind <;> first | rfl | cases h

/-- The kind of a line, read off the first word of its text. -/
def ofText (text : String) : LineKind :=
  (headers.find? fun kind => kind.word.toList == text.toList.takeWhile isWord).getD .plain

/-- The first word ends where a character stands that belongs to no word. -/
theorem ofText_append {text after : String} (h : ∀ c ∈ after.toList.head?, isWord c = false) :
    ofText (text ++ after) = ofText text := by
  have ha : after.toList.takeWhile isWord = [] := by
    cases ht : after.toList with
    | nil => rfl
    | cons c rest => exact List.takeWhile_cons_of_neg (by simpa using h c (by rw [ht]; rfl))
  have hw : (text ++ after).toList.takeWhile isWord = text.toList.takeWhile isWord := by
    rw [String.toList_append, List.takeWhile_append]
    split
    · rename_i hl
      rw [ha, List.append_nil]
      exact (List.IsPrefix.eq_of_length (List.takeWhile_prefix _) hl).symm
    · rfl
  rw [ofText, ofText, hw]

/-- Nothing after the first word matters. -/
theorem ofText_append_of_any {text after : String} (h : text.toList.any (!isWord ·) = true) :
    ofText (text ++ after) = ofText text := by
  have hw : (text ++ after).toList.takeWhile isWord = text.toList.takeWhile isWord := by
    rw [String.toList_append, List.takeWhile_append, if_neg]
    intro hl
    obtain ⟨c, hc, hn⟩ := List.any_eq_true.1 h
    rw [← List.IsPrefix.eq_of_length (List.takeWhile_prefix _) hl] at hc
    simp [List.all_eq_true.1 List.all_takeWhile c hc] at hn
  rw [ofText, ofText, hw]

/-- No word that opens a block starts with another letter than these. -/
theorem ofText_of_head {text : String} (h : ∀ c ∈ text.toList.head?, c ∉ ['d', 'e', 'i', 'w']) :
    ofText text = .plain := by
  have hfirst : ∀ kind ∈ headers,
      kind.word.toList.head?.any (['d', 'e', 'i', 'w'].contains ·) = true := by
    decide
  have hnone : headers.find? (fun kind => kind.word.toList == text.toList.takeWhile isWord) =
      none := by
    rw [List.find?_eq_none]
    intro kind hk hw
    obtain ⟨c, hc, hd⟩ := (Option.any_eq_true _ _).1 (hfirst kind hk)
    rw [beq_iff_eq.1 hw, List.head?_takeWhile, Option.filter_eq_some_iff] at hc
    exact h c hc.1 (List.contains_iff_mem.1 hd)
  rw [ofText, hnone, Option.getD_none]

theorem ofText_append_of_head {text after : String} {c : Char} (hc : text.toList.head? = some c)
    (hn : c ∉ ['d', 'e', 'i', 'w']) : ofText (text ++ after) = .plain := by
  refine ofText_of_head fun d hd => ?_
  rw [String.toList_append, List.head?_append, hc, Option.some_or] at hd
  cases hd
  exact hn

/-- A word that opens no block. -/
theorem ofText_of_word {text : String} (hw : ∀ c ∈ text.toList, isWord c = true)
    (hn : ∀ kind ∈ headers, text ≠ kind.word) : ofText text = .plain := by
  have hnone : headers.find? (fun kind => kind.word.toList == text.toList.takeWhile isWord) =
      none := by
    rw [List.takeWhile_eq_self_iff.2 hw, List.find?_eq_none]
    intro kind hk he
    exact hn kind hk (String.ext (beq_iff_eq.1 he).symm)
  rw [ofText, hnone, Option.getD_none]

end LineKind

/-! ## Marks -/

/-- The depth of a line and what it does to the blocks around it. -/
structure Mark where
  depth : Nat
  kind : LineKind
deriving DecidableEq, Repr, Inhabited

/-- The mark of a line, read off its text. -/
def Line.mark (line : Line) : Mark := ⟨line.depth, .ofText line.text⟩

namespace Stmt

mutual

/-- The marks of the lines of a statement. A conditional is opened by a line of the kind
`opener`. -/
def marksFrom (opener : LineKind) (depth : Nat) : Stmt → List Mark
  | .define _ nonlocals body =>
    ⟨depth, .definition⟩ ::
      ((if nonlocals.isEmpty then [] else [⟨depth + 1, .plain⟩]) ++ suiteMarks (depth + 1) body)
  | .ifElse _ thenSuite elseSuite chained =>
    ⟨depth, opener⟩ ::
      (suiteMarks (depth + 1) thenSuite ++
        (if chained then chainMarks depth elseSuite
         else if elseSuite.isEmpty then []
         else ⟨depth, .otherwise⟩ :: suiteMarks (depth + 1) elseSuite))
  | .whileLoop _ body => ⟨depth, .loop⟩ :: suiteMarks (depth + 1) body
  | .leaveUnless _ => [⟨depth, .branch⟩, ⟨depth + 1, .plain⟩]
  | .assign _ _ | .augment _ _ _ | .eval _ | .print _ | .unimplemented _ | .ret _ | .breakLoop
  | .continueLoop | .pass => [⟨depth, .plain⟩]

/-- The marks of the lines of a suite. -/
def suiteMarks (depth : Nat) : List Stmt → List Mark
  | [] => []
  | s :: rest => marksFrom .branch depth s ++ suiteMarks depth rest

/-- The marks of the lines of a further branch of a conditional. -/
def chainMarks (depth : Nat) : List Stmt → List Mark
  | [] => []
  | s :: rest => marksFrom .further depth s ++ chainMarks depth rest

end

end Stmt

/-- The marks of the lines of a program. -/
def Program.marks (p : Program) : List Mark :=
  prologue.map Line.mark ++ Stmt.suiteMarks 1 (p.stubs ++ p.body) ++ epilogue.map Line.mark

/-! ## Blocks -/

/-- The line stands right before a further branch of its conditional at this place: no line at its
level or outside it comes after it. -/
def Opener (before : List Mark) (m : Mark) : Prop :=
  ∃ earlier opener between, before = earlier ++ opener :: between ∧
    opener.kind.isBranch = true ∧ opener.depth = m.depth ∧ ∀ x ∈ between, m.depth < x.depth

/-- Lines that form blocks, none deeper than `limit`. -/
structure Blocked (limit : Nat) (marks : List Mark) : Prop where
  /-- The first line is not indented. -/
  first : ∀ m ∈ marks.head?, m.depth = 0
  /-- A line that opens a block is followed by one a level deeper. -/
  header : ∀ before m after, marks = before ++ m :: after → m.kind.isHeader = true →
    ∃ next ∈ after.head?, next.depth = m.depth + 1
  /-- A line that opens no block is followed by none that is deeper. -/
  other : ∀ before m after, marks = before ++ m :: after → m.kind.isHeader = false →
    ∀ next ∈ after.head?, next.depth ≤ m.depth
  /-- A further branch goes on with the conditional before it. -/
  continued : ∀ before m after, marks = before ++ m :: after → m.kind.continues = true →
    Opener before m
  room : ∀ m ∈ marks, m.depth ≤ limit

/-- What may follow a line. -/
def Follows (m next : Mark) : Prop :=
  if m.kind.isHeader then next.depth = m.depth + 1 else next.depth ≤ m.depth

/-- Every further branch of a conditional continues the branch before it, among these lines and the
lines before them. -/
def Attached : (before : List Mark) → List Mark → Prop
  | _, [] => True
  | before, m :: rest => (m.kind.continues = true → Opener before m) ∧ Attached (before ++ [m]) rest

section

variable {earlier before marks after : List Mark} {m : Mark}

theorem Opener.append (h : Opener before m) : Opener (earlier ++ before) m := by
  obtain ⟨first, opener, between, rfl, h⟩ := h
  exact ⟨earlier ++ first, opener, between, (List.append_assoc ..).symm, h⟩

theorem Attached.append_left (h : Attached before marks) : Attached (earlier ++ before) marks := by
  induction marks generalizing before with
  | nil => trivial
  | cons m rest ih =>
    refine ⟨fun hm => (h.1 hm).append, ?_⟩
    rw [List.append_assoc]
    exact ih h.2

theorem attached_append : Attached before (marks ++ after) ↔
    Attached before marks ∧ Attached (before ++ marks) after := by
  induction marks generalizing before with
  | nil => simp [Attached]
  | cons m rest ih => simp [Attached, ih, and_assoc]

end

/-- The lines of a suite at a depth, or of the rest of one after the lines `before`. -/
structure Suite (limit depth : Nat) (before marks : List Mark) : Prop where
  deep : ∀ m ∈ marks, depth ≤ m.depth
  first : ∀ m ∈ marks.head?, m.depth = depth
  follows : marks.IsChain Follows
  last : ∀ m ∈ marks.getLast?, m.kind.isHeader = false
  attached : Attached before marks
  room : ∀ m ∈ marks, m.depth ≤ limit

namespace Suite

variable {limit depth : Nat} {kind : LineKind} {before first second body : List Mark}

theorem nil : Suite limit depth before [] := ⟨nofun, nofun, .nil, nofun, trivial, nofun⟩

/-- A line that opens no block. -/
theorem plain (h : depth ≤ limit) : Suite limit depth before [⟨depth, .plain⟩] := by
  refine ⟨?_, ?_, .singleton _, ?_, ⟨nofun, trivial⟩, ?_⟩ <;> simp [h]
  rfl

/-- The lines after those of a suite stand at its depth again. -/
theorem append (h₁ : Suite limit depth before first)
    (h₂ : Suite limit depth (before ++ first) second) :
    Suite limit depth before (first ++ second) where
  deep := List.forall_mem_append.2 ⟨h₁.deep, h₂.deep⟩
  first := by
    cases first with
    | nil => exact h₂.first
    | cons m rest => exact h₁.first
  follows := by
    refine List.isChain_append.2 ⟨h₁.follows, h₂.follows, fun x hx y hy => ?_⟩
    have hd : depth ≤ x.depth := h₁.deep x (List.mem_of_getLast? hx)
    rw [Follows, h₁.last x hx, h₂.first y hy]
    simpa using hd
  last := by
    intro m hm
    rw [List.getLast?_append] at hm
    cases hs : second.getLast? with
    | none =>
      rw [hs] at hm
      exact h₁.last m hm
    | some x =>
      rw [hs] at hm
      cases hm
      exact h₂.last _ hs
  attached := attached_append.2 ⟨h₁.attached, h₂.attached⟩
  room := List.forall_mem_append.2 ⟨h₁.room, h₂.room⟩

/-- A line that opens a block, and the block, which is not empty. -/
theorem block (hk : kind.isHeader = true) (ho : kind.continues = true → Opener before ⟨depth, kind⟩)
    (hb : Suite limit (depth + 1) [] body) (hne : body ≠ []) :
    Suite limit depth before (⟨depth, kind⟩ :: body) where
  deep := by
    refine List.forall_mem_cons.2 ⟨Nat.le_refl _, fun x hx => ?_⟩
    have := hb.deep x hx
    omega
  first := by
    rintro _ ⟨⟩
    rfl
  follows := by
    cases body with
    | nil => exact absurd rfl hne
    | cons x rest =>
      refine List.isChain_cons_cons.2 ⟨?_, hb.follows⟩
      rw [Follows, hk, if_pos rfl]
      exact hb.first x rfl
  last := by
    cases body with
    | nil => exact absurd rfl hne
    | cons x rest => exact hb.last
  attached := ⟨ho, by simpa using hb.attached.append_left⟩
  room := by
    refine List.forall_mem_cons.2 ⟨?_, hb.room⟩
    obtain ⟨x, hx⟩ := List.exists_mem_of_ne_nil body hne
    have h₁ := hb.deep x hx
    have h₂ := hb.room x hx
    dsimp only
    omega

/-- The block of a branch may be followed by a further branch. -/
theorem opener (hk : kind.isBranch = true) (hb : Suite limit (depth + 1) [] body)
    (next : LineKind) : Opener (before ++ ⟨depth, kind⟩ :: body) ⟨depth, next⟩ :=
  ⟨before, ⟨depth, kind⟩, body, rfl, hk, rfl, fun x hx => hb.deep x hx⟩

end Suite

theorem Blocked.of_suite {limit : Nat} {marks : List Mark} (h : Suite limit 0 [] marks) :
    Blocked limit marks where
  first := h.first
  header := by
    rintro before m after rfl hm
    cases after with
    | nil =>
      have := h.last m (by simp)
      rw [hm] at this
      cases this
    | cons next rest =>
      have hf : Follows m next := (List.isChain_append_cons_cons.1 h.follows).2.1
      rw [Follows, hm, if_pos rfl] at hf
      exact ⟨next, rfl, hf⟩
  other := by
    rintro before m after rfl hm next hn
    cases after with
    | nil => cases hn
    | cons x rest =>
      obtain rfl : x = next := Option.some.inj hn
      have hf : Follows m x := (List.isChain_append_cons_cons.1 h.follows).2.1
      rw [Follows, hm] at hf
      exact hf
  continued := by
    rintro before m after rfl
    exact (attached_append.1 h.attached).2.1
  room := h.room

/-! ## Statements -/

namespace Stmt

/-- Whether a statement is a conditional. -/
def isConditional : Stmt → Bool
  | .ifElse _ _ _ _ => true
  | _ => false

mutual

/-- Every suite in the statement holds something, a further branch is a single conditional, and no
line is deeper than `limit`. Where `clear` holds, what a line opens with is no word that opens a
block. -/
def Fits (clear : Prop) (limit depth : Nat) : Stmt → Prop
  | .assign target _ | .augment target _ _ =>
    (clear → LineKind.ofText target.spell = .plain) ∧ depth ≤ limit
  | .eval e => (clear → LineKind.ofText e.spell = .plain) ∧ depth ≤ limit
  | .print _ | .unimplemented _ | .ret _ | .breakLoop | .continueLoop | .pass => depth ≤ limit
  | .leaveUnless _ => depth + 1 ≤ limit
  | .define _ _ body | .whileLoop _ body => body ≠ [] ∧ FitsAll clear limit (depth + 1) body
  | .ifElse _ thenSuite elseSuite chained =>
    thenSuite ≠ [] ∧ FitsAll clear limit (depth + 1) thenSuite ∧
      (if chained then FitsChain clear limit depth elseSuite
       else FitsAll clear limit (depth + 1) elseSuite)

def FitsAll (clear : Prop) (limit depth : Nat) : List Stmt → Prop
  | [] => True
  | s :: rest => Fits clear limit depth s ∧ FitsAll clear limit depth rest

def FitsChain (clear : Prop) (limit depth : Nat) : List Stmt → Prop
  | [s] => s.isConditional = true ∧ Fits clear limit depth s
  | _ => False

end

theorem fitsAll_append {clear : Prop} {limit depth : Nat} {first second : List Stmt} :
    FitsAll clear limit depth (first ++ second) ↔
      FitsAll clear limit depth first ∧ FitsAll clear limit depth second := by
  induction first with
  | nil => simp [FitsAll]
  | cons s rest ih => simp [FitsAll, ih, and_assoc]

variable {clear : Prop} {limit : Nat}

theorem marksFrom_ne_nil (opener : LineKind) (depth : Nat) (s : Stmt) :
    marksFrom opener depth s ≠ [] := by
  cases s <;> simp [marksFrom]

theorem suiteMarks_ne_nil {depth : Nat} {suite : List Stmt} (h : suite ≠ []) :
    suiteMarks depth suite ≠ [] := by
  cases suite with
  | nil => exact absurd rfl h
  | cons s rest => simp [suiteMarks, marksFrom_ne_nil]

mutual

/-- The lines of a statement, after lines that it may continue. -/
theorem marksFrom_suite : ∀ (s : Stmt) {opener : LineKind} {depth : Nat} {before : List Mark},
    opener.isBranch = true → (opener.continues = true → Opener before ⟨depth, opener⟩) →
    s.Fits clear limit depth → Suite limit depth before (marksFrom opener depth s)
  | .assign _ _, _, _, _, _, _, h | .augment _ _ _, _, _, _, _, _, h
  | .eval _, _, _, _, _, _, h => by
    rw [marksFrom]
    exact .plain h.2
  | .print _, _, _, _, _, _, h | .unimplemented _, _, _, _, _, _, h | .ret _, _, _, _, _, _, h
  | .breakLoop, _, _, _, _, _, h | .continueLoop, _, _, _, _, _, h | .pass, _, _, _, _, _, h => by
    rw [marksFrom]
    exact .plain h
  | .leaveUnless _, _, _, _, _, _, h => by
    rw [marksFrom]
    exact .block rfl nofun (.plain h) nofun
  | .define _ nonlocals body, _, depth, _, _, _, ⟨hne, h⟩ => by
    rw [marksFrom]
    have hbody : ∀ before, Suite limit (depth + 1) before (suiteMarks (depth + 1) body) :=
      fun _ => suiteMarks_suite body h
    have hlimit : depth + 1 ≤ limit := by
      obtain ⟨m, hm⟩ := List.exists_mem_of_ne_nil _ (suiteMarks_ne_nil hne)
      exact Nat.le_trans ((hbody []).deep m hm) ((hbody []).room m hm)
    refine .block rfl nofun (.append ?_ (hbody _)) ?_
    · split
      · exact .nil
      · exact .plain hlimit
    · simp [suiteMarks_ne_nil hne]
  | .whileLoop _ body, _, _, _, _, _, ⟨hne, h⟩ => by
    rw [marksFrom]
    exact .block rfl nofun (suiteMarks_suite body h) (suiteMarks_ne_nil hne)
  | .ifElse _ thenSuite elseSuite chained, opener, depth, before, hb, ho, ⟨hne, ht, he⟩ => by
    rw [marksFrom, ← List.cons_append]
    have hthen : Suite limit (depth + 1) [] (suiteMarks (depth + 1) thenSuite) :=
      suiteMarks_suite thenSuite ht
    refine .append (.block (LineKind.isHeader_of_isBranch hb) ho hthen (suiteMarks_ne_nil hne)) ?_
    cases chained with
    | true => exact chainMarks_suite elseSuite (hthen.opener hb _) he
    | false =>
      rw [if_neg Bool.false_ne_true] at he ⊢
      split
      · exact .nil
      · rename_i hne
        refine .block rfl (fun _ => hthen.opener hb _) (suiteMarks_suite elseSuite he) ?_
        exact suiteMarks_ne_nil (by simpa using hne)

theorem suiteMarks_suite : ∀ (suite : List Stmt) {depth : Nat} {before : List Mark},
    FitsAll clear limit depth suite → Suite limit depth before (suiteMarks depth suite)
  | [], _, _, _ => .nil
  | s :: rest, _, _, ⟨h, hrest⟩ => by
    rw [suiteMarks]
    exact .append (marksFrom_suite s rfl nofun h) (suiteMarks_suite rest hrest)

theorem chainMarks_suite : ∀ (suite : List Stmt) {depth : Nat} {before : List Mark},
    Opener before ⟨depth, .further⟩ → FitsChain clear limit depth suite →
    Suite limit depth before (chainMarks depth suite)
  | [s], _, _, ho, ⟨_, h⟩ => by
    rw [chainMarks, chainMarks, List.append_nil]
    exact marksFrom_suite s rfl (fun _ => ho) h

end

end Stmt

/-! ## Texts of lines -/

/-- The mark gives the depth of the line. If it is the mark of a header, or `clear` holds, the kind
of the line can be read off its text. -/
structure Line.Reads (clear : Prop) (line : Line) (mark : Mark) : Prop where
  depth : line.depth = mark.depth
  kind : clear ∨ mark.kind.isHeader = true → LineKind.ofText line.text = mark.kind

namespace Line.Reads

variable {clear : Prop} {depth : Nat} {text after : String} {kind : LineKind}

theorem plain (h : clear → LineKind.ofText text = .plain) :
    Reads clear ⟨depth, text⟩ ⟨depth, .plain⟩ := by
  refine ⟨rfl, ?_⟩
  rintro (hc | hk)
  · exact h hc
  · cases hk

theorem of_text (h : LineKind.ofText text = kind) : Reads clear ⟨depth, text⟩ ⟨depth, kind⟩ :=
  ⟨rfl, fun _ => h⟩

/-- A line that goes on after its first word is known. -/
theorem of_start (h : LineKind.ofText text = kind) (hw : text.toList.any (!isWord ·) = true) :
    Reads clear ⟨depth, text ++ after⟩ ⟨depth, kind⟩ :=
  of_text ((LineKind.ofText_append_of_any hw).trans h)

/-- A line that starts with an expression or a place and goes on with a blank. -/
theorem opened (h : clear → LineKind.ofText text = .plain) (ha : after.toList.head? = some ' ') :
    Reads clear ⟨depth, text ++ after⟩ ⟨depth, .plain⟩ := by
  refine plain fun hc => ?_
  have hblank : ∀ c ∈ after.toList.head?, isWord c = false := by
    rw [ha]
    rintro _ ⟨⟩
    decide
  rw [LineKind.ofText_append hblank, h hc]

end Line.Reads

namespace Stmt

variable {clear : Prop} {limit : Nat}

mutual

theorem linesFrom_reads : ∀ (s : Stmt) (opener : LineKind) {depth : Nat}, opener.isBranch = true →
    s.Fits clear limit depth →
    List.Forall₂ (Line.Reads clear) (linesFrom opener.word depth s) (marksFrom opener depth s)
  | .assign target value, _, _, _, h => by
    rw [linesFrom, marksFrom, String.append_assoc]
    exact .cons (.opened h.1 (by simp)) .nil
  | .augment target op value, _, _, _, h => by
    rw [linesFrom, marksFrom, String.append_assoc, String.append_assoc, String.append_assoc]
    exact .cons (.opened h.1 (by simp)) .nil
  | .eval e, _, _, _, h => by
    rw [linesFrom, marksFrom]
    exact .cons (.plain h.1) .nil
  | .print _, _, _, _, _ | .unimplemented _, _, _, _, _ => by
    rw [linesFrom, marksFrom, String.append_assoc]
    exact .cons (.of_start (by decide) (by decide)) .nil
  | .ret none, _, _, _, _ | .breakLoop, _, _, _, _ | .continueLoop, _, _, _, _
  | .pass, _, _, _, _ => by
    rw [linesFrom, marksFrom]
    exact .cons (.of_text (by decide)) .nil
  | .ret (some value), _, _, _, _ => by
    rw [linesFrom, marksFrom]
    exact .cons (.of_start (by decide) (by decide)) .nil
  | .leaveUnless _, _, _, _, _ => by
    rw [linesFrom, marksFrom, String.append_assoc]
    exact .cons (.of_start (by decide) (by decide)) (.cons (.of_text (by decide)) .nil)
  | .define header nonlocals body, _, depth, _, ⟨_, h⟩ => by
    rw [linesFrom, marksFrom, Header.spell]
    simp only [String.append_assoc]
    refine .cons (.of_start (by decide) (by decide)) ?_
    refine List.rel_append ?_ (suiteLines_reads body h)
    -- the line of outer names stands only where there are any
    split
    · exact .nil
    · exact .cons (.of_start (by decide) (by decide)) .nil
  | .whileLoop _ body, _, _, _, ⟨_, h⟩ => by
    rw [linesFrom, marksFrom, String.append_assoc]
    exact .cons (.of_start (by decide) (by decide)) (suiteLines_reads body h)
  | .ifElse _ thenSuite elseSuite chained, opener, depth, hb, ⟨_, ht, he⟩ => by
    rw [linesFrom, marksFrom, String.append_assoc]
    -- the first word is the one of a conditional or, in a chain, that of a further branch
    have hopener : LineKind.ofText (opener.word ++ " ") = opener ∧
        (opener.word ++ " ").toList.any (!isWord ·) = true := by
      cases opener with
      | branch | further => decide
      | _ => cases hb
    refine .cons (.of_start hopener.1 hopener.2) ?_
    refine List.rel_append (suiteLines_reads thenSuite ht) ?_
    cases chained with
    | true => exact chainLines_reads elseSuite he
    | false =>
      rw [if_neg Bool.false_ne_true] at he ⊢
      rw [if_neg Bool.false_ne_true]
      split
      · exact .nil
      · exact .cons (.of_text (by decide)) (suiteLines_reads elseSuite he)

theorem suiteLines_reads : ∀ (suite : List Stmt) {depth : Nat}, FitsAll clear limit depth suite →
    List.Forall₂ (Line.Reads clear) (suiteLines depth suite) (suiteMarks depth suite)
  | [], _, _ => by
    rw [suiteLines, suiteMarks]
    exact .nil
  | s :: rest, _, ⟨h, hrest⟩ => by
    rw [suiteLines, suiteMarks]
    exact List.rel_append (linesFrom_reads s .branch rfl h) (suiteLines_reads rest hrest)

theorem chainLines_reads : ∀ (suite : List Stmt) {depth : Nat}, FitsChain clear limit depth suite →
    List.Forall₂ (Line.Reads clear) (chainLines depth suite) (chainMarks depth suite)
  | [s], _, ⟨_, h⟩ => by
    rw [chainLines, chainLines, chainMarks, chainMarks, List.append_nil, List.append_nil]
    exact linesFrom_reads s .further rfl h

end

end Stmt

/-! ## Programs -/

namespace Program

variable {clear : Prop} {limit : Nat} {p : Program}

/-- The lines of a program form blocks, if its statements fit a level in. -/
theorem blocked (hl : 3 ≤ limit) (h : Stmt.FitsAll clear limit 1 (p.stubs ++ p.body)) :
    Blocked limit p.marks := by
  have hprologue : prologue.map Line.mark =
      ⟨0, .definition⟩ ::
        ((⟨1, .definition⟩ :: ([⟨2, .branch⟩, ⟨3, .plain⟩] ++ [⟨2, .plain⟩])) ++
          [⟨1, .plain⟩]) := by
    decide
  have hepilogue : epilogue.map Line.mark = [⟨1, .plain⟩] ++ [⟨1, .plain⟩] := by decide
  rw [marks, hprologue, hepilogue, List.append_assoc, List.cons_append]
  -- the reader of input words is a definition with a conditional in it
  have hreader : Suite limit 2 [] ([⟨2, .branch⟩, ⟨3, .plain⟩] ++ [⟨2, .plain⟩]) :=
    .append (.block rfl nofun (.plain hl) nofun) (.plain (by omega))
  have hplain : ∀ before, Suite limit 1 before [⟨1, .plain⟩] := fun _ => .plain (by omega)
  refine .of_suite (.block rfl nofun (.append (.append ?_ (hplain _)) (.append ?_ ?_)) nofun)
  · exact .block rfl nofun hreader nofun
  · exact Stmt.suiteMarks_suite _ h
  · exact (hplain _).append (hplain _)

theorem lines_read (h : Stmt.FitsAll clear limit 1 (p.stubs ++ p.body)) :
    List.Forall₂ (Line.Reads clear) p.lines p.marks := by
  have hmark : ∀ lines : List Line, List.Forall₂ (Line.Reads clear) lines (lines.map Line.mark) :=
    fun lines => List.forall₂_map_right_iff.2 (List.forall₂_same.2 fun _ _ => ⟨rfl, fun _ => rfl⟩)
  exact List.rel_append (List.rel_append (hmark _) (Stmt.suiteLines_reads _ h)) (hmark _)

end Program

end ConsoleCpp.Target

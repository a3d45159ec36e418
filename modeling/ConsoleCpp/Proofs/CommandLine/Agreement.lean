/-
The command and a session agree: on a source text and an input text that are read from files, the
command prints what a session answers, and its exit code tells at which stage the answer came about.
But a program can print by itself, past its output. A session gives that back nowhere; of the
command, it is the first thing that is printed.
-/
import ConsoleCpp.CommandLine
import ConsoleCpp.Proofs.Generate.Cases
import ConsoleCpp.Proofs.Number.Reading
import Mathlib

namespace ConsoleCpp.CommandLine

/-! ## Files without carriage returns -/

section Reading

variable {files : Files} {path text : String}

/-- A file of this name, which is not the standard input, holds a text. -/
def Files.Holds (files : Files) (path text : String) : Prop :=
  path ≠ "-" ∧ files.named path = some text

theorem unifyBreaks_eq_self {cs : List Char} (h : '\r' ∉ cs) : unifyBreaks cs = cs := by
  fun_induction unifyBreaks cs with
  | case1 => rfl
  | case2 | case3 => simp at h
  | case4 c rest _ _ ih => rw [ih fun hrest => h (List.mem_cons_of_mem _ hrest)]

theorem Files.Holds.read (h : files.Holds path text) :
    files.read path = .ok (String.ofList (unifyBreaks text.toList)) := by
  simp [Files.read, h.1, h.2]

theorem Files.Holds.read_verbatim (h : files.Holds path text) (hcr : '\r' ∉ text.toList) :
    files.read path = .ok text := by
  rw [h.read, unifyBreaks_eq_self hcr, String.ofList_toList]

theorem Files.Holds.after (h : files.Holds path text) : files.after path = files := by
  simp [Files.after, h.1]

end Reading

/-! ## Depths -/

/-- The depth has no more digits than are read, so that a command line can give it. -/
def CanSpell (maxDepth : Int) : Prop :=
  (Nat.toDigits 10 maxDepth.natAbs).length ≤ Number.maxDigits

instance : DecidablePred CanSpell := fun _ => inferInstanceAs (Decidable (_ ≤ _))

namespace Draft

variable {d d' : Draft}

theorem canSpell_raise {f : Flag} (hd : CanSpell d.maxDepth) (h : d.raise f = .ok d') :
    CanSpell d'.maxDepth := by
  cases f with
  | help => cases h
  | emit | verbose => cases h; exact hd

theorem canSpell_set {s : Setting} {text : String} (hd : CanSpell d.maxDepth)
    (h : d.set s text = .ok d') : CanSpell d'.maxDepth := by
  unfold set at h
  split at h
  · split at h
    · cases h; exact hd
    split at h
    · cases h
    · cases h; exact hd
  · split at h
    · cases h
    · cases h; exact hd
  · split at h
    · next hread =>
      cases h
      exact Number.length_toDigits_of_readInt hread
    · cases h

theorem canSpell_setSource {path : String} (hd : CanSpell d.maxDepth)
    (h : d.setSource path = .ok d') : CanSpell d'.maxDepth := by
  unfold setSource at h
  split at h
  · cases h; exact hd
  · cases h

theorem canSpell_close {afterSource : Bool} {values : List String} (hd : CanSpell d.maxDepth)
    (h : d.close afterSource values = .ok d') : CanSpell d'.maxDepth := by
  unfold close at h
  split at h
  · split at h
    · cases h; exact hd
    · cases h
  · exact canSpell_setSource hd h
  · cases h

theorem canSpell_read {afterSource : Bool} {ws : List Word} (hd : CanSpell d.maxDepth)
    (h : d.read afterSource ws = .ok d') : CanSpell d'.maxDepth := by
  fun_induction Draft.read d afterSource ws with
  | case1 => cases h; exact hd
  | case2 d _ path rest ih =>
    obtain ⟨e, he, h⟩ := Generate.bind_ok h
    exact ih e (canSpell_setSource hd he) h
  | case3 d _ f rest ih =>
    obtain ⟨e, he, h⟩ := Generate.bind_ok h
    exact ih e (canSpell_raise hd he) h
  | case4 d _ s value rest ih =>
    obtain ⟨e, he, h⟩ := Generate.bind_ok h
    exact ih e (canSpell_set hd he) h
  | case5 d _ s value rest ih =>
    obtain ⟨e, he, h⟩ := Generate.bind_ok h
    exact ih e (canSpell_set hd he) h
  | case6 => cases h
  | case7 => exact canSpell_close hd h

end Draft

/-- No command line asks for a depth of more digits. -/
theorem canSpell_ofArgs {args : List String} {r : Request} (h : Request.ofArgs args = .ok r) :
    CanSpell r.maxDepth := by
  obtain ⟨ws, -, h⟩ := Generate.bind_ok h
  obtain ⟨d, hd, h⟩ := Generate.bind_ok h
  have hread : CanSpell d.maxDepth := Draft.canSpell_read (by decide : CanSpell defaultMaxDepth) hd
  unfold Draft.finish at h
  split at h
  · cases h
  · cases h; exact hread

/-! ## Command lines -/

/-- A command line that gives the source file, the input file and the depth. -/
def commandLine (emit : Bool) (maxDepth : Int) (sourcePath inputPath : String) : List String :=
  [sourcePath, "-f", inputPath, "--max-depth", toString maxDepth] ++ if emit then ["--emit"] else []

/-- A command line makes a request for this depth, with a source file that holds this text. -/
structure Asks (files : Files) (args : List String) (r : Request) (maxDepth : Int)
    (source : String) : Prop where
  parsed : Request.ofArgs args = .ok r
  depth : r.maxDepth = maxDepth
  held : files.Holds r.source source

theorem wordsOf_undashed {arg : String} (h : arg.toList.head? ≠ some '-') :
    wordsOf arg = .ok [.value arg] := by
  unfold wordsOf
  split
  · next hcs => simp [hcs] at h
  · next hcs => simp [hcs] at h
  · rfl

theorem isPlainNumber_of_digits {cs : List Char} (hne : cs ≠ []) (h : ∀ c ∈ cs, c.isDigit) :
    isPlainNumber (withoutFinalBreak cs) := by
  have hbreak : cs.getLast? ≠ some '\n' := fun hlast =>
    absurd (h _ (List.mem_of_getLast? hlast)) (by decide)
  have hall : cs.dropWhile Text.isDigit = [] := List.dropWhile_eq_nil_iff.mpr fun c hc => by
    simp [Text.isDigit, Number.digitValue?_of_isDigit (h c hc)]
  simp [isPlainNumber, withoutFinalBreak, hbreak, hall, hne]

/-- A digit after a dash is no option's letter. -/
theorem ofLetter?_of_isDigit {c : Char} (h : c.isDigit) : Opt.ofLetter? c = none := by
  have hrange := Number.toNat_of_isDigit h
  have hletter : ∀ x : Char, 57 < x.toNat → x ≠ c := by rintro x hx rfl; omega
  simp [Opt.ofLetter?, Opt.all, Opt.letter?, hletter]

/-- A dash with digits after it starts no option, so it is taken for a negative number. -/
theorem wordsOf_negative {arg : String} {c : Char} {cs : List Char}
    (harg : arg.toList = '-' :: c :: cs) (h : ∀ x ∈ c :: cs, x.isDigit) :
    wordsOf arg = .ok [.value arg] := by
  have hc : c.isDigit := h c List.mem_cons_self
  have hminus : c ≠ '-' := by rintro rfl; simp at hc
  have hvalue : isDashedValue arg := by
    simp [isDashedValue, harg, isPlainNumber_of_digits (List.cons_ne_nil c cs) h]
  unfold wordsOf
  split
  · next hcs => exact absurd (List.cons.inj (List.cons.inj (harg.symm.trans hcs)).2).1 hminus
  · next hcs =>
    obtain ⟨rfl, rfl⟩ := List.cons.inj (List.cons.inj (harg.symm.trans hcs)).2
    simp [ofLetter?_of_isDigit hc, unnamed, hvalue]
  · rfl

theorem wordsOf_toString (n : Int) : wordsOf (toString n) = .ok [.value (toString n)] := by
  have hchars := Number.toList_toString n
  have hdigits := Number.isDigit_of_mem_toDigits (n := n.natAbs)
  obtain ⟨c, cs, hd⟩ := List.exists_cons_of_ne_nil (Nat.toDigits_ne_nil (b := 10) (n := n.natAbs))
  rw [hd] at hchars hdigits
  split at hchars
  · exact wordsOf_negative hchars hdigits
  · have hminus : c ≠ '-' := by rintro rfl; simp at hdigits
    refine wordsOf_undashed ?_
    rw [hchars]
    simpa using hminus

/-- The arguments of a command line are cut into words one by one. -/
theorem allWords_cons {arg : String} {ws vs : List Word} {rest : List String}
    (hdivider : arg ≠ "--") (hw : wordsOf arg = .ok ws) (hv : allWords rest = .ok vs) :
    allWords (arg :: rest) = .ok (ws ++ vs) := by
  simp only [allWords, beq_eq_false_iff_ne.mpr hdivider, Bool.false_eq_true, if_false, hw, hv]
  rfl

theorem ofArgs_commandLine {emit : Bool} {maxDepth : Int} {sourcePath inputPath : String}
    (hs : sourcePath.toList.head? ≠ some '-') (hi : inputPath.toList.head? ≠ some '-')
    (hd : CanSpell maxDepth) :
    Request.ofArgs (commandLine emit maxDepth sourcePath inputPath) =
      .ok ⟨sourcePath, "", some inputPath, emit, false, maxDepth⟩ := by
  have undashed : ∀ {arg : String}, arg.toList.head? ≠ some '-' → arg ≠ "--" := by
    rintro _ h rfl
    exact h rfl
  have hnumber : toString maxDepth ≠ "--" := by
    intro h
    have hwords := wordsOf_toString maxDepth
    rw [h] at hwords
    exact absurd hwords (by decide)
  have hrest : allWords (if emit then ["--emit"] else []) =
      .ok (if emit then [.flag .emit] else []) := by
    cases emit <;> rfl
  have hfile : wordsOf "-f" = .ok [.setting .inputFile none] := by decide
  have hdepth : wordsOf "--max-depth" = .ok [.setting .maxDepth none] := by decide
  have hwords : allWords (commandLine emit maxDepth sourcePath inputPath) =
      .ok (.value sourcePath :: .setting .inputFile none :: .value inputPath ::
        .setting .maxDepth none :: .value (toString maxDepth) ::
        if emit then [.flag .emit] else []) :=
    allWords_cons (undashed hs) (wordsOf_undashed hs) <| allWords_cons (by decide) hfile <|
      allWords_cons (undashed hi) (wordsOf_undashed hi) <| allWords_cons (by decide) hdepth <|
      allWords_cons hnumber (wordsOf_toString maxDepth) hrest
  -- the depth that is spelled is the depth that is read back
  have hset : ∀ d : Draft,
      d.set .maxDepth (toString maxDepth) = .ok { d with maxDepth := maxDepth } := fun d => by
    rw [Draft.set, Number.readInt_toString hd]
  rw [Request.ofArgs, hwords]
  change (Draft.read _ _ _).bind Draft.finish = _
  cases emit <;> simp only [Draft.read, hset] <;> rfl

/-! ## Endings -/

/-- The stage at which the answer to a source text comes about. -/
inductive Ending where
  | rejected
  | faulted
  | finished
deriving DecidableEq, Repr

namespace Ending

def exitCode : Ending → Nat
  | .rejected => 1
  | .faulted => 2
  | .finished => 0

/-- What is printed of an answer: a diagnostic stands on a line of its own. -/
def shown : Ending → String → String
  | .rejected, t | .faulted, t => t ++ "\n"
  | .finished, t => t

end Ending

section Endings

variable {maxDepth : Int} {source input t : String} {k : Ending} {r : Request} {reply : Reply}

/-- A source text does not compile; or its program faults on an input text; or its program
finishes with a text. -/
def Ends (maxDepth : Int) (source input : String) : Ending → Prop
  | .rejected => ∃ e, compile maxDepth source = .error e ∧ e.isDiagnostic
  | .faulted => ∃ p f s, compile maxDepth source = .ok p ∧ Session.runOn p input = .faulted f s
  | .finished =>
    ∃ p text s, compile maxDepth source = .ok p ∧ Session.runOn p input = .finished (.text text) s

/-- The answer is no text: the source text fails to compile without being at fault, or its program
finishes with another value, or it goes on. -/
def HasNoText (maxDepth : Int) (source input : String) : Prop :=
  (∃ e, compile maxDepth source = .error e ∧ ¬e.isDiagnostic) ∨
  ∃ p, compile maxDepth source = .ok p ∧
    ((∃ v s, Session.runOn p input = .finished v s ∧ ∀ text, v ≠ .text text) ∨
      Session.runOn p input = .outOfSteps)

/-- What has been printed past the output at the end of a run. -/
def printed : Machine.Outcome → String
  | .finished _ s | .faulted _ s | .undescribed _ s => s.printed
  | .outOfSteps => ""

/-- What the program of a source text prints by itself on an input text. -/
def printedBy (maxDepth : Int) (source input : String) : String :=
  match compile maxDepth source with
  | .ok p => printed (Session.runOn p input)
  | .error _ => ""

/-- The program of a source text, if it has one, does not come to anything on an input text that is
not described. -/
def Described (maxDepth : Int) (source input : String) : Prop :=
  ∀ p part s, compile maxDepth source = .ok p → Session.runOn p input ≠ .undescribed part s

/-- A session answers a source text and an input text with the text `t`. -/
def Answers (maxDepth : Int) (source input t : String) : Prop :=
  ∃ step answer, Session.step maxDepth source input = .ok step ∧ step.answer = some answer ∧
    answer.value = .text t

theorem answers_iff_of_rejected {e : CompileError} (hc : compile maxDepth source = .error e)
    (hd : e.isDiagnostic) : Answers maxDepth source input t ↔ "Error: " ++ e.message = t := by
  simp [Answers, Session.step, hc, hd, Session.Answer.rejected, Session.Answer.text]

theorem answers_iff_of_faulted {p : Target.Program} {f : Machine.Fault} {s : Machine.State}
    (hc : compile maxDepth source = .ok p) (hr : Session.runOn p input = .faulted f s) :
    Answers maxDepth source input t ↔ "Runtime error: " ++ f.message = t := by
  simp [Answers, Session.step, hc, hr, Session.Answer.ofOutcome?, Session.Answer.faulted,
    Session.Answer.text]

theorem answers_iff_of_finished {p : Target.Program} {text : String} {s : Machine.State}
    (hc : compile maxDepth source = .ok p)
    (hr : Session.runOn p input = .finished (.text text) s) :
    Answers maxDepth source input t ↔ text = t := by
  simp [Answers, Session.step, hc, hr, Session.Answer.ofOutcome?]

/-- Where all that a run comes to is described, it comes to an ending or to an answer that is no
text. -/
theorem ends_or_hasNoText (h : Described maxDepth source input) :
    (∃ k, Ends maxDepth source input k) ∨ HasNoText maxDepth source input := by
  cases hc : compile maxDepth source with
  | error e =>
    by_cases hd : e.isDiagnostic
    · exact .inl ⟨.rejected, e, hc, hd⟩
    · exact .inr (.inl ⟨e, hc, hd⟩)
  | ok p =>
    cases hr : Session.runOn p input with
    | faulted f s => exact .inl ⟨.faulted, p, f, s, hc, hr⟩
    | undescribed part s => exact absurd hr (h p part s hc)
    | outOfSteps => exact .inr (.inr ⟨p, hc, .inr hr⟩)
    | finished v s =>
      cases v with
      | text text => exact .inl ⟨.finished, p, text, s, hc, hr⟩
      | _ => exact .inr (.inr ⟨p, hc, .inl ⟨_, s, hr, nofun⟩⟩)

/-- Each of the endings has an answer. -/
theorem answers_of_ends (h : Ends maxDepth source input k) :
    ∃ t, Answers maxDepth source input t := by
  cases k with
  | rejected =>
    obtain ⟨e, hc, hd⟩ := h
    exact ⟨_, (answers_iff_of_rejected hc hd).mpr rfl⟩
  | faulted =>
    obtain ⟨p, f, s, hc, hr⟩ := h
    exact ⟨_, (answers_iff_of_faulted hc hr).mpr rfl⟩
  | finished =>
    obtain ⟨p, text, s, hc, hr⟩ := h
    exact ⟨_, (answers_iff_of_finished hc hr).mpr rfl⟩

/-- What the command replies if the source text does not compile. The input does not matter. -/
theorem reply_of_rejected {e : CompileError} (given : String)
    (hc : compile r.maxDepth source = .error e) (hd : e.isDiagnostic)
    (ha : Answers r.maxDepth source input t) :
    ∃ log, r.reply source given = .ok ⟨1, t ++ "\n", log⟩ := by
  obtain rfl := (answers_iff_of_rejected hc hd).mp ha
  simp [Request.reply, hc, hd]

/-- What the command replies to a request for the generated program. -/
theorem reply_of_emit {p : Target.Program} (given : String) (hemit : r.emit = true)
    (hc : compile r.maxDepth source = .ok p) :
    r.reply source given = .ok ⟨0, p.text, r.log (Session.compileEvents r.maxDepth source)⟩ := by
  simp only [Request.reply, hc, hemit, if_true]

/-- What the command replies to a request to run, given the ending and the session's answer. What
the program prints by itself is printed before it ends. -/
theorem reply_of_ends (hrun : r.emit = false) (h : Ends r.maxDepth source input k)
    (ha : Answers r.maxDepth source input t) :
    ∃ log, r.reply source input =
      .ok ⟨k.exitCode, printedBy r.maxDepth source input ++ k.shown t, log⟩ := by
  cases k with
  | rejected =>
    obtain ⟨e, hc, hd⟩ := h
    have hnothing : printedBy r.maxDepth source input = "" := by rw [printedBy, hc]
    rw [hnothing, String.empty_append]
    exact reply_of_rejected input hc hd ha
  | faulted =>
    obtain ⟨p, f, s, hc, hr⟩ := h
    obtain rfl := (answers_iff_of_faulted hc hr).mp ha
    have hprinted : printedBy r.maxDepth source input = s.printed := by
      simp only [printedBy, hc, hr, printed]
    rw [hprinted]
    simp [Request.reply, hc, hr, hrun, ofOutcome, Ending.exitCode, Ending.shown, String.append_assoc]
  | finished =>
    obtain ⟨p, text, s, hc, hr⟩ := h
    obtain rfl := (answers_iff_of_finished hc hr).mp ha
    have hprinted : printedBy r.maxDepth source input = s.printed := by
      simp only [printedBy, hc, hr, printed]
    rw [hprinted]
    simp [Request.reply, hc, hr, hrun, ofOutcome, Ending.exitCode, Ending.shown]

/-- The command replies to a request to run only at one of the endings. -/
theorem ends_of_reply (hrun : r.emit = false) (h : r.reply source input = .ok reply) :
    ∃ k, Ends r.maxDepth source input k := by
  cases hc : compile r.maxDepth source with
  | error e =>
    cases hd : e.isDiagnostic with
    | true => exact ⟨.rejected, e, hc, hd⟩
    | false => simp [Request.reply, hc, hd] at h
  | ok p =>
    simp only [Request.reply, hc, hrun, Bool.false_eq_true, if_false] at h
    cases hr : Session.runOn p input with
    | faulted f s => exact ⟨.faulted, p, f, s, hc, hr⟩
    | undescribed part s => simp [hr, ofOutcome] at h
    | outOfSteps => simp [hr, ofOutcome] at h
    | finished v s =>
      rw [hr] at h
      cases v with
      | text text => exact ⟨.finished, p, text, s, hc, hr⟩
      | _ => simp [ofOutcome] at h

end Endings

/-! ## Agreement -/

section Agreement

variable {files : Files} {args : List String} {r : Request} {maxDepth : Int}
  {path source input : String}

/-- The command is run and ends with this exit code, having printed this. -/
def Replies (files : Files) (args : List String) (code : Nat) (output : String) : Prop :=
  ∃ log, run files args = .ok ⟨code, output, log⟩

theorem asks_commandLine {emit : Bool} {sourcePath inputPath : String}
    (hs : sourcePath.toList.head? ≠ some '-') (hi : inputPath.toList.head? ≠ some '-')
    (hne : inputPath ≠ "") (hd : CanSpell maxDepth) (hheld : files.Holds sourcePath source) :
    ∃ r, Asks files (commandLine emit maxDepth sourcePath inputPath) r maxDepth source ∧
      r.emit = emit ∧ r.inputPath? = some inputPath :=
  ⟨_, ⟨ofArgs_commandLine hs hi hd, rfl, hheld⟩, rfl, by simp [Request.inputPath?, hne]⟩

/-- The depths that command lines ask for. -/
theorem asked_iff :
    (∃ args r, Request.ofArgs args = .ok r ∧ r.maxDepth = maxDepth) ↔ CanSpell maxDepth := by
  constructor
  · rintro ⟨args, r, h, rfl⟩
    exact canSpell_ofArgs h
  · intro hd
    have hargs : Request.ofArgs (commandLine false maxDepth "source" "input") = .ok _ :=
      ofArgs_commandLine (by decide) (by decide) hd
    exact ⟨_, _, hargs, rfl⟩

/-- Running the command replies to the request, once the input is read. -/
theorem Asks.run_eq (h : Asks files args r maxDepth source) (hcr : '\r' ∉ source.toList) :
    run files args = (r.inputPath?.elim (.ok r.input) files.read).bind (r.reply source) := by
  unfold run
  rw [h.parsed]
  simp only [h.held.read_verbatim hcr, h.held.after]
  cases r.inputPath? <;> rfl

/-- With the input in a file, the command prints the session's answer, after what the program has
printed by itself. -/
theorem Asks.replies_iff (h : Asks files args r maxDepth source) (hcr : '\r' ∉ source.toList)
    (hrun : r.emit = false) (hp : r.inputPath? = some path) (hheld : files.Holds path input)
    (hcr' : '\r' ∉ input.toList) (code : Nat) (output : String) :
    Replies files args code output ↔ ∃ k t, Ends maxDepth source input k ∧
      Answers maxDepth source input t ∧ code = k.exitCode ∧
      output = printedBy maxDepth source input ++ k.shown t := by
  have heq : run files args = r.reply source input := by
    rw [h.run_eq hcr, hp, Option.elim_some, hheld.read_verbatim hcr']
    rfl
  rw [Replies, heq, ← h.depth]
  constructor
  · rintro ⟨log, hreply⟩
    obtain ⟨k, hk⟩ := ends_of_reply hrun hreply
    obtain ⟨t, ht⟩ := answers_of_ends hk
    obtain ⟨log', hreply'⟩ := reply_of_ends hrun hk ht
    obtain ⟨rfl, rfl, -⟩ := Reply.mk.inj (Except.ok.inj (hreply.symm.trans hreply'))
    exact ⟨k, t, hk, ht, rfl, rfl⟩
  · rintro ⟨k, t, hk, ht, rfl, rfl⟩
    exact reply_of_ends hrun hk ht

/-- With `--emit`, the command prints the generated program or the session's diagnostic, whatever
the input is. -/
theorem Asks.emits_iff (h : Asks files args r maxDepth source) (hcr : '\r' ∉ source.toList)
    (hemit : r.emit = true) (hheld : ∀ path, r.inputPath? = some path → ∃ t, files.Holds path t)
    (input : String) (code : Nat) (output : String) :
    Replies files args code output ↔
      (∃ p, compile maxDepth source = .ok p ∧ code = 0 ∧ output = p.text) ∨
      ∃ t, Ends maxDepth source input .rejected ∧ Answers maxDepth source input t ∧ code = 1 ∧
        output = t ++ "\n" := by
  -- the input has to be there to be read, but the answer does not depend on it
  obtain ⟨given, heq⟩ : ∃ given, run files args = r.reply source given := by
    rw [h.run_eq hcr]
    cases hp : r.inputPath? with
    | none => exact ⟨r.input, rfl⟩
    | some path =>
      obtain ⟨t, ht⟩ := hheld path hp
      rw [Option.elim_some, ht.read]
      exact ⟨_, rfl⟩
  rw [Replies, heq, ← h.depth]
  constructor
  · rintro ⟨log, hreply⟩
    cases hc : compile r.maxDepth source with
    | ok p =>
      have hprogram := hreply.symm.trans (reply_of_emit given hemit hc)
      obtain ⟨rfl, rfl, -⟩ := Reply.mk.inj (Except.ok.inj hprogram)
      exact .inl ⟨p, rfl, rfl, rfl⟩
    | error e =>
      cases hd : e.isDiagnostic with
      | true =>
        have hk : Ends r.maxDepth source input .rejected := ⟨e, hc, hd⟩
        obtain ⟨t, ht⟩ := answers_of_ends hk
        obtain ⟨log', hreply'⟩ := reply_of_rejected given hc hd ht
        obtain ⟨rfl, rfl, -⟩ := Reply.mk.inj (Except.ok.inj (hreply.symm.trans hreply'))
        exact .inr ⟨t, hk, ht, rfl, rfl⟩
      | false => simp [Request.reply, hc, hd] at hreply
  · rintro (⟨p, hc, rfl, rfl⟩ | ⟨t, ⟨e, hc, hd⟩, ht, rfl, rfl⟩)
    · exact ⟨_, reply_of_emit given hemit hc⟩
    · exact reply_of_rejected given hc hd ht

/-- The command and a session agree on every source text and input text without carriage returns
and every depth. A command line can ask for a depth just if not more digits than are read spell it,
and then it can ask for it with any two files. Whatever the command line, the command exits with 1
and the session's answer on a line just if the source text is rejected, with 2 and the answer on a
line just if its program faults, and with 0 and the answer as it is just if the program finishes
with a text. What the program prints by itself comes before the answer; so the command prints the
answer and no more just if the program prints nothing by itself. All this is of programs that come
to nothing on the input that is not described, and these leave no other way to end but without a
text. With `--emit` the command exits with 0 and the program, or with 1 as before, whatever the
input. -/
theorem run_agrees_with_session (maxDepth : Int) {source : String}
    (hcr : '\r' ∉ source.toList) :
    ((∃ args r, Request.ofArgs args = .ok r ∧ r.maxDepth = maxDepth) ↔ CanSpell maxDepth) ∧
    (∀ (files : Files) (sourcePath inputPath : String) (emit : Bool),
      sourcePath.toList.head? ≠ some '-' → inputPath.toList.head? ≠ some '-' → inputPath ≠ "" →
      CanSpell maxDepth → files.Holds sourcePath source →
      ∃ r, Asks files (commandLine emit maxDepth sourcePath inputPath) r maxDepth source ∧
        r.emit = emit ∧ r.inputPath? = some inputPath) ∧
    (∀ (files : Files) (args : List String) (r : Request) (path input : String),
      Asks files args r maxDepth source → r.emit = false → r.inputPath? = some path →
      files.Holds path input → '\r' ∉ input.toList → Described maxDepth source input →
      ((∃ k, Ends maxDepth source input k) ∨ HasNoText maxDepth source input) ∧
      (∀ k, Ends maxDepth source input k → ∃ t, Answers maxDepth source input t) ∧
      ∀ code output, Replies files args code output ↔
        ∃ k t, Ends maxDepth source input k ∧ Answers maxDepth source input t ∧
          code = k.exitCode ∧ output = printedBy maxDepth source input ++ k.shown t) ∧
    ∀ (files : Files) (args : List String) (r : Request) (input : String),
      Asks files args r maxDepth source → r.emit = true →
      (∀ path, r.inputPath? = some path → ∃ t, files.Holds path t) →
      ∀ code output, Replies files args code output ↔
        (∃ p, compile maxDepth source = .ok p ∧ code = 0 ∧ output = p.text) ∨
        ∃ t, Ends maxDepth source input .rejected ∧ Answers maxDepth source input t ∧ code = 1 ∧
          output = t ++ "\n" :=
  ⟨asked_iff, fun _ _ _ _ hs hi hne hd hheld => asks_commandLine hs hi hne hd hheld,
    fun _ _ _ _ _ h hrun hp hheld hcr' hd =>
      ⟨ends_or_hasNoText hd, fun _ hk => answers_of_ends hk,
        h.replies_iff hcr hrun hp hheld hcr'⟩,
    fun _ _ _ input h hemit hheld => h.emits_iff hcr hemit hheld input⟩

/-! ### A division and a greeting -/

/-- How a run ends, with the session's answer to it if that is a text, and what it prints by
itself. -/
def endingOf? : Machine.Outcome → Option (Ending × String × String)
  | .finished (.text text) s => some (.finished, text, s.printed)
  | .faulted f s => some (.faulted, "Runtime error: " ++ f.message, s.printed)
  | _ => none

theorem described_of_run {p : Target.Program} (hc : compile maxDepth source = .ok p)
    (h : ∀ part s, Session.runOn p input ≠ .undescribed part s) :
    Described maxDepth source input := by
  intro q part s hq
  obtain rfl := Except.ok.inj (hc.symm.trans hq)
  exact h part s

theorem described_of_rejected {e : CompileError} (hc : compile maxDepth source = .error e) :
    Described maxDepth source input := by
  intro p part s hp
  rw [hc] at hp
  cases hp

theorem ends_of_endingOf {p : Target.Program} {k : Ending} {t written : String}
    (hc : compile maxDepth source = .ok p)
    (h : endingOf? (Session.runOn p input) = some (k, t, written)) :
    Described maxDepth source input ∧ Ends maxDepth source input k ∧
      Answers maxDepth source input t ∧ printedBy maxDepth source input = written := by
  refine ⟨described_of_run hc fun part s hr => by simp [hr, endingOf?] at h, ?_⟩
  have hby : printedBy maxDepth source input = printed (Session.runOn p input) := by
    rw [printedBy, hc]
  cases hr : Session.runOn p input with
  | undescribed part s => simp [hr, endingOf?] at h
  | outOfSteps => simp [hr, endingOf?] at h
  | finished v s =>
    cases v with
    | text text =>
      obtain ⟨rfl, rfl, rfl⟩ : Ending.finished = k ∧ text = t ∧ s.printed = written := by
        simpa [hr, endingOf?] using h
      exact ⟨⟨p, text, s, hc, hr⟩, (answers_iff_of_finished hc hr).mpr rfl, by rw [hby, hr]; rfl⟩
    | _ => simp [hr, endingOf?] at h
  | faulted f s =>
    obtain ⟨rfl, rfl, rfl⟩ : Ending.faulted = k ∧ "Runtime error: " ++ f.message = t ∧
        s.printed = written := by
      simpa [hr, endingOf?] using h
    exact ⟨⟨p, f, s, hc, hr⟩, (answers_iff_of_faulted hc hr).mpr rfl, by rw [hby, hr]; rfl⟩

/-- A source text that divides by a number of its input. -/
def quotientSource : String := "int n; cin >> n; cout << 12 / n;"

/-- The program of `quotientSource`. -/
def quotient : Target.Program where
  stubs := []
  body := [.define ⟨"main", [], true⟩ [] [
    .assign (.name "n") (.number "0"), .assign (.name "n") .input,
    .print [.shown (.binary .div (.number "12") (.name "n"))]]]

/-- A source text that calls a function of Python. -/
def greetingSource : String := "print(\"hi\");"

/-- The program of `greetingSource`. -/
def greeting : Target.Program where
  stubs := []
  body := [.define ⟨"main", [], true⟩ [] [.eval (.call (.name "print") [.text "\"hi\""])]]

/-- The source texts and two inputs for the division, one of them zero. -/
def quotientFiles : Files where
  named name := [("quotient.cpp", quotientSource), ("greeting.cpp", greetingSource),
    ("four.txt", "4"), ("zero.txt", "0")].lookup name
  standardInput := ""

/-- What the division prints is what a session answers. The greeting is printed by the command and is
no part of the answer, which is empty. -/
theorem run_agrees_with_session_quotient :
    '\r' ∉ quotientSource.toList ∧
    Replies quotientFiles (commandLine false 7 "quotient.cpp" "four.txt") 0 "3" ∧
    Replies quotientFiles (commandLine false 7 "quotient.cpp" "zero.txt") 2
      "Runtime error: integer division or modulo by zero\n" ∧
    Replies quotientFiles (commandLine true 7 "quotient.cpp" "zero.txt") 0 quotient.text ∧
    Replies quotientFiles (commandLine false (-1) "quotient.cpp" "four.txt") 1
      "Error: Nesting deeper than -1 levels at KEYWORD 'int'\n" ∧
    '\r' ∉ greetingSource.toList ∧ Answers 7 greetingSource "4" "" ∧
    Replies quotientFiles (commandLine false 7 "greeting.cpp" "four.txt") 0 "hi\n" := by
  have hcr : '\r' ∉ quotientSource.toList := by decide
  have hcr' : '\r' ∉ greetingSource.toList := by decide
  have hc : compile 7 quotientSource = .ok quotient := by cbv
  have hc' : compile 7 greetingSource = .ok greeting := by cbv
  have hdeep : compile (-1) quotientSource =
      .error (.tooDeep (-1) (.token ⟨.keyword, "int", 0⟩)) := by cbv
  have hsource : quotientFiles.Holds "quotient.cpp" quotientSource := ⟨by decide, by decide⟩
  have hsource' : quotientFiles.Holds "greeting.cpp" greetingSource := ⟨by decide, by decide⟩
  have hfour : quotientFiles.Holds "four.txt" "4" := ⟨by decide, by decide⟩
  have hzero : quotientFiles.Holds "zero.txt" "0" := ⟨by decide, by decide⟩
  have hreplies : ∀ {source name path text t written : String} {p : Target.Program} {k : Ending},
      '\r' ∉ source.toList → name.toList.head? ≠ some '-' → quotientFiles.Holds name source →
      path.toList.head? ≠ some '-' → path ≠ "" → quotientFiles.Holds path text →
      '\r' ∉ text.toList → compile 7 source = .ok p →
      endingOf? (Session.runOn p text) = some (k, t, written) →
      Replies quotientFiles (commandLine false 7 name path) k.exitCode (written ++ k.shown t) := by
    intro source name path text t written p k hcr hname hsource hdash hne hheld hcr' hc hout
    obtain ⟨-, hasks, hruns, -⟩ := run_agrees_with_session 7 hcr
    obtain ⟨r, hr, hrun, hp⟩ := hasks quotientFiles name path false hname hdash hne (by decide)
      hsource
    obtain ⟨hd, hk, ht, rfl⟩ := ends_of_endingOf hc hout
    exact ((hruns _ _ r _ _ hr hrun hp hheld hcr' hd).2.2 _ _).mpr ⟨k, t, hk, ht, rfl, rfl⟩
  have hgreets : endingOf? (Session.runOn greeting "4") = some (.finished, "", "hi\n") := by
    decide +kernel
  refine ⟨hcr, ?_, ?_, ?_, ?_, hcr', ?_, ?_⟩
  · have hout : endingOf? (Session.runOn quotient "4") = some (.finished, "3", "") := by
      decide +kernel
    exact hreplies hcr (by decide) hsource (by decide) (by decide) hfour (by decide) hc hout
  · have hout : endingOf? (Session.runOn quotient "0") =
        some (.faulted, "Runtime error: integer division or modulo by zero", "") := by
      decide +kernel
    exact hreplies hcr (by decide) hsource (by decide) (by decide) hzero (by decide) hc hout
  · obtain ⟨-, hasks, -, hemits⟩ := run_agrees_with_session 7 hcr
    obtain ⟨r, hr, hemit, hp⟩ := hasks quotientFiles "quotient.cpp" "zero.txt" true
      (by decide) (by decide) (by decide) (by decide) hsource
    refine (hemits _ _ r "" hr hemit (fun path hpath => ?_) _ _).mpr (.inl ⟨_, hc, rfl, rfl⟩)
    rw [← Option.some.inj (hp.symm.trans hpath)]
    exact ⟨_, hzero⟩
  · obtain ⟨-, hasks, hruns, -⟩ := run_agrees_with_session (-1) hcr
    obtain ⟨r, hr, hrun, hp⟩ := hasks quotientFiles "quotient.cpp" "four.txt" false
      (by decide) (by decide) (by decide) (by decide) hsource
    exact ((hruns _ _ r _ _ hr hrun hp hfour (by decide) (described_of_rejected hdeep)).2.2 _ _).mpr
      ⟨.rejected, _, ⟨_, hdeep, rfl⟩, (answers_iff_of_rejected hdeep rfl).mpr rfl, rfl,
        by rw [printedBy, hdeep]; decide +kernel⟩
  · exact (ends_of_endingOf hc' hgreets).2.2.1
  · exact hreplies hcr' (by decide) hsource' (by decide) (by decide) hfour (by decide) hc' hgreets

end Agreement

end ConsoleCpp.CommandLine

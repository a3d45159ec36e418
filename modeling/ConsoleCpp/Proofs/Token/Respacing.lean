/-
Tokens do not depend on how they were spaced. The texts of the tokens of a source, joined by single
spaces, are lexed into the same texts again, and into the same kinds, but for the reserved words
that were taken for identifiers: set apart, they are reserved words. Those stand right after a
number that ends in a digit and nowhere else.

Whether a token is read back in front of a space depends on its own text alone, so it is shown for
each kind, and the joined text follows token by token from the back. The one thing that does not
survive is a line end CR LF inside a token, since line ends are folded before anything is lexed.
-/
import ConsoleCpp.Compile
import ConsoleCpp.Proofs.Token.Longest

namespace ConsoleCpp.Token

open Text

/-- The kind of the token where it is set apart from others: every reserved word is one there. -/
def apartKind (t : Token) : Kind :=
  if t.kind = .identifier ∧ t.text ∈ keywords then .keyword else t.kind

/-! ## Fronts of tokens -/

/-- What the first rule takes has the front of a rule of its kind. -/
theorem firstMatch_front {before : Option Char} {cs : List Char} {kind : Option Kind} {n : Nat}
    (h : firstMatch rules before cs = some (kind, n)) :
    ∃ front ∈ fronts, front.kind = kind ∧ front.Fits cs n := by
  obtain ⟨rule, hr, hk, hs⟩ := firstMatch_eq_some h
  obtain ⟨front, hf, hof⟩ := exists_front hr
  exact ⟨front, hf, by rw [← hof.kind, hk], hof.fits _ _ _ hs⟩

section

variable {before : Option Char} {piece after : List Char} {kind : Kind}

/-- No token starts with a blank. -/
theorem firstMatch_head
    (h : firstMatch rules before (piece ++ after) = some (some kind, piece.length)) :
    ∃ c rest, piece = c :: rest ∧ isBlank c = false := by
  have hlead : ∀ front ∈ fronts, front.kind ≠ none → front.lead ≠ .blank := by decide
  obtain ⟨front, hf, hk, hfits⟩ := firstMatch_front h
  obtain ⟨c, rest, rfl⟩ := List.exists_cons_of_length_pos (firstMatch_measured h).1
  obtain ⟨d, hd, hfirst⟩ := hfits.lead
  cases hd
  refine ⟨c, rest, rfl, ?_⟩
  cases hb : isBlank c with
  | false => rfl
  | true =>
    rw [lead_of_isBlank hb] at hfirst
    exact absurd hfirst.symm (hlead front hf (by rw [hk]; exact Option.some_ne_none kind))

/-- A sign is a mark of its kind, and no more. -/
theorem firstMatch_mark
    (h : firstMatch rules before (piece ++ after) = some (some kind, piece.length))
    (hk : kind ∈ [.stream, .operator, .scope, .delimiter]) :
    ∃ front ∈ fronts, front.kind = some kind ∧ String.ofList piece ∈ front.marks := by
  have hsigns : ∀ front ∈ fronts, ∀ kind ∈ [Kind.stream, .operator, .scope, .delimiter],
      front.kind = some kind → front.lead = .sign ∧ front.exact = true := by decide
  obtain ⟨front, hf, hkind, hfits⟩ := firstMatch_front h
  obtain ⟨hlead, hexact⟩ := hsigns front hf kind hk hkind
  obtain ⟨mark, hm, hp, -, hlength⟩ := hfits.mark hlead
  have he : mark.toList = piece := by
    rw [List.prefix_iff_eq_take.1 hp, String.length_toList, hlength hexact, List.take_left]
  exact ⟨front, hf, hkind, by rwa [← he, String.ofList_toList]⟩

end

/-! ## Tokens in front of a space -/

section

variable {before : Option Char} {after : List Char}

/-- A bracketed path with the text after it. -/
theorem bracketedPath_append {gap path : List Char} (hg : ∀ c ∈ gap, isBlank c = true)
    (hne : path ≠ []) (hp : '>' ∉ path) :
    bracketedPath (gap ++ '<' :: (path ++ '>' :: after)) = some (gap.length + path.length + 2) := by
  have hgap : run isBlank (gap ++ '<' :: (path ++ '>' :: after)) = gap.length := by
    refine run_append hg ?_
    rintro _ ⟨⟩
    decide
  have hpath : run (· != '>') (path ++ '>' :: after) = path.length := by
    refine run_append (fun c hc => ?_) ?_
    · rw [bne_iff_ne]
      rintro rfl
      exact hp hc
    · rintro _ ⟨⟩
      decide
  obtain ⟨n, hn⟩ := Nat.exists_eq_succ_of_ne_zero (mt List.length_eq_zero_iff.1 hne)
  unfold bracketedPath
  simp only [hgap, List.drop_left, hpath]
  simp only [hn]

/-- A directive is taken up to its closing bracket, whatever follows. -/
theorem firstMatch_header {path cs : List Char} (h : HeaderText path cs) :
    firstMatch rules before (cs ++ after) = some (some .header, cs.length) := by
  obtain ⟨gap, hg, hne, hp, rfl⟩ := h
  have hline : lineComment ("#include".toList ++ (gap ++ '<' :: (path ++ '>' :: after))) = none :=
    rfl
  have hblock : blockComment ("#include".toList ++ (gap ++ '<' :: (path ++ '>' :: after))) = none :=
    rfl
  have hheader : headerDirective ("#include".toList ++ (gap ++ '<' :: (path ++ '>' :: after))) =
      some (gap.length + path.length + 2 + 8) := by
    show (bracketedPath (gap ++ '<' :: (path ++ '>' :: after))).map (· + 8) = _
    rw [bracketedPath_append hg hne hp]
    rfl
  have hlength : ("#include".toList ++ gap ++ '<' :: (path ++ ['>'])).length =
      gap.length + path.length + 2 + 8 := by
    simp
    omega
  rw [hlength]
  simp only [List.append_assoc, List.cons_append, List.nil_append]
  simp only [firstMatch, rules, List.findSome?_cons, hline, hblock, hheader, Option.map_none,
    Option.map_some]

/-- A colon alone. -/
theorem firstMatch_colon (ha : after.head? ≠ some ':') :
    firstMatch rules before (':' :: after) = some (some .delimiter, 1) := by
  have hscope : oneOf ["::"] (':' :: after) = none := by
    refine oneOf_eq_none ?_
    cases after with
    | nil => decide
    | cons c rest =>
      have hc : ':' ≠ c := fun he => ha (by rw [he]; rfl)
      simp [List.isPrefixOf, hc]
  have hearlier : firstMatch rules (some '_') (':' :: after) =
      firstMatch (rules.drop 12) (some '_') (':' :: after) := rfl
  rw [firstMatch_of_keyword (keyword_eq_none (by decide)), hearlier]
  simp only [firstMatch, rules, List.drop_succ_cons, List.drop_zero, List.findSome?_cons, hscope]
  rfl

/-- The delimiters. -/
def allDelimiters : List String := ["[", "]", "(", ")", "\x7b", "\x7d", ";", ",", ":"]

/-- A delimiter where no colon follows, which could make a scope mark of one. -/
theorem firstMatch_anyDelimiter {text : String} (ht : text ∈ allDelimiters)
    (ha : after.head? ≠ some ':') :
    firstMatch rules before (text.toList ++ after) =
      some (some .delimiter, text.toList.length) := by
  simp only [allDelimiters, List.mem_cons, List.not_mem_nil, or_false] at ht
  -- the table decides the others on their first character, only the colon looks at the next one
  rcases ht with rfl | rfl | rfl | rfl | rfl | rfl | rfl | rfl | rfl
  all_goals first
    | exact firstMatch_of_keyword (keyword_eq_none (by decide))
    | exact firstMatch_colon ha

end

/-! ## Reading back -/

section

variable {text : List Char} {t : Token}

/-- The text from the token on. -/
theorem StandsIn.drop_eq (h : StandsIn text t) :
    text.drop t.offset = t.text.toList ++ text.drop t.stop := by
  have hle : t.offset ≤ t.stop := Nat.le_add_right _ _
  rw [h.slice, slice_append_drop text hle]

theorem StandsIn.taken (h : StandsIn text t) :
    firstMatch rules (charBefore text t.offset) (t.text.toList ++ text.drop t.stop) =
      some (some t.kind, t.text.toList.length) := by
  rw [← h.drop_eq, String.length_toList]
  exact h.first

theorem apartKind_of_ne (h : t.kind ≠ .identifier) : t.apartKind = t.kind :=
  if_neg fun hk => h hk.1

/-- A token set apart is taken as a whole, as a token of its kind or as a reserved word. -/
theorem StandsIn.again (h : StandsIn text t) {before : Option Char} {after : List Char}
    (hb : before.any isWord = false) (ha : ∀ c ∈ after.head?, c = ' ') :
    firstMatch rules before (t.text.toList ++ after) =
      some (some t.apartKind, t.text.toList.length) := by
  have htext : TextOf t.kind t.text.toList := firstMatch_text h.taken
  have hword : ∀ c ∈ after.head?, isWord c = false := fun c hc => ha c hc ▸ by decide
  have hend : ∀ c ∈ after.head?, c ∈ enders := fun c hc => ha c hc ▸ by decide
  have hsign : ∀ c ∈ after.head?, c ∉ signs := fun c hc => ha c hc ▸ by decide
  have hmark := fun hk => firstMatch_mark h.taken hk
  rw [String.ofList_toList] at hmark
  cases hk : t.kind <;> rw [hk] at htext hmark
  case identifier =>
    -- the only kind whose text can be read as another, now that no digit stands before it
    by_cases hr : t.text ∈ keywords
    · rw [apartKind, if_pos ⟨hk, hr⟩]
      exact firstMatch_keyword hr hb hword
    · rw [apartKind, if_neg fun h => hr h.2, hk]
      exact firstMatch_word htext (by rwa [String.ofList_toList]) hword
  all_goals rw [apartKind_of_ne (by rw [hk]; decide), hk]
  case header =>
    obtain ⟨path, hpath⟩ := htext
    exact firstMatch_header hpath
  case keyword =>
    rw [TextOf, String.ofList_toList] at htext
    exact firstMatch_keyword htext hb hword
  case number =>
    -- a number could go on with a point or an exponent, not with a space
    refine firstMatch_number htext hend fun _ hpoint => ?_
    exact absurd (ha _ hpoint) (by decide)
  case char => exact firstMatch_char htext
  case string =>
    obtain ⟨body, ht, hbody⟩ := htext
    rw [ht]
    exact firstMatch_string hbody
  case stream =>
    have hall : ∀ front ∈ fronts, front.kind = some .stream →
        ∀ mark ∈ front.marks, mark = "<<" ∨ mark = ">>" := by decide
    obtain ⟨front, hf, hkind, hm⟩ := hmark (by decide)
    exact firstMatch_stream (hall front hf hkind _ hm)
  case operator =>
    have hall : ∀ front ∈ fronts, front.kind = some .operator →
        ∀ mark ∈ front.marks, mark ∈ longOperators ∨ mark ∈ signs.map String.singleton := by decide
    obtain ⟨front, hf, hkind, hm⟩ := hmark (by decide)
    rcases hall front hf hkind _ hm with hlong | hshort
    · exact firstMatch_longOperator hlong
    · obtain ⟨c, hc, he⟩ := List.mem_map.1 hshort
      rw [← he, String.toList_singleton]
      exact firstMatch_shortOperator hc hsign
  case scope =>
    have hall : ∀ front ∈ fronts, front.kind = some .scope → ∀ mark ∈ front.marks, mark = "::" := by
      decide
    obtain ⟨front, hf, hkind, hm⟩ := hmark (by decide)
    rw [hall front hf hkind _ hm]
    exact firstMatch_scope
  case delimiter =>
    have hall : ∀ front ∈ fronts, front.kind = some .delimiter →
        ∀ mark ∈ front.marks, mark ∈ allDelimiters := by decide
    obtain ⟨front, hf, hkind, hm⟩ := hmark (by decide)
    refine firstMatch_anyDelimiter (hall front hf hkind _ hm) fun hcolon => ?_
    exact absurd (ha _ hcolon) (by decide)

/-- A text without a line end CR LF. -/
theorem foldLineEnds_eq_self {cs : List Char} (h : ¬ ['\r', '\n'] <:+: cs) :
    foldLineEnds cs = cs := by
  fun_induction foldLineEnds cs with
  | case1 rest => exact absurd ⟨[], rest, rfl⟩ h
  | case2 c rest _ ih => rw [ih fun hi => h (hi.trans (List.suffix_cons c rest).isInfix)]
  | case3 => rfl

/-- Normalisation has nothing to do in a token without a line end CR LF. -/
theorem StandsIn.isPlain (h : StandsIn text t) (hv : ∀ c ∈ t.text.toList, c ∉ invisibles)
    (hc : ¬ ['\r', '\n'] <:+: t.text.toList) : Plain t.text.toList := by
  refine ⟨foldLineEnds_eq_self hc, ?_, hv⟩
  obtain ⟨c, rest, he, hblank⟩ := firstMatch_head h.taken
  rw [he]
  rintro ⟨⟩
  exact absurd hblank (by decide)

/-- Tokens each with a space before it. -/
def spaced (ts : List Token) : List Char := ts.flatMap fun t => " ".toList ++ t.text.toList

theorem spaced_head (ts : List Token) : ∀ c ∈ (spaced ts).head?, c = ' ' := by
  cases ts with
  | nil => nofun
  | cons t rest =>
    rintro _ ⟨⟩
    rfl

theorem intercalate_eq_spaced (t : Token) (rest : List Token) :
    (" ".intercalate ((t :: rest).map Token.text)).toList = t.text.toList ++ spaced rest := by
  induction rest generalizing t with
  | nil => simp [spaced]
  | cons u rest ih =>
    rw [List.map_cons, List.map_cons, String.intercalate_cons_cons, ← List.map_cons,
      String.toList_append, String.toList_append, ih u, List.append_assoc]
    simp [spaced]

/-- Tokens with a space before each are read back, whatever stands before them. -/
theorem rereads_spaced {ts : List Token} (hs : ∀ t ∈ ts, StandsIn text t)
    (hp : ∀ t ∈ ts, Plain t.text.toList) (before : Option Char) :
    Rereads before (spaced ts) (ts.map fun t => (t.apartKind, t.text)) := by
  induction ts generalizing before with
  | nil => exact .nil
  | cons t rest ih =>
    obtain ⟨hst, hsrest⟩ := List.forall_mem_cons.1 hs
    obtain ⟨hpt, hprest⟩ := List.forall_mem_cons.1 hp
    have hne : t.text.toList ≠ [] := by simpa using hst.nonempty
    rw [spaced, List.flatMap_cons, List.append_assoc, ← spaced]
    -- the space is skipped, and after it no word goes on
    refine .space ?_ fun before hb =>
      .cons hpt hne (hst.again hb (spaced_head rest)) (ih hsrest hprest _)
    obtain ⟨c, cs, he, hblank⟩ := firstMatch_head hst.taken
    rw [he]
    rintro _ ⟨⟩
    exact hblank

theorem rereads_joined {ts : List Token} (hs : ∀ t ∈ ts, StandsIn text t)
    (hp : ∀ t ∈ ts, Plain t.text.toList) :
    Rereads none (" ".intercalate (ts.map Token.text)).toList
      (ts.map fun t => (t.apartKind, t.text)) := by
  cases ts with
  | nil => exact .nil
  | cons t rest =>
    obtain ⟨hst, hsrest⟩ := List.forall_mem_cons.1 hs
    obtain ⟨hpt, hprest⟩ := List.forall_mem_cons.1 hp
    have hne : t.text.toList ≠ [] := by simpa using hst.nonempty
    rw [intercalate_eq_spaced]
    exact .cons hpt hne (hst.again rfl (spaced_head rest)) (rereads_spaced hsrest hprest _)

end

/-! ## Reserved words taken for identifiers -/

/-- The tokens of a source tile its normalised text. -/
theorem tiled_of_tokensOf {source : String} {tokens : List Token}
    (h : tokensOf source = .ok tokens) :
    Tiled (normalize invisibles source) 0 (normalize invisibles source).length tokens ∧
      ∀ t ∈ tokens, ∀ c ∈ t.text.toList, c ∉ invisibles := by
  unfold tokensOf at h
  cases hs : scan (normalize invisibles source) with
  | error _ => rw [hs] at h; cases h
  | ok found =>
    rw [hs] at h
    cases h
    have htell := scanFrom_tells [] (normalize invisibles source)
    rw [List.nil_append, List.length_nil, List.getLast?_nil, ← scan, hs] at htell
    exact ⟨htell, fun t ht => ((scan_settled hs).genuine ht).visible⟩

theorem Tiled.standsIn {text : List Char} {start stop : Nat} {tokens : List Token}
    (h : Tiled text start stop tokens) : ∀ t ∈ tokens, StandsIn text t := by
  induction tokens generalizing start with
  | nil => nofun
  | cons t rest ih => exact List.forall_mem_cons.2 ⟨h.2.2.1, ih h.2.2.2⟩

section

variable {text : List Char} {start stop : Nat} {earlier later : List Token} {t : Token}

/-- Where something is skipped, no word goes on after it. -/
theorem Skipped.apart {cs after : List Char} (h : Skipped cs after) (hne : cs ≠ []) :
    Apart cs.getLast? after := by
  induction h with
  | none => exact absurd rfl hne
  | @more piece rest after hskip _ ih =>
    by_cases hr : rest = []
    · subst hr
      rw [List.append_nil]
      exact hskip.apart
    · rw [List.getLast?_append_of_ne_nil _ hr]
      exact ih hr

/-- The character before a position is the last of a slice that ends there. -/
theorem charBefore_eq_getLast (h : start < stop) (hs : stop ≤ text.length) :
    charBefore text stop = (slice text start stop).getLast? := by
  have hsplit : text.take stop = text.take start ++ slice text start stop := by
    rw [slice, ← List.take_add, Nat.add_sub_cancel' h.le]
  rw [charBefore, hsplit, List.getLast?_append_of_ne_nil]
  refine List.ne_nil_of_length_pos ?_
  rw [slice, List.length_take, List.length_drop]
  omega

theorem StandsIn.stop_le (h : StandsIn text t) : t.offset < t.stop ∧ t.stop ≤ text.length := by
  have hm := firstMatch_measured h.first
  rw [List.length_drop] at hm
  rw [Token.stop]
  omega

/-- The rest of a tiling starts where the tiling does or where a token ends. -/
theorem Tiled.drop_append (h : Tiled text start stop (earlier ++ later)) :
    ∃ origin, Tiled text origin stop later ∧
      (earlier = [] ∧ origin = start ∨
        ∃ others last, earlier = others ++ [last] ∧ StandsIn text last ∧ last.stop = origin) := by
  induction earlier generalizing start with
  | nil => exact ⟨start, h, .inl ⟨rfl, rfl⟩⟩
  | cons u rest ih =>
    obtain ⟨-, -, hu, hrest⟩ := h
    obtain ⟨origin, ht, ⟨rfl, rfl⟩ | ⟨others, last, rfl, hlast, hstop⟩⟩ := ih hrest
    · exact ⟨u.stop, ht, .inr ⟨[], u, rfl, hu, rfl⟩⟩
    · exact ⟨origin, ht, .inr ⟨u :: others, last, rfl, hlast, hstop⟩⟩

theorem getLast_of_digits {digits : List Char} (hne : digits ≠ [])
    (h : ∀ d ∈ digits, isDigit d = true) :
    ∃ c, digits.getLast? = some c ∧ isDigit c = true :=
  ⟨digits.getLast hne, List.getLast?_eq_some_getLast hne, h _ (List.getLast_mem hne)⟩

/-- An exponent ends in a digit. -/
theorem getLast_append_exponent (cs : List Char) {ex : List Char} (h : ExponentText ex) :
    ex = [] ∨ ∃ c, (cs ++ ex).getLast? = some c ∧ isDigit c = true := by
  cases h with
  | none => exact .inl rfl
  | @some mark sign digits _ _ hdigits hd =>
    right
    rw [List.append_cons, ← List.append_assoc, List.getLast?_append_of_ne_nil _ hdigits]
    exact getLast_of_digits hdigits hd

/-- A number ends in a digit, unless it ends in its point. -/
theorem NumberText.getLast {cs : List Char} (h : NumberText cs) :
    ∃ c, cs.getLast? = some c ∧ (isDigit c = true ∨ c = '.') := by
  cases h with
  | @whole digits ex hne hd hex =>
    rcases getLast_append_exponent digits hex with rfl | ⟨c, hc, hdigit⟩
    · rw [List.append_nil]
      obtain ⟨c, hc, hdigit⟩ := getLast_of_digits hne hd
      exact ⟨c, hc, .inl hdigit⟩
    · exact ⟨c, hc, .inl hdigit⟩
  | @point digits fraction ex hne hd hf hex =>
    rw [← List.cons_append, ← List.append_assoc]
    rcases getLast_append_exponent (digits ++ '.' :: fraction) hex with rfl | ⟨c, hc, hdigit⟩
    · rw [List.append_nil, List.getLast?_append_of_ne_nil _ (List.cons_ne_nil _ _)]
      by_cases hfr : fraction = []
      · exact ⟨'.', by rw [hfr]; rfl, .inr rfl⟩
      · obtain ⟨c, hc, hdigit⟩ := getLast_of_digits hfr hf
        exact ⟨c, by rw [List.getLast?_cons, hc]; rfl, .inl hdigit⟩
    · exact ⟨c, hc, .inl hdigit⟩

/-- Words are set apart from what is before them, unless that is a number that ends in a digit and
there is nothing between. -/
theorem Tiled.apart (h : Tiled text 0 stop (earlier ++ t :: later)) :
    Apart (charBefore text t.offset) (text.drop t.offset) ∨
      ∃ others number, earlier = others ++ [number] ∧ number.kind = .number ∧
        number.stop = t.offset ∧ ∃ c, number.text.toList.getLast? = some c ∧ isDigit c = true := by
  obtain ⟨origin, ⟨hle, hskipped, hst, -⟩, horigin⟩ := h.drop_append
  by_cases hlt : origin < t.offset
  · -- something is skipped before the token
    have hlength : t.offset ≤ text.length := hst.stop_le.1.le.trans hst.stop_le.2
    left
    rw [charBefore_eq_getLast hlt hlength]
    refine hskipped.apart (List.ne_nil_of_length_pos ?_)
    rw [slice, List.length_take, List.length_drop]
    omega
  · have heq : origin = t.offset := by omega
    rcases horigin with ⟨rfl, h0⟩ | ⟨others, last, rfl, hlast, hstop⟩
    · left
      rw [← heq, h0]
      rintro ⟨⟩
    · rw [← heq, ← hstop, charBefore_eq_getLast hlast.stop_le.1 hlast.stop_le.2, ← hlast.slice]
      by_cases hnumber : last.kind = .number
      · have htext : TextOf last.kind last.text.toList := firstMatch_text hlast.taken
        rw [hnumber] at htext
        obtain ⟨c, hc, hdigit | rfl⟩ := NumberText.getLast htext
        · exact .inr ⟨others, last, rfl, hnumber, rfl, c, hc, hdigit⟩
        · -- a point is no part of a word
          exact .inl (apart_of_getLast hc (by decide))
      · exact .inl (firstMatch_apart hlast.taken fun hk => hnumber (Option.some.inj hk))

end

/-- Spacing does not matter. If a source is lexed and none of its tokens has a line end CR LF in its
text, then the texts of its tokens joined by single spaces are lexed too, into tokens with the same
texts and the same kinds, but for the identifiers whose text is a reserved word: these become
reserved words. And in the source such an identifier stands right after a number that ends in a
digit, with nothing between them. -/
theorem tokensOf_joined {source : String} {tokens : List Token} (h : tokensOf source = .ok tokens)
    (hc : ∀ t ∈ tokens, ¬ ['\r', '\n'] <:+: t.text.toList) :
    (∃ again, tokensOf (" ".intercalate (tokens.map Token.text)) = .ok again ∧
      again.map (fun t => (t.kind, t.text)) = tokens.map fun t => (t.apartKind, t.text)) ∧
    ∀ earlier t later, tokens = earlier ++ t :: later → t.kind = .identifier → t.text ∈ keywords →
      ∃ others number, earlier = others ++ [number] ∧ number.kind = .number ∧
        number.stop = t.offset ∧ ∃ c, number.text.toList.getLast? = some c ∧ isDigit c = true := by
  obtain ⟨htiled, hvisible⟩ := tiled_of_tokensOf h
  have hstands := htiled.standsIn
  constructor
  · have hread := rereads_joined hstands fun t ht =>
      (hstands t ht).isPlain (hvisible t ht) (hc t ht)
    obtain ⟨again, hscan, hspelled⟩ := hread.scans 0
    refine ⟨again, ?_, hspelled⟩
    rw [tokensOf, hread.plain.normalize_eq, scan, hscan]
    rfl
  · rintro earlier t later rfl hidentifier hreserved
    rcases htiled.apart with hapart | hafter
    · have ht := hstands t (List.mem_append_right _ List.mem_cons_self)
      have htaken := ht.taken
      rw [hidentifier] at htaken
      rw [ht.drop_eq] at hapart
      have hno := firstMatch_identifier htaken hapart
      rw [String.ofList_toList] at hno
      exact absurd hreserved hno
    · exact hafter

/-- In this source a reserved word stands right after a number and is taken for an identifier. -/
theorem tokensOf_joined_reserved :
    tokensOf "x=3int/**/;" =
      .ok [⟨.identifier, "x", 0⟩, ⟨.operator, "=", 1⟩, ⟨.number, "3", 2⟩, ⟨.identifier, "int", 3⟩,
        ⟨.delimiter, ";", 10⟩] ∧
    (∃ again, tokensOf "x = 3 int ;" = .ok again ∧
      again.map (fun t => (t.kind, t.text)) =
        [(.identifier, "x"), (.operator, "="), (.number, "3"), (.keyword, "int"),
          (.delimiter, ";")]) ∧
    ∃ (others : List Token) (number : Token),
      [⟨.identifier, "x", 0⟩, ⟨.operator, "=", 1⟩, ⟨.number, "3", 2⟩] = others ++ [number] ∧
        number.kind = .number ∧ number.stop = 3 ∧
        ∃ c, number.text.toList.getLast? = some c ∧ isDigit c = true := by
  have hsource : tokensOf "x=3int/**/;" =
      .ok [⟨.identifier, "x", 0⟩, ⟨.operator, "=", 1⟩, ⟨.number, "3", 2⟩, ⟨.identifier, "int", 3⟩,
        ⟨.delimiter, ";", 10⟩] := by
    cbv
  obtain ⟨hagain, hafter⟩ := tokensOf_joined hsource (by decide)
  exact ⟨hsource, hagain,
    hafter _ ⟨.identifier, "int", 3⟩ [⟨.delimiter, ";", 10⟩] rfl rfl (by decide)⟩

end ConsoleCpp.Token
